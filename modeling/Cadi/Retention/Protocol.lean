import Cadi.Library.Extent
import Cadi.Core.Stores
import Mathlib.Data.Prod.Lex
import Mathlib.Order.Fin.Basic

namespace Cadi.Retention
open Library
set_option autoImplicit true

inductive RetentionPolicyID where
  | lru | fixedTtl | sessionPinning | lifecycleB4
deriving DecidableEq

inductive CapacityOutcome where
  | eligible | capacityInfeasible
deriving DecidableEq

inductive ResidencyEndReason where
  | reuse | eviction | ttlExpiry | release | invalidation | programEnd
deriving DecidableEq

inductive ExperimentSeries where
  | p1DeepReuse | p2ToolGapRetention | p3BranchCachePressure | p4FanoutSharedPrefix
  | p5MigrationVsRecompute | p7StatelessOverhead
deriving DecidableEq

inductive ParameterSource where
  | src1 | src2 | src3 | src4
deriving DecidableEq

def c73DefaultStateTokens : Nat := 16

def c6StateBytesPerToken : Nat := 524288

def c73DefaultStateBytes : Nat := c73DefaultStateTokens * c6StateBytesPerToken

section Lifecycles

def c73ContinuationLifecycles : List ContinuationLifecycle :=
  [.active, .waiting, .speculative, .terminal]

def deriveStateLifecycle (values : List ContinuationLifecycle) : Except PyError StateLifecycle :=
  if ∃ v ∈ values, v ∉ c73ContinuationLifecycles then
    .error (.valueError "dependent Continuation lifecycle is outside the Paper-1 C7.3 minimum")
  else if .active ∈ values then .ok .active
  else if .waiting ∈ values then .ok .waiting
  else if .speculative ∈ values then .ok .speculative
  else .ok .terminal

def lifecyclePriority : StateLifecycle → Nat
  | .active => 3
  | .waiting => 2
  | .speculative => 1
  | .terminal => 0

def lifecycleName : StateLifecycle → String
  | .active => "ACTIVE"
  | .waiting => "WAITING"
  | .speculative => "SPECULATIVE"
  | .terminal => "TERMINAL"

end Lifecycles

section Grids

/-- The values that the frozen capacity axis allows. -/
inductive CacheCapacityRatio where
  | quarter | half | one | two
deriving DecidableEq

theorem representable_second (k : Nat) (hk : k ≤ 2 ^ 53) : Representable (k * 2 ^ 1072) := by
  apply representable_mul_pow hk
  calc k * 2 ^ 1072 ≤ 2 ^ 53 * 2 ^ 1072 := Nat.mul_le_mul_right _ hk
    _ = 2 ^ 1125 := by rw [← Nat.pow_add]
    _ < 2 ^ 2098 := Nat.pow_lt_pow_right (by decide) (by decide)

/-- A multiple of a quarter of a second. -/
def quarters (k : Nat) (hk : k ≤ 2 ^ 53) : Time :=
  ⟨false, k * 2 ^ 1072, representable_second k hk, fun h => (Bool.false_ne_true h).elim⟩

/-- The first quarters of a second. -/
def tick (k : Nat) : Time := quarters (k % 8) ((Nat.mod_lt k (by decide)).le.trans (by decide))

def CacheCapacityRatio.number : CacheCapacityRatio → Number
  | .quarter => (quarters 1 (by decide)).toNumber
  | .half => (quarters 2 (by decide)).toNumber
  | .one => (quarters 4 (by decide)).toNumber
  | .two => (quarters 8 (by decide)).toNumber

/-- `math.floor(reference * ratio)`, where the product is exact for a working set of States. -/
def CacheCapacityRatio.scaled : CacheCapacityRatio → Nat → Nat
  | .quarter, n => n / 4
  | .half, n => n / 2
  | .one, n => n
  | .two, n => 2 * n

/-- The values of the sensitivity grid. -/
inductive TtlSeconds where
  | quarter | one | five | thirty | hundredTwenty
deriving DecidableEq

def TtlSeconds.time : TtlSeconds → Time
  | .quarter => quarters 1 (by decide)
  | .one => quarters 4 (by decide)
  | .five => quarters 20 (by decide)
  | .thirty => quarters 120 (by decide)
  | .hundredTwenty => quarters 480 (by decide)

def capacityBytes (referenceWorkingSetBytes : Nat) (cacheCapacityRatio : CacheCapacityRatio) :
    Except PyError Nat :=
  if referenceWorkingSetBytes = 0 then
    .error (.valueError "reference_working_set_bytes must be positive")
  else .ok (cacheCapacityRatio.scaled referenceWorkingSetBytes)

end Grids

section Keys

abbrev LruKey := Nat ×ₗ Nat ×ₗ String

def lruEvictionKey (lastTouchTimeSeconds : Time) (admissionOrdinal : Nat) (stateId : String) :
    Except PyError LruKey :=
  if stateId = "" then .error (.valueError "state_id must be a non-empty string")
  else .ok (toLex (lastTouchTimeSeconds.units, toLex (admissionOrdinal, stateId)))

def lifecycleEvictionKey (lifecycle : StateLifecycle) (lastTouchTimeSeconds : Time)
    (admissionOrdinal : Nat) (stateId : String) : Except PyError (Nat ×ₗ LruKey) := do
  let key ← lruEvictionKey lastTouchTimeSeconds admissionOrdinal stateId
  return toLex (lifecyclePriority lifecycle, key)

end Keys

section Residency

/-- The integer times the seconds, rounded after the integer is converted to a float. -/
def byteSeconds (size : Nat) (seconds : Time) : Except PyError Extent :=
  match Time.ofNat? size with
  | some factor => .ok (.ofTime (factor.mul seconds))
  | none => .error (.overflowError "int too large to convert to float")

/-- The useful and the wasted byte-seconds of a residency interval. -/
def residencyIntervalByteSeconds (stateSizeBytes : Nat) (startSeconds endSeconds : Time)
    (endReason : ResidencyEndReason) : Except PyError (Extent × Extent) :=
  if h : startSeconds ≤ endSeconds then do
    let product ← byteSeconds stateSizeBytes (endSeconds.sub startSeconds h)
    return if endReason = .reuse then (product, .zero) else (.zero, product)
  else .error (.valueError "residency interval end cannot precede start")

theorem representable_stateBytes : Representable (c73DefaultStateBytes * 2 ^ 1074) := by
  apply representable_mul_pow (by decide)
  rw [show c73DefaultStateBytes = 2 ^ 23 from rfl, ← Nat.pow_add]
  exact Nat.pow_lt_pow_right (by decide) (by decide)

theorem byteSeconds_total (t : Time) : ∃ product, byteSeconds c73DefaultStateBytes t = .ok product := by
  obtain ⟨factor, hfactor⟩ := Time.ofNat?_representable representable_stateBytes
  unfold byteSeconds
  rw [hfactor]
  exact ⟨_, rfl⟩

/-- An interval of a State of the default size that does not end before its start has its
byte-seconds. -/
theorem residencyIntervalByteSeconds_total {a b : Time} (h : a ≤ b) (r : ResidencyEndReason) :
    ∃ useful wasted, residencyIntervalByteSeconds c73DefaultStateBytes a b r = .ok (useful, wasted) := by
  obtain ⟨product, hproduct⟩ := byteSeconds_total (b.sub a h)
  simp only [residencyIntervalByteSeconds, dif_pos h, hproduct, Except.ok_bind]
  split
  · exact ⟨product, .zero, rfl⟩
  · exact ⟨.zero, product, rfl⟩

end Residency

section Manifests

def isSha256 (value : String) : Bool :=
  value.length = 64 && value.toList.all fun c => '0' ≤ c && c ≤ '9' || 'a' ≤ c && c ≤ 'f'

def requireSha256 (value name : String) : Except PyError Unit :=
  raiseIf (isSha256 value = false) (.valueError s!"{name} must be a lowercase SHA-256 hex digest")

/-- A retention manifest without the protocol, size map, token and byte fields, whose values are
frozen. -/
structure C73RetentionManifest where
  baseC7ManifestFingerprint : String
  retentionPolicyId : RetentionPolicyID
  ttlSeconds : Option TtlSeconds
  programCaseFingerprint : String
  referenceWorkingSetBytes : Nat
  cacheCapacityRatio : CacheCapacityRatio
  capacityBytes : Nat
deriving DecidableEq

def C73RetentionManifest.postInit (m : C73RetentionManifest) : Except PyError Unit := do
  requireSha256 m.baseC7ManifestFingerprint "base_c7_manifest_fingerprint"
  if m.retentionPolicyId = .fixedTtl then
    raiseIf (m.ttlSeconds = none)
      (PyError.valueError "FIXED_TTL retention manifest requires ttl_seconds")
  else
    raiseIf (m.ttlSeconds ≠ none) (PyError.valueError "ttl_seconds is valid only for FIXED_TTL")
  requireSha256 m.programCaseFingerprint "program_case_fingerprint"
  let expectedCapacity ← Retention.capacityBytes m.referenceWorkingSetBytes m.cacheCapacityRatio
  raiseIf (m.capacityBytes ≠ expectedCapacity)
    (PyError.valueError "capacity_bytes must equal the frozen capacity normalization")

/-- The fields of a base manifest that the engine reads, and the digest of the whole of it. -/
structure C7ExperimentManifest where
  fingerprint : String
  series : ExperimentSeries
  parameters : Dict String Number
  parameterSources : Dict String ParameterSource

def requiredParameters : ExperimentSeries → List String
  | .p2ToolGapRetention =>
    ["cache_capacity_ratio", "state_tokens", "tool_gap_seconds", "tool_return_probability"]
  | .p3BranchCachePressure =>
    ["branch_width", "cache_capacity_ratio", "speculative_fraction", "state_tokens"]
  | _ => []

/-- The dictionary has exactly the listed keys. -/
def Covers (d : Dict String α) (names : List String) : Prop :=
  (∀ k ∈ d.keys, k ∈ names) ∧ ∀ k ∈ names, k ∈ d.keys

instance (d : Dict String α) (names : List String) : Decidable (Covers d names) :=
  inferInstanceAs (Decidable (_ ∧ _))

def equalTo (value : Option Number) (expected : Number) : Bool :=
  match value with
  | some x => x.eq expected
  | none => false

def validateC73BaseManifest (base : C7ExperimentManifest) (m : C73RetentionManifest) :
    Except PyError Unit := do
  raiseIf (base.fingerprint ≠ m.baseC7ManifestFingerprint)
    (PyError.valueError "retention manifest does not bind the supplied base C7 manifest")
  raiseIf (base.series ≠ .p2ToolGapRetention ∧ base.series ≠ .p3BranchCachePressure)
    (PyError.valueError "C7.3b base manifest must be P2 or P3")
  raiseIf (¬ Covers base.parameters (requiredParameters base.series)) (PyError.valueError
    ("C7.3b base manifest must contain exactly the required parameters for its frozen " ++
      "P2/P3 series"))
  raiseIf (¬ Covers base.parameterSources (requiredParameters base.series)) (PyError.valueError
    "C7.3b base manifest parameter sources must exactly cover the required parameters")
  raiseIf (equalTo (base.parameters.get? "state_tokens") (.int c73DefaultStateTokens) = false)
    (PyError.valueError "C7.3b base manifest must include frozen state_tokens=16")
  raiseIf (base.parameterSources.get? "state_tokens" ≠ some .src4)
    (PyError.valueError "C7.3b state_tokens design point must remain P-SRC4")
  raiseIf (equalTo (base.parameters.get? "cache_capacity_ratio") m.cacheCapacityRatio.number = false)
    (PyError.valueError "base and retention manifests disagree on cache_capacity_ratio")

end Manifests

end Cadi.Retention
