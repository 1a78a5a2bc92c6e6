import Cadi.Entities
import Cadi.Library.Digest
import Cadi.Library.JsonDumps
import Cadi.Library.Percentiles

namespace Cadi.Bootstrap
open Library
set_option autoImplicit true

section Ratios

/-- A share of a total; an empty total takes any share. -/
structure RatioComponents where
  numerator : ℚ
  denominator : ℚ
  numerator_nonneg : 0 ≤ numerator
  denominator_nonneg : 0 ≤ denominator
  bounded : 0 < denominator → numerator ≤ denominator

theorem RatioComponents.eq_iff {r s : RatioComponents} :
    r = s ↔ r.numerator = s.numerator ∧ r.denominator = s.denominator := by
  cases r
  cases s
  simp only [mk.injEq]

instance : DecidableEq RatioComponents := fun _ _ => decidable_of_iff _ RatioComponents.eq_iff.symm

def RatioComponents.new (numerator denominator : ℚ) : Except PyError RatioComponents :=
  if hn : 0 ≤ numerator then
    if hd : 0 ≤ denominator then
      if hb : 0 < denominator → numerator ≤ denominator then .ok ⟨numerator, denominator, hn, hd, hb⟩
      else .error (.valueError "ratio numerator cannot exceed denominator")
    else .error (.valueError "denominator must be finite and non-negative")
  else .error (.valueError "numerator must be finite and non-negative")

def RatioComponents.value (c : RatioComponents) : Option ℚ :=
  if c.denominator = 0 then none else some (c.numerator / c.denominator)

def aggregateRatio (components : List RatioComponents) : Except PyError RatioComponents :=
  RatioComponents.new (components.map RatioComponents.numerator).sum
    (components.map RatioComponents.denominator).sum

end Ratios

section Resamples

def c73cProtocolSchema : String := "cadi.c7.3c.paired-retention-evaluation-protocol.v1"

def c7BootstrapResamples : Nat := 10000

def c7BootstrapSeed : Nat := 20260911

/-- The uniform draw that a hash of the UTF-8 encoding of the parts makes. -/
def counterUniform (sha256 : String → Digest) (parts : List Json) : ℚ :=
  (sha256 (dumps (.arr (.str c73cProtocolSchema :: parts)))).unit

variable (sha256 : String → Digest)

def bootstrapResampleIndices (sampleSize resampleIndex : Nat) : Except PyError (List Nat) := do
  raiseIf (sampleSize = 0) (.valueError "sample_size must be a positive integer")
  raiseIf (¬ resampleIndex < c7BootstrapResamples)
    (.valueError "resample_index is outside the frozen bootstrap range")
  return (List.range sampleSize).map fun drawIndex =>
    ⌊counterUniform sha256 [.str "bootstrap", .num (.int c7BootstrapSeed), .num (.int sampleSize),
      .num (.int resampleIndex), .num (.int drawIndex)] * (sampleSize : ℚ)⌋₊

def percentileType7 (values : List ℚ) (probability : ℚ) : Except PyError ℚ := do
  let ordered := sortedBy id values
  raiseIf (ordered = []) (.valueError "values must be non-empty")
  raiseIf (¬ (0 ≤ probability ∧ probability ≤ 1)) (.valueError "probability must lie in [0,1]")
  if ordered.length = 1 then return ordered.getD 0 0
  let h := ((ordered.length - 1 : Nat) : ℚ) * probability
  let lower := ⌊h⌋₊
  let upper := ⌈h⌉₊
  if lower = upper then return ordered.getD lower 0
  let weight := h - lower
  return ordered.getD lower 0 * (1 - weight) + ordered.getD upper 0 * weight

def percentile95Interval (values : List ℚ) : Except PyError (ℚ × ℚ) := do
  return (← percentileType7 values (25 / 1000), ← percentileType7 values (975 / 1000))

end Resamples

section Comparisons

inductive ComparisonStatus where
  | comparable | insufficientMetricDenominator
deriving DecidableEq

structure Comparison where
  status : ComparisonStatus
  pointDifference : Option ℚ
  ci95 : Option (ℚ × ℚ)
  favorable : Bool
  derivedFrom : Option String := none
deriving DecidableEq

/-- The components at the drawn positions. -/
def resample (items : List RatioComponents) (indices : List Nat) : Except PyError (List RatioComponents) :=
  indices.mapM fun index =>
    match items[index]? with
    | some item => .ok item
    | none => .error (.runtimeError "tuple index out of range")

variable (sha256 : String → Digest)

/-- The differences of the resamples, up to the first without a denominator. -/
def resampleDifferences (b4 baseline : List RatioComponents) :
    List Nat → Except PyError (Option (List ℚ))
  | [] => return some []
  | resampleIndex :: rest => do
    let indices ← bootstrapResampleIndices sha256 b4.length resampleIndex
    let rb4 ← aggregateRatio (← resample b4 indices)
    let rbase ← aggregateRatio (← resample baseline indices)
    match rb4.value, rbase.value with
    | some x, some y => return (← resampleDifferences b4 baseline rest).map ((x - y) :: ·)
    | _, _ => return none

def pairedRatioComparison (b4 baseline : List RatioComponents) : Except PyError Comparison := do
  raiseIf (b4.length ≠ baseline.length ∨ b4 = [])
    (.valueError "paired ratio comparison requires equal non-empty Program sequences")
  let b4Total ← aggregateRatio b4
  let baseTotal ← aggregateRatio baseline
  match b4Total.value, baseTotal.value with
  | some x, some y =>
    match ← resampleDifferences sha256 b4 baseline (List.range c7BootstrapResamples) with
    | some diffs => return ⟨.comparable, some (x - y), some (← percentile95Interval diffs), false, none⟩
    | none => return ⟨.insufficientMetricDenominator, some (x - y), none, false, none⟩
  | _, _ => return ⟨.insufficientMetricDenominator, none, none, false, none⟩

/-- Whether the comparison favours the first arm under the metric. -/
def applyFavorableDirection (metric : String) (comparison : Comparison) : Comparison :=
  match comparison.status, comparison.ci95 with
  | .comparable, some (lo, hi) =>
    { comparison with favorable := if metric = "USR" then 0 < lo else hi < 0 }
  | _, _ => { comparison with favorable := false }

def wsrFromUsrComparison (usr : Comparison) : Comparison where
  status := usr.status
  pointDifference := usr.pointDifference.map fun d => -d
  ci95 := usr.ci95.map fun ci => (-ci.2, -ci.1)
  favorable := usr.ci95.any fun ci => usr.status = .comparable ∧ -ci.1 < 0
  derivedFrom := some "EXACT_USR_COMPLEMENT"

def ccrFromRrComparison (rr : Comparison) : Comparison :=
  { rr with derivedFrom := some "EXACT_RR_FIXED_1024_TOKEN_IDENTITY" }

end Comparisons

end Cadi.Bootstrap
