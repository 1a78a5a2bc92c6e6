import Cadi.Retention.Program

namespace Cadi.Retention
open Library
set_option autoImplicit true

inductive RetentionAuditKind where
  | invalidated | lifecycleUpdated | sessionStatusUpdated | policyReleased | ttlExpired | reuseHit
  | reuseMiss | reuseSemanticReject | admitted | admissionSkipped | evicted | capacityInfeasible
  | checkpoint | programEndRelease
deriving DecidableEq

structure RetentionAuditRecord where
  sequence : Nat
  timeSeconds : Time
  kind : RetentionAuditKind
  policyId : RetentionPolicyID
  stateId : Option String
  reason : String
  residentStateIds : List String
  residentBytesAfter : Nat
  usefulByteSecondsTotal : Extent
  wastedByteSecondsTotal : Extent
  capacityOutcome : CapacityOutcome
deriving DecidableEq

structure RetentionPolicyResult where
  baseC7ManifestFingerprint : String
  programCaseFingerprint : String
  policyId : RetentionPolicyID
  capacityOutcome : CapacityOutcome
  eligibleReuseOpportunities : Nat
  consumedReuseOpportunities : Nat
  semanticRejectionCount : Nat
  usefulByteSeconds : Extent
  wastedByteSeconds : Extent
  totalClassifiedByteSeconds : Extent
  usefulResidencyFraction : Binary64
  wastedResidencyFraction : Binary64
  maxResidentBytes : Nat
  capacityBytes : Nat
  audit : List RetentionAuditRecord
deriving DecidableEq

structure Resident where
  intervalStartSeconds : Time
  lastTouchTimeSeconds : Time
  admissionTimeSeconds : Time
  admissionOrdinal : Nat
  expirySeconds : Option Extent
deriving DecidableEq

/-- The fields that a run changes. -/
structure RetentionRun where
  truth : Dict String Truth
  sessions : Dict String Bool
  resident : Dict String Resident := ∅
  capacityOutcome : CapacityOutcome := .eligible
  eligibleReuseOpportunities : Nat := 0
  consumedReuseOpportunities : Nat := 0
  semanticRejectionCount : Nat := 0
  useful : Extent := .zero
  wasted : Extent := .zero
  maxResidentBytes : Nat := 0
  audit : List RetentionAuditRecord := []
  sequence : Nat := 0
deriving DecidableEq

abbrev RetentionM := Stateful PyError RetentionRun

def sortedIds (ids : List String) : List String := ids.insertionSort (· ≤ ·)

section Run
variable (c : RetentionProgramCase) (manifest : C73RetentionManifest)

/-- The sizes of the listed States. -/
def bytesOf (ids : List String) : Except PyError Nat := do
  let sizes ← ids.mapM fun stateId => (·.sizeBytes) <$> item c.specs stateId
  return sizes.sum

def residentBytes (run : RetentionRun) : Except PyError Nat := bytesOf c run.resident.keys

def record (now : Time) (kind : RetentionAuditKind) (stateId : Option String) (reason : String) :
    RetentionM Unit := do
  let run ← get
  let residentBytesNow ← residentBytes c run
  modify fun run => { run with
    audit := run.audit ++ [{
      sequence := run.sequence, timeSeconds := now, kind, policyId := manifest.retentionPolicyId,
      stateId, reason, residentStateIds := sortedIds run.resident.keys,
      residentBytesAfter := residentBytesNow, usefulByteSecondsTotal := run.useful,
      wastedByteSecondsTotal := run.wasted, capacityOutcome := run.capacityOutcome }]
    sequence := run.sequence + 1
    maxResidentBytes := max run.maxResidentBytes residentBytesNow }
  raiseIf (manifest.capacityBytes < residentBytesNow) (PyError.assertionError
    "retention engine exposed capacity overcommit after an observable action")

def closeInterval (stateId : String) (now : Time) (reason : ResidencyEndReason) (remove : Bool) :
    RetentionM Unit := do
  let run ← get
  let resident ← item run.resident stateId
  let spec ← item c.specs stateId
  let (useful, wasted) ← residencyIntervalByteSeconds spec.sizeBytes resident.intervalStartSeconds
    now reason
  modify fun run => { run with
    useful := run.useful.add useful
    wasted := run.wasted.add wasted
    resident := if remove then run.resident.erase stateId
      else run.resident.set stateId
        { resident with intervalStartSeconds := now, lastTouchTimeSeconds := now } }

def markInfeasible (now : Time) (stateId : Option String) (reason : String) : RetentionM Unit := do
  modify fun run => { run with capacityOutcome := .capacityInfeasible }
  record c manifest now .capacityInfeasible stateId reason

def processInvalidation (e : RetentionEvent) (stateId : String) : RetentionM Unit := do
  let run ← get
  let t ← item run.truth stateId
  modify fun run => { run with truth := run.truth.set stateId { t with valid := false } }
  if stateId ∈ run.resident then closeInterval c stateId e.timeSeconds .invalidation true
  record c manifest e.timeSeconds .invalidated stateId "COMMON_INVALID_RELEASE"

def processDependents (e : RetentionEvent) (stateId : String)
    (lifecycles : List ContinuationLifecycle) : RetentionM Unit := do
  let lifecycle ← deriveStateLifecycle lifecycles
  let run ← get
  let t ← item run.truth stateId
  modify fun run => { run with truth := run.truth.set stateId { t with lifecycle } }
  record c manifest e.timeSeconds .lifecycleUpdated stateId (lifecycleName lifecycle)

def processSessionStatus (e : RetentionEvent) (sessionId : String) (live : Bool) :
    RetentionM Unit := do
  modify fun run => { run with sessions := run.sessions.set sessionId live }
  record c manifest e.timeSeconds .sessionStatusUpdated none
    (sessionId ++ ":" ++ if live then "LIVE" else "ENDED")

/-- The resident States that the policy releases. -/
def toRelease (run : RetentionRun) : Except PyError (List String) :=
  match manifest.retentionPolicyId with
  | .sessionPinning => run.resident.keys.filterM fun stateId => do
    let spec ← item c.specs stateId
    let live ← item run.sessions spec.sessionId
    return !live
  | .lifecycleB4 => run.resident.keys.filterM fun stateId => do
    let t ← item run.truth stateId
    return t.lifecycle = .terminal
  | _ => .ok []

def releaseReason : RetentionPolicyID → String
  | .sessionPinning => "SESSION_ENDED"
  | _ => "B4_TERMINAL_RELEASE"

def policyReleases (now : Time) : RetentionM Unit := do
  let run ← get
  let released ← toRelease c manifest run
  (sortedIds released).forM fun stateId => do
    closeInterval c stateId now .release true
    record c manifest now .policyReleased stateId (releaseReason manifest.retentionPolicyId)

/-- The State has an expiry that is not after the time. -/
def Resident.expiredBy (r : Resident) (now : Time) : Bool :=
  match r.expirySeconds with
  | some expiry => expiry ≤ .finite now
  | none => false

/-- `expiry != now` -/
def Resident.expiresAt (r : Resident) (now : Time) : Bool :=
  match r.expirySeconds with
  | some (.finite expiry) => expiry.units = now.units
  | _ => false

def expire (now : Time) (stateId : String) : RetentionM Unit := do
  let run ← get
  let resident ← item run.resident stateId
  raiseIf (resident.expiresAt now = false)
    (PyError.assertionError "TTL expiry must be processed at its exact logical time")
  closeInterval c stateId now .ttlExpiry true
  record c manifest now .ttlExpired stateId "FIXED_FROM_ADMISSION"

def ttlExpiries (now : Time) : RetentionM Unit := do
  if manifest.retentionPolicyId = .fixedTtl then
    let run ← get
    (sortedIds (run.resident.select fun p => p.2.expiredBy now)).forM (expire c manifest now)

def reuse (e : RetentionEvent) (stateId : String) (semanticValid : Bool) : RetentionM Unit := do
  modify fun run => { run with eligibleReuseOpportunities := run.eligibleReuseOpportunities + 1 }
  let run ← get
  let t ← item run.truth stateId
  if (semanticValid && t.valid) = false then
    modify fun run => { run with semanticRejectionCount := run.semanticRejectionCount + 1 }
    record c manifest e.timeSeconds .reuseSemanticReject stateId
      "INDEPENDENT_SEMANTIC_ORACLE_REJECT"
  else if stateId ∉ run.resident then
    record c manifest e.timeSeconds .reuseMiss stateId "NOT_RESIDENT"
  else
    modify fun run => { run with consumedReuseOpportunities := run.consumedReuseOpportunities + 1 }
    closeInterval c stateId e.timeSeconds .reuse false
    record c manifest e.timeSeconds .reuseHit stateId "RESIDENT_AND_SEMANTICALLY_VALID"

def activeProtectedBytes (run : RetentionRun) : Except PyError Nat := do
  let active ← run.resident.keys.filterM fun stateId => do
    let t ← item run.truth stateId
    return t.lifecycle = .active
  bytesOf c active

/-- The place of the event in the global order of the admissions. -/
def admissionOccurrenceOrdinal (e : RetentionEvent) : Except PyError Nat :=
  let admissions := c.events.filter (·.phase = 6)
  let orderedAdmissions := admissions.insertionSort fun a b => a.key ≤ b.key
  match orderedAdmissions.findIdx? (·.eventId = e.eventId) with
  | some ordinal => .ok ordinal
  | none => .error (.keyError e.eventId)

/-- What the policy says of a valid State that is not resident: nothing, or the audit kind and the
reason of the refusal. -/
def refusal (run : RetentionRun) (spec : RetentionStateSpec) (t : Truth) :
    Except PyError (Option (RetentionAuditKind × String)) :=
  match manifest.retentionPolicyId with
  | .lru | .fixedTtl =>
    if manifest.capacityBytes < spec.sizeBytes then
      .ok (some (.admissionSkipped, "OBJECT_EXCEEDS_CAPACITY"))
    else .ok none
  | .sessionPinning => do
    let live ← item run.sessions spec.sessionId
    if live = false then return some (.admissionSkipped, "SESSION_NOT_LIVE")
    let bytes ← residentBytes c run
    if manifest.capacityBytes < bytes + spec.sizeBytes then
      return some (.capacityInfeasible, "SESSION_PINNED_BYTES_EXCEED_CAPACITY")
    return none
  | .lifecycleB4 => do
    if t.lifecycle = .terminal then return some (.admissionSkipped, "B4_TERMINAL_RELEASE")
    if t.lifecycle ≠ .active then return none
    let bytes ← activeProtectedBytes c run
    if manifest.capacityBytes < bytes + spec.sizeBytes then
      return some (.capacityInfeasible, "B4_ACTIVE_PROTECTED_BYTES_EXCEED_CAPACITY")
    return none

/-- `event.time_seconds + float(self.manifest.ttl_seconds)` under the fixed TTL. -/
def expiryOf (now : Time) : Option Extent :=
  match manifest.retentionPolicyId, manifest.ttlSeconds with
  | .fixedTtl, some ttl => some (.ofTime (now.add ttl.time))
  | _, _ => none

/-- The State becomes resident; the audit waits for the enforcement of the capacity. -/
def makeResident (e : RetentionEvent) (stateId : String) : RetentionM Unit := do
  let ordinal ← admissionOccurrenceOrdinal c e
  modify fun run => { run with resident := run.resident.set stateId {
    intervalStartSeconds := e.timeSeconds, lastTouchTimeSeconds := e.timeSeconds,
    admissionTimeSeconds := e.timeSeconds, admissionOrdinal := ordinal,
    expirySeconds := expiryOf manifest e.timeSeconds } }

def refuse (now : Time) (stateId : String) (why : RetentionAuditKind × String) : RetentionM Unit :=
  if why.1 = .capacityInfeasible then markInfeasible c manifest now stateId why.2
  else record c manifest now why.1 stateId why.2

def admitState (e : RetentionEvent) (stateId : String) : RetentionM Unit := do
  let spec ← item c.specs stateId
  let run ← get
  let t ← item run.truth stateId
  modify fun run => { run with truth := run.truth.set stateId { t with produced := true } }
  if t.valid = false then
    record c manifest e.timeSeconds .admissionSkipped stateId "INVALID_STATE"
  else if stateId ∈ run.resident then
    record c manifest e.timeSeconds .admissionSkipped stateId "ALREADY_RESIDENT"
  else
    let run ← get
    match ← refusal c manifest run spec t with
    | some why => refuse c manifest e.timeSeconds stateId why
    | none => makeResident c manifest e stateId

/-- The resident State with the smallest key. -/
def victim [LinearOrder κ] (ids : List String) (key : String → Except PyError κ) :
    Except PyError (Option String) := do
  let keyed ← ids.mapM fun stateId => (·, stateId) <$> key stateId
  return (keyed.argmin Prod.fst).map Prod.snd

def lruKeyOf (run : RetentionRun) (stateId : String) : Except PyError LruKey := do
  let r ← item run.resident stateId
  lruEvictionKey r.lastTouchTimeSeconds r.admissionOrdinal stateId

def lifecycleKeyOf (run : RetentionRun) (stateId : String) : Except PyError (Nat ×ₗ LruKey) := do
  let t ← item run.truth stateId
  let r ← item run.resident stateId
  lifecycleEvictionKey t.lifecycle r.lastTouchTimeSeconds r.admissionOrdinal stateId

/-- The next State to evict and the reason of its eviction. -/
def nextEviction (run : RetentionRun) : Except PyError (Option (String × String)) :=
  match manifest.retentionPolicyId with
  | .lifecycleB4 => do
    let candidates ← run.resident.keys.filterM fun stateId => do
      let t ← item run.truth stateId
      return t.lifecycle ≠ .active
    match ← victim candidates (lifecycleKeyOf run) with
    | none => .error (.assertionError "B4 protected overcapacity cannot be repaired by ordinary eviction")
    | some stateId =>
      let t ← item run.truth stateId
      return some (stateId, "B4_" ++ lifecycleName t.lifecycle ++ "_CAPACITY")
  | _ => do
    match ← victim run.resident.keys (lruKeyOf run) with
    | none => .error (.valueError "min() iterable argument is empty")
    | some stateId => return some (stateId, "LRU_CAPACITY")

/-- Evictions while the resident bytes exceed the capacity. Each removes a State, so there are at
most as many as residents. -/
def evictions (now : Time) : Nat → RetentionM (List (String × String))
  | 0 => return []
  | residents + 1 => do
    let run ← get
    let bytes ← residentBytes c run
    if bytes ≤ manifest.capacityBytes then return []
    match ← nextEviction manifest run with
    | none => return []
    | some eviction =>
      closeInterval c eviction.1 now .eviction true
      let rest ← evictions now residents
      return eviction :: rest

/-- The audit of an admission that was enforced. -/
def auditAdmission (now : Time) (stateId : String) : RetentionM Unit := do
  let run ← get
  if stateId ∈ run.resident then
    record c manifest now .admitted stateId "RESIDENT_AFTER_CAPACITY_ENFORCEMENT"
  else if ¬ ∃ r ∈ run.audit, r.timeSeconds.units = now.units ∧ r.stateId = some stateId ∧
      (r.kind = .admissionSkipped ∨ r.kind = .capacityInfeasible ∨ r.kind = .evicted) then
    record c manifest now .admissionSkipped stateId "NOT_RESIDENT_AFTER_CAPACITY_ENFORCEMENT"

/-- The part of the enforcement that brings the resident bytes within the capacity. -/
def shrink (now : Time) : RetentionM (List (String × String)) := do
  let run ← get
  match manifest.retentionPolicyId with
  | .sessionPinning =>
    let bytes ← residentBytes c run
    raiseIf (manifest.capacityBytes < bytes) (PyError.assertionError
      "session pinning overcommit escaped pre-admission infeasibility")
    return []
  | .lru | .fixedTtl => evictions c manifest now run.resident.keys.length
  | .lifecycleB4 =>
    let bytes ← activeProtectedBytes c run
    if manifest.capacityBytes < bytes then
      markInfeasible c manifest now none "B4_ACTIVE_PROTECTED_BYTES_EXCEED_CAPACITY"
    evictions c manifest now run.resident.keys.length

def capacityEnforce (now : Time) (admitted : List String) : RetentionM Unit := do
  let pendingEvictions ← shrink c manifest now
  pendingEvictions.forM fun eviction => record c manifest now .evicted eviction.1 eviction.2
  admitted.forM (auditAdmission c manifest now)

/-- The earliest expiry after a time. -/
def nextExpiry (run : RetentionRun) (after : Number) : Option Extent :=
  if manifest.retentionPolicyId = .fixedTtl then
    ((run.resident.values.filterMap (·.expirySeconds)).filter fun expiry =>
      after.lt expiry.toNumber).argmin Extent.magnitude
  else none

end Run

section Instants
variable (c : RetentionProgramCase) (manifest : C73RetentionManifest)

def settleEvent (e : RetentionEvent) : RetentionM Unit :=
  match e.action with
  | .invalidate stateId => processInvalidation c manifest e stateId
  | _ => return

def updateEvent (e : RetentionEvent) : RetentionM Unit :=
  match e.action with
  | .dependents stateId lifecycles => processDependents c manifest e stateId lifecycles
  | .sessionStatus sessionId live => processSessionStatus c manifest e sessionId live
  | _ => return

def reuseEvent (e : RetentionEvent) : RetentionM Unit :=
  match e.action with
  | .reuse stateId semanticValid => reuse c manifest e stateId semanticValid
  | _ => return

/-- The State that the event makes resident, if it does. -/
def admitEvent (e : RetentionEvent) : RetentionM (Option String) := do
  match e.action with
  | .admission stateId =>
    let before ← get
    admitState c manifest e stateId
    let after ← get
    return if before.resident.keys.length < after.resident.keys.length then some stateId else none
  | _ => return none

/-- The phases before the expiries. -/
def settle (now : Time) (events : List RetentionEvent) : RetentionM Unit := do
  events.forM (settleEvent c manifest)
  events.forM (updateEvent c manifest)
  policyReleases c manifest now

/-- The phases from the expiries to the touches. -/
def serve (now : Time) (events : List RetentionEvent) : RetentionM Unit := do
  ttlExpiries c manifest now
  events.forM (reuseEvent c manifest)

/-- The admissions of an instant, which return the States that became resident. -/
def admitAll : List RetentionEvent → RetentionM (List String)
  | [] => return []
  | e :: es => do
    let first ← admitEvent c manifest e
    let rest ← admitAll es
    return first.toList ++ rest

/-- The capacity enforcement and the checkpoint. -/
def conclude (now : Time) (admitted : List String) : RetentionM Unit := do
  capacityEnforce c manifest now admitted
  record c manifest now .checkpoint none "INTERVAL_ACCOUNTING_CHECKPOINT"

/-- One pass of the loop. -/
def instant (now : Time) (events : List RetentionEvent) : RetentionM Unit := do
  settle c manifest now events
  serve c manifest now events
  let admitted ← admitAll c manifest events
  conclude c manifest now admitted

end Instants

section Loop
variable (c : RetentionProgramCase) (manifest : C73RetentionManifest)

/-- The locals of the loop and the state of the engine at its head. -/
structure Head where
  external : List Instant
  lastTime : Number
  run : RetentionRun

/-- The candidates that do not lie after the end of the program. -/
def withinProgram (value : Option Extent) : Option Time :=
  match value with
  | some (.finite t) => if t ≤ c.programEndSeconds then some t else none
  | _ => none

def nextExternal (h : Head) : Option Time :=
  withinProgram c (h.external.head?.map fun i => .finite i.1)

def nextTime (h : Head) : Option Time :=
  match nextExternal c h, withinProgram c (nextExpiry manifest h.run h.lastTime) with
  | none, none => none
  | some a, none => some a
  | none, some b => some b
  | some a, some b => if b < a then some b else some a

/-- The time and the events of the next pass, and the external instants left after it. -/
def nextInstant (h : Head) : Option (Instant × List Instant) :=
  match nextTime c manifest h with
  | none => none
  | some now =>
    match h.external with
    | [] => some ((now, []), [])
    | i :: rest =>
      if i.1.units = now.units then some ((now, i.2), rest) else some ((now, []), h.external)

/-- The passes of the loop, at most the given number of them; they return the instants left, or
nothing when there are more passes. -/
def passes : Nat → List Instant → Number → RetentionM (Option (List Instant))
  | 0, _, _ => return none
  | fuel + 1, external, lastTime => do
    let run ← get
    match nextInstant c manifest ⟨external, lastTime, run⟩ with
    | none => return some external
    | some ((now, events), rest) =>
      instant c manifest now events
      passes fuel rest now.toNumber

/-- Closes the intervals that are open at the end of the program. -/
def closeProgram : RetentionM Unit := do
  let run ← get
  (sortedIds run.resident.keys).forM fun stateId => do
    closeInterval c stateId c.programEndSeconds .programEnd true
    record c manifest c.programEndSeconds .programEndRelease stateId "PROGRAM_END"
  record c manifest c.programEndSeconds .checkpoint none "PROGRAM_END_ACCOUNTING_CHECKPOINT"

/-- The units of the tolerance `1e-15` of the partition check. -/
def partitionTolerance : Nat := roundRatio (2 ^ 1074) (10 ^ 15)

def Extent.isZero : Extent → Bool
  | .finite t => t.units = 0
  | .infinite => false

def fraction (part total : Extent) : Binary64 :=
  if Extent.isZero total then Extent.zero.toBinary64 else part.toBinary64.div total.toBinary64

/-- The useful and the wasted byte-time partition the total. -/
def Partitions (run : RetentionRun) : Bool :=
  let total := run.useful.add run.wasted
  Extent.isZero total ||
    ((fraction run.useful total).add (fraction run.wasted total)).isClose .one partitionTolerance

def finish (run : RetentionRun) : Except PyError RetentionPolicyResult := do
  raiseIf (Partitions run = false) (PyError.assertionError
    "useful/wasted residency does not partition classified byte-time")
  let total := run.useful.add run.wasted
  return {
    baseC7ManifestFingerprint := manifest.baseC7ManifestFingerprint
    programCaseFingerprint := manifest.programCaseFingerprint
    policyId := manifest.retentionPolicyId
    capacityOutcome := run.capacityOutcome
    eligibleReuseOpportunities := run.eligibleReuseOpportunities
    consumedReuseOpportunities := run.consumedReuseOpportunities
    semanticRejectionCount := run.semanticRejectionCount
    usefulByteSeconds := run.useful
    wastedByteSeconds := run.wasted
    totalClassifiedByteSeconds := total
    usefulResidencyFraction := fraction run.useful total
    wastedResidencyFraction := fraction run.wasted total
    maxResidentBytes := run.maxResidentBytes
    capacityBytes := manifest.capacityBytes
    audit := run.audit }

/-- `program_start_seconds - 1.0` -/
def startTime : Number := .float (c.programStartSeconds.toBinary64.sub .one)

/-- There are at most as many passes as instants and admissions together. -/
def passBound : Nat := (instants c.events).length + c.events.length + 1

/-- The engine after its constructor. -/
def runAll : RetentionM (Option RetentionPolicyResult) := do
  match ← passes c manifest (passBound c) (instants c.events) (startTime c) with
  | none => return none
  | some left =>
    raiseIf (left ≠ []) (PyError.assertionError "retention engine left external events unprocessed")
    closeProgram c manifest
    let run ← get
    let result ← finish manifest run
    return some result

end Loop

section Program
variable (fingerprint : RetentionProgramCase → String)

/-- The constructor of the run. The digest of a case is that of its canonical JSON. -/
def initRun (c : RetentionProgramCase) (base : C7ExperimentManifest)
    (manifest : C73RetentionManifest) : Except PyError RetentionRun := do
  validateC73BaseManifest base manifest
  raiseIf (manifest.programCaseFingerprint ≠ fingerprint c)
    (PyError.valueError "retention manifest does not bind the supplied Program case")
  let expectedReference ← referenceWorkingSetBytes c
  raiseIf (manifest.referenceWorkingSetBytes ≠ expectedReference)
    (PyError.valueError "retention manifest reference working set does not match Program truth")
  let truth ← initialTruth c
  return { truth, sessions := .ofList (c.sessions.map fun x => (x.sessionId, x.initiallyLive)) }

/-- The result of the program, or nothing when it needs more passes than the bound. -/
def runRetentionProgram (c : RetentionProgramCase) (base : C7ExperimentManifest)
    (manifest : C73RetentionManifest) : Except PyError (Option RetentionPolicyResult) := do
  let run ← initRun fingerprint c base manifest
  match runAll c manifest run with
  | .ok result _ => .ok result
  | .error e _ => .error e

end Program

end Cadi.Retention
