import Cadi.Core.Compatibility
import Cadi.Correctness.Records
import Cadi.Library.Keys
import Cadi.Policies.Observation

namespace Cadi
open Library
set_option autoImplicit true

inductive InformationField where
  | programId | logicalRequestId | attemptId | attemptAuthority | sessionId
  | sessionPreferredLocation | continuationId | continuationAncestry | stateCandidateKey
  | exactStateId | stateLocation | stateProvenance | stateLifecycle | producerAttempt | bindingId
  | bindingEpoch | evidenceAuthority | evidenceStatus | evidenceFreshness | reconciliation
  | resourceLoad
deriving DecidableEq

def InformationField.value : InformationField → String
  | .programId => "program_id"
  | .logicalRequestId => "logical_request_id"
  | .attemptId => "attempt_id"
  | .attemptAuthority => "attempt_authority"
  | .sessionId => "session_id"
  | .sessionPreferredLocation => "session_preferred_location"
  | .continuationId => "continuation_id"
  | .continuationAncestry => "continuation_ancestry"
  | .stateCandidateKey => "state_candidate_key"
  | .exactStateId => "exact_state_id"
  | .stateLocation => "state_location"
  | .stateProvenance => "state_provenance"
  | .stateLifecycle => "state_lifecycle"
  | .producerAttempt => "producer_attempt"
  | .bindingId => "binding_id"
  | .bindingEpoch => "binding_epoch"
  | .evidenceAuthority => "evidence_authority"
  | .evidenceStatus => "evidence_status"
  | .evidenceFreshness => "evidence_freshness"
  | .reconciliation => "reconciliation"
  | .resourceLoad => "resource_load"

/-- The fields in the order of their values. -/
def InformationField.canonical : List InformationField :=
  [.attemptAuthority, .attemptId, .bindingEpoch, .bindingId, .continuationAncestry, .continuationId,
    .evidenceAuthority, .evidenceFreshness, .evidenceStatus, .exactStateId, .logicalRequestId,
    .producerAttempt, .programId, .reconciliation, .resourceLoad, .sessionId,
    .sessionPreferredLocation, .stateCandidateKey, .stateLifecycle, .stateLocation, .stateProvenance]

theorem InformationField.mem_canonical (f : InformationField) : f ∈ canonical := by
  cases f <;> decide

section Contracts

def b0Fields : List InformationField := [.logicalRequestId, .resourceLoad]

def b1Fields : List InformationField := b0Fields ++ [.stateCandidateKey, .stateLocation]

def b2Fields : List InformationField := b1Fields ++ [.sessionId, .sessionPreferredLocation]

def b3Fields : List InformationField :=
  b0Fields ++ [.stateCandidateKey, .exactStateId, .stateLocation]

def b4Fields : List InformationField := InformationField.canonical

def informationContracts : PolicyID → List InformationField
  | .b0 => b0Fields
  | .b1 => b1Fields
  | .b2 => b2Fields
  | .b3 => b3Fields
  | .b4 => b4Fields

/-- The fields of a contract in canonical order. -/
def contractFields (policyId : PolicyID) : List InformationField :=
  InformationField.canonical.filter (· ∈ informationContracts policyId)

theorem mem_contractFields {policyId : PolicyID} {f : InformationField} :
    f ∈ contractFields policyId ↔ f ∈ informationContracts policyId := by
  rw [contractFields, List.mem_filter, decide_eq_true_eq]
  exact and_iff_right f.mem_canonical

end Contracts

section Views

/-- What a field of an observation can hold. -/
inductive FieldValue where
  | text (value : Option String)
  | texts (value : List String)
  | pairs (value : List (String × String))
  | integer (value : Option Nat)
  | number (value : Option ℚ)
  | workers (value : List WorkerObservation)

inductive PolicyError where
  | permissionError (message : String)
  | typeError (message : String)
  | valueError (message : String)
  | assertionError (message : String)
  | indexError
  | raised (error : PyError)

structure PolicyView where
  policyId : PolicyID
  values : List (InformationField × FieldValue)
  fields_eq : values.map Prod.fst = contractFields policyId

def PolicyView.availableFields (view : PolicyView) : List InformationField := view.values.map Prod.fst

def PolicyView.value (view : PolicyView) (field : InformationField) : Except PolicyError FieldValue :=
  if field ∉ view.availableFields then
    .error (.permissionError
      (view.policyId.value ++ " information contract does not allow " ++ field.value))
  else
    match view.values.find? (·.1 = field) with
    | some entry => .ok entry.2
    | none => .error (.assertionError "contract field missing from PolicyView")

def PolicyObservation.source (o : PolicyObservation) : InformationField → FieldValue
  | .programId => .text o.programId
  | .logicalRequestId => .text (some o.requestId)
  | .attemptId => .text o.attemptId
  | .attemptAuthority => .text o.attemptAuthority
  | .sessionId => .text o.sessionId
  | .sessionPreferredLocation => .text o.sessionPreferredLocation
  | .continuationId => .text o.continuationId
  | .continuationAncestry => .texts o.continuationAncestry
  | .stateCandidateKey => .text o.stateCandidateKey
  | .exactStateId => .text o.exactStateId
  | .stateLocation => .texts o.stateLocations
  | .stateProvenance => .pairs o.stateProvenance
  | .stateLifecycle => .text o.stateLifecycle
  | .producerAttempt => .text o.producerAttemptId
  | .bindingId => .text o.bindingId
  | .bindingEpoch => .integer o.bindingEpoch
  | .evidenceAuthority => .text o.evidenceAuthority
  | .evidenceStatus => .text o.evidenceStatus
  | .evidenceFreshness => .number o.evidenceFreshness
  | .reconciliation => .text o.reconciliation
  | .resourceLoad => .workers o.workers

def projectObservation (o : PolicyObservation) (policyId : PolicyID) : PolicyView where
  policyId
  values := (contractFields policyId).map fun field => (field, o.source field)
  fields_eq := by
    rw [List.map_map]
    exact List.map_id _

theorem project_value (o : PolicyObservation) {policyId : PolicyID} {field : InformationField}
    (h : field ∈ informationContracts policyId) :
    (projectObservation o policyId).value field = .ok (o.source field) := by
  have hmem := mem_contractFields.mpr h
  have hfields : (projectObservation o policyId).availableFields = contractFields policyId :=
    (projectObservation o policyId).fields_eq
  have hfind : (projectObservation o policyId).values.find? (·.1 = field) =
      some (field, o.source field) := by
    rw [projectObservation, List.find?_map]
    have hfound : (contractFields policyId).find? ((fun p : InformationField × FieldValue =>
        decide (p.1 = field)) ∘ fun f => (f, o.source f)) = some field := by
      cases hf : (contractFields policyId).find? ((fun p : InformationField × FieldValue =>
          decide (p.1 = field)) ∘ fun f => (f, o.source f)) with
      | none =>
        have hnot := List.find?_eq_none.mp hf field hmem
        exact (hnot (decide_eq_true rfl)).elim
      | some f =>
        have heq : f = field := by simpa using List.find?_some hf
        rw [heq]
    rw [hfound]
    rfl
  rw [PolicyView.value, hfields, if_neg (not_not.mpr hmem), hfind]

end Views

section Decisions

structure PlacementDecision where
  policyId : PolicyID
  workerId : Option String
  rankedWorkerIds : List String
  reason : String
deriving DecidableEq

def PlacementDecision.postInit (d : PlacementDecision) : Except PolicyError PlacementDecision := do
  raiseIf (d.workerId = some "") (.valueError "worker_id must be a non-empty string")
  raiseIf (∃ v ∈ d.rankedWorkerIds, v = "")
    (.valueError "ranked_worker_ids must contain non-empty strings")
  raiseIf (d.reason = "") (.valueError "reason must be a non-empty string")
  raiseIf (d.workerId = none ∧ d.rankedWorkerIds ≠ [])
    (.valueError "no-placement decision must not rank workers")
  raiseIf (d.workerId ≠ none ∧ d.rankedWorkerIds.head? ≠ d.workerId)
    (.valueError "selected worker must be first in ranked_worker_ids")
  return d

/-- The decision for the first worker of a ranking. -/
def placeFirst (policyId : PolicyID) (ranked : List String) (reason : String) :
    Except PolicyError PlacementDecision :=
  match ranked with
  | [] => .error .indexError
  | first :: _ => PlacementDecision.postInit ⟨policyId, some first, ranked, reason⟩

def noPlacement (policyId : PolicyID) (reason : String) : Except PolicyError PlacementDecision :=
  PlacementDecision.postInit ⟨policyId, none, [], reason⟩

def requirePolicyView (view : PolicyView) (policyId : PolicyID) (policyName : String) :
    Except PolicyError Unit :=
  raiseIf (view.policyId ≠ policyId) (.valueError ("PolicyView does not match " ++ policyName))

def workersFromView (view : PolicyView) : Except PolicyError (List WorkerObservation) := do
  match ← view.value .resourceLoad with
  | .workers workers => return workers
  | _ => throw (.typeError "resource_load observation must be tuple[WorkerObservation, ...]")

def availableWorkers (workers : List WorkerObservation) : List WorkerObservation :=
  workers.filter WorkerObservation.available

def stateLocationsFromView (view : PolicyView) : Except PolicyError (List String) := do
  match ← view.value .stateLocation with
  | .texts locations =>
    raiseIf (∃ v ∈ locations, v = "") (.typeError "state_location observation must be tuple[str, ...]")
    return locations
  | _ => throw (.typeError "state_location observation must be tuple[str, ...]")

/-- A text that may be missing, for the baselines. -/
def textFromView (view : PolicyView) (field : InformationField) :
    Except PolicyError (Option String) := do
  match ← view.value field with
  | .text value => return value
  | _ => throw (.typeError (field.value ++ " observation must be string or None"))

def candidateLocalIds (view : PolicyView) : Except PolicyError (List String) := do
  let candidateKey ← textFromView view .stateCandidateKey
  let locations ← stateLocationsFromView view
  return if candidateKey ≠ none then locations else []

def workerLoadKey (w : WorkerObservation) : ℚ ×ₗ ℕ ×ₗ ℕ ×ₗ String :=
  toLex (w.normalizedLoad, toLex (w.queuedTasks, toLex (w.activeTasks, w.workerId)))

def sortedByLoad (workers : List WorkerObservation) : List WorkerObservation :=
  sortedBy workerLoadKey workers

def localityKey (localIds : List String) (w : WorkerObservation) :
    ℕ ×ₗ ℚ ×ₗ ℕ ×ₗ ℕ ×ₗ String :=
  toLex (if w.workerId ∈ localIds then 0 else 1, workerLoadKey w)

def sortedByLocality (localIds : List String) (workers : List WorkerObservation) :
    List WorkerObservation :=
  sortedBy (localityKey localIds) workers

def rankWorkersCacheAware (view : PolicyView) (available : List WorkerObservation) :
    Except PolicyError (List WorkerObservation × Bool) := do
  let localIds ← candidateLocalIds view
  if ∃ w ∈ available, w.workerId ∈ localIds then
    return (sortedByLocality localIds available, true)
  else return (sortedByLoad available, false)

def workerIds (workers : List WorkerObservation) : List String := workers.map WorkerObservation.workerId

def requestCentricPolicy (view : PolicyView) : Except PolicyError PlacementDecision := do
  requirePolicyView view .b0 "RequestCentricPolicy"
  let workers ← workersFromView view
  let available := availableWorkers workers
  if available = [] then noPlacement .b0 "NO_AVAILABLE_WORKER"
  else placeFirst .b0 (workerIds (sortedByLoad available)) "LEAST_NORMALIZED_LOAD"

def cacheAwarePolicy (view : PolicyView) : Except PolicyError PlacementDecision := do
  requirePolicyView view .b1 "CacheAwarePolicy"
  let workers ← workersFromView view
  let available := availableWorkers workers
  if available = [] then noPlacement .b1 "NO_AVAILABLE_WORKER"
  else
    let (rankedWorkers, localityUsed) ← rankWorkersCacheAware view available
    placeFirst .b1 (workerIds rankedWorkers)
      (if localityUsed then "CACHE_LOCALITY_THEN_LOAD" else "CACHE_AWARE_LOAD_FALLBACK")

def sessionAffinityPolicy (view : PolicyView) : Except PolicyError PlacementDecision := do
  requirePolicyView view .b2 "SessionAffinityPolicy"
  let workers ← workersFromView view
  let available := availableWorkers workers
  if available = [] then noPlacement .b2 "NO_AVAILABLE_WORKER"
  else
    let (b1Ranked, _) ← rankWorkersCacheAware view available
    let sessionId ← textFromView view .sessionId
    let preferred ← textFromView view .sessionPreferredLocation
    match sessionId, available.find? (fun w => some w.workerId = preferred) with
    | some _, some preferredWorker =>
      placeFirst .b2
        (workerIds (preferredWorker :: b1Ranked.filter fun w => some w.workerId ≠ preferred))
        "SESSION_AFFINITY_THEN_CACHE_LOAD"
    | _, _ => placeFirst .b2 (workerIds b1Ranked) "SESSION_AFFINITY_B1_FALLBACK"

def stateAwarePolicy (view : PolicyView) : Except PolicyError PlacementDecision := do
  requirePolicyView view .b3 "StateAwarePolicy"
  let workers ← workersFromView view
  let available := availableWorkers workers
  if available = [] then noPlacement .b3 "NO_AVAILABLE_WORKER"
  else
    let exactStateId ← textFromView view .exactStateId
    let locations ← stateLocationsFromView view
    let exactLocalIds := if exactStateId ≠ none then locations else []
    if ∃ w ∈ available, w.workerId ∈ exactLocalIds then
      placeFirst .b3 (workerIds (sortedByLocality exactLocalIds available)) "EXACT_STATE_LOCALITY_THEN_LOAD"
    else
      let (b1Ranked, localityUsed) ← rankWorkersCacheAware view available
      placeFirst .b3 (workerIds b1Ranked)
        (if localityUsed then "STATE_AWARE_CANDIDATE_FALLBACK" else "STATE_AWARE_LOAD_FALLBACK")

end Decisions

section ContinuityAware
variable (semanticValidity : SemanticValidity) (core : ContinuityCore)

def requireNonempty (value name : String) : Except PolicyError Unit :=
  raiseIf (value = "") (.valueError (name ++ " must be a non-empty string"))

def attemptCurrent (requestId attemptId : String) : Except PolicyError Bool := do
  requireNonempty requestId "request_id"
  requireNonempty attemptId "attempt_id"
  match core.requests.get? requestId, core.attempts.get? attemptId with
  | some request, some attempt =>
    return attempt.requestId = requestId ∧ request.currentAttemptId = some attemptId ∧
      attempt.authorityStatus = .current
  | _, _ => return false

/-- The delegate of the policy to the compatibility check of the core. -/
def authorityStateCompatible (stateId : String) (ctx : ExecutionContext) :
    Except PolicyError Bool := do
  requireNonempty stateId "state_id"
  requireNonempty ctx.programId "program_id"
  requireNonempty ctx.sessionId "session_id"
  requireNonempty ctx.continuationId "continuation_id"
  requireNonempty ctx.requestId "request_id"
  requireNonempty ctx.attemptId "attempt_id"
  (stateCompatible semanticValidity core stateId ctx).mapError .raised

/-- A text that may be missing but not empty, for the continuity-aware policy. -/
def optionalString (view : PolicyView) (field : InformationField) (name : String) :
    Except PolicyError (Option String) := do
  match ← view.value field with
  | .text value =>
    raiseIf (value = some "") (.valueError (name ++ " must be a non-empty string or None"))
    return value
  | _ => throw (.valueError (name ++ " must be a non-empty string or None"))

def loadFallback (policyId : PolicyID) (available : List WorkerObservation) (reason : String) :
    Except PolicyError PlacementDecision :=
  placeFirst policyId (workerIds (sortedByLoad available)) reason

/-- What the policy does with available workers and the complete context of a current Attempt. -/
def placeWithContext (view : PolicyView) (available : List WorkerObservation)
    (ctx : ExecutionContext) : Except PolicyError PlacementDecision := do
  let exactStateId ← optionalString view .exactStateId "exact_state_id"
  let locations ← stateLocationsFromView view
  match exactStateId with
  | none => loadFallback .b4 available "CONTINUITY_RECOMPUTE_LOAD_FALLBACK"
  | some stateId =>
    if locations = [] then loadFallback .b4 available "CONTINUITY_RECOMPUTE_LOAD_FALLBACK"
    else
      let reconciliation ← optionalString view .reconciliation "reconciliation"
      if reconciliation ≠ some "MATCHED" then
        loadFallback .b4 available "RECONCILIATION_NOT_MATCHED_RECOMPUTE"
      else
        let compatible ← authorityStateCompatible semanticValidity core stateId ctx
        if !compatible then loadFallback .b4 available "INCOMPATIBLE_STATE_RECOMPUTE"
        else if ¬ ∃ w ∈ available, w.workerId ∈ locations then
          loadFallback .b4 available "COMPATIBLE_STATE_REMOTE_RECOMPUTE"
        else
          placeFirst .b4 (workerIds (sortedByLocality locations available))
            "COMPATIBLE_STATE_LOCALITY_THEN_LOAD"

def continuityAwarePolicy (view : PolicyView) : Except PolicyError PlacementDecision := do
  requirePolicyView view .b4 "ContinuityAwarePolicy"
  let requestId ← optionalString view .logicalRequestId "logical_request_id"
  let attemptId ← optionalString view .attemptId "attempt_id"
  let attemptAuthority ← optionalString view .attemptAuthority "attempt_authority"
  match requestId, attemptId with
  | some requestId, some attemptId =>
    if attemptAuthority ≠ some "CURRENT" then noPlacement .b4 "ATTEMPT_FENCED"
    else
      let current ← attemptCurrent core requestId attemptId
      if !current then noPlacement .b4 "ATTEMPT_FENCED"
      else
        let workers ← workersFromView view
        let available := availableWorkers workers
        if available = [] then noPlacement .b4 "NO_AVAILABLE_WORKER"
        else
          let programId ← optionalString view .programId "program_id"
          let sessionId ← optionalString view .sessionId "session_id"
          let continuationId ← optionalString view .continuationId "continuation_id"
          match programId, sessionId, continuationId with
          | some programId, some sessionId, some continuationId =>
            placeWithContext semanticValidity core view available
              { programId, sessionId, continuationId, requestId, attemptId }
          | _, _, _ => noPlacement .b4 "CONTINUITY_CONTEXT_INCOMPLETE"
  | _, _ => noPlacement .b4 "ATTEMPT_FENCED"

end ContinuityAware

def decidePlacement (policyId : PolicyID)
    (policy : PolicyView → Except PolicyError PlacementDecision) (o : PolicyObservation) :
    Except PolicyError PlacementDecision := do
  let decision ← policy (projectObservation o policyId)
  raiseIf (decision.policyId ≠ policyId)
    (.valueError "policy decision identifies a different policy")
  return decision

end Cadi
