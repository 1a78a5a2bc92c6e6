import Cadi.Library.Slots
import Cadi.Policies.Observation
import Cadi.Retention.Protocol
import Mathlib.Data.List.Sort

namespace Cadi.Routing
open Library
open Retention (ExperimentSeries)
set_option autoImplicit true

inductive C72ProgramTopology where
  | serial | fanout
deriving DecidableEq

def c6MaxModelLength : Nat := 4096

def syntheticRequestC6Admissible (inputTokens outputTokens : Nat) : Bool :=
  if inputTokens = 0 ∧ outputTokens = 0 then true
  else if outputTokens = 0 then 1 ≤ inputTokens ∧ inputTokens ≤ c6MaxModelLength
  else 1 ≤ inputTokens ∧ inputTokens + outputTokens ≤ c6MaxModelLength

section Cases

structure C72OperationCase where
  operationId : String
  observation : PolicyObservation
  inputTokens : Nat
  outputTokens : Nat
  eligibleReuseTokens : Nat
  releaseTimeSeconds : ℚ := 0
  operationId_nonempty : operationId ≠ ""
  release_nonneg : 0 ≤ releaseTimeSeconds
  eligible_le : eligibleReuseTokens ≤ inputTokens
  admissible : syntheticRequestC6Admissible inputTokens outputTokens
  identified : ∀ v ∈ [observation.programId, observation.sessionId, observation.continuationId,
    observation.attemptId], v ≠ none
  current : observation.attemptAuthority = some "CURRENT"
  reusable : 0 < eligibleReuseTokens →
    observation.stateCandidateKey ≠ none ∧ observation.exactStateId ≠ none

def workerShape (operation : C72OperationCase) : List (String × Nat) :=
  operation.observation.workers.map fun w => (w.workerId, w.capacity)

/-- The control without state must not carry a hint that joins requests. -/
def validateP7 (operation : C72OperationCase) : Except PyError Unit :=
  let o := operation.observation
  if o.sessionPreferredLocation ≠ none ∨ o.stateCandidateKey ≠ none ∨ o.exactStateId ≠ none ∨
      o.producerAttemptId ≠ none ∨ o.bindingId ≠ none ∨ o.bindingEpoch ≠ none ∨
      o.evidenceAuthority ≠ none ∨ o.evidenceStatus ≠ none ∨ o.evidenceFreshness ≠ none ∨
      o.stateLifecycle ≠ none ∨ o.reconciliation ≠ none ∨ o.continuationAncestry ≠ [] ∨
      o.stateLocations ≠ [] ∨ o.stateProvenance ≠ [] then
    .error (.valueError "P7 stateless control forbids cross-request locality/continuity hints")
  else .ok ()

structure C72ProgramCase where
  programId : String
  series : ExperimentSeries
  topology : C72ProgramTopology
  operations : List C72OperationCase
  programStartTimeSeconds : ℚ := 0
  workerReadyTimesSeconds : List (String × ℚ) := []

/-- The checked ready times; without any, every worker is ready at the Program start. -/
def readyTimes (start : ℚ) (workerIds : List String) (given : List (String × ℚ)) :
    Except PyError (List (String × ℚ)) :=
  if given = [] then .ok (workerIds.map (·, start))
  else do
    given.forM fun p =>
      raiseIf (p.2 < 0) (.valueError s!"ready time {p.1} must be finite and non-negative")
    let ids := given.map Prod.fst
    if ids ≠ ids.insertionSort (· ≤ ·) ∨ ¬ ids.Nodup ∨ ids ≠ workerIds.insertionSort (· ≤ ·) then
      .error (.valueError "worker_ready_times_seconds must uniquely cover Program workers")
    else .ok given

/-- What the series asks of the topology and the operations. -/
def checkSeries (c : C72ProgramCase) (first : C72OperationCase) : Except PyError Unit := do
  raiseIf (c.series = .p1DeepReuse ∧ c.topology ≠ .serial)
    (.valueError "P1 requires SERIAL topology")
  raiseIf (c.series = .p4FanoutSharedPrefix ∧ (c.topology ≠ .fanout ∨ c.operations.length < 2))
    (.valueError "P4 requires FANOUT topology with at least two branches")
  if c.series = .p7StatelessOverhead then
    raiseIf (c.topology ≠ .serial ∨ c.operations.length ≠ 1)
      (.valueError "P7 C7.2 control Program is exactly one SERIAL request")
    raiseIf (first.eligibleReuseTokens ≠ 0)
      (.valueError "P7 must not fabricate a reuse opportunity")
    validateP7 first

/-- The checks of a new case; it gets the ready times of all its workers. -/
def C72ProgramCase.postInit (c : C72ProgramCase) : Except PyError C72ProgramCase := do
  raiseIf (c.programId = "") (.valueError "program_id must be a non-empty string")
  raiseIf (c.series ∉ [.p1DeepReuse, .p4FanoutSharedPrefix, .p7StatelessOverhead])
    (.valueError "C7.2 supports only P1, P4, and P7")
  match c.operations with
  | [] => .error (.valueError "operations must be a non-empty tuple of C72OperationCase")
  | first :: rest => do
    raiseIf (¬ (c.operations.map C72OperationCase.operationId).Nodup)
      (.valueError "operation_id values must be unique")
    raiseIf (∃ x ∈ c.operations, x.observation.programId ≠ some c.programId)
      (.valueError "every operation must bind to the Program ID")
    let start := c.programStartTimeSeconds
    raiseIf (start < 0) (.valueError "program_start_time_seconds must be finite and non-negative")
    raiseIf (∃ x ∈ c.operations, x.releaseTimeSeconds < start)
      (.valueError "operation release time cannot precede Program start")
    let shape := workerShape first
    raiseIf (shape = [] ∨ ∃ x ∈ rest, workerShape x ≠ shape)
      (.valueError "C7.2 Program must keep worker identity/capacity fixed")
    let ready ← readyTimes start (shape.map Prod.fst) c.workerReadyTimesSeconds
    raiseIf (∃ p ∈ ready, p.2 < start) (.valueError "worker ready time cannot precede Program start")
    checkSeries c first
    return { c with workerReadyTimesSeconds := ready }

end Cases

section Schedules

structure C72OperationPolicyResult where
  operationId : String
  workerId : Option String
  modeledServiceSeconds : Option ℚ
  releaseTimeSeconds : ℚ
  serviceStartTimeSeconds : Option ℚ := none
  completionTimeSeconds : Option ℚ := none
deriving DecidableEq

/-- The local variables of the loop over the operations. -/
structure Scheduling where
  slots : Dict String (List ℚ)
  dependency : ℚ
  scheduled : List C72OperationPolicyResult

/-- The entry of a key, which must be there. -/
def entry (d : Dict String α) (key : String) : Except PyError α :=
  match d.get? key with
  | some v => .ok v
  | none => .error (.keyError key)

def scheduleOperation (c : C72ProgramCase) (s : Scheduling)
    (pair : C72OperationCase × C72OperationPolicyResult) : Except PyError Scheduling := do
  let (op, result) := pair
  match result.workerId with
  | none => throw (.keyError "None")
  | some workerId => do
    let workerSlots ← entry s.slots workerId
    match earliest workerSlots with
    | none => throw (.valueError "min() iterable argument is empty")
    | some index =>
      let start := max (max op.releaseTimeSeconds
        (if c.topology = .serial then s.dependency else c.programStartTimeSeconds))
        (workerSlots.get index)
      match result.modeledServiceSeconds with
      | none => throw (.typeError "unsupported operand type(s) for +: 'float' and 'NoneType'")
      | some service =>
        let completion := start + service
        return ⟨s.slots.set workerId (workerSlots.set index completion),
          if c.topology = .serial then completion else s.dependency,
          s.scheduled ++ [{ result with serviceStartTimeSeconds := some start,
                                        completionTimeSeconds := some completion }]⟩

/-- The results with their times, the terminal time, the Program completion time, and the two
times of a fan-out. -/
structure Scheduled where
  results : List C72OperationPolicyResult
  terminal : Option ℚ
  pct : Option ℚ
  fanoutTerminal : Option ℚ
  fct : Option ℚ
deriving DecidableEq

def initialSlots (ready : Dict String ℚ) :
    List WorkerObservation → Except PyError (List (String × List ℚ))
  | [] => .ok []
  | worker :: workers => do
    let time ← entry ready worker.workerId
    let rest ← initialSlots ready workers
    return (worker.workerId, List.replicate worker.capacity time) :: rest

def schedule (c : C72ProgramCase) (results : List C72OperationPolicyResult) :
    Except PyError Scheduled := do
  if ∃ x ∈ results, x.workerId = none then return ⟨results, none, none, none, none⟩
  match c.operations with
  | [] => throw (.keyError "tuple index out of range")
  | first :: _ => do
    let slots ← initialSlots (Dict.ofList c.workerReadyTimesSeconds) first.observation.workers
    if c.operations.length ≠ results.length then
      throw (.valueError "zip() argument 2 has a different length than argument 1")
    let s ← (c.operations.zip results).foldlM (scheduleOperation c)
      ⟨Dict.ofList slots, c.programStartTimeSeconds, []⟩
    match (s.scheduled.filterMap C72OperationPolicyResult.completionTimeSeconds).max? with
    | none => throw (.valueError "max() iterable argument is empty")
    | some terminal =>
      let pct := terminal - c.programStartTimeSeconds
      let fct := if c.topology = .fanout then some pct else none
      return ⟨s.scheduled, some terminal, some pct, if fct = none then none else some terminal, fct⟩

end Schedules

end Cadi.Routing
