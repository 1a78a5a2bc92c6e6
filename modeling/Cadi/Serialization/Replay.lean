import Cadi.Serialization.Operations

namespace Cadi
open Library
set_option autoImplicit true

section Dispatch

/-- The value of an argument that must be given. -/
def required [Stored α] [Restored α] (arguments : String → Option Value) (name : String) : Option α :=
  (arguments name).bind Restored.ofValue

/-- The value of an argument with a default. -/
def given [Stored α] [Restored α] (arguments : String → Option Value) (name : String) (default : α) :
    Option α :=
  match arguments name with
  | some v => Restored.ofValue v
  | none => some default

/-- The strings of an iterable. -/
def textsIn : Value → Option (List String)
  | .list items => items.mapM stringIn
  | .tuple items => items.mapM stringIn
  | .frozenset items => items.mapM stringIn
  | _ => none

def requiredTexts (arguments : String → Option Value) (name : String) : Option (List String) :=
  (arguments name).bind textsIn

def givenTexts (arguments : String → Option Value) (name : String) : Option (List String) :=
  match arguments name with
  | some v => textsIn v
  | none => some []

/-- The method call of an action with keyword arguments. -/
def toOperation (arguments : String → Option Value) : String → Option PublicOperation
  | "create_program" => do
    let id ← required arguments "id_"
    return .createProgram id
  | "set_program_status" => do
    let programId ← required arguments "program_id"
    let status ← required arguments "status"
    return .setProgramStatus programId status
  | "create_session" => do
    let id ← required arguments "id_"
    let programId ← required arguments "program_id"
    return .createSession id programId
  | "create_continuation" => do
    let id ← required arguments "id_"
    let sessionId ← required arguments "session_id"
    let parentIds ← givenTexts arguments "parent_ids"
    let lifecycle ← given arguments "lifecycle" ContinuationLifecycle.active
    return .createContinuation id sessionId parentIds lifecycle
  | "set_continuation_lifecycle" => do
    let continuationId ← required arguments "continuation_id"
    let lifecycle ← required arguments "lifecycle"
    return .setContinuationLifecycle continuationId lifecycle
  | "resume_after_wait" => do
    let waitingId ← required arguments "waiting_id"
    let childId ← required arguments "child_id"
    return .resumeAfterWait waitingId childId
  | "create_request" => do
    let id ← required arguments "id_"
    let continuationId ← required arguments "continuation_id"
    return .createRequest id continuationId
  | "start_attempt" => do
    let id ← required arguments "id_"
    let requestId ← required arguments "request_id"
    return .startAttempt id requestId
  | "set_attempt_execution" => do
    let attemptId ← required arguments "attempt_id"
    let status ← required arguments "status"
    return .setAttemptExecution attemptId status
  | "complete_attempt" => do
    let attemptId ← required arguments "attempt_id"
    let succeeded ← given arguments "succeeded" true
    return .completeAttempt attemptId succeeded
  | "create_phase" => do
    let id ← required arguments "id_"
    let attemptId ← required arguments "attempt_id"
    let phaseType ← required arguments "phase_type"
    let ordinal ← given arguments "ordinal" none
    return .createPhase id attemptId phaseType ordinal
  | "set_phase_status" => do
    let phaseId ← required arguments "phase_id"
    let status ← required arguments "status"
    return .setPhaseStatus phaseId status
  | "complete_phase" => do
    let phaseId ← required arguments "phase_id"
    return .completePhase phaseId
  | "create_output" => do
    let id ← required arguments "id_"
    let attemptId ← required arguments "attempt_id"
    let terminal ← required arguments "terminal"
    let evidenceIds ← givenTexts arguments "evidence_ids"
    return .createOutput id attemptId terminal evidenceIds
  | "finalize_request" => do
    let requestId ← required arguments "request_id"
    let outputId ← required arguments "output_id"
    let now ← given arguments "now" none
    return .finalizeRequest requestId outputId now
  | "create_state" => do
    let id ← required arguments "id_"
    let originType ← required arguments "origin_type"
    let originId ← required arguments "origin_id"
    let semanticType ← given arguments "semantic_type" "PREFIX"
    let representation ← given arguments "representation" "OPAQUE"
    let derivedFrom ← givenTexts arguments "derived_from"
    return .createState id originType originId semanticType representation derivedFrom
  | "set_state_validity" => do
    let stateId ← required arguments "state_id"
    let validity ← required arguments "validity"
    return .setStateValidity stateId validity
  | "add_replica" => do
    let id ← required arguments "id_"
    let stateId ← required arguments "state_id"
    let locationId ← required arguments "location_id"
    let status ← given arguments "status" ReplicaStatus.valid
    return .addReplica id stateId locationId status
  | "set_replica_status" => do
    let replicaId ← required arguments "replica_id"
    let status ← required arguments "status"
    return .setReplicaStatus replicaId status
  | "propose_binding" => do
    let id ← required arguments "id_"
    let subjectId ← required arguments "subject_id"
    let locationId ← required arguments "location_id"
    return .proposeBinding id subjectId locationId
  | "activate_initial_binding" => do
    let id ← required arguments "id_"
    let subjectId ← required arguments "subject_id"
    let locationId ← required arguments "location_id"
    return .activateInitialBinding id subjectId locationId
  | "begin_migration" => do
    let bindingId ← required arguments "binding_id"
    return .beginMigration bindingId
  | "commit_migration" => do
    let bindingId ← required arguments "binding_id"
    let evidenceIds ← requiredTexts arguments "evidence_ids"
    let now ← given arguments "now" none
    return .commitMigration bindingId evidenceIds now
  | "record_evidence" => do
    let e ← required arguments "e"
    return .recordEvidence e
  | "record_event" => do
    let event ← required arguments "event"
    return .recordEvent event
  | _ => none

end Dispatch

section Replaying
variable (semanticValidity : SemanticValidity) (shown : Value → String)

/-- `apply_operation`; arguments that passed their checks are those of a call. -/
def applyOperation (clock : Number) (operation : SemanticOperation) : CoreM Unit := do
  let arguments ← validatedOperationArguments shown operation
  match toOperation (Dict.find arguments) operation.action with
  | some call => call.call semanticValidity clock
  | none => throw (.typeError "invalid arguments")

variable (clock : Nat → Number)

/-- The operations after those whose identities were seen; the clock is read at each of them. -/
def replayFrom : List String → List SemanticOperation → CoreM Unit
  | _, [] => pure ()
  | seen, operation :: operations => do
    raiseIf (operation.id ∈ seen)
      (PyError.valueError s!"duplicate semantic operation identity: {operation.id}")
    applyOperation semanticValidity shown (clock seen.length) operation
    replayFrom (operation.id :: seen) operations

def replayOperations (operations : List SemanticOperation) : CoreM Unit :=
  replayFrom semanticValidity shown clock [] operations

def replayOperationJsonl (text : String) : CoreM Unit := do
  let operations ← operationsFromJsonl shown text
  replayOperations semanticValidity shown clock operations

end Replaying

section Clocks
variable {semanticValidity : SemanticValidity} {shown : Value → String}

/-- A call that reads no clock, or is told the time. -/
def PublicOperation.Timed : PublicOperation → Prop
  | .finalizeRequest _ _ now => now ≠ none
  | .commitMigration _ _ now => now ≠ none
  | .canConsumeState _ _ _ _ _ => False
  | .requireEvidence _ _ _ _ _ => False
  | .reconcile _ _ _ _ => False
  | _ => True

theorem requireEvidence_now (clock clock' now : Number) (c : ContinuityCore) (action : String)
    (evidenceIds : List String) (scope : Option (FrozenSet (String × String))) :
    c.requireEvidence clock action evidenceIds (some now) scope none =
      c.requireEvidence clock' action evidenceIds (some now) scope none := by
  rw [ContinuityCore.requireEvidence, ContinuityCore.requireEvidence, Option.getD_some, Option.getD_some]

theorem PublicOperation.Timed.call_eq {operation : PublicOperation} (h : operation.Timed)
    (clock clock' : Number) :
    operation.call semanticValidity clock = operation.call semanticValidity clock' := by
  cases operation with
  | finalizeRequest requestId outputId now =>
    cases now with
    | none => exact absurd rfl h
    | some now =>
      simp only [PublicOperation.call, Cadi.finalizeRequest, requireEvidence_now clock clock']
  | commitMigration bindingId evidenceIds now =>
    cases now with
    | none => exact absurd rfl h
    | some now =>
      simp only [PublicOperation.call, Cadi.commitMigration, requireEvidence_now clock clock']
  | canConsumeState | requireEvidence | reconcile => exact h.elim
  | _ => simp only [PublicOperation.call]

/-- A time that was given is read as one. -/
theorem given_now {arguments : String → Option Value} {now : Option Number}
    (h : ((arguments "now").getD .none).isNone = false) (hnow : given arguments "now" none = some now) :
    now ≠ none := by
  intro hnone
  subst hnone
  rw [given] at hnow
  cases hv : arguments "now" with
  | none =>
    rw [hv] at h
    cases h
  | some v =>
    rw [hv, Option.getD_some] at h
    rw [hv] at hnow
    change (if v.isNone = true then some none else (Restored.ofValue v : Option Number).map some) =
      some none at hnow
    rw [if_neg (by rw [h]; exact Bool.false_ne_true)] at hnow
    obtain ⟨_, -, hsome⟩ := Option.map_eq_some_iff.mp hnow
    cases hsome

theorem forall_bind_some {x : Option α} {f : α → Option β} {P : β → Prop}
    (h : ∀ a, x = some a → ∀ b, f a = some b → P b) : ∀ b, (x >>= f) = some b → P b := by
  intro b hb
  obtain ⟨a, ha, hb⟩ := Option.bind_eq_some_iff.mp hb
  exact h a ha b hb

theorem forall_pure_some {P : β → Prop} {a : β} (h : P a) : ∀ b, (pure a : Option β) = some b → P b := by
  intro b hb
  obtain rfl := Option.some.inj hb
  exact h

/-- Only the actions that need the time call a method that reads a clock. -/
theorem toOperation_timed {arguments : String → Option Value} {action : String}
    (htime : action ∈ timeSensitiveActions → ((arguments "now").getD .none).isNone = false) :
    ∀ operation, toOperation arguments action = some operation → operation.Timed := by
  unfold toOperation
  split
  case h_15 =>
    refine forall_bind_some fun _ _ => forall_bind_some fun _ _ => forall_bind_some fun now hnow => ?_
    exact forall_pure_some (given_now (htime (by decide)) hnow)
  case h_23 =>
    refine forall_bind_some fun _ _ => forall_bind_some fun _ _ => forall_bind_some fun now hnow => ?_
    exact forall_pure_some (given_now (htime (by decide)) hnow)
  case h_26 =>
    intro _ h
    cases h
  all_goals
    repeat refine forall_bind_some fun _ _ => ?_
    exact forall_pure_some True.intro

theorem requireExplicitReplayTime_given {action : String} {arguments : List (String × Value)}
    (h : requireExplicitReplayTime shown action arguments = .ok ()) (ha : action ∈ timeSensitiveActions) :
    ((Dict.find arguments "now").getD .none).isNone = false := by
  have hnot := raiseIf_eq_ok.mp h
  exact Bool.eq_false_of_not_eq_true fun hnone => hnot ⟨ha, hnone⟩

theorem validatedOperationArguments_time {operation : SemanticOperation}
    (h : validatedOperationArguments shown operation = .ok arguments) :
    requireExplicitReplayTime shown operation.action arguments = .ok () := by
  rw [validatedOperationArguments] at h
  obtain ⟨_, h⟩ := Except.then_eq_ok.mp h
  obtain ⟨_, h⟩ := Except.then_eq_ok.mp h
  obtain ⟨_, h⟩ := Except.then_eq_ok.mp h
  obtain ⟨htime, h⟩ := Except.then_eq_ok.mp h
  obtain ⟨_, h⟩ := Except.then_eq_ok.mp h
  obtain rfl := Except.ok.inj h
  exact htime

theorem lift_bind_congr {x : Except PyError α} {f g : α → CoreM β} (h : ∀ a, x = .ok a → f a = g a) :
    ((liftM x : CoreM α) >>= f) = (liftM x : CoreM α) >>= g := by
  funext c
  cases x with
  | error e => exact (error_bind_apply (e := e) (t := c) rfl).trans (error_bind_apply rfl).symm
  | ok a =>
    exact (ok_bind_apply (a := a) (t := c) rfl).trans
      ((congrFun (h a rfl) c).trans (ok_bind_apply rfl).symm)

/-- An operation does the same whatever the clock shows. -/
theorem applyOperation_clock (operation : SemanticOperation) (clock clock' : Number) :
    applyOperation semanticValidity shown clock operation =
      applyOperation semanticValidity shown clock' operation := by
  rw [applyOperation, applyOperation]
  refine lift_bind_congr fun arguments hvalid => ?_
  cases hcall : toOperation (Dict.find arguments) operation.action with
  | none => rfl
  | some call =>
    exact (toOperation_timed (fun ha => requireExplicitReplayTime_given
      (validatedOperationArguments_time hvalid) ha) call hcall).call_eq clock clock'

theorem replayFrom_clock (clock clock' : Nat → Number) (seen : List String)
    (operations : List SemanticOperation) :
    replayFrom semanticValidity shown clock seen operations =
      replayFrom semanticValidity shown clock' seen operations := by
  induction operations generalizing seen with
  | nil => rfl
  | cons operation operations ih =>
    rw [replayFrom, replayFrom, applyOperation_clock operation _ (clock' seen.length), ih]

/-- Whatever text is replayed into whatever core, the outcome does not depend on the wall clock. -/
theorem replayOperationJsonl_clock (semanticValidity : SemanticValidity) (shown : Value → String)
    (text : String) (clock clock' : Nat → Number) :
    replayOperationJsonl semanticValidity shown clock text =
      replayOperationJsonl semanticValidity shown clock' text := by
  rw [replayOperationJsonl, replayOperationJsonl]
  simp only [replayOperations, replayFrom_clock clock clock']

end Clocks

end Cadi
