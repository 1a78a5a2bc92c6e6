import Cadi.Core.PublicOperation
import Cadi.Invariants.Grounded
import Cadi.Oracle.Checks
import Cadi.Serialization.Snapshot
import Cadi.Simulator.Host
import Cadi.Library.Keys

namespace Cadi
open Library
set_option autoImplicit true

inductive AdapterOutcome where
  | applied | idempotent | rejected | ignored
deriving DecidableEq

/-- What a handler reports or raises: an `_AdapterInputError`, with the fields it lists, or an
exception of the code it calls. -/
inductive AdapterError where
  | input (message : String) (missing : List String := [])
  | raised (error : PyError)
deriving DecidableEq

/-- A record of one semantic action; the name and the text of the error are those of `error`. -/
structure SemanticActionRecord where
  simTime : Time
  eventId : String
  eventKind : EventKind
  operation : String
  outcome : AdapterOutcome
  resultId : Option String
  error : Option AdapterError
  fingerprint : String
deriving DecidableEq

/-- The adapter's own state with the core it drives; the simulator is that of the host. -/
structure ContinuityAdapter where
  core : ContinuityCore
  records : List SemanticActionRecord := []
  scheduledRetryAttempts : FrozenSet String := ∅
  attemptSuccessTimes : Dict String Time := ∅

abbrev AdapterM := HostM ContinuityAdapter

/-- The exceptions of the core's own hierarchy. -/
def PyError.continuity : PyError → Bool
  | .invalidTransition _ | .insufficientEvidence _ | .semanticViolation _ _ => true
  | _ => false

/-- The exceptions that `_apply` records as a rejection. -/
def PyError.rejection : PyError → Bool
  | .keyError _ => true
  | e => e.continuity

/-- A `try` statement; the exceptions it names become values. -/
def catching (caught : PyError → Bool) (x : HostM σ α) : HostM σ (Except PyError α) := fun h =>
  match x h with
  | .ok a h' => .ok (.ok a) h'
  | .error e h' => if caught e then .ok (.error e) h' else .error e h'

namespace ContinuityAdapter

/-- A call of a method of the core. -/
def onCore (call : CoreM α) : AdapterM α := fun h =>
  match call h.world.core with
  | .ok a core => .ok a { h with world := { h.world with core } }
  | .error e core => .error e { h with world := { h.world with core } }

section Payloads

/-- `_finite_nonnegative`; converting a large integer raises an `OverflowError`. -/
def finiteNonnegative (value : Frozen) (name : String) : Except PyError Time :=
  match value with
  | .num n =>
    match n.toFloat with
    | none => .error (.overflowError "int too large to convert to float")
    | some x =>
      match Time.ofBinary64 x with
      | some t => .ok t
      | none => .error (.valueError s!"{name} must be finite and non-negative")
  | _ => .error (.valueError s!"{name} must be numeric")

/-- A field of the payload as a time; an `OverflowError` is not converted. -/
def eventNonnegativeFloat (event : SimEvent) (name : String) : Except AdapterError Time :=
  match event.payload.lookup name with
  | none => .error (.input s!"event payload missing field: {name}")
  | some value =>
    match finiteNonnegative value name with
    | .ok t => .ok t
    | .error (.valueError message) | .error (.typeError message) => .error (.input message)
    | .error e => .error (.raised e)

def requireId (value name : String) : Except PyError Unit :=
  raiseIf (value = "") (.valueError s!"{name} must be a non-empty string")

/-- The value is a string with at least one character. -/
def Identifier : Option Frozen → Prop
  | some (.str s) => s ≠ ""
  | _ => False

instance : (value : Option Frozen) → Decidable (Identifier value)
  | some (.str s) => inferInstanceAs (Decidable (s ≠ ""))
  | none | some .none | some (.bool _) | some (.num _) | some (.tuple _) => isFalse id

/-- The string under a key, empty where there is none. -/
def textAt (event : SimEvent) (name : String) : String :=
  match event.payload.lookup name with
  | some (.str s) => s
  | _ => ""

/-- `_payload`: the strings of the payload once the required ones are there and not empty. -/
def payload (event : SimEvent) (required : List String) : Except AdapterError (String → String) := do
  let missing := required.filter fun name => (event.payload.lookup name).isNone
  raiseIf (missing ≠ []) (AdapterError.input "event payload missing fields: " missing)
  required.forM fun name => raiseIf (¬ Identifier (event.payload.lookup name))
    (AdapterError.input s!"event payload field '{name}' must be a non-empty string")
  return textAt event

end Payloads

section Records
variable (semanticValidity : SemanticValidity) (sha256 : String → String)

def assertOracle : AdapterM Unit := do
  let h ← get
  assertAll semanticValidity h.world.core

/-- The property `semantic_fingerprint`. -/
def semanticFingerprint : AdapterM String := do
  let h ← get
  snapshotFingerprint sha256 h.world.core

def appendRecord (event : SimEvent) (operation : String) (outcome : AdapterOutcome)
    (resultId : Option String) (error : Option AdapterError) (fingerprint : String) :
    AdapterM Unit := do
  let h ← get
  modifyWorld fun w => { w with records := w.records ++ [{
    simTime := h.history.sim.now, eventId := event.eventId, eventKind := event.kind, operation,
    outcome, resultId, error, fingerprint }] }

def note (event : SimEvent) (operation : String) (outcome : AdapterOutcome)
    (resultId : Option String := none) (error : Option AdapterError := none) : AdapterM Unit := do
  assertOracle semanticValidity
  let fingerprint ← semanticFingerprint sha256
  appendRecord event operation outcome resultId error fingerprint

/-- `_apply`: a call of the core with its record; the result is absent where the call is rejected. -/
def apply [Entity α] (event : SimEvent) (operation : String) (call : CoreM α) :
    AdapterM (Option α) := do
  let before ← semanticFingerprint sha256
  let result ← catching PyError.rejection (onCore call)
  assertOracle semanticValidity
  let after ← semanticFingerprint sha256
  match result with
  | .error e =>
    raiseIf (after ≠ before)
      (PyError.assertionError s!"rejected C1 operation '{operation}' mutated semantic state")
    appendRecord event operation .rejected none (some (.raised e)) after
    return none
  | .ok result =>
    let outcome := if after = before then AdapterOutcome.idempotent else .applied
    appendRecord event operation outcome (some (Entity.id result)) none after
    return some result

end Records

/-- A handler reads the payload first; what it then does may raise, but no `_AdapterInputError`. -/
abbrev EventHandler := SimEvent → Except AdapterError (AdapterM Unit)

section Handlers
variable (semanticValidity : SemanticValidity) (sha256 : String → String)

def onRequestCreated : EventHandler := fun event => do
  let p ← payload event ["request_id", "continuation_id"]
  return do
    let _ ← apply semanticValidity sha256 event "create_request"
      (createRequest (p "request_id") (p "continuation_id"))

/-- The Attempt is started and, unless that is rejected, marked as running. -/
def startRunning (event : SimEvent) (attemptId requestId : String) : AdapterM Unit := do
  let attempt ← apply semanticValidity sha256 event "start_attempt" (startAttempt attemptId requestId)
  if attempt.isSome then
    let _ ← apply semanticValidity sha256 event "set_attempt_execution:RUNNING"
      (setAttemptExecution attemptId .running)

def onAttemptStarted : EventHandler := fun event => do
  let p ← payload event ["request_id", "attempt_id"]
  return startRunning semanticValidity sha256 event (p "attempt_id") (p "request_id")

/-- The identifier of the start that a timeout schedules. -/
def retryEventId (event : SimEvent) (retryAttemptId : String) : String :=
  s!"retry-start:{retryAttemptId}:from:{event.eventId}"

/-- The start of the retry that a timeout schedules. -/
def retryStart (event : SimEvent) (requestId timedOutAttemptId retryAttemptId : String) :
    ScheduleRequest where
  kind := .retryStarted
  delay := some (.int 0)
  eventId := some (retryEventId event retryAttemptId)
  payload := payloadOf [("request_id", .str requestId),
    ("superseded_attempt_id", .str timedOutAttemptId), ("retry_attempt_id", .str retryAttemptId)]

def onAttemptTimeout : EventHandler := fun event => do
  let p ← payload event ["request_id", "timed_out_attempt_id", "retry_attempt_id"]
  return do
    let h ← get
    match h.world.core.requests.get? (p "request_id") with
    | none =>
      note semanticValidity sha256 event "timeout_retry_eligibility" .rejected none
        (some (.input "timeout references unknown request"))
    | some request =>
      if request.status.terminal then
        note semanticValidity sha256 event "timeout_retry_eligibility" .ignored
      else if request.currentAttemptId ≠ some (p "timed_out_attempt_id") then
        note semanticValidity sha256 event "timeout_retry_eligibility" .ignored
      else if p "retry_attempt_id" ∈ h.world.scheduledRetryAttempts then
        note semanticValidity sha256 event "timeout_retry_eligibility" .ignored
      else
        modifyWorld fun w => { w with
          scheduledRetryAttempts := insert (p "retry_attempt_id") w.scheduledRetryAttempts }
        let _ ← orElseUndo
          (scheduleEvent (retryStart event (p "request_id") (p "timed_out_attempt_id")
            (p "retry_attempt_id")))
          fun w => { w with
            scheduledRetryAttempts := w.scheduledRetryAttempts.erase (p "retry_attempt_id") }
        note semanticValidity sha256 event "schedule_retry" .applied

def onRetryStarted : EventHandler := fun event => do
  let p ← payload event ["request_id", "superseded_attempt_id", "retry_attempt_id"]
  return do
    let h ← get
    match h.world.core.requests.get? (p "request_id") with
    | none =>
      note semanticValidity sha256 event "retry_eligibility" .rejected none
        (some (.input "retry references unknown request"))
    | some request =>
      if request.status.terminal then
        note semanticValidity sha256 event "retry_eligibility" .ignored
      else if request.currentAttemptId ≠ some (p "superseded_attempt_id") then
        note semanticValidity sha256 event "retry_eligibility" .ignored
      else startRunning semanticValidity sha256 event (p "retry_attempt_id") (p "request_id")

/-- The Attempt has succeeded already. -/
def alreadySucceeded (c : ContinuityCore) (attemptId : String) : Prop :=
  ∃ a ∈ c.attempts.get? attemptId, a.executionStatus = .succeeded

instance (c : ContinuityCore) (attemptId : String) : Decidable (alreadySucceeded c attemptId) :=
  inferInstanceAs (Decidable (∃ a ∈ c.attempts.get? attemptId, a.executionStatus = .succeeded))

def onAttemptCompleted : EventHandler := fun event => do
  let p ← payload event ["attempt_id"]
  return do
    let h ← get
    let result ← apply semanticValidity sha256 event "complete_attempt:SUCCEEDED"
      (completeAttempt (p "attempt_id") true)
    if result.isSome ∧ ¬ alreadySucceeded h.world.core (p "attempt_id") then
      modifyWorld fun w =>
        if p "attempt_id" ∈ w.attemptSuccessTimes then w
        else { w with
          attemptSuccessTimes := w.attemptSuccessTimes.set (p "attempt_id") h.history.sim.now }

def onAttemptFailed : EventHandler := fun event => do
  let p ← payload event ["attempt_id"]
  return do
    let _ ← apply semanticValidity sha256 event "complete_attempt:FAILED"
      (completeAttempt (p "attempt_id") false)

theorem claimPaired_none : ClaimPaired none none := True.intro

/-- The Evidence of a terminal observation. -/
def terminalEvidence (attemptId evidenceId : String) (observedAt : Time) : Evidence where
  id := evidenceId
  claim := "terminal_attempt_success"
  source := "c2.semantic_adapter"
  authority := .exactObservation
  status := .valid
  observedAt := observedAt.toNumber
  scope := {("attempt", attemptId)}
  paired := claimPaired_none

/-- The Output of a terminal observation. -/
def terminalOutput (attemptId evidenceId outputId : String) : Output where
  id := outputId
  attemptId
  terminal := true
  evidenceIds := {evidenceId}

def ensureTerminalEvidence (event : SimEvent) (attemptId evidenceId : String) (observedAt : Time) :
    AdapterM Unit := do
  let expected := terminalEvidence attemptId evidenceId observedAt
  let h ← get
  match h.world.core.evidence.get? evidenceId with
  | some existing =>
    raiseIf (existing.eq expected = false)
      (PyError.semanticViolation "conflicting terminal Evidence identity in semantic adapter")
    note semanticValidity sha256 event "record_evidence" .idempotent (some evidenceId)
  | none =>
    let _ ← apply semanticValidity sha256 event "record_evidence" (recordEvidence expected)

def ensureTerminalOutput (event : SimEvent) (attemptId evidenceId outputId : String) :
    AdapterM Unit := do
  let h ← get
  match h.world.core.outputs.get? outputId with
  | some existing =>
    raiseIf (existing ≠ terminalOutput attemptId evidenceId outputId)
      (PyError.semanticViolation "conflicting terminal Output identity in semantic adapter")
    note semanticValidity sha256 event "create_output" .idempotent (some outputId)
  | none =>
    let _ ← apply semanticValidity sha256 event "create_output"
      (createOutput outputId attemptId true [evidenceId])

/-- The end of `_on_observation`: the Evidence, the Output and the finalization. -/
def presentObservation (event : SimEvent) (p : String → String) (observedAt : Time) :
    AdapterM Unit := do
  let ensured ← catching PyError.continuity do
    ensureTerminalEvidence semanticValidity sha256 event (p "attempt_id") (p "evidence_id") observedAt
    ensureTerminalOutput semanticValidity sha256 event (p "attempt_id") (p "evidence_id")
      (p "output_id")
  match ensured with
  | .error e =>
    note semanticValidity sha256 event "observation_identity" .rejected none
      (some (.raised e))
  | .ok _ => do
    let h ← get
    let now := h.history.sim.now.toNumber
    -- the time is given, so that the wall clock is not asked
    let _ ← apply semanticValidity sha256 event "finalize_request"
      (finalizeRequest now (p "request_id") (p "output_id") (some now))

def onObservation : EventHandler := fun event => do
  let p ← payload event ["request_id", "attempt_id", "evidence_id", "output_id"]
  let observedAt ← eventNonnegativeFloat event "observed_at"
  return do
    let h ← get
    if h.history.sim.now < observedAt then
      note semanticValidity sha256 event "observation_timestamp" .rejected none
        (some (.input "observation timestamp is later than delivery"))
    else
      match h.world.core.attempts.get? (p "attempt_id") with
      | none =>
        note semanticValidity sha256 event "observe_terminal_attempt" .rejected none
          (some (.input "observation references unknown Attempt"))
      | some attempt =>
        if attempt.requestId ≠ p "request_id" then
          note semanticValidity sha256 event "observe_terminal_attempt" .rejected none
            (some (.input "observation Attempt/Request identity mismatch"))
        else if attempt.executionStatus ≠ .succeeded then
          note semanticValidity sha256 event "observe_terminal_attempt" .rejected none
            (some (.raised (.semanticViolation
              "terminal success observation requires SUCCEEDED Attempt")))
        else if ∃ t ∈ h.world.attemptSuccessTimes.get? (p "attempt_id"), observedAt < t then
          note semanticValidity sha256 event "observation_timestamp" .rejected none
            (some (.input "terminal observation cannot predate delivered Attempt success"))
        else presentObservation semanticValidity sha256 event p observedAt

/-- The handlers the constructor registers. -/
def handlerOf : EventKind → Option EventHandler
  | .requestCreated => some (onRequestCreated semanticValidity sha256)
  | .attemptStarted => some (onAttemptStarted semanticValidity sha256)
  | .attemptTimeout => some (onAttemptTimeout semanticValidity sha256)
  | .retryStarted => some (onRetryStarted semanticValidity sha256)
  | .attemptCompleted | .lateResult => some (onAttemptCompleted semanticValidity sha256)
  | .attemptFailed => some (onAttemptFailed semanticValidity sha256)
  | .observationCreated | .observationDuplicated => some (onObservation semanticValidity sha256)
  | _ => none

/-- `_register.deliver`: an `_AdapterInputError` is recorded. -/
def deliver (handler : EventHandler) (event : SimEvent) : AdapterM Unit :=
  match handler event with
  | .ok act => act
  | .error (.input message missing) =>
    note semanticValidity sha256 event "event_validation" .rejected none (some (.input message missing))
  | .error (.raised e) => throw e

/-- What the simulator calls for an event. -/
def handle (event : SimEvent) : AdapterM Unit :=
  match handlerOf semanticValidity sha256 event.kind with
  | some handler => deliver semanticValidity sha256 handler event
  | none => pure ()

/-- The constructor: an adapter starts on a core that the oracle accepts. -/
def new (core : ContinuityCore) : Except PyError ContinuityAdapter := do
  assertAll semanticValidity core
  return { core }

end Handlers

end ContinuityAdapter

end Cadi
