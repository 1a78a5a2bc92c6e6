import Cadi.Core.Evidence

namespace Cadi
open Library
set_option autoImplicit true

section Graph

def createProgram (id : String) : CoreM Program := do
  unique id
  let p : Program := { id }
  modify fun c => { c with programs := c.programs.set id p }
  return p

def ProgramStatus.terminal (s : ProgramStatus) : Prop :=
  s ∈ [ProgramStatus.completed, .failed, .cancelled]

instance (s : ProgramStatus) : Decidable s.terminal := inferInstanceAs (Decidable (_ ∈ _))

def setProgramStatus (programId : String) (status : ProgramStatus) : CoreM Program := do
  let c ← get
  let p ← item c.programs programId
  raiseIf (p.status.terminal ∧ status ≠ p.status)
    (PyError.invalidTransition "terminal Program is immutable")
  let p := { p with status }
  modify fun c => { c with programs := c.programs.set programId p }
  return p

def createSession (id programId : String) : CoreM Session := do
  unique id
  let c ← get
  let _ ← item c.programs programId
  let s : Session := { id, programId }
  modify fun c => { c with sessions := c.sessions.set id s }
  return s

/-- Each parent exists and lives in the Session, checked in the order of the set. -/
def checkParents (c : ContinuityCore) (sessionId : String) (parentIds : List String) :
    Except PyError Unit :=
  parentIds.forM fun pid => do
    let p ← item c.continuations pid
    raiseIf (p.sessionId ≠ sessionId)
      (.semanticViolation "Continuation parents must be in same Session")

def createContinuation (id sessionId : String) (parentIds : List String := [])
    (lifecycle : ContinuationLifecycle := .active) : CoreM Continuation := do
  unique id
  let c ← get
  let _ ← item c.sessions sessionId
  let parents := parentIds.toFinset
  checkParents c sessionId (elements parents)
  let ct : Continuation := { id, sessionId, parentIds := parents, lifecycle }
  modify fun c => { c with continuations := c.continuations.set id ct }
  let c ← get
  let cyclic ← c.hasCycle sessionId
  if cyclic then
    modify fun c => { c with continuations := c.continuations.erase id }
    throw (.semanticViolation "Continuation DAG cycle")
  else
    refreshStateLifecycles
    return ct

def ContinuationLifecycle.closed (l : ContinuationLifecycle) : Prop :=
  l ∈ [ContinuationLifecycle.terminal, .abandoned]

instance (l : ContinuationLifecycle) : Decidable l.closed := inferInstanceAs (Decidable (_ ∈ _))

def setContinuationLifecycle (continuationId : String) (lifecycle : ContinuationLifecycle) :
    CoreM Continuation := do
  let c ← get
  let ct ← item c.continuations continuationId
  raiseIf (ct.lifecycle.closed ∧ lifecycle ≠ ct.lifecycle)
    (PyError.invalidTransition "terminal/abandoned Continuation cannot reactivate")
  let ct := { ct with lifecycle }
  modify fun c => { c with continuations := c.continuations.set continuationId ct }
  refreshStateLifecycles
  return ct

def resumeAfterWait (waitingId childId : String) : CoreM Continuation := do
  let c ← get
  let ct ← item c.continuations waitingId
  raiseIf (ct.lifecycle ≠ .waiting)
    (PyError.invalidTransition "Continuation is not WAITING")
  let child ← createContinuation childId ct.sessionId [waitingId] .active
  modify fun c => { c with
    continuations := c.continuations.set waitingId { ct with lifecycle := .terminal } }
  refreshStateLifecycles
  return child

end Graph

section Requests

def createRequest (id continuationId : String) : CoreM LogicalRequest := do
  unique id
  let c ← get
  let _ ← item c.continuations continuationId
  let r : LogicalRequest := { id, continuationId, status := .ready }
  modify fun c => { c with requests := c.requests.set id r }
  return r

def RequestStatus.terminal (s : RequestStatus) : Prop :=
  s ∈ [RequestStatus.completed, .failed, .cancelled]

instance (s : RequestStatus) : Decidable s.terminal := inferInstanceAs (Decidable (_ ∈ _))

/-- Python's `max` with a default for the empty sequence. -/
def maxDefault (default : Int) : List Int → Int
  | [] => default
  | n :: ns => ns.foldl max n

def ContinuityCore.attemptsOf (c : ContinuityCore) (requestId : String) : List Attempt :=
  c.attempts.values.filter (·.requestId = requestId)

/-- The current Attempt loses its authority; an absent pointer leaves the Attempts alone. -/
def supersedeCurrent (currentAttemptId : Option String) : CoreM Unit := do
  match truthy currentAttemptId with
  | none => pure ()
  | some current =>
    let c ← get
    let old ← item c.attempts current
    raiseIf (old.authorityStatus ≠ .current)
      (PyError.semanticViolation "CurrentAttempt pointer is not CURRENT")
    modify fun c => { c with
      attempts := c.attempts.set old.id { old with authorityStatus := .superseded } }

def startAttempt (id requestId : String) : CoreM Attempt := do
  unique id
  let c ← get
  let r ← item c.requests requestId
  raiseIf r.status.terminal
    (PyError.invalidTransition "cannot start Attempt for terminal request")
  let generation := maxDefault 0 ((c.attemptsOf requestId).map (·.generation)) + 1
  supersedeCurrent r.currentAttemptId
  let a : Attempt := { id, requestId, generation, authorityStatus := .current }
  modify fun c => { c with attempts := c.attempts.set id a }
  modify fun c => { c with
    requests := c.requests.set requestId { r with status := .running, currentAttemptId := some id } }
  return a

def ExecutionStatus.terminal (s : ExecutionStatus) : Prop :=
  s ∈ [ExecutionStatus.succeeded, .failed, .cancelled]

instance (s : ExecutionStatus) : Decidable s.terminal := inferInstanceAs (Decidable (_ ∈ _))

/-- The position among the nonterminal statuses. -/
def ExecutionStatus.nonterminalRank : ExecutionStatus → Option Nat
  | .created => some 0
  | .dispatched => some 1
  | .running => some 2
  | _ => none

/-- Both statuses have a rank and the second is lower. -/
def backward (before after : Option Nat) : Prop :=
  match before, after with
  | some m, some n => n < m
  | _, _ => False

instance : (before after : Option Nat) → Decidable (backward before after)
  | some m, some n => inferInstanceAs (Decidable (n < m))
  | none, _ | some _, none => isFalse id

def setAttemptExecution (attemptId : String) (status : ExecutionStatus) : CoreM Attempt := do
  let c ← get
  let a ← item c.attempts attemptId
  raiseIf (a.executionStatus.terminal ∧ status ≠ a.executionStatus)
    (PyError.invalidTransition "terminal execution outcome is immutable")
  raiseIf (backward a.executionStatus.nonterminalRank status.nonterminalRank)
    (PyError.invalidTransition "Attempt execution status cannot move backward")
  let a := { a with executionStatus := status }
  modify fun c => { c with attempts := c.attempts.set attemptId a }
  return a

def completeAttempt (attemptId : String) (succeeded : Bool := true) : CoreM Attempt :=
  setAttemptExecution attemptId (if succeeded then .succeeded else .failed)

end Requests

section Phases

def ContinuityCore.phasesOf (c : ContinuityCore) (attemptId : String) : List Phase :=
  c.phases.values.filter (·.attemptId = attemptId)

def createPhase (id attemptId : String) (phaseType : PhaseType) (ordinal : Option Int := none) :
    CoreM Phase := do
  unique id
  let c ← get
  let _ ← item c.attempts attemptId
  let nextOrdinal := maxDefault 0 ((c.phasesOf attemptId).map (·.ordinal)) + 1
  let ordinal := ordinal.getD nextOrdinal
  raiseIf (ordinal ≠ nextOrdinal) (PyError.semanticViolation
    "Phase ordinals must be contiguous and monotonic within an Attempt")
  let p : Phase := { id, attemptId, ordinal, phaseType }
  modify fun c => { c with phases := c.phases.set id p }
  return p

def PhaseStatus.terminal (s : PhaseStatus) : Prop :=
  s ∈ [PhaseStatus.completed, .failed, .cancelled]

instance (s : PhaseStatus) : Decidable s.terminal := inferInstanceAs (Decidable (_ ∈ _))

/-- The position among the nonterminal statuses. -/
def PhaseStatus.nonterminalRank : PhaseStatus → Option Nat
  | .created => some 0
  | .running => some 1
  | _ => none

/-- Only an Attempt that is not superseded completes a Phase. -/
def checkCompletion (c : ContinuityCore) (attemptId : String) (status : PhaseStatus) :
    Except PyError Unit :=
  if status = .completed then do
    let attempt ← item c.attempts attemptId
    raiseIf (attempt.authorityStatus = .superseded)
      (.semanticViolation "superseded Attempt cannot authoritatively complete a Phase")
  else .ok ()

def setPhaseStatus (phaseId : String) (status : PhaseStatus) : CoreM Phase := do
  let c ← get
  let p ← item c.phases phaseId
  raiseIf (p.status.terminal ∧ status ≠ p.status)
    (PyError.invalidTransition "terminal Phase is immutable")
  checkCompletion c p.attemptId status
  raiseIf (backward p.status.nonterminalRank status.nonterminalRank)
    (PyError.invalidTransition "Phase status cannot move backward")
  let p := { p with status }
  modify fun c => { c with phases := c.phases.set phaseId p }
  return p

def completePhase (phaseId : String) : CoreM Phase := setPhaseStatus phaseId .completed

end Phases

section Outputs

def createOutput (id attemptId : String) (terminal : Bool) (evidenceIds : List String := []) :
    CoreM Output := do
  unique id
  let c ← get
  let _ ← item c.attempts attemptId
  let evidence := evidenceIds.toFinset
  let missing := (elements evidence).filter (· ∉ c.evidence)
  raiseIf (missing ≠ [])
    (PyError.semanticViolation "Output references unknown Evidence: " missing)
  let o : Output := { id, attemptId, terminal, evidenceIds := evidence }
  modify fun c => { c with outputs := c.outputs.set id o }
  return o

def finalizeRequest (clock : Number) (requestId outputId : String) (now : Option Number := none) :
    CoreM LogicalRequest := do
  let c ← get
  let r ← item c.requests requestId
  let o ← item c.outputs outputId
  let a ← item c.attempts o.attemptId
  if r.status = .completed then
    if r.authoritativeOutputId = some outputId then return r
    else throw (.invalidTransition "completed request output is immutable")
  else
    raiseIf (r.status = .failed ∨ r.status = .cancelled)
      (PyError.invalidTransition "FAILED/CANCELLED request cannot be finalized")
    raiseIf (some o.attemptId ≠ r.currentAttemptId ∨ a.authorityStatus ≠ .current)
      (PyError.semanticViolation "only CURRENT Attempt may finalize")
    raiseIf (a.executionStatus ≠ .succeeded ∨ o.terminal = false)
      (PyError.semanticViolation "Attempt must have terminal successful output")
    let _ ← c.requireEvidence clock "finalize" (elements o.evidenceIds) now
      (some {("attempt", a.id)}) none
    modify fun c => { c with
      attempts := c.attempts.set a.id { a with authorityStatus := .committed } }
    let r := { r with
      status := .completed
      currentAttemptId := none
      committedAttemptId := some a.id
      authoritativeOutputId := some o.id }
    modify fun c => { c with requests := c.requests.set requestId r }
    return r

end Outputs

section States

/-- What a declared origin resolves to: continuation, request, producer Attempt and Phase. -/
structure Origin where
  continuationId : String
  requestId : Option String
  attemptId : Option String
  phaseId : Option String
deriving DecidableEq

def ContinuityCore.resolveOrigin (c : ContinuityCore) (originType originId : String) :
    Except PyError Origin :=
  match originType with
  | "continuation" => do
    let ct ← item c.continuations originId
    return ⟨ct.id, none, none, none⟩
  | "request" => do
    let r ← item c.requests originId
    raiseIf (r.status ≠ .completed ∨ r.committedAttemptId = none) (.semanticViolation
      "request-origin State requires a COMPLETED request with a committed Attempt")
    return ⟨r.continuationId, some r.id, r.committedAttemptId, none⟩
  | "attempt" => do
    let a ← item c.attempts originId
    raiseIf (a.authorityStatus = .superseded)
      (.semanticViolation "superseded Attempt cannot produce authoritative State")
    let r ← item c.requests a.requestId
    return ⟨r.continuationId, some r.id, some a.id, none⟩
  | "phase" => do
    let p ← item c.phases originId
    raiseIf (p.status ≠ .completed)
      (.semanticViolation "Phase-origin State requires a COMPLETED producer Phase")
    let a ← item c.attempts p.attemptId
    raiseIf (a.authorityStatus = .superseded)
      (.semanticViolation "superseded Attempt Phase cannot produce authoritative State")
    let r ← item c.requests a.requestId
    return ⟨r.continuationId, some r.id, some a.id, some p.id⟩
  | _ => .error (.semanticViolation s!"unsupported origin_type: {originType}")

/-- The Phase order between a State produced at the origin and one dependency of it. -/
def checkPhaseOrder (c : ContinuityCore) (origin : Origin) (dependency : ReusableState) :
    Except PyError Unit :=
  match truthy origin.phaseId, truthy dependency.producerPhaseId with
  | some producer, some earlier =>
    if dependency.producerAttemptId = origin.attemptId then do
      let producerPhase ← item c.phases producer
      let dependencyPhase ← item c.phases earlier
      raiseIf (dependencyPhase.ordinal ≥ producerPhase.ordinal) (.semanticViolation
        "derived State cannot depend on same-or-later Phase State within an Attempt")
    else .ok ()
  | _, _ => .ok ()

def checkDependency (c : ContinuityCore) (origin : Origin) (sid : String) :
    Except PyError Unit := do
  let dependency ← item c.states sid
  let causal ← c.isAncestor dependency.originContinuationId origin.continuationId
  raiseIf (causal = false) (.semanticViolation
    "derived State dependency must be a causal ancestor of the declared origin")
  checkPhaseOrder c origin dependency

def checkDependencies (c : ContinuityCore) (origin : Origin) (sids : List String) :
    Except PyError Unit :=
  sids.forM (checkDependency c origin)

def createState (id originType originId : String) (semanticType : String := "PREFIX")
    (representation : String := "OPAQUE") (derivedFrom : List String := []) :
    CoreM ReusableState := do
  unique id
  let c ← get
  let origin ← c.resolveOrigin originType originId
  let dependencies := derivedFrom.toFinset
  checkDependencies c origin (elements dependencies)
  let x : ReusableState := {
    id, originType, originId, originContinuationId := origin.continuationId,
    originRequestId := origin.requestId, producerAttemptId := origin.attemptId, semanticType,
    representation, lifecycle := .terminal, validity := .valid, derivedFrom := dependencies,
    producerPhaseId := origin.phaseId }
  modify fun c => { c with states := c.states.set id x }
  let c ← get
  let cyclic ← c.stateCycle
  if cyclic then
    modify fun c => { c with states := c.states.erase id }
    throw (.semanticViolation "State provenance cycle")
  else
    refreshStateLifecycles
    let c ← get
    let x ← item c.states id
    return x

def setStateValidity (stateId : String) (validity : StateValidity) : CoreM ReusableState := do
  let c ← get
  let x ← item c.states stateId
  raiseIf (x.validity = .invalid ∧ validity ≠ .invalid)
    (PyError.invalidTransition "INVALID logical State cannot be resurrected")
  let x := { x with validity }
  modify fun c => { c with states := c.states.set stateId x }
  return x

def addReplica (id stateId locationId : String) (status : ReplicaStatus := .valid) :
    CoreM StateReplica := do
  unique id
  let c ← get
  let _ ← item c.states stateId
  let r : StateReplica := { id, stateId, locationId, status }
  modify fun c => { c with replicas := c.replicas.set id r }
  return r

def setReplicaStatus (replicaId : String) (status : ReplicaStatus) : CoreM StateReplica := do
  let c ← get
  let r ← item c.replicas replicaId
  let r := { r with status }
  modify fun c => { c with replicas := c.replicas.set replicaId r }
  return r

end States

section Bindings

def ContinuityCore.currentEpoch (c : ContinuityCore) (subjectId : String) : Int :=
  (c.currentEpochBySubject.get? subjectId).getD 0

def ContinuityCore.lastAllocatedEpoch (c : ContinuityCore) (subjectId : String) : Int :=
  (c.lastAllocatedEpochBySubject.get? subjectId).getD (c.currentEpoch subjectId)

def proposeBinding (id subjectId locationId : String) : CoreM Binding := do
  unique id
  let c ← get
  let base := c.currentEpoch subjectId
  let epoch := c.lastAllocatedEpoch subjectId + 1
  modify fun c => { c with
    lastAllocatedEpochBySubject := c.lastAllocatedEpochBySubject.set subjectId epoch }
  let b : Binding := { id, subjectId, locationId, baseEpoch := base, epoch }
  modify fun c => { c with bindings := c.bindings.set id b }
  return b

def activateInitialBinding (id subjectId locationId : String) : CoreM Binding := do
  let c ← get
  raiseIf (subjectId ∈ c.currentBindingBySubject)
    (PyError.invalidTransition "subject already has current Binding")
  let b ← proposeBinding id subjectId locationId
  let b := { b with status := .active }
  modify fun c => { c with bindings := c.bindings.set id b }
  modify fun c => { c with
    currentBindingBySubject := c.currentBindingBySubject.set subjectId id }
  modify fun c => { c with
    currentEpochBySubject := c.currentEpochBySubject.set subjectId b.epoch }
  return b

def beginMigration (bindingId : String) : CoreM Binding := do
  let c ← get
  let b ← item c.bindings bindingId
  raiseIf (b.status ≠ .proposed) (PyError.invalidTransition "candidate not PROPOSED")
  let b := { b with status := .migrating }
  modify fun c => { c with bindings := c.bindings.set b.id b }
  return b

/-- The current Binding of the subject, if its identifier is not empty, is superseded. -/
def supersedeBinding (subjectId : String) : CoreM Unit := do
  let c ← get
  match truthy (c.currentBindingBySubject.get? subjectId) with
  | none => pure ()
  | some oldId =>
    let old ← item c.bindings oldId
    modify fun c => { c with bindings := c.bindings.set oldId { old with status := .superseded } }

def commitMigration (clock : Number) (bindingId : String) (evidenceIds : List String)
    (now : Option Number := none) : CoreM Binding := do
  let c ← get
  let b ← item c.bindings bindingId
  raiseIf (b.baseEpoch ≠ c.currentEpoch b.subjectId)
    (PyError.semanticViolation "migration candidate base_epoch is stale")
  raiseIf (b.status ≠ .proposed ∧ b.status ≠ .migrating)
    (PyError.invalidTransition "candidate not eligible")
  let _ ← c.requireEvidence clock "commit_migration" evidenceIds now
    (some {("binding", b.id), ("epoch", toString b.epoch)}) none
  supersedeBinding b.subjectId
  let b := { b with status := .active }
  modify fun c => { c with bindings := c.bindings.set b.id b }
  modify fun c => { c with
    currentBindingBySubject := c.currentBindingBySubject.set b.subjectId b.id }
  modify fun c => { c with
    currentEpochBySubject := c.currentEpochBySubject.set b.subjectId b.epoch }
  return b

end Bindings

section Events

def recordEvent (event : SemanticEvent) : CoreM SemanticEvent := do
  let c ← get
  match c.events.get? event.id with
  | some existing =>
    raiseIf (existing ≠ event)
      (PyError.semanticViolation "conflicting duplicate semantic event identity")
    return existing
  | none =>
    unique event.id
    modify fun c => { c with events := c.events.set event.id event }
    modify fun c => { c with eventOrder := c.eventOrder ++ [event.id] }
    return event

end Events

end Cadi
