import Cadi.Invariants.Grounded

namespace Cadi
open Library
set_option autoImplicit true

/-- One abstract transition of the stores, with the entities it reads. -/
inductive Effect where
  | createProgram (id : String)
  | setProgramStatus (p : Program) (status : ProgramStatus)
  | createSession (s : Session)
  | createContinuation (ct : Continuation)
  | setLifecycle (ct : Continuation) (lifecycle : ContinuationLifecycle)
  | createRequest (id continuationId : String)
  | startAttempt (id : String) (r : LogicalRequest)
  | setExecution (a : Attempt) (status : ExecutionStatus)
  | createPhase (id attemptId : String) (phaseType : PhaseType)
  | setPhaseStatus (p : Phase) (status : PhaseStatus)
  | createOutput (o : Output)
  | finalize (r : LogicalRequest) (a : Attempt) (o : Output)
  | createState (x : ReusableState)
  | setValidity (x : ReusableState) (validity : StateValidity)
  | addReplica (r : StateReplica)
  | setReplicaStatus (r : StateReplica) (status : ReplicaStatus)
  | propose (id subjectId locationId : String)
  | activateInitial (id subjectId locationId : String)
  | beginMigration (b : Binding)
  | commitMigration (b : Binding)
  | recordEvent (event : SemanticEvent)
  | recordEvidence (e : Evidence)

/-- The Attempts after the one a pointer names, if any, has lost its authority. -/
def superseded (attempts : Dict String Attempt) (pointer : Option String) : Dict String Attempt :=
  match truthy pointer with
  | none => attempts
  | some current =>
    match attempts.get? current with
    | none => attempts
    | some old => attempts.set current { old with authorityStatus := .superseded }

/-- The Bindings after the one a pointer names, if any, has been superseded. -/
def supersededBinding (bindings : Dict String Binding) (pointer : Option String) :
    Dict String Binding :=
  match truthy pointer with
  | none => bindings
  | some current =>
    match bindings.get? current with
    | none => bindings
    | some old => bindings.set current { old with status := .superseded }

theorem get?_superseded (attempts : Dict String Attempt) (pointer : Option String) (k : String) :
    (superseded attempts pointer).get? k = (attempts.get? k).map fun a =>
      if truthy pointer = some k then { a with authorityStatus := .superseded } else a := by
  unfold superseded
  cases hp : truthy pointer with
  | none => simp only [reduceCtorEq, ↓reduceIte, Option.map_id']
  | some current =>
    by_cases hk : current = k
    · subst hk
      cases hold : attempts.get? current with
      | none => simp only [hold, Option.map_none]
      | some old => simp only [hold, Dict.get?_set_self, Option.map_some, ↓reduceIte]
    · simp only [Option.some.injEq, hk, ↓reduceIte, Option.map_id']
      cases hold : attempts.get? current with
      | none => rfl
      | some old => simp only [Dict.get?_set_ne _ _ hk]

theorem get?_supersededBinding (bindings : Dict String Binding) (pointer : Option String)
    (k : String) :
    (supersededBinding bindings pointer).get? k = (bindings.get? k).map fun b =>
      if truthy pointer = some k then { b with status := .superseded } else b := by
  unfold supersededBinding
  cases hp : truthy pointer with
  | none => simp only [reduceCtorEq, ↓reduceIte, Option.map_id']
  | some current =>
    by_cases hk : current = k
    · subst hk
      cases hold : bindings.get? current with
      | none => simp only [hold, Option.map_none]
      | some old => simp only [hold, Dict.get?_set_self, Option.map_some, ↓reduceIte]
    · simp only [Option.some.injEq, hk, ↓reduceIte, Option.map_id']
      cases hold : bindings.get? current with
      | none => rfl
      | some old => simp only [Dict.get?_set_ne _ _ hk]

theorem mem_superseded {attempts : Dict String Attempt} :
    k ∈ superseded attempts pointer ↔ k ∈ attempts := by
  simp only [Dict.mem_iff, get?_superseded, Option.map_eq_some_iff, ↓existsAndEq, and_true]

theorem mem_supersededBinding {bindings : Dict String Binding} :
    k ∈ supersededBinding bindings pointer ↔ k ∈ bindings := by
  simp only [Dict.mem_iff, get?_supersededBinding, Option.map_eq_some_iff, ↓existsAndEq, and_true]

namespace ContinuityCore

def Fresh (c : ContinuityCore) (id : String) : Prop := id ∉ c.ids

/-- An identifier that keys no entity. -/
structure Unused (c : ContinuityCore) (id : String) : Prop where
  programs : id ∉ c.programs
  sessions : id ∉ c.sessions
  continuations : id ∉ c.continuations
  requests : id ∉ c.requests
  attempts : id ∉ c.attempts
  phases : id ∉ c.phases
  states : id ∉ c.states
  replicas : id ∉ c.replicas
  bindings : id ∉ c.bindings
  evidence : id ∉ c.evidence
  outputs : id ∉ c.outputs
  events : id ∉ c.events

theorem Fresh.unused {c : ContinuityCore} {id : String} (h : c.Fresh id) : c.Unused id := by
  simp only [Fresh, ids, List.mem_append, not_or] at h
  obtain ⟨⟨⟨⟨⟨⟨⟨⟨⟨⟨⟨programs, sessions⟩, continuations⟩, requests⟩, attempts⟩, phases⟩, states⟩,
    replicas⟩, bindings⟩, evidence⟩, outputs⟩, events⟩ := h
  exact ⟨programs, sessions, continuations, requests, attempts, phases, states, replicas, bindings,
    evidence, outputs, events⟩

/-- The Attempt the next start for a request creates. -/
def nextAttempt (c : ContinuityCore) (id requestId : String) : Attempt where
  id := id
  requestId := requestId
  generation := maxDefault 0 ((c.attemptsOf requestId).map (·.generation)) + 1
  authorityStatus := .current

def nextPhase (c : ContinuityCore) (id attemptId : String) (phaseType : PhaseType) : Phase where
  id := id
  attemptId := attemptId
  ordinal := maxDefault 0 ((c.phasesOf attemptId).map (·.ordinal)) + 1
  phaseType := phaseType

/-- The candidate the next proposal for a subject creates. -/
def proposal (c : ContinuityCore) (id subjectId locationId : String) : Binding where
  id := id
  subjectId := subjectId
  locationId := locationId
  baseEpoch := c.currentEpoch subjectId
  epoch := c.lastAllocatedEpoch subjectId + 1

end ContinuityCore

def LogicalRequest.started (r : LogicalRequest) (id : String) : LogicalRequest :=
  { r with status := .running, currentAttemptId := some id }

def LogicalRequest.finalized (r : LogicalRequest) (a : Attempt) (o : Output) : LogicalRequest :=
  { r with
    status := .completed
    currentAttemptId := none
    committedAttemptId := some a.id
    authoritativeOutputId := some o.id }

/-- What the transition makes of the stores. -/
def Effect.apply (c : ContinuityCore) : Effect → ContinuityCore
  | .createProgram id => { c with programs := c.programs.set id { id } }
  | .setProgramStatus p status => { c with programs := c.programs.set p.id { p with status } }
  | .createSession s => { c with sessions := c.sessions.set s.id s }
  | .createContinuation ct =>
    { c with continuations := c.continuations.set ct.id ct }.refreshed
  | .setLifecycle ct lifecycle =>
    { c with continuations := c.continuations.set ct.id { ct with lifecycle } }.refreshed
  | .createRequest id continuationId =>
    { c with requests := c.requests.set id { id, continuationId, status := .ready } }
  | .startAttempt id r => { c with
    attempts := (superseded c.attempts r.currentAttemptId).set id (c.nextAttempt id r.id)
    requests := c.requests.set r.id (r.started id) }
  | .setExecution a status =>
    { c with attempts := c.attempts.set a.id { a with executionStatus := status } }
  | .createPhase id attemptId phaseType =>
    { c with phases := c.phases.set id (c.nextPhase id attemptId phaseType) }
  | .setPhaseStatus p status => { c with phases := c.phases.set p.id { p with status } }
  | .createOutput o => { c with outputs := c.outputs.set o.id o }
  | .finalize r a o => { c with
    attempts := c.attempts.set a.id { a with authorityStatus := .committed }
    requests := c.requests.set r.id (r.finalized a o) }
  | .createState x => { c with states := c.states.set x.id x }.refreshed
  | .setValidity x validity => { c with states := c.states.set x.id { x with validity } }
  | .addReplica r => { c with replicas := c.replicas.set r.id r }
  | .setReplicaStatus r status => { c with replicas := c.replicas.set r.id { r with status } }
  | .propose id subjectId locationId => { c with
    lastAllocatedEpochBySubject := c.lastAllocatedEpochBySubject.set subjectId
      (c.lastAllocatedEpoch subjectId + 1)
    bindings := c.bindings.set id (c.proposal id subjectId locationId) }
  | .activateInitial id subjectId locationId => { c with
    lastAllocatedEpochBySubject := c.lastAllocatedEpochBySubject.set subjectId
      (c.lastAllocatedEpoch subjectId + 1)
    bindings := c.bindings.set id { c.proposal id subjectId locationId with status := .active }
    currentBindingBySubject := c.currentBindingBySubject.set subjectId id
    currentEpochBySubject := c.currentEpochBySubject.set subjectId
      (c.lastAllocatedEpoch subjectId + 1) }
  | .beginMigration b => { c with bindings := c.bindings.set b.id { b with status := .migrating } }
  | .commitMigration b => { c with
    bindings := (supersededBinding c.bindings (c.currentBindingBySubject.get? b.subjectId)).set b.id
      { b with status := .active }
    currentBindingBySubject := c.currentBindingBySubject.set b.subjectId b.id
    currentEpochBySubject := c.currentEpochBySubject.set b.subjectId b.epoch }
  | .recordEvent event => { c with
    events := c.events.set event.id event
    eventOrder := c.eventOrder ++ [event.id] }
  | .recordEvidence e => { c with evidence := c.evidence.set e.id e }

/-- The evidence named for an action suffices at some time. -/
def Sufficient (c : ContinuityCore) (action : String) (evidenceIds : List String)
    (scope : FrozenSet (String × String)) : Prop :=
  ∃ (clock : Number) (now : Option Number) (good : List Evidence),
    c.requireEvidence clock action evidenceIds now (some scope) none = .ok good

structure ContinuationAllowed (c : ContinuityCore) (ct : Continuation) : Prop where
  fresh : c.Fresh ct.id
  session : ct.sessionId ∈ c.sessions
  parent : ∀ p ∈ ct.parentIds,
    ∃ pc, c.continuations.get? p = some pc ∧ pc.sessionId = ct.sessionId

structure StartAllowed (c : ContinuityCore) (id : String) (r : LogicalRequest) : Prop where
  fresh : c.Fresh id
  stored : c.requests.get? r.id = some r
  opened : ¬ r.status.terminal
  current : ∀ k, truthy r.currentAttemptId = some k →
    ∃ old, c.attempts.get? k = some old ∧ old.authorityStatus = .current

structure FinalizeAllowed (c : ContinuityCore) (r : LogicalRequest) (a : Attempt) (o : Output) :
    Prop where
  request : c.requests.get? r.id = some r
  output : c.outputs.get? o.id = some o
  attempt : c.attempts.get? a.id = some a
  produced : o.attemptId = a.id
  opened : ¬ r.status.terminal
  current : r.currentAttemptId = some a.id
  authority : a.authorityStatus = .current
  succeeded : a.executionStatus = .succeeded
  terminal : o.terminal = true
  evidence : Sufficient c "finalize" (elements o.evidenceIds) {("attempt", a.id)}

structure ReusableState.FromOrigin (x : ReusableState) (origin : Origin) : Prop where
  continuation : x.originContinuationId = origin.continuationId
  request : x.originRequestId = origin.requestId
  attempt : x.producerAttemptId = origin.attemptId
  phase : x.producerPhaseId = origin.phaseId

structure StateAllowed (c : ContinuityCore) (x : ReusableState) : Prop where
  fresh : c.Fresh x.id
  valid : x.validity = .valid
  origin : ∃ origin, c.resolveOrigin x.originType x.originId = .ok origin ∧ x.FromOrigin origin ∧
    checkDependencies c origin (elements x.derivedFrom) = .ok ()

structure CommitAllowed (c : ContinuityCore) (b : Binding) : Prop where
  stored : c.bindings.get? b.id = some b
  base : b.baseEpoch = c.currentEpoch b.subjectId
  candidate : b.status = .proposed ∨ b.status = .migrating
  old : ∀ k, truthy (c.currentBindingBySubject.get? b.subjectId) = some k → k ∈ c.bindings
  evidence : ∃ ids, Sufficient c "commit_migration" ids
    {("binding", b.id), ("epoch", toString b.epoch)}

/-- The checks of a commit that read the candidate and its evidence. -/
structure Committable (clock : Number) (c : ContinuityCore) (b : Binding)
    (evidenceIds : List String) (now : Option Number) : Prop where
  base : b.baseEpoch = c.currentEpoch b.subjectId
  candidate : b.status = .proposed ∨ b.status = .migrating
  evidence : ∃ good, c.requireEvidence clock "commit_migration" evidenceIds now
    (some {("binding", b.id), ("epoch", toString b.epoch)}) none = .ok good

/-- The checks the code makes before the transition. -/
def Effect.Allowed (c : ContinuityCore) : Effect → Prop
  | .createProgram id => c.Fresh id
  | .setProgramStatus p status =>
    c.programs.get? p.id = some p ∧ (p.status.terminal → status = p.status)
  | .createSession s => c.Fresh s.id ∧ s.programId ∈ c.programs
  | .createContinuation ct => ContinuationAllowed c ct
  | .setLifecycle ct lifecycle =>
    c.continuations.get? ct.id = some ct ∧ (ct.lifecycle.closed → lifecycle = ct.lifecycle)
  | .createRequest id continuationId => c.Fresh id ∧ continuationId ∈ c.continuations
  | .startAttempt id r => StartAllowed c id r
  | .setExecution a status =>
    c.attempts.get? a.id = some a ∧ (a.executionStatus.terminal → status = a.executionStatus)
      ∧ ¬ backward a.executionStatus.nonterminalRank status.nonterminalRank
  | .createPhase id attemptId _ => c.Fresh id ∧ attemptId ∈ c.attempts
  | .setPhaseStatus p status =>
    c.phases.get? p.id = some p ∧ (p.status.terminal → status = p.status)
      ∧ checkCompletion c p.attemptId status = .ok ()
      ∧ ¬ backward p.status.nonterminalRank status.nonterminalRank
  | .createOutput o =>
    c.Fresh o.id ∧ o.attemptId ∈ c.attempts ∧ ∀ e ∈ o.evidenceIds, e ∈ c.evidence
  | .finalize r a o => FinalizeAllowed c r a o
  | .createState x => StateAllowed c x
  | .setValidity x validity =>
    c.states.get? x.id = some x ∧ (x.validity = .invalid → validity = .invalid)
  | .addReplica r =>
    c.Fresh r.id ∧ r.stateId ∈ c.states ∧ r.bindingId = none ∧ r.bindingEpoch = none
  | .setReplicaStatus r _ => c.replicas.get? r.id = some r
  | .propose id _ _ => c.Fresh id
  | .activateInitial id subjectId _ => c.Fresh id ∧ subjectId ∉ c.currentBindingBySubject
  | .beginMigration b => c.bindings.get? b.id = some b ∧ b.status = .proposed
  | .commitMigration b => CommitAllowed c b
  | .recordEvent event => c.Fresh event.id
  | .recordEvidence e => c.Fresh e.id ∧ checkDerivation e = .ok () ∧
    (e.derivedFrom ≠ ∅ → checkSupports c e = .ok ())

/-- The transitions lead from one core to the other, each allowed where it is taken. -/
def Takes : ContinuityCore → List Effect → ContinuityCore → Prop
  | c, [], c' => c' = c
  | c, e :: es, c' => e.Allowed c ∧ Takes (e.apply c) es c'

/-- The continuation that continues a waiting one. -/
def Continuation.resumed (ct : Continuation) (childId : String) : Continuation where
  id := childId
  sessionId := ct.sessionId
  parentIds := [ct.id].toFinset
  lifecycle := .active

/-- The transitions a call of the operation may take. A repeated delivery takes none. -/
def PublicOperation.Performs : PublicOperation → List Effect → Prop
  | .createProgram id, es => es = [.createProgram id]
  | .setProgramStatus programId status, es =>
    ∃ p : Program, p.id = programId ∧ es = [.setProgramStatus p status]
  | .createSession id programId, es => es = [.createSession { id, programId }]
  | .createContinuation id sessionId parentIds lifecycle, es =>
    es = [.createContinuation { id, sessionId, parentIds := parentIds.toFinset, lifecycle }]
  | .setContinuationLifecycle continuationId lifecycle, es =>
    ∃ ct : Continuation, ct.id = continuationId ∧ es = [.setLifecycle ct lifecycle]
  | .resumeAfterWait waitingId childId, es =>
    ∃ ct : Continuation, ct.id = waitingId ∧ ct.lifecycle = .waiting ∧
      es = [.createContinuation (ct.resumed childId), .setLifecycle ct .terminal]
  | .createRequest id continuationId, es => es = [.createRequest id continuationId]
  | .startAttempt id requestId, es =>
    ∃ r : LogicalRequest, r.id = requestId ∧ es = [.startAttempt id r]
  | .setAttemptExecution attemptId status, es =>
    ∃ a : Attempt, a.id = attemptId ∧ es = [.setExecution a status]
  | .completeAttempt attemptId succeeded, es =>
    ∃ a : Attempt, a.id = attemptId ∧
      es = [.setExecution a (if succeeded then .succeeded else .failed)]
  | .createPhase id attemptId phaseType _, es => es = [.createPhase id attemptId phaseType]
  | .setPhaseStatus phaseId status, es =>
    ∃ p : Phase, p.id = phaseId ∧ es = [.setPhaseStatus p status]
  | .completePhase phaseId, es =>
    ∃ p : Phase, p.id = phaseId ∧ es = [.setPhaseStatus p .completed]
  | .createOutput id attemptId terminal evidenceIds, es =>
    es = [.createOutput { id, attemptId, terminal, evidenceIds := evidenceIds.toFinset }]
  | .finalizeRequest requestId outputId _, es =>
    es = [] ∨ ∃ (r : LogicalRequest) (a : Attempt) (o : Output),
      r.id = requestId ∧ o.id = outputId ∧ es = [.finalize r a o]
  | .createState id _ _ _ _ _, es => ∃ x : ReusableState, x.id = id ∧ es = [.createState x]
  | .setStateValidity stateId validity, es =>
    ∃ x : ReusableState, x.id = stateId ∧ es = [.setValidity x validity]
  | .addReplica id stateId locationId status, es =>
    es = [.addReplica { id, stateId, locationId, status }]
  | .setReplicaStatus replicaId status, es =>
    ∃ r : StateReplica, r.id = replicaId ∧ es = [.setReplicaStatus r status]
  | .proposeBinding id subjectId locationId, es => es = [.propose id subjectId locationId]
  | .activateInitialBinding id subjectId locationId, es =>
    es = [.activateInitial id subjectId locationId]
  | .beginMigration bindingId, es => ∃ b : Binding, b.id = bindingId ∧ es = [.beginMigration b]
  | .commitMigration bindingId _ _, es =>
    ∃ b : Binding, b.id = bindingId ∧ es = [.commitMigration b]
  | .recordEvent event, es => es = [] ∨ es = [.recordEvent event]
  | .recordEvidence e, es => es = [] ∨ es = [.recordEvidence e]
  | .isAncestor _ _, es | .stateCompatible _ _, es | .canConsumeState _ _ _ _ _, es
  | .requireEvidence _ _ _ _ _, es | .reconcile _ _ _ _, es => es = []

section Chains
variable {P : ContinuityCore → Prop} {A : ContinuityCore → Effect → Prop}

/-- Every transition of a chain meets a condition where it is taken. -/
def AlongEffects (A : ContinuityCore → Effect → Prop) : ContinuityCore → List Effect → Prop
  | _, [] => True
  | c, e :: es => A c e ∧ AlongEffects A (e.apply c) es

theorem AlongEffects.trivial (c : ContinuityCore) (es : List Effect) :
    AlongEffects (fun _ _ => True) c es := by
  induction es generalizing c with
  | nil => exact True.intro
  | cons e es ih => exact ⟨True.intro, ih _⟩

theorem AlongEffects.of_forall {B : Effect → Prop} (h : ∀ e ∈ es, B e) (c : ContinuityCore) :
    AlongEffects (fun _ e => B e) c es := by
  induction es generalizing c with
  | nil => exact True.intro
  | cons e es ih =>
    exact ⟨h e List.mem_cons_self, ih (fun e' he => h e' (List.mem_cons_of_mem _ he)) _⟩

/-- An invariant of every single transition is an invariant of a chain. -/
theorem Takes.invariant (h : Takes c es c') (hA : AlongEffects A c es) (hc : P c)
    (hstep : ∀ c e, P c → e.Allowed c → A c e → P (e.apply c)) : P c' := by
  induction es generalizing c with
  | nil =>
    cases h
    exact hc
  | cons e es ih => exact ih h.2 hA.2 (hstep c e hc h.1 hA.1)

end Chains

end Cadi
