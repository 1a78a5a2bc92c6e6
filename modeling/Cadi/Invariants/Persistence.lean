import Cadi.Refinement.Operations

namespace Cadi
open Library
set_option autoImplicit true

section Relations

structure Program.Stays (p p' : Program) : Prop where
  id : p'.id = p.id
  status : p.status.terminal → p'.status = p.status

structure Continuation.Stays (ct ct' : Continuation) : Prop where
  id : ct'.id = ct.id
  session : ct'.sessionId = ct.sessionId
  parents : ct'.parentIds = ct.parentIds
  lifecycle : ct.lifecycle.closed → ct'.lifecycle = ct.lifecycle

structure LogicalRequest.Stays (r r' : LogicalRequest) : Prop where
  id : r'.id = r.id
  continuation : r'.continuationId = r.continuationId
  closed : r.status.terminal → r' = r

/-- An authority that no operation takes away again. -/
def AttemptAuthority.final (s : AttemptAuthority) : Prop := s = .superseded ∨ s = .committed

structure Attempt.Stays (a a' : Attempt) : Prop where
  id : a'.id = a.id
  request : a'.requestId = a.requestId
  generation : a'.generation = a.generation
  authority : a.authorityStatus.final → a'.authorityStatus = a.authorityStatus
  execution : a.executionStatus.terminal → a'.executionStatus = a.executionStatus

structure Phase.Stays (p p' : Phase) : Prop where
  id : p'.id = p.id
  attempt : p'.attemptId = p.attemptId
  ordinal : p'.ordinal = p.ordinal
  phaseType : p'.phaseType = p.phaseType
  status : p.status.terminal → p'.status = p.status

/-- Only the lifecycle of a State and its validity ever change. -/
structure ReusableState.Stays (x x' : ReusableState) : Prop where
  provenance : x' = { x with lifecycle := x'.lifecycle, validity := x'.validity }
  validity : x.validity = .invalid → x'.validity = .invalid

structure StateReplica.Stays (r r' : StateReplica) : Prop where
  identity : r' = { r with status := r'.status }

structure Binding.Stays (b b' : Binding) : Prop where
  identity : b' = { b with status := b'.status }

theorem Program.Stays.refl (p : Program) : p.Stays p := ⟨rfl, fun _ => rfl⟩

theorem Program.Stays.trans {p q r : Program} (h : p.Stays q) (h' : q.Stays r) : p.Stays r where
  id := h'.id.trans h.id
  status ht := (h'.status (by rwa [h.status ht])).trans (h.status ht)

theorem Continuation.Stays.refl (ct : Continuation) : ct.Stays ct := ⟨rfl, rfl, rfl, fun _ => rfl⟩

theorem Continuation.Stays.trans {a b d : Continuation} (h : a.Stays b) (h' : b.Stays d) :
    a.Stays d where
  id := h'.id.trans h.id
  session := h'.session.trans h.session
  parents := h'.parents.trans h.parents
  lifecycle hc := (h'.lifecycle (by rwa [h.lifecycle hc])).trans (h.lifecycle hc)

theorem LogicalRequest.Stays.refl (r : LogicalRequest) : r.Stays r := ⟨rfl, rfl, fun _ => rfl⟩

theorem LogicalRequest.Stays.trans {r s t : LogicalRequest} (h : r.Stays s) (h' : s.Stays t) :
    r.Stays t where
  id := h'.id.trans h.id
  continuation := h'.continuation.trans h.continuation
  closed hc := (h'.closed (by rwa [h.closed hc])).trans (h.closed hc)

theorem Attempt.Stays.refl (a : Attempt) : a.Stays a :=
  ⟨rfl, rfl, rfl, fun _ => rfl, fun _ => rfl⟩

theorem Attempt.Stays.trans {a b d : Attempt} (h : a.Stays b) (h' : b.Stays d) : a.Stays d where
  id := h'.id.trans h.id
  request := h'.request.trans h.request
  generation := h'.generation.trans h.generation
  authority hf := (h'.authority (by rwa [h.authority hf])).trans (h.authority hf)
  execution ht := (h'.execution (by rwa [h.execution ht])).trans (h.execution ht)

theorem Phase.Stays.refl (p : Phase) : p.Stays p := ⟨rfl, rfl, rfl, rfl, fun _ => rfl⟩

theorem Phase.Stays.trans {p q r : Phase} (h : p.Stays q) (h' : q.Stays r) : p.Stays r where
  id := h'.id.trans h.id
  attempt := h'.attempt.trans h.attempt
  ordinal := h'.ordinal.trans h.ordinal
  phaseType := h'.phaseType.trans h.phaseType
  status ht := (h'.status (by rwa [h.status ht])).trans (h.status ht)

theorem ReusableState.Stays.refl (x : ReusableState) : x.Stays x := ⟨rfl, fun h => h⟩

theorem ReusableState.Stays.trans {x y z : ReusableState} (h : x.Stays y) (h' : y.Stays z) :
    x.Stays z where
  provenance := by
    have hz := h'.provenance
    rw [h.provenance] at hz
    exact hz
  validity hi := h'.validity (h.validity hi)

theorem StateReplica.Stays.refl (r : StateReplica) : r.Stays r := ⟨rfl⟩

theorem StateReplica.Stays.trans {r s t : StateReplica} (h : r.Stays s) (h' : s.Stays t) :
    r.Stays t where
  identity := by
    have ht := h'.identity
    rw [h.identity] at ht
    exact ht

theorem Binding.Stays.refl (b : Binding) : b.Stays b := ⟨rfl⟩

theorem Binding.Stays.trans {a b d : Binding} (h : a.Stays b) (h' : b.Stays d) : a.Stays d where
  identity := by
    have hd := h'.identity
    rw [h.identity] at hd
    exact hd

end Relations

/-- What no later operation takes back: the law between an earlier and a later core of a run. -/
structure Persists (c c' : ContinuityCore) : Prop where
  programs : c.programs.Grows Program.Stays c'.programs
  sessions : c.sessions.Grows Eq c'.sessions
  continuations : c.continuations.Grows Continuation.Stays c'.continuations
  requests : c.requests.Grows LogicalRequest.Stays c'.requests
  attempts : c.attempts.Grows Attempt.Stays c'.attempts
  phases : c.phases.Grows Phase.Stays c'.phases
  states : c.states.Grows ReusableState.Stays c'.states
  replicas : c.replicas.Grows StateReplica.Stays c'.replicas
  bindings : c.bindings.Grows Binding.Stays c'.bindings
  evidence : c.evidence.Grows Eq c'.evidence
  outputs : c.outputs.Grows Eq c'.outputs
  events : c.events.Grows Eq c'.events
  eventOrder : c.eventOrder <+: c'.eventOrder

theorem Persists.refl (c : ContinuityCore) : Persists c c where
  programs := .refl .refl _
  sessions := .refl .refl _
  continuations := .refl .refl _
  requests := .refl .refl _
  attempts := .refl .refl _
  phases := .refl .refl _
  states := .refl .refl _
  replicas := .refl .refl _
  bindings := .refl .refl _
  evidence := .refl .refl _
  outputs := .refl .refl _
  events := .refl .refl _
  eventOrder := List.prefix_refl _

theorem Persists.trans (h : Persists c c') (h' : Persists c' c'') : Persists c c'' where
  programs := h.programs.trans .trans h'.programs
  sessions := h.sessions.trans .trans h'.sessions
  continuations := h.continuations.trans .trans h'.continuations
  requests := h.requests.trans .trans h'.requests
  attempts := h.attempts.trans .trans h'.attempts
  phases := h.phases.trans .trans h'.phases
  states := h.states.trans .trans h'.states
  replicas := h.replicas.trans .trans h'.replicas
  bindings := h.bindings.trans .trans h'.bindings
  evidence := h.evidence.trans .trans h'.evidence
  outputs := h.outputs.trans .trans h'.outputs
  events := h.events.trans .trans h'.events
  eventOrder := h.eventOrder.trans h'.eventOrder

section Effects
variable {c : ContinuityCore}

theorem refreshed_persists (c : ContinuityCore) : Persists c c.refreshed where
  __ := Persists.refl c
  states := .mapValues (fun _ => ⟨rfl, fun h => h⟩) _

/-- Superseding the current Attempt takes no final authority away. -/
theorem superseded_grows {attempts : Dict String Attempt} (h : ∀ k, truthy pointer = some k →
      ∃ old, attempts.get? k = some old ∧ old.authorityStatus = .current) :
    attempts.Grows Attempt.Stays (superseded attempts pointer) := by
  intro k a ha
  rw [get?_superseded, ha, Option.map_some]
  refine ⟨_, rfl, ?_⟩
  split
  · next hp =>
    obtain ⟨old, hold, hcur⟩ := h k hp
    rw [ha, Option.some.injEq] at hold
    subst hold
    refine ⟨rfl, rfl, rfl, fun hf => ?_, fun _ => rfl⟩
    rw [AttemptAuthority.final, hcur] at hf
    rcases hf with hf | hf <;> cases hf
  · exact .refl a

theorem supersededBinding_grows (bindings : Dict String Binding) (pointer : Option String) :
    bindings.Grows Binding.Stays (supersededBinding bindings pointer) := by
  intro k b hb
  rw [get?_supersededBinding, hb, Option.map_some]
  refine ⟨_, rfl, ?_⟩
  split
  · exact ⟨rfl⟩
  · exact .refl b

/-- Every allowed transition keeps what was settled before it. -/
theorem Effect.persists {e : Effect} (ha : e.Allowed c) : Persists c (e.apply c) := by
  cases e with
  | createProgram id => exact {
      Persists.refl c with
      programs := .set_new .refl (ContinuityCore.Fresh.unused ha).programs _ }
  | setProgramStatus p status => exact {
      Persists.refl c with
      programs := .set_old .refl ha.1 ⟨rfl, ha.2⟩ }
  | createSession s => exact {
      Persists.refl c with
      sessions := .set_new .refl ha.1.unused.sessions _ }
  | createContinuation ct =>
    refine Persists.trans ?_ (refreshed_persists _)
    exact {
      Persists.refl c with
      continuations := .set_new .refl ha.fresh.unused.continuations _ }
  | setLifecycle ct lifecycle =>
    refine Persists.trans ?_ (refreshed_persists _)
    exact {
      Persists.refl c with
      continuations := .set_old .refl ha.1 ⟨rfl, rfl, rfl, ha.2⟩ }
  | createRequest id continuationId => exact {
      Persists.refl c with
      requests := .set_new .refl ha.1.unused.requests _ }
  | startAttempt id r => exact {
      Persists.refl c with
      attempts := (superseded_grows ha.current).trans .trans
        (.set_new .refl (fun hm => ha.fresh.unused.attempts (mem_superseded.mp hm)) _)
      requests := .set_old .refl ha.stored ⟨rfl, rfl, fun ht => (ha.opened ht).elim⟩ }
  | setExecution a status => exact {
      Persists.refl c with
      attempts := .set_old .refl ha.1 ⟨rfl, rfl, rfl, fun _ => rfl, ha.2.1⟩ }
  | createPhase id attemptId phaseType => exact {
      Persists.refl c with
      phases := .set_new .refl ha.1.unused.phases _ }
  | setPhaseStatus p status => exact {
      Persists.refl c with
      phases := .set_old .refl ha.1 ⟨rfl, rfl, rfl, rfl, ha.2.1⟩ }
  | createOutput o => exact {
      Persists.refl c with
      outputs := .set_new .refl ha.1.unused.outputs _ }
  | finalize r a o =>
    have hcurrent : ¬ a.authorityStatus.final := by
      rw [ha.authority]
      rintro (h | h) <;> cases h
    exact {
      Persists.refl c with
      attempts := .set_old .refl ha.attempt
        ⟨rfl, rfl, rfl, fun hf => (hcurrent hf).elim, fun _ => rfl⟩
      requests := .set_old .refl ha.request ⟨rfl, rfl, fun ht => (ha.opened ht).elim⟩ }
  | createState x =>
    refine Persists.trans ?_ (refreshed_persists _)
    exact {
      Persists.refl c with
      states := .set_new .refl ha.fresh.unused.states _ }
  | setValidity x validity => exact {
      Persists.refl c with
      states := .set_old .refl ha.1 ⟨rfl, ha.2⟩ }
  | addReplica r => exact {
      Persists.refl c with
      replicas := .set_new .refl ha.1.unused.replicas _ }
  | setReplicaStatus r status => exact {
      Persists.refl c with
      replicas := .set_old .refl ha ⟨rfl⟩ }
  | propose id subjectId locationId => exact {
      Persists.refl c with
      bindings := .set_new .refl (ContinuityCore.Fresh.unused ha).bindings _ }
  | activateInitial id subjectId locationId => exact {
      Persists.refl c with
      bindings := .set_new .refl ha.1.unused.bindings _ }
  | beginMigration b => exact {
      Persists.refl c with
      bindings := .set_old .refl ha.1 ⟨rfl⟩ }
  | commitMigration b => exact {
      Persists.refl c with
      bindings := (supersededBinding_grows _ _).trans .trans (by
        intro k v hv
        by_cases hk : b.id = k
        · subst hk
          rw [get?_supersededBinding, ha.stored, Option.map_some, Option.some.injEq] at hv
          refine ⟨_, Dict.get?_set_self _ _ _, ?_⟩
          subst hv
          split <;> exact ⟨rfl⟩
        · exact ⟨v, (Dict.get?_set_ne _ _ hk).trans hv, .refl v⟩) }
  | recordEvent event => exact {
      Persists.refl c with
      events := .set_new .refl (ContinuityCore.Fresh.unused ha).events _
      eventOrder := List.prefix_append _ _ }
  | recordEvidence e => exact {
      Persists.refl c with
      evidence := .set_new .refl ha.1.unused.evidence _ }

end Effects

end Cadi
