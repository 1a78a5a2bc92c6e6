import Cadi.Refinement.Effects

namespace Cadi
open Library
set_option autoImplicit true

section Checks
variable {c : ContinuityCore} {post : α → ContinuityCore → Prop}

theorem unique_bind {id : String} {f : Unit → CoreM α} (h : c.Fresh id → Atomic c (f ()) c post) :
    Atomic c (unique id >>= f) c post := by
  apply Atomic.bind (m := fun _ c' => c' = c ∧ c.Fresh id)
  · unfold unique
    apply Atomic.get_bind
    by_cases hid : id ∈ c.ids
    · simp only [raiseIf, hid, ↓reduceIte]
      rfl
    · simp only [raiseIf, hid, ↓reduceIte]
      exact Atomic.pure ⟨rfl, hid⟩
  · rintro u c' ⟨rfl, hid⟩
    exact h hid

/-- A successful lookup finds an entity stored under its own identifier. -/
theorem Keyed.item [Entity α] {d : Dict String α} (h : Keyed d) (hi : item d k = .ok v) :
    d.get? k = some v ∧ Entity.id v = k :=
  ⟨item_eq_ok.mp hi, h k v (item_eq_ok.mp hi)⟩

theorem mem_of_item {d : Dict String α} (hi : Cadi.item d k = .ok v) : k ∈ d :=
  Dict.mem_of_get? (item_eq_ok.mp hi)

end Checks

section Graph
variable {c : ContinuityCore}

theorem createProgram_takes (c : ContinuityCore) (id : String) :
    Atomic c (createProgram id) c fun p c' => p = { id } ∧ Takes c [.createProgram id] c' := by
  unfold createProgram
  refine unique_bind fun hfresh => ?_
  refine Atomic.modify_bind ?_
  exact Atomic.pure ⟨rfl, hfresh, rfl⟩

theorem setProgramStatus_takes (h : Grounded c) (programId : String) (status : ProgramStatus) :
    Atomic c (setProgramStatus programId status) c fun _ c' => ∃ p : Program, p.id = programId ∧
      Takes c [.setProgramStatus p status] c' := by
  unfold setProgramStatus
  refine Atomic.get_bind (Atomic.lift_bind fun p hp => Atomic.raiseIf_bind fun hstatus => ?_)
  obtain ⟨hget, hid⟩ := h.keys.programs.item hp
  change p.id = programId at hid
  subst hid
  refine Atomic.modify_bind (Atomic.pure ⟨p, rfl, ⟨hget, fun ht => ?_⟩, rfl⟩)
  exact Decidable.not_not.mp fun hne => hstatus ⟨ht, hne⟩

theorem createSession_takes (c : ContinuityCore) (id programId : String) :
    Atomic c (createSession id programId) c fun s c' =>
      s = { id, programId } ∧ Takes c [.createSession { id, programId }] c' := by
  unfold createSession
  refine unique_bind fun hfresh => Atomic.get_bind (Atomic.lift_bind fun p hp => ?_)
  exact Atomic.modify_bind (Atomic.pure ⟨rfl, ⟨hfresh, mem_of_item hp⟩, rfl⟩)

theorem checkParents_eq_ok :
    checkParents c sessionId (elements parents) = .ok () ↔ ∀ p ∈ parents,
      ∃ pc, c.continuations.get? p = some pc ∧ pc.sessionId = sessionId := by
  simp only [checkParents, Except.forM_eq_ok, mem_elements, Except.bind_eq_ok, item_eq_ok,
    raiseIf_eq_ok, Decidable.not_not]

theorem ParentsKnown.set (h : ParentsKnown continuations)
    (hp : ∀ p ∈ ct.parentIds, p ∈ continuations) : ParentsKnown (continuations.set k ct) := by
  exact Dict.forall_set (fun x w hw p hpw => Dict.mem_set.mpr (.inr (h x w hw p hpw)))
    fun p hpw => Dict.mem_set.mpr (.inr (hp p hpw))

theorem createContinuation_takes (h : Grounded c) (id sessionId : String) (parentIds : List String)
    (lifecycle : ContinuationLifecycle) :
    Atomic c (createContinuation id sessionId parentIds lifecycle) c fun ct c' =>
      ct = { id, sessionId, parentIds := parentIds.toFinset, lifecycle } ∧
        Takes c [.createContinuation ct] c' := by
  unfold createContinuation
  refine unique_bind fun hfresh => Atomic.get_bind (Atomic.lift_bind fun s hs => ?_)
  refine Atomic.lift_bind fun _ hparents => Atomic.modify_bind (Atomic.get_bind ?_)
  rw [checkParents_eq_ok] at hparents
  generalize hct : Continuation.mk id sessionId parentIds.toFinset lifecycle = ct
  obtain ⟨cyclic, hcycle, _⟩ :=
    hasCycle_spec { c with continuations := c.continuations.set id ct } sessionId
  refine Atomic.lift_ok_bind hcycle ?_
  cases cyclic with
  | true =>
    refine Atomic.modify_bind (Atomic.throw ?_)
    simp only [Dict.erase_set_new hfresh.unused.continuations]
  | false =>
    subst hct
    have hknown : ParentsKnown (c.continuations.set id ⟨id, sessionId, _, lifecycle⟩) :=
      h.scopes.parentsKnown.set fun p hp => by
        obtain ⟨pc, hpc, _⟩ := hparents p hp
        exact Dict.mem_of_get? hpc
    refine Atomic.eq_ok_bind (refreshStateLifecycles_eq hknown (h.keys.continuations.set rfl)) ?_
    exact Atomic.pure ⟨rfl, ⟨hfresh, mem_of_item hs, hparents⟩, rfl⟩

theorem setContinuationLifecycle_takes (h : Grounded c) (continuationId : String)
    (lifecycle : ContinuationLifecycle) :
    Atomic c (setContinuationLifecycle continuationId lifecycle) c fun _ c' =>
      ∃ ct : Continuation, ct.id = continuationId ∧ Takes c [.setLifecycle ct lifecycle] c' := by
  unfold setContinuationLifecycle
  refine Atomic.get_bind (Atomic.lift_bind fun ct hct => Atomic.raiseIf_bind fun hclosed => ?_)
  obtain ⟨hget, hid⟩ := h.keys.continuations.item hct
  change ct.id = continuationId at hid
  subst hid
  refine Atomic.modify_bind (Atomic.eq_ok_bind (refreshStateLifecycles_eq ?_ ?_) ?_)
  · exact h.scopes.parentsKnown.set (h.scopes.parentsKnown _ ct hget)
  · exact h.keys.continuations.set rfl
  · refine Atomic.pure ⟨ct, rfl, ⟨hget, fun hc => ?_⟩, rfl⟩
    exact Decidable.not_not.mp fun hne => hclosed ⟨hc, hne⟩

theorem resumeAfterWait_takes (h : Grounded c) (waitingId childId : String) :
    Atomic c (resumeAfterWait waitingId childId) c fun _ c' => ∃ ct : Continuation,
      ct.id = waitingId ∧ ct.lifecycle = .waiting ∧
        Takes c [.createContinuation (ct.resumed childId), .setLifecycle ct .terminal] c' := by
  unfold resumeAfterWait
  refine Atomic.get_bind (Atomic.lift_bind fun ct hct => Atomic.raiseIf_bind fun hwaiting => ?_)
  obtain ⟨hget, hid⟩ := h.keys.continuations.item hct
  change ct.id = waitingId at hid
  subst hid
  refine Atomic.bind (createContinuation_takes h childId ct.sessionId [ct.id] .active) ?_
  rintro child t ⟨hchild, hallowed, rfl⟩
  have hknown : ParentsKnown (c.continuations.set child.id child) :=
    h.scopes.parentsKnown.set fun p hp => by
      obtain ⟨pc, hpc, _⟩ := hallowed.parent p hp
      exact Dict.mem_of_get? hpc
  have hstored : (c.continuations.set child.id child).get? ct.id = some ct := by
    rw [Dict.get?_set_ne _ _ fun he : child.id = ct.id => ?_, hget]
    have hold := hallowed.fresh.unused.continuations
    rw [he] at hold
    exact hold (Dict.mem_of_get? hget)
  have hkeyed := h.keys.continuations.set (v := child) rfl
  refine Atomic.modify_bind (Atomic.eq_ok_bind (refreshStateLifecycles_eq
    (hknown.set (hknown _ ct hstored)) (hkeyed.set rfl)) ?_)
  subst hchild
  refine Atomic.pure ⟨ct, rfl, Decidable.not_not.mp hwaiting, hallowed, ⟨hstored, fun hc => ?_⟩, rfl⟩
  rw [Decidable.not_not.mp hwaiting] at hc
  exact absurd hc (by decide)

end Graph

section Requests
variable {c : ContinuityCore}

theorem createRequest_takes (c : ContinuityCore) (id continuationId : String) :
    Atomic c (createRequest id continuationId) c fun r c' =>
      r = { id, continuationId, status := .ready } ∧
        Takes c [.createRequest id continuationId] c' := by
  unfold createRequest
  refine unique_bind fun hfresh => Atomic.get_bind (Atomic.lift_bind fun ct hct => ?_)
  exact Atomic.modify_bind (Atomic.pure ⟨rfl, ⟨hfresh, mem_of_item hct⟩, rfl⟩)

/-- Superseding touches the Attempts alone and raises before it writes. -/
theorem supersedeCurrent_bind (h : Keyed c.attempts) {pointer : Option String}
    {f : Unit → CoreM α} {post : α → ContinuityCore → Prop}
    (hf : (∀ k, truthy pointer = some k →
        ∃ old, c.attempts.get? k = some old ∧ old.authorityStatus = .current) →
      Atomic c (f ()) { c with attempts := superseded c.attempts pointer } post) :
    Atomic c (supersedeCurrent pointer >>= f) c post := by
  unfold supersedeCurrent
  unfold superseded at hf
  cases hp : truthy pointer with
  | none =>
    rw [hp] at hf
    exact hf fun k hk => by cases hk
  | some k =>
    rw [hp] at hf
    apply Atomic.bind (m := fun _ t => ∃ old, c.attempts.get? k = some old ∧
      old.authorityStatus = .current ∧
      t = { c with attempts := c.attempts.set k { old with authorityStatus := .superseded } })
    · refine Atomic.get_bind (Atomic.lift_bind fun old hold => Atomic.raiseIf_bind fun hcur => ?_)
      obtain ⟨hget, hid⟩ := h.item hold
      change old.id = k at hid
      refine ⟨old, hget, Decidable.not_not.mp hcur, ?_⟩
      rw [hid]
    · rintro u t ⟨old, hget, hcur, rfl⟩
      simp only [hget] at hf
      exact hf fun k' hk' => ⟨old, (Option.some.inj hk') ▸ hget, hcur⟩

theorem startAttempt_takes (h : Grounded c) (id requestId : String) :
    Atomic c (startAttempt id requestId) c fun a c' => ∃ r : LogicalRequest, r.id = requestId ∧
      a = c.nextAttempt id requestId ∧ Takes c [.startAttempt id r] c' := by
  unfold startAttempt
  refine unique_bind fun hfresh => Atomic.get_bind (Atomic.lift_bind fun r hr => ?_)
  refine Atomic.raiseIf_bind fun hopened => supersedeCurrent_bind h.keys.attempts fun hcur => ?_
  obtain ⟨hget, hid⟩ := h.keys.requests.item hr
  change r.id = requestId at hid
  subst hid
  refine Atomic.modify_bind (Atomic.modify_bind (Atomic.pure ⟨r, rfl, rfl, ?_, rfl⟩))
  exact ⟨hfresh, hget, hopened, hcur⟩

theorem setAttemptExecution_takes (h : Grounded c) (attemptId : String)
    (status : ExecutionStatus) :
    Atomic c (setAttemptExecution attemptId status) c fun _ c' => ∃ a : Attempt,
      a.id = attemptId ∧ Takes c [.setExecution a status] c' := by
  unfold setAttemptExecution
  refine Atomic.get_bind (Atomic.lift_bind fun a ha => Atomic.raiseIf_bind fun hterminal => ?_)
  refine Atomic.raiseIf_bind fun hbackward => ?_
  obtain ⟨hget, hid⟩ := h.keys.attempts.item ha
  change a.id = attemptId at hid
  subst hid
  refine Atomic.modify_bind (Atomic.pure ⟨a, rfl, ⟨hget, fun ht => ?_, hbackward⟩, rfl⟩)
  exact Decidable.not_not.mp fun hne => hterminal ⟨ht, hne⟩

end Requests

section Phases
variable {c : ContinuityCore}

theorem createPhase_takes (c : ContinuityCore) (id attemptId : String) (phaseType : PhaseType)
    (ordinal : Option Int) :
    Atomic c (createPhase id attemptId phaseType ordinal) c fun p c' =>
      p = c.nextPhase id attemptId phaseType ∧
        Takes c [.createPhase id attemptId phaseType] c' := by
  unfold createPhase
  refine unique_bind fun hfresh => Atomic.get_bind (Atomic.lift_bind fun a ha => ?_)
  refine Atomic.raiseIf_bind fun hordinal => ?_
  rw [Decidable.not_not.mp hordinal]
  exact Atomic.modify_bind (Atomic.pure ⟨rfl, ⟨hfresh, mem_of_item ha⟩, rfl⟩)

theorem setPhaseStatus_takes (h : Grounded c) (phaseId : String) (status : PhaseStatus) :
    Atomic c (setPhaseStatus phaseId status) c fun _ c' => ∃ p : Phase, p.id = phaseId ∧
      Takes c [.setPhaseStatus p status] c' := by
  unfold setPhaseStatus
  refine Atomic.get_bind (Atomic.lift_bind fun p hp => Atomic.raiseIf_bind fun hterminal => ?_)
  refine Atomic.lift_bind fun _ hcompletion => Atomic.raiseIf_bind fun hbackward => ?_
  obtain ⟨hget, hid⟩ := h.keys.phases.item hp
  change p.id = phaseId at hid
  subst hid
  refine Atomic.modify_bind (Atomic.pure ⟨p, rfl, ⟨hget, fun ht => ?_, hcompletion, hbackward⟩, rfl⟩)
  exact Decidable.not_not.mp fun hne => hterminal ⟨ht, hne⟩

end Phases

section Outputs
variable {c : ContinuityCore}

theorem createOutput_takes (c : ContinuityCore) (id attemptId : String) (terminal : Bool)
    (evidenceIds : List String) :
    Atomic c (createOutput id attemptId terminal evidenceIds) c fun o c' =>
      o = { id, attemptId, terminal, evidenceIds := evidenceIds.toFinset } ∧
        Takes c [.createOutput o] c' := by
  unfold createOutput
  refine unique_bind fun hfresh => Atomic.get_bind (Atomic.lift_bind fun a ha => ?_)
  refine Atomic.raiseIf_bind fun hmissing => Atomic.modify_bind (Atomic.pure ⟨rfl, ?_, rfl⟩)
  refine ⟨hfresh, mem_of_item ha, fun e he => ?_⟩
  have hnone := List.filter_eq_nil_iff.mp (Decidable.not_not.mp hmissing) e (mem_elements.mpr he)
  exact Decidable.not_not.mp fun hn => hnone (decide_eq_true hn)

theorem finalizeRequest_takes (h : Grounded c) (clock : Number) (requestId outputId : String)
    (now : Option Number) :
    Atomic c (finalizeRequest clock requestId outputId now) c fun _ c' =>
      (c' = c ∧ ∃ r, c.requests.get? requestId = some r ∧ r.status = .completed) ∨
        ∃ (r : LogicalRequest) (a : Attempt) (o : Output), r.id = requestId ∧
          o.id = outputId ∧ Takes c [.finalize r a o] c' := by
  unfold finalizeRequest
  refine Atomic.get_bind (Atomic.lift_bind fun r hr => Atomic.lift_bind fun o ho => ?_)
  refine Atomic.lift_bind fun a ha => ?_
  obtain ⟨hr, hrid⟩ := h.keys.requests.item hr
  obtain ⟨ho, hoid⟩ := h.keys.outputs.item ho
  obtain ⟨ha, haid⟩ := h.keys.attempts.item ha
  change r.id = requestId at hrid
  change o.id = outputId at hoid
  change a.id = o.attemptId at haid
  subst hrid hoid
  split
  · next hcompleted =>
    split
    · exact Atomic.pure (.inl ⟨rfl, r, hr, hcompleted⟩)
    · exact Atomic.throw rfl
  · next hopen =>
    refine Atomic.raiseIf_bind fun hclosed => Atomic.raiseIf_bind fun hcurrent => ?_
    refine Atomic.raiseIf_bind fun hsucceeded => Atomic.lift_bind fun good hgood => ?_
    refine Atomic.modify_bind (Atomic.modify_bind (Atomic.pure (.inr ⟨r, a, o, rfl, rfl, ?_, rfl⟩)))
    simp only [not_or, Decidable.not_not] at hclosed hcurrent hsucceeded
    refine ⟨hr, ho, haid ▸ ha, haid.symm, ?_, ?_, hcurrent.2, hsucceeded.1, ?_, ⟨_, _, _, hgood⟩⟩
    · simp only [RequestStatus.terminal, List.mem_cons, hopen, hclosed.1, hclosed.2,
        List.not_mem_nil, or_self, not_false_eq_true]
    · rw [haid, ← hcurrent.1]
    · exact Bool.eq_true_of_not_eq_false hsucceeded.2

end Outputs

section States
variable {c : ContinuityCore}

theorem checkDependencies_known (h : checkDependencies c origin (elements sids) = .ok ()) :
    ∀ d ∈ sids, d ∈ c.states := by
  intro d hd
  have hcheck := Except.forM_eq_ok.mp h d (mem_elements.mpr hd)
  obtain ⟨x, hx, _⟩ := Except.bind_eq_ok.mp hcheck
  exact mem_of_item hx

theorem DependenciesKnown.set (h : DependenciesKnown states)
    (hd : ∀ d ∈ x.derivedFrom, d ∈ states) : DependenciesKnown (states.set k x) := by
  exact Dict.forall_set (fun x w hw d hdw => Dict.mem_set.mpr (.inr (h x w hw d hdw)))
    fun d hdw => Dict.mem_set.mpr (.inr (hd d hdw))

theorem createState_takes (h : Grounded c) (id originType originId semanticType
    representation : String) (derivedFrom : List String) :
    Atomic c (createState id originType originId semanticType representation derivedFrom) c
      fun _ c' => ∃ x : ReusableState, x.id = id ∧ x.originType = originType ∧
        x.originId = originId ∧ x.derivedFrom = derivedFrom.toFinset ∧
        Takes c [.createState x] c' := by
  unfold createState
  refine unique_bind fun hfresh => Atomic.get_bind (Atomic.lift_bind fun origin horigin => ?_)
  refine Atomic.lift_bind fun _ hdependencies => Atomic.modify_bind (Atomic.get_bind ?_)
  generalize hx : ReusableState.mk id originType originId origin.continuationId origin.requestId
    origin.attemptId semanticType representation .terminal .valid derivedFrom.toFinset
    origin.phaseId = x
  have hknown : DependenciesKnown (c.states.set id x) := h.dependencies.set fun d hd => by
    subst hx
    exact checkDependencies_known hdependencies d hd
  obtain ⟨cyclic, hcycle, _⟩ := stateCycle_spec (c := { c with states := c.states.set id x }) hknown
  refine Atomic.lift_ok_bind hcycle ?_
  cases cyclic with
  | true =>
    refine Atomic.modify_bind (Atomic.throw ?_)
    simp only [Dict.erase_set_new hfresh.unused.states]
  | false =>
    refine Atomic.eq_ok_bind (refreshStateLifecycles_eq h.scopes.parentsKnown h.keys.continuations)
      (Atomic.get_bind ?_)
    have hstored : item (ContinuityCore.refreshed { c with states := c.states.set id x }).states id =
        .ok { x with lifecycle := _ } := item_of_get? (by
      rw [ContinuityCore.refreshed, Dict.get?_mapValues, Dict.get?_set_self]
      rfl)
    refine Atomic.lift_ok hstored ⟨x, ?_, ?_, ?_, ?_, ?_, ?_⟩
    · rw [← hx]
    · rw [← hx]
    · rw [← hx]
    · rw [← hx]
    · subst hx
      exact ⟨hfresh, rfl, origin, horigin, ⟨rfl, rfl, rfl, rfl⟩, hdependencies⟩
    · subst hx
      rfl

theorem setStateValidity_takes (h : Grounded c) (stateId : String) (validity : StateValidity) :
    Atomic c (setStateValidity stateId validity) c fun _ c' => ∃ x : ReusableState,
      x.id = stateId ∧ Takes c [.setValidity x validity] c' := by
  unfold setStateValidity
  refine Atomic.get_bind (Atomic.lift_bind fun x hx => Atomic.raiseIf_bind fun hinvalid => ?_)
  obtain ⟨hget, hid⟩ := h.keys.states.item hx
  change x.id = stateId at hid
  subst hid
  refine Atomic.modify_bind (Atomic.pure ⟨x, rfl, ⟨hget, fun hi => ?_⟩, rfl⟩)
  exact Decidable.not_not.mp fun hne => hinvalid ⟨hi, hne⟩

theorem addReplica_takes (c : ContinuityCore) (id stateId locationId : String)
    (status : ReplicaStatus) :
    Atomic c (addReplica id stateId locationId status) c fun r c' =>
      r = { id, stateId, locationId, status } ∧
        Takes c [.addReplica { id, stateId, locationId, status }] c' := by
  unfold addReplica
  refine unique_bind fun hfresh => Atomic.get_bind (Atomic.lift_bind fun x hx => ?_)
  exact Atomic.modify_bind (Atomic.pure ⟨rfl, ⟨hfresh, mem_of_item hx, rfl, rfl⟩, rfl⟩)

theorem setReplicaStatus_takes (h : Grounded c) (replicaId : String) (status : ReplicaStatus) :
    Atomic c (setReplicaStatus replicaId status) c fun _ c' => ∃ r : StateReplica,
      r.id = replicaId ∧ Takes c [.setReplicaStatus r status] c' := by
  unfold setReplicaStatus
  refine Atomic.get_bind (Atomic.lift_bind fun r hr => ?_)
  obtain ⟨hget, hid⟩ := h.keys.replicas.item hr
  change r.id = replicaId at hid
  subst hid
  exact Atomic.modify_bind (Atomic.pure ⟨r, rfl, hget, rfl⟩)

end States

section Bindings
variable {c : ContinuityCore}

theorem proposeBinding_takes (c : ContinuityCore) (id subjectId locationId : String) :
    Atomic c (proposeBinding id subjectId locationId) c fun b c' =>
      b = c.proposal id subjectId locationId ∧
        Takes c [.propose id subjectId locationId] c' := by
  unfold proposeBinding
  refine unique_bind fun hfresh => Atomic.get_bind ?_
  exact Atomic.modify_bind (Atomic.modify_bind (Atomic.pure ⟨rfl, hfresh, rfl⟩))

theorem activateInitialBinding_takes (c : ContinuityCore) (id subjectId locationId : String) :
    Atomic c (activateInitialBinding id subjectId locationId) c fun _ c' =>
      Takes c [.activateInitial id subjectId locationId] c' := by
  unfold activateInitialBinding
  refine Atomic.get_bind (Atomic.raiseIf_bind fun hnone => ?_)
  refine Atomic.bind (proposeBinding_takes c id subjectId locationId) ?_
  rintro b t ⟨rfl, hfresh, rfl⟩
  refine Atomic.modify_bind (Atomic.modify_bind (Atomic.modify_bind (Atomic.pure ?_)))
  refine ⟨⟨hfresh, hnone⟩, ?_⟩
  simp only [Effect.apply, Dict.set_set]
  rfl

theorem beginMigration_takes (h : Grounded c) (bindingId : String) :
    Atomic c (beginMigration bindingId) c fun _ c' => ∃ b : Binding, b.id = bindingId ∧
      Takes c [.beginMigration b] c' := by
  unfold beginMigration
  refine Atomic.get_bind (Atomic.lift_bind fun b hb => Atomic.raiseIf_bind fun hstatus => ?_)
  obtain ⟨hget, hid⟩ := h.keys.bindings.item hb
  change b.id = bindingId at hid
  subst hid
  exact Atomic.modify_bind (Atomic.pure ⟨b, rfl, ⟨hget, Decidable.not_not.mp hstatus⟩, rfl⟩)

theorem supersedeBinding_bind {subjectId : String} {f : Unit → CoreM α}
    {post : α → ContinuityCore → Prop}
    (hf : (∀ k, truthy (c.currentBindingBySubject.get? subjectId) = some k → k ∈ c.bindings) →
      Atomic c (f ()) { c with
        bindings := supersededBinding c.bindings (c.currentBindingBySubject.get? subjectId) } post) :
    Atomic c (supersedeBinding subjectId >>= f) c post := by
  unfold supersedeBinding
  unfold supersededBinding at hf
  apply Atomic.bind (m := fun _ t =>
    (∀ k, truthy (c.currentBindingBySubject.get? subjectId) = some k → k ∈ c.bindings) ∧
    t = { c with
      bindings := supersededBinding c.bindings (c.currentBindingBySubject.get? subjectId) })
  · refine Atomic.get_bind ?_
    unfold supersededBinding
    cases hp : truthy (c.currentBindingBySubject.get? subjectId) with
    | none =>
      refine Atomic.pure ⟨fun k hk => ?_, rfl⟩
      cases hk
    | some k =>
      refine Atomic.lift_bind fun old hold => ⟨fun k' hk' => ?_, ?_⟩
      · exact (Option.some.inj hk') ▸ mem_of_item hold
      · simp only [item_eq_ok.mp hold]
  · rintro u t ⟨hknown, rfl⟩
    exact hf hknown

theorem commitMigration_takes (h : Grounded c) (clock : Number) (bindingId : String)
    (evidenceIds : List String) (now : Option Number) :
    Atomic c (commitMigration clock bindingId evidenceIds now) c fun _ c' => ∃ b : Binding,
      b.id = bindingId ∧ Committable clock c b evidenceIds now ∧
        Takes c [.commitMigration b] c' := by
  unfold commitMigration
  refine Atomic.get_bind (Atomic.lift_bind fun b hb => Atomic.raiseIf_bind fun hbase => ?_)
  refine Atomic.raiseIf_bind fun hstatus => Atomic.lift_bind fun good hgood => ?_
  refine supersedeBinding_bind fun hold => ?_
  obtain ⟨hget, hid⟩ := h.keys.bindings.item hb
  change b.id = bindingId at hid
  subst hid
  refine Atomic.modify_bind (Atomic.modify_bind (Atomic.modify_bind (Atomic.pure ?_)))
  have hcandidate : b.status = .proposed ∨ b.status = .migrating := by
    by_contra hn
    exact hstatus (not_or.mp hn)
  have hcommittable := Committable.mk (Decidable.not_not.mp hbase) hcandidate ⟨good, hgood⟩
  exact ⟨b, rfl, hcommittable, ⟨hget, hcommittable.base, hcandidate, hold, ⟨_, _, _, _, hgood⟩⟩, rfl⟩

end Bindings

section Records
variable {c : ContinuityCore}

theorem recordEvent_takes (c : ContinuityCore) (event : SemanticEvent) :
    Atomic c (recordEvent event) c fun _ c' =>
      (c' = c ∧ c.events.get? event.id = some event) ∨ Takes c [.recordEvent event] c' := by
  unfold recordEvent
  refine Atomic.get_bind ?_
  cases hget : c.events.get? event.id with
  | some existing =>
    refine Atomic.raiseIf_bind fun hsame => Atomic.pure (.inl ⟨rfl, ?_⟩)
    rw [Decidable.not_not.mp hsame]
  | none =>
    refine unique_bind fun hfresh => Atomic.modify_bind (Atomic.modify_bind (Atomic.pure ?_))
    exact .inr ⟨hfresh, rfl⟩

theorem recordEvidence_takes (c : ContinuityCore) (e : Evidence) :
    Atomic c (recordEvidence e) c fun _ c' =>
      (c' = c ∧ e.id ∈ c.evidence) ∨ Takes c [.recordEvidence e] c' := by
  unfold recordEvidence
  refine Atomic.get_bind ?_
  cases hget : c.evidence.get? e.id with
  | some existing =>
    exact Atomic.raiseIf_bind fun _ => Atomic.pure (.inl ⟨rfl, Dict.mem_of_get? hget⟩)
  | none =>
    refine Atomic.lift_bind fun _ hderivation => ?_
    by_cases hderived : e.derivedFrom = ∅
    · simp only [hderived, ne_eq, not_true_eq_false, ↓reduceIte]
      refine unique_bind fun hfresh => Atomic.modify_bind (Atomic.pure (.inr ⟨⟨hfresh, ?_⟩, rfl⟩))
      exact ⟨hderivation, fun hne => (hne hderived).elim⟩
    · simp only [hderived, ne_eq, not_false_eq_true, ↓reduceIte]
      refine Atomic.lift_bind fun _ hsupports => unique_bind fun hfresh => ?_
      exact Atomic.modify_bind (Atomic.pure (.inr ⟨⟨hfresh, hderivation, fun _ => hsupports⟩, rfl⟩))

end Records

/-- A query leaves the stores alone. -/
theorem query_unchanged (c : ContinuityCore) (f : ContinuityCore → Except PyError α) :
    Atomic c (query f) c fun _ c' => c' = c := by
  unfold query
  exact Atomic.get_bind (Atomic.lift_bind fun _ _ => Atomic.pure rfl)

section Call
variable {c : ContinuityCore}

theorem performs_of {x : CoreM α} {post : α → ContinuityCore → Prop}
    {operation : PublicOperation} (h : Atomic c x c post)
    (hp : ∀ a c', post a c' → ∃ es, operation.Performs es ∧ Takes c es c') :
    Atomic c (discard x) c fun _ c' => ∃ es, operation.Performs es ∧ Takes c es c' :=
  (h.mono hp).discard.mono fun _ _ ⟨_, h⟩ => h

/-- Every call either takes the transitions it stands for, each of them allowed, or raises and
leaves all sixteen stores alone. -/
theorem call_takes (semanticValidity : SemanticValidity) (h : Grounded c) (call : Call) :
    Atomic c (call.operation.call semanticValidity call.clock) c fun _ c' =>
      ∃ es, call.operation.Performs es ∧ Takes c es c' := by
  obtain ⟨clock, operation⟩ := call
  cases operation with
  | createProgram id =>
    exact performs_of (createProgram_takes c id) fun _ _ ht => ⟨_, rfl, ht.2⟩
  | setProgramStatus programId status =>
    exact performs_of (setProgramStatus_takes h programId status) fun _ _ ⟨p, hp, ht⟩ =>
      ⟨_, ⟨p, hp, rfl⟩, ht⟩
  | createSession id programId =>
    exact performs_of (createSession_takes c id programId) fun _ _ ht => ⟨_, rfl, ht.2⟩
  | createContinuation id sessionId parentIds lifecycle =>
    refine performs_of (createContinuation_takes h id sessionId parentIds lifecycle) ?_
    rintro _ _ ⟨rfl, ht⟩
    exact ⟨_, rfl, ht⟩
  | setContinuationLifecycle continuationId lifecycle =>
    exact performs_of (setContinuationLifecycle_takes h continuationId lifecycle)
      fun _ _ ⟨ct, hct, ht⟩ => ⟨_, ⟨ct, hct, rfl⟩, ht⟩
  | resumeAfterWait waitingId childId =>
    exact performs_of (resumeAfterWait_takes h waitingId childId)
      fun _ _ ⟨ct, hct, hw, ht⟩ => ⟨_, ⟨ct, hct, hw, rfl⟩, ht⟩
  | createRequest id continuationId =>
    exact performs_of (createRequest_takes c id continuationId) fun _ _ ht => ⟨_, rfl, ht.2⟩
  | startAttempt id requestId =>
    exact performs_of (startAttempt_takes h id requestId) fun _ _ ⟨r, hr, _, ht⟩ =>
      ⟨_, ⟨r, hr, rfl⟩, ht⟩
  | setAttemptExecution attemptId status =>
    exact performs_of (setAttemptExecution_takes h attemptId status) fun _ _ ⟨a, ha, ht⟩ =>
      ⟨_, ⟨a, ha, rfl⟩, ht⟩
  | completeAttempt attemptId succeeded =>
    exact performs_of (setAttemptExecution_takes h attemptId _) fun _ _ ⟨a, ha, ht⟩ =>
      ⟨_, ⟨a, ha, rfl⟩, ht⟩
  | createPhase id attemptId phaseType ordinal =>
    exact performs_of (createPhase_takes c id attemptId phaseType ordinal) fun _ _ ht =>
      ⟨_, rfl, ht.2⟩
  | setPhaseStatus phaseId status =>
    exact performs_of (setPhaseStatus_takes h phaseId status) fun _ _ ⟨p, hp, ht⟩ =>
      ⟨_, ⟨p, hp, rfl⟩, ht⟩
  | completePhase phaseId =>
    exact performs_of (setPhaseStatus_takes h phaseId .completed) fun _ _ ⟨p, hp, ht⟩ =>
      ⟨_, ⟨p, hp, rfl⟩, ht⟩
  | createOutput id attemptId terminal evidenceIds =>
    refine performs_of (createOutput_takes c id attemptId terminal evidenceIds) ?_
    rintro _ _ ⟨rfl, ht⟩
    exact ⟨_, rfl, ht⟩
  | finalizeRequest requestId outputId now =>
    refine performs_of (finalizeRequest_takes h clock requestId outputId now) ?_
    rintro _ _ (⟨rfl, _⟩ | ⟨r, a, o, hr, ho, ht⟩)
    · exact ⟨[], .inl rfl, rfl⟩
    · exact ⟨_, .inr ⟨r, a, o, hr, ho, rfl⟩, ht⟩
  | createState id originType originId semanticType representation derivedFrom =>
    exact performs_of (createState_takes h id originType originId semanticType representation
      derivedFrom) fun _ _ ⟨x, hx, _, _, _, ht⟩ => ⟨_, ⟨x, hx, rfl⟩, ht⟩
  | setStateValidity stateId validity =>
    exact performs_of (setStateValidity_takes h stateId validity) fun _ _ ⟨x, hx, ht⟩ =>
      ⟨_, ⟨x, hx, rfl⟩, ht⟩
  | addReplica id stateId locationId status =>
    exact performs_of (addReplica_takes c id stateId locationId status) fun _ _ ht => ⟨_, rfl, ht.2⟩
  | setReplicaStatus replicaId status =>
    exact performs_of (setReplicaStatus_takes h replicaId status) fun _ _ ⟨r, hr, ht⟩ =>
      ⟨_, ⟨r, hr, rfl⟩, ht⟩
  | proposeBinding id subjectId locationId =>
    exact performs_of (proposeBinding_takes c id subjectId locationId) fun _ _ ht => ⟨_, rfl, ht.2⟩
  | activateInitialBinding id subjectId locationId =>
    exact performs_of (activateInitialBinding_takes c id subjectId locationId) fun _ _ ht =>
      ⟨_, rfl, ht⟩
  | beginMigration bindingId =>
    exact performs_of (beginMigration_takes h bindingId) fun _ _ ⟨b, hb, ht⟩ => ⟨_, ⟨b, hb, rfl⟩, ht⟩
  | commitMigration bindingId evidenceIds now =>
    exact performs_of (commitMigration_takes h clock bindingId evidenceIds now)
      fun _ _ ⟨b, hb, _, ht⟩ => ⟨_, ⟨b, hb, rfl⟩, ht⟩
  | recordEvent event =>
    refine performs_of (recordEvent_takes c event) ?_
    rintro _ _ (⟨rfl, _⟩ | ht)
    · exact ⟨[], .inl rfl, rfl⟩
    · exact ⟨_, .inr rfl, ht⟩
  | recordEvidence e =>
    refine performs_of (recordEvidence_takes c e) ?_
    rintro _ _ (⟨rfl, _⟩ | ht)
    · exact ⟨[], .inl rfl, rfl⟩
    · exact ⟨_, .inr rfl, ht⟩
  | isAncestor => exact (query_unchanged c _).mono fun _ _ ht => ⟨[], rfl, ht⟩
  | stateCompatible => exact (query_unchanged c _).mono fun _ _ ht => ⟨[], rfl, ht⟩
  | canConsumeState => exact (query_unchanged c _).mono fun _ _ ht => ⟨[], rfl, ht⟩
  | requireEvidence => exact (query_unchanged c _).mono fun _ _ ht => ⟨[], rfl, ht⟩
  | reconcile => exact (query_unchanged c _).mono fun _ _ ht => ⟨[], rfl, ht⟩

theorem step_accepted (h : Grounded c) (ha : accepted semanticValidity c call = true) :
    ∃ es, call.operation.Performs es ∧ Takes c es (step semanticValidity c call) := by
  have htakes := call_takes semanticValidity h call
  unfold accepted at ha
  unfold step
  cases hcall : call.operation.call semanticValidity call.clock c with
  | ok u c' => exact htakes.of_ok hcall
  | error e c' =>
    rw [hcall] at ha
    cases ha

theorem step_rejected (h : Grounded c) (ha : accepted semanticValidity c call = false) :
    step semanticValidity c call = c := by
  have htakes := call_takes semanticValidity h call
  unfold accepted at ha
  unfold step
  cases hcall : call.operation.call semanticValidity call.clock c with
  | ok u c' =>
    rw [hcall] at ha
    cases ha
  | error e c' => exact htakes.of_error hcall

/-- What the transitions of accepted calls keep, every step keeps. -/
theorem step_keeps {P : ContinuityCore → Prop} (h : Grounded c) (hc : P c)
    (hP : accepted semanticValidity c call = true →
      ∀ es c', call.operation.Performs es → Takes c es c' → P c') :
    P (step semanticValidity c call) := by
  cases ha : accepted semanticValidity c call with
  | true =>
    obtain ⟨es, hes, ht⟩ := step_accepted h ha
    exact hP ha es _ hes ht
  | false =>
    rw [step_rejected h ha]
    exact hc

end Call

end Cadi
