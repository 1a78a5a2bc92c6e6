import Cadi.Library.Paired
import Cadi.Serialization.Queries

namespace Cadi
open Library
set_option autoImplicit true

/-- From these cores the two computations end alike, in cores with the same stores. -/
abbrev SameEnd (x y : CoreM α) (c c' : ContinuityCore) : Prop := Paired SameStores x y c c'

section Checks
variable {c c' : ContinuityCore}

theorem SameStores.setContinuation (h : SameStores c c') (k : String) (ct : Continuation) :
    SameStores { c with continuations := c.continuations.set k ct }
      { c' with continuations := c'.continuations.set k ct } :=
  { h with continuations := h.continuations.set k ct }

theorem SameStores.setState (h : SameStores c c') (k : String) (x : ReusableState) :
    SameStores { c with states := c.states.set k x } { c' with states := c'.states.set k x } :=
  { h with states := h.states.set k x }

theorem unique_same (h : SameStores c c') {id : String} {f g : Unit → CoreM α}
    (hf : c.Fresh id → SameEnd (f ()) (g ()) c c') : SameEnd (unique id >>= f) (unique id >>= g) c c' := by
  have hunique : SameEnd (unique id) (unique id) c c' := by
    unfold unique
    refine Paired.get_bind (.lift h ?_)
    simp only [raiseIf, (ids_perm h).mem_iff]
  refine hunique.bind fun _ d d' hd hd' _ => ?_
  unfold unique at hd hd'
  rw [get_bind_apply, lift_eq_ok, raiseIf_eq_ok] at hd hd'
  obtain ⟨hfresh, rfl⟩ := hd
  obtain ⟨-, rfl⟩ := hd'
  exact hf hfresh

/-- An item that both cores look up. -/
theorem item_bind_same (h : SameStores c c') {d e : Dict String α} (hd : d.Same e)
    {f g : α → CoreM β} (hf : ∀ v, d.get? k = some v → SameEnd (f v) (g v) c c') :
    SameEnd (liftM (item d k) >>= f) (liftM (item e k) >>= g) c c' :=
  .lift_bind h (item_same hd k) fun v hv => hf v (item_eq_ok.mp hv)

theorem refreshStateLifecycles_same (h : SameStores c c') (hknown : ParentsKnown c.continuations)
    (hkeyed : Keyed c.continuations) : SameEnd refreshStateLifecycles refreshStateLifecycles c c' := by
  unfold SameEnd Paired
  rw [refreshStateLifecycles_eq hknown hkeyed,
    refreshStateLifecycles_eq (hknown.same h.continuations) (hkeyed.same h.continuations)]
  exact ⟨rfl, h.refreshed hknown hkeyed⟩

end Checks

section Graph
variable {c c' : ContinuityCore}

theorem createProgram_same (h : SameStores c c') (id : String) :
    SameEnd (createProgram id) (createProgram id) c c' := by
  unfold createProgram
  refine unique_same h fun _ => .modify_bind (.pure ?_)
  exact { h with programs := h.programs.set _ _ }

theorem setProgramStatus_same (h : SameStores c c') (programId : String) (status : ProgramStatus) :
    SameEnd (setProgramStatus programId status) (setProgramStatus programId status) c c' := by
  unfold setProgramStatus
  refine .get_bind (item_bind_same h h.programs fun p _ => .raiseIf_bind h .rfl fun _ => ?_)
  exact .modify_bind (.pure { h with programs := h.programs.set _ _ })

theorem createSession_same (h : SameStores c c') (id programId : String) :
    SameEnd (createSession id programId) (createSession id programId) c c' := by
  unfold createSession
  refine unique_same h fun _ => .get_bind (item_bind_same h h.programs fun _ _ => ?_)
  exact .modify_bind (.pure { h with sessions := h.sessions.set _ _ })

theorem createContinuation_same (h : SameStores c c') (hg : Grounded c) (id sessionId : String)
    (parentIds : List String) (lifecycle : ContinuationLifecycle) :
    SameEnd (createContinuation id sessionId parentIds lifecycle)
      (createContinuation id sessionId parentIds lifecycle) c c' := by
  unfold createContinuation
  refine unique_same h fun _ => .get_bind (item_bind_same h h.sessions fun _ _ => ?_)
  refine .lift_bind h (checkParents_same h _ _) fun _ hparents => .modify_bind (.get_bind ?_)
  rw [checkParents_eq_ok] at hparents
  have hset := h.setContinuation id ⟨id, sessionId, parentIds.toFinset, lifecycle⟩
  refine .lift_bind hset (hasCycle_same hset sessionId) fun cyclic _ => ?_
  cases cyclic with
  | true => exact .modify_bind (.throw { hset with continuations := hset.continuations.erase id })
  | false =>
    refine Paired.bind (refreshStateLifecycles_same hset ?_ (hg.keys.continuations.set rfl))
      fun _ _ _ _ _ hend => .pure hend
    refine hg.scopes.parentsKnown.set fun p hp => ?_
    obtain ⟨pc, hpc, _⟩ := hparents p hp
    exact Dict.mem_of_get? hpc

theorem setContinuationLifecycle_same (h : SameStores c c') (hg : Grounded c) (continuationId : String)
    (lifecycle : ContinuationLifecycle) :
    SameEnd (setContinuationLifecycle continuationId lifecycle)
      (setContinuationLifecycle continuationId lifecycle) c c' := by
  unfold setContinuationLifecycle
  refine .get_bind (item_bind_same h h.continuations fun ct hct => .raiseIf_bind h .rfl fun _ => ?_)
  refine .modify_bind (Paired.bind (refreshStateLifecycles_same ?_ ?_ ?_)
    fun _ _ _ _ _ hend => .pure hend)
  · exact h.setContinuation _ _
  · exact hg.scopes.parentsKnown.set (hg.scopes.parentsKnown _ ct hct)
  · exact hg.keys.continuations.set (hg.keys.continuations _ ct hct)

theorem resumeAfterWait_same (h : SameStores c c') (hg : Grounded c) (waitingId childId : String) :
    SameEnd (resumeAfterWait waitingId childId) (resumeAfterWait waitingId childId) c c' := by
  unfold resumeAfterWait
  refine .get_bind (item_bind_same h h.continuations fun ct hct => .raiseIf_bind h .rfl fun _ => ?_)
  refine (createContinuation_same h hg childId ct.sessionId [waitingId] .active).bind ?_
  intro child d d' hd _ hsame
  obtain ⟨rfl, hallowed, rfl⟩ :=
    (createContinuation_takes hg childId ct.sessionId [waitingId] .active).of_ok hd
  have htakes : Takes c [.createContinuation _] _ := ⟨hallowed, rfl⟩
  have hgd := htakes.grounded hg
  have hparents : ∀ p ∈ ct.parentIds, p ∈ c.continuations := hg.scopes.parentsKnown _ ct hct
  refine .modify_bind (Paired.bind (refreshStateLifecycles_same ?_ ?_ ?_)
    fun _ _ _ _ _ hend => .pure hend)
  · exact hsame.setContinuation _ _
  · exact hgd.scopes.parentsKnown.set fun p hp => Dict.mem_set.mpr (.inr (hparents p hp))
  · exact hgd.keys.continuations.set (hg.keys.continuations _ ct hct)

end Graph

section Requests
variable {c c' : ContinuityCore}

theorem createRequest_same (h : SameStores c c') (id continuationId : String) :
    SameEnd (createRequest id continuationId) (createRequest id continuationId) c c' := by
  unfold createRequest
  refine unique_same h fun _ => .get_bind (item_bind_same h h.continuations fun _ _ => ?_)
  exact .modify_bind (.pure { h with requests := h.requests.set _ _ })

theorem supersedeCurrent_same (h : SameStores c c') (pointer : Option String) :
    SameEnd (supersedeCurrent pointer) (supersedeCurrent pointer) c c' := by
  unfold supersedeCurrent
  cases truthy pointer with
  | none => exact .pure h
  | some k =>
    refine .get_bind (item_bind_same h h.attempts fun old _ => .raiseIf_bind h .rfl fun _ => ?_)
    exact ⟨rfl, { h with attempts := h.attempts.set _ _ }⟩

theorem startAttempt_same (h : SameStores c c') (id requestId : String) :
    SameEnd (startAttempt id requestId) (startAttempt id requestId) c c' := by
  unfold startAttempt
  refine unique_same h fun _ => .get_bind (item_bind_same h h.requests fun r _ => ?_)
  refine .raiseIf_bind h .rfl fun _ => (supersedeCurrent_same h _).bind fun _ d d' _ _ hd => ?_
  rw [nextGeneration_same h]
  exact .modify_bind (.modify_bind (.pure
    { hd with attempts := hd.attempts.set _ _, requests := hd.requests.set _ _ }))

theorem setAttemptExecution_same (h : SameStores c c') (attemptId : String) (status : ExecutionStatus) :
    SameEnd (setAttemptExecution attemptId status) (setAttemptExecution attemptId status) c c' := by
  unfold setAttemptExecution
  refine .get_bind (item_bind_same h h.attempts fun a _ => .raiseIf_bind h .rfl fun _ => ?_)
  refine .raiseIf_bind h .rfl fun _ => .modify_bind (.pure ?_)
  exact { h with attempts := h.attempts.set _ _ }

theorem createPhase_same (h : SameStores c c') (id attemptId : String) (phaseType : PhaseType)
    (ordinal : Option Int) :
    SameEnd (createPhase id attemptId phaseType ordinal) (createPhase id attemptId phaseType ordinal)
      c c' := by
  unfold createPhase
  refine unique_same h fun _ => .get_bind (item_bind_same h h.attempts fun _ _ => ?_)
  rw [nextOrdinal_same h]
  refine .raiseIf_bind h .rfl fun _ => .modify_bind (.pure ?_)
  exact { h with phases := h.phases.set _ _ }

theorem setPhaseStatus_same (h : SameStores c c') (phaseId : String) (status : PhaseStatus) :
    SameEnd (setPhaseStatus phaseId status) (setPhaseStatus phaseId status) c c' := by
  unfold setPhaseStatus
  refine .get_bind (item_bind_same h h.phases fun p _ => .raiseIf_bind h .rfl fun _ => ?_)
  refine .lift_bind h (checkCompletion_same h _ _) fun _ _ => .raiseIf_bind h .rfl fun _ => ?_
  exact .modify_bind (.pure { h with phases := h.phases.set _ _ })

theorem createOutput_same (h : SameStores c c') (id attemptId : String) (terminal : Bool)
    (evidenceIds : List String) :
    SameEnd (createOutput id attemptId terminal evidenceIds)
      (createOutput id attemptId terminal evidenceIds) c c' := by
  unfold createOutput
  refine unique_same h fun _ => .get_bind (item_bind_same h h.attempts fun _ _ => ?_)
  simp only [same_mem h.evidence]
  refine .raiseIf_bind h .rfl fun _ => .modify_bind (.pure ?_)
  exact { h with outputs := h.outputs.set _ _ }

theorem finalizeRequest_same (h : SameStores c c') (clock : Number) (requestId outputId : String)
    (now : Option Number) :
    SameEnd (finalizeRequest clock requestId outputId now)
      (finalizeRequest clock requestId outputId now) c c' := by
  unfold finalizeRequest
  refine .get_bind (item_bind_same h h.requests fun r _ => item_bind_same h h.outputs fun o _ => ?_)
  refine item_bind_same h h.attempts fun a _ => ?_
  split
  · split
    · exact .pure h
    · exact .throw h
  · refine .raiseIf_bind h .rfl fun _ => .raiseIf_bind h .rfl fun _ => .raiseIf_bind h .rfl fun _ => ?_
    refine .lift_bind h (requireEvidence_same h _ _ _ _ _) fun _ _ => ?_
    exact .modify_bind (.modify_bind (.pure
      { h with attempts := h.attempts.set _ _, requests := h.requests.set _ _ }))

end Requests

section States
variable {c c' : ContinuityCore}

theorem createState_same (h : SameStores c c') (hg : Grounded c) (id originType originId semanticType
    representation : String) (derivedFrom : List String) :
    SameEnd (createState id originType originId semanticType representation derivedFrom)
      (createState id originType originId semanticType representation derivedFrom) c c' := by
  unfold createState
  refine unique_same h fun _ => .get_bind (.lift_bind h (resolveOrigin_same h _ _) fun origin _ => ?_)
  refine .lift_bind h (checkDependencies_same h _ _) fun _ hdependencies => .modify_bind (.get_bind ?_)
  generalize hx : ReusableState.mk id originType originId origin.continuationId origin.requestId
    origin.attemptId semanticType representation .terminal .valid derivedFrom.toFinset
    origin.phaseId = x
  have hset := h.setState id x
  have hknown : DependenciesKnown (c.states.set id x) := hg.dependencies.set fun d hd => by
    subst hx
    exact checkDependencies_known hdependencies d hd
  refine .lift_bind hset (stateCycle_same hset hknown) fun cyclic _ => ?_
  cases cyclic with
  | true => exact .modify_bind (.throw { hset with states := hset.states.erase id })
  | false =>
    refine Paired.bind (refreshStateLifecycles_same hset hg.scopes.parentsKnown hg.keys.continuations)
      fun _ _ _ _ _ hend => .get_bind (.lift hend (item_same hend.states id))

theorem setStateValidity_same (h : SameStores c c') (stateId : String) (validity : StateValidity) :
    SameEnd (setStateValidity stateId validity) (setStateValidity stateId validity) c c' := by
  unfold setStateValidity
  refine .get_bind (item_bind_same h h.states fun x _ => .raiseIf_bind h .rfl fun _ => ?_)
  exact .modify_bind (.pure { h with states := h.states.set _ _ })

theorem addReplica_same (h : SameStores c c') (id stateId locationId : String) (status : ReplicaStatus) :
    SameEnd (addReplica id stateId locationId status) (addReplica id stateId locationId status) c c' := by
  unfold addReplica
  refine unique_same h fun _ => .get_bind (item_bind_same h h.states fun _ _ => ?_)
  exact .modify_bind (.pure { h with replicas := h.replicas.set _ _ })

theorem setReplicaStatus_same (h : SameStores c c') (replicaId : String) (status : ReplicaStatus) :
    SameEnd (setReplicaStatus replicaId status) (setReplicaStatus replicaId status) c c' := by
  unfold setReplicaStatus
  refine .get_bind (item_bind_same h h.replicas fun r _ => ?_)
  exact .modify_bind (.pure { h with replicas := h.replicas.set _ _ })

end States

section Bindings
variable {c c' : ContinuityCore}

theorem currentEpoch_same (h : SameStores c c') (subjectId : String) :
    c.currentEpoch subjectId = c'.currentEpoch subjectId := by
  rw [ContinuityCore.currentEpoch, ContinuityCore.currentEpoch, h.currentEpoch subjectId]

theorem lastAllocatedEpoch_same (h : SameStores c c') (subjectId : String) :
    c.lastAllocatedEpoch subjectId = c'.lastAllocatedEpoch subjectId := by
  rw [ContinuityCore.lastAllocatedEpoch, ContinuityCore.lastAllocatedEpoch,
    h.lastAllocatedEpoch subjectId, currentEpoch_same h]

theorem proposeBinding_same (h : SameStores c c') (id subjectId locationId : String) :
    SameEnd (proposeBinding id subjectId locationId) (proposeBinding id subjectId locationId) c c' := by
  unfold proposeBinding
  refine unique_same h fun _ => .get_bind ?_
  rw [currentEpoch_same h, lastAllocatedEpoch_same h]
  exact .modify_bind (.modify_bind (.pure { h with
    lastAllocatedEpoch := h.lastAllocatedEpoch.set _ _
    bindings := h.bindings.set _ _ }))

theorem activateInitialBinding_same (h : SameStores c c') (id subjectId locationId : String) :
    SameEnd (activateInitialBinding id subjectId locationId)
      (activateInitialBinding id subjectId locationId) c c' := by
  unfold activateInitialBinding
  refine .get_bind (.raiseIf_bind h (same_mem h.currentBinding _) fun _ => ?_)
  refine (proposeBinding_same h id subjectId locationId).bind fun b d d' _ _ hd => ?_
  exact .modify_bind (.modify_bind (.modify_bind (.pure { hd with
    bindings := hd.bindings.set _ _
    currentBinding := hd.currentBinding.set _ _
    currentEpoch := hd.currentEpoch.set _ _ })))

theorem beginMigration_same (h : SameStores c c') (bindingId : String) :
    SameEnd (beginMigration bindingId) (beginMigration bindingId) c c' := by
  unfold beginMigration
  refine .get_bind (item_bind_same h h.bindings fun b _ => .raiseIf_bind h .rfl fun _ => ?_)
  exact .modify_bind (.pure { h with bindings := h.bindings.set _ _ })

theorem supersedeBinding_same (h : SameStores c c') (subjectId : String) :
    SameEnd (supersedeBinding subjectId) (supersedeBinding subjectId) c c' := by
  unfold supersedeBinding
  refine .get_bind ?_
  rw [h.currentBinding subjectId]
  cases truthy (c'.currentBindingBySubject.get? subjectId) with
  | none => exact .pure h
  | some k =>
    refine item_bind_same h h.bindings fun old _ => ?_
    exact ⟨rfl, { h with bindings := h.bindings.set _ _ }⟩

theorem commitMigration_same (h : SameStores c c') (clock : Number) (bindingId : String)
    (evidenceIds : List String) (now : Option Number) :
    SameEnd (commitMigration clock bindingId evidenceIds now)
      (commitMigration clock bindingId evidenceIds now) c c' := by
  unfold commitMigration
  refine .get_bind (item_bind_same h h.bindings fun b _ => ?_)
  rw [currentEpoch_same h]
  refine .raiseIf_bind h .rfl fun _ => .raiseIf_bind h .rfl fun _ => ?_
  refine .lift_bind h (requireEvidence_same h _ _ _ _ _) fun _ _ => ?_
  refine (supersedeBinding_same h b.subjectId).bind fun _ d d' _ _ hd => ?_
  exact .modify_bind (.modify_bind (.modify_bind (.pure { hd with
    bindings := hd.bindings.set _ _
    currentBinding := hd.currentBinding.set _ _
    currentEpoch := hd.currentEpoch.set _ _ })))

end Bindings

section Records
variable {c c' : ContinuityCore}

theorem recordEvent_same (h : SameStores c c') (event : SemanticEvent) :
    SameEnd (recordEvent event) (recordEvent event) c c' := by
  unfold recordEvent
  refine .get_bind ?_
  rw [h.events event.id]
  cases c'.events.get? event.id with
  | some existing => exact .raiseIf_bind h .rfl fun _ => .pure h
  | none =>
    refine unique_same h fun _ => .modify_bind (.modify_bind (.pure ?_))
    exact { h with events := h.events.set _ _, eventOrder := congrArg (· ++ [event.id]) h.eventOrder }

theorem recordEvidence_same (h : SameStores c c') (e : Evidence) :
    SameEnd (recordEvidence e) (recordEvidence e) c c' := by
  unfold recordEvidence
  refine .get_bind ?_
  rw [h.evidence e.id]
  cases c'.evidence.get? e.id with
  | some existing => exact .raiseIf_bind h .rfl fun _ => .pure h
  | none =>
    have hstored : SameEnd (do
        unique e.id
        modify fun c => { c with evidence := c.evidence.set e.id e }
        return e : CoreM Evidence) (do
        unique e.id
        modify fun c => { c with evidence := c.evidence.set e.id e }
        return e : CoreM Evidence) c c' :=
      unique_same h fun _ => .modify_bind (.pure { h with evidence := h.evidence.set _ _ })
    refine .lift_bind h rfl fun _ _ => ?_
    by_cases hderived : e.derivedFrom = ∅
    · simp only [hderived, ne_eq, not_true_eq_false, ↓reduceIte]
      exact hstored
    · simp only [hderived, ne_eq, not_false_eq_true, ↓reduceIte]
      exact .lift_bind h (checkSupports_same h e) fun _ _ => hstored

end Records

end Cadi
