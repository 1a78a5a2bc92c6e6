import Cadi.Oracle.Lineage

namespace Cadi
open Library
set_option autoImplicit true

section Replicas
variable {c : ContinuityCore}

theorem Effect.replicas {e : Effect} (h : ReplicasPlaced c.states c.replicas c.bindings)
    (ha : e.Allowed c) :
    ReplicasPlaced (e.apply c).states (e.apply c).replicas (e.apply c).bindings := by
  have hp := e.persists ha
  have hold (k : String) (r : StateReplica) (hr : c.replicas.get? k = some r) :
      r.stateId ∈ (e.apply c).states ∧ ∀ j, r.bindingId = some j →
        ∃ b, (e.apply c).bindings.get? j = some b ∧ r.bindingEpoch = some b.epoch := by
    obtain ⟨hstate, hbinding⟩ := h k r hr
    refine ⟨hp.states.mem hstate, fun j hj => ?_⟩
    obtain ⟨b, hb, hepoch⟩ := hbinding j hj
    obtain ⟨b', hb', hs⟩ := hp.bindings j b hb
    exact ⟨b', hb', by rw [hs.identity, hepoch]⟩
  cases e with
  | addReplica r =>
    refine Dict.forall_set hold ⟨ha.2.1, fun j hj => ?_⟩
    rw [ha.2.2.1] at hj
    cases hj
  | setReplicaStatus r status => exact Dict.forall_set hold (hold _ r ha)
  | createProgram | setProgramStatus | createSession | createContinuation | setLifecycle
  | createRequest | startAttempt | setExecution | createPhase | setPhaseStatus | createOutput
  | finalize | createState | setValidity | propose | activateInitial | beginMigration
  | commitMigration | recordEvent | recordEvidence => exact hold

end Replicas

section Authority
variable {c : ContinuityCore} {bindings : Dict String Binding} {current : Dict String String}
  {epochs : Dict String Int}

theorem BindingAuthority.add_candidate (h : BindingAuthority bindings current epochs)
    (hk : k ∉ bindings) (hb : b.status ≠ .active) :
    BindingAuthority (bindings.set k b) current epochs where
  current s j hj := by
    obtain ⟨v, hv, hrest⟩ := h.current s j hj
    refine ⟨v, ?_, hrest⟩
    rw [Dict.get?_set_ne _ _ fun he : k = j => hk (he ▸ Dict.mem_of_get? hv), hv]
  active := Dict.forall_set h.active fun ha => (hb ha).elim

theorem BindingAuthority.activate (h : BindingAuthority bindings current epochs)
    (hk : k ∉ bindings) (hb : b.status = .active) (hs : b.subjectId ∉ current) :
    BindingAuthority (bindings.set k b) (current.set b.subjectId k)
      (epochs.set b.subjectId b.epoch) where
  current := by
    refine Dict.forall_set (fun s j hj => ?_) ⟨b, Dict.get?_set_self _ _ _, rfl, hb,
      Dict.get?_set_self _ _ _⟩
    obtain ⟨v, hv, hsub, hact, hepoch⟩ := h.current s j hj
    refine ⟨v, ?_, hsub, hact, ?_⟩
    · rw [Dict.get?_set_ne _ _ fun he : k = j => hk (he ▸ Dict.mem_of_get? hv), hv]
    · rw [Dict.get?_set_ne _ _ fun he : b.subjectId = s => hs (he ▸ Dict.mem_of_get? hj), hepoch]
  active := by
    refine Dict.forall_set (fun j v hv ha => ?_) fun _ => Dict.get?_set_self _ _ _
    have hcur := h.active j v hv ha
    rw [Dict.get?_set_ne _ _ fun he : b.subjectId = v.subjectId =>
      hs (he ▸ Dict.mem_of_get? hcur), hcur]

theorem BindingAuthority.restatus (h : BindingAuthority bindings current epochs)
    (hb : bindings.get? k = some b) (hstatus : b.status ≠ .active) (hv : v.status ≠ .active) :
    BindingAuthority (bindings.set k v) current epochs where
  current s j hj := by
    obtain ⟨w, hw, hsub, hact, hepoch⟩ := h.current s j hj
    refine ⟨w, ?_, hsub, hact, hepoch⟩
    rw [Dict.get?_set_ne _ _ fun he : k = j => ?_, hw]
    rw [he, hw, Option.some.injEq] at hb
    exact hstatus (hb ▸ hact)
  active := Dict.forall_set h.active fun ha => (hv ha).elim

theorem BindingAuthority.commit (h : BindingAuthority bindings current epochs)
    (hb : bindings.get? b.id = some b) (hstatus : b.status ≠ .active)
    (hs : current.get? b.subjectId ≠ some "") :
    BindingAuthority ((supersededBinding bindings (current.get? b.subjectId)).set b.id
        { b with status := .active })
      (current.set b.subjectId b.id) (epochs.set b.subjectId b.epoch) where
  current := by
    refine fun s j hj => ?_
    rcases Dict.get?_set_eq_some_iff.mp hj with ⟨rfl, rfl⟩ | ⟨hne, hj⟩
    · exact ⟨_, Dict.get?_set_self _ _ _, rfl, rfl, Dict.get?_set_self _ _ _⟩
    obtain ⟨v, hv, hsub, hact, hepoch⟩ := h.current s j hj
    refine ⟨v, ?_, hsub, hact, (Dict.get?_set_ne _ _ hne).trans hepoch⟩
    have hjb : b.id ≠ j := by
      rintro rfl
      rw [hb, Option.some.injEq] at hv
      exact hstatus (hv ▸ hact)
    rw [Dict.get?_set_ne _ _ hjb, get?_supersededBinding, hv, Option.map_some, truthy_of_ne hs,
      if_neg]
    intro hp
    obtain ⟨w, hw, hwsub, _⟩ := h.current _ j hp
    rw [hv, Option.some.injEq] at hw
    subst hw
    exact hne (hwsub.symm.trans hsub)
  active := by
    refine Dict.forall_set (fun j v hv ha => ?_) fun _ => Dict.get?_set_self _ _ _
    rw [get?_supersededBinding, Option.map_eq_some_iff, truthy_of_ne hs] at hv
    obtain ⟨w, hw, rfl⟩ := hv
    by_cases hp : current.get? b.subjectId = some j
    · rw [if_pos hp] at ha
      cases ha
    · rw [if_neg hp] at ha ⊢
      have hcur := h.active j w hw ha
      rw [Dict.get?_set_ne _ _ fun he : b.subjectId = w.subjectId => hp (he ▸ hcur), hcur]

theorem Effect.bindingAuthority {e : Effect}
    (h : BindingAuthority c.bindings c.currentBindingBySubject c.currentEpochBySubject)
    (ha : e.Allowed c)
    (hs : ∀ b, e = .commitMigration b → c.currentBindingBySubject.get? b.subjectId ≠ some "") :
    BindingAuthority (e.apply c).bindings (e.apply c).currentBindingBySubject
      (e.apply c).currentEpochBySubject := by
  cases e with
  | propose id subjectId locationId =>
    exact h.add_candidate (ContinuityCore.Fresh.unused ha).bindings fun hb => by cases hb
  | activateInitial id subjectId locationId =>
    exact BindingAuthority.activate
      (b := { c.proposal id subjectId locationId with status := .active })
      h ha.1.unused.bindings rfl ha.2
  | beginMigration b =>
    refine h.restatus ha.1 ?_ fun hb => by cases hb
    rw [ha.2]
    decide
  | commitMigration b =>
    refine h.commit ha.stored (fun hact => ?_) (hs b rfl)
    rcases ha.candidate with hb | hb <;> rw [hb] at hact <;> cases hact
  | createProgram | setProgramStatus | createSession | createContinuation | setLifecycle
  | createRequest | startAttempt | setExecution | createPhase | setPhaseStatus | createOutput
  | finalize | createState | setValidity | addReplica | setReplicaStatus | recordEvent
  | recordEvidence => exact h

end Authority

section Epochs
variable {c : ContinuityCore} {bindings bindings' : Dict String Binding}
  {current last : Dict String Int}

/-- Epoch laws do not read the statuses of Bindings. -/
theorem BindingGenerations.restatus (h : BindingGenerations bindings current last)
    (hgrow : bindings.Grows Binding.Stays bindings')
    (hback : ∀ k v, bindings'.get? k = some v → ∃ b, bindings.get? k = some b ∧ b.Stays v) :
    BindingGenerations bindings' current last where
  above k v hv := by
    obtain ⟨b, hb, hs⟩ := hback k v hv
    rw [hs.identity]
    exact h.above k b hb
  distinct k v k' v' hv hv' hsub hepoch := by
    obtain ⟨b, hb, hs⟩ := hback k v hv
    obtain ⟨b', hb', hs'⟩ := hback k' v' hv'
    rw [hs.identity, hs'.identity] at hsub hepoch
    exact h.distinct k b k' b' hb hb' hsub hepoch
  last k v hv := by
    obtain ⟨b, hb, hs⟩ := hback k v hv
    obtain ⟨l, hl, hle, j, w, hw, hwsub, hwl⟩ := h.last k b hb
    obtain ⟨w', hw', hs'⟩ := hgrow j w hw
    rw [hs.identity]
    exact ⟨l, hl, hle, j, w', hw', by rw [hs'.identity]; exact hwsub,
      by rw [hs'.identity]; exact hwl⟩
  current k v e hv he := by
    obtain ⟨b, hb, hs⟩ := hback k v hv
    rw [hs.identity] at he ⊢
    obtain ⟨j, w, hw, hwsub, hwe⟩ := h.current k b e hb he
    obtain ⟨w', hw', hs'⟩ := hgrow j w hw
    exact ⟨j, w', hw', by rw [hs'.identity]; exact hwsub, by rw [hs'.identity]; exact hwe⟩

theorem lastAllocatedEpoch_of_get? (h : c.lastAllocatedEpochBySubject.get? s = some l) :
    c.lastAllocatedEpoch s = l := by
  simp only [ContinuityCore.lastAllocatedEpoch, h, Option.getD_some]

theorem BindingGenerations.propose {b : Binding}
    (h : BindingGenerations c.bindings c.currentEpochBySubject c.lastAllocatedEpochBySubject)
    (hk : k ∉ c.bindings) (hepoch : b.epoch = c.lastAllocatedEpoch b.subjectId + 1)
    (hbase : b.baseEpoch < b.epoch)
    (hcurrent : ∀ e, current.get? b.subjectId = some e → e = b.epoch ∨
      ∃ j v, c.bindings.get? j = some v ∧ v.subjectId = b.subjectId ∧ v.epoch = e)
    (hother : ∀ s, s ≠ b.subjectId → current.get? s = c.currentEpochBySubject.get? s) :
    BindingGenerations (c.bindings.set k b) current
      (c.lastAllocatedEpochBySubject.set b.subjectId (c.lastAllocatedEpoch b.subjectId + 1)) := by
  have hkept {j v} (hv : c.bindings.get? j = some v) : (c.bindings.set k b).get? j = some v := by
    rw [Dict.get?_set_ne _ _ fun he : k = j => hk (he ▸ Dict.mem_of_get? hv), hv]
  have hbelow {j v} (hv : c.bindings.get? j = some v) (hs : v.subjectId = b.subjectId) :
      v.epoch < b.epoch := by
    obtain ⟨l, hl, hle, _⟩ := h.last j v hv
    rw [hs] at hl
    rw [hepoch, lastAllocatedEpoch_of_get? hl]
    omega
  constructor
  · exact Dict.forall_set h.above hbase
  · intro j v j' v' hv hv' hsub he
    rcases Dict.get?_set_eq_some_iff.mp hv with ⟨rfl, rfl⟩ | ⟨_, hv⟩ <;>
      rcases Dict.get?_set_eq_some_iff.mp hv' with ⟨rfl, rfl⟩ | ⟨_, hv'⟩
    · rfl
    · have hlt := hbelow hv' hsub.symm
      omega
    · have hlt := hbelow hv hsub
      omega
    · exact h.distinct j v j' v' hv hv' hsub he
  · refine Dict.forall_set (fun j v hv => ?_) ⟨_, Dict.get?_set_self _ _ _, by omega, k, b,
      Dict.get?_set_self _ _ _, rfl, hepoch⟩
    by_cases hs : v.subjectId = b.subjectId
    · have hlt := hbelow hv hs
      rw [hs]
      exact ⟨_, Dict.get?_set_self _ _ _, by omega, k, b, Dict.get?_set_self _ _ _, rfl, hepoch⟩
    · obtain ⟨l, hl, hle, j', w, hw, hrest⟩ := h.last j v hv
      exact ⟨l, (Dict.get?_set_ne _ _ (Ne.symm hs)).trans hl, hle, j', w, hkept hw, hrest⟩
  · have hsubject (e : Int) (he : current.get? b.subjectId = some e) :
        ∃ j w, (c.bindings.set k b).get? j = some w ∧ w.subjectId = b.subjectId ∧ w.epoch = e := by
      rcases hcurrent e he with rfl | ⟨j, w, hw, hrest⟩
      · exact ⟨k, b, Dict.get?_set_self _ _ _, rfl, rfl⟩
      · exact ⟨j, w, hkept hw, hrest⟩
    intro j v e hv he
    rcases Dict.get?_set_eq_some_iff.mp hv with ⟨rfl, rfl⟩ | ⟨_, hv⟩
    · exact hsubject e he
    · by_cases hs : v.subjectId = b.subjectId
      · rw [hs] at he ⊢
        exact hsubject e he
      · rw [hother _ hs] at he
        obtain ⟨j', w, hw, hrest⟩ := h.current j v e hv he
        exact ⟨j', w, hkept hw, hrest⟩

theorem BindingGenerations.commit {b : Binding} (h : BindingGenerations bindings current last)
    (hb : bindings.get? k = some b) :
    BindingGenerations bindings (current.set b.subjectId b.epoch) last where
  __ := h
  current j v e hv he := by
    rcases Dict.get?_set_eq_some_iff.mp he with ⟨hs, rfl⟩ | ⟨_, he⟩
    · exact ⟨k, b, hb, hs, rfl⟩
    · exact h.current j v e hv he

/-- Epochs above the base of the subject are still to be had, and the current epoch is that of
a stored Binding. -/
structure Allocatable (c : ContinuityCore) (subjectId : String) : Prop where
  base : c.currentEpoch subjectId ≤ c.lastAllocatedEpoch subjectId
  current : c.currentEpochBySubject.get? subjectId = none ∨
    ∃ k b, c.bindings.get? k = some b ∧ b.subjectId = subjectId

theorem Ledger.allocatable (h : Ledger c) (s : String) : Allocatable c s where
  base := h.base_le_last s
  current := by
    cases he : c.currentEpochBySubject.get? s with
    | none => exact .inl rfl
    | some e =>
      obtain ⟨k, hk⟩ := Dict.mem_iff.mp (h.epoch s e he)
      obtain ⟨b, hb, hs, _⟩ := h.pointer s k hk
      exact .inr ⟨k, b, hb, hs⟩

theorem Effect.bindingGenerations {e : Effect}
    (h : BindingGenerations c.bindings c.currentEpochBySubject c.lastAllocatedEpochBySubject)
    (ha : e.Allowed c)
    (hpropose : ∀ id s l, e = .propose id s l → Allocatable c s)
    (hactivate : ∀ id s l, e = .activateInitial id s l →
      c.currentEpoch s ≤ c.lastAllocatedEpoch s) :
    BindingGenerations (e.apply c).bindings (e.apply c).currentEpochBySubject
      (e.apply c).lastAllocatedEpochBySubject := by
  have hgrow := (e.persists ha).bindings
  cases e with
  | propose id subjectId locationId =>
    obtain ⟨hbase, hcurrent⟩ := hpropose id subjectId locationId rfl
    refine BindingGenerations.propose (b := c.proposal id subjectId locationId) h
      (ContinuityCore.Fresh.unused ha).bindings rfl (by
        change c.currentEpoch subjectId < c.lastAllocatedEpoch subjectId + 1
        omega) (fun e he => ?_) fun _ _ => rfl
    change c.currentEpochBySubject.get? subjectId = some e at he
    rcases hcurrent with hnone | ⟨k, b, hb, hs⟩
    · rw [hnone] at he
      cases he
    · obtain ⟨j, w, hw, hsub, hwe⟩ := h.current k b e hb (hs ▸ he)
      exact .inr ⟨j, w, hw, hsub.trans hs, hwe⟩
  | activateInitial id subjectId locationId =>
    have hbase := hactivate id subjectId locationId rfl
    refine BindingGenerations.propose
      (b := { c.proposal id subjectId locationId with status := .active }) h
      ha.1.unused.bindings rfl (by
        change c.currentEpoch subjectId < c.lastAllocatedEpoch subjectId + 1
        omega) (fun e he => ?_) fun s hs => Dict.get?_set_ne _ _ (Ne.symm hs)
    have hself := Dict.get?_set_self c.currentEpochBySubject subjectId
      (c.lastAllocatedEpoch subjectId + 1)
    exact .inl (Option.some.inj (he.symm.trans hself))
  | beginMigration b =>
    exact h.restatus hgrow fun k v hv => get?_restatus_back ha.1 ⟨rfl⟩ hv
  | commitMigration b =>
    exact (h.commit ha.stored).restatus hgrow fun k v hv => get?_committed_back ha.stored hv
  | createProgram | setProgramStatus | createSession | createContinuation | setLifecycle
  | createRequest | startAttempt | setExecution | createPhase | setPhaseStatus | createOutput
  | finalize | createState | setValidity | addReplica | setReplicaStatus | recordEvent
  | recordEvidence => exact h

end Epochs

section Evidence
variable {c : ContinuityCore} {evidence evidence' : Dict String Evidence} {e : Evidence}

theorem Derivation.grows (h : Derivation evidence e) (hgrow : evidence.Grows Eq evidence') :
    Derivation evidence' e where
  derived := h.derived
  direct := h.direct
  support d hd := by
    obtain ⟨s, hs, hvalid⟩ := h.support d hd
    obtain ⟨s', hs', rfl⟩ := hgrow d s hs
    exact ⟨s, hs', hvalid⟩
  scope hne p hp := by
    obtain ⟨d, hd, s, hs, hps⟩ := h.scope hne p hp
    obtain ⟨s', hs', rfl⟩ := hgrow d s hs
    exact ⟨d, hd, s, hs', hps⟩

theorem checkDerivation_spec (h : checkDerivation e = .ok ()) :
    (e.authority = .derived → e.derivedFrom ≠ ∅ ∧ truthy e.derivationRule ≠ none) ∧
      (e.authority ≠ .derived → e.derivedFrom = ∅ ∧ truthy e.derivationRule = none) := by
  unfold checkDerivation at h
  by_cases hd : e.authority = .derived
  · rw [if_pos hd, raiseIf_eq_ok, not_or] at h
    exact ⟨fun _ => h, fun hn => (hn hd).elim⟩
  · rw [if_neg hd, raiseIf_eq_ok, not_or, Decidable.not_not, Decidable.not_not] at h
    exact ⟨fun hd' => (hd hd').elim, fun _ => h⟩

theorem checkSupports_spec (h : checkSupports c e = .ok ()) :
    (∀ d ∈ e.derivedFrom, ∃ s, c.evidence.get? d = some s ∧
      (e.status = .valid → s.status = .valid)) ∧
    ∀ p ∈ e.scope, ∃ d ∈ e.derivedFrom, ∃ s, c.evidence.get? d = some s ∧ p ∈ s.scope := by
  obtain ⟨supports, hsupports, h⟩ := Except.bind_eq_ok.mp h
  obtain ⟨u, hscope, hstatus⟩ := Except.bind_eq_ok.mp h
  rw [raiseIf_eq_ok, Decidable.not_not] at hscope
  rw [raiseIf_eq_ok, not_and, not_exists] at hstatus
  constructor
  · intro d hd
    obtain ⟨s, hs, hds⟩ := Except.mapM_result hsupports (mem_elements.mpr hd)
    split at hds
    · next support hget =>
      obtain rfl := Except.ok.inj hds
      refine ⟨support, hget, fun hvalid => ?_⟩
      have hall := hstatus hvalid support
      rw [not_and, Decidable.not_not] at hall
      exact hall hs
    · cases hds
  · intro p hp
    obtain ⟨s, hs, hps⟩ := hscope p hp
    obtain ⟨d, hd, hds⟩ := Except.mapM_source hsupports hs
    split at hds
    · next support hget =>
      obtain rfl := Except.ok.inj hds
      exact ⟨d, mem_elements.mp hd, support, hget, hps⟩
    · cases hds

theorem Effect.derivations {e : Effect}
    (h : ∀ k v, c.evidence.get? k = some v → Derivation c.evidence v) (ha : e.Allowed c) :
    ∀ k v, (e.apply c).evidence.get? k = some v → Derivation (e.apply c).evidence v := by
  have hgrow := (e.persists ha).evidence
  have hold (k : String) (v : Evidence) (hv : c.evidence.get? k = some v) :
      Derivation (e.apply c).evidence v := (h k v hv).grows hgrow
  cases e with
  | recordEvidence e =>
    obtain ⟨hderived, hdirect⟩ := checkDerivation_spec ha.2.1
    refine Dict.forall_set hold (Derivation.grows ?_ hgrow)
    by_cases hne : e.derivedFrom = ∅
    · refine ⟨hderived, hdirect, fun d hd => ?_, fun hn => (hn hne).elim⟩
      rw [hne] at hd
      exact (Finset.notMem_empty d hd).elim
    · obtain ⟨hsupport, hscope⟩ := checkSupports_spec (ha.2.2 hne)
      exact ⟨hderived, hdirect, hsupport, fun _ => hscope⟩
  | createProgram | setProgramStatus | createSession | createContinuation | setLifecycle
  | createRequest | startAttempt | setExecution | createPhase | setPhaseStatus | createOutput
  | finalize | createState | setValidity | addReplica | setReplicaStatus | propose
  | activateInitial | beginMigration | commitMigration | recordEvent => exact hold

theorem Effect.eventsOrdered {e : Effect} (h : EventsOrdered c.events c.eventOrder)
    (ha : e.Allowed c) : EventsOrdered (e.apply c).events (e.apply c).eventOrder := by
  cases e with
  | recordEvent event =>
    have hnew : event.id ∉ c.eventOrder := fun hm =>
      (ContinuityCore.Fresh.unused ha).events ((h.mem _).mp hm)
    constructor
    · change (c.eventOrder ++ [event.id]).Nodup
      rw [← List.concat_eq_append]
      exact h.nodup.concat hnew
    · intro k
      change k ∈ c.eventOrder ++ [event.id] ↔ k ∈ c.events.set event.id event
      rw [List.mem_append, List.mem_singleton, Dict.mem_set, h.mem, or_comm, eq_comm]
  | createProgram | setProgramStatus | createSession | createContinuation | setLifecycle
  | createRequest | startAttempt | setExecution | createPhase | setPhaseStatus | createOutput
  | finalize | createState | setValidity | addReplica | setReplicaStatus | propose
  | activateInitial | beginMigration | commitMigration | recordEvidence => exact h

theorem Effect.outputsGrounded {e : Effect} (h : OutputsGrounded c.attempts c.evidence c.outputs)
    (ha : e.Allowed c) :
    OutputsGrounded (e.apply c).attempts (e.apply c).evidence (e.apply c).outputs := by
  have hp := e.persists ha
  have hold (k : String) (o : Output) (ho : c.outputs.get? k = some o) :
      o.attemptId ∈ (e.apply c).attempts ∧ ∀ i ∈ o.evidenceIds, i ∈ (e.apply c).evidence :=
    ⟨hp.attempts.mem (h k o ho).1, fun i hi => hp.evidence.mem ((h k o ho).2 i hi)⟩
  cases e with
  | createOutput o => exact Dict.forall_set hold ha.2
  | createProgram | setProgramStatus | createSession | createContinuation | setLifecycle
  | createRequest | startAttempt | setExecution | createPhase | setPhaseStatus | finalize
  | createState | setValidity | addReplica | setReplicaStatus | propose | activateInitial
  | beginMigration | commitMigration | recordEvent | recordEvidence => exact hold

end Evidence

end Cadi
