import Cadi.Invariants.GroundedSteps

namespace Cadi
open Library
set_option autoImplicit true

/-- The epoch counters of every subject, tied to its Bindings. -/
structure Ledger (c : ContinuityCore) : Prop where
  allocated : ∀ k b, c.bindings.get? k = some b → 0 ≤ b.baseEpoch ∧ b.baseEpoch < b.epoch ∧
    ∃ l, c.lastAllocatedEpochBySubject.get? b.subjectId = some l ∧ b.epoch ≤ l
  distinct : ∀ k b k' b', c.bindings.get? k = some b → c.bindings.get? k' = some b' →
    b.subjectId = b'.subjectId → b.epoch = b'.epoch → k = k'
  last : ∀ s l, c.lastAllocatedEpochBySubject.get? s = some l → 0 < l
  pointer : ∀ s k, c.currentBindingBySubject.get? s = some k → ∃ b, c.bindings.get? k = some b ∧
    b.subjectId = s ∧ c.currentEpochBySubject.get? s = some b.epoch
  epoch : ∀ s e, c.currentEpochBySubject.get? s = some e → s ∈ c.currentBindingBySubject

/-- A request that is still open has no committed Attempt. -/
def Uncommitted (requests : Dict String LogicalRequest) : Prop :=
  ∀ k r, requests.get? k = some r → ¬ r.status.terminal → r.committedAttemptId = none

theorem Ledger.empty : Ledger {} where
  allocated _ _ h := nomatch h
  distinct _ _ _ _ h := nomatch h
  last _ _ h := nomatch h
  pointer _ _ h := nomatch h
  epoch _ _ h := nomatch h

theorem Uncommitted.empty : Uncommitted ({} : ContinuityCore).requests := by
  intro k v h
  cases h

section Counters
variable {c : ContinuityCore}

theorem currentEpoch_of_get? (h : c.currentEpochBySubject.get? s = some e) :
    c.currentEpoch s = e := by
  simp only [ContinuityCore.currentEpoch, h, Option.getD_some]

/-- The current epoch is one of the stored Bindings or the initial zero. -/
theorem Ledger.currentEpoch_cases (h : Ledger c) (s : String) :
    (c.currentEpochBySubject.get? s = none ∧ c.currentEpoch s = 0) ∨
      ∃ k b, c.currentBindingBySubject.get? s = some k ∧ c.bindings.get? k = some b ∧
        b.subjectId = s ∧ c.currentEpoch s = b.epoch := by
  cases he : c.currentEpochBySubject.get? s with
  | none => exact .inl ⟨rfl, by simp only [ContinuityCore.currentEpoch, he, Option.getD_none]⟩
  | some e =>
    obtain ⟨k, hk⟩ := Dict.mem_iff.mp (h.epoch s e he)
    obtain ⟨b, hb, hs, hepoch⟩ := h.pointer s k hk
    exact .inr ⟨k, b, hk, hb, hs, currentEpoch_of_get? hepoch⟩

theorem Ledger.currentEpoch_nonneg (h : Ledger c) (s : String) : 0 ≤ c.currentEpoch s := by
  rcases h.currentEpoch_cases s with ⟨_, he⟩ | ⟨k, b, _, hb, _, he⟩
  · omega
  · obtain ⟨hbase, hlt, _⟩ := h.allocated k b hb
    omega

theorem Ledger.epoch_le_last (h : Ledger c) (hb : c.bindings.get? k = some b) :
    b.epoch ≤ c.lastAllocatedEpoch b.subjectId := by
  obtain ⟨_, _, l, hl, hle⟩ := h.allocated k b hb
  simpa only [ContinuityCore.lastAllocatedEpoch, hl, Option.getD_some] using hle

theorem Ledger.base_le_last (h : Ledger c) (s : String) :
    c.currentEpoch s ≤ c.lastAllocatedEpoch s := by
  rcases h.currentEpoch_cases s with ⟨_, he⟩ | ⟨k, b, _, hb, rfl, he⟩
  · cases hl : c.lastAllocatedEpochBySubject.get? s with
    | none => simp only [ContinuityCore.lastAllocatedEpoch, hl, Option.getD_none, le_refl]
    | some l =>
      have hpos := h.last s l hl
      simp only [ContinuityCore.lastAllocatedEpoch, hl, Option.getD_some, he]
      omega
  · rw [he]
    exact h.epoch_le_last hb

end Counters

section Transitions
variable {c : ContinuityCore}

/-- The ledger after a new Binding with the next epoch of its subject. -/
theorem Ledger.add {b : Binding} (h : Ledger c) (hk : k ∉ c.bindings)
    (hbase : b.baseEpoch = c.currentEpoch b.subjectId)
    (hepoch : b.epoch = c.lastAllocatedEpoch b.subjectId + 1) :
    Ledger { c with
      bindings := c.bindings.set k b
      lastAllocatedEpochBySubject := c.lastAllocatedEpochBySubject.set b.subjectId
        (c.lastAllocatedEpoch b.subjectId + 1) } := by
  have hnonneg := h.currentEpoch_nonneg b.subjectId
  have hle := h.base_le_last b.subjectId
  have hfresh {j v} (hv : c.bindings.get? j = some v) (hs : v.subjectId = b.subjectId) :
      v.epoch < b.epoch := by
    have hv := h.epoch_le_last hv
    rw [hs] at hv
    omega
  constructor
  · refine Dict.forall_set (fun j v hv => ?_) ⟨by omega, by omega, _, Dict.get?_set_self _ _ _,
      by omega⟩
    obtain ⟨hbase, hlt, l, hl, hle'⟩ := h.allocated j v hv
    refine ⟨hbase, hlt, ?_⟩
    by_cases hs : v.subjectId = b.subjectId
    · have hlt' := hfresh hv hs
      rw [hs]
      exact ⟨_, Dict.get?_set_self _ _ _, by omega⟩
    · exact ⟨l, (Dict.get?_set_ne _ _ (Ne.symm hs)).trans hl, hle'⟩
  · intro j v j' v' hv hv' hs he
    rcases Dict.get?_set_eq_some_iff.mp hv with ⟨rfl, rfl⟩ | ⟨_, hv⟩ <;>
      rcases Dict.get?_set_eq_some_iff.mp hv' with ⟨rfl, rfl⟩ | ⟨_, hv'⟩
    · rfl
    · have hlt := hfresh hv' hs.symm
      omega
    · have hlt := hfresh hv hs
      omega
    · exact h.distinct j v j' v' hv hv' hs he
  · exact Dict.forall_set h.last (by omega)
  · intro s j hj
    obtain ⟨v, hv, hrest⟩ := h.pointer s j hj
    refine ⟨v, ?_, hrest⟩
    rw [Dict.get?_set_ne _ _ fun he : k = j => hk (he ▸ Dict.mem_of_get? hv), hv]
  · exact h.epoch

/-- The ledger after a stored Binding has become the current one of its subject. -/
theorem Ledger.point (h : Ledger c) (hb : c.bindings.get? k = some b) :
    Ledger { c with
      currentBindingBySubject := c.currentBindingBySubject.set b.subjectId k
      currentEpochBySubject := c.currentEpochBySubject.set b.subjectId b.epoch } where
  __ := h
  pointer s j hj := by
    rcases Dict.get?_set_eq_some_iff.mp hj with ⟨rfl, rfl⟩ | ⟨hne, hj⟩
    · exact ⟨b, hb, rfl, Dict.get?_set_self _ _ _⟩
    · obtain ⟨v, hv, hs, he⟩ := h.pointer s j hj
      exact ⟨v, hv, hs, (Dict.get?_set_ne _ _ hne).trans he⟩
  epoch s e he := by
    rw [Dict.mem_set]
    rcases Dict.get?_set_eq_some_iff.mp he with ⟨hs, _⟩ | ⟨_, he⟩
    · exact .inl hs
    · exact .inr (h.epoch s e he)

/-- The ledger does not read the statuses of Bindings. -/
theorem Ledger.restatus {bindings : Dict String Binding} (h : Ledger c)
    (hgrow : c.bindings.Grows Binding.Stays bindings)
    (hback : ∀ k v, bindings.get? k = some v → ∃ b, c.bindings.get? k = some b ∧ b.Stays v) :
    Ledger { c with bindings } where
  allocated k v hv := by
    obtain ⟨b, hb, hs⟩ := hback k v hv
    rw [hs.identity]
    exact h.allocated k b hb
  distinct k v k' v' hv hv' hsub he := by
    obtain ⟨b, hb, hs⟩ := hback k v hv
    obtain ⟨b', hb', hs'⟩ := hback k' v' hv'
    rw [hs.identity, hs'.identity] at hsub he
    exact h.distinct k b k' b' hb hb' hsub he
  last := h.last
  pointer s k hk := by
    obtain ⟨b, hb, hsub, he⟩ := h.pointer s k hk
    obtain ⟨v, hv, hs⟩ := hgrow k b hb
    refine ⟨v, hv, ?_, ?_⟩
    · rw [hs.identity]
      exact hsub
    · rw [hs.identity]
      exact he
  epoch := h.epoch

theorem get?_committed_back {bindings : Dict String Binding} {b : Binding}
    {pointer : Option String} (hb : bindings.get? b.id = some b)
    (h : ((supersededBinding bindings pointer).set b.id { b with status := .active }).get? k =
      some v) : ∃ w, bindings.get? k = some w ∧ w.Stays v := by
  rcases Dict.get?_set_eq_some_iff.mp h with ⟨rfl, rfl⟩ | ⟨_, h⟩
  · exact ⟨b, hb, ⟨rfl⟩⟩
  · rw [get?_supersededBinding, Option.map_eq_some_iff] at h
    obtain ⟨w, hw, rfl⟩ := h
    refine ⟨w, hw, ?_⟩
    split
    · exact ⟨rfl⟩
    · exact .refl w

theorem get?_restatus_back {bindings : Dict String Binding} {b b' : Binding}
    (hb : bindings.get? b.id = some b) (hs : b.Stays b')
    (h : (bindings.set b.id b').get? k = some v) : ∃ w, bindings.get? k = some w ∧ w.Stays v := by
  rcases Dict.get?_set_eq_some_iff.mp h with ⟨rfl, rfl⟩ | ⟨_, h⟩
  · exact ⟨b, hb, hs⟩
  · exact ⟨v, h, .refl v⟩

theorem Effect.ledger {e : Effect} (h : Ledger c) (ha : e.Allowed c) : Ledger (e.apply c) := by
  have hgrow := (e.persists ha).bindings
  cases e with
  | propose id subjectId locationId =>
    exact Ledger.add (b := c.proposal id subjectId locationId) h
      (ContinuityCore.Fresh.unused ha).bindings rfl rfl
  | activateInitial id subjectId locationId =>
    have hadd := Ledger.add (b := { c.proposal id subjectId locationId with status := .active }) h
      ha.1.unused.bindings rfl rfl
    exact hadd.point (Dict.get?_set_self _ _ _)
  | beginMigration b => exact h.restatus hgrow fun k v hv => get?_restatus_back ha.1 ⟨rfl⟩ hv
  | commitMigration b =>
    have hstatus : Ledger { c with bindings := (supersededBinding c.bindings
        (c.currentBindingBySubject.get? b.subjectId)).set b.id { b with status := .active } } :=
      h.restatus hgrow fun k v hv => get?_committed_back ha.stored hv
    exact Ledger.point (b := { b with status := .active }) hstatus (Dict.get?_set_self _ _ _)
  | createProgram | setProgramStatus | createSession | createContinuation | setLifecycle
  | createRequest | startAttempt | setExecution | createPhase | setPhaseStatus | createOutput
  | finalize | createState | setValidity | addReplica | setReplicaStatus | recordEvent
  | recordEvidence => exact ⟨h.allocated, h.distinct, h.last, h.pointer, h.epoch⟩

theorem Effect.uncommitted {e : Effect} (h : Uncommitted c.requests) (ha : e.Allowed c) :
    Uncommitted (e.apply c).requests := by
  cases e with
  | createRequest id continuationId => exact Dict.forall_set h fun _ => rfl
  | startAttempt id r => exact Dict.forall_set h fun _ => h r.id r ha.stored ha.opened
  | finalize r a o =>
    have hdone : (r.finalized a o).status.terminal := List.mem_cons_self
    exact Dict.forall_set h fun hopen => (hopen hdone).elim
  | createProgram | setProgramStatus | createSession | createContinuation | setLifecycle
  | setExecution | createPhase | setPhaseStatus | createOutput | createState | setValidity
  | addReplica | setReplicaStatus | propose | activateInitial | beginMigration | commitMigration
  | recordEvent | recordEvidence => exact h

/-- What every core reached from the empty one satisfies, whatever identifiers the calls used. -/
structure Reached (c : ContinuityCore) : Prop where
  grounded : Grounded c
  ledger : Ledger c
  uncommitted : Uncommitted c.requests

theorem Reached.empty : Reached {} := ⟨.empty, .empty, .empty⟩

theorem Reached.step (h : Reached c) (semanticValidity : SemanticValidity) (call : Call) :
    Reached (step semanticValidity c call) :=
  step_keeps h.grounded h fun _ es _ _ ht =>
    ht.invariant (.trivial c es) h fun _ _ hc ha _ =>
      ⟨Effect.grounded hc.grounded ha, Effect.ledger hc.ledger ha, Effect.uncommitted hc.uncommitted ha⟩

theorem Reached.run (h : Reached c) (semanticValidity : SemanticValidity) (calls : List Call) :
    Reached (run (Cadi.step semanticValidity) c calls) :=
  invariant_run (A := fun _ _ => True) h (fun _ call hc _ => hc.step semanticValidity call)
    (.trivial (fun _ _ => True.intro) _ _)

end Transitions

end Cadi
