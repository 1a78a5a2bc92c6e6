import Cadi.Histories.Succession

namespace Cadi
open Library
set_option autoImplicit true

/-- How the epochs of an earlier and a later core of a run are related. -/
structure Advances (c c' : ContinuityCore) : Prop where
  persists : Persists c c'
  last : ∀ s, c.lastAllocatedEpoch s ≤ c'.lastAllocatedEpoch s
  proposed : ∀ k b, c'.bindings.get? k = some b → k ∉ c.bindings →
    c.lastAllocatedEpoch b.subjectId < b.epoch
  epoch : ∀ s, c.currentEpoch s ≤ c'.currentEpoch s
  change : ∀ s, c.currentBindingBySubject.get? s ≠ c'.currentBindingBySubject.get? s →
    c.currentEpoch s < c'.currentEpoch s
  base : ∀ s k b, c'.currentBindingBySubject.get? s = some k →
    c.currentBindingBySubject.get? s ≠ some k → c'.bindings.get? k = some b →
    c.currentEpoch s ≤ b.baseEpoch

theorem Advances.refl (c : ContinuityCore) : Advances c c where
  persists := .refl c
  last _ := le_rfl
  proposed _ _ hb hk := (hk (Dict.mem_of_get? hb)).elim
  epoch _ := le_rfl
  change _ hne := (hne rfl).elim
  base _ _ _ hk hne _ := (hne hk).elim

/-- A Binding keeps everything but its status, also backwards in time. -/
theorem Persists.binding_back (h : Persists c c') (hk : k ∈ c.bindings)
    (hb : c'.bindings.get? k = some b) : ∃ w, c.bindings.get? k = some w ∧ w.Stays b := by
  obtain ⟨w, hw⟩ := Dict.mem_iff.mp hk
  obtain ⟨b', hb', hs⟩ := h.bindings k w hw
  obtain rfl := Option.some.inj (hb'.symm.trans hb)
  exact ⟨w, hw, hs⟩

theorem Binding.Stays.subjectId {b b' : Binding} (h : b.Stays b') : b'.subjectId = b.subjectId := by
  rw [h.identity]

theorem Binding.Stays.epoch {b b' : Binding} (h : b.Stays b') : b'.epoch = b.epoch := by
  rw [h.identity]

theorem Binding.Stays.baseEpoch {b b' : Binding} (h : b.Stays b') : b'.baseEpoch = b.baseEpoch := by
  rw [h.identity]

theorem Advances.trans (hl : Ledger c') (h : Advances c c') (h' : Advances c' c'') :
    Advances c c'' where
  persists := h.persists.trans h'.persists
  last s := (h.last s).trans (h'.last s)
  proposed k b hb hk := by
    by_cases hk' : k ∈ c'.bindings
    · obtain ⟨w, hw, hs⟩ := h'.persists.binding_back hk' hb
      rw [hs.subjectId, hs.epoch]
      exact h.proposed k w hw hk
    · exact (h.last b.subjectId).trans_lt (h'.proposed k b hb hk')
  epoch s := (h.epoch s).trans (h'.epoch s)
  change s hne := by
    by_cases he : c.currentBindingBySubject.get? s = c'.currentBindingBySubject.get? s
    · exact (h.epoch s).trans_lt (h'.change s (he ▸ hne))
    · exact (h.change s he).trans_le (h'.epoch s)
  base s k b hk hne hb := by
    by_cases hk' : c'.currentBindingBySubject.get? s = some k
    · obtain ⟨w, hw, _⟩ := hl.pointer s k hk'
      obtain ⟨b', hb', hs⟩ := h'.persists.bindings k w hw
      obtain rfl := Option.some.inj (hb'.symm.trans hb)
      rw [hs.baseEpoch]
      exact h.base s k w hk' hne hw
    · exact (h.epoch s).trans (h'.base s k b hk hk' hb)

section Transitions
variable {c : ContinuityCore}

/-- A transition that allocates no epoch and moves no pointer. -/
theorem Advances.of_same {c' : ContinuityCore} (hp : Persists c c')
    (hlast : c'.lastAllocatedEpochBySubject = c.lastAllocatedEpochBySubject)
    (hepoch : c'.currentEpochBySubject = c.currentEpochBySubject)
    (hcurrent : c'.currentBindingBySubject = c.currentBindingBySubject)
    (hkeys : ∀ k, k ∈ c'.bindings → k ∈ c.bindings) : Advances c c' where
  persists := hp
  last s := by simp only [ContinuityCore.lastAllocatedEpoch, ContinuityCore.currentEpoch, hlast,
    hepoch, le_refl]
  proposed k b hb hk := (hk (hkeys k (Dict.mem_of_get? hb))).elim
  epoch s := by simp only [ContinuityCore.currentEpoch, hepoch, le_refl]
  change s hne := (hne (congrArg (Dict.get? · s) hcurrent).symm).elim
  base s k b hk hne _ := (hne (hcurrent ▸ hk)).elim

theorem currentEpoch_set {c' : ContinuityCore}
    (h : c'.currentEpochBySubject = c.currentEpochBySubject.set s e) (t : String) :
    c'.currentEpoch t = if s = t then e else c.currentEpoch t := by
  simp only [ContinuityCore.currentEpoch, h, Dict.get?_set]
  split <;> rfl

theorem lastAllocatedEpoch_le {c' : ContinuityCore}
    (h : c'.lastAllocatedEpochBySubject =
      c.lastAllocatedEpochBySubject.set s (c.lastAllocatedEpoch s + 1))
    (hepoch : ∀ t, s ≠ t → c'.currentEpoch t = c.currentEpoch t) (t : String) :
    c.lastAllocatedEpoch t ≤ c'.lastAllocatedEpoch t := by
  by_cases hs : s = t
  · subst hs
    rw [lastAllocatedEpoch_of_get? (c := c') (h ▸ Dict.get?_set_self _ _ _)]
    omega
  · simp only [ContinuityCore.lastAllocatedEpoch, h, Dict.get?_set_ne _ _ hs, hepoch t hs, le_refl]

theorem proposed_set {bindings : Dict String Binding} {v : Binding}
    (hv : c.lastAllocatedEpoch v.subjectId < v.epoch)
    (hb : (bindings.set j v).get? k = some b) (hkeys : ∀ k, k ∈ bindings → k ∈ c.bindings)
    (hk : k ∉ c.bindings) : c.lastAllocatedEpoch b.subjectId < b.epoch := by
  rcases Dict.get?_set_eq_some_iff.mp hb with ⟨_, rfl⟩ | ⟨_, hb⟩
  · exact hv
  · exact (hk (hkeys k (Dict.mem_of_get? hb))).elim

/-- A transition that makes one Binding the current one of its subject. -/
theorem Advances.of_point {c' : ContinuityCore} {v : Binding} (hp : Persists c c')
    (hlast : ∀ s, c.lastAllocatedEpoch s ≤ c'.lastAllocatedEpoch s)
    (hproposed : ∀ k b, c'.bindings.get? k = some b → k ∉ c.bindings →
      c.lastAllocatedEpoch b.subjectId < b.epoch)
    (hv : c'.bindings.get? k = some v) (hbase : v.baseEpoch = c.currentEpoch s)
    (hepoch : c.currentEpoch s < e)
    (hcurrent : c'.currentBindingBySubject = c.currentBindingBySubject.set s k)
    (hcurrentEpoch : c'.currentEpochBySubject = c.currentEpochBySubject.set s e) :
    Advances c c' where
  persists := hp
  last := hlast
  proposed := hproposed
  epoch t := by
    rw [currentEpoch_set hcurrentEpoch]
    split
    · next hs =>
      subst hs
      exact hepoch.le
    · exact le_rfl
  change t hne := by
    rw [currentEpoch_set hcurrentEpoch]
    split
    · next hs =>
      subst hs
      exact hepoch
    · next hs =>
      rw [hcurrent, Dict.get?_set_ne _ _ hs] at hne
      exact (hne rfl).elim
  base t j b hj hne hb := by
    rw [hcurrent] at hj
    rcases Dict.get?_set_eq_some_iff.mp hj with ⟨rfl, rfl⟩ | ⟨_, hj⟩
    · obtain rfl := Option.some.inj (hv.symm.trans hb)
      exact hbase.ge
    · exact (hne hj).elim

theorem Effect.advances {e : Effect} (h : Ledger c) (ha : e.Allowed c) :
    Advances c (e.apply c) := by
  have hp := e.persists ha
  cases e with
  | propose id subjectId locationId =>
    exact {
      persists := hp
      last := lastAllocatedEpoch_le rfl fun _ _ => rfl
      proposed := fun k b hb hk => by
        refine proposed_set (v := c.proposal id subjectId locationId) ?_ hb (fun _ hk => hk) hk
        exact lt_add_one (c.lastAllocatedEpoch subjectId)
      epoch := fun _ => le_rfl
      change := fun _ hne => (hne rfl).elim
      base := fun _ _ _ hk hne _ => (hne hk).elim }
  | activateInitial id subjectId locationId =>
    have hle := h.base_le_last subjectId
    refine Advances.of_point (v := { c.proposal id subjectId locationId with status := .active }) hp
      (lastAllocatedEpoch_le rfl fun t ht => ?_) (fun k b hb hk => ?_) (Dict.get?_set_self _ _ _) rfl
      (by omega) rfl rfl
    · rw [currentEpoch_set rfl, if_neg ht]
    · refine proposed_set (v := { c.proposal id subjectId locationId with status := .active }) ?_ hb
        (fun _ hk => hk) hk
      exact lt_add_one (c.lastAllocatedEpoch subjectId)
  | beginMigration b =>
    refine .of_same hp rfl rfl rfl fun k hk => ?_
    rcases (Dict.mem_set ..).mp hk with rfl | hk
    · exact Dict.mem_of_get? ha.1
    · exact hk
  | commitMigration b =>
    obtain ⟨_, hlt, l, hl, hle⟩ := h.allocated b.id b ha.stored
    refine Advances.of_point (v := { b with status := .active }) hp (fun s => ?_) (fun k w hw hk => ?_)
      (Dict.get?_set_self _ _ _) ha.base (ha.base ▸ hlt) rfl rfl
    · by_cases hs : b.subjectId = s
      · subst hs
        rw [lastAllocatedEpoch_of_get? hl,
          lastAllocatedEpoch_of_get? (c := apply c (.commitMigration b)) hl]
      · simp only [ContinuityCore.lastAllocatedEpoch, apply, ContinuityCore.currentEpoch,
          Dict.get?_set_ne _ _ hs, le_refl]
    · refine (hk ?_).elim
      rcases (Dict.mem_set ..).mp (Dict.mem_of_get? hw) with rfl | hw
      · exact Dict.mem_of_get? ha.stored
      · exact mem_supersededBinding.mp hw
  | createProgram | setProgramStatus | createSession | createContinuation | setLifecycle
  | createRequest | startAttempt | setExecution | createPhase | setPhaseStatus | createOutput
  | finalize | createState | setValidity | addReplica | setReplicaStatus | recordEvent
  | recordEvidence => exact .of_same hp rfl rfl rfl fun _ hk => hk

theorem Takes.advances (ht : Takes c es c') (h : Ledger c) : Advances c c' := by
  induction es generalizing c with
  | nil =>
    cases ht
    exact .refl _
  | cons e es ih =>
    have hl := Effect.ledger h ht.1
    exact (Effect.advances h ht.1).trans hl (ih ht.2 hl)

theorem Reached.advances (h : Reached c) (semanticValidity : SemanticValidity) (call : Call) :
    Advances c (Cadi.step semanticValidity c call) :=
  step_keeps (P := Advances c) h.grounded (.refl c) fun _ _ _ _ ht => ht.advances h.ledger

theorem Reached.advances_run (h : Reached c) (semanticValidity : SemanticValidity)
    (calls : List Call) : Advances c (Library.run (Cadi.step semanticValidity) c calls) := by
  induction calls generalizing c with
  | nil => exact .refl c
  | cons call calls ih =>
    have hstep := h.step semanticValidity call
    exact (h.advances semanticValidity call).trans hstep.ledger (ih hstep)

end Transitions

/-- The identifier names the current Binding of its subject. -/
def Current (c : ContinuityCore) (k : String) (b : Binding) : Prop :=
  c.bindings.get? k = some b ∧ c.currentBindingBySubject.get? b.subjectId = some k

/-- What fences competing candidates, between an earlier and a later core of a run. -/
structure Fenced (semanticValidity : SemanticValidity) (c c' : ContinuityCore) : Prop where
  distinct : ∀ k b k' b', c.bindings.get? k = some b → c.bindings.get? k' = some b' →
    b.subjectId = b'.subjectId → b.epoch = b'.epoch → k = k'
  increasing : ∀ k b k' b', c.bindings.get? k = some b → c'.bindings.get? k' = some b' →
    k' ∉ c.bindings → b.subjectId = b'.subjectId → b.epoch < b'.epoch
  epoch : ∀ s, c.currentEpoch s ≤ c'.currentEpoch s
  change : ∀ s, c.currentBindingBySubject.get? s ≠ c'.currentBindingBySubject.get? s →
    c.currentEpoch s < c'.currentEpoch s
  winner : ∀ k b k' b', Current c k b → Current c' k' b' → b.subjectId = b'.subjectId →
    b.baseEpoch = b'.baseEpoch → k = k'
  commit : ∀ clock k evidenceIds now,
    accepted semanticValidity c ⟨clock, .commitMigration k evidenceIds now⟩ = true →
    ∃ b, c.bindings.get? k = some b ∧ Current
      (step semanticValidity c ⟨clock, .commitMigration k evidenceIds now⟩) k
      { b with status := .active }
  losers : ∀ k b k' b', Current c k b → c'.bindings.get? k' = some b' →
    b.subjectId = b'.subjectId → b.baseEpoch = b'.baseEpoch → ∀ clock evidenceIds now,
    accepted semanticValidity c' ⟨clock, .commitMigration k' evidenceIds now⟩ = false

theorem Ledger.currentEpoch_of_current {c : ContinuityCore} (h : Ledger c) (hk : Current c k b) :
    c.currentEpoch b.subjectId = b.epoch := by
  obtain ⟨w, hw, _, he⟩ := h.pointer _ k hk.2
  obtain rfl := Option.some.inj (hw.symm.trans hk.1)
  exact currentEpoch_of_get? he

/-- Between any two cores of a run, in whatever order candidates are proposed and committed. -/
theorem fenced_between (semanticValidity : SemanticValidity) (before after : List Call) :
    Fenced semanticValidity (run (step semanticValidity) {} before)
      (run (step semanticValidity) {} (before ++ after)) := by
  rw [run_append]
  have hc : Reached (run (step semanticValidity) {} before) :=
    Reached.empty.run semanticValidity before
  generalize run (step semanticValidity) {} before = c at hc
  have hc' : Reached (run (step semanticValidity) c after) := hc.run semanticValidity after
  have hadvances := hc.advances_run semanticValidity after
  generalize run (step semanticValidity) c after = c' at hc' hadvances
  constructor
  case distinct => exact hc.ledger.distinct
  case increasing =>
    intro k b k' b' hb hb' hk' hs
    have hle := hc.ledger.epoch_le_last hb
    rw [hs] at hle
    exact hle.trans_lt (hadvances.proposed k' b' hb' hk')
  case epoch => exact hadvances.epoch
  case change => exact hadvances.change
  case winner =>
    intro k b k' b' hk hk' hs hbase
    by_contra hne
    have hepoch := hc.ledger.currentEpoch_of_current hk
    have hge := hadvances.base b'.subjectId k' b' hk'.2 (fun he => hne ?_) hk'.1
    · obtain ⟨_, hlt, _⟩ := hc.ledger.allocated k b hk.1
      rw [← hs] at hge
      omega
    · exact Option.some.inj (hk.2.symm.trans (hs ▸ he))
  case commit =>
    intro clock k evidenceIds now ha
    obtain ⟨b, rfl, _, hallowed, hstep⟩ := commitMigration_accepted hc.grounded ha
    refine ⟨b, hallowed.stored, ?_⟩
    rw [hstep]
    exact ⟨Dict.get?_set_self _ _ _, Dict.get?_set_self _ _ _⟩
  case losers =>
    intro k b k' b' hk hb' hs hbase clock evidenceIds now
    by_contra ha
    rw [Bool.not_eq_false] at ha
    obtain ⟨w, rfl, hcommittable, hallowed, _⟩ := commitMigration_accepted hc'.grounded ha
    obtain rfl := Option.some.inj (hallowed.stored.symm.trans hb')
    have hepoch := hc.ledger.currentEpoch_of_current hk
    have hle := hadvances.epoch b.subjectId
    obtain ⟨_, hlt, _⟩ := hc.ledger.allocated k b hk.1
    have hstale := hcommittable.base
    rw [← hs] at hstale
    omega

end Cadi
