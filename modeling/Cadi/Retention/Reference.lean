import Cadi.Retention.Tracking

namespace Cadi.Retention
open Library
set_option autoImplicit true

namespace Cache

/-- The resident States are produced and valid. -/
def Sustained (v : Cache) : Prop :=
  ∀ k ∈ v.resident, ∃ t, v.truth.get? k = some t ∧ t.valid = true ∧ t.produced = true

/-- The resident States belong to the working set. -/
def Working (v : Cache) : Prop :=
  ∀ k ∈ v.resident, ∃ t, v.truth.get? k = some t ∧ t.inWorkingSet = true

/-- Nothing was evicted and no capacity was infeasible. -/
def Quiet (v : Cache) : Prop :=
  v.outcome = .eligible ∧ ∀ r ∈ v.marks, r.2.2 ≠ .evicted ∧ r.2.2 ≠ .capacityInfeasible

theorem inWorkingSet_iff {t : Truth} : t.inWorkingSet = true ↔
    t.produced = true ∧ t.valid = true ∧ t.lifecycle ≠ .terminal := by
  simp only [Truth.inWorkingSet, Bool.and_eq_true, bne_iff_ne, ne_eq, and_assoc]

section Steps
variable {v w : Cache} {c : RetentionProgramCase} {m : C73RetentionManifest}

theorem Working.sustained (h : v.Working) : v.Sustained := by
  intro k hk
  obtain ⟨t, ht, hin⟩ := h k hk
  obtain ⟨hproduced, hvalid, _⟩ := inWorkingSet_iff.mp hin
  exact ⟨t, ht, hvalid, hproduced⟩

theorem Working.shrinks (h : v.Working) (hs : v.Shrinks w) (ht : w.truth = v.truth) :
    w.Working := by
  intro k hk
  rw [ht]
  exact h k (hs.mem hk)

theorem Quiet.mark (h : v.Quiet) (hk : kind ≠ .evicted ∧ kind ≠ .capacityInfeasible) :
    (v.mark now kind k).Quiet := by
  refine ⟨h.1, fun r hr => ?_⟩
  rcases List.mem_append.mp hr with hr | hr
  · exact h.2 r hr
  · rw [List.mem_singleton] at hr
    exact hr ▸ hk

theorem Quiet.dropAll (h : v.Quiet) (hk : kind ≠ .evicted ∧ kind ≠ .capacityInfeasible) :
    (v.dropAll now kind ids).Quiet := by
  induction ids generalizing v with
  | nil => exact h
  | cons k ids ih => exact ih (Quiet.mark (v := v.drop k) h hk)

theorem Quiet.settle (h : v.Quiet) (e : RetentionEvent) : (v.settle e).Quiet := by
  unfold Cache.settle
  split
  · split
    · apply Quiet.mark _ (by decide)
      split <;> exact h
    · exact h
  · exact h

theorem Quiet.update (h : v.Quiet) (e : RetentionEvent) : (v.update e).Quiet := by
  unfold Cache.update
  split
  · split
    · exact Quiet.mark h (by decide)
    · exact h
  · exact Quiet.mark h (by decide)
  · exact h

theorem Quiet.reuse (h : v.Quiet) (e : RetentionEvent) : (v.reuse e).Quiet := by
  unfold Cache.reuse
  split
  · split
    · split
      · exact h.mark (by decide)
      · split
        · exact h.mark (by decide)
        · exact Quiet.mark h (by decide)
    · exact h
  · exact h

theorem Quiet.recorded (h : v.Quiet)
    (hr : Recorded [.admitted, .admissionSkipped, .checkpoint] v w) : w.Quiet := by
  obtain ⟨_, _, _, houtcome, more, hmarks, hkinds⟩ := hr
  refine ⟨houtcome.trans h.1, fun r hr => ?_⟩
  rw [hmarks] at hr
  rcases List.mem_append.mp hr with hr | hr
  · exact h.2 r hr
  · have hkind := hkinds r hr
    simp only [List.mem_cons, List.not_mem_nil, or_false] at hkind
    rcases hkind with h | h | h <;> rw [h] <;> decide

theorem Sustained.settle (h : v.Sustained) (e : RetentionEvent) : (v.settle e).Sustained := by
  intro k hk
  obtain ⟨t, ht, hvalid, hproduced⟩ := h k ((settle_shrinks v e).mem hk)
  by_cases he : e.action = .invalidate k
  · have hmem : k ∈ v.resident := (settle_shrinks v e).mem hk
    unfold Cache.settle at hk
    simp only [he, ht, hmem, ↓reduceIte, mark_resident, drop_resident, Dict.mem_erase, ne_eq,
      not_true_eq_false, false_and] at hk
  · refine ⟨t, ?_, hvalid, hproduced⟩
    rw [settle_get?, ht, Option.map_some, Truth.invalidate, if_neg he]

theorem Sustained.update (h : v.Sustained) (e : RetentionEvent) : (v.update e).Sustained := by
  intro k hk
  rw [update_resident] at hk
  obtain ⟨t, ht, hvalid, hproduced⟩ := h k hk
  have hkeeps : (t.derive k e).valid = t.valid ∧ (t.derive k e).produced = t.produced := by
    unfold Truth.derive
    split
    · split
      · split <;> exact ⟨rfl, rfl⟩
      · exact ⟨rfl, rfl⟩
    · exact ⟨rfl, rfl⟩
  refine ⟨t.derive k e, ?_, hkeeps.1.trans hvalid, hkeeps.2.trans hproduced⟩
  rw [update_get?, ht, Option.map_some]

/-- Under B4 only States of the working set are left after the releases. -/
theorem Working.settled (hp : m.retentionPolicyId = .lifecycleB4) (h : v.Working)
    (now : Time) (events : List RetentionEvent) : (v.settled c m now events).Working := by
  have hsettled : (events.foldl Cache.settle v).Sustained :=
    List.foldlRecOn events Cache.settle h.sustained fun _ hv e _ => hv.settle e
  have hsustained : (events.foldl Cache.update (events.foldl Cache.settle v)).Sustained :=
    List.foldlRecOn events Cache.update hsettled fun _ hv e _ => hv.update e
  intro k hk
  obtain ⟨r, hr⟩ := Dict.mem_iff.mp hk
  unfold Cache.settled at hr ⊢
  dsimp only at hr ⊢
  rw [get?_dropAll] at hr
  rw [dropAll_truth]
  generalize events.foldl Cache.update (events.foldl Cache.settle v) = u at hr hsustained ⊢
  obtain ⟨t, ht, hvalid, hproduced⟩ := hsustained k (Dict.mem_of_get? hr.2)
  refine ⟨t, ht, inWorkingSet_iff.mpr ⟨hproduced, hvalid, fun hterminal => hr.1 ?_⟩⟩
  rw [mem_sortedIds, List.mem_filter]
  refine ⟨Dict.mem_of_get? hr.2, ?_⟩
  unfold Cache.releases
  rw [hp]
  simp only [ht, Option.map_some, hterminal, decide_true]

theorem Quiet.settled (h : v.Quiet) : (v.settled c m now events).Quiet := by
  have hsettled : (events.foldl Cache.settle v).Quiet :=
    List.foldlRecOn events Cache.settle h fun _ hv e _ => hv.settle e
  have hupdated : (events.foldl Cache.update (events.foldl Cache.settle v)).Quiet :=
    List.foldlRecOn events Cache.update hsettled fun _ hv e _ => hv.update e
  exact hupdated.dropAll (by decide)

theorem Quiet.served (h : v.Quiet) : (v.served m now events).Quiet := by
  have hexpired : (v.expireAll m now).Quiet := by
    unfold Cache.expireAll
    split
    · exact h.dropAll (by decide)
    · exact h
  exact List.foldlRecOn events Cache.reuse hexpired fun _ hv e _ => hv.reuse e

theorem settled_get? (v : Cache) (k : String) :
    (v.settled c m now events).truth.get? k = (v.truth.get? k).map fun t =>
      events.foldl (Truth.derive k) (events.foldl (Truth.invalidate k) t) := by
  unfold settled
  dsimp only
  rw [dropAll_truth, updates_get?, settles_get?, Option.map_map]
  rfl

theorem served_truth (v : Cache) : (v.served m now events).truth = v.truth := by
  unfold served
  rw [reuses_truth]
  unfold expireAll
  split
  · exact dropAll_truth
  · rfl

end Steps

end Cache

section WorkingSets
variable {c : RetentionProgramCase} {truth : Dict String Truth}

theorem workingSetBytes_eq (ha : Accepted c) (hd : ∀ k ∈ truth, k ∈ c.stateIds) :
    workingSetBytes c truth =
      .ok (c73DefaultStateBytes * (truth.select fun p => p.2.inWorkingSet).length) := by
  apply ha.bytesOf
  intro k hk
  obtain ⟨t, ht, _⟩ := Dict.mem_select.mp hk
  exact hd k (Dict.mem_of_get? ht)

theorem bytes_le_workingSet (ha : Accepted c) (hd : ∀ k ∈ truth, k ∈ c.stateIds)
    (hsize : workingSetBytes c truth = .ok size) {ids : List String} (hn : ids.Nodup)
    (hids : ∀ k ∈ ids, ∃ t, truth.get? k = some t ∧ t.inWorkingSet = true) :
    c73DefaultStateBytes * ids.length ≤ size := by
  rw [workingSetBytes_eq ha hd, Except.ok.injEq] at hsize
  rw [← hsize]
  apply Nat.mul_le_mul_left
  exact (List.subperm_of_subset hn fun k hk => Dict.mem_select.mpr (hids k hk)).length_le

theorem le_largestWorkingSet {l : List Instant} (h : largestWorkingSet c l truth largest = .ok reference) :
    largest ≤ reference := by
  induction l generalizing truth largest with
  | nil => exact (Except.ok.inj h).le
  | cons i l ih =>
    obtain ⟨next, _, h⟩ := Except.bind_eq_ok.mp h
    obtain ⟨current, _, h⟩ := Except.bind_eq_ok.mp h
    exact (Nat.le_max_left _ _).trans (ih h)

theorem advanceTruths_mem {events : List RetentionEvent}
    (h : events.foldlM advanceTruth truth = .ok truth') (hk : k ∈ truth') : k ∈ truth := by
  obtain ⟨t, ht⟩ := Dict.mem_iff.mp hk
  rw [advanceTruths_get? h, Option.map_eq_some_iff] at ht
  obtain ⟨t', ht', _⟩ := ht
  exact Dict.mem_of_get? ht'

end WorkingSets

end Cadi.Retention
