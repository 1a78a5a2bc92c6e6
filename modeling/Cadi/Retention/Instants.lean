import Cadi.Retention.Program

namespace Cadi.Retention
open Library
set_option autoImplicit true

/-- The instants divide the events by their times. -/
structure Groups (events : List RetentionEvent) (l : List Instant) : Prop where
  perm : (l.flatMap Prod.snd).Perm events
  timed : ∀ i ∈ l, i.2 ≠ [] ∧ ∀ e ∈ i.2, e.timeSeconds.units = i.1.units
  distinct : (l.map (·.1.units)).Nodup

section Grouping
variable {e : RetentionEvent} {l : List Instant}

theorem addEvent_perm (e : RetentionEvent) (l : List Instant) :
    ((addEvent e l).flatMap Prod.snd).Perm (e :: l.flatMap Prod.snd) := by
  induction l with
  | nil => exact .refl _
  | cons i l ih =>
    obtain ⟨t, es⟩ := i
    unfold addEvent
    split
    · simp only [List.flatMap_cons, List.append_assoc]
      exact List.perm_middle
    · simp only [List.flatMap_cons]
      exact (ih.append_left es).trans List.perm_middle

theorem addEvent_keys (e : RetentionEvent) (l : List Instant) :
    (addEvent e l).map (·.1.units) =
      if e.timeSeconds.units ∈ l.map (·.1.units) then l.map (·.1.units)
      else l.map (·.1.units) ++ [e.timeSeconds.units] := by
  induction l with
  | nil => rfl
  | cons i l ih =>
    obtain ⟨t, es⟩ := i
    by_cases ht : t.units = e.timeSeconds.units
    · simp only [addEvent, ht, ↓reduceIte, List.map_cons, List.mem_cons, true_or]
    · have ht' : ¬ e.timeSeconds.units = t.units := Ne.symm ht
      simp only [addEvent, ht, ↓reduceIte, List.map_cons, ih, List.mem_cons, ht', false_or]
      split <;> rfl

theorem mem_addEvent (h : i ∈ addEvent e l) : i ∈ l ∨
    ∃ es, i.2 = es ++ [e] ∧ i.1.units = e.timeSeconds.units ∧ (es = [] ∨ (i.1, es) ∈ l) := by
  induction l with
  | nil =>
    rw [addEvent, List.mem_singleton] at h
    exact .inr ⟨[], by rw [h]; rfl, by rw [h], .inl rfl⟩
  | cons j l ih =>
    obtain ⟨t, es⟩ := j
    unfold addEvent at h
    split at h
    · next ht =>
      rcases List.mem_cons.mp h with rfl | h
      · exact .inr ⟨es, rfl, ht, .inr List.mem_cons_self⟩
      · exact .inl (List.mem_cons_of_mem _ h)
    · rcases List.mem_cons.mp h with rfl | h
      · exact .inl List.mem_cons_self
      · rcases ih h with hl | ⟨es', hes, ht, hin⟩
        · exact .inl (List.mem_cons_of_mem _ hl)
        · exact .inr ⟨es', hes, ht, hin.imp_right (List.mem_cons_of_mem _)⟩

theorem Groups.add (h : Groups events l) (e : RetentionEvent) :
    Groups (e :: events) (addEvent e l) := by
  refine ⟨(addEvent_perm e l).trans (h.perm.cons e), fun i hi => ?_, ?_⟩
  · rcases mem_addEvent hi with hi | ⟨es, hes, ht, hin⟩
    · exact h.timed i hi
    · rw [hes]
      refine ⟨List.append_ne_nil_of_right_ne_nil _ (List.cons_ne_nil e []), fun e' he' => ?_⟩
      rcases List.mem_append.mp he' with he' | he'
      · rcases hin with rfl | hin
        · cases he'
        · exact (h.timed _ hin).2 e' he'
      · rw [List.mem_singleton] at he'
        exact he' ▸ ht.symm
  · rw [addEvent_keys]
    split
    · exact h.distinct
    · next hout =>
      apply h.distinct.append (List.nodup_singleton _)
      exact List.disjoint_singleton.mpr hout

theorem grouped_groups (events : List RetentionEvent) : Groups events (grouped events) := by
  have hloop (es seen : List RetentionEvent) (l : List Instant) (h : Groups seen l) :
      Groups (es.reverse ++ seen) (es.foldl (fun instants e => addEvent e instants) l) := by
    induction es generalizing seen l with
    | nil => exact h
    | cons e es ih =>
      rw [List.reverse_cons, List.append_assoc]
      exact ih _ _ (h.add e)
  have h := hloop events [] [] ⟨.nil, fun _ hi => (List.not_mem_nil hi).elim, .nil⟩
  rw [List.append_nil] at h
  exact ⟨h.perm.trans (List.reverse_perm events), h.timed, h.distinct⟩

end Grouping

section Ordering

theorem ordered_perm (events : List RetentionEvent) : (ordered events).Perm events :=
  List.perm_insertionSort _ events

theorem Groups.map_ordered (h : Groups events l) :
    Groups events (l.map fun i => (i.1, ordered i.2)) := by
  refine ⟨?_, fun i hi => ?_, ?_⟩
  · rw [List.flatMap_map]
    exact (List.Perm.flatMap_left l fun i _ => ordered_perm i.2).trans h.perm
  · obtain ⟨j, hj, rfl⟩ := List.mem_map.mp hi
    obtain ⟨hne, htimed⟩ := h.timed j hj
    refine ⟨fun hnil => hne ?_, fun e he => htimed e ((ordered_perm j.2).mem_iff.mp he)⟩
    exact List.Perm.eq_nil (hnil ▸ (ordered_perm j.2).symm)
  · rw [List.map_map]
    exact h.distinct

instance : Std.Total fun a b : Instant => a.1 ≤ b.1 := ⟨fun a b => Nat.le_total a.1.units b.1.units⟩

instance : IsTrans Instant fun a b => a.1 ≤ b.1 := ⟨fun _ _ _ h h' => h.trans h'⟩

/-- The instants divide the events of the case. -/
theorem instants_groups (events : List RetentionEvent) : Groups events (instants events) := by
  have hgrouped := grouped_groups events
  have hperm := List.perm_insertionSort (fun a b : Instant => a.1 ≤ b.1) (grouped events)
  refine Groups.map_ordered ⟨(hperm.flatMap_right _).trans hgrouped.perm,
    fun i hi => hgrouped.timed i (hperm.mem_iff.mp hi), ?_⟩
  exact (hperm.map _).nodup_iff.mpr hgrouped.distinct

theorem instants_increase (events : List RetentionEvent) :
    (instants events).Pairwise fun i j => i.1 < j.1 := by
  have hsorted : (instants events).Pairwise fun i j => i.1 ≤ j.1 := by
    unfold instants
    rw [List.pairwise_map]
    exact List.pairwise_insertionSort (fun a b : Instant => a.1 ≤ b.1) (grouped events)
  have hdistinct : (instants events).Pairwise fun i j => i.1.units ≠ j.1.units :=
    List.pairwise_map.mp (instants_groups events).distinct
  exact hsorted.imp₂ (fun _ _ hle hne => Time.lt_iff.mpr (Nat.lt_of_le_of_ne hle hne)) hdistinct

/-- The length of the work that instants ask for: each of them and each of their events. -/
def work (l : List Instant) : Nat := l.length + (l.flatMap Prod.snd).length

theorem work_cons (i : Instant) (l : List Instant) : work (i :: l) = 1 + i.2.length + work l := by
  unfold work
  rw [List.flatMap_cons, List.length_append, List.length_cons]
  omega

theorem work_instants (events : List RetentionEvent) :
    work (instants events) = (instants events).length + events.length := by
  rw [work, (instants_groups events).perm.length_eq]

end Ordering

end Cadi.Retention
