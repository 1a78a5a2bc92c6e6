import Mathlib.Data.List.MinMax
import Mathlib.Data.List.FinRange
import Mathlib.Data.List.Perm.Subperm
import Mathlib.Data.Prod.Lex
import Mathlib.Order.Fin.Basic

namespace Library
set_option autoImplicit true

section Earliest
variable [LinearOrder τ] {slots : List τ}

/-- The slot that is free first, the first such one on ties. -/
def earliest (slots : List τ) : Option (Fin slots.length) :=
  (List.finRange slots.length).argmin fun i => toLex (slots.get i, i)

theorem earliest_exists (h : slots ≠ []) : ∃ i, earliest slots = some i := by
  apply Option.ne_none_iff_exists'.mp
  intro hnone
  have hempty := List.finRange_eq_nil_iff.mp (List.argmin_eq_none.mp hnone)
  exact h (List.length_eq_zero_iff.mp hempty)

theorem earliest_le {i : Fin slots.length} (h : earliest slots = some i) :
    ∀ v ∈ slots, slots.get i ≤ v := by
  intro v hv
  obtain ⟨j, rfl⟩ := List.get_of_mem hv
  rcases Prod.Lex.le_iff.mp (List.le_of_mem_argmin (List.mem_finRange j) h) with hlt | ⟨heq, _⟩
  · exact le_of_lt hlt
  · exact le_of_eq heq

end Earliest

/-- An interval on a slot of a machine. -/
structure Booking (μ τ : Type) where
  machine : μ
  slot : Nat
  start : τ
  stop : τ
deriving DecidableEq

section Bookings
variable [LinearOrder τ]

/-- Whether the interval, which is half open, holds an instant. -/
def Booking.covers (b : Booking μ τ) (t : τ) : Prop := b.start ≤ t ∧ t < b.stop

instance (b : Booking μ τ) (t : τ) : Decidable (b.covers t) :=
  inferInstanceAs (Decidable (b.start ≤ t ∧ t < b.stop))

/-- Two bookings of a slot, of which the first was made first. -/
def Booking.Before (a b : Booking μ τ) : Prop :=
  a.machine = b.machine → a.slot = b.slot → a.stop ≤ b.start

variable {capacity : μ → Nat} {bookings : List (Booking μ τ)}

/-- Bookings that follow one another on each slot never use more slots than there are. -/
theorem covers_le_capacity [DecidableEq μ] (hslot : ∀ b ∈ bookings, b.slot < capacity b.machine)
    (hbefore : bookings.Pairwise Booking.Before) (m : μ) (t : τ) :
    bookings.countP (fun b => b.machine = m ∧ b.covers t) ≤ capacity m := by
  rw [List.countP_eq_length_filter]
  have hmem {b : Booking μ τ} (hb : b ∈ bookings.filter fun b => b.machine = m ∧ b.covers t) :
      b ∈ bookings ∧ b.machine = m ∧ b.covers t := by
    simpa only [List.mem_filter, decide_eq_true_eq] using hb
  have hnodup : ((bookings.filter fun b => b.machine = m ∧ b.covers t).map Booking.slot).Nodup := by
    refine List.pairwise_map.mpr ((hbefore.filter _).imp_of_mem fun ha hb hab heq => ?_)
    obtain ⟨-, hma, -, hstop⟩ := hmem ha
    obtain ⟨-, hmb, hstart, -⟩ := hmem hb
    exact not_lt_of_ge (hab (hma.trans hmb.symm) heq) (lt_of_le_of_lt hstart hstop)
  have hsub : (bookings.filter fun b => b.machine = m ∧ b.covers t).map Booking.slot ⊆
      List.range (capacity m) := by
    intro k hk
    obtain ⟨b, hb, rfl⟩ := List.mem_map.mp hk
    obtain ⟨hbooked, rfl, -⟩ := hmem hb
    exact List.mem_range.mpr (hslot b hbooked)
  have hlen := (List.subperm_of_subset hnodup hsub).length_le
  rwa [List.length_map, List.length_range] at hlen

/-- The slots of each machine after some bookings: each slot is free at its ready time, or when its
last booking stops. -/
structure SlotsAfter (capacity : μ → Nat) (ready : μ → τ) (bookings : List (Booking μ τ))
    (slots : μ → List τ) : Prop where
  width : ∀ m, (slots m).length = capacity m
  ready_le : ∀ m, ∀ v ∈ slots m, ready m ≤ v
  slot_lt : ∀ b ∈ bookings, b.slot < capacity b.machine
  before : bookings.Pairwise Booking.Before
  stop_le : ∀ b ∈ bookings, ∀ v, (slots b.machine)[b.slot]? = some v → b.stop ≤ v
  latest : ∀ m k v, (slots m)[k]? = some v →
    v = ready m ∨ ∃ b ∈ bookings, b.machine = m ∧ b.slot = k ∧ b.stop = v

variable {ready : μ → τ} {slots : μ → List τ}

theorem SlotsAfter.none : SlotsAfter capacity ready ([] : List (Booking μ τ))
    fun m => List.replicate (capacity m) (ready m) where
  width _ := List.length_replicate
  ready_le _ _ hv := le_of_eq (List.eq_of_mem_replicate hv).symm
  slot_lt _ hb := (List.not_mem_nil hb).elim
  before := .nil
  stop_le _ hb := (List.not_mem_nil hb).elim
  latest _ _ _ hv := .inl (List.eq_of_mem_replicate (List.mem_of_getElem? hv))

/-- While even the slot that is free first is not free, every slot is booked or not ready. -/
theorem SlotsAfter.occupied (h : SlotsAfter capacity ready bookings slots) {m : μ} {t : τ}
    (ht : ∀ v ∈ slots m, t < v) {k : Nat} (hk : k < capacity m) :
    t < ready m ∨ ∃ b ∈ bookings, b.machine = m ∧ b.slot = k ∧ t < b.stop := by
  rw [← h.width m] at hk
  have hv := List.getElem?_eq_getElem hk
  have hlt := ht _ (List.getElem_mem hk)
  rcases h.latest m k _ hv with heq | ⟨b, hb, hm, hslot, hstop⟩
  · exact .inl (heq ▸ hlt)
  · exact .inr ⟨b, hb, hm, hslot, hstop ▸ hlt⟩

variable [DecidableEq μ]

theorem SlotsAfter.book (h : SlotsAfter capacity ready bookings slots) (b : Booking μ τ)
    {v : τ} (hv : (slots b.machine)[b.slot]? = some v) (hstart : v ≤ b.start)
    (hstop : b.start ≤ b.stop) : SlotsAfter capacity ready (bookings ++ [b])
      (Function.update slots b.machine ((slots b.machine).set b.slot b.stop)) := by
  have hready : ready b.machine ≤ b.stop :=
    ((h.ready_le b.machine v (List.mem_of_getElem? hv)).trans hstart).trans hstop
  have hwidth : b.slot < (slots b.machine).length := (List.getElem?_eq_some_iff.mp hv).1
  have hget (m : μ) (k : Nat) :
      (Function.update slots b.machine ((slots b.machine).set b.slot b.stop) m)[k]? =
        if m = b.machine ∧ k = b.slot then some b.stop else (slots m)[k]? := by
    by_cases hm : m = b.machine
    · rw [hm, Function.update_self, List.getElem?_set, if_pos hwidth]
      by_cases hk : b.slot = k
      · simp [hk]
      · simp [hk, Ne.symm hk]
    · rw [Function.update_of_ne hm, if_neg fun h => hm h.1]
  constructor
  · intro m
    by_cases hm : m = b.machine
    · rw [hm, Function.update_self, List.length_set, h.width]
    · rw [Function.update_of_ne hm, h.width]
  · intro m w hw
    by_cases hm : m = b.machine
    · rw [hm, Function.update_self] at hw
      rcases List.mem_or_eq_of_mem_set hw with hw | rfl
      · exact hm ▸ h.ready_le b.machine w hw
      · exact hm ▸ hready
    · rw [Function.update_of_ne hm] at hw
      exact h.ready_le m w hw
  · intro a ha
    rcases List.mem_append.mp ha with ha | ha
    · exact h.slot_lt a ha
    · rw [List.mem_singleton.mp ha, ← h.width]
      exact hwidth
  · refine List.pairwise_append.mpr ⟨h.before, List.pairwise_singleton _ _, fun a ha c hc => ?_⟩
    rw [List.mem_singleton.mp hc]
    intro hm hk
    exact (h.stop_le a ha v (by rw [hm, hk, hv])).trans hstart
  · intro a ha w hw
    rw [hget] at hw
    rcases List.mem_append.mp ha with ha | ha
    · split at hw
      · rename_i heq
        obtain rfl := Option.some.inj hw
        exact ((h.stop_le a ha v (by rw [heq.1, heq.2, hv])).trans hstart).trans hstop
      · exact h.stop_le a ha w hw
    · obtain rfl := List.mem_singleton.mp ha
      rw [if_pos ⟨rfl, rfl⟩] at hw
      exact le_of_eq (Option.some.inj hw)
  · intro m k w hw
    rw [hget] at hw
    split at hw
    · rename_i heq
      obtain rfl := Option.some.inj hw
      exact .inr ⟨b, List.mem_append_right _ List.mem_cons_self, heq.1.symm, heq.2.symm, rfl⟩
    · rcases h.latest m k w hw with hw | ⟨a, ha, hrest⟩
      · exact .inl hw
      · exact .inr ⟨a, List.mem_append_left _ ha, hrest⟩

end Bookings

section Dominance
variable [LinearOrder τ] {slots slots' : List τ}

/-- As many slots, of which at each instant no more are still taken: the sorted times are no later. -/
structure Dominated (slots' slots : List τ) : Prop where
  length_eq : slots'.length = slots.length
  count_le : ∀ t, slots'.countP (t < ·) ≤ slots.countP (t < ·)

theorem Dominated.refl (slots : List τ) : Dominated slots slots := ⟨rfl, fun _ => le_refl _⟩

theorem Dominated.first_le (h : Dominated slots' slots) {v v' : τ} (hv : v ∈ slots)
    (hleast : ∀ w ∈ slots', v' ≤ w) : v' ≤ v := by
  by_contra hlt
  have hall : slots'.countP (v < ·) = slots'.length :=
    List.countP_eq_length.mpr fun w hw => decide_eq_true (lt_of_lt_of_le (not_le.mp hlt) (hleast w hw))
  have hnot : slots.countP (v < ·) < slots.length := by
    refine lt_of_le_of_ne List.countP_le_length fun heq => ?_
    exact lt_irrefl v (of_decide_eq_true (List.countP_eq_length.mp heq v hv))
  have hle := h.count_le v
  rw [hall, h.length_eq] at hle
  exact not_lt_of_ge hle hnot

theorem countP_set {i : Nat} (hi : i < slots.length) (c t : τ) :
    (slots.set i c).countP (t < ·) + (if t < slots[i] then 1 else 0) =
      slots.countP (t < ·) + (if t < c then 1 else 0) := by
  induction slots generalizing i with
  | nil => cases hi
  | cons v slots ih =>
    cases i with
    | zero =>
      simp only [List.set_cons_zero, List.countP_cons, List.getElem_cons_zero, decide_eq_true_eq]
      omega
    | succ i =>
      have htail := ih (Nat.lt_of_succ_lt_succ hi)
      simp only [List.set_cons_succ, List.countP_cons, List.getElem_cons_succ, decide_eq_true_eq]
      omega

theorem Dominated.set (h : Dominated slots' slots) {i i' : Nat} (hi : i < slots.length)
    (hi' : i' < slots'.length) (hfirst : ∀ v ∈ slots, slots[i] ≤ v)
    (hfirst' : ∀ v ∈ slots', slots'[i'] ≤ v) {c c' : τ} (hc : slots[i] ≤ c) (hle : c' ≤ c) :
    Dominated (slots'.set i' c') (slots.set i c) := by
  refine ⟨by rw [List.length_set, List.length_set, h.length_eq], fun t => ?_⟩
  have hset := countP_set hi c t
  have hset' := countP_set hi' c' t
  have hcount := h.count_le t
  have hlength := List.countP_le_length (p := (t < ·)) (l := slots'.set i' c')
  rw [List.length_set, h.length_eq] at hlength
  by_cases ht : t < slots[i]
  · -- every slot of the later side is still taken, before and after
    have hall : slots.countP (t < ·) = slots.length :=
      List.countP_eq_length.mpr fun w hw => decide_eq_true (lt_of_lt_of_le ht (hfirst w hw))
    rw [if_pos ht, if_pos (lt_of_lt_of_le ht hc)] at hset
    omega
  · have ht' : ¬ t < slots'[i'] := fun hlt =>
      ht (lt_of_lt_of_le hlt (h.first_le (List.getElem_mem hi) hfirst'))
    rw [if_neg ht] at hset
    rw [if_neg ht'] at hset'
    by_cases htc : t < c'
    · rw [if_pos htc] at hset'
      rw [if_pos (lt_of_lt_of_le htc hle)] at hset
      omega
    · rw [if_neg htc] at hset'
      omega

end Dominance

end Library
