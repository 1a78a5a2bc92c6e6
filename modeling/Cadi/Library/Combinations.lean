import Mathlib.Data.List.Sort
import Mathlib.Data.List.Nodup
import Mathlib.Algebra.GroupWithZero.Nat

namespace Library
set_option autoImplicit true

/-- The choices of a number of elements in the order of the list, with or without repetition; they
come in lexicographic order. -/
def choices (repeated : Bool) : Nat → List α → List (List α)
  | 0, _ => [[]]
  | k + 1, xs => xs.tails.flatMap fun
    | [] => []
    | x :: t => (choices repeated k (if repeated then x :: t else t)).map (x :: ·)

/-- What may follow an element in a choice. -/
def Follows [LinearOrder α] (repeated : Bool) (a b : α) : Prop := if repeated then a ≤ b else a < b

section Choices
variable {repeated : Bool} {xs t c : List α}

@[simp] theorem choices_zero (xs : List α) : choices repeated 0 xs = [[]] := by
  rw [choices]

@[simp] theorem choices_nil (k : Nat) : choices repeated (k + 1) ([] : List α) = [] := by
  rw [choices, List.tails, List.flatMap_singleton]

theorem choices_cons (k : Nat) (x : α) (t : List α) : choices repeated (k + 1) (x :: t) =
    (choices repeated k (if repeated then x :: t else t)).map (x :: ·) ++
      choices repeated (k + 1) t := by
  rw [choices, List.tails, List.flatMap_cons, choices]

variable [LinearOrder α]

theorem Follows.le {a b : α} (h : Follows repeated a b) : a ≤ b := by
  cases repeated with
  | true => exact h
  | false => exact le_of_lt (α := α) h

/-- The choices are the lists of the given length whose elements follow one another. -/
theorem mem_choices (hs : xs.Pairwise (· < ·)) {k : Nat} :
    c ∈ choices repeated k xs ↔ c.length = k ∧ c ⊆ xs ∧ c.Pairwise (Follows repeated) := by
  induction k generalizing xs c with
  | zero =>
    rw [choices_zero, List.mem_singleton, List.length_eq_zero_iff]
    constructor
    · rintro rfl
      exact ⟨rfl, List.nil_subset _, .nil⟩
    · exact And.left
  | succ k ih =>
    induction xs generalizing c with
    | nil =>
      rw [choices_nil]
      constructor
      · exact fun h => (List.not_mem_nil h).elim
      · rintro ⟨hlen, hsub, _⟩
        rw [List.subset_nil.mp hsub] at hlen
        cases hlen
    | cons x t iht =>
      obtain ⟨hx, ht⟩ := List.pairwise_cons.mp hs
      have hrest : (if repeated then x :: t else t).Pairwise (· < ·) := by
        cases repeated with
        | true => exact hs
        | false => exact ht
      have hmem (b : α) : b ∈ (if repeated then x :: t else t) ↔ b ∈ x :: t ∧ Follows repeated x b := by
        cases repeated with
        | true =>
          refine ⟨fun hb => ⟨hb, ?_⟩, And.left⟩
          rcases List.mem_cons.mp hb with rfl | hb
          · exact le_refl (α := α) b
          · exact le_of_lt (hx b hb)
        | false =>
          refine ⟨fun hb => ⟨List.mem_cons_of_mem _ hb, hx b hb⟩, fun ⟨hb, hlt⟩ => ?_⟩
          rcases List.mem_cons.mp hb with rfl | hb
          · exact (lt_irrefl (α := α) b hlt).elim
          · exact hb
      rw [choices_cons, List.mem_append, iht ht, List.mem_map]
      constructor
      · rintro (⟨c', hc', rfl⟩ | ⟨hlen, hsub, hpair⟩)
        · obtain ⟨hlen, hsub, hpair⟩ := (ih hrest).mp hc'
          refine ⟨congrArg Nat.succ hlen, List.cons_subset.mpr ⟨List.mem_cons_self, ?_⟩, ?_⟩
          · exact fun b hb => ((hmem b).mp (hsub hb)).1
          · exact List.pairwise_cons.mpr ⟨fun b hb => ((hmem b).mp (hsub hb)).2, hpair⟩
        · exact ⟨hlen, fun b hb => List.mem_cons_of_mem _ (hsub hb), hpair⟩
      · rintro ⟨hlen, hsub, hpair⟩
        cases c with
        | nil => cases hlen
        | cons a c' =>
          obtain ⟨ha, hsub'⟩ := List.cons_subset.mp hsub
          obtain ⟨hfollow, hpair'⟩ := List.pairwise_cons.mp hpair
          rcases List.mem_cons.mp ha with rfl | hat
          · refine .inl ⟨c', (ih hrest).mpr ⟨Nat.succ.inj hlen, fun b hb => ?_, hpair'⟩, rfl⟩
            exact (hmem b).mpr ⟨hsub' hb, hfollow b hb⟩
          · -- nothing that follows an element of the tail is the head
            refine .inr ⟨hlen, List.cons_subset.mpr ⟨hat, fun b hb => ?_⟩, hpair⟩
            refine (List.mem_cons.mp (hsub' hb)).resolve_left fun he => ?_
            exact not_lt_of_ge (he ▸ (hfollow b hb).le) (hx a hat)

theorem nodup_choices (hs : xs.Pairwise (· < ·)) (k : Nat) : (choices repeated k xs).Nodup := by
  induction k generalizing xs with
  | zero =>
    rw [choices_zero]
    exact List.nodup_singleton _
  | succ k ih =>
    induction xs with
    | nil =>
      rw [choices_nil]
      exact List.nodup_nil
    | cons x t iht =>
      obtain ⟨hx, ht⟩ := List.pairwise_cons.mp hs
      have hrest : (if repeated then x :: t else t).Pairwise (· < ·) := by
        cases repeated with
        | true => exact hs
        | false => exact ht
      rw [choices_cons]
      apply List.Nodup.append
      · exact (ih hrest).map fun _ _ h => (List.cons.inj h).2
      · exact iht ht
      · -- the choices from the tail do not contain the head
        intro c hc hc'
        obtain ⟨c'', _, rfl⟩ := List.mem_map.mp hc
        have hxt := ((mem_choices ht).mp hc').2.1 List.mem_cons_self
        exact lt_irrefl x (hx x hxt)

end Choices

end Library
