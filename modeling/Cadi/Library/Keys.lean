import Mathlib.Data.List.Sort
import Mathlib.Data.Prod.Lex

namespace Library
set_option autoImplicit true

/-- The elements in the order of their keys; equal keys keep their order. -/
def sortedBy [LinearOrder κ] (key : α → κ) (l : List α) : List α :=
  l.insertionSort fun a b => key a ≤ key b

section Sorting
variable [LinearOrder κ] {key : α → κ} {l m : List α}

theorem perm_sortedBy (key : α → κ) (l : List α) : (sortedBy key l).Perm l :=
  List.perm_insertionSort _ l

@[simp] theorem mem_sortedBy : a ∈ sortedBy key l ↔ a ∈ l := (perm_sortedBy key l).mem_iff

theorem pairwise_sortedBy (key : α → κ) (l : List α) :
    (sortedBy key l).Pairwise fun a b => key a ≤ key b :=
  List.pairwise_insertionSort (fun a b => key a ≤ key b) l

/-- Elements that their keys tell apart have only one sorted order. -/
theorem eq_of_sorted (key : α → κ) (hinj : ∀ a ∈ l, ∀ b ∈ l, key a = key b → a = b) (hperm : l.Perm m)
    (hl : l.Pairwise fun a b => key a ≤ key b) (hm : m.Pairwise fun a b => key a ≤ key b) : l = m := by
  refine hperm.eq_of_pairwise (fun a b ha hb hab hba => ?_) hl hm
  exact hinj a ha b (hperm.mem_iff.mpr hb) (le_antisymm hab hba)

theorem sortedBy_perm (hinj : ∀ a ∈ l, ∀ b ∈ l, key a = key b → a = b) (hperm : l.Perm m) :
    sortedBy key l = sortedBy key m := by
  have hl := perm_sortedBy key l
  refine eq_of_sorted key ?_ (hl.trans (hperm.trans (perm_sortedBy key m).symm)) (pairwise_sortedBy key l)
    (pairwise_sortedBy key m)
  exact fun a ha b hb => hinj a (hl.mem_iff.mp ha) b (hl.mem_iff.mp hb)

/-- Putting the elements with a property first keeps the order on both sides. -/
theorem sortedBy_partition (p : α → Prop) [DecidablePred p]
    (hinj : ∀ a ∈ l, ∀ b ∈ l, key a = key b → a = b) :
    sortedBy (fun a => toLex (if p a then 0 else 1, key a)) l =
      (sortedBy key l).filter (p ·) ++ (sortedBy key l).filter (¬ p ·) := by
  have hsorted := pairwise_sortedBy key l
  have hl := perm_sortedBy (fun a => toLex (if p a then 0 else 1, key a)) l
  refine eq_of_sorted (fun a => toLex (if p a then 0 else 1, key a)) ?_ ?_
    (pairwise_sortedBy _ l) ?_
  · intro a ha b hb hab
    exact hinj a (hl.mem_iff.mp ha) b (hl.mem_iff.mp hb) (Prod.mk.inj (toLex.injective hab)).2
  · refine hl.trans ((perm_sortedBy key l).symm.trans ?_)
    simpa using (List.filter_append_perm (p ·) (sortedBy key l)).symm
  · rw [List.pairwise_append]
    refine ⟨?_, ?_, ?_⟩
    · refine (hsorted.filter _).imp_of_mem fun {a b} ha hb hab => ?_
      have hpa : p a := by simpa using (List.mem_filter.mp ha).2
      have hpb : p b := by simpa using (List.mem_filter.mp hb).2
      rw [if_pos hpa, if_pos hpb]
      exact Prod.Lex.le_iff.mpr (.inr ⟨rfl, hab⟩)
    · refine (hsorted.filter _).imp_of_mem fun {a b} ha hb hab => ?_
      have hpa : ¬ p a := by simpa using (List.mem_filter.mp ha).2
      have hpb : ¬ p b := by simpa using (List.mem_filter.mp hb).2
      rw [if_neg hpa, if_neg hpb]
      exact Prod.Lex.le_iff.mpr (.inr ⟨rfl, hab⟩)
    · intro a ha b hb
      have hpa : p a := by simpa using (List.mem_filter.mp ha).2
      have hpb : ¬ p b := by simpa using (List.mem_filter.mp hb).2
      rw [if_pos hpa, if_neg hpb]
      exact Prod.Lex.le_iff.mpr (.inl Nat.zero_lt_one)

end Sorting

end Library
