import Mathlib.Data.List.Sort
import Mathlib.Data.Finset.Basic

namespace Library
set_option autoImplicit true

/-- The elements of a finite set in increasing order. -/
def elements [LinearOrder α] (s : Finset α) : List α :=
  Quot.liftOn s.val (fun l => l.insertionSort (· ≤ ·)) fun l m h =>
    (((List.perm_insertionSort _ l).trans h).trans
      (List.perm_insertionSort _ m).symm).eq_of_pairwise' (List.pairwise_insertionSort _ l)
      (List.pairwise_insertionSort _ m)

variable [LinearOrder α]

theorem coe_elements (s : Finset α) : (elements s : Multiset α) = s.val := by
  obtain ⟨⟨l⟩, hn⟩ := s
  exact Quot.sound (List.perm_insertionSort _ l)

@[simp] theorem mem_elements {s : Finset α} : a ∈ elements s ↔ a ∈ s := by
  rw [← Multiset.mem_coe, coe_elements]
  rfl

theorem nodup_elements (s : Finset α) : (elements s).Nodup := by
  rw [← Multiset.coe_nodup, coe_elements]
  exact s.nodup

@[simp] theorem elements_empty : elements (∅ : Finset α) = [] := rfl

end Library
