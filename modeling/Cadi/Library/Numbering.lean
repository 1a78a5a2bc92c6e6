import Mathlib.Data.List.Basic

namespace Library
set_option autoImplicit true

section Padding

/-- A numeral padded with zeros. -/
def zeroPadded (width n : Nat) : String :=
  let digits := (Nat.repr n).toList
  String.ofList (List.replicate (width - digits.length) '0' ++ digits)

theorem zeroPadded_injective (h : zeroPadded width m = zeroPadded width n) : m = n := by
  have hnumber (n : Nat) : Nat.ofDigitChars 10 (zeroPadded width n).toList 0 = n := by
    simp only [zeroPadded, String.toList_ofList, Nat.ofDigitChars_append, Nat.ofDigitChars_replicate_zero,
      Nat.mul_zero, Nat.toList_repr]
    exact Nat.ofDigitChars_ten_toDigits
  rw [← hnumber m, h, hnumber n]

theorem toString_injective {m n : Nat} (h : toString m = toString n) : m = n := by
  have hnumber (n : Nat) : Nat.ofDigitChars 10 (toString n).toList 0 = n := by
    change Nat.ofDigitChars 10 (Nat.repr n).toList 0 = n
    rw [Nat.toList_repr]
    exact Nat.ofDigitChars_ten_toDigits
  rw [← hnumber m, h, hnumber n]

theorem isDigit_of_mem_zeroPadded (h : c ∈ (zeroPadded width n).toList) : c.isDigit = true := by
  rw [zeroPadded, String.toList_ofList, List.mem_append, Nat.toList_repr] at h
  rcases h with hzero | hdigit
  · rw [List.eq_of_mem_replicate hzero]
    rfl
  · exact Nat.isDigit_of_mem_toDigits (by decide) (by decide) hdigit

theorem notMem_zeroPadded (h : c.isDigit = false) (width n : Nat) : c ∉ (zeroPadded width n).toList :=
  fun hc => Bool.false_ne_true (h.symm.trans (isDigit_of_mem_zeroPadded hc))

/-- Texts are split at their first separator in one way. -/
theorem append_cons_inj {x y z w : List α} {a : α} (hx : a ∉ x) (hy : a ∉ y)
    (h : x ++ a :: z = y ++ a :: w) : x = y ∧ z = w := by
  induction x generalizing y with
  | nil =>
    cases y with
    | nil => exact ⟨rfl, (List.cons.inj h).2⟩
    | cons b y => exact absurd (List.mem_cons.mpr (.inl (List.cons.inj h).1)) hy
  | cons c x ih =>
    cases y with
    | nil => exact absurd (List.mem_cons.mpr (.inl (List.cons.inj h).1.symm)) hx
    | cons b y =>
      obtain ⟨rfl, htail⟩ := List.cons.inj h
      obtain ⟨hxy, hzw⟩ := ih (List.not_mem_of_not_mem_cons hx) (List.not_mem_of_not_mem_cons hy) htail
      exact ⟨congrArg _ hxy, hzw⟩

end Padding

end Library
