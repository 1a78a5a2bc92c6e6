import Cadi.Library.Binary64
import Mathlib.Order.Basic

namespace Library
set_option autoImplicit true

section Rounding

theorem le_roundHalfEven (n d : Nat) : n / d ≤ roundHalfEven n d := by
  unfold roundHalfEven
  dsimp only
  repeat' split
  all_goals omega

/-- Rounding does not go below a representable magnitude. -/
theorem le_roundRatio (hu : Representable u) (hn : u ≤ n) : u ≤ roundRatio n 1 := by
  unfold roundRatio
  simp only [Nat.div_one, Nat.one_mul]
  generalize hs : Nat.log2 n - 52 = s
  have hround := Nat.mul_le_mul_right (2 ^ s) (le_roundHalfEven n (2 ^ s))
  refine Nat.le_trans ?_ hround
  by_cases hlow : u < 2 ^ (Nat.log2 n)
  · by_cases hzero : s = 0
    · subst hzero
      rwa [Nat.pow_zero, Nat.div_one, Nat.mul_one]
    · -- the rounded magnitude keeps the highest bit
      have hne : n ≠ 0 := by
        rintro rfl
        exact hzero (hs.symm.trans (by decide))
      have hexp : Nat.log2 n = Nat.log2 n - s + s := by omega
      have hbit : 2 ^ Nat.log2 n ≤ n := Nat.log2_self_le hne
      have hdiv : 2 ^ (Nat.log2 n - s) ≤ n / 2 ^ s := by
        rw [Nat.le_div_iff_mul_le (Nat.two_pow_pos s), ← Nat.pow_add, ← hexp]
        exact hbit
      have hmul := Nat.mul_le_mul_right (2 ^ s) hdiv
      rw [← Nat.pow_add, ← hexp] at hmul
      omega
  · have hune : u ≠ 0 := by
      rintro rfl
      exact hlow (Nat.two_pow_pos _)
    have hlog : Nat.log2 u = Nat.log2 n := by
      apply Nat.le_antisymm
      · rw [Nat.log2_eq_log_two, Nat.log2_eq_log_two]
        exact Nat.log_mono_right hn
      · exact (Nat.le_log2 hune).mpr (Nat.not_lt.mp hlow)
    obtain ⟨m, hm⟩ := hu.2
    rw [hlog, hs] at hm
    have hdiv : m ≤ n / 2 ^ s := by
      rw [Nat.le_div_iff_mul_le (Nat.two_pow_pos s), Nat.mul_comm, ← hm]
      exact hn
    rw [hm, Nat.mul_comm]
    exact Nat.mul_le_mul_right _ hdiv

end Rounding

/-- A finite binary64 number that is not below zero. Times compare by value, so that the two zeros
are neither less than the other. -/
structure Time where
  negative : Bool
  units : Nat
  representable : Representable units
  signed : negative = true → units = 0

namespace Time

theorem eq_iff {a b : Time} : a = b ↔ a.negative = b.negative ∧ a.units = b.units := by
  cases a
  cases b
  simp only [mk.injEq]

instance : DecidableEq Time := fun _ _ => decidable_of_iff _ eq_iff.symm

instance : Preorder Time := Preorder.lift Time.units

instance : DecidableLE Time := fun a b => inferInstanceAs (Decidable (a.units ≤ b.units))

instance : DecidableLT Time := fun a b => inferInstanceAs (Decidable (a.units < b.units))

theorem le_iff {a b : Time} : a ≤ b ↔ a.units ≤ b.units := Iff.rfl

theorem lt_iff {a b : Time} : a < b ↔ a.units < b.units := Iff.rfl

theorem not_lt {a b : Time} : ¬ a < b ↔ b ≤ a := by
  rw [lt_iff, le_iff, Nat.not_lt]

theorem not_le {a b : Time} : ¬ a ≤ b ↔ b < a := by
  rw [lt_iff, le_iff, Nat.not_le]

def zero : Time := ⟨false, 0, representable_zero, fun _ => rfl⟩

theorem zero_le (a : Time) : zero ≤ a := Nat.zero_le a.units

/-- The value of a number that is finite and not below zero. -/
def ofBinary64 : Binary64 → Option Time
  | .finite negative u h =>
    if hs : negative = true → u = 0 then some ⟨negative, u, h, hs⟩ else none
  | _ => none

def toNumber (a : Time) : Number := .float (.finite a.negative a.units a.representable)

/-- The sum rounded to nearest, absent where it is infinite. -/
protected def add (a b : Time) : Option Time :=
  ofBinary64 (.ofRatio (a.negative && b.negative) (a.units + b.units) 1)

theorem units_of_ofRatio {negative : Bool} (h : ofBinary64 (.ofRatio negative n d) = some c) :
    c.units = roundRatio n d := by
  unfold Binary64.ofRatio at h
  split at h
  · simp only [ofBinary64] at h
    split at h
    · exact Option.some.inj h ▸ rfl
    · cases h
  · cases h

theorem le_of_add {a b c : Time} (h : a.add b = some c) : a ≤ c := by
  rw [le_iff, units_of_ofRatio h]
  exact le_roundRatio a.representable (Nat.le_add_right _ _)

theorem add_of_units_zero (a : Time) {b : Time} (hb : b.units = 0) :
    ∃ c, a.add b = some c ∧ c.units = a.units := by
  have h := Binary64.ofRatio_mul (a.negative && b.negative) a.representable Nat.one_pos
  rw [Nat.mul_one] at h
  have hsigned : (a.negative && b.negative) = true → a.units = 0 := fun hn =>
    a.signed (Bool.and_eq_true_iff.mp hn).1
  unfold Time.add
  rw [hb, Nat.add_zero, h, ofBinary64, dif_pos hsigned]
  exact ⟨_, rfl, rfl⟩

end Time

end Library
