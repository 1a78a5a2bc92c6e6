import Cadi.Library.Keys
import Mathlib.Algebra.Order.Floor.Ring
import Mathlib.Algebra.Order.Floor.Semiring
import Mathlib.Data.List.GetD
import Mathlib.Tactic.Linarith
import Mathlib.Tactic.Ring

namespace Library
set_option autoImplicit true

section Mirrors
variable [Field K] [LinearOrder K] [IsStrictOrderedRing K] {l : List K}

theorem sortedBy_neg (l : List K) : sortedBy id (l.map (-·)) = (sortedBy id l).reverse.map (-·) := by
  refine eq_of_sorted id (fun _ _ _ _ h => h) ?_ (pairwise_sortedBy id _) ?_
  · have hl := perm_sortedBy id l
    exact (perm_sortedBy id _).trans (((List.reverse_perm _).trans hl).map _).symm
  · rw [List.pairwise_map, List.pairwise_reverse]
    exact (pairwise_sortedBy id l).imp fun h => neg_le_neg h

omit [LinearOrder K] [IsStrictOrderedRing K] in
theorem getD_reverse_neg (hi : i < l.length) :
    (l.reverse.map (-·)).getD i 0 = -l.getD (l.length - 1 - i) 0 := by
  have hlast : l.length - 1 - i < l.length := by omega
  rw [List.getD_eq_getElem _ _ (by simpa using hi), List.getD_eq_getElem _ _ hlast, List.getElem_map,
    List.getElem_reverse]

end Mirrors

section Percentiles
variable [Field K] [LinearOrder K] [IsStrictOrderedRing K] [FloorSemiring K]

/-- The percentile of an ascending list, interpolated between the neighbours of its position. -/
def percentile (ordered : List K) (probability : K) : K :=
  let h := ((ordered.length - 1 : Nat) : K) * probability
  let lower := ⌊h⌋₊
  let upper := ⌈h⌉₊
  if lower = upper then ordered.getD lower 0
  else ordered.getD lower 0 * (1 - (h - lower)) + ordered.getD upper 0 * (h - lower)

variable {l : List K} {p : K}

theorem floor_mirror {n : Nat} {h : K} (h0 : 0 ≤ h) (hn : h ≤ n) :
    ⌊(n : K) - h⌋₊ = n - ⌈h⌉₊ ∧ ⌈(n : K) - h⌉₊ = n - ⌊h⌋₊ := by
  have hceil : ⌈h⌉₊ ≤ n := Nat.ceil_le.mpr hn
  have hfloor : ⌊h⌋₊ ≤ n := Nat.floor_le_of_le hn
  constructor
  · rw [Nat.floor_eq_iff (sub_nonneg.mpr hn), Nat.cast_sub hceil]
    have hle := Nat.le_ceil h
    have hlt := Nat.ceil_lt_add_one h0
    constructor <;> linarith
  · apply le_antisymm
    · rw [Nat.ceil_le, Nat.cast_sub hfloor]
      exact sub_le_sub_left (Nat.floor_le h0) _
    · have hle := Nat.le_ceil ((n : K) - h)
      have hupper : ⌈(n : K) - h⌉₊ ≤ n := Nat.ceil_le.mpr (sub_le_self _ h0)
      have hback : n - ⌈(n : K) - h⌉₊ ≤ ⌊h⌋₊ := by
        rw [Nat.le_floor_iff h0, Nat.cast_sub hupper]
        linarith
      omega

/-- The percentile of the negated elements is that of the mirrored probability. -/
theorem percentile_neg (hl : l ≠ []) (h0 : 0 ≤ p) (h1 : p ≤ 1) :
    percentile (sortedBy id (l.map (-·))) p = -percentile (sortedBy id l) (1 - p) := by
  have hpos : 0 < (sortedBy id l).length := by
    rw [(perm_sortedBy id l).length_eq]
    exact List.length_pos_iff.mpr hl
  rw [sortedBy_neg]
  generalize sortedBy id l = s at hpos
  have hn0 : (0 : K) ≤ (s.length - 1 : Nat) * p := mul_nonneg (Nat.cast_nonneg _) h0
  have hn1 : ((s.length - 1 : Nat) : K) * p ≤ (s.length - 1 : Nat) :=
    mul_le_of_le_one_right (Nat.cast_nonneg _) h1
  have hmirror : ((s.length - 1 : Nat) : K) * (1 - p) =
      (s.length - 1 : Nat) - (s.length - 1 : Nat) * p := by
    ring
  obtain ⟨hlower, hupper⟩ := floor_mirror hn0 hn1
  have hceil : ⌈((s.length - 1 : Nat) : K) * p⌉₊ ≤ s.length - 1 := Nat.ceil_le.mpr hn1
  have hfloor : ⌊((s.length - 1 : Nat) : K) * p⌋₊ ≤ s.length - 1 := Nat.floor_le_of_le hn1
  have hgap : ⌈((s.length - 1 : Nat) : K) * p⌉₊ ≤ ⌊((s.length - 1 : Nat) : K) * p⌋₊ + 1 :=
    Nat.ceil_le_floor_add_one _
  have hbelow : ⌊((s.length - 1 : Nat) : K) * p⌋₊ ≤ ⌈((s.length - 1 : Nat) : K) * p⌉₊ :=
    Nat.floor_le_ceil _
  simp only [percentile, List.length_map, List.length_reverse, hmirror, hlower, hupper]
  generalize ((s.length - 1 : Nat) : K) * p = h at *
  rw [getD_reverse_neg (show ⌊h⌋₊ < s.length by omega), getD_reverse_neg (show ⌈h⌉₊ < s.length by omega)]
  by_cases heq : ⌊h⌋₊ = ⌈h⌉₊
  · rw [if_pos heq, if_pos (by omega), heq]
  · have hnext : ⌈h⌉₊ = ⌊h⌋₊ + 1 := by omega
    rw [if_neg heq, if_neg (by omega), Nat.cast_sub hceil, hnext]
    push_cast
    ring

end Percentiles

end Library
