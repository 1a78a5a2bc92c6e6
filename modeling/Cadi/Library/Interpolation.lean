import Mathlib.Algebra.Order.Field.Basic
import Mathlib.Data.List.Basic
import Mathlib.Tactic.FieldSimp
import Mathlib.Tactic.Linarith
import Mathlib.Tactic.Ring

namespace Library
set_option autoImplicit true

section Segments
variable [Field K] {p q : K × K} {a b : K}

/-- The value at a place of the line through two points. -/
def interpolated (p q : K × K) (a : K) : K := p.2 + (a - p.1) / (q.1 - p.1) * (q.2 - p.2)

theorem interpolated_left : interpolated p q p.1 = p.2 := by
  rw [interpolated, sub_self, zero_div, zero_mul, add_zero]

variable [LinearOrder K] [IsStrictOrderedRing K]

theorem interpolated_right (h : p.1 < q.1) : interpolated p q q.1 = q.2 := by
  rw [interpolated, div_self (sub_pos.mpr h).ne', one_mul, add_sub_cancel]

theorem fraction_nonneg (h : p.1 < q.1) (ha : p.1 ≤ a) : 0 ≤ (a - p.1) / (q.1 - p.1) :=
  div_nonneg (sub_nonneg.mpr ha) (sub_pos.mpr h).le

theorem fraction_le_one (h : p.1 < q.1) (ha : a ≤ q.1) : (a - p.1) / (q.1 - p.1) ≤ 1 := by
  rw [div_le_one (sub_pos.mpr h)]
  exact sub_le_sub_right ha p.1

theorem interpolated_mono (h : p.1 < q.1) (hv : p.2 ≤ q.2) (hab : a ≤ b) :
    interpolated p q a ≤ interpolated p q b := by
  have hfraction : (a - p.1) / (q.1 - p.1) ≤ (b - p.1) / (q.1 - p.1) :=
    div_le_div_of_nonneg_right (sub_le_sub_right hab p.1) (sub_pos.mpr h).le
  exact add_le_add_right (mul_le_mul_of_nonneg_right hfraction (sub_nonneg.mpr hv)) p.2

theorem min_le_interpolated (h : p.1 < q.1) (hpa : p.1 ≤ a) (haq : a ≤ q.1) :
    min p.2 q.2 ≤ interpolated p q a := by
  have h0 := fraction_nonneg h hpa
  have h1 := fraction_le_one h haq
  rw [interpolated]
  rcases le_total p.2 q.2 with hv | hv
  · rw [min_eq_left hv]
    have hrise := mul_nonneg h0 (sub_nonneg.mpr hv)
    linarith
  · rw [min_eq_right hv]
    have hfall := mul_le_mul_of_nonneg_right h1 (sub_nonneg.mpr hv)
    linarith

theorem interpolated_le_max (h : p.1 < q.1) (hpa : p.1 ≤ a) (haq : a ≤ q.1) :
    interpolated p q a ≤ max p.2 q.2 := by
  have h0 := fraction_nonneg h hpa
  have h1 := fraction_le_one h haq
  rw [interpolated]
  rcases le_total p.2 q.2 with hv | hv
  · rw [max_eq_right hv]
    have hrise := mul_le_mul_of_nonneg_right h1 (sub_nonneg.mpr hv)
    linarith
  · rw [max_eq_left hv]
    have hfall := mul_nonneg h0 (sub_nonneg.mpr hv)
    linarith

end Segments

section Places
variable [LinearOrder K] {l : List (K × K)} {a : K}

/-- The points of a curve stand in the order of their places. -/
abbrev Ordered (l : List (K × K)) : Prop := l.Pairwise fun p q => p.1 < q.1

theorem Ordered.lt (h : Ordered l) {i j : Nat} (hij : i < j) (hj : j < l.length) : l[i].1 < l[j].1 :=
  List.pairwise_iff_getElem.mp h i j (hij.trans hj) hj hij

theorem Ordered.le (h : Ordered l) {i j : Nat} (hij : i ≤ j) (hj : j < l.length) : l[i].1 ≤ l[j].1 := by
  rcases hij.eq_or_lt with rfl | hij
  · exact le_rfl
  · exact (h.lt hij hj).le

/-- Every place from the first point to the last is on a segment. -/
theorem exists_segment {n : Nat} (hn : n + 1 < l.length) (hfirst : l[0].1 ≤ a) (hlast : a ≤ l[n + 1].1) :
    ∃ i ≤ n, ∃ h : i + 1 < l.length, l[i].1 ≤ a ∧ a ≤ l[i + 1].1 := by
  induction n with
  | zero => exact ⟨0, le_rfl, hn, hfirst, hlast⟩
  | succ n ih =>
    rcases le_total a l[n + 1].1 with hle | hle
    · obtain ⟨i, hi, h, hseg⟩ := ih (by omega) hfirst hle
      exact ⟨i, hi.trans (Nat.le_succ n), h, hseg⟩
    · exact ⟨n + 1, le_rfl, hn, hle, hlast⟩

end Places

section Curves
variable [Field K] [LinearOrder K] {l : List (K × K)} {a b v w : K}

/-- The graph of the curve through some points: a place lies on the segment of two neighbours. -/
def OnCurve (l : List (K × K)) (a v : K) : Prop :=
  ∃ (i : Nat) (h : i + 1 < l.length), l[i].1 ≤ a ∧ a ≤ l[i + 1].1 ∧ v = interpolated l[i] l[i + 1] a

variable [IsStrictOrderedRing K]

theorem OnCurve.at_point (ho : Ordered l) (h : OnCurve l a v) {j : Nat} (hj : j < l.length)
    (ha : a = l[j].1) : v = l[j].2 := by
  obtain ⟨i, hi, hle, hge, rfl⟩ := h
  have hseg := ho.lt (Nat.lt_succ_self i) hi
  have hlo : i ≤ j := by
    by_contra hji
    have hlt := ho.lt (not_le.mp hji) (Nat.lt_of_succ_lt hi)
    rw [ha] at hle
    exact absurd hlt (not_lt.mpr hle)
  have hhi : j ≤ i + 1 := by
    by_contra hij
    have hlt := ho.lt (not_le.mp hij) hj
    rw [ha] at hge
    exact absurd hlt (not_lt.mpr hge)
  rcases Nat.eq_or_lt_of_le hlo with rfl | hlt
  · rw [ha]
    exact interpolated_left
  · obtain rfl : j = i + 1 := by omega
    rw [ha]
    exact interpolated_right hseg

theorem onCurve_point (ho : Ordered l) (htwo : 2 ≤ l.length) {i : Nat} (hi : i < l.length) :
    OnCurve l l[i].1 l[i].2 := by
  rcases Nat.lt_or_ge (i + 1) l.length with hnext | hend
  · exact ⟨i, hnext, le_rfl, ho.le (Nat.le_succ i) hnext, interpolated_left.symm⟩
  · obtain ⟨j, rfl⟩ : ∃ j, i = j + 1 := ⟨i - 1, by omega⟩
    have hlt := ho.lt (Nat.lt_succ_self j) hi
    exact ⟨j, hi, hlt.le, le_rfl, (interpolated_right hlt).symm⟩

theorem OnCurve.mono (ho : Ordered l) (hvalues : l.Pairwise fun p q => p.2 ≤ q.2) (ha : OnCurve l a v)
    (hb : OnCurve l b w) (hab : a ≤ b) : v ≤ w := by
  have hmono (i j : Nat) (hij : i ≤ j) (hj : j < l.length) : l[i].2 ≤ l[j].2 := by
    rcases hij.eq_or_lt with rfl | hij
    · exact le_rfl
    · exact List.pairwise_iff_getElem.mp hvalues i j (hij.trans hj) hj hij
  have hb' := hb
  obtain ⟨i, hi, hia, hai, rfl⟩ := ha
  obtain ⟨j, hj, hjb, hbj, rfl⟩ := hb
  have hsi := ho.lt (Nat.lt_succ_self i) hi
  have hsj := ho.lt (Nat.lt_succ_self j) hj
  have hvi := hmono i (i + 1) (Nat.le_succ i) hi
  have hvj := hmono j (j + 1) (Nat.le_succ j) hj
  rcases Nat.lt_trichotomy i j with hij | rfl | hij
  · calc interpolated l[i] l[i + 1] a ≤ l[i + 1].2 := by
          rw [← interpolated_right hsi]
          exact interpolated_mono hsi hvi hai
      _ ≤ l[j].2 := hmono (i + 1) j hij (Nat.lt_of_succ_lt hj)
      _ ≤ interpolated l[j] l[j + 1] b := by
          rw [← interpolated_left (p := l[j]) (q := l[j + 1])]
          exact interpolated_mono hsj hvj hjb
  · exact interpolated_mono hsi hvi hab
  · -- the segments meet at most in the place of their common point
    have hback : l[j + 1].1 ≤ l[i].1 := ho.le hij (Nat.lt_of_succ_lt hi)
    have hai' : a = l[i].1 := le_antisymm (hab.trans (hbj.trans hback)) hia
    have hbi' : b = l[i].1 := le_antisymm (hbj.trans hback) (hia.trans hab)
    rw [hb'.at_point ho (Nat.lt_of_succ_lt hi) hbi', hai', interpolated_left]

theorem OnCurve.unique (ho : Ordered l) (ha : OnCurve l a v) (hb : OnCurve l a w) : v = w := by
  have hat (j : Nat) (hj : j < l.length) (h : a = l[j].1) : v = w := by
    rw [ha.at_point ho hj h, hb.at_point ho hj h]
  have ha' := ha
  obtain ⟨i, hi, hia, hai, rfl⟩ := ha
  obtain ⟨j, hj, hja, haj, rfl⟩ := hb
  rcases Nat.lt_trichotomy i j with hij | rfl | hij
  · exact hat j (Nat.lt_of_succ_lt hj) (le_antisymm (hai.trans (ho.le hij (Nat.lt_of_succ_lt hj))) hja)
  · rfl
  · exact hat i (Nat.lt_of_succ_lt hi) (le_antisymm (haj.trans (ho.le hij (Nat.lt_of_succ_lt hi))) hia)

end Curves

end Library
