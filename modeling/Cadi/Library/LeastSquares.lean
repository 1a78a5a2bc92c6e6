import Mathlib.Algebra.BigOperators.Ring.List
import Mathlib.Algebra.Order.BigOperators.Group.List
import Mathlib.Algebra.Order.Field.Basic
import Mathlib.Tactic.FieldSimp
import Mathlib.Tactic.Linarith
import Mathlib.Tactic.Ring

namespace Library
set_option autoImplicit true

section Sums
variable [Field K] {l : List α}

theorem sum_map_const (c : K) : (l.map fun _ => c).sum = l.length * c := by
  rw [List.map_const', List.sum_replicate, nsmul_eq_mul]

theorem sum_map_sub (f g : α → K) :
    (l.map fun a => f a - g a).sum = (l.map f).sum - (l.map g).sum := by
  induction l with
  | nil => simp
  | cons a l ih =>
    simp only [List.map_cons, List.sum_cons, ih]
    ring

variable [LinearOrder K] [IsStrictOrderedRing K]

theorem sum_map_nonneg {f : α → K} (h : ∀ a ∈ l, 0 ≤ f a) : 0 ≤ (l.map f).sum := by
  apply List.sum_nonneg
  intro v hv
  obtain ⟨a, ha, rfl⟩ := List.mem_map.mp hv
  exact h a ha

theorem sum_squares_eq_zero {f : α → K} (h : (l.map fun a => f a * f a).sum = 0) :
    ∀ a ∈ l, f a = 0 := by
  induction l with
  | nil => exact fun a ha => (List.not_mem_nil ha).elim
  | cons b l ih =>
    rw [List.map_cons, List.sum_cons] at h
    have hb := mul_self_nonneg (f b)
    have hl : 0 ≤ (l.map fun a => f a * f a).sum := sum_map_nonneg fun a _ => mul_self_nonneg (f a)
    refine List.forall_mem_cons.mpr ⟨mul_self_eq_zero.mp (by linarith), ih (by linarith)⟩

end Sums

section Fit
variable [Field K] (x y : α → K) (l : List α)

def mean (f : α → K) (l : List α) : K := (l.map f).sum / l.length

/-- The centred sums of squares and of products. -/
def centredSquares : K := (l.map fun a => (x a - mean x l) * (x a - mean x l)).sum

def centredProducts : K := (l.map fun a => (x a - mean x l) * (y a - mean y l)).sum

def fitSlope : K := centredProducts x y l / centredSquares x l

def fitIntercept : K := mean y l - fitSlope x y l * mean x l

/-- The squared error of an affine function over the points. -/
def squaredError (intercept slope : K) : K :=
  (l.map fun a => (y a - (intercept + slope * x a)) * (y a - (intercept + slope * x a))).sum

variable {x y l}

/-- The residuals are orthogonal to the centred abscissae. -/
theorem sum_residuals_mul (hpos : centredSquares x l ≠ 0) :
    (l.map fun a => (x a - mean x l) * (y a - (fitIntercept x y l + fitSlope x y l * x a))).sum = 0 := by
  have hsplit : (fun a => (x a - mean x l) * (y a - (fitIntercept x y l + fitSlope x y l * x a))) =
      fun a => (x a - mean x l) * (y a - mean y l) -
        fitSlope x y l * ((x a - mean x l) * (x a - mean x l)) := by
    funext a
    rw [fitIntercept]
    ring
  rw [hsplit, sum_map_sub, List.sum_map_mul_left]
  change centredProducts x y l - fitSlope x y l * centredSquares x l = 0
  rw [fitSlope, div_mul_cancel₀ _ hpos, sub_self]

variable [LinearOrder K] [IsStrictOrderedRing K]

theorem sum_centred (f : α → K) (h : l ≠ []) : (l.map fun a => f a - mean f l).sum = 0 := by
  have hlen : (l.length : K) ≠ 0 := Nat.cast_ne_zero.mpr fun h0 => h (List.length_eq_zero_iff.mp h0)
  rw [sum_map_sub, sum_map_const, mean]
  field_simp
  ring

/-- Two different abscissae give a positive variance. -/
theorem centredSquares_pos (ha : a ∈ l) (hb : b ∈ l) (hab : x a ≠ x b) : 0 < centredSquares x l := by
  have hnonneg : 0 ≤ centredSquares x l := sum_map_nonneg fun a _ => mul_self_nonneg _
  refine lt_of_le_of_ne hnonneg fun hzero => hab ?_
  have hall := sum_squares_eq_zero hzero.symm
  rw [sub_eq_zero.mp (hall a ha), sub_eq_zero.mp (hall b hb)]

theorem sum_residuals (h : l ≠ []) :
    (l.map fun a => y a - (fitIntercept x y l + fitSlope x y l * x a)).sum = 0 := by
  have hy := sum_centred y h
  have hx := sum_centred x h
  have hsplit : (fun a => y a - (fitIntercept x y l + fitSlope x y l * x a)) =
      fun a => (y a - mean y l) - fitSlope x y l * (x a - mean x l) := by
    funext a
    rw [fitIntercept]
    ring
  rw [hsplit, sum_map_sub, hy, List.sum_map_mul_left, hx]
  ring

/-- The squared error of any affine function, as that of the fit and a sum of squares. -/
theorem squaredError_eq (h : l ≠ []) (hpos : centredSquares x l ≠ 0) (intercept slope : K) :
    squaredError x y l intercept slope = squaredError x y l (fitIntercept x y l) (fitSlope x y l) +
      (l.map fun a => (fitIntercept x y l - intercept + (fitSlope x y l - slope) * x a) *
        (fitIntercept x y l - intercept + (fitSlope x y l - slope) * x a)).sum := by
  have hsum := sum_residuals (x := x) (y := y) h
  have hmul := sum_residuals_mul (x := x) (y := y) hpos
  have hcross : (l.map fun a => (fitIntercept x y l - intercept + (fitSlope x y l - slope) * x a) *
      (y a - (fitIntercept x y l + fitSlope x y l * x a))).sum = 0 := by
    have hsplit : (fun a => (fitIntercept x y l - intercept + (fitSlope x y l - slope) * x a) *
        (y a - (fitIntercept x y l + fitSlope x y l * x a))) =
      fun a => (fitSlope x y l - slope) * ((x a - mean x l) *
          (y a - (fitIntercept x y l + fitSlope x y l * x a))) -
        -(fitIntercept x y l - intercept + (fitSlope x y l - slope) * mean x l) *
          (y a - (fitIntercept x y l + fitSlope x y l * x a)) := by
      funext a
      ring
    rw [hsplit, sum_map_sub, List.sum_map_mul_left, List.sum_map_mul_left, hsum, hmul]
    ring
  have hexpand : (fun a => (y a - (intercept + slope * x a)) * (y a - (intercept + slope * x a))) =
      fun a => ((y a - (fitIntercept x y l + fitSlope x y l * x a)) *
          (y a - (fitIntercept x y l + fitSlope x y l * x a)) +
        (fitIntercept x y l - intercept + (fitSlope x y l - slope) * x a) *
          (fitIntercept x y l - intercept + (fitSlope x y l - slope) * x a)) -
        (-2) * ((fitIntercept x y l - intercept + (fitSlope x y l - slope) * x a) *
          (y a - (fitIntercept x y l + fitSlope x y l * x a))) := by
    funext a
    ring
  rw [squaredError, hexpand, sum_map_sub, List.sum_map_mul_left, hcross, List.sum_map_add, squaredError]
  ring

theorem fit_optimal (h : l ≠ []) (hpos : centredSquares x l ≠ 0) (intercept slope : K) :
    squaredError x y l (fitIntercept x y l) (fitSlope x y l) ≤ squaredError x y l intercept slope := by
  rw [squaredError_eq h hpos intercept slope]
  have hnonneg := sum_map_nonneg (l := l) fun a _ =>
    mul_self_nonneg (fitIntercept x y l - intercept + (fitSlope x y l - slope) * x a)
  linarith

theorem fit_exact (h : l ≠ []) (hpos : centredSquares x l ≠ 0) {intercept slope : K}
    (hline : ∀ a ∈ l, y a = intercept + slope * x a) :
    ∀ a ∈ l, y a = fitIntercept x y l + fitSlope x y l * x a := by
  have hzero : squaredError x y l intercept slope = 0 := by
    rw [squaredError, List.map_congr_left (g := fun _ => (0 : K)) fun a ha => by rw [hline a ha]; ring,
      sum_map_const, mul_zero]
  have hnonneg : 0 ≤ squaredError x y l (fitIntercept x y l) (fitSlope x y l) :=
    sum_map_nonneg fun a _ => mul_self_nonneg _
  have hle := fit_optimal (y := y) h hpos intercept slope
  have hfit : squaredError x y l (fitIntercept x y l) (fitSlope x y l) = 0 := by linarith
  exact fun a ha => sub_eq_zero.mp (sum_squares_eq_zero hfit a ha)

end Fit

end Library
