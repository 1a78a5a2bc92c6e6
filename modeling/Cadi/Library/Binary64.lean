import Mathlib.Data.Nat.Log
import Mathlib.Algebra.Order.Group.Int
import Mathlib.Tactic.Linarith
import Mathlib.Tactic.Ring

namespace Library
set_option autoImplicit true

/-- The magnitudes of finite binary64 numbers, counted in the smallest one, `2 ^ (-1074)`. -/
def Representable (u : Nat) : Prop := u < 2 ^ 2098 ∧ 2 ^ (Nat.log2 u - 52) ∣ u

instance (u : Nat) : Decidable (Representable u) := inferInstanceAs (Decidable (_ ∧ _))

theorem representable_zero : Representable 0 := ⟨Nat.two_pow_pos _, Nat.dvd_zero _⟩

/-- The values of an IEEE 754 binary64 number, without the payloads of its NaNs. -/
inductive Binary64 where
  | nan
  | inf (negative : Bool)
  | finite (negative : Bool) (units : Nat) (h : Representable units)
deriving DecidableEq

/-- The ratio rounded to an integer, ties to even. -/
def roundHalfEven (n d : Nat) : Nat :=
  let q := n / d
  let r := n % d
  if 2 * r < d then q else if d < 2 * r then q + 1 else if q % 2 = 0 then q else q + 1

/-- The ratio rounded to 53 significant bits. -/
def roundRatio (n d : Nat) : Nat :=
  let s := Nat.log2 (n / d) - 52
  roundHalfEven n (d * 2 ^ s) * 2 ^ s

theorem roundHalfEven_mul (q : Nat) (hd : 0 < d) : roundHalfEven (q * d) d = q := by
  have hq : q * d / d = q := Nat.mul_div_cancel q hd
  have hr : q * d % d = 0 := Nat.mul_mod_left q d
  simp only [roundHalfEven, hq, hr, Nat.mul_zero, hd, ↓reduceIte]

theorem roundHalfEven_le (n d : Nat) : roundHalfEven n d ≤ n / d + 1 := by
  unfold roundHalfEven
  dsimp only
  repeat' split
  all_goals omega

/-- Representable magnitudes are fixed by rounding, whatever the denominator. -/
theorem roundRatio_mul (hu : Representable u) (hd : 0 < d) : roundRatio (u * d) d = u := by
  have hq : u * d / d = u := Nat.mul_div_cancel u hd
  obtain ⟨m, hm⟩ := hu.2
  simp only [roundRatio, hq]
  generalize hs : 2 ^ (Nat.log2 u - 52) = s at hm ⊢
  have hspos : 0 < s := by
    rw [← hs]
    exact Nat.two_pow_pos _
  have hprod : u * d = m * (d * s) := by
    rw [hm]
    ring
  rw [hprod, roundHalfEven_mul m (Nat.mul_pos hd hspos), hm]
  exact Nat.mul_comm m s

theorem representable_mul_pow (hm : m ≤ 2 ^ 53) (hlt : m * 2 ^ s < 2 ^ 2098) :
    Representable (m * 2 ^ s) := by
  refine ⟨hlt, ?_⟩
  rcases Nat.eq_zero_or_pos m with hz | hpos
  · rw [hz, Nat.zero_mul]
    exact Nat.dvd_zero _
  have hne : m * 2 ^ s ≠ 0 := Nat.mul_ne_zero hpos.ne' (Nat.two_pow_pos s).ne'
  rcases Nat.lt_or_eq_of_le hm with hm | hm
  · have hlog : Nat.log2 (m * 2 ^ s) < 53 + s := by
      rw [Nat.log2_lt hne, Nat.pow_add]
      exact Nat.mul_lt_mul_of_pos_right hm (Nat.two_pow_pos s)
    have hle : Nat.log2 (m * 2 ^ s) - 52 ≤ s := by omega
    exact (Nat.pow_dvd_pow 2 hle).trans (Nat.dvd_mul_left _ _)
  · rw [hm, ← Nat.pow_add, Nat.log2_two_pow]
    exact Nat.pow_dvd_pow 2 (by omega)

theorem roundRatio_representable (hlt : roundRatio n d < 2 ^ 2098) :
    Representable (roundRatio n d) := by
  apply representable_mul_pow ?_ hlt
  refine (roundHalfEven_le _ _).trans ?_
  rw [← Nat.div_div_eq_div_mul]
  generalize n / d = q
  have hlog : q < 2 ^ (Nat.log2 q + 1) := Nat.lt_log2_self
  have hpow : 2 ^ (Nat.log2 q + 1) ≤ 2 ^ (53 + (Nat.log2 q - 52)) :=
    Nat.pow_le_pow_right (by decide) (by omega)
  have hq : q / 2 ^ (Nat.log2 q - 52) < 2 ^ 53 := by
    rw [Nat.div_lt_iff_lt_mul (Nat.two_pow_pos _), ← Nat.pow_add]
    omega
  omega

namespace Binary64

/-- The binary64 number nearest to a ratio of units, infinite past the largest finite one. -/
def ofRatio (negative : Bool) (n d : Nat) : Binary64 :=
  if h : roundRatio n d < 2 ^ 2098 then
    .finite negative (roundRatio n d) (roundRatio_representable h)
  else .inf negative

theorem ofRatio_mul (negative : Bool) (hu : Representable u) (hd : 0 < d) :
    ofRatio negative (u * d) d = .finite negative u hu := by
  have hr := roundRatio_mul hu hd
  have hlt : roundRatio (u * d) d < 2 ^ 2098 := by
    rw [hr]
    exact hu.1
  rw [ofRatio, dif_pos hlt]
  congr

def isFinite : Binary64 → Bool
  | .finite _ _ _ => true
  | _ => false

/-- The difference rounded to nearest; an exact zero is negative only for `-0.0 - 0.0`. -/
def sub : Binary64 → Binary64 → Binary64
  | .nan, _ | _, .nan => .nan
  | .inf a, .inf b => if a = b then .nan else .inf a
  | .inf a, .finite _ _ _ => .inf a
  | .finite _ _ _, .inf b => .inf !b
  | .finite a u _, .finite b v _ =>
    let x : Int := if a then -u else u
    let y : Int := if b then -v else v
    let d := x - y
    ofRatio (if d = 0 then a && !b && u == 0 else d < 0) d.natAbs 1

end Binary64

/-- A Python number that is not a boolean. -/
inductive Number where
  | int (z : Int)
  | float (x : Binary64)
deriving DecidableEq

/-- The order of the extended real line restricted to integers. -/
inductive Extended where
  | negInf
  | fin (z : Int)
  | posInf
deriving DecidableEq

def Extended.lt : Extended → Extended → Bool
  | .negInf, .negInf => false
  | .negInf, _ => true
  | .fin a, .fin b => a < b
  | .fin _, .posInf => true
  | _, _ => false

namespace Number

/-- The exact value in units of `2 ^ (-1074)`, absent for a NaN. -/
def value : Number → Option Extended
  | .int z => some (.fin (z * 2 ^ 1074))
  | .float .nan => none
  | .float (.inf negative) => some (if negative then .negInf else .posInf)
  | .float (.finite negative u _) => some (.fin (if negative then -u else u))

/-- Integers and floats compare by exact value, and a NaN compares with nothing. -/
def lt (a b : Number) : Bool :=
  match a.value, b.value with
  | some x, some y => x.lt y
  | _, _ => false

def eq (a b : Number) : Bool :=
  match a.value, b.value with
  | some x, some y => x = y
  | _, _ => false

/-- The conversion of an integer to a float, absent on overflow. -/
def toFloat : Number → Option Binary64
  | .float x => some x
  | .int z =>
    match Binary64.ofRatio (z < 0) (z.natAbs * 2 ^ 1074) 1 with
    | .inf _ => none
    | x => some x

/-- Subtraction of integers is exact, and mixed operands are converted to floats. -/
def sub : Number → Number → Option Number
  | .int a, .int b => some (.int (a - b))
  | a, b => do
    let x ← a.toFloat
    let y ← b.toFloat
    return .float (x.sub y)

/-- The number converts to a finite float. -/
def isFinite (a : Number) : Bool :=
  match a.toFloat with
  | some x => x.isFinite
  | none => false

end Number

end Library
