import Cadi.Library.Time
import Mathlib.Order.WithBot
import Mathlib.Algebra.Order.Ring.Int

namespace Library
set_option autoImplicit true

section Rounding

theorem roundHalfEven_near (n : Nat) (hd : 0 < d) :
    2 * n ≤ 2 * (roundHalfEven n d * d) + d ∧ 2 * (roundHalfEven n d * d) ≤ 2 * n + d := by
  have hn : n = n / d * d + n % d := by
    rw [Nat.mul_comm]
    exact (Nat.div_add_mod n d).symm
  have hr : n % d < d := Nat.mod_lt n hd
  unfold roundHalfEven
  dsimp only
  generalize n / d = q at hn ⊢
  generalize n % d = r at hn hr ⊢
  have hsucc : (q + 1) * d = q * d + d := Nat.succ_mul q d
  repeat' split
  all_goals
    try rw [hsucc]
    omega

theorem roundRatio_near (n : Nat) (hd : 0 < d) :
    2 * n ≤ 2 * (roundRatio n d * d) + d * 2 ^ (Nat.log2 (n / d) - 52) ∧
      2 * (roundRatio n d * d) ≤ 2 * n + d * 2 ^ (Nat.log2 (n / d) - 52) := by
  unfold roundRatio
  dsimp only
  generalize hs : 2 ^ (Nat.log2 (n / d) - 52) = s
  have hspos : 0 < s := hs ▸ Nat.two_pow_pos _
  have h := roundHalfEven_near n (Nat.mul_pos hd hspos)
  have hprod : roundHalfEven n (d * s) * s * d = roundHalfEven n (d * s) * (d * s) := by ring
  rw [hprod]
  exact h

/-- Rounding an integer moves it by at most the fraction `2 ^ (-53)` of it. -/
theorem roundRatio_one_near (n : Nat) :
    2 ^ 53 * n ≤ 2 ^ 53 * roundRatio n 1 + n ∧ 2 ^ 53 * roundRatio n 1 ≤ 2 ^ 53 * n + n := by
  have h := roundRatio_near n Nat.one_pos
  rw [Nat.div_one, Nat.mul_one, Nat.one_mul] at h
  by_cases hs : Nat.log2 n ≤ 52
  · have hexact : roundRatio n 1 = n := by
      have hrep : Representable n := by
        refine ⟨Nat.lt_of_lt_of_le Nat.lt_log2_self (Nat.pow_le_pow_right (by decide) (by omega)), ?_⟩
        rw [Nat.sub_eq_zero_of_le hs]
        exact Nat.one_dvd n
      have hmul := roundRatio_mul hrep Nat.one_pos
      rwa [Nat.mul_one] at hmul
    rw [hexact]
    omega
  · have hne : n ≠ 0 := by
      rintro rfl
      exact hs (by decide)
    have hbit : 2 ^ 52 * 2 ^ (Nat.log2 n - 52) ≤ n := by
      rw [← Nat.pow_add, Nat.add_sub_cancel' (by omega)]
      exact Nat.log2_self_le hne
    generalize 2 ^ (Nat.log2 n - 52) = s at h hbit
    omega

theorem zero_representable : Representable 0 := ⟨Nat.two_pow_pos _, Nat.dvd_zero _⟩

theorem roundRatio_zero (hd : 0 < d) : roundRatio 0 d = 0 := by
  have h := roundRatio_mul zero_representable hd
  rwa [Nat.zero_mul] at h

theorem roundRatio_le (hu : Representable u) (hn : n ≤ u * d) (hd : 0 < d) :
    roundRatio n d ≤ u := by
  have hquot : n / d ≤ u := Nat.div_le_of_le_mul (by rwa [Nat.mul_comm])
  unfold roundRatio
  dsimp only
  generalize hs : Nat.log2 (n / d) - 52 = s
  have hlog : s ≤ Nat.log2 u - 52 := by
    rw [← hs, Nat.log2_eq_log_two, Nat.log2_eq_log_two]
    exact Nat.sub_le_sub_right (Nat.log_mono_right hquot) 52
  obtain ⟨m, hm⟩ := (Nat.pow_dvd_pow 2 hlog).trans hu.2
  have hpos : 0 < d * 2 ^ s := Nat.mul_pos hd (Nat.two_pow_pos s)
  have hle : n ≤ m * (d * 2 ^ s) := by
    refine hn.trans (le_of_eq ?_)
    rw [hm]
    ring
  -- the ratio is at most an integer, and so is its rounding
  have hround : roundHalfEven n (d * 2 ^ s) ≤ m := by
    have hdiv : n / (d * 2 ^ s) ≤ m := Nat.div_le_of_le_mul (by rwa [Nat.mul_comm])
    rcases Nat.lt_or_eq_of_le hdiv with hlt | heq
    · exact (roundHalfEven_le _ _).trans hlt
    · have hzero : n = m * (d * 2 ^ s) := by
        apply Nat.le_antisymm hle
        rw [← heq]
        exact Nat.div_mul_le_self _ _
      rw [hzero, roundHalfEven_mul m hpos]
  rw [hm, Nat.mul_comm (2 ^ s)]
  exact Nat.mul_le_mul_right _ hround

end Rounding

namespace Binary64

def neg : Binary64 → Binary64
  | .nan => .nan
  | .inf negative => .inf !negative
  | .finite negative u h => .finite (!negative) u h

def add (a b : Binary64) : Binary64 := a.sub b.neg

/-- The quotient rounded to nearest, for a divisor that is not zero. -/
def div : Binary64 → Binary64 → Binary64
  | .nan, _ | _, .nan => .nan
  | .inf _, .inf _ => .nan
  | .inf a, .finite b _ _ => .inf (a != b)
  | .finite a _ _, .inf b => .finite (a != b) 0 representable_zero
  | .finite a u _, .finite b v _ => ofRatio (a != b) (u * 2 ^ 1074) v

theorem one_representable : Representable (2 ^ 1074) := by
  rw [← Nat.one_mul (2 ^ 1074)]
  apply representable_mul_pow (by decide)
  rw [Nat.one_mul]
  exact Nat.pow_lt_pow_right (by decide) (by decide)

def one : Binary64 := .finite false (2 ^ 1074) one_representable

/-- The numbers differ by at most the tolerance, or are the same infinity. -/
def isClose (a b : Binary64) (absTol : Nat) : Bool :=
  match a, b with
  | .inf x, .inf y => x = y
  | .finite _ _ _, .finite _ _ _ =>
    match b.sub a with
    | .finite _ u _ => u ≤ absTol
    | _ => false
  | _, _ => false

end Binary64

namespace Time

def toBinary64 (a : Time) : Binary64 := .finite a.negative a.units a.representable

/-- The difference rounded to nearest of a time and an earlier one. -/
def sub (a b : Time) (_h : b ≤ a) : Time where
  negative := a.negative && !b.negative && a.units == 0
  units := roundRatio (a.units - b.units) 1
  representable := roundRatio_representable (Nat.lt_of_le_of_lt
    (roundRatio_le a.representable (by omega) Nat.one_pos) a.representable.1)
  signed hs := by
    have hzero : a.units = 0 := by
      simpa only [Bool.and_eq_true, beq_iff_eq] using (Bool.and_eq_true_iff.mp hs).2
    rw [hzero, Nat.zero_sub]
    exact roundRatio_zero Nat.one_pos

/-- The product rounded to nearest, absent where it is infinite. -/
def mul (a b : Time) : Option Time :=
  ofBinary64 (.ofRatio (a.negative != b.negative) (a.units * b.units) (2 ^ 1074))

/-- A natural number as a float, absent on overflow. -/
def ofNat? (n : Nat) : Option Time := ofBinary64 (.ofRatio false (n * 2 ^ 1074) 1)

theorem ofNat?_representable {n : Nat} (h : Representable (n * 2 ^ 1074)) :
    ∃ t, ofNat? n = some t := by
  have hround := Binary64.ofRatio_mul false h Nat.one_pos
  rw [Nat.mul_one] at hround
  have hsigned : false = true → n * 2 ^ 1074 = 0 := fun hn => (Bool.false_ne_true hn).elim
  unfold ofNat?
  rw [hround, ofBinary64, dif_pos hsigned]
  exact ⟨_, rfl⟩

end Time

/-- A binary64 number that is not below zero: a finite one or the infinity. -/
inductive Extent where
  | finite (t : Time)
  | infinite
deriving DecidableEq

namespace Extent

def magnitude : Extent → WithTop Nat
  | .finite t => t.units
  | .infinite => ⊤

instance : Preorder Extent := Preorder.lift magnitude

theorem finite_le {a b : Time} : finite a ≤ finite b ↔ a ≤ b := WithTop.coe_le_coe

theorem finite_lt {a b : Time} : finite a < finite b ↔ a < b := WithTop.coe_lt_coe

theorem le_infinite (a : Extent) : a ≤ infinite := le_top (α := WithTop Nat)

theorem not_infinite_le {a : Time} : ¬ infinite ≤ finite a := WithTop.not_top_le_coe _

theorem finite_lt_infinite (a : Time) : finite a < infinite := WithTop.coe_lt_top _

instance : DecidableLE Extent
  | .finite a, .finite b => decidable_of_iff (a ≤ b) finite_le.symm
  | .infinite, .finite _ => isFalse not_infinite_le
  | a, .infinite => isTrue (le_infinite a)

def isFinite : Extent → Bool
  | .finite _ => true
  | .infinite => false

def zero : Extent := .finite .zero

def toBinary64 : Extent → Binary64
  | .finite t => t.toBinary64
  | .infinite => .inf false

def toNumber (e : Extent) : Number := .float e.toBinary64

/-- The extent of a sum or a product that may overflow. -/
def ofTime : Option Time → Extent
  | some t => .finite t
  | none => .infinite

def add : Extent → Extent → Extent
  | .finite a, .finite b => ofTime (a.add b)
  | _, _ => .infinite

theorem add_finite {a b : Extent} (h : (a.add b).isFinite = true) :
    ∃ s t r, a = .finite s ∧ b = .finite t ∧ s.add t = some r ∧ a.add b = .finite r := by
  cases a with
  | infinite => cases h
  | finite s =>
    cases b with
    | infinite => cases h
    | finite t =>
      cases hr : s.add t with
      | none =>
        simp only [add, hr] at h
        cases h
      | some r =>
        refine ⟨s, t, r, rfl, rfl, hr, ?_⟩
        simp only [add, hr]
        rfl

theorem toNumber_lt {a : Time} {x : Extent} : a.toNumber.lt x.toNumber = true ↔ .finite a < x := by
  have hvalue (b : Time) : b.toNumber.value = some (.fin b.units) := by
    obtain ⟨negative, units, _, hsigned⟩ := b
    cases negative with
    | false => rfl
    | true =>
      obtain rfl := hsigned rfl
      rfl
  cases x with
  | finite b =>
    have hb : (Extent.finite b).toNumber.value = some (.fin b.units) := hvalue b
    simp only [Number.lt, hvalue a, hb, Extended.lt, decide_eq_true_eq, Int.ofNat_lt, finite_lt,
      Time.lt_iff]
  | infinite =>
    have hb : Extent.infinite.toNumber.value = some .posInf := rfl
    simp only [Number.lt, hvalue a, hb, Extended.lt, finite_lt_infinite]

end Extent

section Fractions

/-- A quotient of at most one is rounded by at most half of `2 ^ 1022` units. -/
theorem quotient_near (hu : u ≤ t) (ht : 0 < t) :
    roundRatio (u * 2 ^ 1074) t ≤ 2 ^ 1074 ∧
      2 * (u * 2 ^ 1074) ≤ 2 * (roundRatio (u * 2 ^ 1074) t * t) + t * 2 ^ 1022 ∧
      2 * (roundRatio (u * 2 ^ 1074) t * t) ≤ 2 * (u * 2 ^ 1074) + t * 2 ^ 1022 := by
  have hle : u * 2 ^ 1074 ≤ 2 ^ 1074 * t := by
    rw [Nat.mul_comm]
    exact Nat.mul_le_mul_left _ hu
  have hquot : u * 2 ^ 1074 / t ≤ 2 ^ 1074 := Nat.div_le_of_le_mul (by rwa [Nat.mul_comm t])
  have hlog : Nat.log2 (u * 2 ^ 1074 / t) ≤ 1074 := by
    have hmono := Nat.log_mono_right (b := 2) hquot
    rwa [← Nat.log2_eq_log_two, ← Nat.log2_eq_log_two, Nat.log2_two_pow] at hmono
  have hpow : t * 2 ^ (Nat.log2 (u * 2 ^ 1074 / t) - 52) ≤ t * 2 ^ 1022 :=
    Nat.mul_le_mul_left _ (Nat.pow_le_pow_right (by decide) (by omega))
  obtain ⟨hlow, hhigh⟩ := roundRatio_near (u * 2 ^ 1074) ht
  refine ⟨roundRatio_le Binary64.one_representable hle ht, ?_, ?_⟩
  · exact hlow.trans (Nat.add_le_add_left hpow _)
  · exact hhigh.trans (Nat.add_le_add_left hpow _)

/-- The fractions of a rounded sum add up to one within `3 * 2 ^ (-52)`. -/
theorem fractions_near (ht : t = roundRatio (u + w) 1) (hu : u ≤ t) (hw : w ≤ t) (hpos : 0 < t) :
    let total := roundRatio (roundRatio (u * 2 ^ 1074) t + roundRatio (w * 2 ^ 1074) t) 1
    total ≤ 2 ^ 1074 + 3 * 2 ^ 1022 ∧ 2 ^ 1074 ≤ total + 3 * 2 ^ 1022 := by
  obtain ⟨_, hulow, huhigh⟩ := quotient_near hu hpos
  obtain ⟨_, hwlow, hwhigh⟩ := quotient_near hw hpos
  obtain ⟨htlow, hthigh⟩ := roundRatio_one_near (u + w)
  rw [← ht] at htlow hthigh
  generalize roundRatio (u * 2 ^ 1074) t = a at hulow huhigh ⊢
  generalize roundRatio (w * 2 ^ 1074) t = b at hwlow hwhigh ⊢
  dsimp only
  obtain ⟨hlow, hhigh⟩ := roundRatio_one_near (a + b)
  generalize roundRatio (a + b) 1 = total at hlow hhigh ⊢
  have hone : 2 ^ 1074 = 2 ^ 52 * 2 ^ 1022 := by rw [← Nat.pow_add]
  rw [hone] at hulow huhigh hwlow hwhigh ⊢
  generalize 2 ^ 1022 = e at *
  have htlow' := Nat.mul_le_mul_right e htlow
  have hthigh' := Nat.mul_le_mul_right e hthigh
  have hsum : (2 ^ 52 * e) * t ≤ (a + b + 2 * e) * t ∧ (a + b) * t ≤ (2 ^ 52 * e + 2 * e) * t := by
    have hu' : u * (2 ^ 52 * e) = 2 ^ 52 * (u * e) := by ring
    have hw' : w * (2 ^ 52 * e) = 2 ^ 52 * (w * e) := by ring
    rw [hu'] at hulow huhigh
    rw [hw'] at hwlow hwhigh
    have hparts : (2 ^ 52 * e) * t = 2 ^ 52 * (t * e) ∧ (a + b + 2 * e) * t = a * t + b * t + 2 * (t * e) ∧
        (a + b) * t = a * t + b * t ∧ (2 ^ 52 * e + 2 * e) * t = 2 ^ 52 * (t * e) + 2 * (t * e) := by
      refine ⟨?_, ?_, ?_, ?_⟩ <;> ring
    obtain ⟨h₁, h₂, h₃, h₄⟩ := hparts
    rw [h₁, h₂, h₃, h₄]
    have h₅ : 2 ^ 53 * (u + w) * e = 2 ^ 53 * (u * e) + 2 ^ 53 * (w * e) := by ring
    have h₆ : (2 ^ 53 * t + (u + w)) * e = 2 ^ 53 * (t * e) + (u * e + w * e) := by ring
    have h₇ : 2 ^ 53 * t * e = 2 ^ 53 * (t * e) := by ring
    have h₈ : (2 ^ 53 * (u + w) + (u + w)) * e =
        2 ^ 53 * (u * e) + 2 ^ 53 * (w * e) + (u * e + w * e) := by ring
    rw [h₅, h₆] at htlow'
    rw [h₇, h₈] at hthigh'
    generalize u * e = x at *
    generalize w * e = y at *
    generalize t * e = z at *
    generalize a * t = p at *
    generalize b * t = q at *
    omega
  have hle := Nat.le_of_mul_le_mul_right hsum.1 hpos
  have hge := Nat.le_of_mul_le_mul_right hsum.2 hpos
  omega

variable {u w t : Time} {a b : Extent} {tol : Nat}

theorem units_of_add (h : u.add w = some t) : t.units = roundRatio (u.units + w.units) 1 :=
  Time.units_of_ofRatio h

theorem div_toBinary64 (hu : u ≤ t) (ht : t.units ≠ 0) :
    ∃ hrep, u.toBinary64.div t.toBinary64 =
      .finite u.negative (roundRatio (u.units * 2 ^ 1074) t.units) hrep := by
  have hpos : 0 < t.units := Nat.pos_of_ne_zero ht
  have hle := (quotient_near (Time.le_iff.mp hu) hpos).1
  have hlt := Nat.lt_of_le_of_lt hle Binary64.one_representable.1
  have hsign : t.negative = false := by
    cases hn : t.negative with
    | false => rfl
    | true => exact absurd (t.signed hn) ht
  refine ⟨roundRatio_representable hlt, ?_⟩
  simp only [Time.toBinary64, Binary64.div, Binary64.ofRatio, dif_pos hlt, hsign, Bool.bne_false]

theorem add_of_signed {m n : Bool} {x y : Nat} (hx : Representable x) (hy : Representable y)
    (hm : m = true → x = 0) (hn : n = true → y = 0) (hlt : roundRatio (x + y) 1 < 2 ^ 2098) :
    ∃ sign hrep, (Binary64.finite m x hx).add (.finite n y hy) =
        .finite sign (roundRatio (x + y) 1) hrep ∧ (sign = true → x + y = 0) := by
  have hleft : (if m = true then -(x : Int) else x) = x := by
    split
    · next h => rw [hm h]; rfl
    · rfl
  have hright : (if (!n) = true then -(y : Int) else y) = -y := by
    cases n with
    | false => rfl
    | true => rw [hn rfl]; rfl
  have hdiff : (x : Int) - -y = ((x + y : Nat) : Int) := by
    rw [sub_neg_eq_add, Int.natCast_add]
  simp only [Binary64.add, Binary64.neg, Binary64.sub, hleft, hright, hdiff, Int.natAbs_natCast,
    Binary64.ofRatio, dif_pos hlt]
  refine ⟨_, roundRatio_representable hlt, rfl, ?_⟩
  intro hs
  by_contra hne
  have hne' : ((x + y : Nat) : Int) ≠ 0 := Int.natCast_ne_zero.mpr hne
  rw [if_neg hne', decide_eq_true_eq] at hs
  omega

theorem isClose_of_signed {m : Bool} {x y : Nat} {hx : Representable x} {hy : Representable y}
    (hm : m = true → x = 0) (hlt : roundRatio ((y : Int) - x).natAbs 1 < 2 ^ 2098) :
    (Binary64.finite m x hx).isClose (.finite false y hy) tol =
      decide (roundRatio ((y : Int) - x).natAbs 1 ≤ tol) := by
  have hleft : (if m = true then -(x : Int) else x) = x := by
    split
    · next h => rw [hm h]; rfl
    · rfl
  have hsub : ∃ sign hrep, (Binary64.finite false y hy).sub (.finite m x hx) =
      .finite sign (roundRatio ((y : Int) - x).natAbs 1) hrep := by
    simp only [Binary64.sub, Bool.false_eq_true, ↓reduceIte, hleft, Binary64.ofRatio, dif_pos hlt]
    exact ⟨_, roundRatio_representable hlt, rfl⟩
  obtain ⟨sign, hrep, hsub⟩ := hsub
  unfold Binary64.isClose
  rw [hsub]

/-- The computed fractions of a finite sum add up to one, as closely as the tolerance asks. -/
theorem fractions_close (h : u.add w = some t) (ht : t.units ≠ 0) (htol : 2 ^ 1024 ≤ tol) :
    ((u.toBinary64.div t.toBinary64).add (w.toBinary64.div t.toBinary64)).isClose .one tol =
      true := by
  have hle : u ≤ t := Time.le_of_add h
  have hle' : w ≤ t := by
    rw [Time.le_iff, units_of_add h]
    exact le_roundRatio w.representable (Nat.le_add_left _ _)
  obtain ⟨hlow, hhigh⟩ := fractions_near (units_of_add h) hle hle' (Nat.pos_of_ne_zero ht)
  obtain ⟨hurep, hu⟩ := div_toBinary64 hle ht
  obtain ⟨hwrep, hw⟩ := div_toBinary64 hle' ht
  have hzero {v : Time} (hv : v.negative = true) : roundRatio (v.units * 2 ^ 1074) t.units = 0 := by
    rw [v.signed hv, Nat.zero_mul]
    exact roundRatio_zero (Nat.pos_of_ne_zero ht)
  have hbound : 2 ^ 1074 + 3 * 2 ^ 1022 < 2 ^ 2098 := by
    have h₁ : 3 * 2 ^ 1022 < 2 ^ 1074 := by
      have h₂ : 2 ^ 1074 = 2 ^ 52 * 2 ^ 1022 := by rw [← Nat.pow_add]
      have h₃ := Nat.two_pow_pos 1022
      omega
    have h₂ : 2 ^ 1074 + 2 ^ 1074 = 2 ^ 1075 := by rw [Nat.pow_succ]; omega
    have h₃ : 2 ^ 1075 < 2 ^ 2098 := Nat.pow_lt_pow_right (by decide) (by decide)
    omega
  rw [hu, hw]
  obtain ⟨sign, _, hadd, hsign⟩ := add_of_signed hurep hwrep hzero hzero
    (Nat.lt_of_le_of_lt hlow hbound)
  rw [hadd]
  generalize roundRatio (u.units * 2 ^ 1074) t.units = x at *
  generalize roundRatio (w.units * 2 ^ 1074) t.units = y at *
  generalize hS : roundRatio (x + y) 1 = S at *
  have hgap : 3 * 2 ^ 1022 < 2 ^ 1074 := by
    have h₂ : 2 ^ 1074 = 2 ^ 52 * 2 ^ 1022 := by rw [← Nat.pow_add]
    have h₃ := Nat.two_pow_pos 1022
    omega
  have hrep : Representable (2 ^ 1024) := by
    rw [← Nat.one_mul (2 ^ 1024)]
    apply representable_mul_pow (by decide)
    rw [Nat.one_mul]
    exact Nat.pow_lt_pow_right (by decide) (by decide)
  have hfour : 2 ^ 1024 = 4 * 2 ^ 1022 := by rw [show (4 : Nat) = 2 ^ 2 from rfl, ← Nat.pow_add]
  have hdist : ((2 ^ 1074 : Nat) - (S : Int)).natAbs ≤ 2 ^ 1024 * 1 := by
    rw [Nat.mul_one, hfour]
    generalize 2 ^ 1074 = p at *
    generalize 2 ^ 1022 = e at *
    omega
  have hround := roundRatio_le hrep hdist Nat.one_pos
  have hlt := Nat.lt_of_le_of_lt hround hrep.1
  have hzeroS (hs : sign = true) : S = 0 := by
    rw [← hS, hsign hs]
    exact roundRatio_zero Nat.one_pos
  rw [Binary64.one, isClose_of_signed hzeroS hlt, decide_eq_true_eq]
  exact hround.trans htol

/-- The computed fractions of an infinite sum do not add up to one. -/
theorem fractions_far (h : a.add b = .infinite) (htol : tol < 2 ^ 1074) :
    ((a.toBinary64.div (.inf false)).add (b.toBinary64.div (.inf false))).isClose .one tol =
      false := by
  cases a with
  | infinite => rfl
  | finite s =>
    cases b with
    | infinite => rfl
    | finite t =>
      have hlt : roundRatio (0 + 0) 1 < 2 ^ 2098 :=
        Nat.lt_of_le_of_lt (Nat.le_of_eq (roundRatio_zero Nat.one_pos)) (Nat.two_pow_pos _)
      obtain ⟨sign, hrep, hadd, _⟩ := add_of_signed (m := s.negative != false)
        (n := t.negative != false) zero_representable zero_representable (fun _ => rfl)
        (fun _ => rfl) hlt
      have hvalue : roundRatio (0 + 0) 1 = 0 := roundRatio_zero Nat.one_pos
      have hdist : (((2 ^ 1074 : Nat) : Int) - (roundRatio (0 + 0) 1 : Nat)).natAbs = 2 ^ 1074 := by
        rw [hvalue, Int.natCast_zero, Int.sub_zero, Int.natAbs_natCast]
      have hone : roundRatio (2 ^ 1074) 1 = 2 ^ 1074 := by
        have hmul := roundRatio_mul Binary64.one_representable Nat.one_pos
        rwa [Nat.mul_one] at hmul
      have hlt' : roundRatio (((2 ^ 1074 : Nat) : Int) - (roundRatio (0 + 0) 1 : Nat)).natAbs 1 <
          2 ^ 2098 := by
        rw [hdist, hone]
        exact Binary64.one_representable.1
      simp only [Extent.toBinary64, Time.toBinary64, Binary64.div]
      rw [hadd, Binary64.one, isClose_of_signed (fun _ => hvalue) hlt', hdist, hone,
        decide_eq_false_iff_not]
      exact Nat.not_le.mpr htol

end Fractions

end Library
