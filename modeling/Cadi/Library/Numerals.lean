import Cadi.Library.Binary64
import Mathlib.Data.List.TakeDrop

namespace Library
set_option autoImplicit true

abbrev Text := List Char

section Ratios

theorem roundHalfEven_scale (n d : Nat) (hk : 0 < k) :
    roundHalfEven (n * k) (d * k) = roundHalfEven n d := by
  have hq : n * k / (d * k) = n / d := Nat.mul_div_mul_right n d hk
  have hr : n * k % (d * k) = n % d * k := Nat.mul_mod_mul_right k n d
  have hlt (a b : Nat) : a * k < b * k ↔ a < b := Nat.mul_lt_mul_right hk
  simp only [roundHalfEven, hq, hr, ← Nat.mul_assoc, hlt]

theorem roundRatio_scale (n d : Nat) (hk : 0 < k) :
    roundRatio (n * k) (d * k) = roundRatio n d := by
  have hq : n * k / (d * k) = n / d := Nat.mul_div_mul_right n d hk
  simp only [roundRatio, hq, Nat.mul_right_comm d k, roundHalfEven_scale n _ hk]

theorem roundRatio_congr (hd : 0 < d) (hd' : 0 < d') (h : n * d' = n' * d) :
    roundRatio n d = roundRatio n' d' := by
  rw [← roundRatio_scale n d hd', ← roundRatio_scale n' d' hd, h, Nat.mul_comm d d']

end Ratios

section Decimals

/-- The units in the number one. -/
def unitsPerOne : Nat := 2 ^ 1074

/-- The magnitude, in units, of the binary64 number nearest to `n * 10 ^ e`. -/
def decimalUnits (n : Nat) (e : Int) : Nat :=
  roundRatio (n * 10 ^ e.toNat * unitsPerOne) (10 ^ (-e).toNat)

/-- The conversion of a decimal numeral to a float. -/
def Binary64.ofDecimal (negative : Bool) (n : Nat) (e : Int) : Binary64 :=
  ofRatio negative (n * 10 ^ e.toNat * unitsPerOne) (10 ^ (-e).toNat)

theorem Binary64.ofDecimal_eq (hu : Representable u) (h : decimalUnits n e = u)
    (negative : Bool) : ofDecimal negative n e = .finite negative u hu := by
  subst h
  rw [decimalUnits] at hu
  rw [ofDecimal, ofRatio, dif_pos hu.1]
  rfl

theorem decimalUnits_shift (n j : Nat) (e : Int) :
    decimalUnits (n * 10 ^ j) e = decimalUnits n (e + j) := by
  apply roundRatio_congr (Nat.pow_pos (by decide)) (Nat.pow_pos (by decide))
  have hexp : j + e.toNat + (-(e + j)).toNat = (e + j).toNat + (-e).toNat := by omega
  have hpow : 10 ^ j * 10 ^ e.toNat * 10 ^ (-(e + j)).toNat =
      10 ^ (e + j).toNat * 10 ^ (-e).toNat := by
    rw [← Nat.pow_add, ← Nat.pow_add, ← Nat.pow_add, hexp]
  have hscale (p a b c d d' : Nat) (h : a * b * c = d * d') : n * a * b * p * c = n * d * p * d' := by
    calc n * a * b * p * c = n * p * (a * b * c) := by ring
      _ = n * p * (d * d') := by rw [h]
      _ = n * d * p * d' := by ring
  exact hscale _ _ _ _ _ _ hpow

theorem decimalUnits_neg (n p : Nat) :
    decimalUnits n (-p) = roundRatio (n * unitsPerOne) (10 ^ p) := by
  have hpos : (-(p : Int)).toNat = 0 := by omega
  have hneg : (- -(p : Int)).toNat = p := by omega
  rw [decimalUnits, hpos, hneg, Nat.pow_zero, Nat.mul_one]

theorem five_pow_mul (u p : Nat) : u * 5 ^ p * 2 ^ p = u * 10 ^ p := by
  rw [Nat.mul_assoc, ← Nat.mul_pow]

/-- Every finite magnitude has an exact numeral. -/
theorem decimalUnits_exact (hu : Representable u) : decimalUnits (u * 5 ^ 1074) (-1074) = u := by
  apply (decimalUnits_neg (u * 5 ^ 1074) 1074).trans
  rw [unitsPerOne, five_pow_mul]
  exact roundRatio_mul hu (Nat.pow_pos (by decide))

/-- The numerals with the given number of digits around the magnitude, the nearest one first. -/
def candidates (u length : Nat) : List (Nat × Int) :=
  let m := u * 5 ^ 1074
  let digits := (Nat.toDigits 10 m).length
  if length < digits then
    let p := 10 ^ (digits - length)
    let q := m / p
    let r := m % p
    let e : Int := digits - length - 1074
    if 2 * r < p ∨ 2 * r = p ∧ q % 2 = 0 then [(q, e), (q + 1, e)] else [(q + 1, e), (q, e)]
  else [(m, -1074)]

/-- Drops a bounded number of trailing zeros of a numeral. -/
def trim : Nat → Nat × Int → Nat × Int
  | 0, c => c
  | fuel + 1, (n, e) => if n % 10 = 0 then trim fuel (n / 10, e + 1) else (n, e)

/-- The first of the numerals that reads back as the magnitude, or the exact one. -/
def readingBack (u : Nat) (all : List (Nat × Int)) : Nat × Int :=
  (all.find? fun c => decimalUnits c.1 c.2 = u).getD (u * 5 ^ 1074, -1074)

theorem decimalUnits_readingBack (hu : Representable u) (all : List (Nat × Int)) :
    decimalUnits (readingBack u all).1 (readingBack u all).2 = u := by
  unfold readingBack
  cases hc : all.find? fun c => decimalUnits c.1 c.2 = u with
  | none => exact decimalUnits_exact hu
  | some c =>
    have hfound := List.find?_some hc
    rw [decide_eq_true_eq] at hfound
    exact hfound

/-- The shortest numeral that reads back as the magnitude, and the nearest of these. -/
def shortest (u : Nat) : Nat × Int :=
  readingBack u (((List.range 17).flatMap fun length => candidates u (length + 1)).map (trim 20))

end Decimals

section Writing

/-- The sign and at least two digits of an exponent. -/
def exponentText (e : Int) : Text :=
  let ds := Nat.toDigits 10 e.natAbs
  (if e < 0 then '-' else '+') :: if ds.length < 2 then '0' :: ds else ds

def signText (negative : Bool) : Text := if negative then ['-'] else []

/-- A numeral from its digits before and after the point and its exponent. -/
def literal (whole fraction : Text) (exponent : Option Int) : Text :=
  whole ++ (if fraction = [] then [] else '.' :: fraction) ++
    match exponent with
    | none => []
    | some e => 'e' :: exponentText e

/-- The format of `float.__repr__` for the digits of `n` and the power of ten `e`. -/
def decimalText (n : Nat) (e : Int) : Text :=
  let ds := Nat.toDigits 10 n
  let point : Int := ds.length + e
  if point ≤ -4 ∨ 16 < point then literal (ds.take 1) (ds.drop 1) (some (point - 1))
  else if point ≤ 0 then literal ['0'] (List.replicate (-point).toNat '0' ++ ds) none
  else if point < ds.length then literal (ds.take point.toNat) (ds.drop point.toNat) none
  else literal (ds ++ List.replicate e.toNat '0') ['0'] none

/-- `int.__repr__` and `float.__repr__`. -/
def Number.text : Number → Text
  | .int z => signText (z < 0) ++ literal (Nat.toDigits 10 z.natAbs) [] none
  | .float (.finite negative u _) =>
    signText negative ++
      if u = 0 then literal ['0'] ['0'] none else decimalText (shortest u).1 (shortest u).2
  | .float (.inf negative) => signText negative ++ "Infinity".toList
  | .float .nan => "NaN".toList

end Writing

section Reading

/-- The digits of an integer without a leading zero. -/
def readWhole : Text → Option (Text × Text)
  | [] => none
  | c :: s =>
    if c = '0' then some (['0'], s)
    else if c.isDigit then some (c :: (s.span Char.isDigit).1, (s.span Char.isDigit).2)
    else none

/-- The digits after a point; none when no digit follows it. -/
def readFraction : Text → Text × Text
  | [] => ([], [])
  | c :: s => if c = '.' ∧ (s.span Char.isDigit).1 ≠ [] then s.span Char.isDigit else ([], c :: s)

def readSign : Text → Bool × Text
  | '-' :: s => (true, s)
  | '+' :: s => (false, s)
  | s => (false, s)

def readExponent : Text → Option Int × Text
  | [] => (none, [])
  | c :: s =>
    let (negative, t) := readSign s
    if (c = 'e' ∨ c = 'E') ∧ (t.span Char.isDigit).1 ≠ [] then
      let e : Int := Nat.ofDigitChars 10 (t.span Char.isDigit).1 0
      (some (if negative then -e else e), (t.span Char.isDigit).2)
    else (none, c :: s)

/-- The number a numeral stands for: a float when it has a fraction or an exponent. -/
def numberOf (negative : Bool) (whole fraction : Text) (exponent : Option Int) : Number :=
  if fraction = [] ∧ exponent = none then
    let z : Int := Nat.ofDigitChars 10 whole 0
    .int (if negative then -z else z)
  else .float (.ofDecimal negative (Nat.ofDigitChars 10 (whole ++ fraction) 0)
    (exponent.getD 0 - fraction.length))

/-- The longest numeral the text starts with. -/
def readNumber (s : Text) : Option (Number × Text) :=
  let (negative, t) : Bool × Text := if s.head? = some '-' then (true, s.tail) else (false, s)
  match readWhole t with
  | none => none
  | some (whole, t) =>
    let (fraction, t) := readFraction t
    let (exponent, t) := readExponent t
    some (numberOf negative whole fraction exponent, t)

example : (Number.float (.finite false (2 ^ 1074) (by decide +kernel))).text = "1.0".toList := by
  decide +kernel

end Reading

section RoundTrip

/-- Nothing a numeral could go on with. -/
def NumberEnd (r : Text) : Prop :=
  ∀ c ∈ r.head?, ¬ c.isDigit ∧ c ≠ '.' ∧ c ≠ 'e' ∧ c ≠ 'E'

def Digits (ds : Text) : Prop := ∀ c ∈ ds, c.isDigit = true

/-- The digits of an integer part, with no leading zero but that of zero. -/
def Whole (ds : Text) : Prop :=
  ds = ['0'] ∨ ∃ c cs, ds = c :: cs ∧ c ≠ '0' ∧ Digits ds

theorem NumberEnd.nil : NumberEnd [] := fun _ h => by cases h

theorem span_digits {ds r : Text} (h : Digits ds) (hr : ∀ c ∈ r.head?, ¬ c.isDigit) :
    (ds ++ r).span Char.isDigit = (ds, r) := by
  have hstop : r.takeWhile Char.isDigit = [] ∧ r.dropWhile Char.isDigit = r := by
    cases r with
    | nil => exact ⟨rfl, rfl⟩
    | cons c r =>
      have hc := hr c rfl
      exact ⟨List.takeWhile_cons_of_neg hc, List.dropWhile_cons_of_neg hc⟩
  rw [List.span_eq_takeWhile_dropWhile, List.takeWhile_append_of_pos h,
    List.dropWhile_append_of_pos h, hstop.1, hstop.2, List.append_nil]

theorem readWhole_append {w r : Text} (h : Whole w) (hr : ∀ c ∈ r.head?, ¬ c.isDigit) :
    readWhole (w ++ r) = some (w, r) := by
  rcases h with rfl | ⟨c, cs, rfl, hc, hds⟩
  · rfl
  · have hcs : Digits cs := fun d hd => hds d (List.mem_cons_of_mem c hd)
    have hd : c.isDigit = true := hds c List.mem_cons_self
    simp only [List.cons_append, readWhole, if_neg hc, hd, ↓reduceIte, span_digits hcs hr]

theorem readFraction_append {f r : Text} (h : Digits f)
    (hr : ∀ c ∈ r.head?, ¬ c.isDigit ∧ c ≠ '.') :
    readFraction ((if f = [] then [] else '.' :: f) ++ r) = (f, r) := by
  by_cases hf : f = []
  · subst hf
    cases r with
    | nil => rfl
    | cons c r =>
      have hc : ¬ (c = '.' ∧ (r.span Char.isDigit).1 ≠ []) := fun hn => (hr c rfl).2 hn.1
      simp only [↓reduceIte, List.nil_append, readFraction, if_neg hc]
  · have hspan := span_digits h fun c hc => (hr c hc).1
    simp only [List.cons_append, readFraction, hspan, ne_eq, hf, not_false_eq_true, and_self,
      ↓reduceIte]

theorem digits_toDigits (n : Nat) : Digits (Nat.toDigits 10 n) := fun _ hc =>
  Nat.isDigit_of_mem_toDigits (by decide) (by decide) hc

theorem Digits.append (h : Digits ds) (h' : Digits ds') : Digits (ds ++ ds') := by
  intro c hc
  rcases List.mem_append.mp hc with hc | hc
  · exact h c hc
  · exact h' c hc

theorem digits_zeros (k : Nat) : Digits (List.replicate k '0') := by
  intro c hc
  rw [List.eq_of_mem_replicate hc]
  decide

/-- The digits of an exponent and a padded one read the same. -/
theorem readExponent_append (e : Option Int) {r : Text} (hr : NumberEnd r) :
    readExponent ((match e with
      | none => []
      | some e => 'e' :: exponentText e) ++ r) = (e, r) := by
  cases e with
  | none =>
    cases r with
    | nil => rfl
    | cons c r =>
      obtain ⟨_, _, he, hE⟩ := hr c rfl
      simp only [List.nil_append, readExponent, he, hE, or_self, false_and, ↓reduceIte]
  | some e =>
    have hstop : ∀ c ∈ r.head?, ¬ c.isDigit := fun c hc => (hr c hc).1
    generalize hds : (if (Nat.toDigits 10 e.natAbs).length < 2 then '0' :: Nat.toDigits 10 e.natAbs
      else Nat.toDigits 10 e.natAbs) = ds
    have hdigits : Digits ds := by
      subst hds
      split
      · exact Digits.append (digits_zeros 1) (digits_toDigits _)
      · exact digits_toDigits _
    have hne : ds ≠ [] := by
      subst hds
      split
      · exact List.cons_ne_nil _ _
      · exact Nat.toDigits_ne_nil
    have hvalue : Nat.ofDigitChars 10 ds 0 = e.natAbs := by
      subst hds
      split
      · exact Nat.ofDigitChars_ten_toDigits
      · exact Nat.ofDigitChars_ten_toDigits
    have htext : exponentText e = (if e < 0 then '-' else '+') :: ds := by
      rw [← hds]
      rfl
    simp only [htext, List.cons_append]
    by_cases hneg : e < 0
    · have hback : -(e.natAbs : Int) = e := by omega
      simp only [hneg, ↓reduceIte, readExponent, readSign, span_digits hdigits hstop, true_or,
        ne_eq, hne, not_false_eq_true, and_self, hvalue, hback]
    · have hback : (e.natAbs : Int) = e := by omega
      simp only [hneg, ↓reduceIte, readExponent, readSign, span_digits hdigits hstop, true_or,
        ne_eq, hne, not_false_eq_true, and_self, hvalue, hback, Bool.false_eq_true]

theorem Whole.head (h : Whole w) : ∃ c cs, w = c :: cs ∧ c.isDigit = true := by
  rcases h with rfl | ⟨c, cs, rfl, _, hds⟩
  · exact ⟨'0', [], rfl, by decide⟩
  · exact ⟨c, cs, rfl, hds c List.mem_cons_self⟩

theorem readNumber_literal {w f r : Text} (negative : Bool) (e : Option Int) (hw : Whole w)
    (hf : Digits f) (hr : NumberEnd r) :
    readNumber (signText negative ++ literal w f e ++ r) = some (numberOf negative w f e, r) := by
  have hexp := readExponent_append e hr
  generalize hE : (match e with
      | none => []
      | some e => 'e' :: exponentText e) = E at hexp
  have hEhead : ∀ c ∈ (E ++ r).head?, ¬ c.isDigit ∧ c ≠ '.' := by
    intro c hc
    cases e with
    | none =>
      subst hE
      exact ⟨(hr c hc).1, (hr c hc).2.1⟩
    | some e =>
      subst hE
      obtain rfl : 'e' = c := Option.some.inj hc
      decide
  have hfrac := readFraction_append hf hEhead
  generalize hF : (if f = [] then [] else '.' :: f) = F at hfrac
  have hFhead : ∀ c ∈ (F ++ (E ++ r)).head?, ¬ c.isDigit := by
    intro c hc
    subst hF
    by_cases hnil : f = []
    · rw [if_pos hnil] at hc
      exact (hEhead c hc).1
    · rw [if_neg hnil] at hc
      obtain rfl : '.' = c := Option.some.inj hc
      decide
  have hlit : literal w f e = w ++ F ++ E := by
    subst hF hE
    rfl
  obtain ⟨c, cs, hcons, hdigit⟩ := hw.head
  have hwhole := readWhole_append hw hFhead
  have hsigned : (if (signText negative ++ (w ++ (F ++ (E ++ r)))).head? = some '-' then
      (true, (signText negative ++ (w ++ (F ++ (E ++ r)))).tail)
      else (false, signText negative ++ (w ++ (F ++ (E ++ r))))) =
      (negative, w ++ (F ++ (E ++ r))) := by
    cases negative with
    | true => rfl
    | false =>
      have hc : c ≠ '-' := by
        rintro rfl
        revert hdigit
        decide
      subst hcons
      exact if_neg fun h => hc (Option.some.inj h)
  rw [hlit, List.append_assoc, List.append_assoc, List.append_assoc]
  simp only [readNumber, hsigned, hwhole, hfrac, hexp]

/-- The digits of a positive number start with no zero. -/
theorem whole_toDigits (n : Nat) : Whole (Nat.toDigits 10 n) := by
  induction n using Nat.strongRecOn with
  | ind n ih =>
    by_cases hz : n = 0
    · subst hz
      exact .inl (Nat.toDigits_zero 10)
    · refine .inr ?_
      by_cases hlt : n < 10
      · refine ⟨n.digitChar, [], Nat.toDigits_of_lt_base hlt, ?_, digits_toDigits n⟩
        have hall : ∀ m < 10, m ≠ 0 → m.digitChar ≠ '0' := by decide
        exact hall n hlt hz
      · have hle : 10 ≤ n := Nat.le_of_not_lt hlt
        have hsplit := Nat.toDigits_of_base_le (by decide : 1 < 10) hle
        rcases ih (n / 10) (by omega) with hzero | ⟨c, cs, hcons, hc, _⟩
        · have hval := Nat.ofDigitChars_ten_toDigits (n := n / 10)
          rw [hzero] at hval
          change 0 = n / 10 at hval
          omega
        · refine ⟨c, cs ++ [(n % 10).digitChar], ?_, hc, digits_toDigits n⟩
          rw [hsplit, hcons]
          rfl

theorem ofDigitChars_zeros (k : Nat) (ds : Text) :
    Nat.ofDigitChars 10 (List.replicate k '0' ++ ds) 0 = Nat.ofDigitChars 10 ds 0 := by
  rw [Nat.ofDigitChars_append, Nat.ofDigitChars_replicate_zero, Nat.mul_zero]

theorem decimalText_literal (hn : 0 < n) (e : Int) :
    ∃ w f x, decimalText n e = literal w f x ∧ Whole w ∧ Digits f ∧ (f ≠ [] ∨ x ≠ none) ∧
      decimalUnits (Nat.ofDigitChars 10 (w ++ f) 0) (x.getD 0 - f.length) = decimalUnits n e := by
  have hvalue := Nat.ofDigitChars_ten_toDigits (n := n)
  have hdigits := digits_toDigits n
  obtain ⟨c, cs, hcons, hc⟩ : ∃ c cs, Nat.toDigits 10 n = c :: cs ∧ c ≠ '0' := by
    rcases whole_toDigits n with hzero | ⟨c, cs, hcons, hc, _⟩
    · rw [hzero] at hvalue
      change 0 = n at hvalue
      omega
    · exact ⟨c, cs, hcons, hc⟩
  unfold decimalText
  generalize Nat.toDigits 10 n = ds at *
  have hlen : 0 < ds.length := by
    subst hcons
    exact Nat.succ_pos _
  have hwhole {k : Nat} (hk : 0 < k) : Whole (ds.take k) := by
    obtain ⟨k, rfl⟩ := Nat.exists_eq_add_of_lt hk
    subst hcons
    refine .inr ⟨c, cs.take (0 + k), rfl, hc, fun d hd => hdigits d (List.mem_of_mem_take hd)⟩
  have hdrop (k : Nat) : Digits (ds.drop k) := fun d hd => hdigits d (List.mem_of_mem_drop hd)
  dsimp only
  split
  · refine ⟨_, _, _, rfl, hwhole (by decide), hdrop 1, .inr (by simp), ?_⟩
    rw [List.take_append_drop, hvalue, List.length_drop]
    congr 1
    simp only [Option.getD_some]
    omega
  split
  · refine ⟨_, _, _, rfl, .inl rfl, (digits_zeros _).append hdigits, .inl ?_, ?_⟩
    · intro hnil
      rw [List.append_eq_nil_iff] at hnil
      rw [hnil.2] at hlen
      exact absurd hlen (by decide)
    · have hzeros := ofDigitChars_zeros ((-(↑ds.length + e)).toNat + 1) ds
      rw [List.replicate_succ] at hzeros
      rw [List.singleton_append]
      rw [List.cons_append] at hzeros
      rw [hzeros, hvalue, List.length_append, List.length_replicate]
      congr 1
      simp only [Option.getD_none]
      omega
  split
  · refine ⟨_, _, _, rfl, hwhole (by omega), hdrop _, .inl ?_, ?_⟩
    · intro hnil
      rw [List.drop_eq_nil_iff] at hnil
      omega
    · rw [List.take_append_drop, hvalue, List.length_drop]
      congr 1
      simp only [Option.getD_none]
      omega
  · refine ⟨_, _, _, rfl, ?_, digits_zeros 1, .inl (List.cons_ne_nil _ _), ?_⟩
    · subst hcons
      exact .inr ⟨c, cs ++ List.replicate e.toNat '0', rfl, hc, hdigits.append (digits_zeros _)⟩
    · have hzeros : ds ++ List.replicate e.toNat '0' ++ ['0'] =
          ds ++ List.replicate (e.toNat + 1) '0' := by
        rw [List.append_assoc, List.replicate_succ']
      rw [hzeros, Nat.ofDigitChars_append, hvalue, Nat.ofDigitChars_replicate_zero, Nat.mul_comm,
        decimalUnits_shift]
      congr 1
      simp only [Option.getD_none, List.length_singleton]
      omega

theorem decimalUnits_zero (e : Int) : decimalUnits 0 e = 0 := by
  have hzero := roundRatio_mul representable_zero (d := 10 ^ (-e).toNat) (Nat.pow_pos (by decide))
  rw [Nat.zero_mul] at hzero
  rw [decimalUnits, Nat.zero_mul, Nat.zero_mul, hzero]

theorem numberOf_float {w f : Text} (negative : Bool) {x : Option Int} (hu : Representable u)
    (hx : f ≠ [] ∨ x ≠ none)
    (h : decimalUnits (Nat.ofDigitChars 10 (w ++ f) 0) (x.getD 0 - f.length) = u) :
    numberOf negative w f x = .float (.finite negative u hu) := by
  rw [numberOf, if_neg (by tauto), Binary64.ofDecimal_eq hu h]

/-- A number that JSON can write: an integer or a finite float. -/
def Number.Written : Number → Prop
  | .int _ => True
  | .float x => x.isFinite = true

theorem Number.text_literal {n : Number} (h : n.Written) :
    ∃ negative w f x, n.text = signText negative ++ literal w f x ∧ Whole w ∧ Digits f ∧
      numberOf negative w f x = n := by
  match n, h with
  | .int z, _ =>
    refine ⟨_, _, _, _, rfl, whole_toDigits _, List.forall_mem_nil _, ?_⟩
    simp only [numberOf, and_self, ↓reduceIte, Nat.ofDigitChars_ten_toDigits, decide_eq_true_eq,
      Number.int.injEq]
    split <;> omega
  | .float (.finite negative u hu), _ =>
    by_cases hz : u = 0
    · subst hz
      refine ⟨negative, ['0'], ['0'], none, rfl, .inl rfl, digits_zeros 1, ?_⟩
      exact numberOf_float negative hu (.inl (List.cons_ne_nil _ _)) (decimalUnits_zero _)
    · have hshort : decimalUnits (shortest u).1 (shortest u).2 = u :=
        decimalUnits_readingBack hu _
      have hpos : 0 < (shortest u).1 := by
        apply Nat.pos_of_ne_zero
        intro h0
        rw [h0, decimalUnits_zero] at hshort
        exact hz hshort.symm
      obtain ⟨w, f, x, htext, hw, hf, hx, hvalue⟩ := decimalText_literal hpos (shortest u).2
      refine ⟨negative, w, f, x, ?_, hw, hf, ?_⟩
      · rw [← htext]
        simp only [Number.text, if_neg hz]
      · exact numberOf_float negative hu hx (hvalue.trans hshort)

theorem readNumber_text {n : Number} {r : Text} (h : n.Written) (hr : NumberEnd r) :
    readNumber (n.text ++ r) = some (n, r) := by
  obtain ⟨negative, w, f, x, htext, hw, hf, hn⟩ := Number.text_literal h
  rw [htext, readNumber_literal negative x hw hf hr, hn]

theorem Number.text_head {n : Number} (h : n.Written) :
    ∃ c cs, n.text = c :: cs ∧ (c.isDigit = true ∨ c = '-') := by
  obtain ⟨negative, w, f, x, htext, hw, _, _⟩ := Number.text_literal h
  obtain ⟨c, cs, rfl, hc⟩ := hw.head
  cases negative with
  | true => exact ⟨'-', _, htext, .inr rfl⟩
  | false => exact ⟨c, _, htext, .inl hc⟩

end RoundTrip

end Library
