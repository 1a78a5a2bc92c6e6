import Cadi.Library.Checked
import Cadi.Library.Numerals
import Mathlib.Data.List.Chain
import Mathlib.Data.String.Basic

namespace Library
set_option autoImplicit true

section Points

/-- A code point of Unicode. A surrogate is one, though it is no character. -/
abbrev CodePoint := Fin 0x110000

/-- A string by its code points. -/
abbrev Points := List CodePoint

theorem toNat_cases (c : Char) : c.toNat < 0xD800 ∨ 0xE000 ≤ c.toNat ∧ c.toNat < 0x110000 := by
  have h : c.toNat < 0xD800 ∨ 0xDFFF < c.toNat ∧ c.toNat < 0x110000 := c.valid
  omega

theorem toNat_lt (c : Char) : c.toNat < 0x110000 := by
  have h := toNat_cases c
  omega

def codePoint (c : Char) : CodePoint := ⟨c.toNat, toNat_lt c⟩

def isHigh (p : CodePoint) : Bool := 0xD800 ≤ p.val && p.val < 0xDC00

def isLow (p : CodePoint) : Bool := 0xDC00 ≤ p.val && p.val < 0xE000

/-- The code point that a pair of surrogates stands for. -/
def joinedPair (high low : CodePoint) : CodePoint :=
  Fin.ofNat 0x110000 (0x10000 + (high.val - 0xD800) * 0x400 + (low.val - 0xDC00))

theorem isHigh_iff {p : CodePoint} : isHigh p = true ↔ 0xD800 ≤ p.val ∧ p.val < 0xDC00 := by
  rw [isHigh, Bool.and_eq_true, decide_eq_true_eq, decide_eq_true_eq]

theorem isLow_iff {p : CodePoint} : isLow p = true ↔ 0xDC00 ≤ p.val ∧ p.val < 0xE000 := by
  rw [isLow, Bool.and_eq_true, decide_eq_true_eq, decide_eq_true_eq]

theorem isHigh_point (c : Char) : isHigh (codePoint c) = false := by
  have h := toNat_cases c
  rw [Bool.eq_false_iff, ne_eq, isHigh_iff]
  change ¬ (0xD800 ≤ c.toNat ∧ c.toNat < 0xDC00)
  omega

theorem isLow_point (c : Char) : isLow (codePoint c) = false := by
  have h := toNat_cases c
  rw [Bool.eq_false_iff, ne_eq, isLow_iff]
  change ¬ (0xDC00 ≤ c.toNat ∧ c.toNat < 0xE000)
  omega

/-- The types that strings can have: a text of some code points is a string, or is none. -/
class JsonString (σ : Type) where
  codePoints : σ → Points
  ofCodePoints : Points → Option σ
  ofCodePoints_eq_some {ps : Points} {s : σ} : ofCodePoints ps = some s ↔ codePoints s = ps
  ofString : String → σ
  codePoints_ofString (s : String) : codePoints (ofString s) = s.toList.map codePoint

export JsonString (codePoints ofCodePoints ofCodePoints_eq_some ofString codePoints_ofString)

instance : JsonString Points where
  codePoints ps := ps
  ofCodePoints ps := some ps
  ofCodePoints_eq_some := Option.some_inj.trans eq_comm
  ofString s := s.toList.map codePoint
  codePoints_ofString _ := rfl

/-- The string of some code points, unless a surrogate is among them. -/
def stringOf (ps : Points) : Option String :=
  if ∀ p ∈ ps, p.val.isValidChar then some (String.ofList (ps.map fun p => Char.ofNat p.val)) else none

theorem point_ofNat {p : CodePoint} (h : p.val.isValidChar) : codePoint (Char.ofNat p.val) = p :=
  Fin.ext (by rw [codePoint, Char.ofNat, dif_pos h]; rfl)

theorem stringOf_eq_some : stringOf ps = some s ↔ s.toList.map codePoint = ps := by
  rw [stringOf]
  constructor
  · intro h
    split at h
    · next hvalid =>
      obtain rfl := Option.some.inj h
      rw [String.toList_ofList, List.map_map]
      exact (List.map_congr_left fun p hp => point_ofNat (hvalid p hp)).trans (List.map_id ps)
    · cases h
  · rintro rfl
    have hvalid : ∀ p ∈ s.toList.map codePoint, p.val.isValidChar := by
      intro p hp
      obtain ⟨c, -, rfl⟩ := List.mem_map.mp hp
      exact c.valid
    rw [if_pos hvalid, List.map_map]
    have hback : (s.toList.map fun c => Char.ofNat (codePoint c).val) = s.toList :=
      (List.map_congr_left fun c _ => Char.ofNat_toNat c).trans (List.map_id _)
    exact congrArg some ((congrArg String.ofList hback).trans String.ofList_toList)

instance : JsonString String where
  codePoints s := s.toList.map codePoint
  ofCodePoints := stringOf
  ofCodePoints_eq_some := stringOf_eq_some
  ofString s := s
  codePoints_ofString _ := rfl

/-- No high surrogate stands before a low one. A reader takes such a pair for one code point. -/
def Joined (ps : Points) : Prop := ps.IsChain fun p q => ¬ (isHigh p = true ∧ isLow q = true)

instance (ps : Points) : Decidable (Joined ps) := inferInstanceAs (Decidable (List.IsChain _ ps))

theorem joined_chars (l : List Char) : Joined (l.map codePoint) := by
  rw [Joined, List.isChain_map]
  refine List.Pairwise.isChain (List.pairwise_of_forall fun c d h => ?_)
  rw [isHigh_point] at h
  cases h.1

theorem joined_string (s : String) : Joined (codePoints s) := joined_chars s.toList

end Points

section Writing

def hexDigits : Text := "0123456789abcdef".toList

/-- The text of a character inside a string; only quotes, backslashes and controls are escaped. -/
def escaped (c : Char) : Text :=
  if c = '"' then ['\\', '"']
  else if c = '\\' then ['\\', '\\']
  else if c = '\n' then ['\\', 'n']
  else if c = '\r' then ['\\', 'r']
  else if c = '\t' then ['\\', 't']
  else if c = '\x08' then ['\\', 'b']
  else if c = '\x0c' then ['\\', 'f']
  else if c.toNat < 32 then
    ['\\', 'u', '0', '0', Nat.digitChar (c.toNat / 16), Nat.digitChar (c.toNat % 16)]
  else [c]

/-- The escape of a code unit by four hexadecimal digits. -/
def unitEscape (n : Nat) : Text :=
  ['\\', 'u', Nat.digitChar (n / 4096 % 16), Nat.digitChar (n / 256 % 16),
    Nat.digitChar (n / 16 % 16), Nat.digitChar (n % 16)]

/-- The text of a code point inside an ASCII string; past the basic plane it is a pair of
surrogates. -/
def asciiEscaped (p : CodePoint) : Text :=
  if p.val < 127 then escaped (Char.ofNat p.val)
  else if p.val < 0x10000 then unitEscape p.val
  else unitEscape (0xD800 + (p.val - 0x10000) / 0x400) ++
    unitEscape (0xDC00 + (p.val - 0x10000) % 0x400)

/-- The text of a string that keeps characters outside ASCII as they are. -/
def plainEscape (s : String) : Text := s.toList.flatMap escaped

/-- The text of a string in ASCII alone. -/
def asciiEscape [JsonString σ] (s : σ) : Text := (codePoints s).flatMap asciiEscaped

def quoted (escape : σ → Text) (s : σ) : Text := '"' :: escape s ++ ['"']

end Writing

section Reading

/-- Why a text is not read: it is no JSON text, a hook refuses a part of it, or a string of it is
none of its type. -/
inductive JsonError where
  | malformed
  | constant (literal : Text)
  | overflow (literal : Text)
  | duplicate (key : String)
  | surrogate
deriving DecidableEq

/-- A reader takes a value off the front of a text. -/
abbrev Reader (α : Type) := Text → Except JsonError (α × Text)

def hexValue (c : Char) : Option Nat :=
  if '0' ≤ c ∧ c ≤ '9' then some (c.toNat - '0'.toNat)
  else if 'a' ≤ c ∧ c ≤ 'f' then some (c.toNat - 'a'.toNat + 10)
  else if 'A' ≤ c ∧ c ≤ 'F' then some (c.toNat - 'A'.toNat + 10)
  else none

/-- The code unit behind four hexadecimal digits. -/
def readUnit : Reader CodePoint
  | a :: b :: c :: d :: s =>
    match hexValue a, hexValue b, hexValue c, hexValue d with
    | some a, some b, some c, some d =>
      .ok (Fin.ofNat 0x110000 (((a * 16 + b) * 16 + c) * 16 + d), s)
    | _, _, _, _ => .error .malformed
  | _ => .error .malformed

/-- The low surrogate that an escape gives, where one stands. -/
def readLow : Text → Option (CodePoint × Text)
  | '\\' :: 'u' :: s =>
    match readUnit s with
    | .ok (low, s) => if isLow low then some (low, s) else none
    | .error _ => none
  | _ => none

/-- A high surrogate is joined with the low one after it, and is kept where none follows. -/
def readUnicode (s : Text) : Except JsonError (CodePoint × Text) := do
  let (unit, s) ← readUnit s
  if isHigh unit then
    match readLow s with
    | some (low, s) => return (joinedPair unit low, s)
    | none => return (unit, s)
  else return (unit, s)

/-- The code point after a backslash. -/
def readEscape : Reader CodePoint
  | [] => .error .malformed
  | c :: s =>
    if c = 'u' then readUnicode s
    else if c = '"' ∨ c = '\\' ∨ c = '/' then .ok (codePoint c, s)
    else if c = 'n' then .ok (codePoint '\n', s)
    else if c = 'r' then .ok (codePoint '\r', s)
    else if c = 't' then .ok (codePoint '\t', s)
    else if c = 'b' then .ok (codePoint '\x08', s)
    else if c = 'f' then .ok (codePoint '\x0c', s)
    else .error .malformed

/-- One code point of a string that has not ended. -/
def readChar : Reader CodePoint
  | [] => .error .malformed
  | c :: s =>
    if c = '\\' then readEscape s
    else if c.toNat < 32 then .error .malformed
    else .ok (codePoint c, s)

/-- The code points up to the closing quote. -/
def readChars : Nat → Reader Points
  | 0, _ => .error .malformed
  | _ + 1, [] => .error .malformed
  | n + 1, c :: s =>
    if c = '"' then .ok ([], s)
    else do
      let (p, s) ← readChar (c :: s)
      let (ps, s) ← readChars n s
      return (p :: ps, s)

/-- A string after its opening quote. -/
def readString [JsonString σ] (n : Nat) : Reader σ := fun s => do
  let (ps, s) ← readChars n s
  match ofCodePoints ps with
  | some text => return (text, s)
  | none => throw .surrogate

end Reading

section Units

theorem hexValue_digitChar : ∀ k < 16, hexValue (Nat.digitChar k) = some k := by decide

theorem readUnit_unitEscape {p : CodePoint} (h : p.val < 0x10000) (r : Text) :
    readUnit (Nat.digitChar (p.val / 4096 % 16) :: Nat.digitChar (p.val / 256 % 16) ::
      Nat.digitChar (p.val / 16 % 16) :: Nat.digitChar (p.val % 16) :: r) = .ok (p, r) := by
  have hdigit (k : Nat) := hexValue_digitChar (k % 16) (Nat.mod_lt k (by decide))
  have hvalue : ((p.val / 4096 % 16 * 16 + p.val / 256 % 16) * 16 + p.val / 16 % 16) * 16 +
      p.val % 16 = p.val := by omega
  simp only [readUnit, hdigit, hvalue]
  exact congrArg (fun q => Except.ok (q, r)) (Fin.ext (Nat.mod_eq_of_lt p.isLt))

theorem readChar_unit {p : CodePoint} (h : p.val < 0x10000) (hnone : isHigh p = true → readLow r = none) :
    readChar (unitEscape p.val ++ r) = .ok (p, r) := by
  have hunit := readUnit_unitEscape h r
  simp only [unitEscape, List.cons_append, List.nil_append, readChar, ↓reduceIte, readEscape,
    readUnicode, hunit, Except.ok_bind]
  split
  · next hhigh => rw [hnone hhigh]; rfl
  · rfl

theorem readLow_unit {p : CodePoint} (h : p.val < 0x10000) (r : Text) :
    readLow (unitEscape p.val ++ r) = if isLow p = true then some (p, r) else none := by
  have hunit := readUnit_unitEscape h r
  simp only [unitEscape, List.cons_append, List.nil_append, readLow, hunit]

theorem joinedPair_val {high low : CodePoint} (hhigh : isHigh high = true) (hlow : isLow low = true) :
    (joinedPair high low).val = 0x10000 + (high.val - 0xD800) * 0x400 + (low.val - 0xDC00) := by
  rw [isHigh_iff] at hhigh
  rw [isLow_iff] at hlow
  exact Nat.mod_eq_of_lt (by omega)

/-- A code point past the basic plane is that of a pair of surrogates. -/
theorem surrogate_pair {p : CodePoint} (h : ¬ p.val < 0x10000) :
    ∃ high low : CodePoint, high.val = 0xD800 + (p.val - 0x10000) / 0x400 ∧
      low.val = 0xDC00 + (p.val - 0x10000) % 0x400 ∧ isHigh high = true ∧ isLow low = true ∧
      joinedPair high low = p := by
  have hp := p.isLt
  refine ⟨⟨0xD800 + (p.val - 0x10000) / 0x400, by omega⟩,
    ⟨0xDC00 + (p.val - 0x10000) % 0x400, by omega⟩, rfl, rfl, ?_⟩
  have hhigh : isHigh ⟨0xD800 + (p.val - 0x10000) / 0x400, by omega⟩ = true :=
    isHigh_iff.mpr ⟨by dsimp only; omega, by dsimp only; omega⟩
  have hlow : isLow ⟨0xDC00 + (p.val - 0x10000) % 0x400, by omega⟩ = true :=
    isLow_iff.mpr ⟨by dsimp only; omega, by dsimp only; omega⟩
  refine ⟨hhigh, hlow, Fin.ext ?_⟩
  rw [joinedPair_val hhigh hlow]
  dsimp only
  omega

theorem readChar_pair {p : CodePoint} (h : ¬ p.val < 0x10000) (r : Text) :
    readChar (unitEscape (0xD800 + (p.val - 0x10000) / 0x400) ++
      unitEscape (0xDC00 + (p.val - 0x10000) % 0x400) ++ r) = .ok (p, r) := by
  obtain ⟨high, low, hhigh, hlow, hhigh', hlow', hjoin⟩ := surrogate_pair h
  have hbounds := isHigh_iff.mp hhigh'
  have hbounds' := isLow_iff.mp hlow'
  have hunit := readUnit_unitEscape (p := high) (by omega) (unitEscape low.val ++ r)
  have hread := readLow_unit (p := low) (by omega) r
  rw [if_pos hlow'] at hread
  rw [← hhigh, ← hlow, List.append_assoc]
  generalize unitEscape low.val ++ r = t at hunit hread
  simp only [unitEscape, List.cons_append, List.nil_append, readChar, ↓reduceIte, readEscape,
    readUnicode, hunit, Except.ok_bind, hhigh', hread, hjoin]
  rfl

theorem escaped_head (c : Char) : ∃ d ds, escaped c = d :: ds ∧ d ≠ '"' := by
  unfold escaped
  repeat' split
  all_goals first
    | exact ⟨_, _, rfl, by decide⟩
    | exact ⟨c, [], rfl, by assumption⟩

theorem readChar_escaped (c : Char) (r : Text) : readChar (escaped c ++ r) = .ok (codePoint c, r) := by
  unfold escaped
  split
  · next h => subst h; rfl
  split
  · next h => subst h; rfl
  split
  · next h => subst h; rfl
  split
  · next h => subst h; rfl
  split
  · next h => subst h; rfl
  split
  · next h => subst h; rfl
  split
  · next h => subst h; rfl
  split
  · next h =>
    have hval : (codePoint c).val = c.toNat := rfl
    have hhigh : isHigh (codePoint c) = true → readLow r = none := by
      intro hhigh
      rw [isHigh_point] at hhigh
      cases hhigh
    have hunit := readChar_unit (p := codePoint c) (by omega) hhigh
    have hzero : c.toNat / 4096 % 16 = 0 ∧ c.toNat / 256 % 16 = 0 ∧
        c.toNat / 16 % 16 = c.toNat / 16 := by omega
    rw [unitEscape, hval, hzero.1, hzero.2.1, hzero.2.2] at hunit
    exact hunit
  · next hquote hslash _ _ _ _ _ hcontrol =>
    simp only [List.cons_append, List.nil_append, readChar, hslash, hcontrol, ↓reduceIte]

theorem asciiEscaped_head (p : CodePoint) : ∃ d ds, asciiEscaped p = d :: ds ∧ d ≠ '"' := by
  unfold asciiEscaped
  split
  · exact escaped_head _
  split
  · exact ⟨_, _, rfl, by decide⟩
  · exact ⟨_, _, rfl, by decide⟩

/-- A code point is read back unless it is a high surrogate that a low one follows. -/
theorem readChar_asciiEscaped {p : CodePoint} (h : isHigh p = true → readLow r = none) :
    readChar (asciiEscaped p ++ r) = .ok (p, r) := by
  unfold asciiEscaped
  split
  · next hp =>
    rw [readChar_escaped, point_ofNat (.inl (by omega))]
  split
  · next hp => exact readChar_unit hp h
  · next hp => exact readChar_pair hp r

end Units

section Surrogates

theorem readLow_eq_some (h : readLow t = some (low, r)) : isLow low = true := by
  unfold readLow at h
  split at h
  · split at h
    · split at h
      · next hlow =>
        obtain ⟨rfl, -⟩ := Prod.mk.inj (Option.some.inj h)
        exact hlow
      · cases h
    · cases h
  · cases h

theorem readChar_of_readLow (h : readLow t = some (low, r)) : readChar t = .ok (low, r) := by
  have hlow := readLow_eq_some h
  unfold readLow at h
  split at h
  · next s =>
    split at h
    · next unit s' hunit =>
      rw [Option.ite_none_right_eq_some] at h
      obtain ⟨rfl, rfl⟩ := Prod.mk.inj (Option.some.inj h.2)
      have hhigh : ¬ isHigh unit = true := by
        rw [isLow_iff] at hlow
        rw [isHigh_iff]
        omega
      simp only [readChar, ↓reduceIte, readEscape, readUnicode, hunit, Except.ok_bind, hhigh]
      rfl
    · cases h
  · cases h

/-- After a high surrogate no low one can be read, and a low one is read only as itself. -/
structure Apart (p : CodePoint) (s t : Text) : Prop where
  high : isHigh p = true → readLow t = none
  low : isLow p = true → readLow s = some (p, t)

theorem Apart.of_char (c : Char) : Apart (codePoint c) s t where
  high h := by
    rw [isHigh_point] at h
    cases h
  low h := by
    rw [isLow_point] at h
    cases h

theorem readUnicode_apart (h : readUnicode s = .ok (p, t)) : Apart p ('\\' :: 'u' :: s) t := by
  rw [readUnicode] at h
  obtain ⟨⟨unit, r⟩, hunit, h⟩ := Except.bind_eq_ok.mp h
  dsimp only at h
  split at h
  · next hhigh =>
    split at h
    · next low r' hread =>
      -- the code point of a pair is no surrogate itself
      obtain ⟨rfl, rfl⟩ := Prod.mk.inj (Except.ok.inj h)
      have hval := joinedPair_val hhigh (readLow_eq_some hread)
      constructor
      · intro hp
        have hbounds := isHigh_iff.mp hp
        omega
      · intro hp
        have hbounds := isLow_iff.mp hp
        omega
    · next hnone =>
      obtain ⟨rfl, rfl⟩ := Prod.mk.inj (Except.ok.inj h)
      refine ⟨fun _ => hnone, fun hp => ?_⟩
      have hbounds := isHigh_iff.mp hhigh
      have hbounds' := isLow_iff.mp hp
      omega
  · next hhigh =>
    obtain ⟨rfl, rfl⟩ := Prod.mk.inj (Except.ok.inj h)
    refine ⟨fun hp => absurd hp hhigh, fun hp => ?_⟩
    simp only [readLow, hunit, hp, ↓reduceIte]

theorem readChar_apart (h : readChar s = .ok (p, t)) : Apart p s t := by
  unfold readChar at h
  split at h
  · cases h
  split at h
  · next c r hslash =>
    subst hslash
    unfold readEscape at h
    split at h
    · cases h
    split at h
    · next hu =>
      subst hu
      exact readUnicode_apart h
    repeat' split at h
    iterate 6
      · cases h
        exact .of_char _
    · cases h
  · split at h
    · cases h
    · cases h
      exact .of_char _

/-- The strings that are read have their surrogates joined. -/
theorem readChars_joined (h : readChars n s = .ok (ps, t)) :
    Joined ps ∧ ∀ p ∈ ps.head?, isLow p = true → readLow s ≠ none := by
  induction n generalizing s ps with
  | zero => cases h
  | succ n ih =>
    cases s with
    | nil => cases h
    | cons c s =>
      rw [readChars] at h
      split at h
      · cases h
        exact ⟨.nil, fun p hp => by cases hp⟩
      · obtain ⟨⟨p, r⟩, hp, h⟩ := Except.bind_eq_ok.mp h
        obtain ⟨⟨qs, r'⟩, hqs, h⟩ := Except.bind_eq_ok.mp h
        obtain ⟨rfl, rfl⟩ := Prod.mk.inj (Except.ok.inj h)
        have hapart := readChar_apart hp
        obtain ⟨hjoined, hfirst⟩ := ih hqs
        constructor
        · refine List.isChain_cons.mpr ⟨fun q hq h => ?_, hjoined⟩
          exact hfirst q hq h.2 (hapart.high h.1)
        · intro q hq hlow hnone
          obtain rfl := Option.some.inj hq
          rw [hapart.low hlow] at hnone
          cases hnone

theorem readString_eq_ok [JsonString σ] {s : σ} (h : readString n t = .ok (s, r)) :
    readChars n t = .ok (codePoints s, r) := by
  obtain ⟨⟨ps, r'⟩, hps, h⟩ := Except.bind_eq_ok.mp h
  dsimp only at h
  split at h
  · next text htext =>
    obtain ⟨rfl, rfl⟩ := Prod.mk.inj (Except.ok.inj h)
    rw [ofCodePoints_eq_some.mp htext]
    exact hps
  · cases h

theorem readString_joined [JsonString σ] {s : σ} (h : readString n t = .ok (s, r)) :
    Joined (codePoints s) :=
  (readChars_joined (readString_eq_ok h)).1

end Surrogates

section Escapes

/-- The text of a string is not shorter than it, and is read as the string up to a closing quote. -/
structure Escapes [JsonString σ] (escape : σ → Text) (s : σ) : Prop where
  length : (codePoints s).length ≤ (escape s).length
  read : ∀ n r, (codePoints s).length < n → readChars n (escape s ++ '"' :: r) = .ok (codePoints s, r)

theorem length_flatMap_le {text : α → Text} (h : ∀ a, ∃ d ds, text a = d :: ds ∧ d ≠ '"') (l : List α) :
    l.length ≤ (l.flatMap text).length := by
  induction l with
  | nil => exact Nat.le_refl 0
  | cons a l ih =>
    obtain ⟨d, ds, hd, _⟩ := h a
    rw [List.flatMap_cons, List.length_append, hd, List.length_cons, List.length_cons]
    omega

theorem readChars_flatMap {text : α → Text} {value : α → CodePoint}
    (head : ∀ a, ∃ d ds, text a = d :: ds ∧ d ≠ '"') (l : List α) (r : Text)
    (hread : ∀ a after, a :: after <:+ l → readChar (text a ++ (after.flatMap text ++ '"' :: r)) =
      .ok (value a, after.flatMap text ++ '"' :: r)) (hn : l.length < n) :
    readChars n (l.flatMap text ++ '"' :: r) = .ok (l.map value, r) := by
  induction l generalizing n with
  | nil =>
    cases n with
    | zero => cases hn
    | succ n => simp only [List.flatMap_nil, List.nil_append, readChars, ↓reduceIte, List.map_nil]
  | cons a l ih =>
    cases n with
    | zero => cases hn
    | succ n =>
      obtain ⟨d, ds, hd, hne⟩ := head a
      have hfirst := hread a l List.suffix_rfl
      have hrest := ih (fun b after h => hread b after (h.trans (List.suffix_cons a l)))
        (Nat.lt_of_succ_lt_succ hn)
      rw [hd, List.cons_append] at hfirst
      rw [List.flatMap_cons, List.append_assoc, hd, List.cons_append, readChars, if_neg hne, hfirst]
      simp only [Except.ok_bind, hrest]
      rfl

theorem plainEscape_escapes (s : String) : Escapes plainEscape s where
  length := by
    have hlength : (codePoints s).length = s.toList.length := List.length_map _
    exact hlength ▸ length_flatMap_le escaped_head s.toList
  read n r hn := by
    have hlength : (codePoints s).length = s.toList.length := List.length_map _
    exact readChars_flatMap escaped_head s.toList r (fun c _ _ => readChar_escaped c _) (hlength ▸ hn)

theorem readLow_asciiEscaped {q : CodePoint} (h : isLow q = false) (r : Text) :
    readLow (asciiEscaped q ++ r) = none := by
  by_cases hhigh : isHigh q = true
  · have hbounds := isHigh_iff.mp hhigh
    have hread := readLow_unit (p := q) (by omega) r
    rw [asciiEscaped, if_neg (by omega), if_pos (by omega), hread, h]
    rfl
  · have hread := readChar_asciiEscaped (r := r) fun h => absurd h hhigh
    cases hlow : readLow (asciiEscaped q ++ r) with
    | none => rfl
    | some x =>
      obtain ⟨low, r'⟩ := x
      rw [readChar_of_readLow hlow] at hread
      obtain ⟨rfl, -⟩ := Prod.mk.inj (Except.ok.inj hread)
      rw [readLow_eq_some hlow] at h
      cases h

/-- A string whose surrogates are joined is read back from ASCII. -/
theorem asciiEscape_escapes [JsonString σ] {s : σ} (h : Joined (codePoints s)) :
    Escapes asciiEscape s where
  length := length_flatMap_le asciiEscaped_head (codePoints s)
  read n r hn := by
    have hread : readChars n (asciiEscape s ++ '"' :: r) = .ok ((codePoints s).map id, r) := by
      apply readChars_flatMap asciiEscaped_head (codePoints s) r _ hn
      intro p after hsuffix
      apply readChar_asciiEscaped
      intro hhigh
      cases after with
      | nil => rfl
      | cons q after =>
        have hchain := h.suffix hsuffix
        have hlow : isLow q = false := Bool.eq_false_iff.mpr fun hlow =>
          (List.isChain_cons.mp hchain).1 q rfl ⟨hhigh, hlow⟩
        rw [List.flatMap_cons, List.append_assoc]
        exact readLow_asciiEscaped hlow _
    rwa [List.map_id] at hread

/-- A high surrogate on its own is kept, and a pair is one code point. -/
example : (readString 9 "\\ud800\\ud83d\\ude00\"".toList : Except JsonError (Points × Text)) =
    .ok ([0xD800, 0x1F600], []) := by decide +kernel

variable [JsonString σ] {escape : σ → Text} {s : σ}

omit [JsonString σ] in
theorem quoted_append (s : σ) (r : Text) : quoted escape s ++ r = '"' :: (escape s ++ '"' :: r) := by
  simp only [quoted, List.cons_append, List.append_assoc, List.nil_append]

theorem length_quoted (h : Escapes escape s) : (codePoints s).length + 2 ≤ (quoted escape s).length := by
  have hlen := h.length
  simp only [quoted, List.length_cons, List.length_append, List.length_nil]
  omega

theorem readString_escape (h : Escapes escape s) (hn : (codePoints s).length < n) (r : Text) :
    readString n (escape s ++ '"' :: r) = .ok (s, r) := by
  rw [readString, h.read n r hn, Except.ok_bind]
  simp only [ofCodePoints_eq_some.mpr rfl]
  rfl

end Escapes

end Library
