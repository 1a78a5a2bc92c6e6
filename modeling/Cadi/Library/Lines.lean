import Cadi.Library.Numerals
import Mathlib.Data.String.Basic

namespace Library
set_option autoImplicit true

/-- The characters at which `str.splitlines` ends a line. -/
def lineBreaks : Text :=
  ['\n', '\r', '\x0b', '\x0c', '\x1c', '\x1d', '\x1e', '\u0085', '\u2028', '\u2029']

def isBreak (c : Char) : Bool := c ∈ lineBreaks

/-- `str.splitlines`; a carriage return and a newline after it end one line together. -/
def splitLines : Text → List Text
  | [] => []
  | '\r' :: '\n' :: s => [] :: splitLines s
  | c :: s =>
    if isBreak c then [] :: splitLines s
    else
      match splitLines s with
      | [] => [[c]]
      | l :: ls => (c :: l) :: ls

/-- The characters that `str.strip` removes at both ends. -/
def spaces : Text :=
  ['\t', '\n', '\x0b', '\x0c', '\r', '\x1c', '\x1d', '\x1e', '\x1f', ' ', '\u0085', '\u00a0', '\u1680',
    '\u2000', '\u2001', '\u2002', '\u2003', '\u2004', '\u2005', '\u2006', '\u2007', '\u2008', '\u2009',
    '\u200a', '\u2028', '\u2029', '\u202f', '\u205f', '\u3000']

/-- Nothing is left of the line by `str.strip`. -/
def isBlank (line : Text) : Bool := line.all (· ∈ spaces)

/-- The lines joined by newlines, with one after the last. -/
def jsonLines (lines : List Text) : Text :=
  List.intercalate ['\n'] lines ++ if lines = [] then [] else ['\n']

theorem jsonLines_eq (lines : List Text) : jsonLines lines = lines.flatMap (· ++ ['\n']) := by
  induction lines with
  | nil => rfl
  | cons l ls ih =>
    cases ls with
    | nil => simp [jsonLines]
    | cons m ms =>
      rw [List.flatMap_cons, ← ih]
      simp [jsonLines, List.intercalate]

theorem jsonLines_append (lines lines' : List Text) :
    jsonLines (lines ++ lines') = jsonLines lines ++ jsonLines lines' := by
  rw [jsonLines_eq, jsonLines_eq, jsonLines_eq, List.flatMap_append]

section Splitting

theorem splitLines_plain {c : Char} (h : isBreak c = false) (s : Text) :
    splitLines (c :: s) = match splitLines s with
      | [] => [[c]]
      | l :: ls => (c :: l) :: ls := by
  have hne : c ≠ '\r' := by
    intro hc
    subst hc
    cases h
  rw [splitLines]
  · simp only [h, Bool.false_eq_true, ↓reduceIte]
  · intro s hc
    exact absurd hc hne

/-- A line without breaks up to a break that starts no pair. -/
theorem splitLines_break {l : Text} (h : ∀ c ∈ l, isBreak c = false) {b : Char} (hb : isBreak b = true)
    (hr : b ≠ '\r') (s : Text) : splitLines (l ++ b :: s) = l :: splitLines s := by
  induction l with
  | nil =>
    rw [List.nil_append, splitLines]
    · rw [if_pos hb]
    · intro s hc
      exact absurd hc hr
  | cons c l ih =>
    rw [List.cons_append, splitLines_plain (h c List.mem_cons_self),
      ih fun d hd => h d (List.mem_cons_of_mem _ hd)]

end Splitting

end Library
