import Cadi.Library.Dict
import Cadi.Library.JsonStrings
import Mathlib.Data.List.Sort

namespace Library
set_option autoImplicit true

/-- A JSON value over some strings; the members of an object keep the order in which they were
given. -/
inductive Json (σ : Type := String) where
  | null
  | bool (b : Bool)
  | num (n : Number)
  | str (s : σ)
  | arr (items : List (Json σ))
  | obj (members : List (σ × Json σ))

section Writing

section Texts
variable (escape : σ → Text)

mutual

/-- The compact text of a value, with the members in the given order. -/
def Json.write : Json σ → Text
  | .null => "null".toList
  | .bool b => if b then "true".toList else "false".toList
  | .num n => n.text
  | .str s => quoted escape s
  | .arr items => '[' :: itemsText items ++ [']']
  | .obj members => '{' :: membersText members ++ ['}']

def itemsText : List (Json σ) → Text
  | [] => []
  | [j] => j.write
  | j :: k :: js => j.write ++ ',' :: itemsText (k :: js)

def membersText : List (σ × Json σ) → Text
  | [] => []
  | [(key, j)] => quoted escape key ++ ':' :: j.write
  | (key, j) :: m :: ms => quoted escape key ++ ':' :: j.write ++ ',' :: membersText (m :: ms)

end

end Texts

/-- The text that keeps characters outside ASCII as they are. -/
def Json.text (j : Json) : Text := j.write plainEscape

/-- The text in ASCII alone. -/
def Json.asciiText [JsonString σ] (j : Json σ) : Text := j.write asciiEscape

section Orders
variable [LinearOrder σ]

/-- The members in the order of their keys. -/
def byKey (members : List (σ × Json σ)) : List (σ × Json σ) :=
  members.insertionSort fun a b => a.1 ≤ b.1

mutual

/-- Every object of the value with its members in the order of their keys. -/
def Json.sorted : Json σ → Json σ
  | .arr items => .arr (sortedItems items)
  | .obj members => .obj (byKey (sortedMembers members))
  | j => j

def sortedItems : List (Json σ) → List (Json σ)
  | [] => []
  | j :: js => j.sorted :: sortedItems js

def sortedMembers : List (σ × Json σ) → List (σ × Json σ)
  | [] => []
  | (key, j) :: ms => (key, j.sorted) :: sortedMembers ms

end

end Orders

mutual

/-- No number of the value is infinite or a NaN. -/
def Json.finite : Json σ → Bool
  | .num (.float x) => x.isFinite
  | .arr items => finiteItems items
  | .obj members => finiteMembers members
  | _ => true

def finiteItems : List (Json σ) → Bool
  | [] => true
  | j :: js => j.finite && finiteItems js

def finiteMembers : List (σ × Json σ) → Bool
  | [] => true
  | (_, j) :: ms => j.finite && finiteMembers ms

end

mutual

/-- The strings and the keys of a value. -/
def Json.strings : Json σ → List σ
  | .str s => [s]
  | .arr items => itemStrings items
  | .obj members => memberStrings members
  | _ => []

def itemStrings : List (Json σ) → List σ
  | [] => []
  | j :: js => j.strings ++ itemStrings js

def memberStrings : List (σ × Json σ) → List σ
  | [] => []
  | (key, j) :: ms => key :: j.strings ++ memberStrings ms

end

end Writing

section Reading

def isSpace (c : Char) : Bool := c = ' ' || c = '\t' || c = '\n' || c = '\r'

def skip (s : Text) : Text := s.dropWhile isSpace

/-- What follows an item: its end, or a comma and further items. -/
def readMore (close : Char) (item : α) (rest : Reader (List α)) : Reader (List α)
  | [] => .error .malformed
  | c :: s =>
    if c = close then .ok ([item], s)
    else if c = ',' then do
      let (items, s) ← rest (skip s)
      return (item :: items, s)
    else .error .malformed

/-- What a caller of the reader makes of the members of an object and of a float with its text. -/
structure Hooks (σ : Type := String) where
  pairs : List (σ × Json σ) → Except JsonError (List (σ × Json σ))
  float : Binary64 → Text → Except JsonError Binary64

section Nested
variable [JsonString σ] (hooks : Hooks σ) (value : Reader (Json σ))

/-- The items of an array up to its end, at the start of an item. -/
def readItems : Nat → Reader (List (Json σ))
  | 0, _ => .error .malformed
  | n + 1, s => do
    let (j, s) ← value s
    readMore ']' j (readItems n) (skip s)

/-- A quoted key with its colon. -/
def readKey (n : Nat) : Reader σ
  | [] => .error .malformed
  | c :: s =>
    if c = '"' then do
      let (key, s) ← readString n s
      match skip s with
      | [] => throw .malformed
      | c :: s => if c = ':' then return (key, skip s) else throw .malformed
    else .error .malformed

/-- The members of an object up to its end, at the start of a member. -/
def readMembers : Nat → Reader (List (σ × Json σ))
  | 0, _ => .error .malformed
  | n + 1, s => do
    let (key, s) ← readKey n s
    let (j, s) ← value s
    readMore '}' (key, j) (readMembers n) (skip s)

/-- The contents between two brackets, none at once after the first one. -/
def readBetween (close : Char) (contents : Reader (List α)) (s : Text) :
    Except JsonError (List α × Text) :=
  if (skip s).head? = some close then .ok ([], (skip s).tail) else contents (skip s)

/-- A number; what becomes of a float is up to the hook. -/
def readNum (s : Text) : Except JsonError (Json σ × Text) :=
  match readNumber s with
  | none => .error .malformed
  | some (.int z, r) => .ok (.num (.int z), r)
  | some (.float x, r) => do
    let x ← hooks.float x (s.take (s.length - r.length))
    return (.num (.float x), r)

/-- A word, or one of the constants that `parse_constant` refuses. -/
def readWord (s : Text) : Except JsonError (Json σ × Text) :=
  if "null".toList <+: s then .ok (.null, s.drop 4)
  else if "true".toList <+: s then .ok (.bool true, s.drop 4)
  else if "false".toList <+: s then .ok (.bool false, s.drop 5)
  else if "NaN".toList <+: s then .error (.constant "NaN".toList)
  else if "Infinity".toList <+: s then .error (.constant "Infinity".toList)
  else if "-Infinity".toList <+: s then .error (.constant "-Infinity".toList)
  else readNum hooks s

/-- A value whose parts another reader reads. -/
def readLayer (n : Nat) : Reader (Json σ)
  | [] => .error .malformed
  | c :: s =>
    if c = '"' then do
      let (text, s) ← readString n s
      return (.str text, s)
    else if c = '{' then do
      let (members, s) ← readBetween '}' (readMembers value n) s
      let members ← hooks.pairs members
      return (.obj members, s)
    else if c = '[' then do
      let (items, s) ← readBetween ']' (readItems value n) s
      return (.arr items, s)
    else readWord hooks (c :: s)

end Nested

/-- Reads a value with bounded nesting. -/
def readValue [JsonString σ] (hooks : Hooks σ) : Nat → Reader (Json σ)
  | 0 => fun _ => .error .malformed
  | n + 1 => readLayer hooks (readValue hooks n) n

/-- `json.loads` with a `parse_constant` that refuses. A value is not longer than its text, so the
bound is never met. -/
def loadsWith [JsonString σ] (hooks : Hooks σ) (s : Text) : Except JsonError (Json σ) :=
  if s.head? = some '\uFEFF' then .error .malformed
  else do
    let (j, r) ← readValue hooks (s.length + 1) (skip s)
    if skip r = [] then return j else throw .malformed

/-- A later member replaces an earlier one of the same key, in its place. -/
def object [DecidableEq σ] (members : List (σ × Json σ)) : List (σ × Json σ) :=
  members.foldl (fun ms m => Dict.put m.1 m.2 ms) []

/-- An object as a dictionary, and a float as it is. -/
def plainHooks [DecidableEq σ] : Hooks σ where
  pairs members := .ok (object members)
  float x _ := .ok x

/-- Floats past the largest one are refused. -/
def finiteHooks [DecidableEq σ] : Hooks σ where
  pairs members := .ok (object members)
  float x literal := if x.isFinite then .ok x else .error (.overflow literal)

/-- The first key that an earlier member has already. -/
def repeatedKey : List String → List String → Option String
  | _, [] => none
  | seen, key :: keys => if key ∈ seen then some key else repeatedKey (key :: seen) keys

/-- Members of one key twice are refused. -/
def distinctHooks : Hooks where
  pairs members :=
    match repeatedKey [] (members.map Prod.fst) with
    | some key => .error (.duplicate key)
    | none => .ok members
  float x _ := .ok x

/-- `json.loads` that refuses numbers that are not finite. -/
def loads (s : Text) : Except JsonError Json := loadsWith finiteHooks s

end Reading

end Library
