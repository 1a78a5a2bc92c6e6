import Cadi.Entities
import Cadi.Library.Checked
import Cadi.Library.Documents

namespace Cadi.Fields
open Library
set_option autoImplicit true

section Reading
variable {F : Type}

/-- The text of a list of names in an f-string. -/
def listText (names : List String) : String :=
  "[" ++ String.intercalate ", " (names.map fun name => "'" ++ name ++ "'") ++ "]"

def requireExactKeys (members : List (String × Doc F)) (expected : List String) (name : String) :
    Except PyError PUnit :=
  let actual := members.map Prod.fst
  let missing := sortedBy id (expected.filter (· ∉ actual))
  let unexpected := sortedBy id (actual.filter (· ∉ expected))
  raiseIf (missing ≠ [] ∨ unexpected ≠ []) (.valueError
    (name ++ " fields must exactly match schema; missing=" ++ listText missing ++ ", unexpected=" ++
      listText unexpected))

def requireMapping (value : Doc F) (name : String) : Except PyError (List (String × Doc F)) :=
  match value with
  | .obj members => .ok members
  | _ => .error (.typeError (name ++ " must be a JSON object"))

def requireList (value : Doc F) (name : String) : Except PyError (List (Doc F)) :=
  match value with
  | .arr items => .ok items
  | _ => .error (.typeError (name ++ " must be a JSON array"))

def fieldOf (members : List (String × Doc F)) (key : String) : Except PyError (Doc F) :=
  match Dict.find members key with
  | some value => .ok value
  | none => .error (.keyError key)

/-- The field is this text; the message is the source's up to the value it shows. -/
def requireText (value : Doc F) (text message : String) : Except PyError PUnit :=
  match value with
  | .str s => raiseIf (s ≠ text) (.valueError message)
  | _ => .error (.valueError message)

abbrev NonemptyString := {s : String // s ≠ ""}

abbrev PositiveInt := {n : Nat // 0 < n}

def requireNonemptyString (value : Doc F) (name : String) : Except PyError NonemptyString :=
  match value with
  | .str s =>
    if h : s ≠ "" then .ok ⟨s, h⟩ else .error (.valueError (name ++ " must be a non-empty string"))
  | _ => .error (.valueError (name ++ " must be a non-empty string"))

def requireOptionalNonemptyString (value : Doc F) (name : String) :
    Except PyError (Option NonemptyString) :=
  match value with
  | .null => .ok none
  | value => some <$> requireNonemptyString value name

def requireNonnegativeInt (value : Doc F) (name : String) : Except PyError Nat :=
  match value with
  | .int z => if z < 0 then .error (.valueError (name ++ " must be nonnegative")) else .ok z.toNat
  | _ => .error (.typeError (name ++ " must be an integer"))

def requirePositiveInt (value : Doc F) (name : String) : Except PyError PositiveInt := do
  let result ← requireNonnegativeInt value name
  if h : 0 < result then return ⟨result, h⟩ else .error (.valueError (name ++ " must be positive"))

/-- A tuple of distinct choices. -/
structure Choices (α : Type) where
  values : List α
  nonempty : values ≠ []
  nodup : values.Nodup

/-- Each value passes its check under its own name. -/
def requireEach (check : Doc F → String → Except PyError α) (name : String) (values : List (Doc F)) :
    Except PyError (List α) :=
  values.zipIdx.mapM fun p => check p.1 (name ++ "[" ++ toString p.2 ++ "]")

def requireChoices [DecidableEq α] (check : Doc F → String → Except PyError α) (name : String)
    (values : List (Doc F)) : Except PyError (Choices α) := do
  let choices ← requireEach check name values
  if hne : choices ≠ [] then
    if hnodup : choices.Nodup then return ⟨choices, hne, hnodup⟩
    else .error (.valueError (name ++ " must not contain duplicates"))
  else .error (.valueError (name ++ " must not be empty"))

end Reading

section Written
variable {F : Type}

theorem append_ne {a : String} (h : a ≠ "") (b : String) : a ++ b ≠ "" := fun hab =>
  h (String.append_eq_empty_iff.mp hab).1

theorem requireNonemptyString_str (s : NonemptyString) (name : String) :
    requireNonemptyString (.str s.1 : Doc F) name = .ok s := dif_pos s.2

def optionalDoc : Option NonemptyString → Doc F
  | none => .null
  | some s => .str s.1

theorem requireOptionalNonemptyString_doc (s : Option NonemptyString) (name : String) :
    requireOptionalNonemptyString (optionalDoc s : Doc F) name = .ok s := by
  cases s with
  | none => rfl
  | some s =>
    rw [optionalDoc, requireOptionalNonemptyString, requireNonemptyString_str]
    · rfl
    · exact fun h => by cases h

theorem requireNonnegativeInt_nat (n : Nat) (name : String) :
    requireNonnegativeInt (.int n : Doc F) name = .ok n := by
  rw [requireNonnegativeInt, if_neg (Int.not_lt.mpr (Int.natCast_nonneg n)), Int.toNat_natCast]

theorem requirePositiveInt_nat (n : PositiveInt) (name : String) :
    requirePositiveInt (.int n.1 : Doc F) name = .ok n := by
  rw [requirePositiveInt, requireNonnegativeInt_nat, Except.ok_bind, dif_pos n.2]
  rfl

theorem requireText_str (text message : String) : requireText (.str text : Doc F) text message = .ok ⟨⟩ :=
  raiseIf_eq_ok.mpr fun hne => hne rfl

theorem requireEach_map {check : Doc F → String → Except PyError α} {doc : α → Doc F}
    (h : ∀ a name, check (doc a) name = .ok a) (name : String) (l : List α) :
    requireEach check name (l.map doc) = .ok l := by
  have hloop (l : List α) (k : Nat) :
      ((l.map doc).zipIdx k).mapM (fun p => check p.1 (name ++ "[" ++ toString p.2 ++ "]")) = .ok l := by
    induction l generalizing k with
    | nil => rfl
    | cons a l ih =>
      rw [List.map_cons, List.zipIdx_cons, List.mapM_cons, h, Except.ok_bind, ih]
      rfl
  exact hloop l 0

theorem requireChoices_map [DecidableEq α] {check : Doc F → String → Except PyError α} {doc : α → Doc F}
    (h : ∀ a name, check (doc a) name = .ok a) (name : String) (c : Choices α) :
    requireChoices check name (c.values.map doc) = .ok c := by
  rw [requireChoices, requireEach_map h, Except.ok_bind, dif_pos c.nonempty, dif_pos c.nodup]
  rfl

theorem requireExactKeys_sorted {members : List (String × Doc F)} {expected : List String}
    (h : ∀ k, k ∈ members.map Prod.fst ↔ k ∈ expected) (name : String) :
    requireExactKeys (sortedBy Prod.fst (docMembers members)) expected name = .ok ⟨⟩ := by
  have hkeys (k : String) : k ∈ (sortedBy Prod.fst (docMembers members)).map Prod.fst ↔ k ∈ expected :=
    (docMembers_keys members).mem_iff.trans (h k)
  have hmissing : expected.filter (· ∉ (sortedBy Prod.fst (docMembers members)).map Prod.fst) = [] := by
    rw [List.filter_eq_nil_iff]
    intro k hk
    rw [decide_eq_true_eq, not_not]
    exact (hkeys k).mpr hk
  have hextra : ((sortedBy Prod.fst (docMembers members)).map Prod.fst).filter (· ∉ expected) = [] := by
    rw [List.filter_eq_nil_iff]
    intro k hk
    rw [decide_eq_true_eq, not_not]
    exact (hkeys k).mp hk
  rw [requireExactKeys, raiseIf_eq_ok, hmissing, hextra]
  exact not_or.mpr ⟨not_not.mpr rfl, not_not.mpr rfl⟩

theorem fieldOf_sorted {members : List (String × Doc F)} (hkeys : (members.map Prod.fst).Nodup) (i : Nat)
    (h : members[i]? = some (key, d)) :
    fieldOf (sortedBy Prod.fst (docMembers members)) key = .ok d.sorted := by
  have hfind : Dict.find members key = some d := (Dict.find_eq_some_iff hkeys).mpr (List.mem_of_getElem? h)
  rw [fieldOf, find_docMembers hkeys, hfind]
  rfl

theorem optionalDoc_sorted (s : Option NonemptyString) :
    (optionalDoc s : Doc F).sorted = optionalDoc s := by
  cases s <;> rfl

theorem arr_sorted {doc : α → Doc F} (h : ∀ a, (doc a).sorted = doc a) (l : List α) :
    (Doc.arr (l.map doc)).sorted = .arr (l.map doc) := by
  rw [Doc.sorted, docItems_eq, List.map_map]
  exact congrArg Doc.arr (List.map_congr_left fun a _ => h a)

theorem mapM_written {read : β → Except PyError α} {doc : α → β} (h : ∀ a, read (doc a) = .ok a)
    (l : List α) : (l.map doc).mapM read = .ok l := by
  induction l with
  | nil => rfl
  | cons a l ih =>
    rw [List.map_cons, List.mapM_cons, h, Except.ok_bind, ih]
    rfl

theorem mapM_docItems {read : Doc F → Except PyError α} {doc : α → Doc F}
    (h : ∀ a, read (doc a).sorted = .ok a) (l : List α) : (docItems (l.map doc)).mapM read = .ok l := by
  rw [docItems_eq, List.map_map]
  exact mapM_written h l

variable {ok : F → Prop}

theorem optionalDoc_writable (s : Option NonemptyString) : (optionalDoc s : Doc F).Writable ok := by
  cases s with
  | none => exact .null
  | some s => exact .str s.1

theorem arr_writable {doc : α → Doc F} (h : ∀ a, (doc a).Writable ok) (l : List α) :
    (Doc.arr (l.map doc)).Writable ok := by
  refine .arr fun d hd => ?_
  obtain ⟨a, -, rfl⟩ := List.mem_map.mp hd
  exact h a

end Written

end Cadi.Fields
