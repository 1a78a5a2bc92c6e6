import Cadi.Serialization.Values

namespace Cadi
open Library
set_option autoImplicit true

section Equality

/-- The number behind a value that compares as one. -/
def Value.number : Value → Option Number
  | .bool b => some (.int (if b then 1 else 0))
  | .num n => some n
  | .enum "EvidenceAuthority" name =>
    if name = "ESTIMATED" then some (.int 1)
    else if name = "DERIVED" then some (.int 2)
    else if name = "EXACT_OBSERVATION" then some (.int 3)
    else some (.int 4)
  | _ => Option.none

/-- Equality of values without parts. -/
def Value.atomEq (v w : Value) : Bool :=
  match v.number, w.number with
  | some a, some b => a.eq b
  | Option.none, Option.none =>
    match v, w with
    | .none, .none => true
    | .str s, .str t => s = t
    | .enum t a, .enum t' b => t = t' && a = b
    | _, _ => false
  | _, _ => false

mutual

/-- Equality of values, with sets and dictionaries in any order. -/
def Value.eq : Value → Value → Bool
  | .tuple items, .tuple items' => eqItems items items'
  | .list items, .list items' => eqItems items items'
  | .frozenset items, .frozenset items' => items.length = items'.length && subItems items items'
  | .dict entries, .dict entries' =>
    entries.length = entries'.length && subEntries entries entries'
  | .entity t fields, .entity t' fields' => t = t' && eqFields fields fields'
  | v, w => v.atomEq w

def eqItems : List Value → List Value → Bool
  | [], [] => true
  | v :: vs, w :: ws => v.eq w && eqItems vs ws
  | _, _ => false

def subItems : List Value → List Value → Bool
  | [], _ => true
  | v :: vs, ws => ws.any (fun w => v.eq w) && subItems vs ws

def subEntries : List (Value × Value) → List (Value × Value) → Bool
  | [], _ => true
  | (k, v) :: es, es' => es'.any (fun e => k.eq e.1 && v.eq e.2) && subEntries es es'

def eqFields : List (String × Value) → List (String × Value) → Bool
  | [], [] => true
  | (_, v) :: fs, (_, w) :: fs' => v.eq w && eqFields fs fs'
  | _, _ => false

end

mutual

/-- The type of the first part of a value that has no hash. -/
def Value.unhashable : Value → Option String
  | .list _ => some "list"
  | .dict _ => some "dict"
  | .tuple items => unhashableItem items
  | .entity _ fields => unhashableField fields
  | _ => none

def unhashableItem : List Value → Option String
  | [] => none
  | v :: vs => v.unhashable <|> unhashableItem vs

def unhashableField : List (String × Value) → Option String
  | [] => none
  | (_, v) :: fs => v.unhashable <|> unhashableField fs

end

def checkHashable (v : Value) : Except PyError Unit :=
  match v.unhashable with
  | some name => .error (.typeError s!"unhashable type: '{name}'")
  | none => .ok ()

/-- The items of a set need a hash. -/
def checkItem (hashed : Bool) (v : Value) : Except PyError Unit :=
  if hashed then checkHashable v else .ok ()

/-- The items of a set: of equal ones the first. -/
def firsts (items : List Value) : List Value :=
  items.foldl (fun vs v => if vs.any (fun w => w.eq v) then vs else vs ++ [v]) []

/-- An equal key keeps its place and takes the new value. -/
def putEntry (k v : Value) : List (Value × Value) → List (Value × Value)
  | [] => [(k, v)]
  | (k', v') :: es => if k'.eq k then (k', v) :: es else (k', v') :: putEntry k v es

end Equality

section Classes

/-- A type annotation of a field or of a parameter. -/
inductive Annotation where
  | str
  | int
  | float
  | bool
  | enum (enumType : String)
  | optional (a : Annotation)
  | frozenset (a : Annotation)
  | pair (a b : Annotation)
  | iterable (a : Annotation)
  | entity (entityType : String)
deriving DecidableEq

/-- A field of a dataclass; without a default it is required. -/
structure FieldSpec where
  name : String
  hint : Annotation
  default : Option Value := none

def textSet : Annotation := .frozenset .str

def pairSet : Annotation := .frozenset (.pair .str .str)

/-- The dataclasses of a snapshot with their fields in order. -/
def dataclassTypes : List (String × List FieldSpec) :=
  [("Program", [⟨"id", .str, none⟩, ⟨"status", .enum "ProgramStatus", some (value ProgramStatus.created)⟩]),
    ("Session", [⟨"id", .str, none⟩, ⟨"program_id", .str, none⟩]),
    ("Continuation", [⟨"id", .str, none⟩, ⟨"session_id", .str, none⟩,
      ⟨"parent_ids", textSet, some (.frozenset [])⟩,
      ⟨"lifecycle", .enum "ContinuationLifecycle", some (value ContinuationLifecycle.created)⟩]),
    ("LogicalRequest", [⟨"id", .str, none⟩, ⟨"continuation_id", .str, none⟩,
      ⟨"status", .enum "RequestStatus", some (value RequestStatus.created)⟩,
      ⟨"current_attempt_id", .optional .str, some .none⟩,
      ⟨"committed_attempt_id", .optional .str, some .none⟩,
      ⟨"authoritative_output_id", .optional .str, some .none⟩]),
    ("Attempt", [⟨"id", .str, none⟩, ⟨"request_id", .str, none⟩, ⟨"generation", .int, none⟩,
      ⟨"execution_status", .enum "ExecutionStatus", some (value ExecutionStatus.created)⟩,
      ⟨"authority_status", .enum "AttemptAuthority", some (value AttemptAuthority.none)⟩]),
    ("Phase", [⟨"id", .str, none⟩, ⟨"attempt_id", .str, none⟩, ⟨"ordinal", .int, none⟩,
      ⟨"phase_type", .enum "PhaseType", none⟩,
      ⟨"status", .enum "PhaseStatus", some (value PhaseStatus.created)⟩]),
    ("ReusableState", [⟨"id", .str, none⟩, ⟨"origin_type", .str, none⟩, ⟨"origin_id", .str, none⟩,
      ⟨"origin_continuation_id", .str, none⟩, ⟨"origin_request_id", .optional .str, some .none⟩,
      ⟨"producer_attempt_id", .optional .str, some .none⟩,
      ⟨"semantic_type", .str, some (.str "PREFIX")⟩, ⟨"representation", .str, some (.str "OPAQUE")⟩,
      ⟨"lifecycle", .enum "StateLifecycle", some (value StateLifecycle.terminal)⟩,
      ⟨"validity", .enum "StateValidity", some (value StateValidity.valid)⟩,
      ⟨"derived_from", textSet, some (.frozenset [])⟩,
      ⟨"producer_phase_id", .optional .str, some .none⟩]),
    ("StateReplica", [⟨"id", .str, none⟩, ⟨"state_id", .str, none⟩, ⟨"location_id", .str, none⟩,
      ⟨"status", .enum "ReplicaStatus", some (value ReplicaStatus.materializing)⟩,
      ⟨"binding_id", .optional .str, some .none⟩, ⟨"binding_epoch", .optional .int, some .none⟩]),
    ("Binding", [⟨"id", .str, none⟩, ⟨"subject_id", .str, none⟩, ⟨"location_id", .str, none⟩,
      ⟨"base_epoch", .int, none⟩, ⟨"epoch", .int, none⟩,
      ⟨"status", .enum "BindingStatus", some (value BindingStatus.proposed)⟩]),
    ("Evidence", [⟨"id", .str, none⟩, ⟨"claim", .str, none⟩, ⟨"source", .str, none⟩,
      ⟨"authority", .enum "EvidenceAuthority", none⟩, ⟨"status", .enum "EvidenceStatus", none⟩,
      ⟨"observed_at", .float, none⟩, ⟨"scope", pairSet, some (.frozenset [])⟩,
      ⟨"valid_until", .optional .float, some .none⟩, ⟨"confidence", .optional .float, some .none⟩,
      ⟨"derived_from", textSet, some (.frozenset [])⟩, ⟨"derivation_rule", .optional .str, some .none⟩,
      ⟨"claim_key", .optional .str, some .none⟩, ⟨"claim_value", .optional .str, some .none⟩]),
    ("Output", [⟨"id", .str, none⟩, ⟨"attempt_id", .str, none⟩, ⟨"terminal", .bool, none⟩,
      ⟨"evidence_ids", textSet, some (.frozenset [])⟩]),
    ("SemanticEvent", [⟨"id", .str, none⟩, ⟨"kind", .str, none⟩, ⟨"subject_type", .str, none⟩,
      ⟨"subject_id", .str, none⟩, ⟨"payload", pairSet, some (.frozenset [])⟩])]

/-- The name of an enumeration with those of its members. -/
def namesOf (α : Type) [DecidableEq α] [Enumeration α] : String × List String :=
  (Enumeration.enumType α, (Enumeration.members : List (String × α)).map Prod.fst)

def enumTypes : List (String × List String) :=
  [namesOf ProgramStatus, namesOf ContinuationLifecycle, namesOf RequestStatus,
    namesOf ExecutionStatus, namesOf AttemptAuthority, namesOf PhaseType, namesOf PhaseStatus,
    namesOf StateLifecycle, namesOf StateValidity, namesOf ReplicaStatus, namesOf BindingStatus,
    namesOf EvidenceAuthority, namesOf EvidenceStatus, namesOf ReconcileOutcome]

end Classes

section Constructing

/-- The names as an error lists them. -/
def listedNames : List String → String
  | [] => ""
  | [a] => s!"'{a}'"
  | [a, b] => s!"'{a}' and '{b}'"
  | [a, b, c] => s!"'{a}', '{b}', and '{c}'"
  | a :: rest => s!"'{a}', " ++ listedNames rest

def missingText (entityType : String) (missing : List String) : String :=
  let noun := if missing.length = 1 then "argument" else "arguments"
  s!"{entityType}.__init__() missing {missing.length} required positional {noun}: " ++
    listedNames missing

/-- A field by its name in a dataclass value. -/
def fieldOfEntity (fields : List (String × Value)) (name : String) : Value :=
  (Dict.find fields name).getD .none

/-- `Evidence.__post_init__`. -/
def checkClaim (fields : List (String × Value)) : Except PyError Unit :=
  match fieldOfEntity fields "claim_key", fieldOfEntity fields "claim_value" with
  | .none, .none => .ok ()
  | .none, _ | _, .none =>
    .error (.valueError "Evidence claim_key and claim_value must be both present or both absent")
  | .str key, claim => do
    raiseIf (key = "") (.valueError "Evidence claim_key must be a non-empty string")
    match claim with
    | .str text => raiseIf (text = "") (.valueError "Evidence claim_value must be a non-empty string")
    | _ => throw (.valueError "Evidence claim_value must be a non-empty string")
  | _, _ => .error (.valueError "Evidence claim_key must be a non-empty string")

/-- What follows the assignment of the fields. -/
def postInit (entityType : String) (fields : List (String × Value)) : Except PyError Unit :=
  if entityType = "Evidence" then checkClaim fields else .ok ()

def checkNames (entityType : String) (specs : List FieldSpec) (names : List String) :
    Except PyError Unit :=
  match names.find? fun name => name ∉ specs.map (·.name) with
  | some name =>
    .error (.typeError s!"{entityType}.__init__() got an unexpected keyword argument '{name}'")
  | none => .ok ()

/-- The required fields among those that are not given. -/
def missingNames (specs : List FieldSpec) (names : List String) : List String :=
  (specs.filter fun spec => spec.default.isNone ∧ spec.name ∉ names).map (·.name)

/-- The constructor of a dataclass on keyword arguments. -/
def constructEntity (entityType : String) (specs : List FieldSpec)
    (kwargs : List (String × Value)) : Except PyError Value := do
  let names := kwargs.map Prod.fst
  raiseIf ("self" ∈ names)
    (PyError.typeError s!"{entityType}.__init__() got multiple values for argument 'self'")
  checkNames entityType specs names
  raiseIf (missingNames specs names ≠ [])
    (PyError.typeError (missingText entityType (missingNames specs names)))
  let fields := specs.map fun spec =>
    (spec.name, ((Dict.find kwargs spec.name).orElse fun _ => spec.default).getD .none)
  postInit entityType fields
  return .entity entityType fields

end Constructing

section Decoding

mutual

/-- A JSON value as it was read, with its objects as dictionaries. -/
def rawValue : Json → Value
  | .null => .none
  | .bool b => .bool b
  | .num n => .num n
  | .str s => .str s
  | .arr items => .list (rawItems items)
  | .obj members => .dict (rawMembers members)

def rawItems : List Json → List Value
  | [] => []
  | j :: js => rawValue j :: rawItems js

def rawMembers : List (String × Json) → List (Value × Value)
  | [] => []
  | (key, j) :: ms => (.str key, rawValue j) :: rawMembers ms

end

/-- The name of the Python type of a JSON value. -/
def Json.pyType : Json → String
  | .null => "NoneType"
  | .bool _ => "bool"
  | .num (.int _) => "int"
  | .num (.float _) => "float"
  | .str _ => "str"
  | .arr _ => "list"
  | .obj _ => "dict"

/-- Subscription of a table by name with a JSON value. -/
def subscript (table : List (String × α)) : Json → Except PyError (String × α)
  | .str name =>
    match Dict.find table name with
    | some a => .ok (name, a)
    | none => .error (.keyError name)
  | .arr _ => .error (.typeError "unhashable type: 'list'")
  | .obj _ => .error (.typeError "unhashable type: 'dict'")
  | .null => .error (.keyError "None")
  | .bool b => .error (.keyError (if b then "True" else "False"))
  | .num n => .error (.keyError (String.ofList n.text))

/-- Subscription of an object. -/
def member (members : List (String × Json)) (key : String) : Except PyError Json :=
  match Dict.find members key with
  | some j => .ok j
  | none => .error (.keyError key)

def decodeEnum (members : List (String × Json)) : Except PyError Value := do
  let (enumType, names) ← subscript enumTypes (← member members "$enum")
  let (name, _) ← subscript (names.map fun name => (name, ())) (← member members "name")
  return .enum enumType name

/-- Two values were expected. -/
def unpackError (n : Nat) : PyError :=
  if n < 2 then .valueError s!"not enough values to unpack (expected 2, got {n})"
  else .valueError "too many values to unpack (expected 2)"

def unpackText (s : String) : Except PyError (Value × Value) :=
  match s.toList with
  | [a, b] => .ok (.str a.toString, .str b.toString)
  | cs => .error (unpackError cs.length)

mutual

def decode : Json → Except PyError Value
  | .obj members =>
    let keys := members.map Prod.fst
    if "$enum" ∈ keys then decodeEnum members
    else if "$frozenset" ∈ keys then do
      let items ← decodeItemsAt true "$frozenset" members
      return .frozenset (firsts items)
    else if "$tuple" ∈ keys then .tuple <$> decodeItemsAt false "$tuple" members
    else if "$list" ∈ keys then .list <$> decodeItemsAt false "$list" members
    else if "$dict" ∈ keys then do
      let entries ← decodePairsAt members
      return .dict (entries.foldl (fun es e => putEntry e.1 e.2 es) [])
    else if "$type" ∈ keys then do
      let (entityType, specs) ← subscript dataclassTypes (← member members "$type")
      let kwargs ← decodeFieldsAt members
      constructEntity entityType specs kwargs
    else do
      let entries ← decodeMembers members
      return .dict (entries.map fun e => (.str e.1, e.2))
  | j => .ok (rawValue j)

/-- What iterating over the member of a key gives; the items of a set must have a hash. -/
def decodeItemsAt (hashed : Bool) (key : String) :
    List (String × Json) → Except PyError (List Value)
  | [] => .error (.keyError key)
  | (k, j) :: ms => if k = key then decodeIterated hashed j else decodeItemsAt hashed key ms

def decodeIterated (hashed : Bool) : Json → Except PyError (List Value)
  | .arr items => decodeItems hashed items
  | .str s => .ok (s.toList.map fun c => .str c.toString)
  | .obj members => .ok (members.map fun m => .str m.1)
  | j => .error (.typeError s!"'{Json.pyType j}' object is not iterable")

def decodeItems (hashed : Bool) : List Json → Except PyError (List Value)
  | [] => .ok []
  | j :: js => do
    let v ← decode j
    checkItem hashed v
    let vs ← decodeItems hashed js
    return v :: vs

/-- The entries under `$dict`. -/
def decodePairsAt : List (String × Json) → Except PyError (List (Value × Value))
  | [] => .error (.keyError "$dict")
  | (k, j) :: ms => if k = "$dict" then decodeEntries j else decodePairsAt ms

def decodeEntries : Json → Except PyError (List (Value × Value))
  | .arr items => decodePairs items
  | .str s => s.toList.mapM fun c => unpackText c.toString
  | .obj members => members.mapM fun m => unpackText m.1
  | j => .error (.typeError s!"'{Json.pyType j}' object is not iterable")

def decodePairs : List Json → Except PyError (List (Value × Value))
  | [] => .ok []
  | j :: js => do
    let e ← decodePair j
    checkHashable e.1
    let es ← decodePairs js
    return e :: es

def decodePair : Json → Except PyError (Value × Value)
  | .arr (k :: v :: []) => do
    let k ← decode k
    let v ← decode v
    return (k, v)
  | .arr items => .error (unpackError items.length)
  | .str s => unpackText s
  | .obj members =>
    match members with
    | [(a, _), (b, _)] => .ok (.str a, .str b)
    | ms => .error (unpackError ms.length)
  | j => .error (.typeError s!"cannot unpack non-iterable {Json.pyType j} object")

/-- The fields under `fields`. -/
def decodeFieldsAt : List (String × Json) → Except PyError (List (String × Value))
  | [] => .error (.keyError "fields")
  | (k, j) :: ms => if k = "fields" then decodeFields j else decodeFieldsAt ms

def decodeFields : Json → Except PyError (List (String × Value))
  | .obj members => decodeMembers members
  | j => .error (.attributeError s!"'{Json.pyType j}' object has no attribute 'items'")

def decodeMembers : List (String × Json) → Except PyError (List (String × Value))
  | [] => .ok []
  | (key, j) :: ms => do
    let v ← decode j
    let vs ← decodeMembers ms
    return (key, v) :: vs

end

end Decoding

end Cadi
