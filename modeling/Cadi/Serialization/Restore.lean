import Cadi.Oracle.Checks
import Cadi.Serialization.Records
import Cadi.Serialization.Snapshot

namespace Cadi
open Library
set_option autoImplicit true

section Loading

/-- `_strict_json_loads`. -/
def strictJsonLoads (text : String) : Except PyError Json :=
  match loads text.toList with
  | .ok j => .ok j
  | .error (.constant literal) => .error (.valueError
      s!"non-finite JSON numeric constant is not allowed: {String.ofList literal}")
  | .error (.overflow literal) => .error (.valueError
      s!"non-finite JSON numeric value is not allowed: {String.ofList literal}")
  | .error _ => .error (.valueError "invalid JSON")

/-- Errors of the given kinds are raised as a `ValueError`. -/
def rethrow (caught : PyError → Bool) (message : String) (x : Except PyError α) : Except PyError α :=
  match x with
  | .ok a => .ok a
  | .error e => .error (if caught e then .valueError message else e)

def schemaErrors : PyError → Bool
  | .keyError _ | .typeError _ | .attributeError _ | .valueError _ => true
  | _ => false

def invariantErrors : PyError → Bool
  | .assertionError _ => true
  | e => schemaErrors e

theorem rethrow_eq_ok {x : Except PyError α} : rethrow caught message x = .ok a ↔ x = .ok a := by
  cases x with
  | ok b => exact Iff.rfl
  | error e =>
    constructor
    · intro h
      cases h
    · intro h
      cases h

theorem strictJsonLoads_eq_ok {text : String} :
    strictJsonLoads text = .ok j ↔ loads text.toList = .ok j := by
  rw [strictJsonLoads]
  cases loads text.toList with
  | ok i => exact ⟨fun h => congrArg _ (Except.ok.inj h), fun h => congrArg _ (Except.ok.inj h)⟩
  | error e =>
    constructor
    · intro h
      cases e <;> cases h
    · intro h
      cases h

end Loading

section Validation
variable (shown : Value → String)

def entityCollectionTypes : List (String × String) :=
  [("programs", "Program"), ("sessions", "Session"), ("continuations", "Continuation"),
    ("requests", "LogicalRequest"), ("attempts", "Attempt"), ("phases", "Phase"),
    ("states", "ReusableState"), ("replicas", "StateReplica"), ("bindings", "Binding"),
    ("evidence", "Evidence"), ("outputs", "Output"), ("events", "SemanticEvent")]

def entityId : Value → Value
  | .entity _ fields => fieldOfEntity fields "id"
  | _ => .none

/-- Checks one collection against the identifiers seen so far and adds its own. -/
def validateEntries (name expectedType : String) :
    List String → List (Value × Value) → Except PyError (List String)
  | seen, [] => .ok seen
  | seen, (key, entity) :: rest =>
    match key with
    | .str k => do
      validateEntity shown expectedType name entity
      raiseIf ((entityId entity).eq key = false)
        (PyError.valueError s!"snapshot {name} key does not match entity ID")
      raiseIf (k ∈ seen) (PyError.valueError "snapshot reuses a logical ID across entity collections")
      validateEntries name expectedType (k :: seen) rest
    | _ => .error (.valueError s!"snapshot {name} keys must be strings")

def validateCollection (name expectedType : String) (seen : List String) :
    Value → Except PyError (List String)
  | .dict entries => validateEntries shown name expectedType seen entries
  | _ => .error (.valueError s!"snapshot {name} must decode to a dict")

def validateCollections (state : List (String × Value)) :
    List String → List (String × String) → Except PyError Unit
  | _, [] => .ok ()
  | seen, (name, expectedType) :: rest => do
    let seen ← validateCollection shown name expectedType seen (fieldOfEntity state name)
    validateCollections state seen rest

def validateEventOrder : Value → Except PyError Unit
  | .list items => raiseIf (items.all (annotationMatches .str) = false)
      (.valueError "snapshot event_order must decode to list[str]")
  | _ => .error (.valueError "snapshot event_order must decode to list[str]")

/-- A mapping of strings to values of one annotation. -/
def validateMapping (name text : String) (hint : Annotation) : Value → Except PyError Unit
  | .dict entries => raiseIf
      (entries.all (fun e => annotationMatches .str e.1 && annotationMatches hint e.2) = false)
      (.valueError s!"snapshot {name} must decode to dict[str, {text}]")
  | _ => .error (.valueError s!"snapshot {name} must decode to dict[str, {text}]")

/-- `_validate_decoded_state`. -/
def validateDecodedState (state : List (String × Value)) : Except PyError Unit := do
  validateCollections shown state [] entityCollectionTypes
  validateEventOrder (fieldOfEntity state "event_order")
  validateMapping "current_binding_by_subject" "str" .str
    (fieldOfEntity state "current_binding_by_subject")
  validateMapping "current_epoch_by_subject" "int" .int
    (fieldOfEntity state "current_epoch_by_subject")
  validateMapping "last_allocated_epoch_by_subject" "int" .int
    (fieldOfEntity state "last_allocated_epoch_by_subject")

end Validation

section Stores
variable [Stored α] [Restored α]

def entryOf : Value × Value → Option (String × α)
  | (.str s, v) => (Restored.ofValue v).map fun a => (s, a)
  | _ => none

/-- A store read back; the keys of a dictionary are distinct. -/
def ofStore : Value → Option (Dict String α)
  | .dict entries => do
    let l ← entries.mapM entryOf
    if h : (l.map Prod.fst).Nodup then some ⟨l, h⟩ else none
  | _ => none

def ofTexts : Value → Option (List String)
  | .list items => items.mapM stringIn
  | _ => none

/-- The core whose stores are those of a state that passed its checks. -/
def coreOf (state : List (String × Value)) : Option ContinuityCore := do
  let programs ← ofStore (fieldOfEntity state "programs")
  let sessions ← ofStore (fieldOfEntity state "sessions")
  let continuations ← ofStore (fieldOfEntity state "continuations")
  let requests ← ofStore (fieldOfEntity state "requests")
  let attempts ← ofStore (fieldOfEntity state "attempts")
  let phases ← ofStore (fieldOfEntity state "phases")
  let states ← ofStore (fieldOfEntity state "states")
  let replicas ← ofStore (fieldOfEntity state "replicas")
  let bindings ← ofStore (fieldOfEntity state "bindings")
  let evidence ← ofStore (fieldOfEntity state "evidence")
  let outputs ← ofStore (fieldOfEntity state "outputs")
  let events ← ofStore (fieldOfEntity state "events")
  let eventOrder ← ofTexts (fieldOfEntity state "event_order")
  let currentBindingBySubject ← ofStore (fieldOfEntity state "current_binding_by_subject")
  let currentEpochBySubject ← ofStore (fieldOfEntity state "current_epoch_by_subject")
  let lastAllocatedEpochBySubject ← ofStore (fieldOfEntity state "last_allocated_epoch_by_subject")
  return ⟨programs, sessions, continuations, requests, attempts, phases, states, replicas, bindings,
    evidence, outputs, events, eventOrder, currentBindingBySubject, currentEpochBySubject,
    lastAllocatedEpochBySubject⟩

end Stores

section Restoring
variable (semanticValidity : SemanticValidity) (shown : Value → String)

def coreFieldNames : List String :=
  ["programs", "sessions", "continuations", "requests", "attempts", "phases", "states", "replicas",
    "bindings", "evidence", "outputs", "events", "event_order", "current_binding_by_subject",
    "current_epoch_by_subject", "last_allocated_epoch_by_subject"]

/-- The names as a list in a message. -/
def shownNames (names : List String) : String :=
  shown (.list ((names.insertionSort (· ≤ ·)).map .str))

def decodeState (rawState : List (String × Json)) : Except PyError (List (String × Value)) :=
  coreFieldNames.mapM fun name => do
    let j ← member rawState name
    let v ← decode j
    return (name, v)

/-- The decoded state with its checks; a state that passes them is the state of a core. -/
def readState (rawState : List (String × Json)) : Except PyError ContinuityCore := do
  let state ← decodeState rawState
  validateDecodedState shown state
  match coreOf state with
  | some c => return c
  | none => throw (.valueError "snapshot has invalid type")

/-- The object under `state` of a payload with the supported schema. -/
def rawStateOf : Json → Except PyError (List (String × Json))
  | .obj members =>
    match Dict.find members "schema" with
    | some (.str schema) =>
      if schema = snapshotSchema then
        match Dict.find members "state" with
        | some (.obj rawState) => .ok rawState
        | _ => .error (.valueError "snapshot state must be an object")
      else .error (.valueError "unsupported Continuity snapshot schema")
    | _ => .error (.valueError "unsupported Continuity snapshot schema")
  | _ => .error (.valueError "unsupported Continuity snapshot schema")

/-- `restore_core`; `semanticValidity` is the callback the restored core is made with. -/
def restoreCore (snapshot : String) : Except PyError ContinuityCore := do
  let payload ← strictJsonLoads snapshot
  let rawState ← rawStateOf payload
  let names := rawState.map Prod.fst
  let missing := coreFieldNames.filter (· ∉ names)
  let extra := names.filter (· ∉ coreFieldNames)
  raiseIf (missing ≠ [])
    (PyError.valueError s!"snapshot missing core fields: {shownNames shown missing}")
  raiseIf (extra ≠ [])
    (PyError.valueError s!"snapshot has unknown core fields: {shownNames shown extra}")
  let core ← rethrow schemaErrors "snapshot violates Continuity schema" (readState shown rawState)
  rethrow invariantErrors "snapshot violates Continuity invariants" (assertAll semanticValidity core)
  return core

end Restoring

end Cadi
