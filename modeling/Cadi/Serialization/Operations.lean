import Cadi.Core.PublicOperation
import Cadi.Serialization.EventLog
import Cadi.Serialization.Relisting

namespace Cadi
open Library
set_option autoImplicit true

section Signatures

def operationTraceSchema : String := "cadi.semantic-operation.v1"

/-- A parameter of a method with its annotation. -/
structure Parameter where
  name : String
  hint : Annotation
  required : Bool := true

def optionalParameter (name : String) (hint : Annotation) : Parameter := ⟨name, hint, false⟩

def nowParameter : Parameter := optionalParameter "now" (.optional .float)

/-- The allowed actions with the parameters of their methods. -/
def signatures : List (String × List Parameter) :=
  [("create_program", [⟨"id_", .str, true⟩]),
    ("set_program_status", [⟨"program_id", .str, true⟩, ⟨"status", .enum "ProgramStatus", true⟩]),
    ("create_session", [⟨"id_", .str, true⟩, ⟨"program_id", .str, true⟩]),
    ("create_continuation", [⟨"id_", .str, true⟩, ⟨"session_id", .str, true⟩,
      optionalParameter "parent_ids" (.iterable .str),
      optionalParameter "lifecycle" (.enum "ContinuationLifecycle")]),
    ("set_continuation_lifecycle",
      [⟨"continuation_id", .str, true⟩, ⟨"lifecycle", .enum "ContinuationLifecycle", true⟩]),
    ("resume_after_wait", [⟨"waiting_id", .str, true⟩, ⟨"child_id", .str, true⟩]),
    ("create_request", [⟨"id_", .str, true⟩, ⟨"continuation_id", .str, true⟩]),
    ("start_attempt", [⟨"id_", .str, true⟩, ⟨"request_id", .str, true⟩]),
    ("set_attempt_execution", [⟨"attempt_id", .str, true⟩, ⟨"status", .enum "ExecutionStatus", true⟩]),
    ("complete_attempt", [⟨"attempt_id", .str, true⟩, optionalParameter "succeeded" .bool]),
    ("create_phase", [⟨"id_", .str, true⟩, ⟨"attempt_id", .str, true⟩,
      ⟨"phase_type", .enum "PhaseType", true⟩, optionalParameter "ordinal" (.optional .int)]),
    ("set_phase_status", [⟨"phase_id", .str, true⟩, ⟨"status", .enum "PhaseStatus", true⟩]),
    ("complete_phase", [⟨"phase_id", .str, true⟩]),
    ("create_output", [⟨"id_", .str, true⟩, ⟨"attempt_id", .str, true⟩, ⟨"terminal", .bool, true⟩,
      optionalParameter "evidence_ids" (.iterable .str)]),
    ("finalize_request", [⟨"request_id", .str, true⟩, ⟨"output_id", .str, true⟩, nowParameter]),
    ("create_state", [⟨"id_", .str, true⟩, ⟨"origin_type", .str, true⟩, ⟨"origin_id", .str, true⟩,
      optionalParameter "semantic_type" .str, optionalParameter "representation" .str,
      optionalParameter "derived_from" (.iterable .str)]),
    ("set_state_validity", [⟨"state_id", .str, true⟩, ⟨"validity", .enum "StateValidity", true⟩]),
    ("add_replica", [⟨"id_", .str, true⟩, ⟨"state_id", .str, true⟩, ⟨"location_id", .str, true⟩,
      optionalParameter "status" (.enum "ReplicaStatus")]),
    ("set_replica_status", [⟨"replica_id", .str, true⟩, ⟨"status", .enum "ReplicaStatus", true⟩]),
    ("propose_binding", [⟨"id_", .str, true⟩, ⟨"subject_id", .str, true⟩, ⟨"location_id", .str, true⟩]),
    ("activate_initial_binding",
      [⟨"id_", .str, true⟩, ⟨"subject_id", .str, true⟩, ⟨"location_id", .str, true⟩]),
    ("begin_migration", [⟨"binding_id", .str, true⟩]),
    ("commit_migration",
      [⟨"binding_id", .str, true⟩, ⟨"evidence_ids", .iterable .str, true⟩, nowParameter]),
    ("record_evidence", [⟨"e", .entity "Evidence", true⟩]),
    ("record_event", [⟨"event", .entity "SemanticEvent", true⟩])]

def allowedActions : List String := signatures.map Prod.fst

def timeSensitiveActions : List String := ["finalize_request", "commit_migration"]

/-- `_matches_operation_annotation`. The fields of a dataclass have annotations on which it agrees
with the check of a snapshot. -/
def operationAnnotationMatches : Annotation → Value → Bool
  | .iterable a, .list items => items.all (operationAnnotationMatches a)
  | .iterable a, .tuple items => items.all (operationAnnotationMatches a)
  | .iterable a, .frozenset items => items.all (operationAnnotationMatches a)
  | .iterable _, _ => false
  | .optional a, v => v.isNone || operationAnnotationMatches a v
  | .entity t, .entity t' fields =>
    t' = t && ((Dict.find dataclassTypes t).getD []).all fun spec =>
      annotationMatches spec.hint (fieldOfEntity fields spec.name)
  | a, v => annotationMatches a v

end Signatures

section Validation
variable (shown : Value → String)

/-- A string as `repr` shows it. -/
def shownText (s : String) : String := shown (.str s)

def requireExplicitReplayTime (action : String) (arguments : List (String × Value)) :
    Except PyError Unit :=
  raiseIf (action ∈ timeSensitiveActions ∧ (fieldOfEntity arguments "now").isNone = true)
    (.valueError s!"semantic replay action {shownText shown action} requires explicit 'now'")

/-- `inspect.signature(method).bind(None, **arguments)`. -/
def binds (parameters : List Parameter) (names : List String) : Bool :=
  names.all (· ∈ parameters.map (·.name)) && parameters.all fun p => !p.required || p.name ∈ names

/-- The checks of the bound arguments, in the order of the parameters. -/
def checkArguments (action : String) (arguments : List (String × Value)) :
    List Parameter → Except PyError Unit
  | [] => .ok ()
  | p :: ps => do
    match Dict.find arguments p.name with
    | some v => raiseIf (operationAnnotationMatches p.hint v = false) (PyError.valueError
        s!"semantic operation {shownText shown action} argument {shownText shown p.name} has invalid type")
    | none => pure ()
    checkArguments action arguments ps

def unsupportedAction (action : Value) : PyError :=
  .valueError s!"unsupported semantic operation action: {shown action}"

/-- `_validate_operation_arguments`. -/
def validateOperationArguments (action : String) (arguments : List (String × Value)) :
    Except PyError Unit :=
  match Dict.find signatures action with
  | none => .error (unsupportedAction shown (.str action))
  | some parameters => do
    raiseIf (binds parameters (arguments.map Prod.fst) = false)
      (PyError.valueError s!"invalid arguments for semantic operation {shownText shown action}")
    checkArguments shown action arguments parameters

/-- One deterministic state-changing invocation. -/
structure SemanticOperation where
  id : String
  action : String
  arguments : List (String × Value) := []

/-- The arguments in the order of their names. -/
def byName (arguments : List (String × Value)) : List (String × Value) :=
  arguments.insertionSort fun a b => a.1 ≤ b.1

def missingOperationId : PyError := .valueError "semantic operation requires a non-empty operation_id"

def SemanticOperation.build (id action : String) (arguments : List (String × Value)) :
    Except PyError SemanticOperation := do
  raiseIf (id = "") missingOperationId
  requireExplicitReplayTime shown action arguments
  validateOperationArguments shown action arguments
  return ⟨id, action, byName arguments⟩

def SemanticOperation.kwargs (operation : SemanticOperation) : List (String × Value) :=
  (Dict.ofList operation.arguments).entries

/-- `_validated_operation_arguments`. -/
def validatedOperationArguments (operation : SemanticOperation) :
    Except PyError (List (String × Value)) := do
  raiseIf (operation.id = "") missingOperationId
  raiseIf (operation.action ∉ allowedActions) (unsupportedAction shown (.str operation.action))
  let arguments := operation.kwargs
  raiseIf (arguments.length ≠ operation.arguments.length)
    (PyError.valueError "duplicate semantic operation argument name")
  requireExplicitReplayTime shown operation.action arguments
  validateOperationArguments shown operation.action arguments
  return arguments

end Validation

section Records
variable (shown : Value → String)

def argumentsValue (arguments : List (String × Value)) : Value :=
  .dict (arguments.map fun a => (.str a.1, a.2))

def operationMembers (operation : SemanticOperation) (arguments : List (String × Value)) :
    List (String × Json) :=
  [("schema", .str operationTraceSchema), ("operation_id", .str operation.id),
    ("action", .str operation.action), ("arguments", encode (argumentsValue arguments))]

def operationToRecord (operation : SemanticOperation) : Except PyError Json := do
  let arguments ← validatedOperationArguments shown operation
  return .obj (operationMembers operation arguments)

def argumentErrors : PyError → Bool
  | .keyError _ | .typeError _ | .valueError _ => true
  | _ => false

/-- The entries of a mapping whose keys are all strings. -/
def textEntries (entries : List (Value × Value)) : Option (List (String × Value)) :=
  entries.mapM fun e => (stringIn e.1).map fun name => (name, e.2)

def decodeOperationArguments (members : List (String × Json)) :
    Except PyError (List (String × Value)) := do
  let v ← rethrow argumentErrors "semantic operation arguments could not be decoded"
    (decode ((Dict.find members "arguments").getD (.obj [("$dict", .arr [])])))
  match v with
  | .dict entries =>
    match textEntries entries with
    | some arguments => return arguments
    | none => throw (.valueError "semantic operation arguments must decode to a string-keyed mapping")
  | _ => throw (.valueError "semantic operation arguments must decode to a string-keyed mapping")

/-- The text under a key, when it is a string other than the empty one. -/
def operationId (members : List (String × Json)) : Except PyError String :=
  match Dict.find members "operation_id" with
  | some (.str id) => if id = "" then .error missingOperationId else .ok id
  | _ => .error missingOperationId

def operationAction (members : List (String × Json)) : Except PyError String :=
  match Dict.find members "action" with
  | some (.str action) =>
    if action ∈ allowedActions then .ok action else .error (unsupportedAction shown (.str action))
  | some j => .error (unsupportedAction shown (rawValue j))
  | none => .error (unsupportedAction shown .none)

def operationFromRecord : Json → Except PyError SemanticOperation
  | .obj members => do
    raiseIf (hasSchema members operationTraceSchema = false)
      (PyError.valueError "unsupported semantic-operation schema")
    let id ← operationId members
    let action ← operationAction shown members
    let arguments ← decodeOperationArguments members
    requireExplicitReplayTime shown action arguments
    validateOperationArguments shown action arguments
    SemanticOperation.build shown id action arguments
  | _ => .error (.valueError "unsupported semantic-operation schema")

def operationLine (operation : SemanticOperation) : Except PyError String := do
  let record ← operationToRecord shown operation
  canonicalJson record

def operationsToJsonl (operations : List SemanticOperation) : Except PyError String := do
  let lines ← operations.mapM (operationLine shown)
  return joinLines lines

/-- The operation at the end of those that were seen. -/
def addOperation (operations : List SemanticOperation) (operation : SemanticOperation) :
    Except PyError (List SemanticOperation) := do
  raiseIf (operation.id ∈ operations.map (·.id))
    (PyError.valueError s!"duplicate semantic operation identity: {operation.id}")
  return operations ++ [operation]

def operationsFromJsonl (text : String) : Except PyError (List SemanticOperation) :=
  readRecords (fun result record => do
    let operation ← operationFromRecord shown record
    addOperation result operation) [] text

end Records

section Checks
variable {shown : Value → String} {arguments arguments' : List (String × Value)}

theorem fieldOfEntity_perm (hnames : (arguments.map Prod.fst).Nodup) (hp : arguments.Perm arguments')
    (name : String) : fieldOfEntity arguments name = fieldOfEntity arguments' name := by
  rw [fieldOfEntity, fieldOfEntity, find_perm hnames hp]

theorem requireExplicitReplayTime_perm (hnames : (arguments.map Prod.fst).Nodup)
    (hp : arguments.Perm arguments') (action : String) :
    requireExplicitReplayTime shown action arguments = requireExplicitReplayTime shown action
    arguments' := by
  rw [requireExplicitReplayTime, requireExplicitReplayTime, fieldOfEntity_perm hnames hp]

theorem checkArguments_perm (hnames : (arguments.map Prod.fst).Nodup) (hp : arguments.Perm arguments')
    (action : String) (parameters : List Parameter) :
    checkArguments shown action arguments parameters = checkArguments shown action arguments'
    parameters := by
  induction parameters with
  | nil => rfl
  | cons p ps ih => rw [checkArguments, checkArguments, find_perm hnames hp, ih]

theorem binds_perm {names names' : List String} (hp : names.Perm names') (parameters : List Parameter) :
    binds parameters names = binds parameters names' := by
  have hmem (name : String) : decide (name ∈ names) = decide (name ∈ names') :=
    decide_eq_decide.mpr hp.mem_iff
  rw [binds, binds, hp.all_eq]
  simp only [hmem]

/-- The checks do not depend on the order of the arguments. -/
theorem validateOperationArguments_perm (hnames : (arguments.map Prod.fst).Nodup)
    (hp : arguments.Perm arguments') (action : String) :
    validateOperationArguments shown action arguments = validateOperationArguments shown action
    arguments' := by
  rw [validateOperationArguments, validateOperationArguments]
  cases Dict.find signatures action with
  | none => rfl
  | some parameters =>
    simp only [binds_perm (hp.map Prod.fst) parameters, checkArguments_perm hnames hp]

theorem operationAnnotationMatches_normal (a : Annotation) (v : Value) :
    operationAnnotationMatches a v.normal = operationAnnotationMatches a v := by
  induction a generalizing v with
  | optional a ih =>
    rw [operationAnnotationMatches, operationAnnotationMatches, isNone_normal, ih]
  | iterable a ih =>
    cases v with
    | list items =>
      rw [Value.normal, operationAnnotationMatches, operationAnnotationMatches]
      exact all_normalItems ih items
    | tuple items =>
      rw [Value.normal, operationAnnotationMatches, operationAnnotationMatches]
      exact all_normalItems ih items
    | frozenset items =>
      rw [Value.normal, operationAnnotationMatches, operationAnnotationMatches]
      exact all_listed ih items
    | _ => rfl
  | entity t =>
    cases v with
    | entity t' fields =>
      rw [Value.normal, operationAnnotationMatches, operationAnnotationMatches]
      simp only [fieldOfEntity_normal, annotationMatches_normal]
    | _ => rfl
  | _ => exact annotationMatches_normal _ v

/-- The arguments with their sets in the order in which they are written. -/
def relisted (arguments : List (String × Value)) : List (String × Value) :=
  arguments.map fun a => (a.1, a.2.normal)

theorem relisted_names (arguments : List (String × Value)) :
    (relisted arguments).map Prod.fst = arguments.map Prod.fst := by
  rw [relisted, List.map_map]
  rfl

theorem find_relisted (arguments : List (String × Value)) (name : String) :
    Dict.find (relisted arguments) name = (Dict.find arguments name).map Value.normal :=
  find_map_snd Value.normal arguments name

theorem requireExplicitReplayTime_relisted (action : String) (arguments : List (String × Value)) :
    requireExplicitReplayTime shown action (relisted arguments) =
      requireExplicitReplayTime shown action arguments := by
  have hnow : (fieldOfEntity (relisted arguments) "now").isNone =
      (fieldOfEntity arguments "now").isNone := by
    have hfield := fieldOfEntity_normal arguments "now"
    rw [normalFields_eq] at hfield
    exact hfield ▸ isNone_normal _
  rw [requireExplicitReplayTime, requireExplicitReplayTime, hnow]

theorem checkArguments_relisted (action : String) (arguments : List (String × Value))
    (parameters : List Parameter) : checkArguments shown action (relisted arguments) parameters =
      checkArguments shown action arguments parameters := by
  induction parameters with
  | nil => rfl
  | cons p ps ih =>
    rw [checkArguments, checkArguments, find_relisted, ih]
    cases Dict.find arguments p.name with
    | none => rfl
    | some v => simp only [Option.map_some, operationAnnotationMatches_normal]

/-- The checks do not depend on the order in which the sets are listed. -/
theorem validateOperationArguments_relisted (action : String) (arguments : List (String × Value)) :
    validateOperationArguments shown action (relisted arguments) =
      validateOperationArguments shown action arguments := by
  rw [validateOperationArguments, validateOperationArguments]
  cases Dict.find signatures action with
  | none => rfl
  | some parameters => simp only [relisted_names, checkArguments_relisted]

theorem entries_ofList {l : List (String × Value)} (h : (l.map Prod.fst).Nodup) :
    (Dict.ofList l).entries = l := by
  have hloop (d : Dict String Value) (hnodup : (d.keys ++ l.map Prod.fst).Nodup) :
      (l.foldl (fun d p => d.set p.1 p.2) d).entries = d.entries ++ l := by
    clear h
    induction l generalizing d with
    | nil => exact (List.append_nil _).symm
    | cons p l ih =>
      have hnew : p.1 ∉ d := fun hmem =>
        (List.nodup_append.mp hnodup).2.2 p.1 hmem p.1 List.mem_cons_self rfl
      rw [List.foldl_cons, ih]
      · rw [Dict.entries_set_new hnew, List.append_assoc]
        rfl
      · rw [Dict.keys_set_new hnew, List.append_assoc]
        exact hnodup
  exact hloop Dict.empty h

theorem validateOperationArguments_ok {arguments : List (String × Value)}
    (h : validateOperationArguments shown action arguments = .ok ()) :
    ∃ parameters, Dict.find signatures action = some parameters ∧
      binds parameters (arguments.map Prod.fst) = true ∧
      checkArguments shown action arguments parameters = .ok () := by
  rw [validateOperationArguments] at h
  cases hfind : Dict.find signatures action with
  | none =>
    rw [hfind] at h
    cases h
  | some parameters =>
    rw [hfind] at h
    obtain ⟨hbinds, hcheck⟩ := Except.then_eq_ok.mp h
    exact ⟨parameters, rfl, Bool.eq_true_of_not_eq_false (raiseIf_eq_ok.mp hbinds), hcheck⟩

/-- Arguments that pass their checks pass them again in the order of their names. -/
theorem validated_byName {id action : String} (hid : id ≠ "") (hnames : (arguments.map Prod.fst).Nodup)
    (htime : requireExplicitReplayTime shown action arguments = .ok ())
    (hvalid : validateOperationArguments shown action arguments = .ok ()) :
    validatedOperationArguments shown ⟨id, action, byName arguments⟩ = .ok (byName arguments) := by
  have hperm : arguments.Perm (byName arguments) := (List.perm_insertionSort _ _).symm
  have hkwargs : SemanticOperation.kwargs ⟨id, action, byName arguments⟩ = byName arguments :=
    entries_ofList ((hperm.map Prod.fst).nodup_iff.mp hnames)
  obtain ⟨parameters, hfound, _⟩ := validateOperationArguments_ok hvalid
  have haction : action ∈ allowedActions :=
    List.mem_map_of_mem ((Dict.find_eq_some_iff (by decide)).mp hfound)
  rw [requireExplicitReplayTime_perm hnames hperm] at htime
  rw [validateOperationArguments_perm hnames hperm] at hvalid
  rw [validatedOperationArguments, hkwargs]
  simp only [raiseIf, haction, hid, not_true_eq_false, ne_eq, ↓reduceIte, Except.ok_bind, htime, hvalid]
  rfl

end Checks

section Built
variable {shown : Value → String} {operation : SemanticOperation}

/-- An operation as it is built: its arguments pass their checks and stand in the order of their
names. -/
structure SemanticOperation.Built (shown : Value → String) (operation : SemanticOperation) : Prop where
  valid : validatedOperationArguments shown operation = .ok operation.arguments
  sorted : operation.arguments.Pairwise fun a b => a.1 ≤ b.1
  plain : ∀ a ∈ operation.arguments, a.2.Plain

/-- The operation with its sets in the order in which they are written. -/
def SemanticOperation.listed (operation : SemanticOperation) : SemanticOperation :=
  { operation with arguments := relisted operation.arguments }

theorem SemanticOperation.listed_eq (h : ∀ a ∈ operation.arguments, a.2.normal = a.2) :
    operation.listed = operation := by
  have harguments : relisted operation.arguments = operation.arguments := by
    refine (List.map_congr_left fun a ha => ?_).trans (List.map_id _)
    exact Prod.ext rfl (h a ha)
  rw [SemanticOperation.listed, harguments]

/-- No string of the operation leaves its line. -/
def SemanticOperation.Unbroken (operation : SemanticOperation) : Prop :=
  Library.Unbroken operation.id ∧ (argumentsValue operation.arguments).Unbroken

theorem SemanticOperation.Built.checks (h : operation.Built shown) :
    operation.id ≠ "" ∧ operation.action ∈ allowedActions ∧
      (operation.arguments.map Prod.fst).Nodup ∧
      requireExplicitReplayTime shown operation.action operation.arguments = .ok () ∧
      validateOperationArguments shown operation.action operation.arguments = .ok () := by
  have hvalid := h.valid
  rw [validatedOperationArguments] at hvalid
  obtain ⟨hid, hvalid⟩ := Except.then_eq_ok.mp hvalid
  obtain ⟨haction, hvalid⟩ := Except.then_eq_ok.mp hvalid
  obtain ⟨_, hvalid⟩ := Except.then_eq_ok.mp hvalid
  obtain ⟨htime, hvalid⟩ := Except.then_eq_ok.mp hvalid
  obtain ⟨harguments, hvalid⟩ := Except.then_eq_ok.mp hvalid
  have hkwargs : operation.kwargs = operation.arguments := Except.ok.inj hvalid
  rw [hkwargs] at htime harguments
  have hnames : (operation.arguments.map Prod.fst).Nodup := by
    rw [← hkwargs]
    exact (Dict.ofList operation.arguments).nodup
  exact ⟨raiseIf_eq_ok.mp hid, Decidable.not_not.mp (raiseIf_eq_ok.mp haction), hnames, htime, harguments⟩

theorem argumentsValue_plain (h : operation.Built shown) : (argumentsValue operation.arguments).Plain :=
  .dict h.checks.2.2.1 h.plain

theorem operationMembers_writable (h : operation.Built shown) :
    (Json.obj (operationMembers operation operation.arguments)).Writable := by
  apply Json.Writable.of_members
  · exact (by decide : ["schema", "operation_id", "action", "arguments"].Nodup)
  · intro m hm
    simp only [operationMembers, List.mem_cons, List.not_mem_nil, or_false] at hm
    obtain rfl | rfl | rfl | rfl := hm
    · exact ⟨rfl, rfl⟩
    · exact ⟨rfl, rfl⟩
    · exact ⟨rfl, rfl⟩
    · exact encode_writable (argumentsValue_plain h)

theorem operationMembers_unbroken (h : operation.Built shown) :
    (Json.obj (operationMembers operation operation.arguments)).Unbroken ↔ operation.Unbroken := by
  have haction : ∀ action ∈ allowedActions, Unbroken action := by decide
  have hnames : Unbroken "schema" ∧ Unbroken operationTraceSchema ∧ Unbroken "operation_id" ∧
      Unbroken "action" ∧ Unbroken "arguments" := by decide
  obtain ⟨hschema, hvalue, hid, hact, harguments⟩ := hnames
  rw [Json.Unbroken.obj, operationMembers]
  simp only [List.forall_mem_cons, List.not_mem_nil, false_implies, implies_true, and_true,
    Json.Unbroken.str, encode_unbroken, hschema, hvalue, hid, hact, harguments,
    haction _ h.checks.2.1, true_and]
  exact Iff.rfl

theorem operationLine_ok (h : operation.Built shown) : operationLine shown operation =
    .ok (recordLine (operationMembers operation operation.arguments)) := by
  rw [operationLine, operationToRecord, h.valid, Except.ok_bind]
  exact canonicalJson_record (operationMembers_writable h)

theorem operationMembers_sorted (operation : SemanticOperation) (arguments : List (String × Value)) :
    (Json.obj (operationMembers operation arguments)).sorted =
      .obj [("action", .str operation.action), ("arguments", (encode (argumentsValue arguments)).sorted),
        ("operation_id", .str operation.id), ("schema", .str operationTraceSchema)] := by
  have horder : ¬ "schema" ≤ "action" ∧ ¬ "operation_id" ≤ "action" ∧ "action" ≤ "arguments" ∧
      ¬ "operation_id" ≤ "arguments" ∧ ¬ "schema" ≤ "arguments" ∧ ¬ "schema" ≤ "operation_id" := by
    decide
  obtain ⟨h₁, h₂, h₃, h₄, h₅, h₆⟩ := horder
  rw [operationMembers, Json.sorted, sortedMembers_eq, byKey]
  simp only [List.map_cons, List.map_nil, List.insertionSort_cons, List.insertionSort_nil,
    List.orderedInsert, h₁, h₂, h₃, h₄, h₅, h₆, ↓reduceIte, Json.sorted]

theorem textEntries_map (arguments : List (String × Value)) :
    textEntries (arguments.map fun a => (.str a.1, a.2)) = some arguments := by
  induction arguments with
  | nil => rfl
  | cons a arguments ih =>
    rw [textEntries] at ih ⊢
    rw [List.map_cons, List.mapM_cons, ih]
    rfl

/-- The arguments are read back in some order. -/
theorem decodeOperationArguments_written (h : operation.Built shown) {members : List (String × Json)}
    (hfind : Dict.find members "arguments" = some (encode (argumentsValue operation.arguments)).sorted) :
    ∃ arguments, decodeOperationArguments members = .ok arguments ∧
      (relisted operation.arguments).Perm arguments := by
  have hnormal : ∃ arguments : List (String × Value), (relisted operation.arguments).Perm arguments ∧
      (argumentsValue operation.arguments).normal = argumentsValue arguments := by
    let r (a b : String × Value) : Prop := canonical (.str a.1) ≤ canonical (.str b.1)
    have hr (a b : String × Value) : Decidable (r a b) := inferInstanceAs (Decidable (_ ≤ _))
    refine ⟨(relisted operation.arguments).insertionSort r, (List.perm_insertionSort r _).symm, ?_⟩
    have hvalues : normalEntries (operation.arguments.map fun a => (Value.str a.1, a.2)) =
        (relisted operation.arguments).map fun a => (Value.str a.1, a.2) := by
      rw [normalEntries_eq, relisted, List.map_map, List.map_map]
      rfl
    rw [argumentsValue, Value.normal, hvalues, byListedKey]
    exact congrArg Value.dict (List.map_insertionSort r
      (fun e f => canonical (encode e.1) ≤ canonical (encode f.1)) (fun a => (Value.str a.1, a.2))
      (relisted operation.arguments) fun _ _ _ _ => Iff.rfl).symm
  obtain ⟨arguments, hperm, hnormal⟩ := hnormal
  refine ⟨arguments, ?_, hperm⟩
  rw [decodeOperationArguments, hfind, Option.getD_some, decode_encode (argumentsValue_plain h), hnormal]
  change (match textEntries (arguments.map fun a => (.str a.1, a.2)) with
    | some arguments => Except.ok arguments
    | none => _) = _
  rw [textEntries_map]

theorem byName_perm {arguments arguments' : List (String × Value)} (hp : arguments.Perm arguments')
    (hnames : (arguments.map Prod.fst).Nodup) (hsorted : arguments.Pairwise fun a b => a.1 ≤ b.1) :
    byName arguments' = arguments := by
  have hperm : (byName arguments').Perm arguments := (List.perm_insertionSort _ _).trans hp.symm
  have hsame : (byName arguments').Pairwise fun a b => a.1 ≤ b.1 := List.pairwise_insertionSort _ _
  refine hperm.eq_of_pairwise ?_ hsame hsorted
  · intro a b ha hb hab hba
    have hname : a.1 = b.1 := le_antisymm hab hba
    have ha' := (Dict.find_eq_some_iff hnames).mpr (hperm.mem_iff.mp ha)
    have hb' := (Dict.find_eq_some_iff hnames).mpr hb
    rw [hname, hb'] at ha'
    exact Prod.ext hname (Option.some.inj ha').symm

theorem operationFromRecord_written (h : operation.Built shown) :
    operationFromRecord shown (Json.obj (operationMembers operation operation.arguments)).sorted =
      .ok operation.listed := by
  obtain ⟨hid, haction, hnames, htime, hvalid⟩ := h.checks
  rw [← relisted_names] at hnames
  rw [← requireExplicitReplayTime_relisted] at htime
  rw [← validateOperationArguments_relisted] at hvalid
  have hsorted : (relisted operation.arguments).Pairwise fun a b => a.1 ≤ b.1 :=
    List.pairwise_map.mpr h.sorted
  have harguments : Dict.find [("action", .str operation.action),
      ("arguments", (encode (argumentsValue operation.arguments)).sorted),
      ("operation_id", .str operation.id), ("schema", .str operationTraceSchema)] "arguments" =
      some (encode (argumentsValue operation.arguments)).sorted := rfl
  obtain ⟨arguments, hdecode, hperm⟩ := decodeOperationArguments_written h harguments
  have hoperationId : operationId [("action", .str operation.action),
      ("arguments", (encode (argumentsValue operation.arguments)).sorted),
      ("operation_id", .str operation.id), ("schema", .str operationTraceSchema)] = .ok operation.id :=
    if_neg hid
  have hoperationAction : operationAction shown [("action", .str operation.action),
      ("arguments", (encode (argumentsValue operation.arguments)).sorted),
      ("operation_id", .str operation.id), ("schema", .str operationTraceSchema)] =
      .ok operation.action := if_pos haction
  rw [requireExplicitReplayTime_perm hnames hperm] at htime
  rw [validateOperationArguments_perm hnames hperm] at hvalid
  rw [operationMembers_sorted, operationFromRecord]
  simp only [hoperationId, hoperationAction, hdecode, htime, hvalid, Except.ok_bind,
    SemanticOperation.build, raiseIf, hid, ↓reduceIte, byName_perm hperm hnames hsorted]
  rfl

end Built

section RoundTrip
variable {shown : Value → String} {operations : List SemanticOperation}

theorem operationsToJsonl_ok (h : ∀ operation ∈ operations, operation.Built shown) :
    operationsToJsonl shown operations = .ok (joinLines
      (operations.map fun operation => recordLine (operationMembers operation operation.arguments))) := by
  rw [operationsToJsonl, mapM_ok fun operation ho => operationLine_ok (h operation ho)]
  rfl

theorem operationsFromJsonl_written (h : ∀ operation ∈ operations, operation.Built shown)
    (hids : (operations.map (·.id)).Nodup) (hunbroken : ∀ operation ∈ operations, operation.Unbroken) :
    operationsFromJsonl shown (joinLines
      (operations.map fun operation => recordLine (operationMembers operation operation.arguments))) =
      .ok (operations.map SemanticOperation.listed) := by
  have hloop (before : List SemanticOperation) (hall : ((before ++ operations).map (·.id)).Nodup) :
      operations.foldlM (fun result operation => do
        let operation ← operationFromRecord shown
          (Json.obj (operationMembers operation operation.arguments)).sorted
        addOperation result operation) before =
          .ok (before ++ operations.map SemanticOperation.listed) := by
    clear hids hunbroken
    induction operations generalizing before with
    | nil =>
      rw [List.map_nil, List.append_nil]
      rfl
    | cons operation operations ih =>
      have hnew : operation.id ∉ before.map (·.id) := by
        intro hmem
        rw [List.map_append] at hall
        exact (List.nodup_append.mp hall).2.2 _ hmem _ List.mem_cons_self rfl
      have hadd : addOperation before operation.listed = .ok (before ++ [operation.listed]) := by
        have hid : operation.listed.id ∉ before.map (·.id) := hnew
        rw [addOperation, raiseIf, if_neg hid]
        rfl
      rw [List.foldlM_cons, operationFromRecord_written (h operation List.mem_cons_self), Except.ok_bind,
        hadd, Except.ok_bind, ih (fun o ho => h o (List.mem_cons_of_mem _ ho)), List.append_assoc]
      · rfl
      · have hsame : ((before ++ [operation.listed] ++ operations).map (·.id)) =
            (before ++ operation :: operations).map (·.id) := by
          simp only [List.map_append, List.map_cons, List.map_nil, List.append_assoc,
            List.singleton_append]
          rfl
        rwa [hsame]
  rw [operationsFromJsonl,
    readRecords_written (fun operation ho => operationMembers_writable (h operation ho))
    fun operation ho => (operationMembers_unbroken (h operation ho)).mpr (hunbroken operation ho)]
  exact hloop [] hids

theorem operationsFromJsonl_refused (h : ∀ operation ∈ operations, operation.Built shown)
    (hbroken : ∃ operation ∈ operations, ¬ operation.Unbroken) (read : List SemanticOperation) :
    operationsFromJsonl shown (joinLines
      (operations.map fun operation => recordLine (operationMembers operation operation.arguments))) ≠
      .ok read := by
  obtain ⟨operation, ho, hb⟩ := hbroken
  exact readRecords_unwritten (fun operation ho => operationMembers_writable (h operation ho))
    ⟨operation, ho, fun hu => hb ((operationMembers_unbroken (h operation ho)).mp hu)⟩ [] read

end RoundTrip

end Cadi
