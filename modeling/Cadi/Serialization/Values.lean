import Cadi.Core.Stores
import Cadi.Library.Json
import Mathlib.Data.Prod.Lex

namespace Cadi
open Library
set_option autoImplicit true

/-- A value of a snapshot or of a trace. The items of a set are listed in some order. -/
inductive Value where
  | none
  | bool (b : Bool)
  | num (n : Number)
  | str (s : String)
  | enum (enumType name : String)
  | frozenset (items : List Value)
  | tuple (items : List Value)
  | list (items : List Value)
  | dict (entries : List (Value × Value))
  | entity (entityType : String) (fields : List (String × Value))

section Encoding

/-- The text by which items are sorted. -/
def canonical (j : Json) : Text := j.sorted.text

def canonicalJson (j : Json) : Except PyError String :=
  if j.finite then .ok (String.ofList (canonical j))
  else .error (.valueError "Out of range float values are not JSON compliant")

/-- The items in the order of their texts. -/
def byText (items : List Json) : List Json :=
  items.insertionSort fun a b => canonical a ≤ canonical b

/-- The entries in the order of the texts of their keys. -/
def byKeyText (entries : List (Json × Json)) : List (Json × Json) :=
  entries.insertionSort fun a b => canonical a.1 ≤ canonical b.1

mutual

def encode : Value → Json
  | .none => .null
  | .bool b => .bool b
  | .num n => .num n
  | .str s => .str s
  | .enum enumType name => .obj [("$enum", .str enumType), ("name", .str name)]
  | .frozenset items => .obj [("$frozenset", .arr (byText (encodeItems items)))]
  | .tuple items => .obj [("$tuple", .arr (encodeItems items))]
  | .list items => .obj [("$list", .arr (encodeItems items))]
  | .dict entries =>
    .obj [("$dict", .arr ((byKeyText (encodeEntries entries)).map fun e => .arr [e.1, e.2]))]
  | .entity entityType fields =>
    .obj [("$type", .str entityType), ("fields", .obj (encodeFields fields))]

def encodeItems : List Value → List Json
  | [] => []
  | v :: vs => encode v :: encodeItems vs

def encodeEntries : List (Value × Value) → List (Json × Json)
  | [] => []
  | (k, v) :: es => (encode k, encode v) :: encodeEntries es

def encodeFields : List (String × Value) → List (String × Json)
  | [] => []
  | (name, v) :: fs => (name, encode v) :: encodeFields fs

end

end Encoding

section Enumerations

/-- An enumeration of the source: its name and its members by name. -/
class Enumeration (α : Type) [DecidableEq α] where
  enumType : String
  members : List (String × α)
  complete : ∀ a, a ∈ members.map Prod.snd
  distinct : (members.map Prod.fst).Nodup

def Enumeration.name [DecidableEq α] [Enumeration α] (a : α) : String :=
  match members.find? (·.2 = a) with
  | some (name, _) => name
  | none => ""

instance : Enumeration ProgramStatus where
  enumType := "ProgramStatus"
  members := [("CREATED", .created), ("RUNNING", .running), ("COMPLETED", .completed),
    ("FAILED", .failed), ("CANCELLED", .cancelled)]
  complete a := by cases a <;> decide
  distinct := by decide

instance : Enumeration ContinuationLifecycle where
  enumType := "ContinuationLifecycle"
  members := [("CREATED", .created), ("ACTIVE", .active), ("WAITING", .waiting),
    ("SPECULATIVE", .speculative), ("JOINING", .joining), ("TERMINAL", .terminal),
    ("ABANDONED", .abandoned)]
  complete a := by cases a <;> decide
  distinct := by decide

instance : Enumeration RequestStatus where
  enumType := "RequestStatus"
  members := [("CREATED", .created), ("READY", .ready), ("RUNNING", .running),
    ("COMPLETED", .completed), ("FAILED", .failed), ("CANCELLED", .cancelled)]
  complete a := by cases a <;> decide
  distinct := by decide

instance : Enumeration ExecutionStatus where
  enumType := "ExecutionStatus"
  members := [("CREATED", .created), ("DISPATCHED", .dispatched), ("RUNNING", .running),
    ("SUCCEEDED", .succeeded), ("FAILED", .failed), ("CANCELLED", .cancelled)]
  complete a := by cases a <;> decide
  distinct := by decide

instance : Enumeration AttemptAuthority where
  enumType := "AttemptAuthority"
  members := [("NONE", .none), ("CURRENT", .current), ("COMMITTED", .committed),
    ("SUPERSEDED", .superseded)]
  complete a := by cases a <;> decide
  distinct := by decide

instance : Enumeration PhaseType where
  enumType := "PhaseType"
  members := [("PREFILL", .prefill), ("DECODE", .decode), ("STATE_PULL", .statePull),
    ("STATE_TRANSFER", .stateTransfer), ("OTHER", .other)]
  complete a := by cases a <;> decide
  distinct := by decide

instance : Enumeration PhaseStatus where
  enumType := "PhaseStatus"
  members := [("CREATED", .created), ("RUNNING", .running), ("COMPLETED", .completed),
    ("FAILED", .failed), ("CANCELLED", .cancelled)]
  complete a := by cases a <;> decide
  distinct := by decide

instance : Enumeration StateLifecycle where
  enumType := "StateLifecycle"
  members := [("ACTIVE", .active), ("WAITING", .waiting), ("SPECULATIVE", .speculative),
    ("TERMINAL", .terminal)]
  complete a := by cases a <;> decide
  distinct := by decide

instance : Enumeration StateValidity where
  enumType := "StateValidity"
  members := [("VALID", .valid), ("INVALID", .invalid)]
  complete a := by cases a <;> decide
  distinct := by decide

instance : Enumeration ReplicaStatus where
  enumType := "ReplicaStatus"
  members := [("MATERIALIZING", .materializing), ("VALID", .valid), ("STALE", .stale),
    ("TRANSFERRING", .transferring), ("EVICTING", .evicting), ("LOST", .lost),
    ("INVALID", .invalid)]
  complete a := by cases a <;> decide
  distinct := by decide

instance : Enumeration BindingStatus where
  enumType := "BindingStatus"
  members := [("PROPOSED", .proposed), ("ACTIVE", .active), ("MIGRATING", .migrating),
    ("SUPERSEDED", .superseded), ("RELEASED", .released), ("INVALID", .invalid)]
  complete a := by cases a <;> decide
  distinct := by decide

instance : Enumeration EvidenceAuthority where
  enumType := "EvidenceAuthority"
  members := [("ESTIMATED", .estimated), ("DERIVED", .derived),
    ("EXACT_OBSERVATION", .exactObservation), ("AUTHORITATIVE", .authoritative)]
  complete a := by cases a <;> decide
  distinct := by decide

instance : Enumeration EvidenceStatus where
  enumType := "EvidenceStatus"
  members := [("VALID", .valid), ("STALE", .stale), ("UNKNOWN", .unknown), ("FAILED", .failed),
    ("AMBIGUOUS", .ambiguous)]
  complete a := by cases a <;> decide
  distinct := by decide

instance : Enumeration ReconcileOutcome where
  enumType := "ReconcileOutcome"
  members := [("MATCHED", .matched), ("WAIT", .wait), ("RETRY", .retry),
    ("RECOMPUTE", .recompute), ("MIGRATE", .migrate), ("REJECT", .reject), ("REPAIR", .repair),
    ("FAIL", .fail), ("AMBIGUOUS", .ambiguous)]
  complete a := by cases a <;> decide
  distinct := by decide

end Enumerations

section Stored

/-- What the stores and the arguments of operations hold, as a value. -/
class Stored (α : Type) where
  value : α → Value

export Stored (value)

instance : Stored String := ⟨.str⟩

instance : Stored Bool := ⟨.bool⟩

instance : Stored Int := ⟨fun z => .num (.int z)⟩

instance : Stored Number := ⟨.num⟩

instance [Stored α] : Stored (Option α) where
  value
    | none => .none
    | some a => value a

instance [DecidableEq α] [Enumeration α] : Stored α :=
  ⟨fun a => .enum (Enumeration.enumType α) (Enumeration.name a)⟩

instance : Stored (FrozenSet String) := ⟨fun s => .frozenset ((elements s).map .str)⟩

/-- A set of pairs, listed in the order of the first and then the second components. -/
def pairsOf (s : FrozenSet (String × String)) : List (String × String) :=
  (elements (s.map toLex.toEmbedding)).map ofLex

instance : Stored (FrozenSet (String × String)) :=
  ⟨fun s => .frozenset ((pairsOf s).map fun p => .tuple [.str p.1, .str p.2])⟩

instance [Stored α] : Stored (List α) := ⟨fun as => .list (as.map value)⟩

instance [Stored α] : Stored (Dict String α) :=
  ⟨fun d => .dict (d.entries.map fun e => (.str e.1, value e.2))⟩

instance : Stored SemanticEvent where
  value event := .entity "SemanticEvent"
    [("id", value event.id), ("kind", value event.kind), ("subject_type", value event.subjectType),
      ("subject_id", value event.subjectId), ("payload", value event.payload)]

instance : Stored Program where
  value p := .entity "Program" [("id", value p.id), ("status", value p.status)]

instance : Stored Session where
  value s := .entity "Session" [("id", value s.id), ("program_id", value s.programId)]

instance : Stored Continuation where
  value ct := .entity "Continuation"
    [("id", value ct.id), ("session_id", value ct.sessionId), ("parent_ids", value ct.parentIds),
      ("lifecycle", value ct.lifecycle)]

instance : Stored LogicalRequest where
  value r := .entity "LogicalRequest"
    [("id", value r.id), ("continuation_id", value r.continuationId), ("status", value r.status),
      ("current_attempt_id", value r.currentAttemptId),
      ("committed_attempt_id", value r.committedAttemptId),
      ("authoritative_output_id", value r.authoritativeOutputId)]

instance : Stored Attempt where
  value a := .entity "Attempt"
    [("id", value a.id), ("request_id", value a.requestId), ("generation", value a.generation),
      ("execution_status", value a.executionStatus),
      ("authority_status", value a.authorityStatus)]

instance : Stored Phase where
  value p := .entity "Phase"
    [("id", value p.id), ("attempt_id", value p.attemptId), ("ordinal", value p.ordinal),
      ("phase_type", value p.phaseType), ("status", value p.status)]

instance : Stored ReusableState where
  value x := .entity "ReusableState"
    [("id", value x.id), ("origin_type", value x.originType), ("origin_id", value x.originId),
      ("origin_continuation_id", value x.originContinuationId),
      ("origin_request_id", value x.originRequestId),
      ("producer_attempt_id", value x.producerAttemptId),
      ("semantic_type", value x.semanticType), ("representation", value x.representation),
      ("lifecycle", value x.lifecycle), ("validity", value x.validity),
      ("derived_from", value x.derivedFrom), ("producer_phase_id", value x.producerPhaseId)]

instance : Stored StateReplica where
  value r := .entity "StateReplica"
    [("id", value r.id), ("state_id", value r.stateId), ("location_id", value r.locationId),
      ("status", value r.status), ("binding_id", value r.bindingId),
      ("binding_epoch", value r.bindingEpoch)]

instance : Stored Binding where
  value b := .entity "Binding"
    [("id", value b.id), ("subject_id", value b.subjectId), ("location_id", value b.locationId),
      ("base_epoch", value b.baseEpoch), ("epoch", value b.epoch), ("status", value b.status)]

instance : Stored Evidence where
  value e := .entity "Evidence"
    [("id", value e.id), ("claim", value e.claim), ("source", value e.source),
      ("authority", value e.authority), ("status", value e.status),
      ("observed_at", value e.observedAt), ("scope", value e.scope),
      ("valid_until", value e.validUntil), ("confidence", value e.confidence),
      ("derived_from", value e.derivedFrom), ("derivation_rule", value e.derivationRule),
      ("claim_key", value e.claimKey), ("claim_value", value e.claimValue)]

instance : Stored Output where
  value o := .entity "Output"
    [("id", value o.id), ("attempt_id", value o.attemptId), ("terminal", value o.terminal),
      ("evidence_ids", value o.evidenceIds)]

end Stored

end Cadi
