import Cadi.Experiments.Fields
import Cadi.Library.Digest
import Cadi.Library.Extent

namespace Cadi.Trace
open Library Fields
set_option autoImplicit true

section Manifest

def normalizedTraceSchema : String := "cadi.c5.1.normalized-trace.v1"

inductive TraceField where
  | arrivalTimeS
  | inputTokens
  | outputTokens
  | prefixGroupId
  | prefixTokens
deriving DecidableEq

def TraceField.value : TraceField → String
  | .arrivalTimeS => "arrival_time_s"
  | .inputTokens => "input_tokens"
  | .outputTokens => "output_tokens"
  | .prefixGroupId => "prefix_group_id"
  | .prefixTokens => "prefix_tokens"

def traceFields : List TraceField :=
  [.arrivalTimeS, .inputTokens, .outputTokens, .prefixGroupId, .prefixTokens]

inductive TraceFieldOrigin where
  | sourceObserved
  | traceDerived
deriving DecidableEq

def TraceFieldOrigin.value : TraceFieldOrigin → String
  | .sourceObserved => "SOURCE_OBSERVED"
  | .traceDerived => "TRACE_DERIVED"

abbrev Sha256 := {s : String // IsSha256 s}

def requireSha256 (value : Doc Binary64) (name : String) : Except PyError Sha256 :=
  match value with
  | .str s =>
    if h : IsSha256 s then .ok ⟨s, h⟩
    else .error (.valueError (name ++ " must be a lowercase SHA-256 hex digest"))
  | _ => .error (.valueError (name ++ " must be a lowercase SHA-256 hex digest"))

/-- `float(value)` of a number, finite. -/
def requireFinite (value : Doc Binary64) (name : String) : Except PyError Binary64 := do
  let result ← match value with
    | .int z =>
      match (Number.int z).toFloat with
      | some x => .ok x
      | none => .error (.overflowError "int too large to convert to float")
    | .float x => .ok x
    | _ => .error (.typeError (name ++ " must be a real number"))
  raiseIf (result.isFinite = false) (.valueError (name ++ " must be finite"))
  return result

structure TraceSourceManifest where
  sourceId : NonemptyString
  sourceName : NonemptyString
  sourceUri : NonemptyString
  sourceVersion : NonemptyString
  licenseId : NonemptyString
  sourceSha256 : Sha256
  normalizationVersion : NonemptyString
  normalizationSteps : List NonemptyString
  fieldOrigins : List (TraceField × TraceFieldOrigin)
  steps_ne : normalizationSteps ≠ []
  origins_nodup : (fieldOrigins.map Prod.fst).Nodup
  arrival_mem : TraceField.arrivalTimeS ∈ fieldOrigins.map Prod.fst
  origins_ordered : fieldOrigins.Pairwise fun p q => p.1.value ≤ q.1.value

/-- The first field declared a second time. -/
def repeated : List TraceField → List TraceField → Option TraceField
  | _, [] => none
  | seen, field :: fields => if field ∈ seen then some field else repeated (field :: seen) fields

theorem repeated_eq_none {seen fields : List TraceField} :
    repeated seen fields = none ↔ fields.Nodup ∧ ∀ field ∈ fields, field ∉ seen := by
  induction fields generalizing seen with
  | nil => exact ⟨fun _ => ⟨.nil, fun field hf => absurd hf List.not_mem_nil⟩, fun _ => rfl⟩
  | cons field fields ih =>
    rw [repeated]
    split
    next hseen => exact ⟨fun h => (nomatch h), fun h => absurd hseen (h.2 field List.mem_cons_self)⟩
    next hseen =>
      rw [ih, List.nodup_cons, List.forall_mem_cons]
      constructor
      · intro ⟨hnodup, hfresh⟩
        refine ⟨⟨fun hf => hfresh field hf List.mem_cons_self, hnodup⟩, hseen, fun other hother hs => ?_⟩
        exact hfresh other hother (List.mem_cons_of_mem _ hs)
      · intro ⟨⟨hfield, hnodup⟩, _, hrest⟩
        refine ⟨hnodup, fun other hother hs => ?_⟩
        rcases List.mem_cons.mp hs with rfl | hs
        · exact hfield hother
        · exact hrest other hother hs

/-- The checks of a manifest whose texts have passed theirs, which put its origins in order. -/
def TraceSourceManifest.ofTexts (sourceId sourceName sourceUri sourceVersion licenseId : NonemptyString)
    (sourceSha256 : Sha256) (normalizationVersion : NonemptyString)
    (normalizationSteps : List NonemptyString)
    (fieldOrigins : List (TraceField × TraceFieldOrigin)) : Except PyError TraceSourceManifest :=
  if hsteps : normalizationSteps = [] then
    .error (.valueError "normalization_steps must be a non-empty tuple")
  else if fieldOrigins = [] then .error (.valueError "field_origins must be a non-empty tuple")
  else
    match hrepeated : repeated [] (fieldOrigins.map Prod.fst) with
    | some field => .error (.valueError ("duplicate field origin declaration: " ++ field.value))
    | none =>
      if harrival : TraceField.arrivalTimeS ∈ fieldOrigins.map Prod.fst then
        have hperm := (perm_sortedBy (fun item => item.1.value) fieldOrigins).map Prod.fst
        .ok ⟨sourceId, sourceName, sourceUri, sourceVersion, licenseId, sourceSha256, normalizationVersion,
          normalizationSteps, sortedBy (fun item => item.1.value) fieldOrigins, hsteps,
          hperm.nodup_iff.mpr (repeated_eq_none.mp hrepeated).1, hperm.mem_iff.mpr harrival,
          pairwise_sortedBy _ _⟩
      else .error (.valueError "arrival_time_s origin must be declared")

/-- The constructor of a manifest, on values of any type. -/
def TraceSourceManifest.new (sourceId sourceName sourceUri sourceVersion licenseId sourceSha256
    normalizationVersion : Doc Binary64) (normalizationSteps : List (Doc Binary64))
    (fieldOrigins : List (TraceField × TraceFieldOrigin)) : Except PyError TraceSourceManifest := do
  let sourceId ← requireNonemptyString sourceId "source_id"
  let sourceName ← requireNonemptyString sourceName "source_name"
  let sourceUri ← requireNonemptyString sourceUri "source_uri"
  let sourceVersion ← requireNonemptyString sourceVersion "source_version"
  let licenseId ← requireNonemptyString licenseId "license_id"
  let normalizationVersion ← requireNonemptyString normalizationVersion "normalization_version"
  let sourceSha256 ← requireSha256 sourceSha256 "source_sha256"
  let steps ← normalizationSteps.mapM (requireNonemptyString · "normalization step")
  TraceSourceManifest.ofTexts sourceId sourceName sourceUri sourceVersion licenseId sourceSha256
    normalizationVersion steps fieldOrigins

def originsDoc (fieldOrigins : List (TraceField × TraceFieldOrigin)) : List (String × Doc Binary64) :=
  fieldOrigins.map fun item => (item.1.value, .str item.2.value)

def TraceSourceManifest.toDict (m : TraceSourceManifest) : List (String × Doc Binary64) :=
  [("source_id", .str m.sourceId.1), ("source_name", .str m.sourceName.1),
    ("source_uri", .str m.sourceUri.1), ("source_version", .str m.sourceVersion.1),
    ("license_id", .str m.licenseId.1), ("source_sha256", .str m.sourceSha256.1),
    ("normalization_version", .str m.normalizationVersion.1),
    ("normalization_steps", .arr (m.normalizationSteps.map fun step => .str step.1)),
    ("field_origins", .obj (originsDoc m.fieldOrigins))]

def manifestKeys : List String :=
  ["source_id", "source_name", "source_uri", "source_version", "license_id", "source_sha256",
    "normalization_version", "normalization_steps", "field_origins"]

/-- A declared field and its origin; the messages are the source's up to the values they show. -/
def readOrigin (member : String × Doc Binary64) : Except PyError (TraceField × TraceFieldOrigin) := do
  let field ← match traceFields.find? (·.value = member.1) with
    | some field => .ok field
    | none => .error (.valueError "unknown trace field origin key")
  match member.2 with
  | .str s =>
    match [TraceFieldOrigin.sourceObserved, .traceDerived].find? (·.value = s) with
    | some origin => return (field, origin)
    | none => .error (.valueError ("invalid trace field origin for " ++ field.value))
  | _ => .error (.valueError ("invalid trace field origin for " ++ field.value))

def TraceSourceManifest.fromDict (value : Doc Binary64) : Except PyError TraceSourceManifest := do
  let value ← requireMapping value "manifest"
  requireExactKeys value manifestKeys "manifest"
  let steps ← requireList (← fieldOf value "normalization_steps") "normalization_steps"
  let rawOrigins ← requireMapping (← fieldOf value "field_origins") "field_origins"
  let origins ← rawOrigins.mapM readOrigin
  TraceSourceManifest.new (← fieldOf value "source_id") (← fieldOf value "source_name")
    (← fieldOf value "source_uri") (← fieldOf value "source_version") (← fieldOf value "license_id")
    (← fieldOf value "source_sha256") (← fieldOf value "normalization_version") steps origins

end Manifest

section Records

structure NormalizedTraceRecord where
  recordId : NonemptyString
  sourceRecordId : NonemptyString
  sourceOrdinal : Nat
  arrivalTimeS : Time
  inputTokens : Option Nat
  outputTokens : Option Nat
  prefixGroupId : Option NonemptyString
  prefixTokens : Option Nat
  prefix_le : ∀ tokens ∈ prefixTokens, ∃ total ∈ inputTokens, tokens ≤ total

def countDoc : Option Nat → Doc Binary64
  | none => .null
  | some n => .int n

def requireOptionalNonnegativeInt (value : Doc Binary64) (name : String) : Except PyError (Option Nat) :=
  match value with
  | .null => .ok none
  | value => some <$> requireNonnegativeInt value name

def requireNonnegativeFinite (value : Doc Binary64) (name : String) : Except PyError Time := do
  match Time.ofBinary64 (← requireFinite value name) with
  | some t => return t
  | none => .error (.valueError (name ++ " must be nonnegative"))

/-- The constructor of a record, on values of any type. -/
def NormalizedTraceRecord.new (recordId sourceRecordId sourceOrdinal arrivalTimeS inputTokens outputTokens
    prefixGroupId prefixTokens : Doc Binary64) : Except PyError NormalizedTraceRecord := do
  let recordId ← requireNonemptyString recordId "record_id"
  let sourceRecordId ← requireNonemptyString sourceRecordId "source_record_id"
  let sourceOrdinal ← requireNonnegativeInt sourceOrdinal "source_ordinal"
  let arrivalTimeS ← requireNonnegativeFinite arrivalTimeS "arrival_time_s"
  let inputTokens ← requireOptionalNonnegativeInt inputTokens "input_tokens"
  let outputTokens ← requireOptionalNonnegativeInt outputTokens "output_tokens"
  let prefixGroupId ← requireOptionalNonemptyString prefixGroupId "prefix_group_id"
  let prefixTokens ← requireOptionalNonnegativeInt prefixTokens "prefix_tokens"
  if h : ∀ tokens ∈ prefixTokens, ∃ total ∈ inputTokens, tokens ≤ total then
    return ⟨recordId, sourceRecordId, sourceOrdinal, arrivalTimeS, inputTokens, outputTokens, prefixGroupId,
      prefixTokens, h⟩
  else if inputTokens = none then .error (.valueError "prefix_tokens requires input_tokens")
  else .error (.valueError "prefix_tokens cannot exceed input_tokens")

def NormalizedTraceRecord.toDict (r : NormalizedTraceRecord) : List (String × Doc Binary64) :=
  [("record_id", .str r.recordId.1), ("source_record_id", .str r.sourceRecordId.1),
    ("source_ordinal", .int r.sourceOrdinal), ("arrival_time_s", .float r.arrivalTimeS.toBinary64),
    ("input_tokens", countDoc r.inputTokens), ("output_tokens", countDoc r.outputTokens),
    ("prefix_group_id", optionalDoc r.prefixGroupId), ("prefix_tokens", countDoc r.prefixTokens)]

def recordKeys : List String :=
  ["record_id", "source_record_id", "source_ordinal", "arrival_time_s", "input_tokens", "output_tokens",
    "prefix_group_id", "prefix_tokens"]

def NormalizedTraceRecord.fromDict (value : Doc Binary64) : Except PyError NormalizedTraceRecord := do
  let value ← requireMapping value "trace record"
  requireExactKeys value recordKeys "trace record"
  NormalizedTraceRecord.new (← fieldOf value "record_id") (← fieldOf value "source_record_id")
    (← fieldOf value "source_ordinal") (← fieldOf value "arrival_time_s") (← fieldOf value "input_tokens")
    (← fieldOf value "output_tokens") (← fieldOf value "prefix_group_id") (← fieldOf value "prefix_tokens")

/-- The fields that a record has. -/
def NormalizedTraceRecord.present (r : NormalizedTraceRecord) : List TraceField :=
  [(TraceField.arrivalTimeS, true), (.inputTokens, r.inputTokens.isSome),
    (.outputTokens, r.outputTokens.isSome), (.prefixGroupId, r.prefixGroupId.isSome),
    (.prefixTokens, r.prefixTokens.isSome)].filterMap fun p => if p.2 then some p.1 else none

structure NormalizedTraceDataset where
  manifest : TraceSourceManifest
  records : List NormalizedTraceRecord
  records_ne : records ≠ []
  recordIds_nodup : (records.map (·.recordId)).Nodup
  sourceIds_nodup : (records.map (·.sourceRecordId)).Nodup
  ordinals_nodup : (records.map (·.sourceOrdinal)).Nodup
  ordered : records.Pairwise fun a b => a.sourceOrdinal ≤ b.sourceOrdinal
  declared : ∀ r ∈ records, ∀ field ∈ r.present, field ∈ manifest.fieldOrigins.map Prod.fst

/-- The constructor of the dataset, which puts the records in the order of their source. -/
def NormalizedTraceDataset.new (manifest : TraceSourceManifest) (records : List NormalizedTraceRecord) :
    Except PyError NormalizedTraceDataset :=
  have hperm := perm_sortedBy (·.sourceOrdinal) records
  if hne : records = [] then .error (.valueError "records must be a non-empty tuple")
  else if hrecords : ¬ (records.map (·.recordId)).Nodup then
    .error (.valueError "duplicate normalized record_id")
  else if hsources : ¬ (records.map (·.sourceRecordId)).Nodup then
    .error (.valueError "duplicate source_record_id")
  else if hordinals : ¬ (records.map (·.sourceOrdinal)).Nodup then
    .error (.valueError "duplicate source_ordinal")
  else
    match hdeclared : (records.flatMap (·.present)).find? (· ∉ manifest.fieldOrigins.map Prod.fst) with
    | some field =>
      .error (.valueError ("present field " ++ field.value ++ " lacks manifest provenance declaration"))
    | none =>
      .ok ⟨manifest, sortedBy (·.sourceOrdinal) records, fun h => hne (h ▸ hperm.symm).eq_nil,
        (hperm.map _).nodup_iff.mpr (not_not.mp hrecords),
        (hperm.map _).nodup_iff.mpr (not_not.mp hsources),
        (hperm.map _).nodup_iff.mpr (not_not.mp hordinals), pairwise_sortedBy _ _, by
          intro r hr field hfield
          have hall := List.find?_eq_none.mp hdeclared field
            (List.mem_flatMap.mpr ⟨r, mem_sortedBy.mp hr, hfield⟩)
          simpa using hall⟩

def NormalizedTraceDataset.sourceOrder (d : NormalizedTraceDataset) : List NormalizedTraceRecord :=
  d.records

def NormalizedTraceDataset.toDict (d : NormalizedTraceDataset) : List (String × Doc Binary64) :=
  [("schema", .str normalizedTraceSchema), ("manifest", .obj d.manifest.toDict),
    ("records", .arr (d.records.map fun r => .obj r.toDict))]

def traceKeys : List String := ["schema", "manifest", "records"]

variable {ok : Binary64 → Prop} (codec : Codec Binary64 ok) (sha256 : String → Digest)

def NormalizedTraceDataset.toJson (d : NormalizedTraceDataset) : String := codec.dumps (.obj d.toDict)

def NormalizedTraceDataset.fromJson (value : String) : Except PyError NormalizedTraceDataset := do
  match codec.loads value with
  | none => .error (.valueError "malformed JSON")
  | some decoded =>
    let decoded ← requireMapping decoded "normalized trace"
    requireExactKeys decoded traceKeys "normalized trace"
    requireText (← fieldOf decoded "schema") normalizedTraceSchema "unsupported normalized trace schema"
    let rawRecords ← requireList (← fieldOf decoded "records") "records"
    let manifest ← TraceSourceManifest.fromDict (← fieldOf decoded "manifest")
    let records ← rawRecords.mapM NormalizedTraceRecord.fromDict
    NormalizedTraceDataset.new manifest records

def NormalizedTraceDataset.fingerprint (d : NormalizedTraceDataset) : String :=
  (sha256 (d.toJson codec)).hexdigest

end Records

end Cadi.Trace
