import Cadi.Experiments.Fields
import Cadi.Library.Digest
import Cadi.Library.Numbering

namespace Cadi.Synthetic
open Library Fields
set_option autoImplicit true

section Values

abbrev NonnegativeFloat := {q : ℚ // 0 ≤ q}

abbrev PositiveFloat := {q : ℚ // 0 < q}

abbrev Fraction := {q : ℚ // 0 ≤ q ∧ q ≤ 1}

/-- `float(value)` of a number; exact numbers are finite. -/
def requireReal (value : Doc ℚ) (name : String) : Except PyError ℚ :=
  match value with
  | .int z => .ok z
  | .float q => .ok q
  | _ => .error (.typeError (name ++ " must be a real number"))

def requireNonnegativeFinite (value : Doc ℚ) (name : String) : Except PyError NonnegativeFloat := do
  let result ← requireReal value name
  if h : 0 ≤ result then return ⟨result, h⟩ else .error (.valueError (name ++ " must be nonnegative"))

def requirePositiveFinite (value : Doc ℚ) (name : String) : Except PyError PositiveFloat := do
  let result ← requireNonnegativeFinite value name
  if h : 0 < result.1 then return ⟨result.1, h⟩ else .error (.valueError (name ++ " must be positive"))

def requireFraction (value : Doc ℚ) (name : String) : Except PyError Fraction := do
  let result ← requireNonnegativeFinite value name
  if h : result.1 ≤ 1 then return ⟨result.1, result.2, h⟩
  else .error (.valueError (name ++ " must be in [0, 1]"))

end Values

section Config

structure FullySyntheticWorkloadConfig where
  seed : Nat
  requestCount : PositiveInt
  interarrivalSChoices : Choices PositiveFloat
  inputTokensChoices : Choices PositiveInt
  outputTokensChoices : Choices Nat
  prefixFractionChoices : Choices Fraction
  prefixGroupCount : Nat
  groups_pos : (∃ fraction ∈ prefixFractionChoices.values, 0 < fraction.1) → prefixGroupCount ≠ 0

/-- The constructor of the configuration, on values of any type. -/
def FullySyntheticWorkloadConfig.new (seed requestCount : Doc ℚ)
    (interarrivalSChoices inputTokensChoices outputTokensChoices prefixFractionChoices : List (Doc ℚ))
    (prefixGroupCount : Doc ℚ) : Except PyError FullySyntheticWorkloadConfig := do
  let seed ← requireNonnegativeInt seed "seed"
  let requestCount ← requirePositiveInt requestCount "request_count"
  let interarrivals ← requireChoices requirePositiveFinite "interarrival_s_choices" interarrivalSChoices
  let inputs ← requireChoices requirePositiveInt "input_tokens_choices" inputTokensChoices
  let outputs ← requireChoices requireNonnegativeInt "output_tokens_choices" outputTokensChoices
  let fractions ← requireChoices requireFraction "prefix_fraction_choices" prefixFractionChoices
  let groupCount ← requireNonnegativeInt prefixGroupCount "prefix_group_count"
  if h : (∃ fraction ∈ fractions.values, 0 < fraction.1) → groupCount ≠ 0 then
    return ⟨seed, requestCount, interarrivals, inputs, outputs, fractions, groupCount, h⟩
  else .error (.valueError "positive prefix fractions require positive prefix_group_count")

def FullySyntheticWorkloadConfig.toDict (c : FullySyntheticWorkloadConfig) : List (String × Doc ℚ) :=
  [("seed", .int c.seed), ("request_count", .int c.requestCount.1),
    ("interarrival_s_choices", .arr (c.interarrivalSChoices.values.map fun q => .float q.1)),
    ("input_tokens_choices", .arr (c.inputTokensChoices.values.map fun n => .int n.1)),
    ("output_tokens_choices", .arr (c.outputTokensChoices.values.map fun n : Nat => .int n)),
    ("prefix_fraction_choices", .arr (c.prefixFractionChoices.values.map fun q => .float q.1)),
    ("prefix_group_count", .int c.prefixGroupCount)]

def syntheticConfigKeys : List String :=
  ["seed", "request_count", "interarrival_s_choices", "input_tokens_choices", "output_tokens_choices",
    "prefix_fraction_choices", "prefix_group_count"]

def FullySyntheticWorkloadConfig.fromDict (value : Doc ℚ) :
    Except PyError FullySyntheticWorkloadConfig := do
  let value ← requireMapping value "fully synthetic workload config"
  requireExactKeys value syntheticConfigKeys "fully synthetic workload config"
  let interarrivals ← requireList (← fieldOf value "interarrival_s_choices") "interarrival_s_choices"
  let inputs ← requireList (← fieldOf value "input_tokens_choices") "input_tokens_choices"
  let outputs ← requireList (← fieldOf value "output_tokens_choices") "output_tokens_choices"
  let fractions ← requireList (← fieldOf value "prefix_fraction_choices") "prefix_fraction_choices"
  FullySyntheticWorkloadConfig.new (← fieldOf value "seed") (← fieldOf value "request_count") interarrivals
    inputs outputs fractions (← fieldOf value "prefix_group_count")

end Config

section Records

structure FullySyntheticWorkloadRecord where
  recordId : NonemptyString
  ordinal : Nat
  arrivalTimeS : NonnegativeFloat
  inputTokens : PositiveInt
  outputTokens : Nat
  prefixGroupId : Option NonemptyString
  prefixTokens : Nat
  prefix_le : prefixTokens ≤ inputTokens.1
  group_iff : prefixGroupId ≠ none ↔ 0 < prefixTokens
deriving DecidableEq

/-- The constructor of a record, on values of any type. -/
def FullySyntheticWorkloadRecord.new (recordId ordinal arrivalTimeS inputTokens outputTokens prefixGroupId
    prefixTokens : Doc ℚ) : Except PyError FullySyntheticWorkloadRecord := do
  let recordId ← requireNonemptyString recordId "record_id"
  let ordinal ← requireNonnegativeInt ordinal "ordinal"
  let arrivalTimeS ← requireNonnegativeFinite arrivalTimeS "arrival_time_s"
  let inputTokens ← requirePositiveInt inputTokens "input_tokens"
  let outputTokens ← requireNonnegativeInt outputTokens "output_tokens"
  let prefixGroupId ← requireOptionalNonemptyString prefixGroupId "prefix_group_id"
  let prefixTokens ← requireNonnegativeInt prefixTokens "prefix_tokens"
  if hle : prefixTokens ≤ inputTokens.1 then
    if hzero : prefixTokens = 0 ∧ prefixGroupId ≠ none then
      .error (.valueError "zero prefix_tokens requires null prefix_group_id")
    else if hpos : 0 < prefixTokens ∧ prefixGroupId = none then
      .error (.valueError "positive prefix_tokens requires prefix_group_id")
    else return ⟨recordId, ordinal, arrivalTimeS, inputTokens, outputTokens, prefixGroupId,
      prefixTokens, hle,
      ⟨fun hg => Nat.pos_of_ne_zero fun h0 => hzero ⟨h0, hg⟩, fun hp hg => hpos ⟨hp, hg⟩⟩⟩
  else .error (.valueError "prefix_tokens cannot exceed input_tokens")

def FullySyntheticWorkloadRecord.toDict (r : FullySyntheticWorkloadRecord) : List (String × Doc ℚ) :=
  [("record_id", .str r.recordId.1), ("ordinal", .int r.ordinal),
    ("arrival_time_s", .float r.arrivalTimeS.1), ("input_tokens", .int r.inputTokens.1),
    ("output_tokens", .int r.outputTokens), ("prefix_group_id", optionalDoc r.prefixGroupId),
    ("prefix_tokens", .int r.prefixTokens)]

def syntheticRecordKeys : List String :=
  ["record_id", "ordinal", "arrival_time_s", "input_tokens", "output_tokens", "prefix_group_id",
    "prefix_tokens"]

def FullySyntheticWorkloadRecord.fromDict (value : Doc ℚ) :
    Except PyError FullySyntheticWorkloadRecord := do
  let value ← requireMapping value "fully synthetic workload record"
  requireExactKeys value syntheticRecordKeys "fully synthetic workload record"
  FullySyntheticWorkloadRecord.new (← fieldOf value "record_id") (← fieldOf value "ordinal")
    (← fieldOf value "arrival_time_s") (← fieldOf value "input_tokens") (← fieldOf value "output_tokens")
    (← fieldOf value "prefix_group_id") (← fieldOf value "prefix_tokens")

end Records

section Datasets

def fullySyntheticWorkloadSchema : String := "cadi.c5.4.fully-synthetic-workload.v1"

def fullySyntheticWorkloadVersion : String := "cadi.c5.4.fully-synthetic-workload.v1"

inductive SyntheticWorkloadProvenance where
  | synthetic
deriving DecidableEq

def SyntheticWorkloadProvenance.value : SyntheticWorkloadProvenance → String
  | .synthetic => "SYNTHETIC"

structure FullySyntheticWorkloadDataset where
  config : FullySyntheticWorkloadConfig
  records : List FullySyntheticWorkloadRecord
  provenance : SyntheticWorkloadProvenance := .synthetic
  version : String := fullySyntheticWorkloadVersion

def syntheticId (ordinal : Nat) : String := "synthetic:" ++ zeroPadded 6 ordinal

def syntheticGroup (index : Nat) : String := "synthetic-prefix:" ++ zeroPadded 4 index

/-- The tokens that a fraction of the input has. -/
def prefixOf (inputTokens : PositiveInt) (fraction : Fraction) : Nat := ⌊(inputTokens.1 : ℚ) * fraction.1⌋₊

/-- The first arrival is zero, the later ones come after the arrival before. -/
def requireArrival (expectedOrdinal : Nat) (previousArrival : Option ℚ) (arrival : ℚ) :
    Except PyError Unit :=
  if expectedOrdinal = 0 then raiseIf (arrival ≠ 0) (.valueError "first synthetic arrival must be zero")
  else
    raiseIf (¬ ∃ previous ∈ previousArrival, previous < arrival)
      (.valueError "synthetic arrivals must be strictly increasing")

/-- The checks of the records, against the ordinal that is due and the arrival before. -/
def validateRecords (config : FullySyntheticWorkloadConfig) :
    Nat → Option ℚ → List FullySyntheticWorkloadRecord → Except PyError Unit
  | _, _, [] => return ⟨⟩
  | expectedOrdinal, previousArrival, record :: records => do
    raiseIf (record.ordinal ≠ expectedOrdinal) (.valueError "synthetic record ordinals must be contiguous")
    raiseIf (record.recordId.1 ≠ syntheticId expectedOrdinal)
      (.valueError "synthetic record_id must match ordinal")
    raiseIf (record.inputTokens ∉ config.inputTokensChoices.values)
      (.valueError "input_tokens must come from configured choices")
    raiseIf (record.outputTokens ∉ config.outputTokensChoices.values)
      (.valueError "output_tokens must come from configured choices")
    raiseIf (∃ group ∈ record.prefixGroupId,
      group.1 ∉ (List.range config.prefixGroupCount).map syntheticGroup)
      (.valueError "prefix_group_id must be a configured synthetic group")
    requireArrival expectedOrdinal previousArrival record.arrivalTimeS.1
    raiseIf (¬ ∃ fraction ∈ config.prefixFractionChoices.values,
        prefixOf record.inputTokens fraction = record.prefixTokens)
      (.valueError "prefix_tokens must be admitted by configured prefix fractions")
    validateRecords config (expectedOrdinal + 1) (some record.arrivalTimeS.1) records

def FullySyntheticWorkloadDataset.postInit (d : FullySyntheticWorkloadDataset) :
    Except PyError FullySyntheticWorkloadDataset := do
  raiseIf (d.provenance ≠ .synthetic)
    (.valueError "fully synthetic workload provenance must be SYNTHETIC")
  raiseIf (d.version ≠ fullySyntheticWorkloadVersion)
    (.valueError ("unsupported fully synthetic version: '" ++ d.version ++ "'"))
  raiseIf (d.records = []) (.valueError "records must be a non-empty tuple")
  raiseIf (d.records.length ≠ d.config.requestCount.1)
    (.valueError "record count must equal config.request_count")
  validateRecords d.config 0 none d.records
  return d

def FullySyntheticWorkloadDataset.toDict (d : FullySyntheticWorkloadDataset) : Doc ℚ :=
  .obj [("schema", .str fullySyntheticWorkloadSchema), ("version", .str d.version),
    ("provenance", .str d.provenance.value), ("config", .obj d.config.toDict),
    ("records", .arr (d.records.map fun r => .obj r.toDict))]

def syntheticDatasetKeys : List String := ["schema", "version", "provenance", "config", "records"]

variable {ok : ℚ → Prop} (codec : Codec ℚ ok)

def FullySyntheticWorkloadDataset.toJson (d : FullySyntheticWorkloadDataset) : String :=
  codec.dumps d.toDict

def FullySyntheticWorkloadDataset.fromJson (value : String) :
    Except PyError FullySyntheticWorkloadDataset := do
  match codec.loads value with
  | none => .error (.valueError "malformed JSON")
  | some decoded =>
    let decoded ← requireMapping decoded "fully synthetic workload"
    requireExactKeys decoded syntheticDatasetKeys "fully synthetic workload"
    requireText (← fieldOf decoded "schema") fullySyntheticWorkloadSchema
      "unsupported fully synthetic workload schema"
    requireText (← fieldOf decoded "version") fullySyntheticWorkloadVersion
      "unsupported fully synthetic version"
    requireText (← fieldOf decoded "provenance") SyntheticWorkloadProvenance.synthetic.value
      "invalid fully synthetic provenance"
    let rawRecords ← requireList (← fieldOf decoded "records") "records"
    let config ← FullySyntheticWorkloadConfig.fromDict (← fieldOf decoded "config")
    let records ← rawRecords.mapM FullySyntheticWorkloadRecord.fromDict
    FullySyntheticWorkloadDataset.postInit ⟨config, records, .synthetic, fullySyntheticWorkloadVersion⟩

end Datasets

section Generator
variable (sha256 : String → Digest)

/-- The digest of the UTF-8 encoding of the joined parts. -/
def decisionDigest (seed : Nat) (recordId channel : String) : Digest :=
  sha256 (String.intercalate "\x1f" [toString seed, recordId, channel])

def choiceIndex (seed : Nat) (recordId channel : String) (count : Nat) : Except PyError Nat := do
  raiseIf (count = 0) (.valueError "choice count must be positive")
  return (decisionDigest sha256 seed recordId channel).head64 % count

/-- A choice of the tuple, by a digest. -/
def choose (seed : Nat) (recordId channel : String) (choices : List α) : Except PyError α := do
  let index ← choiceIndex sha256 seed recordId channel choices.length
  match choices[index]? with
  | some choice => return choice
  | none => .error (.runtimeError "tuple index out of range")

/-- The first record arrives at once, the others after an interval. -/
def drawArrival (config : FullySyntheticWorkloadConfig) (ordinal : Nat) (arrival : ℚ) :
    Except PyError ℚ :=
  if 0 < ordinal then do
    let interval ← choose sha256 config.seed (syntheticId ordinal) "interarrival"
      config.interarrivalSChoices.values
    return arrival + interval.1
  else return arrival

def drawGroup (config : FullySyntheticWorkloadConfig) (recordId : String) (prefixTokens : Nat) :
    Except PyError (Doc ℚ) :=
  if prefixTokens = 0 then return .null
  else do
    let groupIndex ← choiceIndex sha256 config.seed recordId "prefix-group" config.prefixGroupCount
    return .str (syntheticGroup groupIndex)

def generateRecords (config : FullySyntheticWorkloadConfig) :
    List Nat → ℚ → Except PyError (List FullySyntheticWorkloadRecord)
  | [], _ => return []
  | ordinal :: ordinals, arrival => do
    let recordId := syntheticId ordinal
    let arrival ← drawArrival sha256 config ordinal arrival
    let inputTokens ← choose sha256 config.seed recordId "input-tokens" config.inputTokensChoices.values
    let outputTokens ← choose sha256 config.seed recordId "output-tokens" config.outputTokensChoices.values
    let prefixFraction ← choose sha256 config.seed recordId "prefix-fraction"
      config.prefixFractionChoices.values
    let prefixTokens := prefixOf inputTokens prefixFraction
    let prefixGroupId ← drawGroup sha256 config recordId prefixTokens
    let record ← FullySyntheticWorkloadRecord.new (.str recordId) (.int ordinal) (.float arrival)
      (.int inputTokens.1) (.int outputTokens) prefixGroupId (.int prefixTokens)
    return record :: (← generateRecords config ordinals arrival)

def generateFullySyntheticWorkload (config : FullySyntheticWorkloadConfig) :
    Except PyError FullySyntheticWorkloadDataset := do
  let records ← generateRecords sha256 config (List.range config.requestCount.1) 0
  FullySyntheticWorkloadDataset.postInit { config, records }

def FullySyntheticWorkloadDataset.assertReproducible {ok : ℚ → Prop} (codec : Codec ℚ ok)
    (d : FullySyntheticWorkloadDataset) : Except PyError FullySyntheticWorkloadDataset := do
  let expected ← generateFullySyntheticWorkload sha256 d.config
  raiseIf (expected.toJson codec ≠ d.toJson codec)
    (.valueError "fully synthetic workload does not reproduce from config/seed")
  return d

end Generator

end Cadi.Synthetic
