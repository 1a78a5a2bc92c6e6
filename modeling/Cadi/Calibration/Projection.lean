import Cadi.Calibration.Reference
import Cadi.Library.Csv
import Cadi.Library.JsonDumps
import Mathlib.Data.List.DropRight

namespace Cadi.Calibration
open Library
set_option autoImplicit true

/-- The builtins that the corpus only applies to texts. -/
structure Builtins where
  lower : String → String
  int : String → Option Int
  /-- `none` is a text that is no number, `some none` a number that is not finite. -/
  float : String → Option (Option ℚ)
  /-- The digest of the UTF-8 encoding of a text, in hexadecimal. -/
  sha256 : String → String

section Rows

def strip (s : String) : String :=
  String.ofList ((s.toList.dropWhile isWhitespace).rdropWhile isWhitespace)

/-- The records of a text, without its byte order marks. -/
def tableOf (content : String) : Except CsvError (List (List String)) :=
  (·.map (·.map String.ofList)) <$> csvRecords (content.toList.dropWhile (· = '\uFEFF'))

/-- A `csv.Error`. -/
def csvFailure : CsvError → PyError
  | .newlineInUnquotedField => .runtimeError
    "new-line character seen in unquoted field - do you need to open the file with newline=''?"
  | .fieldLarger => .runtimeError "field larger than field limit (131072)"

def readCsv (content name : String) : Except PyError (List CsvRow) := do
  raiseIf (isBlank content) (.valueError (name ++ " must be non-empty CSV text"))
  match tableOf content with
  | .error e => .error (csvFailure e)
  | .ok [] | .ok ([] :: _) => .error (.valueError (name ++ " has no header"))
  | .ok (fieldnames :: records) =>
    let rows := csvRows fieldnames records
    raiseIf (rows = []) (.valueError (name ++ " has no data rows"))
    return rows

def cellJson : Option String → Json
  | none => .null
  | some s => .str s

/-- `dict(sorted(row.items()))`; cells without a name are not comparable with the others. -/
def sortedRow (row : CsvRow) : Except PyError Json := do
  raiseIf (row.rest ≠ none)
    (.typeError "'<' not supported between instances of 'NoneType' and 'str'")
  return .obj (byKey (row.cells.entries.map fun p => (p.1, cellJson p.2)))

def dropExactDuplicateRows (seen : List String) : List CsvRow → Except PyError (List CsvRow)
  | [] => return []
  | row :: rows => do
    let canonical := dumps (← sortedRow row)
    if canonical ∈ seen then dropExactDuplicateRows seen rows
    else return row :: (← dropExactDuplicateRows (canonical :: seen) rows)

def textOf (row : CsvRow) (column : String) : Except PyError String :=
  match row.cells.get? column with
  | some (some value) =>
    if isBlank value then .error (.valueError ("missing required source column/value '" ++ column ++ "'"))
    else .ok (strip value)
  | _ => .error (.valueError ("missing required source column/value '" ++ column ++ "'"))

variable (b : Builtins)

def intOf (row : CsvRow) (column : String) : Except PyError Int := do
  match b.int (← textOf row column) with
  | some value => return value
  | none => .error (.valueError ("source value '" ++ column ++ "' must be an integer"))

def boolOf (row : CsvRow) (column : String) : Except PyError Bool := do
  let text := b.lower (← textOf row column)
  if text = "true" then return true
  else if text = "false" then return false
  else .error (.valueError ("source value '" ++ column ++ "' must be True or False"))

def parseFloat (column text : String) : Except PyError ℚ :=
  match b.float text with
  | none => .error (.valueError ("source value '" ++ column ++ "' must be numeric"))
  | some none => .error (.valueError (column ++ " must be finite and non-negative"))
  | some (some value) =>
    if value < 0 then .error (.valueError (column ++ " must be finite and non-negative")) else .ok value

def floatOf (column : String) (row : CsvRow) : Except PyError ℚ := do
  parseFloat b column (← textOf row column)

def optionalFloatOf (column : String) (default : ℚ) (row : CsvRow) : Except PyError ℚ :=
  match row.cells.get? column with
  | some (some value) => if isBlank value then .ok default else parseFloat b column (strip value)
  | _ => .ok default

/-- Every float of an exact computation is finite. -/
def meanOf (values : List ℚ) : Except PyError ℚ := do
  raiseIf (values = []) (.valueError "cannot average an empty source replicate set")
  raiseIf (∃ value ∈ values, value < 0)
    (.valueError "source timing replicates must be finite and non-negative")
  let result := values.sum / values.length
  raiseIf (result < 0) (.valueError "source timing mean must be finite and non-negative")
  return result

def intIs (row : CsvRow) (column : String) (value : Int) : Except PyError Bool := do
  return (← intOf b row column) = value

def isMlpDomainRow (row : CsvRow) : Except PyError Bool :=
  allHold id [intIs b row "n_head" 32, intIs b row "n_kv_head" 32, intIs b row "n_embd" 4096,
    intIs b row "n_expanded_embd" 11008, intIs b row "vocab_size" 32768, boolOf b row "use_gated_mlp",
    intIs b row "num_tensor_parallel_workers" 1]

def isAttentionDomainRow (row : CsvRow) : Except PyError Bool :=
  allHold id [intIs b row "n_embd" 4096, intIs b row "n_q_head" 32, intIs b row "n_kv_head" 32,
    intIs b row "block_size" 16, intIs b row "num_tensor_parallel_workers" 1,
    intIs b row "max_model_len" 4096,
    do return "FLASH_ATTENTION".toList <:+ (← textOf row "attention_backend").toList]

def isColdRow (row : CsvRow) : Except PyError Bool :=
  allHold id [intIs b row "batch_size" 1, intIs b row "kv_cache_size" 0,
    do return 0 < (← intOf b row "prefill_chunk_size"), boolOf b row "is_prefill"]

def isDecodeRow (row : CsvRow) : Except PyError Bool :=
  allHold id [intIs b row "batch_size" 1, intIs b row "prefill_chunk_size" 0,
    do return 0 < (← intOf b row "kv_cache_size"), do return !(← boolOf b row "is_prefill")]

def isTransferRow (row : CsvRow) : Except PyError Bool :=
  allHold id [do return (← textOf row "collective") = "send_recv", intIs b row "rank" 0,
    intIs b row "num_workers" 2, intIs b row "devices_per_node" 2]

/-- The groups of the rows, in the order in which their keys first occur. -/
def groupByInt (column : String) (groups : Dict Int (List CsvRow)) :
    List CsvRow → Except PyError (Dict Int (List CsvRow))
  | [] => return groups
  | row :: rows => do
    let key ← intOf b row column
    groupByInt column (groups.set key ((groups.get? key).getD [] ++ [row])) rows

end Rows

section Components

structure VidurComputeComponents where
  attnPreProjMs : ℚ
  attnPostProjMs : ℚ
  attnRopeMs : ℚ
  attnKvCacheSaveMs : ℚ
  attentionKernelMs : ℚ
  inputLayernormMs : ℚ
  postAttentionLayernormMs : ℚ
  mlpUpProjMs : ℚ
  mlpDownProjMs : ℚ
  mlpActMs : ℚ
  addMs : ℚ

def VidurComputeComponents.fields (c : VidurComputeComponents) : List (String × ℚ) :=
  [("attn_pre_proj_ms", c.attnPreProjMs), ("attn_post_proj_ms", c.attnPostProjMs),
    ("attn_rope_ms", c.attnRopeMs), ("attn_kv_cache_save_ms", c.attnKvCacheSaveMs),
    ("attention_kernel_ms", c.attentionKernelMs), ("input_layernorm_ms", c.inputLayernormMs),
    ("post_attention_layernorm_ms", c.postAttentionLayernormMs), ("mlp_up_proj_ms", c.mlpUpProjMs),
    ("mlp_down_proj_ms", c.mlpDownProjMs), ("mlp_act_ms", c.mlpActMs), ("add_ms", c.addMs)]

def VidurComputeComponents.postInit (c : VidurComputeComponents) :
    Except PyError VidurComputeComponents := do
  c.fields.forM fun field =>
    raiseIf (field.2 < 0) (.valueError (field.1 ++ " must be finite and non-negative"))
  return c

def VidurComputeComponents.perLayerMs (c : VidurComputeComponents) : ℚ := (c.fields.map Prod.snd).sum

def composeVidurLlama27bTp1ModelSeconds (c : VidurComputeComponents) : ℚ := c.perLayerMs * 32 / 1000

variable (b : Builtins)

def columnMean (column : String) (rows : List CsvRow) : Except PyError ℚ := do
  meanOf (← rows.mapM (floatOf b column))

def composeComponents (mlpGroup attentionGroup : List CsvRow) (attentionTarget : String) :
    Except PyError VidurComputeComponents := do
  let attnPreProjMs ← columnMean b "time_stats.attn_pre_proj.median" mlpGroup
  let attnPostProjMs ← columnMean b "time_stats.attn_post_proj.median" mlpGroup
  let attnRopeMs ← columnMean b "time_stats.attn_rope.median" mlpGroup
  let inputLayernormMs ← columnMean b "time_stats.input_layernorm.median" mlpGroup
  let postAttentionLayernormMs ← columnMean b "time_stats.post_attention_layernorm.median" mlpGroup
  let mlpUpProjMs ← columnMean b "time_stats.mlp_up_proj.median" mlpGroup
  let mlpDownProjMs ← columnMean b "time_stats.mlp_down_proj.median" mlpGroup
  let mlpActMs ← columnMean b "time_stats.mlp_act.median" mlpGroup
  let addMs ← columnMean b "time_stats.add.median" mlpGroup
  let attentionKernelMs ← columnMean b attentionTarget attentionGroup
  let attnKvCacheSaveMs ← meanOf
    (← attentionGroup.mapM (optionalFloatOf b "time_stats.attn_kv_cache_save.median" 0))
  VidurComputeComponents.postInit {
    attnPreProjMs, attnPostProjMs, attnRopeMs, attnKvCacheSaveMs, attentionKernelMs, inputLayernormMs,
    postAttentionLayernormMs, mlpUpProjMs, mlpDownProjMs, mlpActMs, addMs }

end Components

section References

def artifactsForKind (hardwareId : String) (kind : ReferenceKind) :
    Except PyError (List SourceArtifactRef) := do
  match vidurCalibrationSources.filter (·.hardwareId = hardwareId) with
  | [source] =>
    let refs := (source.artifacts.filter (·.role ∈ artifactRoles kind)).map fun item =>
      (⟨item.path, item.gitBlobSha1⟩ : SourceArtifactRef)
    raiseIf (refs.length ≠ (artifactRoles kind).length)
      (.runtimeError "C6.2 source manifest is missing a required projection role")
    return sortedBy (fun r => toLex (r.path, r.gitBlobSha1)) refs
  | _ => .error (.runtimeError "C6.2 manifest lookup must return exactly one source")

/-- The checks of a reference point, in their order. -/
def CalibrationReferencePoint.new (pointId hardwareId : String) (kind : ReferenceKind) (axisValue : Int)
    (observedSeconds : ℚ) (derivationId sourceCommit : String) (sourceArtifacts : List SourceArtifactRef) :
    Except PyError CalibrationReferencePoint :=
  if h₁ : isBlank pointId = false then
    if h₂ : hardwareId ∈ hardwareIds then
      if h₃ : 0 < axisValue then
        if h₄ : 0 ≤ observedSeconds then
          if h₅ : isBlank derivationId = false then
            if h₆ : sourceCommit = vidurPinnedCommit then
              if h₇ : sortedBy (fun r => toLex (r.path, r.gitBlobSha1)) sourceArtifacts =
                  expectedSourceArtifacts hardwareId kind then
                .ok ⟨pointId, hardwareId, kind, axisValue, observedSeconds, derivationId, sourceCommit,
                  sourceArtifacts, h₁, h₂, h₃, h₄, h₅, h₆, h₇⟩
              else .error (.valueError
                ("source_artifacts must exactly match the pinned C6.2 roles for " ++ hardwareId ++ "/" ++
                  kind.value))
            else .error (.valueError "source_commit must equal the pinned C6.2 Vidur commit")
          else .error (.valueError "derivation_id must be a non-empty string")
        else .error (.valueError "observed_seconds must be finite and non-negative")
      else .error (.valueError "axis_value must be positive")
    else .error (.valueError "hardware_id is outside the declared C6.3 Vidur domain")
  else .error (.valueError "point_id must be a non-empty string")

structure ProjectionReference where
  point : CalibrationReferencePoint
  mlpReplicates : Nat
  attentionReplicates : Nat
  transferReplicates : Nat
deriving DecidableEq

def ProjectionReference.postInit (r : ProjectionReference) : Except PyError ProjectionReference := do
  if r.point.kind = .pointToPointTransfer then
    raiseIf (r.transferReplicates = 0 ∨ r.mlpReplicates ≠ 0 ∨ r.attentionReplicates ≠ 0)
      (.valueError "transfer reference must carry only transfer replicates")
  else
    raiseIf (r.mlpReplicates = 0 ∨ r.attentionReplicates = 0)
      (.valueError "compute reference requires MLP and attention replicates")
    raiseIf (r.transferReplicates ≠ 0)
      (.valueError "compute reference cannot carry transfer replicates")
  return r

def c6ProjectionAggregation : String := "equal-weight-mean-of-distinct-source-row-medians-v1"

def canonicalRows (rows : List CsvRow) : Except PyError (List Json) := do
  return sortedBy dumps (← rows.mapM sortedRow)

variable (b : Builtins)

def sha256Json (value : Json) : String := b.sha256 (dumps value)

def derivationIdOf (hardwareId : String) (kind : ReferenceKind) (axis : Int)
    (mlpRows attentionRows transferRows : List CsvRow) : Except PyError String := do
  let mlp ← canonicalRows mlpRows
  let attention ← canonicalRows attentionRows
  let transfer ← canonicalRows transferRows
  let payload := Json.obj [("aggregation", .str c6ProjectionAggregation), ("hardware_id", .str hardwareId),
    ("kind", .str kind.value), ("axis", .num (.int axis)), ("mlp_rows", .arr mlp),
    ("attention_rows", .arr attention), ("transfer_rows", .arr transfer)]
  return "vidur-c6.3b-v1:" ++ sha256Json b payload

def pointIdOf (hardwareId : String) (kind : ReferenceKind) (axis : Int) : String :=
  "c6.3b:" ++ hardwareId ++ ":" ++ kind.value ++ ":" ++ toString axis

def computeReference (hardwareId : String) (kind : ReferenceKind) (axis : Int)
    (components : VidurComputeComponents) (mlpGroup attentionGroup : List CsvRow)
    (artifacts : List SourceArtifactRef) : Except PyError ProjectionReference := do
  let observedSeconds := composeVidurLlama27bTp1ModelSeconds components
  let derivationId ← derivationIdOf b hardwareId kind axis mlpGroup attentionGroup []
  let point ← CalibrationReferencePoint.new (pointIdOf hardwareId kind axis) hardwareId kind axis
    observedSeconds derivationId vidurPinnedCommit artifacts
  ProjectionReference.postInit ⟨point, mlpGroup.length, attentionGroup.length, 0⟩

def transferReference (hardwareId : String) (axis : Int) (group : List CsvRow)
    (artifacts : List SourceArtifactRef) : Except PyError ProjectionReference := do
  let observedSeconds := (← columnMean b "time_stats.send_recv.median" group) / 1000
  let derivationId ← derivationIdOf b hardwareId .pointToPointTransfer axis [] [] group
  let point ← CalibrationReferencePoint.new (pointIdOf hardwareId .pointToPointTransfer axis) hardwareId
    .pointToPointTransfer axis observedSeconds derivationId vidurPinnedCommit artifacts
  ProjectionReference.postInit ⟨point, 0, 0, group.length⟩

def ReferenceKind.index : ReferenceKind → Nat
  | .coldPrefill => 0
  | .singleTokenDecode => 1
  | .pointToPointTransfer => 2

def referenceKinds : List ReferenceKind := [.coldPrefill, .singleTokenDecode, .pointToPointTransfer]

/-- The references, in their canonical order, if each family splits. -/
def canonicalReferences (projected : List ProjectionReference) :
    Except PyError (List ProjectionReference) := do
  let projected := sortedBy
    (fun r => toLex (r.point.kind.index, toLex (r.point.axisValue, r.point.pointId))) projected
  referenceKinds.forM fun kind =>
    discard (splitReferenceFamily
      ((projected.map ProjectionReference.point).filter (·.kind = kind)))
  return projected

def groupAt (groups : Dict Int (List CsvRow)) (axis : Int) : List CsvRow := (groups.get? axis).getD []

/-- The references of one axis of either kind of computation. -/
def computeAt (hardwareId : String) (kind : ReferenceKind) (axis : Int)
    (mlpGroup attentionGroup : List CsvRow) (attentionTarget : String)
    (artifacts : List SourceArtifactRef) : Except PyError ProjectionReference := do
  let components ← composeComponents b mlpGroup attentionGroup attentionTarget
  computeReference b hardwareId kind axis components mlpGroup attentionGroup artifacts

/-- What is derived from the distinct rows of the three tables. -/
def deriveFromRows (hardwareId : String) (attentionRows mlpRows sendRows : List CsvRow) :
    Except PyError (List ProjectionReference) := do
  let mlpDomain ← mlpRows.filterM (isMlpDomainRow b)
  let attentionDomain ← attentionRows.filterM (isAttentionDomainRow b)
  let coldRows ← attentionDomain.filterM (isColdRow b)
  let decodeRows ← attentionDomain.filterM (isDecodeRow b)
  let transferRows ← sendRows.filterM (isTransferRow b)
  raiseIf (mlpDomain = [] ∨ coldRows = [] ∨ decodeRows = [] ∨ transferRows = [])
    (.valueError "one or more C6.3b source domains are empty")
  let mlpByTokens ← groupByInt b "num_tokens" ∅ mlpDomain
  let coldByAxis ← groupByInt b "prefill_chunk_size" ∅ coldRows
  let decodeByAxis ← groupByInt b "kv_cache_size" ∅ decodeRows
  let transferByAxis ← groupByInt b "size" ∅ transferRows
  raiseIf (1 ∉ mlpByTokens) (.valueError "single-token decode requires MLP num_tokens=1")
  let computeArtifacts ← artifactsForKind hardwareId .coldPrefill
  let transferArtifacts ← artifactsForKind hardwareId .pointToPointTransfer
  let cold ← (sortedBy id coldByAxis.keys).mapM fun axis => do
    raiseIf (axis ∉ mlpByTokens)
      (.valueError ("cold-prefill axis " ++ toString axis ++ " has no matching MLP row"))
    computeAt b hardwareId .coldPrefill axis (groupAt mlpByTokens axis) (groupAt coldByAxis axis)
      "time_stats.attn_prefill.median" computeArtifacts
  let decode ← (sortedBy id decodeByAxis.keys).mapM fun axis =>
    computeAt b hardwareId .singleTokenDecode axis (groupAt mlpByTokens 1) (groupAt decodeByAxis axis)
      "time_stats.attn_decode.median" computeArtifacts
  let transfer ← (sortedBy id transferByAxis.keys).mapM fun axis =>
    transferReference b hardwareId axis (groupAt transferByAxis axis) transferArtifacts
  canonicalReferences (cold ++ decode ++ transfer)

def deriveVidurReferenceCorpus (hardwareId attentionCsv mlpCsv sendRecvCsv : String) :
    Except PyError (List ProjectionReference) := do
  raiseIf (hardwareId ∉ hardwareIds) (.valueError "hardware_id is outside the frozen C6.3b domain")
  let attentionRows ← dropExactDuplicateRows [] (← readCsv attentionCsv "attention_csv")
  let mlpRows ← dropExactDuplicateRows [] (← readCsv mlpCsv "mlp_csv")
  let sendRows ← dropExactDuplicateRows [] (← readCsv sendRecvCsv "send_recv_csv")
  deriveFromRows b hardwareId attentionRows mlpRows sendRows

end References

end Cadi.Calibration
