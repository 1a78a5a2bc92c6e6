import Cadi.Experiments.Trace
import Cadi.Library.Numbering

namespace Cadi.Augmentation
open Library Fields Trace
set_option autoImplicit true

section Values

inductive FaultClass where
  | deliveryDelay
  | deliveryDrop
  | deliveryDuplicate
  | deliveryReorder
  | workerFailure
  | replicaLoss
  | replicaEviction
  | attemptTimeout
  | lateAttemptResult
  | staleAttemptObservation
deriving DecidableEq

def FaultClass.value : FaultClass → String
  | .deliveryDelay => "DELIVERY_DELAY"
  | .deliveryDrop => "DELIVERY_DROP"
  | .deliveryDuplicate => "DELIVERY_DUPLICATE"
  | .deliveryReorder => "DELIVERY_REORDER"
  | .workerFailure => "WORKER_FAILURE"
  | .replicaLoss => "REPLICA_LOSS"
  | .replicaEviction => "REPLICA_EVICTION"
  | .attemptTimeout => "ATTEMPT_TIMEOUT"
  | .lateAttemptResult => "LATE_ATTEMPT_RESULT"
  | .staleAttemptObservation => "STALE_ATTEMPT_OBSERVATION"

def faultClasses : List FaultClass :=
  [.deliveryDelay, .deliveryDrop, .deliveryDuplicate, .deliveryReorder, .workerFailure, .replicaLoss,
    .replicaEviction, .attemptTimeout, .lateAttemptResult, .staleAttemptObservation]

/-- `FaultClass(raw)`; the message is the source's up to the value it shows. -/
def readFault (raw : Doc Binary64) : Except PyError FaultClass :=
  match raw with
  | .str s =>
    match faultClasses.find? (·.value = s) with
    | some fault => .ok fault
    | none => .error (.valueError "invalid FaultClass")
  | _ => .error (.valueError "invalid FaultClass")

abbrev Probability := {t : Time // t.units ≤ 2 ^ 1074}

abbrev PositiveTime := {t : Time // 0 < t.units}

def requireProbability (value : Doc Binary64) (name : String) : Except PyError Probability := do
  match Time.ofBinary64 (← requireFinite value name) with
  | some t =>
    if h : t.units ≤ 2 ^ 1074 then return ⟨t, h⟩
    else .error (.valueError (name ++ " must be in [0, 1]"))
  | none => .error (.valueError (name ++ " must be in [0, 1]"))

def requirePositiveFinite (value : Doc Binary64) (name : String) : Except PyError PositiveTime := do
  match Time.ofBinary64 (← requireFinite value name) with
  | some t => if h : 0 < t.units then return ⟨t, h⟩ else .error (.valueError (name ++ " must be positive"))
  | none => .error (.valueError (name ++ " must be positive"))

end Values

section Config

structure ContinuityAugmentationConfig where
  seed : Nat
  sessionLengthRecords : PositiveInt
  toolWaitProbability : Probability
  toolWaitSeconds : List PositiveTime
  branchProbability : Probability
  branchLookbackRecords : Nat
  faultProbability : Probability
  faultClasses : List FaultClass
  waits_nodup : toolWaitSeconds.Nodup
  waits_ne : 0 < toolWaitProbability.1.units → toolWaitSeconds ≠ []
  lookback_ge : 2 ≤ branchLookbackRecords
  lookback_lt : 0 < branchProbability.1.units → branchLookbackRecords < sessionLengthRecords.1
  faults_nodup : faultClasses.Nodup
  faults_ne : 0 < faultProbability.1.units → faultClasses ≠ []

/-- The constructor of the configuration, on values of any type. -/
def ContinuityAugmentationConfig.new (seed sessionLengthRecords toolWaitProbability : Doc Binary64)
    (toolWaitSeconds : List (Doc Binary64)) (branchProbability branchLookbackRecords
    faultProbability : Doc Binary64) (faultClasses : List FaultClass) :
    Except PyError ContinuityAugmentationConfig := do
  let seed ← requireNonnegativeInt seed "seed"
  let sessionLength ← requirePositiveInt sessionLengthRecords "session_length_records"
  let toolWait ← requireProbability toolWaitProbability "tool_wait_probability"
  let branch ← requireProbability branchProbability "branch_probability"
  let fault ← requireProbability faultProbability "fault_probability"
  let waits ← requireEach requirePositiveFinite "tool_wait_seconds" toolWaitSeconds
  if hwaits : waits.Nodup then
    if hwaitsNe : 0 < toolWait.1.units → waits ≠ [] then
      let lookback ← requirePositiveInt branchLookbackRecords "branch_lookback_records"
      if hlookback : 2 ≤ lookback.1 then
        if hlength : 0 < branch.1.units → lookback.1 < sessionLength.1 then
          if hfaults : faultClasses.Nodup then
            if hfaultsNe : 0 < fault.1.units → faultClasses ≠ [] then
              return ⟨seed, sessionLength, toolWait, waits, branch, lookback.1, fault, faultClasses, hwaits,
                hwaitsNe, hlookback, hlength, hfaults, hfaultsNe⟩
            else .error (.valueError "nonzero fault_probability requires fault_classes")
          else .error (.valueError "fault_classes must not contain duplicates")
        else .error (.valueError ("nonzero branch_probability requires session_length_records " ++
          "greater than branch_lookback_records"))
      else .error (.valueError "branch_lookback_records must be at least 2")
    else .error (.valueError "nonzero tool_wait_probability requires tool_wait_seconds choices")
  else .error (.valueError "tool_wait_seconds must not contain duplicates")

def ContinuityAugmentationConfig.toDict (c : ContinuityAugmentationConfig) : List (String × Doc Binary64) :=
  [("seed", .int c.seed), ("session_length_records", .int c.sessionLengthRecords.1),
    ("tool_wait_probability", .float c.toolWaitProbability.1.toBinary64),
    ("tool_wait_seconds", .arr (c.toolWaitSeconds.map fun t => .float t.1.toBinary64)),
    ("branch_probability", .float c.branchProbability.1.toBinary64),
    ("branch_lookback_records", .int c.branchLookbackRecords),
    ("fault_probability", .float c.faultProbability.1.toBinary64),
    ("fault_classes", .arr (c.faultClasses.map fun fault => .str fault.value))]

def configKeys : List String :=
  ["seed", "session_length_records", "tool_wait_probability", "tool_wait_seconds", "branch_probability",
    "branch_lookback_records", "fault_probability", "fault_classes"]

def ContinuityAugmentationConfig.fromDict (value : Doc Binary64) :
    Except PyError ContinuityAugmentationConfig := do
  let value ← requireMapping value "augmentation config"
  requireExactKeys value configKeys "augmentation config"
  let rawWaits ← requireList (← fieldOf value "tool_wait_seconds") "tool_wait_seconds"
  let rawFaults ← requireList (← fieldOf value "fault_classes") "fault_classes"
  let faultClasses ← rawFaults.mapM readFault
  ContinuityAugmentationConfig.new (← fieldOf value "seed") (← fieldOf value "session_length_records")
    (← fieldOf value "tool_wait_probability") rawWaits (← fieldOf value "branch_probability")
    (← fieldOf value "branch_lookback_records") (← fieldOf value "fault_probability") faultClasses

end Config

section Annotations

structure ContinuityAnnotation where
  recordId : NonemptyString
  sessionId : NonemptyString
  continuationId : NonemptyString
  parentContinuationId : Option NonemptyString
  branchGroupId : Option NonemptyString
  toolWaitBeforeS : Option PositiveTime
  faultClass : Option FaultClass

def waitDoc : Option PositiveTime → Doc Binary64
  | none => .null
  | some t => .float t.1.toBinary64

def faultDoc : Option FaultClass → Doc Binary64
  | none => .null
  | some fault => .str fault.value

def requireOptionalWait (value : Doc Binary64) (name : String) : Except PyError (Option PositiveTime) :=
  match value with
  | .null => .ok none
  | value => some <$> requirePositiveFinite value name

def readOptionalFault (raw : Doc Binary64) : Except PyError (Option FaultClass) :=
  match raw with
  | .null => .ok none
  | raw => some <$> readFault raw

/-- The constructor of an annotation, on values of any type. -/
def ContinuityAnnotation.new (recordId sessionId continuationId parentContinuationId branchGroupId
    toolWaitBeforeS : Doc Binary64) (faultClass : Option FaultClass) :
    Except PyError ContinuityAnnotation := do
  let recordId ← requireNonemptyString recordId "record_id"
  let sessionId ← requireNonemptyString sessionId "session_id"
  let continuationId ← requireNonemptyString continuationId "continuation_id"
  let parentContinuationId ← requireOptionalNonemptyString parentContinuationId "parent_continuation_id"
  let branchGroupId ← requireOptionalNonemptyString branchGroupId "branch_group_id"
  let toolWaitBeforeS ← requireOptionalWait toolWaitBeforeS "tool_wait_before_s"
  return ⟨recordId, sessionId, continuationId, parentContinuationId, branchGroupId, toolWaitBeforeS,
    faultClass⟩

def ContinuityAnnotation.toDict (a : ContinuityAnnotation) : List (String × Doc Binary64) :=
  [("record_id", .str a.recordId.1), ("session_id", .str a.sessionId.1),
    ("continuation_id", .str a.continuationId.1),
    ("parent_continuation_id", optionalDoc a.parentContinuationId),
    ("branch_group_id", optionalDoc a.branchGroupId), ("tool_wait_before_s", waitDoc a.toolWaitBeforeS),
    ("fault_class", faultDoc a.faultClass)]

def annotationKeys : List String :=
  ["record_id", "session_id", "continuation_id", "parent_continuation_id", "branch_group_id",
    "tool_wait_before_s", "fault_class"]

def ContinuityAnnotation.fromDict (value : Doc Binary64) : Except PyError ContinuityAnnotation := do
  let value ← requireMapping value "augmentation annotation"
  requireExactKeys value annotationKeys "augmentation annotation"
  let faultClass ← readOptionalFault (← fieldOf value "fault_class")
  ContinuityAnnotation.new (← fieldOf value "record_id") (← fieldOf value "session_id")
    (← fieldOf value "continuation_id") (← fieldOf value "parent_continuation_id")
    (← fieldOf value "branch_group_id") (← fieldOf value "tool_wait_before_s") faultClass

end Annotations

section Datasets

def continuityAugmentationSchema : String := "cadi.c5.3.continuity-augmentation.v1"

def continuityAugmentationVersion : String := "cadi.c5.3.synthetic-continuity.v1"

inductive AugmentationProvenance where
  | synthetic
deriving DecidableEq

def AugmentationProvenance.value : AugmentationProvenance → String
  | .synthetic => "SYNTHETIC"

structure ContinuityAugmentationDataset where
  sourceDatasetFingerprint : Sha256
  config : ContinuityAugmentationConfig
  annotations : List ContinuityAnnotation
  provenance : AugmentationProvenance := .synthetic
  augmentationVersion : String := continuityAugmentationVersion

/-- What the validator keeps of the annotations it has walked. -/
structure Walk where
  seenContinuations : Dict String String := ∅
  currentSession : Option String := none
  closedSessions : List String := []
  lastContinuationBySession : Dict String String := ∅

/-- The checks of the first annotation of a session. -/
def openSession (w : Walk) (a : ContinuityAnnotation) : Except PyError Walk := do
  let closed := w.currentSession.toList ++ w.closedSessions
  raiseIf (a.sessionId.1 ∈ closed) (.valueError "synthetic Session records must be contiguous")
  raiseIf (a.parentContinuationId ≠ none) (.valueError "first Continuation in a Session must be root")
  raiseIf (a.branchGroupId ≠ none) (.valueError "Session root cannot have branch_group_id")
  raiseIf (a.toolWaitBeforeS ≠ none) (.valueError "Session root cannot have tool_wait_before_s")
  return { w with closedSessions := closed, currentSession := some a.sessionId.1 }

/-- The checks of a later annotation of the session. -/
def continueSession (w : Walk) (a : ContinuityAnnotation) : Except PyError Walk := do
  match a.parentContinuationId with
  | none => .error (.valueError "non-root Continuation requires a parent")
  | some parent =>
    match w.seenContinuations.get? parent.1 with
    | none => .error (.valueError "parent Continuation must precede child")
    | some session =>
      raiseIf (session ≠ a.sessionId.1) (.valueError "parent Continuation must belong to same Session")
      match w.lastContinuationBySession.get? a.sessionId.1 with
      | none => .error (.keyError a.sessionId.1)
      | some previous =>
        raiseIf (parent.1 ≠ previous ∧ a.branchGroupId = none)
          (.valueError "non-linear parent requires branch_group_id")
        raiseIf (parent.1 = previous ∧ a.branchGroupId ≠ none)
          (.valueError "linear continuation cannot have branch_group_id")
        return w

def enterSession (w : Walk) (a : ContinuityAnnotation) : Except PyError Walk :=
  if some a.sessionId.1 ≠ w.currentSession then openSession w a else continueSession w a

def checkEntry (config : ContinuityAugmentationConfig) (w : Walk) (a : ContinuityAnnotation) :
    Except PyError Walk := do
  raiseIf (∃ wait ∈ a.toolWaitBeforeS, wait ∉ config.toolWaitSeconds)
    (.valueError "tool_wait_before_s must be one of configured tool_wait_seconds")
  raiseIf (∃ fault ∈ a.faultClass, fault ∉ config.faultClasses)
    (.valueError "fault_class must be one of configured fault_classes")
  let w ← enterSession w a
  return { w with
    seenContinuations := w.seenContinuations.set a.continuationId.1 a.sessionId.1
    lastContinuationBySession := w.lastContinuationBySession.set a.sessionId.1 a.continuationId.1 }

def ContinuityAugmentationDataset.postInit (d : ContinuityAugmentationDataset) :
    Except PyError ContinuityAugmentationDataset := do
  raiseIf (d.provenance ≠ .synthetic) (.valueError "augmentation provenance must be SYNTHETIC")
  raiseIf (d.augmentationVersion ≠ continuityAugmentationVersion)
    (.valueError ("unsupported augmentation version: '" ++ d.augmentationVersion ++ "'"))
  raiseIf (d.annotations = []) (.valueError "annotations must be a non-empty tuple")
  raiseIf (¬ (d.annotations.map (·.recordId)).Nodup) (.valueError "duplicate augmentation record_id")
  raiseIf (¬ (d.annotations.map (·.continuationId)).Nodup) (.valueError "duplicate continuation_id")
  let _ ← d.annotations.foldlM (checkEntry d.config) {}
  return d

def ContinuityAugmentationDataset.toDict (d : ContinuityAugmentationDataset) :
    List (String × Doc Binary64) :=
  [("schema", .str continuityAugmentationSchema), ("augmentation_version", .str d.augmentationVersion),
    ("provenance", .str d.provenance.value),
    ("source_dataset_fingerprint", .str d.sourceDatasetFingerprint.1), ("config", .obj d.config.toDict),
    ("annotations", .arr (d.annotations.map fun a => .obj a.toDict))]

def datasetKeys : List String :=
  ["schema", "augmentation_version", "provenance", "source_dataset_fingerprint", "config", "annotations"]

variable {ok : Binary64 → Prop} (codec : Codec Binary64 ok)

def ContinuityAugmentationDataset.toJson (d : ContinuityAugmentationDataset) : String :=
  codec.dumps (.obj d.toDict)

def ContinuityAugmentationDataset.fromJson (value : String) :
    Except PyError ContinuityAugmentationDataset := do
  match codec.loads value with
  | none => .error (.valueError "malformed JSON")
  | some decoded =>
    let decoded ← requireMapping decoded "continuity augmentation"
    requireExactKeys decoded datasetKeys "continuity augmentation"
    requireText (← fieldOf decoded "schema") continuityAugmentationSchema
      "unsupported continuity augmentation schema"
    requireText (← fieldOf decoded "augmentation_version") continuityAugmentationVersion
      "unsupported augmentation version"
    requireText (← fieldOf decoded "provenance") AugmentationProvenance.synthetic.value
      "invalid augmentation provenance"
    let rawAnnotations ← requireList (← fieldOf decoded "annotations") "annotations"
    let config ← ContinuityAugmentationConfig.fromDict (← fieldOf decoded "config")
    let annotations ← rawAnnotations.mapM ContinuityAnnotation.fromDict
    let fingerprint ← requireSha256 (← fieldOf decoded "source_dataset_fingerprint")
      "source_dataset_fingerprint"
    ContinuityAugmentationDataset.postInit
      ⟨fingerprint, config, annotations, .synthetic, continuityAugmentationVersion⟩

end Datasets

section Generator
variable (sha256 : String → Digest)

/-- The digest of the UTF-8 encoding of the joined parts. -/
def decisionDigest (seed : Nat) (sourceFingerprint recordId channel : String) : Digest :=
  sha256 (String.intercalate "\x1f" [toString seed, sourceFingerprint, recordId, channel])

/-- The quotient of two floats: the number of a digest's head and `2 ^ 64`. -/
def draw (seed : Nat) (sourceFingerprint recordId channel : String) : Binary64 :=
  (Binary64.ofRatio false
    ((decisionDigest sha256 seed sourceFingerprint recordId channel).head64 * 2 ^ 1074) 1).div
    (Binary64.ofRatio false (2 ^ 64 * 2 ^ 1074) 1)

def choiceIndex (seed : Nat) (sourceFingerprint recordId channel : String) (count : Nat) :
    Except PyError Nat := do
  raiseIf (count = 0) (.valueError "choice count must be positive")
  return (decisionDigest sha256 seed sourceFingerprint recordId channel).next64 % count

def selected (probability : Probability) (seed : Nat)
    (sourceFingerprint recordId channel : String) : Bool :=
  if probability.1.units = 0 then false
  else if 2 ^ 1074 ≤ probability.1.units then true
  else (Number.float (draw sha256 seed sourceFingerprint recordId channel)).lt probability.1.toNumber

/-- A choice of the tuple when the draw selects one. -/
def chooseSelected (probability : Probability) (choices : List α) (seed : Nat)
    (sourceFingerprint recordId channel choiceChannel : String) : Except PyError (Option α) :=
  if selected sha256 probability seed sourceFingerprint recordId channel then do
    let index ← choiceIndex sha256 seed sourceFingerprint recordId choiceChannel choices.length
    match choices[index]? with
    | some choice => return some choice
    | none => .error (.runtimeError "tuple index out of range")
  else return none

def sessionName (sessionIndex : Nat) : String := "syn-session:" ++ zeroPadded 6 sessionIndex

def continuationName (sessionIndex localIndex : Nat) : String :=
  sessionName sessionIndex ++ ":c:" ++ zeroPadded 4 localIndex

def forkName (sessionIndex parentIndex : Nat) : String :=
  sessionName sessionIndex ++ ":fork:" ++ zeroPadded 4 parentIndex

/-- The parent of a record past the root, and the group of its branch. -/
def drawParent (config : ContinuityAugmentationConfig) (sourceFingerprint recordId : String)
    (sessionIndex localIndex : Nat) : Nat × Option String :=
  if config.branchLookbackRecords ≤ localIndex ∧
      selected sha256 config.branchProbability config.seed sourceFingerprint recordId "branch" = true then
    (localIndex - config.branchLookbackRecords,
      some (forkName sessionIndex (localIndex - config.branchLookbackRecords)))
  else (localIndex - 1, none)

def textDoc : Option String → Doc Binary64
  | none => .null
  | some s => .str s

/-- The parent, branch group and wait of a record: a session's root has none of them. -/
def drawLinks (config : ContinuityAugmentationConfig) (sourceFingerprint recordId : String)
    (sessionIndex localIndex : Nat) :
    Except PyError (Option String × Option String × Option PositiveTime) :=
  if localIndex = 0 then return (none, none, none)
  else do
    let parent := drawParent sha256 config sourceFingerprint recordId sessionIndex localIndex
    let wait ← chooseSelected sha256 config.toolWaitProbability config.toolWaitSeconds config.seed
      sourceFingerprint recordId "tool-wait" "tool-wait-choice"
    return (some (continuationName sessionIndex parent.1), parent.2, wait)

def annotate (config : ContinuityAugmentationConfig) (sourceFingerprint : String) (position : Nat)
    (record : NormalizedTraceRecord) : Except PyError ContinuityAnnotation := do
  let sessionIndex := position / config.sessionLengthRecords.1
  let localIndex := position % config.sessionLengthRecords.1
  let links ← drawLinks sha256 config sourceFingerprint record.recordId.1 sessionIndex localIndex
  let faultClass ← chooseSelected sha256 config.faultProbability config.faultClasses config.seed
    sourceFingerprint record.recordId.1 "fault" "fault-class"
  ContinuityAnnotation.new (.str record.recordId.1) (.str (sessionName sessionIndex))
    (.str (continuationName sessionIndex localIndex)) (textDoc links.1) (textDoc links.2.1)
    (waitDoc links.2.2) faultClass

def augmentTrace {ok : Binary64 → Prop} (codec : Codec Binary64 ok) (source : NormalizedTraceDataset)
    (config : ContinuityAugmentationConfig) : Except PyError ContinuityAugmentationDataset := do
  let sourceFingerprint := source.fingerprint codec sha256
  let annotations ← source.sourceOrder.zipIdx.mapM fun p => annotate sha256 config sourceFingerprint p.2 p.1
  let fingerprint ← requireSha256 (.str sourceFingerprint) "source_dataset_fingerprint"
  ContinuityAugmentationDataset.postInit { sourceDatasetFingerprint := fingerprint, config, annotations }

variable {ok : Binary64 → Prop} (codec : Codec Binary64 ok)

def ContinuityAugmentationDataset.assertCompatibleSource (d : ContinuityAugmentationDataset)
    (source : NormalizedTraceDataset) : Except PyError ContinuityAugmentationDataset := do
  raiseIf (source.fingerprint codec sha256 ≠ d.sourceDatasetFingerprint.1)
    (.valueError "source dataset fingerprint mismatch")
  raiseIf (d.annotations.map (·.recordId) ≠ source.sourceOrder.map (·.recordId))
    (.valueError "augmentation record linkage does not match source order")
  return d

def ContinuityAugmentationDataset.assertReproducible (d : ContinuityAugmentationDataset)
    (source : NormalizedTraceDataset) : Except PyError ContinuityAugmentationDataset := do
  let _ ← d.assertCompatibleSource sha256 codec source
  let expected ← augmentTrace sha256 codec source d.config
  raiseIf (expected.toJson codec ≠ d.toJson codec)
    (.valueError "augmentation does not reproduce from source/config/seed")
  return d

end Generator

end Cadi.Augmentation
