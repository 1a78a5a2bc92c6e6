import Cadi.Entities
import Cadi.Library.Checked
import Cadi.Library.Keys
import Mathlib.Algebra.Order.Field.Rat
import Mathlib.Data.Int.Order.Basic
import Mathlib.Data.String.Basic

namespace Cadi.Calibration
open Library
set_option autoImplicit true

section Texts

/-- What `str.strip` takes for whitespace. -/
def isWhitespace (c : Char) : Bool :=
  c.toNat ∈ [9, 10, 11, 12, 13, 28, 29, 30, 31, 32, 133, 160, 5760, 8192, 8193, 8194, 8195, 8196, 8197,
    8198, 8199, 8200, 8201, 8202, 8232, 8233, 8239, 8287, 12288]

/-- Whether stripping leaves nothing. -/
def isBlank (s : String) : Bool := s.toList.all isWhitespace

end Texts

section Sources

inductive CalibrationArtifactRole where
  | modelConfig | deviceConfig | computeAttention | computeMlp | networkAllReduce | networkSendRecv
deriving DecidableEq

structure CalibrationArtifact where
  role : CalibrationArtifactRole
  path : String
  gitBlobSha1 : String
deriving DecidableEq

structure CalibrationSourceManifest where
  hardwareId : String
  artifacts : List CalibrationArtifact
deriving DecidableEq

def vidurLlama27bA100Dgx : CalibrationSourceManifest where
  hardwareId := "a100-80gb"
  artifacts :=
    [⟨.modelConfig, "vidur/config/model_config.py", "722299bbb556ccbab2b82609598be6b8c2963c29"⟩,
      ⟨.deviceConfig, "vidur/config/device_sku_config.py", "8ac9bf57ac03070cd42cdf48792ccf8ffd73ca04"⟩,
      ⟨.computeAttention, "data/profiling/compute/a100/meta-llama/Llama-2-7b-hf/attention.csv",
        "6ce0a3beab1618969d429b4313666b5dff6850dd"⟩,
      ⟨.computeMlp, "data/profiling/compute/a100/meta-llama/Llama-2-7b-hf/mlp.csv",
        "479ed2f6ed22049ac444bca9fa44578532cbf28a"⟩,
      ⟨.networkAllReduce, "data/profiling/network/a100_dgx/all_reduce.csv",
        "730776436cbd9e3e40aae50768e2b64921dd0379"⟩,
      ⟨.networkSendRecv, "data/profiling/network/a100_dgx/send_recv.csv",
        "418cd50858fdd604c3da21eb3aaa06e583059865"⟩]

def vidurLlama27bH100Dgx : CalibrationSourceManifest where
  hardwareId := "h100-80gb"
  artifacts :=
    [⟨.modelConfig, "vidur/config/model_config.py", "722299bbb556ccbab2b82609598be6b8c2963c29"⟩,
      ⟨.deviceConfig, "vidur/config/device_sku_config.py", "8ac9bf57ac03070cd42cdf48792ccf8ffd73ca04"⟩,
      ⟨.computeAttention, "data/profiling/compute/h100/meta-llama/Llama-2-7b-hf/attention.csv",
        "dfc6b05e232e3d243bf3c89feb3f380a77f5ad0d"⟩,
      ⟨.computeMlp, "data/profiling/compute/h100/meta-llama/Llama-2-7b-hf/mlp.csv",
        "661ea954e9508d67f37d3b24f0e07eb96f83ca46"⟩,
      ⟨.networkAllReduce, "data/profiling/network/h100_dgx/all_reduce.csv",
        "a7a2470393d9ad8786e2423f081d01f8997b4bdb"⟩,
      ⟨.networkSendRecv, "data/profiling/network/h100_dgx/send_recv.csv",
        "fed60792e5d5900ea008e4d26427f39b7285434f"⟩]

def vidurCalibrationSources : List CalibrationSourceManifest :=
  [vidurLlama27bA100Dgx, vidurLlama27bH100Dgx]

def vidurPinnedCommit : String := "abae7f63aa857300f5cdc6f5e0d27860cd24721b"

/-- The hardware of the declared domain. -/
def hardwareIds : List String := vidurCalibrationSources.map CalibrationSourceManifest.hardwareId

end Sources

section Points

inductive ReferenceKind where
  | coldPrefill | singleTokenDecode | pointToPointTransfer
deriving DecidableEq

def ReferenceKind.value : ReferenceKind → String
  | .coldPrefill => "COLD_PREFILL"
  | .singleTokenDecode => "SINGLE_TOKEN_DECODE"
  | .pointToPointTransfer => "POINT_TO_POINT_TRANSFER"

structure SourceArtifactRef where
  path : String
  gitBlobSha1 : String
deriving DecidableEq

def artifactRoles : ReferenceKind → List CalibrationArtifactRole
  | .coldPrefill | .singleTokenDecode => [.modelConfig, .computeAttention, .computeMlp]
  | .pointToPointTransfer => [.networkSendRecv]

/-- The pinned artifacts of a kind, in the order of their paths. -/
def expectedSourceArtifacts (hardwareId : String) (kind : ReferenceKind) : List SourceArtifactRef :=
  sortedBy (fun r => toLex (r.path, r.gitBlobSha1))
    (((vidurCalibrationSources.find? (·.hardwareId = hardwareId)).map fun source =>
      (source.artifacts.filter (·.role ∈ artifactRoles kind)).map fun a =>
        ⟨a.path, a.gitBlobSha1⟩).getD [])

structure CalibrationReferencePoint where
  pointId : String
  hardwareId : String
  kind : ReferenceKind
  axisValue : Int
  observedSeconds : ℚ
  derivationId : String
  sourceCommit : String
  sourceArtifacts : List SourceArtifactRef
  pointId_nonblank : isBlank pointId = false
  hardware_mem : hardwareId ∈ hardwareIds
  axis_pos : 0 < axisValue
  observed_nonneg : 0 ≤ observedSeconds
  derivationId_nonblank : isBlank derivationId = false
  commit_eq : sourceCommit = vidurPinnedCommit
  artifacts_eq : sortedBy (fun r => toLex (r.path, r.gitBlobSha1)) sourceArtifacts =
    expectedSourceArtifacts hardwareId kind
deriving DecidableEq

end Points

section Partitions

def c6MinFitPoints : Nat := 2

def c6MinValidationPoints : Nat := 2

/-- The elements at even positions, and those at odd ones. -/
def evens (l : List α) : List α := (l.zipIdx.filter (·.2 % 2 = 0)).map Prod.fst

def odds (l : List α) : List α := (l.zipIdx.filter (·.2 % 2 = 1)).map Prod.fst

def orderedPoints (points : List CalibrationReferencePoint) : List CalibrationReferencePoint :=
  sortedBy (fun p => toLex (p.axisValue, p.pointId)) points

structure ReferencePartition where
  hardwareId : String
  kind : ReferenceKind
  fit : List CalibrationReferencePoint
  validation : List CalibrationReferencePoint
deriving DecidableEq

def ReferencePartition.postInit (p : ReferencePartition) : Except PyError ReferencePartition := do
  raiseIf (p.hardwareId ∉ hardwareIds)
    (.valueError "hardware_id is outside the declared C6.3 Vidur domain")
  raiseIf (p.fit.length < c6MinFitPoints)
    (.valueError "reference partition requires at least two FIT points")
  raiseIf (p.validation.length < c6MinValidationPoints)
    (.valueError "reference partition requires at least two VALIDATION points")
  let combined := p.fit ++ p.validation
  raiseIf (∃ q ∈ combined, q.hardwareId ≠ p.hardwareId ∨ q.kind ≠ p.kind)
    (.valueError "partition points must match the partition family")
  raiseIf (¬ (combined.map CalibrationReferencePoint.pointId).Nodup)
    (.valueError "partition point IDs must be unique")
  raiseIf (¬ (combined.map CalibrationReferencePoint.axisValue).Nodup)
    (.valueError "partition axis values must be unique")
  let ordered := orderedPoints combined
  raiseIf (p.fit ≠ evens ordered ∨ p.validation ≠ odds ordered)
    (.valueError "partition must use the canonical even-FIT/odd-VALIDATION split")
  return p

def splitReferenceFamily (points : List CalibrationReferencePoint) :
    Except PyError ReferencePartition := do
  raiseIf (points.length < c6MinFitPoints + c6MinValidationPoints)
    (.valueError "reference family requires at least four points")
  raiseIf ((points.map CalibrationReferencePoint.hardwareId).dedup.length ≠ 1 ∨
      (points.map CalibrationReferencePoint.kind).dedup.length ≠ 1)
    (.valueError "reference family must have one hardware_id and one kind")
  raiseIf (¬ (points.map CalibrationReferencePoint.pointId).Nodup)
    (.valueError "reference point IDs must be unique within a family")
  raiseIf (¬ (points.map CalibrationReferencePoint.axisValue).Nodup)
    (.valueError "reference axis values must be unique within a family")
  let ordered := orderedPoints points
  match ordered with
  | [] => .error (.keyError "tuple index out of range")
  | first :: _ =>
    ReferencePartition.postInit ⟨first.hardwareId, first.kind, evens ordered, odds ordered⟩

end Partitions

end Cadi.Calibration
