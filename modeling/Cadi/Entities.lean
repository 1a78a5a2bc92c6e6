import Cadi.Library.Binary64
import Mathlib.Data.Finset.Card

namespace Cadi
open Library
set_option autoImplicit true

inductive ProgramStatus where
  | created | running | completed | failed | cancelled
deriving DecidableEq

inductive ContinuationLifecycle where
  | created | active | waiting | speculative | joining | terminal | abandoned
deriving DecidableEq

inductive RequestStatus where
  | created | ready | running | completed | failed | cancelled
deriving DecidableEq

inductive ExecutionStatus where
  | created | dispatched | running | succeeded | failed | cancelled
deriving DecidableEq

inductive AttemptAuthority where
  | none | current | committed | superseded
deriving DecidableEq

inductive PhaseType where
  | prefill | decode | statePull | stateTransfer | other
deriving DecidableEq

inductive PhaseStatus where
  | created | running | completed | failed | cancelled
deriving DecidableEq

inductive StateLifecycle where
  | active | waiting | speculative | terminal
deriving DecidableEq

inductive StateValidity where
  | valid | invalid
deriving DecidableEq

inductive ReplicaStatus where
  | materializing | valid | stale | transferring | evicting | lost | invalid
deriving DecidableEq

inductive BindingStatus where
  | proposed | active | migrating | superseded | released | invalid
deriving DecidableEq

inductive EvidenceAuthority where
  | estimated | derived | exactObservation | authoritative
deriving DecidableEq

/-- The integer behind a member of the `IntEnum`; authorities are compared by it. -/
def EvidenceAuthority.value : EvidenceAuthority → Nat
  | .estimated => 1
  | .derived => 2
  | .exactObservation => 3
  | .authoritative => 4

inductive EvidenceStatus where
  | valid | stale | unknown | failed | ambiguous
deriving DecidableEq

inductive ReconcileOutcome where
  | matched | wait | retry | recompute | migrate | reject | repair | fail | ambiguous
deriving DecidableEq

/-- A `frozenset`; its iteration order is not part of the value. -/
abbrev FrozenSet (α : Type) := Finset α

structure SemanticEvent where
  id : String
  kind : String
  subjectType : String
  subjectId : String
  payload : FrozenSet (String × String) := ∅
deriving DecidableEq

structure Program where
  id : String
  status : ProgramStatus := .created
deriving DecidableEq

structure Session where
  id : String
  programId : String
deriving DecidableEq

structure Continuation where
  id : String
  sessionId : String
  parentIds : FrozenSet String := ∅
  lifecycle : ContinuationLifecycle := .created
deriving DecidableEq

structure LogicalRequest where
  id : String
  continuationId : String
  status : RequestStatus := .created
  currentAttemptId : Option String := none
  committedAttemptId : Option String := none
  authoritativeOutputId : Option String := none
deriving DecidableEq

structure Attempt where
  id : String
  requestId : String
  generation : Int
  executionStatus : ExecutionStatus := .created
  authorityStatus : AttemptAuthority := .none
deriving DecidableEq

structure Phase where
  id : String
  attemptId : String
  ordinal : Int
  phaseType : PhaseType
  status : PhaseStatus := .created
deriving DecidableEq

structure ExecutionContext where
  programId : String
  sessionId : String
  continuationId : String
  requestId : String
  attemptId : String
  phaseId : Option String := none
deriving DecidableEq

structure ReusableState where
  id : String
  originType : String
  originId : String
  originContinuationId : String
  originRequestId : Option String := none
  producerAttemptId : Option String := none
  semanticType : String := "PREFIX"
  representation : String := "OPAQUE"
  lifecycle : StateLifecycle := .terminal
  validity : StateValidity := .valid
  derivedFrom : FrozenSet String := ∅
  producerPhaseId : Option String := none
deriving DecidableEq

structure StateReplica where
  id : String
  stateId : String
  locationId : String
  status : ReplicaStatus := .materializing
  bindingId : Option String := none
  bindingEpoch : Option Int := none
deriving DecidableEq

structure Binding where
  id : String
  subjectId : String
  locationId : String
  baseEpoch : Int
  epoch : Int
  status : BindingStatus := .proposed
deriving DecidableEq

/-- The check of `Evidence.__post_init__` on the structured claim. -/
def ClaimPaired (key value : Option String) : Prop :=
  match key, value with
  | none, none => True
  | some k, some v => k ≠ "" ∧ v ≠ ""
  | _, _ => False

instance : (key value : Option String) → Decidable (ClaimPaired key value)
  | none, none => isTrue True.intro
  | some k, some v => inferInstanceAs (Decidable (k ≠ "" ∧ v ≠ ""))
  | none, some _ | some _, none => isFalse id

structure Evidence where
  id : String
  claim : String
  source : String
  authority : EvidenceAuthority
  status : EvidenceStatus
  observedAt : Number
  scope : FrozenSet (String × String) := ∅
  validUntil : Option Number := none
  confidence : Option Number := none
  derivedFrom : FrozenSet String := ∅
  derivationRule : Option String := none
  claimKey : Option String := none
  claimValue : Option String := none
  paired : ClaimPaired claimKey claimValue := by decide
deriving DecidableEq

/-- Equality of optional numbers by value. -/
def optionalEq : Option Number → Option Number → Bool
  | none, none => true
  | some a, some b => a.eq b
  | _, _ => false

/-- The generated `__eq__`, which compares numbers by value. -/
def Evidence.eq (a b : Evidence) : Bool :=
  a.id = b.id && a.claim = b.claim && a.source = b.source && a.authority = b.authority &&
  a.status = b.status && a.observedAt.eq b.observedAt && a.scope = b.scope &&
  optionalEq a.validUntil b.validUntil && optionalEq a.confidence b.confidence &&
  a.derivedFrom = b.derivedFrom && a.derivationRule = b.derivationRule &&
  a.claimKey = b.claimKey && a.claimValue = b.claimValue

structure Output where
  id : String
  attemptId : String
  terminal : Bool
  evidenceIds : FrozenSet String := ∅
deriving DecidableEq

/-- The exceptions of the modelled code; the last is the bound of a modelled loop. -/
inductive PyError where
  | invalidTransition (message : String)
  | insufficientEvidence (message : String)
  | semanticViolation (message : String) (missing : List String := [])
  | keyError (key : String)
  | valueError (message : String)
  | typeError (message : String)
  | attributeError (message : String)
  | overflowError (message : String)
  | assertionError (message : String)
  | runtimeError (message : String)
  | exhausted
deriving DecidableEq

end Cadi
