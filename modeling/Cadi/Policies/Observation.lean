import Mathlib.Algebra.Order.Field.Rat
import Mathlib.Data.List.Nodup
import Mathlib.Data.String.Basic

namespace Cadi
set_option autoImplicit true

section Workers

structure WorkerObservation where
  workerId : String
  available : Bool
  capacity : Nat
  activeTasks : Nat
  queuedTasks : Nat
  workerId_nonempty : workerId ≠ ""
  capacity_pos : 0 < capacity
  active_le : activeTasks ≤ capacity
deriving DecidableEq

def WorkerObservation.normalizedLoad (w : WorkerObservation) : ℚ :=
  (w.activeTasks + w.queuedTasks : Nat) / w.capacity

end Workers

section Observations

/-- Unique and sorted identifiers. -/
structure CanonicalIds (values : List String) : Prop where
  nonempty : ∀ v ∈ values, v ≠ ""
  sorted : values.Pairwise (· < ·)

/-- Pairs of identifiers with unique keys, sorted. -/
structure CanonicalPairs (values : List (String × String)) : Prop where
  nonempty : ∀ p ∈ values, p.1 ≠ "" ∧ p.2 ≠ ""
  sorted : (values.map Prod.fst).Pairwise (· < ·)

structure PolicyObservation where
  requestId : String
  workers : List WorkerObservation
  attemptId : Option String := none
  attemptAuthority : Option String := none
  sessionId : Option String := none
  sessionPreferredLocation : Option String := none
  continuationId : Option String := none
  continuationAncestry : List String := []
  stateCandidateKey : Option String := none
  exactStateId : Option String := none
  stateLocations : List String := []
  stateProvenance : List (String × String) := []
  producerAttemptId : Option String := none
  bindingId : Option String := none
  bindingEpoch : Option Nat := none
  evidenceAuthority : Option String := none
  evidenceStatus : Option String := none
  evidenceFreshness : Option ℚ := none
  programId : Option String := none
  stateLifecycle : Option String := none
  reconciliation : Option String := none
  requestId_nonempty : requestId ≠ ""
  workers_sorted : (workers.map WorkerObservation.workerId).Pairwise (· < ·)
  optional_nonempty : ∀ v ∈ [attemptId, attemptAuthority, sessionId, sessionPreferredLocation,
    continuationId, stateCandidateKey, exactStateId, producerAttemptId, bindingId, evidenceAuthority,
    evidenceStatus, programId, stateLifecycle, reconciliation], v ≠ some ""
  ancestry_canonical : CanonicalIds continuationAncestry
  locations_canonical : CanonicalIds stateLocations
  provenance_canonical : CanonicalPairs stateProvenance
  freshness_nonneg : ∀ f ∈ evidenceFreshness, 0 ≤ f

variable {o : PolicyObservation}

theorem PolicyObservation.workerIds_nodup (o : PolicyObservation) :
    (o.workers.map WorkerObservation.workerId).Nodup :=
  o.workers_sorted.imp fun h => ne_of_lt h

theorem PolicyObservation.worker_unique {w w' : WorkerObservation} (hw : w ∈ o.workers)
    (hw' : w' ∈ o.workers) (h : w.workerId = w'.workerId) : w = w' :=
  List.inj_on_of_nodup_map o.workerIds_nodup hw hw' h

end Observations

end Cadi
