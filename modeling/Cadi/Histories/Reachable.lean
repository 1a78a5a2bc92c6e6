import Cadi.Oracle.Preservation
import Cadi.Oracle.Decides

namespace Cadi
open Library
set_option autoImplicit true

/-- The identifier a call asks the core to bring into use, if any. -/
def PublicOperation.newId : PublicOperation → Option String
  | .createProgram id | .createSession id _ | .createContinuation id _ _ _
  | .resumeAfterWait _ id | .createRequest id _ | .startAttempt id _ | .createPhase id _ _ _
  | .createOutput id _ _ _ | .createState id _ _ _ _ _ | .addReplica id _ _ _
  | .proposeBinding id _ _ | .activateInitialBinding id _ _ => some id
  | .recordEvent event => some event.id
  | .recordEvidence e => some e.id
  | _ => none

section Identifiers
variable {c : ContinuityCore}

theorem PublicOperation.newId_of_performs {operation : PublicOperation} {id : String}
    (hes : operation.Performs es) (he : e ∈ es) (hid : e.newId = some id) :
    operation.newId = some id := by
  cases operation with
  | createProgram | createSession | createContinuation | createRequest | createPhase | createOutput
  | addReplica | proposeBinding | activateInitialBinding =>
    cases hes
    obtain rfl := List.mem_singleton.mp he
    exact hid
  | startAttempt | createState | setProgramStatus | setContinuationLifecycle | setAttemptExecution
  | completeAttempt | setPhaseStatus | completePhase | setStateValidity | setReplicaStatus
  | beginMigration | commitMigration =>
    obtain ⟨_, rfl, rfl⟩ := hes
    obtain rfl := List.mem_singleton.mp he
    exact hid
  | resumeAfterWait =>
    obtain ⟨_, _, _, rfl⟩ := hes
    rcases List.mem_pair.mp he with rfl | rfl
    · exact hid
    · cases hid
  | finalizeRequest =>
    rcases hes with rfl | ⟨_, _, _, _, _, rfl⟩
    · cases he
    · obtain rfl := List.mem_singleton.mp he
      cases hid
  | recordEvent | recordEvidence =>
    rcases hes with rfl | rfl
    · cases he
    · obtain rfl := List.mem_singleton.mp he
      exact hid
  | isAncestor | stateCompatible | canConsumeState | requireEvidence | reconcile =>
    cases hes
    cases he

/-- No entity is keyed by the empty string. -/
def Named (c : ContinuityCore) : Prop := c.Fresh ""

theorem Effect.named {e : Effect} (h : Named c) (ha : e.Allowed c) (hid : e.newId ≠ some "") :
    Named (e.apply c) := by
  intro hm
  rw [(Effect.ids_perm ha).mem_iff, List.mem_append, Option.mem_toList] at hm
  exact hm.elim hid h

theorem Named.step (hn : Named c) (h : Grounded c) (hid : call.operation.newId ≠ some "") :
    Named (step semanticValidity c call) :=
  step_keeps h hn fun _ _ _ hes ht =>
    ht.invariant (.of_forall (fun _ he hnew => hid (PublicOperation.newId_of_performs hes he hnew)) c)
      hn fun _ _ hc ha hnew => Effect.named hc ha hnew

end Identifiers

/-- What the runs from the empty core keep while they use no empty identifier. -/
structure Sound (c : ContinuityCore) : Prop where
  oracle : OracleHolds c
  reached : Reached c
  named : Named c

theorem oracleHolds_empty : OracleHolds {} :=
  (assertAll_eq_ok defaultValidity {}).mp (by decide)

theorem Sound.empty : Sound {} := ⟨oracleHolds_empty, .empty, List.not_mem_nil⟩

section Steps
variable {c : ContinuityCore}

theorem Sound.attempt_ne (h : Sound c) (hr : c.requests.get? k = some r) :
    r.currentAttemptId ≠ some "" := by
  intro he
  obtain ⟨a, ha, _⟩ := (h.oracle.authority.current k r hr "").mp he
  exact (ContinuityCore.Fresh.unused h.named).attempts (Dict.mem_of_get? ha)

theorem Sound.binding_ne (h : Sound c) (s : String) :
    c.currentBindingBySubject.get? s ≠ some "" := by
  intro he
  obtain ⟨b, hb, _⟩ := h.oracle.bindings.current s "" he
  exact (ContinuityCore.Fresh.unused h.named).bindings (Dict.mem_of_get? hb)

theorem Sound.guarded (h : Sound c) (operation : PublicOperation) : operation.Guarded c := by
  cases operation with
  | startAttempt id requestId => exact fun r hr => h.attempt_ne hr
  | finalizeRequest requestId outputId now => exact h.reached.uncommitted requestId
  | proposeBinding id subjectId locationId => exact h.reached.ledger.allocatable subjectId
  | activateInitialBinding id subjectId locationId => exact h.reached.ledger.base_le_last subjectId
  | commitMigration bindingId evidenceIds now => exact fun b _ => h.binding_ne b.subjectId
  | _ => exact True.intro

theorem Sound.step (h : Sound c) (hid : call.operation.newId ≠ some "") :
    Sound (step semanticValidity c call) where
  oracle := h.oracle.step fun _ => h.guarded call.operation
  reached := h.reached.step semanticValidity call
  named := h.named.step h.reached.grounded hid

theorem Sound.throughout {calls : List Call} (h : Sound c)
    (hid : ∀ call ∈ calls, call.operation.newId ≠ some "") :
    Throughout (Cadi.step semanticValidity) Sound c calls :=
  invariant_throughout h (fun _ _ hc hcall => hc.step hcall) (.of_forall hid c)

theorem Sound.run {calls : List Call} (h : Sound c)
    (hid : ∀ call ∈ calls, call.operation.newId ≠ some "") :
    Sound (run (Cadi.step semanticValidity) c calls) :=
  invariant_run h (fun _ _ hc hcall => hc.step hcall) (.of_forall hid c)

end Steps

/-- The oracle accepts every core of a run from the empty one in which no call names an entity by
the empty string. -/
theorem assertAll_throughout (semanticValidity : SemanticValidity) (calls : List Call)
    (h : ∀ call ∈ calls, call.operation.newId ≠ some "") :
    Throughout (step semanticValidity) (fun c => assertAll semanticValidity c = .ok ()) {} calls :=
  (Sound.empty.throughout h).mono fun c hc => (assertAll_eq_ok semanticValidity c).mpr hc.oracle

/-- A run with a retried request, a rejected start and a State of its continuation. -/
def retriedRun : List Call :=
  [⟨.int 0, .createProgram "p"⟩, ⟨.int 0, .createSession "s" "p"⟩,
    ⟨.int 0, .createContinuation "c" "s" [] .active⟩, ⟨.int 0, .createRequest "r" "c"⟩,
    ⟨.int 0, .startAttempt "a" "r"⟩, ⟨.int 0, .startAttempt "a" "r"⟩,
    ⟨.int 0, .startAttempt "b" "r"⟩,
    ⟨.int 0, .createState "x" "continuation" "c" "PREFIX" "OPAQUE" []⟩]

theorem assertAll_throughout_retried :
    Throughout (step defaultValidity) (fun c => assertAll defaultValidity c = .ok ()) {}
      retriedRun :=
  assertAll_throughout defaultValidity retriedRun (by decide)

/-- Between any two cores of a run from a core that the oracle accepts, what was terminal,
superseded, committed, invalid or recorded stays so. -/
theorem persists_between (semanticValidity : SemanticValidity) (start : ContinuityCore)
    (h : assertAll semanticValidity start = .ok ()) (before after : List Call) :
    Persists (run (step semanticValidity) start before)
      (run (step semanticValidity) start (before ++ after)) := by
  rw [run_append]
  have hstart : Grounded start := ((assertAll_eq_ok semanticValidity start).mp h).grounded
  have hbefore : Grounded (run (step semanticValidity) start before) :=
    invariant_run (A := fun _ _ => True) hstart
      (fun _ call hc _ => hc.step semanticValidity call) (.trivial (fun _ _ => True.intro) _ _)
  exact hbefore.persists_run semanticValidity after

theorem persists_between_retried :
    Persists (run (step defaultValidity) {} retriedRun)
      (run (step defaultValidity) {} (retriedRun ++ [⟨.int 0, .setStateValidity "x" .invalid⟩])) :=
  persists_between defaultValidity {} (by decide) retriedRun _

/-- On every core of a run, with any identifiers, an operation that raises leaves all sixteen stores
as they were. -/
theorem raise_leaves_stores (semanticValidity : SemanticValidity) (calls : List Call) (call : Call)
    (h : call.operation.call semanticValidity call.clock (run (step semanticValidity) {} calls) =
      .error e c') :
    c' = run (step semanticValidity) {} calls :=
  (call_takes semanticValidity (grounded_run semanticValidity calls) call).of_error h

theorem raises_of_rejected (h : accepted semanticValidity c call = false) :
    ∃ e c', call.operation.call semanticValidity call.clock c = .error e c' := by
  unfold accepted at h
  split at h
  · cases h
  · next e c' hcall => exact ⟨e, c', hcall⟩

theorem raise_leaves_stores_retried :
    step defaultValidity (run (step defaultValidity) {} retriedRun)
      ⟨.int 0, .startAttempt "a" "r"⟩ = run (step defaultValidity) {} retriedRun := by
  have hrejected : accepted defaultValidity (run (step defaultValidity) {} retriedRun)
      ⟨.int 0, .startAttempt "a" "r"⟩ = false := by decide +kernel
  obtain ⟨e, c', h⟩ := raises_of_rejected hrejected
  have hc := raise_leaves_stores defaultValidity retriedRun ⟨.int 0, .startAttempt "a" "r"⟩ h
  exact (congrArg finalState h).trans hc

end Cadi
