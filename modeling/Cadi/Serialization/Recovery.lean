import Cadi.Serialization.Continuing
import Cadi.Serialization.Journal

namespace Cadi
open Library
set_option autoImplicit true

section Answers

/-- A query with what it returns. -/
def observe [Stored α] (f : ContinuityCore → Except PyError α) : CoreM Value := do
  let c ← get
  let a ← f c
  return value a

/-- The method call with its return value. -/
def PublicOperation.result (semanticValidity : SemanticValidity) (clock : Number) :
    PublicOperation → CoreM Value
  | .createProgram id => value <$> Cadi.createProgram id
  | .setProgramStatus programId status => value <$> Cadi.setProgramStatus programId status
  | .createSession id programId => value <$> Cadi.createSession id programId
  | .createContinuation id sessionId parentIds lifecycle =>
    value <$> Cadi.createContinuation id sessionId parentIds lifecycle
  | .setContinuationLifecycle continuationId lifecycle =>
    value <$> Cadi.setContinuationLifecycle continuationId lifecycle
  | .resumeAfterWait waitingId childId => value <$> Cadi.resumeAfterWait waitingId childId
  | .createRequest id continuationId => value <$> Cadi.createRequest id continuationId
  | .startAttempt id requestId => value <$> Cadi.startAttempt id requestId
  | .setAttemptExecution attemptId status => value <$> Cadi.setAttemptExecution attemptId status
  | .completeAttempt attemptId succeeded => value <$> Cadi.completeAttempt attemptId succeeded
  | .createPhase id attemptId phaseType ordinal =>
    value <$> Cadi.createPhase id attemptId phaseType ordinal
  | .setPhaseStatus phaseId status => value <$> Cadi.setPhaseStatus phaseId status
  | .completePhase phaseId => value <$> Cadi.completePhase phaseId
  | .createOutput id attemptId terminal evidenceIds =>
    value <$> Cadi.createOutput id attemptId terminal evidenceIds
  | .finalizeRequest requestId outputId now =>
    value <$> Cadi.finalizeRequest clock requestId outputId now
  | .createState id originType originId semanticType representation derivedFrom =>
    value <$> Cadi.createState id originType originId semanticType representation derivedFrom
  | .setStateValidity stateId validity => value <$> Cadi.setStateValidity stateId validity
  | .addReplica id stateId locationId status => value <$> Cadi.addReplica id stateId locationId status
  | .setReplicaStatus replicaId status => value <$> Cadi.setReplicaStatus replicaId status
  | .proposeBinding id subjectId locationId => value <$> Cadi.proposeBinding id subjectId locationId
  | .activateInitialBinding id subjectId locationId =>
    value <$> Cadi.activateInitialBinding id subjectId locationId
  | .beginMigration bindingId => value <$> Cadi.beginMigration bindingId
  | .commitMigration bindingId evidenceIds now =>
    value <$> Cadi.commitMigration clock bindingId evidenceIds now
  | .recordEvent event => value <$> Cadi.recordEvent event
  | .recordEvidence e => value <$> Cadi.recordEvidence e
  | .isAncestor ancestorId descendantId => observe (·.isAncestor ancestorId descendantId)
  | .stateCompatible stateId ctx =>
    observe fun c => Cadi.stateCompatible semanticValidity c stateId ctx
  | .canConsumeState stateId replicaId ctx evidenceIds now =>
    observe fun c => Cadi.canConsumeState semanticValidity clock c stateId replicaId ctx evidenceIds now
  | .requireEvidence action evidenceIds now requiredScope maxAge =>
    observe (·.requireEvidence clock action evidenceIds now requiredScope maxAge)
  | .reconcile action evidenceIds now requiredScope =>
    observe (·.reconcile clock action evidenceIds now requiredScope)

/-- What a call returns or raises. -/
def answer (semanticValidity : SemanticValidity) (c : ContinuityCore) (call : Call) :
    Except PyError Value :=
  outcomeOf (call.operation.result semanticValidity call.clock c)

variable {semanticValidity : SemanticValidity} {c c' : ContinuityCore}

theorem discard_map (f : α → β) (x : CoreM α) : (discard (f <$> x) : CoreM PUnit) = discard x := by
  funext c
  change EStateM.map _ (EStateM.map f x) c = EStateM.map _ x c
  unfold EStateM.map
  cases x c with
  | ok a d => rfl
  | error e d => rfl

theorem discard_observe [Stored α] (f : ContinuityCore → Except PyError α) :
    (discard (observe f) : CoreM PUnit) = query f := by
  funext c
  have hobserve : observe f c = ((liftM (f c) : CoreM α) >>= fun a => pure (value a)) c := rfl
  have hquery : query f c = ((liftM (f c) : CoreM α) >>= fun _ => pure ⟨⟩) c := rfl
  change EStateM.map _ (observe f) c = _
  unfold EStateM.map
  rw [hobserve, hquery]
  cases f c with
  | ok a => rfl
  | error e => rfl

theorem discard_result (semanticValidity : SemanticValidity) (clock : Number)
    (operation : PublicOperation) :
    discard (operation.result semanticValidity clock) = operation.call semanticValidity clock := by
  cases operation with
  | isAncestor | stateCompatible | canConsumeState | requireEvidence | reconcile =>
    exact discard_observe _
  | _ => exact discard_map _ _

theorem observe_same [Stored α] (h : SameStores c c') {f : ContinuityCore → Except PyError α}
    (hf : f c = f c') : SameEnd (observe f) (observe f) c c' :=
  .get_bind (.lift_bind h hf fun _ _ => .pure h)

/-- Every call ends alike in cores with the same stores. -/
theorem result_same (h : SameStores c c') (hg : Grounded c) (clock : Number)
    (operation : PublicOperation) :
    SameEnd (operation.result semanticValidity clock) (operation.result semanticValidity clock) c c' := by
  cases operation with
  | createProgram id => exact (createProgram_same h id).map _
  | setProgramStatus programId status => exact (setProgramStatus_same h programId status).map _
  | createSession id programId => exact (createSession_same h id programId).map _
  | createContinuation id sessionId parentIds lifecycle =>
    exact (createContinuation_same h hg id sessionId parentIds lifecycle).map _
  | setContinuationLifecycle continuationId lifecycle =>
    exact (setContinuationLifecycle_same h hg continuationId lifecycle).map _
  | resumeAfterWait waitingId childId => exact (resumeAfterWait_same h hg waitingId childId).map _
  | createRequest id continuationId => exact (createRequest_same h id continuationId).map _
  | startAttempt id requestId => exact (startAttempt_same h id requestId).map _
  | setAttemptExecution attemptId status => exact (setAttemptExecution_same h attemptId status).map _
  | completeAttempt attemptId succeeded => exact (setAttemptExecution_same h attemptId _).map _
  | createPhase id attemptId phaseType ordinal =>
    exact (createPhase_same h id attemptId phaseType ordinal).map _
  | setPhaseStatus phaseId status => exact (setPhaseStatus_same h phaseId status).map _
  | completePhase phaseId => exact (setPhaseStatus_same h phaseId _).map _
  | createOutput id attemptId terminal evidenceIds =>
    exact (createOutput_same h id attemptId terminal evidenceIds).map _
  | finalizeRequest requestId outputId now =>
    exact (finalizeRequest_same h clock requestId outputId now).map _
  | createState id originType originId semanticType representation derivedFrom =>
    exact (createState_same h hg id originType originId semanticType representation derivedFrom).map _
  | setStateValidity stateId validity => exact (setStateValidity_same h stateId validity).map _
  | addReplica id stateId locationId status => exact (addReplica_same h id stateId locationId status).map _
  | setReplicaStatus replicaId status => exact (setReplicaStatus_same h replicaId status).map _
  | proposeBinding id subjectId locationId =>
    exact (proposeBinding_same h id subjectId locationId).map _
  | activateInitialBinding id subjectId locationId =>
    exact (activateInitialBinding_same h id subjectId locationId).map _
  | beginMigration bindingId => exact (beginMigration_same h bindingId).map _
  | commitMigration bindingId evidenceIds now =>
    exact (commitMigration_same h clock bindingId evidenceIds now).map _
  | recordEvent event => exact (recordEvent_same h event).map _
  | recordEvidence e => exact (recordEvidence_same h e).map _
  | isAncestor ancestorId descendantId => exact observe_same h (isAncestor_same h ancestorId descendantId)
  | stateCompatible stateId ctx => exact observe_same h (stateCompatible_same h stateId ctx)
  | canConsumeState stateId replicaId ctx evidenceIds now =>
    exact observe_same h (canConsumeState_same h clock stateId replicaId ctx evidenceIds now)
  | requireEvidence action evidenceIds now requiredScope maxAge =>
    exact observe_same h (requireEvidence_same h action evidenceIds now requiredScope maxAge)
  | reconcile action evidenceIds now requiredScope =>
    exact observe_same h (reconcile_same h action evidenceIds now requiredScope)

/-- Cores with the same stores, in which the references resolve. -/
structure Twin (c c' : ContinuityCore) : Prop where
  stores : SameStores c c'
  grounded : Grounded c

theorem Twin.symm (h : Twin c c') : Twin c' c := ⟨h.stores.symm, h.grounded.same h.stores⟩

theorem Twin.answer_eq (h : Twin c c') (semanticValidity : SemanticValidity) (call : Call) :
    answer semanticValidity c call = answer semanticValidity c' call :=
  (result_same h.stores h.grounded call.clock call.operation).outcome

theorem Twin.call (h : Twin c c') (semanticValidity : SemanticValidity) (call : Call) :
    SameEnd (call.operation.call semanticValidity call.clock)
      (call.operation.call semanticValidity call.clock) c c' := by
  rw [← discard_result]
  exact (result_same h.stores h.grounded call.clock call.operation).discard

theorem Twin.step (h : Twin c c') (semanticValidity : SemanticValidity) (call : Call) :
    Twin (step semanticValidity c call) (step semanticValidity c' call) :=
  ⟨(h.call semanticValidity call).finalState, h.grounded.step semanticValidity call⟩

theorem Twin.accepted_eq (h : Twin c c') (semanticValidity : SemanticValidity) (call : Call) :
    accepted semanticValidity c call = accepted semanticValidity c' call := by
  unfold accepted
  obtain ⟨_, _, _, hc, hc', _⟩ | ⟨_, _, _, hc, hc', _⟩ := (h.call semanticValidity call).cases <;>
    rw [hc, hc']

theorem Twin.run_same (h : Twin c c') (semanticValidity : SemanticValidity) (calls : List Call) :
    answers (Cadi.step semanticValidity) (answer semanticValidity) c calls =
      answers (Cadi.step semanticValidity) (answer semanticValidity) c' calls ∧
    Twin (run (Cadi.step semanticValidity) c calls) (run (Cadi.step semanticValidity) c' calls) :=
  related_run (fun _ _ call h => ⟨h.answer_eq semanticValidity call, h.step semanticValidity call⟩) h
    calls

end Answers

section Runs
variable {semanticValidity : SemanticValidity} {c c' : ContinuityCore}

/-- Whatever calls follow, both cores answer them alike and have the same snapshot after them. -/
def Indistinguishable (semanticValidity : SemanticValidity) (c c' : ContinuityCore) : Prop :=
  ∀ calls : List Call,
    answers (step semanticValidity) (answer semanticValidity) c calls =
      answers (step semanticValidity) (answer semanticValidity) c' calls ∧
    snapshotCore (run (step semanticValidity) c calls) =
      snapshotCore (run (step semanticValidity) c' calls)

theorem Twin.indistinguishable (h : Twin c c') : Indistinguishable semanticValidity c c' := by
  intro calls
  obtain ⟨hanswers, hend⟩ := h.run_same semanticValidity calls
  exact ⟨hanswers, snapshotCore_same hend.stores⟩

/-- Cores that any two histories lead to are told apart by their snapshots or not at all. -/
theorem snapshot_indistinguishable (semanticValidity : SemanticValidity) (calls calls' : List Call)
    (h : snapshotCore (run (step semanticValidity) {} calls) = .ok text)
    (h' : snapshotCore (run (step semanticValidity) {} calls') = .ok text) :
    Indistinguishable semanticValidity (run (step semanticValidity) {} calls)
      (run (step semanticValidity) {} calls') :=
  Twin.indistinguishable ⟨sameStores_of_snapshotCore h h', grounded_run semanticValidity calls⟩

theorem snapshot_indistinguishable_programs : Indistinguishable defaultValidity
    (run (step defaultValidity) {} programsMade) (run (step defaultValidity) {} programsMade') :=
  snapshot_indistinguishable defaultValidity programsMade programsMade'
    (snapshotCore_ok programsMade_finite)
    ((snapshotCore_same programsMade_same).symm.trans (snapshotCore_ok programsMade_finite))

/-- A core rebuilt from a snapshot and the journal of the calls accepted since. -/
def Recovers (semanticValidity : SemanticValidity) (shown : Value → String) (calls : List Call)
    (journal : List (String × Call)) : Prop :=
  ∃ text operations lines restored, snapshotCore (run (step semanticValidity) {} calls) = .ok text ∧
    journal.mapM (fun e => journalEntry shown e.1 e.2.operation) = .ok operations ∧
    operationsToJsonl shown operations = .ok lines ∧
    restoreCore semanticValidity shown text = .ok restored ∧
    ((∀ operation ∈ operations, operation.Unbroken) → ∃ rebuilt,
      (∀ clock, replayOperationJsonl semanticValidity shown clock lines restored = .ok ⟨⟩ rebuilt) ∧
      Indistinguishable semanticValidity rebuilt
        (run (step semanticValidity) {} (calls ++ journal.map Prod.snd)))

/-- The snapshot of a core and the journal of the calls it accepted afterwards rebuild a core that
nothing tells from the one that was never lost. -/
theorem recovery (semanticValidity : SemanticValidity) (shown : Value → String) (calls : List Call)
    (journal : List (String × Call)) (hnamed : ∀ call ∈ calls, call.operation.newId ≠ some "")
    (hfloat : ∀ call ∈ calls, RecordsFloats call) (hids : (journal.map Prod.fst).Nodup)
    (hjournal : "" ∉ journal.map Prod.fst) (hrecordable : ∀ e ∈ journal, e.2.operation.Recordable)
    (haccepted : Along (step semanticValidity) (fun c call => accepted semanticValidity c call = true)
      (run (step semanticValidity) {} calls) (journal.map Prod.snd)) :
    Recovers semanticValidity shown calls journal := by
  have hgrounded := grounded_run semanticValidity calls
  have hsound : Sound (run (step semanticValidity) {} calls) := Sound.empty.run hnamed
  have hfloats : FloatNumbers (run (step semanticValidity) {} calls) :=
    floatNumbers_run .empty .empty hfloat
  have htext := snapshotCore_ok hfloats.finite
  obtain ⟨hentries, hbuilt⟩ := @journal_ok shown journal hjournal hrecordable
  have hlines := operationsToJsonl_ok hbuilt
  refine ⟨_, _, _, _, htext, hentries, hlines, restoreCore_snapshotCore hsound.oracle hfloats htext, ?_⟩
  intro hunbroken
  have htwin : Twin (run (step semanticValidity) {} calls) (run (step semanticValidity) {} calls).listed :=
    ⟨(listed_sameStores _).symm, hgrounded⟩
  -- The restored core accepts the journal as the lost one did.
  have hreplayed := related_along (fun _ _ call h => h.step semanticValidity call)
    (fun _ _ call h ha => (h.accepted_eq semanticValidity call).symm.trans ha) htwin haccepted
  refine ⟨_, fun clock => replay_journal clock hids hjournal hrecordable hunbroken hreplayed hlines, ?_⟩
  rw [run_append]
  exact (htwin.run_same semanticValidity (journal.map Prod.snd)).2.symm.indistinguishable

/-- A program saved as it is made, and the session opened on it afterwards. -/
theorem recovery_session : Recovers defaultValidity (fun _ => "") [⟨.int 0, .createProgram "p"⟩]
    [("op-2", ⟨.int 1, .createSession "s" "p"⟩),
    ("op-3", ⟨.int 2, .createContinuation "c" "s" [] .waiting⟩),
      ("op-4", ⟨.int 3, .resumeAfterWait "c" "d"⟩)] := by
  refine recovery defaultValidity (fun _ => "") _ _ (by decide) ?_ (by decide) (by decide) ?_ ?_
  · intro call hcall e he
    obtain rfl := List.mem_singleton.mp hcall
    cases he
  · intro e he
    simp only [List.mem_cons, List.not_mem_nil, or_false] at he
    obtain rfl | rfl | rfl := he <;> exact True.intro
  · exact ⟨by decide +kernel, by decide +kernel, by decide +kernel, True.intro⟩

end Runs

end Cadi
