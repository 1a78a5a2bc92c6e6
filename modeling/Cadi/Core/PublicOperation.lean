import Cadi.Core.Operations
import Cadi.Core.Compatibility
import Cadi.Library.Runs

namespace Cadi
open Library
set_option autoImplicit true

/-- A call of a public method of the core with its arguments. -/
inductive PublicOperation where
  | createProgram (id : String)
  | setProgramStatus (programId : String) (status : ProgramStatus)
  | createSession (id programId : String)
  | createContinuation (id sessionId : String) (parentIds : List String)
      (lifecycle : ContinuationLifecycle)
  | setContinuationLifecycle (continuationId : String) (lifecycle : ContinuationLifecycle)
  | resumeAfterWait (waitingId childId : String)
  | createRequest (id continuationId : String)
  | startAttempt (id requestId : String)
  | setAttemptExecution (attemptId : String) (status : ExecutionStatus)
  | completeAttempt (attemptId : String) (succeeded : Bool)
  | createPhase (id attemptId : String) (phaseType : PhaseType) (ordinal : Option Int)
  | setPhaseStatus (phaseId : String) (status : PhaseStatus)
  | completePhase (phaseId : String)
  | createOutput (id attemptId : String) (terminal : Bool) (evidenceIds : List String)
  | finalizeRequest (requestId outputId : String) (now : Option Number)
  | createState (id originType originId semanticType representation : String)
      (derivedFrom : List String)
  | setStateValidity (stateId : String) (validity : StateValidity)
  | addReplica (id stateId locationId : String) (status : ReplicaStatus)
  | setReplicaStatus (replicaId : String) (status : ReplicaStatus)
  | proposeBinding (id subjectId locationId : String)
  | activateInitialBinding (id subjectId locationId : String)
  | beginMigration (bindingId : String)
  | commitMigration (bindingId : String) (evidenceIds : List String) (now : Option Number)
  | recordEvent (event : SemanticEvent)
  | recordEvidence (e : Evidence)
  | isAncestor (ancestorId descendantId : String)
  | stateCompatible (stateId : String) (ctx : ExecutionContext)
  | canConsumeState (stateId replicaId : String) (ctx : ExecutionContext)
      (evidenceIds : List String) (now : Option Number)
  | requireEvidence (action : String) (evidenceIds : List String) (now : Option Number)
      (requiredScope : Option (FrozenSet (String × String))) (maxAge : Option Number)
  | reconcile (action : String) (evidenceIds : List String) (now : Option Number)
      (requiredScope : Option (FrozenSet (String × String)))

/-- A query reads the stores and leaves them alone. -/
def query (f : ContinuityCore → Except PyError α) : CoreM Unit := do
  let c ← get
  let _ ← f c

/-- The method call, without its return value. -/
def PublicOperation.call (semanticValidity : SemanticValidity) (clock : Number) :
    PublicOperation → CoreM Unit
  | .createProgram id => discard (Cadi.createProgram id)
  | .setProgramStatus programId status => discard (Cadi.setProgramStatus programId status)
  | .createSession id programId => discard (Cadi.createSession id programId)
  | .createContinuation id sessionId parentIds lifecycle =>
    discard (Cadi.createContinuation id sessionId parentIds lifecycle)
  | .setContinuationLifecycle continuationId lifecycle =>
    discard (Cadi.setContinuationLifecycle continuationId lifecycle)
  | .resumeAfterWait waitingId childId => discard (Cadi.resumeAfterWait waitingId childId)
  | .createRequest id continuationId => discard (Cadi.createRequest id continuationId)
  | .startAttempt id requestId => discard (Cadi.startAttempt id requestId)
  | .setAttemptExecution attemptId status => discard (Cadi.setAttemptExecution attemptId status)
  | .completeAttempt attemptId succeeded => discard (Cadi.completeAttempt attemptId succeeded)
  | .createPhase id attemptId phaseType ordinal =>
    discard (Cadi.createPhase id attemptId phaseType ordinal)
  | .setPhaseStatus phaseId status => discard (Cadi.setPhaseStatus phaseId status)
  | .completePhase phaseId => discard (Cadi.completePhase phaseId)
  | .createOutput id attemptId terminal evidenceIds =>
    discard (Cadi.createOutput id attemptId terminal evidenceIds)
  | .finalizeRequest requestId outputId now =>
    discard (Cadi.finalizeRequest clock requestId outputId now)
  | .createState id originType originId semanticType representation derivedFrom =>
    discard (Cadi.createState id originType originId semanticType representation derivedFrom)
  | .setStateValidity stateId validity => discard (Cadi.setStateValidity stateId validity)
  | .addReplica id stateId locationId status =>
    discard (Cadi.addReplica id stateId locationId status)
  | .setReplicaStatus replicaId status => discard (Cadi.setReplicaStatus replicaId status)
  | .proposeBinding id subjectId locationId =>
    discard (Cadi.proposeBinding id subjectId locationId)
  | .activateInitialBinding id subjectId locationId =>
    discard (Cadi.activateInitialBinding id subjectId locationId)
  | .beginMigration bindingId => discard (Cadi.beginMigration bindingId)
  | .commitMigration bindingId evidenceIds now =>
    discard (Cadi.commitMigration clock bindingId evidenceIds now)
  | .recordEvent event => discard (Cadi.recordEvent event)
  | .recordEvidence e => discard (Cadi.recordEvidence e)
  | .isAncestor ancestorId descendantId => query (·.isAncestor ancestorId descendantId)
  | .stateCompatible stateId ctx =>
    query fun c => Cadi.stateCompatible semanticValidity c stateId ctx
  | .canConsumeState stateId replicaId ctx evidenceIds now =>
    query fun c => Cadi.canConsumeState semanticValidity clock c stateId replicaId ctx evidenceIds now
  | .requireEvidence action evidenceIds now requiredScope maxAge =>
    query (·.requireEvidence clock action evidenceIds now requiredScope maxAge)
  | .reconcile action evidenceIds now requiredScope =>
    query (·.reconcile clock action evidenceIds now requiredScope)

/-- A call together with what the wall clock shows during it. -/
structure Call where
  clock : Number
  operation : PublicOperation

/-- The core after a call, accepted or rejected. -/
def step (semanticValidity : SemanticValidity) (c : ContinuityCore) (call : Call) :
    ContinuityCore :=
  finalState (call.operation.call semanticValidity call.clock c)

/-- Whether the call returns instead of raising. -/
def accepted (semanticValidity : SemanticValidity) (c : ContinuityCore) (call : Call) : Bool :=
  match call.operation.call semanticValidity call.clock c with
  | .ok _ _ => true
  | .error _ _ => false

end Cadi
