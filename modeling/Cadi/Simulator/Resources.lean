import Cadi.Simulator.Host

namespace Cadi
open Library
set_option autoImplicit true

inductive WorkerStatus where
  | up | down
deriving DecidableEq

inductive TaskStatus where
  | queued | running | completed | failed
deriving DecidableEq

inductive ReplicaRuntimeStatus where
  | materializing | available | evicted | lost
deriving DecidableEq

inductive TransferStatus where
  | scheduled | running | completed | failed
deriving DecidableEq

structure Worker where
  id : String
  capacity : Int := 1
  status : WorkerStatus := .up
deriving DecidableEq

structure ResourceTask where
  id : String
  workerId : String
  duration : Time
  status : TaskStatus
  enqueuedAt : Time
  startedAt : Option Time := none
  completedAt : Option Time := none
  completionEventId : Option String := none
deriving DecidableEq

structure NetworkLink where
  id : String
  sourceId : String
  destinationId : String
  latency : Time
  bandwidthBytesPerTime : Time
deriving DecidableEq

/-- The latency and the quotient of an integer and a float, both rounded; the sum may be infinite. -/
def NetworkLink.transferDuration (link : NetworkLink) (sizeBytes : Int) : Except PyError Binary64 :=
  if sizeBytes < 0 then .error (.valueError "size_bytes must be a non-negative integer")
  else match (Number.int sizeBytes).toFloat with
    | some (.finite _ u _) =>
      match Binary64.ofRatio false (u * 2 ^ 1074) link.bandwidthBytesPerTime.units with
      | .finite _ v _ => .ok (.ofRatio false (link.latency.units + v) 1)
      | x => .ok x
    | _ => .error (.overflowError "int too large to convert to float")

structure ReplicaRuntime where
  replicaId : String
  stateId : String
  locationId : String
  sizeBytes : Int
  status : ReplicaRuntimeStatus
  completionEventId : Option String := none
deriving DecidableEq

structure StateTransfer where
  id : String
  replicaId : String
  linkId : String
  sourceId : String
  destinationId : String
  sizeBytes : Int
  status : TransferStatus
  startedAt : Option Time := none
  completedAt : Option Time := none
  completionEventId : Option String := none
deriving DecidableEq

/-- A transfer that is still under way. -/
def TransferStatus.active (s : TransferStatus) : Prop := s = .scheduled ∨ s = .running

instance (s : TransferStatus) : Decidable s.active := inferInstanceAs (Decidable (_ ∨ _))

structure ResourceModel where
  workers : Dict String Worker := ∅
  links : Dict String NetworkLink := ∅
  tasks : Dict String ResourceTask := ∅
  workerQueues : Dict String (List String) := ∅
  workerActive : Dict String (List String) := ∅
  replicas : Dict String ReplicaRuntime := ∅
  transfers : Dict String StateTransfer := ∅
deriving DecidableEq

abbrev ResourceM := HostM ResourceModel

section Arguments

def requireId (value name : String) : Except PyError Unit :=
  raiseIf (value = "") (.valueError s!"{name} must be a non-empty string")

/-- A lookup whose error says what kind of thing is not there. -/
def requireKnown (kind : String) (d : Dict String α) (id : String) : Except PyError α :=
  match d.get? id with
  | some v => .ok v
  | none => .error (.keyError s!"unknown {kind}: {id}")

@[simp] theorem requireKnown_eq_ok {kind : String} {d : Dict String α} {id : String} :
    requireKnown kind d id = .ok v ↔ d.get? id = some v := by
  unfold requireKnown
  cases d.get? id <;> simp

def ResourceModel.requireWorker (m : ResourceModel) (workerId : String) : Except PyError Worker :=
  requireKnown "worker" m.workers workerId

def ResourceModel.requireLink (m : ResourceModel) (linkId : String) : Except PyError NetworkLink :=
  requireKnown "link" m.links linkId

def ResourceModel.requireReplica (m : ResourceModel) (replicaId : String) :
    Except PyError ReplicaRuntime :=
  requireKnown "replica" m.replicas replicaId

/-- The model's own conversion of a numeric argument; its error does not tell the two cases apart. -/
def resourceTime (value : Number) (name : String) : Except PyError Time :=
  match value.toFloat with
  | none => .error (.overflowError "int too large to convert to float")
  | some x =>
    match Time.ofBinary64 x with
    | some t => .ok t
    | none => .error (.valueError s!"{name} must be finite and non-negative")

def resourcePositive (value : Number) (name : String) : Except PyError Time :=
  match value.toFloat with
  | none => .error (.overflowError "int too large to convert to float")
  | some x =>
    match Time.ofBinary64 x with
    | some t =>
      if t.units = 0 then .error (.valueError s!"{name} must be finite and positive") else .ok t
    | none => .error (.valueError s!"{name} must be finite and positive")

end Arguments

section Methods

def addWorker (workerId : String) (capacity : Int := 1) : ResourceM Worker := do
  requireId workerId "worker_id"
  let h ← get
  raiseIf (workerId ∈ h.world.workers) (PyError.valueError s!"duplicate worker_id: {workerId}")
  raiseIf (capacity ≤ 0) (PyError.valueError "capacity must be a positive integer")
  let worker : Worker := { id := workerId, capacity }
  modifyWorld fun m => { m with
    workers := m.workers.set workerId worker
    workerQueues := m.workerQueues.set workerId []
    workerActive := m.workerActive.set workerId [] }
  return worker

def addLink (linkId sourceId destinationId : String) (latency bandwidth : Number) :
    ResourceM NetworkLink := do
  requireId linkId "link_id"
  let h ← get
  let _ ← h.world.requireWorker sourceId
  let _ ← h.world.requireWorker destinationId
  raiseIf (linkId ∈ h.world.links) (PyError.valueError s!"duplicate link_id: {linkId}")
  let latency ← resourceTime latency "latency"
  let bandwidth ← resourcePositive bandwidth "bandwidth_bytes_per_time"
  let link : NetworkLink := ⟨linkId, sourceId, destinationId, latency, bandwidth⟩
  modifyWorld fun m => { m with links := m.links.set linkId link }
  return link

def queueOf (m : ResourceModel) (workerId : String) : List String :=
  (m.workerQueues.get? workerId).getD []

def activeOf (m : ResourceModel) (workerId : String) : List String :=
  (m.workerActive.get? workerId).getD []

def enqueueTask (workerId taskId : String) (duration : Number) : ResourceM ResourceTask := do
  let h ← get
  let _ ← h.world.requireWorker workerId
  requireId taskId "task_id"
  raiseIf (taskId ∈ h.world.tasks) (PyError.valueError s!"duplicate task_id: {taskId}")
  let duration ← resourceTime duration "duration"
  let task : ResourceTask :=
    { id := taskId, workerId, duration, status := .queued, enqueuedAt := h.history.sim.now }
  modifyWorld fun m => { m with
    tasks := m.tasks.set taskId task
    workerQueues := m.workerQueues.set workerId (queueOf m workerId ++ [taskId]) }
  let _ ← orElseUndo
    (scheduleEvent
      { kind := .workerTaskEnqueued, delay := some (.int 0), eventId := some s!"task-enqueued:{taskId}",
        payload := payloadOf [("task_id", .str taskId), ("worker_id", .str workerId)] })
    fun m => { m with
      workerQueues := m.workerQueues.set workerId ((queueOf m workerId).erase taskId)
      tasks := m.tasks.erase taskId }
  return task

def failWorker (workerId : String) : ResourceM SimEvent := do
  let h ← get
  let _ ← h.world.requireWorker workerId
  notify .workerFailed [("worker_id", .str workerId)]

def recoverWorker (workerId : String) : ResourceM SimEvent := do
  let h ← get
  let _ ← h.world.requireWorker workerId
  notify .workerRecovered [("worker_id", .str workerId)]

def materializeReplica (replicaId stateId locationId : String) (sizeBytes : Int) (duration : Number) :
    ResourceM ReplicaRuntime := do
  requireId replicaId "replica_id"
  requireId stateId "state_id"
  let h ← get
  let _ ← h.world.requireWorker locationId
  raiseIf (replicaId ∈ h.world.replicas) (PyError.valueError s!"duplicate replica_id: {replicaId}")
  raiseIf (sizeBytes < 0) (PyError.valueError "size_bytes must be a non-negative integer")
  let duration ← resourceTime duration "duration"
  let replica : ReplicaRuntime :=
    { replicaId, stateId, locationId, sizeBytes, status := .materializing }
  modifyWorld fun m => { m with replicas := m.replicas.set replicaId replica }
  let _ ← orElseUndo
    (scheduleEvent
      { kind := .stateMaterializationStarted, delay := some (.int 0)
        eventId := some s!"materialize-start:{replicaId}"
        payload := payloadOf [("replica_id", .str replicaId), ("duration", .num duration.toNumber)] })
    fun m => { m with replicas := m.replicas.erase replicaId }
  return replica

def startTransfer (transferId replicaId linkId : String) : ResourceM StateTransfer := do
  requireId transferId "transfer_id"
  let h ← get
  raiseIf (transferId ∈ h.world.transfers)
    (PyError.valueError s!"duplicate transfer_id: {transferId}")
  let replica ← h.world.requireReplica replicaId
  raiseIf (replica.status ≠ .available)
    (PyError.valueError "replica must be AVAILABLE to start transfer")
  let link ← h.world.requireLink linkId
  raiseIf (replica.locationId ≠ link.sourceId)
    (PyError.valueError "replica location must match link source")
  raiseIf (∃ t ∈ h.world.transfers.values, t.replicaId = replicaId ∧ t.status.active)
    (PyError.valueError "replica already has an active transfer")
  let transfer : StateTransfer :=
    { id := transferId, replicaId, linkId, sourceId := link.sourceId,
      destinationId := link.destinationId, sizeBytes := replica.sizeBytes, status := .scheduled }
  modifyWorld fun m => { m with transfers := m.transfers.set transferId transfer }
  let _ ← orElseUndo
    (scheduleEvent
      { kind := .stateTransferStarted, delay := some (.int 0)
        eventId := some s!"transfer-start:{transferId}"
        payload := payloadOf [("transfer_id", .str transferId)] })
    fun m => { m with transfers := m.transfers.erase transferId }
  return transfer

def evictReplica (replicaId : String) : ResourceM SimEvent := do
  let h ← get
  let _ ← h.world.requireReplica replicaId
  notify .stateEvicted [("replica_id", .str replicaId)]

def loseReplica (replicaId : String) : ResourceM SimEvent := do
  let h ← get
  let _ ← h.world.requireReplica replicaId
  notify .stateLost [("replica_id", .str replicaId)]

end Methods

section Tasks

/-- The loop over the worker's queue, which is the list. -/
def dispatchLoop (workerId : String) (worker : Worker) : List String → ResourceM Unit
  | [] => pure ()
  | taskId :: queue => do
    let h ← get
    let active := activeOf h.world workerId
    if worker.status = .up ∧ (active.length : Int) < worker.capacity then
      modifyWorld fun m => { m with workerQueues := m.workerQueues.set workerId queue }
      let task ← item h.world.tasks taskId
      let completion ← scheduleEvent
        { kind := .workerTaskCompleted, delay := some task.duration.toNumber
          eventId := some s!"task-complete:{taskId}"
          payload := payloadOf [("task_id", .str taskId), ("worker_id", .str workerId)] }
      modifyWorld fun m => { m with
        tasks := m.tasks.set taskId { task with
          status := .running
          startedAt := some h.history.sim.now
          completionEventId := some completion.eventId }
        workerActive := m.workerActive.set workerId (active ++ [taskId]) }
      dispatchLoop workerId worker queue
    else pure ()

def dispatch (workerId : String) : ResourceM Unit := do
  let h ← get
  let worker ← item h.world.workers workerId
  let queue ← item h.world.workerQueues workerId
  let _ ← item h.world.workerActive workerId
  dispatchLoop workerId worker queue

/-- The string behind a payload value that is used as a key. -/
def frozenKey : Frozen → Except PyError String
  | .str k => .ok k
  | _ => .error (.keyError "")

def onTaskEnqueued (event : SimEvent) : ResourceM Unit := do
  let value ← payloadItem event "worker_id"
  let workerId ← frozenKey value
  dispatch workerId

/-- The entry a payload value keys, if any. -/
def frozenGet? (d : Dict String α) : Frozen → Option α
  | .str k => d.get? k
  | _ => none

def onTaskCompleted (event : SimEvent) : ResourceM Unit := do
  let taskId ← payloadItem event "task_id"
  let workerId ← payloadItem event "worker_id"
  let h ← get
  match frozenGet? h.world.tasks taskId with
  | none => pure ()
  | some task =>
    if task.status ≠ .running then pure ()
    else do
      let taskId ← frozenKey taskId
      let workerId ← frozenKey workerId
      let active ← item h.world.workerActive workerId
      modifyWorld fun m => { m with
        workerActive := m.workerActive.set workerId (active.erase taskId)
        tasks := m.tasks.set taskId { task with
          status := .completed
          completedAt := some h.history.sim.now
          completionEventId := none } }
      dispatch workerId

/-- A completion that is still to come is cancelled. -/
def cancelCompletion (completionEventId : Option String) : HostM σ Unit :=
  match truthy completionEventId with
  | none => pure ()
  | some eventId => discard (cancelEvent eventId)

def failTask (workerId taskId : String) : ResourceM Unit := do
  let h ← get
  let task ← item h.world.tasks taskId
  cancelCompletion task.completionEventId
  modifyWorld fun m => { m with
    tasks := m.tasks.set taskId { task with
      status := .failed
      completedAt := some h.history.sim.now
      completionEventId := none } }
  discard (notify .workerTaskFailed [("task_id", .str taskId), ("worker_id", .str workerId)])

end Tasks

section Replicas

def loseReplicaAt (workerId : String) (entry : String × ReplicaRuntime) : ResourceM Unit :=
  if entry.2.locationId ≠ workerId ∨ entry.2.status = .evicted ∨ entry.2.status = .lost then pure ()
  else do
    cancelCompletion entry.2.completionEventId
    modifyWorld fun m => { m with
      replicas := m.replicas.set entry.1 { entry.2 with status := .lost, completionEventId := none } }
    discard (notify .stateLost [("replica_id", .str entry.1)])

/-- A transfer under way fails if it meets the condition. -/
def failTransfer (affected : StateTransfer → Bool) (entry : String × StateTransfer) :
    ResourceM Unit := do
  let h ← get
  if entry.2.status.active ∧ affected entry.2 = true then do
    cancelCompletion entry.2.completionEventId
    modifyWorld fun m => { m with
      transfers := m.transfers.set entry.1 { entry.2 with
        status := .failed
        completedAt := some h.history.sim.now
        completionEventId := none } }
    discard (notify .stateTransferFailed [("transfer_id", .str entry.1)])
  else pure ()

def onWorkerFailed (event : SimEvent) : ResourceM Unit := do
  let value ← payloadItem event "worker_id"
  let workerId ← frozenKey value
  let h ← get
  let worker ← item h.world.workers workerId
  if worker.status = .down then pure ()
  else do
    modifyWorld fun m => { m with workers := m.workers.set workerId { worker with status := .down } }
    let active ← item h.world.workerActive workerId
    modifyWorld fun m => { m with workerActive := m.workerActive.set workerId [] }
    active.forM (failTask workerId)
    let h ← get
    h.world.replicas.entries.forM (loseReplicaAt workerId)
    let h ← get
    h.world.transfers.entries.forM
      (failTransfer fun t => workerId = t.sourceId || workerId = t.destinationId)

def onWorkerRecovered (event : SimEvent) : ResourceM Unit := do
  let value ← payloadItem event "worker_id"
  let workerId ← frozenKey value
  let h ← get
  let worker ← item h.world.workers workerId
  if worker.status = .up then pure ()
  else do
    modifyWorld fun m => { m with workers := m.workers.set workerId { worker with status := .up } }
    dispatch workerId

/-- The replica of a payload with its key. -/
def replicaOf (m : ResourceModel) (event : SimEvent) :
    Except PyError (Option (String × ReplicaRuntime)) := do
  let replicaId ← payloadItem event "replica_id"
  return match replicaId with
    | .str k => (m.replicas.get? k).map fun r => (k, r)
    | _ => none

def transferOf (m : ResourceModel) (event : SimEvent) :
    Except PyError (Option (String × StateTransfer)) := do
  let transferId ← payloadItem event "transfer_id"
  return match transferId with
    | .str k => (m.transfers.get? k).map fun t => (k, t)
    | _ => none

/-- A replica on a failed worker is lost. -/
def loseMaterializing (replicaId : String) (replica : ReplicaRuntime) : ResourceM Unit := do
  modifyWorld fun m => { m with replicas := m.replicas.set replicaId replica }
  discard (notify .stateLost [("replica_id", .str replicaId)])

/-- A payload value passed on as a delay; `None` is the default. -/
def frozenDelay : Frozen → Except PyError (Option Number)
  | .none => .ok none
  | .num n => .ok (some n)
  | _ => .error (.typeError "delay must be numeric")

def onMaterializationStarted (event : SimEvent) : ResourceM Unit := do
  let h ← get
  let found ← replicaOf h.world event
  let duration ← payloadItem event "duration"
  match found with
  | none => pure ()
  | some (replicaId, replica) =>
    if replica.status ≠ .materializing then pure ()
    else do
      let worker ← item h.world.workers replica.locationId
      if worker.status = .down then loseMaterializing replicaId { replica with status := .lost }
      else do
        let delay ← frozenDelay duration
        let completion ← scheduleEvent
          { kind := .stateMaterialized, delay
            eventId := some s!"materialize-complete:{replicaId}"
            payload := payloadOf [("replica_id", .str replicaId)] }
        modifyWorld fun m => { m with
          replicas := m.replicas.set replicaId
            { replica with completionEventId := some completion.eventId } }

def onStateMaterialized (event : SimEvent) : ResourceM Unit := do
  let h ← get
  let found ← replicaOf h.world event
  match found with
  | none => pure ()
  | some (replicaId, replica) =>
    if replica.status ≠ .materializing then pure ()
    else do
      let worker ← item h.world.workers replica.locationId
      if worker.status = .down then
        loseMaterializing replicaId { replica with status := .lost, completionEventId := none }
      else modifyWorld fun m => { m with
        replicas := m.replicas.set replicaId
          { replica with status := .available, completionEventId := none } }

/-- The transfer cannot go on: its replica has left the source or an end has failed. -/
def transferBlocked (m : ResourceModel) (replica : ReplicaRuntime) (transfer : StateTransfer) :
    Except PyError Bool :=
  if replica.status ≠ .available ∨ replica.locationId ≠ transfer.sourceId then .ok true
  else do
    let source ← item m.workers transfer.sourceId
    if source.status = .down then return true
    let destination ← item m.workers transfer.destinationId
    return destination.status = .down

def abandonTransfer (transferId : String) (transfer : StateTransfer) : ResourceM Unit := do
  modifyWorld fun m => { m with transfers := m.transfers.set transferId transfer }
  discard (notify .stateTransferFailed [("transfer_id", .str transferId)])

def onTransferStarted (event : SimEvent) : ResourceM Unit := do
  let h ← get
  let now := h.history.sim.now
  let found ← transferOf h.world event
  match found with
  | none => pure ()
  | some (transferId, transfer) =>
    if transfer.status ≠ .scheduled then pure ()
    else do
      let replica ← item h.world.replicas transfer.replicaId
      let blocked ← transferBlocked h.world replica transfer
      let failed := { transfer with status := .failed, startedAt := some now, completedAt := some now }
      if blocked then abandonTransfer transferId failed
      else do
        let link ← item h.world.links transfer.linkId
        let duration ← link.transferDuration transfer.sizeBytes
        let completion ← scheduleEvent
          { kind := .stateTransferCompleted, delay := some (.float duration)
            eventId := some s!"transfer-complete:{transferId}"
            payload := payloadOf [("transfer_id", .str transferId)] }
        modifyWorld fun m => { m with
          transfers := m.transfers.set transferId { transfer with
            status := .running
            startedAt := some now
            completionEventId := some completion.eventId } }

def onTransferCompleted (event : SimEvent) : ResourceM Unit := do
  let h ← get
  let now := h.history.sim.now
  let found ← transferOf h.world event
  match found with
  | none => pure ()
  | some (transferId, transfer) =>
    if transfer.status ≠ .running then pure ()
    else do
      let replica ← item h.world.replicas transfer.replicaId
      let blocked ← transferBlocked h.world replica transfer
      let failed :=
        { transfer with status := .failed, completedAt := some now, completionEventId := none }
      if blocked then abandonTransfer transferId failed
      else do
        modifyWorld fun m => { m with
          replicas := m.replicas.set transfer.replicaId
            { replica with locationId := transfer.destinationId }
          transfers := m.transfers.set transferId { transfer with
            status := .completed
            completedAt := some now
            completionEventId := none } }
        discard (notify .stateMoved
          [("replica_id", .str transfer.replicaId), ("source_id", .str transfer.sourceId),
            ("destination_id", .str transfer.destinationId)])

def failActiveTransfersForReplica (replicaId : String) : ResourceM Unit := do
  let h ← get
  h.world.transfers.entries.forM (failTransfer fun t => t.replicaId = replicaId)

/-- The common handler of evictions and losses. -/
def onReplicaGone (status : ReplicaRuntimeStatus) (event : SimEvent) : ResourceM Unit := do
  let h ← get
  let found ← replicaOf h.world event
  match found with
  | none => pure ()
  | some (replicaId, replica) =>
    if replica.status = .lost then pure ()
    else do
      failActiveTransfersForReplica replicaId
      cancelCompletion replica.completionEventId
      modifyWorld fun m => { m with
        replicas := m.replicas.set replicaId { replica with status, completionEventId := none } }

def onStateEvicted : SimEvent → ResourceM Unit := onReplicaGone .evicted

def onStateLost : SimEvent → ResourceM Unit := onReplicaGone .lost

/-- The handlers the model registers. -/
def ResourceModel.handle (event : SimEvent) : ResourceM Unit :=
  match event.kind with
  | .workerTaskEnqueued => onTaskEnqueued event
  | .workerTaskCompleted => onTaskCompleted event
  | .workerFailed => onWorkerFailed event
  | .workerRecovered => onWorkerRecovered event
  | .stateMaterializationStarted => onMaterializationStarted event
  | .stateMaterialized => onStateMaterialized event
  | .stateTransferStarted => onTransferStarted event
  | .stateTransferCompleted => onTransferCompleted event
  | .stateEvicted => onStateEvicted event
  | .stateLost => onStateLost event
  | _ => pure ()

end Replicas

end Cadi
