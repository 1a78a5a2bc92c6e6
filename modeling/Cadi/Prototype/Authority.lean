import Cadi.Prototype.Framing
import Cadi.Library.Runs

namespace Cadi.Prototype
open Library
set_option autoImplicit true

section Messages

/-- A message that `recv_envelope` returns: a dictionary that passed the envelope check. -/
structure Envelope where
  members : Members
  distinct : (Json.obj members).distinct = true
  valid : ValidEnvelope members

namespace Envelope

def text (e : Envelope) (field : String) : String := (textOf (valueAt e.members field)).getD ""

def payload (e : Envelope) : Members :=
  match valueAt e.members "payload" with
  | .obj members => members
  | _ => []

/-- `payload.get(key)`, where an absent key reads as `null`. -/
def payloadGet (e : Envelope) (key : String) : Json := valueAt e.payload key

def subjectId (e : Envelope) : String := e.text "subject_id"

/-- The message is addressed to the authority. -/
def ToAuthority (e : Envelope) : Prop :=
  e.text "receiver_role" = C8WireRole.controlPlaneAuthority.value

/-- The message has the given kind and sender. -/
def Is (e : Envelope) (kind : MessageKind) (sender : C8WireRole) : Prop :=
  e.text "message_kind" = kind.value ∧ e.text "sender_role" = sender.value

instance (e : Envelope) : Decidable e.ToAuthority := inferInstanceAs (Decidable (_ = _))

instance (e : Envelope) (kind : MessageKind) (sender : C8WireRole) : Decidable (e.Is kind sender) :=
  inferInstanceAs (Decidable (_ ∧ _))

end Envelope

end Messages

section Pids

/-- A positive process id; `True` counts as the integer one. -/
inductive Pid where
  | int (z : Int) (h : 0 < z)
  | true

/-- The integer of a process that has one. -/
def Pid.int? : Pid → Option Int
  | .int z _ => some z
  | .true => none

theorem Pid.int?_inj {p q : Pid} : p.int? = q.int? ↔ p = q := by
  cases p <;> cases q <;> simp [int?]

instance : DecidableEq Pid := fun _ _ => decidable_of_iff _ Pid.int?_inj

def Pid.number : Pid → Int
  | .int z _ => z
  | .true => 1

def Pid.toJson : Pid → Json
  | .int z _ => .num (.int z)
  | .true => .bool Bool.true

/-- `isinstance(j, int)` and `j > 0`. -/
def pidOf : Json → Option Pid
  | .num (.int z) => if h : 0 < z then some (.int z h) else none
  | .bool true => some .true
  | _ => none

/-- `reported == pid` for a process id. -/
def namesPid (reported : Json) (pid : Pid) : Bool :=
  match reported with
  | .num n => n.eq (.int pid.number)
  | .bool b => (if b then 1 else 0) = pid.number
  | _ => false

/-- `reported == pid` where either may be `None`. -/
def equalsPid (reported : Json) (pid : Option Pid) : Bool :=
  match reported, pid with
  | .null, none => true
  | _, none => false
  | j, some pid => namesPid j pid

end Pids

section Process

/-- A record of the event log, without its time. -/
structure EventRecord where
  action : String
  result : String
  message : Option Members := none
  details : Members := []

/-- A message that is handed to the socket. -/
structure SentMessage where
  counter : Nat
  kind : MessageKind
  receiver : C8WireRole
  subjectType : String
  subjectId : String
  payloadSchema : String
  payload : Members

inductive ProcessOutput where
  | event (r : EventRecord)
  | sent (m : SentMessage)

/-- What the process is given: its id, its option, its clock, its socket and the digest. -/
structure AuthorityProcess where
  pid : Nat
  shutdownWorkerAfterCompletion : Bool := true
  monotonicNs : Nat → Nat
  sendall : ByteArray → Option TransportError
  sha256 : String → String

/-- The local variables of the message loop, and what the process has put out. -/
structure Authority where
  counter : Nat := 0
  harnessPid : Option Pid := none
  currentWorkerPid : Option Pid := none
  currentWorkerId : Option String := none
  workerGeneration : Nat := 0
  outputs : List ProcessOutput := []
  stopped : Option WireError := none

abbrev AuthorityM := Stateful WireError Authority

def authorityRegisterSchema : String := "cadi.c8.2.authority-register.v1"

def workSchema : String := "cadi.c8.2.synthetic-work.v1"

def controlSchema : String := "cadi.c8.2.control.v1"

def Authority.put (s : Authority) (o : ProcessOutput) : Authority := { s with outputs := s.outputs ++ [o] }

def emit (action result : String) (message : Members) (details : Members := []) :
    AuthorityM Unit :=
  modify fun s => s.put (.event ⟨action, result, some message, details⟩)

def reject (e : Envelope) (result : String) : AuthorityM Unit :=
  emit "MESSAGE_REJECTED" result e.members

def makeEnvelope (p : AuthorityProcess) (m : SentMessage) : Members :=
  [("schema", .str messageSchema), ("message_id", .str s!"authority:{p.pid}:{m.counter}"),
    ("message_kind", .str m.kind.value),
    ("sender_role", .str C8WireRole.controlPlaneAuthority.value),
    ("receiver_role", .str m.receiver.value), ("subject_type", .str m.subjectType),
    ("subject_id", .str m.subjectId), ("payload_schema", .str m.payloadSchema),
    ("payload", .obj m.payload), ("send_monotonic_ns", .num (.int (p.monotonicNs m.counter)))]

/-- `counter += 1` and the `_send` under the new counter. A message that the codec refuses is not
sent; a failure of the socket comes after. -/
def sendNext (p : AuthorityProcess) (kind : MessageKind) (receiver : C8WireRole)
    (subjectType subjectId payloadSchema : String) (payload : Members) : AuthorityM Members := do
  modify fun s => { s with counter := s.counter + 1 }
  let s ← get
  let m : SentMessage :=
    ⟨s.counter, kind, receiver, subjectType, subjectId, payloadSchema, payload⟩
  let message ← validateEnvelope (.obj (makeEnvelope p m))
  let frame ← encodeFrame message
  modify (Authority.put · (.sent m))
  match p.sendall frame with
  | some t => throw (.transport t)
  | none => return message

end Process

section Handlers
variable (p : AuthorityProcess)

def registerHarness (e : Envelope) : AuthorityM Unit :=
  match pidOf (e.payloadGet "pid") with
  | none => reject e "INVALID_HARNESS_PID"
  | some pid => do
    modify fun s => { s with harnessPid := some pid }
    let response ← sendNext p .registered .faultTransportHarness "PROCESS" e.subjectId
      authorityRegisterSchema
      [("authority_pid", .num (.int p.pid)), ("harness_pid", pid.toJson)]
    emit "HARNESS_REGISTERED" "OK" e.members [("pid", pid.toJson)]
    emit "MESSAGE_SENT" "REGISTERED" response

/-- The process id and the worker id of a payload that registers a worker. -/
def registrationOf (e : Envelope) : Option (Pid × String) :=
  match pidOf (e.payloadGet "pid"), e.payloadGet "worker_id",
      e.payloadGet "continuity_modules_loaded" with
  | some pid, .str workerId, .arr [] => if workerId = "" then none else some (pid, workerId)
  | _, _, _ => none

def sendWork (workerId : String) (generation : Nat) : AuthorityM Unit := do
  let workInput := s!"cadi:{workerId}:{generation}"
  let work ← sendNext p .work .worker "SYNTHETIC_WORK" s!"work:{workerId}:{generation}" workSchema
    [("operation", .str "SHA256"), ("input", .str workInput),
      ("expected_output", .str (p.sha256 workInput)), ("worker_generation", .num (.int generation))]
  emit "MESSAGE_SENT" "WORK" work

def acceptWorker (e : Envelope) (harnessPid pid : Pid) (workerId : String) : AuthorityM Unit := do
  modify fun s => { s with
    currentWorkerPid := some pid
    currentWorkerId := some workerId
    workerGeneration := s.workerGeneration + 1 }
  let s ← get
  let generation := Json.num (.int s.workerGeneration)
  let registered ← sendNext p .registered .worker "PROCESS" workerId authorityRegisterSchema
    [("authority_pid", .num (.int p.pid)), ("harness_pid", harnessPid.toJson),
      ("worker_pid", pid.toJson), ("worker_generation", generation)]
  emit "WORKER_REGISTERED" "OK" e.members
    [("worker_id", .str workerId), ("worker_pid", pid.toJson), ("worker_generation", generation)]
  emit "MESSAGE_SENT" "REGISTERED" registered
  sendWork p workerId s.workerGeneration

def registerWorker (e : Envelope) : AuthorityM Unit := do
  let s ← get
  match s.harnessPid with
  | none => reject e "HARNESS_NOT_REGISTERED"
  | some harnessPid =>
    match registrationOf e with
    | none => reject e "INVALID_WORKER_REGISTRATION"
    | some (pid, workerId) => acceptWorker p e harnessPid pid workerId

def pidJson : Option Pid → Json
  | none => .null
  | some pid => pid.toJson

def sendShutdown (workerId : String) : AuthorityM Unit := do
  let shutdown ← sendNext p .shutdown .worker "PROCESS" workerId controlSchema
    [("reason", .str "C8.2_CONFORMANCE_COMPLETE")]
  emit "MESSAGE_SENT" "SHUTDOWN" shutdown

def complete (e : Envelope) : AuthorityM Unit := do
  let s ← get
  let reported := e.payloadGet "pid"
  let expectedCurrent := equalsPid reported s.currentWorkerPid
  emit "PHYSICAL_COMPLETION_OBSERVED"
    (if expectedCurrent then "CURRENT_WORKER" else "NONCURRENT_WORKER") e.members
    [("reported_pid", reported), ("current_worker_pid", pidJson s.currentWorkerPid),
      ("timestamp_used_for_authority", .bool false)]
  match s.currentWorkerId with
  | some workerId =>
    if p.shutdownWorkerAfterCompletion ∧ expectedCurrent ∧ workerId ≠ "" then
      sendShutdown p workerId
  | none => return

/-- The worker is forgotten when the payload names it. -/
def forgetWorker (e : Envelope) : AuthorityM Unit := do
  let s ← get
  if equalsPid (e.payloadGet "pid") s.currentWorkerPid then
    modify fun s => { s with currentWorkerPid := none, currentWorkerId := none }

def processFailure (e : Envelope) : AuthorityM Unit := do
  emit "PROCESS_FAILURE_OBSERVED" "EXPLICIT_NON_SEMANTIC_OBSERVATION" e.members
    [("failed_pid", e.payloadGet "pid"), ("reason", e.payloadGet "reason")]
  forgetWorker e

def shutdownAck (e : Envelope) : AuthorityM Unit := do
  emit "WORKER_SHUTDOWN_ACK" "OK" e.members
  forgetWorker e

/-- The handler of a message to the authority. -/
def dispatch (e : Envelope) : AuthorityM Unit :=
  if e.Is .register .faultTransportHarness then registerHarness p e
  else if e.Is .register .worker then registerWorker p e
  else if e.Is .complete .worker then complete p e
  else if e.Is .processFailure .faultTransportHarness then processFailure e
  else if e.Is .shutdownAck .worker then shutdownAck e
  else reject e "UNEXPECTED_KIND_OR_SENDER"

/-- One pass through the message loop. -/
def receive (e : Envelope) : AuthorityM Unit := do
  emit "MESSAGE_RECEIVED" (e.text "message_kind") e.members
  if e.ToAuthority then dispatch p e else reject e "WRONG_RECEIVER"

/-- A pass of a process that is still running; an exception ends the process. -/
def authorityStep (s : Authority) (e : Envelope) : Authority :=
  match s.stopped with
  | some _ => s
  | none =>
    match receive p e s with
    | .ok _ s' => s'
    | .error t s' => { s' with stopped := some t }

end Handlers

end Cadi.Prototype
