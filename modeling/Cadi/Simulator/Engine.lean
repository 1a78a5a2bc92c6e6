import Cadi.Simulator.Events
import Cadi.Library.Runs

namespace Cadi
open Library
set_option autoImplicit true

/-- Simulation time, the pending events and what became of the others. The heap is kept in the order
in which its events are popped. -/
structure Simulator where
  now : Time := .zero
  queue : List SimEvent := []
  cancelled : FrozenSet String := ∅
  pendingIds : FrozenSet String := ∅
  knownIds : FrozenSet String := ∅
  trace : List SimEvent := []
  nextSequence : Nat := 0
deriving DecidableEq

/-- The arguments of `schedule`. -/
structure ScheduleRequest where
  kind : EventKind
  at' : Option Number := none
  delay : Option Number := none
  eventId : Option String := none
  payload : Option PayloadValue := none

/-- The decimal numeral padded with zeros to eight digits. -/
def padded (n : Nat) : String :=
  let digits := (Nat.repr n).toList
  String.ofList (List.replicate (8 - digits.length) '0' ++ digits)

namespace Simulator

def pendingEvents (sim : Simulator) : List SimEvent :=
  sim.queue.filter (·.eventId ∉ sim.cancelled)

def delayValue : Option Number → Except PyError Time
  | none => .ok .zero
  | some delay => finiteNonnegative delay "delay"

/-- The time the arguments ask for, absent where adding the delay overflows. -/
def eventTime (sim : Simulator) (r : ScheduleRequest) : Except PyError (Option Time) :=
  match r.at', r.delay with
  | some _, some _ => .error (.valueError "specify at or delay, not both")
  | none, delay => do
    let delay ← delayValue delay
    return sim.now.add delay
  | some t, none => do
    let eventTime ← finiteNonnegative t "at"
    raiseIf (eventTime < sim.now) (PyError.valueError "cannot schedule an event in the simulated past")
    return some eventTime

/-- The identifier an event gets when the caller names none. -/
def nextId (sim : Simulator) : String := "event-" ++ padded sim.nextSequence

def push (sim : Simulator) (event : SimEvent) : Simulator :=
  { sim with
    nextSequence := sim.nextSequence + 1
    knownIds := insert event.eventId sim.knownIds
    pendingIds := insert event.eventId sim.pendingIds
    queue := sim.queue.orderedInsert SimEvent.Before event }

def schedule (sim : Simulator) (r : ScheduleRequest) : Except PyError (SimEvent × Simulator) := do
  let time ← sim.eventTime r
  let actualId := r.eventId.getD sim.nextId
  raiseIf (actualId = "") (PyError.valueError "event_id must be a non-empty string")
  raiseIf (actualId ∈ sim.knownIds)
    (PyError.valueError s!"duplicate simulator event_id: {actualId}")
  let payload ← freezePayload r.payload
  match time with
  | none => .error (.valueError "event time must be finite and non-negative")
  | some time =>
    let event : SimEvent := ⟨time, sim.nextSequence, actualId, r.kind, payload⟩
    return (event, sim.push event)

def cancel (sim : Simulator) (eventId : String) : Bool × Simulator :=
  if eventId ∉ sim.pendingIds ∨ eventId ∈ sim.cancelled then (false, sim)
  else (true, { sim with cancelled := insert eventId sim.cancelled })

/-- The simulator after its first event has been popped. -/
def pop (sim : Simulator) (event : SimEvent) (rest : List SimEvent) : Simulator :=
  { sim with queue := rest, pendingIds := sim.pendingIds.erase event.eventId }

/-- A popped event that was cancelled leaves no trace. -/
def discard (sim : Simulator) (event : SimEvent) (rest : List SimEvent) : Simulator :=
  { sim.pop event rest with cancelled := sim.cancelled.erase event.eventId }

/-- A popped event that is delivered. -/
def deliver (sim : Simulator) (event : SimEvent) (rest : List SimEvent) : Simulator :=
  { sim.pop event rest with now := event.time, trace := sim.trace ++ [event] }

/-- At the end of a run that no limit cut short, time moves on to the horizon. -/
def advance (sim : Simulator) (horizon : Option Time) : Simulator :=
  match horizon with
  | none => sim
  | some h => if sim.now < h then { sim with now := h } else sim

end Simulator

/-- The simulator with the record of all events scheduled and of all cancellations that
succeeded. -/
structure History where
  sim : Simulator := {}
  scheduled : List SimEvent := []
  revoked : List String := []

/-- What a handler may do to the simulator. -/
inductive Action where
  | schedule (r : ScheduleRequest)
  | cancel (eventId : String)

/-- What the simulator answers. -/
inductive Answer where
  | event (result : Except PyError SimEvent)
  | cancelled (result : Bool)

def History.perform (h : History) : Action → Answer × History
  | .schedule r =>
    match h.sim.schedule r with
    | .ok (event, sim) =>
      (.event (.ok event), { h with sim, scheduled := h.scheduled ++ [event] })
    | .error e => (.event (.error e), h)
  | .cancel eventId =>
    match h.sim.cancel eventId with
    | (true, sim) => (.cancelled true, { h with sim, revoked := h.revoked ++ [eventId] })
    | (false, _) => (.cancelled false, h)

/-- The rest of a handler's work. It acts on the simulator and reads it after each action; it ends
by returning or by raising, and leaves the state the handlers share. -/
inductive Script (ω : Type) where
  | done (world : ω)
  | raise (error : PyError) (world : ω)
  | act (action : Action) (rest : Answer → Simulator → Script ω)

abbrev Handler (ω : Type) := Simulator → SimEvent → ω → Script ω

/-- The local variables of a call of `run`. -/
structure Loop where
  horizon : Option Time
  maxEvents : Option Int
  processed : Int := 0

/-- Where the single thread stands: outside `run`, at the head of its loop, or in the handlers of an
event with those still to be called. -/
inductive Control (ω : Type) where
  | idle
  | looping (l : Loop)
  | handling (l : Loop) (event : SimEvent) (script : Script ω) (rest : List (Handler ω))

/-- The event whose handlers run, if any. -/
def Control.handled : Control ω → Option SimEvent
  | .handling _ event _ _ => some event
  | _ => none

structure Machine (ω : Type) where
  history : History := {}
  handlers : EventKind → List (Handler ω) := fun _ => []
  world : ω
  control : Control ω := .idle

/-- A call from outside, or one step of the call in progress. -/
inductive Input (ω : Type) where
  | perform (action : Action)
  | registerHandler (kind : EventKind) (handler : Handler ω)
  | run (until' : Option Number) (maxEvents : Option Int)
  | tick

namespace Machine
variable {ω : Type}

def withSim (m : Machine ω) (sim : Simulator) (control : Control ω) : Machine ω :=
  { m with history := { m.history with sim }, control }

def horizonOf : Option Number → Except PyError (Option Time)
  | none => .ok none
  | some until' => some <$> finiteNonnegative until' "until"

/-- The checks at the start of `run`. -/
def enterRun (sim : Simulator) (until' : Option Number) (maxEvents : Option Int) :
    Except PyError Loop := do
  let horizon ← horizonOf until'
  raiseIf (∃ h ∈ horizon, h < sim.now)
    (PyError.valueError "until cannot move simulated time backward")
  raiseIf (∃ n ∈ maxEvents, n ≤ 0) (PyError.valueError "max_events must be a positive integer")
  return { horizon, maxEvents }

/-- The loop ends without having hit the limit of events. -/
def finish (m : Machine ω) (l : Loop) : Machine ω :=
  m.withSim (m.history.sim.advance l.horizon) .idle

/-- One pass through the head of the loop. -/
def loop (m : Machine ω) (l : Loop) : Machine ω :=
  let sim := m.history.sim
  match sim.queue with
  | [] => m.finish l
  | event :: rest =>
    if ∃ h ∈ l.horizon, h < event.time then m.finish l
    else if event.eventId ∈ sim.cancelled then m.withSim (sim.discard event rest) (.looping l)
    -- the queue violated monotonic simulated time
    else if event.time < sim.now then m.withSim (sim.pop event rest) .idle
    else m.withSim (sim.deliver event rest)
      (.handling { l with processed := l.processed + 1 } event (.done m.world) (m.handlers event.kind))

/-- One step in the handlers of the event. -/
def handle (m : Machine ω) (l : Loop) (event : SimEvent) (rest : List (Handler ω)) :
    Script ω → Machine ω
  | .act action k =>
    let (answer, history) := m.history.perform action
    { m with history, control := .handling l event (k answer history.sim) rest }
  | .raise _ world => { m with world, control := .idle }
  | .done world =>
    match rest with
    | handler :: rest =>
      { m with world, control := .handling l event (handler m.history.sim event world) rest }
    | [] =>
      if ∃ n ∈ l.maxEvents, n ≤ l.processed then { m with world, control := .idle }
      else { m with world, control := .looping l }

/-- The next state. The thread that is inside `run` takes no call from outside. -/
def step (m : Machine ω) (input : Input ω) : Machine ω :=
  match m.control, input with
  | .idle, .perform action => { m with history := (m.history.perform action).2 }
  | .idle, .registerHandler kind handler =>
    { m with handlers := fun k => if k = kind then m.handlers k ++ [handler] else m.handlers k }
  | .idle, .run until' maxEvents =>
    match enterRun m.history.sim until' maxEvents with
    | .ok l => { m with control := .looping l }
    | .error _ => m
  | .looping l, .tick => m.loop l
  | .handling l event script rest, .tick => m.handle l event rest script
  | _, _ => m

end Machine

end Cadi
