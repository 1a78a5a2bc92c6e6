import Cadi.Simulator.Runs
import Cadi.Core.Stores

namespace Cadi
open Library
set_option autoImplicit true

/-- The simulator together with a component whose handlers it calls. -/
structure Host (σ : Type) where
  history : History := {}
  world : σ

/-- A method of the component; it can raise after it has written. -/
abbrev HostM (σ : Type) := Stateful PyError (Host σ)

section Methods
variable {σ : Type}

def modifyWorld (f : σ → σ) : HostM σ Unit :=
  modify fun h => { h with world := f h.world }

def scheduleEvent (r : ScheduleRequest) : HostM σ SimEvent := do
  let h ← get
  let (event, sim) ← h.history.sim.schedule r
  modify fun h => { h with
    history := { h.history with sim, scheduled := h.history.scheduled ++ [event] } }
  return event

def cancelEvent (eventId : String) : HostM σ Bool := do
  let h ← get
  modify fun h => { h with history := (h.history.perform (.cancel eventId)).2 }
  return (h.history.sim.cancel eventId).1

/-- An event at the current instant under the next free number. -/
def notify (kind : EventKind) (payload : List (String × PayloadValue)) : HostM σ SimEvent :=
  scheduleEvent { kind, delay := some (.int 0), payload := payloadOf payload }

/-- `x`, with `undo` applied to the component when it raises. -/
def orElseUndo (x : HostM σ α) (undo : σ → σ) : HostM σ α := fun h =>
  match x h with
  | .ok a h' => .ok a h'
  | .error e h' => .error e { h' with world := undo h'.world }

end Methods

/-- The value of a payload item. -/
def payloadItem (event : SimEvent) (key : String) : Except PyError Frozen :=
  match event.payload.lookup key with
  | some v => .ok v
  | none => .error (.keyError key)

/-- One pass through the loop of `run`, with the component's handler. The end of the loop moves time
to the horizon. -/
def Host.pass (handle : SimEvent → HostM σ Unit) (horizon : Option Time) (h : Host σ) : Host σ :=
  let sim := h.history.sim
  let withSim (sim : Simulator) : Host σ := { h with history := { h.history with sim } }
  match sim.queue with
  | [] => withSim (sim.advance horizon)
  | event :: rest =>
    if ∃ t ∈ horizon, t < event.time then withSim (sim.advance horizon)
    else if event.eventId ∈ sim.cancelled then withSim (sim.discard event rest)
    else if event.time < sim.now then withSim (sim.pop event rest)
    else finalState (handle event (withSim (sim.deliver event rest)))

end Cadi
