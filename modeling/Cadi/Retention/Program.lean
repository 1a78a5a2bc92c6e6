import Cadi.Retention.Protocol
import Mathlib.Data.List.Sort
import Mathlib.Data.List.MinMax
import Mathlib.Data.String.Basic

namespace Cadi.Retention
open Library
set_option autoImplicit true

section Events

structure RetentionSessionSpec where
  sessionId : String
  initiallyLive : Bool := true
deriving DecidableEq

structure RetentionStateSpec where
  stateId : String
  sessionId : String
  admissionOrdinal : Nat
  initialDependents : List ContinuationLifecycle
  sizeBytes : Nat := c73DefaultStateBytes
deriving DecidableEq

/-- What an event does, with the fields that its kind requires. -/
inductive RetentionAction where
  | invalidate (stateId : String)
  | dependents (stateId : String) (dependentLifecycles : List ContinuationLifecycle)
  | sessionStatus (sessionId : String) (sessionLive : Bool)
  | reuse (stateId : String) (semanticValid : Bool)
  | admission (stateId : String)
deriving DecidableEq

def RetentionAction.phase : RetentionAction → Nat
  | .invalidate _ => 0
  | .dependents _ _ | .sessionStatus _ _ => 1
  | .reuse _ _ => 4
  | .admission _ => 6

/-- An event without an identifier that its kind does not use, which is only checked to be
declared. -/
structure RetentionEvent where
  eventId : String
  timeSeconds : Time
  ordinal : Nat
  action : RetentionAction
deriving DecidableEq

namespace RetentionEvent

def phase (e : RetentionEvent) : Nat := e.action.phase

abbrev Key := Nat ×ₗ Nat ×ₗ Nat ×ₗ String

/-- The key of the global order of the events. -/
def key (e : RetentionEvent) : Key :=
  toLex (e.timeSeconds.units, toLex (e.phase, toLex (e.ordinal, e.eventId)))

def stateId? (e : RetentionEvent) : Option String :=
  match e.action with
  | .invalidate stateId | .dependents stateId _ | .reuse stateId _ | .admission stateId => some stateId
  | .sessionStatus _ _ => none

def sessionId? (e : RetentionEvent) : Option String :=
  match e.action with
  | .sessionStatus sessionId _ => some sessionId
  | _ => none

/-- The event admits the State. -/
def Admits (e : RetentionEvent) (stateId : String) : Prop := e.action = .admission stateId

instance (e : RetentionEvent) (stateId : String) : Decidable (e.Admits stateId) :=
  inferInstanceAs (Decidable (_ = _))

end RetentionEvent

def nonempty (value name : String) : Except PyError Unit :=
  raiseIf (value = "") (.valueError s!"{name} must be a non-empty string")

def RetentionSessionSpec.postInit (x : RetentionSessionSpec) : Except PyError Unit :=
  nonempty x.sessionId "session_id"

def RetentionStateSpec.postInit (x : RetentionStateSpec) : Except PyError Unit := do
  nonempty x.stateId "state_id"
  nonempty x.sessionId "session_id"
  let _ ← deriveStateLifecycle x.initialDependents
  raiseIf (x.sizeBytes ≠ c73DefaultStateBytes) (PyError.valueError
    "C7.3b State size must equal the frozen C7.3a State byte mapping")

def RetentionEvent.postInit (e : RetentionEvent) : Except PyError Unit := do
  nonempty e.eventId "event_id"
  e.stateId?.toList.forM fun stateId => nonempty stateId "state_id"
  e.sessionId?.toList.forM fun sessionId => nonempty sessionId "session_id"
  match e.action with
  | .dependents _ lifecycles =>
    let _ ← deriveStateLifecycle lifecycles
    return
  | _ => return

end Events

structure RetentionProgramCase where
  programId : String
  sessions : List RetentionSessionSpec
  states : List RetentionStateSpec
  events : List RetentionEvent
  programStartSeconds : Time
  programEndSeconds : Time
deriving DecidableEq

namespace RetentionProgramCase

def sessionIds (c : RetentionProgramCase) : List String := c.sessions.map (·.sessionId)

def stateIds (c : RetentionProgramCase) : List String := c.states.map (·.stateId)

/-- The first admission of a State in the global order. -/
def firstAdmit (c : RetentionProgramCase) (stateId : String) : Option RetentionEvent :=
  (c.events.filter (·.Admits stateId)).argmin (·.key)

/-- The first admissions, in their order. -/
def firstAdmits (c : RetentionProgramCase) : List (String × RetentionEvent) :=
  (c.stateIds.filterMap fun stateId => (c.firstAdmit stateId).map (stateId, ·)).insertionSort
    fun a b => a.2.key ≤ b.2.key

def checkDeclared (c : RetentionProgramCase) (e : RetentionEvent) : Except PyError Unit := do
  raiseIf (¬ (c.programStartSeconds ≤ e.timeSeconds ∧ e.timeSeconds ≤ c.programEndSeconds))
    (PyError.valueError "event time lies outside Program bounds")
  raiseIf (∃ k ∈ e.stateId?, k ∉ c.stateIds)
    (PyError.valueError "event references undeclared State")
  raiseIf (∃ k ∈ e.sessionId?, k ∉ c.sessionIds)
    (PyError.valueError "event references undeclared Session")

/-- The declared ordinal of a State is the place of its first admission. -/
def checkOrdinal (c : RetentionProgramCase) (expected : (String × RetentionEvent) × Nat) :
    Except PyError Unit :=
  raiseIf (∃ x ∈ c.states, x.stateId = expected.1.1 ∧ x.admissionOrdinal ≠ expected.2)
    (.valueError "State admission_ordinal must match deterministic global first-ADMIT order")

def checkAdmittedBefore (c : RetentionProgramCase) (e : RetentionEvent) : Except PyError Unit :=
  match e.action with
  | .reuse stateId _ =>
    raiseIf (∃ first ∈ c.firstAdmit stateId, e.key < first.key) (.valueError
      "REUSE cannot occur before ADMIT (first admission) for the same State")
  | .invalidate stateId =>
    raiseIf (∃ first ∈ c.firstAdmit stateId, e.key < first.key) (.valueError
      "INVALIDATE cannot occur before ADMIT (first admission) for the same State")
  | _ => .ok ⟨⟩

def postInit (c : RetentionProgramCase) : Except PyError Unit := do
  nonempty c.programId "program_id"
  raiseIf (c.programEndSeconds < c.programStartSeconds)
    (PyError.valueError "Program end cannot precede Program start")
  raiseIf (c.sessions = [])
    (PyError.valueError "sessions must be a non-empty tuple of RetentionSessionSpec")
  raiseIf (c.states = [])
    (PyError.valueError "states must be a non-empty tuple of RetentionStateSpec")
  raiseIf (¬ c.sessionIds.Nodup) (PyError.valueError "Session IDs must be unique")
  raiseIf (¬ c.stateIds.Nodup) (PyError.valueError "State IDs must be unique")
  raiseIf (¬ (c.states.map (·.admissionOrdinal)).Nodup)
    (PyError.valueError "State admission_ordinal values must be unique")
  raiseIf (∃ x ∈ c.states, x.sessionId ∉ c.sessionIds)
    (PyError.valueError "every State must reference a declared Session")
  raiseIf (¬ (c.events.map (·.eventId)).Nodup)
    (PyError.valueError "event_id values must be unique")
  raiseIf (¬ (c.events.map fun e => (e.timeSeconds.units, e.phase, e.ordinal)).Nodup)
    (PyError.valueError "events must have unique (time, phase, ordinal) ordering keys")
  c.events.forM c.checkDeclared
  raiseIf (∃ k ∈ c.stateIds, c.firstAdmit k = none)
    (PyError.valueError "every declared State must have at least one ADMIT event")
  c.firstAdmits.zipIdx.forM c.checkOrdinal
  c.events.forM c.checkAdmittedBefore

/-- The sessions, States, events and the case itself pass the checks of their constructors. -/
def construct (c : RetentionProgramCase) : Except PyError Unit := do
  c.sessions.forM RetentionSessionSpec.postInit
  c.states.forM RetentionStateSpec.postInit
  c.events.forM RetentionEvent.postInit
  c.postInit

def specs (c : RetentionProgramCase) : Dict String RetentionStateSpec :=
  .ofList (c.states.map fun x => (x.stateId, x))

end RetentionProgramCase

section Instants

/-- The events of one time, which compares by value. -/
abbrev Instant := Time × List RetentionEvent

/-- `grouped.setdefault(event.time_seconds, []).append(event)` -/
def addEvent (e : RetentionEvent) : List Instant → List Instant
  | [] => [(e.timeSeconds, [e])]
  | (t, es) :: rest =>
    if t.units = e.timeSeconds.units then (t, es ++ [e]) :: rest else (t, es) :: addEvent e rest

def grouped (events : List RetentionEvent) : List Instant :=
  events.foldl (fun instants e => addEvent e instants) []

/-- The events of a time in the order of their phases, ordinals and identifiers. -/
def ordered (events : List RetentionEvent) : List RetentionEvent :=
  events.insertionSort fun a b =>
    toLex (a.phase, toLex (a.ordinal, a.eventId)) ≤ toLex (b.phase, toLex (b.ordinal, b.eventId))

/-- The times of the events in increasing order, each with its events. -/
def instants (events : List RetentionEvent) : List Instant :=
  ((grouped events).insertionSort fun a b => a.1 ≤ b.1).map fun i => (i.1, ordered i.2)

end Instants

section WorkingSet

structure Truth where
  valid : Bool
  lifecycle : StateLifecycle
  produced : Bool := false
deriving DecidableEq

/-- The ground truth before the first event. -/
def initialTruth (c : RetentionProgramCase) : Except PyError (Dict String Truth) := do
  let entries ← c.states.mapM fun x => do
    let lifecycle ← deriveStateLifecycle x.initialDependents
    return (x.stateId, ({ valid := true, lifecycle } : Truth))
  return .ofList entries

/-- The event changes the ground truth. -/
def advanceTruth (truth : Dict String Truth) (e : RetentionEvent) :
    Except PyError (Dict String Truth) :=
  match e.action with
  | .invalidate stateId => do
    let t ← item truth stateId
    return truth.set stateId { t with valid := false }
  | .dependents stateId lifecycles => do
    let lifecycle ← deriveStateLifecycle lifecycles
    let t ← item truth stateId
    return truth.set stateId { t with lifecycle }
  | .admission stateId => do
    let t ← item truth stateId
    return truth.set stateId { t with produced := true }
  | _ => .ok truth

def Truth.inWorkingSet (t : Truth) : Bool :=
  t.produced && t.valid && t.lifecycle != .terminal

/-- The bytes of the States that are produced, valid and not terminal. -/
def workingSetBytes (c : RetentionProgramCase) (truth : Dict String Truth) : Except PyError Nat := do
  let sizes ← (truth.select fun p => p.2.inWorkingSet).mapM fun stateId =>
    (·.sizeBytes) <$> item c.specs stateId
  return sizes.sum

/-- The largest working set at the end of an instant. -/
def largestWorkingSet (c : RetentionProgramCase) :
    List Instant → Dict String Truth → Nat → Except PyError Nat
  | [], _, largest => .ok largest
  | (_, events) :: rest, truth, largest => do
    let truth ← events.foldlM advanceTruth truth
    let current ← workingSetBytes c truth
    largestWorkingSet c rest truth (max largest current)

def referenceWorkingSetBytes (c : RetentionProgramCase) : Except PyError Nat := do
  let truth ← initialTruth c
  let largest ← largestWorkingSet c (instants c.events) truth 0
  raiseIf (largest = 0)
    (PyError.valueError "ground-truth reference working set must be positive")
  return largest

end WorkingSet

end Cadi.Retention
