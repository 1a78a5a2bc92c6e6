import Cadi.Entities
import Cadi.Library.Time
import Cadi.Library.Checked
import Mathlib.Data.List.Sort
import Mathlib.Data.String.Basic

namespace Cadi
open Library
set_option autoImplicit true

inductive EventKind where
  | requestCreated | attemptStarted | attemptTimeout | attemptCompleted | attemptFailed
  | retryStarted | lateResult
  | stateCreated | stateMaterializationStarted | stateMaterialized | stateTransferStarted
  | stateTransferCompleted | stateTransferFailed | stateMoved | stateEvicted | stateLost
  | migrationStarted | migrationCommitted | migrationFailed
  | workerFailed | workerRecovered | workerTaskEnqueued | workerTaskCompleted | workerTaskFailed
  | observationCreated | observationDelayed | observationDropped | observationDuplicated
  | toolWaitStarted | toolReturned | continuationForked | continuationJoined
  | continuationAbandoned | continuationTerminated
deriving DecidableEq

/-- A value a caller may put into a payload; the last is of a type that is not supported. -/
inductive PayloadValue where
  | none
  | bool (b : Bool)
  | num (n : Number)
  | str (s : String)
  | tuple (items : List PayloadValue)
  | list (items : List PayloadValue)
  | mapping (items : List (PayloadValue × PayloadValue))
  | other (typeName : String)

/-- A payload value after freezing. -/
inductive Frozen where
  | none
  | bool (b : Bool)
  | num (n : Number)
  | str (s : String)
  | tuple (items : List Frozen)

mutual

def Frozen.decEq : (a b : Frozen) → Decidable (a = b)
  | .none, .none => isTrue rfl
  | .bool a, .bool b => decidable_of_iff (a = b) (by rw [Frozen.bool.injEq])
  | .num a, .num b => decidable_of_iff (a = b) (by rw [Frozen.num.injEq])
  | .str a, .str b => decidable_of_iff (a = b) (by rw [Frozen.str.injEq])
  | .tuple as, .tuple bs =>
    match Frozen.decEqs as bs with
    | isTrue h => isTrue (congrArg Frozen.tuple h)
    | isFalse h => isFalse fun he => h (Frozen.tuple.inj he)
  | .none, .bool _ | .none, .num _ | .none, .str _ | .none, .tuple _
  | .bool _, .none | .bool _, .num _ | .bool _, .str _ | .bool _, .tuple _
  | .num _, .none | .num _, .bool _ | .num _, .str _ | .num _, .tuple _
  | .str _, .none | .str _, .bool _ | .str _, .num _ | .str _, .tuple _
  | .tuple _, .none | .tuple _, .bool _ | .tuple _, .num _ | .tuple _, .str _ => isFalse nofun

def Frozen.decEqs : (as bs : List Frozen) → Decidable (as = bs)
  | [], [] => isTrue rfl
  | [], _ :: _ | _ :: _, [] => isFalse nofun
  | a :: as, b :: bs =>
    match Frozen.decEq a b, Frozen.decEqs as bs with
    | isTrue h, isTrue hs => isTrue (congrArg₂ List.cons h hs)
    | isFalse h, _ => isFalse fun he => h (List.cons.inj he).1
    | _, isFalse hs => isFalse fun he => hs (List.cons.inj he).2

end

instance : DecidableEq Frozen := Frozen.decEq

/-- A frozen payload: its items in the order of their keys. -/
abbrev Payload := List (String × Frozen)

def sortItems (items : List (String × Frozen)) : Payload :=
  items.insertionSort fun a b => a.1 ≤ b.1

def freezeKey : PayloadValue → Except PyError String
  | .str s => .ok s
  | _ => .error (.typeError "event payload mapping keys must be strings")

mutual

def freezeValue : PayloadValue → Except PyError Frozen
  | .none => .ok .none
  | .bool b => .ok (.bool b)
  | .num (.int z) => .ok (.num (.int z))
  | .num (.float x) =>
    if x.isFinite then .ok (.num (.float x))
    else .error (.valueError "event payload floats must be finite")
  | .str s => .ok (.str s)
  | .tuple items | .list items => do
    let frozen ← freezeValues items
    return .tuple frozen
  | .mapping items => do
    let frozen ← freezeItems items
    return .tuple ((sortItems frozen).map fun item => .tuple [.str item.1, item.2])
  | .other typeName => .error (.typeError s!"unsupported event payload value: {typeName}")

def freezeValues : List PayloadValue → Except PyError (List Frozen)
  | [] => .ok []
  | v :: vs => do
    let frozen ← freezeValue v
    let rest ← freezeValues vs
    return frozen :: rest

def freezeItems : List (PayloadValue × PayloadValue) → Except PyError (List (String × Frozen))
  | [] => .ok []
  | (k, v) :: items => do
    let key ← freezeKey k
    let frozen ← freezeValue v
    let rest ← freezeItems items
    return (key, frozen) :: rest

end

def freezePayload : Option PayloadValue → Except PyError Payload
  | none => .ok []
  | some (.mapping items) => do
    let frozen ← freezeItems items
    return sortItems frozen
  | some _ => .error (.typeError "event payload must be a string-keyed mapping")

/-- A payload as callers of the library write it. -/
def payloadOf (items : List (String × PayloadValue)) : Option PayloadValue :=
  some (.mapping (items.map fun item => (.str item.1, item.2)))

structure SimEvent where
  time : Time
  sequence : Nat
  eventId : String
  kind : EventKind
  payload : Payload := []
deriving DecidableEq

/-- Events are ordered by logical time and then by insertion. -/
def SimEvent.Before (a b : SimEvent) : Prop :=
  a.time < b.time ∨ a.time.units = b.time.units ∧ a.sequence < b.sequence

instance (a b : SimEvent) : Decidable (a.Before b) := inferInstanceAs (Decidable (_ ∨ _))

namespace SimEvent
variable {a b c : SimEvent}

theorem Before.trans (h : a.Before b) (h' : b.Before c) : a.Before c := by
  simp only [Before, Time.lt_iff] at h h' ⊢
  omega

theorem Before.irrefl (a : SimEvent) : ¬ a.Before a := by
  simp only [Before, Time.lt_iff]
  omega

theorem Before.time_le (h : a.Before b) : a.time ≤ b.time := by
  simp only [Before, Time.lt_iff] at h
  rw [Time.le_iff]
  omega

/-- Of two events inserted one after the other, the one that is not later comes first. -/
theorem Before.of_sequence (h : a.sequence < b.sequence) (hn : ¬ b.Before a) : a.Before b := by
  simp only [Before, Time.lt_iff] at hn ⊢
  omega

theorem Before.of_time (h : a.time ≤ b.time) (hs : a.sequence < b.sequence) : a.Before b := by
  simp only [Before, Time.lt_iff]
  rw [Time.le_iff] at h
  omega

end SimEvent

/-- The conversion of a numeric argument to a finite time that is not below zero. -/
def finiteNonnegative (value : Number) (name : String) : Except PyError Time :=
  match value.toFloat with
  | none => .error (.overflowError "int too large to convert to float")
  | some x =>
    if x.isFinite = false then .error (.valueError s!"{name} must be finite")
    else match Time.ofBinary64 x with
      | some t => .ok t
      | none => .error (.valueError s!"{name} must be non-negative")

end Cadi
