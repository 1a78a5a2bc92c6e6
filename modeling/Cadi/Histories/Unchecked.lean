import Cadi.Histories.Reachable
import Cadi.Library.Paired

namespace Cadi
open Library
set_option autoImplicit true

/-- What a caller can pass where a lifecycle is annotated, which nothing checks: a member, or a
value without a hash, such as a list. -/
inductive LifecycleArgument where
  | member (lifecycle : ContinuationLifecycle)
  | unhashable (typeName : String)
deriving DecidableEq

/-- A core some continuations of which hold a value without a hash in place of a lifecycle. -/
structure UncheckedCore where
  core : ContinuityCore
  unhashable : Dict String String := ∅
deriving DecidableEq

abbrev UncheckedM := Stateful PyError UncheckedCore

/-- An operation of the core, run where nothing it stores lacks a hash. -/
def UncheckedM.ofCore (x : CoreM α) : UncheckedM α := fun u =>
  match x u.core with
  | .ok a c => .ok a { u with core := c }
  | .error e c => .error e { u with core := c }

namespace UncheckedCore
variable {u : UncheckedCore} {c : ContinuityCore}

/-- The lifecycle of a continuation, looked up in a set or a dictionary. -/
def hashed (u : UncheckedCore) (ct : Continuation) : Except PyError ContinuationLifecycle :=
  match u.unhashable.get? ct.id with
  | some typeName => .error (.typeError s!"unhashable type: '{typeName}'")
  | none => .ok ct.lifecycle

/-- The core with a continuation's lifecycle replaced. -/
def hold (u : UncheckedCore) (continuationId : String) (ct : Continuation) :
    LifecycleArgument → UncheckedCore
  | .member lifecycle =>
    { core := { u.core with
        continuations := u.core.continuations.set continuationId { ct with lifecycle } }
      unhashable := u.unhashable.erase continuationId }
  | .unhashable typeName => { u with unhashable := u.unhashable.set continuationId typeName }

/-- What a continuation contributes; only those that the search reached are looked up in `rank`. -/
def contributed (u : UncheckedCore) (ct : Continuation) :
    Bool → Except PyError (Option StateLifecycle)
  | true => (u.hashed ct).map ContinuationLifecycle.rank
  | false => .ok none

def lifecycleCandidates (u : UncheckedCore) (origin : String) :
    List Continuation → Except PyError (List StateLifecycle)
  | [] => .ok []
  | ct :: cts => do
    let reached ← u.core.isAncestor origin ct.id
    let life ← u.contributed ct reached
    let rest ← u.lifecycleCandidates origin cts
    return life.toList ++ rest

def refreshState (entry : String × ReusableState) : UncheckedM Unit := do
  let u ← get
  let candidates ← u.lifecycleCandidates entry.2.originContinuationId u.core.continuations.values
  modify fun u => { u with core := { u.core with
    states := u.core.states.set entry.1
      { entry.2 with lifecycle := ContinuityCore.strongest candidates } } }

def refreshStateLifecycles : UncheckedM Unit := do
  let u ← get
  u.core.states.entries.forM refreshState

/-- The operation with whatever it is given for a lifecycle. -/
def setContinuationLifecycle (continuationId : String) (lifecycle : LifecycleArgument) :
    UncheckedM Unit := do
  let u ← get
  let ct ← item u.core.continuations continuationId
  let held ← u.hashed ct
  raiseIf (held.closed ∧ lifecycle ≠ .member held)
    (PyError.invalidTransition "terminal/abandoned Continuation cannot reactivate")
  modify fun u => u.hold continuationId ct lifecycle
  refreshStateLifecycles

section Members

/-- On a core whose continuations all hold members, `x` is the operation `y` of that core. -/
def Members (x : UncheckedM α) (y : CoreM α) : Prop :=
  ∀ c : ContinuityCore, x { core := c } = UncheckedM.ofCore y { core := c }

theorem Members.bind {x : UncheckedM α} {y : CoreM α} {f : α → UncheckedM β} {g : α → CoreM β}
    (h : Members x y) (hf : ∀ a, Members (f a) (g a)) : Members (x >>= f) (y >>= g) := by
  intro c
  change EStateM.bind x f _ = UncheckedM.ofCore (EStateM.bind y g) _
  simp only [EStateM.bind, UncheckedM.ofCore, h c]
  cases y c with
  | error e c' => rfl
  | ok a c' => exact hf a c'

theorem Members.get_bind {f : UncheckedCore → UncheckedM β} {g : ContinuityCore → CoreM β}
    (h : ∀ c, Members (f { core := c }) (g c)) : Members (get >>= f) (get >>= g) :=
  fun c => h c c

theorem Members.lift (x : Except PyError α) :
    Members (liftM x : UncheckedM α) (liftM x : CoreM α) := by
  intro c
  cases x <;> rfl

theorem Members.modify {f : UncheckedCore → UncheckedCore} {g : ContinuityCore → ContinuityCore}
    (h : ∀ c, f { core := c } = { core := g c }) : Members (modify f) (modify g) :=
  fun c => congrArg (EStateM.Result.ok PUnit.unit) (h c)

theorem Members.forM {f : α → UncheckedM Unit} {g : α → CoreM Unit} (h : ∀ a, Members (f a) (g a)) :
    (l : List α) → Members (l.forM f) (l.forM g)
  | [] => fun _ => rfl
  | a :: l => (h a).bind fun _ => forM h l

theorem lifecycleCandidates_members (origin : String) (cts : List Continuation) :
    ({ core := c } : UncheckedCore).lifecycleCandidates origin cts =
      c.lifecycleCandidates origin cts := by
  induction cts with
  | nil => rfl
  | cons ct cts ih =>
    rw [lifecycleCandidates, ContinuityCore.lifecycleCandidates, ih]
    cases c.isAncestor origin ct.id with
    | error e => rfl
    | ok reached =>
      rw [Except.ok_bind, Except.ok_bind]
      cases reached with
      | false =>
        have hnone : ({ core := c } : UncheckedCore).contributed ct false = .ok none := rfl
        rw [hnone]
        cases c.lifecycleCandidates origin cts <;> rfl
      | true =>
        have hrank : ({ core := c } : UncheckedCore).contributed ct true = .ok ct.lifecycle.rank := rfl
        rw [hrank]
        cases ct.lifecycle.rank <;> cases c.lifecycleCandidates origin cts <;> rfl

theorem refreshState_members (entry : String × ReusableState) :
    Members (refreshState entry) (Cadi.refreshState entry) := by
  refine .get_bind fun c => ?_
  rw [lifecycleCandidates_members, ContinuityCore.derivedLifecycle]
  cases c.lifecycleCandidates entry.2.originContinuationId c.continuations.values with
  | error e => exact Members.lift (.error e)
  | ok candidates => exact Members.modify fun _ => rfl

theorem refreshStateLifecycles_members : Members refreshStateLifecycles Cadi.refreshStateLifecycles :=
  .get_bind fun c => .forM refreshState_members c.states.entries

/-- With a member for a lifecycle, and on a core of members, the operation is that of the core. -/
theorem setContinuationLifecycle_members (continuationId : String)
    (lifecycle : ContinuationLifecycle) :
    Members (setContinuationLifecycle continuationId (.member lifecycle))
      (Cadi.setContinuationLifecycle continuationId lifecycle >>= fun _ => pure ⟨⟩) := by
  simp only [Cadi.setContinuationLifecycle, bind_assoc, pure_bind, bind_pure_unit]
  refine .get_bind fun c => .bind (.lift _) fun ct => ?_
  have hraise (e : PyError) :
      raiseIf (ct.lifecycle.closed ∧ LifecycleArgument.member lifecycle ≠ .member ct.lifecycle) e =
        raiseIf (ct.lifecycle.closed ∧ lifecycle ≠ ct.lifecycle) e := by
    simp only [raiseIf, ne_eq, LifecycleArgument.member.injEq]
  change Members (liftM (raiseIf (ct.lifecycle.closed ∧ LifecycleArgument.member lifecycle ≠
    .member ct.lifecycle) _) >>= _) _
  rw [hraise]
  exact .bind (.lift _) fun _ => .bind (.modify fun _ => rfl) fun _ => refreshStateLifecycles_members

end Members

/-- A list for a lifecycle is written before the refresh finds that it has no hash. -/
theorem setContinuationLifecycle_unhashable :
    ∃ u, setContinuationLifecycle "c" (.unhashable "list")
        { core := run (step defaultValidity) {} retriedRun } =
      .error (.typeError "unhashable type: 'list'") u ∧
      u ≠ { core := run (step defaultValidity) {} retriedRun } ∧
      u.unhashable.get? "c" = some "list" :=
  ⟨_, eq_error_of_outcome (by decide +kernel), by decide +kernel, by decide +kernel⟩

end UncheckedCore

end Cadi
