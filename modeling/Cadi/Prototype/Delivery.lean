import Mathlib
import Cadi.Library.Checked
import Cadi.Library.Runs

namespace Cadi.Prototype
open Library
set_option autoImplicit true

inductive DeliveryAction where
  | deliver | delay | duplicate | reorder | drop | lateDeliver
deriving DecidableEq

def DeliveryAction.value : DeliveryAction → String
  | .deliver => "DELIVER"
  | .delay => "DELAY"
  | .duplicate => "DUPLICATE"
  | .reorder => "REORDER"
  | .drop => "DROP"
  | .lateDeliver => "LATE_DELIVER"

def DeliveryAction.all : List DeliveryAction :=
  [.deliver, .delay, .duplicate, .reorder, .drop, .lateDeliver]

inductive DeliveryError where
  | notAnAction (text : String)
  | valueError (message : String)
  | queueCapacityError (message : String)
deriving DecidableEq

structure DeliveryScheduler where
  capacity : Int
  script : List DeliveryAction
  cursor : Nat
  delayed : List ByteArray
  late : List ByteArray
  reorderHeld : Option ByteArray
  dropped : Nat

abbrev Scheduling := EStateM DeliveryError DeliveryScheduler

section Construction

/-- The member of the enumeration that has the text as its value. -/
def deliveryAction (text : String) : Except DeliveryError DeliveryAction :=
  match DeliveryAction.all.find? (·.value = text) with
  | some action => .ok action
  | none => .error (.notAnAction text)

/-- REORDER directives come in consecutive pairs; the flag says that the second is due. -/
def checkPairs : Bool → List DeliveryAction → Except DeliveryError Unit
  | expecting, [] =>
    raiseIf (expecting = true) (.valueError "REORDER directives must appear in consecutive pairs")
  | expecting, .reorder :: script => checkPairs (!expecting) script
  | expecting, _ :: script => do
    raiseIf (expecting = true) (.valueError "REORDER directives must appear in consecutive pairs")
    checkPairs expecting script

def DeliveryScheduler.init (script : List String) (capacity : Int) :
    Except DeliveryError DeliveryScheduler := do
  raiseIf (capacity ≤ 0) (.valueError "capacity must be a positive integer")
  let actions ← script.mapM deliveryAction
  checkPairs false actions
  return {
    capacity := capacity
    script := actions
    cursor := 0
    delayed := []
    late := []
    reorderHeld := none
    dropped := 0 }

end Construction

namespace DeliveryScheduler

section Calls

def pendingCount (d : DeliveryScheduler) : Nat :=
  d.delayed.length + d.late.length + if d.reorderHeld.isSome then 1 else 0

def scriptConsumed (d : DeliveryScheduler) : Nat := d.cursor

def reserve : Scheduling PUnit := do
  let d ← get
  liftM (raiseIf (d.capacity ≤ d.pendingCount)
    (DeliveryError.queueCapacityError "bounded delivery queue is full"))

def nextAction : Scheduling DeliveryAction := do
  let d ← get
  match d.script[d.cursor]? with
  | none => return .deliver
  | some action =>
    set { d with cursor := d.cursor + 1 }
    return action

def submit (frame : ByteArray) : Scheduling (List ByteArray) := do
  liftM (raiseIf (frame.size = 0)
    (DeliveryError.valueError "scheduled frame must be non-empty bytes"))
  let action ← nextAction
  match action with
  | .deliver => return [frame]
  | .duplicate => return [frame, frame]
  | .drop =>
    modify fun d => { d with dropped := d.dropped + 1 }
    return []
  | .delay =>
    reserve
    modify fun d => { d with delayed := d.delayed ++ [frame] }
    return []
  | .lateDeliver =>
    reserve
    modify fun d => { d with late := d.late ++ [frame] }
    return []
  | .reorder =>
    let d ← get
    match d.reorderHeld with
    | none =>
      reserve
      modify fun d => { d with reorderHeld := some frame }
      return []
    | some held =>
      modify fun d => { d with reorderHeld := none }
      return [frame, held]

def flushDelayed : Scheduling (List ByteArray) :=
  modifyGet fun d => (d.delayed, { d with delayed := [] })

def flushLate : Scheduling (List ByteArray) :=
  modifyGet fun d => (d.late, { d with late := [] })

end Calls

section Submission
variable (d : DeliveryScheduler) (frame : ByteArray)

/-- The directive that the next submission consumes. -/
def directive : DeliveryAction := d.script[d.cursor]?.getD .deliver

/-- The scheduler after its next directive is consumed. -/
def advanced : DeliveryScheduler :=
  { d with cursor := if d.cursor < d.script.length then d.cursor + 1 else d.cursor }

/-- The frames that wait in the scheduler. -/
def pending : List ByteArray := d.delayed ++ d.late ++ d.reorderHeld.toList

def Full : Prop := d.capacity ≤ d.pendingCount

instance : Decidable d.Full := inferInstanceAs (Decidable (_ ≤ _))

def queueFull : DeliveryError := .queueCapacityError "bounded delivery queue is full"

/-- How often a directive has its frame emitted. -/
def copies : DeliveryAction → Nat
  | .duplicate => 2
  | .drop => 0
  | _ => 1

variable {d frame}

theorem pendingCount_eq : d.pendingCount = d.pending.length := by
  rw [pendingCount, pending, List.length_append, List.length_append]
  cases d.reorderHeld <;> rfl

theorem nextAction_apply : nextAction d = .ok d.directive d.advanced := by
  rw [nextAction, get_bind_apply, directive, advanced]
  by_cases h : d.cursor < d.script.length
  · rw [List.getElem?_eq_getElem h, if_pos h]
    rfl
  · rw [List.getElem?_eq_none (Nat.le_of_not_lt h), if_neg h]
    rfl

theorem reserve_apply : reserve d = if d.Full then .error queueFull d else .ok ⟨⟩ d := by
  rw [reserve, get_bind_apply]
  split
  · next h => exact lift_eq_error.mpr ⟨raiseIf_eq_error.mpr ⟨h, rfl⟩, rfl⟩
  · next h => exact lift_eq_ok.mpr ⟨raiseIf_eq_ok.mpr h, rfl⟩

@[simp] theorem advanced_reorderHeld : d.advanced.reorderHeld = d.reorderHeld := rfl

@[simp] theorem advanced_pending : d.advanced.pending = d.pending := rfl

@[simp] theorem advanced_full : d.advanced.Full ↔ d.Full := Iff.rfl

/-- The frame waits in the reorder slot after a submission. -/
def slotAfter (d : DeliveryScheduler) (frame : ByteArray) : Option ByteArray :=
  if d.directive = .reorder then
    if d.reorderHeld.isSome ∨ d.Full then none else some frame
  else d.reorderHeld

/-- What a submission makes of the scheduler, whether it returns or is refused. -/
structure Took (d : DeliveryScheduler) (frame : ByteArray) (d' : DeliveryScheduler) : Prop where
  capacity : d'.capacity = d.capacity
  script : d'.script = d.script
  cursor : d'.cursor = d.advanced.cursor
  slot : d'.reorderHeld = d.slotAfter frame
  bounded : d.pendingCount ≤ d.capacity → d'.pendingCount ≤ d.capacity

/-- The outcomes of a submission: its copies are emitted or wait, or it is refused. -/
inductive Outcome (d : DeliveryScheduler) (frame : ByteArray) :
    EStateM.Result DeliveryError DeliveryScheduler (List ByteArray) → Prop where
  | accepted : Took d frame d' →
    (sent ++ d'.pending).Perm (List.replicate (copies d.directive) frame ++ d.pending) →
    Outcome d frame (.ok sent d')
  | refused : d.Full → Took d frame d.advanced → Outcome d frame (.error queueFull d.advanced)

theorem Took.advanced (h : d.slotAfter frame = d.reorderHeld) : Took d frame d.advanced :=
  ⟨rfl, rfl, rfl, h.symm, id⟩

theorem slotAfter_of_ne (haction : d.directive = action) (hne : action ≠ .reorder) :
    d.slotAfter frame = d.reorderHeld := if_neg (haction ▸ hne)

/-- A frame joins one of the queues where there is room, and is refused when the scheduler is full. -/
theorem Outcome.of_reserve {f : DeliveryScheduler → DeliveryScheduler}
    (hcopies : copies d.directive = 1) (hcapacity : (f d.advanced).capacity = d.capacity)
    (hscript : (f d.advanced).script = d.script)
    (hcursor : (f d.advanced).cursor = d.advanced.cursor)
    (hfull : d.Full → d.slotAfter frame = d.reorderHeld)
    (hslot : ¬ d.Full → (f d.advanced).reorderHeld = d.slotAfter frame)
    (hperm : (f d.advanced).pending.Perm (frame :: d.pending)) :
    Outcome d frame ((do
      reserve
      modify f
      return [] : Scheduling (List ByteArray)) d.advanced) := by
  by_cases h : d.Full
  · rw [error_bind_apply (by rw [reserve_apply, if_pos (advanced_full.mpr h)])]
    exact .refused h (.advanced (hfull h))
  · rw [ok_bind_apply (by rw [reserve_apply, if_neg (mt advanced_full.mp h)])]
    have hlength : (f d.advanced).pendingCount = d.pendingCount + 1 := by
      rw [pendingCount_eq, hperm.length_eq, pendingCount_eq, List.length_cons]
    have hbounded : (f d.advanced).pendingCount ≤ d.capacity := by
      rw [Full] at h
      omega
    apply Outcome.accepted ⟨hcapacity, hscript, hcursor, hslot h, fun _ => hbounded⟩
    rw [hcopies]
    exact hperm

/-- Every submission of a frame emits or keeps the copies that its directive asks for, or is refused
by a full queue after the directive is consumed. -/
theorem submit_outcome (hframe : frame.size ≠ 0) : Outcome d frame (submit frame d) := by
  have hcheck : raiseIf (frame.size = 0)
      (DeliveryError.valueError "scheduled frame must be non-empty bytes") = .ok ⟨⟩ :=
    raiseIf_eq_ok.mpr hframe
  rw [submit, ok_bind_apply (lift_eq_ok.mpr ⟨hcheck, rfl⟩), ok_bind_apply nextAction_apply]
  cases haction : d.directive with
  | deliver | duplicate =>
    apply Outcome.accepted (.advanced (slotAfter_of_ne haction (by decide)))
    rw [haction]
    exact .refl _
  | drop =>
    have hslot : d.slotAfter frame = d.reorderHeld := slotAfter_of_ne haction (by decide)
    have htook : Took d frame { d.advanced with dropped := d.advanced.dropped + 1 } :=
      ⟨rfl, rfl, rfl, hslot.symm, id⟩
    apply Outcome.accepted htook
    rw [haction]
    exact .refl _
  | delay =>
    have hslot : d.slotAfter frame = d.reorderHeld := slotAfter_of_ne haction (by decide)
    apply Outcome.of_reserve (f := fun d => { d with delayed := d.delayed ++ [frame] })
      (by rw [haction]; rfl) rfl rfl rfl (fun _ => hslot) (fun _ => hslot.symm)
    change (d.delayed ++ [frame] ++ d.late ++ d.reorderHeld.toList).Perm _
    rw [List.append_assoc, List.append_assoc]
    exact List.perm_middle.trans (by rw [pending, List.append_assoc]; exact .refl _)
  | lateDeliver =>
    have hslot : d.slotAfter frame = d.reorderHeld := slotAfter_of_ne haction (by decide)
    apply Outcome.of_reserve (f := fun d => { d with late := d.late ++ [frame] })
      (by rw [haction]; rfl) rfl rfl rfl (fun _ => hslot) (fun _ => hslot.symm)
    change (d.delayed ++ (d.late ++ [frame]) ++ d.reorderHeld.toList).Perm _
    rw [← List.append_assoc, List.append_assoc]
    exact List.perm_middle
  | reorder =>
    dsimp only
    rw [get_bind_apply, advanced_reorderHeld]
    cases hheld : d.reorderHeld with
    | none =>
      have hslot : d.slotAfter frame = if d.Full then none else some frame := by
        rw [slotAfter, if_pos haction, hheld]
        simp only [Option.isSome_none, Bool.false_eq_true, false_or]
      apply Outcome.of_reserve (f := fun d => { d with reorderHeld := some frame })
        (by rw [haction]; rfl) rfl rfl rfl
      · intro hfull
        rw [hslot, if_pos hfull, hheld]
      · intro hroom
        rw [hslot, if_neg hroom]
      · change (d.delayed ++ d.late ++ [frame]).Perm _
        rw [pending, hheld, Option.toList_none, List.append_nil]
        exact List.perm_append_singleton _ _
    | some held =>
      have hslot : d.slotAfter frame = none := by
        rw [slotAfter, if_pos haction, hheld]
        rfl
      have htook : Took d frame { d.advanced with reorderHeld := none } := by
        refine ⟨rfl, rfl, rfl, hslot.symm, fun hbounded => ?_⟩
        rw [pendingCount, hheld] at hbounded
        change ((d.delayed.length + d.late.length + 0 : Nat) : Int) ≤ d.capacity
        omega
      apply Outcome.accepted htook
      have hpending : d.pending = d.delayed ++ d.late ++ [held] := by
        rw [pending, hheld]
        rfl
      rw [haction, hpending]
      change (frame :: held :: (d.delayed ++ d.late ++ [])).Perm (frame :: (d.delayed ++ d.late ++ [held]))
      rw [List.append_nil]
      exact (List.perm_append_singleton held _).symm.cons frame

end Submission

section Script
variable {d d' : DeliveryScheduler}

/-- How many REORDER directives the submissions have consumed. -/
def reordersConsumed (d : DeliveryScheduler) : Nat := (d.script.take d.cursor).count .reorder

theorem reordersConsumed_advanced :
    d.advanced.reordersConsumed = d.reordersConsumed + if d.directive = .reorder then 1 else 0 := by
  rw [reordersConsumed, reordersConsumed, directive, advanced]
  by_cases h : d.cursor < d.script.length
  · simp only [if_pos h, List.take_add_one, List.getElem?_eq_getElem h, List.count_append,
      Option.toList_some, List.count_singleton, Option.getD_some, beq_iff_eq]
  · simp only [if_neg h, List.getElem?_eq_none (Nat.le_of_not_lt h), Option.getD_none, reduceCtorEq,
      ↓reduceIte, Nat.add_zero]

theorem checkPairs_even {script : List DeliveryAction} (h : checkPairs expecting script = .ok ⟨⟩) :
    Even (script.count .reorder) ↔ expecting = false := by
  induction script generalizing expecting with
  | nil =>
    have hnone := raiseIf_eq_ok.mp h
    rw [Bool.not_eq_true] at hnone
    simp only [List.count_nil, Even.zero, hnone]
  | cons action script ih =>
    cases action with
    | reorder =>
      rw [List.count_cons_self, Nat.even_add_one, ih h, Bool.not_eq_false', Bool.not_eq_true]
    | deliver | delay | duplicate | drop | lateDeliver =>
      obtain ⟨_, hrest⟩ := Except.then_eq_ok.mp h
      rw [List.count_cons_of_ne (by decide), ih hrest]

theorem init_eq_ok {script : List String} {capacity : Int} (h : init script capacity = .ok d) :
    0 < capacity ∧ d.capacity = capacity ∧ d.pending = [] ∧ d.cursor = 0 ∧
      Even (d.script.count .reorder) := by
  rw [init, Except.then_eq_ok, raiseIf_eq_ok, Except.bind_eq_ok] at h
  obtain ⟨hcapacity, actions, _, h⟩ := h
  obtain ⟨hpairs, h⟩ := Except.then_eq_ok.mp h
  cases h
  exact ⟨Int.not_le.mp hcapacity, rfl, rfl, rfl, (checkPairs_even hpairs).mpr rfl⟩

end Script

end DeliveryScheduler

section Sessions

/-- A frame that was submitted, the directive that it consumed, and whether a full queue refused it. -/
structure Submission where
  frame : ByteArray
  action : DeliveryAction
  refused : Bool

/-- The frames that a submission is to have emitted. -/
def Submission.owed (r : Submission) : List ByteArray :=
  if r.refused then [] else List.replicate (DeliveryScheduler.copies r.action) r.frame

/-- A scheduler with what it has emitted and the submissions so far. -/
structure Session where
  scheduler : DeliveryScheduler
  emitted : List ByteArray
  submissions : List Submission

inductive Call where
  | submit (frame : ByteArray)
  | flushDelayed
  | flushLate
deriving DecidableEq

def Session.flush (s : Session) (flush : Scheduling (List ByteArray)) : Session :=
  match flush s.scheduler with
  | .ok frames d => { s with scheduler := d, emitted := s.emitted ++ frames }
  | .error _ d => { s with scheduler := d }

/-- The caller goes on after a submission that raises. -/
def Session.call (s : Session) : Call → Session
  | .submit frame =>
    let action := s.scheduler.directive
    match DeliveryScheduler.submit frame s.scheduler with
    | .ok frames d => ⟨d, s.emitted ++ frames, s.submissions ++ [⟨frame, action, false⟩]⟩
    | .error (.queueCapacityError _) d => ⟨d, s.emitted, s.submissions ++ [⟨frame, action, true⟩]⟩
    | .error _ d => { s with scheduler := d }
  | .flushDelayed => s.flush DeliveryScheduler.flushDelayed
  | .flushLate => s.flush DeliveryScheduler.flushLate

def Session.start (d : DeliveryScheduler) : Session := ⟨d, [], []⟩

def owedBy (submissions : List Submission) : List ByteArray :=
  submissions.flatMap Submission.owed

/-- Nothing is lost: what is owed was emitted or waits, within the capacity. -/
structure Session.Accounted (script : List DeliveryAction) (capacity : Int) (s : Session) : Prop where
  scripted : s.scheduler.script = script
  sized : s.scheduler.capacity = capacity
  bounded : s.scheduler.pendingCount ≤ capacity
  owed : (s.emitted ++ s.scheduler.pending).Perm (owedBy s.submissions)

variable {s : Session} {frame : ByteArray}

theorem Session.call_flushDelayed : s.call .flushDelayed =
    ⟨{ s.scheduler with delayed := [] }, s.emitted ++ s.scheduler.delayed, s.submissions⟩ := rfl

theorem Session.call_flushLate : s.call .flushLate =
    ⟨{ s.scheduler with late := [] }, s.emitted ++ s.scheduler.late, s.submissions⟩ := rfl

theorem Session.call_empty (hframe : frame.size = 0) : s.call (.submit frame) = s := by
  have hsubmit : DeliveryScheduler.submit frame s.scheduler =
      .error (.valueError "scheduled frame must be non-empty bytes") s.scheduler :=
    error_bind_apply (lift_eq_error.mpr ⟨raiseIf_eq_error.mpr ⟨hframe, rfl⟩, rfl⟩)
  rw [call, hsubmit]

theorem Session.call_submit (hframe : frame.size ≠ 0) : ∃ d' sent refused,
    s.call (.submit frame) =
      ⟨d', s.emitted ++ sent, s.submissions ++ [⟨frame, s.scheduler.directive, refused⟩]⟩ ∧
    s.scheduler.Took frame d' ∧
    (sent ++ d'.pending).Perm
      ((⟨frame, s.scheduler.directive, refused⟩ : Submission).owed ++ s.scheduler.pending) := by
  have houtcome := DeliveryScheduler.submit_outcome (d := s.scheduler) hframe
  rw [call]
  cases hresult : DeliveryScheduler.submit frame s.scheduler with
  | ok sent d' =>
    rw [hresult] at houtcome
    cases houtcome with
    | accepted htook hperm => exact ⟨d', sent, false, rfl, htook, hperm⟩
  | error e d' =>
    rw [hresult] at houtcome
    cases houtcome with
    | refused _ htook =>
      refine ⟨_, [], true, ?_, htook, .refl _⟩
      rw [DeliveryScheduler.queueFull, List.append_nil]

theorem owedBy_append (submissions : List Submission) (r : Submission) :
    owedBy (submissions ++ [r]) = owedBy submissions ++ r.owed := by
  rw [owedBy, owedBy, List.flatMap_append, List.flatMap_singleton]

variable {script : List DeliveryAction} {capacity : Int}

theorem Session.Accounted.call (h : s.Accounted script capacity) (c : Call) :
    (s.call c).Accounted script capacity := by
  cases c with
  | submit frame =>
    by_cases hframe : frame.size = 0
    · rw [call_empty hframe]
      exact h
    · obtain ⟨d', sent, refused, hcall, htook, hperm⟩ := call_submit (s := s) hframe
      rw [hcall]
      refine ⟨htook.script.trans h.scripted, htook.capacity.trans h.sized, ?_, ?_⟩
      · rw [← h.sized]
        exact htook.bounded (h.sized ▸ h.bounded)
      · rw [owedBy_append, List.append_assoc]
        apply (hperm.append_left s.emitted).trans
        apply (List.perm_append_comm.append_left s.emitted).trans
        rw [← List.append_assoc]
        exact h.owed.append_right _
  | flushDelayed =>
    have hbounded := h.bounded
    rw [call_flushDelayed]
    refine ⟨h.scripted, h.sized, ?_, ?_⟩
    · simp only [DeliveryScheduler.pendingCount, List.length_nil] at hbounded ⊢
      omega
    · apply List.Perm.trans _ h.owed
      simp only [DeliveryScheduler.pending, List.nil_append, List.append_assoc, List.Perm.refl]
  | flushLate =>
    have hbounded := h.bounded
    rw [call_flushLate]
    refine ⟨h.scripted, h.sized, ?_, ?_⟩
    · simp only [DeliveryScheduler.pendingCount, List.length_nil] at hbounded ⊢
      omega
    · apply List.Perm.trans _ h.owed
      simp only [DeliveryScheduler.pending, List.append_nil, List.append_assoc]
      exact (List.perm_append_comm_assoc _ _ _).append_left _

/-- Between the pairs of REORDER directives no frame is held. -/
def Paired (s : Session) : Prop :=
  Even s.scheduler.reordersConsumed → s.scheduler.reorderHeld = none

/-- A submission that consumes the second directive of a pair finds the frame of the first, or the
scheduler full. -/
def PairSettled (s : Session) (c : Call) : Prop :=
  ∀ frame, c = .submit frame → frame.size ≠ 0 → s.scheduler.directive = .reorder →
    ¬ Even s.scheduler.reordersConsumed → s.scheduler.reorderHeld ≠ none ∨ s.scheduler.Full

/-- A call leaves no frame held between the pairs exactly when it settles the pair. -/
theorem paired_call (hs : Paired s) (c : Call) : Paired (s.call c) ↔ PairSettled s c := by
  cases c with
  | submit frame =>
    by_cases hframe : frame.size = 0
    · rw [Session.call_empty hframe]
      refine iff_of_true hs ?_
      rintro _ ⟨⟩ hne
      exact absurd hframe hne
    · obtain ⟨d', sent, refused, hcall, htook, _⟩ := Session.call_submit (s := s) hframe
      have hconsumed : d'.reordersConsumed = s.scheduler.advanced.reordersConsumed := by
        rw [DeliveryScheduler.reordersConsumed, htook.script, htook.cursor]
        rfl
      rw [hcall, Paired, hconsumed, DeliveryScheduler.reordersConsumed_advanced, htook.slot,
        DeliveryScheduler.slotAfter]
      by_cases hreorder : s.scheduler.directive = .reorder
      · simp only [if_pos hreorder, Nat.even_add_one, ite_eq_left_iff, reduceCtorEq, imp_false,
          not_not]
        constructor
        · intro h _ _ _ _ hodd
          exact (h hodd).imp_left Option.isSome_iff_ne_none.mp
        · intro h hodd
          exact (h frame rfl hframe hreorder hodd).imp_left Option.isSome_iff_ne_none.mpr
      · simp only [if_neg hreorder, Nat.add_zero]
        exact iff_of_true hs fun _ _ _ h => absurd h hreorder
  | flushDelayed | flushLate => exact iff_of_true hs fun _ hc => by cases hc

/-- What the scheduler promises over a run of calls. -/
structure Delivers (d : DeliveryScheduler) (capacity : Int) (calls : List Call) : Prop where
  bounded : Throughout Session.call (fun s => s.scheduler.pendingCount ≤ capacity) (.start d) calls
  paired : Throughout Session.call Paired (.start d) calls
  delivered : ∀ s flushes, run Session.call (.start d) calls = s →
    s.scheduler.scriptConsumed = s.scheduler.script.length →
    flushes = [.flushDelayed, .flushLate] ∨ flushes = [.flushLate, .flushDelayed] →
    (run Session.call s flushes).emitted.Perm (owedBy s.submissions)

theorem emitted_flushed (s : Session)
    (h : flushes = [.flushDelayed, .flushLate] ∨ flushes = [.flushLate, .flushDelayed]) :
    (run Session.call s flushes).scheduler.pending = s.scheduler.reorderHeld.toList ∧
      (run Session.call s flushes).submissions = s.submissions := by
  rcases h with rfl | rfl
  · exact ⟨rfl, rfl⟩
  · exact ⟨rfl, rfl⟩

theorem run_accounted (h : s.Accounted script capacity) (calls : List Call) :
    (run Session.call s calls).Accounted script capacity :=
  invariant_run (A := fun _ _ => True) h (fun _ c hs _ => hs.call c) (.trivial (fun _ _ => True.intro) _ _)

theorem start_accounted (h : DeliveryScheduler.init texts capacity = .ok d) :
    (Session.start d).Accounted d.script capacity := by
  obtain ⟨hpositive, hcapacity, hpending, _⟩ := DeliveryScheduler.init_eq_ok h
  refine ⟨rfl, hcapacity, ?_, ?_⟩
  · change (d.pendingCount : Int) ≤ capacity
    rw [DeliveryScheduler.pendingCount_eq, hpending]
    exact Int.le_of_lt hpositive
  · change ([] ++ d.pending).Perm []
    rw [hpending, List.nil_append]

/-- The scheduler keeps its promises over exactly the runs in which every second directive of a pair
finds the frame of the first, or the scheduler full. -/
theorem delivers_iff (h : DeliveryScheduler.init texts capacity = .ok d) (calls : List Call) :
    Delivers d capacity calls ↔ Along Session.call PairSettled (.start d) calls := by
  obtain ⟨_, _, hpending, hcursor, heven⟩ := DeliveryScheduler.init_eq_ok h
  have haccounted := start_accounted h
  have hstart : Paired (.start d) := by
    intro _
    exact Option.toList_eq_nil_iff.mp (List.append_eq_nil_iff.mp hpending).2
  rw [← throughout_iff_along hstart fun s c hs => paired_call hs c]
  constructor
  · exact Delivers.paired
  · intro hpaired
    refine ⟨?_, hpaired, ?_⟩
    · have hthroughout : Throughout Session.call (·.Accounted d.script capacity) (.start d) calls :=
        invariant_throughout (A := fun _ _ => True) haccounted (fun _ c hs _ => hs.call c)
          (.trivial (fun _ _ => True.intro) _ _)
      exact hthroughout.mono fun _ hs => hs.bounded
    · rintro s flushes rfl hconsumed hflushes
      have hs := run_accounted haccounted calls
      have hnone : (run Session.call (.start d) calls).scheduler.reorderHeld = none := by
        apply hpaired.last
        rw [DeliveryScheduler.reordersConsumed, ← DeliveryScheduler.scriptConsumed, hconsumed,
          List.take_length, hs.scripted]
        exact heven
      obtain ⟨hleft, hsame⟩ := emitted_flushed (run Session.call (.start d) calls) hflushes
      have howed := (run_accounted hs flushes).owed
      rw [hleft, hnone, Option.toList_none, List.append_nil, hsame] at howed
      exact howed

def frameOf (byte : UInt8) : ByteArray := [byte].toByteArray

/-- A pair of directives swaps its two frames. -/
theorem pair_delivers : ∃ d, DeliveryScheduler.init ["REORDER", "REORDER"] 4 = .ok d ∧
    Delivers d 4 [.submit (frameOf 1), .submit (frameOf 2)] := by
  have hinit : DeliveryScheduler.init ["REORDER", "REORDER"] 4 =
      .ok ⟨4, [.reorder, .reorder], 0, [], [], none, 0⟩ := rfl
  refine ⟨_, hinit, (delivers_iff hinit _).mpr ⟨?_, ?_, True.intro⟩⟩
  · intro _ _ _ _ hodd
    exact absurd Even.zero hodd
  · intro _ _ _ _ _
    exact .inl (Option.some_ne_none (frameOf 1))

/-- The first frame of the pair is refused while a delayed one fills the scheduler, and the second
is held for a third that never comes. -/
theorem refused_pair_strands : ∃ d, DeliveryScheduler.init ["DELAY", "REORDER", "REORDER"] 1 = .ok d ∧
    let calls := [.submit (frameOf 1), .submit (frameOf 2), .flushDelayed, .submit (frameOf 3)]
    let s := run Session.call (.start d) calls
    s.scheduler.scriptConsumed = s.scheduler.script.length ∧ s.scheduler.reordersConsumed = 2 ∧
      s.scheduler.reorderHeld = some (frameOf 3) ∧ owedBy s.submissions = [frameOf 1, frameOf 3] ∧
      (run Session.call s [.flushDelayed, .flushLate]).emitted = [frameOf 1] ∧
      ¬ Delivers d 1 calls := by
  have hinit : DeliveryScheduler.init ["DELAY", "REORDER", "REORDER"] 1 =
      .ok ⟨1, [.delay, .reorder, .reorder], 0, [], [], none, 0⟩ := rfl
  refine ⟨_, hinit, rfl, rfl, rfl, rfl, rfl, ?_⟩
  intro h
  have hheld := h.paired.last ⟨1, rfl⟩
  cases hheld

end Sessions

end Cadi.Prototype
