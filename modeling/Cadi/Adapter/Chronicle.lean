import Cadi.Adapter.Entries

namespace Cadi
open Library
set_option autoImplicit true

namespace ContinuityAdapter

/-- The fingerprint of a core whose numbers are finite. -/
def fingerprintOf (sha256 : String → String) (c : ContinuityCore) : String :=
  sha256 (String.ofList (canonical (snapshotPayload c)))

/-- A record made for an event at some time. -/
def recordOf (now : Time) (event : SimEvent) (operation : String) (outcome : AdapterOutcome)
    (resultId : Option String) (error : Option AdapterError) (fingerprint : String) :
    SemanticActionRecord where
  simTime := now
  eventId := event.eventId
  eventKind := event.kind
  operation
  outcome
  resultId
  error
  fingerprint

/-- The host with another core and one more record. -/
def recorded (h : Host ContinuityAdapter) (core : ContinuityCore) (r : SemanticActionRecord) :
    Host ContinuityAdapter :=
  { h with world := { h.world with core, records := h.world.records ++ [r] } }

@[simp] theorem recorded_core (h : Host ContinuityAdapter) (c : ContinuityCore)
    (r : SemanticActionRecord) : (recorded h c r).world.core = c := rfl

@[simp] theorem recorded_records (h : Host ContinuityAdapter) (c : ContinuityCore)
    (r : SemanticActionRecord) : (recorded h c r).world.records = h.world.records ++ [r] := rfl

@[simp] theorem recorded_history (h : Host ContinuityAdapter) (c : ContinuityCore)
    (r : SemanticActionRecord) : (recorded h c r).history = h.history := rfl

section Recording
variable {semanticValidity : SemanticValidity} {sha256 : String → String}
  {h : Host ContinuityAdapter} {c c' : ContinuityCore}

theorem snapshotFingerprint_ok (hf : FiniteNumbers c) :
    snapshotFingerprint sha256 c = .ok (fingerprintOf sha256 c) := by
  rw [snapshotFingerprint, snapshotCore_ok hf]
  rfl

theorem assertOracle_ok (hr : Ready h.world.core) :
    assertOracle semanticValidity h = .ok ⟨⟩ h :=
  lift_eq_ok.mpr ⟨(assertAll_eq_ok semanticValidity _).mpr hr.sound.oracle, rfl⟩

theorem semanticFingerprint_ok (hr : Ready h.world.core) :
    semanticFingerprint sha256 h = .ok (fingerprintOf sha256 h.world.core) h :=
  lift_eq_ok.mpr ⟨snapshotFingerprint_ok hr.numbers, rfl⟩

theorem note_ok (hr : Ready h.world.core) (event : SimEvent) (operation : String)
    (outcome : AdapterOutcome) (resultId : Option String) (error : Option AdapterError) :
    note semanticValidity sha256 event operation outcome resultId error h =
      .ok ⟨⟩ (recorded h h.world.core (recordOf h.history.sim.now event operation outcome resultId
        error (fingerprintOf sha256 h.world.core))) := by
  unfold note
  rw [ok_bind_apply (assertOracle_ok hr), ok_bind_apply (semanticFingerprint_ok hr)]
  rfl

theorem onCore_ok {method : CoreM α} (hm : method h.world.core = .ok a c') :
    onCore method h = .ok a { h with world := { h.world with core := c' } } := by
  unfold onCore
  rw [hm]

theorem onCore_error {method : CoreM α} (hm : method h.world.core = .error e c') :
    onCore method h = .error e { h with world := { h.world with core := c' } } := by
  unfold onCore
  rw [hm]

variable [Entity α] {method : CoreM α}

/-- A call that returns is recorded as applied or, where the fingerprint is the same, idempotent. -/
theorem apply_accepted (hr : Ready h.world.core) (hm : method h.world.core = .ok a c')
    (hr' : Ready c') (event : SimEvent) (operation : String) :
    apply semanticValidity sha256 event operation method h =
      .ok (some a) (recorded h c' (recordOf h.history.sim.now event operation
        (if fingerprintOf sha256 c' = fingerprintOf sha256 h.world.core then .idempotent else .applied)
        (some (Entity.id a)) none (fingerprintOf sha256 c'))) := by
  have hcall : catching PyError.rejection (onCore method) h =
      .ok (.ok a) { h with world := { h.world with core := c' } } := by
    unfold catching
    rw [onCore_ok hm]
  unfold apply
  rw [ok_bind_apply (semanticFingerprint_ok hr), ok_bind_apply hcall,
    ok_bind_apply (assertOracle_ok hr'), ok_bind_apply (semanticFingerprint_ok hr')]
  rfl

/-- A call that is rejected is recorded, and the core is the one before. -/
theorem apply_rejected (hr : Ready h.world.core) (hm : method h.world.core = .error e h.world.core)
    (he : e.rejection = true) (event : SimEvent) (operation : String) :
    apply semanticValidity sha256 event operation method h =
      .ok none (recorded h h.world.core (recordOf h.history.sim.now event operation .rejected none
        (some (.raised e)) (fingerprintOf sha256 h.world.core))) := by
  have hcall : catching PyError.rejection (onCore method) h = .ok (.error e) h := by
    unfold catching
    rw [onCore_error hm]
    exact if_pos he
  unfold apply
  rw [ok_bind_apply (semanticFingerprint_ok hr), ok_bind_apply hcall,
    ok_bind_apply (assertOracle_ok hr), ok_bind_apply (semanticFingerprint_ok hr)]
  dsimp only
  have hsame : (raiseIf (fingerprintOf sha256 h.world.core ≠ fingerprintOf sha256 h.world.core)
      (PyError.assertionError s!"rejected C1 operation '{operation}' mutated semantic state")) =
        .ok ⟨⟩ :=
    raiseIf_eq_ok.mpr fun hne => hne rfl
  rw [ok_bind_apply (lift_eq_ok.mpr ⟨hsame, rfl⟩)]
  rfl

theorem Driven.accepted (hd : Driven semanticValidity c call method) (hm : method c = .ok a c') :
    call.operation.call semanticValidity call.clock c = .ok ⟨⟩ c' := by
  rw [hd.performs]
  exact ok_bind_apply hm

theorem Driven.rejected (hd : Driven semanticValidity c call method) (hm : method c = .error e c') :
    call.operation.call semanticValidity call.clock c = .error e c' := by
  rw [hd.performs]
  exact error_bind_apply hm

theorem Driven.steps (hd : Driven semanticValidity c call method) (hm : method c = .ok a c') :
    step semanticValidity c call = c' := by
  unfold step
  rw [hd.accepted hm]
  rfl

theorem Driven.ready (hd : Driven semanticValidity c call method) (hr : Ready c)
    (hm : method c = .ok a c') : Ready c' :=
  hd.steps hm ▸ hr.step hd.named hd.finite

theorem Driven.unchanged (hd : Driven semanticValidity c call method) (hg : Grounded c)
    (hm : method c = .error e c') : c' = c :=
  (call_takes semanticValidity hg call).of_error (hd.rejected hm)

end Recording

section Attempts
variable {h : Host ContinuityAdapter}

theorem ends_catching {x : AdapterM α} {post : Host ContinuityAdapter → Prop}
    (caught : PyError → Bool) (hx : Ends x h post) : Ends (Cadi.catching caught x) h post := by
  unfold Ends at hx ⊢
  unfold Cadi.catching
  split
  · next hok => rwa [hok] at hx
  · next herror =>
    rw [herror] at hx
    split
    · exact hx
    · exact hx

theorem orElseUndo_ok {r : ScheduleRequest} {undo : ContinuityAdapter → ContinuityAdapter}
    (hs : h.history.sim.schedule r = .ok (event, sim)) :
    orElseUndo (scheduleEvent r) undo h = .ok event (h.act (.schedule r)) := by
  unfold orElseUndo
  rw [scheduleEvent_ok hs]

theorem orElseUndo_error {r : ScheduleRequest} {undo : ContinuityAdapter → ContinuityAdapter}
    {history : History} (hs : history.sim.schedule r = .error e) (w : ContinuityAdapter) :
    orElseUndo (scheduleEvent r) undo { history, world := w } =
      .error e { history, world := undo w } := by
  have herror : scheduleEvent r { history, world := w } = .error e { history, world := w } :=
    scheduleEvent_error hs
  unfold orElseUndo
  rw [herror]

/-- A schedule that may fail, with what is undone then. -/
theorem ends_orElseUndo {r : ScheduleRequest} {undo : ContinuityAdapter → ContinuityAdapter}
    {post : Host ContinuityAdapter → Prop} (hok : post (h.act (.schedule r)))
    (hundone : post { h with world := undo h.world }) :
    Ends (orElseUndo (scheduleEvent r) undo) h post := by
  unfold Ends
  cases hs : h.history.sim.schedule r with
  | ok res =>
    rw [orElseUndo_ok hs]
    exact hok
  | error e =>
    have herror : orElseUndo (scheduleEvent r) undo h = _ := orElseUndo_error hs h.world
    rw [herror]
    exact hundone

end Attempts

section Chronicle
variable {semanticValidity : SemanticValidity} {sha256 : String → String}

/-- A record between the core before it and the core after it. -/
inductive Entry (semanticValidity : SemanticValidity) (sha256 : String → String) (c : ContinuityCore) :
    SemanticActionRecord → ContinuityCore → Prop where
  | called {call : Call} {c' : ContinuityCore}
      (hcall : call.operation.call semanticValidity call.clock c = .ok ⟨⟩ c')
      (hid : call.operation.newId ≠ some "") :
      Entry semanticValidity sha256 c (recordOf now event (label call.operation)
        (if fingerprintOf sha256 c' = fingerprintOf sha256 c then .idempotent else .applied)
        (some (subject call.operation)) none (fingerprintOf sha256 c')) c'
  | rejected {call : Call} (hcall : call.operation.call semanticValidity call.clock c = .error e c) :
      Entry semanticValidity sha256 c (recordOf now event (label call.operation) .rejected none
        (some (.raised e)) (fingerprintOf sha256 c)) c
  | noted (hname : operation ≠ "finalize_request")
      (happlied : outcome = .applied → operation = "schedule_retry") :
      Entry semanticValidity sha256 c (recordOf now event operation outcome resultId error
        (fingerprintOf sha256 c)) c

/-- The records from a first adapter on, with calls that others make on the core in between if there
are others. -/
inductive Chronicle (semanticValidity : SemanticValidity) (sha256 : String → String) (others : Prop)
    (start : ContinuityAdapter) : List SemanticActionRecord → ContinuityCore → Prop where
  | start : Chronicle semanticValidity sha256 others start start.records start.core
  | entry (hc : Chronicle semanticValidity sha256 others start rs c) (hr : Ready c)
      (he : Entry semanticValidity sha256 c r c') :
      Chronicle semanticValidity sha256 others start (rs ++ [r]) c'
  | other (ho : others) (hc : Chronicle semanticValidity sha256 others start rs c) (hr : Ready c)
      (call : Call) (hid : call.operation.newId ≠ some "") :
      Chronicle semanticValidity sha256 others start rs (step semanticValidity c call)

/-- What the adapter and its core are at any point of a run. -/
structure Kept (semanticValidity : SemanticValidity) (sha256 : String → String) (others : Prop)
    (start : ContinuityAdapter) (h : Host ContinuityAdapter) : Prop where
  ready : Ready h.world.core
  chronicle : Chronicle semanticValidity sha256 others start h.world.records h.world.core

/-- The method keeps the invariant, whether it returns or raises. -/
def Keeps (semanticValidity : SemanticValidity) (sha256 : String → String) (others : Prop)
    (start : ContinuityAdapter) (x : AdapterM α) : Prop :=
  Within (Kept semanticValidity sha256 others start) (fun _ _ => True) x

namespace Keeps
variable {others : Prop} {start : ContinuityAdapter}

theorem pure (a : α) : Keeps semanticValidity sha256 others start (Pure.pure a : AdapterM α) :=
  Within.pure fun _ => True.intro

theorem bind {x : AdapterM α} {f : α → AdapterM β}
    (hx : Keeps semanticValidity sha256 others start x)
    (hf : ∀ a, Keeps semanticValidity sha256 others start (f a)) :
    Keeps semanticValidity sha256 others start (x >>= f) :=
  Within.bind (fun _ _ _ _ _ => True.intro) hx hf

theorem get_bind {f : Host ContinuityAdapter → AdapterM α}
    (hf : ∀ h, Kept semanticValidity sha256 others start h →
      Keeps semanticValidity sha256 others start (f h)) :
    Keeps semanticValidity sha256 others start (get >>= f) :=
  Within.get_bind hf

theorem raiseIf [Decidable p] (e : PyError) :
    Keeps semanticValidity sha256 others start (liftM (Library.raiseIf p e) : AdapterM PUnit) :=
  Within.lift fun _ => True.intro

theorem modifyWorld {f : ContinuityAdapter → ContinuityAdapter}
    (hf : ∀ w, (f w).core = w.core ∧ (f w).records = w.records) :
    Keeps semanticValidity sha256 others start (Cadi.modifyWorld f) := by
  apply Within.modify
  intro h hk
  refine ⟨⟨?_, ?_⟩, True.intro⟩
  · exact (hf h.world).1 ▸ hk.ready
  · have hc := hk.chronicle
    rwa [← (hf h.world).1, ← (hf h.world).2] at hc

theorem note (event : SimEvent) (operation : String) (outcome : AdapterOutcome)
    (resultId : Option String) (error : Option AdapterError)
    (hname : operation ≠ "finalize_request")
    (happlied : outcome = .applied → operation = "schedule_retry") :
    Keeps semanticValidity sha256 others start
      (ContinuityAdapter.note semanticValidity sha256 event operation outcome resultId error) := by
  intro h hk
  unfold Ends
  rw [note_ok hk.ready]
  exact ⟨⟨hk.ready, hk.chronicle.entry hk.ready (.noted hname happlied)⟩, True.intro⟩

theorem apply [Entity α] {method : CoreM α} (event : SimEvent) (call : Call)
    (hd : ∀ c, Ready c → Driven semanticValidity c call method) :
    Keeps semanticValidity sha256 others start
      (ContinuityAdapter.apply semanticValidity sha256 event (label call.operation) method) := by
  intro h hk
  have hd := hd _ hk.ready
  unfold Ends
  cases hm : method h.world.core with
  | ok a c' =>
    have hr' := hd.ready hk.ready hm
    rw [apply_accepted hk.ready hm hr', hd.subject a c' hm]
    exact ⟨⟨hr', hk.chronicle.entry hk.ready (.called (hd.accepted hm) hd.named)⟩, True.intro⟩
  | error e c' =>
    obtain rfl := hd.unchanged hk.ready.sound.reached.grounded hm
    rw [apply_rejected hk.ready hm (hd.rejects e _ hm)]
    exact ⟨⟨hk.ready, hk.chronicle.entry hk.ready (.rejected (hd.rejected hm))⟩, True.intro⟩

theorem catching {x : AdapterM α} (caught : PyError → Bool)
    (hx : Keeps semanticValidity sha256 others start x) :
    Keeps semanticValidity sha256 others start (Cadi.catching caught x) :=
  fun h hk => ends_catching caught (hx h hk)

theorem orElseUndo (r : ScheduleRequest) {undo : ContinuityAdapter → ContinuityAdapter}
    (hundo : ∀ w, (undo w).core = w.core ∧ (undo w).records = w.records) :
    Keeps semanticValidity sha256 others start (Cadi.orElseUndo (scheduleEvent r) undo) := by
  intro h hk
  refine ends_orElseUndo ⟨⟨hk.ready, hk.chronicle⟩, True.intro⟩ ⟨⟨?_, ?_⟩, True.intro⟩
  · exact (hundo h.world).1 ▸ hk.ready
  · have hc := hk.chronicle
    rwa [← (hundo h.world).1, ← (hundo h.world).2] at hc

end Keeps

end Chronicle

end ContinuityAdapter

end Cadi
