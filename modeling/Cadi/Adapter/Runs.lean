import Cadi.Adapter.Chronicle

namespace Cadi
open Library
set_option autoImplicit true

/-- The event that a pass through the loop delivers, with the host that its handler is called in. -/
def Host.delivery (horizon : Option Time) (h : Host σ) : Option (SimEvent × Host σ) :=
  let sim := h.history.sim
  match sim.queue with
  | [] => none
  | event :: rest =>
    if ∃ t ∈ horizon, t < event.time then none
    else if event.eventId ∈ sim.cancelled then none
    else if event.time < sim.now then none
    else some (event, { h with history := { h.history with sim := sim.deliver event rest } })

namespace ContinuityAdapter

section Payloads

theorem payload_eq_ok {required : List String} (h : payload event required = .ok p) :
    p = textAt event ∧ ∀ name ∈ required, p name ≠ "" := by
  unfold payload at h
  obtain ⟨_, _, h⟩ := Except.bind_eq_ok.mp h
  obtain ⟨_, hfields, h⟩ := Except.bind_eq_ok.mp h
  obtain rfl := Except.ok.inj h
  refine ⟨rfl, fun name hname => ?_⟩
  have hfield : Identifier (event.payload.lookup name) :=
    not_not.mp (raiseIf_eq_ok.mp (Except.forM_eq_ok.mp hfields name hname))
  unfold textAt
  unfold Identifier at hfield
  split
  · next s hs =>
    rw [hs] at hfield
    exact hfield
  · next hs =>
    split at hfield
    · next s hs' => exact (hs s hs').elim
    · exact hfield.elim

end Payloads

section Handlers
variable {semanticValidity : SemanticValidity} {sha256 : String → String} {others : Prop}
  {start : ContinuityAdapter}

theorem startRunning_keeps (event : SimEvent) (hid : attemptId ≠ "") (requestId : String) :
    Keeps semanticValidity sha256 others start
      (startRunning semanticValidity sha256 event attemptId requestId) := by
  apply Keeps.bind
  · exact .apply event ⟨.int 0, .startAttempt attemptId requestId⟩ fun c hr =>
      driven_startAttempt hr.sound.reached.grounded semanticValidity _ hid requestId
  · intro attempt
    split
    · apply Keeps.bind
      · exact .apply event ⟨.int 0, .setAttemptExecution attemptId .running⟩ fun c hr =>
          driven_setAttemptExecution hr.sound.reached.grounded semanticValidity _ attemptId .running
      · exact fun _ => .pure _
    · exact .pure _

theorem onRequestCreated_keeps (h : onRequestCreated semanticValidity sha256 event = .ok act) :
    Keeps semanticValidity sha256 others start act := by
  obtain ⟨p, hp, h⟩ := Except.bind_eq_ok.mp h
  obtain rfl := Except.ok.inj h
  have hid : p "request_id" ≠ "" := (payload_eq_ok hp).2 _ (by decide)
  apply Keeps.bind
  · exact .apply event ⟨.int 0, .createRequest (p "request_id") (p "continuation_id")⟩ fun c _ =>
      driven_createRequest semanticValidity c _ hid _
  · exact fun _ => .pure _

theorem onAttemptStarted_keeps (h : onAttemptStarted semanticValidity sha256 event = .ok act) :
    Keeps semanticValidity sha256 others start act := by
  obtain ⟨p, hp, h⟩ := Except.bind_eq_ok.mp h
  obtain rfl := Except.ok.inj h
  exact startRunning_keeps event ((payload_eq_ok hp).2 _ (by decide)) _

theorem onAttemptTimeout_keeps (h : onAttemptTimeout semanticValidity sha256 event = .ok act) :
    Keeps semanticValidity sha256 others start act := by
  obtain ⟨p, hp, h⟩ := Except.bind_eq_ok.mp h
  obtain rfl := Except.ok.inj h
  have hnote (outcome : AdapterOutcome) (error : Option AdapterError) (ho : outcome ≠ .applied) :
      Keeps semanticValidity sha256 others start
        (note semanticValidity sha256 event "timeout_retry_eligibility" outcome none error) :=
    .note event _ outcome none error (by decide) fun h => (ho h).elim
  apply Keeps.get_bind
  intro h _
  split
  · exact hnote _ _ (by decide)
  · split
    · exact hnote _ _ (by decide)
    · split
      · exact hnote _ _ (by decide)
      · split
        · exact hnote _ _ (by decide)
        · apply Keeps.bind
          · exact .modifyWorld fun w => ⟨rfl, rfl⟩
          · intro _
            apply Keeps.bind
            · exact .orElseUndo _ fun w => ⟨rfl, rfl⟩
            · exact fun _ => .note event _ _ none none (by decide) fun _ => rfl

theorem onRetryStarted_keeps (h : onRetryStarted semanticValidity sha256 event = .ok act) :
    Keeps semanticValidity sha256 others start act := by
  obtain ⟨p, hp, h⟩ := Except.bind_eq_ok.mp h
  obtain rfl := Except.ok.inj h
  have hid : p "retry_attempt_id" ≠ "" := (payload_eq_ok hp).2 _ (by decide)
  have hnote (outcome : AdapterOutcome) (error : Option AdapterError) (ho : outcome ≠ .applied) :
      Keeps semanticValidity sha256 others start
        (note semanticValidity sha256 event "retry_eligibility" outcome none error) :=
    .note event _ outcome none error (by decide) fun h => (ho h).elim
  apply Keeps.get_bind
  intro h _
  split
  · exact hnote _ _ (by decide)
  · split
    · exact hnote _ _ (by decide)
    · split
      · exact hnote _ _ (by decide)
      · exact startRunning_keeps event hid _

theorem onAttemptCompleted_keeps (h : onAttemptCompleted semanticValidity sha256 event = .ok act) :
    Keeps semanticValidity sha256 others start act := by
  obtain ⟨p, _, h⟩ := Except.bind_eq_ok.mp h
  obtain rfl := Except.ok.inj h
  apply Keeps.get_bind
  intro h _
  apply Keeps.bind
  · exact .apply event ⟨.int 0, .completeAttempt (p "attempt_id") true⟩ fun c hr =>
      driven_completeAttempt hr.sound.reached.grounded semanticValidity _ _ true
  · intro result
    split
    · apply Keeps.modifyWorld
      intro w
      split
      · exact ⟨rfl, rfl⟩
      · exact ⟨rfl, rfl⟩
    · exact .pure _

theorem onAttemptFailed_keeps (h : onAttemptFailed semanticValidity sha256 event = .ok act) :
    Keeps semanticValidity sha256 others start act := by
  obtain ⟨p, _, h⟩ := Except.bind_eq_ok.mp h
  obtain rfl := Except.ok.inj h
  apply Keeps.bind
  · exact .apply event ⟨.int 0, .completeAttempt (p "attempt_id") false⟩ fun c hr =>
      driven_completeAttempt hr.sound.reached.grounded semanticValidity _ _ false
  · exact fun _ => .pure _

theorem terminalEvidence_finite (attemptId evidenceId : String) (observedAt : Time) :
    Restored.Finite (terminalEvidence attemptId evidenceId observedAt) := by
  refine ⟨rfl, ?_, ?_⟩
  · exact fun n hn => absurd hn (Option.not_mem_none n)
  · exact fun n hn => absurd hn (Option.not_mem_none n)

theorem ensureTerminalEvidence_keeps (event : SimEvent) (attemptId : String) (hid : evidenceId ≠ "")
    (observedAt : Time) : Keeps semanticValidity sha256 others start
      (ensureTerminalEvidence semanticValidity sha256 event attemptId evidenceId observedAt) := by
  apply Keeps.get_bind
  intro h _
  split
  · apply Keeps.bind
    · exact .raiseIf _
    · exact fun _ => .note event _ _ _ none (by decide) fun h => absurd h (by decide)
  · apply Keeps.bind
    · exact .apply event
        ⟨.int 0, .recordEvidence (terminalEvidence attemptId evidenceId observedAt)⟩ fun c hr =>
          driven_recordEvidence hr.sound.reached.grounded semanticValidity _ hid rfl
          (terminalEvidence_finite attemptId evidenceId observedAt)
    · exact fun _ => .pure _

theorem ensureTerminalOutput_keeps (event : SimEvent) (attemptId evidenceId : String)
    (hid : outputId ≠ "") : Keeps semanticValidity sha256 others start
      (ensureTerminalOutput semanticValidity sha256 event attemptId evidenceId outputId) := by
  apply Keeps.get_bind
  intro h _
  split
  · apply Keeps.bind
    · exact .raiseIf _
    · exact fun _ => .note event _ _ _ none (by decide) fun h => absurd h (by decide)
  · apply Keeps.bind
    · exact .apply event ⟨.int 0, .createOutput outputId attemptId true [evidenceId]⟩ fun c _ =>
        driven_createOutput semanticValidity c _ hid attemptId true [evidenceId]
    · exact fun _ => .pure _

theorem ensureTerminals_keeps {p : String → String} (event : SimEvent) (he : p "evidence_id" ≠ "")
    (ho : p "output_id" ≠ "") (observedAt : Time) : Keeps semanticValidity sha256 others start (do
      ensureTerminalEvidence semanticValidity sha256 event (p "attempt_id") (p "evidence_id")
        observedAt
      ensureTerminalOutput semanticValidity sha256 event (p "attempt_id") (p "evidence_id")
        (p "output_id")) :=
  .bind (ensureTerminalEvidence_keeps event _ he observedAt)
    fun _ => ensureTerminalOutput_keeps event _ _ ho

theorem presentObservation_keeps (event : SimEvent) (he : p "evidence_id" ≠ "")
    (ho : p "output_id" ≠ "") (observedAt : Time) : Keeps semanticValidity sha256 others start
      (presentObservation semanticValidity sha256 event p observedAt) := by
  apply Keeps.bind
  · exact .catching _ (ensureTerminals_keeps event he ho observedAt)
  · intro ensured
    split
    · exact .note event _ _ none _ (by decide) fun h => absurd h (by decide)
    · apply Keeps.get_bind
      intro h _
      apply Keeps.bind
      · exact .apply event ⟨_, .finalizeRequest (p "request_id") (p "output_id")
          (some h.history.sim.now.toNumber)⟩ fun c hr =>
            driven_finalizeRequest hr.sound.reached.grounded semanticValidity _ _ _ _
      · exact fun _ => .pure _

theorem onObservation_keeps (h : onObservation semanticValidity sha256 event = .ok act) :
    Keeps semanticValidity sha256 others start act := by
  obtain ⟨p, hp, h⟩ := Except.bind_eq_ok.mp h
  obtain ⟨observedAt, _, h⟩ := Except.bind_eq_ok.mp h
  obtain rfl := Except.ok.inj h
  have hnote (operation : String) (error : Option AdapterError)
      (hname : operation ≠ "finalize_request") : Keeps semanticValidity sha256 others start
        (note semanticValidity sha256 event operation .rejected none error) :=
    .note event operation _ none error hname fun h => absurd h (by decide)
  apply Keeps.get_bind
  intro h _
  split
  · exact hnote _ _ (by decide)
  · split
    · exact hnote _ _ (by decide)
    · split
      · exact hnote _ _ (by decide)
      · split
        · exact hnote _ _ (by decide)
        · split
          · exact hnote _ _ (by decide)
          · exact presentObservation_keeps event ((payload_eq_ok hp).2 _ (by decide))
              ((payload_eq_ok hp).2 _ (by decide)) observedAt

theorem deliver_keeps {handler : EventHandler}
    (h : ∀ act, handler event = .ok act → Keeps semanticValidity sha256 others start act) :
    Keeps semanticValidity sha256 others start (deliver semanticValidity sha256 handler event) := by
  unfold deliver
  split
  · next act hact => exact h act hact
  · exact .note event _ _ none _ (by decide) fun h => absurd h (by decide)
  · exact fun _ hk => ⟨hk, True.intro⟩

/-- Every delivery keeps the invariant, also where it raises. -/
theorem handle_keeps (event : SimEvent) :
    Keeps semanticValidity sha256 others start (handle semanticValidity sha256 event) := by
  unfold handle
  cases hkind : event.kind with
  | requestCreated => exact deliver_keeps fun _ => onRequestCreated_keeps
  | attemptStarted => exact deliver_keeps fun _ => onAttemptStarted_keeps
  | attemptTimeout => exact deliver_keeps fun _ => onAttemptTimeout_keeps
  | retryStarted => exact deliver_keeps fun _ => onRetryStarted_keeps
  | attemptCompleted | lateResult => exact deliver_keeps fun _ => onAttemptCompleted_keeps
  | attemptFailed => exact deliver_keeps fun _ => onAttemptFailed_keeps
  | observationCreated | observationDuplicated => exact deliver_keeps fun _ => onObservation_keeps
  | _ => exact .pure _

end Handlers

/-- What happens around the adapter: others schedule and cancel events or call the core, and the
simulator runs. -/
inductive AdapterInput where
  | perform (action : Action)
  | call (call : Call)
  | pass (horizon : Option Time)

/-- Others call the core only if there are others. Their calls name no entity by the empty string
and record Evidence with numbers in range. -/
def AdapterInput.Admitted (others : Prop) : AdapterInput → Prop
  | .call c => others ∧ c.operation.newId ≠ some "" ∧ RecordsFloats c
  | _ => True

/-- The host after an input. -/
def adapterStep (semanticValidity : SemanticValidity) (sha256 : String → String)
    (h : Host ContinuityAdapter) : AdapterInput → Host ContinuityAdapter
  | .perform action => h.act action
  | .call call => { h with world := { h.world with core := step semanticValidity h.world.core call } }
  | .pass horizon => h.pass (handle semanticValidity sha256) horizon

section Runs
variable {semanticValidity : SemanticValidity} {sha256 : String → String} {others : Prop}
  {start : ContinuityAdapter} {h : Host ContinuityAdapter}

theorem pass_cases (handle : SimEvent → HostM σ Unit) (horizon : Option Time) (h : Host σ) :
    h.delivery horizon = none ∧ (h.pass handle horizon).world = h.world ∨
      ∃ event h', h.delivery horizon = some (event, h') ∧ h'.world = h.world ∧
        h.pass handle horizon = finalState (handle event h') := by
  unfold Host.pass Host.delivery
  dsimp only
  cases h.history.sim.queue with
  | nil => exact .inl ⟨rfl, rfl⟩
  | cons event rest =>
    dsimp only
    split
    · exact .inl ⟨rfl, rfl⟩
    · split
      · exact .inl ⟨rfl, rfl⟩
      · split
        · exact .inl ⟨rfl, rfl⟩
        · exact .inr ⟨_, _, rfl, rfl, rfl⟩

theorem Kept.step (hk : Kept semanticValidity sha256 others start h) (hi : i.Admitted others) :
    Kept semanticValidity sha256 others start (adapterStep semanticValidity sha256 h i) := by
  cases i with
  | perform action => exact ⟨hk.ready, hk.chronicle⟩
  | call call => exact ⟨hk.ready.step hi.2.1 hi.2.2.finite, hk.chronicle.other hi.1 hk.ready call hi.2.1⟩
  | pass horizon =>
    rcases pass_cases (handle semanticValidity sha256) horizon h with
      ⟨_, hw⟩ | ⟨event, h', _, hw, hp⟩
    · unfold adapterStep
      exact ⟨hw ▸ hk.ready, hw ▸ hk.chronicle⟩
    · have hstep : adapterStep semanticValidity sha256 h (.pass horizon) = _ := hp
      rw [hstep]
      exact (handle_keeps event h' ⟨hw ▸ hk.ready, hw ▸ hk.chronicle⟩).1

theorem Kept.begins (hr : Ready h.world.core) :
    Kept semanticValidity sha256 others h.world h := ⟨hr, .start⟩

theorem Kept.throughout (hk : Kept semanticValidity sha256 others start h)
    (hi : ∀ i ∈ inputs, i.Admitted others) : Throughout (adapterStep semanticValidity sha256)
      (Kept semanticValidity sha256 others start) h inputs :=
  invariant_throughout hk (fun _ _ hk hi => hk.step hi) (.of_forall hi h)

end Runs

end ContinuityAdapter

end Cadi
