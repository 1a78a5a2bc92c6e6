import Cadi.Adapter.Recording
import Cadi.Adapter.Successes

namespace Cadi
open Library
set_option autoImplicit true

namespace ContinuityAdapter

section Still
variable {semanticValidity : SemanticValidity} {sha256 : String → String} {c : ContinuityCore}

/-- The record is of no applied action, or notes the schedule of a retry. -/
def Unapplied (r : SemanticActionRecord) : Prop := r.outcome ≠ .applied ∨ r.operation = "schedule_retry"

/-- The method leaves this core as it is and records no applied action, whether it returns or
raises. -/
def Still (c : ContinuityCore) (x : AdapterM α) : Prop := Recording (· = c) Unapplied x

/-- A call that leaves the core as it is leaves its fingerprint as it is. -/
theorem Still.apply [Entity α] {method : CoreM α} (event : SimEvent) (operation : String)
    (hm : finalState (method c) = c) :
    Still c (ContinuityAdapter.apply semanticValidity sha256 event operation method) := by
  have hfingerprint {h h' : Host ContinuityAdapter} {fingerprint : String} (hc : h.world.core = c)
      (hok : semanticFingerprint sha256 h = .ok fingerprint h') :
      snapshotFingerprint sha256 c = .ok fingerprint := hc ▸ (lift_eq_ok.mp hok).1
  have hcore : ∀ c', c' = c → finalState (method c') = c := by
    rintro _ rfl
    exact hm
  refine Recording.chain .semanticFingerprint fun before _ _ hc hbefore => ?_
  refine .bind (.catching _ (.onCore hcore)) fun result => .bind .assertOracle fun _ => ?_
  refine .chain .semanticFingerprint fun after _ _ hc' hafter => ?_
  have hsame : after = before :=
    Except.ok.inj ((hfingerprint hc' hafter).symm.trans (hfingerprint hc hbefore))
  cases result with
  | error e =>
    refine .bind (.lift _) fun _ => .bind (.appendRecord event fun _ => .inl ?_) fun _ => .pure _
    exact AdapterOutcome.noConfusion
  | ok b =>
    refine .bind (.appendRecord event fun _ => .inl ?_) fun _ => .pure _
    rw [if_pos hsame]
    exact AdapterOutcome.noConfusion

theorem Still.note (event : SimEvent) {operation : String} {outcome : AdapterOutcome}
    (resultId : Option String) (error : Option AdapterError)
    (ho : outcome ≠ .applied ∨ operation = "schedule_retry") :
    Still c (ContinuityAdapter.note semanticValidity sha256 event operation outcome resultId error) :=
  Recording.note event fun _ _ => ho

end Still

section Methods
variable {c : ContinuityCore}

theorem unique_used {id : String} (h : id ∈ c.ids) :
    ∃ e, unique id c = .error e c := by
  have hraise : raiseIf (id ∈ c.ids) (PyError.semanticViolation
      s!"duplicate logical identifier: {id}") = .error _ := if_pos h
  exact ⟨_, lift_eq_error.mpr ⟨hraise, rfl⟩⟩

theorem createRequest_used {id : String} (h : id ∈ c.requests) (continuationId : String) :
    finalState (createRequest id continuationId c) = c := by
  have hused : id ∈ c.ids := not_not.mp fun hn => (ContinuityCore.Fresh.unused hn).requests h
  obtain ⟨e, he⟩ := unique_used hused
  unfold createRequest
  rw [error_bind_apply he]
  rfl

theorem startAttempt_used {id : String} (h : id ∈ c.attempts) (requestId : String) :
    ∃ e, startAttempt id requestId c = .error e c ∧ e.rejection = true := by
  have hused : id ∈ c.ids := not_not.mp fun hn => (ContinuityCore.Fresh.unused hn).attempts h
  obtain ⟨e, he⟩ := unique_used hused
  unfold startAttempt
  exact ⟨e, error_bind_apply he, unique_failing id c e c he⟩

theorem setAttemptExecution_same {id : String} (ha : c.attempts.get? id = some a) :
    finalState (setAttemptExecution id a.executionStatus c) = c := by
  have hends : Ends (setAttemptExecution id a.executionStatus) c fun c' => c' = c := by
    unfold setAttemptExecution
    apply Ends.get_bind
    refine Ends.lift_bind rfl fun b hb => ?_
    obtain rfl := Option.some.inj ((item_eq_ok.mp hb).symm.trans ha)
    refine Ends.lift_bind rfl fun _ _ => Ends.lift_bind rfl fun _ _ => ?_
    apply Ends.modify_bind
    apply Ends.pure
    rw [Dict.set_same ha]
  exact hends

theorem finalizeRequest_completed (h : RequestCompleted c requestId) (clock : Number)
    (outputId : String) (now : Option Number) :
    finalState (finalizeRequest clock requestId outputId now c) = c := by
  obtain ⟨r, hr, hcompleted⟩ := h
  have hends : Ends (finalizeRequest clock requestId outputId now) c fun c' => c' = c := by
    unfold finalizeRequest
    apply Ends.get_bind
    refine Ends.lift_bind rfl fun q hq => ?_
    obtain rfl := Option.some.inj ((item_eq_ok.mp hq).symm.trans hr)
    refine Ends.lift_bind rfl fun o _ => Ends.lift_bind rfl fun a _ => ?_
    rw [if_pos hcompleted]
    split
    · rfl
    · rfl
  exact hends

end Methods

section Deliveries
variable {semanticValidity : SemanticValidity} {sha256 : String → String} {c : ContinuityCore}

/-- A call that the core refuses has no result. -/
theorem apply_refused [Entity α] {method : CoreM α} {h h' : Host ContinuityAdapter}
    (hm : method h.world.core = .error e h.world.core)
    (hok : apply semanticValidity sha256 event operation method h = .ok result h') :
    result = none := by
  obtain ⟨before, h₁, hbefore, hok⟩ := bind_eq_ok.mp hok
  obtain rfl : h = h₁ := (lift_eq_ok.mp hbefore).2
  obtain ⟨caught, h₂, hcatch, hok⟩ := bind_eq_ok.mp hok
  have hcaught : ∃ e, caught = .error e := by
    unfold catching at hcatch
    rw [onCore_error hm] at hcatch
    dsimp only at hcatch
    split at hcatch
    · cases hcatch
      exact ⟨e, rfl⟩
    · cases hcatch
  obtain ⟨e', rfl⟩ := hcaught
  obtain ⟨_, _, _, hok⟩ := bind_eq_ok.mp hok
  obtain ⟨_, _, _, hok⟩ := bind_eq_ok.mp hok
  obtain ⟨_, _, _, hok⟩ := bind_eq_ok.mp hok
  obtain ⟨_, _, _, hok⟩ := bind_eq_ok.mp hok
  exact (pure_eq_ok.mp hok).1.symm

theorem startRunning_still (hused : attemptId ∈ c.attempts) (event : SimEvent) (requestId : String) :
    Still c (startRunning semanticValidity sha256 event attemptId requestId) := by
  obtain ⟨e, he, _⟩ := startAttempt_used hused requestId
  have happly : Still c (apply semanticValidity sha256 event "start_attempt"
      (startAttempt attemptId requestId)) := .apply event _ (congrArg finalState he)
  rintro h rfl
  unfold startRunning
  have hends := (happly h rfl)
  unfold Ends at hends
  apply Ends.bind
  · intro attempt h' hok
    obtain rfl := apply_refused he hok
    rw [hok] at hends
    exact hends
  · intro e' h' herror
    rwa [herror] at hends

theorem completeAttempt_still (hended : AttemptEnded c attemptId succeeded) (event : SimEvent)
    (operation : String) : Still c (apply semanticValidity sha256 event operation
      (completeAttempt attemptId succeeded)) := by
  obtain ⟨a, ha, hstatus⟩ := hended
  apply Still.apply
  unfold completeAttempt
  exact hstatus ▸ setAttemptExecution_same ha

theorem ensureTerminalEvidence_still (hstored : evidenceId ∈ c.evidence) (event : SimEvent)
    (attemptId : String) (observedAt : Time) : Still c
      (ensureTerminalEvidence semanticValidity sha256 event attemptId evidenceId observedAt) := by
  apply Recording.get_bind
  rintro h rfl
  split
  · exact .bind (.lift _) fun _ => Still.note event _ _ (.inl (by decide))
  · next hnone => exact absurd hstored (Dict.get?_eq_none_iff.mp hnone)

theorem ensureTerminalOutput_still (hstored : outputId ∈ c.outputs) (event : SimEvent)
    (attemptId evidenceId : String) : Still c
      (ensureTerminalOutput semanticValidity sha256 event attemptId evidenceId outputId) := by
  apply Recording.get_bind
  rintro h rfl
  split
  · exact .bind (.lift _) fun _ => Still.note event _ _ (.inl (by decide))
  · next hnone => exact absurd hstored (Dict.get?_eq_none_iff.mp hnone)

theorem presentObservation_still (he : p "evidence_id" ∈ c.evidence) (ho : p "output_id" ∈ c.outputs)
    (hcompleted : RequestCompleted c (p "request_id")) (event : SimEvent) (observedAt : Time) :
    Still c (presentObservation semanticValidity sha256 event p observedAt) := by
  apply Recording.bind
  · exact .catching _ (.bind (ensureTerminalEvidence_still he event _ observedAt) fun _ =>
      ensureTerminalOutput_still ho event _ _)
  · intro ensured
    split
    · exact Still.note event _ _ (.inl (by decide))
    · apply Recording.get_bind
      intro h _
      exact .bind (Still.apply event _ (finalizeRequest_completed hcompleted _ _ _)) fun _ => .pure _

/-- A timeout schedules a retry and never changes the core. -/
theorem onAttemptTimeout_still (h : onAttemptTimeout semanticValidity sha256 event = .ok act) :
    Still c act := by
  obtain ⟨p, _, h⟩ := Except.bind_eq_ok.mp h
  obtain rfl := Except.ok.inj h
  apply Recording.get_bind
  intro h _
  split
  · exact Still.note event _ _ (.inl (by decide))
  · split
    · exact Still.note event _ _ (.inl (by decide))
    · split
      · exact Still.note event _ _ (.inl (by decide))
      · split
        · exact Still.note event _ _ (.inl (by decide))
        · refine .bind (.modifyWorld fun _ => ⟨rfl, rfl⟩) fun _ => ?_
          exact .bind (.orElseUndo _ fun _ => ⟨rfl, rfl⟩) fun _ => Still.note event _ _ (.inr rfl)

theorem onRetryStarted_still (hs : Settled c (textAt event) .retryStarted)
    (h : onRetryStarted semanticValidity sha256 event = .ok act) : Still c act := by
  obtain ⟨p, hp, h⟩ := Except.bind_eq_ok.mp h
  obtain rfl := Except.ok.inj h
  obtain ⟨rfl, _⟩ := payload_eq_ok hp
  apply Recording.get_bind
  intro h _
  split
  · exact Still.note event _ _ (.inl (by decide))
  · split
    · exact Still.note event _ _ (.inl (by decide))
    · split
      · exact Still.note event _ _ (.inl (by decide))
      · exact startRunning_still hs event _

theorem onAttemptCompleted_still (hs : Settled c (textAt event) .attemptCompleted)
    (h : onAttemptCompleted semanticValidity sha256 event = .ok act) : Still c act := by
  obtain ⟨p, hp, h⟩ := Except.bind_eq_ok.mp h
  obtain rfl := Except.ok.inj h
  obtain ⟨rfl, _⟩ := payload_eq_ok hp
  apply Recording.get_bind
  intro h _
  apply Recording.bind (completeAttempt_still hs event _)
  intro result
  split
  · apply Recording.modifyWorld
    intro w
    split
    · exact ⟨rfl, rfl⟩
    · exact ⟨rfl, rfl⟩
  · exact .pure _

theorem onObservation_still (hs : Settled c (textAt event) .observationCreated)
    (h : onObservation semanticValidity sha256 event = .ok act) : Still c act := by
  obtain ⟨p, hp, h⟩ := Except.bind_eq_ok.mp h
  obtain ⟨observedAt, _, h⟩ := Except.bind_eq_ok.mp h
  obtain rfl := Except.ok.inj h
  obtain ⟨rfl, _⟩ := payload_eq_ok hp
  obtain ⟨he, ho, hcompleted⟩ := hs
  apply Recording.get_bind
  intro h _
  split
  · exact Still.note event _ _ (.inl (by decide))
  · split
    · exact Still.note event _ _ (.inl (by decide))
    · split
      · exact Still.note event _ _ (.inl (by decide))
      · split
        · exact Still.note event _ _ (.inl (by decide))
        · split
          · exact Still.note event _ _ (.inl (by decide))
          · exact presentObservation_still he ho hcompleted event observedAt

theorem deliver_still {handler : EventHandler}
    (h : ∀ act, handler event = .ok act → Still c act) :
    Still c (deliver semanticValidity sha256 handler event) := by
  unfold deliver
  split
  · next act hact => exact h act hact
  · exact Still.note event _ _ (.inl (by decide))
  · exact fun _ hc => ⟨hc, .of_records rfl⟩

/-- Where the work of an event is done, its delivery leaves the core as it is. -/
theorem handle_still (hs : Settled c (textAt event) event.kind) :
    Still c (handle semanticValidity sha256 event) := by
  unfold handle
  cases hkind : event.kind with
  | requestCreated =>
    rw [hkind] at hs
    apply deliver_still
    intro act h
    obtain ⟨p, hp, h⟩ := Except.bind_eq_ok.mp h
    obtain rfl := Except.ok.inj h
    obtain ⟨rfl, _⟩ := payload_eq_ok hp
    exact .bind (Still.apply event _ (createRequest_used hs _)) fun _ => .pure _
  | attemptStarted =>
    rw [hkind] at hs
    apply deliver_still
    intro act h
    obtain ⟨p, hp, h⟩ := Except.bind_eq_ok.mp h
    obtain rfl := Except.ok.inj h
    obtain ⟨rfl, _⟩ := payload_eq_ok hp
    exact startRunning_still hs event _
  | attemptTimeout => exact deliver_still fun _ => onAttemptTimeout_still
  | retryStarted =>
    rw [hkind] at hs
    exact deliver_still fun _ => onRetryStarted_still hs
  | attemptCompleted | lateResult =>
    rw [hkind] at hs
    exact deliver_still fun _ => onAttemptCompleted_still hs
  | attemptFailed =>
    rw [hkind] at hs
    apply deliver_still
    intro act h
    obtain ⟨p, hp, h⟩ := Except.bind_eq_ok.mp h
    obtain rfl := Except.ok.inj h
    obtain ⟨rfl, _⟩ := payload_eq_ok hp
    exact .bind (completeAttempt_still hs event _) fun _ => .pure _
  | observationCreated | observationDuplicated =>
    rw [hkind] at hs
    exact deliver_still fun _ => onObservation_still hs
  | _ => exact .pure _

end Deliveries

section Settling
variable {semanticValidity : SemanticValidity} {sha256 : String → String}
  {h h' : Host ContinuityAdapter}

theorem Tells.orElseUndo (hg : Grounded h.world.core) (r : ScheduleRequest)
    {undo : ContinuityAdapter → ContinuityAdapter}
    (hundo : ∀ w, (undo w).core = w.core ∧ (undo w).records = w.records) :
    Tells h (Cadi.orElseUndo (scheduleEvent r) undo) fun _ _ => True := by
  refine ⟨ends_orElseUndo ⟨hg, .refl _, List.prefix_refl _⟩ ⟨?_, ?_, ?_⟩, fun _ _ _ _ => True.intro⟩
  · exact (hundo h.world).1 ▸ hg
  · exact (hundo h.world).1 ▸ Persists.refl _
  · exact (hundo h.world).2 ▸ List.prefix_refl _

theorem deliver_tells {handler : EventHandler} {post : ContinuityCore → Prop}
    (hg : Grounded h.world.core)
    (hhandler : ∀ act, handler event = .ok act → Tells h act fun _ c => post c) :
    Tells h (deliver semanticValidity sha256 handler event) fun _ c => post c := by
  unfold deliver
  split
  · next act hact => exact hhandler act hact
  · exact (Tells.note hg event _ _ none _).mono fun _ _ h => absurd h (by decide)
  · next e _ => exact ⟨.refl hg, fun a h' hok _ => (throw_eq_ok hok).elim⟩

theorem onAttemptTimeout_tells (hg : Grounded h.world.core)
    (hact : onAttemptTimeout semanticValidity sha256 event = .ok act) :
    Tells h act fun _ _ => True := by
  obtain ⟨p, _, hact⟩ := Except.bind_eq_ok.mp hact
  obtain rfl := Except.ok.inj hact
  have hnote (outcome : AdapterOutcome) (error : Option AdapterError) : Tells h
      (note semanticValidity sha256 event "timeout_retry_eligibility" outcome none error)
      fun _ _ => True := (Tells.note hg event _ _ none _).mono fun _ _ _ => True.intro
  apply Tells.get_bind
  split
  · exact hnote _ _
  · split
    · exact hnote _ _
    · split
      · exact hnote _ _
      · split
        · exact hnote _ _
        · refine .chain (.modifyWorld hg fun w => ⟨rfl, rfl⟩) fun _ h₁ _ he₁ => ?_
          refine .chain (.orElseUndo he₁.grounded _ fun w => ⟨rfl, rfl⟩) fun _ h₂ _ he₂ => ?_
          exact (Tells.note he₂.grounded event _ _ none _).mono fun _ _ _ _ _ _ _ => True.intro

theorem onRetryStarted_tells (hg : Grounded h.world.core)
    (hact : onRetryStarted semanticValidity sha256 event = .ok act) :
    Tells h act fun _ c => Settled c (textAt event) .retryStarted := by
  obtain ⟨p, hp, hact⟩ := Except.bind_eq_ok.mp hact
  obtain rfl := Except.ok.inj hact
  obtain ⟨rfl, hfields⟩ := payload_eq_ok hp
  have hnote (outcome : AdapterOutcome) (error : Option AdapterError)
      (ho : ¬ (outcome = .applied ∨ outcome = .idempotent)) : Tells h
        (note semanticValidity sha256 event "retry_eligibility" outcome none error)
        fun _ c => Settled c (textAt event) .retryStarted :=
    (Tells.note hg event _ _ none _).mono fun _ _ h => absurd h ho
  apply Tells.get_bind
  split
  · exact hnote _ _ (by decide)
  · split
    · exact hnote _ _ (by decide)
    · split
      · exact hnote _ _ (by decide)
      · exact startRunning_tells hg event (hfields _ (by decide)) _

theorem onAttemptCompleted_tells (hg : Grounded h.world.core)
    (hact : onAttemptCompleted semanticValidity sha256 event = .ok act) :
    Tells h act fun _ c => Settled c (textAt event) .attemptCompleted := by
  obtain ⟨p, hp, hact⟩ := Except.bind_eq_ok.mp hact
  obtain rfl := Except.ok.inj hact
  obtain ⟨rfl, _⟩ := payload_eq_ok hp
  apply Tells.get_bind
  have hlast (result : Option Attempt) (h' : Host ContinuityAdapter) (he : Extends h h') :
      Tells h' (if result.isSome ∧ ¬ alreadySucceeded h.world.core (textAt event "attempt_id") then
        modifyWorld fun w =>
          if textAt event "attempt_id" ∈ w.attemptSuccessTimes then w
          else { w with attemptSuccessTimes :=
            w.attemptSuccessTimes.set (textAt event "attempt_id") h.history.sim.now }
        else Pure.pure ⟨⟩) fun _ _ => True := by
    split
    · apply Tells.modifyWorld he.grounded
      intro w
      split
      · exact ⟨rfl, rfl⟩
      · exact ⟨rfl, rfl⟩
    · exact .pure he.grounded True.intro
  refine .bind (.apply hg event ⟨.int 0, .completeAttempt (textAt event "attempt_id") true⟩
    (driven_completeAttempt hg semanticValidity _ _ true)) hlast ?_
  rintro _ _ c c' ⟨a, rfl, hm⟩ hp _
  exact (completeAttempt_ends hg hm).persists hp

theorem onObservation_tells (hg : Grounded h.world.core)
    (hact : onObservation semanticValidity sha256 event = .ok act) :
    Tells h act fun _ c => Settled c (textAt event) .observationCreated := by
  obtain ⟨p, hp, hact⟩ := Except.bind_eq_ok.mp hact
  obtain ⟨observedAt, _, hact⟩ := Except.bind_eq_ok.mp hact
  obtain rfl := Except.ok.inj hact
  obtain ⟨rfl, hfields⟩ := payload_eq_ok hp
  have hnote (operation : String) (error : Option AdapterError) : Tells h
      (note semanticValidity sha256 event operation .rejected none error)
      fun _ c => Settled c (textAt event) .observationCreated :=
    (Tells.note hg event operation _ none _).mono fun _ _ h => absurd h (by decide)
  apply Tells.get_bind
  split
  · exact hnote _ _
  · split
    · exact hnote _ _
    · split
      · exact hnote _ _
      · split
        · exact hnote _ _
        · split
          · exact hnote _ _
          · exact presentObservation_tells hg event (hfields _ (by decide)) (hfields _ (by decide))
              observedAt

/-- A delivery only adds, and one that recorded successful actions only has done the work of its
event. -/
theorem handle_tells (hg : Grounded h.world.core) (event : SimEvent) :
    Tells h (handle semanticValidity sha256 event)
      fun _ c => Settled c (textAt event) event.kind := by
  unfold handle
  cases hkind : event.kind with
  | requestCreated =>
    refine deliver_tells hg fun act hact => ?_
    obtain ⟨p, hp, hact⟩ := Except.bind_eq_ok.mp hact
    obtain rfl := Except.ok.inj hact
    obtain ⟨rfl, hfields⟩ := payload_eq_ok hp
    exact apply_tells hg event ⟨.int 0, .createRequest _ _⟩
      (driven_createRequest semanticValidity _ _ (hfields _ (by decide)) _)
      fun _ _ hm => createRequest_stores hm
  | attemptStarted =>
    refine deliver_tells hg fun act hact => ?_
    obtain ⟨p, hp, hact⟩ := Except.bind_eq_ok.mp hact
    obtain rfl := Except.ok.inj hact
    obtain ⟨rfl, hfields⟩ := payload_eq_ok hp
    exact startRunning_tells hg event (hfields _ (by decide)) _
  | attemptTimeout => exact deliver_tells hg fun _ => onAttemptTimeout_tells hg
  | retryStarted => exact deliver_tells hg fun _ => onRetryStarted_tells hg
  | attemptCompleted | lateResult => exact deliver_tells hg fun _ => onAttemptCompleted_tells hg
  | attemptFailed =>
    refine deliver_tells hg fun act hact => ?_
    obtain ⟨p, hp, hact⟩ := Except.bind_eq_ok.mp hact
    obtain rfl := Except.ok.inj hact
    obtain ⟨rfl, _⟩ := payload_eq_ok hp
    exact apply_tells hg event ⟨.int 0, .completeAttempt _ false⟩
      (driven_completeAttempt hg semanticValidity _ _ false) fun _ _ hm => completeAttempt_ends hg hm
  | observationCreated | observationDuplicated =>
    exact deliver_tells hg fun _ => onObservation_tells hg
  | _ => exact .pure hg True.intro

/-- The core of a host of any run: it has all that no operation takes back. -/
structure Grown (start h : Host ContinuityAdapter) : Prop where
  grounded : Grounded h.world.core
  persists : Persists start.world.core h.world.core

theorem Grown.begins (hg : Grounded h.world.core) : Grown h h := ⟨hg, .refl _⟩

theorem Grown.step {start : Host ContinuityAdapter} (hk : Grown start h) (i : AdapterInput) :
    Grown start (adapterStep semanticValidity sha256 h i) := by
  cases i with
  | perform action => exact ⟨hk.grounded, hk.persists⟩
  | call call => exact ⟨hk.grounded.step semanticValidity call,
      hk.persists.trans (hk.grounded.persists_run semanticValidity [call])⟩
  | pass horizon =>
    rcases pass_cases (handle semanticValidity sha256) horizon h with
      ⟨_, hw⟩ | ⟨event, h', _, hw, hp⟩
    · unfold adapterStep
      exact ⟨hw ▸ hk.grounded, hw ▸ hk.persists⟩
    · have hstep : adapterStep semanticValidity sha256 h (.pass horizon) = _ := hp
      rw [hstep]
      have hg : Grounded h'.world.core := hw ▸ hk.grounded
      have htells : Tells _ (handle semanticValidity sha256 event) _ := handle_tells hg event
      have hpersists : Persists start.world.core h'.world.core := hw ▸ hk.persists
      exact ⟨htells.1.grounded, hpersists.trans htells.1.persists⟩

theorem Grown.run {start : Host ContinuityAdapter} (hk : Grown start h) (inputs : List AdapterInput) :
    Grown start (run (adapterStep semanticValidity sha256) h inputs) :=
  invariant_run hk (fun _ i hk _ => hk.step i) (.of_forall (fun _ _ => True.intro) h)

end Settling

/-- The second event is a redelivery of the first: the same payload under the same kind, or under
the kind that the source gives to a repeated observation or to a late completion. -/
def Redelivers (event again : SimEvent) : Prop :=
  again.payload = event.payload ∧ (again.kind = event.kind ∨
    event.kind = .observationCreated ∧ again.kind = .observationDuplicated ∨
    event.kind = .attemptCompleted ∧ again.kind = .lateResult)

theorem Settled.redelivered (hs : Settled c (textAt event) event.kind)
    (h : Redelivers event again) : Settled c (textAt again) again.kind := by
  obtain ⟨hpayload, hkind⟩ := h
  have htext : textAt again = textAt event := by
    funext name
    unfold textAt
    rw [hpayload]
  rw [htext]
  rcases hkind with hkind | ⟨hfirst, hkind⟩ | ⟨hfirst, hkind⟩
  · exact hkind ▸ hs
  · rw [hfirst] at hs
    exact hkind ▸ hs
  · rw [hfirst] at hs
    exact hkind ▸ hs

theorem grounded_of_run {h : Host ContinuityAdapter} {history : History} {before : List AdapterInput}
    (hrun : h.world = (run (adapterStep semanticValidity sha256)
      { history, world := { core := run (step semanticValidity) {} calls } } before).world) :
    Grounded h.world.core := by
  have hgrown : Grown { history, world := { core := run (step semanticValidity) {} calls } }
      (run (adapterStep semanticValidity sha256)
        { history, world := { core := run (step semanticValidity) {} calls } } before) :=
    (Grown.begins (grounded_run semanticValidity calls)).run before
  exact hrun ▸ hgrown.grounded

/-- Where the work of the event was done on such a core, a redelivery after any inputs leaves the core
as it is and records no applied action. -/
theorem redelivered_still (hg : Grounded h₁.world.core)
    (hdelivered : handle semanticValidity sha256 event h₁ = .ok ⟨⟩ h₂) (hs : Succeeds h₁ h₂)
    (hlater : h₃.world = (run (adapterStep semanticValidity sha256) h₂ after).world)
    (hagain : Redelivers event again) :
    Ends (handle semanticValidity sha256 again) h₃ fun h₄ =>
      h₄.world.core = h₃.world.core ∧ Adds Unapplied h₃ h₄ := by
  have htells : Tells h₁ (handle semanticValidity sha256 event) _ := handle_tells hg event
  have hgrown : Grown h₂ (run (adapterStep semanticValidity sha256) h₂ after) :=
    (Grown.begins (htells.extended hdelivered).grounded).run after
  have hpersists : Persists h₂.world.core h₃.world.core := hlater ▸ hgrown.persists
  have hsettled := (htells.2 _ _ hdelivered hs).persists hpersists
  exact handle_still (hsettled.redelivered hagain) h₃ rfl

/-- In any run of an adapter on the core of any run, let an event be delivered whose records are all
APPLIED or IDEMPOTENT. After any further inputs, a redelivery of the event leaves the core as it is. -/
theorem redelivery_ignored (semanticValidity : SemanticValidity) (sha256 : String → String)
    (calls : List Call) (history : History) (before : List AdapterInput)
    (h₁ h₂ : Host ContinuityAdapter)
    (hrun : h₁.world = (run (adapterStep semanticValidity sha256)
      { history, world := { core := run (step semanticValidity) {} calls } } before).world)
    (event : SimEvent) (hdelivered : handle semanticValidity sha256 event h₁ = .ok ⟨⟩ h₂)
    (hrecords : ∀ r ∈ h₂.world.records.drop h₁.world.records.length,
      r.outcome = .applied ∨ r.outcome = .idempotent)
    (after : List AdapterInput) (h₃ : Host ContinuityAdapter)
    (hlater : h₃.world = (run (adapterStep semanticValidity sha256) h₂ after).world)
    (again : SimEvent) (hagain : Redelivers event again) :
    (finalState (handle semanticValidity sha256 again h₃)).world.core = h₃.world.core :=
  (redelivered_still (grounded_of_run hrun) hdelivered hrecords hlater hagain).1

/-- Such a redelivery records no applied action, other than the schedule of a retry. -/
theorem redelivery_unapplied (semanticValidity : SemanticValidity) (sha256 : String → String)
    (calls : List Call) (history : History) (before : List AdapterInput)
    (h₁ h₂ : Host ContinuityAdapter)
    (hrun : h₁.world = (run (adapterStep semanticValidity sha256)
      { history, world := { core := run (step semanticValidity) {} calls } } before).world)
    (event : SimEvent) (hdelivered : handle semanticValidity sha256 event h₁ = .ok ⟨⟩ h₂)
    (hrecords : ∀ r ∈ h₂.world.records.drop h₁.world.records.length,
      r.outcome = .applied ∨ r.outcome = .idempotent)
    (after : List AdapterInput) (h₃ : Host ContinuityAdapter)
    (hlater : h₃.world = (run (adapterStep semanticValidity sha256) h₂ after).world)
    (again : SimEvent) (hagain : Redelivers event again) :
    ∃ rs, (finalState (handle semanticValidity sha256 again h₃)).world.records =
        h₃.world.records ++ rs ∧
      ∀ r ∈ rs, r.outcome ≠ .applied ∨ r.operation = "schedule_retry" :=
  (redelivered_still (grounded_of_run hrun) hdelivered hrecords hlater hagain).2

/-- The creation of a request for the continuation of the scaffold. -/
def requestEvent (eventId : String) : SimEvent where
  time := .zero
  sequence := 0
  eventId
  kind := .requestCreated
  payload := [("continuation_id", .str "c"), ("request_id", .str "r")]

theorem requestEvent_delivered : ∃ h₂ : Host ContinuityAdapter,
    handle defaultValidity id (requestEvent "e")
      { world := { core := run (step defaultValidity) {} scaffold } } = .ok ⟨⟩ h₂ ∧
    ∀ r ∈ h₂.world.records, r.outcome = .applied ∨ r.outcome = .idempotent := by
  have hr : Ready (run (step defaultValidity) {} scaffold) := .of_run (by decide) scaffold_floats
  have hd := driven_createRequest defaultValidity (run (step defaultValidity) {} scaffold) (.int 0)
    (by decide : "r" ≠ "") "c"
  have hm : createRequest "r" "c" (run (step defaultValidity) {} scaffold) =
      .ok { id := "r", continuationId := "c", status := .ready } _ := rfl
  have happly : apply defaultValidity id (requestEvent "e") "create_request"
      (createRequest "r" "c") { world := { core := run (step defaultValidity) {} scaffold } } = _ :=
    apply_accepted hr hm (hd.ready hr hm) _ _
  refine ⟨_, ok_bind_apply happly, fun r hrecord => ?_⟩
  obtain rfl := List.mem_singleton.mp hrecord
  unfold recordOf
  dsimp only
  split
  · exact .inr rfl
  · exact .inl rfl

theorem redelivery_ignored_race : ∃ h₂ : Host ContinuityAdapter,
    handle defaultValidity id (requestEvent "e")
      { world := { core := run (step defaultValidity) {} scaffold } } = .ok ⟨⟩ h₂ ∧
    ∀ h₃ : Host ContinuityAdapter,
      h₃.world = (run (adapterStep defaultValidity id) h₂ retryRace).world →
        (finalState (handle defaultValidity id (requestEvent "again") h₃)).world.core =
          h₃.world.core := by
  obtain ⟨h₂, hdelivered, hrecords⟩ := requestEvent_delivered
  exact ⟨h₂, hdelivered, fun h₃ hlater => redelivery_ignored defaultValidity id scaffold {} [] _ _ rfl
    (requestEvent "e") hdelivered hrecords retryRace h₃ hlater (requestEvent "again")
    ⟨rfl, .inl rfl⟩⟩

theorem redelivery_unapplied_race : ∃ h₂ : Host ContinuityAdapter,
    handle defaultValidity id (requestEvent "e")
      { world := { core := run (step defaultValidity) {} scaffold } } = .ok ⟨⟩ h₂ ∧
    ∀ h₃ : Host ContinuityAdapter,
      h₃.world = (run (adapterStep defaultValidity id) h₂ retryRace).world →
        ∃ rs, (finalState (handle defaultValidity id (requestEvent "again") h₃)).world.records =
            h₃.world.records ++ rs ∧
          ∀ r ∈ rs, r.outcome ≠ .applied ∨ r.operation = "schedule_retry" := by
  obtain ⟨h₂, hdelivered, hrecords⟩ := requestEvent_delivered
  exact ⟨h₂, hdelivered, fun h₃ hlater => redelivery_unapplied defaultValidity id scaffold {} [] _ _
    rfl (requestEvent "e") hdelivered hrecords retryRace h₃ hlater (requestEvent "again")
    ⟨rfl, .inl rfl⟩⟩

end ContinuityAdapter

end Cadi
