import Cadi.Adapter.Fencing

namespace Cadi
open Library
set_option autoImplicit true

namespace ContinuityAdapter

/-- The records lead from a core to another one: the fingerprint of each is that of the core that its
action left, and it is that of the core before unless the action was applied. -/
def Accounted (semanticValidity : SemanticValidity) (sha256 : String → String) :
    ContinuityCore → List SemanticActionRecord → ContinuityCore → Prop
  | c, [], last => last = c
  | c, r :: rs, last => ∃ c', (c' = c ∨ ∃ call, c' = step semanticValidity c call) ∧
      snapshotFingerprint sha256 c' = .ok r.fingerprint ∧
      (r.outcome ≠ .applied → snapshotFingerprint sha256 c' = snapshotFingerprint sha256 c) ∧
      Accounted semanticValidity sha256 c' rs last

section Accounts
variable {semanticValidity : SemanticValidity} {sha256 : String → String} {c c' : ContinuityCore}

theorem Accounted.snoc (h : Accounted semanticValidity sha256 c rs middle)
    (he : Entry semanticValidity sha256 middle r c') (hr : Ready middle) (hr' : Ready c') :
    Accounted semanticValidity sha256 c (rs ++ [r]) c' := by
  induction rs generalizing c with
  | nil =>
    obtain rfl : middle = c := h
    obtain ⟨hfingerprint, hchange⟩ := he.audited
    refine ⟨c', ?_, ?_, ?_, rfl⟩
    · rcases he.steps with hsame | ⟨call, _, hstep⟩
      · exact .inl hsame
      · exact .inr ⟨call, hstep⟩
    · rw [snapshotFingerprint_ok hr'.numbers, hfingerprint]
    · intro ho
      rw [snapshotFingerprint_ok hr'.numbers, snapshotFingerprint_ok hr.numbers, ← hfingerprint,
        hchange.mpr (.inl ho)]
  | cons s rs ih =>
    obtain ⟨next, hstep, hfingerprint, hkept, hrest⟩ := h
    exact ⟨next, hstep, hfingerprint, hkept, ih hrest⟩

/-- While the adapter alone drives the core, its new records account for the core. -/
theorem Chronicle.accounted {start : ContinuityAdapter}
    (h : Chronicle semanticValidity sha256 False start rs c) (hr : Ready c) :
    ∃ added, rs = start.records ++ added ∧
      Accounted semanticValidity sha256 start.core added c := by
  induction h with
  | start => exact ⟨[], (List.append_nil _).symm, rfl⟩
  | @entry rs c r c' _ hbefore he ih =>
    obtain ⟨added, rfl, haccounted⟩ := ih hbefore
    exact ⟨added ++ [r], List.append_assoc _ _ _, haccounted.snoc he hbefore hr⟩
  | other ho => exact ho.elim

end Accounts

/-- From this host the method raises, and the core stays as it is. -/
def Stuck (h : Host ContinuityAdapter) (x : AdapterM α) : Prop :=
  ∃ e h', x h = .error e h' ∧ h'.world.core = h.world.core

namespace Stuck
variable {semanticValidity : SemanticValidity} {sha256 : String → String}
  {h : Host ContinuityAdapter} {x : AdapterM α} {f : α → AdapterM β}

theorem bind (hx : Stuck h x) : Stuck h (x >>= f) := by
  obtain ⟨e, h', herror, hcore⟩ := hx
  exact ⟨e, h', error_bind_apply herror, hcore⟩

/-- What leaves the core as it is may come first. -/
theorem after (hx : Recording (· = h.world.core) (fun _ => True) x)
    (hf : ∀ a h', h'.world.core = h.world.core → Stuck h' (f a)) : Stuck h (x >>= f) := by
  have hends := hx h rfl
  unfold Ends at hends
  cases hresult : x h with
  | ok a h' =>
    rw [hresult] at hends
    obtain ⟨e, last, herror, hcore⟩ := hf a h' hends.1
    exact ⟨e, last, (ok_bind_apply hresult).trans herror, hcore.trans hends.1⟩
  | error e h' =>
    rw [hresult] at hends
    exact ⟨e, h', error_bind_apply hresult, hends.1⟩

theorem get_bind {f : Host ContinuityAdapter → AdapterM α} (hf : Stuck h (f h)) :
    Stuck h (get >>= f) := hf

theorem semanticFingerprint (hn : ¬ FiniteNumbers h.world.core) :
    Stuck h (ContinuityAdapter.semanticFingerprint sha256) := by
  cases hs : snapshotCore h.world.core with
  | ok text => exact absurd (finite_of_snapshotCore hs) hn
  | error e =>
    refine ⟨e, h, lift_eq_error.mpr ⟨?_, rfl⟩, rfl⟩
    rw [snapshotFingerprint, hs]
    rfl

theorem note (hn : ¬ FiniteNumbers h.world.core) (event : SimEvent) (operation : String)
    (outcome : AdapterOutcome) (resultId : Option String) (error : Option AdapterError) :
    Stuck h (ContinuityAdapter.note semanticValidity sha256 event operation outcome resultId error) :=
  after .assertOracle fun _ h' hcore => (semanticFingerprint (by rwa [hcore])).bind

theorem apply [Entity α] {method : CoreM α} (hn : ¬ FiniteNumbers h.world.core) (event : SimEvent)
    (operation : String) :
    Stuck h (ContinuityAdapter.apply semanticValidity sha256 event operation method) :=
  (semanticFingerprint hn).bind

end Stuck

section Unwritable
variable {semanticValidity : SemanticValidity} {sha256 : String → String}
  {h : Host ContinuityAdapter}

end Unwritable

/-- A timeout that is due while the simulator knows the identifier of its retry already. -/
def RetryKnown (h : Host ContinuityAdapter) (event : SimEvent) : Prop :=
  event.kind = .attemptTimeout ∧
  (∀ name ∈ ["request_id", "timed_out_attempt_id", "retry_attempt_id"],
    Identifier (event.payload.lookup name)) ∧
  (∃ request ∈ h.world.core.requests.get? (textAt event "request_id"),
    ¬ request.status.terminal ∧
    request.currentAttemptId = some (textAt event "timed_out_attempt_id")) ∧
  textAt event "retry_attempt_id" ∉ h.world.scheduledRetryAttempts ∧
  retryEventId event (textAt event "retry_attempt_id") ∈ h.history.sim.knownIds

/-- Nothing hinders the delivery: the core can be written, and the identifier of a retry that is due
is free. -/
structure Unhindered (h : Host ContinuityAdapter) (event : SimEvent) : Prop where
  numbers : FiniteNumbers h.world.core
  retried : ¬ RetryKnown h event

section Conditions
variable {semanticValidity : SemanticValidity} {sha256 : String → String}
  {h : Host ContinuityAdapter}

theorem handle_unhandled (hhandler : handlerOf semanticValidity sha256 event.kind = none) :
    handle semanticValidity sha256 event h = .ok ⟨⟩ h := by
  unfold handle
  rw [hhandler]
  rfl

end Conditions

/-- The delivery that an input makes the simulator do. -/
def AdapterInput.delivery (h : Host ContinuityAdapter) :
    AdapterInput → Option (SimEvent × Host ContinuityAdapter)
  | .pass horizon => h.delivery horizon
  | _ => none

/-- Nothing hinders what the input delivers to a handler. -/
def ClearDelivery (semanticValidity : SemanticValidity) (sha256 : String → String)
    (h : Host ContinuityAdapter) (i : AdapterInput) : Prop :=
  ∀ d ∈ i.delivery h, (handlerOf semanticValidity sha256 d.1.kind).isSome → Unhindered d.2 d.1

/-- Every request has been finalized at most once. -/
def FinalizedOnce (h : Host ContinuityAdapter) : Prop :=
  ∀ requestId, finalizations requestId h.world.records ≤ 1

section Runs
variable {semanticValidity : SemanticValidity} {sha256 : String → String} {start : ContinuityAdapter}
  {h : Host ContinuityAdapter}

/-- The host of a run whose deliveries all returned: on a core that cannot be written there were
none. -/
def Undisturbed (semanticValidity : SemanticValidity) (sha256 : String → String)
    (start : ContinuityAdapter) (h : Host ContinuityAdapter) : Prop :=
  Kept semanticValidity sha256 False start h ∨ ¬ FiniteNumbers start.core ∧ h.world = start

theorem Undisturbed.begins (sha256 : String → String) (hs : Sound c) (history : History) :
    Undisturbed semanticValidity sha256 { core := c } { history, world := { core := c } } := by
  by_cases hn : FiniteNumbers c
  · exact .inl ⟨⟨hs, hn⟩, .start⟩
  · exact .inr ⟨hn, rfl⟩

theorem Undisturbed.sound (hu : Undisturbed semanticValidity sha256 start h)
    (hs : Sound start.core) : Sound h.world.core := by
  rcases hu with hk | ⟨_, hw⟩
  · exact hk.ready.sound
  · exact hw ▸ hs

theorem Undisturbed.once (hu : Undisturbed semanticValidity sha256 start h)
    (hrecords : start.records = []) : FinalizedOnce h := by
  rcases hu with hk | ⟨_, hw⟩
  · exact (hk.safe hrecords).once
  · intro requestId
    rw [hw, hrecords]
    exact Nat.zero_le 1

theorem Undisturbed.step (hu : Undisturbed semanticValidity sha256 start h)
    (hi : i.Admitted False) (hclear : ClearDelivery semanticValidity sha256 h i) :
    Undisturbed semanticValidity sha256 start (adapterStep semanticValidity sha256 h i) := by
  rcases hu with hk | ⟨hn, hw⟩
  · exact .inl (hk.step hi)
  · cases i with
    | perform action => exact .inr ⟨hn, hw⟩
    | call call => exact hi.1.elim
    | pass horizon =>
      rcases pass_cases (handle semanticValidity sha256) horizon h with
        ⟨_, hsame⟩ | ⟨event, h', hdelivery, hsame, hp⟩
      · exact .inr ⟨hn, hsame.trans hw⟩
      · cases hhandler : handlerOf semanticValidity sha256 event.kind with
        | some handler =>
          -- a delivery that is not hindered is of a core that can be written
          have hnumbers := (hclear (event, h') hdelivery (hhandler ▸ rfl)).numbers
          rw [hsame, hw] at hnumbers
          exact absurd hnumbers hn
        | none =>
          have hstep : adapterStep semanticValidity sha256 h (.pass horizon) = h' := by
            rw [handle_unhandled hhandler] at hp
            exact hp
          exact .inr ⟨hn, hstep ▸ hsame.trans hw⟩

theorem Undisturbed.throughout (hu : Undisturbed semanticValidity sha256 start h)
    (hi : ∀ i ∈ inputs, i.Admitted False) (hclear : Along (adapterStep semanticValidity sha256)
      (ClearDelivery semanticValidity sha256) h inputs) :
    Throughout (adapterStep semanticValidity sha256) (Undisturbed semanticValidity sha256 start) h
      inputs := by
  induction inputs generalizing h with
  | nil => exact hu
  | cons i inputs ih =>
    obtain ⟨hfirst, hrest⟩ := List.forall_mem_cons.mp hi
    exact ⟨hu, ih (hu.step hfirst hclear.1) hrest hclear.2⟩

end Runs

section Examples

instance (h : Host ContinuityAdapter) (event : SimEvent) : Decidable (RetryKnown h event) :=
  inferInstanceAs (Decidable (_ ∧ _ ∧ _ ∧ _ ∧ _))

end Examples

end ContinuityAdapter

end Cadi
