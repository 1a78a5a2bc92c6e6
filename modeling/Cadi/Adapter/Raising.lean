import Cadi.Adapter.Redelivered

namespace Cadi
open Library
set_option autoImplicit true

namespace ContinuityAdapter

/-- Where the method raises from this host, the exception and what it leaves meet the condition. -/
def Raises (h : Host ContinuityAdapter) (x : AdapterM α)
    (E : PyError → Host ContinuityAdapter → Prop) : Prop := ∀ e h', x h = .error e h' → E e h'

section Schedules
variable {h h' : Host ContinuityAdapter} {r : ScheduleRequest}
  {undo : ContinuityAdapter → ContinuityAdapter}

theorem modifyWorld_ok (h : Host ContinuityAdapter) (f : ContinuityAdapter → ContinuityAdapter) :
    modifyWorld f h = .ok ⟨⟩ { h with world := f h.world } := rfl

theorem orElseUndo_world (hok : orElseUndo (scheduleEvent r) undo h = .ok event h') :
    h'.world = h.world := by
  cases hs : h.history.sim.schedule r with
  | ok res =>
    rw [orElseUndo_ok hs] at hok
    cases hok
    rfl
  | error e => cases (orElseUndo_error hs h.world).symm.trans hok

end Schedules

namespace Raises
variable {semanticValidity : SemanticValidity} {sha256 : String → String}
  {h : Host ContinuityAdapter} {x : AdapterM α} {f : α → AdapterM β}
  {E : PyError → Host ContinuityAdapter → Prop}

theorem of_ok (hx : x h = .ok a h') : Raises h x E := by
  intro e h'' herror
  rw [hx] at herror
  cases herror

theorem pure (a : α) : Raises h (Pure.pure a : AdapterM α) E := of_ok rfl

theorem get_bind {f : Host ContinuityAdapter → AdapterM α} (hf : Raises h (f h) E) :
    Raises h (get >>= f) E := hf

theorem bind (hx : Raises h x E) (hf : ∀ a h', x h = .ok a h' → Raises h' (f a) E) :
    Raises h (x >>= f) E := by
  intro e h'' herror
  rcases bind_eq_error.mp herror with herror | ⟨a, h', hok, herror⟩
  · exact hx e h'' herror
  · exact hf a h' hok e h'' herror

theorem raiseIf [Decidable p] (he : E e h) :
    Raises h (liftM (Library.raiseIf p e) : AdapterM PUnit) E := by
  intro e' h' herror
  obtain ⟨hraised, rfl⟩ := lift_eq_error.mp herror
  exact (raiseIf_eq_error.mp hraised).2 ▸ he

theorem note (hr : Ready h.world.core) (event : SimEvent) (operation : String)
    (outcome : AdapterOutcome) (resultId : Option String) (error : Option AdapterError) :
    Raises h (ContinuityAdapter.note semanticValidity sha256 event operation outcome resultId error) E :=
  of_ok (note_ok hr event operation outcome resultId error)

/-- A call of the core raises nothing: what it rejects is recorded. -/
theorem apply [Entity α] {method : CoreM α} (hr : Ready h.world.core) (event : SimEvent)
    (call : Call) (hd : Driven semanticValidity h.world.core call method) :
    Raises h (ContinuityAdapter.apply semanticValidity sha256 event (label call.operation) method)
      E := by
  cases hm : method h.world.core with
  | ok a c' => exact of_ok (apply_accepted hr hm (hd.ready hr hm) event _)
  | error e c' =>
    obtain rfl := hd.unchanged hr.sound.reached.grounded hm
    exact of_ok (apply_rejected hr hm (hd.rejects e _ hm) event _)

theorem catching {caught : PyError → Bool} (hx : Raises h x fun e _ => caught e = true) :
    Raises h (Cadi.catching caught x) E := by
  intro e h' herror
  unfold Cadi.catching at herror
  split at herror
  · cases herror
  · next e' h'' hx' =>
    rw [if_pos (hx e' h'' hx')] at herror
    cases herror

theorem orElseUndo {r : ScheduleRequest} {undo : ContinuityAdapter → ContinuityAdapter}
    (hE : ∀ e, h.history.sim.schedule r = .error e → E e { h with world := undo h.world }) :
    Raises h (Cadi.orElseUndo (scheduleEvent r) undo) E := by
  cases hs : h.history.sim.schedule r with
  | ok res => exact of_ok (orElseUndo_ok hs)
  | error e =>
    intro e' h' herror
    cases (orElseUndo_error hs h.world).symm.trans herror
    exact hE e hs

end Raises

section Payloads
variable {required : List String}

theorem payload_eq_ok_iff : payload event required = .ok p ↔
    (∀ name ∈ required, Identifier (event.payload.lookup name)) ∧ p = textAt event := by
  unfold payload
  constructor
  · intro h
    obtain ⟨_, _, h⟩ := Except.bind_eq_ok.mp h
    obtain ⟨_, hfields, h⟩ := Except.bind_eq_ok.mp h
    refine ⟨fun name hname => ?_, (Except.ok.inj h).symm⟩
    exact not_not.mp (raiseIf_eq_ok.mp (Except.forM_eq_ok.mp hfields name hname))
  · rintro ⟨hfields, rfl⟩
    have hpresent : required.filter (fun name => (event.payload.lookup name).isNone) = [] := by
      apply List.filter_eq_nil_iff.mpr
      intro name hname hnone
      have hfield := hfields name hname
      rw [Option.isNone_iff_eq_none.mp hnone] at hfield
      exact hfield
    refine Except.bind_eq_ok.mpr ⟨⟨⟩, raiseIf_eq_ok.mpr (not_not.mpr hpresent), ?_⟩
    refine Except.bind_eq_ok.mpr ⟨⟨⟩, Except.forM_eq_ok.mpr fun name hname => ?_, rfl⟩
    exact raiseIf_eq_ok.mpr (not_not.mpr (hfields name hname))

theorem payload_bind_raised {f : (String → String) → Except AdapterError α}
    (h : (payload event required >>= f) = .error (.raised e)) :
    ∃ p, payload event required = .ok p ∧ f p = .error (.raised e) := by
  cases hp : payload event required with
  | ok p =>
    rw [hp] at h
    exact ⟨p, rfl, h⟩
  | error e' =>
    rw [hp] at h
    obtain rfl : e' = .raised e := Except.error.inj h
    unfold payload at hp
    rcases Except.bind_eq_error.mp hp with hp | ⟨_, _, hp⟩
    · cases (raiseIf_eq_error.mp hp).2
    · rcases Except.bind_eq_error.mp hp with hp | ⟨_, _, hp⟩
      · obtain ⟨name, _, hp⟩ := Except.forM_eq_error hp
        cases (raiseIf_eq_error.mp hp).2
      · cases hp

theorem eventNonnegativeFloat_raised {name : String} :
    eventNonnegativeFloat event name = .error (.raised e) ↔
      (∃ n, event.payload.lookup name = some (.num n) ∧ n.toFloat = none) ∧
        e = .overflowError "int too large to convert to float" := by
  unfold eventNonnegativeFloat finiteNonnegative
  cases hlookup : event.payload.lookup name with
  | none => simp
  | some value =>
    cases value with
    | num n =>
      cases hn : n.toFloat with
      | none => simp [hn, eq_comm]
      | some x =>
        cases ht : Time.ofBinary64 x with
        | none => simp [hn, ht]
        | some t => simp [hn, ht]
    | _ => simp

end Payloads

section Handlers
variable {semanticValidity : SemanticValidity} {sha256 : String → String}
  {h : Host ContinuityAdapter} {E : PyError → Host ContinuityAdapter → Prop}

/-- What keeps the invariant leaves a core that it can be called on again. -/
theorem Keeps.ready {x : AdapterM α} (hx : Keeps semanticValidity sha256 False h.world x)
    (hr : Ready h.world.core) (hok : x h = .ok a h') : Ready h'.world.core :=
  (hx.of_ok (Kept.begins hr) hok).1.ready

theorem startRunning_raises (hr : Ready h.world.core) (event : SimEvent) (hid : attemptId ≠ "")
    (requestId : String) :
    Raises h (startRunning semanticValidity sha256 event attemptId requestId) E := by
  have hstart := driven_startAttempt hr.sound.reached.grounded semanticValidity (.int 0) hid requestId
  refine .bind (.apply hr event ⟨.int 0, .startAttempt attemptId requestId⟩ hstart) ?_
  intro attempt h' hok
  have hr' : Ready h'.world.core :=
    (Keeps.apply event ⟨.int 0, .startAttempt attemptId requestId⟩ fun c hr =>
      driven_startAttempt hr.sound.reached.grounded semanticValidity _ hid requestId).ready hr hok
  split
  · exact .bind (.apply hr' event ⟨.int 0, .setAttemptExecution attemptId .running⟩
      (driven_setAttemptExecution hr'.sound.reached.grounded semanticValidity _ attemptId .running))
      fun _ _ _ => .pure _
  · exact .pure _

theorem ensureTerminalEvidence_raises (hr : Ready h.world.core) (event : SimEvent)
    (attemptId : String) (hid : evidenceId ≠ "") (observedAt : Time) :
    Raises h (ensureTerminalEvidence semanticValidity sha256 event attemptId evidenceId observedAt)
      fun e _ => e.continuity = true := by
  apply Raises.get_bind
  split
  · refine .bind (.raiseIf rfl) ?_
    intro _ h' hok
    obtain ⟨_, rfl⟩ := lift_eq_ok.mp hok
    exact .note hr event _ _ _ _
  · exact .bind (.apply hr event
      ⟨.int 0, .recordEvidence (terminalEvidence attemptId evidenceId observedAt)⟩
      (driven_recordEvidence hr.sound.reached.grounded semanticValidity _ hid rfl
        (terminalEvidence_finite attemptId evidenceId observedAt))) fun _ _ _ => .pure _

theorem ensureTerminalOutput_raises (hr : Ready h.world.core) (event : SimEvent)
    (attemptId evidenceId : String) (hid : outputId ≠ "") :
    Raises h (ensureTerminalOutput semanticValidity sha256 event attemptId evidenceId outputId)
      fun e _ => e.continuity = true := by
  apply Raises.get_bind
  split
  · refine .bind (.raiseIf rfl) ?_
    intro _ h' hok
    obtain ⟨_, rfl⟩ := lift_eq_ok.mp hok
    exact .note hr event _ _ _ _
  · exact .bind (.apply hr event ⟨.int 0, .createOutput outputId attemptId true [evidenceId]⟩
      (driven_createOutput semanticValidity _ _ hid attemptId true [evidenceId])) fun _ _ _ => .pure _

theorem presentObservation_raises (hr : Ready h.world.core) (event : SimEvent)
    (he : p "evidence_id" ≠ "") (ho : p "output_id" ≠ "") (observedAt : Time) :
    Raises h (presentObservation semanticValidity sha256 event p observedAt) E := by
  refine .bind ?_ ?_
  · refine .catching (.bind (ensureTerminalEvidence_raises hr event _ he observedAt) fun _ h' hok => ?_)
    have hr' := (ensureTerminalEvidence_keeps event _ he observedAt).ready hr hok
    exact ensureTerminalOutput_raises hr' event _ _ ho
  · intro ensured h' hok
    have hr' := (Keeps.catching PyError.continuity (ensureTerminals_keeps event he ho observedAt)).ready
      hr hok
    split
    · exact .note hr' event _ _ _ _
    · apply Raises.get_bind
      exact .bind (.apply hr' event ⟨_, .finalizeRequest (p "request_id") (p "output_id")
        (some h'.history.sim.now.toNumber)⟩
        (driven_finalizeRequest hr'.sound.reached.grounded semanticValidity _ _ _ _))
        fun _ _ _ => .pure _

end Handlers

/-- An observation whose time is an integer too large for a float. -/
def Overflows (event : SimEvent) (e : PyError) : Prop :=
  (event.kind = .observationCreated ∨ event.kind = .observationDuplicated) ∧
  (∀ name ∈ ["request_id", "attempt_id", "evidence_id", "output_id"],
    Identifier (event.payload.lookup name)) ∧
  (∃ n, event.payload.lookup "observed_at" = some (.num n) ∧ n.toFloat = none) ∧
  e = .overflowError "int too large to convert to float"

/-- A timeout whose retry the simulator refuses to schedule. -/
def RetryRefused (h : Host ContinuityAdapter) (event : SimEvent) (e : PyError) : Prop :=
  event.kind = .attemptTimeout ∧
  (∀ name ∈ ["request_id", "timed_out_attempt_id", "retry_attempt_id"],
    Identifier (event.payload.lookup name)) ∧
  (∃ request, h.world.core.requests.get? (textAt event "request_id") = some request ∧
    ¬ request.status.terminal ∧
    request.currentAttemptId = some (textAt event "timed_out_attempt_id")) ∧
  textAt event "retry_attempt_id" ∉ h.world.scheduledRetryAttempts ∧
  h.history.sim.schedule (retryStart event (textAt event "request_id")
    (textAt event "timed_out_attempt_id") (textAt event "retry_attempt_id")) = .error e

section Deliveries
variable {semanticValidity : SemanticValidity} {sha256 : String → String}
  {h : Host ContinuityAdapter} {E : PyError → Host ContinuityAdapter → Prop}

theorem deliver_raises {handler : EventHandler} (hr : Ready h.world.core)
    (hraised : ∀ e, handler event = .error (.raised e) → E e h)
    (hact : ∀ act, handler event = .ok act → Raises h act E) :
    Raises h (deliver semanticValidity sha256 handler event) E := by
  unfold deliver
  split
  · next act hok => exact hact act hok
  · exact .note hr event _ _ none _
  · next e herror =>
    rintro e' h' hthrow
    obtain ⟨rfl, rfl⟩ := throw_eq_error.mp hthrow
    exact hraised e herror

theorem deliver_payload_raises {required : List String}
    {act : SimEvent → (String → String) → AdapterM Unit} (hr : Ready h.world.core)
    (hact : (∀ name ∈ required, textAt event name ≠ "") →
      (∀ name ∈ required, Identifier (event.payload.lookup name)) →
      Raises h (act event (textAt event)) E) :
    Raises h (deliver semanticValidity sha256
      (fun event => do
        let p ← payload event required
        return act event p) event) E := by
  refine deliver_raises hr ?_ ?_
  · intro e herror
    obtain ⟨p, _, hreturn⟩ := payload_bind_raised herror
    cases hreturn
  · intro act' hok
    obtain ⟨p, hp, hreturn⟩ := Except.bind_eq_ok.mp hok
    obtain rfl := Except.ok.inj hreturn
    obtain ⟨rfl, hfields⟩ := payload_eq_ok hp
    exact hact hfields (payload_eq_ok_iff.mp hp).1

theorem retry_undone {w : ContinuityAdapter} {id : String} (hnew : id ∉ w.scheduledRetryAttempts) :
    { w with scheduledRetryAttempts := (insert id w.scheduledRetryAttempts).erase id } = w := by
  rw [Finset.erase_insert hnew]

theorem onAttemptTimeout_raises (hr : Ready h.world.core) (hkind : event.kind = .attemptTimeout) :
    Raises h (deliver semanticValidity sha256 (onAttemptTimeout semanticValidity sha256) event)
      fun e h' => h' = h ∧ RetryRefused h event e := by
  refine deliver_payload_raises hr fun _ hids => ?_
  apply Raises.get_bind
  split
  · exact .note hr event _ _ none _
  · next request hget =>
    split
    · exact .note hr event _ _ none _
    · next hopen =>
      split
      · exact .note hr event _ _ none _
      · next hcurrent =>
        split
        · exact .note hr event _ _ none _
        · next hnew =>
          refine .bind (.of_ok rfl) ?_
          intro _ h' hok
          cases hok
          refine .bind (.orElseUndo fun e hs => ?_) ?_
          · dsimp only
            refine ⟨?_, hkind, hids, ⟨request, hget, hopen, not_not.mp hcurrent⟩, hnew, hs⟩
            exact congrArg (fun w => { h with world := w }) (retry_undone hnew)
          · intro _ h' hok
            have hr' : Ready h'.world.core := by
              rw [orElseUndo_world hok]
              exact hr
            exact .note hr' event _ _ none _

theorem onObservation_raises (hr : Ready h.world.core)
    (hkind : event.kind = .observationCreated ∨ event.kind = .observationDuplicated) :
    Raises h (deliver semanticValidity sha256 (onObservation semanticValidity sha256) event)
      fun e h' => h' = h ∧ Overflows event e := by
  refine deliver_raises hr ?_ ?_
  · intro e herror
    obtain ⟨p, hp, herror⟩ := payload_bind_raised herror
    cases hobserved : eventNonnegativeFloat event "observed_at" with
    | ok t =>
      rw [hobserved] at herror
      cases herror
    | error e' =>
      rw [hobserved] at herror
      obtain rfl : e' = .raised e := Except.error.inj herror
      exact ⟨rfl, hkind, (payload_eq_ok_iff.mp hp).1, eventNonnegativeFloat_raised.mp hobserved⟩
  · intro act hact
    obtain ⟨p, hp, hact⟩ := Except.bind_eq_ok.mp hact
    obtain ⟨observedAt, _, hact⟩ := Except.bind_eq_ok.mp hact
    obtain rfl := Except.ok.inj hact
    have hfields := (payload_eq_ok hp).2
    apply Raises.get_bind
    split
    · exact .note hr event _ _ none _
    · split
      · exact .note hr event _ _ none _
      · split
        · exact .note hr event _ _ none _
        · split
          · exact .note hr event _ _ none _
          · split
            · exact .note hr event _ _ none _
            · exact presentObservation_raises hr event (hfields _ (by decide))
                (hfields _ (by decide)) observedAt

/-- A delivery raises for these two reasons only, and then it leaves everything as it was. -/
theorem handle_raises (hr : Ready h.world.core) (event : SimEvent) :
    Raises h (handle semanticValidity sha256 event)
      fun e h' => h' = h ∧ (Overflows event e ∨ RetryRefused h event e) := by
  have hg := hr.sound.reached.grounded
  unfold handle
  cases hkind : event.kind with
  | requestCreated =>
    refine deliver_payload_raises hr fun hfields _ => ?_
    exact .bind (.apply hr event ⟨.int 0, .createRequest _ _⟩
      (driven_createRequest semanticValidity _ _ (hfields _ (by decide)) _)) fun _ _ _ => .pure _
  | attemptStarted =>
    exact deliver_payload_raises hr fun hfields _ =>
      startRunning_raises hr event (hfields _ (by decide)) _
  | attemptTimeout =>
    intro e h' herror
    obtain ⟨hsame, hrefused⟩ := onAttemptTimeout_raises hr hkind e h' herror
    exact ⟨hsame, .inr hrefused⟩
  | retryStarted =>
    refine deliver_payload_raises hr fun hfields _ => ?_
    apply Raises.get_bind
    split
    · exact .note hr event _ _ none _
    · split
      · exact .note hr event _ _ none _
      · split
        · exact .note hr event _ _ none _
        · exact startRunning_raises hr event (hfields _ (by decide)) _
  | attemptCompleted | lateResult =>
    refine deliver_payload_raises hr fun _ _ => ?_
    apply Raises.get_bind
    refine .bind (.apply hr event ⟨.int 0, .completeAttempt _ true⟩
      (driven_completeAttempt hg semanticValidity _ _ true)) ?_
    intro result h' _
    split
    · exact .of_ok rfl
    · exact .pure _
  | attemptFailed =>
    refine deliver_payload_raises hr fun _ _ => ?_
    exact .bind (.apply hr event ⟨.int 0, .completeAttempt _ false⟩
      (driven_completeAttempt hg semanticValidity _ _ false)) fun _ _ _ => .pure _
  | observationCreated | observationDuplicated =>
    intro e h' herror
    obtain ⟨hsame, hoverflows⟩ := onObservation_raises hr (by simp [hkind]) e h' herror
    exact ⟨hsame, .inl hoverflows⟩
  | _ => exact .pure _

/-- Such an observation raises before anything is recorded. -/
theorem Overflows.raise (ho : Overflows event e) :
    handle semanticValidity sha256 event h = .error e h := by
  obtain ⟨hkind, hids, hnumber, rfl⟩ := ho
  have hobserved := eventNonnegativeFloat_raised.mpr ⟨hnumber, rfl⟩
  have hdeliver : deliver semanticValidity sha256 (onObservation semanticValidity sha256) event h =
      .error (.overflowError "int too large to convert to float") h := by
    unfold deliver onObservation
    rw [payload_eq_ok_iff.mpr ⟨hids, rfl⟩, hobserved]
    rfl
  unfold handle
  rcases hkind with hkind | hkind
  · rw [hkind]
    exact hdeliver
  · rw [hkind]
    exact hdeliver

/-- Such a timeout raises what the simulator raises, and its mark is taken back. -/
theorem RetryRefused.raise (hr : RetryRefused h event e) :
    handle semanticValidity sha256 event h = .error e h := by
  obtain ⟨hkind, hids, ⟨request, hget, hopen, hcurrent⟩, hnew, hs⟩ := hr
  have hread {f : (String → String) → Except AdapterError (AdapterM Unit)} :
      (payload event ["request_id", "timed_out_attempt_id", "retry_attempt_id"] >>= f) =
        f (textAt event) := by
    rw [payload_eq_ok_iff.mpr ⟨hids, rfl⟩]
    rfl
  have hget_bind {f : Host ContinuityAdapter → AdapterM Unit} : (get >>= f) h = f h h := rfl
  unfold handle
  rw [hkind]
  simp only [handlerOf, deliver, onAttemptTimeout, hread, pure, Except.pure]
  rw [hget_bind]
  simp only [hget, hopen, hcurrent, hnew, ne_eq, not_true_eq_false, ↓reduceIte]
  rw [ok_bind_apply (modifyWorld_ok h _), error_bind_apply (orElseUndo_error hs _)]
  exact congrArg (fun w => EStateM.Result.error e { h with world := w }) (retry_undone hnew)

end Deliveries

/-- In any run on the core of any run, a delivery raises exactly where the time of an observation is
too large for a float or the simulator refuses the retry of a timeout that is due, and it then
leaves the simulator, the core and the adapter as they were. -/
theorem delivery_raises_iff (semanticValidity : SemanticValidity) (sha256 : String → String)
    (calls : List Call) (hnamed : ∀ call ∈ calls, call.operation.newId ≠ some "")
    (hfloats : ∀ call ∈ calls, RecordsFloats call) (history : History) (before : List AdapterInput)
    (hbefore : ∀ i ∈ before, i.Admitted True) (h h' : Host ContinuityAdapter)
    (hrun : h.world = (run (adapterStep semanticValidity sha256)
      { history, world := { core := run (step semanticValidity) {} calls } } before).world)
    (event : SimEvent) (e : PyError) :
    handle semanticValidity sha256 event h = .error e h' ↔
      h' = h ∧ (Overflows event e ∨ RetryRefused h event e) := by
  have hstart : Kept semanticValidity sha256 True { core := run (step semanticValidity) {} calls }
      { history, world := { core := run (step semanticValidity) {} calls } } :=
    ⟨.of_run hnamed hfloats, .start⟩
  have hr : Ready h.world.core := hrun ▸ (hstart.throughout hbefore).last.ready
  constructor
  · exact handle_raises hr event e h'
  · rintro ⟨rfl, hoverflows | hrefused⟩
    · exact hoverflows.raise
    · exact hrefused.raise

/-- An observation at a time that no float represents. -/
def lateObservation : SimEvent where
  time := .zero
  sequence := 0
  eventId := "e"
  kind := .observationCreated
  payload := [("attempt_id", .str "a"), ("evidence_id", .str "v"),
    ("observed_at", .num (.int (10 ^ 400))), ("output_id", .str "o"), ("request_id", .str "r")]

theorem delivery_raises_iff_late :
    handle defaultValidity id lateObservation
        { world := { core := run (step defaultValidity) {} scaffold } } =
      .error (.overflowError "int too large to convert to float")
        { world := { core := run (step defaultValidity) {} scaffold } } ↔
    ({ world := { core := run (step defaultValidity) {} scaffold } } : Host ContinuityAdapter) =
        { world := { core := run (step defaultValidity) {} scaffold } } ∧
      (Overflows lateObservation (.overflowError "int too large to convert to float") ∨
        RetryRefused { world := { core := run (step defaultValidity) {} scaffold } } lateObservation
          (.overflowError "int too large to convert to float")) :=
  delivery_raises_iff defaultValidity id scaffold (by decide) scaffold_floats {} []
    (fun i hi => absurd hi List.not_mem_nil) _ _ rfl lateObservation _

end ContinuityAdapter

end Cadi
