import Cadi.Simulator.Standing

namespace Cadi
open Library
set_option autoImplicit true

/-- The tasks for which the worker has a free slot, besides the active ones, can be started. -/
def Openings (h : Host ResourceModel) (w : String) (worker : Worker) (active : List String) : Prop :=
  worker.status = .up →
    ∀ t ∈ (queueOf h.world w).take (worker.capacity - active.length).toNat,
      Startable h.history.sim.now h.history.sim.knownIds h.world t

/-- The completion of the transfer can be scheduled. -/
structure Sendable (h : Host ResourceModel) (k : String) (t : StateTransfer) : Prop where
  finite : ∀ link, h.world.links.get? t.linkId = some link → ∃ x d,
    link.transferDuration t.sizeBytes = .ok x ∧ finiteNonnegative (.float x) "delay" = .ok d ∧
      h.history.sim.now.add d ≠ none
  free : "transfer-complete:" ++ k ∉ h.history.sim.knownIds

/-- The payload holds what the handler of its kind reads, and what the handler starts can be
scheduled. -/
def Deliverable (h : Host ResourceModel) (event : SimEvent) : Prop :=
  match event.kind with
  | .workerTaskEnqueued => ∃ w worker, payloadItem event "worker_id" = .ok (.str w) ∧
      h.world.workers.get? w = some worker ∧ Openings h w worker (activeOf h.world w)
  | .workerTaskCompleted => ∃ taskId workerId, payloadItem event "task_id" = .ok taskId ∧
      payloadItem event "worker_id" = .ok workerId ∧
      ∀ t task, taskId = .str t → h.world.tasks.get? t = some task → task.status = .running →
        ∃ w worker, workerId = .str w ∧ h.world.workers.get? w = some worker ∧
          Openings h w worker ((activeOf h.world w).erase t)
  | .workerFailed => ∃ w, payloadItem event "worker_id" = .ok (.str w) ∧ w ∈ h.world.workers
  | .workerRecovered => ∃ w worker, payloadItem event "worker_id" = .ok (.str w) ∧
      h.world.workers.get? w = some worker ∧
      (worker.status = .down → Openings h w { worker with status := .up } (activeOf h.world w))
  | .stateMaterializationStarted => ∃ replicaId duration,
      payloadItem event "replica_id" = .ok replicaId ∧ payloadItem event "duration" = .ok duration
  | .stateMaterialized | .stateEvicted | .stateLost =>
      ∃ replicaId, payloadItem event "replica_id" = .ok replicaId
  | .stateTransferStarted => ∃ transferId, payloadItem event "transfer_id" = .ok transferId ∧
      ∀ k t, transferId = .str k → h.world.transfers.get? k = some t → t.status = .scheduled →
        t.Grounded h.world → Sendable h k t
  | .stateTransferCompleted => ∃ transferId, payloadItem event "transfer_id" = .ok transferId
  | _ => True

/-- The event starts the materialization of a replica at a worker that is up. -/
def Begins (m : ResourceModel) (event : SimEvent) : Prop :=
  event.kind = .stateMaterializationStarted ∧
    ∃ k r, payloadItem event "replica_id" = .ok (.str k) ∧ m.replicas.get? k = some r ∧
      r.status = .materializing ∧ m.Up r.locationId

/-- Neither the delivery of the event nor that of its duplicate raises, and the second leaves the
model as it is. -/
def Repeats (h : Host ResourceModel) (event again : SimEvent) (rest : List SimEvent) : Prop :=
  ∃ h₁ h₂, ResourceModel.handle event h = .ok ⟨⟩ h₁ ∧
    ResourceModel.handle again (h₁.delivered again rest) = .ok ⟨⟩ h₂ ∧ h₂.world = h₁.world

/-- The method does nothing where the model is in the given state. -/
def Idle (x : ResourceM Unit) (m : ResourceModel) : Prop := ∀ h, h.world = m → x h = .ok ⟨⟩ h

section Dispatch
variable {h h' : Host ResourceModel} {worker : Worker}

theorem scheduleEvent_eq_ok {h h' : Host σ} (hok : scheduleEvent r h = .ok event h') :
    (∃ sim, h.history.sim.schedule r = .ok (event, sim)) ∧ h' = h.act (.schedule r) := by
  cases hs : h.history.sim.schedule r with
  | error e =>
    rw [scheduleEvent_error hs] at hok
    cases hok
  | ok res =>
    rw [scheduleEvent_ok hs, EStateM.Result.ok.injEq] at hok
    obtain ⟨rfl, rfl⟩ := hok
    exact ⟨⟨res.2, rfl⟩, rfl⟩

theorem Returns.scheduleEvent_bind_iff {f : SimEvent → HostM σ α} {h : Host σ}
    {post : α → Host σ → Prop} :
    Returns (scheduleEvent r >>= f) h post ↔
      ∃ event sim, h.history.sim.schedule r = .ok (event, sim) ∧
        Returns (f event) (h.act (.schedule r)) post := by
  cases hs : h.history.sim.schedule r with
  | error e =>
    rw [Returns.bind_iff, Returns, scheduleEvent_error hs]
    constructor
    · rintro ⟨_, _, hx, _⟩
      cases hx
    · rintro ⟨_, _, hx, _⟩
      cases hx
  | ok res =>
    obtain ⟨event, sim⟩ := res
    rw [Returns.ok_bind_iff (scheduleEvent_ok hs)]
    constructor
    · exact fun hf => ⟨event, sim, rfl, hf⟩
    · rintro ⟨event', sim', he, hf⟩
      obtain ⟨rfl, rfl⟩ := Prod.mk.inj (Except.ok.inj he)
      exact hf

theorem schedule_completion_iff {sim : Simulator} {task : ResourceTask}
    (ht : m.tasks.get? t = some task) :
    (∃ event sim', sim.schedule (completionRequest t w task.duration) = .ok (event, sim')) ↔
      Startable sim.now sim.knownIds m t := by
  constructor
  · rintro ⟨event, sim', hok⟩
    obtain ⟨_, _, hid, _, htime, _, _, hnew⟩ := schedule_eq_ok_iff.mp hok
    constructor
    · intro other hother hnone
      obtain rfl := Option.some.inj (ht.symm.trans hother)
      have hdelay : Simulator.delayValue (some task.duration.toNumber) = .ok task.duration :=
        finiteNonnegative_toNumber _ _
      simp only [Simulator.eventTime, completionRequest, hdelay, bind, Except.bind, pure, Except.pure,
        hnone, Except.ok.injEq, reduceCtorEq] at htime
    · rw [hid] at hnew
      exact hnew
  · intro hs
    obtain ⟨event, hok, _⟩ := schedule_completion (w := w) hs ht
    exact ⟨event, _, hok⟩

/-- Starting one task leaves open whether the others can be started. -/
theorem startable_after {sim sim' : Simulator} {task' : ResourceTask} (hne : t ≠ s)
    (hok : sim.schedule (completionRequest t w duration) = .ok (event, sim'))
    (hm : m'.tasks = m.tasks.set t task') :
    Startable sim'.now sim'.knownIds m' s ↔ Startable sim.now sim.knownIds m s := by
  obtain ⟨rfl, _, hid, _⟩ := schedule_eq_ok_iff.mp hok
  have hid : event.eventId = "task-complete:" ++ t := hid
  have hget : m'.tasks.get? s = m.tasks.get? s := by
    rw [hm, Dict.get?_set_ne _ _ hne]
  have hknown : "task-complete:" ++ s ∈ insert event.eventId sim.knownIds ↔
      "task-complete:" ++ s ∈ sim.knownIds := by
    rw [Finset.mem_insert, hid]
    exact ⟨fun h => h.resolve_left fun he => hne (completion_injective he).symm, .inr⟩
  constructor
  · rintro ⟨hfinite, hfree⟩
    exact ⟨hget ▸ hfinite, fun h => hfree (hknown.mpr h)⟩
  · rintro ⟨hfinite, hfree⟩
    exact ⟨hget ▸ hfinite, fun h => hfree (hknown.mp h)⟩

theorem dispatchLoop_returns_iff (hn : queue.Nodup) (hk : ∀ t ∈ queue, t ∈ h.world.tasks) :
    Returns (dispatchLoop w worker queue) h (fun _ _ => True) ↔ (worker.status = .up →
      ∀ t ∈ queue.take (worker.capacity - (activeOf h.world w).length).toNat,
        Startable h.history.sim.now h.history.sim.knownIds h.world t) := by
  induction queue generalizing h with
  | nil =>
    rw [dispatchLoop, Returns.pure_iff, List.take_nil]
    exact ⟨fun _ _ t ht => (List.not_mem_nil ht).elim, fun _ => True.intro⟩
  | cons t rest ih =>
    obtain ⟨hout, hn⟩ := List.nodup_cons.mp hn
    obtain ⟨task, ht⟩ := Dict.mem_iff.mp (hk t List.mem_cons_self)
    rw [dispatchLoop, Returns.get_bind_iff]
    dsimp only
    split
    · next hc =>
      obtain ⟨hup, hfree⟩ := hc
      have hslots : (worker.capacity - (activeOf h.world w).length).toNat =
          (worker.capacity - ((activeOf h.world w).length + 1 : Nat)).toNat + 1 := by omega
      rw [modifyWorld, Returns.modify_bind_iff, hslots, List.take_succ_cons]
      simp only [hup, forall_const, List.forall_mem_cons]
      rw [← schedule_completion_iff (w := w) ht]
      -- the rest of the loop runs after the task has been started
      have hrest {event sim'} (hok : h.history.sim.schedule (completionRequest t w task.duration) =
          .ok (event, sim')) {h₂ : Host ResourceModel} (hsim : h₂.history.sim = sim')
          (htasks : ∃ task', h₂.world.tasks = h.world.tasks.set t task')
          (hactive : h₂.world.workerActive =
            h.world.workerActive.set w (activeOf h.world w ++ [t])) :
          Returns (dispatchLoop w worker rest) h₂ (fun _ _ => True) ↔
          ∀ s ∈ rest.take (worker.capacity - ((activeOf h.world w).length + 1 : Nat)).toNat,
            Startable h.history.sim.now h.history.sim.knownIds h.world s := by
        obtain ⟨task', htasks⟩ := htasks
        have hlen : (activeOf h₂.world w).length = (activeOf h.world w).length + 1 := by
          rw [activeOf_set hactive, if_pos rfl, List.length_append, List.length_singleton]
        rw [ih hn fun s hs => htasks ▸ lists_set (hk s (List.mem_cons_of_mem _ hs))]
        simp only [hup, forall_const, hlen, hsim]
        apply forall₂_congr
        intro s hs
        have hne : t ≠ s := fun he => hout (he ▸ List.mem_of_mem_take hs)
        exact startable_after hne hok htasks
      have hact {event sim'} {h₁ : Host ResourceModel} (hh : h₁.history = h.history)
          (hok : h.history.sim.schedule (completionRequest t w task.duration) = .ok (event, sim')) :
          (h₁.act (.schedule (completionRequest t w task.duration))).history.sim = sim' := by
        simp only [Host.act, History.perform, hh, hok]
      rw [Returns.lift_bind_iff]
      constructor
      · rintro ⟨task', hitem, hloop⟩
        obtain rfl := Option.some.inj (ht.symm.trans (item_eq_ok.mp hitem))
        rw [Returns.scheduleEvent_bind_iff] at hloop
        obtain ⟨event, sim', hok, hloop⟩ := hloop
        rw [modifyWorld, Returns.modify_bind_iff] at hloop
        refine ⟨⟨event, sim', hok⟩, (hrest hok ?_ ⟨_, rfl⟩ rfl).mp hloop⟩
        exact hact rfl hok
      · rintro ⟨⟨event, sim', hok⟩, hothers⟩
        refine ⟨task, item_eq_ok.mpr ht, Returns.scheduleEvent_bind_iff.mpr ⟨event, sim', hok, ?_⟩⟩
        rw [modifyWorld, Returns.modify_bind_iff]
        refine (hrest hok ?_ ⟨_, rfl⟩ rfl).mpr hothers
        exact hact rfl hok
    · next hc =>
      rw [Returns.pure_iff]
      refine ⟨fun _ hup s hs => ?_, fun _ => True.intro⟩
      have hnone : (worker.capacity - (activeOf h.world w).length).toNat = 0 := by
        have hfull : ¬ ((activeOf h.world w).length : Int) < worker.capacity := fun hfree =>
          hc ⟨hup, hfree⟩
        omega
      rw [hnone, List.take_zero] at hs
      exact (List.not_mem_nil hs).elim

theorem dispatch_returns_iff (hs : Stood h) : Returns (dispatch w) h (fun _ _ => True) ↔
    ∃ worker, h.world.workers.get? w = some worker ∧ Openings h w worker (activeOf h.world w) := by
  rw [dispatch, Returns.get_bind_iff, Returns.lift_bind_iff]
  apply exists_congr
  intro worker
  rw [item_eq_ok]
  apply and_congr_right
  intro hworker
  obtain ⟨hq, ha⟩ := hs.world.lists w (Dict.mem_of_get? hworker)
  obtain ⟨queue, hqueue⟩ := Dict.mem_iff.mp hq
  obtain ⟨active, hactive⟩ := Dict.mem_iff.mp ha
  have heq : queueOf h.world w = queue := by rw [queueOf, hqueue, Option.getD_some]
  have hknown (t : String) (ht : t ∈ queue) : t ∈ h.world.tasks := by
    obtain ⟨task, htask, _⟩ := hs.world.queued w t (heq ▸ ht)
    exact Dict.mem_of_get? htask
  rw [Openings, heq, ← dispatchLoop_returns_iff (heq ▸ hs.world.nodup w) hknown]
  rw [Returns.ok_bind_iff (lift_eq_ok.mpr ⟨item_eq_ok.mpr hqueue, rfl⟩),
    Returns.ok_bind_iff (lift_eq_ok.mpr ⟨item_eq_ok.mpr hactive, rfl⟩)]

/-- What the loop of `_dispatch` leaves when it returns. -/
structure Filled (w : String) (worker : Worker) (queue : List String) (m m' : ResourceModel) : Prop where
  workers : m'.workers = m.workers
  others : ∀ t ∉ queue, m'.tasks.get? t = m.tasks.get? t
  full : worker.status = .up →
    queueOf m' w = [] ∨ worker.capacity ≤ (activeOf m' w).length

theorem dispatchLoop_filled (hq : queueOf h.world w = queue)
    (hok : dispatchLoop w worker queue h = .ok ⟨⟩ h') :
    Filled w worker queue h.world h'.world := by
  induction queue generalizing h with
  | nil =>
    obtain ⟨_, rfl⟩ := pure_eq_ok.mp hok
    exact ⟨rfl, fun _ _ => rfl, fun _ => .inl hq⟩
  | cons t rest ih =>
    rw [dispatchLoop, get_bind_apply] at hok
    split at hok
    · obtain ⟨_, h₁, hpop, hok⟩ := bind_eq_ok.mp hok
      obtain rfl := modify_eq_ok.mp hpop
      obtain ⟨task, h₂, hitem, hok⟩ := bind_eq_ok.mp hok
      obtain ⟨_, rfl⟩ := lift_eq_ok.mp hitem
      obtain ⟨completion, h₃, hschedule, hok⟩ := bind_eq_ok.mp hok
      obtain ⟨_, rfl⟩ := scheduleEvent_eq_ok hschedule
      obtain ⟨_, h₄, hstart, hok⟩ := bind_eq_ok.mp hok
      obtain rfl := modify_eq_ok.mp hstart
      obtain ⟨hworkers, hothers, hfull⟩ := ih ((queueOf_set rfl).trans (if_pos rfl)) hok
      refine ⟨hworkers, fun s hs => ?_, hfull⟩
      rw [List.mem_cons, not_or] at hs
      exact (hothers s hs.2).trans (Dict.get?_set_ne _ _ (Ne.symm hs.1))
    · next hc =>
      obtain ⟨_, rfl⟩ := pure_eq_ok.mp hok
      refine ⟨rfl, fun _ _ => rfl, fun hup => .inr ?_⟩
      exact not_lt.mp fun hfree => hc ⟨hup, hfree⟩

theorem dispatch_idle (hs : Standing m) (hw : m.workers.get? w = some worker)
    (hfull : worker.status = .up → queueOf m w = [] ∨ worker.capacity ≤ (activeOf m w).length) :
    Idle (dispatch w) m := by
  rintro h rfl
  obtain ⟨hq, ha⟩ := hs.lists w (Dict.mem_of_get? hw)
  obtain ⟨queue, hqueue⟩ := Dict.mem_iff.mp hq
  obtain ⟨active, hactive⟩ := Dict.mem_iff.mp ha
  have heq : queueOf h.world w = queue := by rw [queueOf, hqueue, Option.getD_some]
  rw [dispatch, get_bind_apply]
  apply bind_eq_ok.mpr ⟨worker, h, lift_eq_ok.mpr ⟨item_eq_ok.mpr hw, rfl⟩, ?_⟩
  apply bind_eq_ok.mpr ⟨queue, h, lift_eq_ok.mpr ⟨item_eq_ok.mpr hqueue, rfl⟩, ?_⟩
  apply bind_eq_ok.mpr ⟨active, h, lift_eq_ok.mpr ⟨item_eq_ok.mpr hactive, rfl⟩, ?_⟩
  cases queue with
  | nil => rfl
  | cons t rest =>
    rw [dispatchLoop, get_bind_apply, if_neg]
    · rfl
    · rintro ⟨hup, hfree⟩
      rcases hfull hup with hnil | hle
      · rw [heq] at hnil
        cases hnil
      · exact absurd hfree (not_lt.mpr hle)

/-- A dispatch that returns leaves nothing for another. -/
theorem dispatch_ok (hs : Stood h) (hok : dispatch w h = .ok ⟨⟩ h') :
    (∃ worker, Filled w worker (queueOf h.world w) h.world h'.world) ∧ Idle (dispatch w) h'.world := by
  have hstood := dispatch_stands w hs
  unfold Ends at hstood
  rw [hok] at hstood
  have hstood' : Stood h' := hstood
  rw [dispatch, get_bind_apply] at hok
  obtain ⟨worker, h₁, hfirst, hok⟩ := bind_eq_ok.mp hok
  obtain ⟨hworker, rfl⟩ := lift_eq_ok.mp hfirst
  obtain ⟨queue, h₂, hsecond, hok⟩ := bind_eq_ok.mp hok
  obtain ⟨hqueue, rfl⟩ := lift_eq_ok.mp hsecond
  obtain ⟨active, h₃, hthird, hok⟩ := bind_eq_ok.mp hok
  obtain ⟨_, rfl⟩ := lift_eq_ok.mp hthird
  have heq : queueOf h.world w = queue := by rw [queueOf, item_eq_ok.mp hqueue, Option.getD_some]
  have hfilled := dispatchLoop_filled heq hok
  refine ⟨⟨worker, heq.symm ▸ hfilled⟩, ?_⟩
  exact dispatch_idle hstood'.world (hfilled.workers ▸ item_eq_ok.mp hworker) hfilled.full

end Dispatch

section Handlers
variable {h h' : Host ResourceModel} {event : SimEvent} {value : Frozen} {c : Prop}

/-- The method returns exactly under the condition, and then a second call does nothing. -/
structure Handled (x : ResourceM Unit) (h : Host ResourceModel) (c : Prop) : Prop where
  needs : Returns x h (fun _ _ => True) → c
  settles : c → Returns x h fun _ h' => Idle x h'.world

theorem frozenKey_eq_ok {v : Frozen} : frozenKey v = .ok k ↔ v = .str k := by
  cases v <;> simp only [frozenKey, Except.ok.injEq, Frozen.str.injEq, reduceCtorEq]

/-- The entry a payload value keys, with its key. -/
def keyed (d : Dict String α) : Frozen → Option (String × α)
  | .str k => (d.get? k).map fun v => (k, v)
  | _ => none

theorem keyed_eq_some {d : Dict String α} {value : Frozen} :
    keyed d value = some (k, v) ↔ value = .str k ∧ d.get? k = some v := by
  cases value with
  | str s =>
    rw [keyed, Option.map_eq_some_iff, Frozen.str.injEq]
    constructor
    · rintro ⟨w, hw, he⟩
      obtain ⟨rfl, rfl⟩ := Prod.mk.inj he
      exact ⟨rfl, hw⟩
    · rintro ⟨rfl, hv⟩
      exact ⟨v, hv, rfl⟩
  | _ => simp only [keyed, reduceCtorEq, false_and]

theorem replicaOf_eq (hv : payloadItem event "replica_id" = .ok value) :
    replicaOf m event = .ok (keyed m.replicas value) := by
  rw [replicaOf, hv]
  cases value <;> rfl

theorem transferOf_eq (hv : payloadItem event "transfer_id" = .ok value) :
    transferOf m event = .ok (keyed m.transfers value) := by
  rw [transferOf, hv]
  cases value <;> rfl

theorem onTaskEnqueued_handled (hs : Stood h) : Handled (onTaskEnqueued event) h
    (∃ w worker, payloadItem event "worker_id" = .ok (.str w) ∧
      h.world.workers.get? w = some worker ∧ Openings h w worker (activeOf h.world w)) := by
  constructor
  case needs =>
    intro hreturns
    rw [onTaskEnqueued, Returns.lift_bind_iff] at hreturns
    obtain ⟨value, hvalue, hreturns⟩ := hreturns
    rw [Returns.lift_bind_iff] at hreturns
    obtain ⟨w, hw, hreturns⟩ := hreturns
    obtain rfl := frozenKey_eq_ok.mp hw
    obtain ⟨worker, hopen⟩ := (dispatch_returns_iff hs).mp hreturns
    exact ⟨w, worker, hvalue, hopen⟩
  case settles =>
    rintro ⟨w, worker, hvalue, hopen⟩
    have hrun (h : Host ResourceModel) : onTaskEnqueued event h = dispatch w h := by
      rw [onTaskEnqueued, hvalue]
      rfl
    obtain ⟨_, h', hok, _⟩ := (dispatch_returns_iff hs).mpr ⟨worker, hopen⟩
    refine ⟨⟨⟩, h', (hrun h).trans hok, fun h₁ hw => ?_⟩
    rw [hrun]
    exact (dispatch_ok hs hok).2 h₁ hw

theorem onTaskCompleted_idle (hv : payloadItem event "task_id" = .ok taskId)
    (hv' : payloadItem event "worker_id" = .ok workerId)
    (hn : ∀ t task, taskId = .str t → m.tasks.get? t = some task → task.status ≠ .running) :
    Idle (onTaskCompleted event) m := by
  rintro h rfl
  rw [onTaskCompleted, hv, hv']
  rw [ok_bind_apply (lift_eq_ok.mpr ⟨rfl, rfl⟩), ok_bind_apply (lift_eq_ok.mpr ⟨rfl, rfl⟩), get_bind_apply]
  cases taskId with
  | str t =>
    rw [frozenGet?]
    cases ht : h.world.tasks.get? t with
    | none => rfl
    | some task =>
      dsimp only
      rw [if_pos (hn t task rfl ht)]
      rfl
  | _ => rfl

theorem onTaskCompleted_eq (hv : payloadItem event "task_id" = .ok (.str t))
    (hv' : payloadItem event "worker_id" = .ok (.str w)) (ht : h.world.tasks.get? t = some task)
    (hr : task.status = .running) (ha : w ∈ h.world.workerActive) : onTaskCompleted event h =
      dispatch w { h with world := h.world.complete w t task h.history.sim.now } := by
  obtain ⟨active, hactive⟩ := Dict.mem_iff.mp ha
  rw [onTaskCompleted, hv, hv']
  rw [ok_bind_apply (lift_eq_ok.mpr ⟨rfl, rfl⟩), ok_bind_apply (lift_eq_ok.mpr ⟨rfl, rfl⟩), get_bind_apply]
  rw [frozenGet?, ht]
  dsimp only
  rw [if_neg (not_not.mpr hr)]
  change EStateM.bind (liftM (item h.world.workerActive w)) _ h = _
  rw [EStateM.bind, lift_eq_ok.mpr ⟨item_eq_ok.mpr hactive, rfl⟩]
  have heq : activeOf h.world w = active := by rw [activeOf, hactive, Option.getD_some]
  rw [ResourceModel.complete, heq]
  rfl

theorem openings_congr {h h' : Host ResourceModel} (hh : h'.history = h.history)
    (hq : queueOf h'.world w = queueOf h.world w)
    (ht : ∀ t ∈ queueOf h.world w, h'.world.tasks.get? t = h.world.tasks.get? t) :
    Openings h' w worker active ↔ Openings h w worker active := by
  unfold Openings
  rw [hq, hh]
  apply forall_congr'
  intro _
  apply forall₂_congr
  intro t hm
  have hget := ht t (List.mem_of_mem_take hm)
  constructor
  · exact fun ⟨hfinite, hfree⟩ => ⟨hget ▸ hfinite, hfree⟩
  · exact fun ⟨hfinite, hfree⟩ => ⟨hget ▸ hfinite, hfree⟩

theorem onTaskCompleted_handled (hs : Stood h) : Handled (onTaskCompleted event) h
    (∃ taskId workerId, payloadItem event "task_id" = .ok taskId ∧
      payloadItem event "worker_id" = .ok workerId ∧
      ∀ t task, taskId = .str t → h.world.tasks.get? t = some task → task.status = .running →
        ∃ w worker, workerId = .str w ∧ h.world.workers.get? w = some worker ∧
          Openings h w worker ((activeOf h.world w).erase t)) := by
  have hnot {task : ResourceTask} (hr : task.status = .running) : task.status ≠ .queued := by
    rw [hr]
    exact nofun
  have hstood {t task w} (ht : h.world.tasks.get? t = some task) (hr : task.status = .running) :
      Stood { h with world := h.world.complete w t task h.history.sim.now } :=
    ⟨hs.world.complete ht (hnot hr) (by exact nofun) w⟩
  have hopen {t task w} (ht : h.world.tasks.get? t = some task) (hr : task.status = .running) :
      Returns (dispatch w) { h with world := h.world.complete w t task h.history.sim.now }
          (fun _ _ => True) ↔
        ∃ worker, h.world.workers.get? w = some worker ∧
          Openings h w worker ((activeOf h.world w).erase t) := by
    rw [dispatch_returns_iff (hstood ht hr)]
    apply exists_congr
    intro worker
    apply and_congr_right
    intro _
    have hactive : activeOf (h.world.complete w t task h.history.sim.now) w =
        (activeOf h.world w).erase t := (activeOf_set (m := h.world) rfl).trans (if_pos rfl)
    dsimp only
    rw [hactive]
    apply openings_congr
    · rfl
    · rfl
    · intro s hm
      exact Dict.get?_set_ne _ _ fun he => hs.world.not_waiting ht (hnot hr) w (he ▸ hm)
  constructor
  case needs =>
    rintro ⟨_, h', hok, _⟩
    have hall := hok
    rw [onTaskCompleted] at hall
    obtain ⟨taskId, _, hfirst, hafter⟩ := bind_eq_ok.mp hall
    obtain ⟨hv, rfl⟩ := lift_eq_ok.mp hfirst
    obtain ⟨workerId, _, hsecond, hlast⟩ := bind_eq_ok.mp hafter
    obtain ⟨hv', rfl⟩ := lift_eq_ok.mp hsecond
    refine ⟨taskId, workerId, hv, hv', ?_⟩
    rintro t task rfl ht hr
    rw [get_bind_apply, frozenGet?, ht] at hlast
    dsimp only at hlast
    rw [if_neg (not_not.mpr hr)] at hlast
    obtain ⟨_, _, hthird, hlast₁⟩ := bind_eq_ok.mp hlast
    obtain ⟨_, rfl⟩ := lift_eq_ok.mp hthird
    obtain ⟨w, _, hfourth, hlast₂⟩ := bind_eq_ok.mp hlast₁
    obtain ⟨hkey, rfl⟩ := lift_eq_ok.mp hfourth
    obtain rfl := frozenKey_eq_ok.mp hkey
    obtain ⟨active, _, hfifth, _⟩ := bind_eq_ok.mp hlast₂
    obtain ⟨hitem, rfl⟩ := lift_eq_ok.mp hfifth
    rw [onTaskCompleted_eq hv hv' ht hr (Dict.mem_of_get? (item_eq_ok.mp hitem))] at hok
    obtain ⟨worker, hworker⟩ := (hopen ht hr).mp ⟨⟨⟩, h', hok, True.intro⟩
    exact ⟨w, worker, rfl, hworker⟩
  case settles =>
    rintro ⟨taskId, workerId, hv, hv', hrun⟩
    by_cases hn : ∀ t task, taskId = .str t → h.world.tasks.get? t = some task →
        task.status ≠ .running
    · have hidle := onTaskCompleted_idle hv hv' hn
      exact ⟨⟨⟩, h, hidle h rfl, hidle⟩
    · simp only [not_forall, ne_eq, not_not, exists_prop] at hn
      obtain ⟨t, task, rfl, ht, hr⟩ := hn
      obtain ⟨w, worker, rfl, hworker, hopenings⟩ := hrun t task rfl ht hr
      have ha := (hs.world.lists w (Dict.mem_of_get? hworker)).2
      obtain ⟨_, h', hok, _⟩ := (hopen ht hr).mpr ⟨worker, hworker, hopenings⟩
      refine ⟨⟨⟩, h', (onTaskCompleted_eq hv hv' ht hr ha).trans hok, onTaskCompleted_idle hv hv' ?_⟩
      -- the completed task was in no queue, so it has not been started again
      obtain ⟨⟨_, hfilled⟩, _⟩ := dispatch_ok (hstood ht hr) hok
      have hout := (hstood (w := w) ht hr).world.not_waiting (Dict.get?_set_self _ _ _)
        (by exact nofun) w
      rintro s other he hother hrunning
      obtain rfl := Frozen.str.inj he
      rw [hfilled.others t hout] at hother
      obtain rfl := Option.some.inj ((Dict.get?_set_self _ _ _).symm.trans hother)
      cases hrunning

theorem onWorkerRecovered_eq (hv : payloadItem event "worker_id" = .ok (.str w))
    (hw : h.world.workers.get? w = some worker) : onWorkerRecovered event h =
      if worker.status = .up then .ok ⟨⟩ h
      else dispatch w { h with world := { h.world with
        workers := h.world.workers.set w { worker with status := .up } } } := by
  rw [onWorkerRecovered, hv]
  change EStateM.bind (liftM (item h.world.workers w)) _ h = _
  rw [EStateM.bind, lift_eq_ok.mpr ⟨item_eq_ok.mpr hw, rfl⟩]
  dsimp only
  split <;> rfl

theorem onWorkerRecovered_handled (hs : Stood h) : Handled (onWorkerRecovered event) h
    (∃ w worker, payloadItem event "worker_id" = .ok (.str w) ∧
      h.world.workers.get? w = some worker ∧
      (worker.status = .down → Openings h w { worker with status := .up } (activeOf h.world w))) := by
  have hstood {w worker} (hw : h.world.workers.get? w = some worker) : Stood { h with
      world := { h.world with workers := h.world.workers.set w { worker with status := .up } } } :=
    ⟨hs.world.set_worker (Dict.mem_of_get? hw) _⟩
  have hopen {w worker} (hw : h.world.workers.get? w = some worker) :
      Returns (dispatch w) { h with world := { h.world with
        workers := h.world.workers.set w { worker with status := .up } } } (fun _ _ => True) ↔
        Openings h w { worker with status := .up } (activeOf h.world w) := by
    rw [dispatch_returns_iff (hstood hw)]
    simp only [Dict.get?_set_self, Option.some.injEq, exists_eq_left']
    exact openings_congr rfl rfl fun _ _ => rfl
  constructor
  case needs =>
    rintro ⟨_, h', hok, _⟩
    have hall := hok
    rw [onWorkerRecovered] at hall
    obtain ⟨value, _, hfirst, hafter⟩ := bind_eq_ok.mp hall
    obtain ⟨hvalue, rfl⟩ := lift_eq_ok.mp hfirst
    obtain ⟨w, _, hsecond, hlast⟩ := bind_eq_ok.mp hafter
    obtain ⟨hkey, rfl⟩ := lift_eq_ok.mp hsecond
    obtain rfl := frozenKey_eq_ok.mp hkey
    rw [get_bind_apply] at hlast
    obtain ⟨worker, _, hthird, _⟩ := bind_eq_ok.mp hlast
    obtain ⟨hitem, rfl⟩ := lift_eq_ok.mp hthird
    have hworker := item_eq_ok.mp hitem
    refine ⟨w, worker, hvalue, hworker, fun hdown => ?_⟩
    have hnot : worker.status ≠ .up := by
      rw [hdown]
      intro h
      cases h
    rw [onWorkerRecovered_eq hvalue hworker, if_neg hnot] at hok
    exact (hopen hworker).mp ⟨⟨⟩, h', hok, True.intro⟩
  case settles =>
    rintro ⟨w, worker, hvalue, hworker, hdown⟩
    have hidle {m : ResourceModel} {worker'} (hw : m.workers.get? w = some worker')
        (hup : worker'.status = .up) : Idle (onWorkerRecovered event) m := by
      rintro h₁ rfl
      rw [onWorkerRecovered_eq hvalue hw, if_pos hup]
    by_cases hup : worker.status = .up
    · exact ⟨⟨⟩, h, hidle hworker hup h rfl, hidle hworker hup⟩
    · have hdown := hdown (by cases hs : worker.status with | up => exact (hup hs).elim | down => rfl)
      obtain ⟨_, h', hok, _⟩ := (hopen hworker).mpr hdown
      obtain ⟨⟨_, hfilled⟩, _⟩ := dispatch_ok (hstood hworker) hok
      have hself : h'.world.workers.get? w = some { worker with status := .up } := by
        rw [hfilled.workers]
        exact Dict.get?_set_self _ _ _
      refine ⟨⟨⟩, h', ?_, hidle hself rfl⟩
      rw [onWorkerRecovered_eq hvalue hworker, if_neg hup]
      exact hok

theorem onWorkerFailed_idle (hv : payloadItem event "worker_id" = .ok (.str w))
    (hw : m.workers.get? w = some worker) (hd : worker.status = .down) :
    Idle (onWorkerFailed event) m := by
  rintro h rfl
  rw [onWorkerFailed, hv]
  change EStateM.bind (liftM (item h.world.workers w)) _ h = _
  rw [EStateM.bind, lift_eq_ok.mpr ⟨item_eq_ok.mpr hw, rfl⟩]
  dsimp only
  rw [if_pos hd]
  rfl

theorem onWorkerFailed_returns (hs : Stood h) (hf : NumbersFree h.history.sim)
    (hv : payloadItem event "worker_id" = .ok (.str w)) (hw : h.world.workers.get? w = some worker)
    (hup : worker.status ≠ .down) : Returns (onWorkerFailed event) h fun _ h' =>
      h'.world.workers = h.world.workers.set w { worker with status := .down } := by
  obtain ⟨active, hactive⟩ := Dict.mem_iff.mp (hs.world.lists w (Dict.mem_of_get? hw)).2
  have heq : activeOf h.world w = active := by rw [activeOf, hactive, Option.getD_some]
  rw [onWorkerFailed]
  apply Returns.lift_bind hv
  apply Returns.lift_bind (a := w) rfl
  apply Returns.get_bind_iff.mpr
  apply Returns.lift_bind (item_eq_ok.mpr hw)
  rw [if_neg hup]
  apply Returns.modify_bind_iff.mpr
  apply Returns.lift_bind (item_eq_ok.mpr hactive)
  apply Returns.modify_bind_iff.mpr
  have hknown (t : String) (ht : t ∈ active) : t ∈ h.world.tasks := by
    obtain ⟨task, htask, _⟩ := hs.world.active w t (heq ▸ ht)
    exact Dict.mem_of_get? htask
  obtain ⟨_, h₁, hok₁, hacts₁, hw₁⟩ := failTasks_yields (w := w) (h := { h with
    world := { h.world with
      workers := h.world.workers.set w { worker with status := .down }
      workerActive := h.world.workerActive.set w [] } }) hf hknown
  have hf₁ := hacts₁.numbersFree (fun _ ha => ha) hf
  apply (Returns.ok_bind_iff hok₁).mpr
  apply Returns.get_bind_iff.mpr
  obtain ⟨_, h₂, hok₂, hacts₂, hw₂⟩ := loseReplicas_yields w hf₁
  apply (Returns.ok_bind_iff hok₂).mpr
  apply Returns.get_bind_iff.mpr
  obtain ⟨_, h₃, hok₃, _, hw₃⟩ := failTransfers_yields
    (fun t => w = t.sourceId || w = t.destinationId) (hacts₂.numbersFree (fun _ ha => ha) hf₁)
  refine ⟨_, h₃, hok₃, ?_⟩
  dsimp only
  rw [hw₃, hw₂, hw₁]

theorem onWorkerFailed_handled (hs : Stood h) (hf : NumbersFree h.history.sim) :
    Handled (onWorkerFailed event) h
      (∃ w, payloadItem event "worker_id" = .ok (.str w) ∧ w ∈ h.world.workers) := by
  constructor
  case needs =>
    rintro ⟨_, h', hok, _⟩
    rw [onWorkerFailed] at hok
    obtain ⟨value, _, hfirst, hafter⟩ := bind_eq_ok.mp hok
    obtain ⟨hvalue, rfl⟩ := lift_eq_ok.mp hfirst
    obtain ⟨w, _, hsecond, hlast⟩ := bind_eq_ok.mp hafter
    obtain ⟨hkey, rfl⟩ := lift_eq_ok.mp hsecond
    obtain rfl := frozenKey_eq_ok.mp hkey
    rw [get_bind_apply] at hlast
    obtain ⟨worker, _, hthird, _⟩ := bind_eq_ok.mp hlast
    obtain ⟨hitem, rfl⟩ := lift_eq_ok.mp hthird
    exact ⟨w, hvalue, Dict.mem_of_get? (item_eq_ok.mp hitem)⟩
  case settles =>
    rintro ⟨w, hv, hw⟩
    obtain ⟨worker, hworker⟩ := Dict.mem_iff.mp hw
    by_cases hd : worker.status = .down
    · have hidle := onWorkerFailed_idle hv hworker hd
      exact ⟨⟨⟩, h, hidle h rfl, hidle⟩
    · apply (onWorkerFailed_returns hs hf hv hworker hd).mono
      intro _ h' hworkers
      have hself : h'.world.workers.get? w = some { worker with status := .down } := by
        rw [hworkers]
        exact Dict.get?_set_self _ _ _
      exact onWorkerFailed_idle hv hself rfl

theorem onMaterializationStarted_idle (hv : payloadItem event "replica_id" = .ok value)
    (hd : payloadItem event "duration" = .ok duration)
    (hn : ∀ k r, value = .str k → m.replicas.get? k = some r → r.status ≠ .materializing) :
    Idle (onMaterializationStarted event) m := by
  rintro h rfl
  rw [onMaterializationStarted, get_bind_apply]
  apply bind_eq_ok.mpr ⟨_, h, lift_eq_ok.mpr ⟨replicaOf_eq hv, rfl⟩, ?_⟩
  apply bind_eq_ok.mpr ⟨_, h, lift_eq_ok.mpr ⟨hd, rfl⟩, ?_⟩
  cases hk : keyed h.world.replicas value with
  | none => rfl
  | some p =>
    obtain ⟨hvalue, hr⟩ := keyed_eq_some.mp hk
    dsimp only
    rw [if_pos (hn _ _ hvalue hr)]
    rfl

theorem onStateMaterialized_idle (hv : payloadItem event "replica_id" = .ok value)
    (hn : ∀ k r, value = .str k → m.replicas.get? k = some r → r.status ≠ .materializing) :
    Idle (onStateMaterialized event) m := by
  rintro h rfl
  rw [onStateMaterialized, get_bind_apply]
  apply bind_eq_ok.mpr ⟨_, h, lift_eq_ok.mpr ⟨replicaOf_eq hv, rfl⟩, ?_⟩
  cases hk : keyed h.world.replicas value with
  | none => rfl
  | some p =>
    obtain ⟨hvalue, hr⟩ := keyed_eq_some.mp hk
    dsimp only
    rw [if_pos (hn _ _ hvalue hr)]
    rfl

theorem loseMaterializing_returns (hf : NumbersFree h.history.sim) :
    Returns (loseMaterializing k r) h fun _ h' =>
      h'.world = { h.world with replicas := h.world.replicas.set k r } := by
  obtain ⟨_, h', hok, _, hw⟩ := write_yields (h := h)
    (fun m => { m with replicas := m.replicas.set k r }) .stateLost [("replica_id", k)] hf
  exact ⟨⟨⟩, h', hok, hw⟩

theorem forall_keyed_set {d : Dict String α} {P : α → Prop} (hv : P v) (hd : d' = d.set k v) :
    ∀ k' v', Frozen.str k = .str k' → d'.get? k' = some v' → P v' := by
  rintro k' v' he hget
  obtain rfl := Frozen.str.inj he
  rw [hd, Dict.get?_set_self] at hget
  exact Option.some.inj hget ▸ hv

theorem onMaterializationStarted_handled (hs : Stood h) (hf : NumbersFree h.history.sim)
    (hn : ∀ k r, payloadItem event "replica_id" = .ok (.str k) → h.world.replicas.get? k = some r →
      r.status = .materializing → ¬ h.world.Up r.locationId) :
    Handled (onMaterializationStarted event) h
      (∃ replicaId duration, payloadItem event "replica_id" = .ok replicaId ∧
        payloadItem event "duration" = .ok duration) := by
  constructor
  case needs =>
    rintro ⟨_, h', hok, _⟩
    rw [onMaterializationStarted, get_bind_apply] at hok
    obtain ⟨found, _, hfirst, hafter⟩ := bind_eq_ok.mp hok
    obtain ⟨hfound, rfl⟩ := lift_eq_ok.mp hfirst
    obtain ⟨value, hvalue, _⟩ := Except.bind_eq_ok.mp hfound
    obtain ⟨duration, _, hsecond, _⟩ := bind_eq_ok.mp hafter
    obtain ⟨hduration, _⟩ := lift_eq_ok.mp hsecond
    exact ⟨value, duration, hvalue, hduration⟩
  case settles =>
    rintro ⟨value, duration, hv, hd⟩
    by_cases hm : ∃ k r, value = .str k ∧ h.world.replicas.get? k = some r ∧ r.status = .materializing
    · obtain ⟨k, r, rfl, hr, hstatus⟩ := hm
      obtain ⟨worker, hworker⟩ := Dict.mem_iff.mp (hs.world.located k r hr)
      have hdown : worker.status = .down := by
        cases hw : worker.status with
        | up => exact (hn k r hv hr hstatus ⟨worker, hworker, hw⟩).elim
        | down => rfl
      rw [onMaterializationStarted]
      apply Returns.get_bind_iff.mpr
      apply Returns.lift_bind (replicaOf_eq hv)
      apply Returns.lift_bind hd
      rw [keyed_eq_some.mpr ⟨rfl, hr⟩]
      dsimp only
      rw [if_neg (not_not.mpr hstatus)]
      apply Returns.lift_bind (item_eq_ok.mpr hworker)
      rw [if_pos hdown]
      apply (loseMaterializing_returns hf).mono
      intro _ h' hworld
      apply onMaterializationStarted_idle hv hd
      exact forall_keyed_set (v := { r with status := .lost }) nofun (by rw [hworld])
    · have hidle : Idle (onMaterializationStarted event) h.world :=
        onMaterializationStarted_idle hv hd fun k r he hr hstatus => hm ⟨k, r, he, hr, hstatus⟩
      exact ⟨⟨⟩, h, hidle h rfl, hidle⟩

theorem onStateMaterialized_handled (hs : Stood h) (hf : NumbersFree h.history.sim) :
    Handled (onStateMaterialized event) h
      (∃ replicaId, payloadItem event "replica_id" = .ok replicaId) := by
  constructor
  case needs =>
    rintro ⟨_, h', hok, _⟩
    rw [onStateMaterialized, get_bind_apply] at hok
    obtain ⟨found, _, hfirst, _⟩ := bind_eq_ok.mp hok
    obtain ⟨hfound, _⟩ := lift_eq_ok.mp hfirst
    obtain ⟨value, hvalue, _⟩ := Except.bind_eq_ok.mp hfound
    exact ⟨value, hvalue⟩
  case settles =>
    rintro ⟨value, hv⟩
    by_cases hm : ∃ k r, value = .str k ∧ h.world.replicas.get? k = some r ∧ r.status = .materializing
    · obtain ⟨k, r, rfl, hr, hstatus⟩ := hm
      obtain ⟨worker, hworker⟩ := Dict.mem_iff.mp (hs.world.located k r hr)
      rw [onStateMaterialized]
      apply Returns.get_bind_iff.mpr
      apply Returns.lift_bind (replicaOf_eq hv)
      rw [keyed_eq_some.mpr ⟨rfl, hr⟩]
      dsimp only
      rw [if_neg (not_not.mpr hstatus)]
      apply Returns.lift_bind (item_eq_ok.mpr hworker)
      split
      · apply (loseMaterializing_returns hf).mono
        intro _ h' hworld
        apply onStateMaterialized_idle hv
        exact forall_keyed_set (v := { r with status := .lost, completionEventId := none }) nofun
          (by rw [hworld])
      · refine ⟨⟨⟩, _, rfl, onStateMaterialized_idle hv ?_⟩
        exact forall_keyed_set (v := { r with status := .available, completionEventId := none }) nofun
          rfl
    · have hidle : Idle (onStateMaterialized event) h.world :=
        onStateMaterialized_idle hv fun k r he hr hstatus => hm ⟨k, r, he, hr, hstatus⟩
      exact ⟨⟨⟩, h, hidle h rfl, hidle⟩

/-- The request for the completion of a transfer. -/
def transferRequest (k : String) (duration : Binary64) : ScheduleRequest :=
  { kind := .stateTransferCompleted, delay := some (.float duration)
    eventId := some s!"transfer-complete:{k}"
    payload := payloadOf [("transfer_id", .str k)] }

theorem schedule_transfer_iff {sim : Simulator} :
    (∃ event sim', sim.schedule (transferRequest k x) = .ok (event, sim')) ↔
      (∃ d, finiteNonnegative (.float x) "delay" = .ok d ∧ sim.now.add d ≠ none) ∧
        "transfer-complete:" ++ k ∉ sim.knownIds := by
  have htime : sim.eventTime (transferRequest k x) =
      (finiteNonnegative (.float x) "delay").map sim.now.add := by
    simp only [Simulator.eventTime, transferRequest, Simulator.delayValue]
    cases finiteNonnegative (.float x) "delay" <;> rfl
  constructor
  · rintro ⟨event, sim', hok⟩
    obtain ⟨_, _, hid, _, htime', _, _, hnew⟩ := schedule_eq_ok_iff.mp hok
    rw [htime] at htime'
    have hid : event.eventId = "transfer-complete:" ++ k := hid
    refine ⟨?_, hid ▸ hnew⟩
    cases hd : finiteNonnegative (.float x) "delay" with
    | error e =>
      rw [hd] at htime'
      cases htime'
    | ok d =>
      rw [hd] at htime'
      have hadd : sim.now.add d = some event.time := Except.ok.inj htime'
      exact ⟨d, rfl, fun hnone => Option.some_ne_none _ (hadd.symm.trans hnone)⟩
  · rintro ⟨⟨d, hd, hadd⟩, hnew⟩
    obtain ⟨time, hadd⟩ := Option.ne_none_iff_exists'.mp hadd
    have hne : "transfer-complete:" ++ k ≠ "" := by
      intro he
      have hlist := congrArg String.toList he
      simp only [String.toList_append, String.toList_empty, List.append_eq_nil_iff] at hlist
      exact absurd hlist.1 (by decide)
    have hevent : sim.eventTime (transferRequest k x) = .ok (some time) := by
      rw [htime, hd]
      exact congrArg Except.ok hadd
    exact ⟨_, _, schedule_eq hevent hne hnew (freezePayload_strings [("transfer_id", k)])⟩

theorem Standing.transferBlocked_ok (hs : Standing m) {t : StateTransfer}
    (ht : m.transfers.get? k = some t) (r : ReplicaRuntime) : ∃ b, transferBlocked m r t = .ok b := by
  have hc := hs.carried k t ht
  obtain ⟨source, hsource⟩ := Dict.mem_iff.mp hc.source
  obtain ⟨destination, hdestination⟩ := Dict.mem_iff.mp hc.destination
  unfold transferBlocked
  split
  · exact ⟨true, rfl⟩
  · rw [item_eq_ok.mpr hsource, item_eq_ok.mpr hdestination]
    by_cases hd : source.status = .down
    · exact ⟨true, if_pos hd⟩
    · exact ⟨_, if_neg hd⟩

theorem onTransferStarted_idle (hv : payloadItem event "transfer_id" = .ok value)
    (hn : ∀ k t, value = .str k → m.transfers.get? k = some t → t.status ≠ .scheduled) :
    Idle (onTransferStarted event) m := by
  rintro h rfl
  rw [onTransferStarted, get_bind_apply]
  apply bind_eq_ok.mpr ⟨_, h, lift_eq_ok.mpr ⟨transferOf_eq hv, rfl⟩, ?_⟩
  cases hk : keyed h.world.transfers value with
  | none => rfl
  | some p =>
    obtain ⟨hvalue, ht⟩ := keyed_eq_some.mp hk
    dsimp only
    rw [if_pos (hn _ _ hvalue ht)]
    rfl

theorem onTransferCompleted_idle (hv : payloadItem event "transfer_id" = .ok value)
    (hn : ∀ k t, value = .str k → m.transfers.get? k = some t → t.status ≠ .running) :
    Idle (onTransferCompleted event) m := by
  rintro h rfl
  rw [onTransferCompleted, get_bind_apply]
  apply bind_eq_ok.mpr ⟨_, h, lift_eq_ok.mpr ⟨transferOf_eq hv, rfl⟩, ?_⟩
  cases hk : keyed h.world.transfers value with
  | none => rfl
  | some p =>
    obtain ⟨hvalue, ht⟩ := keyed_eq_some.mp hk
    dsimp only
    rw [if_pos (hn _ _ hvalue ht)]
    rfl

theorem abandonTransfer_returns {t : StateTransfer} (hf : NumbersFree h.history.sim) :
    Returns (abandonTransfer k t) h fun _ h' =>
      h'.world = { h.world with transfers := h.world.transfers.set k t } := by
  obtain ⟨_, h', hok, _, hw⟩ := write_yields (h := h)
    (fun m => { m with transfers := m.transfers.set k t }) .stateTransferFailed [("transfer_id", k)] hf
  exact ⟨⟨⟩, h', hok, hw⟩

theorem onTransferStarted_handled (hs : Stood h) (hf : NumbersFree h.history.sim) :
    Handled (onTransferStarted event) h
      (∃ transferId, payloadItem event "transfer_id" = .ok transferId ∧
        ∀ k t, transferId = .str k → h.world.transfers.get? k = some t → t.status = .scheduled →
          t.Grounded h.world → Sendable h k t) := by
  constructor
  case needs =>
    rintro ⟨_, h', hok, _⟩
    rw [onTransferStarted, get_bind_apply] at hok
    obtain ⟨found, _, hfirst, hafter⟩ := bind_eq_ok.mp hok
    obtain ⟨hfound, rfl⟩ := lift_eq_ok.mp hfirst
    obtain ⟨value, hv, _⟩ := Except.bind_eq_ok.mp hfound
    refine ⟨value, hv, ?_⟩
    rintro k t rfl ht hstatus hgrounded
    rw [transferOf_eq hv, keyed_eq_some.mpr ⟨rfl, ht⟩, Except.ok.injEq] at hfound
    subst hfound
    dsimp only at hafter
    rw [if_neg (not_not.mpr hstatus)] at hafter
    obtain ⟨r, _, hsecond, hafter₁⟩ := bind_eq_ok.mp hafter
    obtain ⟨hitem, rfl⟩ := lift_eq_ok.mp hsecond
    obtain ⟨blocked, _, hthird, hafter₂⟩ := bind_eq_ok.mp hafter₁
    obtain ⟨hblocked, rfl⟩ := lift_eq_ok.mp hthird
    obtain ⟨r', hr', hfree⟩ := hgrounded.not_blocked
    obtain rfl := Option.some.inj (hr'.symm.trans (item_eq_ok.mp hitem))
    obtain rfl := Except.ok.inj (hfree.symm.trans hblocked)
    rw [if_neg Bool.false_ne_true] at hafter₂
    obtain ⟨link, _, hfourth, hafter₃⟩ := bind_eq_ok.mp hafter₂
    obtain ⟨hlink, rfl⟩ := lift_eq_ok.mp hfourth
    obtain ⟨x, _, hfifth, hafter₄⟩ := bind_eq_ok.mp hafter₃
    obtain ⟨hx, rfl⟩ := lift_eq_ok.mp hfifth
    obtain ⟨completion, _, hsixth, _⟩ := bind_eq_ok.mp hafter₄
    obtain ⟨⟨sim, hok'⟩, _⟩ := scheduleEvent_eq_ok hsixth
    obtain ⟨⟨d, hd, hadd⟩, hnew⟩ := schedule_transfer_iff.mp ⟨completion, sim, hok'⟩
    refine ⟨fun link' hlink' => ⟨x, d, ?_, hd, hadd⟩, hnew⟩
    obtain rfl := Option.some.inj ((item_eq_ok.mp hlink).symm.trans hlink')
    exact hx
  case settles =>
    rintro ⟨value, hv, hsend⟩
    by_cases hm : ∃ k t, value = .str k ∧ h.world.transfers.get? k = some t ∧ t.status = .scheduled
    · obtain ⟨k, t, rfl, ht, hstatus⟩ := hm
      obtain ⟨r, hr⟩ := Dict.mem_iff.mp (hs.world.carried k t ht).replica
      obtain ⟨blocked, hblocked⟩ := hs.world.transferBlocked_ok ht r
      rw [onTransferStarted]
      apply Returns.get_bind_iff.mpr
      apply Returns.lift_bind (transferOf_eq hv)
      rw [keyed_eq_some.mpr ⟨rfl, ht⟩]
      dsimp only
      rw [if_neg (not_not.mpr hstatus)]
      apply Returns.lift_bind (item_eq_ok.mpr hr)
      apply Returns.lift_bind hblocked
      cases blocked with
      | true =>
        rw [if_pos rfl]
        apply (abandonTransfer_returns hf).mono
        intro _ h' hworld
        apply onTransferStarted_idle hv
        exact forall_keyed_set (v := { t with
          status := .failed
          startedAt := some h.history.sim.now
          completedAt := some h.history.sim.now }) (by intro h; cases h) (by rw [hworld])
      | false =>
        rw [if_neg Bool.false_ne_true]
        obtain ⟨link, hlink⟩ := Dict.mem_iff.mp (hs.world.carried k t ht).link
        have hsend := hsend k t rfl ht hstatus (transferBlocked_eq_false hr hblocked)
        obtain ⟨x, d, hx, hd, hadd⟩ := hsend.finite link hlink
        obtain ⟨completion, sim, hok⟩ := schedule_transfer_iff.mpr ⟨⟨d, hd, hadd⟩, hsend.free⟩
        apply Returns.lift_bind (item_eq_ok.mpr hlink)
        apply Returns.lift_bind hx
        refine Returns.scheduleEvent_bind_iff.mpr ⟨completion, sim, hok, ⟨⟩, _, rfl, ?_⟩
        apply onTransferStarted_idle hv
        exact forall_keyed_set (v := { t with
          status := .running
          startedAt := some h.history.sim.now
          completionEventId := some completion.eventId }) (by intro h; cases h) rfl
    · have hidle : Idle (onTransferStarted event) h.world :=
        onTransferStarted_idle hv fun k t he ht hstatus => hm ⟨k, t, he, ht, hstatus⟩
      exact ⟨⟨⟩, h, hidle h rfl, hidle⟩

theorem onTransferCompleted_handled (hs : Stood h) (hf : NumbersFree h.history.sim) :
    Handled (onTransferCompleted event) h
      (∃ transferId, payloadItem event "transfer_id" = .ok transferId) := by
  constructor
  case needs =>
    rintro ⟨_, h', hok, _⟩
    rw [onTransferCompleted, get_bind_apply] at hok
    obtain ⟨found, _, hfirst, _⟩ := bind_eq_ok.mp hok
    obtain ⟨hfound, _⟩ := lift_eq_ok.mp hfirst
    obtain ⟨value, hv, _⟩ := Except.bind_eq_ok.mp hfound
    exact ⟨value, hv⟩
  case settles =>
    rintro ⟨value, hv⟩
    by_cases hm : ∃ k t, value = .str k ∧ h.world.transfers.get? k = some t ∧ t.status = .running
    · obtain ⟨k, t, rfl, ht, hstatus⟩ := hm
      obtain ⟨r, hr⟩ := Dict.mem_iff.mp (hs.world.carried k t ht).replica
      obtain ⟨blocked, hblocked⟩ := hs.world.transferBlocked_ok ht r
      rw [onTransferCompleted]
      apply Returns.get_bind_iff.mpr
      apply Returns.lift_bind (transferOf_eq hv)
      rw [keyed_eq_some.mpr ⟨rfl, ht⟩]
      dsimp only
      rw [if_neg (not_not.mpr hstatus)]
      apply Returns.lift_bind (item_eq_ok.mpr hr)
      apply Returns.lift_bind hblocked
      cases blocked with
      | true =>
        rw [if_pos rfl]
        apply (abandonTransfer_returns hf).mono
        intro _ h' hworld
        apply onTransferCompleted_idle hv
        exact forall_keyed_set (v := { t with
          status := .failed
          completedAt := some h.history.sim.now
          completionEventId := none }) (by intro h; cases h) (by rw [hworld])
      | false =>
        rw [if_neg Bool.false_ne_true]
        obtain ⟨_, h', hok, _, hworld⟩ := write_yields (h := h)
          (fun m => { m with
            replicas := m.replicas.set t.replicaId { r with locationId := t.destinationId }
            transfers := m.transfers.set k { t with
              status := .completed
              completedAt := some h.history.sim.now
              completionEventId := none } })
          .stateMoved [("replica_id", t.replicaId), ("source_id", t.sourceId),
            ("destination_id", t.destinationId)] hf
        refine ⟨⟨⟩, h', hok, onTransferCompleted_idle hv ?_⟩
        exact forall_keyed_set (v := { t with
          status := .completed
          completedAt := some h.history.sim.now
          completionEventId := none }) (by intro h; cases h) (by rw [hworld])
    · have hidle : Idle (onTransferCompleted event) h.world :=
        onTransferCompleted_idle hv fun k t he ht hstatus => hm ⟨k, t, he, ht, hstatus⟩
      exact ⟨⟨⟩, h, hidle h rfl, hidle⟩

theorem failTransfers_idle {l : List (String × StateTransfer)} {affected : StateTransfer → Bool}
    (hn : ∀ p ∈ l, ¬ (p.2.status.active ∧ affected p.2 = true)) (h : Host ResourceModel) :
    l.forM (failTransfer affected) h = .ok ⟨⟩ h := by
  induction l with
  | nil => rfl
  | cons p l ih =>
    have hfirst : failTransfer affected p h = .ok ⟨⟩ h := by
      rw [failTransfer, get_bind_apply, if_neg (hn p List.mem_cons_self)]
      rfl
    exact bind_eq_ok.mpr ⟨⟨⟩, h, hfirst, ih fun q hq => hn q (List.mem_cons_of_mem _ hq)⟩

/-- A replica that is lost, or gone in the way announced and without transfers, stays as it is. -/
theorem onReplicaGone_idle (hv : payloadItem event "replica_id" = .ok value)
    (hn : ∀ k r, value = .str k → m.replicas.get? k = some r → r.status = .lost ∨
      r.status = status ∧ r.completionEventId = none ∧
        ∀ p ∈ m.transfers.entries, ¬ (p.2.status.active ∧ p.2.replicaId = k)) :
    Idle (onReplicaGone status event) m := by
  rintro h rfl
  rw [onReplicaGone, get_bind_apply]
  apply bind_eq_ok.mpr ⟨_, h, lift_eq_ok.mpr ⟨replicaOf_eq hv, rfl⟩, ?_⟩
  cases hk : keyed h.world.replicas value with
  | none => rfl
  | some p =>
    obtain ⟨k, r⟩ := p
    obtain ⟨hvalue, hr⟩ := keyed_eq_some.mp hk
    dsimp only
    split
    · rfl
    · next hlost =>
      obtain ⟨hstatus, hnone, hended⟩ := (hn k r hvalue hr).resolve_left hlost
      have hloop : failActiveTransfersForReplica k h = .ok ⟨⟩ h :=
        failTransfers_idle (fun p hp hc => hended p hp ⟨hc.1, of_decide_eq_true hc.2⟩) h
      apply bind_eq_ok.mpr ⟨⟨⟩, h, hloop, ?_⟩
      rw [hnone]
      have hnothing : (cancelCompletion none : ResourceM Unit) h = .ok ⟨⟩ h := rfl
      apply bind_eq_ok.mpr ⟨⟨⟩, h, hnothing, ?_⟩
      have hself : { r with status, completionEventId := none } = r := by
        rw [← hstatus, ← hnone]
      have hsame : h.world.replicas.set k { r with status, completionEventId := none } =
          h.world.replicas := by
        rw [hself]
        exact Dict.set_same hr
      exact modify_eq_ok.mpr (congrArg
        (fun d => { h with world := { h.world with replicas := d } }) hsame)

theorem onReplicaGone_handled (hf : NumbersFree h.history.sim) :
    Handled (onReplicaGone status event) h
      (∃ replicaId, payloadItem event "replica_id" = .ok replicaId) := by
  constructor
  case needs =>
    rintro ⟨_, h', hok, _⟩
    rw [onReplicaGone, get_bind_apply] at hok
    obtain ⟨found, _, hfirst, _⟩ := bind_eq_ok.mp hok
    obtain ⟨hfound, _⟩ := lift_eq_ok.mp hfirst
    obtain ⟨value, hv, _⟩ := Except.bind_eq_ok.mp hfound
    exact ⟨value, hv⟩
  case settles =>
    rintro ⟨value, hv⟩
    by_cases hm : ∃ k r, value = .str k ∧ h.world.replicas.get? k = some r ∧ r.status ≠ .lost
    · obtain ⟨k, r, rfl, hr, hstatus⟩ := hm
      rw [onReplicaGone]
      apply Returns.get_bind_iff.mpr
      apply Returns.lift_bind (replicaOf_eq hv)
      rw [keyed_eq_some.mpr ⟨rfl, hr⟩]
      dsimp only
      rw [if_neg hstatus]
      obtain ⟨_, h₁, hok₁, _, hw₁⟩ := failTransfers_yields (fun t => t.replicaId = k) hf
      obtain ⟨_, h₂, hok₂, _, hw₂⟩ := cancelCompletion_yields r.completionEventId h₁
      have hloop : failActiveTransfersForReplica k h = .ok _ h₁ := hok₁
      apply (Returns.ok_bind_iff hloop).mpr
      apply (Returns.ok_bind_iff hok₂).mpr
      refine ⟨⟨⟩, _, rfl, onReplicaGone_idle hv ?_⟩
      rintro k' r' he hr'
      obtain rfl := Frozen.str.inj he
      obtain rfl := Option.some.inj ((Dict.get?_set_self _ _ _).symm.trans hr')
      refine .inr ⟨rfl, rfl, ?_⟩
      have htransfers : h₂.world.transfers = h.world.transfers.mapValues
          (·.failedIf (fun t => t.replicaId = k) h.history.sim.now) := by
        rw [hw₂, hw₁]
      rintro ⟨x, t⟩ hp ⟨hactive, hreplica⟩
      have ht : h₂.world.transfers.get? x = some t := Dict.get?_eq_some_iff.mpr hp
      rw [htransfers, Dict.get?_mapValues, Option.map_eq_some_iff] at ht
      obtain ⟨t', _, rfl⟩ := ht
      obtain ⟨hsame, hnot⟩ := failedIf_of_active hactive
      rw [hsame] at hreplica
      exact of_decide_eq_false hnot hreplica
    · have hidle : Idle (onReplicaGone status event) h.world := by
        apply onReplicaGone_idle hv
        intro k r he hr
        by_cases hlost : r.status = .lost
        · exact .inl hlost
        · exact (hm ⟨k, r, he, hr, hlost⟩).elim
      exact ⟨⟨⟩, h, hidle h rfl, hidle⟩

/-- The second start of a materialization raises, as its completion is known already. -/
theorem not_repeats_of_begins (hb : Begins h.world event) (eventId : String) (sequence : Nat)
    (rest : List SimEvent) : ¬ Repeats h event { event with eventId, sequence } rest := by
  obtain ⟨hkind, k, r, hv, hr, hstatus, worker, hworker, hup⟩ := hb
  rintro ⟨h₁, h₂, hok, hok', _⟩
  have hhandle (e : SimEvent) (he : e.kind = .stateMaterializationStarted) :
      ResourceModel.handle e = onMaterializationStarted e := by
    rw [ResourceModel.handle, he]
  rw [hhandle event hkind] at hok
  rw [hhandle { event with eventId, sequence } hkind] at hok'
  -- where the delivery returns, it has scheduled the completion of a replica that materializes
  -- still
  have hstep {h h' : Host ResourceModel} {e : SimEvent}
      (hv : payloadItem e "replica_id" = .ok (.str k))
      (hr : ∃ r, h.world.replicas.get? k = some r ∧ r.status = .materializing ∧
        ∃ worker, h.world.workers.get? r.locationId = some worker ∧ worker.status = .up)
      (hok : onMaterializationStarted e h = .ok ⟨⟩ h') :
      "materialize-complete:" ++ k ∉ h.history.sim.knownIds ∧
        "materialize-complete:" ++ k ∈ h'.history.sim.knownIds ∧
        ∃ r, h'.world.replicas.get? k = some r ∧ r.status = .materializing ∧
          ∃ worker, h'.world.workers.get? r.locationId = some worker ∧ worker.status = .up := by
    obtain ⟨r, hr, hstatus, worker, hworker, hup⟩ := hr
    rw [onMaterializationStarted, get_bind_apply] at hok
    obtain ⟨found, _, hfirst, hafter⟩ := bind_eq_ok.mp hok
    obtain ⟨hfound, rfl⟩ := lift_eq_ok.mp hfirst
    rw [replicaOf_eq hv, keyed_eq_some.mpr ⟨rfl, hr⟩, Except.ok.injEq] at hfound
    subst hfound
    obtain ⟨duration, _, hsecond, hafter₁⟩ := bind_eq_ok.mp hafter
    obtain ⟨_, rfl⟩ := lift_eq_ok.mp hsecond
    dsimp only at hafter₁
    rw [if_neg (not_not.mpr hstatus)] at hafter₁
    obtain ⟨worker', _, hthird, hafter₂⟩ := bind_eq_ok.mp hafter₁
    obtain ⟨hitem, rfl⟩ := lift_eq_ok.mp hthird
    obtain rfl := Option.some.inj (hworker.symm.trans (item_eq_ok.mp hitem))
    rw [if_neg (by rw [hup]; exact nofun)] at hafter₂
    obtain ⟨delay, _, hfourth, hafter₃⟩ := bind_eq_ok.mp hafter₂
    obtain ⟨_, rfl⟩ := lift_eq_ok.mp hfourth
    obtain ⟨completion, _, hfifth, hafter₄⟩ := bind_eq_ok.mp hafter₃
    obtain ⟨⟨sim, hschedule⟩, rfl⟩ := scheduleEvent_eq_ok hfifth
    obtain ⟨rfl, _, hid, _, _, _, _, hnew⟩ := schedule_eq_ok_iff.mp hschedule
    have hid : completion.eventId = "materialize-complete:" ++ k := hid
    obtain rfl := modify_eq_ok.mp hafter₄
    refine ⟨hid ▸ hnew, ?_, ?_⟩
    · simp only [Host.act, History.perform, hschedule, Simulator.push, Finset.mem_insert]
      exact .inl hid.symm
    · exact ⟨_, Dict.get?_set_self _ _ _, hstatus, worker, hworker, hup⟩
  obtain ⟨_, hknown, hagain⟩ := hstep hv ⟨r, hr, hstatus, worker, hworker, hup⟩ hok
  exact (hstep (h := h₁.delivered _ rest) hv hagain hok').1 hknown

end Handlers

/-- In every reachable state a delivery and its duplicate go through, the second without effect,
exactly where the payload holds what the handler reads, what the delivery starts can be scheduled
and it starts no materialization at a worker that is up. -/
theorem redelivery (before : List ResourceInput) (hb : ∀ i ∈ before, i.Unnumbered)
    (event : SimEvent) (eventId : String) (sequence : Nat) (rest rest' : List SimEvent) :
    let h := (run resourceStep { world := {} } before).delivered event rest
    Repeats h event { event with eventId, sequence } rest' ↔
      Deliverable h event ∧ ¬ Begins h.world event := by
  intro h
  obtain ⟨hkept, hstood⟩ := run_stands before hb
  have hs : Stood h := ⟨hstood.world⟩
  have hf : NumbersFree h.history.sim := fun n hn => hkept.numbers n hn
  by_cases hbegins : Begins h.world event
  · exact iff_of_false (not_repeats_of_begins hbegins eventId sequence rest') fun hc => hc.2 hbegins
  · rw [and_iff_left hbegins]
    have hhandled : Handled (ResourceModel.handle event) h (Deliverable h event) := by
      unfold ResourceModel.handle Deliverable
      cases hkind : event.kind
      case workerTaskEnqueued => exact onTaskEnqueued_handled hs
      case workerTaskCompleted => exact onTaskCompleted_handled hs
      case workerFailed => exact onWorkerFailed_handled hs hf
      case workerRecovered => exact onWorkerRecovered_handled hs
      case stateMaterializationStarted =>
        apply onMaterializationStarted_handled hs hf
        exact fun k r hv hr hstatus hup => hbegins ⟨hkind, k, r, hv, hr, hstatus, hup⟩
      case stateMaterialized => exact onStateMaterialized_handled hs hf
      case stateTransferStarted => exact onTransferStarted_handled hs hf
      case stateTransferCompleted => exact onTransferCompleted_handled hs hf
      case stateEvicted => exact onReplicaGone_handled hf
      case stateLost => exact onReplicaGone_handled hf
      all_goals exact ⟨fun _ => True.intro, fun _ => ⟨⟨⟩, h, rfl, fun _ _ => rfl⟩⟩
    constructor
    · rintro ⟨h₁, _, hok, _, _⟩
      exact hhandled.needs ⟨⟨⟩, h₁, hok, True.intro⟩
    · intro hd
      obtain ⟨_, h₁, hok, hidle⟩ := hhandled.settles hd
      exact ⟨h₁, _, hok, hidle (h₁.delivered { event with eventId, sequence } rest') rfl, rfl⟩

/-- A run in which an eviction is delivered twice. -/
theorem redelivery_evicted :
    let before : List ResourceInput :=
      [.call (.addWorker "a" 1), .call (.materializeReplica "r" "s" "a" 1 (.int 0)), .pass none,
        .pass none, .call (.evictReplica "r")]
    let event : SimEvent := ⟨.zero, 2, numbered 2, .stateEvicted, [("replica_id", .str "r")]⟩
    let eventId := "fault:fault-00000000:duplicate:" ++ numbered 2
    let h := (run resourceStep { world := {} } before).delivered event []
    Repeats h event { event with eventId, sequence := 3 } [] := by
  intro before event eventId h
  have hb : ∀ i ∈ before, i.Unnumbered := by
    intro i hi
    simp only [before, List.mem_cons, List.not_mem_nil, or_false] at hi
    rcases hi with rfl | rfl | rfl | rfl | rfl <;> exact True.intro
  apply (redelivery before hb event eventId 3 [] []).mpr
  refine ⟨⟨.str "r", rfl⟩, fun hbegins => ?_⟩
  cases hbegins.1

/-- The delivery that starts a materialization is not absorbed: its duplicate raises. -/
theorem redelivery_not_absorbed :
    ¬ ∀ (before : List ResourceInput) (event again : SimEvent) (rest : List SimEvent),
      (∀ i ∈ before, i.Unnumbered) →
        let h := run resourceStep { world := {} } before
        h.history.sim.queue = event :: again :: rest → again.time = event.time →
          again.kind = event.kind → again.payload = event.payload →
            Repeats (h.delivered event (again :: rest)) event again rest := by
  intro hall
  let again : ScheduleRequest :=
    { kind := .stateMaterializationStarted, at' := some (.int 0)
      eventId := some ("fault:fault-00000000:duplicate:" ++ "materialize-start:r")
      payload := payloadOf [("replica_id", .str "r"), ("duration", .num Time.zero.toNumber)] }
  let before : List ResourceInput :=
    [.call (.addWorker "a" 1), .call (.materializeReplica "r" "s" "a" 1 (.int 0)),
      .other (.schedule again)]
  let payload : Payload := [("duration", .num Time.zero.toNumber), ("replica_id", .str "r")]
  let event : SimEvent :=
    ⟨.zero, 0, "materialize-start:r", .stateMaterializationStarted, payload⟩
  let eventId := "fault:fault-00000000:duplicate:" ++ "materialize-start:r"
  have hb : ∀ i ∈ before, i.Unnumbered := by
    intro i hi
    simp only [before, List.mem_cons, List.not_mem_nil, or_false] at hi
    rcases hi with rfl | rfl | rfl
    · exact True.intro
    · exact True.intro
    · exact Action.Unnumbered.of_head rfl (by decide)
  have hqueue : (run resourceStep { world := {} } before).history.sim.queue =
      [event, { event with eventId, sequence := 1 }] := by decide +kernel
  have hreplica : ((run resourceStep { world := {} } before).world.replicas.get? "r").map
      (fun r => (r.status, r.locationId)) = some (.materializing, "a") := by decide +kernel
  have hworker : ((run resourceStep { world := {} } before).world.workers.get? "a").map
      (·.status) = some .up := by decide +kernel
  obtain ⟨r, hr, hstatus⟩ := Option.map_eq_some_iff.mp hreplica
  obtain ⟨worker, hw, hup⟩ := Option.map_eq_some_iff.mp hworker
  have hmaterializing : r.status = .materializing := (Prod.mk.inj hstatus).1
  have hlocation : r.locationId = "a" := (Prod.mk.inj hstatus).2
  have hup : (run resourceStep { world := {} } before).world.Up r.locationId := by
    rw [hlocation]
    exact ⟨worker, hw, hup⟩
  have hvalue : payloadItem event "replica_id" = .ok (.str "r") := rfl
  have hbegins : Begins (run resourceStep { world := {} } before).world event :=
    ⟨rfl, "r", r, hvalue, hr, hmaterializing, hup⟩
  have hnot (h : Host ResourceModel) (hb : Begins h.world event) (rest : List SimEvent) :
      ¬ Repeats (h.delivered event rest) event { event with eventId, sequence := 1 } [] :=
    not_repeats_of_begins (h := h.delivered event rest) hb eventId 1 []
  exact hnot _ hbegins _
    (hall before event { event with eventId, sequence := 1 } [] hb hqueue rfl rfl rfl)

end Cadi
