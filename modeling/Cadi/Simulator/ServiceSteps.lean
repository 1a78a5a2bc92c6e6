import Cadi.Simulator.ServiceFrame

namespace Cadi
open Library
set_option autoImplicit true

section Lists
variable {m m' : ResourceModel}

theorem queueOf_set (hq : m'.workerQueues = m.workerQueues.set w l) :
    queueOf m' w' = if w = w' then l else queueOf m w' := by
  simp only [queueOf, hq, Dict.get?_set]
  split <;> rfl

theorem activeOf_set (ha : m'.workerActive = m.workerActive.set w l) :
    activeOf m' w' = if w = w' then l else activeOf m w' := by
  simp only [activeOf, ha, Dict.get?_set]
  split <;> rfl

theorem lists_set {d : Dict String α} (hw : w' ∈ d) : w' ∈ d.set w l := Dict.mem_set.mpr (.inr hw)

theorem rebooked {d : Dict String ResourceTask} {task' : ResourceTask} (ht : d.get? t = some task)
    (hw : task'.workerId = task.workerId) (hs : d.get? s = some other) :
    ∃ other', (d.set t task').get? s = some other' ∧ other'.workerId = other.workerId := by
  by_cases he : t = s
  · subst he
    obtain rfl := Option.some.inj (ht.symm.trans hs)
    exact ⟨task', Dict.get?_set_self _ _ _, hw⟩
  · exact ⟨other, (Dict.get?_set_ne _ _ he).trans hs, rfl⟩

theorem Called.of_kept {h h' : Host ResourceModel} (hc : Called h w)
    (hw : h'.world.workers.get? w = h.world.workers.get? w)
    (ha : activeOf h'.world w = activeOf h.world w) (hq : queueOf h'.world w = queueOf h.world w)
    (hp : ∀ e ∈ h.history.sim.pendingEvents, e.kind = .workerTaskEnqueued →
      e ∈ h'.history.sim.pendingEvents) : Called h' w := by
  intro worker hworker hup hfree hne
  rw [ha] at hfree
  rw [hq] at hne
  obtain ⟨e, he, hk, hitem⟩ := hc worker (hw ▸ hworker) hup hfree hne
  exact ⟨e, hp e he hk, hk, hitem⟩

theorem TasksFinal.set_old {task' : ResourceTask} (ht : m.tasks.get? t = some task)
    (hn : ¬ (task.status = .completed ∨ task.status = .failed))
    (hm : m'.tasks = m.tasks.set t task') : TasksFinal m m' where
  order := by
    rw [hm, Dict.keys_set_old (Dict.mem_of_get? ht)]
  ended s other hs he := by
    have hne : t ≠ s := by
      rintro rfl
      obtain rfl := Option.some.inj (ht.symm.trans hs)
      exact hn he
    rw [hm, Dict.get?_set_ne _ _ hne, hs]

theorem TasksFinal.of_eq (hm : m'.tasks = m.tasks) : TasksFinal m m' where
  order := by rw [hm]
  ended _ _ hs _ := hm ▸ hs

end Lists

section Start

/-- The completion of the task can be scheduled. -/
structure Startable (now : Time) (knownIds : FrozenSet String) (m : ResourceModel) (t : String) :
    Prop where
  finite : ∀ task, m.tasks.get? t = some task → now.add task.duration ≠ none
  free : "task-complete:" ++ t ∉ knownIds

/-- The payload of the events about a task. -/
def taskPayload (t w : String) : Payload := [("task_id", .str t), ("worker_id", .str w)]

theorem freeze_taskPayload (t w : String) :
    freezePayload (payloadOf [("task_id", .str t), ("worker_id", .str w)]) = .ok (taskPayload t w) := by
  have hsort : sortItems (taskPayload t w) = taskPayload t w := by
    have hle : "task_id" ≤ "worker_id" := by decide
    simp only [sortItems, taskPayload, List.insertionSort_cons, List.insertionSort_nil,
      List.orderedInsert_nil, List.orderedInsert_cons, hle, ↓reduceIte]
  exact (freezePayload_strings [("task_id", t), ("worker_id", w)]).trans (congrArg _ hsort)

theorem about_of_payload {e : SimEvent} (hid : e.eventId = label ++ t)
    (hp : e.payload = taskPayload t w) : e.About label t w where
  eventId := hid
  task := by
    rw [payloadItem, hp]
    rfl
  worker := by
    rw [payloadItem, hp]
    rfl

/-- The request for the completion of a task. -/
def completionRequest (t w : String) (duration : Time) : ScheduleRequest :=
  { kind := .workerTaskCompleted, delay := some duration.toNumber
    eventId := some s!"task-complete:{t}"
    payload := payloadOf [("task_id", .str t), ("worker_id", .str w)] }

theorem schedule_completion {sim : Simulator} {task : ResourceTask}
    (hs : Startable sim.now sim.knownIds m t) (ht : m.tasks.get? t = some task) :
    ∃ event, sim.schedule (completionRequest t w task.duration) = .ok (event, sim.push event) ∧
      event.kind = .workerTaskCompleted ∧ event.About "task-complete:" t w := by
  obtain ⟨time, htime⟩ := Option.ne_none_iff_exists'.mp (hs.finite task ht)
  have hname : (completionRequest t w task.duration).eventId.getD sim.nextId = "task-complete:" ++ t :=
    rfl
  have hne : "task-complete:" ++ t ≠ "" := by
    intro he
    have hlist := congrArg String.toList he
    simp only [String.toList_append, String.toList_empty, List.append_eq_nil_iff] at hlist
    exact absurd hlist.1 (by decide)
  have hevent : sim.eventTime (completionRequest t w task.duration) = .ok (some time) := by
    have hdelay : Simulator.delayValue (some task.duration.toNumber) = .ok task.duration :=
      finiteNonnegative_toNumber _ _
    simp only [Simulator.eventTime, completionRequest, hdelay, bind, Except.bind, pure, Except.pure,
      htime]
  have hok := schedule_eq hevent (hname ▸ hne) (hname ▸ hs.free) (freeze_taskPayload t w)
  exact ⟨_, hok, rfl, about_of_payload rfl rfl⟩

/-- The model after the first task of the queue has been started. -/
def ResourceModel.start (m : ResourceModel) (w t : String) (rest : List String) (task : ResourceTask)
    (now : Time) : ResourceModel :=
  { m with
    workerQueues := m.workerQueues.set w rest
    tasks := m.tasks.set t { task with
      status := .running
      startedAt := some now
      completionEventId := some ("task-complete:" ++ t) }
    workerActive := m.workerActive.set w (activeOf m w ++ [t]) }

variable {h h' : Host ResourceModel} {worker : Worker} {task : ResourceTask}

theorem Booked.start (hb : Booked h) (hworker : h.world.workers.get? w = some worker)
    (hup : worker.status = .up) (hfree : ((activeOf h.world w).length : Int) < worker.capacity)
    (hqueue : queueOf h.world w = t :: rest) (ht : h.world.tasks.get? t = some task)
    (hevent : event.kind = .workerTaskCompleted) (habout : event.About "task-complete:" t w)
    (hacc : Accounted h'.history) (hnow : h'.history.sim.now = h.history.sim.now)
    (hpending : ∀ e, e ∈ h'.history.sim.pendingEvents ↔ e = event ∨ e ∈ h.history.sim.pendingEvents)
    (hworld : h'.world = h.world.start w t rest task h.history.sim.now) : Booked h' := by
  have hmem : t ∈ queueOf h.world w := hqueue ▸ List.mem_cons_self
  obtain ⟨task₀, ht₀, hplace, hqueued⟩ := hb.mem_queue.mp hmem
  obtain rfl := Option.some.inj (ht.symm.trans ht₀)
  have hout : t ∉ activeOf h.world w := by
    intro ha
    obtain ⟨task₁, ht₁, _, hrunning⟩ := (hb.active w t).mp ha
    obtain rfl := Option.some.inj (ht.symm.trans ht₁)
    rw [hqueued] at hrunning
    cases hrunning
  have hactive (w' : String) : activeOf h'.world w' =
      if w = w' then activeOf h.world w ++ [t] else activeOf h.world w' :=
    activeOf_set (hworld ▸ rfl)
  have hqueues (w' : String) : queueOf h'.world w' =
      if w = w' then rest else queueOf h.world w' :=
    queueOf_set (hworld ▸ rfl)
  let task' : ResourceTask := { task with
    status := .running
    startedAt := some h.history.sim.now
    completionEventId := some ("task-complete:" ++ t) }
  have hplace' : task'.workerId = task.workerId := rfl
  have htasks : h'.world.tasks = h.world.tasks.set t task' := by
    rw [hworld]
    rfl
  have hworkers : h'.world.workers = h.world.workers := by
    rw [hworld]
    rfl
  constructor
  case accounted => exact hacc
  case labelled =>
    rw [hworld]
    exact ⟨hb.labelled.replicas, hb.labelled.transfers⟩
  case lists =>
    intro w' hw'
    rw [hworkers] at hw'
    rw [hworld]
    exact ⟨lists_set (hb.lists w' hw').1, lists_set (hb.lists w' hw').2⟩
  case capacity =>
    intro w' worker' hw'
    rw [hworkers] at hw'
    rw [hactive]
    split
    · next he =>
      subst he
      obtain rfl := Option.some.inj (hworker.symm.trans hw')
      rw [List.length_append, List.length_singleton]
      omega
    · exact hb.capacity w' worker' hw'
  case down =>
    intro w' worker' hw' hdown
    rw [hworkers] at hw'
    rw [hactive]
    split
    · next he =>
      subst he
      obtain rfl := Option.some.inj (hworker.symm.trans hw')
      rw [hup] at hdown
      cases hdown
    · exact hb.down w' worker' hw' hdown
  case placed =>
    intro s other hs
    rw [htasks] at hs
    rw [hworkers]
    rcases Dict.get?_set_eq_some_iff.mp hs with ⟨_, rfl⟩ | ⟨_, hs⟩
    · exact hb.placed t task ht
    · exact hb.placed s other hs
  case queue =>
    intro w'
    have hnot : waits w' (t, task') = false := by
      simp only [waits, task', reduceCtorEq, decide_false, Bool.and_false]
    rw [hqueues, htasks, Dict.select_set_old ht hnot, ← hb.queue]
    split
    · next he =>
      subst he
      rw [hqueue, List.erase_cons_head]
    · next hne =>
      apply (List.erase_of_not_mem _).symm
      intro hm
      obtain ⟨task₁, ht₁, hplace₁, _⟩ := hb.mem_queue.mp hm
      obtain rfl := Option.some.inj (ht.symm.trans ht₁)
      exact hne (hplace.symm.trans hplace₁)
  case active =>
    intro w' s
    rw [hactive, htasks]
    by_cases hs : t = s
    · subst hs
      simp only [Dict.get?_set_self, Option.some.injEq, exists_eq_left', task', and_true, hplace]
      split
      · next he => simp only [he, List.mem_append, List.mem_singleton, or_true]
      · next hne =>
        refine ⟨fun hm => ?_, fun he => (hne he).elim⟩
        obtain ⟨task₁, ht₁, hplace₁, _⟩ := (hb.active w' t).mp hm
        obtain rfl := Option.some.inj (ht.symm.trans ht₁)
        exact (hne (hplace.symm.trans hplace₁)).elim
    · rw [Dict.get?_set_ne _ _ hs, ← hb.active]
      split
      · next he =>
        subst he
        simp only [List.mem_append, List.mem_singleton, Ne.symm hs, or_false]
      · rfl
  case nodup =>
    intro w'
    rw [hactive]
    split
    · rw [List.nodup_append]
      refine ⟨hb.nodup w, List.nodup_singleton t, fun a ha b hb he => ?_⟩
      rw [List.mem_singleton.mp hb] at he
      exact hout (he ▸ ha)
    · exact hb.nodup w'
  case unstarted =>
    intro s other hs
    rw [htasks] at hs
    rcases Dict.get?_set_eq_some_iff.mp hs with ⟨_, rfl⟩ | ⟨_, hs⟩
    · simp only [task', reduceCtorEq]
    · exact hb.unstarted s other hs
  case past =>
    intro s other hs r hr
    rw [htasks] at hs
    rw [hnow]
    rcases Dict.get?_set_eq_some_iff.mp hs with ⟨_, rfl⟩ | ⟨_, hs⟩
    · rw [Option.mem_some_iff.mp hr]
    · exact hb.past s other hs r hr
  case starts =>
    rw [htasks]
    apply Dict.pairwise_set_old hb.starts ht
    · -- the tasks before the first queued one have all started
      intro pre post hsplit q hq _ hsame s hs
      obtain rfl := Option.some.inj hs
      have hselect : h.world.tasks.select (waits w) = t :: rest := (hb.queue w).symm.trans hqueue
      have hnot := Dict.select_head hselect hsplit hq
      have hentry : h.world.tasks.get? q.1 = some q.2 :=
        Dict.get?_eq_some_iff.mpr (hsplit ▸ List.mem_append_left _ hq)
      have hq' : q.2.workerId = w := hsame.trans hplace
      simp only [waits, hq', decide_true, Bool.true_and, decide_eq_false_iff_not] at hnot
      obtain ⟨r, hr⟩ := Option.ne_none_iff_exists'.mp fun hn => hnot ((hb.unstarted _ _ hentry).mp hn)
      exact ⟨r, hr, hb.past _ _ hentry r hr⟩
    · intro q hfirst hsame s hs
      obtain ⟨r, hr, _⟩ := hfirst hsame s hs
      rw [(hb.unstarted t task ht).mpr hqueued] at hr
      cases hr
  case completion =>
    intro s other hs hrunning
    rw [htasks] at hs
    rcases Dict.get?_set_eq_some_iff.mp hs with ⟨rfl, rfl⟩ | ⟨_, hs⟩
    · exact ⟨rfl, event, (hpending _).mpr (.inl rfl), hevent, habout.eventId⟩
    · obtain ⟨hid, e, he, hkind, hname⟩ := hb.completion s other hs hrunning
      exact ⟨hid, e, (hpending _).mpr (.inr he), hkind, hname⟩
  case completes =>
    intro e he hkind
    rw [htasks]
    rcases (hpending e).mp he with rfl | he
    · exact ⟨t, task', Dict.get?_set_self _ _ _, hplace ▸ habout⟩
    · obtain ⟨s, other, hs, ha⟩ := hb.completes e he hkind
      obtain ⟨other', hs', hsame⟩ := rebooked ht hplace' hs
      exact ⟨s, other', hs', hsame ▸ ha⟩
  case enqueues =>
    intro e he hkind
    rw [htasks]
    rcases (hpending e).mp he with rfl | he
    · rw [hevent] at hkind
      cases hkind
    · obtain ⟨s, other, hs, ha⟩ := hb.enqueues e he hkind
      obtain ⟨other', hs', hsame⟩ := rebooked ht hplace' hs
      exact ⟨s, other', hs', hsame ▸ ha⟩

/-- What `_dispatch` for a worker achieves. -/
structure Dispatched (w : String) (h h' : Host ResourceModel) : Prop where
  booked : Booked h'
  called : Called h' w
  others : ∀ w', w ≠ w' → Called h w' → Called h' w'
  final : TasksFinal h.world h'.world

theorem Dispatched.of_booked (hb : Booked h) (hc : Called h w) : Dispatched w h h :=
  ⟨hb, hc, fun _ _ hc => hc, .refl _⟩

theorem Dispatched.trans (h₁ : Dispatched w h h') (h₂ : Dispatched w h' h'') : Dispatched w h h'' where
  booked := h₂.booked
  called := h₂.called
  others w' hw hc := h₂.others w' hw (h₁.others w' hw hc)
  final := h₁.final.trans h₂.final

/-- The tasks at the head of the queue for which there is room can be started. -/
def Room (h : Host ResourceModel) (w : String) (worker : Worker) : Prop :=
  ∀ t ∈ (queueOf h.world w).take (worker.capacity - (activeOf h.world w).length).toNat,
    Startable h.history.sim.now h.history.sim.knownIds h.world t

theorem completion_injective (h : "task-complete:" ++ s = "task-complete:" ++ t) : s = t := by
  have hlist := congrArg String.toList h
  simp only [String.toList_append] at hlist
  exact String.toList_injective (List.append_cancel_left hlist)

/-- After a start there is room for the other tasks there was room for. -/
theorem Room.start (hb : Booked h) (hroom : Room h w worker)
    (hfree : ((activeOf h.world w).length : Int) < worker.capacity)
    (hqueue : queueOf h.world w = t :: rest)
    (hnow : h'.history.sim.now = h.history.sim.now)
    (hknown : h'.history.sim.knownIds = insert ("task-complete:" ++ t) h.history.sim.knownIds)
    (hworld : h'.world = h.world.start w t rest task h.history.sim.now) : Room h' w worker := by
  have hnodup : (t :: rest).Nodup := by
    rw [← hqueue, hb.queue]
    exact Dict.nodup_select _ _
  have hactive : activeOf h'.world w = activeOf h.world w ++ [t] := by
    rw [hworld]
    exact (activeOf_set rfl).trans (if_pos rfl)
  have hrest : queueOf h'.world w = rest := by
    rw [hworld]
    exact (queueOf_set rfl).trans (if_pos rfl)
  intro s hs
  rw [hrest, hactive, List.length_append, List.length_singleton] at hs
  have hne : t ≠ s := by
    rintro rfl
    exact (List.nodup_cons.mp hnodup).1 (List.mem_of_mem_take hs)
  have hold : Startable h.history.sim.now h.history.sim.knownIds h.world s := by
    apply hroom
    have hslots : (worker.capacity - (activeOf h.world w).length).toNat =
        (worker.capacity - ((activeOf h.world w).length + 1 : Nat)).toNat + 1 := by omega
    rw [hqueue, hslots, List.take_succ_cons]
    exact List.mem_cons_of_mem _ hs
  constructor
  · intro other hother
    rw [hworld] at hother
    rw [hnow]
    exact hold.finite other ((Dict.get?_set_ne _ _ hne).symm.trans hother)
  · rw [hknown, Finset.mem_insert, not_or]
    exact ⟨fun he => hne (completion_injective he).symm, hold.free⟩

theorem dispatchLoop_dispatched (hb : Booked h) (hworker : h.world.workers.get? w = some worker)
    (hqueue : queueOf h.world w = queue) (hroom : worker.status = .up → Room h w worker) :
    Ends (dispatchLoop w worker queue) h (Dispatched w h) := by
  induction queue generalizing h with
  | nil => exact .of_booked hb fun _ _ _ _ hne => (hne hqueue).elim
  | cons t rest ih =>
    apply Ends.get_bind
    dsimp only
    split
    · next hc =>
      obtain ⟨hup, hfree⟩ := hc
      obtain ⟨task, ht, hplace, hqueued⟩ := hb.mem_queue.mp (hqueue ▸ List.mem_cons_self)
      have hslots : 0 < (worker.capacity - (activeOf h.world w).length).toNat := by omega
      have hhead : Startable h.history.sim.now h.history.sim.knownIds h.world t := by
        apply hroom hup
        rw [hqueue, List.take_cons hslots]
        exact List.mem_cons_self
      obtain ⟨event, hok, hkind, habout⟩ :=
        schedule_completion (w := w) hhead ht
      apply Ends.modify_bind
      apply Ends.lift_ok_bind (item_eq_ok.mpr ht)
      apply Ends.eq_ok_bind
      · apply scheduleEvent_ok
        exact hok
      apply Ends.modify_bind
      obtain ⟨_, _, _, _, _, _, _, hnew⟩ := schedule_eq_ok_iff.mp hok
      have hact : (h.history.perform (.schedule (completionRequest t w task.duration))).2 =
          { h.history with
            sim := h.history.sim.push event
            scheduled := h.history.scheduled ++ [event] } := by
        simp only [History.perform, hok]
      let h₁ : Host ResourceModel :=
        { history := (h.history.perform (.schedule (completionRequest t w task.duration))).2
          world := h.world.start w t rest task h.history.sim.now }
      have hpending (e : SimEvent) : e ∈ h₁.history.sim.pendingEvents ↔
          e = event ∨ e ∈ h.history.sim.pendingEvents := by
        simp only [h₁, hact]
        exact mem_pending_push hb.accounted hnew
      have hb₁ : Booked h₁ := hb.start hworker hup hfree hqueue ht hkind habout
        (hb.accounted.perform _) (now_perform _ _) hpending rfl
      have hroom₁ : Room h₁ w worker := by
        apply (hroom hup).start hb hfree hqueue (now_perform _ _) _ rfl
        simp only [h₁, hact, Simulator.push, habout.eventId]
      rw [habout.eventId]
      refine (ih (h := h₁) hb₁ hworker ?_ fun _ => hroom₁).mono fun h' hd => ?_
      · exact (queueOf_set rfl).trans (if_pos rfl)
      · refine ⟨hd.booked, hd.called, fun w' hw hc => hd.others w' hw ?_, ?_⟩
        · have hsame : h₁.world.workers.get? w' = h.world.workers.get? w' := rfl
          apply hc.of_kept hsame
          · exact (activeOf_set rfl).trans (if_neg hw)
          · exact (queueOf_set rfl).trans (if_neg hw)
          · exact fun e he _ => (hpending e).mpr (.inr he)
        · have hn : ¬ (task.status = .completed ∨ task.status = .failed) := by
            rw [hqueued]
            decide
          exact (TasksFinal.set_old ht hn rfl).trans hd.final
    · next hc =>
      refine .of_booked hb fun worker' hw hup hfree _ => ?_
      obtain rfl := Option.some.inj (hworker.symm.trans hw)
      exact (hc ⟨hup, hfree⟩).elim

theorem dispatch_dispatched (hb : Booked h) (hworker : h.world.workers.get? w = some worker)
    (hroom : worker.status = .up → Room h w worker) : Ends (dispatch w) h (Dispatched w h) := by
  obtain ⟨hq, ha⟩ := hb.lists w (Dict.mem_of_get? hworker)
  obtain ⟨queue, hqueue⟩ := Dict.mem_iff.mp hq
  obtain ⟨active, hactive⟩ := Dict.mem_iff.mp ha
  apply Ends.get_bind
  apply Ends.lift_ok_bind (item_eq_ok.mpr hworker)
  apply Ends.lift_ok_bind (item_eq_ok.mpr hqueue)
  apply Ends.lift_ok_bind (item_eq_ok.mpr hactive)
  exact dispatchLoop_dispatched hb hworker (by rw [queueOf, hqueue, Option.getD_some]) hroom

end Start

section Deliveries
variable {h h' : Host ResourceModel} {worker : Worker} {task : ResourceTask} {event : SimEvent}

/-- The model after a running task has completed. -/
def ResourceModel.complete (m : ResourceModel) (w t : String) (task : ResourceTask) (now : Time) :
    ResourceModel :=
  { m with
    workerActive := m.workerActive.set w ((activeOf m w).erase t)
    tasks := m.tasks.set t { task with
      status := .completed
      completedAt := some now
      completionEventId := none } }

theorem Booked.complete (hb : Booked h) (ht : h.world.tasks.get? t = some task)
    (hs : task.status = .running) (hid : event.eventId = "task-complete:" ++ t)
    (hacc : Accounted h'.history) (hnow : h.history.sim.now ≤ h'.history.sim.now)
    (hpending : ∀ e, e ∈ h'.history.sim.pendingEvents ↔ e ∈ h.history.sim.pendingEvents ∧ e ≠ event)
    (hworld : h'.world = h.world.complete task.workerId t task now) : Booked h' := by
  have hactive (w' : String) : activeOf h'.world w' =
      if task.workerId = w' then (activeOf h.world task.workerId).erase t
      else activeOf h.world w' :=
    activeOf_set (hworld ▸ rfl)
  have hqueues (w' : String) : queueOf h'.world w' = queueOf h.world w' := by
    rw [hworld]
    rfl
  let task' : ResourceTask := { task with
    status := .completed
    completedAt := some now
    completionEventId := none }
  have hplace' : task'.workerId = task.workerId := rfl
  have htasks : h'.world.tasks = h.world.tasks.set t task' := by
    rw [hworld]
    rfl
  have hworkers : h'.world.workers = h.world.workers := by
    rw [hworld]
    rfl
  have hnot (w' : String) : t ∉ queueOf h.world w' := by
    intro hm
    obtain ⟨task₁, ht₁, _, hqueued⟩ := hb.mem_queue.mp hm
    obtain rfl := Option.some.inj (ht.symm.trans ht₁)
    rw [hs] at hqueued
    cases hqueued
  constructor
  case accounted => exact hacc
  case labelled =>
    rw [hworld]
    exact ⟨hb.labelled.replicas, hb.labelled.transfers⟩
  case lists =>
    intro w' hw'
    rw [hworkers] at hw'
    rw [hworld]
    exact ⟨(hb.lists w' hw').1, lists_set (hb.lists w' hw').2⟩
  case capacity =>
    intro w' worker' hw'
    rw [hworkers] at hw'
    have hcap := hb.capacity w' worker' hw'
    rw [hactive]
    split
    · next he =>
      subst he
      have hle := List.length_erase_le (l := activeOf h.world task.workerId) (a := t)
      omega
    · exact hcap
  case down =>
    intro w' worker' hw' hdown
    rw [hworkers] at hw'
    have hnone := hb.down w' worker' hw' hdown
    rw [hactive]
    split
    · next he =>
      subst he
      rw [hnone, List.erase_nil]
    · exact hnone
  case placed =>
    intro s other hs'
    rw [htasks] at hs'
    rw [hworkers]
    rcases Dict.get?_set_eq_some_iff.mp hs' with ⟨_, rfl⟩ | ⟨_, hs'⟩
    · exact hb.placed t task ht
    · exact hb.placed s other hs'
  case queue =>
    intro w'
    have hnot' : waits w' (t, task') = false := by
      simp only [waits, task', reduceCtorEq, decide_false, Bool.and_false]
    rw [hqueues, htasks, Dict.select_set_old ht hnot', ← hb.queue]
    exact (List.erase_of_not_mem (hnot w')).symm
  case active =>
    intro w' s
    rw [hactive, htasks]
    by_cases hs' : t = s
    · subst hs'
      simp only [Dict.get?_set_self, Option.some.injEq, exists_eq_left', task', reduceCtorEq,
        and_false, iff_false]
      split
      · exact (hb.nodup task.workerId).not_mem_erase
      · next hne =>
        intro hm
        obtain ⟨task₁, ht₁, hplace₁, _⟩ := (hb.active w' t).mp hm
        obtain rfl := Option.some.inj (ht.symm.trans ht₁)
        exact hne hplace₁
    · rw [Dict.get?_set_ne _ _ hs', ← hb.active]
      split
      · next he =>
        subst he
        exact List.mem_erase_of_ne (Ne.symm hs')
      · rfl
  case nodup =>
    intro w'
    rw [hactive]
    split
    · exact (hb.nodup _).erase t
    · exact hb.nodup w'
  case unstarted =>
    intro s other hs'
    rw [htasks] at hs'
    rcases Dict.get?_set_eq_some_iff.mp hs' with ⟨_, rfl⟩ | ⟨_, hs'⟩
    · have hstarted := hb.unstarted t task ht
      simp only [task', reduceCtorEq, iff_false]
      intro hn
      rw [hs] at hstarted
      cases hstarted.mp hn
    · exact hb.unstarted s other hs'
  case past =>
    intro s other hs' r hr
    rw [htasks] at hs'
    rcases Dict.get?_set_eq_some_iff.mp hs' with ⟨_, rfl⟩ | ⟨_, hs'⟩
    · exact (hb.past t task ht r hr).trans hnow
    · exact (hb.past s other hs' r hr).trans hnow
  case starts =>
    rw [htasks]
    exact Dict.pairwise_set_old hb.starts ht (fun _ _ _ _ _ hfirst => hfirst) fun _ hfirst => hfirst
  case completion =>
    intro s other hs' hrunning
    rw [htasks] at hs'
    rcases Dict.get?_set_eq_some_iff.mp hs' with ⟨rfl, rfl⟩ | ⟨hne, hs'⟩
    · cases hrunning
    · obtain ⟨hname, e, he, hkind, heid⟩ := hb.completion s other hs' hrunning
      refine ⟨hname, e, (hpending e).mpr ⟨he, ?_⟩, hkind, heid⟩
      rintro rfl
      exact hne (completion_injective (hid.symm.trans heid))
  case completes =>
    intro e he hkind
    rw [htasks]
    obtain ⟨s, other, hs', ha⟩ := hb.completes e ((hpending e).mp he).1 hkind
    obtain ⟨other', hs'', hsame⟩ := rebooked ht hplace' hs'
    exact ⟨s, other', hs'', hsame ▸ ha⟩
  case enqueues =>
    intro e he hkind
    rw [htasks]
    obtain ⟨s, other, hs', ha⟩ := hb.enqueues e ((hpending e).mp he).1 hkind
    obtain ⟨other', hs'', hsame⟩ := rebooked ht hplace' hs'
    exact ⟨s, other', hs'', hsame ▸ ha⟩

end Deliveries

section Failures
variable {h h' : Host ResourceModel} {worker : Worker} {task : ResourceTask}

theorem FreeNumbers.cancel {h : History} (hf : FreeNumbers k h.sim) (eventId : String) :
    FreeNumbers k (h.perform (.cancel eventId)).2.sim := by
  rcases perform_cancel h eventId with he | he <;> rw [he]
  · exact hf
  · exact hf

theorem FreeNumbers.push {sim : Simulator} {event : SimEvent} (hf : FreeNumbers (k + 1) sim)
    (hid : event.eventId = sim.nextId) : FreeNumbers k (sim.push event) := by
  intro n hn hlt
  simp only [Simulator.push] at hn hlt ⊢
  rw [Finset.mem_insert, not_or]
  refine ⟨fun he => ?_, hf n (by omega) (by omega)⟩
  have hnext : n = sim.nextSequence := numbered_injective (he.trans hid)
  omega

theorem failTask_returns (hf : FreeNumbers (k + 1) h.history.sim)
    (ht : h.world.tasks.get? t = some task)
    (hc : task.completionEventId = some ("task-complete:" ++ t)) :
    Returns (failTask w t) h fun _ h' =>
      Acts (Action.Within (· = .workerTaskFailed) (· ≠ "task-complete:" ++ t)) h.history h'.history ∧
        h'.world = { h.world with
          tasks := h.world.tasks.set t (task.failedAt h.history.sim.now) } ∧
        FreeNumbers k h'.history.sim := by
  have hne : "task-complete:" ++ t ≠ "" := by
    intro he
    have hlist := congrArg String.toList he
    simp only [String.toList_append, String.toList_empty, List.append_eq_nil_iff] at hlist
    exact absurd hlist.1 (by decide)
  let h₁ : Host ResourceModel := h.act (.cancel ("task-complete:" ++ t))
  let h₂ : Host ResourceModel := { h₁ with
    world := { h₁.world with tasks := h₁.world.tasks.set t (task.failedAt h.history.sim.now) } }
  have hf₂ : FreeNumbers (k + 1) h₂.history.sim := hf.cancel _
  obtain ⟨event, hok, _, hid⟩ :=
    schedule_notice .workerTaskFailed [("task_id", t), ("worker_id", w)] hf₂.nextId
  have hnotice : notify .workerTaskFailed (stringItems [("task_id", t), ("worker_id", w)]) h₂ =
      .ok event (h₂.act (.schedule (notice .workerTaskFailed [("task_id", t), ("worker_id", w)]))) :=
    scheduleEvent_ok hok
  unfold failTask
  rw [Returns.get_bind_iff, Returns.lift_bind_iff]
  refine ⟨task, item_eq_ok.mpr ht, ?_⟩
  rw [Returns.bind_iff, hc, cancelCompletion, truthy_of_ne fun he => hne (Option.some.inj he)]
  refine ⟨⟨⟩, h₁, rfl, ?_⟩
  apply Returns.modify_bind_iff.mpr
  apply Returns.discard
  refine ⟨event, _, hnotice, ?_, act_world h₂ _, ?_⟩
  · exact (Acts.single fun hk => hk rfl).trans (.act h₂ rfl)
  · simp only [Host.act, History.perform, hok]
    exact hf₂.push hid

theorem failTasks_returns {l : List String} (hf : FreeNumbers l.length h.history.sim) (hn : l.Nodup)
    (hl : ∀ t ∈ l, ∃ task, h.world.tasks.get? t = some task ∧
      task.completionEventId = some ("task-complete:" ++ t)) :
    Yields (Action.Within (· = .workerTaskFailed) fun id => ∀ t ∈ l, id ≠ "task-complete:" ++ t)
      (l.forM (failTask w)) h
      { h.world with tasks := l.foldl (failTasks h.history.sim.now) h.world.tasks } := by
  induction l generalizing h with
  | nil => exact .pure _ h
  | cons t l ih =>
    rw [List.nodup_cons] at hn
    obtain ⟨task, ht, hc⟩ := hl t List.mem_cons_self
    obtain ⟨_, h₁, hx, hacts, hw, hf₁⟩ := failTask_returns (w := w) hf ht hc
    have hl₁ : ∀ s ∈ l, ∃ task, h₁.world.tasks.get? s = some task ∧
        task.completionEventId = some ("task-complete:" ++ s) := by
      intro s hs
      have hne : t ≠ s := fun he => hn.1 (he ▸ hs)
      obtain ⟨other, hs', hc'⟩ := hl s (List.mem_cons_of_mem _ hs)
      refine ⟨other, ?_, hc'⟩
      rw [hw]
      exact (Dict.get?_set_ne _ _ hne).trans hs'
    obtain ⟨_, h₂, hx₂, hacts₂, hw₂⟩ := ih hf₁ hn.2 hl₁
    refine ⟨⟨⟩, h₂, bind_eq_ok.mpr ⟨⟨⟩, h₁, hx, hx₂⟩, (hacts.mono ?_).trans (hacts₂.mono ?_), ?_⟩
    · rintro (r | eventId) ha
      · exact ha
      · exact fun hk => ha (hk t List.mem_cons_self)
    · rintro (r | eventId) ha
      · exact ha
      · exact fun hk => ha fun s hs => hk s (List.mem_cons_of_mem _ hs)
    · rw [hw₂, hacts.now, hw, List.foldl_cons, failTasks, ht]

theorem get?_failTasks : (failTasks now d t).get? s =
    if t = s then (d.get? s).map (·.failedAt now) else d.get? s := by
  cases ht : d.get? t with
  | none =>
    simp only [failTasks, ht]
    split
    · next he => rw [← he, ht, Option.map_none]
    · rfl
  | some task =>
    simp only [failTasks, ht, Dict.get?_set]
    split
    · next he => rw [← he, ht, Option.map_some]
    · rfl

theorem get?_foldl_failTasks {l : List String} : (l.foldl (failTasks now) d).get? s =
    if s ∈ l then (d.get? s).map (·.failedAt now) else d.get? s := by
  induction l generalizing d with
  | nil => rfl
  | cons t l ih =>
    rw [List.foldl_cons, ih, get?_failTasks]
    by_cases he : t = s
    · -- failing twice at one instant is failing once
      subst he
      rw [if_pos rfl, if_pos List.mem_cons_self, Option.map_map]
      exact ite_self _
    · have hmem : s ∈ t :: l ↔ s ∈ l := by
        rw [List.mem_cons, or_iff_right (Ne.symm he)]
      simp only [if_neg he, hmem]

theorem keys_foldl_failTasks {l : List String} : (l.foldl (failTasks now) d).keys = d.keys := by
  induction l generalizing d with
  | nil => rfl
  | cons t l ih =>
    rw [List.foldl_cons, ih, failTasks]
    split
    · next task ht => exact Dict.keys_set_old (Dict.mem_of_get? ht) _
    · rfl

/-- The task after its worker has failed. -/
def ResourceTask.failedOn (w : String) (now : Time) (task : ResourceTask) : ResourceTask :=
  if task.workerId = w ∧ task.status = .running then task.failedAt now else task

theorem foldl_failTasks {l : List String} (hl : ∀ t task, d.get? t = some task →
    (t ∈ l ↔ task.workerId = w ∧ task.status = .running)) :
    l.foldl (failTasks now) d = d.mapValues (·.failedOn w now) := by
  apply Dict.ext_of_keys
  · rw [keys_foldl_failTasks, Dict.keys_mapValues]
  · intro t
    rw [get?_foldl_failTasks, Dict.get?_mapValues]
    cases ht : d.get? t with
    | none => exact ite_self _
    | some task =>
      simp only [hl t task ht, Option.map_some, ResourceTask.failedOn, apply_ite some]

section FailedOn
variable (w : String) (now : Time) (task : ResourceTask)

@[simp] theorem failedOn_workerId : (task.failedOn w now).workerId = task.workerId := by
  unfold ResourceTask.failedOn
  split <;> rfl

@[simp] theorem failedOn_startedAt : (task.failedOn w now).startedAt = task.startedAt := by
  unfold ResourceTask.failedOn
  split <;> rfl

@[simp] theorem failedOn_queued : (task.failedOn w now).status = .queued ↔ task.status = .queued := by
  unfold ResourceTask.failedOn
  split
  · next h => simp only [ResourceTask.failedAt, h.2, reduceCtorEq]
  · rfl

theorem failedOn_running (h : (task.failedOn w now).status = .running) :
    task.workerId ≠ w ∧ task.failedOn w now = task := by
  unfold ResourceTask.failedOn at h ⊢
  split at h
  · cases h
  · next hn => exact ⟨fun hw => hn ⟨hw, h⟩, if_neg hn⟩

theorem failedOn_ended (h : task.status = .completed ∨ task.status = .failed) :
    task.failedOn w now = task := by
  apply if_neg
  rintro ⟨_, hs⟩
  rw [hs] at h
  rcases h with h | h <;> cases h

end FailedOn

/-- The workers and tasks after a worker has failed. -/
def ResourceModel.fail (m : ResourceModel) (w : String) (worker : Worker) (now : Time) :
    ResourceModel :=
  { m with
    workers := m.workers.set w { worker with status := .down }
    workerActive := m.workerActive.set w []
    tasks := m.tasks.mapValues (·.failedOn w now) }

theorem Booked.fail (hb : Booked h) (hworker : h.world.workers.get? w = some worker)
    (hacc : Accounted h'.history) (hnow : h.history.sim.now ≤ h'.history.sim.now)
    (hold : ∀ e ∈ h'.history.sim.pendingEvents, e ∈ h.history.sim.pendingEvents ∨ ¬ e.kind.ofTasks)
    (hspared : ∀ e ∈ h.history.sim.pendingEvents,
      (∀ t ∈ activeOf h.world w, e.eventId ≠ "task-complete:" ++ t) →
        e.kind = .workerTaskCompleted → e ∈ h'.history.sim.pendingEvents)
    (hworld : h'.world = h.world.fail w worker now) : Booked h' := by
  have hactive (w' : String) : activeOf h'.world w' = if w = w' then [] else activeOf h.world w' :=
    activeOf_set (hworld ▸ rfl)
  have hqueues (w' : String) : queueOf h'.world w' = queueOf h.world w' := by
    rw [hworld]
    rfl
  have htasks : h'.world.tasks = h.world.tasks.mapValues (·.failedOn w now) := by
    rw [hworld]
    rfl
  have hworkers : h'.world.workers = h.world.workers.set w { worker with status := .down } := by
    rw [hworld]
    rfl
  have htask {t task'} (ht : h'.world.tasks.get? t = some task') :
      ∃ task, h.world.tasks.get? t = some task ∧ task' = task.failedOn w now := by
    rw [htasks, Dict.get?_mapValues, Option.map_eq_some_iff] at ht
    obtain ⟨task, ht, rfl⟩ := ht
    exact ⟨task, ht, rfl⟩
  have hmem (w' : String) : w' ∈ h'.world.workers ↔ w' ∈ h.world.workers := by
    rw [hworkers, Dict.mem_set]
    exact ⟨fun hm => hm.elim (fun he => he ▸ Dict.mem_of_get? hworker) id, .inr⟩
  constructor
  case accounted => exact hacc
  case labelled =>
    rw [hworld]
    exact ⟨hb.labelled.replicas, hb.labelled.transfers⟩
  case lists =>
    intro w' hw'
    rw [hmem] at hw'
    rw [hworld]
    exact ⟨(hb.lists w' hw').1, lists_set (hb.lists w' hw').2⟩
  case capacity =>
    intro w' worker' hw'
    rw [hworkers] at hw'
    rw [hactive]
    rcases Dict.get?_set_eq_some_iff.mp hw' with ⟨rfl, rfl⟩ | ⟨hne, hw'⟩
    · have hcap := hb.capacity w worker hworker
      rw [if_pos rfl, List.length_nil]
      exact (Int.natCast_nonneg _).trans hcap
    · rw [if_neg hne]
      exact hb.capacity w' worker' hw'
  case down =>
    intro w' worker' hw' hdown
    rw [hworkers] at hw'
    rw [hactive]
    rcases Dict.get?_set_eq_some_iff.mp hw' with ⟨rfl, rfl⟩ | ⟨hne, hw'⟩
    · exact if_pos rfl
    · rw [if_neg hne]
      exact hb.down w' worker' hw' hdown
  case placed =>
    intro t task' ht'
    obtain ⟨task, ht, rfl⟩ := htask ht'
    rw [hmem, failedOn_workerId]
    exact hb.placed t task ht
  case queue =>
    intro w'
    rw [hqueues, htasks, Dict.select_mapValues, hb.queue]
    simp only [waits, failedOn_workerId, failedOn_queued]
    rfl
  case active =>
    intro w' t
    rw [hactive]
    by_cases he : w = w'
    · rw [if_pos he]
      refine ⟨fun hm => (List.not_mem_nil hm).elim, ?_⟩
      rintro ⟨task', ht', rfl, hrunning⟩
      obtain ⟨task, ht, rfl⟩ := htask ht'
      rw [failedOn_workerId] at he
      exact ((failedOn_running w now task hrunning).1 he.symm).elim
    · rw [if_neg he, hb.active]
      constructor
      · rintro ⟨task, ht, rfl, hrunning⟩
        have hsame : task.failedOn w now = task := if_neg fun hc => he hc.1.symm
        refine ⟨task, ?_, rfl, hrunning⟩
        rw [htasks, Dict.get?_mapValues, ht, Option.map_some, hsame]
      · rintro ⟨task', ht', rfl, hrunning⟩
        obtain ⟨task, ht, rfl⟩ := htask ht'
        have hsame := (failedOn_running w now task hrunning).2
        rw [hsame] at hrunning ⊢
        exact ⟨task, ht, rfl, hrunning⟩
  case nodup =>
    intro w'
    rw [hactive]
    split
    · exact List.nodup_nil
    · exact hb.nodup w'
  case unstarted =>
    intro t task' ht'
    obtain ⟨task, ht, rfl⟩ := htask ht'
    rw [failedOn_startedAt, failedOn_queued]
    exact hb.unstarted t task ht
  case past =>
    intro t task' ht' s hs
    obtain ⟨task, ht, rfl⟩ := htask ht'
    rw [failedOn_startedAt] at hs
    exact (hb.past t task ht s hs).trans hnow
  case starts =>
    rw [htasks]
    apply Dict.pairwise_mapValues
    simp only [StartsFirst, failedOn_workerId, failedOn_startedAt]
    exact hb.starts
  case completion =>
    intro t task' ht' hrunning
    obtain ⟨task, ht, rfl⟩ := htask ht'
    obtain ⟨hne, hsame⟩ := failedOn_running w now task hrunning
    rw [hsame] at hrunning ⊢
    obtain ⟨hname, e, he, hkind, hid⟩ := hb.completion t task ht hrunning
    refine ⟨hname, e, hspared e he (fun s hs heq => ?_) hkind, hkind, hid⟩
    obtain rfl := completion_injective (heq.symm.trans hid)
    obtain ⟨other, hs, hplace, _⟩ := (hb.active w s).mp hs
    obtain rfl := Option.some.inj (ht.symm.trans hs)
    exact hne hplace
  case completes =>
    intro e he hkind
    obtain ⟨t, task, ht, ha⟩ :=
      hb.completes e ((hold e he).resolve_right fun hn => hn (.inr hkind)) hkind
    refine ⟨t, task.failedOn w now, ?_, (failedOn_workerId w now task).symm ▸ ha⟩
    rw [htasks, Dict.get?_mapValues, ht, Option.map_some]
  case enqueues =>
    intro e he hkind
    obtain ⟨t, task, ht, ha⟩ :=
      hb.enqueues e ((hold e he).resolve_right fun hn => hn (.inl hkind)) hkind
    refine ⟨t, task.failedOn w now, ?_, (failedOn_workerId w now task).symm ▸ ha⟩
    rw [htasks, Dict.get?_mapValues, ht, Option.map_some]

end Failures

end Cadi
