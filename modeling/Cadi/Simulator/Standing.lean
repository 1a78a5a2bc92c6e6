import Cadi.Simulator.ServiceRuns

namespace Cadi
open Library
set_option autoImplicit true

/-- What the transfer refers to. -/
structure StateTransfer.Carried (t : StateTransfer) (m : ResourceModel) : Prop where
  replica : t.replicaId ∈ m.replicas
  link : t.linkId ∈ m.links
  source : t.sourceId ∈ m.workers
  destination : t.destinationId ∈ m.workers

/-- What the records of the model refer to exists, and only tasks that have not started wait. -/
structure Standing (m : ResourceModel) : Prop where
  lists : ∀ w ∈ m.workers, w ∈ m.workerQueues ∧ w ∈ m.workerActive
  nodup : ∀ w, (queueOf m w).Nodup
  queued : ∀ w, ∀ t ∈ queueOf m w,
    ∃ task, m.tasks.get? t = some task ∧ task.workerId = w ∧ task.status = .queued
  active : ∀ w, ∀ t ∈ activeOf m w, ∃ task, m.tasks.get? t = some task ∧ task.status ≠ .queued
  located : ∀ k r, m.replicas.get? k = some r → r.locationId ∈ m.workers
  linked : ∀ k l, m.links.get? k = some l → l.sourceId ∈ m.workers ∧ l.destinationId ∈ m.workers
  carried : ∀ k t, m.transfers.get? k = some t → t.Carried m

namespace Standing
variable {m : ResourceModel} {task task' : ResourceTask}

theorem empty : Standing {} where
  lists _ hw := (List.not_mem_nil hw).elim
  nodup _ := List.nodup_nil
  queued _ _ ht := (List.not_mem_nil ht).elim
  active _ _ ht := (List.not_mem_nil ht).elim
  located _ _ hr := (Option.some_ne_none _ hr.symm).elim
  linked _ _ hl := (Option.some_ne_none _ hl.symm).elim
  carried _ _ ht := (Option.some_ne_none _ ht.symm).elim

theorem not_waiting (hs : Standing m) (ht : m.tasks.get? t = some task) (hn : task.status ≠ .queued)
    (w : String) : t ∉ queueOf m w := by
  intro hm
  obtain ⟨other, hother, _, hqueued⟩ := hs.queued w t hm
  obtain rfl := Option.some.inj (ht.symm.trans hother)
  exact hn hqueued

theorem set_worker (hs : Standing m) (hw : w ∈ m.workers) (worker : Worker) :
    Standing { m with workers := m.workers.set w worker } where
  lists x hx := by
    rcases Dict.mem_set.mp hx with rfl | hx
    · exact hs.lists w hw
    · exact hs.lists x hx
  nodup := hs.nodup
  queued := hs.queued
  active := hs.active
  located k r hr := lists_set (hs.located k r hr)
  linked k l hl := ⟨lists_set (hs.linked k l hl).1, lists_set (hs.linked k l hl).2⟩
  carried k t ht :=
    have hc := hs.carried k t ht
    ⟨hc.replica, hc.link, lists_set hc.source, lists_set hc.destination⟩

theorem set_replica (hs : Standing m) (hl : r.locationId ∈ m.workers) :
    Standing { m with replicas := m.replicas.set k r } where
  lists := hs.lists
  nodup := hs.nodup
  queued := hs.queued
  active := hs.active
  located := Dict.forall_set hs.located hl
  linked := hs.linked
  carried k t ht :=
    have hc := hs.carried k t ht
    ⟨lists_set hc.replica, hc.link, hc.source, hc.destination⟩

theorem set_transfer (hs : Standing m) {t : StateTransfer} (ht : t.Carried m) :
    Standing { m with transfers := m.transfers.set k t } where
  lists := hs.lists
  nodup := hs.nodup
  queued := hs.queued
  active := hs.active
  located := hs.located
  linked := hs.linked
  carried k' t' ht' := by
    obtain ⟨_, _, _, _⟩ : t'.Carried m := Dict.forall_set hs.carried ht k' t' ht'
    constructor <;> assumption

theorem set_queue (hs : Standing m) (hl : l.Sublist (queueOf m w)) :
    Standing { m with workerQueues := m.workerQueues.set w l } where
  lists x hx := ⟨lists_set (hs.lists x hx).1, (hs.lists x hx).2⟩
  nodup x := by
    rw [queueOf_set rfl]
    split
    · exact hl.nodup (hs.nodup w)
    · exact hs.nodup x
  queued x t ht := by
    rw [queueOf_set rfl] at ht
    split at ht
    · next he => exact hs.queued x t (he ▸ hl.subset ht)
    · exact hs.queued x t ht
  active := hs.active
  located := hs.located
  linked := hs.linked
  carried k t ht :=
    have hc := hs.carried k t ht
    ⟨hc.replica, hc.link, hc.source, hc.destination⟩

theorem set_active (hs : Standing m)
    (hl : ∀ t ∈ l, ∃ task, m.tasks.get? t = some task ∧ task.status ≠ .queued) :
    Standing { m with workerActive := m.workerActive.set w l } where
  lists x hx := ⟨(hs.lists x hx).1, lists_set (hs.lists x hx).2⟩
  nodup := hs.nodup
  queued := hs.queued
  active x t ht := by
    rw [activeOf_set rfl] at ht
    split at ht
    · exact hl t ht
    · exact hs.active x t ht
  located := hs.located
  linked := hs.linked
  carried k t ht :=
    have hc := hs.carried k t ht
    ⟨hc.replica, hc.link, hc.source, hc.destination⟩

theorem set_tasks (hs : Standing m) {tasks : Dict String ResourceTask}
    (hq : ∀ w, ∀ t ∈ queueOf m w, tasks.get? t = m.tasks.get? t)
    (ha : ∀ t task, m.tasks.get? t = some task → task.status ≠ .queued →
      ∃ task', tasks.get? t = some task' ∧ task'.status ≠ .queued) :
    Standing { m with tasks } where
  lists := hs.lists
  nodup := hs.nodup
  queued w t ht := by
    obtain ⟨task, htask, hrest⟩ := hs.queued w t ht
    exact ⟨task, (hq w t ht).trans htask, hrest⟩
  active w t ht := by
    obtain ⟨task, htask, hn⟩ := hs.active w t ht
    exact ha t task htask hn
  located := hs.located
  linked := hs.linked
  carried k t ht :=
    have hc := hs.carried k t ht
    ⟨hc.replica, hc.link, hc.source, hc.destination⟩

theorem set_task (hs : Standing m) (hq : ∀ w, t ∉ queueOf m w) (hn : task'.status ≠ .queued) :
    Standing { m with tasks := m.tasks.set t task' } := by
  apply hs.set_tasks
  · intro w s hm
    exact Dict.get?_set_ne _ _ fun he => hq w (he ▸ hm)
  · intro s task htask hne
    by_cases he : t = s
    · exact ⟨task', he ▸ Dict.get?_set_self _ _ _, hn⟩
    · exact ⟨task, (Dict.get?_set_ne _ _ he).trans htask, hne⟩

theorem fail_tasks (hs : Standing m) {l : List String} (hl : ∀ t ∈ l, ∀ w, t ∉ queueOf m w) :
    Standing { m with tasks := l.foldl (failTasks now) m.tasks } := by
  apply hs.set_tasks
  · intro w t hm
    rw [get?_foldl_failTasks, if_neg fun h => hl t h w hm]
  · intro t task htask hn
    rw [get?_foldl_failTasks, htask]
    split
    · exact ⟨task.failedAt now, rfl, nofun⟩
    · exact ⟨task, rfl, hn⟩

theorem lose_replicas (hs : Standing m) (w : String) :
    Standing { m with replicas := m.replicas.mapValues (·.lostAt w) } where
  lists := hs.lists
  nodup := hs.nodup
  queued := hs.queued
  active := hs.active
  located k r hr := by
    rw [Dict.get?_mapValues, Option.map_eq_some_iff] at hr
    obtain ⟨r', hr', rfl⟩ := hr
    rw [lostAt_locationId]
    exact hs.located k r' hr'
  linked := hs.linked
  carried k t ht :=
    have hc := hs.carried k t ht
    ⟨(Dict.mem_mapValues _ _ _).mpr hc.replica, hc.link, hc.source, hc.destination⟩

theorem fail_transfers (hs : Standing m) (affected : StateTransfer → Bool) (now : Time) :
    Standing { m with transfers := m.transfers.mapValues (·.failedIf affected now) } where
  lists := hs.lists
  nodup := hs.nodup
  queued := hs.queued
  active := hs.active
  located := hs.located
  linked := hs.linked
  carried k t ht := by
    rw [Dict.get?_mapValues, Option.map_eq_some_iff] at ht
    obtain ⟨t', ht', rfl⟩ := ht
    have hc := hs.carried k t' ht'
    unfold StateTransfer.failedIf
    split <;> exact ⟨hc.replica, hc.link, hc.source, hc.destination⟩

end Standing

section Handlers
variable {h : Host ResourceModel}

/-- The records of the model stand. -/
structure Stood (h : Host ResourceModel) : Prop where
  world : Standing h.world

theorem scheduleEvent_stands {f : SimEvent → ResourceM α} (hs : Stood h)
    (hf : ∀ event, Ends (f event) (h.act (.schedule r)) Stood) : Ends (scheduleEvent r >>= f) h Stood :=
  Ends.scheduleEvent_bind hs fun event _ _ => hf event

theorem notify_stands (kind : EventKind) (payload : List (String × PayloadValue))
    (hs : Stood h) : Ends (notify kind payload) h Stood := by
  unfold notify Ends
  cases hr : h.history.sim.schedule
    { kind, delay := some (.int 0), payload := payloadOf payload } with
  | error e =>
    rw [scheduleEvent_error hr]
    exact hs
  | ok res =>
    rw [scheduleEvent_ok hr]
    constructor
    change Standing (h.act _).world
    rw [act_world]
    exact hs.world

theorem write_stands (f : ResourceModel → ResourceModel) (kind : EventKind)
    (payload : List (String × PayloadValue)) (hs : Standing (f h.world)) :
    Ends (do
      modifyWorld f
      discard (notify kind payload)) h Stood := by
  apply Ends.modify_bind
  exact (notify_stands kind payload ⟨hs⟩).discard

theorem loseMaterializing_stands
    (hs : Standing { h.world with replicas := h.world.replicas.set k r }) :
    Ends (loseMaterializing k r) h Stood :=
  write_stands _ _ _ hs

theorem abandonTransfer_stands {t : StateTransfer}
    (hs : Standing { h.world with transfers := h.world.transfers.set k t }) :
    Ends (abandonTransfer k t) h Stood :=
  write_stands _ _ _ hs

theorem dispatchLoop_stands (worker : Worker) (queue : List String) (hs : Stood h)
    (hq : queueOf h.world w = queue) : Ends (dispatchLoop w worker queue) h Stood := by
  induction queue generalizing h with
  | nil => exact hs
  | cons t rest ih =>
    apply Ends.get_bind
    dsimp only
    split
    · have hnodup : (t :: rest).Nodup := hq ▸ hs.world.nodup w
      let h₁ : Host ResourceModel :=
        { h with world := { h.world with workerQueues := h.world.workerQueues.set w rest } }
      have hpopped : Standing h₁.world := hs.world.set_queue (hq ▸ List.sublist_cons_self t rest)
      apply Ends.modify_bind
      apply Ends.lift_bind (s := h₁) ⟨hpopped⟩
      intro task _
      apply scheduleEvent_stands (h := h₁) ⟨hpopped⟩
      intro completion
      apply Ends.modify_bind
      -- the task waits neither here nor at another worker
      have hfree (w' : String) :
          t ∉ queueOf { h.world with workerQueues := h.world.workerQueues.set w rest } w' := by
        rw [queueOf_set rfl]
        split
        · exact (List.nodup_cons.mp hnodup).1
        · next hne =>
          intro hm
          obtain ⟨other, hother, hw', _⟩ := hs.world.queued w' t hm
          obtain ⟨_, hother', hw, _⟩ := hs.world.queued w t (hq ▸ List.mem_cons_self)
          obtain rfl := Option.some.inj (hother.symm.trans hother')
          exact hne (hw.symm.trans hw')
      let started : ResourceTask := { task with
        status := .running
        startedAt := some h.history.sim.now
        completionEventId := some completion.eventId }
      have hrunning : started.status ≠ .queued := nofun
      have hset := hpopped.set_task hfree hrunning
      apply ih
      · constructor
        apply hset.set_active
        intro s hm
        rcases List.mem_append.mp hm with hm | hm
        · exact hset.active w s hm
        · obtain rfl := List.mem_singleton.mp hm
          exact ⟨started, Dict.get?_set_self _ _ _, hrunning⟩
      · exact (queueOf_set rfl).trans (if_pos rfl)
    · exact hs

theorem dispatch_stands (w : String) (hs : Stood h) : Ends (dispatch w) h Stood := by
  apply Ends.get_bind
  apply Ends.lift_bind hs
  intro worker _
  apply Ends.lift_bind hs
  intro queue hqueue
  apply Ends.lift_bind hs
  intro active _
  apply dispatchLoop_stands worker queue hs
  rw [queueOf, item_eq_ok.mp hqueue, Option.getD_some]

theorem onTaskEnqueued_stands (event : SimEvent) (hs : Stood h) :
    Ends (onTaskEnqueued event) h Stood := by
  apply Ends.lift_bind hs
  intro value _
  apply Ends.lift_bind hs
  exact fun w _ => dispatch_stands w hs

theorem Standing.complete (hs : Standing m) (ht : m.tasks.get? t = some task)
    (hn : task.status ≠ .queued) (hn' : task'.status ≠ .queued) (w : String) :
    Standing { m with
      workerActive := m.workerActive.set w ((activeOf m w).erase t)
      tasks := m.tasks.set t task' } := by
  have hactive := hs.set_active (w := w) (l := (activeOf m w).erase t) fun s hm =>
    hs.active w s (List.mem_of_mem_erase hm)
  exact hactive.set_task (fun w' => hs.not_waiting ht hn w') hn'

theorem onTaskCompleted_stands (event : SimEvent) (hs : Stood h) :
    Ends (onTaskCompleted event) h Stood := by
  apply Ends.lift_bind hs
  intro taskId _
  apply Ends.lift_bind hs
  intro workerId _
  apply Ends.get_bind
  split
  · exact hs
  · next task htask =>
    split
    · exact hs
    · next hrunning =>
      rw [ne_eq, not_not] at hrunning
      apply Ends.lift_bind hs
      intro t ht
      apply Ends.lift_bind hs
      intro w _
      apply Ends.lift_bind hs
      intro active hactive
      apply Ends.modify_bind
      apply dispatch_stands
      have hactive : activeOf h.world w = active := by
        rw [activeOf, item_eq_ok.mp hactive, Option.getD_some]
      have ht : h.world.tasks.get? t = some task := by
        cases taskId <;> cases ht
        exact htask
      rw [← hactive]
      have hrunning : task.status ≠ .queued := by
        rw [hrunning]
        intro h
        cases h
      have hcompleted : TaskStatus.completed ≠ .queued := by
        intro h
        cases h
      exact ⟨hs.world.complete ht hrunning hcompleted w⟩

theorem onWorkerFailed_stands (event : SimEvent) (hf : NumbersFree h.history.sim)
    (hs : Stood h) : Ends (onWorkerFailed event) h Stood := by
  apply Ends.lift_bind hs
  intro value _
  apply Ends.lift_bind hs
  intro w _
  apply Ends.get_bind
  apply Ends.lift_bind hs
  intro worker hworker
  split
  · exact hs
  · have hw := Dict.mem_of_get? (item_eq_ok.mp hworker)
    have hdown := hs.world.set_worker hw { worker with status := .down }
    apply Ends.modify_bind
    apply Ends.lift_bind ⟨hdown⟩
    intro active hactive
    have hactive : activeOf h.world w = active := by
      rw [activeOf, item_eq_ok.mp hactive, Option.getD_some]
    have hcleared := hdown.set_active (w := w) (l := []) fun _ ht => (List.not_mem_nil ht).elim
    apply Ends.modify_bind
    have hmember (t : String) (ht : t ∈ active) : ∃ task, h.world.tasks.get? t = some task ∧
        task.status ≠ .queued := hs.world.active w t (hactive ▸ ht)
    have hknown (t : String) (ht : t ∈ active) : t ∈ h.world.tasks := by
      obtain ⟨task, htask, _⟩ := hmember t ht
      exact Dict.mem_of_get? htask
    refine Yields.ends_bind (failTasks_yields hf hknown) fun _ h₁ hacts₁ hw₁ => ?_
    have hf₁ := hacts₁.numbersFree (fun _ ha => ha) hf
    have hs₁ : Standing h₁.world := by
      rw [hw₁]
      apply hcleared.fail_tasks
      intro t ht x
      obtain ⟨task, htask, hn⟩ := hmember t ht
      exact hs.world.not_waiting htask hn x
    apply Ends.get_bind
    apply (loseReplicas_yields w hf₁).ends_bind
    intro _ h₂ hacts₂ hw₂
    have hs₂ : Standing h₂.world := hw₂ ▸ hs₁.lose_replicas w
    apply Ends.get_bind
    apply (failTransfers_yields _ (hacts₂.numbersFree (fun _ ha => ha) hf₁)).ends
    intro h₃ _ hw₃
    exact ⟨hw₃ ▸ hs₂.fail_transfers _ _⟩

theorem onWorkerRecovered_stands (event : SimEvent) (hs : Stood h) :
    Ends (onWorkerRecovered event) h Stood := by
  apply Ends.lift_bind hs
  intro value _
  apply Ends.lift_bind hs
  intro w _
  apply Ends.get_bind
  apply Ends.lift_bind hs
  intro worker hworker
  split
  · exact hs
  · apply Ends.modify_bind
    exact dispatch_stands w ⟨hs.world.set_worker (Dict.mem_of_get? (item_eq_ok.mp hworker)) _⟩

theorem onMaterializationStarted_stands (event : SimEvent) (hs : Stood h) :
    Ends (onMaterializationStarted event) h Stood := by
  apply Ends.get_bind
  apply Ends.lift_bind hs
  intro found hfound
  apply Ends.lift_bind hs
  intro duration _
  split
  · exact hs
  · next k r =>
    have hl := hs.world.located k r (replicaOf_eq_ok hfound)
    split
    · exact hs
    · apply Ends.lift_bind hs
      intro worker _
      split
      · exact loseMaterializing_stands (hs.world.set_replica hl)
      · apply Ends.lift_bind hs
        intro delay _
        apply scheduleEvent_stands hs
        intro completion
        exact ⟨hs.world.set_replica hl⟩

theorem onStateMaterialized_stands (event : SimEvent) (hs : Stood h) :
    Ends (onStateMaterialized event) h Stood := by
  apply Ends.get_bind
  apply Ends.lift_bind hs
  intro found hfound
  split
  · exact hs
  · next k r =>
    have hl := hs.world.located k r (replicaOf_eq_ok hfound)
    split
    · exact hs
    · apply Ends.lift_bind hs
      intro worker _
      split
      · exact loseMaterializing_stands (hs.world.set_replica hl)
      · exact ⟨hs.world.set_replica hl⟩

theorem Standing.advance (hs : Standing m) {t t' : StateTransfer} (ht : m.transfers.get? k = some t)
    (hr : t'.replicaId = t.replicaId) (hl : t'.linkId = t.linkId) (hd : t'.sourceId = t.sourceId)
    (hd' : t'.destinationId = t.destinationId) :
    Standing { m with transfers := m.transfers.set k t' } := by
  obtain ⟨replica, link, source, destination⟩ := hs.carried k t ht
  exact hs.set_transfer ⟨hr ▸ replica, hl ▸ link, hd ▸ source, hd' ▸ destination⟩

theorem onTransferStarted_stands (event : SimEvent) (hs : Stood h) :
    Ends (onTransferStarted event) h Stood := by
  apply Ends.get_bind
  apply Ends.lift_bind hs
  intro found hfound
  split
  · exact hs
  · next k t =>
    have ht := transferOf_eq_ok hfound
    split
    · exact hs
    · apply Ends.lift_bind hs
      intro r _
      apply Ends.lift_bind hs
      intro blocked _
      cases blocked with
      | true => exact abandonTransfer_stands (hs.world.advance ht rfl rfl rfl rfl)
      | false =>
        apply Ends.lift_bind hs
        intro link _
        apply Ends.lift_bind hs
        intro duration _
        apply scheduleEvent_stands hs
        exact fun completion => ⟨hs.world.advance ht rfl rfl rfl rfl⟩

theorem onTransferCompleted_stands (event : SimEvent) (hs : Stood h) :
    Ends (onTransferCompleted event) h Stood := by
  apply Ends.get_bind
  apply Ends.lift_bind hs
  intro found hfound
  split
  · exact hs
  · next k t =>
    have ht := transferOf_eq_ok hfound
    split
    · exact hs
    · apply Ends.lift_bind hs
      intro r _
      apply Ends.lift_bind hs
      intro blocked _
      cases blocked with
      | true => exact abandonTransfer_stands (hs.world.advance ht rfl rfl rfl rfl)
      | false =>
        have hd := (hs.world.carried k t ht).destination
        have hmoved := hs.world.set_replica (k := t.replicaId)
          (r := { r with locationId := t.destinationId }) hd
        exact write_stands _ _ _ (hmoved.advance ht rfl rfl rfl rfl)

theorem onReplicaGone_stands (status : ReplicaRuntimeStatus) (event : SimEvent)
    (hf : NumbersFree h.history.sim) (hs : Stood h) :
    Ends (onReplicaGone status event) h Stood := by
  apply Ends.get_bind
  apply Ends.lift_bind hs
  intro found hfound
  split
  · exact hs
  · next k r =>
    have hl := hs.world.located k r (replicaOf_eq_ok hfound)
    split
    · exact hs
    · have hloop : Yields Action.Unnumbered (failActiveTransfersForReplica k) h _ :=
        failTransfers_yields (fun t => t.replicaId = k) hf
      apply hloop.ends_bind
      intro _ h₁ _ hw₁
      apply (cancelCompletion_yields r.completionEventId h₁).ends_bind
      intro _ h₂ _ hw₂
      have hs₂ : Standing h₂.world := by
        rw [hw₂, hw₁]
        exact hs.world.fail_transfers _ _
      have hl₂ : r.locationId ∈ h₂.world.workers := by
        rw [hw₂, hw₁]
        exact hl
      exact ⟨hs₂.set_replica hl₂⟩

theorem handle_stands (event : SimEvent) (hf : NumbersFree h.history.sim) (hs : Stood h) :
    Ends (ResourceModel.handle event) h Stood := by
  unfold ResourceModel.handle
  split
  · exact onTaskEnqueued_stands event hs
  · exact onTaskCompleted_stands event hs
  · exact onWorkerFailed_stands event hf hs
  · exact onWorkerRecovered_stands event hs
  · exact onMaterializationStarted_stands event hs
  · exact onStateMaterialized_stands event hs
  · exact onTransferStarted_stands event hs
  · exact onTransferCompleted_stands event hs
  · exact onReplicaGone_stands _ event hf hs
  · exact onReplicaGone_stands _ event hf hs
  · exact hs

end Handlers

section Calls
variable {h : Host ResourceModel}

theorem Standing.add_worker (hs : Standing m) (w : String) (worker : Worker) :
    Standing { m with
      workers := m.workers.set w worker
      workerQueues := m.workerQueues.set w []
      workerActive := m.workerActive.set w [] } := by
  have hcleared := hs.set_active (w := w) (l := []) fun _ ht => (List.not_mem_nil ht).elim
  have hempty := hcleared.set_queue (w := w) (List.nil_sublist _)
  constructor
  case lists =>
    intro x hx
    rcases Dict.mem_set.mp hx with rfl | hx
    · exact ⟨Dict.mem_set.mpr (.inl rfl), Dict.mem_set.mpr (.inl rfl)⟩
    · exact hempty.lists x hx
  case nodup => exact hempty.nodup
  case queued => exact hempty.queued
  case active => exact hempty.active
  case located => exact fun k r hr => lists_set (hs.located k r hr)
  case linked =>
    intro k l hl
    exact ⟨lists_set (hs.linked k l hl).1, lists_set (hs.linked k l hl).2⟩
  case carried =>
    intro k t ht
    obtain ⟨replica, link, source, destination⟩ := hs.carried k t ht
    exact ⟨replica, link, lists_set source, lists_set destination⟩

theorem addWorker_stands (w : String) (capacity : Int) (hs : Stood h) :
    Ends (addWorker w capacity) h Stood := by
  apply Ends.lift_bind hs
  intro _ _
  apply Ends.get_bind
  apply Ends.lift_bind hs
  intro _ _
  apply Ends.lift_bind hs
  intro _ _
  exact ⟨hs.world.add_worker w _⟩

theorem Standing.add_link (hs : Standing m) {link : NetworkLink} (hd : link.sourceId ∈ m.workers)
    (hd' : link.destinationId ∈ m.workers) :
    Standing { m with links := m.links.set linkId link } where
  lists := hs.lists
  nodup := hs.nodup
  queued := hs.queued
  active := hs.active
  located := hs.located
  linked := Dict.forall_set hs.linked ⟨hd, hd'⟩
  carried k t ht :=
    have hc := hs.carried k t ht
    ⟨hc.replica, lists_set hc.link, hc.source, hc.destination⟩

theorem addLink_stands (linkId sourceId destinationId : String) (latency bandwidth : Number)
    (hs : Stood h) : Ends (addLink linkId sourceId destinationId latency bandwidth) h Stood := by
  apply Ends.lift_bind hs
  intro _ _
  apply Ends.get_bind
  apply Ends.lift_bind hs
  intro _ hsource
  apply Ends.lift_bind hs
  intro _ hdestination
  apply Ends.lift_bind hs
  intro _ _
  apply Ends.lift_bind hs
  intro latency _
  apply Ends.lift_bind hs
  intro bandwidth _
  have hsource := Dict.mem_of_get? (requireKnown_eq_ok.mp hsource)
  have hdestination := Dict.mem_of_get? (requireKnown_eq_ok.mp hdestination)
  exact ⟨hs.world.add_link hsource hdestination⟩

theorem Standing.enqueue (hs : Standing m) {task : ResourceTask} (hnew : t ∉ m.tasks)
    (hplace : task.workerId = w) (hqueued : task.status = .queued) :
    Standing (m.enqueue w t task) := by
  have hout (x : String) : t ∉ queueOf m x := by
    intro hm
    obtain ⟨other, hother, _⟩ := hs.queued x t hm
    exact hnew (Dict.mem_of_get? hother)
  have hkeep {s other} (hother : m.tasks.get? s = some other) :
      (m.tasks.set t task).get? s = some other :=
    (Dict.get?_set_ne _ _ (Dict.ne_of_get? hnew hother)).trans hother
  have hself : (m.tasks.set t task).get? t = some task := Dict.get?_set_self _ _ _
  constructor
  case lists => exact fun x hx => ⟨lists_set (hs.lists x hx).1, (hs.lists x hx).2⟩
  case nodup =>
    intro x
    rw [queueOf_set (m := m) rfl]
    split
    · exact (hs.nodup w).append (List.nodup_singleton t)
        (List.disjoint_singleton.mpr (hout w))
    · exact hs.nodup x
  case queued =>
    intro x s hm
    rw [queueOf_set (m := m) rfl] at hm
    split at hm
    · next he =>
      subst he
      rcases List.mem_append.mp hm with hm | hm
      · obtain ⟨other, hother, hrest⟩ := hs.queued w s hm
        exact ⟨other, hkeep hother, hrest⟩
      · obtain rfl := List.mem_singleton.mp hm
        exact ⟨task, hself, hplace, hqueued⟩
    · obtain ⟨other, hother, hrest⟩ := hs.queued x s hm
      exact ⟨other, hkeep hother, hrest⟩
  case active =>
    intro x s hm
    obtain ⟨other, hother, hn⟩ := hs.active x s hm
    exact ⟨other, hkeep hother, hn⟩
  case located => exact hs.located
  case linked => exact hs.linked
  case carried =>
    intro k t ht
    obtain ⟨replica, link, source, destination⟩ := hs.carried k t ht
    exact ⟨replica, link, source, destination⟩

theorem enqueueTask_stands (w t : String) (duration : Number) (hs : Stood h) :
    Ends (enqueueTask w t duration) h Stood := by
  apply Ends.get_bind
  apply Ends.lift_bind hs
  intro worker hworker
  apply Ends.lift_bind hs
  intro _ _
  apply Ends.lift_bind hs
  intro _ hnew
  apply Ends.lift_bind hs
  intro duration _
  rw [raiseIf_eq_ok] at hnew
  have hw := Dict.mem_of_get? (requireKnown_eq_ok.mp hworker)
  let task : ResourceTask :=
    { id := t, workerId := w, duration, status := .queued, enqueuedAt := h.history.sim.now }
  apply Ends.modify_bind
  apply Ends.orElseUndo_bind
  · have hout : t ∉ queueOf h.world w := by
      intro hm
      obtain ⟨other, hother, _⟩ := hs.world.queued w t hm
      exact hnew (Dict.mem_of_get? hother)
    have hundone := enqueue_undone task (hs.world.lists w hw).1 hnew hout
    exact (congrArg (fun m => Stood { h with world := m }) hundone).mpr hs
  · intro event _ _
    have hstood : Standing (h.world.enqueue w t task) := hs.world.enqueue hnew rfl rfl
    exact ⟨hstood⟩

theorem materializeReplica_stands (replicaId stateId locationId : String) (sizeBytes : Int)
    (duration : Number) (hs : Stood h) :
    Ends (materializeReplica replicaId stateId locationId sizeBytes duration) h Stood := by
  apply Ends.lift_bind hs
  intro _ _
  apply Ends.lift_bind hs
  intro _ _
  apply Ends.get_bind
  apply Ends.lift_bind hs
  intro _ hlocation
  apply Ends.lift_bind hs
  intro _ hnew
  apply Ends.lift_bind hs
  intro _ _
  apply Ends.lift_bind hs
  intro duration _
  rw [raiseIf_eq_ok] at hnew
  let r : ReplicaRuntime := { replicaId, stateId, locationId, sizeBytes, status := .materializing }
  have hl : r.locationId ∈ h.world.workers := Dict.mem_of_get? (requireKnown_eq_ok.mp hlocation)
  apply Ends.modify_bind
  apply Ends.orElseUndo_bind
  · have hundone : (h.world.replicas.set replicaId r).erase replicaId = h.world.replicas :=
      Dict.erase_set_new hnew _
    exact (congrArg (fun d => Stood { h with world := { h.world with replicas := d } }) hundone).mpr hs
  · intro event _ _
    exact ⟨hs.world.set_replica hl⟩

theorem startTransfer_stands (transferId replicaId linkId : String) (hs : Stood h) :
    Ends (startTransfer transferId replicaId linkId) h Stood := by
  apply Ends.lift_bind hs
  intro _ _
  apply Ends.get_bind
  apply Ends.lift_bind hs
  intro _ hnew
  apply Ends.lift_bind hs
  intro replica hreplica
  apply Ends.lift_bind hs
  intro _ _
  apply Ends.lift_bind hs
  intro link hlink
  apply Ends.lift_bind hs
  intro _ _
  apply Ends.lift_bind hs
  intro _ _
  rw [raiseIf_eq_ok] at hnew
  let t : StateTransfer :=
    { id := transferId, replicaId, linkId, sourceId := link.sourceId,
      destinationId := link.destinationId, sizeBytes := replica.sizeBytes, status := .scheduled }
  have hlink := requireKnown_eq_ok.mp hlink
  obtain ⟨hsource, hdestination⟩ := hs.world.linked linkId link hlink
  have ht : t.Carried h.world :=
    ⟨Dict.mem_of_get? (requireKnown_eq_ok.mp hreplica), Dict.mem_of_get? hlink, hsource, hdestination⟩
  apply Ends.modify_bind
  apply Ends.orElseUndo_bind
  · have hundone : (h.world.transfers.set transferId t).erase transferId = h.world.transfers :=
      Dict.erase_set_new hnew _
    exact (congrArg (fun d => Stood { h with world := { h.world with transfers := d } }) hundone).mpr hs
  · intro event _ _
    exact ⟨hs.world.set_transfer ht⟩

theorem announce_stands (find : ResourceModel → Except PyError α) (kind : EventKind)
    (payload : List (String × PayloadValue)) (hs : Stood h) :
    Ends
      (do
        let h ← get
        let _ ← (liftM (find h.world) : ResourceM α)
        notify kind payload) h Stood := by
  apply Ends.get_bind
  apply Ends.lift_bind hs
  exact fun _ _ => notify_stands kind payload hs

theorem call_stands (c : ResourceCall) (hs : Stood h) : Ends c.perform h Stood := by
  cases c with
  | addWorker workerId capacity => exact (addWorker_stands workerId capacity hs).discard
  | addLink linkId sourceId destinationId latency bandwidth =>
    exact (addLink_stands linkId sourceId destinationId latency bandwidth hs).discard
  | enqueueTask workerId taskId duration => exact (enqueueTask_stands workerId taskId duration hs).discard
  | failWorker w => exact (announce_stands (·.requireWorker w) _ _ hs).discard
  | recoverWorker w => exact (announce_stands (·.requireWorker w) _ _ hs).discard
  | materializeReplica replicaId stateId locationId sizeBytes duration =>
    exact (materializeReplica_stands replicaId stateId locationId sizeBytes duration hs).discard
  | startTransfer transferId replicaId linkId =>
    exact (startTransfer_stands transferId replicaId linkId hs).discard
  | evictReplica r => exact (announce_stands (·.requireReplica r) _ _ hs).discard
  | loseReplica r => exact (announce_stands (·.requireReplica r) _ _ hs).discard

end Calls

section Runs
variable {h : Host ResourceModel}

theorem step_stands (hk : Kept h) (hs : Stood h) (i : ResourceInput) : Stood (resourceStep h i) := by
  cases i with
  | call c => exact call_stands c hs
  | other action => exact ⟨hs.world⟩
  | pass horizon =>
    unfold resourceStep Host.pass
    dsimp only
    split
    · exact ⟨hs.world⟩
    · next event rest _ =>
      split
      · exact ⟨hs.world⟩
      · split
        · exact ⟨hs.world⟩
        · split
          · exact ⟨hs.world⟩
          · have hf : NumbersFree (h.delivered event rest).history.sim := fun n hn => hk.numbers n hn
            exact handle_stands event hf ⟨hs.world⟩

theorem run_stands (inputs : List ResourceInput) (ha : ∀ i ∈ inputs, i.Unnumbered) :
    Kept (run resourceStep { world := {} } inputs) ∧
      Stood (run resourceStep { world := {} } inputs) := by
  apply invariant_run (P := fun h => Kept h ∧ Stood h)
    (A := fun _ (i : ResourceInput) => i.Unnumbered) ⟨.empty, ⟨.empty⟩⟩
  · intro h i hk hi
    exact ⟨(step_kept hk.1 hi).1, step_stands hk.1 hk.2 i⟩
  · exact .of_forall ha _

end Runs

end Cadi
