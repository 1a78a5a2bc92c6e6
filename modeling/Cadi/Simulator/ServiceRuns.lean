import Cadi.Simulator.ServiceSteps
import Cadi.Simulator.ResourceRuns

namespace Cadi
open Library
set_option autoImplicit true

section Deliveries
variable {h : Host ResourceModel} {event : SimEvent} {rest : List SimEvent}

/-- The host when the handlers of an event are called. -/
def Host.delivered (h : Host σ) (event : SimEvent) (rest : List SimEvent) : Host σ :=
  { h with history := { h.history with sim := h.history.sim.deliver event rest } }

/-- The first event of the queue, when it is live. -/
structure Due (h : Host σ) (event : SimEvent) (rest : List SimEvent) : Prop where
  first : h.history.sim.queue = event :: rest
  live : event.eventId ∉ h.history.sim.cancelled

theorem Due.mem_pending (hd : Due h event rest) : event ∈ h.history.sim.pendingEvents :=
  mem_pendingEvents.mpr ⟨hd.first ▸ List.mem_cons_self, hd.live⟩

theorem mem_pending_delivered (ha : Accounted h.history) (hd : Due h event rest) :
    e ∈ (h.delivered event rest).history.sim.pendingEvents ↔
      e ∈ h.history.sim.pendingEvents ∧ e ≠ event := by
  have hnot : event ∉ (h.delivered event rest).history.sim.pendingEvents := fun hm =>
    (ha.popped hd.first).1 (mem_pendingEvents.mp hm).1
  rw [mem_pending_deliver hd.first hd.live]
  constructor
  · exact fun he => ⟨.inr he, fun heq => hnot (heq ▸ he)⟩
  · exact fun he => he.1.resolve_left he.2

theorem now_le_delivered (ha : Accounted h.history) (hd : Due h event rest) :
    h.history.sim.now ≤ (h.delivered event rest).history.sim.now :=
  ha.ordered.future event (hd.first ▸ List.mem_cons_self)

theorem Sorted.deliver (hs : Sorted h) (hd : Due h event rest) : Sorted (h.delivered event rest) where
  accounted := hs.accounted.deliver hd.first hd.live
  labelled := hs.labelled
  named e he := hs.named e ((mem_pending_delivered hs.accounted hd).mp he).1

/-- Taking an event off the queue keeps the books, but for the completion of a running task. -/
theorem Booked.deliver (hb : Booked h) (hd : Due h event rest)
    (hnot : event.kind = .workerTaskCompleted → ∀ t task, h.world.tasks.get? t = some task →
      task.status = .running → event.eventId ≠ "task-complete:" ++ t) :
    Booked (h.delivered event rest) := by
  have hmem {e : SimEvent} := mem_pending_delivered (e := e) hb.accounted hd
  apply hb.frame (hb.sorted.deliver hd) rfl rfl rfl rfl (now_le_delivered hb.accounted hd)
  · exact fun e he => .inl (hmem.mp he).1
  · intro t task ht hs e he hkind hid
    refine hmem.mpr ⟨he, ?_⟩
    rintro rfl
    exact hnot hkind t task ht hs hid

theorem Called.deliver (hc : Called h w) (ha : Accounted h.history) (hd : Due h event rest)
    (hne : event.kind = .workerTaskEnqueued → payloadItem event "worker_id" ≠ .ok (.str w)) :
    Called (h.delivered event rest) w := by
  intro worker hw hup hfree hqueue
  obtain ⟨e, he, hkind, hitem⟩ := hc worker hw hup hfree hqueue
  refine ⟨e, (mem_pending_delivered ha hd).mpr ⟨he, ?_⟩, hkind, hitem⟩
  rintro rfl
  exact hne hkind hitem

theorem Serviced.deliver (hs : Serviced h) (hd : Due h event rest) (hk : ¬ event.kind.ofTasks) :
    Serviced (h.delivered event rest) where
  booked := hs.booked.deliver hd fun hc => (hk (.inr hc)).elim
  called w := (hs.called w).deliver hs.booked.accounted hd fun hc => (hk (.inl hc)).elim

/-- The next step of the tasks. -/
structure ServedOn (m : ResourceModel) (h' : Host ResourceModel) : Prop where
  serviced : Serviced h'
  final : TasksFinal m h'.world

theorem Dispatched.servedOn (hd : Dispatched w h h') (hf : TasksFinal m h.world)
    (hc : ∀ w', w ≠ w' → Called h w') : ServedOn m h' where
  serviced := by
    refine ⟨hd.booked, fun w' => ?_⟩
    by_cases hw : w = w'
    · exact hw ▸ hd.called
    · exact hd.others w' hw (hc w' hw)
  final := hf.trans hd.final

/-- What the completions need that the delivery of an event to the model schedules, and the notices
of a failed worker. -/
structure Unhindered (h : Host ResourceModel) (event : SimEvent) : Prop where
  enqueued : event.kind = .workerTaskEnqueued → ∀ w worker,
    payloadItem event "worker_id" = .ok (.str w) → h.world.workers.get? w = some worker →
    worker.status = .up →
    ∀ t ∈ (queueOf h.world w).take (worker.capacity - (activeOf h.world w).length).toNat,
      Startable event.time h.history.sim.knownIds h.world t
  completed : event.kind = .workerTaskCompleted → ∀ t w task worker,
    event.eventId = "task-complete:" ++ t → h.world.tasks.get? t = some task →
    task.status = .running → task.workerId = w → h.world.workers.get? w = some worker →
    ∀ s ∈ (queueOf h.world w).take (worker.capacity - ((activeOf h.world w).erase t).length).toNat,
      Startable event.time h.history.sim.knownIds h.world s
  recovered : event.kind = .workerRecovered → ∀ w worker,
    payloadItem event "worker_id" = .ok (.str w) → h.world.workers.get? w = some worker →
    worker.status = .down →
    ∀ t ∈ (queueOf h.world w).take worker.capacity.toNat,
      Startable event.time h.history.sim.knownIds h.world t
  failed : event.kind = .workerFailed → ∀ w worker,
    payloadItem event "worker_id" = .ok (.str w) → h.world.workers.get? w = some worker →
    worker.status = .up → FreeNumbers (activeOf h.world w).length h.history.sim

theorem onTaskEnqueued_served (hs : Serviced h) (hd : Due h event rest) (hu : Unhindered h event)
    (hk : event.kind = .workerTaskEnqueued) :
    Ends (onTaskEnqueued event) (h.delivered event rest) (ServedOn h.world) := by
  obtain ⟨t, task, ht, ha⟩ := hs.booked.enqueues event hd.mem_pending hk
  obtain ⟨worker, hworker⟩ := Dict.mem_iff.mp (hs.booked.placed t task ht)
  have hb : Booked (h.delivered event rest) := by
    apply hs.booked.deliver hd
    intro hc
    rw [hk] at hc
    cases hc
  unfold onTaskEnqueued
  apply Ends.lift_ok_bind ha.worker
  apply Ends.lift_ok_bind (a := task.workerId) rfl
  refine (dispatch_dispatched hb hworker ?_).mono fun h' hd' => ?_
  · exact fun hup => hu.enqueued hk _ worker ha.worker hworker hup
  · refine hd'.servedOn (.refl _) fun w' hw => ?_
    apply (hs.called w').deliver hs.booked.accounted hd
    intro _ he
    rw [ha.worker, Except.ok.injEq, Frozen.str.injEq] at he
    exact hw he

theorem onTaskCompleted_served (hs : Serviced h) (hd : Due h event rest) (hu : Unhindered h event)
    (hk : event.kind = .workerTaskCompleted) :
    Ends (onTaskCompleted event) (h.delivered event rest) (ServedOn h.world) := by
  have hb := hs.booked
  obtain ⟨t, task, ht, ha⟩ := hb.completes event hd.mem_pending hk
  obtain ⟨worker, hworker⟩ := Dict.mem_iff.mp (hb.placed t task ht)
  obtain ⟨active, hactive⟩ := Dict.mem_iff.mp (hb.lists _ (Dict.mem_of_get? hworker)).2
  have hcalled (w' : String) : Called (h.delivered event rest) w' := by
    apply (hs.called w').deliver hb.accounted hd
    intro hc
    rw [hk] at hc
    cases hc
  unfold onTaskCompleted
  apply Ends.lift_ok_bind ha.task
  apply Ends.lift_ok_bind ha.worker
  apply Ends.get_bind
  have hfound : frozenGet? (h.delivered event rest).world.tasks (.str t) = some task := ht
  simp only [hfound]
  split
  · next hdone =>
    refine ⟨⟨hb.deliver hd fun _ t' task' ht' hs' hid => ?_, hcalled⟩, .refl _⟩
    obtain rfl := completion_injective (ha.eventId.symm.trans hid)
    obtain rfl := Option.some.inj (ht.symm.trans ht')
    exact hdone hs'
  · next hrunning =>
    rw [ne_eq, not_not] at hrunning
    apply Ends.lift_ok_bind (a := t) rfl
    apply Ends.lift_ok_bind (a := task.workerId) rfl
    have hitem : item (h.delivered event rest).world.workerActive task.workerId = .ok active :=
      item_eq_ok.mpr hactive
    apply Ends.lift_ok_bind hitem
    apply Ends.modify_bind
    obtain rfl : activeOf h.world task.workerId = active := by
      rw [activeOf, hactive, Option.getD_some]
    let h₁ : Host ResourceModel :=
      { h.delivered event rest with
        world := h.world.complete task.workerId t task event.time }
    have hb₁ : Booked h₁ := hb.complete ht hrunning ha.eventId (hb.sorted.deliver hd).accounted
      (now_le_delivered hb.accounted hd) (fun _ => mem_pending_delivered hb.accounted hd) rfl
    have hactive₁ (w' : String) : activeOf h₁.world w' =
        if task.workerId = w' then (activeOf h.world task.workerId).erase t
        else activeOf h.world w' :=
      activeOf_set rfl
    have hroom : Room h₁ task.workerId worker := by
      intro s hs'
      rw [hactive₁, if_pos rfl] at hs'
      have hold := hu.completed hk t _ task worker ha.eventId ht hrunning rfl hworker s hs'
      refine ⟨fun other hother => ?_, hold.free⟩
      rcases Dict.get?_set_eq_some_iff.mp hother with ⟨rfl, rfl⟩ | ⟨_, hother⟩
      · exact hold.finite task ht
      · exact hold.finite other hother
    have hn : ¬ (task.status = .completed ∨ task.status = .failed) := by
      rw [hrunning]
      decide
    refine (dispatch_dispatched hb₁ hworker fun _ => hroom).mono fun h' hd' => ?_
    refine hd'.servedOn (.set_old ht hn rfl) fun w' hw => ?_
    exact (hcalled w').of_kept rfl ((hactive₁ w').trans (if_neg hw)) rfl fun _ he _ => he

theorem Booked.recover (hb : Booked h) (hworker : h.world.workers.get? w = some worker)
    (hup : worker'.status = .up) (hcap : worker'.capacity = worker.capacity)
    (hworld : h'.world = { h.world with workers := h.world.workers.set w worker' })
    (hhist : h'.history = h.history) : Booked h' := by
  obtain ⟨history, world⟩ := h'
  dsimp only at hworld hhist
  subst hworld hhist
  have hmem (w' : String) : w' ∈ h.world.workers.set w worker' ↔ w' ∈ h.world.workers := by
    rw [Dict.mem_set]
    exact ⟨fun hm => hm.elim (fun he => he ▸ Dict.mem_of_get? hworker) id, .inr⟩
  constructor
  case accounted => exact hb.accounted
  case labelled => exact ⟨hb.labelled.replicas, hb.labelled.transfers⟩
  case lists => exact fun w' hw' => hb.lists w' ((hmem w').mp hw')
  case capacity =>
    intro w' worker₁ hw'
    rcases Dict.get?_set_eq_some_iff.mp hw' with ⟨rfl, rfl⟩ | ⟨_, hw'⟩
    · rw [hcap]
      exact hb.capacity w worker hworker
    · exact hb.capacity w' worker₁ hw'
  case down =>
    intro w' worker₁ hw' hdown
    rcases Dict.get?_set_eq_some_iff.mp hw' with ⟨rfl, rfl⟩ | ⟨_, hw'⟩
    · rw [hup] at hdown
      cases hdown
    · exact hb.down w' worker₁ hw' hdown
  case placed => exact fun t task ht => (hmem _).mpr (hb.placed t task ht)
  case queue => exact hb.queue
  case active => exact hb.active
  case nodup => exact hb.nodup
  case unstarted => exact hb.unstarted
  case past => exact hb.past
  case starts => exact hb.starts
  case completion => exact hb.completion
  case completes => exact hb.completes
  case enqueues => exact hb.enqueues

theorem onWorkerRecovered_served (hs : Serviced h) (hd : Due h event rest)
    (hu : Unhindered h event) (hk : event.kind = .workerRecovered) :
    Ends (onWorkerRecovered event) (h.delivered event rest) (ServedOn h.world) := by
  have hs' : Serviced (h.delivered event rest) := hs.deliver hd (by rw [hk]; decide)
  have hself : ServedOn h.world (h.delivered event rest) := ⟨hs', .refl _⟩
  apply Ends.lift_bind hself
  intro value hvalue
  apply Ends.lift_bind hself
  intro w hw
  obtain rfl : value = .str w := by
    cases value <;> cases hw
    rfl
  apply Ends.get_bind
  apply Ends.lift_bind hself
  intro worker hitem
  have hworker := item_eq_ok.mp hitem
  split
  · exact hself
  · next hnot =>
    have hdown : worker.status = .down := by
      cases hstatus : worker.status with
      | up => exact (hnot hstatus).elim
      | down => rfl
    apply Ends.modify_bind
    let worker' : Worker := { worker with status := .up }
    have hup : worker'.status = .up := rfl
    let h₁ : Host ResourceModel :=
      { h.delivered event rest with
        world := { h.world with workers := h.world.workers.set w worker' } }
    have hb₁ : Booked h₁ := hs'.booked.recover hworker hup rfl rfl rfl
    have hroom : Room h₁ w worker' := by
      intro t ht
      have hnone : activeOf h₁.world w = [] := hs'.booked.down w worker hworker hdown
      rw [hnone, List.length_nil, Int.natCast_zero, Int.sub_zero] at ht
      have hold := hu.recovered hk w worker hvalue hworker hdown t ht
      exact ⟨hold.finite, hold.free⟩
    have hworker₁ : h₁.world.workers.get? w = some worker' := Dict.get?_set_self _ _ _
    refine (dispatch_dispatched hb₁ hworker₁ fun _ => hroom).mono fun h' hd' => ?_
    refine hd'.servedOn (.of_eq rfl) fun w' hw' => ?_
    have hsame : h₁.world.workers.get? w' = h.world.workers.get? w' := Dict.get?_set_ne _ _ hw'
    exact (hs'.called w').of_kept hsame rfl rfl fun _ he _ => he

theorem enqueued_ne_complete (s t : String) : "task-enqueued:" ++ s ≠ "task-complete:" ++ t := by
  apply append_ne 5
  all_goals decide

theorem onWorkerFailed_served (hs : Serviced h) (hd : Due h event rest) (hu : Unhindered h event)
    (hk : event.kind = .workerFailed) :
    Ends (onWorkerFailed event) (h.delivered event rest) (ServedOn h.world) := by
  have hs' : Serviced (h.delivered event rest) := hs.deliver hd (by rw [hk]; decide)
  have hself : ServedOn h.world (h.delivered event rest) := ⟨hs', .refl _⟩
  have hb := hs'.booked
  apply Ends.lift_bind hself
  intro value hvalue
  apply Ends.lift_bind hself
  intro w hw
  obtain rfl : value = .str w := by
    cases value <;> cases hw
    rfl
  apply Ends.get_bind
  apply Ends.lift_bind hself
  intro worker hitem
  have hworker := item_eq_ok.mp hitem
  split
  · exact hself
  · next hnot =>
    have hup : worker.status = .up := by
      cases hstatus : worker.status with
      | up => rfl
      | down => exact (hnot hstatus).elim
    obtain ⟨active, hactive⟩ := Dict.mem_iff.mp (hb.lists _ (Dict.mem_of_get? hworker)).2
    have hactive : h.world.workerActive.get? w = some active := hactive
    obtain rfl : activeOf h.world w = active := by
      rw [activeOf, hactive, Option.getD_some]
    apply Ends.modify_bind
    have hitem' : item (h.delivered event rest).world.workerActive w = .ok (activeOf h.world w) :=
      item_eq_ok.mpr hactive
    apply Ends.lift_ok_bind hitem'
    apply Ends.modify_bind
    have hfree : FreeNumbers (activeOf h.world w).length (h.delivered event rest).history.sim :=
      hu.failed hk w worker hvalue hworker hup
    have hnames : ∀ t ∈ activeOf h.world w, ∃ task, h.world.tasks.get? t = some task ∧
        task.completionEventId = some ("task-complete:" ++ t) := by
      intro t ht
      obtain ⟨task, ht, _, hrunning⟩ := (hb.active w t).mp ht
      exact ⟨task, ht, (hb.completion t task ht hrunning).1⟩
    refine Yields.ends_bind (failTasks_returns hfree (hb.nodup w) hnames) fun _ h₁ hacts hw₁ => ?_
    have hfold : (activeOf h.world w).foldl (failTasks event.time) h.world.tasks =
        h.world.tasks.mapValues (·.failedOn w event.time) := by
      apply foldl_failTasks
      intro t task ht
      have hmem : t ∈ activeOf h.world w ↔
          ∃ task, h.world.tasks.get? t = some task ∧ task.workerId = w ∧ task.status = .running :=
        hb.active w t
      rw [hmem]
      simp only [ht, Option.some.injEq, exists_eq_left']
    have hworld : h₁.world = h.world.fail w worker event.time := by
      rw [hw₁, ResourceModel.fail, ← hfold]
      rfl
    have hp := hacts.pends hb.accounted
    have hkind {k : EventKind} (hn : k = .workerTaskFailed) : ¬ k.ofTasks := by
      rw [hn]
      decide
    have hb₁ : Booked h₁ := by
      apply hb.fail hworker hp.accounted hp.now.ge
      · exact fun e he => (hp.old e he).imp_right hkind
      · exact fun e he hne _ => hp.spared e he hne
      · exact hworld
    have hcalled (w' : String) : Called h₁ w' := by
      by_cases hw' : w = w'
      · intro worker' hworker' hup'
        rw [hworld, ← hw'] at hworker'
        obtain rfl := Option.some.inj ((Dict.get?_set_self _ _ _).symm.trans hworker')
        cases hup'
      · apply (hs'.called w').of_kept
        · rw [hworld]
          exact Dict.get?_set_ne _ _ hw'
        · rw [hworld]
          exact (activeOf_set rfl).trans (if_neg hw')
        · rw [hworld]
          rfl
        · intro e he hkind
          obtain ⟨t, _, _, ha⟩ := hb.enqueues e he hkind
          exact hp.spared e he fun s _ heq => enqueued_ne_complete t s (ha.eventId.symm.trans heq)
    have hfinal : TasksFinal h.world h₁.world := by
      rw [hworld]
      refine ⟨?_, fun t task ht hended => ?_⟩
      · rw [ResourceModel.fail, Dict.keys_mapValues]
      · rw [ResourceModel.fail, Dict.get?_mapValues, ht, Option.map_some,
          failedOn_ended w event.time task hended]
    have hrest := (loseReplicas_aside w).bind fun _ =>
      failTransfers_aside fun t => w = t.sourceId || w = t.destinationId
    refine Ends.mono (hrest h₁ hb₁.sorted) fun h' hends => ?_
    obtain ⟨hsorted, ha⟩ := hends
    exact ⟨Serviced.apart ⟨hb₁, hcalled⟩ ha hsorted, hfinal.trans (.of_eq ha.tasks)⟩

theorem Aside.served {x : ResourceM Unit} (hx : Aside x) (hs : Serviced h) :
    Ends x h (ServedOn h.world) := by
  refine Ends.mono (hx h hs.booked.sorted) fun h' ⟨hsorted, ha⟩ => ?_
  exact ⟨hs.apart ha hsorted, .of_eq ha.tasks⟩

theorem handle_served (hs : Serviced h) (hd : Due h event rest) (hu : Unhindered h event) :
    Ends (ResourceModel.handle event) (h.delivered event rest) (ServedOn h.world) := by
  have haside {x : ResourceM Unit} (hk : ¬ event.kind.ofTasks) (hx : Aside x) :
      Ends x (h.delivered event rest) (ServedOn h.world) := hx.served (hs.deliver hd hk)
  unfold ResourceModel.handle
  split
  · next hk => exact onTaskEnqueued_served hs hd hu hk
  · next hk => exact onTaskCompleted_served hs hd hu hk
  · next hk => exact onWorkerFailed_served hs hd hu hk
  · next hk => exact onWorkerRecovered_served hs hd hu hk
  · next hk => exact haside (by rw [hk]; decide) (onMaterializationStarted_aside event)
  · next hk => exact haside (by rw [hk]; decide) (onStateMaterialized_aside event)
  · next hk => exact haside (by rw [hk]; decide) (onTransferStarted_aside event)
  · next hk => exact haside (by rw [hk]; decide) (onTransferCompleted_aside event)
  · next hk => exact haside (by rw [hk]; decide) (onReplicaGone_aside .evicted event)
  · next hk => exact haside (by rw [hk]; decide) (onReplicaGone_aside .lost event)
  · next henqueued hcompleted _ _ _ _ _ _ _ _ =>
    exact haside (fun hk => hk.elim henqueued hcompleted) (Aside.pure _)

end Deliveries

section Calls
variable {h h' : Host ResourceModel}

theorem Aside.orElseUndo {x : ResourceM α} {undo : ResourceModel → ResourceModel} (hx : Aside x)
    (hundo : Aside (modifyWorld undo)) : Aside (orElseUndo x undo) := by
  intro h hs
  have hends := hx h hs
  unfold Ends Cadi.orElseUndo at *
  cases hr : x h with
  | ok a h' =>
    rw [hr] at hends
    exact hends
  | error e h' =>
    rw [hr] at hends
    obtain ⟨hs', ha'⟩ := hundo h' hends.1
    exact ⟨hs', hends.2.trans ha'⟩

theorem addLink_aside (linkId sourceId destinationId : String) (latency bandwidth : Number) :
    Aside (addLink linkId sourceId destinationId latency bandwidth) := by
  apply Aside.lift_bind
  intro _ _
  apply Within.get_bind
  intro h _
  apply Aside.lift_bind
  intro _ _
  apply Aside.lift_bind
  intro _ _
  apply Aside.lift_bind
  intro _ _
  apply Aside.lift_bind
  intro latency _
  apply Aside.lift_bind
  intro bandwidth _
  refine Aside.bind (.modify ?_ ?_ ?_ ?_ ?_) fun _ => .pure _
  · exact fun m hl => ⟨hl.replicas, hl.transfers⟩
  all_goals exact fun _ => rfl

theorem materializeReplica_aside (replicaId stateId locationId : String) (sizeBytes : Int)
    (duration : Number) : Aside (materializeReplica replicaId stateId locationId sizeBytes duration) := by
  apply Aside.lift_bind
  intro _ _
  apply Aside.lift_bind
  intro _ _
  apply Within.get_bind
  intro h _
  apply Aside.lift_bind
  intro _ _
  apply Aside.lift_bind
  intro _ _
  apply Aside.lift_bind
  intro _ _
  apply Aside.lift_bind
  intro duration _
  apply (Aside.set_replica unnamed).bind
  intro _
  have hk : ¬ EventKind.stateMaterializationStarted.ofTasks := by decide
  apply Aside.bind _ fun _ => .pure _
  apply (Aside.schedule hk).orElseUndo
  apply Aside.modify
  · exact fun m hl => ⟨Dict.forall_erase hl.replicas, hl.transfers⟩
  all_goals exact fun _ => rfl

theorem startTransfer_aside (transferId replicaId linkId : String) :
    Aside (startTransfer transferId replicaId linkId) := by
  apply Aside.lift_bind
  intro _ _
  apply Within.get_bind
  intro h _
  apply Aside.lift_bind
  intro _ _
  apply Aside.lift_bind
  intro replica _
  apply Aside.lift_bind
  intro _ _
  apply Aside.lift_bind
  intro link _
  apply Aside.lift_bind
  intro _ _
  apply Aside.lift_bind
  intro _ _
  apply (Aside.set_transfer unnamed).bind
  intro _
  have hk : ¬ EventKind.stateTransferStarted.ofTasks := by decide
  apply Aside.bind _ fun _ => .pure _
  apply (Aside.schedule hk).orElseUndo
  apply Aside.modify
  · exact fun m hl => ⟨hl.replicas, Dict.forall_erase hl.transfers⟩
  all_goals exact fun _ => rfl

theorem announce_aside (find : ResourceModel → Except PyError β) (hk : ¬ kind.ofTasks)
    (payload : List (String × PayloadValue)) :
    Aside (do
      let h ← get
      let _ ← find h.world
      notify kind payload) := by
  apply Within.get_bind
  intro h _
  apply Aside.lift_bind
  intro _ _
  exact .notify hk payload

theorem Booked.addWorker (hb : Booked h) (hnew : w ∉ h.world.workers) (hcap : 0 < worker.capacity)
    (hhist : h'.history = h.history)
    (hworld : h'.world = { h.world with
      workers := h.world.workers.set w worker
      workerQueues := h.world.workerQueues.set w []
      workerActive := h.world.workerActive.set w [] }) : Booked h' := by
  obtain ⟨history, world⟩ := h'
  dsimp only at hworld hhist
  subst hworld hhist
  have hnone {t task} (ht : h.world.tasks.get? t = some task) : task.workerId ≠ w := fun he =>
    hnew (he ▸ hb.placed t task ht)
  let m : ResourceModel := { h.world with
    workers := h.world.workers.set w worker
    workerQueues := h.world.workerQueues.set w []
    workerActive := h.world.workerActive.set w [] }
  have hqueues (w' : String) : queueOf m w' = if w = w' then [] else queueOf h.world w' :=
    queueOf_set rfl
  have hactive (w' : String) : activeOf m w' = if w = w' then [] else activeOf h.world w' :=
    activeOf_set rfl
  constructor
  case accounted => exact hb.accounted
  case labelled => exact ⟨hb.labelled.replicas, hb.labelled.transfers⟩
  case lists =>
    intro w' hw'
    rcases Dict.mem_set.mp hw' with rfl | hw'
    · exact ⟨Dict.mem_set.mpr (.inl rfl), Dict.mem_set.mpr (.inl rfl)⟩
    · exact ⟨lists_set (hb.lists w' hw').1, lists_set (hb.lists w' hw').2⟩
  case capacity =>
    intro w' worker' hw'
    change ((activeOf m w').length : Int) ≤ worker'.capacity
    rw [hactive]
    rcases Dict.get?_set_eq_some_iff.mp hw' with ⟨rfl, rfl⟩ | ⟨hne, hw'⟩
    · rw [if_pos rfl]
      exact hcap.le
    · rw [if_neg hne]
      exact hb.capacity w' worker' hw'
  case down =>
    intro w' worker' hw' hdown
    change activeOf m w' = []
    rw [hactive]
    rcases Dict.get?_set_eq_some_iff.mp hw' with ⟨rfl, rfl⟩ | ⟨hne, hw'⟩
    · exact if_pos rfl
    · rw [if_neg hne]
      exact hb.down w' worker' hw' hdown
  case placed => exact fun t task ht => Dict.mem_set.mpr (.inr (hb.placed t task ht))
  case queue =>
    intro w'
    change queueOf m w' = h.world.tasks.select (waits w')
    rw [hqueues]
    split
    · next he =>
      symm
      apply List.eq_nil_iff_forall_not_mem.mpr
      intro t hm
      rw [← hb.queue, hb.mem_queue] at hm
      obtain ⟨task, ht, hplace, _⟩ := hm
      exact hnone ht (hplace.trans he.symm)
    · exact hb.queue w'
  case active =>
    intro w' t
    change t ∈ activeOf m w' ↔ _
    rw [hactive]
    split
    · next he =>
      refine ⟨fun hm => (List.not_mem_nil hm).elim, ?_⟩
      rintro ⟨task, ht, hplace, _⟩
      exact (hnone ht (hplace.trans he.symm)).elim
    · exact hb.active w' t
  case nodup =>
    intro w'
    change (activeOf m w').Nodup
    rw [hactive]
    split
    · exact List.nodup_nil
    · exact hb.nodup w'
  case unstarted => exact hb.unstarted
  case past => exact hb.past
  case starts => exact hb.starts
  case completion => exact hb.completion
  case completes => exact hb.completes
  case enqueues => exact hb.enqueues

theorem addWorker_served (hs : Serviced h) (w : String) (capacity : Int) :
    Ends (addWorker w capacity) h (ServedOn h.world) := by
  have hself : ServedOn h.world h := ⟨hs, .refl _⟩
  apply Ends.lift_bind hself
  intro _ _
  apply Ends.get_bind
  apply Ends.lift_bind hself
  intro _ hnew
  apply Ends.lift_bind hself
  intro _ hcap
  rw [raiseIf_eq_ok] at hnew hcap
  let worker : Worker := { id := w, capacity }
  let h₁ : Host ResourceModel := { h with world := { h.world with
    workers := h.world.workers.set w worker
    workerQueues := h.world.workerQueues.set w []
    workerActive := h.world.workerActive.set w [] } }
  have hpos : 0 < worker.capacity := Int.not_le.mp hcap
  have hb₁ : Booked h₁ := hs.booked.addWorker hnew hpos rfl rfl
  refine ⟨⟨hb₁, fun w' => ?_⟩, .of_eq rfl⟩
  by_cases he : w = w'
  · intro worker' _ _ _ hne
    exact (hne ((queueOf_set (m := h.world) rfl).trans (if_pos he))).elim
  · have hsame : h₁.world.workers.get? w' = h.world.workers.get? w' := Dict.get?_set_ne _ _ he
    have hactive : activeOf h₁.world w' = activeOf h.world w' :=
      (activeOf_set rfl).trans (if_neg he)
    have hqueue : queueOf h₁.world w' = queueOf h.world w' := (queueOf_set rfl).trans (if_neg he)
    exact (hs.called w').of_kept hsame hactive hqueue fun _ he _ => he

/-- The model after a task has been put on the queue of its worker. -/
def ResourceModel.enqueue (m : ResourceModel) (w t : String) (task : ResourceTask) : ResourceModel :=
  { m with
    tasks := m.tasks.set t task
    workerQueues := m.workerQueues.set w (queueOf m w ++ [t]) }

theorem Booked.enqueue {task : ResourceTask} (hb : Booked h) (hw : task.workerId ∈ h.world.workers)
    (hnew : t ∉ h.world.tasks) (hqueued : task.status = .queued) (hstart : task.startedAt = none)
    (hevent : event.kind = .workerTaskEnqueued) (habout : event.About "task-enqueued:" t task.workerId)
    (hacc : Accounted h'.history) (hnow : h'.history.sim.now = h.history.sim.now)
    (hpending : ∀ e, e ∈ h'.history.sim.pendingEvents ↔ e = event ∨ e ∈ h.history.sim.pendingEvents)
    (hworld : h'.world = h.world.enqueue task.workerId t task) : Booked h' := by
  have hqueues (w' : String) : queueOf h'.world w' =
      if task.workerId = w' then queueOf h.world task.workerId ++ [t] else queueOf h.world w' :=
    queueOf_set (hworld ▸ rfl)
  have hactive (w' : String) : activeOf h'.world w' = activeOf h.world w' := by
    rw [hworld]
    rfl
  have htasks : h'.world.tasks = h.world.tasks.set t task := by
    rw [hworld]
    rfl
  have hworkers : h'.world.workers = h.world.workers := by
    rw [hworld]
    rfl
  have hkeep {s other} (hs : h.world.tasks.get? s = some other) :
      h'.world.tasks.get? s = some other := by
    rw [htasks, Dict.get?_set_ne _ _ (Dict.ne_of_get? hnew hs), hs]
  constructor
  case accounted => exact hacc
  case labelled =>
    rw [hworld]
    exact ⟨hb.labelled.replicas, hb.labelled.transfers⟩
  case lists =>
    intro w' hw'
    rw [hworkers] at hw'
    rw [hworld]
    exact ⟨lists_set (hb.lists w' hw').1, (hb.lists w' hw').2⟩
  case capacity =>
    intro w' worker' hw'
    rw [hactive]
    exact hb.capacity w' worker' (hworkers ▸ hw')
  case down =>
    intro w' worker' hw' hdown
    rw [hactive]
    exact hb.down w' worker' (hworkers ▸ hw') hdown
  case placed =>
    rw [htasks, hworkers]
    exact Dict.forall_set hb.placed hw
  case queue =>
    intro w'
    rw [hqueues, htasks, Dict.select_set_new hnew, ← hb.queue]
    by_cases he : task.workerId = w'
    · subst he
      simp only [waits, hqueued, decide_true, Bool.and_self, ↓reduceIte]
    · simp only [waits, he, decide_false, Bool.false_and, Bool.false_eq_true, ↓reduceIte,
        List.append_nil]
  case active =>
    intro w' s
    rw [hactive, hb.active, htasks]
    constructor
    · rintro ⟨other, hs, hplace⟩
      exact ⟨other, (Dict.get?_set_ne _ _ (Dict.ne_of_get? hnew hs)).trans hs, hplace⟩
    · rintro ⟨other, hs, hplace, hrunning⟩
      rcases Dict.get?_set_eq_some_iff.mp hs with ⟨_, rfl⟩ | ⟨_, hs⟩
      · rw [hqueued] at hrunning
        cases hrunning
      · exact ⟨other, hs, hplace, hrunning⟩
  case nodup =>
    intro w'
    rw [hactive]
    exact hb.nodup w'
  case unstarted =>
    rw [htasks]
    refine Dict.forall_set hb.unstarted ?_
    rw [hstart, hqueued]
    exact iff_of_true rfl rfl
  case past =>
    rw [htasks, hnow]
    refine Dict.forall_set hb.past fun s hs => ?_
    rw [hstart] at hs
    exact (Option.not_mem_none s hs).elim
  case starts =>
    rw [htasks, Dict.entries_set_new hnew, List.pairwise_append]
    refine ⟨hb.starts, List.pairwise_singleton _ _, fun p _ q hq _ s hs => ?_⟩
    rw [List.mem_singleton.mp hq, hstart] at hs
    cases hs
  case completion =>
    intro s other hs hrunning
    rw [htasks] at hs
    rcases Dict.get?_set_eq_some_iff.mp hs with ⟨_, rfl⟩ | ⟨_, hs⟩
    · rw [hqueued] at hrunning
      cases hrunning
    · obtain ⟨hname, e, he, hkind, hid⟩ := hb.completion s other hs hrunning
      exact ⟨hname, e, (hpending e).mpr (.inr he), hkind, hid⟩
  case completes =>
    intro e he hkind
    rcases (hpending e).mp he with rfl | he
    · rw [hevent] at hkind
      cases hkind
    · obtain ⟨s, other, hs, ha⟩ := hb.completes e he hkind
      exact ⟨s, other, hkeep hs, ha⟩
  case enqueues =>
    intro e he hkind
    rcases (hpending e).mp he with rfl | he
    · exact ⟨t, task, htasks ▸ Dict.get?_set_self _ _ _, habout⟩
    · obtain ⟨s, other, hs, ha⟩ := hb.enqueues e he hkind
      exact ⟨s, other, hkeep hs, ha⟩

theorem enqueue_undone {m : ResourceModel} (task : ResourceTask) (hq : w ∈ m.workerQueues)
    (hnew : t ∉ m.tasks)
    (hout : t ∉ queueOf m w) :
    { m.enqueue w t task with
      workerQueues := (m.enqueue w t task).workerQueues.set w
        ((queueOf (m.enqueue w t task) w).erase t)
      tasks := (m.enqueue w t task).tasks.erase t } = m := by
  obtain ⟨queue, hqueue⟩ := Dict.mem_iff.mp hq
  obtain rfl : queueOf m w = queue := by
    rw [queueOf, hqueue, Option.getD_some]
  have hlist : queueOf (m.enqueue w t task) w = queueOf m w ++ [t] :=
    (queueOf_set rfl).trans (if_pos rfl)
  rw [hlist, List.erase_append_right _ hout, List.erase_cons_head, List.append_nil]
  simp only [ResourceModel.enqueue, Dict.set_set, Dict.set_same hqueue, Dict.erase_set_new hnew]

theorem enqueued_served {h₁ : Host ResourceModel} {task : ResourceTask} (hs : Serviced h)
    (hw : task.workerId ∈ h.world.workers) (hnew : t ∉ h.world.tasks) (hqueued : task.status = .queued)
    (hstart : task.startedAt = none) (hkind : r.kind = .workerTaskEnqueued)
    (hid : r.eventId = some ("task-enqueued:" ++ t))
    (hpayload : r.payload = payloadOf [("task_id", .str t), ("worker_id", .str task.workerId)])
    (hhist : h₁.history = h.history) (hworld : h₁.world = h.world.enqueue task.workerId t task)
    (hok : h.history.sim.schedule r = .ok (event, sim)) :
    ServedOn h.world (h₁.act (.schedule r)) := by
  have hb := hs.booked
  obtain ⟨hsim, _, hname, hk, _, hfrozen, _, hfresh⟩ := schedule_eq_ok_iff.mp hok
  rw [hpayload, freeze_taskPayload, Except.ok.injEq] at hfrozen
  rw [hid, Option.getD_some] at hname
  have habout : event.About "task-enqueued:" t task.workerId := about_of_payload hname hfrozen.symm
  have hpending (e : SimEvent) : e ∈ (h₁.act (.schedule r)).history.sim.pendingEvents ↔
      e = event ∨ e ∈ h.history.sim.pendingEvents := by
    simp only [Host.act, History.perform, hhist, hok, hsim]
    exact mem_pending_push hb.accounted hfresh
  have hacc : Accounted (h₁.act (.schedule r)).history :=
    Accounted.perform (hhist ▸ hb.accounted) _
  have hnow : (h₁.act (.schedule r)).history.sim.now = h.history.sim.now := by
    rw [← hhist]
    exact now_perform _ _
  refine ⟨⟨?_, fun w' => ?_⟩, ?_, fun s other hs _ => ?_⟩
  · exact hb.enqueue hw hnew hqueued hstart (hk.trans hkind) habout hacc hnow hpending hworld
  · by_cases he : task.workerId = w'
    · subst he
      intro _ _ _ _ _
      exact ⟨event, (hpending event).mpr (.inl rfl), hk.trans hkind, habout.worker⟩
    · apply (hs.called w').of_kept
      · rw [act_world, hworld]
        rfl
      · rw [act_world, hworld]
        rfl
      · rw [act_world, hworld]
        exact (queueOf_set rfl).trans (if_neg he)
      · exact fun e he _ => (hpending e).mpr (.inr he)
  · rw [act_world, hworld]
    exact ⟨[t], (Dict.keys_set_new hnew _).symm⟩
  · rw [act_world, hworld]
    exact (Dict.get?_set_ne _ _ (Dict.ne_of_get? hnew hs)).trans hs

theorem enqueueTask_served (hs : Serviced h) (w t : String) (duration : Number) :
    Ends (enqueueTask w t duration) h (ServedOn h.world) := by
  have hself : ServedOn h.world h := ⟨hs, .refl _⟩
  apply Ends.get_bind
  apply Ends.lift_bind hself
  intro worker hworker
  apply Ends.lift_bind hself
  intro _ _
  apply Ends.lift_bind hself
  intro _ hnew
  apply Ends.lift_bind hself
  intro duration _
  rw [raiseIf_eq_ok] at hnew
  have hworker := Dict.mem_of_get? (requireKnown_eq_ok.mp hworker)
  let task : ResourceTask :=
    { id := t, workerId := w, duration, status := .queued, enqueuedAt := h.history.sim.now }
  apply Ends.modify_bind
  apply Ends.orElseUndo_bind
  · have hout : t ∉ queueOf h.world w := by
      intro hm
      obtain ⟨task, ht, _⟩ := hs.booked.mem_queue.mp hm
      exact hnew (Dict.mem_of_get? ht)
    have hundone := enqueue_undone task (hs.booked.lists w hworker).1 hnew hout
    exact (congrArg (fun m => ServedOn h.world { h with world := m }) hundone).mpr hself
  · intro event sim hok
    have hw : task.workerId ∈ h.world.workers := hworker
    have hqueued : task.status = .queued := rfl
    have hstart : task.startedAt = none := rfl
    exact enqueued_served hs hw hnew hqueued hstart rfl rfl rfl rfl rfl hok

theorem call_served (hs : Serviced h) (c : ResourceCall) : Ends c.perform h (ServedOn h.world) := by
  cases c with
  | addWorker workerId capacity => exact (addWorker_served hs workerId capacity).discard
  | enqueueTask workerId taskId duration =>
    exact (enqueueTask_served hs workerId taskId duration).discard
  | addLink linkId sourceId destinationId latency bandwidth =>
    exact (addLink_aside linkId sourceId destinationId latency bandwidth).discard.served hs
  | failWorker w =>
    exact (announce_aside (·.requireWorker w) (by decide) _).discard.served hs
  | recoverWorker w =>
    exact (announce_aside (·.requireWorker w) (by decide) _).discard.served hs
  | materializeReplica replicaId stateId locationId sizeBytes duration =>
    exact (materializeReplica_aside replicaId stateId locationId sizeBytes duration).discard.served hs
  | startTransfer transferId replicaId linkId =>
    exact (startTransfer_aside transferId replicaId linkId).discard.served hs
  | evictReplica r => exact (announce_aside (·.requireReplica r) (by decide) _).discard.served hs
  | loseReplica r => exact (announce_aside (·.requireReplica r) (by decide) _).discard.served hs

end Calls

section Runs
variable {h : Host ResourceModel}

/-- Nobody else schedules or cancels an event of the tasks. -/
def Undisturbed (h : Host ResourceModel) : ResourceInput → Prop
  | .other (.schedule r) => ¬ r.kind.ofTasks
  | .other (.cancel eventId) =>
    ∀ e ∈ h.history.sim.pendingEvents, e.kind.ofTasks → e.eventId ≠ eventId
  | _ => True

/-- The delivery of the next event, if the step makes one, is not hindered. -/
def Clear (h : Host ResourceModel) : ResourceInput → Prop
  | .pass horizon => ∀ event rest, Due h event rest → (∀ t ∈ horizon, event.time ≤ t) →
    Unhindered h event
  | _ => True

theorem act_served (hs : Serviced h) (hu : Undisturbed h (.other action)) :
    ServedOn h.world (h.act action) := by
  suffices hap : Sorted (h.act action) ∧ Apart h (h.act action) from
    ⟨hs.apart hap.2 hap.1, .of_eq rfl⟩
  cases action with
  | schedule r =>
    have hk : ¬ r.kind.ofTasks := hu
    exact Apart.of_pends hs.booked.sorted (.perform hs.booked.accounted hk) (act_world h _)
  | cancel eventId =>
    have hacc : Accounted (h.act (.cancel eventId)).history := hs.booked.accounted.perform _
    have hmem {e} : e ∈ (h.act (.cancel eventId)).history.sim.pendingEvents ↔ _ :=
      mem_pending_cancel eventId
    refine ⟨⟨hacc, hs.booked.labelled, fun e he => ?_⟩, rfl, rfl, rfl, rfl, ?_, fun e he => ?_,
      fun e he hk => ?_⟩
    · exact hs.booked.sorted.named e (hmem.mp he).1
    · exact (now_perform h.history (.cancel eventId)).ge
    · exact .inl (hmem.mp he).1
    · exact hmem.mpr ⟨he, fun hid => (hu e he hk hid).elim⟩

theorem idle_served {sim : Simulator} (hs : Serviced h)
    (hacc : Accounted { h.history with sim := sim }) (hnow : h.history.sim.now ≤ sim.now)
    (hpending : ∀ e, e ∈ sim.pendingEvents ↔ e ∈ h.history.sim.pendingEvents) :
    ServedOn h.world { h with history := { h.history with sim := sim } } := by
  refine ⟨hs.apart ⟨rfl, rfl, rfl, rfl, hnow, fun e he => ?_, fun e he _ => ?_⟩ ⟨hacc, ?_, ?_⟩,
    .of_eq rfl⟩
  · exact .inl ((hpending e).mp he)
  · exact (hpending e).mpr he
  · exact hs.booked.labelled
  · exact fun e he => hs.booked.sorted.named e ((hpending e).mp he)

theorem pass_served (hs : Serviced h) (hc : Clear h (.pass horizon)) :
    ServedOn h.world (h.pass ResourceModel.handle horizon) := by
  have ha := hs.booked.accounted
  have hadvance (hlate : ∀ e ∈ h.history.sim.queue, ∀ t ∈ horizon, t < e.time) :
      ServedOn h.world
        { h with history := { h.history with sim := h.history.sim.advance horizon } } :=
    idle_served hs (ha.advance horizon hlate) (now_le_advance _ _) fun e => by
      rw [pending_advance]
  unfold Host.pass
  dsimp only
  split
  · next hq =>
    apply hadvance
    intro e he
    rw [hq] at he
    cases he
  · next event rest hq =>
    split
    · next hhorizon =>
      obtain ⟨t, ht, hlt⟩ := hhorizon
      apply hadvance
      intro e he t' ht'
      obtain rfl := Option.mem_unique ht ht'
      rw [hq] at he
      rcases List.mem_cons.mp he with rfl | he
      · exact hlt
      · exact hlt.trans_le ((ha.ordered.tail hq).1 e he).time_le
    · next hhorizon =>
      split
      · next hcancelled =>
        exact idle_served hs (ha.discard hq hcancelled) le_rfl fun e =>
          mem_pending_discard ha hq hcancelled
      · next hlive =>
        have hfuture := ha.ordered.future event (hq ▸ List.mem_cons_self)
        rw [if_neg (Time.not_lt.mpr hfuture)]
        have hin (t : Time) (ht : t ∈ horizon) : event.time ≤ t :=
          Time.not_lt.mp fun hlt => hhorizon ⟨t, ht, hlt⟩
        exact handle_served hs ⟨hq, hlive⟩ (hc event rest ⟨hq, hlive⟩ hin)

theorem step_served (hs : Serviced h) (hu : Undisturbed h i) (hc : Clear h i) :
    ServedOn h.world (resourceStep h i) := by
  cases i with
  | call c => exact call_served hs c
  | other action => exact act_served hs hu
  | pass horizon => exact pass_served hs hc

theorem Serviced.empty : Serviced { world := {} } where
  booked := by
    have hnone {α : Type} {k : String} {v : α} {P : Prop} (h : (∅ : Dict String α).get? k = some v) :
        P := (Option.some_ne_none _ h.symm).elim
    constructor
    case accounted => exact .empty
    case labelled => exact ⟨fun _ _ => hnone, fun _ _ => hnone⟩
    case lists => exact fun _ hw => (List.not_mem_nil hw).elim
    case queue => exact fun _ => rfl
    case active => exact fun _ _ => ⟨fun hm => (List.not_mem_nil hm).elim, fun ⟨_, ht, _⟩ => hnone ht⟩
    case nodup => exact fun _ => List.nodup_nil
    case starts => exact .nil
    case completes => exact fun _ he => (List.not_mem_nil he).elim
    case enqueues => exact fun _ he => (List.not_mem_nil he).elim
    all_goals exact fun _ _ => hnone
  called _ _ _ _ _ hne := (hne rfl).elim

end Runs

section Readiness
variable {h : Host ResourceModel}

/-- Whatever the next event starts can be started: each task in a queue at its time, and a notice
for each active task. -/
def AllStartable (h : Host ResourceModel) : Prop :=
  ∀ event ∈ h.history.sim.queue.head?,
    (∀ p ∈ h.world.workerQueues.entries, ∀ t ∈ p.2, "task-complete:" ++ t ∉ h.history.sim.knownIds ∧
      ∀ task ∈ h.world.tasks.get? t, event.time.add task.duration ≠ none) ∧
    ∀ p ∈ h.world.workerActive.entries, ∀ i < p.2.length,
      numbered (h.history.sim.nextSequence + i) ∉ h.history.sim.knownIds

instance : DecidablePred AllStartable := fun _ => inferInstanceAs (Decidable (∀ _ ∈ _, _ ∧ _))

theorem AllStartable.unhindered (hr : AllStartable h) (hd : Due h event rest) : Unhindered h event := by
  obtain ⟨hqueues, hactive⟩ := hr event (by rw [hd.first]; rfl)
  have hstart (w t : String) (ht : t ∈ queueOf h.world w) :
      Startable event.time h.history.sim.knownIds h.world t := by
    unfold queueOf at ht
    cases hget : h.world.workerQueues.get? w with
    | none =>
      rw [hget] at ht
      cases ht
    | some queue =>
      rw [hget] at ht
      obtain ⟨hfree, hfinite⟩ := hqueues (w, queue) (Dict.get?_eq_some_iff.mp hget) t ht
      exact ⟨hfinite, hfree⟩
  constructor
  case enqueued => exact fun _ w _ _ _ _ t ht => hstart w t (List.mem_of_mem_take ht)
  case completed => exact fun _ _ w _ _ _ _ _ _ _ s hs => hstart w s (List.mem_of_mem_take hs)
  case recovered => exact fun _ w _ _ _ _ t ht => hstart w t (List.mem_of_mem_take ht)
  case failed =>
    intro _ w _ _ _ _ n hle hlt
    unfold activeOf at hlt
    cases hget : h.world.workerActive.get? w with
    | none =>
      rw [hget] at hlt
      exact absurd hlt (Nat.not_lt.mpr hle)
    | some active =>
      rw [hget] at hlt
      obtain ⟨i, rfl⟩ := Nat.exists_eq_add_of_le hle
      exact hactive (w, active) (Dict.get?_eq_some_iff.mp hget) i (Nat.add_lt_add_iff_left.mp hlt)

/-- A call, or a pass whose delivery can start everything. -/
def Smooth (h : Host ResourceModel) : ResourceInput → Prop
  | .call _ => True
  | .other _ => False
  | .pass _ => AllStartable h

instance : (i : ResourceInput) → Decidable (Smooth h i)
  | .call _ => inferInstanceAs (Decidable True)
  | .other _ => inferInstanceAs (Decidable False)
  | .pass _ => inferInstanceAs (Decidable (AllStartable h))

theorem Smooth.clear (hs : Smooth h i) : Undisturbed h i ∧ Clear h i := by
  cases i with
  | call c => exact ⟨True.intro, True.intro⟩
  | other action => exact hs.elim
  | pass horizon => exact ⟨True.intro, fun _ _ hd _ => AllStartable.unhindered hs hd⟩

end Readiness

/-- In every run whose deliveries are not hindered the tasks are served at each point and what has
ended stays so. -/
theorem tasks_served (before after : List ResourceInput)
    (hrun : Along resourceStep (fun h i => Undisturbed h i ∧ Clear h i) { world := {} }
      (before ++ after)) :
    let h := run resourceStep { world := {} } before
    TasksServed h ∧ TasksFinal h.world (run resourceStep h after).world := by
  have hstep (h : Host ResourceModel) (i : ResourceInput) (hs : Serviced h)
      (ha : Undisturbed h i ∧ Clear h i) : ServedOn h.world (resourceStep h i) :=
    step_served hs ha.1 ha.2
  have hserviced : Serviced (run resourceStep { world := {} } before) :=
    invariant_run .empty (fun h i hs ha => (hstep h i hs ha).serviced) hrun.append.1
  refine ⟨hserviced.served, ?_⟩
  exact relation_run (R := fun h h' => TasksFinal h.world h'.world) (fun _ => .refl _) .trans
    hserviced (fun h i hs ha => (hstep h i hs ha).serviced) (fun h i hs ha => (hstep h i hs ha).final)
    hrun.append.2

def workBefore : List ResourceInput :=
  [.call (.addWorker "w" 1), .call (.enqueueTask "w" "a" (.int 2)), .call (.enqueueTask "w" "b" (.int 1)),
    .call (.enqueueTask "w" "c" (.int 1)), .pass none, .pass none, .pass none, .call (.failWorker "w"),
    .pass none, .pass none, .call (.recoverWorker "w"), .pass none]

def workAfter : List ResourceInput := [.pass none, .pass none, .pass none]

def taskStatuses (h : Host ResourceModel) : List (String × TaskStatus) :=
  h.world.tasks.entries.map fun p => (p.1, p.2.status)

/-- A worker fails with its first task and recovers: the others run in turn. -/
theorem tasks_served_completed :
    let h := run resourceStep { world := {} } workBefore
    TasksServed h ∧ TasksFinal h.world (run resourceStep h workAfter).world ∧
      taskStatuses h = [("a", .failed), ("b", .running), ("c", .queued)] ∧
      taskStatuses (run resourceStep h workAfter) = [("a", .failed), ("b", .completed),
      ("c", .completed)] := by
  have hsmooth : Along resourceStep Smooth { world := {} } (workBefore ++ workAfter) := by
    decide +kernel
  have hrun := tasks_served workBefore workAfter
    (.of_invariant (P := fun _ => True) True.intro (fun _ _ _ _ => True.intro)
    (fun _ _ _ hs => hs.clear) hsmooth)
  exact ⟨hrun.1, hrun.2, by decide +kernel, by decide +kernel⟩

/-- A completion beyond the largest time raises after its task has left the queue. -/
theorem tasks_not_always_served :
    ¬ ∀ before after : List ResourceInput,
      Along resourceStep Undisturbed { world := {} } (before ++ after) →
        let h := run resourceStep { world := {} } before
        TasksServed h ∧ TasksFinal h.world (run resourceStep h after).world := by
  intro hall
  let inputs : List ResourceInput :=
    [.call (.addWorker "w" 1), .call (.enqueueTask "w" "a" (.int (2 ^ 1023))),
      .call (.enqueueTask "w" "b" (.int (2 ^ 1023))), .pass none, .pass none, .pass none]
  have hrun : Along resourceStep Undisturbed { world := {} } (inputs ++ []) :=
    ⟨True.intro, True.intro, True.intro, True.intro, True.intro, True.intro, True.intro⟩
  have hserved := (hall inputs [] hrun).1
  have hqueue : queueOf (run resourceStep { world := {} } inputs).world "w" = [] := by
    decide +kernel
  have htask : ((run resourceStep { world := {} } inputs).world.tasks.get? "b").map
      (fun task => (task.workerId, task.status)) = some ("w", .queued) := by
    decide +kernel
  obtain ⟨task, ht, hb⟩ := Option.map_eq_some_iff.mp htask
  have hcount := hserved.queued "b" task ht "w"
  simp only [Prod.mk.injEq] at hb
  rw [hqueue, List.count_nil, if_pos hb] at hcount
  cases hcount

end Cadi
