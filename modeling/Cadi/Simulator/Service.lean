import Cadi.Simulator.Resources
import Cadi.Simulator.Pending

namespace Cadi
open Library
set_option autoImplicit true

/-- The first of two tasks has started, and not after the second, whenever both are on one worker
and the second has started. -/
def StartsFirst (p q : String × ResourceTask) : Prop :=
  p.2.workerId = q.2.workerId → ∀ s, q.2.startedAt = some s → ∃ r, p.2.startedAt = some r ∧ r ≤ s

/-- What holds of the workers and their tasks at any time. -/
structure TasksServed (h : Host ResourceModel) : Prop where
  capacity : ∀ w worker, h.world.workers.get? w = some worker →
    ((activeOf h.world w).length : Int) ≤ worker.capacity
  down : ∀ w worker, h.world.workers.get? w = some worker → worker.status = .down →
    activeOf h.world w = []
  queued : ∀ t task, h.world.tasks.get? t = some task → ∀ w,
    (queueOf h.world w).count t = if task.workerId = w ∧ task.status = .queued then 1 else 0
  running : ∀ t task, h.world.tasks.get? t = some task → ∀ w,
    (activeOf h.world w).count t = if task.workerId = w ∧ task.status = .running then 1 else 0
  order : ∀ w, (queueOf h.world w).Sublist h.world.tasks.keys
  starts : h.world.tasks.entries.Pairwise StartsFirst
  unstarted : ∀ t task, h.world.tasks.get? t = some task →
    (task.startedAt = none ↔ task.status = .queued)
  unstranded : h.history.sim.pendingEvents = [] → ∀ w worker, h.world.workers.get? w = some worker →
    worker.status = .up → queueOf h.world w = [] ∨ worker.capacity ≤ (activeOf h.world w).length

/-- What any later state owes to an earlier one: the tasks in the order of their enqueuing, and the
results of those that have ended. -/
structure TasksFinal (m m' : ResourceModel) : Prop where
  order : m.tasks.keys <+: m'.tasks.keys
  ended : ∀ t task, m.tasks.get? t = some task → task.status = .completed ∨ task.status = .failed →
    m'.tasks.get? t = some task

/-- The kinds of events that move tasks. -/
def EventKind.ofTasks (kind : EventKind) : Prop :=
  kind = .workerTaskEnqueued ∨ kind = .workerTaskCompleted

/-- The event is about the task and its worker. -/
structure SimEvent.About (e : SimEvent) (label t w : String) : Prop where
  eventId : e.eventId = label ++ t
  task : payloadItem e "task_id" = .ok (.str t)
  worker : payloadItem e "worker_id" = .ok (.str w)

/-- The task waits for the worker. -/
def waits (w : String) (p : String × ResourceTask) : Bool :=
  p.2.workerId = w && p.2.status = .queued

/-- Completions of replicas and transfers bear their own names. -/
structure Labelled (m : ResourceModel) : Prop where
  replicas : ∀ k r, m.replicas.get? k = some r → ∀ id ∈ r.completionEventId,
    ∃ s, id = "materialize-complete:" ++ s
  transfers : ∀ k t, m.transfers.get? k = some t → ∀ id ∈ t.completionEventId,
    ∃ s, id = "transfer-complete:" ++ s

/-- The invariant about workers and tasks, but for what the queues wait for. -/
structure Booked (h : Host ResourceModel) : Prop where
  accounted : Accounted h.history
  labelled : Labelled h.world
  lists : ∀ w ∈ h.world.workers, w ∈ h.world.workerQueues ∧ w ∈ h.world.workerActive
  capacity : ∀ w worker, h.world.workers.get? w = some worker →
    ((activeOf h.world w).length : Int) ≤ worker.capacity
  down : ∀ w worker, h.world.workers.get? w = some worker → worker.status = .down →
    activeOf h.world w = []
  placed : ∀ t task, h.world.tasks.get? t = some task → task.workerId ∈ h.world.workers
  queue : ∀ w, queueOf h.world w = h.world.tasks.select (waits w)
  active : ∀ w t, t ∈ activeOf h.world w ↔
    ∃ task, h.world.tasks.get? t = some task ∧ task.workerId = w ∧ task.status = .running
  nodup : ∀ w, (activeOf h.world w).Nodup
  unstarted : ∀ t task, h.world.tasks.get? t = some task →
    (task.startedAt = none ↔ task.status = .queued)
  past : ∀ t task, h.world.tasks.get? t = some task → ∀ s ∈ task.startedAt, s ≤ h.history.sim.now
  starts : h.world.tasks.entries.Pairwise StartsFirst
  completion : ∀ t task, h.world.tasks.get? t = some task → task.status = .running →
    task.completionEventId = some ("task-complete:" ++ t) ∧
      ∃ e ∈ h.history.sim.pendingEvents, e.kind = .workerTaskCompleted ∧
        e.eventId = "task-complete:" ++ t
  completes : ∀ e ∈ h.history.sim.pendingEvents, e.kind = .workerTaskCompleted →
    ∃ t task, h.world.tasks.get? t = some task ∧ e.About "task-complete:" t task.workerId
  enqueues : ∀ e ∈ h.history.sim.pendingEvents, e.kind = .workerTaskEnqueued →
    ∃ t task, h.world.tasks.get? t = some task ∧ e.About "task-enqueued:" t task.workerId

/-- A worker that could start a queued task will hear of it. -/
def Called (h : Host ResourceModel) (w : String) : Prop :=
  ∀ worker, h.world.workers.get? w = some worker → worker.status = .up →
    ((activeOf h.world w).length : Int) < worker.capacity → queueOf h.world w ≠ [] →
    ∃ e ∈ h.history.sim.pendingEvents, e.kind = .workerTaskEnqueued ∧
      payloadItem e "worker_id" = .ok (.str w)

/-- The invariant of the runs. -/
structure Serviced (h : Host ResourceModel) : Prop where
  booked : Booked h
  called : ∀ w, Called h w

theorem count_eq_ite {l : List String} (hn : l.Nodup) (hp : t ∈ l ↔ p) [Decidable p] :
    l.count t = if p then 1 else 0 := by
  by_cases h : p
  · rw [if_pos h]
    exact List.count_eq_one_of_mem hn (hp.mpr h)
  · rw [if_neg h]
    exact List.count_eq_zero_of_not_mem fun hm => h (hp.mp hm)

theorem Booked.mem_queue (hb : Booked h) : t ∈ queueOf h.world w ↔
    ∃ task, h.world.tasks.get? t = some task ∧ task.workerId = w ∧ task.status = .queued := by
  rw [hb.queue, Dict.mem_select]
  simp only [waits, Bool.and_eq_true, decide_eq_true_eq]

theorem Serviced.served (hs : Serviced h) : TasksServed h where
  capacity := hs.booked.capacity
  down := hs.booked.down
  queued t task ht w := by
    apply count_eq_ite
    · rw [hs.booked.queue]
      exact Dict.nodup_select _ _
    · rw [hs.booked.mem_queue]
      simp only [ht, Option.some.injEq, exists_eq_left']
  running t task ht w := by
    apply count_eq_ite (hs.booked.nodup w)
    rw [hs.booked.active]
    simp only [ht, Option.some.injEq, exists_eq_left']
  order w := by
    rw [hs.booked.queue]
    exact Dict.select_sublist _ _
  starts := hs.booked.starts
  unstarted := hs.booked.unstarted
  unstranded hnone w worker hw hup := by
    by_contra hn
    rw [not_or, Int.not_le] at hn
    obtain ⟨e, he, _⟩ := hs.called w worker hw hup hn.2 hn.1
    rw [hnone] at he
    cases he

theorem TasksFinal.refl (m : ResourceModel) : TasksFinal m m :=
  ⟨List.prefix_refl _, fun _ _ ht _ => ht⟩

theorem TasksFinal.trans (h₁ : TasksFinal m m') (h₂ : TasksFinal m' m'') : TasksFinal m m'' where
  order := h₁.order.trans h₂.order
  ended t task ht hs := h₂.ended t task (h₁.ended t task ht hs) hs

end Cadi
