import Cadi.Simulator.Service
import Cadi.Simulator.Handlers

namespace Cadi
open Library
set_option autoImplicit true

/-- An identifier of the model's task events. -/
def TaskId (id : String) : Prop := ∃ s, id = "task-complete:" ++ s ∨ id = "task-enqueued:" ++ s

/-- What leaves workers and tasks alone. -/
structure Apart (h h' : Host ResourceModel) : Prop where
  workers : h'.world.workers = h.world.workers
  tasks : h'.world.tasks = h.world.tasks
  workerQueues : h'.world.workerQueues = h.world.workerQueues
  workerActive : h'.world.workerActive = h.world.workerActive
  now : h.history.sim.now ≤ h'.history.sim.now
  old : ∀ e ∈ h'.history.sim.pendingEvents, e ∈ h.history.sim.pendingEvents ∨ ¬ e.kind.ofTasks
  spared : ∀ e ∈ h.history.sim.pendingEvents, e.kind.ofTasks → e ∈ h'.history.sim.pendingEvents

/-- What the model's handlers rely on to leave workers and tasks alone. -/
structure Sorted (h : Host ResourceModel) : Prop where
  accounted : Accounted h.history
  labelled : Labelled h.world
  named : ∀ e ∈ h.history.sim.pendingEvents, e.kind.ofTasks → TaskId e.eventId

section Frame
variable {h h' h'' : Host ResourceModel}

theorem Apart.refl (h : Host ResourceModel) : Apart h h :=
  ⟨rfl, rfl, rfl, rfl, le_rfl, fun _ => .inl, fun _ he _ => he⟩

theorem Apart.trans (h₁ : Apart h h') (h₂ : Apart h' h'') : Apart h h'' where
  workers := h₂.workers.trans h₁.workers
  tasks := h₂.tasks.trans h₁.tasks
  workerQueues := h₂.workerQueues.trans h₁.workerQueues
  workerActive := h₂.workerActive.trans h₁.workerActive
  now := h₁.now.trans h₂.now
  old e he := (h₂.old e he).elim (h₁.old e) .inr
  spared e he hk := h₂.spared e (h₁.spared e he hk) hk

theorem queueOf_eq {m m' : ResourceModel} (hq : m'.workerQueues = m.workerQueues) :
    queueOf m' w = queueOf m w := by
  unfold queueOf
  rw [hq]

theorem activeOf_eq {m m' : ResourceModel} (hq : m'.workerActive = m.workerActive) :
    activeOf m' w = activeOf m w := by
  unfold activeOf
  rw [hq]

theorem Booked.sorted (hb : Booked h) : Sorted h where
  accounted := hb.accounted
  labelled := hb.labelled
  named e he hk := by
    rcases hk with hk | hk
    · obtain ⟨t, _, _, ha⟩ := hb.enqueues e he hk
      exact ⟨t, .inr ha.eventId⟩
    · obtain ⟨t, _, _, ha⟩ := hb.completes e he hk
      exact ⟨t, .inl ha.eventId⟩

/-- The books are kept where workers and tasks are left alone, no task event is new and the
completions of the running tasks are still to come. -/
theorem Booked.frame (hb : Booked h) (hs : Sorted h') (hw : h'.world.workers = h.world.workers)
    (ht : h'.world.tasks = h.world.tasks) (hq : h'.world.workerQueues = h.world.workerQueues)
    (ha : h'.world.workerActive = h.world.workerActive)
    (hnow : h.history.sim.now ≤ h'.history.sim.now)
    (hold : ∀ e ∈ h'.history.sim.pendingEvents, e ∈ h.history.sim.pendingEvents ∨ ¬ e.kind.ofTasks)
    (hcompletion : ∀ t task, h.world.tasks.get? t = some task → task.status = .running →
      ∀ e ∈ h.history.sim.pendingEvents, e.kind = .workerTaskCompleted →
        e.eventId = "task-complete:" ++ t → e ∈ h'.history.sim.pendingEvents) : Booked h' where
  accounted := hs.accounted
  labelled := hs.labelled
  lists w hm := by
    rw [hq, ha]
    exact hb.lists w (hw ▸ hm)
  capacity w worker hm := by
    rw [activeOf_eq ha]
    exact hb.capacity w worker (hw ▸ hm)
  down w worker hm hs := by
    rw [activeOf_eq ha]
    exact hb.down w worker (hw ▸ hm) hs
  placed t task hm := by
    rw [hw]
    exact hb.placed t task (ht ▸ hm)
  queue w := by
    rw [queueOf_eq hq, ht]
    exact hb.queue w
  active w t := by
    rw [activeOf_eq ha, ht]
    exact hb.active w t
  nodup w := by
    rw [activeOf_eq ha]
    exact hb.nodup w
  unstarted t task hm := hb.unstarted t task (ht ▸ hm)
  past t task hm s hs := (hb.past t task (ht ▸ hm) s hs).trans hnow
  starts := ht ▸ hb.starts
  completion t task hm hs := by
    obtain ⟨hid, e, he, hkind, hname⟩ := hb.completion t task (ht ▸ hm) hs
    exact ⟨hid, e, hcompletion t task (ht ▸ hm) hs e he hkind hname, hkind, hname⟩
  completes e he hk := by
    rw [ht]
    exact hb.completes e ((hold e he).resolve_right fun hn => hn (.inr hk)) hk
  enqueues e he hk := by
    rw [ht]
    exact hb.enqueues e ((hold e he).resolve_right fun hn => hn (.inl hk)) hk

theorem Booked.apart (hb : Booked h) (ha : Apart h h') (hs : Sorted h') : Booked h' :=
  hb.frame hs ha.workers ha.tasks ha.workerQueues ha.workerActive ha.now ha.old
    fun _ _ _ _ e he hk _ => ha.spared e he (.inr hk)

theorem Called.apart (hc : Called h w) (ha : Apart h h') : Called h' w := by
  intro worker hw hup hfree hne
  rw [activeOf_eq ha.workerActive] at hfree
  rw [queueOf_eq ha.workerQueues] at hne
  obtain ⟨e, he, hk, hp⟩ := hc worker (ha.workers ▸ hw) hup hfree hne
  exact ⟨e, ha.spared e he (.inl hk), hk, hp⟩

theorem Serviced.apart (hs : Serviced h) (ha : Apart h h') (hs' : Sorted h') : Serviced h' :=
  ⟨hs.booked.apart ha hs', fun w => (hs.called w).apart ha⟩

theorem Apart.of_pends (hs : Sorted h)
    (hp : Pends (fun k => ¬ k.ofTasks) TaskId h.history h'.history)
    (hw : h'.world = h.world) : Sorted h' ∧ Apart h h' := by
  constructor
  · refine ⟨hp.accounted, hw ▸ hs.labelled, fun e he hk => ?_⟩
    exact hs.named e ((hp.old e he).resolve_right fun hn => hn hk) hk
  · refine ⟨hw ▸ rfl, hw ▸ rfl, hw ▸ rfl, hw ▸ rfl, hp.now ▸ le_rfl, hp.old, fun e he hk => ?_⟩
    exact hp.spared e he (hs.named e he hk)

end Frame

section Names

instance (kind : EventKind) : Decidable kind.ofTasks := inferInstanceAs (Decidable (_ ∨ _))

/-- Texts that differ in a character of their heads. -/
theorem append_ne {p q : String} (i : Nat) (hp : i < p.toList.length) (hq : i < q.toList.length)
    (hne : p.toList[i]? ≠ q.toList[i]?) (s s' : String) : p ++ s ≠ q ++ s' := by
  intro h
  have hlist := congrArg (fun s => s.toList[i]?) h
  simp only [String.toList_append, List.getElem?_append_left hp, List.getElem?_append_left hq]
    at hlist
  exact hne hlist

theorem not_taskId {p : String} (hp : 2 < p.toList.length) (hne : p.toList[2]? ≠ some 's')
    (s : String) : ¬ TaskId (p ++ s) := by
  have hcomplete : "task-complete:".toList[2]? = some 's' := by decide
  have henqueued : "task-enqueued:".toList[2]? = some 's' := by decide
  rintro ⟨s', h | h⟩
  · exact append_ne 2 hp (by decide) (hcomplete ▸ hne) s s' h
  · exact append_ne 2 hp (by decide) (henqueued ▸ hne) s s' h

end Names

section Handlers

/-- What is done to replicas and transfers. -/
abbrev Aside (x : ResourceM α) : Prop := Within Sorted Apart x

theorem Aside.bind {x : ResourceM α} {f : α → ResourceM β} (hx : Aside x) (hf : ∀ a, Aside (f a)) :
    Aside (x >>= f) :=
  Within.bind (fun _ _ _ => .trans) hx hf

theorem Aside.pure (a : α) : Aside (Pure.pure a) := Within.pure .refl

theorem Aside.lift_bind {x : Except PyError α} {f : α → ResourceM β}
    (hf : ∀ a, x = .ok a → Aside (f a)) : Aside (liftM x >>= f) :=
  Within.lift_bind .refl hf

theorem Aside.discard {x : ResourceM α} (hx : Aside x) : Aside (discard x) :=
  Within.discard .refl (fun _ _ _ => .trans) hx

theorem Aside.modify {f : ResourceModel → ResourceModel}
    (hl : ∀ m, Labelled m → Labelled (f m)) (hw : ∀ m, (f m).workers = m.workers)
    (ht : ∀ m, (f m).tasks = m.tasks) (hq : ∀ m, (f m).workerQueues = m.workerQueues)
    (ha : ∀ m, (f m).workerActive = m.workerActive) : Aside (modifyWorld f) := fun _ hs =>
  ⟨⟨hs.accounted, hl _ hs.labelled, hs.named⟩, hw _, ht _, hq _, ha _, le_rfl, fun _ => .inl,
    fun _ he _ => he⟩

theorem Aside.schedule (hk : ¬ r.kind.ofTasks) : Aside (scheduleEvent r) := by
  intro h hs
  cases hr : h.history.sim.schedule r with
  | error e =>
    unfold Ends
    rw [scheduleEvent_error hr]
    exact ⟨hs, .refl h⟩
  | ok res =>
    unfold Ends
    rw [scheduleEvent_ok hr]
    exact Apart.of_pends hs (.perform hs.accounted hk) rfl

theorem Aside.notify (hk : ¬ kind.ofTasks) (payload : List (String × PayloadValue)) :
    Aside (notify kind payload) := .schedule hk

theorem Aside.cancelCompletion (hid : ∀ id ∈ eventId, ¬ TaskId id) :
    Aside (cancelCompletion eventId) := by
  unfold Cadi.cancelCompletion
  split
  · exact .pure _
  · next id hsome =>
    apply Aside.discard
    intro h hs
    unfold Ends
    rw [cancelEvent_ok]
    exact Apart.of_pends hs (.perform hs.accounted (hid id (truthy_eq_some.mp hsome).1)) rfl

theorem Labelled.set_replica (hl : Labelled m)
    (hr : ∀ id ∈ r.completionEventId, ∃ s, id = "materialize-complete:" ++ s) :
    Labelled { m with replicas := m.replicas.set k r } :=
  ⟨Dict.forall_set hl.replicas hr, hl.transfers⟩

theorem Labelled.set_transfer (hl : Labelled m)
    (ht : ∀ id ∈ t.completionEventId, ∃ s, id = "transfer-complete:" ++ s) :
    Labelled { m with transfers := m.transfers.set k t } :=
  ⟨hl.replicas, Dict.forall_set hl.transfers ht⟩

theorem Labelled.replica_not_task (hl : Labelled m) (hr : m.replicas.get? k = some r) :
    ∀ id ∈ r.completionEventId, ¬ TaskId id := by
  intro id hid
  obtain ⟨s, rfl⟩ := hl.replicas k r hr id hid
  exact not_taskId (by decide) (by decide) s

theorem Labelled.transfer_not_task (hl : Labelled m) (ht : m.transfers.get? k = some t) :
    ∀ id ∈ t.completionEventId, ¬ TaskId id := by
  intro id hid
  obtain ⟨s, rfl⟩ := hl.transfers k t ht id hid
  exact not_taskId (by decide) (by decide) s

theorem Aside.set_replica (hr : ∀ id ∈ r.completionEventId, ∃ s, id = "materialize-complete:" ++ s) :
    Aside (modifyWorld fun m => { m with replicas := m.replicas.set k r }) :=
  .modify (fun _ hl => hl.set_replica hr) (fun _ => rfl) (fun _ => rfl) (fun _ => rfl) fun _ => rfl

theorem Aside.set_transfer (ht : ∀ id ∈ t.completionEventId, ∃ s, id = "transfer-complete:" ++ s) :
    Aside (modifyWorld fun m => { m with transfers := m.transfers.set k t }) :=
  .modify (fun _ hl => hl.set_transfer ht) (fun _ => rfl) (fun _ => rfl) (fun _ => rfl) fun _ => rfl

theorem unnamed {P : String → Prop} : ∀ id ∈ (none : Option String), P id := fun _ h =>
  (Option.not_mem_none _ h).elim

theorem loseReplicas_aside (w : String) :
    Aside (do
      let h ← get
      h.world.replicas.entries.forM (loseReplicaAt w)) := by
  apply Within.get_bind
  intro h hs
  apply Within.forM .refl (fun _ _ _ => .trans)
  intro p hp
  unfold loseReplicaAt
  split
  · exact Aside.pure _
  · have hid := hs.labelled.replica_not_task (Dict.get?_eq_some_iff.mpr hp)
    apply (Aside.cancelCompletion hid).bind
    intro _
    apply (Aside.set_replica unnamed).bind
    intro _
    exact (Aside.notify (by decide) _).discard

theorem failTransfers_aside (affected : StateTransfer → Bool) :
    Aside (do
      let h ← get
      h.world.transfers.entries.forM (failTransfer affected)) := by
  apply Within.get_bind
  intro h hs
  apply Within.forM .refl (fun _ _ _ => .trans)
  intro p hp
  apply Within.get_bind
  intro h' _
  split
  · have hid := hs.labelled.transfer_not_task (Dict.get?_eq_some_iff.mpr hp)
    apply (Aside.cancelCompletion hid).bind
    intro _
    apply (Aside.set_transfer unnamed).bind
    intro _
    exact (Aside.notify (by decide) _).discard
  · exact Aside.pure _

theorem loseMaterializing_aside
    (hr : ∀ id ∈ r.completionEventId, ∃ s, id = "materialize-complete:" ++ s) :
    Aside (loseMaterializing k r) :=
  (Aside.set_replica hr).bind fun _ => (Aside.notify (by decide) _).discard

theorem abandonTransfer_aside
    (ht : ∀ id ∈ t.completionEventId, ∃ s, id = "transfer-complete:" ++ s) :
    Aside (abandonTransfer k t) :=
  (Aside.set_transfer ht).bind fun _ => (Aside.notify (by decide) _).discard

theorem Aside.schedule_bind {f : SimEvent → ResourceM α} (hid : r.eventId = some name)
    (hk : ¬ r.kind.ofTasks) (hf : ∀ event, event.eventId = name → Aside (f event)) :
    Aside (scheduleEvent r >>= f) := by
  intro h hs
  apply Ends.scheduleEvent_bind ⟨hs, .refl h⟩
  intro event sim hok
  obtain ⟨_, _, hname, _⟩ := schedule_eq_ok_iff.mp hok
  rw [hid, Option.getD_some] at hname
  have hact : Pends (fun k => ¬ k.ofTasks) TaskId h.history (h.act (.schedule r)).history :=
    .perform hs.accounted hk
  obtain ⟨hs', ha⟩ := Apart.of_pends hs hact (act_world h _)
  exact (hf event hname _ hs').mono fun _ ht => ⟨ht.1, ha.trans ht.2⟩

theorem onMaterializationStarted_aside (event : SimEvent) :
    Aside (onMaterializationStarted event) := by
  apply Within.get_bind
  intro h hs
  apply Aside.lift_bind
  intro found hfound
  apply Aside.lift_bind
  intro duration _
  split
  · exact Aside.pure _
  · next k r =>
    have hk := replicaOf_eq_ok hfound
    split
    · exact Aside.pure _
    · apply Aside.lift_bind
      intro worker _
      split
      · exact loseMaterializing_aside (hs.labelled.replicas k r hk)
      · apply Aside.lift_bind
        intro delay _
        apply Aside.schedule_bind rfl (show ¬ EventKind.stateMaterialized.ofTasks by decide)
        intro completion hid
        apply Aside.set_replica
        intro id hname
        rw [← Option.mem_some_iff.mp hname, hid]
        exact ⟨_, rfl⟩

theorem onStateMaterialized_aside (event : SimEvent) : Aside (onStateMaterialized event) := by
  apply Within.get_bind
  intro h _
  apply Aside.lift_bind
  intro found _
  split
  · exact Aside.pure _
  · split
    · exact Aside.pure _
    · apply Aside.lift_bind
      intro worker _
      split
      · exact loseMaterializing_aside unnamed
      · exact .set_replica unnamed

theorem onTransferStarted_aside (event : SimEvent) : Aside (onTransferStarted event) := by
  apply Within.get_bind
  intro h hs
  apply Aside.lift_bind
  intro found hfound
  split
  · exact Aside.pure _
  · next k t =>
    have hk := transferOf_eq_ok hfound
    split
    · exact Aside.pure _
    · apply Aside.lift_bind
      intro replica _
      apply Aside.lift_bind
      intro blocked _
      cases blocked with
      | true => exact abandonTransfer_aside (hs.labelled.transfers k t hk)
      | false =>
        apply Aside.lift_bind
        intro link _
        apply Aside.lift_bind
        intro duration _
        apply Aside.schedule_bind rfl (show ¬ EventKind.stateTransferCompleted.ofTasks by decide)
        intro completion hid
        apply Aside.set_transfer
        intro id hname
        rw [← Option.mem_some_iff.mp hname, hid]
        exact ⟨_, rfl⟩

theorem onTransferCompleted_aside (event : SimEvent) : Aside (onTransferCompleted event) := by
  apply Within.get_bind
  intro h hs
  apply Aside.lift_bind
  intro found hfound
  split
  · exact Aside.pure _
  · next k t =>
    split
    · exact Aside.pure _
    · apply Aside.lift_bind
      intro replica hr
      apply Aside.lift_bind
      intro blocked _
      cases blocked with
      | true => exact abandonTransfer_aside unnamed
      | false =>
        have hr := hs.labelled.replicas _ replica (item_eq_ok.mp hr)
        refine Aside.bind ?_ fun _ => (Aside.notify (by decide) _).discard
        apply Aside.modify
        · exact fun m hl => ⟨Dict.forall_set hl.replicas hr, Dict.forall_set hl.transfers unnamed⟩
        all_goals exact fun _ => rfl

theorem onReplicaGone_aside (status : ReplicaRuntimeStatus) (event : SimEvent) :
    Aside (onReplicaGone status event) := by
  apply Within.get_bind
  intro h hs
  apply Aside.lift_bind
  intro found hfound
  split
  · exact Aside.pure _
  · next k r =>
    have hk := replicaOf_eq_ok hfound
    split
    · exact Aside.pure _
    · apply (failTransfers_aside _).bind
      intro _
      apply (Aside.cancelCompletion (hs.labelled.replica_not_task hk)).bind
      intro _
      exact .set_replica unnamed

end Handlers

end Cadi
