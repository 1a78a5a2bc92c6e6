import Cadi.Simulator.Replication

namespace Cadi
open Library
set_option autoImplicit true

section Numbers

theorem ne_numbered {p : String} (hp : p.toList.head?.getD 'e' ≠ 'e') (s : String) (n : Nat) :
    p ++ s ≠ numbered n := by
  intro h
  have hlist := congrArg (fun s => s.toList.head?.getD 'e') h
  have he : "event-".toList.head? = some 'e' := by decide
  simp only [numbered, String.toList_append, List.head?_append, he, Option.some_or,
    Option.getD_some] at hlist
  cases hc : p.toList.head? with
  | none => exact hp (by rw [hc, Option.getD_none])
  | some c =>
    rw [hc, Option.some_or, Option.getD_some] at hlist
    exact hp (by rw [hc, Option.getD_some, hlist])

theorem Action.Unnumbered.of_head (hr : r.eventId = some (p ++ s)) (hp : p.toList.head?.getD 'e' ≠ 'e') :
    (Action.schedule r).Unnumbered := fun n hn =>
  ne_numbered hp s n (Option.some.inj (hr.symm.trans hn))

/-- The next numbers are free. -/
def FreeNumbers (k : Nat) (sim : Simulator) : Prop :=
  ∀ n, sim.nextSequence ≤ n → n < sim.nextSequence + k → numbered n ∉ sim.knownIds

theorem NumbersFree.next (hf : NumbersFree sim) (k : Nat) : FreeNumbers k sim := fun _ hn _ hk =>
  Nat.not_lt.mpr hn (hf _ hk)

theorem FreeNumbers.nextId (hf : FreeNumbers (k + 1) sim) : sim.nextId ∉ sim.knownIds :=
  hf sim.nextSequence le_rfl (Nat.lt_add_of_pos_right (Nat.succ_pos k))

end Numbers

section Tasks

/-- Every worker has its list of active tasks, and these exist. -/
structure TasksKnown (m : ResourceModel) : Prop where
  listed : ∀ w ∈ m.workers, w ∈ m.workerActive
  known : ∀ w, ∀ t ∈ activeOf m w, t ∈ m.tasks

/-- What one call or one delivery does. -/
structure Moves (h h' : Host ResourceModel) : Prop where
  acts : Acts Action.Unnumbered h.history h'.history
  change : Change h.world h'.world
  known : TasksKnown h.world → TasksKnown h'.world

/-- What does not touch workers, replicas and transfers. -/
structure TasksOnly (h h' : Host ResourceModel) : Prop where
  acts : Acts Action.Unnumbered h.history h'.history
  workers : h'.world.workers = h.world.workers
  replicas : h'.world.replicas = h.world.replicas
  transfers : h'.world.transfers = h.world.transfers
  known : TasksKnown h.world → TasksKnown h'.world

theorem TasksOnly.refl (h : Host ResourceModel) : TasksOnly h h := ⟨.refl, rfl, rfl, rfl, id⟩

theorem TasksOnly.trans (h₁ : TasksOnly h h') (h₂ : TasksOnly h' h'') : TasksOnly h h'' where
  acts := h₁.acts.trans h₂.acts
  workers := h₂.workers.trans h₁.workers
  replicas := h₂.replicas.trans h₁.replicas
  transfers := h₂.transfers.trans h₁.transfers
  known := h₂.known ∘ h₁.known

theorem TasksOnly.moves (ht : TasksOnly h h') : Moves h h' :=
  ⟨ht.acts, .unchanged ht.workers ht.replicas ht.transfers, ht.known⟩

theorem Change.of_eq (hc : Change m m') (hw : m''.workers = m'.workers)
    (hr : m''.replicas = m'.replicas) (ht : m''.transfers = m'.transfers) : Change m m'' := by
  obtain ⟨workers, _, _, _, _, replicas, transfers⟩ := m''
  dsimp only at hw hr ht
  subst hw hr ht
  cases hc with
  | unchanged hw hr ht => exact .unchanged hw hr ht
  | up hup hw hr ht => exact .up hup hw hr ht
  | down hw hr ht => exact .down hw hr ht
  | created hnew hs hw hr ht => exact .created hnew hs hw hr ht
  | materialized hk hs hl hup hw hr ht => exact .materialized hk hs hl hup hw hr ht
  | scheduled hnew hs hfirst hw hr ht => exact .scheduled hnew hs hfirst hw hr ht
  | advanced hk hs hid hrun hw hr ht => exact .advanced hk hs hid hrun hw hr ht
  | moved hk hs hs' hreplica hl hup hw hr ht => exact .moved hk hs hs' hreplica hl hup hw hr ht
  | gone hk hs hl hgone hw hr ht => exact .gone hk hs hl hgone hw hr ht

theorem Moves.then (hm : Moves h h') (ht : TasksOnly h' h'') : Moves h h'' where
  acts := hm.acts.trans ht.acts
  change := hm.change.of_eq ht.workers ht.replicas ht.transfers
  known := ht.known ∘ hm.known

theorem mem_activeOf_set {m : ResourceModel} :
    t ∈ activeOf { m with workerActive := m.workerActive.set w l } w' ↔
      if w = w' then t ∈ l else t ∈ activeOf m w' := by
  simp only [activeOf, Dict.get?_set]
  split <;> rfl

theorem TasksKnown.of_lists (hk : TasksKnown m) (hw : m'.workers = m.workers)
    (ht : ∀ t ∈ m.tasks, t ∈ m'.tasks) (ha : m'.workerActive = m.workerActive.set w l)
    (hl : ∀ t ∈ l, t ∈ m'.tasks) : TasksKnown m' where
  listed w' hw' := by
    rw [ha, Dict.mem_set]
    exact .inr (hk.listed w' (hw ▸ hw'))
  known w' t hm := by
    have h : t ∈ activeOf { m with workerActive := m.workerActive.set w l } w' := by
      unfold activeOf at hm ⊢
      rwa [ha] at hm
    rw [mem_activeOf_set] at h
    split at h
    · exact hl t h
    · exact ht t (hk.known w' t h)

/-- The loop of `_dispatch` may be cut short where a completion cannot be scheduled. -/
theorem dispatchLoop_tasksOnly (w : String) (worker : Worker) (queue : List String)
    (h : Host ResourceModel) : Ends (dispatchLoop w worker queue) h (TasksOnly h) := by
  induction queue generalizing h with
  | nil => exact .refl h
  | cons t queue ih =>
    apply Ends.get_bind
    dsimp only
    split
    · apply Ends.modify_bind
      apply Ends.lift_bind
      · exact ⟨.refl, rfl, rfl, rfl, fun hk => ⟨hk.listed, hk.known⟩⟩
      intro task htask
      apply Ends.scheduleEvent_bind
      · exact ⟨.refl, rfl, rfl, rfl, fun hk => ⟨hk.listed, hk.known⟩⟩
      intro event sim hok
      apply Ends.modify_bind
      refine (ih _).mono fun h' h₂ => .trans ?_ h₂
      refine ⟨.act _ (.of_head rfl (by decide)), rfl, rfl, rfl, fun hk => hk.of_lists rfl ?_ rfl ?_⟩
      · exact fun t' ht' => Dict.mem_set.mpr (.inr ht')
      · intro t' ht'
        rcases List.mem_append.mp ht' with ht' | ht'
        · exact Dict.mem_set.mpr (.inr (hk.known w t' ht'))
        · exact Dict.mem_set.mpr (.inl (List.mem_singleton.mp ht').symm)
    · exact .refl h

theorem dispatch_tasksOnly (w : String) (h : Host ResourceModel) :
    Ends (dispatch w) h (TasksOnly h) := by
  apply Ends.get_bind
  apply Ends.lift_bind (.refl h)
  intro worker _
  apply Ends.lift_bind (.refl h)
  intro queue _
  apply Ends.lift_bind (.refl h)
  intro active _
  exact dispatchLoop_tasksOnly w worker queue h

theorem onTaskEnqueued_moves (event : SimEvent) (h : Host ResourceModel) :
    Ends (onTaskEnqueued event) h (Moves h) := by
  apply Ends.lift_bind (TasksOnly.refl h).moves
  intro value _
  apply Ends.lift_bind (TasksOnly.refl h).moves
  intro w _
  exact (dispatch_tasksOnly w h).mono fun _ ht => ht.moves

theorem onTaskCompleted_moves (event : SimEvent) (h : Host ResourceModel) :
    Ends (onTaskCompleted event) h (Moves h) := by
  have hself := (TasksOnly.refl h).moves
  apply Ends.lift_bind hself
  intro taskId _
  apply Ends.lift_bind hself
  intro workerId _
  apply Ends.get_bind
  split
  · exact hself
  · next task htask =>
    split
    · exact hself
    · apply Ends.lift_bind hself
      intro t _
      apply Ends.lift_bind hself
      intro w _
      apply Ends.lift_bind hself
      intro active hactive
      apply Ends.modify_bind
      refine (dispatch_tasksOnly w _).mono fun h' ht => (TasksOnly.trans ?_ ht).moves
      refine ⟨.refl, rfl, rfl, rfl, fun hk => hk.of_lists rfl ?_ rfl ?_⟩
      · exact fun t' ht' => Dict.mem_set.mpr (.inr ht')
      · intro t' ht'
        refine Dict.mem_set.mpr (.inr (hk.known w t' ?_))
        rw [activeOf, item_eq_ok.mp hactive]
        exact List.mem_of_mem_erase ht'

theorem onWorkerRecovered_moves (event : SimEvent) (h : Host ResourceModel) :
    Ends (onWorkerRecovered event) h (Moves h) := by
  have hself := (TasksOnly.refl h).moves
  apply Ends.lift_bind hself
  intro value _
  apply Ends.lift_bind hself
  intro w _
  apply Ends.get_bind
  apply Ends.lift_bind hself
  intro worker hworker
  split
  · exact hself
  · apply Ends.modify_bind
    refine (dispatch_tasksOnly w _).mono fun h' ht => Moves.then ?_ ht
    have hup : ({ worker with status := .up } : Worker).status = .up := rfl
    refine ⟨.refl, .up hup rfl rfl rfl, fun hk => ?_⟩
    refine ⟨fun w' hw' => hk.listed w' ?_, hk.known⟩
    rcases Dict.mem_set.mp hw' with rfl | hw'
    · exact Dict.mem_of_get? (item_eq_ok.mp hworker)
    · exact hw'

end Tasks

section Failure
variable {h : Host ResourceModel}

theorem cancelCompletion_yields (eventId : Option String) (h : Host σ) :
    Yields Action.Unnumbered (cancelCompletion eventId) h h.world := by
  unfold cancelCompletion
  split
  · exact .pure _ h
  · exact (Yields.cancelEvent h True.intro).discard

/-- A notice of the model while the numbers to come are free. -/
theorem notice_yields (kind : EventKind) (items : List (String × String))
    (hf : NumbersFree h.history.sim) :
    Yields Action.Unnumbered (notify kind (stringItems items)) h h.world :=
  .notify kind items hf.nextId (notice_unnumbered kind items)

theorem write_yields (f : ResourceModel → ResourceModel) (kind : EventKind)
    (items : List (String × String)) (hf : NumbersFree h.history.sim) :
    Yields Action.Unnumbered
      (do
        modifyWorld f
        discard (notify kind (stringItems items))) h (f h.world) := by
  apply (Yields.modifyWorld f h).bind
  intro _ h' hacts hw
  rw [← hw]
  exact (notice_yields kind items (hacts.numbersFree (fun _ ha => ha) hf)).discard

theorem note_yields (eventId : Option String) (f : ResourceModel → ResourceModel) (kind : EventKind)
    (items : List (String × String)) (hf : NumbersFree h.history.sim) :
    Yields Action.Unnumbered
      (do
        cancelCompletion eventId
        modifyWorld f
        discard (notify kind (stringItems items))) h (f h.world) := by
  apply (cancelCompletion_yields eventId h).bind
  intro _ h' hacts hw
  rw [← hw]
  exact write_yields f kind items (hacts.numbersFree (fun _ ha => ha) hf)

def ResourceTask.failedAt (now : Time) (task : ResourceTask) : ResourceTask :=
  { task with status := .failed, completedAt := some now, completionEventId := none }

/-- The tasks after some have failed. -/
def failTasks (now : Time) (tasks : Dict String ResourceTask) (t : String) :
    Dict String ResourceTask :=
  match tasks.get? t with
  | some task => tasks.set t (task.failedAt now)
  | none => tasks

theorem failTask_yields (hf : NumbersFree h.history.sim) (ht : t ∈ h.world.tasks) :
    Yields Action.Unnumbered (failTask w t) h
      { h.world with tasks := failTasks h.history.sim.now h.world.tasks t } := by
  obtain ⟨task, htask⟩ := Dict.mem_iff.mp ht
  rw [failTasks, htask]
  have hbody := note_yields (h := h) task.completionEventId
    (fun m => { m with tasks := m.tasks.set t (task.failedAt h.history.sim.now) }) .workerTaskFailed
    [("task_id", t), ("worker_id", w)] hf
  obtain ⟨_, h', hx, hpost⟩ := hbody
  refine ⟨⟨⟩, h', ?_, hpost⟩
  rw [failTask]
  change EStateM.bind (liftM (item h.world.tasks t)) _ h = _
  rw [EStateM.bind, lift_eq_ok.mpr ⟨item_eq_ok.mpr htask, rfl⟩]
  exact hx

theorem mem_failTasks : t' ∈ failTasks now d t ↔ t' ∈ d := by
  unfold failTasks
  split
  · next task htask =>
    rw [Dict.mem_set]
    exact ⟨fun hm => hm.elim (fun he => he ▸ Dict.mem_of_get? htask) id, .inr⟩
  · rfl

theorem mem_foldl_failTasks {l : List String} :
    t' ∈ l.foldl (failTasks now) d ↔ t' ∈ d := by
  induction l generalizing d with
  | nil => rfl
  | cons t l ih => rw [List.foldl_cons, ih, mem_failTasks]

theorem failTasks_yields {l : List String} (hf : NumbersFree h.history.sim)
    (hl : ∀ t ∈ l, t ∈ h.world.tasks) :
    Yields Action.Unnumbered (l.forM (failTask w)) h
      { h.world with tasks := l.foldl (failTasks h.history.sim.now) h.world.tasks } := by
  have hfold (m : ResourceModel) :
      l.foldl (fun m t => { m with tasks := failTasks h.history.sim.now m.tasks t }) m =
        { m with tasks := l.foldl (failTasks h.history.sim.now) m.tasks } := by
    clear hl
    induction l generalizing m with
    | nil => rfl
    | cons t l ih => rw [List.foldl_cons, ih, List.foldl_cons]
  rw [← hfold]
  apply Yields.forM (P := fun m => ∀ t ∈ l, t ∈ m.tasks) hl
  · exact fun m t hm t' ht' => mem_failTasks.mpr (hm t' ht')
  · intro t ht h' hacts hm
    have hbody := failTask_yields (w := w) (hacts.numbersFree (fun _ ha => ha) hf) (hm t ht)
    rwa [hacts.now] at hbody

theorem loseReplicas_yields (w : String) (hf : NumbersFree h.history.sim) :
    Yields Action.Unnumbered (h.world.replicas.entries.forM (loseReplicaAt w)) h
      { h.world with replicas := h.world.replicas.mapValues (·.lostAt w) } := by
  apply Yields.forM_entries ResourceModel.replicas (fun d m => { m with replicas := d })
    (fun r => r.locationId ≠ w ∨ r.status = .evicted ∨ r.status = .lost) (fun _ _ _ => rfl)
    (fun _ _ => rfl) (fun _ => rfl)
  · intro p h' _ hc
    rw [loseReplicaAt, if_pos hc]
    exact .pure _ h'
  · intro p h' hacts hc
    rw [loseReplicaAt, if_neg hc]
    exact note_yields p.2.completionEventId _ .stateLost [("replica_id", p.1)]
      (hacts.numbersFree (fun _ ha => ha) hf)

theorem failTransfers_yields (affected : StateTransfer → Bool) (hf : NumbersFree h.history.sim) :
    Yields Action.Unnumbered (h.world.transfers.entries.forM (failTransfer affected)) h
      { h.world with
        transfers := h.world.transfers.mapValues (·.failedIf affected h.history.sim.now) } := by
  have hfailed : (fun t : StateTransfer => t.failedIf affected h.history.sim.now) =
      fun t => if ¬ (t.status.active ∧ affected t = true) then t else
        { t with
          status := .failed
          completedAt := some h.history.sim.now
          completionEventId := none } := by
    funext t
    exact (ite_not _ _ _).symm
  rw [hfailed]
  apply Yields.forM_entries ResourceModel.transfers (fun d m => { m with transfers := d })
    (fun t => ¬ (t.status.active ∧ affected t = true)) (fun _ _ _ => rfl) (fun _ _ => rfl)
    (fun _ => rfl)
  · intro p h' _ hc
    apply Yields.get_bind
    rw [if_neg hc]
    exact .pure _ h'
  · intro p h' hacts hc
    rw [not_not] at hc
    apply Yields.get_bind
    rw [if_pos hc, ← hacts.now]
    exact note_yields p.2.completionEventId _ .stateTransferFailed [("transfer_id", p.1)]
      (hacts.numbersFree (fun _ ha => ha) hf)

theorem onWorkerFailed_moves (event : SimEvent) (hf : NumbersFree h.history.sim)
    (hk : TasksKnown h.world) : Ends (onWorkerFailed event) h (Moves h) := by
  have hself := (TasksOnly.refl h).moves
  apply Ends.lift_bind hself
  intro value _
  apply Ends.lift_bind hself
  intro w _
  apply Ends.get_bind
  apply Ends.lift_bind hself
  intro worker hworker
  split
  · exact hself
  · obtain ⟨active, hactive⟩ :=
      Dict.mem_iff.mp (hk.listed w (Dict.mem_of_get? (item_eq_ok.mp hworker)))
    apply Ends.modify_bind
    have hitem : (liftM (item h.world.workerActive w) : ResourceM (List String)) = pure active := by
      rw [item_eq_ok.mpr hactive]
      rfl
    dsimp only
    rw [hitem, pure_bind]
    apply Ends.modify_bind
    have hknown : ∀ t ∈ active, t ∈ h.world.tasks := fun t ht =>
      hk.known w t (by rwa [activeOf, hactive])
    refine Yields.ends_bind (failTasks_yields hf hknown) fun _ h₁ hacts₁ hw₁ => ?_
    have hf₁ := hacts₁.numbersFree (fun _ ha => ha) hf
    apply Ends.get_bind
    apply (loseReplicas_yields w hf₁).ends_bind
    intro _ h₂ hacts₂ hw₂
    have hf₂ := hacts₂.numbersFree (fun _ ha => ha) hf₁
    apply Ends.get_bind
    apply (failTransfers_yields _ hf₂).ends
    intro h₃ hacts₃ hw₃
    refine ⟨(hacts₁.trans hacts₂).trans hacts₃, ?_, fun _ => ?_⟩
    · rw [hw₃, hw₂, hw₁]
      exact .down rfl rfl rfl
    · rw [hw₃, hw₂, hw₁]
      refine ⟨fun w' hw' => ?_, fun w' t ht => ?_⟩
      · rcases Dict.mem_set.mp hw' with rfl | hw'
        · exact Dict.mem_set.mpr (.inl rfl)
        · exact Dict.mem_set.mpr (.inr (hk.listed w' hw'))
      · rw [mem_foldl_failTasks]
        rw [activeOf, Dict.get?_set] at ht
        split at ht
        · cases ht
        · exact hk.known w' t ht

end Failure

section Replicas
variable {h : Host ResourceModel}

theorem Moves.of_shadow (hacts : Acts Action.Unnumbered h.history h'.history)
    (hc : Change h.world h'.world) (hw : h'.world.workers = h.world.workers)
    (ht : h'.world.tasks = h.world.tasks) (ha : h'.world.workerActive = h.world.workerActive) :
    Moves h h' where
  acts := hacts
  change := hc
  known hk := by
    refine ⟨fun w hm => ?_, fun w t hm => ?_⟩
    · rw [ha]
      exact hk.listed w (hw ▸ hm)
    · unfold activeOf at hm
      rw [ht]
      rw [ha] at hm
      exact hk.known w t hm

theorem ResourceModel.Up.of_not_down {m : ResourceModel} (hw : m.workers.get? w = some worker)
    (h : ¬ worker.status = .down) : m.Up w := by
  refine ⟨worker, hw, ?_⟩
  cases hs : worker.status with
  | up => rfl
  | down => exact (h hs).elim

theorem replicaOf_eq_ok (h : replicaOf m event = .ok (some (k, r))) : m.replicas.get? k = some r := by
  obtain ⟨value, _, h⟩ := Except.bind_eq_ok.mp h
  rw [Except.pure_eq_ok] at h
  split at h
  · rw [Option.map_eq_some_iff] at h
    obtain ⟨r', hr, he⟩ := h
    cases he
    exact hr
  · cases h

theorem transferOf_eq_ok (h : transferOf m event = .ok (some (k, t))) :
    m.transfers.get? k = some t := by
  obtain ⟨value, _, h⟩ := Except.bind_eq_ok.mp h
  rw [Except.pure_eq_ok] at h
  split at h
  · rw [Option.map_eq_some_iff] at h
    obtain ⟨t', ht, he⟩ := h
    cases he
    exact ht
  · cases h

theorem loseMaterializing_moves (hf : NumbersFree h.history.sim)
    (hk : h.world.replicas.get? k = some r) (hs : r.status = .materializing)
    (hl : r'.locationId = r.locationId) (hs' : r'.status = .lost) :
    Ends (loseMaterializing k r') h (Moves h) := by
  apply (write_yields _ .stateLost [("replica_id", k)] hf).ends
  intro h' hacts hw
  refine .of_shadow hacts ?_ (hw ▸ rfl) (hw ▸ rfl) (hw ▸ rfl)
  rw [hw]
  exact .materialized hk hs hl (fun ha => by rw [hs'] at ha; cases ha) rfl rfl rfl

theorem onMaterializationStarted_moves (event : SimEvent) (hf : NumbersFree h.history.sim) :
    Ends (onMaterializationStarted event) h (Moves h) := by
  have hself := (TasksOnly.refl h).moves
  apply Ends.get_bind
  apply Ends.lift_bind hself
  intro found hfound
  apply Ends.lift_bind hself
  intro duration _
  split
  · exact hself
  · next k r =>
    have hk := replicaOf_eq_ok hfound
    split
    · exact hself
    · next hs =>
      rw [ne_eq, not_not] at hs
      apply Ends.lift_bind hself
      intro worker hworker
      split
      · exact loseMaterializing_moves hf hk hs rfl rfl
      · apply Ends.lift_bind hself
        intro delay _
        apply Ends.scheduleEvent_bind hself
        intro completion _ _
        refine Moves.of_shadow (.act _ (.of_head rfl (by decide))) ?_ rfl rfl rfl
        let r' := { r with completionEventId := some completion.eventId }
        have hnot : r'.status ≠ .available := fun ha => by rw [hs] at ha; cases ha
        have hl : r'.locationId = r.locationId := rfl
        exact .materialized hk hs hl (fun ha => (hnot ha).elim) rfl rfl rfl

theorem onStateMaterialized_moves (event : SimEvent) (hf : NumbersFree h.history.sim) :
    Ends (onStateMaterialized event) h (Moves h) := by
  have hself := (TasksOnly.refl h).moves
  apply Ends.get_bind
  apply Ends.lift_bind hself
  intro found hfound
  split
  · exact hself
  · next k r =>
    have hk := replicaOf_eq_ok hfound
    split
    · exact hself
    · next hs =>
      rw [ne_eq, not_not] at hs
      apply Ends.lift_bind hself
      intro worker hworker
      split
      · exact loseMaterializing_moves hf hk hs rfl rfl
      · next hup =>
        refine Moves.of_shadow .refl ?_ rfl rfl rfl
        have hup := ResourceModel.Up.of_not_down (item_eq_ok.mp hworker) hup
        let r' : ReplicaRuntime := { r with status := .available, completionEventId := none }
        have hl : r'.locationId = r.locationId := rfl
        exact .materialized hk hs hl (fun _ => hup) rfl rfl rfl

theorem transferBlocked_eq_false {t : StateTransfer} (hr : m.replicas.get? t.replicaId = some r)
    (h : transferBlocked m r t = .ok false) : t.Grounded m := by
  unfold transferBlocked at h
  split at h
  · cases h
  · next hc =>
    simp only [ne_eq, not_or, not_not] at hc
    obtain ⟨source, hsource, h⟩ := Except.bind_eq_ok.mp h
    split at h
    · cases h
    · next hup =>
      obtain ⟨destination, hdest, h⟩ := Except.bind_eq_ok.mp h
      rw [Except.pure_eq_ok, decide_eq_false_iff_not] at h
      exact ⟨.of_not_down (item_eq_ok.mp hsource) hup, .of_not_down (item_eq_ok.mp hdest) h,
        r, hr, hc⟩

theorem abandonTransfer_moves (hf : NumbersFree h.history.sim)
    (hk : h.world.transfers.get? k = some t) (ha : t.status.active)
    (hid : t'.replicaId = t.replicaId) (hs : t'.status = .failed) :
    Ends (abandonTransfer k t') h (Moves h) := by
  apply (write_yields _ .stateTransferFailed [("transfer_id", k)] hf).ends
  intro h' hacts hw
  refine .of_shadow hacts ?_ (hw ▸ rfl) (hw ▸ rfl) (hw ▸ rfl)
  rw [hw]
  exact .advanced hk ha hid (fun hr => by rw [hs] at hr; cases hr) rfl rfl rfl

theorem onTransferStarted_moves (event : SimEvent) (hf : NumbersFree h.history.sim) :
    Ends (onTransferStarted event) h (Moves h) := by
  have hself := (TasksOnly.refl h).moves
  apply Ends.get_bind
  apply Ends.lift_bind hself
  intro found hfound
  split
  · exact hself
  · next k t =>
    have hk := transferOf_eq_ok hfound
    split
    · exact hself
    · next hs =>
      rw [ne_eq, not_not] at hs
      apply Ends.lift_bind hself
      intro r hr
      apply Ends.lift_bind hself
      intro blocked hblocked
      cases blocked with
      | true => exact abandonTransfer_moves hf hk (.inl hs) rfl rfl
      | false =>
        apply Ends.lift_bind hself
        intro link _
        apply Ends.lift_bind hself
        intro duration _
        apply Ends.scheduleEvent_bind hself
        intro completion _ _
        refine Moves.of_shadow (.act _ (.of_head rfl (by decide))) ?_ rfl rfl rfl
        have hgrounded := transferBlocked_eq_false (item_eq_ok.mp hr) hblocked
        let t' := { t with
          status := .running
          startedAt := some h.history.sim.now
          completionEventId := some completion.eventId }
        have hid : t'.replicaId = t.replicaId := rfl
        exact .advanced hk (.inl hs) hid (fun _ => hgrounded) rfl rfl rfl

theorem onTransferCompleted_moves (event : SimEvent) (hf : NumbersFree h.history.sim) :
    Ends (onTransferCompleted event) h (Moves h) := by
  have hself := (TasksOnly.refl h).moves
  apply Ends.get_bind
  apply Ends.lift_bind hself
  intro found hfound
  split
  · exact hself
  · next k t =>
    have hk := transferOf_eq_ok hfound
    split
    · exact hself
    · next hs =>
      rw [ne_eq, not_not] at hs
      apply Ends.lift_bind hself
      intro r hr
      apply Ends.lift_bind hself
      intro blocked hblocked
      cases blocked with
      | true => exact abandonTransfer_moves hf hk (.inr hs) rfl rfl
      | false =>
        have hr := item_eq_ok.mp hr
        obtain ⟨_, hup, hat⟩ := transferBlocked_eq_false hr hblocked
        apply (write_yields _ .stateMoved [("replica_id", t.replicaId), ("source_id", t.sourceId),
          ("destination_id", t.destinationId)] hf).ends
        intro h' hacts hw
        refine .of_shadow hacts ?_ (hw ▸ rfl) (hw ▸ rfl) (hw ▸ rfl)
        rw [hw]
        exact .moved hk hs rfl hr ((Change.availableAt_iff hr).mp hat).2 hup rfl rfl rfl

theorem onReplicaGone_moves (event : SimEvent) (hf : NumbersFree h.history.sim)
    (hs : status = .evicted ∨ status = .lost) :
    Ends (onReplicaGone status event) h (Moves h) := by
  have hself := (TasksOnly.refl h).moves
  apply Ends.get_bind
  apply Ends.lift_bind hself
  intro found hfound
  split
  · exact hself
  · next k r =>
    have hk := replicaOf_eq_ok hfound
    split
    · exact hself
    · next hlive =>
      have hloop : Yields Action.Unnumbered (failActiveTransfersForReplica k) h _ :=
        failTransfers_yields (fun t => t.replicaId = k) hf
      apply hloop.ends_bind
      intro _ h₁ hacts₁ hw₁
      apply (cancelCompletion_yields r.completionEventId h₁).ends_bind
      intro _ h₂ hacts₂ hw₂
      apply (Yields.modifyWorld _ h₂).ends
      intro h₃ hacts₃ hw₃
      rw [hw₂, hw₁] at hw₃
      have hacts := (hacts₁.trans hacts₂).trans hacts₃
      refine Moves.of_shadow hacts ?_ (hw₃ ▸ rfl) (hw₃ ▸ rfl) (hw₃ ▸ rfl)
      rw [hw₃]
      let r' : ReplicaRuntime := { r with status, completionEventId := none }
      have hl : r'.locationId = r.locationId := rfl
      exact .gone hk hlive hl hs rfl rfl rfl

end Replicas

/-- A delivery to the model makes one change. -/
theorem handle_moves (event : SimEvent) {h : Host ResourceModel} (hf : NumbersFree h.history.sim)
    (hk : TasksKnown h.world) : Ends (ResourceModel.handle event) h (Moves h) := by
  unfold ResourceModel.handle
  split
  · exact onTaskEnqueued_moves event h
  · exact onTaskCompleted_moves event h
  · exact onWorkerFailed_moves event hf hk
  · exact onWorkerRecovered_moves event h
  · exact onMaterializationStarted_moves event hf
  · exact onStateMaterialized_moves event hf
  · exact onTransferStarted_moves event hf
  · exact onTransferCompleted_moves event hf
  · exact onReplicaGone_moves event hf (.inl rfl)
  · exact onReplicaGone_moves event hf (.inr rfl)
  · exact (TasksOnly.refl h).moves

end Cadi
