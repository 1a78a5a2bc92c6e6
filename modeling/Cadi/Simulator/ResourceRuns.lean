import Cadi.Simulator.Handlers
import Cadi.Library.Runs

namespace Cadi
open Library
set_option autoImplicit true

/-- The public methods of the model. -/
inductive ResourceCall where
  | addWorker (workerId : String) (capacity : Int)
  | addLink (linkId sourceId destinationId : String) (latency bandwidth : Number)
  | enqueueTask (workerId taskId : String) (duration : Number)
  | failWorker (workerId : String)
  | recoverWorker (workerId : String)
  | materializeReplica (replicaId stateId locationId : String) (sizeBytes : Int) (duration : Number)
  | startTransfer (transferId replicaId linkId : String)
  | evictReplica (replicaId : String)
  | loseReplica (replicaId : String)

def ResourceCall.perform : ResourceCall → ResourceM Unit
  | .addWorker workerId capacity => discard (Cadi.addWorker workerId capacity)
  | .addLink linkId sourceId destinationId latency bandwidth =>
    discard (Cadi.addLink linkId sourceId destinationId latency bandwidth)
  | .enqueueTask workerId taskId duration => discard (Cadi.enqueueTask workerId taskId duration)
  | .failWorker workerId => discard (Cadi.failWorker workerId)
  | .recoverWorker workerId => discard (Cadi.recoverWorker workerId)
  | .materializeReplica replicaId stateId locationId sizeBytes duration =>
    discard (Cadi.materializeReplica replicaId stateId locationId sizeBytes duration)
  | .startTransfer transferId replicaId linkId =>
    discard (Cadi.startTransfer transferId replicaId linkId)
  | .evictReplica replicaId => discard (Cadi.evictReplica replicaId)
  | .loseReplica replicaId => discard (Cadi.loseReplica replicaId)

/-- A call of the model, an action of another component on the simulator, or one pass through the
loop of the simulator. -/
inductive ResourceInput where
  | call (c : ResourceCall)
  | other (action : Action)
  | pass (horizon : Option Time)

def resourceStep (h : Host ResourceModel) : ResourceInput → Host ResourceModel
  | .call c => finalState (c.perform h)
  | .other action => h.act action
  | .pass horizon => h.pass ResourceModel.handle horizon

/-- Deliveries that other components schedule are not named after numbers. -/
def ResourceInput.Unnumbered : ResourceInput → Prop
  | .other action => action.Unnumbered
  | _ => True

section Calls
variable {h : Host ResourceModel}

theorem Moves.act {action : Action} (hm : Moves h h') (ha : action.Unnumbered) :
    Moves h (h'.act action) where
  acts := hm.acts.trans (.act h' ha)
  change := hm.change
  known := hm.known

theorem act_moves {action : Action} (h : Host ResourceModel) (ha : action.Unnumbered) :
    Moves h (h.act action) :=
  (TasksOnly.refl h).moves.act ha

theorem addWorker_moves (w : String) (capacity : Int) :
    Ends (addWorker w capacity) h (Moves h) := by
  have hself := (TasksOnly.refl h).moves
  apply Ends.lift_bind hself
  intro _ _
  apply Ends.get_bind
  apply Ends.lift_bind hself
  intro _ hnew
  apply Ends.lift_bind hself
  intro _ _
  have hup : ({ id := w, capacity } : Worker).status = .up := rfl
  refine ⟨.refl, .up hup rfl rfl rfl, fun hk => ?_⟩
  refine ⟨fun w' hw' => ?_, fun w' t ht => ?_⟩
  · rcases Dict.mem_set.mp hw' with rfl | hw'
    · exact Dict.mem_set.mpr (.inl rfl)
    · exact Dict.mem_set.mpr (.inr (hk.listed w' hw'))
  · have ht' : t ∈ activeOf { h.world with workerActive := h.world.workerActive.set w [] } w' := ht
    rw [mem_activeOf_set] at ht'
    split at ht'
    · cases ht'
    · exact hk.known w' t ht'

theorem addLink_moves (linkId sourceId destinationId : String) (latency bandwidth : Number) :
    Ends (addLink linkId sourceId destinationId latency bandwidth) h (Moves h) := by
  have hself := (TasksOnly.refl h).moves
  apply Ends.lift_bind hself
  intro _ _
  apply Ends.get_bind
  apply Ends.lift_bind hself
  intro _ _
  apply Ends.lift_bind hself
  intro _ _
  apply Ends.lift_bind hself
  intro _ _
  apply Ends.lift_bind hself
  intro latency _
  apply Ends.lift_bind hself
  intro bandwidth _
  exact .of_shadow .refl (.unchanged rfl rfl rfl) rfl rfl rfl

theorem enqueueTask_moves (w t : String) (duration : Number) :
    Ends (enqueueTask w t duration) h (Moves h) := by
  have hself := (TasksOnly.refl h).moves
  apply Ends.get_bind
  apply Ends.lift_bind hself
  intro _ _
  apply Ends.lift_bind hself
  intro _ _
  apply Ends.lift_bind hself
  intro _ hnew
  apply Ends.lift_bind hself
  intro duration _
  rw [raiseIf_eq_ok] at hnew
  apply Ends.modify_bind
  apply Ends.orElseUndo_bind
  · -- the entries just made are taken back
    refine .of_shadow .refl (.unchanged rfl rfl rfl) rfl (Dict.erase_set_new hnew _) rfl
  · intro event _ _
    apply Moves.act _ (.of_head rfl (by decide))
    refine ⟨.refl, .unchanged rfl rfl rfl, fun hk => ⟨hk.listed, ?_⟩⟩
    exact fun w' t' ht' => Dict.mem_set.mpr (.inr (hk.known w' t' ht'))

theorem notice_moves (kind : EventKind) (items : List (String × String)) :
    Ends (notify kind (stringItems items)) h (Moves h) := by
  rw [notify_eq]
  cases hs : h.history.sim.schedule (notice kind items) with
  | error e =>
    unfold Ends
    rw [scheduleEvent_error hs]
    exact (TasksOnly.refl h).moves
  | ok res =>
    unfold Ends
    rw [scheduleEvent_ok hs]
    exact act_moves h (notice_unnumbered kind items)

theorem materializeReplica_moves (replicaId stateId locationId : String) (sizeBytes : Int)
    (duration : Number) :
    Ends (materializeReplica replicaId stateId locationId sizeBytes duration) h (Moves h) := by
  have hself := (TasksOnly.refl h).moves
  apply Ends.lift_bind hself
  intro _ _
  apply Ends.lift_bind hself
  intro _ _
  apply Ends.get_bind
  apply Ends.lift_bind hself
  intro _ _
  apply Ends.lift_bind hself
  intro _ hnew
  apply Ends.lift_bind hself
  intro _ _
  apply Ends.lift_bind hself
  intro duration _
  rw [raiseIf_eq_ok] at hnew
  apply Ends.modify_bind
  apply Ends.orElseUndo_bind
  · exact .of_shadow .refl (.unchanged rfl (Dict.erase_set_new hnew _) rfl) rfl rfl rfl
  · intro event _ _
    refine .of_shadow (.act _ (.of_head rfl (by decide))) ?_ rfl rfl rfl
    exact .created (r := { replicaId, stateId, locationId, sizeBytes, status := .materializing })
      hnew rfl rfl rfl rfl

theorem startTransfer_moves (transferId replicaId linkId : String) :
    Ends (startTransfer transferId replicaId linkId) h (Moves h) := by
  have hself := (TasksOnly.refl h).moves
  apply Ends.lift_bind hself
  intro _ _
  apply Ends.get_bind
  apply Ends.lift_bind hself
  intro _ hnew
  apply Ends.lift_bind hself
  intro replica _
  apply Ends.lift_bind hself
  intro _ _
  apply Ends.lift_bind hself
  intro link _
  apply Ends.lift_bind hself
  intro _ _
  apply Ends.lift_bind hself
  intro _ hfirst
  rw [raiseIf_eq_ok] at hnew hfirst
  apply Ends.modify_bind
  apply Ends.orElseUndo_bind
  · exact .of_shadow .refl (.unchanged rfl rfl (Dict.erase_set_new hnew _)) rfl rfl rfl
  · intro event _ _
    refine .of_shadow (.act _ (.of_head rfl (by decide))) ?_ rfl rfl rfl
    let transfer : StateTransfer :=
      { id := transferId, replicaId, linkId, sourceId := link.sourceId,
        destinationId := link.destinationId, sizeBytes := replica.sizeBytes, status := .scheduled }
    exact .scheduled (t := transfer) hnew rfl (fun t ht hc => hfirst ⟨t, ht, hc⟩) rfl rfl rfl

theorem announce_moves (find : ResourceModel → Except PyError α) (kind : EventKind)
    (items : List (String × String)) :
    Ends
      (do
        let h ← get
        let _ ← (liftM (find h.world) : ResourceM α)
        notify kind (stringItems items)) h (Moves h) := by
  apply Ends.get_bind
  apply Ends.lift_bind (TasksOnly.refl h).moves
  exact fun _ _ => notice_moves kind items

theorem call_moves (c : ResourceCall) : Ends c.perform h (Moves h) := by
  cases c with
  | addWorker workerId capacity => exact (addWorker_moves workerId capacity).discard
  | addLink linkId sourceId destinationId latency bandwidth =>
    exact (addLink_moves linkId sourceId destinationId latency bandwidth).discard
  | enqueueTask workerId taskId duration => exact (enqueueTask_moves workerId taskId duration).discard
  | failWorker w => exact (announce_moves (·.requireWorker w) _ [("worker_id", w)]).discard
  | recoverWorker w => exact (announce_moves (·.requireWorker w) _ [("worker_id", w)]).discard
  | materializeReplica replicaId stateId locationId sizeBytes duration =>
    exact (materializeReplica_moves replicaId stateId locationId sizeBytes duration).discard
  | startTransfer transferId replicaId linkId =>
    exact (startTransfer_moves transferId replicaId linkId).discard
  | evictReplica r => exact (announce_moves (·.requireReplica r) _ [("replica_id", r)]).discard
  | loseReplica r => exact (announce_moves (·.requireReplica r) _ [("replica_id", r)]).discard

end Calls

section Runs
variable {h : Host ResourceModel}

/-- The invariant of the runs. -/
structure Kept (h : Host ResourceModel) : Prop where
  replicated : Replicated h.world
  known : TasksKnown h.world
  numbers : NumbersFree h.history.sim

theorem Kept.moves (hk : Kept h) (hm : Moves h h') : Kept h' where
  replicated := hm.change.replicated hk.replicated
  known := hm.known hk.known
  numbers := hm.acts.numbersFree (fun _ ha => ha) hk.numbers

theorem pass_kept (hk : Kept h) (horizon : Option Time) :
    Kept (h.pass ResourceModel.handle horizon) ∧
      Change h.world (h.pass ResourceModel.handle horizon).world := by
  have hsame {h' : Host ResourceModel} (hw : h'.world = h.world)
      (hknown : h'.history.sim.knownIds = h.history.sim.knownIds)
      (hnext : h'.history.sim.nextSequence = h.history.sim.nextSequence) : Kept h' := by
    refine ⟨hw ▸ hk.replicated, hw ▸ hk.known, fun n hn => ?_⟩
    rw [hnext]
    exact hk.numbers n (hknown ▸ hn)
  have hadvance (sim : Simulator) : (sim.advance horizon).knownIds = sim.knownIds ∧
      (sim.advance horizon).nextSequence = sim.nextSequence := by
    unfold Simulator.advance
    split
    · exact ⟨rfl, rfl⟩
    · split <;> exact ⟨rfl, rfl⟩
  unfold Host.pass
  dsimp only
  split
  · exact ⟨hsame rfl (hadvance _).1 (hadvance _).2, .unchanged rfl rfl rfl⟩
  · next event rest hq =>
    split
    · exact ⟨hsame rfl (hadvance _).1 (hadvance _).2, .unchanged rfl rfl rfl⟩
    · split
      · exact ⟨hsame rfl rfl rfl, .unchanged rfl rfl rfl⟩
      · split
        · exact ⟨hsame rfl rfl rfl, .unchanged rfl rfl rfl⟩
        · have hstart : Kept { h with
              history := { h.history with sim := h.history.sim.deliver event rest } } :=
            hsame rfl rfl rfl
          have hm := handle_moves event hstart.numbers hstart.known
          exact ⟨hstart.moves hm, hm.change⟩

theorem step_kept (hk : Kept h) (hi : ResourceInput.Unnumbered i) :
    Kept (resourceStep h i) ∧ Change h.world (resourceStep h i).world := by
  cases i with
  | call c => exact ⟨hk.moves (call_moves c), (call_moves c).change⟩
  | other action => exact ⟨hk.moves (act_moves h hi), (act_moves h hi).change⟩
  | pass horizon => exact pass_kept hk horizon

theorem Settled.refl (m : ResourceModel) : Settled m m where
  lost _ r hr := ⟨r, hr, id, .inl⟩
  ended _ t ht := ⟨t, ht, fun _ => rfl⟩

theorem Settled.trans (h₁ : Settled m m') (h₂ : Settled m' m'') : Settled m m'' where
  lost k r hr := by
    obtain ⟨r', hr', hlost, hevicted⟩ := h₁.lost k r hr
    obtain ⟨r'', hr'', hlost', hevicted'⟩ := h₂.lost k r' hr'
    refine ⟨r'', hr'', hlost' ∘ hlost, fun hs => ?_⟩
    rcases hevicted hs with hs | hs
    · exact hevicted' hs
    · exact .inr (hlost' hs)
  ended k t ht := by
    obtain ⟨t', ht', hsame⟩ := h₁.ended k t ht
    obtain ⟨t'', ht'', hsame'⟩ := h₂.ended k t' ht'
    refine ⟨t'', ht'', fun hs => ?_⟩
    obtain rfl := hsame hs
    exact hsame' hs

theorem Kept.empty : Kept { world := {} } where
  replicated := {
    available := fun _ _ hk => (Option.some_ne_none _ hk.symm).elim
    single := fun _ _ _ _ hk => (Option.some_ne_none _ hk.symm).elim
    running := fun _ _ hk => (Option.some_ne_none _ hk.symm).elim }
  known := {
    listed := fun _ hw => (List.not_mem_nil hw).elim
    known := fun _ _ ht => (List.not_mem_nil ht).elim }
  numbers _ hn := (Finset.notMem_empty _ hn).elim

end Runs

theorem StateTransfer.Grounded.not_blocked {t : StateTransfer} (ht : t.Grounded m) :
    ∃ r, m.replicas.get? t.replicaId = some r ∧ transferBlocked m r t = .ok false := by
  obtain ⟨⟨source, hsource, hup⟩, ⟨destination, hdest, hup'⟩, r, hr, havailable, hl⟩ := ht
  refine ⟨r, hr, ?_⟩
  have hplace : ¬ (r.status ≠ .available ∨ r.locationId ≠ t.sourceId) := by
    simp only [havailable, hl, ne_eq, not_true_eq_false, or_self, not_false_eq_true]
  simp only [transferBlocked, if_neg hplace, item_eq_ok.mpr hsource, item_eq_ok.mpr hdest, hup, hup',
    reduceCtorEq, ↓reduceIte, decide_false, bind, Except.bind, pure, Except.pure]

/-- In every run replicas and transfers are placed soundly at each point and no transfer fails on
completion, what has ended stays so, and the next step moves a replica only by a completed transfer. -/
theorem replication_sound (before after : List ResourceInput) (next : ResourceInput)
    (hb : ∀ i ∈ before, i.Unnumbered) (ha : ∀ i ∈ after, i.Unnumbered) (hn : next.Unnumbered) :
    let h := run resourceStep { world := {} } before
    Replicated h.world ∧
      (∀ k t, h.world.transfers.get? k = some t → t.status = .running →
        ∃ r, h.world.replicas.get? t.replicaId = some r ∧ transferBlocked h.world r t = .ok false) ∧
      Settled h.world (run resourceStep h after).world ∧
      MovedOnly h.world (resourceStep h next).world := by
  have hkept : Kept (run resourceStep { world := {} } before) :=
    invariant_run (A := fun _ (i : ResourceInput) => i.Unnumbered) .empty
      (fun _ _ hk hi => (step_kept hk hi).1) (.of_forall hb _)
  refine ⟨hkept.replicated, fun k t hk hs => (hkept.replicated.running k t hk hs).not_blocked, ?_,
    (step_kept hkept hn).2.movedOnly⟩
  exact relation_run (R := fun h h' => Settled h.world h'.world)
    (A := fun _ (i : ResourceInput) => i.Unnumbered) (fun _ => .refl _) .trans hkept
    (fun _ _ hk hi => (step_kept hk hi).1) (fun _ _ hk hi => (step_kept hk hi).2.settled)
    (.of_forall ha _)

/-- A run in which a transfer is under way while its delivery is dropped and put back. -/
theorem replication_sound_delayed :
    let before : List ResourceInput :=
      [.call (.addWorker "a" 1), .call (.addWorker "b" 1),
        .call (.addLink "l" "a" "b" (.int 0) (.int 1)),
        .call (.materializeReplica "r" "s" "a" 1 (.int 0)), .pass none, .pass none,
        .call (.startTransfer "t" "r" "l"), .pass none, .other (.cancel "transfer-complete:t")]
    let again : ScheduleRequest :=
      { kind := .stateTransferCompleted, delay := some (.int 2),
        eventId := some ("fault:" ++ "f:delayed:transfer-complete:t"),
        payload := payloadOf [("transfer_id", .str "t")] }
    let h := run resourceStep { world := {} } before
    Replicated h.world ∧
      (∀ k t, h.world.transfers.get? k = some t → t.status = .running →
        ∃ r, h.world.replicas.get? t.replicaId = some r ∧ transferBlocked h.world r t = .ok false) ∧
      Settled h.world (run resourceStep h [.other (.schedule again), .pass none]).world ∧
      MovedOnly h.world (resourceStep h (.pass none)).world := by
  apply replication_sound
  · simp only [List.forall_mem_cons, ResourceInput.Unnumbered, Action.Unnumbered, List.not_mem_nil,
      false_implies, implies_true, and_self]
  · intro i hi
    rcases List.mem_cons.mp hi with rfl | hi
    · exact Action.Unnumbered.of_head rfl (by decide)
    · rw [List.mem_singleton.mp hi]
      exact True.intro
  · exact True.intro

end Cadi
