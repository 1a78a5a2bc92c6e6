import Cadi.Simulator.Conservation

namespace Cadi
open Library
set_option autoImplicit true

/-- The event has been executed once, waits for its execution or was cancelled in time. -/
inductive SimEvent.Place (h : History) (e : SimEvent) : Prop where
  | executed (once : h.sim.trace.count e = 1) (pending : e ∉ h.sim.pendingEvents)
      (revoked : e.eventId ∉ h.revoked)
  | pending (trace : e ∉ h.sim.trace) (once : h.sim.pendingEvents.count e = 1)
      (revoked : e.eventId ∉ h.revoked)
  | cancelled (trace : e ∉ h.sim.trace) (pending : e ∉ h.sim.pendingEvents)
      (revoked : e.eventId ∈ h.revoked)

/-- Order, time and conservation at one point of a run. -/
structure Orderly (m : Machine ω) : Prop where
  trace : m.history.sim.trace.Pairwise SimEvent.Before
  clock : ∀ event ∈ m.control.handled, m.history.sim.now = event.time
  placed : ∀ e ∈ m.history.scheduled, e.Place m.history
  scheduled : ∀ e, e ∈ m.history.sim.trace ∨ e ∈ m.history.sim.pendingEvents →
    e ∈ m.history.scheduled
  distinct : (m.history.scheduled.map (·.eventId)).Nodup
  once : m.history.revoked.Nodup
  cancellable : ∀ eventId, (m.history.sim.cancel eventId).1 = true ↔
    ∃ e ∈ m.history.sim.pendingEvents, e.eventId = eventId

/-- Time never decreases, and no record is taken back. -/
structure Later (h h' : History) : Prop where
  now : h.sim.now ≤ h'.sim.now
  trace : h.sim.trace <+: h'.sim.trace
  scheduled : h.scheduled <+: h'.scheduled
  revoked : h.revoked <+: h'.revoked

theorem Later.refl (h : History) : Later h h :=
  ⟨le_rfl, List.prefix_refl _, List.prefix_refl _, List.prefix_refl _⟩

theorem Later.trans (h₁ : Later h h') (h₂ : Later h' h'') : Later h h'' :=
  ⟨h₁.now.trans h₂.now, h₁.trace.trans h₂.trace, h₁.scheduled.trans h₂.scheduled,
    h₁.revoked.trans h₂.revoked⟩

section Points
variable {h : History}

theorem mem_pendingEvents {sim : Simulator} :
    e ∈ sim.pendingEvents ↔ e ∈ sim.queue ∧ e.eventId ∉ sim.cancelled := by
  rw [Simulator.pendingEvents, List.mem_filter, decide_eq_true_iff]

theorem nodup_of_before {l : List SimEvent} (hl : l.Pairwise SimEvent.Before) : l.Nodup := by
  refine List.Pairwise.imp ?_ hl
  intro a b hb he
  exact SimEvent.Before.irrefl a (he ▸ hb)

theorem Accounted.place (ha : Accounted h) (he : e ∈ h.scheduled) : e.Place h := by
  obtain ⟨ho, hp⟩ := ha
  by_cases htrace : e ∈ h.sim.trace
  · obtain ⟨_, hqueue, hrevoked⟩ := hp.trace e htrace
    apply SimEvent.Place.executed
    · exact List.count_eq_one_of_mem (nodup_of_before ho.trace) htrace
    · exact fun hm => hqueue (mem_pendingEvents.mp hm).1
    · exact hrevoked
  · by_cases hpending : e ∈ h.sim.pendingEvents
    · obtain ⟨hqueue, hlive⟩ := mem_pendingEvents.mp hpending
      apply SimEvent.Place.pending htrace
      · exact List.count_eq_one_of_mem ((nodup_of_before ho.queue).filter _) hpending
      · exact fun hr => hlive ((hp.queue e hqueue).2.mp hr)
    · apply SimEvent.Place.cancelled htrace hpending
      by_cases hqueue : e ∈ h.sim.queue
      · apply (hp.queue e hqueue).2.mpr
        exact not_not.mp fun hlive => hpending (mem_pendingEvents.mpr ⟨hqueue, hlive⟩)
      · exact hp.gone e he htrace hqueue

theorem Accounted.cancel_iff (ha : Accounted h) (eventId : String) :
    (h.sim.cancel eventId).1 = true ↔ ∃ e ∈ h.sim.pendingEvents, e.eventId = eventId := by
  simp only [mem_pendingEvents]
  unfold Simulator.cancel
  by_cases hc : eventId ∉ h.sim.pendingIds ∨ eventId ∈ h.sim.cancelled
  · rw [if_pos hc]
    refine ⟨fun hf => (Bool.false_ne_true hf).elim, ?_⟩
    rintro ⟨e, ⟨hqueue, hlive⟩, rfl⟩
    exact (hc.elim (fun hn => hn ((ha.placed.pending _).mpr ⟨e, hqueue, rfl⟩)) hlive).elim
  · rw [if_neg hc]
    simp only [not_or, not_not] at hc
    obtain ⟨e, hqueue, rfl⟩ := (ha.placed.pending _).mp hc.1
    exact ⟨fun _ => ⟨e, ⟨hqueue, hc.2⟩, rfl⟩, fun _ => rfl⟩

theorem perform_cancel (h : History) (eventId : String) :
    (h.perform (.cancel eventId)).2 = h ∨ (h.perform (.cancel eventId)).2 = { h with
      sim := { h.sim with cancelled := insert eventId h.sim.cancelled }
      revoked := h.revoked ++ [eventId] } := by
  by_cases hc : eventId ∉ h.sim.pendingIds ∨ eventId ∈ h.sim.cancelled
  · left
    simp only [History.perform, Simulator.cancel, if_pos hc]
  · right
    simp only [History.perform, Simulator.cancel, if_neg hc]

theorem later_perform (h : History) (action : Action) : Later h (h.perform action).2 := by
  cases action with
  | schedule r =>
    simp only [History.perform]
    split
    · next event sim hok =>
      obtain ⟨rfl, _⟩ := schedule_eq_ok hok
      exact ⟨le_rfl, List.prefix_refl _, List.prefix_append _ _, List.prefix_refl _⟩
    · exact .refl h
  | cancel eventId =>
    rcases perform_cancel h eventId with he | he <;> rw [he]
    · exact .refl h
    · exact ⟨le_rfl, List.prefix_refl _, List.prefix_refl _, List.prefix_append _ _⟩

theorem now_le_advance (sim : Simulator) (horizon : Option Time) :
    sim.now ≤ (sim.advance horizon).now := by
  unfold Simulator.advance
  split
  · exact le_rfl
  · split
    · next hlt => exact hlt.le
    · exact le_rfl

theorem later_advance (h : History) (horizon : Option Time) :
    Later h { h with sim := h.sim.advance horizon } where
  now := now_le_advance h.sim horizon
  trace := by
    unfold Simulator.advance
    split
    · exact List.prefix_refl _
    · split <;> exact List.prefix_refl _
  scheduled := List.prefix_refl _
  revoked := List.prefix_refl _

end Points

section Machine
variable {ω : Type} {m : Machine ω}

/-- What every step keeps. -/
structure Steady (m : Machine ω) : Prop where
  accounted : Accounted m.history
  clock : ∀ event ∈ m.control.handled, m.history.sim.now = event.time

theorem Steady.orderly (hs : Steady m) : Orderly m where
  trace := hs.accounted.ordered.trace
  clock := hs.clock
  placed _ he := hs.accounted.place he
  scheduled e he := by
    rcases he with he | he
    · exact (hs.accounted.placed.trace e he).1
    · exact (hs.accounted.placed.queue e (mem_pendingEvents.mp he).1).1
  distinct := hs.accounted.placed.distinct
  once := hs.accounted.placed.once
  cancellable := hs.accounted.cancel_iff

theorem Steady.of_not_handling (ha : Accounted m.history) (hc : m.control.handled = none) :
    Steady m where
  accounted := ha
  clock event he := by
    rw [hc] at he
    cases he

theorem Steady.of_handling (ha : Accounted m.history) (hc : m.control.handled = some event)
    (hnow : m.history.sim.now = event.time) : Steady m where
  accounted := ha
  clock event' he := by
    rw [hc, Option.mem_some_iff] at he
    exact he ▸ hnow

theorem now_perform (h : History) (action : Action) :
    (h.perform action).2.sim.now = h.sim.now := by
  cases action with
  | schedule r =>
    simp only [History.perform]
    split
    · next event sim hok =>
      obtain ⟨rfl, _⟩ := schedule_eq_ok hok
      rfl
    · rfl
  | cancel eventId =>
    rcases perform_cancel h eventId with he | he <;> rw [he]

theorem Steady.finish (hs : Steady m) (l : Loop)
    (hlate : ∀ e ∈ m.history.sim.queue, ∀ t ∈ l.horizon, t < e.time) : Steady (m.finish l) :=
  .of_not_handling (hs.accounted.advance l.horizon hlate) rfl

theorem Steady.loop (hs : Steady m) (l : Loop) :
    Steady (m.loop l) ∧ Later m.history (m.loop l).history := by
  have ha := hs.accounted
  cases hq : m.history.sim.queue with
  | nil =>
    simp only [Machine.loop, hq]
    refine ⟨hs.finish l fun e he => ?_, later_advance _ _⟩
    rw [hq] at he
    cases he
  | cons event rest =>
    have hevent : event ∈ m.history.sim.queue := hq ▸ List.mem_cons_self
    simp only [Machine.loop, hq]
    by_cases hhorizon : ∃ t ∈ l.horizon, t < event.time
    · simp only [if_pos hhorizon]
      refine ⟨hs.finish l fun e he t ht => ?_, later_advance _ _⟩
      obtain ⟨t', ht', hlt⟩ := hhorizon
      obtain rfl := Option.mem_unique ht ht'
      rw [hq] at he
      rcases List.mem_cons.mp he with rfl | he
      · exact hlt
      · exact hlt.trans_le ((ha.ordered.tail hq).1 e he).time_le
    · simp only [if_neg hhorizon]
      by_cases hcancelled : event.eventId ∈ m.history.sim.cancelled
      · simp only [if_pos hcancelled]
        refine ⟨.of_not_handling (ha.discard hq hcancelled) rfl, ?_⟩
        exact ⟨le_rfl, List.prefix_refl _, List.prefix_refl _, List.prefix_refl _⟩
      · have hfuture := ha.ordered.future event hevent
        simp only [if_neg hcancelled, if_neg (Time.not_lt.mpr hfuture)]
        refine ⟨.of_handling (ha.deliver hq hcancelled) rfl rfl, ?_⟩
        exact ⟨hfuture, List.prefix_append _ _, List.prefix_refl _, List.prefix_refl _⟩

theorem Steady.handle (hs : Steady m) (hc : m.control = .handling l event script rest) :
    Steady (m.handle l event rest script) ∧
      Later m.history (m.handle l event rest script).history := by
  have hclock : m.history.sim.now = event.time := hs.clock event (by rw [hc]; rfl)
  cases script with
  | act action k =>
    have hnow := (now_perform m.history action).trans hclock
    exact ⟨.of_handling (hs.accounted.perform action) rfl hnow, later_perform _ _⟩
  | raise error world => exact ⟨.of_not_handling hs.accounted rfl, .refl _⟩
  | done world =>
    cases rest with
    | cons handler rest => exact ⟨.of_handling hs.accounted rfl hclock, .refl _⟩
    | nil =>
      by_cases hlimit : ∃ n ∈ l.maxEvents, n ≤ l.processed
      · simp only [Machine.handle, if_pos hlimit]
        exact ⟨.of_not_handling hs.accounted rfl, .refl _⟩
      · simp only [Machine.handle, if_neg hlimit]
        exact ⟨.of_not_handling hs.accounted rfl, .refl _⟩

theorem Steady.step (hs : Steady m) (input : Input ω) :
    Steady (m.step input) ∧ Later m.history (m.step input).history := by
  have hself : Steady m ∧ Later m.history m.history := ⟨hs, .refl _⟩
  unfold Machine.step
  split
  · next action hc =>
    have hidle : m.control.handled = none := by rw [hc]; rfl
    exact ⟨.of_not_handling (hs.accounted.perform action) hidle, later_perform _ _⟩
  · next kind handler hc =>
    exact ⟨⟨hs.accounted, hs.clock⟩, .refl _⟩
  · next until' maxEvents hc =>
    split
    · exact ⟨.of_not_handling hs.accounted rfl, .refl _⟩
    · exact hself
  · next l hc => exact hs.loop l
  · next l event script rest hc => exact hs.handle hc
  · exact hself

end Machine

/-- In every run, with any handlers that schedule and cancel, each point is orderly and later ones
only add to it. -/
theorem simulator_orderly (world : ω) (before after : List (Input ω)) :
    Orderly (run Machine.step { world } before) ∧
      Later (run Machine.step { world } before).history
        (run Machine.step { world } (before ++ after)).history := by
  have hstart : Steady ({ world } : Machine ω) :=
    .of_not_handling .empty rfl
  have hbefore : Steady (run Machine.step { world } before) :=
    invariant_run (A := fun _ _ => True) hstart (fun _ input hm _ => (hm.step input).1)
      (.trivial (fun _ _ => True.intro) _ _)
  refine ⟨hbefore.orderly, ?_⟩
  rw [run_append]
  exact relation_run (R := fun m m' => Later m.history m'.history) (A := fun _ _ => True)
    (fun _ => .refl _) .trans hbefore (fun _ input hm _ => (hm.step input).1)
    (fun _ input hm _ => (hm.step input).2) (.trivial (fun _ _ => True.intro) _ _)

end Cadi
