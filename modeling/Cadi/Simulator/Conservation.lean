import Cadi.Simulator.Engine

namespace Cadi
open Library
set_option autoImplicit true

/-- The events of the queue follow one another, follow every delivered event and are not past. -/
structure QueueOrdered (sim : Simulator) : Prop where
  queue : sim.queue.Pairwise SimEvent.Before
  trace : sim.trace.Pairwise SimEvent.Before
  after : ∀ t ∈ sim.trace, ∀ e ∈ sim.queue, t.Before e
  future : ∀ e ∈ sim.queue, sim.now ≤ e.time
  past : ∀ t ∈ sim.trace, t.time ≤ sim.now
  numbered : ∀ e, e ∈ sim.trace ∨ e ∈ sim.queue → e.sequence < sim.nextSequence

/-- Where a scheduled event is: executed once, still in the queue or gone. -/
structure Placed (h : History) : Prop where
  known : ∀ id, id ∈ h.sim.knownIds ↔ ∃ e ∈ h.scheduled, e.eventId = id
  distinct : (h.scheduled.map (·.eventId)).Nodup
  trace : ∀ e ∈ h.sim.trace, e ∈ h.scheduled ∧ e ∉ h.sim.queue ∧ e.eventId ∉ h.revoked
  queue : ∀ e ∈ h.sim.queue, e ∈ h.scheduled ∧
    (e.eventId ∈ h.revoked ↔ e.eventId ∈ h.sim.cancelled)
  gone : ∀ e ∈ h.scheduled, e ∉ h.sim.trace → e ∉ h.sim.queue → e.eventId ∈ h.revoked
  pending : ∀ id, id ∈ h.sim.pendingIds ↔ ∃ e ∈ h.sim.queue, e.eventId = id
  tombstones : ∀ id ∈ h.sim.cancelled, id ∈ h.sim.pendingIds
  revoked : ∀ id ∈ h.revoked, ∃ e ∈ h.scheduled, e.eventId = id
  once : h.revoked.Nodup

structure Accounted (h : History) : Prop where
  ordered : QueueOrdered h.sim
  placed : Placed h

theorem Accounted.empty : Accounted {} where
  ordered := by constructor <;> simp
  placed := by constructor <;> simp

section Schedule
variable {sim sim' : Simulator}

theorem schedule_eq_ok (h : sim.schedule r = .ok (event, sim')) :
    sim' = sim.push event ∧ event.sequence = sim.nextSequence ∧ sim.now ≤ event.time ∧
      event.eventId ∉ sim.knownIds := by
  unfold Simulator.schedule at h
  obtain ⟨time, htime, h⟩ := Except.bind_eq_ok.mp h
  obtain ⟨_, _, h⟩ := Except.bind_eq_ok.mp h
  obtain ⟨_, hknown, h⟩ := Except.bind_eq_ok.mp h
  obtain ⟨payload, _, h⟩ := Except.bind_eq_ok.mp h
  rw [raiseIf_eq_ok] at hknown
  cases time with
  | none => cases h
  | some time =>
    cases h
    refine ⟨rfl, rfl, ?_, hknown⟩
    unfold Simulator.eventTime at htime
    split at htime
    · cases htime
    · obtain ⟨delay, _, hadd⟩ := Except.bind_eq_ok.mp htime
      exact Time.le_of_add (Except.pure_eq_ok.mp hadd)
    · obtain ⟨t, _, hcheck⟩ := Except.bind_eq_ok.mp htime
      obtain ⟨hpast, ht⟩ := Except.then_eq_ok.mp hcheck
      cases ht
      exact Time.not_lt.mp (raiseIf_eq_ok.mp hpast)

/-- Insertion keeps the queue in order: among equal times the new event comes last. -/
theorem pairwise_orderedInsert {l : List SimEvent} (h : l.Pairwise SimEvent.Before)
    (hseq : ∀ e ∈ l, e.sequence < event.sequence) :
    (l.orderedInsert SimEvent.Before event).Pairwise SimEvent.Before := by
  induction l with
  | nil => exact List.pairwise_singleton _ _
  | cons e l ih =>
    rw [List.orderedInsert_cons]
    obtain ⟨hfirst, hrest⟩ := List.pairwise_cons.mp h
    by_cases hbefore : event.Before e
    · rw [if_pos hbefore]
      refine List.pairwise_cons.mpr ⟨fun e' he' => ?_, h⟩
      rcases List.mem_cons.mp he' with rfl | he'
      · exact hbefore
      · exact hbefore.trans (hfirst e' he')
    · rw [if_neg hbefore]
      refine List.pairwise_cons.mpr ⟨fun e' he' => ?_, ih hrest fun e' he' =>
        hseq e' (List.mem_cons_of_mem _ he')⟩
      rcases (List.mem_orderedInsert _).mp he' with rfl | he'
      · exact .of_sequence (hseq e List.mem_cons_self) hbefore
      · exact hfirst e' he'

@[simp] theorem mem_push_queue : e ∈ (sim.push event).queue ↔ e = event ∨ e ∈ sim.queue :=
  List.mem_orderedInsert _

theorem QueueOrdered.push (h : QueueOrdered sim) (hseq : event.sequence = sim.nextSequence)
    (hnow : sim.now ≤ event.time) : QueueOrdered (sim.push event) where
  queue := pairwise_orderedInsert h.queue fun e he => hseq ▸ h.numbered e (.inr he)
  trace := h.trace
  after t ht e he := by
    rcases mem_push_queue.mp he with rfl | he
    · exact .of_time ((h.past t ht).trans hnow) (hseq ▸ h.numbered t (.inl ht))
    · exact h.after t ht e he
  future e he := by
    rcases mem_push_queue.mp he with rfl | he
    · exact hnow
    · exact h.future e he
  past := h.past
  numbered e he := by
    rcases he with he | he
    · exact Nat.lt_succ_of_lt (h.numbered e (.inl he))
    · rcases mem_push_queue.mp he with rfl | he
      · exact hseq ▸ Nat.lt_succ_self _
      · exact Nat.lt_succ_of_lt (h.numbered e (.inr he))

theorem Placed.not_known {id : String} (hp : Placed h) (hid : id ∉ h.sim.knownIds)
    (he : e ∈ h.scheduled) : e.eventId ≠ id := by
  rintro rfl
  exact hid ((hp.known _).mpr ⟨e, he, rfl⟩)

theorem Placed.push (hp : Placed h) (hnew : event.eventId ∉ h.sim.knownIds) :
    Placed { h with sim := h.sim.push event, scheduled := h.scheduled ++ [event] } where
  known id := by
    simp only [Simulator.push, Finset.mem_insert, hp.known, List.mem_append, List.mem_singleton,
      or_and_right, exists_or, exists_eq_left]
    rw [or_comm, eq_comm]
  distinct := by
    rw [List.map_append, List.nodup_append]
    refine ⟨hp.distinct, List.nodup_singleton _, fun a ha b hb => ?_⟩
    obtain ⟨e, he, rfl⟩ := List.mem_map.mp ha
    obtain rfl := List.mem_singleton.mp hb
    exact hp.not_known hnew he
  trace e he := by
    obtain ⟨hscheduled, hqueue, hrevoked⟩ := hp.trace e he
    refine ⟨List.mem_append_left _ hscheduled, fun hm => ?_, hrevoked⟩
    rcases mem_push_queue.mp hm with rfl | hm
    · exact hp.not_known hnew hscheduled rfl
    · exact hqueue hm
  queue e he := by
    rcases mem_push_queue.mp he with rfl | he
    · refine ⟨List.mem_append_right _ List.mem_cons_self, fun hr => ?_, fun hc => ?_⟩
      · obtain ⟨e', he', heq⟩ := hp.revoked _ hr
        exact (hp.not_known hnew he' heq).elim
      · obtain ⟨e', he', heq⟩ := (hp.pending _).mp (hp.tombstones _ hc)
        exact (hp.not_known hnew (hp.queue e' he').1 heq).elim
    · exact ⟨List.mem_append_left _ (hp.queue e he).1, (hp.queue e he).2⟩
  gone e he htrace hqueue := by
    simp only [mem_push_queue, not_or] at hqueue
    rcases List.mem_append.mp he with he | he
    · exact hp.gone e he htrace hqueue.2
    · exact (hqueue.1 (List.mem_singleton.mp he)).elim
  pending id := by
    simp only [Simulator.push, Finset.mem_insert, hp.pending, List.mem_orderedInsert, or_and_right,
      exists_or, exists_eq_left]
    rw [@eq_comm _ id]
  tombstones id hid := Finset.mem_insert_of_mem (hp.tombstones id hid)
  revoked id hid := by
    obtain ⟨e, he, heq⟩ := hp.revoked id hid
    exact ⟨e, List.mem_append_left _ he, heq⟩
  once := hp.once

end Schedule

section Steps
variable {h : History}

theorem QueueOrdered.of_eq {sim sim' : Simulator} (ho : QueueOrdered sim) (hq : sim'.queue = sim.queue)
    (ht : sim'.trace = sim.trace) (hn : sim'.now = sim.now)
    (hs : sim'.nextSequence = sim.nextSequence) : QueueOrdered sim' where
  queue := hq ▸ ho.queue
  trace := ht ▸ ho.trace
  after := hq ▸ ht ▸ ho.after
  future := hq ▸ hn ▸ ho.future
  past := ht ▸ hn ▸ ho.past
  numbered := hq ▸ ht ▸ hs ▸ ho.numbered

theorem Placed.unique (hp : Placed h) (he : e ∈ h.scheduled) (he' : e' ∈ h.scheduled)
    (hid : e.eventId = e'.eventId) : e = e' :=
  List.inj_on_of_nodup_map hp.distinct he he' hid

theorem Accounted.schedule (ha : Accounted h) (r : ScheduleRequest) :
    Accounted (h.perform (.schedule r)).2 := by
  simp only [History.perform]
  split
  · next event sim hok =>
    obtain ⟨rfl, hseq, hnow, hnew⟩ := schedule_eq_ok hok
    exact ⟨ha.ordered.push hseq hnow, ha.placed.push hnew⟩
  · exact ha

theorem Accounted.cancel (ha : Accounted h) (eventId : String) :
    Accounted (h.perform (.cancel eventId)).2 := by
  by_cases hc : eventId ∉ h.sim.pendingIds ∨ eventId ∈ h.sim.cancelled
  · simp only [History.perform, Simulator.cancel, if_pos hc]
    exact ha
  · simp only [History.perform, Simulator.cancel, if_neg hc]
    simp only [not_or, not_not] at hc
    obtain ⟨hpending, hlive⟩ := hc
    obtain ⟨hordered, hp⟩ := ha
    obtain ⟨target, htarget, rfl⟩ := (hp.pending _).mp hpending
    have hfirst : target.eventId ∉ h.revoked := fun hr => hlive ((hp.queue target htarget).2.mp hr)
    refine ⟨hordered.of_eq rfl rfl rfl rfl, ?_⟩
    exact {
      hp with
      trace := fun e he => by
        obtain ⟨hscheduled, hqueue, hrevoked⟩ := hp.trace e he
        refine ⟨hscheduled, hqueue, fun hm => ?_⟩
        rcases List.mem_append.mp hm with hm | hm
        · exact hrevoked hm
        · have heq := hp.unique hscheduled (hp.queue target htarget).1 (List.mem_singleton.mp hm)
          exact hqueue (heq ▸ htarget)
      queue := fun e he => by
        refine ⟨(hp.queue e he).1, ?_⟩
        rw [List.mem_append, List.mem_singleton, Finset.mem_insert, (hp.queue e he).2, or_comm]
      gone := fun e he htrace hqueue => List.mem_append_left _ (hp.gone e he htrace hqueue)
      tombstones := fun id hid => by
        rcases Finset.mem_insert.mp hid with rfl | hid
        · exact hpending
        · exact hp.tombstones id hid
      revoked := fun id hid => by
        rcases List.mem_append.mp hid with hid | hid
        · exact hp.revoked id hid
        · exact ⟨target, (hp.queue target htarget).1, (List.mem_singleton.mp hid).symm⟩
      once := by
        rw [List.nodup_append]
        refine ⟨hp.once, List.nodup_singleton _, fun a ha b hb => ?_⟩
        obtain rfl := List.mem_singleton.mp hb
        rintro rfl
        exact hfirst ha }

theorem Accounted.perform (ha : Accounted h) (action : Action) : Accounted (h.perform action).2 := by
  cases action with
  | schedule r => exact ha.schedule r
  | cancel eventId => exact ha.cancel eventId

section Popping
variable {event : SimEvent} {rest : List SimEvent}

theorem QueueOrdered.tail {sim : Simulator} (ho : QueueOrdered sim) (hq : sim.queue = event :: rest) :
    (∀ e ∈ rest, event.Before e) ∧ rest.Pairwise SimEvent.Before :=
  List.pairwise_cons.mp (hq ▸ ho.queue)

/-- The popped event is not in the rest of the queue, and no other event there has its identifier. -/
theorem Accounted.popped (ha : Accounted h) (hq : h.sim.queue = event :: rest) :
    event ∉ rest ∧ ∀ e ∈ rest, e.eventId ≠ event.eventId := by
  have hnot : event ∉ rest := fun hm => SimEvent.Before.irrefl event ((ha.ordered.tail hq).1 event hm)
  refine ⟨hnot, fun e he hid => ?_⟩
  have hevent : event ∈ h.sim.queue := hq ▸ List.mem_cons_self
  have hrest : e ∈ h.sim.queue := hq ▸ List.mem_cons_of_mem _ he
  have heq := ha.placed.unique (ha.placed.queue e hrest).1 (ha.placed.queue event hevent).1 hid
  exact hnot (heq ▸ he)

theorem Accounted.pending_pop (ha : Accounted h) (hq : h.sim.queue = event :: rest) (id : String) :
    id ∈ h.sim.pendingIds.erase event.eventId ↔ ∃ e ∈ rest, e.eventId = id := by
  rw [Finset.mem_erase, ha.placed.pending, hq]
  constructor
  · rintro ⟨hne, e, he, rfl⟩
    rcases List.mem_cons.mp he with rfl | he
    · exact (hne rfl).elim
    · exact ⟨e, he, rfl⟩
  · rintro ⟨e, he, rfl⟩
    exact ⟨(ha.popped hq).2 e he, e, List.mem_cons_of_mem _ he, rfl⟩

theorem Accounted.discard (ha : Accounted h) (hq : h.sim.queue = event :: rest)
    (hc : event.eventId ∈ h.sim.cancelled) :
    Accounted { h with sim := h.sim.discard event rest } := by
  obtain ⟨hnot, hother⟩ := ha.popped hq
  obtain ⟨_, hrest⟩ := ha.ordered.tail hq
  obtain ⟨hordered, hp⟩ := id ha
  have hin (e : SimEvent) (he : e ∈ rest) : e ∈ h.sim.queue := hq ▸ List.mem_cons_of_mem _ he
  have hevent : event ∈ h.sim.queue := hq ▸ List.mem_cons_self
  constructor
  · exact {
      hordered with
      queue := hrest
      after := fun t ht e he => hordered.after t ht e (hin e he)
      future := fun e he => hordered.future e (hin e he)
      numbered := fun e he => hordered.numbered e (he.imp_right (hin e)) }
  · exact {
      hp with
      trace := fun e he => by
        obtain ⟨hscheduled, hqueue, hrevoked⟩ := hp.trace e he
        exact ⟨hscheduled, fun hm => hqueue (hin e hm), hrevoked⟩
      queue := fun e he => by
        refine ⟨(hp.queue e (hin e he)).1, (hp.queue e (hin e he)).2.trans ?_⟩
        exact ⟨fun hm => Finset.mem_erase.mpr ⟨hother e he, hm⟩, Finset.mem_of_mem_erase⟩
      gone := fun e he htrace hqueue => by
        by_cases heq : e = event
        · subst heq
          exact (hp.queue e hevent).2.mpr hc
        · refine hp.gone e he htrace fun hm => ?_
          rw [hq] at hm
          exact (List.mem_cons.mp hm).elim heq hqueue
      pending := ha.pending_pop hq
      tombstones := fun id hid => by
        obtain ⟨hne, hid⟩ := Finset.mem_erase.mp hid
        exact Finset.mem_erase.mpr ⟨hne, hp.tombstones id hid⟩ }

theorem Accounted.deliver (ha : Accounted h) (hq : h.sim.queue = event :: rest)
    (hc : event.eventId ∉ h.sim.cancelled) :
    Accounted { h with sim := h.sim.deliver event rest } := by
  obtain ⟨hnot, hother⟩ := ha.popped hq
  obtain ⟨hfirst, hrest⟩ := ha.ordered.tail hq
  obtain ⟨hordered, hp⟩ := id ha
  have hin (e : SimEvent) (he : e ∈ rest) : e ∈ h.sim.queue := hq ▸ List.mem_cons_of_mem _ he
  have hevent : event ∈ h.sim.queue := hq ▸ List.mem_cons_self
  have hlast (t : SimEvent) (ht : t ∈ h.sim.trace ++ [event]) : t ∈ h.sim.trace ∨ t = event :=
    (List.mem_append.mp ht).imp_right List.mem_singleton.mp
  constructor
  · exact {
      queue := hrest
      trace := List.pairwise_append.mpr ⟨hordered.trace, List.pairwise_singleton _ _,
        fun t ht e he => List.mem_singleton.mp he ▸ hordered.after t ht event hevent⟩
      after := fun t ht e he => by
        rcases hlast t ht with ht | rfl
        · exact hordered.after t ht e (hin e he)
        · exact hfirst e he
      future := fun e he => (hfirst e he).time_le
      past := fun t ht => by
        rcases hlast t ht with ht | rfl
        · exact (hordered.after t ht event hevent).time_le
        · exact le_rfl
      numbered := fun e he => by
        rcases he with he | he
        · rcases hlast e he with he | rfl
          · exact hordered.numbered e (.inl he)
          · exact hordered.numbered e (.inr hevent)
        · exact hordered.numbered e (.inr (hin e he)) }
  · exact {
      hp with
      trace := fun e he => by
        rcases hlast e he with he | rfl
        · obtain ⟨hscheduled, hqueue, hrevoked⟩ := hp.trace e he
          exact ⟨hscheduled, fun hm => hqueue (hin e hm), hrevoked⟩
        · exact ⟨(hp.queue e hevent).1, hnot, fun hr => hc ((hp.queue e hevent).2.mp hr)⟩
      queue := fun e he => hp.queue e (hin e he)
      gone := fun e he htrace hqueue => by
        simp only [Simulator.deliver, List.mem_append, List.mem_singleton, not_or] at htrace
        refine hp.gone e he htrace.1 fun hm => ?_
        rw [hq] at hm
        exact (List.mem_cons.mp hm).elim htrace.2 hqueue
      pending := ha.pending_pop hq
      tombstones := fun id hid => by
        refine Finset.mem_erase.mpr ⟨?_, hp.tombstones id hid⟩
        rintro rfl
        exact hc hid }

end Popping

theorem Accounted.advance (ha : Accounted h) (horizon : Option Time)
    (hlate : ∀ e ∈ h.sim.queue, ∀ t ∈ horizon, t < e.time) :
    Accounted { h with sim := h.sim.advance horizon } := by
  unfold Simulator.advance
  cases horizon with
  | none => exact ha
  | some t =>
    by_cases hlt : h.sim.now < t
    · simp only [if_pos hlt]
      refine ⟨?_, { ha.placed with }⟩
      exact {
        ha.ordered with
        future := fun e he => (hlate e he t rfl).le
        past := fun e he => (ha.ordered.past e he).trans hlt.le }
    · simp only [if_neg hlt]
      exact ha

end Steps

end Cadi
