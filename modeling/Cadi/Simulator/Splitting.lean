import Cadi.Library.Extent
import Cadi.Simulator.Notices

namespace Cadi
open Library
set_option autoImplicit true

section Calls
variable {ω : Type}

/-- The call of `run` is in progress, and no handler is about to raise. -/
def Control.busy : Control ω → Bool
  | .idle => false
  | .looping _ => true
  | .handling _ _ (.raise _ _) _ => false
  | .handling _ _ _ _ => true

/-- How a call of `run` ends: it returns, or an exception of a handler escapes from it. -/
inductive RunEnds : Machine ω → Option PyError → Machine ω → Prop where
  | returns : m.control = .idle → RunEnds m none m
  | raises : m.control = .handling l event (.raise e world) rest →
    RunEnds m (some e) { m with world, control := .idle }
  | tick : m.control.busy = true → RunEnds (m.step .tick) outcome m' → RunEnds m outcome m'

/-- The call in progress gets from one point to the other. -/
inductive Ticks : Machine ω → Machine ω → Prop where
  | refl (m : Machine ω) : Ticks m m
  | tick : m.control.busy = true → Ticks (m.step .tick) m' → Ticks m m'

/-- Successive calls of `run`, none of which moves time past the limit. A call whose arguments are
refused changes nothing; the calls stop with the first exception of a handler. -/
inductive Calls (limit : Time) : Machine ω → Option PyError → Machine ω → Prop where
  | none (m : Machine ω) : Calls limit m none m
  | raised : RunEnds (m.step (.run until' maxEvents)) (some e) m' → m'.history.sim.now ≤ limit →
    Calls limit m (some e) m'
  | next : RunEnds (m.step (.run until' maxEvents)) none m' → m'.history.sim.now ≤ limit →
    Calls limit m' outcome m'' → Calls limit m outcome m''

/-- The call in progress moves time past the limit. -/
def Passes (limit : Time) (m : Machine ω) : Prop := ∃ m', Ticks m m' ∧ limit < m'.history.sim.now

/-- The two machines show the same to their users. -/
structure Agree (m m' : Machine ω) : Prop where
  trace : m.history.sim.trace = m'.history.sim.trace
  pending : m.history.sim.pendingEvents = m'.history.sim.pendingEvents
  nextSequence : m.history.sim.nextSequence = m'.history.sim.nextSequence
  now : m.history.sim.now = m'.history.sim.now
  knownIds : m.history.sim.knownIds = m'.history.sim.knownIds
  world : m.world = m'.world

theorem Agree.refl (m : Machine ω) : Agree m m := ⟨rfl, rfl, rfl, rfl, rfl, rfl⟩

theorem Agree.symm {m m' : Machine ω} (h : Agree m m') : Agree m' m :=
  ⟨h.trace.symm, h.pending.symm, h.nextSequence.symm, h.now.symm, h.knownIds.symm, h.world.symm⟩

theorem Agree.trans {m m' m'' : Machine ω} (h : Agree m m') (h' : Agree m' m'') : Agree m m'' :=
  ⟨h.trace.trans h'.trace, h.pending.trans h'.pending, h.nextSequence.trans h'.nextSequence,
    h.now.trans h'.now, h.knownIds.trans h'.knownIds, h.world.trans h'.world⟩

variable {m m' s : Machine ω}

theorem Ticks.ends (h : Ticks m m') (he : RunEnds m' outcome s) : RunEnds m outcome s := by
  induction h with
  | refl => exact he
  | tick hbusy _ ih => exact .tick hbusy (ih he)

/-- A call is in one state at a time. -/
theorem Ticks.rest (h : Ticks m m') (he : RunEnds m outcome s) : RunEnds m' outcome s := by
  induction h with
  | refl => exact he
  | tick hbusy _ ih =>
    cases he with
    | returns hidle =>
      rw [hidle] at hbusy
      cases hbusy
    | raises hraise =>
      rw [hraise] at hbusy
      cases hbusy
    | tick _ hrest => exact ih hrest

theorem RunEnds.of_idle (hidle : m.control = .idle) (h : RunEnds m outcome m') :
    outcome = none ∧ m' = m := by
  cases h with
  | returns => exact ⟨rfl, rfl⟩
  | raises hraise =>
    rw [hidle] at hraise
    cases hraise
  | tick hbusy =>
    rw [hidle] at hbusy
    cases hbusy

/-- A call ends in one way. -/
theorem RunEnds.unique (h : RunEnds m o m') (h' : RunEnds m o' m'') : o = o' ∧ m' = m'' := by
  induction h with
  | returns hidle =>
    obtain ⟨rfl, rfl⟩ := h'.of_idle hidle
    exact ⟨rfl, rfl⟩
  | raises hraise =>
    cases h' with
    | returns hidle =>
      rw [hidle] at hraise
      cases hraise
    | raises hraise' =>
      rw [hraise] at hraise'
      cases hraise'
      exact ⟨rfl, rfl⟩
    | tick hbusy =>
      rw [hraise] at hbusy
      cases hbusy
  | tick hbusy _ ih => exact ih ((Ticks.tick hbusy (.refl _)).rest h')

end Calls

section Loops
variable {ω : Type} {limit : Time} {h h' : History} {l : Loop} {world : ω}
  {handlers : EventKind → List (Handler ω)}

def History.withNow (h : History) (now : Time) : History := { h with sim := { h.sim with now } }

/-- No event is left in the queue up to the limit. -/
def Late (limit : Time) (sim : Simulator) : Prop := ∀ e ∈ sim.queue, limit < e.time

/-- What a pass through the head of the loop does: it ends the call, drops a cancelled event or
delivers an event. -/
inductive Pass (h : History) (l : Loop) (handlers : EventKind → List (Handler ω)) (world : ω) :
    Machine ω → Prop where
  | finished : (∀ e ∈ h.sim.queue, ∃ t ∈ l.horizon, t < e.time) →
    Pass h l handlers world ⟨{ h with sim := h.sim.advance l.horizon }, handlers, world, .idle⟩
  | dropped : h.sim.queue = event :: rest → (∀ t ∈ l.horizon, event.time ≤ t) →
    event.eventId ∈ h.sim.cancelled →
    Pass h l handlers world ⟨{ h with sim := h.sim.discard event rest }, handlers, world, .looping l⟩
  | delivered : h.sim.queue = event :: rest → (∀ t ∈ l.horizon, event.time ≤ t) →
    event.eventId ∉ h.sim.cancelled →
    Pass h l handlers world ⟨{ h with sim := h.sim.deliver event rest }, handlers, world,
      .handling { l with processed := l.processed + 1 } event (.done world) (handlers event.kind)⟩

theorem step_looping (ha : Accounted h) :
    Pass h l handlers world ((⟨h, handlers, world, .looping l⟩ : Machine ω).step .tick) := by
  change Pass h l handlers world (Machine.loop _ l)
  cases hq : h.sim.queue with
  | nil =>
    simp only [Machine.loop, hq]
    apply Pass.finished
    intro e he
    rw [hq] at he
    cases he
  | cons event rest =>
    have hevent : event ∈ h.sim.queue := hq ▸ List.mem_cons_self
    simp only [Machine.loop, hq]
    by_cases hhorizon : ∃ t ∈ l.horizon, t < event.time
    · simp only [if_pos hhorizon]
      apply Pass.finished
      intro e he
      obtain ⟨t, ht, hlt⟩ := hhorizon
      refine ⟨t, ht, ?_⟩
      rw [hq] at he
      rcases List.mem_cons.mp he with rfl | he
      · exact hlt
      · exact hlt.trans_le ((ha.ordered.tail hq).1 e he).time_le
    · simp only [if_neg hhorizon]
      have hwithin : ∀ t ∈ l.horizon, event.time ≤ t :=
        fun t ht => Time.not_lt.mp fun hlt => hhorizon ⟨t, ht, hlt⟩
      by_cases hcancelled : event.eventId ∈ h.sim.cancelled
      · simp only [if_pos hcancelled]
        exact .dropped hq hwithin hcancelled
      · simp only [if_neg hcancelled, if_neg (Time.not_lt.mpr (ha.ordered.future event hevent))]
        exact .delivered hq hwithin hcancelled

theorem Late.of_horizon (hlate : ∀ e ∈ h.sim.queue, ∃ t ∈ l.horizon, t < e.time)
    (hl : l.horizon = some limit) : Late limit h.sim := by
  intro e he
  obtain ⟨t, ht, hlt⟩ := hlate e he
  rw [hl, Option.mem_some_iff] at ht
  exact ht ▸ hlt

theorem late_ends (ha : Accounted h) (hlate : Late limit h.sim) (hl : l.horizon = some limit) :
    RunEnds ⟨h, handlers, world, .looping l⟩ none
      ⟨{ h with sim := h.sim.advance l.horizon }, handlers, world, .idle⟩ := by
  apply RunEnds.tick rfl
  have hpass : Pass h l handlers world _ := step_looping ha
  generalize Machine.step _ _ = m at hpass ⊢
  cases hpass with
  | finished _ => exact .returns rfl
  | dropped hq hwithin _ | delivered hq hwithin _ =>
    have hlt := hlate _ (hq ▸ List.mem_cons_self)
    exact absurd (hwithin limit hl) (Time.not_le.mpr hlt)

theorem pending_discard (ha : Accounted h) (hq : h.sim.queue = event :: rest)
    (hc : event.eventId ∈ h.sim.cancelled) :
    (h.sim.discard event rest).pendingEvents = h.sim.pendingEvents := by
  rw [Simulator.pendingEvents, Simulator.pendingEvents, hq, List.filter_cons_of_neg (by simpa using hc)]
  apply List.filter_congr
  intro e he
  have hne := (ha.popped hq).2 e he
  simp only [Simulator.discard, Simulator.pop, Finset.mem_erase, ne_eq, hne, not_false_eq_true,
    true_and]

end Loops

section Following
variable {ω : Type} {limit : Time}

/-- A call of `run(until=limit)` that has delivered some events. -/
def untilLimit (limit : Time) (processed : Int) : Loop :=
  { horizon := some limit, maxEvents := none, processed }

/-- Two times within the limit that are the same number if they are equal in value. -/
structure Level (limit a b : Time) : Prop where
  left : a ≤ limit
  right : b ≤ limit
  same : a ≤ b → b ≤ a → a = b

theorem Level.refl (h : a ≤ limit) : Level limit a a := ⟨h, h, fun _ _ => rfl⟩

theorem Level.symm (h : Level limit a b) : Level limit b a :=
  ⟨h.right, h.left, fun hle hle' => (h.same hle' hle).symm⟩

theorem Time.eq_of_pos {a b c : Time} (hc : c < a) (hle : a ≤ b) (hle' : b ≤ a) : a = b := by
  rw [Time.le_iff] at hle hle'
  rw [Time.lt_iff] at hc
  obtain ⟨na, ua, ra, sa⟩ := a
  obtain ⟨nb, ub, rb, sb⟩ := b
  obtain rfl : ua = ub := Nat.le_antisymm hle hle'
  have hpos : ua ≠ 0 := Nat.ne_of_gt (Nat.zero_lt_of_lt hc)
  cases na with
  | true => exact absurd (sa rfl) hpos
  | false =>
    cases nb with
    | true => exact absurd (sb rfl) hpos
    | false => rfl

theorem Level.of_lt (h : Level limit a b) (hlt : a < a') (hle : a' ≤ limit) : Level limit a' b :=
  ⟨hle, h.right, fun hab hba => Time.eq_of_pos hlt hab hba⟩

theorem advance_now (sim : Simulator) (horizon : Option Time) :
    (sim.advance horizon).now = sim.now ∨ sim.now < (sim.advance horizon).now := by
  unfold Simulator.advance
  split
  · exact .inl rfl
  · split
    · next hlt => exact .inr hlt
    · exact .inl rfl

theorem Level.advance {sim : Simulator} (h : Level limit sim.now b)
    (hle : (sim.advance horizon).now ≤ limit) :
    Level limit (sim.advance horizon).now b := by
  rcases advance_now sim horizon with heq | hlt
  · rw [heq]
    exact h
  · exact h.of_lt hlt hle

theorem queue_advance (sim : Simulator) (horizon : Option Time) :
    (sim.advance horizon).queue = sim.queue := by
  unfold Simulator.advance
  split
  · rfl
  · split <;> rfl

/-- What users see of a simulator, but for its time. -/
structure SameView (sim sim' : Simulator) : Prop where
  trace : sim.trace = sim'.trace
  pending : sim.pendingEvents = sim'.pendingEvents
  nextSequence : sim.nextSequence = sim'.nextSequence
  knownIds : sim.knownIds = sim'.knownIds

theorem SameView.refl (sim : Simulator) : SameView sim sim := ⟨rfl, rfl, rfl, rfl⟩

theorem SameView.symm (h : SameView sim sim') : SameView sim' sim :=
  ⟨h.trace.symm, h.pending.symm, h.nextSequence.symm, h.knownIds.symm⟩

theorem SameView.trans (h : SameView sim sim') (h' : SameView sim' sim'') : SameView sim sim'' :=
  ⟨h.trace.trans h'.trace, h.pending.trans h'.pending, h.nextSequence.trans h'.nextSequence,
    h.knownIds.trans h'.knownIds⟩

theorem SameView.advance (sim : Simulator) (horizon : Option Time) :
    SameView (sim.advance horizon) sim := by
  unfold Simulator.advance
  split
  · exact .refl _
  · split <;> exact ⟨rfl, rfl, rfl, rfl⟩

/-- A call in progress, and the one that runs until the limit at the same point. Between two events
their times may differ. -/
inductive Follows (limit : Time) : Machine ω → Machine ω → Prop where
  | looping : Level limit h.sim.now now → Follows limit ⟨h, handlers, world, .looping l⟩
      ⟨h.withNow now, handlers, world, .looping (untilLimit limit n)⟩
  | handling : h.sim.now ≤ limit → Follows limit ⟨h, handlers, world, .handling l event script rest⟩
      ⟨h, handlers, world, .handling (untilLimit limit n) event script rest⟩

/-- A call has returned, and the one that runs until the limit stands at the head of its loop: at
the same point, or both with nothing left up to the limit. -/
inductive Behind (limit : Time) : Machine ω → Machine ω → Prop where
  | level : Level limit h.sim.now now → Behind limit ⟨h, handlers, world, .idle⟩
      ⟨h.withNow now, handlers, world, .looping (untilLimit limit n)⟩
  | drained : Level limit h.sim.now h'.sim.now → SameView h.sim h'.sim → Late limit h.sim →
    Late limit h'.sim → Behind limit ⟨h, handlers, world, .idle⟩
      ⟨h', handlers, world, .looping (untilLimit limit n)⟩

/-- The call that runs until the limit ends as the partial one does, or goes on from its point. -/
inductive Absorbed (limit : Time) (s : Machine ω) : Option PyError → Machine ω → Prop where
  | raised : RunEnds s (some e) m → Absorbed limit s (some e) m
  | goesOn : Ticks s s' → Steady s' → Behind limit m s' → Absorbed limit s none m

variable {p s m : Machine ω}

theorem Absorbed.tick (hbusy : s.control.busy = true) (h : Absorbed limit (s.step .tick) o m) :
    Absorbed limit s o m := by
  cases h with
  | raised he => exact .raised (.tick hbusy he)
  | goesOn ht hs hb => exact .goesOn (.tick hbusy ht) hs hb

theorem RunEnds.later (hp : Steady p) (h : RunEnds p o m) : Later p.history m.history := by
  induction h with
  | returns => exact .refl _
  | raises => exact .refl _
  | tick _ _ ih => exact (hp.step .tick).2.trans (ih (hp.step .tick).1)

theorem drained_ends {h : History} (h' : History) (hends : RunEnds ⟨h, handlers, world, .looping l⟩ o m)
    (ha : Accounted h) (hm : m.history.sim.now ≤ limit) (hlevel : Level limit h.sim.now h'.sim.now)
    (hview : SameView h.sim h'.sim) (hlate : Late limit h.sim) (hlate' : Late limit h'.sim) (n : Int) :
    o = none ∧ Behind limit m ⟨h', handlers, world, .looping (untilLimit limit n)⟩ := by
  generalize hp : (⟨h, handlers, world, .looping l⟩ : Machine _) = p at hends
  induction hends generalizing h with
  | returns hidle =>
    subst hp
    cases hidle
  | raises hraise =>
    subst hp
    cases hraise
  | tick hbusy hrest ih =>
    subst hp
    have hpass : Pass h l handlers world _ := step_looping ha
    generalize hnext : Machine.step _ _ = next at hpass hrest ih
    cases hpass with
    | finished _ =>
      obtain ⟨rfl, rfl⟩ := hrest.of_idle rfl
      refine ⟨rfl, .drained (hlevel.advance hm) ((SameView.advance _ _).trans hview) ?_ hlate'⟩
      rwa [Late, queue_advance]
    | @dropped event rest hq _ hcancelled =>
      have hrest' : Late limit (h.sim.discard event rest) :=
        fun e he => hlate e (hq ▸ List.mem_cons_of_mem _ he)
      have hview' : SameView (h.sim.discard event rest) h.sim :=
        ⟨rfl, pending_discard ha hq hcancelled, rfl, rfl⟩
      exact ih (ha.discard hq hcancelled) hm hlevel (hview'.trans hview) hrest' rfl
    | @delivered event rest hq _ hcancelled =>
      -- the delivery has moved time past the limit
      have hlater := hrest.later (.of_handling (ha.deliver hq hcancelled) rfl rfl)
      have hpast : limit < event.time := hlate event (hq ▸ List.mem_cons_self)
      exact absurd (hlater.now.trans hm) (Time.not_le.mpr hpast)

section Until
variable (h : History) (handlers : EventKind → List (Handler ω)) (world : ω)

/-- Up to the limit the longer call takes the same event off the queue. -/
theorem until_dropped (n : Int) (hq : h.sim.queue = event :: rest) (hle : event.time ≤ limit)
    (hc : event.eventId ∈ h.sim.cancelled) :
    (⟨h, handlers, world, .looping (untilLimit limit n)⟩ : Machine ω).step .tick =
      ⟨{ h with sim := h.sim.discard event rest }, handlers, world, .looping (untilLimit limit n)⟩ := by
  have hwithin : ¬ ∃ t ∈ (untilLimit limit n).horizon, t < event.time := by
    rintro ⟨t, ⟨rfl⟩, hlt⟩
    exact Time.not_le.mpr hlt hle
  change Machine.loop _ _ = _
  simp only [Machine.loop, hq, if_neg hwithin, if_pos hc]
  rfl

theorem until_delivered (n : Int) (ha : Accounted h) (hq : h.sim.queue = event :: rest)
    (hle : event.time ≤ limit) (hc : event.eventId ∉ h.sim.cancelled) :
    (⟨h, handlers, world, .looping (untilLimit limit n)⟩ : Machine ω).step .tick =
      ⟨{ h with sim := h.sim.deliver event rest }, handlers, world,
        .handling (untilLimit limit (n + 1)) event (.done world) (handlers event.kind)⟩ := by
  have hwithin : ¬ ∃ t ∈ (untilLimit limit n).horizon, t < event.time := by
    rintro ⟨t, ⟨rfl⟩, hlt⟩
    exact Time.not_le.mpr hlt hle
  have hfuture := ha.ordered.future event (hq ▸ List.mem_cons_self)
  change Machine.loop _ _ = _
  simp only [Machine.loop, hq, if_neg hwithin, if_neg hc, if_neg (Time.not_lt.mpr hfuture)]
  rfl

theorem step_handled (world' : ω) (l : Loop) (event : SimEvent) :
    (⟨h, handlers, world, .handling l event (.done world') []⟩ : Machine ω).step .tick =
      ⟨h, handlers, world', if ∃ n ∈ l.maxEvents, n ≤ l.processed then .idle else .looping l⟩ := by
  simp only [Machine.step, Machine.handle]
  split <;> rfl

theorem until_handled (limit : Time) (world' : ω) (event : SimEvent) (n : Int) :
    (⟨h, handlers, world, .handling (untilLimit limit n) event (.done world') []⟩ : Machine ω).step
      .tick = ⟨h, handlers, world', .looping (untilLimit limit n)⟩ := by
  have hnone : ¬ ∃ k ∈ (untilLimit limit n).maxEvents, k ≤ (untilLimit limit n).processed := by
    rintro ⟨_, ⟨⟩, _⟩
  rw [step_handled, if_neg hnone]

end Until

theorem withNow_advance (h : History) (horizon : Option Time) (now : Time) :
    ({ h with sim := h.sim.advance horizon } : History).withNow now = h.withNow now := by
  unfold History.withNow Simulator.advance
  dsimp only
  split
  · rfl
  · split <;> rfl

theorem head_le {h : History} (ha : Accounted h) (hq : h.sim.queue = event :: rest)
    (hlate : ¬ Late limit h.sim) : event.time ≤ limit := by
  rw [Late, hq, not_forall] at hlate
  obtain ⟨e, hlate⟩ := hlate
  rw [Classical.not_imp, Time.not_lt] at hlate
  obtain ⟨he, hle⟩ := hlate
  rcases List.mem_cons.mp he with rfl | he
  · exact hle
  · exact ((ha.ordered.tail hq).1 e he).time_le.trans hle

/-- A partial call that stays within the limit is a part of the call that runs until the limit. -/
theorem Follows.absorbed (hf : Follows limit p s) (hp : Steady p) (hs : Steady s)
    (hends : RunEnds p o m) (hm : m.history.sim.now ≤ limit) : Absorbed limit s o m := by
  induction hends generalizing s with
  | returns hidle => cases hf <;> cases hidle
  | raises hraise =>
    cases hf with
    | looping _ => cases hraise
    | handling _ =>
      cases hraise
      exact .raised (.raises rfl)
  | tick hbusy hrest ih =>
    have hp' := (hp.step .tick).1
    have hs' := (hs.step .tick).1
    cases hf with
    | @looping now h handlers world l n hlevel =>
      by_cases hlate : Late limit h.sim
      · obtain ⟨rfl, hbehind⟩ := drained_ends (h.withNow now) (.tick hbusy hrest) hp.accounted hm
          hlevel ⟨rfl, rfl, rfl, rfl⟩ hlate hlate n
        exact .goesOn (.refl _) hs hbehind
      · have hpass : Pass h l handlers world _ := step_looping hp.accounted
        generalize Machine.step _ _ = next at hpass hrest ih hp'
        cases hpass with
        | finished _ =>
          obtain ⟨rfl, rfl⟩ := hrest.of_idle rfl
          have hbehind : Behind limit
              ⟨{ h with sim := h.sim.advance l.horizon }, handlers, world, .idle⟩
              ⟨({ h with sim := h.sim.advance l.horizon } : History).withNow now, handlers, world,
                .looping (untilLimit limit n)⟩ := .level (hlevel.advance hm)
          rw [withNow_advance] at hbehind
          exact .goesOn (.refl _) hs hbehind
        | dropped hq _ hcancelled =>
          have hstep := until_dropped (h.withNow now) handlers world n hq
            (head_le hp.accounted hq hlate) hcancelled
          rw [hstep] at hs'
          apply Absorbed.tick rfl
          rw [hstep]
          exact ih (.looping hlevel) hp' hs' hm
        | delivered hq _ hcancelled =>
          have hle := head_le hp.accounted hq hlate
          have hstep := until_delivered (h.withNow now) handlers world n hs.accounted hq hle hcancelled
          rw [hstep] at hs'
          apply Absorbed.tick rfl
          rw [hstep]
          exact ih (.handling hle) hp' hs' hm
    | @handling h handlers world l event script rest n hle =>
      cases script with
      | act action k =>
        apply Absorbed.tick rfl
        apply ih (.handling _) hp' hs' hm
        exact (now_perform h action).le.trans hle
      | raise e world' => cases hbusy
      | done world' =>
        apply Absorbed.tick rfl
        cases rest with
        | cons handler rest => exact ih (.handling hle) hp' hs' hm
        | nil =>
          have hstep := until_handled h handlers world limit world' event n
          rw [hstep] at hs' ⊢
          have hnext := step_handled h handlers world world' l event
          by_cases hlimit : ∃ n ∈ l.maxEvents, n ≤ l.processed
          · rw [if_pos hlimit] at hnext
            rw [hnext] at hrest
            obtain ⟨rfl, rfl⟩ := hrest.of_idle rfl
            exact .goesOn (.refl _) hs' (.level (.refl hle))
          · rw [if_neg hlimit] at hnext
            rw [hnext] at hp' ih
            exact ih (.looping (.refl hle)) hp' hs' hm

/-- The horizon of the call in progress is within the limit. -/
inductive Bounded (limit : Time) : Control ω → Prop where
  | idle : Bounded limit .idle
  | looping : l.horizon = some t → t ≤ limit → Bounded limit (.looping l)
  | handling : l.horizon = some t → t ≤ limit → Bounded limit (.handling l event script rest)

theorem advance_le {sim : Simulator} {t : Time} (hsim : sim.now ≤ limit) (ht : t ≤ limit) :
    (sim.advance (some t)).now ≤ limit := by
  rw [Simulator.advance]
  split
  · exact ht
  · exact hsim

theorem Bounded.step (hc : Bounded limit m.control) (hs : Steady m)
    (hm : m.history.sim.now ≤ limit) (hbusy : m.control.busy = true) :
    Bounded limit (m.step .tick).control ∧ (m.step .tick).history.sim.now ≤ limit := by
  obtain ⟨h, handlers, world, control⟩ := m
  cases hc with
  | idle => cases hbusy
  | @looping t l hl ht =>
    have hpass : Pass h l handlers world _ := step_looping hs.accounted
    generalize Machine.step _ _ = next at hpass ⊢
    cases hpass with
    | finished _ =>
      rw [hl]
      exact ⟨.idle, advance_le hm ht⟩
    | dropped _ _ _ => exact ⟨.looping hl ht, hm⟩
    | delivered _ hwithin _ => exact ⟨.handling hl ht, (hwithin t hl).trans ht⟩
  | @handling t l event script rest hl ht =>
    cases script with
    | act action k => exact ⟨.handling hl ht, (now_perform h action).le.trans hm⟩
    | raise e world' => cases hbusy
    | done world' =>
      cases rest with
      | cons handler rest => exact ⟨.handling hl ht, hm⟩
      | nil =>
        rw [step_handled]
        split
        · exact ⟨.idle, hm⟩
        · exact ⟨.looping hl ht, hm⟩

theorem Bounded.ends (hc : Bounded limit m.control) (hs : Steady m)
    (hm : m.history.sim.now ≤ limit) (h : RunEnds m o m') : m'.history.sim.now ≤ limit := by
  induction h with
  | returns => exact hm
  | raises => exact hm
  | tick hbusy _ ih =>
    obtain ⟨hc', hm'⟩ := hc.step hs hm hbusy
    exact ih hc' (hs.step .tick).1 hm'

theorem Bounded.not_passes (hc : Bounded limit m.control) (hs : Steady m)
    (hm : m.history.sim.now ≤ limit) : ¬ Passes limit m := by
  rintro ⟨m', hticks, hpast⟩
  induction hticks with
  | refl => exact Time.not_lt.mpr hm hpast
  | tick hbusy _ ih =>
    obtain ⟨hc', hm'⟩ := hc.step hs hm hbusy
    exact ih hc' (hs.step .tick).1 hm' hpast

/-- The call in progress is one that runs until the limit. -/
inductive Until (limit : Time) : Control ω → Prop where
  | looping : Until limit (.looping (untilLimit limit n))
  | handling : Until limit (.handling (untilLimit limit n) event script rest)

theorem Until.bounded {control : Control ω} (h : Until limit control) : Bounded limit control := by
  cases h with
  | looping => exact .looping rfl le_rfl
  | handling => exact .handling rfl le_rfl

theorem limit_le_advance (sim : Simulator) (limit : Time) : limit ≤ (sim.advance (some limit)).now := by
  rw [Simulator.advance]
  split
  · exact le_rfl
  · next hlt => exact Time.not_lt.mp hlt

theorem Until.ends (hc : Until limit m.control) (hs : Steady m) (h : RunEnds m none m') :
    Late limit m'.history.sim ∧ limit ≤ m'.history.sim.now := by
  generalize ho : none = o at h
  induction h with
  | returns hidle =>
    rw [hidle] at hc
    cases hc
  | raises => cases ho
  | @tick outcome m' m hbusy hrest ih =>
    have hs' := (hs.step .tick).1
    obtain ⟨h, handlers, world, control⟩ := m
    cases hc with
    | @looping n =>
      have hpass : Pass h (untilLimit limit n) handlers world _ := step_looping hs.accounted
      generalize Machine.step _ _ = next at hpass hrest hs' ih
      cases hpass with
      | finished hlate =>
        obtain ⟨_, rfl⟩ := hrest.of_idle rfl
        refine ⟨?_, limit_le_advance _ _⟩
        rw [Late, queue_advance]
        exact Late.of_horizon hlate rfl
      | dropped _ _ _ => exact ih .looping hs' ho
      | delivered _ _ _ => exact ih .handling hs' ho
    | @handling n event script rest =>
      cases script with
      | act action k => exact ih .handling hs' ho
      | raise e world' => cases hbusy
      | done world' =>
        cases rest with
        | cons handler rest => exact ih .handling hs' ho
        | nil =>
          rw [until_handled] at ih hs'
          exact ih .looping hs' ho

theorem Level.advance_eq {sim : Simulator} (h : Level limit a sim.now) (hle : limit ≤ a) :
    a = (sim.advance (some limit)).now := by
  rw [Simulator.advance]
  split
  · next hlt => exact (Time.eq_of_pos hlt hle h.left).symm
  · next hlt =>
    have hlimit := Time.not_lt.mp hlt
    exact h.same (h.left.trans hlimit) (h.right.trans hle)

theorem Behind.ends (hb : Behind limit m s) (hs : Steady s) (hlate : Late limit m.history.sim)
    (hnow : limit ≤ m.history.sim.now) : ∃ s', RunEnds s none s' ∧ Agree m s' := by
  cases hb with
  | @level now h handlers world n hlevel =>
    refine ⟨_, late_ends hs.accounted hlate rfl, ?_⟩
    have hview := (SameView.advance (h.withNow now).sim (some limit)).symm
    exact ⟨hview.trace, hview.pending, hview.nextSequence, hlevel.advance_eq hnow, hview.knownIds, rfl⟩
  | drained hlevel hsame _ hlate' =>
    refine ⟨_, late_ends hs.accounted hlate' rfl, ?_⟩
    have hview := hsame.trans (SameView.advance _ (some limit)).symm
    exact ⟨hview.trace, hview.pending, hview.nextSequence, hlevel.advance_eq hnow, hview.knownIds, rfl⟩

theorem Follows.ends (hf : Follows limit p s) (hu : Until limit p.control) (hp : Steady p)
    (hs : Steady s) (hnow : p.history.sim.now ≤ limit) (hends : RunEnds p o m) :
    ∃ s', RunEnds s o s' ∧ Agree m s' := by
  have habsorbed := hf.absorbed hp hs hends (hu.bounded.ends hp hnow hends)
  cases habsorbed with
  | raised he => exact ⟨m, he, .refl m⟩
  | goesOn hticks hs' hb =>
    obtain ⟨hlate, hle⟩ := hu.ends hp hends
    obtain ⟨s', hends', hagree⟩ := hb.ends hs' hlate hle
    exact ⟨s', hticks.ends hends', hagree⟩

/-- The machine after the call `run(until=limit)` has begun. -/
def Machine.begun (m : Machine ω) (limit : Time) : Machine ω :=
  { m with control := .looping (untilLimit limit 0) }

/-- Beginning the longer call anew changes nothing to the end. -/
theorem Behind.begun (hb : Behind limit m s) (hm : Steady m) (hs : Steady s) :
    (∀ o m', RunEnds (m.begun limit) o m' → ∃ s', RunEnds s o s' ∧ Agree m' s') ∧
      ∀ o s', RunEnds s o s' → ∃ m', RunEnds (m.begun limit) o m' ∧ Agree s' m' := by
  have hbegun : Steady (m.begun limit) := .of_not_handling hm.accounted rfl
  cases hb with
  | @level now h handlers world n hlevel =>
    constructor
    · intro o m' hends
      exact Follows.ends (.looping hlevel) .looping hbegun hs hlevel.left hends
    · intro o s' hends
      have hf : Follows limit ⟨h.withNow now, handlers, world, .looping (untilLimit limit n)⟩
          ⟨(h.withNow now).withNow h.sim.now, handlers, world, .looping (untilLimit limit 0)⟩ :=
        .looping hlevel.symm
      exact hf.ends .looping hs hbegun hlevel.right hends
  | drained hlevel hview hlate hlate' =>
    rename_i h handlers world h' n
    have hends : RunEnds ((⟨h, handlers, world, .idle⟩ : Machine ω).begun limit) none
        ⟨{ h with sim := h.sim.advance (some limit) }, handlers, world, .idle⟩ :=
      late_ends hm.accounted hlate rfl
    have hlate₁ : Late limit (h.sim.advance (some limit)) := by rwa [Late, queue_advance]
    have hb' : Behind limit ⟨{ h with sim := h.sim.advance (some limit) }, handlers, world, .idle⟩
        ⟨h', handlers, world, .looping (untilLimit limit n)⟩ :=
      .drained (hlevel.advance (advance_le hlevel.left le_rfl))
        ((SameView.advance _ (some limit)).trans hview)
        hlate₁ hlate'
    obtain ⟨s', hs', hagree⟩ := hb'.ends hs hlate₁ (limit_le_advance _ _)
    constructor
    · intro o m' h
      obtain ⟨rfl, rfl⟩ := h.unique hends
      exact ⟨s', hs', hagree⟩
    · intro o s'' h
      obtain ⟨rfl, rfl⟩ := h.unique hs'
      exact ⟨_, hends, hagree.symm⟩

/-- The call ends within the limit or passes it. -/
def Settles (limit : Time) (p : Machine ω) : Prop :=
  (∃ o m, RunEnds p o m ∧ m.history.sim.now ≤ limit) ∨ Passes limit p

theorem Settles.tick (hbusy : p.control.busy = true) (h : Settles limit (p.step .tick)) :
    Settles limit p := by
  rcases h with ⟨o, m, hends, hle⟩ | ⟨m, hticks, hlt⟩
  · exact .inl ⟨o, m, .tick hbusy hends, hle⟩
  · exact .inr ⟨m, .tick hbusy hticks, hlt⟩

theorem Settles.idle (hidle : m.control = .idle) : Settles limit m := by
  by_cases hle : m.history.sim.now ≤ limit
  · exact .inl ⟨none, m, .returns hidle, hle⟩
  · exact .inr ⟨m, .refl m, Time.not_le.mp hle⟩

theorem Settles.past (h : limit < m.history.sim.now) : Settles limit m := .inr ⟨m, .refl m, h⟩

/-- A call that finds nothing left up to the limit drops the cancelled events, and then it ends or
delivers an event past the limit. -/
theorem late_settles {h : History} (ha : Accounted h) (hlate : Late limit h.sim)
    (handlers : EventKind → List (Handler ω)) (world : ω) (l : Loop) :
    Settles limit ⟨h, handlers, world, .looping l⟩ := by
  generalize hqueue : h.sim.queue = queue
  induction queue generalizing h with
  | nil =>
    apply Settles.tick rfl
    have hpass : Pass h l handlers world _ := step_looping ha
    generalize Machine.step _ _ = next at hpass ⊢
    cases hpass with
    | finished _ => exact .idle rfl
    | dropped hq _ _ | delivered hq _ _ =>
      rw [hqueue] at hq
      cases hq
  | cons event rest ih =>
    apply Settles.tick rfl
    have hpass : Pass h l handlers world _ := step_looping ha
    generalize Machine.step _ _ = next at hpass ⊢
    cases hpass with
    | finished _ => exact .idle rfl
    | dropped hq _ hcancelled =>
      have hrest := hq
      rw [hqueue] at hrest
      cases hrest
      refine ih (ha.discard hq hcancelled) (fun e he => hlate e ?_) rfl
      exact hq ▸ List.mem_cons_of_mem _ he
    | delivered hq _ _ => exact .past (hlate _ (hq ▸ List.mem_cons_self))

/-- While the longer call goes on to its end, a partial one ends within the limit or passes it. -/
theorem Follows.settles (hf : Follows limit p s) (hp : Steady p) (hs : Steady s)
    (hends : RunEnds s o m) : Settles limit p := by
  induction hends generalizing p with
  | returns hidle => cases hf <;> cases hidle
  | raises hraise =>
    cases hf with
    | looping _ => cases hraise
    | handling hle =>
      cases hraise
      exact .inl ⟨_, _, .raises rfl, hle⟩
  | tick hbusy hrest ih =>
    have hp' := (hp.step .tick).1
    have hs' := (hs.step .tick).1
    cases hf with
    | @looping now h handlers world l n hlevel =>
      by_cases hlate : Late limit h.sim
      · exact late_settles hp.accounted hlate handlers world l
      · apply Settles.tick rfl
        have hpass : Pass h l handlers world _ := step_looping hp.accounted
        generalize Machine.step _ _ = next at hpass hp' ⊢
        cases hpass with
        | finished _ => exact .idle rfl
        | dropped hq _ hcancelled =>
          have hstep := until_dropped (h.withNow now) handlers world n hq
            (head_le hp.accounted hq hlate) hcancelled
          rw [hstep] at hs' ih
          exact ih (.looping hlevel) hp' hs'
        | delivered hq _ hcancelled =>
          have hle := head_le hp.accounted hq hlate
          have hstep := until_delivered (h.withNow now) handlers world n hs.accounted hq hle hcancelled
          rw [hstep] at hs' ih
          exact ih (.handling hle) hp' hs'
    | @handling h handlers world l event script rest n hle =>
      cases script with
      | act action k =>
        apply Settles.tick rfl
        apply ih (.handling _) hp' hs'
        exact (now_perform h action).le.trans hle
      | raise e world' => cases hbusy
      | done world' =>
        apply Settles.tick rfl
        cases rest with
        | cons handler rest => exact ih (.handling hle) hp' hs'
        | nil =>
          rw [until_handled] at hs' ih
          rw [step_handled] at hp' ⊢
          split
          · exact .idle rfl
          · next hlimit =>
            rw [if_neg hlimit] at hp'
            exact ih (.looping (.refl hle)) hp' hs'

end Following

section Splitting
variable {ω : Type} {limit : Time} {m m' : Machine ω}

theorem step_run_until (hidle : m.control = .idle) (hb : finiteNonnegative b "until" = .ok limit)
    (hm : m.history.sim.now ≤ limit) : m.step (.run (some b) none) = m.begun limit := by
  have henter : Machine.enterRun m.history.sim (some b) none = .ok (untilLimit limit 0) := by
    have hhorizon : Machine.horizonOf (some b) = .ok (some limit) := Except.map_eq_ok.mpr ⟨limit, hb, rfl⟩
    have hpast : ¬ ∃ t ∈ some limit, t < m.history.sim.now := by
      rintro ⟨t, ⟨rfl⟩, hlt⟩
      exact Time.not_le.mpr hlt hm
    have hlimit : ¬ ∃ n ∈ (none : Option Int), n ≤ 0 := by
      rintro ⟨_, ⟨⟩, _⟩
    simp only [Machine.enterRun, hhorizon, Except.ok_bind, raiseIf, if_neg hpast, if_neg hlimit]
    rfl
  obtain ⟨h, handlers, world, control⟩ := m
  obtain rfl : control = .idle := hidle
  simp only [Machine.step, henter]
  rfl

theorem step_run_cases (hidle : m.control = .idle) (until' : Option Number) (maxEvents : Option Int) :
    m.step (.run until' maxEvents) = m ∨
      ∃ l, m.step (.run until' maxEvents) = { m with control := .looping l } := by
  obtain ⟨h, handlers, world, control⟩ := m
  obtain rfl : control = .idle := hidle
  simp only [Machine.step]
  split
  · exact .inr ⟨_, rfl⟩
  · exact .inl rfl

/-- What splitting the call `run(until=b)` preserves. -/
structure Splits (b : Number) (limit : Time) (m : Machine ω) : Prop where
  /-- The last of the calls ends as the single one does. -/
  continues : ∀ m₁, Calls limit m none m₁ → ∀ o m', RunEnds (m₁.step (.run (some b) none)) o m' →
    ∃ m'', RunEnds (m.step (.run (some b) none)) o m'' ∧ Agree m' m''
  /-- When the single call ends, the last of the calls does. -/
  completes : ∀ m₁, Calls limit m none m₁ → ∀ o m'', RunEnds (m.step (.run (some b) none)) o m'' →
    ∃ m', RunEnds (m₁.step (.run (some b) none)) o m' ∧ Agree m'' m'
  /-- An exception that escapes from one of the calls escapes from the single one. -/
  raises : ∀ e m₁, Calls limit m (some e) m₁ →
    ∃ m'', RunEnds (m.step (.run (some b) none)) (some e) m'' ∧ Agree m₁ m''
  /-- When the single call ends, each of the calls does, unless it passes the limit. -/
  returns : ∀ m₁, Calls limit m none m₁ → ∀ o m'', RunEnds (m.step (.run (some b) none)) o m'' →
    ∀ until' maxEvents, Settles limit (m₁.step (.run until' maxEvents))
  /-- No call with a horizon within the limit passes it. -/
  within : m.history.sim.now ≤ limit → ∀ m₁, Calls limit m none m₁ → ∀ a t maxEvents,
    finiteNonnegative a "until" = .ok t → t ≤ limit →
      ¬ Passes limit (m₁.step (.run (some a) maxEvents))

theorem RunEnds.idle (h : RunEnds m o m') : m'.control = .idle := by
  induction h with
  | returns hidle => exact hidle
  | raises => rfl
  | tick _ _ ih => exact ih

theorem RunEnds.steady (hs : Steady m) (h : RunEnds m o m') : Steady m' := by
  induction h with
  | returns => exact hs
  | raises => exact .of_not_handling hs.accounted rfl
  | tick _ _ ih => exact ih (hs.step .tick).1

theorem run_follows (hidle : m.control = .idle) (hm : m.history.sim.now ≤ limit)
    (until' : Option Number) (maxEvents : Option Int) :
    m.step (.run until' maxEvents) = m ∨
      Follows limit (m.step (.run until' maxEvents)) (m.begun limit) := by
  rcases step_run_cases hidle until' maxEvents with heq | ⟨l, heq⟩
  · exact .inl heq
  · right
    rw [heq]
    obtain ⟨h, handlers, world, control⟩ := m
    have hf : Follows limit ⟨h, handlers, world, .looping l⟩
        ⟨h.withNow h.sim.now, handlers, world, .looping (untilLimit limit 0)⟩ := .looping (.refl hm)
    exact hf

theorem Steady.begun (hs : Steady m) : Steady (m.begun limit) := .of_not_handling hs.accounted rfl

/-- A call that stays within the limit is the beginning of the one that runs until it. -/
theorem first_absorbed (hs : Steady m) (hidle : m.control = .idle)
    (hends : RunEnds (m.step (.run until' maxEvents)) o m') (hm' : m'.history.sim.now ≤ limit) :
    m.history.sim.now ≤ limit ∧ Absorbed limit (m.begun limit) o m' := by
  have hlater := (hs.step (.run until' maxEvents)).2.trans (hends.later (hs.step _).1)
  have hm : m.history.sim.now ≤ limit := hlater.now.trans hm'
  refine ⟨hm, ?_⟩
  rcases run_follows hidle hm until' maxEvents with heq | hf
  · rw [heq] at hends
    obtain ⟨rfl, rfl⟩ := hends.of_idle hidle
    obtain ⟨h, handlers, world, control⟩ := m'
    obtain rfl : control = .idle := hidle
    exact .goesOn (.refl _) hs.begun (.level (.refl hm))
  · exact hf.absorbed (hs.step _).1 hs.begun hends hm'

/-- The call `run(until=b)` ends alike from both points. -/
def Alike (b : Number) (m m₁ : Machine ω) : Prop :=
  (∀ o m', RunEnds (m₁.step (.run (some b) none)) o m' →
    ∃ m'', RunEnds (m.step (.run (some b) none)) o m'' ∧ Agree m' m'') ∧
  ∀ o m'', RunEnds (m.step (.run (some b) none)) o m'' →
    ∃ m', RunEnds (m₁.step (.run (some b) none)) o m' ∧ Agree m'' m'

theorem Alike.refl (b : Number) (m : Machine ω) : Alike b m m :=
  ⟨fun _ m' h => ⟨m', h, .refl m'⟩, fun _ m' h => ⟨m', h, .refl m'⟩⟩

theorem Alike.trans {m m₁ m₂ : Machine ω} (h : Alike b m m₁) (h' : Alike b m₁ m₂) : Alike b m m₂ := by
  constructor
  · intro o s hends
    obtain ⟨s', hends', hagree⟩ := h'.1 o s hends
    obtain ⟨s'', hends'', hagree'⟩ := h.1 o s' hends'
    exact ⟨s'', hends'', hagree.trans hagree'⟩
  · intro o s hends
    obtain ⟨s', hends', hagree⟩ := h.2 o s hends
    obtain ⟨s'', hends'', hagree'⟩ := h'.2 o s' hends'
    exact ⟨s'', hends'', hagree.trans hagree'⟩

/-- A call that returns within the limit leaves the end of the longer one as it is. -/
theorem alike_call (hs : Steady m) (hidle : m.control = .idle)
    (hb : finiteNonnegative b "until" = .ok limit)
    (hends : RunEnds (m.step (.run until' maxEvents)) none m')
    (hm' : m'.history.sim.now ≤ limit) : Alike b m m' := by
  obtain ⟨hm, habsorbed⟩ := first_absorbed hs hidle hends hm'
  have hsteady := hends.steady (hs.step _).1
  rw [Alike, step_run_until hidle hb hm, step_run_until hends.idle hb hm']
  cases habsorbed with
  | goesOn hticks hs₁ hbehind =>
    obtain ⟨hto, hfrom⟩ := hbehind.begun hsteady hs₁
    constructor
    · intro o m₁ hends₁
      obtain ⟨s', hends', hagree⟩ := hto o m₁ hends₁
      exact ⟨s', hticks.ends hends', hagree⟩
    · intro o m₁ hends₁
      exact hfrom o m₁ (hticks.rest hends₁)

theorem calls_returned (hs : Steady m) (hidle : m.control = .idle)
    (hb : finiteNonnegative b "until" = .ok limit) (h : Calls limit m none m') :
    Steady m' ∧ m'.control = .idle ∧ Alike b m m' ∧
      (m.history.sim.now ≤ limit → m'.history.sim.now ≤ limit) := by
  generalize ho : none = o at h
  induction h with
  | none => exact ⟨hs, hidle, .refl b _, id⟩
  | raised => cases ho
  | next hends hle _ ih =>
    obtain ⟨hs', hidle', halike, hwithin⟩ := ih (hends.steady (hs.step _).1) hends.idle ho
    exact ⟨hs', hidle', (alike_call hs hidle hb hends hle).trans halike, fun _ => hwithin hle⟩

theorem calls_escaped (hs : Steady m) (hidle : m.control = .idle)
    (hb : finiteNonnegative b "until" = .ok limit) (h : Calls limit m (some e) m') :
    ∃ m'', RunEnds (m.step (.run (some b) none)) (some e) m'' ∧ Agree m' m'' := by
  generalize ho : some e = o at h
  induction h with
  | none => cases ho
  | raised hends hle =>
    cases ho
    obtain ⟨hm, habsorbed⟩ := first_absorbed hs hidle hends hle
    rw [step_run_until hidle hb hm]
    cases habsorbed with
    | raised hends' => exact ⟨_, hends', .refl _⟩
  | next hends hle _ ih =>
    obtain ⟨m₂, hends₂, hagree⟩ := ih (hends.steady (hs.step _).1) hends.idle ho
    obtain ⟨m₃, hends₃, hagree'⟩ := (alike_call hs hidle hb hends hle).1 _ m₂ hends₂
    exact ⟨m₃, hends₃, hagree.trans hagree'⟩

theorem call_settles (hs : Steady m) (hidle : m.control = .idle)
    (hb : finiteNonnegative b "until" = .ok limit)
    (hends : RunEnds (m.step (.run (some b) none)) o m') (until' : Option Number)
    (maxEvents : Option Int) : Settles limit (m.step (.run until' maxEvents)) := by
  by_cases hm : m.history.sim.now ≤ limit
  · rcases run_follows hidle hm until' maxEvents with heq | hf
    · rw [heq]
      exact .idle hidle
    · rw [step_run_until hidle hb hm] at hends
      exact hf.settles (hs.step _).1 hs.begun hends
  · have hlater := (hs.step (.run until' maxEvents)).2
    exact .past ((Time.not_le.mp hm).trans_le hlater.now)

theorem call_within (hs : Steady m) (hidle : m.control = .idle) (hm : m.history.sim.now ≤ limit)
    (ha : finiteNonnegative a "until" = .ok t) (ht : t ≤ limit) (maxEvents : Option Int) :
    ¬ Passes limit (m.step (.run (some a) maxEvents)) := by
  have hbounded : Bounded limit (m.step (.run (some a) maxEvents)).control ∧
      (m.step (.run (some a) maxEvents)).history.sim.now ≤ limit := by
    obtain ⟨h, handlers, world, control⟩ := m
    obtain rfl : control = .idle := hidle
    simp only [Machine.step]
    split
    · next l henter =>
      have hhorizon : l.horizon = some t := by
        obtain ⟨horizon, hof, hrest⟩ := Except.bind_eq_ok.mp henter
        obtain ⟨_, hrest⟩ := Except.then_eq_ok.mp hrest
        obtain ⟨_, hrest⟩ := Except.then_eq_ok.mp hrest
        obtain ⟨t', ht', rfl⟩ := Except.map_eq_ok.mp hof
        rw [ha, Except.ok.injEq] at ht'
        rw [← Except.pure_eq_ok.mp hrest, ht']
      exact ⟨.looping hhorizon ht, hm⟩
    · exact ⟨.idle, hm⟩
  exact hbounded.1.not_passes (hs.step _).1 hbounded.2

/-- Cutting the call `run(until=b)` into others that do not pass `b` changes nothing, wherever the
cuts fall and whatever the handlers schedule and cancel. -/
theorem run_splits (world : ω) (inputs : List (Input ω))
    (hidle : (run Machine.step { world } inputs).control = .idle)
    (hb : finiteNonnegative b "until" = .ok limit) :
    Splits b limit (run Machine.step { world } inputs) := by
  have hs : Steady (run Machine.step { world } inputs) :=
    invariant_run (A := fun _ _ => True) (.of_not_handling .empty rfl)
      (fun _ input hm _ => (hm.step input).1) (.trivial (fun _ _ => True.intro) _ _)
  constructor
  · intro m₁ hcalls
    exact (calls_returned hs hidle hb hcalls).2.2.1.1
  · intro m₁ hcalls
    exact (calls_returned hs hidle hb hcalls).2.2.1.2
  · intro e m₁ hcalls
    exact calls_escaped hs hidle hb hcalls
  · intro m₁ hcalls o m'' hends until' maxEvents
    obtain ⟨hs₁, hidle₁, halike, _⟩ := calls_returned hs hidle hb hcalls
    obtain ⟨m', hends', _⟩ := halike.2 o m'' hends
    exact call_settles hs₁ hidle₁ hb hends' until' maxEvents
  · intro hm m₁ hcalls a t maxEvents ha ht
    obtain ⟨hs₁, hidle₁, _, hwithin⟩ := calls_returned hs hidle hb hcalls
    exact call_within hs₁ hidle₁ (hwithin hm) ha ht maxEvents

/-- The run until one second of two events at time zero, of which the first cancels the other. -/
theorem run_splits_cancelled :
    let cancels : Handler Unit := fun _ _ _ => .act (.cancel "late") fun _ _ => .done ()
    let second : Time := ⟨false, 2 ^ 1074, Binary64.one_representable, nofun⟩
    Splits second.toNumber second (run Machine.step { world := () }
      [.registerHandler .toolReturned cancels,
        .perform (.schedule { kind := .toolReturned, eventId := some "early" }),
        .perform (.schedule { kind := .toolReturned, eventId := some "late" })]) := by
  apply run_splits
  · rfl
  · exact finiteNonnegative_toNumber _ "until"

end Splitting

end Cadi
