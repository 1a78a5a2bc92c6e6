import Cadi.Simulator.Notices

namespace Cadi
open Library
set_option autoImplicit true

section Pending
variable {h : History}

theorem mem_pending_push (ha : Accounted h) (hnew : event.eventId ∉ h.sim.knownIds) :
    e ∈ (h.sim.push event).pendingEvents ↔ e = event ∨ e ∈ h.sim.pendingEvents := by
  have hlive : event.eventId ∉ h.sim.cancelled := fun hc => by
    obtain ⟨e', he', hid⟩ := (ha.placed.pending _).mp (ha.placed.tombstones _ hc)
    exact hnew ((ha.placed.known _).mpr ⟨e', (ha.placed.queue e' he').1, hid⟩)
  rw [mem_pendingEvents, mem_pendingEvents, mem_push_queue]
  simp only [Simulator.push]
  constructor
  · rintro ⟨rfl | he, hc⟩
    · exact .inl rfl
    · exact .inr ⟨he, hc⟩
  · rintro (rfl | ⟨he, hc⟩)
    · exact ⟨.inl rfl, hlive⟩
    · exact ⟨.inr he, hc⟩

theorem mem_pending_cancel (eventId : String) :
    e ∈ (h.perform (.cancel eventId)).2.sim.pendingEvents ↔
      e ∈ h.sim.pendingEvents ∧ (e.eventId = eventId → eventId ∉ h.sim.pendingIds) := by
  by_cases hc : eventId ∉ h.sim.pendingIds ∨ eventId ∈ h.sim.cancelled
  · simp only [History.perform, Simulator.cancel, if_pos hc]
    refine ⟨fun he => ⟨he, ?_⟩, fun he => he.1⟩
    rintro rfl
    exact hc.resolve_right (mem_pendingEvents.mp he).2
  · simp only [History.perform, Simulator.cancel, if_neg hc]
    simp only [not_or, not_not] at hc
    simp only [mem_pendingEvents, Finset.mem_insert, not_or]
    constructor
    · rintro ⟨he, hne, hlive⟩
      exact ⟨⟨he, hlive⟩, fun heq => (hne heq).elim⟩
    · rintro ⟨⟨he, hlive⟩, hn⟩
      exact ⟨he, fun heq => hn heq hc.1, hlive⟩

theorem mem_pending_deliver (hq : h.sim.queue = event :: rest)
    (hlive : event.eventId ∉ h.sim.cancelled) :
    e ∈ h.sim.pendingEvents ↔ e = event ∨ e ∈ (h.sim.deliver event rest).pendingEvents := by
  simp only [mem_pendingEvents, Simulator.deliver, Simulator.pop, hq, List.mem_cons, or_and_right]
  apply or_congr_left
  exact ⟨fun hc => hc.1, fun hc => ⟨hc, hc ▸ hlive⟩⟩

theorem mem_pending_discard (ha : Accounted h) (hq : h.sim.queue = event :: rest)
    (hc : event.eventId ∈ h.sim.cancelled) :
    e ∈ (h.sim.discard event rest).pendingEvents ↔ e ∈ h.sim.pendingEvents := by
  obtain ⟨_, hother⟩ := ha.popped hq
  simp only [mem_pendingEvents, Simulator.discard, Simulator.pop, hq, List.mem_cons, Finset.mem_erase,
    not_and]
  constructor
  · rintro ⟨he, hn⟩
    exact ⟨.inr he, hn (hother e he)⟩
  · rintro ⟨rfl | he, hn⟩
    · exact (hn hc).elim
    · exact ⟨he, fun _ => hn⟩

theorem pending_advance (sim : Simulator) (horizon : Option Time) :
    (sim.advance horizon).pendingEvents = sim.pendingEvents := by
  unfold Simulator.advance
  split
  · rfl
  · split <;> rfl

/-- The action schedules only what is in the first set and cancels nothing of the second. -/
def Action.Within (new : EventKind → Prop) (kept : String → Prop) : Action → Prop
  | .schedule r => new r.kind
  | .cancel eventId => ¬ kept eventId

/-- What is pending after some actions was so before or is new, and what must be kept is. -/
structure Pends (new : EventKind → Prop) (kept : String → Prop) (h h' : History) : Prop where
  accounted : Accounted h'
  now : h'.sim.now = h.sim.now
  old : ∀ e ∈ h'.sim.pendingEvents, e ∈ h.sim.pendingEvents ∨ new e.kind
  spared : ∀ e ∈ h.sim.pendingEvents, kept e.eventId → e ∈ h'.sim.pendingEvents

theorem Pends.refl (ha : Accounted h) : Pends new kept h h := ⟨ha, rfl, fun _ => .inl, fun _ he _ => he⟩

theorem Pends.trans (h₁ : Pends new kept h h') (h₂ : Pends new kept h' h'') :
    Pends new kept h h'' where
  accounted := h₂.accounted
  now := h₂.now.trans h₁.now
  old e he := (h₂.old e he).elim (h₁.old e) .inr
  spared e he hk := h₂.spared e (h₁.spared e he hk) hk

theorem Pends.perform (ha : Accounted h) (hw : Action.Within new kept action) :
    Pends new kept h (h.perform action).2 where
  accounted := ha.perform action
  now := now_perform h action
  old e he := by
    cases action with
    | schedule r =>
      cases hs : h.sim.schedule r with
      | error err =>
        simp only [History.perform, hs] at he
        exact .inl he
      | ok res =>
        obtain ⟨event, sim⟩ := res
        simp only [History.perform, hs] at he
        obtain ⟨rfl, _, _, hkind, _, _, _, hnew⟩ := schedule_eq_ok_iff.mp hs
        rcases (mem_pending_push ha hnew).mp he with rfl | he
        · exact .inr (hkind ▸ hw)
        · exact .inl he
    | cancel eventId => exact .inl ((mem_pending_cancel eventId).mp he).1
  spared e he hk := by
    cases action with
    | schedule r =>
      cases hs : h.sim.schedule r with
      | error err =>
        simp only [History.perform, hs]
        exact he
      | ok res =>
        obtain ⟨event, sim⟩ := res
        simp only [History.perform, hs]
        obtain ⟨rfl, _, _, _, _, _, _, hnew⟩ := schedule_eq_ok_iff.mp hs
        exact (mem_pending_push ha hnew).mpr (.inr he)
    | cancel eventId =>
      refine (mem_pending_cancel eventId).mpr ⟨he, ?_⟩
      rintro rfl
      exact (hw hk).elim

theorem Acts.pends (hs : Acts (Action.Within new kept) h h') (ha : Accounted h) :
    Pends new kept h h' := by
  induction hs with
  | refl => exact .refl ha
  | step _ hw ih => exact ih.trans (.perform ih.accounted hw)

end Pending

end Cadi
