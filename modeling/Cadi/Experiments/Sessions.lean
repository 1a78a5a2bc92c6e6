import Cadi.Experiments.Augmentation

namespace Cadi.Augmentation
open Library Fields Trace
set_option autoImplicit true

section Admission

/-- A record that opens a session: no record before is of it, and it has no links. -/
structure Root (before : List ContinuityAnnotation) (a : ContinuityAnnotation) : Prop where
  fresh : ∀ b ∈ before, b.sessionId ≠ a.sessionId
  parent : a.parentContinuationId = none
  branch : a.branchGroupId = none
  wait : a.toolWaitBeforeS = none

/-- A record that continues the session of the record before it. -/
structure Child (before : List ContinuityAnnotation) (a : ContinuityAnnotation) : Prop where
  last : ∃ b ∈ before.getLast?, b.sessionId = a.sessionId ∧
    (a.branchGroupId ≠ none ↔ a.parentContinuationId ≠ some b.continuationId)
  parent : ∃ b ∈ before, a.parentContinuationId = some b.continuationId ∧ b.sessionId = a.sessionId

/-- What the validator asks of an annotation after those before it. -/
structure Admissible (config : ContinuityAugmentationConfig) (before : List ContinuityAnnotation)
    (a : ContinuityAnnotation) : Prop where
  wait_mem : ∀ wait ∈ a.toolWaitBeforeS, wait ∈ config.toolWaitSeconds
  fault_mem : ∀ fault ∈ a.faultClass, fault ∈ config.faultClasses
  linked : Root before a ∨ Child before a

/-- The state of the validator after a list of annotations. -/
structure Walked (before : List ContinuityAnnotation) (w : Walk) : Prop where
  seen : ∀ c s, w.seenContinuations.get? c = some s ↔
    ∃ b ∈ before, b.continuationId.1 = c ∧ b.sessionId.1 = s
  current : w.currentSession = before.getLast?.map (·.sessionId.1)
  closed : ∀ s, some s ≠ w.currentSession → (s ∈ w.closedSessions ↔ ∃ b ∈ before, b.sessionId.1 = s)
  last : ∀ b ∈ before.getLast?, w.lastContinuationBySession.get? b.sessionId.1 = some b.continuationId.1

theorem walked_nil : Walked [] {} where
  seen _ _ := ⟨fun h => (nomatch h), fun ⟨_, hb, _⟩ => absurd hb List.not_mem_nil⟩
  current := rfl
  closed _ _ := ⟨fun h => absurd h List.not_mem_nil, fun ⟨_, hb, _⟩ => absurd hb List.not_mem_nil⟩
  last _ hb := nomatch hb

end Admission

section Steps
variable {before : List ContinuityAnnotation} {w : Walk} {a : ContinuityAnnotation}

theorem openSession_ok (hw : Walked before w) (hne : some a.sessionId.1 ≠ w.currentSession) :
    (∃ w', openSession w a = .ok w') ↔ Root before a := by
  have hclosed : a.sessionId.1 ∉ w.currentSession.toList ++ w.closedSessions ↔
      ∀ b ∈ before, b.sessionId ≠ a.sessionId := by
    have hcurrent : a.sessionId.1 ∉ w.currentSession.toList := fun h =>
      hne (Option.mem_toList.mp h).symm
    rw [List.mem_append, not_or, and_iff_right hcurrent, hw.closed _ hne]
    exact ⟨fun h b hb heq => h ⟨b, hb, congrArg Subtype.val heq⟩,
      fun h hex => hex.elim fun b hb => h b hb.1 (Subtype.ext hb.2)⟩
  simp only [openSession, Except.then_eq_ok, raiseIf_eq_ok, not_not, ne_eq, exists_and_left]
  constructor
  · intro h
    obtain ⟨h1, h2, h3, h4, _⟩ := h
    exact ⟨hclosed.mp h1, h2, h3, h4⟩
  · intro h
    exact ⟨hclosed.mpr h.fresh, h.parent, h.branch, h.wait, _, rfl⟩

theorem openSession_walk {w' : Walk} (h : openSession w a = .ok w') : w' =
    { w with closedSessions := w.currentSession.toList ++ w.closedSessions,
             currentSession := some a.sessionId.1 } := by
  simp only [openSession, Except.then_eq_ok] at h
  exact (Except.ok.inj h.2.2.2.2).symm

theorem continueSession_walk {w' : Walk} (h : continueSession w a = .ok w') : w' = w := by
  rw [continueSession] at h
  split at h
  next => cases h
  next parent _ =>
    split at h
    next => cases h
    next session _ =>
      rw [Except.then_eq_ok] at h
      replace h := h.2
      split at h
      next => cases h
      next previous _ =>
        simp only [Except.then_eq_ok] at h
        exact (Except.ok.inj h.2.2).symm

theorem continueSession_ok (hw : Walked before w) (heq : some a.sessionId.1 = w.currentSession) :
    (∃ w', continueSession w a = .ok w') ↔ Child before a := by
  rw [hw.current] at heq
  obtain ⟨last, hlast, hsession⟩ := Option.map_eq_some_iff.mp heq.symm
  have hprevious : w.lastContinuationBySession.get? a.sessionId.1 = some last.continuationId.1 := by
    rw [← hsession]
    exact hw.last last hlast
  have hchild : Child before a ↔
      (∃ b ∈ before, a.parentContinuationId = some b.continuationId ∧ b.sessionId = a.sessionId) ∧
      (a.branchGroupId ≠ none ↔ a.parentContinuationId ≠ some last.continuationId) := by
    constructor
    · intro h
      obtain ⟨⟨b, hb, _, hiff⟩, hparent⟩ := h
      obtain rfl := Option.some.inj (hb.symm.trans hlast)
      exact ⟨hparent, hiff⟩
    · intro h
      obtain ⟨hparent, hiff⟩ := h
      exact ⟨⟨last, hlast, Subtype.ext hsession, hiff⟩, hparent⟩
  rw [hchild, continueSession]
  cases hp : a.parentContinuationId with
  | none =>
    constructor
    · intro h
      obtain ⟨_, h⟩ := h
      cases h
    · intro h
      obtain ⟨⟨_, _, h, _⟩, _⟩ := h
      cases h
  | some parent =>
    dsimp only
    cases hseen : w.seenContinuations.get? parent.1 with
    | none =>
      constructor
      · intro h
        obtain ⟨_, h⟩ := h
        cases h
      · intro h
        obtain ⟨⟨b, hb, hparent, _⟩, _⟩ := h
        have hsome := (hw.seen parent.1 b.sessionId.1).mpr
          ⟨b, hb, (congrArg Subtype.val (Option.some.inj hparent)).symm, rfl⟩
        rw [hseen] at hsome
        cases hsome
    | some session =>
      dsimp only
      rw [hprevious]
      have hsame : session = a.sessionId.1 ↔
          ∃ b ∈ before, some parent = some b.continuationId ∧ b.sessionId = a.sessionId := by
        constructor
        · intro hs
          obtain ⟨b, hb, hc, hbs⟩ := (hw.seen parent.1 session).mp hseen
          exact ⟨b, hb, congrArg some (Subtype.ext hc.symm), Subtype.ext (hbs.trans hs)⟩
        · intro h
          obtain ⟨b, hb, hc, hbs⟩ := h
          have hsome := (hw.seen parent.1 b.sessionId.1).mpr
            ⟨b, hb, (congrArg Subtype.val (Option.some.inj hc)).symm, rfl⟩
          rw [hseen] at hsome
          exact (Option.some.inj hsome).trans (congrArg Subtype.val hbs)
      have hlinear : parent.1 = last.continuationId.1 ↔ some parent = some last.continuationId :=
        ⟨fun h => congrArg some (Subtype.ext h), fun h => congrArg Subtype.val (Option.some.inj h)⟩
      simp only [Except.then_eq_ok, raiseIf_eq_ok, not_not, ne_eq, exists_and_left, hsame, hlinear]
      constructor
      · intro h
        obtain ⟨hparent, hbranch, hno, _⟩ := h
        exact ⟨hparent, fun hb hl => hno ⟨hl, hb⟩, fun hl hb => hbranch ⟨hl, hb⟩⟩
      · intro h
        obtain ⟨hparent, hiff⟩ := h
        exact ⟨hparent, fun hlb => hiff.mpr hlb.1 hlb.2, fun hlb => hiff.mp hlb.2 hlb.1, _, rfl⟩

theorem enterSession_ok (hw : Walked before w) :
    (∃ w', enterSession w a = .ok w') ↔ Root before a ∨ Child before a := by
  rw [enterSession]
  by_cases hne : some a.sessionId.1 ≠ w.currentSession
  · rw [if_pos hne, openSession_ok hw hne]
    refine ⟨.inl, fun h => h.resolve_right fun ⟨⟨b, hb, hsession, _⟩, _⟩ => ?_⟩
    rw [hw.current, Option.mem_def.mp hb, Option.map_some, hsession] at hne
    exact hne rfl
  · rw [if_neg hne, continueSession_ok hw (not_not.mp hne)]
    refine ⟨.inr, fun h => h.resolve_left fun hroot => ?_⟩
    rw [not_not, hw.current] at hne
    obtain ⟨b, hb, hsession⟩ := Option.map_eq_some_iff.mp hne.symm
    exact hroot.fresh b (List.mem_of_getLast? hb) (Subtype.ext hsession)

variable {config : ContinuityAugmentationConfig}

/-- The validator passes exactly the admissible annotations. -/
theorem checkEntry_ok (hw : Walked before w) :
    (∃ w', checkEntry config w a = .ok w') ↔ Admissible config before a := by
  have hmem {α : Type} (o : Option α) (l : List α) : ¬ (∃ x ∈ o, x ∉ l) ↔ ∀ x ∈ o, x ∈ l :=
    ⟨fun h x hx => by_contra fun hn => h ⟨x, hx, hn⟩,
      fun h hex => hex.elim fun x hx => hx.2 (h x hx.1)⟩
  simp only [checkEntry, Except.then_eq_ok, raiseIf_eq_ok, hmem, exists_and_left]
  constructor
  · intro h
    obtain ⟨hwait, hfault, w', hw'⟩ := h
    obtain ⟨w'', hw'', _⟩ := Except.bind_eq_ok.mp hw'
    exact ⟨hwait, hfault, (enterSession_ok hw).mp ⟨w'', hw''⟩⟩
  · intro h
    obtain ⟨w', hw'⟩ := (enterSession_ok hw).mpr h.linked
    rw [hw']
    exact ⟨h.wait_mem, h.fault_mem, _, rfl⟩

theorem checkEntry_walked {w' : Walk} (hw : Walked before w)
    (hfresh : ∀ b ∈ before, b.continuationId ≠ a.continuationId)
    (h : checkEntry config w a = .ok w') : Walked (before ++ [a]) w' := by
  simp only [checkEntry, Except.then_eq_ok] at h
  obtain ⟨w₁, hw₁, hw'⟩ := Except.bind_eq_ok.mp h.2.2
  obtain rfl := Except.ok.inj hw'
  have hkept : w₁.seenContinuations = w.seenContinuations ∧ w₁.currentSession = some a.sessionId.1 ∧
      ∀ s, s ≠ a.sessionId.1 → (s ∈ w₁.closedSessions ↔ ∃ b ∈ before, b.sessionId.1 = s) := by
    rw [enterSession] at hw₁
    split at hw₁
    next hne =>
      rw [openSession_walk hw₁]
      refine ⟨rfl, rfl, fun s hs => ?_⟩
      dsimp only
      rw [List.mem_append, Option.mem_toList]
      by_cases hcurrent : some s = w.currentSession
      · rw [hw.current] at hcurrent
        obtain ⟨b, hb, hsession⟩ := Option.map_eq_some_iff.mp hcurrent.symm
        rw [hw.current, ← hcurrent]
        exact ⟨fun _ => ⟨b, List.mem_of_getLast? hb, hsession⟩, fun _ => .inl rfl⟩
      · rw [hw.closed s hcurrent]
        exact ⟨fun h => h.resolve_left fun hs => hcurrent hs.symm, .inr⟩
    next heq =>
      rw [not_not] at heq
      obtain rfl := continueSession_walk hw₁
      refine ⟨rfl, heq.symm, fun s hs => hw.closed s ?_⟩
      rw [← heq]
      exact fun h => hs (Option.some.inj h)
  obtain ⟨hseen, hcurrent, hclosed⟩ := hkept
  refine ⟨fun c s => ?_, ?_, fun s hs => ?_, fun b hb => ?_⟩
  · dsimp only
    rw [hseen, Dict.get?_set_eq_some_iff, hw.seen]
    simp only [List.mem_append, List.mem_singleton]
    constructor
    · rintro (⟨rfl, rfl⟩ | ⟨_, b, hb, hc, hs⟩)
      · exact ⟨a, .inr rfl, rfl, rfl⟩
      · exact ⟨b, .inl hb, hc, hs⟩
    · rintro ⟨b, hb | rfl, hc, hs⟩
      · exact .inr ⟨fun heq => hfresh b hb (Subtype.ext (hc.trans heq.symm)), b, hb, hc, hs⟩
      · exact .inl ⟨hc, hs⟩
  · rw [List.getLast?_concat]
    exact hcurrent
  · dsimp only at hs ⊢
    rw [hcurrent] at hs
    have hne : s ≠ a.sessionId.1 := fun h => hs (congrArg some h)
    rw [hclosed s hne]
    simp only [List.mem_append, List.mem_singleton]
    constructor
    · intro ⟨b, hb, hsession⟩
      exact ⟨b, .inl hb, hsession⟩
    · rintro ⟨b, hb | rfl, hsession⟩
      · exact ⟨b, hb, hsession⟩
      · exact absurd hsession.symm hne
  · rw [List.getLast?_concat] at hb
    obtain rfl := Option.some.inj hb
    dsimp only
    rw [Dict.get?_set, if_pos rfl]

end Steps

section Runs
variable {config : ContinuityAugmentationConfig}

/-- The validator passes a list exactly when each annotation is admissible after those before it. -/
theorem foldlM_checkEntry {before l : List ContinuityAnnotation} {w : Walk} (hw : Walked before w)
    (hnodup : ((before ++ l).map (·.continuationId)).Nodup) :
    (∃ w', l.foldlM (checkEntry config) w = .ok w') ↔
      ∀ (i : Nat) (h : i < l.length), Admissible config (before ++ l.take i) l[i] := by
  induction l generalizing before w with
  | nil => exact ⟨fun _ i hi => absurd hi (Nat.not_lt_zero i), fun _ => ⟨w, rfl⟩⟩
  | cons a l ih =>
    have hfresh : ∀ b ∈ before, b.continuationId ≠ a.continuationId := by
      rw [List.map_append, List.map_cons, List.nodup_append] at hnodup
      exact fun b hb => hnodup.2.2 _ (List.mem_map_of_mem hb) _ List.mem_cons_self
    have hnodup' : ((before ++ [a] ++ l).map (·.continuationId)).Nodup := by
      rw [List.append_assoc]
      exact hnodup
    have hindex : (∀ (i : Nat) (h : i < (a :: l).length),
        Admissible config (before ++ (a :: l).take i) (a :: l)[i]) ↔ Admissible config before a ∧
          ∀ (i : Nat) (h : i < l.length), Admissible config (before ++ [a] ++ l.take i) l[i] := by
      constructor
      · intro h
        refine ⟨?_, fun i hi => ?_⟩
        · have h0 := h 0 (Nat.succ_pos _)
          rwa [List.take_zero, List.append_nil] at h0
        · have hsucc := h (i + 1) (Nat.succ_lt_succ hi)
          rw [List.take_succ_cons] at hsucc
          rw [List.append_assoc]
          exact hsucc
      · intro ⟨h0, hsucc⟩ i hi
        cases i with
        | zero =>
          rw [List.take_zero, List.append_nil]
          exact h0
        | succ i =>
          have hi' := hsucc i (Nat.lt_of_succ_lt_succ hi)
          rw [List.append_assoc] at hi'
          exact hi'
    rw [hindex, List.foldlM_cons]
    constructor
    · intro ⟨w', h⟩
      obtain ⟨w₁, hw₁, h⟩ := Except.bind_eq_ok.mp h
      exact ⟨(checkEntry_ok hw).mp ⟨w₁, hw₁⟩,
        (ih (checkEntry_walked hw hfresh hw₁) hnodup').mp ⟨w', h⟩⟩
    · intro ⟨h0, hsucc⟩
      obtain ⟨w₁, hw₁⟩ := (checkEntry_ok hw).mpr h0
      obtain ⟨w', hw'⟩ := (ih (checkEntry_walked hw hfresh hw₁) hnodup').mpr hsucc
      refine ⟨w', ?_⟩
      rw [hw₁, Except.ok_bind]
      exact hw'

end Runs

end Cadi.Augmentation
