import Cadi.Retention.Runs

namespace Cadi.Retention
open Library
set_option autoImplicit true

section Effects

/-- A fold of two effects that commute is the fold of the one after the fold of the other. -/
theorem foldl_comp_of_commute {f g : α → β → α} (hcomm : ∀ t a b, f (g t a) b = g (f t b) a)
    (l : List β) (t : α) : l.foldl (fun t a => g (f t a) a) t = l.foldl g (l.foldl f t) := by
  have hpast (l : List β) (t : α) (a : β) : l.foldl f (g t a) = g (l.foldl f t) a := by
    induction l generalizing t with
    | nil => rfl
    | cons b l ih =>
      rw [List.foldl_cons, List.foldl_cons, hcomm]
      exact ih _
  induction l generalizing t with
  | nil => rfl
  | cons a l ih =>
    rw [List.foldl_cons, List.foldl_cons, List.foldl_cons, ih, hpast]

namespace Truth

/-- What an invalidation does to the truth of a State. -/
def invalidate (k : String) (t : Truth) (e : RetentionEvent) : Truth :=
  if e.action = .invalidate k then { t with valid := false } else t

/-- What an update of the dependents does to the truth of a State. -/
def derive (k : String) (t : Truth) (e : RetentionEvent) : Truth :=
  match e.action with
  | .dependents k' lifecycles =>
    match deriveStateLifecycle lifecycles with
    | .ok lifecycle => if k' = k then { t with lifecycle } else t
    | .error _ => t
  | _ => t

/-- What an admission does to the truth of a State. -/
def produce (k : String) (t : Truth) (e : RetentionEvent) : Truth :=
  if e.action = .admission k then { t with produced := true } else t

/-- What an event does to the truth of a State. -/
def advance (k : String) (t : Truth) (e : RetentionEvent) : Truth :=
  ((t.invalidate k e).derive k e).produce k e

theorem derive_invalidate : (invalidate k t a).derive k b = (t.derive k b).invalidate k a := by
  unfold derive invalidate
  split
  · split
    · split
      · split <;> rfl
      · rfl
    · rfl
  · rfl

theorem produce_invalidate : (invalidate k t a).produce k b = (t.produce k b).invalidate k a := by
  unfold produce invalidate
  split
  · split <;> rfl
  · rfl

theorem produce_derive : (derive k t a).produce k b = (t.produce k b).derive k a := by
  unfold produce derive
  split
  · split
    · split
      · split <;> rfl
      · rfl
    · rfl
  · rfl

/-- The events of an instant may act by their phases. -/
theorem foldl_advance (k : String) (events : List RetentionEvent) (t : Truth) :
    events.foldl (advance k) t =
      events.foldl (produce k) (events.foldl (derive k) (events.foldl (invalidate k) t)) := by
  have hfirst : events.foldl (advance k) t = events.foldl (produce k)
      (events.foldl (fun t e => (t.invalidate k e).derive k e) t) := by
    apply foldl_comp_of_commute (f := fun t e => (invalidate k t e).derive k e) (g := produce k)
    intro t a b
    rw [← produce_invalidate, ← produce_derive]
  rw [hfirst]
  congr 1
  apply foldl_comp_of_commute
  intro t a b
  exact (derive_invalidate (a := b) (b := a)).symm

theorem foldl_produce (k : String) (events : List RetentionEvent) (t : Truth) :
    (events.foldl (produce k) t).valid = t.valid ∧
      (events.foldl (produce k) t).lifecycle = t.lifecycle ∧
      (t.produced = true → (events.foldl (produce k) t).produced = true) := by
  induction events generalizing t with
  | nil => exact ⟨rfl, rfl, id⟩
  | cons e events ih =>
    obtain ⟨hvalid, hlifecycle, hproduced⟩ := ih (t.produce k e)
    rw [List.foldl_cons, hvalid, hlifecycle]
    unfold produce at hproduced ⊢
    split at hproduced
    · next he =>
      rw [if_pos he]
      exact ⟨rfl, rfl, fun _ => hproduced rfl⟩
    · next he =>
      rw [if_neg he]
      exact ⟨rfl, rfl, hproduced⟩

end Truth

end Effects

section Truths
variable {truth : Dict String Truth} {c : RetentionProgramCase}

theorem advanceTruth_get? (h : advanceTruth truth e = .ok truth') (k : String) :
    truth'.get? k = (truth.get? k).map (·.advance k e) := by
  unfold advanceTruth at h
  unfold Truth.advance Truth.produce Truth.derive Truth.invalidate
  cases hact : e.action with
  | invalidate k' =>
    rw [hact] at h
    obtain ⟨t, ht, hset⟩ := Except.bind_eq_ok.mp h
    obtain rfl := Except.pure_eq_ok.mp hset
    rw [item_eq_ok] at ht
    rw [Dict.get?_set]
    split
    · next he =>
      subst he
      simp only [ht, Option.map_some, ↓reduceIte, reduceCtorEq]
    · next he =>
      simp only [RetentionAction.invalidate.injEq, he, ↓reduceIte, reduceCtorEq, Option.map_id']
  | dependents k' lifecycles =>
    rw [hact] at h
    obtain ⟨l, hl, h⟩ := Except.bind_eq_ok.mp h
    obtain ⟨t, ht, hset⟩ := Except.bind_eq_ok.mp h
    obtain rfl := Except.pure_eq_ok.mp hset
    rw [item_eq_ok] at ht
    rw [Dict.get?_set]
    split
    · next he =>
      subst he
      simp only [ht, hl, Option.map_some, ↓reduceIte, reduceCtorEq]
    · next he => simp only [hl, he, ↓reduceIte, reduceCtorEq, Option.map_id']
  | admission k' =>
    rw [hact] at h
    obtain ⟨t, ht, hset⟩ := Except.bind_eq_ok.mp h
    obtain rfl := Except.pure_eq_ok.mp hset
    rw [item_eq_ok] at ht
    rw [Dict.get?_set]
    split
    · next he =>
      subst he
      simp only [ht, Option.map_some, ↓reduceIte, reduceCtorEq]
    · next he =>
      simp only [RetentionAction.admission.injEq, he, ↓reduceIte, reduceCtorEq, Option.map_id']
  | sessionStatus s live =>
    rw [hact] at h
    cases h
    simp only [reduceCtorEq, ↓reduceIte, Option.map_id']
  | reuse k' valid =>
    rw [hact] at h
    cases h
    simp only [reduceCtorEq, ↓reduceIte, Option.map_id']

theorem advanceTruths_get? {events : List RetentionEvent}
    (h : events.foldlM advanceTruth truth = .ok truth') (k : String) :
    truth'.get? k = (truth.get? k).map fun t => events.foldl (Truth.advance k) t := by
  induction events generalizing truth with
  | nil =>
    rw [List.foldlM_nil, Except.pure_eq_ok] at h
    subst h
    simp only [List.foldl_nil, Option.map_id']
  | cons e events ih =>
    rw [List.foldlM_cons, Except.bind_eq_ok] at h
    obtain ⟨next, hnext, hrest⟩ := h
    rw [ih hrest, advanceTruth_get? hnext, Option.map_map]
    rfl

namespace Cache
variable {v : Cache}

theorem settle_get? (v : Cache) (e : RetentionEvent) (k : String) :
    (v.settle e).truth.get? k = (v.truth.get? k).map (·.invalidate k e) := by
  unfold settle Truth.invalidate
  cases hact : e.action with
  | invalidate k' =>
    dsimp only
    cases ht : v.truth.get? k' with
    | none =>
      by_cases he : k' = k
      · subst he
        rw [ht]
        rfl
      · simp only [RetentionAction.invalidate.injEq, he, ↓reduceIte, Option.map_id']
    | some t =>
      have hset : (v.settle e).truth = v.truth.set k' { t with valid := false } := by
        simp only [settle, hact, ht]
        split <;> rfl
      simp only [settle, hact, ht] at hset
      rw [hset, Dict.get?_set]
      split
      · next he =>
        subst he
        simp only [ht, Option.map_some, ↓reduceIte]
      · next he => simp only [RetentionAction.invalidate.injEq, he, ↓reduceIte, Option.map_id']
  | _ => simp only [reduceCtorEq, ↓reduceIte, Option.map_id']

theorem update_get? (v : Cache) (e : RetentionEvent) (k : String) :
    (v.update e).truth.get? k = (v.truth.get? k).map (·.derive k e) := by
  unfold update Truth.derive
  cases hact : e.action with
  | dependents k' lifecycles =>
    dsimp only
    cases hl : deriveStateLifecycle lifecycles with
    | error x =>
      simp only [Option.map_id']
      split
      · next h => cases h
      · rfl
    | ok l =>
      cases ht : v.truth.get? k' with
      | none =>
        by_cases he : k' = k
        · subst he
          dsimp only
          rw [ht]
          rfl
        · simp only [he, ↓reduceIte, Option.map_id']
      | some t =>
        dsimp only
        rw [mark_truth, setTruth_truth, Dict.get?_set]
        split
        · next he =>
          subst he
          simp only [ht, Option.map_some]
        · simp only [Option.map_id']
  | _ => simp only [mark_truth, Option.map_id']

theorem settles_get? (events : List RetentionEvent) (v : Cache) (k : String) :
    (events.foldl settle v).truth.get? k =
      (v.truth.get? k).map fun t => events.foldl (Truth.invalidate k) t := by
  induction events generalizing v with
  | nil => simp only [List.foldl_nil, Option.map_id']
  | cons e events ih =>
    rw [List.foldl_cons, ih, settle_get?, Option.map_map]
    rfl

theorem updates_get? (events : List RetentionEvent) (v : Cache) (k : String) :
    (events.foldl update v).truth.get? k =
      (v.truth.get? k).map fun t => events.foldl (Truth.derive k) t := by
  induction events generalizing v with
  | nil => simp only [List.foldl_nil, Option.map_id']
  | cons e events ih =>
    rw [List.foldl_cons, ih, update_get?, Option.map_map]
    rfl

end Cache

end Truths

end Cadi.Retention
