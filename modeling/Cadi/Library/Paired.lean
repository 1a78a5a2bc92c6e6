import Cadi.Library.Checked
import Cadi.Library.Runs

namespace Library
set_option autoImplicit true

/-- Two results are the same, and the states they come in are related. -/
def Matches (R : σ → τ → Prop) : EStateM.Result ε σ α → EStateM.Result ε τ α → Prop
  | .ok a s, .ok b t => a = b ∧ R s t
  | .error e s, .error e' t => e = e' ∧ R s t
  | _, _ => False

/-- What a computation returned or raised, apart from the state it left. -/
def outcomeOf : EStateM.Result ε σ α → Except ε α
  | .ok a _ => .ok a
  | .error e _ => .error e

theorem eq_error_of_outcome {r : EStateM.Result ε σ α} (h : outcomeOf r = .error e) :
    r = .error e (finalState r) := by
  cases r with
  | ok a s => cases h
  | error e' s => cases h; rfl

/-- From these states the two computations return the same or raise the same, and end in related
states. -/
def Paired (R : σ → τ → Prop) (x : EStateM ε σ α) (y : EStateM ε τ α) (s : σ) (t : τ) : Prop :=
  Matches R (x s) (y t)

namespace Paired
variable {R : σ → τ → Prop} {x : EStateM ε σ α} {y : EStateM ε τ α} {f : α → EStateM ε σ β}
  {g : α → EStateM ε τ β} {s : σ} {t : τ}

theorem pure (h : R s t) : Paired R (Pure.pure a : EStateM ε σ α) (Pure.pure a) s t := ⟨rfl, h⟩

theorem throw (h : R s t) :
    Paired R (MonadExcept.throw e : EStateM ε σ α) (MonadExcept.throw e) s t := ⟨rfl, h⟩

theorem get_bind {f : σ → EStateM ε σ β} {g : τ → EStateM ε τ β} (h : Paired R (f s) (g t) s t) :
    Paired R (get >>= f) (get >>= g) s t := h

theorem modify_bind {f : PUnit → EStateM ε σ β} {g : PUnit → EStateM ε τ β} {u : σ → σ} {v : τ → τ}
    (h : Paired R (f ⟨⟩) (g ⟨⟩) (u s) (v t)) : Paired R (modify u >>= f) (modify v >>= g) s t := h

/-- Two checks that agree, made before the rest. -/
theorem lift_bind {x y : Except ε α} (h : R s t) (hxy : x = y)
    (hf : ∀ a, x = .ok a → Paired R (f a) (g a) s t) :
    Paired R (liftM x >>= f) (liftM y >>= g) s t := by
  subst hxy
  cases x with
  | ok a => exact hf a rfl
  | error e => exact ⟨rfl, h⟩

theorem lift {x y : Except ε α} (h : R s t) (hxy : x = y) :
    Paired R (liftM x : EStateM ε σ α) (liftM y) s t := by
  subst hxy
  cases x with
  | ok a => exact ⟨rfl, h⟩
  | error e => exact ⟨rfl, h⟩

theorem raiseIf_bind [Decidable p] [Decidable q] {f : PUnit → EStateM ε σ β}
    {g : PUnit → EStateM ε τ β} (h : R s t) (hpq : p ↔ q)
    (hf : ¬ p → Paired R (f ⟨⟩) (g ⟨⟩) s t) :
    Paired R (liftM (raiseIf p e : Except ε PUnit) >>= f) (liftM (raiseIf q e : Except ε PUnit) >>= g)
      s t := by
  have heq : (raiseIf p e : Except ε PUnit) = raiseIf q e := by simp only [raiseIf, hpq]
  exact lift_bind h heq fun _ hp => hf (raiseIf_eq_ok.mp hp)

theorem cases (h : Paired R x y s t) :
    (∃ a s' t', x s = .ok a s' ∧ y t = .ok a t' ∧ R s' t') ∨
      ∃ e s' t', x s = .error e s' ∧ y t = .error e t' ∧ R s' t' := by
  unfold Paired at h
  cases hxs : x s with
  | ok a s' =>
    cases hyt : y t with
    | ok b t' =>
      rw [hxs, hyt] at h
      obtain ⟨rfl, h⟩ := h
      exact .inl ⟨a, s', t', rfl, rfl, h⟩
    | error e t' =>
      rw [hxs, hyt] at h
      exact h.elim
  | error e s' =>
    cases hyt : y t with
    | ok b t' =>
      rw [hxs, hyt] at h
      exact h.elim
    | error e' t' =>
      rw [hxs, hyt] at h
      obtain ⟨rfl, h⟩ := h
      exact .inr ⟨e, s', t', rfl, rfl, h⟩

theorem bind (hx : Paired R x y s t)
    (hf : ∀ a s' t', x s = .ok a s' → y t = .ok a t' → R s' t' → Paired R (f a) (g a) s' t') :
    Paired R (x >>= f) (y >>= g) s t := by
  unfold Paired
  obtain ⟨a, s', t', hxs, hyt, h⟩ | ⟨e, s', t', hxs, hyt, h⟩ := hx.cases
  · rw [ok_bind_apply hxs, ok_bind_apply hyt]
    exact hf a s' t' hxs hyt h
  · rw [error_bind_apply hxs, error_bind_apply hyt]
    exact ⟨rfl, h⟩

theorem map (h : Paired R x y s t) (f : α → β) : Paired R (f <$> x) (f <$> y) s t :=
  bind h fun _ _ _ _ _ h => pure h

theorem discard (h : Paired R x y s t) : Paired R (discard x) (discard y) s t := h.map _

theorem finalState (h : Paired R x y s t) : R (finalState (x s)) (finalState (y t)) := by
  obtain ⟨a, s', t', hxs, hyt, h⟩ | ⟨e, s', t', hxs, hyt, h⟩ := h.cases <;> rw [hxs, hyt] <;> exact h

theorem outcome (h : Paired R x y s t) : outcomeOf (x s) = outcomeOf (y t) := by
  obtain ⟨a, s', t', hxs, hyt, h⟩ | ⟨e, s', t', hxs, hyt, h⟩ := h.cases <;> rw [hxs, hyt] <;> rfl

end Paired

section Answers

/-- What the inputs of a run are answered. -/
def answers (step : σ → ι → σ) (answer : σ → ι → ω) : σ → List ι → List ω
  | _, [] => []
  | s, i :: is => answer s i :: answers step answer (step s i) is

/-- Two systems whose steps are answered alike and keep a relation of their states are answered
alike along every run. -/
theorem related_run {R : σ → τ → Prop} {step : σ → ι → σ} {step' : τ → ι → τ} {answer : σ → ι → ω}
    {answer' : τ → ι → ω}
    (hstep : ∀ s t i, R s t → answer s i = answer' t i ∧ R (step s i) (step' t i)) (h : R s t)
    (is : List ι) :
    answers step answer s is = answers step' answer' t is ∧ R (run step s is) (run step' t is) := by
  induction is generalizing s t with
  | nil => exact ⟨rfl, h⟩
  | cons i is ih =>
    obtain ⟨hanswer, hnext⟩ := hstep s t i h
    obtain ⟨hrest, hend⟩ := ih hnext
    refine ⟨?_, hend⟩
    rw [answers, answers, hanswer, hrest]

/-- A condition along one run holds along the other when the relation carries it over. -/
theorem related_along {R : σ → τ → Prop} {step : σ → ι → σ} {step' : τ → ι → τ} {A : σ → ι → Prop}
    {B : τ → ι → Prop} (hstep : ∀ s t i, R s t → R (step s i) (step' t i))
    (hAB : ∀ s t i, R s t → A s i → B t i) (h : R s t) (ha : Along step A s is) :
    Along step' B t is := by
  induction is generalizing s t with
  | nil => exact True.intro
  | cons i is ih => exact ⟨hAB s t i h ha.1, ih (hstep s t i h) ha.2⟩

end Answers

end Library
