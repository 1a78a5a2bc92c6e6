import Cadi.Library.Checked

namespace Library
set_option autoImplicit true

theorem Except.bind_eq_error {x : Except ε α} {f : α → Except ε β} :
    x >>= f = .error e ↔ x = .error e ∨ ∃ a, x = .ok a ∧ f a = .error e := by
  cases x with
  | error e' => simp only [bind, Except.bind, Except.error.injEq, reduceCtorEq, false_and,
      exists_false, or_false]
  | ok a => simp only [bind, Except.bind, reduceCtorEq, false_or, Except.ok.injEq, exists_eq_left']

/-- A loop that raises does so at one of its elements. -/
theorem Except.forM_eq_error {l : List α} {f : α → Except ε PUnit} (h : l.forM f = .error e) :
    ∃ a ∈ l, f a = .error e := by
  induction l with
  | nil => cases h
  | cons a l ih =>
    rcases Except.bind_eq_error.mp h with ha | ⟨_, _, hl⟩
    · exact ⟨a, List.mem_cons_self, ha⟩
    · obtain ⟨b, hb, hfb⟩ := ih hl
      exact ⟨b, List.mem_cons_of_mem _ hb, hfb⟩

/-- Every exception of the computation meets the condition. -/
def Failing (E : ε → Prop) (x : EStateM ε σ α) : Prop := ∀ s e s', x s = .error e s' → E e

namespace Failing
variable {E : ε → Prop} {x : EStateM ε σ α} {f : α → EStateM ε σ β}

theorem pure (a : α) : Failing E (Pure.pure a : EStateM ε σ α) := fun _ _ _ h => (pure_eq_error h).elim

theorem throw (he : E e) : Failing E (MonadExcept.throw e : EStateM ε σ α) := by
  intro s e' s' h
  exact (throw_eq_error.mp h).1 ▸ he

theorem get : Failing E (MonadState.get : EStateM ε σ σ) := by
  intro s e s' h
  cases h

theorem modify (g : σ → σ) : Failing E (modify g : EStateM ε σ PUnit) :=
  fun _ _ _ h => (modify_eq_error h).elim

theorem bind (hx : Failing E x) (hf : ∀ a, Failing E (f a)) : Failing E (x >>= f) := by
  intro s e s' h
  rcases bind_eq_error.mp h with h | ⟨a, t, _, h⟩
  · exact hx s e s' h
  · exact hf a t e s' h

theorem lift {x : Except ε α} (hx : ∀ e, x = .error e → E e) :
    Failing E (liftM x : EStateM ε σ α) := by
  intro s e s' h
  exact hx e (lift_eq_error.mp h).1

theorem raiseIf [Decidable p] (he : E e) :
    Failing E (liftM (Library.raiseIf p e : Except ε PUnit) : EStateM ε σ PUnit) := by
  apply lift
  intro e' h
  exact (raiseIf_eq_error.mp h).2 ▸ he

end Failing

end Library
