import Cadi.Library.Checked

namespace Library
set_option autoImplicit true

/-- Labelled steps lead from the first state to the second. -/
inductive Trace (step : σ → ι → σ → Prop) : σ → List ι → σ → Prop where
  | nil : Trace step s [] s
  | cons (h : step s i t) (rest : Trace step t is u) : Trace step s (i :: is) u

namespace Trace
variable {step : σ → ι → σ → Prop}

theorem single (h : step s i t) : Trace step s [i] t := .cons h .nil

theorem append (h : Trace step s is t) (h' : Trace step t js u) : Trace step s (is ++ js) u := by
  induction h with
  | nil => exact h'
  | cons hi _ ih => exact .cons hi (ih h')

/-- What every step with an allowed label keeps, of the labels so far and the state, holds at the
end. -/
theorem invariant {P : List ι → σ → Prop} {A : ι → Prop}
    (hstep : ∀ done s i t, P done s → A i → step s i t → P (done ++ [i]) t)
    (h : Trace step s is t) (ha : ∀ i ∈ is, A i) (hs : P l s) : P (l ++ is) t := by
  induction h generalizing l with
  | nil =>
    rw [List.append_nil]
    exact hs
  | cons hi _ ih =>
    obtain ⟨hi', ha⟩ := List.forall_mem_cons.mp ha
    rw [List.append_cons]
    exact ih ha (hstep _ _ _ _ hs hi' hi)

end Trace

/-- When the computation returns, it took steps with labels that are allowed. -/
def Traced (step : σ → ι → σ → Prop) (A : ι → Prop) (x : EStateM ε σ α) (s : σ) : Prop :=
  ∀ a t, x s = .ok a t → ∃ is, (∀ i ∈ is, A i) ∧ Trace step s is t

namespace Traced
variable {step : σ → ι → σ → Prop} {A B : ι → Prop} {x : EStateM ε σ α} {f : α → EStateM ε σ β}

theorem pure : Traced step A (Pure.pure a : EStateM ε σ α) s := by
  intro b t h
  obtain ⟨_, rfl⟩ := pure_eq_ok.mp h
  exact ⟨[], fun _ hi => (List.not_mem_nil hi).elim, .nil⟩

theorem one (i : ι) (hi : A i) (hx : ∀ a t, x s = .ok a t → step s i t) : Traced step A x s := by
  intro a t h
  refine ⟨[i], fun j hj => ?_, .single (hx a t h)⟩
  rw [List.mem_singleton] at hj
  exact hj ▸ hi

theorem bind (hx : Traced step A x s) (hf : ∀ a t, x s = .ok a t → Traced step A (f a) t) :
    Traced step A (x >>= f) s := by
  intro b u h
  obtain ⟨a, t, ha, hb⟩ := bind_eq_ok.mp h
  obtain ⟨is, his, hfirst⟩ := hx a t ha
  obtain ⟨js, hjs, hrest⟩ := hf a t ha b u hb
  refine ⟨is ++ js, fun i hi => ?_, hfirst.append hrest⟩
  exact (List.mem_append.mp hi).elim (his i) (hjs i)

theorem get_bind {f : σ → EStateM ε σ β} (hf : Traced step A (f s) s) :
    Traced step A (get >>= f) s := hf

theorem modify_bind {f : PUnit → EStateM ε σ β} (i : ι) (hi : A i) (hg : step s i (g s))
    (hf : Traced step A (f ⟨⟩) (g s)) : Traced step A (modify g >>= f) s := by
  refine bind (one i hi fun _ t h => ?_) fun _ t h => ?_
  · rw [modify_eq_ok] at h
    exact h ▸ hg
  · rw [modify_eq_ok] at h
    exact h ▸ hf

theorem lift_bind {x : Except ε α} (hf : ∀ a, x = .ok a → Traced step A (f a) s) :
    Traced step A (liftM x >>= f) s := by
  intro b u h
  obtain ⟨a, t, ha, hb⟩ := bind_eq_ok.mp h
  obtain ⟨hx, rfl⟩ := lift_eq_ok.mp ha
  exact hf a hx b u hb

theorem lift {x : Except ε α} : Traced step A (liftM x : EStateM ε σ α) s := by
  intro a t h
  obtain ⟨_, rfl⟩ := lift_eq_ok.mp h
  exact ⟨[], fun _ hi => (List.not_mem_nil hi).elim, .nil⟩

theorem forM {l : List κ} {body : κ → EStateM ε σ PUnit}
    (hbody : ∀ k ∈ l, ∀ s, Traced step A (body k) s) (s : σ) : Traced step A (l.forM body) s := by
  induction l generalizing s with
  | nil => exact pure
  | cons k l ih =>
    refine bind (hbody k List.mem_cons_self s) fun _ t _ => ?_
    exact ih (fun k' hk' => hbody k' (List.mem_cons_of_mem _ hk')) t

theorem mono (h : Traced step A x s) (hAB : ∀ i, A i → B i) : Traced step B x s := by
  intro a t ha
  obtain ⟨is, his, ht⟩ := h a t ha
  exact ⟨is, fun i hi => hAB i (his i hi), ht⟩

end Traced

end Library
