import Mathlib.Data.List.Basic
import Mathlib.Data.List.Forall2

namespace Library
set_option autoImplicit true

/-- A computation on a mutable state that can raise and keeps the state it raised in. -/
abbrev Stateful (ε σ α : Type) := EStateM ε σ α

section Except

theorem Except.ok_bind {a : α} {f : α → Except ε β} : ((.ok a : Except ε α) >>= f) = f a := rfl

theorem Except.error_bind {e : ε} {f : α → Except ε β} :
    ((.error e : Except ε α) >>= f) = .error e := rfl

theorem Except.bind_eq_ok {x : Except ε α} {f : α → Except ε β} :
    (x >>= f) = .ok b ↔ ∃ a, x = .ok a ∧ f a = .ok b := by
  cases x with
  | error e => simp only [bind, Except.bind, reduceCtorEq, false_and, exists_false]
  | ok a => simp only [bind, Except.bind, Except.ok.injEq, exists_eq_left']

theorem Except.then_eq_ok {x : Except ε PUnit} {y : Except ε β} :
    (x >>= fun _ => y) = .ok b ↔ x = .ok ⟨⟩ ∧ y = .ok b := by
  rw [Except.bind_eq_ok]
  exact ⟨fun ⟨⟨⟩, h⟩ => h, fun h => ⟨⟨⟩, h⟩⟩

theorem Except.map_eq_ok {x : Except ε α} {f : α → β} :
    (f <$> x) = .ok b ↔ ∃ a, x = .ok a ∧ f a = b := by
  cases x with
  | error e => simp only [Functor.map, Except.map, reduceCtorEq, false_and, exists_false]
  | ok a => simp only [Functor.map, Except.map, Except.ok.injEq, exists_eq_left']

theorem Except.pure_eq_ok {a b : α} : (pure a : Except ε α) = .ok b ↔ a = b := by
  simp only [pure, Except.pure, Except.ok.injEq]

theorem Except.forM_eq_ok {l : List α} {f : α → Except ε PUnit} :
    l.forM f = .ok ⟨⟩ ↔ ∀ a ∈ l, f a = .ok ⟨⟩ := by
  induction l with
  | nil => exact ⟨fun _ a ha => (List.not_mem_nil ha).elim, fun _ => rfl⟩
  | cons a l ih =>
    change (f a >>= fun _ => l.forM f) = .ok ⟨⟩ ↔ _
    rw [Except.bind_eq_ok]
    constructor
    · rintro ⟨⟨⟩, ha, hl⟩ b hb
      cases hb with
      | head => exact ha
      | tail _ hb => exact ih.mp hl b hb
    · intro h
      exact ⟨⟨⟩, h a List.mem_cons_self, ih.mpr fun b hb => h b (List.mem_cons_of_mem _ hb)⟩

theorem Except.mapM_eq_ok {l : List α} {f : α → Except ε β} :
    l.mapM f = .ok ys ↔ List.Forall₂ (fun a b => f a = .ok b) l ys := by
  induction l generalizing ys with
  | nil =>
    rw [List.mapM_nil, Except.pure_eq_ok, List.forall₂_nil_left_iff]
    exact eq_comm
  | cons a l ih =>
    simp only [List.mapM_cons, Except.bind_eq_ok, ih, Except.pure_eq_ok, List.forall₂_cons_left_iff]
    constructor
    · rintro ⟨b, hb, bs, hbs, rfl⟩
      exact ⟨b, bs, hb, hbs, rfl⟩
    · rintro ⟨b, bs, hb, hbs, rfl⟩
      exact ⟨b, hb, bs, hbs, rfl⟩

theorem Except.mapM_total {l : List α} {f : α → Except ε β} (h : ∀ a ∈ l, ∃ b, f a = .ok b) :
    ∃ ys, l.mapM f = .ok ys := by
  induction l with
  | nil => exact ⟨[], rfl⟩
  | cons a l ih =>
    obtain ⟨b, hb⟩ := h a List.mem_cons_self
    obtain ⟨bs, hbs⟩ := ih fun a' ha' => h a' (List.mem_cons_of_mem _ ha')
    refine ⟨b :: bs, Except.mapM_eq_ok.mpr (.cons hb (Except.mapM_eq_ok.mp hbs))⟩

/-- A filter whose test always returns. -/
theorem Except.filterM_eq_ok {l : List α} {f : α → Except ε Bool} {p : α → Bool}
    (h : ∀ a ∈ l, f a = .ok (p a)) : l.filterM f = .ok (l.filter p) := by
  have hloop (l acc : List α) (h : ∀ a ∈ l, f a = .ok (p a)) :
      l.filterAuxM f acc = .ok ((l.filter p).reverse ++ acc) := by
    induction l generalizing acc with
    | nil => rfl
    | cons a l ih =>
      rw [List.filterAuxM, h a List.mem_cons_self, Except.ok_bind,
        ih _ fun a' ha' => h a' (List.mem_cons_of_mem _ ha'), List.filter_cons]
      cases p a with
      | false => rfl
      | true =>
        simp only [cond_true, ↓reduceIte, List.reverse_cons, List.append_assoc, List.cons_append,
          List.nil_append]
  rw [List.filterM, hloop l [] h, Except.ok_bind, List.append_nil, Except.pure_eq_ok,
    List.reverse_reverse]

/-- A filter that returns tested everything, and keeps what passed. -/
theorem Except.filterM_result {l : List α} {f : α → Except ε Bool} (h : l.filterM f = .ok ys) :
    ∀ a, a ∈ ys ↔ a ∈ l ∧ f a = .ok true := by
  have htotal (l acc zs : List α) (h : l.filterAuxM f acc = .ok zs) : ∀ a ∈ l, ∃ b, f a = .ok b := by
    induction l generalizing acc with
    | nil => exact fun _ ha => (List.not_mem_nil ha).elim
    | cons a l ih =>
      obtain ⟨b, hb, h⟩ := Except.bind_eq_ok.mp h
      exact List.forall_mem_cons.mpr ⟨⟨b, hb⟩, ih _ h⟩
  obtain ⟨zs, hzs, _⟩ := Except.bind_eq_ok.mp h
  have hkept : ∀ a ∈ l, f a = .ok ((f a).toOption.getD false) := by
    intro a ha
    obtain ⟨b, hb⟩ := htotal l [] zs hzs a ha
    rw [hb]
    rfl
  rw [Except.filterM_eq_ok hkept, Except.ok.injEq] at h
  intro a
  rw [← h, List.mem_filter]
  refine and_congr_right fun ha => ?_
  rw [hkept a ha, Except.ok.injEq]
  rfl

theorem Except.mapM_result {l : List α} {f : α → Except ε β} (h : l.mapM f = .ok ys)
    (ha : a ∈ l) : ∃ b ∈ ys, f a = .ok b := by
  have hall := Except.mapM_eq_ok.mp h
  clear h
  induction hall with
  | nil => cases ha
  | cons hb _ ih =>
    cases ha with
    | head => exact ⟨_, List.mem_cons_self, hb⟩
    | tail _ ha =>
      obtain ⟨b, hm, hb⟩ := ih ha
      exact ⟨b, List.mem_cons_of_mem _ hm, hb⟩

theorem Except.mapM_source {l : List α} {f : α → Except ε β} (h : l.mapM f = .ok ys)
    (hb : b ∈ ys) : ∃ a ∈ l, f a = .ok b := by
  have hall := Except.mapM_eq_ok.mp h
  clear h
  induction hall with
  | nil => cases hb
  | cons ha _ ih =>
    cases hb with
    | head => exact ⟨_, List.mem_cons_self, ha⟩
    | tail _ hb =>
      obtain ⟨a, hm, ha⟩ := ih hb
      exact ⟨a, List.mem_cons_of_mem _ hm, ha⟩

/-- Raises the given error exactly when the condition holds. -/
def raiseIf (p : Prop) [Decidable p] (e : ε) : Except ε PUnit :=
  if p then .error e else .ok ⟨⟩

@[simp] theorem raiseIf_eq_ok [Decidable p] {e : ε} : raiseIf p e = .ok u ↔ ¬ p := by
  unfold raiseIf
  split
  · next h => simp only [reduceCtorEq, h, not_true_eq_false]
  · next h => simp only [h, not_false_eq_true]

@[simp] theorem raiseIf_eq_error [Decidable p] {e e' : ε} :
    raiseIf p e = .error e' ↔ p ∧ e = e' := by
  unfold raiseIf
  split
  · next h => simp only [Except.error.injEq, h, true_and]
  · next h => simp only [reduceCtorEq, h, false_and]

end Except

section Decisions

/-- The computation returns, and its result tells whether the proposition holds. -/
def Decides (x : Except ε Bool) (P : Prop) : Prop := ∃ b, x = .ok b ∧ (b = true ↔ P)

/-- The listed checks hold; the first that fails or raises decides. -/
def allHold (check : α → Except ε Bool) : List α → Except ε Bool
  | [] => .ok true
  | a :: as => do
    let holds ← check a
    if holds then allHold check as else .ok false

variable {x y : Except ε Bool}

theorem Decides.of_iff (h : b = true ↔ P) : Decides (.ok b : Except ε Bool) P := ⟨b, rfl, h⟩

theorem Decides.of_not (h : ¬ P) : Decides (.ok false : Except ε Bool) P :=
  .of_iff ⟨fun hf => (Bool.false_ne_true hf).elim, fun hp => (h hp).elim⟩

theorem Decides.congr (h : Decides x P) (hPQ : P ↔ Q) : Decides x Q := by
  obtain ⟨b, hx, hb⟩ := h
  exact ⟨b, hx, hb.trans hPQ⟩

/-- Two computations that decide the same proposition return the same. -/
theorem Decides.unique (hx : Decides x P) (hy : Decides y P) : x = y := by
  obtain ⟨b, rfl, hb⟩ := hx
  obtain ⟨b', rfl, hb'⟩ := hy
  rw [Bool.eq_iff_iff.mpr (hb.trans hb'.symm)]

/-- A check that returns early when it fails. -/
theorem Decides.guard (hx : Decides x P) (hy : P → Decides y Q) :
    Decides (x >>= fun b => if (!b) = true then pure false else y) (P ∧ Q) := by
  obtain ⟨b, rfl, hb⟩ := hx
  cases b with
  | false => exact .of_not fun h => Bool.false_ne_true (hb.mpr h.1)
  | true => exact (hy (hb.mp rfl)).congr ⟨fun hq => ⟨hb.mp rfl, hq⟩, fun h => h.2⟩

theorem allHold_decides {check : α → Except ε Bool} {P : α → Prop} (h : ∀ a ∈ l, Decides (check a) (P a)) :
    Decides (allHold check l) (∀ a ∈ l, P a) := by
  induction l with
  | nil => exact .of_iff ⟨fun _ a ha => (List.not_mem_nil ha).elim, fun _ => rfl⟩
  | cons a l ih =>
    obtain ⟨b, hcheck, hb⟩ := h a List.mem_cons_self
    simp only [allHold, hcheck, bind, Except.bind, List.forall_mem_cons]
    cases b with
    | false => exact .of_not fun hall => Bool.false_ne_true (hb.mpr hall.1)
    | true =>
      exact (ih fun a' ha' => h a' (List.mem_cons_of_mem _ ha')).congr
        ⟨fun hl => ⟨hb.mp rfl, hl⟩, fun hall => hall.2⟩

end Decisions

section Stateful

instance liftExcept : MonadLift (Except ε) (EStateM ε σ) where
  monadLift x := fun s => match x with
    | .ok a => .ok a s
    | .error e => .error e s

/-- The state a computation ends in, whether it returns or raises. -/
def finalState : EStateM.Result ε σ α → σ
  | .ok _ s => s
  | .error _ s => s

@[simp] theorem finalState_ok (a : α) (s : σ) : finalState (.ok a s : EStateM.Result ε σ α) = s := rfl

@[simp] theorem finalState_error (e : ε) (s : σ) :
    finalState (.error e s : EStateM.Result ε σ α) = s := rfl

variable {x : EStateM ε σ α} {f : α → EStateM ε σ β} {s s' : σ}

theorem bind_eq_ok :
    (x >>= f) s = .ok b s' ↔ ∃ a t, x s = .ok a t ∧ f a t = .ok b s' := by
  change EStateM.bind x f s = _ ↔ _
  unfold EStateM.bind
  cases x s with
  | ok a t => simp only [EStateM.Result.ok.injEq, ↓existsAndEq, and_true, exists_eq_left']
  | error e t => simp only [reduceCtorEq, false_and, exists_false]

theorem bind_eq_error :
    (x >>= f) s = .error e s' ↔
      x s = .error e s' ∨ ∃ a t, x s = .ok a t ∧ f a t = .error e s' := by
  change EStateM.bind x f s = _ ↔ _
  unfold EStateM.bind
  cases x s with
  | ok a t => simp only [EStateM.Result.ok.injEq, reduceCtorEq, ↓existsAndEq, and_true,
      exists_eq_left', false_or]
  | error e t => simp only [EStateM.Result.error.injEq, reduceCtorEq, false_and, exists_false,
      or_false]

theorem ok_bind_apply {t : σ} (hx : x s = .ok a t) : (x >>= f) s = f a t := by
  change EStateM.bind x f s = _
  rw [EStateM.bind, hx]

theorem error_bind_apply {t : σ} (hx : x s = .error e t) : (x >>= f) s = .error e t := by
  change EStateM.bind x f s = _
  rw [EStateM.bind, hx]

theorem get_bind_apply {f : σ → EStateM ε σ β} : (get >>= f) s = f s s := rfl

theorem pure_eq_ok {a b : α} : (pure a : EStateM ε σ α) s = .ok b s' ↔ a = b ∧ s = s' := by
  change EStateM.Result.ok a s = _ ↔ _
  simp only [EStateM.Result.ok.injEq]

theorem pure_eq_error {a : α} : ¬ (pure a : EStateM ε σ α) s = .error e s' := by
  intro h
  cases h

theorem modify_eq_ok {g : σ → σ} : (modify g : EStateM ε σ PUnit) s = .ok u s' ↔ g s = s' := by
  change EStateM.Result.ok PUnit.unit (g s) = _ ↔ _
  simp only [EStateM.Result.ok.injEq, true_and]

theorem modify_eq_error {g : σ → σ} : ¬ (modify g : EStateM ε σ PUnit) s = .error e s' := by
  intro h
  cases h

theorem throw_eq_ok {e : ε} : ¬ (throw e : EStateM ε σ α) s = .ok a s' := by
  intro h
  cases h

theorem throw_eq_error {e e' : ε} :
    (throw e : EStateM ε σ α) s = .error e' s' ↔ e = e' ∧ s = s' := by
  change EStateM.Result.error e s = _ ↔ _
  simp only [EStateM.Result.error.injEq]

theorem lift_eq_ok {x : Except ε α} :
    (liftM x : EStateM ε σ α) s = .ok a s' ↔ x = .ok a ∧ s = s' := by
  cases x with
  | ok b =>
    change EStateM.Result.ok b s = _ ↔ _
    simp only [EStateM.Result.ok.injEq, Except.ok.injEq]
  | error e =>
    change EStateM.Result.error e s = _ ↔ _
    simp only [reduceCtorEq, false_and]

theorem lift_eq_error {x : Except ε α} :
    (liftM x : EStateM ε σ α) s = .error e s' ↔ x = .error e ∧ s = s' := by
  cases x with
  | ok b =>
    change EStateM.Result.ok b s = _ ↔ _
    simp only [reduceCtorEq, false_and]
  | error e' =>
    change EStateM.Result.error e' s = _ ↔ _
    simp only [EStateM.Result.error.injEq, Except.error.injEq]

end Stateful

/-- The computation either returns and meets the postcondition or raises in the state `s₀`. -/
def Atomic (s₀ : σ) (x : EStateM ε σ α) (s : σ) (post : α → σ → Prop) : Prop :=
  match x s with
  | .ok a s' => post a s'
  | .error _ s' => s' = s₀

namespace Atomic
variable {x : EStateM ε σ α} {f : α → EStateM ε σ β} {s s₀ s' : σ} {post : β → σ → Prop}

theorem of_ok {post : α → σ → Prop} (h : Atomic s₀ x s post) (hx : x s = .ok a s') :
    post a s' := by
  unfold Atomic at h
  rw [hx] at h
  exact h

theorem of_error {post : α → σ → Prop} (h : Atomic s₀ x s post) (hx : x s = .error e s') :
    s' = s₀ := by
  unfold Atomic at h
  rw [hx] at h
  exact h

theorem pure {post : α → σ → Prop} (h : post a s) :
    Atomic s₀ (Pure.pure a : EStateM ε σ α) s post := h

theorem throw {post : α → σ → Prop} (h : s = s₀) :
    Atomic s₀ (MonadExcept.throw e : EStateM ε σ α) s post := h

theorem bind {m : α → σ → Prop} (hx : Atomic s₀ x s m)
    (hf : ∀ a t, m a t → Atomic s₀ (f a) t post) : Atomic s₀ (x >>= f) s post := by
  unfold Atomic at hx ⊢
  have hb : (x >>= f) s = EStateM.bind x f s := rfl
  rw [hb]
  unfold EStateM.bind
  cases h : x s with
  | ok a t =>
    rw [h] at hx
    exact hf a t hx
  | error e t =>
    rw [h] at hx
    exact hx

/-- A computation whose result is known is run in place. -/
theorem eq_ok_bind (hx : x s = .ok a s') (h : Atomic s₀ (f a) s' post) :
    Atomic s₀ (x >>= f) s post := by
  apply bind (m := fun b t => b = a ∧ t = s')
  · unfold Atomic
    rw [hx]
    exact ⟨rfl, rfl⟩
  · rintro b t ⟨rfl, rfl⟩
    exact h

theorem get_bind {f : σ → EStateM ε σ β} (h : Atomic s₀ (f s) s post) :
    Atomic s₀ (get >>= f) s post := h

theorem modify_bind {f : PUnit → EStateM ε σ β} (h : Atomic s₀ (f ⟨⟩) (g s) post) :
    Atomic s₀ (modify g >>= f) s post := h

theorem lift_bind {x : Except ε α} (h : ∀ a, x = .ok a → Atomic s (f a) s post) :
    Atomic s (liftM x >>= f) s post := by
  cases x with
  | ok a => exact h a rfl
  | error e => rfl

theorem lift_ok_bind {x : Except ε α} (hx : x = .ok a) (h : Atomic s₀ (f a) s post) :
    Atomic s₀ (liftM x >>= f) s post := by
  subst hx
  exact h

theorem lift_ok {x : Except ε α} {post : α → σ → Prop} (hx : x = .ok a) (h : post a s) :
    Atomic s₀ (liftM x : EStateM ε σ α) s post := by
  subst hx
  exact h

theorem raiseIf_bind [Decidable p] {f : PUnit → EStateM ε σ β}
    (h : ¬ p → Atomic s (f ⟨⟩) s post) : Atomic s (liftM (raiseIf p e : Except ε PUnit) >>= f) s post :=
  lift_bind fun _ hu => h (raiseIf_eq_ok.mp hu)

theorem mono {post post' : α → σ → Prop} (h : Atomic s₀ x s post)
    (hp : ∀ a t, post a t → post' a t) : Atomic s₀ x s post' := by
  unfold Atomic at h ⊢
  cases hx : x s with
  | ok a t =>
    rw [hx] at h
    exact hp a t h
  | error e t =>
    rw [hx] at h
    exact h

/-- What holds before the computation and whenever it returns holds after it. -/
theorem keeps {post : α → σ → Prop} {P : σ → Prop} (h : Atomic s₀ x s post) (hs : P s₀)
    (hp : ∀ a t, post a t → P t) : P (finalState (x s)) := by
  unfold Atomic at h
  cases hx : x s with
  | ok a t =>
    rw [hx] at h
    exact hp a t h
  | error e t =>
    rw [hx] at h
    exact h ▸ hs

theorem discard {post : α → σ → Prop} (h : Atomic s₀ x s post) :
    Atomic s₀ (discard x) s fun _ => fun t => ∃ a, post a t :=
  bind h fun a _ ha => pure ⟨a, ha⟩

end Atomic

/-- The computation returns, and its result meets the postcondition. -/
def Returns (x : EStateM ε σ α) (s : σ) (post : α → σ → Prop) : Prop :=
  ∃ a s', x s = .ok a s' ∧ post a s'

namespace Returns
variable {x : EStateM ε σ α} {f : α → EStateM ε σ β} {s : σ} {post : β → σ → Prop}

theorem bind_iff :
    Returns (x >>= f) s post ↔ Returns x s fun a s' => Returns (f a) s' post := by
  simp only [Returns, bind_eq_ok]
  constructor
  · rintro ⟨b, t, ⟨a, s', hx, hf⟩, hp⟩
    exact ⟨a, s', hx, b, t, hf, hp⟩
  · rintro ⟨a, s', hx, b, t, hf, hp⟩
    exact ⟨b, t, ⟨a, s', hx, hf⟩, hp⟩

theorem pure_iff {post : α → σ → Prop} :
    Returns (pure a : EStateM ε σ α) s post ↔ post a s := by
  simp only [Returns, pure_eq_ok, ↓existsAndEq, and_true, true_and]

theorem get_bind_iff {f : σ → EStateM ε σ β} :
    Returns (get >>= f) s post ↔ Returns (f s) s post := Iff.rfl

theorem modify_bind_iff {f : PUnit → EStateM ε σ β} :
    Returns (modify g >>= f) s post ↔ Returns (f ⟨⟩) (g s) post := Iff.rfl

theorem lift_bind_iff {x : Except ε α} :
    Returns (liftM x >>= f) s post ↔ ∃ a, x = .ok a ∧ Returns (f a) s post := by
  rw [bind_iff]
  simp only [Returns, lift_eq_ok]
  constructor
  · rintro ⟨a, t, ⟨hx, rfl⟩, hf⟩
    exact ⟨a, hx, hf⟩
  · rintro ⟨a, hx, hf⟩
    exact ⟨a, s, ⟨hx, rfl⟩, hf⟩

theorem lift_iff {x : Except ε α} {post : α → σ → Prop} :
    Returns (liftM x : EStateM ε σ α) s post ↔ ∃ a, x = .ok a ∧ post a s := by
  simp only [Returns, lift_eq_ok]
  exact ⟨fun ⟨a, _, ⟨hx, rfl⟩, hp⟩ => ⟨a, hx, hp⟩, fun ⟨a, hx, hp⟩ => ⟨a, s, ⟨hx, rfl⟩, hp⟩⟩

theorem bind {m : α → σ → Prop} (hx : Returns x s m) (hf : ∀ a t, m a t → Returns (f a) t post) :
    Returns (x >>= f) s post := by
  obtain ⟨a, t, hx, hm⟩ := hx
  exact bind_iff.mpr ⟨a, t, hx, hf a t hm⟩

theorem lift_bind {x : Except ε α} {f : α → EStateM ε σ β} (hx : x = .ok a)
    (hf : Returns (f a) s post) : Returns (liftM x >>= f) s post :=
  lift_bind_iff.mpr ⟨a, hx, hf⟩

theorem ok_bind_iff (hx : x s = .ok a s') :
    Returns (x >>= f) s post ↔ Returns (f a) s' post := by
  rw [bind_iff]
  constructor
  · rintro ⟨b, t, hb, hf⟩
    rw [hx, EStateM.Result.ok.injEq] at hb
    obtain ⟨rfl, rfl⟩ := hb
    exact hf
  · exact fun hf => ⟨a, s', hx, hf⟩

theorem ok_forall_iff {P : σ → Prop} {x : EStateM ε σ α} (hx : x s = .ok a s') :
    (∀ t, x s = .ok a t → P t) ↔ P s' := by
  simp only [hx, EStateM.Result.ok.injEq, true_and, forall_eq']

theorem raises {x : EStateM ε σ β} (h : ¬ Returns x s fun _ _ => True) :
    ∃ e s', x s = .error e s' := by
  cases hx : x s with
  | ok a s' => exact absurd ⟨a, s', hx, trivial⟩ h
  | error e s' => exact ⟨e, s', rfl⟩

theorem mono {post' : β → σ → Prop} {x : EStateM ε σ β} (h : Returns x s post)
    (hp : ∀ a t, post a t → post' a t) : Returns x s post' := by
  obtain ⟨a, t, hx, ha⟩ := h
  exact ⟨a, t, hx, hp a t ha⟩

theorem raiseIf_bind_iff [Decidable p] {f : PUnit → EStateM ε σ β} :
    Returns (liftM (raiseIf p e : Except ε PUnit) >>= f) s post ↔ ¬ p ∧ Returns (f ⟨⟩) s post := by
  rw [lift_bind_iff]
  exact ⟨fun ⟨_, hx, hf⟩ => ⟨raiseIf_eq_ok.mp hx, hf⟩, fun ⟨hp, hf⟩ => ⟨⟨⟩, raiseIf_eq_ok.mpr hp, hf⟩⟩

theorem discard {post : σ → Prop} (h : Returns x s fun _ => post) :
    Returns (discard x) s fun _ => post := by
  obtain ⟨a, s', hx, hp⟩ := h
  exact ⟨⟨⟩, s', bind_eq_ok.mpr ⟨a, s', hx, rfl⟩, hp⟩

end Returns

/-- The computation ends in a state that meets the condition, whether it returns or raises. -/
def Ends (x : EStateM ε σ α) (s : σ) (post : σ → Prop) : Prop := post (finalState (x s))

namespace Ends
variable {x : EStateM ε σ α} {f : α → EStateM ε σ β} {s : σ} {post : σ → Prop}

theorem bind (hok : ∀ a s', x s = .ok a s' → Ends (f a) s' post)
    (herror : ∀ e s', x s = .error e s' → post s') : Ends (x >>= f) s post := by
  unfold Ends
  change post (finalState (EStateM.bind x f s))
  unfold EStateM.bind
  cases hx : x s with
  | ok a s' => exact hok a s' hx
  | error e s' => exact herror e s' hx

theorem pure (h : post s) : Ends (Pure.pure a : EStateM ε σ α) s post := h

theorem get_bind {f : σ → EStateM ε σ β} (h : Ends (f s) s post) : Ends (get >>= f) s post := h

theorem modify_bind {f : PUnit → EStateM ε σ β} (h : Ends (f ⟨⟩) (g s) post) :
    Ends (modify g >>= f) s post := h

theorem lift_bind {x : Except ε α} (hs : post s) (h : ∀ a, x = .ok a → Ends (f a) s post) :
    Ends (liftM x >>= f) s post := by
  cases x with
  | ok a => exact h a rfl
  | error e => exact hs

/-- A computation whose result is known is run in place. -/
theorem eq_ok_bind (hx : x s = .ok a s') (h : Ends (f a) s' post) : Ends (x >>= f) s post := by
  apply bind
  · intro b t hb
    rw [hx, EStateM.Result.ok.injEq] at hb
    obtain ⟨rfl, rfl⟩ := hb
    exact h
  · intro e t he
    rw [hx] at he
    cases he

theorem lift_ok_bind {x : Except ε α} (hx : x = .ok a) (h : Ends (f a) s post) :
    Ends (liftM x >>= f) s post := eq_ok_bind (lift_eq_ok.mpr ⟨hx, rfl⟩) h

theorem discard (h : Ends x s post) : Ends (discard x) s post := by
  apply bind
  · intro a s' hx
    unfold Ends at h
    rwa [hx] at h
  · intro e s' hx
    unfold Ends at h
    rwa [hx] at h

theorem mono {post' : σ → Prop} (h : Ends x s post) (hp : ∀ t, post t → post' t) :
    Ends x s post' := hp _ h

end Ends

/-- From every state that meets an invariant the computation keeps it and a relation between its
states, whether it returns or raises. -/
def Within (P : σ → Prop) (R : σ → σ → Prop) (x : EStateM ε σ α) : Prop :=
  ∀ s, P s → Ends x s fun s' => P s' ∧ R s s'

namespace Within
variable {x : EStateM ε σ α} {f : α → EStateM ε σ β} {P : σ → Prop} {R : σ → σ → Prop}

theorem pure (hR : ∀ s, R s s) : Within P R (Pure.pure a : EStateM ε σ α) := fun s hs => ⟨hs, hR s⟩

theorem bind (htrans : ∀ s t u, R s t → R t u → R s u) (hx : Within P R x)
    (hf : ∀ a, Within P R (f a)) : Within P R (x >>= f) := by
  intro s hs
  have hxs := hx s hs
  unfold Ends at hxs
  apply Ends.bind
  · intro a s' hok
    rw [hok] at hxs
    exact (hf a s' hxs.1).mono fun t ht => ⟨ht.1, htrans _ _ _ hxs.2 ht.2⟩
  · intro e s' herror
    rw [herror] at hxs
    exact hxs

theorem get_bind {f : σ → EStateM ε σ β} (hf : ∀ s, P s → Within P R (f s)) :
    Within P R (get >>= f) := fun s hs => hf s hs s hs

theorem lift_bind (hR : ∀ s, R s s) {x : Except ε α} (hf : ∀ a, x = .ok a → Within P R (f a)) :
    Within P R (liftM x >>= f) := fun s hs => .lift_bind ⟨hs, hR s⟩ fun a ha => hf a ha s hs

theorem lift (hR : ∀ s, R s s) {x : Except ε α} : Within P R (liftM x : EStateM ε σ α) := by
  intro s hs
  cases x with
  | ok a => exact ⟨hs, hR s⟩
  | error e => exact ⟨hs, hR s⟩

theorem of_ok (h : Within P R x) (hs : P s) (hx : x s = .ok a s') : P s' ∧ R s s' := by
  have hend := h s hs
  unfold Ends at hend
  rwa [hx] at hend

theorem modify (hg : ∀ s, P s → P (g s) ∧ R s (g s)) :
    Within P R (modify g : EStateM ε σ PUnit) := hg

theorem forM {l : List ι} {body : ι → EStateM ε σ PUnit} (hR : ∀ s, R s s)
    (htrans : ∀ s t u, R s t → R t u → R s u) (hbody : ∀ i ∈ l, Within P R (body i)) :
    Within P R (l.forM body) := by
  induction l with
  | nil => exact pure hR
  | cons i l ih =>
    apply bind htrans (hbody i List.mem_cons_self)
    exact fun _ => ih fun i' hi' => hbody i' (List.mem_cons_of_mem _ hi')

theorem discard (hR : ∀ s, R s s) (htrans : ∀ s t u, R s t → R t u → R s u) (hx : Within P R x) :
    Within P R (discard x) := hx.bind htrans fun _ => pure hR

end Within

end Library
