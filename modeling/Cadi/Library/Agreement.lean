import Cadi.Library.Checked
import Mathlib.Data.List.Perm.Basic

namespace Library
set_option autoImplicit true

/-- Whenever the first computation returns, so does the second, and the results are related. -/
def Agrees (R : α → β → Prop) (x : Except ε α) (y : Except ε β) : Prop :=
  ∀ a, x = .ok a → ∃ b, y = .ok b ∧ R a b

namespace Agrees
variable {R : α → β → Prop} {S : γ → δ → Prop} {x : Except ε α} {y : Except ε β}

theorem pure (h : R a b) : Agrees R (Pure.pure a : Except ε α) (Pure.pure b : Except ε β) := by
  intro a' ha
  rw [Except.pure_eq_ok] at ha
  exact ⟨b, rfl, ha ▸ h⟩

theorem refl {R : α → α → Prop} (h : ∀ a, R a a) (x : Except ε α) : Agrees R x x :=
  fun a ha => ⟨a, ha, h a⟩

theorem bind {f : α → Except ε γ} {g : β → Except ε δ} (hx : Agrees R x y)
    (hf : ∀ a b, x = .ok a → R a b → Agrees S (f a) (g b)) : Agrees S (x >>= f) (y >>= g) := by
  intro c hc
  obtain ⟨a, ha, hc⟩ := Except.bind_eq_ok.mp hc
  obtain ⟨b, hb, hR⟩ := hx a ha
  obtain ⟨d, hd, hS⟩ := hf a b ha hR c hc
  exact ⟨d, Except.bind_eq_ok.mpr ⟨b, hb, hd⟩, hS⟩

theorem bind_same {x : Except ε α} {f : α → Except ε γ} {g : α → Except ε δ}
    (hf : ∀ a, x = .ok a → Agrees S (f a) (g a)) : Agrees S (x >>= f) (x >>= g) := by
  refine (Agrees.refl (fun _ => rfl) x).bind fun a b ha hab => ?_
  subst hab
  exact hf a ha

theorem bind_eq {x y : Except ε α} {f g : α → Except ε γ} (hx : Agrees Eq x y)
    (hf : ∀ a, x = .ok a → Agrees Eq (f a) (g a)) : Agrees Eq (x >>= f) (y >>= g) := by
  apply hx.bind
  intro a b ha hab
  subst hab
  exact hf a ha

theorem mono {R' : α → β → Prop} (h : Agrees R x y) (hR : ∀ a b, R a b → R' a b) : Agrees R' x y := by
  intro a ha
  obtain ⟨b, hb, h⟩ := h a ha
  exact ⟨b, hb, hR a b h⟩

theorem raiseIf [Decidable p] [Decidable q] {e e' : ε} (h : q → p) :
    Agrees (fun _ _ => True) (raiseIf p e) (raiseIf q e') := by
  intro a ha
  exact ⟨⟨⟩, raiseIf_eq_ok.mpr fun hq => raiseIf_eq_ok.mp ha (h hq), True.intro⟩

/-- Two computations that agree both ways return the same or raise both. -/
theorem toOption_eq {x y : Except ε α} (h : Agrees Eq x y) (h' : Agrees Eq y x) :
    x.toOption = y.toOption := by
  cases x with
  | ok a =>
    obtain ⟨b, rfl, rfl⟩ := h a rfl
    rfl
  | error e =>
    cases y with
    | ok b =>
      obtain ⟨a, ha, _⟩ := h' b rfl
      cases ha
    | error e' => rfl

section Lists
variable {l l' : List α} {f g : α → Except ε β}

theorem mapM {f : α → Except ε γ} {g : α → Except ε δ} (h : ∀ a ∈ l, Agrees S (f a) (g a)) :
    Agrees (List.Forall₂ S) (l.mapM f) (l.mapM g) := by
  intro ys hys
  have hall := Except.mapM_eq_ok.mp hys
  have hzs : ∃ zs, List.Forall₂ (fun a b => g a = .ok b) l zs ∧ List.Forall₂ S ys zs := by
    clear hys
    induction hall with
    | nil => exact ⟨[], .nil, .nil⟩
    | @cons a b l ys hb _ ih =>
      obtain ⟨c, hc, hS⟩ := h a List.mem_cons_self b hb
      obtain ⟨zs, hzs, hSs⟩ := ih fun a' ha' => h a' (List.mem_cons_of_mem _ ha')
      exact ⟨c :: zs, .cons hc hzs, .cons hS hSs⟩
  obtain ⟨zs, hzs, hS⟩ := hzs
  exact ⟨zs, Except.mapM_eq_ok.mpr hzs, hS⟩

theorem mapM_eq (h : ∀ a ∈ l, Agrees Eq (f a) (g a)) : Agrees Eq (l.mapM f) (l.mapM g) := by
  refine (mapM h).mono fun ys zs hS => ?_
  rwa [List.forall₂_eq_eq_eq] at hS

theorem mapM_perm (h : l.Perm l') : Agrees List.Perm (l.mapM f) (l'.mapM f) := by
  intro ys hys
  obtain ⟨zs, hzs, hperm⟩ := List.perm_comp_forall₂ h.symm (Except.mapM_eq_ok.mp hys)
  exact ⟨zs, Except.mapM_eq_ok.mpr hzs, hperm.symm⟩

/-- A filter that returns is the filter by some test. -/
theorem filterM_total {f : α → Except ε Bool} (h : l.filterM f = .ok ys) :
    ∃ p : α → Bool, (∀ a ∈ l, f a = .ok (p a)) ∧ ys = l.filter p := by
  have htotal (l acc zs : List α) (h : l.filterAuxM f acc = .ok zs) : ∀ a ∈ l, ∃ b, f a = .ok b := by
    induction l generalizing acc with
    | nil => exact fun _ ha => (List.not_mem_nil ha).elim
    | cons a l ih =>
      obtain ⟨b, hb, h⟩ := Except.bind_eq_ok.mp h
      exact List.forall_mem_cons.mpr ⟨⟨b, hb⟩, ih _ h⟩
  obtain ⟨zs, hzs, _⟩ := Except.bind_eq_ok.mp h
  have hkept : ∀ a ∈ l, f a = .ok ((f a).toOption.getD false) := by
    intro a ha
    obtain ⟨b, hb⟩ := htotal l [] zs hzs a ha
    rw [hb]
    rfl
  rw [Except.filterM_eq_ok hkept, Except.ok.injEq] at h
  exact ⟨_, hkept, h.symm⟩

theorem filterM_perm {f : α → Except ε Bool} (h : l.Perm l') :
    Agrees List.Perm (l.filterM f) (l'.filterM f) := by
  intro ys hys
  obtain ⟨p, hp, rfl⟩ := filterM_total hys
  exact ⟨l'.filter p, Except.filterM_eq_ok fun a ha => hp a (h.mem_iff.mpr ha), h.filter p⟩

end Lists

end Agrees

end Library
