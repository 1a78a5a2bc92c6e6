import Mathlib.Data.List.Basic

namespace Library
set_option autoImplicit true

section Runs
variable (step : σ → ι → σ)

/-- The state a deterministic system is in after a list of inputs. -/
def run (s : σ) (is : List ι) : σ := is.foldl step s

/-- Every step of the run meets a condition on its state and input. -/
def Along (A : σ → ι → Prop) : σ → List ι → Prop
  | _, [] => True
  | s, i :: is => A s i ∧ Along A (step s i) is

/-- A property holds in every state the run passes through, its first and last included. -/
def Throughout (P : σ → Prop) : σ → List ι → Prop
  | s, [] => P s
  | s, i :: is => P s ∧ Throughout P (step s i) is

@[simp] theorem run_nil (s : σ) : run step s [] = s := rfl

@[simp] theorem run_cons (s : σ) (i : ι) (is : List ι) :
    run step s (i :: is) = run step (step s i) is := rfl

theorem run_append (s : σ) (is js : List ι) :
    run step s (is ++ js) = run step (run step s is) js :=
  List.foldl_append

variable {step} {P : σ → Prop} {A B : σ → ι → Prop}

theorem Along.append (h : Along step A s (is ++ js)) :
    Along step A s is ∧ Along step A (run step s is) js := by
  induction is generalizing s with
  | nil => exact ⟨True.intro, h⟩
  | cons i is ih => exact ⟨⟨h.1, (ih h.2).1⟩, (ih h.2).2⟩

theorem Along.concat (h : Along step A s is) (hi : A (run step s is) i) :
    Along step A s (is ++ [i]) := by
  induction is generalizing s with
  | nil => exact ⟨hi, True.intro⟩
  | cons j is ih => exact ⟨h.1, ih h.2 hi⟩

/-- A condition that holds in every state satisfying an invariant holds along every run. -/
theorem Along.of_invariant (hs : P s) (hstep : ∀ s i, P s → A s i → P (step s i))
    (hB : ∀ s i, P s → A s i → B s i) (ha : Along step A s is) : Along step B s is := by
  induction is generalizing s with
  | nil => exact True.intro
  | cons i is ih => exact ⟨hB s i hs ha.1, ih (hstep s i hs ha.1) ha.2⟩

theorem Along.mono (h : Along step A s is) (hAB : ∀ s i, A s i → B s i) : Along step B s is :=
  .of_invariant (P := fun _ => True) True.intro (fun _ _ _ _ => True.intro) (fun s i _ => hAB s i) h

theorem Along.trivial (hA : ∀ s i, A s i) (s : σ) (is : List ι) : Along step A s is := by
  induction is generalizing s with
  | nil => exact True.intro
  | cons i is ih => exact ⟨hA s i, ih _⟩

theorem Along.of_forall {B : ι → Prop} (h : ∀ i ∈ is, B i) (s : σ) :
    Along step (fun _ i => B i) s is := by
  induction is generalizing s with
  | nil => exact True.intro
  | cons i is ih =>
    exact ⟨h i List.mem_cons_self, ih (fun j hj => h j (List.mem_cons_of_mem _ hj)) _⟩

/-- The run lemma of an invariant kept by every step that meets the condition. -/
theorem invariant_run (hs : P s) (hstep : ∀ s i, P s → A s i → P (step s i))
    (ha : Along step A s is) : P (run step s is) := by
  induction is generalizing s with
  | nil => exact hs
  | cons i is ih => exact ih (hstep s i hs ha.1) ha.2

theorem invariant_throughout (hs : P s) (hstep : ∀ s i, P s → A s i → P (step s i))
    (ha : Along step A s is) : Throughout step P s is := by
  induction is generalizing s with
  | nil => exact hs
  | cons i is ih => exact ⟨hs, ih (hstep s i hs ha.1) ha.2⟩

theorem Throughout.mono {Q : σ → Prop} (hPQ : ∀ s, P s → Q s) (h : Throughout step P s is) :
    Throughout step Q s is := by
  induction is generalizing s with
  | nil => exact hPQ s h
  | cons i is ih => exact ⟨hPQ s h.1, ih h.2⟩

theorem Throughout.last (h : Throughout step P s is) : P (run step s is) := by
  induction is generalizing s with
  | nil => exact h
  | cons i is ih => exact ih h.2

/-- A condition on the steps that says when each of them keeps the property. -/
theorem throughout_iff_along (hs : P s) (hstep : ∀ s i, P s → (P (step s i) ↔ A s i)) :
    Throughout step P s is ↔ Along step A s is := by
  induction is generalizing s with
  | nil => exact iff_of_true hs True.intro
  | cons i is ih =>
    constructor
    · rintro ⟨_, hrest⟩
      have hnext : P (step s i) := by
        cases is with
        | nil => exact hrest
        | cons j is => exact hrest.1
      exact ⟨(hstep s i hs).mp hnext, (ih hnext).mp hrest⟩
    · rintro ⟨hi, hrest⟩
      exact ⟨hs, (ih ((hstep s i hs).mpr hi)).mpr hrest⟩

/-- A reflexive and transitive relation kept by every step relates the ends of a run. -/
theorem relation_run {R : σ → σ → Prop} (hrefl : ∀ s, R s s)
    (htrans : ∀ {s t u}, R s t → R t u → R s u) (hs : P s)
    (hstep : ∀ s i, P s → A s i → P (step s i))
    (hR : ∀ s i, P s → A s i → R s (step s i)) (ha : Along step A s is) :
    R s (run step s is) := by
  induction is generalizing s with
  | nil => exact hrefl s
  | cons i is ih => exact htrans (hR s i hs ha.1) (ih (hstep s i hs ha.1) ha.2)

instance Along.decidable (step : σ → ι → σ) (A : σ → ι → Prop) [∀ s i, Decidable (A s i)] :
    (s : σ) → (is : List ι) → Decidable (Along step A s is)
  | _, [] => inferInstanceAs (Decidable True)
  | s, i :: is =>
    have := Along.decidable step A (step s i) is
    inferInstanceAs (Decidable (A s i ∧ Along step A (step s i) is))

end Runs

end Library
