import Cadi.Invariants.GroundedSteps

namespace Cadi
open Library
set_option autoImplicit true

/-- A continuation that descends from the origin, or is the origin itself, has the lifecycle. -/
def Descended (continuations : Dict String Continuation) (origin : String)
    (life : ContinuationLifecycle) : Prop :=
  ∃ k ct, continuations.get? k = some ct ∧ ct.lifecycle = life ∧
    AncestorOrSelf continuations origin k

/-- The lifecycle that the continuation graph gives the States of an origin. -/
def FromGraph (continuations : Dict String Continuation) (origin : String) :
    StateLifecycle → Prop
  | .active => Descended continuations origin .active
  | .waiting => ¬ Descended continuations origin .active ∧
    Descended continuations origin .waiting
  | .speculative => ¬ Descended continuations origin .active ∧
    ¬ Descended continuations origin .waiting ∧ Descended continuations origin .speculative
  | .terminal => ¬ Descended continuations origin .active ∧
    ¬ Descended continuations origin .waiting ∧ ¬ Descended continuations origin .speculative

/-- Every State stores the lifecycle that the graph gives it now. -/
def LifecyclesExact (c : ContinuityCore) : Prop :=
  ∀ k x, c.states.get? k = some x → FromGraph c.continuations x.originContinuationId x.lifecycle

section Candidates
variable {c : ContinuityCore} {candidates : List StateLifecycle}

theorem rank_eq_active : ContinuationLifecycle.rank life = some .active ↔ life = .active := by
  cases life <;> decide

theorem rank_eq_waiting : ContinuationLifecycle.rank life = some .waiting ↔ life = .waiting := by
  cases life <;> decide

theorem rank_eq_speculative :
    ContinuationLifecycle.rank life = some .speculative ↔ life = .speculative := by
  cases life <;> decide

/-- The strongest candidate is the lifecycle from the graph when the candidates are those of the
descendants. -/
theorem strongest_fromGraph
    (hmem : ∀ life, life ∈ candidates ↔ ∃ ct ∈ c.continuations.values,
      ct.lifecycle.rank = some life ∧ AncestorOrSelf c.continuations origin ct.id)
    (hk : Keyed c.continuations) :
    FromGraph c.continuations origin (ContinuityCore.strongest candidates) := by
  have hdescended (life : StateLifecycle) (clife : ContinuationLifecycle)
      (hrank : ∀ l : ContinuationLifecycle, l.rank = some life ↔ l = clife) :
      life ∈ candidates ↔ Descended c.continuations origin clife := by
    simp only [hmem, hrank, Descended, Dict.mem_values_iff]
    constructor
    · rintro ⟨ct, ⟨k, hct⟩, hlife, hanc⟩
      have hid : ct.id = k := hk k ct hct
      exact ⟨k, ct, hct, hlife, hid ▸ hanc⟩
    · rintro ⟨k, ct, hct, hlife, hanc⟩
      have hid : ct.id = k := hk k ct hct
      exact ⟨ct, ⟨k, hct⟩, hlife, hid ▸ hanc⟩
  have hactive := hdescended .active .active fun _ => rank_eq_active
  have hwaiting := hdescended .waiting .waiting fun _ => rank_eq_waiting
  have hspeculative := hdescended .speculative .speculative fun _ => rank_eq_speculative
  unfold ContinuityCore.strongest
  split
  · next ha => exact hactive.mp ha
  · next ha =>
    rw [hactive] at ha
    split
    · next hw => exact ⟨ha, hwaiting.mp hw⟩
    · next hw =>
      rw [hwaiting] at hw
      split
      · next hs => exact ⟨ha, hw, hspeculative.mp hs⟩
      · next hs => exact ⟨ha, hw, fun hd => hs (hspeculative.mpr hd)⟩

theorem lifecycleOf_fromGraph (h : ParentsKnown c.continuations) (hk : Keyed c.continuations)
    (x : ReusableState) :
    FromGraph c.continuations x.originContinuationId (c.lifecycleOf x) := by
  obtain ⟨candidates, hcand, hmem⟩ := lifecycleCandidates_total h x.originContinuationId
    c.continuations.values fun ct hct => values_known hk hct
  have hlife : c.lifecycleOf x = ContinuityCore.strongest candidates := by
    unfold ContinuityCore.lifecycleOf
    simp only [ContinuityCore.derivedLifecycle, hcand, bind, Except.bind]
    rfl
  rw [hlife]
  exact strongest_fromGraph hmem hk

/-- A refresh makes every lifecycle exact, whatever it was before. -/
theorem refreshed_exact (h : Grounded c.refreshed) : LifecyclesExact c.refreshed := by
  intro k w hw
  rw [ContinuityCore.refreshed, Dict.get?_mapValues, Option.map_eq_some_iff] at hw
  obtain ⟨x, _, rfl⟩ := hw
  have hknown : ParentsKnown c.continuations := h.scopes.parentsKnown
  have hkeyed : Keyed c.continuations := h.keys.continuations
  exact lifecycleOf_fromGraph hknown hkeyed x

end Candidates

section Steps
variable {c : ContinuityCore}

/-- Every transition that touches the continuations or adds a State refreshes. -/
theorem Effect.lifecyclesExact {e : Effect} (h : LifecyclesExact c) (hg : Grounded c)
    (ha : e.Allowed c) : LifecyclesExact (e.apply c) := by
  have hafter := Effect.grounded hg ha
  cases e with
  | createContinuation | setLifecycle | createState => exact refreshed_exact hafter
  | setValidity x validity =>
    intro k w hw
    rcases Dict.get?_set_eq_some_iff.mp hw with ⟨_, rfl⟩ | ⟨_, hw⟩
    · exact h x.id x ha.1
    · exact h k w hw
  | createProgram | setProgramStatus | createSession | createRequest | startAttempt | setExecution
  | createPhase | setPhaseStatus | createOutput | finalize | addReplica | setReplicaStatus
  | propose | activateInitial | beginMigration | commitMigration | recordEvent
  | recordEvidence => exact h

theorem Takes.lifecyclesExact (ht : Takes c es c') (h : LifecyclesExact c) (hg : Grounded c) :
    LifecyclesExact c' :=
  (ht.invariant (P := fun c => Grounded c ∧ LifecyclesExact c) (A := fun _ _ => True) (.trivial _ _)
    ⟨hg, h⟩ fun _ _ hc ha _ => ⟨Effect.grounded hc.1 ha, Effect.lifecyclesExact hc.2 hc.1 ha⟩).2

theorem LifecyclesExact.step (h : LifecyclesExact c) (hg : Grounded c)
    (semanticValidity : SemanticValidity) (call : Call) :
    LifecyclesExact (Cadi.step semanticValidity c call) :=
  step_keeps hg h fun _ _ _ _ ht => ht.lifecyclesExact h hg

end Steps

theorem lifecyclesExact_empty : LifecyclesExact {} := by
  intro k x hx
  cases hx

/-- In every core of every run, accepted and rejected calls alike, each State stores exactly the
lifecycle derived from the continuation graph of that moment. -/
theorem lifecyclesExact_throughout (semanticValidity : SemanticValidity) (calls : List Call) :
    Throughout (step semanticValidity) LifecyclesExact {} calls :=
  (invariant_throughout (P := fun c => Grounded c ∧ LifecyclesExact c) (A := fun _ _ => True)
    ⟨.empty, lifecyclesExact_empty⟩
    (fun _ call hc _ => ⟨hc.1.step semanticValidity call, hc.2.step hc.1 semanticValidity call⟩)
    (.trivial (fun _ _ => True.intro) _ _)).mono fun _ hc => hc.2

end Cadi
