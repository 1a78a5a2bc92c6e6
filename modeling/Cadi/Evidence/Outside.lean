import Cadi.Evidence.Gates

namespace Cadi
open Library
set_option autoImplicit true

/-- The item's scope shares no pair with the required one. -/
def Evidence.Outside (e : Evidence) (scope : FrozenSet (String × String)) : Prop :=
  ∀ p ∈ e.scope, p ∉ scope

instance (e : Evidence) (scope : FrozenSet (String × String)) : Decidable (e.Outside scope) :=
  inferInstanceAs (Decidable (∀ p ∈ e.scope, p ∉ scope))

/-- The item is ambiguous, or it is usable and gives a claim of a usable item another value. -/
def Evidence.Disputes (e : Evidence) (evs : List Evidence) (now : Number) : Prop :=
  e.status = .ambiguous ∨ e.Usable now ∧ ∃ a ∈ evs, a.Usable now ∧
    ∃ key, a.claimKey = some key ∧ e.claimKey = some key ∧ a.claimValue ≠ e.claimValue

/-- The gate of the action returns instead of raising. -/
def Authorizes (c : ContinuityCore) (clock : Number) (action : String) (evidenceIds : List String)
    (now : Option Number) (scope : FrozenSet (String × String)) : Prop :=
  ∃ good, c.requireEvidence clock action evidenceIds now (some scope) none = .ok good

section Added
variable {c : ContinuityCore}

theorem not_covers_of_outside {e : Evidence} (hne : scope.Nonempty) (h : e.Outside scope) :
    ¬ e.Covers (some scope) := by
  intro hcovers
  obtain ⟨p, hp⟩ := hne
  exact h p (hcovers scope rfl hp) hp

theorem knownEvidence_insert {id : String} (h : c.evidence.get? id = some e)
    (before after : List String) : c.knownEvidence (before ++ id :: after) =
      c.knownEvidence before ++ e :: c.knownEvidence after := by
  simp only [ContinuityCore.knownEvidence, List.filterMap_append, List.filterMap_cons, h]

theorem consistent_insert : Consistent (l ++ e :: r) now ↔ Consistent (l ++ r) now ∧
    (e.Usable now → ∀ a ∈ l ++ r, a.Usable now → ∀ key, a.claimKey = some key →
      e.claimKey = some key → a.claimValue = e.claimValue) := by
  have hmem (a : Evidence) : a ∈ l ++ e :: r ↔ a = e ∨ a ∈ l ++ r := by
    simp only [List.mem_append, List.mem_cons]
    exact or_left_comm
  simp only [Consistent, hmem]
  constructor
  · intro h
    have hold := fun a ha b hb => h a (.inr ha) b (.inr hb)
    exact ⟨hold, fun he a ha husable key hkey hkey' =>
      h a (.inr ha) e (.inl rfl) husable he key hkey hkey'⟩
  · rintro ⟨hold, hnew⟩ a (rfl | ha) b (rfl | hb) husable husable' key hkey hkey'
    · rfl
    · exact (hnew husable b hb husable' key hkey' hkey).symm
    · exact hnew husable' a ha husable key hkey hkey'
    · exact hold a ha b hb husable husable' key hkey hkey'

/-- An item outside the scope can only take away that the evidence suffices, by a dispute. -/
theorem suffices_insert {e : Evidence} (now : Number) (hcovers : ¬ e.Covers requiredScope) :
    Suffices (l ++ e :: r) now requiredScope ↔
      Suffices (l ++ r) now requiredScope ∧ ¬ e.Disputes (l ++ r) now := by
  have hmem (a : Evidence) : a ∈ l ++ e :: r ↔ a = e ∨ a ∈ l ++ r := by
    simp only [List.mem_append, List.mem_cons]
    exact or_left_comm
  constructor
  · intro h
    obtain ⟨hconsistent, hnew⟩ := consistent_insert.mp h.consistent
    have hunambiguous : ∀ a ∈ l ++ r, a.status ≠ .ambiguous := fun a ha =>
      h.unambiguous a ((hmem a).mpr (.inr ha))
    obtain ⟨a, ha, husable, hcovered⟩ := h.covered
    have ha' : a ∈ l ++ r := by
      rcases (hmem a).mp ha with rfl | ha
      · exact (hcovers hcovered).elim
      · exact ha
    refine ⟨⟨hunambiguous, hconsistent, a, ha', husable, hcovered⟩, ?_⟩
    rintro (hambiguous | ⟨he, b, hb, hb', key, hkey, hkey', hne⟩)
    · exact h.unambiguous e ((hmem e).mpr (.inl rfl)) hambiguous
    · exact hne (hnew he b hb hb' key hkey hkey')
  · rintro ⟨h, hdisputes⟩
    simp only [Evidence.Disputes, not_or, not_and, not_exists] at hdisputes
    obtain ⟨hstatus, hnew⟩ := hdisputes
    obtain ⟨a, ha, hcovered⟩ := h.covered
    refine ⟨fun b hb => ?_, consistent_insert.mpr ⟨h.consistent, ?_⟩, a, (hmem a).mpr (.inr ha),
      hcovered⟩
    · rcases (hmem b).mp hb with rfl | hb
      · exact hstatus
      · exact h.unambiguous b hb
    · exact fun he b hb husable key hkey hkey' =>
        Decidable.not_not.mp (hnew he b hb husable key hkey hkey')

theorem ambiguous_of_disputes {e : Evidence} (h : e.Disputes (l ++ r) now) :
    (∃ a ∈ l ++ e :: r, a.status = .ambiguous) ∨ ¬ Consistent (l ++ e :: r) now := by
  rcases h with hstatus | ⟨he, a, ha, husable, key, hkey, hkey', hne⟩
  · exact .inl ⟨e, List.mem_append_right _ List.mem_cons_self, hstatus⟩
  · exact .inr fun hc => hne ((consistent_insert.mp hc).2 he a ha husable key hkey hkey')

end Added

/-- Evidence outside the scope of a correctness-sensitive action never authorizes it, and takes an
authorization away exactly when it is ambiguous or contradicts a usable listed item; the reconciler
then answers AMBIGUOUS. -/
theorem addedOutside_gates (c : ContinuityCore) (clock : Number) (action : String)
    (before after : List String) (id : String) (now : Option Number)
    (scope : FrozenSet (String × String)) (e : Evidence)
    (haction : action ∈ correctnessSensitiveEvidenceActions)
    (hid : c.evidence.get? id = some e) (hscope : scope.Nonempty) (houtside : e.Outside scope) :
    (Authorizes c clock action (before ++ id :: after) now scope ↔
      Authorizes c clock action (before ++ after) now scope ∧
        ¬ e.Disputes (c.knownEvidence (before ++ after)) (now.getD clock)) ∧
    (c.reconcile clock action (before ++ id :: after) now (some scope) = .ok .matched ↔
      c.reconcile clock action (before ++ after) now (some scope) = .ok .matched ∧
        ¬ e.Disputes (c.knownEvidence (before ++ after)) (now.getD clock)) ∧
    (e.Disputes (c.knownEvidence (before ++ after)) (now.getD clock) →
      c.reconcile clock action (before ++ id :: after) now (some scope) = .ok .ambiguous) := by
  have hlisted : c.knownEvidence (before ++ after) = c.knownEvidence before ++ c.knownEvidence after :=
    List.filterMap_append
  have hinsert := suffices_insert (l := c.knownEvidence before) (r := c.knownEvidence after)
    (now.getD clock) (not_covers_of_outside hscope houtside)
  rw [← knownEvidence_insert hid, ← hlisted] at hinsert
  obtain ⟨old, hold, _, holdMatched, _⟩ :=
    reconcile_spec haction c clock (before ++ after) now (some scope)
  obtain ⟨new, hnew, _, hnewMatched, hnewAmbiguous⟩ :=
    reconcile_spec haction c clock (before ++ id :: after) now (some scope)
  refine ⟨?_, ?_, fun hdisputes => ?_⟩
  · unfold Authorizes
    rw [requireEvidence_iff action haction, requireEvidence_iff action haction]
    exact hinsert
  · rw [hold, hnew, Except.ok.injEq, Except.ok.injEq, holdMatched, hnewMatched]
    exact hinsert
  · rw [hlisted] at hdisputes
    rw [hnew, Except.ok.injEq, hnewAmbiguous, knownEvidence_insert hid]
    exact ambiguous_of_disputes hdisputes

/-- An observation of an Attempt. -/
def attemptEvidence : Evidence where
  id := "g"
  claim := "terminal_attempt_success"
  source := "s"
  authority := .exactObservation
  status := .valid
  observedAt := .int 0
  scope := {("attempt", "a")}

/-- An observation of a worker, of the given status. -/
def workerEvidence (id : String) (status : EvidenceStatus) : Evidence where
  id := id
  claim := "load"
  source := "s"
  authority := .exactObservation
  status := status
  observedAt := .int 0
  scope := {("worker", "w")}

def workerRun : List Call :=
  [⟨.int 0, .recordEvidence attemptEvidence⟩,
    ⟨.int 0, .recordEvidence (workerEvidence "w" .ambiguous)⟩,
    ⟨.int 0, .recordEvidence (workerEvidence "v" .stale)⟩]

theorem addedOutside_gates_worker :
    let c := run (step defaultValidity) {} workerRun
    Authorizes c (.int 0) "finalize" ["g", "v"] none {("attempt", "a")} ↔
      Authorizes c (.int 0) "finalize" ["g"] none {("attempt", "a")} ∧
        ¬ (workerEvidence "v" .stale).Disputes (c.knownEvidence ["g"]) (.int 0) :=
  (addedOutside_gates _ (.int 0) "finalize" ["g"] [] "v" none {("attempt", "a")}
    (workerEvidence "v" .stale) (by decide) (by decide +kernel) (by decide) (by decide +kernel)).1

/-- An ambiguous observation of a worker takes the authorization of an Attempt's result away. -/
theorem addedOutside_refuses :
    let c := run (step defaultValidity) {} workerRun
    c.evidence.get? "w" = some (workerEvidence "w" .ambiguous) ∧
    (workerEvidence "w" .ambiguous).Outside {("attempt", "a")} ∧
    c.requireEvidence (.int 0) "finalize" ["g"] none (some {("attempt", "a")}) none =
      .ok [attemptEvidence] ∧
    c.requireEvidence (.int 0) "finalize" ["g", "w"] none (some {("attempt", "a")}) none =
      .error (.insufficientEvidence "ambiguous Evidence for finalize") ∧
    c.reconcile (.int 0) "finalize" ["g"] none (some {("attempt", "a")}) = .ok .matched ∧
    c.reconcile (.int 0) "finalize" ["g", "w"] none (some {("attempt", "a")}) = .ok .ambiguous := by
  decide +kernel

end Cadi
