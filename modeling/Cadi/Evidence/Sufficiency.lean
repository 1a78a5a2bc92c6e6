import Cadi.Core.Evidence

namespace Cadi
open Library
set_option autoImplicit true

/-- The item is VALID, exact and not expired. -/
structure Evidence.Usable (e : Evidence) (now : Number) : Prop where
  valid : e.status = .valid
  authority : EvidenceAuthority.exactObservation.value ≤ e.authority.value
  unexpired : ∀ limit, e.validUntil = some limit → limit.lt now = false

/-- No two usable items give one claim different values. -/
def Consistent (evs : List Evidence) (now : Number) : Prop :=
  ∀ a ∈ evs, ∀ b ∈ evs, a.Usable now → b.Usable now →
    ∀ key, a.claimKey = some key → b.claimKey = some key → a.claimValue = b.claimValue

/-- The item's scope contains the required one, if any. -/
def Evidence.Covers (e : Evidence) (requiredScope : Option (FrozenSet (String × String))) : Prop :=
  ∀ scope, requiredScope = some scope → scope ⊆ e.scope

/-- What the evidence of a correctness-sensitive action has to be. -/
structure Suffices (evs : List Evidence) (now : Number)
    (requiredScope : Option (FrozenSet (String × String))) : Prop where
  unambiguous : ∀ e ∈ evs, e.status ≠ .ambiguous
  consistent : Consistent evs now
  covered : ∃ e ∈ evs, e.Usable now ∧ e.Covers requiredScope

section Loops

theorem usable_decides (e : Evidence) (now : Number) :
    Decides (e.usable .exactObservation now none) (e.Usable now) := by
  unfold Evidence.usable
  by_cases hvalid : e.status = .valid
  · by_cases hauthority : e.authority.value < EvidenceAuthority.exactObservation.value
    · simp only [hvalid, ne_eq, not_true_eq_false, ↓reduceIte, hauthority]
      exact .of_not fun h => absurd h.authority (Nat.not_le.mpr hauthority)
    · simp only [hvalid, ne_eq, not_true_eq_false, ↓reduceIte, hauthority]
      have hle := Nat.not_lt.mp hauthority
      cases hlimit : e.validUntil with
      | none =>
        refine .of_iff ⟨fun _ => ⟨hvalid, hle, fun limit hl => ?_⟩, fun _ => rfl⟩
        rw [hlimit] at hl
        cases hl
      | some limit =>
        rw [Option.any_some]
        cases hexpired : limit.lt now with
        | true =>
          refine .of_not fun h => ?_
          rw [h.unexpired limit hlimit] at hexpired
          cases hexpired
        | false =>
          refine .of_iff ⟨fun _ => ⟨hvalid, hle, fun limit' hl => ?_⟩, fun _ => rfl⟩
          rw [hlimit, Option.some.injEq] at hl
          exact hl ▸ hexpired
  · rw [if_pos hvalid]
    exact .of_not fun h => hvalid h.valid

/-- The value is already recorded for the key or a usable item still to come claims it. -/
def Told (now : Number) (seen : Dict String (FrozenSet (Option String))) (es : List Evidence)
    (key : String) (value : Option String) : Prop :=
  value ∈ (seen.get? key).getD ∅ ∨
    ∃ e ∈ es, e.Usable now ∧ e.claimKey = some key ∧ e.claimValue = value

def SingleValued (told : String → Option String → Prop) : Prop :=
  ∀ key v w, told key v → told key w → v = w

theorem SingleValued.congr {told told' : String → Option String → Prop}
    (h : ∀ key value, told key value ↔ told' key value) : SingleValued told ↔ SingleValued told' := by
  simp only [SingleValued, h]

section Told
variable {now : Number} {seen : Dict String (FrozenSet (Option String))} {es : List Evidence}

theorem told_nil : Told now seen [] key value ↔ value ∈ (seen.get? key).getD ∅ := by
  simp only [Told, List.not_mem_nil, false_and, exists_false, or_false]

theorem told_empty :
    Told now ∅ es key value ↔ ∃ e ∈ es, e.Usable now ∧ e.claimKey = some key ∧ e.claimValue = value := by
  simp only [Told, Dict.get?_empty, Option.getD_none, Finset.notMem_empty, false_or]

theorem told_cons_of_not (h : ¬ (e.Usable now ∧ e.claimKey = some key)) :
    Told now seen (e :: es) key value ↔ Told now seen es key value := by
  simp only [Told, List.exists_mem_cons_iff]
  apply or_congr_right
  apply or_iff_right
  rintro ⟨husable, hkey, _⟩
  exact h ⟨husable, hkey⟩

theorem told_record (husable : e.Usable now) (hkey : e.claimKey = some k) :
    Told now (seen.set k (insert e.claimValue ((seen.get? k).getD ∅))) es key value ↔
      Told now seen (e :: es) key value := by
  by_cases hk : k = key
  · subst hk
    simp only [Told, Dict.get?_set_self, Option.getD_some, Finset.mem_insert, List.exists_mem_cons_iff,
      husable, hkey, true_and, or_assoc, or_left_comm, eq_comm]
  · rw [told_cons_of_not fun h => hk (Option.some.inj (hkey.symm.trans h.2))]
    simp only [Told, Dict.get?_set_ne _ _ hk]

theorem conflictingClaims_decides (hseen : SingleValued (Told now seen [])) :
    Decides (conflictingClaims .exactObservation now none seen es)
      (¬ SingleValued (Told now seen es)) := by
  induction es generalizing seen with
  | nil => exact .of_not (not_not_intro hseen)
  | cons e es ih =>
    unfold conflictingClaims
    cases hkey : e.claimKey with
    | none =>
      refine (ih hseen).congr (not_congr (SingleValued.congr fun key value =>
        (told_cons_of_not ?_).symm))
      rintro ⟨_, hk⟩
      rw [hkey] at hk
      cases hk
    | some k =>
      obtain ⟨b, hb, husable⟩ := usable_decides e now
      simp only [hb, bind, Except.bind]
      cases b with
      | false =>
        have hnot : ¬ e.Usable now := fun h => Bool.false_ne_true (husable.mpr h)
        exact (ih hseen).congr
          (not_congr (SingleValued.congr fun key value =>
            (told_cons_of_not fun h => hnot h.1).symm))
      | true =>
        have husable := husable.mp rfl
        have hrecord : ∀ key value, Told now
            (seen.set k (insert e.claimValue ((seen.get? k).getD ∅))) es key value ↔
              Told now seen (e :: es) key value := fun _ _ => told_record husable hkey
        simp only [↓reduceIte]
        by_cases hcard : (insert e.claimValue ((seen.get? k).getD ∅)).card > 1
        · rw [if_pos hcard]
          refine .of_iff ⟨fun _ hsingle => ?_, fun _ => rfl⟩
          obtain ⟨v, hv, w, hw, hne⟩ := Finset.one_lt_card.mp hcard
          apply hne
          apply hsingle k v w <;> rw [← hrecord] <;> left <;> rwa [Dict.get?_set_self]
        · rw [if_neg hcard]
          refine (ih fun key v w hv hw => ?_).congr (not_congr ?_)
          · rw [told_nil] at hv hw
            by_cases hk : k = key
            · subst hk
              rw [Dict.get?_set_self] at hv hw
              exact Finset.card_le_one.mp (Nat.not_lt.mp hcard) v hv w hw
            · rw [Dict.get?_set_ne _ _ hk] at hv hw
              exact hseen key v w (told_nil.mpr hv) (told_nil.mpr hw)
          · exact SingleValued.congr hrecord

end Told

theorem consistent_iff : Consistent evs now ↔ SingleValued (Told now ∅ evs) := by
  simp only [Consistent, SingleValued, told_empty]
  constructor
  · rintro h key _ _ ⟨a, ha, husable, hkey, rfl⟩ ⟨b, hb, husable', hkey', rfl⟩
    exact h a ha b hb husable husable' key hkey hkey'
  · intro h a ha b hb husable husable' key hkey hkey'
    exact h key _ _ ⟨a, ha, husable, hkey, rfl⟩ ⟨b, hb, husable', hkey', rfl⟩

theorem goodEvidence_spec (es : List Evidence) (now : Number)
    (requiredScope : Option (FrozenSet (String × String))) :
    ∃ good, goodEvidence .exactObservation now none requiredScope es = .ok good ∧
      ∀ e, e ∈ good ↔ e ∈ es ∧ e.Usable now ∧ e.Covers requiredScope := by
  induction es with
  | nil => exact ⟨[], rfl, fun e => by simp only [List.not_mem_nil, false_and]⟩
  | cons e es ih =>
    obtain ⟨good, hgood, hmem⟩ := ih
    obtain ⟨b, hb, husable⟩ := usable_decides e now
    have hcovers : requiredScope.all (· ⊆ e.scope) = true ↔ e.Covers requiredScope := by
      cases requiredScope with
      | none => simp only [Option.all_none, Evidence.Covers, reduceCtorEq, false_implies, implies_true]
      | some scope => simp only [Option.all_some, decide_eq_true_eq, Evidence.Covers,
          Option.some.injEq, forall_eq']
    simp only [goodEvidence, hb, hgood, bind, Except.bind, Except.pure_eq_ok, ↓existsAndEq, true_and]
    intro e'
    by_cases hkept : e.Usable now ∧ e.Covers requiredScope
    · rw [if_pos (by rw [Bool.and_eq_true, husable, hcovers]; exact hkept), List.mem_cons,
        List.mem_cons, hmem]
      constructor
      · rintro (rfl | h)
        · exact ⟨.inl rfl, hkept⟩
        · exact ⟨.inr h.1, h.2⟩
      · rintro ⟨rfl | h, hkept'⟩
        · exact .inl rfl
        · exact .inr ⟨h, hkept'⟩
    · rw [if_neg (by rw [Bool.and_eq_true, husable, hcovers]; exact hkept), hmem, List.mem_cons]
      constructor
      · exact fun h => ⟨.inr h.1, h.2⟩
      · rintro ⟨rfl | h, hkept'⟩
        · exact (hkept hkept').elim
        · exact ⟨h, hkept'⟩

end Loops

section Gate
variable {c : ContinuityCore} {action : String}

theorem requiredAuthority_sensitive (h : action ∈ correctnessSensitiveEvidenceActions) :
    requiredAuthority action = .ok .exactObservation := by
  simp only [correctnessSensitiveEvidenceActions, List.mem_cons, List.not_mem_nil, or_false] at h
  rcases h with rfl | rfl | rfl <;> rfl

theorem hasConflicting_decides (h : action ∈ correctnessSensitiveEvidenceActions)
    (evs : List Evidence) (now : Number) :
    Decides (hasConflictingStructuredClaims action evs now none) (¬ Consistent evs now) := by
  unfold hasConflictingStructuredClaims
  rw [requiredAuthority_sensitive h, consistent_iff]
  refine conflictingClaims_decides fun key v w hv _ => ?_
  rw [told_nil, Dict.get?_empty] at hv
  exact (Finset.notMem_empty v hv).elim

/-- The gate of a correctness-sensitive action either lets the action pass, and its evidence
suffices, or reports insufficient evidence. -/
theorem requireEvidence_spec (action : String) (h : action ∈ correctnessSensitiveEvidenceActions)
    (c : ContinuityCore) (clock : Number) (evidenceIds : List String) (now : Option Number)
    (requiredScope : Option (FrozenSet (String × String))) :
    (∃ good, c.requireEvidence clock action evidenceIds now requiredScope none = .ok good ∧
      Suffices (c.knownEvidence evidenceIds) (now.getD clock) requiredScope) ∨
    (∃ message, c.requireEvidence clock action evidenceIds now requiredScope none =
        .error (.insufficientEvidence message) ∧
      ¬ Suffices (c.knownEvidence evidenceIds) (now.getD clock) requiredScope) := by
  obtain ⟨b, hb, hconflict⟩ := hasConflicting_decides h (c.knownEvidence evidenceIds) (now.getD clock)
  obtain ⟨good, hgood, hmem⟩ :=
    goodEvidence_spec (c.knownEvidence evidenceIds) (now.getD clock) requiredScope
  simp only [ContinuityCore.requireEvidence, requiredAuthority_sensitive h, if_pos h, hb, hgood, bind,
    Except.bind]
  by_cases hambiguous : ∃ e ∈ c.knownEvidence evidenceIds, e.status = .ambiguous
  · obtain ⟨e, he, hstatus⟩ := hambiguous
    rw [raiseIf, if_pos ⟨e, he, hstatus⟩]
    exact .inr ⟨_, rfl, fun hs => hs.unambiguous e he hstatus⟩
  · rw [raiseIf, if_neg hambiguous]
    cases b with
    | true => exact .inr ⟨_, rfl, fun hs => hconflict.mp rfl hs.consistent⟩
    | false =>
      have hconsistent : Consistent (c.knownEvidence evidenceIds) (now.getD clock) :=
        not_not.mp fun hn => Bool.false_ne_true (hconflict.mpr hn)
      by_cases hempty : good = []
      · subst hempty
        refine .inr ⟨_, rfl, fun hs => ?_⟩
        obtain ⟨e, he, hcovered⟩ := hs.covered
        exact List.not_mem_nil ((hmem e).mpr ⟨he, hcovered⟩)
      · simp only [raiseIf, Bool.false_eq_true, hempty, ↓reduceIte]
        obtain ⟨e, he⟩ := List.exists_mem_of_ne_nil good hempty
        refine .inl ⟨good, rfl, fun e he hstatus => hambiguous ⟨e, he, hstatus⟩, hconsistent, ?_⟩
        exact ⟨e, (hmem e).mp he⟩

theorem requireEvidence_iff (action : String) (h : action ∈ correctnessSensitiveEvidenceActions)
    (c : ContinuityCore) (clock : Number) (evidenceIds : List String) (now : Option Number)
    (requiredScope : Option (FrozenSet (String × String))) :
    (∃ good, c.requireEvidence clock action evidenceIds now requiredScope none = .ok good) ↔
      Suffices (c.knownEvidence evidenceIds) (now.getD clock) requiredScope := by
  rcases requireEvidence_spec action h c clock evidenceIds now requiredScope with
    ⟨good, hok, hs⟩ | ⟨message, herror, hs⟩
  · exact ⟨fun _ => hs, fun _ => ⟨good, hok⟩⟩
  · refine ⟨fun ⟨good, hok⟩ => ?_, fun hs' => (hs hs').elim⟩
    rw [herror] at hok
    cases hok

theorem consistent_perm {evs evs' : List Evidence} (h : evs'.Perm evs) : Consistent evs' now ↔ Consistent evs now := by
  constructor
  · exact fun hc a ha b hb => hc a (h.mem_iff.mpr ha) b (h.mem_iff.mpr hb)
  · exact fun hc a ha b hb => hc a (h.mem_iff.mp ha) b (h.mem_iff.mp hb)

/-- The gate lets an action pass, or refuses it with the same error, in whatever order the items are
listed. -/
theorem requireEvidence_perm (action : String) (h : action ∈ correctnessSensitiveEvidenceActions)
    (clock : Number) {evidenceIds evidenceIds' : List String} (hp : evidenceIds'.Perm evidenceIds)
    (now : Option Number) (requiredScope : Option (FrozenSet (String × String))) :
    (c.requireEvidence clock action evidenceIds' now requiredScope none).map (fun _ => ()) =
      (c.requireEvidence clock action evidenceIds now requiredScope none).map fun _ => () := by
  have hevs : (c.knownEvidence evidenceIds').Perm (c.knownEvidence evidenceIds) := hp.filterMap _
  obtain ⟨b, hb, hconflict⟩ := hasConflicting_decides h (c.knownEvidence evidenceIds) (now.getD clock)
  obtain ⟨b', hb', hconflict'⟩ :=
    hasConflicting_decides h (c.knownEvidence evidenceIds') (now.getD clock)
  obtain ⟨good, hgood, hmem⟩ :=
    goodEvidence_spec (c.knownEvidence evidenceIds) (now.getD clock) requiredScope
  obtain ⟨good', hgood', hmem'⟩ :=
    goodEvidence_spec (c.knownEvidence evidenceIds') (now.getD clock) requiredScope
  have hsame : b' = b := by
    rw [Bool.eq_iff_iff, hconflict', hconflict, consistent_perm hevs]
  have hambiguous : (∃ e ∈ c.knownEvidence evidenceIds', e.status = .ambiguous) ↔
      ∃ e ∈ c.knownEvidence evidenceIds, e.status = .ambiguous := by
    simp only [hevs.mem_iff]
  have hempty : good' = [] ↔ good = [] := by
    simp only [List.eq_nil_iff_forall_not_mem, hmem, hmem', hevs.mem_iff]
  subst hsame
  simp only [ContinuityCore.requireEvidence, requiredAuthority_sensitive h, if_pos h, hb, hb', hgood,
    hgood', bind, Except.bind, raiseIf, hambiguous]
  split
  · rfl
  · cases b' with
    | true => rfl
    | false =>
      simp only [Bool.false_eq_true, hempty, ↓reduceIte]
      split
      · rfl
      · rfl

theorem reconcile_spec (h : action ∈ correctnessSensitiveEvidenceActions)
    (c : ContinuityCore) (clock : Number) (evidenceIds : List String) (now : Option Number)
    (requiredScope : Option (FrozenSet (String × String))) :
    ∃ outcome, c.reconcile clock action evidenceIds now requiredScope = .ok outcome ∧
      (outcome = .matched ∨ outcome = .wait ∨ outcome = .ambiguous) ∧
      (outcome = .matched ↔
        Suffices (c.knownEvidence evidenceIds) (now.getD clock) requiredScope) ∧
      (outcome = .ambiguous ↔ (∃ e ∈ c.knownEvidence evidenceIds, e.status = .ambiguous) ∨
        ¬ Consistent (c.knownEvidence evidenceIds) (now.getD clock)) := by
  obtain ⟨b, hb, hconflict⟩ := hasConflicting_decides h (c.knownEvidence evidenceIds) (now.getD clock)
  unfold ContinuityCore.reconcile
  by_cases hambiguous : ∃ e ∈ c.knownEvidence evidenceIds, e.status = .ambiguous
  · simp only [hambiguous, true_or]
    obtain ⟨e, he, hstatus⟩ := hambiguous
    refine ⟨.ambiguous, rfl, by decide, ⟨fun h => ?_, fun hs => ?_⟩, by decide⟩
    · cases h
    · exact (hs.unambiguous e he hstatus).elim
  · simp only [hb, bind, Except.bind, hambiguous, false_or]
    cases b with
    | true =>
      have hinconsistent := hconflict.mp rfl
      refine ⟨.ambiguous, rfl, by decide, ⟨fun h => ?_, fun hs => ?_⟩, ?_⟩
      · cases h
      · exact (hinconsistent hs.consistent).elim
      · exact ⟨fun _ => hinconsistent, fun _ => rfl⟩
    | false =>
      have hconsistent : ¬ ¬ Consistent (c.knownEvidence evidenceIds) (now.getD clock) :=
        fun hn => Bool.false_ne_true (hconflict.mpr hn)
      simp only [Bool.false_eq_true, ↓reduceIte, hconsistent, iff_false]
      rcases requireEvidence_spec action h c clock evidenceIds (some (now.getD clock)) requiredScope with
        ⟨good, hok, hs⟩ | ⟨message, herror, hs⟩
      · rw [hok]
        exact ⟨.matched, rfl, by decide, ⟨fun _ => hs, fun _ => rfl⟩, by decide⟩
      · rw [herror]
        refine ⟨.wait, rfl, by decide, ⟨fun h => ?_, fun hs' => (hs hs').elim⟩, by decide⟩
        cases h

end Gate

end Cadi
