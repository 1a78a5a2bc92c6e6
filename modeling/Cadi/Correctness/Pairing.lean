import Cadi.Correctness.Summary

namespace Cadi
open Library
set_option autoImplicit true

/-- Every operation is run under the same policies, with the same inputs under each of them. -/
structure CohortsPaired (records : List CorrectnessEvaluationRecord) : Prop where
  coverage : ∀ r ∈ records, ∀ r' ∈ records,
    ∃ s ∈ records, s.operationKey = r.operationKey ∧ s.policyId = r'.policyId
  signature : ∀ r ∈ records, ∀ r' ∈ records, r'.operationKey = r.operationKey →
    r'.pairedInvariantSignature = r.pairedInvariantSignature
  exogenous : ∀ r ∈ records, ∀ r' ∈ records, r'.operationKey = r.operationKey →
    r'.exogenousOpportunitySignature = r.exogenousOpportunitySignature

/-- The records from which a summary can be made. -/
structure Summarizable (records : List CorrectnessEvaluationRecord) : Prop where
  nonempty : records ≠ []
  distinct : (records.map (·.identity)).Nodup
  stratum : ∀ r ∈ records, ∀ r' ∈ records, r.stratum = r'.stratum
  paired : CohortsPaired records

section Groups
variable {records : List CorrectnessEvaluationRecord}

theorem dedup_eq_singleton [DecidableEq α] {l : List α} :
    l.dedup = [a] ↔ l ≠ [] ∧ ∀ b ∈ l, b = a := by
  constructor
  · intro h
    have hmem (b : α) : b ∈ l ↔ b = a := by
      rw [← List.mem_dedup, h, List.mem_singleton]
    refine ⟨?_, fun b hb => (hmem b).mp hb⟩
    rintro rfl
    cases h
  · rintro ⟨hne, hall⟩
    obtain ⟨b, hb⟩ := List.exists_mem_of_ne_nil l hne
    have hperm : l.dedup.Perm [a] := by
      apply (List.perm_ext_iff_of_nodup (List.nodup_dedup l) (List.nodup_singleton a)).mpr
      intro x
      rw [List.mem_dedup, List.mem_singleton]
      refine ⟨hall x, ?_⟩
      rintro rfl
      exact hall b hb ▸ hb
    exact List.perm_singleton.mp hperm

theorem dedup_length_eq_one [DecidableEq α] {l : List α} :
    l.dedup.length = 1 ↔ l ≠ [] ∧ ∀ a ∈ l, ∀ b ∈ l, b = a := by
  rw [List.length_eq_one_iff]
  simp only [dedup_eq_singleton]
  constructor
  · rintro ⟨a, hne, hall⟩
    exact ⟨hne, fun b hb c hc => (hall c hc).trans (hall b hb).symm⟩
  · rintro ⟨hne, hall⟩
    obtain ⟨a, ha⟩ := List.exists_mem_of_ne_nil l hne
    exact ⟨a, hne, hall a ha⟩

theorem operationGroups_append (l : List CorrectnessEvaluationRecord)
    (r : CorrectnessEvaluationRecord) : operationGroups (l ++ [r]) =
      (operationGroups l).set r.operationKey
        (((operationGroups l).get? r.operationKey).getD [] ++ [r]) :=
  List.foldl_append

theorem operationGroups_get? (records : List CorrectnessEvaluationRecord) (key : OperationKey) :
    ((operationGroups records).get? key).getD [] = records.filter (·.operationKey = key) := by
  induction records using List.reverseRecOn with
  | nil => rfl
  | append_singleton l r ih =>
    rw [operationGroups_append, Dict.get?_set, List.filter_append]
    by_cases hk : r.operationKey = key
    · subst hk
      simp only [↓reduceIte, Option.getD_some, ih, decide_true, List.filter_cons, List.filter_nil]
    · simp only [hk, ↓reduceIte, ih, decide_false, List.filter_cons, List.filter_nil,
        List.append_nil, Bool.false_eq_true]

theorem operationGroups_mem (records : List CorrectnessEvaluationRecord) (key : OperationKey) :
    key ∈ operationGroups records ↔ ∃ r ∈ records, r.operationKey = key := by
  induction records using List.reverseRecOn with
  | nil =>
    constructor
    · intro h
      cases h
    · rintro ⟨r, hr, _⟩
      cases hr
  | append_singleton l r ih =>
    rw [operationGroups_append, Dict.mem_set, ih]
    simp only [List.mem_append, List.mem_singleton, or_and_right, exists_or, exists_eq_left, or_comm]

theorem operationGroups_entry : (key, group) ∈ (operationGroups records).entries ↔
    group = records.filter (·.operationKey = key) ∧ ∃ r ∈ records, r.operationKey = key := by
  rw [← Dict.get?_eq_some_iff, ← operationGroups_get?, ← operationGroups_mem, Dict.mem_iff]
  constructor
  · intro h
    rw [h]
    exact ⟨rfl, group, rfl⟩
  · rintro ⟨rfl, group', h⟩
    rw [h]
    rfl

theorem mem_policiesOf : p ∈ policiesOf records ↔ ∃ r ∈ records, r.policyId = p := by
  have hall : p ∈ PolicyID.all := by cases p <;> decide
  simp only [policiesOf, List.mem_filter, hall, true_and, decide_eq_true_eq]

theorem policiesOf_eq_iff {l l' : List CorrectnessEvaluationRecord} :
    policiesOf l = policiesOf l' ↔
      ∀ p, (∃ r ∈ l, r.policyId = p) ↔ ∃ r ∈ l', r.policyId = p := by
  constructor
  · intro h p
    rw [← mem_policiesOf, h, mem_policiesOf]
  · intro h
    unfold policiesOf
    apply List.filter_congr
    intro p _
    simp only [h p]

/-- The checks on a group of records compare every two of them. -/
theorem checkGroup_eq_ok {group : List CorrectnessEvaluationRecord} (hne : group ≠ []) :
    checkGroup (policiesOf records) (key, group) = .ok () ↔
      (∀ p, (∃ r ∈ group, r.policyId = p) ↔ ∃ r ∈ records, r.policyId = p) ∧
      (∀ r ∈ group, ∀ r' ∈ group, r'.pairedInvariantSignature = r.pairedInvariantSignature) ∧
      ∀ r ∈ group, ∀ r' ∈ group,
        r'.exogenousOpportunitySignature = r.exogenousOpportunitySignature := by
  simp only [checkGroup, Except.then_eq_ok, raiseIf_eq_ok, not_not, dedup_length_eq_one,
    policiesOf_eq_iff, List.forall_mem_map, ne_eq, List.map_eq_nil_iff, hne, not_false_eq_true,
    true_and]

theorem validatePairedCohorts_eq_ok :
    validatePairedCohorts records = .ok ps ↔ ps = policiesOf records ∧ CohortsPaired records := by
  simp only [validatePairedCohorts, Except.then_eq_ok, Except.forM_eq_ok, Except.pure_eq_ok]
  rw [and_comm, eq_comm]
  apply and_congr_right
  intro _
  have hmem (r s : CorrectnessEvaluationRecord) :
      s ∈ records.filter (·.operationKey = r.operationKey) ↔
        s ∈ records ∧ s.operationKey = r.operationKey := by
    rw [List.mem_filter, decide_eq_true_eq]
  have hne (r : CorrectnessEvaluationRecord) (hr : r ∈ records) :
      records.filter (·.operationKey = r.operationKey) ≠ [] :=
    List.ne_nil_of_mem ((hmem r r).mpr ⟨hr, rfl⟩)
  constructor
  · intro h
    have hgroup (r : CorrectnessEvaluationRecord) (hr : r ∈ records) :=
      (checkGroup_eq_ok (hne r hr)).mp (h (r.operationKey, _)
        (operationGroups_entry.mpr ⟨rfl, r, hr, rfl⟩))
    refine ⟨fun r hr r' hr' => ?_, fun r hr r' hr' hk => ?_, fun r hr r' hr' hk => ?_⟩
    · obtain ⟨s, hs, hp⟩ := ((hgroup r hr).1 r'.policyId).mpr ⟨r', hr', rfl⟩
      exact ⟨s, ((hmem r s).mp hs).1, ((hmem r s).mp hs).2, hp⟩
    · exact (hgroup r hr).2.1 r ((hmem r r).mpr ⟨hr, rfl⟩) r' ((hmem r r').mpr ⟨hr', hk⟩)
    · exact (hgroup r hr).2.2 r ((hmem r r).mpr ⟨hr, rfl⟩) r' ((hmem r r').mpr ⟨hr', hk⟩)
  · rintro hp ⟨key, group⟩ hentry
    obtain ⟨rfl, r, hr, rfl⟩ := operationGroups_entry.mp hentry
    rw [checkGroup_eq_ok (hne r hr)]
    refine ⟨fun p => ⟨?_, ?_⟩, fun a ha b hb => ?_, fun a ha b hb => ?_⟩
    · rintro ⟨s, hs, hsp⟩
      exact ⟨s, ((hmem r s).mp hs).1, hsp⟩
    · rintro ⟨r', hr', rfl⟩
      obtain ⟨s, hs, hk, hsp⟩ := hp.coverage r hr r' hr'
      exact ⟨s, (hmem r s).mpr ⟨hs, hk⟩, hsp⟩
    · obtain ⟨ha, hka⟩ := (hmem r a).mp ha
      obtain ⟨hb, hkb⟩ := (hmem r b).mp hb
      exact hp.signature a ha b hb (hkb.trans hka.symm)
    · obtain ⟨ha, hka⟩ := (hmem r a).mp ha
      obtain ⟨hb, hkb⟩ := (hmem r b).mp hb
      exact hp.exogenous a ha b hb (hkb.trans hka.symm)

theorem validateEvidenceStratum_eq_ok : validateEvidenceStratum records = .ok s ↔
    records ≠ [] ∧ ∀ r ∈ records, r.stratum = s := by
  have hsingle : validateEvidenceStratum records = .ok s ↔
      (records.map (·.stratum)).dedup = [s] := by
    unfold validateEvidenceStratum
    split
    · next t ht => rw [ht, Except.ok.injEq, List.cons.injEq, and_iff_left rfl]
    · next hno =>
      simp only [reduceCtorEq, false_iff]
      exact hno s
  rw [hsingle, dedup_eq_singleton]
  simp only [ne_eq, List.map_eq_nil_iff, List.forall_mem_map]

end Groups

section Permutations
variable {records records' : List CorrectnessEvaluationRecord}

theorem Summarizable.perm (h : Summarizable records) (hp : records.Perm records') :
    Summarizable records' where
  nonempty he := h.nonempty (List.perm_nil.mp (he ▸ hp))
  distinct := (hp.map _).nodup_iff.mp h.distinct
  stratum r hr r' hr' := h.stratum r (hp.mem_iff.mpr hr) r' (hp.mem_iff.mpr hr')
  paired :=
    { coverage := fun r hr r' hr' => by
        obtain ⟨s, hs, hk, hsp⟩ :=
          h.paired.coverage r (hp.mem_iff.mpr hr) r' (hp.mem_iff.mpr hr')
        exact ⟨s, hp.mem_iff.mp hs, hk, hsp⟩
      signature := fun r hr r' hr' =>
        h.paired.signature r (hp.mem_iff.mpr hr) r' (hp.mem_iff.mpr hr')
      exogenous := fun r hr r' hr' =>
        h.paired.exogenous r (hp.mem_iff.mpr hr) r' (hp.mem_iff.mpr hr') }

theorem policyRecords_perm (records : List CorrectnessEvaluationRecord) (p : PolicyID) :
    (policyRecords records p).Perm (records.filter (·.policyId = p)) :=
  List.perm_insertionSort _ _

theorem rateCount_perm {l l' f f' : List CorrectnessEvaluationRecord} (hl : l.Perm l')
    (hf : f.Perm f') (metric : CorrectnessMetric) :
    rateCount l f metric = rateCount l' f' metric := by
  have hcount (outcomes : List OutcomeClass) : countOutcome f outcomes = countOutcome f' outcomes :=
    hf.countP_eq _
  have hsum (g : CorrectnessEvaluationRecord → Nat) : (l.map g).sum = (l'.map g).sum :=
    (hl.map g).sum_nat
  simp only [rateCount, hcount, hf.length_eq, hsum]

theorem summarizePolicy_perm (hp : records.Perm records') (p : PolicyID) :
    summarizePolicy records p = summarizePolicy records' p := by
  have hl : (policyRecords records p).Perm (policyRecords records' p) :=
    (policyRecords_perm records p).trans ((hp.filter _).trans (policyRecords_perm records' p).symm)
  have hf := hl.filter (·.faultId ≠ none)
  have hrates : rateCount (policyRecords records p)
      ((policyRecords records p).filter (·.faultId ≠ none)) =
        rateCount (policyRecords records' p)
          ((policyRecords records' p).filter (·.faultId ≠ none)) :=
    funext (rateCount_perm hl hf)
  have hcount (outcomes : List OutcomeClass) :
      countOutcome ((policyRecords records p).filter (·.faultId ≠ none)) outcomes =
        countOutcome ((policyRecords records' p).filter (·.faultId ≠ none)) outcomes :=
    hf.countP_eq _
  simp only [summarizePolicy, hrates, hcount, hl.length_eq, hf.length_eq]

theorem policiesOf_perm (hp : records.Perm records') : policiesOf records = policiesOf records' := by
  rw [policiesOf_eq_iff]
  intro p
  simp only [hp.mem_iff]

/-- When the records can be summarized, the summary is that of their policies. -/
theorem summarizeCorrectness_eq (h : Summarizable records) (hr : r ∈ records) :
    summarizeCorrectness records = (do
      let summaries ← (policiesOf records).mapM (summarizePolicy records)
      CorrectnessSummary.create r.validationLevel r.evidenceProvenance summaries) := by
  have hempty : records.isEmpty = false := by
    rw [List.isEmpty_eq_false_iff]
    exact h.nonempty
  have hstratum : validateEvidenceStratum records = .ok r.stratum :=
    validateEvidenceStratum_eq_ok.mpr ⟨h.nonempty, fun s hs => h.stratum s hs r hr⟩
  have hpaired : validatePairedCohorts records = .ok (policiesOf records) :=
    validatePairedCohorts_eq_ok.mpr ⟨rfl, h.paired⟩
  simp only [summarizeCorrectness, raiseIf, hempty, h.distinct, not_true_eq_false, Bool.false_eq_true,
    ↓reduceIte, Except.ok_bind, hstratum, hpaired]
  rfl

theorem summarizable_of_ok (h : summarizeCorrectness records = .ok s) : Summarizable records := by
  simp only [summarizeCorrectness, Except.bind_eq_ok, raiseIf_eq_ok, not_not,
    validateEvidenceStratum_eq_ok, validatePairedCohorts_eq_ok, List.isEmpty_iff] at h
  obtain ⟨_, hne, _, hdistinct, stratum, ⟨_, hstratum⟩, ps, ⟨_, hpaired⟩, _⟩ := h
  exact ⟨hne, hdistinct, fun r hr r' hr' => (hstratum r hr).trans (hstratum r' hr').symm, hpaired⟩

end Permutations

end Cadi
