import Cadi.Correctness.Pairing

namespace Cadi
open Library
set_option autoImplicit true

section Counts

theorem violations_le_opportunities (r : CorrectnessEvaluationRecord) (metric : CorrectnessMetric) :
    r.violations.countP (·.metric = metric) ≤ r.opportunities.countP (·.metric = metric) := by
  have hnodup : (r.violations.filter (·.metric = metric)).Nodup :=
    (List.Nodup.of_map _ r.events.distinctViolations).filter _
  have hsubset : r.violations.filter (·.metric = metric) ⊆
      (r.opportunities.filter (·.metric = metric)).map Opportunity.pair := by
    intro v hv
    rw [List.mem_filter, decide_eq_true_eq] at hv
    obtain ⟨o, ho, rfl⟩ := List.mem_map.mp (r.events.matched v hv.1)
    exact List.mem_map_of_mem (List.mem_filter.mpr ⟨ho, decide_eq_true hv.2⟩)
  have hle := (hnodup.subperm hsubset).length_le
  rw [List.length_map] at hle
  simpa only [List.countP_eq_length_filter] using hle

theorem sum_map_le {l : List α} {f g : α → Nat} (h : ∀ a, f a ≤ g a) :
    (l.map f).sum ≤ (l.map g).sum := by
  induction l with
  | nil => exact Nat.le_refl 0
  | cons a l ih =>
    rw [List.map_cons, List.map_cons, List.sum_cons, List.sum_cons]
    exact Nat.add_le_add (h a) ih

/-- Every faulted operation is counted under exactly one outcome. -/
theorem countOutcome_all (l : List CorrectnessEvaluationRecord) :
    (OutcomeClass.all.map fun o => countOutcome l [o]).sum = l.length := by
  simp only [OutcomeClass.all, List.map_cons, List.map_nil, List.sum_cons, List.sum_nil, countOutcome,
    List.mem_singleton]
  induction l with
  | nil => rfl
  | cons r l ih =>
    simp only [List.countP_cons, List.length_cons]
    cases r.outcomeClass with
    | correctTransparentRecovery | correctDegradedRecovery | explicitNonSuccess
    | silentSemanticViolation =>
      simp only [decide_true, reduceCtorEq, decide_false, ↓reduceIte, Bool.false_eq_true]
      omega

theorem countOutcome_recovery (l : List CorrectnessEvaluationRecord) :
    countOutcome l [.correctTransparentRecovery, .correctDegradedRecovery] =
      countOutcome l [.correctTransparentRecovery] + countOutcome l [.correctDegradedRecovery] := by
  simp only [countOutcome, List.mem_cons, List.not_mem_nil, or_false]
  induction l with
  | nil => rfl
  | cons r l ih =>
    simp only [List.countP_cons, ih]
    cases r.outcomeClass with
    | correctTransparentRecovery | correctDegradedRecovery | explicitNonSuccess
    | silentSemanticViolation =>
      simp only [decide_true, reduceCtorEq, decide_false, ↓reduceIte, Bool.false_eq_true, or_false,
        or_true]
      omega

end Counts

section Rates
variable {l f : List CorrectnessEvaluationRecord}

theorem rateCount_create (metric : CorrectnessMetric) (h : n ≤ d) :
    RateCount.create metric n d = .ok ⟨metric, n, d, h⟩ :=
  dif_pos h

/-- The numerator and the denominator of each metric. -/
def rateParts (l f : List CorrectnessEvaluationRecord) (metric : CorrectnessMetric) : Nat × Nat :=
  match metric with
  | .silentSemanticErrorRate => (countOutcome f [.silentSemanticViolation], f.length)
  | .explicitNonSuccessRate => (countOutcome f [.explicitNonSuccess], f.length)
  | .recoveryRate =>
    (countOutcome f [.correctTransparentRecovery, .correctDegradedRecovery], f.length)
  | metric => ((l.map fun r => r.violations.countP (·.metric = metric)).sum,
      (l.map fun r => r.opportunities.countP (·.metric = metric)).sum)

theorem rateCount_eq (l f : List CorrectnessEvaluationRecord) (metric : CorrectnessMetric) :
    rateCount l f metric =
      RateCount.create metric (rateParts l f metric).1 (rateParts l f metric).2 := by
  cases metric <;> rfl

theorem rateParts_le (l f : List CorrectnessEvaluationRecord) (metric : CorrectnessMetric) :
    (rateParts l f metric).1 ≤ (rateParts l f metric).2 := by
  have hcount (outcomes : List OutcomeClass) : countOutcome f outcomes ≤ f.length :=
    List.countP_le_length
  have hsum := sum_map_le (l := l) fun r => violations_le_opportunities r metric
  cases metric with
  | silentSemanticErrorRate | explicitNonSuccessRate | recoveryRate => exact hcount _
  | staleAttemptAcceptanceRate | wrongBranchReuseRate | wrongStateConsumptionRate
  | silentBindingDivergenceRate | ambiguousCommitRate | duplicateFinalizationRate => exact hsum

theorem rateCount_ok (l f : List CorrectnessEvaluationRecord) (metric : CorrectnessMetric) :
    ∃ r, rateCount l f metric = .ok r ∧ r.metric = metric ∧
      (r.numerator, r.denominator) = rateParts l f metric := by
  rw [rateCount_eq, rateCount_create metric (rateParts_le l f metric)]
  exact ⟨_, rfl, rfl, rfl⟩

theorem rates_ok (l f : List CorrectnessEvaluationRecord) :
    ∃ rates, CorrectnessMetric.all.mapM (rateCount l f) = .ok rates ∧
      rates.map RateCount.metric = CorrectnessMetric.all ∧
      ∀ r ∈ rates, (r.numerator, r.denominator) = rateParts l f r.metric := by
  obtain ⟨rates, hrates⟩ := Except.mapM_total (l := CorrectnessMetric.all) (f := rateCount l f)
    fun metric _ => by
      obtain ⟨r, hr, _⟩ := rateCount_ok l f metric
      exact ⟨r, hr⟩
  refine ⟨rates, hrates, ?_, fun r hr => ?_⟩
  · have hall := Except.mapM_eq_ok.mp hrates
    have hmetric : List.Forall₂ (fun metric (r : RateCount) => metric = r.metric)
        CorrectnessMetric.all rates :=
      hall.imp fun metric r hr => by
        obtain ⟨r', hr', hm, _⟩ := rateCount_ok l f metric
        rw [hr, Except.ok.injEq] at hr'
        exact hr' ▸ hm.symm
    exact (List.forall₂_eq_eq_eq ▸ List.forall₂_map_right_iff.mpr hmetric : _ = _).symm
  · obtain ⟨metric, _, hmetric⟩ := Except.mapM_source hrates hr
    obtain ⟨r', hr', hm, hparts⟩ := rateCount_ok l f metric
    rw [hmetric, Except.ok.injEq] at hr'
    subst hr'
    rw [hm]
    exact hparts

end Rates

section Policies
variable {records : List CorrectnessEvaluationRecord}

def faultedRecords (records : List CorrectnessEvaluationRecord) (p : PolicyID) :
    List CorrectnessEvaluationRecord :=
  (policyRecords records p).filter (·.faultId ≠ none)

/-- What the summary of a policy says about its records. -/
structure PolicySummarized (records : List CorrectnessEvaluationRecord) (p : PolicyID)
    (s : PolicyCorrectnessSummary) : Prop where
  policy : s.policyId = p
  operations : s.operationCount = (policyRecords records p).length
  faulted : s.faultedOperationCount = (faultedRecords records p).length
  outcomes : s.outcomeCounts =
    OutcomeClass.all.map fun o => (o, countOutcome (faultedRecords records p) [o])
  rate : ∀ r ∈ s.rates, (r.numerator, r.denominator) =
    rateParts (policyRecords records p) (faultedRecords records p) r.metric

theorem policySummary_create (hle : k ≤ n) (houtcomes : outcomes.map Prod.fst = OutcomeClass.all)
    (hsum : (outcomes.map Prod.snd).sum = k)
    (hmetrics : rates.map RateCount.metric = CorrectnessMetric.all) :
    PolicyCorrectnessSummary.create p n k outcomes rates =
      .ok ⟨p, n, k, outcomes, rates, hle, houtcomes, hsum, hmetrics⟩ := by
  simp only [PolicyCorrectnessSummary.create, dif_pos hle, dif_pos houtcomes, dif_pos hsum,
    dif_pos hmetrics]

theorem summarizePolicy_ok (records : List CorrectnessEvaluationRecord) (p : PolicyID) :
    ∃ s, summarizePolicy records p = .ok s ∧ PolicySummarized records p s := by
  obtain ⟨rates, hrates, hmetrics, hparts⟩ :=
    rates_ok (policyRecords records p) (faultedRecords records p)
  have hle : (faultedRecords records p).length ≤ (policyRecords records p).length :=
    List.length_filter_le _ _
  have hfst : (OutcomeClass.all.map fun o => (o, countOutcome (faultedRecords records p) [o])).map
      Prod.fst = OutcomeClass.all := rfl
  have hsum : ((OutcomeClass.all.map fun o => (o, countOutcome (faultedRecords records p) [o])).map
      Prod.snd).sum = (faultedRecords records p).length := by
    rw [List.map_map]
    exact countOutcome_all (faultedRecords records p)
  have hok : summarizePolicy records p = .ok ⟨p, _, _, _, rates, hle, hfst, hsum, hmetrics⟩ := by
    rw [← policySummary_create hle hfst hsum hmetrics]
    change (CorrectnessMetric.all.mapM
      (rateCount (policyRecords records p) (faultedRecords records p)) >>= _) = _
    rw [hrates, Except.ok_bind]
    rfl
  exact ⟨_, hok, rfl, rfl, rfl, rfl, hparts⟩

theorem policiesOf_nodup (records : List CorrectnessEvaluationRecord) :
    (policiesOf records).Nodup :=
  List.Nodup.filter _ (by decide)

/-- The summary of records that passed the validation never fails one of its checks: it has the
summaries of the policies that occur. -/
theorem summarizeCorrectness_ok (h : Summarizable records) :
    ∃ s, summarizeCorrectness records = .ok s ∧
      List.Forall₂ (PolicySummarized records) (policiesOf records) s.policySummaries := by
  obtain ⟨r, hr⟩ := List.exists_mem_of_ne_nil records h.nonempty
  obtain ⟨summaries, hsummaries⟩ := Except.mapM_total (l := policiesOf records)
    (f := summarizePolicy records) fun p _ => by
      obtain ⟨s, hs, _⟩ := summarizePolicy_ok records p
      exact ⟨s, hs⟩
  have hall : List.Forall₂ (PolicySummarized records) (policiesOf records) summaries :=
    (Except.mapM_eq_ok.mp hsummaries).imp fun p s hs => by
      obtain ⟨s', hs', hsummarized⟩ := summarizePolicy_ok records p
      rw [hs, Except.ok.injEq] at hs'
      exact hs' ▸ hsummarized
  have hpolicies : summaries.map (·.policyId) = policiesOf records := by
    have hpolicy : List.Forall₂ (fun p (s : PolicyCorrectnessSummary) => p = s.policyId)
        (policiesOf records) summaries := hall.imp fun p s hs => hs.policy.symm
    exact (List.forall₂_eq_eq_eq ▸ List.forall₂_map_right_iff.mpr hpolicy : _ = _).symm
  have hdistinct : (summaries.map (·.policyId)).Nodup := hpolicies ▸ policiesOf_nodup records
  have hordered : summaries.map (·.policyId) =
      PolicyID.all.filter (· ∈ summaries.map (·.policyId)) := by
    rw [hpolicies]
    apply List.filter_congr
    intro p _
    rw [decide_eq_decide, mem_policiesOf]
  rw [summarizeCorrectness_eq h hr, hsummaries, Except.ok_bind, CorrectnessSummary.create,
    dif_pos hdistinct, dif_pos hordered]
  exact ⟨_, rfl, hall⟩

end Policies

end Cadi
