import Cadi.Correctness.Balance

namespace Cadi
open Library
set_option autoImplicit true

section Pairs

/-- What a record shares with those of the same operation under other policies. -/
abbrev PairedInput := OperationKey × PairedInvariantSignature × List (String × String)

def pairedInput (r : CorrectnessEvaluationRecord) : PairedInput :=
  (r.operationKey, r.pairedInvariantSignature, r.exogenousOpportunitySignature)

variable {records : List CorrectnessEvaluationRecord}

theorem policy_inputs_nodup (h : Summarizable records) (p : PolicyID) :
    ((records.filter (·.policyId = p)).map pairedInput).Nodup := by
  have hidentity : ((records.filter (·.policyId = p)).map (·.identity)).Nodup :=
    h.distinct.sublist (List.filter_sublist.map _)
  have hkeys : ((records.filter (·.policyId = p)).map (·.identity)) =
      ((records.filter (·.policyId = p)).map pairedInput).map fun x => (p, x.1) := by
    rw [List.map_map]
    apply List.map_congr_left
    intro r hr
    rw [List.mem_filter, decide_eq_true_eq] at hr
    exact congrArg (·, r.operationKey) hr.2
  rw [hkeys] at hidentity
  exact hidentity.of_map _

theorem policy_inputs_subset (h : Summarizable records) (p : PolicyID)
    (hq : q ∈ policiesOf records) :
    (records.filter (·.policyId = p)).map pairedInput ⊆
      (records.filter (·.policyId = q)).map pairedInput := by
  intro x hx
  obtain ⟨r, hr, rfl⟩ := List.mem_map.mp hx
  obtain ⟨r', hr', rfl⟩ := mem_policiesOf.mp hq
  have hmem := (List.mem_filter.mp hr).1
  obtain ⟨s, hs, hkey, hpolicy⟩ := h.paired.coverage r hmem r' hr'
  have hinput : pairedInput s = pairedInput r := by
    rw [pairedInput, pairedInput, hkey, h.paired.signature r hmem s hs hkey,
      h.paired.exogenous r hmem s hs hkey]
  exact List.mem_map.mpr ⟨s, List.mem_filter.mpr ⟨hs, decide_eq_true hpolicy⟩, hinput⟩

/-- Every policy is run on the same inputs. -/
theorem policy_inputs_perm (h : Summarizable records) (hp : p ∈ policiesOf records)
    (hq : q ∈ policiesOf records) :
    ((policyRecords records p).map pairedInput).Perm
      ((policyRecords records q).map pairedInput) := by
  have hperm : ((records.filter (·.policyId = p)).map pairedInput).Perm
      ((records.filter (·.policyId = q)).map pairedInput) := by
    apply (List.perm_ext_iff_of_nodup (policy_inputs_nodup h p) (policy_inputs_nodup h q)).mpr
    intro x
    constructor
    · intro hx
      exact policy_inputs_subset h p hq hx
    · intro hx
      exact policy_inputs_subset h q hp hx
  exact ((policyRecords_perm records p).map _).trans
    (hperm.trans ((policyRecords_perm records q).map _).symm)

theorem countP_exogenous {l : List Opportunity} (hm : metric ∈ exogenousPairedGateMetrics)
    (hscope : ∀ o ∈ l, scopeForMetric o.metric = .ok o.scope) :
    l.countP (·.metric = metric) = ((l.filter (·.scope = .exogenousPaired)).map fun o =>
      (o.metric.value, o.eventId)).countP (·.1 = metric.value) := by
  induction l with
  | nil => rfl
  | cons o l ih =>
    have hl := ih fun o ho => hscope o (List.mem_cons_of_mem _ ho)
    have ho := hscope o List.mem_cons_self
    rw [List.countP_cons, hl, List.filter_cons]
    by_cases hmetric : o.metric = metric
    · have hexogenous : o.scope = .exogenousPaired := by
        rw [hmetric, scopeForMetric, if_pos hm, Except.ok.injEq] at ho
        exact ho.symm
      simp only [hexogenous, hmetric, decide_true, ↓reduceIte, List.map_cons, List.countP_cons]
    · have hvalue : o.metric.value ≠ metric.value := fun hv =>
        hmetric (CorrectnessMetric.value_injective hv)
      simp only [hmetric, decide_false, Bool.false_eq_true, ↓reduceIte, Nat.add_zero]
      split
      · simp only [List.map_cons, List.countP_cons, hvalue, decide_false, Bool.false_eq_true,
          ↓reduceIte, Nat.add_zero]
      · rfl

theorem exogenous_opportunities (r : CorrectnessEvaluationRecord)
    (hm : metric ∈ exogenousPairedGateMetrics) :
    r.opportunities.countP (·.metric = metric) =
      r.exogenousOpportunitySignature.countP (·.1 = metric.value) :=
  countP_exogenous hm r.events.scopes

end Pairs

section Cohorts
variable {records : List CorrectnessEvaluationRecord}

theorem operations_eq (h : Summarizable records) (hp : p ∈ policiesOf records)
    (hq : q ∈ policiesOf records) :
    (policyRecords records p).length = (policyRecords records q).length := by
  have hlength := (policy_inputs_perm h hp hq).length_eq
  rwa [List.length_map, List.length_map] at hlength

theorem faulted_eq (h : Summarizable records) (hp : p ∈ policiesOf records)
    (hq : q ∈ policiesOf records) :
    (faultedRecords records p).length = (faultedRecords records q).length := by
  have hcount := (policy_inputs_perm h hp hq).countP_eq fun x => decide (x.2.1.faultId ≠ none)
  rw [List.countP_map, List.countP_map] at hcount
  rw [faultedRecords, faultedRecords, ← List.countP_eq_length_filter,
    ← List.countP_eq_length_filter]
  exact hcount

theorem opportunities_eq (h : Summarizable records) (hp : p ∈ policiesOf records)
    (hq : q ∈ policiesOf records) (hm : metric ∈ exogenousPairedGateMetrics) :
    ((policyRecords records p).map fun r => r.opportunities.countP (·.metric = metric)).sum =
      ((policyRecords records q).map fun r => r.opportunities.countP (·.metric = metric)).sum := by
  have hsum := ((policy_inputs_perm h hp hq).map fun x =>
    x.2.2.countP (·.1 = metric.value)).sum_nat
  rw [List.map_map, List.map_map] at hsum
  simp only [exogenous_opportunities _ hm]
  exact hsum

def outcomeRates : List CorrectnessMetric :=
  [.silentSemanticErrorRate, .explicitNonSuccessRate, .recoveryRate]

theorem denominator_outcome (hm : metric ∈ outcomeRates) :
    (rateParts l f metric).2 = f.length := by
  simp only [outcomeRates, List.mem_cons, List.not_mem_nil, or_false] at hm
  obtain rfl | rfl | rfl := hm <;> rfl

theorem denominator_exogenous (hm : metric ∈ exogenousPairedGateMetrics) :
    (rateParts l f metric).2 =
      (l.map fun r => r.opportunities.countP (·.metric = metric)).sum := by
  simp only [exogenousPairedGateMetrics, List.mem_cons, List.not_mem_nil, or_false] at hm
  obtain rfl | rfl | rfl | rfl := hm <;> rfl

/-- The metrics whose denominators do not depend on the policy. -/
def pairedMetrics : List CorrectnessMetric := exogenousPairedGateMetrics ++ outcomeRates

theorem denominator_eq (h : Summarizable records) (hp : p ∈ policiesOf records)
    (hq : q ∈ policiesOf records) (hm : metric ∈ pairedMetrics) :
    (rateParts (policyRecords records p) (faultedRecords records p) metric).2 =
      (rateParts (policyRecords records q) (faultedRecords records q) metric).2 := by
  obtain hm | hm := List.mem_append.mp hm
  · rw [denominator_exogenous hm, denominator_exogenous hm]
    exact opportunities_eq h hp hq hm
  · rw [denominator_outcome hm, denominator_outcome hm]
    exact faulted_eq h hp hq

/-- The three outcome rates partition the faulted operations. -/
theorem rateParts_partition (l f : List CorrectnessEvaluationRecord) :
    (outcomeRates.map fun metric => (rateParts l f metric).1).sum = f.length := by
  rw [← countOutcome_all f]
  simp only [outcomeRates, rateParts, OutcomeClass.all, countOutcome_recovery, List.map_cons,
    List.map_nil, List.sum_cons, List.sum_nil]
  omega

end Cohorts

section Summaries
variable {records : List CorrectnessEvaluationRecord}

/-- The counts of a policy add up. -/
structure PolicyCorrectnessSummary.Balanced (s : PolicyCorrectnessSummary) : Prop where
  bounded : ∀ r ∈ s.rates, r.numerator ≤ r.denominator
  outcomes : (s.outcomeCounts.map Prod.snd).sum = s.faultedOperationCount
  faulted : ∀ r ∈ s.rates, r.metric ∈ outcomeRates → r.denominator = s.faultedOperationCount
  partition : ((s.rates.filter (·.metric ∈ outcomeRates)).map RateCount.numerator).sum =
    s.faultedOperationCount

/-- Two policies of one summary were run on the same operations. -/
structure PolicyCorrectnessSummary.Comparable (s t : PolicyCorrectnessSummary) : Prop where
  operations : s.operationCount = t.operationCount
  faulted : s.faultedOperationCount = t.faultedOperationCount
  denominators : ∀ r ∈ s.rates, ∀ r' ∈ t.rates, r.metric = r'.metric →
    r.metric ∈ pairedMetrics → r.denominator = r'.denominator

theorem PolicySummarized.outcome_numerators (h : PolicySummarized records p s) :
    (s.rates.filter (·.metric ∈ outcomeRates)).map RateCount.numerator =
      outcomeRates.map fun metric =>
        (rateParts (policyRecords records p) (faultedRecords records p) metric).1 := by
  have hparts : (s.rates.filter (·.metric ∈ outcomeRates)).map RateCount.numerator =
      ((s.rates.filter (·.metric ∈ outcomeRates)).map RateCount.metric).map fun metric =>
        (rateParts (policyRecords records p) (faultedRecords records p) metric).1 := by
    rw [List.map_map]
    apply List.map_congr_left
    intro r hr
    exact congrArg Prod.fst (h.rate r (List.mem_filter.mp hr).1)
  have hmetrics : (s.rates.filter (·.metric ∈ outcomeRates)).map RateCount.metric =
      (s.rates.map RateCount.metric).filter (· ∈ outcomeRates) := by
    rw [List.filter_map]
    rfl
  rw [hparts, hmetrics, s.metrics]
  rfl

theorem PolicySummarized.balanced (h : PolicySummarized records p s) : s.Balanced where
  bounded r _ := r.bounded
  outcomes := s.outcomes_sum
  faulted r hr hm := by
    have hd := congrArg Prod.snd (h.rate r hr)
    rw [denominator_outcome hm] at hd
    exact hd.trans h.faulted.symm
  partition := by
    rw [h.outcome_numerators, rateParts_partition, h.faulted]

theorem PolicySummarized.comparable (h : Summarizable records) (hp : p ∈ policiesOf records)
    (hq : q ∈ policiesOf records) (hs : PolicySummarized records p s)
    (ht : PolicySummarized records q t) : s.Comparable t where
  operations := by rw [hs.operations, ht.operations, operations_eq h hp hq]
  faulted := by rw [hs.faulted, ht.faulted, faulted_eq h hp hq]
  denominators r hr r' hr' hmetric hm := by
    have hd := congrArg Prod.snd (hs.rate r hr)
    have hd' := congrArg Prod.snd (ht.rate r' hr')
    rw [denominator_eq h hp hq hm, hmetric] at hd
    exact hd.trans hd'.symm

/-- Both computations raise, or both return the same summary. -/
def SameSummary (sha256 : String → String) (x y : Except PyError CorrectnessSummary) : Prop :=
  match x, y with
  | .ok s, .ok t => s = t ∧ s.toJson = t.toJson ∧ s.fingerprint sha256 = t.fingerprint sha256
  | .error _, .error _ => True
  | _, _ => False

/-- What the summary of a list of records guarantees. -/
structure SummaryExact (sha256 : String → String) (records : List CorrectnessEvaluationRecord) :
    Prop where
  order : ∀ records', records.Perm records' →
    SameSummary sha256 (summarizeCorrectness records) (summarizeCorrectness records')
  checks : Summarizable records → ∃ s, summarizeCorrectness records = .ok s
  sources : ∀ s, summarizeCorrectness records = .ok s →
    List.Forall₂ (PolicySummarized records) (policiesOf records) s.policySummaries
  balanced : ∀ s, summarizeCorrectness records = .ok s → ∀ t ∈ s.policySummaries, t.Balanced
  comparable : ∀ s, summarizeCorrectness records = .ok s →
    ∀ t ∈ s.policySummaries, ∀ u ∈ s.policySummaries, t.Comparable u

theorem summarizeCorrectness_perm (h : Summarizable records) (hp : records.Perm records') :
    summarizeCorrectness records = summarizeCorrectness records' := by
  obtain ⟨r, hr⟩ := List.exists_mem_of_ne_nil records h.nonempty
  have hpolicy : summarizePolicy records = summarizePolicy records' :=
    funext (summarizePolicy_perm hp)
  rw [summarizeCorrectness_eq h hr, summarizeCorrectness_eq (h.perm hp) (hp.mem_iff.mp hr),
    policiesOf_perm hp, hpolicy]

theorem summarizeCorrectness_sources (h : summarizeCorrectness records = .ok s) :
    List.Forall₂ (PolicySummarized records) (policiesOf records) s.policySummaries := by
  obtain ⟨s', hs', hsource⟩ := summarizeCorrectness_ok (summarizable_of_ok h)
  rw [h, Except.ok.injEq] at hs'
  exact hs' ▸ hsource

theorem summarizeCorrectness_source (h : summarizeCorrectness records = .ok s)
    (ht : t ∈ s.policySummaries) : ∃ p ∈ policiesOf records, PolicySummarized records p t := by
  obtain ⟨i, hi, rfl⟩ := List.getElem_of_mem ht
  obtain ⟨hlength, hall⟩ := List.forall₂_iff_get.mp (summarizeCorrectness_sources h)
  have hp : i < (policiesOf records).length := hlength ▸ hi
  exact ⟨_, List.getElem_mem hp, hall i hp hi⟩

/-- Summaries do not depend on the order of the records, and their policies are comparable. -/
theorem summarizeCorrectness_exact (sha256 : String → String)
    (records : List CorrectnessEvaluationRecord) : SummaryExact sha256 records where
  order records' hp := by
    cases hs : summarizeCorrectness records with
    | ok s =>
      rw [← summarizeCorrectness_perm (summarizable_of_ok hs) hp, hs]
      exact ⟨rfl, rfl, rfl⟩
    | error e =>
      cases hs' : summarizeCorrectness records' with
      | error e' => exact trivial
      | ok s' =>
        rw [summarizeCorrectness_perm (summarizable_of_ok hs') hp.symm, hs] at hs'
        cases hs'
  checks h := by
    obtain ⟨s, hs, _⟩ := summarizeCorrectness_ok h
    exact ⟨s, hs⟩
  sources s h := summarizeCorrectness_sources h
  balanced s h t ht := by
    obtain ⟨p, _, hpt⟩ := summarizeCorrectness_source h ht
    exact hpt.balanced
  comparable s h t ht u hu := by
    obtain ⟨p, hp, hpt⟩ := summarizeCorrectness_source h ht
    obtain ⟨q, hq, hqu⟩ := summarizeCorrectness_source h hu
    exact hpt.comparable (summarizable_of_ok h) hp hq hqu

/-- A record of an operation, faulted or not, with a stale attempt that is accepted or not. -/
def attemptRecord (operationId : String) (policyId : PolicyID) (faulted accepted : Bool) :
    CorrectnessEvaluationRecord where
  cohortId := "c"
  trialId := "t"
  operationId
  policyId
  scenarioId := "s"
  validationLevel := .deterministicSemantics
  evidenceProvenance := .simulated
  groundTruthJson := "{}"
  observedEvidenceJson := "{}"
  policyDecisionJson := "{}"
  semanticResult := ⟨true, true, some (!accepted), none, [], by cases accepted <;> decide⟩
  opportunities := if faulted then [⟨.staleAttemptAcceptanceRate, "e", .exogenousPaired⟩] else []
  violations := if faulted && accepted then [⟨.staleAttemptAcceptanceRate, "e"⟩] else []
  faultId := if faulted then some "f" else none
  faultClass := if faulted then some "STALE_ATTEMPT" else none
  events := by
    cases faulted <;> cases accepted <;> exact ⟨by decide, by decide, by decide, by decide⟩
  faulted := by cases faulted <;> decide

/-- Two operations under two policies, one of which accepts the stale attempt. -/
theorem summarizeCorrectness_exact_paired :
    let records := [attemptRecord "o1" .b4 true false, attemptRecord "o1" .b0 true true,
      attemptRecord "o2" .b0 false false, attemptRecord "o2" .b4 false false]
    SummaryExact id records ∧
      (summarizeCorrectness records).toOption.map (fun s => s.policySummaries.map fun t =>
        (t.policyId, t.operationCount, t.faultedOperationCount, t.outcomeCounts.map Prod.snd)) =
          some [(.b0, 2, 1, [0, 0, 0, 1]), (.b4, 2, 1, [1, 0, 0, 0])] :=
  ⟨summarizeCorrectness_exact id _, by decide +kernel⟩

end Summaries

end Cadi
