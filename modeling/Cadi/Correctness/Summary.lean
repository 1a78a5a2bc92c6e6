import Cadi.Correctness.Records
import Cadi.Library.Dict
import Cadi.Serialization.Values

namespace Cadi
open Library
set_option autoImplicit true

structure RateCount where
  metric : CorrectnessMetric
  numerator : Nat
  denominator : Nat
  bounded : numerator ≤ denominator
deriving DecidableEq

def RateCount.create (metric : CorrectnessMetric) (numerator denominator : Nat) :
    Except PyError RateCount :=
  if h : numerator ≤ denominator then .ok ⟨metric, numerator, denominator, h⟩
  else .error (.valueError "numerator cannot exceed denominator")

/-- The quotient of the counts, as integers are divided into a float. -/
def RateCount.rate (r : RateCount) : Option Binary64 :=
  if r.denominator = 0 then none else some (.ofRatio false (r.numerator * 2 ^ 1074) r.denominator)

def RateCount.toDict (r : RateCount) : Json :=
  .obj [("metric", .str r.metric.value), ("numerator", .num (.int r.numerator)),
    ("denominator", .num (.int r.denominator)),
    ("rate", (r.rate.map fun x => Json.num (.float x)).getD .null)]

structure PolicyCorrectnessSummary where
  policyId : PolicyID
  operationCount : Nat
  faultedOperationCount : Nat
  outcomeCounts : List (OutcomeClass × Nat)
  rates : List RateCount
  faulted_le : faultedOperationCount ≤ operationCount
  outcomes : outcomeCounts.map Prod.fst = OutcomeClass.all
  outcomes_sum : (outcomeCounts.map Prod.snd).sum = faultedOperationCount
  metrics : rates.map RateCount.metric = CorrectnessMetric.all

theorem PolicyCorrectnessSummary.eq_iff {s t : PolicyCorrectnessSummary} : s = t ↔
    s.policyId = t.policyId ∧ s.operationCount = t.operationCount ∧
      s.faultedOperationCount = t.faultedOperationCount ∧ s.outcomeCounts = t.outcomeCounts ∧
      s.rates = t.rates := by
  cases s
  cases t
  simp only [mk.injEq]

instance : DecidableEq PolicyCorrectnessSummary := fun _ _ =>
  decidable_of_iff _ PolicyCorrectnessSummary.eq_iff.symm

def PolicyCorrectnessSummary.create (policyId : PolicyID)
    (operationCount faultedOperationCount : Nat) (outcomeCounts : List (OutcomeClass × Nat))
    (rates : List RateCount) : Except PyError PolicyCorrectnessSummary :=
  if hfaulted : faultedOperationCount ≤ operationCount then
    if houtcomes : outcomeCounts.map Prod.fst = OutcomeClass.all then
      if hsum : (outcomeCounts.map Prod.snd).sum = faultedOperationCount then
        if hmetrics : rates.map RateCount.metric = CorrectnessMetric.all then
          .ok ⟨policyId, operationCount, faultedOperationCount, outcomeCounts, rates, hfaulted,
            houtcomes, hsum, hmetrics⟩
        else .error (.valueError "rates must contain every metric in canonical order")
      else .error (.valueError "outcome_counts must sum to faulted_operation_count")
    else .error (.valueError "outcome_counts must contain every OutcomeClass in canonical order")
  else .error
    (.valueError "faulted_operation_count must be between zero and operation_count")

def PolicyCorrectnessSummary.toDict (s : PolicyCorrectnessSummary) : Json :=
  .obj [("policy_id", .str s.policyId.value), ("operation_count", .num (.int s.operationCount)),
    ("faulted_operation_count", .num (.int s.faultedOperationCount)),
    ("outcome_counts", .obj (s.outcomeCounts.map fun c => (c.1.value, .num (.int c.2)))),
    ("rates", .arr (s.rates.map RateCount.toDict))]

structure CorrectnessSummary where
  validationLevel : ValidationEvidenceLevel
  evidenceProvenance : ResultEvidenceProvenance
  policySummaries : List PolicyCorrectnessSummary
  distinct : (policySummaries.map (·.policyId)).Nodup
  ordered : policySummaries.map (·.policyId) =
    PolicyID.all.filter (· ∈ policySummaries.map (·.policyId))
deriving DecidableEq

def CorrectnessSummary.create (validationLevel : ValidationEvidenceLevel)
    (evidenceProvenance : ResultEvidenceProvenance)
    (policySummaries : List PolicyCorrectnessSummary) : Except PyError CorrectnessSummary :=
  if hdistinct : (policySummaries.map (·.policyId)).Nodup then
    if hordered : policySummaries.map (·.policyId) =
        PolicyID.all.filter (· ∈ policySummaries.map (·.policyId)) then
      .ok ⟨validationLevel, evidenceProvenance, policySummaries, hdistinct, hordered⟩
    else .error (.valueError "policy_summaries must be in canonical B0-B4 order")
  else .error (.valueError "policy_summaries must not contain duplicate policy IDs")

def correctnessEvaluationSchema : String := "cadi.correctness-evaluation.v1"

def CorrectnessSummary.toDict (s : CorrectnessSummary) : Json :=
  .obj [("schema", .str correctnessEvaluationSchema),
    ("validation_level", .str s.validationLevel.value),
    ("evidence_provenance", .str s.evidenceProvenance.value),
    ("policy_summaries", .arr (s.policySummaries.map PolicyCorrectnessSummary.toDict))]

def CorrectnessSummary.toJson (s : CorrectnessSummary) : Except PyError String :=
  canonicalJson s.toDict

/-- The digest of the text, in hexadecimal. -/
def CorrectnessSummary.fingerprint (sha256 : String → String) (s : CorrectnessSummary) :
    Except PyError String :=
  sha256 <$> s.toJson

section Validation

/-- What the records of one operation under different policies share. -/
structure PairedInvariantSignature where
  scenarioId : String
  faultId : Option String
  faultClass : Option String
  groundTruthJson : String
deriving DecidableEq

namespace CorrectnessEvaluationRecord

def pairedInvariantSignature (r : CorrectnessEvaluationRecord) : PairedInvariantSignature :=
  ⟨r.scenarioId, r.faultId, r.faultClass, r.groundTruthJson⟩

def identity (r : CorrectnessEvaluationRecord) : PolicyID × OperationKey :=
  (r.policyId, r.operationKey)

def stratum (r : CorrectnessEvaluationRecord) : ValidationEvidenceLevel × ResultEvidenceProvenance :=
  (r.validationLevel, r.evidenceProvenance)

end CorrectnessEvaluationRecord

/-- The strata as the message lists them. -/
def renderStrata (strata : List (ValidationEvidenceLevel × ResultEvidenceProvenance)) : String :=
  let pairs := (strata.map fun s => (s.1.value, s.2.value)).insertionSort
    fun a b => toLex a ≤ toLex b
  "[" ++ String.intercalate ", " (pairs.map fun p => s!"('{p.1}', '{p.2}')") ++ "]"

def validateEvidenceStratum (records : List CorrectnessEvaluationRecord) :
    Except PyError (ValidationEvidenceLevel × ResultEvidenceProvenance) :=
  match (records.map (·.stratum)).dedup with
  | [s] => .ok s
  | strata => .error (.valueError
    s!"correctness summary must contain exactly one evidence stratum; got {renderStrata strata}")

/-- The policies that occur, in the order of the enumeration. -/
def policiesOf (records : List CorrectnessEvaluationRecord) : List PolicyID :=
  PolicyID.all.filter fun p => ∃ r ∈ records, r.policyId = p

def renderKey (key : OperationKey) : String := s!"('{key.1}', '{key.2.1}', '{key.2.2}')"

def renderPolicies (policies : List PolicyID) : String :=
  match policies with
  | [p] => s!"('{p.value}',)"
  | _ => "(" ++ String.intercalate ", " (policies.map fun p => s!"'{p.value}'") ++ ")"

def checkGroup (policyIds : List PolicyID)
    (entry : OperationKey × List CorrectnessEvaluationRecord) : Except PyError Unit := do
  raiseIf (policiesOf entry.2 ≠ policyIds) (PyError.valueError
    (s!"paired cohort operation coverage mismatch for {renderKey entry.1}: " ++
      s!"expected {renderPolicies policyIds}, got {renderPolicies (policiesOf entry.2)}"))
  raiseIf ((entry.2.map (·.pairedInvariantSignature)).dedup.length ≠ 1) (PyError.valueError
    (s!"paired cohort operation metadata mismatch for {renderKey entry.1}; " ++
      "scenario/fault/ground-truth must be invariant across policies"))
  raiseIf ((entry.2.map (·.exogenousOpportunitySignature)).dedup.length ≠ 1) (PyError.valueError
    (s!"paired exogenous opportunity-event identity mismatch for {renderKey entry.1}; " ++
      "paired Gate inputs must reference the same events"))

/-- The records by operation, in the order in which the operations first occur. -/
def operationGroups (records : List CorrectnessEvaluationRecord) :
    Dict OperationKey (List CorrectnessEvaluationRecord) :=
  records.foldl (fun groups r =>
    groups.set r.operationKey ((groups.get? r.operationKey).getD [] ++ [r])) ∅

def validatePairedCohorts (records : List CorrectnessEvaluationRecord) :
    Except PyError (List PolicyID) := do
  let policyIds := policiesOf records
  (operationGroups records).entries.forM (checkGroup policyIds)
  return policyIds

end Validation

section Summaries

/-- The records of a policy in the order of their operations. -/
def policyRecords (records : List CorrectnessEvaluationRecord) (policyId : PolicyID) :
    List CorrectnessEvaluationRecord :=
  (records.filter (·.policyId = policyId)).insertionSort fun a b =>
    toLex (a.cohortId, toLex (a.trialId, a.operationId)) ≤
      toLex (b.cohortId, toLex (b.trialId, b.operationId))

def countOutcome (records : List CorrectnessEvaluationRecord) (outcomes : List OutcomeClass) : Nat :=
  records.countP (·.outcomeClass ∈ outcomes)

/-- The count of one metric over the records of a policy. -/
def rateCount (policyRecords faultedRecords : List CorrectnessEvaluationRecord)
    (metric : CorrectnessMetric) : Except PyError RateCount :=
  if metric ∈ gateG1Metrics then
    RateCount.create metric
      (policyRecords.map fun r => r.violations.countP (·.metric = metric)).sum
      (policyRecords.map fun r => r.opportunities.countP (·.metric = metric)).sum
  else match metric with
    | .silentSemanticErrorRate =>
      RateCount.create metric (countOutcome faultedRecords [.silentSemanticViolation]) faultedRecords.length
    | .explicitNonSuccessRate =>
      RateCount.create metric (countOutcome faultedRecords [.explicitNonSuccess]) faultedRecords.length
    | .recoveryRate =>
      RateCount.create metric
        (countOutcome faultedRecords [.correctTransparentRecovery, .correctDegradedRecovery])
        faultedRecords.length
    | metric => .error (.assertionError s!"unhandled correctness metric {metric.value}")

def summarizePolicy (records : List CorrectnessEvaluationRecord) (policyId : PolicyID) :
    Except PyError PolicyCorrectnessSummary := do
  let policyRecords := policyRecords records policyId
  let faultedRecords := policyRecords.filter (·.faultId ≠ none)
  let outcomeCounts := OutcomeClass.all.map fun o => (o, countOutcome faultedRecords [o])
  let rates ← CorrectnessMetric.all.mapM (rateCount policyRecords faultedRecords)
  PolicyCorrectnessSummary.create policyId policyRecords.length faultedRecords.length outcomeCounts rates

def summarizeCorrectness (records : List CorrectnessEvaluationRecord) :
    Except PyError CorrectnessSummary := do
  raiseIf (records.isEmpty = true)
    (PyError.valueError "records must contain at least one correctness operation")
  raiseIf (¬ (records.map (·.identity)).Nodup) (PyError.valueError
    "duplicate (policy_id, cohort_id, trial_id, operation_id) evaluation operation")
  let stratum ← validateEvidenceStratum records
  let policyIds ← validatePairedCohorts records
  let summaries ← policyIds.mapM (summarizePolicy records)
  CorrectnessSummary.create stratum.1 stratum.2 summaries

end Summaries

end Cadi
