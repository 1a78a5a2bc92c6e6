import Cadi.Entities
import Cadi.Library.Checked
import Cadi.Library.Json
import Mathlib.Data.List.Sort
import Mathlib.Data.Prod.Lex

namespace Cadi
open Library
set_option autoImplicit true

inductive PolicyID where
  | b0 | b1 | b2 | b3 | b4
deriving DecidableEq

def PolicyID.value : PolicyID → String
  | .b0 => "B0"
  | .b1 => "B1"
  | .b2 => "B2"
  | .b3 => "B3"
  | .b4 => "B4"

/-- The members in the order of their definition. -/
def PolicyID.all : List PolicyID := [.b0, .b1, .b2, .b3, .b4]

inductive ValidationEvidenceLevel where
  | deterministicSemantics | measuredCpuDistributed | traceDerived | calibratedSimulation
  | optionalAcceleratorMeasurement
deriving DecidableEq

def ValidationEvidenceLevel.value : ValidationEvidenceLevel → String
  | .deterministicSemantics => "EV0"
  | .measuredCpuDistributed => "EV1"
  | .traceDerived => "EV2"
  | .calibratedSimulation => "EV3"
  | .optionalAcceleratorMeasurement => "EV4"

inductive ResultEvidenceProvenance where
  | measured | simulated | traceDerived | syntheticallyGenerated | analyticallyDerived | estimated
deriving DecidableEq

def ResultEvidenceProvenance.value : ResultEvidenceProvenance → String
  | .measured => "MEASURED"
  | .simulated => "SIMULATED"
  | .traceDerived => "TRACE_DERIVED"
  | .syntheticallyGenerated => "SYNTHETICALLY_GENERATED"
  | .analyticallyDerived => "ANALYTICALLY_DERIVED"
  | .estimated => "ESTIMATED"

inductive OutcomeClass where
  | correctTransparentRecovery | correctDegradedRecovery | explicitNonSuccess
  | silentSemanticViolation
deriving DecidableEq

def OutcomeClass.value : OutcomeClass → String
  | .correctTransparentRecovery => "O1"
  | .correctDegradedRecovery => "O2"
  | .explicitNonSuccess => "O3"
  | .silentSemanticViolation => "O4"

def OutcomeClass.all : List OutcomeClass :=
  [.correctTransparentRecovery, .correctDegradedRecovery, .explicitNonSuccess,
    .silentSemanticViolation]

inductive ExplicitNonSuccess where
  | wait | fail | ambiguous | reject
deriving DecidableEq

inductive RecoveryAction where
  | retry | recompute | migration | repair
deriving DecidableEq

def RecoveryAction.value : RecoveryAction → String
  | .retry => "RETRY"
  | .recompute => "RECOMPUTE"
  | .migration => "MIGRATION"
  | .repair => "REPAIR"

inductive CorrectnessMetric where
  | staleAttemptAcceptanceRate | wrongBranchReuseRate | wrongStateConsumptionRate
  | silentBindingDivergenceRate | ambiguousCommitRate | duplicateFinalizationRate
  | silentSemanticErrorRate | explicitNonSuccessRate | recoveryRate
deriving DecidableEq

def CorrectnessMetric.value : CorrectnessMetric → String
  | .staleAttemptAcceptanceRate => "Stale Attempt Acceptance Rate"
  | .wrongBranchReuseRate => "Wrong-Branch Reuse Rate"
  | .wrongStateConsumptionRate => "Wrong-State Consumption Rate"
  | .silentBindingDivergenceRate => "Silent Binding Divergence Rate"
  | .ambiguousCommitRate => "Ambiguous Commit Rate"
  | .duplicateFinalizationRate => "Duplicate Finalization Rate"
  | .silentSemanticErrorRate => "Silent Semantic Error Rate"
  | .explicitNonSuccessRate => "Explicit Non-Success Rate"
  | .recoveryRate => "Recovery Rate"

def CorrectnessMetric.all : List CorrectnessMetric :=
  [.staleAttemptAcceptanceRate, .wrongBranchReuseRate, .wrongStateConsumptionRate,
    .silentBindingDivergenceRate, .ambiguousCommitRate, .duplicateFinalizationRate,
    .silentSemanticErrorRate, .explicitNonSuccessRate, .recoveryRate]

inductive MetricOpportunityScope where
  | exogenousPaired | policyDerived
deriving DecidableEq

def MetricOpportunityScope.value : MetricOpportunityScope → String
  | .exogenousPaired => "EXOGENOUS_PAIRED"
  | .policyDerived => "POLICY_DERIVED"

def gateG1Metrics : List CorrectnessMetric :=
  [.staleAttemptAcceptanceRate, .wrongBranchReuseRate, .wrongStateConsumptionRate,
    .silentBindingDivergenceRate, .ambiguousCommitRate, .duplicateFinalizationRate]

def exogenousPairedGateMetrics : List CorrectnessMetric :=
  [.staleAttemptAcceptanceRate, .wrongBranchReuseRate, .silentBindingDivergenceRate,
    .ambiguousCommitRate]

def policyDerivedGateMetrics : List CorrectnessMetric :=
  gateG1Metrics.filter (· ∉ exogenousPairedGateMetrics)

theorem CorrectnessMetric.value_injective {m n : CorrectnessMetric} (h : m.value = n.value) :
    m = n := by
  revert h
  cases m <;> cases n <;> decide

section SemanticResults

/-- The checks on the disposition of a result. -/
def checkDisposition (reportedSuccess authoritativeCommit : Bool)
    (semanticallyCorrect : Option Bool) (explicitNonSuccess : Option ExplicitNonSuccess) :
    Except PyError Unit :=
  if reportedSuccess then do
    raiseIf (explicitNonSuccess ≠ none)
      (.valueError "successful result cannot also be explicit non-success")
    match semanticallyCorrect with
    | none => .error (.typeError "successful result requires semantically_correct bool")
    | some correct =>
      raiseIf (correct = false ∧ authoritativeCommit = false)
        (.valueError "silent semantic violation requires an authoritative commit")
  else do
    raiseIf (authoritativeCommit = true)
      (PyError.valueError "explicit non-success cannot authoritatively commit")
    raiseIf (semanticallyCorrect ≠ none) (.valueError
      "explicit non-success uses semantically_correct=None because no success was committed")
    raiseIf (explicitNonSuccess = none)
      (.typeError "non-success result requires an ExplicitNonSuccess disposition")

structure SemanticResult where
  reportedSuccess : Bool
  authoritativeCommit : Bool
  semanticallyCorrect : Option Bool
  explicitNonSuccess : Option ExplicitNonSuccess := none
  recoveryActions : List RecoveryAction := []
  disposed : checkDisposition reportedSuccess authoritativeCommit semanticallyCorrect
    explicitNonSuccess = .ok () := by decide

/-- The actions without duplicates in the order of their values. -/
def recoveryTuple (actions : List RecoveryAction) : Except PyError (List RecoveryAction) := do
  raiseIf (¬ actions.Nodup) (PyError.valueError "recovery_actions must not contain duplicates")
  return actions.insertionSort fun a b => a.value ≤ b.value

def SemanticResult.create (reportedSuccess authoritativeCommit : Bool)
    (semanticallyCorrect : Option Bool) (explicitNonSuccess : Option ExplicitNonSuccess)
    (recoveryActions : List RecoveryAction) : Except PyError SemanticResult := do
  let recoveryActions ← recoveryTuple recoveryActions
  match h : checkDisposition reportedSuccess authoritativeCommit semanticallyCorrect
      explicitNonSuccess with
  | .ok _ =>
    .ok ⟨reportedSuccess, authoritativeCommit, semanticallyCorrect, explicitNonSuccess,
      recoveryActions, h⟩
  | .error e => .error e

def SemanticResult.outcomeClass (s : SemanticResult) : OutcomeClass :=
  if s.reportedSuccess = false then .explicitNonSuccess
  else if s.semanticallyCorrect ≠ some true then .silentSemanticViolation
  else if s.recoveryActions ≠ [] then .correctDegradedRecovery
  else .correctTransparentRecovery

end SemanticResults

section Events

/-- One event in which a Gate metric could have been violated. -/
structure Opportunity where
  metric : CorrectnessMetric
  eventId : String
  scope : MetricOpportunityScope
deriving DecidableEq

/-- One event in which a Gate metric was violated. -/
structure Violation where
  metric : CorrectnessMetric
  eventId : String
deriving DecidableEq

def Opportunity.pair (o : Opportunity) : Violation := ⟨o.metric, o.eventId⟩

def metricTuple (metrics : List CorrectnessMetric) (name : String) : Except PyError Unit :=
  raiseIf (∃ m ∈ metrics, m ∉ gateG1Metrics)
    (.valueError s!"{name} may contain only Gate G1 metrics")

def scopeForMetric (metric : CorrectnessMetric) : Except PyError MetricOpportunityScope :=
  if metric ∈ exogenousPairedGateMetrics then .ok .exogenousPaired
  else if metric ∈ policyDerivedGateMetrics then .ok .policyDerived
  else .error (.valueError s!"{metric.value} is not a Gate G1 metric")

def checkScope (o : Opportunity) : Except PyError Unit := do
  let required ← scopeForMetric o.metric
  raiseIf (o.scope ≠ required) (.valueError
    s!"{o.metric.value} opportunity scope must be {required.value}, got {o.scope.value}")

/-- The order of opportunities: by metric, then event, then scope. -/
def Opportunity.precedes (a b : Opportunity) : Prop :=
  toLex (a.metric.value, toLex (a.eventId, a.scope.value)) ≤
    toLex (b.metric.value, toLex (b.eventId, b.scope.value))

instance : DecidableRel Opportunity.precedes := fun _ _ => inferInstanceAs (Decidable (_ ≤ _))

def Violation.precedes (a b : Violation) : Prop :=
  toLex (a.metric.value, a.eventId) ≤ toLex (b.metric.value, b.eventId)

instance : DecidableRel Violation.precedes := fun _ _ => inferInstanceAs (Decidable (_ ≤ _))

def opportunityTriples (metrics : List CorrectnessMetric) (eventIds : List String)
    (scopes : List MetricOpportunityScope) : List Opportunity :=
  List.zipWith (fun m e => Opportunity.mk m e.1 e.2) metrics (eventIds.zip scopes)

def canonicalizeOpportunityEvents (metrics : List CorrectnessMetric) (eventIds : List String)
    (scopes : List MetricOpportunityScope) : Except PyError (List Opportunity) := do
  metricTuple metrics "metric_opportunities"
  raiseIf (metrics.length ≠ eventIds.length ∨ metrics.length ≠ scopes.length) (PyError.valueError
    ("metric_opportunities, metric_opportunity_event_ids, and " ++
      "metric_opportunity_scopes must have identical lengths"))
  raiseIf (metrics ≠ [] ∧ eventIds = [])
    (PyError.valueError "Gate metric opportunities require explicit event identities")
  raiseIf ("" ∈ eventIds)
    (PyError.valueError "metric_opportunity_event_ids must contain non-empty strings")
  raiseIf (¬ eventIds.Nodup)
    (PyError.valueError "metric_opportunity_event_ids must be unique within an operation")
  let triples := opportunityTriples metrics eventIds scopes
  triples.forM checkScope
  return triples.insertionSort Opportunity.precedes

def canonicalizeViolationEvents (metrics : List CorrectnessMetric) (eventIds : List String)
    (opportunities : List Opportunity) : Except PyError (List Violation) := do
  metricTuple metrics "metric_violations"
  raiseIf (metrics.length ≠ eventIds.length) (PyError.valueError
    "metric_violations and metric_violation_event_ids must have identical lengths")
  raiseIf ("" ∈ eventIds)
    (PyError.valueError "metric_violation_event_ids must contain non-empty strings")
  raiseIf (¬ eventIds.Nodup)
    (PyError.valueError "metric_violation_event_ids must be unique within an operation")
  let pairs := List.zipWith Violation.mk metrics eventIds
  raiseIf (∃ v ∈ pairs, v ∉ opportunities.map Opportunity.pair) (PyError.valueError
    "every metric violation event must reference a matching metric opportunity event")
  return pairs.insertionSort Violation.precedes

end Events

section Texts

def loadJsonNoDuplicates (text name : String) : Except PyError Json :=
  match loadsWith distinctHooks text.toList with
  | .ok j => .ok j
  | .error (.duplicate key) => .error (.valueError s!"duplicate JSON member: {key}")
  | .error (.constant token) =>
    .error (.valueError s!"non-finite JSON constant: {String.ofList token}")
  | .error _ => .error (.valueError s!"invalid {name} JSON")

mutual

def validateJsonValue (path : String) : Json → Except PyError Unit
  | .num (.float x) =>
    raiseIf (x.isFinite = false) (.valueError s!"{path} contains a non-finite float")
  | .arr items => validateJsonItems path 0 items
  | .obj members => validateJsonMembers path members
  | _ => .ok ()

def validateJsonItems (path : String) (index : Nat) : List Json → Except PyError Unit
  | [] => .ok ()
  | j :: js => do
    validateJsonValue s!"{path}[{index}]" j
    validateJsonItems path (index + 1) js

def validateJsonMembers (path : String) : List (String × Json) → Except PyError Unit
  | [] => .ok ()
  | (key, j) :: ms => do
    validateJsonValue s!"{path}.{key}" j
    validateJsonMembers path ms

end

/-- The text is the canonical one of a JSON object. -/
def requireCanonicalObject (text name : String) : Except PyError Unit := do
  let parsed ← loadJsonNoDuplicates text name
  match parsed with
  | .obj _ => do
    validateJsonValue name parsed
    raiseIf (String.ofList parsed.sorted.text ≠ text)
      (.valueError s!"{name} must be canonical JSON")
  | _ => .error (.typeError s!"{name} must encode a JSON object")

end Texts

section Records

def Correctness.requireId (value name : String) : Except PyError Unit :=
  raiseIf (value = "") (.valueError s!"{name} must be a non-empty string")

def checkFault (faultId faultClass : Option String) (opportunities : List Opportunity) :
    Except PyError Unit :=
  match faultId, faultClass with
  | some faultId, some faultClass => do
    Correctness.requireId faultId "fault_id"
    Correctness.requireId faultClass "fault_class"
  | none, none => raiseIf (opportunities ≠ [])
      (.valueError "Gate G1 metric opportunities require a faulted operation")
  | _, _ =>
    .error (.valueError "fault_id and fault_class must either both be set or both be None")

/-- The events of an operation as the constructor leaves them. -/
structure EventsCanonical (opportunities : List Opportunity) (violations : List Violation) :
    Prop where
  distinct : (opportunities.map Opportunity.eventId).Nodup
  scopes : ∀ o ∈ opportunities, scopeForMetric o.metric = .ok o.scope
  distinctViolations : (violations.map Violation.eventId).Nodup
  matched : ∀ v ∈ violations, v ∈ opportunities.map Opportunity.pair

/-- The arguments of the constructor, with the events not yet in order. -/
structure RecordArguments where
  cohortId : String
  trialId : String
  operationId : String
  policyId : PolicyID
  scenarioId : String
  validationLevel : ValidationEvidenceLevel
  evidenceProvenance : ResultEvidenceProvenance
  groundTruthJson : String
  observedEvidenceJson : String
  policyDecisionJson : String
  semanticResult : SemanticResult
  metricOpportunities : List CorrectnessMetric := []
  metricOpportunityEventIds : List String := []
  metricOpportunityScopes : List MetricOpportunityScope := []
  metricViolations : List CorrectnessMetric := []
  metricViolationEventIds : List String := []
  faultId : Option String := none
  faultClass : Option String := none

structure CorrectnessEvaluationRecord where
  cohortId : String
  trialId : String
  operationId : String
  policyId : PolicyID
  scenarioId : String
  validationLevel : ValidationEvidenceLevel
  evidenceProvenance : ResultEvidenceProvenance
  groundTruthJson : String
  observedEvidenceJson : String
  policyDecisionJson : String
  semanticResult : SemanticResult
  opportunities : List Opportunity
  violations : List Violation
  faultId : Option String
  faultClass : Option String
  events : EventsCanonical opportunities violations
  faulted : checkFault faultId faultClass opportunities = .ok ()

def checkRecordTexts (a : RecordArguments) : Except PyError Unit := do
  Correctness.requireId a.cohortId "cohort_id"
  Correctness.requireId a.trialId "trial_id"
  Correctness.requireId a.operationId "operation_id"
  Correctness.requireId a.scenarioId "scenario_id"
  requireCanonicalObject a.groundTruthJson "ground_truth_json"
  requireCanonicalObject a.observedEvidenceJson "observed_evidence_json"
  requireCanonicalObject a.policyDecisionJson "policy_decision_json"

section Canonical
variable {opportunities : List Opportunity} {violations : List Violation}

theorem opportunityTriples_eventIds {metrics : List CorrectnessMetric} {eventIds : List String}
    {scopes : List MetricOpportunityScope} (h : metrics.length = eventIds.length)
    (h' : metrics.length = scopes.length) :
    (opportunityTriples metrics eventIds scopes).map Opportunity.eventId = eventIds := by
  induction metrics generalizing eventIds scopes with
  | nil =>
    rw [List.length_nil, eq_comm, List.length_eq_zero_iff] at h
    subst h
    rfl
  | cons m metrics ih =>
    cases eventIds with
    | nil => cases h
    | cons e eventIds =>
      cases scopes with
      | nil => cases h'
      | cons s scopes =>
        exact congrArg (e :: ·) (ih (Nat.succ.inj h) (Nat.succ.inj h'))

theorem canonicalizeOpportunityEvents_spec
    (h : canonicalizeOpportunityEvents metrics eventIds scopes = .ok opportunities) :
    (opportunities.map Opportunity.eventId).Nodup ∧
      ∀ o ∈ opportunities, scopeForMetric o.metric = .ok o.scope := by
  simp only [canonicalizeOpportunityEvents, Except.then_eq_ok, raiseIf_eq_ok, not_or, not_not,
    Except.pure_eq_ok] at h
  obtain ⟨_, ⟨hids, hscopes⟩, _, _, hnodup, hchecked, rfl⟩ := h
  have hperm := List.perm_insertionSort Opportunity.precedes (opportunityTriples metrics eventIds scopes)
  constructor
  · rw [(hperm.map Opportunity.eventId).nodup_iff, opportunityTriples_eventIds hids hscopes]
    exact hnodup
  · intro o ho
    have hcheck := Except.forM_eq_ok.mp hchecked o (hperm.mem_iff.mp ho)
    obtain ⟨required, hrequired, hscope⟩ := Except.bind_eq_ok.mp hcheck
    rw [raiseIf_eq_ok, not_not] at hscope
    rw [hrequired, hscope]

theorem zipWith_eventIds {metrics : List CorrectnessMetric} {eventIds : List String}
    (h : metrics.length = eventIds.length) :
    (List.zipWith Violation.mk metrics eventIds).map Violation.eventId = eventIds := by
  induction metrics generalizing eventIds with
  | nil =>
    rw [List.length_nil, eq_comm, List.length_eq_zero_iff] at h
    subst h
    rfl
  | cons m metrics ih =>
    cases eventIds with
    | nil => cases h
    | cons e eventIds => exact congrArg (e :: ·) (ih (Nat.succ.inj h))

theorem canonicalizeViolationEvents_spec
    (h : canonicalizeViolationEvents metrics eventIds opportunities = .ok violations) :
    (violations.map Violation.eventId).Nodup ∧
      ∀ v ∈ violations, v ∈ opportunities.map Opportunity.pair := by
  simp only [canonicalizeViolationEvents, Except.then_eq_ok, raiseIf_eq_ok, not_not, not_exists,
    not_and, Except.pure_eq_ok] at h
  obtain ⟨_, hids, _, hnodup, hmatched, rfl⟩ := h
  have hperm := List.perm_insertionSort Violation.precedes (List.zipWith Violation.mk metrics eventIds)
  constructor
  · rw [(hperm.map Violation.eventId).nodup_iff, zipWith_eventIds hids]
    exact hnodup
  · exact fun v hv => hmatched v (hperm.mem_iff.mp hv)

end Canonical

def CorrectnessEvaluationRecord.create (a : RecordArguments) :
    Except PyError CorrectnessEvaluationRecord := do
  checkRecordTexts a
  match ho : canonicalizeOpportunityEvents a.metricOpportunities a.metricOpportunityEventIds
      a.metricOpportunityScopes with
  | .error e => .error e
  | .ok opportunities =>
    match hv : canonicalizeViolationEvents a.metricViolations a.metricViolationEventIds
        opportunities with
    | .error e => .error e
    | .ok violations =>
      match hf : checkFault a.faultId a.faultClass opportunities with
      | .error e => .error e
      | .ok _ => .ok {
          cohortId := a.cohortId
          trialId := a.trialId
          operationId := a.operationId
          policyId := a.policyId
          scenarioId := a.scenarioId
          validationLevel := a.validationLevel
          evidenceProvenance := a.evidenceProvenance
          groundTruthJson := a.groundTruthJson
          observedEvidenceJson := a.observedEvidenceJson
          policyDecisionJson := a.policyDecisionJson
          semanticResult := a.semanticResult
          opportunities
          violations
          faultId := a.faultId
          faultClass := a.faultClass
          events := ⟨(canonicalizeOpportunityEvents_spec ho).1, (canonicalizeOpportunityEvents_spec ho).2,
            (canonicalizeViolationEvents_spec hv).1, (canonicalizeViolationEvents_spec hv).2⟩
          faulted := hf }

/-- The cohort, trial and operation of a record. -/
abbrev OperationKey := String × String × String

namespace CorrectnessEvaluationRecord

def outcomeClass (r : CorrectnessEvaluationRecord) : OutcomeClass := r.semanticResult.outcomeClass

def operationKey (r : CorrectnessEvaluationRecord) : OperationKey :=
  (r.cohortId, r.trialId, r.operationId)

def exogenousOpportunitySignature (r : CorrectnessEvaluationRecord) : List (String × String) :=
  (r.opportunities.filter (·.scope = .exogenousPaired)).map fun o => (o.metric.value, o.eventId)

end CorrectnessEvaluationRecord

end Records

end Cadi
