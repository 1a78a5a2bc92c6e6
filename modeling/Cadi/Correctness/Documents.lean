import Cadi.Correctness.Summary
import Cadi.Experiments.Fields
import Cadi.Library.Digest

namespace Cadi
open Library
set_option autoImplicit true

section Members

def ValidationEvidenceLevel.all : List ValidationEvidenceLevel :=
  [.deterministicSemantics, .measuredCpuDistributed, .traceDerived, .calibratedSimulation,
    .optionalAcceleratorMeasurement]

def ResultEvidenceProvenance.all : List ResultEvidenceProvenance :=
  [.measured, .simulated, .traceDerived, .syntheticallyGenerated, .analyticallyDerived, .estimated]

def ExplicitNonSuccess.value : ExplicitNonSuccess → String
  | .wait => "WAIT"
  | .fail => "FAIL"
  | .ambiguous => "AMBIGUOUS"
  | .reject => "REJECT"

def ExplicitNonSuccess.all : List ExplicitNonSuccess := [.wait, .fail, .ambiguous, .reject]

def RecoveryAction.all : List RecoveryAction := [.retry, .recompute, .migration, .repair]

def MetricOpportunityScope.all : List MetricOpportunityScope := [.exogenousPaired, .policyDerived]

/-- The member with this value; the message is the source's after the value it shows. -/
def Correctness.memberOf (members : List α) (value : α → String) (name : String) (j : Json) :
    Except PyError α :=
  match j with
  | .str s =>
    match members.find? (value · = s) with
    | some member => .ok member
    | none => .error (.valueError (" is not a valid " ++ name))
  | _ => .error (.valueError (" is not a valid " ++ name))

def PolicyID.ofJson : Json → Except PyError PolicyID :=
  Correctness.memberOf PolicyID.all PolicyID.value "PolicyID"

def ValidationEvidenceLevel.ofJson : Json → Except PyError ValidationEvidenceLevel :=
  Correctness.memberOf ValidationEvidenceLevel.all ValidationEvidenceLevel.value "ValidationEvidenceLevel"

def ResultEvidenceProvenance.ofJson : Json → Except PyError ResultEvidenceProvenance :=
  Correctness.memberOf ResultEvidenceProvenance.all ResultEvidenceProvenance.value
    "ResultEvidenceProvenance"

def ExplicitNonSuccess.ofJson : Json → Except PyError ExplicitNonSuccess :=
  Correctness.memberOf ExplicitNonSuccess.all ExplicitNonSuccess.value "ExplicitNonSuccess"

def RecoveryAction.ofJson : Json → Except PyError RecoveryAction :=
  Correctness.memberOf RecoveryAction.all RecoveryAction.value "RecoveryAction"

def CorrectnessMetric.ofJson : Json → Except PyError CorrectnessMetric :=
  Correctness.memberOf CorrectnessMetric.all CorrectnessMetric.value "CorrectnessMetric"

def MetricOpportunityScope.ofJson : Json → Except PyError MetricOpportunityScope :=
  Correctness.memberOf MetricOpportunityScope.all MetricOpportunityScope.value "MetricOpportunityScope"

end Members

namespace Correctness

section Parts

def requireExactKeys (members : List (String × Json)) (expected : List String) (name : String) :
    Except PyError Unit :=
  let actual := members.map Prod.fst
  let missing := sortedBy id (expected.filter (· ∉ actual))
  let unexpected := sortedBy id (actual.filter (· ∉ expected))
  raiseIf (missing ≠ [] ∨ unexpected ≠ []) (.valueError
    (name ++ " fields must exactly match schema; missing=" ++ Fields.listText missing ++
      ", unexpected=" ++ Fields.listText unexpected))

def fieldOf (members : List (String × Json)) (key : String) : Except PyError Json :=
  match Dict.find members key with
  | some j => .ok j
  | none => .error (.keyError key)

def requireJsonArray (j : Json) (name : String) : Except PyError (List Json) :=
  match j with
  | .arr items => .ok items
  | _ => .error (.typeError (name ++ " must be a JSON array"))

def requireBool (j : Json) (name : String) : Except PyError Bool :=
  match j with
  | .bool b => .ok b
  | _ => .error (.typeError (name ++ " must be bool"))

def requireText (j : Json) (text message : String) : Except PyError Unit :=
  match j with
  | .str s => raiseIf (s ≠ text) (.valueError message)
  | _ => .error (.valueError message)

/-- The text of an identifier. What is no string fails the check of the empty one. -/
def identifierOf : Json → String
  | .str s => s
  | _ => ""

def optionalIdentifier : Json → Option String
  | .null => none
  | j => some (identifierOf j)

/-- What is neither a truth value nor null fails as null does after a success, and as a truth value
does otherwise. -/
def correctnessOf (reportedSuccess : Bool) : Json → Option Bool
  | .bool b => some b
  | .null => none
  | _ => if reportedSuccess then none else some true

def optionalMember (read : Json → Except PyError α) : Json → Except PyError (Option α)
  | .null => .ok none
  | j => some <$> read j

def optionalJson (write : α → Json) : Option α → Json
  | none => .null
  | some a => write a

def canonicalMappingJson (value : Json) (name : String) : Except PyError String :=
  match value with
  | .obj _ => do
    validateJsonValue name value
    return String.ofList value.sorted.text
  | _ => .error (.typeError (name ++ " must be a mapping"))

end Parts

end Correctness

open Correctness

namespace SemanticResult

def keys : List String :=
  ["reported_success", "authoritative_commit", "semantically_correct", "explicit_non_success",
    "recovery_actions"]

def toDict (s : SemanticResult) : List (String × Json) :=
  [("reported_success", .bool s.reportedSuccess), ("authoritative_commit", .bool s.authoritativeCommit),
    ("semantically_correct", optionalJson .bool s.semanticallyCorrect),
    ("explicit_non_success", optionalJson (fun d => .str d.value) s.explicitNonSuccess),
    ("recovery_actions", .arr (s.recoveryActions.map fun action => .str action.value))]

def fromDict (value : Json) : Except PyError SemanticResult :=
  match value with
  | .obj members => do
    Correctness.requireExactKeys members keys "semantic_result"
    let reportedSuccess ← fieldOf members "reported_success"
    let authoritativeCommit ← fieldOf members "authoritative_commit"
    let semanticallyCorrect ← fieldOf members "semantically_correct"
    let explicitNonSuccess ← fieldOf members "explicit_non_success"
    let explicitNonSuccess ← optionalMember ExplicitNonSuccess.ofJson explicitNonSuccess
    let actions ← fieldOf members "recovery_actions"
    let actions ← requireJsonArray actions "semantic_result.recovery_actions"
    let actions ← actions.mapM RecoveryAction.ofJson
    let reportedSuccess ← requireBool reportedSuccess "reported_success"
    let authoritativeCommit ← requireBool authoritativeCommit "authoritative_commit"
    create reportedSuccess authoritativeCommit (correctnessOf reportedSuccess semanticallyCorrect)
      explicitNonSuccess actions
  | _ => .error (.typeError "semantic_result must be a mapping")

end SemanticResult

namespace CorrectnessEvaluationRecord

def keys : List String :=
  ["schema", "cohort_id", "trial_id", "operation_id", "policy_id", "scenario_id", "fault_id", "fault_class",
    "validation_level", "evidence_provenance", "ground_truth", "observed_evidence", "policy_decision",
    "semantic_result", "outcome_class", "metric_opportunities", "metric_opportunity_event_ids",
    "metric_opportunity_scopes", "metric_violations", "metric_violation_event_ids"]

def groundTruth (r : CorrectnessEvaluationRecord) : Except PyError Json :=
  loadJsonNoDuplicates r.groundTruthJson "ground_truth_json"

def observedEvidence (r : CorrectnessEvaluationRecord) : Except PyError Json :=
  loadJsonNoDuplicates r.observedEvidenceJson "observed_evidence_json"

def policyDecision (r : CorrectnessEvaluationRecord) : Except PyError Json :=
  loadJsonNoDuplicates r.policyDecisionJson "policy_decision_json"

/-- The members of a record, around the three documents that it embeds. -/
def members (r : CorrectnessEvaluationRecord) (groundTruth observedEvidence policyDecision : Json) :
    List (String × Json) :=
  [("schema", .str correctnessEvaluationSchema), ("cohort_id", .str r.cohortId),
    ("trial_id", .str r.trialId), ("operation_id", .str r.operationId),
    ("policy_id", .str r.policyId.value), ("scenario_id", .str r.scenarioId),
    ("fault_id", optionalJson .str r.faultId), ("fault_class", optionalJson .str r.faultClass),
    ("validation_level", .str r.validationLevel.value),
    ("evidence_provenance", .str r.evidenceProvenance.value), ("ground_truth", groundTruth),
    ("observed_evidence", observedEvidence), ("policy_decision", policyDecision),
    ("semantic_result", .obj r.semanticResult.toDict), ("outcome_class", .str r.outcomeClass.value),
    ("metric_opportunities", .arr (r.opportunities.map fun o => .str o.metric.value)),
    ("metric_opportunity_event_ids", .arr (r.opportunities.map fun o => .str o.eventId)),
    ("metric_opportunity_scopes", .arr (r.opportunities.map fun o => .str o.scope.value)),
    ("metric_violations", .arr (r.violations.map fun v => .str v.metric.value)),
    ("metric_violation_event_ids", .arr (r.violations.map fun v => .str v.eventId))]

def toDict (r : CorrectnessEvaluationRecord) : Except PyError Json := do
  let groundTruth ← r.groundTruth
  let observedEvidence ← r.observedEvidence
  let policyDecision ← r.policyDecision
  return .obj (r.members groundTruth observedEvidence policyDecision)

def toJson (r : CorrectnessEvaluationRecord) : Except PyError String := do
  let value ← r.toDict
  canonicalJson value

def fingerprint (sha256 : String → Digest) (r : CorrectnessEvaluationRecord) : Except PyError String := do
  let text ← r.toJson
  return (sha256 text).hexdigest

/-- The members of an array, each read on its own. -/
def readMembers (members : List (String × Json)) (key : String) (read : Json → Except PyError α) :
    Except PyError (List α) := do
  let j ← fieldOf members key
  let items ← requireJsonArray j key
  items.mapM read

def fromDict (value : Json) : Except PyError CorrectnessEvaluationRecord :=
  match value with
  | .obj members => do
    Correctness.requireExactKeys members keys "correctness evaluation record"
    let schema ← fieldOf members "schema"
    Correctness.requireText schema correctnessEvaluationSchema "unsupported correctness evaluation schema"
    let semanticResult ← fieldOf members "semantic_result"
    let semanticResult ← SemanticResult.fromDict semanticResult
    let cohortId ← fieldOf members "cohort_id"
    let trialId ← fieldOf members "trial_id"
    let operationId ← fieldOf members "operation_id"
    let policyId ← fieldOf members "policy_id"
    let policyId ← PolicyID.ofJson policyId
    let scenarioId ← fieldOf members "scenario_id"
    let validationLevel ← fieldOf members "validation_level"
    let validationLevel ← ValidationEvidenceLevel.ofJson validationLevel
    let evidenceProvenance ← fieldOf members "evidence_provenance"
    let evidenceProvenance ← ResultEvidenceProvenance.ofJson evidenceProvenance
    let groundTruth ← fieldOf members "ground_truth"
    let observedEvidence ← fieldOf members "observed_evidence"
    let policyDecision ← fieldOf members "policy_decision"
    let metricOpportunities ← readMembers members "metric_opportunities" CorrectnessMetric.ofJson
    let opportunityIds ← readMembers members "metric_opportunity_event_ids" .ok
    let scopes ← readMembers members "metric_opportunity_scopes" MetricOpportunityScope.ofJson
    let metricViolations ← readMembers members "metric_violations" CorrectnessMetric.ofJson
    let violationIds ← readMembers members "metric_violation_event_ids" .ok
    let faultId ← fieldOf members "fault_id"
    let faultClass ← fieldOf members "fault_class"
    let groundTruthJson ← canonicalMappingJson groundTruth "ground_truth"
    let observedEvidenceJson ← canonicalMappingJson observedEvidence "observed_evidence"
    let policyDecisionJson ← canonicalMappingJson policyDecision "policy_decision"
    let record ← create {
      cohortId := identifierOf cohortId
      trialId := identifierOf trialId
      operationId := identifierOf operationId
      policyId
      scenarioId := identifierOf scenarioId
      validationLevel
      evidenceProvenance
      groundTruthJson
      observedEvidenceJson
      policyDecisionJson
      semanticResult
      metricOpportunities
      metricOpportunityEventIds := opportunityIds.map identifierOf
      metricOpportunityScopes := scopes
      metricViolations
      metricViolationEventIds := violationIds.map identifierOf
      faultId := optionalIdentifier faultId
      faultClass := optionalIdentifier faultClass }
    let outcomeClass ← fieldOf members "outcome_class"
    Correctness.requireText outcomeClass record.outcomeClass.value
      "outcome_class does not match semantic_result"
    return record
  | _ => .error (.typeError "evaluation record must be a mapping")

def fromJson (value : String) : Except PyError CorrectnessEvaluationRecord := do
  let parsed ← loadJsonNoDuplicates value "correctness evaluation"
  fromDict parsed

end CorrectnessEvaluationRecord

section Construction

/-- The arguments with these opportunities and violations, each as parallel tuples. -/
def RecordArguments.withEvents (a : RecordArguments) (opportunities : List Opportunity)
    (violations : List Violation) : RecordArguments :=
  { a with
    metricOpportunities := opportunities.map (·.metric)
    metricOpportunityEventIds := opportunities.map (·.eventId)
    metricOpportunityScopes := opportunities.map (·.scope)
    metricViolations := violations.map (·.metric)
    metricViolationEventIds := violations.map (·.eventId) }

/-- The constructor of a record, on a result that its own constructor makes. -/
def constructRecord (reportedSuccess authoritativeCommit : Bool) (semanticallyCorrect : Option Bool)
    (explicitNonSuccess : Option ExplicitNonSuccess) (recoveryActions : List RecoveryAction)
    (a : RecordArguments) : Except PyError CorrectnessEvaluationRecord := do
  let semanticResult ← SemanticResult.create reportedSuccess authoritativeCommit semanticallyCorrect
    explicitNonSuccess recoveryActions
  CorrectnessEvaluationRecord.create { a with semanticResult }

end Construction

end Cadi
