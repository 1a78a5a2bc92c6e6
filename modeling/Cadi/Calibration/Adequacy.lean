import Cadi.Calibration.Fit
import Cadi.Calibration.Split
import Cadi.Library.Dict

namespace Cadi.Calibration
open Library
set_option autoImplicit true

section Evaluation

inductive AdequacyDecision where
  | adequateWithinDeclaredDomain | inadequateReviseRepresentation
deriving DecidableEq

/-- The doubles 0.05 and 0.10 and the spacing of doubles at each. -/
def c6ValidationMapeLimit : ℚ := 3602879701896397 / 2 ^ 56

def c6ValidationMapeUlp : ℚ := 1 / 2 ^ 57

def c6ValidationMaxApeLimit : ℚ := 7205759403792794 / 2 ^ 56

def c6ValidationMaxApeUlp : ℚ := 1 / 2 ^ 56

def c6ThresholdUlpBudget : ℚ := 8

def withinLimit (value limit ulp : ℚ) : Bool :=
  value ≤ limit ∨ value - limit ≤ c6ThresholdUlpBudget * ulp

structure PredictionError where
  pointId : String
  observedSeconds : ℚ
  predictedSeconds : ℚ
  signedErrorSeconds : ℚ
  absoluteErrorSeconds : ℚ
  absolutePercentageError : Option ℚ
deriving DecidableEq

structure ValidationReport where
  hardwareId : String
  kind : ReferenceKind
  errors : List PredictionError
  maeSeconds : ℚ
  mape : Option ℚ
  maxApe : Option ℚ
  zeroReferenceCount : Nat
  decision : AdequacyDecision
deriving DecidableEq

def predictionError (q : CalibrationReferencePoint) (predicted : ℚ) : PredictionError where
  pointId := q.pointId
  observedSeconds := q.observedSeconds
  predictedSeconds := predicted
  signedErrorSeconds := predicted - q.observedSeconds
  absoluteErrorSeconds := |predicted - q.observedSeconds|
  absolutePercentageError :=
    if q.observedSeconds = 0 then none else some (|predicted - q.observedSeconds| / q.observedSeconds)

/-- What follows from the errors of the held-out points. -/
def validationReport (p : ReferencePartition) (errors : List PredictionError) : ValidationReport :=
  let nonzeroApes := errors.filterMap PredictionError.absolutePercentageError
  let zeros := errors.filter (·.observedSeconds = 0)
  let zeroReferenceMismatch := zeros.any (·.absoluteErrorSeconds ≠ 0)
  let mape := if nonzeroApes = [] then none else 
    some (nonzeroApes.map fun ape => ape / (nonzeroApes.length : ℚ)).sum
  let maxApe := nonzeroApes.max?
  let adequate := mape.any (withinLimit · c6ValidationMapeLimit c6ValidationMapeUlp) &&
    maxApe.any (withinLimit · c6ValidationMaxApeLimit c6ValidationMaxApeUlp) && !zeroReferenceMismatch
  { hardwareId := p.hardwareId
    kind := p.kind
    errors
    maeSeconds := (errors.map fun e => e.absoluteErrorSeconds / (errors.length : ℚ)).sum
    mape
    maxApe
    zeroReferenceCount := zeros.length
    decision := if adequate then .adequateWithinDeclaredDomain else .inadequateReviseRepresentation }

/-- The text of a list of strings in an f-string. -/
structure ListFormat where
  text : List String → String

/-- Exactly the held-out points are evaluated. -/
def evaluateReferencePredictions (format : ListFormat) (p : ReferencePartition)
    (predictions : Dict String ℚ) : Except PyError ValidationReport := do
  let expectedIds := p.validation.map CalibrationReferencePoint.pointId
  let missing := sortedBy id (expectedIds.dedup.filter (· ∉ predictions.keys))
  let extra := sortedBy id (predictions.keys.filter (· ∉ expectedIds))
  raiseIf (missing ≠ [] ∨ extra ≠ []) (.valueError
    ("prediction key mismatch: missing=" ++ format.text missing ++ ", extra=" ++ format.text extra))
  let errors ← p.validation.mapM fun q => do
    match predictions.get? q.pointId with
    | none => .error (.keyError q.pointId)
    | some predicted =>
      raiseIf (predicted < 0) (.valueError "predicted_seconds must be finite and non-negative")
      return predictionError q predicted
  return validationReport p errors

inductive FamilyValidationStatus where
  | evaluated | notEvaluableInvalidFit
deriving DecidableEq

structure FamilyAdequacyRecord where
  fit : AffineFitDiagnostic
  validationStatus : FamilyValidationStatus
  validationReport : Option ValidationReport
  decision : AdequacyDecision
deriving DecidableEq

def FamilyAdequacyRecord.postInit (r : FamilyAdequacyRecord) : Except PyError FamilyAdequacyRecord := do
  if r.fit.admissible then
    raiseIf (r.validationStatus ≠ .evaluated) (.valueError "admissible fit must be evaluated")
    match r.validationReport with
    | none => .error (.valueError "evaluated fit requires a ValidationReport")
    | some report =>
      raiseIf (report.hardwareId ≠ r.fit.hardwareId)
        (.valueError "validation report hardware does not match fit")
      raiseIf (report.kind ≠ r.fit.kind) (.valueError "validation report kind does not match fit")
      raiseIf (r.decision ≠ report.decision)
        (.valueError "family decision must equal validation report decision")
      return r
  else
    raiseIf (r.validationStatus ≠ .notEvaluableInvalidFit)
      (.valueError "inadmissible fit must be explicitly not evaluable")
    raiseIf (r.validationReport ≠ none)
      (.valueError "inadmissible fit cannot carry held-out validation metrics")
    raiseIf (r.decision ≠ .inadequateReviseRepresentation)
      (.valueError "inadmissible fit must fail representation adequacy")
    return r

def expectedAdmissibilityErrors (d : AffineFitDiagnostic) : List String :=
  (if .nonpositiveSlope ∈ d.violations then [slopeError d.hardwareId d.kind] else []) ++
    if .negativeIntercept ∈ d.violations then [interceptError d.hardwareId d.kind] else []

/-- What the diagnostic predicts for the held-out points. -/
def predictionsOf (d : AffineFitDiagnostic) (p : ReferencePartition) : Dict String ℚ :=
  .ofList (p.validation.map fun q =>
    (q.pointId, d.interceptSeconds + d.slopeSecondsPerAxisUnit * q.axisValue))

def evaluateFamilyAdequacy (format : ListFormat) (p : ReferencePartition) :
    Except PyError FamilyAdequacyRecord := do
  let diagnostic ← fitAffineReferenceFamilyDiagnostic p
  match fitAffineReferenceFamily p with
  | .error (.valueError message) =>
    raiseIf (diagnostic.admissible = true) (.valueError message)
    raiseIf (message ∉ expectedAdmissibilityErrors diagnostic) (.valueError message)
    FamilyAdequacyRecord.postInit ⟨diagnostic, .notEvaluableInvalidFit, none,
      .inadequateReviseRepresentation⟩
  | .error e => .error e
  | .ok normative =>
    raiseIf (diagnostic.admissible = false)
      (.assertionError "normative C6.3b fitter accepted an inadmissible diagnostic fit")
    raiseIf (normative.interceptSeconds ≠ diagnostic.interceptSeconds ∨
        normative.slopeSecondsPerAxisUnit ≠ diagnostic.slopeSecondsPerAxisUnit)
      (.assertionError "normative and diagnostic C6.3b coefficients disagree")
    let report ← evaluateReferencePredictions format p (predictionsOf diagnostic p)
    FamilyAdequacyRecord.postInit ⟨diagnostic, .evaluated, some report, report.decision⟩

end Evaluation

section Accepted
variable {points : List CalibrationReferencePoint} {p : ReferencePartition}

/-- What the fitters need of a partition. -/
structure Fittable (p : ReferencePartition) : Prop where
  hardware_mem : p.hardwareId ∈ hardwareIds
  fit : 2 ≤ p.fit.length
  validation : 2 ≤ p.validation.length
  pointId : ((p.fit ++ p.validation).map CalibrationReferencePoint.pointId).Nodup
  axisValue : (p.fit.map CalibrationReferencePoint.axisValue).Nodup

theorem fittable_of_split (h : splitReferenceFamily points = .ok p) : Fittable p := by
  obtain ⟨hfamily, first, rest, hordered, hp⟩ := splitReferenceFamily_eq_ok.mp h
  have hfirst : first ∈ points := (perm_orderedPoints points).mem_iff.mp (by simp [hordered])
  have hpost := hfamily.postInit hfirst
  rw [hordered] at hpost
  rw [hp]
  simp only [ReferencePartition.postInit, Except.bind_eq_ok, raiseIf_eq_ok, Except.pure_eq_ok,
    exists_const] at hpost
  obtain ⟨hhw, hfit, hvalidation, _, hid, haxis, _⟩ := hpost
  refine ⟨not_not.mp hhw, not_lt.mp hfit, not_lt.mp hvalidation, not_not.mp hid, ?_⟩
  have hnodup := not_not.mp haxis
  rw [List.map_append] at hnodup
  exact hnodup.of_append_left

namespace Fittable

theorem nodup_axis (h : Fittable p) : (p.fit.map CalibrationReferencePoint.axis).Nodup := by
  have hcast : p.fit.map CalibrationReferencePoint.axis =
      (p.fit.map CalibrationReferencePoint.axisValue).map (Int.cast : Int → ℚ) := by
    rw [List.map_map]
    rfl
  rw [hcast]
  exact h.axisValue.map Int.cast_injective

theorem fit_ne_nil (h : Fittable p) : p.fit ≠ [] :=
  List.ne_nil_of_length_pos (Nat.lt_of_lt_of_le Nat.zero_lt_two h.fit)

theorem distinct (h : Fittable p) : ¬ (p.fit.map CalibrationReferencePoint.axis).dedup.length < 2 := by
  rw [h.nodup_axis.dedup, List.length_map]
  exact not_lt.mpr h.fit

theorem variance_pos (h : Fittable p) : 0 < centredSquares CalibrationReferencePoint.axis p.fit := by
  have hfit := h.fit
  have haxis := h.nodup_axis
  cases hp : p.fit with
  | nil =>
    rw [hp] at hfit
    cases hfit
  | cons a l =>
    cases l with
    | nil =>
      rw [hp] at hfit
      exact absurd hfit (Nat.not_succ_le_self 1)
    | cons b l =>
      rw [hp, List.map_cons, List.map_cons, List.nodup_cons] at haxis
      refine centredSquares_pos (a := a) (b := b) List.mem_cons_self
        (List.mem_cons_of_mem _ List.mem_cons_self) fun hab => haxis.1 ?_
      rw [hab]
      exact List.mem_cons_self

theorem pointIds (h : Fittable p) : (p.fit.map CalibrationReferencePoint.pointId ++
    p.validation.map CalibrationReferencePoint.pointId).Nodup := by
  rw [← List.map_append]
  exact h.pointId

theorem sizes (h : Fittable p) : ¬ ((p.fit.map CalibrationReferencePoint.pointId).length < 2 ∨
    (p.validation.map CalibrationReferencePoint.pointId).length < 2) := by
  rw [List.length_map, List.length_map, not_or]
  exact ⟨not_lt.mpr h.fit, not_lt.mpr h.validation⟩

theorem diagnostic_ok (h : Fittable p) :
    fitAffineReferenceFamilyDiagnostic p = .ok p.diagnostic := by
  rw [fitAffineReferenceFamilyDiagnostic_eq]
  simp only [AffineFitDiagnostic.postInit, Except.bind_eq_ok, raiseIf_eq_ok, Except.pure_eq_ok,
    exists_const]
  exact ⟨h.distinct, not_le.mpr h.variance_pos, not_not.mpr h.hardware_mem, h.sizes,
    not_not.mpr h.pointIds, not_not.mpr nodup_violations, trivial⟩

theorem affine_ok (h : Fittable p) (hslope : 0 < p.slope) (hintercept : 0 ≤ p.intercept) :
    fitAffineReferenceFamily p = .ok p.affine := by
  rw [fitAffineReferenceFamily_eq]
  simp only [AffineFit.postInit, Except.bind_eq_ok, raiseIf_eq_ok, Except.pure_eq_ok, exists_const]
  exact ⟨h.distinct, not_le.mpr h.variance_pos, not_le.mpr hslope, not_lt.mpr hintercept,
    not_not.mpr h.hardware_mem, not_lt.mpr hintercept, not_lt.mpr hslope.le, hslope.ne', h.sizes,
    not_not.mpr h.pointIds, trivial⟩

/-- On the others it names the first coefficient that it refuses. -/
theorem affine_error (h : Fittable p) (hbad : ¬ (0 < p.slope ∧ 0 ≤ p.intercept)) :
    fitAffineReferenceFamily p = .error (.valueError (if p.slope ≤ 0 then
      slopeError p.hardwareId p.kind else interceptError p.hardwareId p.kind)) := by
  rw [fitAffineReferenceFamily_eq, raiseIf, if_neg h.distinct, raiseIf, if_neg (not_le.mpr h.variance_pos),
    raiseIf]
  by_cases hslope : p.slope ≤ 0
  · rw [if_pos hslope, if_pos hslope]
    rfl
  · have hintercept : p.intercept < 0 := not_le.mp fun h0 => hbad ⟨not_le.mp hslope, h0⟩
    rw [if_neg hslope, if_neg hslope, raiseIf, if_pos hintercept]
    rfl

/-- Every held-out point has its prediction, and predictions are not negative. -/
theorem evaluate_ok (hslope : 0 < p.slope) (hintercept : 0 ≤ p.intercept)
    (format : ListFormat) : ∃ errors, evaluateReferencePredictions format p (predictionsOf p.diagnostic p) =
      .ok (validationReport p errors) := by
  have hkeys (k : String) : k ∈ (predictionsOf p.diagnostic p).keys ↔
      k ∈ p.validation.map CalibrationReferencePoint.pointId := by
    constructor
    · intro hk
      obtain ⟨v, hv⟩ := Dict.mem_keys_iff.mp hk
      obtain ⟨q, hq, heq⟩ := List.mem_map.mp (Dict.mem_of_get?_ofList hv)
      exact List.mem_map.mpr ⟨q, hq, congrArg Prod.fst heq⟩
    · intro hk
      apply Dict.mem_keys_iff.mpr
      apply Dict.mem_iff.mp
      apply Dict.mem_ofList
      rw [List.map_map]
      exact hk
  have hmissing : (p.validation.map CalibrationReferencePoint.pointId).dedup.filter
      (· ∉ (predictionsOf p.diagnostic p).keys) = [] := by
    rw [List.filter_eq_nil_iff]
    intro k hk
    simp only [hkeys k, List.mem_dedup.mp hk, not_true_eq_false, decide_false, Bool.false_eq_true,
      not_false_eq_true]
  have hextra : (predictionsOf p.diagnostic p).keys.filter
      (· ∉ p.validation.map CalibrationReferencePoint.pointId) = [] := by
    rw [List.filter_eq_nil_iff]
    intro k hk
    simp only [(hkeys k).mp hk, not_true_eq_false, decide_false, Bool.false_eq_true, not_false_eq_true]
  have hpoint : ∀ q ∈ p.validation, ∃ e, (do
      match (predictionsOf p.diagnostic p).get? q.pointId with
      | none => .error (.keyError q.pointId)
      | some predicted =>
        raiseIf (predicted < 0) (.valueError "predicted_seconds must be finite and non-negative")
        return predictionError q predicted) = Except.ok (ε := PyError) e := by
    intro q hq
    obtain ⟨v, hv⟩ := Dict.mem_keys_iff.mp ((hkeys q.pointId).mpr (List.mem_map_of_mem hq))
    obtain ⟨q', hq', heq⟩ := List.mem_map.mp (Dict.mem_of_get?_ofList hv)
    have hnonneg : 0 ≤ v := by
      rw [← (Prod.mk.inj heq).2]
      have haxis : (0 : ℚ) ≤ q'.axisValue := Int.cast_nonneg q'.axis_pos.le
      exact add_nonneg hintercept (mul_nonneg hslope.le haxis)
    refine ⟨predictionError q v, ?_⟩
    rw [hv]
    simp only [raiseIf, if_neg (not_lt.mpr hnonneg)]
    rfl
  obtain ⟨errors, herrors⟩ := Except.mapM_total hpoint
  refine ⟨errors, ?_⟩
  simp only [evaluateReferencePredictions, Except.bind_eq_ok, raiseIf_eq_ok, exists_const,
    Except.pure_eq_ok]
  refine ⟨?_, errors, herrors, rfl⟩
  rw [hmissing, hextra]
  exact not_or.mpr ⟨not_not.mpr rfl, not_not.mpr rfl⟩

theorem adequacy_ok (h : Fittable p) (format : ListFormat) :
    ∃ r, evaluateFamilyAdequacy format p = .ok r ∧ r.fit = p.diagnostic := by
  unfold evaluateFamilyAdequacy
  rw [h.diagnostic_ok, Except.ok_bind]
  by_cases hgood : 0 < p.slope ∧ 0 ≤ p.intercept
  · have hadmissible : p.diagnostic.admissible = true := List.isEmpty_iff.mpr (violations_eq_nil.mpr hgood)
    obtain ⟨errors, herrors⟩ := evaluate_ok hgood.1 hgood.2 format
    rw [h.affine_ok hgood.1 hgood.2]
    refine ⟨⟨p.diagnostic, .evaluated, some (validationReport p errors),
      (validationReport p errors).decision⟩, ?_, rfl⟩
    simp only [Except.bind_eq_ok, raiseIf_eq_ok, exists_const, FamilyAdequacyRecord.postInit,
      hadmissible, if_true]
    refine ⟨Bool.true_eq_false_eq_False, not_or.mpr ⟨not_not.mpr rfl, not_not.mpr rfl⟩, _, herrors, ?_⟩
    simp only [Except.pure_eq_ok]
    exact ⟨not_not.mpr rfl, not_not.mpr rfl, not_not.mpr rfl, not_not.mpr rfl, trivial⟩
  · have hadmissible : p.diagnostic.admissible = false := by
      rw [AffineFitDiagnostic.admissible, List.isEmpty_eq_false_iff]
      exact fun hnil => hgood (violations_eq_nil.mp hnil)
    rw [h.affine_error hgood]
    refine ⟨⟨p.diagnostic, .notEvaluableInvalidFit, none, .inadequateReviseRepresentation⟩, ?_, rfl⟩
    simp only [Except.bind_eq_ok, raiseIf_eq_ok, exists_const, FamilyAdequacyRecord.postInit,
      hadmissible, Bool.false_eq_true, if_false, Except.pure_eq_ok]
    refine ⟨not_false, not_not.mpr ?_, not_not.mpr rfl, not_not.mpr rfl, not_not.mpr rfl, trivial⟩
    rw [expectedAdmissibilityErrors, List.mem_append]
    by_cases hslope : p.slope ≤ 0
    · refine .inl ?_
      rw [if_pos hslope, if_pos (show _ ∈ p.diagnostic.violations from mem_violations_slope.mpr hslope)]
      exact List.mem_singleton.mpr rfl
    · refine .inr ?_
      have hintercept : p.intercept < 0 := not_le.mp fun h0 => hgood ⟨not_le.mp hslope, h0⟩
      rw [if_neg hslope, if_pos (show _ ∈ p.diagnostic.violations from
        mem_violations_intercept.mpr hintercept)]
      exact List.mem_singleton.mpr rfl

end Fittable

/-- The partition and its fits: independent of the order of the points and of what is held out,
optimal over the FIT points, and computed alike by both fitters. -/
theorem calibration_fits (h : splitReferenceFamily points = .ok p) (format : ListFormat) :
    (∀ points', points.Perm points' → splitReferenceFamily points' = .ok p) ∧
    ∃ d, fitAffineReferenceFamilyDiagnostic p = .ok d ∧
      (∀ intercept slope, squaredError CalibrationReferencePoint.axis
          CalibrationReferencePoint.observedSeconds p.fit d.interceptSeconds d.slopeSecondsPerAxisUnit ≤
        squaredError CalibrationReferencePoint.axis CalibrationReferencePoint.observedSeconds p.fit
          intercept slope) ∧
      ((∃ intercept slope, ∀ q ∈ p.fit, q.observedSeconds = intercept + slope * q.axis) ↔
        ∀ q ∈ p.fit, q.observedSeconds = d.interceptSeconds + d.slopeSecondsPerAxisUnit * q.axis) ∧
      (∀ observation, ∃ p',
        splitReferenceFamily (points.map (reobserve p.validation observation)) = .ok p' ∧
        fitAffineReferenceFamilyDiagnostic p' = .ok d ∧
        fitAffineReferenceFamily p' = fitAffineReferenceFamily p) ∧
      ((∃ f, fitAffineReferenceFamily p = .ok f) ↔ d.violations = []) ∧
      (∀ f, fitAffineReferenceFamily p = .ok f → f.interceptSeconds = d.interceptSeconds ∧
        f.slopeSecondsPerAxisUnit = d.slopeSecondsPerAxisUnit) ∧
      ∃ r, evaluateFamilyAdequacy format p = .ok r ∧ r.fit = d := by
  have hp := fittable_of_split h
  have hdiagnostic := hp.diagnostic_ok
  have hsuccess : (∃ f, fitAffineReferenceFamily p = .ok f) ↔ p.diagnostic.violations = [] := by
    constructor
    · intro ⟨f, hf⟩
      apply violations_eq_nil.mpr
      by_contra hbad
      rw [hp.affine_error hbad] at hf
      cases hf
    · intro hnil
      obtain ⟨hslope, hintercept⟩ := violations_eq_nil.mp hnil
      exact ⟨p.affine, hp.affine_ok hslope hintercept⟩
  refine ⟨fun points' => splitReferenceFamily_perm h, p.diagnostic, hdiagnostic, ?_, ?_, ?_, hsuccess, ?_,
    hp.adequacy_ok format⟩
  · exact fit_optimal hp.fit_ne_nil hp.variance_pos.ne'
  · constructor
    · intro ⟨intercept, slope, hline⟩
      exact fit_exact hp.fit_ne_nil hp.variance_pos.ne' hline
    · exact fun hline => ⟨_, _, hline⟩
  · intro observation
    have hsplit := splitReferenceFamily_reobserve h observation
    have hids : (p.validation.map (reobserve p.validation observation)).map
        CalibrationReferencePoint.pointId = p.validation.map CalibrationReferencePoint.pointId := by
      rw [List.map_map]
      exact List.map_congr_left fun q _ => reobserve_pointId _ _ q
    refine ⟨_, hsplit, ?_, ?_⟩
    · rw [(fittable_of_split hsplit).diagnostic_ok]
      simp only [ReferencePartition.diagnostic, ReferencePartition.slope, ReferencePartition.intercept,
        ReferencePartition.violations, hids]
      rfl
    · rw [fitAffineReferenceFamily_eq, fitAffineReferenceFamily_eq]
      simp only [ReferencePartition.affine, ReferencePartition.slope, ReferencePartition.intercept, hids]
      rfl
  · intro f hf
    obtain ⟨hslope, hintercept⟩ := violations_eq_nil.mp (hsuccess.mp ⟨f, hf⟩)
    rw [hp.affine_ok hslope hintercept, Except.ok.injEq] at hf
    rw [← hf]
    exact ⟨rfl, rfl⟩

/-- A point on the line 1 + 2x. -/
def linePoint (pointId : String) (axisValue : Int) (h : isBlank pointId = false)
    (hpos : 0 < axisValue) : CalibrationReferencePoint where
  pointId
  hardwareId := "a100-80gb"
  kind := .pointToPointTransfer
  axisValue
  observedSeconds := 1 + 2 * axisValue
  derivationId := "d"
  sourceCommit := vidurPinnedCommit
  sourceArtifacts := expectedSourceArtifacts "a100-80gb" .pointToPointTransfer
  pointId_nonblank := h
  hardware_mem := by decide
  axis_pos := hpos
  observed_nonneg := by positivity
  derivationId_nonblank := by decide
  commit_eq := rfl
  artifacts_eq := by decide

def linePoints : List CalibrationReferencePoint :=
  [linePoint "d" 4 (by decide) (by decide), linePoint "b" 2 (by decide) (by decide),
    linePoint "a" 1 (by decide) (by decide), linePoint "c" 3 (by decide) (by decide)]

theorem calibration_fits_line : ∃ p, splitReferenceFamily linePoints = .ok p ∧
    ∃ d, fitAffineReferenceFamilyDiagnostic p = .ok d ∧
      ∀ q ∈ p.fit, q.observedSeconds = d.interceptSeconds + d.slopeSecondsPerAxisUnit * q.axis := by
  have hsplit : splitReferenceFamily linePoints =
      .ok ⟨"a100-80gb", .pointToPointTransfer,
        [linePoint "a" 1 (by decide) (by decide), linePoint "c" 3 (by decide) (by decide)],
        [linePoint "b" 2 (by decide) (by decide), linePoint "d" 4 (by decide) (by decide)]⟩ := by
    decide +kernel
  obtain ⟨_, d, hd, _, hline, _⟩ := calibration_fits hsplit ⟨fun _ => ""⟩
  refine ⟨_, hsplit, d, hd, hline.mp ⟨1, 2, fun q hq => ?_⟩⟩
  rcases List.mem_cons.mp hq with rfl | hq
  · rfl
  · rw [List.mem_singleton.mp hq]
    rfl

end Accepted

end Cadi.Calibration
