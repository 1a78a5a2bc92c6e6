import Cadi.Calibration.Reference
import Cadi.Library.LeastSquares

namespace Cadi.Calibration
open Library
set_option autoImplicit true

section Fitters

structure AffineFit where
  hardwareId : String
  kind : ReferenceKind
  interceptSeconds : ℚ
  slopeSecondsPerAxisUnit : ℚ
  fitPointIds : List String
  validationPointIds : List String
deriving DecidableEq

def AffineFit.postInit (f : AffineFit) : Except PyError AffineFit := do
  raiseIf (f.hardwareId ∉ hardwareIds)
    (.valueError "hardware_id is outside the frozen C6.3b domain")
  raiseIf (f.interceptSeconds < 0)
    (.valueError "intercept_seconds must be finite and non-negative")
  raiseIf (f.slopeSecondsPerAxisUnit < 0)
    (.valueError "slope_seconds_per_axis_unit must be finite and non-negative")
  raiseIf (f.slopeSecondsPerAxisUnit = 0) (.valueError "affine slope must be strictly positive")
  raiseIf (f.fitPointIds.length < 2 ∨ f.validationPointIds.length < 2)
    (.valueError "fit requires at least two FIT and two VALIDATION IDs")
  raiseIf (¬ (f.fitPointIds ++ f.validationPointIds).Nodup)
    (.valueError "fit/validation point IDs must be unique")
  return f

def slopeError (hardwareId : String) (kind : ReferenceKind) : String :=
  hardwareId ++ "/" ++ kind.value ++ " fit slope must be positive"

def interceptError (hardwareId : String) (kind : ReferenceKind) : String :=
  hardwareId ++ "/" ++ kind.value ++ " fit intercept must be non-negative"

/-- Every float of an exact computation is finite. -/
def fitAffineReferenceFamily (p : ReferencePartition) : Except PyError AffineFit := do
  let xs := p.fit.map fun q => (q.axisValue : ℚ)
  let ys := p.fit.map CalibrationReferencePoint.observedSeconds
  raiseIf (xs.dedup.length < 2) (.valueError "affine fit requires at least two distinct FIT axes")
  let xMean := xs.sum / xs.length
  let yMean := ys.sum / ys.length
  let centeredX := xs.map fun value => value - xMean
  let sxx := (centeredX.map fun value => value * value).sum
  raiseIf (sxx ≤ 0) (.valueError "affine fit has non-positive x variance")
  let sxy := (List.zipWith (fun dx y => dx * (y - yMean)) centeredX ys).sum
  let slope := sxy / sxx
  let intercept := yMean - slope * xMean
  raiseIf (slope ≤ 0) (.valueError (slopeError p.hardwareId p.kind))
  raiseIf (intercept < 0) (.valueError (interceptError p.hardwareId p.kind))
  AffineFit.postInit {
    hardwareId := p.hardwareId
    kind := p.kind
    interceptSeconds := intercept
    slopeSecondsPerAxisUnit := slope
    fitPointIds := p.fit.map CalibrationReferencePoint.pointId
    validationPointIds := p.validation.map CalibrationReferencePoint.pointId }

inductive AffineFitViolation where
  | nonpositiveSlope | negativeIntercept
deriving DecidableEq

structure AffineFitDiagnostic where
  hardwareId : String
  kind : ReferenceKind
  interceptSeconds : ℚ
  slopeSecondsPerAxisUnit : ℚ
  fitPointIds : List String
  validationPointIds : List String
  violations : List AffineFitViolation
deriving DecidableEq

def AffineFitDiagnostic.postInit (d : AffineFitDiagnostic) : Except PyError AffineFitDiagnostic := do
  raiseIf (d.hardwareId ∉ hardwareIds)
    (.valueError "hardware_id is outside the frozen C6.3c domain")
  raiseIf (d.fitPointIds.length < 2 ∨ d.validationPointIds.length < 2)
    (.valueError "diagnostic requires at least two FIT and VALIDATION points")
  raiseIf (¬ (d.fitPointIds ++ d.validationPointIds).Nodup)
    (.valueError "diagnostic point IDs must be unique")
  raiseIf (¬ d.violations.Nodup) (.valueError "affine-fit violations must be unique")
  return d

def AffineFitDiagnostic.admissible (d : AffineFitDiagnostic) : Bool := d.violations.isEmpty

def fitAffineReferenceFamilyDiagnostic (p : ReferencePartition) : Except PyError AffineFitDiagnostic := do
  let xs := p.fit.map fun q => (q.axisValue : ℚ)
  let ys := p.fit.map CalibrationReferencePoint.observedSeconds
  raiseIf (xs.dedup.length < 2) (.valueError "affine fit requires at least two distinct FIT axes")
  let xMean := xs.sum / xs.length
  let yMean := ys.sum / ys.length
  let centeredX := xs.map fun value => value - xMean
  let sxx := (centeredX.map fun value => value * value).sum
  raiseIf (sxx ≤ 0) (.valueError "affine fit has non-positive x variance")
  let slope := (List.zipWith (fun dx y => dx * (y - yMean)) centeredX ys).sum / sxx
  let intercept := yMean - slope * xMean
  let violations := (if slope ≤ 0 then [AffineFitViolation.nonpositiveSlope] else []) ++
    if intercept < 0 then [AffineFitViolation.negativeIntercept] else []
  AffineFitDiagnostic.postInit {
    hardwareId := p.hardwareId
    kind := p.kind
    interceptSeconds := intercept
    slopeSecondsPerAxisUnit := slope
    fitPointIds := p.fit.map CalibrationReferencePoint.pointId
    validationPointIds := p.validation.map CalibrationReferencePoint.pointId
    violations }

end Fitters

section Coefficients

def CalibrationReferencePoint.axis (q : CalibrationReferencePoint) : ℚ := q.axisValue

/-- The two coefficients that both fitters compute. -/
def ReferencePartition.slope (p : ReferencePartition) : ℚ :=
  fitSlope CalibrationReferencePoint.axis CalibrationReferencePoint.observedSeconds p.fit

def ReferencePartition.intercept (p : ReferencePartition) : ℚ :=
  fitIntercept CalibrationReferencePoint.axis CalibrationReferencePoint.observedSeconds p.fit

def ReferencePartition.violations (p : ReferencePartition) : List AffineFitViolation :=
  (if p.slope ≤ 0 then [.nonpositiveSlope] else []) ++
    if p.intercept < 0 then [.negativeIntercept] else []

def ReferencePartition.diagnostic (p : ReferencePartition) : AffineFitDiagnostic where
  hardwareId := p.hardwareId
  kind := p.kind
  interceptSeconds := p.intercept
  slopeSecondsPerAxisUnit := p.slope
  fitPointIds := p.fit.map CalibrationReferencePoint.pointId
  validationPointIds := p.validation.map CalibrationReferencePoint.pointId
  violations := p.violations

def ReferencePartition.affine (p : ReferencePartition) : AffineFit where
  hardwareId := p.hardwareId
  kind := p.kind
  interceptSeconds := p.intercept
  slopeSecondsPerAxisUnit := p.slope
  fitPointIds := p.fit.map CalibrationReferencePoint.pointId
  validationPointIds := p.validation.map CalibrationReferencePoint.pointId

variable {p : ReferencePartition}

theorem nodup_violations : p.violations.Nodup := by
  unfold ReferencePartition.violations
  split <;> split <;> decide

theorem violations_eq_nil : p.violations = [] ↔ 0 < p.slope ∧ 0 ≤ p.intercept := by
  unfold ReferencePartition.violations
  rw [List.append_eq_nil_iff]
  constructor
  · intro ⟨hs, hi⟩
    refine ⟨not_le.mp fun h => ?_, not_lt.mp fun h => ?_⟩
    · rw [if_pos h] at hs
      cases hs
    · rw [if_pos h] at hi
      cases hi
  · intro ⟨hs, hi⟩
    rw [if_neg (not_le.mpr hs), if_neg (not_lt.mpr hi)]
    exact ⟨rfl, rfl⟩

theorem mem_violations_slope : .nonpositiveSlope ∈ p.violations ↔ p.slope ≤ 0 := by
  unfold ReferencePartition.violations
  split <;> split <;> simp_all

theorem mem_violations_intercept : .negativeIntercept ∈ p.violations ↔ p.intercept < 0 := by
  unfold ReferencePartition.violations
  split <;> split <;> simp_all

theorem sum_centered_products (f g : CalibrationReferencePoint → ℚ) (l : List CalibrationReferencePoint) :
    (List.zipWith (fun dx y => dx * (y - (l.map g).sum / (l.map g).length))
      ((l.map f).map fun v => v - (l.map f).sum / (l.map f).length) (l.map g)).sum =
      centredProducts f g l := by
  rw [List.map_map, List.zipWith_map, List.zipWith_self, List.length_map, List.length_map]
  rfl

theorem sum_centered_squares (f : CalibrationReferencePoint → ℚ) (l : List CalibrationReferencePoint) :
    (((l.map f).map fun v => v - (l.map f).sum / (l.map f).length).map fun v => v * v).sum =
      centredSquares f l := by
  rw [List.map_map, List.map_map, List.length_map]
  rfl

theorem fitAffineReferenceFamily_eq (p : ReferencePartition) : fitAffineReferenceFamily p = (do
    raiseIf ((p.fit.map CalibrationReferencePoint.axis).dedup.length < 2)
      (.valueError "affine fit requires at least two distinct FIT axes")
    raiseIf (centredSquares CalibrationReferencePoint.axis p.fit ≤ 0)
      (.valueError "affine fit has non-positive x variance")
    raiseIf (p.slope ≤ 0) (.valueError (slopeError p.hardwareId p.kind))
    raiseIf (p.intercept < 0) (.valueError (interceptError p.hardwareId p.kind))
    p.affine.postInit) := by
  unfold fitAffineReferenceFamily ReferencePartition.affine ReferencePartition.slope
    ReferencePartition.intercept fitIntercept fitSlope mean
  simp only [← sum_centered_products, ← sum_centered_squares, List.length_map]
  rfl

theorem fitAffineReferenceFamilyDiagnostic_eq (p : ReferencePartition) :
    fitAffineReferenceFamilyDiagnostic p = (do
      raiseIf ((p.fit.map CalibrationReferencePoint.axis).dedup.length < 2)
        (.valueError "affine fit requires at least two distinct FIT axes")
      raiseIf (centredSquares CalibrationReferencePoint.axis p.fit ≤ 0)
        (.valueError "affine fit has non-positive x variance")
      p.diagnostic.postInit) := by
  unfold fitAffineReferenceFamilyDiagnostic ReferencePartition.diagnostic ReferencePartition.violations
    ReferencePartition.slope ReferencePartition.intercept fitIntercept fitSlope mean
  simp only [← sum_centered_products, ← sum_centered_squares, List.length_map]
  rfl

end Coefficients

end Cadi.Calibration
