import Cadi.Calibration.Reference
import Cadi.Library.Interpolation

namespace Cadi.Curves
open Library Calibration
set_option autoImplicit true

section Scalars

inductive ParameterSourceClass where
  | publishedOrValidatedProfile | directCpuMeasurement | syntheticSensitivity
deriving DecidableEq

structure ParameterProvenance where
  sourceClass : ParameterSourceClass
  reference : String
  note : Option String
  reference_nonblank : isBlank reference = false
  note_nonblank : ∀ text ∈ note, isBlank text = false

structure SensitivityRange where
  low : ℚ
  high : ℚ
  low_lt : low < high

structure SourcedScalar where
  value : ℚ
  unit : String
  provenance : ParameterProvenance
  sensitivity : Option SensitivityRange
  unit_nonblank : isBlank unit = false
  synthetic : provenance.sourceClass = .syntheticSensitivity → sensitivity ≠ none
  nominal : ∀ range ∈ sensitivity, range.low ≤ value ∧ value ≤ range.high

end Scalars

section Knots

def c64aKnotPartition : String := "C6.3_FIT"

/-- The families that have curves. -/
def curveKinds : List ReferenceKind := [.coldPrefill, .pointToPointTransfer]

structure CurveKnot where
  hardwareId : String
  referenceKind : ReferenceKind
  axisValue : Int
  seconds : SourcedScalar
  sourcePointId : String
  sourcePartition : String
  hardwareId_nonblank : isBlank hardwareId = false
  kind_mem : referenceKind ∈ curveKinds
  axis_pos : 0 < axisValue
  unit_eq : seconds.unit = "seconds"
  class_eq : seconds.provenance.sourceClass = .publishedOrValidatedProfile
  seconds_nonneg : 0 ≤ seconds.value
  sensitivity_nonneg : ∀ range ∈ seconds.sensitivity, 0 ≤ range.low
  pointId_nonblank : isBlank sourcePointId = false
  partition_eq : sourcePartition = c64aKnotPartition

/-- The checks of a knot, in their order. -/
def CurveKnot.new (hardwareId : String) (referenceKind : ReferenceKind) (axisValue : Int)
    (seconds : SourcedScalar) (sourcePointId sourcePartition : String) : Except PyError CurveKnot :=
  if hhardware : isBlank hardwareId = true then
    .error (.valueError "hardware_id must be a non-empty string")
  else if hkind : referenceKind ∉ curveKinds then
    .error (.valueError "curve knot reference_kind must be a revised C6.4a family")
  else if haxis : axisValue ≤ 0 then .error (.valueError "axis_value must be positive")
  else if hunit : seconds.unit ≠ "seconds" then
    .error (.valueError "curve knot seconds unit must be 'seconds'")
  else if hclass : seconds.provenance.sourceClass ≠ .publishedOrValidatedProfile then
    .error (.valueError "replacement curve knots must be P-SRC2 evidence")
  else if hseconds : seconds.value < 0 then .error (.valueError "curve knot seconds must be non-negative")
  else if hrange : ¬ ∀ range ∈ seconds.sensitivity, 0 ≤ range.low then
    .error (.valueError "curve knot sensitivity must remain non-negative")
  else if hpoint : isBlank sourcePointId = true then
    .error (.valueError "source_point_id must be a non-empty string")
  else if hpartition : sourcePartition ≠ c64aKnotPartition then
    .error (.valueError "replacement curve knots must come only from C6.3 FIT")
  else .ok ⟨hardwareId, referenceKind, axisValue, seconds, sourcePointId, sourcePartition,
    Bool.eq_false_iff.mpr hhardware, not_not.mp hkind, Int.not_le.mp haxis, not_not.mp hunit,
    not_not.mp hclass, not_lt.mp hseconds, not_not.mp hrange, Bool.eq_false_iff.mpr hpoint,
    not_not.mp hpartition⟩

end Knots

section Curves

def expectedUnit (kind : ReferenceKind) : String :=
  if kind = .coldPrefill then "input-tokens" else "bytes"

structure PiecewiseLinearCostCurve where
  curveId : String
  hardwareId : String
  referenceKind : ReferenceKind
  axisUnit : String
  knots : List CurveKnot
  curveId_nonblank : isBlank curveId = false
  hardwareId_nonblank : isBlank hardwareId = false
  kind_mem : referenceKind ∈ curveKinds
  unit_eq : axisUnit = expectedUnit referenceKind
  two_le : 2 ≤ knots.length
  family : ∀ knot ∈ knots, knot.hardwareId = hardwareId ∧ knot.referenceKind = referenceKind
  axes_lt : (knots.map (·.axisValue)).Pairwise (· < ·)
  pointIds_nodup : (knots.map (·.sourcePointId)).Nodup

theorem axes_increase {axes : List Int} :
    (axes = sortedBy id axes ∧ axes.Nodup) ↔ axes.Pairwise (· < ·) := by
  constructor
  · intro ⟨hsorted, hnodup⟩
    have hle : axes.Pairwise fun a b => id a ≤ id b := by
      rw [hsorted]
      exact pairwise_sortedBy id axes
    exact hle.imp₂ (fun a b hab hne => lt_of_le_of_ne hab hne) hnodup
  · intro hlt
    refine ⟨?_, hlt.imp fun h => h.ne⟩
    exact eq_of_sorted id (fun _ _ _ _ h => h) (perm_sortedBy id axes).symm (hlt.imp fun h => h.le)
      (pairwise_sortedBy id axes)

/-- The checks of a curve, in their order. -/
def PiecewiseLinearCostCurve.new (curveId hardwareId : String) (referenceKind : ReferenceKind)
    (axisUnit : String) (knots : List CurveKnot) : Except PyError PiecewiseLinearCostCurve :=
  if hcurve : isBlank curveId = true then .error (.valueError "curve_id must be a non-empty string")
  else if hhardware : isBlank hardwareId = true then
    .error (.valueError "hardware_id must be a non-empty string")
  else if hkind : referenceKind ∉ curveKinds then
    .error (.valueError "curve reference_kind must be a revised C6.4a family")
  else if hunit : axisUnit ≠ expectedUnit referenceKind then
    .error (.valueError ("curve axis_unit must be '" ++ expectedUnit referenceKind ++ "'"))
  else if hlength : knots.length < 2 then
    .error (.valueError "piecewise-linear curve requires at least two knots")
  else if hfamily : ¬ ∀ knot ∈ knots, knot.hardwareId = hardwareId ∧ knot.referenceKind = referenceKind then
    .error (.valueError "all curve knots must match curve hardware and family")
  else if haxes : ¬ (knots.map (·.axisValue) = sortedBy id (knots.map (·.axisValue)) ∧
      (knots.map (·.axisValue)).Nodup) then
    .error (.valueError "curve knot axes must be strictly increasing and unique")
  else if hpoints : ¬ (knots.map (·.sourcePointId)).Nodup then
    .error (.valueError "curve knot source point IDs must be unique")
  else .ok ⟨curveId, hardwareId, referenceKind, axisUnit, knots, Bool.eq_false_iff.mpr hcurve,
    Bool.eq_false_iff.mpr hhardware, not_not.mp hkind, not_not.mp hunit, Nat.not_lt.mp hlength,
    not_not.mp hfamily, axes_increase.mp (not_not.mp haxes), not_not.mp hpoints⟩

variable (c : PiecewiseLinearCostCurve)

theorem PiecewiseLinearCostCurve.knots_ne : c.knots ≠ [] := fun h => by
  have htwo := c.two_le
  rw [h] at htwo
  cases htwo

def PiecewiseLinearCostCurve.minimumAxis : Int := (c.knots.head c.knots_ne).axisValue

def PiecewiseLinearCostCurve.maximumAxis : Int := (c.knots.getLast c.knots_ne).axisValue

/-- An exact number is finite. -/
def finiteNonnegative (value : ℚ) (name : String) : Except PyError ℚ :=
  if value < 0 then .error (.valueError (name ++ " must be finite and non-negative")) else .ok value

/-- A value between two knots. -/
def interpolate (left right : CurveKnot) (axis : ℚ) : Except PyError ℚ := do
  let fraction := (axis - left.axisValue) / (right.axisValue - left.axisValue)
  let value := left.seconds.value + fraction * (right.seconds.value - left.seconds.value)
  raiseIf (value < 0) (.valueError "curve interpolation produced invalid seconds")
  return value

def PiecewiseLinearCostCurve.evaluate (axisValue : ℚ) : Except PyError ℚ := do
  let axis ← finiteNonnegative axisValue "axis_value"
  raiseIf (axis < c.minimumAxis ∨ c.maximumAxis < axis) (.valueError
    ("curve evaluation would extrapolate outside [" ++ toString c.minimumAxis ++ ", " ++
      toString c.maximumAxis ++ "] " ++ c.axisUnit))
  match c.knots.find? (fun knot => axis = knot.axisValue) with
  | some knot => return knot.seconds.value
  | none =>
    match (c.knots.zip c.knots.tail).find? (fun p => p.1.axisValue < axis ∧ axis < p.2.axisValue) with
    | some (left, right) => interpolate left right axis
    | none => .error (.assertionError "curve interpolation failed to bracket an in-domain axis")

end Curves

section Evaluation

/-- The points of a curve. -/
def PiecewiseLinearCostCurve.points (c : PiecewiseLinearCostCurve) : List (ℚ × ℚ) :=
  c.knots.map fun knot => ((knot.axisValue : ℚ), knot.seconds.value)

variable {c : PiecewiseLinearCostCurve} {a b v w : ℚ}

theorem PiecewiseLinearCostCurve.points_ordered : Ordered c.points := by
  have haxes := List.pairwise_map.mp c.axes_lt
  exact List.pairwise_map.mpr (haxes.imp fun h => Int.cast_lt.mpr h)

theorem PiecewiseLinearCostCurve.length_points : c.points.length = c.knots.length := List.length_map _

theorem PiecewiseLinearCostCurve.minimumAxis_pos : 0 < c.minimumAxis :=
  (c.knots.head c.knots_ne).axis_pos

theorem PiecewiseLinearCostCurve.exists_bracket (hmin : c.minimumAxis ≤ a) (hmax : a ≤ c.maximumAxis) :
    ∃ (i : Nat) (h : i + 1 < c.knots.length), c.knots[i].axisValue ≤ a ∧ a ≤ c.knots[i + 1].axisValue := by
  have htwo := c.two_le
  have hlast : c.knots.length - 2 + 1 < c.points.length := by
    rw [length_points]
    omega
  have hfirst : c.points[0].1 ≤ a := by
    have hhead := List.head_eq_getElem c.knots_ne
    rw [minimumAxis, hhead] at hmin
    simp only [points, List.getElem_map]
    exact hmin
  have hend : a ≤ c.points[c.knots.length - 2 + 1].1 := by
    have hget := List.getLast_eq_getElem c.knots_ne
    have hindex : c.knots.length - 2 + 1 = c.knots.length - 1 := by omega
    rw [maximumAxis, hget] at hmax
    simp only [points, List.getElem_map, hindex]
    exact hmax
  obtain ⟨i, _, h, hle, hge⟩ := exists_segment hlast hfirst hend
  rw [length_points] at h
  simp only [points, List.getElem_map] at hle hge
  exact ⟨i, h, hle, hge⟩

theorem PiecewiseLinearCostCurve.knot_onCurve {knot : CurveKnot} (h : knot ∈ c.knots) :
    OnCurve c.points knot.axisValue knot.seconds.value := by
  obtain ⟨i, hi, rfl⟩ := List.getElem_of_mem h
  have htwo : 2 ≤ c.points.length := by
    rw [length_points]
    exact c.two_le
  have hpoint := onCurve_point c.points_ordered htwo (i := i) (by rwa [length_points])
  simp only [points, List.getElem_map] at hpoint ⊢
  exact hpoint

/-- The code's interpolation is the line's, and is never negative. -/
theorem interpolate_ok {left right : CurveKnot} (hlt : left.axisValue < right.axisValue)
    (hleft : left.axisValue ≤ a) (hright : a ≤ right.axisValue) : interpolate left right a =
      .ok (interpolated ((left.axisValue : ℚ), left.seconds.value)
        ((right.axisValue : ℚ), right.seconds.value) a) := by
  have hpoints : ((left.axisValue : ℚ), left.seconds.value).1 <
      ((right.axisValue : ℚ), right.seconds.value).1 := Int.cast_lt.mpr hlt
  have hbetween := min_le_interpolated hpoints hleft hright
  have hnonneg := (le_min left.seconds_nonneg right.seconds_nonneg).trans hbetween
  rw [interpolated] at hnonneg
  rw [interpolate, raiseIf, if_neg (not_lt.mpr hnonneg), Except.ok_bind]
  rfl

theorem PiecewiseLinearCostCurve.evaluate_inside (hmin : c.minimumAxis ≤ a) (hmax : a ≤ c.maximumAxis) :
    ∃ v, c.evaluate a = .ok v ∧ OnCurve c.points a v := by
  have hnonneg : ¬ a < 0 := by
    have hpos : (0 : ℚ) < c.minimumAxis := Int.cast_pos.mpr c.minimumAxis_pos
    exact not_lt.mpr (hpos.le.trans hmin)
  have hdomain : ¬ (a < c.minimumAxis ∨ c.maximumAxis < a) :=
    not_or.mpr ⟨not_lt.mpr hmin, not_lt.mpr hmax⟩
  rw [evaluate, finiteNonnegative, if_neg hnonneg, Except.ok_bind, raiseIf, if_neg hdomain, Except.ok_bind]
  cases hknot : c.knots.find? (fun knot => a = knot.axisValue) with
  | some knot =>
    have hfound := List.find?_some hknot
    have heq : a = knot.axisValue := of_decide_eq_true hfound
    refine ⟨knot.seconds.value, rfl, ?_⟩
    rw [heq]
    exact c.knot_onCurve (List.mem_of_find?_eq_some hknot)
  | none =>
    have hne (knot) (hk : knot ∈ c.knots) : a ≠ knot.axisValue := fun h =>
      List.find?_eq_none.mp hknot knot hk (decide_eq_true h)
    dsimp only
    cases hpair : (c.knots.zip c.knots.tail).find?
        (fun p => p.1.axisValue < a ∧ a < p.2.axisValue) with
    | some pair =>
      obtain ⟨left, right⟩ := pair
      have hmem := List.mem_of_find?_eq_some hpair
      have hfound := List.find?_some hpair
      have hopen : (left.axisValue : ℚ) < a ∧ a < right.axisValue := of_decide_eq_true hfound
      have hlt : left.axisValue < right.axisValue := Int.cast_lt.mp (hopen.1.trans hopen.2)
      obtain ⟨i, hi, hzip⟩ := List.getElem_of_mem hmem
      rw [List.length_zip, List.length_tail] at hi
      rw [List.getElem_zip, List.getElem_tail] at hzip
      obtain ⟨rfl, rfl⟩ := Prod.mk.inj hzip
      refine ⟨_, interpolate_ok hlt hopen.1.le hopen.2.le, i, ?_, ?_, ?_, ?_⟩
      · rw [length_points]
        omega
      · simp only [points, List.getElem_map]
        exact hopen.1.le
      · simp only [points, List.getElem_map]
        exact hopen.2.le
      · simp only [points, List.getElem_map]
    | none =>
      obtain ⟨i, hi, hle, hge⟩ := c.exists_bracket hmin hmax
      have hopen : c.knots[i].axisValue < a ∧ a < c.knots[i + 1].axisValue :=
        ⟨lt_of_le_of_ne hle fun h => hne _ (List.getElem_mem _) h.symm,
          lt_of_le_of_ne hge (hne _ (List.getElem_mem _))⟩
      have hmem : (c.knots[i], c.knots[i + 1]) ∈ c.knots.zip c.knots.tail := by
        have hzip : i < (c.knots.zip c.knots.tail).length := by
          rw [List.length_zip, List.length_tail]
          omega
        have hget : (c.knots.zip c.knots.tail)[i] = (c.knots[i], c.knots[i + 1]) := by
          rw [List.getElem_zip, List.getElem_tail]
        rw [← hget]
        exact List.getElem_mem hzip
      have hclosed := List.find?_eq_none.mp hpair _ hmem
      simp only [decide_eq_true_eq] at hclosed
      exact absurd hopen hclosed

theorem PiecewiseLinearCostCurve.evaluate_outside (h : a < c.minimumAxis ∨ c.maximumAxis < a) :
    ∃ text, c.evaluate a = .error (.valueError text) := by
  rw [evaluate, finiteNonnegative]
  split
  next => exact ⟨_, rfl⟩
  next =>
    rw [Except.ok_bind, raiseIf, if_pos h]
    exact ⟨_, rfl⟩

theorem PiecewiseLinearCostCurve.evaluate_iff : c.evaluate a = .ok v ↔
    (c.minimumAxis ≤ a ∧ a ≤ c.maximumAxis) ∧ OnCurve c.points a v := by
  constructor
  · intro h
    by_cases hdomain : c.minimumAxis ≤ a ∧ a ≤ c.maximumAxis
    · obtain ⟨w, hw, hon⟩ := c.evaluate_inside hdomain.1 hdomain.2
      rw [hw] at h
      obtain rfl := Except.ok.inj h
      exact ⟨hdomain, hon⟩
    · rw [not_and_or, not_le, not_le] at hdomain
      obtain ⟨text, htext⟩ := c.evaluate_outside hdomain
      rw [htext] at h
      cases h
  · intro ⟨⟨hmin, hmax⟩, hon⟩
    obtain ⟨w, hw, hon'⟩ := c.evaluate_inside hmin hmax
    rw [hw, hon'.unique c.points_ordered hon]

theorem PiecewiseLinearCostCurve.knot_inside {i : Nat} (hi : i < c.knots.length) :
    c.minimumAxis ≤ c.knots[i].axisValue ∧ c.knots[i].axisValue ≤ c.maximumAxis := by
  have hle (i j : Nat) (hij : i ≤ j) (hj : j < c.knots.length) :
      c.knots[i].axisValue ≤ c.knots[j].axisValue := by
    rcases hij.eq_or_lt with rfl | hij
    · exact le_rfl
    · exact (List.pairwise_iff_getElem.mp (List.pairwise_map.mp c.axes_lt) i j (hij.trans hj) hj hij).le
  have htwo := c.two_le
  constructor
  · rw [minimumAxis, List.head_eq_getElem]
    exact hle 0 i (Nat.zero_le i) hi
  · rw [maximumAxis, List.getLast_eq_getElem]
    exact hle i _ (Nat.le_sub_one_of_lt hi) _

theorem PiecewiseLinearCostCurve.evaluate_knot {knot : CurveKnot} (h : knot ∈ c.knots) :
    c.evaluate knot.axisValue = .ok knot.seconds.value := by
  have hon := c.knot_onCurve h
  obtain ⟨i, hi, rfl⟩ := List.getElem_of_mem h
  obtain ⟨hmin, hmax⟩ := c.knot_inside hi
  exact c.evaluate_iff.mpr ⟨⟨Int.cast_le.mpr hmin, Int.cast_le.mpr hmax⟩, hon⟩

theorem PiecewiseLinearCostCurve.evaluate_between {i : Nat} (hi : i + 1 < c.knots.length)
    (hlo : c.knots[i].axisValue < a) (hhi : a < c.knots[i + 1].axisValue) :
    ∃ v, c.evaluate a = .ok v ∧ min c.knots[i].seconds.value c.knots[i + 1].seconds.value ≤ v ∧
      v ≤ max c.knots[i].seconds.value c.knots[i + 1].seconds.value := by
  have hmin : (c.minimumAxis : ℚ) ≤ a :=
    (Int.cast_le.mpr (c.knot_inside (Nat.lt_of_succ_lt hi)).1).trans hlo.le
  have hmax : a ≤ c.maximumAxis := hhi.le.trans (Int.cast_le.mpr (c.knot_inside hi).2)
  have hsegment := hlo.trans hhi
  have hbelow := min_le_interpolated (p := ((c.knots[i].axisValue : ℚ), c.knots[i].seconds.value))
    (q := ((c.knots[i + 1].axisValue : ℚ), c.knots[i + 1].seconds.value)) hsegment hlo.le hhi.le
  have habove := interpolated_le_max (p := ((c.knots[i].axisValue : ℚ), c.knots[i].seconds.value))
    (q := ((c.knots[i + 1].axisValue : ℚ), c.knots[i + 1].seconds.value)) hsegment hlo.le hhi.le
  refine ⟨_, c.evaluate_iff.mpr ⟨⟨hmin, hmax⟩, i, ?_, ?_, ?_, rfl⟩, ?_, ?_⟩
  · rwa [length_points]
  · simp only [points, List.getElem_map]
    exact hlo.le
  · simp only [points, List.getElem_map]
    exact hhi.le
  · simp only [points, List.getElem_map]
    exact hbelow
  · simp only [points, List.getElem_map]
    exact habove

theorem PiecewiseLinearCostCurve.evaluate_mono_iff :
    (∀ a b v w, a ≤ b → c.evaluate a = .ok v → c.evaluate b = .ok w → v ≤ w) ↔
      (c.knots.map (·.seconds.value)).Pairwise (· ≤ ·) := by
  constructor
  · intro hmono
    rw [List.pairwise_map, List.pairwise_iff_getElem]
    intro i j hi hj hij
    have haxes := List.pairwise_iff_getElem.mp (List.pairwise_map.mp c.axes_lt) i j hi hj hij
    exact hmono _ _ _ _ (Int.cast_le.mpr haxes.le) (c.evaluate_knot (List.getElem_mem hi))
      (c.evaluate_knot (List.getElem_mem hj))
  · intro hvalues a b v w hab ha hb
    have hpoints : c.points.Pairwise fun p q => p.2 ≤ q.2 :=
      List.pairwise_map.mpr (List.pairwise_map.mp hvalues)
    exact (c.evaluate_iff.mp ha).2.mono c.points_ordered hpoints (c.evaluate_iff.mp hb).2 hab

/-- The curve is defined exactly on its domain, passes through its knots, stays between neighbours,
and is non-decreasing exactly when its knots are. -/
theorem PiecewiseLinearCostCurve.evaluate_curve (c : PiecewiseLinearCostCurve) :
    (∀ a : ℚ, c.minimumAxis ≤ a → a ≤ c.maximumAxis → ∃ v, c.evaluate a = .ok v) ∧
    (∀ knot ∈ c.knots, c.evaluate knot.axisValue = .ok knot.seconds.value) ∧
    (∀ (i : Nat) (h : i + 1 < c.knots.length) (a : ℚ), c.knots[i].axisValue < a →
      a < c.knots[i + 1].axisValue → ∃ v, c.evaluate a = .ok v ∧
        min c.knots[i].seconds.value c.knots[i + 1].seconds.value ≤ v ∧
        v ≤ max c.knots[i].seconds.value c.knots[i + 1].seconds.value) ∧
    ((∀ a b v w, a ≤ b → c.evaluate a = .ok v → c.evaluate b = .ok w → v ≤ w) ↔
      (c.knots.map (·.seconds.value)).Pairwise (· ≤ ·)) ∧
    ∀ a : ℚ, a < c.minimumAxis ∨ c.maximumAxis < a → ∃ text, c.evaluate a = .error (.valueError text) := by
  refine ⟨fun a hmin hmax => (c.evaluate_inside hmin hmax).imp fun _ h => h.1, fun _ => c.evaluate_knot,
    fun i hi a hlo hhi => c.evaluate_between hi hlo hhi, c.evaluate_mono_iff, fun a => c.evaluate_outside⟩

end Evaluation

end Cadi.Curves
