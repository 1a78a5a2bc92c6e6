import Cadi.Calibration.Reference

namespace Cadi.Calibration
open Library
set_option autoImplicit true

section Alternation
variable {l : List α}

/-- Moving the positions by one exchanges the two parities. -/
theorem filter_zipIdx_succ (l : List α) (k : Nat) {r s : Nat} (hrs : r < 2) (hsum : r + s = 1) :
    ((l.zipIdx (k + 1)).filter (·.2 % 2 = r)).map Prod.fst =
      ((l.zipIdx k).filter (·.2 % 2 = s)).map Prod.fst := by
  induction l generalizing k with
  | nil => rfl
  | cons a l ih =>
    have hparity : ((k + 1) % 2 = r) = (k % 2 = s) := by
      apply propext
      omega
    simp only [List.zipIdx_cons, List.filter_cons, hparity]
    split
    · rw [List.map_cons, List.map_cons, ih]
    · exact ih (k + 1)

@[simp] theorem evens_cons (a : α) (l : List α) : evens (a :: l) = a :: odds l := by
  rw [evens, List.zipIdx_cons, List.filter_cons_of_pos (by rfl), List.map_cons,
    filter_zipIdx_succ l 0 Nat.zero_lt_two (Nat.zero_add 1), odds]

@[simp] theorem odds_cons (a : α) (l : List α) : odds (a :: l) = evens l := by
  rw [odds, List.zipIdx_cons, List.filter_cons_of_neg (by simp),
    filter_zipIdx_succ l 0 Nat.one_lt_two (Nat.add_zero 1), evens]

@[simp] theorem evens_nil : evens ([] : List α) = [] := rfl

@[simp] theorem odds_nil : odds ([] : List α) = [] := rfl

theorem perm_alternation (l : List α) : (evens l ++ odds l).Perm l := by
  induction l with
  | nil => exact .nil
  | cons a l ih =>
    rw [evens_cons, odds_cons, List.cons_append]
    exact (List.perm_append_comm.trans ih).cons a

theorem length_alternation (l : List α) :
    (odds l).length ≤ (evens l).length ∧ (evens l).length ≤ (odds l).length + 1 := by
  induction l with
  | nil => exact ⟨Nat.le_refl 0, Nat.le_succ 0⟩
  | cons a l ih =>
    rw [evens_cons, odds_cons, List.length_cons]
    omega

theorem map_alternation (g : α → β) (l : List α) :
    evens (l.map g) = (evens l).map g ∧ odds (l.map g) = (odds l).map g := by
  induction l with
  | nil => exact ⟨rfl, rfl⟩
  | cons a l ih =>
    simp only [List.map_cons, evens_cons, odds_cons, ih, and_self]

end Alternation

section Families

/-- What the split checks of a list of points. -/
structure Family (points : List CalibrationReferencePoint) : Prop where
  length : c6MinFitPoints + c6MinValidationPoints ≤ points.length
  hardwareId : (points.map CalibrationReferencePoint.hardwareId).dedup.length = 1
  kind : (points.map CalibrationReferencePoint.kind).dedup.length = 1
  pointId : (points.map CalibrationReferencePoint.pointId).Nodup
  axisValue : (points.map CalibrationReferencePoint.axisValue).Nodup

variable {points points' : List CalibrationReferencePoint}

theorem perm_orderedPoints (points : List CalibrationReferencePoint) :
    (orderedPoints points).Perm points := perm_sortedBy _ points

theorem orderedPoints_perm (haxis : (points.map CalibrationReferencePoint.axisValue).Nodup)
    (hperm : points.Perm points') : orderedPoints points = orderedPoints points' := by
  apply sortedBy_perm _ hperm
  intro a ha b hb hkey
  exact List.inj_on_of_nodup_map haxis ha hb (Prod.mk.inj (toLex.injective hkey)).1

theorem Family.perm (h : Family points) (hperm : points.Perm points') : Family points' where
  length := hperm.length_eq ▸ h.length
  hardwareId := (hperm.map CalibrationReferencePoint.hardwareId).dedup.length_eq ▸ h.hardwareId
  kind := (hperm.map CalibrationReferencePoint.kind).dedup.length_eq ▸ h.kind
  pointId := (hperm.map _).nodup_iff.mp h.pointId
  axisValue := (hperm.map _).nodup_iff.mp h.axisValue

theorem Family.map {g : CalibrationReferencePoint → CalibrationReferencePoint} (h : Family points)
    (hid : ∀ q, (g q).pointId = q.pointId) (hhw : ∀ q, (g q).hardwareId = q.hardwareId)
    (hkind : ∀ q, (g q).kind = q.kind) (haxis : ∀ q, (g q).axisValue = q.axisValue) :
    Family (points.map g) where
  length := by
    rw [List.length_map]
    exact h.length
  hardwareId := by
    have hsame : CalibrationReferencePoint.hardwareId ∘ g = CalibrationReferencePoint.hardwareId :=
      funext hhw
    rw [List.map_map, hsame]
    exact h.hardwareId
  kind := by
    have hsame : CalibrationReferencePoint.kind ∘ g = CalibrationReferencePoint.kind := funext hkind
    rw [List.map_map, hsame]
    exact h.kind
  pointId := by
    have hsame : CalibrationReferencePoint.pointId ∘ g = CalibrationReferencePoint.pointId :=
      funext hid
    rw [List.map_map, hsame]
    exact h.pointId
  axisValue := by
    have hsame : CalibrationReferencePoint.axisValue ∘ g = CalibrationReferencePoint.axisValue :=
      funext haxis
    rw [List.map_map, hsame]
    exact h.axisValue

theorem map_orderedPoints {g : CalibrationReferencePoint → CalibrationReferencePoint}
    (hid : ∀ q, (g q).pointId = q.pointId) (haxis : ∀ q, (g q).axisValue = q.axisValue) :
    orderedPoints (points.map g) = (orderedPoints points).map g := by
  refine (List.map_insertionSort _ _ g points fun a _ b _ => ?_).symm
  simp only [hid, haxis]

theorem eq_of_one_value [DecidableEq β] {l : List α} {f : α → β} (h : (l.map f).dedup.length = 1)
    (ha : a ∈ l) (hb : b ∈ l) : f a = f b := by
  obtain ⟨v, hv⟩ := List.length_eq_one_iff.mp h
  have hall : ∀ c ∈ l, f c = v := by
    intro c hc
    have hmem := List.mem_dedup.mpr (List.mem_map_of_mem (f := f) hc)
    rwa [hv, List.mem_singleton] at hmem
  rw [hall a ha, hall b hb]

theorem Family.postInit (h : Family points) (hfirst : first ∈ points) :
    ReferencePartition.postInit ⟨first.hardwareId, first.kind, evens (orderedPoints points),
      odds (orderedPoints points)⟩ = .ok ⟨first.hardwareId, first.kind, evens (orderedPoints points),
        odds (orderedPoints points)⟩ := by
  have hordered := perm_orderedPoints points
  have hperm := (perm_alternation (orderedPoints points)).trans hordered
  have hlength := length_alternation (orderedPoints points)
  have hsum := hperm.length_eq
  rw [List.length_append] at hsum
  have hfour := h.length
  simp only [c6MinFitPoints, c6MinValidationPoints] at hfour
  have hcanonical : orderedPoints (evens (orderedPoints points) ++ odds (orderedPoints points)) =
      orderedPoints points := (orderedPoints_perm h.axisValue hperm.symm).symm
  simp only [ReferencePartition.postInit, Except.bind_eq_ok, raiseIf_eq_ok, Except.pure_eq_ok,
    exists_const, hcanonical]
  have hsizes : 2 ≤ (evens (orderedPoints points)).length ∧ 2 ≤ (odds (orderedPoints points)).length := by
    omega
  refine ⟨not_not.mpr first.hardware_mem, not_lt.mpr hsizes.1, not_lt.mpr hsizes.2, ?_, not_not.mpr ?_,
    not_not.mpr ?_, not_or.mpr ⟨not_not.mpr rfl, not_not.mpr rfl⟩, trivial⟩
  · rintro ⟨q, hq, hne | hne⟩
    · exact hne (eq_of_one_value h.hardwareId (hperm.mem_iff.mp hq) hfirst)
    · exact hne (eq_of_one_value h.kind (hperm.mem_iff.mp hq) hfirst)
  · exact (hperm.map _).nodup_iff.mpr h.pointId
  · exact (hperm.map _).nodup_iff.mpr h.axisValue

theorem splitReferenceFamily_eq_ok : splitReferenceFamily points = .ok p ↔ Family points ∧
    ∃ first rest, orderedPoints points = first :: rest ∧
      p = ⟨first.hardwareId, first.kind, evens (first :: rest), odds (first :: rest)⟩ := by
  unfold splitReferenceFamily
  simp only [Except.bind_eq_ok, raiseIf_eq_ok, exists_const, not_or, not_not, not_lt]
  constructor
  · intro hall
    obtain ⟨hlength, ⟨hhw, hkind⟩, hid, haxis, h⟩ := hall
    have hfamily : Family points := ⟨hlength, hhw, hkind, hid, haxis⟩
    refine ⟨hfamily, ?_⟩
    cases hordered : orderedPoints points with
    | nil =>
      rw [hordered] at h
      cases h
    | cons first rest =>
      have hfirst : first ∈ points := (perm_orderedPoints points).mem_iff.mp (by simp [hordered])
      have hpost := hfamily.postInit hfirst
      rw [hordered] at h hpost
      exact ⟨first, rest, rfl, (Except.ok.inj (hpost.symm.trans h)).symm⟩
  · intro hall
    obtain ⟨h, first, rest, hordered, hp⟩ := hall
    refine ⟨h.length, ⟨h.hardwareId, h.kind⟩, h.pointId, h.axisValue, ?_⟩
    have hfirst : first ∈ points := (perm_orderedPoints points).mem_iff.mp (by simp [hordered])
    have hpost := h.postInit hfirst
    rw [hordered] at hpost ⊢
    rw [hp]
    exact hpost

theorem splitReferenceFamily_total (h : Family points) :
    ∃ p, splitReferenceFamily points = .ok p := by
  cases hordered : orderedPoints points with
  | nil =>
    have hlength := h.length
    rw [← (perm_orderedPoints points).length_eq, hordered] at hlength
    exact absurd hlength (by decide)
  | cons first rest => exact ⟨_, splitReferenceFamily_eq_ok.mpr ⟨h, first, rest, hordered, rfl⟩⟩

/-- The split sees the points only as a set. -/
theorem splitReferenceFamily_perm (h : splitReferenceFamily points = .ok p)
    (hperm : points.Perm points') : splitReferenceFamily points' = .ok p := by
  obtain ⟨hfamily, first, rest, hordered, hp⟩ := splitReferenceFamily_eq_ok.mp h
  rw [orderedPoints_perm hfamily.axisValue hperm] at hordered
  exact splitReferenceFamily_eq_ok.mpr ⟨hfamily.perm hperm, first, rest, hordered, hp⟩

/-- The point with another observation. -/
def CalibrationReferencePoint.observing (q : CalibrationReferencePoint) (v : {v : ℚ // 0 ≤ v}) :
    CalibrationReferencePoint := { q with observedSeconds := v.1, observed_nonneg := v.2 }

/-- Other observations for the held-out points. -/
def reobserve (held : List CalibrationReferencePoint)
    (observation : CalibrationReferencePoint → {v : ℚ // 0 ≤ v}) (q : CalibrationReferencePoint) :
    CalibrationReferencePoint := if q ∈ held then q.observing (observation q) else q

section Held
variable (held : List CalibrationReferencePoint)
  (observation : CalibrationReferencePoint → {v : ℚ // 0 ≤ v}) (q : CalibrationReferencePoint)

@[simp] theorem reobserve_pointId : (reobserve held observation q).pointId = q.pointId := by
  unfold reobserve
  split <;> rfl

@[simp] theorem reobserve_hardwareId : (reobserve held observation q).hardwareId = q.hardwareId := by
  unfold reobserve
  split <;> rfl

@[simp] theorem reobserve_kind : (reobserve held observation q).kind = q.kind := by
  unfold reobserve
  split <;> rfl

@[simp] theorem reobserve_axisValue : (reobserve held observation q).axisValue = q.axisValue := by
  unfold reobserve
  split <;> rfl

end Held

/-- Other observations of the held-out points leave the FIT points as they are. -/
theorem splitReferenceFamily_reobserve (h : splitReferenceFamily points = .ok p)
    (observation : CalibrationReferencePoint → {v : ℚ // 0 ≤ v}) :
    splitReferenceFamily (points.map (reobserve p.validation observation)) =
      .ok { p with validation := p.validation.map (reobserve p.validation observation) } := by
  obtain ⟨hfamily, first, rest, hordered, hp⟩ := splitReferenceFamily_eq_ok.mp h
  have hmap : orderedPoints (points.map (reobserve p.validation observation)) =
      (orderedPoints points).map (reobserve p.validation observation) :=
    map_orderedPoints (reobserve_pointId _ _) (reobserve_axisValue _ _)
  have hfit : (evens (first :: rest)).map (reobserve p.validation observation) = evens (first :: rest) := by
    have hperm := (perm_alternation (orderedPoints points)).trans (perm_orderedPoints points)
    have hnodup := hperm.nodup_iff.mpr (hfamily.axisValue.of_map _)
    rw [hordered] at hnodup
    refine (List.map_congr_left fun q hq => ?_).trans (List.map_id _)
    refine if_neg fun hheld => ?_
    rw [hp] at hheld
    exact (List.nodup_append.mp hnodup).2.2 q hq q hheld rfl
  refine splitReferenceFamily_eq_ok.mpr ⟨hfamily.map (reobserve_pointId _ _) (reobserve_hardwareId _ _)
    (reobserve_kind _ _) (reobserve_axisValue _ _), reobserve p.validation observation first,
    rest.map (reobserve p.validation observation), by rw [hmap, hordered, List.map_cons], ?_⟩
  rw [← List.map_cons, (map_alternation _ _).1, (map_alternation _ _).2, hfit, reobserve_hardwareId,
    reobserve_kind]
  simp only [hp]

end Families

end Cadi.Calibration
