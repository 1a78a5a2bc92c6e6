import Cadi.Calibration.Projection
import Cadi.Calibration.Split
import Cadi.Library.Agreement

namespace Cadi.Calibration
open Library
set_option autoImplicit true

section Digests

/-- The builtins with another digest. -/
def Builtins.digesting (b : Builtins) (sha256 : String → String) : Builtins := { b with sha256 }

/-- The point without the name of its derivation. -/
def CalibrationReferencePoint.anonymous (q : CalibrationReferencePoint) : CalibrationReferencePoint :=
  { q with derivationId := "-", derivationId_nonblank := by decide }

def ProjectionReference.anonymous (r : ProjectionReference) : ProjectionReference :=
  { r with point := r.point.anonymous }

variable {b : Builtins} {sha256 : String → String}

theorem newPoint_anonymous (hname : isBlank derivationId' = false) :
    Agrees (fun q q' => q.anonymous = q'.anonymous)
      (CalibrationReferencePoint.new pointId hardwareId kind axis seconds derivationId commit artifacts)
      (CalibrationReferencePoint.new pointId hardwareId kind axis seconds derivationId' commit
        artifacts) := by
  intro q hq
  unfold CalibrationReferencePoint.new at hq ⊢
  split_ifs at hq with h₁ h₂ h₃ h₄ h₅ h₆ h₇
  rw [dif_pos h₁, dif_pos h₂, dif_pos h₃, dif_pos h₄, dif_pos hname, dif_pos h₆, dif_pos h₇,
    ← Except.ok.inj hq]
  exact ⟨_, rfl, rfl⟩

theorem derivationIdOf_named (h : derivationIdOf b hardwareId kind axis mlp attention transfer = .ok d) :
    isBlank d = false := by
  obtain ⟨_, _, h⟩ := Except.bind_eq_ok.mp h
  obtain ⟨_, _, h⟩ := Except.bind_eq_ok.mp h
  obtain ⟨_, _, h⟩ := Except.bind_eq_ok.mp h
  rw [Except.pure_eq_ok] at h
  have hlabel : "vidur-c6.3b-v1:".toList.all isWhitespace = false := by decide
  rw [← h, isBlank, String.toList_append, List.all_append, hlabel, Bool.false_and]

theorem derivationIdOf_digesting :
    Agrees (fun _ d => isBlank d = false) (derivationIdOf b hardwareId kind axis mlp attention transfer)
      (derivationIdOf (b.digesting sha256) hardwareId kind axis mlp attention transfer) := by
  have hboth : Agrees (fun _ _ => True) (derivationIdOf b hardwareId kind axis mlp attention transfer)
      (derivationIdOf (b.digesting sha256) hardwareId kind axis mlp attention transfer) := by
    unfold derivationIdOf
    exact .bind_same fun _ _ => .bind_same fun _ _ => .bind_same fun _ _ => .pure trivial
  intro d hd
  obtain ⟨d', hd', _⟩ := hboth d hd
  exact ⟨d', hd', derivationIdOf_named hd'⟩

theorem postInit_anonymous {r r' : ProjectionReference} (h : r.anonymous = r'.anonymous) :
    Agrees (fun r r' => r.anonymous = r'.anonymous) r.postInit r'.postInit := by
  have hkind : r'.point.kind = r.point.kind := congrArg (·.point.kind) h.symm
  have htransfer : r'.transferReplicates = r.transferReplicates := congrArg (·.transferReplicates) h.symm
  have hmlp : r'.mlpReplicates = r.mlpReplicates := congrArg (·.mlpReplicates) h.symm
  have hattention : r'.attentionReplicates = r.attentionReplicates :=
    congrArg (·.attentionReplicates) h.symm
  unfold ProjectionReference.postInit
  rw [hkind, htransfer, hmlp, hattention]
  split
  · exact .bind_same fun _ _ => .pure h
  · exact .bind_same fun _ _ => .bind_same fun _ _ => .pure h

theorem groupByInt_digesting (rows : List CsvRow) (groups : Dict Int (List CsvRow)) :
    groupByInt (b.digesting sha256) column groups rows = groupByInt b column groups rows := by
  induction rows generalizing groups with
  | nil => rfl
  | cons row rows ih =>
    simp only [groupByInt, ih]
    rfl

theorem computeAt_digesting : Agrees (fun r r' => r.anonymous = r'.anonymous)
    (computeAt b hardwareId kind axis mlp attention target artifacts)
    (computeAt (b.digesting sha256) hardwareId kind axis mlp attention target artifacts) := by
  refine .bind_same (x := composeComponents b mlp attention target) fun components _ => ?_
  refine derivationIdOf_digesting.bind fun _ _ _ hname => ?_
  refine (newPoint_anonymous hname).bind fun q q' _ hq => postInit_anonymous ?_
  unfold ProjectionReference.anonymous
  simp only [hq]

theorem transferReference_digesting : Agrees (fun r r' => r.anonymous = r'.anonymous)
    (transferReference b hardwareId axis transfer artifacts)
    (transferReference (b.digesting sha256) hardwareId axis transfer artifacts) := by
  refine .bind_same (x := columnMean b "time_stats.send_recv.median" transfer) fun components _ => ?_
  refine derivationIdOf_digesting.bind fun _ _ _ hname => ?_
  refine (newPoint_anonymous hname).bind fun q q' _ hq => postInit_anonymous ?_
  unfold ProjectionReference.anonymous
  simp only [hq]

theorem Family.anonymous_iff {points : List CalibrationReferencePoint} :
    Family (points.map CalibrationReferencePoint.anonymous) ↔ Family points := by
  constructor
  · intro h
    have hlength := h.length
    have hhw := h.hardwareId
    have hkind := h.kind
    have hid := h.pointId
    have haxis := h.axisValue
    rw [List.length_map] at hlength
    rw [List.map_map] at hhw hkind hid haxis
    exact ⟨hlength, hhw, hkind, hid, haxis⟩
  · exact fun h => h.map (fun _ => rfl) (fun _ => rfl) (fun _ => rfl) fun _ => rfl

theorem sortedReferences_anonymous (rs : List ProjectionReference) :
    (sortedBy (fun r => toLex (r.point.kind.index, toLex (r.point.axisValue, r.point.pointId))) rs).map
        ProjectionReference.anonymous =
      sortedBy (fun r => toLex (r.point.kind.index, toLex (r.point.axisValue, r.point.pointId)))
        (rs.map ProjectionReference.anonymous) :=
  List.map_insertionSort _ _ _ rs fun _ _ _ _ => Iff.rfl

theorem family_anonymous (rs : List ProjectionReference) (kind : ReferenceKind) :
    Family ((rs.map ProjectionReference.point).filter (·.kind = kind)) ↔
      Family (((rs.map ProjectionReference.anonymous).map ProjectionReference.point).filter
        (·.kind = kind)) := by
  rw [← Family.anonymous_iff]
  have hmap : (rs.map ProjectionReference.anonymous).map ProjectionReference.point =
      (rs.map ProjectionReference.point).map CalibrationReferencePoint.anonymous := by
    rw [List.map_map, List.map_map]
    rfl
  rw [hmap, List.filter_map (f := CalibrationReferencePoint.anonymous)]
  rfl

theorem canonicalReferences_eq_ok : canonicalReferences rs = .ok sorted ↔
    (∀ kind ∈ referenceKinds, Family ((sorted.map ProjectionReference.point).filter (·.kind = kind))) ∧
      sortedBy (fun r => toLex (r.point.kind.index, toLex (r.point.axisValue, r.point.pointId))) rs =
        sorted := by
  have hsplit (points : List CalibrationReferencePoint) :
      discard (splitReferenceFamily points) = .ok () ↔ Family points := by
    constructor
    · intro h
      obtain ⟨p, hp, _⟩ := Except.map_eq_ok.mp h
      exact (splitReferenceFamily_eq_ok.mp hp).1
    · intro h
      obtain ⟨p, hp⟩ := splitReferenceFamily_total h
      rw [hp]
      rfl
  unfold canonicalReferences
  simp only [Except.then_eq_ok, Except.forM_eq_ok, Except.pure_eq_ok, hsplit]
  constructor
  · rintro ⟨h, rfl⟩
    exact ⟨h, rfl⟩
  · rintro ⟨h, rfl⟩
    exact ⟨h, rfl⟩

theorem canonicalReferences_anonymous
    (h : rs.map ProjectionReference.anonymous = rs'.map ProjectionReference.anonymous) :
    Agrees (fun rs rs' => rs.map ProjectionReference.anonymous = rs'.map ProjectionReference.anonymous)
      (canonicalReferences rs) (canonicalReferences rs') := by
  intro sorted hsorted
  obtain ⟨hfamilies, rfl⟩ := canonicalReferences_eq_ok.mp hsorted
  have hsame := (sortedReferences_anonymous rs).trans
    ((congrArg _ h).trans (sortedReferences_anonymous rs').symm)
  refine ⟨_, canonicalReferences_eq_ok.mpr ⟨fun kind hkind => ?_, rfl⟩, hsame⟩
  rw [family_anonymous, ← hsame, ← family_anonymous]
  exact hfamilies kind hkind

theorem mapM_anonymous {f f' : α → Except PyError ProjectionReference} {l : List α}
    (h : ∀ a ∈ l, Agrees (fun r r' => r.anonymous = r'.anonymous) (f a) (f' a)) :
    Agrees (fun rs rs' => rs.map ProjectionReference.anonymous = rs'.map ProjectionReference.anonymous)
      (l.mapM f) (l.mapM f') :=
  (Agrees.mapM h).mono fun rs rs' hall => by
    rw [← List.forall₂_eq_eq_eq, List.forall₂_map_left_iff, List.forall₂_map_right_iff]
    exact hall

/-- Another digest changes nothing but the names of the derivations. -/
theorem deriveFromRows_digesting (sha256 : String → String) : Agrees
    (fun rs rs' => rs.map ProjectionReference.anonymous = rs'.map ProjectionReference.anonymous)
    (deriveFromRows b hardwareId attention mlp transfer)
    (deriveFromRows (b.digesting sha256) hardwareId attention mlp transfer) := by
  unfold deriveFromRows
  simp only [groupByInt_digesting]
  refine .bind_same fun mlpDomain _ => .bind_same fun attentionDomain _ => .bind_same fun coldRows _ =>
    .bind_same fun decodeRows _ => .bind_same fun transferRows _ => .bind_same fun _ _ =>
    .bind_same fun mlpByTokens _ => .bind_same fun coldByAxis _ => .bind_same fun decodeByAxis _ =>
    .bind_same fun transferByAxis _ => .bind_same fun _ _ => .bind_same fun computeArtifacts _ =>
    .bind_same fun transferArtifacts _ => ?_
  refine (mapM_anonymous fun axis _ => .bind_same fun _ _ => computeAt_digesting).bind
    fun cold cold' _ hcold => ?_
  refine (mapM_anonymous fun axis _ => computeAt_digesting).bind fun decode decode' _ hdecode => ?_
  refine (mapM_anonymous fun axis _ => transferReference_digesting).bind
    fun transfer transfer' _ htransfer => ?_
  apply canonicalReferences_anonymous
  rw [List.map_append, List.map_append, List.map_append, List.map_append, hcold, hdecode, htransfer]

end Digests
end Cadi.Calibration
