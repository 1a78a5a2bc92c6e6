import Cadi.Experiments.Augmentation
import Cadi.Experiments.Normalized

namespace Cadi.Augmentation
open Library Fields Trace
set_option autoImplicit true

section Written

theorem requireProbability_float (p : Probability) (name : String) :
    requireProbability (.float p.1.toBinary64) name = .ok p := by
  rw [requireProbability, requireFinite_float, Except.ok_bind, ofBinary64_toBinary64]
  exact dif_pos p.2

theorem requirePositiveFinite_float (t : PositiveTime) (name : String) :
    requirePositiveFinite (.float t.1.toBinary64) name = .ok t := by
  rw [requirePositiveFinite, requireFinite_float, Except.ok_bind, ofBinary64_toBinary64]
  exact dif_pos t.2

theorem requireOptionalWait_doc (wait : Option PositiveTime) (name : String) :
    requireOptionalWait (waitDoc wait) name = .ok wait := by
  cases wait with
  | none => rfl
  | some t =>
    rw [waitDoc, requireOptionalWait, requirePositiveFinite_float]
    · rfl
    · exact fun h => nomatch h

theorem readFault_value (fault : FaultClass) : readFault (.str fault.value) = .ok fault := by
  cases fault <;> rfl

theorem readOptionalFault_doc (fault : Option FaultClass) :
    readOptionalFault (faultDoc fault) = .ok fault := by
  cases fault with
  | none => rfl
  | some fault =>
    rw [faultDoc, readOptionalFault, readFault_value]
    · rfl
    · exact fun h => nomatch h

theorem ContinuityAnnotation.new_fields (a : ContinuityAnnotation) :
    new (.str a.recordId.1) (.str a.sessionId.1) (.str a.continuationId.1)
      (optionalDoc a.parentContinuationId) (optionalDoc a.branchGroupId) (waitDoc a.toolWaitBeforeS)
      a.faultClass = .ok a := by
  rw [new, requireNonemptyString_str, Except.ok_bind, requireNonemptyString_str, Except.ok_bind,
    requireNonemptyString_str, Except.ok_bind, requireOptionalNonemptyString_doc, Except.ok_bind,
    requireOptionalNonemptyString_doc, Except.ok_bind, requireOptionalWait_doc, Except.ok_bind]
  rfl

theorem ContinuityAugmentationConfig.new_fields (c : ContinuityAugmentationConfig) :
    new (.int c.seed) (.int c.sessionLengthRecords.1) (.float c.toolWaitProbability.1.toBinary64)
      (c.toolWaitSeconds.map fun t => .float t.1.toBinary64) (.float c.branchProbability.1.toBinary64)
      (.int c.branchLookbackRecords) (.float c.faultProbability.1.toBinary64) c.faultClasses = .ok c := by
  have hlookback (name : String) : requirePositiveInt (.int c.branchLookbackRecords : Doc Binary64) name =
      .ok ⟨c.branchLookbackRecords, Nat.lt_of_lt_of_le Nat.two_pos c.lookback_ge⟩ :=
    requirePositiveInt_nat ⟨c.branchLookbackRecords, Nat.lt_of_lt_of_le Nat.two_pos c.lookback_ge⟩ name
  rw [new, requireNonnegativeInt_nat, Except.ok_bind, requirePositiveInt_nat, Except.ok_bind,
    requireProbability_float, Except.ok_bind, requireProbability_float, Except.ok_bind,
    requireProbability_float, Except.ok_bind, requireEach_map requirePositiveFinite_float, Except.ok_bind,
    dif_pos c.waits_nodup, dif_pos c.waits_ne, hlookback, Except.ok_bind, dif_pos c.lookback_ge,
    dif_pos c.lookback_lt, dif_pos c.faults_nodup, dif_pos c.faults_ne]
  rfl

end Written

section Documents

theorem waitDoc_sorted (wait : Option PositiveTime) : (waitDoc wait).sorted = waitDoc wait := by
  cases wait <;> rfl

theorem faultDoc_sorted (fault : Option FaultClass) : (faultDoc fault).sorted = faultDoc fault := by
  cases fault <;> rfl

theorem ContinuityAnnotation.fromDict_sorted (a : ContinuityAnnotation) :
    fromDict (Doc.obj a.toDict).sorted = .ok a := by
  have hnodup : (a.toDict.map Prod.fst).Nodup := (by decide : annotationKeys.Nodup)
  have hkeys (k : String) : k ∈ a.toDict.map Prod.fst ↔ k ∈ annotationKeys := Iff.rfl
  have hfield {key : String} {d : Doc Binary64} (i : Nat) (h : a.toDict[i]? = some (key, d)) :=
    fieldOf_sorted hnodup i h
  rw [fromDict, Doc.sorted, requireMapping, Except.ok_bind, requireExactKeys_sorted hkeys, Except.ok_bind,
    hfield 6 rfl, Except.ok_bind, faultDoc_sorted, readOptionalFault_doc, Except.ok_bind, hfield 0 rfl,
    Except.ok_bind, hfield 1 rfl, Except.ok_bind, hfield 2 rfl, Except.ok_bind, hfield 3 rfl,
    Except.ok_bind, hfield 4 rfl, Except.ok_bind, hfield 5 rfl, Except.ok_bind, optionalDoc_sorted,
    optionalDoc_sorted, waitDoc_sorted]
  exact a.new_fields

theorem ContinuityAugmentationConfig.fromDict_sorted (c : ContinuityAugmentationConfig) :
    fromDict (Doc.obj c.toDict).sorted = .ok c := by
  have hnodup : (c.toDict.map Prod.fst).Nodup := (by decide : configKeys.Nodup)
  have hkeys (k : String) : k ∈ c.toDict.map Prod.fst ↔ k ∈ configKeys := Iff.rfl
  have hfield {key : String} {d : Doc Binary64} (i : Nat) (h : c.toDict[i]? = some (key, d)) :=
    fieldOf_sorted hnodup i h
  have hlist (l : List (Doc Binary64)) (name : String) : requireList (.arr l) name = .ok l := rfl
  have hfaults : (c.faultClasses.map fun fault => Doc.str fault.value).mapM readFault =
      .ok c.faultClasses :=
    mapM_written readFault_value _
  rw [fromDict, Doc.sorted, requireMapping, Except.ok_bind, requireExactKeys_sorted hkeys, Except.ok_bind,
    hfield 3 rfl, Except.ok_bind, arr_sorted fun _ => rfl, hlist, Except.ok_bind, hfield 7 rfl,
    Except.ok_bind, arr_sorted fun _ => rfl, hlist, Except.ok_bind, hfaults, Except.ok_bind, hfield 0 rfl,
    Except.ok_bind, hfield 1 rfl, Except.ok_bind, hfield 2 rfl, Except.ok_bind, hfield 4 rfl,
    Except.ok_bind, hfield 5 rfl, Except.ok_bind, hfield 6 rfl, Except.ok_bind]
  exact c.new_fields

theorem waitDoc_writable (wait : Option PositiveTime) : (waitDoc wait).Writable FiniteFloat := by
  cases wait with
  | none => exact .null
  | some t => exact .float rfl

theorem faultDoc_writable (fault : Option FaultClass) : (faultDoc fault).Writable FiniteFloat := by
  cases fault with
  | none => exact .null
  | some fault => exact .str fault.value

theorem ContinuityAnnotation.writable (a : ContinuityAnnotation) :
    (Doc.obj a.toDict).Writable FiniteFloat := by
  refine .obj (by decide : annotationKeys.Nodup) ?_
  simp only [toDict, List.forall_mem_cons]
  exact ⟨.str _, .str _, .str _, optionalDoc_writable _, optionalDoc_writable _, waitDoc_writable _,
    faultDoc_writable _, fun m hm => absurd hm List.not_mem_nil⟩

theorem ContinuityAugmentationConfig.writable (c : ContinuityAugmentationConfig) :
    (Doc.obj c.toDict).Writable FiniteFloat := by
  have hwait (t : PositiveTime) : (Doc.float t.1.toBinary64).Writable FiniteFloat := .float rfl
  refine .obj (by decide : configKeys.Nodup) ?_
  simp only [toDict, List.forall_mem_cons]
  exact ⟨.int _, .int _, .float rfl, arr_writable hwait _, .float rfl, .int _, .float rfl,
    arr_writable (fun _ => .str _) _, fun m hm => absurd hm List.not_mem_nil⟩

theorem ContinuityAugmentationDataset.writable (d : ContinuityAugmentationDataset) :
    (Doc.obj d.toDict).Writable FiniteFloat := by
  refine .obj (by decide : datasetKeys.Nodup) ?_
  simp only [toDict, List.forall_mem_cons]
  exact ⟨.str _, .str _, .str _, .str _, d.config.writable, arr_writable ContinuityAnnotation.writable _,
    fun m hm => absurd hm List.not_mem_nil⟩

theorem ContinuityAugmentationDataset.postInit_ok {d d' : ContinuityAugmentationDataset} :
    d.postInit = .ok d' ↔ (d.augmentationVersion = continuityAugmentationVersion ∧ d.annotations ≠ [] ∧
      (d.annotations.map (·.recordId)).Nodup ∧ (d.annotations.map (·.continuationId)).Nodup ∧
      ∃ w, d.annotations.foldlM (checkEntry d.config) {} = .ok w) ∧ d = d' := by
  have hprovenance : d.provenance = .synthetic := by
    cases d.provenance
    rfl
  simp only [postInit, Except.bind_eq_ok, raiseIf_eq_ok, hprovenance, not_not, ne_eq, true_and, and_assoc,
    Except.pure_eq_ok, exists_and_right, exists_const]

variable (codec : Codec Binary64 FiniteFloat)

theorem ContinuityAugmentationDataset.fromJson_toJson {d : ContinuityAugmentationDataset}
    (h : d.postInit = .ok d) : fromJson codec (d.toJson codec) = .ok d := by
  obtain ⟨⟨hversion, -⟩, -⟩ := postInit_ok.mp h
  have hprovenance : d.provenance = .synthetic := by
    cases d.provenance
    rfl
  have hdataset : (⟨d.sourceDatasetFingerprint, d.config, d.annotations, .synthetic,
      continuityAugmentationVersion⟩ : ContinuityAugmentationDataset) = d := by
    rw [← hversion, ← hprovenance]
  have hnodup : (d.toDict.map Prod.fst).Nodup := (by decide : datasetKeys.Nodup)
  have hkeys (k : String) : k ∈ d.toDict.map Prod.fst ↔ k ∈ datasetKeys := Iff.rfl
  have hfield {key : String} {v : Doc Binary64} (i : Nat) (h : d.toDict[i]? = some (key, v)) :=
    fieldOf_sorted hnodup i h
  have hload : codec.loads (d.toJson codec) = some (.obj (sortedBy Prod.fst (docMembers d.toDict))) :=
    codec.loads_dumps _ d.writable
  have hlist (l : List (Doc Binary64)) (name : String) : requireList (.arr l) name = .ok l := rfl
  have hleaf (s : String) : (Doc.str s : Doc Binary64).sorted = .str s := rfl
  have harr (l : List (Doc Binary64)) : (Doc.arr l).sorted = .arr (docItems l) := rfl
  rw [fromJson, hload]
  dsimp only
  rw [requireMapping, Except.ok_bind, requireExactKeys_sorted hkeys, Except.ok_bind, hfield 0 rfl,
    Except.ok_bind, hleaf, requireText_str, Except.ok_bind, hfield 1 rfl, Except.ok_bind, hleaf, hversion,
    requireText_str, Except.ok_bind, hfield 2 rfl, Except.ok_bind, hleaf, hprovenance, requireText_str,
    Except.ok_bind, hfield 5 rfl, Except.ok_bind, harr, hlist, Except.ok_bind, hfield 4 rfl,
    Except.ok_bind, ContinuityAugmentationConfig.fromDict_sorted, Except.ok_bind,
    mapM_docItems ContinuityAnnotation.fromDict_sorted, Except.ok_bind, hfield 3 rfl, Except.ok_bind,
    hleaf, requireSha256_str, Except.ok_bind, hdataset]
  exact h

end Documents

end Cadi.Augmentation
