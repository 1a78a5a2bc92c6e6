import Cadi.Experiments.Trace

namespace Cadi.Trace
open Library Fields
set_option autoImplicit true

section Written

theorem ofBinary64_toBinary64 (t : Time) : Time.ofBinary64 t.toBinary64 = some t := by
  rw [Time.toBinary64, Time.ofBinary64, dif_pos t.signed]

theorem requireFinite_float (t : Time) (name : String) :
    requireFinite (.float t.toBinary64) name = .ok t.toBinary64 := rfl

theorem requireSha256_str (s : Sha256) (name : String) : requireSha256 (.str s.1) name = .ok s :=
  dif_pos s.2

theorem requireNonnegativeFinite_float (t : Time) (name : String) :
    requireNonnegativeFinite (.float t.toBinary64) name = .ok t := by
  rw [requireNonnegativeFinite, requireFinite_float, Except.ok_bind, ofBinary64_toBinary64]
  rfl

theorem requireOptionalNonnegativeInt_doc (n : Option Nat) (name : String) :
    requireOptionalNonnegativeInt (countDoc n) name = .ok n := by
  cases n with
  | none => rfl
  | some n =>
    rw [countDoc, requireOptionalNonnegativeInt, requireNonnegativeInt_nat]
    · rfl
    · exact fun h => nomatch h

theorem NormalizedTraceRecord.new_fields (r : NormalizedTraceRecord) :
    new (.str r.recordId.1) (.str r.sourceRecordId.1) (.int r.sourceOrdinal)
      (.float r.arrivalTimeS.toBinary64) (countDoc r.inputTokens) (countDoc r.outputTokens)
      (optionalDoc r.prefixGroupId) (countDoc r.prefixTokens) = .ok r := by
  rw [new, requireNonemptyString_str, Except.ok_bind, requireNonemptyString_str, Except.ok_bind,
    requireNonnegativeInt_nat, Except.ok_bind, requireNonnegativeFinite_float, Except.ok_bind,
    requireOptionalNonnegativeInt_doc, Except.ok_bind, requireOptionalNonnegativeInt_doc, Except.ok_bind,
    requireOptionalNonemptyString_doc, Except.ok_bind, requireOptionalNonnegativeInt_doc, Except.ok_bind,
    dif_pos r.prefix_le]
  rfl

theorem TraceField.value_injective {f g : TraceField} (h : f.value = g.value) : f = g := by
  revert h
  cases f <;> cases g <;> decide

theorem readOrigin_written (item : TraceField × TraceFieldOrigin) :
    readOrigin (item.1.value, .str item.2.value) = .ok item := by
  obtain ⟨field, origin⟩ := item
  cases field <;> cases origin <;> rfl

end Written

section Orders

theorem sortedBy_origins {origins origins' : List (TraceField × TraceFieldOrigin)}
    (hperm : origins.Perm origins') (hnodup : (origins.map Prod.fst).Nodup) :
    sortedBy (fun item => item.1.value) origins = sortedBy (fun item => item.1.value) origins' :=
  sortedBy_perm (fun _ ha _ hb h =>
    List.inj_on_of_nodup_map hnodup ha hb (TraceField.value_injective h)) hperm

variable {id name uri version license norm : NonemptyString} {sha : Sha256} {steps : List NonemptyString}

theorem TraceSourceManifest.ofTexts_perm {origins origins' : List (TraceField × TraceFieldOrigin)}
    (hperm : origins.Perm origins') {m : TraceSourceManifest}
    (h : ofTexts id name uri version license sha norm steps origins = .ok m) :
    ofTexts id name uri version license sha norm steps origins' = .ok m := by
  have hkeys := hperm.map Prod.fst
  have hfresh : ∀ field ∈ origins'.map Prod.fst, field ∉ ([] : List TraceField) := fun _ _ =>
    List.not_mem_nil
  rw [ofTexts] at h ⊢
  split at h
  next => cases h
  next hsteps =>
    split at h
    next => cases h
    next hne =>
      have hne' : origins' ≠ [] := fun hnil => hne (hnil ▸ hperm).eq_nil
      rw [dif_neg hsteps, if_neg hne']
      split at h
      next => cases h
      next hrepeated =>
        have hnodup := (repeated_eq_none.mp hrepeated).1
        have hrepeated' := repeated_eq_none.mpr ⟨hkeys.nodup_iff.mp hnodup, hfresh⟩
        split at h
        next harrival =>
          split
          next field hfield =>
            rw [hrepeated'] at hfield
            cases hfield
          next =>
            rw [dif_pos (hkeys.mem_iff.mp harrival), ← h]
            simp only [sortedBy_origins hperm hnodup]
        next => cases h

end Orders

section Documents

/-- The floats that the text of a document can hold. -/
abbrev FiniteFloat (x : Binary64) : Prop := x.isFinite = true

theorem countDoc_sorted (n : Option Nat) : (countDoc n).sorted = countDoc n := by
  cases n <;> rfl

theorem countDoc_writable (n : Option Nat) : (countDoc n).Writable FiniteFloat := by
  cases n with
  | none => exact .null
  | some n => exact .int n

theorem NormalizedTraceRecord.fromDict_sorted (r : NormalizedTraceRecord) :
    fromDict (Doc.obj r.toDict).sorted = .ok r := by
  have hnodup : (r.toDict.map Prod.fst).Nodup := (by decide : recordKeys.Nodup)
  have hkeys (k : String) : k ∈ r.toDict.map Prod.fst ↔ k ∈ recordKeys := Iff.rfl
  have hfield {key : String} {d : Doc Binary64} (i : Nat) (h : r.toDict[i]? = some (key, d)) :=
    fieldOf_sorted hnodup i h
  rw [fromDict, Doc.sorted, requireMapping, Except.ok_bind, requireExactKeys_sorted hkeys, Except.ok_bind,
    hfield 0 rfl, Except.ok_bind, hfield 1 rfl, Except.ok_bind, hfield 2 rfl, Except.ok_bind, hfield 3 rfl,
    Except.ok_bind, hfield 4 rfl, Except.ok_bind, hfield 5 rfl, Except.ok_bind, hfield 6 rfl,
    Except.ok_bind, hfield 7 rfl, Except.ok_bind, countDoc_sorted, countDoc_sorted, optionalDoc_sorted,
    countDoc_sorted]
  exact r.new_fields

theorem NormalizedTraceRecord.writable (r : NormalizedTraceRecord) :
    (Doc.obj r.toDict).Writable FiniteFloat := by
  refine .obj (by decide : recordKeys.Nodup) ?_
  simp only [toDict, List.forall_mem_cons]
  exact ⟨.str _, .str _, .int _, .float rfl, countDoc_writable _, countDoc_writable _,
    optionalDoc_writable _, countDoc_writable _, fun m hm => absurd hm List.not_mem_nil⟩

theorem TraceSourceManifest.origins_sorted (m : TraceSourceManifest) :
    (Doc.obj (originsDoc m.fieldOrigins)).sorted = .obj (originsDoc m.fieldOrigins) := by
  have hleaves : docMembers (originsDoc m.fieldOrigins) = originsDoc m.fieldOrigins := by
    rw [docMembers_eq, originsDoc, List.map_map]
    rfl
  have hordered : (originsDoc m.fieldOrigins).Pairwise fun p q => p.1 ≤ q.1 :=
    List.pairwise_map.mpr m.origins_ordered
  rw [Doc.sorted, hleaves, sortedBy]
  exact congrArg Doc.obj hordered.insertionSort_eq

theorem TraceSourceManifest.ofTexts_own (m : TraceSourceManifest) :
    ofTexts m.sourceId m.sourceName m.sourceUri m.sourceVersion m.licenseId m.sourceSha256
      m.normalizationVersion m.normalizationSteps m.fieldOrigins = .ok m := by
  have hfresh : ∀ field ∈ m.fieldOrigins.map Prod.fst, field ∉ ([] : List TraceField) := fun _ _ =>
    List.not_mem_nil
  have hne : m.fieldOrigins ≠ [] := by
    intro hnil
    have harrival := m.arrival_mem
    rw [hnil] at harrival
    exact absurd harrival List.not_mem_nil
  have hordered : sortedBy (fun item => item.1.value) m.fieldOrigins = m.fieldOrigins :=
    m.origins_ordered.insertionSort_eq
  rw [ofTexts, dif_neg m.steps_ne, if_neg hne]
  split
  next field hfield =>
    rw [repeated_eq_none.mpr ⟨m.origins_nodup, hfresh⟩] at hfield
    cases hfield
  next =>
    rw [dif_pos m.arrival_mem]
    simp only [hordered]

theorem TraceSourceManifest.new_fields (m : TraceSourceManifest) :
    new (.str m.sourceId.1) (.str m.sourceName.1) (.str m.sourceUri.1) (.str m.sourceVersion.1)
      (.str m.licenseId.1) (.str m.sourceSha256.1) (.str m.normalizationVersion.1)
      (m.normalizationSteps.map fun step => .str step.1) m.fieldOrigins = .ok m := by
  have hsteps : (m.normalizationSteps.map fun step => (.str step.1 : Doc Binary64)).mapM
      (requireNonemptyString · "normalization step") = .ok m.normalizationSteps :=
    mapM_written (fun step => requireNonemptyString_str step _) _
  rw [new, requireNonemptyString_str, Except.ok_bind, requireNonemptyString_str, Except.ok_bind,
    requireNonemptyString_str, Except.ok_bind, requireNonemptyString_str, Except.ok_bind,
    requireNonemptyString_str, Except.ok_bind, requireNonemptyString_str, Except.ok_bind,
    requireSha256_str, Except.ok_bind, hsteps, Except.ok_bind]
  exact m.ofTexts_own

theorem TraceSourceManifest.fromDict_sorted (m : TraceSourceManifest) :
    fromDict (Doc.obj m.toDict).sorted = .ok m := by
  have hnodup : (m.toDict.map Prod.fst).Nodup := (by decide : manifestKeys.Nodup)
  have hkeys (k : String) : k ∈ m.toDict.map Prod.fst ↔ k ∈ manifestKeys := Iff.rfl
  have hfield {key : String} {d : Doc Binary64} (i : Nat) (h : m.toDict[i]? = some (key, d)) :=
    fieldOf_sorted hnodup i h
  have hlist (l : List (Doc Binary64)) (name : String) : requireList (.arr l) name = .ok l := rfl
  have hmembers (l : List (String × Doc Binary64)) (name : String) : requireMapping (.obj l) name = .ok l :=
    rfl
  have horigins : (originsDoc m.fieldOrigins).mapM readOrigin = .ok m.fieldOrigins :=
    mapM_written readOrigin_written _
  rw [fromDict, Doc.sorted, hmembers, Except.ok_bind, requireExactKeys_sorted hkeys, Except.ok_bind,
    hfield 7 rfl, Except.ok_bind, arr_sorted fun _ => rfl, hlist, Except.ok_bind, hfield 8 rfl,
    Except.ok_bind, m.origins_sorted, hmembers, Except.ok_bind, horigins, Except.ok_bind, hfield 0 rfl,
    Except.ok_bind, hfield 1 rfl, Except.ok_bind, hfield 2 rfl, Except.ok_bind, hfield 3 rfl,
    Except.ok_bind, hfield 4 rfl, Except.ok_bind, hfield 5 rfl, Except.ok_bind, hfield 6 rfl,
    Except.ok_bind]
  exact m.new_fields

theorem TraceSourceManifest.writable (m : TraceSourceManifest) :
    (Doc.obj m.toDict).Writable FiniteFloat := by
  have horigins : (Doc.obj (originsDoc m.fieldOrigins)).Writable FiniteFloat := by
    refine .obj ?_ fun member hmember => ?_
    · have hkeys := m.origins_nodup.map fun _ _ h => TraceField.value_injective h
      rw [List.map_map] at hkeys
      rw [originsDoc, List.map_map]
      exact hkeys
    · obtain ⟨item, -, rfl⟩ := List.mem_map.mp hmember
      exact .str _
  refine .obj (by decide : manifestKeys.Nodup) ?_
  simp only [toDict, List.forall_mem_cons]
  exact ⟨.str _, .str _, .str _, .str _, .str _, .str _, .str _, arr_writable (fun _ => .str _) _, horigins,
    fun m hm => absurd hm List.not_mem_nil⟩

theorem NormalizedTraceDataset.writable (d : NormalizedTraceDataset) :
    (Doc.obj d.toDict).Writable FiniteFloat := by
  refine .obj (by decide : traceKeys.Nodup) ?_
  simp only [toDict, List.forall_mem_cons]
  exact ⟨.str _, d.manifest.writable, arr_writable NormalizedTraceRecord.writable _,
    fun m hm => absurd hm List.not_mem_nil⟩

end Documents

section Datasets

/-- What the constructor of a dataset accepts, and what it makes of it. -/
theorem NormalizedTraceDataset.new_ok {manifest : TraceSourceManifest}
    {records : List NormalizedTraceRecord}
    {d : NormalizedTraceDataset} : new manifest records = .ok d ↔ (records ≠ [] ∧
      (records.map (·.recordId)).Nodup ∧ (records.map (·.sourceRecordId)).Nodup ∧
      (records.map (·.sourceOrdinal)).Nodup ∧
      ∀ r ∈ records, ∀ field ∈ r.present, field ∈ manifest.fieldOrigins.map Prod.fst) ∧
      d.manifest = manifest ∧ d.records = sortedBy (·.sourceOrdinal) records := by
  have hdeclared : (records.flatMap (·.present)).find? (· ∉ manifest.fieldOrigins.map Prod.fst) = none ↔
      ∀ r ∈ records, ∀ field ∈ r.present, field ∈ manifest.fieldOrigins.map Prod.fst := by
    rw [List.find?_eq_none]
    constructor
    · intro h r hr field hfield
      have hall := h field (List.mem_flatMap.mpr ⟨r, hr, hfield⟩)
      simpa using hall
    · intro h field hfield
      obtain ⟨r, hr, hmem⟩ := List.mem_flatMap.mp hfield
      simpa using h r hr field hmem
  rw [new]
  constructor
  · intro h
    split at h
    next => cases h
    next hne =>
      split at h
      next => cases h
      next hrecords =>
        split at h
        next => cases h
        next hsources =>
          split at h
          next => cases h
          next hordinals =>
            split at h
            next => cases h
            next hfind =>
              obtain rfl := Except.ok.inj h
              exact ⟨⟨hne, not_not.mp hrecords, not_not.mp hsources, not_not.mp hordinals,
                hdeclared.mp hfind⟩, rfl, rfl⟩
  · intro ⟨⟨hne, hrecords, hsources, hordinals, hfields⟩, hmanifest, hsorted⟩
    rw [dif_neg hne, dif_neg (not_not.mpr hrecords), dif_neg (not_not.mpr hsources),
      dif_neg (not_not.mpr hordinals)]
    split
    next field hfield =>
      rw [hdeclared.mpr hfields] at hfield
      cases hfield
    next =>
      obtain ⟨manifest', records', _, _, _, _, _, _⟩ := d
      obtain rfl : manifest' = manifest := hmanifest
      obtain rfl : records' = sortedBy (·.sourceOrdinal) records := hsorted
      rfl

theorem NormalizedTraceDataset.new_perm {manifest : TraceSourceManifest}
    {records records' : List NormalizedTraceRecord} (hperm : records.Perm records')
    {d : NormalizedTraceDataset} (h : new manifest records = .ok d) : new manifest records' = .ok d := by
  obtain ⟨⟨hne, hrecords, hsources, hordinals, hfields⟩, hmanifest, hsorted⟩ := new_ok.mp h
  refine new_ok.mpr ⟨⟨fun hnil => hne (hnil ▸ hperm).eq_nil, (hperm.map _).nodup_iff.mp hrecords,
    (hperm.map _).nodup_iff.mp hsources, (hperm.map _).nodup_iff.mp hordinals,
    fun r hr => hfields r (hperm.mem_iff.mpr hr)⟩, hmanifest, ?_⟩
  rw [hsorted]
  exact sortedBy_perm (fun _ ha _ hb heq => List.inj_on_of_nodup_map hordinals ha hb heq) hperm

theorem NormalizedTraceDataset.new_own (d : NormalizedTraceDataset) : new d.manifest d.records = .ok d :=
  new_ok.mpr ⟨⟨d.records_ne, d.recordIds_nodup, d.sourceIds_nodup, d.ordinals_nodup, d.declared⟩, rfl,
    d.ordered.insertionSort_eq.symm⟩

variable (codec : Codec Binary64 FiniteFloat)

theorem NormalizedTraceDataset.fromJson_toJson (d : NormalizedTraceDataset) :
    fromJson codec (d.toJson codec) = .ok d := by
  have hnodup : (d.toDict.map Prod.fst).Nodup := (by decide : traceKeys.Nodup)
  have hkeys (k : String) : k ∈ d.toDict.map Prod.fst ↔ k ∈ traceKeys := Iff.rfl
  have hfield {key : String} {v : Doc Binary64} (i : Nat) (h : d.toDict[i]? = some (key, v)) :=
    fieldOf_sorted hnodup i h
  have hload : codec.loads (d.toJson codec) = some (.obj (sortedBy Prod.fst (docMembers d.toDict))) :=
    codec.loads_dumps _ d.writable
  have hlist (l : List (Doc Binary64)) (name : String) : requireList (.arr l) name = .ok l := rfl
  have hleaf (s : String) : (Doc.str s : Doc Binary64).sorted = .str s := rfl
  have harr (l : List (Doc Binary64)) : (Doc.arr l).sorted = .arr (docItems l) := rfl
  rw [fromJson, hload]
  dsimp only
  rw [requireMapping, Except.ok_bind, requireExactKeys_sorted hkeys, Except.ok_bind, hfield 0 rfl,
    Except.ok_bind, hleaf, requireText_str, Except.ok_bind, hfield 2 rfl, Except.ok_bind, harr, hlist,
    Except.ok_bind, hfield 1 rfl, Except.ok_bind, TraceSourceManifest.fromDict_sorted, Except.ok_bind,
    mapM_docItems NormalizedTraceRecord.fromDict_sorted, Except.ok_bind]
  exact d.new_own

theorem TraceSourceManifest.new_perm {sourceId sourceName sourceUri sourceVersion licenseId sourceSha256
    normalizationVersion : Doc Binary64} {steps : List (Doc Binary64)}
    {origins origins' : List (TraceField × TraceFieldOrigin)} (horigins : origins.Perm origins')
    {m : TraceSourceManifest} (h : new sourceId sourceName sourceUri sourceVersion licenseId sourceSha256
      normalizationVersion steps origins = .ok m) :
    new sourceId sourceName sourceUri sourceVersion licenseId sourceSha256 normalizationVersion steps
      origins' = .ok m := by
  rw [new] at h ⊢
  simp only [Except.bind_eq_ok] at h ⊢
  obtain ⟨a, ha, b, hb, c, hc, e, he, f, hf, g, hg, i, hi, j, hj, htexts⟩ := h
  exact ⟨a, ha, b, hb, c, hc, e, he, f, hf, g, hg, i, hi, j, hj, ofTexts_perm horigins htexts⟩

/-- A dataset from the fields of its manifest, its origins and its records. -/
def construct (sourceId sourceName sourceUri sourceVersion licenseId sourceSha256
    normalizationVersion : Doc Binary64) (normalizationSteps : List (Doc Binary64))
    (fieldOrigins : List (TraceField × TraceFieldOrigin)) (records : List NormalizedTraceRecord) :
    Except PyError NormalizedTraceDataset := do
  let manifest ← TraceSourceManifest.new sourceId sourceName sourceUri sourceVersion licenseId sourceSha256
    normalizationVersion normalizationSteps fieldOrigins
  NormalizedTraceDataset.new manifest records

theorem construct_perm {sourceId sourceName sourceUri sourceVersion licenseId sourceSha256
    normalizationVersion : Doc Binary64} {steps : List (Doc Binary64)}
    {origins origins' : List (TraceField × TraceFieldOrigin)}
    {records records' : List NormalizedTraceRecord}
    (horigins : origins.Perm origins') (hrecords : records.Perm records') {d : NormalizedTraceDataset}
    (h : construct sourceId sourceName sourceUri sourceVersion licenseId sourceSha256 normalizationVersion
      steps origins records = .ok d) :
    construct sourceId sourceName sourceUri sourceVersion licenseId sourceSha256 normalizationVersion steps
      origins' records' = .ok d := by
  obtain ⟨m, hm, hd⟩ := Except.bind_eq_ok.mp h
  exact Except.bind_eq_ok.mpr ⟨m, TraceSourceManifest.new_perm horigins hm,
    NormalizedTraceDataset.new_perm hrecords hd⟩

variable (sha256 : String → Digest)

/-- Datasets are canonical: they survive their text, do not depend on the order of what they are
made from, and every accepted text leads to a text that no longer changes. -/
theorem NormalizedTraceDataset.canonical :
    (∀ d, fromJson codec (toJson codec d) = .ok d) ∧
    (∀ (sourceId sourceName sourceUri sourceVersion licenseId sourceSha256 normalizationVersion :
        Doc Binary64) (steps : List (Doc Binary64))
      (origins origins' : List (TraceField × TraceFieldOrigin))
      (records records' : List NormalizedTraceRecord) (d : NormalizedTraceDataset),
      origins.Perm origins' → records.Perm records' →
      construct sourceId sourceName sourceUri sourceVersion licenseId sourceSha256
        normalizationVersion steps origins records = .ok d →
      ∃ d', construct sourceId sourceName sourceUri sourceVersion licenseId sourceSha256
        normalizationVersion steps origins' records' = .ok d' ∧ d' = d ∧ d'.toJson codec = d.toJson codec ∧
        d'.fingerprint codec sha256 = d.fingerprint codec sha256) ∧
    ∀ (text : String) (d : NormalizedTraceDataset), fromJson codec text = .ok d →
      ∃ d', fromJson codec (d.toJson codec) = .ok d' ∧ d'.toJson codec = d.toJson codec := by
  refine ⟨fromJson_toJson codec, ?_, fun text d _ => ⟨d, fromJson_toJson codec d, rfl⟩⟩
  intro _ _ _ _ _ _ _ _ _ _ _ _ d horigins hrecords h
  exact ⟨d, construct_perm horigins hrecords h, rfl, rfl, rfl⟩

end Datasets

end Cadi.Trace
