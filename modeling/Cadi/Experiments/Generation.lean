import Cadi.Experiments.Synthetic

namespace Cadi.Synthetic
open Library Fields
set_option autoImplicit true

section Written

theorem requireNonnegativeFinite_float (q : NonnegativeFloat) (name : String) :
    requireNonnegativeFinite (.float q.1) name = .ok q := by
  rw [requireNonnegativeFinite, requireReal, Except.ok_bind, dif_pos q.2]
  rfl

theorem requirePositiveFinite_float (q : PositiveFloat) (name : String) :
    requirePositiveFinite (.float q.1) name = .ok q := by
  have hread := requireNonnegativeFinite_float ⟨q.1, q.2.le⟩ name
  rw [requirePositiveFinite, hread, Except.ok_bind, dif_pos q.2]
  rfl

theorem requireFraction_float (q : Fraction) (name : String) :
    requireFraction (.float q.1) name = .ok q := by
  have hread := requireNonnegativeFinite_float ⟨q.1, q.2.1⟩ name
  rw [requireFraction, hread, Except.ok_bind, dif_pos q.2.2]
  rfl

theorem FullySyntheticWorkloadRecord.new_fields (r : FullySyntheticWorkloadRecord) :
    new (.str r.recordId.1) (.int r.ordinal) (.float r.arrivalTimeS.1) (.int r.inputTokens.1)
      (.int r.outputTokens) (optionalDoc r.prefixGroupId) (.int r.prefixTokens) = .ok r := by
  have hzero : ¬ (r.prefixTokens = 0 ∧ r.prefixGroupId ≠ none) := fun h =>
    (r.group_iff.mp h.2).ne' h.1
  have hpos : ¬ (0 < r.prefixTokens ∧ r.prefixGroupId = none) := fun h => r.group_iff.mpr h.1 h.2
  rw [new, requireNonemptyString_str, Except.ok_bind, requireNonnegativeInt_nat, Except.ok_bind,
    requireNonnegativeFinite_float, Except.ok_bind, requirePositiveInt_nat, Except.ok_bind,
    requireNonnegativeInt_nat, Except.ok_bind, requireOptionalNonemptyString_doc, Except.ok_bind,
    requireNonnegativeInt_nat, Except.ok_bind, dif_pos r.prefix_le, dif_neg hzero, dif_neg hpos]
  rfl

theorem FullySyntheticWorkloadConfig.new_fields (c : FullySyntheticWorkloadConfig) :
    new (.int c.seed) (.int c.requestCount.1) (c.interarrivalSChoices.values.map fun q => .float q.1)
      (c.inputTokensChoices.values.map fun n => .int n.1)
      (c.outputTokensChoices.values.map fun n : Nat => .int n)
      (c.prefixFractionChoices.values.map fun q => .float q.1) (.int c.prefixGroupCount) = .ok c := by
  rw [new, requireNonnegativeInt_nat, Except.ok_bind, requirePositiveInt_nat, Except.ok_bind,
    requireChoices_map requirePositiveFinite_float, Except.ok_bind,
    requireChoices_map requirePositiveInt_nat, Except.ok_bind,
    requireChoices_map requireNonnegativeInt_nat, Except.ok_bind,
    requireChoices_map requireFraction_float, Except.ok_bind, requireNonnegativeInt_nat, Except.ok_bind,
    dif_pos c.groups_pos]
  rfl

end Written

section Documents

theorem FullySyntheticWorkloadRecord.fromDict_sorted (r : FullySyntheticWorkloadRecord) :
    fromDict (Doc.obj r.toDict).sorted = .ok r := by
  have hnodup : (r.toDict.map Prod.fst).Nodup := (by decide : syntheticRecordKeys.Nodup)
  have hkeys (k : String) : k ∈ r.toDict.map Prod.fst ↔ k ∈ syntheticRecordKeys := Iff.rfl
  have hfield {key : String} {d : Doc ℚ} (i : Nat) (h : r.toDict[i]? = some (key, d)) :=
    fieldOf_sorted hnodup i h
  rw [fromDict, Doc.sorted, requireMapping, Except.ok_bind, requireExactKeys_sorted hkeys, Except.ok_bind,
    hfield 0 rfl, Except.ok_bind, hfield 1 rfl, Except.ok_bind, hfield 2 rfl, Except.ok_bind, hfield 3 rfl,
    Except.ok_bind, hfield 4 rfl, Except.ok_bind, hfield 5 rfl, Except.ok_bind, hfield 6 rfl,
    Except.ok_bind, optionalDoc_sorted]
  exact r.new_fields

theorem FullySyntheticWorkloadConfig.fromDict_sorted (c : FullySyntheticWorkloadConfig) :
    fromDict (Doc.obj c.toDict).sorted = .ok c := by
  have hnodup : (c.toDict.map Prod.fst).Nodup := (by decide : syntheticConfigKeys.Nodup)
  have hkeys (k : String) : k ∈ c.toDict.map Prod.fst ↔ k ∈ syntheticConfigKeys := Iff.rfl
  have hfield {key : String} {d : Doc ℚ} (i : Nat) (h : c.toDict[i]? = some (key, d)) :=
    fieldOf_sorted hnodup i h
  have hlist (l : List (Doc ℚ)) (name : String) : requireList (.arr l) name = .ok l := rfl
  rw [fromDict, Doc.sorted, requireMapping, Except.ok_bind, requireExactKeys_sorted hkeys, Except.ok_bind,
    hfield 2 rfl, Except.ok_bind, arr_sorted fun _ => rfl, hlist, Except.ok_bind, hfield 3 rfl,
    Except.ok_bind, arr_sorted fun _ => rfl, hlist, Except.ok_bind, hfield 4 rfl, Except.ok_bind,
    arr_sorted fun _ => rfl, hlist, Except.ok_bind, hfield 5 rfl, Except.ok_bind, arr_sorted fun _ => rfl,
    hlist, Except.ok_bind, hfield 0 rfl, Except.ok_bind, hfield 1 rfl, Except.ok_bind, hfield 6 rfl,
    Except.ok_bind]
  exact c.new_fields

end Documents

section Checks

/-- What the dataset asks of the record at an ordinal, after the arrival before it. -/
structure Admitted (config : FullySyntheticWorkloadConfig) (ordinal : Nat) (previous : Option ℚ)
    (r : FullySyntheticWorkloadRecord) : Prop where
  ordinal_eq : r.ordinal = ordinal
  recordId_eq : r.recordId.1 = syntheticId ordinal
  input_mem : r.inputTokens ∈ config.inputTokensChoices.values
  output_mem : r.outputTokens ∈ config.outputTokensChoices.values
  group_mem : ∀ group ∈ r.prefixGroupId, group.1 ∈ (List.range config.prefixGroupCount).map syntheticGroup
  first : ordinal = 0 → r.arrivalTimeS.1 = 0
  later : ordinal ≠ 0 → ∃ before ∈ previous, before < r.arrivalTimeS.1
  admitted : ∃ fraction ∈ config.prefixFractionChoices.values,
    prefixOf r.inputTokens fraction = r.prefixTokens

variable {config : FullySyntheticWorkloadConfig}

theorem requireArrival_ok {k : Nat} {previous : Option ℚ} {arrival : ℚ} :
    requireArrival k previous arrival = .ok ⟨⟩ ↔
      (k = 0 → arrival = 0) ∧ (k ≠ 0 → ∃ before ∈ previous, before < arrival) := by
  rw [requireArrival]
  split
  next hk => simp [raiseIf_eq_ok, hk]
  next hk => simp [raiseIf_eq_ok, hk]

theorem validateRecords_cons {k : Nat} {previous : Option ℚ} {r : FullySyntheticWorkloadRecord}
    {rs : List FullySyntheticWorkloadRecord} : validateRecords config k previous (r :: rs) = .ok ⟨⟩ ↔
      Admitted config k previous r ∧
      validateRecords config (k + 1) (some r.arrivalTimeS.1) rs = .ok ⟨⟩ := by
  rw [validateRecords]
  simp only [Except.then_eq_ok, raiseIf_eq_ok, requireArrival_ok, not_not]
  constructor
  · intro hall
    obtain ⟨h1, h2, h3, h4, h5, ⟨h6, h7⟩, h8, h⟩ := hall
    have hgroup : ∀ group ∈ r.prefixGroupId,
        group.1 ∈ (List.range config.prefixGroupCount).map syntheticGroup :=
      fun group hg => by_contra fun hn => h5 ⟨group, hg, hn⟩
    exact ⟨⟨h1, h2, h3, h4, hgroup, h6, h7, h8⟩, h⟩
  · intro hall
    obtain ⟨⟨h1, h2, h3, h4, h5, h6, h7, h8⟩, h⟩ := hall
    refine ⟨h1, h2, h3, h4, fun hex => ?_, ⟨h6, h7⟩, h8, h⟩
    obtain ⟨group, hg, hn⟩ := hex
    exact hn (h5 group hg)

end Checks

section Draws
variable (sha256 : String → Digest)

theorem choiceIndex_lt (seed : Nat) (recordId channel : String) {count : Nat} (h : 0 < count) :
    ∃ index < count, choiceIndex sha256 seed recordId channel count = .ok index := by
  refine ⟨(decisionDigest sha256 seed recordId channel).head64 % count, Nat.mod_lt _ h, ?_⟩
  rw [choiceIndex, raiseIf, if_neg h.ne', Except.ok_bind]
  rfl

theorem choose_mem (seed : Nat) (recordId channel : String) {choices : List α} (h : choices ≠ []) :
    ∃ choice ∈ choices, choose sha256 seed recordId channel choices = .ok choice := by
  obtain ⟨index, hlt, hindex⟩ := choiceIndex_lt sha256 seed recordId channel (List.length_pos_iff.mpr h)
  refine ⟨choices[index], List.getElem_mem hlt, ?_⟩
  rw [choose, hindex, Except.ok_bind, List.getElem?_eq_getElem hlt]
  rfl

theorem prefixOf_le (inputTokens : PositiveInt) (fraction : Fraction) :
    prefixOf inputTokens fraction ≤ inputTokens.1 := by
  have hle : (inputTokens.1 : ℚ) * fraction.1 ≤ inputTokens.1 :=
    mul_le_of_le_one_right (Nat.cast_nonneg _) fraction.2.2
  exact Nat.floor_le_of_le hle

theorem prefixOf_pos {inputTokens : PositiveInt} {fraction : Fraction}
    (h : prefixOf inputTokens fraction ≠ 0) : 0 < fraction.1 := by
  by_contra hfraction
  have hzero : fraction.1 = 0 := le_antisymm (not_lt.mp hfraction) fraction.2.1
  rw [prefixOf, hzero, mul_zero, Nat.floor_zero] at h
  exact h rfl

theorem syntheticId_ne (ordinal : Nat) : syntheticId ordinal ≠ "" := append_ne (by decide) _

theorem syntheticGroup_ne (index : Nat) : syntheticGroup index ≠ "" := append_ne (by decide) _

variable (config : FullySyntheticWorkloadConfig)

theorem drawGroup_ok (recordId : String) (inputTokens : PositiveInt) {fraction : Fraction}
    (hfraction : fraction ∈ config.prefixFractionChoices.values) :
    ∃ group : Option NonemptyString,
      drawGroup sha256 config recordId (prefixOf inputTokens fraction) = .ok (optionalDoc group) ∧
      (∀ g ∈ group, g.1 ∈ (List.range config.prefixGroupCount).map syntheticGroup) ∧
      (group ≠ none ↔ 0 < prefixOf inputTokens fraction) := by
  rcases Nat.eq_zero_or_pos (prefixOf inputTokens fraction) with hzero | hpos
  · refine ⟨none, ?_, ?_, ?_⟩
    · rw [drawGroup, if_pos hzero]
      rfl
    · intro g hg
      cases hg
    · rw [hzero]
      exact ⟨fun h => absurd rfl h, fun h => absurd h (lt_irrefl 0)⟩
  · have hcount : 0 < config.prefixGroupCount :=
      Nat.pos_of_ne_zero (config.groups_pos ⟨fraction, hfraction, prefixOf_pos hpos.ne'⟩)
    obtain ⟨index, hlt, hindex⟩ := choiceIndex_lt sha256 config.seed recordId "prefix-group" hcount
    refine ⟨some ⟨syntheticGroup index, syntheticGroup_ne index⟩, ?_, ?_, ?_⟩
    · rw [drawGroup, if_neg hpos.ne', hindex, Except.ok_bind]
      rfl
    · intro g hg
      obtain rfl := Option.mem_some.mp hg
      exact List.mem_map_of_mem (List.mem_range.mpr hlt)
    · exact ⟨fun _ => hpos, fun _ => Option.some_ne_none _⟩

/-- The first arrival is drawn as zero, the later ones after the arrival before. -/
theorem drawArrival_ok {k : Nat} {previous : Option ℚ} {arrival : ℚ} (hnonneg : 0 ≤ arrival)
    (hzero : k = 0 → arrival = 0) (hprevious : k ≠ 0 → previous = some arrival) :
    ∃ next : NonnegativeFloat, drawArrival sha256 config k arrival = .ok next.1 ∧
      (k = 0 → next.1 = 0) ∧ (k ≠ 0 → ∃ before ∈ previous, before < next.1) := by
  rcases Nat.eq_zero_or_pos k with rfl | hk
  · exact ⟨⟨arrival, hnonneg⟩, rfl, hzero, fun h => absurd rfl h⟩
  · obtain ⟨interval, -, hdraw⟩ := choose_mem sha256 config.seed (syntheticId k) "interarrival"
      config.interarrivalSChoices.nonempty
    refine ⟨⟨arrival + interval.1, add_nonneg hnonneg interval.2.le⟩, ?_, fun h => absurd h hk.ne', ?_⟩
    · rw [drawArrival, if_pos hk, hdraw, Except.ok_bind]
      rfl
    · intro _
      exact ⟨arrival, hprevious hk.ne', lt_add_of_pos_right arrival interval.2⟩

/-- One turn of the generator leaves a record that the dataset admits. -/
theorem generateRecords_cons {k : Nat} {previous : Option ℚ} {arrival : ℚ} (hnonneg : 0 ≤ arrival)
    (hzero : k = 0 → arrival = 0) (hprevious : k ≠ 0 → previous = some arrival) :
    ∃ r, Admitted config k previous r ∧ ∀ ordinals, generateRecords sha256 config (k :: ordinals) arrival =
      (generateRecords sha256 config ordinals r.arrivalTimeS.1).map (r :: ·) := by
  obtain ⟨next, hnext, hfirst, hlater⟩ := drawArrival_ok sha256 config hnonneg hzero hprevious
  obtain ⟨inputTokens, hinput, hdrawInput⟩ := choose_mem sha256 config.seed (syntheticId k) "input-tokens"
    config.inputTokensChoices.nonempty
  obtain ⟨outputTokens, houtput, hdrawOutput⟩ := choose_mem sha256 config.seed (syntheticId k)
    "output-tokens" config.outputTokensChoices.nonempty
  obtain ⟨fraction, hfraction, hdrawFraction⟩ := choose_mem sha256 config.seed (syntheticId k)
    "prefix-fraction" config.prefixFractionChoices.nonempty
  obtain ⟨group, hdrawGroup, hgroup, hiff⟩ := drawGroup_ok sha256 config (syntheticId k) inputTokens
    hfraction
  let r : FullySyntheticWorkloadRecord :=
    { recordId := ⟨syntheticId k, syntheticId_ne k⟩, ordinal := k, arrivalTimeS := next, inputTokens,
      outputTokens, prefixGroupId := group, prefixTokens := prefixOf inputTokens fraction,
      prefix_le := prefixOf_le inputTokens fraction, group_iff := hiff }
  refine ⟨r, ⟨rfl, rfl, hinput, houtput, hgroup, hfirst, hlater, fraction, hfraction, rfl⟩, ?_⟩
  intro ordinals
  have hrecord : FullySyntheticWorkloadRecord.new (.str (syntheticId k)) (.int k) (.float next.1)
      (.int inputTokens.1) (.int outputTokens) (optionalDoc group)
      (.int (prefixOf inputTokens fraction)) = .ok r := r.new_fields
  rw [generateRecords, hnext, Except.ok_bind, hdrawInput, Except.ok_bind, hdrawOutput, Except.ok_bind,
    hdrawFraction, Except.ok_bind]
  dsimp only
  rw [hdrawGroup, Except.ok_bind, hrecord, Except.ok_bind]
  rfl

/-- The generator and the checks of the dataset go through the ordinals together. -/
theorem generateRecords_validated (n : Nat) {k : Nat} {previous : Option ℚ} {arrival : ℚ}
    (hnonneg : 0 ≤ arrival) (hzero : k = 0 → arrival = 0) (hprevious : k ≠ 0 → previous = some arrival) :
    ∃ records, generateRecords sha256 config (List.range' k n) arrival = .ok records ∧
      records.length = n ∧ validateRecords config k previous records = .ok ⟨⟩ := by
  induction n generalizing k previous arrival with
  | zero => exact ⟨[], rfl, rfl, rfl⟩
  | succ n ih =>
    obtain ⟨r, hr, hstep⟩ := generateRecords_cons sha256 config hnonneg hzero hprevious
    have hlast : k + 1 ≠ 0 → some r.arrivalTimeS.1 = some r.arrivalTimeS.1 := fun _ => rfl
    obtain ⟨records, hrecords, hlength, hvalid⟩ :=
      ih r.arrivalTimeS.2 (fun h => absurd h (Nat.succ_ne_zero k)) hlast
    refine ⟨r :: records, ?_, congrArg Nat.succ hlength, validateRecords_cons.mpr ⟨hr, hvalid⟩⟩
    rw [List.range'_succ, hstep, hrecords]
    rfl

end Draws

section Validity

/-- What the dataset promises of its records. -/
structure Valid (config : FullySyntheticWorkloadConfig) (records : List FullySyntheticWorkloadRecord) :
    Prop where
  length_eq : records.length = config.requestCount.1
  numbered : ∀ (k : Nat) (h : k < records.length),
    records[k].ordinal = k ∧ records[k].recordId.1 = syntheticId k
  first : ∀ r ∈ records.head?, r.arrivalTimeS.1 = 0
  increasing : records.Pairwise fun a b => a.arrivalTimeS.1 < b.arrivalTimeS.1
  chosen : ∀ r ∈ records, r.inputTokens ∈ config.inputTokensChoices.values ∧
    r.outputTokens ∈ config.outputTokensChoices.values
  grouped : ∀ r ∈ records, ∀ group ∈ r.prefixGroupId, ∃ index < config.prefixGroupCount,
    group.1 = syntheticGroup index
  admitted : ∀ r ∈ records, ∃ fraction ∈ config.prefixFractionChoices.values,
    ⌊(r.inputTokens.1 : ℚ) * fraction.1⌋₊ = r.prefixTokens
  bounded : ∀ r ∈ records, r.prefixTokens ≤ r.inputTokens.1
  group_iff : ∀ r ∈ records, r.prefixGroupId ≠ none ↔ 0 < r.prefixTokens

variable {config : FullySyntheticWorkloadConfig}

theorem validateRecords_getElem {k : Nat} {previous : Option ℚ}
    {records : List FullySyntheticWorkloadRecord}
    (h : validateRecords config k previous records = .ok ⟨⟩) (i : Nat) (hi : i < records.length) :
    ∃ before, Admitted config (k + i) before records[i] := by
  induction records generalizing k previous i with
  | nil => exact absurd hi (Nat.not_lt_zero i)
  | cons r rs ih =>
    obtain ⟨hr, hrs⟩ := validateRecords_cons.mp h
    cases i with
    | zero => exact ⟨previous, hr⟩
    | succ i =>
      obtain ⟨before, hbefore⟩ := ih hrs i (Nat.lt_of_succ_lt_succ hi)
      rw [Nat.succ_add_eq_add_succ] at hbefore
      exact ⟨before, hbefore⟩

theorem validateRecords_increasing {k : Nat} {previous : ℚ} {records : List FullySyntheticWorkloadRecord}
    (hk : k ≠ 0) (h : validateRecords config k (some previous) records = .ok ⟨⟩) :
    (∀ r ∈ records, previous < r.arrivalTimeS.1) ∧
      records.Pairwise fun a b => a.arrivalTimeS.1 < b.arrivalTimeS.1 := by
  induction records generalizing k previous with
  | nil => exact ⟨fun r hr => absurd hr List.not_mem_nil, .nil⟩
  | cons r rs ih =>
    obtain ⟨hr, hrs⟩ := validateRecords_cons.mp h
    obtain ⟨before, hbefore, hlt⟩ := hr.later hk
    obtain rfl := Option.mem_some.mp hbefore
    obtain ⟨hrest, hpairs⟩ := ih (Nat.succ_ne_zero k) hrs
    refine ⟨fun r' hr' => ?_, List.pairwise_cons.mpr ⟨hrest, hpairs⟩⟩
    rcases List.mem_cons.mp hr' with rfl | hr'
    · exact hlt
    · exact hlt.trans (hrest r' hr')

theorem valid_of_validateRecords {records : List FullySyntheticWorkloadRecord}
    (hlength : records.length = config.requestCount.1)
    (h : validateRecords config 0 none records = .ok ⟨⟩) : Valid config records := by
  have hat (i : Nat) (hi : i < records.length) : ∃ before, Admitted config i before records[i] := by
    obtain ⟨before, hbefore⟩ := validateRecords_getElem h i hi
    rw [Nat.zero_add] at hbefore
    exact ⟨before, hbefore⟩
  have hmem (r) (hr : r ∈ records) : ∃ i before, Admitted config i before r := by
    obtain ⟨i, hi, rfl⟩ := List.getElem_of_mem hr
    exact ⟨i, hat i hi⟩
  refine ⟨hlength, ?_, ?_, ?_, ?_, ?_, ?_, fun r _ => r.prefix_le, fun r _ => r.group_iff⟩
  · intro i hi
    obtain ⟨before, hr⟩ := hat i hi
    exact ⟨hr.ordinal_eq, hr.recordId_eq⟩
  · cases records with
    | nil => exact fun r hr => nomatch hr
    | cons r rs =>
      intro r' hr'
      obtain rfl := Option.mem_some.mp hr'
      exact (validateRecords_cons.mp h).1.first rfl
  · cases records with
    | nil => exact .nil
    | cons r rs =>
      obtain ⟨hrest, hpairs⟩ := validateRecords_increasing Nat.one_ne_zero (validateRecords_cons.mp h).2
      exact List.pairwise_cons.mpr ⟨hrest, hpairs⟩
  · intro r hr
    obtain ⟨i, before, hadmitted⟩ := hmem r hr
    exact ⟨hadmitted.input_mem, hadmitted.output_mem⟩
  · intro r hr group hgroup
    obtain ⟨i, before, hadmitted⟩ := hmem r hr
    obtain ⟨index, hindex, heq⟩ := List.mem_map.mp (hadmitted.group_mem group hgroup)
    exact ⟨index, List.mem_range.mp hindex, heq.symm⟩
  · intro r hr
    obtain ⟨i, before, hadmitted⟩ := hmem r hr
    exact hadmitted.admitted

end Validity

section Datasets

theorem FullySyntheticWorkloadDataset.postInit_ok {d d' : FullySyntheticWorkloadDataset} :
    d.postInit = .ok d' ↔ (d.version = fullySyntheticWorkloadVersion ∧ d.records ≠ [] ∧
      d.records.length = d.config.requestCount.1 ∧ validateRecords d.config 0 none d.records = .ok ⟨⟩) ∧
      d = d' := by
  have hprovenance : d.provenance = .synthetic := by
    cases d.provenance
    rfl
  simp only [postInit, Except.then_eq_ok, raiseIf_eq_ok, hprovenance, not_not, ne_eq, true_and, and_assoc,
    Except.pure_eq_ok]

theorem FullySyntheticWorkloadRecord.writable (r : FullySyntheticWorkloadRecord) :
    (Doc.obj r.toDict).Writable fun _ => True := by
  refine .obj (by decide : syntheticRecordKeys.Nodup) ?_
  simp only [toDict, List.forall_mem_cons]
  exact ⟨.str _, .int _, .float trivial, .int _, .int _, optionalDoc_writable _, .int _,
    fun m hm => absurd hm List.not_mem_nil⟩

theorem FullySyntheticWorkloadConfig.writable (c : FullySyntheticWorkloadConfig) :
    (Doc.obj c.toDict).Writable fun _ => True := by
  refine .obj (by decide : syntheticConfigKeys.Nodup) ?_
  simp only [toDict, List.forall_mem_cons]
  exact ⟨.int _, .int _, arr_writable (fun _ => .float trivial) _, arr_writable (fun _ => .int _) _,
    arr_writable (fun _ => .int _) _, arr_writable (fun _ => .float trivial) _, .int _,
    fun m hm => absurd hm List.not_mem_nil⟩

theorem FullySyntheticWorkloadDataset.writable (d : FullySyntheticWorkloadDataset) :
    d.toDict.Writable fun _ => True := by
  refine .obj (by decide : syntheticDatasetKeys.Nodup) ?_
  simp only [List.forall_mem_cons]
  exact ⟨.str _, .str _, .str _, d.config.writable, arr_writable FullySyntheticWorkloadRecord.writable _,
    fun m hm => absurd hm List.not_mem_nil⟩

/-- JSON text is one codec of exact numbers. -/
instance : Inhabited (Codec ℚ fun _ => True) := ⟨jsonCodec rationalCoding⟩

variable (codec : Codec ℚ fun _ => True)

theorem FullySyntheticWorkloadDataset.fromJson_toJson {d : FullySyntheticWorkloadDataset}
    (h : d.postInit = .ok d) : fromJson codec (d.toJson codec) = .ok d := by
  obtain ⟨⟨hversion, -⟩, -⟩ := postInit_ok.mp h
  have hprovenance : d.provenance = .synthetic := by
    cases d.provenance
    rfl
  have hdataset : (⟨d.config, d.records, .synthetic, fullySyntheticWorkloadVersion⟩ :
      FullySyntheticWorkloadDataset) = d := by
    rw [← hversion, ← hprovenance]
  let members : List (String × Doc ℚ) :=
    [("schema", .str fullySyntheticWorkloadSchema), ("version", .str d.version),
      ("provenance", .str d.provenance.value), ("config", .obj d.config.toDict),
      ("records", .arr (d.records.map fun r => .obj r.toDict))]
  have hnodup : (members.map Prod.fst).Nodup := (by decide : syntheticDatasetKeys.Nodup)
  have hkeys (k : String) : k ∈ members.map Prod.fst ↔ k ∈ syntheticDatasetKeys := Iff.rfl
  have hfield {key : String} {v : Doc ℚ} (i : Nat) (h : members[i]? = some (key, v)) :=
    fieldOf_sorted hnodup i h
  have hload : codec.loads (d.toJson codec) = some (.obj (sortedBy Prod.fst (docMembers members))) :=
    codec.loads_dumps _ d.writable
  have hlist (l : List (Doc ℚ)) (name : String) : requireList (.arr l) name = .ok l := rfl
  have hleaf (s : String) : (Doc.str s : Doc ℚ).sorted = .str s := rfl
  have harr (l : List (Doc ℚ)) : (Doc.arr l).sorted = .arr (docItems l) := rfl
  rw [fromJson, hload]
  dsimp only
  rw [requireMapping, Except.ok_bind, requireExactKeys_sorted hkeys, Except.ok_bind, hfield 0 rfl,
    Except.ok_bind, hleaf, requireText_str, Except.ok_bind, hfield 1 rfl, Except.ok_bind, hleaf,
    hversion, requireText_str, Except.ok_bind, hfield 2 rfl, Except.ok_bind, hleaf, hprovenance,
    requireText_str, Except.ok_bind, hfield 4 rfl, Except.ok_bind, harr, hlist, Except.ok_bind,
    hfield 3 rfl, Except.ok_bind,
    FullySyntheticWorkloadConfig.fromDict_sorted, Except.ok_bind,
    mapM_docItems FullySyntheticWorkloadRecord.fromDict_sorted, Except.ok_bind, hdataset]
  exact h

variable (sha256 : String → Digest)

theorem generateFullySyntheticWorkload_ok (config : FullySyntheticWorkloadConfig) :
    ∃ d, generateFullySyntheticWorkload sha256 config = .ok d ∧ d.config = config ∧
      d.postInit = .ok d := by
  obtain ⟨records, hrecords, hlength, hvalid⟩ := generateRecords_validated sha256 config
    config.requestCount.1 le_rfl (fun _ => rfl) (fun h => absurd rfl h)
  have hne : records ≠ [] := by
    intro hnil
    rw [hnil] at hlength
    exact config.requestCount.2.ne hlength
  let d : FullySyntheticWorkloadDataset := { config, records }
  have hd : d.postInit = .ok d :=
    FullySyntheticWorkloadDataset.postInit_ok.mpr ⟨⟨rfl, hne, hlength, hvalid⟩, rfl⟩
  refine ⟨d, ?_, rfl, hd⟩
  rw [generateFullySyntheticWorkload, List.range_eq_range', hrecords, Except.ok_bind]
  exact hd

/-- The generator returns a valid dataset, which survives its text and reproduces from its
configuration. -/
theorem generateFullySyntheticWorkload_reproducible (config : FullySyntheticWorkloadConfig) :
    ∃ d, generateFullySyntheticWorkload sha256 config = .ok d ∧ d.config = config ∧
      d.postInit = .ok d ∧ Valid config d.records ∧
      FullySyntheticWorkloadDataset.fromJson codec (d.toJson codec) = .ok d ∧
      d.assertReproducible sha256 codec = .ok d := by
  obtain ⟨d, hd, rfl, hok⟩ := generateFullySyntheticWorkload_ok sha256 config
  obtain ⟨⟨-, -, hlength, hvalid⟩, -⟩ := FullySyntheticWorkloadDataset.postInit_ok.mp hok
  refine ⟨d, hd, rfl, hok, valid_of_validateRecords hlength hvalid,
    FullySyntheticWorkloadDataset.fromJson_toJson codec hok, ?_⟩
  rw [FullySyntheticWorkloadDataset.assertReproducible, hd, Except.ok_bind, raiseIf,
    if_neg (not_not.mpr rfl),
    Except.ok_bind]
  rfl

end Datasets

end Cadi.Synthetic
