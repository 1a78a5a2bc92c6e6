import Cadi.Experiments.Overlay
import Cadi.Experiments.Sessions

namespace Cadi.Augmentation
open Library Fields Trace
set_option autoImplicit true

section Names

theorem sessionName_injective (h : sessionName i = sessionName j) : i = j := by
  have hlist := congrArg String.toList h
  simp only [sessionName, String.toList_append] at hlist
  exact zeroPadded_injective (String.toList_injective (List.append_cancel_left hlist))

theorem continuationName_injective (h : continuationName i k = continuationName j l) : i = j ∧ k = l := by
  have hlist := congrArg String.toList h
  have hcolon (n : Nat) : ':' ∉ (zeroPadded 6 n).toList := notMem_zeroPadded rfl 6 n
  have htail : ":c:".toList = ':' :: "c:".toList := rfl
  simp only [continuationName, sessionName, String.toList_append, List.append_assoc, htail,
    List.cons_append] at hlist
  obtain ⟨hsession, hrest⟩ := append_cons_inj (hcolon i) (hcolon j) (List.append_cancel_left hlist)
  exact ⟨zeroPadded_injective (String.toList_injective hsession),
    zeroPadded_injective (String.toList_injective (List.append_cancel_left hrest))⟩

theorem sessionName_ne (i : Nat) : sessionName i ≠ "" := append_ne (by decide) _

theorem continuationName_ne (i k : Nat) : continuationName i k ≠ "" :=
  append_ne (append_ne (sessionName_ne i) _) _

theorem forkName_ne (i k : Nat) : forkName i k ≠ "" := append_ne (append_ne (sessionName_ne i) _) _

end Names

section Draws
variable (sha256 : String → Digest) (config : ContinuityAugmentationConfig)

theorem chooseSelected_ok {probability : Probability} {choices : List α}
    (h : 0 < probability.1.units → choices ≠ []) (seed : Nat)
    (sourceFingerprint recordId channel choiceChannel : String) :
    ∃ choice, chooseSelected sha256 probability choices seed sourceFingerprint recordId channel
      choiceChannel = .ok choice ∧ ∀ c ∈ choice, c ∈ choices := by
  rw [chooseSelected]
  split
  next hselected =>
    have hpos : 0 < probability.1.units := by
      rw [selected] at hselected
      split at hselected
      next => cases hselected
      next hne => exact Nat.pos_of_ne_zero hne
    have hlength : 0 < choices.length := List.length_pos_iff.mpr (h hpos)
    rw [choiceIndex, raiseIf, if_neg hlength.ne']
    generalize (decisionDigest sha256 seed sourceFingerprint recordId choiceChannel).next64 = number
    have hlt : number % choices.length < choices.length := Nat.mod_lt _ hlength
    refine ⟨some choices[number % choices.length], ?_, fun c hc => ?_⟩
    · rw [Except.ok_bind, pure_bind, List.getElem?_eq_getElem hlt]
      rfl
    · obtain rfl := Option.mem_some.mp hc
      exact List.getElem_mem hlt
  next => exact ⟨none, rfl, fun c hc => nomatch hc⟩

/-- A record past the root has its parent before it, the previous one exactly without a branch. -/
theorem drawParent_spec (sourceFingerprint recordId : String) (sessionIndex : Nat) {localIndex : Nat}
    (h : localIndex ≠ 0) {parent : Nat × Option String}
    (hparent : drawParent sha256 config sourceFingerprint recordId sessionIndex localIndex = parent) :
    parent.1 < localIndex ∧ (parent.2 ≠ none ↔ parent.1 ≠ localIndex - 1) ∧ ∀ s ∈ parent.2, s ≠ "" := by
  have hlookback := config.lookback_ge
  subst hparent
  rw [drawParent]
  split
  next hbranch =>
    refine ⟨by omega, ⟨fun _ => ?_, fun _ => Option.some_ne_none _⟩, fun s hs => ?_⟩
    · dsimp only
      omega
    · obtain rfl := Option.mem_some.mp hs
      exact forkName_ne _ _
  next => exact ⟨by omega, ⟨fun h => absurd rfl h, fun h => absurd rfl h⟩, fun s hs => nomatch hs⟩

/-- What the generator writes at a position. -/
structure Drawn (position : Nat) (record : NormalizedTraceRecord) (a : ContinuityAnnotation) : Prop where
  record : a.recordId = record.recordId
  session : a.sessionId.1 = sessionName (position / config.sessionLengthRecords.1)
  continuation : a.continuationId.1 = continuationName (position / config.sessionLengthRecords.1)
    (position % config.sessionLengthRecords.1)
  wait_mem : ∀ wait ∈ a.toolWaitBeforeS, wait ∈ config.toolWaitSeconds
  fault_mem : ∀ fault ∈ a.faultClass, fault ∈ config.faultClasses
  root : position % config.sessionLengthRecords.1 = 0 →
    a.parentContinuationId = none ∧ a.branchGroupId = none ∧ a.toolWaitBeforeS = none
  child : position % config.sessionLengthRecords.1 ≠ 0 →
    ∃ index < position % config.sessionLengthRecords.1, ∃ parent ∈ a.parentContinuationId,
      parent.1 = continuationName (position / config.sessionLengthRecords.1) index ∧
      (a.branchGroupId ≠ none ↔ index ≠ position % config.sessionLengthRecords.1 - 1)

theorem textDoc_eq {text : Option String} (h : ∀ s ∈ text, s ≠ "") :
    ∃ value : Option NonemptyString, textDoc text = optionalDoc value ∧ value.map Subtype.val = text := by
  cases text with
  | none => exact ⟨none, rfl, rfl⟩
  | some s => exact ⟨some ⟨s, h s rfl⟩, rfl, rfl⟩

theorem annotate_ok (sourceFingerprint : String) (position : Nat) (record : NormalizedTraceRecord) :
    ∃ a, annotate sha256 config sourceFingerprint position record = .ok a ∧
      Drawn config position record a := by
  obtain ⟨fault, hfault, hfaultMem⟩ := chooseSelected_ok sha256 config.faults_ne config.seed
    sourceFingerprint record.recordId.1 "fault" "fault-class"
  obtain ⟨wait, hwait, hwaitMem⟩ := chooseSelected_ok sha256 config.waits_ne config.seed
    sourceFingerprint record.recordId.1 "tool-wait" "tool-wait-choice"
  generalize hs : position / config.sessionLengthRecords.1 = sessionIndex
  generalize hl : position % config.sessionLengthRecords.1 = localIndex
  by_cases hroot : localIndex = 0
  · let a : ContinuityAnnotation :=
      { recordId := record.recordId, sessionId := ⟨sessionName sessionIndex, sessionName_ne _⟩,
        continuationId := ⟨continuationName sessionIndex localIndex, continuationName_ne _ _⟩,
        parentContinuationId := none, branchGroupId := none, toolWaitBeforeS := none, faultClass := fault }
    refine ⟨a, ?_, ⟨rfl, ?_, ?_, fun _ hw => (nomatch hw), hfaultMem, fun _ => ⟨rfl, rfl, rfl⟩,
      fun h => absurd (hl.trans hroot) h⟩⟩
    · rw [annotate, hs, hl, drawLinks, if_pos hroot, hfault]
      exact a.new_fields
    · rw [hs]
    · rw [hs, hl]
  · obtain ⟨parent, hparent⟩ : ∃ parent, drawParent sha256 config sourceFingerprint record.recordId.1
        sessionIndex localIndex = parent := ⟨_, rfl⟩
    obtain ⟨hlt, hbranch, hfork⟩ := drawParent_spec sha256 config sourceFingerprint record.recordId.1
      sessionIndex hroot hparent
    obtain ⟨branch, hdoc, hbranchEq⟩ := textDoc_eq hfork
    let a : ContinuityAnnotation :=
      { recordId := record.recordId, sessionId := ⟨sessionName sessionIndex, sessionName_ne _⟩,
        continuationId := ⟨continuationName sessionIndex localIndex, continuationName_ne _ _⟩,
        parentContinuationId := some ⟨continuationName sessionIndex parent.1, continuationName_ne _ _⟩,
        branchGroupId := branch, toolWaitBeforeS := wait, faultClass := fault }
    refine ⟨a, ?_, ⟨rfl, ?_, ?_, hwaitMem, hfaultMem, fun h => absurd (hl.symm.trans h) hroot, fun _ => ?_⟩⟩
    · rw [annotate, hs, hl, drawLinks, if_neg hroot, hwait, hfault, hparent]
      dsimp only
      rw [Except.ok_bind, pure_bind, Except.ok_bind, hdoc]
      exact a.new_fields
    · rw [hs]
    · rw [hs, hl]
    · rw [hs, hl]
      refine ⟨parent.1, hlt, _, rfl, rfl, ?_⟩
      rw [← hbranch, ← hbranchEq, ne_eq, ne_eq, Option.map_eq_none_iff]

end Draws

section Positions
variable {config : ContinuityAugmentationConfig}

/-- Every annotation was drawn at its own position. -/
def DrawnAll (config : ContinuityAugmentationConfig) (records : List NormalizedTraceRecord)
    (annotations : List ContinuityAnnotation) : Prop :=
  records.length = annotations.length ∧ ∀ (i : Nat) (hr : i < records.length) (ha : i < annotations.length),
    Drawn config i records[i] annotations[i]

theorem Drawn.session_iff (ha : Drawn config i r a) (hb : Drawn config j r' b) : b.sessionId = a.sessionId ↔
    j / config.sessionLengthRecords.1 = i / config.sessionLengthRecords.1 := by
  constructor
  · intro h
    have hname := congrArg Subtype.val h
    rw [hb.session, ha.session] at hname
    exact sessionName_injective hname
  · intro h
    apply Subtype.ext
    rw [hb.session, ha.session, h]

theorem session_position {length i p : Nat} (hpos : 0 < length) (h : p < i % length) :
    i / length * length + p < i ∧ (i / length * length + p) / length = i / length ∧
      (i / length * length + p) % length = p := by
  have hlt : p < length := h.trans (Nat.mod_lt i hpos)
  have hsplit := Nat.div_add_mod' i length
  refine ⟨by omega, ?_, ?_⟩
  · rw [Nat.mul_comm, Nat.mul_add_div hpos, Nat.div_eq_of_lt hlt, Nat.add_zero]
  · rw [Nat.mul_comm, Nat.mul_add_mod, Nat.mod_eq_of_lt hlt]

theorem Drawn.opens {annotations : List ContinuityAnnotation} {records : List NormalizedTraceRecord}
    (hall : DrawnAll config records annotations) {i : Nat} (hi : i < annotations.length)
    (hroot : i % config.sessionLengthRecords.1 = 0) : Root (annotations.take i) annotations[i] := by
  have hdrawn := hall.2 i (hall.1 ▸ hi) hi
  obtain ⟨hparent, hbranch, hwait⟩ := hdrawn.root hroot
  refine ⟨fun b hb heq => ?_, hparent, hbranch, hwait⟩
  obtain ⟨j, hj, rfl⟩ := List.mem_take_iff_getElem.mp hb
  have hji : j < i := (lt_min_iff.mp hj).1
  have hother := hall.2 j (hall.1 ▸ (lt_min_iff.mp hj).2) (lt_min_iff.mp hj).2
  have hsame := (hdrawn.session_iff hother).mp heq
  have hstart : i / config.sessionLengthRecords.1 * config.sessionLengthRecords.1 = i :=
    Nat.div_mul_cancel (Nat.dvd_of_mod_eq_zero hroot)
  have hle := Nat.div_mul_le_self j config.sessionLengthRecords.1
  rw [hsame, hstart] at hle
  omega

theorem Drawn.continues {annotations : List ContinuityAnnotation} {records : List NormalizedTraceRecord}
    (hall : DrawnAll config records annotations) {i : Nat} (hi : i < annotations.length)
    (hchild : i % config.sessionLengthRecords.1 ≠ 0) : Child (annotations.take i) annotations[i] := by
  have hdrawn := hall.2 i (hall.1 ▸ hi) hi
  obtain ⟨index, hindex, parent, hparent, hname, hbranch⟩ := hdrawn.child hchild
  -- the annotations at the places of the parent and of the record before
  have hat (p : Nat) (hp : p < i % config.sessionLengthRecords.1) : ∃ b ∈ annotations.take i,
      annotations[i / config.sessionLengthRecords.1 * config.sessionLengthRecords.1 + p]? = some b ∧
      b.sessionId = annotations[i].sessionId ∧
      b.continuationId.1 = continuationName (i / config.sessionLengthRecords.1) p := by
    obtain ⟨hlt, hdiv, hmod⟩ := session_position config.sessionLengthRecords.2 hp
    generalize i / config.sessionLengthRecords.1 * config.sessionLengthRecords.1 + p = q at hlt hdiv hmod
    have hq : q < annotations.length := hlt.trans hi
    have hother := hall.2 q (hall.1 ▸ hq) hq
    refine ⟨annotations[q], List.mem_take_iff_getElem.mpr ⟨q, lt_min hlt hq, rfl⟩,
      List.getElem?_eq_getElem hq, (hdrawn.session_iff hother).mpr hdiv, ?_⟩
    rw [hother.continuation, hdiv, hmod]
  have hsame (p : Nat) {b : ContinuityAnnotation}
      (hb : b.continuationId.1 = continuationName (i / config.sessionLengthRecords.1) p) :
      annotations[i].parentContinuationId = some b.continuationId ↔ index = p := by
    rw [Option.mem_def.mp hparent, Option.some.injEq]
    constructor
    · intro h
      have hnames := congrArg Subtype.val h
      rw [hname, hb] at hnames
      exact (continuationName_injective hnames).2
    · intro h
      apply Subtype.ext
      rw [hname, hb, h]
  obtain ⟨last, -, hlast, hlastSession, hlastName⟩ := hat (i % config.sessionLengthRecords.1 - 1) (by omega)
  obtain ⟨b, hb, -, hbSession, hbName⟩ := hat index hindex
  have hsplit := Nat.div_add_mod' i config.sessionLengthRecords.1
  refine ⟨⟨last, ?_, hlastSession, ?_⟩, b, hb, (hsame index hbName).mpr rfl, hbSession⟩
  · have hplace : i / config.sessionLengthRecords.1 * config.sessionLengthRecords.1 +
        (i % config.sessionLengthRecords.1 - 1) = i - 1 := by omega
    rw [hplace] at hlast
    have hmin : min i annotations.length = i := Nat.min_eq_left hi.le
    rw [Option.mem_def, List.getLast?_eq_getElem?, List.length_take, hmin, List.getElem?_take]
    rw [if_pos (by omega)]
    exact hlast
  · rw [hbranch, ne_eq, ne_eq, hsame _ hlastName]

theorem DrawnAll.admissible {annotations : List ContinuityAnnotation} {records : List NormalizedTraceRecord}
    (hall : DrawnAll config records annotations) (i : Nat) (hi : i < annotations.length) :
    Admissible config (annotations.take i) annotations[i] := by
  have hdrawn := hall.2 i (hall.1 ▸ hi) hi
  refine ⟨hdrawn.wait_mem, hdrawn.fault_mem, ?_⟩
  by_cases hroot : i % config.sessionLengthRecords.1 = 0
  · exact .inl (Drawn.opens hall hi hroot)
  · exact .inr (Drawn.continues hall hi hroot)

theorem DrawnAll.continuations_nodup {annotations : List ContinuityAnnotation}
    {records : List NormalizedTraceRecord} (hall : DrawnAll config records annotations) :
    (annotations.map (·.continuationId)).Nodup := by
  rw [List.Nodup, List.pairwise_map, List.pairwise_iff_getElem]
  intro i j hi hj hij h
  have hnames := congrArg Subtype.val h
  rw [(hall.2 i (hall.1 ▸ hi) hi).continuation, (hall.2 j (hall.1 ▸ hj) hj).continuation] at hnames
  obtain ⟨hdiv, hmod⟩ := continuationName_injective hnames
  have hi' := Nat.div_add_mod' i config.sessionLengthRecords.1
  have hj' := Nat.div_add_mod' j config.sessionLengthRecords.1
  rw [hdiv, hmod, hj'] at hi'
  exact hij.ne hi'.symm

theorem DrawnAll.records_eq {annotations : List ContinuityAnnotation} {records : List NormalizedTraceRecord}
    (hall : DrawnAll config records annotations) :
    annotations.map (·.recordId) = records.map (·.recordId) := by
  refine List.ext_getElem ?_ fun i ha hr => ?_
  · rw [List.length_map, List.length_map, hall.1]
  · rw [List.length_map] at ha hr
    rw [List.getElem_map, List.getElem_map]
    exact (hall.2 i hr ha).record

end Positions

section Validity

/-- What the dataset promises of its annotations. -/
structure Valid (config : ContinuityAugmentationConfig) (annotations : List ContinuityAnnotation) :
    Prop where
  recordIds : (annotations.map (·.recordId)).Nodup
  continuationIds : (annotations.map (·.continuationId)).Nodup
  contiguous : ∀ (i j k : Nat) (hij : i ≤ j) (hjk : j ≤ k) (hk : k < annotations.length),
    annotations[i].sessionId = annotations[k].sessionId →
    annotations[j].sessionId = annotations[k].sessionId
  admissible : ∀ (i : Nat) (h : i < annotations.length),
    Admissible config (annotations.take i) annotations[i]

/-- A session that is left does not come back. -/
theorem contiguous_of_admissible {config : ContinuityAugmentationConfig}
    {annotations : List ContinuityAnnotation} (h : ∀ (i : Nat) (h : i < annotations.length),
      Admissible config (annotations.take i) annotations[i])
    {i j k : Nat} (hij : i ≤ j) (hjk : j ≤ k) (hk : k < annotations.length)
    (hsame : annotations[i].sessionId = annotations[k].sessionId) :
    annotations[j].sessionId = annotations[k].sessionId := by
  induction k, hjk using Nat.le_induction with
  | base => rfl
  | succ k hjk ih =>
    have hi : i < k + 1 := by omega
    rcases (h (k + 1) hk).linked with hroot | hchild
    · have hmem : annotations[i] ∈ annotations.take (k + 1) :=
        List.mem_take_iff_getElem.mpr ⟨i, lt_min hi (hi.trans hk), rfl⟩
      exact absurd hsame (hroot.fresh _ hmem)
    · obtain ⟨last, hlast, hsession, -⟩ := hchild.last
      have hlast' : last = annotations[k] := by
        rw [Option.mem_def, List.getLast?_eq_getElem?, List.length_take, Nat.min_eq_left hk.le,
          Nat.add_sub_cancel, List.getElem?_take, if_pos (Nat.lt_succ_self k),
          List.getElem?_eq_getElem (Nat.lt_of_succ_lt hk)] at hlast
        exact (Option.some.inj hlast).symm
      rw [hlast'] at hsession
      rw [← hsession] at hsame ⊢
      exact ih (Nat.lt_of_succ_lt hk) hsame

theorem valid_of_postInit {d : ContinuityAugmentationDataset} (h : d.postInit = .ok d) :
    Valid d.config d.annotations := by
  obtain ⟨⟨-, -, hrecords, hcontinuations, hwalk⟩, -⟩ :=
    ContinuityAugmentationDataset.postInit_ok.mp h
  have hadmissible := (foldlM_checkEntry walked_nil hcontinuations).mp hwalk
  exact ⟨hrecords, hcontinuations, fun _ _ _ hij hjk hk => contiguous_of_admissible hadmissible hij hjk hk,
    hadmissible⟩

/-- JSON text is one codec of the floats of the machine. -/
instance : Inhabited (Codec Binary64 FiniteFloat) := ⟨jsonCodec binary64Coding⟩

variable (sha256 : String → Digest) (codec : Codec Binary64 FiniteFloat)

theorem augmentTrace_ok (source : NormalizedTraceDataset) (config : ContinuityAugmentationConfig) :
    ∃ d, augmentTrace sha256 codec source config = .ok d ∧ d.config = config ∧ d.postInit = .ok d ∧
      d.sourceDatasetFingerprint.1 = source.fingerprint codec sha256 ∧
      d.annotations.map (·.recordId) = source.sourceOrder.map (·.recordId) := by
  have htotal : ∀ p ∈ source.sourceOrder.zipIdx,
      ∃ a, annotate sha256 config (source.fingerprint codec sha256) p.2 p.1 = .ok a := by
    intro p _
    obtain ⟨a, ha, _⟩ := annotate_ok sha256 config (source.fingerprint codec sha256) p.2 p.1
    exact ⟨a, ha⟩
  obtain ⟨annotations, hannotations⟩ := Except.mapM_total htotal
  obtain ⟨hlength, hat⟩ := List.forall₂_iff_get.mp (Except.mapM_eq_ok.mp hannotations)
  rw [List.length_zipIdx] at hlength
  have hall : DrawnAll config source.sourceOrder annotations := by
    refine ⟨hlength, fun i hr ha => ?_⟩
    obtain ⟨a, hi, hdrawn⟩ := annotate_ok sha256 config (source.fingerprint codec sha256) i
      source.sourceOrder[i]
    have hgot := hat i (by rwa [List.length_zipIdx]) ha
    rw [List.get_eq_getElem, List.get_eq_getElem, List.getElem_zipIdx, Nat.zero_add, hi] at hgot
    rw [← Except.ok.inj hgot]
    exact hdrawn
  have hne : annotations ≠ [] := by
    intro hnil
    rw [hnil] at hlength
    exact source.records_ne (List.eq_nil_of_length_eq_zero hlength)
  have hrecords : (annotations.map (·.recordId)).Nodup := by
    rw [hall.records_eq]
    exact source.recordIds_nodup
  let fingerprint : Sha256 := ⟨source.fingerprint codec sha256, Digest.isSha256_hexdigest _⟩
  let d : ContinuityAugmentationDataset :=
    { sourceDatasetFingerprint := fingerprint, config, annotations }
  have hwalk := (foldlM_checkEntry walked_nil hall.continuations_nodup).mpr hall.admissible
  have hd : d.postInit = .ok d := ContinuityAugmentationDataset.postInit_ok.mpr
    ⟨⟨rfl, hne, hrecords, hall.continuations_nodup, hwalk⟩, rfl⟩
  refine ⟨d, ?_, rfl, hd, rfl, hall.records_eq⟩
  have hsha := requireSha256_str fingerprint "source_dataset_fingerprint"
  rw [augmentTrace, hannotations, Except.ok_bind, hsha, Except.ok_bind]
  exact hd

/-- The augmentation of a trace is valid, follows its source, survives its text and reproduces. -/
theorem augmentTrace_reproducible (source : NormalizedTraceDataset)
    (config : ContinuityAugmentationConfig) :
    ∃ d, augmentTrace sha256 codec source config = .ok d ∧ d.config = config ∧ d.postInit = .ok d ∧
      Valid config d.annotations ∧ d.annotations.map (·.recordId) = source.sourceOrder.map (·.recordId) ∧
      ContinuityAugmentationDataset.fromJson codec (d.toJson codec) = .ok d ∧
      d.assertReproducible sha256 codec source = .ok d := by
  obtain ⟨d, hd, rfl, hok, hfingerprint, hrecords⟩ := augmentTrace_ok sha256 codec source config
  refine ⟨d, hd, rfl, hok, valid_of_postInit hok, hrecords,
    ContinuityAugmentationDataset.fromJson_toJson codec hok, ?_⟩
  have hcompatible : d.assertCompatibleSource sha256 codec source = .ok d := by
    rw [ContinuityAugmentationDataset.assertCompatibleSource, raiseIf,
      if_neg (not_not.mpr hfingerprint.symm),
      Except.ok_bind, raiseIf, if_neg (not_not.mpr hrecords)]
    rfl
  rw [ContinuityAugmentationDataset.assertReproducible, hcompatible, Except.ok_bind, hd, Except.ok_bind,
    raiseIf, if_neg (not_not.mpr rfl)]
  rfl

end Validity

end Cadi.Augmentation
