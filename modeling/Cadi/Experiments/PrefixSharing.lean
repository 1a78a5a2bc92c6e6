import Cadi.Experiments.Mooncake
import Cadi.Experiments.Normalized

namespace Cadi.Mooncake
open Library Fields Trace
set_option autoImplicit true

section Arrivals

/-- The loop counts how far the sequence can be followed. -/
theorem longestSeenPrefix_eq (t : Trie Nat) (shared : Nat) (hashIds : List Nat) :
    longestSeenPrefix t shared hashIds = shared + t.depth hashIds := by
  induction hashIds generalizing t shared with
  | nil => rfl
  | cons hashId hashIds ih =>
    rw [longestSeenPrefix, Trie.depth]
    cases t.child hashId with
    | none => rfl
    | some child =>
      dsimp only
      rw [ih, Nat.add_right_comm, Nat.add_assoc]

/-- A float divided by a larger number than one does not overflow. -/
theorem div_ok (t : Time) {v : Time} (hv : 2 ^ 1074 ≤ v.units) (hpositive : v.negative = false)
    (hpos : 0 < v.units) : ∃ q : Time, t.toBinary64.div v.toBinary64 = q.toBinary64 := by
  have hround : roundRatio (t.units * 2 ^ 1074) v.units ≤ t.units :=
    roundRatio_le t.representable (Nat.mul_le_mul_left t.units hv) hpos
  have hlt := hround.trans_lt t.representable.1
  have hsign : (t.negative != v.negative) = t.negative := by
    rw [hpositive]
    exact Bool.bne_false _
  refine ⟨⟨t.negative, roundRatio (t.units * 2 ^ 1074) v.units, roundRatio_representable hlt, ?_⟩, ?_⟩
  · intro hnegative
    rw [t.signed hnegative, Nat.zero_mul]
    exact roundRatio_zero hpos
  · simp only [Time.toBinary64, Binary64.div, Binary64.ofRatio, dif_pos hlt, hsign]

theorem arrivalOf_ok {timestampMs : Nat} (h : Time.ofNat? timestampMs ≠ none) :
    ∃ t : Time, arrivalOf timestampMs = .ok t.toBinary64 := by
  obtain ⟨t, ht⟩ := Option.ne_none_iff_exists'.mp h
  obtain ⟨q, hq⟩ := div_ok t (v := thousand) (Nat.le_mul_of_pos_left _ (by decide)) rfl
    (Nat.mul_pos (by decide) (Nat.two_pow_pos _))
  refine ⟨q, ?_⟩
  rw [arrivalOf, ht, orRaise, Option.elim_some, Except.ok_bind, hq]
  rfl

theorem arrivalOf_error {timestampMs : Nat} (h : Time.ofNat? timestampMs = none) :
    arrivalOf timestampMs = .error (.overflowError "int too large to convert to float") := by
  rw [arrivalOf, h, orRaise, Option.elim_none, Except.error_bind]

end Arrivals

section Records

/-- What the generator derives from a row that shares some blocks with an earlier one. -/
structure Derived (ordinal : Nat) (row : MooncakeSourceRow) (shared : Nat) (r : NormalizedTraceRecord) :
    Prop where
  recordId : r.recordId.1 = "mooncake-fast25:" ++ zeroPadded 5 ordinal
  sourceRecordId : r.sourceRecordId.1 = "jsonl-line:" ++ toString (ordinal + 1)
  sourceOrdinal : r.sourceOrdinal = ordinal
  arrivalTimeS : arrivalOf row.timestampMs = .ok r.arrivalTimeS.toBinary64
  inputTokens : r.inputTokens = some row.inputTokens
  outputTokens : r.outputTokens = some row.outputTokens
  prefixTokens : r.prefixTokens = some (min row.inputTokens (512 * shared))
  group_none : shared = 0 → r.prefixGroupId = none
  group_some : shared ≠ 0 → ∃ group ∈ r.prefixGroupId, ∃ hashId ∈ row.hashIds[shared - 1]?,
    group.1 = "mooncake-hash:" ++ toString hashId

theorem groupOf_ok {hashIds : List Nat} {shared : Nat} (h : shared ≤ hashIds.length) :
    ∃ group : Option NonemptyString, groupOf hashIds shared = .ok (optionalDoc group) ∧
      (shared = 0 → group = none) ∧ (shared ≠ 0 → ∃ g ∈ group, ∃ hashId ∈ hashIds[shared - 1]?,
        g.1 = "mooncake-hash:" ++ toString hashId) := by
  by_cases hzero : shared = 0
  · refine ⟨none, ?_, fun _ => rfl, fun hne => absurd hzero hne⟩
    rw [groupOf, if_pos hzero]
    rfl
  · have hlt : shared - 1 < hashIds.length := by omega
    have hget : hashIds[shared - 1]? = some hashIds[shared - 1] := List.getElem?_eq_getElem hlt
    refine ⟨some ⟨"mooncake-hash:" ++ toString hashIds[shared - 1], append_ne (by decide) _⟩, ?_,
      fun h => absurd h hzero, fun _ => ⟨_, rfl, hashIds[shared - 1], hget, rfl⟩⟩
    rw [groupOf, if_neg hzero, hget]
    rfl

theorem deriveRecord_ok (ordinal : Nat) {row : MooncakeSourceRow} {shared : Nat}
    (hshared : shared ≤ row.hashIds.length) (htime : Time.ofNat? row.timestampMs ≠ none) :
    ∃ r, deriveRecord ordinal row shared = .ok r ∧ Derived ordinal row shared r := by
  obtain ⟨group, hgroup, hnone, hsome⟩ := groupOf_ok hshared
  obtain ⟨arrival, harrival⟩ := arrivalOf_ok htime
  let r : NormalizedTraceRecord :=
    { recordId := ⟨"mooncake-fast25:" ++ zeroPadded 5 ordinal, append_ne (by decide) _⟩
      sourceRecordId := ⟨"jsonl-line:" ++ toString (ordinal + 1), append_ne (by decide) _⟩
      sourceOrdinal := ordinal, arrivalTimeS := arrival, inputTokens := some row.inputTokens
      outputTokens := some row.outputTokens, prefixGroupId := group
      prefixTokens := some (min row.inputTokens (mooncakePrefixBlockTokens * shared))
      prefix_le := fun tokens htokens => by
        obtain rfl := Option.mem_some.mp htokens
        exact ⟨row.inputTokens, rfl, Nat.min_le_left _ _⟩ }
  refine ⟨r, ?_, rfl, rfl, rfl, harrival, rfl, rfl, rfl, hnone, hsome⟩
  rw [deriveRecord, hgroup, Except.ok_bind, harrival, Except.ok_bind]
  exact r.new_fields

theorem deriveRecord_error (ordinal : Nat) {row : MooncakeSourceRow} {shared : Nat}
    (hshared : shared ≤ row.hashIds.length) (htime : Time.ofNat? row.timestampMs = none) :
    deriveRecord ordinal row shared = .error (.overflowError "int too large to convert to float") := by
  obtain ⟨group, hgroup, -, -⟩ := groupOf_ok hshared
  rw [deriveRecord, hgroup, Except.ok_bind, arrivalOf_error htime]
  rfl

/-- The blocks that a row shares with one of some earlier rows, at most. -/
def sharedWith (row : MooncakeSourceRow) (earlier : List MooncakeSourceRow) : Nat :=
  (earlier.map fun other => commonLength row.hashIds other.hashIds).foldl max 0

theorem foldl_max_le {l : List Nat} {n k : Nat} (hn : n ≤ k) (h : ∀ m ∈ l, m ≤ k) : l.foldl max n ≤ k := by
  induction l generalizing n with
  | nil => exact hn
  | cons m l ih =>
    exact ih (Nat.max_le.mpr ⟨hn, h m List.mem_cons_self⟩) fun x hx => h x (List.mem_cons_of_mem _ hx)

theorem sharedWith_le (row : MooncakeSourceRow) (earlier : List MooncakeSourceRow) :
    sharedWith row earlier ≤ row.hashIds.length := by
  refine foldl_max_le (Nat.zero_le _) fun m hm => ?_
  obtain ⟨other, -, rfl⟩ := List.mem_map.mp hm
  obtain ⟨p, hp, hprefix, -⟩ := le_commonLength_iff.mp (le_refl (commonLength row.hashIds other.hashIds))
  rw [← hp]
  exact hprefix.length_le

/-- The trie of the earlier rows. -/
def trieOf (earlier : List MooncakeSourceRow) : Trie Nat :=
  (earlier.map (·.hashIds)).foldl Trie.add .empty

theorem longestSeenPrefix_trieOf (row : MooncakeSourceRow) (earlier : List MooncakeSourceRow) :
    longestSeenPrefix (trieOf earlier) 0 row.hashIds = sharedWith row earlier := by
  rw [longestSeenPrefix_eq, Nat.zero_add, trieOf, Trie.depth_foldl, Trie.depth_empty, List.map_map]
  rfl

theorem trieOf_concat (earlier : List MooncakeSourceRow) (row : MooncakeSourceRow) :
    (trieOf earlier).add row.hashIds = trieOf (earlier ++ [row]) := by
  rw [trieOf, trieOf, List.map_append, List.foldl_append]
  rfl

end Records

section Runs

/-- The loop derives every row against the rows before it. -/
theorem deriveLoop_ok (rows earlier : List MooncakeSourceRow)
    (htimes : ∀ row ∈ rows, Time.ofNat? row.timestampMs ≠ none) :
    ∃ records, deriveLoop (trieOf earlier) earlier.length rows = .ok records ∧
      records.length = rows.length ∧ ∀ (i : Nat) (hi : i < rows.length) (hr : i < records.length),
        Derived (earlier.length + i) rows[i] (sharedWith rows[i] (earlier ++ rows.take i)) records[i] := by
  induction rows generalizing earlier with
  | nil => exact ⟨[], rfl, rfl, fun i hi => absurd hi (Nat.not_lt_zero i)⟩
  | cons row rows ih =>
    obtain ⟨r, hr, hderived⟩ := deriveRecord_ok earlier.length (sharedWith_le row earlier)
      (htimes row List.mem_cons_self)
    obtain ⟨records, hrecords, hlength, hall⟩ := ih (earlier ++ [row]) fun other hother =>
      htimes other (List.mem_cons_of_mem _ hother)
    rw [List.length_append, List.length_singleton] at hrecords hall
    refine ⟨r :: records, ?_, congrArg Nat.succ hlength, fun i hi hir => ?_⟩
    · rw [deriveLoop, longestSeenPrefix_trieOf, hr, Except.ok_bind, trieOf_concat, hrecords]
      rfl
    · cases i with
      | zero =>
        rw [List.take_zero, List.append_nil]
        exact hderived
      | succ i =>
        have hi' := hall i (Nat.lt_of_succ_lt_succ hi) (Nat.lt_of_succ_lt_succ hir)
        rw [Nat.add_assoc, Nat.add_comm 1 i, List.append_assoc] at hi'
        exact hi'

theorem deriveLoop_error (rows earlier : List MooncakeSourceRow)
    (htime : ∃ row ∈ rows, Time.ofNat? row.timestampMs = none) :
    deriveLoop (trieOf earlier) earlier.length rows =
      .error (.overflowError "int too large to convert to float") := by
  induction rows generalizing earlier with
  | nil =>
    obtain ⟨row, hrow, -⟩ := htime
    exact absurd hrow List.not_mem_nil
  | cons row rows ih =>
    rw [deriveLoop, longestSeenPrefix_trieOf]
    cases hrow : Time.ofNat? row.timestampMs with
    | none =>
      rw [deriveRecord_error earlier.length (sharedWith_le row earlier) hrow]
      rfl
    | some x =>
      have hne : Time.ofNat? row.timestampMs ≠ none := by
        rw [hrow]
        exact Option.some_ne_none x
      obtain ⟨r, hr, -⟩ := deriveRecord_ok earlier.length (sharedWith_le row earlier) hne
      obtain ⟨other, hother, hnone⟩ := htime
      have hlater : other ∈ rows := (List.mem_cons.mp hother).resolve_left fun heq => hne (heq ▸ hnone)
      have hrest := ih (earlier ++ [row]) ⟨other, hlater, hnone⟩
      rw [List.length_append, List.length_singleton] at hrest
      rw [hr, Except.ok_bind, trieOf_concat, hrest]
      rfl

end Runs

section Datasets

theorem mooncakeSteps_ne : ∀ step ∈ mooncakeSteps, step ≠ "" := by
  decide +kernel

theorem mooncakeSourceUri_ne : mooncakeSourceUri ≠ "" := by
  decide +kernel

theorem mooncakeSourceSha256_isSha256 : IsSha256 mooncakeSourceSha256 := by decide +kernel

/-- The manifest that the generator pins. -/
def pinnedManifest : TraceSourceManifest where
  sourceId := ⟨"mooncake-fast25-conversation", by decide⟩
  sourceName := ⟨"Mooncake FAST'25 conversation trace", by decide⟩
  sourceUri := ⟨mooncakeSourceUri, mooncakeSourceUri_ne⟩
  sourceVersion := ⟨mooncakeSourceRevision, by decide⟩
  licenseId := ⟨"Apache-2.0", by decide⟩
  sourceSha256 := ⟨mooncakeSourceSha256, mooncakeSourceSha256_isSha256⟩
  normalizationVersion := ⟨mooncakeNormalizationVersion, by decide⟩
  normalizationSteps := mooncakeSteps.attach.map fun step => ⟨step.1, mooncakeSteps_ne step.1 step.2⟩
  fieldOrigins := sortedBy (fun item => item.1.value) mooncakeOrigins
  steps_ne := by
    rw [Ne, List.map_eq_nil_iff, List.attach_eq_nil_iff]
    exact List.cons_ne_nil _ _
  origins_nodup := ((perm_sortedBy _ mooncakeOrigins).map Prod.fst).nodup_iff.mpr (by decide)
  arrival_mem := ((perm_sortedBy _ mooncakeOrigins).map Prod.fst).mem_iff.mpr (by decide)
  origins_ordered := pairwise_sortedBy _ _

theorem mooncakeManifest_ok :
    mooncakeManifest = .ok pinnedManifest ∧ ∀ field, field ∈ pinnedManifest.fieldOrigins.map Prod.fst := by
  refine ⟨?_, fun field => ?_⟩
  · have hsteps : (pinnedManifest.normalizationSteps.map fun step => (.str step.1 : Doc Binary64)) =
        mooncakeSteps.map .str := by
      rw [pinnedManifest, List.map_map]
      exact List.attach_map_val
    have hnew := pinnedManifest.new_fields
    rw [hsteps] at hnew
    exact TraceSourceManifest.new_perm (perm_sortedBy _ mooncakeOrigins) hnew
  · refine ((perm_sortedBy _ mooncakeOrigins).map Prod.fst).mem_iff.mpr ?_
    cases field <;> decide

/-- Every record names its own ordinal. -/
def Enumerated (records : List NormalizedTraceRecord) : Prop :=
  ∀ (i : Nat) (h : i < records.length), records[i].recordId.1 = "mooncake-fast25:" ++ zeroPadded 5 i ∧
    records[i].sourceRecordId.1 = "jsonl-line:" ++ toString (i + 1) ∧ records[i].sourceOrdinal = i

theorem Enumerated.nodup {records : List NormalizedTraceRecord} {f : NormalizedTraceRecord → α}
    {g : Nat → α} (hf : ∀ (i : Nat) (h : i < records.length), f records[i] = g i)
    (hg : ∀ i j, g i = g j → i = j) : (records.map f).Nodup := by
  rw [List.Nodup, List.pairwise_map, List.pairwise_iff_getElem]
  intro i j hi hj hij heq
  rw [hf i hi, hf j hj] at heq
  exact hij.ne (hg i j heq)

theorem Enumerated.dataset {records : List NormalizedTraceRecord} (h : Enumerated records)
    (hne : records ≠ []) :
    ∃ d, NormalizedTraceDataset.new pinnedManifest records = .ok d ∧ d.manifest = pinnedManifest ∧
      d.records = records := by
  have hrecords : (records.map (·.recordId)).Nodup := by
    have hvalues : (records.map fun r => r.recordId.1).Nodup :=
      Enumerated.nodup (fun i hi => (h i hi).1) fun i j hij =>
        zeroPadded_injective (String.append_right_inj _ |>.mp hij)
    exact List.Nodup.of_map Subtype.val (by rwa [List.map_map])
  have hsources : (records.map (·.sourceRecordId)).Nodup := by
    have hvalues : (records.map fun r => r.sourceRecordId.1).Nodup :=
      Enumerated.nodup (fun i hi => (h i hi).2.1) fun i j hij =>
        Nat.succ.inj (toString_injective (String.append_right_inj _ |>.mp hij))
    exact List.Nodup.of_map Subtype.val (by rwa [List.map_map])
  have hordinals : (records.map (·.sourceOrdinal)).Nodup :=
    Enumerated.nodup (fun i hi => (h i hi).2.2) fun i j hij => hij
  have hordered : records.Pairwise fun a b => a.sourceOrdinal ≤ b.sourceOrdinal := by
    rw [List.pairwise_iff_getElem]
    intro i j hi hj hij
    rw [(h i hi).2.2, (h j hj).2.2]
    exact hij.le
  have hdeclared : ∀ r ∈ records, ∀ field ∈ r.present, field ∈ pinnedManifest.fieldOrigins.map Prod.fst :=
    fun _ _ field _ => mooncakeManifest_ok.2 field
  let d : NormalizedTraceDataset := ⟨pinnedManifest, records, hne, hrecords, hsources, hordinals, hordered,
    hdeclared⟩
  exact ⟨d, d.new_own, rfl, rfl⟩

theorem deriveMooncakeRecords_loop {rows : List MooncakeSourceRow} (hne : rows ≠ []) :
    deriveMooncakeRecords rows = deriveLoop (trieOf []) 0 rows := by
  rw [deriveMooncakeRecords, raiseIf, if_neg (by rwa [List.isEmpty_iff])]
  rfl

/-- Every row gives one record, and the records form a dataset with the pinned manifest. -/
theorem deriveMooncakeRecords_dataset (rows : List MooncakeSourceRow) (hne : rows ≠ []) :
    ((∀ row ∈ rows, Time.ofNat? row.timestampMs ≠ none) →
      ∃ records d, deriveMooncakeRecords rows = .ok records ∧ records.length = rows.length ∧
        (∀ (i : Nat) (hi : i < rows.length) (hr : i < records.length),
          Derived i rows[i] (sharedWith rows[i] (rows.take i)) records[i]) ∧
        mooncakeManifest = .ok d.manifest ∧ NormalizedTraceDataset.new d.manifest records = .ok d ∧
        d.records = records) ∧
    ((∃ row ∈ rows, Time.ofNat? row.timestampMs = none) →
      deriveMooncakeRecords rows = .error (.overflowError "int too large to convert to float")) := by
  rw [deriveMooncakeRecords_loop hne]
  refine ⟨fun htimes => ?_, deriveLoop_error rows []⟩
  obtain ⟨records, hrecords, hlength, hall⟩ := deriveLoop_ok rows [] htimes
  have hderived (i : Nat) (hi : i < rows.length) (hr : i < records.length) :
      Derived i rows[i] (sharedWith rows[i] (rows.take i)) records[i] := by
    have hi' := hall i hi hr
    rwa [List.length_nil, Nat.zero_add, List.nil_append] at hi'
  have hnumbered : Enumerated records := fun i hr =>
    have hi := hderived i (hlength ▸ hr) hr
    ⟨hi.recordId, hi.sourceRecordId, hi.sourceOrdinal⟩
  have hsome : records ≠ [] := by
    intro hnil
    rw [hnil, List.length_nil] at hlength
    exact hne (List.length_eq_zero_iff.mp hlength.symm)
  obtain ⟨d, hd, hmanifest, hown⟩ := hnumbered.dataset hsome
  rw [← hmanifest] at hd
  exact ⟨records, d, hrecords, hlength, hderived, hmanifest ▸ mooncakeManifest_ok.1, hd, hown⟩

/-- Two conversations that share their first block. -/
theorem deriveMooncakeRecords_dataset_pair :
    ∃ records d, deriveMooncakeRecords [⟨0, 600, 1, [7, 8]⟩, ⟨1000, 300, 2, [7, 9]⟩] = .ok records ∧
      mooncakeManifest = .ok d.manifest ∧ NormalizedTraceDataset.new d.manifest records = .ok d :=
  have h := (deriveMooncakeRecords_dataset [⟨0, 600, 1, [7, 8]⟩, ⟨1000, 300, 2, [7, 9]⟩]
    (List.cons_ne_nil _ _)).1 (by decide +kernel)
  have ⟨records, d, hrecords, _, _, hmanifest, hd, _⟩ := h
  ⟨records, d, hrecords, hmanifest, hd⟩

/-- A timestamp beyond the floats stops the derivation. -/
theorem deriveMooncakeRecords_overflow :
    ¬ ∀ rows : List MooncakeSourceRow, rows ≠ [] → ∃ records, deriveMooncakeRecords rows = .ok records := by
  intro h
  obtain ⟨records, hrecords⟩ := h [⟨2 ^ 1024, 0, 0, []⟩] (List.cons_ne_nil _ _)
  have herror := deriveLoop_error [⟨2 ^ 1024, 0, 0, []⟩] []
    ⟨_, List.mem_singleton_self _, (by decide +kernel : Time.ofNat? (2 ^ 1024) = none)⟩
  rw [deriveMooncakeRecords_loop (List.cons_ne_nil _ _)] at hrecords
  exact nomatch herror.symm.trans hrecords

end Datasets

end Cadi.Mooncake
