import Cadi.Calibration.Digests
import Mathlib.Algebra.BigOperators.Group.List.Basic

namespace Cadi.Calibration
open Library
set_option autoImplicit true

section Documents

/-- The document of a row. -/
def rowJson (row : CsvRow) : Json := .obj (byKey (row.cells.entries.map fun p => (p.1, cellJson p.2)))

theorem cellJson_sorted (v : Option String) : (cellJson v).sorted = cellJson v := by
  cases v with
  | none => rfl
  | some s => rfl

theorem cellJson_inj (h : cellJson v = cellJson w) : v = w := by
  cases v with
  | none => cases w with
    | none => rfl
    | some s => cases h
  | some s => cases w with
    | none => cases h
    | some t => rw [Json.str.inj h]

theorem rowJson_keys (row : CsvRow) :
    ((row.cells.entries.map fun p => (p.1, cellJson p.2)).map Prod.fst).Nodup := by
  rw [List.map_map]
  exact row.cells.nodup

theorem rowJson_sorted (row : CsvRow) : (rowJson row).sorted = rowJson row := by
  rw [rowJson, Json.sorted, byKey_sortedMembers, byKey_of_sorted (byKey_sorted _), sortedMembers_eq]
  refine congrArg Json.obj ((List.map_congr_left fun m hm => ?_).trans (List.map_id _))
  obtain ⟨p, _, rfl⟩ := List.mem_map.mp ((byKey_perm _).mem_iff.mp hm)
  rw [cellJson_sorted]
  rfl

theorem rowJson_writable (row : CsvRow) : (rowJson row).Writable := by
  have hcell (m : String × Json) (hm : m ∈ byKey (row.cells.entries.map fun p => (p.1, cellJson p.2))) :
      m.2.Writable := by
    obtain ⟨⟨k, v⟩, _, rfl⟩ := List.mem_map.mp ((byKey_perm _).mem_iff.mp hm)
    cases v with
    | none => exact ⟨rfl, rfl⟩
    | some s => exact ⟨rfl, rfl⟩
  exact .of_members (((byKey_perm _).map _).nodup_iff.mpr (rowJson_keys row)) hcell

theorem rowJson_dumps_inj (h : dumps (rowJson r) = dumps (rowJson r')) : rowJson r = rowJson r' := by
  have hsorted := dumps_inj (rowJson_writable r) (rowJson_writable r') h
  rwa [rowJson_sorted, rowJson_sorted] at hsorted

/-- Rows of one header are told apart by their documents. -/
theorem rowJson_inj (hkeys : r.cells.keys = r'.cells.keys) (h : rowJson r = rowJson r') :
    r.cells = r'.cells := by
  apply Dict.ext_of_keys hkeys
  intro k
  have hfind (row : CsvRow) : Dict.find (byKey (row.cells.entries.map fun p => (p.1, cellJson p.2))) k =
      (row.cells.get? k).map cellJson := by
    rw [find_perm (((byKey_perm _).map _).nodup_iff.mpr (rowJson_keys row)) (byKey_perm _),
      find_map_snd cellJson]
    rfl
  have hmap := hfind r
  rw [Json.obj.inj h, hfind r'] at hmap
  exact (Option.map_injective (fun _ _ => cellJson_inj) hmap).symm

theorem sortedRow_eq_ok : sortedRow row = .ok j ↔ row.rest = none ∧ rowJson row = j := by
  rw [sortedRow, Except.then_eq_ok, raiseIf_eq_ok, not_not, Except.pure_eq_ok]
  rfl

end Documents

section Duplicates
variable {rows rows' : List CsvRow}

/-- The rows of one header: each name has its cell in each of them. -/
def SameKeys (rows : List CsvRow) : Prop := ∀ r ∈ rows, ∀ r' ∈ rows, r.cells.keys = r'.cells.keys

theorem eq_of_dumps (hkeys : SameKeys rows) (hr : r ∈ rows) (hr' : r' ∈ rows) (hrest : r.rest = none)
    (hrest' : r'.rest = none) (h : dumps (rowJson r) = dumps (rowJson r')) : r = r' := by
  have hcells := rowJson_inj (hkeys r hr r' hr') (rowJson_dumps_inj h)
  obtain ⟨cells, rest⟩ := r
  obtain ⟨cells', rest'⟩ := r'
  rw [show rest = none from hrest, show rest' = none from hrest', show cells = cells' from hcells]

/-- Dropping duplicates keeps one of each document that was not seen before. -/
theorem dropExactDuplicateRows_spec (h : dropExactDuplicateRows seen rows = .ok ys) :
    (∀ r ∈ rows, r.rest = none) ∧ (∀ r ∈ ys, r ∈ rows ∧ dumps (rowJson r) ∉ seen) ∧
      (∀ r ∈ rows, dumps (rowJson r) ∈ seen ∨ ∃ r' ∈ ys, dumps (rowJson r') = dumps (rowJson r)) ∧
      (ys.map fun r => dumps (rowJson r)).Nodup := by
  induction rows generalizing seen ys with
  | nil =>
    rw [dropExactDuplicateRows, Except.pure_eq_ok] at h
    rw [← h]
    exact ⟨fun _ hr => (List.not_mem_nil hr).elim, fun _ hr => (List.not_mem_nil hr).elim,
      fun _ hr => (List.not_mem_nil hr).elim, List.nodup_nil⟩
  | cons row rows ih =>
    rw [dropExactDuplicateRows, Except.bind_eq_ok] at h
    obtain ⟨j, hj, h⟩ := h
    obtain ⟨hrest, rfl⟩ := sortedRow_eq_ok.mp hj
    simp only at h
    split at h
    · next hseen =>
      obtain ⟨hrests, hsub, hall, hnodup⟩ := ih h
      refine ⟨List.forall_mem_cons.mpr ⟨hrest, hrests⟩, fun r hr => ?_,
        List.forall_mem_cons.mpr ⟨.inl hseen, hall⟩, hnodup⟩
      exact ⟨List.mem_cons_of_mem _ (hsub r hr).1, (hsub r hr).2⟩
    · next hnew =>
      rw [Except.bind_eq_ok] at h
      obtain ⟨zs, hzs, h⟩ := h
      rw [Except.pure_eq_ok] at h
      obtain ⟨hrests, hsub, hall, hnodup⟩ := ih hzs
      rw [← h]
      refine ⟨List.forall_mem_cons.mpr ⟨hrest, hrests⟩,
        List.forall_mem_cons.mpr ⟨⟨List.mem_cons_self, hnew⟩,
        fun r hr => ?_⟩, List.forall_mem_cons.mpr ⟨.inr ⟨row, List.mem_cons_self, rfl⟩, fun r hr => ?_⟩, ?_⟩
      · exact ⟨List.mem_cons_of_mem _ (hsub r hr).1, fun hm => (hsub r hr).2 (List.mem_cons_of_mem _ hm)⟩
      · rcases hall r hr with hseen | ⟨r', hr', heq⟩
        · rcases List.mem_cons.mp hseen with heq | hseen
          · exact .inr ⟨row, List.mem_cons_self, heq.symm⟩
          · exact .inl hseen
        · exact .inr ⟨r', List.mem_cons_of_mem _ hr', heq⟩
      · rw [List.map_cons, List.nodup_cons]
        refine ⟨fun hm => ?_, hnodup⟩
        obtain ⟨r, hr, heq⟩ := List.mem_map.mp hm
        exact (hsub r hr).2 (heq ▸ List.mem_cons_self)

theorem dropExactDuplicateRows_total (h : ∀ r ∈ rows, r.rest = none) (seen : List String) :
    ∃ ys, dropExactDuplicateRows seen rows = .ok ys := by
  induction rows generalizing seen with
  | nil => exact ⟨[], rfl⟩
  | cons row rows ih =>
    obtain ⟨hrest, h⟩ := List.forall_mem_cons.mp h
    rw [dropExactDuplicateRows, sortedRow_eq_ok.mpr ⟨hrest, rfl⟩, Except.ok_bind]
    simp only
    split
    · exact ih h seen
    · obtain ⟨ys, hys⟩ := ih h (dumps (rowJson row) :: seen)
      exact ⟨row :: ys, by rw [hys]; rfl⟩

theorem mem_dropExactDuplicateRows (hkeys : SameKeys rows)
    (h : dropExactDuplicateRows [] rows = .ok ys) : ys.Nodup ∧ ∀ r, r ∈ ys ↔ r ∈ rows := by
  obtain ⟨hrests, hsub, hall, hnodup⟩ := dropExactDuplicateRows_spec h
  refine ⟨hnodup.of_map _, fun r => ⟨fun hr => (hsub r hr).1, fun hr => ?_⟩⟩
  rcases hall r hr with hseen | ⟨r', hr', heq⟩
  · cases hseen
  · have hmem := (hsub r' hr').1
    rwa [← eq_of_dumps hkeys hmem hr (hrests r' hmem) (hrests r hr) heq]

/-- Tables with the same rows, in any order and number, leave the same rows. -/
theorem dropExactDuplicateRows_agrees (hkeys : SameKeys rows) (hsame : ∀ r, r ∈ rows ↔ r ∈ rows') :
    Agrees List.Perm (dropExactDuplicateRows [] rows) (dropExactDuplicateRows [] rows') := by
  intro ys hys
  obtain ⟨hrests, _⟩ := dropExactDuplicateRows_spec hys
  obtain ⟨zs, hzs⟩ := dropExactDuplicateRows_total (fun r hr => hrests r ((hsame r).mpr hr)) []
  have hkeys' : SameKeys rows' := fun r hr r' hr' => hkeys r ((hsame r).mpr hr) r' ((hsame r').mpr hr')
  obtain ⟨hnodup, hmem⟩ := mem_dropExactDuplicateRows hkeys hys
  obtain ⟨hnodup', hmem'⟩ := mem_dropExactDuplicateRows hkeys' hzs
  refine ⟨zs, hzs, (List.perm_ext_iff_of_nodup hnodup hnodup').mpr fun r => ?_⟩
  rw [hmem, hmem', hsame]

end Duplicates

section Groups
variable {b : Builtins} {rows rows' : List CsvRow} {groups groups' : Dict Int (List CsvRow)}

theorem groupAt_set (groups : Dict Int (List CsvRow)) (k x : Int) (g : List CsvRow) :
    groupAt (groups.set k g) x = if k = x then g else groupAt groups x := by
  unfold groupAt
  rw [Dict.get?_set]
  split <;> rfl

theorem groupByInt_spec (groups : Dict Int (List CsvRow)) {key : CsvRow → Int}
    (h : ∀ r ∈ rows, intOf b r column = .ok (key r)) :
    ∃ d, groupByInt b column groups rows = .ok d ∧ ∀ k, groupAt d k = groupAt groups k ++
      rows.filter (key · = k) ∧ (k ∈ d ↔ k ∈ groups ∨ ∃ r ∈ rows, key r = k) := by
  induction rows generalizing groups with
  | nil =>
    refine ⟨groups, rfl, fun k => ⟨(List.append_nil _).symm, .inl, fun hk => ?_⟩⟩
    exact hk.resolve_right fun ⟨_, hr, _⟩ => List.not_mem_nil hr
  | cons row rows ih =>
    obtain ⟨hrow, h⟩ := List.forall_mem_cons.mp h
    obtain ⟨d, hd, hall⟩ := ih (groups.set (key row) (groupAt groups (key row) ++ [row])) h
    refine ⟨d, ?_, fun k => ?_⟩
    · rw [groupByInt, hrow, Except.ok_bind]
      exact hd
    · obtain ⟨hgroup, hmem⟩ := hall k
      rw [hgroup, hmem, groupAt_set, Dict.mem_set, List.filter_cons]
      by_cases hk : key row = k
      · subst hk
        simp only [↓reduceIte, decide_true, List.append_assoc, List.cons_append, List.nil_append, true_or,
          List.mem_cons, exists_eq_or_imp, or_true, and_self]
      · simp only [hk, ↓reduceIte, decide_false, Bool.false_eq_true, false_or, List.mem_cons,
          exists_eq_or_imp, and_self]

theorem groupByInt_ints (h : groupByInt b column groups rows = .ok d) :
    ∀ r ∈ rows, ∃ n, intOf b r column = .ok n := by
  induction rows generalizing groups with
  | nil => exact fun _ hr => (List.not_mem_nil hr).elim
  | cons row rows ih =>
    rw [groupByInt] at h
    obtain ⟨n, hn, h⟩ := Except.bind_eq_ok.mp h
    exact List.forall_mem_cons.mpr ⟨⟨n, hn⟩, ih h⟩

/-- The same keys, with the same rows in some order. -/
def SameGroups (groups groups' : Dict Int (List CsvRow)) : Prop :=
  ∀ k, (k ∈ groups ↔ k ∈ groups') ∧ (groupAt groups k).Perm (groupAt groups' k)

theorem groupByInt_agrees (h : rows.Perm rows') :
    Agrees SameGroups (groupByInt b column ∅ rows) (groupByInt b column ∅ rows') := by
  intro d hd
  have hint : ∀ r ∈ rows, intOf b r column = .ok (((intOf b r column).toOption).getD 0) := by
    intro r hr
    obtain ⟨n, hn⟩ := groupByInt_ints hd r hr
    rw [hn]
    rfl
  obtain ⟨d₁, hd₁, hall⟩ := groupByInt_spec ∅ hint
  obtain ⟨d', hd', hall'⟩ := groupByInt_spec ∅ fun r hr => hint r (h.mem_iff.mpr hr)
  obtain rfl : d₁ = d := Except.ok.inj (hd₁.symm.trans hd)
  refine ⟨d', hd', fun k => ?_⟩
  rw [(hall k).1, (hall k).2, (hall' k).1, (hall' k).2]
  refine ⟨or_congr_right ?_, (h.filter _).append_left _⟩
  exact exists_congr fun r => and_congr_left fun _ => h.mem_iff

theorem SameGroups.sortedKeys (h : SameGroups groups groups') :
    sortedBy id groups.keys = sortedBy id groups'.keys := by
  refine sortedBy_perm (fun _ _ _ _ hab => hab) ?_
  refine (List.perm_ext_iff_of_nodup groups.nodup groups'.nodup).mpr fun k => ?_
  exact Dict.mem_keys_iff.trans (Dict.mem_iff.symm.trans ((h k).1.trans (Dict.mem_iff.trans
    Dict.mem_keys_iff.symm)))

end Groups

section References
variable {b : Builtins} {mlp mlp' attention attention' transfer transfer' : List CsvRow}

theorem meanOf_perm {l l' : List ℚ} (h : l.Perm l') : Agrees Eq (meanOf l) (meanOf l') := by
  unfold meanOf
  refine (Agrees.raiseIf fun hnil => ?_).bind fun _ _ _ _ => ?_
  · rw [hnil] at h
    exact h.eq_nil
  · refine (Agrees.raiseIf fun ⟨v, hv, hneg⟩ => ⟨v, h.mem_iff.mpr hv, hneg⟩).bind fun _ _ _ _ => ?_
    rw [h.sum_eq, h.length_eq]
    exact .refl (fun _ => rfl) _

theorem columnMean_perm (h : mlp.Perm mlp') :
    Agrees Eq (columnMean b column mlp) (columnMean b column mlp') :=
  (Agrees.mapM_perm h).bind fun _ _ _ => meanOf_perm

theorem composeComponents_perm (hm : mlp.Perm mlp') (ha : attention.Perm attention') :
    Agrees Eq (composeComponents b mlp attention target) (composeComponents b mlp' attention' target) := by
  unfold composeComponents
  refine (columnMean_perm hm).bind_eq fun _ _ => (columnMean_perm hm).bind_eq fun _ _ =>
    (columnMean_perm hm).bind_eq fun _ _ => (columnMean_perm hm).bind_eq fun _ _ =>
    (columnMean_perm hm).bind_eq fun _ _ => (columnMean_perm hm).bind_eq fun _ _ =>
    (columnMean_perm hm).bind_eq fun _ _ => (columnMean_perm hm).bind_eq fun _ _ =>
    (columnMean_perm hm).bind_eq fun _ _ => (columnMean_perm ha).bind_eq fun _ _ => ?_
  refine (Agrees.mapM_perm ha).bind fun _ _ _ hvalues => (meanOf_perm hvalues).bind_eq fun _ _ => ?_
  exact .refl (fun _ => rfl) _

/-- Rows in their canonical order hide the order in which they came. -/
theorem canonicalRows_perm (h : mlp.Perm mlp') : Agrees Eq (canonicalRows mlp) (canonicalRows mlp') := by
  refine (Agrees.mapM_perm h).bind fun ys zs hys hperm => .pure (sortedBy_perm ?_ hperm)
  have hrow (j : Json) (hj : j ∈ ys) : ∃ r, rowJson r = j := by
    obtain ⟨r, _, hr⟩ := Except.mapM_source hys hj
    exact ⟨r, (sortedRow_eq_ok.mp hr).2⟩
  intro i hi j hj hij
  obtain ⟨r, rfl⟩ := hrow i hi
  obtain ⟨r', rfl⟩ := hrow j hj
  exact rowJson_dumps_inj hij

theorem derivationIdOf_perm (hm : mlp.Perm mlp') (ha : attention.Perm attention')
    (ht : transfer.Perm transfer') :
    Agrees Eq (derivationIdOf b hardwareId kind axis mlp attention transfer)
      (derivationIdOf b hardwareId kind axis mlp' attention' transfer') := by
  refine (canonicalRows_perm hm).bind_eq fun _ _ => (canonicalRows_perm ha).bind_eq fun _ _ =>
    (canonicalRows_perm ht).bind_eq fun _ _ => ?_
  exact .refl (fun _ => rfl) _

theorem computeAt_perm (hm : mlp.Perm mlp') (ha : attention.Perm attention') :
    Agrees Eq (computeAt b hardwareId kind axis mlp attention target artifacts)
      (computeAt b hardwareId kind axis mlp' attention' target artifacts) := by
  refine (composeComponents_perm hm ha).bind_eq fun components _ => ?_
  unfold computeReference
  refine (derivationIdOf_perm hm ha (.refl [])).bind_eq fun _ _ => ?_
  rw [hm.length_eq, ha.length_eq]
  exact .refl (fun _ => rfl) _

theorem transferReference_perm (h : transfer.Perm transfer') :
    Agrees Eq (transferReference b hardwareId axis transfer artifacts)
      (transferReference b hardwareId axis transfer' artifacts) := by
  refine (columnMean_perm h).bind_eq fun _ _ =>
    (derivationIdOf_perm (.refl []) (.refl []) h).bind_eq fun _ _ => ?_
  rw [h.length_eq]
  exact .refl (fun _ => rfl) _

/-- The references forget the order of the distinct rows. -/
theorem deriveFromRows_perm (ha : attention.Perm attention') (hm : mlp.Perm mlp')
    (ht : transfer.Perm transfer') : Agrees Eq (deriveFromRows b hardwareId attention mlp transfer)
      (deriveFromRows b hardwareId attention' mlp' transfer') := by
  unfold deriveFromRows
  refine (Agrees.filterM_perm hm).bind fun mlpDomain _ _ hm => ?_
  refine (Agrees.filterM_perm ha).bind fun attentionDomain _ _ ha => ?_
  refine (Agrees.filterM_perm ha).bind fun coldRows _ _ hcold => ?_
  refine (Agrees.filterM_perm ha).bind fun decodeRows _ _ hdecode => ?_
  refine (Agrees.filterM_perm ht).bind fun transferRows _ _ ht => ?_
  refine (Agrees.raiseIf fun hempty => ?_).bind fun _ _ _ _ => ?_
  · refine hempty.imp (fun h => ?_) (.imp (fun h => ?_) (.imp (fun h => ?_) fun h => ?_))
    · exact (h ▸ hm).eq_nil
    · exact (h ▸ hcold).eq_nil
    · exact (h ▸ hdecode).eq_nil
    · exact (h ▸ ht).eq_nil
  refine (groupByInt_agrees hm).bind fun mlpByTokens _ _ hm => ?_
  refine (groupByInt_agrees hcold).bind fun coldByAxis _ _ hcold => ?_
  refine (groupByInt_agrees hdecode).bind fun decodeByAxis _ _ hdecode => ?_
  refine (groupByInt_agrees ht).bind fun transferByAxis _ _ ht => ?_
  refine (Agrees.raiseIf fun hnot hmem => hnot ((hm 1).1.mp hmem)).bind fun _ _ _ _ => ?_
  refine (Agrees.refl (fun _ => rfl) _).bind_eq fun computeArtifacts _ => ?_
  refine (Agrees.refl (fun _ => rfl) _).bind_eq fun transferArtifacts _ => ?_
  rw [hcold.sortedKeys, hdecode.sortedKeys, ht.sortedKeys]
  refine (Agrees.mapM_eq fun axis _ => ?_).bind_eq fun cold _ => ?_
  · refine (Agrees.raiseIf fun hnot hmem => hnot ((hm axis).1.mp hmem)).bind fun _ _ _ _ => ?_
    exact computeAt_perm (hm axis).2 (hcold axis).2
  refine (Agrees.mapM_eq fun axis _ => computeAt_perm (hm 1).2 (hdecode axis).2).bind_eq fun decode _ => ?_
  refine (Agrees.mapM_eq fun axis _ => transferReference_perm (ht axis).2).bind_eq fun transfer _ => ?_
  exact .refl (fun _ => rfl) _

end References

section Tables

/-- The second text has the header of the first and its data rows, in any order and number. -/
structure Rearranged (content content' : String) : Prop where
  rows : ∃ header records records', tableOf content = .ok (header :: records) ∧
    tableOf content' = .ok (header :: records') ∧ ∀ record, record ∈ records ↔ record ∈ records'

theorem Rearranged.symm (h : Rearranged content content') : Rearranged content' content := by
  obtain ⟨header, records, records', hread, hread', hsame⟩ := h.rows
  exact ⟨header, records', records, hread', hread, fun record => (hsame record).symm⟩

theorem sameKeys_csvRows (header : List String) (records : List (List String)) :
    SameKeys (csvRows header records) := by
  intro r hr r' hr'
  obtain ⟨record, _, rfl⟩ := List.mem_map.mp hr
  obtain ⟨record', _, rfl⟩ := List.mem_map.mp hr'
  exact csvRow_keys header record record'

theorem mem_csvRows {records records' : List (List String)}
    (h : ∀ record, record ∈ records ↔ record ∈ records') (row : CsvRow) :
    row ∈ csvRows header records ↔ row ∈ csvRows header records' := by
  unfold csvRows
  simp only [List.mem_map, List.mem_filter, h]

theorem not_blank_of_header (hread : tableOf content = .ok (header :: records)) (hname : name ∈ header)
    (hblank : isBlank name = false) : isBlank content = false := by
  obtain ⟨texts, htexts, hmap⟩ := Except.map_eq_ok.mp hread
  cases texts with
  | nil => cases hmap
  | cons first texts =>
    obtain ⟨hfirst, _⟩ := List.cons.inj hmap
    rw [← hfirst] at hname
    obtain ⟨cell, hcell, rfl⟩ := List.mem_map.mp hname
    rw [isBlank, List.all_eq_false] at hblank
    obtain ⟨c, hc, hspace⟩ := hblank
    rw [String.toList_ofList] at hc
    have hmem := csvRecords_chars htexts first List.mem_cons_self cell hcell c hc
    exact List.all_eq_false.mpr ⟨c, (List.dropWhile_suffix _).subset hmem, hspace⟩

theorem textOf_mem (h : textOf row column = .ok text) : column ∈ row.cells := by
  unfold textOf at h
  split at h
  · next hget => exact Dict.mem_iff.mpr ⟨_, hget⟩
  · cases h

theorem readCsv_eq_ok : readCsv content name = .ok rows ↔ isBlank content = false ∧
    ∃ header records, tableOf content = .ok (header :: records) ∧ header ≠ [] ∧
      rows = csvRows header records ∧ rows ≠ [] := by
  rw [readCsv, Except.then_eq_ok, raiseIf_eq_ok, Bool.not_eq_true]
  refine and_congr_right fun _ => ?_
  cases htable : tableOf content with
  | error e => simp only [reduceCtorEq, false_and, exists_false]
  | ok table =>
    cases table with
    | nil => simp only [reduceCtorEq, Except.ok.injEq, false_and, exists_false]
    | cons header records =>
      cases header with
      | nil =>
        simp only [Except.ok.injEq, List.cons.injEq, reduceCtorEq, false_iff, not_exists, not_and]
        rintro header' records' ⟨rfl, _⟩ hne
        exact absurd rfl hne
      | cons first header =>
        simp only [Except.then_eq_ok, raiseIf_eq_ok, Except.pure_eq_ok, Except.ok.injEq,
          List.cons.injEq]
        constructor
        · rintro ⟨hne, rfl⟩
          exact ⟨_, _, ⟨rfl, rfl⟩, List.cons_ne_nil _ _, rfl, hne⟩
        · rintro ⟨header', records', ⟨rfl, rfl⟩, _, rfl, hne⟩
          exact ⟨hne, rfl⟩

/-- The rows of a rearranged table are read, if only some name of its header is not blank. -/
theorem readCsv_rearranged (h : Rearranged content content') (hread : readCsv content name = .ok rows)
    (hcolumn : ∀ row ∈ rows, ∃ column ∈ row.cells, isBlank column = false) :
    ∃ rows', readCsv content' name = .ok rows' ∧ SameKeys rows ∧ ∀ r, r ∈ rows ↔ r ∈ rows' := by
  obtain ⟨header, records, records', htable, htable', hsame⟩ := h.rows
  obtain ⟨_, header₁, records₁, htable₁, hheader, rfl, hne⟩ := readCsv_eq_ok.mp hread
  obtain ⟨rfl, rfl⟩ := List.cons.inj (Except.ok.inj (htable₁.symm.trans htable))
  obtain ⟨row, hrow⟩ := List.exists_mem_of_ne_nil _ hne
  obtain ⟨column, hmem, hblank⟩ := hcolumn row hrow
  obtain ⟨record, _, rfl⟩ := List.mem_map.mp hrow
  have hcontent := not_blank_of_header htable' (mem_csvRow hmem) hblank
  refine ⟨csvRows header₁ records',
    readCsv_eq_ok.mpr ⟨hcontent, header₁, records', htable', hheader, rfl, ?_⟩,
    sameKeys_csvRows _ _, mem_csvRows hsame⟩
  exact List.ne_nil_of_mem ((mem_csvRows hsame _).mp hrow)

/-- The distinct rows of a rearranged table, if each row has some column that is not blank. -/
theorem distinctRows_rearranged (h : Rearranged content content') (hread : readCsv content name = .ok rows)
    (hdistinct : dropExactDuplicateRows [] rows = .ok ys)
    (hcolumn : ∀ row ∈ ys, ∃ column ∈ row.cells, isBlank column = false) :
    ∃ rows', readCsv content' name = .ok rows' ∧
      ∃ zs, dropExactDuplicateRows [] rows' = .ok zs ∧ ys.Perm zs := by
  have hkeys : SameKeys rows := by
    obtain ⟨_, header, records, _, _, rfl, _⟩ := readCsv_eq_ok.mp hread
    exact sameKeys_csvRows header records
  have hmem := (mem_dropExactDuplicateRows hkeys hdistinct).2
  obtain ⟨rows', hread', _, hsame⟩ := readCsv_rearranged h hread fun row hrow =>
    hcolumn row ((hmem row).mpr hrow)
  exact ⟨rows', hread', dropExactDuplicateRows_agrees hkeys hsame ys hdistinct⟩

variable {b : Builtins}

theorem intIs_mem (h : intIs b row column n = .ok v) : column ∈ row.cells := by
  obtain ⟨_, hint, _⟩ := Except.bind_eq_ok.mp h
  obtain ⟨_, htext, _⟩ := Except.bind_eq_ok.mp hint
  exact textOf_mem htext

theorem filterM_checks {rows ys : List CsvRow} {f : CsvRow → Except PyError Bool}
    (h : rows.filterM f = .ok ys) :
    ∀ row ∈ rows, ∃ v, f row = .ok v := by
  obtain ⟨p, hp, _⟩ := Agrees.filterM_total h
  exact fun row hrow => ⟨p row, hp row hrow⟩

theorem deriveFromRows_columns (h : deriveFromRows b hardwareId attention mlp transfer = .ok refs) :
    (∀ row ∈ attention, "n_embd" ∈ row.cells) ∧ (∀ row ∈ mlp, "n_head" ∈ row.cells) ∧
      ∀ row ∈ transfer, "collective" ∈ row.cells := by
  obtain ⟨_, hmlp, h⟩ := Except.bind_eq_ok.mp h
  obtain ⟨_, hattention, h⟩ := Except.bind_eq_ok.mp h
  obtain ⟨_, _, h⟩ := Except.bind_eq_ok.mp h
  obtain ⟨_, _, h⟩ := Except.bind_eq_ok.mp h
  obtain ⟨_, htransfer, _⟩ := Except.bind_eq_ok.mp h
  refine ⟨fun row hrow => ?_, fun row hrow => ?_, fun row hrow => ?_⟩
  · obtain ⟨_, hcheck⟩ := filterM_checks hattention row hrow
    obtain ⟨_, hfirst, _⟩ := Except.bind_eq_ok.mp hcheck
    exact intIs_mem hfirst
  · obtain ⟨_, hcheck⟩ := filterM_checks hmlp row hrow
    obtain ⟨_, hfirst, _⟩ := Except.bind_eq_ok.mp hcheck
    exact intIs_mem hfirst
  · obtain ⟨_, hcheck⟩ := filterM_checks htransfer row hrow
    obtain ⟨_, hfirst, _⟩ := Except.bind_eq_ok.mp hcheck
    obtain ⟨_, htext, _⟩ := Except.bind_eq_ok.mp hfirst
    exact textOf_mem htext

theorem deriveVidurReferenceCorpus_agrees (ha : Rearranged attention attention')
    (hm : Rearranged mlp mlp') (ht : Rearranged transfer transfer') :
    Agrees Eq (deriveVidurReferenceCorpus b hardwareId attention mlp transfer)
      (deriveVidurReferenceCorpus b hardwareId attention' mlp' transfer') := by
  intro refs h
  obtain ⟨hhardware, h⟩ := Except.then_eq_ok.mp h
  obtain ⟨attentionRows, hreadA, h⟩ := Except.bind_eq_ok.mp h
  obtain ⟨attentionYs, hdropA, h⟩ := Except.bind_eq_ok.mp h
  obtain ⟨mlpRows, hreadM, h⟩ := Except.bind_eq_ok.mp h
  obtain ⟨mlpYs, hdropM, h⟩ := Except.bind_eq_ok.mp h
  obtain ⟨sendRows, hreadS, h⟩ := Except.bind_eq_ok.mp h
  obtain ⟨sendYs, hdropS, h⟩ := Except.bind_eq_ok.mp h
  obtain ⟨hcolA, hcolM, hcolS⟩ := deriveFromRows_columns h
  obtain ⟨_, hreadA', attentionZs, hdropA', hpermA⟩ := distinctRows_rearranged ha hreadA hdropA
    fun row hrow => ⟨_, hcolA row hrow, by decide⟩
  obtain ⟨_, hreadM', mlpZs, hdropM', hpermM⟩ := distinctRows_rearranged hm hreadM hdropM
    fun row hrow => ⟨_, hcolM row hrow, by decide⟩
  obtain ⟨_, hreadS', sendZs, hdropS', hpermS⟩ := distinctRows_rearranged ht hreadS hdropS
    fun row hrow => ⟨_, hcolS row hrow, by decide⟩
  obtain ⟨refs', hrefs, rfl⟩ := deriveFromRows_perm hpermA hpermM hpermS refs h
  refine ⟨_, ?_, rfl⟩
  exact Except.then_eq_ok.mpr ⟨hhardware, Except.bind_eq_ok.mpr ⟨_, hreadA', Except.bind_eq_ok.mpr
    ⟨_, hdropA', Except.bind_eq_ok.mpr ⟨_, hreadM', Except.bind_eq_ok.mpr ⟨_, hdropM', Except.bind_eq_ok.mpr
      ⟨_, hreadS', Except.bind_eq_ok.mpr ⟨_, hdropS', hrefs⟩⟩⟩⟩⟩⟩⟩

/-- Rearranging the data rows of the tables changes neither whether the derivation raises nor what
it returns. -/
theorem deriveVidurReferenceCorpus_rearranged (b : Builtins) (hardwareId : String)
    (ha : Rearranged attention attention') (hm : Rearranged mlp mlp') (ht : Rearranged transfer transfer') :
    (deriveVidurReferenceCorpus b hardwareId attention mlp transfer).toOption =
      (deriveVidurReferenceCorpus b hardwareId attention' mlp' transfer').toOption :=
  (deriveVidurReferenceCorpus_agrees ha hm ht).toOption_eq
    (deriveVidurReferenceCorpus_agrees ha.symm hm.symm ht.symm)

/-- The text of a table. -/
def tableText (records : List (List String)) : String :=
  String.ofList (csvText (records.map (·.map String.toList)))

/-- Records whose text is read back as they are. -/
structure PlainTable (records : List (List String)) : Prop where
  plain : ∀ record ∈ records, PlainRecord (record.map String.toList)
  unmarked : (csvText (records.map (·.map String.toList))).head? ≠ some '\uFEFF'

instance : DecidablePred PlainTable := fun _ =>
  decidable_of_iff (_ ∧ _) ⟨fun h => ⟨h.1, h.2⟩, fun h => ⟨h.plain, h.unmarked⟩⟩

theorem tableOf_tableText (h : PlainTable records) : tableOf (tableText records) = .ok records := by
  have hdrop (s : Text) (hs : s.head? ≠ some '\uFEFF') : s.dropWhile (· = '\uFEFF') = s := by
    cases s with
    | nil => rfl
    | cons c s => exact List.dropWhile_cons_of_neg fun hc => hs (congrArg some (of_decide_eq_true hc))
  have hplain : ∀ record ∈ records.map (·.map String.toList), PlainRecord record := by
    intro record hrecord
    obtain ⟨cells, hcells, rfl⟩ := List.mem_map.mp hrecord
    exact h.plain cells hcells
  rw [tableOf, tableText, String.toList_ofList, hdrop _ h.unmarked, csvRecords_csvText hplain,
    Except.map_ok, List.map_map]
  refine congrArg Except.ok ((List.map_congr_left fun record _ => ?_).trans (List.map_id _))
  rw [Function.comp_apply, List.map_map]
  exact (List.map_congr_left fun cell _ => String.ofList_toList).trans (List.map_id _)

theorem Rearranged.of_records (h : PlainTable (header :: records)) (h' : PlainTable (header :: records'))
    (hsame : ∀ record, record ∈ records ↔ record ∈ records') :
    Rearranged (tableText (header :: records)) (tableText (header :: records')) :=
  ⟨header, records, records', tableOf_tableText h, tableOf_tableText h', hsame⟩

theorem readCsv_tableText (h : PlainTable (header :: records)) (hname : column ∈ header)
    (hblank : isBlank column = false) (hrows : csvRows header records ≠ []) :
    readCsv (tableText (header :: records)) name = .ok (csvRows header records) := by
  have htable := tableOf_tableText h
  refine readCsv_eq_ok.mpr
    ⟨not_blank_of_header htable hname hblank, header, records, htable, ?_, rfl, hrows⟩
  exact List.ne_nil_of_mem hname

theorem dropExactDuplicateRows_distinct {rows : List CsvRow} (hkeys : SameKeys rows)
    (hrests : ∀ r ∈ rows, r.rest = none) (hnodup : rows.Nodup) :
    ∃ ys, dropExactDuplicateRows [] rows = .ok ys ∧ rows.Perm ys := by
  obtain ⟨ys, hys⟩ := dropExactDuplicateRows_total hrests []
  obtain ⟨hnodup', hmem⟩ := mem_dropExactDuplicateRows hkeys hys
  exact ⟨ys, hys, (List.perm_ext_iff_of_nodup hnodup hnodup').mpr fun r => (hmem r).symm⟩

/-- A table that is read as its rows, which are told apart. -/
structure Distinct (header : List String) (records : List (List String)) : Prop where
  table : PlainTable (header :: records)
  named : ∃ column ∈ header, isBlank column = false
  rows : csvRows header records ≠ []
  rests : ∀ r ∈ csvRows header records, r.rest = none
  nodup : (csvRows header records).Nodup

theorem Distinct.reads (h : Distinct header records) (name : String) :
    ∃ ys, (do dropExactDuplicateRows [] (← readCsv (tableText (header :: records)) name)) = .ok ys ∧
      (csvRows header records).Perm ys := by
  obtain ⟨column, hmem, hblank⟩ := h.named
  obtain ⟨ys, hys, hperm⟩ := dropExactDuplicateRows_distinct (sameKeys_csvRows _ _) h.rests h.nodup
  refine ⟨ys, ?_, hperm⟩
  rw [readCsv_tableText h.table hmem hblank h.rows]
  exact hys

/-- From written tables is derived what their rows give, but for the names that the digest makes. -/
theorem deriveVidurReferenceCorpus_of_records {b : Builtins} (sha256 : String → String)
    (hhardware : hardwareId ∈ hardwareIds)
    (ha : Distinct header attention) (hm : Distinct header' mlp) (ht : Distinct header'' transfer) :
    Agrees (fun rs rs' => rs.map ProjectionReference.anonymous = rs'.map ProjectionReference.anonymous)
      (deriveFromRows b hardwareId (csvRows header attention) (csvRows header' mlp)
        (csvRows header'' transfer))
      (deriveVidurReferenceCorpus (b.digesting sha256) hardwareId (tableText (header :: attention))
        (tableText (header' :: mlp)) (tableText (header'' :: transfer))) := by
  intro rs hrs
  obtain ⟨attentionRows, hreadA, hpermA⟩ := ha.reads "attention_csv"
  obtain ⟨mlpRows, hreadM, hpermM⟩ := hm.reads "mlp_csv"
  obtain ⟨sendRows, hreadS, hpermS⟩ := ht.reads "send_recv_csv"
  obtain ⟨_, hrows, rfl⟩ := deriveFromRows_perm hpermA hpermM hpermS rs hrs
  obtain ⟨rs', hrs', hsame⟩ := deriveFromRows_digesting sha256 _ hrows
  obtain ⟨_, hreadA, hdropA⟩ := Except.bind_eq_ok.mp hreadA
  obtain ⟨_, hreadM, hdropM⟩ := Except.bind_eq_ok.mp hreadM
  obtain ⟨_, hreadS, hdropS⟩ := Except.bind_eq_ok.mp hreadS
  refine ⟨rs', Except.then_eq_ok.mpr ⟨raiseIf_eq_ok.mpr (not_not.mpr hhardware), ?_⟩, hsame⟩
  exact Except.bind_eq_ok.mpr ⟨_, hreadA, Except.bind_eq_ok.mpr ⟨_, hdropA, Except.bind_eq_ok.mpr
    ⟨_, hreadM, Except.bind_eq_ok.mpr ⟨_, hdropM, Except.bind_eq_ok.mpr ⟨_, hreadS,
      Except.bind_eq_ok.mpr ⟨_, hdropS, hrs'⟩⟩⟩⟩⟩⟩

section Examples

def attentionHeader : List String :=
  ["n_embd", "n_q_head", "n_kv_head", "block_size", "num_tensor_parallel_workers", "max_model_len",
    "attention_backend", "batch_size", "kv_cache_size", "prefill_chunk_size", "is_prefill",
    "time_stats.attn_prefill.median", "time_stats.attn_decode.median"]

def attentionRecord (cache chunk prefill : String) : List String :=
  ["4096", "32", "32", "16", "1", "4096", "FLASH_ATTENTION", "1", cache, chunk, prefill, "3", "2"]

/-- Four lengths of a cold prefill, and four caches of a decode. -/
def attentionRecords : List (List String) :=
  ["1", "2", "3", "4"].map (fun chunk => attentionRecord "0" chunk "True") ++
    ["1", "2", "3", "4"].map fun cache => attentionRecord cache "0" "False"

def mlpHeader : List String :=
  ["n_head", "n_kv_head", "n_embd", "n_expanded_embd", "vocab_size", "use_gated_mlp",
    "num_tensor_parallel_workers", "num_tokens", "time_stats.attn_pre_proj.median",
    "time_stats.attn_post_proj.median", "time_stats.attn_rope.median",
    "time_stats.input_layernorm.median", "time_stats.post_attention_layernorm.median",
    "time_stats.mlp_up_proj.median", "time_stats.mlp_down_proj.median", "time_stats.mlp_act.median",
    "time_stats.add.median"]

def mlpRecords : List (List String) := ["1", "2", "3", "4"].map fun tokens =>
  ["32", "32", "4096", "11008", "32768", "True", "1", tokens] ++ List.replicate 9 "1"

def transferHeader : List String :=
  ["collective", "rank", "num_workers", "devices_per_node", "size", "time_stats.send_recv.median"]

def transferRecords : List (List String) := ["1", "2", "3", "4"].map fun size =>
  ["send_recv", "0", "2", "2", size, "5"]

/-- Builtins for texts in ASCII whose numbers are digits. -/
def asciiBuiltins : Builtins where
  lower s := String.ofList (s.toList.map Char.toLower)
  int := digits
  float s := (digits s).map fun n => some n
  sha256 := id
where
  digits (s : String) : Option Int :=
    if s ≠ "" ∧ s.toList.all Char.isDigit then
      some (s.toList.foldl (fun n c => n * 10 + (c.toNat - '0'.toNat : Nat)) 0)
    else none

theorem distinct_attention : Distinct attentionHeader attentionRecords :=
  ⟨by decide +kernel, by decide +kernel, by decide +kernel, by decide +kernel, by decide +kernel⟩

theorem distinct_mlp : Distinct mlpHeader mlpRecords :=
  ⟨by decide +kernel, by decide +kernel, by decide +kernel, by decide +kernel, by decide +kernel⟩

theorem distinct_transfer : Distinct transferHeader transferRecords :=
  ⟨by decide +kernel, by decide +kernel, by decide +kernel, by decide +kernel, by decide +kernel⟩

/-- The records backwards, and the first of them again. -/
def shuffled (records : List (List String)) : List (List String) := records.reverse ++ records.take 1

theorem rearranged_shuffled (h : PlainTable (header :: records))
    (h' : PlainTable (header :: shuffled records)) :
    Rearranged (tableText (header :: records)) (tableText (header :: shuffled records)) := by
  refine .of_records h h' fun record => ?_
  rw [shuffled, List.mem_append, List.mem_reverse]
  exact ⟨Or.inl, Or.rec id List.mem_of_mem_take⟩

/-- Four references of each kind come from the tables, whatever the digest. -/
theorem derived_count (sha256 : String → String) :
    (deriveVidurReferenceCorpus (asciiBuiltins.digesting sha256) "a100-80gb"
      (tableText (attentionHeader :: attentionRecords)) (tableText (mlpHeader :: mlpRecords))
      (tableText (transferHeader :: transferRecords))).toOption.map List.length = some 12 := by
  have hrows : ((deriveFromRows (asciiBuiltins.digesting fun _ => "") "a100-80gb"
      (csvRows attentionHeader attentionRecords) (csvRows mlpHeader mlpRecords)
      (csvRows transferHeader transferRecords)).toOption.map List.length) = some 12 := by decide +kernel
  generalize hderived : deriveFromRows (asciiBuiltins.digesting fun _ => "") "a100-80gb"
    (csvRows attentionHeader attentionRecords) (csvRows mlpHeader mlpRecords)
    (csvRows transferHeader transferRecords) = derived at hrows
  cases derived with
  | error e => cases hrows
  | ok rs =>
    obtain ⟨rs', hrs', hsame⟩ := deriveVidurReferenceCorpus_of_records sha256 (by decide)
      distinct_attention distinct_mlp distinct_transfer rs hderived
    have hlengths := congrArg List.length hsame
    rw [List.length_map, List.length_map] at hlengths
    have hdigest : asciiBuiltins.digesting sha256 =
        (asciiBuiltins.digesting fun _ => "").digesting sha256 := rfl
    rw [hdigest, hrs', ← hrows]
    exact congrArg some hlengths.symm

end Examples

/-- Tables that derive a corpus, and the same with their rows shuffled. -/
theorem deriveVidurReferenceCorpus_rearranged_rows :
    (deriveVidurReferenceCorpus asciiBuiltins "a100-80gb" (tableText (attentionHeader :: attentionRecords))
        (tableText (mlpHeader :: mlpRecords)) (tableText (transferHeader :: transferRecords))).toOption =
      (deriveVidurReferenceCorpus asciiBuiltins "a100-80gb"
        (tableText (attentionHeader :: shuffled attentionRecords))
        (tableText (mlpHeader :: shuffled mlpRecords))
        (tableText (transferHeader :: shuffled transferRecords))).toOption ∧
    (deriveVidurReferenceCorpus asciiBuiltins "a100-80gb" (tableText (attentionHeader :: attentionRecords))
      (tableText (mlpHeader :: mlpRecords))
      (tableText (transferHeader :: transferRecords))).toOption.map List.length = some 12 :=
  ⟨deriveVidurReferenceCorpus_rearranged asciiBuiltins "a100-80gb"
    (rearranged_shuffled distinct_attention.table (by decide +kernel))
    (rearranged_shuffled distinct_mlp.table (by decide +kernel))
    (rearranged_shuffled distinct_transfer.table (by decide +kernel)), derived_count id⟩

end Tables

end Cadi.Calibration
