import Cadi.Library.Checked
import Cadi.Library.Dict
import Cadi.Library.Numerals

namespace Library
set_option autoImplicit true

section Reading

inductive CsvError where
  | newlineInUnquotedField | fieldLarger
deriving DecidableEq

def fieldLimit : Nat := 131072

inductive CsvState where
  | startRecord | startField | inField | inQuotedField | quoteInQuotedField | eatCrnl
deriving DecidableEq

/-- The reader of the default dialect, with what it has read of the current record. -/
structure CsvReader where
  state : CsvState := .startRecord
  field : Text := []
  fields : List Text := []
  records : List (List Text) := []
deriving DecidableEq

namespace CsvReader

def addChar (m : CsvReader) (c : Char) : Except CsvError CsvReader :=
  if fieldLimit ≤ m.field.length then .error .fieldLarger else .ok { m with field := m.field ++ [c] }

def saveField (m : CsvReader) : CsvReader := { m with fields := m.fields ++ [m.field], field := [] }

def enter (m : CsvReader) (state : CsvState) : CsvReader := { m with state }

/-- Where a field ends with its line. -/
def endField (m : CsvReader) (c : Option Char) : CsvReader :=
  m.saveField.enter (if c = none then .startRecord else .eatCrnl)

/-- Whether the character ends a line; `none` is the end of what was read at once. -/
def isLineEnd (c : Option Char) : Bool := c = none ∨ c = some '\n' ∨ c = some '\r'

def startField (m : CsvReader) (c : Option Char) : Except CsvError CsvReader :=
  match c with
  | none => .ok (m.endField c)
  | some ch =>
    if isLineEnd c then .ok (m.endField c)
    else if ch = '"' then .ok (m.enter .inQuotedField)
    else if ch = ',' then .ok (m.saveField.enter .startField)
    else (·.enter .inField) <$> m.addChar ch

def processChar (m : CsvReader) (c : Option Char) : Except CsvError CsvReader :=
  match m.state, c with
  | .startRecord, none => .ok m
  | .startRecord, some ch =>
    if isLineEnd (some ch) then .ok (m.enter .eatCrnl) else m.startField (some ch)
  | .startField, c => m.startField c
  | .inField, none => .ok (m.endField none)
  | .inField, some ch =>
    if isLineEnd (some ch) then .ok (m.endField (some ch))
    else if ch = ',' then .ok (m.saveField.enter .startField)
    else m.addChar ch
  | .inQuotedField, none => .ok m
  | .inQuotedField, some ch =>
    if ch = '"' then .ok (m.enter .quoteInQuotedField) else m.addChar ch
  | .quoteInQuotedField, none => .ok (m.endField none)
  | .quoteInQuotedField, some ch =>
    if ch = '"' then (·.enter .inQuotedField) <$> m.addChar ch
    else if ch = ',' then .ok (m.saveField.enter .startField)
    else if isLineEnd (some ch) then .ok (m.endField (some ch))
    else (·.enter .inField) <$> m.addChar ch
  | .eatCrnl, none => .ok (m.enter .startRecord)
  | .eatCrnl, some ch =>
    if isLineEnd (some ch) then .ok m else .error .newlineInUnquotedField

/-- A record is complete when a line ends in the first state. -/
def completed (m : CsvReader) : CsvReader :=
  if m.state = .startRecord then { m with fields := [], records := m.records ++ [m.fields] } else m

def feed (m : CsvReader) (c : Option Char) : Except CsvError CsvReader := do
  let next ← m.processChar c
  return if c = none then next.completed else next

/-- At the end of the text an open quoted field is closed. -/
def close (m : CsvReader) : List (List Text) :=
  if m.field ≠ [] ∨ m.state = .inQuotedField then m.records ++ [m.saveField.fields] else m.records

end CsvReader

/-- The characters of the lines, each line followed by its end. -/
def lineChars : Text → List (Option Char)
  | [] => []
  | [c] => [some c, none]
  | c :: c' :: cs =>
    if c = '\n' then some c :: none :: lineChars (c' :: cs) else some c :: lineChars (c' :: cs)

/-- The records of a text. -/
def csvRecords (content : Text) : Except CsvError (List (List Text)) := do
  let m ← (lineChars content).foldlM CsvReader.feed {}
  return m.close

/-- A record under the names of a header; what exceeds the header has no name. -/
structure CsvRow where
  cells : Dict String (Option String)
  rest : Option (List String)
deriving DecidableEq

def csvRow (fieldnames row : List String) : CsvRow where
  cells := .ofList (fieldnames.zip (row.map some) ++
    (fieldnames.drop row.length).map fun name => (name, none))
  rest := if fieldnames.length < row.length then some (row.drop fieldnames.length) else none

/-- `DictReader`: the first record is the header, and empty records are skipped. -/
def csvRows (fieldnames : List String) (records : List (List String)) : List CsvRow :=
  (records.filter (· ≠ [])).map (csvRow fieldnames)

end Reading

section Characters
variable {P : Char → Prop}

/-- Every character read so far has a property. -/
structure CsvReader.Within (P : Char → Prop) (m : CsvReader) : Prop where
  field : ∀ c ∈ m.field, P c
  fields : ∀ cell ∈ m.fields, ∀ c ∈ cell, P c
  records : ∀ record ∈ m.records, ∀ cell ∈ record, ∀ c ∈ cell, P c

namespace CsvReader.Within
variable {m m' : CsvReader}

theorem enter (h : m.Within P) (state : CsvState) : (m.enter state).Within P :=
  ⟨h.field, h.fields, h.records⟩

theorem saveField (h : m.Within P) : m.saveField.Within P where
  field := fun _ hc => (List.not_mem_nil hc).elim
  fields := by
    intro cell hcell
    rcases List.mem_append.mp hcell with hcell | hcell
    · exact h.fields cell hcell
    · exact List.mem_singleton.mp hcell ▸ h.field
  records := h.records

theorem endField (h : m.Within P) (c : Option Char) : (m.endField c).Within P := h.saveField.enter _

theorem addChar (h : m.Within P) (hc : P ch) (hadd : m.addChar ch = .ok m') : m'.Within P := by
  unfold CsvReader.addChar at hadd
  split at hadd
  · cases hadd
  · rw [Except.ok.injEq] at hadd
    rw [← hadd]
    refine ⟨fun c hm => ?_, h.fields, h.records⟩
    rcases List.mem_append.mp hm with hm | hm
    · exact h.field c hm
    · exact List.mem_singleton.mp hm ▸ hc

theorem addChar_enter (h : m.Within P) (hc : P ch) {state : CsvState}
    (hadd : (·.enter state) <$> m.addChar ch = .ok m') : m'.Within P := by
  obtain ⟨n, hn, rfl⟩ := Except.map_eq_ok.mp hadd
  exact (h.addChar hc hn).enter state

theorem startField (h : m.Within P) (hc : ∀ ch, c = some ch → P ch) (hstep : m.startField c = .ok m') :
    m'.Within P := by
  cases c with
  | none => exact Except.ok.inj hstep ▸ h.endField none
  | some ch =>
    simp only [CsvReader.startField] at hstep
    split at hstep
    · exact Except.ok.inj hstep ▸ h.endField _
    · split at hstep
      · exact Except.ok.inj hstep ▸ h.enter _
      · split at hstep
        · exact Except.ok.inj hstep ▸ h.saveField.enter _
        · exact h.addChar_enter (hc ch rfl) hstep

theorem processChar (h : m.Within P) (hc : ∀ ch, c = some ch → P ch) (hstep : m.processChar c = .ok m') :
    m'.Within P := by
  unfold CsvReader.processChar at hstep
  split at hstep
  · exact Except.ok.inj hstep ▸ h
  · split at hstep
    · exact Except.ok.inj hstep ▸ h.enter _
    · exact h.startField hc hstep
  · exact h.startField hc hstep
  · exact Except.ok.inj hstep ▸ h.endField _
  · split at hstep
    · exact Except.ok.inj hstep ▸ h.endField _
    · split at hstep
      · exact Except.ok.inj hstep ▸ h.saveField.enter _
      · exact h.addChar (hc _ rfl) hstep
  · exact Except.ok.inj hstep ▸ h
  · split at hstep
    · exact Except.ok.inj hstep ▸ h.enter _
    · exact h.addChar (hc _ rfl) hstep
  · exact Except.ok.inj hstep ▸ h.endField _
  · split at hstep
    · exact h.addChar_enter (hc _ rfl) hstep
    · split at hstep
      · exact Except.ok.inj hstep ▸ h.saveField.enter _
      · split at hstep
        · exact Except.ok.inj hstep ▸ h.endField _
        · exact h.addChar_enter (hc _ rfl) hstep
  · exact Except.ok.inj hstep ▸ h.enter _
  · split at hstep
    · exact Except.ok.inj hstep ▸ h
    · cases hstep

theorem completed (h : m.Within P) : m.completed.Within P := by
  unfold CsvReader.completed
  split
  · refine ⟨h.field, fun _ hc => (List.not_mem_nil hc).elim, fun record hrecord => ?_⟩
    rcases List.mem_append.mp hrecord with hrecord | hrecord
    · exact h.records record hrecord
    · exact List.mem_singleton.mp hrecord ▸ h.fields
  · exact h

theorem feed (h : m.Within P) (hc : ∀ ch, c = some ch → P ch) (hstep : m.feed c = .ok m') :
    m'.Within P := by
  obtain ⟨n, hn, hm⟩ := Except.bind_eq_ok.mp hstep
  rw [Except.pure_eq_ok] at hm
  have hn' := h.processChar hc hn
  rw [← hm]
  split
  · exact hn'.completed
  · exact hn'

theorem feeds (h : m.Within P) {cs : List (Option Char)} (hcs : ∀ ch, some ch ∈ cs → P ch)
    (hrun : cs.foldlM CsvReader.feed m = .ok m') : m'.Within P := by
  induction cs generalizing m with
  | nil => exact Except.pure_eq_ok.mp hrun ▸ h
  | cons c cs ih =>
    rw [List.foldlM_cons] at hrun
    obtain ⟨n, hn, hrun⟩ := Except.bind_eq_ok.mp hrun
    refine ih (h.feed (fun ch hch => hcs ch (hch ▸ List.mem_cons_self)) hn) ?_ hrun
    exact fun ch hch => hcs ch (List.mem_cons_of_mem _ hch)

end CsvReader.Within

theorem mem_lineChars {s : Text} (h : some c ∈ lineChars s) : c ∈ s := by
  induction s using lineChars.induct with
  | case1 => cases h
  | case2 d =>
    simp only [lineChars, List.mem_cons, Option.some.injEq, reduceCtorEq, List.not_mem_nil, or_false] at h
    exact List.mem_singleton.mpr h
  | case3 d' ds ih =>
    simp only [lineChars, ↓reduceIte, List.mem_cons, Option.some.injEq, reduceCtorEq, false_or] at h
    exact h.elim (fun h => h ▸ List.mem_cons_self) fun h => List.mem_cons_of_mem _ (ih h)
  | case4 d d' ds hne ih =>
    simp only [lineChars, if_neg hne, List.mem_cons, Option.some.injEq] at h
    exact h.elim (fun h => h ▸ List.mem_cons_self) fun h => List.mem_cons_of_mem _ (ih h)

/-- The cells of a text are made of its characters. -/
theorem csvRecords_chars {s : Text} (h : csvRecords s = .ok records) :
    ∀ record ∈ records, ∀ cell ∈ record, ∀ c ∈ cell, c ∈ s := by
  obtain ⟨m, hm, hclose⟩ := Except.bind_eq_ok.mp h
  rw [Except.pure_eq_ok] at hclose
  have hnone : ({} : CsvReader).Within (· ∈ s) := ⟨fun _ hc => (List.not_mem_nil hc).elim,
    fun _ hc => (List.not_mem_nil hc).elim, fun _ hc => (List.not_mem_nil hc).elim⟩
  have hall := hnone.feeds (fun c hc => mem_lineChars hc) hm
  rw [← hclose]
  unfold CsvReader.close
  split
  · intro record hrecord
    rcases List.mem_append.mp hrecord with hrecord | hrecord
    · exact hall.records record hrecord
    · exact List.mem_singleton.mp hrecord ▸ hall.saveField.fields
  · exact hall.records

theorem keys_ofList_congr [DecidableEq κ] {l l' : List (κ × α)} (h : l.map Prod.fst = l'.map Prod.fst) :
    (Dict.ofList l).keys = (Dict.ofList l').keys := by
  have hloop (l l' : List (κ × α)) (d d' : Dict κ α) (hd : d.keys = d'.keys)
      (h : l.map Prod.fst = l'.map Prod.fst) :
      (l.foldl (fun d p => d.set p.1 p.2) d).keys = (l'.foldl (fun d p => d.set p.1 p.2) d').keys := by
    induction l generalizing l' d d' with
    | nil =>
      rw [List.map_nil, eq_comm, List.map_eq_nil_iff] at h
      rw [h]
      exact hd
    | cons p l ih =>
      cases l' with
      | nil => cases h
      | cons p' l' =>
        obtain ⟨hp, h⟩ := List.cons.inj h
        refine ih l' _ _ ?_ h
        by_cases hm : p.1 ∈ d
        · have hm' : p'.1 ∈ d' := by
            rw [← hp, Dict.mem_iff, ← Dict.mem_keys_iff, ← hd, Dict.mem_keys_iff, ← Dict.mem_iff]
            exact hm
          rw [Dict.keys_set_old hm, Dict.keys_set_old hm', hd]
        · have hm' : p'.1 ∉ d' := by
            rw [← hp, Dict.mem_iff, ← Dict.mem_keys_iff, ← hd, Dict.mem_keys_iff, ← Dict.mem_iff]
            exact hm
          rw [Dict.keys_set_new hm, Dict.keys_set_new hm', hd, hp]
  exact hloop l l' _ _ rfl h

theorem csvRow_names (fieldnames row : List String) :
    (fieldnames.zip (row.map some) ++ (fieldnames.drop row.length).map fun name =>
      (name, (none : Option String))).map Prod.fst = fieldnames := by
  induction fieldnames generalizing row with
  | nil =>
    rw [List.drop_nil]
    rfl
  | cons name names ih =>
    cases row with
    | nil =>
      rw [List.map_nil, List.zip_nil_right, List.nil_append, List.length_nil, List.drop_zero, List.map_map]
      exact List.map_id _
    | cons cell cells =>
      rw [List.map_cons, List.zip_cons_cons, List.length_cons, List.drop_succ_cons, List.cons_append,
        List.map_cons, ih]

theorem csvRow_keys (fieldnames row row' : List String) :
    (csvRow fieldnames row).cells.keys = (csvRow fieldnames row').cells.keys :=
  keys_ofList_congr ((csvRow_names fieldnames row).trans (csvRow_names fieldnames row').symm)

theorem mem_csvRow {fieldnames row : List String} (h : name ∈ (csvRow fieldnames row).cells) :
    name ∈ fieldnames := by
  obtain ⟨v, hv⟩ := Dict.mem_iff.mp h
  have hmem := List.mem_map_of_mem (f := Prod.fst) (Dict.mem_of_get?_ofList hv)
  rwa [csvRow_names] at hmem

end Characters

section Writing

/-- A character that stands for itself in a cell without quotes. -/
def PlainChar (c : Char) : Prop := c ≠ ',' ∧ c ≠ '"' ∧ c ≠ '\n' ∧ c ≠ '\r'

instance : DecidablePred PlainChar := fun _ => inferInstanceAs (Decidable (_ ∧ _))

/-- A cell that needs no quotes, and is not longer than the reader allows. -/
def PlainCell (cell : Text) : Prop := cell.length ≤ fieldLimit ∧ ∀ c ∈ cell, PlainChar c

instance : DecidablePred PlainCell := fun cell =>
  have := List.decidableBAll PlainChar cell
  inferInstanceAs (Decidable (_ ∧ _))

/-- The cells of a record between commas. -/
def recordText : List Text → Text
  | [] => []
  | [cell] => cell
  | cell :: cell' :: cells => cell ++ ',' :: recordText (cell' :: cells)

/-- The text of a table: each record is a line. -/
def csvText (records : List (List Text)) : Text :=
  records.flatMap fun record => recordText record ++ ['\n']

/-- A record that is not an empty line: such a line has no cell. -/
def PlainRecord (record : List Text) : Prop :=
  record ≠ [] ∧ record ≠ [[]] ∧ ∀ cell ∈ record, PlainCell cell

instance : DecidablePred PlainRecord := fun _ => inferInstanceAs (Decidable (_ ∧ _))

theorem PlainChar.isLineEnd {c : Char} (h : PlainChar c) : CsvReader.isLineEnd (some c) = false := by
  simp [CsvReader.isLineEnd, h.2.2.1, h.2.2.2]

namespace CsvReader
variable {m : CsvReader} {c : Char} {cell : Text}

theorem feed_plain (hm : m.state = .inField) (hc : PlainChar c) (hlen : m.field.length < fieldLimit) :
    m.feed (some c) = .ok { m with field := m.field ++ [c] } := by
  simp [feed, processChar, hm, hc.isLineEnd, hc.1, addChar, not_le.mpr hlen]

theorem feed_first (hm : m.state = .startRecord ∨ m.state = .startField) (hfield : m.field = [])
    (hc : PlainChar c) : m.feed (some c) = .ok { m with state := .inField, field := [c] } := by
  have hadd : m.addChar c = .ok { m with field := [c] } := by simp [addChar, hfield, fieldLimit]
  rcases hm with hm | hm <;>
    simp [feed, processChar, hm, startField, hc.isLineEnd, hc.1, hc.2.1, hadd, enter]

theorem feed_comma (hm : m.state = .startRecord ∨ m.state = .startField ∨ m.state = .inField) :
    m.feed (some ',') = .ok (m.saveField.enter .startField) := by
  rcases hm with hm | hm | hm <;> simp [feed, processChar, hm, startField, isLineEnd]

theorem feed_newline (hm : m.state = .startField ∨ m.state = .inField) :
    m.feed (some '\n') = .ok (m.saveField.enter .eatCrnl) := by
  rcases hm with hm | hm <;> simp [feed, processChar, hm, startField, isLineEnd, endField]

theorem feed_end (hm : m.state = .eatCrnl) :
    m.feed none =
      .ok { m with state := .startRecord, fields := [], records := m.records ++ [m.fields] } := by
  simp [feed, processChar, hm, enter, completed]

theorem feeds_plain (hm : m.state = .inField) (hcell : ∀ c ∈ cell, PlainChar c)
    (hlen : m.field.length + cell.length ≤ fieldLimit) :
    (cell.map some).foldlM feed m = .ok { m with field := m.field ++ cell } := by
  induction cell generalizing m with
  | nil =>
    rw [List.append_nil]
    rfl
  | cons c cell ih =>
    rw [List.length_cons] at hlen
    rw [List.map_cons, List.foldlM_cons, feed_plain hm (hcell c List.mem_cons_self) (by omega)]
    refine (ih (by exact hm) (fun c hc => hcell c (List.mem_cons_of_mem _ hc)) ?_).trans ?_
    · simp only [List.length_append, List.length_singleton]
      omega
    · simp only [List.append_assoc, List.singleton_append]

/-- A cell is read from its start; only its first character leaves the state. -/
theorem feeds_cell (hm : m.state = .startRecord ∨ m.state = .startField) (hfield : m.field = [])
    (hcell : PlainCell cell) :
    (cell.map some).foldlM feed m =
      .ok { m with state := if cell = [] then m.state else .inField, field := cell } := by
  cases cell with
  | nil =>
    cases m
    cases hfield
    rfl
  | cons c cell =>
    rw [List.map_cons, List.foldlM_cons, feed_first hm hfield (hcell.2 c List.mem_cons_self)]
    refine (feeds_plain (by rfl) (fun c hc => hcell.2 c (List.mem_cons_of_mem _ hc)) ?_).trans ?_
    · have hlen := hcell.1
      rw [List.length_cons] at hlen
      simp only [List.length_singleton]
      omega
    · simp

/-- A line is read as its cells, and completes their record. -/
theorem feeds_record {cells : List Text}
    (hm : m.state = .startField ∨ m.state = .startRecord ∧ cells ≠ [[]])
    (hfield : m.field = []) (hne : cells ≠ []) (hcells : ∀ cell ∈ cells, PlainCell cell) :
    ((recordText cells ++ ['\n']).map some ++ [none]).foldlM feed m =
      .ok { records := m.records ++ [m.fields ++ cells] } := by
  induction cells using recordText.induct generalizing m with
  | case1 => exact absurd rfl hne
  | case2 cell =>
    have hstate : (if cell = [] then m.state else CsvState.inField) = .startField ∨
        (if cell = [] then m.state else CsvState.inField) = .inField := by
      split
      · next h => exact .inl (hm.resolve_right fun hr => hr.2 (h ▸ rfl))
      · exact .inr rfl
    rw [recordText, List.map_append, List.append_assoc, List.foldlM_append,
      feeds_cell (hm.elim Or.inr fun h => .inl h.1) hfield (hcells cell List.mem_cons_self)]
    generalize (if cell = [] then m.state else CsvState.inField) = state at hstate ⊢
    rw [Except.ok_bind, List.map_singleton, List.singleton_append, List.foldlM_cons,
      feed_newline (m := ⟨state, cell, m.fields, m.records⟩) hstate, Except.ok_bind, List.foldlM_cons,
      feed_end rfl]
    rfl
  | case3 cell cell' cells ih =>
    have hstate : (if cell = [] then m.state else CsvState.inField) = .startRecord ∨
        (if cell = [] then m.state else CsvState.inField) = .startField ∨
        (if cell = [] then m.state else CsvState.inField) = .inField := by
      split
      · exact hm.elim (fun h => .inr (.inl h)) fun h => .inl h.1
      · exact .inr (.inr rfl)
    rw [recordText, List.append_assoc, List.map_append, List.append_assoc, List.foldlM_append,
      feeds_cell (hm.elim Or.inr fun h => .inl h.1) hfield (hcells cell List.mem_cons_self),
      Except.ok_bind, List.cons_append, List.map_cons, List.cons_append, List.foldlM_cons]
    generalize (if cell = [] then m.state else CsvState.inField) = state at hstate ⊢
    rw [feed_comma (m := ⟨state, cell, m.fields, m.records⟩) hstate, Except.ok_bind]
    refine (ih (.inl rfl) rfl (List.cons_ne_nil _ _) fun c hc =>
      hcells c (List.mem_cons_of_mem _ hc)).trans ?_
    simp [saveField, enter]

end CsvReader

theorem newline_not_mem_recordText {record : List Text} (h : ∀ cell ∈ record, PlainCell cell) :
    '\n' ∉ recordText record := by
  induction record using recordText.induct with
  | case1 => exact List.not_mem_nil
  | case2 cell =>
    exact fun hc => ((h cell List.mem_cons_self).2 _ hc).2.2.1 rfl
  | case3 cell cell' cells ih =>
    rw [recordText, List.mem_append, List.mem_cons, not_or, not_or]
    exact ⟨fun hc => ((h cell List.mem_cons_self).2 _ hc).2.2.1 rfl, by decide,
      ih fun c hc => h c (List.mem_cons_of_mem _ hc)⟩

theorem lineChars_line {line rest : Text} (h : '\n' ∉ line) :
    lineChars (line ++ '\n' :: rest) = (line ++ ['\n']).map some ++ none :: lineChars rest := by
  induction line with
  | nil => cases rest <;> simp [lineChars]
  | cons c line ih =>
    obtain ⟨hc, hline⟩ := not_or.mp (List.mem_cons.not.mp h)
    have hne : lineChars (c :: (line ++ '\n' :: rest)) = some c :: lineChars (line ++ '\n' :: rest) := by
      cases line <;> simp [lineChars, Ne.symm hc]
    rw [List.cons_append, hne, ih hline]
    rfl

/-- What is written of plain records is read as those records. -/
theorem csvRecords_csvText {records : List (List Text)} (h : ∀ record ∈ records, PlainRecord record) :
    csvRecords (csvText records) = .ok records := by
  have hread (before : List (List Text)) :
      (lineChars (csvText records)).foldlM CsvReader.feed { records := before } =
        .ok { records := before ++ records } := by
    induction records generalizing before with
    | nil =>
      rw [List.append_nil]
      rfl
    | cons record records ih =>
      obtain ⟨hne, hcell, hcells⟩ := h record List.mem_cons_self
      have hline : lineChars (csvText (record :: records)) =
          ((recordText record ++ ['\n']).map some ++ [none]) ++ lineChars (csvText records) := by
        rw [csvText, List.flatMap_cons, List.append_assoc, List.singleton_append,
          lineChars_line (newline_not_mem_recordText hcells), List.append_assoc]
        rfl
      rw [hline, List.foldlM_append, CsvReader.feeds_record (.inr ⟨rfl, hcell⟩) rfl hne hcells,
        Except.ok_bind, List.nil_append,
        ih (fun r hr => h r (List.mem_cons_of_mem _ hr)), List.append_assoc, List.singleton_append]
  rw [csvRecords, hread, Except.ok_bind, List.nil_append]
  rfl

end Writing
end Library
