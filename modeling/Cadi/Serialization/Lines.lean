import Cadi.Library.JsonLines
import Cadi.Serialization.Restore

namespace Cadi
open Library
set_option autoImplicit true

section Strings

mutual

/-- The strings of a value with the names of its types and fields. -/
def Value.strings : Value → List String
  | .str s => [s]
  | .enum enumType name => [enumType, name]
  | .frozenset items => valueStrings items
  | .tuple items => valueStrings items
  | .list items => valueStrings items
  | .dict entries => entryStrings entries
  | .entity entityType fields => entityType :: fieldStrings fields
  | _ => []

def valueStrings : List Value → List String
  | [] => []
  | v :: vs => v.strings ++ valueStrings vs

def entryStrings : List (Value × Value) → List String
  | [] => []
  | (k, v) :: es => k.strings ++ v.strings ++ entryStrings es

def fieldStrings : List (String × Value) → List String
  | [] => []
  | (name, v) :: fs => name :: v.strings ++ fieldStrings fs

end

/-- Every string of the value stays on the line on which it is written. -/
def Value.Unbroken (v : Value) : Prop := ∀ s ∈ v.strings, Library.Unbroken s

instance (v : Value) : Decidable v.Unbroken := List.decidableBAll _ _

theorem unbroken_tagged {key : String} (hkey : Unbroken key) (j : Json) :
    (Json.obj [(key, j)]).Unbroken ↔ j.Unbroken := by
  rw [Json.Unbroken.obj, List.forall_mem_singleton]
  exact and_iff_right hkey

theorem unbroken_tagged_pair {key key' : String} (hkey : Unbroken key) (hkey' : Unbroken key')
    (j j' : Json) : (Json.obj [(key, j), (key', j')]).Unbroken ↔ j.Unbroken ∧ j'.Unbroken := by
  rw [Json.Unbroken.obj, List.forall_mem_cons, List.forall_mem_singleton]
  exact and_congr (and_iff_right hkey) (and_iff_right hkey')

theorem unbroken_constant {j : Json} (h : j.strings = []) {v : Value} (hv : v.strings = []) :
    j.Unbroken ↔ v.Unbroken := by
  rw [Json.Unbroken, Json.All, Value.Unbroken, h, hv]

theorem byText_mem {items : List Json} : j ∈ byText items ↔ j ∈ items :=
  (List.perm_insertionSort _ items).mem_iff

theorem byKeyText_mem {entries : List (Json × Json)} : e ∈ byKeyText entries ↔ e ∈ entries :=
  (List.perm_insertionSort _ entries).mem_iff

mutual

/-- The text of a value has the strings of the value beside those of the tags. -/
theorem encode_unbroken : (v : Value) → ((encode v).Unbroken ↔ v.Unbroken)
  | .none => unbroken_constant rfl rfl
  | .bool _ => unbroken_constant rfl rfl
  | .num _ => unbroken_constant rfl rfl
  | .str s => Iff.rfl
  | .enum enumType name => by
    rw [encode, unbroken_tagged_pair (by decide) (by decide), Json.Unbroken.str, Json.Unbroken.str,
      Value.Unbroken, Value.strings, List.forall_mem_cons, List.forall_mem_singleton]
  | .frozenset items => by
    rw [encode, unbroken_tagged (by decide), Json.Unbroken.arr, Value.Unbroken, Value.strings,
      ← encodeItems_unbroken]
    exact forall_congr' fun j => imp_congr_left byText_mem
  | .tuple items => by
    rw [encode, unbroken_tagged (by decide), Json.Unbroken.arr, Value.Unbroken, Value.strings,
      ← encodeItems_unbroken]
  | .list items => by
    rw [encode, unbroken_tagged (by decide), Json.Unbroken.arr, Value.Unbroken, Value.strings,
      ← encodeItems_unbroken]
  | .dict entries => by
    rw [encode, unbroken_tagged (by decide), Json.Unbroken.arr, Value.Unbroken, Value.strings,
      ← encodeEntries_unbroken]
    simp only [List.forall_mem_map, byKeyText_mem, Json.Unbroken.arr, List.forall_mem_cons,
      List.not_mem_nil, false_implies, implies_true, and_true]
  | .entity entityType fields => by
    rw [encode, unbroken_tagged_pair (by decide) (by decide), Json.Unbroken.str, Json.Unbroken.obj,
      Value.Unbroken, Value.strings, List.forall_mem_cons, ← encodeFields_unbroken]

theorem encodeItems_unbroken : (vs : List Value) →
    ((∀ j ∈ encodeItems vs, j.Unbroken) ↔ ∀ s ∈ valueStrings vs, Unbroken s)
  | [] => by simp only [encodeItems, valueStrings, List.not_mem_nil, false_implies, implies_true]
  | v :: vs => by
    rw [encodeItems, valueStrings, List.forall_mem_cons, List.forall_mem_append,
      encode_unbroken v, encodeItems_unbroken vs, Value.Unbroken]

theorem encodeEntries_unbroken : (es : List (Value × Value)) →
    ((∀ e ∈ encodeEntries es, e.1.Unbroken ∧ e.2.Unbroken) ↔ ∀ s ∈ entryStrings es, Unbroken s)
  | [] => by simp only [encodeEntries, entryStrings, List.not_mem_nil, false_implies, implies_true]
  | (k, v) :: es => by
    rw [encodeEntries, entryStrings, List.forall_mem_cons, List.forall_mem_append,
      List.forall_mem_append, encode_unbroken k, encode_unbroken v, encodeEntries_unbroken es]
    rfl

theorem encodeFields_unbroken : (fs : List (String × Value)) →
    ((∀ m ∈ encodeFields fs, Unbroken m.1 ∧ m.2.Unbroken) ↔ ∀ s ∈ fieldStrings fs, Unbroken s)
  | [] => by simp only [encodeFields, fieldStrings, List.not_mem_nil, false_implies, implies_true]
  | (name, v) :: fs => by
    rw [encodeFields, fieldStrings, List.forall_mem_cons, List.forall_mem_append,
      List.forall_mem_cons, encode_unbroken v, encodeFields_unbroken fs]
    rfl

end

end Strings

section Records
variable {σ α : Type} {record : α → List (String × Json)} {read : σ → Json → Except PyError σ}

/-- `"\n".join(lines) + ("\n" if lines else "")`. -/
def joinLines (lines : List String) : String := String.ofList (jsonLines (lines.map String.toList))

/-- The lines of a text that are not blank, each loaded and read. -/
def readRecords (read : σ → Json → Except PyError σ) (s : σ) (text : String) : Except PyError σ :=
  foldLines (fun s line => do
    let j ← strictJsonLoads (String.ofList line)
    read s j) s text.toList

/-- The object of the schema. -/
def hasSchema (members : List (String × Json)) (schema : String) : Bool :=
  match Dict.find members "schema" with
  | some (.str s) => s = schema
  | _ => false

def recordLine (members : List (String × Json)) : String := String.ofList (canonical (.obj members))

theorem canonicalJson_record (h : (Json.obj (record a)).Writable) :
    canonicalJson (.obj (record a)) = .ok (recordLine (record a)) := by
  rw [canonicalJson, if_pos h.finite]
  rfl

theorem strictJsonLoads_record {members : List (String × Json)} (h : (Json.obj members).Writable) :
    strictJsonLoads (recordLine members) = .ok (Json.obj members).sorted := by
  rw [strictJsonLoads_eq_ok, recordLine, String.toList_ofList]
  exact loadsWith_text finiteHooks_keeps h.sorted

theorem joinLines_records (l : List α) :
    (joinLines (l.map fun a => recordLine (record a))).toList =
      jsonLines (l.map fun a => (Json.obj (byKey (sortedMembers (record a)))).text) := by
  rw [joinLines, String.toList_ofList, List.map_map]
  exact congrArg jsonLines (List.map_congr_left fun a _ => String.toList_ofList)

theorem foldlM_congr_mem {f g : σ → α → Except PyError σ} {l : List α} (h : ∀ s, ∀ a ∈ l, f s a = g s a)
    (s : σ) : l.foldlM f s = l.foldlM g s := by
  induction l generalizing s with
  | nil => rfl
  | cons a l ih =>
    rw [List.foldlM_cons, List.foldlM_cons, h s a List.mem_cons_self]
    exact congrArg _ (funext fun s => ih (fun s b hb => h s b (List.mem_cons_of_mem _ hb)) s)

theorem readRecords_written {l : List α} (hwritable : ∀ a ∈ l, (Json.obj (record a)).Writable)
    (h : ∀ a ∈ l, (Json.obj (record a)).Unbroken) (s : σ) :
    readRecords read s (joinLines (l.map fun a => recordLine (record a))) =
      l.foldlM (fun s a => read s (Json.obj (record a)).sorted) s := by
  rw [readRecords, joinLines_records,
    foldLines_objects (fun a ha => (hwritable a ha).sorted) fun a ha =>
    Json.Unbroken.of_sorted.mpr (h a ha)]
  apply foldlM_congr_mem
  intro s a ha
  change (strictJsonLoads (recordLine (record a)) >>= read s) = _
  rw [strictJsonLoads_record (hwritable a ha), Except.ok_bind]

/-- A record with a string that does not stay on one line cannot be read back. -/
theorem readRecords_unwritten {l : List α} (hwritable : ∀ a ∈ l, (Json.obj (record a)).Writable)
    (h : ∃ a ∈ l, ¬ (Json.obj (record a)).Unbroken) (s s' : σ) :
    readRecords read s (joinLines (l.map fun a => recordLine (record a))) ≠ .ok s' := by
  rw [readRecords, joinLines_records]
  apply foldLines_broken finiteHooks_keeps fun a ha => (hwritable a ha).sorted
  · obtain ⟨a, ha, hbroken⟩ := h
    exact ⟨a, ha, fun hs => hbroken (Json.Unbroken.of_sorted.mp hs)⟩
  · intro s t hload s' hread
    obtain ⟨j, hj, -⟩ := Except.bind_eq_ok.mp hread
    rw [strictJsonLoads_eq_ok, String.toList_ofList] at hj
    exact hload j hj

end Records

end Cadi
