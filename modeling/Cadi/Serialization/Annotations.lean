import Cadi.Serialization.Normal

namespace Cadi
open Library
set_option autoImplicit true

section Checking

/-- The name of the type of a value. -/
def Value.pyType : Value → String
  | .none => "NoneType"
  | .bool _ => "bool"
  | .num (.int _) => "int"
  | .num (.float _) => "float"
  | .str _ => "str"
  | .enum t _ => t
  | .frozenset _ => "frozenset"
  | .tuple _ => "tuple"
  | .list _ => "list"
  | .dict _ => "dict"
  | .entity t _ => t

def Value.isNone : Value → Bool
  | .none => true
  | _ => false

/-- `_matches_annotation`; a number must convert to a finite float. -/
def annotationMatches : Annotation → Value → Bool
  | .str, .str _ => true
  | .int, .num (.int _) => true
  | .float, .num n => n.isFinite
  | .bool, .bool _ => true
  | .enum t, .enum t' _ => t' = t
  | .optional a, v => v.isNone || annotationMatches a v
  | .frozenset a, .frozenset items => items.all (annotationMatches a)
  | .pair a b, .tuple [v, w] => annotationMatches a v && annotationMatches b w
  | .entity t, .entity t' _ => t' = t
  | _, _ => false

/-- The value under its own name, others as the caller formats them. -/
def Value.shownBy (shown : Value → String) : Value → String
  | .str s => s
  | v => shown v

def validateFields (shown : Value → String) (fieldName : String) (fields : List (String × Value)) :
    List FieldSpec → Except PyError Unit
  | [] => .ok ()
  | spec :: specs => do
    let id := (fieldOfEntity fields "id").shownBy shown
    raiseIf (annotationMatches spec.hint (fieldOfEntity fields spec.name) = false)
      (PyError.valueError s!"snapshot {fieldName}.{id}.{spec.name} has invalid type")
    validateFields shown fieldName fields specs

/-- `_validate_entity`; values that are no strings are formatted by `shown`. -/
def validateEntity (shown : Value → String) (expectedType fieldName : String) (entity : Value) :
    Except PyError Unit :=
  match entity with
  | .entity t fields =>
    if t = expectedType then
      validateFields shown fieldName fields ((Dict.find dataclassTypes t).getD [])
    else .error (.valueError s!"snapshot {fieldName} contains {t}, expected {expectedType}")
  | v => .error (.valueError s!"snapshot {fieldName} contains {v.pyType}, expected {expectedType}")

theorem validateFields_ok {fields : List (String × Value)} {specs : List FieldSpec}
    (h : ∀ spec ∈ specs, annotationMatches spec.hint (fieldOfEntity fields spec.name) = true) :
    validateFields shown fieldName fields specs = .ok () := by
  induction specs with
  | nil => rfl
  | cons spec specs ih =>
    rw [validateFields, Except.then_eq_ok, raiseIf_eq_ok, h spec List.mem_cons_self]
    exact ⟨Bool.false_ne_true.symm, ih fun s hs => h s (List.mem_cons_of_mem _ hs)⟩

theorem validateFields_spec {fields : List (String × Value)} {specs : List FieldSpec}
    (h : validateFields shown fieldName fields specs = .ok ()) :
    ∀ spec ∈ specs, annotationMatches spec.hint (fieldOfEntity fields spec.name) = true := by
  induction specs with
  | nil => exact fun _ hspec => absurd hspec List.not_mem_nil
  | cons spec specs ih =>
    rw [validateFields, Except.then_eq_ok, raiseIf_eq_ok, Bool.not_eq_false] at h
    exact List.forall_mem_cons.mpr ⟨h.1, ih h.2⟩

end Checking

section Atoms

/-- What is stored under an annotation: how it is read back, and when it is written without loss
and accepted by the annotation. -/
class Restored (α : Type) [Stored α] where
  hint : Annotation
  ofValue : Value → Option α
  Finite : α → Prop
  InRange : α → Prop
  ofValue_normal : ∀ a, ofValue (value a).normal = some a
  plain : ∀ a, Finite a → (value a).Plain
  accepts : ∀ a, InRange a → annotationMatches hint (value a).normal = true

open Restored

def Number.JsonFinite (n : Number) : Prop := (Json.num n : Json).finite = true

theorem Number.JsonFinite.of_isFinite {n : Number} (h : n.isFinite = true) : Number.JsonFinite n := by
  cases n with
  | int z => rfl
  | float x => exact h

instance : Restored String where
  hint := .str
  ofValue
    | .str s => some s
    | _ => none
  Finite _ := True
  InRange _ := True
  ofValue_normal _ := rfl
  plain s _ := .str s
  accepts _ _ := rfl

instance : Restored Bool where
  hint := .bool
  ofValue
    | .bool b => some b
    | _ => none
  Finite _ := True
  InRange _ := True
  ofValue_normal _ := rfl
  plain b _ := .bool b
  accepts _ _ := rfl

instance : Restored Int where
  hint := .int
  ofValue
    | .num (.int z) => some z
    | _ => none
  Finite _ := True
  InRange _ := True
  ofValue_normal _ := rfl
  plain _ _ := .num rfl
  accepts _ _ := rfl

instance : Restored Number where
  hint := .float
  ofValue
    | .num n => some n
    | _ => none
  Finite := Number.JsonFinite
  InRange n := n.isFinite = true
  ofValue_normal _ := rfl
  plain _ h := .num h
  accepts _ h := h

/-- An enumeration that the snapshots know. -/
class Known (α : Type) [DecidableEq α] [Enumeration α] : Prop where
  mem : namesOf α ∈ enumTypes

instance : Known ProgramStatus := ⟨by decide⟩
instance : Known ContinuationLifecycle := ⟨by decide⟩
instance : Known RequestStatus := ⟨by decide⟩
instance : Known ExecutionStatus := ⟨by decide⟩
instance : Known AttemptAuthority := ⟨by decide⟩
instance : Known PhaseType := ⟨by decide⟩
instance : Known PhaseStatus := ⟨by decide⟩
instance : Known StateLifecycle := ⟨by decide⟩
instance : Known StateValidity := ⟨by decide⟩
instance : Known ReplicaStatus := ⟨by decide⟩
instance : Known BindingStatus := ⟨by decide⟩
instance : Known EvidenceAuthority := ⟨by decide⟩
instance : Known EvidenceStatus := ⟨by decide⟩
instance : Known ReconcileOutcome := ⟨by decide⟩

theorem Enumeration.mem_members [DecidableEq α] [Enumeration α] (a : α) :
    (Enumeration.name a, a) ∈ (Enumeration.members : List (String × α)) := by
  have hcomplete := Enumeration.complete a
  rw [Enumeration.name]
  cases hfind : (Enumeration.members : List (String × α)).find? (·.2 = a) with
  | none =>
    obtain ⟨m, hm, rfl⟩ := List.mem_map.mp hcomplete
    exact absurd rfl (of_decide_eq_false (Bool.eq_false_of_not_eq_true (List.find?_eq_none.mp hfind m hm)))
  | some m =>
    have hm := List.mem_of_find?_eq_some hfind
    have ha := List.find?_some hfind
    rw [decide_eq_true_eq] at ha
    rw [← ha]
    exact hm

theorem Enumeration.find_name [DecidableEq α] [Enumeration α] (a : α) :
    Dict.find (Enumeration.members : List (String × α)) (Enumeration.name a) = some a :=
  (Dict.find_eq_some_iff Enumeration.distinct).mpr (Enumeration.mem_members a)

instance [DecidableEq α] [Enumeration α] [Known α] : Restored α where
  hint := .enum (Enumeration.enumType α)
  ofValue
    | .enum t name =>
      if t = Enumeration.enumType α then Dict.find (Enumeration.members : List (String × α)) name
      else none
    | _ => none
  Finite _ := True
  InRange _ := True
  ofValue_normal a := by
    simp only [value, Value.normal, ↓reduceIte, Enumeration.find_name]
  plain a _ := .enum Known.mem (List.mem_map_of_mem (Enumeration.mem_members a))
  accepts a _ := decide_eq_true rfl

/-- A value that is no `None`. -/
class Present (α : Type) [Stored α] : Prop where
  isNone_normal : ∀ a : α, (value a).normal.isNone = false

instance : Present String := ⟨fun _ => rfl⟩
instance : Present Int := ⟨fun _ => rfl⟩
instance : Present Number := ⟨fun _ => rfl⟩

instance [Stored α] [Restored α] [Present α] : Restored (Option α) where
  hint := .optional (hint α)
  ofValue v := if v.isNone then some none else (ofValue v).map some
  Finite o := ∀ a ∈ o, Finite a
  InRange o := ∀ a ∈ o, InRange a
  ofValue_normal o := by
    cases o with
    | none => rfl
    | some a =>
      change (if (value a).normal.isNone = true then some none
        else (ofValue (value a).normal).map some) = some (some a)
      rw [Present.isNone_normal, ofValue_normal]
      rfl
  plain o h := by
    cases o with
    | none => exact .none
    | some a => exact plain a (h a rfl)
  accepts o h := by
    cases o with
    | none => rfl
    | some a =>
      change ((value a).normal.isNone || annotationMatches (hint α) (value a).normal) = true
      rw [accepts a (h a rfl), Bool.or_true]

end Atoms

section Sets
open Restored

/-- A listed set of values of one shape, with what is read from each. -/
theorem normal_set {f : α → Value} (hnormal : ∀ a, (f a).normal = f a) (items : List α) :
    ∃ l : List α, l.Perm items ∧
      Value.normal (.frozenset (items.map f)) = .frozenset (l.map f) := by
  let r (a b : α) : Prop := canonical (encode (f a)) ≤ canonical (encode (f b))
  have hr (a b : α) : Decidable (r a b) := inferInstanceAs (Decidable (_ ≤ _))
  refine ⟨items.insertionSort r, List.perm_insertionSort r items, ?_⟩
  have hitems : normalItems (items.map f) = items.map f := by
    rw [normalItems_eq, List.map_map]
    exact List.map_congr_left fun a _ => hnormal a
  rw [Value.normal, hitems, listed_map r (fun a b => Iff.rfl)]

theorem normal_listed {items : List Value} (h : ∀ v ∈ items, v.normal = v) :
    (Value.frozenset (listed items)).normal = .frozenset (listed items) := by
  have hitems : normalItems (listed items) = listed items := by
    rw [normalItems_eq]
    refine (List.map_congr_left fun v hv => ?_).trans (List.map_id _)
    exact h v ((List.perm_insertionSort _ items).mem_iff.mp hv)
  rw [Value.normal, hitems]
  exact congrArg Value.frozenset (List.pairwise_insertionSort _ _).insertionSort_eq

def stringIn : Value → Option String
  | .str s => some s
  | _ => none

def pairIn : Value → Option (String × String)
  | .tuple [.str s, .str t] => some (s, t)
  | _ => none

theorem mapM_map {f : α → Value} {g : Value → Option α} (h : ∀ a, g (f a) = some a) (l : List α) :
    (l.map f).mapM g = some l := by
  induction l with
  | nil => rfl
  | cons a l ih =>
    rw [List.map_cons, List.mapM_cons, h a, ih]
    rfl

instance : Restored (FrozenSet String) where
  hint := textSet
  ofValue
    | .frozenset items => (items.mapM stringIn).map List.toFinset
    | _ => none
  Finite _ := True
  InRange _ := True
  ofValue_normal s := by
    obtain ⟨l, hperm, hnormal⟩ := normal_set (f := Value.str) (fun _ => rfl) (elements s)
    have hs : l.toFinset = s := by
      ext a
      rw [List.mem_toFinset, hperm.mem_iff, mem_elements]
    change (match Value.normal (.frozenset ((elements s).map .str)) with
      | .frozenset items => (items.mapM stringIn).map List.toFinset
      | _ => none) = some s
    simp only [hnormal, mapM_map (f := Value.str) (g := stringIn) fun _ => rfl, Option.map_some, hs]
  plain s _ := .texts (nodup_elements s)
  accepts s _ := by
    obtain ⟨l, -, hnormal⟩ := normal_set (f := Value.str) (fun _ => rfl) (elements s)
    change annotationMatches textSet (Value.normal (.frozenset ((elements s).map .str))) = true
    rw [hnormal, textSet, annotationMatches, List.all_map, List.all_eq_true]
    exact fun a _ => rfl

theorem mem_pairsOf {s : FrozenSet (String × String)} : p ∈ pairsOf s ↔ p ∈ s := by
  constructor
  · intro hp
    obtain ⟨q, hq, rfl⟩ := List.mem_map.mp hp
    obtain ⟨r, hr, rfl⟩ := Finset.mem_map.mp (mem_elements.mp hq)
    exact hr
  · intro hp
    exact List.mem_map.mpr ⟨toLex p, mem_elements.mpr (Finset.mem_map_of_mem _ hp), rfl⟩

theorem nodup_pairsOf (s : FrozenSet (String × String)) : (pairsOf s).Nodup :=
  (nodup_elements _).map ofLex.injective

instance : Restored (FrozenSet (String × String)) where
  hint := pairSet
  ofValue
    | .frozenset items => (items.mapM pairIn).map List.toFinset
    | _ => none
  Finite _ := True
  InRange _ := True
  ofValue_normal s := by
    obtain ⟨l, hperm, hnormal⟩ := normal_set (f := pairValue) (fun _ => rfl) (pairsOf s)
    have hs : l.toFinset = s := by
      ext a
      rw [List.mem_toFinset, hperm.mem_iff, mem_pairsOf]
    change (match Value.normal (.frozenset ((pairsOf s).map pairValue)) with
      | .frozenset items => (items.mapM pairIn).map List.toFinset
      | _ => none) = some s
    simp only [hnormal, mapM_map (f := pairValue) (g := pairIn) fun _ => rfl, Option.map_some, hs]
  plain s _ := .pairs (nodup_pairsOf s)
  accepts s _ := by
    obtain ⟨l, -, hnormal⟩ := normal_set (f := pairValue) (fun _ => rfl) (pairsOf s)
    change annotationMatches pairSet (Value.normal (.frozenset ((pairsOf s).map pairValue))) = true
    rw [hnormal, pairSet, annotationMatches, List.all_map, List.all_eq_true]
    exact fun a _ => rfl

/-- What is listed once stays as it is listed. -/
theorem normal_normal {v : Value} (h : v.Plain) : v.normal.normal = v.normal ∧ v.normal.Plain := by
  have hset {α : Type} {f : α → Value} (hf : ∀ a, (f a).normal = f a) (items : List α) :
      (Value.frozenset (items.map f)).normal.normal = (Value.frozenset (items.map f)).normal := by
    have hitems : normalItems (items.map f) = items.map f := by
      rw [normalItems_eq, List.map_map]
      exact List.map_congr_left fun a _ => hf a
    have hnormal : (Value.frozenset (items.map f)).normal = .frozenset (listed (items.map f)) := by
      rw [Value.normal, hitems]
    rw [hnormal]
    refine normal_listed fun v hv => ?_
    obtain ⟨a, -, rfl⟩ := List.mem_map.mp hv
    exact hf a
  have hitems {items : List Value} (h : ∀ v ∈ items, v.normal.normal = v.normal ∧ v.normal.Plain) :
      normalItems (normalItems items) = normalItems items ∧ ∀ v ∈ normalItems items, v.Plain := by
    rw [normalItems_eq, normalItems_eq, List.map_map]
    refine ⟨List.map_congr_left fun v hv => (h v hv).1, fun v hv => ?_⟩
    obtain ⟨w, hw, rfl⟩ := List.mem_map.mp hv
    exact (h w hw).2
  induction h with
  | none => exact ⟨rfl, .none⟩
  | bool b => exact ⟨rfl, .bool b⟩
  | num h => exact ⟨rfl, .num h⟩
  | str s => exact ⟨rfl, .str s⟩
  | enum h hname => exact ⟨rfl, .enum h hname⟩
  | texts h =>
    obtain ⟨l, hperm, hnormal⟩ := normal_set (f := Value.str) (fun _ => rfl) _
    exact ⟨hset (fun _ => rfl) _, hnormal ▸ .texts (hperm.nodup_iff.mpr h)⟩
  | pairs h =>
    obtain ⟨l, hperm, hnormal⟩ := normal_set (f := pairValue) (fun _ => rfl) _
    exact ⟨hset (fun _ => rfl) _, hnormal ▸ .pairs (hperm.nodup_iff.mpr h)⟩
  | tuple _ ih =>
    obtain ⟨hnormal, hplain⟩ := hitems ih
    exact ⟨congrArg Value.tuple hnormal, .tuple hplain⟩
  | list _ ih =>
    obtain ⟨hnormal, hplain⟩ := hitems ih
    exact ⟨congrArg Value.list hnormal, .list hplain⟩
  | @dict entries hkeys _ ih =>
    let r (a b : String × Value) : Prop := canonical (.str a.1) ≤ canonical (.str b.1)
    have hr (a b : String × Value) : Decidable (r a b) := inferInstanceAs (Decidable (_ ≤ _))
    have hsort (l : List (String × Value)) : byListedKey (l.map fun e => (Value.str e.1, e.2)) =
        (l.insertionSort r).map fun e => (Value.str e.1, e.2) := by
      rw [byListedKey]
      exact (List.map_insertionSort r (fun e f => canonical (encode e.1) ≤ canonical (encode f.1))
        (fun e => (Value.str e.1, e.2)) l fun _ _ _ _ => Iff.rfl).symm
    have hentries (l : List (String × Value)) : normalEntries (l.map fun e => (Value.str e.1, e.2)) =
        (l.map fun e => (e.1, e.2.normal)).map fun e => (Value.str e.1, e.2) := by
      rw [normalEntries_eq, List.map_map, List.map_map]
      rfl
    let sorted := (entries.map fun e => (e.1, e.2.normal)).insertionSort r
    have hnormal : (Value.dict (entries.map fun e => (.str e.1, e.2))).normal =
        .dict (sorted.map fun e => (.str e.1, e.2)) := by
      rw [Value.normal, hentries, hsort]
    have hperm : sorted.Perm (entries.map fun e => (e.1, e.2.normal)) := List.perm_insertionSort r _
    have hmem : ∀ e ∈ sorted, e.2.normal = e.2 ∧ e.2.Plain := by
      intro e he
      obtain ⟨e', he', rfl⟩ := List.mem_map.mp (hperm.mem_iff.mp he)
      exact ih e' he'
    have hkeys' : (sorted.map Prod.fst).Nodup := by
      rw [(hperm.map Prod.fst).nodup_iff, List.map_map]
      exact hkeys
    have hagain : (sorted.map fun e => (e.1, e.2.normal)) = sorted := by
      refine (List.map_congr_left fun e he => ?_).trans (List.map_id sorted)
      rw [(hmem e he).1]
      rfl
    rw [hnormal]
    refine ⟨?_, .dict hkeys' fun e he => (hmem e he).2⟩
    rw [Value.normal, hentries, hsort, hagain]
    exact congrArg (fun l : List (String × Value) => Value.dict (l.map fun e => (.str e.1, e.2)))
      (List.pairwise_insertionSort r _).insertionSort_eq
  | @entity t specs fields ht hnames _ hclaim ih =>
    have hnormal : normalFields (normalFields fields) = normalFields fields := by
      rw [normalFields_eq, normalFields_eq, List.map_map]
      exact List.map_congr_left fun f hf => congrArg (Prod.mk f.1) (ih f hf).1
    refine ⟨congrArg (Value.entity t) hnormal, .entity ht ?_ ?_ fun he => ?_⟩
    · rw [← hnames, normalFields_eq, List.map_map]
      rfl
    · intro f hf
      rw [normalFields_eq] at hf
      obtain ⟨f', hf', rfl⟩ := List.mem_map.mp hf
      exact (ih f' hf').2
    · rw [checkClaim_normal]
      exact hclaim he

end Sets

section Records
open Restored

/-- A field of a dataclass value, read back. -/
def readField [Stored α] [Restored α] (fields : List (String × Value)) (name : String) : Option α :=
  (Dict.find fields name).bind ofValue

theorem readField_head [Stored α] [Restored α] (name : String) (a : α) (rest : List (String × Value)) :
    readField ((name, (value a).normal) :: rest) name = some a := by
  rw [readField, Dict.find, if_pos rfl]
  exact ofValue_normal a

theorem readField_tail [Stored α] [Restored α] {name name' : String} (h : name' ≠ name) (v : Value)
    (rest : List (String × Value)) :
    (readField ((name', v) :: rest) name : Option α) = readField rest name := by
  rw [readField, readField, Dict.find, if_neg h]

theorem mem_dataclass (h : Dict.find dataclassTypes t = some specs) : (t, specs) ∈ dataclassTypes :=
  (Dict.find_eq_some_iff (by decide)).mp h

/-- A dataclass whose fields are all accepted. -/
theorem validateEntity_ok {fields : List (String × Value)} {specs : List FieldSpec}
    (hspecs : Dict.find dataclassTypes t = some specs)
    (h : ∀ spec ∈ specs, annotationMatches spec.hint (fieldOfEntity fields spec.name) = true) :
    validateEntity shown t fieldName (.entity t fields) = .ok () := by
  rw [validateEntity, if_pos rfl, hspecs]
  exact validateFields_ok h

end Records

end Cadi
