import Cadi.Library.JsonSorting
import Cadi.Library.JsonProper
import Cadi.Serialization.Decoding

namespace Cadi
open Library
set_option autoImplicit true

section Normal

/-- The items of a set in the order of their texts. -/
def listed (items : List Value) : List Value :=
  items.insertionSort fun v w => canonical (encode v) ≤ canonical (encode w)

/-- The entries of a dictionary in the order of the texts of their keys. -/
def byListedKey (entries : List (Value × Value)) : List (Value × Value) :=
  entries.insertionSort fun e f => canonical (encode e.1) ≤ canonical (encode f.1)

mutual

/-- The value with its sets and dictionaries listed in the order in which they are written. -/
def Value.normal : Value → Value
  | .frozenset items => .frozenset (listed (normalItems items))
  | .tuple items => .tuple (normalItems items)
  | .list items => .list (normalItems items)
  | .dict entries => .dict (byListedKey (normalEntries entries))
  | .entity t fields => .entity t (normalFields fields)
  | v => v

def normalItems : List Value → List Value
  | [] => []
  | v :: vs => v.normal :: normalItems vs

def normalEntries : List (Value × Value) → List (Value × Value)
  | [] => []
  | (k, v) :: es => (k.normal, v.normal) :: normalEntries es

def normalFields : List (String × Value) → List (String × Value)
  | [] => []
  | (name, v) :: fs => (name, v.normal) :: normalFields fs

end

def pairValue (p : String × String) : Value := .tuple [.str p.1, .str p.2]

/-- What the arguments and the stores hold: the members of the enumerations, sets of strings or of
pairs of strings, dictionaries with string keys, and complete dataclasses. -/
inductive Value.Plain : Value → Prop
  | none : Plain .none
  | bool (b : Bool) : Plain (.bool b)
  | num {n : Number} (h : (Json.num n : Json).finite = true) : Plain (.num n)
  | str (s : String) : Plain (.str s)
  | enum (h : (t, names) ∈ enumTypes) (hname : name ∈ names) : Plain (.enum t name)
  | texts {items : List String} (h : items.Nodup) : Plain (.frozenset (items.map .str))
  | pairs {items : List (String × String)} (h : items.Nodup) :
    Plain (.frozenset (items.map pairValue))
  | tuple (h : ∀ v ∈ items, Plain v) : Plain (.tuple items)
  | list (h : ∀ v ∈ items, Plain v) : Plain (.list items)
  | dict {entries : List (String × Value)} (hkeys : (entries.map Prod.fst).Nodup)
      (h : ∀ e ∈ entries, Plain e.2) : Plain (.dict (entries.map fun e => (.str e.1, e.2)))
  | entity (ht : (t, specs) ∈ dataclassTypes) (hnames : fields.map Prod.fst = specs.map (·.name))
      (h : ∀ f ∈ fields, Plain f.2) (hclaim : t = "Evidence" → checkClaim fields = .ok ()) :
    Plain (.entity t fields)

theorem normalItems_eq (items : List Value) : normalItems items = items.map Value.normal := by
  induction items with
  | nil => rfl
  | cons v vs ih => rw [normalItems, ih, List.map_cons]

theorem normalEntries_eq (entries : List (Value × Value)) :
    normalEntries entries = entries.map fun e => (e.1.normal, e.2.normal) := by
  induction entries with
  | nil => rfl
  | cons e es ih => rw [normalEntries, ih, List.map_cons]

theorem normalFields_eq (fields : List (String × Value)) :
    normalFields fields = fields.map fun f => (f.1, f.2.normal) := by
  induction fields with
  | nil => rfl
  | cons f fs ih => rw [normalFields, ih, List.map_cons]

theorem encodeItems_eq (items : List Value) : encodeItems items = items.map encode := by
  induction items with
  | nil => rfl
  | cons v vs ih => rw [encodeItems, ih, List.map_cons]

theorem encodeEntries_eq (entries : List (Value × Value)) :
    encodeEntries entries = entries.map fun e => (encode e.1, encode e.2) := by
  induction entries with
  | nil => rfl
  | cons e es ih => rw [encodeEntries, ih, List.map_cons]

theorem encodeFields_eq (fields : List (String × Value)) :
    encodeFields fields = fields.map fun f => (f.1, encode f.2) := by
  induction fields with
  | nil => rfl
  | cons f fs ih => rw [encodeFields, ih, List.map_cons]

end Normal

section Lists

theorem decodeItems_ok {hashed : Bool} {l : List α} {j : α → Json} {v : α → Value}
    (h : ∀ a ∈ l, decode (j a) = .ok (v a))
    (hhash : hashed = true → ∀ a ∈ l, (v a).unhashable = none) :
    decodeItems hashed (l.map j) = .ok (l.map v) := by
  induction l with
  | nil => rfl
  | cons a l ih =>
    have hrest := ih (fun b hb => h b (List.mem_cons_of_mem _ hb))
      fun hh b hb => hhash hh b (List.mem_cons_of_mem _ hb)
    have hcheck : checkItem hashed (v a) = .ok () := by
      rw [checkItem]
      split
      · next hh => rw [checkHashable, hhash hh a List.mem_cons_self]
      · rfl
    rw [List.map_cons, decodeItems, h a List.mem_cons_self, Except.ok_bind, hcheck, Except.ok_bind,
      hrest]
    rfl

theorem decodeMembers_ok {l : List α} {k : α → String} {j : α → Json} {v : α → Value}
    (h : ∀ a ∈ l, decode (j a) = .ok (v a)) :
    decodeMembers (l.map fun a => (k a, j a)) = .ok (l.map fun a => (k a, v a)) := by
  induction l with
  | nil => rfl
  | cons a l ih =>
    have hrest := ih fun b hb => h b (List.mem_cons_of_mem _ hb)
    rw [List.map_cons, decodeMembers, h a List.mem_cons_self, Except.ok_bind, hrest]
    rfl

theorem decodePairs_ok {l : List α} {k : α → String} {j : α → Json} {v : α → Value}
    (h : ∀ a ∈ l, decode (j a) = .ok (v a)) :
    decodePairs (l.map fun a => .arr [.str (k a), j a]) = .ok (l.map fun a => (.str (k a), v a)) := by
  induction l with
  | nil => rfl
  | cons a l ih =>
    have hrest := ih fun b hb => h b (List.mem_cons_of_mem _ hb)
    have hpair : decodePair (.arr [.str (k a), j a]) = .ok (.str (k a), v a) := by
      change (do
        let v ← decode (j a)
        return (Value.str (k a), v)) = _
      rw [h a List.mem_cons_self]
      rfl
    rw [List.map_cons, decodePairs, hpair, Except.ok_bind, hrest]
    rfl

theorem firsts_distinct {f : α → Value} {items : List α} (h : items.Nodup)
    (heq : ∀ a b, (f a).eq (f b) = true ↔ a = b) : firsts (items.map f) = items.map f := by
  have hloop (before : List α) (hnodup : (before ++ items).Nodup) :
      (items.map f).foldl (fun vs v => if vs.any (fun w => w.eq v) then vs else vs ++ [v])
        (before.map f) = (before ++ items).map f := by
    clear h
    induction items generalizing before with
    | nil => rw [List.append_nil]; rfl
    | cons a items ih =>
      have hfresh : ¬ (before.map f).any (fun w => w.eq (f a)) = true := by
        intro hany
        obtain ⟨w, hw, heqw⟩ := List.any_eq_true.mp hany
        obtain ⟨b, hb, rfl⟩ := List.mem_map.mp hw
        obtain rfl := (heq b a).mp heqw
        exact (List.nodup_append.mp hnodup).2.2 b hb b List.mem_cons_self rfl
      rw [List.map_cons, List.foldl_cons, if_neg hfresh]
      have hstep := ih (before ++ [a]) (by rwa [List.append_assoc, List.singleton_append])
      rw [List.map_append, List.map_singleton, List.append_assoc, List.singleton_append] at hstep
      exact hstep
  exact hloop [] h

theorem str_atomEq (s t : String) : (Value.str s).atomEq (.str t) = decide (s = t) := rfl

theorem str_eq (s t : String) : (Value.str s).eq (.str t) = true ↔ s = t := by
  simp only [Value.eq, str_atomEq, decide_eq_true_iff]

theorem pairValue_eq (p q : String × String) : (pairValue p).eq (pairValue q) = true ↔ p = q := by
  simp only [pairValue, Value.eq, eqItems, Bool.and_eq_true, str_atomEq, decide_eq_true_iff, and_true,
    Prod.ext_iff]

theorem putEntry_new {es : List (Value × Value)} (h : ∀ e ∈ es, ¬ e.1.eq k = true) (v : Value) :
    putEntry k v es = es ++ [(k, v)] := by
  induction es with
  | nil => rfl
  | cons e es ih =>
    obtain ⟨k', v'⟩ := e
    rw [putEntry, if_neg (h (k', v') List.mem_cons_self),
      ih fun e he => h e (List.mem_cons_of_mem _ he), List.cons_append]

theorem putEntry_distinct {entries : List (String × Value)} (h : (entries.map Prod.fst).Nodup) :
    (entries.map fun e => (Value.str e.1, e.2)).foldl (fun es e => putEntry e.1 e.2 es) [] =
      entries.map fun e => (Value.str e.1, e.2) := by
  have hloop (before : List (String × Value)) (hnodup : ((before ++ entries).map Prod.fst).Nodup) :
      (entries.map fun e => (Value.str e.1, e.2)).foldl (fun es e => putEntry e.1 e.2 es)
        (before.map fun e => (Value.str e.1, e.2)) =
        (before ++ entries).map fun e => (Value.str e.1, e.2) := by
    clear h
    induction entries generalizing before with
    | nil => rw [List.append_nil]; rfl
    | cons e entries ih =>
      have hfresh : ∀ e' ∈ before.map fun e => (Value.str e.1, e.2),
          ¬ e'.1.eq (Value.str e.1) = true := by
        intro e' he' heq
        obtain ⟨b, hb, rfl⟩ := List.mem_map.mp he'
        rw [List.map_append] at hnodup
        exact (List.nodup_append.mp hnodup).2.2 b.1 (List.mem_map_of_mem hb) e.1
          (List.mem_map_of_mem List.mem_cons_self) ((str_eq _ _).mp heq)
      have hstep := ih (before ++ [e]) (by rwa [List.append_assoc, List.singleton_append])
      rw [List.map_append, List.map_singleton, List.append_assoc, List.singleton_append] at hstep
      rw [List.map_cons, List.foldl_cons, putEntry_new hfresh]
      exact hstep
  exact hloop [] h

end Lists

section Written

/-- Items in the order of their texts are the texts of the listed items. -/
theorem byText_encode (items : List Value) :
    byText (items.map encode) = (listed items).map encode := by
  rw [byText, listed]
  exact (List.map_insertionSort _ _ encode items fun _ _ _ _ => Iff.rfl).symm

/-- Items in the order of their texts have the same texts, however they were listed. -/
theorem byText_perm {js js' : List Json} (h : js.Perm js') :
    (byText js).map canonical = (byText js').map canonical := by
  have hsorted (js : List Json) :
      (byText js).map canonical = (js.map canonical).insertionSort (· ≤ ·) :=
    List.map_insertionSort _ _ canonical js fun _ _ _ _ => Iff.rfl
  rw [hsorted, hsorted]
  apply List.Perm.eq_of_pairwise' (List.pairwise_insertionSort _ _) (List.pairwise_insertionSort _ _)
  exact ((List.perm_insertionSort _ _).trans (h.map canonical)).trans
    (List.perm_insertionSort _ _).symm

/-- The text of a frozenset does not depend on the order in which its items come out of it. -/
theorem canonical_frozenset {items items' : List Value} (h : items.Perm items') :
    canonical (encode (.frozenset items)) = canonical (encode (.frozenset items')) := by
  have htexts := byText_perm (h.map encode)
  have hitems (js : List Json) : (sortedItems js).map Json.text = js.map canonical := by
    rw [sortedItems_eq, List.map_map]
    rfl
  rw [← hitems, ← hitems] at htexts
  change Json.text (.obj [("$frozenset", .arr (sortedItems (byText (encodeItems items))))]) =
    Json.text (.obj [("$frozenset", .arr (sortedItems (byText (encodeItems items'))))])
  rw [encodeItems_eq, encodeItems_eq]
  exact congrArg (fun t => '{' :: (quoted plainEscape "$frozenset" ++ ':' :: ('[' :: t ++ [']'])) ++ ['}'])
    (itemsText_congr htexts)

theorem listed_map {f : α → Value} (r : α → α → Prop) [DecidableRel r]
    (h : ∀ a b, canonical (encode (f a)) ≤ canonical (encode (f b)) ↔ r a b) (items : List α) :
    listed (items.map f) = (items.insertionSort r).map f := by
  rw [listed]
  exact (List.map_insertionSort _ _ f items fun a _ b _ => (h a b).symm).symm

theorem sorted_tagged (key : String) (j : Json) :
    (Json.obj [(key, j)]).sorted = .obj [(key, j.sorted)] := rfl

theorem decode_frozenset (js : List Json) :
    decode (.obj [("$frozenset", .arr js)]) = (do
      let items ← decodeItems true js
      return .frozenset (firsts items)) := rfl

theorem decode_tuple (js : List Json) :
    decode (.obj [("$tuple", .arr js)]) = .tuple <$> decodeItems false js := rfl

theorem decode_list (js : List Json) :
    decode (.obj [("$list", .arr js)]) = .list <$> decodeItems false js := rfl

theorem decode_dict (js : List Json) :
    decode (.obj [("$dict", .arr js)]) = (do
      let entries ← decodePairs js
      return .dict (entries.foldl (fun es e => putEntry e.1 e.2 es) [])) := rfl

theorem decode_enum (h : (t, names) ∈ enumTypes) (hname : name ∈ names) :
    decode (.obj [("$enum", .str t), ("name", .str name)]) = .ok (.enum t name) := by
  have hfind : Dict.find enumTypes t = some names :=
    (Dict.find_eq_some_iff (by decide)).mpr h
  have hmember : ∀ ns : List String, name ∈ ns →
      Dict.find (ns.map fun n => (n, ())) name = some () := by
    intro ns hn
    induction ns with
    | nil => cases hn
    | cons n ns ih =>
      rw [List.map_cons, Dict.find]
      split
      · rfl
      · next hne => exact ih ((List.mem_cons.mp hn).resolve_left (Ne.symm hne))
  have henum : member [("$enum", .str t), ("name", .str name)] "$enum" = .ok (.str t) := rfl
  have hnamed : member [("$enum", .str t), ("name", .str name)] "name" = .ok (.str name) := rfl
  change decodeEnum [("$enum", .str t), ("name", .str name)] = _
  simp only [decodeEnum, henum, hnamed, subscript, hfind, Except.ok_bind, hmember names hname]
  rfl

theorem decode_entity (hfind : Dict.find dataclassTypes t = some specs) (ms : List (String × Json)) :
    decode (.obj [("$type", .str t), ("fields", .obj ms)]) = (do
      let kwargs ← decodeMembers ms
      constructEntity t specs kwargs) := by
  have htable : subscript dataclassTypes (.str t) = .ok (t, specs) := by
    simp only [subscript, hfind]
  change (subscript dataclassTypes (.str t) >>= _) = _
  rw [htable]
  rfl

end Written

section Constructed

theorem dataclass_names (h : (t, specs) ∈ dataclassTypes) :
    (specs.map (·.name)).Nodup ∧ "self" ∉ specs.map (·.name) := by
  have hall : ∀ names ∈ dataclassTypes.map fun e => e.2.map (·.name),
      names.Nodup ∧ "self" ∉ names := by decide
  exact hall _ (List.mem_map_of_mem h)

theorem find_dataclass (h : (t, specs) ∈ dataclassTypes) :
    Dict.find dataclassTypes t = some specs :=
  (Dict.find_eq_some_iff (by decide)).mpr h

theorem constructEntity_ok {fields kwargs : List (String × Value)} {specs : List FieldSpec}
    (hspecs : (t, specs) ∈ dataclassTypes) (hnames : fields.map Prod.fst = specs.map (·.name))
    (hperm : kwargs.Perm fields) (hclaim : t = "Evidence" → checkClaim fields = .ok ()) :
    constructEntity t specs kwargs = .ok (.entity t fields) := by
  obtain ⟨hnodup, hself⟩ := dataclass_names hspecs
  have hkeys : (kwargs.map Prod.fst).Perm (specs.map (·.name)) := hnames ▸ hperm.map _
  have hnoself : "self" ∉ kwargs.map Prod.fst := fun h => hself (hkeys.mem_iff.mp h)
  have hknown : checkNames t specs (kwargs.map Prod.fst) = .ok () := by
    have hnone : (kwargs.map Prod.fst).find? (fun name => name ∉ specs.map (·.name)) = none := by
      rw [List.find?_eq_none]
      intro name hname
      simp only [decide_eq_true_eq, Decidable.not_not]
      exact hkeys.mem_iff.mp hname
    rw [checkNames, hnone]
  have hcomplete : missingNames specs (kwargs.map Prod.fst) = [] := by
    rw [missingNames, List.map_eq_nil_iff, List.filter_eq_nil_iff]
    intro spec hspec h
    simp only [Bool.decide_and, Bool.and_eq_true, decide_eq_true_eq] at h
    exact h.2 (hkeys.mem_iff.mpr (List.mem_map_of_mem hspec))
  have hfields : (specs.map fun spec =>
      (spec.name, ((Dict.find kwargs spec.name).orElse fun _ => spec.default).getD .none)) = fields := by
    have hfind : ∀ f ∈ fields, Dict.find kwargs f.1 = some f.2 := by
      intro f hf
      exact (Dict.find_eq_some_iff (hkeys.nodup_iff.mpr hnodup)).mpr (hperm.mem_iff.mpr hf)
    have hvalue : ∀ spec ∈ specs, ((Dict.find kwargs spec.name).orElse fun _ => spec.default) =
        Dict.find kwargs spec.name := by
      intro spec hspec
      have hname : spec.name ∈ fields.map Prod.fst := hnames ▸ List.mem_map_of_mem hspec
      obtain ⟨f, hf, hfname⟩ := List.mem_map.mp hname
      rw [← hfname, hfind f hf]
      rfl
    calc (specs.map fun spec =>
          (spec.name, ((Dict.find kwargs spec.name).orElse fun _ => spec.default).getD .none))
        = (specs.map (·.name)).map fun name => (name, (Dict.find kwargs name).getD .none) := by
          rw [List.map_map]
          exact List.map_congr_left fun spec hspec =>
            congrArg (fun o => (spec.name, Option.getD o Value.none)) (hvalue spec hspec)
      _ = (fields.map Prod.fst).map fun name => (name, (Dict.find kwargs name).getD .none) := by
          rw [hnames]
      _ = fields.map fun f => f := by
          rw [List.map_map]
          exact List.map_congr_left fun f hf =>
            congrArg (fun o => (f.1, Option.getD o Value.none)) (hfind f hf)
      _ = fields := List.map_id' fields
  have hpost : postInit t fields = .ok () := by
    rw [postInit]
    split
    · next h => exact hclaim h
    · rfl
  simp only [constructEntity, hfields, raiseIf, hnoself, hknown, hcomplete, hpost, ↓reduceIte,
    Except.ok_bind, ne_eq, not_true_eq_false]
  rfl

theorem fieldOfEntity_normal (fields : List (String × Value)) (name : String) :
    fieldOfEntity (normalFields fields) name = (fieldOfEntity fields name).normal := by
  rw [fieldOfEntity, fieldOfEntity, normalFields_eq, find_map_snd]
  cases Dict.find fields name <;> rfl

/-- The check of a claim looks at strings, which are listed as they are. -/
theorem checkClaim_normal (fields : List (String × Value)) :
    checkClaim (normalFields fields) = checkClaim fields := by
  rw [checkClaim, checkClaim, fieldOfEntity_normal, fieldOfEntity_normal]
  cases fieldOfEntity fields "claim_key" <;> cases fieldOfEntity fields "claim_value" <;>
    simp only [Value.normal]

end Constructed

section Decoded

theorem decode_set {f : α → Value} {items : List α} (h : items.Nodup)
    (hdecode : ∀ a, decode (encode (f a)).sorted = .ok (f a)) (hhash : ∀ a, (f a).unhashable = none)
    (heq : ∀ a b, (f a).eq (f b) = true ↔ a = b) (hnormal : ∀ a, (f a).normal = f a) :
    decode (encode (.frozenset (items.map f))).sorted = .ok (Value.normal (.frozenset (items.map f))) := by
  let r (a b : α) : Prop := canonical (encode (f a)) ≤ canonical (encode (f b))
  have hr (a b : α) : Decidable (r a b) := inferInstanceAs (Decidable (_ ≤ _))
  have hlisted : listed (items.map f) = (items.insertionSort r).map f :=
    listed_map r (fun a b => Iff.rfl) items
  have hnodup : (items.insertionSort r).Nodup :=
    (List.perm_insertionSort r items).nodup_iff.mpr h
  have hitems : normalItems (items.map f) = items.map f := by
    rw [normalItems_eq, List.map_map]
    exact List.map_congr_left fun a _ => hnormal a
  have hjson : (encode (.frozenset (items.map f))).sorted =
      .obj [("$frozenset", .arr ((items.insertionSort r).map fun a => (encode (f a)).sorted))] := by
    rw [encode, sorted_tagged, Json.sorted, sortedItems_eq, encodeItems_eq, byText_encode, hlisted,
      List.map_map, List.map_map]
    rfl
  rw [hjson, decode_frozenset, decodeItems_ok (fun a _ => hdecode a) fun _ a _ => hhash a,
    Except.ok_bind, firsts_distinct hnodup heq, Value.normal, hitems, hlisted]
  rfl

theorem decode_texts {items : List String} (h : items.Nodup) :
    decode (encode (.frozenset (items.map .str))).sorted =
      .ok (Value.normal (.frozenset (items.map .str))) :=
  decode_set h (fun _ => rfl) (fun _ => rfl) str_eq fun _ => rfl

theorem decode_pairs {items : List (String × String)} (h : items.Nodup) :
    decode (encode (.frozenset (items.map pairValue))).sorted =
      .ok (Value.normal (.frozenset (items.map pairValue))) :=
  decode_set h (fun _ => rfl) (fun _ => rfl) pairValue_eq fun _ => rfl

theorem decode_entries {entries : List (String × Value)} (hkeys : (entries.map Prod.fst).Nodup)
    (h : ∀ e ∈ entries, decode (encode e.2).sorted = .ok e.2.normal) :
    decode (encode (.dict (entries.map fun e => (.str e.1, e.2)))).sorted =
      .ok (Value.normal (.dict (entries.map fun e => (.str e.1, e.2)))) := by
  let r (a b : String × Value) : Prop := canonical (.str a.1) ≤ canonical (.str b.1)
  have hr (a b : String × Value) : Decidable (r a b) := inferInstanceAs (Decidable (_ ≤ _))
  have hperm := List.perm_insertionSort r entries
  have hnodup : (((entries.insertionSort r).map fun e => (e.1, e.2.normal)).map Prod.fst).Nodup := by
    rw [List.map_map]
    exact (hperm.map Prod.fst).nodup_iff.mpr hkeys
  have hjson : (encode (.dict (entries.map fun e => (.str e.1, e.2)))).sorted =
      .obj [("$dict", .arr ((entries.insertionSort r).map fun e =>
        .arr [.str e.1, (encode e.2).sorted]))] := by
    have hsort : byKeyText ((entries.map fun e => (Value.str e.1, e.2)).map fun e =>
        (encode e.1, encode e.2)) =
        (entries.insertionSort r).map fun e => (Json.str e.1, encode e.2) := by
      rw [byKeyText, List.map_map]
      exact (List.map_insertionSort r (fun a b => canonical a.1 ≤ canonical b.1)
        (fun e => (Json.str e.1, encode e.2)) entries fun _ _ _ _ => Iff.rfl).symm
    rw [encode, sorted_tagged, Json.sorted, sortedItems_eq, encodeEntries_eq, hsort, List.map_map,
      List.map_map]
    rfl
  have hnormal : byListedKey (normalEntries (entries.map fun e => (Value.str e.1, e.2))) =
      ((entries.insertionSort r).map fun e => (e.1, e.2.normal)).map fun e => (Value.str e.1, e.2) := by
    rw [normalEntries_eq, byListedKey, List.map_map, List.map_map]
    exact (List.map_insertionSort r (fun e f => canonical (encode e.1) ≤ canonical (encode f.1))
      (fun e => (Value.str e.1, e.2.normal)) entries fun _ _ _ _ => Iff.rfl).symm
  rw [hjson, decode_dict, decodePairs_ok fun e he => h e (hperm.mem_iff.mp he), Except.ok_bind,
    Value.normal, hnormal]
  have hput := putEntry_distinct hnodup
  rw [List.map_map] at hput ⊢
  exact congrArg (fun es => Except.ok (Value.dict es)) hput

theorem sorted_entity (t : String) (j : Json) :
    (Json.obj [("$type", .str t), ("fields", j)]).sorted =
      .obj [("$type", .str t), ("fields", j.sorted)] := by
  have hle : "$type" ≤ "fields" := by decide
  rw [Json.sorted, sortedMembers_eq]
  exact congrArg Json.obj (byKey_of_sorted (List.pairwise_pair.mpr hle))

theorem sorted_enum (t name : String) :
    (Json.obj [("$enum", .str t), ("name", .str name)]).sorted =
      .obj [("$enum", .str t), ("name", .str name)] := by
  have hle : "$enum" ≤ "name" := by decide
  rw [Json.sorted, sortedMembers_eq]
  exact congrArg Json.obj (byKey_of_sorted (List.pairwise_pair.mpr hle))

/-- A value is read back from what is written of it. -/
theorem decode_encode {v : Value} (h : v.Plain) : decode (encode v).sorted = .ok v.normal := by
  induction h with
  | none => rfl
  | bool b => rfl
  | num h => rfl
  | str s => rfl
  | enum h hname =>
    rw [encode, sorted_enum, decode_enum h hname]
    simp only [Value.normal]
  | texts h => exact decode_texts h
  | pairs h => exact decode_pairs h
  | @tuple items h ih =>
    have hitems : decodeItems false (items.map (Json.sorted ∘ encode)) = .ok (items.map Value.normal) :=
      decodeItems_ok ih fun hh => absurd hh Bool.false_ne_true
    rw [encode, sorted_tagged, Json.sorted, sortedItems_eq, encodeItems_eq, List.map_map, decode_tuple,
      hitems, Value.normal, normalItems_eq]
    rfl
  | @list items h ih =>
    have hitems : decodeItems false (items.map (Json.sorted ∘ encode)) = .ok (items.map Value.normal) :=
      decodeItems_ok ih fun hh => absurd hh Bool.false_ne_true
    rw [encode, sorted_tagged, Json.sorted, sortedItems_eq, encodeItems_eq, List.map_map, decode_list,
      hitems, Value.normal, normalItems_eq]
    rfl
  | dict hkeys h ih => exact decode_entries hkeys ih
  | @entity t specs fields ht hnames h hclaim ih =>
    let r (a b : String × Value) : Prop := a.1 ≤ b.1
    have hr (a b : String × Value) : Decidable (r a b) := inferInstanceAs (Decidable (_ ≤ _))
    have hperm := List.perm_insertionSort r fields
    have hjson : (encode (.entity t fields)).sorted = .obj [("$type", .str t),
        ("fields", .obj ((fields.insertionSort r).map fun f => (f.1, (encode f.2).sorted)))] := by
      have hsort : byKey ((fields.map fun f => (f.1, encode f.2)).map fun m => (m.1, m.2.sorted)) =
          (fields.insertionSort r).map fun f => (f.1, (encode f.2).sorted) := by
        rw [byKey, List.map_map]
        exact (List.map_insertionSort r (fun a b => a.1 ≤ b.1)
          (fun f => (f.1, (encode f.2).sorted)) fields fun _ _ _ _ => Iff.rfl).symm
      rw [encode, sorted_entity, Json.sorted, sortedMembers_eq, encodeFields_eq, hsort]
    have hkwargs : ((fields.insertionSort r).map fun f => (f.1, f.2.normal)).Perm
        (normalFields fields) := by
      rw [normalFields_eq]
      exact hperm.map _
    have hnormal : (normalFields fields).map Prod.fst = specs.map (·.name) := by
      rw [normalFields_eq, List.map_map]
      exact hnames
    rw [hjson, decode_entity (find_dataclass ht),
      decodeMembers_ok (v := fun f => f.2.normal) fun f hf => ih f (hperm.mem_iff.mp hf),
      Except.ok_bind, constructEntity_ok ht hnormal hkwargs fun he => by
        rw [checkClaim_normal, hclaim he], Value.normal]

/-- What is encoded is written without loss. -/
theorem encode_writable {v : Value} (h : v.Plain) : (encode v).Writable := by
  have htagged (key : String) {items : List Json} (h : ∀ j ∈ items, j.Writable) :
      (Json.obj [(key, .arr items)]).Writable :=
    .of_members (List.nodup_singleton key) (List.forall_mem_singleton.mpr (.of_items h))
  have hset {α : Type} {f : α → Value} (items : List α) (h : ∀ a, (encode (f a)).Writable) :
      (encode (.frozenset (items.map f))).Writable := by
    rw [encode]
    apply htagged
    intro j hj
    rw [byText, (List.perm_insertionSort _ _).mem_iff, encodeItems_eq, List.map_map] at hj
    obtain ⟨a, -, rfl⟩ := List.mem_map.mp hj
    exact h a
  induction h with
  | none => exact ⟨rfl, rfl⟩
  | bool b => exact ⟨rfl, rfl⟩
  | num h => exact ⟨h, rfl⟩
  | str s => exact ⟨rfl, rfl⟩
  | enum h hname => exact ⟨rfl, rfl⟩
  | @texts items h => exact hset items fun _ => ⟨rfl, rfl⟩
  | @pairs items h =>
    apply hset items
    intro p
    exact ⟨rfl, rfl⟩
  | @tuple items h ih =>
    rw [encode, encodeItems_eq]
    apply htagged
    intro j hj
    obtain ⟨v, hv, rfl⟩ := List.mem_map.mp hj
    exact ih v hv
  | @list items h ih =>
    rw [encode, encodeItems_eq]
    apply htagged
    intro j hj
    obtain ⟨v, hv, rfl⟩ := List.mem_map.mp hj
    exact ih v hv
  | @dict entries hkeys h ih =>
    rw [encode, encodeEntries_eq, List.map_map]
    apply htagged
    intro j hj
    obtain ⟨e, he, rfl⟩ := List.mem_map.mp hj
    rw [byKeyText, (List.perm_insertionSort _ _).mem_iff] at he
    obtain ⟨e', he', rfl⟩ := List.mem_map.mp he
    apply Json.Writable.of_items
    exact List.forall_mem_cons.mpr ⟨⟨rfl, rfl⟩, List.forall_mem_singleton.mpr (ih e' he')⟩
  | @entity t specs fields ht hnames h hclaim ih =>
    have hfields : (Json.obj (encodeFields fields)).Writable := by
      rw [encodeFields_eq]
      apply Json.Writable.of_members
      · rw [List.map_map]
        exact hnames ▸ (dataclass_names ht).1
      · intro m hm
        obtain ⟨f, hf, rfl⟩ := List.mem_map.mp hm
        exact ih f hf
    rw [encode]
    apply Json.Writable.of_members
    · exact List.nodup_cons.mpr ⟨by simp, List.nodup_singleton _⟩
    · exact List.forall_mem_cons.mpr ⟨⟨rfl, rfl⟩, List.forall_mem_singleton.mpr hfields⟩

end Decoded

end Cadi
