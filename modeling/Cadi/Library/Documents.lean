import Cadi.Library.JsonDumps
import Cadi.Library.Keys
import Mathlib.Data.Rat.Encodable

namespace Library
set_option autoImplicit true

section Documents

/-- A decoded JSON document whose floats are of some type. -/
inductive Doc (F : Type) where
  | null
  | bool (b : Bool)
  | int (z : Int)
  | float (x : F)
  | str (s : String)
  | arr (items : List (Doc F))
  | obj (members : List (String × Doc F))

mutual

/-- Every object of the document with its members in the order of their keys. -/
def Doc.sorted : Doc F → Doc F
  | .arr items => .arr (docItems items)
  | .obj members => .obj (sortedBy Prod.fst (docMembers members))
  | d => d

def docItems : List (Doc F) → List (Doc F)
  | [] => []
  | d :: ds => d.sorted :: docItems ds

def docMembers : List (String × Doc F) → List (String × Doc F)
  | [] => []
  | (key, d) :: ms => (key, d.sorted) :: docMembers ms

end

/-- Documents with admissible floats and no key twice. -/
inductive Doc.Writable (ok : F → Prop) : Doc F → Prop where
  | null : Writable ok .null
  | bool (b : Bool) : Writable ok (.bool b)
  | int (z : Int) : Writable ok (.int z)
  | float (h : ok x) : Writable ok (.float x)
  | str (s : String) : Writable ok (.str s)
  | arr (h : ∀ d ∈ items, Writable ok d) : Writable ok (.arr items)
  | obj (hkeys : (members.map Prod.fst).Nodup) (h : ∀ m ∈ members, Writable ok m.2) :
      Writable ok (.obj members)

/-- A writer of documents that sorts their keys, and a reader that refuses repeated keys. -/
structure Codec (F : Type) (ok : F → Prop) where
  dumps : Doc F → String
  loads : String → Option (Doc F)
  loads_dumps : ∀ d, d.Writable ok → loads (dumps d) = some d.sorted

theorem docItems_eq (ds : List (Doc F)) : docItems ds = ds.map Doc.sorted := by
  induction ds with
  | nil => rfl
  | cons d ds ih => rw [docItems, ih, List.map_cons]

theorem docMembers_eq (ms : List (String × Doc F)) :
    docMembers ms = ms.map fun m => (m.1, m.2.sorted) := by
  induction ms with
  | nil => rfl
  | cons m ms ih => rw [docMembers, ih, List.map_cons]

theorem docMembers_keys (ms : List (String × Doc F)) :
    ((sortedBy Prod.fst (docMembers ms)).map Prod.fst).Perm (ms.map Prod.fst) := by
  refine ((perm_sortedBy _ _).map _).trans ?_
  rw [docMembers_eq, List.map_map]
  exact .refl _

theorem find_docMembers {ms : List (String × Doc F)} (h : (ms.map Prod.fst).Nodup) (k : String) :
    Dict.find (sortedBy Prod.fst (docMembers ms)) k = (Dict.find ms k).map Doc.sorted := by
  rw [find_perm ((docMembers_keys ms).nodup_iff.mpr h) (perm_sortedBy _ _) k, docMembers_eq, find_map_snd]

variable {ok : F → Prop}

theorem mem_docMembers {ms : List (String × Doc F)} :
    m ∈ sortedBy Prod.fst (docMembers ms) ↔ ∃ m' ∈ ms, (m'.1, m'.2.sorted) = m := by
  rw [mem_sortedBy, docMembers_eq, List.mem_map]

theorem Doc.Writable.sorted {d : Doc F} (h : d.Writable ok) : d.sorted.Writable ok := by
  induction h with
  | null => exact .null
  | bool b => exact .bool b
  | int z => exact .int z
  | float h => exact .float h
  | str s => exact .str s
  | arr h ih =>
    refine .arr fun d hd => ?_
    rw [docItems_eq] at hd
    obtain ⟨e, he, rfl⟩ := List.mem_map.mp hd
    exact ih e he
  | @obj members hkeys h ih =>
    refine .obj ((docMembers_keys members).nodup_iff.mpr hkeys) fun m hm => ?_
    obtain ⟨m', hm', rfl⟩ := mem_docMembers.mp hm
    exact ih m' hm'

end Documents

section Json

/-- How the numbers of a document become the numbers of JSON. -/
structure NumberCoding (F : Type) (ok : F → Prop) where
  ofInt : Int → Number
  ofFloat : F → Number
  read : Number → Option (Int ⊕ F)
  read_ofInt : ∀ z, read (ofInt z) = some (.inl z)
  read_ofFloat : ∀ x, ok x → read (ofFloat x) = some (.inr x)
  written_ofInt : ∀ z, (ofInt z).Written
  written_ofFloat : ∀ x, ok x → (ofFloat x).Written

variable {ok : F → Prop} (c : NumberCoding F ok)

mutual

def Doc.toJson : Doc F → Json
  | .null => .null
  | .bool b => .bool b
  | .int z => .num (c.ofInt z)
  | .float x => .num (c.ofFloat x)
  | .str s => .str s
  | .arr items => .arr (itemsToJson items)
  | .obj members => .obj (membersToJson members)

def itemsToJson : List (Doc F) → List Json
  | [] => []
  | d :: ds => d.toJson :: itemsToJson ds

def membersToJson : List (String × Doc F) → List (String × Json)
  | [] => []
  | (key, d) :: ms => (key, d.toJson) :: membersToJson ms

end

mutual

def docOfJson : Json → Option (Doc F)
  | .null => some .null
  | .bool b => some (.bool b)
  | .num n => (c.read n).map (Sum.elim .int .float)
  | .str s => some (.str s)
  | .arr items => (itemsOfJson items).map .arr
  | .obj members => (membersOfJson members).map .obj

def itemsOfJson : List Json → Option (List (Doc F))
  | [] => some []
  | j :: js => (docOfJson j).bind fun d => (itemsOfJson js).map (d :: ·)

def membersOfJson : List (String × Json) → Option (List (String × Doc F))
  | [] => some []
  | (key, j) :: ms => (docOfJson j).bind fun d => (membersOfJson ms).map ((key, d) :: ·)

end

theorem itemsToJson_eq (ds : List (Doc F)) : itemsToJson c ds = ds.map (Doc.toJson c) := by
  induction ds with
  | nil => rfl
  | cons d ds ih => rw [itemsToJson, ih, List.map_cons]

theorem membersToJson_eq (ms : List (String × Doc F)) :
    membersToJson c ms = ms.map fun m => (m.1, m.2.toJson c) := by
  induction ms with
  | nil => rfl
  | cons m ms ih => rw [membersToJson, ih, List.map_cons]

/-- Members are sorted before or after they become JSON. -/
theorem byKey_membersToJson (ms : List (String × Doc F)) :
    byKey (membersToJson c ms) = membersToJson c (sortedBy Prod.fst ms) := by
  rw [membersToJson_eq, membersToJson_eq, byKey, sortedBy]
  exact (List.map_insertionSort (fun a b => a.1 ≤ b.1) (fun a b => a.1 ≤ b.1)
    (fun m => (m.1, m.2.toJson c)) ms fun _ _ _ _ => Iff.rfl).symm

theorem Doc.toJson_sorted (d : Doc F) (h : d.Writable ok) : (d.toJson c).sorted = d.sorted.toJson c := by
  induction h with
  | null => rfl
  | bool b => rfl
  | int z => rfl
  | float h => rfl
  | str s => rfl
  | @arr items h ih =>
    rw [Doc.toJson, Json.sorted, Doc.sorted, Doc.toJson, sortedItems_eq, itemsToJson_eq, itemsToJson_eq,
      docItems_eq, List.map_map, List.map_map]
    exact congrArg Json.arr (List.map_congr_left ih)
  | @obj members hkeys h ih =>
    have hmembers : sortedMembers (membersToJson c members) = membersToJson c (docMembers members) := by
      rw [sortedMembers_eq, membersToJson_eq, membersToJson_eq, docMembers_eq, List.map_map, List.map_map]
      exact List.map_congr_left fun m hm => congrArg (m.1, ·) (ih m hm)
    rw [Doc.toJson, Json.sorted, hmembers, byKey_membersToJson, Doc.sorted, Doc.toJson]

theorem Doc.toJson_writable (d : Doc F) (h : d.Writable ok) : (d.toJson c).Writable := by
  induction h with
  | null => exact ⟨rfl, rfl⟩
  | bool b => exact ⟨rfl, rfl⟩
  | int z =>
    have hz := c.written_ofInt z
    refine ⟨?_, rfl⟩
    rw [Doc.toJson]
    cases hn : c.ofInt z with
    | int n => rfl
    | float x =>
      rw [hn] at hz
      exact hz
  | @float x h =>
    have hx := c.written_ofFloat x h
    refine ⟨?_, rfl⟩
    rw [Doc.toJson]
    cases hn : c.ofFloat x with
    | int n => rfl
    | float y =>
      rw [hn] at hx
      exact hx
  | str s => exact ⟨rfl, rfl⟩
  | @arr items h ih =>
    have hitem : ∀ j ∈ itemsToJson c items, j.Writable := by
      rw [itemsToJson_eq]
      intro j hj
      obtain ⟨d, hd, rfl⟩ := List.mem_map.mp hj
      exact ih d hd
    exact .of_items hitem
  | @obj members hkeys h ih =>
    have hmember : ∀ m ∈ membersToJson c members, m.2.Writable := by
      rw [membersToJson_eq]
      intro m hm
      obtain ⟨m', hm', rfl⟩ := List.mem_map.mp hm
      exact ih m' hm'
    refine .of_members ?_ hmember
    rw [membersToJson_eq, List.map_map]
    exact hkeys

theorem docOfJson_toJson (d : Doc F) (h : d.Writable ok) : docOfJson c (d.toJson c) = some d := by
  induction h with
  | null => rfl
  | bool b => rfl
  | int z =>
    rw [Doc.toJson, docOfJson, c.read_ofInt]
    rfl
  | float h =>
    rw [Doc.toJson, docOfJson, c.read_ofFloat _ h]
    rfl
  | str s => rfl
  | @arr items h ih =>
    have hitems : itemsOfJson c (itemsToJson c items) = some items := by
      clear h
      induction items with
      | nil => rfl
      | cons d ds ihs =>
        rw [itemsToJson, itemsOfJson, ih d List.mem_cons_self,
          ihs fun e he => ih e (List.mem_cons_of_mem _ he)]
        rfl
    rw [Doc.toJson, docOfJson, hitems]
    rfl
  | @obj members hkeys h ih =>
    have hmembers : membersOfJson c (membersToJson c members) = some members := by
      clear h hkeys
      induction members with
      | nil => rfl
      | cons m ms ihs =>
        rw [membersToJson, membersOfJson, ih m List.mem_cons_self,
          ihs fun e he => ih e (List.mem_cons_of_mem _ he)]
        rfl
    rw [Doc.toJson, docOfJson, hmembers]
    rfl

/-- JSON text as a codec of documents. -/
def jsonCodec : Codec F ok where
  dumps d := Library.dumps (d.toJson c)
  loads s :=
    match loadsWith distinctHooks s.toList with
    | .ok j => docOfJson c j
    | .error _ => none
  loads_dumps d h := by
    rw [loadsWith_dumps distinctHooks_keeps (d.toJson_writable c h), d.toJson_sorted c h]
    exact docOfJson_toJson c _ h.sorted

/-- The floats of the machine are their own numerals. -/
def binary64Coding : NumberCoding Binary64 (fun x => x.isFinite = true) where
  ofInt := .int
  ofFloat := .float
  read
    | .int z => some (.inl z)
    | .float x => some (.inr x)
  read_ofInt _ := rfl
  read_ofFloat _ _ := rfl
  written_ofInt _ := True.intro
  written_ofFloat _ h := h

/-- Exact numbers, told from integers by their parity. -/
def rationalCoding : NumberCoding ℚ (fun _ => True) where
  ofInt z := .int (2 * z)
  ofFloat x := .int (2 * (Encodable.encode x : Int) + 1)
  read
    | .int n => if n % 2 = 0 then some (.inl (n / 2)) else (Encodable.decode (n / 2).toNat).map .inr
    | .float _ => none
  read_ofInt z := by
    dsimp only
    rw [if_pos (Int.mul_emod_right 2 z), Int.mul_ediv_cancel_left z (by decide)]
  read_ofFloat x _ := by
    dsimp only
    have hhalf : (2 * (Encodable.encode x : Int) + 1) / 2 = Encodable.encode x := by omega
    rw [if_neg (by omega), hhalf, Int.toNat_natCast, Encodable.encodek]
    rfl
  written_ofInt _ := True.intro
  written_ofFloat _ _ := True.intro

end Json

end Library
