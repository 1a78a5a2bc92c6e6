import Cadi.Library.JsonReading

namespace Library
set_option autoImplicit true

section Lookups
variable [DecidableEq κ]

theorem find_perm {l l' : List (κ × α)} (h : (l.map Prod.fst).Nodup) (hp : l.Perm l') (k : κ) :
    Dict.find l k = Dict.find l' k := by
  have h' : (l'.map Prod.fst).Nodup := (hp.map _).nodup_iff.mp h
  ext v
  rw [Dict.find_eq_some_iff h, Dict.find_eq_some_iff h', hp.mem_iff]

theorem find_map_snd (f : α → β) (l : List (κ × α)) (k : κ) :
    Dict.find (l.map fun m => (m.1, f m.2)) k = (Dict.find l k).map f := by
  induction l with
  | nil => rfl
  | cons m l ih =>
    rw [List.map_cons, Dict.find, Dict.find, ih]
    split <;> rfl

end Lookups

section Sorting

theorem itemsText_congr {js js' : List Json} (h : js.map Json.text = js'.map Json.text) :
    itemsText plainEscape js = itemsText plainEscape js' := by
  induction js generalizing js' with
  | nil =>
    obtain rfl := List.map_eq_nil_iff.mp h.symm
    rfl
  | cons j js ih =>
    obtain ⟨j', rest, rfl, hj, hrest⟩ := List.map_eq_cons_iff.mp h.symm
    have hstep := ih hrest.symm
    cases js with
    | nil =>
      obtain rfl := List.map_eq_nil_iff.mp hrest
      exact hj.symm
    | cons k js =>
      obtain ⟨k', rest, rfl, -, -⟩ := List.map_eq_cons_iff.mp hrest
      exact congrArg₂ (fun s t => s ++ ',' :: t) hj.symm hstep

mutual

@[elab_as_elim]
theorem Json.induct {P : Json σ → Prop} (null : P .null) (bool : ∀ b, P (.bool b))
    (num : ∀ n, P (.num n)) (str : ∀ s, P (.str s))
    (arr : ∀ items, (∀ j ∈ items, P j) → P (.arr items))
    (obj : ∀ members, (∀ m ∈ members, P m.2) → P (.obj members)) : (j : Json σ) → P j
  | .null => null
  | .bool b => bool b
  | .num n => num n
  | .str s => str s
  | .arr items => arr items (items_induct null bool num str arr obj items)
  | .obj members => obj members (members_induct null bool num str arr obj members)

theorem items_induct {P : Json σ → Prop} (null : P .null) (bool : ∀ b, P (.bool b))
    (num : ∀ n, P (.num n)) (str : ∀ s, P (.str s))
    (arr : ∀ items, (∀ j ∈ items, P j) → P (.arr items))
    (obj : ∀ members, (∀ m ∈ members, P m.2) → P (.obj members)) :
    (items : List (Json σ)) → ∀ j ∈ items, P j
  | [] => fun _ h => (List.not_mem_nil h).elim
  | j :: js => List.forall_mem_cons.mpr
    ⟨Json.induct null bool num str arr obj j, items_induct null bool num str arr obj js⟩

theorem members_induct {P : Json σ → Prop} (null : P .null) (bool : ∀ b, P (.bool b))
    (num : ∀ n, P (.num n)) (str : ∀ s, P (.str s))
    (arr : ∀ items, (∀ j ∈ items, P j) → P (.arr items))
    (obj : ∀ members, (∀ m ∈ members, P m.2) → P (.obj members)) :
    (members : List (σ × Json σ)) → ∀ m ∈ members, P m.2
  | [] => fun _ h => (List.not_mem_nil h).elim
  | (_, j) :: ms => List.forall_mem_cons.mpr
    ⟨Json.induct null bool num str arr obj j, members_induct null bool num str arr obj ms⟩

end

variable [LinearOrder σ]

theorem sortedItems_eq (js : List (Json σ)) : sortedItems js = js.map Json.sorted := by
  induction js with
  | nil => rfl
  | cons j js ih => rw [sortedItems, ih, List.map_cons]

theorem sortedMembers_eq (ms : List (σ × Json σ)) :
    sortedMembers ms = ms.map fun m => (m.1, m.2.sorted) := by
  induction ms with
  | nil => rfl
  | cons m ms ih => rw [sortedMembers, ih, List.map_cons]

theorem byKey_perm (ms : List (σ × Json σ)) : (byKey ms).Perm ms :=
  List.perm_insertionSort _ _

theorem byKey_sorted (ms : List (σ × Json σ)) : (byKey ms).Pairwise fun a b => a.1 ≤ b.1 := by
  have htotal : Std.Total fun a b : σ × Json σ => a.1 ≤ b.1 := ⟨fun a b => le_total a.1 b.1⟩
  have htrans : IsTrans (σ × Json σ) fun a b => a.1 ≤ b.1 := ⟨fun _ _ _ h h' => h.trans h'⟩
  exact List.pairwise_insertionSort _ _

theorem byKey_of_sorted {ms : List (σ × Json σ)} (h : ms.Pairwise fun a b => a.1 ≤ b.1) :
    byKey ms = ms :=
  List.Pairwise.insertionSort_eq h

/-- The keys keep their order when the values are sorted. -/
theorem byKey_sortedMembers (ms : List (σ × Json σ)) :
    byKey (sortedMembers ms) = sortedMembers (byKey ms) := by
  rw [sortedMembers_eq, sortedMembers_eq, byKey, byKey]
  exact (List.map_insertionSort (fun a b => a.1 ≤ b.1) (fun a b => a.1 ≤ b.1)
    (fun m => (m.1, m.2.sorted)) ms fun _ _ _ _ => Iff.rfl).symm

theorem Json.sorted_sorted (j : Json σ) : j.sorted.sorted = j.sorted := by
  induction j using Json.induct with
  | null => rfl
  | bool b => rfl
  | num n => rfl
  | str s => rfl
  | arr items ih =>
    rw [Json.sorted, Json.sorted, sortedItems_eq, sortedItems_eq, List.map_map]
    exact congrArg Json.arr (List.map_congr_left ih)
  | obj members ih =>
    have htwice : sortedMembers (sortedMembers members) = sortedMembers members := by
      rw [sortedMembers_eq, sortedMembers_eq, List.map_map]
      exact List.map_congr_left fun m hm => congrArg (m.1, ·) (ih m hm)
    rw [Json.sorted, Json.sorted, byKey_sortedMembers (byKey _), byKey_of_sorted (byKey_sorted _),
      ← byKey_sortedMembers, htwice]

theorem mem_sortedMembers {ms : List (σ × Json σ)} :
    m ∈ byKey (sortedMembers ms) ↔ ∃ m' ∈ ms, (m'.1, m'.2.sorted) = m := by
  rw [(byKey_perm _).mem_iff, sortedMembers_eq, List.mem_map]

theorem keys_sorted (ms : List (σ × Json σ)) :
    ((byKey (sortedMembers ms)).map Prod.fst).Perm (ms.map Prod.fst) := by
  have hkeys : (sortedMembers ms).map Prod.fst = ms.map Prod.fst := by
    rw [sortedMembers_eq, List.map_map]
    rfl
  exact hkeys ▸ (byKey_perm _).map _

theorem sorted_strings (j : Json σ) : s ∈ j.sorted.strings ↔ s ∈ j.strings := by
  induction j using Json.induct with
  | null | bool | num | str => exact Iff.rfl
  | arr items ih =>
    rw [Json.sorted, Json.strings, Json.strings, mem_itemStrings, mem_itemStrings, sortedItems_eq]
    simp only [List.mem_map]
    constructor
    · intro h
      obtain ⟨_, ⟨j, hj, rfl⟩, hs⟩ := h
      exact ⟨j, hj, (ih j hj).mp hs⟩
    · intro h
      obtain ⟨j, hj, hs⟩ := h
      exact ⟨j.sorted, ⟨j, hj, rfl⟩, (ih j hj).mpr hs⟩
  | obj members ih =>
    rw [Json.sorted, Json.strings, Json.strings, mem_memberStrings, mem_memberStrings, sortedMembers_eq]
    simp only [(byKey_perm _).mem_iff, List.mem_map]
    constructor
    · intro h
      obtain ⟨_, ⟨m, hm, rfl⟩, hs⟩ := h
      exact ⟨m, hm, hs.imp_right (ih m hm).mp⟩
    · intro h
      obtain ⟨m, hm, hs⟩ := h
      exact ⟨(m.1, m.2.sorted), ⟨m, hm, rfl⟩, hs.imp_right (ih m hm).mpr⟩

theorem Json.All.of_sorted {P : σ → Prop} {j : Json σ} : j.sorted.All P ↔ j.All P :=
  forall_congr' fun _ => imp_congr_left (sorted_strings j)

variable [DecidableEq σ]

/-- Sorting the members keeps what makes a value writable. -/
theorem Json.Writable.sorted {j : Json σ} (h : j.Writable) : j.sorted.Writable := by
  induction j using Json.induct with
  | null => exact h
  | bool b => exact h
  | num n => exact h
  | str s => exact h
  | arr items ih =>
    have hitem : ∀ j ∈ sortedItems items, j.Writable := by
      rw [sortedItems_eq]
      intro j hj
      obtain ⟨i, hi, rfl⟩ := List.mem_map.mp hj
      exact ih i hi (h.item hi)
    exact .of_items hitem
  | obj members ih =>
    have hmember : ∀ m ∈ byKey (sortedMembers members), m.2.Writable := by
      intro m hm
      obtain ⟨m', hm', rfl⟩ := mem_sortedMembers.mp hm
      exact ih m' hm' (h.member hm')
    have hkeys : ((byKey (sortedMembers members)).map Prod.fst).Nodup :=
      (keys_sorted members).nodup_iff.mpr h.keys
    exact .of_members hkeys hmember

theorem find_sorted {ms : List (σ × Json σ)} (h : (ms.map Prod.fst).Nodup) (k : σ) :
    Dict.find (byKey (sortedMembers ms)) k = (Dict.find ms k).map Json.sorted := by
  have hkeys : ((byKey (sortedMembers ms)).map Prod.fst).Nodup :=
    (keys_sorted ms).nodup_iff.mpr h
  rw [find_perm hkeys (byKey_perm _) k, sortedMembers_eq, find_map_snd]

end Sorting

end Library
