import Mathlib.Data.List.Nodup
import Mathlib.Data.List.Basic

namespace Library
set_option autoImplicit true

/-- A finite map that remembers the order in which its keys were first inserted. -/
structure Dict (κ α : Type) where
  entries : List (κ × α)
  nodup : (entries.map Prod.fst).Nodup
deriving DecidableEq

namespace Dict

def empty : Dict κ α := ⟨[], .nil⟩

instance : EmptyCollection (Dict κ α) := ⟨empty⟩

def keys (d : Dict κ α) : List κ := d.entries.map Prod.fst

def values (d : Dict κ α) : List α := d.entries.map Prod.snd

section Lists
variable [DecidableEq κ]

def find : List (κ × α) → κ → Option α
  | [], _ => none
  | (k', v) :: l, k => if k' = k then some v else find l k

/-- Overwrites the entry of a key in place, or appends a new entry. -/
def put (k : κ) (v : α) : List (κ × α) → List (κ × α)
  | [] => [(k, v)]
  | (k', v') :: l => if k' = k then (k, v) :: l else (k', v') :: put k v l

theorem find_put (l : List (κ × α)) (k : κ) (v : α) (x : κ) :
    find (put k v l) x = if k = x then some v else find l x := by
  induction l with
  | nil => rfl
  | cons p l ih =>
    obtain ⟨k', v'⟩ := p
    by_cases hk : k' = k
    · subst hk
      simp only [put, find, ↓reduceIte]
      split <;> rfl
    · simp only [put, find, if_neg hk, ih]
      by_cases hx : k' = x
      · subst hx
        simp only [↓reduceIte, if_neg (Ne.symm hk)]
      · simp only [if_neg hx]

theorem keys_put (l : List (κ × α)) (k : κ) (v : α) :
    (put k v l).map Prod.fst =
      if k ∈ l.map Prod.fst then l.map Prod.fst else l.map Prod.fst ++ [k] := by
  induction l with
  | nil => rfl
  | cons p l ih =>
    obtain ⟨k', v'⟩ := p
    by_cases hk : k' = k
    · subst hk
      simp only [put, ↓reduceIte, List.map_cons, List.mem_cons, true_or]
    · have hk' : ¬ k = k' := Ne.symm hk
      simp only [put, if_neg hk, List.map_cons, ih, List.mem_cons, hk', false_or]
      split <;> rfl

theorem put_new (l : List (κ × α)) (h : k ∉ l.map Prod.fst) (v : α) :
    put k v l = l ++ [(k, v)] := by
  induction l with
  | nil => rfl
  | cons p l ih =>
    simp only [List.map_cons, List.mem_cons, not_or] at h
    simp only [put, if_neg (Ne.symm h.1), ih h.2, List.cons_append]

theorem put_put (l : List (κ × α)) (k : κ) (v w : α) : put k w (put k v l) = put k w l := by
  induction l with
  | nil => simp only [put, ↓reduceIte]
  | cons p l ih =>
    obtain ⟨k', v'⟩ := p
    by_cases hk : k' = k
    · simp only [put, hk, ↓reduceIte]
    · simp only [put, hk, ↓reduceIte, ih]

/-- Overwriting an entry leaves every projection that agrees on the old and new value. -/
theorem map_put (l : List (κ × α)) (f : κ × α → β) (h : find l k = some w)
    (hf : f (k, v) = f (k, w)) : (put k v l).map f = l.map f := by
  induction l with
  | nil => cases h
  | cons p l ih =>
    obtain ⟨k', v'⟩ := p
    by_cases hk : k' = k
    · subst hk
      simp only [find, ↓reduceIte, Option.some.injEq] at h
      subst h
      simp only [put, ↓reduceIte, List.map_cons, hf]
    · simp only [find, if_neg hk] at h
      simp only [put, if_neg hk, List.map_cons, ih h]

theorem find_eq_some_iff {l : List (κ × α)} (hn : (l.map Prod.fst).Nodup) :
    find l k = some v ↔ (k, v) ∈ l := by
  induction l with
  | nil => simp only [find, List.not_mem_nil, reduceCtorEq]
  | cons p l ih =>
    obtain ⟨k', v'⟩ := p
    rw [List.map_cons, List.nodup_cons] at hn
    by_cases hk : k' = k
    · subst hk
      have hout : (k', v) ∉ l := fun hm => hn.1 (List.mem_map.mpr ⟨(k', v), hm, rfl⟩)
      simp only [find, ↓reduceIte, Option.some.injEq, List.mem_cons, Prod.mk.injEq, true_and,
        hout, or_false]
      exact eq_comm
    · simp only [find, if_neg hk, ih hn.2, List.mem_cons, Prod.mk.injEq, Ne.symm hk, false_and,
        false_or]

end Lists

section Operations
variable [DecidableEq κ]

def get? (d : Dict κ α) (k : κ) : Option α := find d.entries k

instance : Membership κ (Dict κ α) := ⟨fun d k => k ∈ d.keys⟩

instance (d : Dict κ α) (k : κ) : Decidable (k ∈ d) := inferInstanceAs (Decidable (k ∈ d.keys))

def set (d : Dict κ α) (k : κ) (v : α) : Dict κ α where
  entries := put k v d.entries
  nodup := by
    rw [keys_put]
    split
    · exact d.nodup
    · next h => exact List.nodup_append.mpr ⟨d.nodup, List.nodup_singleton k, by
        intro a ha b hb he
        rw [List.mem_singleton] at hb
        subst hb
        subst he
        exact h ha⟩

def erase (d : Dict κ α) (k : κ) : Dict κ α where
  entries := d.entries.filter (·.1 ≠ k)
  nodup := d.nodup.sublist (List.filter_sublist.map _)

def ofList (l : List (κ × α)) : Dict κ α := l.foldl (fun d p => d.set p.1 p.2) empty

end Operations

def mapValues (f : α → β) (d : Dict κ α) : Dict κ β where
  entries := d.entries.map fun p => (p.1, f p.2)
  nodup := by
    rw [List.map_map]
    exact d.nodup

section Laws
variable [DecidableEq κ] {d : Dict κ α}

theorem get?_eq_some_iff : d.get? k = some v ↔ (k, v) ∈ d.entries :=
  find_eq_some_iff d.nodup

theorem mem_values_iff : v ∈ d.values ↔ ∃ k, d.get? k = some v := by
  simp only [values, List.mem_map, get?_eq_some_iff, Prod.exists, exists_eq_right]

theorem forall_values_iff {P : α → Prop} :
    (∀ v ∈ d.values, P v) ↔ ∀ k v, d.get? k = some v → P v := by
  simp only [mem_values_iff, forall_exists_index]
  exact forall_comm

theorem forall_entries_iff {P : κ × α → Prop} :
    (∀ p ∈ d.entries, P p) ↔ ∀ k v, d.get? k = some v → P (k, v) := by
  simp only [Prod.forall, get?_eq_some_iff]

theorem mem_iff : k ∈ d ↔ ∃ v, d.get? k = some v := by
  change k ∈ d.entries.map Prod.fst ↔ _
  simp only [List.mem_map, get?_eq_some_iff, Prod.exists, exists_and_right, exists_eq_right]

theorem mem_keys_iff : k ∈ d.keys ↔ ∃ v, d.get? k = some v := mem_iff

theorem mem_of_get? (h : d.get? k = some v) : k ∈ d := mem_iff.mpr ⟨v, h⟩

theorem ne_of_get? (hk : k ∉ d) (h : d.get? x = some v) : k ≠ x := by
  rintro rfl
  exact hk (mem_of_get? h)

theorem get?_eq_none_iff : d.get? k = none ↔ k ∉ d := by
  rw [mem_iff, Option.eq_none_iff_forall_ne_some]
  exact not_exists.symm

@[simp] theorem get?_empty (k : κ) : (∅ : Dict κ α).get? k = none := rfl

theorem get?_set (d : Dict κ α) (k : κ) (v : α) (x : κ) :
    (d.set k v).get? x = if k = x then some v else d.get? x :=
  find_put d.entries k v x

@[simp] theorem get?_set_self (d : Dict κ α) (k : κ) (v : α) : (d.set k v).get? k = some v := by
  rw [get?_set, if_pos rfl]

@[simp] theorem set_set (d : Dict κ α) (k : κ) (v w : α) : (d.set k v).set k w = d.set k w := by
  simp only [set, put_put]

theorem get?_set_ne (d : Dict κ α) (v : α) (h : k ≠ x) : (d.set k v).get? x = d.get? x := by
  rw [get?_set, if_neg h]

theorem get?_set_eq_some_iff :
    (d.set k v).get? x = some w ↔ (k = x ∧ v = w) ∨ (k ≠ x ∧ d.get? x = some w) := by
  rw [get?_set]
  by_cases h : k = x
  · simp only [h, ↓reduceIte, Option.some.injEq, true_and, ne_eq, not_true_eq_false, false_and,
      or_false]
  · simp only [h, ↓reduceIte, false_and, ne_eq, not_false_eq_true, true_and, false_or]

/-- What holds of the entries of a dictionary and of a new one holds after its insertion. -/
theorem forall_set {P : κ → α → Prop} (h : ∀ x w, d.get? x = some w → P x w) (hn : P k v) :
    ∀ x w, (d.set k v).get? x = some w → P x w := by
  intro x w hw
  rcases get?_set_eq_some_iff.mp hw with ⟨rfl, rfl⟩ | ⟨_, hw⟩
  · exact hn
  · exact h x w hw

theorem mem_set : x ∈ d.set k v ↔ k = x ∨ x ∈ d := by
  simp only [mem_iff, get?_set]
  by_cases h : k = x
  · simp only [h, ↓reduceIte, Option.some.injEq, exists_eq', true_or]
  · simp only [h, ↓reduceIte, false_or]

theorem keys_set_old (h : k ∈ d) (v : α) : (d.set k v).keys = d.keys := by
  change (put k v d.entries).map Prod.fst = d.entries.map Prod.fst
  exact (keys_put d.entries k v).trans (if_pos h)

theorem keys_set_new (h : k ∉ d) (v : α) : (d.set k v).keys = d.keys ++ [k] := by
  change (put k v d.entries).map Prod.fst = d.entries.map Prod.fst ++ [k]
  exact (keys_put d.entries k v).trans (if_neg h)

theorem entries_set_new (h : k ∉ d) (v : α) : (d.set k v).entries = d.entries ++ [(k, v)] :=
  put_new d.entries h v

theorem values_set_new (h : k ∉ d) (v : α) : (d.set k v).values = d.values ++ [v] := by
  rw [values, entries_set_new h, List.map_append]
  rfl

theorem entries_map_set_old (f : κ × α → β) (h : d.get? k = some w) (hf : f (k, v) = f (k, w)) :
    (d.set k v).entries.map f = d.entries.map f :=
  map_put d.entries f h hf

theorem values_map_set_old (f : α → β) (h : d.get? k = some w) (hf : f v = f w) :
    (d.set k v).values.map f = d.values.map f := by
  rw [values, values, List.map_map, List.map_map]
  exact entries_map_set_old (f ∘ Prod.snd) h hf

theorem erase_set_new (h : k ∉ d) (v : α) : (d.set k v).erase k = d := by
  obtain ⟨l, hn⟩ := d
  have hl : (put k v l).filter (·.1 ≠ k) = l := by
    rw [put_new l h, List.filter_append]
    have hkeep : l.filter (·.1 ≠ k) = l := by
      rw [List.filter_eq_self]
      intro p hp
      have hne : p.1 ≠ k := fun he => h (he ▸ List.mem_map_of_mem hp)
      exact decide_eq_true hne
    have hdrop : [(k, v)].filter (·.1 ≠ k) = [] := by
      simp only [ne_eq, decide_not, List.filter_cons, decide_true, Bool.not_true,
        Bool.false_eq_true, ↓reduceIte, List.filter_nil]
    rw [hkeep, hdrop, List.append_nil]
  simp only [erase, set, hl]

theorem get?_erase_eq_some_iff : (d.erase k).get? x = some v ↔ k ≠ x ∧ d.get? x = some v := by
  rw [get?_eq_some_iff, get?_eq_some_iff]
  simp only [erase, List.mem_filter, decide_eq_true_eq]
  exact ⟨fun h => ⟨h.2.symm, h.1⟩, fun h => ⟨h.2, h.1.symm⟩⟩

theorem mem_erase : x ∈ d.erase k ↔ k ≠ x ∧ x ∈ d := by
  simp only [mem_iff, get?_erase_eq_some_iff, exists_and_left]

theorem keys_erase_length (h : k ∈ d) : (d.erase k).keys.length + 1 = d.keys.length := by
  have hn : d.keys.Nodup := d.nodup
  have hkeys : (d.erase k).keys = d.keys.erase k := by
    rw [hn.erase_eq_filter, keys, keys, List.filter_map]
    congr 1
    apply List.filter_congr
    intro p _
    simp only [ne_eq, decide_not, Function.comp_apply, bne, beq_eq_decide]
  rw [hkeys, List.length_erase_of_mem h]
  have hpos := List.length_pos_of_mem h
  omega

theorem mem_of_get?_ofList {l : List (κ × α)} (h : (ofList l).get? k = some v) : (k, v) ∈ l := by
  have hloop (l : List (κ × α)) (e : Dict κ α)
      (h : (l.foldl (fun d p => d.set p.1 p.2) e).get? k = some v) :
      e.get? k = some v ∨ (k, v) ∈ l := by
    induction l generalizing e with
    | nil => exact .inl h
    | cons p l ih =>
      rcases ih _ h with hset | hmem
      · rw [get?_set_eq_some_iff] at hset
        rcases hset with ⟨rfl, rfl⟩ | ⟨_, hget⟩
        · exact .inr List.mem_cons_self
        · exact .inl hget
      · exact .inr (List.mem_cons_of_mem _ hmem)
  rcases hloop l empty h with hempty | hmem
  · cases hempty
  · exact hmem

theorem mem_ofList {l : List (κ × α)} (h : k ∈ l.map Prod.fst) : k ∈ ofList l := by
  have hloop (l : List (κ × α)) (e : Dict κ α) (h : k ∈ e ∨ k ∈ l.map Prod.fst) :
      k ∈ l.foldl (fun d p => d.set p.1 p.2) e := by
    induction l generalizing e with
    | nil => exact h.resolve_right List.not_mem_nil
    | cons p l ih =>
      apply ih
      rw [mem_set]
      rcases h with he | hl
      · exact .inl (.inr he)
      · rcases List.mem_cons.mp hl with rfl | hl
        · exact .inl (.inl rfl)
        · exact .inr hl
  exact hloop l empty (.inr h)

theorem forall_erase {P : κ → α → Prop} (h : ∀ x w, d.get? x = some w → P x w) :
    ∀ x w, (d.erase k).get? x = some w → P x w := by
  intro x w hw
  exact h x w (get?_eq_some_iff.mpr (List.mem_filter.mp (get?_eq_some_iff.mp hw)).1)

@[simp] theorem get?_mapValues (f : α → β) (d : Dict κ α) (k : κ) :
    (d.mapValues f).get? k = (d.get? k).map f := by
  change find (d.entries.map fun p => (p.1, f p.2)) k = (find d.entries k).map f
  generalize d.entries = l
  induction l with
  | nil => rfl
  | cons p l ih =>
    simp only [List.map_cons, find, ih]
    split <;> rfl

theorem entries_set_middle {pre post : List (κ × α)} (h : d.entries = pre ++ p :: post) (v : α) :
    (d.set p.1 v).entries = pre ++ (p.1, v) :: post := by
  have hn := d.nodup
  rw [h, List.map_append, List.map_cons] at hn
  have hout : p.1 ∉ pre.map Prod.fst := fun hm =>
    (List.nodup_append.mp hn).2.2 _ hm _ List.mem_cons_self rfl
  change put p.1 v d.entries = _
  rw [h]
  clear h hn
  induction pre with
  | nil => simp only [List.nil_append, put, ↓reduceIte]
  | cons q pre ih =>
    simp only [List.map_cons, List.mem_cons, not_or] at hout
    simp only [List.cons_append, put, if_neg (Ne.symm hout.1), ih hout.2]

omit [DecidableEq κ] in
/-- A loop over the entries each step of which maps the value of its entry maps all values. -/
theorem foldl_entries {step : Dict κ α → κ × α → Dict κ α} {f : α → α}
    (hstep : ∀ e p pre post, e.entries = pre ++ p :: post →
      (step e p).entries = pre ++ (p.1, f p.2) :: post) (d : Dict κ α) :
    d.entries.foldl step d = d.mapValues f := by
  have hloop (post : List (κ × α)) (e : Dict κ α) (pre : List (κ × α))
      (he : e.entries = pre ++ post) :
      (post.foldl step e).entries = pre ++ post.map fun p => (p.1, f p.2) := by
    induction post generalizing e pre with
    | nil => simpa only [List.foldl_nil, List.map_nil] using he
    | cons p post ih =>
      have hset : (step e p).entries = (pre ++ [(p.1, f p.2)]) ++ post := by
        rw [hstep e p pre post he, List.append_assoc]
        rfl
      rw [List.foldl_cons, ih _ _ hset, List.append_assoc]
      rfl
  have h := hloop d.entries d [] rfl
  rw [List.nil_append] at h
  cases hd : d.entries.foldl step d with
  | mk l hl =>
    rw [hd] at h
    subst h
    rfl

theorem foldl_set_entries (f : α → α) (d : Dict κ α) :
    d.entries.foldl (fun e p => e.set p.1 (f p.2)) d = d.mapValues f :=
  foldl_entries (fun _ _ _ _ he => entries_set_middle he _) d

theorem foldl_set_unless (c : α → Prop) [DecidablePred c] (f : α → α) (d : Dict κ α) :
    d.entries.foldl (fun e p => if c p.2 then e else e.set p.1 (f p.2)) d =
      d.mapValues fun v => if c v then v else f v := by
  apply foldl_entries
  intro e p pre post he
  split
  · exact he
  · exact entries_set_middle he _

omit [DecidableEq κ] in
@[simp] theorem keys_mapValues (f : α → β) (d : Dict κ α) : (d.mapValues f).keys = d.keys := by
  simp only [keys, mapValues, List.map_map, Function.comp_def]

omit [DecidableEq κ] in
@[simp] theorem mem_mapValues (f : α → β) (d : Dict κ α) (k : κ) : k ∈ d.mapValues f ↔ k ∈ d := by
  change k ∈ (d.mapValues f).keys ↔ k ∈ d.keys
  rw [keys_mapValues]

end Laws

/-- A dictionary is determined by the order of its keys and the values at them. -/
theorem ext_of_keys [DecidableEq κ] {d e : Dict κ α} (hk : d.keys = e.keys)
    (hv : ∀ k, d.get? k = e.get? k) :
    d = e := by
  have hlist (l l' : List (κ × α)) (hn : (l.map Prod.fst).Nodup)
      (hkeys : l.map Prod.fst = l'.map Prod.fst) (hfind : ∀ k, find l k = find l' k) : l = l' := by
    induction l generalizing l' with
    | nil => exact (List.map_eq_nil_iff.mp hkeys.symm).symm
    | cons p l ih =>
      cases l' with
      | nil => cases hkeys
      | cons p' l' =>
        simp only [List.map_cons, List.cons.injEq] at hkeys
        obtain ⟨hhead, htail⟩ := hkeys
        have hvalue := hfind p.1
        simp only [find, ↓reduceIte, hhead, Option.some.injEq] at hvalue
        rw [List.map_cons, List.nodup_cons] at hn
        have hrest (k : κ) : find l k = find l' k := by
          by_cases hke : p.1 = k
          · subst hke
            have hout (l : List (κ × α)) (hm : p.1 ∉ l.map Prod.fst) : find l p.1 = none := by
              induction l with
              | nil => rfl
              | cons q l ihl =>
                simp only [List.map_cons, List.mem_cons, not_or] at hm
                simp only [find, if_neg (Ne.symm hm.1), ihl hm.2]
            rw [hout l hn.1, hout l' (htail ▸ hn.1)]
          · have h := hfind k
            simpa only [find, if_neg hke, if_neg (hhead ▸ hke)] using h
        rw [ih l' hn.2 htail hrest, Prod.ext hhead hvalue]
  obtain ⟨l, hn⟩ := d
  obtain ⟨l', hn'⟩ := e
  obtain rfl := hlist l l' hn hk hv
  rfl

theorem set_same [DecidableEq κ] {d : Dict κ α} (h : d.get? k = some v) : d.set k v = d := by
  apply ext_of_keys
  · exact keys_set_old (mem_of_get? h) v
  · intro x
    rw [get?_set]
    split
    · next he => rw [← he, h]
    · rfl

section Selections
variable [DecidableEq κ] {d : Dict κ α} {p : κ × α → Bool}

/-- The keys of the entries that meet a condition, in their order. -/
def select (p : κ × α → Bool) (d : Dict κ α) : List κ := (d.entries.filter p).map Prod.fst

theorem mem_select : k ∈ d.select p ↔ ∃ v, d.get? k = some v ∧ p (k, v) = true := by
  simp only [select, List.mem_map, List.mem_filter, get?_eq_some_iff, Prod.exists, exists_and_right,
    exists_eq_right]

omit [DecidableEq κ] in
theorem select_sublist (p : κ × α → Bool) (d : Dict κ α) : (d.select p).Sublist d.keys :=
  List.filter_sublist.map _

omit [DecidableEq κ] in
theorem nodup_select (p : κ × α → Bool) (d : Dict κ α) : (d.select p).Nodup :=
  d.nodup.sublist (select_sublist p d)

theorem entries_split (h : d.get? k = some v) :
    ∃ pre post, d.entries = pre ++ (k, v) :: post ∧
      ∀ w, (d.set k w).entries = pre ++ (k, w) :: post := by
  obtain ⟨pre, post, hsplit⟩ := List.append_of_mem (get?_eq_some_iff.mp h)
  exact ⟨pre, post, hsplit, fun w => entries_set_middle hsplit w⟩

theorem eq_empty (h : ∀ k, d.get? k = none) : d = ∅ := by
  obtain ⟨entries, hn⟩ := d
  cases entries with
  | nil => rfl
  | cons p entries =>
    have hp : p ∈ p :: entries := List.mem_cons_self
    rw [← get?_eq_some_iff (d := ⟨p :: entries, hn⟩), h] at hp
    cases hp

theorem erase_split (h : d.get? k = some v) :
    ∃ pre post, d.entries = pre ++ (k, v) :: post ∧ (d.erase k).entries = pre ++ post ∧
      ∀ w, (d.set k w).entries = pre ++ (k, w) :: post := by
  obtain ⟨pre, post, hsplit, hset⟩ := entries_split h
  have hn := d.nodup
  rw [hsplit, List.map_append, List.map_cons] at hn
  have hkept (l : List (κ × α)) (hl : k ∉ l.map Prod.fst) : l.filter (·.1 ≠ k) = l := by
    rw [List.filter_eq_self]
    intro p hp
    have hne : p.1 ≠ k := fun he => hl (he ▸ List.mem_map_of_mem hp)
    exact decide_eq_true hne
  have hpre : k ∉ pre.map Prod.fst := fun hm =>
    (List.nodup_append.mp hn).2.2 _ hm _ List.mem_cons_self rfl
  have hpost : k ∉ post.map Prod.fst := (List.nodup_cons.mp (List.nodup_append.mp hn).2.1).1
  refine ⟨pre, post, hsplit, ?_, hset⟩
  change d.entries.filter (·.1 ≠ k) = pre ++ post
  rw [hsplit, List.filter_append, List.filter_cons_of_neg (by simp only [ne_eq, not_true_eq_false,
    decide_false, Bool.false_eq_true, not_false_eq_true]), hkept pre hpre, hkept post hpost]

theorem perm_erase (h : d.get? k = some v) : d.entries.Perm ((k, v) :: (d.erase k).entries) := by
  obtain ⟨pre, post, hsplit, herase, _⟩ := erase_split h
  rw [hsplit, herase]
  exact List.perm_middle

theorem perm_set (h : d.get? k = some v) (w : α) :
    (d.set k w).entries.Perm ((k, w) :: (d.erase k).entries) := by
  obtain ⟨pre, post, _, herase, hset⟩ := erase_split h
  rw [hset, herase]
  exact List.perm_middle

/-- An entry that no longer meets the condition leaves the selection. -/
theorem select_set_old (h : d.get? k = some v) (hp : p (k, w) = false) :
    (d.set k w).select p = (d.select p).erase k := by
  obtain ⟨pre, post, hsplit, hset⟩ := entries_split h
  have hout : k ∉ (pre.filter p).map Prod.fst := by
    have hn := d.nodup
    rw [hsplit, List.map_append, List.map_cons] at hn
    intro hm
    have hkey := (List.filter_sublist.map Prod.fst).subset hm
    exact (List.nodup_append.mp hn).2.2 _ hkey _ List.mem_cons_self rfl
  have hout' : k ∉ (post.filter p).map Prod.fst := by
    have hn := d.nodup
    rw [hsplit, List.map_append, List.map_cons] at hn
    intro hm
    have hkey := (List.filter_sublist.map Prod.fst).subset hm
    exact (List.nodup_cons.mp (List.nodup_append.mp hn).2.1).1 hkey
  rw [select, select, hset, hsplit, List.filter_append, List.filter_append, List.filter_cons,
    List.filter_cons, hp, List.map_append, List.map_append, List.erase_append_right _ hout]
  congr 1
  cases p (k, v) with
  | true => exact (List.erase_cons_head k _).symm
  | false => exact (List.erase_of_not_mem hout').symm

theorem select_set_new (h : k ∉ d) (v : α) :
    (d.set k v).select p = d.select p ++ if p (k, v) then [k] else [] := by
  rw [select, entries_set_new h, List.filter_append, List.map_append, select]
  congr 1
  by_cases hp : p (k, v) = true
  · rw [if_pos hp, List.filter_cons_of_pos hp]
    rfl
  · rw [if_neg hp, List.filter_cons_of_neg hp]
    rfl

/-- A relation along the entries holds after an entry is rewritten if it holds between that entry
and those before and after it. -/
theorem pairwise_set_old {S : κ × α → κ × α → Prop} (hd : d.entries.Pairwise S)
    (h : d.get? k = some v)
    (hbefore : ∀ pre post, d.entries = pre ++ (k, v) :: post → ∀ q ∈ pre, S q (k, v) → S q (k, w))
    (hafter : ∀ q, S (k, v) q → S (k, w) q) : (d.set k w).entries.Pairwise S := by
  obtain ⟨pre, post, hsplit, hset⟩ := entries_split h
  have hd' := hd
  rw [hsplit, List.pairwise_append, List.pairwise_cons] at hd'
  obtain ⟨hpre, ⟨hhead, hpost⟩, hcross⟩ := hd'
  rw [hset, List.pairwise_append, List.pairwise_cons]
  refine ⟨hpre, ⟨fun q hq => hafter q (hhead q hq), hpost⟩, fun q hq q' hq' => ?_⟩
  rcases List.mem_cons.mp hq' with rfl | hq'
  · exact hbefore pre post hsplit q hq (hcross q hq _ List.mem_cons_self)
  · exact hcross q hq q' (List.mem_cons_of_mem _ hq')

omit [DecidableEq κ] in
theorem select_head (h : d.select p = k :: rest) (hsplit : d.entries = pre ++ (k, v) :: post)
    (hq : q ∈ pre) : p q = false := by
  by_contra hp
  rw [Bool.not_eq_false] at hp
  have hn := d.nodup
  rw [hsplit, List.map_append, List.map_cons, List.nodup_append] at hn
  rw [select, hsplit, List.filter_append, List.map_append] at h
  have hmem : q ∈ pre.filter p := List.mem_filter.mpr ⟨hq, hp⟩
  cases hf : pre.filter p with
  | nil =>
    rw [hf] at hmem
    cases hmem
  | cons q' l =>
    rw [hf, List.map_cons, List.cons_append, List.cons.injEq] at h
    have hq' : q' ∈ pre := (List.mem_filter.mp (hf ▸ List.mem_cons_self)).1
    exact hn.2.2 _ (List.mem_map_of_mem hq') _ List.mem_cons_self h.1

omit [DecidableEq κ] in
theorem select_mapValues (p : κ × α → Bool) (f : α → α) (d : Dict κ α) :
    (d.mapValues f).select p = d.select fun q => p (q.1, f q.2) := by
  simp only [select, mapValues, List.filter_map, List.map_map]
  rfl

omit [DecidableEq κ] in
theorem pairwise_mapValues {S : κ × α → κ × α → Prop} {f : α → α}
    (h : d.entries.Pairwise fun p q => S (p.1, f p.2) (q.1, f q.2)) :
    (d.mapValues f).entries.Pairwise S :=
  List.pairwise_map.mpr h

end Selections

/-- Equality of dictionaries as maps, whatever their insertion orders. -/
def Same [DecidableEq κ] (d e : Dict κ α) : Prop := ∀ k, d.get? k = e.get? k

theorem Same.refl [DecidableEq κ] (d : Dict κ α) : d.Same d := fun _ => rfl

theorem Same.symm [DecidableEq κ] {d e : Dict κ α} (h : d.Same e) : e.Same d := fun k => (h k).symm

theorem Same.trans [DecidableEq κ] {d e f : Dict κ α} (h : d.Same e) (h' : e.Same f) : d.Same f :=
  fun k => (h k).trans (h' k)

theorem Same.set [DecidableEq κ] {d e : Dict κ α} (h : d.Same e) (k : κ) (v : α) :
    (d.set k v).Same (e.set k v) := by
  intro x
  rw [get?_set, get?_set, h x]

theorem Same.erase [DecidableEq κ] {d e : Dict κ α} (h : d.Same e) (k : κ) :
    (d.erase k).Same (e.erase k) := by
  intro x
  ext v
  rw [get?_erase_eq_some_iff, get?_erase_eq_some_iff, h x]

section Growth
variable [DecidableEq κ] {d d' d'' : Dict κ α} {R : α → α → Prop}

/-- Every entry is kept, up to a relation between its old and its new value. -/
def Grows (R : α → α → Prop) (d d' : Dict κ α) : Prop :=
  ∀ k v, d.get? k = some v → ∃ w, d'.get? k = some w ∧ R v w

theorem Grows.refl (hR : ∀ v, R v v) (d : Dict κ α) : d.Grows R d := fun _ v h => ⟨v, h, hR v⟩

theorem Grows.trans (hR : ∀ {u v w}, R u v → R v w → R u w) (h : d.Grows R d')
    (h' : d'.Grows R d'') : d.Grows R d'' := by
  intro k u hu
  obtain ⟨v, hv, huv⟩ := h k u hu
  obtain ⟨w, hw, hvw⟩ := h' k v hv
  exact ⟨w, hw, hR huv hvw⟩

theorem Grows.mem (h : d.Grows R d') (hk : k ∈ d) : k ∈ d' := by
  obtain ⟨v, hv⟩ := mem_iff.mp hk
  obtain ⟨w, hw, _⟩ := h k v hv
  exact mem_of_get? hw

theorem Grows.set_new (hR : ∀ v, R v v) (hk : k ∉ d) (v : α) : d.Grows R (d.set k v) := by
  intro x w hw
  refine ⟨w, ?_, hR w⟩
  rw [get?_set_ne d v fun he : k = x => hk (he ▸ mem_of_get? hw), hw]

theorem Grows.set_old (hR : ∀ v, R v v) (hk : d.get? k = some v) (hvw : R v w) :
    d.Grows R (d.set k w) := by
  intro x u hu
  by_cases he : k = x
  · subst he
    rw [hk, Option.some.injEq] at hu
    subst hu
    exact ⟨w, get?_set_self d k w, hvw⟩
  · exact ⟨u, (get?_set_ne d w he).trans hu, hR u⟩

theorem Grows.mapValues {f : α → α} (hf : ∀ v, R v (f v)) (d : Dict κ α) :
    d.Grows R (d.mapValues f) := by
  intro k v hv
  exact ⟨f v, by rw [get?_mapValues, hv, Option.map_some], hf v⟩

end Growth

end Dict

end Library
