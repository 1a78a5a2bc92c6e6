import Cadi.Library.JsonReading

namespace Library
set_option autoImplicit true

section Parts
variable [JsonString σ] {value : Reader (Json σ)} {P : Json σ → Prop}

theorem readMore_forall {Q : α → Prop} {rest : Reader (List α)} (hitem : Q item)
    (hrest : ∀ s as r, rest s = .ok (as, r) → ∀ a ∈ as, Q a)
    (h : readMore close item rest s = .ok (as, r)) : ∀ a ∈ as, Q a := by
  unfold readMore at h
  split at h
  · cases h
  · split at h
    · cases h
      exact List.forall_mem_singleton.mpr hitem
    · split at h
      · obtain ⟨⟨bs, t⟩, hbs, h⟩ := Except.bind_eq_ok.mp h
        cases h
        exact List.forall_mem_cons.mpr ⟨hitem, hrest _ _ _ hbs⟩
      · cases h

omit [JsonString σ] in
theorem readItems_forall (hvalue : ∀ s j r, value s = .ok (j, r) → P j) :
    ∀ s js r, readItems value n s = .ok (js, r) → ∀ j ∈ js, P j := by
  induction n with
  | zero =>
    intro s js r h
    cases h
  | succ n ih =>
    intro s js r h
    obtain ⟨⟨j, t⟩, hj, h⟩ := Except.bind_eq_ok.mp h
    exact readMore_forall (hvalue _ _ _ hj) ih h

theorem readKey_joined {key : σ} (h : readKey n s = .ok (key, r)) : Joined (codePoints key) := by
  unfold readKey at h
  split at h
  · cases h
  split at h
  · obtain ⟨⟨text, t⟩, htext, h⟩ := Except.bind_eq_ok.mp h
    dsimp only at h
    split at h
    · cases h
    split at h
    · obtain ⟨rfl, -⟩ := Prod.mk.inj (Except.ok.inj h)
      exact readString_joined htext
    · cases h
  · cases h

/-- What holds of every value that is read holds of the members of an object, whose keys are read
as strings. -/
theorem readMembers_forall (hvalue : ∀ s j r, value s = .ok (j, r) → P j) :
    ∀ s ms r, readMembers value n s = .ok (ms, r) → ∀ m ∈ ms, Joined (codePoints m.1) ∧ P m.2 := by
  induction n with
  | zero =>
    intro s ms r h
    cases h
  | succ n ih =>
    intro s ms r h
    obtain ⟨⟨key, t⟩, hkey, h⟩ := Except.bind_eq_ok.mp h
    obtain ⟨⟨j, t⟩, hj, h⟩ := Except.bind_eq_ok.mp h
    exact readMore_forall (Q := fun m => Joined (codePoints m.1) ∧ P m.2)
      ⟨readKey_joined hkey, hvalue _ _ _ hj⟩ ih h

theorem readBetween_forall {Q : α → Prop} {contents : Reader (List α)}
    (hcontents : ∀ s as r, contents s = .ok (as, r) → ∀ a ∈ as, Q a)
    (h : readBetween close contents s = .ok (as, r)) : ∀ a ∈ as, Q a := by
  unfold readBetween at h
  split at h
  · cases h
    exact List.forall_mem_nil Q
  · exact hcontents _ _ _ h

end Parts

section Objects
variable [DecidableEq σ]

theorem mem_put {l : List (σ × Json σ)} (h : m ∈ Dict.put k j l) : m = (k, j) ∨ m ∈ l := by
  induction l with
  | nil => exact .inl (List.mem_singleton.mp h)
  | cons m' l ih =>
    rw [Dict.put] at h
    split at h
    · rcases List.mem_cons.mp h with h | h
      · exact .inl h
      · exact .inr (List.mem_cons_of_mem _ h)
    · rcases List.mem_cons.mp h with rfl | h
      · exact .inr List.mem_cons_self
      · exact (ih h).imp_right (List.mem_cons_of_mem _)

theorem object_spec {members : List (σ × Json σ)} :
    ((object members).map Prod.fst).Nodup ∧ ∀ m ∈ object members, m ∈ members := by
  have hloop (before after : List (σ × Json σ)) (hkeys : (before.map Prod.fst).Nodup) :
      ((after.foldl (fun ms m => Dict.put m.1 m.2 ms) before).map Prod.fst).Nodup ∧
        ∀ m ∈ after.foldl (fun ms m => Dict.put m.1 m.2 ms) before, m ∈ before ∨ m ∈ after := by
    induction after generalizing before with
    | nil => exact ⟨hkeys, fun m hm => .inl hm⟩
    | cons m after ih =>
      obtain ⟨hnodup, hmem⟩ :=
        ih (Dict.put m.1 m.2 before) ((⟨before, hkeys⟩ : Dict σ (Json σ)).set m.1 m.2).nodup
      refine ⟨hnodup, fun m' hm' => ?_⟩
      rcases hmem m' hm' with hput | hafter
      · rcases mem_put hput with rfl | hbefore
        · exact .inr List.mem_cons_self
        · exact .inl hbefore
      · exact .inr (List.mem_cons_of_mem _ hafter)
  obtain ⟨hnodup, hmem⟩ := hloop [] members List.nodup_nil
  exact ⟨hnodup, fun m hm => (hmem m hm).resolve_left List.not_mem_nil⟩

end Objects

section Proper
variable [DecidableEq σ] [JsonString σ]

/-- What a value that is read has: no object with a key twice, no surrogates that should be one
code point. -/
structure Json.Proper (j : Json σ) : Prop where
  distinct : j.distinct = true
  joined : j.Joined

theorem Json.Proper.of_items {items : List (Json σ)} (h : ∀ j ∈ items, j.Proper) :
    (Json.arr items).Proper :=
  ⟨distinctItems_iff.mpr fun j hj => (h j hj).distinct, All.arr.mpr fun j hj => (h j hj).joined⟩

theorem Json.Proper.of_members {members : List (σ × Json σ)} (hkeys : (members.map Prod.fst).Nodup)
    (h : ∀ m ∈ members, Library.Joined (codePoints m.1) ∧ m.2.Proper) : (Json.obj members).Proper := by
  refine ⟨?_, All.obj.mpr fun m hm => ⟨(h m hm).1, (h m hm).2.joined⟩⟩
  rw [Json.distinct, Bool.and_eq_true, decide_eq_true_eq]
  exact ⟨hkeys, distinctMembers_iff.mpr fun m hm => (h m hm).2.distinct⟩

end Proper

section Values
variable [DecidableEq σ] [JsonString σ] {hooks : Hooks σ} {j : Json σ}

theorem Json.Proper.bare (hd : j.distinct = true) (hs : j.strings = []) : j.Proper :=
  ⟨hd, fun s h => absurd (hs ▸ h) List.not_mem_nil⟩

theorem readNum_proper (h : readNum hooks s = .ok (j, r)) : j.Proper := by
  unfold readNum at h
  split at h
  · cases h
  · cases h
    exact .bare rfl rfl
  · obtain ⟨x, _, h⟩ := Except.bind_eq_ok.mp h
    cases h
    exact .bare rfl rfl

theorem readWord_proper (h : readWord hooks s = .ok (j, r)) : j.Proper := by
  unfold readWord at h
  repeat' split at h
  iterate 3
    · cases h
      exact .bare rfl rfl
  iterate 3
    · cases h
  · exact readNum_proper h

/-- The hook makes an object without repeated keys out of members among those given. -/
def Hooks.Proper (hooks : Hooks σ) : Prop :=
  ∀ members object, hooks.pairs members = .ok object →
    (object.map Prod.fst).Nodup ∧ ∀ m ∈ object, m ∈ members

omit [JsonString σ] in
theorem plainHooks_proper : (plainHooks : Hooks σ).Proper := by
  intro members object h
  obtain rfl := Except.ok.inj h
  exact object_spec

theorem repeatedKey_eq_none {keys : List String} (h : repeatedKey seen keys = none) :
    keys.Nodup ∧ ∀ k ∈ keys, k ∉ seen := by
  induction keys generalizing seen with
  | nil => exact ⟨List.nodup_nil, fun k hk => absurd hk List.not_mem_nil⟩
  | cons key keys ih =>
    rw [repeatedKey] at h
    split at h
    · cases h
    · next hfresh =>
      obtain ⟨hkeys, hrest⟩ := ih h
      have hkey : key ∉ keys := fun hk => hrest key hk List.mem_cons_self
      refine ⟨List.nodup_cons.mpr ⟨hkey, hkeys⟩, List.forall_mem_cons.mpr ⟨hfresh, fun k hk hseen => ?_⟩⟩
      exact hrest k hk (List.mem_cons_of_mem _ hseen)

theorem distinctHooks_proper : distinctHooks.Proper := by
  intro members object h
  rw [distinctHooks] at h
  cases hkey : repeatedKey [] (members.map Prod.fst) with
  | some key =>
    simp only [hkey] at h
    cases h
  | none =>
    simp only [hkey] at h
    obtain rfl := Except.ok.inj h
    exact ⟨(repeatedKey_eq_none hkey).1, fun m hm => hm⟩

theorem readLayer_proper {value : Reader (Json σ)} (hhooks : hooks.Proper)
    (hvalue : ∀ s j r, value s = .ok (j, r) → j.Proper) :
    ∀ s j r, readLayer hooks value n s = .ok (j, r) → j.Proper := by
  intro s j r h
  unfold readLayer at h
  split at h
  · cases h
  · split at h
    · obtain ⟨⟨text, t⟩, htext, h⟩ := Except.bind_eq_ok.mp h
      cases h
      exact ⟨rfl, Json.All.str.mpr (readString_joined htext)⟩
    · split at h
      · obtain ⟨⟨members, t⟩, hmembers, h⟩ := Except.bind_eq_ok.mp h
        obtain ⟨object, hobject, h⟩ := Except.bind_eq_ok.mp h
        cases h
        obtain ⟨hkeys, hmem⟩ := hhooks members object hobject
        have hread := readBetween_forall (Q := fun m => Joined (codePoints m.1) ∧ m.2.Proper)
          (readMembers_forall hvalue) hmembers
        exact .of_members hkeys fun m hm => hread m (hmem m hm)
      · split at h
        · obtain ⟨⟨items, t⟩, hitems, h⟩ := Except.bind_eq_ok.mp h
          cases h
          exact .of_items (readBetween_forall (readItems_forall hvalue) hitems)
        · exact readWord_proper h

theorem readValue_proper (hhooks : hooks.Proper) :
    ∀ s j r, readValue hooks n s = .ok (j, r) → j.Proper := by
  induction n with
  | zero =>
    intro s j r h
    cases h
  | succ n ih => exact readLayer_proper hhooks ih

/-- A value that is read has no object with a key twice, and its surrogates are joined. -/
theorem loadsWith_proper (hhooks : hooks.Proper) (h : loadsWith hooks s = .ok j) : j.Proper := by
  unfold loadsWith at h
  split at h
  · cases h
  · obtain ⟨⟨j', r⟩, hj, h⟩ := Except.bind_eq_ok.mp h
    change (if skip r = [] then Except.ok j' else Except.error JsonError.malformed) = _ at h
    split at h
    · cases h
      exact readValue_proper hhooks _ _ _ hj
    · cases h

end Values

end Library
