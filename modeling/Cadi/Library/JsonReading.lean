import Cadi.Library.Json

namespace Library
set_option autoImplicit true

section Spaces

theorem skip_cons {c : Char} (h : isSpace c = false) (s : Text) : skip (c :: s) = c :: s := by
  simp only [skip, List.dropWhile_cons, h, Bool.false_eq_true, ↓reduceIte]

/-- The text starts with a character that is neither a space nor one that closes or separates. -/
def Begins (t : Text) : Prop :=
  ∃ c cs, t = c :: cs ∧ isSpace c = false ∧ c ≠ ']' ∧ c ≠ '}' ∧ c ≠ ',' ∧ c ≠ '\uFEFF'

theorem Begins.skip (h : Begins t) (r : Text) : skip (t ++ r) = t ++ r := by
  obtain ⟨c, cs, rfl, hc, _⟩ := h
  exact skip_cons hc _

theorem Begins.length_pos (h : Begins t) : 0 < t.length := by
  obtain ⟨c, cs, rfl, _⟩ := h
  exact Nat.succ_pos _

end Spaces

/-- The reader takes the text of a value off whatever follows it. -/
def Reads (value : Reader α) (t : Text) (a : α) : Prop :=
  ∀ r, NumberEnd r → value (t ++ r) = .ok (a, r)

section Layers
variable [JsonString σ] {escape : σ → Text} {j : Json σ}

theorem numberEnd_cons {c : Char} (h : c = ',' ∨ c = ']' ∨ c = '}') (r : Text) : NumberEnd (c :: r) := by
  intro d hd
  rw [List.head?_cons, Option.mem_some_iff] at hd
  subst hd
  rcases h with rfl | rfl | rfl <;> decide

omit [JsonString σ] in
theorem itemsText_begins {js : List (Json σ)} (h : Begins (j.write escape)) :
    Begins (itemsText escape (j :: js)) := by
  obtain ⟨c, cs, hc, hbegins⟩ := h
  cases js with
  | nil => exact ⟨c, cs, hc, hbegins⟩
  | cons k js => exact ⟨c, _, by rw [itemsText, hc, List.cons_append], hbegins⟩

theorem readBetween_begins {close : Char} {contents : Reader (List α)} (h : Begins t)
    (hclose : close = ']' ∨ close = '}') (r : Text) :
    readBetween close contents (t ++ r) = contents (t ++ r) := by
  obtain ⟨c, cs, rfl, hspace, hbracket, hbrace, _⟩ := h
  have hne : ¬ (c :: (cs ++ r)).head? = some close := by
    intro he
    rw [List.head?_cons, Option.some.injEq] at he
    rcases hclose with rfl | rfl
    · exact hbracket he
    · exact hbrace he
  simp only [readBetween, List.cons_append, skip_cons hspace, hne, ↓reduceIte]

theorem readItems_text (value : Reader (Json σ)) {js : List (Json σ)} (hne : js ≠ [])
    (hreads : ∀ j ∈ js, Reads value (j.write escape) j ∧ Begins (j.write escape)) (hn : js.length ≤ n)
    (r : Text) : readItems value n (itemsText escape js ++ ']' :: r) = .ok (js, r) := by
  induction js generalizing n with
  | nil => exact (hne rfl).elim
  | cons j js ih =>
    cases n with
    | zero => cases hn
    | succ n =>
      obtain ⟨hj, _⟩ := hreads j List.mem_cons_self
      cases js with
      | nil =>
        simp only [itemsText, readItems, hj _ (numberEnd_cons (.inr (.inl rfl)) r), bind, Except.bind,
          skip_cons (c := ']') rfl, readMore, ↓reduceIte]
      | cons k js =>
        obtain ⟨_, hk⟩ := hreads k (List.mem_cons_of_mem _ List.mem_cons_self)
        have hrest := ih (List.cons_ne_nil k js) (fun j' hj' => hreads j' (List.mem_cons_of_mem _ hj'))
          (Nat.le_of_succ_le_succ hn)
        have hbegins : Begins (itemsText escape (k :: js)) := itemsText_begins hk
        have hshape : itemsText escape (j :: k :: js) ++ ']' :: r =
            j.write escape ++ ',' :: (itemsText escape (k :: js) ++ ']' :: r) := by
          simp only [itemsText, List.append_assoc, List.cons_append]
        rw [hshape, readItems, hj _ (numberEnd_cons (.inl rfl) _)]
        simp only [bind, Except.bind, skip_cons (c := ',') rfl, readMore, hbegins.skip, hrest, ↓reduceIte,
          Char.reduceEq]
        rfl

theorem readKey_quoted {key : σ} (h : Escapes escape key) (hn : (codePoints key).length < n) {t : Text}
    (ht : Begins t) (r : Text) :
    readKey n (quoted escape key ++ ':' :: (t ++ r)) = .ok (key, t ++ r) := by
  rw [quoted_append, readKey, if_pos rfl, readString_escape h hn]
  simp only [Except.ok_bind, skip_cons (c := ':') rfl, ↓reduceIte, ht.skip]
  rfl

theorem quoted_begins (key : σ) (r : Text) : Begins (quoted escape key ++ r) := by
  rw [quoted_append]
  exact ⟨'"', _, rfl, by decide⟩

theorem membersText_begins {ms : List (σ × Json σ)} : Begins (membersText escape (m :: ms)) := by
  cases ms with
  | nil => exact quoted_begins m.1 _
  | cons m' ms =>
    rw [membersText, List.append_assoc]
    exact quoted_begins m.1 _

theorem readMembers_text (value : Reader (Json σ)) {ms : List (σ × Json σ)} (hne : ms ≠ [])
    (h : ∀ m ∈ ms, Escapes escape m.1)
    (hreads : ∀ m ∈ ms, Reads value (m.2.write escape) m.2 ∧ Begins (m.2.write escape))
    (hkeys : ∀ m ∈ ms, ms.length + (codePoints m.1).length < n) (r : Text) :
    readMembers value n (membersText escape ms ++ '}' :: r) = .ok (ms, r) := by
  induction ms generalizing n with
  | nil => exact (hne rfl).elim
  | cons m ms ih =>
    obtain ⟨key, j⟩ := m
    have hkey := hkeys (key, j) List.mem_cons_self
    simp only [List.length_cons] at hkey hkeys
    cases n with
    | zero => omega
    | succ n =>
      obtain ⟨hj, hbegins⟩ := hreads (key, j) List.mem_cons_self
      have hescape : Escapes escape key := h (key, j) List.mem_cons_self
      have hread := readKey_quoted hescape (n := n) (by omega) hbegins
      cases ms with
      | nil =>
        have hshape : membersText escape [(key, j)] ++ '}' :: r =
            quoted escape key ++ ':' :: (j.write escape ++ '}' :: r) := by
          simp only [membersText, List.append_assoc, List.cons_append]
        simp only [hshape, readMembers, hread, Except.ok_bind, hj _ (numberEnd_cons (.inr (.inr rfl)) r),
          skip_cons (c := '}') rfl, readMore, ↓reduceIte]
      | cons m ms =>
        have hrest := ih (List.cons_ne_nil m ms) (fun m' hm' => h m' (List.mem_cons_of_mem _ hm'))
          (fun m' hm' => hreads m' (List.mem_cons_of_mem _ hm'))
          (n := n) fun m' hm' => by
            have hkey' := hkeys m' (List.mem_cons_of_mem _ hm')
            simp only [List.length_cons] at hkey' ⊢
            omega
        have hshape : membersText escape ((key, j) :: m :: ms) ++ '}' :: r =
            quoted escape key ++ ':' :: (j.write escape ++
              ',' :: (membersText escape (m :: ms) ++ '}' :: r)) := by
          simp only [membersText, List.append_assoc, List.cons_append]
        simp only [hshape, readMembers, hread, Except.ok_bind, hj _ (numberEnd_cons (.inl rfl) _),
          skip_cons (c := ',') rfl, readMore, ↓reduceIte, Char.reduceEq, membersText_begins.skip, hrest,
          Except.pure_eq_ok]

end Layers

section Conditions

theorem finiteItems_iff {js : List (Json σ)} : finiteItems js = true ↔ ∀ j ∈ js, j.finite = true := by
  induction js with
  | nil => simp only [finiteItems, List.not_mem_nil, false_implies, implies_true]
  | cons j js ih => simp only [finiteItems, Bool.and_eq_true, ih, List.forall_mem_cons]

theorem finiteMembers_iff {ms : List (σ × Json σ)} :
    finiteMembers ms = true ↔ ∀ m ∈ ms, m.2.finite = true := by
  induction ms with
  | nil => simp only [finiteMembers, List.not_mem_nil, false_implies, implies_true]
  | cons m ms ih => simp only [finiteMembers, Bool.and_eq_true, ih, List.forall_mem_cons]

variable [DecidableEq σ]

mutual

/-- No object of the value has a key twice. -/
def Json.distinct : Json σ → Bool
  | .arr items => distinctItems items
  | .obj members => decide (members.map Prod.fst).Nodup && distinctMembers members
  | _ => true

def distinctItems : List (Json σ) → Bool
  | [] => true
  | j :: js => j.distinct && distinctItems js

def distinctMembers : List (σ × Json σ) → Bool
  | [] => true
  | (_, j) :: ms => j.distinct && distinctMembers ms

end

theorem distinctItems_iff {js : List (Json σ)} :
    distinctItems js = true ↔ ∀ j ∈ js, j.distinct = true := by
  induction js with
  | nil => simp only [distinctItems, List.not_mem_nil, false_implies, implies_true]
  | cons j js ih => simp only [distinctItems, Bool.and_eq_true, ih, List.forall_mem_cons]

theorem distinctMembers_iff {ms : List (σ × Json σ)} :
    distinctMembers ms = true ↔ ∀ m ∈ ms, m.2.distinct = true := by
  induction ms with
  | nil => simp only [distinctMembers, List.not_mem_nil, false_implies, implies_true]
  | cons m ms ih => simp only [distinctMembers, Bool.and_eq_true, ih, List.forall_mem_cons]

/-- A value that is written without loss. -/
structure Json.Writable (j : Json σ) : Prop where
  finite : j.finite = true
  distinct : j.distinct = true

theorem Json.Writable.of_items {items : List (Json σ)} (h : ∀ j ∈ items, j.Writable) :
    (Json.arr items).Writable :=
  ⟨finiteItems_iff.mpr fun j hj => (h j hj).finite, distinctItems_iff.mpr fun j hj => (h j hj).distinct⟩

theorem Json.Writable.of_members {members : List (σ × Json σ)}
    (hkeys : (members.map Prod.fst).Nodup) (h : ∀ m ∈ members, m.2.Writable) :
    (Json.obj members).Writable := by
  refine ⟨finiteMembers_iff.mpr fun m hm => (h m hm).finite, ?_⟩
  rw [Json.distinct, Bool.and_eq_true, decide_eq_true_eq]
  exact ⟨hkeys, distinctMembers_iff.mpr fun m hm => (h m hm).distinct⟩

theorem Json.Writable.item {items : List (Json σ)} (h : (Json.arr items).Writable) (hj : j ∈ items) :
    j.Writable :=
  ⟨finiteItems_iff.mp h.finite j hj, distinctItems_iff.mp h.distinct j hj⟩

theorem Json.Writable.member {members : List (σ × Json σ)} (h : (Json.obj members).Writable)
    (hm : m ∈ members) : m.2.Writable := by
  have hdistinct := h.distinct
  rw [Json.distinct, Bool.and_eq_true] at hdistinct
  exact ⟨finiteMembers_iff.mp h.finite m hm, distinctMembers_iff.mp hdistinct.2 m hm⟩

theorem Json.Writable.keys {members : List (σ × Json σ)} (h : (Json.obj members).Writable) :
    (members.map Prod.fst).Nodup := by
  have hdistinct := h.distinct
  rw [Json.distinct, Bool.and_eq_true] at hdistinct
  exact of_decide_eq_true hdistinct.1

theorem Json.Writable.number (h : (Json.num n : Json σ).Writable) : n.Written := by
  cases n with
  | int z => exact True.intro
  | float x => exact h.finite

/-- The hooks leave what is written alone. -/
structure Hooks.Keeps (hooks : Hooks σ) : Prop where
  pairs : ∀ members, (members.map Prod.fst).Nodup → hooks.pairs members = .ok members
  float : ∀ x literal, x.isFinite = true → hooks.float x literal = .ok x

theorem object_distinct {members : List (σ × Json σ)} (h : (members.map Prod.fst).Nodup) :
    object members = members := by
  have hloop (before after : List (σ × Json σ))
      (h : ((before ++ after).map Prod.fst).Nodup) :
      after.foldl (fun ms m => Dict.put m.1 m.2 ms) before = before ++ after := by
    induction after generalizing before with
    | nil => rw [List.foldl_nil, List.append_nil]
    | cons m after ih =>
      have hnew : m.1 ∉ before.map Prod.fst := by
        rw [List.map_append, List.map_cons, List.nodup_append] at h
        exact fun hm => h.2.2 m.1 hm m.1 List.mem_cons_self rfl
      have hshape : before ++ [m] ++ after = before ++ m :: after := by
        rw [List.append_assoc]
        rfl
      rw [List.foldl_cons, Dict.put_new before hnew, ih _ (hshape ▸ h), hshape]
  exact hloop [] members h

theorem plainHooks_keeps : (plainHooks : Hooks σ).Keeps where
  pairs _ h := congrArg Except.ok (object_distinct h)
  float _ _ _ := rfl

theorem finiteHooks_keeps : (finiteHooks : Hooks σ).Keeps where
  pairs _ h := congrArg Except.ok (object_distinct h)
  float _ _ h := if_pos h

theorem repeatedKey_distinct {keys : List String} (h : keys.Nodup) (hseen : ∀ k ∈ keys, k ∉ seen) :
    repeatedKey seen keys = none := by
  induction keys generalizing seen with
  | nil => rfl
  | cons key keys ih =>
    rw [List.nodup_cons] at h
    rw [repeatedKey, if_neg (hseen key List.mem_cons_self)]
    apply ih h.2
    intro k hk hm
    rcases List.mem_cons.mp hm with rfl | hm
    · exact h.1 hk
    · exact hseen k (List.mem_cons_of_mem _ hk) hm

theorem distinctHooks_keeps : distinctHooks.Keeps where
  pairs members h := by
    simp only [distinctHooks, repeatedKey_distinct h fun k _ => List.not_mem_nil]
  float _ _ _ := rfl

end Conditions

section Strings

theorem mem_itemStrings {js : List (Json σ)} : s ∈ itemStrings js ↔ ∃ j ∈ js, s ∈ j.strings := by
  induction js with
  | nil => simp only [itemStrings, List.not_mem_nil, false_and, exists_false]
  | cons j js ih => rw [itemStrings, List.mem_append, ih, List.exists_mem_cons_iff]

theorem mem_memberStrings {ms : List (σ × Json σ)} :
    s ∈ memberStrings ms ↔ ∃ m ∈ ms, s = m.1 ∨ s ∈ m.2.strings := by
  induction ms with
  | nil => simp only [memberStrings, List.not_mem_nil, false_and, exists_false]
  | cons m ms ih =>
    obtain ⟨key, j⟩ := m
    rw [memberStrings, List.mem_append, List.mem_cons, ih, List.exists_mem_cons_iff]

/-- What holds of the strings of a value. -/
def Json.All (P : σ → Prop) (j : Json σ) : Prop := ∀ s ∈ j.strings, P s

theorem Json.All.str {P : σ → Prop} {s : σ} : (Json.str s).All P ↔ P s := List.forall_mem_singleton

theorem Json.All.arr {P : σ → Prop} {items : List (Json σ)} :
    (Json.arr items).All P ↔ ∀ j ∈ items, j.All P := by
  simp only [Json.All, Json.strings, mem_itemStrings]
  constructor
  · intro h j hj s hs
    exact h s ⟨j, hj, hs⟩
  · intro h s hs
    obtain ⟨j, hj, hs⟩ := hs
    exact h j hj s hs

theorem Json.All.obj {P : σ → Prop} {members : List (σ × Json σ)} :
    (Json.obj members).All P ↔ ∀ m ∈ members, P m.1 ∧ m.2.All P := by
  simp only [Json.All, Json.strings, mem_memberStrings]
  constructor
  · intro h m hm
    exact ⟨h m.1 ⟨m, hm, .inl rfl⟩, fun s hs => h s ⟨m, hm, .inr hs⟩⟩
  · intro h s hs
    obtain ⟨m, hm, rfl | hs⟩ := hs
    · exact (h m hm).1
    · exact (h m hm).2 s hs

end Strings

section Values
variable [DecidableEq σ] [JsonString σ] {escape : σ → Text} {hooks : Hooks σ}

theorem isDigit_begins {c : Char} (h : c.isDigit = true ∨ c = '-') :
    isSpace c = false ∧ c ≠ ']' ∧ c ≠ '}' ∧ c ≠ ',' ∧ c ≠ '\uFEFF' := by
  rcases h with h | rfl
  · refine ⟨?_, ?_, ?_, ?_, ?_⟩
    · by_contra hspace
      simp only [isSpace, Bool.not_eq_false, Bool.or_eq_true, decide_eq_true_eq, or_assoc] at hspace
      rcases hspace with rfl | rfl | rfl | rfl <;> cases h
    all_goals
      rintro rfl
      cases h
  · decide

omit [JsonString σ] in
theorem write_begins {j : Json σ} (h : j.Writable) : Begins (j.write escape) := by
  cases j with
  | null => exact ⟨'n', _, rfl, by decide⟩
  | bool b =>
    cases b with
    | true => exact ⟨'t', _, rfl, by decide⟩
    | false => exact ⟨'f', _, rfl, by decide⟩
  | num n =>
    obtain ⟨c, cs, htext, hc⟩ := Number.text_head h.number
    exact ⟨c, cs, htext, isDigit_begins hc⟩
  | str s => exact ⟨'"', _, rfl, by decide⟩
  | arr items => exact ⟨'[', _, rfl, by decide⟩
  | obj members => exact ⟨'{', _, rfl, by decide⟩

theorem not_prefix_of_head {c d : Char} (h : d ≠ c) : ¬ d :: ds <+: c :: cs := fun hp =>
  h (List.cons_prefix_cons.mp hp).1

omit [DecidableEq σ] [JsonString σ] in
theorem readWord_of_head {c : Char} {cs : Text}
    (h : c ≠ 'n' ∧ c ≠ 't' ∧ c ≠ 'f' ∧ c ≠ 'N' ∧ c ≠ 'I')
    (hminus : ¬ '-' :: "Infinity".toList <+: c :: cs) :
    readWord hooks (c :: cs) = readNum hooks (c :: cs) := by
  obtain ⟨hn, ht, hf, hnan, hinf⟩ := h
  have hnull : ¬ "null".toList <+: c :: cs := not_prefix_of_head hn.symm
  have htrue : ¬ "true".toList <+: c :: cs := not_prefix_of_head ht.symm
  have hfalse : ¬ "false".toList <+: c :: cs := not_prefix_of_head hf.symm
  have hNaN : ¬ "NaN".toList <+: c :: cs := not_prefix_of_head hnan.symm
  have hInfinity : ¬ "Infinity".toList <+: c :: cs := not_prefix_of_head hinf.symm
  have hneg : ¬ "-Infinity".toList <+: c :: cs := hminus
  simp only [readWord, hnull, htrue, hfalse, hNaN, hInfinity, hneg, ↓reduceIte]

theorem readWord_number (hk : hooks.Keeps) {n : Number} (h : n.Written) (hr : NumberEnd r) :
    readWord hooks (n.text ++ r) = .ok (.num n, r) := by
  have hword : readWord hooks (n.text ++ r) = readNum hooks (n.text ++ r) := by
    obtain ⟨negative, w, f, x, htext, hw, _, _⟩ := Number.text_literal h
    obtain ⟨c, cs, rfl, hc⟩ := hw.head
    rw [htext]
    cases negative with
    | true =>
      apply readWord_of_head (by decide)
      intro hp
      have hc' : 'I' = c := (List.cons_prefix_cons.mp (List.cons_prefix_cons.mp hp).2).1
      subst hc'
      cases hc
    | false =>
      apply readWord_of_head
      · refine ⟨?_, ?_, ?_, ?_, ?_⟩
        all_goals
          rintro rfl
          cases hc
      · apply not_prefix_of_head
        rintro rfl
        cases hc
  rw [hword, readNum, readNumber_text h hr]
  cases n with
  | int z => rfl
  | float x =>
    simp only [hk.float x _ h, Except.ok_bind]
    rfl

omit [DecidableEq σ] [JsonString σ] in
theorem items_length {js : List (Json σ)} (h : ∀ j ∈ js, Begins (j.write escape)) :
    js.length ≤ (itemsText escape js).length ∧
      ∀ j ∈ js, (j.write escape).length ≤ (itemsText escape js).length := by
  induction js with
  | nil => exact ⟨Nat.le_refl 0, fun j hj => (List.not_mem_nil hj).elim⟩
  | cons j js ih =>
    obtain ⟨hcount, hitems⟩ := ih fun j' hj' => h j' (List.mem_cons_of_mem _ hj')
    have hpos := (h j List.mem_cons_self).length_pos
    cases js with
    | nil =>
      refine ⟨hpos, fun j' hj' => ?_⟩
      rw [List.mem_singleton.mp hj']
      exact Nat.le_refl _
    | cons k js =>
      have hlength : (itemsText escape (j :: k :: js)).length =
          (j.write escape).length + (itemsText escape (k :: js)).length + 1 := by
        simp only [itemsText, List.length_append, List.length_cons]
        omega
      rw [hlength]
      refine ⟨?_, fun j' hj' => ?_⟩
      · rw [List.length_cons]
        omega
      · rcases List.mem_cons.mp hj' with rfl | hj'
        · omega
        · have hle := hitems j' hj'
          omega

omit [DecidableEq σ] in
theorem members_length {ms : List (σ × Json σ)} (h : ∀ m ∈ ms, Escapes escape m.1) :
    (∀ m ∈ ms, ms.length + (codePoints m.1).length ≤ (membersText escape ms).length) ∧
      ∀ m ∈ ms, (m.2.write escape).length ≤ (membersText escape ms).length := by
  induction ms with
  | nil => exact ⟨fun m hm => (List.not_mem_nil hm).elim, fun m hm => (List.not_mem_nil hm).elim⟩
  | cons m ms ih =>
    obtain ⟨hkeys, hitems⟩ := ih fun m' hm' => h m' (List.mem_cons_of_mem _ hm')
    obtain ⟨key, j⟩ := m
    have hescape : Escapes escape key := h (key, j) List.mem_cons_self
    have hkey := length_quoted hescape
    cases ms with
    | nil =>
      have hlength : (membersText escape [(key, j)]).length =
          (quoted escape key).length + (j.write escape).length + 1 := by
        simp only [membersText, List.length_append, List.length_cons]
        omega
      rw [hlength]
      refine ⟨fun m hm => ?_, fun m hm => ?_⟩
      all_goals
        rw [List.mem_singleton.mp hm]
        simp only [List.length_cons, List.length_nil]
        omega
    | cons m ms =>
      have hlength : (membersText escape ((key, j) :: m :: ms)).length =
          (quoted escape key).length + (j.write escape).length +
            (membersText escape (m :: ms)).length + 2 := by
        simp only [membersText, List.length_append, List.length_cons]
        omega
      have hcount := hkeys m List.mem_cons_self
      rw [hlength]
      refine ⟨fun m' hm' => ?_, fun m' hm' => ?_⟩
      · rcases List.mem_cons.mp hm' with rfl | hm'
        · simp only [List.length_cons] at hcount ⊢
          omega
        · have hle := hkeys m' hm'
          simp only [List.length_cons] at hle ⊢
          omega
      · rcases List.mem_cons.mp hm' with rfl | hm'
        · simp only
          omega
        · have hle := hitems m' hm'
          omega

/-- Reading the text of a value gives the value back, whatever follows it. -/
theorem readValue_write (hk : hooks.Keeps) {j : Json σ} (hj : j.Writable) (h : j.All (Escapes escape))
    (hn : (j.write escape).length < n) : Reads (readValue hooks n) (j.write escape) j := by
  induction n generalizing j with
  | zero => cases hn
  | succ n ih =>
    intro r hr
    cases j with
    | null => rfl
    | bool b => cases b <;> rfl
    | num m =>
      obtain ⟨c, cs, htext, hc⟩ := Number.text_head hj.number
      have hword := readWord_number hk hj.number hr
      have hlayer : c ≠ '"' ∧ c ≠ '{' ∧ c ≠ '[' := by
        rcases hc with hc | rfl
        · refine ⟨?_, ?_, ?_⟩
          all_goals
            rintro rfl
            cases hc
        · decide
      change readLayer hooks (readValue hooks n) n (m.text ++ r) = _
      rw [htext, List.cons_append] at hword ⊢
      rw [readLayer, if_neg hlayer.1, if_neg hlayer.2.1, if_neg hlayer.2.2, hword]
    | str s =>
      have hs := Json.All.str.mp h
      have hlength := length_quoted hs
      change readLayer hooks (readValue hooks n) n (quoted escape s ++ r) = _
      change (quoted escape s).length < n + 1 at hn
      rw [quoted_append, readLayer, if_pos rfl, readString_escape hs (by omega)]
      simp only [Except.ok_bind, Except.pure_eq_ok]
    | arr items =>
      have hitems : ∀ j ∈ items, Begins (j.write escape) := fun j hm => write_begins (hj.item hm)
      obtain ⟨hcount, hlengths⟩ := items_length hitems
      have htext : (Json.arr items).write escape ++ r = '[' :: (itemsText escape items ++ ']' :: r) := by
        simp only [Json.write, List.cons_append, List.append_assoc, List.nil_append]
      have hlength : (itemsText escape items).length + 2 < n + 1 := by
        simpa only [Json.write, List.length_cons, List.length_append, List.length_nil] using hn
      change readLayer hooks (readValue hooks n) n _ = _
      rw [htext, readLayer, if_neg (by decide), if_neg (by decide), if_pos rfl]
      cases items with
      | nil => rfl
      | cons k items =>
        have hread := readItems_text (readValue hooks n) (List.cons_ne_nil k items)
          (fun j hm => ⟨ih (hj.item hm) (Json.All.arr.mp h j hm) (by have hle := hlengths j hm; omega),
            hitems j hm⟩)
          (n := n) (by omega) r
        rw [readBetween_begins (itemsText_begins (hitems k List.mem_cons_self)) (.inl rfl), hread]
        rfl
    | obj members =>
      have hitems : ∀ m ∈ members, Begins (m.2.write escape) := fun m hm => write_begins (hj.member hm)
      have hstrings := Json.All.obj.mp h
      have hescapes : ∀ m ∈ members, Escapes escape m.1 := fun m hm => (hstrings m hm).1
      obtain ⟨hkeys, hlengths⟩ := members_length hescapes
      have htext : (Json.obj members).write escape ++ r =
          '{' :: (membersText escape members ++ '}' :: r) := by
        simp only [Json.write, List.cons_append, List.append_assoc, List.nil_append]
      have hlength : (membersText escape members).length + 2 < n + 1 := by
        simpa only [Json.write, List.length_cons, List.length_append, List.length_nil] using hn
      have hpairs := hk.pairs members hj.keys
      change readLayer hooks (readValue hooks n) n _ = _
      rw [htext, readLayer, if_neg (by decide), if_pos rfl]
      cases members with
      | nil =>
        have hnone : readBetween '}' (readMembers (readValue hooks n) n)
            (membersText escape [] ++ '}' :: r) = .ok ([], r) := rfl
        simp only [hnone, Except.ok_bind, hpairs, Except.pure_eq_ok]
      | cons m members =>
        have hread := readMembers_text (readValue hooks n) (List.cons_ne_nil m members) hescapes
          (fun m hm => ⟨ih (hj.member hm) (hstrings m hm).2 (by have hle := hlengths m hm; omega),
            hitems m hm⟩)
          (n := n) (fun m hm => by have hle := hkeys m hm; omega) r
        rw [readBetween_begins membersText_begins (.inr rfl), hread]
        simp only [Except.ok_bind, hpairs, Except.pure_eq_ok]

theorem loadsWith_write (hk : hooks.Keeps) {j : Json σ} (hj : j.Writable) (h : j.All (Escapes escape)) :
    loadsWith hooks (j.write escape) = .ok j := by
  have hbegins : Begins (j.write escape) := write_begins hj
  have hread := readValue_write hk hj h (Nat.lt_succ_self _) [] NumberEnd.nil
  have hskip := hbegins.skip []
  rw [List.append_nil] at hread hskip
  have hmark : (j.write escape).head? ≠ some '\uFEFF' := by
    obtain ⟨c, cs, hc, _, _, _, _, hne⟩ := hbegins
    rw [hc, List.head?_cons]
    exact fun he => hne (Option.some.inj he)
  rw [loadsWith, if_neg hmark, hskip, hread]
  rfl

theorem loadsWith_text {hooks : Hooks} (hk : hooks.Keeps) {j : Json} (hj : j.Writable) :
    loadsWith hooks j.text = .ok j :=
  loadsWith_write hk hj fun s _ => plainEscape_escapes s

/-- No string of the value has a low surrogate after a high one. -/
def Json.Joined (j : Json σ) : Prop := j.All fun s => Library.Joined (codePoints s)

theorem Json.joined_string (j : Json) : j.Joined := fun s _ => Library.joined_string s

/-- A text in ASCII is read back where the surrogates are joined. -/
theorem loadsWith_asciiText (hk : hooks.Keeps) {j : Json σ} (hj : j.Writable) (h : j.Joined) :
    loadsWith hooks j.asciiText = .ok j :=
  loadsWith_write hk hj fun s hs => asciiEscape_escapes (h s hs)

end Values

end Library
