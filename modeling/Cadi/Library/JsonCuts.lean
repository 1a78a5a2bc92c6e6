import Cadi.Library.JsonReading
import Mathlib.Data.Bool.AllAny

namespace Library
set_option autoImplicit true

/-- A character past ASCII, which a JSON text holds inside its strings alone. -/
def Wide (c : Char) : Prop := 128 ≤ c.toNat

section Texts

theorem cut_append {t u a z : List α} {c : α} (h : t ++ u = a ++ c :: z) :
    (∃ z', t = a ++ c :: z') ∨ ∃ a', a = t ++ a' ∧ u = a' ++ c :: z := by
  rcases List.append_eq_append_iff.mp h with ⟨a', rfl, hu⟩ | ⟨t', rfl, hu⟩
  · exact .inr ⟨a', rfl, hu⟩
  · cases t' with
    | nil =>
      rw [List.nil_append] at hu
      exact .inr ⟨[], by rw [List.append_nil, List.append_nil], hu.symm⟩
    | cons d t' =>
      obtain ⟨rfl, -⟩ := List.cons.inj hu
      exact .inl ⟨t', rfl⟩

theorem cut_cons {d : Char} {u a z : Text} (h : d :: u = a ++ c :: z) (hd : d ≠ c) :
    ∃ a', a = d :: a' ∧ u = a' ++ c :: z := by
  cases a with
  | nil => exact absurd (List.cons.inj h).1 hd
  | cons e a =>
    obtain ⟨rfl, hu⟩ := List.cons.inj h
    exact ⟨a, rfl, hu⟩

theorem Wide.ne {c d : Char} (h : Wide c) (hd : d.toNat < 128) : d ≠ c := by
  intro he
  subst he
  exact absurd hd (Nat.not_lt.mpr h)

theorem escaped_ascii (d : Char) : (∀ e ∈ escaped d, e.toNat < 128) ∨ escaped d = [d] := by
  have hdigit : ∀ k < 16, (Nat.digitChar k).toNat < 128 := by decide
  unfold escaped
  repeat' split
  iterate 7 exact .inl (List.all_iff_forall_prop.mp rfl)
  · next hcontrol =>
    have hhigh := hdigit (d.toNat / 16) (by omega)
    have hlow := hdigit (d.toNat % 16) (by omega)
    refine .inl ?_
    simp only [List.forall_mem_cons, hhigh, hlow, List.not_mem_nil, false_implies, implies_true,
      and_true]
    decide
  · exact .inr rfl

/-- The text of a character is the character itself where it holds one past ASCII. -/
theorem escaped_wide {c d : Char} (hc : Wide c) (h : c ∈ escaped d) : escaped d = [c] := by
  rcases escaped_ascii d with hascii | hone
  · exact absurd (hascii c h) (Nat.not_lt.mpr hc)
  · rw [hone, List.mem_singleton] at h
    rw [hone, h]

/-- The characters of a string that ends before its closing quote are not read. -/
theorem readChars_cut {s a z : Text} (hc : Wide c) (h : s.flatMap escaped = a ++ c :: z) (n : Nat) :
    ∀ r, readChars n a ≠ .ok r := by
  induction s generalizing a n with
  | nil =>
    rw [List.flatMap_nil] at h
    exact absurd h.symm (List.append_ne_nil_of_right_ne_nil _ (List.cons_ne_nil _ _))
  | cons d s ih =>
    intro r hr
    cases n with
    | zero => cases hr
    | succ n =>
      rw [List.flatMap_cons] at h
      rcases cut_append h with ⟨z', hd⟩ | ⟨a', rfl, hs⟩
      · have hone : escaped d = [c] :=
          escaped_wide hc (hd ▸ List.mem_append_right _ List.mem_cons_self)
        rw [hone] at hd
        cases a with
        | nil => cases hr
        | cons e a =>
          have hlength := congrArg List.length hd
          simp only [List.length_cons, List.length_append, List.length_nil] at hlength
          omega
      · obtain ⟨e, es, he, hne⟩ := escaped_head d
        have hread := readChar_escaped d a'
        rw [he, List.cons_append] at hread hr
        rw [readChars, if_neg hne, hread, Except.ok_bind] at hr
        obtain ⟨r', hr', -⟩ := Except.bind_eq_ok.mp hr
        exact ih hs n r' hr'

theorem isDigit_ascii {c : Char} (h : c.isDigit = true) : c.toNat < 128 := by
  simp only [Char.isDigit, ge_iff_le, Bool.and_eq_true, decide_eq_true_eq] at h
  have hle : c.toNat ≤ '9'.toNat := h.2
  exact Nat.lt_of_le_of_lt hle (by decide)

/-- What a number is written with. -/
def Numeral (c : Char) : Prop := c.isDigit = true ∨ c ∈ ['-', '+', '.', 'e']

theorem Numeral.ascii {c : Char} (h : Numeral c) : c.toNat < 128 := by
  have hmarks : ∀ d ∈ ['-', '+', '.', 'e'], d.toNat < 128 := List.all_iff_forall_prop.mp rfl
  rcases h with h | h
  · exact isDigit_ascii h
  · exact hmarks c h

theorem exponentText_numeral (e : Int) (hc : c ∈ exponentText e) : Numeral c := by
  have hdigits : ∀ d ∈ Nat.toDigits 10 e.natAbs, Numeral d := fun d hd =>
    .inl (digits_toDigits _ d hd)
  rw [exponentText] at hc
  rcases List.mem_cons.mp hc with rfl | hc
  · split <;> exact .inr (by decide)
  · split at hc
    · rcases List.mem_cons.mp hc with rfl | hc
      · exact .inl rfl
      · exact hdigits c hc
    · exact hdigits c hc

theorem Number.text_numeral {n : Number} (h : n.Written) (hc : c ∈ n.text) : Numeral c := by
  obtain ⟨negative, w, f, x, htext, hw, hf, -⟩ := Number.text_literal h
  have hwhole : Digits w := by
    rcases hw with rfl | ⟨_, _, -, -, hdigits⟩
    · exact List.forall_mem_singleton.mpr rfl
    · exact hdigits
  simp only [htext, literal, List.mem_append] at hc
  rcases hc with hc | (hc | hc) | hc
  · cases negative with
    | true =>
      rw [signText, if_pos rfl, List.mem_singleton] at hc
      subst hc
      exact .inr (by decide)
    | false => cases hc
  · exact .inl (hwhole c hc)
  · split at hc
    · cases hc
    · rcases List.mem_cons.mp hc with rfl | hc
      · exact .inr (by decide)
      · exact .inl (hf c hc)
  · cases x with
    | none => cases hc
    | some e =>
      rcases List.mem_cons.mp hc with rfl | hc
      · exact .inr (by decide)
      · exact exponentText_numeral e hc

theorem brackets_cut {t a z : Text} {first last : Char} (hc : Wide c) (hfirst : first.toNat < 128)
    (hlast : last.toNat < 128) (h : first :: t ++ [last] = a ++ c :: z) :
    ∃ a', a = first :: a' ∧ ∃ z', t = a' ++ c :: z' := by
  rcases cut_append h with ⟨z', ht⟩ | ⟨a', -, hend⟩
  · obtain ⟨a', ha, htail⟩ := cut_cons ht (hc.ne hfirst)
    exact ⟨a', ha, z', htail⟩
  · obtain ⟨_, _, hnil⟩ := cut_cons hend (hc.ne hlast)
    exact absurd hnil.symm (List.append_ne_nil_of_right_ne_nil _ (List.cons_ne_nil _ _))

theorem quoted_cut {s : String} {a z : Text} (hc : Wide c) (h : quoted plainEscape s = a ++ c :: z) :
    ∃ a' z', a = '"' :: a' ∧ plainEscape s = a' ++ c :: z' := by
  obtain ⟨a', ha, z', hs⟩ := brackets_cut hc (by decide) (by decide) h
  exact ⟨a', z', ha, hs⟩

end Texts

section Values
variable {hooks : Hooks} {value : Reader Json} {N : Nat}

/-- No text of the value cut before a wide character is read, up to a length. -/
def CutFails (value : Reader Json) (N : Nat) (j : Json) : Prop :=
  ∀ a z c, Wide c → j.text = a ++ c :: z → a.length ≤ N → ∀ r, value a ≠ .ok r

/-- A value whose text has at most the length is read off. -/
def ReadsWithin (value : Reader Json) (N : Nat) (j : Json) : Prop :=
  j.text.length ≤ N → Reads value j.text j

/-- Nothing is skipped at the start of a cut of a text that begins with no space. -/
theorem skip_cut {t a z : Text} (ht : Begins t) (h : t = a ++ c :: z) : skip a = a := by
  cases a with
  | nil => rfl
  | cons d a =>
    obtain ⟨e, es, rfl, hspace, -⟩ := ht
    obtain ⟨rfl, -⟩ := List.cons.inj h
    exact skip_cons hspace a

theorem readBetween_cut {close : Char} {contents : Reader (List α)} (ht : Begins t)
    (h : t = a ++ c :: z) (hclose : close = ']' ∨ close = '}') :
    readBetween close contents a = contents a := by
  cases a with
  | nil => rfl
  | cons d a =>
    have hbegins : Begins (d :: a) := by
      obtain ⟨e, es, rfl, hbegin⟩ := ht
      obtain ⟨rfl, -⟩ := List.cons.inj h
      exact ⟨e, a, rfl, hbegin⟩
    have hread := @readBetween_begins _ _ close contents hbegins hclose []
    rwa [List.append_nil] at hread

theorem readItems_cut {js : List Json} (hcuts : ∀ j ∈ js, CutFails value N j)
    (hreads : ∀ j ∈ js, ReadsWithin value N j ∧ Begins j.text) (hc : Wide c)
    (h : itemsText plainEscape js = a ++ c :: z) (hN : a.length ≤ N) (n : Nat) :
    ∀ r, readItems value n a ≠ .ok r := by
  induction js generalizing a n with
  | nil => exact absurd h.symm (List.append_ne_nil_of_right_ne_nil _ (List.cons_ne_nil _ _))
  | cons j js ih =>
    intro r hr
    cases n with
    | zero => cases hr
    | succ n =>
      obtain ⟨⟨j', s⟩, hj', hr⟩ := Except.bind_eq_ok.mp hr
      cases js with
      | nil => exact hcuts j List.mem_cons_self a z c hc h hN _ hj'
      | cons k js =>
        rcases cut_append h with ⟨z', hj⟩ | ⟨a', rfl, hrest⟩
        · exact hcuts j List.mem_cons_self a z' c hc hj hN _ hj'
        · obtain ⟨a', rfl, htail⟩ := cut_cons hrest (hc.ne (by decide))
          have hlength : (j.text ++ ',' :: a').length = j.text.length + a'.length + 1 := by
            rw [List.length_append, List.length_cons, Nat.add_assoc]
          change (j.text ++ ',' :: a').length ≤ N at hN
          have hread := (hreads j List.mem_cons_self).1 (by omega) _ (numberEnd_cons (.inl rfl) a')
          change value (j.text ++ ',' :: a') = .ok (j', s) at hj'
          obtain ⟨rfl, rfl⟩ := Prod.mk.inj (Except.ok.inj (hread.symm.trans hj'))
          simp only [skip_cons (c := ',') rfl, readMore, Char.reduceEq, ↓reduceIte] at hr
          obtain ⟨r', hr', -⟩ := Except.bind_eq_ok.mp hr
          have hskip := skip_cut
            (itemsText_begins (hreads k (List.mem_cons_of_mem _ List.mem_cons_self)).2) htail
          rw [hskip] at hr'
          exact ih (fun j' hj' => hcuts j' (List.mem_cons_of_mem _ hj'))
            (fun j' hj' => hreads j' (List.mem_cons_of_mem _ hj')) htail (by omega) n r' hr'

theorem readKey_cut {key : String} (hc : Wide c) (h : quoted plainEscape key = a ++ c :: z) (n : Nat) :
    ∀ r : String × Text, readKey n a ≠ .ok r := by
  obtain ⟨a', z', rfl, hkey⟩ := quoted_cut hc h
  intro r hr
  rw [readKey, if_pos rfl] at hr
  obtain ⟨r', hr', -⟩ := Except.bind_eq_ok.mp hr
  exact readChars_cut hc hkey n _ (readString_eq_ok hr')

theorem readKey_whole (key : String) (hn : (codePoints key).length < n) (t : Text) :
    readKey n (quoted plainEscape key ++ ':' :: t) = .ok (key, skip t) := by
  rw [quoted_append, readKey, if_pos rfl, readString_escape (plainEscape_escapes key) hn]
  simp only [Except.ok_bind, skip_cons (c := ':') rfl, ↓reduceIte]
  rfl

theorem readMember_cut {key : String} {j : Json} (hcut : CutFails value N j) (hbegins : Begins j.text)
    (hc : Wide c) (h : quoted plainEscape key ++ ':' :: j.text = a ++ c :: z) (hN : a.length ≤ N)
    (n : Nat) (hn : a.length ≤ n) :
    ∀ (k : String) (s : Text), readKey n a = .ok (k, s) → ∀ r, value s ≠ .ok r := by
  intro k s hk
  rcases cut_append h with ⟨z', hkey⟩ | ⟨a', rfl, hrest⟩
  · exact absurd hk (readKey_cut hc hkey n _)
  · obtain ⟨a', rfl, htail⟩ := cut_cons hrest (hc.ne (by decide))
    have hlength := length_quoted (plainEscape_escapes key)
    rw [List.length_append, List.length_cons] at hN hn
    rw [readKey_whole key (by omega), skip_cut hbegins htail] at hk
    obtain ⟨-, rfl⟩ := Prod.mk.inj (Except.ok.inj hk)
    exact hcut a' z c hc htail (by omega)

theorem readMembers_cut {ms : List (String × Json)} (hcuts : ∀ m ∈ ms, CutFails value N m.2)
    (hreads : ∀ m ∈ ms, ReadsWithin value N m.2 ∧ Begins m.2.text) (hc : Wide c)
    (h : membersText plainEscape ms = a ++ c :: z) (hN : a.length ≤ N) (n : Nat) (hn : a.length < n) :
    ∀ r, readMembers value n a ≠ .ok r := by
  induction ms generalizing a n with
  | nil => exact absurd h.symm (List.append_ne_nil_of_right_ne_nil _ (List.cons_ne_nil _ _))
  | cons m ms ih =>
    obtain ⟨key, j⟩ := m
    have hwithin : ReadsWithin value N j := (hreads (key, j) List.mem_cons_self).1
    have hbegins : Begins j.text := (hreads (key, j) List.mem_cons_self).2
    have hcut : CutFails value N j := hcuts (key, j) List.mem_cons_self
    intro r hr
    cases n with
    | zero => cases hr
    | succ n =>
      obtain ⟨⟨k, s⟩, hk, hr⟩ := Except.bind_eq_ok.mp hr
      obtain ⟨⟨j', s'⟩, hj', hr⟩ := Except.bind_eq_ok.mp hr
      cases ms with
      | nil => exact readMember_cut hcut hbegins hc h hN n (by omega) k s hk _ hj'
      | cons m ms =>
        have hshape : membersText plainEscape ((key, j) :: m :: ms) =
            (quoted plainEscape key ++ ':' :: j.text) ++ ',' :: membersText plainEscape (m :: ms) := by
          simp only [membersText, Json.text, List.append_assoc, List.cons_append]
        rw [hshape] at h
        rcases cut_append h with ⟨z', hm⟩ | ⟨a', rfl, hrest⟩
        · exact readMember_cut hcut hbegins hc hm hN n (by omega) k s hk _ hj'
        · obtain ⟨a', rfl, htail⟩ := cut_cons hrest (hc.ne (by decide))
          have hlength := length_quoted (plainEscape_escapes key)
          simp only [List.length_append, List.length_cons] at hN hn
          have hread := hwithin (by omega) _ (numberEnd_cons (.inl rfl) a')
          rw [List.append_assoc, List.cons_append, readKey_whole key (by omega),
            hbegins.skip] at hk
          obtain ⟨rfl, rfl⟩ := Prod.mk.inj (Except.ok.inj hk)
          obtain ⟨rfl, rfl⟩ := Prod.mk.inj (Except.ok.inj (hread.symm.trans hj'))
          simp only [skip_cons (c := ',') rfl, readMore, Char.reduceEq, ↓reduceIte] at hr
          obtain ⟨r', hr', -⟩ := Except.bind_eq_ok.mp hr
          rw [skip_cut membersText_begins htail] at hr'
          exact ih (fun m' hm' => hcuts m' (List.mem_cons_of_mem _ hm'))
            (fun m' hm' => hreads m' (List.mem_cons_of_mem _ hm')) htail (by omega) n (by omega) r' hr'

/-- The text of a value, cut inside one of its strings before a wide character, is not read. -/
theorem readValue_cut (hk : hooks.Keeps) {j : Json} (hj : j.Writable) (n : Nat) (hn : N < n) :
    CutFails (readValue hooks n) N j := by
  induction n generalizing j N with
  | zero => cases hn
  | succ n ih =>
    intro a z c hc h hN r hr
    change readLayer hooks (readValue hooks n) n a = .ok r at hr
    have hwithin {k : Json} (hk' : k.Writable) : ReadsWithin (readValue hooks n) (N - 1) k := by
      intro hlength
      have hpos : 0 < k.text.length := (write_begins hk').length_pos
      exact readValue_write hk hk' (fun s _ => plainEscape_escapes s) (by change k.text.length < n; omega)
    have hascii (t : Text) (ht : ∀ e ∈ t, e.toNat < 128) : t ≠ a ++ c :: z := by
      intro heq
      have hmem : c ∈ t := heq ▸ List.mem_append_right _ List.mem_cons_self
      exact absurd (ht c hmem) (Nat.not_lt.mpr hc)
    cases j with
    | null => exact hascii _ (List.all_iff_forall_prop.mp rfl) h
    | bool b => cases b <;> exact hascii _ (List.all_iff_forall_prop.mp rfl) h
    | num m => exact hascii _ (fun e he => (Number.text_numeral hj.number he).ascii) h
    | str s =>
      obtain ⟨a', z', rfl, hs⟩ := quoted_cut hc h
      rw [readLayer, if_pos rfl] at hr
      obtain ⟨r', hr', -⟩ := Except.bind_eq_ok.mp hr
      exact readChars_cut hc hs n _ (readString_eq_ok hr')
    | arr items =>
      obtain ⟨a', rfl, z', hitems⟩ := brackets_cut hc (by decide) (by decide) h
      rw [List.length_cons] at hN
      have hread : ∀ r, readItems (readValue hooks n) n a' ≠ .ok r :=
        readItems_cut (N := N - 1) (fun j hm => ih (hj.item hm) (by omega))
          (fun j hm => ⟨hwithin (hj.item hm), write_begins (hj.item hm)⟩) hc hitems (by omega) n
      cases items with
      | nil => exact absurd hitems.symm (List.append_ne_nil_of_right_ne_nil _ (List.cons_ne_nil _ _))
      | cons j items =>
        have hbegins : Begins (itemsText plainEscape (j :: items)) :=
          itemsText_begins (write_begins (hj.item List.mem_cons_self))
        simp only [readLayer, Char.reduceEq, ↓reduceIte, readBetween_cut hbegins hitems (.inl rfl)] at hr
        obtain ⟨r', hr', -⟩ := Except.bind_eq_ok.mp hr
        exact hread r' hr'
    | obj members =>
      obtain ⟨a', rfl, z', hmembers⟩ := brackets_cut hc (by decide) (by decide) h
      rw [List.length_cons] at hN
      have hread : ∀ r, readMembers (readValue hooks n) n a' ≠ .ok r :=
        readMembers_cut (N := N - 1) (fun m hm => ih (hj.member hm) (by omega))
          (fun m hm => ⟨hwithin (hj.member hm), write_begins (hj.member hm)⟩) hc hmembers (by omega) n
          (by omega)
      cases members with
      | nil => exact absurd hmembers.symm (List.append_ne_nil_of_right_ne_nil _ (List.cons_ne_nil _ _))
      | cons m members =>
        have hbegins : Begins (membersText plainEscape (m :: members)) := membersText_begins
        simp only [readLayer, Char.reduceEq, ↓reduceIte, readBetween_cut hbegins hmembers (.inr rfl)] at hr
        obtain ⟨r', hr', -⟩ := Except.bind_eq_ok.mp hr
        exact hread r' hr'

/-- A text cut before a wide character is no JSON text. -/
theorem loadsWith_cut (hk : hooks.Keeps) {j : Json} (hj : j.Writable) (hc : Wide c)
    (h : j.text = a ++ c :: z) : ∀ i, loadsWith hooks a ≠ .ok i := by
  intro i hi
  rw [loadsWith] at hi
  split at hi
  · cases hi
  · rw [skip_cut (write_begins hj) h] at hi
    obtain ⟨r, hr, -⟩ := Except.bind_eq_ok.mp hi
    exact readValue_cut hk hj _ (Nat.lt_succ_self a.length) a z c hc h (Nat.le_refl _) r hr

end Values

end Library
