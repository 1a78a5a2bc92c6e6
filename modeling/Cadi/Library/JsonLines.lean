import Cadi.Library.JsonCuts
import Cadi.Library.JsonSorting
import Cadi.Library.Lines

namespace Library
set_option autoImplicit true

section Characters
variable {p : Char → Bool}

/-- A property of no character that stands outside the strings of a text. -/
structure InStrings (p : Char → Bool) : Prop where
  numeral : ∀ c, Numeral c → p c = false
  mark : ∀ c ∈ "{}[]:,\"nulltruefalse".toList, p c = false

/-- A character of the property stands in the text of the string. -/
def Shows (p : Char → Bool) (s : String) : Prop := (plainEscape s).any p = true

theorem any_brackets {first last : Char} (hfirst : p first = false) (hlast : p last = false) (t : Text) :
    (first :: t ++ [last]).any p = t.any p := by
  rw [List.cons_append, List.any_cons, List.any_append, hfirst, Bool.false_or, List.any_cons, hlast]
  exact Bool.or_false _

theorem any_quoted (hp : InStrings p) (s : String) : (quoted plainEscape s).any p = true ↔ Shows p s := by
  have hquote : p '"' = false := hp.mark _ (by decide)
  rw [quoted, any_brackets hquote hquote, Shows]

theorem any_items (hp : InStrings p) (js : List Json) :
    (itemsText plainEscape js).any p = js.any fun j => j.text.any p := by
  have hcomma : p ',' = false := hp.mark _ (by decide)
  induction js with
  | nil => rfl
  | cons j js ih =>
    cases js with
    | nil => rw [List.any_cons, List.any_nil, Bool.or_false]; rfl
    | cons k js =>
      rw [List.any_cons, ← ih]
      change (j.text ++ ',' :: itemsText plainEscape (k :: js)).any p = _
      rw [List.any_append, List.any_cons, hcomma, Bool.false_or]

theorem any_members (hp : InStrings p) (ms : List (String × Json)) :
    (membersText plainEscape ms).any p =
      ms.any fun m => (quoted plainEscape m.1).any p || m.2.text.any p := by
  have hcomma : p ',' = false := hp.mark _ (by decide)
  have hcolon : p ':' = false := hp.mark _ (by decide)
  have hone (key : String) (j : Json) : (quoted plainEscape key ++ ':' :: j.text).any p =
      ((quoted plainEscape key).any p || j.text.any p) := by
    rw [List.any_append, List.any_cons, hcolon, Bool.false_or]
  induction ms with
  | nil => rfl
  | cons m ms ih =>
    obtain ⟨key, j⟩ := m
    cases ms with
    | nil =>
      rw [List.any_cons, List.any_nil, Bool.or_false]
      exact hone key j
    | cons m ms =>
      rw [List.any_cons, ← ih]
      change (quoted plainEscape key ++ ':' :: j.text ++ ',' :: membersText plainEscape (m :: ms)).any p = _
      rw [List.any_append, hone, List.any_cons, hcomma, Bool.false_or]

theorem any_plain {t : Text} (ht : ∀ c ∈ t, p c = false) {P : String → Prop} :
    t.any p = true ↔ ∃ s ∈ ([] : List String), P s := by
  rw [List.any_eq_true]
  constructor
  · intro h
    obtain ⟨c, hc, h⟩ := h
    exact absurd (ht c hc) (ne_false_of_eq_true h)
  · intro h
    obtain ⟨s, hs, -⟩ := h
    cases hs

theorem any_text (hp : InStrings p) {j : Json} (h : j.Writable) :
    j.text.any p = true ↔ ∃ s ∈ j.strings, Shows p s := by
  have hword (t : Text) (ht : ∀ c ∈ t, c ∈ "{}[]:,\"nulltruefalse".toList) : ∀ c ∈ t, p c = false :=
    fun c hc => hp.mark c (ht c hc)
  induction j using Json.induct with
  | null => exact any_plain (hword _ (List.all_iff_forall_prop.mp rfl))
  | bool b => cases b <;> exact any_plain (hword _ (List.all_iff_forall_prop.mp rfl))
  | num n => exact any_plain fun c hc => hp.numeral c (Number.text_numeral h.number hc)
  | str s =>
    refine (any_quoted hp s).trans ?_
    simp only [Json.strings, List.mem_singleton, exists_eq_left]
  | arr items ih =>
    have htext : (Json.arr items).text.any p = items.any fun j => j.text.any p :=
      (any_brackets (hp.mark _ (by decide)) (hp.mark _ (by decide)) _).trans (any_items hp items)
    rw [htext, List.any_eq_true, Json.strings]
    constructor
    · intro hany
      obtain ⟨j, hj, hshow⟩ := hany
      obtain ⟨s, hs, hshow⟩ := (ih j hj (h.item hj)).mp hshow
      exact ⟨s, mem_itemStrings.mpr ⟨j, hj, hs⟩, hshow⟩
    · intro hany
      obtain ⟨s, hs, hshow⟩ := hany
      obtain ⟨j, hj, hs⟩ := mem_itemStrings.mp hs
      exact ⟨j, hj, (ih j hj (h.item hj)).mpr ⟨s, hs, hshow⟩⟩
  | obj members ih =>
    have htext : (Json.obj members).text.any p =
        members.any fun m => (quoted plainEscape m.1).any p || m.2.text.any p :=
      (any_brackets (hp.mark _ (by decide)) (hp.mark _ (by decide)) _).trans (any_members hp members)
    rw [htext, List.any_eq_true, Json.strings]
    simp only [Bool.or_eq_true, any_quoted hp]
    constructor
    · intro hany
      obtain ⟨m, hm, hkey | hvalue⟩ := hany
      · exact ⟨m.1, mem_memberStrings.mpr ⟨m, hm, .inl rfl⟩, hkey⟩
      · obtain ⟨s, hs, hshow⟩ := (ih m hm (h.member hm)).mp hvalue
        exact ⟨s, mem_memberStrings.mpr ⟨m, hm, .inr hs⟩, hshow⟩
    · intro hany
      obtain ⟨s, hs, hshow⟩ := hany
      obtain ⟨m, hm, rfl | hs⟩ := mem_memberStrings.mp hs
      · exact ⟨m, hm, .inl hshow⟩
      · exact ⟨m, hm, .inr ((ih m hm (h.member hm)).mpr ⟨s, hs, hshow⟩)⟩

end Characters

section Breaks

/-- The line breaks that a JSON text keeps as they are. -/
def wideBreaks : Text := ['\u0085', '\u2028', '\u2029']

/-- A string whose JSON text stays on one line. -/
def Unbroken (s : String) : Prop := ∀ c ∈ s.toList, c ∉ wideBreaks

instance (s : String) : Decidable (Unbroken s) := List.decidableBAll _ _

/-- Every string of the value stays on one line. -/
def Json.Unbroken (j : Json) : Prop := j.All Library.Unbroken

theorem Json.Unbroken.str (s : String) : (Json.str s).Unbroken ↔ Library.Unbroken s := All.str

theorem Json.Unbroken.arr (items : List Json) :
    (Json.arr items).Unbroken ↔ ∀ j ∈ items, j.Unbroken := All.arr

theorem Json.Unbroken.obj (members : List (String × Json)) :
    (Json.obj members).Unbroken ↔ ∀ m ∈ members, Library.Unbroken m.1 ∧ m.2.Unbroken := All.obj

theorem Json.Unbroken.of_sorted {j : Json} : j.sorted.Unbroken ↔ j.Unbroken := All.of_sorted

/-- A character of a property is shown by its own text, or escaped. -/
theorem any_escaped {p q : Char → Bool} (hbreaks : ∀ c ∈ lineBreaks, (escaped c).any p = q c)
    (hp : ∀ c ∉ lineBreaks, p c = false) (hq : ∀ c ∉ lineBreaks, q c = false) (c : Char) :
    (escaped c).any p = q c := by
  have hdigit : ∀ k < 16, Nat.digitChar k ∉ lineBreaks := by decide
  by_cases hc : c ∈ lineBreaks
  · exact hbreaks c hc
  · rw [hq c hc, List.any_eq_false]
    intro d hd
    refine ne_true_of_eq_false (hp d ?_)
    have hmarks : ∀ e ∈ ['\\', '"', 'n', 'r', 't', 'b', 'f', 'u', '0'], e ∉ lineBreaks :=
      List.all_iff_forall_prop.mp rfl
    rw [escaped] at hd
    repeat' split at hd
    iterate 7
      simp only [List.mem_cons, List.not_mem_nil, or_false] at hd
      obtain rfl | rfl := hd <;> exact hmarks _ (by decide)
    · simp only [List.mem_cons, List.not_mem_nil, or_false] at hd
      obtain rfl | rfl | rfl | rfl | rfl | rfl := hd
      iterate 4 exact hmarks _ (by decide)
      · exact hdigit _ (by omega)
      · exact hdigit _ (by omega)
    · obtain rfl := List.mem_singleton.mp hd
      exact hc

theorem isBreak_inStrings : InStrings isBreak where
  numeral c h := by
    have hbreaks : ∀ d ∈ lineBreaks, d.isDigit = false ∧ d ∉ ['-', '+', '.', 'e'] :=
      List.all_iff_forall_prop.mp rfl
    rw [isBreak, decide_eq_false_iff_not]
    intro hc
    obtain ⟨hdigit, hmark⟩ := hbreaks c hc
    rcases h with h | h
    · rw [hdigit] at h
      cases h
    · exact hmark h
  mark := List.all_iff_forall_prop.mp rfl

/-- A break that a JSON text escapes. -/
def escapedBreak (c : Char) : Bool := isBreak c && decide (c ∉ wideBreaks)

theorem escapedBreak_inStrings : InStrings escapedBreak where
  numeral c h := by rw [escapedBreak, isBreak_inStrings.numeral c h, Bool.false_and]
  mark c h := by rw [escapedBreak, isBreak_inStrings.mark c h, Bool.false_and]

theorem isBreak_outside (h : c ∉ lineBreaks) : isBreak c = false := decide_eq_false h

theorem any_flatMap_escaped {p q : Char → Bool} (h : ∀ c, (escaped c).any p = q c) (t : Text) :
    (t.flatMap escaped).any p = t.any q := by
  induction t with
  | nil => rfl
  | cons c t ih => rw [List.flatMap_cons, List.any_append, List.any_cons, h, ih]

/-- A JSON text ends a line just where a string of it has one of the wide breaks. -/
theorem broken_text {j : Json} (h : j.Writable) : j.text.any isBreak = true ↔ ¬ j.Unbroken := by
  have hwide : ∀ c ∉ lineBreaks, decide (c ∈ wideBreaks) = false := by
    intro c hc
    have hall : ∀ d ∈ wideBreaks, d ∈ lineBreaks := List.all_iff_forall_prop.mp rfl
    exact decide_eq_false fun h => hc (hall c h)
  have hescaped := any_escaped (p := isBreak) (q := fun c => decide (c ∈ wideBreaks))
    (List.all_iff_forall_prop.mp rfl)
    (fun _ => isBreak_outside) hwide
  rw [any_text isBreak_inStrings h, Json.Unbroken, Json.All]
  simp only [Shows, plainEscape, any_flatMap_escaped hescaped, List.any_eq_true, decide_eq_true_eq,
    Unbroken, not_forall, Decidable.not_not, exists_prop]

/-- A break in a JSON text is a wide one. -/
theorem break_wide {j : Json} (h : j.Writable) (hc : c ∈ j.text) (hbreak : isBreak c = true) :
    Wide c ∧ c ≠ '\r' := by
  have hescaped := any_escaped (p := escapedBreak) (q := fun _ => false) (List.all_iff_forall_prop.mp rfl)
    (fun _ hc => by rw [escapedBreak, isBreak_outside hc, Bool.false_and]) fun _ _ => rfl
  have hnone : j.text.any escapedBreak = false := by
    refine Bool.eq_false_of_not_eq_true fun hany => ?_
    obtain ⟨s, -, hs⟩ := (any_text escapedBreak_inStrings h).mp hany
    rw [Shows, plainEscape, any_flatMap_escaped hescaped, List.any_eq_true] at hs
    obtain ⟨_, _, hs⟩ := hs
    cases hs
  have hwide : ∀ d ∈ wideBreaks, 128 ≤ d.toNat ∧ d ≠ '\r' := List.all_iff_forall_prop.mp rfl
  refine hwide c ?_
  by_contra hnot
  refine List.any_eq_false.mp hnone c hc ?_
  rw [escapedBreak, hbreak, decide_eq_true hnot]
  rfl

end Breaks

section Lines
variable {read : σ → Text → Except ε σ}

/-- The lines that are not blank, read one after the other. -/
def foldLines (read : σ → Text → Except ε σ) (s : σ) (t : Text) : Except ε σ :=
  ((splitLines t).filter fun l => !isBlank l).foldlM read s

theorem foldLines_cons {l : Text} (h : ∀ c ∈ l, isBreak c = false) (hblank : isBlank l = false) {b : Char}
    (hb : isBreak b = true) (hr : b ≠ '\r') (s : σ) (t : Text) :
    foldLines read s (l ++ b :: t) = (do
      let s ← read s l
      foldLines read s t) := by
  rw [foldLines, splitLines_break h hb hr, List.filter_cons_of_pos (by rw [hblank]; rfl),
    List.foldlM_cons]
  rfl

/-- Lines that are written on one line each are read back in their order. -/
theorem foldLines_append {lines : List Text}
    (h : ∀ l ∈ lines, (∀ c ∈ l, isBreak c = false) ∧ isBlank l = false) (s : σ) (t : Text) :
    foldLines read s (jsonLines lines ++ t) = (do
      let s ← lines.foldlM read s
      foldLines read s t) := by
  rw [jsonLines_eq]
  induction lines generalizing s with
  | nil => rfl
  | cons l ls ih =>
    obtain ⟨hline, hblank⟩ := h l List.mem_cons_self
    rw [List.flatMap_cons, List.append_assoc, List.append_assoc, List.singleton_append,
      foldLines_cons hline hblank rfl (by decide), List.foldlM_cons, bind_assoc]
    exact congrArg _ (funext fun s => ih (fun m hm => h m (List.mem_cons_of_mem _ hm)) s)

theorem foldLines_jsonLines {lines : List Text}
    (h : ∀ l ∈ lines, (∀ c ∈ l, isBreak c = false) ∧ isBlank l = false) (s : σ) :
    foldLines read s (jsonLines lines) = lines.foldlM read s := by
  have happend : foldLines read s (jsonLines lines ++ []) = _ := foldLines_append h s []
  rw [List.append_nil] at happend
  rw [happend]
  exact bind_pure _

theorem first_break {t : Text} (h : t.any isBreak = true) :
    ∃ a c z, t = a ++ c :: z ∧ isBreak c = true ∧ ∀ d ∈ a, isBreak d = false := by
  obtain ⟨c, hc, hbreak⟩ := List.any_eq_true.mp h
  have hfind : (t.find? isBreak).isSome = true := List.find?_isSome.mpr ⟨c, hc, hbreak⟩
  obtain ⟨b, hb⟩ := Option.isSome_iff_exists.mp hfind
  obtain ⟨hbreak, a, z, rfl, ha⟩ := List.find?_eq_some_iff_append.mp hb
  refine ⟨a, b, z, rfl, hbreak, fun d hd => ?_⟩
  simpa only [Bool.not_eq_true'] using ha d hd

theorem first_broken {js : List Json} (h : ∃ j ∈ js, j.text.any isBreak = true) :
    ∃ pre j post, js = pre ++ j :: post ∧ j.text.any isBreak = true ∧
    ∀ i ∈ pre, i.text.any isBreak = false := by
  obtain ⟨j, hj, hbroken⟩ := h
  have hfind : (js.find? fun j => j.text.any isBreak).isSome = true :=
    List.find?_isSome.mpr ⟨j, hj, hbroken⟩
  obtain ⟨i, hi⟩ := Option.isSome_iff_exists.mp hfind
  obtain ⟨hbroken, pre, post, rfl, hpre⟩ := List.find?_eq_some_iff_append.mp hi
  refine ⟨pre, i, post, rfl, hbroken, fun i hi => ?_⟩
  simpa only [Bool.not_eq_true'] using hpre i hi

theorem object_not_blank (members : List (String × Json)) : isBlank (Json.obj members).text = false := rfl

theorem foldLines_objects {l : List α} {f : α → List (String × Json)}
    (hwritable : ∀ a ∈ l, (Json.obj (f a)).Writable) (h : ∀ a ∈ l, (Json.obj (f a)).Unbroken) (s : σ) :
    foldLines read s (jsonLines (l.map fun a => (Json.obj (f a)).text)) =
      l.foldlM (fun s a => read s (Json.obj (f a)).text) s := by
  rw [foldLines_jsonLines, List.foldlM_map]
  intro t ht
  obtain ⟨a, ha, rfl⟩ := List.mem_map.mp ht
  refine ⟨fun c hc => Bool.eq_false_of_not_eq_true fun hbreak => ?_, object_not_blank _⟩
  exact (broken_text (hwritable a ha)).mp (List.any_eq_true.mpr ⟨c, hc, hbreak⟩) (h a ha)

/-- An object with a string that does not stay on one line leaves a line that is no JSON text. -/
theorem foldLines_broken {hooks : Hooks} (hk : hooks.Keeps) {l : List α} {f : α → List (String × Json)}
    (hwritable : ∀ a ∈ l, (Json.obj (f a)).Writable) (h : ∃ a ∈ l, ¬ (Json.obj (f a)).Unbroken)
    (hfail : ∀ s t, (∀ j, loadsWith hooks t ≠ .ok j) → ∀ s', read s t ≠ .ok s') (s s' : σ) :
    foldLines read s (jsonLines (l.map fun a => (Json.obj (f a)).text)) ≠ .ok s' := by
  obtain ⟨a, ha, hbroken⟩ := h
  have hexists : ∃ j ∈ l.map fun a => Json.obj (f a), j.text.any isBreak = true :=
    ⟨_, List.mem_map_of_mem ha, (broken_text (hwritable a ha)).mpr hbroken⟩
  obtain ⟨pre, j, post, hsplit, hj, hpre⟩ := first_broken hexists
  have hmem : ∀ i ∈ pre ++ j :: post, ∃ a ∈ l, Json.obj (f a) = i := by
    intro i hi
    exact List.mem_map.mp (hsplit ▸ hi)
  obtain ⟨b, hb, rfl⟩ := hmem j (List.mem_append_right _ List.mem_cons_self)
  obtain ⟨t, c, z, htext, hbreak, ht⟩ := first_break hj
  obtain ⟨hwide, hreturn⟩ := break_wide (hwritable b hb)
    (htext ▸ List.mem_append_right _ List.mem_cons_self) hbreak
  have hblank : isBlank t = false := by
    cases t with
    | nil =>
      obtain ⟨rfl, -⟩ := List.cons.inj htext
      cases hbreak
    | cons d t =>
      obtain ⟨rfl, -⟩ := List.cons.inj htext
      rfl
  have hlines : ∀ l ∈ pre.map Json.text, (∀ c ∈ l, isBreak c = false) ∧ isBlank l = false := by
    intro l hl
    obtain ⟨i, hi, rfl⟩ := List.mem_map.mp hl
    obtain ⟨a, -, rfl⟩ := hmem i (List.mem_append_left _ hi)
    refine ⟨fun c hc => ?_, object_not_blank _⟩
    exact Bool.eq_false_of_not_eq_true (List.any_eq_false.mp (hpre _ hi) c hc)
  have htexts : (l.map fun a => (Json.obj (f a)).text) =
      pre.map Json.text ++ (Json.obj (f b)).text :: post.map Json.text := by
    have hmap := congrArg (List.map Json.text) hsplit
    rwa [List.map_map, List.map_append, List.map_cons] at hmap
  rw [htexts, jsonLines_append, foldLines_append hlines, jsonLines_eq, List.flatMap_cons, htext,
    List.append_assoc, List.append_assoc, List.cons_append]
  intro hread
  obtain ⟨s₁, -, hread⟩ := Except.bind_eq_ok.mp hread
  rw [foldLines_cons ht hblank hbreak hreturn] at hread
  obtain ⟨s₂, hline, -⟩ := Except.bind_eq_ok.mp hread
  exact hfail s₁ t (loadsWith_cut hk (hwritable b hb) hwide htext) s₂ hline

end Lines

end Library
