import Cadi.Library.Dict

namespace Library
set_option autoImplicit true

section Tries
variable [DecidableEq κ]

/-- A tree of nested maps: the paths from the root are prefixes of what was added. -/
inductive Trie (κ : Type) where
  | node (children : List (κ × Trie κ))

def Trie.empty : Trie κ := .node []

def Trie.child : Trie κ → κ → Option (Trie κ)
  | .node children, k => Dict.find children k

/-- How far a sequence can be followed from the root. -/
def Trie.depth : Trie κ → List κ → Nat
  | _, [] => 0
  | t, k :: ks =>
    match t.child k with
    | none => 0
    | some child => child.depth ks + 1

/-- The trie with the path of a sequence. -/
def Trie.add : Trie κ → List κ → Trie κ
  | t, [] => t
  | .node children, k :: ks =>
    .node (Dict.put k (((Dict.find children k).getD .empty).add ks) children)

/-- The length of the longest common prefix. -/
def commonLength : List κ → List κ → Nat
  | a :: l, b :: m => if a = b then commonLength l m + 1 else 0
  | _, _ => 0

theorem Trie.depth_empty (l : List κ) : (Trie.empty : Trie κ).depth l = 0 := by
  cases l <;> rfl

theorem Trie.child_add (t : Trie κ) (k x : κ) (ks : List κ) :
    (t.add (k :: ks)).child x = if k = x then some (((t.child k).getD .empty).add ks) else t.child x := by
  obtain ⟨children⟩ := t
  exact Dict.find_put children k _ x

theorem Trie.depth_add (t : Trie κ) (l m : List κ) :
    (t.add m).depth l = max (t.depth l) (commonLength l m) := by
  induction l generalizing t m with
  | nil => rfl
  | cons a l ih =>
    cases m with
    | nil => exact (Nat.max_zero _).symm
    | cons b m =>
      rw [depth, child_add, depth, commonLength]
      by_cases hab : a = b
      · subst hab
        rw [if_pos rfl, if_pos rfl]
        dsimp only
        rw [ih]
        cases t.child a with
        | none => rw [Option.getD_none, depth_empty, Nat.zero_max, Nat.zero_max]
        | some child => rw [Option.getD_some, Nat.add_max_add_right]
      · rw [if_neg (Ne.symm hab), if_neg hab, Nat.max_zero]

/-- A trie of sequences is followed as far as their longest common prefix. -/
theorem Trie.depth_foldl (t : Trie κ) (ms : List (List κ)) (l : List κ) :
    (ms.foldl Trie.add t).depth l = (ms.map (commonLength l)).foldl max (t.depth l) := by
  induction ms generalizing t with
  | nil => rfl
  | cons m ms ih => rw [List.foldl_cons, ih, depth_add, List.map_cons, List.foldl_cons]

theorem le_commonLength_iff {l m : List κ} {n : Nat} :
    n ≤ commonLength l m ↔ ∃ p : List κ, p.length = n ∧ p <+: l ∧ p <+: m := by
  induction l generalizing m n with
  | nil =>
    rw [commonLength, Nat.le_zero]
    · constructor
      · rintro rfl
        exact ⟨[], rfl, List.nil_prefix, List.nil_prefix⟩
      · rintro ⟨p, rfl, hp, _⟩
        rw [List.prefix_nil.mp hp]
        rfl
    · exact fun _ _ _ _ h => nomatch h
  | cons a l ih =>
    cases m with
    | nil =>
      rw [commonLength, Nat.le_zero]
      · constructor
        · rintro rfl
          exact ⟨[], rfl, List.nil_prefix, List.nil_prefix⟩
        · rintro ⟨p, rfl, _, hp⟩
          rw [List.prefix_nil.mp hp]
          rfl
      · exact fun _ _ _ _ _ h => nomatch h
    | cons b m =>
      rw [commonLength]
      cases n with
      | zero =>
        exact ⟨fun _ => ⟨[], rfl, List.nil_prefix, List.nil_prefix⟩, fun _ => Nat.zero_le _⟩
      | succ n =>
        constructor
        · intro h
          split at h
          next hab =>
            obtain ⟨p, hp, hl, hm⟩ := ih.mp (Nat.le_of_succ_le_succ h)
            refine ⟨a :: p, congrArg Nat.succ hp, List.cons_prefix_cons.mpr ⟨rfl, hl⟩,
              List.cons_prefix_cons.mpr ⟨hab, hm⟩⟩
          next => exact absurd h (Nat.not_succ_le_zero n)
        · rintro ⟨p, hp, hl, hm⟩
          cases p with
          | nil => cases hp
          | cons c p =>
            obtain ⟨rfl, hpl⟩ := List.cons_prefix_cons.mp hl
            obtain ⟨rfl, hpm⟩ := List.cons_prefix_cons.mp hm
            rw [if_pos rfl]
            exact Nat.succ_le_succ (ih.mpr ⟨p, Nat.succ.inj hp, hpl, hpm⟩)

end Tries

end Library
