import Cadi.Library.Checked
import Mathlib.Logic.Relation
import Mathlib.Data.List.Nodup
import Mathlib.Data.List.Perm.Subperm
import Mathlib.Algebra.GroupWithZero.Nat

namespace Library.Graph
open Relation
set_option autoImplicit true

/-- One edge of the graph given by a successor list. -/
def Edge (next : α → List α) (a b : α) : Prop := b ∈ next a

/-- The well-foundedness order of an acyclic graph: successors are smaller. -/
def Below (next : α → List α) (b a : α) : Prop := b ∈ next a

theorem transGen_below_iff {next : α → List α} :
    TransGen (Below next) b a ↔ TransGen (Edge next) a b :=
  transGen_swap (r := Edge next)

theorem not_transGen_self {R : α → α → Prop} (h : Acc R a) : ¬ TransGen R a a := by
  have ht := h.transGen
  induction ht with
  | intro a _ ih => exact fun hc => ih a hc h hc

/-- Adding a fresh vertex whose successors are all old keeps a graph acyclic. -/
theorem acc_extend {next next' : α → List α} (hn : ∀ a, a ≠ n → next' a = next a)
    (hf : ∀ a, n ∉ next a) (ha : Acc (Below next) a) (hne : a ≠ n) : Acc (Below next') a := by
  induction ha with
  | intro a _ ih =>
    constructor
    intro b hb
    rw [Below, hn a hne] at hb
    exact ih b hb fun he => hf a (he ▸ hb)

theorem forall_reachable_iff {next : α → List α} {P : α → Prop} :
    (∀ t, ReflTransGen (Edge next) a t → P t) ↔
      P a ∧ ∀ b ∈ next a, ∀ t, ReflTransGen (Edge next) b t → P t := by
  constructor
  · intro h
    exact ⟨h a .refl, fun b hb t ht => h t (.head hb ht)⟩
  · rintro ⟨ha, hnext⟩ t ht
    rcases ReflTransGen.cases_head ht with rfl | ⟨b, hb, ht⟩
    · exact ha
    · exact hnext b hb t ht

/-- A bounded recursion along the edges of an acyclic graph, with the open vertices of its path,
decides whether a property holds at every reachable vertex. -/
theorem recursion_decides {next : α → List α} {nodes visiting : List α} {P : α → Prop}
    (check : Nat → α → List α → Except ε Bool) (hout : ∀ a, a ∉ nodes → next a = [])
    (hstep : ∀ fuel a visiting, a ∉ visiting →
      (∀ b ∈ next a, Decides (check fuel b (a :: visiting))
        (∀ t, ReflTransGen (Edge next) b t → P t)) →
      Decides (check (fuel + 1) a visiting)
        (P a ∧ ∀ b ∈ next a, ∀ t, ReflTransGen (Edge next) b t → P t))
    (hacc : Acc (Below next) a) (hnodup : visiting.Nodup)
    (hpath : ∀ v ∈ visiting, v ∈ nodes ∧ TransGen (Edge next) v a)
    (hfuel : nodes.length < fuel + visiting.length) :
    Decides (check fuel a visiting) (∀ t, ReflTransGen (Edge next) a t → P t) := by
  induction hacc generalizing fuel visiting with
  | intro a hbelow ih =>
    have hacc : Acc (Below next) a := .intro a hbelow
    have hfresh : a ∉ visiting := fun ha =>
      not_transGen_self hacc (transGen_below_iff.mpr (hpath a ha).2)
    have hlength : visiting.length ≤ nodes.length :=
      (hnodup.subperm fun v hv => (hpath v hv).1).length_le
    obtain ⟨fuel, rfl⟩ : ∃ f, fuel = f + 1 := ⟨fuel - 1, by omega⟩
    refine (hstep fuel a visiting hfresh fun b hb => ?_).congr forall_reachable_iff.symm
    have ha : a ∈ nodes := by
      by_contra hn
      rw [hout a hn] at hb
      exact List.not_mem_nil hb
    refine ih b hb (List.nodup_cons.mpr ⟨hfresh, hnodup⟩) (fun v hv => ?_) (by
      rw [List.length_cons]
      omega)
    cases hv with
    | head => exact ⟨ha, .single hb⟩
    | tail _ hv => exact ⟨(hpath v hv).1, (hpath v hv).2.tail hb⟩

section Search
variable [DecidableEq α] (succ : α → Except ε (List α)) (exhausted : ε)

/-- Visits the listed vertices in order and stops at the first visit that reports a cycle. -/
def visitAll (visit : List α → α → Except ε (Bool × List α)) :
    List α → List α → Except ε (Bool × List α)
  | visited, [] => .ok (false, visited)
  | visited, p :: ps => do
    let (found, visited) ← visit visited p
    if found then .ok (true, visited) else visitAll visit visited ps

/-- Depth-first cycle detection with a path-local set of open vertices and a global set of
finished ones; the result is the report and the finished vertices. -/
def dfs : Nat → List α → List α → α → Except ε (Bool × List α)
  | 0, _, _, _ => .error exhausted
  | fuel + 1, visiting, visited, n =>
    if n ∈ visiting then .ok (true, visited)
    else if n ∈ visited then .ok (false, visited)
    else do
      let ps ← succ n
      let (found, visited) ← visitAll (dfs fuel (n :: visiting)) visited ps
      if found then .ok (true, visited) else .ok (false, n :: visited)

/-- Whether the search from some vertex of the list meets a cycle. -/
def anyCycle (nodes : List α) : Except ε Bool := do
  let (found, _) ← visitAll (dfs succ exhausted (nodes.length + 1) []) [] nodes
  return found

/-- Pops vertices off a stack until one satisfies the test or all reachable ones are seen. -/
def worklist (stop : α → Bool) : Nat → List α → List α → Except ε (Bool × List α)
  | 0, _, _ => .error exhausted
  | _ + 1, seen, [] => .ok (false, seen)
  | fuel + 1, seen, x :: todo =>
    if stop x then .ok (true, seen)
    else if x ∈ seen then worklist stop fuel seen todo
    else do
      let ps ← succ x
      worklist stop fuel (x :: seen) (ps.reverse ++ todo)

end Search

/-- The successor function is defined on a finite set of vertices closed under it. -/
structure Closed (succ : α → Except ε (List α)) (next : α → List α) (nodes : List α) : Prop where
  succ_eq : ∀ n ∈ nodes, succ n = .ok (next n)
  next_mem : ∀ n ∈ nodes, ∀ p ∈ next n, p ∈ nodes

/-- What a visit of the given vertices establishes. -/
structure Visited (next : α → List α) (nodes targets before : List α) (r : Bool × List α) :
    Prop where
  acc : ∀ x ∈ r.2, Acc (Below next) x
  mono : ∀ x ∈ before, x ∈ r.2
  done : r.1 = false → ∀ p ∈ targets, p ∈ r.2
  cycle : r.1 = true → ∃ x ∈ nodes, TransGen (Below next) x x

section Cycle
variable {next : α → List α} {nodes : List α}

theorem visitAll_spec (nodes : List α) (visit : List α → α → Except ε (Bool × List α))
    (hvisit : ∀ p ∈ ps, ∀ before, (∀ x ∈ before, Acc (Below next) x) →
      ∃ r, visit before p = .ok r ∧ Visited next nodes [p] before r)
    (hb : ∀ x ∈ before, Acc (Below next) x) :
    ∃ r, visitAll visit before ps = .ok r ∧ Visited next nodes ps before r := by
  induction ps generalizing before with
  | nil => exact ⟨_, rfl, hb, fun _ h => h, fun _ p hp => (List.not_mem_nil hp).elim,
      fun h => (Bool.false_ne_true h).elim⟩
  | cons p ps ih =>
    obtain ⟨⟨found, mid⟩, hr, hv⟩ := hvisit p List.mem_cons_self before hb
    cases found with
    | true =>
      refine ⟨(true, mid), ?_, hv.acc, hv.mono, fun h => (Bool.false_ne_true h.symm).elim, hv.cycle⟩
      simp only [visitAll, hr, bind, Except.bind, ↓reduceIte]
    | false =>
      obtain ⟨r, hr', hv'⟩ := ih (fun q hq => hvisit q (List.mem_cons_of_mem _ hq)) hv.acc
      refine ⟨r, ?_, hv'.acc, fun x hx => hv'.mono x (hv.mono x hx), ?_, hv'.cycle⟩
      · simp only [visitAll, hr, bind, Except.bind, Bool.false_eq_true, ↓reduceIte]
        exact hr'
      · intro h q hq
        cases hq with
        | head => exact hv'.mono p (hv.done rfl p List.mem_cons_self)
        | tail _ hq => exact hv'.done h q hq

variable [DecidableEq α] {succ : α → Except ε (List α)} {exhausted : ε}

theorem dfs_spec (hc : Closed succ next nodes) (hn : n ∈ nodes)
    (hpath : ∀ v ∈ visiting, TransGen (Below next) n v)
    (hnodup : visiting.Nodup) (hsub : ∀ v ∈ visiting, v ∈ nodes)
    (hfuel : nodes.length + 1 ≤ visiting.length + fuel)
    (hb : ∀ x ∈ before, Acc (Below next) x) :
    ∃ r, dfs succ exhausted fuel visiting before n = .ok r ∧ Visited next nodes [n] before r := by
  induction fuel generalizing visiting before n with
  | zero =>
    have hle := (List.subperm_of_subset hnodup hsub).length_le
    omega
  | succ fuel ih =>
    rw [dfs]
    by_cases hopen : n ∈ visiting
    · refine ⟨(true, before), if_pos hopen, hb, fun _ h => h,
        fun h => (Bool.false_ne_true h.symm).elim, fun _ => ⟨n, hn, hpath n hopen⟩⟩
    rw [if_neg hopen]
    by_cases hdone : n ∈ before
    · refine ⟨(false, before), if_pos hdone, hb, fun _ h => h, fun _ p hp => ?_,
        fun h => (Bool.false_ne_true h).elim⟩
      rwa [List.mem_singleton.mp hp]
    rw [if_neg hdone, hc.succ_eq n hn]
    obtain ⟨⟨found, after⟩, hr, hv⟩ := visitAll_spec nodes
      (dfs succ exhausted fuel (n :: visiting))
      (fun p (hp : p ∈ next n) before' hb' => by
        apply ih (hc.next_mem n hn p hp) _ (List.nodup_cons.mpr ⟨hopen, hnodup⟩) _ _ hb'
        · intro v hv
          cases hv with
          | head => exact .single hp
          | tail _ hv => exact .head hp (hpath v hv)
        · intro v hv
          cases hv with
          | head => exact hn
          | tail _ hv => exact hsub v hv
        · rw [List.length_cons]
          omega) hb
    simp only [bind, Except.bind, hr]
    cases found with
    | true => exact ⟨(true, after), rfl, hv.acc, hv.mono,
        fun h => (Bool.false_ne_true h.symm).elim, hv.cycle⟩
    | false =>
      refine ⟨(false, n :: after), rfl, ?_, fun x hx => List.mem_cons_of_mem _ (hv.mono x hx), ?_,
        fun h => (Bool.false_ne_true h).elim⟩
      · intro x hx
        cases hx with
        | head => exact .intro n fun p hp => hv.acc p (hv.done rfl p hp)
        | tail _ hx => exact hv.acc x hx
      · intro _ p hp
        rw [List.mem_singleton.mp hp]
        exact List.mem_cons_self

/-- The detector always answers, and answers no exactly on acyclic vertex sets. -/
theorem anyCycle_spec (hc : Closed succ next nodes) :
    ∃ b, anyCycle succ exhausted nodes = .ok b ∧
      (b = false ↔ ∀ x ∈ nodes, Acc (Below next) x) := by
  obtain ⟨⟨found, after⟩, hr, hv⟩ := visitAll_spec nodes
    (dfs succ exhausted (nodes.length + 1) [])
    (fun p (hp : p ∈ nodes) before hb => dfs_spec hc hp (fun _ h => (List.not_mem_nil h).elim) .nil
      (fun _ h => (List.not_mem_nil h).elim) (by simp only [List.length_nil]; omega) hb)
    (fun x (h : x ∈ []) => (List.not_mem_nil h).elim)
  refine ⟨found, ?_, ?_, ?_⟩
  · simp only [anyCycle, hr, bind, Except.bind]
    rfl
  · exact fun h x hx => hv.acc x (hv.done h x hx)
  · intro hacc
    cases found with
    | false => rfl
    | true =>
      obtain ⟨x, hx, hcycle⟩ := hv.cycle rfl
      exact (not_transGen_self (hacc x hx) hcycle).elim

end Cycle

section Worklist
variable {next : α → List α} {nodes : List α}

/-- The successor entries that vertices not yet seen can still push. -/
def pushable [DecidableEq α] (next : α → List α) (seen : List α) : List α → Nat
  | [] => 0
  | n :: nodes => (if n ∈ seen then 0 else (next n).length) + pushable next seen nodes

/-- A fuel bound for a search whose stack starts with the given number of entries. -/
def searchFuel (next : α → List α) (nodes : List α) (todo : Nat) : Nat :=
  todo + (nodes.map fun n => (next n).length).sum + 1

variable [DecidableEq α] {succ : α → Except ε (List α)}

theorem pushable_mono (x : α) (next : α → List α) (seen nodes : List α) :
    pushable next (x :: seen) nodes ≤ pushable next seen nodes := by
  induction nodes with
  | nil => exact Nat.le_refl 0
  | cons n nodes ih =>
    simp only [pushable, List.mem_cons]
    by_cases hn : n ∈ seen
    · simp only [hn, or_true, ↓reduceIte]
      omega
    · simp only [hn, or_false, ↓reduceIte]
      split <;> omega

theorem pushable_insert (next : α → List α) (hx : x ∈ nodes) (hs : x ∉ seen) :
    (next x).length + pushable next (x :: seen) nodes ≤ pushable next seen nodes := by
  induction nodes with
  | nil => cases hx
  | cons n nodes ih =>
    by_cases he : n = x
    · subst he
      have hmono := pushable_mono n next seen nodes
      simp only [pushable, List.mem_cons, true_or, ↓reduceIte, hs]
      omega
    · have hx' : x ∈ nodes := (List.mem_cons.mp hx).resolve_left (Ne.symm he)
      have hi := ih hx'
      simp only [pushable, List.mem_cons, he, false_or]
      omega

theorem pushable_le (next : α → List α) (seen nodes : List α) :
    pushable next seen nodes ≤ (nodes.map fun n => (next n).length).sum := by
  induction nodes with
  | nil => exact Nat.le_refl 0
  | cons n nodes ih =>
    simp only [pushable, List.map_cons, List.sum_cons]
    split <;> omega

/-- What a finished search establishes about the stack it started with. -/
structure Searched (next : α → List α) (stop : α → Bool) (seen todo : List α)
    (r : Bool × List α) : Prop where
  found : r.1 = true → ∃ x, stop x = true ∧ ∃ t ∈ todo, ReflTransGen (Edge next) t x
  covered : r.1 = false → ∀ t ∈ todo, t ∈ r.2
  mono : r.1 = false → ∀ x ∈ seen, x ∈ r.2
  fresh : r.1 = false → ∀ x ∈ r.2, x ∈ seen ∨ (stop x = false ∧
    (∃ t ∈ todo, ReflTransGen (Edge next) t x) ∧ ∀ y ∈ next x, y ∈ r.2)

theorem worklist_spec (exhausted : ε) (stop : α → Bool) (hc : Closed succ next nodes)
    (ht : ∀ x ∈ todo, x ∈ nodes)
    (hfuel : todo.length + pushable next seen nodes < fuel) :
    ∃ r, worklist succ exhausted stop fuel seen todo = .ok r ∧ Searched next stop seen todo r := by
  induction fuel generalizing seen todo with
  | zero => omega
  | succ fuel ih =>
    cases todo with
    | nil => exact ⟨(false, seen), rfl, fun h => (Bool.false_ne_true h).elim,
        fun _ t ht => (List.not_mem_nil ht).elim, fun _ _ h => h, fun _ _ h => .inl h⟩
    | cons x todo =>
      rw [worklist]
      have hx := ht x List.mem_cons_self
      rw [List.length_cons] at hfuel
      cases hstop : stop x with
      | true => exact ⟨(true, seen), rfl, fun _ => ⟨x, hstop, x, List.mem_cons_self, .refl⟩,
          fun h => (Bool.false_ne_true h.symm).elim, fun h => (Bool.false_ne_true h.symm).elim,
          fun h => (Bool.false_ne_true h.symm).elim⟩
      | false =>
        simp only [Bool.false_eq_true, ↓reduceIte]
        by_cases hseen : x ∈ seen
        · rw [if_pos hseen]
          have hless : todo.length + pushable next seen nodes < fuel := by omega
          obtain ⟨r, hr, hs⟩ := ih (fun y hy => ht y (List.mem_cons_of_mem _ hy)) hless
          refine ⟨r, hr, ?_, ?_, hs.mono, ?_⟩
          · intro h
            obtain ⟨y, hy, t, htm, hp⟩ := hs.found h
            exact ⟨y, hy, t, List.mem_cons_of_mem _ htm, hp⟩
          · intro h t htm
            cases htm with
            | head => exact hs.mono h x hseen
            | tail _ htm => exact hs.covered h t htm
          · intro h y hy
            rcases hs.fresh h y hy with hold | ⟨hy', ⟨t, htm, hp⟩, hnext⟩
            · exact .inl hold
            · exact .inr ⟨hy', ⟨t, List.mem_cons_of_mem _ htm, hp⟩, hnext⟩
        · rw [if_neg hseen, hc.succ_eq x hx]
          have hpush := pushable_insert next hx hseen
          have hstack : ∀ y ∈ (next x).reverse ++ todo, y ∈ nodes := by
            intro y hy
            rcases List.mem_append.mp hy with hy | hy
            · exact hc.next_mem x hx y (List.mem_reverse.mp hy)
            · exact ht y (List.mem_cons_of_mem _ hy)
          have hless : ((next x).reverse ++ todo).length + pushable next (x :: seen) nodes <
              fuel := by
            rw [List.length_append, List.length_reverse]
            omega
          obtain ⟨r, hr, hs⟩ := ih hstack hless
          have hreach {y : α} : (∃ t ∈ (next x).reverse ++ todo, ReflTransGen (Edge next) t y) →
              ∃ t ∈ x :: todo, ReflTransGen (Edge next) t y := by
            rintro ⟨t, htm, hp⟩
            rcases List.mem_append.mp htm with htm | htm
            · exact ⟨x, List.mem_cons_self, .head (List.mem_reverse.mp htm) hp⟩
            · exact ⟨t, List.mem_cons_of_mem _ htm, hp⟩
          refine ⟨r, hr, ?_, ?_, ?_, ?_⟩
          · intro h
            obtain ⟨y, hy, hp⟩ := hs.found h
            exact ⟨y, hy, hreach hp⟩
          · intro h t htm
            cases htm with
            | head => exact hs.mono h x List.mem_cons_self
            | tail _ htm => exact hs.covered h t (List.mem_append_right _ htm)
          · exact fun h y hy => hs.mono h y (List.mem_cons_of_mem _ hy)
          · intro h y hy
            rcases hs.fresh h y hy with hold | ⟨hy', hp, hnext⟩
            · cases hold with
              | head => exact .inr ⟨hstop, ⟨x, List.mem_cons_self, .refl⟩, fun z hz =>
                  hs.covered h z (List.mem_append_left _ (List.mem_reverse.mpr hz))⟩
              | tail _ hold => exact .inl hold
            · exact .inr ⟨hy', hreach hp, hnext⟩

/-- Searching from the successors of a vertex finds a target exactly when it is reachable. -/
theorem worklist_reaches (exhausted : ε) (stop : α → Bool) (hc : Closed succ next nodes) (hn : n ∈ nodes)
    (hfuel : searchFuel next nodes (next n).length ≤ fuel) :
    ∃ r, worklist succ exhausted stop fuel [] (next n).reverse = .ok r ∧
      (r.1 = true ↔ ∃ x, stop x = true ∧ TransGen (Edge next) n x) := by
  have hle := pushable_le next [] nodes
  have hstack : ∀ x ∈ (next n).reverse, x ∈ nodes := fun x hx =>
    hc.next_mem n hn x (List.mem_reverse.mp hx)
  have hless : (next n).reverse.length + pushable next [] nodes < fuel := by
    rw [searchFuel] at hfuel
    rw [List.length_reverse]
    omega
  obtain ⟨⟨found, seen⟩, hr, hs⟩ := worklist_spec exhausted stop hc hstack hless
  refine ⟨(found, seen), hr, ?_, ?_⟩
  · intro h
    obtain ⟨x, hx, t, ht, hp⟩ := hs.found h
    exact ⟨x, hx, .head' (List.mem_reverse.mp ht) hp⟩
  · rintro ⟨x, hx, hp⟩
    cases found with
    | true => rfl
    | false =>
      have hmem : x ∈ seen := by
        clear hx
        induction hp with
        | single h => exact hs.covered rfl _ (List.mem_reverse.mpr h)
        | tail _ h ih =>
          rcases hs.fresh rfl _ ih with hold | ⟨_, _, hnext⟩
          · exact (List.not_mem_nil hold).elim
          · exact hnext _ h
      rcases hs.fresh rfl x hmem with hold | ⟨hstop, _⟩
      · exact (List.not_mem_nil hold).elim
      · rw [hx] at hstop
        cases hstop

/-- Searching without a test collects exactly the vertices reachable from the start. -/
theorem worklist_closure (exhausted : ε) (hc : Closed succ next nodes) (hn : n ∈ nodes)
    (hfuel : searchFuel next nodes (next n).length ≤ fuel) :
    ∃ seen, worklist succ exhausted (fun _ => false) fuel [n] (next n).reverse =
        .ok (false, seen) ∧ ∀ x, x ∈ seen ↔ ReflTransGen (Edge next) n x := by
  have hle := pushable_le next [n] nodes
  have hstack : ∀ x ∈ (next n).reverse, x ∈ nodes := fun x hx =>
    hc.next_mem n hn x (List.mem_reverse.mp hx)
  have hless : (next n).reverse.length + pushable next [n] nodes < fuel := by
    rw [searchFuel] at hfuel
    rw [List.length_reverse]
    omega
  obtain ⟨⟨found, seen⟩, hr, hs⟩ := worklist_spec exhausted (fun _ => false) hc hstack hless
  cases found with
  | true =>
    obtain ⟨x, hx, _⟩ := hs.found rfl
    cases hx
  | false =>
    refine ⟨seen, hr, fun x => ⟨?_, ?_⟩⟩
    · intro hx
      rcases hs.fresh rfl x hx with hold | ⟨_, ⟨t, ht, hp⟩, _⟩
      · rw [List.mem_singleton.mp hold]
      · exact .head (List.mem_reverse.mp ht) hp
    · intro hp
      induction hp with
      | refl => exact hs.mono rfl n List.mem_cons_self
      | @tail y z _ h ih =>
        rcases hs.fresh rfl y ih with hold | ⟨_, _, hnext⟩
        · rw [List.mem_singleton.mp hold] at h
          exact hs.covered rfl z (List.mem_reverse.mpr h)
        · exact hnext z h

end Worklist

end Library.Graph
