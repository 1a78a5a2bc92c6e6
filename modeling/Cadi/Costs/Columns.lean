import Cadi.Costs.Powers
import Mathlib.Algebra.Ring.Nat

namespace Cadi
open Library
set_option autoImplicit true

section Blocks
variable {n k f : Nat} {io : Bool}

/-- By how much the features that may follow a feature are shifted. -/
def shift (io : Bool) : Nat := if io then 1 else 0

@[simp] theorem choicesFrom_zero : choicesFrom n io 0 f = [[]] := choices_zero _

theorem choicesFrom_succ (io : Bool) (k : Nat) (hf : f < n) : choicesFrom n io (k + 1) f =
    (choicesFrom n io k (f + shift io)).map (f :: ·) ++ choicesFrom n io (k + 1) (f + 1) := by
  have hrange : List.range' f (n - f) = f :: List.range' (f + 1) (n - (f + 1)) := by
    rw [show n - f = (n - (f + 1)) + 1 by omega, List.range'_succ]
  rw [choicesFrom, hrange, choices_cons]
  cases io with
  | false => simp [choicesFrom, shift, hrange]
  | true => simp [choicesFrom, shift]

theorem choicesFrom_end (hf : n ≤ f) : choicesFrom n io (k + 1) f = [] := by
  rw [choicesFrom, Nat.sub_eq_zero_of_le hf, List.range'_zero, choices_nil]

theorem choicesFrom_suffix (n : Nat) (io : Bool) (k : Nat) {g : Nat} (h : f ≤ g) :
    choicesFrom n io (k + 1) g <:+ choicesFrom n io (k + 1) f := by
  induction g, h using Nat.le_induction with
  | base => exact List.suffix_refl _
  | succ g _ ih =>
    by_cases hg : g < n
    · rw [choicesFrom_succ io k hg] at ih
      exact (List.suffix_append _ _).trans ih
    · rw [choicesFrom_end (by omega)]
      exact List.nil_suffix

/-- The number of choices from a feature on. -/
def blocks (n : Nat) (io : Bool) (k f : Nat) : Nat := (choicesFrom n io k f).length

theorem blocks_antitone (n : Nat) (io : Bool) (k : Nat) {g : Nat} (h : f ≤ g) :
    blocks n io (k + 1) g ≤ blocks n io (k + 1) f := (choicesFrom_suffix n io k h).length_le

theorem blocks_succ (hf : f < n) : blocks n io (k + 1) f =
    blocks n io k (f + shift io) + blocks n io (k + 1) (f + 1) := by
  rw [blocks, choicesFrom_succ io k hf, List.length_append, List.length_map]
  rfl

theorem blocks_end (hf : n ≤ f) : blocks n io (k + 1) f = 0 := by
  rw [blocks, choicesFrom_end hf, List.length_nil]

/-- Where the block of a feature is empty, so is that of each feature behind it. -/
theorem blocks_empty (h : blocks n io (k + 1) (f + shift io) = 0) : blocks n io (k + 2) f = 0 := by
  by_cases hf : f < n
  · induction hd : n - f generalizing f with
    | zero => omega
    | succ d ih =>
      rw [blocks_succ hf, h, Nat.zero_add]
      by_cases hf' : f + 1 < n
      · have hle := blocks_antitone n io k
          (show f + shift io ≤ f + 1 + shift io by omega)
        exact ih (by omega) hf' (by omega)
      · exact blocks_end (by omega)
  · exact blocks_end (by omega)

theorem blocks_one (hf : f ≤ n) : blocks n io 1 f = n - f := by
  induction hd : n - f generalizing f with
  | zero => exact blocks_end (by omega)
  | succ d ih =>
    rw [blocks_succ (by omega), ih (by omega) (by omega), blocks, choicesFrom_zero]
    exact Nat.add_comm 1 d

theorem choicesFrom_one (hf : f ≤ n) :
    choicesFrom n io 1 f = (List.range' f (n - f)).map fun i => [i] := by
  induction hd : n - f generalizing f with
  | zero => rw [choicesFrom_end (by omega), List.range'_zero, List.map_nil]
  | succ d ih =>
    rw [choicesFrom_succ io 0 (by omega), choicesFrom_zero, ih (by omega) (by omega), List.range'_succ]
    rfl

end Blocks

section Columns
variable {R : Type}

theorem Columns.slice_append (pre block rest : Columns R) :
    Columns.slice (pre ++ block ++ rest) pre.length (pre.length + block.length) = block := by
  rw [Columns.slice, List.append_assoc, List.drop_left, Nat.add_sub_cancel_left, List.take_left]

theorem Columns.assign_append (filled block : Columns R) (m : Nat) :
    Columns.assign (filled ++ List.replicate (block.length + m) none) filled.length
      (filled.length + block.length) block = .ok (filled ++ block ++ List.replicate m none) := by
  have hfits : filled.length + block.length ≤
      (filled ++ List.replicate (block.length + m) (none : Option (List R))).length := by
    rw [List.length_append, List.length_replicate]
    omega
  rw [Columns.assign, if_pos ⟨hfits, by omega⟩, List.take_left, List.drop_append,
    List.drop_replicate, List.drop_eq_nil_of_le (by omega)]
  simp

end Columns

section Rows
variable {R : Type} {rows : List (List R)} {n : Nat}

theorem checkRows_ok (width : Option Nat) (hn : 1 ≤ n) (hrows : ∀ x ∈ rows, x.length = n)
    (hwidth : ∀ w ∈ width, w = n) : checkRows width rows = .ok () := by
  induction rows generalizing width with
  | nil => rfl
  | cons row rows ih =>
    obtain ⟨hrow, hrows⟩ := List.forall_mem_cons.mp hrows
    have hne : row ≠ [] := by
      rintro rfl
      exact absurd hn (hrow ▸ Nat.not_succ_le_zero 0)
    have heq : ¬ ∃ w ∈ width, row.length ≠ w := by
      rintro ⟨w, hw, hlt⟩
      exact hlt (hrow.trans (hwidth w hw).symm)
    rw [checkRows, if_neg hne, if_neg heq]
    apply ih _ hrows
    rintro w hw
    obtain rfl := Option.some.inj hw
    cases width with
    | none => exact hrow
    | some w => exact hwidth w rfl

end Rows

section Filling
variable {R : Type} [CommSemiring R] {rows : List (List R)} {io : Bool} {n k f base : Nat}

/-- The column of a choice of features. -/
def chosenColumn (rows : List (List R)) (c : List Nat) : Option (List R) :=
  some (rows.map fun x => (c.map fun i => x.getD i 0).prod)

/-- The columns of the features. -/
def featureColumns (rows : List (List R)) (n : Nat) : List (List R) :=
  (List.range n).map fun column => rows.filterMap (·[column]?)

theorem featureColumns_eq (hrows : ∀ x ∈ rows, x.length = n) :
    featureColumns rows n = (List.range n).map fun i => rows.map fun x => x.getD i 0 := by
  refine List.map_congr_left fun i hi => ?_
  rw [← List.filterMap_eq_map]
  refine List.filterMap_congr fun x hx => ?_
  have hlt : i < x.length := by
    rw [hrows x hx]
    exact List.mem_range.mp hi
  rw [Function.comp, List.getElem?_eq_getElem hlt, List.getD_eq_getElem x 0 hlt]

/-- The block of a feature: the choices that may follow it, times the feature. -/
theorem timesColumn_chosen (hrows : ∀ x ∈ rows, x.length = n) (hf : f < n) (cs : List (List Nat)) :
    timesColumn (cs.map (chosenColumn rows)) ((featureColumns rows n).getD f []) =
      (cs.map (f :: ·)).map (chosenColumn rows) := by
  have hcolumn : (featureColumns rows n).getD f [] = rows.map fun x => x.getD f 0 := by
    rw [featureColumns_eq hrows]
    simp [hf]
  rw [timesColumn, hcolumn, List.map_map, List.map_map]
  refine List.map_congr_left fun c _ => ?_
  have hzip (l : List (List R)) :
      List.zipWith (· * ·) (l.map fun x => (c.map fun i => x.getD i 0).prod)
        (l.map fun x => x.getD f 0) = l.map fun x => ((f :: c).map fun i => x.getD i 0).prod := by
    induction l with
    | nil => rfl
    | cons x l ih =>
      rw [List.map_cons, List.map_cons, List.zipWith_cons_cons, ih, List.map_cons, List.map_cons,
        List.prod_cons, mul_comm]
  exact congrArg some (hzip rows)

/-- The list of a degree says where the block of each feature starts, counted from the first column
of the degree; it may leave out features whose block is empty. -/
structure Index (n : Nat) (io : Bool) (k base : Nat) (index : List Nat) : Prop where
  two : 2 ≤ index.length
  starts : ∀ j, (h : j < index.length) → index[j] = base + blocks n io k 0 - blocks n io k j
  last : blocks n io k (index.length - 1) = 0

variable {index : List Nat}

theorem nth_eq {j : Nat} (h : j < index.length) : nth index j = .ok index[j] := by
  rw [nth, List.getElem?_eq_getElem h]

theorem Index.start (h : Index n io (k + 1) base index) {j : Nat} (hj : j < index.length) :
    nth index j = .ok (base + (blocks n io (k + 1) 0 - blocks n io (k + 1) j)) := by
  have hle := blocks_antitone n io k (Nat.zero_le j)
  rw [nth_eq hj, h.starts j hj, Nat.add_sub_assoc hle]

theorem Index.stop (h : Index n io (k + 1) base index) :
    nth index (index.length - 1) = .ok (base + blocks n io (k + 1) 0) := by
  have htwo := h.two
  rw [h.start (by omega), h.last, Nat.sub_zero]

theorem Index.reaches (h : Index n io (k + 1) base index) {g : Nat}
    (hpos : 0 < blocks n io (k + 1) g) : g + 1 < index.length := by
  by_contra hlt
  have hle := blocks_antitone n io k (show index.length - 1 ≤ g by omega)
  rw [h.last] at hle
  omega

theorem Index.of_starts (hf : 1 ≤ f) (hempty : blocks n io (k + 1) f = 0) :
    Index n io (k + 1) base ((List.range f).map (fun j =>
      base + blocks n io (k + 1) 0 - blocks n io (k + 1) j) ++ [base + blocks n io (k + 1) 0]) where
  two := by
    simp
    omega
  starts := by
    intro j hj
    by_cases hlt : j < f
    · simp [hlt]
    · have he : j = f := by
        simp at hj
        omega
      simp [he, hempty]
  last := by simpa using hempty

theorem Index.first (io : Bool) (base : Nat) (hn : 1 ≤ n) :
    Index n io 1 base (List.range' base (n + 1)) := by
  have hstarts : List.range' base (n + 1) = (List.range n).map (fun j =>
      base + blocks n io 1 0 - blocks n io 1 j) ++ [base + blocks n io 1 0] := by
    rw [List.range'_concat, List.range'_eq_map_range, blocks_one (Nat.zero_le n)]
    congr 1
    · refine List.map_congr_left fun j hj => ?_
      have hlt := List.mem_range.mp hj
      rw [blocks_one (by omega)]
      omega
    · simp
  rw [hstarts]
  exact Index.of_starts hn (blocks_end (le_refl n))

/-- The columns while the degree behind the given one is filled: `done` are the choices before the
feature. -/
structure Midway (rows : List (List R)) (n : Nat) (io : Bool) (k : Nat) (pre : Columns R) (m f : Nat)
    (done : List (List Nat)) (s : Filling R) : Prop where
  split : done ++ choicesFrom n io (k + 2) f = choicesFrom n io (k + 2) 0
  columns : s.columns = pre ++ (choicesFrom n io (k + 1) 0).map (chosenColumn rows) ++
    done.map (chosenColumn rows) ++ List.replicate (blocks n io (k + 2) f + m) none
  current : s.currentCol = pre.length + blocks n io (k + 1) 0 + done.length
  newIndex : s.newIndex = (List.range f).map fun j =>
    pre.length + blocks n io (k + 1) 0 + blocks n io (k + 2) 0 - blocks n io (k + 2) j

/-- The columns when that degree is filled. -/
structure FilledColumns (rows : List (List R)) (n : Nat) (io : Bool) (k : Nat) (pre : Columns R) (m : Nat)
    (s : Filling R) : Prop where
  columns : s.columns = pre ++ (choicesFrom n io (k + 1) 0).map (chosenColumn rows) ++
    (choicesFrom n io (k + 2) 0).map (chosenColumn rows) ++ List.replicate m none
  current : s.currentCol = pre.length + blocks n io (k + 1) 0 + blocks n io (k + 2) 0
  index : Index n io (k + 2) (pre.length + blocks n io (k + 1) 0) (s.newIndex ++ [s.currentCol])

variable {pre : Columns R} {m stop : Nat} {done : List (List Nat)} {s : Filling R}

theorem Midway.start (h : Midway rows n io k pre m f done s) : s.newIndex ++ [s.currentCol] =
    (List.range (f + 1)).map fun j =>
      pre.length + blocks n io (k + 1) 0 + blocks n io (k + 2) 0 - blocks n io (k + 2) j := by
  have hlen := congrArg List.length h.split
  rw [List.length_append] at hlen
  rw [h.newIndex, h.current, List.range_succ, List.map_append, List.map_singleton]
  congr 2
  change done.length + blocks n io (k + 2) f = blocks n io (k + 2) 0 at hlen
  omega

theorem Midway.filled (h : Midway rows n io k pre m f done s) (hempty : blocks n io (k + 2) f = 0)
    {starts : List Nat} {g : Nat} (hg : 1 ≤ g) (hgf : f ≤ g) (hstarts : starts = (List.range g).map
      fun j => pre.length + blocks n io (k + 1) 0 + blocks n io (k + 2) 0 - blocks n io (k + 2) j) :
    FilledColumns rows n io k pre m { s with newIndex := starts } := by
  have hdone : done = choicesFrom n io (k + 2) 0 := by
    rw [← h.split, List.length_eq_zero_iff.mp hempty, List.append_nil]
  have hcurrent : s.currentCol = pre.length + blocks n io (k + 1) 0 + blocks n io (k + 2) 0 := by
    rw [h.current, hdone]
    rfl
  constructor
  · change s.columns = _
    rw [h.columns, hdone, hempty, Nat.zero_add]
  · exact hcurrent
  · have hle := blocks_antitone n io (k + 1) hgf
    rw [hempty] at hle
    change Index n io (k + 2) _ (starts ++ [s.currentCol])
    rw [hstarts, hcurrent]
    exact Index.of_starts hg (Nat.le_zero.mp hle)

theorem fillDegree_cons (x : List (List R)) {features : List Nat}
    (hindex : Index n io (k + 1) pre.length index) (hf : f + shift io < index.length)
    (hstop : stop = pre.length + blocks n io (k + 1) 0) :
    fillDegree x io index stop (f :: features) s =
      if blocks n io (k + 1) (f + shift io) = 0 then
        .ok { s with newIndex := s.newIndex ++ [s.currentCol] }
      else (do
        let columns ← s.columns.assign s.currentCol (s.currentCol + blocks n io (k + 1) (f + shift io))
          (timesColumn (s.columns.slice (stop - blocks n io (k + 1) (f + shift io)) stop) (x.getD f []))
        fillDegree x io index stop features ⟨columns,
          s.currentCol + blocks n io (k + 1) (f + shift io), s.newIndex ++ [s.currentCol]⟩) := by
  have hle := blocks_antitone n io k (Nat.zero_le (f + shift io))
  have hnext (w : Nat)
      (hw : w = pre.length + (blocks n io (k + 1) 0 - blocks n io (k + 1) (f + shift io))) :
      s.currentCol + stop - w = s.currentCol + blocks n io (k + 1) (f + shift io) ∧
        w = stop - blocks n io (k + 1) (f + shift io) := by
    omega
  have hempty : s.currentCol + blocks n io (k + 1) (f + shift io) ≤ s.currentCol ↔
      blocks n io (k + 1) (f + shift io) = 0 := by
    omega
  rw [fillDegree, hindex.start (by omega)]
  cases io with
  | false =>
    obtain ⟨hwidth, hstart⟩ := hnext _ rfl
    change (if s.currentCol + stop - _ ≤ s.currentCol then _ else _) = _
    simp only [shift, Bool.false_eq_true, if_false, Nat.add_zero] at hwidth hstart hempty ⊢
    simp only [hwidth, hempty]
    rw [hstart]
  | true =>
    obtain ⟨hwidth, hstart⟩ := hnext _ rfl
    simp only [if_true]
    rw [hindex.start (show f + 1 < index.length from hf)]
    change (if s.currentCol + stop - (_ + _ - _) ≤ s.currentCol then _ else _) = _
    rw [Nat.add_sub_cancel_left]
    simp only [shift, if_true] at hwidth hstart hempty ⊢
    simp only [hwidth, hempty]
    rw [hstart]

theorem columns_length (cs : List (List Nat)) : (cs.map (chosenColumn rows)).length = cs.length :=
  List.length_map _

theorem Midway.slice (h : Midway rows n io k pre m f done s) (g : Nat) :
    s.columns.slice (pre.length + blocks n io (k + 1) 0 - blocks n io (k + 1) g)
      (pre.length + blocks n io (k + 1) 0) = (choicesFrom n io (k + 1) g).map (chosenColumn rows) := by
  obtain ⟨before, hbefore⟩ := choicesFrom_suffix n io k (Nat.zero_le g)
  have hlen : before.length + blocks n io (k + 1) g = blocks n io (k + 1) 0 := by
    rw [blocks, blocks, ← hbefore, List.length_append]
  have hstart : pre.length + blocks n io (k + 1) 0 - blocks n io (k + 1) g =
      (pre ++ before.map (chosenColumn rows)).length := by
    rw [List.length_append, columns_length]
    omega
  have hstop : pre.length + blocks n io (k + 1) 0 = (pre ++ before.map (chosenColumn rows)).length +
      ((choicesFrom n io (k + 1) g).map (chosenColumn rows)).length := by
    rw [List.length_append, columns_length, columns_length, ← hlen, Nat.add_assoc]
    rfl
  rw [hstart, hstop, h.columns, ← hbefore, List.map_append]
  simpa only [List.append_assoc] using Columns.slice_append (pre ++ before.map (chosenColumn rows))
    ((choicesFrom n io (k + 1) g).map (chosenColumn rows)) _

theorem Midway.assign (h : Midway rows n io k pre m f done s) (hf : f < n) :
    s.columns.assign s.currentCol (s.currentCol + blocks n io (k + 1) (f + shift io))
      (((choicesFrom n io (k + 1) (f + shift io)).map (f :: ·)).map (chosenColumn rows)) =
    .ok (pre ++ (choicesFrom n io (k + 1) 0).map (chosenColumn rows) ++
      (done ++ (choicesFrom n io (k + 1) (f + shift io)).map (f :: ·)).map (chosenColumn rows) ++
      List.replicate (blocks n io (k + 2) (f + 1) + m) none) := by
  have hfilled : s.currentCol = (pre ++ (choicesFrom n io (k + 1) 0).map (chosenColumn rows) ++
      done.map (chosenColumn rows)).length := by
    rw [h.current, List.length_append, List.length_append, columns_length, columns_length]
    rfl
  have hblock : blocks n io (k + 1) (f + shift io) =
      (((choicesFrom n io (k + 1) (f + shift io)).map (f :: ·)).map (chosenColumn rows)).length := by
    rw [columns_length, List.length_map]
    rfl
  rw [h.columns, blocks_succ hf, Nat.add_assoc, hfilled, hblock, Columns.assign_append, List.map_append,
    List.append_assoc _ (List.map _ done)]

/-- One feature: either every block that is left is empty, or the block is written behind the
others. -/
theorem fillDegree_step (hrows : ∀ x ∈ rows, x.length = n) {features : List Nat}
    (hindex : Index n io (k + 1) pre.length index) (hfn : f < n) (hf : f + shift io < index.length)
    (hstop : stop = pre.length + blocks n io (k + 1) 0) (h : Midway rows n io k pre m f done s) :
    (∃ s', fillDegree (featureColumns rows n) io index stop (f :: features) s = .ok s' ∧
      FilledColumns rows n io k pre m s') ∨
    ∃ done' s', fillDegree (featureColumns rows n) io index stop (f :: features) s =
      fillDegree (featureColumns rows n) io index stop features s' ∧
      Midway rows n io k pre m (f + 1) done' s' ∧ f + 1 + shift io < index.length := by
  rw [fillDegree_cons (featureColumns rows n) hindex hf hstop]
  by_cases hempty : blocks n io (k + 1) (f + shift io) = 0
  · rw [if_pos hempty]
    exact .inl ⟨_, rfl, h.filled (blocks_empty hempty) (Nat.le_add_left 1 f) (Nat.le_succ f) h.start⟩
  · have hsucc := choicesFrom_succ io (k + 1) hfn
    have hreach := hindex.reaches (Nat.pos_of_ne_zero hempty)
    rw [if_neg hempty, hstop, h.slice, timesColumn_chosen hrows hfn, h.assign hfn]
    refine .inr ⟨_, _, rfl, ⟨?_, rfl, ?_, h.start⟩, by omega⟩
    · rw [List.append_assoc, ← hsucc, h.split]
    · change s.currentCol + _ = _
      rw [h.current, List.length_append, List.length_map, ← Nat.add_assoc]
      rfl

theorem fillDegree_filled (hrows : ∀ x ∈ rows, x.length = n)
    (hindex : Index n io (k + 1) pre.length index) (hstop : stop = pre.length + blocks n io (k + 1) 0)
    {d : Nat} (hd : f + d = n) (hn : 1 ≤ n) (hf : f + shift io < index.length)
    (h : Midway rows n io k pre m f done s) :
    ∃ s', fillDegree (featureColumns rows n) io index stop (List.range' f d) s = .ok s' ∧
      FilledColumns rows n io k pre m s' := by
  induction d generalizing f done s with
  | zero =>
    have hlast : blocks n io (k + 2) f = 0 := blocks_end (by omega)
    exact ⟨s, rfl, h.filled hlast (by omega) (le_refl f) h.newIndex⟩
  | succ d ih =>
    rw [List.range'_succ]
    rcases fillDegree_step hrows hindex (by omega) hf hstop h with
      hbreak | ⟨done', s', hnext, h', hf'⟩
    · exact hbreak
    · rw [hnext]
      exact ih (by omega) hf' h'

/-- The columns of the degrees from the given one on. -/
def degreeColumns (rows : List (List R)) (n : Nat) (io : Bool) (first rounds : Nat) : Columns R :=
  (List.range' first rounds).flatMap fun k => (choicesFrom n io k 0).map (chosenColumn rows)

theorem fillDegrees_ok (hrows : ∀ x ∈ rows, x.length = n) (hn : 1 ≤ n) (rounds : Nat)
    (hindex : Index n io (k + 1) pre.length index) :
    fillDegrees (featureColumns rows n) io rounds
      (pre ++ (choicesFrom n io (k + 1) 0).map (chosenColumn rows) ++
        List.replicate (degreeColumns rows n io (k + 2) rounds).length none)
      (pre.length + blocks n io (k + 1) 0) index =
    .ok (pre ++ degreeColumns rows n io (k + 1) (rounds + 1),
      (pre ++ degreeColumns rows n io (k + 1) (rounds + 1)).length) := by
  induction rounds generalizing k pre index with
  | zero =>
    simp [fillDegrees, degreeColumns, blocks]
  | succ rounds ih =>
    have hwidth : (featureColumns rows n).length = n := by
      rw [featureColumns, List.length_map, List.length_range]
    have htwo := hindex.two
    have hlen : (degreeColumns rows n io (k + 2) (rounds + 1)).length =
        blocks n io (k + 2) 0 + (degreeColumns rows n io (k + 3) rounds).length := by
      rw [degreeColumns, List.range'_succ, List.flatMap_cons, List.length_append, columns_length]
      rfl
    have hstart : Midway rows n io k pre (degreeColumns rows n io (k + 3) rounds).length 0 []
        ⟨pre ++ (choicesFrom n io (k + 1) 0).map (chosenColumn rows) ++
          List.replicate (degreeColumns rows n io (k + 2) (rounds + 1)).length none,
          pre.length + blocks n io (k + 1) 0, []⟩ := by
      refine ⟨rfl, ?_, rfl, rfl⟩
      rw [hlen]
      simp
    have hshift : 0 + shift io < index.length := by
      cases io with
      | false => exact Nat.lt_of_lt_of_le Nat.zero_lt_two htwo
      | true => exact htwo
    obtain ⟨s, hs, hfilled⟩ := fillDegree_filled hrows hindex rfl (Nat.zero_add n) hn hshift hstart
    rw [fillDegrees, hindex.stop]
    change ((fillDegree (featureColumns rows n) io index _ (List.range (featureColumns rows n).length)
      _).bind _) = _
    rw [hwidth, List.range_eq_range', hs]
    change fillDegrees (featureColumns rows n) io rounds s.columns s.currentCol _ = _
    have hpre : pre.length + blocks n io (k + 1) 0 =
        (pre ++ (choicesFrom n io (k + 1) 0).map (chosenColumn rows)).length := by
      rw [List.length_append, columns_length]
      rfl
    have hindex' := hfilled.index
    rw [hfilled.current, hpre] at hindex'
    rw [hfilled.columns, hfilled.current, hpre]
    refine (ih hindex').trans ?_
    simp only [degreeColumns, List.range'_succ, List.flatMap_cons, List.append_assoc]

theorem sourcePolynomialPowers_ok {d : Nat} (hn : 1 ≤ n) (hd : 1 ≤ d) (io bias : Bool) :
    sourcePolynomialPowers n d io bias = .ok (polynomialPowers n d io bias) := by
  rw [sourcePolynomialPowers, if_neg (by omega), if_neg (by omega)]
  rfl

theorem powers_column (hrows : ∀ x ∈ rows, x.length = n) (d : Nat) (io bias : Bool) :
    (polynomialPowers n d io bias).map (fun e => some (rows.map (monomial · e))) =
    (if bias then [some (rows.map fun _ => 1)] else []) ++ degreeColumns rows n io 1 d := by
  rw [polynomialPowers_eq, List.map_append, degreeColumns, List.map_flatMap]
  congr 1
  · cases bias with
    | false => rfl
    | true =>
      refine congrArg (fun column => [some column]) (List.map_congr_left fun x hx => ?_)
      have hprod := monomial_exponents (x := x) (List.nil_subset _)
      rwa [hrows x hx] at hprod
  · refine List.flatMap_congr fun k _ => ?_
    rw [List.map_map]
    refine List.map_congr_left fun c hc => congrArg some (List.map_congr_left fun x hx => ?_)
    have hlen := hrows x hx
    have hsub := choicesFrom_subset hc
    rw [← hlen] at hsub ⊢
    exact monomial_exponents hsub

theorem featureColumns_chosen (hrows : ∀ x ∈ rows, x.length = n) :
    (featureColumns rows n).map some = (choicesFrom n io 1 0).map (chosenColumn rows) := by
  rw [featureColumns_eq hrows, choicesFrom_one (Nat.zero_le n), List.map_map, List.map_map, Nat.sub_zero,
    ← List.range_eq_range']
  refine List.map_congr_left fun i _ => congrArg some (List.map_congr_left fun x _ => ?_)
  exact List.prod_singleton.symm

theorem assign_features (io : Bool) (hrows : ∀ x ∈ rows, x.length = n) (d : Nat) (pre : Columns R) :
    Columns.assign (pre ++ List.replicate (degreeColumns rows n io 1 (d + 1)).length none) pre.length
      (pre.length + n) ((featureColumns rows n).map some) =
    .ok (pre ++ (choicesFrom n io 1 0).map (chosenColumn rows) ++
      List.replicate (degreeColumns rows n io 2 d).length none) := by
  have hwidth : n = ((featureColumns rows n).map some).length := by
    rw [List.length_map, featureColumns, List.length_map, List.length_range]
  have hcount : (degreeColumns rows n io 1 (d + 1)).length =
      ((featureColumns rows n).map some).length + (degreeColumns rows n io 2 d).length := by
    rw [degreeColumns, List.range'_succ, List.flatMap_cons, List.length_append,
      ← featureColumns_chosen hrows]
    rfl
  have hassign := Columns.assign_append pre ((featureColumns rows n).map some)
    (degreeColumns rows n io 2 d).length
  rw [← hcount, ← hwidth] at hassign
  rw [hassign, featureColumns_chosen hrows]

theorem fill_degrees (io : Bool) (hrows : ∀ x ∈ rows, x.length = n) (hn : 1 ≤ n) (d : Nat)
    (pre : Columns R) :
    fillDegrees (featureColumns rows n) io d (pre ++ (choicesFrom n io 1 0).map (chosenColumn rows) ++
        List.replicate (degreeColumns rows n io 2 d).length none) (pre.length + n)
      (List.range' pre.length (n + 1)) =
    .ok (pre ++ degreeColumns rows n io 1 (d + 1),
      (pre ++ degreeColumns rows n io 1 (d + 1)).length) := by
  have hfill := fillDegrees_ok hrows hn d (Index.first io pre.length hn)
  rwa [blocks_one (Nat.zero_le n)] at hfill

/-- The matrix has a column for each row of the powers, which holds the monomials with these
exponents; the rows of the powers are distinct and are the exponents up to the degree. -/
theorem sourceDensePolynomialMatrix_ok {d : Nat} (hn : 1 ≤ n) (hd : 1 ≤ d) (io bias : Bool)
    (hne : rows ≠ []) (hrows : ∀ x ∈ rows, x.length = n) : ∃ powers : List (List Nat),
      sourcePolynomialPowers n d io bias = .ok powers ∧
      sourceDensePolynomialMatrix rows d io bias =
        .ok (powers.map fun e => some (rows.map (monomial · e))) ∧
      powers.Nodup ∧ ∀ e, e ∈ powers ↔ e.length = n ∧ e.sum ≤ d ∧ (bias = false → 1 ≤ e.sum) ∧
        (io = true → ∀ a ∈ e, a ≤ 1) := by
  refine ⟨_, sourcePolynomialPowers_ok hn hd io bias, ?_, nodup_polynomialPowers,
    fun e => mem_polynomialPowers⟩
  rw [powers_column hrows]
  have hlen : (polynomialPowers n d io bias).length =
      ((if bias then [some (rows.map fun _ => 1)] else []) ++ degreeColumns rows n io 1 d).length := by
    rw [← powers_column hrows, List.length_map]
  obtain ⟨row, rows', rfl⟩ := List.exists_cons_of_ne_nil hne
  obtain ⟨d, rfl⟩ := Nat.exists_eq_add_of_le' hd
  have hrow := hrows row List.mem_cons_self
  have hrounds : ((d + 1 : Nat) - 1 : Int).toNat = d := by omega
  have hchecks := checkRows_ok none hn hrows nofun
  simp only [sourceDensePolynomialMatrix, hchecks, hrow, sourcePolynomialPowers_ok hn hd, bind,
    Except.bind, pure, Except.pure, hrounds, hlen]
  rw [← featureColumns]
  cases bias with
  | false =>
    have hassign := assign_features io hrows d []
    have hfill := fill_degrees io hrows hn d []
    simp only [List.nil_append, List.length_nil] at hassign hfill
    simp only [Bool.false_eq_true, if_false, List.nil_append, hassign, hfill]
    simp
  | true =>
    have hbias := Columns.assign_append [] [some ((row :: rows').map fun _ => (1 : R))]
      (degreeColumns (row :: rows') n io 1 (d + 1)).length
    have hassign := assign_features io hrows d [some ((row :: rows').map fun _ => (1 : R))]
    have hfill := fill_degrees io hrows hn d [some ((row :: rows').map fun _ => (1 : R))]
    simp only [List.nil_append, List.length_nil, List.length_singleton, Nat.zero_add]
      at hbias hassign hfill
    simp only [if_true, List.length_append, List.length_singleton, hbias, hassign, hfill]
    simp

/-- Two features with interactions only, up to a degree at which no interaction is left. -/
theorem sourceDensePolynomialMatrix_interactions : ∃ powers : List (List Nat),
    sourcePolynomialPowers 2 3 true true = .ok powers ∧
    sourceDensePolynomialMatrix [[2, 3], [5, (7 : Nat)]] 3 true true =
      .ok (powers.map fun e => some ([[2, 3], [5, 7]].map (monomial · e))) ∧
    powers.Nodup ∧ ∀ e, e ∈ powers ↔ e.length = 2 ∧ e.sum ≤ 3 ∧ (true = false → 1 ≤ e.sum) ∧
      (true = true → ∀ a ∈ e, a ≤ 1) :=
  sourceDensePolynomialMatrix_ok (by decide) (by decide) true true (by decide) (by decide)

example : sourceDensePolynomialMatrix [[2, (3 : Nat)]] 3 true true =
    .ok [some [1], some [2], some [3], some [6]] := by decide

end Filling

end Cadi
