import Cadi.Costs.Polynomial
import Mathlib.Algebra.BigOperators.Group.Finset.Piecewise
import Mathlib.Algebra.BigOperators.Group.List.Lemmas
import Mathlib.Algebra.Order.BigOperators.Group.List
import Mathlib.Algebra.Ring.Defs
import Mathlib.Data.List.GetD

namespace Cadi
open Library
set_option autoImplicit true

section Exponents
variable {n : Nat} {c : List Nat}

/-- The exponents count how often each feature is chosen. -/
theorem exponents_eq (n : Nat) (c : List Nat) :
    exponents n c = (List.range n).map fun i => c.count i := by
  have hfold (e : List Nat) : c.foldl (fun exponents index => exponents.modify index (· + 1)) e =
      e.mapIdx fun i v => v + c.count i := by
    induction c generalizing e with
    | nil =>
      apply List.ext_getElem?
      intro i
      rw [List.getElem?_mapIdx, List.foldl_nil]
      cases e[i]? with
      | none => rfl
      | some v => rfl
    | cons a c ih =>
      rw [List.foldl_cons, ih]
      apply List.ext_getElem?
      intro i
      rw [List.getElem?_mapIdx, List.getElem?_mapIdx, List.getElem?_modify, List.count_cons]
      cases e[i]? with
      | none => rfl
      | some v =>
        by_cases h : a = i
        · simp [h, Nat.add_assoc, Nat.add_comm 1]
        · simp [h]
  rw [exponents, hfold]
  apply List.ext_getElem
  · simp
  · intro i hi hi'
    simp

@[simp] theorem length_exponents : (exponents n c).length = n := by
  rw [exponents_eq, List.length_map, List.length_range]

theorem sum_exponents (h : c ⊆ List.range n) : (exponents n c).sum = c.length := by
  have hcard := Multiset.sum_count_eq_card (s := Finset.range n) (m := (c : Multiset Nat))
    fun a ha => Finset.mem_range.mpr (List.mem_range.mp (h (Multiset.mem_coe.mp ha)))
  simp only [Multiset.coe_count, Multiset.coe_card] at hcard
  rw [exponents_eq, ← hcard]
  rfl

theorem exponents_injective (hc : c ⊆ List.range n) (hc' : c' ⊆ List.range n)
    (hs : c.Pairwise (· ≤ ·)) (hs' : c'.Pairwise (· ≤ ·))
    (h : exponents n c = exponents n c') : c = c' := by
  apply List.Perm.eq_of_pairwise (fun a b _ _ hab hba => le_antisymm hab hba) hs hs'
  rw [List.perm_iff_count]
  intro i
  rw [exponents_eq, exponents_eq] at h
  by_cases hi : i < n
  · exact List.map_inj_left.mp h i (List.mem_range.mpr hi)
  · rw [List.count_eq_zero_of_not_mem fun hm => hi (List.mem_range.mp (hc hm)),
      List.count_eq_zero_of_not_mem fun hm => hi (List.mem_range.mp (hc' hm))]

/-- The choice in order that has the given exponents. -/
def spread (e : List Nat) : List Nat :=
  (List.range e.length).flatMap fun i => List.replicate (e.getD i 0) i

theorem spread_subset (e : List Nat) : spread e ⊆ List.range e.length := by
  intro a ha
  obtain ⟨i, hi, ha⟩ := List.mem_flatMap.mp ha
  rw [List.eq_of_mem_replicate ha]
  exact hi

theorem pairwise_spread (e : List Nat) : (spread e).Pairwise (· ≤ ·) := by
  rw [spread, List.pairwise_flatMap]
  refine ⟨fun i _ => List.pairwise_replicate.mpr (.inr (le_refl i)), ?_⟩
  refine List.pairwise_lt_range.imp fun {i j} hij a ha b hb => ?_
  rw [List.eq_of_mem_replicate ha, List.eq_of_mem_replicate hb]
  exact le_of_lt hij

theorem exponents_spread (e : List Nat) : exponents e.length (spread e) = e := by
  rw [exponents_eq]
  apply List.ext_getElem
  · rw [List.length_map, List.length_range]
  · intro i hi hi'
    have hcount : (spread e).count i =
        ((List.range e.length).map fun j => if j = i then e.getD j 0 else 0).sum := by
      rw [spread, List.count_flatMap]
      refine congrArg List.sum (List.map_congr_left fun j _ => ?_)
      rw [Function.comp, List.count_replicate]
      simp
    have hsum : ((List.range e.length).map fun j => if j = i then e.getD j 0 else 0).sum =
        ∑ j ∈ Finset.range e.length, if j = i then e.getD j 0 else 0 := rfl
    rw [List.getElem_map, List.getElem_range, hcount, hsum, Finset.sum_ite_eq' ,
      if_pos (Finset.mem_range.mpr hi'), List.getD_eq_getElem e 0 hi']

/-- The product of the features raised to the exponents. -/
def monomial {R : Type} [CommSemiring R] (x : List R) (e : List Nat) : R :=
  (List.zipWith (· ^ ·) x e).prod

theorem monomial_exponents {R : Type} [CommSemiring R] {x : List R} (hc : c ⊆ List.range x.length) :
    monomial x (exponents x.length c) = (c.map fun i => x.getD i 0).prod := by
  have hzip : List.zipWith (· ^ ·) x (exponents x.length c) =
      (List.range x.length).map fun i => x.getD i 0 ^ c.count i := by
    rw [exponents_eq]
    apply List.ext_getElem
    · simp
    · intro i hi hi'
      have hx : i < x.length := by simpa using hi'
      simp [List.getElem?_eq_getElem hx]
  have hprod : ((List.range x.length).map fun i => x.getD i 0 ^ c.count i).prod =
      ∏ i ∈ Finset.range x.length, x.getD i 0 ^ c.count i := rfl
  rw [monomial, hzip, hprod, Finset.prod_list_map_count]
  refine (Finset.prod_subset (fun i hi => ?_) fun i _ hi => ?_).symm
  · exact Finset.mem_range.mpr (List.mem_range.mp (hc (List.mem_toFinset.mp hi)))
  · rw [List.count_eq_zero_of_not_mem fun hm => hi (List.mem_toFinset.mpr hm), pow_zero]

end Exponents

section Powers
variable {n d : Nat} {io bias : Bool} {e : List Nat}

/-- The choices from the features from the given one on. -/
def choicesFrom (n : Nat) (io : Bool) (k f : Nat) : List (List Nat) :=
  choices (!io) k (List.range' f (n - f))

theorem mem_choicesFrom {k f : Nat} {c : List Nat} : c ∈ choicesFrom n io k f ↔
    c.length = k ∧ c ⊆ List.range' f (n - f) ∧ c.Pairwise (Follows (!io)) :=
  mem_choices List.pairwise_lt_range'

theorem choicesFrom_range (n : Nat) (io : Bool) (k : Nat) :
    choices (!io) k (List.range n) = choicesFrom n io k 0 := by
  rw [choicesFrom, Nat.sub_zero, List.range_eq_range']

theorem choicesFrom_sorted {k f : Nat} {c : List Nat} (h : c ∈ choicesFrom n io k f) :
    c.Pairwise (· ≤ ·) := (mem_choicesFrom.mp h).2.2.imp Follows.le

theorem choicesFrom_subset {k : Nat} {c : List Nat} (h : c ∈ choicesFrom n io k 0) :
    c ⊆ List.range n := by
  have hsub := (mem_choicesFrom.mp h).2.1
  rwa [Nat.sub_zero, ← List.range_eq_range'] at hsub

theorem mem_degree {k : Nat} : e ∈ (choicesFrom n io k 0).map (exponents n) ↔
    e.length = n ∧ e.sum = k ∧ (io = true → ∀ a ∈ e, a ≤ 1) := by
  rw [List.mem_map]
  constructor
  · rintro ⟨c, hc, rfl⟩
    obtain ⟨hlen, -, hpair⟩ := mem_choicesFrom.mp hc
    refine ⟨length_exponents, (sum_exponents (choicesFrom_subset hc)).trans hlen, ?_⟩
    rintro rfl a ha
    rw [exponents_eq] at ha
    obtain ⟨i, -, rfl⟩ := List.mem_map.mp ha
    exact List.nodup_iff_count_le_one.mp (hpair.imp (ne_of_lt (α := Nat))) i
  · rintro ⟨rfl, rfl, hone⟩
    have hsub := spread_subset e
    have hlen : (spread e).length = e.sum := by rw [← sum_exponents hsub, exponents_spread]
    refine ⟨spread e, mem_choicesFrom.mpr ⟨hlen, ?_, ?_⟩, exponents_spread e⟩
    · rwa [Nat.sub_zero, ← List.range_eq_range']
    · cases io with
      | false => exact pairwise_spread e
      | true =>
        have hnodup : (spread e).Nodup := by
          rw [List.nodup_iff_count_le_one]
          intro i
          by_cases hi : i < e.length
          · have hcount : (exponents e.length (spread e))[i]? = some ((spread e).count i) := by
              rw [exponents_eq]
              simp [hi]
            rw [exponents_spread] at hcount
            exact hone rfl _ (List.mem_of_getElem? hcount)
          · rw [List.count_eq_zero_of_not_mem fun hm => hi (List.mem_range.mp (hsub hm))]
            exact Nat.zero_le 1
        exact (pairwise_spread e).imp₂ (fun a b hle hne => lt_of_le_of_ne hle hne) hnodup

theorem polynomialPowers_eq (n d : Nat) (io bias : Bool) : polynomialPowers n d io bias =
    (if bias then [List.replicate n 0] else []) ++
      (List.range' 1 d).flatMap fun k => (choicesFrom n io k 0).map (exponents n) := by
  rw [polynomialPowers]
  simp only [choicesFrom_range]

theorem mem_polynomialPowers : e ∈ polynomialPowers n d io bias ↔
    e.length = n ∧ e.sum ≤ d ∧ (bias = false → 1 ≤ e.sum) ∧ (io = true → ∀ a ∈ e, a ≤ 1) := by
  have hzero : e = List.replicate n 0 ↔ e.length = n ∧ e.sum = 0 := by
    rw [List.eq_replicate_iff, List.sum_eq_zero_iff_forall_eq_nat]
  have hdegrees : (e ∈ (List.range' 1 d).flatMap fun k => (choicesFrom n io k 0).map (exponents n)) ↔
      e.length = n ∧ (1 ≤ e.sum ∧ e.sum ≤ d) ∧ (io = true → ∀ a ∈ e, a ≤ 1) := by
    rw [List.mem_flatMap]
    constructor
    · rintro ⟨k, hk, he⟩
      obtain ⟨hlen, rfl, hone⟩ := mem_degree.mp he
      rw [List.mem_range'_1] at hk
      exact ⟨hlen, ⟨hk.1, by omega⟩, hone⟩
    · rintro ⟨hlen, hsum, hone⟩
      exact ⟨e.sum, List.mem_range'_1.mpr (by omega), mem_degree.mpr ⟨hlen, rfl, hone⟩⟩
  rw [polynomialPowers_eq, List.mem_append, hdegrees]
  cases bias with
  | false =>
    rw [if_neg Bool.false_ne_true]
    simp
    tauto
  | true =>
    rw [if_pos rfl, List.mem_singleton, hzero]
    constructor
    · rintro (⟨hlen, hsum⟩ | ⟨hlen, hsum, hone⟩)
      · refine ⟨hlen, by omega, nofun, fun _ a ha => ?_⟩
        rw [List.sum_eq_zero_iff_forall_eq_nat.mp hsum a ha]
        exact Nat.zero_le 1
      · exact ⟨hlen, hsum.2, nofun, hone⟩
    · rintro ⟨hlen, hsum, -, hone⟩
      by_cases hpos : e.sum = 0
      · exact .inl ⟨hlen, hpos⟩
      · exact .inr ⟨hlen, ⟨by omega, hsum⟩, hone⟩

theorem nodup_degree (k : Nat) : ((choicesFrom n io k 0).map (exponents n)).Nodup := by
  refine List.Nodup.map_on (fun c hc c' hc' h => ?_) (nodup_choices List.pairwise_lt_range' k)
  exact exponents_injective (choicesFrom_subset hc) (choicesFrom_subset hc') (choicesFrom_sorted hc)
    (choicesFrom_sorted hc') h

theorem nodup_polynomialPowers : (polynomialPowers n d io bias).Nodup := by
  rw [polynomialPowers_eq]
  apply List.Nodup.append
  · cases bias with
    | false => exact List.nodup_nil
    | true => exact List.nodup_singleton _
  · have hdegrees : (List.range' 1 d).Nodup := List.nodup_range'
    refine List.nodup_flatMap.mpr ⟨fun k _ => nodup_degree k, hdegrees.imp ?_⟩
    -- rows of different degrees have different sums
    intro k k' hk e he he'
    exact hk ((mem_degree.mp he).2.1.symm.trans (mem_degree.mp he').2.1)
  · intro e he he'
    cases bias with
    | false => exact List.not_mem_nil he
    | true =>
      obtain ⟨k, hk, hmem⟩ := List.mem_flatMap.mp he'
      rw [if_pos rfl, List.mem_singleton] at he
      have hsum := (mem_degree.mp hmem).2.1
      rw [he, List.sum_replicate, Nat.nsmul_eq_mul, Nat.mul_zero] at hsum
      rw [← hsum, List.mem_range'_1] at hk
      omega

end Powers

end Cadi
