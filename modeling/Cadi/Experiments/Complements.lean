import Cadi.Experiments.Bootstrap

namespace Cadi.Bootstrap
open Library
set_option autoImplicit true

section Aggregates
variable {us ws : List RatioComponents}

/-- The value of the aggregated components. -/
def ratioOf (components : List RatioComponents) : Except PyError (Option ℚ) :=
  RatioComponents.value <$> aggregateRatio components

/-- What is not useful of the same total. -/
structure Complement (u w : RatioComponents) : Prop where
  numerator : w.numerator = u.denominator - u.numerator
  denominator : w.denominator = u.denominator

/-- The same share in another unit. -/
structure Scaled (k : ℚ) (c d : RatioComponents) : Prop where
  numerator : c.numerator = k * d.numerator
  denominator : c.denominator = k * d.denominator

theorem Complement.le (h : Complement u w) : u.numerator ≤ u.denominator := by
  have hw := w.numerator_nonneg
  rw [h.numerator] at hw
  linarith

theorem sum_numerators_nonneg (us : List RatioComponents) :
    0 ≤ (us.map RatioComponents.numerator).sum := by
  apply List.sum_nonneg
  intro x hx
  obtain ⟨u, _, rfl⟩ := List.mem_map.mp hx
  exact u.numerator_nonneg

theorem sum_denominators_nonneg (us : List RatioComponents) :
    0 ≤ (us.map RatioComponents.denominator).sum := by
  apply List.sum_nonneg
  intro x hx
  obtain ⟨u, _, rfl⟩ := List.mem_map.mp hx
  exact u.denominator_nonneg

theorem ratioOf_eq (us : List RatioComponents) : ratioOf us =
    if 0 < (us.map RatioComponents.denominator).sum →
        (us.map RatioComponents.numerator).sum ≤ (us.map RatioComponents.denominator).sum then
      .ok (if (us.map RatioComponents.denominator).sum = 0 then none else
        some ((us.map RatioComponents.numerator).sum / (us.map RatioComponents.denominator).sum))
    else .error (.valueError "ratio numerator cannot exceed denominator") := by
  unfold ratioOf aggregateRatio RatioComponents.new
  rw [dif_pos (sum_numerators_nonneg us), dif_pos (sum_denominators_nonneg us)]
  split <;> rfl

theorem sum_complement (h : List.Forall₂ Complement us ws) :
    (ws.map RatioComponents.numerator).sum = (us.map RatioComponents.denominator).sum -
        (us.map RatioComponents.numerator).sum ∧
      (ws.map RatioComponents.denominator).sum = (us.map RatioComponents.denominator).sum := by
  induction h with
  | nil => exact ⟨(sub_zero _).symm, rfl⟩
  | cons huw _ ih =>
    simp only [List.map_cons, List.sum_cons, ih, huw.numerator, huw.denominator, and_true]
    ring

theorem sum_scaled {k : ℚ} (h : List.Forall₂ (Scaled k) us ws) :
    (us.map RatioComponents.numerator).sum = k * (ws.map RatioComponents.numerator).sum ∧
      (us.map RatioComponents.denominator).sum = k * (ws.map RatioComponents.denominator).sum := by
  induction h with
  | nil => exact ⟨(mul_zero k).symm, (mul_zero k).symm⟩
  | cons huw _ ih =>
    simp only [List.map_cons, List.sum_cons, ih, huw.numerator, huw.denominator, mul_add, and_self]

theorem ratioOf_complement (h : List.Forall₂ Complement us ws) :
    ∃ v, ratioOf us = .ok v ∧ ratioOf ws = .ok (v.map fun x => 1 - x) := by
  obtain ⟨hn, hd⟩ := sum_complement h
  have hw := sum_numerators_nonneg ws
  have hu := sum_numerators_nonneg us
  rw [hn] at hw
  rw [ratioOf_eq us, if_pos fun _ => sub_nonneg.mp hw, ratioOf_eq ws, hn, hd, if_pos fun _ => by linarith]
  refine ⟨_, rfl, ?_⟩
  split
  · rfl
  · next hzero => rw [Option.map_some, sub_div, div_self hzero]

theorem ratioOf_scaled {k : ℚ} (hk : 0 < k) (h : List.Forall₂ (Scaled k) us ws) :
    ratioOf us = ratioOf ws := by
  obtain ⟨hn, hd⟩ := sum_scaled h
  rw [ratioOf_eq us, ratioOf_eq ws, hn, hd]
  simp only [mul_pos_iff_of_pos_left hk, mul_le_mul_iff_right₀ hk, mul_eq_zero, hk.ne', false_or,
    mul_div_mul_left _ _ hk.ne']

end Aggregates

section Picks
variable {us ws : List RatioComponents} {R : RatioComponents → RatioComponents → Prop}

theorem getElem?_forall₂ (h : List.Forall₂ R us ws) (i : Nat) :
    (us[i]? = none ∧ ws[i]? = none) ∨ ∃ u w, us[i]? = some u ∧ ws[i]? = some w ∧ R u w := by
  induction h generalizing i with
  | nil => exact .inl ⟨rfl, rfl⟩
  | cons huw _ ih =>
    cases i with
    | zero => exact .inr ⟨_, _, rfl, rfl, huw⟩
    | succ i => exact ih i

theorem resample_forall₂ (h : List.Forall₂ R us ws) (indices : List Nat) :
    (∃ e, resample us indices = .error e ∧ resample ws indices = .error e) ∨
      ∃ us' ws', resample us indices = .ok us' ∧ resample ws indices = .ok ws' ∧
        List.Forall₂ R us' ws' := by
  unfold resample
  induction indices with
  | nil => exact .inr ⟨[], [], rfl, rfl, .nil⟩
  | cons i indices ih =>
    rw [List.mapM_cons, List.mapM_cons]
    rcases getElem?_forall₂ h i with ⟨hu, hw⟩ | ⟨u, w, hu, hw, huw⟩
    · rw [hu, hw]
      exact .inl ⟨_, rfl, rfl⟩
    · rw [hu, hw]
      rcases ih with ⟨e, hus, hws⟩ | ⟨us', ws', hus, hws, hR⟩
      · rw [hus, hws]
        exact .inl ⟨e, rfl, rfl⟩
      · rw [hus, hws]
        exact .inr ⟨u :: us', w :: ws', rfl, rfl, .cons huw hR⟩

theorem bootstrapResampleIndices_lt (h : bootstrapResampleIndices sha256 n r = .ok indices) :
    ∀ i ∈ indices, i < n := by
  simp only [bootstrapResampleIndices, Except.bind_eq_ok, raiseIf_eq_ok, exists_const,
    Except.pure_eq_ok] at h
  obtain ⟨hn, _, rfl⟩ := h
  intro i hi
  obtain ⟨draw, _, rfl⟩ := List.mem_map.mp hi
  exact Digest.floor_lt _ (Nat.pos_of_ne_zero hn)

theorem bootstrapResampleIndices_ok (sha256 : String → Digest) (hn : 0 < n)
    (hr : r < c7BootstrapResamples) :
    ∃ indices, bootstrapResampleIndices sha256 n r = .ok indices := by
  simp only [bootstrapResampleIndices, Except.bind_eq_ok, raiseIf_eq_ok, exists_const,
    Except.pure_eq_ok]
  exact ⟨_, hn.ne', not_not.mpr hr, rfl⟩

theorem resample_ok (h : ∀ i ∈ indices, i < us.length) : ∃ us', resample us indices = .ok us' := by
  apply Except.mapM_total
  intro i hi
  rw [List.getElem?_eq_getElem (h i hi)]
  exact ⟨_, rfl⟩

end Picks

section Comparisons
variable {sha256 : String → Digest} {b4 baseline b4' baseline' : List RatioComponents}

def resampleRatio (items : List RatioComponents) (indices : List Nat) : Except PyError (Option ℚ) :=
  resample items indices >>= ratioOf

theorem resampleDifferences_cons (r : Nat) (rest : List Nat) :
    resampleDifferences sha256 b4 baseline (r :: rest) = (do
      let indices ← bootstrapResampleIndices sha256 b4.length r
      let x ← resampleRatio b4 indices
      let y ← resampleRatio baseline indices
      match x, y with
      | some x, some y => return (← resampleDifferences sha256 b4 baseline rest).map ((x - y) :: ·)
      | _, _ => return none) := by
  rw [resampleDifferences]
  refine congrArg _ (funext fun indices => ?_)
  have hmap (c : RatioComponents) :
      RatioComponents.value <$> (.ok c : Except PyError RatioComponents) = .ok c.value := rfl
  unfold resampleRatio ratioOf
  cases resample b4 indices with
  | error e => rfl
  | ok us =>
    simp only [Except.ok_bind]
    cases aggregateRatio us with
    | error e => rfl
    | ok u =>
      cases resample baseline indices with
      | error e => rfl
      | ok vs =>
        simp only [Except.ok_bind, hmap]
        cases aggregateRatio vs with
        | error e => rfl
        | ok v => rfl

theorem pairedRatioComparison_eq (sha256 : String → Digest) (b4 baseline : List RatioComponents) :
    pairedRatioComparison sha256 b4 baseline = (do
      raiseIf (b4.length ≠ baseline.length ∨ b4 = [])
        (.valueError "paired ratio comparison requires equal non-empty Program sequences")
      let x ← ratioOf b4
      let y ← ratioOf baseline
      match x, y with
      | some x, some y =>
        match ← resampleDifferences sha256 b4 baseline (List.range c7BootstrapResamples) with
        | some diffs =>
          return ⟨.comparable, some (x - y), some (← percentile95Interval diffs), false, none⟩
        | none => return ⟨.insufficientMetricDenominator, some (x - y), none, false, none⟩
      | _, _ => return ⟨.insufficientMetricDenominator, none, none, false, none⟩) := by
  unfold pairedRatioComparison ratioOf
  refine congrArg _ (funext fun _ => ?_)
  cases aggregateRatio b4 with
  | error e => rfl
  | ok u =>
    cases aggregateRatio baseline with
    | error e => rfl
    | ok v => rfl

theorem resampleRatio_scaled {k : ℚ} (hk : 0 < k) (h : List.Forall₂ (Scaled k) us ws)
    (indices : List Nat) : resampleRatio us indices = resampleRatio ws indices := by
  unfold resampleRatio
  rcases resample_forall₂ h indices with ⟨e, hus, hws⟩ | ⟨us', ws', hus, hws, hR⟩
  · rw [hus, hws]
  · rw [hus, hws, Except.ok_bind, Except.ok_bind, ratioOf_scaled hk hR]

/-- A comparison does not see the unit of its components. -/
theorem pairedRatioComparison_scaled {k : ℚ} (hk : 0 < k) (h4 : List.Forall₂ (Scaled k) b4 b4')
    (hb : List.Forall₂ (Scaled k) baseline baseline') :
    pairedRatioComparison sha256 b4 baseline = pairedRatioComparison sha256 b4' baseline' := by
  have hempty : b4 = [] ↔ b4' = [] := by
    rw [← List.length_eq_zero_iff, ← List.length_eq_zero_iff, h4.length_eq]
  have hdiffs (rs : List Nat) :
      resampleDifferences sha256 b4 baseline rs = resampleDifferences sha256 b4' baseline' rs := by
    induction rs with
    | nil => rfl
    | cons r rs ih =>
      rw [resampleDifferences_cons, resampleDifferences_cons, ih, h4.length_eq]
      simp only [resampleRatio_scaled hk h4, resampleRatio_scaled hk hb]
  rw [pairedRatioComparison_eq, pairedRatioComparison_eq, ratioOf_scaled hk h4,
    ratioOf_scaled hk hb, hdiffs]
  simp only [h4.length_eq, hb.length_eq, hempty]

theorem resampleRatio_complement (h : List.Forall₂ Complement us ws) (hin : ∀ i ∈ indices, i < us.length) :
    ∃ v, resampleRatio us indices = .ok v ∧ resampleRatio ws indices = .ok (v.map fun x => 1 - x) := by
  obtain ⟨us', hus⟩ := resample_ok hin
  unfold resampleRatio
  rcases resample_forall₂ h indices with ⟨e, he, _⟩ | ⟨us₁, ws', hus₁, hws, hR⟩
  · rw [hus] at he
    cases he
  · rw [hus₁, hws, Except.ok_bind, Except.ok_bind]
    exact ratioOf_complement hR

theorem resampleDifferences_complement (sha256 : String → Digest) (h4 : List.Forall₂ Complement b4 b4')
    (hb : List.Forall₂ Complement baseline baseline') (hlen : b4.length = baseline.length)
    (hne : 0 < b4.length) (rs : List Nat) (hrs : ∀ r ∈ rs, r < c7BootstrapResamples) :
    ∃ diffs, resampleDifferences sha256 b4 baseline rs = .ok diffs ∧
      resampleDifferences sha256 b4' baseline' rs = .ok (diffs.map fun l => l.map (-·)) ∧
      ∀ l, diffs = some l → l.length = rs.length := by
  induction rs with
  | nil => exact ⟨some [], rfl, rfl, fun l hl => Option.some.inj hl ▸ rfl⟩
  | cons r rs ih =>
    obtain ⟨hr, hrs⟩ := List.forall_mem_cons.mp hrs
    obtain ⟨diffs, hdiffs, hdiffs', hcount⟩ := ih hrs
    obtain ⟨indices, hindices⟩ := bootstrapResampleIndices_ok sha256 hne hr
    have hin := bootstrapResampleIndices_lt hindices
    obtain ⟨x, hx, hx'⟩ := resampleRatio_complement h4 hin
    obtain ⟨y, hy, hy'⟩ := resampleRatio_complement hb (hlen ▸ hin)
    rw [resampleDifferences_cons, resampleDifferences_cons, ← h4.length_eq, hindices, hdiffs, hdiffs']
    simp only [Except.ok_bind, hx, hy, hx', hy']
    cases x with
    | none => exact ⟨none, rfl, rfl, fun l hl => by cases hl⟩
    | some x =>
      cases y with
      | none => exact ⟨none, rfl, rfl, fun l hl => by cases hl⟩
      | some y =>
        refine ⟨diffs.map ((x - y) :: ·), rfl, ?_, fun l hl => ?_⟩
        · cases diffs with
          | none => rfl
          | some l =>
            have hneg : 1 - x - (1 - y) = -(x - y) := by ring
            simp only [Option.map_some, List.map_cons, hneg]
            rfl
        · cases diffs with
          | none => cases hl
          | some l' =>
            rw [← Option.some.inj hl, List.length_cons, List.length_cons, hcount l' rfl]

theorem percentileType7_eq (hv : values ≠ []) (h0 : 0 ≤ p) (h1 : p ≤ 1) :
    percentileType7 values p = .ok (percentile (sortedBy id values) p) := by
  have hne : sortedBy id values ≠ [] := by
    intro hnil
    have hperm := perm_sortedBy id values
    rw [hnil] at hperm
    exact hv hperm.nil_eq.symm
  unfold percentileType7 percentile
  simp only [raiseIf, if_neg hne, if_neg (not_not.mpr (And.intro h0 h1)), Except.ok_bind]
  split
  · next hone =>
    simp only [hone, Nat.sub_self, Nat.cast_zero, zero_mul, Nat.floor_zero, Nat.ceil_zero, ↓reduceIte]
    rfl
  · split <;> rfl

theorem percentile95Interval_neg (hv : values ≠ []) : ∃ lo hi, percentile95Interval values = .ok (lo, hi) ∧
    percentile95Interval (values.map (-·)) = .ok (-hi, -lo) := by
  have hneg : values.map (-·) ≠ [] := fun hnil => hv (List.map_eq_nil_iff.mp hnil)
  refine ⟨percentile (sortedBy id values) (25 / 1000), percentile (sortedBy id values) (975 / 1000), ?_, ?_⟩
  · rw [percentile95Interval, percentileType7_eq hv (by norm_num) (by norm_num),
      percentileType7_eq hv (by norm_num) (by norm_num)]
    rfl
  · rw [percentile95Interval, percentileType7_eq hneg (by norm_num) (by norm_num),
      percentileType7_eq hneg (by norm_num) (by norm_num),
      percentile_neg hv (by norm_num) (by norm_num), percentile_neg hv (by norm_num) (by norm_num)]
    norm_num
    rfl

/-- The parts of a comparison that the shortcuts derive. -/
def Comparison.measured (c : Comparison) : ComparisonStatus × Option ℚ × Option (ℚ × ℚ) :=
  (c.status, c.pointDifference, c.ci95)

theorem pairedRatioComparison_complement (sha256 : String → Digest)
    (hlen : b4.length = baseline.length) (hne : b4 ≠ [])
    (h4 : List.Forall₂ Complement b4 b4') (hb : List.Forall₂ Complement baseline baseline') :
    ∃ usr wsr, pairedRatioComparison sha256 b4 baseline = .ok usr ∧
      pairedRatioComparison sha256 b4' baseline' = .ok wsr ∧ wsr.status = usr.status ∧
      wsr.pointDifference = usr.pointDifference.map (-·) ∧
      wsr.ci95 = usr.ci95.map fun ci => (-ci.2, -ci.1) := by
  have hpos : 0 < b4.length := List.length_pos_iff.mpr hne
  have hne' : b4' ≠ [] := List.length_pos_iff.mp (h4.length_eq ▸ hpos)
  have hlen' : b4'.length = baseline'.length := by rw [← h4.length_eq, ← hb.length_eq, hlen]
  obtain ⟨x, hx, hx'⟩ := ratioOf_complement h4
  obtain ⟨y, hy, hy'⟩ := ratioOf_complement hb
  obtain ⟨diffs, hdiffs, hdiffs', hcount⟩ := resampleDifferences_complement sha256 h4 hb hlen hpos
    (List.range c7BootstrapResamples) fun r => List.mem_range.mp
  rw [pairedRatioComparison_eq, pairedRatioComparison_eq, raiseIf,
    if_neg (not_or.mpr ⟨not_not.mpr hlen, hne⟩), raiseIf,
      if_neg (not_or.mpr ⟨not_not.mpr hlen', hne'⟩), hx, hy,
    hx', hy', hdiffs, hdiffs']
  cases x with
  | none => exact ⟨_, _, rfl, rfl, rfl, rfl, rfl⟩
  | some x =>
    cases y with
    | none => exact ⟨_, _, rfl, rfl, rfl, rfl, rfl⟩
    | some y =>
      have hneg : 1 - x - (1 - y) = -(x - y) := by ring
      cases diffs with
      | none =>
        refine ⟨_, _, rfl, rfl, rfl, ?_, rfl⟩
        simp only [hneg, Option.map_some]
      | some l =>
        have hl : l ≠ [] := by
          apply List.length_pos_iff.mp
          rw [hcount l rfl, List.length_range]
          decide
        obtain ⟨lo, hi, hci, hci'⟩ := percentile95Interval_neg hl
        simp only [Except.ok_bind, Option.map_some, hci, hci', hneg]
        exact ⟨_, _, rfl, rfl, rfl, rfl, rfl⟩

/-- The comparisons that are derived, not computed: the waste from the useful residency, and the
cold continuations from the recomputed tokens. -/
theorem exactShortcuts (sha256 : String → Digest) :
    (∀ usefulB4 usefulBase wastedB4 wastedBase : List RatioComponents,
      usefulB4.length = usefulBase.length → usefulB4 ≠ [] →
      List.Forall₂ Complement usefulB4 wastedB4 → List.Forall₂ Complement usefulBase wastedBase →
      ∃ usr wsr, pairedRatioComparison sha256 usefulB4 usefulBase = .ok usr ∧
        pairedRatioComparison sha256 wastedB4 wastedBase = .ok wsr ∧
        (wsrFromUsrComparison usr).measured = wsr.measured ∧
        (wsrFromUsrComparison usr).favorable = (applyFavorableDirection "WSR" wsr).favorable ∧
        (wsrFromUsrComparison usr).favorable = (applyFavorableDirection "USR" usr).favorable) ∧
    ∀ rrB4 rrBase ccrB4 ccrBase : List RatioComponents,
      List.Forall₂ (Scaled 1024) rrB4 ccrB4 → List.Forall₂ (Scaled 1024) rrBase ccrBase →
      (do return (ccrFromRrComparison (← pairedRatioComparison sha256 rrB4 rrBase)).measured) =
        (do return (← pairedRatioComparison sha256 ccrB4 ccrBase).measured) := by
  constructor
  · intro usefulB4 usefulBase wastedB4 wastedBase hlen hne h4 hb
    obtain ⟨usr, wsr, husr, hwsr, hstatus, hpoint, hci⟩ :=
      pairedRatioComparison_complement sha256 hlen hne h4 hb
    refine ⟨usr, wsr, husr, hwsr, ?_, ?_, ?_⟩
    · rw [Comparison.measured, Comparison.measured, hstatus, hpoint, hci]
      rfl
    · unfold wsrFromUsrComparison applyFavorableDirection
      rw [hstatus, hci]
      cases usr.status with
      | comparable =>
        cases usr.ci95 with
        | none => rfl
        | some ci => simp
      | insufficientMetricDenominator =>
        cases usr.ci95 with
        | none => rfl
        | some ci => simp
    · unfold wsrFromUsrComparison applyFavorableDirection
      cases usr.status with
      | comparable =>
        cases usr.ci95 with
        | none => rfl
        | some ci => simp
      | insufficientMetricDenominator =>
        cases usr.ci95 with
        | none => rfl
        | some ci => simp
  · intro rrB4 rrBase ccrB4 ccrBase h4 hb
    rw [pairedRatioComparison_scaled (by norm_num) h4 hb]
    rfl

/-- A share of whole numbers. -/
def share (n d : Nat) (h : n ≤ d) : RatioComponents where
  numerator := n
  denominator := d
  numerator_nonneg := Nat.cast_nonneg n
  denominator_nonneg := Nat.cast_nonneg d
  bounded _ := Nat.cast_le.mpr h

/-- A digest that tells texts apart by the sum of their characters. -/
def sumDigest (s : String) : Digest :=
  ⟨List.replicate 32 (UInt8.ofNat (s.toList.map Char.toNat).sum), List.length_replicate⟩

/-- Three Programs, one of them without any residency and one without recomputed tokens. -/
theorem exactShortcuts_shares :
    (∃ usr wsr,
      pairedRatioComparison sumDigest [share 3 4 (by decide), share 1 8 (by decide), share 0 0 (by decide)]
        [share 1 4 (by decide), share 5 8 (by decide), share 2 2 (by decide)] = .ok usr ∧
      pairedRatioComparison sumDigest [share 1 4 (by decide), share 7 8 (by decide), share 0 0 (by decide)]
        [share 3 4 (by decide), share 3 8 (by decide), share 0 2 (by decide)] = .ok wsr ∧
      (wsrFromUsrComparison usr).measured = wsr.measured) ∧
    (do return (ccrFromRrComparison (← pairedRatioComparison sumDigest
        [share 1024 2048 (by decide), share 0 3072 (by decide), share 0 0 (by decide)]
        [share 2048 2048 (by decide), share 0 0 (by decide), share 1024 4096 (by decide)])).measured) =
      (do return (← pairedRatioComparison sumDigest
        [share 1 2 (by decide), share 0 3 (by decide), share 0 0 (by decide)]
        [share 2 2 (by decide), share 0 0 (by decide), share 1 4 (by decide)]).measured) := by
  have hrest {n k d : Nat} (hn : n ≤ d) (hk : k ≤ d) (h : n + k = d) :
      Complement (share n d hn) (share k d hk) := by
    subst h
    exact ⟨by simp only [share, Nat.cast_add, add_sub_cancel_left], rfl⟩
  have hunit {n d n' d' : Nat} (h : n ≤ d) (h' : n' ≤ d') (hn : n = 1024 * n') (hd : d = 1024 * d') :
      Scaled 1024 (share n d h) (share n' d' h') := by
    subst hn hd
    exact ⟨Nat.cast_mul 1024 n', Nat.cast_mul 1024 d'⟩
  obtain ⟨hwsr, hccr⟩ := exactShortcuts sumDigest
  constructor
  · obtain ⟨usr, wsr, husr, hw, hmeasured, _⟩ := hwsr
      [share 3 4 (by decide), share 1 8 (by decide), share 0 0 (by decide)]
      [share 1 4 (by decide), share 5 8 (by decide), share 2 2 (by decide)]
      [share 1 4 (by decide), share 7 8 (by decide), share 0 0 (by decide)]
      [share 3 4 (by decide), share 3 8 (by decide), share 0 2 (by decide)] rfl (List.cons_ne_nil _ _)
      (.cons (hrest _ _ rfl) (.cons (hrest _ _ rfl) (.cons (hrest _ _ rfl) .nil)))
      (.cons (hrest _ _ rfl) (.cons (hrest _ _ rfl) (.cons (hrest _ _ rfl) .nil)))
    exact ⟨usr, wsr, husr, hw, hmeasured⟩
  · exact hccr _ _ _ _
      (.cons (hunit _ _ rfl rfl) (.cons (hunit _ _ rfl rfl) (.cons (hunit _ _ rfl rfl) .nil)))
      (.cons (hunit _ _ rfl rfl) (.cons (hunit _ _ rfl rfl) (.cons (hunit _ _ rfl rfl) .nil)))

end Comparisons

end Cadi.Bootstrap
