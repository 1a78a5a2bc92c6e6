import Cadi.Retention.Heads
import Cadi.Retention.Instants
import Mathlib.Logic.Relation

namespace Cadi.Retention
open Library
set_option autoImplicit true

section Candidates
variable {c : RetentionProgramCase} {m : C73RetentionManifest} {run : RetentionRun} {h : Head}

theorem withinProgram_eq_some :
    withinProgram c v = some t ↔ v = some (.finite t) ∧ t ≤ c.programEndSeconds := by
  cases v with
  | none => simp only [withinProgram, reduceCtorEq, false_and]
  | some x =>
    cases x with
    | infinite => simp only [withinProgram, reduceCtorEq, Option.some.injEq, false_and]
    | finite s =>
      simp only [withinProgram, Option.ite_none_right_eq_some, Option.some.injEq,
        Extent.finite.injEq]
      exact ⟨fun ⟨hle, he⟩ => ⟨he, he ▸ hle⟩, fun ⟨he, hle⟩ => ⟨he ▸ hle, he⟩⟩

theorem nextExpiry_source (hn : nextExpiry m run after = some x) :
    m.retentionPolicyId = .fixedTtl ∧ after.lt x.toNumber = true ∧
      ∃ k r, run.resident.get? k = some r ∧ r.expirySeconds = some x := by
  unfold nextExpiry at hn
  split at hn
  · next hp =>
    obtain ⟨hmem, hlt⟩ := List.mem_filter.mp (List.argmin_mem hn)
    obtain ⟨r, hr, hx⟩ := List.mem_filterMap.mp hmem
    obtain ⟨k, hk⟩ := Dict.mem_values_iff.mp hr
    exact ⟨hp, hlt, k, r, hk, hx⟩
  · cases hn

/-- No resident State expires after the given time and before the next expiry. -/
theorem nextExpiry_le (hp : m.retentionPolicyId = .fixedTtl) (hr : run.resident.get? k = some r)
    (hx : r.expirySeconds = some x) (hlt : after.lt x.toNumber = true) :
    ∃ y, nextExpiry m run after = some y ∧ y ≤ x := by
  have hmem : x ∈ (run.resident.values.filterMap (·.expirySeconds)).filter
      fun expiry => after.lt expiry.toNumber :=
    List.mem_filter.mpr ⟨List.mem_filterMap.mpr ⟨r, Dict.mem_values_iff.mpr ⟨k, hr⟩, hx⟩, hlt⟩
  unfold nextExpiry
  rw [if_pos hp]
  cases hmin : List.argmin Extent.magnitude ((run.resident.values.filterMap (·.expirySeconds)).filter
      fun expiry => after.lt expiry.toNumber) with
  | none =>
    rw [List.argmin_eq_none] at hmin
    rw [hmin] at hmem
    cases hmem
  | some y => exact ⟨y, rfl, List.le_of_mem_argmin hmem hmin⟩

theorem nextExternal_eq_some :
    nextExternal c h = some t ↔ ∃ i, h.external.head? = some i ∧ i.1 = t ∧
      t ≤ c.programEndSeconds := by
  unfold nextExternal
  rw [withinProgram_eq_some]
  simp only [Option.map_eq_some_iff, Extent.finite.injEq]
  exact ⟨fun ⟨⟨i, hi, he⟩, hle⟩ => ⟨i, hi, he, hle⟩, fun ⟨i, hi, he, hle⟩ => ⟨⟨i, hi, he⟩, hle⟩⟩

/-- The next time is that of an external instant or of an expiry, and neither comes before it. -/
theorem nextTime_spec (hend : ∀ i ∈ h.external, i.1 ≤ c.programEndSeconds)
    (hn : nextTime c m h = some now) :
    now ≤ c.programEndSeconds ∧ (∀ i, h.external.head? = some i → now ≤ i.1) ∧
      (∀ y, nextExpiry m h.run h.lastTime = some y → .finite now ≤ y) ∧
      ((∃ i, h.external.head? = some i ∧ i.1 = now) ∨
        nextExpiry m h.run h.lastTime = some (.finite now)) := by
  have hexternal (i : Instant) (hi : h.external.head? = some i) : nextExternal c h = some i.1 :=
    nextExternal_eq_some.mpr ⟨i, hi, rfl, hend i (List.mem_of_head? hi)⟩
  -- an expiry that is no candidate lies after the end of the program
  have hlate (y : Extent) (hy : nextExpiry m h.run h.lastTime = some y)
      (hw : withinProgram c (nextExpiry m h.run h.lastTime) = none) (t : Time)
      (ht : t ≤ c.programEndSeconds) : .finite t ≤ y := by
    rw [hy] at hw
    cases y with
    | infinite => exact Extent.le_infinite _
    | finite s =>
      by_contra hlt
      rw [Extent.finite_le, Time.not_le] at hlt
      rw [withinProgram_eq_some.mpr ⟨rfl, hlt.le.trans ht⟩] at hw
      cases hw
  unfold nextTime at hn
  split at hn
  · cases hn
  · next a ha hw =>
    obtain rfl := Option.some.inj hn
    obtain ⟨i, hi, rfl, hle⟩ := nextExternal_eq_some.mp ha
    refine ⟨hle, fun j hj => ?_, fun y hy => hlate y hy hw _ hle, .inl ⟨i, hi, rfl⟩⟩
    rw [hi, Option.some.injEq] at hj
    exact hj ▸ le_rfl
  · next b ha hw =>
    obtain rfl := Option.some.inj hn
    obtain ⟨hy, hle⟩ := withinProgram_eq_some.mp hw
    refine ⟨hle, fun j hj => ?_, fun y hy' => ?_, .inr hy⟩
    · rw [hexternal j hj] at ha
      cases ha
    · rw [hy, Option.some.injEq] at hy'
      exact hy' ▸ le_rfl
  · next a b ha hw =>
    obtain ⟨i, hi, rfl, hle⟩ := nextExternal_eq_some.mp ha
    obtain ⟨hy, hle'⟩ := withinProgram_eq_some.mp hw
    have hhead (j : Instant) (hj : h.external.head? = some j) : j = i := by
      rw [hi, Option.some.injEq] at hj
      exact hj.symm
    have hnext (y : Extent) (hy' : nextExpiry m h.run h.lastTime = some y) : y = .finite b := by
      rw [hy, Option.some.injEq] at hy'
      exact hy'.symm
    split at hn
    · next hlt =>
      obtain rfl := Option.some.inj hn
      exact ⟨hle', fun j hj => hhead j hj ▸ hlt.le, fun y hy' => hnext y hy' ▸ le_rfl, .inr hy⟩
    · next hge =>
      obtain rfl := Option.some.inj hn
      refine ⟨hle, fun j hj => hhead j hj ▸ le_rfl, fun y hy' => ?_, .inl ⟨i, hi, rfl⟩⟩
      exact hnext y hy' ▸ Extent.finite_le.mpr (Time.not_lt.mp hge)

end Candidates

section Heads
variable {c : RetentionProgramCase} {m : C73RetentionManifest} {h : Head}

/-- External instants of the case at increasing times. -/
structure Remaining (c : RetentionProgramCase) (l : List Instant) : Prop where
  atInstant : ∀ i ∈ l, AtInstant c i.1 i.2
  events : ∀ i ∈ l, ∀ e ∈ i.2, e ∈ c.events
  within : ∀ i ∈ l, i.1 ≤ c.programEndSeconds
  increasing : l.Pairwise fun i j => i.1 < j.1

theorem Remaining.tail (h : Remaining c (i :: l)) : Remaining c l :=
  ⟨fun j hj => h.atInstant j (List.mem_cons_of_mem _ hj),
    fun j hj => h.events j (List.mem_cons_of_mem _ hj),
    fun j hj => h.within j (List.mem_cons_of_mem _ hj), (List.pairwise_cons.mp h.increasing).2⟩

theorem Remaining.instants (ha : Accepted c) : Remaining c (instants c.events) := by
  have hgroups := instants_groups c.events
  have hmem (i : Instant) (hi : i ∈ Retention.instants c.events) (e : RetentionEvent)
      (he : e ∈ i.2) : e ∈ c.events :=
    hgroups.perm.mem_iff.mp (List.mem_flatMap.mpr ⟨i, hi, he⟩)
  refine ⟨fun i hi e he => ⟨ha.events e (hmem i hi e he), (hgroups.timed i hi).2 e he⟩, hmem,
    fun i hi => ?_, instants_increase c.events⟩
  obtain ⟨hne, htimed⟩ := hgroups.timed i hi
  obtain ⟨e, he⟩ := List.exists_mem_of_ne_nil _ hne
  have hle := Time.le_iff.mp (ha.events e (hmem i hi e he)).ends
  rw [htimed e he] at hle
  exact Time.le_iff.mpr hle

/-- The head after a pass at the time. -/
structure After (c : RetentionProgramCase) (m : C73RetentionManifest) (t : Time) (h : Head) :
    Prop where
  lastTime : h.lastTime = t.toNumber
  sound : Cache.Sound c t h.run.cache
  fresh : h.run.cache.Fresh m t
  within : t ≤ c.programEndSeconds
  earlier : ∀ i ∈ h.external, t < i.1

/-- Before the first pass nothing is resident. -/
structure Before (c : RetentionProgramCase) (h : Head) : Prop where
  sound : ∀ t, Cache.Sound c t h.run.cache
  empty : h.run.resident = ∅

structure HeadSound (c : RetentionProgramCase) (m : C73RetentionManifest) (h : Head) : Prop where
  remaining : Remaining c h.external
  fits : Cache.Fits m h.run.cache
  last : Before c h ∨ ∃ t, After c m t h

/-- What the next pass starts from. -/
structure Passing (c : RetentionProgramCase) (m : C73RetentionManifest) (h : Head) (now : Time)
    (events : List RetentionEvent) (rest : List Instant) : Prop where
  sound : Cache.Sound c now h.run.cache
  due : h.run.cache.Due m now
  within : now ≤ c.programEndSeconds
  atInstant : AtInstant c now events
  declared : ∀ e ∈ events, e ∈ c.events
  remaining : Remaining c rest
  later : ∀ i ∈ rest, now < i.1
  advances : (∃ i, h.external = i :: rest ∧ i.2 = events) ∨
    rest = h.external ∧ events = [] ∧
      ∃ k r, h.run.resident.get? k = some r ∧ r.expirySeconds = some (.finite now)

theorem After.lt_next (hs : HeadSound c m h) (ha : After c m t h) (hn : nextTime c m h = some now) :
    t < now := by
  obtain ⟨_, _, _, hsource⟩ := nextTime_spec hs.remaining.within hn
  rcases hsource with ⟨i, hi, rfl⟩ | hy
  · exact ha.earlier i (List.mem_of_head? hi)
  · obtain ⟨_, hlt, _⟩ := nextExpiry_source hy
    rw [ha.lastTime, Extent.toNumber_lt] at hlt
    exact Extent.finite_lt.mp hlt

theorem HeadSound.next (hs : HeadSound c m h) (hn : nextTime c m h = some now) :
    Cache.Sound c now h.run.cache ∧ h.run.cache.Due m now := by
  obtain ⟨_, hexternal, hexpiry, _⟩ := nextTime_spec hs.remaining.within hn
  rcases hs.last with hbefore | ⟨t, hafter⟩
  · refine ⟨hbefore.sound now, fun k r x hr => ?_⟩
    have hr' : h.run.resident.get? k = some r := hr
    rw [hbefore.empty, Dict.get?_empty] at hr'
    cases hr'
  · have hlt := hafter.lt_next hs hn
    refine ⟨hafter.sound.later hlt.le, fun k r x hr hx => ?_⟩
    obtain ⟨hp, hfresh⟩ := hafter.fresh k r x hr hx
    refine ⟨hp, (hafter.sound.resident k r hr).2.2.trans_lt hlt, hfresh.imp_right fun hgt => ?_⟩
    have hgt' : h.lastTime.lt x.toNumber = true := by
      rw [hafter.lastTime, Extent.toNumber_lt]
      exact hgt
    obtain ⟨y, hy, hle⟩ := nextExpiry_le hp hr hx hgt'
    exact (hexpiry y hy).trans hle

theorem nextInstant_time (hn : nextInstant c m h = some ((now, events), rest)) :
    nextTime c m h = some now := by
  unfold nextInstant at hn
  split at hn
  · cases hn
  · next t ht =>
    rw [ht]
    split at hn
    · cases hn
      rfl
    · split at hn <;> cases hn <;> rfl

theorem HeadSound.passing (hs : HeadSound c m h)
    (hn : nextInstant c m h = some ((now, events), rest)) : Passing c m h now events rest := by
  unfold nextInstant at hn
  split at hn
  · cases hn
  · next t ht =>
    obtain ⟨hsound, hdue⟩ := hs.next ht
    obtain ⟨hwithin, hexternal, _, hsource⟩ := nextTime_spec hs.remaining.within ht
    have hexpires (hno : ∀ i, h.external.head? = some i → i.1.units ≠ t.units) :
        ∃ k r, h.run.resident.get? k = some r ∧ r.expirySeconds = some (.finite t) := by
      rcases hsource with ⟨i, hi, he⟩ | hy
      · exact absurd (congrArg Time.units he) (hno i hi)
      · exact (nextExpiry_source hy).2.2
    have hnone : AtInstant c t [] := fun _ he => (List.not_mem_nil he).elim
    split at hn
    · next hnil =>
      simp only [Option.some.injEq, Prod.mk.injEq] at hn
      obtain ⟨⟨rfl, rfl⟩, rfl⟩ := hn
      have hrest : ([] : List Instant) = h.external := hnil.symm
      refine ⟨hsound, hdue, hwithin, hnone, fun _ he => (List.not_mem_nil he).elim,
        hrest ▸ hs.remaining, fun _ hi => (List.not_mem_nil hi).elim,
        .inr ⟨hrest, rfl, hexpires ?_⟩⟩
      intro i hi
      rw [hnil] at hi
      cases hi
    · next i l hcons =>
      have hremaining := hs.remaining
      rw [hcons] at hremaining
      have hhead : t ≤ i.1 := hexternal i (by rw [hcons]; rfl)
      have htail (j : Instant) (hj : j ∈ l) : i.1 < j.1 :=
        (List.pairwise_cons.mp hremaining.increasing).1 j hj
      split at hn
      · next hunits =>
        simp only [Option.some.injEq, Prod.mk.injEq] at hn
        obtain ⟨⟨rfl, rfl⟩, rfl⟩ := hn
        refine ⟨hsound, hdue, hwithin, fun e he => ?_, hremaining.events i List.mem_cons_self,
          hremaining.tail, fun j hj => hhead.trans_lt (htail j hj), .inl ⟨i, hcons, rfl⟩⟩
        obtain ⟨hdeclared, htime⟩ := hremaining.atInstant i List.mem_cons_self e he
        exact ⟨hdeclared, htime.trans hunits⟩
      · next hunits =>
        simp only [Option.some.injEq, Prod.mk.injEq] at hn
        obtain ⟨⟨rfl, rfl⟩, rfl⟩ := hn
        have hlt : t < i.1 := Time.lt_iff.mpr (Nat.lt_of_le_of_ne hhead (Ne.symm hunits))
        refine ⟨hsound, hdue, hwithin, hnone, fun _ he => (List.not_mem_nil he).elim,
          hs.remaining, fun j hj => ?_, .inr ⟨rfl, rfl, hexpires fun j hj => ?_⟩⟩
        · rw [hcons] at hj
          rcases List.mem_cons.mp hj with rfl | hj
          · exact hlt
          · exact hlt.trans (htail j hj)
        · rw [hcons, List.head?_cons, Option.some.injEq] at hj
          exact hj ▸ hunits

theorem HeadSound.finished (hs : HeadSound c m h) (hn : nextInstant c m h = none) :
    h.external = [] := by
  unfold nextInstant at hn
  split at hn
  · next hnone =>
    cases hl : h.external with
    | nil => rfl
    | cons i l =>
      have hwithin := hs.remaining.within i (by rw [hl]; exact List.mem_cons_self)
      have hnext : nextExternal c h = some i.1 :=
        nextExternal_eq_some.mpr ⟨i, by rw [hl]; rfl, rfl, hwithin⟩
      unfold nextTime at hnone
      rw [hnext] at hnone
      split at hnone
      · next ha _ => cases ha
      · cases hnone
      · next ha _ => cases ha
      · split at hnone <;> cases hnone
  · split at hn
    · cases hn
    · split at hn <;> cases hn

end Heads

end Cadi.Retention
