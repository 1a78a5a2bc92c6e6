import Cadi.Retention.Recency

namespace Cadi.Retention
open Library
set_option autoImplicit true

section Orders
variable {c : RetentionProgramCase} {m : C73RetentionManifest} {run run' : RetentionRun}

theorem victim_least [LinearOrder κ] {ids : List String} {key : String → Except PyError κ}
    (h : victim ids key = .ok (some k)) :
    k ∈ ids ∧ ∃ x, key k = .ok x ∧ ∀ k' ∈ ids, ∃ x', key k' = .ok x' ∧ x ≤ x' := by
  obtain ⟨keyed, hkeyed, hmin⟩ := Except.bind_eq_ok.mp h
  rw [Except.pure_eq_ok, Option.map_eq_some_iff] at hmin
  obtain ⟨p, hp, rfl⟩ := hmin
  obtain ⟨k, hk, hpair⟩ := Except.mapM_source hkeyed (List.argmin_mem hp)
  obtain ⟨x, hx, rfl⟩ := Except.map_eq_ok.mp hpair
  refine ⟨hk, x, hx, fun k' hk' => ?_⟩
  obtain ⟨p', hp', hpair'⟩ := Except.mapM_result hkeyed hk'
  obtain ⟨x', hx', rfl⟩ := Except.map_eq_ok.mp hpair'
  exact ⟨x', hx', List.le_of_mem_argmin hp' hp⟩

/-- The place of a resident State among those of its lifecycle: its last touch, its admission and
its identifier. -/
def Resident.recency (r : Resident) (k : String) : LruKey :=
  toLex (r.lastTouchTimeSeconds.units, toLex (r.admissionOrdinal, k))

/-- The place of a resident State in the order of eviction under B4. -/
def Truth.rank (t : Truth) (r : Resident) (k : String) : Nat ×ₗ LruKey :=
  toLex (lifecyclePriority t.lifecycle, r.recency k)

theorem rank_ne {t t' : Truth} {r r' : Resident} (h : k ≠ k') : t.rank r k ≠ t'.rank r' k' := by
  intro he
  simp only [Truth.rank, Resident.recency, toLex_inj, Prod.mk.injEq] at he
  exact h he.2.2.2

theorem lifecycleKeyOf_eq_ok (h : lifecycleKeyOf run k = .ok x) :
    ∃ t r, run.truth.get? k = some t ∧ run.resident.get? k = some r ∧ x = t.rank r k := by
  obtain ⟨t, ht, h⟩ := Except.bind_eq_ok.mp h
  obtain ⟨r, hr, h⟩ := Except.bind_eq_ok.mp h
  obtain ⟨key, hkey, h⟩ := Except.bind_eq_ok.mp h
  obtain rfl := Except.pure_eq_ok.mp h
  unfold lruEvictionKey at hkey
  split at hkey
  · cases hkey
  · cases hkey
    exact ⟨t, r, item_eq_ok.mp ht, item_eq_ok.mp hr, rfl⟩

/-- Under B4 the next State to evict is not active, and has the smallest rank of such States. -/
theorem nextEviction_lowest (hp : m.retentionPolicyId = .lifecycleB4)
    (h : nextEviction m run = .ok (some (k, reason))) :
    ∃ t r, run.truth.get? k = some t ∧ run.resident.get? k = some r ∧ t.lifecycle ≠ .active ∧
      ∀ k' t' r', run.truth.get? k' = some t' → run.resident.get? k' = some r' →
        t'.lifecycle ≠ .active → t.rank r k ≤ t'.rank r' k' := by
  unfold nextEviction at h
  rw [hp] at h
  obtain ⟨candidates, hcandidates, h⟩ := Except.bind_eq_ok.mp h
  obtain ⟨found, hfound, h⟩ := Except.bind_eq_ok.mp h
  have hmem (x : String) : x ∈ candidates ↔
      x ∈ run.resident.keys ∧ ∃ t, run.truth.get? x = some t ∧ t.lifecycle ≠ .active := by
    rw [Except.filterM_result hcandidates x]
    refine and_congr_right fun _ => ?_
    simp only [Except.bind_eq_ok, item_eq_ok, Except.pure_eq_ok, decide_eq_true_eq]
  cases found with
  | none => cases h
  | some x =>
    obtain ⟨t, ht, h⟩ := Except.bind_eq_ok.mp h
    cases Except.pure_eq_ok.mp h
    obtain ⟨hin, key, hkey, hleast⟩ := victim_least hfound
    obtain ⟨t, r, ht, hr, rfl⟩ := lifecycleKeyOf_eq_ok hkey
    obtain ⟨_, t₀, ht₀, hactive⟩ := (hmem k).mp hin
    obtain rfl := Option.some.inj (ht.symm.trans ht₀)
    refine ⟨t, r, ht, hr, hactive, fun k' t' r' ht' hr' hactive' => ?_⟩
    have hin' : k' ∈ candidates := (hmem k').mpr ⟨Dict.mem_of_get? hr', t', ht', hactive'⟩
    obtain ⟨key', hkey', hle⟩ := hleast k' hin'
    obtain ⟨t₁, r₁, ht₁, hr₁, rfl⟩ := lifecycleKeyOf_eq_ok hkey'
    obtain rfl := Option.some.inj (ht'.symm.trans ht₁)
    obtain rfl := Option.some.inj (hr'.symm.trans hr₁)
    exact hle

/-- What the evictions under B4 do to the residents: the evicted ones leave, none of them is active,
and each ranks below those not active that stay. -/
structure Lowers (truth : Dict String Truth) (before after : Dict String Resident)
    (evicted : List (String × String)) : Prop where
  left : ∀ k r, after.get? k = some r ↔ before.get? k = some r ∧ k ∉ evicted.map Prod.fst
  taken : ∀ p ∈ evicted, ∃ t r, truth.get? p.1 = some t ∧ before.get? p.1 = some r ∧
    t.lifecycle ≠ .active ∧ ∀ k t' r', truth.get? k = some t' → after.get? k = some r' →
      t'.lifecycle ≠ .active → t.rank r p.1 < t'.rank r' k

theorem Lowers.nil (truth : Dict String Truth) (resident : Dict String Resident) :
    Lowers truth resident resident [] :=
  ⟨fun _ _ => ⟨fun h => ⟨h, List.not_mem_nil⟩, fun h => h.1⟩, fun _ h => (List.not_mem_nil h).elim⟩

theorem Lowers.cons {truth : Dict String Truth} {before after : Dict String Resident}
    (ht : truth.get? k = some t) (hr : before.get? k = some r) (hactive : t.lifecycle ≠ .active)
    (hleast : ∀ k' t' r', truth.get? k' = some t' → before.get? k' = some r' →
      t'.lifecycle ≠ .active → t.rank r k ≤ t'.rank r' k')
    (h : Lowers truth (before.erase k) after evicted) :
    Lowers truth before after ((k, reason) :: evicted) := by
  have hleft (x : String) (r' : Resident) : after.get? x = some r' ↔
      before.get? x = some r' ∧ x ∉ ((k, reason) :: evicted).map Prod.fst := by
    rw [h.left, Dict.get?_erase_eq_some_iff, List.map_cons, List.mem_cons, not_or]
    exact ⟨fun ⟨⟨hne, hx⟩, hout⟩ => ⟨hx, hne.symm, hout⟩,
      fun ⟨hx, hne, hout⟩ => ⟨⟨Ne.symm hne, hx⟩, hout⟩⟩
  refine ⟨hleft, fun p hp => ?_⟩
  rcases List.mem_cons.mp hp with rfl | hp
  · refine ⟨t, r, ht, hr, hactive, fun k' t' r' ht' hr' hactive' => ?_⟩
    obtain ⟨hbefore, hout⟩ := (hleft k' r').mp hr'
    have hne : k ≠ k' := fun he => hout (he ▸ List.mem_cons_self)
    exact lt_of_le_of_ne (hleast k' t' r' ht' hbefore hactive') (rank_ne hne)
  · obtain ⟨t', r', ht', hr', hrest⟩ := h.taken p hp
    exact ⟨t', r', ht', (Dict.get?_erase_eq_some_iff.mp hr').2, hrest⟩

/-- The evictions under B4 take the lowest ranks and leave the ground truth and the audit as they
are. -/
theorem evictions_lower (hp : m.retentionPolicyId = .lifecycleB4) {residents : Nat}
    (h : evictions c m now residents run = .ok evicted run') :
    run'.truth = run.truth ∧ run'.audit = run.audit ∧
      Lowers run.truth run.resident run'.resident evicted := by
  induction residents generalizing run evicted with
  | zero =>
    cases h
    exact ⟨rfl, rfl, .nil _ _⟩
  | succ residents ih =>
    obtain ⟨_, _, hget, h⟩ := bind_eq_ok.mp h
    cases hget
    obtain ⟨bytes, _, hbytes, h⟩ := bind_eq_ok.mp h
    obtain ⟨_, rfl⟩ := lift_eq_ok.mp hbytes
    split at h
    · cases h
      exact ⟨rfl, rfl, .nil _ _⟩
    · obtain ⟨next, _, hlift, h⟩ := bind_eq_ok.mp h
      obtain ⟨hnext, rfl⟩ := lift_eq_ok.mp hlift
      cases next with
      | none =>
        cases h
        exact ⟨rfl, rfl, .nil _ _⟩
      | some eviction =>
        obtain ⟨_, run₁, hclose, h⟩ := bind_eq_ok.mp h
        obtain ⟨rest, run₂, hrest, h⟩ := bind_eq_ok.mp h
        cases h
        obtain ⟨_, _, _, _, _, _, _, rfl⟩ := closeInterval_effect hclose
        obtain ⟨htruth, haudit, hlowers⟩ := ih hrest
        obtain ⟨t, r, ht, hr, hactive, hleast⟩ := nextEviction_lowest hp hnext
        exact ⟨htruth, haudit, .cons ht hr hactive hleast hlowers⟩

theorem shrink_lowers (hp : m.retentionPolicyId = .lifecycleB4)
    (h : shrink c m now run = .ok evicted run') :
    run'.truth = run.truth ∧ (∀ k, run'.cache.admittedAt k = run.cache.admittedAt k) ∧
      Lowers run.truth run.resident run'.resident evicted := by
  have hsame {run₁ run₂ : RetentionRun} (haudit : run₂.audit = run₁.audit) (k : String) :
      run₂.cache.admittedAt k = run₁.cache.admittedAt k := by
    unfold RetentionRun.cache Cache.admittedAt
    rw [haudit]
  obtain ⟨_, _, hget, h⟩ := bind_eq_ok.mp h
  cases hget
  rw [hp] at h
  obtain ⟨bytes, _, hbytes, h⟩ := bind_eq_ok.mp h
  obtain ⟨_, rfl⟩ := lift_eq_ok.mp hbytes
  split at h
  · obtain ⟨_, run₁, hmark, h⟩ := bind_eq_ok.mp h
    obtain ⟨_, run₂, hmodify, hrecord⟩ := bind_eq_ok.mp hmark
    obtain rfl := modify_eq_ok.mp hmodify
    obtain ⟨htruth, -⟩ := record_effect hrecord
    obtain ⟨hresident, hat⟩ := record_admittedAt hrecord
    obtain ⟨htruth', haudit, hlower⟩ := evictions_lower hp h
    rw [htruth] at htruth' hlower
    rw [hresident] at hlower
    exact ⟨htruth', fun k => (hsame haudit k).trans ((hat k).trans (if_neg fun hc => nomatch hc.2)),
      hlower⟩
  · obtain ⟨htruth, haudit, hlower⟩ := evictions_lower hp h
    exact ⟨htruth, hsame haudit, hlower⟩

end Orders

section Instants
variable {c : RetentionProgramCase} {m : C73RetentionManifest} {h : Head} {now : Time}

/-- The ground truth of a State after events of the program. -/
def groundTruth (c : RetentionProgramCase) (events : List RetentionEvent) (k : String) :
    Option Truth :=
  match initialTruth c with
  | .ok truth => (truth.get? k).map fun t => events.foldl (Truth.advance k) t
  | .error _ => none

def lifecycleAfter (c : RetentionProgramCase) (events : List RetentionEvent) (k : String) :
    Option StateLifecycle := (groundTruth c events k).map (·.lifecycle)

/-- The key of a State after the admissions of an instant, by the events up to then and the recorded
admissions: its last touch, the place of its admission and its identifier. A State that was not
resident before the admissions was admitted by them. -/
def recencyOf (c : RetentionProgramCase) (events : List RetentionEvent) (served : RetentionRun)
    (now : Time) (k : String) : Option LruKey := do
  let admitted ← if k ∈ served.resident then served.cache.admittedAt k else some now.units
  let place ← admissionPlace c k admitted
  return toLex (lastTouched events k admitted, toLex (place, k))

/-- What B4 guarantees at an instant after which the events have happened. -/
structure Prioritized (c : RetentionProgramCase) (events : List RetentionEvent) (now : Time)
    (settled served admitted after : RetentionRun) (evicted : List (String × String)) : Prop where
  released : ∀ k ∈ settled.resident, ∃ t, groundTruth c events k = some t ∧ t.valid = true ∧
    t.lifecycle ≠ .terminal
  leaves : ∀ k ∈ admitted.resident, k ∉ after.resident ↔ k ∈ evicted.map Prod.fst
  unprotected : ∀ p ∈ evicted, p.1 ∈ admitted.resident ∧ lifecycleAfter c events p.1 ≠ some .active
  waiting : ∀ p ∈ evicted, lifecycleAfter c events p.1 = some .waiting →
    ∀ k ∈ after.resident, lifecycleAfter c events k ≠ some .speculative
  recent : ∀ k r, admitted.resident.get? k = some r →
    recencyOf c events served now k = some (r.recency k)
  recency : ∀ p ∈ evicted, ∀ k ∈ after.resident,
    lifecycleAfter c events k = lifecycleAfter c events p.1 →
    ∃ x y, recencyOf c events served now p.1 = some x ∧ recencyOf c events served now k = some y ∧ x < y

theorem Lowers.prioritized {settled served admitted after : RetentionRun}
    (hl : Lowers admitted.truth admitted.resident after.resident evicted)
    (hrecent : ∀ k r, admitted.resident.get? k = some r →
      recencyOf c events served now k = some (r.recency k))
    (htruth : ∀ k, admitted.truth.get? k = groundTruth c events k)
    (hknown : ∀ k ∈ after.resident, k ∈ admitted.truth)
    (hreleased : ∀ k ∈ settled.resident, ∃ t, groundTruth c events k = some t ∧ t.valid = true ∧
      t.lifecycle ≠ .terminal) : Prioritized c events now settled served admitted after evicted := by
  have hlifecycle {k : String} {t : Truth} (ht : admitted.truth.get? k = some t) :
      lifecycleAfter c events k = some t.lifecycle := by
    unfold lifecycleAfter
    rw [← htruth, ht, Option.map_some]
  refine ⟨hreleased, fun k hk => ⟨fun hout => ?_, fun hin hk' => ?_⟩, fun p hp => ?_,
    fun p hp hwaiting k hk hspeculative => ?_, hrecent, fun p hp k hk hsame => ?_⟩
  · by_contra hkept
    obtain ⟨r, hr⟩ := Dict.mem_iff.mp hk
    exact hout (Dict.mem_of_get? ((hl.left k r).mpr ⟨hr, hkept⟩))
  · obtain ⟨r, hr⟩ := Dict.mem_iff.mp hk'
    exact ((hl.left k r).mp hr).2 hin
  · obtain ⟨t, r, ht, hr, hactive, _⟩ := hl.taken p hp
    refine ⟨Dict.mem_of_get? hr, fun he => hactive ?_⟩
    rw [hlifecycle ht, Option.some.injEq] at he
    exact he
  · obtain ⟨t, r, ht, _, _, hlow⟩ := hl.taken p hp
    obtain ⟨t', ht'⟩ := Dict.mem_iff.mp (hknown k hk)
    obtain ⟨r', hr'⟩ := Dict.mem_iff.mp hk
    rw [hlifecycle ht, Option.some.injEq] at hwaiting
    rw [hlifecycle ht', Option.some.injEq] at hspeculative
    have hlt := hlow k t' r' ht' hr' (by rw [hspeculative]; decide)
    unfold Truth.rank at hlt
    rw [hwaiting, hspeculative, Prod.Lex.toLex_lt_toLex] at hlt
    simp [lifecyclePriority] at hlt
  · obtain ⟨t, r, ht, hr, hactive, hlow⟩ := hl.taken p hp
    obtain ⟨t', ht'⟩ := Dict.mem_iff.mp (hknown k hk)
    obtain ⟨r', hr'⟩ := Dict.mem_iff.mp hk
    rw [hlifecycle ht, hlifecycle ht', Option.some.injEq] at hsame
    have hlt := hlow k t' r' ht' hr' (by rw [hsame]; exact hactive)
    unfold Truth.rank at hlt
    rw [hsame, Prod.Lex.toLex_lt_toLex] at hlt
    exact ⟨_, _, hrecent _ _ hr, hrecent _ _ ((hl.left k r').mp hr').1,
      (hlt.resolve_left (lt_irrefl _)).2⟩

/-- The head under B4 after the instants. -/
structure Governed (c : RetentionProgramCase) (done : List Instant) (h : Head) : Prop where
  split : instants c.events = done ++ h.external
  working : h.run.cache.Working
  truth : ∀ k, h.run.truth.get? k = groundTruth c (done.flatMap Prod.snd) k
  recent : Recent c done h.run.cache

theorem groundTruth_append (c : RetentionProgramCase) (events more : List RetentionEvent)
    (k : String) : groundTruth c (events ++ more) k =
      (groundTruth c events k).map fun t => more.foldl (Truth.advance k) t := by
  unfold groundTruth
  cases initialTruth c with
  | ok truth => simp only [List.foldl_append, Option.map_map, Function.comp_def]
  | error e => rfl

theorem nextInstant_external (hp : m.retentionPolicyId = .lifecycleB4)
    (hn : nextInstant c m h = some (i, rest)) : h.external = i :: rest := by
  have hexpiry : nextExpiry m h.run h.lastTime = none := by
    unfold nextExpiry
    rw [if_neg (by rw [hp]; decide)]
  unfold nextInstant nextTime at hn
  rw [hexpiry] at hn
  cases hnext : nextExternal c h with
  | none =>
    rw [hnext] at hn
    cases hn
  | some t =>
    rw [hnext] at hn
    obtain ⟨j, hj, rfl, _⟩ := nextExternal_eq_some.mp hnext
    cases hl : h.external with
    | nil =>
      rw [hl] at hj
      cases hj
    | cons j' l =>
      rw [hl, List.head?_cons, Option.some.injEq] at hj
      subst hj
      simp only [withinProgram, hl, ↓reduceIte, Option.some.injEq, Prod.mk.injEq] at hn
      rw [← hn.1, hn.2]

theorem Phases.recorded (ha : Accepted c)
    (h : Phases c m now events before settled served admitted enforced after ids evicted)
    (hs : Cache.Sound c now enforced.cache) (hf : Cache.Fits m enforced.cache) :
    after.truth = enforced.truth ∧ after.resident = enforced.resident := by
  have hrecords : Returns (do
      evicted.forM fun eviction => record c m now .evicted eviction.1 eviction.2
      ids.forM (auditAdmission c m now)
      record c m now .checkpoint none "INTERVAL_ACCOUNTING_CHECKPOINT") enforced fun _ run' =>
      run'.cache.truth = enforced.cache.truth ∧ run'.cache.resident = enforced.cache.resident := by
    rw [← bind_assoc]
    refine Returns.bind (audit_returns ha hs hf evicted ids) ?_
    intro _ run₁ hrun₁
    refine (record_leaves ha (hrun₁.sound hs) (hrun₁.fits hf)).mono fun _ run₂ hrun₂ => ?_
    rw [hrun₂]
    exact ⟨hrun₁.1, hrun₁.2.2.1⟩
  obtain ⟨_, run', hrecord, hkept⟩ := hrecords
  rw [h.records, EStateM.Result.ok.injEq] at hrecord
  obtain rfl := hrecord.2
  exact hkept

theorem Governed.ground {settled : RetentionRun} (hg : Governed c done h)
    (hsettled : settled.cache = h.run.cache.settled c m i.1 i.2) (k : String) :
    groundTruth c ((done ++ [i]).flatMap Prod.snd) k =
      (settled.truth.get? k).map fun t => i.2.foldl (Truth.produce k) t := by
  have htruth : settled.truth.get? k = (h.run.truth.get? k).map fun t =>
      i.2.foldl (Truth.derive k) (i.2.foldl (Truth.invalidate k) t) := by
    change settled.cache.truth.get? k = _
    rw [hsettled, Cache.settled_get?]
    rfl
  rw [List.flatMap_append, groundTruth_append, ← hg.truth, htruth, Option.map_map,
    List.flatMap_singleton]
  congr 1
  funext t
  exact Truth.foldl_advance k i.2 t

theorem Governed.released {settled : RetentionRun} (hg : Governed c done h)
    (hsettled : settled.cache = h.run.cache.settled c m i.1 i.2) (hw : settled.cache.Working)
    (hk : k ∈ settled.resident) : ∃ t, groundTruth c ((done ++ [i]).flatMap Prod.snd) k = some t ∧
      t.valid = true ∧ t.lifecycle ≠ .terminal := by
  obtain ⟨t, ht, hin⟩ := hw k hk
  have ht' : settled.truth.get? k = some t := ht
  obtain ⟨_, hvalid, hlifecycle⟩ := Cache.inWorkingSet_iff.mp hin
  obtain ⟨hvalid', hlifecycle', _⟩ := Truth.foldl_produce k i.2 t
  refine ⟨_, by rw [hg.ground hsettled, ht', Option.map_some], hvalid'.trans hvalid, ?_⟩
  rw [hlifecycle']
  exact hlifecycle

/-- The engine's key of a State after the admissions is the one read off the events. -/
theorem Filled.recencyOf_eq {served admitted : RetentionRun}
    (hf : Filled c m i.1 i.2 served.cache admitted.cache)
    (hsplit : instants c.events = done ++ i :: rest)
    (hserved : k ∈ served.resident → ∃ j ∈ done, served.cache.admittedAt k = some j.1.units ∧
      admissionPlace c k j.1.units = some r.admissionOrdinal ∧ r.lastTouchTimeSeconds.units =
        lastTouched ((done ++ [i]).flatMap Prod.snd) k j.1.units)
    (hr : admitted.resident.get? k = some r) :
    recencyOf c ((done ++ [i]).flatMap Prod.snd) served i.1 k = some (r.recency k) := by
  unfold recencyOf Resident.recency
  by_cases hk : k ∈ served.resident
  · obtain ⟨j, _, hat, hplace, htouch⟩ := hserved hk
    simp only [hk, ↓reduceIte, hat, hplace, htouch, Option.bind_eq_bind, Option.bind_some]
    rfl
  · obtain ⟨htouch, hplace⟩ := hf.opened k r hr hk
    simp only [hk, ↓reduceIte, hplace, htouch, lastTouched_new hsplit, Option.bind_eq_bind,
      Option.bind_some]
    rfl

theorem Governed.pass (ha : Accepted c) (hids : (c.events.map (·.eventId)).Nodup)
    (hp : m.retentionPolicyId = .lifecycleB4) (hs : HeadSound c m h) (hg : Governed c done h)
    (hn : nextInstant c m h = some (i, rest))
    (hph : Phases c m i.1 i.2 h.run settled served admitted enforced after ids evicted) :
    Prioritized c ((done ++ [i]).flatMap Prod.snd) i.1 settled served admitted after evicted ∧
      Governed c (done ++ [i]) ⟨rest, i.1.toNumber, after⟩ := by
  have hpass : Passing c m h i.1 i.2 rest := hs.passing hn
  -- the phases up to the touches
  obtain ⟨run₁, run₂, hsettle, hcache₁, hserve, hcache₂, hs₂⟩ := hs.touches ha hp hn
  rw [hph.settles, EStateM.Result.ok.injEq] at hsettle
  obtain rfl := hsettle.2
  rw [hph.serves, EStateM.Result.ok.injEq] at hserve
  obtain rfl := hserve.2
  have hw₁ : settled.cache.Working := hcache₁ ▸ hg.working.settled hp i.1 i.2
  have hshrinks₂ : settled.cache.Shrinks served.cache := hcache₂ ▸ Cache.served_shrinks _ _ _ _
  have htruth₂ : served.cache.truth = settled.cache.truth := hcache₂ ▸ Cache.served_truth _
  have hw₂ : served.cache.Working := hw₁.shrinks hshrinks₂ htruth₂
  -- the admissions bring the ground truth to that after the instant
  obtain ⟨hs₃, hw₃, htruth₃⟩ := admitAll_works ha hpass.atInstant hpass.declared hp hs₂ hw₂
    hph.admits
  have hadmitted (k : String) :
      admitted.truth.get? k = groundTruth c ((done ++ [i]).flatMap Prod.snd) k := by
    have htruth : served.truth = settled.truth := htruth₂
    rw [htruth₃, htruth, hg.ground hcache₁]
  -- the enforcement and the records leave the ground truth
  obtain ⟨htruth₄, hat₄, hlowers⟩ := shrink_lowers hp hph.shrinks
  obtain ⟨evicted', run₄, hshrink, hs₄, hf₄, hshrinks₄⟩ := shrink_returns ha hs₃.sound hs₃.guarded
  rw [hph.shrinks, EStateM.Result.ok.injEq] at hshrink
  obtain rfl := hshrink.2
  obtain ⟨htruth₅, hresident₅⟩ := hph.recorded ha hs₄ hf₄
  have hafter : after.truth = admitted.truth := htruth₅.trans htruth₄
  have hresident : after.resident = enforced.resident := hresident₅
  rw [← hresident] at hlowers
  have hworking : after.cache.Working :=
    hw₃.shrinks (hshrinks₄.trans (.of_resident hresident₅)) hafter
  -- the keys of the residents, by the admissions before the instant and in it
  have hsplit : instants c.events = done ++ i :: rest := by rw [hg.split, nextInstant_external hp hn]
  have hi : i ∈ instants c.events := hsplit ▸ List.mem_append_right _ List.mem_cons_self
  have hbefore : i.2 = [] ++ i.2 := rfl
  obtain ⟨hfilled, hmem, hnew⟩ := Filled.admitAll (v := served.cache) ha hids hp hi hbefore
    hpass.atInstant hpass.declared hs₂ hw₂ (.refl _) hph.admits
  have hserved (k : String) (r : Resident) (hr : admitted.resident.get? k = some r)
      (hk : k ∈ served.resident) : ∃ j ∈ done, served.cache.admittedAt k = some j.1.units ∧
        admissionPlace c k j.1.units = some r.admissionOrdinal ∧ r.lastTouchTimeSeconds.units =
          lastTouched ((done ++ [i]).flatMap Prod.snd) k j.1.units := by
    rw [hcache₂, hcache₁]
    apply hg.recent.served hp hsplit (hcache₁ ▸ hw₁)
    rw [← hcache₁, ← hcache₂]
    exact (hfilled.kept k hk).symm.trans hr
  obtain ⟨_, hat₅⟩ := hph.admittedAt
  refine ⟨hlowers.prioritized (fun k r hr => hfilled.recencyOf_eq hsplit (hserved k r hr) hr)
    hadmitted (fun k hk => ?_) fun k hk => hg.released hcache₁ hw₁ hk, ?_, hworking,
    fun k => ?_, fun k r hr => ?_⟩
  · obtain ⟨t, ht, _⟩ := hworking k hk
    have ht' : after.truth.get? k = some t := ht
    rw [hafter] at ht'
    exact Dict.mem_of_get? ht'
  · rw [hg.split, nextInstant_external hp hn, List.append_assoc]
    rfl
  · change after.truth.get? k = _
    rw [hafter, hadmitted]
  · have hr' : after.resident.get? k = some r := hr
    have hkept := ((hlowers.left k r).mp hr').1
    change ∃ j ∈ done ++ [i], after.cache.admittedAt k = _ ∧ _
    rw [hat₅, hat₄, hfilled.admittedAt]
    by_cases hk : k ∈ served.resident
    · obtain ⟨j, hj, hat, hrest⟩ := hserved k r hkept hk
      exact ⟨j, List.mem_append_left _ hj, (if_neg fun hc => hnew k hc.1 hk).trans hat, hrest⟩
    · obtain ⟨htouch, hplace⟩ := hfilled.opened k r hkept hk
      have hin : k ∈ ids := ((hmem k).mp (Dict.mem_of_get? hkept)).resolve_left hk
      exact ⟨i, List.mem_append_right _ List.mem_cons_self,
        if_pos ⟨hin, hresident ▸ Dict.mem_of_get? hr'⟩, hplace,
        htouch.trans (lastTouched_new hsplit k).symm⟩

end Instants

section Runs
variable {c : RetentionProgramCase} {m : C73RetentionManifest} {run : RetentionRun} {g h h' : Head}

/-- The pass of the run at an instant enforces the capacity by the listed evictions, and B4 keeps
its guarantees there. -/
def EnforcedAt (c : RetentionProgramCase) (m : C73RetentionManifest) (run : RetentionRun)
    (done : List Instant) (i : Instant) (rest : List Instant) (evicted : List (String × String)) :
    Prop :=
  ∃ h settled served admitted enforced after ids, Reaches c m (startHead c run) h ∧
    nextInstant c m h = some (i, rest) ∧
    Phases c m i.1 i.2 h.run settled served admitted enforced after ids evicted ∧
    Prioritized c ((done ++ [i]).flatMap Prod.snd) i.1 settled served admitted after evicted

/-- The recorded evictions were those of passes, at their times. -/
def Traceable (c : RetentionProgramCase) (m : C73RetentionManifest) (run : RetentionRun)
    (records : List RetentionAuditRecord) : Prop :=
  ∀ b ∈ records.map RetentionAuditRecord.brief, b.2.1 = .evicted → ∃ done i rest evicted,
    instants c.events = done ++ i :: rest ∧ EnforcedAt c m run done i rest evicted ∧
      b.1.units = i.1.units ∧ ∃ p ∈ evicted, b.2.2 = (some p.1, p.2)

/-- The evictions that entries add to the audit are those that they allow. -/
theorem trace_evictions {s t : RetentionRun} {now : Time}
    (h : Trace (Enters c m) s entries t) (hallowed : ∀ e ∈ entries, e.Allowed now evicted) :
    ∀ b ∈ t.audit.map RetentionAuditRecord.brief, b.2.1 = .evicted →
      b ∈ s.audit.map RetentionAuditRecord.brief ∨ b.1.units = now.units ∧
        ∃ p ∈ evicted, b.2.2 = (some p.1, p.2) := by
  refine h.invariant (P := fun _ u => ∀ b ∈ u.audit.map RetentionAuditRecord.brief,
    b.2.1 = .evicted → b ∈ s.audit.map RetentionAuditRecord.brief ∨ b.1.units = now.units ∧
      ∃ p ∈ evicted, b.2.2 = (some p.1, p.2)) (l := []) ?_ hallowed fun b hb _ => .inl hb
  intro _ u e w hu he hstep b hb hk
  rw [hstep.audit] at hb
  rcases List.mem_append.mp hb with hb | hb
  · exact hu b hb hk
  · cases e with
    | note now' kind k reason =>
      rw [Entry.brief, Option.toList_some, List.mem_singleton] at hb
      subst hb
      obtain ⟨p, hp, rfl, rfl⟩ := he.2 hk
      exact .inr ⟨he.1, p, hp, rfl⟩
    | hit start now' k =>
      rw [Entry.brief, Option.toList_some, List.mem_singleton] at hb
      subst hb
      cases hk
    | _ => cases hb

theorem startHead_governed (hi : initRun fingerprint c base m = .ok run) :
    Governed c [] (startHead c run) := by
  obtain ⟨_, _, _, truth, htruth, rfl⟩ := initRun_eq_ok hi
  refine ⟨rfl, fun k hk => ?_, fun k => ?_, fun k r hr => nomatch hr⟩
  · obtain ⟨r, hr⟩ := Dict.mem_iff.mp hk
    cases hr
  · unfold groundTruth
    rw [htruth]
    simp only [List.flatMap_nil, List.foldl_nil, Option.map_id']
    rfl

/-- Under B4 the passes up to a reached head kept the guarantees at their instants, and made all the
evictions of the audit. -/
theorem Reaches.governed (ha : Accepted c) (hids : (c.events.map (·.eventId)).Nodup)
    (hp : m.retentionPolicyId = .lifecycleB4) (hi : initRun fingerprint c base m = .ok run)
    (hr : Reaches c m (startHead c run) h) :
    (∃ done, Governed c done h) ∧
      (∀ done i rest, instants c.events = done ++ i :: rest → h.external.length ≤ rest.length →
        ∃ evicted, EnforcedAt c m run done i rest evicted) ∧
      Traceable c m run h.run.audit := by
  have hsound := startHead_sound (m := m) ha hi
  induction hr with
  | refl =>
    refine ⟨⟨[], startHead_governed hi⟩, fun done i rest hsplit hle => ?_, fun b hb => ?_⟩
    · have hlen : (startHead c run).external.length = (done ++ i :: rest).length :=
        congrArg List.length hsplit
      rw [List.length_append, List.length_cons] at hlen
      omega
    · obtain ⟨_, _, _, truth, _, rfl⟩ := initRun_eq_ok hi
      cases hb
  | tail hr hn ih =>
    obtain ⟨⟨done, hg⟩, hpassed, htraceable⟩ := ih
    obtain ⟨now, events, left, run', hnext, hok, rfl⟩ := hn
    obtain ⟨settled, served, admitted, enforced, ids, evicted, hph⟩ := instant_phases hok
    have hhead := hsound.reaches ha hr
    have hpass := hhead.passing hnext
    obtain ⟨hprioritized, hg'⟩ := hg.pass ha hids hp hhead hnext hph
    have hcons := nextInstant_external hp hnext
    have hsplit : instants c.events = done ++ (now, events) :: left := by
      rw [hg.split, hcons]
    have henforced : EnforcedAt c m run done (now, events) left evicted :=
      ⟨_, settled, served, admitted, enforced, run', ids, hr, hnext, hph, hprioritized⟩
    refine ⟨⟨_, hg'⟩, fun done' i rest hsplit' hle => ?_, fun b hb hk => ?_⟩
    · rw [hcons, List.length_cons] at hpassed
      rcases Nat.lt_or_eq_of_le hle with hearlier | hlen
      · exact hpassed done' i rest hsplit' hearlier
      · -- the instant of this pass
        have hlen : left.length = rest.length := hlen
        obtain ⟨rfl, htail⟩ := List.append_inj' (hsplit.symm.trans hsplit') (by
          rw [List.length_cons, List.length_cons, hlen])
        obtain ⟨rfl, rfl⟩ := List.cons.inj htail
        exact ⟨evicted, henforced⟩
    · obtain ⟨entries, hallowed, htrace⟩ := hph.entries fun e he => (hpass.atInstant e he).2
      rcases trace_evictions htrace hallowed b hb hk with hold | ⟨htime, hin⟩
      · exact htraceable b hold hk
      · exact ⟨done, (now, events), left, evicted, hsplit, henforced, htime, hin⟩

/-- In a run under B4 that returns, every instant of the program keeps the order of eviction and
leaves no terminal or invalid State resident after its releases, and every eviction of the audit is
one of the enforcement at its instant. -/
theorem b4_evicts_by_priority (hc : c.construct = .ok ⟨⟩)
    (hp : m.retentionPolicyId = .lifecycleB4) (hi : initRun fingerprint c base m = .ok run)
    (hr : runRetentionProgram fingerprint c base m = .ok (some r)) :
    (∀ done i rest, instants c.events = done ++ i :: rest →
      ∃ evicted, EnforcedAt c m run done i rest evicted) ∧
    ∀ a ∈ r.audit, a.kind = .evicted → ∃ done i rest evicted,
      instants c.events = done ++ i :: rest ∧ EnforcedAt c m run done i rest evicted ∧
        a.timeSeconds.units = i.1.units ∧
        ∃ p ∈ evicted, a.stateId = some p.1 ∧ a.reason = p.2 := by
  have ha := construct_accepted hc
  have hsound := startHead_sound (m := m) ha hi
  obtain ⟨run', hok⟩ := (runRetentionProgram_eq_ok hi).mp hr
  obtain ⟨h, hreach, hn, r', hclose, hsome, hfinish⟩ :=
    runAll_eq_ok ha hsound (initRun_empty hi) hok
  obtain rfl := Option.some.inj hsome
  obtain ⟨_, hpassed, htraceable⟩ := hreach.governed ha (construct_eventIds hc) hp hi
  have hexternal := (hsound.reaches ha hreach).finished hn
  refine ⟨fun done i rest hsplit => hpassed done i rest hsplit ?_, fun a ha hk => ?_⟩
  · rw [hexternal]
    exact Nat.zero_le _
  · unfold finish at hfinish
    obtain ⟨_, hfinish⟩ := Except.then_eq_ok.mp hfinish
    obtain rfl := Except.pure_eq_ok.mp hfinish
    obtain ⟨entries, hallowed, htrace⟩ := closeProgram_entered _ _ hclose
    rcases trace_evictions htrace hallowed a.brief (List.mem_map_of_mem ha) hk with
      hold | ⟨_, _, hp, _⟩
    · obtain ⟨done, i, rest, evicted, hsplit, henforced, htime, p, hp, hpair⟩ :=
        htraceable a.brief hold hk
      obtain ⟨hstate, hreason⟩ := Prod.mk.inj hpair
      exact ⟨done, i, rest, evicted, hsplit, henforced, htime, p, hp, hstate, hreason⟩
    · cases hp

/-- Three waiting States and one that is speculative, of which two fit; the first admitted is reused
before the third comes. -/
def pressureProgram : RetentionProgramCase where
  programId := "program"
  sessions := [{ sessionId := "session" }]
  states := [
    { stateId := "a", sessionId := "session", admissionOrdinal := 0, initialDependents := [.waiting] },
    { stateId := "b", sessionId := "session", admissionOrdinal := 1, initialDependents := [.waiting] },
    { stateId := "c", sessionId := "session", admissionOrdinal := 2, initialDependents := [.waiting] },
    { stateId := "d", sessionId := "session", admissionOrdinal := 3,
      initialDependents := [.speculative] }]
  events := [⟨"first", .zero, 0, .admission "a"⟩, ⟨"second", tick 1, 0, .admission "b"⟩,
    ⟨"touch", tick 2, 0, .reuse "a" true⟩, ⟨"third", tick 3, 0, .admission "c"⟩,
    ⟨"last", tick 4, 0, .admission "d"⟩]
  programStartSeconds := .zero
  programEndSeconds := tick 5

/-- A run under B4 that evicts the State touched longest ago, and then the speculative one. -/
theorem pressure_evicts : ∃ run r,
    initRun (fun _ => digest) pressureProgram (gapManifest .half)
      (boundManifest .lifecycleB4 .half 4) = .ok run ∧
    runRetentionProgram (fun _ => digest) pressureProgram (gapManifest .half)
      (boundManifest .lifecycleB4 .half 4) = .ok (some r) ∧
    (r.audit.filter (·.kind = .evicted)).map (·.stateId) = [some "b", some "d"] ∧
    (∀ done i rest, instants pressureProgram.events = done ++ i :: rest → ∃ evicted,
      EnforcedAt pressureProgram (boundManifest .lifecycleB4 .half 4) run done i rest evicted) := by
  have hinit : ((initRun (fun _ => digest) pressureProgram (gapManifest .half)
      (boundManifest .lifecycleB4 .half 4)).toOption.bind some).isSome = true := by decide +kernel
  have hresult : ((runRetentionProgram (fun _ => digest) pressureProgram (gapManifest .half)
      (boundManifest .lifecycleB4 .half 4)).toOption.bind fun answer => answer.bind fun r =>
        if (r.audit.filter (·.kind = .evicted)).map (·.stateId) = [some "b", some "d"] then some r
        else none).isSome = true := by decide +kernel
  obtain ⟨run, _, hrun, _⟩ := ok_of_isSome hinit
  obtain ⟨answer, r, hanswer, hr⟩ := ok_of_isSome hresult
  obtain ⟨r, rfl, hevicted⟩ := Option.bind_eq_some_iff.mp hr
  rw [Option.ite_none_right_eq_some] at hevicted
  exact ⟨run, r, hrun, hanswer, hevicted.1,
    (b4_evicts_by_priority (by decide +kernel) rfl hrun hanswer).1⟩

end Runs

end Cadi.Retention
