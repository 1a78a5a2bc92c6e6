import Cadi.Retention.Enforcement

namespace Cadi.Retention
open Library
set_option autoImplicit true

section Freshness
variable {c : RetentionProgramCase} {m : C73RetentionManifest} {v w : Cache} {now : Time}

/-- The TTL was absorbed by the admission time, so that the State expired when it was admitted. -/
def Resident.stale (r : Resident) : Bool := r.expiresAt r.admissionTimeSeconds

namespace Cache

/-- After an instant whatever expires is stale or expires later. -/
def Fresh (m : C73RetentionManifest) (now : Time) (v : Cache) : Prop :=
  ∀ k r x, v.resident.get? k = some r → r.expirySeconds = some x →
    m.retentionPolicyId = .fixedTtl ∧ (r.stale = true ∨ .finite now < x)

/-- Before an instant whatever expires was admitted earlier, and is stale or did not expire yet. -/
def Due (m : C73RetentionManifest) (now : Time) (v : Cache) : Prop :=
  ∀ k r x, v.resident.get? k = some r → r.expirySeconds = some x →
    m.retentionPolicyId = .fixedTtl ∧ r.admissionTimeSeconds < now ∧
      (r.stale = true ∨ .finite now ≤ x)

theorem stale_congr {r r' : Resident} (hat : r.admissionTimeSeconds = r'.admissionTimeSeconds)
    (hexp : r.expirySeconds = r'.expirySeconds) : r.stale = r'.stale := by
  unfold Resident.stale Resident.expiresAt
  rw [hat, hexp]

theorem Fresh.shrinks (h : Fresh m now v) (hs : Shrinks v w) : Fresh m now w := by
  intro k r x hr hx
  obtain ⟨r', hr', hat, hexp⟩ := hs k r hr
  rw [stale_congr hat hexp]
  exact h k r' x hr' (hexp ▸ hx)

theorem Due.shrinks (h : Due m now v) (hs : Shrinks v w) : Due m now w := by
  intro k r x hr hx
  obtain ⟨r', hr', hat, hexp⟩ := hs k r hr
  rw [stale_congr hat hexp, hat]
  exact h k r' x hr' (hexp ▸ hx)

/-- When everything is due, the expiries miss nothing exactly when nothing is stale. -/
theorem Due.punctual_iff (h : Due m now v) : v.Punctual now ↔
    ∀ k r, v.resident.get? k = some r → r.stale = false := by
  constructor
  · intro hp k r hr
    by_contra hstale
    rw [Bool.not_eq_false] at hstale
    have hexpires : ∃ x : Time, r.expirySeconds = some (.finite x) ∧
        x.units = r.admissionTimeSeconds.units := by
      unfold Resident.stale Resident.expiresAt at hstale
      split at hstale
      · next x hx => exact ⟨x, hx, of_decide_eq_true hstale⟩
      · cases hstale
    obtain ⟨x, hx, hunits⟩ := hexpires
    obtain ⟨_, hat, _⟩ := h k r _ hr hx
    have hlt : x.units < now.units := by
      rw [hunits]
      exact Time.lt_iff.mp hat
    have hby : r.expiredBy now = true := by
      unfold Resident.expiredBy
      rw [hx]
      exact decide_eq_true (Extent.finite_le.mpr (Time.le_iff.mpr hlt.le))
    have hexact := hp k r hr hby
    unfold Resident.expiresAt at hexact
    rw [hx] at hexact
    exact hlt.ne (of_decide_eq_true hexact)
  · intro hs k r hr hby
    unfold Resident.expiredBy at hby
    split at hby
    · next x hx =>
      have hle := of_decide_eq_true hby
      obtain ⟨_, _, hstale | hge⟩ := h k r x hr hx
      · rw [hs k r hr] at hstale
        cases hstale
      · cases x with
        | infinite => exact absurd hle Extent.not_infinite_le
        | finite x =>
          unfold Resident.expiresAt
          rw [hx]
          exact decide_eq_true (Nat.le_antisymm (Time.le_iff.mp (Extent.finite_le.mp hle))
            (Time.le_iff.mp (Extent.finite_le.mp hge)))
    · cases hby

theorem Due.served (h : Due m now v) {events : List RetentionEvent} {k : String} {r : Resident}
    {x : Extent} (hr : (v.served m now events).resident.get? k = some r)
    (hx : r.expirySeconds = some x) : m.retentionPolicyId = .fixedTtl ∧ .finite now < x := by
  obtain ⟨r', hr', _, hexp⟩ := reuses_shrink (v.expireAll m now) events k r hr
  obtain ⟨r'', hr'', _, hexp'⟩ := expireAll_shrinks m now v k r' hr'
  have hpolicy := (h k r'' x hr'' (hexp' ▸ hexp ▸ hx)).1
  refine ⟨hpolicy, ?_⟩
  rw [expireAll, if_pos hpolicy, get?_dropAll] at hr'
  by_contra hle
  apply hr'.1
  rw [mem_expired]
  refine ⟨r', hr'.2, ?_⟩
  unfold Resident.expiredBy
  rw [← hexp, hx]
  apply decide_eq_true
  rw [lt_iff_le_not_ge, not_and, not_not] at hle
  cases x with
  | infinite => exact absurd (Extent.finite_lt_infinite now) fun hlt => hle hlt.le |> hlt.not_ge
  | finite x =>
    rcases Nat.le_total now.units x.units with hge | hge
    · exact hle (Extent.finite_le.mpr hge)
    · exact Extent.finite_le.mpr hge

end Cache

end Freshness

section Admissions
variable {c : RetentionProgramCase} {m : C73RetentionManifest} {run : RetentionRun} {now : Time}

/-- What holds between the admissions of an instant. -/
structure Admitting (c : RetentionProgramCase) (m : C73RetentionManifest) (now : Time)
    (v : Cache) : Prop where
  sound : Cache.Sound c now v
  guarded : v.Guarded m
  fresh : v.Fresh m now

theorem bytes_place {v : Cache} (h : k ∉ v.resident) (hsize : c73DefaultStateBytes = size) :
    (v.place k r).bytes = v.bytes + size := by
  unfold Cache.bytes
  rw [Cache.place_resident, Dict.keys_set_new h, List.length_append, List.length_singleton, hsize,
    Nat.mul_succ]

theorem activeBytes_place {v : Cache} (h : k ∉ v.resident) (hsize : c73DefaultStateBytes = size) :
    (v.place k r).activeBytes = v.activeBytes + if v.active k then size else 0 := by
  have hactive : (v.place k r).active = v.active := rfl
  unfold Cache.activeBytes
  rw [Cache.place_resident, Dict.keys_set_new h, hactive, List.filter_append, List.length_append,
    hsize, Nat.mul_add]
  congr 1
  cases hk : v.active k with
  | false => rw [List.filter_cons_of_neg (by rw [hk]; decide), List.filter_nil]; rfl
  | true => rw [List.filter_cons_of_pos hk, List.filter_nil]; exact Nat.mul_one size

theorem Placed.admitting {v w : Cache} (h : Placed c m e k t v w) (hk : k ∈ c.stateIds)
    (hnow : e.timeSeconds.units = now.units) (ha : Admitting c m now v) : Admitting c m now w := by
  obtain ⟨⟨r, rfl, hstart, hat, hexp, _⟩, htruth, hvalid, hout, size, hsize, hgranted⟩ := h
  have hle : e.timeSeconds ≤ now := Time.le_iff.mpr hnow.le
  have hout' : k ∉ (v.setTruth k { t with produced := true }).resident := hout
  refine ⟨ha.sound.setTruth.place hk (hstart ▸ hle) (hat ▸ hle), ?_, ?_⟩
  · have hg := ha.guarded
    unfold Cache.Guarded at hg ⊢
    unfold Granted at hgranted
    cases hp : m.retentionPolicyId with
    | sessionPinning =>
      rw [hp] at hgranted
      unfold Cache.Fits
      rw [bytes_place hout' hsize, Cache.setTruth_bytes]
      exact hgranted
    | lifecycleB4 =>
      rw [hp] at hg hgranted
      dsimp only at hg hgranted ⊢
      rw [activeBytes_place hout' hsize, activeBytes_produced htruth]
      have hactive : (v.setTruth k { t with produced := true }).active k =
          decide (t.lifecycle = .active) := by
        unfold Cache.active
        rw [Cache.setTruth_truth, Dict.get?_set_self]
        simp only [Option.map_some, Option.some.injEq]
      rw [hactive]
      by_cases hact : t.lifecycle = .active
      · rw [if_pos (decide_eq_true hact)]
        exact hgranted.2 hact
      · rw [if_neg (by simpa only [decide_eq_true_eq] using hact), Nat.add_zero]
        exact hg
    | lru => trivial
    | fixedTtl => trivial
  · intro x r' y hr' hy
    rcases Dict.get?_set_eq_some_iff.mp hr' with ⟨rfl, rfl⟩ | ⟨_, hr'⟩
    · rw [hexp] at hy
      unfold expiryOf at hy
      split at hy
      · next ttl hp httl =>
        obtain rfl := Option.some.inj hy
        refine ⟨hp, ?_⟩
        cases hadd : e.timeSeconds.add ttl.time with
        | none => exact .inr (Extent.finite_lt_infinite now)
        | some expiry =>
          have hge := Time.le_iff.mp (Time.le_of_add hadd)
          rcases Nat.lt_or_eq_of_le hge with hlt | heq
          · refine .inr (Extent.finite_lt.mpr (Time.lt_iff.mpr ?_))
            rw [← hnow]
            exact hlt
          · refine .inl ?_
            unfold Resident.stale Resident.expiresAt
            rw [hexp, expiryOf, hp, httl, hat]
            simp only [hadd, Extent.ofTime]
            exact decide_eq_true heq.symm
      · cases hy
    · exact ha.fresh x r' y hr' hy

theorem Refused.admitting {v w : Cache} (h : Refused k t m v w) (ha : Admitting c m now v) :
    Admitting c m now w := by
  obtain ⟨htruth, hsessions, hresident, hknown, _⟩ := h
  refine ⟨⟨hresident ▸ ha.sound.resident, ?_, hsessions ▸ ha.sound.sessions⟩, ?_,
    ha.fresh.shrinks (.of_resident hresident)⟩
  · intro x hx
    rw [htruth]
    exact Dict.mem_set.mpr (.inr (ha.sound.truth x hx))
  · have hg := ha.guarded
    have hbytes : w.bytes = v.bytes := by
      unfold Cache.bytes
      rw [hresident]
    have hactive : w.activeBytes = v.activeBytes := by
      rw [← activeBytes_produced hknown]
      unfold Cache.activeBytes Cache.active
      rw [hresident, htruth]
      rfl
    unfold Cache.Guarded Cache.Fits at hg ⊢
    rw [hbytes, hactive]
    exact hg

/-- Every admission of the list that is processed while the resident bytes exceed the capacity is
granted. -/
def AdmissionsClear (c : RetentionProgramCase) (m : C73RetentionManifest) :
    List RetentionEvent → RetentionRun → Prop
  | [], _ => True
  | e :: es, run =>
    (∀ k, e.action = .admission k → m.capacityBytes < run.cache.bytes → Admits c m run k) ∧
      ∀ a run', admitEvent c m e run = .ok a run' → AdmissionsClear c m es run'

theorem admitEvent_other (h : ∀ k, e.action ≠ .admission k) :
    admitEvent c m e run = .ok none run := by
  unfold admitEvent
  cases hact : e.action with
  | admission k => exact absurd hact (h k)
  | _ => rfl

theorem admitAll_returns_iff (ha : Accepted c) (he : AtInstant c now events)
    (hmem : ∀ e ∈ events, e ∈ c.events) (hs : Admitting c m now run.cache)
    {post : List String → RetentionRun → Prop}
    (hpost : ∀ ids run', Admitting c m now run'.cache →
      run'.resident.keys.length ≤ run.resident.keys.length + events.length → post ids run') :
    Returns (admitAll c m events) run post ↔ AdmissionsClear c m events run := by
  induction events generalizing run post with
  | nil => exact ⟨fun _ => trivial, fun _ => ⟨[], run, rfl, hpost [] run hs le_rfl⟩⟩
  | cons e es ih =>
    have he' : AtInstant c now es := fun x hx => he x (List.mem_cons_of_mem _ hx)
    have hmem' : ∀ x ∈ es, x ∈ c.events := fun x hx => hmem x (List.mem_cons_of_mem _ hx)
    obtain ⟨hdeclared, hnow⟩ := he e List.mem_cons_self
    -- once the first admission is known, the rest follows
    have hrest (first : Option String) (run' : RetentionRun) (hs' : Admitting c m now run'.cache)
        (hlen : run'.resident.keys.length ≤ run.resident.keys.length + 1) :
        Returns (admitAll c m es >>= fun rest => pure (first.toList ++ rest)) run' post ↔
          AdmissionsClear c m es run' := by
      rw [Returns.bind_iff]
      apply ih he' hmem' hs'
      intro ids run'' hs'' hlen''
      rw [Returns.pure_iff]
      refine hpost _ run'' hs'' ?_
      rw [List.length_cons]
      omega
    have hknown {a : Option String} {run' : RetentionRun} (hok : admitEvent c m e run = .ok a run')
        (hs' : Admitting c m now run'.cache)
        (hlen : run'.resident.keys.length ≤ run.resident.keys.length + 1)
        (hclear : ∀ k, e.action = .admission k → m.capacityBytes < run.cache.bytes → Admits c m run k) :
        Returns (admitAll c m (e :: es)) run post ↔ AdmissionsClear c m (e :: es) run := by
      unfold admitAll AdmissionsClear
      rw [Returns.ok_bind_iff hok, hrest a run' hs' hlen]
      refine ⟨fun h => ⟨hclear, fun a' run'' hok' => ?_⟩, fun h => h.2 a run' hok⟩
      rw [hok, EStateM.Result.ok.injEq] at hok'
      exact hok'.2 ▸ h
    by_cases hact : ∃ k, e.action = .admission k
    · obtain ⟨k, hact⟩ := hact
      have hk : k ∈ c.stateIds := hdeclared.state k (by rw [RetentionEvent.stateId?, hact])
      by_cases hadmits : Admits c m run k
      · obtain ⟨run', t, hok, hplaced⟩ := admitEvent_admits ha hs.sound
          (hmem e List.mem_cons_self) hdeclared hact hadmits
        have hlen : run'.resident.keys.length ≤ run.resident.keys.length + 1 := by
          obtain ⟨r, hcache, _⟩ := hplaced.placed
          have hres : run'.resident = run.resident.set k r := congrArg Cache.resident hcache
          have hout : k ∉ run.resident := hplaced.absent
          rw [hres, Dict.keys_set_new hout, List.length_append, List.length_singleton]
        refine hknown hok (hplaced.admitting hk hnow hs) hlen fun k' hk' _ => ?_
        rw [hact, RetentionAction.admission.injEq] at hk'
        exact hk' ▸ hadmits
      · obtain ⟨t, run', hrefused, hiff⟩ := admitEvent_refuses ha hs.sound hdeclared hact hadmits
        have hres : run'.resident = run.resident := hrefused.resident
        by_cases hfits : Cache.Fits m run.cache
        · obtain ⟨a, s', hok, hnone, hsame⟩ := (hiff fun a s' => a = none ∧ s' = run').mpr
            ⟨hfits, rfl, rfl⟩
          subst hsame
          refine hknown hok (hrefused.admitting hs) (by rw [hres]; omega) fun k' _ hover => ?_
          exact absurd hfits (Nat.not_le.mpr hover)
        · -- the refusal shows the overcommit
          have hno : ¬ Returns (admitAll c m (e :: es)) run post := by
            unfold admitAll
            rw [Returns.bind_iff, hiff]
            exact fun h => hfits h.1
          refine ⟨fun h => absurd h hno, fun h => ?_⟩
          exact absurd (h.1 k hact (Nat.not_le.mp hfits)) hadmits
    · have hother : ∀ k, e.action ≠ .admission k := fun k hk => hact ⟨k, hk⟩
      exact hknown (admitEvent_other hother) hs (Nat.le_succ _) fun k hk => absurd hk (hother k)

end Admissions

end Cadi.Retention
