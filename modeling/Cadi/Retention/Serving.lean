import Cadi.Retention.Steps

namespace Cadi.Retention
open Library
set_option autoImplicit true

section Expiries
variable {c : RetentionProgramCase} {m : C73RetentionManifest} {run : RetentionRun} {now : Time}

namespace Cache

/-- Whatever has expired by the time expires at it. -/
def Punctual (now : Time) (v : Cache) : Prop :=
  ∀ k r, v.resident.get? k = some r → r.expiredBy now = true → r.expiresAt now = true

/-- The States that have expired by the time. -/
def expired (now : Time) (v : Cache) : List String :=
  sortedIds (v.resident.select fun p => p.2.expiredBy now)

/-- The effect of the expiries. -/
def expireAll (m : C73RetentionManifest) (now : Time) (v : Cache) : Cache :=
  if m.retentionPolicyId = .fixedTtl then v.dropAll now .ttlExpired (v.expired now) else v

theorem expireAll_shrinks (m : C73RetentionManifest) (now : Time) (v : Cache) :
    v.Shrinks (v.expireAll m now) := by
  unfold expireAll
  split
  · exact dropAll_shrinks _ _ _ _
  · exact .refl v

theorem Sound.expireAll {v : Cache} (h : Sound c now v) : Sound c now (v.expireAll m t) := by
  unfold Cache.expireAll
  split
  · exact h.dropAll
  · exact h

theorem mem_expired {v : Cache} :
    k ∈ v.expired now ↔ ∃ r, v.resident.get? k = some r ∧ r.expiredBy now = true := by
  rw [expired, mem_sortedIds, Dict.mem_select]

end Cache

theorem expire_returns_iff (ha : Accepted c) (hs : Cache.Sound c now run.cache)
    (hr : run.cache.resident.get? k = some r) {post : Unit → RetentionRun → Prop} :
    Returns (expire c m now k) run post ↔ r.expiresAt now = true ∧
      Returns (do closeInterval c k now .ttlExpiry true
                  record c m now .ttlExpired k "FIXED_FROM_ADMISSION") run post := by
  have hr' : run.resident.get? k = some r := hr
  unfold expire
  rw [Returns.get_bind_iff, Returns.lift_bind_iff]
  simp only [item_eq_ok, hr', Option.some.injEq, exists_eq_left', Returns.raiseIf_bind_iff,
    Bool.not_eq_false]

theorem expireList_returns_iff (ha : Accepted c) (hs : Cache.Sound c now run.cache)
    (hf : Cache.Fits m run.cache) {ids : List String} (hn : ids.Nodup)
    (hids : ∀ k ∈ ids, k ∈ run.cache.resident) {post : RetentionRun → Prop}
    (hpost : ∀ run', run'.cache = run.cache.dropAll now .ttlExpired ids → post run') :
    Returns (ids.forM (expire c m now)) run (fun _ => post) ↔
      ∀ k ∈ ids, ∀ r, run.cache.resident.get? k = some r → r.expiresAt now = true := by
  induction ids generalizing run with
  | nil =>
    exact ⟨fun _ k hk => (List.not_mem_nil hk).elim, fun _ => ⟨⟨⟩, run, rfl, hpost run rfl⟩⟩
  | cons k ids ih =>
    obtain ⟨r, hr⟩ := Dict.mem_iff.mp (hids k List.mem_cons_self)
    obtain ⟨hk, hn⟩ := List.nodup_cons.mp hn
    have hdropped : Leaves (do
        closeInterval c k now .ttlExpiry true
        record c m now .ttlExpired k "FIXED_FROM_ADMISSION") run
        ((run.cache.drop k).mark now .ttlExpired k) :=
      dropped_leaves ha hs hf (hids k List.mem_cons_self)
    obtain ⟨⟨⟩, run', hrun', hcache⟩ := hdropped
    have hsame (k' : String) (hne : k ≠ k') :
        run'.cache.resident.get? k' = run.cache.resident.get? k' := by
      rw [hcache, Cache.mark_resident, Cache.drop_resident]
      apply Option.ext
      intro r'
      rw [Dict.get?_erase_eq_some_iff]
      exact and_iff_right hne
    have hne (k' : String) (hk' : k' ∈ ids) : k ≠ k' := fun he => hk (he ▸ hk')
    have hs' : Cache.Sound c now run'.cache := hcache ▸ hs.drop.mark
    have hrest := ih hs' (hcache ▸ hf.shrinks (.drop _ _)) hn
      (fun k' hk' => by
        rw [Dict.mem_iff, hsame k' (hne k' hk'), ← Dict.mem_iff]
        exact hids k' (List.mem_cons_of_mem _ hk'))
      (fun run'' h => hpost run'' (by rw [h, hcache]; rfl))
    change Returns (expire c m now k >>= fun _ => ids.forM (expire c m now)) run _ ↔ _
    rw [Returns.bind_iff, expire_returns_iff ha hs hr, List.forall_mem_cons]
    have hfirst : (∀ r', run.cache.resident.get? k = some r' → r'.expiresAt now = true) ↔
        r.expiresAt now = true := by
      simp only [hr, Option.some.injEq, forall_eq']
    rw [hfirst]
    apply and_congr_right
    intro _
    have hstep : Returns (do closeInterval c k now .ttlExpiry true
                             record c m now .ttlExpired k "FIXED_FROM_ADMISSION") run
        (fun _ s' => Returns (ids.forM (expire c m now)) s' fun _ => post) ↔
        Returns (ids.forM (expire c m now)) run' fun _ => post := by
      constructor
      · rintro ⟨⟨⟩, s', hs', hret⟩
        rw [hrun'] at hs'
        cases hs'
        exact hret
      · exact fun hret => ⟨⟨⟩, run', hrun', hret⟩
    rw [hstep, hrest]
    refine forall_congr' fun k' => forall_congr' fun hk' => ?_
    rw [hsame k' (hne k' hk')]

/-- The expiries return exactly when nothing that has expired was missed. -/
theorem ttlExpiries_returns_iff (ha : Accepted c) (hs : Cache.Sound c now run.cache)
    (hf : Cache.Fits m run.cache) {post : RetentionRun → Prop}
    (hpost : ∀ run', run'.cache = run.cache.expireAll m now → post run') :
    Returns (ttlExpiries c m now) run (fun _ => post) ↔
      (m.retentionPolicyId = .fixedTtl → Cache.Punctual now run.cache) := by
  unfold ttlExpiries
  by_cases hp : m.retentionPolicyId = .fixedTtl
  · have hexpired (k : String) (hk : k ∈ run.cache.expired now) : k ∈ run.cache.resident := by
      obtain ⟨r, hr, _⟩ := Cache.mem_expired.mp hk
      exact Dict.mem_of_get? hr
    simp only [hp, ↓reduceIte, forall_const]
    rw [Returns.get_bind_iff]
    refine (expireList_returns_iff ha hs hf (nodup_sortedIds (Dict.nodup_select _ _)) hexpired
      ?_).trans ?_
    · intro run' h
      apply hpost
      rw [h, Cache.expireAll, if_pos hp]
      rfl
    · constructor
      · intro h k r hr hexp
        exact h k (Cache.mem_expired.mpr ⟨r, hr, hexp⟩) r hr
      · intro h k hk r hr
        obtain ⟨r', hr', hexp⟩ := Cache.mem_expired.mp hk
        obtain rfl := Option.some.inj (hr.symm.trans hr')
        exact h k r hr hexp
  · simp only [hp, ↓reduceIte, false_implies, iff_true]
    refine ⟨⟨⟩, run, rfl, hpost run ?_⟩
    rw [Cache.expireAll, if_neg hp]

end Expiries

section Reuse
variable {c : RetentionProgramCase} {m : C73RetentionManifest} {run : RetentionRun} {now : Time}

namespace Cache

/-- The effect of a reuse on the cache. -/
def reuse (v : Cache) (e : RetentionEvent) : Cache :=
  match e.action with
  | .reuse k semanticValid =>
    match v.truth.get? k with
    | some t =>
      if (semanticValid && t.valid) = false then v.mark e.timeSeconds .reuseSemanticReject k
      else match v.resident.get? k with
        | none => v.mark e.timeSeconds .reuseMiss k
        | some r => (v.place k { r with intervalStartSeconds := e.timeSeconds,
                                        lastTouchTimeSeconds := e.timeSeconds }).mark
                      e.timeSeconds .reuseHit k
    | none => v
  | _ => v

theorem reuse_shrinks (v : Cache) (e : RetentionEvent) : v.Shrinks (v.reuse e) := by
  unfold reuse
  split
  · split
    · split
      · exact .of_resident rfl
      · split
        · exact .of_resident rfl
        · next r hr =>
          intro x r' hr'
          rcases Dict.get?_set_eq_some_iff.mp hr' with ⟨rfl, rfl⟩ | ⟨_, hx⟩
          · exact ⟨r, hr, rfl, rfl⟩
          · exact ⟨r', hx, rfl, rfl⟩
    · exact .refl v
  · exact .refl v

theorem reuse_truth (v : Cache) (e : RetentionEvent) : (v.reuse e).truth = v.truth := by
  unfold reuse
  split
  · split
    · split
      · rfl
      · split <;> rfl
    · rfl
  · rfl

theorem Sound.reuse {v : Cache} (h : Sound c now v) (hnow : e.timeSeconds.units = now.units) :
    Sound c now (v.reuse e) := by
  unfold Cache.reuse
  split
  · split
    · split
      · exact h.mark
      · split
        · exact h.mark
        · next r hr =>
          obtain ⟨hk, _, hat⟩ := h.resident _ r hr
          apply Sound.mark
          exact h.place hk (show e.timeSeconds ≤ now from hnow.le) hat
    · exact h
  · exact h

end Cache

theorem reuseEvent_leaves (ha : Accepted c) (he : EventDeclared c e)
    (hnow : e.timeSeconds.units = now.units) (hs : Cache.Sound c now run.cache)
    (hf : Cache.Fits m run.cache) : Leaves (reuseEvent c m e) run (run.cache.reuse e) := by
  unfold reuseEvent Cache.reuse
  cases hact : e.action with
  | reuse k semanticValid =>
    have hk : k ∈ c.stateIds := he.state k (by rw [RetentionEvent.stateId?, hact])
    obtain ⟨t, ht⟩ := Dict.mem_iff.mp (hs.truth k hk)
    simp only [ht]
    unfold Retention.reuse Leaves
    rw [Returns.modify_bind_iff, Returns.get_bind_iff]
    apply Returns.lift_bind (item_eq_ok.mpr ht)
    by_cases hvalid : (semanticValid && t.valid) = false
    · rw [if_pos hvalid, if_pos hvalid, Returns.modify_bind_iff]
      exact record_leaves ha (t := now) hs hf
    · rw [if_neg hvalid, if_neg hvalid]
      cases hr : run.cache.resident.get? k with
      | none =>
        have hout : k ∉ run.resident := Dict.get?_eq_none_iff.mp hr
        rw [if_pos hout]
        exact record_leaves ha (t := now) hs hf
      | some r =>
        have hin : k ∈ run.resident := Dict.mem_of_get? hr
        obtain ⟨_, hstart, hat⟩ := hs.resident k r hr
        have hle : now ≤ e.timeSeconds := Time.le_iff.mpr hnow.ge
        rw [if_neg (not_not.mpr hin), Returns.modify_bind_iff]
        refine Returns.bind (closeInterval_returns (r := r) ha ?_ hk (hstart.trans hle)) ?_
        · exact hr
        intro _ run' hrun'
        have hplaced : run'.cache = run.cache.place k { r with
          intervalStartSeconds := e.timeSeconds, lastTouchTimeSeconds := e.timeSeconds } := hrun'
        dsimp only
        rw [← hplaced]
        apply record_leaves ha (t := e.timeSeconds)
        · rw [hplaced]
          exact (hs.later hle).place hk le_rfl (hat.trans hle)
        · rw [hplaced]
          apply hf.shrinks
          intro x r' hr'
          rcases Dict.get?_set_eq_some_iff.mp hr' with ⟨rfl, rfl⟩ | ⟨_, hx⟩
          · exact ⟨r, hr, rfl, rfl⟩
          · exact ⟨r', hx, rfl, rfl⟩
  | _ => exact ⟨⟨⟩, run, rfl, rfl⟩

theorem reuses_leave (ha : Accepted c) (he : AtInstant c now events)
    (hs : Cache.Sound c now run.cache) (hf : Cache.Fits m run.cache) :
    Leaves (events.forM (reuseEvent c m)) run (events.foldl Cache.reuse run.cache) ∧
      Cache.Sound c now (events.foldl Cache.reuse run.cache) ∧
      Cache.Fits m (events.foldl Cache.reuse run.cache) :=
  forM_leaves (P := fun v => Cache.Sound c now v ∧ Cache.Fits m v)
    (fun e hmem run hP => ⟨reuseEvent_leaves ha (he e hmem).1 (he e hmem).2 hP.1 hP.2,
      hP.1.reuse (he e hmem).2, hP.2.shrinks (Cache.reuse_shrinks _ e)⟩) ⟨hs, hf⟩

theorem Cache.reuses_shrink (v : Cache) (events : List RetentionEvent) :
    v.Shrinks (events.foldl reuse v) :=
  List.foldlRecOn events reuse (.refl v) fun w hw e _ => hw.trans (reuse_shrinks w e)

theorem Cache.reuses_truth (v : Cache) (events : List RetentionEvent) :
    (events.foldl reuse v).truth = v.truth :=
  List.foldlRecOn (motive := fun w => w.truth = v.truth) events reuse rfl
    fun w hw e _ => (reuse_truth w e).trans hw

end Reuse

/-- The effect of the phases from the expiries to the touches. -/
def Cache.served (m : C73RetentionManifest) (now : Time) (events : List RetentionEvent) (v : Cache) :
    Cache :=
  events.foldl Cache.reuse (v.expireAll m now)

theorem Cache.served_shrinks (m : C73RetentionManifest) (now : Time) (events : List RetentionEvent)
    (v : Cache) : v.Shrinks (v.served m now events) :=
  (expireAll_shrinks m now v).trans (reuses_shrink _ events)

theorem serve_returns_iff {c : RetentionProgramCase} {run : RetentionRun} (ha : Accepted c)
    (he : AtInstant c now events) (hs : Cache.Sound c now run.cache) (hf : Cache.Fits m run.cache)
    (post : RetentionRun → Prop)
    (hpost : ∀ run', run'.cache = run.cache.served m now events → post run') :
    Returns (serve c m now events) run (fun _ => post) ↔
      (m.retentionPolicyId = .fixedTtl → Cache.Punctual now run.cache) := by
  unfold serve
  rw [Returns.bind_iff]
  apply ttlExpiries_returns_iff ha hs hf
  intro run' hrun'
  have hs' : Cache.Sound c now run'.cache := hrun' ▸ hs.expireAll
  have hf' : Cache.Fits m run'.cache := by
    rw [hrun']
    exact hf.shrinks (Cache.expireAll_shrinks _ _ _)
  obtain ⟨⟨⟨⟩, run'', hrun'', hcache⟩, _⟩ := reuses_leave ha he hs' hf'
  refine ⟨⟨⟩, run'', hrun'', hpost run'' ?_⟩
  rw [hcache, hrun']
  rfl

end Cadi.Retention
