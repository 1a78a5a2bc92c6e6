import Cadi.Retention.Admissions

namespace Cadi.Retention
open Library
set_option autoImplicit true

section Victims
variable {c : RetentionProgramCase} {m : C73RetentionManifest} {run : RetentionRun} {now : Time}

/-- Among listed States that all have a key there is a victim. -/
theorem victim_total [LinearOrder κ] {ids : List String} {key : String → Except PyError κ}
    (hne : ids ≠ []) (hkey : ∀ k ∈ ids, ∃ x, key k = .ok x) :
    ∃ k ∈ ids, victim ids key = .ok (some k) := by
  have htotal : ∃ keyed, ids.mapM (fun stateId => (·, stateId) <$> key stateId) = .ok keyed := by
    apply Except.mapM_total
    intro k hk
    obtain ⟨x, hx⟩ := hkey k hk
    exact ⟨(x, k), Except.map_eq_ok.mpr ⟨x, hx, rfl⟩⟩
  obtain ⟨keyed, hkeyed⟩ := htotal
  unfold victim
  rw [hkeyed, Except.ok_bind]
  cases hmin : keyed.argmin Prod.fst with
  | none =>
    rw [List.argmin_eq_none] at hmin
    subst hmin
    obtain ⟨k, ids, rfl⟩ := List.exists_cons_of_ne_nil hne
    obtain ⟨_, hmem, _⟩ := Except.mapM_result hkeyed List.mem_cons_self
    cases hmem
  | some p =>
    obtain ⟨k, hk, hp⟩ := Except.mapM_source hkeyed (List.argmin_mem hmin)
    obtain ⟨x, _, rfl⟩ := Except.map_eq_ok.mp hp
    exact ⟨k, hk, rfl⟩

theorem lruKey_total (hk : k ≠ "") : ∃ x, lruEvictionKey touch ordinal k = .ok x := by
  unfold lruEvictionKey
  rw [if_neg hk]
  exact ⟨_, rfl⟩

/-- Above the capacity there is a State to evict, unless the protected ones exceed it. -/
theorem nextEviction_total (ha : Accepted c) (hs : Cache.Sound c now run.cache)
    (hover : m.capacityBytes < run.cache.bytes)
    (hactive : m.retentionPolicyId = .lifecycleB4 → run.cache.activeBytes ≤ m.capacityBytes) :
    ∃ k reason, nextEviction m run = .ok (some (k, reason)) ∧ k ∈ run.cache.resident := by
  have hkey (k : String) (hk : k ∈ run.cache.resident) : ∃ x, lruKeyOf run k = .ok x := by
    obtain ⟨r, hr⟩ := Dict.mem_iff.mp hk
    have hr' : run.resident.get? k = some r := hr
    obtain ⟨x, hx⟩ : ∃ x, lruEvictionKey r.lastTouchTimeSeconds r.admissionOrdinal k = .ok x :=
      lruKey_total (ha.name (hs.declared hk))
    exact ⟨x, Except.bind_eq_ok.mpr ⟨r, item_eq_ok.mpr hr', hx⟩⟩
  have hlru (hne : run.resident.keys ≠ []) :
      ∃ k ∈ run.resident.keys, victim run.resident.keys (lruKeyOf run) = .ok (some k) :=
    victim_total hne hkey
  have hresident : run.resident.keys ≠ [] := by
    intro hnil
    have hbytes : run.cache.bytes = 0 := by
      have hkeys : run.cache.resident.keys = [] := hnil
      unfold Cache.bytes
      rw [hkeys, List.length_nil, Nat.mul_zero]
    omega
  unfold nextEviction
  cases hp : m.retentionPolicyId with
  | lifecycleB4 =>
    have htruth (k : String) (hk : k ∈ run.cache.resident) :
        ∃ t, item run.truth k = .ok t ∧ run.cache.truth.get? k = some t := by
      obtain ⟨t, ht⟩ := Dict.mem_iff.mp (hs.truth k (hs.declared hk))
      exact ⟨t, item_eq_ok.mpr ht, ht⟩
    have hcandidates : (run.resident.keys.filterM fun stateId => do
        let t ← item run.truth stateId
        return decide (t.lifecycle ≠ .active) : Except PyError (List String)) =
        .ok (run.resident.keys.filter fun k => !run.cache.active k) := by
      apply Except.filterM_eq_ok
      intro k hk
      obtain ⟨t, ht, hget⟩ := htruth k hk
      simp only [ht, Except.ok_bind, Cache.active, hget, Option.map_some, Option.some.injEq, ne_eq,
        decide_not]
      rfl
    have hne : (run.resident.keys.filter fun k => !run.cache.active k) ≠ [] := by
      intro hnil
      rw [List.filter_eq_nil_iff] at hnil
      have hall : run.cache.resident.keys.filter run.cache.active = run.cache.resident.keys := by
        rw [List.filter_eq_self]
        intro k hk
        simpa only [Bool.not_eq_true', Bool.not_eq_false] using hnil k hk
      have hbytes : run.cache.activeBytes = run.cache.bytes := by
        unfold Cache.activeBytes Cache.bytes
        rw [hall]
      have hle := hactive hp
      omega
    have hb4key (k : String) (hk : k ∈ run.resident.keys.filter fun k => !run.cache.active k) :
        ∃ x, lifecycleKeyOf run k = .ok x := by
      have hres := (List.mem_filter.mp hk).1
      obtain ⟨t, ht, _⟩ := htruth k hres
      obtain ⟨r, hr⟩ := Dict.mem_iff.mp hres
      obtain ⟨x, hx⟩ : ∃ x, lruEvictionKey r.lastTouchTimeSeconds r.admissionOrdinal k = .ok x :=
        lruKey_total (ha.name (hs.declared hres))
      have hpair : lifecycleEvictionKey t.lifecycle r.lastTouchTimeSeconds r.admissionOrdinal k =
          .ok (toLex (lifecyclePriority t.lifecycle, x)) := Except.bind_eq_ok.mpr ⟨x, hx, rfl⟩
      exact ⟨_, Except.bind_eq_ok.mpr ⟨t, ht, Except.bind_eq_ok.mpr ⟨r, item_eq_ok.mpr hr, hpair⟩⟩⟩
    obtain ⟨k, hk, hvictim⟩ := victim_total hne hb4key
    have hres := (List.mem_filter.mp hk).1
    obtain ⟨t, ht, _⟩ := htruth k hres
    simp only [hcandidates, Except.ok_bind, hvictim, ht]
    exact ⟨k, _, rfl, hres⟩
  | _ =>
    obtain ⟨k, hk, hvictim⟩ := hlru hresident
    simp only [hvictim, Except.ok_bind]
    exact ⟨k, _, rfl, hk⟩

theorem activeBytes_drop (v : Cache) (k : String) : (v.drop k).activeBytes ≤ v.activeBytes := by
  apply Nat.mul_le_mul_left
  have hsub : (v.drop k).resident.keys.Sublist v.resident.keys := List.filter_sublist.map _
  exact (hsub.filter _).length_le

/-- The evictions bring the resident bytes within the capacity, and only remove States. -/
theorem evictions_return (ha : Accepted c) {residents : Nat} (hs : Cache.Sound c now run.cache)
    (hlen : run.cache.resident.keys.length ≤ residents)
    (hactive : m.retentionPolicyId = .lifecycleB4 → run.cache.activeBytes ≤ m.capacityBytes) :
    Returns (evictions c m now residents) run fun _ run' =>
      Cache.Sound c now run'.cache ∧ Cache.Fits m run'.cache ∧
        run.cache.Shrinks run'.cache := by
  induction residents generalizing run with
  | zero =>
    refine ⟨[], run, rfl, hs, ?_, .refl _⟩
    unfold Cache.Fits Cache.bytes
    rw [Nat.le_zero.mp hlen, Nat.mul_zero]
    exact Nat.zero_le _
  | succ residents ih =>
    unfold evictions
    rw [Returns.get_bind_iff]
    apply Returns.lift_bind (residentBytes_eq ha fun _ hk => hs.declared hk)
    by_cases hfits : run.cache.bytes ≤ m.capacityBytes
    · rw [if_pos hfits]
      exact ⟨[], run, rfl, hs, hfits, .refl _⟩
    · rw [if_neg hfits]
      obtain ⟨k, reason, hnext, hk⟩ := nextEviction_total ha hs (Nat.not_le.mp hfits) hactive
      apply Returns.lift_bind hnext
      obtain ⟨r, hr⟩ := Dict.mem_iff.mp hk
      obtain ⟨hdeclared, hstart, _⟩ := hs.resident k r hr
      have hclose : Leaves (closeInterval c k now .eviction true) run (run.cache.drop k) :=
        closeInterval_returns ha hr hdeclared hstart
      refine Returns.bind hclose ?_
      intro _ run' hrun'
      have hlen' : run'.cache.resident.keys.length ≤ residents := by
        have herase := Dict.keys_erase_length hk
        rw [hrun', Cache.drop_resident]
        omega
      have hs' : Cache.Sound c now run'.cache := hrun' ▸ hs.drop
      have hrest := ih hs' hlen' fun hp => by
        rw [hrun']
        exact (activeBytes_drop _ _).trans (hactive hp)
      refine Returns.bind hrest ?_
      intro rest run'' hrun''
      refine ⟨_, run'', rfl, hrun''.1, hrun''.2.1, ?_⟩
      exact (Cache.Shrinks.drop run.cache k).trans (hrun' ▸ hrun''.2.2)

theorem evictions_fit (ha : Accepted c) (hs : Cache.Sound c now run.cache)
    (hf : Cache.Fits m run.cache) (residents : Nat) :
    evictions c m now residents run = .ok [] run := by
  cases residents with
  | zero => rfl
  | succ residents =>
    refine bind_eq_ok.mpr ⟨run, run, rfl, bind_eq_ok.mpr ⟨run.cache.bytes, run, ?_, ?_⟩⟩
    · exact lift_eq_ok.mpr ⟨residentBytes_eq ha fun _ hk => hs.declared hk, rfl⟩
    · have hle : run.cache.bytes ≤ m.capacityBytes := hf
      exact (congrFun (if_pos hle) run).trans rfl

end Victims

section Enforcement
variable {c : RetentionProgramCase} {m : C73RetentionManifest} {run : RetentionRun} {now : Time}

/-- What the policy guarantees between its admissions and the enforcement of the capacity. -/
def Cache.Guarded (m : C73RetentionManifest) (v : Cache) : Prop :=
  match m.retentionPolicyId with
  | .sessionPinning => v.Fits m
  | .lifecycleB4 => v.activeBytes ≤ m.capacityBytes
  | _ => True

theorem Cache.Fits.guarded {v : Cache} (h : v.Fits m) : v.Guarded m := by
  unfold Guarded
  split
  · exact h
  · exact v.activeBytes_le.trans h
  · trivial

theorem shrink_returns (ha : Accepted c) (hs : Cache.Sound c now run.cache)
    (hg : run.cache.Guarded m) :
    Returns (shrink c m now) run fun _ run' => Cache.Sound c now run'.cache ∧
      Cache.Fits m run'.cache ∧ run.cache.Shrinks run'.cache := by
  have hbytes : residentBytes c run = .ok run.cache.bytes := residentBytes_eq ha fun _ => hs.declared
  unfold Cache.Guarded at hg
  unfold shrink
  rw [Returns.get_bind_iff]
  cases hp : m.retentionPolicyId with
  | sessionPinning =>
    rw [hp] at hg
    apply Returns.lift_bind hbytes
    rw [Returns.raiseIf_bind_iff]
    exact ⟨Nat.not_lt.mpr hg, [], run, rfl, hs, hg, .refl _⟩
  | lifecycleB4 =>
    rw [hp] at hg
    apply Returns.lift_bind (activeProtectedBytes_eq ha hs)
    rw [if_neg (Nat.not_lt.mpr hg)]
    exact evictions_return ha hs le_rfl fun _ => hg
  | lru => exact evictions_return ha hs le_rfl fun h => by rw [hp] at h; cases h
  | fixedTtl => exact evictions_return ha hs le_rfl fun h => by rw [hp] at h; cases h

theorem shrink_fits (ha : Accepted c) (hs : Cache.Sound c now run.cache)
    (hf : Cache.Fits m run.cache) : shrink c m now run = .ok [] run := by
  have hbytes : residentBytes c run = .ok run.cache.bytes := residentBytes_eq ha fun _ => hs.declared
  have hactive : ¬ m.capacityBytes < run.cache.activeBytes :=
    Nat.not_lt.mpr (run.cache.activeBytes_le.trans hf)
  refine bind_eq_ok.mpr ⟨run, run, rfl, ?_⟩
  cases hp : m.retentionPolicyId with
  | sessionPinning =>
    refine bind_eq_ok.mpr ⟨run.cache.bytes, run, lift_eq_ok.mpr ⟨hbytes, rfl⟩, ?_⟩
    exact bind_eq_ok.mpr ⟨⟨⟩, run, lift_eq_ok.mpr ⟨raiseIf_eq_ok.mpr (Nat.not_lt.mpr hf), rfl⟩, rfl⟩
  | lifecycleB4 =>
    refine bind_eq_ok.mpr ⟨run.cache.activeBytes, run,
      lift_eq_ok.mpr ⟨activeProtectedBytes_eq ha hs, rfl⟩, ?_⟩
    rw [if_neg hactive]
    exact evictions_fit ha hs hf _
  | lru => exact evictions_fit ha hs hf _
  | fixedTtl => exact evictions_fit ha hs hf _

namespace Cache

/-- The cache with more records of the listed kinds. -/
def Recorded (kinds : List RetentionAuditKind) (v w : Cache) : Prop :=
  w.truth = v.truth ∧ w.sessions = v.sessions ∧ w.resident = v.resident ∧ w.outcome = v.outcome ∧
    ∃ more, w.marks = v.marks ++ more ∧ ∀ r ∈ more, r.2.2 ∈ kinds

theorem Recorded.refl (v : Cache) : v.Recorded kinds v :=
  ⟨rfl, rfl, rfl, rfl, [], (List.append_nil _).symm, fun _ h => (List.not_mem_nil h).elim⟩

theorem Recorded.trans (h : Recorded kinds u v) (h' : Recorded kinds v w) : Recorded kinds u w := by
  obtain ⟨ht, hs, hr, ho, more, hm, hk⟩ := h
  obtain ⟨ht', hs', hr', ho', more', hm', hk'⟩ := h'
  refine ⟨ht'.trans ht, hs'.trans hs, hr'.trans hr, ho'.trans ho, more ++ more', ?_, ?_⟩
  · rw [hm', hm, List.append_assoc]
  · intro r hmem
    exact (List.mem_append.mp hmem).elim (hk r) (hk' r)

theorem Recorded.mark (v : Cache) (hk : kind ∈ kinds) : v.Recorded kinds (v.mark now kind k) :=
  ⟨rfl, rfl, rfl, rfl, _, rfl, fun r hr => by
    rw [List.mem_singleton] at hr
    exact hr ▸ hk⟩

theorem Recorded.sound (h : Recorded kinds v w) (hs : Sound c now v) : Sound c now w := by
  obtain ⟨ht, hse, hr, _⟩ := h
  exact ⟨hr ▸ hs.resident, ht ▸ hs.truth, hse ▸ hs.sessions⟩

theorem Recorded.fits (h : Recorded kinds v w) (hf : Fits m v) : Fits m w :=
  hf.shrinks (.of_resident h.2.2.1)

end Cache

theorem forM_records {l : List ι} {body : ι → RetentionM Unit} {kinds : List RetentionAuditKind}
    (hbody : ∀ i ∈ l, ∀ run : RetentionRun, Cache.Sound c now run.cache → Cache.Fits m run.cache →
      Returns (body i) run fun _ run' => run.cache.Recorded kinds run'.cache)
    (hs : Cache.Sound c now run.cache) (hf : Cache.Fits m run.cache) :
    Returns (l.forM body) run fun _ run' => run.cache.Recorded kinds run'.cache := by
  induction l generalizing run with
  | nil => exact ⟨⟨⟩, run, rfl, .refl _⟩
  | cons i l ih =>
    refine Returns.bind (hbody i List.mem_cons_self run hs hf) ?_
    intro _ run' hrun'
    refine (ih (fun i' hi' => hbody i' (List.mem_cons_of_mem _ hi')) (hrun'.sound hs)
      (hrun'.fits hf)).mono ?_
    exact fun _ _ h => hrun'.trans h

theorem audit_returns (ha : Accepted c) (hs : Cache.Sound c now run.cache)
    (hf : Cache.Fits m run.cache) (evicted : List (String × String)) (admitted : List String) :
    Returns (do
        evicted.forM fun eviction => record c m now .evicted eviction.1 eviction.2
        admitted.forM (auditAdmission c m now)) run fun _ run' =>
      run.cache.Recorded ((evicted.map fun _ => .evicted) ++ [.admitted, .admissionSkipped])
        run'.cache := by
  have hevicted : Returns (evicted.forM fun eviction => record c m now .evicted eviction.1 eviction.2)
      run fun _ run' => run.cache.Recorded
        ((evicted.map fun _ => .evicted) ++ [.admitted, .admissionSkipped]) run'.cache := by
    refine forM_records (fun eviction hmem run hs hf => ?_) hs hf
    exact (record_leaves ha hs hf).mono fun _ _ h => h ▸ .mark _
      (List.mem_append_left _ (List.mem_map.mpr ⟨eviction, hmem, rfl⟩))
  refine Returns.bind hevicted ?_
  · intro _ run' hrun'
    refine (forM_records (m := m) (fun k _ run hs hf => ?_) (hrun'.sound hs) (hrun'.fits hf)).mono
      fun _ _ h => hrun'.trans h
    unfold auditAdmission
    rw [Returns.get_bind_iff]
    split
    · exact (record_leaves ha hs hf).mono fun _ _ h => h ▸ .mark _
        (List.mem_append_right _ List.mem_cons_self)
    · split
      · exact (record_leaves ha hs hf).mono fun _ _ h => h ▸ .mark _
          (List.mem_append_right _ (List.mem_cons_of_mem _ List.mem_cons_self))
      · exact ⟨⟨⟩, run, rfl, .refl _⟩

/-- The enforcement and the checkpoint always return, within the capacity. -/
theorem conclude_returns (ha : Accepted c) (hs : Cache.Sound c now run.cache)
    (hg : run.cache.Guarded m) (admitted : List String) :
    Returns (conclude c m now admitted) run fun _ run' => Cache.Sound c now run'.cache ∧
      Cache.Fits m run'.cache ∧ run.cache.Shrinks run'.cache := by
  unfold conclude capacityEnforce
  rw [bind_assoc]
  refine Returns.bind (shrink_returns ha hs hg) ?_
  intro evicted run₁ ⟨hs₁, hf₁, hshrinks⟩
  refine Returns.bind (audit_returns ha hs₁ hf₁ evicted admitted) ?_
  intro _ run₂ hrun₂
  refine (record_leaves ha (hrun₂.sound hs₁) (hrun₂.fits hf₁)).mono fun _ run₃ hrun₃ => ?_
  have hres : run₃.cache.resident = run₁.cache.resident := by
    rw [hrun₃, Cache.mark_resident, hrun₂.2.2.1]
  refine ⟨hrun₃ ▸ (hrun₂.sound hs₁).mark, ?_, hshrinks.trans (.of_resident hres)⟩
  exact hf₁.shrinks (.of_resident hres)

theorem conclude_fits (ha : Accepted c) (hs : Cache.Sound c now run.cache)
    (hf : Cache.Fits m run.cache) (admitted : List String) :
    Returns (conclude c m now admitted) run fun _ run' =>
      run.cache.Recorded [.admitted, .admissionSkipped, .checkpoint] run'.cache := by
  unfold conclude capacityEnforce
  rw [bind_assoc, Returns.bind_iff]
  refine ⟨[], run, shrink_fits ha hs hf, ?_⟩
  refine Returns.bind (audit_returns ha hs hf [] admitted) ?_
  intro _ run₂ hrun₂
  refine (record_leaves ha (hrun₂.sound hs) (hrun₂.fits hf)).mono fun _ run₃ hrun₃ => ?_
  obtain ⟨ht, hse, hr, ho, more, hm, hk⟩ := hrun₂
  have hrec : run.cache.Recorded [.admitted, .admissionSkipped, .checkpoint] run₂.cache := by
    refine ⟨ht, hse, hr, ho, more, hm, fun r hmem => ?_⟩
    have hkind := hk r hmem
    simp only [List.map_nil, List.nil_append, List.mem_cons, List.not_mem_nil, or_false] at hkind
    rcases hkind with h | h <;> rw [h] <;> decide
  exact hrec.trans (hrun₃ ▸ .mark _ (by decide))

end Enforcement

end Cadi.Retention
