import Cadi.Retention.Cache

namespace Cadi.Retention
open Library
set_option autoImplicit true

/-- The computation returns and leaves the engine with the given cache. -/
def Leaves (x : RetentionM Unit) (run : RetentionRun) (v : Cache) : Prop :=
  Returns x run fun _ run' => run'.cache = v

section Recording
variable {c : RetentionProgramCase} {m : C73RetentionManifest} {run : RetentionRun}

/-- The engine after a record, whether or not it exposes an overcommit. -/
def RetentionRun.recorded (run : RetentionRun) (m : C73RetentionManifest) (now : Time)
    (kind : RetentionAuditKind) (stateId : Option String) (reason : String) : RetentionRun :=
  { run with
    audit := run.audit ++ [{
      sequence := run.sequence, timeSeconds := now, kind, policyId := m.retentionPolicyId,
      stateId, reason, residentStateIds := sortedIds run.resident.keys,
      residentBytesAfter := run.cache.bytes, usefulByteSecondsTotal := run.useful,
      wastedByteSecondsTotal := run.wasted, capacityOutcome := run.capacityOutcome }]
    sequence := run.sequence + 1
    maxResidentBytes := max run.maxResidentBytes run.cache.bytes }

@[simp] theorem recorded_cache :
    (run.recorded m now kind k reason).cache = run.cache.mark now kind k := by
  simp only [RetentionRun.cache, RetentionRun.recorded, List.map_append]
  rfl

theorem residentBytes_eq (ha : Accepted c) (hd : ∀ k ∈ run.cache.resident, k ∈ c.stateIds) :
    residentBytes c run = .ok run.cache.bytes := ha.bytesOf hd

/-- A record is exposed exactly when the resident bytes fit the capacity. -/
theorem record_returns_iff (ha : Accepted c) (hd : ∀ k ∈ run.cache.resident, k ∈ c.stateIds)
    {post : Unit → RetentionRun → Prop} :
    Returns (record c m now kind k reason) run post ↔
      Cache.Fits m run.cache ∧ post ⟨⟩ (run.recorded m now kind k reason) := by
  unfold record
  rw [Returns.get_bind_iff, Returns.lift_bind_iff]
  simp only [residentBytes_eq ha hd, Except.ok.injEq, exists_eq_left', Returns.modify_bind_iff]
  rw [Returns.lift_iff]
  simp only [raiseIf_eq_ok, Nat.not_lt]
  exact ⟨fun ⟨_, hle, hp⟩ => ⟨hle, hp⟩, fun ⟨hle, hp⟩ => ⟨⟨⟩, hle, hp⟩⟩

theorem record_leaves (ha : Accepted c) (hs : Cache.Sound c t run.cache)
    (hf : Cache.Fits m run.cache) :
    Leaves (record c m now kind k reason) run (run.cache.mark now kind k) :=
  (record_returns_iff ha fun _ => hs.declared).mpr ⟨hf, recorded_cache⟩

theorem closeInterval_returns (ha : Accepted c) (hr : run.cache.resident.get? k = some r)
    (hk : k ∈ c.stateIds) (hle : r.intervalStartSeconds ≤ now) :
    Leaves (closeInterval c k now reason remove) run (if remove then run.cache.drop k
      else run.cache.place k { r with intervalStartSeconds := now, lastTouchTimeSeconds := now }) := by
  obtain ⟨spec, hspec, hsize, _⟩ := ha.spec hk
  obtain ⟨useful, wasted, hinterval⟩ := residencyIntervalByteSeconds_total hle reason
  unfold Leaves closeInterval
  rw [Returns.get_bind_iff]
  apply Returns.lift_bind (item_eq_ok.mpr hr)
  apply Returns.lift_bind hspec
  apply Returns.lift_bind (hsize ▸ hinterval)
  refine ⟨⟨⟩, _, rfl, ?_⟩
  cases remove <;> rfl

theorem Leaves.bind {x : RetentionM Unit} {f : Unit → RetentionM Unit} {v w : Cache}
    (hx : Leaves x run v) (hf : ∀ run', run'.cache = v → Leaves (f ⟨⟩) run' w) :
    Leaves (x >>= f) run w :=
  Returns.bind hx fun _ t ht => hf t ht

theorem dropped_leaves (ha : Accepted c) (hs : Cache.Sound c now run.cache)
    (hf : Cache.Fits m run.cache) (hk : k ∈ run.cache.resident) :
    Leaves (do closeInterval c k now reason true; record c m t kind sid text) run
      ((run.cache.drop k).mark t kind sid) := by
  obtain ⟨r, hr⟩ := Dict.mem_iff.mp hk
  obtain ⟨hdeclared, hstart, _⟩ := hs.resident k r hr
  apply (closeInterval_returns ha hr hdeclared hstart).bind
  intro run' hrun
  rw [if_pos rfl] at hrun
  rw [← hrun]
  apply record_leaves ha (t := now)
  · rw [hrun]
    exact hs.drop
  · rw [hrun]
    exact hf.shrinks (.drop _ _)

end Recording

section Loops
variable {c : RetentionProgramCase} {m : C73RetentionManifest} {run : RetentionRun}

theorem forM_leaves {l : List ι} {body : ι → RetentionM Unit} {effect : Cache → ι → Cache}
    {P : Cache → Prop}
    (hbody : ∀ i ∈ l, ∀ run : RetentionRun, P run.cache →
      Leaves (body i) run (effect run.cache i) ∧ P (effect run.cache i)) (hP : P run.cache) :
    Leaves (l.forM body) run (l.foldl effect run.cache) ∧ P (l.foldl effect run.cache) := by
  induction l generalizing run with
  | nil => exact ⟨⟨⟨⟩, run, rfl, rfl⟩, hP⟩
  | cons i l ih =>
    obtain ⟨⟨⟨⟩, run', hrun', hcache⟩, hP'⟩ := hbody i List.mem_cons_self run hP
    rw [← hcache] at hP'
    have hrest := ih (fun i' hi' => hbody i' (List.mem_cons_of_mem _ hi')) hP'
    rw [hcache] at hrest
    exact ⟨Returns.bind_iff.mpr ⟨⟨⟩, run', hrun', hrest.1⟩, hrest.2⟩

namespace Cache

/-- The States leave one by one, each with its record. -/
def dropAll (now : Time) (kind : RetentionAuditKind) (ids : List String) (v : Cache) : Cache :=
  ids.foldl (fun v k => (v.drop k).mark now kind k) v

theorem dropAll_shrinks (now : Time) (kind : RetentionAuditKind) (ids : List String) (v : Cache) :
    v.Shrinks (v.dropAll now kind ids) := by
  induction ids generalizing v with
  | nil => exact .refl v
  | cons k ids ih => exact (Shrinks.drop v k).trans (ih _)

theorem Sound.dropAll {v : Cache} (h : Sound c now v) : Sound c now (v.dropAll t kind ids) := by
  induction ids generalizing v with
  | nil => exact h
  | cons k ids ih => exact ih h.drop.mark

@[simp] theorem dropAll_truth {v : Cache} : (v.dropAll now kind ids).truth = v.truth := by
  induction ids generalizing v with
  | nil => rfl
  | cons k ids ih => exact ih

@[simp] theorem dropAll_outcome {v : Cache} : (v.dropAll now kind ids).outcome = v.outcome := by
  induction ids generalizing v with
  | nil => rfl
  | cons k ids ih => exact ih

theorem get?_dropAll {v : Cache} : (v.dropAll now kind ids).resident.get? k = some r ↔
    k ∉ ids ∧ v.resident.get? k = some r := by
  induction ids generalizing v with
  | nil => exact ⟨fun h => ⟨List.not_mem_nil, h⟩, fun h => h.2⟩
  | cons k' ids ih =>
    refine ih.trans ?_
    rw [mark_resident, drop_resident, Dict.get?_erase_eq_some_iff, List.mem_cons, not_or]
    exact ⟨fun ⟨hk, hne, hr⟩ => ⟨⟨hne.symm, hk⟩, hr⟩, fun ⟨⟨hne, hk⟩, hr⟩ => ⟨hk, Ne.symm hne, hr⟩⟩

end Cache

theorem dropAll_leaves {body : String → RetentionM Unit} (hn : ids.Nodup)
    (hids : ∀ k ∈ ids, k ∈ run.cache.resident)
    (hbody : ∀ k run, Cache.Sound c now run.cache → Cache.Fits m run.cache → k ∈ run.cache.resident →
      Leaves (body k) run ((run.cache.drop k).mark t kind k))
    (hs : Cache.Sound c now run.cache) (hf : Cache.Fits m run.cache) :
    Leaves (ids.forM body) run (run.cache.dropAll t kind ids) := by
  induction ids generalizing run with
  | nil => exact ⟨⟨⟩, run, rfl, rfl⟩
  | cons k ids ih =>
    obtain ⟨⟨⟩, run', hrun', hcache⟩ := hbody k run hs hf (hids k List.mem_cons_self)
    obtain ⟨hk, hn⟩ := List.nodup_cons.mp hn
    have hrest : Leaves (ids.forM body) run' (run'.cache.dropAll t kind ids) := by
      apply ih hn
      · intro k' hk'
        rw [hcache, Cache.mark_resident, Cache.drop_resident, Dict.mem_erase]
        exact ⟨fun he => hk (he ▸ hk'), hids k' (List.mem_cons_of_mem _ hk')⟩
      · exact hcache ▸ hs.drop.mark
      · rw [hcache]
        exact hf.shrinks (.drop _ _)
    rw [hcache] at hrest
    exact Returns.bind_iff.mpr ⟨⟨⟩, run', hrun', hrest⟩

theorem mem_sortedIds {ids : List String} : k ∈ sortedIds ids ↔ k ∈ ids :=
  (List.perm_insertionSort _ ids).mem_iff

theorem nodup_sortedIds {ids : List String} (h : ids.Nodup) : (sortedIds ids).Nodup :=
  (List.perm_insertionSort _ ids).nodup_iff.mpr h

end Loops

section Settling
variable {c : RetentionProgramCase} {m : C73RetentionManifest} {run : RetentionRun}

namespace Cache

/-- The effect of an invalidation on the cache. -/
def settle (v : Cache) (e : RetentionEvent) : Cache :=
  match e.action with
  | .invalidate k =>
    match v.truth.get? k with
    | some t =>
      let w := v.setTruth k { t with valid := false }
      (if k ∈ v.resident then w.drop k else w).mark e.timeSeconds .invalidated k
    | none => v
  | _ => v

/-- The effect of a lifecycle or session update on the cache. -/
def update (v : Cache) (e : RetentionEvent) : Cache :=
  match e.action with
  | .dependents k lifecycles =>
    match v.truth.get? k, deriveStateLifecycle lifecycles with
    | some t, .ok lifecycle =>
      (v.setTruth k { t with lifecycle }).mark e.timeSeconds .lifecycleUpdated k
    | _, _ => v
  | .sessionStatus s live =>
    Cache.mark { v with sessions := v.sessions.set s live } e.timeSeconds .sessionStatusUpdated none
  | _ => v

/-- The policy releases the State. -/
def releases (c : RetentionProgramCase) (m : C73RetentionManifest) (v : Cache) (k : String) : Bool :=
  match m.retentionPolicyId with
  | .sessionPinning =>
    match c.specs.get? k with
    | some spec => v.sessions.get? spec.sessionId = some false
    | none => false
  | .lifecycleB4 => (v.truth.get? k).map (·.lifecycle) = some .terminal
  | _ => false

/-- The effect of the phases before the expiries. -/
def settled (c : RetentionProgramCase) (m : C73RetentionManifest) (now : Time)
    (events : List RetentionEvent) (v : Cache) : Cache :=
  let w := events.foldl update (events.foldl settle v)
  w.dropAll now .policyReleased (sortedIds (w.resident.keys.filter (w.releases c m)))

theorem settle_shrinks (v : Cache) (e : RetentionEvent) : v.Shrinks (v.settle e) := by
  unfold settle
  split
  · split
    · dsimp only
      split
      · exact Shrinks.drop _ _
      · exact .of_resident rfl
    · exact .refl v
  · exact .refl v

theorem update_resident (v : Cache) (e : RetentionEvent) : (v.update e).resident = v.resident := by
  unfold update
  split
  · split <;> rfl
  · rfl
  · rfl

theorem Sound.settle {v : Cache} (h : Sound c now v) (e : RetentionEvent) :
    Sound c now (v.settle e) := by
  unfold Cache.settle
  split
  · split
    · dsimp only
      split
      · exact h.setTruth.drop.mark
      · exact h.setTruth.mark
    · exact h
  · exact h

theorem Sound.update {v : Cache} (h : Sound c now v) (e : RetentionEvent) :
    Sound c now (v.update e) := by
  unfold Cache.update
  split
  · split
    · exact h.setTruth.mark
    · exact h
  · exact ⟨h.resident, h.truth, fun k hk => Dict.mem_set.mpr (.inr (h.sessions k hk))⟩
  · exact h

end Cache

/-- The events of the instant happen at its time and are declared. -/
def AtInstant (c : RetentionProgramCase) (now : Time) (events : List RetentionEvent) : Prop :=
  ∀ e ∈ events, EventDeclared c e ∧ e.timeSeconds.units = now.units

theorem settleEvent_leaves (ha : Accepted c) (he : EventDeclared c e)
    (hnow : e.timeSeconds.units = now.units) (hs : Cache.Sound c now run.cache)
    (hf : Cache.Fits m run.cache) : Leaves (settleEvent c m e) run (run.cache.settle e) := by
  unfold settleEvent Cache.settle
  cases hact : e.action with
  | invalidate k =>
    have hk : k ∈ c.stateIds := he.state k (by rw [RetentionEvent.stateId?, hact])
    obtain ⟨t, ht⟩ := Dict.mem_iff.mp (hs.truth k hk)
    have hs' : Cache.Sound c e.timeSeconds (run.cache.setTruth k { t with valid := false }) :=
      (hs.later (Time.le_iff.mpr hnow.ge)).setTruth
    have hf' : Cache.Fits m (run.cache.setTruth k { t with valid := false }) := hf
    simp only [ht]
    unfold processInvalidation Leaves
    rw [Returns.get_bind_iff]
    apply Returns.lift_bind (item_eq_ok.mpr ht)
    rw [Returns.modify_bind_iff]
    by_cases hres : k ∈ run.cache.resident
    · rw [if_pos hres]
      simp only [show k ∈ run.resident from hres, ↓reduceIte]
      exact dropped_leaves ha hs' hf' hres
    · rw [if_neg hres]
      simp only [show k ∉ run.resident from hres, ↓reduceIte]
      exact record_leaves ha hs' hf'
  | _ => exact ⟨⟨⟩, run, rfl, rfl⟩

theorem updateEvent_leaves (ha : Accepted c) (he : EventDeclared c e)
    (hs : Cache.Sound c now run.cache) (hf : Cache.Fits m run.cache) :
    Leaves (updateEvent c m e) run (run.cache.update e) := by
  unfold updateEvent Cache.update
  cases hact : e.action with
  | dependents k lifecycles =>
    have hk : k ∈ c.stateIds := he.state k (by rw [RetentionEvent.stateId?, hact])
    obtain ⟨t, ht⟩ := Dict.mem_iff.mp (hs.truth k hk)
    obtain ⟨lifecycle, hl⟩ := he.lifecycle k lifecycles hact
    have hf' : Cache.Fits m (run.cache.setTruth k { t with lifecycle }) := hf
    simp only [ht, hl]
    unfold processDependents Leaves
    apply Returns.lift_bind hl
    rw [Returns.get_bind_iff]
    apply Returns.lift_bind (item_eq_ok.mpr ht)
    rw [Returns.modify_bind_iff]
    exact record_leaves ha hs.setTruth hf'
  | sessionStatus s live =>
    have hs' : Cache.Sound c now { run.cache with sessions := run.cache.sessions.set s live } :=
      ⟨hs.resident, hs.truth, fun k hk => Dict.mem_set.mpr (.inr (hs.sessions k hk))⟩
    have hf' : Cache.Fits m { run.cache with sessions := run.cache.sessions.set s live } := hf
    unfold processSessionStatus Leaves
    rw [Returns.modify_bind_iff]
    exact record_leaves ha hs' hf'
  | _ => exact ⟨⟨⟩, run, rfl, rfl⟩

theorem toRelease_eq (ha : Accepted c) (hs : Cache.Sound c now run.cache) :
    toRelease c m run = .ok (run.cache.resident.keys.filter (run.cache.releases c m)) := by
  unfold toRelease
  cases hp : m.retentionPolicyId with
  | sessionPinning =>
    apply Except.filterM_eq_ok
    intro k hk
    obtain ⟨spec, hspec, _, hsession⟩ := ha.spec (hs.declared hk)
    obtain ⟨live, hlive⟩ := Dict.mem_iff.mp (hs.sessions _ hsession)
    have hlive' : run.sessions.get? spec.sessionId = some live := hlive
    simp only [hspec, Except.ok_bind, item_eq_ok.mpr hlive', Cache.releases, hp, item_eq_ok.mp hspec,
      hlive, Option.some.injEq]
    cases live <;> rfl
  | lifecycleB4 =>
    apply Except.filterM_eq_ok
    intro k hk
    obtain ⟨t, ht⟩ := Dict.mem_iff.mp (hs.truth k (hs.declared hk))
    have ht' : run.truth.get? k = some t := ht
    simp only [item_eq_ok.mpr ht', Except.ok_bind, Cache.releases, hp, ht, Option.map_some,
      Option.some.injEq]
    rfl
  | _ =>
    rw [List.filter_eq_nil_iff.mpr]
    intro k _
    simp only [Cache.releases, hp, Bool.false_eq_true, not_false_eq_true]

theorem policyReleases_leaves (ha : Accepted c) (hs : Cache.Sound c now run.cache)
    (hf : Cache.Fits m run.cache) : Leaves (policyReleases c m now) run
      (run.cache.dropAll now .policyReleased
        (sortedIds (run.cache.resident.keys.filter (run.cache.releases c m)))) := by
  unfold policyReleases Leaves
  rw [Returns.get_bind_iff]
  apply Returns.lift_bind (toRelease_eq ha hs)
  refine dropAll_leaves (nodup_sortedIds (run.cache.resident.nodup.filter _)) ?_ ?_ hs hf
  · intro k hk
    exact (List.mem_filter.mp (mem_sortedIds.mp hk)).1
  · intro k run' hs' hf' hk
    exact dropped_leaves ha hs' hf' hk

theorem settle_leaves (ha : Accepted c) (he : AtInstant c now events)
    (hs : Cache.Sound c now run.cache) (hf : Cache.Fits m run.cache) :
    Leaves (settle c m now events) run (run.cache.settled c m now events) := by
  let Good (v : Cache) : Prop := Cache.Sound c now v ∧ Cache.Fits m v
  have hsettle : Leaves (events.forM (settleEvent c m)) run (events.foldl Cache.settle run.cache) ∧
      Good (events.foldl Cache.settle run.cache) :=
    forM_leaves (fun e hmem run hP =>
      ⟨settleEvent_leaves ha (he e hmem).1 (he e hmem).2 hP.1 hP.2, hP.1.settle e,
        hP.2.shrinks (Cache.settle_shrinks _ e)⟩) ⟨hs, hf⟩
  unfold settle
  apply hsettle.1.bind
  intro run₁ hrun₁
  have hupdate : Leaves (events.forM (updateEvent c m)) run₁ (events.foldl Cache.update run₁.cache) ∧
      Good (events.foldl Cache.update run₁.cache) :=
    forM_leaves (fun e hmem run hP =>
      ⟨updateEvent_leaves ha (he e hmem).1 hP.1 hP.2, hP.1.update e,
        hP.2.shrinks (.of_resident (Cache.update_resident _ e))⟩) (hrun₁ ▸ hsettle.2)
  apply hupdate.1.bind
  intro run₂ hrun₂
  rw [hrun₁] at hrun₂ hupdate
  have hgood : Good run₂.cache := hrun₂ ▸ hupdate.2
  have hrelease := policyReleases_leaves ha hgood.1 hgood.2
  rw [hrun₂] at hrelease
  exact hrelease

theorem Cache.settled_shrinks (c : RetentionProgramCase) (m : C73RetentionManifest) (now : Time)
    (events : List RetentionEvent) (v : Cache) : v.Shrinks (v.settled c m now events) := by
  have hsettled : v.Shrinks (events.foldl settle v) :=
    List.foldlRecOn events settle (.refl v) fun w hw e _ => hw.trans (settle_shrinks w e)
  have hupdated : v.Shrinks (events.foldl update (events.foldl settle v)) :=
    List.foldlRecOn events update hsettled fun w hw e _ =>
      hw.trans (.of_resident (update_resident w e))
  exact hupdated.trans (dropAll_shrinks _ _ _ _)

theorem Cache.Sound.settled {v : Cache} (h : Sound c now v) :
    Sound c now (v.settled c m t events) := by
  have hsettled : Sound c now (events.foldl Cache.settle v) :=
    List.foldlRecOn events Cache.settle h fun _ hw e _ => hw.settle e
  have hupdated : Sound c now (events.foldl Cache.update (events.foldl Cache.settle v)) :=
    List.foldlRecOn events Cache.update hsettled fun _ hw e _ => hw.update e
  exact hupdated.dropAll

end Settling

end Cadi.Retention
