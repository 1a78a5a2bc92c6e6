import Cadi.Retention.Reference
import Cadi.Retention.Completion

namespace Cadi.Retention
open Library
set_option autoImplicit true

section Batches
variable {c : RetentionProgramCase} {m : C73RetentionManifest} {run : RetentionRun} {now : Time}
  {reference : Dict String Truth} {e : RetentionEvent} {v w : Cache} {k : String}

/-- Between the admissions of an instant under B4: what is resident belongs to the working set, and
the events left turn the ground truth into that of the reference. -/
structure Batch (reference : Dict String Truth) (todo : List RetentionEvent) (v : Cache) : Prop where
  working : v.Working
  quiet : v.Quiet
  truth : ∀ k, reference.get? k = (v.truth.get? k).map fun t => todo.foldl (Truth.produce k) t

theorem inWorkingSet_produce (k : String) (todo : List RetentionEvent) (h : Truth.inWorkingSet t = true) :
    (todo.foldl (Truth.produce k) t).inWorkingSet = true := by
  obtain ⟨hproduced, hvalid, hlifecycle⟩ := Cache.inWorkingSet_iff.mp h
  obtain ⟨hvalid', hlifecycle', hproduced'⟩ := Truth.foldl_produce k todo t
  rw [Cache.inWorkingSet_iff, hvalid', hlifecycle']
  exact ⟨hproduced' hproduced, hvalid, hlifecycle⟩

theorem Batch.subset (h : Batch reference todo v) (hk : k ∈ v.resident) :
    ∃ t, reference.get? k = some t ∧ t.inWorkingSet = true := by
  obtain ⟨t, ht, hin⟩ := h.working k hk
  refine ⟨_, ?_, inWorkingSet_produce k todo hin⟩
  rw [h.truth, ht, Option.map_some]

/-- Between its admissions B4 holds no more than the working set of the reference. -/
theorem Batch.bytes_le (ha : Accepted c) (h : Batch reference todo v)
    (hd : ∀ k ∈ reference, k ∈ c.stateIds) (hsize : workingSetBytes c reference = .ok size) :
    v.bytes ≤ size :=
  bytes_le_workingSet ha hd hsize v.resident.nodup fun _ hk => h.subset hk

theorem produce_get? (hact : e.action = .admission k) (ht : v.truth.get? k = some t) (x : String) :
    (v.truth.set k { t with produced := true }).get? x =
      (v.truth.get? x).map (Truth.produce x · e) := by
  unfold Truth.produce
  rw [Dict.get?_set]
  split
  · next hx =>
    subst hx
    simp only [ht, hact, Option.map_some, ↓reduceIte]
  · next hx =>
    simp only [hact, RetentionAction.admission.injEq, hx, ↓reduceIte, Option.map_id']

theorem Batch.next (h : Batch reference (e :: todo) v)
    (htruth : ∀ x, w.truth.get? x = (v.truth.get? x).map (Truth.produce x · e)) (x : String) :
    reference.get? x = (w.truth.get? x).map fun t => todo.foldl (Truth.produce x) t := by
  rw [h.truth, htruth, Option.map_map]
  rfl

theorem Batch.admitEvent (ha : Accepted c) (he : EventDeclared c e)
    (hnow : e.timeSeconds.units = now.units) (hmem : e ∈ c.events)
    (hp : m.retentionPolicyId = .lifecycleB4) (hd : ∀ k ∈ reference, k ∈ c.stateIds)
    (hsize : workingSetBytes c reference = .ok size) (hcap : size ≤ m.capacityBytes)
    (hs : Admitting c m now run.cache) (h : Batch reference (e :: todo) run.cache) :
    ∃ a run', Retention.admitEvent c m e run = .ok a run' ∧ Admitting c m now run'.cache ∧
      Batch reference todo run'.cache := by
  by_cases hact : ∃ k, e.action = .admission k
  · obtain ⟨k, hact⟩ := hact
    have hk : k ∈ c.stateIds := he.state k (by rw [RetentionEvent.stateId?, hact])
    by_cases hadmits : Admits c m run k
    · obtain ⟨run', t, hok, hplaced⟩ := admitEvent_admits ha hs.sound hmem he hact hadmits
      refine ⟨_, run', hok, hplaced.admitting hk hnow hs, ?_⟩
      obtain ⟨⟨r, hcache, _⟩, ht, hvalid, _, _, _, hgranted⟩ := hplaced
      have hlifecycle : t.lifecycle ≠ .terminal := by
        unfold Granted at hgranted
        rw [hp] at hgranted
        exact hgranted.1
      have htruth (x : String) : run'.cache.truth.get? x =
          (run.cache.truth.get? x).map (Truth.produce x · e) := by
        rw [hcache]
        exact produce_get? hact ht x
      refine ⟨fun x hx => ?_, ?_, h.next htruth⟩
      · rw [htruth]
        rw [hcache, Cache.place_resident, Dict.mem_set] at hx
        rcases hx with rfl | hx
        · refine ⟨t.produce k e, by rw [ht, Option.map_some], ?_⟩
          rw [Cache.inWorkingSet_iff, Truth.produce, if_pos hact]
          exact ⟨rfl, hvalid, hlifecycle⟩
        · obtain ⟨t', ht', hin⟩ := h.working x hx
          refine ⟨t'.produce x e, by rw [ht', Option.map_some], ?_⟩
          exact inWorkingSet_produce x [e] hin
      · rw [hcache]
        exact h.quiet
    · obtain ⟨t, run', hrefused, hiff⟩ := admitEvent_refuses ha hs.sound he hact hadmits
      have hfits : Cache.Fits m run.cache := (h.bytes_le ha hd hsize).trans hcap
      obtain ⟨a, s', hok, _, hsame⟩ := (hiff fun a s' => a = none ∧ s' = run').mpr ⟨hfits, rfl, rfl⟩
      subst hsame
      refine ⟨a, s', hok, hrefused.admitting hs, ?_⟩
      obtain ⟨htruth, _, hresident, ht, _, hquiet⟩ := hrefused
      have htruth' (x : String) : s'.cache.truth.get? x =
          (run.cache.truth.get? x).map (Truth.produce x · e) := by
        rw [htruth]
        exact produce_get? hact ht x
      refine ⟨fun x hx => ?_, ?_, h.next htruth'⟩
      · rw [hresident] at hx
        obtain ⟨t', ht', hin⟩ := h.working x hx
        refine ⟨t'.produce x e, by rw [htruth', ht', Option.map_some], ?_⟩
        exact inWorkingSet_produce x [e] hin
      · rcases hquiet with ⟨houtcome, t', hmarks⟩ | ⟨⟨one, hone, hover⟩, hvalid, hout, hactive⟩
        · refine ⟨houtcome.trans h.quiet.1, fun r hr => ?_⟩
          rw [hmarks] at hr
          rcases List.mem_append.mp hr with hr | hr
          · exact h.quiet.2 r hr
          · rw [List.mem_singleton] at hr
            rw [hr]
            constructor <;> (intro h; cases h)
        · -- the resident States and the refused one are in the working set together
          exfalso
          have hin : (t.produce k e).inWorkingSet = true := by
            rw [Cache.inWorkingSet_iff, Truth.produce, if_pos hact]
            exact ⟨rfl, hvalid, by rw [show t.lifecycle = .active from hactive hp]; decide⟩
          have hall (x : String) (hx : x ∈ k :: run.cache.resident.keys) :
              ∃ t, reference.get? x = some t ∧ t.inWorkingSet = true := by
            rcases List.mem_cons.mp hx with rfl | hx
            · refine ⟨_, ?_, inWorkingSet_produce x todo hin⟩
              rw [h.truth, ht, Option.map_some]
              rfl
            · exact h.subset hx
          have hle := bytes_le_workingSet ha hd hsize
            (List.nodup_cons.mpr ⟨hout, run.cache.resident.nodup⟩) hall
          have hbytes : run.cache.bytes + one ≤ size := by
            rw [List.length_cons, Nat.mul_succ, hone] at hle
            rw [Cache.bytes, hone]
            exact hle
          omega
  · have hother : ∀ k, e.action ≠ .admission k := fun k hk => hact ⟨k, hk⟩
    refine ⟨none, run, admitEvent_other hother, hs, h.working, h.quiet, h.next fun x => ?_⟩
    simp only [Truth.produce, hother x, ↓reduceIte, Option.map_id']

theorem Batch.admitAll (ha : Accepted c) {done : List RetentionEvent} (he : AtInstant c now done)
    (hmem : ∀ e ∈ done, e ∈ c.events) (hp : m.retentionPolicyId = .lifecycleB4)
    (hd : ∀ k ∈ reference, k ∈ c.stateIds) (hsize : workingSetBytes c reference = .ok size)
    (hcap : size ≤ m.capacityBytes) (hs : Admitting c m now run.cache)
    (h : Batch reference (done ++ todo) run.cache) :
    ∃ ids run', Retention.admitAll c m done run = .ok ids run' ∧ Admitting c m now run'.cache ∧
      Batch reference todo run'.cache := by
  induction done generalizing run with
  | nil => exact ⟨[], run, rfl, hs, h⟩
  | cons e done ih =>
    obtain ⟨hdeclared, hnow⟩ := he e List.mem_cons_self
    obtain ⟨a, run₁, hok, hs₁, h₁⟩ := Batch.admitEvent ha hdeclared hnow
      (hmem e List.mem_cons_self) hp hd hsize hcap hs h
    obtain ⟨ids, run₂, hok', hs₂, h₂⟩ := ih (fun x hx => he x (List.mem_cons_of_mem _ hx))
      (fun x hx => hmem x (List.mem_cons_of_mem _ hx)) hs₁ h₁
    exact ⟨a.toList ++ ids, run₂,
      bind_eq_ok.mpr ⟨a, run₁, hok, bind_eq_ok.mpr ⟨ids, run₂, hok', rfl⟩⟩, hs₂, h₂⟩

end Batches

section Tracking
variable {c : RetentionProgramCase} {m : C73RetentionManifest} {h h' : Head} {now : Time}

/-- The head under B4 beside the reference that has seen the same events. -/
structure Tracked (c : RetentionProgramCase) (limit : Nat) (h : Head) : Prop where
  reference : ∃ truth largest, largestWorkingSet c h.external truth largest = .ok limit ∧
    (∀ k, truth.get? k = h.run.cache.truth.get? k) ∧ ∀ k ∈ truth, k ∈ c.stateIds
  working : h.run.cache.Working
  quiet : h.run.cache.Quiet
  bytes : h.run.cache.bytes ≤ limit

/-- What a pass under B4 goes through. -/
structure TrackedPass (c : RetentionProgramCase) (m : C73RetentionManifest) (limit : Nat) (h : Head)
    (now : Time) (events : List RetentionEvent) (rest : List Instant) (run₁ run₂ : RetentionRun)
    (truth : Dict String Truth) (size : Nat) : Prop where
  settles : settle c m now events h.run = .ok ⟨⟩ run₁
  serves : serve c m now events run₁ = .ok ⟨⟩ run₂
  admitting : Admitting c m now run₂.cache
  declared : ∀ k ∈ truth, k ∈ c.stateIds
  bytes : workingSetBytes c truth = .ok size
  within : size ≤ limit
  batch : Batch truth events run₂.cache
  left : ∃ largest, largestWorkingSet c rest truth largest = .ok limit

theorem Passing.external (hp : m.retentionPolicyId = .lifecycleB4)
    (hpass : Passing c m h now events rest) : ∃ i, h.external = i :: rest ∧ i.2 = events := by
  rcases hpass.advances with hi | ⟨_, _, k, r, hr, hx⟩
  · exact hi
  · have hpolicy := (hpass.due k r _ hr hx).1
    rw [hp] at hpolicy
    cases hpolicy

theorem HeadSound.touches (ha : Accepted c) (hp : m.retentionPolicyId = .lifecycleB4)
    (hs : HeadSound c m h) (hn : nextInstant c m h = some ((now, events), rest)) :
    ∃ run₁ run₂, settle c m now events h.run = .ok ⟨⟩ run₁ ∧
      run₁.cache = h.run.cache.settled c m now events ∧ serve c m now events run₁ = .ok ⟨⟩ run₂ ∧
      run₂.cache = run₁.cache.served m now events ∧ Admitting c m now run₂.cache := by
  have hpass := hs.passing hn
  obtain ⟨run₁, hsettle, hcache₁⟩ := (settle_leaves ha hpass.atInstant hpass.sound hs.fits).exists
  have hs₁ : Cache.Sound c now run₁.cache := hcache₁ ▸ hpass.sound.settled
  have hf₁ : Cache.Fits m run₁.cache := by
    rw [hcache₁]
    exact hs.fits.shrinks (Cache.settled_shrinks _ _ _ _ _)
  have hnot : m.retentionPolicyId ≠ .fixedTtl := fun h => by rw [hp] at h; cases h
  obtain ⟨⟨⟩, run₂, hserve, hcache₂⟩ := (serve_returns_iff ha hpass.atInstant hs₁ hf₁
    (fun run' => run'.cache = run₁.cache.served m now events) fun _ h => h).mpr
    fun h => absurd h hnot
  have hshrinks₂ : run₁.cache.Shrinks run₂.cache := hcache₂ ▸ Cache.served_shrinks _ _ _ _
  have hdue : run₁.cache.Due m now := by
    rw [hcache₁]
    exact hpass.due.shrinks (Cache.settled_shrinks _ _ _ _ _)
  refine ⟨run₁, run₂, hsettle, hcache₁, hserve, hcache₂, ?_, (hf₁.shrinks hshrinks₂).guarded,
    fun k r x hr hx => ?_⟩
  · rw [hcache₂]
    exact hs₁.served hpass.atInstant
  · rw [hcache₂] at hr
    exact absurd (hdue.served hr hx).1 hnot

theorem Tracked.pass (ha : Accepted c) (hp : m.retentionPolicyId = .lifecycleB4)
    (hs : HeadSound c m h) (ht : Tracked c limit h)
    (hn : nextInstant c m h = some ((now, events), rest)) :
    ∃ run₁ run₂ truth size, TrackedPass c m limit h now events rest run₁ run₂ truth size := by
  have hpass := hs.passing hn
  obtain ⟨i, hcons, rfl⟩ := hpass.external hp
  obtain ⟨before, largest, hlargest, hsame, hdeclared⟩ := ht.reference
  rw [hcons] at hlargest
  obtain ⟨truth, htruth, hlargest⟩ := Except.bind_eq_ok.mp hlargest
  obtain ⟨size, hsize, hlargest⟩ := Except.bind_eq_ok.mp hlargest
  obtain ⟨run₁, run₂, hsettle, hcache₁, hserve, hcache₂, hadmitting⟩ := hs.touches ha hp hn
  have hshrinks₂ : run₁.cache.Shrinks run₂.cache := hcache₂ ▸ Cache.served_shrinks _ _ _ _
  refine ⟨run₁, run₂, truth, size, hsettle, hserve, hadmitting, ?_, hsize, ?_, ⟨?_, ?_, ?_⟩,
    _, hlargest⟩
  · exact fun k hk => hdeclared k (advanceTruths_mem htruth hk)
  · exact (Nat.le_max_right _ _).trans (le_largestWorkingSet hlargest)
  · have hworking : run₁.cache.Working := hcache₁ ▸ ht.working.settled hp now i.2
    exact hworking.shrinks hshrinks₂ (hcache₂ ▸ Cache.served_truth _)
  · rw [hcache₂, hcache₁]
    exact ht.quiet.settled.served
  · intro k
    rw [hcache₂, Cache.served_truth, hcache₁, Cache.settled_get?, advanceTruths_get? htruth, hsame,
      Option.map_map]
    congr 1
    funext t
    exact Truth.foldl_advance k i.2 t

theorem TrackedPass.batch_bytes (ha : Accepted c) (hp : m.retentionPolicyId = .lifecycleB4)
    (hs : HeadSound c m h) (hn : nextInstant c m h = some ((now, events), rest))
    (hcap : limit ≤ m.capacityBytes)
    (ht : TrackedPass c m limit h now events rest run₁ run₂ truth size)
    (hsplit : events = done ++ todo) (hok : admitAll c m done run₂ = .ok ids run₃) :
    Admitting c m now run₃.cache ∧ Batch truth todo run₃.cache ∧ run₃.cache.bytes ≤ limit := by
  have hpass := hs.passing hn
  subst hsplit
  obtain ⟨ids', run', hok', hs', hb'⟩ := Batch.admitAll ha
    (fun e he => hpass.atInstant e (List.mem_append_left _ he))
    (fun e he => hpass.declared e (List.mem_append_left _ he)) hp ht.declared ht.bytes
    (ht.within.trans hcap) ht.admitting ht.batch
  rw [hok, EStateM.Result.ok.injEq] at hok'
  rw [hok'.2]
  exact ⟨hs', hb', (hb'.bytes_le ha ht.declared ht.bytes).trans ht.within⟩

theorem Tracked.next (ha : Accepted c) (hp : m.retentionPolicyId = .lifecycleB4)
    (hcap : limit ≤ m.capacityBytes) (hs : HeadSound c m h) (ht : Tracked c limit h)
    (hn : Next c m h h') : Tracked c limit h' := by
  obtain ⟨now, events, rest, run', hnext, hok, rfl⟩ := hn
  have hpass := hs.passing hnext
  obtain ⟨run₁, run₂, truth, size, hthrough⟩ := ht.pass ha hp hs hnext
  have hbatch := hthrough.batch
  rw [← List.append_nil events] at hbatch
  obtain ⟨ids, run₃, hadmit, hs₃, hb₃⟩ := Batch.admitAll ha hpass.atInstant hpass.declared hp
    hthrough.declared hthrough.bytes (hthrough.within.trans hcap) hthrough.admitting hbatch
  have hbytes := (hb₃.bytes_le ha hthrough.declared hthrough.bytes).trans hthrough.within
  obtain ⟨⟨⟩, run₄, hconclude, hrecorded⟩ := conclude_fits ha hs₃.sound (hbytes.trans hcap) ids
  have hsame : instant c m now events h.run = .ok ⟨⟩ run₄ :=
    bind_eq_ok.mpr ⟨⟨⟩, run₁, hthrough.settles, bind_eq_ok.mpr ⟨⟨⟩, run₂, hthrough.serves,
      bind_eq_ok.mpr ⟨ids, run₃, hadmit, hconclude⟩⟩⟩
  rw [hok, EStateM.Result.ok.injEq] at hsame
  obtain rfl := hsame.2
  have hquiet := hb₃.quiet.recorded hrecorded
  obtain ⟨htruth, _, hresident, _⟩ := hrecorded
  obtain ⟨largest, hlargest⟩ := hthrough.left
  refine ⟨⟨truth, largest, hlargest, fun k => ?_, hthrough.declared⟩, ?_, hquiet, ?_⟩
  · change truth.get? k = run'.cache.truth.get? k
    rw [htruth, hb₃.truth]
    simp only [List.foldl_nil, Option.map_id']
  · exact hb₃.working.shrinks (.of_resident hresident) htruth
  · exact (Cache.Shrinks.of_resident hresident).bytes_le.trans hbytes

theorem Tracked.reaches (ha : Accepted c) (hp : m.retentionPolicyId = .lifecycleB4)
    (hcap : limit ≤ m.capacityBytes) (hs : HeadSound c m h) (ht : Tracked c limit h)
    (hr : Reaches c m h h') : Tracked c limit h' := by
  induction hr with
  | refl => exact ht
  | tail hr hn ih => exact ih.next ha hp hcap (hs.reaches ha hr) hn

/-- Under B4 every pass is clear: the bytes never exceed the capacity. -/
theorem Tracked.clear (ha : Accepted c) (hp : m.retentionPolicyId = .lifecycleB4)
    (hcap : limit ≤ m.capacityBytes) (hs : HeadSound c m h) (ht : Tracked c limit h) :
    PassClear c m h := by
  intro now events rest hn
  have hpass := hs.passing hn
  obtain ⟨run₁, run₂, truth, size, hthrough⟩ := ht.pass ha hp hs hn
  unfold InstantClear
  rw [Returns.ok_forall_iff hthrough.settles, Returns.ok_forall_iff hthrough.serves]
  have hnot : m.retentionPolicyId ≠ .fixedTtl := fun h => by rw [hp] at h; cases h
  refine ⟨fun h => absurd h hnot, ?_⟩
  have hclear (todo : List RetentionEvent) (run : RetentionRun) (he : AtInstant c now todo)
      (hmem : ∀ e ∈ todo, e ∈ c.events) (hs : Admitting c m now run.cache)
      (hb : Batch truth todo run.cache) : AdmissionsClear c m todo run := by
    induction todo generalizing run with
    | nil => trivial
    | cons e todo ih =>
      have hbytes := (hb.bytes_le ha hthrough.declared hthrough.bytes).trans
        (hthrough.within.trans hcap)
      refine ⟨fun k _ hover => absurd hbytes (Nat.not_le.mpr hover), fun a run' hok => ?_⟩
      obtain ⟨hdeclared, hnow⟩ := he e List.mem_cons_self
      obtain ⟨a', run'', hok', hs', hb'⟩ := Batch.admitEvent ha hdeclared hnow
        (hmem e List.mem_cons_self) hp hthrough.declared hthrough.bytes
        (hthrough.within.trans hcap) hs hb
      rw [hok, EStateM.Result.ok.injEq] at hok'
      rw [hok'.2]
      exact ih run'' (fun x hx => he x (List.mem_cons_of_mem _ hx))
        (fun x hx => hmem x (List.mem_cons_of_mem _ hx)) hs' hb'
  exact hclear events run₂ hpass.atInstant hpass.declared hthrough.admitting hthrough.batch

end Tracking

section Programs
variable {c : RetentionProgramCase} {m : C73RetentionManifest} {run : RetentionRun} {h : Head}
  {base : C7ExperimentManifest} {fingerprint : RetentionProgramCase → String}

/-- The resident bytes of the engine are at most the limit. -/
def Holds (c : RetentionProgramCase) (limit : Nat) (run : RetentionRun) : Prop :=
  ∃ bytes, residentBytes c run = .ok bytes ∧ bytes ≤ limit

/-- At the head and after any of the admissions of its next pass the resident bytes are at most the
limit. -/
def HeldWithin (c : RetentionProgramCase) (m : C73RetentionManifest) (limit : Nat) (h : Head) : Prop :=
  Holds c limit h.run ∧ ∀ now done todo rest run₁ run₂ ids run₃,
    nextInstant c m h = some ((now, done ++ todo), rest) →
    settle c m now (done ++ todo) h.run = .ok ⟨⟩ run₁ →
    serve c m now (done ++ todo) run₁ = .ok ⟨⟩ run₂ → admitAll c m done run₂ = .ok ids run₃ →
    Holds c limit run₁ ∧ Holds c limit run₂ ∧ Holds c limit run₃

theorem Holds.of_bytes (ha : Accepted c) (hs : Cache.Sound c now run.cache)
    (hle : run.cache.bytes ≤ limit) : Holds c limit run :=
  ⟨_, residentBytes_eq ha fun _ hk => hs.declared hk, hle⟩

theorem Tracked.held (ha : Accepted c) (hp : m.retentionPolicyId = .lifecycleB4)
    (hcap : limit ≤ m.capacityBytes) (hs : HeadSound c m h) (ht : Tracked c limit h) :
    HeldWithin c m limit h := by
  refine ⟨.of_bytes ha hs.ends ht.bytes, ?_⟩
  intro now done todo rest run₁ run₂ ids run₃ hn hsettle hserve hadmit
  have hpass := hs.passing hn
  obtain ⟨run₁', run₂', truth, size, hthrough⟩ := ht.pass ha hp hs hn
  have h₁ := hthrough.settles
  rw [hsettle, EStateM.Result.ok.injEq] at h₁
  obtain rfl := h₁.2
  have h₂ := hthrough.serves
  rw [hserve, EStateM.Result.ok.injEq] at h₂
  obtain rfl := h₂.2
  obtain ⟨run', hsettle', hcache⟩ := (settle_leaves ha hpass.atInstant hpass.sound hs.fits).exists
  rw [hsettle, EStateM.Result.ok.injEq] at hsettle'
  obtain rfl := hsettle'.2
  have hbytes₁ : run₁.cache.bytes ≤ limit := by
    rw [hcache]
    exact (Cache.settled_shrinks _ _ _ _ _).bytes_le.trans ht.bytes
  have hbytes₂ := (hthrough.batch.bytes_le ha hthrough.declared hthrough.bytes).trans
    hthrough.within
  obtain ⟨hs₃, _, hbytes₃⟩ := hthrough.batch_bytes ha hp hs hn hcap rfl hadmit
  have hs₁ : Cache.Sound c now run₁.cache := hcache ▸ hpass.sound.settled
  exact ⟨.of_bytes ha hs₁ hbytes₁, .of_bytes ha hthrough.admitting.sound hbytes₂,
    .of_bytes ha hs₃.sound hbytes₃⟩

theorem startHead_tracked (hi : initRun fingerprint c base m = .ok run) :
    Tracked c m.referenceWorkingSetBytes (startHead c run) := by
  obtain ⟨_, _, hreference, truth, htruth, rfl⟩ := initRun_eq_ok hi
  unfold referenceWorkingSetBytes at hreference
  rw [htruth, Except.ok_bind] at hreference
  obtain ⟨largest, hlargest, hreference⟩ := Except.bind_eq_ok.mp hreference
  obtain ⟨_, hreference⟩ := Except.then_eq_ok.mp hreference
  obtain rfl := Except.pure_eq_ok.mp hreference
  refine ⟨⟨truth, 0, hlargest, fun _ => rfl, fun k hk => ?_⟩, fun k hk => ?_, ⟨rfl, fun r hr => ?_⟩,
    Nat.zero_le _⟩
  · obtain ⟨entries, hentries, hreturn⟩ := Except.bind_eq_ok.mp htruth
    obtain rfl := Except.pure_eq_ok.mp hreturn
    obtain ⟨t, ht⟩ := Dict.mem_iff.mp hk
    obtain ⟨x, hx, hp⟩ := Except.mapM_source hentries (Dict.mem_of_get?_ofList ht)
    obtain ⟨l, _, hreturn⟩ := Except.bind_eq_ok.mp hp
    rw [Except.pure_eq_ok, Prod.mk.injEq] at hreturn
    exact hreturn.1 ▸ List.mem_map.mpr ⟨x, hx, rfl⟩
  · obtain ⟨r, hr⟩ := Dict.mem_iff.mp hk
    cases hr
  · cases hr

theorem reference_le_capacity (hm : m.postInit = .ok ⟨⟩)
    (hr : m.cacheCapacityRatio = .one ∨ m.cacheCapacityRatio = .two) :
    m.referenceWorkingSetBytes ≤ m.capacityBytes := by
  have hcapacity : ∃ expected, capacityBytes m.referenceWorkingSetBytes m.cacheCapacityRatio =
      .ok expected ∧ m.capacityBytes = expected := by
    unfold C73RetentionManifest.postInit at hm
    dsimp only at hm
    split at hm
    all_goals
      simp only [Except.bind_eq_ok, raiseIf_eq_ok, not_not] at hm
      obtain ⟨_, _, _, _, _, _, expected, hexpected, hm⟩ := hm
      exact ⟨expected, hexpected, hm⟩
  obtain ⟨expected, hexpected, hm⟩ := hcapacity
  unfold capacityBytes at hexpected
  split at hexpected
  · cases hexpected
  · rw [hm, ← Except.ok.inj hexpected]
    rcases hr with hr | hr
    · rw [hr]
      exact le_rfl
    · rw [hr]
      exact Nat.le_mul_of_pos_left _ Nat.two_pos

/-- Under B4 with a ratio of at least one the resident bytes stay within the reference working set,
and the run completes without evictions and infeasible capacity exactly when the byte-time is
finite. -/
theorem b4_within_reference_iff (hc : c.construct = .ok ⟨⟩) (hm : m.postInit = .ok ⟨⟩)
    (hp : m.retentionPolicyId = .lifecycleB4)
    (hr : m.cacheCapacityRatio = .one ∨ m.cacheCapacityRatio = .two)
    (hi : initRun fingerprint c base m = .ok run) (hl : referenceWorkingSetBytes c = .ok limit) :
    (∀ h, Reaches c m (startHead c run) h → HeldWithin c m limit h) ∧
      ((∃ r, runRetentionProgram fingerprint c base m = .ok (some r) ∧
          r.capacityOutcome = .eligible ∧
          ∀ a ∈ r.audit, a.kind ≠ .evicted ∧ a.kind ≠ .capacityInfeasible) ↔
        ∀ h, Reaches c m (startHead c run) h → nextInstant c m h = none →
          ∀ run', closeProgram c m h.run = .ok ⟨⟩ run' →
            (run'.useful.add run'.wasted).isFinite = true) := by
  have ha := construct_accepted hc
  have hempty := initRun_empty hi
  have hsound := startHead_sound ha hi
  obtain rfl := Except.ok.inj (hl.symm.trans (initRun_eq_ok hi).2.2.1)
  have hcap := reference_le_capacity hm hr
  have htracked (h : Head) (hreach : Reaches c m (startHead c run) h) :=
    (startHead_tracked hi).reaches ha hp hcap hsound hreach
  refine ⟨fun h hreach => (htracked h hreach).held ha hp hcap (hsound.reaches ha hreach), ?_⟩
  have hreturns := (runAll_returns_iff ha hsound hempty).1
  simp only [runRetentionProgram_eq_ok hi]
  constructor
  · rintro ⟨r, hr, -⟩ h hreach
    exact (hreturns.mp ⟨r, hr⟩ h hreach).2
  · intro hfinite
    obtain ⟨r, run', hok⟩ := hreturns.mpr fun h hreach =>
      ⟨(htracked h hreach).clear ha hp hcap (hsound.reaches ha hreach), hfinite h hreach⟩
    refine ⟨r, ⟨run', hok⟩, ?_⟩
    -- the result is read off the engine at the end of the program
    obtain ⟨h, hreach, hn, r', hclose, hsome, hfinish⟩ := runAll_eq_ok ha hsound hempty hok
    obtain rfl := Option.some.inj hsome
    have hhead := hsound.reaches ha hreach
    obtain ⟨run'', hclose', hcache⟩ := (closeProgram_returns ha hhead.ends hhead.fits).exists
    rw [hclose, EStateM.Result.ok.injEq] at hclose'
    obtain rfl := hclose'.2
    have hquiet : run'.cache.Quiet := by
      rw [hcache]
      exact ((htracked h hreach).quiet.dropAll (by decide)).mark (by decide)
    unfold finish at hfinish
    obtain ⟨_, hfinish⟩ := Except.then_eq_ok.mp hfinish
    obtain rfl := Except.pure_eq_ok.mp hfinish
    exact ⟨hquiet.1, fun a ha => hquiet.2 a.mark (List.mem_map.mpr ⟨a, ha, rfl⟩)⟩

/-- A program with a repeated and a later admission that B4 completes within the reference working
set. -/
theorem readmitted_within_reference : ∃ run r,
    initRun (fun _ => digest) readmittedProgram (gapManifest .one)
      (boundManifest .lifecycleB4 .one 4) = .ok run ∧
    runRetentionProgram (fun _ => digest) readmittedProgram (gapManifest .one)
      (boundManifest .lifecycleB4 .one 4) = .ok (some r) ∧
    (r.audit.filter (·.kind = .admissionSkipped)).map (·.stateId) = [some "a", some "a"] ∧
    ∀ h, Reaches readmittedProgram (boundManifest .lifecycleB4 .one 4)
      (startHead readmittedProgram run) h →
      HeldWithin readmittedProgram (boundManifest .lifecycleB4 .one 4) (4 * c73DefaultStateBytes) h := by
  have hinit : ((initRun (fun _ => digest) readmittedProgram (gapManifest .one)
      (boundManifest .lifecycleB4 .one 4)).toOption.bind some).isSome = true := by decide +kernel
  have hresult : ((runRetentionProgram (fun _ => digest) readmittedProgram (gapManifest .one)
      (boundManifest .lifecycleB4 .one 4)).toOption.bind fun answer => answer.bind fun r =>
        if (r.audit.filter (·.kind = .admissionSkipped)).map (·.stateId) = [some "a", some "a"]
        then some r else none).isSome = true := by decide +kernel
  obtain ⟨run, _, hrun, _⟩ := ok_of_isSome hinit
  obtain ⟨answer, r, hanswer, hr⟩ := ok_of_isSome hresult
  obtain ⟨r, rfl, hskipped⟩ := Option.bind_eq_some_iff.mp hr
  rw [Option.ite_none_right_eq_some] at hskipped
  exact ⟨run, r, hrun, hanswer, hskipped.1, (b4_within_reference_iff (by decide +kernel)
    (by decide +kernel) rfl (.inl rfl) hrun (by decide +kernel)).1⟩

/-- The largest power of two that is a binary64 number. -/
def lastPower : Time where
  negative := false
  units := 2 ^ 2097
  representable := by
    rw [← Nat.one_mul (2 ^ 2097)]
    apply representable_mul_pow (by decide)
    rw [Nat.one_mul]
    exact Nat.pow_lt_pow_right (by decide) (by decide)
  signed h := (Bool.false_ne_true h).elim

/-- A State that is resident for so long that its byte-seconds overflow. -/
theorem single_overflows : (singleProgram lastPower).construct = .ok ⟨⟩ ∧
    (boundManifest .lifecycleB4 .one 1).postInit = .ok ⟨⟩ ∧
    (∃ run, initRun (fun _ => digest) (singleProgram lastPower) (gapManifest .one)
      (boundManifest .lifecycleB4 .one 1) = .ok run) ∧
    runRetentionProgram (fun _ => digest) (singleProgram lastPower) (gapManifest .one)
      (boundManifest .lifecycleB4 .one 1) = .error (.assertionError
        "useful/wasted residency does not partition classified byte-time") := by
  have hinit : ((initRun (fun _ => digest) (singleProgram lastPower) (gapManifest .one)
      (boundManifest .lifecycleB4 .one 1)).toOption.bind some).isSome = true := by decide +kernel
  obtain ⟨run, _, hrun, _⟩ := ok_of_isSome hinit
  exact ⟨by decide +kernel, by decide +kernel, ⟨run, hrun⟩, by decide +kernel⟩

end Programs

end Cadi.Retention
