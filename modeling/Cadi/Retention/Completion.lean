import Cadi.Retention.Runs

namespace Cadi.Retention
open Library
set_option autoImplicit true

section Ending
variable {c : RetentionProgramCase} {m : C73RetentionManifest} {run : RetentionRun} {h : Head}

theorem partitionTolerance_bounds :
    2 ^ 1024 ≤ partitionTolerance ∧ partitionTolerance < 2 ^ 1074 := by decide +kernel

theorem fraction_finite {part : Extent} {t : Time} (ht : t.units ≠ 0) :
    fraction part (.finite t) = part.toBinary64.div t.toBinary64 :=
  if_neg (Bool.eq_false_iff.mp (decide_eq_false ht))

theorem partitions_iff :
    Partitions run = true ↔ (run.useful.add run.wasted).isFinite = true := by
  unfold Partitions
  dsimp only
  constructor
  · intro hp
    cases htotal : run.useful.add run.wasted with
    | finite t => rfl
    | infinite =>
      have hfar := fractions_far htotal partitionTolerance_bounds.2
      rw [htotal] at hp
      simp only [Extent.isZero, fraction, Bool.false_or, Bool.false_eq_true, ↓reduceIte,
        Extent.toBinary64] at hp hfar
      rw [hfar] at hp
      cases hp
  · intro hfinite
    obtain ⟨u, w, t, hu, hw, hadd, htotal⟩ := Extent.add_finite hfinite
    rw [htotal]
    by_cases hzero : t.units = 0
    · rw [Extent.isZero, decide_eq_true hzero, Bool.true_or]
    · have hclose := fractions_close hadd hzero partitionTolerance_bounds.1
      simp only [show Extent.isZero (.finite t) = false from decide_eq_false hzero,
        fraction_finite hzero, hu, hw, Extent.toBinary64, hclose, Bool.false_or]

theorem finish_returns_iff :
    (∃ r, finish m run = .ok r) ↔ (run.useful.add run.wasted).isFinite = true := by
  unfold finish
  simp only [Except.then_eq_ok, raiseIf_eq_ok, Bool.not_eq_false, partitions_iff,
    Except.pure_eq_ok]
  exact ⟨fun ⟨_, hfinite, _⟩ => hfinite, fun hfinite => ⟨_, hfinite, rfl⟩⟩

theorem closeProgram_returns (ha : Accepted c) (hs : Cache.Sound c c.programEndSeconds run.cache)
    (hf : Cache.Fits m run.cache) :
    Leaves (closeProgram c m) run ((run.cache.dropAll c.programEndSeconds .programEndRelease
      (sortedIds run.resident.keys)).mark c.programEndSeconds .checkpoint none) := by
  have hloop : Leaves ((sortedIds run.resident.keys).forM fun stateId => do
      closeInterval c stateId c.programEndSeconds .programEnd true
      record c m c.programEndSeconds .programEndRelease stateId "PROGRAM_END") run
      (run.cache.dropAll c.programEndSeconds .programEndRelease (sortedIds run.resident.keys)) := by
    apply dropAll_leaves (m := m) (nodup_sortedIds run.resident.nodup)
      (fun k hk => mem_sortedIds.mp hk) ?_ hs hf
    exact fun k run hs hf hk => dropped_leaves ha hs hf hk
  unfold closeProgram Leaves
  rw [Returns.get_bind_iff]
  apply hloop.bind
  intro run' hrun'
  rw [← hrun']
  apply record_leaves ha
  · exact hrun' ▸ hs.dropAll
  · rw [hrun']
    exact hf.shrinks (Cache.dropAll_shrinks _ _ _ _)

theorem HeadSound.ends (hs : HeadSound c m h) : Cache.Sound c c.programEndSeconds h.run.cache := by
  rcases hs.last with hbefore | ⟨t, hafter⟩
  · exact hbefore.sound _
  · exact hafter.sound.later hafter.within

end Ending

section Whole
variable {c : RetentionProgramCase} {m : C73RetentionManifest} {run : RetentionRun} {h : Head}

/-- The head before the first pass. -/
def startHead (c : RetentionProgramCase) (run : RetentionRun) : Head :=
  ⟨instants c.events, startTime c, run⟩

/-- The next pass is clear, and at the end the classified byte-time is finite. -/
def HeadClear (c : RetentionProgramCase) (m : C73RetentionManifest) (h : Head) : Prop :=
  PassClear c m h ∧ (nextInstant c m h = none → ∀ run, closeProgram c m h.run = .ok ⟨⟩ run →
    (run.useful.add run.wasted).isFinite = true)

theorem initialTruth_total (ha : Accepted c) :
    ∃ truth, initialTruth c = .ok truth ∧ ∀ k ∈ c.stateIds, k ∈ truth := by
  have htotal (x : RetentionStateSpec) (hx : x ∈ c.states) :
      ∃ p, (do
        let lifecycle ← deriveStateLifecycle x.initialDependents
        return (x.stateId, ({ valid := true, lifecycle } : Truth)) : Except PyError _) = .ok p := by
    obtain ⟨l, hl⟩ := ha.lifecycles x hx
    exact ⟨_, Except.bind_eq_ok.mpr ⟨l, hl, rfl⟩⟩
  obtain ⟨entries, hentries⟩ := Except.mapM_total htotal
  refine ⟨.ofList entries, Except.bind_eq_ok.mpr ⟨entries, hentries, rfl⟩, fun k hk => ?_⟩
  obtain ⟨x, hx, rfl⟩ := List.mem_map.mp hk
  obtain ⟨p, hp, hxp⟩ := Except.mapM_result hentries hx
  obtain ⟨l, _, hreturn⟩ := Except.bind_eq_ok.mp hxp
  obtain rfl := Except.pure_eq_ok.mp hreturn
  exact Dict.mem_ofList (List.mem_map.mpr ⟨_, hp, rfl⟩)

theorem initRun_eq_ok (hi : initRun fingerprint c base m = .ok run) :
    validateC73BaseManifest base m = .ok ⟨⟩ ∧ m.programCaseFingerprint = fingerprint c ∧
      referenceWorkingSetBytes c = .ok m.referenceWorkingSetBytes ∧
      ∃ truth, initialTruth c = .ok truth ∧
        run = { truth, sessions := .ofList (c.sessions.map fun x => (x.sessionId, x.initiallyLive)) } := by
  unfold initRun at hi
  obtain ⟨hbase, hi⟩ := Except.then_eq_ok.mp hi
  obtain ⟨hbinds, hi⟩ := Except.then_eq_ok.mp hi
  obtain ⟨reference, hreference, hi⟩ := Except.bind_eq_ok.mp hi
  obtain ⟨hequal, hi⟩ := Except.then_eq_ok.mp hi
  obtain ⟨truth, htruth, hi⟩ := Except.bind_eq_ok.mp hi
  rw [raiseIf_eq_ok, not_not] at hbinds hequal
  refine ⟨hbase, hbinds, hequal ▸ hreference, truth, htruth, ?_⟩
  exact (Except.pure_eq_ok.mp hi).symm

theorem startHead_sound (ha : Accepted c) (hi : initRun fingerprint c base m = .ok run) :
    HeadSound c m (startHead c run) := by
  obtain ⟨_, _, _, truth, htruth, rfl⟩ := initRun_eq_ok hi
  obtain ⟨truth', htruth', hdeclared⟩ := initialTruth_total ha
  obtain rfl := Except.ok.inj (htruth.symm.trans htruth')
  refine ⟨.instants ha, Nat.zero_le _, .inl ⟨fun t => ⟨fun k r hr => ?_, hdeclared, fun k hk => ?_⟩, rfl⟩⟩
  · cases hr
  · apply Dict.mem_ofList
    rw [List.map_map]
    exact hk

/-- What follows the loop returns a result exactly when the classified byte-time is finite. -/
theorem ending_returns_iff (ha : Accepted c) (hs : HeadSound c m h) :
    Returns (do
        raiseIf (([] : List Instant) ≠ []) (PyError.assertionError
          "retention engine left external events unprocessed")
        closeProgram c m
        let run ← get
        let result ← finish m run
        return some result : RetentionM (Option RetentionPolicyResult)) h.run
          (fun answer _ => ∃ r, answer = some r) ↔
      ∀ run, closeProgram c m h.run = .ok ⟨⟩ run →
        (run.useful.add run.wasted).isFinite = true := by
  obtain ⟨run', hclose, _⟩ := (closeProgram_returns ha hs.ends hs.fits).exists
  rw [Returns.raiseIf_bind_iff, Returns.ok_bind_iff hclose, Returns.ok_forall_iff hclose,
    Returns.get_bind_iff, Returns.lift_bind_iff, ← finish_returns_iff (m := m)]
  simp only [Returns.pure_iff, Option.some.injEq, exists_eq', and_true, ne_eq, not_true_eq_false,
    not_false_eq_true, true_and]

theorem startHead_work (hempty : run.resident = ∅) :
    work (startHead c run).external + (startHead c run).run.resident.keys.length < passBound c := by
  have hkeys : run.resident.keys = [] := hempty ▸ rfl
  change work (instants c.events) + run.resident.keys.length < passBound c
  rw [work_instants, hkeys]
  exact Nat.lt_succ_self _

/-- The loop never needs more passes than the bound, and ends at a head without a next instant. -/
theorem passes_end (ha : Accepted c) (hs : HeadSound c m (startHead c run))
    (hempty : run.resident = ∅)
    (hok : passes c m (passBound c) (instants c.events) (startTime c) run = .ok left run') :
    left = some [] ∧
      ∃ h, Reaches c m (startHead c run) h ∧ nextInstant c m h = none ∧ h.run = run' := by
  have hfuel := startHead_work (c := c) hempty
  have hreturns : Returns (passes c m (passBound c) (instants c.events) (startTime c)) run
      fun _ _ => True := ⟨left, run', hok, trivial⟩
  have hclear := (passes_return_iff ha hs hfuel).mp hreturns
  have hends : Returns (passes c m (passBound c) (instants c.events) (startTime c)) run fun left s =>
      left = some [] ∧ ∃ h, Reaches c m (startHead c run) h ∧ nextInstant c m h = none ∧ h.run = s :=
    (passes_return_iff ha hs hfuel).mpr fun h hr =>
      ⟨(hclear h hr).1, fun hn => ⟨rfl, h, hr, hn, rfl⟩⟩
  obtain ⟨left', run'', hok', hpost⟩ := hends
  rw [hok, EStateM.Result.ok.injEq] at hok'
  rw [hok'.1, hok'.2]
  exact hpost

theorem runAll_eq_ok (ha : Accepted c) (hs : HeadSound c m (startHead c run))
    (hempty : run.resident = ∅) (hok : runAll c m run = .ok answer run') :
    ∃ h, Reaches c m (startHead c run) h ∧ nextInstant c m h = none ∧
      ∃ r, closeProgram c m h.run = .ok ⟨⟩ run' ∧ answer = some r ∧ finish m run' = .ok r := by
  unfold runAll at hok
  obtain ⟨left, run₁, hpasses, hrest⟩ := bind_eq_ok.mp hok
  obtain ⟨rfl, h, hr, hn, rfl⟩ := passes_end ha hs hempty hpasses
  dsimp only at hrest
  obtain ⟨_, run₂, hraise, hrest⟩ := bind_eq_ok.mp hrest
  obtain ⟨-, rfl⟩ := lift_eq_ok.mp hraise
  obtain ⟨_, run₃, hclose, hrest⟩ := bind_eq_ok.mp hrest
  rw [get_bind_apply] at hrest
  obtain ⟨r, run₄, hlift, hrest⟩ := bind_eq_ok.mp hrest
  obtain ⟨hfinish, rfl⟩ := lift_eq_ok.mp hlift
  obtain ⟨rfl, rfl⟩ := pure_eq_ok.mp hrest
  exact ⟨h, hr, hn, r, hclose, rfl, hfinish⟩

/-- The run returns a result exactly when every head that it reaches is clear, and never runs out of
passes. -/
theorem runAll_returns_iff (ha : Accepted c) (hs : HeadSound c m (startHead c run))
    (hempty : run.resident = ∅) :
    ((∃ r run', runAll c m run = .ok (some r) run') ↔
      ∀ h, Reaches c m (startHead c run) h → HeadClear c m h) ∧
      ∀ run', runAll c m run ≠ .ok none run' := by
  constructor
  · have hreturns : (∃ r run', runAll c m run = .ok (some r) run') ↔
        Returns (runAll c m) run (fun answer _ => ∃ r, answer = some r) := by
      constructor
      · exact fun ⟨r, run', hok⟩ => ⟨some r, run', hok, r, rfl⟩
      · exact fun ⟨_, run', hok, r, hr⟩ => ⟨r, run', hr ▸ hok⟩
    unfold runAll at hreturns ⊢
    rw [hreturns, Returns.bind_iff]
    refine (passes_return_iff ha hs (startHead_work hempty)).trans ?_
    refine forall_congr' fun h => forall_congr' fun hr => and_congr_right fun _ => ?_
    exact imp_congr_right fun _ => ending_returns_iff ha (hs.reaches ha hr)
  · intro run' hok
    obtain ⟨_, _, _, hrest⟩ := runAll_eq_ok ha hs hempty hok
    obtain ⟨_, _, hsome, _⟩ := hrest
    cases hsome

end Whole

section Programs
variable {c : RetentionProgramCase} {m : C73RetentionManifest} {run : RetentionRun}
  {base : C7ExperimentManifest} {fingerprint : RetentionProgramCase → String}

theorem runRetentionProgram_eq_ok (hi : initRun fingerprint c base m = .ok run) :
    runRetentionProgram fingerprint c base m = .ok answer ↔
      ∃ run', runAll c m run = .ok answer run' := by
  unfold runRetentionProgram
  rw [hi, Except.ok_bind]
  cases runAll c m run with
  | ok a s => simp only [Except.ok.injEq, EStateM.Result.ok.injEq, exists_and_left, exists_eq', and_true]
  | error e s => simp only [reduceCtorEq, exists_false]

theorem initRun_empty (hi : initRun fingerprint c base m = .ok run) : run.resident = ∅ := by
  obtain ⟨_, _, _, truth, _, rfl⟩ := initRun_eq_ok hi
  rfl

/-- A program that was accepted, with a manifest bound to it, returns a result exactly when every
head that its loop reaches is clear; the loop always ends. -/
theorem retention_returns_iff (hc : c.construct = .ok ⟨⟩)
    (hi : initRun fingerprint c base m = .ok run) :
    ((∃ r, runRetentionProgram fingerprint c base m = .ok (some r)) ↔
      ∀ h, Reaches c m (startHead c run) h → HeadClear c m h) ∧
      runRetentionProgram fingerprint c base m ≠ .ok none := by
  have ha := construct_accepted hc
  have hempty := initRun_empty hi
  obtain ⟨hreturns, hnever⟩ := runAll_returns_iff ha (startHead_sound ha hi) hempty
  simp only [runRetentionProgram_eq_ok hi, ne_eq, not_exists]
  exact ⟨hreturns, hnever⟩

/-- A digest of the right form. -/
def digest : String := "".pushn 'a' 64

def gapParameters (ratio : CacheCapacityRatio) : List (String × Number) :=
  [("cache_capacity_ratio", ratio.number), ("state_tokens", .int 16),
    ("tool_gap_seconds", .int 5), ("tool_return_probability", .int 1)]

def gapManifest (ratio : CacheCapacityRatio) : C7ExperimentManifest where
  fingerprint := digest
  series := .p2ToolGapRetention
  parameters := .ofList (gapParameters ratio)
  parameterSources := .ofList ((gapParameters ratio).map fun p => (p.1, .src4))

def boundManifest (policy : RetentionPolicyID) (ratio : CacheCapacityRatio) (states : Nat) :
    C73RetentionManifest where
  baseC7ManifestFingerprint := digest
  retentionPolicyId := policy
  ttlSeconds := none
  programCaseFingerprint := digest
  referenceWorkingSetBytes := states * c73DefaultStateBytes
  cacheCapacityRatio := ratio
  capacityBytes := ratio.scaled (states * c73DefaultStateBytes)

/-- One State that is admitted at the start. -/
def singleProgram (programEnd : Time) : RetentionProgramCase where
  programId := "program"
  sessions := [{ sessionId := "session" }]
  states := [
    { stateId := "a", sessionId := "session", admissionOrdinal := 0, initialDependents := [.active] }]
  events := [⟨"first", .zero, 0, .admission "a"⟩]
  programStartSeconds := .zero
  programEndSeconds := programEnd

/-- Two States that are admitted at one instant, and the first of them again. -/
def batchProgram : RetentionProgramCase where
  programId := "program"
  sessions := [{ sessionId := "session" }]
  states := [
    { stateId := "a", sessionId := "session", admissionOrdinal := 0, initialDependents := [.active] },
    { stateId := "b", sessionId := "session", admissionOrdinal := 1, initialDependents := [.active] }]
  events := [⟨"first", .zero, 0, .admission "a"⟩, ⟨"second", .zero, 1, .admission "b"⟩,
    ⟨"again", .zero, 2, .admission "a"⟩]
  programStartSeconds := .zero
  programEndSeconds := .zero

theorem ok_of_isSome {x : Except ε α} {f : α → Option β}
    (h : (x.toOption.bind f).isSome = true) : ∃ a b, x = .ok a ∧ f a = some b := by
  cases x with
  | error e => cases h
  | ok a =>
    obtain ⟨b, hb⟩ := Option.isSome_iff_exists.mp h
    exact ⟨a, b, rfl, hb⟩

/-- Four States admitted at one instant, the first of them twice and then again after a reuse of
another. -/
def readmittedProgram : RetentionProgramCase where
  programId := "program"
  sessions := [{ sessionId := "session" }]
  states := [
    { stateId := "a", sessionId := "session", admissionOrdinal := 0, initialDependents := [.active] },
    { stateId := "b", sessionId := "session", admissionOrdinal := 1, initialDependents := [.active] },
    { stateId := "c", sessionId := "session", admissionOrdinal := 2, initialDependents := [.active] },
    { stateId := "d", sessionId := "session", admissionOrdinal := 3, initialDependents := [.active] }]
  events := [⟨"first", .zero, 0, .admission "a"⟩, ⟨"second", .zero, 1, .admission "b"⟩,
    ⟨"again", .zero, 2, .admission "a"⟩, ⟨"third", .zero, 3, .admission "c"⟩,
    ⟨"fourth", .zero, 4, .admission "d"⟩, ⟨"touch", tick 1, 0, .reuse "c" true⟩,
    ⟨"back", tick 2, 0, .admission "a"⟩]
  programStartSeconds := .zero
  programEndSeconds := tick 3

/-- A run that evicts twice, all of whose heads are clear: the repeated admission is refused before
the capacity is exceeded, and those made while it is exceeded are granted. -/
theorem readmitted_returns : ∃ run r,
    initRun (fun _ => digest) readmittedProgram (gapManifest .half)
      (boundManifest .lru .half 4) = .ok run ∧
    runRetentionProgram (fun _ => digest) readmittedProgram (gapManifest .half)
      (boundManifest .lru .half 4) = .ok (some r) ∧
    (r.audit.filter (·.kind = .evicted)).map (·.stateId) = [some "a", some "b", some "d"] ∧
    ∀ h, Reaches readmittedProgram (boundManifest .lru .half 4) (startHead readmittedProgram run) h →
      HeadClear readmittedProgram (boundManifest .lru .half 4) h := by
  have hinit : ((initRun (fun _ => digest) readmittedProgram (gapManifest .half)
      (boundManifest .lru .half 4)).toOption.bind some).isSome = true := by decide +kernel
  have hresult : ((runRetentionProgram (fun _ => digest) readmittedProgram (gapManifest .half)
      (boundManifest .lru .half 4)).toOption.bind fun answer => answer.bind fun r =>
        if (r.audit.filter (·.kind = .evicted)).map (·.stateId) = [some "a", some "b", some "d"]
        then some r else none).isSome = true := by decide +kernel
  obtain ⟨run, _, hrun, _⟩ := ok_of_isSome hinit
  obtain ⟨answer, r, hanswer, hr⟩ := ok_of_isSome hresult
  obtain ⟨r, rfl, hevicted⟩ := Option.bind_eq_some_iff.mp hr
  rw [Option.ite_none_right_eq_some] at hevicted
  have hreturns := retention_returns_iff (by decide +kernel) hrun
  exact ⟨run, r, hrun, hanswer, hevicted.1, hreturns.1.mp ⟨r, hanswer⟩⟩

/-- The record of the third admission, which is skipped, shows the overcommit of the second. -/
theorem batch_overcommits : batchProgram.construct = .ok ⟨⟩ ∧
    (boundManifest .lru .half 2).postInit = .ok ⟨⟩ ∧
    (∃ run, initRun (fun _ => digest) batchProgram (gapManifest .half)
      (boundManifest .lru .half 2) = .ok run) ∧
    runRetentionProgram (fun _ => digest) batchProgram (gapManifest .half)
      (boundManifest .lru .half 2) = .error (.assertionError
        "retention engine exposed capacity overcommit after an observable action") := by
  have hinit : ((initRun (fun _ => digest) batchProgram (gapManifest .half)
      (boundManifest .lru .half 2)).toOption.bind some).isSome = true := by decide +kernel
  obtain ⟨run, _, hrun, _⟩ := ok_of_isSome hinit
  exact ⟨by decide +kernel, by decide +kernel, ⟨run, hrun⟩, by decide +kernel⟩

end Programs

end Cadi.Retention
