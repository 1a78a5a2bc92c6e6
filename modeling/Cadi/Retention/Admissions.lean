import Cadi.Retention.Serving

namespace Cadi.Retention
open Library
set_option autoImplicit true

/-- The engine once the ground truth says that the State is produced. -/
def RetentionRun.produced (run : RetentionRun) (k : String) (t : Truth) : RetentionRun :=
  { run with truth := run.truth.set k { t with produced := true } }

/-- The code admits the State: it is valid, not resident, and the policy does not refuse it. -/
def Admits (c : RetentionProgramCase) (m : C73RetentionManifest) (run : RetentionRun)
    (k : String) : Prop :=
  ∃ t spec, run.truth.get? k = some t ∧ c.specs.get? k = some spec ∧ t.valid = true ∧
    k ∉ run.resident ∧ refusal c m (run.produced k t) spec t = .ok none

section Refusals
variable {c : RetentionProgramCase} {m : C73RetentionManifest} {run : RetentionRun} {v : Cache}

namespace Cache

/-- The State is needed by an active continuation. -/
def active (v : Cache) (k : String) : Bool := (v.truth.get? k).map (·.lifecycle) = some .active

/-- The bytes of the resident States that ordinary eviction must not take. -/
def activeBytes (v : Cache) : Nat := c73DefaultStateBytes * (v.resident.keys.filter v.active).length

theorem activeBytes_le (v : Cache) : v.activeBytes ≤ v.bytes :=
  Nat.mul_le_mul_left _ (List.length_filter_le _ _)

end Cache

theorem activeProtectedBytes_eq (ha : Accepted c) (hs : Cache.Sound c now run.cache) :
    activeProtectedBytes c run = .ok run.cache.activeBytes := by
  have hfilter : (run.resident.keys.filterM fun stateId => do
      let t ← item run.truth stateId
      return decide (t.lifecycle = .active) : Except PyError (List String)) =
      .ok (run.resident.keys.filter run.cache.active) := by
    apply Except.filterM_eq_ok
    intro k hk
    obtain ⟨t, ht⟩ := Dict.mem_iff.mp (hs.truth k (hs.declared hk))
    have ht' : run.truth.get? k = some t := ht
    simp only [item_eq_ok.mpr ht', Except.ok_bind, Cache.active, ht, Option.map_some,
      Option.some.injEq]
    rfl
  unfold activeProtectedBytes
  rw [hfilter, Except.ok_bind]
  exact ha.bytesOf fun k hk => hs.declared (List.mem_filter.mp hk).1

/-- What the policy grants when it does not refuse a State. -/
def Granted (m : C73RetentionManifest) (v : Cache) (size : Nat) (t : Truth) : Prop :=
  match m.retentionPolicyId with
  | .sessionPinning => v.bytes + size ≤ m.capacityBytes
  | .lifecycleB4 => t.lifecycle ≠ .terminal ∧
    (t.lifecycle = .active → v.activeBytes + size ≤ m.capacityBytes)
  | _ => True

/-- The policy decides; it finds a protected overcommit only where the protected bytes and the new
State exceed the capacity. -/
theorem refusal_total (ha : Accepted c) (hs : Cache.Sound c now run.cache)
    (hspec : c.specs.get? k = some spec) (hk : k ∈ c.stateIds) (t : Truth) :
    ∃ answer, refusal c m run spec t = .ok answer ∧
      (answer = none → Granted m run.cache spec.sizeBytes t) ∧
      ∀ why, answer = some why → why.1 = .admissionSkipped ∨ why.1 = .capacityInfeasible ∧
        m.capacityBytes < run.cache.bytes + spec.sizeBytes ∧
          (m.retentionPolicyId = .lifecycleB4 → t.lifecycle = .active) := by
  obtain ⟨spec', hspec', _, hsession⟩ := ha.spec hk
  obtain rfl := Option.some.inj (hspec.symm.trans (item_eq_ok.mp hspec'))
  unfold refusal Granted
  cases hp : m.retentionPolicyId with
  | sessionPinning =>
    obtain ⟨live, hlive⟩ := Dict.mem_iff.mp (hs.sessions _ hsession)
    have hlive' : run.sessions.get? spec.sessionId = some live := hlive
    simp only [item_eq_ok.mpr hlive', Except.ok_bind,
      residentBytes_eq ha fun _ hx => hs.declared hx]
    cases live with
    | false =>
      refine ⟨_, rfl, fun h => (Option.some_ne_none _ h).elim, fun why hwhy => ?_⟩
      obtain rfl := Option.some.inj hwhy
      exact .inl rfl
    | true =>
      by_cases hover : m.capacityBytes < run.cache.bytes + spec.sizeBytes
      · simp only [Bool.true_eq_false, ↓reduceIte, hover]
        refine ⟨_, rfl, fun h => (Option.some_ne_none _ h).elim, fun why hwhy => ?_⟩
        obtain rfl := Option.some.inj hwhy
        exact .inr ⟨rfl, trivial, fun h => nomatch h⟩
      · simp only [Bool.true_eq_false, ↓reduceIte, hover]
        exact ⟨none, rfl, fun _ => Nat.not_lt.mp hover, fun why hwhy => by cases hwhy⟩
  | lifecycleB4 =>
    simp only [activeProtectedBytes_eq ha hs, Except.ok_bind]
    by_cases hterm : t.lifecycle = .terminal
    · simp only [hterm, ↓reduceIte]
      refine ⟨_, rfl, fun h => (Option.some_ne_none _ h).elim, fun why hwhy => ?_⟩
      obtain rfl := Option.some.inj hwhy
      exact .inl rfl
    · by_cases hact : t.lifecycle = .active
      · by_cases hover : m.capacityBytes < run.cache.activeBytes + spec.sizeBytes
        · simp only [hact, reduceCtorEq, ↓reduceIte, ne_eq, not_true_eq_false, hover]
          refine ⟨_, rfl, fun h => (Option.some_ne_none _ h).elim, fun why hwhy => ?_⟩
          obtain rfl := Option.some.inj hwhy
          exact .inr ⟨rfl, hover.trans_le (Nat.add_le_add_right (Cache.activeBytes_le _) _),
            fun _ => trivial⟩
        · simp only [hact, reduceCtorEq, ↓reduceIte, ne_eq, not_true_eq_false, hover]
          exact ⟨none, rfl, fun _ => ⟨fun h => (nomatch h), fun _ => Nat.not_lt.mp hover⟩,
            fun why hwhy => by cases hwhy⟩
      · simp only [hterm, hact, ↓reduceIte, ne_eq, not_false_eq_true]
        exact ⟨none, rfl, fun _ => ⟨trivial, fun h => h.elim⟩,
          fun why hwhy => by cases hwhy⟩
  | _ =>
    dsimp only
    split
    · refine ⟨_, rfl, fun h => (Option.some_ne_none _ h).elim, fun why hwhy => ?_⟩
      obtain rfl := Option.some.inj hwhy
      exact .inl rfl
    · exact ⟨none, rfl, fun _ => trivial, fun why hwhy => by cases hwhy⟩

end Refusals

section Admissions
variable {c : RetentionProgramCase} {m : C73RetentionManifest} {run : RetentionRun} {now : Time}

theorem makeResident_returns (m : C73RetentionManifest) (k : String) (run : RetentionRun)
    (he : e ∈ c.events) (hphase : e.phase = 6) :
    ∃ ordinal, admissionOccurrenceOrdinal c e = .ok ordinal ∧
      makeResident c m e k run = .ok ⟨⟩ { run with resident := run.resident.set k {
        intervalStartSeconds := e.timeSeconds, lastTouchTimeSeconds := e.timeSeconds,
        admissionTimeSeconds := e.timeSeconds, admissionOrdinal := ordinal,
        expirySeconds := expiryOf m e.timeSeconds } } := by
  have hmem : e ∈ (c.events.filter (·.phase = 6)).insertionSort fun a b => a.key ≤ b.key :=
    (List.perm_insertionSort _ _).mem_iff.mpr (List.mem_filter.mpr ⟨he, decide_eq_true hphase⟩)
  have hfound : ∃ ordinal, admissionOccurrenceOrdinal c e = .ok ordinal := by
    unfold admissionOccurrenceOrdinal
    dsimp only
    split
    · exact ⟨_, rfl⟩
    · next hnone =>
      rw [List.findIdx?_eq_none_iff] at hnone
      exact absurd rfl (of_decide_eq_false (hnone e hmem))
  obtain ⟨ordinal, hordinal⟩ := hfound
  refine ⟨ordinal, hordinal, ?_⟩
  unfold makeResident
  rw [hordinal]
  rfl

/-- What an admission that succeeds does to the cache. -/
structure Placed (c : RetentionProgramCase) (m : C73RetentionManifest) (e : RetentionEvent)
    (k : String) (t : Truth) (v w : Cache) : Prop where
  placed : ∃ r, w = (v.setTruth k { t with produced := true }).place k r ∧
    r.intervalStartSeconds = e.timeSeconds ∧ r.admissionTimeSeconds = e.timeSeconds ∧
    r.expirySeconds = expiryOf m e.timeSeconds ∧ r.lastTouchTimeSeconds = e.timeSeconds ∧
    admissionOccurrenceOrdinal c e = .ok r.admissionOrdinal
  truth : v.truth.get? k = some t
  valid : t.valid = true
  absent : k ∉ v.resident
  granted : ∃ size, c73DefaultStateBytes = size ∧ Granted m v size t

/-- What a refused admission leaves of the cache. -/
structure Refused (k : String) (t : Truth) (m : C73RetentionManifest) (v w : Cache) : Prop where
  truth : w.truth = v.truth.set k { t with produced := true }
  sessions : w.sessions = v.sessions
  resident : w.resident = v.resident
  known : v.truth.get? k = some t
  marks : ∃ now kind, kind ≠ .admitted ∧ w.marks = v.marks ++ [(now, some k, kind)]
  quiet : (w.outcome = v.outcome ∧ ∃ now, w.marks = v.marks ++ [(now, some k, .admissionSkipped)]) ∨
    (∃ size, c73DefaultStateBytes = size ∧ m.capacityBytes < v.bytes + size) ∧ t.valid = true ∧
      k ∉ v.resident ∧ (m.retentionPolicyId = .lifecycleB4 → t.lifecycle = .active)

theorem activeBytes_produced (hs : v.truth.get? k = some t) :
    (Cache.setTruth v k { t with produced := true }).activeBytes = v.activeBytes := by
  unfold Cache.activeBytes
  congr 2
  apply List.filter_congr
  intro x _
  unfold Cache.active
  rw [Cache.setTruth_truth, Dict.get?_set]
  split
  · next hx =>
    subst hx
    rw [hs]
    rfl
  · rfl

theorem granted_produced (hs : v.truth.get? k = some t) :
    Granted m (Cache.setTruth v k { t with produced := true }) size t ↔ Granted m v size t := by
  unfold Granted
  rw [activeBytes_produced hs, Cache.setTruth_bytes]

theorem admitEvent_admits (ha : Accepted c) (hs : Cache.Sound c now run.cache)
    (hmem : e ∈ c.events) (he : EventDeclared c e) (hact : e.action = .admission k)
    (h : Admits c m run k) :
    ∃ run' t, admitEvent c m e run = .ok (some k) run' ∧ Placed c m e k t run.cache run'.cache := by
  obtain ⟨t, spec, ht, hspec, hvalid, hout, hgrant⟩ := h
  have hphase : e.phase = 6 := by rw [RetentionEvent.phase, hact]; rfl
  obtain ⟨ordinal, hordinal, hmake⟩ := makeResident_returns m k (run.produced k t) hmem hphase
  have hk : k ∈ c.stateIds := he.state k (by rw [RetentionEvent.stateId?, hact])
  obtain ⟨spec', hspec', hsize, _⟩ := ha.spec hk
  obtain rfl := Option.some.inj (hspec.symm.trans (item_eq_ok.mp hspec'))
  have hadmit : ∃ run', admitState c m e k run = .ok ⟨⟩ run' ∧ run'.cache =
      (run.cache.setTruth k { t with produced := true }).place k {
        intervalStartSeconds := e.timeSeconds, lastTouchTimeSeconds := e.timeSeconds,
        admissionTimeSeconds := e.timeSeconds, admissionOrdinal := ordinal,
        expirySeconds := expiryOf m e.timeSeconds } := by
    have hret : Returns (admitState c m e k) run fun _ run' => run'.cache =
        (run.cache.setTruth k { t with produced := true }).place k {
          intervalStartSeconds := e.timeSeconds, lastTouchTimeSeconds := e.timeSeconds,
          admissionTimeSeconds := e.timeSeconds, admissionOrdinal := ordinal,
          expirySeconds := expiryOf m e.timeSeconds } := by
      unfold admitState
      apply Returns.lift_bind hspec'
      rw [Returns.get_bind_iff]
      apply Returns.lift_bind (item_eq_ok.mpr ht)
      rw [Returns.modify_bind_iff]
      rw [if_neg (Bool.not_eq_false _ ▸ hvalid), if_neg hout, Returns.get_bind_iff]
      apply Returns.lift_bind hgrant
      exact ⟨⟨⟩, _, hmake, rfl⟩
    obtain ⟨⟨⟩, run', hrun', hcache⟩ := hret
    exact ⟨run', hrun', hcache⟩
  obtain ⟨run', hrun', hcache⟩ := hadmit
  have hgrows : run.resident.keys.length < run'.resident.keys.length := by
    have hres : run'.resident = run.resident.set k _ := congrArg Cache.resident hcache
    rw [hres, Dict.keys_set_new hout, List.length_append]
    exact Nat.lt_succ_self _
  refine ⟨run', t, ?_, ⟨⟨_, hcache, rfl, rfl, rfl, rfl, hordinal⟩, ht, hvalid, hout, spec.sizeBytes,
    hsize.symm, ?_⟩⟩
  · unfold admitEvent
    rw [hact]
    refine bind_eq_ok.mpr ⟨run, run, rfl, bind_eq_ok.mpr ⟨⟨⟩, run', hrun', ?_⟩⟩
    refine bind_eq_ok.mpr ⟨run', run', rfl, ?_⟩
    rw [if_pos hgrows]
    rfl
  · have hsp : Cache.Sound c now (run.produced k t).cache := hs.setTruth
    obtain ⟨answer, hanswer, hnone, _⟩ := refusal_total (m := m) ha hsp hspec hk t
    rw [hgrant] at hanswer
    exact (granted_produced ht).mp (hnone (Except.ok.inj hanswer).symm)

theorem Leaves.exists {x : RetentionM Unit} (h : Leaves x run v) :
    ∃ run', x run = .ok ⟨⟩ run' ∧ run'.cache = v := by
  obtain ⟨⟨⟩, run', hrun', hcache⟩ := h
  exact ⟨run', hrun', hcache⟩

/-- An admission that the code does not grant is recorded, which shows an overcommit. -/
theorem admitEvent_refuses (ha : Accepted c) (hs : Cache.Sound c now run.cache)
    (he : EventDeclared c e) (hact : e.action = .admission k) (h : ¬ Admits c m run k) :
    ∃ t run', Refused k t m run.cache run'.cache ∧
      ∀ post : Option String → RetentionRun → Prop,
        Returns (admitEvent c m e) run post ↔ Cache.Fits m run.cache ∧ post none run' := by
  have hk : k ∈ c.stateIds := he.state k (by rw [RetentionEvent.stateId?, hact])
  obtain ⟨t, ht⟩ := Dict.mem_iff.mp (hs.truth k hk)
  obtain ⟨spec, hspec, hsize, _⟩ := ha.spec hk
  have ht' : run.truth.get? k = some t := ht
  have hsp : Cache.Sound c now (run.produced k t).cache := hs.setTruth
  have hsame : ¬ run.resident.keys.length < (run.produced k t).resident.keys.length :=
    Nat.lt_irrefl _
  -- the admission ends with a record, in one of three ways
  have hcases : ∃ run₁ kind reason, run₁.resident = run.resident ∧
      Refused k t m run.cache (run₁.cache.mark e.timeSeconds kind k) ∧
      ∀ post : Unit → RetentionRun → Prop, Returns (admitState c m e k) run post ↔
        Returns (record c m e.timeSeconds kind k reason) run₁ post := by
    obtain ⟨after, hafter, hunfold⟩ : ∃ after : Option (RetentionAuditKind × String) → RetentionM Unit,
        (∀ why, after (some why) = refuse c m e.timeSeconds k why) ∧
        ∀ post : Unit → RetentionRun → Prop, Returns (admitState c m e k) run post ↔
          Returns (if t.valid = false then
              record c m e.timeSeconds .admissionSkipped k "INVALID_STATE"
            else if k ∈ run.resident then
              record c m e.timeSeconds .admissionSkipped k "ALREADY_RESIDENT"
            else do
              let run ← get
              let why ← refusal c m run spec t
              after why) (run.produced k t) post := by
      refine ⟨?after, ?some, fun post => ?unfold⟩
      case unfold =>
        unfold admitState
        rw [Returns.lift_bind_iff]
        simp only [hspec, Except.ok.injEq, exists_eq_left', Returns.get_bind_iff]
        rw [Returns.lift_bind_iff]
        simp only [item_eq_ok, ht', Option.some.injEq, exists_eq_left', Returns.modify_bind_iff]
        exact Iff.rfl
      case some => exact fun _ => rfl
    have hskip (reason : String) : Refused k t m run.cache
        ((run.produced k t).cache.mark e.timeSeconds .admissionSkipped k) :=
      ⟨rfl, rfl, rfl, ht, ⟨_, _, by decide, rfl⟩, .inl ⟨rfl, _, rfl⟩⟩
    by_cases hvalid : t.valid = false
    · refine ⟨run.produced k t, .admissionSkipped, "INVALID_STATE", rfl, hskip "", fun post => ?_⟩
      rw [hunfold, if_pos hvalid]
    · by_cases hin : k ∈ run.resident
      · refine ⟨run.produced k t, .admissionSkipped, "ALREADY_RESIDENT", rfl, hskip "", fun post => ?_⟩
        rw [hunfold, if_neg hvalid, if_pos hin]
      · obtain ⟨answer, hanswer, _, hwhy⟩ := refusal_total (m := m) ha hsp (item_eq_ok.mp hspec) hk t
        cases answer with
        | none =>
          refine absurd ⟨t, spec, ht, item_eq_ok.mp hspec, ?_, hin, hanswer⟩ h
          exact Bool.eq_true_of_not_eq_false hvalid
        | some why =>
          have hpost (post : Unit → RetentionRun → Prop) : Returns (admitState c m e k) run post ↔
              Returns (refuse c m e.timeSeconds k why) (run.produced k t) post := by
            rw [hunfold, if_neg hvalid, if_neg hin, Returns.get_bind_iff, Returns.lift_bind_iff]
            simp only [hanswer, Except.ok.injEq, exists_eq_left', hafter]
          rcases hwhy why rfl with hkind | ⟨hkind, hover, hactive⟩
          · refine ⟨run.produced k t, why.1, why.2, rfl, hkind ▸ hskip "", fun post => ?_⟩
            rw [hpost, refuse, if_neg (by rw [hkind]; decide)]
          · refine ⟨{ run.produced k t with capacityOutcome := .capacityInfeasible }, why.1, why.2, rfl,
              ⟨rfl, rfl, rfl, ht, ⟨_, _, by rw [hkind]; decide, rfl⟩, .inr ⟨⟨_, hsize.symm, hover⟩,
                Bool.eq_true_of_not_eq_false hvalid, hin, hactive⟩⟩, fun post => ?_⟩
            rw [hpost, refuse, if_pos hkind, markInfeasible, Returns.modify_bind_iff, hkind]
  obtain ⟨run₁, kind, reason, hres, hrefused, hadmit⟩ := hcases
  have hres' : run₁.cache.resident = run.cache.resident := hres
  have hd : ∀ x ∈ run₁.cache.resident, x ∈ c.stateIds := fun x hx => hs.declared (hres' ▸ hx)
  have hfits : Cache.Fits m run₁.cache ↔ Cache.Fits m run.cache := by
    unfold Cache.Fits Cache.bytes
    rw [hres']
  refine ⟨t, run₁.recorded m e.timeSeconds kind k reason, recorded_cache ▸ hrefused, fun post => ?_⟩
  have hlen : ¬ run.resident.keys.length <
      (run₁.recorded m e.timeSeconds kind k reason).resident.keys.length := by
    change ¬ run.resident.keys.length < run₁.resident.keys.length
    rw [hres]
    exact Nat.lt_irrefl _
  unfold admitEvent
  simp only [hact]
  rw [Returns.get_bind_iff, Returns.bind_iff, hadmit, record_returns_iff ha hd, hfits,
    Returns.get_bind_iff, if_neg hlen, Returns.pure_iff]

end Admissions

end Cadi.Retention
