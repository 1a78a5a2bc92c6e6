import Cadi.Retention.Completion

namespace Cadi.Retention
open Library
set_option autoImplicit true

/-- The counters of the reuses and the validity of each State. -/
structure Tally where
  eligible : Nat
  consumed : Nat
  rejected : Nat
  valid : String → Option Bool

def RetentionRun.tally (run : RetentionRun) : Tally where
  eligible := run.eligibleReuseOpportunities
  consumed := run.consumedReuseOpportunities
  rejected := run.semanticRejectionCount
  valid k := (run.truth.get? k).map (·.valid)

section Still
variable {c : RetentionProgramCase} {m : C73RetentionManifest}

/-- The computation leaves the tally as it is. -/
def Still (x : RetentionM α) : Prop :=
  Within (fun _ => True) (fun s s' : RetentionRun => s'.tally = s.tally) x

theorem Still.bind {x : RetentionM α} {f : α → RetentionM β} (hx : Still x) (hf : ∀ a, Still (f a)) :
    Still (x >>= f) :=
  Within.bind (fun _ _ _ h h' => h'.trans h) hx hf

theorem Still.pure : Still (pure a : RetentionM α) := Within.pure fun _ => rfl

theorem Still.get_bind {f : RetentionRun → RetentionM β} (hf : ∀ s, Still (f s)) :
    Still (get >>= f) :=
  Within.get_bind fun s _ => hf s

theorem Still.lift_bind {x : Except PyError α} {f : α → RetentionM β} (hf : ∀ a, Still (f a)) :
    Still (liftM x >>= f) :=
  Within.lift_bind (R := fun s s' : RetentionRun => s'.tally = s.tally) (fun _ => rfl)
    fun a _ => hf a

theorem Still.lift {x : Except PyError α} : Still (liftM x : RetentionM α) :=
  Within.lift (R := fun s s' : RetentionRun => s'.tally = s.tally) fun _ => rfl

theorem Still.modify {g : RetentionRun → RetentionRun} (hg : ∀ s, (g s).tally = s.tally) :
    Still (modify g : RetentionM PUnit) := Within.modify fun s _ => ⟨trivial, hg s⟩

theorem Still.forM {l : List ι} {body : ι → RetentionM PUnit} (hbody : ∀ i, Still (body i)) :
    Still (l.forM body) :=
  Within.forM (fun _ => rfl) (fun _ _ _ h h' => h'.trans h) fun i _ => hbody i

theorem Still.of_ok {run run' : RetentionRun} {x : RetentionM α} (h : Still x) (hx : x run = .ok a run') :
    run'.tally = run.tally := (Within.of_ok h trivial hx).2

theorem tally_truth {run : RetentionRun} (k : String) {t t' : Truth}
    (h : run.truth.get? k = some t) (hv : t'.valid = t.valid) :
    ({ run with truth := run.truth.set k t' } : RetentionRun).tally = run.tally := by
  unfold RetentionRun.tally
  congr 1
  funext x
  dsimp only
  rw [Dict.get?_set]
  split
  · next hx =>
    subst hx
    rw [h, Option.map_some, Option.map_some, hv]
  · rfl

theorem truth_still {f : Truth → Truth} {rest : RetentionRun → Truth → RetentionM β}
    (hf : ∀ t, (f t).valid = t.valid) (hrest : ∀ run t, Still (rest run t)) :
    Still (do
      let run ← get
      let t ← item run.truth k
      modify fun run => { run with truth := run.truth.set k (f t) }
      rest run t) := by
  intro run _
  apply Ends.get_bind
  apply Ends.lift_bind ⟨trivial, rfl⟩
  intro t ht
  apply Ends.modify_bind
  refine (hrest run t _ trivial).mono fun s hs => ⟨trivial, ?_⟩
  exact hs.2.trans (tally_truth k (item_eq_ok.mp ht) (hf t))

theorem record_still : Still (record c m now kind k reason) :=
  Still.get_bind fun _ => Still.lift_bind fun _ => Still.bind (Still.modify fun _ => rfl) fun _ => .lift

theorem closeInterval_still : Still (closeInterval c k now reason remove) :=
  Still.get_bind fun _ => Still.lift_bind fun _ => Still.lift_bind fun _ => Still.lift_bind fun _ =>
    Still.modify fun _ => rfl

theorem markInfeasible_still : Still (markInfeasible c m now k reason) :=
  Still.bind (Still.modify fun _ => rfl) fun _ => record_still

theorem closeRecord_still :
    Still (do closeInterval c k now reason remove; record c m t kind sid text) :=
  Still.bind closeInterval_still fun _ => record_still

theorem updateEvent_still : Still (updateEvent c m e) := by
  unfold updateEvent
  split
  · exact Still.lift_bind fun lifecycle =>
      truth_still (f := fun t => { t with lifecycle }) (fun _ => rfl) fun _ _ => record_still
  · exact Still.bind (Still.modify fun _ => rfl) fun _ => record_still
  · exact .pure

theorem policyReleases_still : Still (policyReleases c m now) :=
  Still.get_bind fun _ => Still.lift_bind fun _ => Still.forM fun _ => closeRecord_still

theorem ttlExpiries_still : Still (ttlExpiries c m now) := by
  unfold ttlExpiries
  split
  · refine Still.get_bind fun _ => Still.forM fun _ => ?_
    exact Still.get_bind fun _ => Still.lift_bind fun _ => Still.lift_bind fun _ => closeRecord_still
  · exact .pure

theorem admit_still : Still (admitState c m e k) := by
  refine Still.lift_bind fun spec => truth_still (f := fun t => { t with produced := true })
    (fun _ => rfl) fun run t => ?_
  split
  · exact record_still
  · split
    · exact record_still
    · refine Still.get_bind fun _ => Still.lift_bind fun answer => ?_
      cases answer with
      | some why =>
        dsimp only
        unfold refuse
        split
        · exact markInfeasible_still
        · exact record_still
      | none => exact Still.lift_bind fun _ => Still.modify fun _ => rfl

theorem admitAll_still (events : List RetentionEvent) : Still (admitAll c m events) := by
  induction events with
  | nil => exact .pure
  | cons e events ih =>
    refine Still.bind ?_ fun _ => Still.bind ih fun _ => .pure
    unfold admitEvent
    split
    · exact Still.get_bind fun _ => Still.bind admit_still fun _ => Still.get_bind fun _ => .pure
    · exact .pure

theorem evictions_still (residents : Nat) : Still (evictions c m now residents) := by
  induction residents with
  | zero => exact .pure
  | succ residents ih =>
    refine Still.get_bind fun _ => Still.lift_bind fun _ => ?_
    split
    · exact .pure
    · refine Still.lift_bind fun next => ?_
      cases next with
      | none => exact .pure
      | some eviction => exact Still.bind closeInterval_still fun _ => Still.bind ih fun _ => .pure

theorem shrink_still : Still (shrink c m now) := by
  refine Still.get_bind fun _ => ?_
  split
  · exact Still.lift_bind fun _ => Still.lift_bind fun _ => .pure
  · exact evictions_still _
  · exact evictions_still _
  · refine Still.lift_bind fun _ => ?_
    dsimp only
    split
    · exact Still.bind markInfeasible_still fun _ => evictions_still _
    · exact evictions_still _

theorem conclude_still : Still (conclude c m now admitted) := by
  refine Still.bind (Still.bind shrink_still fun _ => Still.bind (Still.forM fun _ => record_still)
    fun _ => Still.forM fun _ => ?_) fun _ => record_still
  unfold auditAdmission
  refine Still.get_bind fun _ => ?_
  split
  · exact record_still
  · split
    · exact record_still
    · exact .pure

theorem closeProgram_still : Still (closeProgram c m) :=
  Still.get_bind fun _ => Still.bind (Still.forM fun _ => closeRecord_still) fun _ => record_still

end Still

section Passes
variable {c : RetentionProgramCase} {m : C73RetentionManifest} {run run' : RetentionRun}

/-- The validity of the States after an event. -/
def invalidated (valid : String → Option Bool) (e : RetentionEvent) : String → Option Bool :=
  fun k => (valid k).map (· && e.action ≠ .invalidate k)

/-- The opportunities that an event offers. -/
def opportunities (e : RetentionEvent) : Nat :=
  match e.action with
  | .reuse _ _ => 1
  | _ => 0

/-- The opportunities that an event offers and that are rejected. -/
def rejections (valid : String → Option Bool) (e : RetentionEvent) : Nat :=
  match e.action with
  | .reuse k semanticValid => if (valid k).any (semanticValid && ·) then 0 else 1
  | _ => 0

/-- The reuses of the listed events turn the first tally into the second. -/
structure Serves (events : List RetentionEvent) (v w : Tally) : Prop where
  valid : w.valid = v.valid
  eligible : w.eligible = v.eligible + (events.map opportunities).sum
  rejected : w.rejected = v.rejected + (events.map (rejections v.valid)).sum
  accounted : w.consumed + w.rejected ≤ v.consumed + v.rejected + (events.map opportunities).sum

theorem Serves.nil (h : w = v) : Serves [] v w := by
  subst h
  exact ⟨rfl, rfl, rfl, le_rfl⟩

theorem Serves.append (h : Serves l u v) (h' : Serves l' v w) : Serves (l ++ l') u w := by
  obtain ⟨hv, he, hr, ha⟩ := h
  obtain ⟨hv', he', hr', ha'⟩ := h'
  rw [hv] at hr'
  refine ⟨hv'.trans hv, ?_, ?_, ?_⟩
  · rw [List.map_append, List.sum_append]
    omega
  · rw [List.map_append, List.sum_append]
    omega
  · rw [List.map_append, List.sum_append]
    omega

theorem settleEvent_tally (hok : settleEvent c m e run = .ok ⟨⟩ run') :
    run'.tally = { run.tally with valid := invalidated run.tally.valid e } := by
  unfold settleEvent at hok
  cases hact : e.action with
  | invalidate k =>
    have hok : processInvalidation c m e k run = .ok ⟨⟩ run' := by
      simpa only [hact] using hok
    unfold processInvalidation at hok
    rw [get_bind_apply] at hok
    obtain ⟨t, run₁, hitem, hok⟩ := bind_eq_ok.mp hok
    obtain ⟨ht, rfl⟩ := lift_eq_ok.mp hitem
    obtain ⟨_, run₂, hmodify, hok⟩ := bind_eq_ok.mp hok
    obtain rfl := modify_eq_ok.mp hmodify
    have hstill : Still (do
        if k ∈ run.resident then closeInterval c k e.timeSeconds .invalidation true
        record c m e.timeSeconds .invalidated k "COMMON_INVALID_RELEASE") := by
      dsimp only
      split
      · exact closeRecord_still
      · exact record_still
    rw [hstill.of_ok hok]
    unfold RetentionRun.tally invalidated
    congr 1
    funext x
    dsimp only
    rw [Dict.get?_set]
    split
    · next hx =>
      subst hx
      have hsame : decide (e.action ≠ .invalidate k) = false := by
        rw [decide_eq_false_iff_not, not_not, hact]
      rw [item_eq_ok.mp ht, Option.map_some, Option.map_some, Option.map_some, hsame, Bool.and_false]
    · next hx =>
      have hne : decide (e.action ≠ .invalidate x) = true := by
        rw [decide_eq_true_eq, hact, ne_eq, RetentionAction.invalidate.injEq]
        exact hx
      simp only [hne, Bool.and_true, Option.map_id']
  | _ =>
    have hother (x : String) : e.action ≠ .invalidate x := by
      rw [hact]
      intro h
      cases h
    rw [hact] at hok
    obtain ⟨-, rfl⟩ := pure_eq_ok.mp hok
    have hsame : invalidated run.tally.valid e = run.tally.valid := by
      funext x
      have hne : decide (e.action ≠ .invalidate x) = true := decide_eq_true (hother x)
      simp only [invalidated, hne, Bool.and_true, Option.map_id']
    rw [hsame]

theorem settles_tally {events : List RetentionEvent}
    (hok : events.forM (settleEvent c m) run = .ok ⟨⟩ run') :
    run'.tally = { run.tally with valid := events.foldl invalidated run.tally.valid } := by
  induction events generalizing run with
  | nil =>
    obtain ⟨-, rfl⟩ := pure_eq_ok.mp hok
    rfl
  | cons e events ih =>
    obtain ⟨_, run₁, hfirst, hrest⟩ := bind_eq_ok.mp hok
    rw [ih hrest, settleEvent_tally hfirst]
    rfl

theorem reuseEvent_serves (hok : reuseEvent c m e run = .ok ⟨⟩ run') :
    Serves [e] run.tally run'.tally := by
  unfold reuseEvent at hok
  cases hact : e.action with
  | reuse k semanticValid =>
    have hok : Retention.reuse c m e k semanticValid run = .ok ⟨⟩ run' := by
      simpa only [hact] using hok
    unfold Retention.reuse at hok
    obtain ⟨_, run₁, hmodify, hok⟩ := bind_eq_ok.mp hok
    obtain rfl := modify_eq_ok.mp hmodify
    rw [get_bind_apply] at hok
    obtain ⟨t, run₂, hitem, hok⟩ := bind_eq_ok.mp hok
    obtain ⟨ht, rfl⟩ := lift_eq_ok.mp hitem
    have hvalid : run.tally.valid k = some t.valid := by
      change (run.truth.get? k).map _ = _
      rw [show run.truth.get? k = some t from item_eq_ok.mp ht, Option.map_some]
    have hopportunities : ([e].map opportunities).sum = 1 := by
      simp only [List.map_cons, List.map_nil, opportunities, hact, List.sum_singleton]
    have hrejections (valid : String → Option Bool) : ([e].map (rejections valid)).sum =
        if (valid k).any (semanticValid && ·) then 0 else 1 := by
      simp only [List.map_cons, List.map_nil, rejections, hact, List.sum_singleton]
    split at hok
    · next hreject =>
      obtain ⟨_, run₃, hmodify, hok⟩ := bind_eq_ok.mp hok
      obtain rfl := modify_eq_ok.mp hmodify
      rw [record_still.of_ok hok]
      have hone : ([e].map (rejections run.tally.valid)).sum = 1 := by
        rw [hrejections, hvalid, Option.any_some, hreject]
        rfl
      refine ⟨rfl, ?_, ?_, ?_⟩
      · rw [hopportunities]
        rfl
      · rw [hone]
        rfl
      · rw [hopportunities]
        exact le_rfl
    · next haccept =>
      have hzero : ([e].map (rejections run.tally.valid)).sum = 0 := by
        rw [Bool.not_eq_false] at haccept
        rw [hrejections, hvalid, Option.any_some, haccept]
        rfl
      split at hok
      · rw [record_still.of_ok hok]
        refine ⟨rfl, ?_, ?_, ?_⟩
        · rw [hopportunities]
          rfl
        · rw [hzero]
          rfl
        · exact Nat.le_add_right _ _
      · obtain ⟨_, run₃, hmodify, hok⟩ := bind_eq_ok.mp hok
        obtain rfl := modify_eq_ok.mp hmodify
        rw [closeRecord_still.of_ok hok]
        refine ⟨rfl, ?_, ?_, ?_⟩
        · rw [hopportunities]
          rfl
        · rw [hzero]
          rfl
        · rw [hopportunities]
          change run.consumedReuseOpportunities + 1 + run.semanticRejectionCount ≤
            run.consumedReuseOpportunities + run.semanticRejectionCount + 1
          omega
  | _ =>
    rw [hact] at hok
    obtain ⟨-, rfl⟩ := pure_eq_ok.mp hok
    have hnone : opportunities e = 0 ∧ ∀ valid, rejections valid e = 0 := by
      unfold opportunities rejections
      rw [hact]
      exact ⟨rfl, fun _ => rfl⟩
    refine ⟨rfl, ?_, ?_, ?_⟩
    · rw [List.map_singleton, List.sum_singleton, hnone.1, Nat.add_zero]
    · rw [List.map_singleton, List.sum_singleton, hnone.2, Nat.add_zero]
    · exact Nat.le_add_right _ _

theorem reuses_serve {events : List RetentionEvent}
    (hok : events.forM (reuseEvent c m) run = .ok ⟨⟩ run') :
    Serves events run.tally run'.tally := by
  induction events generalizing run with
  | nil =>
    obtain ⟨-, rfl⟩ := pure_eq_ok.mp hok
    exact .nil rfl
  | cons e events ih =>
    obtain ⟨_, run₁, hfirst, hrest⟩ := bind_eq_ok.mp hok
    exact (reuseEvent_serves hfirst).append (ih hrest)

/-- Of the counters a pass changes those of the reuses, as the ground truth says. -/
theorem instant_serves (hok : instant c m now events run = .ok ⟨⟩ run') :
    Serves events { run.tally with valid := events.foldl invalidated run.tally.valid }
      run'.tally := by
  unfold instant settle serve at hok
  obtain ⟨_, run₁, hsettle, hok⟩ := bind_eq_ok.mp hok
  obtain ⟨_, run₂, hserve, hok⟩ := bind_eq_ok.mp hok
  obtain ⟨admitted, run₃, hadmit, hconclude⟩ := bind_eq_ok.mp hok
  obtain ⟨_, run₄, hsettles, hsettle⟩ := bind_eq_ok.mp hsettle
  obtain ⟨_, run₅, hupdates, hreleases⟩ := bind_eq_ok.mp hsettle
  obtain ⟨_, run₆, hexpiries, hreuses⟩ := bind_eq_ok.mp hserve
  have hupdate : Still (events.forM (updateEvent c m)) := Still.forM fun _ => updateEvent_still
  have hserves := reuses_serve hreuses
  rw [ttlExpiries_still.of_ok hexpiries, policyReleases_still.of_ok hreleases,
    hupdate.of_ok hupdates, settles_tally hsettles] at hserves
  rw [conclude_still.of_ok hconclude, (admitAll_still events).of_ok hadmit]
  exact hserves

end Passes

section Runs
variable {c : RetentionProgramCase} {m : C73RetentionManifest} {h h' : Head}

/-- The opportunities that the instants offer. -/
def offered (l : List Instant) : Nat := (l.map fun i => (i.2.map opportunities).sum).sum

/-- The opportunities of the instants that are rejected. -/
def rejectedIn (valid : String → Option Bool) : List Instant → Nat
  | [] => 0
  | i :: rest =>
    (i.2.map (rejections (i.2.foldl invalidated valid))).sum +
      rejectedIn (i.2.foldl invalidated valid) rest

/-- The opportunities counted so far and those still to come. -/
def Head.opportunities (h : Head) : Nat := h.run.tally.eligible + offered h.external

/-- The rejections counted so far and those still to come. -/
def Head.rejections (h : Head) : Nat :=
  h.run.tally.rejected + rejectedIn h.run.tally.valid h.external

/-- The rejected and the consumed opportunities are among those counted. -/
def Head.Accounted (h : Head) : Prop :=
  h.run.tally.consumed + h.run.tally.rejected ≤ h.run.tally.eligible

theorem nextInstant_cases (hn : nextInstant c m h = some ((now, events), rest)) :
    (∃ i, h.external = i :: rest ∧ i.2 = events) ∨ (rest = h.external ∧ events = []) := by
  unfold nextInstant at hn
  split at hn
  · cases hn
  · split at hn
    · next hnil =>
      simp only [Option.some.injEq, Prod.mk.injEq] at hn
      exact .inr ⟨hn.2.symm.trans hnil.symm, hn.1.2.symm⟩
    · next i l hcons =>
      split at hn
      · simp only [Option.some.injEq, Prod.mk.injEq] at hn
        exact .inl ⟨i, by rw [hcons, hn.2], hn.1.2⟩
      · simp only [Option.some.injEq, Prod.mk.injEq] at hn
        exact .inr ⟨hn.2.symm, hn.1.2.symm⟩

theorem Next.serves (hn : Next c m h h') : h'.opportunities = h.opportunities ∧
    h'.rejections = h.rejections ∧ (h.Accounted → h'.Accounted) := by
  obtain ⟨now, events, rest, run', hnext, hok, rfl⟩ := hn
  obtain ⟨hvalid, heligible, hrejected, haccounted⟩ := instant_serves hok
  unfold Head.opportunities Head.rejections Head.Accounted
  dsimp only at hvalid heligible hrejected haccounted ⊢
  rw [hvalid, heligible, hrejected]
  rcases nextInstant_cases hnext with ⟨i, hcons, rfl⟩ | ⟨rfl, rfl⟩
  · rw [hcons]
    unfold offered
    rw [List.map_cons, List.sum_cons, rejectedIn]
    refine ⟨by omega, by omega, fun h => ?_⟩
    rw [hrejected] at haccounted
    omega
  · refine ⟨rfl, rfl, fun h => ?_⟩
    rw [hrejected] at haccounted
    exact haccounted.trans h

theorem Reaches.serves (hr : Reaches c m h h') : h'.opportunities = h.opportunities ∧
    h'.rejections = h.rejections ∧ (h.Accounted → h'.Accounted) := by
  induction hr with
  | refl => exact ⟨rfl, rfl, id⟩
  | tail _ hn ih =>
    obtain ⟨ho, hr, ha⟩ := hn.serves
    exact ⟨ho.trans ih.1, hr.trans ih.2.1, fun h => ha (ih.2.2 h)⟩

end Runs

section Programs
variable {c : RetentionProgramCase} {m m₁ m₂ : C73RetentionManifest} {r r₁ r₂ : RetentionPolicyResult}
  {base base₁ base₂ : C7ExperimentManifest} {fingerprint : RetentionProgramCase → String}

/-- The validity of the States before the first event: every declared State is valid. -/
def startValidity (c : RetentionProgramCase) : String → Option Bool := fun k =>
  match initialTruth c with
  | .ok truth => (truth.get? k).map (·.valid)
  | .error _ => none

/-- The counters of a result are those of the program alone, and account for each other. -/
theorem result_counts (hc : c.construct = .ok ⟨⟩)
    (hr : runRetentionProgram fingerprint c base m = .ok (some r)) :
    r.eligibleReuseOpportunities = offered (instants c.events) ∧
      r.semanticRejectionCount = rejectedIn (startValidity c) (instants c.events) ∧
      r.consumedReuseOpportunities + r.semanticRejectionCount ≤ r.eligibleReuseOpportunities := by
  have ha := construct_accepted hc
  have hinit : ∃ run, initRun fingerprint c base m = .ok run := by
    obtain ⟨run, hi, _⟩ := Except.bind_eq_ok.mp hr
    exact ⟨run, hi⟩
  obtain ⟨run, hi⟩ := hinit
  have hsound := startHead_sound ha hi
  obtain ⟨run', hok⟩ := (runRetentionProgram_eq_ok hi).mp hr
  obtain ⟨h, hreach, hn, r', hclose, hsome, hfinish⟩ :=
    runAll_eq_ok ha hsound (initRun_empty hi) hok
  obtain rfl := Option.some.inj hsome
  obtain ⟨_, _, _, truth, htruth, rfl⟩ := initRun_eq_ok hi
  obtain ⟨hopportunities, hrejections, haccounted⟩ := hreach.serves
  have hexternal := (hsound.reaches ha hreach).finished hn
  have htally := closeProgram_still.of_ok hclose
  have hvalid : startValidity c = fun k => (truth.get? k).map (·.valid) := by
    unfold startValidity
    rw [htruth]
  unfold Head.opportunities Head.rejections Head.Accounted at *
  rw [hexternal, ← htally] at hopportunities hrejections
  rw [← htally] at haccounted
  unfold finish at hfinish
  obtain ⟨_, hfinish⟩ := Except.then_eq_ok.mp hfinish
  obtain rfl := Except.pure_eq_ok.mp hfinish
  refine ⟨?_, ?_, haccounted (Nat.zero_le _)⟩
  · exact hopportunities.trans (Nat.zero_add _)
  · rw [hvalid]
    exact hrejections.trans (Nat.zero_add _)

/-- The denominators of the reuse are the same under every two manifests. -/
theorem denominators_agree (hc : c.construct = .ok ⟨⟩)
    (h₁ : runRetentionProgram fingerprint c base₁ m₁ = .ok (some r₁))
    (h₂ : runRetentionProgram fingerprint c base₂ m₂ = .ok (some r₂)) :
    r₁.eligibleReuseOpportunities = r₂.eligibleReuseOpportunities ∧
      r₁.semanticRejectionCount = r₂.semanticRejectionCount ∧
      r₁.consumedReuseOpportunities + r₁.semanticRejectionCount ≤ r₁.eligibleReuseOpportunities ∧
      r₂.consumedReuseOpportunities + r₂.semanticRejectionCount ≤ r₂.eligibleReuseOpportunities := by
  obtain ⟨he₁, hs₁, ha₁⟩ := result_counts hc h₁
  obtain ⟨he₂, hs₂, ha₂⟩ := result_counts hc h₂
  exact ⟨he₁.trans he₂.symm, hs₁.trans hs₂.symm, ha₁, ha₂⟩

/-- A State that is reused while it is resident, rejected by the oracle, and reused once more after
its invalidation. -/
def reuseProgram : RetentionProgramCase where
  programId := "program"
  sessions := [{ sessionId := "session" }]
  states := [
    { stateId := "a", sessionId := "session", admissionOrdinal := 0, initialDependents := [.active] }]
  events := [⟨"first", .zero, 0, .admission "a"⟩, ⟨"hit", tick 1, 0, .reuse "a" true⟩,
    ⟨"rejected", tick 1, 1, .reuse "a" false⟩,
    ⟨"invalid", tick 2, 0, .invalidate "a"⟩,
    ⟨"late", tick 3, 0, .reuse "a" true⟩]
  programStartSeconds := .zero
  programEndSeconds := tick 4

theorem denominators_agree_reuse : ∃ r₁ r₂,
    runRetentionProgram (fun _ => digest) reuseProgram (gapManifest .one)
      (boundManifest .lru .one 1) = .ok (some r₁) ∧
    runRetentionProgram (fun _ => digest) reuseProgram (gapManifest .quarter)
      (boundManifest .lifecycleB4 .quarter 1) = .ok (some r₂) ∧
    r₁.eligibleReuseOpportunities = r₂.eligibleReuseOpportunities ∧
    r₁.semanticRejectionCount = r₂.semanticRejectionCount := by
  have h₁ : ((runRetentionProgram (fun _ => digest) reuseProgram (gapManifest .one)
      (boundManifest .lru .one 1)).toOption.bind id).isSome = true := by decide +kernel
  have h₂ : ((runRetentionProgram (fun _ => digest) reuseProgram (gapManifest .quarter)
      (boundManifest .lifecycleB4 .quarter 1)).toOption.bind id).isSome = true := by decide +kernel
  obtain ⟨_, r₁, h₁, rfl⟩ := ok_of_isSome h₁
  obtain ⟨_, r₂, h₂, rfl⟩ := ok_of_isSome h₂
  have hagree := denominators_agree (by decide +kernel) h₁ h₂
  exact ⟨r₁, r₂, h₁, h₂, hagree.1, hagree.2.1⟩

end Programs

end Cadi.Retention
