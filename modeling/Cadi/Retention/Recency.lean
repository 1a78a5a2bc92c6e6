import Cadi.Retention.Journal
import Cadi.Retention.WorkingSet

namespace Cadi.Retention
open Library
set_option autoImplicit true

section Touches

/-- The admissions of the program in their global order. -/
def admissions (c : RetentionProgramCase) : List RetentionEvent :=
  (c.events.filter (·.phase = 6)).insertionSort fun a b => a.key ≤ b.key

/-- The place, among all admissions, of the first admission of a State at a time. -/
def admissionPlace (c : RetentionProgramCase) (k : String) (admitted : Nat) : Option Nat :=
  (admissions c).findIdx? fun e => e.action = .admission k ∧ e.timeSeconds.units = admitted

/-- The last touch of a State after an event: a valid reuse later than its admission touches it. -/
def touchedBy (k : String) (admitted touch : Nat) (e : RetentionEvent) : Nat :=
  if e.action = .reuse k true ∧ admitted < e.timeSeconds.units then e.timeSeconds.units else touch

/-- The time of the last touch, by the events, of a State that was admitted at a time. -/
def lastTouched (events : List RetentionEvent) (k : String) (admitted : Nat) : Nat :=
  events.foldl (touchedBy k admitted) admitted

theorem lastTouched_append (events more : List RetentionEvent) (k : String) (admitted : Nat) :
    lastTouched (events ++ more) k admitted =
      more.foldl (touchedBy k admitted) (lastTouched events k admitted) := List.foldl_append

/-- Before it is admitted nothing touches a State. -/
theorem lastTouched_of_le {events : List RetentionEvent}
    (h : ∀ e ∈ events, e.timeSeconds.units ≤ admitted) : lastTouched events k admitted = admitted := by
  refine List.foldlRecOn (motive := fun touch => touch = admitted) events (touchedBy k admitted) rfl ?_
  intro touch htouch e he
  rw [touchedBy, if_neg fun hc => (h e he).not_gt hc.2]
  exact htouch

namespace Cache

/-- The time of the last record that admits the State. -/
def admittedAt (v : Cache) (k : String) : Option Nat :=
  ((v.marks.filter fun r => r.2 = (some k, .admitted)).getLast?).map Prod.fst

theorem admittedAt_mark (v : Cache) (now : Time) (kind : RetentionAuditKind) (x : Option String)
    (k : String) : (v.mark now kind x).admittedAt k =
      if x = some k ∧ kind = .admitted then some now.units else v.admittedAt k := by
  unfold admittedAt mark
  rw [List.filter_append]
  by_cases h : x = some k ∧ kind = .admitted
  · obtain ⟨rfl, rfl⟩ := h
    simp only [decide_true, List.filter_cons_of_pos, List.filter_nil, List.getLast?_append,
      List.getLast?_singleton, Option.some_or, Option.map_some, and_self, ↓reduceIte]
  · rw [if_neg h, List.filter_cons_of_neg, List.filter_nil, List.append_nil]
    simpa only [decide_eq_true_eq, Prod.mk.injEq] using h

/-- Everything resident stayed as it was, and nothing was recorded as admitted. -/
structure Prunes (v w : Cache) : Prop where
  kept : ∀ k r, w.resident.get? k = some r → v.resident.get? k = some r
  admittedAt : ∀ k, w.admittedAt k = v.admittedAt k

theorem Prunes.refl (v : Cache) : v.Prunes v := ⟨fun _ _ h => h, fun _ => rfl⟩

theorem Prunes.trans (h : Prunes u v) (h' : Prunes v w) : Prunes u w :=
  ⟨fun k r hr => h.kept k r (h'.kept k r hr), fun k => (h'.admittedAt k).trans (h.admittedAt k)⟩

theorem Prunes.mark (h : Prunes v w) (hkind : kind ≠ .admitted) : v.Prunes (w.mark now kind x) :=
  ⟨h.kept, fun k => by rw [admittedAt_mark, if_neg fun hc => hkind hc.2, h.admittedAt]⟩

theorem Prunes.drop (v : Cache) (k : String) : v.Prunes (v.drop k) :=
  ⟨fun _ _ hr => (Dict.get?_erase_eq_some_iff.mp hr).2, fun _ => rfl⟩

theorem Prunes.foldl {step : Cache → α → Cache} (h : ∀ v a, Prunes v (step v a)) (l : List α)
    (v : Cache) : v.Prunes (l.foldl step v) :=
  List.foldlRecOn l step (.refl v) fun w hw a _ => hw.trans (h w a)

theorem settle_prunes (v : Cache) (e : RetentionEvent) : v.Prunes (v.settle e) := by
  unfold settle
  split
  · next k _ =>
    split
    · apply Prunes.mark _ (by decide)
      have hset (t : Truth) : v.Prunes (v.setTruth k t) := ⟨fun _ _ h => h, fun _ => rfl⟩
      split
      · exact (hset _).trans (.drop _ _)
      · exact hset _
    · exact .refl v
  · exact .refl v

theorem update_prunes (v : Cache) (e : RetentionEvent) : v.Prunes (v.update e) := by
  unfold update
  split
  · split
    · exact Prunes.mark ⟨fun _ _ h => h, fun _ => rfl⟩ (by decide)
    · exact .refl v
  · exact Prunes.mark ⟨fun _ _ h => h, fun _ => rfl⟩ (by decide)
  · exact .refl v

theorem settled_prunes (c : RetentionProgramCase) (m : C73RetentionManifest) (now : Time)
    (events : List RetentionEvent) (v : Cache) : v.Prunes (v.settled c m now events) := by
  unfold settled
  refine ((Prunes.foldl settle_prunes events v).trans (.foldl update_prunes events _)).trans ?_
  exact .foldl (fun v k => (Prunes.drop v k).mark (by decide)) _ _

end Cache

/-- What a reuse does to a resident State. -/
def Resident.touch (k : String) (r : Resident) (e : RetentionEvent) : Resident :=
  if e.action = .reuse k true then
    { r with intervalStartSeconds := e.timeSeconds, lastTouchTimeSeconds := e.timeSeconds }
  else r

theorem Resident.touch_ordinal (k : String) (r : Resident) (e : RetentionEvent) :
    (r.touch k e).admissionOrdinal = r.admissionOrdinal := by
  unfold touch
  split <;> rfl

namespace Cache

theorem reuse_get? {v : Cache} (h : v.Working) (e : RetentionEvent) (k : String) :
    (v.reuse e).resident.get? k = (v.resident.get? k).map (Resident.touch k · e) := by
  unfold reuse Resident.touch
  cases hact : e.action with
  | reuse k' semanticValid =>
    dsimp only
    by_cases hk : k' = k
    · subst hk
      cases hr : v.resident.get? k' with
      | none =>
        rw [Option.map_none]
        split
        · split <;> exact hr
        · exact hr
      | some r =>
        obtain ⟨t, ht, hin⟩ := h k' (Dict.mem_of_get? hr)
        obtain ⟨_, hvalid, _⟩ := inWorkingSet_iff.mp hin
        rw [ht]
        cases semanticValid with
        | false =>
          simp only [Bool.false_and, ↓reduceIte, mark_resident, hr, Option.map_some,
            RetentionAction.reuse.injEq, Bool.false_eq_true, and_false]
        | true =>
          simp only [hvalid, Bool.and_self, Bool.true_eq_false, ↓reduceIte, mark_resident,
            place_resident, Dict.get?_set_self, Option.map_some]
    · have hne : ¬ RetentionAction.reuse k' semanticValid = .reuse k true := by
        rw [RetentionAction.reuse.injEq]
        exact fun he => hk he.1
      simp only [hne, ↓reduceIte, Option.map_id']
      split
      · split
        · rfl
        · split
          · rfl
          · rw [mark_resident, place_resident, Dict.get?_set, if_neg hk]
      · rfl
  | _ => simp only [reduceCtorEq, ↓reduceIte, Option.map_id']

theorem reuse_admittedAt (v : Cache) (e : RetentionEvent) (k : String) :
    (v.reuse e).admittedAt k = v.admittedAt k := by
  unfold reuse
  split
  · split
    · split
      · exact (admittedAt_mark _ _ _ _ _).trans (if_neg fun hc => by cases hc.2)
      · split
        · exact (admittedAt_mark _ _ _ _ _).trans (if_neg fun hc => by cases hc.2)
        · exact (admittedAt_mark _ _ _ _ _).trans (if_neg fun hc => by cases hc.2)
    · rfl
  · rfl

theorem served_get? (hp : m.retentionPolicyId = .lifecycleB4) {v : Cache} (h : v.Working)
    (now : Time) (events : List RetentionEvent) (k : String) :
    (v.served m now events).resident.get? k =
        (v.resident.get? k).map (fun r => events.foldl (Resident.touch k) r) ∧
      (v.served m now events).admittedAt k = v.admittedAt k := by
  have hexpire : v.expireAll m now = v := if_neg (by rw [hp]; decide)
  rw [served, hexpire]
  clear hexpire
  induction events generalizing v with
  | nil => exact ⟨by simp only [List.foldl_nil, Option.map_id'], rfl⟩
  | cons e events ih =>
    have hworking : (v.reuse e).Working := h.shrinks (reuse_shrinks v e) (reuse_truth v e)
    obtain ⟨hget, hat⟩ := ih hworking
    refine ⟨hget.trans ?_, hat.trans (reuse_admittedAt v e k)⟩
    rw [reuse_get? h, Option.map_map]
    rfl

end Cache

/-- The touches of an instant later than its admission are those of a State's last touch. -/
theorem touch_foldl {events : List RetentionEvent} {now : Time} (hlater : admitted < now.units)
    (hnow : ∀ e ∈ events, e.timeSeconds.units = now.units) (r : Resident) :
    (events.foldl (Resident.touch k) r).lastTouchTimeSeconds.units =
        events.foldl (touchedBy k admitted) r.lastTouchTimeSeconds.units ∧
      (events.foldl (Resident.touch k) r).admissionOrdinal = r.admissionOrdinal := by
  induction events generalizing r with
  | nil => exact ⟨rfl, rfl⟩
  | cons e events ih =>
    obtain ⟨htouch, hordinal⟩ := ih (fun e he => hnow e (List.mem_cons_of_mem _ he)) (r.touch k e)
    refine ⟨htouch.trans (congrArg (events.foldl _) ?_), hordinal.trans (r.touch_ordinal k e)⟩
    unfold Resident.touch touchedBy
    rw [hnow e List.mem_cons_self]
    by_cases hact : e.action = .reuse k true
    · rw [if_pos hact, if_pos ⟨hact, hlater⟩, ← hnow e List.mem_cons_self]
    · rw [if_neg hact, if_neg fun hc => hact hc.1]

end Touches

section Places
variable {c : RetentionProgramCase}

theorem construct_eventIds (h : c.construct = .ok ⟨⟩) : (c.events.map (·.eventId)).Nodup := by
  simp only [RetentionProgramCase.construct, RetentionProgramCase.postInit, Except.then_eq_ok,
    raiseIf_eq_ok, not_not] at h
  obtain ⟨-, -, -, -, -, -, -, -, -, -, -, hids, -⟩ := h
  exact hids

theorem eventId_inj (hids : (c.events.map (·.eventId)).Nodup) (he : e ∈ c.events) (hx : x ∈ c.events)
    (h : x.eventId = e.eventId) : x = e :=
  List.inj_on_of_nodup_map hids hx he h

theorem mem_instant (hi : i ∈ instants c.events) (hx : x ∈ c.events)
    (htime : x.timeSeconds.units = i.1.units) : x ∈ i.2 := by
  have hgroups := instants_groups c.events
  obtain ⟨j, hj, hxj⟩ := List.mem_flatMap.mp (hgroups.perm.mem_iff.mpr hx)
  have hij : j = i := List.inj_on_of_nodup_map hgroups.distinct hj hi
    (((hgroups.timed j hj).2 x hxj).symm.trans htime)
  exact hij ▸ hxj

theorem instant_sorted (hi : i ∈ instants c.events) :
    i.2.Pairwise fun a b => toLex (a.phase, toLex (a.ordinal, a.eventId)) ≤
      toLex (b.phase, toLex (b.ordinal, b.eventId)) := by
  obtain ⟨j, _, rfl⟩ := List.mem_map.mp hi
  exact List.pairwise_insertionSort _ j.2

/-- The place of an admission that is the first one of its State in its instant. -/
theorem admissionPlace_first (hids : (c.events.map (·.eventId)).Nodup) (hi : i ∈ instants c.events)
    (hsplit : i.2 = before ++ e :: after) (hact : e.action = .admission k)
    (hfirst : ∀ x ∈ before, x.action ≠ .admission k)
    (ho : admissionOccurrenceOrdinal c e = .ok n) : admissionPlace c k i.1.units = some n := by
  have hgroups := instants_groups c.events
  have hmem : e ∈ i.2 := hsplit ▸ List.mem_append_right _ List.mem_cons_self
  have htime : e.timeSeconds.units = i.1.units := (hgroups.timed i hi).2 e hmem
  have hin (x : RetentionEvent) (hx : x ∈ admissions c) : x ∈ c.events :=
    (List.mem_filter.mp ((List.perm_insertionSort _ _).mem_iff.mp hx)).1
  have he : e ∈ c.events := hgroups.perm.mem_iff.mp (List.mem_flatMap.mpr ⟨i, hi, hmem⟩)
  have hfound : (admissions c).findIdx? (·.eventId = e.eventId) = some n := by
    unfold admissionOccurrenceOrdinal at ho
    dsimp only at ho
    split at ho
    · next h => exact h.trans (congrArg some (Except.ok.inj ho))
    · cases ho
  rw [List.findIdx?_eq_some_iff_getElem] at hfound
  obtain ⟨hn, hid, hearlier⟩ := hfound
  have hself : (admissions c)[n] = e := eventId_inj hids he (hin _ (List.getElem_mem hn))
    (of_decide_eq_true hid)
  unfold admissionPlace
  rw [List.findIdx?_eq_some_iff_getElem]
  refine ⟨hn, ?_, fun j hj => ?_⟩
  · rw [hself]
    exact decide_eq_true ⟨hact, htime⟩
  · -- an earlier one would come before `e` in the instant too
    have hjn : j < (admissions c).length := hj.trans hn
    have hother := of_decide_eq_false (Bool.eq_false_of_not_eq_true (hearlier j hj))
    have hsorted : (admissions c)[j].key ≤ (admissions c)[n].key :=
      List.pairwise_iff_getElem.mp (List.pairwise_insertionSort _ _) j n hjn hn hj
    rw [decide_eq_true_eq]
    rintro ⟨hactj, htimej⟩
    have hxi : (admissions c)[j] ∈ i.2 := mem_instant hi (hin _ (List.getElem_mem hjn)) htimej
    rw [hsplit, List.mem_append, List.mem_cons] at hxi
    rcases hxi with hbefore | rfl | hafter
    · exact hfirst _ hbefore hactj
    · exact hother rfl
    · have hpairs := instant_sorted hi
      rw [hsplit, List.pairwise_append] at hpairs
      have hle := (List.pairwise_cons.mp hpairs.2.1).1 _ hafter
      rw [hself] at hsorted
      unfold RetentionEvent.key at hsorted
      rw [htimej, htime, Prod.Lex.toLex_le_toLex] at hsorted
      have heq := le_antisymm (hsorted.resolve_left (lt_irrefl _)).2 hle
      simp only [toLex_inj, Prod.mk.injEq] at heq
      exact hother heq.2.2

end Places

section Admissions
variable {c : RetentionProgramCase} {m : C73RetentionManifest} {run run' : RetentionRun} {now : Time}

/-- An admission under B4 keeps the residents in the working set and marks its State as produced. -/
theorem admitEvent_works (ha : Accepted c) (he : EventDeclared c e)
    (hnow : e.timeSeconds.units = now.units) (hmem : e ∈ c.events)
    (hp : m.retentionPolicyId = .lifecycleB4) (hs : Admitting c m now run.cache)
    (hw : run.cache.Working) (hok : admitEvent c m e run = .ok a run') :
    Admitting c m now run'.cache ∧ run'.cache.Working ∧
      ∀ x, run'.truth.get? x = (run.truth.get? x).map (Truth.produce x · e) := by
  -- whoever was in the working set stays in it
  have hstays (w : Cache) (x : String) (hx : x ∈ run.cache.resident)
      (htruth : ∀ x, w.truth.get? x = (run.truth.get? x).map (Truth.produce x · e)) :
      ∃ t, w.truth.get? x = some t ∧ t.inWorkingSet = true := by
    obtain ⟨t, ht, hin⟩ := hw x hx
    have ht' : run.truth.get? x = some t := ht
    exact ⟨t.produce x e, by rw [htruth, ht', Option.map_some], inWorkingSet_produce x [e] hin⟩
  by_cases hact : ∃ k, e.action = .admission k
  · obtain ⟨k, hact⟩ := hact
    have hk : k ∈ c.stateIds := he.state k (by rw [RetentionEvent.stateId?, hact])
    by_cases hadmits : Admits c m run k
    · obtain ⟨run₁, t, hok₁, hplaced⟩ := admitEvent_admits ha hs.sound hmem he hact hadmits
      rw [hok, EStateM.Result.ok.injEq] at hok₁
      obtain rfl := hok₁.2
      have hs' := hplaced.admitting hk hnow hs
      obtain ⟨⟨r, hcache, _⟩, ht, hvalid, _, _, _, hgranted⟩ := hplaced
      have hlifecycle : t.lifecycle ≠ .terminal := by
        unfold Granted at hgranted
        rw [hp] at hgranted
        exact hgranted.1
      have htruth (x : String) : run'.cache.truth.get? x =
          (run.truth.get? x).map (Truth.produce x · e) := by
        rw [hcache]
        exact produce_get? hact ht x
      refine ⟨hs', fun x hx => ?_, htruth⟩
      rw [hcache, Cache.place_resident, Dict.mem_set] at hx
      rcases hx with rfl | hx
      · have ht' : run.truth.get? k = some t := ht
        refine ⟨t.produce k e, by rw [htruth, ht', Option.map_some], ?_⟩
        rw [Cache.inWorkingSet_iff, Truth.produce, if_pos hact]
        exact ⟨rfl, hvalid, hlifecycle⟩
      · exact hstays run'.cache x hx htruth
    · obtain ⟨t, run₁, hrefused, hiff⟩ := admitEvent_refuses ha hs.sound he hact hadmits
      obtain ⟨_, hsame⟩ := (hiff fun _ s => s = run').mp ⟨a, run', hok, rfl⟩
      subst hsame
      have htruth (x : String) : run₁.cache.truth.get? x =
          (run.truth.get? x).map (Truth.produce x · e) := by
        rw [hrefused.truth]
        exact produce_get? hact hrefused.known x
      refine ⟨hrefused.admitting hs, fun x hx => ?_, htruth⟩
      rw [hrefused.resident] at hx
      exact hstays run₁.cache x hx htruth
  · have hother : ∀ k, e.action ≠ .admission k := fun k hk => hact ⟨k, hk⟩
    rw [admitEvent_other hother, EStateM.Result.ok.injEq] at hok
    obtain rfl := hok.2
    refine ⟨hs, hw, fun x => ?_⟩
    simp only [Truth.produce, hother x, ↓reduceIte, Option.map_id']

theorem admitAll_works (ha : Accepted c) {events : List RetentionEvent}
    (he : AtInstant c now events) (hmem : ∀ e ∈ events, e ∈ c.events)
    (hp : m.retentionPolicyId = .lifecycleB4) (hs : Admitting c m now run.cache)
    (hw : run.cache.Working) (hok : admitAll c m events run = .ok ids run') :
    Admitting c m now run'.cache ∧ run'.cache.Working ∧
      ∀ x, run'.truth.get? x = (run.truth.get? x).map fun t => events.foldl (Truth.produce x) t := by
  induction events generalizing run ids with
  | nil =>
    cases hok
    exact ⟨hs, hw, fun x => by simp only [List.foldl_nil, Option.map_id']⟩
  | cons e events ih =>
    obtain ⟨first, run₁, hfirst, hok⟩ := bind_eq_ok.mp hok
    obtain ⟨rest, run₂, hrest, hok⟩ := bind_eq_ok.mp hok
    obtain ⟨_, rfl⟩ := pure_eq_ok.mp hok
    obtain ⟨hdeclared, hnow⟩ := he e List.mem_cons_self
    obtain ⟨hs₁, hw₁, htruth₁⟩ := admitEvent_works ha hdeclared hnow (hmem e List.mem_cons_self)
      hp hs hw hfirst
    obtain ⟨hs₂, hw₂, htruth₂⟩ := ih (fun x hx => he x (List.mem_cons_of_mem _ hx))
      (fun x hx => hmem x (List.mem_cons_of_mem _ hx)) hs₁ hw₁ hrest
    refine ⟨hs₂, hw₂, fun x => ?_⟩
    rw [htruth₂, htruth₁, Option.map_map]
    rfl

end Admissions

section Admitted
variable {c : RetentionProgramCase} {m : C73RetentionManifest} {run run' : RetentionRun}
  {now : Time} {v w : Cache}

/-- B4 turns away the State: it is invalid or terminal, or the protected bytes leave no room. -/
def Blocked (m : C73RetentionManifest) (v : Cache) (k : String) : Prop :=
  ∃ t, v.truth.get? k = some t ∧ (t.valid = false ∨ t.lifecycle = .terminal ∨
    t.lifecycle = .active ∧ m.capacityBytes < v.activeBytes + c73DefaultStateBytes)

theorem blocked_of_not_admits (ha : Accepted c) (hp : m.retentionPolicyId = .lifecycleB4)
    (hs : Cache.Sound c now run.cache) (hk : k ∈ c.stateIds) (hout : k ∉ run.resident)
    (h : ¬ Admits c m run k) : Blocked m run.cache k := by
  obtain ⟨t, ht⟩ := Dict.mem_iff.mp (hs.truth k hk)
  obtain ⟨spec, hspec, hsize, _⟩ := ha.spec hk
  have hsp : Cache.Sound c now (run.produced k t).cache := hs.setTruth
  by_contra hfree
  have hvalid : t.valid = true := by
    by_contra hinvalid
    exact hfree ⟨t, ht, .inl (Bool.eq_false_of_not_eq_true hinvalid)⟩
  have hlifecycle : t.lifecycle ≠ .terminal := fun hl => hfree ⟨t, ht, .inr (.inl hl)⟩
  refine h ⟨t, spec, ht, item_eq_ok.mp hspec, hvalid, hout, ?_⟩
  have hbytes : (run.produced k t).cache.activeBytes = run.cache.activeBytes :=
    activeBytes_produced ht
  simp only [refusal, hp, hlifecycle, activeProtectedBytes_eq ha hsp, hbytes, ↓reduceIte,
    Except.ok_bind]
  by_cases hactive : t.lifecycle = .active
  · have hroom : ¬ m.capacityBytes < run.cache.activeBytes + spec.sizeBytes :=
      fun hover => hfree ⟨t, ht, .inr (.inr ⟨hactive, hsize ▸ hover⟩)⟩
    simp only [hactive, hroom, ne_eq, not_true_eq_false, ↓reduceIte]
    rfl
  · simp only [hactive, ne_eq, not_false_eq_true, ↓reduceIte]
    rfl

theorem Placed.not_blocked (hp : m.retentionPolicyId = .lifecycleB4) (h : Placed c m e k t v w) :
    ¬ Blocked m v k := by
  rintro ⟨t', ht', hblocked⟩
  obtain ⟨_, ht, hvalid, _, size, rfl, hgranted⟩ := h
  obtain rfl := Option.some.inj (ht.symm.trans ht')
  unfold Granted at hgranted
  rw [hp] at hgranted
  rcases hblocked with hinvalid | hterminal | ⟨hactive, hover⟩
  · rw [hvalid] at hinvalid
    cases hinvalid
  · exact hgranted.1 hterminal
  · exact (hgranted.2 hactive).not_gt hover

theorem Blocked.mono (h : Blocked m v x) (hbytes : v.activeBytes ≤ w.activeBytes)
    (htruth : ∀ t, v.truth.get? x = some t → ∃ t', w.truth.get? x = some t' ∧ t'.valid = t.valid ∧
      t'.lifecycle = t.lifecycle) : Blocked m w x := by
  obtain ⟨t, ht, hblocked⟩ := h
  obtain ⟨t', ht', hvalid, hlifecycle⟩ := htruth t ht
  refine ⟨t', ht', ?_⟩
  rw [hvalid, hlifecycle]
  exact hblocked.imp_right fun h => h.imp_right fun h =>
    ⟨h.1, h.2.trans_le (Nat.add_le_add_right hbytes _)⟩

theorem produced_truth {d : Dict String Truth} (hk : d.get? k = some t) (hx : d.get? x = some u) :
    ∃ u', (d.set k { t with produced := true }).get? x = some u' ∧ u'.valid = u.valid ∧
      u'.lifecycle = u.lifecycle := by
  rw [Dict.get?_set]
  split
  · next he =>
    subst he
    obtain rfl := Option.some.inj (hk.symm.trans hx)
    exact ⟨_, rfl, rfl, rfl⟩
  · exact ⟨u, hx, rfl, rfl⟩

theorem Placed.blocked (h : Placed c m e k t v w) (hx : Blocked m v x) : Blocked m w x := by
  obtain ⟨⟨r, rfl, _⟩, ht, _, hout, _⟩ := h
  refine hx.mono ?_ fun u hu => produced_truth ht hu
  rw [activeBytes_place (v := v.setTruth k { t with produced := true }) hout rfl,
    activeBytes_produced ht]
  exact Nat.le_add_right _ _

theorem Refused.blocked (h : Refused k t m v w) (hx : Blocked m v x) : Blocked m w x := by
  refine hx.mono ?_ fun u hu => h.truth ▸ produced_truth h.known hu
  have hbytes := activeBytes_produced (v := v) h.known
  unfold Cache.activeBytes Cache.active at hbytes ⊢
  rw [h.resident, h.truth]
  exact hbytes.ge

theorem admittedAt_of_marks {now : Nat} (h : w.marks = v.marks ++ [(now, some x, kind)])
    (hkind : kind ≠ .admitted) (k : String) : w.admittedAt k = v.admittedAt k := by
  unfold Cache.admittedAt
  rw [h, List.filter_append, List.filter_cons_of_neg, List.filter_nil, List.append_nil]
  rw [decide_eq_true_eq, Prod.mk.injEq]
  exact fun hc => hkind hc.2

/-- The cache while the admissions of an instant are processed: who was resident stays as it was,
and who was not has the place of its first admission in the instant. -/
structure Filled (c : RetentionProgramCase) (m : C73RetentionManifest) (now : Time)
    (before : List RetentionEvent) (v w : Cache) : Prop where
  kept : ∀ k ∈ v.resident, w.resident.get? k = v.resident.get? k
  opened : ∀ k r, w.resident.get? k = some r → k ∉ v.resident →
    r.lastTouchTimeSeconds.units = now.units ∧ admissionPlace c k now.units = some r.admissionOrdinal
  blocked : ∀ e ∈ before, ∀ k, e.action = .admission k → k ∉ w.resident → Blocked m w k
  admittedAt : ∀ k, w.admittedAt k = v.admittedAt k

theorem Filled.refl (v : Cache) : Filled c m now [] v v :=
  ⟨fun _ _ => rfl, fun _ _ hr hout => absurd (Dict.mem_of_get? hr) hout,
    fun _ he => (List.not_mem_nil he).elim, fun _ => rfl⟩

theorem Filled.placed (hids : (c.events.map (·.eventId)).Nodup)
    (hp : m.retentionPolicyId = .lifecycleB4) (hi : i ∈ instants c.events)
    (hsplit : i.2 = before ++ e :: after) (htime : e.timeSeconds.units = i.1.units)
    (hact : e.action = .admission k) (h : Placed c m e k t w x) (hf : Filled c m i.1 before v w) :
    Filled c m i.1 (before ++ [e]) v x := by
  obtain ⟨r, hcache, _, _, _, htouch, hordinal⟩ := h.placed
  have hres : x.resident = w.resident.set k r := by
    rw [hcache]
    rfl
  -- an earlier admission of the State would have been refused, and so would this one
  have hfirst : ∀ e' ∈ before, e'.action ≠ .admission k := fun e' he' hact' =>
    h.not_blocked hp (hf.blocked e' he' k hact' h.absent)
  have hplace := admissionPlace_first hids hi hsplit hact hfirst hordinal
  refine ⟨fun k' hk' => ?_, fun k' r' hr' hk' => ?_, fun e' he' k' hact' hk' => ?_, fun k' => ?_⟩
  · have hne : k ≠ k' := by
      rintro rfl
      obtain ⟨r', hr'⟩ := Dict.mem_iff.mp hk'
      exact h.absent (Dict.mem_of_get? ((hf.kept k hk').trans hr'))
    rw [hres, Dict.get?_set, if_neg hne]
    exact hf.kept k' hk'
  · rw [hres] at hr'
    rcases Dict.get?_set_eq_some_iff.mp hr' with ⟨rfl, rfl⟩ | ⟨_, hr'⟩
    · exact ⟨htouch ▸ htime, hplace⟩
    · exact hf.opened k' r' hr' hk'
  · rw [hres, Dict.mem_set, not_or] at hk'
    rcases List.mem_append.mp he' with he' | he'
    · exact h.blocked (hf.blocked e' he' k' hact' hk'.2)
    · rw [List.mem_singleton] at he'
      subst he'
      rw [hact, RetentionAction.admission.injEq] at hact'
      exact absurd hact' hk'.1
  · rw [hcache]
    exact hf.admittedAt k'

theorem Filled.refused {now : Time} (hact : e.action = .admission k) (h : Refused k t m w x)
    (hblocked : k ∉ w.resident → Blocked m w k) (hf : Filled c m now before v w) :
    Filled c m now (before ++ [e]) v x := by
  obtain ⟨_, _, hkind, hmarks⟩ := h.marks
  refine ⟨fun k' hk' => h.resident ▸ hf.kept k' hk',
    fun k' r hr hk' => hf.opened k' r (h.resident ▸ hr) hk', fun e' he' k' hact' hk' => ?_,
    fun k' => (admittedAt_of_marks hmarks hkind k').trans (hf.admittedAt k')⟩
  rw [h.resident] at hk'
  apply h.blocked
  rcases List.mem_append.mp he' with he' | he'
  · exact hf.blocked e' he' k' hact' hk'
  · rw [List.mem_singleton] at he'
    subst he'
    rw [hact, RetentionAction.admission.injEq] at hact'
    subst hact'
    exact hblocked hk'

theorem Filled.other {now : Time} (hact : ∀ k, e.action ≠ .admission k)
    (hf : Filled c m now before v w) : Filled c m now (before ++ [e]) v w := by
  refine ⟨hf.kept, hf.opened, fun e' he' k hact' => ?_, hf.admittedAt⟩
  rcases List.mem_append.mp he' with he' | he'
  · exact hf.blocked e' he' k hact'
  · rw [List.mem_singleton] at he'
    exact absurd (he' ▸ hact') (hact k)

theorem Filled.admission (ha : Accepted c) (hids : (c.events.map (·.eventId)).Nodup)
    (hp : m.retentionPolicyId = .lifecycleB4) (hi : i ∈ instants c.events)
    (hsplit : i.2 = before ++ e :: after) (he : EventDeclared c e)
    (hs : Cache.Sound c i.1 run.cache) (hf : Filled c m i.1 before v run.cache)
    (hok : admitEvent c m e run = .ok a run') :
    Filled c m i.1 (before ++ [e]) v run'.cache ∧
      (∀ k, k ∈ run'.resident ↔ k ∈ run.resident ∨ a = some k) ∧
      ∀ k, a = some k → k ∉ run.resident := by
  have hgroups := instants_groups c.events
  have hin : e ∈ i.2 := hsplit ▸ List.mem_append_right _ List.mem_cons_self
  have htime : e.timeSeconds.units = i.1.units := (hgroups.timed i hi).2 e hin
  have hmem : e ∈ c.events := hgroups.perm.mem_iff.mp (List.mem_flatMap.mpr ⟨i, hi, hin⟩)
  by_cases hact : ∃ k, e.action = .admission k
  · obtain ⟨k, hact⟩ := hact
    have hk : k ∈ c.stateIds := he.state k (by rw [RetentionEvent.stateId?, hact])
    by_cases hadmits : Admits c m run k
    · obtain ⟨run₁, t, hok₁, hplaced⟩ := admitEvent_admits ha hs hmem he hact hadmits
      rw [hok, EStateM.Result.ok.injEq] at hok₁
      obtain ⟨rfl, rfl⟩ := hok₁
      refine ⟨hf.placed hids hp hi hsplit htime hact hplaced, fun x => ?_, fun x hx => ?_⟩
      · obtain ⟨r, hcache, _⟩ := hplaced.placed
        have hres : run'.resident = run.resident.set k r := congrArg Cache.resident hcache
        rw [hres, Dict.mem_set, Option.some.injEq]
        exact or_comm
      · obtain rfl := Option.some.inj hx
        exact hplaced.absent
    · obtain ⟨t, run₁, hrefused, hiff⟩ := admitEvent_refuses ha hs he hact hadmits
      obtain ⟨_, rfl, rfl⟩ :=
        (hiff fun a' s => a' = a ∧ s = run').mp ⟨a, run', hok, rfl, rfl⟩
      refine ⟨hf.refused hact hrefused fun hout => blocked_of_not_admits ha hp hs hk hout hadmits,
        fun x => ?_, fun x hx => by cases hx⟩
      have hres : run₁.resident = run.resident := hrefused.resident
      rw [hres]
      exact ⟨.inl, fun h => h.resolve_right fun hc => by cases hc⟩
  · have hother : ∀ k, e.action ≠ .admission k := fun k hk => hact ⟨k, hk⟩
    rw [admitEvent_other hother, EStateM.Result.ok.injEq] at hok
    obtain ⟨rfl, rfl⟩ := hok
    exact ⟨hf.other hother, fun x => ⟨.inl, fun h => h.resolve_right fun hc => by cases hc⟩,
      fun x hx => by cases hx⟩

theorem Filled.admitAll (ha : Accepted c) (hids : (c.events.map (·.eventId)).Nodup)
    (hp : m.retentionPolicyId = .lifecycleB4) (hi : i ∈ instants c.events)
    {events : List RetentionEvent} (hsplit : i.2 = before ++ events)
    (he : AtInstant c i.1 events) (hmem : ∀ e ∈ events, e ∈ c.events)
    (hs : Admitting c m i.1 run.cache) (hw : run.cache.Working)
    (hf : Filled c m i.1 before v run.cache) (hok : admitAll c m events run = .ok ids run') :
    Filled c m i.1 i.2 v run'.cache ∧ (∀ k, k ∈ run'.resident ↔ k ∈ run.resident ∨ k ∈ ids) ∧
      ∀ k ∈ ids, k ∉ run.resident := by
  induction events generalizing run before ids with
  | nil =>
    cases hok
    rw [hsplit, List.append_nil]
    exact ⟨hf, fun k => ⟨.inl, fun h => h.resolve_right List.not_mem_nil⟩,
      fun k hk => absurd hk List.not_mem_nil⟩
  | cons e events ih =>
    obtain ⟨first, run₁, hfirst, hok⟩ := bind_eq_ok.mp hok
    obtain ⟨rest, run₂, hrest, hok⟩ := bind_eq_ok.mp hok
    obtain ⟨rfl, rfl⟩ := pure_eq_ok.mp hok
    obtain ⟨hdeclared, hnow⟩ := he e List.mem_cons_self
    obtain ⟨hs₁, hw₁, -⟩ := admitEvent_works ha hdeclared hnow (hmem e List.mem_cons_self) hp hs hw
      hfirst
    obtain ⟨hf₁, hmem₁, hnew₁⟩ := hf.admission ha hids hp hi hsplit hdeclared hs.sound hfirst
    have hsplit₁ : i.2 = (before ++ [e]) ++ events := by
      rw [hsplit, List.append_assoc, List.singleton_append]
    obtain ⟨hf₂, hmem₂, hnew₂⟩ := ih hsplit₁
      (fun x hx => he x (List.mem_cons_of_mem _ hx)) (fun x hx => hmem x (List.mem_cons_of_mem _ hx))
      hs₁ hw₁ hf₁ hrest
    refine ⟨hf₂, fun k => ?_, fun k hk => ?_⟩
    · rw [hmem₂, hmem₁, List.mem_append, Option.mem_toList, or_assoc]
    · rcases List.mem_append.mp hk with hk | hk
      · exact hnew₁ k (Option.mem_toList.mp hk)
      · exact fun hin => hnew₂ k hk ((hmem₁ k).mpr (.inl hin))

theorem record_admittedAt (h : record c m now kind x reason run = .ok u run') :
    run'.resident = run.resident ∧ ∀ k, run'.cache.admittedAt k =
      if x = some k ∧ kind = .admitted then some now.units else run.cache.admittedAt k := by
  obtain ⟨_, a, hbrief, hbooks⟩ := record_effect h
  have haudit : run'.audit = run.audit ++ [a] := congrArg Books.audit hbooks
  refine ⟨congrArg Books.resident hbooks, fun k => ?_⟩
  rw [← Cache.admittedAt_mark]
  unfold Cache.admittedAt Cache.mark RetentionRun.cache
  unfold RetentionAuditRecord.brief at hbrief
  simp only [Prod.mk.injEq] at hbrief
  rw [haudit, List.map_append, List.map_singleton, RetentionAuditRecord.mark, hbrief.1, hbrief.2.1,
    hbrief.2.2.1]

theorem auditAdmission_admittedAt (h : auditAdmission c m now x run = .ok u run') :
    run'.resident = run.resident ∧ ∀ k, run'.cache.admittedAt k =
      if x = k ∧ k ∈ run.resident then some now.units else run.cache.admittedAt k := by
  unfold auditAdmission at h
  rw [get_bind_apply] at h
  split at h
  · next hin =>
    obtain ⟨hres, hat⟩ := record_admittedAt h
    refine ⟨hres, fun k => ?_⟩
    rw [hat]
    refine if_congr ?_ rfl rfl
    rw [Option.some.injEq]
    exact ⟨fun hc => ⟨hc.1, hc.1 ▸ hin⟩, fun hc => ⟨hc.1, rfl⟩⟩
  · next hout =>
    have hneg (k : String) : ¬ (x = k ∧ k ∈ run.resident) := fun hc => hout (hc.1 ▸ hc.2)
    split at h
    · obtain ⟨hres, hat⟩ := record_admittedAt h
      refine ⟨hres, fun k => ?_⟩
      rw [hat, if_neg (hneg k)]
      exact if_neg fun hc => by cases hc.2
    · cases h
      exact ⟨rfl, fun k => (if_neg (hneg k)).symm⟩

/-- The audit of the admissions of an instant records those that are resident after it. -/
theorem audits_admittedAt {ids : List String}
    (h : ids.forM (auditAdmission c m now) run = .ok u run') :
    run'.resident = run.resident ∧ ∀ k, run'.cache.admittedAt k =
      if k ∈ ids ∧ k ∈ run.resident then some now.units else run.cache.admittedAt k := by
  induction ids generalizing run with
  | nil =>
    cases h
    exact ⟨rfl, fun k => (if_neg fun hc => List.not_mem_nil hc.1).symm⟩
  | cons x ids ih =>
    obtain ⟨_, run₁, hfirst, hrest⟩ := bind_eq_ok.mp h
    obtain ⟨hres₁, hat₁⟩ := auditAdmission_admittedAt hfirst
    obtain ⟨hres, hat⟩ := ih hrest
    refine ⟨hres.trans hres₁, fun k => ?_⟩
    rw [hat, hat₁, hres₁]
    by_cases hk : k ∈ ids ∧ k ∈ run.resident
    · rw [if_pos hk, if_pos ⟨List.mem_cons_of_mem _ hk.1, hk.2⟩]
    · rw [if_neg hk]
      refine if_congr ?_ rfl rfl
      rw [List.mem_cons]
      exact ⟨fun hc => ⟨.inl hc.1.symm, hc.2⟩,
        fun hc => ⟨(hc.1.resolve_right fun hin => hk ⟨hin, hc.2⟩).symm, hc.2⟩⟩

theorem evicted_admittedAt {evicted : List (String × String)}
    (h : (evicted.forM fun eviction => record c m now .evicted eviction.1 eviction.2) run =
      .ok u run') :
    run'.resident = run.resident ∧ ∀ k, run'.cache.admittedAt k = run.cache.admittedAt k := by
  induction evicted generalizing run with
  | nil =>
    cases h
    exact ⟨rfl, fun _ => rfl⟩
  | cons p evicted ih =>
    obtain ⟨_, run₁, hfirst, hrest⟩ := bind_eq_ok.mp h
    obtain ⟨hres₁, hat₁⟩ := record_admittedAt hfirst
    obtain ⟨hres, hat⟩ := ih hrest
    exact ⟨hres.trans hres₁, fun k =>
      (hat k).trans ((hat₁ k).trans (if_neg fun hc => by cases hc.2))⟩

/-- The records of a pass admit those that were admitted and are still resident. -/
theorem Phases.admittedAt
    (h : Phases c m now events before settled served admitted enforced after ids evicted) :
    after.resident = enforced.resident ∧ ∀ k, after.cache.admittedAt k =
      if k ∈ ids ∧ k ∈ enforced.resident then some now.units else enforced.cache.admittedAt k := by
  obtain ⟨_, run₁, hevicted, hrest⟩ := bind_eq_ok.mp h.records
  obtain ⟨_, run₂, hadmitted, hcheckpoint⟩ := bind_eq_ok.mp hrest
  obtain ⟨hres₁, hat₁⟩ := evicted_admittedAt hevicted
  obtain ⟨hres₂, hat₂⟩ := audits_admittedAt hadmitted
  obtain ⟨hres₃, hat₃⟩ := record_admittedAt hcheckpoint
  refine ⟨hres₃.trans (hres₂.trans hres₁), fun k => ?_⟩
  rw [hat₃, if_neg (fun hc => by cases hc.2), hat₂, hat₁, hres₁]

/-- The residents after the instants have the place of their last recorded admission and the touch
that the events give them since. -/
def Recent (c : RetentionProgramCase) (done : List Instant) (v : Cache) : Prop :=
  ∀ k r, v.resident.get? k = some r → ∃ j ∈ done, v.admittedAt k = some j.1.units ∧
    admissionPlace c k j.1.units = some r.admissionOrdinal ∧
    r.lastTouchTimeSeconds.units = lastTouched (done.flatMap Prod.snd) k j.1.units

theorem Recent.served (hp : m.retentionPolicyId = .lifecycleB4)
    (hsplit : instants c.events = done ++ i :: rest) (h : Recent c done v)
    (hw : (v.settled c m i.1 i.2).Working) {k : String}
    (hr : ((v.settled c m i.1 i.2).served m i.1 i.2).resident.get? k = some r) :
    ∃ j ∈ done, ((v.settled c m i.1 i.2).served m i.1 i.2).admittedAt k = some j.1.units ∧
      admissionPlace c k j.1.units = some r.admissionOrdinal ∧
      r.lastTouchTimeSeconds.units = lastTouched ((done ++ [i]).flatMap Prod.snd) k j.1.units := by
  obtain ⟨hget, hat⟩ := Cache.served_get? hp hw i.1 i.2 k
  have hprunes := Cache.settled_prunes c m i.1 i.2 v
  rw [hget, Option.map_eq_some_iff] at hr
  obtain ⟨r₀, hr₀, rfl⟩ := hr
  obtain ⟨j, hj, hadmitted, hplace, htouch⟩ := h k r₀ (hprunes.kept k r₀ hr₀)
  have hi : i ∈ instants c.events := hsplit ▸ List.mem_append_right _ List.mem_cons_self
  have hincrease := instants_increase c.events
  rw [hsplit, List.pairwise_append] at hincrease
  have hlater : j.1.units < i.1.units :=
    Time.lt_iff.mp (hincrease.2.2 j hj i List.mem_cons_self)
  obtain ⟨htouched, hordinal⟩ :=
    touch_foldl (k := k) hlater ((instants_groups c.events).timed i hi).2 r₀
  refine ⟨j, hj, (hat.trans (hprunes.admittedAt k)).trans hadmitted, hordinal ▸ hplace, ?_⟩
  rw [htouched, htouch, List.flatMap_append, List.flatMap_singleton, lastTouched_append]

/-- A State that an instant admits was not touched before. -/
theorem lastTouched_new (hsplit : instants c.events = done ++ i :: rest) (k : String) :
    lastTouched ((done ++ [i]).flatMap Prod.snd) k i.1.units = i.1.units := by
  have hgroups := instants_groups c.events
  have hincrease := instants_increase c.events
  rw [hsplit, List.pairwise_append] at hincrease
  apply lastTouched_of_le
  intro e he
  obtain ⟨j, hj, hej⟩ := List.mem_flatMap.mp he
  have hin : j ∈ instants c.events := by
    rw [hsplit]
    rcases List.mem_append.mp hj with hj | hj
    · exact List.mem_append_left _ hj
    · exact List.mem_append_right _ (List.mem_singleton.mp hj ▸ List.mem_cons_self)
  rw [(hgroups.timed j hin).2 e hej]
  rcases List.mem_append.mp hj with hj | hj
  · exact (Time.lt_iff.mp (hincrease.2.2 j hj i List.mem_cons_self)).le
  · rw [List.mem_singleton.mp hj]

end Admitted

end Cadi.Retention
