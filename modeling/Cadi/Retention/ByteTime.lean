import Cadi.Retention.Residencies
import Cadi.Retention.Opportunities
import Mathlib.Algebra.BigOperators.Intervals

namespace Cadi.Retention
open Library
set_option autoImplicit true

section Timelines
variable (c : RetentionProgramCase) (m : C73RetentionManifest)

/-- Passes lead from the first head to the second, each at a time and with the bytes that it leaves
resident. -/
inductive Timeline : Head → List (Time × Nat) → Head → Prop where
  | start : Timeline h [] h
  | pass {run : RetentionRun} (hr : Timeline g points h)
      (hn : nextInstant c m h = some ((now, events), rest))
      (hok : instant c m now events h.run = .ok ⟨⟩ run) (hb : residentBytes c run = .ok bytes) :
      Timeline g (points ++ [(now, bytes)]) ⟨rest, now.toNumber, run⟩

/-- The bytes that are resident at an instant: those that the last pass up to it left. -/
def bytesAt (points : List (Time × Nat)) (u : Nat) : Nat :=
  ((points.filter (·.1.units ≤ u)).getLast?.map Prod.snd).getD 0

theorem bytesAt_later {points : List (Time × Nat)} (h : now.units ≤ u) :
    bytesAt (points ++ [(now, bytes)]) u = bytes := by
  unfold bytesAt
  simp only [List.filter_append, List.filter_cons, h, decide_true, ↓reduceIte, List.filter_nil,
    List.getLast?_concat, Option.map_some, Option.getD_some]

theorem bytesAt_earlier {points : List (Time × Nat)} (h : u < now.units) :
    bytesAt (points ++ [(now, bytes)]) u = bytesAt points u := by
  have hnot : ¬ now.units ≤ u := Nat.not_le.mpr h
  unfold bytesAt
  simp only [List.filter_append, List.filter_cons, hnot, decide_false, Bool.false_eq_true, ↓reduceIte,
    List.filter_nil, List.append_nil]

end Timelines

section Accruals
variable {c : RetentionProgramCase} {m : C73RetentionManifest} {s t : RetentionRun}

/-- The byte-time of the open intervals up to the time. -/
def accruedOf (c : RetentionProgramCase) (now : Time) (entries : List (String × Resident)) : Nat :=
  (entries.map fun p => sizeOf c p.1 * (now.units - p.2.intervalStartSeconds.units)).sum

def accrued (c : RetentionProgramCase) (run : RetentionRun) (now : Time) : Nat :=
  accruedOf c now run.resident.entries

theorem accruedOf_perm {l l' : List (String × Resident)} (h : l.Perm l') :
    accruedOf c now l = accruedOf c now l' := (h.map _).sum_nat

theorem accruedOf_cons (p : String × Resident) (l : List (String × Resident)) :
    accruedOf c now (p :: l) =
      sizeOf c p.1 * (now.units - p.2.intervalStartSeconds.units) + accruedOf c now l := by
  unfold accruedOf
  rw [List.map_cons, List.sum_cons]

/-- The byte-time that a step classifies is no longer accrued. -/
theorem Enters.accrues (h : Enters c m s e t) (hat : e.Allowed now evicted) :
    totalUnits c e.closing.toList + accrued c t now = accrued c s now := by
  have hdoes := h.does
  unfold accrued
  cases e with
  | other =>
    change 0 + _ = _
    rw [hdoes.1, Nat.zero_add]
  | note now' kind k reason =>
    change 0 + _ = _
    rw [hdoes.1, Nat.zero_add]
  | admission now' k =>
    obtain ⟨hk, _, r, rfl, hresident⟩ := hdoes
    have hnow : r.intervalStartSeconds.units = now.units := hat
    change 0 + _ = _
    rw [hresident, Nat.zero_add, Dict.entries_set_new hk, accruedOf_perm List.perm_append_comm,
      List.singleton_append, accruedOf_cons, hnow,
      Nat.sub_self, Nat.mul_zero, Nat.zero_add]
  | hit start now' k =>
    obtain ⟨r, hr, rfl, _, hresident⟩ := hdoes
    have hnow : now'.units = now.units := hat
    have htotal : totalUnits c (Entry.closing (.hit r.intervalStartSeconds now' k)).toList =
        sizeOf c k * (now.units - r.intervalStartSeconds.units) := by rw [← hnow]; rfl
    rw [htotal, hresident, accruedOf_perm (Dict.perm_set hr _), accruedOf_perm (Dict.perm_erase hr),
      accruedOf_cons, accruedOf_cons]
    dsimp only
    rw [hnow, Nat.sub_self, Nat.mul_zero, Nat.zero_add]
  | drop start now' k reason =>
    obtain ⟨r, hr, rfl, _, _, hresident⟩ := hdoes
    have hnow : now'.units = now.units := hat
    have htotal : totalUnits c (Entry.closing (.drop r.intervalStartSeconds now' k reason)).toList =
        sizeOf c k * (now.units - r.intervalStartSeconds.units) := by rw [← hnow]; rfl
    rw [htotal, hresident, accruedOf_perm (Dict.perm_erase hr), accruedOf_cons]

theorem trace_accrues (h : Trace (Enters c m) s entries t)
    (hallowed : ∀ e ∈ entries, e.Allowed now evicted) :
    totalUnits c (closings entries) + accrued c t now = accrued c s now := by
  refine h.invariant (P := fun done u =>
    totalUnits c (closings done) + accrued c u now = accrued c s now) (l := []) ?_ hallowed
    (Nat.zero_add _)
  intro done u e w hdone he hstep
  rw [closings_append, totalUnits_append, Nat.add_assoc, hstep.accrues he, hdone]

/-- The intervals of the residents began by the time. -/
def Begun (now : Time) (run : RetentionRun) : Prop :=
  ∀ k r, run.resident.get? k = some r → r.intervalStartSeconds ≤ now

theorem Enters.begun (h : Enters c m s e t) (hat : e.Allowed now evicted) (hs : Begun now s) :
    Begun now t := by
  have hdoes := h.does
  intro k' r' hr'
  cases e with
  | other => exact hs k' r' (hdoes.1 ▸ hr')
  | note now' kind k reason => exact hs k' r' (hdoes.1 ▸ hr')
  | admission now' k =>
    obtain ⟨_, _, r, rfl, hresident⟩ := hdoes
    have hnow : r.intervalStartSeconds.units = now.units := hat
    rw [hresident] at hr'
    rcases Dict.get?_set_eq_some_iff.mp hr' with ⟨rfl, rfl⟩ | ⟨_, hr'⟩
    · exact Time.le_iff.mpr hnow.le
    · exact hs k' r' hr'
  | hit start now' k =>
    obtain ⟨r, _, _, _, hresident⟩ := hdoes
    have hnow : now'.units = now.units := hat
    rw [hresident] at hr'
    rcases Dict.get?_set_eq_some_iff.mp hr' with ⟨rfl, rfl⟩ | ⟨_, hr'⟩
    · exact Time.le_iff.mpr hnow.le
    · exact hs k' r' hr'
  | drop start now' k reason =>
    obtain ⟨r, _, _, _, _, hresident⟩ := hdoes
    rw [hresident] at hr'
    exact hs k' r' (Dict.get?_erase_eq_some_iff.mp hr').2

theorem sizes_eq {ids : List String} {sizes : List Nat}
    (h : ids.mapM (fun k => (·.sizeBytes) <$> item c.specs k) = .ok sizes) :
    sizes = ids.map (sizeOf c) := by
  have hall := Except.mapM_eq_ok.mp h
  clear h
  induction hall with
  | nil => rfl
  | cons hk _ ih =>
    obtain ⟨spec, hspec, rfl⟩ := Except.map_eq_ok.mp hk
    rw [List.map_cons, ← ih]
    unfold sizeOf
    rw [item_eq_ok.mp hspec]
    rfl

theorem residentBytes_sum (h : residentBytes c s = .ok bytes) :
    bytes = (s.resident.entries.map fun p => sizeOf c p.1).sum := by
  obtain ⟨sizes, hsizes, hsum⟩ := Except.bind_eq_ok.mp h
  obtain rfl := Except.pure_eq_ok.mp hsum
  rw [sizes_eq hsizes]
  unfold Dict.keys
  rw [List.map_map]
  rfl

theorem accrued_later (hbegun : Begun now s) (hle : now ≤ later)
    (hb : residentBytes c s = .ok bytes) :
    accrued c s later = accrued c s now + (later.units - now.units) * bytes := by
  have hle' : now.units ≤ later.units := hle
  have hsum (l : List (String × Resident))
      (hl : ∀ p ∈ l, p.2.intervalStartSeconds.units ≤ now.units) :
      accruedOf c later l = accruedOf c now l +
        (later.units - now.units) * (l.map fun p => sizeOf c p.1).sum := by
    induction l with
    | nil => rfl
    | cons p l ih =>
      obtain ⟨hp, hl⟩ := List.forall_mem_cons.mp hl
      have hsplit : later.units - p.2.intervalStartSeconds.units =
          (now.units - p.2.intervalStartSeconds.units) + (later.units - now.units) := by omega
      rw [accruedOf_cons, accruedOf_cons, ih hl, List.map_cons, List.sum_cons, hsplit, Nat.mul_add,
        Nat.mul_add, Nat.mul_comm (sizeOf c p.1) (later.units - now.units)]
      omega
  rw [residentBytes_sum hb]
  exact hsum _ fun p hp => hbegun p.1 p.2 (Dict.get?_eq_some_iff.mpr hp)

end Accruals

section Runs
variable {c : RetentionProgramCase} {m : C73RetentionManifest} {run : RetentionRun} {g h : Head}
  {points : List (Time × Nat)} {now : Time}

/-- What holds at a head whose last pass was at the time: every instant so far was classified or is
accrued, for the bytes that were resident then. -/
structure Accounted (c : RetentionProgramCase) (points : List (Time × Nat)) (done : List Entry)
    (run : RetentionRun) (now : Time) : Prop where
  kept : Kept c done run
  starts : c.programStartSeconds ≤ now
  begun : Begun now run
  held : ∃ bytes, residentBytes c run = .ok bytes ∧ ∀ u, now.units ≤ u → bytesAt points u = bytes
  total : totalUnits c (closings done) + accrued c run now =
    ∑ u ∈ Finset.Ico c.programStartSeconds.units now.units, bytesAt points u

theorem closings_concat (done more : List Entry) :
    closings (done ++ more) = closings done ++ closings more := List.filterMap_append ..

/-- Until the next entries every instant accrues the bytes that are resident. -/
theorem Accounted.wait (h : Accounted c points done run now) (hle : now ≤ later) :
    totalUnits c (closings done) + accrued c run later =
      ∑ u ∈ Finset.Ico c.programStartSeconds.units later.units, bytesAt points u := by
  obtain ⟨bytes, hbytes, hheld⟩ := h.held
  have hle' : now.units ≤ later.units := hle
  have hconst : ∑ u ∈ Finset.Ico now.units later.units, bytesAt points u =
      (later.units - now.units) * bytes := by
    rw [Finset.sum_const_nat fun u hu => hheld u (Finset.mem_Ico.mp hu).1, Nat.card_Ico]
  rw [accrued_later h.begun hle hbytes, ← Nat.add_assoc, h.total, ← hconst]
  exact Finset.sum_Ico_consecutive _ h.starts hle'

theorem trace_kept {s t : RetentionRun} (h : Trace (Enters c m) s entries t) (hs : Kept c done s) :
    Kept c (done ++ entries) t :=
  h.invariant (P := Kept c) (A := fun _ => True) (fun _ _ _ _ hk _ he => hk.step he)
    (fun _ _ => trivial) hs

theorem trace_begun {s t : RetentionRun} (h : Trace (Enters c m) s entries t)
    (hallowed : ∀ e ∈ entries, e.Allowed now evicted) (hs : Begun now s) : Begun now t :=
  h.invariant (P := fun _ u => Begun now u) (l := []) (fun _ _ _ _ hb ha he => he.begun ha hb)
    hallowed hs

theorem Accounted.enters {s t : RetentionRun} (h : Accounted c points done s now) (hle : now ≤ later)
    (htrace : Trace (Enters c m) s entries t) (hallowed : ∀ e ∈ entries, e.Allowed later evicted) :
    totalUnits c (closings (done ++ entries)) + accrued c t later =
      ∑ u ∈ Finset.Ico c.programStartSeconds.units later.units, bytesAt points u := by
  rw [closings_concat, totalUnits_append, Nat.add_assoc, trace_accrues htrace hallowed]
  exact h.wait hle

theorem Accounted.pass {s t : RetentionRun} (h : Accounted c points done s now) (hle : now ≤ later)
    (htrace : Trace (Enters c m) s entries t) (hallowed : ∀ e ∈ entries, e.Allowed later evicted)
    (hb : residentBytes c t = .ok bytes) :
    Accounted c (points ++ [(later, bytes)]) (done ++ entries) t later := by
  have hbegun : Begun later s := fun k r hr => (h.begun k r hr).trans hle
  refine ⟨trace_kept htrace h.kept, le_trans h.starts hle, trace_begun htrace hallowed hbegun,
    ⟨bytes, hb, fun u hu => bytesAt_later hu⟩, ?_⟩
  rw [h.enters hle htrace hallowed]
  exact Finset.sum_congr rfl fun u hu => (bytesAt_earlier (Finset.mem_Ico.mp hu).2).symm

theorem startHead_accounted (hi : initRun fingerprint c base m = .ok run) :
    Accounted c [] [] run c.programStartSeconds := by
  have hempty := initRun_empty hi
  obtain ⟨_, _, _, truth, _, rfl⟩ := initRun_eq_ok hi
  refine ⟨⟨fun k p hp => ?_, fun k hk => ?_, .nil, fun x hx => ?_, fun x hx => ?_, rfl⟩, le_rfl,
    fun k r hr => ?_, ⟨0, rfl, fun _ _ => rfl⟩, ?_⟩
  · cases hp
  · obtain ⟨r, hr⟩ := Dict.mem_iff.mp hk
    cases hr
  · cases hx
  · cases hx
  · cases hr
  · rw [Finset.Ico_self]
    rfl

/-- The first pass is not before the start of the program. -/
theorem first_pass_starts (ha : Accepted c) (hi : initRun fingerprint c base m = .ok run)
    (hn : nextInstant c m (startHead c run) = some ((now, events), rest)) :
    c.programStartSeconds ≤ now := by
  have hempty := initRun_empty hi
  have hpass := (startHead_sound (m := m) ha hi).passing hn
  rcases hpass.advances with ⟨i, hcons, rfl⟩ | ⟨_, _, k, r, hr, _⟩
  · have hin : i ∈ instants c.events := by
      change i ∈ (startHead c run).external
      rw [hcons]
      exact List.mem_cons_self
    obtain ⟨e, he⟩ := List.exists_mem_of_ne_nil _ ((instants_groups c.events).timed i hin).1
    obtain ⟨hdeclared, hnow⟩ := hpass.atInstant e he
    have hstarts : c.programStartSeconds.units ≤ e.timeSeconds.units := hdeclared.starts
    exact Time.le_iff.mpr (hnow ▸ hstarts)
  · have hr' : run.resident.get? k = some r := hr
    rw [hempty] at hr'
    cases hr'

theorem Timeline.accounted (ha : Accepted c) (hi : initRun fingerprint c base m = .ok run)
    (hends : c.programStartSeconds ≤ c.programEndSeconds)
    (ht : Timeline c m (startHead c run) points h) :
    HeadSound c m h ∧ ∃ done now, Trace (Enters c m) run done h.run ∧
      Accounted c points done h.run now ∧ now ≤ c.programEndSeconds ∧
      ∀ next events rest, nextInstant c m h = some ((next, events), rest) → now ≤ next := by
  have hstart := startHead_sound (m := m) ha hi
  induction ht with
  | start =>
    exact ⟨hstart, [], c.programStartSeconds, .nil, startHead_accounted hi, hends,
      fun _ _ _ => first_pass_starts ha hi⟩
  | pass _ hn hok hb ih =>
    obtain ⟨hsound, done, now, htrace, haccounted, _, hnext⟩ := ih
    have hpass := hsound.passing hn
    obtain ⟨_, _, _, _, _, _, hph⟩ := instant_phases hok
    obtain ⟨entries, hallowed, htrace'⟩ := hph.entries fun e he => (hpass.atInstant e he).2
    have hafter := hsound.after ha hn hok
    have hsound' := hsound.next_sound ha ⟨_, _, _, _, hn, hok, rfl⟩
    refine ⟨hsound', done ++ entries, _, htrace.append htrace',
      haccounted.pass (hnext _ _ _ hn) htrace' hallowed hb, hpass.within, fun next _ _ hn' => ?_⟩
    exact (hafter.lt_next hsound' (nextInstant_time hn')).le

theorem Reaches.timeline (ha : Accepted c) (hs : HeadSound c m g) (hr : Reaches c m g h) :
    ∃ points, Timeline c m g points h := by
  induction hr with
  | refl => exact ⟨[], .start⟩
  | tail hr hn ih =>
    obtain ⟨points, htimeline⟩ := ih
    obtain ⟨now, events, rest, run', hnext, hok, rfl⟩ := hn
    have hafter := (hs.reaches ha hr).after ha hnext hok
    exact ⟨_, .pass htimeline hnext hok (residentBytes_eq ha fun _ hk => hafter.sound.declared hk)⟩

/-- The engine classifies in exact arithmetic: its intervals divide the residencies, of which they
cover each instant once, and add up to the bytes that were resident over the program. -/
structure Classified (c : RetentionProgramCase) (points : List (Time × Nat)) (entries : List Entry)
    (r : RetentionPolicyResult) : Prop where
  records : r.audit.map RetentionAuditRecord.brief = entries.filterMap Entry.brief
  rounded : (closings entries).foldlM (charge c) (.zero, .zero) =
    .ok (r.usefulByteSeconds, r.wastedByteSeconds)
  sum : r.totalClassifiedByteSeconds = r.usefulByteSeconds.add r.wastedByteSeconds
  integral : totalUnits c (closings entries) =
    ∑ u ∈ Finset.Ico c.programStartSeconds.units c.programEndSeconds.units, bytesAt points u
  tiled : (closings entries).Perm ((residencies entries).flatMap Residency.tiles)
  once : ∀ x ∈ residencies entries, ∀ u, (x.tiles.filter (·.Covers u)).length =
    if x.admitted.units ≤ u ∧ u < x.ended.units then 1 else 0
  total : totalUnits c (closings entries) = ((residencies entries).map (·.byteUnits c)).sum
  useful : usefulUnits c (closings entries) = ((residencies entries).map (·.usefulUnits c)).sum
  wasted : ∀ x ∈ residencies entries, x.reason ≠ .reuse

theorem trace_briefs {s t : RetentionRun} (h : Trace (Enters c m) s entries t)
    (hs : s.audit = []) :
    t.audit.map RetentionAuditRecord.brief = entries.filterMap Entry.brief := by
  refine h.invariant (P := fun done u =>
    u.audit.map RetentionAuditRecord.brief = done.filterMap Entry.brief) (A := fun _ => True)
    (l := []) ?_ (fun _ _ => trivial) (by rw [hs]; rfl)
  intro done u e w hdone _ he
  rw [he.audit, hdone, List.filterMap_append]
  cases e <;> rfl

theorem closeProgram_empties (ha : Accepted c) (hs : HeadSound c m h)
    (hclose : closeProgram c m h.run = .ok ⟨⟩ run) : run.resident = ∅ := by
  obtain ⟨run', hclose', hcache⟩ := (closeProgram_returns ha hs.ends hs.fits).exists
  rw [hclose, EStateM.Result.ok.injEq] at hclose'
  obtain rfl := hclose'.2
  apply Dict.eq_empty
  intro k
  rw [Option.eq_none_iff_forall_ne_some]
  intro r hr
  have hr' : run.cache.resident.get? k = some r := hr
  rw [hcache, Cache.mark_resident, Cache.get?_dropAll, mem_sortedIds] at hr'
  exact hr'.1 (Dict.mem_of_get? hr'.2)

theorem construct_ends (hc : c.construct = .ok ⟨⟩) : c.programStartSeconds ≤ c.programEndSeconds := by
  simp only [RetentionProgramCase.construct, Except.then_eq_ok] at hc
  obtain ⟨-, -, -, hcase⟩ := hc
  simp only [RetentionProgramCase.postInit, Except.then_eq_ok, raiseIf_eq_ok] at hcase
  exact Time.not_lt.mp hcase.2.1

/-- In every run that returns, the byte-time is classified exactly. -/
theorem byte_time_classified (hc : c.construct = .ok ⟨⟩)
    (hi : initRun fingerprint c base m = .ok run)
    (hr : runRetentionProgram fingerprint c base m = .ok (some r)) :
    ∃ points entries h final, Timeline c m (startHead c run) points h ∧
      nextInstant c m h = none ∧ closeProgram c m h.run = .ok ⟨⟩ final ∧
      Trace (Enters c m) run entries final ∧ Classified c points entries r := by
  have ha := construct_accepted hc
  have hstart := startHead_sound (m := m) ha hi
  obtain ⟨run', hok⟩ := (runRetentionProgram_eq_ok hi).mp hr
  obtain ⟨h, hreach, hn, r', hclose, hsome, hfinish⟩ :=
    runAll_eq_ok ha hstart (initRun_empty hi) hok
  obtain rfl := Option.some.inj hsome
  obtain ⟨points, htimeline⟩ := hreach.timeline ha hstart
  obtain ⟨hsound, done, now, htrace, haccounted, hwithin, _⟩ :=
    htimeline.accounted ha hi (construct_ends hc)
  obtain ⟨entries, hallowed, hending⟩ := closeProgram_entered _ _ hclose
  have hempty := closeProgram_empties ha hsound hclose
  have hkept := trace_kept hending haccounted.kept
  have hwhole := htrace.append hending
  obtain ⟨htotal, huseful, honce⟩ := hkept.sums hempty
  have haudit : run.audit = [] := by
    obtain ⟨_, _, _, truth, _, rfl⟩ := initRun_eq_ok hi
    rfl
  unfold finish at hfinish
  obtain ⟨_, hfinish⟩ := Except.then_eq_ok.mp hfinish
  obtain rfl := Except.pure_eq_ok.mp hfinish
  refine ⟨points, done ++ entries, h, run', htimeline, hn, hclose, hwhole, trace_briefs hwhole haudit,
    hkept.charged, rfl, ?_, hkept.tiles hempty, honce, htotal, huseful, hkept.wasted⟩
  rw [← haccounted.enters hwithin hending hallowed]
  unfold accrued
  rw [hempty]
  rfl

/-- A run with a reuse hit. -/
theorem reuse_classified : ∃ r points entries,
    runRetentionProgram (fun _ => digest) reuseProgram (gapManifest .one)
      (boundManifest .lru .one 1) = .ok (some r) ∧
    0 < r.consumedReuseOpportunities ∧ Classified reuseProgram points entries r := by
  have hinit : ((initRun (fun _ => digest) reuseProgram (gapManifest .one)
      (boundManifest .lru .one 1)).toOption.bind some).isSome = true := by decide +kernel
  have hresult : ((runRetentionProgram (fun _ => digest) reuseProgram (gapManifest .one)
      (boundManifest .lru .one 1)).toOption.bind fun answer => answer.bind fun r =>
        if 0 < r.consumedReuseOpportunities then some r else none).isSome = true := by decide +kernel
  obtain ⟨run, _, hrun, _⟩ := ok_of_isSome hinit
  obtain ⟨answer, r, hanswer, hr⟩ := ok_of_isSome hresult
  obtain ⟨r, rfl, hconsumed⟩ := Option.bind_eq_some_iff.mp hr
  rw [Option.ite_none_right_eq_some] at hconsumed
  obtain ⟨hhit, _⟩ := hconsumed
  obtain ⟨points, entries, _, _, _, _, _, _, hclassified⟩ :=
    byte_time_classified (by decide +kernel) hrun hanswer
  exact ⟨r, points, entries, hanswer, hhit, hclassified⟩

end Runs

end Cadi.Retention
