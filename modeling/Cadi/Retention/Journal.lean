import Cadi.Library.Traces
import Cadi.Retention.Completion

namespace Cadi.Retention
open Library
set_option autoImplicit true

/-- The part of the engine that the residencies and their accounts are about. -/
structure Books where
  resident : Dict String Resident
  useful : Extent
  wasted : Extent
  audit : List RetentionAuditRecord

def RetentionRun.books (run : RetentionRun) : Books :=
  ⟨run.resident, run.useful, run.wasted, run.audit⟩

/-- What a step of the engine does: it records, opens a residency, closes an interval of one at a
reuse or ends one, or leaves the books as they are. -/
inductive Entry where
  | other
  | note (now : Time) (kind : RetentionAuditKind) (stateId : Option String) (reason : String)
  | admission (now : Time) (stateId : String)
  | hit (start now : Time) (stateId : String)
  | drop (start now : Time) (stateId : String) (reason : ResidencyEndReason)

section Steps
variable (c : RetentionProgramCase) (m : C73RetentionManifest)

/-- The steps of the engine, each with its entry. -/
inductive Enters : RetentionRun → Entry → RetentionRun → Prop where
  | other (h : t.books = s.books) : Enters s .other t
  | note (hkind : kind ≠ .reuseHit) (h : record c m now kind k reason s = .ok ⟨⟩ t) :
      Enters s (.note now kind k reason) t
  | admission (hk : k ∉ s.resident) (h : makeResident c m e k s = .ok ⟨⟩ t) :
      Enters s (.admission e.timeSeconds k) t
  | hit (hr : s.resident.get? k = some r)
      (h : (do
        closeInterval c k now .reuse false
        record c m now .reuseHit k "RESIDENT_AND_SEMANTICALLY_VALID") s = .ok ⟨⟩ t) :
      Enters s (.hit r.intervalStartSeconds now k) t
  | drop (hr : s.resident.get? k = some r) (hend : reason ≠ .reuse)
      (h : closeInterval c k now reason true s = .ok ⟨⟩ t) :
      Enters s (.drop r.intervalStartSeconds now k reason) t

end Steps

/-- What a record tells besides the accounts. -/
def RetentionAuditRecord.brief (a : RetentionAuditRecord) :
    Time × RetentionAuditKind × Option String × String :=
  (a.timeSeconds, a.kind, a.stateId, a.reason)

/-- What the entry records. -/
def Entry.brief : Entry → Option (Time × RetentionAuditKind × Option String × String)
  | .note now kind k reason => some (now, kind, k, reason)
  | .hit _ now k => some (now, .reuseHit, k, "RESIDENT_AND_SEMANTICALLY_VALID")
  | _ => none

section Effects
variable {c : RetentionProgramCase} {m : C73RetentionManifest} {s t : RetentionRun}

theorem record_effect (h : record c m now kind k reason s = .ok u t) :
    t.truth = s.truth ∧ ∃ a : RetentionAuditRecord, a.brief = (now, kind, k, reason) ∧
      t.books = { s.books with audit := s.audit ++ [a] } := by
  obtain ⟨_, _, hget, h⟩ := bind_eq_ok.mp h
  cases hget
  obtain ⟨bytes, _, hbytes, h⟩ := bind_eq_ok.mp h
  obtain ⟨_, rfl⟩ := lift_eq_ok.mp hbytes
  obtain ⟨_, _, hmodify, h⟩ := bind_eq_ok.mp h
  rw [modify_eq_ok] at hmodify
  obtain ⟨_, rfl⟩ := lift_eq_ok.mp h
  rw [← hmodify]
  exact ⟨rfl, _, rfl, rfl⟩

theorem closeInterval_effect (h : closeInterval c k now reason remove s = .ok u t) :
    ∃ r spec useful wasted, s.resident.get? k = some r ∧ c.specs.get? k = some spec ∧
      residencyIntervalByteSeconds spec.sizeBytes r.intervalStartSeconds now reason =
        .ok (useful, wasted) ∧
      t = { s with
        useful := s.useful.add useful
        wasted := s.wasted.add wasted
        resident := if remove then s.resident.erase k
          else s.resident.set k
            { r with intervalStartSeconds := now, lastTouchTimeSeconds := now } } := by
  obtain ⟨_, _, hget, h⟩ := bind_eq_ok.mp h
  cases hget
  obtain ⟨r, _, hitem, h⟩ := bind_eq_ok.mp h
  obtain ⟨hr, rfl⟩ := lift_eq_ok.mp hitem
  obtain ⟨spec, _, hitem, h⟩ := bind_eq_ok.mp h
  obtain ⟨hspec, rfl⟩ := lift_eq_ok.mp hitem
  obtain ⟨⟨useful, wasted⟩, _, hlift, h⟩ := bind_eq_ok.mp h
  obtain ⟨hinterval, rfl⟩ := lift_eq_ok.mp hlift
  exact ⟨r, spec, useful, wasted, item_eq_ok.mp hr, item_eq_ok.mp hspec, hinterval,
    (modify_eq_ok.mp h).symm⟩

theorem makeResident_effect (h : makeResident c m e k s = .ok u t) :
    ∃ ordinal, t = { s with resident := s.resident.set k {
      intervalStartSeconds := e.timeSeconds, lastTouchTimeSeconds := e.timeSeconds,
      admissionTimeSeconds := e.timeSeconds, admissionOrdinal := ordinal,
      expirySeconds := expiryOf m e.timeSeconds } } := by
  obtain ⟨ordinal, _, hordinal, h⟩ := bind_eq_ok.mp h
  obtain ⟨_, rfl⟩ := lift_eq_ok.mp hordinal
  exact ⟨ordinal, (modify_eq_ok.mp h).symm⟩

/-- Every step appends what its entry records. -/
theorem Enters.audit (h : Enters c m s e t) :
    t.audit.map RetentionAuditRecord.brief =
      s.audit.map RetentionAuditRecord.brief ++ e.brief.toList := by
  have hbooks {s t : RetentionRun} {a : RetentionAuditRecord}
      (h : t.books = { s.books with audit := s.audit ++ [a] }) :
      t.audit.map RetentionAuditRecord.brief =
        s.audit.map RetentionAuditRecord.brief ++ [a.brief] := by
    have haudit : t.audit = s.audit ++ [a] := congrArg Books.audit h
    rw [haudit, List.map_append, List.map_singleton]
  cases h with
  | other h =>
    have haudit : t.audit = s.audit := congrArg Books.audit h
    rw [haudit]
    exact (List.append_nil _).symm
  | note _ h =>
    obtain ⟨_, a, ha, h⟩ := record_effect h
    rw [hbooks h, ha]
    rfl
  | admission _ h =>
    obtain ⟨_, rfl⟩ := makeResident_effect h
    exact (List.append_nil _).symm
  | hit _ h =>
    obtain ⟨_, u, hclose, h⟩ := bind_eq_ok.mp h
    obtain ⟨_, _, _, _, _, _, _, rfl⟩ := closeInterval_effect hclose
    obtain ⟨_, a, ha, h⟩ := record_effect h
    rw [hbooks h, ha]
    rfl
  | drop _ _ h =>
    obtain ⟨_, _, _, _, _, _, _, rfl⟩ := closeInterval_effect h
    exact (List.append_nil _).symm

end Effects

/-- The entry is made at the time, and records no eviction but those listed. -/
def Entry.Allowed (now : Time) (evicted : List (String × String)) : Entry → Prop
  | .other => True
  | .note t kind k reason =>
    t.units = now.units ∧ (kind = .evicted → ∃ p ∈ evicted, k = some p.1 ∧ reason = p.2)
  | .admission t _ | .hit _ t _ | .drop _ t _ _ => t.units = now.units

theorem Entry.Allowed.mono {e : Entry} (h : e.Allowed now []) : e.Allowed now evicted := by
  cases e with
  | note t kind k reason =>
    refine ⟨h.1, fun hk => ?_⟩
    obtain ⟨_, hp, _⟩ := h.2 hk
    cases hp
  | _ => exact h

section Operations
variable {c : RetentionProgramCase} {m : C73RetentionManifest} {s : RetentionRun}
  {evicted : List (String × String)}

/-- The computation, when it returns, makes entries at the time and records no eviction but those
listed. -/
def Entered (c : RetentionProgramCase) (m : C73RetentionManifest) (now : Time)
    (evicted : List (String × String)) (x : RetentionM α) (s : RetentionRun) : Prop :=
  Traced (Enters c m) (Entry.Allowed now evicted) x s

theorem record_entered (hkind : kind ≠ .reuseHit) (hnow : t.units = now.units)
    (hevicted : kind = .evicted → ∃ p ∈ evicted, k = some p.1 ∧ reason = p.2) :
    Entered c m now evicted (record c m t kind k reason) s :=
  Traced.one (.note t kind k reason) ⟨hnow, hevicted⟩ fun _ _ h => .note hkind h

theorem drop_entered (hend : reason ≠ .reuse) (hnow : t.units = now.units) :
    Entered c m now evicted (closeInterval c k t reason true) s := by
  intro _ u h
  obtain ⟨r, _, _, _, hr, _⟩ := closeInterval_effect h
  exact Traced.one (.drop r.intervalStartSeconds t k reason) hnow
    (fun _ _ h => .drop hr hend h) _ u h

theorem hit_entered (hnow : t.units = now.units) : Entered c m now evicted (do
    closeInterval c k t .reuse false
    record c m t .reuseHit k "RESIDENT_AND_SEMANTICALLY_VALID") s := by
  intro _ u h
  have hclose := h
  obtain ⟨_, _, hclose, _⟩ := bind_eq_ok.mp hclose
  obtain ⟨r, _, _, _, hr, _⟩ := closeInterval_effect hclose
  exact Traced.one (.hit r.intervalStartSeconds t k) hnow (fun _ _ h => .hit hr h) _ u h

theorem other_entered {f : PUnit → RetentionM α} {g : RetentionRun → RetentionRun}
    (hg : (g s).books = s.books) (hf : Entered c m now evicted (f ⟨⟩) (g s)) :
    Entered c m now evicted (modify g >>= f) s :=
  Traced.modify_bind .other True.intro (.other hg) hf

theorem dropped_entered (hend : reason ≠ .reuse) (hnow : t.units = now.units)
    (hkind : kind ≠ .reuseHit) (hevicted : kind ≠ .evicted) : Entered c m now evicted
      (do closeInterval c k t reason true; record c m t kind sid text) s :=
  Traced.bind (drop_entered hend hnow) fun _ _ _ =>
    record_entered hkind hnow fun h => absurd h hevicted

theorem markInfeasible_entered (hnow : t.units = now.units) :
    Entered c m now evicted (markInfeasible c m t k reason) s :=
  other_entered rfl (record_entered (by decide) hnow fun h => nomatch h)

theorem settleEvent_entered (hnow : e.timeSeconds.units = now.units) :
    Entered c m now [] (settleEvent c m e) s := by
  unfold settleEvent
  split
  · refine Traced.get_bind (Traced.lift_bind fun t _ => other_entered rfl ?_)
    split
    · exact dropped_entered (by decide) hnow (by decide) (by decide)
    · exact record_entered (by decide) hnow fun h => nomatch h
  · exact Traced.pure

theorem updateEvent_entered (hnow : e.timeSeconds.units = now.units) :
    Entered c m now [] (updateEvent c m e) s := by
  unfold updateEvent
  split
  · refine Traced.lift_bind fun _ _ => Traced.get_bind (Traced.lift_bind fun t _ => ?_)
    exact other_entered rfl (record_entered (by decide) hnow fun h => nomatch h)
  · exact other_entered rfl (record_entered (by decide) hnow fun h => nomatch h)
  · exact Traced.pure

theorem policyReleases_entered : Entered c m now [] (policyReleases c m now) s := by
  refine Traced.get_bind (Traced.lift_bind fun _ _ => Traced.forM (fun k _ s => ?_) s)
  exact dropped_entered (by decide) rfl (by decide) (by decide)

theorem ttlExpiries_entered : Entered c m now [] (ttlExpiries c m now) s := by
  unfold ttlExpiries
  split
  · refine Traced.get_bind (Traced.forM (fun k _ s => ?_) s)
    refine Traced.get_bind (Traced.lift_bind fun r _ => Traced.lift_bind fun _ _ => ?_)
    exact dropped_entered (by decide) rfl (by decide) (by decide)
  · exact Traced.pure

theorem reuseEvent_entered (hnow : e.timeSeconds.units = now.units) :
    Entered c m now [] (reuseEvent c m e) s := by
  unfold reuseEvent
  split
  · refine other_entered rfl (Traced.get_bind (Traced.lift_bind fun t _ => ?_))
    split
    · exact other_entered rfl (record_entered (by decide) hnow fun h => nomatch h)
    · split
      · exact record_entered (by decide) hnow fun h => nomatch h
      · exact other_entered rfl (hit_entered hnow)
  · exact Traced.pure

theorem refuse_entered (hnow : t.units = now.units)
    (hwhy : why.1 = .admissionSkipped ∨ why.1 = .capacityInfeasible) :
    Entered c m now [] (refuse c m t k why) s := by
  unfold refuse
  split
  · exact markInfeasible_entered hnow
  · next hkind =>
    have hskipped : why.1 = .admissionSkipped := hwhy.resolve_right hkind
    rw [hskipped]
    exact record_entered (by decide) hnow fun h => nomatch h

/-- A refusal is recorded as a skipped admission or as infeasible capacity. -/
theorem refusal_kinds (h : refusal c m s spec t = .ok (some why)) :
    why.1 = .admissionSkipped ∨ why.1 = .capacityInfeasible := by
  unfold refusal at h
  split at h
  · split at h <;> cases h
    exact .inl rfl
  · split at h <;> cases h
    exact .inl rfl
  · obtain ⟨live, _, h⟩ := Except.bind_eq_ok.mp h
    split at h
    · cases h
      exact .inl rfl
    · obtain ⟨bytes, _, h⟩ := Except.bind_eq_ok.mp h
      split at h <;> cases h
      exact .inr rfl
  · split at h
    · cases h
      exact .inl rfl
    · split at h
      · cases h
      · obtain ⟨bytes, _, h⟩ := Except.bind_eq_ok.mp h
        split at h <;> cases h
        exact .inr rfl

theorem admitState_entered (hnow : e.timeSeconds.units = now.units) :
    Entered c m now [] (admitState c m e k) s := by
  refine Traced.lift_bind fun spec _ => Traced.get_bind (Traced.lift_bind fun t _ => ?_)
  refine other_entered rfl ?_
  split
  · exact record_entered (by decide) hnow fun h => nomatch h
  · split
    · exact record_entered (by decide) hnow fun h => nomatch h
    · next hout =>
      refine Traced.get_bind (Traced.lift_bind fun answer hanswer => ?_)
      cases answer with
      | some why => exact refuse_entered hnow (refusal_kinds hanswer)
      | none => exact Traced.one (.admission e.timeSeconds k) hnow fun _ _ h => .admission (e := e) hout h

theorem admitAll_entered {events : List RetentionEvent}
    (hnow : ∀ e ∈ events, e.timeSeconds.units = now.units) (s : RetentionRun) :
    Entered c m now [] (admitAll c m events) s := by
  induction events generalizing s with
  | nil => exact Traced.pure
  | cons e events ih =>
    refine Traced.bind ?_ fun _ t _ => Traced.bind ?_ fun _ _ _ => Traced.pure
    · unfold admitEvent
      split
      · refine Traced.get_bind (Traced.bind ?_ fun _ _ _ => Traced.get_bind Traced.pure)
        exact admitState_entered (hnow e List.mem_cons_self)
      · exact Traced.pure
    · exact ih (fun e' he' => hnow e' (List.mem_cons_of_mem _ he')) t

theorem evictions_entered (residents : Nat) (s : RetentionRun) :
    Entered c m now [] (evictions c m now residents) s := by
  induction residents generalizing s with
  | zero => exact Traced.pure
  | succ residents ih =>
    refine Traced.get_bind (Traced.lift_bind fun _ _ => ?_)
    split
    · exact Traced.pure
    · refine Traced.lift_bind fun next _ => ?_
      cases next with
      | none => exact Traced.pure
      | some eviction =>
        refine Traced.bind (drop_entered (by decide) rfl) fun _ t _ => ?_
        exact Traced.bind (ih t) fun _ _ _ => Traced.pure

theorem shrink_entered (s : RetentionRun) : Entered c m now [] (shrink c m now) s := by
  refine Traced.get_bind ?_
  split
  · exact Traced.lift_bind fun _ _ => Traced.lift_bind fun _ _ => Traced.pure
  · exact evictions_entered _ s
  · exact evictions_entered _ s
  · refine Traced.lift_bind fun _ _ => ?_
    dsimp only
    split
    · exact Traced.bind (markInfeasible_entered rfl) fun _ t _ => evictions_entered _ t
    · exact evictions_entered _ s

theorem auditAdmission_entered : Entered c m now [] (auditAdmission c m now k) s := by
  unfold auditAdmission
  refine Traced.get_bind ?_
  split
  · exact record_entered (by decide) rfl fun h => nomatch h
  · split
    · exact record_entered (by decide) rfl fun h => nomatch h
    · exact Traced.pure

theorem closeProgram_entered :
    Entered c m c.programEndSeconds [] (closeProgram c m) s := by
  refine Traced.get_bind (Traced.bind (Traced.forM (fun k _ s => ?_) s) fun _ t _ => ?_)
  · exact dropped_entered (by decide) rfl (by decide) (by decide)
  · exact record_entered (by decide) rfl fun h => nomatch h

end Operations

section Passes
variable {c : RetentionProgramCase} {m : C73RetentionManifest} {run run' : RetentionRun} {now : Time}

/-- The phases of a pass that returns. -/
structure Phases (c : RetentionProgramCase) (m : C73RetentionManifest) (now : Time)
    (events : List RetentionEvent) (before settled served admitted enforced after : RetentionRun)
    (ids : List String) (evicted : List (String × String)) : Prop where
  settles : settle c m now events before = .ok ⟨⟩ settled
  serves : serve c m now events settled = .ok ⟨⟩ served
  admits : admitAll c m events served = .ok ids admitted
  shrinks : shrink c m now admitted = .ok evicted enforced
  records : (do
      evicted.forM fun eviction => record c m now .evicted eviction.1 eviction.2
      ids.forM (auditAdmission c m now)
      record c m now .checkpoint none "INTERVAL_ACCOUNTING_CHECKPOINT") enforced = .ok ⟨⟩ after

theorem instant_phases (h : instant c m now events run = .ok ⟨⟩ run') :
    ∃ settled served admitted enforced ids evicted,
      Phases c m now events run settled served admitted enforced run' ids evicted := by
  obtain ⟨_, settled, hsettle, h⟩ := bind_eq_ok.mp h
  obtain ⟨_, served, hserve, h⟩ := bind_eq_ok.mp h
  obtain ⟨ids, admitted, hadmit, h⟩ := bind_eq_ok.mp h
  unfold conclude capacityEnforce at h
  rw [bind_assoc] at h
  obtain ⟨evicted, enforced, hshrink, h⟩ := bind_eq_ok.mp h
  rw [bind_assoc] at h
  exact ⟨settled, served, admitted, enforced, ids, evicted, hsettle, hserve, hadmit, hshrink, h⟩

/-- A pass makes its entries at its time, and records the evictions of its enforcement. -/
theorem Phases.entries (h : Phases c m now events before settled served admitted enforced after
      ids evicted) (hnow : ∀ e ∈ events, e.timeSeconds.units = now.units) :
    ∃ entries, (∀ e ∈ entries, e.Allowed now evicted) ∧
      Trace (Enters c m) before entries after := by
  have hsettle : Entered c m now [] (settle c m now events) before := by
    refine Traced.bind (Traced.forM (fun e he s => settleEvent_entered (hnow e he)) _) fun _ t _ => ?_
    refine Traced.bind (Traced.forM (fun e he s => updateEvent_entered (hnow e he)) t) fun _ _ _ => ?_
    exact policyReleases_entered
  have hserve : Entered c m now [] (serve c m now events) settled :=
    Traced.bind ttlExpiries_entered fun _ t _ =>
      Traced.forM (fun e he s => reuseEvent_entered (hnow e he)) t
  have hrecords : Entered c m now evicted (do
      evicted.forM fun eviction => record c m now .evicted eviction.1 eviction.2
      ids.forM (auditAdmission c m now)
      record c m now .checkpoint none "INTERVAL_ACCOUNTING_CHECKPOINT") enforced := by
    refine Traced.bind (Traced.forM (fun p hp s => ?_) _) fun _ t _ =>
      Traced.bind (Traced.forM (fun k _ s => ?_) t) fun _ _ _ => ?_
    · exact record_entered (by decide) rfl fun _ => ⟨p, hp, rfl, rfl⟩
    · exact auditAdmission_entered.mono fun _ => Entry.Allowed.mono
    · exact record_entered (by decide) rfl fun h => nomatch h
  obtain ⟨es₁, hes₁, htrace₁⟩ := hsettle _ _ h.settles
  obtain ⟨es₂, hes₂, htrace₂⟩ := hserve _ _ h.serves
  obtain ⟨es₃, hes₃, htrace₃⟩ := admitAll_entered hnow _ _ _ h.admits
  obtain ⟨es₄, hes₄, htrace₄⟩ := shrink_entered _ _ _ h.shrinks
  obtain ⟨es₅, hes₅, htrace₅⟩ := hrecords _ _ h.records
  refine ⟨es₁ ++ (es₂ ++ (es₃ ++ (es₄ ++ es₅))), fun e he => ?_,
    htrace₁.append (htrace₂.append (htrace₃.append (htrace₄.append htrace₅)))⟩
  simp only [List.mem_append] at he
  rcases he with he | he | he | he | he
  · exact (hes₁ e he).mono
  · exact (hes₂ e he).mono
  · exact (hes₃ e he).mono
  · exact (hes₄ e he).mono
  · exact hes₅ e he

end Passes

end Cadi.Retention
