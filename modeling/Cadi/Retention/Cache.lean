import Cadi.Retention.Engine

namespace Cadi.Retention
open Library
set_option autoImplicit true

/-- What the engine holds, without the accounting: the ground truth, the sessions, the resident
States, the capacity outcome and, of each audit record, its time, State and kind. -/
structure Cache where
  truth : Dict String Truth
  sessions : Dict String Bool
  resident : Dict String Resident
  outcome : CapacityOutcome
  marks : List (Nat × Option String × RetentionAuditKind)

def RetentionAuditRecord.mark (r : RetentionAuditRecord) : Nat × Option String × RetentionAuditKind :=
  (r.timeSeconds.units, r.stateId, r.kind)

def RetentionRun.cache (run : RetentionRun) : Cache :=
  ⟨run.truth, run.sessions, run.resident, run.capacityOutcome,
    run.audit.map RetentionAuditRecord.mark⟩

namespace Cache

def bytes (v : Cache) : Nat := c73DefaultStateBytes * v.resident.keys.length

def mark (v : Cache) (now : Time) (kind : RetentionAuditKind) (stateId : Option String) : Cache :=
  { v with marks := v.marks ++ [(now.units, stateId, kind)] }

def drop (v : Cache) (stateId : String) : Cache := { v with resident := v.resident.erase stateId }

def place (v : Cache) (stateId : String) (r : Resident) : Cache :=
  { v with resident := v.resident.set stateId r }

def setTruth (v : Cache) (stateId : String) (t : Truth) : Cache :=
  { v with truth := v.truth.set stateId t }

@[simp] theorem mark_resident (v : Cache) : (v.mark now kind k).resident = v.resident := rfl

@[simp] theorem mark_truth (v : Cache) : (v.mark now kind k).truth = v.truth := rfl

@[simp] theorem mark_sessions (v : Cache) : (v.mark now kind k).sessions = v.sessions := rfl

@[simp] theorem mark_outcome (v : Cache) : (v.mark now kind k).outcome = v.outcome := rfl

@[simp] theorem mark_bytes (v : Cache) : (v.mark now kind k).bytes = v.bytes := rfl

@[simp] theorem drop_truth (v : Cache) : (v.drop k).truth = v.truth := rfl

@[simp] theorem drop_sessions (v : Cache) : (v.drop k).sessions = v.sessions := rfl

@[simp] theorem drop_resident (v : Cache) : (v.drop k).resident = v.resident.erase k := rfl

@[simp] theorem place_truth (v : Cache) : (v.place k r).truth = v.truth := rfl

@[simp] theorem place_sessions (v : Cache) : (v.place k r).sessions = v.sessions := rfl

@[simp] theorem place_resident (v : Cache) : (v.place k r).resident = v.resident.set k r := rfl

@[simp] theorem setTruth_resident (v : Cache) : (v.setTruth k t).resident = v.resident := rfl

@[simp] theorem setTruth_sessions (v : Cache) : (v.setTruth k t).sessions = v.sessions := rfl

@[simp] theorem setTruth_truth (v : Cache) : (v.setTruth k t).truth = v.truth.set k t := rfl

@[simp] theorem setTruth_bytes (v : Cache) : (v.setTruth k t).bytes = v.bytes := rfl

/-- Everything resident was resident before, with the same admission and expiry. -/
def Shrinks (v w : Cache) : Prop :=
  ∀ k r, w.resident.get? k = some r → ∃ r', v.resident.get? k = some r' ∧
    r.admissionTimeSeconds = r'.admissionTimeSeconds ∧ r.expirySeconds = r'.expirySeconds

theorem Shrinks.refl (v : Cache) : v.Shrinks v := fun _ r h => ⟨r, h, rfl, rfl⟩

theorem Shrinks.of_resident (h : w.resident = v.resident) : Shrinks v w :=
  fun _ r hr => ⟨r, h ▸ hr, rfl, rfl⟩

theorem Shrinks.trans (h : Shrinks u v) (h' : Shrinks v w) : Shrinks u w := by
  intro k r hr
  obtain ⟨r₁, hr₁, hat₁, hexp₁⟩ := h' k r hr
  obtain ⟨r₂, hr₂, hat₂, hexp₂⟩ := h k r₁ hr₁
  exact ⟨r₂, hr₂, hat₁.trans hat₂, hexp₁.trans hexp₂⟩

theorem Shrinks.drop (v : Cache) (k : String) : v.Shrinks (v.drop k) :=
  fun _ r hr => ⟨r, (Dict.get?_erase_eq_some_iff.mp hr).2, rfl, rfl⟩

theorem Shrinks.mem (h : Shrinks v w) (hk : k ∈ w.resident) : k ∈ v.resident := by
  obtain ⟨r, hr⟩ := Dict.mem_iff.mp hk
  obtain ⟨r', hr', _⟩ := h k r hr
  exact Dict.mem_of_get? hr'

theorem length_le_of_keys {d : Dict String α} {e : Dict String β} (h : ∀ k ∈ e, k ∈ d) :
    e.keys.length ≤ d.keys.length :=
  (List.subperm_of_subset e.nodup fun k hk => h k hk).length_le

theorem Shrinks.bytes_le (h : Shrinks v w) : w.bytes ≤ v.bytes :=
  Nat.mul_le_mul_left _ (length_le_of_keys fun _ => h.mem)

/-- The resident States are declared and their intervals began by the time; everything declared
has its ground truth and its session. -/
structure Sound (c : RetentionProgramCase) (now : Time) (v : Cache) : Prop where
  resident : ∀ k r, v.resident.get? k = some r →
    k ∈ c.stateIds ∧ r.intervalStartSeconds ≤ now ∧ r.admissionTimeSeconds ≤ now
  truth : ∀ k ∈ c.stateIds, k ∈ v.truth
  sessions : ∀ k ∈ c.sessionIds, k ∈ v.sessions

/-- The resident bytes fit the capacity. -/
def Fits (m : C73RetentionManifest) (v : Cache) : Prop := v.bytes ≤ m.capacityBytes

instance (m : C73RetentionManifest) (v : Cache) : Decidable (Fits m v) :=
  inferInstanceAs (Decidable (_ ≤ _))

theorem Fits.shrinks (h : Fits m v) (hs : Shrinks v w) : Fits m w := hs.bytes_le.trans h

namespace Sound
variable {c : RetentionProgramCase} {v : Cache}

theorem declared (h : Sound c now v) (hk : k ∈ v.resident) : k ∈ c.stateIds := by
  obtain ⟨r, hr⟩ := Dict.mem_iff.mp hk
  exact (h.resident k r hr).1

theorem mark (h : Sound c now v) : Sound c now (v.mark t kind k) := ⟨h.resident, h.truth, h.sessions⟩

theorem drop (h : Sound c now v) : Sound c now (v.drop k) :=
  ⟨Dict.forall_erase h.resident, h.truth, h.sessions⟩

theorem setTruth (h : Sound c now v) : Sound c now (v.setTruth k t) :=
  ⟨h.resident, fun x hx => Dict.mem_set.mpr (.inr (h.truth x hx)), h.sessions⟩

theorem place (h : Sound c now v) (hk : k ∈ c.stateIds) (hi : r.intervalStartSeconds ≤ now)
    (ha : r.admissionTimeSeconds ≤ now) : Sound c now (v.place k r) :=
  ⟨Dict.forall_set h.resident ⟨hk, hi, ha⟩, h.truth, h.sessions⟩

theorem later (h : Sound c now v) (hle : now ≤ t) : Sound c t v :=
  ⟨fun k r hr => ⟨(h.resident k r hr).1, (h.resident k r hr).2.1.trans hle,
    (h.resident k r hr).2.2.trans hle⟩, h.truth, h.sessions⟩

end Sound

end Cache

section Cases

/-- What the constructors promise of an event. -/
structure EventDeclared (c : RetentionProgramCase) (e : RetentionEvent) : Prop where
  starts : c.programStartSeconds ≤ e.timeSeconds
  ends : e.timeSeconds ≤ c.programEndSeconds
  state : ∀ k, e.stateId? = some k → k ∈ c.stateIds
  session : ∀ k, e.sessionId? = some k → k ∈ c.sessionIds
  lifecycle : ∀ k lifecycles, e.action = .dependents k lifecycles →
    ∃ l, deriveStateLifecycle lifecycles = .ok l

/-- What the constructors promise of a case. -/
structure Accepted (c : RetentionProgramCase) : Prop where
  sizes : ∀ x ∈ c.states, x.sizeBytes = c73DefaultStateBytes
  named : ∀ x ∈ c.states, x.stateId ≠ ""
  lifecycles : ∀ x ∈ c.states, ∃ l, deriveStateLifecycle x.initialDependents = .ok l
  sessions : ∀ x ∈ c.states, x.sessionId ∈ c.sessionIds
  events : ∀ e ∈ c.events, EventDeclared c e

variable {c : RetentionProgramCase}

theorem checkDeclared_eq_ok (h : c.checkDeclared e = .ok ⟨⟩) :
    (c.programStartSeconds ≤ e.timeSeconds ∧ e.timeSeconds ≤ c.programEndSeconds) ∧
      (∀ k, e.stateId? = some k → k ∈ c.stateIds) ∧
      ∀ k, e.sessionId? = some k → k ∈ c.sessionIds := by
  simp only [RetentionProgramCase.checkDeclared, Except.then_eq_ok, raiseIf_eq_ok] at h
  obtain ⟨htime, hstate, hsession⟩ := h
  simp only [Option.mem_def, not_exists, not_and, not_not] at hstate hsession
  exact ⟨not_not.mp htime, hstate, hsession⟩

theorem construct_accepted (h : c.construct = .ok ⟨⟩) : Accepted c := by
  simp only [RetentionProgramCase.construct, Except.then_eq_ok, Except.forM_eq_ok] at h
  obtain ⟨-, hstates, hevents, hcase⟩ := h
  have hstate (x : RetentionStateSpec) (hx : x ∈ c.states) : x.stateId ≠ "" ∧
      (∃ l, deriveStateLifecycle x.initialDependents = .ok l) ∧
      x.sizeBytes = c73DefaultStateBytes := by
    have hpost := hstates x hx
    simp only [RetentionStateSpec.postInit, nonempty, Except.bind_eq_ok, raiseIf_eq_ok,
      not_not] at hpost
    obtain ⟨-, hname, -, -, l, hl, hsize⟩ := hpost
    exact ⟨hname, ⟨l, hl⟩, hsize⟩
  simp only [RetentionProgramCase.postInit, Except.then_eq_ok, Except.forM_eq_ok, raiseIf_eq_ok,
    not_exists, not_and, not_not] at hcase
  obtain ⟨-, -, -, -, -, -, -, hsessions, -, -, hdeclared, -, -, -⟩ := hcase
  refine ⟨fun x hx => (hstate x hx).2.2, fun x hx => (hstate x hx).1, fun x hx => (hstate x hx).2.1,
    hsessions, fun e he => ?_⟩
  obtain ⟨⟨hstart, hend⟩, hk, hs⟩ := checkDeclared_eq_ok (hdeclared e he)
  refine ⟨hstart, hend, hk, hs, fun k lifecycles hact => ?_⟩
  have hpost := hevents e he
  simp only [RetentionEvent.postInit, hact, Except.bind_eq_ok] at hpost
  obtain ⟨-, -, -, -, -, -, l, hl, -⟩ := hpost
  exact ⟨l, hl⟩

theorem Accepted.spec (h : Accepted c) (hk : k ∈ c.stateIds) : ∃ spec, item c.specs k = .ok spec ∧
    spec.sizeBytes = c73DefaultStateBytes ∧ spec.sessionId ∈ c.sessionIds := by
  have hmem : k ∈ c.specs := Dict.mem_ofList (by
    simpa only [List.map_map, Function.comp_def, RetentionProgramCase.stateIds] using hk)
  obtain ⟨spec, hspec⟩ := Dict.mem_iff.mp hmem
  have hin := Dict.mem_of_get?_ofList hspec
  obtain ⟨x, hx, he⟩ := List.mem_map.mp hin
  obtain ⟨-, rfl⟩ := Prod.mk.inj he
  exact ⟨x, item_eq_ok.mpr hspec, h.sizes x hx, h.sessions x hx⟩

theorem Accepted.name (h : Accepted c) (hk : k ∈ c.stateIds) : k ≠ "" := by
  obtain ⟨x, hx, rfl⟩ := List.mem_map.mp hk
  exact h.named x hx

theorem Accepted.bytesOf (h : Accepted c) (hids : ∀ k ∈ ids, k ∈ c.stateIds) :
    bytesOf c ids = .ok (c73DefaultStateBytes * ids.length) := by
  have hmap : ids.mapM (fun stateId => (·.sizeBytes) <$> item c.specs stateId) =
      .ok (List.replicate ids.length c73DefaultStateBytes) := by
    rw [Except.mapM_eq_ok]
    induction ids with
    | nil => exact .nil
    | cons k ids ih =>
      obtain ⟨spec, hspec, hsize, _⟩ := h.spec (hids k List.mem_cons_self)
      refine .cons ?_ (ih fun k' hk' => hids k' (List.mem_cons_of_mem _ hk'))
      rw [hspec, ← hsize]
      rfl
  unfold Retention.bytesOf
  rw [hmap, Except.ok_bind, List.sum_replicate_nat, Nat.mul_comm]
  rfl

end Cases

end Cadi.Retention
