import Cadi.Adapter.Runs

namespace Cadi
open Library
set_option autoImplicit true

namespace ContinuityAdapter

/-- The record of a finalization of the request that changed the core. -/
def Finalizes (requestId : String) (r : SemanticActionRecord) : Prop :=
  r.operation = "finalize_request" ∧ r.outcome = .applied ∧ r.resultId = some requestId

instance (requestId : String) (r : SemanticActionRecord) : Decidable (Finalizes requestId r) :=
  inferInstanceAs (Decidable (_ ∧ _ ∧ _))

/-- How many records say that the request was finalized. -/
def finalizations (requestId : String) (records : List SemanticActionRecord) : Nat :=
  records.countP fun r => Finalizes requestId r

/-- The request is completed in the core. -/
def RequestCompleted (c : ContinuityCore) (requestId : String) : Prop :=
  ∃ r, c.requests.get? requestId = some r ∧ r.status = .completed

section Entries
variable {semanticValidity : SemanticValidity} {sha256 : String → String} {c c' : ContinuityCore}

theorem label_eq_finalize {operation : PublicOperation} (h : label operation = "finalize_request") :
    ∃ requestId outputId now, operation = .finalizeRequest requestId outputId now := by
  cases operation with
  | finalizeRequest requestId outputId now => exact ⟨requestId, outputId, now, rfl⟩
  | completeAttempt attemptId succeeded =>
    cases succeeded with
    | true => simp [label] at h
    | false => simp [label] at h
  | _ => simp [label] at h

/-- What an applied finalization did: it committed the Attempt that was CURRENT before it. -/
theorem Entry.finalize (h : Entry semanticValidity sha256 c r c') (hr : Ready c)
    (hf : Finalizes requestId r) : ∃ q a o, q.id = requestId ∧ FinalizeAllowed c q a o ∧
      c' = (Effect.finalize q a o).apply c := by
  obtain ⟨hname, houtcome, hresult⟩ := hf
  cases h with
  | rejected => cases houtcome
  | noted hne => exact (hne hname).elim
  | @called now event call c' hcall _ =>
    obtain ⟨clock, operation⟩ := call
    obtain ⟨request, outputId, shown, rfl⟩ := label_eq_finalize hname
    have hg := hr.sound.reached.grounded
    have hid : request = requestId := Option.some.inj hresult
    have htakes := (finalizeRequest_takes hg clock request outputId shown).discard.of_ok hcall
    obtain ⟨_, ⟨rfl, _⟩ | ⟨q, a, o, hq, _, ht⟩⟩ := htakes
    · -- a core that did not change has the same fingerprint
      rw [recordOf, if_pos rfl] at houtcome
      cases houtcome
    · exact ⟨q, a, o, hq.trans hid, ht.1, ht.2⟩

/-- Behind every record is at most one call of the core. -/
theorem Entry.steps (h : Entry semanticValidity sha256 c r c') :
    c' = c ∨ ∃ call : Call, call.operation.newId ≠ some "" ∧ c' = step semanticValidity c call := by
  cases h with
  | rejected => exact .inl rfl
  | noted => exact .inl rfl
  | @called now event call c' hcall hid =>
    have hstep : step semanticValidity c call = c' := congrArg finalState hcall
    exact .inr ⟨call, hid, hstep.symm⟩

theorem Entry.persists (h : Entry semanticValidity sha256 c r c') (hr : Ready c) : Persists c c' := by
  rcases h.steps with rfl | ⟨call, _, rfl⟩
  · exact .refl _
  · exact hr.sound.reached.grounded.persists_run semanticValidity [call]

theorem RequestCompleted.persists (h : RequestCompleted c requestId) (hp : Persists c c') :
    RequestCompleted c' requestId := by
  obtain ⟨r, hr, hs⟩ := h
  obtain ⟨r', hr', hstays⟩ := hp.requests requestId r hr
  have hterminal : r.status.terminal := by
    rw [hs]
    decide
  exact ⟨r', hr', (hstays.closed hterminal) ▸ hs⟩

theorem finalizations_append (requestId : String) (rs : List SemanticActionRecord)
    (r : SemanticActionRecord) : finalizations requestId (rs ++ [r]) =
      finalizations requestId rs + if Finalizes requestId r then 1 else 0 := by
  unfold finalizations
  rw [List.countP_append, List.countP_singleton]
  simp only [decide_eq_true_eq]

end Entries

section Runs
variable {semanticValidity : SemanticValidity} {sha256 : String → String} {others : Prop}
  {start : ContinuityAdapter} {c : ContinuityCore}

/-- A request that a record says was finalized is completed, and it was finalized once. -/
theorem Chronicle.finalized (h : Chronicle semanticValidity sha256 others start rs c)
    (hs : start.records = []) (requestId : String) : finalizations requestId rs = 0 ∨
      finalizations requestId rs = 1 ∧ RequestCompleted c requestId := by
  induction h with
  | start =>
    rw [hs]
    exact .inl rfl
  | @entry rs c r c' _ hr he ih =>
    rw [finalizations_append]
    by_cases hf : Finalizes requestId r
    · rw [if_pos hf]
      obtain ⟨q, a, o, hq, ha, rfl⟩ := he.finalize hr hf
      have hstored : c.requests.get? requestId = some q := hq ▸ ha.request
      right
      constructor
      · rcases ih with hzero | ⟨_, q', hq', hcompleted⟩
        · rw [hzero]
        · -- a finalization is of a request that is not completed
          obtain rfl := Option.some.inj (hstored.symm.trans hq')
          refine absurd ?_ ha.opened
          rw [hcompleted]
          decide
      · exact ⟨q.finalized a o, hq ▸ Dict.get?_set_self _ _ _, rfl⟩
    · rw [if_neg hf, Nat.add_zero]
      rcases ih with hzero | ⟨hone, hcompleted⟩
      · exact .inl hzero
      · exact .inr ⟨hone, hcompleted.persists (he.persists hr)⟩
  | @other rs c ho _ hr call hid ih =>
    rcases ih with hzero | ⟨hone, hcompleted⟩
    · exact .inl hzero
    · exact .inr ⟨hone, hcompleted.persists
        (hr.sound.reached.grounded.persists_run semanticValidity [call])⟩

theorem Chronicle.calls (h : Chronicle semanticValidity sha256 others start rs c) :
    ∃ calls, (∀ call ∈ calls, call.operation.newId ≠ some "") ∧
      c = run (step semanticValidity) start.core calls := by
  have hsnoc {c : ContinuityCore} {call : Call} (hid : call.operation.newId ≠ some "")
      (hc : ∃ calls, (∀ call ∈ calls, call.operation.newId ≠ some "") ∧
        c = run (step semanticValidity) start.core calls) :
      ∃ calls, (∀ call ∈ calls, call.operation.newId ≠ some "") ∧
        step semanticValidity c call = run (step semanticValidity) start.core calls := by
    obtain ⟨calls, hcalls, rfl⟩ := hc
    refine ⟨calls ++ [call], fun call' hm => ?_, ?_⟩
    · rcases List.mem_append.mp hm with hm | hm
      · exact hcalls call' hm
      · exact List.mem_singleton.mp hm ▸ hid
    · rw [run_append]
      rfl
  induction h with
  | start => exact ⟨[], fun _ h => absurd h List.not_mem_nil, rfl⟩
  | @entry rs c r c' _ _ he ih =>
    rcases he.steps with rfl | ⟨call, hid, rfl⟩
    · exact ih
    · exact hsnoc hid ih
  | other _ _ _ call hid ih => exact hsnoc hid ih

/-- What holds of an adapter and its core at any time. -/
structure Safe (semanticValidity : SemanticValidity) (start : ContinuityCore)
    (h : Host ContinuityAdapter) : Prop where
  oracle : assertAll semanticValidity h.world.core = .ok ()
  calls : ∃ calls, (∀ call ∈ calls, call.operation.newId ≠ some "") ∧
    h.world.core = run (step semanticValidity) start calls
  once : ∀ requestId, finalizations requestId h.world.records ≤ 1
  completed : ∀ requestId, finalizations requestId h.world.records = 1 →
    RequestCompleted h.world.core requestId

theorem Kept.safe (hk : Kept semanticValidity sha256 others start h) (hs : start.records = []) :
    Safe semanticValidity start.core h where
  oracle := (assertAll_eq_ok semanticValidity _).mpr hk.ready.sound.oracle
  calls := hk.chronicle.calls
  once requestId := by
    rcases hk.chronicle.finalized hs requestId with hzero | ⟨hone, _⟩
    · omega
    · omega
  completed requestId hone := by
    rcases hk.chronicle.finalized hs requestId with hzero | ⟨_, hcompleted⟩
    · omega
    · exact hcompleted

end Runs

/-- An adapter started on the core of any run, in any simulator, with whatever events are scheduled,
cancelled and delivered and whatever others call on the core in between: the oracle accepts the
core, the core is changed by its public methods alone, and no request is finalized twice. -/
theorem adapter_safe (semanticValidity : SemanticValidity) (sha256 : String → String)
    (calls : List Call) (hnamed : ∀ call ∈ calls, call.operation.newId ≠ some "")
    (hfloats : ∀ call ∈ calls, RecordsFloats call) (history : History) (inputs : List AdapterInput)
    (hi : ∀ i ∈ inputs, i.Admitted True) :
    Throughout (adapterStep semanticValidity sha256)
      (Safe semanticValidity (run (step semanticValidity) {} calls))
      { history, world := { core := run (step semanticValidity) {} calls } } inputs := by
  have hkept : Kept semanticValidity sha256 True { core := run (step semanticValidity) {} calls }
      { history, world := { core := run (step semanticValidity) {} calls } } :=
    ⟨.of_run hnamed hfloats, .start⟩
  exact (hkept.throughout hi).mono fun h hk => hk.safe rfl

/-- A core with a continuation that requests can be made for. -/
def scaffold : List Call :=
  [⟨.int 0, .createProgram "p"⟩, ⟨.int 0, .createSession "s" "p"⟩,
    ⟨.int 0, .createContinuation "c" "s" [] .active⟩]

/-- An event at a time with strings in its payload. -/
def eventAt (time : Nat) (kind : EventKind) (items : List (String × String)) : AdapterInput :=
  .perform (.schedule { kind, at' := some (.int time), payload := payloadOf (stringItems items) })

/-- A retry that overtakes its request while another component calls the core. -/
def retryRace : List AdapterInput :=
  [eventAt 0 .requestCreated [("request_id", "r"), ("continuation_id", "c")], .pass none,
    eventAt 1 .attemptStarted [("request_id", "r"), ("attempt_id", "a1")],
    eventAt 5 .attemptTimeout
      [("request_id", "r"), ("timed_out_attempt_id", "a1"), ("retry_attempt_id", "a2")],
    eventAt 6 .lateResult [("attempt_id", "a1")], .pass none, .pass none,
    .call ⟨.int 0, .createProgram "q"⟩, .pass none, .pass none]

theorem retryRace_admitted : ∀ i ∈ retryRace, i.Admitted True := by
  have hcall : (AdapterInput.call ⟨.int 0, .createProgram "q"⟩).Admitted True := by
    refine ⟨True.intro, by decide, fun e he => ?_⟩
    cases he
  simp only [retryRace, List.forall_mem_cons]
  exact ⟨True.intro, True.intro, True.intro, True.intro, True.intro, True.intro, True.intro, hcall,
    True.intro, True.intro, fun i hi => absurd hi List.not_mem_nil⟩

theorem scaffold_floats : ∀ call ∈ scaffold, RecordsFloats call := by
  have hnone (operation : PublicOperation) (h : ∀ e, operation ≠ .recordEvidence e) :
      RecordsFloats ⟨.int 0, operation⟩ := fun e he => absurd he (h e)
  simp only [scaffold, List.forall_mem_cons]
  refine ⟨hnone _ fun e he => ?_, hnone _ fun e he => ?_, hnone _ fun e he => ?_, ?_⟩
  · cases he
  · cases he
  · cases he
  · exact fun call hcall => absurd hcall List.not_mem_nil

theorem adapter_safe_race : Throughout (adapterStep defaultValidity id)
    (Safe defaultValidity (run (step defaultValidity) {} scaffold))
    { world := { core := run (step defaultValidity) {} scaffold } } retryRace :=
  adapter_safe defaultValidity id scaffold (by decide) scaffold_floats {} retryRace retryRace_admitted

section Audit
variable {semanticValidity : SemanticValidity} {sha256 : String → String} {c c' : ContinuityCore}
  {start : ContinuityAdapter}

/-- From one fingerprint to another, the records tell exactly which actions changed it. -/
def Audited (first : String) : List SemanticActionRecord → String → Prop
  | [], last => last = first
  | r :: rs, last =>
    (r.fingerprint = first ↔ r.outcome ≠ .applied ∨ r.operation = "schedule_retry") ∧
      Audited r.fingerprint rs last

theorem Audited.snoc (h : Audited first rs middle)
    (hr : r.fingerprint = middle ↔ r.outcome ≠ .applied ∨ r.operation = "schedule_retry") :
    Audited first (rs ++ [r]) r.fingerprint := by
  induction rs generalizing first with
  | nil =>
    obtain rfl : middle = first := h
    exact ⟨hr, rfl⟩
  | cons s rs ih => exact ⟨h.1, ih h.2⟩

theorem label_ne_schedule (operation : PublicOperation) : label operation ≠ "schedule_retry" := by
  intro h
  cases operation with
  | completeAttempt attemptId succeeded =>
    cases succeeded with
    | true => simp [label] at h
    | false => simp [label] at h
  | _ => simp [label] at h

theorem Entry.audited (h : Entry semanticValidity sha256 c r c') :
    r.fingerprint = fingerprintOf sha256 c' ∧ (r.fingerprint = fingerprintOf sha256 c ↔
      r.outcome ≠ .applied ∨ r.operation = "schedule_retry") := by
  cases h with
  | rejected => exact ⟨rfl, fun _ => .inl AdapterOutcome.noConfusion, fun _ => rfl⟩
  | noted _ happlied =>
    exact ⟨rfl, fun _ => (Decidable.em _).elim (fun ho => .inr (happlied ho)) .inl, fun _ => rfl⟩
  | @called now event call c' hcall hid =>
    refine ⟨rfl, ?_⟩
    by_cases hsame : fingerprintOf sha256 c' = fingerprintOf sha256 c
    · simp only [recordOf, hsame, ↓reduceIte, ne_eq, reduceCtorEq, not_false_eq_true, true_or]
    · simp only [recordOf, hsame, ↓reduceIte, ne_eq, not_true_eq_false, label_ne_schedule, or_self]

theorem Chronicle.audited (h : Chronicle semanticValidity sha256 False start rs c)
    (hs : start.records = []) :
    Audited (fingerprintOf sha256 start.core) rs (fingerprintOf sha256 c) := by
  induction h with
  | start =>
    rw [hs]
    exact (rfl : fingerprintOf sha256 start.core = fingerprintOf sha256 start.core)
  | entry _ _ he ih =>
    obtain ⟨hlast, hchange⟩ := he.audited
    have haudited := ih.snoc hchange
    rwa [hlast] at haudited
  | other ho => exact ho.elim

end Audit

/-- While the adapter alone drives the core, its records account for every change: the fingerprint
after an action is the one before it exactly where the record is not APPLIED, or notes the schedule
of a retry. -/
theorem records_audited (semanticValidity : SemanticValidity) (sha256 : String → String)
    (calls : List Call) (hnamed : ∀ call ∈ calls, call.operation.newId ≠ some "")
    (hfloats : ∀ call ∈ calls, RecordsFloats call) (history : History) (inputs : List AdapterInput)
    (hi : ∀ i ∈ inputs, i.Admitted False) :
    ∃ first, snapshotFingerprint sha256 (run (step semanticValidity) {} calls) = .ok first ∧
      Throughout (adapterStep semanticValidity sha256)
        (fun h => ∃ last, snapshotFingerprint sha256 h.world.core = .ok last ∧
          Audited first h.world.records last)
        { history, world := { core := run (step semanticValidity) {} calls } } inputs := by
  have hkept : Kept semanticValidity sha256 False { core := run (step semanticValidity) {} calls }
      { history, world := { core := run (step semanticValidity) {} calls } } :=
    ⟨.of_run hnamed hfloats, .start⟩
  refine ⟨_, snapshotFingerprint_ok hkept.ready.numbers, (hkept.throughout hi).mono fun h hk => ?_⟩
  exact ⟨_, snapshotFingerprint_ok hk.ready.numbers, hk.chronicle.audited rfl⟩

theorem records_audited_race :
    ∃ first, snapshotFingerprint id (run (step defaultValidity) {} scaffold) = .ok first ∧
      Throughout (adapterStep defaultValidity id)
        (fun h => ∃ last, snapshotFingerprint id h.world.core = .ok last ∧
          Audited first h.world.records last)
        { world := { core := run (step defaultValidity) {} scaffold } } (retryRace.take 7) := by
  apply records_audited defaultValidity id scaffold (by decide) scaffold_floats {}
  simp only [retryRace, List.take_succ_cons, List.take_zero, List.forall_mem_cons]
  exact ⟨True.intro, True.intro, True.intro, True.intro, True.intro, True.intro, True.intro,
    fun i hi => absurd hi List.not_mem_nil⟩

end ContinuityAdapter

end Cadi
