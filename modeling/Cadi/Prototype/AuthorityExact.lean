import Cadi.Prototype.AuthorityRuns
import Mathlib.Data.List.Induction

namespace Cadi.Prototype
open Library
set_option autoImplicit true

section Observations
variable {s t : Authority} {e : Envelope}

/-- Since the first state a completion was taken as the current worker's. -/
def Observed (s t : Authority) : Prop :=
  ∃ new, t.outputs = s.outputs ++ new ∧ ∃ o ∈ new, o.isCurrent = true

theorem Observed.put (h : Observed s t) (o : ProcessOutput) : Observed s (t.put o) := by
  obtain ⟨new, hnew, o', ho', hcurrent⟩ := h
  refine ⟨new ++ [o], ?_, o', List.mem_append_left _ ho', hcurrent⟩
  rw [← List.append_assoc, ← hnew]
  rfl

theorem ends_complete_observed (p : AuthorityProcess)
    (ht : ∃ new, t.outputs = s.outputs ++ new)
    (hcurrent : equalsPid (e.payloadGet "pid") t.currentWorkerPid = true) :
    Ends (complete p e) t (Observed s) := by
  obtain ⟨new, hnew⟩ := ht
  unfold complete
  apply Ends.get_bind
  dsimp only
  rw [hcurrent]
  apply Ends.modify_bind
  have hstart (r : EventRecord) (hr : (ProcessOutput.event r).isCurrent = true) :
      Observed s (t.put (.event r)) := by
    refine ⟨new ++ [.event r], ?_, _, List.mem_append_right _ (List.mem_singleton_self _), hr⟩
    rw [← List.append_assoc, ← hnew]
    rfl
  split
  · split
    · exact ends_sendNext (hstart _ rfl) ((hstart _ rfl).put _) fun _ => ((hstart _ rfl).put _).put _
    · exact hstart _ rfl
  · exact hstart _ rfl

end Observations

section Passes
variable {s : Authority} {e : Envelope}

/-- The outputs of one pass through the loop. -/
def passOutputs (p : AuthorityProcess) (s : Authority) (e : Envelope) : List ProcessOutput :=
  (authorityStep p s e).outputs.drop s.outputs.length

theorem ends_receive (p : AuthorityProcess) (s : Authority) (e : Envelope) :
    Ends (receive p e) s (Handled s e (nextTracked s e)) := by
  have hreceived : Handled s e s.tracked (s.put (.event
      ⟨"MESSAGE_RECEIVED", e.text "message_kind", some e.members, []⟩)) := by
    refine ⟨(Emitted.refl s e).add rfl (justified_plain rfl rfl rfl) ?_ ?_, rfl⟩
    · exact .refl _
    · exact .refl _
  unfold receive
  apply Ends.modify_bind
  split
  · next hto => exact ends_dispatch p hto hreceived
  · next hto =>
    have hnext : nextTracked s e = s.tracked := by
      apply nextTracked_plain
      · exact if_neg fun h => hto h.1
      · have hnone : workerRegistration e = none := if_neg fun h => hto h.1
        rw [acceptedWorker, hnone]
        split <;> rfl
      · exact fun h => hto h.1.1
    rw [hnext]
    exact keeps_reject e _ hreceived

/-- What a pass of a running process does. -/
structure Passed (s : Authority) (e : Envelope) (s' : Authority) : Prop where
  emitted : Emitted s e s'
  harness : s'.harnessPid = (nextTracked s e).harnessPid
  workerPid : s'.currentWorkerPid = (nextTracked s e).currentWorkerPid
  workerId : s'.currentWorkerId = (nextTracked s e).currentWorkerId

theorem authorityStep_stopped (h : s.stopped ≠ none) : authorityStep p s e = s := by
  unfold authorityStep
  split
  · rfl
  · next hnone => exact (h hnone).elim

theorem authorityStep_passed (p : AuthorityProcess) (h : s.stopped = none) :
    Passed s e (authorityStep p s e) := by
  have hends := ends_receive p s e
  have hfields (t : Authority) (ht : Handled s e (nextTracked s e) t) : Passed s e t :=
    ⟨ht.1, congrArg Tracked.harnessPid ht.2, congrArg Tracked.currentWorkerPid ht.2,
      congrArg Tracked.currentWorkerId ht.2⟩
  unfold Ends at hends
  unfold authorityStep
  rw [h]
  cases hr : receive p e s with
  | ok u t =>
    rw [hr] at hends
    exact hfields t hends
  | error w t =>
    rw [hr] at hends
    have hpassed := hfields t hends
    exact ⟨hpassed.emitted.frame rfl (Nat.le_refl _) (Nat.le_refl _), hpassed.harness,
      hpassed.workerPid, hpassed.workerId⟩

theorem authorityStep_emitted (p : AuthorityProcess) (s : Authority) (e : Envelope) :
    Emitted s e (authorityStep p s e) := by
  by_cases h : s.stopped = none
  · exact (authorityStep_passed p h).emitted
  · rw [authorityStep_stopped h]
    exact .refl s e

theorem Emits.passOutputs {new : List ProcessOutput} (h : Emits s e (authorityStep p s e) new) :
    passOutputs p s e = new := by
  rw [Prototype.passOutputs, h.outputs, List.drop_left]

theorem passOutputs_justified (ho : o ∈ passOutputs p s e) : Justified s e o := by
  obtain ⟨new, hnew⟩ := authorityStep_emitted p s e
  rw [hnew.passOutputs] at ho
  exact hnew.justified o ho

theorem running_of_mem (ho : o ∈ passOutputs p s e) : s.stopped = none := by
  by_contra h
  rw [passOutputs, authorityStep_stopped h, List.drop_length] at ho
  exact List.not_mem_nil ho

/-- A completion that equals the current worker's id is always classified as its own. -/
theorem passOutputs_observed (h : s.stopped = none) (hcompletes : Completes e)
    (hcurrent : equalsPid (e.payloadGet "pid") s.currentWorkerPid = true) :
    ∃ o ∈ passOutputs p s e, o.isCurrent = true := by
  have hends : Ends (receive p e) s (Observed s) := by
    unfold receive
    apply Ends.modify_bind
    rw [if_pos hcompletes.1, dispatch,
      if_neg fun h' => absurd (hcompletes.2.unique h').1 (by decide),
      if_neg fun h' => absurd (hcompletes.2.unique h').1 (by decide), if_pos hcompletes.2]
    exact ends_complete_observed p ⟨_, rfl⟩ hcurrent
  have hobserved : Observed s (authorityStep p s e) := by
    unfold Ends at hends
    unfold authorityStep
    rw [h]
    cases hr : receive p e s with
    | ok u t =>
      rw [hr] at hends
      exact hends
    | error w t =>
      rw [hr] at hends
      exact hends
  obtain ⟨new, hnew, o, ho, hc⟩ := hobserved
  refine ⟨o, ?_, hc⟩
  rwa [passOutputs, hnew, List.drop_left]

end Passes

section Runs
variable {history : List Envelope} {s : Authority} {e : Envelope}

/-- The variables of the loop say what the messages so far make of the harness and the worker. -/
structure Tracks (history : List Envelope) (s : Authority) : Prop where
  harness : s.harnessPid ≠ none ↔ HarnessKnown history
  both : s.currentWorkerPid = none ↔ s.currentWorkerId = none
  live : ∀ pid workerId, s.currentWorkerPid = some pid ∧ s.currentWorkerId = some workerId ↔
    Live history pid workerId

theorem Tracks.start : Tracks [] {} where
  harness := by
    constructor
    · intro h
      exact (h rfl).elim
    · rintro ⟨e, he, _⟩
      exact (List.not_mem_nil he).elim
  both := ⟨fun _ => rfl, fun _ => rfl⟩
  live pid workerId := by
    constructor
    · rintro ⟨h, _⟩
      cases h
    · rintro ⟨before, e, after, h, _⟩
      exact (List.append_ne_nil_of_right_ne_nil before (List.cons_ne_nil e after) h.symm).elim

theorem Tracks.live_of_pid (h : Tracks history s) (hpid : s.currentWorkerPid = some pid) :
    ∃ workerId, s.currentWorkerId = some workerId ∧ Live history pid workerId := by
  cases hid : s.currentWorkerId with
  | none =>
    rw [h.both.mpr hid] at hpid
    cases hpid
  | some workerId => exact ⟨workerId, rfl, (h.live pid workerId).mp ⟨hpid, hid⟩⟩

theorem equalsPid_some (j : Json) (pid : Pid) : equalsPid j (some pid) = namesPid j pid := by
  cases j <;> rfl

theorem equalsPid_none {j : Json} : equalsPid j none = true ↔ j = .null := by
  cases j with
  | null => exact ⟨fun _ => rfl, fun _ => rfl⟩
  | bool _ | num _ | str _ | arr _ | obj _ => simp only [equalsPid, Bool.false_eq_true, reduceCtorEq]

theorem forgets_iff (hpid : s.currentWorkerPid = some pid) : Forgets s e ↔ Retires e pid := by
  rw [Forgets, Retires, hpid, equalsPid_some]

theorem acceptedWorker_eq_none (h : Tracks history s) (hnone : acceptedWorker s e = none) :
    ¬ HarnessKnown history ∨ workerRegistration e = none := by
  rw [acceptedWorker] at hnone
  split at hnone
  · next hharness => exact .inl fun hknown => h.harness.mpr hknown hharness
  · exact .inr hnone

theorem Tracks.step (h : Tracks history s) (hp : Passed s e s') : Tracks (history ++ [e]) s' where
  harness := by
    rw [hp.harness, harnessKnown_append, ← h.harness, nextTracked]
    cases harnessRegistration e with
    | none => simp only [Option.none_or, ne_eq, not_true_eq_false, or_false]
    | some pid => simp only [Option.some_or, ne_eq, reduceCtorEq, not_false_eq_true, or_true]
  both := by
    rw [hp.workerPid, hp.workerId, nextTracked]
    cases acceptedWorker s e with
    | some w => simp only [reduceCtorEq]
    | none =>
      by_cases hf : Forgets s e
      · simp only [hf, ↓reduceIte]
      · simp only [hf, ↓reduceIte]
        exact h.both
  live pid workerId := by
    rw [hp.workerPid, hp.workerId, live_append, nextTracked]
    cases ha : acceptedWorker s e with
    | some w =>
      have hboth : s.harnessPid ≠ none ∧ workerRegistration e = some w := by
        rw [acceptedWorker] at ha
        split at ha
        · cases ha
        · next hharness => exact ⟨hharness, ha⟩
      simp only [hboth.2, h.harness.mp hboth.1, true_and, reduceCtorEq, false_and, and_false, or_false,
        Option.some.injEq, Prod.ext_iff]
    | none =>
      have hnew : ¬ (HarnessKnown history ∧ workerRegistration e = some (pid, workerId)) := by
        rintro ⟨hknown, hreg⟩
        rcases acceptedWorker_eq_none h ha with hno | hnone
        · exact hno hknown
        · rw [hnone] at hreg
          cases hreg
      have hold : Live history pid workerId → workerRegistration e = none := fun hlive =>
        (acceptedWorker_eq_none h ha).resolve_left fun hno => hno hlive.harnessKnown
      rw [or_iff_right hnew, ← h.live pid workerId] at *
      constructor
      · by_cases hf : Forgets s e
        · simp only [hf, ↓reduceIte, reduceCtorEq, false_and, false_implies]
        · simp only [hf, ↓reduceIte]
          intro hcur
          exact ⟨hcur, hold hcur, fun hr => hf ((forgets_iff hcur.1).mpr hr)⟩
      · rintro ⟨hcur, _, hretires⟩
        have hf : ¬ Forgets s e := fun hf => hretires ((forgets_iff hcur.1).mp hf)
        simp only [hf, ↓reduceIte]
        exact hcur

/-- The state of the process after the messages. -/
def authorityRun (p : AuthorityProcess) (messages : List Envelope) : Authority :=
  run (authorityStep p) {} messages

theorem authorityRun_append (p : AuthorityProcess) (messages : List Envelope) (e : Envelope) :
    authorityRun p (messages ++ [e]) = authorityStep p (authorityRun p messages) e :=
  run_append _ _ messages [e]

theorem tracks_run (p : AuthorityProcess) (messages : List Envelope)
    (h : (authorityRun p messages).stopped = none) : Tracks messages (authorityRun p messages) := by
  induction messages using List.reverseRecOn with
  | nil => exact .start
  | append_singleton messages e ih =>
    rw [authorityRun_append] at h ⊢
    have hrunning : (authorityRun p messages).stopped = none := by
      by_contra hstopped
      rw [authorityStep_stopped hstopped] at h
      exact hstopped h
    exact (ih hrunning).step (authorityStep_passed p hrunning)

theorem increasing_run (p : AuthorityProcess) (messages : List Envelope) :
    Increasing 0 (authorityRun p messages).counter
        ((authorityRun p messages).outputs.filterMap ProcessOutput.counter) ∧
      Increasing 0 (authorityRun p messages).workerGeneration
        ((authorityRun p messages).outputs.filterMap ProcessOutput.generation) := by
  induction messages using List.reverseRecOn with
  | nil => exact ⟨.refl 0, .refl 0⟩
  | append_singleton messages e ih =>
    rw [authorityRun_append]
    obtain ⟨new, hnew⟩ := authorityStep_emitted p (authorityRun p messages) e
    rw [hnew.outputs, List.filterMap_append, List.filterMap_append]
    exact ⟨ih.1.append hnew.counters, ih.2.append hnew.generations⟩

end Runs

section Exact
variable {p : AuthorityProcess} {messages before after : List Envelope} {e : Envelope}

/-- What the message loop promises for its outputs, each compared with the messages before it. -/
structure AuthorityExact (p : AuthorityProcess) (messages : List Envelope) : Prop where
  current : ∀ before e after, messages = before ++ e :: after →
    ∀ o ∈ passOutputs p (authorityRun p before) e, o.isCurrent = true →
      Completes e ∧ ∃ pid workerId, Live before pid workerId ∧
        namesPid (e.payloadGet "pid") pid = true
  shutdown : ∀ before e after, messages = before ++ e :: after →
    ∀ o ∈ passOutputs p (authorityRun p before) e, ∀ workerId, o.shutdownOf = some workerId →
      ∃ pid, Live before pid workerId ∧ namesPid (e.payloadGet "pid") pid = true
  work : ∀ before e after, messages = before ++ e :: after →
    ∀ o ∈ passOutputs p (authorityRun p before) e, o.isWork = true → HarnessKnown before
  counters : ((authorityRun p messages).outputs.filterMap ProcessOutput.counter).Pairwise (· < ·)
  generations : ((authorityRun p messages).outputs.filterMap ProcessOutput.generation).Pairwise (· < ·)

/-- No completion without a process id is processed while no worker is live. -/
def PidsPresent (p : AuthorityProcess) (messages : List Envelope) : Prop :=
  ∀ before e after, messages = before ++ e :: after → (authorityRun p before).stopped = none →
    Completes e → e.payloadGet "pid" = .null → ∃ pid workerId, Live before pid workerId

/-- A completion that equals the current worker's id is one of a live worker, if it has an id. -/
theorem live_of_equals (h : Tracks before s)
    (hcurrent : equalsPid (e.payloadGet "pid") s.currentWorkerPid = true) :
    e.payloadGet "pid" = .null ∧ s.currentWorkerPid = none ∨
      ∃ pid workerId, s.currentWorkerId = some workerId ∧ Live before pid workerId ∧
        namesPid (e.payloadGet "pid") pid = true := by
  cases hpid : s.currentWorkerPid with
  | none =>
    rw [hpid, equalsPid_none] at hcurrent
    exact .inl ⟨hcurrent, rfl⟩
  | some pid =>
    rw [hpid, equalsPid_some] at hcurrent
    obtain ⟨workerId, hid, hlive⟩ := h.live_of_pid hpid
    exact .inr ⟨pid, workerId, hid, hlive, hcurrent⟩

theorem exact_of_pidsPresent (h : PidsPresent p messages) : AuthorityExact p messages where
  current before e after heq o ho hcurrent := by
    have hrunning := running_of_mem ho
    have htracks := tracks_run p before hrunning
    obtain ⟨hcompletes, hequals⟩ := (passOutputs_justified ho).current hcurrent
    rcases live_of_equals htracks hequals with ⟨hnull, hnone⟩ | ⟨pid, workerId, _, hlive, hnames⟩
    · obtain ⟨pid, workerId, hlive⟩ := h before e after heq hrunning hcompletes hnull
      rw [((htracks.live pid workerId).mpr hlive).1] at hnone
      cases hnone
    · exact ⟨hcompletes, pid, workerId, hlive, hnames⟩
  shutdown before e after heq o ho workerId hshutdown := by
    have htracks := tracks_run p before (running_of_mem ho)
    obtain ⟨_, hequals, hid⟩ := (passOutputs_justified ho).shutdown workerId hshutdown
    rcases live_of_equals htracks hequals with ⟨_, hnone⟩ | ⟨pid, workerId', hid', hlive, hnames⟩
    · rw [htracks.both.mp hnone] at hid
      cases hid
    · rw [hid', Option.some.injEq] at hid
      exact ⟨pid, hid ▸ hlive, hnames⟩
  work before e after heq o ho hwork :=
    (tracks_run p before (running_of_mem ho)).harness.mp ((passOutputs_justified ho).work hwork)
  counters := (increasing_run p messages).1.sorted
  generations := (increasing_run p messages).2.sorted

theorem pidsPresent_of_exact (h : AuthorityExact p messages) : PidsPresent p messages := by
  intro before e after heq hrunning hcompletes hnull
  by_contra hno
  have htracks := tracks_run p before hrunning
  have hnone : (authorityRun p before).currentWorkerPid = none := by
    by_contra hsome
    obtain ⟨pid, hpid⟩ := Option.ne_none_iff_exists'.mp hsome
    obtain ⟨workerId, _, hlive⟩ := htracks.live_of_pid hpid
    exact hno ⟨pid, workerId, hlive⟩
  have hequals : equalsPid (e.payloadGet "pid") (authorityRun p before).currentWorkerPid = true := by
    rw [hnone, equalsPid_none]
    exact hnull
  obtain ⟨o, ho, hcurrent⟩ := passOutputs_observed hrunning hcompletes hequals
  obtain ⟨_, pid, workerId, hlive, _⟩ := h.current before e after heq o ho hcurrent
  exact hno ⟨pid, workerId, hlive⟩

/-- The loop keeps its promises in exactly the runs in which no completion without a process id
meets an authority without a worker. -/
theorem authorityExact_iff (p : AuthorityProcess) (messages : List Envelope) :
    AuthorityExact p messages ↔ PidsPresent p messages :=
  ⟨pidsPresent_of_exact, exact_of_pidsPresent⟩

/-- A completion with an empty payload. -/
def bareCompletion : Envelope where
  members := [("message_id", .str "worker:7:1"), ("message_kind", .str "COMPLETE"),
    ("payload", .obj []), ("payload_schema", .str "cadi.c8.2.synthetic-completion.v1"),
    ("receiver_role", .str "CONTROL_PLANE_AUTHORITY"), ("schema", .str messageSchema),
    ("send_monotonic_ns", .num (.int 0)), ("sender_role", .str "WORKER"),
    ("subject_id", .str "work:w:1"), ("subject_type", .str "SYNTHETIC_WORK")]
  distinct := by decide
  valid :=
    { header := by decide
      kind := ⟨"COMPLETE", by decide, rfl⟩
      sender := ⟨"WORKER", by decide, rfl⟩
      receiver := ⟨"CONTROL_PLANE_AUTHORITY", by decide, rfl⟩
      payload := rfl
      timestamp := rfl
      finite := by decide }

def quietProcess : AuthorityProcess where
  pid := 1
  monotonicNs n := n
  sendall _ := none
  sha256 s := s

/-- Before any worker has registered, such a completion is taken as the current worker's. -/
theorem bareCompletion_current : (∃ o ∈ passOutputs quietProcess {} bareCompletion,
    o.isCurrent = true) ∧ ¬ AuthorityExact quietProcess [bareCompletion] := by
  have hcompletes : Completes bareCompletion := ⟨by decide, by decide⟩
  constructor
  · exact passOutputs_observed rfl hcompletes rfl
  · intro h
    obtain ⟨pid, workerId, before, e, after, heq, _⟩ :=
      pidsPresent_of_exact h [] bareCompletion [] rfl rfl hcompletes rfl
    exact (List.append_ne_nil_of_right_ne_nil before (List.cons_ne_nil e after) heq.symm).elim

end Exact

end Cadi.Prototype
