import Cadi.Prototype.Authority

namespace Cadi.Prototype
open Library
set_option autoImplicit true

section Histories

/-- The process id under which a message registers the harness. -/
def harnessRegistration (e : Envelope) : Option Pid :=
  if e.ToAuthority ∧ e.Is .register .faultTransportHarness then pidOf (e.payloadGet "pid") else none

/-- The process id and worker id under which a message registers a worker. -/
def workerRegistration (e : Envelope) : Option (Pid × String) :=
  if e.ToAuthority ∧ e.Is .register .worker then registrationOf e else none

/-- A completion reported by a worker. -/
def Completes (e : Envelope) : Prop := e.ToAuthority ∧ e.Is .complete .worker

/-- A failure notice or a shutdown acknowledgement. -/
def Terminates (e : Envelope) : Prop :=
  e.ToAuthority ∧ (e.Is .processFailure .faultTransportHarness ∨ e.Is .shutdownAck .worker)

/-- A message after which the worker is gone. -/
def Retires (e : Envelope) (pid : Pid) : Prop :=
  Terminates e ∧ namesPid (e.payloadGet "pid") pid = true

def HarnessKnown (history : List Envelope) : Prop := ∃ e ∈ history, harnessRegistration e ≠ none

/-- The worker has registered, and since then no other has and none of its ends was processed. -/
def Live (history : List Envelope) (pid : Pid) (workerId : String) : Prop :=
  ∃ before e after, history = before ++ e :: after ∧ HarnessKnown before ∧
    workerRegistration e = some (pid, workerId) ∧
    ∀ e' ∈ after, workerRegistration e' = none ∧ ¬ Retires e' pid

theorem harnessKnown_append {history : List Envelope} :
    HarnessKnown (history ++ [e]) ↔ HarnessKnown history ∨ harnessRegistration e ≠ none := by
  simp only [HarnessKnown, List.mem_append, List.mem_singleton, or_and_right, exists_or,
    exists_eq_left]

theorem Live.harnessKnown (h : Live history pid workerId) : HarnessKnown history := by
  obtain ⟨before, e, after, rfl, ⟨x, hx, hr⟩, _⟩ := h
  exact ⟨x, List.mem_append_left _ hx, hr⟩

theorem live_append {history : List Envelope} : Live (history ++ [e]) pid workerId ↔
    HarnessKnown history ∧ workerRegistration e = some (pid, workerId) ∨
      Live history pid workerId ∧ workerRegistration e = none ∧ ¬ Retires e pid := by
  constructor
  · rintro ⟨before, r, after, heq, hknown, hreg, hafter⟩
    rcases List.eq_nil_or_concat after with rfl | ⟨after, last, rfl⟩
    · obtain ⟨rfl, hlast⟩ := List.append_inj' heq rfl
      cases hlast
      exact .inl ⟨hknown, hreg⟩
    · rw [List.concat_eq_append] at heq hafter
      have hsplit : history ++ [e] = (before ++ r :: after) ++ [last] := by
        rw [heq, List.append_assoc, List.cons_append]
      obtain ⟨rfl, hlast⟩ := List.append_inj' hsplit rfl
      cases hlast
      right
      refine ⟨⟨before, r, after, rfl, hknown, hreg, ?_⟩, ?_⟩
      · exact fun e' he' => hafter e' (List.mem_append_left _ he')
      · exact hafter e (List.mem_append_right _ (List.mem_singleton_self e))
  · rintro (⟨hknown, hreg⟩ | ⟨⟨before, r, after, rfl, hknown, hreg, hafter⟩, hnone, hretires⟩)
    · exact ⟨history, e, [], rfl, hknown, hreg, List.forall_mem_nil _⟩
    · refine ⟨before, r, after ++ [e], by rw [List.append_assoc, List.cons_append], hknown, hreg, ?_⟩
      intro e' he'
      rcases List.mem_append.mp he' with he' | he'
      · exact hafter e' he'
      · rw [List.mem_singleton.mp he']
        exact ⟨hnone, hretires⟩

end Histories

section Counting

/-- The numbers increase strictly, from past the first bound to at most the second. -/
structure Increasing (low high : Nat) (l : List Nat) : Prop where
  bounds : low ≤ high
  range : ∀ n ∈ l, low < n ∧ n ≤ high
  sorted : l.Pairwise (· < ·)

theorem Increasing.refl (n : Nat) : Increasing n n [] :=
  ⟨Nat.le_refl n, List.forall_mem_nil _, List.Pairwise.nil⟩

theorem Increasing.mono (h : Increasing low high l) (hle : high ≤ high') : Increasing low high' l where
  bounds := h.bounds.trans hle
  range n hn := ⟨(h.range n hn).1, (h.range n hn).2.trans hle⟩
  sorted := h.sorted

theorem Increasing.append (h : Increasing low mid l) (h' : Increasing mid high l') :
    Increasing low high (l ++ l') where
  bounds := h.bounds.trans h'.bounds
  range n hn := by
    rcases List.mem_append.mp hn with hn | hn
    · exact ⟨(h.range n hn).1, (h.range n hn).2.trans h'.bounds⟩
    · exact ⟨lt_of_le_of_lt h.bounds (h'.range n hn).1, (h'.range n hn).2⟩
  sorted := by
    rw [List.pairwise_append]
    exact ⟨h.sorted, h'.sorted, fun a ha b hb =>
      lt_of_le_of_lt (h.range a ha).2 (h'.range b hb).1⟩

theorem Increasing.next (n : Nat) : Increasing n (n + 1) [n + 1] where
  bounds := Nat.le_succ n
  range m hm := by
    rw [List.mem_singleton.mp hm]
    exact ⟨Nat.lt_succ_self n, Nat.le_refl _⟩
  sorted := List.pairwise_singleton _ _

end Counting

section Outputs

/-- The record of a completion that is taken as the current worker's. -/
def ProcessOutput.isCurrent : ProcessOutput → Bool
  | .event r => r.action = "PHYSICAL_COMPLETION_OBSERVED" && r.result = "CURRENT_WORKER"
  | .sent _ => false

/-- The worker a message shuts down. -/
def ProcessOutput.shutdownOf : ProcessOutput → Option String
  | .event _ => none
  | .sent m => if m.kind = .shutdown then some m.subjectId else none

def ProcessOutput.isWork : ProcessOutput → Bool
  | .event _ => false
  | .sent m => m.kind = .work

def ProcessOutput.counter : ProcessOutput → Option Nat
  | .event _ => none
  | .sent m => some m.counter

/-- The generation that a registered worker is told. -/
def ProcessOutput.generation : ProcessOutput → Option Nat
  | .event _ => none
  | .sent m =>
    if m.kind = .registered ∧ m.receiver = .worker then
      match valueAt m.payload "worker_generation" with
      | .num (.int z) => some z.toNat
      | _ => none
    else none

/-- What must hold, before the message, for an output in its handler. -/
structure Justified (s : Authority) (e : Envelope) (o : ProcessOutput) : Prop where
  current : o.isCurrent = true →
    Completes e ∧ equalsPid (e.payloadGet "pid") s.currentWorkerPid = true
  shutdown : ∀ workerId, o.shutdownOf = some workerId →
    Completes e ∧ equalsPid (e.payloadGet "pid") s.currentWorkerPid = true ∧
      s.currentWorkerId = some workerId
  work : o.isWork = true → s.harnessPid ≠ none

/-- The outputs after the first state are justified and numbered in order. -/
structure Emits (s : Authority) (e : Envelope) (s' : Authority) (new : List ProcessOutput) : Prop where
  outputs : s'.outputs = s.outputs ++ new
  justified : ∀ o ∈ new, Justified s e o
  counters : Increasing s.counter s'.counter (new.filterMap ProcessOutput.counter)
  generations : Increasing s.workerGeneration s'.workerGeneration (new.filterMap ProcessOutput.generation)

def Emitted (s : Authority) (e : Envelope) (s' : Authority) : Prop := ∃ new, Emits s e s' new

end Outputs

section Steps
variable {s t t' : Authority} {e : Envelope}

theorem Emitted.refl (s : Authority) (e : Envelope) : Emitted s e s :=
  ⟨[], (List.append_nil _).symm, List.forall_mem_nil _, .refl _, .refl _⟩

theorem Emitted.add (h : Emitted s e t) (ho : t'.outputs = t.outputs ++ [o]) (hj : Justified s e o)
    (hc : Increasing t.counter t'.counter ([o].filterMap ProcessOutput.counter))
    (hg : Increasing t.workerGeneration t'.workerGeneration ([o].filterMap ProcessOutput.generation)) :
    Emitted s e t' := by
  obtain ⟨new, hnew⟩ := h
  refine ⟨new ++ [o], ?_, ?_, ?_, ?_⟩
  · rw [ho, hnew.outputs, List.append_assoc]
  · intro o' ho'
    rcases List.mem_append.mp ho' with ho' | ho'
    · exact hnew.justified o' ho'
    · exact List.mem_singleton.mp ho' ▸ hj
  · rw [List.filterMap_append]
    exact hnew.counters.append hc
  · rw [List.filterMap_append]
    exact hnew.generations.append hg

theorem Emitted.frame (h : Emitted s e t) (ho : t'.outputs = t.outputs)
    (hc : t.counter ≤ t'.counter) (hg : t.workerGeneration ≤ t'.workerGeneration) :
    Emitted s e t' := by
  obtain ⟨new, hnew⟩ := h
  exact ⟨new, ho.trans hnew.outputs, hnew.justified, hnew.counters.mono hc,
    hnew.generations.mono hg⟩

/-- The variables of the loop that the handlers read. -/
structure Tracked where
  harnessPid : Option Pid
  currentWorkerPid : Option Pid
  currentWorkerId : Option String
  stopped : Option WireError

def Authority.tracked (s : Authority) : Tracked :=
  ⟨s.harnessPid, s.currentWorkerPid, s.currentWorkerId, s.stopped⟩

/-- What holds of every state in which a handler can end. -/
def Handled (s : Authority) (e : Envelope) (T : Tracked) (t : Authority) : Prop :=
  Emitted s e t ∧ t.tracked = T

/-- The computation keeps a property in every state it ends in. -/
def Keeps (P : Authority → Prop) (x : AuthorityM α) : Prop := ∀ t, P t → Ends x t P

theorem Keeps.pure (P : Authority → Prop) (a : α) : Keeps P (Pure.pure a) := fun _ ht => ht

theorem Keeps.bind {P : Authority → Prop} {x : AuthorityM α} {f : α → AuthorityM β}
    (hx : Keeps P x) (hf : ∀ a, Keeps P (f a)) : Keeps P (x >>= f) := by
  intro t ht
  have hxt := hx t ht
  unfold Ends at hxt
  apply Ends.bind
  · intro a t' hok
    rw [hok] at hxt
    exact hf a t' hxt
  · intro w t' herror
    rw [herror] at hxt
    exact hxt

theorem justified_event {r : EventRecord} (h : (ProcessOutput.event r).isCurrent = true →
    Completes e ∧ equalsPid (e.payloadGet "pid") s.currentWorkerPid = true) :
    Justified s e (.event r) where
  current := h
  shutdown workerId hs := by cases hs
  work hw := by cases hw

theorem justified_plain (hc : o.isCurrent = false) (hs : o.shutdownOf = none)
    (hw : o.isWork = false) : Justified s e o where
  current h := by
    rw [hc] at h
    cases h
  shutdown workerId h := by
    rw [hs] at h
    cases h
  work h := by
    rw [hw] at h
    cases h

theorem keeps_emit (h : (ProcessOutput.event ⟨action, result, some message, details⟩).isCurrent = true →
    Completes e ∧ equalsPid (e.payloadGet "pid") s.currentWorkerPid = true) :
    Keeps (Handled s e T) (emit action result message details) := by
  rintro t ⟨ht, hT⟩
  exact ⟨ht.add rfl (justified_event h) (.refl _) (.refl _), hT⟩

theorem keeps_record (h : (ProcessOutput.event ⟨action, result, some message, details⟩).isCurrent = false) :
    Keeps (Handled s e T) (emit action result message details) := by
  apply keeps_emit
  intro hc
  rw [h] at hc
  cases hc

theorem keeps_reject (e' : Envelope) : Keeps (Handled s e T) (reject e' result) :=
  keeps_record rfl

/-- The state after a message is handed to the socket. -/
def Authority.sends (s : Authority) (m : SentMessage) : Authority :=
  { s with counter := s.counter + 1 }.put (.sent m)

/-- A message is refused, or handed to the socket, which may still fail. -/
theorem ends_sendNext {f : Members → AuthorityM α} {post : Authority → Prop}
    (hcount : post { t with counter := t.counter + 1 })
    (hsent : post (t.sends ⟨t.counter + 1, kind, receiver, subjectType, subjectId, schema, payload⟩))
    (hf : ∀ message, Ends (f message)
      (t.sends ⟨t.counter + 1, kind, receiver, subjectType, subjectId, schema, payload⟩) post) :
    Ends (sendNext p kind receiver subjectType subjectId schema payload >>= f) t post := by
  unfold sendNext
  rw [bind_assoc]
  apply Ends.modify_bind
  rw [bind_assoc]
  apply Ends.get_bind
  rw [bind_assoc]
  apply Ends.lift_bind hcount
  intro message _
  rw [bind_assoc]
  apply Ends.lift_bind hcount
  intro frame _
  rw [bind_assoc]
  apply Ends.modify_bind
  split
  · exact hsent
  · exact hf message

theorem keeps_sendNext
    (hj : ∀ counter, Justified s e
      (.sent ⟨counter, kind, receiver, subjectType, subjectId, schema, payload⟩))
    (hg : ∀ counter, (ProcessOutput.sent
      ⟨counter, kind, receiver, subjectType, subjectId, schema, payload⟩).generation = none)
    {f : Members → AuthorityM α} (hf : ∀ message, Keeps (Handled s e T) (f message)) :
    Keeps (Handled s e T) (sendNext p kind receiver subjectType subjectId schema payload >>= f) := by
  rintro t ⟨ht, hT⟩
  have hgeneration : Increasing t.workerGeneration t.workerGeneration
      ([ProcessOutput.sent ⟨t.counter + 1, kind, receiver, subjectType, subjectId, schema,
        payload⟩].filterMap ProcessOutput.generation) := by
    rw [List.filterMap_cons_none (hg _)]
    exact .refl _
  have hsent : Handled s e T
      (t.sends ⟨t.counter + 1, kind, receiver, subjectType, subjectId, schema, payload⟩) :=
    ⟨ht.add rfl (hj _) (.next _) hgeneration, hT⟩
  exact ends_sendNext ⟨ht.frame rfl (Nat.le_succ _) (Nat.le_refl _), hT⟩ hsent
    fun message => hf message _ hsent

end Steps

section Transitions
variable {s t : Authority} {e : Envelope}

theorem MessageKind.value_injective {k k' : MessageKind} (h : k.value = k'.value) : k = k' := by
  revert h
  cases k <;> cases k' <;> decide

theorem C8WireRole.value_injective {r r' : C8WireRole} (h : r.value = r'.value) : r = r' := by
  revert h
  cases r <;> cases r' <;> decide

theorem Envelope.Is.unique (h : e.Is k r) (h' : e.Is k' r') : k = k' ∧ r = r' :=
  ⟨MessageKind.value_injective (h.1.symm.trans h'.1), C8WireRole.value_injective (h.2.symm.trans h'.2)⟩

instance (e : Envelope) : Decidable (Terminates e) := inferInstanceAs (Decidable (_ ∧ _))

/-- The worker that a message registers in a state. -/
def acceptedWorker (s : Authority) (e : Envelope) : Option (Pid × String) :=
  if s.harnessPid = none then none else workerRegistration e

/-- The message makes the authority forget its worker. -/
def Forgets (s : Authority) (e : Envelope) : Prop :=
  Terminates e ∧ equalsPid (e.payloadGet "pid") s.currentWorkerPid = true

instance (s : Authority) (e : Envelope) : Decidable (Forgets s e) :=
  inferInstanceAs (Decidable (_ ∧ _))

/-- The variables after a message. -/
def nextTracked (s : Authority) (e : Envelope) : Tracked where
  harnessPid := (harnessRegistration e).or s.harnessPid
  currentWorkerPid := match acceptedWorker s e with
    | some w => some w.1
    | none => if Forgets s e then none else s.currentWorkerPid
  currentWorkerId := match acceptedWorker s e with
    | some w => some w.2
    | none => if Forgets s e then none else s.currentWorkerId
  stopped := s.stopped

theorem nextTracked_plain (hharness : harnessRegistration e = none)
    (hworker : acceptedWorker s e = none) (hforgets : ¬ Forgets s e) :
    nextTracked s e = s.tracked := by
  simp only [nextTracked, hharness, hworker, hforgets, Option.none_or, ↓reduceIte, Authority.tracked]

theorem harnessRegistration_of_ne (h : e.Is k r)
    (hne : ¬ (k = .register ∧ r = .faultTransportHarness)) : harnessRegistration e = none :=
  if_neg fun h' => hne (h.unique h'.2)

theorem acceptedWorker_of_ne (s : Authority) (h : e.Is k r)
    (hne : ¬ (k = .register ∧ r = .worker)) : acceptedWorker s e = none := by
  have hnone : workerRegistration e = none := if_neg fun h' => hne (h.unique h'.2)
  rw [acceptedWorker, hnone]
  split <;> rfl

theorem not_forgets_of_ne (h : e.Is k r) (hne : k ≠ .processFailure ∧ k ≠ .shutdownAck) :
    ¬ Forgets s e := by
  rintro ⟨⟨_, h' | h'⟩, _⟩
  · exact hne.1 (h.unique h').1
  · exact hne.2 (h.unique h').1

theorem ends_registerHarness (p : AuthorityProcess) (hto : e.ToAuthority)
    (his : e.Is .register .faultTransportHarness) (ht : Handled s e s.tracked t) :
    Ends (registerHarness p e) t (Handled s e (nextTracked s e)) := by
  have hreg : harnessRegistration e = pidOf (e.payloadGet "pid") := if_pos ⟨hto, his⟩
  have hworker : acceptedWorker s e = none := acceptedWorker_of_ne s his (by decide)
  have hforgets : ¬ Forgets s e := not_forgets_of_ne his (by decide)
  unfold registerHarness
  split
  · next hnone =>
    rw [nextTracked_plain (hreg.trans hnone) hworker hforgets]
    exact keeps_reject e t ht
  · next pid hpid =>
    have hnext : nextTracked s e = { s.tracked with harnessPid := some pid } := by
      simp only [nextTracked, hreg, hpid, hworker, hforgets, Option.some_or, ↓reduceIte,
        Authority.tracked]
    rw [hnext]
    apply Ends.modify_bind
    have hstart : Handled s e { s.tracked with harnessPid := some pid }
        { t with harnessPid := some pid } :=
      ⟨ht.1.frame rfl (Nat.le_refl _) (Nat.le_refl _), by
        have hT := ht.2
        simp only [Authority.tracked, Tracked.mk.injEq] at hT ⊢
        exact ⟨trivial, hT.2⟩⟩
    apply keeps_sendNext (fun _ => justified_plain rfl rfl rfl) (fun _ => rfl) _ _ hstart
    intro message
    exact (keeps_record rfl).bind fun _ => keeps_record rfl

theorem keeps_sendWork (hknown : s.harnessPid ≠ none) :
    Keeps (Handled s e T) (sendWork p workerId generation) := by
  apply keeps_sendNext
  · intro counter
    constructor
    · exact fun h => (Bool.false_ne_true h).elim
    · exact fun _ h => (Option.some_ne_none _ h.symm).elim
    · exact fun _ => hknown
  · intro counter
    rfl
  · intro message
    exact keeps_record rfl

theorem ends_acceptWorker (p : AuthorityProcess) (hknown : s.harnessPid ≠ none)
    (ht : Handled s e s.tracked t) (harnessPid pid : Pid) (workerId : String) :
    Ends (acceptWorker p e harnessPid pid workerId) t (Handled s e
      { s.tracked with currentWorkerPid := some pid, currentWorkerId := some workerId }) := by
  obtain ⟨hemitted, hT⟩ := ht
  have hT' : ({ t.tracked with
      currentWorkerPid := some pid
      currentWorkerId := some workerId } : Tracked) =
        { s.tracked with currentWorkerPid := some pid, currentWorkerId := some workerId } := by
    rw [hT]
  unfold acceptWorker
  apply Ends.modify_bind
  apply Ends.get_bind
  apply ends_sendNext
  · exact ⟨hemitted.frame rfl (Nat.le_succ _) (Nat.le_succ _), hT'⟩
  · exact ⟨hemitted.add rfl (justified_plain rfl rfl rfl) (.next _) (.next _), hT'⟩
  · intro message
    refine Keeps.bind (keeps_record rfl) (fun _ => ?_) _ ?_
    · exact Keeps.bind (keeps_record rfl) fun _ => keeps_sendWork hknown
    · exact ⟨hemitted.add rfl (justified_plain rfl rfl rfl) (.next _) (.next _), hT'⟩

theorem ends_registerWorker (p : AuthorityProcess) (hto : e.ToAuthority)
    (his : e.Is .register .worker) (ht : Handled s e s.tracked t) :
    Ends (registerWorker p e) t (Handled s e (nextTracked s e)) := by
  have hharness : harnessRegistration e = none := harnessRegistration_of_ne his (by decide)
  have hforgets : ¬ Forgets s e := not_forgets_of_ne his (by decide)
  have hreg : workerRegistration e = registrationOf e := if_pos ⟨hto, his⟩
  have hknown : t.harnessPid = s.harnessPid := congrArg Tracked.harnessPid ht.2
  unfold registerWorker
  apply Ends.get_bind
  split
  · next hnone =>
    have hworker : acceptedWorker s e = none := if_pos (hknown.symm.trans hnone)
    rw [nextTracked_plain hharness hworker hforgets]
    exact keeps_reject e t ht
  · next harnessPid hsome =>
    have hne : s.harnessPid ≠ none := by
      rw [← hknown, hsome]
      exact Option.some_ne_none _
    have hworker : acceptedWorker s e = registrationOf e := (if_neg hne).trans hreg
    split
    · next hnone =>
      rw [nextTracked_plain hharness (hworker.trans hnone) hforgets]
      exact keeps_reject e t ht
    · next pid workerId hw =>
      have hnext : nextTracked s e =
          { s.tracked with currentWorkerPid := some pid, currentWorkerId := some workerId } := by
        simp only [nextTracked, hharness, hworker, hw, Option.none_or, Authority.tracked]
      rw [hnext]
      exact ends_acceptWorker p hne ht harnessPid pid workerId

theorem ends_complete (p : AuthorityProcess) (hto : e.ToAuthority) (his : e.Is .complete .worker)
    (ht : Handled s e s.tracked t) :
    Ends (complete p e) t (Handled s e (nextTracked s e)) := by
  have hpid : t.currentWorkerPid = s.currentWorkerPid := congrArg Tracked.currentWorkerPid ht.2
  have hid : t.currentWorkerId = s.currentWorkerId := congrArg Tracked.currentWorkerId ht.2
  rw [nextTracked_plain (harnessRegistration_of_ne his (by decide))
    (acceptedWorker_of_ne s his (by decide)) (not_forgets_of_ne his (by decide))]
  unfold complete
  apply Ends.get_bind
  rw [hpid, hid]
  refine Keeps.bind (keeps_emit fun h => ⟨⟨hto, his⟩, ?_⟩) (fun _ => ?_) t ht
  · by_contra hnot
    rw [if_neg hnot] at h
    cases h
  · split
    · next workerId hworker =>
      split
      · next hif =>
        apply keeps_sendNext
        · intro counter
          constructor
          · exact fun h => (Bool.false_ne_true h).elim
          · exact fun _ h => ⟨⟨hto, his⟩, hif.2.1, hworker.trans h⟩
          · exact fun h => (Bool.false_ne_true h).elim
        · intro counter
          rfl
        · intro message
          exact keeps_record rfl
      · exact Keeps.pure _ _
    · exact Keeps.pure _ _

theorem ends_forgetWorker (hterm : Terminates e) (hharness : harnessRegistration e = none)
    (hworker : acceptedWorker s e = none) (ht : Handled s e s.tracked t) :
    Ends (forgetWorker e) t (Handled s e (nextTracked s e)) := by
  have hpid : t.currentWorkerPid = s.currentWorkerPid := congrArg Tracked.currentWorkerPid ht.2
  unfold forgetWorker
  apply Ends.get_bind
  rw [hpid]
  split
  · next heq =>
    have hforgets : Forgets s e := ⟨hterm, heq⟩
    have hnext : nextTracked s e =
        { s.tracked with currentWorkerPid := none, currentWorkerId := none } := by
      simp only [nextTracked, hharness, hworker, hforgets, Option.none_or, ↓reduceIte,
        Authority.tracked]
    rw [hnext, ← ht.2]
    exact ⟨ht.1.frame rfl (Nat.le_refl _) (Nat.le_refl _), rfl⟩
  · next hne =>
    rw [nextTracked_plain hharness hworker fun h => hne h.2]
    exact ht

/-- Every handler leaves justified outputs and the variables of the next state. -/
theorem ends_dispatch (p : AuthorityProcess) (hto : e.ToAuthority)
    (ht : Handled s e s.tracked t) : Ends (dispatch p e) t (Handled s e (nextTracked s e)) := by
  have hlogged (r : EventRecord) (h : (ProcessOutput.event r).isCurrent = false) :
      Handled s e s.tracked (t.put (.event r)) := by
    refine ⟨ht.1.add rfl (justified_plain h rfl rfl) ?_ ?_, ht.2⟩
    · exact .refl _
    · exact .refl _
  unfold dispatch
  split
  · next his => exact ends_registerHarness p hto his ht
  split
  · next his => exact ends_registerWorker p hto his ht
  split
  · next his => exact ends_complete p hto his ht
  split
  · next his =>
    unfold processFailure
    apply Ends.modify_bind
    exact ends_forgetWorker ⟨hto, .inl his⟩ (harnessRegistration_of_ne his (by decide))
      (acceptedWorker_of_ne s his (by decide)) (hlogged _ rfl)
  split
  · next his =>
    unfold shutdownAck
    apply Ends.modify_bind
    exact ends_forgetWorker ⟨hto, .inr his⟩ (harnessRegistration_of_ne his (by decide))
      (acceptedWorker_of_ne s his (by decide)) (hlogged _ rfl)
  · next hharness hworker _ hfailure hack =>
    have hnext : nextTracked s e = s.tracked := by
      apply nextTracked_plain
      · exact if_neg fun h => hharness h.2
      · have hnone : workerRegistration e = none := if_neg fun h => hworker h.2
        rw [acceptedWorker, hnone]
        split <;> rfl
      · rintro ⟨⟨_, h | h⟩, _⟩
        · exact hfailure h
        · exact hack h
    rw [hnext]
    exact keeps_reject e t ht

end Transitions

end Cadi.Prototype
