import Cadi.Experiments.Routing
import Mathlib.Tactic.Linarith

namespace Cadi.Routing
open Library
set_option autoImplicit true

section Accepted

/-- The workers of a case, which are those of each operation. -/
def C72ProgramCase.workers (c : C72ProgramCase) : List WorkerObservation :=
  (c.operations.head?.map fun op => op.observation.workers).getD []

def C72ProgramCase.capacity (c : C72ProgramCase) (workerId : String) : Nat :=
  ((c.workers.find? (·.workerId = workerId)).map WorkerObservation.capacity).getD 0

def C72ProgramCase.readyTime (c : C72ProgramCase) (workerId : String) : ℚ :=
  ((Dict.ofList c.workerReadyTimesSeconds).get? workerId).getD 0

variable {raw c : C72ProgramCase}

/-- What the checks of a case establish about its times and workers. -/
structure C72ProgramCase.Accepted (c : C72ProgramCase) : Prop where
  nonempty : c.operations ≠ []
  release : ∀ op ∈ c.operations, c.programStartTimeSeconds ≤ op.releaseTimeSeconds
  shape : ∀ op ∈ c.operations, workerShape op = c.workers.map fun w => (w.workerId, w.capacity)
  workerIds : (c.workers.map WorkerObservation.workerId).Nodup
  ready : ∀ w ∈ c.workers, ∃ t, (Dict.ofList c.workerReadyTimesSeconds).get? w.workerId = some t ∧
    c.programStartTimeSeconds ≤ t

theorem readyTimes_cover {ids : List String} (h : readyTimes start ids given = .ok ready) :
    ∀ id ∈ ids, id ∈ ready.map Prod.fst := by
  intro id hid
  rw [readyTimes] at h
  split at h
  · obtain rfl := Except.ok.inj h
    rw [List.map_map]
    exact List.mem_map.mpr ⟨id, hid, rfl⟩
  · obtain ⟨-, h⟩ := Except.then_eq_ok.mp h
    dsimp only at h
    split at h
    · cases h
    · rename_i hids
      obtain rfl := Except.ok.inj h
      rw [not_or, not_or, not_not, not_not, not_not] at hids
      rw [hids.2.2]
      exact (List.perm_insertionSort _ ids).mem_iff.mpr hid

theorem C72ProgramCase.accepted (h : raw.postInit = .ok c) : c.Accepted := by
  rw [postInit, Except.then_eq_ok, Except.then_eq_ok] at h
  obtain ⟨-, -, h⟩ := h
  split at h
  · cases h
  · rename_i first rest hops
    simp only [raiseIf_eq_ok, Except.bind_eq_ok, exists_const, Except.pure_eq_ok] at h
    obtain ⟨-, -, -, hrelease, hshape, ready, hready, hstart, _, -, rfl⟩ := h
    rw [not_or] at hshape
    have hworkers : C72ProgramCase.workers { raw with workerReadyTimesSeconds := ready } =
        first.observation.workers := by
      rw [workers, hops]
      rfl
    constructor
    · exact hops ▸ List.cons_ne_nil _ _
    · exact fun op hop => not_lt.mp fun hlt => hrelease ⟨op, hop, hlt⟩
    · intro op hop
      rw [hworkers]
      change op ∈ raw.operations at hop
      rw [hops] at hop
      rcases List.mem_cons.mp hop with rfl | hop
      · rfl
      · by_contra hne
        exact hshape.2 ⟨op, hop, hne⟩
    · rw [hworkers]
      exact first.observation.workerIds_nodup
    · intro w hw
      rw [hworkers] at hw
      have hid : w.workerId ∈ (workerShape first).map Prod.fst := by
        rw [workerShape, List.map_map]
        exact List.mem_map_of_mem hw
      obtain ⟨t, ht⟩ := Dict.mem_iff.mp (Dict.mem_ofList (readyTimes_cover hready _ hid))
      refine ⟨t, ht, not_lt.mp fun hlt => hstart ⟨_, Dict.mem_of_get?_ofList ht, hlt⟩⟩

end Accepted

section Placed

/-- A result on a worker of the case, with a service time. -/
structure Placed (c : C72ProgramCase) (result : C72OperationPolicyResult) : Prop where
  worker : ∃ w ∈ c.workers, result.workerId = some w.workerId
  service : ∃ d, 0 ≤ d ∧ result.modeledServiceSeconds = some d

def C72OperationPolicyResult.timed (result : C72OperationPolicyResult) (b : Booking String ℚ) :
    C72OperationPolicyResult :=
  { result with serviceStartTimeSeconds := some b.start, completionTimeSeconds := some b.stop }

/-- The booking is on the worker of the result, for its service time. -/
structure Serves (result : C72OperationPolicyResult) (b : Booking String ℚ) : Prop where
  worker : result.workerId = some b.machine
  service : ∃ d, 0 ≤ d ∧ result.modeledServiceSeconds = some d ∧ b.stop = b.start + d

theorem Serves.le (h : Serves result b) : b.start ≤ b.stop := by
  obtain ⟨d, hd, -, hstop⟩ := h.service
  linarith

/-- The slots that a worker has in the loop. -/
def Scheduling.slotsOf (s : Scheduling) (workerId : String) : List ℚ :=
  (s.slots.get? workerId).getD []

/-- What an operation waits for besides its release and its worker. -/
def Scheduling.waitsFor (s : Scheduling) (c : C72ProgramCase) : ℚ :=
  if c.topology = .serial then s.dependency else c.programStartTimeSeconds

variable {c : C72ProgramCase} {op : C72OperationCase} {result : C72OperationPolicyResult}
  {s : Scheduling}

/-- An operation books the slot of its worker that is free first. -/
theorem scheduleOperation_ok (c : C72ProgramCase) (op : C72OperationCase)
    (hworker : result.workerId = some workerId)
    (hslots : s.slotsOf workerId ≠ []) (hservice : result.modeledServiceSeconds = some d) :
    ∃ i : Fin (s.slotsOf workerId).length, (∀ v ∈ s.slotsOf workerId, (s.slotsOf workerId).get i ≤ v) ∧
      ∀ start, start = max (max op.releaseTimeSeconds (s.waitsFor c)) ((s.slotsOf workerId).get i) →
        scheduleOperation c s (op, result) = .ok
          ⟨s.slots.set workerId ((s.slotsOf workerId).set i (start + d)),
            if c.topology = .serial then start + d else s.dependency,
            s.scheduled ++ [result.timed ⟨workerId, i, start, start + d⟩]⟩ := by
  obtain ⟨i, hi⟩ := earliest_exists hslots
  refine ⟨i, earliest_le hi, fun start hstart => ?_⟩
  have hentry : entry s.slots workerId = .ok (s.slotsOf workerId) := by
    rw [Scheduling.slotsOf] at hslots
    rw [entry, Scheduling.slotsOf]
    cases hget : s.slots.get? workerId with
    | none =>
      rw [hget] at hslots
      exact (hslots rfl).elim
    | some slots => rfl
  cases result
  cases hworker
  cases hservice
  simp only [scheduleOperation, hentry, Except.ok_bind, hi]
  rw [hstart]
  rfl

end Placed

section Runs
variable {c : C72ProgramCase}

theorem capacity_eq (ha : c.Accepted) {w : WorkerObservation} (hw : w ∈ c.workers) :
    c.capacity w.workerId = w.capacity := by
  have hfind : c.workers.find? (·.workerId = w.workerId) = some w := by
    cases hfound : c.workers.find? (·.workerId = w.workerId) with
    | none =>
      have hnot := List.find?_eq_none.mp hfound w hw
      exact (hnot (decide_eq_true rfl)).elim
    | some w' =>
      have hid : w'.workerId = w.workerId := by simpa using List.find?_some hfound
      have hmem := List.mem_of_find?_eq_some hfound
      rw [List.inj_on_of_nodup_map ha.workerIds hmem hw hid]
  rw [C72ProgramCase.capacity, hfind]
  rfl

/-- The operations before one position have booked their workers like this. -/
structure Ran (c : C72ProgramCase) (done : List (C72OperationCase × C72OperationPolicyResult))
    (bookings : List (Booking String ℚ)) (s : Scheduling) : Prop where
  slots : SlotsAfter c.capacity c.readyTime bookings s.slotsOf
  serves : List.Forall₂ (fun p b => Serves p.2 b) done bookings
  scheduled : s.scheduled = List.zipWith (fun p b => p.2.timed b) done bookings
  dependency : s.dependency = if c.topology = .serial then
    (bookings.getLast?.map Booking.stop).getD c.programStartTimeSeconds else c.programStartTimeSeconds
  starts : List.Forall₂ (fun p b => p.1.releaseTimeSeconds ≤ b.start ∧
    c.programStartTimeSeconds ≤ b.start ∧ c.readyTime b.machine ≤ b.start) done bookings
  serial : c.topology = .serial → ∀ i a b, bookings[i]? = some a → bookings[i + 1]? = some b →
    a.stop ≤ b.start
  delayed : ∀ i p b, done[i]? = some p → bookings[i]? = some b → ∀ t, p.1.releaseTimeSeconds ≤ t →
    c.programStartTimeSeconds ≤ t →
    (c.topology = .serial → ∀ j a, i = j + 1 → bookings[j]? = some a → a.stop ≤ t) → t < b.start →
    ∀ k < c.capacity b.machine, t < c.readyTime b.machine ∨
      ∃ a ∈ bookings.take i, a.machine = b.machine ∧ a.slot = k ∧ t < a.stop

theorem getElem?_concat {l : List α} {a : α} {i : Nat} (h : (l ++ [a])[i]? = some x) :
    l[i]? = some x ∨ i = l.length ∧ x = a := by
  rw [List.getElem?_append] at h
  split at h
  · exact .inl h
  · rename_i hlt
    obtain ⟨hi, hx⟩ := List.getElem?_eq_some_iff.mp h
    rw [List.length_singleton] at hi
    simp only [List.getElem_singleton] at hx
    exact .inr ⟨by omega, hx.symm⟩

variable {done : List (C72OperationCase × C72OperationPolicyResult)}
  {bookings : List (Booking String ℚ)} {s : Scheduling}
  {p : C72OperationCase × C72OperationPolicyResult}

theorem slotsOf_set (slots : Dict String (List ℚ)) (workerId : String) (l : List ℚ) (dependency : ℚ)
    (scheduled : List C72OperationPolicyResult) :
    Scheduling.slotsOf ⟨slots.set workerId l, dependency, scheduled⟩ =
      Function.update (fun m => (slots.get? m).getD []) workerId l := by
  funext m
  rw [Scheduling.slotsOf, Dict.get?_set]
  by_cases h : workerId = m
  · rw [if_pos h, h, Function.update_self]
    rfl
  · rw [if_neg h, Function.update_of_ne (Ne.symm h)]

/-- What the loop waits for is the Program start or the stop of the operation before. -/
theorem Ran.waits (h : Ran c done bookings s) {t : ℚ} (hstart : c.programStartTimeSeconds ≤ t)
    (hserial : c.topology = .serial → ∀ j a, bookings.length = j + 1 → bookings[j]? = some a →
      a.stop ≤ t) : s.waitsFor c ≤ t := by
  rw [Scheduling.waitsFor, h.dependency]
  split
  · rename_i htop
    cases hlast : bookings.getLast? with
    | none => exact hstart
    | some a =>
      have hne : bookings ≠ [] := by
        rintro rfl
        cases hlast
      have hpos := List.length_pos_of_ne_nil hne
      refine hserial htop (bookings.length - 1) a (by omega) ?_
      rw [← hlast, List.getLast?_eq_getElem?]
  · exact hstart

/-- The state of the loop when an operation has been booked. -/
def Scheduling.booked (s : Scheduling) (c : C72ProgramCase) (result : C72OperationPolicyResult)
    (b : Booking String ℚ) : Scheduling :=
  ⟨s.slots.set b.machine ((s.slotsOf b.machine).set b.slot b.stop),
    if c.topology = .serial then b.stop else s.dependency, s.scheduled ++ [result.timed b]⟩

theorem Ran.book (h : Ran c done bookings s) {b : Booking String ℚ} (hserves : Serves p.2 b) {v : ℚ}
    (hv : (s.slotsOf b.machine)[b.slot]? = some v) (hleast : ∀ w ∈ s.slotsOf b.machine, v ≤ w)
    (hrelease : c.programStartTimeSeconds ≤ p.1.releaseTimeSeconds)
    (hstart : b.start = max (max p.1.releaseTimeSeconds (s.waitsFor c)) v) :
    Ran c (done ++ [p]) (bookings ++ [b]) (s.booked c p.2 b) := by
  have hlen : done.length = bookings.length := h.serves.length_eq
  have hvle : v ≤ b.start := hstart ▸ le_max_right _ _
  have hreleased : p.1.releaseTimeSeconds ≤ b.start :=
    hstart ▸ (le_max_left _ _).trans (le_max_left _ _)
  have hwaited : s.waitsFor c ≤ b.start := hstart ▸ (le_max_right _ _).trans (le_max_left _ _)
  constructor
  · have hbook := h.slots.book b hv hvle hserves.le
    rw [Scheduling.booked, slotsOf_set]
    exact hbook
  · exact List.rel_append h.serves (.cons hserves .nil)
  · rw [Scheduling.booked, List.zipWith_append hlen, h.scheduled]
    rfl
  · rw [Scheduling.booked, List.getLast?_concat]
    by_cases htop : c.topology = .serial
    · simp [htop]
    · have hdep := h.dependency
      rw [if_neg htop] at hdep
      simp [htop, hdep]
  · refine List.rel_append h.starts (.cons ⟨hreleased, hrelease.trans hreleased, ?_⟩ .nil)
    exact (h.slots.ready_le _ v (List.mem_of_getElem? hv)).trans hvle
  · intro htop i a b' hi hi'
    rcases getElem?_concat hi' with hi' | ⟨hlast, rfl⟩
    · rcases getElem?_concat hi with hi | ⟨hend, -⟩
      · exact h.serial htop i a b' hi hi'
      · have hlt := (List.getElem?_eq_some_iff.mp hi').1
        omega
    · have hget : bookings[i]? = some a := by
        rw [List.getElem?_append_left (by omega)] at hi
        exact hi
      have hdep := h.dependency
      rw [Scheduling.waitsFor, if_pos htop, hdep, if_pos htop, List.getLast?_eq_getElem?,
        show bookings.length - 1 = i by omega, hget] at hwaited
      exact hwaited
  · intro i q b' hq hb' t hrel hst hser hlt k hk
    rcases getElem?_concat hb' with hb' | ⟨hi, rfl⟩
    · have hib := (List.getElem?_eq_some_iff.mp hb').1
      rw [List.getElem?_append_left (by omega)] at hq
      rw [List.take_append_of_le_length (by omega)]
      refine h.delayed i q b' hq hb' t hrel hst (fun htop j a hj ha => ?_) hlt k hk
      exact hser htop j a hj (by rw [List.getElem?_append_left (by omega), ha])
    · -- the operation itself: even the slot that is free first is taken until its start
      have hqp : q = p := by
        rw [hi, ← hlen, List.getElem?_concat_length] at hq
        exact (Option.some.inj hq).symm
      rw [hqp] at hrel
      have hwait : s.waitsFor c ≤ t := by
        refine h.waits hst fun htop j a hj ha => hser htop j a (by omega) ?_
        rw [List.getElem?_append_left (by omega), ha]
      have htv : t < v := by
        rw [hstart] at hlt
        exact (lt_max_iff.mp hlt).resolve_left (not_lt.mpr (max_le hrel hwait))
      rw [hi, List.take_left]
      exact h.slots.occupied (fun w hw => lt_of_lt_of_le htv (hleast w hw)) hk

theorem Ran.slots_ne (ha : c.Accepted) (h : Ran c done bookings s) {w : WorkerObservation}
    (hw : w ∈ c.workers) : s.slotsOf w.workerId ≠ [] := by
  intro hnil
  have hwidth := h.slots.width w.workerId
  rw [capacity_eq ha hw, hnil] at hwidth
  exact absurd hwidth (ne_of_lt w.capacity_pos)

theorem Ran.step (ha : c.Accepted) (h : Ran c done bookings s) (hp : Placed c p.2)
    (hrelease : c.programStartTimeSeconds ≤ p.1.releaseTimeSeconds) :
    ∃ b s', scheduleOperation c s p = .ok s' ∧ Ran c (done ++ [p]) (bookings ++ [b]) s' := by
  obtain ⟨w, hw, hworker⟩ := hp.worker
  obtain ⟨d, hd, hservice⟩ := hp.service
  obtain ⟨i, hleast, hstep⟩ :=
    scheduleOperation_ok c p.1 hworker (h.slots_ne ha hw) hservice
  obtain ⟨start, hstart⟩ : ∃ start, start =
    max (max p.1.releaseTimeSeconds (s.waitsFor c)) ((s.slotsOf w.workerId).get i) := ⟨_, rfl⟩
  have hbooked := h.book (p := p) (b := ⟨w.workerId, i, start, start + d⟩)
    ⟨hworker, d, hd, hservice, rfl⟩ (List.getElem?_eq_getElem i.isLt) hleast hrelease hstart
  exact ⟨_, _, hstep start hstart, hbooked⟩

variable {pairs : List (C72OperationCase × C72OperationPolicyResult)}

theorem Ran.run (ha : c.Accepted) (h : Ran c done bookings s)
    (hp : ∀ p ∈ pairs, Placed c p.2 ∧ c.programStartTimeSeconds ≤ p.1.releaseTimeSeconds) :
    ∃ bookings' s', pairs.foldlM (scheduleOperation c) s = .ok s' ∧
      Ran c (done ++ pairs) bookings' s' := by
  induction pairs generalizing done bookings s with
  | nil =>
    rw [List.append_nil]
    exact ⟨bookings, s, rfl, h⟩
  | cons p pairs ih =>
    obtain ⟨⟨hplaced, hrelease⟩, hrest⟩ := List.forall_mem_cons.mp hp
    obtain ⟨b, t, hstep, hbooked⟩ := h.step ha hplaced hrelease
    obtain ⟨bookings', s', hrun, hran⟩ := ih hbooked hrest
    refine ⟨bookings', s', ?_, by rwa [List.append_assoc] at hran⟩
    rw [List.foldlM_cons, hstep]
    exact hrun

theorem initialSlots_ok {ready : Dict String ℚ} {workers : List WorkerObservation}
    (h : ∀ w ∈ workers, ∃ t, ready.get? w.workerId = some t) :
    initialSlots ready workers = .ok (workers.map fun w =>
      (w.workerId, List.replicate w.capacity ((ready.get? w.workerId).getD 0))) := by
  induction workers with
  | nil => rfl
  | cons w workers ih =>
    obtain ⟨⟨t, ht⟩, hrest⟩ := List.forall_mem_cons.mp h
    rw [initialSlots, entry, ht, ih hrest]
    simp only [List.map_cons, ht]
    rfl

/-- The slots before the loop. -/
def C72ProgramCase.firstSlots (c : C72ProgramCase) : List (String × List ℚ) :=
  c.workers.map fun w => (w.workerId, List.replicate w.capacity (c.readyTime w.workerId))

theorem Ran.init (ha : c.Accepted) :
    Ran c [] [] ⟨Dict.ofList c.firstSlots, c.programStartTimeSeconds, []⟩ := by
  have hslots : Scheduling.slotsOf ⟨Dict.ofList c.firstSlots, c.programStartTimeSeconds, []⟩ =
      fun m => List.replicate (c.capacity m) (c.readyTime m) := by
    funext m
    rw [Scheduling.slotsOf]
    by_cases hm : m ∈ c.workers.map WorkerObservation.workerId
    · obtain ⟨w, hw, rfl⟩ := List.mem_map.mp hm
      have hmem : w.workerId ∈ Dict.ofList c.firstSlots := by
        apply Dict.mem_ofList
        rw [C72ProgramCase.firstSlots, List.map_map]
        exact hm
      obtain ⟨slots, hget⟩ := Dict.mem_iff.mp hmem
      obtain ⟨w', hw', heq⟩ := List.mem_map.mp (Dict.mem_of_get?_ofList hget)
      obtain ⟨hid, rfl⟩ := Prod.mk.inj heq
      rw [hget, List.inj_on_of_nodup_map ha.workerIds hw' hw hid, capacity_eq ha hw]
      rfl
    · have hget : (Dict.ofList c.firstSlots).get? m = none := by
        rw [Option.eq_none_iff_forall_ne_some]
        intro slots hget
        obtain ⟨w, hw, heq⟩ := List.mem_map.mp (Dict.mem_of_get?_ofList hget)
        exact hm (List.mem_map.mpr ⟨w, hw, (Prod.mk.inj heq).1⟩)
      have hfind : c.workers.find? (·.workerId = m) = none :=
        List.find?_eq_none.mpr fun w hw hid =>
          hm (List.mem_map.mpr ⟨w, hw, by simpa using hid⟩)
      rw [hget, C72ProgramCase.capacity, hfind]
      rfl
  refine ⟨?_, .nil, rfl, (ite_self _).symm, .nil, ?_, ?_⟩
  · rw [hslots]
    exact .none
  · exact fun _ _ _ _ ha => (List.not_mem_nil (List.mem_of_getElem? ha)).elim
  · exact fun _ _ _ hp => (List.not_mem_nil (List.mem_of_getElem? hp)).elim

end Runs

section Earlier
variable {c : C72ProgramCase} {s s' : Scheduling}

/-- Both operations complete, the first no later. -/
def CompletesBy (a b : C72OperationPolicyResult) : Prop :=
  ∃ x y, a.completionTimeSeconds = some x ∧ b.completionTimeSeconds = some y ∧ x ≤ y

/-- The same placement with a service that is no longer. -/
structure Shortened (result' result : C72OperationPolicyResult) : Prop where
  worker : result'.workerId = result.workerId
  service : ∃ d' d, 0 ≤ d' ∧ d' ≤ d ∧ result'.modeledServiceSeconds = some d' ∧
    result.modeledServiceSeconds = some d

/-- The slots of the one run are free no later than those of the other. -/
structure Ahead (s' s : Scheduling) : Prop where
  slots : ∀ m, Dominated (s'.slotsOf m) (s.slotsOf m)
  dependency : s'.dependency ≤ s.dependency
  scheduled : List.Forall₂ CompletesBy s'.scheduled s.scheduled

/-- One operation in both runs, which may take different slots. -/
theorem Ahead.step (h : Ahead s' s) (op : C72OperationCase)
    {result result' : C72OperationPolicyResult} (hworker : result.workerId = some m)
    (hne : s.slotsOf m ≠ []) (hshort : Shortened result' result) :
    ∃ t' t, scheduleOperation c s' (op, result') = .ok t' ∧
      scheduleOperation c s (op, result) = .ok t ∧ Ahead t' t := by
  obtain ⟨d', d, hd', hle, hservice', hservice⟩ := hshort.service
  have hlength := (h.slots m).length_eq
  have hne' : s'.slotsOf m ≠ [] := by
    intro hnil
    rw [hnil] at hlength
    exact hne (List.length_eq_zero_iff.mp hlength.symm)
  obtain ⟨i, hleast, hstep⟩ := scheduleOperation_ok c op hworker hne hservice
  obtain ⟨i', hleast', hstep'⟩ :=
    scheduleOperation_ok c op (hshort.worker.trans hworker) hne' hservice'
  obtain ⟨start, hstart⟩ : ∃ start, start =
    max (max op.releaseTimeSeconds (s.waitsFor c)) ((s.slotsOf m).get i) := ⟨_, rfl⟩
  obtain ⟨start', hstart'⟩ : ∃ start', start' =
    max (max op.releaseTimeSeconds (s'.waitsFor c)) ((s'.slotsOf m).get i') := ⟨_, rfl⟩
  have hwaits : s'.waitsFor c ≤ s.waitsFor c := by
    rw [Scheduling.waitsFor, Scheduling.waitsFor]
    split
    · exact h.dependency
    · exact le_refl _
  have hstarts : start' ≤ start := by
    rw [hstart, hstart']
    exact max_le_max (max_le_max (le_refl _) hwaits) ((h.slots m).first_le (List.get_mem _ i) hleast')
  have hstops : start' + d' ≤ start + d := add_le_add hstarts hle
  have hfree : (s.slotsOf m).get i ≤ start + d :=
    (hstart ▸ le_max_right _ _ : _ ≤ start).trans (by linarith)
  refine ⟨_, _, hstep' start' hstart', hstep start hstart, ?_, ?_, ?_⟩
  · intro k
    rw [slotsOf_set, slotsOf_set]
    by_cases hk : k = m
    · rw [hk, Function.update_self, Function.update_self]
      exact (h.slots m).set i.isLt i'.isLt hleast hleast' hfree hstops
    · rw [Function.update_of_ne hk, Function.update_of_ne hk]
      exact h.slots k
  · change (if _ then _ else _) ≤ if _ then _ else _
    split
    · exact hstops
    · exact h.dependency
  · exact List.rel_append h.scheduled (.cons ⟨_, _, rfl, rfl, hstops⟩ .nil)

theorem Ahead.run (ha : c.Accepted) {done : List (C72OperationCase × C72OperationPolicyResult)}
    {bookings : List (Booking String ℚ)} (h : Ran c done bookings s) (hahead : Ahead s' s)
    {pairs pairs' : List (C72OperationCase × C72OperationPolicyResult)}
    (hp : ∀ p ∈ pairs, Placed c p.2 ∧ c.programStartTimeSeconds ≤ p.1.releaseTimeSeconds)
    (hshort : List.Forall₂ (fun p' p => p'.1 = p.1 ∧ Shortened p'.2 p.2) pairs' pairs) :
    ∃ t' t, pairs'.foldlM (scheduleOperation c) s' = .ok t' ∧
      pairs.foldlM (scheduleOperation c) s = .ok t ∧ Ahead t' t := by
  induction hshort generalizing done bookings s s' with
  | nil => exact ⟨s', s, rfl, rfl, hahead⟩
  | @cons p' p _ _ hpair _ ih =>
    obtain ⟨⟨hplaced, hrelease⟩, hrest⟩ := List.forall_mem_cons.mp hp
    obtain ⟨b, u, hnext, hbooked⟩ := h.step ha hplaced hrelease
    obtain ⟨w, hw, hworker⟩ := hplaced.worker
    obtain ⟨op, result⟩ := p
    obtain ⟨op', result'⟩ := p'
    obtain ⟨rfl, hshortened⟩ := hpair
    obtain ⟨t', t, hstep', hstep, hnow⟩ :=
      hahead.step (c := c) op' hworker (h.slots_ne ha hw) hshortened
    obtain rfl := Except.ok.inj (hnext.symm.trans hstep)
    obtain ⟨u', v, hrun', hrun, hend⟩ := ih hbooked hnow hrest
    refine ⟨u', v, ?_, ?_, hend⟩
    · rw [List.foldlM_cons, hstep']
      exact hrun'
    · rw [List.foldlM_cons, hstep]
      exact hrun

end Earlier

section Feasible
variable {raw c : C72ProgramCase} {results results' : List C72OperationPolicyResult}

/-- A feasible list schedule of the operations of a case: `bookings` has the slots that the results
do not show. -/
structure ListSchedule (c : C72ProgramCase) (bookings : List (Booking String ℚ)) : Prop where
  starts : List.Forall₂ (fun op b => op.releaseTimeSeconds ≤ b.start ∧
    c.programStartTimeSeconds ≤ b.start ∧ c.readyTime b.machine ≤ b.start) c.operations bookings
  capacity : ∀ w ∈ c.workers, ∀ t,
    bookings.countP (fun b => b.machine = w.workerId ∧ b.covers t) ≤ w.capacity
  serial : c.topology = .serial → ∀ i a b, bookings[i]? = some a → bookings[i + 1]? = some b →
    a.stop ≤ b.start
  delayed : ∀ i op b, c.operations[i]? = some op → bookings[i]? = some b → ∀ t,
    op.releaseTimeSeconds ≤ t → c.programStartTimeSeconds ≤ t →
    (c.topology = .serial → ∀ j a, i = j + 1 → bookings[j]? = some a → a.stop ≤ t) → t < b.start →
    ∀ w ∈ c.workers, b.machine = w.workerId → ∀ k < w.capacity, t < c.readyTime w.workerId ∨
      ∃ a ∈ bookings.take i, a.machine = w.workerId ∧ a.slot = k ∧ t < a.stop

theorem Ran.listSchedule (ha : c.Accepted) {pairs : List (C72OperationCase × C72OperationPolicyResult)}
    {bookings : List (Booking String ℚ)} {s : Scheduling} (h : Ran c pairs bookings s)
    (hops : pairs.map Prod.fst = c.operations) : ListSchedule c bookings := by
  constructor
  · rw [← hops, List.forall₂_map_left_iff]
    exact h.starts
  · intro w hw t
    rw [← capacity_eq ha hw]
    exact covers_le_capacity h.slots.slot_lt h.slots.before w.workerId t
  · exact h.serial
  · intro i op b hop hb t hrel hst hser hlt w hw hm k hk
    rw [← hops, List.getElem?_map, Option.map_eq_some_iff] at hop
    obtain ⟨p, hp, rfl⟩ := hop
    rw [← capacity_eq ha hw, ← hm] at hk
    have hdelayed := h.delayed i p b hp hb t hrel hst hser hlt k hk
    rwa [hm] at hdelayed

/-- The results are placed, one for each operation. -/
structure PlacedResults (c : C72ProgramCase) (results : List C72OperationPolicyResult) : Prop where
  length_eq : results.length = c.operations.length
  placed : ∀ r ∈ results, Placed c r

theorem PlacedResults.pairs (ha : c.Accepted) (h : PlacedResults c results) :
    ∀ p ∈ c.operations.zip results, Placed c p.2 ∧ c.programStartTimeSeconds ≤ p.1.releaseTimeSeconds :=
  fun _ hp => ⟨h.placed _ (List.of_mem_zip hp).2, ha.release _ (List.of_mem_zip hp).1⟩

/-- What the loop scheduled, with the times of the Program. -/
theorem schedule_eq (ha : c.Accepted) (h : PlacedResults c results) {s : Scheduling} {terminal : ℚ}
    (hrun : (c.operations.zip results).foldlM (scheduleOperation c)
      ⟨Dict.ofList c.firstSlots, c.programStartTimeSeconds, []⟩ = .ok s)
    (hmax : (s.scheduled.filterMap C72OperationPolicyResult.completionTimeSeconds).max? =
      some terminal) : ∃ fanoutTerminal fct, schedule c results = .ok
        ⟨s.scheduled, some terminal, some (terminal - c.programStartTimeSeconds), fanoutTerminal, fct⟩ := by
  have hnone : ¬ ∃ x ∈ results, x.workerId = none := by
    rintro ⟨x, hx, hxn⟩
    obtain ⟨w, -, hw⟩ := (h.placed x hx).worker
    rw [hxn] at hw
    cases hw
  obtain ⟨first, rest, hops⟩ := List.exists_cons_of_ne_nil ha.nonempty
  have hworkers : first.observation.workers = c.workers := by
    rw [C72ProgramCase.workers, hops]
    rfl
  have hslots : initialSlots (Dict.ofList c.workerReadyTimesSeconds) first.observation.workers =
      .ok c.firstSlots := by
    rw [hworkers]
    exact initialSlots_ok fun w hw => (ha.ready w hw).imp fun _ ht => ht.1
  rw [schedule, if_neg hnone]
  split
  · rename_i hnil
    exact (ha.nonempty hnil).elim
  · rename_i first' rest' hops'
    obtain ⟨rfl, rfl⟩ := List.cons.inj (hops.symm.trans hops')
    rw [hslots, Except.ok_bind, if_neg (not_not.mpr h.length_eq.symm)]
    simp only [hrun, Except.ok_bind, hmax]
    exact ⟨_, _, rfl⟩

theorem PlacedResults.shortened (h : PlacedResults c results)
    (hshort : List.Forall₂ Shortened results' results) : PlacedResults c results' := by
  refine ⟨hshort.length_eq.trans h.length_eq, ?_⟩
  have hplaced := h.placed
  clear h
  induction hshort with
  | nil => exact fun r hr => (List.not_mem_nil hr).elim
  | @cons r' r _ _ hpair _ ih =>
    obtain ⟨⟨⟨w, hw, hworker⟩, -⟩, hrest⟩ := List.forall_mem_cons.mp hplaced
    obtain ⟨d', d, hd', -, hservice, -⟩ := hpair.service
    refine List.forall_mem_cons.mpr ⟨⟨⟨w, hw, ?_⟩, d', hd', hservice⟩, ih hrest⟩
    exact hpair.worker.trans hworker

theorem zip_shortened (operations : List C72OperationCase)
    (hshort : List.Forall₂ Shortened results' results) :
    List.Forall₂ (fun p' p => p'.1 = p.1 ∧ Shortened p'.2 p.2) (operations.zip results')
      (operations.zip results) := by
  induction hshort generalizing operations with
  | nil =>
    rw [List.zip_nil_right]
    exact .nil
  | cons hpair _ ih =>
    cases operations with
    | nil => exact .nil
    | cons op operations => exact .cons ⟨rfl, hpair⟩ (ih operations)

theorem completions_zipWith : ∀ (pairs : List (C72OperationCase × C72OperationPolicyResult))
    (bookings : List (Booking String ℚ)), pairs.length = bookings.length →
    (List.zipWith (fun p b => p.2.timed b) pairs bookings).filterMap
      C72OperationPolicyResult.completionTimeSeconds = bookings.map Booking.stop := by
  intro pairs bookings hlen
  induction pairs generalizing bookings with
  | nil =>
    rw [List.length_eq_zero_iff.mp hlen.symm, List.zipWith_nil_left, List.filterMap_nil, List.map_nil]
  | cons p pairs ih =>
    cases bookings with
    | nil => cases hlen
    | cons b bookings =>
      rw [List.zipWith_cons_cons, List.map_cons, ← ih bookings (Nat.succ.inj hlen)]
      rfl

theorem loop_ran (ha : c.Accepted) (h : PlacedResults c results) : ∃ bookings s terminal,
    (c.operations.zip results).foldlM (scheduleOperation c)
      ⟨Dict.ofList c.firstSlots, c.programStartTimeSeconds, []⟩ = .ok s ∧
    Ran c (c.operations.zip results) bookings s ∧
    (s.scheduled.filterMap C72OperationPolicyResult.completionTimeSeconds).max? = some terminal ∧
    (∃ b ∈ bookings, b.stop = terminal) ∧ ∀ b ∈ bookings, b.stop ≤ terminal := by
  obtain ⟨bookings, s, hrun, hran⟩ := (Ran.init ha).run ha (h.pairs ha)
  rw [List.nil_append] at hran
  have hlen := hran.serves.length_eq
  have hcompletions : s.scheduled.filterMap C72OperationPolicyResult.completionTimeSeconds =
      bookings.map Booking.stop := by
    rw [hran.scheduled, completions_zipWith _ _ hlen]
  have hne : bookings.map Booking.stop ≠ [] := by
    intro hnil
    rw [List.map_eq_nil_iff.mp hnil, List.length_zip, h.length_eq, Nat.min_self] at hlen
    exact ha.nonempty (List.length_eq_zero_iff.mp hlen)
  obtain ⟨terminal, hterminal⟩ := Option.isSome_iff_exists.mp (List.isSome_max?_of_ne_nil hne)
  obtain ⟨hmem, hle⟩ := List.max?_eq_some_iff.mp hterminal
  refine ⟨bookings, s, terminal, hrun, hran, hcompletions ▸ hterminal, List.mem_map.mp hmem, ?_⟩
  exact fun b hb => hle b.stop (List.mem_map_of_mem hb)

/-- The schedule of an accepted case is a feasible list schedule that ends with the latest
completion, and shorter services on the same workers complete no operation later. -/
theorem schedule_feasible (haccepted : raw.postInit = .ok c) (h : PlacedResults c results) :
    ∃ s bookings terminal, schedule c results = .ok s ∧
      s.results = List.zipWith C72OperationPolicyResult.timed results bookings ∧
      List.Forall₂ Serves results bookings ∧ ListSchedule c bookings ∧
      (∃ b ∈ bookings, b.stop = terminal) ∧ (∀ b ∈ bookings, b.stop ≤ terminal) ∧
      s.terminal = some terminal ∧ s.pct = some (terminal - c.programStartTimeSeconds) ∧
      ∀ results', List.Forall₂ Shortened results' results →
        ∃ s', schedule c results' = .ok s' ∧ List.Forall₂ CompletesBy s'.results s.results := by
  have ha := C72ProgramCase.accepted haccepted
  obtain ⟨bookings, s, terminal, hrun, hran, hmax, hlatest, hle⟩ := loop_ran ha h
  obtain ⟨fanoutTerminal, fct, hschedule⟩ := schedule_eq ha h hrun hmax
  have hsnd : (c.operations.zip results).map Prod.snd = results :=
    List.map_snd_zip (le_of_eq h.length_eq)
  have hfst : (c.operations.zip results).map Prod.fst = c.operations :=
    List.map_fst_zip (le_of_eq h.length_eq.symm)
  refine ⟨_, bookings, terminal, hschedule, ?_, ?_, hran.listSchedule ha hfst, hlatest, hle, rfl, rfl, ?_⟩
  · rw [hran.scheduled, ← List.zipWith_map_left, hsnd]
  · have hserves := hran.serves
    rwa [← List.forall₂_map_left_iff, hsnd] at hserves
  · intro results' hshort
    have h' := h.shortened hshort
    obtain ⟨_, t, terminal', hrun', -, hmax', -, -⟩ := loop_ran ha h'
    obtain ⟨_, _, hschedule'⟩ := schedule_eq ha h' hrun' hmax'
    have hahead : Ahead ⟨Dict.ofList c.firstSlots, c.programStartTimeSeconds, []⟩
        ⟨Dict.ofList c.firstSlots, c.programStartTimeSeconds, []⟩ :=
      ⟨fun m => .refl _, le_refl _, .nil⟩
    have hpairs : List.Forall₂ (fun p' p => p'.1 = p.1 ∧ Shortened p'.2 p.2)
        (c.operations.zip results') (c.operations.zip results) := zip_shortened _ hshort
    obtain ⟨u', u, hloop', hloop, hend⟩ := hahead.run ha (Ran.init ha) (h.pairs ha) hpairs
    obtain rfl := Except.ok.inj (hrun'.symm.trans hloop')
    obtain rfl := Except.ok.inj (hrun.symm.trans hloop)
    exact ⟨_, hschedule', hend.scheduled⟩

/-- A branch of a fan-out over one worker with one slot. -/
def branch (operationId : String) (h : operationId ≠ "") : C72OperationCase where
  operationId
  observation :=
    { requestId := "r"
      workers := [⟨"w", true, 1, 0, 0, by decide, by decide, by decide⟩]
      attemptId := some "a"
      attemptAuthority := some "CURRENT"
      sessionId := some "s"
      continuationId := some "k"
      programId := some "p"
      requestId_nonempty := by decide
      workers_sorted := List.pairwise_singleton _ _
      optional_nonempty := by decide
      ancestry_canonical := ⟨List.forall_mem_nil _, .nil⟩
      locations_canonical := ⟨List.forall_mem_nil _, .nil⟩
      provenance_canonical := ⟨List.forall_mem_nil _, .nil⟩
      freshness_nonneg := fun _ h => by cases h }
  inputTokens := 1
  outputTokens := 1
  eligibleReuseTokens := 0
  operationId_nonempty := h
  release_nonneg := le_refl 0
  eligible_le := by decide
  admissible := by decide
  identified := by decide
  current := rfl
  reusable := nofun

def branches : C72ProgramCase :=
  ⟨"p", .p4FanoutSharedPrefix, .fanout, [branch "x" (by decide), branch "y" (by decide)], 0, []⟩

def branchResults : List C72OperationPolicyResult :=
  [⟨"x", some "w", some 2, 0, none, none⟩, ⟨"y", some "w", some 3, 0, none, none⟩]

def acceptedBranches : C72ProgramCase := { branches with workerReadyTimesSeconds := [("w", 0)] }

theorem branches_accepted : branches.postInit = .ok acceptedBranches := rfl

theorem branchResults_placed : PlacedResults acceptedBranches branchResults := by
  refine ⟨rfl, fun r hr => ?_⟩
  have hworker : ∃ w ∈ acceptedBranches.workers, some "w" = some w.workerId :=
    ⟨⟨"w", true, 1, 0, 0, by decide, by decide, by decide⟩, List.mem_cons_self, rfl⟩
  rcases List.mem_cons.mp hr with rfl | hr
  · exact ⟨hworker, 2, by norm_num, rfl⟩
  · rw [List.mem_singleton.mp hr]
    exact ⟨hworker, 3, by norm_num, rfl⟩

/-- The second branch waits for the only slot. -/
theorem schedule_feasible_branches :
    ∃ s bookings terminal, schedule acceptedBranches branchResults = .ok s ∧
      s.results = List.zipWith C72OperationPolicyResult.timed branchResults bookings ∧
      List.Forall₂ Serves branchResults bookings ∧ ListSchedule acceptedBranches bookings ∧
      (∃ b ∈ bookings, b.stop = terminal) ∧ (∀ b ∈ bookings, b.stop ≤ terminal) ∧
      s.terminal = some terminal ∧
      s.pct = some (terminal - acceptedBranches.programStartTimeSeconds) ∧
      ∀ results', List.Forall₂ Shortened results' branchResults →
        ∃ s', schedule acceptedBranches results' = .ok s' ∧
          List.Forall₂ CompletesBy s'.results s.results :=
  schedule_feasible branches_accepted branchResults_placed

example : (schedule acceptedBranches branchResults).toOption.map Scheduled.pct = some (some 5) := by
  decide +kernel

end Feasible

end Cadi.Routing
