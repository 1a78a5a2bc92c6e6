import Cadi.Serialization.Accepted
import Cadi.Serialization.EventLog

namespace Cadi
open Library
set_option autoImplicit true

section Recording
variable {c d : ContinuityCore}

/-- The events of the core in the order in which they were recorded. -/
def ContinuityCore.eventLog (c : ContinuityCore) : List SemanticEvent :=
  c.eventOrder.filterMap c.events.get?

/-- The core after the events have been recorded. -/
def ContinuityCore.logged (d : ContinuityCore) (events : List SemanticEvent) : ContinuityCore :=
  events.foldl (fun d event => (Effect.recordEvent event).apply d) d

def recordAll (events : List SemanticEvent) : CoreM PUnit :=
  events.forM fun event => discard (recordEvent event)

theorem recordAll_cons (event : SemanticEvent) (events : List SemanticEvent) :
    recordAll (event :: events) = (do
      discard (recordEvent event)
      recordAll events) := rfl

theorem discard_ok {x : CoreM α} (h : x c = .ok a d) : discard x c = .ok ⟨⟩ d := by
  change EStateM.map _ x c = _
  rw [EStateM.map, h]

theorem recordEvent_known {event : SemanticEvent} (h : d.events.get? event.id = some event) :
    recordEvent event d = .ok event d := by
  rw [recordEvent, get_bind_apply, h]
  simp only [ne_eq, not_true_eq_false, raiseIf, ↓reduceIte]
  rfl

theorem recordEvent_new {event : SemanticEvent} (h : d.Fresh event.id) :
    recordEvent event d = .ok event ((Effect.recordEvent event).apply d) := by
  have hnone : d.events.get? event.id = none := Dict.get?_eq_none_iff.mpr h.unused.events
  have hunique : unique event.id d = .ok ⟨⟩ d := by
    rw [unique, get_bind_apply]
    exact lift_eq_ok.mpr ⟨raiseIf_eq_ok.mpr h, rfl⟩
  rw [recordEvent, get_bind_apply, hnone]
  change (unique event.id >>= _) d = _
  rw [ok_bind_apply hunique]
  rfl

theorem recordAll_known {events : List SemanticEvent}
    (h : ∀ event ∈ events, d.events.get? event.id = some event) : recordAll events d = .ok ⟨⟩ d := by
  induction events with
  | nil => rfl
  | cons event events ih =>
    rw [recordAll_cons, ok_bind_apply (discard_ok (recordEvent_known (h event List.mem_cons_self)))]
    exact ih fun e he => h e (List.mem_cons_of_mem _ he)

theorem fresh_recorded {event : SemanticEvent} (h : d.Fresh event.id) (hk : d.Fresh k)
    (hne : k ≠ event.id) : ((Effect.recordEvent event).apply d).Fresh k := by
  intro hmem
  rw [(Effect.ids_perm (e := .recordEvent event) h).mem_iff, List.mem_append, Option.mem_toList] at hmem
  rcases hmem with hmem | hmem
  · exact hne (Option.some.inj hmem).symm
  · exact hk hmem

/-- Events with fresh and distinct identifiers are recorded one after the other. -/
theorem recordAll_new {events : List SemanticEvent} (hids : (events.map (·.id)).Nodup)
    (h : ∀ event ∈ events, d.Fresh event.id) : recordAll events d = .ok ⟨⟩ (d.logged events) := by
  induction events generalizing d with
  | nil => rfl
  | cons event events ih =>
    have hfresh := h event List.mem_cons_self
    obtain ⟨hnew, hids⟩ := List.nodup_cons.mp hids
    rw [recordAll_cons, ok_bind_apply (discard_ok (recordEvent_new hfresh)), ih hids]
    · rfl
    · intro e he
      refine fresh_recorded hfresh (h e (List.mem_cons_of_mem _ he)) fun heq => hnew ?_
      exact List.mem_map.mpr ⟨e, he, heq⟩

theorem recordAll_append (events events' : List SemanticEvent) :
    recordAll (events ++ events') = (do
      recordAll events
      recordAll events') := List.forM_append

theorem logged_append (d : ContinuityCore) (events events' : List SemanticEvent) :
    d.logged (events ++ events') = (d.logged events).logged events' := List.foldl_append

theorem logged_fresh {events : List SemanticEvent} (hids : (events.map (·.id)).Nodup)
    (h : ∀ event ∈ events, d.Fresh event.id) (hk : d.Fresh k) (hne : k ∉ events.map (·.id)) :
    (d.logged events).Fresh k := by
  induction events generalizing d with
  | nil => exact hk
  | cons event events ih =>
    have hfresh := h event List.mem_cons_self
    obtain ⟨hnew, hids⟩ := List.nodup_cons.mp hids
    rw [List.map_cons, List.mem_cons, not_or] at hne
    refine ih hids (fun e he => ?_) (fresh_recorded hfresh hk hne.1) hne.2
    refine fresh_recorded hfresh (h e (List.mem_cons_of_mem _ he)) fun heq => hnew ?_
    exact List.mem_map.mpr ⟨e, he, heq⟩

theorem get?_logged_other {events : List SemanticEvent} (hne : k ∉ events.map (·.id)) :
    (d.logged events).events.get? k = d.events.get? k := by
  induction events generalizing d with
  | nil => rfl
  | cons event events ih =>
    rw [List.map_cons, List.mem_cons, not_or] at hne
    exact (ih hne.2).trans (Dict.get?_set_ne _ _ (Ne.symm hne.1))

theorem get?_logged {events : List SemanticEvent} (hids : (events.map (·.id)).Nodup)
    (he : event ∈ events) : (d.logged events).events.get? event.id = some event := by
  induction events generalizing d with
  | nil => cases he
  | cons e events ih =>
    obtain ⟨hnew, hids⟩ := List.nodup_cons.mp hids
    rcases List.mem_cons.mp he with rfl | he
    · exact (get?_logged_other hnew).trans (Dict.get?_set_self _ _ _)
    · exact ih hids he

/-- A part of the log that starts where the log starts adds what is not recorded yet. -/
theorem recordAll_again {events : List SemanticEvent} (hids : (events.map (·.id)).Nodup)
    (h : ∀ event ∈ events, d.Fresh event.id) (n m : Nat) :
    recordAll (events.take m) (d.logged (events.take n)) = .ok ⟨⟩ (d.logged (events.take (max n m))) := by
  have hids' (l : Nat) : ((events.take l).map (·.id)).Nodup :=
    ((List.take_sublist l events).map _).nodup hids
  rcases Nat.le_total m n with hle | hle
  · rw [Nat.max_eq_left hle]
    exact recordAll_known fun event he => get?_logged (hids' n) (List.take_subset_take_left _ hle he)
  · obtain ⟨r, rfl⟩ := Nat.exists_eq_add_of_le hle
    rw [Nat.max_eq_right hle, List.take_add, recordAll_append, logged_append,
      ok_bind_apply (recordAll_known fun event he => get?_logged (hids' n) he)]
    have hsplit := hids' (n + r)
    rw [List.take_add, List.map_append, List.nodup_append] at hsplit
    obtain ⟨-, hrest, hdisjoint⟩ := hsplit
    refine recordAll_new hrest fun event he => ?_
    have hmem : event ∈ events := List.mem_of_mem_drop (List.mem_of_mem_take he)
    refine logged_fresh (hids' n) (fun e he => h e (List.mem_of_mem_take he)) (h event hmem) ?_
    exact fun hbefore => hdisjoint _ hbefore _ (List.mem_map_of_mem he) rfl

theorem logged_order (d : ContinuityCore) (events : List SemanticEvent) :
    (d.logged events).eventOrder = d.eventOrder ++ events.map (·.id) := by
  induction events generalizing d with
  | nil => exact (List.append_nil _).symm
  | cons event events ih =>
    refine (ih _).trans ?_
    change d.eventOrder ++ [event.id] ++ _ = _
    rw [List.append_assoc]
    rfl

theorem logged_eq (d : ContinuityCore) (events : List SemanticEvent) : d.logged events =
    { d with events := (d.logged events).events, eventOrder := (d.logged events).eventOrder } := by
  induction events generalizing d with
  | nil => rfl
  | cons event events ih => exact ih _

theorem logged_keys {events : List SemanticEvent} (hids : (events.map (·.id)).Nodup)
    (h : ∀ event ∈ events, event.id ∉ d.events) :
    (d.logged events).events.keys = d.events.keys ++ events.map (·.id) := by
  induction events generalizing d with
  | nil => exact (List.append_nil _).symm
  | cons event events ih =>
    obtain ⟨hnew, hids⟩ := List.nodup_cons.mp hids
    refine (ih hids fun e he hmem => ?_).trans ?_
    · rcases Dict.mem_set.mp hmem with heq | hmem
      · exact hnew (List.mem_map.mpr ⟨e, he, heq.symm⟩)
      · exact h e (List.mem_cons_of_mem _ he) hmem
    · change (d.events.set event.id event).keys ++ _ = _
      rw [Dict.keys_set_new (h event List.mem_cons_self), List.append_assoc]
      rfl

end Recording

section Logs
variable {c c' : ContinuityCore} {shown : Value → String}

/-- The events are kept in the order in which they were recorded, under their identifiers. -/
structure Logged (c : ContinuityCore) : Prop where
  order : c.events.keys = c.eventOrder
  keyed : Keyed c.events

theorem Effect.logOrder {e : Effect} (h : c.events.keys = c.eventOrder) (ha : e.Allowed c) :
    (e.apply c).events.keys = (e.apply c).eventOrder := by
  cases e with
  | recordEvent event =>
    change (c.events.set event.id event).keys = c.eventOrder ++ [event.id]
    rw [Dict.keys_set_new (ContinuityCore.Fresh.unused ha).events, h]
  | _ => exact h

theorem logOrder_step (h : c.events.keys = c.eventOrder) (hg : Grounded c) :
    (step semanticValidity c call).events.keys = (step semanticValidity c call).eventOrder := by
  apply step_keeps (P := fun c => c.events.keys = c.eventOrder) hg h
  intro _ es c' _ ht
  exact ht.invariant (.of_forall (B := fun _ => True) (fun _ _ => True.intro) c) h
    fun _ _ hc ha _ => Effect.logOrder hc ha

theorem logged_run (semanticValidity : SemanticValidity) (calls : List Call) :
    Logged (run (step semanticValidity) {} calls) := by
  have hboth : Grounded (run (step semanticValidity) {} calls) ∧
      (run (step semanticValidity) {} calls).events.keys =
        (run (step semanticValidity) {} calls).eventOrder :=
    invariant_run (P := fun c => Grounded c ∧ c.events.keys = c.eventOrder)
      ⟨Sound.empty.reached.grounded, rfl⟩
      (fun _ call hc _ => ⟨hc.1.step semanticValidity call, logOrder_step hc.2 hc.1⟩)
      (.trivial (A := fun _ _ => True) (fun _ _ => True.intro) _ _)
  exact ⟨hboth.2, hboth.1.keys.events⟩

theorem Logged.get (h : Logged c) (hk : k ∈ c.eventOrder) :
    ∃ event, c.events.get? k = some event ∧ event.id = k := by
  rw [← h.order] at hk
  obtain ⟨event, hget⟩ := Dict.mem_keys_iff.mp hk
  exact ⟨event, hget, h.keyed k event hget⟩

theorem Logged.ids (h : Logged c) : c.eventLog.map (·.id) = c.eventOrder := by
  have hpart (l : List String) (hl : ∀ k ∈ l, k ∈ c.eventOrder) :
      (l.filterMap c.events.get?).map (·.id) = l := by
    induction l with
    | nil => rfl
    | cons k l ih =>
      obtain ⟨event, hget, hid⟩ := h.get (hl k List.mem_cons_self)
      rw [List.filterMap_cons_some hget, List.map_cons, hid, ih fun k hk =>
        hl k (List.mem_cons_of_mem _ hk)]
  exact hpart _ fun _ hk => hk

theorem Logged.nodup (h : Logged c) : (c.eventLog.map (·.id)).Nodup := by
  rw [h.ids, ← h.order]
  exact c.events.nodup

theorem Logged.mem (h : Logged c) (hget : c.events.get? k = some event) : event ∈ c.eventLog := by
  refine List.mem_filterMap.mpr ⟨k, ?_, hget⟩
  rw [← h.order]
  exact Dict.mem_keys_iff.mpr ⟨event, hget⟩

/-- The lines of the exported log. -/
def eventLogLines (shown : Value → String) (c : ContinuityCore) : Except PyError (List String) :=
  c.eventOrder.mapM fun eventId => do
    let event ← item c.events eventId
    eventLine shown event

theorem eventLogLines_ok (h : Logged c) : eventLogLines shown c =
    .ok (c.eventLog.map fun event => recordLine (eventMembers event)) := by
  have hpart (l : List String) (hl : ∀ k ∈ l, k ∈ c.eventOrder) :
      (l.mapM fun eventId => do
        let event ← item c.events eventId
        eventLine shown event) =
        .ok ((l.filterMap c.events.get?).map fun event => recordLine (eventMembers event)) := by
    induction l with
    | nil => rfl
    | cons k l ih =>
      obtain ⟨event, hget, -⟩ := h.get (hl k List.mem_cons_self)
      rw [List.mapM_cons, ih fun k hk => hl k (List.mem_cons_of_mem _ hk), item_of_get? hget,
        Except.ok_bind, eventLine_ok, List.filterMap_cons_some hget]
      rfl
  exact hpart _ fun _ hk => hk

theorem exportEventLog_ok (h : Logged c) : exportEventLog shown c =
    .ok (joinLines (c.eventLog.map fun event => recordLine (eventMembers event))) := by
  have hlines : eventLogLines shown c = _ := eventLogLines_ok h
  change (eventLogLines shown c >>= fun lines => pure (joinLines lines)) = _
  rw [hlines]
  rfl

theorem eventLog_extends (h : Logged c) (hp : Persists c c') : c.eventLog <+: c'.eventLog := by
  have hsame : c.eventOrder.filterMap c.events.get? = c.eventOrder.filterMap c'.events.get? := by
    refine List.filterMap_congr fun k hk => ?_
    obtain ⟨event, hget, -⟩ := h.get hk
    obtain ⟨event', hget', rfl⟩ := hp.events k event hget
    rw [hget, hget']
  rw [ContinuityCore.eventLog, hsame]
  exact hp.eventOrder.filterMap _

/-- The core with the events alone. -/
def ContinuityCore.eventsOnly (c : ContinuityCore) : ContinuityCore where
  events := c.events
  eventOrder := c.eventOrder

theorem logged_eventLog (h : Logged c) : ContinuityCore.logged {} c.eventLog = c.eventsOnly := by
  have hempty (k : String) : k ∉ ({} : ContinuityCore).events := fun hk => absurd hk List.not_mem_nil
  have hkeys : (ContinuityCore.logged {} c.eventLog).events.keys = c.events.keys := by
    rw [logged_keys h.nodup fun event _ => hempty event.id, h.order, h.ids]
    rfl
  have hevents : (ContinuityCore.logged {} c.eventLog).events = c.events := by
    refine Dict.ext_of_keys hkeys fun k => ?_
    cases hget : c.events.get? k with
    | some event =>
      obtain rfl := h.keyed k event hget
      exact get?_logged h.nodup (h.mem hget)
    | none =>
      refine (get?_logged_other ?_).trans rfl
      rw [h.ids, ← h.order]
      exact Dict.get?_eq_none_iff.mp hget
  have horder : (ContinuityCore.logged {} c.eventLog).eventOrder = c.eventOrder := by
    rw [logged_order, h.ids]
    rfl
  rw [logged_eq, hevents, horder]
  rfl

end Logs

section Exports
variable {c d : ContinuityCore} {shown : Value → String} {semanticValidity : SemanticValidity}

/-- An event recorded by the call has strings that stay on one line. -/
def RecordsLines (call : Call) : Prop :=
  ∀ event, call.operation = .recordEvent event → (value event).Unbroken

def UnbrokenEvents (c : ContinuityCore) : Prop :=
  ∀ k event, c.events.get? k = some event → (value event).Unbroken

theorem Effect.unbrokenEvents {e : Effect} (h : UnbrokenEvents c)
    (he : ∀ event, e = .recordEvent event → (value event).Unbroken) : UnbrokenEvents (e.apply c) := by
  cases e with
  | recordEvent event => exact Dict.forall_set h (he event rfl)
  | _ => exact h

theorem UnbrokenEvents.step (h : UnbrokenEvents c) (hg : Grounded c) (hcall : RecordsLines call) :
    UnbrokenEvents (step semanticValidity c call) := by
  apply step_keeps hg h
  intro _ es c' hes ht
  have hrecords : ∀ e ∈ es, ∀ event, e = .recordEvent event → (value event).Unbroken :=
    fun e he event hevent => hcall event ((PublicOperation.recorded_of_performs hes he).2 event hevent)
  exact ht.invariant (.of_forall hrecords c) h fun _ e hc _ he => Effect.unbrokenEvents hc he

theorem unbrokenEvents_run {calls : List Call} (hcalls : ∀ call ∈ calls, RecordsLines call) :
    UnbrokenEvents (run (Cadi.step semanticValidity) {} calls) := by
  have hboth : Grounded (run (Cadi.step semanticValidity) {} calls) ∧
      UnbrokenEvents (run (Cadi.step semanticValidity) {} calls) :=
    invariant_run (P := fun c => Grounded c ∧ UnbrokenEvents c)
      ⟨Sound.empty.reached.grounded, fun _ _ h => by cases h⟩
      (fun _ call hc hcall => ⟨hc.1.step semanticValidity call, hc.2.step hc.1 hcall⟩)
      (.of_forall hcalls _)
  exact hboth.2

/-- The core after some of the calls. -/
def coreAfter (semanticValidity : SemanticValidity) (calls : List Call) (n : Nat) : ContinuityCore :=
  run (Cadi.step semanticValidity) {} (calls.take n)

theorem coreAfter_persists (calls : List Call) (h : n ≤ m) :
    Persists (coreAfter semanticValidity calls n) (coreAfter semanticValidity calls m) := by
  obtain ⟨r, rfl⟩ := Nat.exists_eq_add_of_le h
  rw [coreAfter, coreAfter, List.take_add, run_append]
  exact (grounded_run semanticValidity (calls.take n)).persists_run semanticValidity _

theorem replayEventLog_ok {events : List SemanticEvent} (h : ∀ event ∈ events, (value event).Unbroken)
    (d : ContinuityCore) :
    replayEventLog shown (joinLines (events.map fun event => recordLine (eventMembers event))) d =
      recordAll events d := by
  have hread : eventsFromJsonl shown _ = .ok events := eventsFromJsonl_written h
  rw [replayEventLog]
  exact ok_bind_apply (lift_eq_ok.mpr ⟨hread, rfl⟩)

/-- The number of events recorded after some of the calls. -/
def logLength (semanticValidity : SemanticValidity) (calls : List Call) (n : Nat) : Nat :=
  (coreAfter semanticValidity calls n).eventLog.length

theorem logLength_mono (calls : List Call) : Monotone (logLength semanticValidity calls) := by
  intro n m h
  exact (eventLog_extends (logged_run _ _) (coreAfter_persists calls h)).length_le

/-- The log after some of the calls is a part of the log after all of them. -/
theorem eventLog_take (calls : List Call) (n : Nat) :
    (coreAfter semanticValidity calls n).eventLog =
      (run (Cadi.step semanticValidity) {} calls).eventLog.take (logLength semanticValidity calls n) := by
  have hall : coreAfter semanticValidity calls (max n calls.length) =
      run (Cadi.step semanticValidity) {} calls := by
    rw [coreAfter, List.take_of_length_le (Nat.le_max_right _ _)]
  have hpersists : Persists (coreAfter semanticValidity calls n) _ :=
    coreAfter_persists calls (Nat.le_max_left n calls.length)
  have hprefix := eventLog_extends (logged_run _ _) hpersists
  rw [hall] at hprefix
  exact List.prefix_iff_eq_take.mp hprefix

/-- One more export of the run, taken earlier or later, leaves the replica with the log of the
latest of the exports. -/
theorem replay_export {calls : List Call} (hcalls : ∀ call ∈ calls, RecordsLines call) (n m : Nat) :
    ∃ text, exportEventLog shown (coreAfter semanticValidity calls m) = .ok text ∧
      replayEventLog shown text (coreAfter semanticValidity calls n).eventsOnly =
        .ok ⟨⟩ (coreAfter semanticValidity calls (max n m)).eventsOnly := by
  have hlogged (n : Nat) : Logged (coreAfter semanticValidity calls n) := logged_run _ _
  have hfresh : ∀ event ∈ (run (Cadi.step semanticValidity) {} calls).eventLog,
      ContinuityCore.Fresh {} event.id := fun _ _ => List.not_mem_nil
  have hunbroken : ∀ event ∈ (coreAfter semanticValidity calls m).eventLog, (value event).Unbroken := by
    intro event he
    obtain ⟨k, -, hget⟩ := List.mem_filterMap.mp he
    exact unbrokenEvents_run (fun call hcall => hcalls call (List.mem_of_mem_take hcall)) k event hget
  refine ⟨_, exportEventLog_ok (hlogged m), ?_⟩
  rw [replayEventLog_ok hunbroken, ← logged_eventLog (hlogged n), ← logged_eventLog (hlogged (max n m)),
    eventLog_take calls n, eventLog_take calls m, eventLog_take calls (max n m),
    recordAll_again (logged_run semanticValidity calls).nodup hfresh, (logLength_mono calls).map_max]

/-- Exports of one run, taken after any numbers of calls and replayed in any order and any number of
times, leave an empty core with the events of the latest of them, in their order. -/
theorem exports_replayed (semanticValidity : SemanticValidity) (shown : Value → String)
    (calls : List Call) (hcalls : ∀ call ∈ calls, RecordsLines call) (points : List Nat) :
    ∃ texts, points.mapM (fun n => exportEventLog shown (coreAfter semanticValidity calls n)) = .ok texts ∧
      texts.forM (replayEventLog shown) {} =
        .ok ⟨⟩ (coreAfter semanticValidity calls (points.foldl max 0)).eventsOnly := by
  have hfrom (n : Nat) : ∃ texts,
      points.mapM (fun n => exportEventLog shown (coreAfter semanticValidity calls n)) = .ok texts ∧
        texts.forM (replayEventLog shown) (coreAfter semanticValidity calls n).eventsOnly =
          .ok ⟨⟩ (coreAfter semanticValidity calls (points.foldl max n)).eventsOnly := by
    induction points generalizing n with
    | nil => exact ⟨[], rfl, rfl⟩
    | cons m points ih =>
      have hone : ∃ text, exportEventLog shown (coreAfter semanticValidity calls m) = .ok text ∧ _ :=
        replay_export hcalls n m
      obtain ⟨text, hexport, hreplay⟩ := hone
      obtain ⟨texts, htexts, hrest⟩ := ih (max n m)
      refine ⟨text :: texts, ?_, ?_⟩
      · rw [List.mapM_cons, hexport, htexts]
        rfl
      · change (replayEventLog shown text >>= fun _ => texts.forM (replayEventLog shown)) _ = _
        rw [ok_bind_apply hreplay]
        exact hrest
  exact hfrom 0

/-- A run that records two events. -/
def loggedRun : List Call :=
  [⟨.int 0, .recordEvent ⟨"e1", "observed", "Program", "p", {("status", "RUNNING")}⟩⟩,
    ⟨.int 0, .createProgram "p"⟩, ⟨.int 0, .recordEvent ⟨"e2", "observed", "Program", "p", ∅⟩⟩]

theorem exports_replayed_logged :
    ∃ texts,
      [3, 1, 2].mapM (fun n => exportEventLog (fun _ => "") (coreAfter defaultValidity loggedRun n)) =
        .ok texts ∧
      texts.forM (replayEventLog fun _ => "") {} =
        .ok ⟨⟩ (coreAfter defaultValidity loggedRun 3).eventsOnly := by
  refine exports_replayed defaultValidity (fun _ => "") loggedRun ?_ [3, 1, 2]
  intro call hcall event hevent
  simp only [loggedRun, List.mem_cons, List.not_mem_nil, or_false] at hcall
  rcases hcall with rfl | rfl | rfl
  · cases hevent
    decide
  · cases hevent
  · cases hevent
    decide

end Exports

section Prefixes
variable {c : ContinuityCore} {shown : Value → String}

end Prefixes

end Cadi
