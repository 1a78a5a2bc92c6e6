import Cadi.Histories.Reachable
import Cadi.Serialization.Lines

namespace Cadi
open Library
set_option autoImplicit true

section Records
variable (shown : Value → String)

def eventTraceSchema : String := "cadi.semantic-event.v1"

/-- The members of the record of an event. -/
def eventMembers (event : SemanticEvent) : List (String × Json) :=
  [("schema", .str eventTraceSchema), ("event", encode (value event))]

def eventToRecord (event : SemanticEvent) : Except PyError Json := do
  validateEntity shown "SemanticEvent" "event" (value event)
  return .obj (eventMembers event)

/-- An event that passed its check is read back from its fields. -/
def eventFromRecord : Json → Except PyError SemanticEvent
  | .obj members => do
    raiseIf (hasSchema members eventTraceSchema = false)
      (PyError.valueError "unsupported semantic-event schema")
    let j ← member members "event"
    let event ← decode j
    validateEntity shown "SemanticEvent" "event" event
    match Restored.ofValue event with
    | some event => return event
    | none => throw (.valueError "snapshot event has invalid type")
  | _ => .error (.valueError "unsupported semantic-event schema")

/-- The line of an event. -/
def eventLine (event : SemanticEvent) : Except PyError String := do
  let record ← eventToRecord shown event
  canonicalJson record

def eventsToJsonl (events : List SemanticEvent) : Except PyError String := do
  let lines ← events.mapM (eventLine shown)
  return joinLines lines

def eventsFromJsonl (text : String) : Except PyError (List SemanticEvent) :=
  readRecords (fun result record => do
    let event ← eventFromRecord shown record
    return result ++ [event]) [] text

/-- The events are looked up while their lines are made. -/
def exportEventLog (c : ContinuityCore) : Except PyError String := do
  let lines ← c.eventOrder.mapM fun eventId => do
    let event ← item c.events eventId
    eventLine shown event
  return joinLines lines

def replayEventLog (text : String) : CoreM Unit := do
  let events ← eventsFromJsonl shown text
  events.forM fun event => discard (recordEvent event)

end Records

section RoundTrip
variable {shown : Value → String}
open Restored

/-- The check looks at the items of a set in any order. -/
theorem pairs_accepted (s : FrozenSet (String × String)) : annotationMatches pairSet (value s) = true := by
  change annotationMatches pairSet (.frozenset ((pairsOf s).map pairValue)) = true
  rw [pairSet, annotationMatches, List.all_map, List.all_eq_true]
  exact fun _ _ => rfl

theorem eventToRecord_ok (event : SemanticEvent) :
    eventToRecord shown event = .ok (.obj (eventMembers event)) := by
  have hvalid : validateEntity shown "SemanticEvent" "event" (value event) = .ok () := by
    apply validateEntity_ok rfl
    simp only [List.forall_mem_cons, List.not_mem_nil, false_implies, implies_true, and_true]
    exact ⟨rfl, rfl, rfl, rfl, pairs_accepted event.payload⟩
  rw [eventToRecord, hvalid]
  rfl

theorem eventMembers_writable (event : SemanticEvent) : (Json.obj (eventMembers event)).Writable := by
  apply Json.Writable.of_members
  · exact (by decide : ["schema", "event"].Nodup)
  · exact List.forall_mem_cons.mpr
      ⟨⟨rfl, rfl⟩, List.forall_mem_singleton.mpr (encode_writable (plain event True.intro))⟩

theorem eventMembers_unbroken (event : SemanticEvent) :
    (Json.obj (eventMembers event)).Unbroken ↔ (value event).Unbroken := by
  rw [eventMembers, unbroken_tagged_pair (by decide) (by decide), encode_unbroken]
  exact and_iff_right ((Json.Unbroken.str _).mpr (by decide))

theorem eventLine_ok (event : SemanticEvent) :
    eventLine shown event = .ok (recordLine (eventMembers event)) := by
  rw [eventLine, eventToRecord_ok, Except.ok_bind]
  exact canonicalJson_record (eventMembers_writable event)

theorem mapM_ok {f : α → Except ε β} {g : α → β} {l : List α} (h : ∀ a ∈ l, f a = .ok (g a)) :
    l.mapM f = .ok (l.map g) := by
  induction l with
  | nil => rfl
  | cons a l ih =>
    rw [List.mapM_cons, h a List.mem_cons_self, ih fun b hb => h b (List.mem_cons_of_mem _ hb)]
    rfl

theorem eventsToJsonl_ok (events : List SemanticEvent) :
    eventsToJsonl shown events =
      .ok (joinLines (events.map fun event => recordLine (eventMembers event))) := by
  rw [eventsToJsonl, mapM_ok fun event _ => eventLine_ok event]
  rfl

theorem eventMembers_sorted (event : SemanticEvent) : (Json.obj (eventMembers event)).sorted =
    .obj [("event", (encode (value event)).sorted), ("schema", .str eventTraceSchema)] := by
  have hlt : ¬ "schema" ≤ "event" := by decide
  rw [eventMembers, Json.sorted, sortedMembers_eq, byKey]
  simp only [List.map_cons, List.map_nil, List.insertionSort_cons, List.insertionSort_nil,
    List.orderedInsert, hlt, ↓reduceIte, Json.sorted]

theorem eventFromRecord_written (event : SemanticEvent) :
    eventFromRecord shown (Json.obj (eventMembers event)).sorted = .ok event := by
  have hvalid := Record.valid event True.intro shown "event"
  rw [eventMembers_sorted]
  change (do
    let v ← decode (encode (value event)).sorted
    validateEntity shown "SemanticEvent" "event" v
    match (ofValue v : Option SemanticEvent) with
    | some event => return event
    | none => throw (PyError.valueError "snapshot event has invalid type")) = _
  rw [decode_encode (plain event True.intro), Except.ok_bind]
  change (do
    validateEntity shown (Record.entityType SemanticEvent) "event" (value event).normal
    _) = _
  rw [hvalid, Except.ok_bind, ofValue_normal]
  rfl

/-- Events that are read one after the other are collected in their order. -/
theorem foldlM_collect {f : α → Except ε β} {g : α → β} {l : List α} (h : ∀ a ∈ l, f a = .ok (g a))
    (s : List β) :
    l.foldlM (fun s a => do
      let b ← f a
      return s ++ [b]) s = .ok (s ++ l.map g) := by
  induction l generalizing s with
  | nil =>
    rw [List.map_nil, List.append_nil]
    rfl
  | cons a l ih =>
    rw [List.foldlM_cons, h a List.mem_cons_self]
    change l.foldlM _ (s ++ [g a]) = _
    rw [ih (fun b hb => h b (List.mem_cons_of_mem _ hb)), List.append_assoc]
    rfl

theorem eventsFromJsonl_written {events : List SemanticEvent}
    (h : ∀ event ∈ events, (value event).Unbroken) :
    eventsFromJsonl shown (joinLines (events.map fun event => recordLine (eventMembers event))) =
      .ok events := by
  rw [eventsFromJsonl, readRecords_written (fun event _ => eventMembers_writable event)
    fun event he => (eventMembers_unbroken event).mpr (h event he)]
  have hread : ∀ event ∈ events,
      eventFromRecord shown (Json.obj (eventMembers event)).sorted = .ok (id event) :=
    fun event _ => eventFromRecord_written event
  have hcollect := foldlM_collect hread []
  rwa [List.map_id] at hcollect

/-- The lines of events are read back as these events just when no string of theirs has one of the
line breaks that the text does not escape; otherwise they are refused. -/
theorem events_roundTrip (shown : Value → String) (events : List SemanticEvent) :
    ∃ text, eventsToJsonl shown events = .ok text ∧
      (eventsFromJsonl shown text = .ok events ↔ ∀ event ∈ events, (value event).Unbroken) ∧
      ((∃ event ∈ events, ¬ (value event).Unbroken) → ∀ read, eventsFromJsonl shown text ≠ .ok read) := by
  have hrefused : (∃ event ∈ events, ¬ (value event).Unbroken) → ∀ read,
      eventsFromJsonl shown (joinLines (events.map fun event => recordLine (eventMembers event))) ≠
        .ok read := by
    intro h read
    obtain ⟨event, he, hbroken⟩ := h
    exact readRecords_unwritten (fun event _ => eventMembers_writable event)
      ⟨event, he, fun h => hbroken ((eventMembers_unbroken event).mp h)⟩ [] read
  refine ⟨_, eventsToJsonl_ok events, ⟨fun h => ?_, eventsFromJsonl_written⟩, hrefused⟩
  by_contra hbroken
  simp only [not_forall] at hbroken
  obtain ⟨event, he, hbroken⟩ := hbroken
  exact hrefused ⟨event, he, hbroken⟩ events h

end RoundTrip

end Cadi
