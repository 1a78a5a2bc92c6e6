import Cadi.Library.Keys
import Cadi.Serialization.Restore

namespace Cadi
open Library
set_option autoImplicit true

section Texts

/-- The text of a value determines it up to the order of the members. -/
theorem canonical_inj {i j : Json} (hi : i.Writable) (hj : j.Writable)
    (h : canonical i = canonical j) : i.sorted = j.sorted := by
  have hread : loads (canonical i) = .ok i.sorted :=
    loadsWith_text finiteHooks_keeps hi.sorted
  have hread' : loads (canonical j) = .ok j.sorted :=
    loadsWith_text finiteHooks_keeps hj.sorted
  rw [h, hread'] at hread
  exact (Except.ok.inj hread).symm

theorem canonical_str {s t : String} (h : canonical (.str s) = canonical (.str t)) : s = t :=
  Json.str.inj (canonical_inj (i := .str s) (j := .str t) ⟨rfl, rfl⟩ ⟨rfl, rfl⟩ h)

end Texts

section Listings

/-- The order in which the entries of a store are written. -/
def entryText (e : String × α) : Text := canonical (.str e.1)

/-- The store with its entries in the order in which they are written. -/
def listedStore (d : Dict String α) : Dict String α where
  entries := sortedBy entryText d.entries
  nodup := ((perm_sortedBy entryText d.entries).map Prod.fst).nodup_iff.mpr d.nodup

theorem listedStore_perm (d : Dict String α) : (listedStore d).entries.Perm d.entries :=
  perm_sortedBy entryText d.entries

theorem get?_of_perm {d e : Dict String α} (h : d.entries.Perm e.entries) : d.Same e := by
  intro k
  ext v
  rw [Dict.get?_eq_some_iff, Dict.get?_eq_some_iff, h.mem_iff]

theorem perm_of_same {d e : Dict String α} (h : d.Same e) : d.entries.Perm e.entries := by
  apply (List.perm_ext_iff_of_nodup d.nodup.of_map e.nodup.of_map).mpr
  intro p
  rw [← Dict.get?_eq_some_iff (k := p.1) (v := p.2), ← Dict.get?_eq_some_iff, h]

theorem listedStore_same (d : Dict String α) : (listedStore d).Same d :=
  get?_of_perm (listedStore_perm d)

theorem entryText_inj (d : Dict String α) :
    ∀ p ∈ d.entries, ∀ q ∈ d.entries, entryText p = entryText q → p = q := by
  intro p hp q hq h
  have hkey : p.1 = q.1 := canonical_str h
  have hvalue : some p.2 = some q.2 := by
    rw [← Dict.get?_eq_some_iff.mpr hp, ← Dict.get?_eq_some_iff.mpr hq, hkey]
  exact Prod.ext hkey (Option.some.inj hvalue)

theorem listedStore_eq {d e : Dict String α} (h : d.Same e) : listedStore d = listedStore e := by
  have hentries : sortedBy entryText d.entries = sortedBy entryText e.entries :=
    sortedBy_perm (entryText_inj d) (perm_of_same h)
  simp only [listedStore, hentries]

variable [Stored α]

theorem byKeyText_store (d : Dict String α) :
    byKeyText (encodeEntries (d.entries.map fun e => (Value.str e.1, value e.2))) =
      (listedStore d).entries.map fun e => (Json.str e.1, encode (value e.2)) := by
  rw [encodeEntries_eq, List.map_map, byKeyText]
  exact (List.map_insertionSort (fun a b => entryText a ≤ entryText b)
    (fun a b => canonical a.1 ≤ canonical b.1) (fun e => (Json.str e.1, encode (value e.2)))
    d.entries fun _ _ _ _ => Iff.rfl).symm

theorem encode_store (d : Dict String α) : encode (value d) = .obj [("$dict",
    .arr ((listedStore d).entries.map fun e => .arr [.str e.1, encode (value e.2)]))] := by
  change encode (.dict (d.entries.map fun e => (Value.str e.1, value e.2))) = _
  rw [encode, byKeyText_store, List.map_map]
  rfl

theorem encode_same {d e : Dict String α} (h : d.Same e) : encode (value d) = encode (value e) := by
  rw [encode_store, encode_store, listedStore_eq h]

theorem normal_store (d : Dict String α) :
    (value d).normal =
      .dict ((listedStore d).entries.map fun e => (Value.str e.1, (value e.2).normal)) := by
  change Value.normal (.dict (d.entries.map fun e => (Value.str e.1, value e.2))) = _
  rw [Value.normal, normalEntries_eq, List.map_map, byListedKey]
  exact congrArg Value.dict (List.map_insertionSort (fun a b => entryText a ≤ entryText b)
    (fun e f => canonical (encode e.1) ≤ canonical (encode f.1))
    (fun e => (Value.str e.1, (value e.2).normal)) d.entries fun _ _ _ _ => Iff.rfl).symm

variable [Restored α]

theorem mapM_entryOf (l : List (String × α)) :
    (l.map fun e => (Value.str e.1, (value e.2).normal)).mapM entryOf = some l := by
  induction l with
  | nil => rfl
  | cons e l ih =>
    rw [List.map_cons, List.mapM_cons, ih, entryOf, Restored.ofValue_normal]
    rfl

/-- A store is read back in the order in which it is written. -/
theorem ofStore_normal (d : Dict String α) : ofStore (value d).normal = some (listedStore d) := by
  rw [normal_store, ofStore, mapM_entryOf]
  exact dif_pos (listedStore d).nodup

theorem plain_store {d : Dict String α} (h : ∀ k a, d.get? k = some a → Restored.Finite a) :
    (value d).Plain := by
  have hmap : (d.entries.map fun e => (Value.str e.1, value e.2)) =
      (d.entries.map fun e => (e.1, value e.2)).map fun e => (Value.str e.1, e.2) := by
    rw [List.map_map]
    rfl
  change Value.Plain (.dict (d.entries.map fun e => (Value.str e.1, value e.2)))
  rw [hmap]
  apply Value.Plain.dict
  · rw [List.map_map]
    exact d.nodup
  · intro e he
    obtain ⟨p, hp, rfl⟩ := List.mem_map.mp he
    exact Restored.plain p.2 (h p.1 p.2 (Dict.get?_eq_some_iff.mpr hp))

end Listings

section Cores

/-- Two cores have the same stores: the dictionaries as maps, the order of the events as a list. -/
structure SameStores (c c' : ContinuityCore) : Prop where
  programs : c.programs.Same c'.programs
  sessions : c.sessions.Same c'.sessions
  continuations : c.continuations.Same c'.continuations
  requests : c.requests.Same c'.requests
  attempts : c.attempts.Same c'.attempts
  phases : c.phases.Same c'.phases
  states : c.states.Same c'.states
  replicas : c.replicas.Same c'.replicas
  bindings : c.bindings.Same c'.bindings
  evidence : c.evidence.Same c'.evidence
  outputs : c.outputs.Same c'.outputs
  events : c.events.Same c'.events
  eventOrder : c.eventOrder = c'.eventOrder
  currentBinding : c.currentBindingBySubject.Same c'.currentBindingBySubject
  currentEpoch : c.currentEpochBySubject.Same c'.currentEpochBySubject
  lastAllocatedEpoch : c.lastAllocatedEpochBySubject.Same c'.lastAllocatedEpochBySubject

/-- The core with its stores in the order in which they are written. -/
def ContinuityCore.listed (c : ContinuityCore) : ContinuityCore where
  programs := listedStore c.programs
  sessions := listedStore c.sessions
  continuations := listedStore c.continuations
  requests := listedStore c.requests
  attempts := listedStore c.attempts
  phases := listedStore c.phases
  states := listedStore c.states
  replicas := listedStore c.replicas
  bindings := listedStore c.bindings
  evidence := listedStore c.evidence
  outputs := listedStore c.outputs
  events := listedStore c.events
  eventOrder := c.eventOrder
  currentBindingBySubject := listedStore c.currentBindingBySubject
  currentEpochBySubject := listedStore c.currentEpochBySubject
  lastAllocatedEpochBySubject := listedStore c.lastAllocatedEpochBySubject

theorem listed_sameStores (c : ContinuityCore) : SameStores c.listed c where
  programs := listedStore_same _
  sessions := listedStore_same _
  continuations := listedStore_same _
  requests := listedStore_same _
  attempts := listedStore_same _
  phases := listedStore_same _
  states := listedStore_same _
  replicas := listedStore_same _
  bindings := listedStore_same _
  evidence := listedStore_same _
  outputs := listedStore_same _
  events := listedStore_same _
  eventOrder := rfl
  currentBinding := listedStore_same _
  currentEpoch := listedStore_same _
  lastAllocatedEpoch := listedStore_same _

theorem SameStores.symm (h : SameStores c c') : SameStores c' c where
  programs := h.programs.symm
  sessions := h.sessions.symm
  continuations := h.continuations.symm
  requests := h.requests.symm
  attempts := h.attempts.symm
  phases := h.phases.symm
  states := h.states.symm
  replicas := h.replicas.symm
  bindings := h.bindings.symm
  evidence := h.evidence.symm
  outputs := h.outputs.symm
  events := h.events.symm
  eventOrder := h.eventOrder.symm
  currentBinding := h.currentBinding.symm
  currentEpoch := h.currentEpoch.symm
  lastAllocatedEpoch := h.lastAllocatedEpoch.symm

theorem SameStores.trans (h : SameStores c c') (h' : SameStores c' c'') : SameStores c c'' where
  programs := h.programs.trans h'.programs
  sessions := h.sessions.trans h'.sessions
  continuations := h.continuations.trans h'.continuations
  requests := h.requests.trans h'.requests
  attempts := h.attempts.trans h'.attempts
  phases := h.phases.trans h'.phases
  states := h.states.trans h'.states
  replicas := h.replicas.trans h'.replicas
  bindings := h.bindings.trans h'.bindings
  evidence := h.evidence.trans h'.evidence
  outputs := h.outputs.trans h'.outputs
  events := h.events.trans h'.events
  eventOrder := h.eventOrder.trans h'.eventOrder
  currentBinding := h.currentBinding.trans h'.currentBinding
  currentEpoch := h.currentEpoch.trans h'.currentEpoch
  lastAllocatedEpoch := h.lastAllocatedEpoch.trans h'.lastAllocatedEpoch

theorem encodeFields_core (c : ContinuityCore) :
    encodeFields (coreFields c) =
      [("programs", encode (value c.programs)), ("sessions", encode (value c.sessions)),
        ("continuations", encode (value c.continuations)), ("requests", encode (value c.requests)),
        ("attempts", encode (value c.attempts)), ("phases", encode (value c.phases)),
        ("states", encode (value c.states)), ("replicas", encode (value c.replicas)),
        ("bindings", encode (value c.bindings)), ("evidence", encode (value c.evidence)),
        ("outputs", encode (value c.outputs)), ("events", encode (value c.events)),
        ("event_order", encode (value c.eventOrder)),
        ("current_binding_by_subject", encode (value c.currentBindingBySubject)),
        ("current_epoch_by_subject", encode (value c.currentEpochBySubject)),
        ("last_allocated_epoch_by_subject", encode (value c.lastAllocatedEpochBySubject))] := rfl

theorem encodeFields_same (h : SameStores c c') :
    encodeFields (coreFields c) = encodeFields (coreFields c') := by
  rw [encodeFields_core, encodeFields_core, encode_same h.programs, encode_same h.sessions,
    encode_same h.continuations,
    encode_same h.requests, encode_same h.attempts, encode_same h.phases, encode_same h.states,
    encode_same h.replicas, encode_same h.bindings, encode_same h.evidence, encode_same h.outputs,
    encode_same h.events, h.eventOrder, encode_same h.currentBinding, encode_same h.currentEpoch,
    encode_same h.lastAllocatedEpoch]

/-- No order of insertion shows in a snapshot. -/
theorem snapshotCore_same (h : SameStores c c') : snapshotCore c = snapshotCore c' := by
  rw [snapshotCore, snapshotCore, snapshotPayload, snapshotPayload, encodeFields_same h]

theorem ofTexts_normal (l : List String) : ofTexts (value l).normal = some l := by
  change ofTexts (.list (normalItems (l.map Value.str))) = some l
  rw [normalItems_eq, List.map_map]
  exact mapM_map (f := Value.str) (g := stringIn) (fun _ => rfl) l

theorem coreOf_normal (c : ContinuityCore) :
    coreOf (normalFields (coreFields c)) = some c.listed := by
  have hfield (name : String) {v : Value} (hfind : fieldOfEntity (coreFields c) name = v) :
      fieldOfEntity (normalFields (coreFields c)) name = v.normal := by
    rw [fieldOfEntity_normal, hfind]
  rw [coreOf, hfield "programs" rfl, hfield "sessions" rfl, hfield "continuations" rfl,
    hfield "requests" rfl, hfield "attempts" rfl, hfield "phases" rfl, hfield "states" rfl,
    hfield "replicas" rfl, hfield "bindings" rfl, hfield "evidence" rfl, hfield "outputs" rfl,
    hfield "events" rfl, hfield "event_order" rfl, hfield "current_binding_by_subject" rfl,
    hfield "current_epoch_by_subject" rfl, hfield "last_allocated_epoch_by_subject" rfl]
  iterate 12 refine Option.bind_eq_some_iff.mpr ⟨_, ofStore_normal _, ?_⟩
  refine Option.bind_eq_some_iff.mpr ⟨_, ofTexts_normal _, ?_⟩
  iterate 3 refine Option.bind_eq_some_iff.mpr ⟨_, ofStore_normal _, ?_⟩
  rfl

end Cores

end Cadi
