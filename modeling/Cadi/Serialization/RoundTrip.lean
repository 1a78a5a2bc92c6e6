import Cadi.Serialization.Stores

namespace Cadi
open Library
set_option autoImplicit true

/-- The numbers of the stored Evidence are finite. -/
def FiniteNumbers (c : ContinuityCore) : Prop :=
  ∀ k e, c.evidence.get? k = some e → Restored.Finite e

/-- The numbers of the stored Evidence convert to finite floats. -/
def FloatNumbers (c : ContinuityCore) : Prop :=
  ∀ k e, c.evidence.get? k = some e → Restored.InRange e

section Payload
variable {c : ContinuityCore}

theorem finite_of_inRange {e : Evidence} (h : Restored.InRange e) : Restored.Finite e := by
  obtain ⟨hobserved, huntil, hconfidence⟩ := h
  refine ⟨.of_isFinite hobserved, ?_, ?_⟩
  · intro n hn
    exact .of_isFinite (huntil n hn)
  · intro n hn
    exact .of_isFinite (hconfidence n hn)

theorem FloatNumbers.finite (h : FloatNumbers c) : FiniteNumbers c := by
  intro k e he
  exact finite_of_inRange (h k e he)

theorem plain_coreFields (h : FiniteNumbers c) : ∀ f ∈ coreFields c, f.2.Plain := by
  have htexts : (value c.eventOrder).Plain := by
    apply Value.Plain.list
    intro v hv
    obtain ⟨s, -, rfl⟩ := List.mem_map.mp hv
    exact .str s
  rw [coreFields]
  refine List.forall_mem_cons.mpr ⟨plain_store fun _ _ _ => True.intro, ?_⟩
  refine List.forall_mem_cons.mpr ⟨plain_store fun _ _ _ => True.intro, ?_⟩
  refine List.forall_mem_cons.mpr ⟨plain_store fun _ _ _ => True.intro, ?_⟩
  refine List.forall_mem_cons.mpr ⟨plain_store fun _ _ _ => True.intro, ?_⟩
  refine List.forall_mem_cons.mpr ⟨plain_store fun _ _ _ => True.intro, ?_⟩
  refine List.forall_mem_cons.mpr ⟨plain_store fun _ _ _ => True.intro, ?_⟩
  refine List.forall_mem_cons.mpr ⟨plain_store fun _ _ _ => True.intro, ?_⟩
  refine List.forall_mem_cons.mpr ⟨plain_store fun _ _ _ => True.intro, ?_⟩
  refine List.forall_mem_cons.mpr ⟨plain_store fun _ _ _ => True.intro, ?_⟩
  refine List.forall_mem_cons.mpr ⟨plain_store h, ?_⟩
  refine List.forall_mem_cons.mpr ⟨plain_store fun _ _ _ => True.intro, ?_⟩
  refine List.forall_mem_cons.mpr ⟨plain_store fun _ _ _ => True.intro, ?_⟩
  refine List.forall_mem_cons.mpr ⟨htexts, ?_⟩
  refine List.forall_mem_cons.mpr ⟨plain_store fun _ _ _ => True.intro, ?_⟩
  refine List.forall_mem_cons.mpr ⟨plain_store fun _ _ _ => True.intro, ?_⟩
  exact List.forall_mem_singleton.mpr (plain_store fun _ _ _ => True.intro)

theorem coreFieldNames_nodup : coreFieldNames.Nodup := by decide

theorem encodeFields_writable {fields : List (String × Value)} (hnames : (fields.map Prod.fst).Nodup)
    (h : ∀ f ∈ fields, f.2.Plain) : (Json.obj (encodeFields fields)).Writable := by
  rw [encodeFields_eq]
  apply Json.Writable.of_members
  · rw [List.map_map]
    exact hnames
  · intro m hm
    obtain ⟨f, hf, rfl⟩ := List.mem_map.mp hm
    exact encode_writable (h f hf)

theorem snapshotPayload_writable (h : FiniteNumbers c) : (snapshotPayload c).Writable := by
  have hstate : (Json.obj (encodeFields (coreFields c))).Writable :=
    encodeFields_writable coreFieldNames_nodup (plain_coreFields h)
  rw [snapshotPayload]
  apply Json.Writable.of_members
  · exact (by decide : ["schema", "state"].Nodup)
  · exact List.forall_mem_cons.mpr ⟨⟨rfl, rfl⟩, List.forall_mem_singleton.mpr hstate⟩

/-- The object under `state` as it is written. -/
def rawState (c : ContinuityCore) : List (String × Json) :=
  byKey (sortedMembers (encodeFields (coreFields c)))

theorem snapshotPayload_sorted (c : ContinuityCore) :
    (snapshotPayload c).sorted =
      .obj [("schema", .str snapshotSchema), ("state", .obj (rawState c))] := by
  have hle : "schema" ≤ "state" := by decide
  rw [snapshotPayload, Json.sorted, sortedMembers_eq]
  exact congrArg Json.obj (byKey_of_sorted (List.pairwise_pair.mpr hle))

theorem snapshotCore_ok (h : FiniteNumbers c) :
    snapshotCore c = .ok (String.ofList (canonical (snapshotPayload c))) := by
  rw [snapshotCore, canonicalJson, if_pos (snapshotPayload_writable h).finite]

theorem encodeField_finite {fields : List (String × Value)}
    (h : (Json.obj (encodeFields fields)).finite = true) (hf : f ∈ fields) :
    (encode f.2).finite = true := by
  have hmem : (f.1, encode f.2) ∈ encodeFields fields := by
    rw [encodeFields_eq]
    exact List.mem_map_of_mem hf
  exact finiteMembers_iff.mp h _ hmem

theorem encodeEvidence_finite {e : Evidence} (h : (encode (value e)).finite = true) :
    Restored.Finite e := by
  have hfields : (Json.obj _).finite = true :=
    finiteMembers_iff.mp h _ (List.mem_cons_of_mem _ List.mem_cons_self)
  have hobserved : (encode (value e.observedAt)).finite = true :=
    encodeField_finite hfields (f := ("observed_at", value e.observedAt)) (by
      simp only [List.mem_cons, true_or, or_true])
  have huntil : (encode (value e.validUntil)).finite = true :=
    encodeField_finite hfields (f := ("valid_until", value e.validUntil)) (by
      simp only [List.mem_cons, true_or, or_true])
  have hconfidence : (encode (value e.confidence)).finite = true :=
    encodeField_finite hfields (f := ("confidence", value e.confidence)) (by
      simp only [List.mem_cons, true_or, or_true])
  refine ⟨hobserved, fun n hn => ?_, fun n hn => ?_⟩
  · rw [Option.mem_def.mp hn] at huntil
    exact huntil
  · rw [Option.mem_def.mp hn] at hconfidence
    exact hconfidence

/-- Only finite numbers are written. -/
theorem finite_of_snapshotCore (h : snapshotCore c = .ok text) : FiniteNumbers c := by
  have hpayload : (snapshotPayload c).finite = true := by
    rw [snapshotCore, canonicalJson] at h
    split at h
    · next hfinite => exact hfinite
    · cases h
  have hstate : (Json.obj (encodeFields (coreFields c))).finite = true :=
    finiteMembers_iff.mp hpayload _ (List.mem_cons_of_mem _ List.mem_cons_self)
  have hevidence : (encode (value c.evidence)).finite = true :=
    encodeField_finite hstate (f := ("evidence", value c.evidence)) (by
      simp only [coreFields, List.mem_cons, true_or, or_true])
  rw [encode_store] at hevidence
  have hitems : (Json.arr _).finite = true := finiteMembers_iff.mp hevidence _ List.mem_cons_self
  intro k e he
  have hentry := (listedStore_perm c.evidence).mem_iff.mpr (Dict.get?_eq_some_iff.mp he)
  have hitem : (Json.arr _).finite = true := finiteItems_iff.mp hitems _ (List.mem_map_of_mem hentry)
  exact encodeEvidence_finite (finiteItems_iff.mp hitem _ (List.mem_cons_of_mem _ List.mem_cons_self))

/-- What is loaded from a snapshot is the state as it was written. -/
theorem rawState_loaded (h : FiniteNumbers c) (htext : snapshotCore c = .ok text) :
    (strictJsonLoads text >>= rawStateOf) = .ok (rawState c) := by
  have hload : strictJsonLoads text = .ok (snapshotPayload c).sorted := by
    rw [snapshotCore_ok h] at htext
    obtain rfl := Except.ok.inj htext
    rw [strictJsonLoads_eq_ok, String.toList_ofList]
    exact loadsWith_text finiteHooks_keeps (snapshotPayload_writable h).sorted
  rw [hload, snapshotPayload_sorted]
  rfl

theorem rawState_names (c : ContinuityCore) : ((rawState c).map Prod.fst).Perm coreFieldNames := by
  have hkeys : (encodeFields (coreFields c)).map Prod.fst = coreFieldNames := by
    rw [encodeFields_eq, List.map_map]
    rfl
  exact hkeys ▸ keys_sorted _

theorem decodeState_rawState (h : FiniteNumbers c) :
    decodeState (rawState c) = .ok (normalFields (coreFields c)) := by
  have hfind : ∀ f ∈ coreFields c, member (rawState c) f.1 = .ok (encode f.2).sorted := by
    intro f hf
    have hnames : ((encodeFields (coreFields c)).map Prod.fst).Nodup := by
      rw [encodeFields_eq, List.map_map]
      exact coreFieldNames_nodup
    have hget : Dict.find (encodeFields (coreFields c)) f.1 = some (encode f.2) := by
      rw [Dict.find_eq_some_iff hnames, encodeFields_eq]
      exact List.mem_map_of_mem hf
    rw [member, rawState, find_sorted hnames, hget]
    rfl
  have hloop (fields : List (String × Value)) (hfields : ∀ f ∈ fields, f ∈ coreFields c) :
      ((fields.map Prod.fst).mapM fun name => (do
        let j ← member (rawState c) name
        let v ← decode j
        return (name, v) : Except PyError (String × Value))) = .ok (normalFields fields) := by
    induction fields with
    | nil => rfl
    | cons f fields ih =>
      have hf := hfields f List.mem_cons_self
      have hrest := ih fun g hg => hfields g (List.mem_cons_of_mem _ hg)
      rw [List.map_cons, List.mapM_cons, hfind f hf, hrest, Except.ok_bind,
        decode_encode (plain_coreFields h f hf)]
      rfl
  exact hloop (coreFields c) fun f hf => hf

end Payload

section Validation
variable {shown : Value → String}

/-- An entity that passes the checks of its collection under its key. -/
def ValidEntry (shown : Value → String) (name expectedType : String) (e : String × Value) : Prop :=
  validateEntity shown expectedType name e.2 = .ok () ∧ (entityId e.2).eq (.str e.1) = true

theorem validateEntries_ok {l : List (String × Value)}
    (h : ∀ e ∈ l, ValidEntry shown name expectedType e)
    (hnodup : ((l.map Prod.fst).reverse ++ seen).Nodup) :
    validateEntries shown name expectedType seen (l.map fun e => (Value.str e.1, e.2)) =
      .ok ((l.map Prod.fst).reverse ++ seen) := by
  induction l generalizing seen with
  | nil => rfl
  | cons e l ih =>
    obtain ⟨hvalid, hid⟩ := h e List.mem_cons_self
    have hkeys : ((e :: l).map Prod.fst).reverse ++ seen = (l.map Prod.fst).reverse ++ e.1 :: seen := by
      rw [List.map_cons, List.reverse_cons, List.append_assoc, List.singleton_append]
    rw [hkeys] at hnodup ⊢
    have hfresh : e.1 ∉ seen := (List.nodup_cons.mp (List.nodup_append.mp hnodup).2.1).1
    have hrest := ih (fun e' he' => h e' (List.mem_cons_of_mem _ he')) hnodup
    simp only [List.map_cons, validateEntries, hvalid, hid, raiseIf, hfresh, Bool.true_eq_false,
      ↓reduceIte, Except.ok_bind, hrest]

/-- A collection by its name, the type of its entities and its entries. -/
abbrev Collection := String × String × List (String × Value)

theorem validateCollections_ok {state : List (String × Value)} {collections : List Collection}
    (h : ∀ x ∈ collections,
      fieldOfEntity state x.1 = .dict (x.2.2.map fun e => (Value.str e.1, e.2)) ∧
      ∀ e ∈ x.2.2, ValidEntry shown x.1 x.2.1 e)
    (hnodup : ((collections.flatMap fun x => x.2.2.map Prod.fst).reverse ++ seen).Nodup) :
    validateCollections shown state seen (collections.map fun x => (x.1, x.2.1)) = .ok () := by
  induction collections generalizing seen with
  | nil => rfl
  | cons x collections ih =>
    obtain ⟨hfield, hvalid⟩ := h x List.mem_cons_self
    rw [List.flatMap_cons, List.reverse_append, List.append_assoc] at hnodup
    have hentries := validateEntries_ok hvalid (List.nodup_append.mp hnodup).2.1
    have hrest := ih (fun y hy => h y (List.mem_cons_of_mem _ hy)) hnodup
    simp only [List.map_cons, validateCollections, hfield, validateCollection, hentries,
      Except.ok_bind, hrest]

/-- The entries of a store as they are read back. -/
def entriesOf [Stored α] (d : Dict String α) : List (String × Value) :=
  (listedStore d).entries.map fun e => (e.1, (value e.2).normal)

theorem entriesOf_valid [Stored α] [Restored α] [Record α] {d : Dict String α}
    (hid : ∀ k a, d.get? k = some a → Record.id a = k)
    (h : ∀ k a, d.get? k = some a → Restored.InRange a) (name : String) :
    ∀ e ∈ entriesOf d, ValidEntry shown name (Record.entityType α) e := by
  intro e he
  obtain ⟨p, hp, rfl⟩ := List.mem_map.mp he
  have hget : d.get? p.1 = some p.2 :=
    Dict.get?_eq_some_iff.mpr ((listedStore_perm d).mem_iff.mp hp)
  constructor
  · exact Record.valid p.2 (h p.1 p.2 hget) shown name
  · obtain ⟨fields, hfields, hname⟩ := Record.id_normal p.2
    rw [hfields, entityId, hname, hid p.1 p.2 hget]
    exact (str_eq p.1 p.1).mpr rfl

theorem normal_entriesOf [Stored α] (d : Dict String α) :
    (value d).normal = .dict ((entriesOf d).map fun e => (Value.str e.1, e.2)) := by
  rw [normal_store, entriesOf, List.map_map]
  rfl

theorem entriesOf_keys [Stored α] (d : Dict String α) : ((entriesOf d).map Prod.fst).Perm d.keys := by
  rw [entriesOf, List.map_map]
  exact (listedStore_perm d).map Prod.fst

variable {c : ContinuityCore}

/-- The entity collections of a core as they are read back. -/
def collectionsOf (c : ContinuityCore) : List Collection :=
  [("programs", "Program", entriesOf c.programs), ("sessions", "Session", entriesOf c.sessions),
    ("continuations", "Continuation", entriesOf c.continuations),
    ("requests", "LogicalRequest", entriesOf c.requests),
    ("attempts", "Attempt", entriesOf c.attempts), ("phases", "Phase", entriesOf c.phases),
    ("states", "ReusableState", entriesOf c.states),
    ("replicas", "StateReplica", entriesOf c.replicas),
    ("bindings", "Binding", entriesOf c.bindings), ("evidence", "Evidence", entriesOf c.evidence),
    ("outputs", "Output", entriesOf c.outputs), ("events", "SemanticEvent", entriesOf c.events)]

theorem collectionsOf_nodup (h : c.ids.Nodup) :
    ((collectionsOf c).flatMap fun x => x.2.2.map Prod.fst).Nodup := by
  refine List.Perm.nodup_iff ?_ |>.mpr h
  simp only [collectionsOf, List.flatMap_cons, List.flatMap_nil, List.append_nil, ContinuityCore.ids,
    List.append_assoc]
  repeat refine (entriesOf_keys _).append ?_
  exact entriesOf_keys _

theorem fieldOfEntity_core (c : ContinuityCore) (hfind : fieldOfEntity (coreFields c) name = v) :
    fieldOfEntity (normalFields (coreFields c)) name = v.normal := by
  rw [fieldOfEntity_normal, hfind]

theorem collectionsOf_valid (hkeys : KeysMatch c) (hfloat : FloatNumbers c) :
    ∀ x ∈ collectionsOf c,
      fieldOfEntity (normalFields (coreFields c)) x.1 =
        .dict (x.2.2.map fun e => (Value.str e.1, e.2)) ∧
      ∀ e ∈ x.2.2, ValidEntry shown x.1 x.2.1 e := by
  have hvalid {α : Type} [Stored α] [Restored α] [Record α] {d : Dict String α} {name : String}
      (hfind : fieldOfEntity (coreFields c) name = value d)
      (hid : ∀ k a, d.get? k = some a → Record.id a = k)
      (h : ∀ k a, d.get? k = some a → Restored.InRange a) :
      fieldOfEntity (normalFields (coreFields c)) name =
        .dict ((entriesOf d).map fun e => (Value.str e.1, e.2)) ∧
      ∀ e ∈ entriesOf d, ValidEntry shown name (Record.entityType α) e :=
    ⟨(fieldOfEntity_core c hfind).trans (normal_entriesOf d), entriesOf_valid hid h name⟩
  rw [collectionsOf]
  refine List.forall_mem_cons.mpr ⟨hvalid rfl hkeys.programs fun _ _ _ => True.intro, ?_⟩
  refine List.forall_mem_cons.mpr ⟨hvalid rfl hkeys.sessions fun _ _ _ => True.intro, ?_⟩
  refine List.forall_mem_cons.mpr ⟨hvalid rfl hkeys.continuations fun _ _ _ => True.intro, ?_⟩
  refine List.forall_mem_cons.mpr ⟨hvalid rfl hkeys.requests fun _ _ _ => True.intro, ?_⟩
  refine List.forall_mem_cons.mpr ⟨hvalid rfl hkeys.attempts fun _ _ _ => True.intro, ?_⟩
  refine List.forall_mem_cons.mpr ⟨hvalid rfl hkeys.phases fun _ _ _ => True.intro, ?_⟩
  refine List.forall_mem_cons.mpr ⟨hvalid rfl hkeys.states fun _ _ _ => True.intro, ?_⟩
  refine List.forall_mem_cons.mpr ⟨hvalid rfl hkeys.replicas fun _ _ _ => True.intro, ?_⟩
  refine List.forall_mem_cons.mpr ⟨hvalid rfl hkeys.bindings fun _ _ _ => True.intro, ?_⟩
  refine List.forall_mem_cons.mpr ⟨hvalid rfl hkeys.evidence hfloat, ?_⟩
  refine List.forall_mem_cons.mpr ⟨hvalid rfl hkeys.outputs fun _ _ _ => True.intro, ?_⟩
  exact List.forall_mem_singleton.mpr (hvalid rfl hkeys.events fun _ _ _ => True.intro)

theorem validateMapping_ok [Stored α] [Restored α] {d : Dict String α}
    (h : ∀ k a, d.get? k = some a → Restored.InRange a) (name text : String) :
    validateMapping name text (Restored.hint α) (value d).normal = .ok () := by
  have hall : ((listedStore d).entries.map fun e => (Value.str e.1, (value e.2).normal)).all
      (fun e => annotationMatches .str e.1 && annotationMatches (Restored.hint α) e.2) =
        true := by
    rw [List.all_map, List.all_eq_true]
    intro e he
    have hget := Dict.get?_eq_some_iff.mpr ((listedStore_perm d).mem_iff.mp he)
    exact Restored.accepts e.2 (h e.1 e.2 hget)
  rw [normal_store, validateMapping, raiseIf_eq_ok, hall]
  exact Bool.false_ne_true.symm

theorem validateEventOrder_ok (l : List String) : validateEventOrder (value l).normal = .ok () := by
  change validateEventOrder (.list (normalItems (l.map Value.str))) = .ok ()
  have hall : ((l.map Value.str).map Value.normal).all (annotationMatches .str) = true := by
    rw [List.map_map, List.all_map, List.all_eq_true]
    exact fun s _ => rfl
  rw [validateEventOrder, normalItems_eq, raiseIf_eq_ok, hall]
  exact Bool.false_ne_true.symm

/-- The state of a core with its own keys and distinct identifiers passes the checks. -/
theorem validateDecodedState_ok (hkeys : KeysMatch c) (hids : c.ids.Nodup) (hfloat : FloatNumbers c) :
    validateDecodedState shown (normalFields (coreFields c)) = .ok () := by
  have hcollections : validateCollections shown (normalFields (coreFields c)) []
      entityCollectionTypes = .ok () := by
    apply validateCollections_ok (collectionsOf_valid hkeys hfloat)
    rw [List.append_nil, List.nodup_reverse]
    exact collectionsOf_nodup hids
  have horder : validateEventOrder (fieldOfEntity (normalFields (coreFields c)) "event_order") =
      .ok () := by
    rw [fieldOfEntity_core c rfl]
    exact validateEventOrder_ok c.eventOrder
  have hmapping {α : Type} [Stored α] [Restored α] {d : Dict String α} {name : String} (text : String)
      (hfind : fieldOfEntity (coreFields c) name = value d)
      (h : ∀ k a, d.get? k = some a → Restored.InRange a) :
      validateMapping name text (Restored.hint α)
        (fieldOfEntity (normalFields (coreFields c)) name) = .ok () := by
    rw [fieldOfEntity_core c hfind]
    exact validateMapping_ok h name text
  rw [validateDecodedState, hcollections, Except.ok_bind, horder, Except.ok_bind, Except.then_eq_ok,
    Except.then_eq_ok]
  exact ⟨hmapping (d := c.currentBindingBySubject) "str" rfl fun _ _ _ => True.intro,
    hmapping (d := c.currentEpochBySubject) "int" rfl fun _ _ _ => True.intro,
    hmapping (d := c.lastAllocatedEpochBySubject) "int" rfl fun _ _ _ => True.intro⟩

end Validation

end Cadi
