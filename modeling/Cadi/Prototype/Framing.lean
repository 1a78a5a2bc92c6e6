import Cadi.Prototype.Transport

namespace Cadi
open Library
set_option autoImplicit true

section Canonical
variable [DecidableEq σ] [LinearOrder σ] [JsonString σ] {j : Json σ} {payload : ByteArray}

omit [DecidableEq σ] in
theorem canonicalJsonBytes_eq_ok : canonicalJsonBytes j = .ok payload ↔
    j.finite = true ∧ (String.ofList j.sorted.asciiText).toUTF8 = payload := by
  rw [canonicalJsonBytes]
  split
  · next h => rw [Except.ok.injEq, and_iff_right h]
  · next h => simp only [reduceCtorEq, h, false_and]

/-- The bytes depend on the members of an object, not on their order. -/
theorem canonicalJsonBytes_sorted (hd : j.distinct = true) (h : canonicalJsonBytes j = .ok payload) :
    canonicalJsonBytes j.sorted = .ok payload := by
  obtain ⟨hf, htext⟩ := canonicalJsonBytes_eq_ok.mp h
  have hsorted : j.sorted.Writable := Json.Writable.sorted ⟨hf, hd⟩
  rw [canonicalJsonBytes_eq_ok, Json.sorted_sorted]
  exact ⟨hsorted.finite, htext⟩

theorem loads_canonical (hp : j.Proper) (h : canonicalJsonBytes j = .ok payload) :
    ∃ text, String.fromUTF8? payload = some text ∧
      loadsWith plainHooks text.toList = .ok j.sorted := by
  obtain ⟨hf, rfl⟩ := canonicalJsonBytes_eq_ok.mp h
  refine ⟨_, fromUTF8?_toUTF8 _, ?_⟩
  rw [String.toList_ofList]
  exact loadsWith_asciiText plainHooks_keeps (Json.Writable.sorted ⟨hf, hp.distinct⟩)
    (Json.All.of_sorted.mpr hp.joined)

theorem decodeCanonicalJson_bytes (hp : j.Proper)
    (h : canonicalJsonBytes j = .ok payload) (hne : payload.size ≠ 0) :
    decodeCanonicalJson payload = .ok j.sorted := by
  obtain ⟨text, hutf8, hloads⟩ := loads_canonical hp h
  have hbytes := canonicalJsonBytes_sorted hp.distinct h
  simp only [decodeCanonicalJson, raiseIf, hne, ↓reduceIte, hutf8, hloads, Except.ok_bind, hbytes,
    ne_eq, not_true_eq_false]
  rfl

/-- What is accepted is in canonical form, and the payload is its only text. -/
theorem decodeCanonicalJson_eq_ok (h : decodeCanonicalJson payload = .ok j) :
    j.Proper ∧ j.sorted = j ∧ canonicalJsonBytes j = .ok payload := by
  simp only [decodeCanonicalJson, Except.then_eq_ok] at h
  obtain ⟨_, h⟩ := h
  split at h
  · cases h
  · next text hutf8 =>
    split at h
    · cases h
    · next value hloads =>
      simp only [Except.bind_eq_ok, raiseIf_eq_ok, not_not, exists_and_left, Except.pure_eq_ok,
        Except.ok_bind] at h
      obtain ⟨bytes, hbytes, rfl, _, rfl⟩ := h
      have hp := loadsWith_proper plainHooks_proper hloads
      obtain ⟨text', hutf8', hloads'⟩ := loads_canonical hp hbytes
      rw [hutf8, Option.some.injEq] at hutf8'
      subst hutf8'
      rw [hloads, Except.ok.injEq] at hloads'
      exact ⟨hp, hloads'.symm, hbytes⟩

end Canonical

section Failures

/-- Every failure of the computation is one of the transport. -/
def FailsClosed (x : Except WireError α) : Prop := ∀ e, x = .error e → ∃ t, e = .transport t

theorem FailsClosed.ok (a : α) : FailsClosed (.ok a : Except WireError α) := by
  intro e h
  cases h

theorem FailsClosed.error (t : TransportError) :
    FailsClosed (.error (.transport t) : Except WireError α) := by
  intro e h
  cases h
  exact ⟨t, rfl⟩

theorem FailsClosed.raiseIf (p : Prop) [Decidable p] (t : TransportError) :
    FailsClosed (raiseIf p (.transport t)) := by
  intro e h
  obtain ⟨_, rfl⟩ := raiseIf_eq_error.mp h
  exact ⟨t, rfl⟩

theorem FailsClosed.bind {x : Except WireError α} {f : α → Except WireError β} (hx : FailsClosed x)
    (hf : ∀ a, x = .ok a → FailsClosed (f a)) : FailsClosed (x >>= f) := by
  cases x with
  | ok a => exact hf a rfl
  | error e =>
    obtain ⟨t, rfl⟩ := hx e rfl
    exact .error t

theorem FailsClosed.forM {f : α → Except WireError PUnit} {l : List α}
    (h : ∀ a, FailsClosed (f a)) : FailsClosed (l.forM f) := by
  induction l with
  | nil => exact .ok _
  | cons a l ih => exact .bind (h a) fun _ _ => ih

variable [DecidableEq σ] [LinearOrder σ] [JsonString σ]

omit [DecidableEq σ] in
theorem canonicalJsonBytes_closed (j : Json σ) : FailsClosed (canonicalJsonBytes j) := by
  unfold canonicalJsonBytes
  split
  · exact .ok _
  · exact .error _

theorem decodeCanonicalJson_closed (payload : ByteArray) :
    FailsClosed (decodeCanonicalJson payload : Except WireError (Json σ)) := by
  apply FailsClosed.bind (.raiseIf _ _)
  intro _ _
  split
  · exact .error _
  · split
    · exact .error _
    · apply FailsClosed.bind (canonicalJsonBytes_closed _)
      intro bytes _
      exact .bind (.raiseIf _ _) fun _ _ => .ok _

omit [LinearOrder σ] in
theorem checkHeader_closed (members : Members σ) : FailsClosed (checkHeader members) := by
  apply FailsClosed.bind (.raiseIf _ _)
  intro _ _
  exact .bind (.raiseIf _ _) fun _ _ => .forM fun _ => .raiseIf _ _

end Failures

section Fields
variable [DecidableEq σ] [JsonString σ] {j : Json σ}

/-- The value is one of the texts. -/
def Listed (j : Json σ) (texts : List String) : Prop := ∃ s ∈ texts, textOf j = some (ofString s)

theorem inSet_eq_true : inSet j texts = .ok true ↔ Listed j texts := by
  cases j with
  | str s =>
    simp only [inSet, Except.ok.injEq, decide_eq_true_eq, List.mem_map, Listed, textOf,
      Option.some.injEq, @eq_comm _ s]
  | null | bool _ | num _ | arr _ | obj _ =>
    simp only [inSet, Except.ok.injEq, reduceCtorEq, Bool.false_eq_true, Listed, textOf, and_false,
      exists_false]

theorem inSet_raises (j : Json σ) (texts : List String) :
    isUnhashable j = true ∧ (∃ m, inSet j texts = .error (.typeError m)) ∨
      isUnhashable j = false ∧ ∃ b, inSet j texts = .ok b := by
  cases j with
  | arr _ | obj _ => exact .inl ⟨rfl, _, rfl⟩
  | null | bool _ | num _ | str _ => exact .inr ⟨rfl, _, rfl⟩

/-- A list or an object stands where a lookup in a set meets it, all earlier checks passed. -/
def UnhashableField [LinearOrder σ] (v : Members σ) : Prop :=
  checkHeader v = .ok () ∧
    (isUnhashable (valueAt v "message_kind") = true ∨
      Listed (valueAt v "message_kind") kindTexts ∧
        (isUnhashable (valueAt v "sender_role") = true ∨
          Listed (valueAt v "sender_role") roleTexts ∧
            isUnhashable (valueAt v "receiver_role") = true))

/-- The computation raises an exception that is no failure of the transport. -/
def RaisesTypeError (x : Except WireError α) : Prop := ∃ m, x = .error (.typeError m)

theorem failsClosed_iff {x : Except WireError α} : FailsClosed x ↔ ¬ RaisesTypeError x := by
  constructor
  · rintro h ⟨m, hm⟩
    obtain ⟨t, ht⟩ := h _ hm
    cases ht
  · intro h e he
    cases e with
    | transport t => exact ⟨t, rfl⟩
    | typeError m => exact (h ⟨m, he⟩).elim

theorem raisesTypeError_bind {x : Except WireError α} {f : α → Except WireError β} :
    RaisesTypeError (x >>= f) ↔ RaisesTypeError x ∨ ∃ a, x = .ok a ∧ RaisesTypeError (f a) := by
  cases x with
  | ok a =>
    simp only [RaisesTypeError, Except.ok_bind, reduceCtorEq, exists_false, Except.ok.injEq,
      exists_eq_left', false_or]
  | error e =>
    simp only [RaisesTypeError, Except.error_bind, reduceCtorEq, false_and, exists_false, or_false,
      Except.error.injEq]

theorem raisesTypeError_closed {x : Except WireError PUnit} {y : Except WireError β}
    (hx : FailsClosed x) :
    RaisesTypeError (x >>= fun _ => y) ↔ x = .ok ⟨⟩ ∧ RaisesTypeError y := by
  rw [raisesTypeError_bind, or_iff_right (failsClosed_iff.mp hx)]
  constructor
  · rintro ⟨⟨⟩, h⟩
    exact h
  · intro h
    exact ⟨⟨⟩, h⟩

theorem raisesTypeError_inSet {f : Bool → Except WireError β} (hf : FailsClosed (f false)) :
    RaisesTypeError (inSet j texts >>= f) ↔
      isUnhashable j = true ∨ Listed j texts ∧ RaisesTypeError (f true) := by
  rw [raisesTypeError_bind, ← inSet_eq_true]
  rcases inSet_raises j texts with ⟨hj, m, hm⟩ | ⟨hj, b, hb⟩
  · simp only [hj, true_or, iff_true]
    exact .inl ⟨m, hm⟩
  · simp only [hj, Bool.false_eq_true, false_or, hb, RaisesTypeError, reduceCtorEq, exists_false,
      Except.ok.injEq, exists_eq_left']
    cases b with
    | true => simp only [true_and]
    | false =>
      simp only [Bool.false_eq_true, false_and, iff_false]
      exact failsClosed_iff.mp hf

theorem not_raisesTypeError {x : Except WireError α} (h : FailsClosed x) : ¬ RaisesTypeError x :=
  failsClosed_iff.mp h

theorem checkRoles_raises [LinearOrder σ] (v : Members σ) : RaisesTypeError (checkRoles v) ↔
    isUnhashable (valueAt v "sender_role") = true ∨
      Listed (valueAt v "sender_role") roleTexts ∧
        isUnhashable (valueAt v "receiver_role") = true := by
  unfold checkRoles
  rw [raisesTypeError_inSet (.error _)]
  apply or_congr_right
  apply and_congr_right
  intro _
  have hreceiver : RaisesTypeError (do
      let receiver ← inSet (valueAt v "receiver_role") roleTexts
      raiseIf (receiver = false) (invalid "unsupported sender/receiver role")) ↔
        isUnhashable (valueAt v "receiver_role") = true := by
    rw [raisesTypeError_inSet (.raiseIf _ _)]
    simp only [not_raisesTypeError (.ok _), raiseIf, Bool.true_eq_false, ↓reduceIte, and_false,
      or_false]
  exact hreceiver

/-- The envelope check lets another exception escape exactly on such a field. -/
theorem validateEnvelope_raises [LinearOrder σ] (v : Members σ) :
    RaisesTypeError (validateEnvelope (.obj v)) ↔ UnhashableField v := by
  have hrest : FailsClosed (do
      raiseIf (isObject (valueAt v "payload") = false) (invalid "payload must be a JSON object")
      raiseIf (isTimestamp (valueAt v "send_monotonic_ns") = false)
        (invalid "send_monotonic_ns must be a non-negative integer")
      let _ ← canonicalJsonBytes (.obj v)
      return v) := by
    apply FailsClosed.bind (.raiseIf _ _)
    intro _ _
    apply FailsClosed.bind (.raiseIf _ _)
    intro _ _
    exact .bind (canonicalJsonBytes_closed _) fun _ _ => .ok _
  have hroles : RaisesTypeError (do
      checkRoles v
      raiseIf (isObject (valueAt v "payload") = false) (invalid "payload must be a JSON object")
      raiseIf (isTimestamp (valueAt v "send_monotonic_ns") = false)
        (invalid "send_monotonic_ns must be a non-negative integer")
      let _ ← canonicalJsonBytes (.obj v)
      return v) ↔ RaisesTypeError (checkRoles v) := by
    rw [raisesTypeError_bind]
    simp only [not_raisesTypeError hrest, and_false, exists_false, or_false]
  unfold validateEnvelope UnhashableField
  rw [raisesTypeError_closed (checkHeader_closed v), ← checkRoles_raises]
  apply and_congr_right
  intro _
  rw [raisesTypeError_inSet]
  · apply or_congr_right
    apply and_congr_right
    intro _
    exact hroles
  · exact .error _

end Fields

section Sorting
variable [LinearOrder σ] {v : Members σ}

/-- The envelope with the members of every object in order. -/
def inOrder (v : Members σ) : Members σ := byKey (sortedMembers v)

theorem inOrder_obj (v : Members σ) : (Json.obj v).sorted = .obj (inOrder v) := rfl

theorem textOf_sorted (j : Json σ) : textOf j.sorted = textOf j := by
  cases j <;> rfl

theorem isUnhashable_sorted (j : Json σ) : isUnhashable j.sorted = isUnhashable j := by
  cases j <;> rfl

theorem isObject_sorted (j : Json σ) : isObject j.sorted = isObject j := by
  cases j <;> rfl

theorem isTimestamp_sorted (j : Json σ) : isTimestamp j.sorted = isTimestamp j := by
  cases j <;> rfl

variable [DecidableEq σ] [JsonString σ]

omit [LinearOrder σ] [JsonString σ] in
theorem keys_nodup (hd : (Json.obj v).distinct = true) : (v.map Prod.fst).Nodup := by
  rw [Json.distinct, Bool.and_eq_true, decide_eq_true_eq] at hd
  exact hd.1

theorem valueAt_inOrder (hd : (Json.obj v).distinct = true) (key : String) :
    valueAt (inOrder v) key = (valueAt v key).sorted := by
  rw [valueAt, inOrder, find_sorted (keys_nodup hd), valueAt]
  cases Dict.find v (ofString key) with
  | none => rfl
  | some j => rfl

omit [DecidableEq σ] in
theorem listed_sorted (j : Json σ) (texts : List String) :
    Listed j.sorted texts ↔ Listed j texts := by
  simp only [Listed, textOf_sorted]

theorem checkFields_inOrder : checkFields (inOrder v) = .ok () ↔ checkFields v = .ok () := by
  have hkeys (key : σ) : key ∈ (inOrder v).map Prod.fst ↔ key ∈ v.map Prod.fst :=
    (keys_sorted v).mem_iff
  simp only [checkFields, raiseIf_eq_ok, not_or, not_not, List.filter_eq_nil_iff, decide_eq_true_eq,
    hkeys]

theorem checkHeader_inOrder (hd : (Json.obj v).distinct = true) :
    checkHeader (inOrder v) = .ok () ↔ checkHeader v = .ok () := by
  have htext (field : String) : checkText (inOrder v) field = checkText v field := by
    have hvalue : isNonEmptyText (valueAt (inOrder v) field) = isNonEmptyText (valueAt v field) := by
      rw [valueAt_inOrder hd, isNonEmptyText, isNonEmptyText, textOf_sorted]
    rw [checkText, checkText, hvalue]
  have htexts : checkText (inOrder v) = checkText v := funext htext
  simp only [checkHeader, Except.then_eq_ok, checkFields_inOrder, valueAt_inOrder hd, textOf_sorted,
    htexts]

theorem unhashableField_inOrder (hd : (Json.obj v).distinct = true) :
    UnhashableField (inOrder v) ↔ UnhashableField v := by
  simp only [UnhashableField, checkHeader_inOrder hd, valueAt_inOrder hd, isUnhashable_sorted,
    listed_sorted]

/-- What the envelope check asks of a message. -/
structure ValidEnvelope (v : Members σ) : Prop where
  header : checkHeader v = .ok ()
  kind : Listed (valueAt v "message_kind") kindTexts
  sender : Listed (valueAt v "sender_role") roleTexts
  receiver : Listed (valueAt v "receiver_role") roleTexts
  payload : isObject (valueAt v "payload") = true
  timestamp : isTimestamp (valueAt v "send_monotonic_ns") = true
  finite : (Json.obj v).finite = true

omit [LinearOrder σ] in
theorem inSet_known {j : Json σ} {f : Bool → Except WireError β} (e : WireError) :
    (inSet j texts >>= fun known => raiseIf (known = false) e >>= fun _ => f known) = .ok b ↔
      Listed j texts ∧ f true = .ok b := by
  rw [Except.bind_eq_ok, ← inSet_eq_true]
  constructor
  · rintro ⟨known, hknown, h⟩
    rw [Except.then_eq_ok, raiseIf_eq_ok, Bool.not_eq_false] at h
    obtain ⟨rfl, h⟩ := h
    exact ⟨hknown, h⟩
  · rintro ⟨hknown, h⟩
    exact ⟨true, hknown, h⟩

theorem checkRoles_eq_ok : checkRoles v = .ok () ↔
    Listed (valueAt v "sender_role") roleTexts ∧ Listed (valueAt v "receiver_role") roleTexts := by
  unfold checkRoles
  rw [inSet_known]
  apply and_congr_right
  intro _
  rw [Except.bind_eq_ok, ← inSet_eq_true]
  simp only [raiseIf_eq_ok, Bool.not_eq_false, exists_eq_right]

theorem validateEnvelope_eq_ok :
    validateEnvelope (.obj v) = .ok w ↔ ValidEnvelope v ∧ v = w := by
  unfold validateEnvelope
  rw [Except.then_eq_ok, inSet_known, Except.then_eq_ok, checkRoles_eq_ok, Except.then_eq_ok,
    raiseIf_eq_ok, Except.then_eq_ok, raiseIf_eq_ok, Except.bind_eq_ok]
  simp only [Bool.not_eq_false, Except.pure_eq_ok]
  constructor
  · rintro ⟨hheader, hkind, ⟨hsender, hreceiver⟩, hpayload, htimestamp, bytes, hbytes, h⟩
    have hfinite := (canonicalJsonBytes_eq_ok.mp hbytes).1
    exact ⟨⟨hheader, hkind, hsender, hreceiver, hpayload, htimestamp, hfinite⟩, h⟩
  · rintro ⟨h, hvw⟩
    have hbytes := canonicalJsonBytes_eq_ok.mpr ⟨h.finite, rfl⟩
    exact ⟨h.header, h.kind, ⟨h.sender, h.receiver⟩, h.payload, h.timestamp, _, hbytes, hvw⟩

theorem ValidEnvelope.inOrder (hd : (Json.obj v).distinct = true) (h : ValidEnvelope v) :
    ValidEnvelope (inOrder v) where
  header := (checkHeader_inOrder hd).mpr h.header
  kind := by
    rw [valueAt_inOrder hd, listed_sorted]
    exact h.kind
  sender := by
    rw [valueAt_inOrder hd, listed_sorted]
    exact h.sender
  receiver := by
    rw [valueAt_inOrder hd, listed_sorted]
    exact h.receiver
  payload := by
    rw [valueAt_inOrder hd, isObject_sorted]
    exact h.payload
  timestamp := by
    rw [valueAt_inOrder hd, isTimestamp_sorted]
    exact h.timestamp
  finite := (Json.Writable.sorted ⟨h.finite, hd⟩).finite

end Sorting

section Frames
variable [DecidableEq σ] [LinearOrder σ] [JsonString σ] {v : Members σ} {b : ByteArray}

/-- The bytes are the frame of the message, whether or not the message is valid. -/
def FrameOf (v : Members σ) (b : ByteArray) : Prop :=
  ∃ payload, canonicalJsonBytes (.obj v) = .ok payload ∧ Framed payload.size ∧
    b = packU32 payload.size ++ payload

theorem frame_parts (payload : ByteArray) :
    (packU32 payload.size ++ payload).size = headerBytes + payload.size ∧
      (packU32 payload.size ++ payload).extract 0 headerBytes = packU32 payload.size ∧
      (packU32 payload.size ++ payload).extract headerBytes
        (packU32 payload.size ++ payload).size = payload := by
  have hheader : (packU32 payload.size).size = headerBytes := packU32_size _
  refine ⟨?_, ?_, ?_⟩
  · rw [ByteArray.size_append, hheader]
  · exact ByteArray.extract_append_eq_left hheader.symm
  · exact ByteArray.extract_append_eq_right hheader.symm ByteArray.size_append

theorem decodeFrameBytes_frame (hp : (Json.obj v).Proper) (h : FrameOf v b) :
    decodeFrameBytes b = validateEnvelope (.obj (inOrder v)) := by
  obtain ⟨payload, hpayload, hframed, rfl⟩ := h
  obtain ⟨hsize, hheader, hrest⟩ := frame_parts payload
  have hlt : payload.size < 2 ^ 32 := lt_of_le_of_lt hframed.2 (by decide)
  have hlong : ¬ headerBytes + payload.size < headerBytes := Nat.not_lt.mpr (Nat.le_add_right _ _)
  have hdecode := decodeCanonicalJson_bytes hp hpayload (Nat.pos_iff_ne_zero.mp hframed.1)
  rw [decodeFrameBytes, hrest, hheader, hsize, unpackU32_packU32 hlt]
  simp only [raiseIf, hlong, ↓reduceIte, hframed, not_true_eq_false, ne_eq, hdecode, Except.ok_bind,
    inOrder_obj]

/-- Either the transport fails before the message is checked, or the bytes are a frame. -/
theorem decodeFrameBytes_cases (b : ByteArray) :
    (∃ t, (decodeFrameBytes b : Except WireError (Members σ)) = .error (.transport t)) ∨
      ∃ v : Members σ, (Json.obj v).Proper ∧ inOrder v = v ∧ FrameOf v b ∧
        decodeFrameBytes b = validateEnvelope (.obj v) := by
  by_cases hshort : b.size < headerBytes
  · left
    rw [decodeFrameBytes, raiseIf, if_pos hshort]
    exact ⟨_, rfl⟩
  by_cases hframed : Framed (unpackU32 (b.extract 0 headerBytes))
  case neg =>
    left
    rw [decodeFrameBytes, raiseIf, if_neg hshort]
    simp only [raiseIf, hframed, not_false_eq_true, ↓reduceIte, Except.ok_bind, Except.error_bind,
      Except.error.injEq, WireError.transport.injEq, exists_eq']
  by_cases hsize : b.size = headerBytes + unpackU32 (b.extract 0 headerBytes)
  case neg =>
    left
    rw [decodeFrameBytes, raiseIf, if_neg hshort]
    simp only [raiseIf, hframed, hsize, not_false_eq_true, not_true_eq_false, ne_eq, ↓reduceIte,
      Except.ok_bind, Except.error_bind, Except.error.injEq, WireError.transport.injEq, exists_eq']
  have hresult : (decodeFrameBytes b : Except WireError (Members σ)) =
      decodeCanonicalJson (b.extract headerBytes b.size) >>= validateEnvelope := by
    rw [decodeFrameBytes, raiseIf, if_neg hshort]
    simp only [raiseIf, hframed, ← hsize, not_true_eq_false, ne_eq, ↓reduceIte, Except.ok_bind]
  cases hdecode : (decodeCanonicalJson (b.extract headerBytes b.size) : Except WireError (Json σ)) with
  | error e =>
    obtain ⟨t, rfl⟩ := decodeCanonicalJson_closed _ _ hdecode
    left
    rw [hresult, hdecode]
    exact ⟨t, rfl⟩
  | ok j =>
    rw [hdecode, Except.ok_bind] at hresult
    obtain ⟨hp, hsorted, hbytes⟩ := decodeCanonicalJson_eq_ok hdecode
    cases j with
    | obj v =>
      right
      refine ⟨v, hp, Json.obj.inj hsorted, ?_, hresult⟩
      have hheader : (b.extract 0 headerBytes).size = 4 := by
        rw [ByteArray.size_extract]
        simp only [headerBytes] at hshort ⊢
        omega
      have hrest : (b.extract headerBytes b.size).size = unpackU32 (b.extract 0 headerBytes) := by
        rw [ByteArray.size_extract]
        omega
      refine ⟨_, hbytes, hrest ▸ hframed, ?_⟩
      rw [hrest, packU32_unpackU32 hheader, ByteArray.extract_append_extract]
      simp only [Nat.min_eq_left (Nat.zero_le _), Nat.max_eq_right (Nat.not_lt.mp hshort),
        ByteArray.extract_zero_size]
    | null | bool _ | num _ | str _ | arr _ => exact .inl ⟨_, hresult⟩

theorem encodeFrame_eq_ok : encodeFrame v = .ok b ↔ ValidEnvelope v ∧ FrameOf v b := by
  simp only [encodeFrame, Except.bind_eq_ok, validateEnvelope_eq_ok, raiseIf_eq_ok, not_not,
    Except.pure_eq_ok]
  constructor
  · rintro ⟨w, ⟨hv, rfl⟩, payload, hpayload, _, hframed, hb⟩
    exact ⟨hv, payload, hpayload, hframed, hb.symm⟩
  · rintro ⟨hv, payload, hpayload, hframed, hb⟩
    exact ⟨v, ⟨hv, rfl⟩, payload, hpayload, ⟨⟩, hframed, hb.symm⟩

theorem FrameOf.unique (h : FrameOf v b) (h' : FrameOf v' b')
    (hsorted : (Json.obj v).sorted = (Json.obj v').sorted) : b = b' := by
  obtain ⟨payload, hpayload, _, rfl⟩ := h
  obtain ⟨payload', hpayload', _, rfl⟩ := h'
  have htext := (canonicalJsonBytes_eq_ok.mp hpayload).2
  have htext' := (canonicalJsonBytes_eq_ok.mp hpayload').2
  rw [hsorted] at htext
  rw [← htext, ← htext']

theorem decodeFrameBytes_eq_ok (h : decodeFrameBytes b = .ok v) : FrameOf v b := by
  rcases decodeFrameBytes_cases (σ := σ) b with ⟨t, ht⟩ | ⟨w, _, _, hframe, hresult⟩
  · rw [ht] at h
    cases h
  · rw [hresult] at h
    obtain ⟨_, rfl⟩ := validateEnvelope_eq_ok.mp h
    exact hframe

end Frames

section Codec
variable {v : Members Points} {b : ByteArray}

/-- What a decoder promises for one byte string. -/
def DecodesOrRejects (b : ByteArray) : Prop :=
  (∃ v : Members Points, decodeFrameBytes b = .ok v ∧ validateEnvelope (.obj v) = .ok v ∧
    encodeFrame v = .ok b) ∨
    ∃ t, (decodeFrameBytes b : Except WireError (Members Points)) = .error (.transport t)

/-- The bytes are the frame of a message with a list or an object in the place of a text that is
looked up in a set. -/
def FramesUnhashable (b : ByteArray) : Prop :=
  ∃ v : Members Points, (Json.obj v).Proper ∧ FrameOf v b ∧ UnhashableField v

theorem decodesOrRejects_iff (b : ByteArray) : DecodesOrRejects b ↔ ¬ FramesUnhashable b := by
  constructor
  · rintro h ⟨v, hp, hframe, hfield⟩
    have hraises := (validateEnvelope_raises _).mpr ((unhashableField_inOrder hp.distinct).mpr hfield)
    rw [← decodeFrameBytes_frame hp hframe] at hraises
    obtain ⟨m, hm⟩ := hraises
    rcases h with ⟨w, hw, _⟩ | ⟨t, ht⟩
    · rw [hm] at hw
      cases hw
    · rw [hm] at ht
      cases ht
  · intro h
    rcases decodeFrameBytes_cases (σ := Points) b with ⟨t, ht⟩ | ⟨v, hp, _, hframe, hresult⟩
    · exact .inr ⟨t, ht⟩
    · have hclosed : FailsClosed (validateEnvelope (.obj v)) :=
        failsClosed_iff.mpr fun hr => h ⟨v, hp, hframe, (validateEnvelope_raises v).mp hr⟩
      cases hvalid : validateEnvelope (.obj v) with
      | error e =>
        obtain ⟨t, rfl⟩ := hclosed e hvalid
        exact .inr ⟨t, hresult.trans hvalid⟩
      | ok w =>
        obtain ⟨hv, rfl⟩ := validateEnvelope_eq_ok.mp hvalid
        exact .inl ⟨v, hresult.trans hvalid, hvalid, encodeFrame_eq_ok.mpr ⟨hv, hframe⟩⟩

/-- The codec on a byte string: when it is decoded or refused by the transport, that every frame of
the same message is the same, and when decoding undoes the encoding that gave it. -/
structure FrameCodec (b : ByteArray) : Prop where
  decodes : DecodesOrRejects b ↔ ¬ FramesUnhashable b
  unique : ∀ b' (v v' : Members Points), decodeFrameBytes b = .ok v → decodeFrameBytes b' = .ok v' →
    (Json.obj v).sorted = (Json.obj v').sorted → b = b'
  roundTrip : ∀ v : Members Points, (Json.obj v).distinct = true → encodeFrame v = .ok b →
    ((∃ w : Members Points, decodeFrameBytes b = .ok w ∧ (Json.obj w).sorted = (Json.obj v).sorted) ↔
      (Json.obj v).Joined)

theorem decodeFrameBytes_joined (h : decodeFrameBytes b = .ok v) : (Json.obj v).Joined := by
  rcases decodeFrameBytes_cases (σ := Points) b with ⟨t, ht⟩ | ⟨w, hp, _, _, hresult⟩
  · rw [ht] at h
    cases h
  · rw [hresult] at h
    obtain ⟨_, rfl⟩ := validateEnvelope_eq_ok.mp h
    exact hp.joined

/-- The codec rejects within the transport exactly what does not hide a list or an object where a
text is looked up, and gives back the messages whose surrogates are joined. -/
theorem frameCodec_exact (b : ByteArray) : FrameCodec b where
  decodes := decodesOrRejects_iff b
  unique _ _ _ h h' hsorted := (decodeFrameBytes_eq_ok h).unique (decodeFrameBytes_eq_ok h') hsorted
  roundTrip v hd h := by
    obtain ⟨hv, hframe⟩ := encodeFrame_eq_ok.mp h
    constructor
    · intro h
      obtain ⟨w, hw, hsorted⟩ := h
      have hjoined := Json.All.of_sorted.mpr (decodeFrameBytes_joined hw)
      exact Json.All.of_sorted.mp (hsorted ▸ hjoined)
    · intro hjoined
      refine ⟨inOrder v, ?_, Json.sorted_sorted (.obj v)⟩
      rw [decodeFrameBytes_frame ⟨hd, hjoined⟩ hframe, validateEnvelope_eq_ok]
      exact ⟨hv.inOrder hd, rfl⟩

/-- The text of a literal in a message. -/
def literalText (s : String) : Json Points := .str (ofString s)

/-- A registration whose kind is an empty list. -/
def listKindEnvelope : Members Points :=
  [(ofString "message_id", literalText "worker:7:1"), (ofString "message_kind", .arr []),
    (ofString "payload", .obj []),
    (ofString "payload_schema", literalText "cadi.c8.2.worker-register.v1"),
    (ofString "receiver_role", literalText "CONTROL_PLANE_AUTHORITY"),
    (ofString "schema", literalText messageSchema), (ofString "send_monotonic_ns", .num (.int 0)),
    (ofString "sender_role", literalText "WORKER"), (ofString "subject_id", literalText "w"),
    (ofString "subject_type", literalText "PROCESS")]

/-- The frame of such a registration makes the decoder raise a `TypeError`. -/
theorem listKind_escapes : ∃ b, FrameOf listKindEnvelope b ∧
    (∃ m, (decodeFrameBytes b : Except WireError (Members Points)) = .error (.typeError m)) ∧
    ¬ DecodesOrRejects b := by
  have hframe : FrameOf listKindEnvelope (packU32 _ ++ _) :=
    ⟨_, canonicalJsonBytes_eq_ok.mpr ⟨by decide +kernel, rfl⟩, by decide +kernel, rfl⟩
  have hp : (Json.obj listKindEnvelope).Proper :=
    ⟨by decide +kernel,
      (by decide +kernel : ∀ s ∈ (Json.obj listKindEnvelope).strings, Joined (codePoints s))⟩
  have hfield : UnhashableField listKindEnvelope := ⟨by decide +kernel, .inl rfl⟩
  refine ⟨_, hframe, ?_, fun h => (decodesOrRejects_iff _).mp h ⟨_, hp, hframe, hfield⟩⟩
  rw [decodeFrameBytes_frame hp hframe]
  exact (validateEnvelope_raises _).mpr ((unhashableField_inOrder hp.distinct).mpr hfield)

end Codec

end Cadi
