import Cadi.Library.Bytes
import Cadi.Library.JsonProper
import Cadi.Library.JsonSorting
import Mathlib

namespace Cadi
open Library
set_option autoImplicit true

inductive C8WireRole where
  | controlPlaneAuthority | worker | faultTransportHarness
deriving DecidableEq

def C8WireRole.value : C8WireRole → String
  | .controlPlaneAuthority => "CONTROL_PLANE_AUTHORITY"
  | .worker => "WORKER"
  | .faultTransportHarness => "FAULT_TRANSPORT_HARNESS"

def C8WireRole.all : List C8WireRole := [.controlPlaneAuthority, .worker, .faultTransportHarness]

def c8MaxFrameBytes : Nat := 1048576

def c8MessageEnvelopeFields : List String :=
  ["schema", "message_id", "message_kind", "sender_role", "receiver_role", "subject_type",
    "subject_id", "payload_schema", "payload", "send_monotonic_ns"]

def messageSchema : String := "cadi.c8.2.message-envelope.v1"

def headerBytes : Nat := 4

inductive MessageKind where
  | register | registered | work | complete | processFailure | shutdown | shutdownAck
deriving DecidableEq

def MessageKind.value : MessageKind → String
  | .register => "REGISTER"
  | .registered => "REGISTERED"
  | .work => "WORK"
  | .complete => "COMPLETE"
  | .processFailure => "PROCESS_FAILURE"
  | .shutdown => "SHUTDOWN"
  | .shutdownAck => "SHUTDOWN_ACK"

def messageKinds : List MessageKind :=
  [.register, .registered, .work, .complete, .processFailure, .shutdown, .shutdownAck]

/-- The subclasses of `TransportError` that the codec raises. -/
inductive TransportError where
  | frameSizeError (length : Nat)
  | truncatedFrameError (message : String)
  | canonicalEncodingError (message : String)
  | envelopeFieldMismatch (missing extra : List Points)
  | envelopeValidationError (message : String)
deriving DecidableEq

/-- What escapes the codec: a failure of the transport, or an exception that it does not turn into
one. -/
inductive WireError where
  | transport (e : TransportError)
  | typeError (message : String)
deriving DecidableEq

/-- The members of a JSON object. Python's strings are `Points`; those of `String` have no
surrogates. -/
abbrev Members (σ : Type := String) := List (σ × Json σ)

section Values
variable [DecidableEq σ] [JsonString σ]

/-- Subscription by a key that is known to be present. -/
def valueAt (members : Members σ) (key : String) : Json σ :=
  (Dict.find members (ofString key)).getD .null

def textOf : Json σ → Option σ
  | .str s => some s
  | _ => none

def isNonEmptyText (j : Json σ) : Bool := textOf j ≠ none && textOf j ≠ some (ofString "")

def isObject : Json σ → Bool
  | .obj _ => true
  | _ => false

/-- Lists and dictionaries have no hash. -/
def isUnhashable : Json σ → Bool
  | .arr _ | .obj _ => true
  | _ => false

/-- An integer, but no `bool`, that is not negative. -/
def isTimestamp : Json σ → Bool
  | .num (.int z) => 0 ≤ z
  | _ => false

/-- `j in texts` for a set of strings; the lookup hashes the value. -/
def inSet (j : Json σ) (texts : List String) : Except WireError Bool :=
  match j with
  | .arr _ => .error (.typeError "unhashable type: 'list'")
  | .obj _ => .error (.typeError "unhashable type: 'dict'")
  | .str s => .ok (s ∈ texts.map ofString)
  | _ => .ok false

end Values

section Codec
variable [DecidableEq σ] [LinearOrder σ] [JsonString σ]

def invalid (message : String) : WireError := .transport (.envelopeValidationError message)

def canonicalJsonBytes (value : Json σ) : Except WireError ByteArray :=
  if value.finite then .ok (String.ofList value.sorted.asciiText).toUTF8
  else .error
    (.transport (.canonicalEncodingError "Out of range float values are not JSON compliant"))

def decodeCanonicalJson (payload : ByteArray) : Except WireError (Json σ) := do
  raiseIf (payload.size = 0) (WireError.transport (.canonicalEncodingError "empty JSON payload"))
  let value ← match String.fromUTF8? payload with
    | none => .error (.transport (.canonicalEncodingError "invalid canonical JSON payload"))
    | some text => match loadsWith plainHooks text.toList with
      | .error _ => .error (.transport (.canonicalEncodingError "invalid canonical JSON payload"))
      | .ok value => .ok value
  let bytes ← canonicalJsonBytes value
  raiseIf (bytes ≠ payload) (WireError.transport
    (.canonicalEncodingError "payload is valid JSON but not canonical encoding"))
  return value

/-- The keys of the envelope are exactly those of the contract. -/
def checkFields (members : Members σ) : Except WireError Unit := do
  let expected : List σ := c8MessageEnvelopeFields.map ofString
  let actual := members.map Prod.fst
  let missing := expected.filter (· ∉ actual)
  let extra := actual.filter (· ∉ expected)
  raiseIf (missing ≠ [] ∨ extra ≠ []) (WireError.transport (.envelopeFieldMismatch
    ((missing.map codePoints).insertionSort (· ≤ ·)) ((extra.map codePoints).insertionSort (· ≤ ·))))

def checkText (members : Members σ) (field : String) : Except WireError Unit :=
  raiseIf (isNonEmptyText (valueAt members field) = false)
    (invalid s!"{field} must be a non-empty string")

/-- The checks before the first lookup in a set. -/
def checkHeader (members : Members σ) : Except WireError Unit := do
  checkFields members
  raiseIf (textOf (valueAt members "schema") ≠ some (ofString messageSchema))
    (invalid "unsupported message schema")
  ["message_id", "subject_type", "subject_id", "payload_schema"].forM (checkText members)

def kindTexts : List String := messageKinds.map MessageKind.value

def roleTexts : List String := C8WireRole.all.map C8WireRole.value

/-- The receiver is looked up only when the sender is known. -/
def checkRoles (members : Members σ) : Except WireError Unit := do
  let sender ← inSet (valueAt members "sender_role") roleTexts
  raiseIf (sender = false) (invalid "unsupported sender/receiver role")
  let receiver ← inSet (valueAt members "receiver_role") roleTexts
  raiseIf (receiver = false) (invalid "unsupported sender/receiver role")

def validateEnvelope (value : Json σ) : Except WireError (Members σ) :=
  match value with
  | .obj members => do
    checkHeader members
    let known ← inSet (valueAt members "message_kind") kindTexts
    raiseIf (known = false) (invalid "unsupported message kind")
    checkRoles members
    raiseIf (isObject (valueAt members "payload") = false) (invalid "payload must be a JSON object")
    raiseIf (isTimestamp (valueAt members "send_monotonic_ns") = false)
      (invalid "send_monotonic_ns must be a non-negative integer")
    let _ ← canonicalJsonBytes value
    return members
  | _ => .error (invalid "message envelope must be a JSON object")

/-- The length fits the frame. -/
def Framed (length : Nat) : Prop := 0 < length ∧ length ≤ c8MaxFrameBytes

instance (length : Nat) : Decidable (Framed length) := inferInstanceAs (Decidable (_ ∧ _))

def encodeFrame (envelope : Members σ) : Except WireError ByteArray := do
  let validated ← validateEnvelope (.obj envelope)
  let payload ← canonicalJsonBytes (.obj validated)
  raiseIf (¬ Framed payload.size) (WireError.transport (.frameSizeError payload.size))
  return packU32 payload.size ++ payload

def decodeFrameBytes (frame : ByteArray) : Except WireError (Members σ) := do
  raiseIf (frame.size < headerBytes)
    (WireError.transport (.truncatedFrameError "frame is missing the four-byte header"))
  let length := unpackU32 (frame.extract 0 headerBytes)
  raiseIf (¬ Framed length) (WireError.transport (.frameSizeError length))
  raiseIf (frame.size ≠ headerBytes + length) (WireError.transport
    (.truncatedFrameError "frame byte count does not match declared payload length"))
  let value ← decodeCanonicalJson (frame.extract headerBytes frame.size)
  validateEnvelope value

end Codec

end Cadi
