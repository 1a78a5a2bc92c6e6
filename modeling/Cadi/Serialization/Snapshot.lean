import Cadi.Serialization.Values

namespace Cadi
open Library
set_option autoImplicit true

/-- The stores under their names, in the order of `_CORE_FIELDS`. -/
def coreFields (c : ContinuityCore) : List (String × Value) :=
  [("programs", value c.programs), ("sessions", value c.sessions),
    ("continuations", value c.continuations), ("requests", value c.requests),
    ("attempts", value c.attempts), ("phases", value c.phases), ("states", value c.states),
    ("replicas", value c.replicas), ("bindings", value c.bindings),
    ("evidence", value c.evidence), ("outputs", value c.outputs), ("events", value c.events),
    ("event_order", value c.eventOrder),
    ("current_binding_by_subject", value c.currentBindingBySubject),
    ("current_epoch_by_subject", value c.currentEpochBySubject),
    ("last_allocated_epoch_by_subject", value c.lastAllocatedEpochBySubject)]

def snapshotSchema : String := "cadi.core.snapshot.v1"

/-- What the snapshot is the text of. -/
def snapshotPayload (c : ContinuityCore) : Json :=
  .obj [("schema", .str snapshotSchema), ("state", .obj (encodeFields (coreFields c)))]

def snapshotCore (c : ContinuityCore) : Except PyError String :=
  canonicalJson (snapshotPayload c)

/-- The digest of the snapshot, in hexadecimal. -/
def snapshotFingerprint (sha256 : String → String) (c : ContinuityCore) : Except PyError String :=
  sha256 <$> snapshotCore c

end Cadi
