import Cadi.Prototype.Framing

namespace Cadi
open Library
set_option autoImplicit true

/-- What a call of `recv` finds: bytes that have arrived, or the failure of the call. -/
inductive Arrival where
  | segment (bytes : ByteArray)
  | timeout
  | connectionError

/-- The arrivals that a socket still has; after the last one the peer has closed. -/
abbrev Sock := List Arrival

/-- The failures of a read, besides those of the codec. -/
inductive ReceiveError where
  | codec (e : WireError)
  | frameTimeoutError (message : String)
  | connectionClosedError (message : String)
deriving DecidableEq

abbrev Receiver := EStateM ReceiveError Sock

section Reads

/-- A computation of the codec, run by the receiver. -/
def codec (x : Except WireError α) : Receiver α := liftM (x.mapError ReceiveError.codec)

end Reads

section Stream
variable {sock sock' : Sock} {a b stream : ByteArray}

end Stream

section Envelopes
variable {sock : Sock} {v : Members} {b rest : ByteArray}

end Envelopes

section Delivery
variable {sock : Sock}

end Delivery

end Cadi
