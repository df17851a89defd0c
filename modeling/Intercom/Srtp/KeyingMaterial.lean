import Intercom.Srtp.SessionKeys

/-!
This module contains the keying material that a handshake exports and its split into the master keys of
both directions.
-/

namespace Intercom.Srtp

structure MasterPair where
  send : Master
  receive : Master
deriving DecidableEq

inductive Side where
  | client
  | server
deriving DecidableEq

def exporterLabel : String := "EXTRACTOR-dtls_srtp"

def materialLength : Nat := 60

/-- The client's key, the server's key, the client's salt, the server's salt. -/
def MasterPair.ofMaterial (m : Octets materialLength) (side : Side) : MasterPair :=
  let client : Master := ⟨m.slice 0 16 (by decide), m.slice 32 14 (by decide)⟩
  let server : Master := ⟨m.slice 16 16 (by decide), m.slice 46 14 (by decide)⟩
  match side with
  | .client => ⟨client, server⟩
  | .server => ⟨server, client⟩

end Intercom.Srtp
