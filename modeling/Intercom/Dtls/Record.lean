import Intercom.Bytes

/-!
This module contains the test that tells DTLS records from the other datagrams of a shared port.
-/

namespace Intercom.Dtls

/-- Long enough for a record head, with a content type between 20 and 63 and version 1.0 or 1.2. -/
def isRecord (datagram : Bytes) : Bool :=
  match datagram with
  | type :: major :: minor :: _ =>
    13 ≤ datagram.length && 20 ≤ type && type ≤ 63 && major == 0xFE && (minor == 0xFF || minor == 0xFD)
  | _ => false

end Intercom.Dtls
