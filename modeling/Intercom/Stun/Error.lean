import Intercom.Bytes.Hex

/-!
This module contains what can be wrong with a STUN message.
-/

namespace Intercom.Stun

inductive Error where
  /-- Too short, not of this protocol, longer than the datagram, or with a wrong fingerprint. -/
  | notStun
  | unknownAttribute (type : UInt16)
  /-- An attribute that is cut off or has a wrong shape; type 0 if not even its head is there. -/
  | malformedAttribute (type : UInt16)
deriving DecidableEq

def Error.message : Error → String
  | notStun => "Kein STUN-Paket"
  | unknownAttribute type => "Unbekanntes STUN-Attribut: 0x" ++ Hex.ofNat 4 type.toNat
  | malformedAttribute type => "Fehlerhaftes STUN-Attribut: 0x" ++ Hex.ofNat 4 type.toNat

end Intercom.Stun
