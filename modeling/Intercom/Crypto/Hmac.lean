import Intercom.Crypto.Sha1

/-!
This module contains the keyed hash HMAC over SHA-1.
-/

namespace Intercom.Hmac

/-- The key in one block: hashed if it is longer, filled with zeros if it is shorter. -/
def blockKey (key : Bytes) : Bytes :=
  let key := if key.length ≤ 64 then key else (Sha1.hash key).bytes
  key ++ List.replicate (64 - key.length) 0

def sha1 (key message : Bytes) : Octets 20 :=
  let inner := Sha1.hash ((blockKey key).map (· ^^^ 0x36) ++ message)
  Sha1.hash ((blockKey key).map (· ^^^ 0x5C) ++ inner.bytes)

end Intercom.Hmac
