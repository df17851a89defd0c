import Intercom.Bytes.Hex

/-!
This module contains session ids. The id of a session is also the source under which its packets reach
the others.
-/

namespace Intercom

structure SessionId where
  value : UInt32
deriving DecidableEq

namespace SessionId

def base : SessionId := ⟨0x10000001⟩

def next? (id : SessionId) : Option SessionId :=
  if id.value < 0xFFFFFFFF then some ⟨id.value + 1⟩ else none

def text (id : SessionId) : String :=
  "session:" ++ Hex.ofNat 8 id.value.toNat

end SessionId

structure SessionInfo where
  id : SessionId
  name : String
deriving DecidableEq

end Intercom
