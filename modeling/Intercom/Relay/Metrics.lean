/-!
This module contains what the relay counts.
-/

namespace Intercom

structure Metrics where
  active : Int := 0
  received : Nat := 0
  /-- Packets passed on, once for each receiver. -/
  forwarded : Nat := 0
  bindings : Nat := 0
  stunFailures : Nat := 0
  srtpFailures : Nat := 0
  handshakesSucceeded : Nat := 0
  handshakesFailed : Nat := 0
deriving DecidableEq

end Intercom
