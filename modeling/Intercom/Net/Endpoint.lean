import Intercom.Bytes

/-!
This module contains network addresses.
-/

namespace Intercom

/-- An address of either family. An IPv4 address written inside IPv6 is an IPv6 address. -/
inductive IpAddress where
  | v4 (octets : Octets 4)
  | v6 (octets : Octets 16)
deriving DecidableEq

namespace IpAddress

def bytes : IpAddress → Bytes
  | .v4 octets => octets.bytes
  | .v6 octets => octets.bytes

def ofBytes? (bs : Bytes) : Option IpAddress :=
  match Octets.ofBytes? 4 bs with
  | some octets => some (.v4 octets)
  | none => (Octets.ofBytes? 16 bs).map .v6

end IpAddress

/-- The address of a socket. Where IPv6 has a flow and a scope, two sockets are the same only if these are. -/
inductive Endpoint where
  | v4 (octets : Octets 4) (port : UInt16)
  | v6 (octets : Octets 16) (port : UInt16) (flow scope : UInt32)
deriving DecidableEq

namespace Endpoint

/-- The endpoint with neither flow nor scope. -/
def of (ip : IpAddress) (port : UInt16) : Endpoint :=
  match ip with
  | .v4 octets => .v4 octets port
  | .v6 octets => .v6 octets port 0 0

def ip : Endpoint → IpAddress
  | .v4 octets _ => .v4 octets
  | .v6 octets _ _ _ => .v6 octets

def port : Endpoint → UInt16
  | .v4 _ port => port
  | .v6 _ port _ _ => port

/-- What is left of an endpoint where only its address and its port are told. -/
def bare (e : Endpoint) : Endpoint :=
  of e.ip e.port

@[simp]
theorem ip_of (a : IpAddress) (p : UInt16) : (of a p).ip = a := by
  cases a with
  | v4 octets => rfl
  | v6 octets => rfl

@[simp]
theorem port_of (a : IpAddress) (p : UInt16) : (of a p).port = p := by
  cases a with
  | v4 octets => rfl
  | v6 octets => rfl

@[simp]
theorem bare_of (a : IpAddress) (p : UInt16) : (of a p).bare = of a p := by
  unfold bare
  rw [ip_of, port_of]

end Endpoint

end Intercom
