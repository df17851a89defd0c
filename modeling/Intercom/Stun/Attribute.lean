import Intercom.Net.Endpoint
import Intercom.Stun.Error

/-!
This module contains the attributes of STUN messages as they stand on the wire: type, length, value and
padding to a multiple of four octets, and the shapes that values have.
-/

namespace Intercom.Stun

inductive Role where
  | mappedAddress
  | username
  | integrity
  | xorMappedAddress
  | priority
  | useCandidate
  | fingerprint
  | iceControlled
  | iceControlling
  | responseOrigin
  /-- Known and without meaning here, or optional. -/
  | ignored
  /-- Not known, and not to be ignored. -/
  | unknown
deriving DecidableEq

namespace Role

def type : Role → UInt16
  | mappedAddress => 0x0001
  | username => 0x0006
  | integrity => 0x0008
  | xorMappedAddress => 0x0020
  | priority => 0x0024
  | useCandidate => 0x0025
  | fingerprint => 0x8028
  | iceControlled => 0x8029
  | iceControlling => 0x802A
  | responseOrigin => 0x802B
  | ignored => 0x8022
  | unknown => 0x0000

/-- The types below `0x8000` that are known and ignored: the older address and error attributes. -/
def ignoredTypes : List UInt16 :=
  [0x0002, 0x0003, 0x0004, 0x0005, 0x0007, 0x0009, 0x000A, 0x000B, 0x0014, 0x0015]

def ofType (type : UInt16) : Role :=
  match type with
  | 0x0001 => mappedAddress
  | 0x0006 => username
  | 0x0008 => integrity
  | 0x0020 => xorMappedAddress
  | 0x0024 => priority
  | 0x0025 => useCandidate
  | 0x8028 => fingerprint
  | 0x8029 => iceControlled
  | 0x802A => iceControlling
  | 0x802B => responseOrigin
  | _ => if type < 0x8000 ∧ type ∉ ignoredTypes then unknown else ignored

end Role

structure Attribute where
  type : UInt16
  value : Bytes
  padding : Bytes
deriving DecidableEq

namespace Attribute

def paddingLength (length : Nat) : Nat :=
  (4 - length % 4) % 4

def ofValue (role : Role) (value : Bytes) : Attribute :=
  ⟨role.type, value, List.replicate (paddingLength value.length) 0⟩

/-- The length field holds the lowest 16 bits of the length. -/
def bytes (a : Attribute) : Bytes :=
  Bytes.ofNat 2 a.type.toNat ++ Bytes.ofNat 2 a.value.length ++ a.value ++ a.padding

def read (bs : Bytes) : Except Error (Attribute × Bytes) :=
  match Bytes.cut? 4 bs with
  | none => .error (.malformedAttribute 0)
  | some (head, rest) =>
    let type := UInt16.ofNat (Bytes.toNat (head.take 2))
    let length := Bytes.toNat (head.drop 2)
    match Bytes.cut? length rest with
    | none => .error (.malformedAttribute type)
    | some (value, rest) =>
      match Bytes.cut? (paddingLength length) rest with
      | none => .error (.malformedAttribute type)
      | some (padding, rest) => .ok (⟨type, value, padding⟩, rest)

theorem length_lt_of_read {bs rest : Bytes} {a : Attribute} (h : read bs = .ok (a, rest)) :
    rest.length < bs.length := by
  unfold read at h
  split at h
  · simp at h
  next hhead =>
    obtain ⟨hlen, rfl⟩ := Bytes.cut?_eq_some_iff.1 hhead
    dsimp only at h
    split at h
    · simp at h
    next hvalue =>
      obtain ⟨-, rfl⟩ := Bytes.cut?_eq_some_iff.1 hvalue
      split at h
      · simp at h
      next hpadding =>
        obtain ⟨-, rfl⟩ := Bytes.cut?_eq_some_iff.1 hpadding
        cases h
        simp only [List.length_append, hlen]
        omega

def scan (bs : Bytes) : List Attribute × Option Error :=
  if bs.isEmpty then ([], none)
  else
    match _h : read bs with
    | .error e => ([], some e)
    | .ok (a, rest) =>
      let (as, fault) := scan rest
      (a :: as, fault)
termination_by bs.length
decreasing_by exact length_lt_of_read _h

end Attribute

def number? (width : Nat) (value : Bytes) : Option Nat :=
  (Octets.ofBytes? width value).map fun o => Bytes.toNat o.bytes

def cookie : UInt32 := 0x2112A442

/-- What an address is masked with on its way: nothing, or the cookie and the transaction id. -/
abbrev Mask := Octets 16

namespace Mask

def plain : Mask := ⟨List.replicate 16 0, rfl⟩

def ofTransaction (id : Octets 12) : Mask :=
  ⟨Bytes.ofNat 4 cookie.toNat ++ id.bytes, by simp [id.length_eq]⟩

end Mask

/-- An octet without meaning, the family, the port and the address, the last two masked. Flow and scope
have no place in it. -/
def encodeAddress (mask : Mask) (endpoint : Endpoint) : Bytes :=
  let port := (Octets.ofNat 2 endpoint.port.toNat).masked mask (by decide)
  match endpoint.ip with
  | .v4 octets => 0 :: 1 :: (port.bytes ++ (octets.masked mask (by decide)).bytes)
  | .v6 octets => 0 :: 2 :: (port.bytes ++ (octets.masked mask (by decide)).bytes)

def decodeAddress? (mask : Mask) : Bytes → Option Endpoint
  | _ :: family :: rest => do
    let (front, rest) ← Bytes.cut? 2 rest
    let masked ← Octets.ofBytes? 2 front
    let port := UInt16.ofNat (Bytes.toNat (masked.masked mask (by decide)).bytes)
    if family = 1 then
      let octets ← Octets.ofBytes? 4 rest
      return .of (.v4 (octets.masked mask (by decide))) port
    else if family = 2 then
      let octets ← Octets.ofBytes? 16 rest
      return .of (.v6 (octets.masked mask (by decide))) port
    else none
  | _ => none

end Intercom.Stun
