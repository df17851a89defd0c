/-!
This module contains the message types of STUN: a kind and a method of 12 bits, whose bits are
interleaved in one 16-bit number.
-/

namespace Intercom.Stun

inductive Kind where
  | request
  | indication
  | successResponse
  | errorResponse
deriving DecidableEq

namespace Kind

def bits : Kind → UInt16
  | request => 0
  | indication => 1
  | successResponse => 2
  | errorResponse => 3

def ofBits (bits : UInt16) : Kind :=
  if bits &&& 3 = 0 then request
  else if bits &&& 3 = 1 then indication
  else if bits &&& 3 = 2 then successResponse
  else errorResponse

end Kind

structure MessageType where
  bits : UInt16
deriving DecidableEq

namespace MessageType

/-- The kind goes to bits 4 and 8, the method to the other twelve. Higher bits of the method are
dropped. -/
def ofKind (kind : Kind) (method : UInt16) : MessageType :=
  ⟨((kind.bits <<< (7 : UInt16)) &&& 0x0100) ||| ((kind.bits <<< (4 : UInt16)) &&& 0x0010) |||
    ((method <<< (2 : UInt16)) &&& 0x3E00) ||| ((method <<< (1 : UInt16)) &&& 0x00E0) |||
    (method &&& 0x000F)⟩

def kind (t : MessageType) : Kind :=
  .ofBits (((t.bits &&& 0x0100) >>> (7 : UInt16)) ||| ((t.bits &&& 0x0010) >>> (4 : UInt16)))

def method (t : MessageType) : UInt16 :=
  ((t.bits &&& 0x3E00) >>> (2 : UInt16)) ||| ((t.bits &&& 0x00E0) >>> (1 : UInt16)) |||
    (t.bits &&& 0x000F)

def bindingRequest : MessageType := ⟨0x0001⟩

def bindingSuccess : MessageType := ⟨0x0101⟩

end MessageType

end Intercom.Stun
