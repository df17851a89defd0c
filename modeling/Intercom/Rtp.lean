import Intercom.Bytes

/-!
This module contains RTP packets. Lists of contributing sources and header extensions are skipped when
reading and never written.
-/

namespace Intercom.Rtp

structure Packet where
  padding : Bool
  /-- The header bit alone. -/
  extended : Bool
  marker : Bool
  payloadType : UInt8
  sequenceNumber : UInt16
  timestamp : UInt32
  source : UInt32
  payload : Bytes
deriving DecidableEq

def headerLength : Nat := 12

namespace Packet

def header (p : Packet) : Bytes :=
  (0x80 ||| (if p.padding then 0x20 else 0) ||| (if p.extended then 0x10 else 0)) ::
    ((if p.marker then 0x80 else 0) ||| (p.payloadType &&& 0x7F)) ::
    (Bytes.ofNat 2 p.sequenceNumber.toNat ++ Bytes.ofNat 4 p.timestamp.toNat ++
      Bytes.ofNat 4 p.source.toNat)

def encode (p : Packet) : Bytes :=
  p.header ++ p.payload

def size (p : Packet) : Nat :=
  headerLength + p.payload.length

@[simp]
theorem length_header (p : Packet) : p.header.length = headerLength := by
  simp [header, headerLength]

@[simp]
theorem length_encode (p : Packet) : p.encode.length = p.size := by
  simp [encode, size]

end Packet

/-- What follows a header extension: two octets of any kind, a count of words, and the words. -/
def dropExtension? (bs : Bytes) : Option Bytes := do
  let (_, bs) ← Bytes.cut? 2 bs
  let (count, bs) ← Bytes.cut? 2 bs
  let (_, bs) ← Bytes.cut? (4 * Bytes.toNat count) bs
  return bs

def decode? (bs : Bytes) : Option Packet :=
  match bs with
  | flags :: kind :: bs => do
    guard (flags &&& 0xC0 = 0x80)
    let (sequenceNumber, bs) ← Bytes.cut? 2 bs
    let (timestamp, bs) ← Bytes.cut? 4 bs
    let (source, bs) ← Bytes.cut? 4 bs
    let (_, bs) ← Bytes.cut? (4 * (flags &&& 0x0F).toNat) bs
    let extended := flags &&& 0x10 ≠ 0
    let payload ← if extended then dropExtension? bs else some bs
    return {
      padding := flags &&& 0x20 ≠ 0
      extended
      marker := kind &&& 0x80 ≠ 0
      payloadType := kind &&& 0x7F
      sequenceNumber := UInt16.ofNat (Bytes.toNat sequenceNumber)
      timestamp := UInt32.ofNat (Bytes.toNat timestamp)
      source := UInt32.ofNat (Bytes.toNat source)
      payload }
  | _ => none

def decodeAt? (bs : Bytes) (offset : Nat) : Option Packet :=
  if offset ≤ bs.length then decode? (bs.drop offset) else none

end Intercom.Rtp
