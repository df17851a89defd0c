import Mathlib
import Intercom.Proofs.Rtp.Canonical
import Intercom.Proofs.Rtp.Grammar

/-!
This module contains the writing of a packet into a buffer that is in use, field by field, and the main statement about
writing and reading: each undoes the other, at any place of a buffer.
-/

namespace Intercom

abbrev Writer := StateM Bytes

namespace Writer

def put (octets : Bytes) : Writer Unit :=
  modify fun buffer => buffer ++ octets

def put8 (octet : UInt8) : Writer Unit :=
  put [octet]

def put16 (word : UInt16) : Writer Unit :=
  put (Bytes.ofNat 2 word.toNat)

def put32 (word : UInt32) : Writer Unit :=
  put (Bytes.ofNat 4 word.toNat)

def writtenTo (writer : Writer Unit) (buffer : Bytes) : Bytes :=
  (writer.run buffer).run.2

theorem writtenTo_put_bind (octets buffer : Bytes) (next : Unit → Writer Unit)
    : (put octets >>= next).writtenTo buffer = (next ()).writtenTo (buffer ++ octets) := by
  rfl

theorem writtenTo_put (octets buffer : Bytes) : (put octets).writtenTo buffer = buffer ++ octets := by
  rfl

end Writer

namespace Rtp

def Packet.write (p : Packet) : Writer Unit := do
  let mut flags := 0x80
  if p.padding then
    flags := flags ||| 0x20
  if p.extended then
    flags := flags ||| 0x10
  let mut kind := p.payloadType &&& 0x7F
  if p.marker then
    kind := kind ||| 0x80
  Writer.put8 flags
  Writer.put8 kind
  Writer.put16 p.sequenceNumber
  Writer.put32 p.timestamp
  Writer.put32 p.source
  Writer.put p.payload

theorem Packet.write_eq (p : Packet)
    : p.write = (do
        Writer.put8 p.flags
        Writer.put8 p.kind
        Writer.put16 p.sequenceNumber
        Writer.put32 p.timestamp
        Writer.put32 p.source
        Writer.put p.payload) := by
  unfold write flags kind
  rw [UInt8.or_comm _ (p.payloadType &&& 0x7F)]
  cases p.padding <;> cases p.extended <;> cases p.marker <;> simp

theorem Packet.writtenTo_write (p : Packet) (buffer : Bytes) : p.write.writtenTo buffer = buffer ++ p.encode := by
  rw [write_eq]
  unfold Writer.put8 Writer.put16 Writer.put32
  simp only [Writer.writtenTo_put_bind, Writer.writtenTo_put]
  unfold encode
  rw [header_eq]
  simp only [List.append_assoc, List.cons_append, List.nil_append]

theorem reads_what_it_writes
    : (∀ (front : Bytes) (p : Packet), p.extended = false → p.payloadType < 128 →
        decodeAt? (p.write.writtenTo front) front.length = some p) ∧
      (∀ (front : Bytes) (p : Packet), ∃ octets,
        p.write.writtenTo front = front ++ octets ∧ octets.length = p.size ∧ octets = p.encode) ∧
      (∀ (bs : Bytes) (p : Packet), Plain bs → decode? bs = some p → p.write.writtenTo [] = bs) := by
  refine ⟨?_, ?_, ?_⟩
  . intro front p hextended htype
    rw [p.writtenTo_write, decodeAt?_append]
    apply decode?_header_append hextended htype
  . intro front p
    exact ⟨p.encode, p.writtenTo_write front, p.length_encode, rfl⟩
  . intro bs p hplain hdecoded
    rw [p.writtenTo_write, List.nil_append]
    exact ((decode?_eq_some_iff hplain).1 hdecoded).2.2

def sampleMarked : Packet where
  padding := true
  extended := false
  marker := true
  payloadType := 127
  sequenceNumber := 0xFFFE
  timestamp := 960
  source := 0xDEADBEEF
  payload := [0xFF, 0]

theorem reads_what_it_writes_sampleMarked
    : decodeAt? (sampleMarked.write.writtenTo [0x80, 1, 2]) 3 = some sampleMarked ∧
      sampleMarked.write.writtenTo [] = [0xA0, 0xFF, 0xFF, 0xFE, 0, 0, 3, 0xC0, 0xDE, 0xAD, 0xBE, 0xEF, 0xFF, 0] := by
  constructor
  . exact reads_what_it_writes.1 [0x80, 1, 2] sampleMarked rfl (by decide)
  . exact reads_what_it_writes.2.2 _ sampleMarked ⟨by decide, by decide⟩ (by decide)

end Rtp

end Intercom
