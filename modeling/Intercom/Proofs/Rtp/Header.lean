import Mathlib
import Intercom.Proofs.Rtp.RoundTrip

/-!
This module contains headers of packets with all that may stand before the payload: a list of contributing sources
and an extension. What follows such a header is read as the payload, whatever the header contains.
-/

namespace Intercom.Rtp

structure Extension where
  profile : UInt16
  words : List UInt32
  length_words_le : words.length ≤ 65535

structure Header where
  padding : Bool
  marker : Bool
  payloadType : UInt8
  payloadType_lt : payloadType < 128
  sequenceNumber : UInt16
  timestamp : UInt32
  source : UInt32
  /-- The sources that contribute to a packet, as many as a field of four bits can count. -/
  contributors : List UInt32
  length_contributors_le : contributors.length ≤ 15
  extension : Option Extension

def wordBytes (words : List UInt32) : Bytes :=
  words.flatMap fun word => Bytes.ofNat 4 word.toNat

theorem length_wordBytes (words : List UInt32) : (wordBytes words).length = 4 * words.length := by
  unfold wordBytes
  rw [List.length_flatMap]
  simp only [Bytes.length_ofNat, List.map_const', List.sum_replicate, smul_eq_mul]
  omega

def Extension.bytes (e : Extension) : Bytes :=
  Bytes.ofNat 2 e.profile.toNat ++ (Bytes.ofNat 2 e.words.length ++ wordBytes e.words)

theorem Extension.dropExtension?_bytes (e : Extension) (rest : Bytes)
    : dropExtension? (e.bytes ++ rest) = some rest := by
  unfold bytes
  rw [List.append_assoc, List.append_assoc]
  apply dropExtension?_append
  . have := e.length_words_le
    omega
  . apply length_wordBytes

namespace Header

variable {h : Header}

/-- Version 2 in the two highest bits, the bits for padding and an extension, and the count of contributors. -/
def flags (h : Header) : UInt8 :=
  UInt8.ofNat (2 * 64 + h.padding.toNat * 32 + h.extension.isSome.toNat * 16 + h.contributors.length)

/-- The marker in the highest bit, and the payload type. -/
def kind (h : Header) : UInt8 :=
  UInt8.ofNat (h.marker.toNat * 128 + h.payloadType.toNat)

def bytes (h : Header) : Bytes :=
  h.flags :: h.kind ::
    (Bytes.ofNat 2 h.sequenceNumber.toNat ++ (Bytes.ofNat 4 h.timestamp.toNat ++ (Bytes.ofNat 4 h.source.toNat ++
      (wordBytes h.contributors ++ (h.extension.map Extension.bytes).getD []))))

def sampleHeader : Header where
  padding := false
  marker := true
  payloadType := 111
  payloadType_lt := by decide
  sequenceNumber := 1
  timestamp := 960
  source := 2
  contributors := [3]
  length_contributors_le := by decide
  extension := some ⟨0xBEDE, [0x30B50000], by decide⟩

example
    : sampleHeader.bytes =
        [0x91, 0xEF, 0, 1, 0, 0, 3, 0xC0, 0, 0, 0, 2, 0, 0, 0, 3, 0xBE, 0xDE, 0, 1, 0x30, 0xB5, 0, 0] := by
  decide

def packet (h : Header) (payload : Bytes) : Packet where
  padding := h.padding
  extended := h.extension.isSome
  marker := h.marker
  payloadType := h.payloadType
  sequenceNumber := h.sequenceNumber
  timestamp := h.timestamp
  source := h.source
  payload := payload

theorem flags_and (h : Header)
    : h.flags &&& 0xC0 = 0x80 ∧ (h.flags &&& 0x0F).toNat = h.contributors.length ∧
      (h.flags &&& 0x10 ≠ 0 ↔ h.extension.isSome = true) ∧ decide (h.flags &&& 0x20 ≠ 0) = h.padding := by
  -- The fields do not overlap: seen for all values that they can have.
  have hbits : ∀ (padding extended : Bool) (count : Fin 16),
      let flags := UInt8.ofNat (2 * 64 + padding.toNat * 32 + extended.toNat * 16 + count.val)
      flags &&& 0xC0 = 0x80 ∧ (flags &&& 0x0F).toNat = count.val ∧ (flags &&& 0x10 ≠ 0 ↔ extended = true) ∧
        decide (flags &&& 0x20 ≠ 0) = padding := by
    decide
  exact hbits h.padding h.extension.isSome ⟨h.contributors.length, Nat.lt_succ_of_le h.length_contributors_le⟩

theorem kind_and (h : Header) : decide (h.kind &&& 0x80 ≠ 0) = h.marker ∧ h.kind &&& 0x7F = h.payloadType := by
  have hbits : ∀ (marker : Bool) (payloadType : Fin 128),
      let kind := UInt8.ofNat (marker.toNat * 128 + payloadType.val)
      decide (kind &&& 0x80 ≠ 0) = marker ∧ kind &&& 0x7F = UInt8.ofNat payloadType.val := by
    decide +kernel
  have hlt := h.payloadType_lt
  rw [UInt8.lt_iff_toNat_lt] at hlt
  have hkind := hbits h.marker ⟨h.payloadType.toNat, hlt⟩
  rw [UInt8.ofNat_toNat] at hkind
  exact hkind

theorem decode?_bytes (h : Header) (payload : Bytes) : decode? (h.bytes ++ payload) = some (h.packet payload) := by
  have hsequence : Bytes.toNat (Bytes.ofNat 2 h.sequenceNumber.toNat) = h.sequenceNumber.toNat :=
    Bytes.toNat_ofNat_of_lt h.sequenceNumber.toNat_lt
  have htimestamp : Bytes.toNat (Bytes.ofNat 4 h.timestamp.toNat) = h.timestamp.toNat :=
    Bytes.toNat_ofNat_of_lt h.timestamp.toNat_lt
  have hsource : Bytes.toNat (Bytes.ofNat 4 h.source.toNat) = h.source.toNat :=
    Bytes.toNat_ofNat_of_lt h.source.toNat_lt
  have hcontributors (rest : Bytes)
      : Bytes.cut? (4 * h.contributors.length) (wordBytes h.contributors ++ rest) =
          some (wordBytes h.contributors, rest) := by
    rw [← length_wordBytes]
    apply Bytes.cut?_append
  rcases h.flags_and with ⟨hversion, hcount, hextension, hpadding⟩
  rcases h.kind_and with ⟨hmarker, htype⟩
  unfold decode? bytes
  simp only [List.cons_append, List.append_assoc, Bytes.cut?_ofNat_append, hversion, hcount, hcontributors, hextension,
    guard, Option.bind_eq_bind, Option.bind_some, if_pos, hsequence, htimestamp, hsource, hmarker, htype, hpadding,
    Bool.decide_eq_true]
  rw [UInt16.ofNat_toNat, UInt32.ofNat_toNat, UInt32.ofNat_toNat]
  unfold packet
  cases h.extension with
  | none => rfl
  | some e =>
    simp only [Option.isSome_some, if_true, Option.map_some, Option.getD_some]
    rw [e.dropExtension?_bytes]
    rfl

end Header

end Intercom.Rtp
