import Mathlib
import Intercom.Bytes.Lemmas
import Intercom.Rtp

/-!
This module contains how the header of a packet is read back, if its payload type has seven bits: with what
follows it as payload, unless it announces an extension. What an extension is read from is longer by four octets
at least.
-/

namespace Intercom.Rtp

theorem or_and (a b c : UInt8) : (a ||| b) &&& c = (a &&& c) ||| (b &&& c) := by
  apply UInt8.toNat_inj.1
  rw [UInt8.toNat_and, UInt8.toNat_or, UInt8.toNat_or, UInt8.toNat_and, UInt8.toNat_and]
  apply Nat.and_or_distrib_right

theorem and_mask_of_lt {payloadType : UInt8} (h : payloadType < 128) : payloadType &&& 0x7F = payloadType := by
  rw [UInt8.lt_iff_toNat_lt] at h
  apply UInt8.toNat_inj.1
  rw [UInt8.toNat_and]
  change payloadType.toNat &&& (2 ^ 7 - 1) = payloadType.toNat
  rw [Nat.and_two_pow_sub_one_eq_mod]
  exact Nat.mod_eq_of_lt h

theorem and_mask_lt (octet : UInt8) : octet &&& 0x7F < 128 := by
  rw [UInt8.lt_iff_toNat_lt, UInt8.toNat_and]
  apply Nat.and_lt_two_pow (n := 7)
  decide

namespace Packet

def kind (p : Packet) : UInt8 :=
  (if p.marker then 0x80 else 0) ||| (p.payloadType &&& 0x7F)

theorem kind_and_mask {p : Packet} (h : p.payloadType < 128) : p.kind &&& 0x7F = p.payloadType := by
  have hmarker : (if p.marker then 0x80 else 0) &&& 0x7F = (0 : UInt8) := by
    cases p.marker with
    | false => rfl
    | true => rfl
  unfold kind
  rw [or_and, hmarker, UInt8.and_assoc, UInt8.and_self, UInt8.zero_or]
  exact and_mask_of_lt h

theorem kind_and_marker (p : Packet) : decide (p.kind &&& 0x80 ≠ 0) = p.marker := by
  have hmask : (0x7F : UInt8) &&& 0x80 = 0 := rfl
  unfold kind
  rw [or_and, UInt8.and_assoc, hmask, UInt8.and_zero, UInt8.or_zero]
  cases p.marker with
  | false => rfl
  | true => rfl

def flags (p : Packet) : UInt8 :=
  0x80 ||| (if p.padding then 0x20 else 0) ||| (if p.extended then 0x10 else 0)

theorem flags_and (p : Packet)
    : p.flags &&& 0xC0 = 0x80 ∧ p.flags &&& 0x0F = 0 ∧ (p.flags &&& 0x10 ≠ 0 ↔ p.extended = true) ∧
      decide (p.flags &&& 0x20 ≠ 0) = p.padding := by
  unfold flags
  cases p.padding with
  | false =>
    cases p.extended with
    | false => decide
    | true => decide
  | true =>
    cases p.extended with
    | false => decide
    | true => decide

theorem header_eq (p : Packet)
    : p.header = p.flags :: p.kind :: (Bytes.ofNat 2 p.sequenceNumber.toNat ++
        Bytes.ofNat 4 p.timestamp.toNat ++ Bytes.ofNat 4 p.source.toNat) := by
  rfl

end Packet

theorem decode?_header {p : Packet} (htype : p.payloadType < 128) (body : Bytes)
    : decode? (p.header ++ body) =
        (if p.extended then dropExtension? body else some body).map fun payload => { p with payload } := by
  have hsequence : Bytes.toNat (Bytes.ofNat 2 p.sequenceNumber.toNat) = p.sequenceNumber.toNat :=
    Bytes.toNat_ofNat_of_lt p.sequenceNumber.toNat_lt
  have htimestamp : Bytes.toNat (Bytes.ofNat 4 p.timestamp.toNat) = p.timestamp.toNat :=
    Bytes.toNat_ofNat_of_lt p.timestamp.toNat_lt
  have hsource : Bytes.toNat (Bytes.ofNat 4 p.source.toNat) = p.source.toNat :=
    Bytes.toNat_ofNat_of_lt p.source.toNat_lt
  rcases p.flags_and with ⟨hversion, hcount, hextension, hpadding⟩
  rw [Packet.header_eq]
  unfold decode?
  simp only [List.cons_append, List.append_assoc, Bytes.cut?_ofNat_append, hversion, hcount, hextension,
    guard, Option.bind_eq_bind, Option.bind_some, if_pos, hsequence, htimestamp, hsource, p.kind_and_marker,
    Packet.kind_and_mask htype, hpadding, Bool.decide_eq_true]
  rw [UInt16.ofNat_toNat, UInt32.ofNat_toNat, UInt32.ofNat_toNat]
  cases p.extended with
  | false => rfl
  | true =>
    rw [if_pos rfl, Option.map_eq_bind]
    rfl

theorem decode?_header_append {p : Packet} (hextended : p.extended = false) (htype : p.payloadType < 128)
    (payload : Bytes) : decode? (p.header ++ payload) = some { p with payload } := by
  rw [decode?_header htype, hextended]
  rfl

theorem dropExtension?_append {profile count : Nat} {extension : Bytes} (hcount : count < 256 ^ 2)
    (hextension : extension.length = 4 * count) (rest : Bytes)
    : dropExtension? (Bytes.ofNat 2 profile ++ (Bytes.ofNat 2 count ++ (extension ++ rest))) = some rest := by
  unfold dropExtension?
  simp only [Bytes.cut?_ofNat_append, Option.bind_eq_bind, Option.bind_some, Bytes.toNat_ofNat_of_lt hcount]
  rw [← hextension, Bytes.cut?_append]
  rfl

theorem length_of_dropExtension? {bs rest : Bytes} (h : dropExtension? bs = some rest)
    : rest.length + 4 ≤ bs.length := by
  unfold dropExtension? at h
  simp only [Option.bind_eq_bind, Option.bind_eq_some_iff, Option.pure_def, Option.some.injEq] at h
  rcases h with ⟨⟨profile, behind⟩, hprofile, ⟨count, words⟩, hcount, ⟨extension, payload⟩, hwords, rfl⟩
  rw [Bytes.cut?_eq_some_iff] at hprofile hcount hwords
  dsimp only at hcount hwords
  rw [hprofile.2, hcount.2, hwords.2]
  simp only [List.length_append]
  omega

theorem of_decode?_eq_some {bs : Bytes} {p : Packet} (h : decode? bs = some p)
    : p.payloadType < 128 ∧ (p.extended = true ↔ bs.headD 0 &&& 0x10 ≠ 0) := by
  unfold decode? at h
  split at h
  . next flags kind bs =>
    simp only [Option.bind_eq_bind, Option.bind_eq_some_iff] at h
    rcases h with ⟨_, _, _, _, _, _, _, _, _, _, h⟩
    split at h
    . rw [Option.bind_eq_some_iff] at h
      rcases h with ⟨payload, -, h⟩
      rw [Option.pure_def, Option.some.injEq] at h
      rw [← h]
      exact ⟨and_mask_lt kind, decide_eq_true_iff⟩
    . rw [Option.bind_some, Option.pure_def, Option.some.injEq] at h
      rw [← h]
      exact ⟨and_mask_lt kind, decide_eq_true_iff⟩
  . simp at h

theorem version_of_decode? {bs : Bytes} {p : Packet} (h : decode? bs = some p) : bs.headD 0 &&& 0xC0 = 0x80 := by
  unfold decode? at h
  split at h
  . next flags kind bs =>
    rw [Option.bind_eq_bind, Option.bind_eq_some_iff] at h
    rcases h with ⟨_, hversion, -⟩
    by_contra hne
    change ¬ flags &&& 0xC0 = 0x80 at hne
    unfold guard at hversion
    rw [if_neg hne] at hversion
    simp at hversion
  . simp at h

end Intercom.Rtp
