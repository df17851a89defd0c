import Mathlib
import Intercom.Proofs.Rtp.Canonical
import Intercom.Proofs.Rtp.Header

/-!
This module contains the main statement about what is read as a packet: exactly the headers of version 2, with all the
contributing sources and the words of an extension that they announce, in front of any octets. Those octets are the
payload.
-/

namespace Intercom.Rtp

theorem exists_wordBytes_eq {n : Nat} {bs : Bytes} (h : bs.length = 4 * n)
    : ∃ words : List UInt32, words.length = n ∧ wordBytes words = bs := by
  induction n generalizing bs with
  | zero =>
    rw [Nat.mul_zero, List.length_eq_zero_iff] at h
    exact ⟨[], rfl, h.symm⟩
  | succ n ih =>
    have hword : (bs.take 4).length = 4 := by
      apply List.length_take_of_le
      omega
    have hrest : (bs.drop 4).length = 4 * n := by
      rw [List.length_drop]
      omega
    rcases ih hrest with ⟨words, hlength, hwords⟩
    refine ⟨UInt32.ofNat (Bytes.toNat (bs.take 4)) :: words, ?_, ?_⟩
    . rw [List.length_cons, hlength]
    . unfold wordBytes at hwords ⊢
      rw [List.flatMap_cons, ofNat_word32 hword, hwords, List.take_append_drop]

section

variable {bs rest : Bytes} {p : Packet} {flags : UInt8}

theorem exists_extension (h : dropExtension? bs = some rest) : ∃ e : Extension, bs = e.bytes ++ rest := by
  unfold dropExtension? at h
  simp only [Option.bind_eq_bind, Option.bind_eq_some_iff, Option.pure_def, Option.some.injEq] at h
  rcases h with ⟨⟨profile, behind⟩, hprofile, ⟨count, body⟩, hcount, ⟨extension, payload⟩, hwords, rfl⟩
  rw [Bytes.cut?_eq_some_iff] at hprofile hcount hwords
  dsimp only at hcount hwords
  rcases exists_wordBytes_eq hwords.1 with ⟨words, hlength, hbytes⟩
  have hlt := Bytes.toNat_lt count
  rw [hcount.1, ← hlength] at hlt
  have hwritten : Bytes.ofNat 2 words.length = count := by
    rw [hlength, Bytes.ofNat_toNat_of_length hcount.1]
  refine ⟨⟨UInt16.ofNat (Bytes.toNat profile), words, by omega⟩, ?_⟩
  unfold Extension.bytes
  dsimp only
  rw [ofNat_word16 hprofile.1, hwritten, hbytes, hprofile.2, hcount.2, hwords.2]
  simp only [List.append_assoc]

theorem flags_eq_of_version (hversion : flags &&& 0xC0 = 0x80)
    : flags =
        UInt8.ofNat (2 * 64 + (decide (flags &&& 0x20 ≠ 0)).toNat * 32 + (decide (flags &&& 0x10 ≠ 0)).toNat * 16 +
          (flags &&& 0x0F).toNat) := by
  have hbits : ∀ n : Fin 256,
      let flags := UInt8.ofNat n.val
      flags &&& 0xC0 = 0x80 →
        flags =
          UInt8.ofNat (2 * 64 + (decide (flags &&& 0x20 ≠ 0)).toNat * 32 + (decide (flags &&& 0x10 ≠ 0)).toNat * 16 +
            (flags &&& 0x0F).toNat) := by
    decide +kernel
  have hflags := hbits ⟨flags.toNat, flags.toNat_lt⟩
  rw [UInt8.ofNat_toNat] at hflags
  exact hflags hversion

theorem kind_eq_of_fields (kind : UInt8)
    : kind = UInt8.ofNat ((decide (kind &&& 0x80 ≠ 0)).toNat * 128 + (kind &&& 0x7F).toNat) := by
  have hbits : ∀ n : Fin 256,
      let kind := UInt8.ofNat n.val
      kind = UInt8.ofNat ((decide (kind &&& 0x80 ≠ 0)).toNat * 128 + (kind &&& 0x7F).toNat) := by
    decide +kernel
  have hkind := hbits ⟨kind.toNat, kind.toNat_lt⟩
  rw [UInt8.ofNat_toNat] at hkind
  exact hkind

theorem count_le (flags : UInt8) : (flags &&& 0x0F).toNat ≤ 15 := by
  rw [UInt8.toNat_and]
  exact Nat.and_le_right

theorem exists_payload {finish : Bytes → Option Packet}
    (h : (if flags &&& 0x10 ≠ 0 then (dropExtension? bs).bind finish else (some bs).bind finish) = some p)
    : ∃ (extension : Option Extension) (payload : Bytes),
        extension.isSome = decide (flags &&& 0x10 ≠ 0) ∧
        bs = (extension.map Extension.bytes).getD [] ++ payload ∧ finish payload = some p := by
  split at h
  . next hbit =>
    rw [Option.bind_eq_some_iff] at h
    rcases h with ⟨payload, hpayload, hfinish⟩
    rcases exists_extension hpayload with ⟨e, he⟩
    refine ⟨some e, payload, ?_, he, hfinish⟩
    rw [decide_eq_true hbit]
    rfl
  . next hbit =>
    refine ⟨none, bs, ?_, rfl, h⟩
    rw [decide_eq_false hbit]
    rfl

theorem exists_header (h : decode? bs = some p)
    : ∃ header : Header, bs = header.bytes ++ p.payload ∧ p = header.packet p.payload := by
  have hversion := version_of_decode? h
  unfold decode? at h
  split at h
  . next flags kind bs =>
    rw [List.headD_cons] at hversion
    simp only [Option.bind_eq_bind, Option.bind_eq_some_iff] at h
    rcases h with ⟨_, -, ⟨sequenceNumber, behind⟩, hsequence, ⟨timestamp, behind'⟩, htimestamp, ⟨source, behind''⟩,
      hsource, ⟨contributors, body⟩, hcontributors, h⟩
    rw [Bytes.cut?_eq_some_iff] at hsequence htimestamp hsource hcontributors
    dsimp only at htimestamp hsource hcontributors
    rcases exists_wordBytes_eq hcontributors.1 with ⟨words, hcount, hwords⟩
    rcases exists_payload h with ⟨extension, payload, hextended, hbody, hpacket⟩
    dsimp only at hbody
    rw [Option.pure_def, Option.some.injEq] at hpacket
    rw [← hpacket]
    refine ⟨{
      padding := flags &&& 0x20 ≠ 0
      marker := kind &&& 0x80 ≠ 0
      payloadType := kind &&& 0x7F
      payloadType_lt := and_mask_lt kind
      sequenceNumber := UInt16.ofNat (Bytes.toNat sequenceNumber)
      timestamp := UInt32.ofNat (Bytes.toNat timestamp)
      source := UInt32.ofNat (Bytes.toNat source)
      contributors := words
      length_contributors_le := hcount ▸ count_le flags
      extension }, ?_, ?_⟩
    . unfold Header.bytes Header.flags Header.kind
      dsimp only
      rw [hextended, hcount, ← flags_eq_of_version hversion, ← kind_eq_of_fields, ofNat_word16 hsequence.1,
        ofNat_word32 htimestamp.1, ofNat_word32 hsource.1, hwords, hsequence.2, htimestamp.2, hsource.2,
        hcontributors.2, hbody]
      simp only [List.cons_append, List.append_assoc]
    . unfold Header.packet
      dsimp only
      rw [hextended]
  . simp at h

theorem decode?_iff_header
    : decode? bs = some p ↔ ∃ header : Header, bs = header.bytes ++ p.payload ∧ p = header.packet p.payload := by
  constructor
  . apply exists_header
  . intro h
    rcases h with ⟨header, hbytes, hpacket⟩
    rw [hbytes, header.decode?_bytes, ← hpacket]

theorem decodeAt?_append (front bs : Bytes) : decodeAt? (front ++ bs) front.length = decode? bs := by
  unfold decodeAt?
  rw [if_pos, List.drop_left]
  rw [List.length_append]
  apply Nat.le_add_right

end

theorem Header.length_bytes (h : Header)
    : h.bytes.length =
        headerLength + 4 * h.contributors.length + (h.extension.map fun e => 4 + 4 * e.words.length).getD 0 := by
  have hextension : ((h.extension.map Extension.bytes).getD []).length =
      (h.extension.map fun e => 4 + 4 * e.words.length).getD 0 := by
    cases h.extension with
    | none => rfl
    | some e =>
      simp only [Option.map_some, Option.getD_some]
      unfold Extension.bytes
      rw [List.length_append, List.length_append, Bytes.length_ofNat, Bytes.length_ofNat, length_wordBytes]
      omega
  unfold bytes headerLength
  simp only [List.length_cons, List.length_append, Bytes.length_ofNat, length_wordBytes, hextension]
  omega

theorem decodeAt?_grammar (bs : Bytes) (offset : Nat)
    : (∀ p,
        decodeAt? bs offset = some p ↔
          ∃ front, ∃ header : Header,
            front.length = offset ∧ bs = front ++ (header.bytes ++ p.payload) ∧ p = header.packet p.payload) ∧
      (decodeAt? bs offset = none ↔
        ∀ front, ∀ header : Header, ∀ rest, bs = front ++ (header.bytes ++ rest) → front.length ≠ offset) ∧
      (∀ header : Header,
        header.bytes.length =
          12 + 4 * header.contributors.length + (header.extension.map fun e => 4 + 4 * e.words.length).getD 0) := by
  have hsome : ∀ p,
      decodeAt? bs offset = some p ↔
        ∃ front, ∃ header : Header,
          front.length = offset ∧ bs = front ++ (header.bytes ++ p.payload) ∧ p = header.packet p.payload := by
    intro p
    constructor
    . intro h
      unfold decodeAt? at h
      split at h
      . next hle =>
        rcases exists_header h with ⟨header, hbytes, hpacket⟩
        refine ⟨bs.take offset, header, List.length_take_of_le hle, ?_, hpacket⟩
        rw [← hbytes, List.take_append_drop]
      . simp at h
    . intro h
      rcases h with ⟨front, header, rfl, rfl, hpacket⟩
      rw [decodeAt?_append, decode?_iff_header]
      exact ⟨header, rfl, hpacket⟩
  refine ⟨hsome, ?_, fun header => header.length_bytes⟩
  constructor
  . intro hnone front header rest hbs hlength
    have haccepted := (hsome (header.packet rest)).2 ⟨front, header, hlength, hbs, rfl⟩
    rw [hnone] at haccepted
    simp at haccepted
  . intro hother
    rw [Option.eq_none_iff_forall_ne_some]
    intro p hp
    rcases (hsome p).1 hp with ⟨front, header, hlength, hbs, -⟩
    exact hother front header p.payload hbs hlength

end Intercom.Rtp
