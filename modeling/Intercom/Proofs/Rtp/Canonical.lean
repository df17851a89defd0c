import Mathlib
import Intercom.Proofs.Rtp.RoundTrip

/-!
This module contains that reading loses nothing of a datagram that announces neither contributing sources nor an
extension: the packet that is read from it is written as the same octets.
-/

namespace Intercom.Rtp

theorem and_or (a b c : UInt8) : a &&& (b ||| c) = (a &&& b) ||| (a &&& c) := by
  rw [UInt8.and_comm, or_and, UInt8.and_comm b, UInt8.and_comm c]

theorem ite_and_bit {bit : UInt8} (octet : UInt8) (hbit : ∃ i, bit.toNat = 2 ^ i)
    : (if octet &&& bit ≠ 0 then bit else 0) = octet &&& bit := by
  rcases hbit with ⟨i, hi⟩
  have hand : (octet &&& bit).toNat = (octet.toNat.testBit i).toNat * bit.toNat := by
    rw [UInt8.toNat_and, hi, Nat.and_two_pow]
  cases hset : octet.toNat.testBit i with
  | false =>
    have hzero : octet &&& bit = 0 := by
      apply UInt8.toNat_inj.1
      rw [hand, hset]
      simp
    simp [hzero]
  | true =>
    have hsame : octet &&& bit = bit := by
      apply UInt8.toNat_inj.1
      rw [hand, hset]
      simp
    rw [hsame]
    split
    . rfl
    . next hbit =>
      rw [not_not] at hbit
      exact hbit.symm

structure Plain (datagram : Bytes) : Prop where
  sources : datagram.headD 0 &&& 0x0F = 0
  extension : datagram.headD 0 &&& 0x10 = 0

section

variable {bs : Bytes} {p : Packet} {flags kind : UInt8}

theorem flags_eq (hversion : flags &&& 0xC0 = 0x80) (hsources : flags &&& 0x0F = 0) (hextension : flags &&& 0x10 = 0)
    : 0x80 ||| (if flags &&& 0x20 ≠ 0 then 0x20 else 0) ||| 0 = flags := by
  have hall : (0xC0 ||| 0x20 ||| 0x10 ||| 0x0F : UInt8) = -1 := rfl
  rw [ite_and_bit flags ⟨5, rfl⟩, UInt8.or_zero]
  calc 0x80 ||| (flags &&& 0x20)
      = (flags &&& 0xC0) ||| (flags &&& 0x20) ||| (flags &&& 0x10) ||| (flags &&& 0x0F) := by
        rw [hversion, hextension, hsources, UInt8.or_zero, UInt8.or_zero]
    _ = flags := by
        rw [← and_or, ← and_or, ← and_or, hall, UInt8.and_neg_one]

theorem kind_eq : (if kind &&& 0x80 ≠ 0 then 0x80 else 0) ||| (kind &&& 0x7F &&& 0x7F) = kind := by
  have hall : (0x80 ||| 0x7F : UInt8) = -1 := rfl
  rw [ite_and_bit kind ⟨7, rfl⟩, UInt8.and_assoc, UInt8.and_self, ← and_or, hall, UInt8.and_neg_one]

theorem ofNat_word16 (h : bs.length = 2) : Bytes.ofNat 2 (UInt16.ofNat (Bytes.toNat bs)).toNat = bs := by
  have hlt : Bytes.toNat bs < 2 ^ 16 := by
    have := Bytes.toNat_lt bs
    rw [h] at this
    exact this
  rw [UInt16.toNat_ofNat', Nat.mod_eq_of_lt hlt, Bytes.ofNat_toNat_of_length h]

theorem ofNat_word32 (h : bs.length = 4) : Bytes.ofNat 4 (UInt32.ofNat (Bytes.toNat bs)).toNat = bs := by
  have hlt : Bytes.toNat bs < 2 ^ 32 := by
    have := Bytes.toNat_lt bs
    rw [h] at this
    exact this
  rw [UInt32.toNat_ofNat', Nat.mod_eq_of_lt hlt, Bytes.ofNat_toNat_of_length h]

theorem take_append_drop_add (i n : Nat) : (bs.drop i).take n ++ bs.drop (i + n) = bs.drop i := by
  rw [← List.drop_drop, List.take_append_drop]

theorem length_of_decode? (h : decode? bs = some p) : headerLength ≤ bs.length := by
  unfold decode? at h
  split at h
  . next flags kind bs =>
    simp only [Option.bind_eq_bind, Option.bind_eq_some_iff] at h
    rcases h with ⟨_, -, ⟨sequenceNumber, behind⟩, hsequence, ⟨timestamp, behind'⟩, htimestamp, ⟨source, body⟩,
      hsource, -⟩
    rw [Bytes.cut?_eq_some_iff] at hsequence htimestamp hsource
    dsimp only at htimestamp hsource
    rw [hsequence.2, htimestamp.2, hsource.2]
    unfold headerLength
    simp only [List.length_cons, List.length_append]
    omega
  . simp at h

theorem exists_encode_eq (hplain : Plain bs) (hversion : bs.headD 0 &&& 0xC0 = 0x80)
    (hlength : headerLength ≤ bs.length) : ∃ p : Packet, p.extended = false ∧ p.payloadType < 128 ∧ p.encode = bs := by
  unfold headerLength at hlength
  rcases bs with _ | ⟨flags, _ | ⟨kind, bs⟩⟩
  . simp at hlength
  . simp at hlength
  . simp only [List.length_cons] at hlength
    have hsequence : (bs.take 2).length = 2 := List.length_take_of_le (by omega)
    have htimestamp : ((bs.drop 2).take 4).length = 4 := by
      rw [List.length_take, List.length_drop]
      omega
    have hsource : ((bs.drop 6).take 4).length = 4 := by
      rw [List.length_take, List.length_drop]
      omega
    refine ⟨{
      padding := flags &&& 0x20 ≠ 0
      extended := false
      marker := kind &&& 0x80 ≠ 0
      payloadType := kind &&& 0x7F
      sequenceNumber := UInt16.ofNat (Bytes.toNat (bs.take 2))
      timestamp := UInt32.ofNat (Bytes.toNat ((bs.drop 2).take 4))
      source := UInt32.ofNat (Bytes.toNat ((bs.drop 6).take 4))
      payload := bs.drop 10 }, rfl, and_mask_lt kind, ?_⟩
    have hcut : bs.take 2 ++ (bs.drop 2).take 4 ++ (bs.drop 6).take 4 ++ bs.drop 10 = bs := by
      have hlast : (bs.drop 6).take 4 ++ bs.drop 10 = bs.drop 6 := take_append_drop_add 6 4
      have hmiddle : (bs.drop 2).take 4 ++ bs.drop 6 = bs.drop 2 := take_append_drop_add 2 4
      rw [List.append_assoc, List.append_assoc, hlast, hmiddle, List.take_append_drop]
    unfold Packet.encode Packet.header
    simp only [decide_eq_true_eq, Bool.false_eq_true, if_false, ofNat_word16 hsequence, ofNat_word32 htimestamp,
      ofNat_word32 hsource, List.cons_append, hcut]
    congr 1
    . exact flags_eq hversion hplain.sources hplain.extension
    . rw [kind_eq]

theorem decode?_eq_some_iff (hplain : Plain bs)
    : decode? bs = some p ↔ p.extended = false ∧ p.payloadType < 128 ∧ p.encode = bs := by
  constructor
  . intro h
    rcases exists_encode_eq hplain (version_of_decode? h) (length_of_decode? h) with ⟨q, hextended, htype, rfl⟩
    unfold Packet.encode at h
    rw [decode?_header_append hextended htype, Option.some.injEq] at h
    rw [← h]
    exact ⟨hextended, htype, rfl⟩
  . intro h
    rcases h with ⟨hextended, htype, rfl⟩
    exact decode?_header_append hextended htype p.payload

theorem exists_decode?_iff (hplain : Plain bs)
    : (∃ p, decode? bs = some p) ↔ bs.headD 0 &&& 0xC0 = 0x80 ∧ headerLength ≤ bs.length := by
  constructor
  . intro h
    rcases h with ⟨p, hp⟩
    exact ⟨version_of_decode? hp, length_of_decode? hp⟩
  . intro h
    rcases exists_encode_eq hplain h.1 h.2 with ⟨p, hp⟩
    exact ⟨p, (decode?_eq_some_iff hplain).2 hp⟩

end

end Intercom.Rtp
