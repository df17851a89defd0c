import Mathlib
import Intercom.Proofs.Bytes.Checked
import Intercom.Proofs.Rtp.Grammar

/-!
This module contains the reading of a packet by its places: where the payload begins is computed from two counts in the
packet. Nothing is read outside it, and what is read is the same packet.
-/

namespace Intercom.Rtp

open Checked

variable {ε : Type}

/-- Where the payload begins: behind the contributing sources, or behind the extension that follows them. -/
def payloadStart (refusal : ε) (data : Bytes) (flags : UInt8) : Checked ε Nat := do
  let place := headerLength + 4 * (flags &&& 0x0F).toNat
  if flags &&& 0x10 ≠ 0 then
    let word ← ofOption refusal (range? data place (place + 4))
    let count ← number word 2 2
    return place + 4 + 4 * count
  else return place

def decodeChecked (refusal : ε) (bs : Bytes) (offset : Nat) : Checked ε Packet := do
  let data ← ofOption refusal (range? bs offset bs.length)
  refuseIf (data.length < headerLength) refusal
  let flags ← index data 0
  refuseIf (flags &&& 0xC0 ≠ 0x80) refusal
  let place ← payloadStart refusal data flags
  refuseIf (data.length < place) refusal
  let kind ← index data 1
  let sequenceNumber ← number data 2 2
  let timestamp ← number data 4 4
  let source ← number data 8 4
  let payload ← slice data place data.length
  return {
    padding := flags &&& 0x20 ≠ 0
    extended := flags &&& 0x10 ≠ 0
    marker := kind &&& 0x80 ≠ 0
    payloadType := kind &&& 0x7F
    sequenceNumber := UInt16.ofNat sequenceNumber
    timestamp := UInt32.ofNat timestamp
    source := UInt32.ofNat source
    payload }

def payload? (flags : UInt8) (data : Bytes) : Option Bytes :=
  (Bytes.cut? (4 * (flags &&& 0x0F).toNat) (data.drop headerLength)).bind fun (_, body) =>
    if flags &&& 0x10 ≠ 0 then dropExtension? body else some body

section

variable {data : Bytes} {flags : UInt8} {place count : Nat}

theorem dropExtension?_drop (hplace : place + 4 ≤ data.length)
    (hcount : count = Bytes.toNat ((data.drop (place + 2)).take 2))
    : dropExtension? (data.drop place) =
        if place + 4 + 4 * count ≤ data.length then some (data.drop (place + 4 + 4 * count)) else none := by
  unfold dropExtension?
  simp only [Option.bind_eq_bind]
  rw [Bytes.cut?_drop _ _ _ (by omega), if_pos (by omega), Option.bind_some]
  dsimp only
  rw [Bytes.cut?_drop _ _ _ (by omega), if_pos (by omega), Option.bind_some]
  dsimp only
  rw [← hcount, Bytes.cut?_drop _ _ _ (by omega), Nat.add_assoc place 2 2]
  split
  . rfl
  . rfl

theorem dropExtension?_of_lt (hplace : place ≤ data.length) (h : data.length < place + 4)
    : dropExtension? (data.drop place) = none := by
  unfold dropExtension?
  simp only [Option.bind_eq_bind]
  rw [Bytes.cut?_drop _ _ _ hplace]
  split
  . rw [Option.bind_some]
    dsimp only
    rw [Bytes.cut?_drop _ _ _ (by omega), if_neg (by omega), Option.bind_none]
  . rfl

theorem number_word (h : place + 4 ≤ data.length)
    : (number ((data.take (place + 4)).drop place) 2 2 : Checked ε Nat) =
        .ok (Bytes.toNat ((data.drop (place + 2)).take 2)) := by
  have hlength : ((data.take (place + 4)).drop place).length = 4 := by
    rw [List.length_drop, List.length_take_of_le h]
    omega
  rw [number_of_le (by omega), List.drop_drop, List.drop_take, List.take_take]
  congr 4
  omega

theorem payloadStart_cases (refusal : ε) (h : headerLength ≤ data.length)
    : (∃ place, payloadStart refusal data flags = .ok place ∧ place ≤ data.length ∧
        payload? flags data = some (data.drop place)) ∨
      (payload? flags data = none ∧
        (payloadStart refusal data flags = refuse refusal ∨
          ∃ place, payloadStart refusal data flags = .ok place ∧ data.length < place)) := by
  unfold payload? payloadStart
  dsimp only
  rw [Bytes.cut?_drop _ _ _ h]
  generalize headerLength + 4 * (flags &&& 0x0F).toNat = place
  by_cases hbit : flags &&& 0x10 ≠ 0
  . simp only [if_pos hbit]
    by_cases hword : place + 4 ≤ data.length
    . rw [if_pos (by omega), Option.bind_some, dropExtension?_drop hword rfl, range?_of_le (by omega) hword]
      unfold ofOption
      rw [ok_bind, number_word hword, ok_bind, pure_eq_ok]
      split
      . next hfits => exact .inl ⟨_, rfl, hfits, rfl⟩
      . next hfits => exact .inr ⟨rfl, .inr ⟨_, rfl, Nat.lt_of_not_le hfits⟩⟩
    . have hrange : range? data place (place + 4) = none := if_neg fun h => hword h.2
      rw [hrange]
      refine .inr ⟨?_, .inl rfl⟩
      split
      . next hsources =>
        rw [Option.bind_some]
        exact dropExtension?_of_lt hsources (Nat.lt_of_not_le hword)
      . rfl
  . simp only [if_neg hbit]
    split
    . next hsources => exact .inl ⟨place, rfl, hsources, rfl⟩
    . next hsources => exact .inr ⟨rfl, .inr ⟨place, rfl, Nat.lt_of_not_le hsources⟩⟩

def packetAt (data payload : Bytes) : Packet where
  padding := data.headD 0 &&& 0x20 ≠ 0
  extended := data.headD 0 &&& 0x10 ≠ 0
  marker := (data.drop 1).headD 0 &&& 0x80 ≠ 0
  payloadType := (data.drop 1).headD 0 &&& 0x7F
  sequenceNumber := UInt16.ofNat (Bytes.toNat ((data.drop 2).take 2))
  timestamp := UInt32.ofNat (Bytes.toNat ((data.drop 4).take 4))
  source := UInt32.ofNat (Bytes.toNat ((data.drop 8).take 4))
  payload

theorem decode?_eq (h : headerLength ≤ data.length) (hversion : data.headD 0 &&& 0xC0 = 0x80)
    : decode? data = (payload? (data.headD 0) data).map (packetAt data) := by
  unfold headerLength at h
  rcases data with _ | ⟨flags, _ | ⟨kind, bs⟩⟩
  . simp at h
  . simp at h
  . simp only [List.length_cons] at h
    rw [List.headD_cons] at hversion ⊢
    unfold decode? payload? guard headerLength
    simp only [if_pos hversion, Option.bind_eq_bind, Option.pure_def, Option.bind_some]
    rw [Bytes.cut?_of_le (by omega), Option.bind_some]
    dsimp only
    rw [Bytes.cut?_of_le (by rw [List.length_drop]; omega), Option.bind_some, List.drop_drop]
    dsimp only
    rw [Bytes.cut?_of_le (by rw [List.length_drop]; omega), Option.bind_some, List.drop_drop, Option.map_bind]
    dsimp only
    congr 1
    funext cut
    rw [Function.comp_apply, Option.map_eq_bind]
    split
    . rfl
    . rfl

theorem decode?_eq_none (h : ¬ (headerLength ≤ data.length ∧ data.headD 0 &&& 0xC0 = 0x80)) : decode? data = none := by
  rw [Option.eq_none_iff_forall_ne_some]
  intro p hp
  exact h ⟨length_of_decode? hp, version_of_decode? hp⟩

theorem decodeChecked_eq (refusal : ε) (bs : Bytes) (offset : Nat)
    : decodeChecked refusal bs offset = ofOption refusal (decodeAt? bs offset) := by
  unfold decodeChecked decodeAt?
  by_cases hoffset : offset ≤ bs.length
  . rw [range?_of_le hoffset le_rfl, List.take_length, if_pos hoffset]
    generalize bs.drop offset = data
    change (Except.ok data >>= _) = _
    rw [ok_bind]
    by_cases hlength : headerLength ≤ data.length
    . have h12 : 12 ≤ data.length := hlength
      rw [refuseIf_of_not (Nat.not_lt.2 hlength), ok_bind, index_drop (by omega), ok_bind,
        List.drop_zero]
      by_cases hversion : data.headD 0 &&& 0xC0 = 0x80
      . rw [refuseIf_of_not (not_not.2 hversion), ok_bind, decode?_eq hlength hversion]
        rcases payloadStart_cases refusal hlength with
          ⟨place, hplace, hle, hpayload⟩ | ⟨hpayload, hrefused | ⟨place, hplace, hlt⟩⟩
        . rw [hplace, hpayload, ok_bind, refuseIf_of_not (Nat.not_lt.2 hle), ok_bind,
            index_drop (by omega), ok_bind, number_of_le (by omega), ok_bind,
            number_of_le (by omega), ok_bind, number_of_le (by omega), ok_bind,
            slice_of_le hle le_rfl, ok_bind, List.take_length]
          rfl
        . rw [hrefused, hpayload, refuse_bind]
          rfl
        . rw [hplace, hpayload, ok_bind, refuseIf_of hlt, refuse_bind]
          rfl
      . rw [refuseIf_of hversion, refuse_bind, decode?_eq_none fun h => hversion h.2]
        rfl
    . rw [refuseIf_of (Nat.lt_of_not_le hlength), refuse_bind, decode?_eq_none fun h => hlength h.1]
      rfl
  . have hrange : range? bs offset bs.length = none := if_neg fun h => hoffset h.1
    rw [hrange, if_neg hoffset]
    rfl

/-- Where there is room for a tag behind a header, the tag overlaps nothing of it: neither its contributing sources nor
its extension. -/
theorem tag_behind_header {bs : Bytes} {p : Packet} {n : Nat} (h : decode? bs = some p) (hroom : n ≤ p.payload.length)
    : ∃ header : Header, ∃ body,
        bs = header.bytes ++ (body ++ bs.drop (bs.length - n)) ∧ p = header.packet p.payload ∧
        p.payload = body ++ bs.drop (bs.length - n) ∧ (bs.drop (bs.length - n)).length = n := by
  rcases exists_header h with ⟨header, hbytes, hpacket⟩
  have htag : bs.drop (bs.length - n) = p.payload.drop (p.payload.length - n) := by
    have hplace : bs.length - n = header.bytes.length + (p.payload.length - n) := by
      rw [hbytes, List.length_append]
      omega
    rw [hplace]
    conv_lhs => rw [hbytes]
    apply List.drop_length_add_append
  refine ⟨header, p.payload.take (p.payload.length - n), ?_, hpacket, ?_, ?_⟩
  . rw [htag, List.take_append_drop]
    exact hbytes
  . rw [htag, List.take_append_drop]
  . rw [htag, List.length_drop]
    omega

end

end Intercom.Rtp
