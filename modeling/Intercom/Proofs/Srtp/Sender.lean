import Mathlib
import Intercom.Proofs.Rtp.Header
import Intercom.Proofs.Srtp.Authenticity
import Intercom.Proofs.Srtp.Keystream

/-!
This module contains the main statement about packets of other senders: whatever stands in the header, contributing
sources and extensions included, what a sender protects octet for octet as the standard says is read as it was meant.
-/

namespace Intercom

namespace CounterMode

/-- Octet `n` of the keystream from a number on: the blocks are the encryptions of consecutive numbers of 128 bits. -/
def octet (key : Octets 16) (iv n : Nat) : UInt8 :=
  (Aes.encrypt key (Bytes.ofNat 16 ((iv + n / 16) % 2 ^ 128))).getD (n % 16) 0

theorem getElem?_flatMap_range {block : Nat → Bytes} (hblock : ∀ i, (block i).length = 16) {count n : Nat}
    (hn : n < 16 * count) : ((List.range count).flatMap block)[n]? = (block (n / 16))[n % 16]? := by
  induction count with
  | zero => omega
  | succ count ih =>
    have hlength : ((List.range count).flatMap block).length = 16 * count := by
      simp [List.length_flatMap, hblock, Nat.mul_comm]
    rw [List.range_succ, List.flatMap_append, List.flatMap_singleton]
    rcases Nat.lt_or_ge n (16 * count) with hlt | hge
    . rw [List.getElem?_append_left (by omega)]
      exact ih hlt
    . have hdiv : n / 16 = count := by omega
      have hmod : n % 16 = n - 16 * count := by omega
      rw [List.getElem?_append_right (by omega), hlength, hdiv, hmod]

theorem getElem?_keystream (key : Octets 16) (iv : Bytes) {length n : Nat} (hn : n < length)
    : (keystream key iv length)[n]? = some (octet key (Bytes.toNat iv) n) := by
  have hblock : ∀ i, (Aes.encrypt key (Bytes.ofNat 16 (Bytes.toNat iv + i))).length = 16 :=
    fun i => Aes.length_encrypt key _
  have hbound : (2 : Nat) ^ 128 = 256 ^ 16 := by norm_num
  unfold keystream counters
  rw [List.getElem?_take_of_lt hn, List.flatMap_map, getElem?_flatMap_range hblock (by omega)]
  unfold octet
  rw [hbound, Bytes.ofNat_mod, List.getD_eq_getElem?_getD, List.getElem?_eq_getElem, Option.getD_some]
  rw [hblock]
  exact Nat.mod_lt n (by decide)

theorem apply_eq (key : Octets 16) (iv data : Bytes)
    : apply key iv data = data.mapIdx fun n b => b ^^^ octet key (Bytes.toNat iv) n := by
  apply List.ext_getElem?
  intro n
  unfold apply Bytes.xor
  rw [List.getElem?_zipWith, List.getElem?_mapIdx]
  rcases Nat.lt_or_ge n data.length with hn | hn
  . rw [getElem?_keystream key iv hn, List.getElem?_eq_getElem hn]
    rfl
  . rw [List.getElem?_eq_none hn]
    rfl

end CounterMode

namespace Srtp

/-- The number of the first counter block of a packet, from the salt, the source and the index of the packet. -/
def firstCounter (salt : Nat) (source : UInt32) (index : Nat) : Nat :=
  salt * 2 ^ 16 ^^^ source.toNat * 2 ^ 64 ^^^ index * 2 ^ 16

/-- What a sender makes of a payload as long as no sequence number has started again: the header as it is, the payload
under the keystream, and the tag over both. -/
def sealed (master : Master) (h : Rtp.Header) (payload : Bytes) : Bytes :=
  let keys := SessionKeys.derive master
  let iv := firstCounter (Bytes.toNat (keys.salt.bytes.take 14)) h.source h.sequenceNumber.toNat
  let packet := h.bytes ++ payload.mapIdx fun n b => b ^^^ CounterMode.octet keys.key iv n
  packet ++ firstTag master packet

theorem Direction.toNat_start_ofMaster (master : Master) (source : UInt32) (sequenceNumber : UInt16)
    : Bytes.toNat ((ofMaster master).start source sequenceNumber) =
        firstCounter (Bytes.toNat ((SessionKeys.derive master).salt.bytes.take 14)) source sequenceNumber.toNat := by
  have hindex : (ofMaster master).rollover.toNat * 2 ^ 16 + sequenceNumber.toNat = sequenceNumber.toNat := by
    have hrollover : (ofMaster master).rollover.toNat = 0 := rfl
    rw [hrollover, Nat.zero_mul, Nat.zero_add]
  rw [toNat_start, hindex]
  rfl

theorem sealed_eq (master : Master) (h : Rtp.Header) (payload : Bytes)
    : sealed master h payload =
        let d := Direction.ofMaster master
        let packet := h.bytes ++ CounterMode.apply d.keys.key (d.start h.source h.sequenceNumber) payload
        packet ++ d.tag packet := by
  dsimp only
  rw [CounterMode.apply_eq, Direction.toNat_start_ofMaster, Direction.tag_ofMaster]
  rfl

theorem unprotect_sealed (masters : MasterPair) (h : Rtp.Header) (payload : Bytes)
    : (Context.ofMasters masters).unprotect (sealed masters.receive h payload) = .ok (h.packet payload) := by
  rw [sealed_eq]
  apply Direction.unprotect_append_tag (p := h.packet payload)
  exact h.decode?_bytes

end Srtp

end Intercom
