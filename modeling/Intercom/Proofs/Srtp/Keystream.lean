import Mathlib
import Intercom.Bytes.Lemmas
import Intercom.Srtp.Context

/-!
This module contains the counter blocks that packets are encrypted with: a nonce of 14 octets, made from the
source and the sequence number, and the number of the block. Packets that differ in one of the two share none.
-/

namespace Intercom.Srtp.Direction

variable {d : Direction} {p p' : Rtp.Packet} {source source' : UInt32} {sequenceNumber sequenceNumber' : UInt16}

/-- The longest payload whose blocks can be numbered in the two octets behind the nonce. -/
def maxPayload : Nat := 2 ^ 20

def counters (d : Direction) (p : Rtp.Packet) : List Bytes :=
  CounterMode.counters (d.start p.source p.sequenceNumber) p.payload.length

/-- What the salt is mixed with: the source in octets 4 to 7 and the index behind it. -/
def label (d : Direction) (source : UInt32) (sequenceNumber : UInt16) : Bytes :=
  List.replicate 4 0 ++ Bytes.ofNat 4 source.toNat ++
    (Bytes.ofNat 4 d.rollover.toNat ++ Bytes.ofNat 2 sequenceNumber.toNat)

/-- What the blocks of a packet have in common. -/
def nonce (d : Direction) (source : UInt32) (sequenceNumber : UInt16) : Bytes :=
  Bytes.xor (d.keys.salt.bytes.take 14) (d.label source sequenceNumber)

theorem length_take_salt (d : Direction) : (d.keys.salt.bytes.take 14).length = 14 := by
  rw [List.length_take, d.keys.salt.length_eq]
  rfl

theorem length_label (d : Direction) (source : UInt32) (sequenceNumber : UInt16)
    : (d.label source sequenceNumber).length = 14 := by
  simp [label]

theorem length_nonce (d : Direction) (source : UInt32) (sequenceNumber : UInt16)
    : (d.nonce source sequenceNumber).length = 14 := by
  unfold nonce Bytes.xor
  rw [List.length_zipWith, length_take_salt, length_label]
  rfl

theorem label_injective (h : d.label source sequenceNumber = d.label source' sequenceNumber')
    : source = source' ∧ sequenceNumber = sequenceNumber' := by
  unfold label at h
  rw [List.append_assoc, List.append_assoc, List.append_cancel_left_eq] at h
  have hsource := List.append_inj h (by rw [Bytes.length_ofNat, Bytes.length_ofNat])
  have hsequence := List.append_cancel_left hsource.2
  constructor
  . apply UInt32.toNat_inj.1
    apply Bytes.ofNat_injective _ _ hsource.1
    . apply UInt32.toNat_lt
    . apply UInt32.toNat_lt
  . apply UInt16.toNat_inj.1
    apply Bytes.ofNat_injective _ _ hsequence
    . apply UInt16.toNat_lt
    . apply UInt16.toNat_lt

theorem nonce_injective (h : d.nonce source sequenceNumber = d.nonce source' sequenceNumber')
    : source = source' ∧ sequenceNumber = sequenceNumber' := by
  apply label_injective (d := d)
  apply Bytes.xor_injective _ _ h
  . rw [length_label, length_take_salt]
  . rw [length_label, length_take_salt]

theorem start_eq (d : Direction) (source : UInt32) (sequenceNumber : UInt16)
    : d.start source sequenceNumber = d.nonce source sequenceNumber ++ [0, 0] := by
  unfold start nonce label Bytes.xor
  apply List.zipWith_append
  rw [length_take_salt]
  simp

theorem toNat_start (d : Direction) (source : UInt32) (sequenceNumber : UInt16)
    : Bytes.toNat (d.start source sequenceNumber) =
        Bytes.toNat (d.keys.salt.bytes.take 14) * 2 ^ 16 ^^^ source.toNat * 2 ^ 64 ^^^
          (d.rollover.toNat * 2 ^ 16 + sequenceNumber.toNat) * 2 ^ 16 := by
  have hsource : Bytes.toNat (Bytes.ofNat 4 source.toNat) = source.toNat := Bytes.toNat_ofNat_of_lt source.toNat_lt
  have hrollover : Bytes.toNat (Bytes.ofNat 4 d.rollover.toNat) = d.rollover.toNat :=
    Bytes.toNat_ofNat_of_lt d.rollover.toNat_lt
  have hsequence : Bytes.toNat (Bytes.ofNat 2 sequenceNumber.toNat) = sequenceNumber.toNat :=
    Bytes.toNat_ofNat_of_lt sequenceNumber.toNat_lt
  have hindex : (d.rollover.toNat * 2 ^ 16 + sequenceNumber.toNat) * 2 ^ 16 < 2 ^ 64 := by
    have := d.rollover.toNat_lt
    have := sequenceNumber.toNat_lt
    omega
  have hzeros : Bytes.toNat [0, 0] = 0 := rfl
  have hsalt : Bytes.toNat (d.keys.salt.bytes.take 14 ++ [0, 0]) =
      Bytes.toNat (d.keys.salt.bytes.take 14) * 2 ^ 16 := by
    rw [Bytes.toNat_append, hzeros, Nat.add_zero]
    norm_num
  have hlabel : Bytes.toNat (d.label source sequenceNumber ++ [0, 0]) =
      source.toNat * 2 ^ 64 + (d.rollover.toNat * 2 ^ 16 + sequenceNumber.toNat) * 2 ^ 16 := by
    have hfour : Bytes.toNat (List.replicate 4 0) = 0 := rfl
    unfold label
    simp only [Bytes.toNat_append, hzeros, hfour, hsource, hrollover, hsequence, List.length_append,
      Bytes.length_ofNat, List.length_cons, List.length_nil]
    omega
  have hlength : (d.keys.salt.bytes.take 14 ++ [0, 0]).length = (d.label source sequenceNumber ++ [0, 0]).length := by
    rw [List.length_append, List.length_append, length_take_salt, length_label]
  have hstart : d.start source sequenceNumber =
      Bytes.xor (d.keys.salt.bytes.take 14 ++ [0, 0]) (d.label source sequenceNumber ++ [0, 0]) := rfl
  rw [hstart, Bytes.toNat_xor hlength, hsalt, hlabel, ← Bytes.mul_xor_of_lt _ hindex, Nat.xor_assoc]

theorem counter_eq {i : Nat} (hi : i < 256 ^ 2)
    : Bytes.ofNat 16 (Bytes.toNat (d.start source sequenceNumber) + i) =
        d.nonce source sequenceNumber ++ Bytes.ofNat 2 i := by
  have hvalue : Bytes.toNat (d.start source sequenceNumber) + i =
      Bytes.toNat (d.nonce source sequenceNumber ++ Bytes.ofNat 2 i) := by
    rw [start_eq, Bytes.toNat_append, Bytes.toNat_append, Bytes.toNat_ofNat_of_lt hi, Bytes.length_ofNat]
    simp [Bytes.toNat]
  have hlength : (d.nonce source sequenceNumber ++ Bytes.ofNat 2 i).length = 16 := by
    rw [List.length_append, length_nonce, Bytes.length_ofNat]
  rw [hvalue, ← hlength]
  apply Bytes.ofNat_toNat

theorem nonce_of_mem_counters {block : Bytes} (hp : p.payload.length ≤ maxPayload) (h : block ∈ d.counters p)
    : ∃ i, block = d.nonce p.source p.sequenceNumber ++ Bytes.ofNat 2 i := by
  unfold maxPayload at hp
  unfold counters CounterMode.counters at h
  rw [List.mem_map] at h
  rcases h with ⟨i, hi, hblock⟩
  rw [List.mem_range] at hi
  refine ⟨i, ?_⟩
  rw [← hblock]
  apply counter_eq
  omega

theorem counters_disjoint (hp : p.payload.length ≤ maxPayload) (hp' : p'.payload.length ≤ maxPayload)
    (hne : (p.source, p.sequenceNumber) ≠ (p'.source, p'.sequenceNumber))
    : (d.counters p).Disjoint (d.counters p') := by
  intro block h h'
  rcases nonce_of_mem_counters hp h with ⟨i, hi⟩
  rcases nonce_of_mem_counters hp' h' with ⟨j, hj⟩
  apply hne
  rw [hi] at hj
  have hnonce := (List.append_inj hj (by rw [length_nonce, length_nonce])).1
  rcases nonce_injective hnonce with ⟨hsource, hsequence⟩
  rw [hsource, hsequence]

theorem protect_eq (d : Direction) (p : Rtp.Packet)
    : d.protect p =
        let stream := ((d.counters p).flatMap (Aes.encrypt d.keys.key)).take p.payload.length
        let packet := p.header ++ Bytes.xor p.payload stream
        packet ++ d.tag packet := by
  rfl

end Intercom.Srtp.Direction
