import Mathlib
import Intercom.Proofs.Bytes.Mask
import Intercom.Proofs.Srtp.Keystream

/-!
This module contains where keystreams start, as numbers of 128 bits: those of packets and those of which the session
keys are parts. Octets that are masked at their places give the same as shifted numbers, and the three streams of a
derivation encrypt different blocks.
-/

namespace Intercom.Srtp

namespace Direction

variable (d : Direction) (source : UInt32) (sequenceNumber : UInt16)

/-- The first counter of a packet with every octet masked at its place: the source from octet 4 on, and from octet 8 on
the lower six octets of the index, which is a number of 64 bits. -/
def startInPlace : Bytes :=
  let block := d.keys.salt.bytes.take 14 ++ [0, 0]
  let index := (d.rollover.toUInt64 <<< 16) ||| sequenceNumber.toUInt64
  Bytes.maskAt (Bytes.maskAt block 4 (Bytes.ofNat 4 source.toNat)) 8 ((Bytes.ofNat 8 index.toNat).drop 2)

theorem length_start : (d.start source sequenceNumber).length = 16 := by
  rw [start_eq, List.length_append, length_nonce]
  rfl

theorem length_startInPlace : (d.startInPlace source sequenceNumber).length = 16 := by
  unfold startInPlace
  dsimp only
  rw [Bytes.length_maskAt, Bytes.length_maskAt, List.length_append, length_take_salt]
  rfl

theorem toNat_index (rollover : UInt32)
    : ((rollover.toUInt64 <<< 16) ||| sequenceNumber.toUInt64).toNat =
        rollover.toNat * 2 ^ 16 + sequenceNumber.toNat := by
  have hrollover := rollover.toNat_lt
  have hsequence := sequenceNumber.toNat_lt
  have hshift : (rollover.toUInt64 <<< 16).toNat = rollover.toNat <<< 16 := by
    rw [UInt64.toNat_shiftLeft, UInt32.toNat_toUInt64]
    apply Nat.mod_eq_of_lt
    rw [Nat.shiftLeft_eq]
    simp
    omega
  rw [UInt64.toNat_or, hshift, UInt16.toNat_toUInt64, ← Nat.shiftLeft_add_eq_or_of_lt hsequence, Nat.shiftLeft_eq]

theorem toNat_startInPlace
    : Bytes.toNat (d.startInPlace source sequenceNumber) =
        Bytes.toNat (d.keys.salt.bytes.take 14) * 2 ^ 16 ^^^ source.toNat * 2 ^ 64 ^^^
          (d.rollover.toNat * 2 ^ 16 + sequenceNumber.toNat) * 2 ^ 16 := by
  have hblock : (d.keys.salt.bytes.take 14 ++ [0, 0]).length = 16 := by
    rw [List.length_append, length_take_salt]
    rfl
  have hdrop : ∀ n, (Bytes.ofNat 8 n).drop 2 = Bytes.ofNat 6 n := fun _ => rfl
  have hsource : Bytes.toNat (Bytes.ofNat 4 source.toNat) = source.toNat := Bytes.toNat_ofNat_of_lt source.toNat_lt
  have hindex : Bytes.toNat (Bytes.ofNat 6 (d.rollover.toNat * 2 ^ 16 + sequenceNumber.toNat)) =
      d.rollover.toNat * 2 ^ 16 + sequenceNumber.toNat := by
    apply Bytes.toNat_ofNat_of_lt
    have := d.rollover.toNat_lt
    have := sequenceNumber.toNat_lt
    omega
  unfold startInPlace
  dsimp only
  rw [hdrop, toNat_index, Bytes.toNat_maskAt, Bytes.toNat_maskAt, Bytes.length_maskAt, Bytes.length_ofNat,
    Bytes.length_ofNat, hblock, hsource, hindex, Bytes.toNat_filled]
  . rfl
  . rw [hblock, Bytes.length_ofNat]
    decide
  . rw [Bytes.length_maskAt, hblock, Bytes.length_ofNat]
    decide

theorem startInPlace_eq : d.startInPlace source sequenceNumber = d.start source sequenceNumber := by
  apply Bytes.eq_of_toNat_eq
  . rw [length_startInPlace, length_start]
  . rw [toNat_startInPlace, toNat_start]

end Direction

namespace SessionKeys

variable {salt : Octets 14} {label label' : UInt8} {n n' : Nat} {block : Bytes}

/-- Where the stream of a label starts. -/
def number (salt : Octets 14) (label : Nat) : Nat :=
  (Bytes.toNat salt.bytes ^^^ label * 2 ^ 48) * 2 ^ 16

/-- The longest stream whose blocks can be numbered in the two octets behind the salt. -/
def maxStream : Nat := 2 ^ 20

def counters (salt : Octets 14) (label : UInt8) (n : Nat) : List Bytes :=
  CounterMode.counters (start salt label) n

theorem length_filled (salt : Octets 14) : (salt.bytes ++ [0, 0]).length = 16 := by
  rw [List.length_append, salt.length_eq]
  rfl

theorem start_eq_maskAt (salt : Octets 14) (label : UInt8)
    : start salt label = Bytes.maskAt (salt.bytes ++ [0, 0]) 7 [label] := by
  have hplace : 7 < (salt.bytes ++ [0, 0]).length := by
    rw [length_filled]
    decide
  rw [Bytes.maskAt, Bytes.maskAt, Bytes.modify_eq_xor label hplace, length_filled]
  rfl

theorem toNat_start (salt : Octets 14) (label : UInt8) : Bytes.toNat (start salt label) = number salt label.toNat := by
  have hlabel : Bytes.toNat [label] = label.toNat := by simp [Bytes.toNat]
  have hshift : label.toNat * 256 ^ 8 = label.toNat * 2 ^ 48 * 256 ^ 2 := by omega
  have hfit : 7 + [label].length ≤ (salt.bytes ++ [0, 0]).length := by
    rw [length_filled, List.length_singleton]
    decide
  rw [start_eq_maskAt, Bytes.toNat_maskAt hfit, length_filled, hlabel, Bytes.toNat_filled]
  unfold number
  rw [show (2 : Nat) ^ 16 = 256 ^ 2 from rfl, Bytes.xor_mul_pow]
  exact congrArg _ hshift

theorem length_start (salt : Octets 14) (label : UInt8) : (start salt label).length = 16 := by
  rw [start_eq_maskAt, Bytes.length_maskAt, length_filled]

theorem start_eq (salt : Octets 14) (label : UInt8) : start salt label = Bytes.ofNat 16 (number salt label.toNat) := by
  rw [← toNat_start]
  exact (Bytes.ofNat_toNat_of_length (length_start salt label)).symm

/-- The last two octets of a start are zero, so its blocks can be numbered there. -/
theorem number_add_lt (salt : Octets 14) (label : UInt8) {i : Nat} (hi : i < 2 ^ 16)
    : number salt label.toNat + i < 256 ^ 16 := by
  have hlt := Bytes.toNat_lt (start salt label)
  have hparts : 256 ^ 16 = 2 ^ 112 * 2 ^ 16 := by norm_num
  rw [length_start, toNat_start, hparts] at hlt
  rw [hparts]
  unfold number at hlt ⊢
  have hsucc := Nat.lt_of_mul_lt_mul_right hlt
  apply Nat.lt_of_lt_of_le _ (Nat.mul_le_mul_right (2 ^ 16) hsucc)
  rw [Nat.succ_eq_add_one, Nat.add_mul, Nat.one_mul]
  exact Nat.add_lt_add_left hi _

theorem counters_eq_map (salt : Octets 14) (label : UInt8) (n : Nat)
    : counters salt label n =
        (List.range ((n + 15) / 16)).map fun i => Bytes.ofNat 16 (number salt label.toNat + i) := by
  unfold counters CounterMode.counters
  rw [toNat_start]

theorem counters_eq (hn : n ≤ maxStream)
    : (counters salt label n).map Bytes.toNat = List.range' (number salt label.toNat) ((n + 15) / 16) := by
  unfold maxStream at hn
  rw [counters_eq_map, List.map_map, List.range'_eq_map_range]
  apply List.map_congr_left
  intro i hi
  rw [List.mem_range] at hi
  have hfits := number_add_lt salt label (i := i) (by omega)
  rw [Function.comp_apply, Bytes.toNat_ofNat_of_lt hfits]

theorem counters_disjoint (hn : n ≤ maxStream) (hn' : n' ≤ maxStream) (hne : label ≠ label')
    : (counters salt label n).Disjoint (counters salt label' n') := by
  intro block h h'
  have hmem := List.mem_map_of_mem (f := Bytes.toNat) h
  have hmem' := List.mem_map_of_mem (f := Bytes.toNat) h'
  rw [counters_eq hn, List.mem_range'_1] at hmem
  rw [counters_eq hn', List.mem_range'_1] at hmem'
  unfold maxStream at hn hn'
  unfold number at hmem hmem'
  have hnumber :
      Bytes.toNat salt.bytes ^^^ label.toNat * 2 ^ 48 = Bytes.toNat salt.bytes ^^^ label'.toNat * 2 ^ 48 := by
    omega
  have hlabel := Nat.xor_right_injective hnumber
  apply hne
  apply UInt8.toNat_inj.1
  omega

end SessionKeys

/-- The parts: a packet is encrypted from salt, source and index on, each shifted to its place in 128 bits and exclusive
or; a session key is what the cipher makes of the numbers from the salt on, which has the label 48 bits up and is itself
16 bits up; and none of these numbers is in two of the three streams. -/
theorem starts_as_numbers
    : (∀ (d : Direction) (source : UInt32) (sequenceNumber : UInt16),
        d.startInPlace source sequenceNumber = d.start source sequenceNumber ∧
        (d.start source sequenceNumber).length = 16 ∧
        Bytes.toNat (d.start source sequenceNumber) =
          Bytes.toNat (d.keys.salt.bytes.take 14) * 2 ^ 16 ^^^ source.toNat * 2 ^ 64 ^^^
            (d.rollover.toNat * 2 ^ 16 + sequenceNumber.toNat) * 2 ^ 16) ∧
      (∀ master : Master,
        let number := fun label => (Bytes.toNat master.salt.bytes ^^^ label * 2 ^ 48) * 2 ^ 16
        let blocks := fun label n => (List.range ((n + 15) / 16)).map fun i => Bytes.ofNat 16 (number label + i)
        let stream := fun label n => ((blocks label n).flatMap (Aes.encrypt master.key)).take n
        (∀ label, Bytes.maskAt (master.salt.bytes ++ [0, 0]) 7 [label] = SessionKeys.start master.salt label ∧
          SessionKeys.start master.salt label = Bytes.ofNat 16 (number label.toNat) ∧
          ∀ n, CounterMode.keystream master.key (SessionKeys.start master.salt label) n = stream label.toNat n) ∧
        (SessionKeys.derive master).key.bytes = stream 0 16 ∧
        (SessionKeys.derive master).auth.bytes = stream 1 96 ∧
        (SessionKeys.derive master).salt.bytes = stream 2 16 ∧
        (blocks 0 16).map Bytes.toNat = List.range' (number 0) 1 ∧
        (blocks 1 96).map Bytes.toNat = List.range' (number 1) 6 ∧
        (blocks 2 16).map Bytes.toNat = List.range' (number 2) 1 ∧
        [blocks 0 16, blocks 1 96, blocks 2 16].Pairwise List.Disjoint) := by
  constructor
  . intro d source sequenceNumber
    exact ⟨d.startInPlace_eq source sequenceNumber, d.length_start source sequenceNumber,
      d.toNat_start source sequenceNumber⟩
  . intro master number blocks stream
    have hblocks : ∀ (label : UInt8) n, SessionKeys.counters master.salt label n = blocks label.toNat n :=
      SessionKeys.counters_eq_map master.salt
    have hstream : ∀ (label : UInt8) n,
        CounterMode.keystream master.key (SessionKeys.start master.salt label) n = stream label.toNat n := by
      intro label n
      exact congrArg (fun blocks => (blocks.flatMap (Aes.encrypt master.key)).take n) (hblocks label n)
    have hdisjoint : ∀ (label label' : UInt8) n n', n ≤ 96 → n' ≤ 96 → label ≠ label' →
        (blocks label.toNat n).Disjoint (blocks label'.toNat n') := by
      intro label label' n n' hn hn' hne
      rw [← hblocks, ← hblocks]
      apply SessionKeys.counters_disjoint _ _ hne
      . exact Nat.le_trans hn (by decide)
      . exact Nat.le_trans hn' (by decide)
    have hrange : ∀ (label : UInt8) n, n ≤ 96 →
        (blocks label.toNat n).map Bytes.toNat = List.range' (number label.toNat) ((n + 15) / 16) := by
      intro label n hn
      rw [← hblocks]
      exact SessionKeys.counters_eq (Nat.le_trans hn (by decide))
    refine ⟨fun label => ⟨(SessionKeys.start_eq_maskAt master.salt label).symm,
      SessionKeys.start_eq master.salt label, hstream label⟩, hstream 0 16, hstream 1 96, hstream 2 16,
      hrange 0 16 (by decide), hrange 1 96 (by decide), hrange 2 16 (by decide), ?_⟩
    have hfirst : (blocks 0 16).Disjoint (blocks 1 96) := hdisjoint 0 1 16 96 (by decide) (by decide) (by decide)
    have hsecond : (blocks 0 16).Disjoint (blocks 2 16) := hdisjoint 0 2 16 16 (by decide) (by decide) (by decide)
    have hthird : (blocks 1 96).Disjoint (blocks 2 16) := hdisjoint 1 2 96 16 (by decide) (by decide) (by decide)
    rw [List.pairwise_cons, List.pairwise_pair]
    refine ⟨?_, hthird⟩
    intro other hother
    rw [List.mem_cons, List.mem_singleton] at hother
    rcases hother with rfl | rfl
    . exact hfirst
    . exact hsecond

end Intercom.Srtp
