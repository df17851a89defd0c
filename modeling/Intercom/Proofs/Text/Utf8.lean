import Mathlib
import Intercom.Text.Utf8

/-!
This module contains that text which is written in UTF-8 is read back, whatever its characters are.
-/

namespace Intercom.Utf8

variable {n bits owed : Nat} {low high : UInt8} {bs : Bytes}

theorem toNat_ofNat (h : n < 256) : (UInt8.ofNat n).toNat = n := by
  rw [UInt8.toNat_ofNat']
  exact Nat.mod_eq_of_lt h

theorem go_cons (s : Option Begun) (b : UInt8) (bs : Bytes)
    : read.go s (b :: bs) = (next s b).1 ++ read.go (next s b).2 bs := by
  cases s with
  | none => rfl
  | some s => rfl

theorem go_none_one (h : n < 0x80)
    : read.go none (UInt8.ofNat n :: bs) = some (Char.ofNat n) :: read.go none bs := by
  have hn : (UInt8.ofNat n).toNat = n := toNat_ofNat (by omega)
  rw [go_cons]
  simp only [next, first, lead, UInt8.lt_iff_toNat_lt, hn]
  rw [if_pos]
  . rfl
  . exact h

-- Where a character of two, three or four octets begins, the lead octet bounds the one that follows.
theorem go_none_two (hlow : 2 ≤ n) (hhigh : n < 32)
    : read.go none (UInt8.ofNat (n + 0xC0) :: bs) = read.go (some ⟨1, 0x80, 0xBF, n⟩) bs := by
  have hn : (UInt8.ofNat (n + 0xC0)).toNat = n + 0xC0 := toNat_ofNat (by omega)
  have hmod : (n + 0xC0) % 32 = n := by omega
  rw [go_cons]
  simp only [next, first, lead, UInt8.lt_iff_toNat_lt, hn]
  rw [if_neg, if_neg, if_pos]
  . simp only [hmod]
    rfl
  . simp
    omega
  . simp
    omega
  . simp

theorem go_none_three (h : n < 16)
    : read.go none (UInt8.ofNat (n + 0xE0) :: bs) =
        read.go (some ⟨2, if n = 0 then 0xA0 else 0x80, if n = 13 then 0x9F else 0xBF, n⟩) bs := by
  have hn : (UInt8.ofNat (n + 0xE0)).toNat = n + 0xE0 := toNat_ofNat (by omega)
  have hmod : (n + 0xE0) % 16 = n := by omega
  rw [go_cons]
  simp only [next, first, lead, UInt8.lt_iff_toNat_lt, ← UInt8.toNat_inj, hn]
  rw [if_neg, if_neg, if_neg, if_pos]
  . simp only [hmod]
    simp
  . simp
    omega
  . simp
  . simp
  . simp

theorem go_none_four (h : n < 5)
    : read.go none (UInt8.ofNat (n + 0xF0) :: bs) =
        read.go (some ⟨3, if n = 0 then 0x90 else 0x80, if n = 4 then 0x8F else 0xBF, n⟩) bs := by
  have hn : (UInt8.ofNat (n + 0xF0)).toNat = n + 0xF0 := toNat_ofNat (by omega)
  have hmod : (n + 0xF0) % 8 = n := by omega
  rw [go_cons]
  simp only [next, first, lead, UInt8.lt_iff_toNat_lt, ← UInt8.toNat_inj, hn]
  rw [if_neg, if_neg, if_neg, if_neg, if_pos]
  . simp only [hmod]
    simp
  . simp
    omega
  . simp
  . simp
  . simp
  . simp

theorem next_some (h : n < 64) (hlow : low.toNat ≤ n + 0x80) (hhigh : n + 0x80 ≤ high.toNat)
    : next (some ⟨owed, low, high, bits⟩) (UInt8.ofNat (n + 0x80)) =
        if owed ≤ 1 then ([some (Char.ofNat (bits * 64 + n))], none)
        else ([], some ⟨owed - 1, 0x80, 0xBF, bits * 64 + n⟩) := by
  have hn : (UInt8.ofNat (n + 0x80)).toNat = n + 0x80 := toNat_ofNat (by omega)
  have hmod : (n + 0x80) % 64 = n := by omega
  simp only [next, UInt8.le_iff_toNat_le, hn, hmod]
  rw [if_pos ⟨hlow, hhigh⟩]

theorem go_some_last (h : n < 64) (hlow : low.toNat ≤ n + 0x80) (hhigh : n + 0x80 ≤ high.toNat)
    : read.go (some ⟨1, low, high, bits⟩) (UInt8.ofNat (n + 0x80) :: bs) =
        some (Char.ofNat (bits * 64 + n)) :: read.go none bs := by
  rw [go_cons, next_some h hlow hhigh]
  rfl

theorem go_some_more (h : n < 64) (hlow : low.toNat ≤ n + 0x80) (hhigh : n + 0x80 ≤ high.toNat)
    : read.go (some ⟨owed + 2, low, high, bits⟩) (UInt8.ofNat (n + 0x80) :: bs) =
        read.go (some ⟨owed + 1, 0x80, 0xBF, bits * 64 + n⟩) bs := by
  rw [go_cons, next_some h hlow hhigh, if_neg]
  . rfl
  . omega

theorem go_utf8EncodeChar (c : Char) (rest : Bytes)
    : read.go none (String.utf8EncodeChar c ++ rest) = some c :: read.go none rest := by
  have hc : Char.ofNat c.val.toNat = c := Char.ofNat_toNat c
  have hvalid := c.valid
  unfold UInt32.isValidChar Nat.isValidChar at hvalid
  unfold String.utf8EncodeChar
  generalize c.val.toNat = v at hc hvalid
  dsimp only
  split
  . rw [List.singleton_append, go_none_one]
    . rw [hc]
    . omega
  . split
    . have htwo : v / 64 % 32 * 64 + v % 64 = v := by omega
      simp only [List.cons_append, List.nil_append]
      rw [go_none_two, go_some_last, htwo, hc]
      . omega
      . simp
      . simp
        omega
      . omega
      . omega
    . split
      . have hthree : (v / 4096 % 16 * 64 + v / 64 % 64) * 64 + v % 64 = v := by omega
        simp only [List.cons_append, List.nil_append]
        rw [go_none_three, go_some_more, go_some_last, hthree, hc]
        . omega
        . simp
        . simp
          omega
        . omega
        . split
          . simp
            omega
          . simp
        . split
          . simp
            omega
          . simp
            omega
        . omega
      . have hfour : ((v / 262144 % 8 * 64 + v / 4096 % 64) * 64 + v / 64 % 64) * 64 + v % 64 = v := by
          omega
        simp only [List.cons_append, List.nil_append]
        rw [go_none_four, go_some_more, go_some_more, go_some_last, hfour, hc]
        . omega
        . simp
        . simp
          omega
        . omega
        . simp
        . simp
          omega
        . omega
        . split
          . simp
            omega
          . simp
        . split
          . simp
            omega
          . simp
            omega
        . omega

theorem read_encode (text : String) : read (encode text) = text.toList.map some := by
  unfold read encode
  induction text.toList with
  | nil => rfl
  | cons c cs ih => rw [List.flatMap_cons, go_utf8EncodeChar, ih, List.map_cons]

theorem decodeLossy_encode (text : String) : decodeLossy (encode text) = text := by
  unfold decodeLossy
  rw [read_encode, List.map_map]
  simp

end Intercom.Utf8
