import Mathlib
import Intercom.Bytes

/-!
This module contains what the big-endian numbers inside octet strings are worth, `toNat_ofNat` and
`ofNat_toNat`, how they are cut off again, and that masking twice restores what was masked.
-/

namespace Intercom.Bytes

theorem ofNat_succ (width x : Nat) :
    ofNat (width + 1) x = UInt8.ofNat (x / 256 ^ width) :: ofNat width x := by
  rw [ofNat, Nat.shiftRight_eq_div_pow, Nat.pow_mul]

theorem toNat.foldl_eq (bs : Bytes) (n : Nat) :
    bs.foldl (fun n b => n * 256 + b.toNat) n = n * 256 ^ bs.length + toNat bs := by
  induction bs generalizing n with
  | nil => simp [toNat]
  | cons b bs ih =>
    have cons : toNat (b :: bs) = b.toNat * 256 ^ bs.length + toNat bs := by
      rw [toNat, List.foldl_cons, ih]
      simp
    rw [List.foldl_cons, ih, cons, List.length_cons, Nat.pow_succ]
    grind

@[simp]
theorem toNat_nil : toNat [] = 0 := rfl

theorem toNat_cons (b : UInt8) (bs : Bytes) : toNat (b :: bs) = b.toNat * 256 ^ bs.length + toNat bs := by
  rw [toNat, List.foldl_cons, toNat.foldl_eq]
  simp

theorem toNat_append (a b : Bytes) : toNat (a ++ b) = toNat a * 256 ^ b.length + toNat b := by
  unfold toNat
  rw [List.foldl_append]
  apply toNat.foldl_eq

theorem toNat_ofNat (width x : Nat) : toNat (ofNat width x) = x % 256 ^ width := by
  induction width with
  | zero => simp [ofNat, Nat.mod_one]
  | succ width ih =>
    rw [ofNat_succ, toNat_cons, ih, length_ofNat]
    have := Nat.mod_mul (x := x) (a := 256 ^ width) (b := 256)
    simp only [UInt8.toNat_ofNat', Nat.pow_succ, this]
    grind

theorem toNat_lt (bs : Bytes) : toNat bs < 256 ^ bs.length := by
  induction bs with
  | nil => simp
  | cons b bs ih =>
    rw [toNat_cons, List.length_cons, Nat.pow_succ]
    have := b.toNat_lt
    have : (b.toNat + 1) * 256 ^ bs.length ≤ 256 * 256 ^ bs.length := Nat.mul_le_mul_right _ (by omega)
    grind

theorem ofNat_toNat (bs : Bytes) : ofNat bs.length (toNat bs) = bs := by
  suffices h : ∀ x, x % 256 ^ bs.length = toNat bs → ofNat bs.length x = bs from
    h _ (Nat.mod_eq_of_lt (toNat_lt bs))
  induction bs with
  | nil => simp [ofNat]
  | cons b bs ih =>
    intro x hx
    have hpos : 0 < 256 ^ bs.length := Nat.pow_pos (by omega)
    rw [toNat_cons, List.length_cons, Nat.pow_succ, Nat.mod_mul] at hx
    have hlow : x % 256 ^ bs.length = toNat bs := by
      have := congrArg (· % 256 ^ bs.length) hx
      simpa [Nat.add_mul_mod_self_left, Nat.mod_eq_of_lt (toNat_lt bs)] using this
    have hhigh : x / 256 ^ bs.length % 256 = b.toNat := by
      rw [hlow, Nat.add_comm, Nat.mul_comm, Nat.add_right_cancel_iff] at hx
      exact Nat.eq_of_mul_eq_mul_right hpos hx
    have hb : UInt8.ofNat (x / 256 ^ bs.length) = b := UInt8.toNat_inj.1 (by simpa using hhigh)
    rw [List.length_cons, ofNat_succ, ih x hlow, hb]

theorem ofNat_toNat_of_length {width : Nat} {bs : Bytes} (h : bs.length = width) : ofNat width (toNat bs) = bs := by
  rw [← h, ofNat_toNat]

theorem toNat_ofNat_of_lt {width x : Nat} (h : x < 256 ^ width) : toNat (ofNat width x) = x := by
  rw [toNat_ofNat]
  exact Nat.mod_eq_of_lt h

theorem ofNat_injective {width x y : Nat} (hx : x < 256 ^ width) (hy : y < 256 ^ width)
    (h : ofNat width x = ofNat width y) : x = y := by
  rw [← toNat_ofNat_of_lt hx, h, toNat_ofNat_of_lt hy]

theorem cut?_of_le {n : Nat} {bs : Bytes} (h : n ≤ bs.length) : cut? n bs = some (bs.take n, bs.drop n) := by
  rw [cut?_eq_some_iff]
  exact ⟨List.length_take_of_le h, (List.take_append_drop n bs).symm⟩

theorem cut?_ofNat_append (width x : Nat) (rest : Bytes)
    : cut? width (ofNat width x ++ rest) = some (ofNat width x, rest) := by
  rw [cut?_eq_some_iff]
  exact ⟨length_ofNat width x, rfl⟩

theorem xor_xor (a mask : Bytes) (h : a.length ≤ mask.length) : xor (xor a mask) mask = a := by
  unfold xor
  induction a generalizing mask with
  | nil => simp
  | cons b a ih =>
    cases mask with
    | nil => simp at h
    | cons m mask =>
      simp only [List.zipWith_cons_cons, List.cons.injEq]
      refine ⟨?_, ih mask ?_⟩
      . rw [UInt8.xor_assoc, UInt8.xor_self, UInt8.xor_zero]
      . simpa using h

theorem xor_comm (a b : Bytes) : xor a b = xor b a := by
  unfold xor
  apply List.zipWith_comm_of_comm
  apply UInt8.xor_comm

theorem xor_injective {a b mask : Bytes} (ha : a.length ≤ mask.length) (hb : b.length ≤ mask.length)
    (h : xor mask a = xor mask b) : a = b := by
  rw [← xor_xor a mask ha, xor_comm a mask, h, xor_comm mask b, xor_xor b mask hb]

theorem ofNat_mod (width x : Nat) : ofNat width (x % 256 ^ width) = ofNat width x := by
  rw [← toNat_ofNat]
  exact ofNat_toNat_of_length (length_ofNat width x)

theorem mul_xor_of_lt {k b : Nat} (a : Nat) (h : b < 2 ^ k) : a * 2 ^ k ^^^ b = a * 2 ^ k + b := by
  apply Nat.eq_of_testBit_eq
  intro i
  rw [Nat.mul_comm, Nat.testBit_xor, Nat.testBit_two_pow_mul_add a h, Nat.testBit_two_pow_mul]
  by_cases hi : i < k
  . simp [hi, Nat.not_le.2 hi]
  . have hb : b.testBit i = false := by
      apply Nat.testBit_lt_two_pow
      exact Nat.lt_of_lt_of_le h (Nat.pow_le_pow_right (by decide) (by omega))
    simp [hi, hb, Nat.not_lt.1 hi]

theorem toNat_xor {a b : Bytes} (h : a.length = b.length) : toNat (xor a b) = toNat a ^^^ toNat b := by
  induction a generalizing b with
  | nil =>
    cases b with
    | nil => rfl
    | cons y ys => simp at h
  | cons x xs ih =>
    cases b with
    | nil => simp at h
    | cons y ys =>
      rw [List.length_cons, List.length_cons, Nat.add_right_cancel_iff] at h
      have hpow : 256 ^ xs.length = 2 ^ (8 * xs.length) := by
        rw [Nat.pow_mul]
      have hx := toNat_lt xs
      have hy := toNat_lt ys
      have hxor : xor (x :: xs) (y :: ys) = (x ^^^ y) :: xor xs ys := rfl
      have hlength : (xor xs ys).length = xs.length := by
        simp [xor, h]
      rw [hpow] at hx
      rw [← h, hpow] at hy
      rw [hxor, toNat_cons, toNat_cons, toNat_cons, ih h, UInt8.toNat_xor, hlength, ← h, hpow]
      rw [← mul_xor_of_lt _ hx, ← mul_xor_of_lt _ hy, ← mul_xor_of_lt _ (Nat.xor_lt_two_pow hx hy),
        ← Nat.shiftLeft_eq, Nat.shiftLeft_xor_distrib, Nat.shiftLeft_eq, Nat.shiftLeft_eq]
      ac_rfl

end Intercom.Bytes
