import Mathlib
import Intercom.Bytes.Lemmas

/-!
This module contains masking at a place: octets of a block are masked one after the other, and the block as a number is
masked with the number of the mask, moved to that place.
-/

namespace Intercom.Bytes

variable {block mask a b : Bytes} {place : Nat}

def maskAt (block : Bytes) (place : Nat) : (mask : Bytes) → Bytes
  | [] => block
  | x :: mask => maskAt (block.modify place (· ^^^ x)) (place + 1) mask

@[simp]
theorem length_maskAt (block : Bytes) (place : Nat) (mask : Bytes)
    : (maskAt block place mask).length = block.length := by
  induction mask generalizing block place with
  | nil => rfl
  | cons x mask ih => rw [maskAt, ih, List.length_modify]

theorem toNat_zeros (n : Nat) : toNat (List.replicate n 0) = 0 := by
  induction n with
  | zero => rfl
  | succ n ih => rw [List.replicate_succ, toNat_cons, ih, UInt8.toNat_zero, Nat.zero_mul]

theorem toNat_filled (a : Bytes) : toNat (a ++ [0, 0]) = toNat a * 2 ^ 16 := by
  have hzeros : toNat [0, 0] = 0 := rfl
  rw [toNat_append, hzeros, Nat.add_zero]
  norm_num

theorem xor_zeros (a : Bytes) : xor a (List.replicate a.length 0) = a := by
  induction a with
  | nil => rfl
  | cons x a ih =>
    have hcons : xor (x :: a) (List.replicate (x :: a).length 0) = (x ^^^ 0) :: xor a (List.replicate a.length 0) := rfl
    rw [hcons, ih, UInt8.xor_zero]

theorem modify_eq_xor (x : UInt8) (h : place < block.length)
    : block.modify place (· ^^^ x) =
        xor block (List.replicate place 0 ++ x :: List.replicate (block.length - place - 1) 0) := by
  induction block generalizing place with
  | nil => simp at h
  | cons y block ih =>
    cases place with
    | zero =>
      have hcons : xor (y :: block) (x :: List.replicate block.length 0) =
          (y ^^^ x) :: xor block (List.replicate block.length 0) := rfl
      rw [List.modify_zero_cons, List.replicate_zero, List.nil_append, List.length_cons, Nat.sub_zero,
        Nat.add_sub_cancel, hcons, xor_zeros]
    | succ place =>
      rw [List.length_cons, Nat.add_lt_add_iff_right] at h
      have hlength : block.length + 1 - (place + 1) - 1 = block.length - place - 1 := by omega
      rw [List.modify_succ_cons, ih h, List.length_cons, hlength, List.replicate_succ, List.cons_append]
      have hcons : ∀ c, xor (y :: block) (0 :: c) = (y ^^^ 0) :: xor block c := fun _ => rfl
      rw [hcons, UInt8.xor_zero]

theorem toNat_modify (x : UInt8) (h : place < block.length)
    : toNat (block.modify place (· ^^^ x)) = toNat block ^^^ x.toNat * 256 ^ (block.length - place - 1) := by
  have hlength : block.length =
      (List.replicate place (0 : UInt8) ++ x :: List.replicate (block.length - place - 1) 0).length := by
    simp
    omega
  rw [modify_eq_xor x h, toNat_xor hlength, toNat_append, toNat_cons, toNat_zeros, toNat_zeros, List.length_replicate,
    Nat.zero_mul, Nat.zero_add, Nat.add_zero]

theorem pow_eq (n : Nat) : 256 ^ n = 2 ^ (8 * n) := by
  rw [Nat.pow_mul]

theorem xor_mul_pow (x y n : Nat) : (x ^^^ y) * 256 ^ n = x * 256 ^ n ^^^ y * 256 ^ n := by
  rw [pow_eq, ← Nat.shiftLeft_eq, ← Nat.shiftLeft_eq, ← Nat.shiftLeft_eq, Nat.shiftLeft_xor_distrib]

/-- The mask counts in units of the octets that it leaves alone behind it. -/
theorem toNat_maskAt (h : place + mask.length ≤ block.length)
    : toNat (maskAt block place mask) = toNat block ^^^ toNat mask * 256 ^ (block.length - place - mask.length) := by
  induction mask generalizing block place with
  | nil => simp [maskAt]
  | cons x mask ih =>
    rw [List.length_cons] at h ⊢
    have hfirst : block.length - place - 1 = mask.length + (block.length - place - (mask.length + 1)) := by omega
    have hrest : block.length - (place + 1) - mask.length = block.length - place - (mask.length + 1) := by omega
    have hmask : toNat (x :: mask) = x.toNat * 256 ^ mask.length ^^^ toNat mask := by
      have hlt := toNat_lt mask
      rw [pow_eq] at hlt ⊢
      rw [toNat_cons, pow_eq, mul_xor_of_lt _ hlt]
    rw [maskAt, ih (by rw [List.length_modify]; omega), List.length_modify, toNat_modify x (by omega), hfirst, hrest,
      hmask, xor_mul_pow, Nat.xor_assoc, Nat.pow_add, ← Nat.mul_assoc]

theorem eq_of_toNat_eq (hlength : a.length = b.length) (h : toNat a = toNat b) : a = b := by
  rw [← ofNat_toNat a, h, hlength, ofNat_toNat]

end Intercom.Bytes
