import Mathlib
import Intercom.Json.Number

/-!
This module contains the reading of whole numbers: the digits that are written for a number that fits 64
bits are read as that number.
-/

namespace Intercom

namespace Double

theorem round_le (n : Nat) : round n ≤ 2 * n := by
  unfold round
  split
  . omega
  . next hlog =>
    have hne : n ≠ 0 := by
      rintro rfl
      simp at hlog
    have hunit : 1 <<< (n.log2 - 52) ≤ n := by
      rw [Nat.one_shiftLeft]
      apply Nat.le_trans _ (Nat.log2_self_le hne)
      apply Nat.pow_le_pow_right (by decide) (by omega)
    have hquotient := Nat.div_mul_le_self n (1 <<< (n.log2 - 52))
    dsimp only
    split
    . rw [Nat.add_mul, Nat.one_mul]
      omega
    . omega

end Double

namespace Json

theorem isDigit_of_mem_toDigits {c : Char} (n : Nat) (h : c ∈ Nat.toDigits 10 n) : c.isDigit = true := by
  induction n using Nat.strongRecOn with
  | ind n ih =>
    rw [Nat.toDigits_eq_if (by decide)] at h
    split at h
    . next hlt =>
      rw [List.mem_singleton] at h
      rw [h, Nat.isDigit_digitChar]
      exact decide_eq_true hlt
    . rw [List.mem_append, List.mem_singleton] at h
      rcases h with h | h
      . exact ih (n / 10) (by omega) h
      . rw [h, Nat.isDigit_digitChar]
        exact decide_eq_true (Nat.mod_lt n (by decide))

theorem head?_toDigits {n : Nat} (h : 0 < n) : (Nat.toDigits 10 n).head? ≠ some '0' := by
  induction n using Nat.strongRecOn with
  | ind n ih =>
    rw [Nat.toDigits_eq_if (by decide)]
    split
    . simp only [List.head?_cons, ne_eq, Option.some.injEq, Nat.digitChar_eq_zero]
      omega
    . rw [List.head?_append_of_ne_nil _ Nat.toDigits_ne_nil]
      exact ih (n / 10) (by omega) (by omega)

theorem length_toDigits_of_head? (n : Nat) (h : (Nat.toDigits 10 n).head? = some '0')
    : (Nat.toDigits 10 n).length = 1 := by
  rcases Nat.eq_zero_or_pos n with rfl | hpos
  . rfl
  . exact absurd h (head?_toDigits hpos)

theorem digitsValue_eq (ds : List Char) : digitsValue ds = Nat.ofDigitChars 10 ds 0 := by
  unfold digitsValue
  rw [Nat.ofDigitChars_eq_foldl]
  simp only [Nat.mul_comm]
  rfl

theorem digitsValue_toDigits (n : Nat) : digitsValue (Nat.toDigits 10 n) = n := by
  rw [digitsValue_eq]
  exact Nat.ofDigitChars_ten_toDigits

theorem le_ofDigitChars (ds : List Char) (n : Nat) : n ≤ Nat.ofDigitChars 10 ds n := by
  rw [Nat.ofDigitChars_eq_ofDigitChars_zero]
  have := Nat.le_mul_of_pos_left n (Nat.pow_pos (n := ds.length) (show 0 < 10 by decide))
  omega

theorem takeDigits_of_lt (ds : List Char) (n : Nat) (h : Nat.ofDigitChars 10 ds n < UInt64.size)
    : takeDigits n ds = (Nat.ofDigitChars 10 ds n, []) := by
  induction ds generalizing n with
  | nil => rfl
  | cons d ds ih =>
    have hcons : Nat.ofDigitChars 10 (d :: ds) n = Nat.ofDigitChars 10 ds (n * 10 + (d.toNat - 48)) := by
      rw [Nat.ofDigitChars_cons, Nat.mul_comm]
      rfl
    rw [hcons] at h ⊢
    have hnext := le_ofDigitChars ds (n * 10 + (d.toNat - 48))
    unfold takeDigits
    dsimp only
    rw [if_pos (Nat.lt_of_le_of_lt hnext h)]
    exact ih _ h

theorem overflows_of_lt {n : Nat} (h : n < UInt64.size) : overflows n 0 = false := by
  have hround := Double.round_le n
  have hsmall : 2 * UInt64.size < Double.bound := by decide +kernel
  have hone : Double.round (Nat.pow 10 (0 : Int).toNat) = 1 := by decide +kernel
  unfold overflows
  split
  . rfl
  . rw [if_neg (by decide), hone, Nat.mul_one]
    exact decide_eq_false (by omega)

theorem spanDigits_of_isDigit {ds : List Char} (h : ∀ c ∈ ds, c.isDigit = true) : spanDigits ds = (ds, []) := by
  unfold spanDigits
  rw [List.takeWhile_eq_self_iff.mpr h, List.dropWhile_eq_nil_iff.mpr h]

namespace Literal

theorem ofChars?_digits (negative : Bool) (n : Nat)
    : ofChars? (if negative then '-' :: Nat.toDigits 10 n else Nat.toDigits 10 n) =
        some ⟨negative, Nat.toDigits 10 n, none, none⟩ := by
  have hspan := spanDigits_of_isDigit fun c => isDigit_of_mem_toDigits (c := c) n
  have hminus : ∀ cs, Nat.toDigits 10 n ≠ '-' :: cs := by
    intro cs heq
    have := isDigit_of_mem_toDigits (c := '-') n (by simp [heq])
    contradiction
  unfold ofChars?
  split
  next sign cs hsign =>
    have hparts : sign = negative ∧ cs = Nat.toDigits 10 n := by
      cases negative with
      | true => simpa [eq_comm] using hsign
      | false =>
        split at hsign
        . next cs heq => exact absurd heq (hminus cs)
        . simpa [eq_comm] using hsign
    rcases hparts with ⟨rfl, rfl⟩
    rw [hspan]
    dsimp only
    rw [if_neg]
    . rfl
    . rintro (hnil | ⟨hzero, hlength⟩)
      . exact Nat.toDigits_ne_nil hnil
      . exact hlength (length_toDigits_of_head? n hzero)

theorem overflows_toDigits {n : Nat} (negative : Bool) (h : n < UInt64.size)
    : (Literal.mk negative (Nat.toDigits 10 n) none none).overflows = false := by
  have htake : takeDigits 0 (Nat.toDigits 10 n) = (n, []) := by
    have hvalue : Nat.ofDigitChars 10 (Nat.toDigits 10 n) 0 = n := Nat.ofDigitChars_ten_toDigits
    rw [takeDigits_of_lt _ _ (by rwa [hvalue]), hvalue]
  unfold overflows
  dsimp only [Option.getD]
  rw [htake]
  exact overflows_of_lt h

end Literal

namespace Number

/-- Whole, with 64 bits: signed below zero, unsigned otherwise. -/
def Fits : Number → Prop
  | .whole z => Int64.minValue.toInt ≤ z ∧ z < UInt64.size
  | .other _ => False

theorem ofChars?_text {n : Number} (h : n.Fits) : ofChars? n.text = some n := by
  cases n with
  | other => contradiction
  | whole z =>
    rcases h with ⟨hmin, hmax⟩
    have hfits : z.natAbs < UInt64.size := by
      have : Int64.minValue.toInt = -9223372036854775808 := by decide
      have : UInt64.size = 18446744073709551616 := rfl
      omega
    have hread := Literal.ofChars?_digits (decide (z < 0)) z.natAbs
    simp only [decide_eq_true_eq] at hread
    unfold ofChars?
    simp only [text, hread, Option.bind_eq_bind, Option.bind_some, Literal.overflows_toDigits _ hfits,
      digitsValue_toDigits]
    rcases Int.lt_or_le z 0 with hneg | hpos
    . have hz : -(z.natAbs : Int) = z := by omega
      have hne : 0 < z.natAbs := by omega
      simp [hneg, hz, hne, -Nat.cast_natAbs]
      exact hmin
    . have hz : (z.natAbs : Int) = z := by omega
      have hnonneg : ¬ z < 0 := by omega
      simp [hnonneg, hz, hfits, -Nat.cast_natAbs]

end Number

end Json

end Intercom
