import Mathlib
import Intercom.Text.Reader
import Intercom.Proofs.Json.Number

/-!
This module contains what readers take from the front of a text, step by step: the parts of a sequence, the first of
two that succeeds, and digits up to the first character that is none.
-/

namespace Intercom.Text

namespace Reader

variable {α β : Type} {r r' : Reader α} {f : α → Reader β} {a : α} {c : Char} {text rest : List Char}

theorem bind_of_some (h : r text = some (a, rest)) : (r >>= f) text = f a rest := by
  change (r text).bind (fun p => f p.1 p.2) = _
  rw [h, Option.bind_some]

theorem bind_of_none (h : r text = none) : (r >>= f) text = none := by
  change (r text).bind (fun p => f p.1 p.2) = _
  rw [h, Option.bind_none]

theorem map_of_some {g : α → β} (h : r text = some (a, rest)) : (g <$> r) text = some (g a, rest) := by
  change (r text).bind (fun p => some (g p.1, p.2)) = _
  rw [h, Option.bind_some]

theorem map_of_none {g : α → β} (h : r text = none) : (g <$> r) text = none := by
  change (r text).bind (fun p => some (g p.1, p.2)) = _
  rw [h, Option.bind_none]

theorem liftM_of_some {value? : Option α} (h : value? = some a) : (liftM value? : Reader α) text = some (a, text) := by
  rw [h]
  rfl

theorem orElse_of_some (h : r text = some (a, rest)) : (r <|> r') text = some (a, rest) := by
  change (r text).orElse _ = _
  rw [h]
  rfl

theorem orElse_of_none (h : r text = none) : (r <|> r') text = r' text := by
  change (r text).orElse _ = _
  rw [h]
  rfl

theorem optional_of_none (h : r text = none) : optional r text = some (none, text) := by
  unfold optional
  rw [orElse_of_none]
  . rfl
  . exact map_of_none h

theorem guard_of_pos {p : Prop} [Decidable p] (h : p) : (guard p : Reader Unit) text = some ((), text) := by
  unfold guard
  rw [if_pos h]
  rfl

theorem guard_of_neg {p : Prop} [Decidable p] (h : ¬ p) : (guard p : Reader Unit) text = none := by
  unfold guard
  rw [if_neg h]
  rfl

theorem guard_bind_of_none {p : Prop} [Decidable p] (h : r text = none)
    : ((guard p : Reader Unit) >>= fun _ => r) text = none := by
  by_cases hp : p
  . rw [bind_of_some (guard_of_pos hp), h]
  . exact bind_of_none (guard_of_neg hp)

theorem char_cons : char c (c :: text) = some ((), text) := by
  change (satisfy (· = c) (c :: text)).bind (fun p => some ((), p.2)) = _
  simp [satisfy]

theorem char_of_head? (h : text.head? ≠ some c) : char c text = none := by
  change (satisfy (· = c) text).bind (fun p => some ((), p.2)) = _
  cases text with
  | nil => rfl
  | cons d text =>
    rw [List.head?_cons, ne_eq, Option.some.injEq] at h
    simp [satisfy, h]

theorem char_seqRight : (char c *> r) (c :: text) = r text :=
  bind_of_some char_cons

theorem char_seqRight_of_head? (h : text.head? ≠ some c) : (char c *> r) text = none :=
  bind_of_none (char_of_head? h)

theorem whole?_of_some {s : String} (h : r s.toList = some (a, [])) : r.whole? s = some a := by
  unfold whole?
  rw [h]

theorem whole?_of_none {s : String} (h : r s.toList = none) : r.whole? s = none := by
  unfold whole?
  rw [h]

end Reader

section Digits

open Reader

variable {value? : Char → Option Nat} {cs rest : List Char}

theorem many_digit (text : List Char)
    : many (digit value?) text =
        some ((text.takeWhile fun c => (value? c).isSome).filterMap value?,
          text.dropWhile fun c => (value? c).isSome) := by
  unfold many
  rw [Option.some.injEq]
  induction text with
  | nil => rfl
  | cons c text ih =>
    cases h : value? c with
    | none => simp [many.go, digit, h]
    | some d => simp [many.go, digit, h, ih]

theorem many1_digit (text : List Char)
    : many1 (digit value?) text =
        if text.takeWhile (fun c => (value? c).isSome) = [] then none
        else some ((text.takeWhile fun c => (value? c).isSome).filterMap value?,
          text.dropWhile fun c => (value? c).isSome) := by
  unfold many1
  cases text with
  | nil => rfl
  | cons c text =>
    cases h : value? c with
    | none =>
      rw [bind_of_none (by simp [digit, h]), if_pos (by simp [h])]
    | some d =>
      have hdigit : digit value? (c :: text) = some (d, text) := by simp [digit, h]
      rw [bind_of_some hdigit, bind_of_some (many_digit text), if_neg (by simp [h])]
      simp [h]
      rfl

theorem many1_digit_append (hne : cs ≠ []) (hcs : ∀ c ∈ cs, (value? c).isSome)
    (hrest : ∀ c ∈ rest.head?, value? c = none)
    : many1 (digit value?) (cs ++ rest) = some (cs.filterMap value?, rest) := by
  have hstop : rest.takeWhile (fun c => (value? c).isSome) = [] ∧
      rest.dropWhile (fun c => (value? c).isSome) = rest := by
    cases rest with
    | nil => exact ⟨rfl, rfl⟩
    | cons c rest =>
      have hc := hrest c rfl
      exact ⟨by simp [hc], by simp [hc]⟩
  rw [many1_digit, List.takeWhile_append_of_pos hcs, List.dropWhile_append_of_pos hcs, hstop.1, hstop.2,
    List.append_nil, if_neg hne]

theorem isSome_decimalValue? (c : Char) : (decimalValue? c).isSome = c.isDigit := by
  unfold decimalValue?
  split
  . next h => simp [h]
  . next h => simp [h]

theorem filterMap_toDigits (n : Nat)
    : (Nat.toDigits 10 n).filterMap decimalValue? = (Nat.toDigits 10 n).map fun c => c.toNat - 48 := by
  rw [← List.filterMap_eq_map]
  apply List.filterMap_congr
  intro c hc
  unfold decimalValue?
  rw [if_pos (Json.isDigit_of_mem_toDigits n hc)]
  rfl

theorem natOf_toDigits (n : Nat) : natOf 10 ((Nat.toDigits 10 n).filterMap decimalValue?) = n := by
  have hvalue := Json.digitsValue_toDigits n
  unfold Json.digitsValue at hvalue
  unfold natOf
  rw [filterMap_toDigits, List.foldl_map, hvalue]

theorem length_toDigits_of_head?_zero {n : Nat} (h : ((Nat.toDigits 10 n).filterMap decimalValue?).head? = some 0)
    : ((Nat.toDigits 10 n).filterMap decimalValue?).length = 1 := by
  rw [filterMap_toDigits, List.head?_map, Option.map_eq_some_iff] at h
  rcases h with ⟨c, hc, hzero⟩
  have hdigit := Json.isDigit_of_mem_toDigits n (List.mem_of_head? hc)
  rw [Char.isDigit_iff_toNat] at hdigit
  have hchar : c = '0' := by
    have : '0'.toNat = 48 := rfl
    apply Char.toNat_inj.1
    omega
  rw [filterMap_toDigits, List.length_map]
  apply Json.length_toDigits_of_head?
  rw [hc, hchar]

theorem many1_toDigits (n : Nat) (h : ∀ c ∈ rest.head?, c.isDigit = false)
    : many1 (digit decimalValue?) (Nat.toDigits 10 n ++ rest) =
        some ((Nat.toDigits 10 n).filterMap decimalValue?, rest) := by
  apply many1_digit_append Nat.toDigits_ne_nil
  . intro c hc
    rw [isSome_decimalValue?]
    exact Json.isDigit_of_mem_toDigits n hc
  . intro c hc
    rw [← Option.not_isSome_iff_eq_none, isSome_decimalValue?, h c hc]
    decide

end Digits

end Intercom.Text
