import Mathlib
import Intercom.Proofs.Text.Utf8

/-!
This module contains what is read from octets that need not be UTF-8. Where they are none a replacement is read, and
colons are read where they stand.
-/

namespace Intercom.Utf8

def Valid (bs : Bytes) : Prop :=
  ∃ text, encode text = bs

def replacement : Char := Char.ofNat 0xFFFD

def colon : UInt8 := 0x3A

variable {bs front rest : Bytes} {b : UInt8} {s : Begun}

theorem encode_append (text text' : String) : encode (text ++ text') = encode text ++ encode text' := by
  unfold encode
  rw [String.toList_append, List.flatMap_append]

theorem Valid.append (hfront : Valid front) (hrest : Valid rest) : Valid (front ++ rest) := by
  rcases hfront with ⟨text, rfl⟩
  rcases hrest with ⟨text', rfl⟩
  exact ⟨text ++ text', encode_append text text'⟩

section Colons

/-- A character that has begun goes on with octets from `0x80` to `0xBF`, and is none that one octet spells. -/
structure Begun.Proper (s : Begun) : Prop where
  low : 0x80 ≤ s.low.toNat
  high : s.high.toNat ≤ 0xBF
  bits : 1 ≤ s.bits ∨ 2 ≤ s.owed ∧ 0x80 < s.low.toNat

theorem Begun.proper_iff : s.Proper ↔ 0x80 ≤ s.low.toNat ∧ s.high.toNat ≤ 0xBF ∧
    (1 ≤ s.bits ∨ 2 ≤ s.owed ∧ 0x80 < s.low.toNat) :=
  ⟨fun h => ⟨h.low, h.high, h.bits⟩, fun h => ⟨h.1, h.2.1, h.2.2⟩⟩

instance : Decidable s.Proper :=
  decidable_of_iff _ Begun.proper_iff.symm

theorem first_proper (b : UInt8) : (∀ s ∈ (first b).2, s.Proper) ∧ (some ':' ∈ (first b).1 → b = colon) := by
  have hall : ∀ n < 256,
      (∀ s ∈ (first (UInt8.ofNat n)).2, s.Proper) ∧
        (some ':' ∈ (first (UInt8.ofNat n)).1 → UInt8.ofNat n = colon) := by
    decide +kernel
  have hb := hall b.toNat b.toNat_lt
  rw [UInt8.ofNat_toNat] at hb
  exact hb

theorem ofNat_ne_colon {n : Nat} (h : n ≠ 58) : Char.ofNat n ≠ ':' := by
  intro heq
  have hcolon := congrArg Char.toNat heq
  rw [Char.toNat_ofNat] at hcolon
  split at hcolon
  . exact h hcolon
  . simp at hcolon

/-- An octet keeps what has begun proper, and only a colon is read as one. -/
theorem next_proper {st : Option Begun} (h : ∀ s ∈ st, s.Proper) (b : UInt8)
    : (∀ s ∈ (next st b).2, s.Proper) ∧ (some ':' ∈ (next st b).1 → b = colon) := by
  cases st with
  | none => exact first_proper b
  | some s =>
    rcases h s rfl with ⟨hlow, hhigh, hbits⟩
    unfold next
    dsimp only
    split
    . next hin =>
      rw [UInt8.le_iff_toNat_le, UInt8.le_iff_toNat_le] at hin
      have hpositive : 1 ≤ s.bits * 64 + b.toNat % 64 := by omega
      split
      . have hne : Char.ofNat (s.bits * 64 + b.toNat % 64) ≠ ':' := by
          apply ofNat_ne_colon
          omega
        simp [hne.symm]
      . refine ⟨?_, by simp⟩
        intro s' hs'
        rw [Option.mem_some_iff] at hs'
        rw [← hs']
        exact ⟨by simp, by simp, .inl hpositive⟩
    . refine ⟨(first_proper b).1, ?_⟩
      intro hmem
      rw [List.mem_cons] at hmem
      rcases hmem with hmem | hmem
      . simp at hmem
      . exact (first_proper b).2 hmem

theorem go_append_colon {st : Option Begun} (h : ∀ s ∈ st, s.Proper) (front rest : Bytes)
    : read.go st (front ++ colon :: rest) = read.go st front ++ some ':' :: read rest := by
  induction front generalizing st with
  | nil =>
    cases st with
    | none => rfl
    | some s =>
      have hlow := (h s rfl).low
      have hout : ¬ (s.low ≤ colon ∧ colon ≤ s.high) := by
        rw [UInt8.le_iff_toNat_le]
        change ¬ (s.low.toNat ≤ 58 ∧ _)
        omega
      have hnext : next (some s) colon = ([none, some ':'], none) := by
        unfold next
        dsimp only
        rw [if_neg hout]
        rfl
      rw [List.nil_append, go_cons, hnext]
      rfl
  | cons b front ih =>
    rw [List.cons_append, go_cons, go_cons, ih (next_proper h b).1, List.append_assoc]

theorem colon_mem_of_mem_go {st : Option Begun} (h : ∀ s ∈ st, s.Proper) (hmem : some ':' ∈ read.go st bs)
    : colon ∈ bs := by
  induction bs generalizing st with
  | nil =>
    cases st with
    | none => simp [read.go] at hmem
    | some s => simp [read.go] at hmem
  | cons b bs ih =>
    rw [go_cons, List.mem_append] at hmem
    rw [List.mem_cons]
    rcases hmem with hmem | hmem
    . left
      exact ((next_proper h b).2 hmem).symm
    . right
      exact ih (next_proper h b).1 hmem

theorem toList_decodeLossy (bs : Bytes) : (decodeLossy bs).toList = (read bs).map (·.getD replacement) := by
  apply String.toList_ofList

theorem toList_decodeLossy_append_colon (front rest : Bytes)
    : (decodeLossy (front ++ colon :: rest)).toList =
        (decodeLossy front).toList ++ ':' :: (decodeLossy rest).toList := by
  have hread : read (front ++ colon :: rest) = read front ++ some ':' :: read rest :=
    go_append_colon (by simp) front rest
  rw [toList_decodeLossy, hread, List.map_append, List.map_cons, toList_decodeLossy, toList_decodeLossy]
  rfl

theorem colon_not_mem_decodeLossy (h : colon ∉ bs) : ':' ∉ (decodeLossy bs).toList := by
  rw [toList_decodeLossy]
  intro hmem
  rw [List.mem_map] at hmem
  rcases hmem with ⟨c, hc, heq⟩
  apply h
  cases c with
  | none => exact absurd heq (by decide)
  | some c =>
    rw [Option.getD_some] at heq
    rw [heq] at hc
    exact colon_mem_of_mem_go (by simp) hc

end Colons

section Validity

variable {n m k l owed bits : Nat} {low high : UInt8}

theorem toNat_val_ofNat (h : n.isValidChar) : (Char.ofNat n).val.toNat = n := by
  have hn := Char.toNat_ofNat n
  rw [if_pos h] at hn
  exact hn

theorem encodeChar_one (h : n < 0x80) : String.utf8EncodeChar (Char.ofNat n) = [UInt8.ofNat n] := by
  have hvalid : n.isValidChar := .inl (by omega)
  unfold String.utf8EncodeChar
  rw [toNat_val_ofNat hvalid]
  dsimp only
  rw [if_pos (by omega)]

theorem encodeChar_two (hlow : 2 ≤ n) (hhigh : n < 32) (hm : m < 64)
    : String.utf8EncodeChar (Char.ofNat (n * 64 + m)) = [UInt8.ofNat (n + 0xC0), UInt8.ofNat (m + 0x80)] := by
  have hvalid : (n * 64 + m).isValidChar := .inl (by omega)
  have hn : (n * 64 + m) / 64 % 32 = n := by omega
  have hm' : (n * 64 + m) % 64 = m := by omega
  unfold String.utf8EncodeChar
  rw [toNat_val_ofNat hvalid]
  dsimp only
  rw [if_neg (by omega), if_pos (by omega), hn, hm']

theorem encodeChar_three (hn : n < 16) (hm : m < 64) (hk : k < 64) (hlow : n = 0 → 0x20 ≤ m) (hhigh : n = 13 → m < 0x20)
    : String.utf8EncodeChar (Char.ofNat ((n * 64 + m) * 64 + k)) =
        [UInt8.ofNat (n + 0xE0), UInt8.ofNat (m + 0x80), UInt8.ofNat (k + 0x80)] := by
  have hvalid : ((n * 64 + m) * 64 + k).isValidChar := by
    unfold Nat.isValidChar
    omega
  have hn' : ((n * 64 + m) * 64 + k) / 4096 % 16 = n := by omega
  have hm' : ((n * 64 + m) * 64 + k) / 64 % 64 = m := by omega
  have hk' : ((n * 64 + m) * 64 + k) % 64 = k := by omega
  unfold String.utf8EncodeChar
  rw [toNat_val_ofNat hvalid]
  dsimp only
  rw [if_neg (by omega), if_neg (by omega), if_pos (by omega), hn', hm', hk']

theorem encodeChar_four (hn : n < 5) (hm : m < 64) (hk : k < 64) (hl : l < 64) (hlow : n = 0 → 0x10 ≤ m)
    (hhigh : n = 4 → m < 0x10)
    : String.utf8EncodeChar (Char.ofNat (((n * 64 + m) * 64 + k) * 64 + l)) =
        [UInt8.ofNat (n + 0xF0), UInt8.ofNat (m + 0x80), UInt8.ofNat (k + 0x80), UInt8.ofNat (l + 0x80)] := by
  have hvalid : (((n * 64 + m) * 64 + k) * 64 + l).isValidChar := by
    unfold Nat.isValidChar
    omega
  have hn' : (((n * 64 + m) * 64 + k) * 64 + l) / 262144 % 8 = n := by omega
  have hm' : (((n * 64 + m) * 64 + k) * 64 + l) / 4096 % 64 = m := by omega
  have hk' : (((n * 64 + m) * 64 + k) * 64 + l) / 64 % 64 = k := by omega
  have hl' : (((n * 64 + m) * 64 + k) * 64 + l) % 64 = l := by omega
  unfold String.utf8EncodeChar
  rw [toNat_val_ofNat hvalid]
  dsimp only
  rw [if_neg (by omega), if_neg (by omega), if_neg (by omega), hn', hm', hk', hl']

theorem exists_of_go_some (hlow : 0x80 ≤ low.toNat) (hhigh : high.toNat ≤ 0xBF)
    (h : none ∉ read.go (some ⟨owed, low, high, bits⟩) bs)
    : ∃ n rest, n < 64 ∧ low.toNat ≤ n + 0x80 ∧ n + 0x80 ≤ high.toNat ∧ bs = UInt8.ofNat (n + 0x80) :: rest := by
  cases bs with
  | nil => simp [read.go] at h
  | cons b bs =>
    rw [go_cons] at h
    unfold next at h
    dsimp only at h
    split at h
    . next hin =>
      rw [UInt8.le_iff_toNat_le, UInt8.le_iff_toNat_le] at hin
      refine ⟨b.toNat - 0x80, bs, by omega, by omega, by omega, ?_⟩
      rw [Nat.sub_add_cancel (by omega), UInt8.ofNat_toNat]
    . simp at h

theorem exists_char_two (hlow : 2 ≤ n) (hhigh : n < 32) (h : none ∉ read.go none (UInt8.ofNat (n + 0xC0) :: bs))
    : ∃ c rest, UInt8.ofNat (n + 0xC0) :: bs = String.utf8EncodeChar c ++ rest := by
  rw [go_none_two hlow hhigh] at h
  rcases exists_of_go_some (by decide) (by decide) h with ⟨m, rest, hm, -, -, rfl⟩
  refine ⟨Char.ofNat (n * 64 + m), rest, ?_⟩
  rw [encodeChar_two hlow hhigh hm]
  rfl

theorem exists_char_three (hn : n < 16) (h : none ∉ read.go none (UInt8.ofNat (n + 0xE0) :: bs))
    : ∃ c rest, UInt8.ofNat (n + 0xE0) :: bs = String.utf8EncodeChar c ++ rest := by
  rw [go_none_three hn] at h
  have hbounds : 0x80 ≤ (if n = 0 then 0xA0 else 0x80 : UInt8).toNat ∧
      (if n = 13 then 0x9F else 0xBF : UInt8).toNat ≤ 0xBF := by
    split_ifs
    all_goals decide
  rcases exists_of_go_some hbounds.1 hbounds.2 h with ⟨m, rest, hm, hlow, hhigh, rfl⟩
  rw [go_some_more hm hlow hhigh] at h
  rcases exists_of_go_some (by decide) (by decide) h with ⟨k, rest, hk, -, -, rfl⟩
  refine ⟨Char.ofNat ((n * 64 + m) * 64 + k), rest, ?_⟩
  rw [encodeChar_three hn hm hk]
  . rfl
  . intro hzero
    rw [if_pos hzero] at hlow
    change 0xA0 ≤ m + 0x80 at hlow
    omega
  . intro hsurrogate
    rw [if_pos hsurrogate] at hhigh
    change m + 0x80 ≤ 0x9F at hhigh
    omega

theorem exists_char_four (hn : n < 5) (h : none ∉ read.go none (UInt8.ofNat (n + 0xF0) :: bs))
    : ∃ c rest, UInt8.ofNat (n + 0xF0) :: bs = String.utf8EncodeChar c ++ rest := by
  rw [go_none_four hn] at h
  have hbounds : 0x80 ≤ (if n = 0 then 0x90 else 0x80 : UInt8).toNat ∧
      (if n = 4 then 0x8F else 0xBF : UInt8).toNat ≤ 0xBF := by
    split_ifs
    all_goals decide
  rcases exists_of_go_some hbounds.1 hbounds.2 h with ⟨m, rest, hm, hlow, hhigh, rfl⟩
  rw [go_some_more hm hlow hhigh] at h
  rcases exists_of_go_some (by decide) (by decide) h with ⟨k, rest, hk, hlow', hhigh', rfl⟩
  rw [go_some_more hk hlow' hhigh'] at h
  rcases exists_of_go_some (by decide) (by decide) h with ⟨l, rest, hl, -, -, rfl⟩
  refine ⟨Char.ofNat (((n * 64 + m) * 64 + k) * 64 + l), rest, ?_⟩
  rw [encodeChar_four hn hm hk hl]
  . rfl
  . intro hzero
    rw [if_pos hzero] at hlow
    change 0x90 ≤ m + 0x80 at hlow
    omega
  . intro hlast
    rw [if_pos hlast] at hhigh
    change m + 0x80 ≤ 0x8F at hhigh
    omega

theorem lead_bounds (h : none ∉ read.go none (b :: bs)) : b.toNat < 0x80 ∨ 0xC2 ≤ b.toNat ∧ b.toNat < 0xF5 := by
  have hall : ∀ n < 256, none ∉ (first (UInt8.ofNat n)).1 → n < 0x80 ∨ 0xC2 ≤ n ∧ n < 0xF5 := by
    decide +kernel
  apply hall b.toNat b.toNat_lt
  rw [go_cons, List.mem_append, not_or] at h
  rw [UInt8.ofNat_toNat]
  exact h.1

theorem exists_char_of_read (h : none ∉ read (b :: bs))
    : ∃ c rest, b :: bs = String.utf8EncodeChar c ++ rest ∧ none ∉ read rest := by
  suffices hchar : ∃ c rest, b :: bs = String.utf8EncodeChar c ++ rest by
    rcases hchar with ⟨c, rest, hsplit⟩
    refine ⟨c, rest, hsplit, ?_⟩
    unfold read at h ⊢
    rw [hsplit, go_utf8EncodeChar, List.mem_cons, not_or] at h
    exact h.2
  have hbounds := lead_bounds h
  have hb (k : Nat) (hk : k ≤ b.toNat) : b = UInt8.ofNat (b.toNat - k + k) := by
    rw [Nat.sub_add_cancel hk, UInt8.ofNat_toNat]
  unfold read at h
  by_cases hone : b.toNat < 0x80
  . refine ⟨Char.ofNat b.toNat, bs, ?_⟩
    rw [encodeChar_one hone, UInt8.ofNat_toNat]
    rfl
  . by_cases htwo : b.toNat < 0xE0
    . rw [hb 0xC0 (by omega)] at h ⊢
      exact exists_char_two (by omega) (by omega) h
    . by_cases hthree : b.toNat < 0xF0
      . rw [hb 0xE0 (by omega)] at h ⊢
        exact exists_char_three (by omega) h
      . rw [hb 0xF0 (by omega)] at h ⊢
        exact exists_char_four (by omega) h

/-- Octets are those of a text exactly if nothing of them is replaced. -/
theorem valid_iff (bs : Bytes) : Valid bs ↔ none ∉ read bs := by
  constructor
  . intro h
    rcases h with ⟨text, rfl⟩
    rw [read_encode]
    simp
  . intro h
    induction hlength : bs.length using Nat.strong_induction_on generalizing bs with
    | h n ih =>
      cases bs with
      | nil => exact ⟨"", rfl⟩
      | cons b bs =>
        rcases exists_char_of_read h with ⟨c, rest, hsplit, hrest⟩
        have hshorter : rest.length < n := by
          have hwidth := String.length_utf8EncodeChar c
          have hpositive := c.utf8Size_pos
          rw [← hlength, hsplit, List.length_append]
          omega
        have hchar : Valid (String.utf8EncodeChar c) := ⟨String.ofList [c], by simp [encode]⟩
        rw [hsplit]
        exact hchar.append (ih rest.length hshorter rest hrest rfl)

theorem replacement_mem_decodeLossy (h : ¬ Valid bs) : replacement ∈ (decodeLossy bs).toList := by
  rw [valid_iff, not_not] at h
  rw [toList_decodeLossy, List.mem_map]
  exact ⟨none, h, rfl⟩

end Validity

end Intercom.Utf8
