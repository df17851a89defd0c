import Mathlib
import Intercom.Json.Token
import Intercom.Proofs.Json.Number

/-!
This module contains the reading of a written row of tokens. The machine gives the tokens back if no two
bare words touch: a bare word ends only where another character ends it.
-/

namespace Intercom

namespace Hex

theorem value?_digit {n : Nat} (h : n < 16) : value? (digit n) = some n := by
  interval_cases n <;> decide

end Hex

namespace Json

def ends (c : Char) : Bool :=
  isSpace c || c = '"' || (punctuation? c).isSome

theorem ends_of_isDigit {c : Char} (h : c.isDigit = true) : ends c = false := by
  -- None of the characters that end a word is a digit.
  have hmem : ends c = true → c ∈ [' ', '\n', '\t', '\r', '"', '[', ']', '\x7b', '\x7d', ',', ':'] := by
    unfold ends isSpace punctuation?
    simp only [List.mem_cons, List.not_mem_nil, or_false]
    grind
  rw [← Bool.not_eq_true]
  intro hends
  have := hmem hends
  simp only [List.mem_cons, List.not_mem_nil, or_false] at this
  rcases this with rfl | rfl | rfl | rfl | rfl | rfl | rfl | rfl | rfl | rfl | rfl <;> contradiction

namespace Token

def bare : Token → Bool
  | .null | .bool _ | .number _ => true
  | _ => false

def Fits : Token → Prop
  | .number n => n.Fits
  | _ => True

theorem fits_of_not_bare {t : Token} (h : t.bare = false) : t.Fits := by
  cases t <;> trivial

/-- What may come right behind a token: anything, or behind a bare word only a character that ends it. -/
def Before (t : Token) (rest : List Char) : Prop :=
  t.bare = true → ∀ c ∈ rest.head?, ends c = true

def Apart (t u : Token) : Prop :=
  t.bare = true → u.bare = false

theorem ends_head_of_not_bare {t : Token} (h : t.bare = false) (rest : List Char)
    : ∀ c ∈ (t.text ++ rest).head?, ends c = true := by
  cases t <;> simp_all [bare, text, ends, isSpace, punctuation?]

end Token

namespace Scan

variable {read rest cs : List Char} {t : Token}

theorem run_cons {s u : Scan} {c : Char} {ts : List Token} (h : s.step c = some (ts, u))
    : s.run (c :: rest) = (u.run rest).map (ts ++ ·) := by
  rw [run, h]
  simp only [Option.bind_eq_bind, Option.bind_some]
  cases u.run rest <;> rfl

theorem run_of_step {s u : Scan} {c : Char} (h : s.step c = some ([], u)) : s.run (c :: rest) = u.run rest := by
  rw [run_cons h]
  simp

theorem run_of_step_token {s u : Scan} {c : Char} (h : s.step c = some ([t], u))
    : s.run (c :: rest) = (u.run rest).map (t :: ·) :=
  run_cons h

theorem step_word_of_not_ends {c : Char} (h : ends c = false)
    : (word read).step c = some ([], word (c :: read)) := by
  unfold step
  exact if_neg (by simpa [ends] using h)

theorem step_word_of_ends {c : Char} (h : ends c = true) (ht : word? read.reverse = some t)
    : (word read).step c = some (t :: (begin c).1, (begin c).2) := by
  unfold step
  dsimp only
  rw [ht]
  exact if_pos h

theorem run_word_append (h : ∀ c ∈ cs, ends c = false)
    : (word read).run (cs ++ rest) = (word (cs.reverse ++ read)).run rest := by
  induction cs generalizing read with
  | nil => rfl
  | cons c cs ih =>
    rw [List.cons_append, run_of_step (step_word_of_not_ends (h c (List.mem_cons_self ..))),
      ih fun d hd => h d (List.mem_cons_of_mem _ hd)]
    simp

theorem run_word (ht : word? read.reverse = some t) (hrest : ∀ c ∈ rest.head?, ends c = true)
    : (word read).run rest = (between.run rest).map (t :: ·) := by
  cases rest with
  | nil => simp [run, finish, ht]
  | cons c rest =>
    have hbegin : between.step c = some ((begin c).1, (begin c).2) := rfl
    rw [run_cons (step_word_of_ends (hrest c rfl) ht), run_cons hbegin, Option.map_map]
    rfl

theorem step_between_of_not_ends {c : Char} (h : ends c = false)
    : between.step c = some ([], word [c]) := by
  simp only [ends, Bool.or_eq_false_iff, decide_eq_false_iff_not, Option.isSome_eq_false_iff,
    Option.isNone_iff_eq_none] at h
  simp [step, begin, h]

theorem run_between_word (hne : cs ≠ []) (hcs : ∀ c ∈ cs, ends c = false) (ht : word? cs = some t)
    (hrest : ∀ c ∈ rest.head?, ends c = true)
    : between.run (cs ++ rest) = (between.run rest).map (t :: ·) := by
  cases cs with
  | nil => contradiction
  | cons c cs =>
    rw [List.cons_append, run_of_step (step_between_of_not_ends (hcs c (List.mem_cons_self ..))),
      run_word_append fun d hd => hcs d (List.mem_cons_of_mem _ hd)]
    apply run_word _ hrest
    simpa using ht

theorem run_control {c : Char} (h : c.toNat < 32)
    : (string read).run
        ('\\' :: 'u' :: '0' :: '0' :: Hex.digit (c.toNat / 16) :: Hex.digit (c.toNat % 16) :: rest) =
          (string (c :: read)).run rest := by
  have hhigh := Hex.value?_digit (n := c.toNat / 16) (by omega)
  have hlow := Hex.value?_digit (n := c.toNat % 16) (by omega)
  have hvalue : c.toNat / 16 * 16 + c.toNat % 16 = c.toNat := Nat.div_add_mod' _ _
  have hend : endUnicode read none c.toNat = some (string (c :: read)) := by
    unfold endUnicode
    dsimp only
    rw [if_neg (by omega), if_neg (by omega), Char.ofNat_toNat]
  rw [run_of_step (u := escape read) rfl, run_of_step (u := unicode read none 4 0) rfl,
    run_of_step (u := unicode read none 3 0) rfl, run_of_step (u := unicode read none 2 0) rfl,
    run_of_step (u := unicode read none 1 (c.toNat / 16)), run_of_step (u := string (c :: read))]
  . simp [step, hlow, hvalue, hend]
  . simp [step, hhigh]

theorem run_escape (c : Char) : (string read).run (Json.escape c ++ rest) = (string (c :: read)).run rest := by
  -- All escapes but those of the other control characters are one letter behind the backslash.
  have hletter : ∀ d, unescape? d = some c → d ≠ 'u' →
      (string read).run ('\\' :: d :: rest) = (string (c :: read)).run rest := by
    intro d hd hu
    rw [run_of_step (u := escape read) rfl, run_of_step]
    simp [step, hu, hd]
  unfold Json.escape
  split
  . next h => exact hletter '"' (by rw [h]; rfl) (by decide)
  split
  . next h => exact hletter '\\' (by rw [h]; rfl) (by decide)
  split
  . next h => exact hletter 'b' (by rw [h]; rfl) (by decide)
  split
  . next h => exact hletter 't' (by rw [h]; rfl) (by decide)
  split
  . next h => exact hletter 'n' (by rw [h]; rfl) (by decide)
  split
  . next h => exact hletter 'f' (by rw [h]; rfl) (by decide)
  split
  . next h => exact hletter 'r' (by rw [h]; rfl) (by decide)
  split
  . next h => exact run_control h
  . next hquote hback _ _ _ _ _ hcontrol =>
    apply run_of_step
    simp [step, hquote, hback, hcontrol]

theorem run_escapes (cs : List Char)
    : (string read).run (cs.flatMap Json.escape ++ rest) = (string (cs.reverse ++ read)).run rest := by
  induction cs generalizing read with
  | nil => rfl
  | cons c cs ih =>
    rw [List.flatMap_cons, List.append_assoc, run_escape, ih]
    simp

theorem run_string (s : String)
    : between.run ((Token.string s).text ++ rest) = (between.run rest).map (Token.string s :: ·) := by
  have htext : (Token.string s).text ++ rest = '"' :: (s.toList.flatMap Json.escape ++ '"' :: rest) := by
    simp [Token.text]
  have hclose : (string (s.toList.reverse ++ [])).step '"' = some ([Token.string s], between) := by
    simp [step]
  rw [htext, run_of_step (u := string []) rfl, run_escapes, run_of_step_token hclose]

end Scan

namespace Number

theorem word?_text {n : Number} (h : n.Fits) : word? n.text = some (.number n) := by
  have hread := ofChars?_text h
  have hnull : ofChars? Token.null.text = none := by decide
  have htrue : ofChars? (Token.bool true).text = none := by decide
  have hfalse : ofChars? (Token.bool false).text = none := by decide
  unfold word?
  rw [hread]
  split
  . next heq => simp [heq, hnull] at hread
  split
  . next heq => simp [heq, htrue] at hread
  split
  . next heq => simp [heq, hfalse] at hread
  . rfl

theorem text_ne_nil {n : Number} (h : n.Fits) : n.text ≠ [] := by
  cases n with
  | other => contradiction
  | whole z =>
    unfold text
    dsimp only
    split
    . exact List.cons_ne_nil _ _
    . exact Nat.toDigits_ne_nil

theorem ends_of_mem_text {n : Number} {c : Char} (h : n.Fits) (hc : c ∈ n.text) : ends c = false := by
  cases n with
  | other => contradiction
  | whole z =>
    have hdigits : ∀ d ∈ Nat.toDigits 10 z.natAbs, ends d = false :=
      fun d hd => ends_of_isDigit (isDigit_of_mem_toDigits _ hd)
    unfold text at hc
    dsimp only at hc
    split at hc
    . rcases List.mem_cons.mp hc with rfl | hc
      . rfl
      . exact hdigits c hc
    . exact hdigits c hc

end Number

/-- A written token is read back in front of anything that may come right behind it. -/
theorem Scan.run_token {t : Token} {rest : List Char} (ht : t.Fits) (hrest : t.Before rest)
    : Scan.between.run (t.text ++ rest) = (Scan.between.run rest).map (t :: ·) := by
  cases t with
  | string s => exact run_string s
  | null =>
    apply run_between_word (by decide) _ rfl (hrest rfl)
    simp [Token.text, ends, isSpace, punctuation?]
  | bool b =>
    cases b <;>
    . apply run_between_word (by decide) _ rfl (hrest rfl)
      simp [Token.text, ends, isSpace, punctuation?]
  | number n =>
    exact run_between_word (n.text_ne_nil ht) (fun c hc => n.ends_of_mem_text ht hc) (n.word?_text ht) (hrest rfl)
  | _ =>
    apply run_of_step_token
    rfl

structure Row (ts : List Token) : Prop where
  fits : ∀ t ∈ ts, t.Fits
  apart : ts.IsChain Token.Apart

namespace Row

theorem singleton {t : Token} (h : t.Fits) : Row [t] where
  fits := by simpa using h
  apart := List.IsChain.singleton t

theorem append {ts us : List Token} (hts : Row ts) (hus : Row us) (hhead : ∀ u ∈ us.head?, u.bare = false)
    : Row (ts ++ us) where
  fits := by
    intro t ht
    rcases List.mem_append.mp ht with ht | ht
    . exact hts.fits t ht
    . exact hus.fits t ht
  apart := List.isChain_append.mpr ⟨hts.apart, hus.apart, fun _ _ u hu _ => hhead u hu⟩

theorem cons {t : Token} {ts : List Token} (hbare : t.bare = false) (hts : Row ts) : Row (t :: ts) where
  fits := by
    intro u hu
    rcases List.mem_cons.mp hu with rfl | hu
    . exact Token.fits_of_not_bare hbare
    . exact hts.fits u hu
  apart := by
    apply List.IsChain.cons hts.apart
    intro u _ h
    rw [hbare] at h
    contradiction

theorem tail {t : Token} {ts : List Token} (h : Row (t :: ts)) : Row ts where
  fits := fun u hu => h.fits u (List.mem_cons_of_mem _ hu)
  apart := h.apart.tail

theorem run {ts : List Token} (h : Row ts) : Scan.between.run (ts.flatMap Token.text) = some ts := by
  induction ts with
  | nil => rfl
  | cons t ts ih =>
    -- Behind a bare word comes the first character of a token that is none.
    have hrest : t.Before (ts.flatMap Token.text) := by
      intro hbare
      cases ts with
      | nil => simp
      | cons u us =>
        rw [List.flatMap_cons]
        apply Token.ends_head_of_not_bare
        exact (List.isChain_cons_cons.mp h.apart).1 hbare
    rw [List.flatMap_cons, Scan.run_token (h.fits t (List.mem_cons_self ..)) hrest, ih h.tail]
    rfl

end Row

end Json

end Intercom
