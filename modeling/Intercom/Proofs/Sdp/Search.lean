import Mathlib
import Intercom.Sdp
import Intercom.Proofs.Text.Pattern

/-!
This module contains which words are taken from a session description as ICE parameters: for each marker the word behind
its first place. A search that tries every place and every way to skip white space finds the same.
-/

namespace Intercom.Sdp

open Text (Pattern isBlank)

variable {marker text before after word : List Char}

def pattern (marker : List Char) : Pattern :=
  .literal marker (.seq (.many isBlank) (.group (.many1 (!isBlank ·))))

/-- The first place of a marker, with what stands before and behind it. -/
structure First (marker text before after : List Char) : Prop where
  eq : text = before ++ marker ++ after
  le : ∀ before' after', text = before' ++ marker ++ after' → before.length ≤ before'.length

/-- A word that stands behind the first place of a marker, with only white space in between and as long as it can be. -/
def Behind (marker text word : List Char) : Prop :=
  word ≠ [] ∧ (∀ c ∈ word, isBlank c = false) ∧
    ∃ before blank rest,
      First marker text before (blank ++ word ++ rest) ∧ (∀ c ∈ blank, isBlank c = true) ∧
      ∀ c ∈ rest.head?, isBlank c = true

/-- The run of other characters behind the first place of a marker and all white space there. -/
def scan? (marker text : List Char) : Option (List Char) :=
  match text.dropInfix? marker with
  | none => none
  | some (_, after) =>
    match after.dropWhile isBlank with
    | [] => none
    | c :: rest => some (c :: rest.takeWhile (!isBlank ·))

def both? (value? : List Char → Option (List Char)) : Option IceParameters := do
  let ufrag ← value? ufragMarker
  let pwd ← value? pwdMarker
  return ⟨String.ofList ufrag, String.ofList pwd⟩

section Words

theorem head?_dropWhile_eq_false (p : Char → Bool) (text : List Char)
    : ∀ c ∈ (text.dropWhile p).head?, p c = false := by
  intro c hc
  have hfirst := List.head?_dropWhile_not p text
  rw [hc] at hfirst
  exact hfirst

theorem takeWhile_append_of_head? {p : Char → Bool} {value rest : List Char} (hrest : ∀ c ∈ rest.head?, p c = false)
    : (value ++ rest).takeWhile p = value.takeWhile p := by
  have hnil : rest.takeWhile p = [] := by
    cases rest with
    | nil => rfl
    | cons c rest => exact List.takeWhile_cons_of_neg (by rw [hrest c rfl]; exact Bool.false_ne_true)
  rw [List.takeWhile_append, hnil, List.append_nil]
  split
  . next hlength => exact ((List.takeWhile_prefix p).eq_of_length hlength).symm
  . rfl

theorem word?_eq_match (text : List Char)
    : word? text =
        match text.dropWhile isBlank with
        | [] => none
        | c :: rest => some (c :: rest.takeWhile (!isBlank ·)) := by
  unfold word?
  cases hdrop : text.dropWhile isBlank with
  | nil => rfl
  | cons c rest =>
    have hc : isBlank c = false := by
      apply head?_dropWhile_eq_false isBlank text
      rw [hdrop]
      rfl
    rw [List.takeWhile_cons_of_pos (by rw [hc]; rfl)]

theorem word?_eq_none_iff : word? text = none ↔ ∀ c ∈ text, isBlank c = true := by
  rw [word?_eq_match, ← List.dropWhile_eq_nil_iff]
  cases text.dropWhile isBlank with
  | nil => simp
  | cons c rest => simp

theorem word?_eq_some (h : word? text = some word)
    : word ≠ [] ∧ (∀ c ∈ word, isBlank c = false) ∧
      ∃ blank rest,
        text = blank ++ word ++ rest ∧ (∀ c ∈ blank, isBlank c = true) ∧ ∀ c ∈ rest.head?, isBlank c = true := by
  unfold word? at h
  split at h
  . simp at h
  . next hne =>
    rw [Option.some.injEq] at h
    rw [← h]
    refine ⟨hne, ?_, text.takeWhile isBlank, (text.dropWhile isBlank).dropWhile (!isBlank ·), ?_, ?_, ?_⟩
    . intro c hc
      simpa using List.mem_takeWhile_imp hc
    . rw [List.append_assoc, List.takeWhile_append_dropWhile, List.takeWhile_append_dropWhile]
    . intro c hc
      exact List.mem_takeWhile_imp hc
    . intro c hc
      simpa using head?_dropWhile_eq_false (!isBlank ·) _ c hc

theorem word?_append_append {blank rest : List Char} (hne : word ≠ []) (hword : ∀ c ∈ word, isBlank c = false)
    (hblank : ∀ c ∈ blank, isBlank c = true) (hrest : ∀ c ∈ rest.head?, isBlank c = true)
    : word? (blank ++ word ++ rest) = some word := by
  have htake : (word ++ rest).takeWhile (!isBlank ·) = word := by
    rw [takeWhile_append_of_head?, List.takeWhile_eq_self_iff]
    . intro c hc
      rw [hword c hc]
      rfl
    . intro c hc
      rw [hrest c hc]
      rfl
  have hdrop : (blank ++ word ++ rest).dropWhile isBlank = word ++ rest := by
    rw [List.append_assoc, List.dropWhile_append_of_pos hblank]
    cases word with
    | nil => exact absurd rfl hne
    | cons c word => exact List.dropWhile_cons_of_neg (by simp [hword c (List.mem_cons_self ..)])
  unfold word?
  rw [hdrop, htake]
  cases word with
  | nil => exact absurd rfl hne
  | cons c word => rfl

end Words

section Places

theorem afterMarker?_append (marker after : List Char) : afterMarker? marker (marker ++ after) = some after := by
  induction marker with
  | nil => rfl
  | cons m marker ih =>
    rw [List.cons_append, afterMarker?, if_pos rfl]
    exact ih

theorem afterMarker?_eq_none (h : ¬ marker <+: text) : afterMarker? marker text = none := by
  induction marker generalizing text with
  | nil => exact absurd List.nil_prefix h
  | cons m marker ih =>
    cases text with
    | nil => rfl
    | cons c text =>
      rw [afterMarker?]
      split
      . next heq =>
        apply ih
        intro hfront
        exact h (List.cons_prefix_cons.2 ⟨heq, hfront⟩)
      . rfl

theorem find?_eq_findSome? (marker text : List Char)
    : find? marker text = text.tails.findSome? fun rest => (afterMarker? marker rest).bind word? := by
  induction text with
  | nil => simp [find?]
  | cons c text ih =>
    rw [find?, List.tails, List.findSome?_cons, ← ih]
    cases (afterMarker? marker (c :: text)).bind word? with
    | none => rfl
    | some word => rfl

theorem front?_pattern (marker text : List Char)
    : (pattern marker).front? text = ((afterMarker? marker text).bind word?).map some := by
  unfold pattern
  by_cases hfront : marker <+: text
  . rcases hfront with ⟨after, rfl⟩
    rw [Pattern.front?_literal_append, Pattern.front?_many_group, afterMarker?_append, Option.bind_some,
      word?_eq_match]
    cases after.dropWhile isBlank with
    | nil => rfl
    | cons c rest => rfl
  . rw [Pattern.front?_literal_of_not_prefix hfront, afterMarker?_eq_none hfront]
    rfl

theorem find?_eq_capture? (marker text : List Char) : find? marker text = (pattern marker).capture? text := by
  have hfronts : (text.tails.findSome? (pattern marker).front?) = (find? marker text).map some := by
    rw [find?_eq_findSome?, List.map_findSome?]
    congr 1
    funext rest
    exact front?_pattern marker rest
  rw [Pattern.capture?_eq_findSome?, hfronts]
  cases find? marker text with
  | none => rfl
  | some word => rfl

theorem First.cons {c : Char} (h : First marker text before after) (hfront : ¬ marker <+: c :: text)
    : First marker (c :: text) (c :: before) after := by
  constructor
  . rw [h.eq]
    rfl
  . intro before' after' heq
    cases before' with
    | nil => exact absurd ⟨after', heq.symm⟩ hfront
    | cons d before' =>
      rw [List.cons_append, List.cons_append, List.cons.injEq] at heq
      exact Nat.succ_le_succ (h.le before' after' heq.2)

theorem First.of_cons {c : Char} (h : First marker text (c :: before) after)
    : ∃ text', text = c :: text' ∧ First marker text' before after ∧ ¬ marker <+: text := by
  refine ⟨before ++ marker ++ after, h.eq, ⟨rfl, ?_⟩, ?_⟩
  . intro before' after' heq
    have hle := h.le (c :: before') after' (by rw [h.eq, List.cons_append, List.cons_append, heq]; rfl)
    exact Nat.le_of_succ_le_succ hle
  . rintro ⟨after', heq⟩
    have hle := h.le [] after' heq.symm
    simp at hle

theorem exists_first (h : marker <:+: text) : ∃ before after, First marker text before after := by
  induction text with
  | nil =>
    rw [List.infix_nil] at h
    exact ⟨[], [], by simp [h], fun _ _ _ => Nat.zero_le _⟩
  | cons c text ih =>
    by_cases hfront : marker <+: c :: text
    . rcases hfront with ⟨after, heq⟩
      exact ⟨[], after, heq.symm, fun _ _ _ => Nat.zero_le _⟩
    . rcases List.infix_cons_iff.1 h with hhere | hpart
      . exact absurd hhere hfront
      . rcases ih hpart with ⟨before, after, hfirst⟩
        exact ⟨c :: before, after, hfirst.cons hfront⟩

theorem First.dropInfix? (h : First marker text before after) : text.dropInfix? marker = some (before, after) := by
  rw [List.dropInfix?_eq_some_iff]
  refine ⟨⟨marker, h.eq, beq_self_eq_true marker⟩, ?_⟩
  intro before' marker' after' heq hmarker
  rw [beq_iff_eq] at hmarker
  rw [hmarker] at heq
  exact h.le before' after' heq

theorem dropInfix?_eq_none (h : ¬ marker <:+: text) : text.dropInfix? marker = none := by
  rw [Option.eq_none_iff_forall_ne_some]
  rintro ⟨before, after⟩ hfound
  rw [List.dropInfix?_eq_some_iff] at hfound
  rcases hfound with ⟨⟨marker', heq, hmarker⟩, -⟩
  rw [beq_iff_eq] at hmarker
  rw [hmarker] at heq
  exact h ⟨before, after, heq.symm⟩

theorem exists_of_find? (h : find? marker text = some word)
    : ∃ before after, text = before ++ marker ++ after ∧ word? after = some word := by
  rw [find?_eq_findSome?] at h
  rcases List.exists_of_findSome?_eq_some h with ⟨rest, hrest, hword⟩
  rw [List.mem_tails] at hrest
  rcases hrest with ⟨before, rfl⟩
  by_cases hfront : marker <+: rest
  . rcases hfront with ⟨after, rfl⟩
    rw [afterMarker?_append, Option.bind_some] at hword
    exact ⟨before, after, (List.append_assoc ..).symm, hword⟩
  . rw [afterMarker?_eq_none hfront] at hword
    simp at hword

/-- Behind a place with nothing but white space behind it there is no word, and so no later place has one. -/
theorem find?_eq_none_of_blank (hblank : ∀ c ∈ after, isBlank c = true) (hsuffix : text <:+ marker ++ after)
    : find? marker text = none := by
  rw [Option.eq_none_iff_forall_ne_some]
  intro word hfind
  rcases exists_of_find? hfind with ⟨before', after', rfl, hword⟩
  have hlater : after' <:+ after := by
    have hlong : before' ++ marker ++ after' <:+ marker ++ after := hsuffix
    have hsuffix' : after' <:+ marker ++ after := (List.suffix_append _ _).trans hlong
    have hlength := hlong.length_le
    simp only [List.length_append] at hlength
    exact List.suffix_of_suffix_length_le hsuffix' (List.suffix_append marker after) (by omega)
  have hnone : word? after' = none := by
    rw [word?_eq_none_iff]
    intro c hc
    exact hblank c (hlater.subset hc)
  rw [hnone] at hword
  simp at hword

theorem find?_append (marker after : List Char) : find? marker (marker ++ after) = word? after := by
  have hfront : (afterMarker? marker (marker ++ after)).bind word? = word? after := by
    rw [afterMarker?_append, Option.bind_some]
  cases hword : word? after with
  | none => exact find?_eq_none_of_blank (word?_eq_none_iff.1 hword) (List.suffix_refl _)
  | some word =>
    rw [hword] at hfront
    rw [find?_eq_findSome?]
    generalize marker ++ after = text at hfront
    cases text with
    | nil => rw [List.tails, List.findSome?_cons, hfront]
    | cons c text => rw [List.tails, List.findSome?_cons, hfront]

theorem First.find?_eq (h : First marker text before after) : find? marker text = word? after := by
  induction before generalizing text with
  | nil =>
    rw [h.eq]
    exact find?_append marker after
  | cons c before ih =>
    rcases h.of_cons with ⟨text', rfl, hfirst, hfront⟩
    rw [find?, afterMarker?_eq_none hfront]
    exact ih hfirst

theorem find?_eq_none (h : ¬ marker <:+: text) : find? marker text = none := by
  rw [Option.eq_none_iff_forall_ne_some]
  intro word hfind
  rcases exists_of_find? hfind with ⟨before, after, heq, -⟩
  exact h ⟨before, after, heq.symm⟩

theorem find?_eq_scan? (marker text : List Char) : find? marker text = scan? marker text := by
  unfold scan?
  by_cases hpart : marker <:+: text
  . rcases exists_first hpart with ⟨before, after, hfirst⟩
    rw [hfirst.find?_eq, hfirst.dropInfix?, word?_eq_match]
  . rw [find?_eq_none hpart, dropInfix?_eq_none hpart]

theorem find?_eq_none_iff
    : find? marker text = none ↔
        ¬ marker <:+: text ∨ ∃ before after, First marker text before after ∧ ∀ c ∈ after, isBlank c = true := by
  constructor
  . intro hnone
    by_cases hpart : marker <:+: text
    . rcases exists_first hpart with ⟨before, after, hfirst⟩
      rw [hfirst.find?_eq, word?_eq_none_iff] at hnone
      exact .inr ⟨before, after, hfirst, hnone⟩
    . exact .inl hpart
  . rintro (hpart | ⟨before, after, hfirst, hblank⟩)
    . exact find?_eq_none hpart
    . rw [hfirst.find?_eq, word?_eq_none_iff]
      exact hblank

theorem behind_of_find? (h : find? marker text = some word) : Behind marker text word := by
  rcases exists_of_find? h with ⟨before', after', heq, -⟩
  rcases exists_first ⟨before', after', heq.symm⟩ with ⟨before, after, hfirst⟩
  rw [hfirst.find?_eq] at h
  rcases word?_eq_some h with ⟨hne, hword, blank, rest, rfl, hblank, hrest⟩
  exact ⟨hne, hword, before, blank, rest, hfirst, hblank, hrest⟩

theorem find?_of_behind (h : Behind marker text word) : find? marker text = some word := by
  rcases h with ⟨hne, hword, before, blank, rest, hfirst, hblank, hrest⟩
  rw [hfirst.find?_eq]
  exact word?_append_append hne hword hblank hrest

end Places

section Parameters

theorem iceParameters?_eq_both? (text : String) : iceParameters? text = both? (find? · text.toList) := rfl

variable {value? : List Char → Option (List Char)} {ice : IceParameters}

theorem both?_eq_none_iff : both? value? = none ↔ ∃ marker ∈ [ufragMarker, pwdMarker], value? marker = none := by
  unfold both?
  cases hufrag : value? ufragMarker with
  | none => simp [hufrag]
  | some ufrag =>
    cases hpwd : value? pwdMarker with
    | none => simp [hpwd]
    | some pwd => simp [hufrag, hpwd]

theorem both?_eq_some_iff
    : both? value? = some ice ↔
        value? ufragMarker = some ice.ufrag.toList ∧ value? pwdMarker = some ice.pwd.toList := by
  have htext (cs : List Char) (s : String) : String.ofList cs = s ↔ cs = s.toList := by
    constructor
    . rintro rfl
      exact (String.toList_ofList).symm
    . rintro rfl
      exact String.ofList_toList
  rcases ice with ⟨u, p⟩
  unfold both?
  cases hufrag : value? ufragMarker with
  | none => simp
  | some ufrag =>
    cases hpwd : value? pwdMarker with
    | none => simp
    | some pwd => simp [htext]

end Parameters

/-- A search for the pattern, a scan from the first place of each marker and the description of what is found agree: a
later place of a marker is of no account, whatever follows the first one. -/
theorem iceParameters?_eq_search (text : String)
    : let found := iceParameters? text
      let chars := text.toList
      found = both? (fun marker => (pattern marker).capture? chars) ∧
      found = both? (fun marker => scan? marker chars) ∧
      (found = none ↔
        ∃ marker ∈ [ufragMarker, pwdMarker],
          ¬ marker <:+: chars ∨ ∃ before after, First marker chars before after ∧ ∀ c ∈ after, isBlank c = true) ∧
      ∀ ice, found = some ice →
        Behind ufragMarker chars ice.ufrag.toList ∧ Behind pwdMarker chars ice.pwd.toList := by
  intro found chars
  have hfound : found = both? (find? · chars) := iceParameters?_eq_both? text
  refine ⟨?_, ?_, ?_, ?_⟩
  . rw [hfound]
    congr 1
    funext marker
    exact find?_eq_capture? marker chars
  . rw [hfound]
    congr 1
    funext marker
    exact find?_eq_scan? marker chars
  . rw [hfound, both?_eq_none_iff]
    simp only [find?_eq_none_iff]
  . intro ice hice
    rw [hfound, both?_eq_some_iff] at hice
    exact ⟨behind_of_find? hice.1, behind_of_find? hice.2⟩

end Intercom.Sdp
