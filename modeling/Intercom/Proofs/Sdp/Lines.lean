import Mathlib
import Intercom.Proofs.Sdp.Search

/-!
This module contains the lines of a session description and when the search for ICE parameters keeps to them. It takes
a marker also in the midst of a line, and a value also from a later line.
-/

namespace Intercom.Sdp

open Text (isBlank)

variable {marker text before after line word value rest : List Char} {p : Char → Bool} {c : Char}

def isLineEnd (c : Char) : Bool :=
  c = '\r' || c = '\n'

def lines (text : List Char) : List (List Char) :=
  text.splitOnP isLineEnd

def lineValue? (marker line : List Char) : Option (List Char) :=
  (line.dropPrefix? marker).bind word?

/-- Both parameters, each from the first line that begins with its marker and has a value. -/
def ofLines? (text : String) : Option IceParameters :=
  both? fun marker => (lines text.toList).findSome? (lineValue? marker)

/-- The first place of the marker begins a line, and there is a value behind it in this line. -/
def InPlace (marker text : List Char) : Prop :=
  ∃ before after,
    First marker text before after ∧ (∀ c ∈ before.getLast?, isLineEnd c = true) ∧
    ∃ c ∈ after.takeWhile (!isLineEnd ·), isBlank c = false

theorem isBlank_of_isLineEnd (h : isLineEnd c = true) : isBlank c = true := by
  unfold isLineEnd at h
  rw [Bool.or_eq_true, decide_eq_true_iff, decide_eq_true_iff] at h
  rcases h with rfl | rfl
  . decide
  . decide

section Splitting

theorem exists_splitOnP_eq_cons (p : Char → Bool) (text : List Char)
    : ∃ parts, text.splitOnP p = text.takeWhile (!p ·) :: parts ∧ ∀ part ∈ parts, part <:+: text := by
  induction text with
  | nil => exact ⟨[], List.splitOnP_nil, by simp⟩
  | cons c text ih =>
    rcases ih with ⟨parts, hsplit, hparts⟩
    rw [List.splitOnP_cons_eq_if_modifyHead, hsplit]
    by_cases hc : p c = true
    . refine ⟨text.takeWhile (!p ·) :: parts, by simp [hc], ?_⟩
      intro part hpart
      rw [List.mem_cons] at hpart
      rcases hpart with rfl | hpart
      . exact (List.takeWhile_prefix _).isInfix.trans (List.suffix_cons c text).isInfix
      . exact (hparts part hpart).trans (List.suffix_cons c text).isInfix
    . refine ⟨parts, by simp [hc], ?_⟩
      intro part hpart
      exact (hparts part hpart).trans (List.suffix_cons c text).isInfix

theorem infix_of_mem_lines (h : line ∈ lines text) : line <:+: text := by
  rcases exists_splitOnP_eq_cons isLineEnd text with ⟨parts, hsplit, hparts⟩
  unfold lines at h
  rw [hsplit, List.mem_cons] at h
  rcases h with rfl | h
  . exact (List.takeWhile_prefix _).isInfix
  . exact hparts line h

theorem dropPrefix?_eq_some (h : line.dropPrefix? marker = some value) : line = marker ++ value := by
  rw [List.dropPrefix?_eq_some_iff] at h
  rcases h with ⟨marker', rfl, hmarker⟩
  rw [beq_iff_eq] at hmarker
  rw [hmarker]

theorem lineValue?_append (marker value : List Char) : lineValue? marker (marker ++ value) = word? value := by
  have hdrop : (marker ++ value).dropPrefix? marker = some value := by
    rw [List.dropPrefix?_eq_some_iff]
    exact ⟨marker, rfl, beq_self_eq_true marker⟩
  unfold lineValue?
  rw [hdrop, Option.bind_some]

theorem exists_of_lineValue? (h : lineValue? marker line = some word)
    : ∃ value, line = marker ++ value ∧ word? value = some word := by
  unfold lineValue? at h
  rw [Option.bind_eq_some_iff] at h
  rcases h with ⟨value, hdrop, hword⟩
  exact ⟨value, dropPrefix?_eq_some hdrop, hword⟩

end Splitting

section Agreement

theorem word?_append (hvalue : ∃ c ∈ value, isBlank c = false) (hrest : ∀ c ∈ rest.head?, isBlank c = true)
    : word? (value ++ rest) = word? value := by
  rw [word?_eq_match, word?_eq_match]
  induction value with
  | nil => simp at hvalue
  | cons c value ih =>
    rcases Bool.eq_false_or_eq_true (isBlank c) with hc | hc
    . rw [List.cons_append, List.dropWhile_cons_of_pos hc, List.dropWhile_cons_of_pos hc]
      apply ih
      simpa [hc] using hvalue
    . rw [List.cons_append, List.dropWhile_cons_of_neg (by simp [hc]), List.dropWhile_cons_of_neg (by simp [hc])]
      dsimp only
      rw [takeWhile_append_of_head?]
      intro d hd
      rw [hrest d hd]
      rfl

theorem find?_ne_none (h : (lines text).findSome? (lineValue? marker) = some word) : find? marker text ≠ none := by
  rcases List.exists_of_findSome?_eq_some h with ⟨line, hline, hword⟩
  rcases exists_of_lineValue? hword with ⟨value, rfl, hvalue⟩
  rcases infix_of_mem_lines hline with ⟨before, after, heq⟩
  rw [Ne, find?_eq_none_iff]
  rintro (hpart | ⟨before', after', hfirst, hblank⟩)
  . exact hpart ⟨before, value ++ after, by rw [← heq]; simp⟩
  . -- The value of the line stands behind the first place, wherever that is.
    have hplace : text = before ++ marker ++ (value ++ after) := by
      rw [← heq]
      simp
    have hle := hfirst.le before (value ++ after) hplace
    have hsuffix : value ++ after <:+ after' := by
      apply List.suffix_of_suffix_length_le ⟨before ++ marker, hplace.symm⟩ ⟨before' ++ marker, hfirst.eq.symm⟩
      have hlength := congrArg List.length hplace
      rw [hfirst.eq] at hlength
      simp only [List.length_append] at hlength ⊢
      omega
    have hnone : word? value = none := by
      rw [word?_eq_none_iff]
      intro c hc
      exact hblank c (hsuffix.subset (List.mem_append_left after hc))
    rw [hnone] at hvalue
    simp at hvalue

theorem First.lines_before {c : Char} (h : First marker text (before ++ [c]) after)
    : (lines before).findSome? (lineValue? marker) = none := by
  rw [List.findSome?_eq_none_iff]
  intro line hline
  rw [Option.eq_none_iff_forall_ne_some]
  intro word hword
  rcases exists_of_lineValue? hword with ⟨value, rfl, -⟩
  rcases infix_of_mem_lines hline with ⟨before', after', heq⟩
  have hle := h.le before' (value ++ after' ++ [c] ++ marker ++ after) (by rw [h.eq, ← heq]; simp)
  have hlength := congrArg List.length heq
  simp only [List.length_append, List.length_singleton] at hle hlength
  omega

theorem findSome?_lines_append (hmarker : ∀ c ∈ marker, isLineEnd c = false)
    (hvalue : ∃ c ∈ after.takeWhile (!isLineEnd ·), isBlank c = false)
    : (lines (marker ++ after)).findSome? (lineValue? marker) = word? after := by
  rcases exists_splitOnP_eq_cons isLineEnd (marker ++ after) with ⟨parts, hsplit, -⟩
  have hline : (marker ++ after).takeWhile (!isLineEnd ·) = marker ++ after.takeWhile (!isLineEnd ·) := by
    apply List.takeWhile_append_of_pos
    intro c hc
    rw [hmarker c hc]
    rfl
  have hword : word? after = word? (after.takeWhile (!isLineEnd ·)) := by
    conv_lhs => rw [← List.takeWhile_append_dropWhile (p := (!isLineEnd ·)) (l := after)]
    apply word?_append hvalue
    intro c hc
    apply isBlank_of_isLineEnd
    simpa using head?_dropWhile_eq_false (!isLineEnd ·) after c hc
  have hsome : word? (after.takeWhile (!isLineEnd ·)) ≠ none := by
    rw [Ne, word?_eq_none_iff]
    intro hblank
    rcases hvalue with ⟨c, hc, hnot⟩
    rw [hblank c hc] at hnot
    exact absurd hnot.symm Bool.false_ne_true
  unfold lines
  rw [hsplit, List.findSome?_cons, hline, lineValue?_append, hword]
  cases hfound : word? (after.takeWhile (!isLineEnd ·)) with
  | none => exact absurd hfound hsome
  | some word => rfl

theorem InPlace.find?_eq (h : InPlace marker text) (hmarker : ∀ c ∈ marker, isLineEnd c = false)
    : find? marker text = (lines text).findSome? (lineValue? marker) := by
  rcases h with ⟨before, after, hfirst, hbefore, hvalue⟩
  rw [hfirst.find?_eq, ← findSome?_lines_append hmarker hvalue]
  rcases List.eq_nil_or_concat before with rfl | ⟨front, c, rfl⟩
  . rw [hfirst.eq]
    rfl
  . rw [List.concat_eq_append] at hfirst hbefore
    have hc : isLineEnd c = true := hbefore c (by simp)
    have hlines : lines text = lines front ++ lines (marker ++ after) := by
      unfold lines
      rw [← List.splitOnP_append_cons front (marker ++ after) hc, hfirst.eq]
      simp
    rw [hlines, List.findSome?_append, hfirst.lines_before, Option.none_or]

end Agreement

section Parameters

theorem not_isLineEnd_of_mem (hmarker : marker ∈ [ufragMarker, pwdMarker]) : ∀ c ∈ marker, isLineEnd c = false := by
  have hall : marker.all (!isLineEnd ·) = true := by
    rw [List.mem_cons, List.mem_singleton] at hmarker
    rcases hmarker with rfl | rfl
    . rfl
    . rfl
  intro c hc
  simpa using List.all_eq_true.1 hall c hc

theorem ofLines?_eq_none (text : String) (h : iceParameters? text = none) : ofLines? text = none := by
  rw [iceParameters?_eq_both?, both?_eq_none_iff] at h
  rcases h with ⟨marker, hmarker, hnone⟩
  unfold ofLines?
  rw [both?_eq_none_iff]
  refine ⟨marker, hmarker, ?_⟩
  rw [Option.eq_none_iff_forall_ne_some]
  intro word hword
  exact find?_ne_none hword hnone

theorem both?_congr {value? value?' : List Char → Option (List Char)}
    (h : ∀ marker ∈ [ufragMarker, pwdMarker], value? marker = value?' marker) : both? value? = both? value?' := by
  unfold both?
  rw [h ufragMarker (by simp), h pwdMarker (by simp)]

end Parameters

/-- The search gives what the lines say, unless it takes a word that is not the value of the first line of its own: one
behind a marker in the midst of a line, or from a line below. It refuses no description that has both lines. -/
theorem iceParameters?_eq_ofLines?_iff (text : String)
    : (iceParameters? text = ofLines? text ↔
        iceParameters? text = none ∨
        ∀ marker ∈ [ufragMarker, pwdMarker],
          InPlace marker text.toList ∨
          ∃ word, Behind marker text.toList word ∧ (lines text.toList).findSome? (lineValue? marker) = some word) ∧
      (ofLines? text ≠ none → iceParameters? text ≠ none) := by
  refine ⟨⟨?_, ?_⟩, fun hlines hnone => hlines (ofLines?_eq_none text hnone)⟩
  . intro heq
    cases hfound : iceParameters? text with
    | none => exact .inl rfl
    | some ice =>
      rw [hfound] at heq
      rw [iceParameters?_eq_both?, both?_eq_some_iff] at hfound
      have hlines := both?_eq_some_iff.1 heq.symm
      right
      intro marker hmarker
      rw [List.mem_cons, List.mem_singleton] at hmarker
      rcases hmarker with rfl | rfl
      . exact .inr ⟨ice.ufrag.toList, behind_of_find? hfound.1, hlines.1⟩
      . exact .inr ⟨ice.pwd.toList, behind_of_find? hfound.2, hlines.2⟩
  . rintro (hnone | hplaces)
    . rw [hnone, ofLines?_eq_none text hnone]
    . rw [iceParameters?_eq_both?]
      apply both?_congr
      intro marker hmarker
      rcases hplaces marker hmarker with hplace | ⟨word, hbehind, hline⟩
      . exact hplace.find?_eq (not_isLineEnd_of_mem hmarker)
      . rw [hline, find?_of_behind hbehind]

def sampleBlankLine : String := "a=ice-ufrag:\r\na=ice-pwd:x\r\n"

/-- The line of the fragment has no value, and the line below it is taken for one. -/
theorem iceParameters?_ne_ofLines?_sampleBlankLine
    : ofLines? sampleBlankLine = none ∧ iceParameters? sampleBlankLine = some ⟨"a=ice-pwd:x", "x"⟩ := by
  constructor
  . decide +kernel
  . decide +kernel

end Intercom.Sdp
