import Mathlib

/-!
This module contains search patterns and what a search that tries every place and every way finds: the first place
where the pattern can be read, and there the way that is preferred.
-/

namespace Intercom.Text

inductive Pattern where
  | one (p : Char → Bool)
  /-- Characters of a class, as many as possible, and fewer if nothing can be read behind them. -/
  | many (p : Char → Bool)
  | seq (first second : Pattern)
  | group (inner : Pattern)

structure Way where
  read : List Char
  captured : Option (List Char)
  rest : List Char

namespace Pattern

/-- Characters of a class and the rest, the longest run first. -/
def runs (p : Char → Bool) : List Char → List (List Char × List Char)
  | [] => [([], [])]
  | c :: text =>
    (if p c then (runs p text).map fun (read, rest) => (c :: read, rest) else []) ++ [([], c :: text)]

/-- All ways to read a pattern from the front of a text, in the order in which they are preferred. -/
def ways : Pattern → List Char → List Way
  | one _, [] => []
  | one p, c :: text => if p c then [⟨[c], none, text⟩] else []
  | many p, text => (runs p text).map fun (read, rest) => ⟨read, none, rest⟩
  | seq first second, text =>
    (first.ways text).flatMap fun v =>
      (second.ways v.rest).map fun w => ⟨v.read ++ w.read, w.captured.or v.captured, w.rest⟩
  | group inner, text => (inner.ways text).map fun w => { w with captured := some w.read }

/-- The first place where the pattern can be read, and the way that is preferred there. -/
def search? (pattern : Pattern) : List Char → Option Way
  | [] => (pattern.ways []).head?
  | c :: text => (pattern.ways (c :: text)).head?.or (search? pattern text)

def capture? (pattern : Pattern) (text : List Char) : Option (List Char) :=
  (pattern.search? text).bind (·.captured)

def literal : List Char → Pattern → Pattern
  | [], next => next
  | c :: cs, next => seq (one (· = c)) (literal cs next)

def many1 (p : Char → Bool) : Pattern :=
  seq (one p) (many p)

variable {p : Char → Bool} {c : Char} {text : List Char} {pattern : Pattern}

def front? (pattern : Pattern) (text : List Char) : Option (Option (List Char)) :=
  (pattern.ways text).head?.map (·.captured)

theorem runs_eq_cons (p : Char → Bool) (text : List Char)
    : ∃ shorter,
        runs p text = (text.takeWhile p, text.dropWhile p) :: shorter ∧
        ∀ run ∈ shorter, ∃ c rest, run.2 = c :: rest ∧ p c = true := by
  induction text with
  | nil => exact ⟨[], rfl, by simp⟩
  | cons c text ih =>
    rcases ih with ⟨shorter, hruns, hshorter⟩
    by_cases hc : p c = true
    . refine ⟨shorter.map (fun (read, rest) => (c :: read, rest)) ++ [([], c :: text)], ?_, ?_⟩
      . simp [runs, hc, hruns]
      . intro run hrun
        rw [List.mem_append, List.mem_map, List.mem_singleton] at hrun
        rcases hrun with ⟨run', hrun', rfl⟩ | rfl
        . exact hshorter run' hrun'
        . exact ⟨c, text, rfl, hc⟩
    . exact ⟨[], by simp [runs, hc], by simp⟩

theorem front?_map_join {v : Way} (h : v.captured = none) (pattern : Pattern)
    : ((((pattern.ways v.rest).map fun w : Way =>
        (⟨v.read ++ w.read, w.captured.or v.captured, w.rest⟩ : Way)).head?).map (·.captured)) =
      front? pattern v.rest := by
  rw [h]
  unfold front?
  rw [List.head?_map, Option.map_map]
  congr 1
  funext w
  exact Option.or_none

/-- Where nothing is captured first, the ways of the first part are tried until one leads on. -/
theorem front?_seq {first second : Pattern} (h : ∀ v ∈ first.ways text, v.captured = none)
    : front? (seq first second) text = (first.ways text).findSome? fun v => front? second v.rest := by
  rw [front?, ways, List.head?_flatMap, List.map_findSome?]
  generalize first.ways text = vs at h ⊢
  induction vs with
  | nil => rfl
  | cons v vs ih =>
    rw [List.findSome?_cons, List.findSome?_cons, Function.comp_apply,
      front?_map_join (h v (List.mem_cons_self ..)), ih]
    intro w hw
    exact h w (List.mem_cons_of_mem v hw)

theorem front?_one_seq_cons
    : front? (seq (one p) pattern) (c :: text) = if p c then front? pattern text else none := by
  rw [front?_seq]
  . by_cases hc : p c = true
    . simp [ways, hc]
    . simp [ways, hc]
  . by_cases hc : p c = true
    . simp [ways, hc]
    . simp [ways, hc]

theorem front?_group_many1 (p : Char → Bool) (text : List Char)
    : front? (group (many1 p)) text =
        match text with
        | [] => none
        | c :: rest => if p c then some (some (c :: rest.takeWhile p)) else none := by
  cases text with
  | nil => rfl
  | cons c rest =>
    rcases runs_eq_cons p rest with ⟨shorter, hruns, -⟩
    unfold front? many1
    by_cases hc : p c = true
    . simp [ways, hc, hruns]
    . simp [ways, hc]

/-- A shorter run leaves a character of its class behind, with which nothing of the other class begins. -/
theorem front?_many_group (p : Char → Bool) (text : List Char)
    : front? (seq (many p) (group (many1 (!p ·)))) text =
        match text.dropWhile p with
        | [] => none
        | c :: rest => some (some (c :: rest.takeWhile (!p ·))) := by
  rcases runs_eq_cons p text with ⟨shorter, hruns, hshorter⟩
  have hrest : (shorter.findSome? fun run => front? (group (many1 (!p ·))) run.2) = none := by
    rw [List.findSome?_eq_none_iff]
    intro run hrun
    rcases hshorter run hrun with ⟨c, rest, heq, hc⟩
    rw [heq, front?_group_many1]
    simp [hc]
  rw [front?_seq]
  . unfold ways
    rw [List.findSome?_map, hruns, List.findSome?_cons]
    dsimp only [Function.comp_apply]
    rw [front?_group_many1]
    cases hdrop : text.dropWhile p with
    | nil => exact hrest
    | cons c rest =>
      have hc : p c = false := by
        have := List.head?_dropWhile_not p text
        rw [hdrop] at this
        simpa using this
      simp [hc]
  . intro v hv
    unfold ways at hv
    rw [List.mem_map] at hv
    rcases hv with ⟨run, -, rfl⟩
    rfl

theorem front?_literal_append (cs text : List Char)
    : front? (literal cs pattern) (cs ++ text) = front? pattern text := by
  induction cs with
  | nil => rfl
  | cons c cs ih =>
    rw [List.cons_append, literal, front?_one_seq_cons, if_pos (decide_eq_true rfl), ih]

theorem front?_literal_of_not_prefix {cs : List Char} (h : ¬ cs <+: text)
    : front? (literal cs pattern) text = none := by
  induction cs generalizing text with
  | nil => exact absurd List.nil_prefix h
  | cons c cs ih =>
    cases text with
    | nil => rfl
    | cons d text =>
      rw [literal, front?_one_seq_cons]
      split
      . next heq =>
        rw [decide_eq_true_iff] at heq
        apply ih
        intro hprefix
        exact h (List.cons_prefix_cons.2 ⟨heq.symm, hprefix⟩)
      . rfl

theorem search?_map_captured (pattern : Pattern) (text : List Char)
    : (pattern.search? text).map (·.captured) = text.tails.findSome? (front? pattern) := by
  induction text with
  | nil => simp [search?, front?]
  | cons c text ih =>
    rw [search?, List.tails, List.findSome?_cons, ← ih]
    unfold front?
    cases (pattern.ways (c :: text)).head? with
    | none => rfl
    | some w => rfl

theorem capture?_eq_findSome? (pattern : Pattern) (text : List Char)
    : pattern.capture? text = (text.tails.findSome? (front? pattern)).join := by
  rw [← search?_map_captured]
  unfold capture?
  cases pattern.search? text with
  | none => rfl
  | some w => rfl

end Pattern

end Intercom.Text
