import Mathlib
import Intercom.Proofs.Handshake.Line
import Intercom.Proofs.Trace

/-!
This module contains a line that is shared: calls that start handshakes, datagrams, the steps of the
handshakes and their reports come in any order, and a call is interrupted between any two of its own steps.
-/

namespace Intercom.Handshake

inductive Call where
  | entering
  /-- The line was not idle; its last handshake may have failed. -/
  | retrying
  /-- The line is taken. What is queued belongs to an earlier handshake. -/
  | draining
  | spawning
  | started (number : Nat)
  | refused
deriving DecidableEq

namespace Call

def proceed (c : Call) (l : Line) : Call × Line :=
  match c with
  | .entering =>
    match l.claim .idle with
    | some l => (.draining, l)
    | none => (.retrying, l)
  | .retrying =>
    match l.claim .failed with
    | some l => (.draining, l)
    | none => (.refused, l)
  | .draining =>
    match l.queue with
    | [] => (.spawning, l)
    | _ :: queue => (.draining, { l with queue })
  | .spawning => (.started l.started, l.launch)
  | .started number => (.started number, l)
  | .refused => (.refused, l)

/-- Whether the call holds the line without a handshake that runs on it. -/
def holds : Call → Bool
  | .draining => true
  | .spawning => true
  | _ => false

def taken? : Call → Option Bool
  | .entering => none
  | .retrying => none
  | .draining => some true
  | .spawning => some true
  | .started _ => some true
  | .refused => some false

inductive Proceeds (l : Line) : Call → Call → Line → Prop where
  | take (c : Call) (hopen : c.taken? = none) (hstate : l.state = .idle ∨ l.state = .failed)
      : Proceeds l c .draining { l with state := .handshaking }
  | retry (hstate : l.state ≠ .idle) : Proceeds l .entering .retrying l
  | refuse (hstate : l.state ≠ .failed) : Proceeds l .retrying .refused l
  | drop (queue : List Bytes) : Proceeds l .draining .draining { l with queue }
  | drained : Proceeds l .draining .spawning l
  | spawn : Proceeds l .spawning (.started l.started) l.launch
  | stay (c : Call) (hdecided : c.taken? ≠ none) (hholds : c.holds = false) : Proceeds l c c l

theorem proceeds (c : Call) (l : Line) : Proceeds l c (c.proceed l).1 (c.proceed l).2 := by
  unfold proceed
  cases c with
  | entering =>
    cases hclaim : l.claim .idle with
    | some l' =>
      rw [Line.claim_eq_some_iff] at hclaim
      rcases hclaim with ⟨hstate, rfl⟩
      exact .take .entering rfl (.inl hstate)
    | none =>
      rw [Line.claim_eq_none_iff] at hclaim
      exact .retry hclaim
  | retrying =>
    cases hclaim : l.claim .failed with
    | some l' =>
      rw [Line.claim_eq_some_iff] at hclaim
      rcases hclaim with ⟨hstate, rfl⟩
      exact .take .retrying rfl (.inr hstate)
    | none =>
      rw [Line.claim_eq_none_iff] at hclaim
      exact .refuse hclaim
  | draining =>
    cases l.queue with
    | nil => exact .drained
    | cons datagram queue => exact .drop queue
  | spawning => exact .spawn
  | started number => exact .stay _ (by simp [taken?]) rfl
  | refused => exact .stay _ (by simp [taken?]) rfl

theorem Proceeds.state {c c' : Call} {l l' : Line} (h : Proceeds l c c' l')
    : l'.state = l.state ∨ l.state = .idle ∨ l.state = .failed := by
  cases h with
  | take _ _ hstate => exact .inr hstate
  | retry => exact .inl rfl
  | refuse => exact .inl rfl
  | drop => exact .inl rfl
  | drained => exact .inl rfl
  | spawn => exact .inl rfl
  | stay => exact .inl rfl

end Call

structure Shared where
  line : Line
  calls : List Call := []
  /-- Handshakes that have left their end state and have yet to report it. -/
  ended : List (Nat × Outcome) := []
  reports : List (Nat × Outcome) := []

namespace Shared

inductive Action where
  | call
  | proceed (place : Nat)
  | enqueue (datagram : Bytes)
  | detach
  | engine (number : Nat) (step : Step)
  | report (place : Nat)

def step (s : Shared) : Action → Shared
  | .call => { s with calls := s.calls ++ [.entering] }
  | .proceed place =>
    match s.calls[place]? with
    | none => s
    | some c => { s with line := (c.proceed s.line).2, calls := s.calls.set place (c.proceed s.line).1 }
  | .enqueue datagram => { s with line := (s.line.enqueue datagram).2 }
  | .detach => { s with line := s.line.detach }
  | .engine number step =>
    match s.line.advance number step with
    | none => s
    | some p => { s with line := p.line, ended := s.ended ++ (p.outcome.map (number, ·)).toList }
  | .report place =>
    match s.ended[place]? with
    | none => s
    | some result => { s with ended := s.ended.eraseIdx place, reports := s.reports ++ [result] }

def run (s : Shared) (actions : List Action) : Shared :=
  actions.foldl step s

def after (settings : Settings) (actions : List Action) (k : Nat) : Shared :=
  Trace.after step { line := { settings } } actions k

/-- How often a handshake is found among those that run, have ended and have reported. -/
def occurrences (s : Shared) (number : Nat) : Nat :=
  s.line.running.countP (·.number = number) + s.ended.countP (·.1 = number) +
    s.reports.countP (·.1 = number)

structure Sound (s : Shared) : Prop where
  balanced : s.line.Balanced (s.calls.countP Call.holds)
  numbers : ∀ n, s.occurrences n = s.calls.count (.started n)
  started : ∀ n, (n < s.line.started → s.calls.count (.started n) = 1) ∧
    (s.line.started ≤ n → s.calls.count (.started n) = 0)
  retrying : Call.retrying ∈ s.calls → s.line.state ≠ .idle

section Frame

variable (s : Shared) (place number : Nat) (e : Step)

@[simp]
theorem step_proceed_ended : (s.step (.proceed place)).ended = s.ended := by
  unfold step
  dsimp only
  split
  . rfl
  . rfl

@[simp]
theorem step_proceed_reports : (s.step (.proceed place)).reports = s.reports := by
  unfold step
  dsimp only
  split
  . rfl
  . rfl

@[simp]
theorem step_engine_calls : (s.step (.engine number e)).calls = s.calls := by
  unfold step
  dsimp only
  split
  . rfl
  . rfl

@[simp]
theorem step_engine_reports : (s.step (.engine number e)).reports = s.reports := by
  unfold step
  dsimp only
  split
  . rfl
  . rfl

theorem step_report {result : Nat × Outcome} (h : s.ended[place]? = some result)
    : s.step (.report place) =
        { s with ended := s.ended.eraseIdx place, reports := s.reports ++ [result] } := by
  unfold step
  dsimp only
  rw [h]

@[simp]
theorem step_report_line : (s.step (.report place)).line = s.line := by
  unfold step
  dsimp only
  split
  . rfl
  . rfl

@[simp]
theorem step_report_calls : (s.step (.report place)).calls = s.calls := by
  unfold step
  dsimp only
  split
  . rfl
  . rfl

end Frame

section Steps

variable {s : Shared} {place : Nat} {c c' : Call} {l : Line}

namespace Sound

theorem init (settings : Settings) : Sound { line := { settings } } where
  balanced := rfl
  numbers _ := rfl
  started n := ⟨fun h => absurd h (Nat.not_lt_zero n), fun _ => rfl⟩
  retrying h := by simp at h

theorem of_perm {calls : List Call} (h : s.Sound) (hcalls : s.calls.Perm calls) : Sound { s with calls } where
  balanced := by
    rw [← hcalls.countP_eq]
    exact h.balanced
  numbers n := by
    rw [← hcalls.count_eq]
    exact h.numbers n
  started n := by
    rw [← hcalls.count_eq]
    exact h.started n
  retrying hmem := h.retrying (hcalls.mem_iff.2 hmem)

theorem call (h : s.Sound) : (s.step .call).Sound := by
  have hcalls : ([Call.entering] ++ s.calls).Perm (s.calls ++ [.entering]) := List.perm_append_comm
  have hentering : Sound { s with calls := .entering :: s.calls } := by
    constructor
    . exact h.balanced
    . exact h.numbers
    . exact h.started
    . intro hmem
      apply h.retrying
      simpa using hmem
  exact hentering.of_perm hcalls

theorem proceeds {others : List Call} (h : Sound { s with calls := c :: others })
    (hc : Call.Proceeds s.line c c' l) : Sound { s with line := l, calls := c' :: others } := by
  have hbalanced := h.balanced
  have hnumbers := h.numbers
  have hstarted := h.started
  have hretrying := h.retrying
  simp only [occurrences, List.countP_cons, List.count_cons, List.mem_cons] at hbalanced hnumbers hstarted hretrying
  cases hc with
  | take _ hopen hstate =>
    have hfree : c.holds = false ∧ ∀ n, c ≠ .started n := by
      cases c with
      | entering => simp [Call.holds]
      | retrying => simp [Call.holds]
      | draining => simp [Call.taken?] at hopen
      | spawning => simp [Call.taken?] at hopen
      | started => simp [Call.taken?] at hopen
      | refused => simp [Call.taken?] at hopen
    constructor
    . simp only [List.countP_cons, Call.holds]
      simp only [hfree.1] at hbalanced
      exact hbalanced.take hstate
    . intro n
      simpa [occurrences, List.count_cons, hfree.2 n] using hnumbers n
    . intro n
      simpa [List.count_cons, hfree.2 n] using hstarted n
    . simp
  | retry hstate =>
    constructor
    . simpa [Call.holds] using hbalanced
    . simpa [occurrences, List.count_cons] using hnumbers
    . simpa [List.count_cons] using hstarted
    . intro _
      exact hstate
  | refuse hstate =>
    constructor
    . simpa [Call.holds] using hbalanced
    . simpa [occurrences, List.count_cons] using hnumbers
    . simpa [List.count_cons] using hstarted
    . intro _
      exact hretrying (.inl rfl)
  | drop queue => exact ⟨h.balanced, h.numbers, h.started, h.retrying⟩
  | drained =>
    constructor
    . simpa [List.countP_cons, Call.holds] using hbalanced
    . simpa [occurrences, List.count_cons] using hnumbers
    . simpa [List.count_cons] using hstarted
    . simpa using hretrying
  | spawn =>
    constructor
    . simp only [List.countP_cons, Call.holds]
      simp only [Call.holds] at hbalanced
      exact hbalanced.launch
    . intro n
      have hn := hnumbers n
      simp only [occurrences, Line.launch, List.count_cons, List.countP_append, List.countP_singleton,
        beq_iff_eq, Call.started.injEq, decide_eq_true_eq, reduceCtorEq, if_false] at hn ⊢
      omega
    . intro n
      have hn := hstarted n
      simp only [Line.launch, List.count_cons, beq_iff_eq, Call.started.injEq, reduceCtorEq,
        if_false] at hn ⊢
      split
      . omega
      . omega
    . unfold Line.launch
      simpa using hretrying
  | stay => exact h

theorem enqueue (h : s.Sound) (datagram : Bytes) : (s.step (.enqueue datagram)).Sound := by
  unfold step
  rcases s.line.enqueue_eq datagram with ⟨queue, heq⟩
  dsimp only
  rw [heq]
  exact ⟨h.balanced, h.numbers, h.started, h.retrying⟩

theorem engine (h : s.Sound) (number : Nat) (e : Step) : (s.step (.engine number e)).Sound := by
  unfold step
  dsimp only
  split
  . exact h
  . next p hadvance =>
    rcases h.balanced.advance_cases hadvance with ⟨-, -, hstarted, -, a, hrunning, hnumber, hcases⟩
    constructor
    . exact h.balanced.advance hadvance
    . intro n
      have hn := h.numbers n
      unfold occurrences at hn ⊢
      rcases hcases with ⟨houtcome, -, -, hrunning'⟩ | ⟨o, houtcome, -, -, hrunning'⟩
      . rw [hrunning] at hn
        simpa [houtcome, hrunning'] using hn
      . rw [← hn, hrunning]
        simp only [houtcome, hrunning', Option.map_some, Option.toList_some, List.countP_nil,
          List.countP_append, List.countP_singleton, hnumber, decide_eq_true_eq]
        omega
    . intro n
      dsimp only
      rw [hstarted]
      exact h.started n
    . intro _
      dsimp only
      rcases hcases with ⟨-, -, hstate, -⟩ | ⟨o, -, -, hstate, -⟩
      . simp [hstate]
      . cases o with
        | ok => simp [hstate, State.ofOutcome]
        | error => simp [hstate, State.ofOutcome]

theorem report (h : s.Sound) (place : Nat) : (s.step (.report place)).Sound := by
  unfold step
  dsimp only
  split
  . exact h
  . next result hresult =>
    constructor
    . exact h.balanced
    . intro n
      have hn := h.numbers n
      unfold occurrences at hn ⊢
      rw [(Trace.perm_of_getElem? hresult).countP_eq] at hn
      simp only [List.countP_cons, List.countP_append, List.countP_nil] at hn ⊢
      omega
    . exact h.started
    . exact h.retrying

theorem step (h : s.Sound) (a : Action) : (s.step a).Sound := by
  cases a with
  | call => exact h.call
  | proceed place =>
    unfold Shared.step
    dsimp only
    split
    . exact h
    . next c hc =>
      have htaken := (h.of_perm (Trace.perm_of_getElem? hc)).proceeds (c.proceeds s.line)
      exact htaken.of_perm (Trace.perm_set hc _).symm
  | enqueue datagram => exact h.enqueue datagram
  | detach => exact ⟨h.balanced, h.numbers, h.started, h.retrying⟩
  | engine number e => exact h.engine number e
  | report place => exact h.report place

end Sound

theorem step_established (h : s.Sound) (hstate : s.line.state = .established) (a : Action)
    : (s.step a).line.state = .established := by
  cases a with
  | call => exact hstate
  | proceed place =>
    unfold step
    dsimp only
    split
    . exact hstate
    . next c _ =>
      rcases (c.proceeds s.line).state with hsame | hidle | hfailed
      . exact hsame.trans hstate
      . simp [hstate] at hidle
      . simp [hstate] at hfailed
  | enqueue datagram =>
    rcases s.line.enqueue_eq datagram with ⟨queue, heq⟩
    unfold step
    dsimp only
    rw [heq]
    exact hstate
  | detach => exact hstate
  | engine number e =>
    unfold step
    dsimp only
    split
    . exact hstate
    . next p hadvance =>
      rcases h.balanced.advance_cases hadvance with ⟨-, hhandshaking, -⟩
      rw [hstate] at hhandshaking
      simp at hhandshaking
  | report place => simpa using hstate

theorem step_calls (s : Shared) (a : Action) (i : Nat)
    : (s.step a).calls[i]? = s.calls[i]? ∨
      (s.calls[i]? = none ∧ (s.step a).calls[i]? = some .entering) ∨
      ∃ c c', a = .proceed i ∧ s.calls[i]? = some c ∧ (s.step a).calls[i]? = some c' ∧
        Call.Proceeds s.line c c' (s.step a).line := by
  cases a with
  | call =>
    rcases Nat.lt_trichotomy i s.calls.length with hlt | heq | hgt
    . exact .inl (List.getElem?_append_left hlt)
    . right; left
      subst heq
      exact ⟨List.getElem?_eq_none le_rfl, List.getElem?_concat_length⟩
    . left
      unfold step
      rw [List.getElem?_eq_none, List.getElem?_eq_none]
      . omega
      . rw [List.length_append, List.length_singleton]
        omega
  | proceed place =>
    unfold step
    dsimp only
    split
    . exact .inl rfl
    . next c hc =>
      by_cases hplace : place = i
      . right; right
        subst hplace
        refine ⟨c, _, rfl, hc, ?_, c.proceeds s.line⟩
        dsimp only
        rw [List.getElem?_set_self]
        exact (List.getElem?_eq_some_iff.1 hc).1
      . left
        exact List.getElem?_set_ne hplace
  | enqueue => exact .inl rfl
  | detach => exact .inl rfl
  | engine => simp
  | report => simp

theorem step_taken? (h : s.Sound) (a : Action) (i : Nat)
    : (s.step a).calls[i]?.bind Call.taken? = s.calls[i]?.bind Call.taken? ∨
      a = .proceed i ∧ s.calls[i]?.bind Call.taken? = none ∧
      ∃ b, (s.step a).calls[i]?.bind Call.taken? = some b ∧
        (b = true ↔ s.line.state = .idle ∨ s.line.state = .failed) ∧
        (s.step a).line = if b then { s.line with state := .handshaking } else s.line := by
  rcases s.step_calls a i with hsame | ⟨hnone, hentering⟩ | ⟨c, c', ha, hc, hc', hproceeds⟩
  . rw [hsame]
    exact .inl rfl
  . rw [hnone, hentering]
    exact .inl rfl
  . rw [hc, hc', Option.bind_some, Option.bind_some]
    generalize (s.step a).line = l at hproceeds ⊢
    cases hproceeds with
    | take _ hopen hstate => exact .inr ⟨ha, hopen, true, rfl, by simp [hstate], rfl⟩
    | retry => exact .inl rfl
    | refuse hfailed =>
      -- The line was not idle at the first attempt, and no line becomes idle again.
      have hidle := h.retrying (List.mem_of_getElem? hc)
      exact .inr ⟨ha, rfl, false, rfl, by simp [hidle, hfailed], rfl⟩
    | drop => exact .inl rfl
    | drained => exact .inl rfl
    | spawn => exact .inl rfl
    | stay => exact .inl rfl

theorem step_started {n : Nat} (hc : s.calls[place]? = some (.started n)) (a : Action)
    : (s.step a).calls[place]? = some (.started n) := by
  rcases s.step_calls a place with hsame | ⟨hnone, -⟩ | ⟨c, c', -, hc', hstep, hproceeds⟩
  . rw [hsame, hc]
  . rw [hc] at hnone
    simp at hnone
  . rw [hc, Option.some.injEq] at hc'
    subst hc'
    rw [hstep]
    generalize (s.step a).line = l at hproceeds
    cases hproceeds with
    | take _ hopen => simp [Call.taken?] at hopen
    | stay => rfl

theorem step_ended {n : Nat} {o : Outcome} (h : s.Sound) (a : Action) (hmem : (n, o) ∈ (s.step a).ended)
    : (n, o) ∈ s.ended ∨
      ∃ e, a = .engine n e ∧ (∃ attempt ∈ s.line.running, attempt.number = n) ∧ Ends s.line e o ∧
        (s.step a).line.state = .ofOutcome o := by
  cases a with
  | call => exact .inl hmem
  | proceed place => exact .inl (by simpa using hmem)
  | enqueue datagram => exact .inl hmem
  | detach => exact .inl hmem
  | engine number e =>
    unfold step at hmem ⊢
    dsimp only at hmem ⊢
    split at hmem
    . exact .inl hmem
    . next p hadvance =>
      rcases List.mem_append.1 hmem with hmem | hmem
      . exact .inl hmem
      . right
        rcases h.balanced.advance_cases hadvance with ⟨-, -, -, -, attempt, hrunning, hnumber, hcases⟩
        rcases hcases with ⟨houtcome, -⟩ | ⟨o', houtcome, hends, hstate, -⟩
        . simp [houtcome] at hmem
        . simp only [houtcome, Option.map_some, Option.toList_some, List.mem_singleton, Prod.mk.injEq] at hmem
          rcases hmem with ⟨rfl, rfl⟩
          exact ⟨e, rfl, ⟨attempt, by simp [hrunning], hnumber⟩, hends, hstate⟩
  | report place =>
    left
    unfold step at hmem
    dsimp only at hmem
    split at hmem
    . exact hmem
    . exact List.mem_of_mem_eraseIdx hmem

theorem step_reports {n : Nat} {o : Outcome} (a : Action) (hmem : (n, o) ∈ (s.step a).reports)
    : (n, o) ∈ s.reports ∨ ∃ place, a = .report place ∧ s.ended[place]? = some (n, o) := by
  cases a with
  | call => exact .inl hmem
  | proceed place => exact .inl (by simpa using hmem)
  | enqueue datagram => exact .inl hmem
  | detach => exact .inl hmem
  | engine number e => exact .inl (by simpa using hmem)
  | report place =>
    unfold step at hmem
    dsimp only at hmem
    split at hmem
    . exact .inl hmem
    . next result hresult =>
      rcases List.mem_append.1 hmem with hmem | hmem
      . exact .inl hmem
      . rw [List.mem_singleton] at hmem
        rw [← hmem] at hresult
        exact .inr ⟨place, rfl, hresult⟩

end Steps

end Shared

end Intercom.Handshake
