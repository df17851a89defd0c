import Mathlib
import Intercom.Proofs.Handshake.Shared

/-!
This module contains the main statement about a shared line: which calls start a handshake, that one handshake
runs at most, in which state it leaves the line, and that it reports exactly once.
-/

namespace Intercom.Handshake.Shared

section Uninterrupted

def withCall (s : Shared) (c : Call) (l : Line) : Shared :=
  { s with line := l, calls := s.calls ++ [c] }

variable {s : Shared} {c : Call} {l : Line} {m : Nat}

theorem run_succ_proceed (m : Nat)
    : (s.withCall c l).run (List.replicate (m + 1) (.proceed s.calls.length)) =
        (s.withCall (c.proceed l).1 (c.proceed l).2).run (List.replicate m (.proceed s.calls.length)) := by
  rw [List.replicate_succ]
  unfold run
  rw [List.foldl_cons]
  congr 1
  unfold step withCall
  simp

theorem run_decided (hc : ∀ l, c.proceed l = (c, l)) (m : Nat)
    : (s.withCall c l).run (List.replicate m (.proceed s.calls.length)) = s.withCall c l := by
  induction m with
  | zero => rfl
  | succ m ih => rw [run_succ_proceed, hc, ih]

theorem run_draining (queue : List Bytes) (hm : queue.length + 2 ≤ m)
    : (s.withCall .draining { l with queue }).run (List.replicate m (.proceed s.calls.length)) =
        s.withCall (.started l.started) { l with queue := [] }.launch := by
  obtain ⟨m, rfl⟩ := Nat.exists_eq_add_of_le' (by omega : 1 ≤ m)
  induction queue generalizing m with
  | nil =>
    obtain ⟨m, rfl⟩ := Nat.exists_eq_add_of_le' (by simpa using hm : 1 ≤ m)
    rw [run_succ_proceed, run_succ_proceed]
    exact run_decided (fun _ => rfl) m
  | cons datagram queue ih =>
    rw [List.length_cons] at hm
    obtain ⟨m, rfl⟩ := Nat.exists_eq_add_of_le' (by omega : 1 ≤ m)
    rw [run_succ_proceed]
    exact ih m (by omega)

/-- A call that nothing interrupts starts a handshake as a single step would. -/
theorem run_call (hm : s.line.queue.length + 4 ≤ m)
    : s.run (.call :: List.replicate m (.proceed s.calls.length)) =
        { s with
          line := s.line.start.2
          calls := s.calls ++ [if s.line.start.1 then .started s.line.started else .refused] } := by
  have hcall : s.run (.call :: List.replicate m (.proceed s.calls.length)) =
      (s.withCall .entering s.line).run (List.replicate m (.proceed s.calls.length)) := rfl
  obtain ⟨m, rfl⟩ := Nat.exists_eq_add_of_le' (by omega : 2 ≤ m)
  rw [hcall, Line.start_eq, run_succ_proceed]
  unfold Call.proceed
  cases hidle : s.line.claim .idle with
  | some l =>
    rw [Line.claim_eq_some_iff] at hidle
    rcases hidle with ⟨-, rfl⟩
    apply run_draining (l := { s.line with state := .handshaking }) s.line.queue
    omega
  | none =>
    rw [run_succ_proceed]
    unfold Call.proceed
    cases hfailed : s.line.claim .failed with
    | some l =>
      rw [Line.claim_eq_some_iff] at hfailed
      rcases hfailed with ⟨-, rfl⟩
      apply run_draining (l := { s.line with state := .handshaking }) s.line.queue
      omega
    | none => exact run_decided (fun _ => rfl) m

end Uninterrupted

section Runs

variable {settings : Settings} {actions : List Action} {a : Action} {k : Nat}

theorem after_succ (h : actions[k]? = some a)
    : after settings actions (k + 1) = (after settings actions k).step a :=
  Trace.after_succ h

theorem after_sound (settings : Settings) (actions : List Action) (k : Nat) : (after settings actions k).Sound :=
  Trace.keeps (fun _ a _ h => h.step a) (Nat.zero_le k) (Sound.init settings)

theorem after_of_le {P : Shared → Prop} (hP : ∀ s a, s.Sound → P s → P (s.step a)) {j : Nat} (hj : j ≤ k)
    (h : P (after settings actions j)) : P (after settings actions k) :=
  Trace.keeps (fun i a _ => hP _ a (after_sound settings actions i)) hj h

theorem exists_step_of_after {P : Shared → Prop} (hinit : ¬ P { line := { settings } })
    (h : P (after settings actions k))
    : ∃ j < k, ∃ a, actions[j]? = some a ∧ ¬ P (after settings actions j) ∧
        P ((after settings actions j).step a) :=
  Trace.exists_step hinit h

/-- Some action ends the handshake with this number, and leaves the line in the end state. -/
def EndsAt (settings : Settings) (actions : List Action) (k number : Nat) (o : Outcome) : Prop :=
  ∃ e, actions[k]? = some (.engine number e) ∧
    (∃ attempt ∈ (after settings actions k).line.running, attempt.number = number) ∧
    Ends (after settings actions k).line e o ∧ (after settings actions (k + 1)).line.state = .ofOutcome o

theorem ended_history {n : Nat} {o : Outcome} (h : (n, o) ∈ (after settings actions k).ended)
    : ∃ j < k, EndsAt settings actions j n o := by
  rcases exists_step_of_after (P := fun s => (n, o) ∈ s.ended) List.not_mem_nil h with ⟨j, hj, a, ha, hnot, hstep⟩
  rcases step_ended (after_sound settings actions j) a hstep with hbefore | ⟨e, rfl, hrunning, hends, hstate⟩
  . exact absurd hbefore hnot
  . rw [← after_succ ha] at hstate
    exact ⟨j, hj, e, ha, hrunning, hends, hstate⟩

theorem reports_history {n : Nat} {o : Outcome} (h : (n, o) ∈ (after settings actions k).reports)
    : ∃ i < k, ∃ place, actions[i]? = some (.report place) ∧
        (after settings actions i).ended[place]? = some (n, o) := by
  rcases exists_step_of_after (P := fun s => (n, o) ∈ s.reports) List.not_mem_nil h with ⟨i, hi, a, ha, hnot, hstep⟩
  rcases step_reports a hstep with hbefore | ⟨place, rfl, hplace⟩
  . exact absurd hbefore hnot
  . exact ⟨i, hi, place, ha, hplace⟩

theorem taken?_iff (i : Nat) (b : Bool)
    : (after settings actions k).calls[i]?.bind Call.taken? = some b ↔
        ∃ j < k, actions[j]? = some (.proceed i) ∧
          (after settings actions j).calls[i]?.bind Call.taken? = none ∧
          (after settings actions (j + 1)).calls[i]?.bind Call.taken? = some b ∧
          (b = true ↔ (after settings actions j).line.state = .idle ∨ (after settings actions j).line.state = .failed) ∧
          (after settings actions (j + 1)).line =
            if b then { (after settings actions j).line with state := .handshaking }
            else (after settings actions j).line := by
  constructor
  . intro h
    rcases exists_step_of_after (P := fun s => s.calls[i]?.bind Call.taken? = some b) (by simp) h with
      ⟨j, hj, a, ha, hnot, hstep⟩
    rcases step_taken? (after_sound settings actions j) a i with hsame | ⟨rfl, hopen, b', hb', hstate, hline⟩
    . rw [hsame] at hstep
      exact absurd hstep hnot
    . rw [hb', Option.some.injEq] at hstep
      subst hstep
      rw [← after_succ ha] at hb' hline
      exact ⟨j, hj, ha, hopen, hb', hstate, hline⟩
  . intro h
    rcases h with ⟨j, hj, -, -, hdecided, -⟩
    have hkeeps : ∀ (s : Shared) a, s.Sound → s.calls[i]?.bind Call.taken? = some b →
        (s.step a).calls[i]?.bind Call.taken? = some b := by
      intro s a hsound hb
      rcases step_taken? hsound a i with hsame | ⟨-, hopen, -⟩
      . rw [hsame, hb]
      . rw [hb] at hopen
        simp at hopen
    exact after_of_le (P := fun s => s.calls[i]?.bind Call.taken? = some b) hkeeps hj hdecided

theorem Sound.one_running {s : Shared} (h : s.Sound)
    : s.line.running.length ≤ 1 ∧
        (s.line.state = .handshaking ↔ s.line.running ≠ [] ∨ ∃ c ∈ s.calls, c.holds) := by
  have hbalanced := h.balanced
  have hholds : 0 < s.calls.countP Call.holds ↔ ∃ c ∈ s.calls, c.holds := List.countP_pos_iff
  rw [← hholds, ← List.length_pos_iff]
  unfold Line.Balanced at hbalanced
  split at hbalanced
  . next hstate =>
    simp only [hstate, true_iff]
    omega
  . next hstate =>
    simp only [hstate, false_iff]
    omega

theorem Sound.advance_eq_none {s : Shared} {attempt : Attempt} {e : Step} (h : s.Sound)
    (hattempt : attempt ∈ s.line.running) (hnone : s.line.advance attempt.number e = none)
    : attempt.created = true ∧ ∃ message, e = .createFails message := by
  have hrunning : s.line.running = [attempt] := by
    rcases List.length_eq_one_iff.1 (le_antisymm h.one_running.1 (List.length_pos_of_mem hattempt)) with ⟨b, hb⟩
    rw [hb, List.mem_singleton] at hattempt
    rw [hb, hattempt]
  rw [Line.advance_eq_none_iff, hrunning] at hnone
  simpa [and_comm] using hnone

theorem Sound.engine_cases {s : Shared} {n : Nat} {e : Step} {p : Progress} (h : s.Sound)
    (hadvance : s.line.advance n e = some p)
    : (∀ o, p.outcome = some o ↔ Ends s.line e o) ∧
        (s.step (.engine n e)).line.state = p.outcome.elim .handshaking .ofOutcome ∧
        ((s.step (.engine n e)).line.state = .established ↔
          ∃ material, e = .connects (.ok material) ∧ material.length = Srtp.materialLength) := by
  have hstep : (s.step (.engine n e)).line = p.line := by
    unfold Shared.step
    simp only [hadvance]
  rw [hstep]
  have hestablished : (∃ masters, Ends s.line e (.ok masters)) ↔
      ∃ material, e = .connects (.ok material) ∧ material.length = Srtp.materialLength := by
    constructor
    . intro hends
      rcases hends with ⟨masters, hends⟩
      rw [Ends.ok_iff] at hends
      rcases hends with ⟨material, hlength, he, -⟩
      exact ⟨material, he, hlength⟩
    . intro hends
      rcases hends with ⟨material, rfl, hlength⟩
      exact ⟨_, .success material hlength⟩
  rw [← hestablished]
  rcases h.balanced.advance_cases hadvance with ⟨-, -, -, -, _, -, -, hcases⟩
  rcases hcases with ⟨houtcome, hends, hstate, -⟩ | ⟨o, houtcome, hends, hstate, -⟩
  . rw [houtcome, hstate]
    refine ⟨?_, rfl, ?_⟩
    . intro o
      simp [hends o]
    . simp [hends]
  . rw [houtcome, hstate]
    refine ⟨?_, rfl, ?_⟩
    . intro o'
      rw [Option.some.injEq]
      constructor
      . intro ho
        rw [← ho]
        exact hends
      . exact hends.unique
    . cases o with
      | ok masters =>
        simp only [State.ofOutcome, true_iff]
        exact ⟨masters, hends⟩
      | error error =>
        simp only [State.ofOutcome, reduceCtorEq, false_iff, not_exists]
        intro masters hok
        have := hends.unique hok
        simp at this

/-- In every order of steps: a call that nothing interrupts is one start; a call takes the line exactly when it
is idle or failed; one handshake runs at most; what is established stays so; a running handshake takes every
step and leaves the state that its stages determine; each started handshake runs, has ended or has reported
exactly once, the report after the end; and one that has ended reports its outcome when its turn comes. -/
theorem starts_and_reports (settings : Settings) (actions : List Action)
    : let s := after settings actions
      (∀ k m, (s k).line.queue.length + 4 ≤ m →
        (s k).run (.call :: List.replicate m (.proceed (s k).calls.length)) =
          { s k with
            line := (s k).line.start.2
            calls := (s k).calls ++ [if (s k).line.start.1 then .started (s k).line.started else .refused] }) ∧
      (∀ k i b, (s k).calls[i]?.bind Call.taken? = some b ↔
        ∃ j < k, actions[j]? = some (.proceed i) ∧ (s j).calls[i]?.bind Call.taken? = none ∧
          (s (j + 1)).calls[i]?.bind Call.taken? = some b ∧
          (b = true ↔ (s j).line.state = .idle ∨ (s j).line.state = .failed) ∧
          (s (j + 1)).line = if b then { (s j).line with state := .handshaking } else (s j).line) ∧
      (∀ k, (s k).line.running.length ≤ 1 ∧
        ((s k).line.state = .handshaking ↔ (s k).line.running ≠ [] ∨ ∃ c ∈ (s k).calls, c.holds)) ∧
      (∀ j k, j ≤ k → (s j).line.state = .established → (s k).line.state = .established) ∧
      (∀ k, ∀ a ∈ (s k).line.running, ∀ e, (s k).line.advance a.number e = none →
        a.created = true ∧ ∃ message, e = .createFails message) ∧
      (∀ k n e p, actions[k]? = some (.engine n e) → (s k).line.advance n e = some p →
        (∀ o, p.outcome = some o ↔ Ends (s k).line e o) ∧
          (s (k + 1)).line.state = p.outcome.elim .handshaking .ofOutcome ∧
          ((s (k + 1)).line.state = .established ↔
            ∃ material, e = .connects (.ok material) ∧ material.length = 60)) ∧
      (∀ (j k i n : Nat), j ≤ k → (s j).calls[i]? = some (.started n) → (s k).calls[i]? = some (.started n)) ∧
      (∀ k n, (s k).occurrences n = (s k).calls.count (.started n) ∧ (s k).occurrences n ≤ 1) ∧
      (∀ k n o, (n, o) ∈ (s k).reports →
        ∃ i < k, (∃ place, actions[i]? = some (.report place) ∧ (s i).ended[place]? = some (n, o)) ∧
          ∃ j < i, EndsAt settings actions j n o) ∧
      (∀ k place result, (s k).ended[place]? = some result →
        (s k).step (.report place) =
          { s k with ended := (s k).ended.eraseIdx place, reports := (s k).reports ++ [result] }) ∧
      (∀ k n, (s k).line.running = [] → (s k).ended = [] →
        (s k).reports.countP (·.1 = n) = (s k).calls.count (.started n)) := by
  intro s
  have hsound : ∀ k, (s k).Sound := after_sound settings actions
  refine ⟨?_, ?_, ?_, ?_, ?_, ?_, ?_, ?_, ?_, ?_, ?_⟩
  . intro k m hm
    exact run_call hm
  . intro k i b
    exact taken?_iff i b
  . intro k
    exact (hsound k).one_running
  . intro j k hj hstate
    exact after_of_le (P := fun s => s.line.state = .established)
      (fun _ a hs hstate => step_established hs hstate a) hj hstate
  . intro k a ha e hnone
    exact (hsound k).advance_eq_none ha hnone
  . intro k n e p ha hadvance
    have hsucc : s (k + 1) = (s k).step (.engine n e) := after_succ ha
    rw [hsucc]
    exact (hsound k).engine_cases hadvance
  . intro j k i n hj hstarted
    exact after_of_le (P := fun s => s.calls[i]? = some (.started n))
      (fun _ a _ hstarted => step_started hstarted a) hj hstarted
  . intro k n
    have hnumbers := (hsound k).numbers n
    have hstarted := (hsound k).started n
    omega
  . intro k n o h
    rcases reports_history h with ⟨i, hi, place, ha, hplace⟩
    exact ⟨i, hi, ⟨place, ha, hplace⟩, ended_history (List.mem_of_getElem? hplace)⟩
  . intro k place result h
    exact (s k).step_report place h
  . intro k n hrunning hended
    have hnumbers := (hsound k).numbers n
    unfold occurrences at hnumbers
    rw [hrunning, hended, List.countP_nil, List.countP_nil] at hnumbers
    omega

end Runs

end Intercom.Handshake.Shared
