import Mathlib
import Intercom.Proofs.Handshake.Shared

/-!
This module contains how long a shared line is held for one handshake: from the moment at which the call for it is about
to launch it until it has ended. In between nobody else launches a handshake or drops what is queued.
-/

namespace Intercom.Handshake.Shared

variable {s s' : Shared} {number n : Nat} {c c' : Call} {l : Line} {attempt : Attempt}

/-- The line is held for the handshake with this number: it is about to be launched, or it runs. -/
inductive Ready (s : Shared) (number : Nat) : Prop where
  | spawning (hcall : .spawning ∈ s.calls) (hnumber : s.line.started = number)
  | running (attempt : Attempt) (hrunning : attempt ∈ s.line.running) (hnumber : attempt.number = number)

structure Over (s : Shared) (number : Nat) : Prop where
  started : number < s.line.started
  running : ∀ attempt ∈ s.line.running, attempt.number ≠ number

theorem Ready.mono (h : Ready s number) (hcalls : .spawning ∈ s.calls → .spawning ∈ s'.calls)
    (hstarted : s'.line.started = s.line.started) (hrunning : s'.line.running = s.line.running)
    : Ready s' number := by
  cases h with
  | spawning hcall hnumber => exact .spawning (hcalls hcall) (hstarted.trans hnumber)
  | running attempt hattempt hnumber =>
    rw [← hrunning] at hattempt
    exact .running attempt hattempt hnumber

theorem Ready.of_perm {calls : List Call} (h : Ready s number) (hcalls : s.calls.Perm calls)
    : Ready { s with calls } number :=
  h.mono hcalls.mem_iff.1 rfl rfl

theorem Ready.positive (h : Ready s number) : 0 < s.line.running.length + s.calls.countP Call.holds := by
  cases h with
  | spawning hcall =>
    have hholds : 0 < s.calls.countP Call.holds := List.countP_pos_iff.2 ⟨_, hcall, rfl⟩
    omega
  | running attempt hrunning =>
    have hlength := List.length_pos_of_mem hrunning
    omega

theorem Sound.one (h : s.Sound) : s.line.running.length + s.calls.countP Call.holds ≤ 1 := by
  have hbalanced := h.balanced
  unfold Line.Balanced at hbalanced
  split at hbalanced
  . omega
  . omega

theorem Sound.lt_started (h : s.Sound) (hattempt : attempt ∈ s.line.running) : attempt.number < s.line.started := by
  have hnumbers := h.numbers attempt.number
  have hstarted := (h.started attempt.number).2
  have hrunning : 0 < s.line.running.countP (·.number = attempt.number) :=
    List.countP_pos_iff.2 ⟨attempt, hattempt, by simp⟩
  unfold occurrences at hnumbers
  by_contra hle
  rw [not_lt] at hle
  have hnone := hstarted hle
  omega

theorem Sound.place_eq {i j : Nat} (h : s.Sound) (hc : s.calls[i]? = some c) (hc' : s.calls[j]? = some c')
    (hholds : c.holds) (hholds' : c'.holds) : i = j := by
  by_contra hne
  have hone := h.one
  have hother : c' ∈ s.calls.eraseIdx i := by
    rw [List.mem_eraseIdx_iff_getElem?]
    exact ⟨j, Ne.symm hne, hc'⟩
  have hpositive : 0 < (s.calls.eraseIdx i).countP Call.holds := List.countP_pos_iff.2 ⟨c', hother, hholds'⟩
  rw [(Trace.perm_of_getElem? hc).countP_eq, List.countP_cons_of_pos hholds] at hone
  omega

theorem Ready.not_draining (h : Ready s number) (hsound : s.Sound) : .draining ∉ s.calls := by
  intro hmem
  have hothers : Ready { s with calls := s.calls.erase .draining } number :=
    h.mono (fun hcall => (List.mem_erase_of_ne (by simp)).2 hcall) rfl rfl
  have hpositive := hothers.positive
  have hone := hsound.one
  rw [(List.perm_cons_erase hmem).countP_eq, List.countP_cons_of_pos rfl] at hone
  dsimp only at hpositive
  omega

theorem Ready.number_eq (h : Ready s number) (hsound : s.Sound) (hattempt : attempt ∈ s.line.running)
    : attempt.number = number := by
  have hone := hsound.one
  have hlength := List.length_pos_of_mem hattempt
  cases h with
  | spawning hcall =>
    have hholds : 0 < s.calls.countP Call.holds := List.countP_pos_iff.2 ⟨_, hcall, rfl⟩
    omega
  | running other hother hnumber =>
    rcases List.length_eq_one_iff.1 (by omega : s.line.running.length = 1) with ⟨only, honly⟩
    rw [honly, List.mem_singleton] at hattempt hother
    rw [hattempt, ← hother]
    exact hnumber

theorem Ready.proceeds {others : List Call} (hsound : Sound { s with calls := c :: others })
    (h : Ready { s with calls := c :: others } number) (hc : Call.Proceeds s.line c c' l)
    : Ready { s with line := l, calls := c' :: others } number := by
  have hdraining := h.not_draining hsound
  cases hc with
  | take _ hopen =>
    have hne : Call.spawning ≠ c := by
      intro heq
      rw [← heq] at hopen
      simp [Call.taken?] at hopen
    exact h.mono (by simp [hne]) rfl rfl
  | retry | refuse => exact h.mono (by simp) rfl rfl
  | drop | drained => exact absurd List.mem_cons_self hdraining
  | spawn =>
    cases h with
    | spawning _ hnumber => exact .running ⟨s.line.started, false⟩ (by simp [Line.launch]) hnumber
    | running attempt hrunning =>
      have hone := hsound.one
      have hlength := List.length_pos_of_mem hrunning
      rw [List.countP_cons_of_pos rfl] at hone
      dsimp only at hone hlength
      omega
  | stay => exact h

theorem Ready.step (h : Ready s number) (hsound : s.Sound) (a : Action)
    : Ready (s.step a) number ∨ Over (s.step a) number := by
  cases a with
  | call => exact .inl (h.mono (List.mem_append_left _) rfl rfl)
  | proceed place =>
    left
    unfold Shared.step
    dsimp only
    split
    . exact h
    . next c hc =>
      have hcalls := Trace.perm_of_getElem? hc
      have htaken := Ready.proceeds (hsound.of_perm hcalls) (h.of_perm hcalls) (c.proceeds s.line)
      exact htaken.of_perm (Trace.perm_set hc _).symm
  | enqueue datagram =>
    left
    rcases s.line.enqueue_eq datagram with ⟨queue, heq⟩
    unfold Shared.step
    dsimp only
    rw [heq]
    exact h.mono id rfl rfl
  | detach => exact .inl (h.mono id rfl rfl)
  | engine n e =>
    unfold Shared.step
    dsimp only
    split
    . exact .inl h
    . next p hadvance =>
      rcases hsound.balanced.advance_cases hadvance with ⟨-, -, hstarted, -, attempt, hrunning, -, hcases⟩
      have hattempt : attempt ∈ s.line.running := by
        rw [hrunning]
        exact List.mem_singleton_self _
      have hnumber := h.number_eq hsound hattempt
      rcases hcases with ⟨-, -, -, hrunning'⟩ | ⟨o, -, -, -, hrunning'⟩
      . left
        refine .running { attempt with created := true } ?_ hnumber
        dsimp only
        rw [hrunning']
        exact List.mem_singleton_self _
      . right
        constructor
        . dsimp only
          rw [hstarted, ← hnumber]
          exact hsound.lt_started hattempt
        . dsimp only
          rw [hrunning']
          simp
  | report place =>
    left
    apply h.mono
    . rw [step_report_calls]
      exact id
    . rw [step_report_line]
    . rw [step_report_line]

theorem step_proceed {place : Nat} (hc : s.calls[place]? = some c)
    : s.step (.proceed place) =
        { s with line := (c.proceed s.line).2, calls := s.calls.set place (c.proceed s.line).1 } := by
  unfold step
  dsimp only
  rw [hc]

theorem calls_step_proceed {place : Nat} (hc : s.calls[place]? = some c)
    : (s.step (.proceed place)).calls[place]? = some (c.proceed s.line).1 := by
  rw [step_proceed hc]
  exact List.getElem?_set_self (List.getElem?_eq_some_iff.1 hc).1

theorem line_cases (s : Shared) (a : Action)
    : (∃ state queue running,
        (s.step a).line = { s.line with state, queue, running } ∧ a ≠ .detach ∧
        ∀ attempt ∈ running, ∃ old ∈ s.line.running, old.number = attempt.number) ∨
      (∃ place, a = .proceed place ∧ s.calls[place]? = some .spawning ∧ (s.step a).line = s.line.launch) ∨
      (a = .detach ∧ (s.step a).line = s.line.detach) := by
  have hsame : ∀ attempt ∈ s.line.running, ∃ old ∈ s.line.running, old.number = attempt.number := by
    intro attempt hattempt
    exact ⟨attempt, hattempt, rfl⟩
  cases a with
  | call => exact .inl ⟨_, _, _, rfl, by simp, hsame⟩
  | proceed place =>
    unfold step
    dsimp only
    split
    . exact .inl ⟨_, _, _, rfl, by simp, hsame⟩
    . next c hc =>
      dsimp only
      have hproceeds := c.proceeds s.line
      generalize (c.proceed s.line).1 = c' at hproceeds
      generalize (c.proceed s.line).2 = l at hproceeds ⊢
      cases hproceeds with
      | spawn => exact .inr (.inl ⟨place, rfl, hc, rfl⟩)
      | _ => exact .inl ⟨_, _, _, rfl, by simp, hsame⟩
  | enqueue datagram =>
    rcases s.line.enqueue_eq datagram with ⟨queue, heq⟩
    exact .inl ⟨_, queue, _, heq, by simp, hsame⟩
  | detach => exact .inr (.inr ⟨rfl, rfl⟩)
  | engine number e =>
    left
    unfold step
    dsimp only
    split
    . exact ⟨_, _, _, rfl, by simp, hsame⟩
    . next p hadvance =>
      rcases (Line.advance_cases hadvance).2 with ⟨⟨-, queue, hline⟩, -⟩ | ⟨o, -, -, hline⟩
      . refine ⟨_, _, _, hline, by simp, ?_⟩
        intro attempt hattempt
        unfold Line.markCreated at hattempt
        rw [List.mem_map] at hattempt
        rcases hattempt with ⟨old, hold, rfl⟩
        refine ⟨old, hold, ?_⟩
        split
        . rfl
        . rfl
      . refine ⟨_, _, _, hline, by simp, ?_⟩
        intro attempt hattempt
        exact ⟨attempt, List.mem_of_mem_filter hattempt, rfl⟩
  | report place =>
    rw [step_report_line]
    exact .inl ⟨_, _, _, rfl, by simp, hsame⟩

theorem settings_step (s : Shared) (a : Action) : (s.step a).line.settings = s.line.settings := by
  rcases s.line_cases a with ⟨state, queue, running, hline, -⟩ | ⟨place, -, -, hline⟩ | ⟨-, hline⟩
  . rw [hline]
  . rw [hline]
    rfl
  . rw [hline]
    rfl

theorem attached_step (s : Shared) (a : Action)
    : (s.step a).line.attached = false ↔ s.line.attached = false ∨ a = .detach := by
  rcases s.line_cases a with ⟨state, queue, running, hline, hne, -⟩ | ⟨place, rfl, -, hline⟩ | ⟨rfl, hline⟩
  . rw [hline]
    simp [hne]
  . rw [hline]
    simp [Line.launch]
  . rw [hline]
    simp [Line.detach]

theorem started_le_step (s : Shared) (a : Action) : s.line.started ≤ (s.step a).line.started := by
  rcases s.line_cases a with ⟨state, queue, running, hline, -⟩ | ⟨place, -, -, hline⟩ | ⟨-, hline⟩
  . rw [hline]
  . rw [hline]
    exact Nat.le_succ _
  . rw [hline]
    exact le_rfl

theorem Over.step (h : Over s number) (a : Action) : Over (s.step a) number := by
  refine ⟨lt_of_lt_of_le h.started (s.started_le_step a), ?_⟩
  intro attempt hattempt
  rcases s.line_cases a with ⟨state, queue, running, hline, -, hold⟩ | ⟨place, -, -, hline⟩ | ⟨-, hline⟩
  . rw [hline] at hattempt
    rcases hold attempt hattempt with ⟨old, hmem, hnumber⟩
    rw [← hnumber]
    exact h.running old hmem
  . rw [hline] at hattempt
    unfold Line.launch at hattempt
    rw [List.mem_append, List.mem_singleton] at hattempt
    rcases hattempt with hattempt | rfl
    . exact h.running attempt hattempt
    . exact Nat.ne_of_gt h.started
  . rw [hline] at hattempt
    exact h.running attempt hattempt

end Intercom.Handshake.Shared
