import Mathlib
import Intercom.Handshake.Line

/-!
This module contains what the operations on a line do: a start is two attempts to take the line, followed by
a launch; a handshake ends in one of six ways; and a line is handshaking as long as one handshake is launched
or runs on it.
-/

namespace Intercom.Handshake

open Srtp (materialLength MasterPair Side)

/-- The state in which a handshake leaves its line. -/
def State.ofOutcome : Outcome → State
  | .ok _ => .established
  | .error _ => .failed

/-- The steps that end a handshake, and how: at the first stage that fails, or with the keys of the client's
side. -/
inductive Ends (l : Line) : Step → Outcome → Prop where
  | creation (message : String) : Ends l (.createFails message) (.error (.failed message))
  | reading (room : Nat) (hqueue : l.queue = [])
      : Ends l (.read room true) (.error (.io (if l.attached then NoDatagram.timeout else .closed).message))
  | connection (message : String) : Ends l (.fails message) (.error (.failed message))
  | exporting (message : String) : Ends l (.connects (.error message)) (.error (.failed message))
  | splitting (material : Bytes) (hlength : material.length ≠ materialLength)
      : Ends l (.connects (.ok material)) (.error (.materialLength material.length))
  | success (material : Bytes) (hlength : material.length = materialLength)
      : Ends l (.connects (.ok material)) (.ok (.ofMaterial ⟨material, hlength⟩ .client))

namespace Ends

variable {l : Line} {s : Step}

theorem ok_iff {masters : MasterPair}
    : Ends l s (.ok masters) ↔
        ∃ material hlength, s = .connects (.ok material) ∧ masters = .ofMaterial ⟨material, hlength⟩ .client := by
  constructor
  . intro h
    cases h with
    | success material hlength => exact ⟨material, hlength, rfl, rfl⟩
  . intro h
    rcases h with ⟨material, hlength, rfl, rfl⟩
    exact .success material hlength

theorem unique {o o' : Outcome} (h : Ends l s o) (h' : Ends l s o') : o = o' := by
  cases h with
  | creation => cases h'; rfl
  | reading => cases h'; rfl
  | connection => cases h'; rfl
  | exporting => cases h'; rfl
  | splitting _ hlength =>
    cases h' with
    | splitting => rfl
    | success _ hlength' => exact absurd hlength' hlength
  | success _ hlength =>
    cases h' with
    | splitting _ hlength' => exact absurd hlength hlength'
    | success => rfl

end Ends

theorem keysOf_eq_ok {material : Bytes} (h : material.length = materialLength) (side : Side)
    : keysOf side material = .ok (.ofMaterial ⟨material, h⟩ side) := by
  have hoctets : Octets.ofBytes? materialLength material = some ⟨material, h⟩ := Octets.ofBytes?_eq_some_iff.2 rfl
  unfold keysOf
  rw [hoctets]

theorem keysOf_eq_error {material : Bytes} (h : material.length ≠ materialLength) (side : Side)
    : keysOf side material = .error (.materialLength material.length) := by
  unfold keysOf
  split
  . rfl
  . next m hoctets =>
    rw [Octets.ofBytes?_eq_some_iff] at hoctets
    rw [hoctets] at h
    exact absurd m.length_eq h

theorem ends_connects (l : Line) (material : Bytes)
    : Ends l (.connects (.ok material)) (keysOf .client material) := by
  by_cases hlength : material.length = materialLength
  . rw [keysOf_eq_ok hlength]
    exact .success material hlength
  . rw [keysOf_eq_error hlength]
    exact .splitting material hlength

namespace Line

variable {l l' : Line} {number : Nat} {s : Step} {p : Progress} {launching : Nat}

/-- Takes the line if it is in the expected state. -/
def claim (l : Line) (expected : State) : Option Line :=
  if l.state = expected then some { l with state := .handshaking } else none

/-- Lets the handshake run for which the line was taken. -/
def launch (l : Line) : Line :=
  { l with
    started := l.started + 1
    running := l.running ++ [⟨l.started, false⟩] }

theorem claim_eq_some_iff {expected : State}
    : l.claim expected = some l' ↔ l.state = expected ∧ l' = { l with state := .handshaking } := by
  unfold claim
  split
  . next h => simp [h, eq_comm]
  . next h => simp [h]

theorem claim_eq_none_iff {expected : State} : l.claim expected = none ↔ l.state ≠ expected := by
  unfold claim
  split
  . next h => simp [h]
  . next h => simp [h]

theorem start_eq (l : Line)
    : l.start =
        match (l.claim .idle).or (l.claim .failed) with
        | some l => (true, { l with queue := [] }.launch)
        | none => (false, l) := by
  unfold start claim
  cases l.state with
  | idle => rfl
  | handshaking => rfl
  | established => rfl
  | failed => rfl

theorem start_cases (l : Line)
    : (l.start.1 = true ∧ (l.state = .idle ∨ l.state = .failed) ∧ l.start.2.attached = l.attached ∧
        l.start.2.running = l.running ++ [⟨l.started, false⟩]) ∨
      (l.start = (false, l)) := by
  unfold start
  split
  . next hstate => exact .inl ⟨rfl, hstate, rfl, rfl⟩
  . exact .inr rfl

/-- What a step of a handshake that goes on can do. -/
structure GoesOn (l : Line) (number : Nat) (p : Progress) : Prop where
  outcome : p.outcome = none
  line : ∃ queue, p.line = { l.markCreated number with queue }

theorem enqueue_eq (l : Line) (datagram : Bytes) : ∃ queue, (l.enqueue datagram).2 = { l with queue } := by
  unfold enqueue
  split
  . exact ⟨_, rfl⟩
  . exact ⟨l.queue, rfl⟩

/-- A running handshake takes every step; only the transport cannot be set up twice. -/
theorem advance_eq_none_iff (l : Line) (number : Nat) (s : Step)
    : l.advance number s = none ↔
        l.running.find? (·.number = number) = none ∨
        ∃ a message, l.running.find? (·.number = number) = some a ∧ a.created = true ∧ s = .createFails message := by
  unfold advance
  split
  . next hnone => simp [hnone]
  . next a ha =>
    rw [ha]
    cases s with
    | createFails message => simp
    | send datagram => simp
    | read room givesUp =>
      dsimp only
      split
      . simp
      . split
        . simp
        . simp
    | askLimits => simp
    | fails message => simp
    | connects exported => simp

theorem finish_markCreated (l : Line) (number : Nat) (o : Outcome)
    : (l.markCreated number).finish number o = l.finish number o := by
  unfold markCreated finish
  dsimp only
  congr 1
  induction l.running with
  | nil => rfl
  | cons a running ih =>
    rw [List.map_cons, List.filter_cons, List.filter_cons, ih]
    split
    . next h => simp [h]
    . next h => simp [h]

theorem ends_line (l : Line) (number : Nat) (answer : Answer) (o : Outcome)
    : ((l.markCreated number).ends number answer o).line = l.finish number o :=
  finish_markCreated l number o

theorem advance_cases (h : l.advance number s = some p)
    : (∃ a, l.running.find? (·.number = number) = some a) ∧
      ((l.GoesOn number p ∧ ∀ o, ¬ Ends l s o) ∨
        ∃ o, Ends l s o ∧ p.outcome = some o ∧ p.line = l.finish number o) := by
  unfold advance at h
  split at h
  . simp at h
  . next a ha =>
    refine ⟨⟨a, ha⟩, ?_⟩
    cases s with
    | createFails message =>
      dsimp only at h
      split at h
      . simp at h
      . right
        cases h
        exact ⟨_, .creation message, rfl, ends_line l number _ _⟩
    | send datagram =>
      left
      cases h
      refine ⟨⟨rfl, l.queue, rfl⟩, ?_⟩
      intro o ho
      cases ho
    | read room givesUp =>
      dsimp only at h
      split at h
      . next datagram queue hqueue =>
        left
        cases h
        refine ⟨⟨rfl, queue, rfl⟩, ?_⟩
        intro o ho
        cases ho with
        | reading _ hempty =>
          unfold markCreated at hqueue
          rw [hempty] at hqueue
          simp at hqueue
      . next hqueue =>
        split at h
        . next hgivesUp =>
          right
          cases h
          subst hgivesUp
          exact ⟨_, .reading room hqueue, rfl, ends_line l number _ _⟩
        . next hgoes =>
          left
          cases h
          refine ⟨⟨rfl, l.queue, rfl⟩, ?_⟩
          intro o ho
          cases ho
          exact hgoes rfl
    | askLimits =>
      left
      cases h
      refine ⟨⟨rfl, l.queue, rfl⟩, ?_⟩
      intro o ho
      cases ho
    | fails message =>
      right
      cases h
      exact ⟨_, .connection message, rfl, ends_line l number _ _⟩
    | connects exported =>
      right
      cases exported with
      | error message =>
        cases h
        exact ⟨_, .exporting message, rfl, ends_line l number _ _⟩
      | ok material =>
        cases h
        exact ⟨_, ends_connects l material, rfl, ends_line l number _ _⟩

/-- A line is taken by one call that is about to launch a handshake, or by one that runs, or by none. -/
def Balanced (launching : Nat) (l : Line) : Prop :=
  l.running.length + launching = if l.state = .handshaking then 1 else 0

namespace Balanced

theorem take (h : Balanced launching l) (hstate : l.state = .idle ∨ l.state = .failed)
    : Balanced (launching + 1) { l with state := .handshaking } := by
  have hfree : l.state ≠ .handshaking := by
    rcases hstate with hstate | hstate
    . simp [hstate]
    . simp [hstate]
  unfold Balanced at *
  rw [if_neg hfree] at h
  rw [if_pos rfl]
  dsimp only
  omega

theorem launch (h : Balanced (launching + 1) l) : Balanced launching l.launch := by
  unfold Balanced Line.launch at *
  rw [List.length_append, ← h, List.length_singleton]
  omega

theorem start (h : Balanced 0 l) : Balanced 0 l.start.2 := by
  rw [start_eq]
  split
  . next l' hclaim =>
    rw [Option.or_eq_some_iff, claim_eq_some_iff, claim_eq_some_iff] at hclaim
    have htaken : Balanced 1 l' := by
      rcases hclaim with ⟨hidle, rfl⟩ | ⟨-, hfailed, rfl⟩
      . exact h.take (.inl hidle)
      . exact h.take (.inr hfailed)
    exact launch htaken
  . exact h

theorem enqueue (h : Balanced launching l) (datagram : Bytes) : Balanced launching (l.enqueue datagram).2 := by
  rcases l.enqueue_eq datagram with ⟨queue, heq⟩
  rw [heq]
  exact h

/-- A handshake that takes a step is the only one, and afterwards it runs on or has left its end state. -/
theorem advance_cases (h : Balanced launching l) (hadvance : l.advance number s = some p)
    : launching = 0 ∧ l.state = .handshaking ∧ p.line.started = l.started ∧ p.line.attached = l.attached ∧
      ∃ a, l.running = [a] ∧ a.number = number ∧
        ((p.outcome = none ∧ (∀ o, ¬ Ends l s o) ∧ p.line.state = .handshaking ∧
            p.line.running = [{ a with created := true }]) ∨
          ∃ o, p.outcome = some o ∧ Ends l s o ∧ p.line.state = .ofOutcome o ∧ p.line.running = []) := by
  rcases Line.advance_cases hadvance with ⟨⟨a, ha⟩, hprogress⟩
  have hnumber : a.number = number := by
    have := List.find?_some ha
    simpa using this
  have hmem := List.mem_of_find?_eq_some ha
  have hpositive := List.length_pos_of_mem hmem
  have hstate : l.state = .handshaking := by
    unfold Balanced at h
    split at h
    . assumption
    . omega
  have hbalance : l.running.length + launching = 1 := by
    unfold Balanced at h
    rw [h, if_pos hstate]
  have hrunning : l.running = [a] := by
    rcases List.length_eq_one_iff.1 (by omega : l.running.length = 1) with ⟨b, hb⟩
    rw [hb, List.mem_singleton] at hmem
    rw [hb, hmem]
  refine ⟨by omega, hstate, ?_⟩
  rcases hprogress with ⟨⟨houtcome, queue, hline⟩, hends⟩ | ⟨o, hends, houtcome, hline⟩
  . rw [hline]
    refine ⟨rfl, rfl, a, hrunning, hnumber, .inl ⟨houtcome, hends, hstate, ?_⟩⟩
    unfold markCreated
    simp [hrunning, hnumber]
  . rw [hline]
    refine ⟨rfl, rfl, a, hrunning, hnumber, .inr ⟨o, houtcome, hends, ?_, ?_⟩⟩
    . unfold finish State.ofOutcome
      rfl
    . unfold finish
      simp [hrunning, hnumber]

theorem advance (h : Balanced launching l) (hadvance : l.advance number s = some p)
    : Balanced launching p.line := by
  rcases h.advance_cases hadvance with ⟨hlaunching, -, -, -, a, -, -, hcases⟩
  unfold Balanced
  rcases hcases with ⟨-, -, hstate, hrunning⟩ | ⟨o, -, -, hstate, hrunning⟩
  . rw [hstate, hrunning, hlaunching]
    rfl
  . rw [hstate, hrunning, hlaunching]
    cases o with
    | ok => rfl
    | error => rfl

end Balanced

end Line

end Intercom.Handshake
