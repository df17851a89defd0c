import Mathlib
import Intercom.Proofs.Relay.Sessions
import Intercom.Relay.Handle

/-!
This module contains what the requests of signaling do to the table of the relay, and when they are granted.
-/

namespace Intercom.RelayHandle

variable {h : RelayHandle} {id : SessionId} {α : Type}

theorem request_of_running (hrunning : h.running = true) (f : Relay → Except SessionError α × Relay)
    : h.request f = ((f h.relay).1.mapError .session, { h with relay := (f h.relay).2 }) := by
  unfold request
  rw [if_pos hrunning]

theorem request_of_stopped (hrunning : h.running = false) (f : Relay → Except SessionError α × Relay)
    : h.request f = (.error .stopped, h) := by
  unfold request
  rw [hrunning]
  rfl

theorem openSession_cases (h : RelayHandle)
    : (∃ info relay,
        h.relay.table.openSession h.relay.settings = .ok (info, relay.table) ∧
        h.openSession = (.ok info, { h with relay })) ∨
      ∃ e, h.openSession = (.error e, h) := by
  unfold openSession
  rcases Bool.eq_false_or_eq_true h.running with hrunning | hrunning
  . rw [request_of_running hrunning]
    rcases h.relay.openSession_cases with ⟨info, hopen, hinfo⟩ | ⟨e, hfailed⟩
    . rw [hinfo]
      exact .inl ⟨info, _, hopen, rfl⟩
    . rw [hfailed]
      exact .inr ⟨_, rfl⟩
  . rw [request_of_stopped hrunning]
    exact .inr ⟨_, rfl⟩

theorem closeSession_cases (h : RelayHandle) (id : SessionId)
    : (∃ s relay,
        h.relay.table.close? id = some (s, relay.table) ∧ h.closeSession id = (.ok (), { h with relay })) ∨
      ((h.closeSession id).2 = h ∧ (h.running = false ∨ h.relay.table.get? id = none)) := by
  unfold closeSession
  rcases Bool.eq_false_or_eq_true h.running with hrunning | hrunning
  . rw [request_of_running hrunning]
    unfold Relay.closeSession
    cases hclose : h.relay.table.close? id with
    | none => exact .inr ⟨rfl, .inr (SessionTable.close?_eq_none_iff.1 hclose)⟩
    | some closed =>
      rcases closed with ⟨s, table⟩
      dsimp only
      refine .inl ⟨s, _, ?_, rfl⟩
      rfl
  . rw [request_of_stopped hrunning]
    exact .inr ⟨rfl, .inl hrunning⟩

theorem setIce_cases (h : RelayHandle) (id : SessionId) (ice : IceParameters)
    : (h.setIce id ice).2 = { h with relay := h.relay.step (.setIce id ice) } ∨ (h.setIce id ice).2 = h := by
  unfold setIce
  rcases Bool.eq_false_or_eq_true h.running with hrunning | hrunning
  . rw [request_of_running hrunning]
    exact .inl rfl
  . rw [request_of_stopped hrunning]
    exact .inr rfl

theorem setIce_eq (hrunning : h.running = true) (hopen : h.relay.table.get? id ≠ none) (ice : IceParameters)
    : (h.setIce id ice).2 =
        { h with
          relay.table.sessions := h.relay.table.sessions.map fun s =>
            if s.id = id then { s with ice := some ice } else s } := by
  unfold setIce
  rw [request_of_running hrunning]
  unfold Relay.setIce SessionTable.setIce
  cases hget : h.relay.table.get? id with
  | none => exact absurd hget hopen
  | some s => rfl

theorem setIce_of_not_open (hnot : h.running = false ∨ h.relay.table.get? id = none) (ice : IceParameters)
    : (h.setIce id ice).2 = h := by
  unfold setIce
  rcases Bool.eq_false_or_eq_true h.running with hrunning | hrunning
  . rw [request_of_running hrunning]
    rcases hnot with hstopped | hget
    . rw [hrunning] at hstopped
      exact absurd hstopped (by decide)
    . unfold Relay.setIce SessionTable.setIce
      rw [hget]
  . rw [request_of_stopped hrunning]

theorem password_request {f : Relay → Except SessionError α × Relay} (hf : (f h.relay).2.password = h.relay.password)
    : (h.request f).2.relay.password = h.relay.password := by
  unfold request
  split
  . exact hf
  . rfl

theorem password_openSession (h : RelayHandle) : h.openSession.2.relay.password = h.relay.password := by
  apply password_request
  unfold Relay.openSession
  split
  . rfl
  . rfl

theorem password_closeSession (h : RelayHandle) (id : SessionId)
    : (h.closeSession id).2.relay.password = h.relay.password := by
  apply password_request
  unfold Relay.closeSession
  split
  . rfl
  . rfl

section Found

variable (hopen : h.relay.table.get? id ≠ none)

include hopen

theorem closeSession_of_open : (h.closeSession id).1 = if h.running then .ok () else .error .stopped := by
  rcases Bool.eq_false_or_eq_true h.running with hrunning | hrunning
  . rcases h.closeSession_cases id with ⟨s, relay, -, heq⟩ | ⟨-, hstopped | hnone⟩
    . rw [heq, hrunning]
      rfl
    . rw [hrunning] at hstopped
      exact absurd hstopped (by decide)
    . exact absurd hnone hopen
  . unfold closeSession
    rw [request_of_stopped hrunning, hrunning]
    rfl

theorem setIce_of_open (ice : IceParameters) : (h.setIce id ice).1 = if h.running then .ok () else .error .stopped := by
  unfold setIce
  rcases Bool.eq_false_or_eq_true h.running with hrunning | hrunning
  . rw [request_of_running hrunning, hrunning]
    unfold Relay.setIce SessionTable.setIce
    cases hget : h.relay.table.get? id with
    | none => exact absurd hget hopen
    | some s => rfl
  . rw [request_of_stopped hrunning, hrunning]
    rfl

end Found

end Intercom.RelayHandle
