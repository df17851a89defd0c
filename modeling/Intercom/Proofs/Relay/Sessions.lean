import Mathlib
import Intercom.Proofs.Relay.Run
import Intercom.Proofs.Session.Ids

/-!
This module contains what becomes of names and ids over whole runs, of the table alone and of the relay: a name is
either free or held by one session, and no id comes a second time.
-/

namespace Intercom.Relay

open SessionTable

variable {r : Relay} {e : Event}

def opened? (r : Relay) : Event → Option SessionId
  | .openSession =>
    match r.openSession.1 with
    | .ok info => some info.id
    | .error _ => none
  | .datagram _ _ | .closeSession _ | .setIce _ _ | .command _ | .deliver _ | .handshake _ _ _ | .send _
  | .closeOutbox => none

def given (r : Relay) : List Event → List SessionId
  | [] => []
  | e :: events => (r.opened? e).toList ++ (r.step e).given events

section Steps

theorem alike_acceptBinding (r : Relay) (id : SessionId) (request : Stun.Message) (sender : Endpoint)
    : Alike r.table (r.acceptBinding id request sender).2.table := by
  rcases acceptBinding_cases r id request sender with ⟨table, metrics, htable, haccept⟩
  rw [haccept]
  rcases htable with rfl | ⟨line, rfl⟩
  . apply alike_bind
  . apply (alike_bind r.table id sender).trans
    apply alike_modify
    intro s
    rfl

theorem alike_receive (r : Relay) (octets : Bytes) (sender : Endpoint)
    : Alike r.table (r.receive octets sender).2.table := by
  rcases receive_cases r octets sender with
    ⟨source, p, -, -, haudio⟩ | ⟨-, metrics, ⟨request, id, -, haccepted⟩ | ⟨-, ⟨-, hrecord⟩ | hdropped⟩⟩
  . rw [haudio, passOn_eq]
    apply Alike.refl
  . rw [haccepted]
    exact alike_acceptBinding { r with metrics } id request.message sender
  . rw [hrecord]
    rcases receiveRecord_cases { r with metrics } octets sender with ⟨session, -, hqueued⟩ | ⟨-, hqueued⟩
    . rw [hqueued]
      apply alike_modify
      intro s
      rfl
    . rw [hqueued]
      apply Alike.refl
  . rw [hdropped]
    apply Alike.refl

theorem alike_execute (r : Relay) (c : Command) : Alike r.table (r.execute c).table := by
  rcases execute_cases r c with ⟨id, octets, remote, -, hflight⟩ | ⟨id, masters, metrics, hinstall⟩ | ⟨metrics, hfailed⟩
  . rw [hflight]
    apply Alike.refl
  . rw [hinstall]
    apply alike_modify
    intro s
    rfl
  . rw [hfailed]
    apply Alike.refl

theorem alike_handshake (r : Relay) (id : SessionId) (number : Nat) (s : Handshake.Step)
    : Alike r.table (r.step (.handshake id number s)).table := by
  unfold step
  dsimp only
  split
  . next answer r' hadvance =>
    rcases advance_cases hadvance with ⟨table, detached, pending, htable, rfl⟩
    rcases htable with rfl | ⟨line, rfl⟩
    . apply Alike.refl
    . apply alike_modify
      intro s
      rfl
  . apply Alike.refl

theorem openSession_cases (r : Relay)
    : (∃ info,
        r.table.openSession r.settings = .ok (info, r.openSession.2.table) ∧ r.openSession.1 = .ok info) ∨
      ∃ e, r.openSession = (.error e, r) := by
  unfold Relay.openSession
  cases r.table.openSession r.settings with
  | error e => exact .inr ⟨e, rfl⟩
  | ok opened => exact .inl ⟨opened.1, rfl, rfl⟩

theorem change_openSession (r : Relay) : Change r.table (r.opened? .openSession) (r.step .openSession).table := by
  unfold step opened?
  dsimp only
  rcases r.openSession_cases with ⟨info, hopen, hinfo⟩ | ⟨e, hfailed⟩
  . rw [hinfo]
    exact .opened hopen
  . rw [hfailed]
    exact .alike (.refl _)

theorem change_closeSession (r : Relay) (id : SessionId)
    : Change r.table none (r.step (.closeSession id)).table := by
  unfold step Relay.closeSession
  dsimp only
  split
  . exact .alike (.refl _)
  . next hclose => exact .closed hclose

theorem alike_setIce (r : Relay) (id : SessionId) (ice : IceParameters)
    : Alike r.table (r.step (.setIce id ice)).table := by
  unfold step Relay.setIce
  dsimp only
  split
  . apply Alike.refl
  . next hice =>
    rw [(setIce_eq_ok hice).2]
    apply alike_modify
    intro s
    rfl

theorem alike_step (r : Relay) (hopens : e ≠ .openSession) (hcloses : ∀ id, e ≠ .closeSession id)
    : Alike r.table (r.step e).table := by
  cases e with
  | datagram octets sender => exact alike_receive r octets sender
  | openSession => exact absurd rfl hopens
  | closeSession id => exact absurd rfl (hcloses id)
  | setIce id ice => exact alike_setIce r id ice
  | command c => exact alike_execute r c
  | deliver place =>
    unfold step
    dsimp only
    split
    . exact alike_execute { r with pending := r.pending.eraseIdx place } _
    . exact .refl _
  | handshake id number s => exact alike_handshake r id number s
  | send n => exact .refl _
  | closeOutbox => exact .refl _

theorem change_step (r : Relay) (e : Event) : Change r.table (r.opened? e) (r.step e).table := by
  cases e with
  | openSession => exact change_openSession r
  | closeSession id => exact change_closeSession r id
  | datagram _ _ | setIce _ _ | command _ | deliver _ | handshake _ _ _ | send _ | closeOutbox =>
    exact .alike (alike_step r (by simp) (by simp))

theorem changes_run (h : r.table.WellFormed) (events : List Event)
    : Changes r.table (r.given events) (r.run events).table := by
  induction events generalizing r with
  | nil => exact .refl _
  | cons e events ih => exact .step h (change_step r e) (ih (regular h e).wellFormed)

end Steps

section Failures

variable {id : SessionId}

theorem openSession_eq_error_iff (r : Relay)
    : (∃ e, r.openSession.1 = .error e) ↔ r.table.names.free = [] ∨ r.table.nextId = none := by
  rw [← SessionTable.openSession_eq_error_iff r.table r.settings]
  unfold Relay.openSession
  cases r.table.openSession r.settings with
  | ok opened => simp
  | error e => simp

theorem closeSession_of_get?_eq_none (h : r.table.get? id = none) : r.closeSession id = (.error (.notFound id), r) := by
  unfold Relay.closeSession
  rw [close?_eq_none_iff.2 h]

end Failures

structure Conserves (names : NamePool) (t : SessionTable) : Prop where
  perm : (t.sessions.map (·.name) ++ t.names.free).Perm names.free
  count : t.sessions.length + t.names.free.length = names.free.length
  distinct : names.free.Nodup → (t.sessions.map (·.name)).Nodup

theorem conserves_of_changes {names : NamePool} {ids : List SessionId} {t : SessionTable}
    (h : Changes { names } ids t) : Conserves names t := by
  have hperm : (t.sessions.map (·.name) ++ t.names.free).Perm names.free := h.perm_allNames
  constructor
  . exact hperm
  . have hlength := hperm.length_eq
    rw [List.length_append, List.length_map] at hlength
    exact hlength
  . intro hnodup
    rw [← hperm.nodup_iff] at hnodup
    exact hnodup.of_append_left

/-- The names after any run of the table and of the relay; then when opening fails, and that what fails changes
nothing. -/
theorem names_conserved (names : NamePool)
    : (∀ ops, Conserves names (SessionTable.run names ops)) ∧
      (∀ password settings capacity events,
        Conserves names ((start names password settings capacity).run events).table) ∧
      (∀ (t : SessionTable) settings,
        ((∃ e, t.openSession settings = .error e) ↔ t.names.free = [] ∨ t.nextId = none) ∧
        (∀ e, t.openSession settings = .error e →
          t.step (.openSession settings) = t ∧ (InPlace.openSession settings).run t = .error e t) ∧
        ∀ id, t.get? id = none → t.step (.close id) = t ∧ (InPlace.close id).run t = .error (.notFound id) t) ∧
      ∀ r : Relay,
        ((∃ e, r.openSession.1 = .error e) ↔ r.table.names.free = [] ∨ r.table.nextId = none) ∧
        (∀ e, r.openSession.1 = .error e → r.openSession.2 = r) ∧
        ∀ id, r.table.get? id = none → r.closeSession id = (.error (.notFound id), r) := by
  refine ⟨?_, ?_, ?_, ?_⟩
  . intro ops
    exact conserves_of_changes (SessionTable.changes_run names ops)
  . intro password settings capacity events
    exact conserves_of_changes (changes_run (start_wellFormed names password settings capacity) events)
  . intro t settings
    refine ⟨SessionTable.openSession_eq_error_iff t settings, ?_, ?_⟩
    . intro e hopen
      exact unchanged_of_openSession_eq_error hopen
    . intro id hget
      exact unchanged_of_get?_eq_none hget
  . intro r
    refine ⟨openSession_eq_error_iff r, ?_, ?_⟩
    . intro e hopen
      exact openSession_snd_of_error hopen
    . intro id hget
      exact closeSession_of_get?_eq_none hget

/-- The last part is that there are runs up to any id, also the last one. -/
theorem ids_never_reused (names : NamePool)
    : (∀ ops, NeverReused (({ names } : SessionTable).given ops) (SessionTable.run names ops)) ∧
      (∀ password settings capacity events,
        NeverReused ((start names password settings capacity).given events)
          ((start names password settings capacity).run events).table) ∧
      (names.free ≠ [] → ∀ id : SessionId, SessionId.base.value ≤ id.value →
        ∃ ops, id ∈ ({ names } : SessionTable).given ops) := by
  refine ⟨?_, ?_, ?_⟩
  . intro ops
    exact (SessionTable.changes_run names ops).neverReused (WellFormed.run names ops)
  . intro password settings capacity events
    have h := start_wellFormed names password settings capacity
    exact (changes_run h events).neverReused (run_wellFormed h events).1
  . intro hfree id hid
    exact exists_mem_given hfree hid

end Intercom.Relay
