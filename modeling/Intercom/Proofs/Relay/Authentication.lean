import Mathlib
import Intercom.Proofs.Relay.Run

/-!
This module contains the main statement about bindings: an endpoint is bound only by an authenticated
request that comes from it, and nothing is ever sent to an endpoint that is not bound at that time.
-/

namespace Intercom.Relay

/-- A binding request for an open session, the first one with the user name fragment of the request. -/
structure Admits (password : String) (t : SessionTable) (id : SessionId) (octets : Bytes)
    (request : Stun.Received) (ufrag : String) : Prop where
  decoded : Stun.decode octets = .ok request
  type : request.message.type = .bindingRequest
  fragment : request.message.fragment? = some ufrag
  named : ∃ session, t.get? id = some session ∧ session.ufrag? = some ufrag
  first : ∀ other ∈ t.sessions, other.ufrag? = some ufrag → id.value ≤ other.id.value
  verified : request.verifies (Utf8.encode password)

section

variable {r : Relay} {e : Event} {octets : Bytes} {a : Endpoint} {id : SessionId}

theorem Authenticates.admits {request : Stun.Received} (h : r.table.WellFormed)
    (hauth : r.Authenticates octets request id)
    : ∃ ufrag, Admits r.password r.table id octets request ufrag := by
  have hnamed := hauth.named
  rw [Option.bind_eq_some_iff] at hnamed
  rcases hnamed with ⟨ufrag, hfragment, hfound⟩
  rcases h.byUfrag?_eq_some hfound with ⟨session, hget, hufrag, hfirst⟩
  refine ⟨ufrag, hauth.decoded, ?_, hfragment, ⟨session, hget, hufrag⟩, hfirst, hauth.verified⟩
  have hkind := hauth.isRequest
  unfold Stun.Message.isBindingRequest at hkind
  exact of_decide_eq_true hkind

theorem admits_of_newly_bound (h : r.table.WellFormed) (hold : r.table.remote? id ≠ some a)
    (hnew : (r.step e).table.remote? id = some a)
    : ∃ octets request ufrag,
        e = .datagram octets a ∧ Admits r.password r.table id octets request ufrag := by
  cases (regular h e).effect with
  | steady hremote _ =>
    rw [hremote] at hnew
    exact absurd hnew hold
  | closed j _ hremote _ =>
    rw [hremote] at hnew
    split at hnew
    . simp at hnew
    . exact absurd hnew hold
  | bound octets sender request j hevent hauth hremote _ =>
    rw [hremote] at hnew
    split at hnew
    . next hid =>
      rw [Option.some.injEq] at hnew
      rcases hauth.admits h with ⟨ufrag, hadmits⟩
      rw [hid]
      rw [hnew] at hevent
      exact ⟨octets, request, ufrag, hevent, hadmits⟩
    . split at hnew
      . simp at hnew
      . exact absurd hnew hold

theorem bound_of_mem_sent (h : r.table.WellFormed) {x : Outgoing} (hx : x ∈ r.sent e)
    : ∃ id, (r.step e).table.remote? id = some x.target := by
  cases (regular h e).effect with
  | steady hremote hsent =>
    rcases hsent x hx with ⟨id, hid⟩
    refine ⟨id, ?_⟩
    rw [hremote]
    exact hid
  | closed j _ _ hsent =>
    rw [hsent] at hx
    simp at hx
  | bound octets sender request id _ _ hremote hsent =>
    refine ⟨id, ?_⟩
    rw [hremote, hsent x hx]
    simp

theorem not_bound_of_closed (h : r.table.WellFormed) (hbound : r.table.remote? id = some a) (j : SessionId)
    : (r.step (.closeSession id)).table.remote? j ≠ some a := by
  intro hj
  rw [step, remote?_closeSession] at hj
  split at hj
  . simp at hj
  . next hne =>
    rw [← h.indexed] at hj hbound
    rw [hbound, Option.some.injEq] at hj
    exact hne hj.symm

end

section History

variable {r : Relay} {events : List Event} {e : Event} {x : Outgoing} {id : SessionId} {a : Endpoint} {j k : Nat}

theorem admits_of_bound_next (h : r.table.WellFormed) (he : events[k]? = some e)
    (hold : (r.run (events.take k)).table.remote? id ≠ some a)
    (hnew : (r.run (events.take (k + 1))).table.remote? id = some a)
    : ∃ octets request ufrag,
        e = .datagram octets a ∧
        Admits r.password (r.run (events.take k)).table id octets request ufrag := by
  have hrun := run_wellFormed h (events.take k)
  rw [run_take_succ he] at hnew
  rw [← hrun.2]
  exact admits_of_newly_bound hrun.1 hold hnew

-- The induction is on the number of events: a binding is either the newest event, or it was there
-- before and has stayed since.
theorem admits_of_bound (h : r.table.WellFormed) (hfresh : ∀ id, r.table.remote? id = none) (k : Nat)
    (hbound : (r.run (events.take k)).table.remote? id = some a)
    : ∃ j octets request ufrag,
        j < k ∧ events[j]? = some (.datagram octets a) ∧
        Admits r.password (r.run (events.take j)).table id octets request ufrag ∧
        ∀ m, j < m → m ≤ k → (r.run (events.take m)).table.remote? id = some a := by
  induction k with
  | zero =>
    have hnone := hfresh id
    rw [List.take_zero] at hbound
    change r.table.remote? id = some a at hbound
    rw [hnone] at hbound
    simp at hbound
  | succ k ih =>
    by_cases hold : (r.run (events.take k)).table.remote? id = some a
    . rcases ih hold with ⟨j, octets, request, ufrag, hj, hevent, hadmits, hstays⟩
      refine ⟨j, octets, request, ufrag, by omega, hevent, hadmits, ?_⟩
      intro m hjm hm
      by_cases hlast : m = k + 1
      . rw [hlast]
        exact hbound
      . apply hstays m hjm
        omega
    . cases he : events[k]? with
      | none =>
        rw [run_take_succ_of_none he] at hbound
        exact absurd hbound hold
      | some e =>
        rcases admits_of_bound_next h he hold hbound with ⟨octets, request, ufrag, hevent, hadmits⟩
        refine ⟨k, octets, request, ufrag, by omega, ?_, hadmits, ?_⟩
        . rw [he, hevent]
        . intro m hkm hm
          have hlast : m = k + 1 := by omega
          rw [hlast]
          exact hbound

theorem bound_of_mem_sent_next (h : r.table.WellFormed) (he : events[k]? = some e)
    (hx : x ∈ (r.run (events.take k)).sent e)
    : ∃ id, (r.run (events.take (k + 1))).table.remote? id = some x.target := by
  rw [run_take_succ he]
  exact bound_of_mem_sent (run_wellFormed h (events.take k)).1 hx

theorem admits_of_mem_sent (h : r.table.WellFormed) (hfresh : ∀ id, r.table.remote? id = none)
    (he : events[k]? = some e) (hx : x ∈ (r.run (events.take k)).sent e)
    : ∃ j octets id request ufrag,
        j ≤ k ∧ events[j]? = some (.datagram octets x.target) ∧
        Admits r.password (r.run (events.take j)).table id octets request ufrag ∧
        ∀ m, j < m → m ≤ k + 1 → (r.run (events.take m)).table.remote? id = some x.target := by
  rcases bound_of_mem_sent_next h he hx with ⟨id, hid⟩
  rcases admits_of_bound h hfresh (k + 1) hid with ⟨j, octets, request, ufrag, hj, hevent, hadmits, hstays⟩
  exact ⟨j, octets, id, request, ufrag, by omega, hevent, hadmits, hstays⟩

-- A binding from before would have been held by another session when this one was closed.
theorem admits_after_close (h : r.table.WellFormed) (hfresh : ∀ id, r.table.remote? id = none)
    (hclose : events[j]? = some (.closeSession id))
    (hclosed : (r.run (events.take j)).table.remote? id = some x.target) (hjk : j < k)
    (he : events[k]? = some e) (hx : x ∈ (r.run (events.take k)).sent e)
    : ∃ i octets id' request ufrag,
        j < i ∧ i ≤ k ∧ events[i]? = some (.datagram octets x.target) ∧
        Admits r.password (r.run (events.take i)).table id' octets request ufrag := by
  rcases admits_of_mem_sent h hfresh he hx with ⟨i, octets, id', request, ufrag, hik, hevent, hadmits, hstays⟩
  refine ⟨i, octets, id', request, ufrag, ?_, hik, hevent, hadmits⟩
  by_contra hij
  have hheld := hstays (j + 1) (by omega) (by omega)
  rw [run_take_succ hclose] at hheld
  exact not_bound_of_closed (run_wellFormed h (events.take j)).1 hclosed id' hheld

theorem remote?_start (names : NamePool) (password : String) (settings : Handshake.Settings) (capacity : Nat)
    (id : SessionId) : (start names password settings capacity).table.remote? id = none := by
  simp [start, SessionTable.remote?, SessionTable.get?]

end History

/-- The four parts: an endpoint is newly bound only by an admitted request from it; what is sent goes to
an endpoint that is bound; before anything is sent to an endpoint such a request came from it and bound a
session that has kept it since; after that session is closed nothing is sent there until the next one. -/
theorem sent_only_to_admitted (names : NamePool) (password : String) (settings : Handshake.Settings)
    (capacity : Nat) (events : List Event)
    : let state := fun k => (start names password settings capacity).run (events.take k)
      (∀ k e id a,
        events[k]? = some e → (state k).table.remote? id ≠ some a →
        (state (k + 1)).table.remote? id = some a →
        ∃ octets request ufrag,
          e = .datagram octets a ∧ Admits password (state k).table id octets request ufrag) ∧
      (∀ k e x,
        events[k]? = some e → x ∈ (state k).sent e →
        ∃ id, (state (k + 1)).table.remote? id = some x.target) ∧
      (∀ k e x,
        events[k]? = some e → x ∈ (state k).sent e →
        ∃ j octets id request ufrag,
          j ≤ k ∧ events[j]? = some (.datagram octets x.target) ∧
          Admits password (state j).table id octets request ufrag ∧
          ∀ m, j < m → m ≤ k + 1 → (state m).table.remote? id = some x.target) ∧
      (∀ j k e x id,
        events[j]? = some (.closeSession id) → (state j).table.remote? id = some x.target →
        j < k → events[k]? = some e → x ∈ (state k).sent e →
        ∃ i octets id' request ufrag,
          j < i ∧ i ≤ k ∧ events[i]? = some (.datagram octets x.target) ∧
          Admits password (state i).table id' octets request ufrag) := by
  intro state
  have h := start_wellFormed names password settings capacity
  have hfresh := remote?_start names password settings capacity
  refine ⟨?_, ?_, ?_, ?_⟩
  . intro k e id a he hold hnew
    exact admits_of_bound_next h he hold hnew
  . intro k e x he hx
    exact bound_of_mem_sent_next h he hx
  . intro k e x he hx
    exact admits_of_mem_sent h hfresh he hx
  . intro j k e x id hclose hclosed hjk he hx
    exact admits_after_close h hfresh hclose hclosed hjk he hx

end Intercom.Relay
