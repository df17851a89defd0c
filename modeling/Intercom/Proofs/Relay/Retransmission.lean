import Mathlib
import Intercom.Proofs.Relay.Answers
import Intercom.Proofs.Relay.Handshakes
import Intercom.Proofs.Relay.InvalidName

/-!
This module contains the main statement about binding requests that come twice: the second one is answered like the
first one and changes nothing, and neither disturbs a handshake that runs or undoes one that has succeeded.
-/

namespace Intercom

theorem Handshake.Line.start_start (l : Line) : l.start.2.start = (false, l.start.2) := by
  unfold start
  by_cases h : l.state = .idle ∨ l.state = .failed
  . rw [if_pos h]
    rfl
  . rw [if_neg h, if_neg h]

namespace SessionTable

variable {t u : SessionTable} {s : Session} {id j : SessionId} {a : Endpoint}

/-- The last thing that happened to the index is that this session was bound to this endpoint. -/
structure NewlyBound (t : SessionTable) (id : SessionId) (a : Endpoint) : Prop where
  isOpen : t.get? id ≠ none
  first : ∃ others, t.endpoints = (a, id) :: unindex others (some a)
  remote : ∀ s ∈ t.sessions, s.id = id → s.remote = some a

theorem unindex_unindex (endpoints : List (Endpoint × SessionId)) (remote : Option Endpoint)
    : unindex (unindex endpoints remote) remote = unindex endpoints remote := by
  unfold unindex
  rw [List.filter_filter]
  simp only [Bool.and_self]

theorem unindex_cons_self (endpoints : List (Endpoint × SessionId))
    : unindex ((a, id) :: endpoints) (some a) = unindex endpoints (some a) := by
  unfold unindex
  rw [List.filter_cons_of_neg]
  simp

theorem NewlyBound.bind_eq (h : t.NewlyBound id a) : t.bind id a = t := by
  rcases Option.ne_none_iff_exists'.1 h.isOpen with ⟨s, hopen⟩
  rcases h.first with ⟨others, hendpoints⟩
  have hremote := h.remote s (mem_of_get? hopen) (id_of_get? hopen)
  have hsessions : ∀ u ∈ t.sessions, (if u.id = id then { u with remote := some a } else u) = u := by
    intro u hu
    split
    . next hid => rw [← h.remote u hu hid]
    . rfl
  unfold bind
  rw [hopen]
  dsimp only
  rw [hremote, lookup_unindex, hendpoints, unindex_cons_self, unindex_unindex, unindex_unindex]
  simp only [reduceCtorEq, if_true, if_false]
  rw [← hendpoints, List.map_congr_left hsessions, List.map_id']

theorem newlyBound_bind (hopen : t.get? id = some s) : (t.bind id a).NewlyBound id a := by
  constructor
  . rw [get?_bind hopen, hopen]
    simp
  . unfold bind
    rw [hopen]
    exact ⟨_, rfl⟩
  . unfold bind
    rw [hopen]
    dsimp only
    intro u hu hid
    rw [List.mem_map] at hu
    rcases hu with ⟨v, -, rfl⟩
    split at hid
    . next hv => rw [if_pos hv]
    . next hv =>
      split at hid
      . exact absurd hid hv
      . exact absurd hid hv

theorem NewlyBound.modify (h : t.NewlyBound id a) (f : Session → Session) (hf : ∀ s, (f s).id = s.id)
    (hremote : ∀ s, (f s).remote = s.remote) : (t.modify j f).NewlyBound id a := by
  constructor
  . rw [get?_modify f hf]
    split
    . rw [Ne, Option.map_eq_none_iff]
      exact h.isOpen
    . exact h.isOpen
  . exact h.first
  . intro s hs hid
    unfold SessionTable.modify at hs
    dsimp only at hs
    rw [List.mem_map] at hs
    rcases hs with ⟨u, hu, rfl⟩
    split at hid
    . next hj =>
      rw [if_pos hj, hremote]
      rw [hf] at hid
      exact h.remote u hu hid
    . next hj =>
      rw [if_neg hj]
      exact h.remote u hu hid

theorem byUfrag?_map {f : Session → Session} (hsessions : u.sessions = t.sessions.map f) (hf : ∀ s, (f s).id = s.id)
    (hice : ∀ s, (f s).ice = s.ice) : u.byUfrag? = t.byUfrag? := by
  funext ufrag
  unfold byUfrag?
  rw [hsessions, List.find?_map, Option.map_map]
  have hsame : ((fun s : Session => s.ice.any (·.ufrag = ufrag)) ∘ f) = fun s => s.ice.any (·.ufrag = ufrag) := by
    funext s
    rw [Function.comp_apply, hice]
  have hids : ((·.id) ∘ f : Session → SessionId) = (·.id) := funext hf
  rw [hsame, hids]

theorem byUfrag?_modify (f : Session → Session) (hf : ∀ s, (f s).id = s.id) (hice : ∀ s, (f s).ice = s.ice)
    : (t.modify id f).byUfrag? = t.byUfrag? := by
  apply byUfrag?_map rfl
  . intro s
    split
    . apply hf
    . rfl
  . intro s
    split
    . apply hice
    . rfl

theorem byUfrag?_bind : (t.bind id a).byUfrag? = t.byUfrag? := by
  cases hopen : t.get? id with
  | none => rw [bind_of_get?_eq_none hopen]
  | some s =>
    unfold bind
    rw [hopen]
    apply byUfrag?_map rfl
    . intro u
      split
      . rfl
      . split <;> rfl
    . intro u
      split
      . rfl
      . split <;> rfl

end SessionTable

namespace Relay

open Handshake (Line)

variable {r : Relay} {octets : Bytes} {request : Stun.Received} {a : Endpoint} {id j : SessionId}

section Accepted

/-- What a binding leaves of a session, where `started` is the one whose handshake it starts. -/
structure Kept (started : Option SessionId) (s s' : Session) : Prop where
  line : s'.line = s.line ∨ (started = some s.id ∧ s'.line = s.line.start.2)
  running : s.line.running ≠ [] → s'.line = s.line
  established : s.line.state = .established → s'.line = s.line
  keys : s'.srtp = s.srtp

structure Undisturbed (r r' : Relay) (started : Option SessionId) : Prop where
  detached : r'.detached = r.detached
  pending : r'.pending = r.pending
  sessions : ∀ j s, r.table.get? j = some s → ∃ s', r'.table.get? j = some s' ∧ Kept started s s'

theorem refused_startHandshake (r : Relay) (id : SessionId)
    : ∀ s, (r.startHandshake id).2.table.get? id = some s → s.line.start = (false, s.line) := by
  intro s h
  unfold startHandshake at h
  split at h
  . next hnone =>
    rw [hnone] at h
    simp at h
  . next session hget =>
    split at h
    . next line hstart =>
      dsimp only at h
      rw [SessionTable.get?_modify (fun s => { s with line }) fun _ => rfl, if_pos rfl, hget, Option.map_some,
        Option.some.injEq] at h
      have hline : session.line.start.2 = line := congrArg Prod.snd hstart
      rw [← h, ← hline]
      exact session.line.start_start
    . next line hstart =>
      rw [hget, Option.some.injEq] at h
      rw [← h]
      rcases session.line.start_cases with ⟨htrue, -⟩ | hrefused
      . rw [hstart] at htrue
        simp at htrue
      . exact hrefused

theorem startHandshake_of_refused (h : ∀ s, r.table.get? id = some s → s.line.start = (false, s.line))
    : r.startHandshake id = (none, r) := by
  unfold startHandshake
  split
  . rfl
  . next session hget => rw [h session hget]

/-- To this table another binding of the session to the endpoint is nothing new, and starts nothing. -/
structure Settled (t : SessionTable) (id : SessionId) (a : Endpoint) : Prop where
  bound : t.NewlyBound id a
  refused : ∀ s, t.get? id = some s → s.line.start = (false, s.line)

theorem settled_acceptBinding {s : Session} (hopen : r.table.get? id = some s) (request : Stun.Message) (a : Endpoint)
    : Settled (r.acceptBinding id request a).2.table id a := by
  constructor
  . rcases acceptBinding_cases r id request a with ⟨table, metrics, htable, haccept⟩
    rw [haccept]
    have hbound : (r.table.bind id a).NewlyBound id a := SessionTable.newlyBound_bind hopen
    rcases htable with rfl | ⟨line, rfl⟩
    . exact hbound
    . exact hbound.modify _ (fun _ => rfl) fun _ => rfl
  . unfold acceptBinding
    apply refused_startHandshake

theorem acceptBinding_of_settled (h : Settled r.table id a) (request : Stun.Message)
    : ∃ outbox metrics, r.acceptBinding id request a = (none, { r with outbox, metrics }) := by
  unfold acceptBinding
  dsimp only
  rw [h.bound.bind_eq]
  refine ⟨_, _, startHandshake_of_refused ?_⟩
  exact h.refused

theorem Authenticates.receive (h : r.Authenticates octets request id) (a : Endpoint)
    : (r.receive octets a).2.Authenticates octets request id := by
  rcases receive_of_authenticates h a with ⟨metrics, heq⟩
  rcases acceptBinding_cases { r with metrics } id request.message a with ⟨table, metrics', htable, haccept⟩
  have hfragments : table.byUfrag? = r.table.byUfrag? := by
    rcases htable with rfl | ⟨line, rfl⟩
    . exact SessionTable.byUfrag?_bind
    . rw [SessionTable.byUfrag?_modify (fun s => { s with line }) (fun _ => rfl) fun _ => rfl]
      exact SessionTable.byUfrag?_bind
  rw [heq, haccept]
  refine ⟨h.decoded, h.isRequest, ?_, h.verified⟩
  rw [hfragments]
  exact h.named

theorem kept_of_start {s s' : Session} (hbalanced : s.line.Balanced 0) (hstart : s.line.start.1 = true)
    (hline : s'.line = s.line.start.2) (hkeys : s'.srtp = s.srtp) : Kept (some s.id) s s' := by
  have hstate : s.line.state ≠ .handshaking ∧ s.line.state ≠ .established := by
    rcases s.line.start_cases with ⟨-, hstate, -⟩ | hrefused
    . rcases hstate with hstate | hstate
      . simp [hstate]
      . simp [hstate]
    . rw [hrefused] at hstart
      simp at hstart
  have hrunning : s.line.running = [] := by
    unfold Line.Balanced at hbalanced
    rw [if_neg hstate.1, Nat.add_zero, List.length_eq_zero_iff] at hbalanced
    exact hbalanced
  constructor
  . exact .inr ⟨rfl, hline⟩
  . intro hne
    exact absurd hrunning hne
  . intro heq
    exact absurd heq hstate.2
  . exact hkeys

theorem kept_of_same {started : Option SessionId} {s s' : Session} (hline : s'.line = s.line) (hkeys : s'.srtp = s.srtp)
    : Kept started s s' :=
  ⟨.inl hline, fun _ => hline, fun _ => hline, hkeys⟩

theorem session_of_security? {t : SessionTable} {line : Line} {context : Srtp.Context}
    (h : t.security? j = some ⟨line, context.keys⟩) : ∃ s, t.get? j = some s ∧ s.line = line ∧ s.srtp = context := by
  unfold SessionTable.security? at h
  rw [Option.map_eq_some_iff] at h
  rcases h with ⟨s, hget, hsecurity⟩
  unfold Session.security at hsecurity
  rw [Security.mk.injEq] at hsecurity
  exact ⟨s, hget, hsecurity.1, congrArg Srtp.Context.mk hsecurity.2⟩

theorem undisturbed_receive (hr : r.Reachable) (h : r.Authenticates octets request id) (a : Endpoint)
    : Undisturbed r (r.receive octets a).2 (r.receive octets a).1 := by
  rcases receive_of_authenticates h a with ⟨metrics, heq⟩
  rcases core_acceptBinding { r with metrics } id request.message a with hcore | ⟨s, hs, hstart, hstarted, hcore⟩
  . rw [← heq] at hcore
    have hsecurity : (r.receive octets a).2.table.security? = r.table.security? := congrArg Core.sessions hcore
    refine ⟨congrArg Core.detached hcore, congrArg Core.pending hcore, ?_⟩
    intro j u hget
    have hu := SessionTable.security?_of_get? hget
    rw [← hsecurity] at hu
    rcases session_of_security? hu with ⟨u', hget', hline, hkeys⟩
    exact ⟨u', hget', kept_of_same hline hkeys⟩
  . rw [← heq] at hstarted hcore
    have hsecurity : (r.receive octets a).2.table.security? =
        Function.update r.table.security? id (some { s with line := s.line.start.2 }) := congrArg Core.sessions hcore
    refine ⟨congrArg Core.detached hcore, congrArg Core.pending hcore, ?_⟩
    intro j u hget
    have hu := SessionTable.security?_of_get? hget
    by_cases hj : j = id
    . have hsame : s = u.security := by
        rw [hj] at hu
        exact Option.some.inj (hs.symm.trans hu)
      rw [hsame] at hstart
      have hstarts : (r.receive octets a).2.table.security? j = some ⟨u.line.start.2, u.srtp.keys⟩ := by
        rw [hsecurity, hj, Function.update_self, hsame]
        rfl
      rcases session_of_security? hstarts with ⟨u', hget', hline, hkeys⟩
      rw [hstarted, ← hj, ← SessionTable.id_of_get? hget]
      refine ⟨u', ?_, kept_of_start (hr.lined.sessions j u.security hu) hstart hline hkeys⟩
      rw [SessionTable.id_of_get? hget]
      exact hget'
    . have hkept : (r.receive octets a).2.table.security? j = some u.security := by
        rw [hsecurity, Function.update_of_ne hj, hu]
      rcases session_of_security? hkept with ⟨u', hget', hline, hkeys⟩
      exact ⟨u', hget', kept_of_same hline hkeys⟩

end Accepted

theorem receive_again (h : r.Authenticates octets request id) (a : Endpoint)
    : let first := (r.receive octets a).2
      ∃ outbox metrics, first.receive octets a = (none, { first with outbox, metrics }) := by
  intro first
  rcases receive_of_authenticates h a with ⟨metrics, heq⟩
  rcases h.get?_ne_none with ⟨s, hopen⟩
  have hsettled : Settled first.table id a := by
    change Settled (r.receive octets a).2.table id a
    rw [heq]
    exact settled_acceptBinding (r := { r with metrics }) hopen request.message a
  rcases receive_of_authenticates (h.receive a) a with ⟨metrics', heq'⟩
  rcases acceptBinding_of_settled (r := { first with metrics := metrics' }) hsettled request.message with
    ⟨outbox, metrics'', hsecond⟩
  exact ⟨outbox, metrics'', heq'.trans hsecond⟩

theorem Undisturbed.of_same {r' r'' : Relay} {started : Option SessionId} (h : Undisturbed r r' started)
    (htable : r''.table = r'.table) (hdetached : r''.detached = r'.detached) (hpending : r''.pending = r'.pending)
    : Undisturbed r r'' started := by
  refine ⟨hdetached.trans h.detached, hpending.trans h.pending, ?_⟩
  rw [htable]
  exact h.sessions

theorem waiting_of_authenticates (h : r.Authenticates octets request id) (hroom : 0 < r.outbox.room) (a : Endpoint)
    : (r.receive octets a).2.outbox.waiting = r.outbox.waiting ++ [⟨a, r.replyTo request a⟩] ∧
      (r.receive octets a).2.outbox.room = r.outbox.room - 1 := by
  rw [outbox_of_authenticates h, Outbox.offer_eq, List.take_of_length_le hroom]
  exact ⟨rfl, Outbox.room_append _ _⟩

theorem receive_twice (hr : r.Reachable) (h : r.Authenticates octets request id) (hroom : 2 ≤ r.outbox.room)
    (a : Endpoint)
    : let first := r.receive octets a
      let second := first.2.receive octets a
      (∃ reply, Stun.IsReplyTo octets reply ∧ first.2.outbox.waiting = r.outbox.waiting ++ [⟨a, reply⟩] ∧
        second.2.outbox.waiting = r.outbox.waiting ++ [⟨a, reply⟩, ⟨a, reply⟩]) ∧
      second.1 = none ∧ second.2.table = first.2.table ∧
      Undisturbed r first.2 first.1 ∧ Undisturbed r second.2 first.1 := by
  intro first second
  rcases receive_again h a with ⟨outbox, metrics, hsecond⟩
  have hfirst : Undisturbed r first.2 first.1 := undisturbed_receive hr h a
  have hreply : first.2.replyTo request a = r.replyTo request a := by
    have hpassword : first.2.password = r.password := (regular hr.wellFormed (.datagram octets a)).password
    unfold replyTo
    rw [hpassword]
  refine ⟨⟨r.replyTo request a, Stun.isReplyTo_bindingReply h.decoded a _, ?_, ?_⟩, ?_, ?_, hfirst, ?_⟩
  . exact (waiting_of_authenticates h (by omega) a).1
  . rcases waiting_of_authenticates h (by omega) a with ⟨hwaiting, hleft⟩
    rw [(waiting_of_authenticates (h.receive a) (by omega) a).1, hwaiting, hreply, List.append_assoc]
    rfl
  . change (first.2.receive octets a).1 = none
    rw [hsecond]
  . change (first.2.receive octets a).2.table = first.2.table
    rw [hsecond]
  . change Undisturbed r (first.2.receive octets a).2 first.1
    rw [hsecond]
    exact hfirst.of_same rfl rfl rfl

section Sample

def sampleWaiting : Relay :=
  sampleAlone.run [.datagram (sampleRequest "a") sampleEndpoint, .datagram sampleRecord sampleEndpoint, .send 1]

theorem receive_twice_sampleWaiting
    : let first := sampleWaiting.receive (sampleRequest "a") sampleEndpoint
      let second := first.2.receive (sampleRequest "a") sampleEndpoint
      ∃ reply s s',
        second.2.outbox.waiting = [⟨sampleEndpoint, reply⟩, ⟨sampleEndpoint, reply⟩] ∧
        sampleWaiting.table.get? ⟨0x10000001⟩ = some s ∧ s.line.running ≠ [] ∧ s.line.queue = [sampleRecord] ∧
        second.2.table.get? ⟨0x10000001⟩ = some s' ∧ s'.line = s.line ∧ second.2.table = first.2.table := by
  intro first second
  have hreachable : sampleWaiting.Reachable := by
    unfold sampleWaiting sampleAlone
    rw [← run_append]
    exact ⟨_, _, _, _, _, rfl⟩
  have hvalues : (sampleWaiting.step (.datagram (sampleRequest "a") sampleEndpoint)).metrics.bindings = 2 ∧
      sampleWaiting.metrics.bindings = 1 ∧ sampleWaiting.outbox.room = 4 ∧ sampleWaiting.outbox.waiting = [] ∧
      (sampleWaiting.table.get? ⟨0x10000001⟩).map (fun s => (s.line.running.length, s.line.queue)) =
        some (1, [sampleRecord]) := by
    decide +kernel
  rcases hvalues with ⟨htwo, hone, hroom, hempty, hsession⟩
  rw [Option.map_eq_some_iff] at hsession
  rcases hsession with ⟨s, hget, hline⟩
  rw [Prod.mk.injEq] at hline
  have hrunning : s.line.running ≠ [] := by
    intro hnil
    rw [hnil] at hline
    simp at hline
  have hbinding : sampleWaiting.Binding (.datagram (sampleRequest "a") sampleEndpoint) := by
    apply binding_of_counted hreachable.wellFormed
    rw [htwo, hone]
    decide
  rcases binding_iff.1 hbinding with ⟨request, id, hauth⟩
  rcases receive_twice hreachable hauth (by rw [hroom]; decide) sampleEndpoint with
    ⟨⟨reply, -, -, hwaiting⟩, -, htable, -, hundisturbed⟩
  rcases hundisturbed.sessions _ s hget with ⟨s', hget', hkept⟩
  rw [hempty] at hwaiting
  exact ⟨reply, s, s', hwaiting, hget, hrunning, hline.2, hget', hkept.running hrunning, htable⟩

end Sample

end Relay

end Intercom
