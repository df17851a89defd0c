import Mathlib
import Intercom.Proofs.Relay.OwnBinding
import Intercom.Proofs.Relay.Sessions
import Intercom.Proofs.Relay.Unauthenticated
import Intercom.Proofs.Srtp.Authenticity
import Intercom.Proofs.Trace

/-!
This module contains the main statement about what the relay counts: each number is that of the events of one kind,
whatever else happens, and the open sessions are those that were opened less those that were closed.
-/

namespace Intercom.Relay

open Trace (indicator indicator_of indicator_of_not)

section Kinds

@[simp]
def OpensSession (r : Relay) : Event → Prop
  | .openSession => ∃ info, r.openSession.1 = .ok info
  | _ => False

@[simp]
def ClosesSession (r : Relay) : Event → Prop
  | .closeSession id => ∃ s ∈ r.table.sessions, s.id = id
  | _ => False

@[simp]
def Arrives : Event → Prop
  | .datagram _ _ => True
  | _ => False

def Audible (r : Relay) (octets : Bytes) (a : Endpoint) : Prop :=
  ∃ q ∈ r.table.sessions, q.remote = some a ∧ ∃ p, q.srtp.unprotect octets = .ok p

@[simp]
noncomputable def passedOn (r : Relay) : Event → Nat
  | .datagram octets a => indicator (r.Audible octets a) * (r.sent (.datagram octets a)).length
  | _ => 0

/-- A binding request for an open session, with a right tag. -/
@[simp]
def Binding (r : Relay) : Event → Prop
  | .datagram octets _ => ∃ request, Names r.table octets request ∧ request.verifies (Utf8.encode r.password)
  | _ => False

/-- A binding request for an open session, with a wrong tag or none. -/
@[simp]
def Unverified (r : Relay) : Event → Prop
  | .datagram octets _ => ∃ request, Names r.table octets request ∧ ¬ request.verifies (Utf8.encode r.password)
  | _ => False

/-- A packet from the endpoint of a session with keys, with room for a tag and a wrong one there. -/
@[simp]
def Mistagged (r : Relay) : Event → Prop
  | .datagram octets a =>
    ∃ q ∈ r.table.sessions, ∃ keys heard,
      q.remote = some a ∧ q.srtp.keys = some keys ∧ Rtp.decode? octets = some heard ∧
      Srtp.tagLength ≤ heard.payload.length ∧
      octets.drop (octets.length - Srtp.tagLength) ≠ keys.receive.tag (octets.take (octets.length - Srtp.tagLength))
  | _ => False

@[simp]
def executed? (r : Relay) : Event → Option Command
  | .command c => some c
  | .deliver place => r.pending[place]?
  | _ => none

/-- The keys of a handshake are installed, also for a session that is closed by then. -/
@[simp]
def Succeeds (r : Relay) (e : Event) : Prop :=
  ∃ id masters, r.executed? e = some (.install id (.ok masters))

@[simp]
def Fails (r : Relay) (e : Event) : Prop :=
  ∃ id error, r.executed? e = some (.install id (.error error))

end Kinds

section Datagrams

variable {r : Relay} {octets : Bytes} {a : Endpoint} {request : Stun.Received}

theorem mistagged_iff : r.Mistagged (.datagram octets a) ↔ WrongTag r.table octets a := by
  have hcontext (c : Srtp.Context) : c.unprotect octets = .error .wrongTag ↔
      ∃ keys, c.keys = some keys ∧ keys.receive.unprotect octets = .error .wrongTag := by
    unfold Srtp.Context.unprotect
    cases c.keys with
    | none => simp
    | some keys => simp
  unfold Mistagged WrongTag
  dsimp only
  simp only [hcontext, Srtp.Direction.unprotect_eq_wrongTag_iff]
  constructor
  . intro h
    rcases h with ⟨q, hq, keys, heard, hbound, hkeys, hheard⟩
    exact ⟨q, hq, hbound, keys, hkeys, heard, hheard⟩
  . intro h
    rcases h with ⟨q, hq, hbound, keys, hkeys, heard, hheard⟩
    exact ⟨q, hq, keys, heard, hbound, hkeys, hheard⟩

theorem audible_iff (h : r.table.WellFormed)
    : r.Audible octets a ↔ ∃ q, r.sender? a = some q ∧ ∃ p, q.srtp.unprotect octets = .ok p := by
  unfold Audible
  simp only [sender?_eq_some_iff h, and_assoc]

theorem Names.unique {t : SessionTable} {other : Stun.Received} (h : Names t octets request)
    (h' : Names t octets other) : other = request := by
  have hdecoded := h.decoded
  rw [h'.decoded, Except.ok.injEq] at hdecoded
  exact hdecoded

theorem not_names_of_audible (haudible : r.Audible octets a) : ¬ Names r.table octets request := by
  intro hnames
  rcases haudible with ⟨q, -, -, p, hp⟩
  rw [Srtp.Context.unprotect_of_decode?_eq_none _ (not_audio_of_decode hnames.decoded)] at hp
  simp at hp

theorem not_mistagged_of_audible (h : r.table.WellFormed) (haudible : r.Audible octets a)
    : ¬ r.Mistagged (.datagram octets a) := by
  rcases (audible_iff h).1 haudible with ⟨q, hsender, p, hp⟩
  rw [mistagged_iff, wrongTag_iff h]
  intro hwrong
  rcases hwrong with ⟨other, hother, htag⟩
  rw [hsender, Option.some.injEq] at hother
  rw [← hother, hp] at htag
  simp at htag

theorem not_binding_of_audible (haudible : r.Audible octets a) : ¬ r.Binding (.datagram octets a) := by
  intro hbinding
  rcases hbinding with ⟨request, hnames, -⟩
  exact not_names_of_audible haudible hnames

theorem not_unverified_of_audible (haudible : r.Audible octets a) : ¬ r.Unverified (.datagram octets a) := by
  intro hunverified
  rcases hunverified with ⟨request, hnames, -⟩
  exact not_names_of_audible haudible hnames

theorem passedOn_of_not_audible (h : ¬ r.Audible octets a) : r.passedOn (.datagram octets a) = 0 := by
  unfold passedOn
  dsimp only
  rw [indicator_of_not h, Nat.zero_mul]

theorem metrics_acceptBinding (r : Relay) (id : SessionId) (request : Stun.Message) (a : Endpoint)
    : (r.acceptBinding id request a).2.metrics = { r.metrics with bindings := r.metrics.bindings + 1 } := by
  unfold acceptBinding
  dsimp only
  generalize hbound : ({ r with
    table := r.table.bind id a
    outbox := (r.outbox.offer ⟨a, (request.bindingReply a).encode (some (Utf8.encode r.password))⟩).2
    metrics := { r.metrics with bindings := r.metrics.bindings + 1 } } : Relay) = bound
  have hmetrics : bound.metrics = { r.metrics with bindings := r.metrics.bindings + 1 } := by
    rw [← hbound]
  rcases startHandshake_cases bound id with ⟨session, line, -, -, heq⟩ | heq
  . rw [heq]
    exact hmetrics
  . rw [heq]
    exact hmetrics

theorem metrics_receiveStun (r : Relay) (octets : Bytes) (a : Endpoint)
    : (match r.receiveStun octets a with
        | some (_, answered) => answered
        | none => if Dtls.isRecord octets then r.receiveRecord octets a else r).metrics =
        { r.metrics with
          bindings := r.metrics.bindings + indicator (r.Binding (.datagram octets a))
          stunFailures := r.metrics.stunFailures + indicator (r.Unverified (.datagram octets a)) } := by
  unfold Binding Unverified
  dsimp only
  rcases receiveStun_cases r octets a with ⟨request, id, hrequests, hstun⟩ | ⟨hnot, hstun⟩
  . have hnames : Names r.table octets request := names_iff.2 ⟨id, hrequests⟩
    rcases hstun with ⟨hverified, hstun⟩ | ⟨hverified, hstun⟩
    . rw [hstun, indicator_of ⟨request, hnames, hverified⟩, indicator_of_not]
      . exact metrics_acceptBinding r id request.message a
      . intro hother
        rcases hother with ⟨other, hnames', hnot⟩
        rw [hnames.unique hnames'] at hnot
        exact hnot hverified
    . rw [hstun, indicator_of_not, indicator_of ⟨request, hnames, hverified⟩]
      . rfl
      . intro hother
        rcases hother with ⟨other, hnames', hverified'⟩
        rw [hnames.unique hnames'] at hverified'
        exact hverified hverified'
  . have hnames : ∀ request, ¬ Names r.table octets request := by
      intro request hnames
      rcases names_iff.1 hnames with ⟨id, hrequests⟩
      exact hnot request id hrequests
    have hrecord : (if Dtls.isRecord octets then r.receiveRecord octets a else r).metrics = r.metrics := by
      split
      . rcases receiveRecord_cases r octets a with ⟨session, -, heq⟩ | ⟨-, heq⟩
        . rw [heq]
        . rw [heq]
      . rfl
    simp only [hnames, false_and, exists_false, Trace.indicator_false, Nat.add_zero]
    rcases hstun with ⟨-, hstun⟩ | ⟨-, hstun⟩
    . rw [hstun]
      exact hrecord
    . rw [hstun]

theorem receive_of_not_audio {missed : Relay} (h : r.count.receiveAudio octets a = (false, missed))
    : (r.receive octets a).2 =
        match missed.receiveStun octets a with
        | some (_, answered) => answered
        | none => if Dtls.isRecord octets then missed.receiveRecord octets a else missed := by
  cases hstun : missed.receiveStun octets a with
  | none => rw [receive_of_not_stun h hstun]
  | some answer => rw [receive_of_stun h hstun]

theorem metrics_receive (h : r.table.WellFormed) (octets : Bytes) (a : Endpoint)
    : (r.receive octets a).2.metrics =
        { r.metrics with
          received := r.metrics.received + 1
          forwarded := r.metrics.forwarded + r.passedOn (.datagram octets a)
          bindings := r.metrics.bindings + indicator (r.Binding (.datagram octets a))
          stunFailures := r.metrics.stunFailures + indicator (r.Unverified (.datagram octets a))
          srtpFailures := r.metrics.srtpFailures + indicator (r.Mistagged (.datagram octets a)) } := by
  rcases receiveAudio_cases r.count octets a with ⟨q, p, hsender, hp, haudio⟩ | ⟨hnot, hmissed⟩
  . have haudible : r.Audible octets a := (audible_iff h).2 ⟨q, hsender, p, hp⟩
    have hpassed : r.passedOn (.datagram octets a) = min r.outbox.room (r.copies q.id p).length := by
      unfold passedOn
      dsimp only
      have hsent : r.sent (.datagram octets a) = (r.copies q.id p).take r.outbox.room := sent_of_unprotect hsender hp
      rw [indicator_of haudible, Nat.one_mul, hsent, List.length_take]
    rw [receive_of_audio haudio, passOn_eq, hpassed, indicator_of_not (not_mistagged_of_audible h haudible),
      indicator_of_not (not_binding_of_audible haudible), indicator_of_not (not_unverified_of_audible haudible)]
    rfl
  . have hnone : ¬ r.Audible octets a := by
      rw [audible_iff h]
      intro haudible
      rcases haudible with ⟨q, hsender, p, hp⟩
      exact hnot q hsender p hp
    have hpassed := passedOn_of_not_audible hnone
    rcases hmissed with ⟨q, hsender, htag, hmissed⟩ | ⟨htag, hmissed⟩
    . have hmistagged : r.Mistagged (.datagram octets a) := by
        rw [mistagged_iff, wrongTag_iff h]
        exact ⟨q, hsender, htag⟩
      rw [receive_of_not_audio hmissed, metrics_receiveStun, hpassed, indicator_of hmistagged]
      rfl
    . have hmistagged : ¬ r.Mistagged (.datagram octets a) := by
        rw [mistagged_iff, wrongTag_iff h]
        intro hwrong
        rcases hwrong with ⟨q, hsender, hwrong⟩
        exact htag q hsender hwrong
      rw [receive_of_not_audio hmissed, metrics_receiveStun, hpassed, indicator_of_not hmistagged]
      rfl

end Datagrams

section Steps

variable {r : Relay}

theorem metrics_execute (r : Relay) (c : Command)
    : (r.execute c).metrics =
        { r.metrics with
          handshakesSucceeded :=
            r.metrics.handshakesSucceeded + indicator (∃ id masters, c = .install id (.ok masters))
          handshakesFailed :=
            r.metrics.handshakesFailed + indicator (∃ id error, c = .install id (.error error)) } := by
  cases c with
  | flight id octets =>
    unfold execute
    dsimp only
    split
    . simp
    . simp
  | install id outcome =>
    cases outcome with
    | ok masters => simp [execute]
    | error error => simp [execute]

theorem metrics_openSession (r : Relay)
    : r.openSession.2.metrics =
        { r.metrics with active := r.metrics.active + indicator (r.OpensSession .openSession) } := by
  unfold OpensSession Relay.openSession
  dsimp only
  split
  . simp
  . simp

theorem closesSession_iff {id : SessionId} : r.ClosesSession (.closeSession id) ↔ r.table.get? id ≠ none := by
  constructor
  . intro h
    rcases h with ⟨s, hs, hid⟩
    rw [← hid]
    exact SessionTable.get?_ne_none_of_mem hs
  . intro h
    rcases Option.ne_none_iff_exists'.1 h with ⟨s, hs⟩
    exact ⟨s, SessionTable.mem_of_get? hs, SessionTable.id_of_get? hs⟩

theorem metrics_closeSession (r : Relay) (id : SessionId)
    : (r.closeSession id).2.metrics =
        { r.metrics with active := r.metrics.active - indicator (r.ClosesSession (.closeSession id)) } := by
  unfold Relay.closeSession
  split
  . next hclose =>
    have hnot : ¬ r.ClosesSession (.closeSession id) := by
      rw [closesSession_iff, not_not, ← SessionTable.close?_eq_none_iff]
      exact hclose
    rw [indicator_of_not hnot, Nat.cast_zero, sub_zero]
  . next session table hclose =>
    have hcloses : r.ClosesSession (.closeSession id) := by
      rw [closesSession_iff, (SessionTable.close?_eq_some hclose).1]
      simp
    rw [indicator_of hcloses, Nat.cast_one]

theorem metrics_setIce (r : Relay) (id : SessionId) (ice : IceParameters)
    : (r.setIce id ice).2.metrics = r.metrics := by
  unfold Relay.setIce
  split
  . rfl
  . rfl

theorem metrics_handshake (r : Relay) (id : SessionId) (number : Nat) (s : Handshake.Step)
    : (r.step (.handshake id number s)).metrics = r.metrics := by
  unfold step
  dsimp only
  split
  . next answer after hadvance =>
    rcases advance_cases hadvance with ⟨table, detached, pending, -, rfl⟩
    rfl
  . rfl

theorem metrics_deliver (r : Relay) (place : Nat)
    : (r.step (.deliver place)).metrics =
        { r.metrics with
          handshakesSucceeded := r.metrics.handshakesSucceeded + indicator (r.Succeeds (.deliver place))
          handshakesFailed := r.metrics.handshakesFailed + indicator (r.Fails (.deliver place)) } := by
  unfold Succeeds Fails executed? step
  dsimp only
  cases r.pending[place]? with
  | none => simp
  | some c => simp [metrics_execute]

theorem metrics_step (h : r.table.WellFormed) (e : Event)
    : (r.step e).metrics =
        { active := r.metrics.active + (indicator (r.OpensSession e) - indicator (r.ClosesSession e))
          received := r.metrics.received + indicator (Arrives e)
          forwarded := r.metrics.forwarded + r.passedOn e
          bindings := r.metrics.bindings + indicator (r.Binding e)
          stunFailures := r.metrics.stunFailures + indicator (r.Unverified e)
          srtpFailures := r.metrics.srtpFailures + indicator (r.Mistagged e)
          handshakesSucceeded := r.metrics.handshakesSucceeded + indicator (r.Succeeds e)
          handshakesFailed := r.metrics.handshakesFailed + indicator (r.Fails e) } := by
  cases e with
  | datagram octets a =>
    unfold step
    dsimp only
    rw [metrics_receive h]
    simp
  | openSession =>
    unfold step
    dsimp only
    rw [metrics_openSession]
    simp
  | closeSession id =>
    unfold step
    dsimp only
    rw [metrics_closeSession, sub_eq_add_neg]
    simp
  | setIce id ice =>
    unfold step
    dsimp only
    rw [metrics_setIce]
    simp
  | command c =>
    unfold step
    dsimp only
    rw [metrics_execute]
    simp
  | deliver place =>
    rw [metrics_deliver]
    simp
  | handshake id number s =>
    rw [metrics_handshake]
    simp
  | send n => simp [step]
  | closeOutbox => simp [step]

theorem length_of_alike {t u : SessionTable} (h : SessionTable.Alike t u) : u.sessions.length = t.sessions.length := by
  have hlength := congrArg List.length h.infos
  rw [List.length_map, List.length_map] at hlength
  exact hlength

theorem length_openSession (r : Relay)
    : r.openSession.2.table.sessions.length = r.table.sessions.length + indicator (r.OpensSession .openSession) := by
  unfold OpensSession Relay.openSession
  dsimp only
  split
  . simp
  . next info table hopen =>
    rcases SessionTable.openSession_eq_ok hopen with ⟨id, name, names, -, -, -, rfl⟩
    simp

theorem length_closeSession (h : r.table.WellFormed) (id : SessionId)
    : (r.closeSession id).2.table.sessions.length + indicator (r.ClosesSession (.closeSession id)) =
        r.table.sessions.length := by
  unfold Relay.closeSession
  split
  . next hclose =>
    have hnot : ¬ r.ClosesSession (.closeSession id) := by
      rw [closesSession_iff, not_not, ← SessionTable.close?_eq_none_iff]
      exact hclose
    rw [indicator_of_not hnot]
    rfl
  . next session table hclose =>
    rcases SessionTable.close?_eq_some hclose with ⟨hget, rfl⟩
    have hcloses : r.ClosesSession (.closeSession id) := by
      rw [closesSession_iff, hget]
      simp
    have hlength := (h.perm_filter hget).length_eq
    rw [List.length_cons] at hlength
    rw [indicator_of hcloses]
    exact hlength.symm

theorem length_step (h : r.table.WellFormed) (e : Event)
    : ((r.step e).table.sessions.length : Int) =
        r.table.sessions.length + (indicator (r.OpensSession e) - indicator (r.ClosesSession e)) := by
  cases e with
  | datagram octets a =>
    unfold step
    dsimp only
    rw [length_of_alike (alike_receive r octets a)]
    simp
  | openSession =>
    unfold step
    dsimp only
    rw [length_openSession]
    simp
  | closeSession id =>
    rw [← length_closeSession h id]
    simp [step]
  | setIce id ice =>
    rw [length_of_alike (alike_setIce r id ice)]
    simp
  | command c =>
    unfold step
    dsimp only
    rw [length_of_alike (alike_execute r c)]
    simp
  | deliver place =>
    unfold step
    dsimp only
    split
    . next c _ =>
      rw [length_of_alike (alike_execute { r with pending := r.pending.eraseIdx place } c)]
      simp
    . simp
  | handshake id number s =>
    rw [length_of_alike (alike_handshake r id number s)]
    simp
  | send n => simp [step]
  | closeOutbox => simp [step]

end Steps

section Runs

variable {r : Relay} {k : Nat}

theorem run_total {M : Type} [AddCommMonoid M] (value : Relay → M) {gain : Relay → Event → M} (h : r.table.WellFormed)
    (hstep : ∀ (r : Relay) e, r.table.WellFormed → value (r.step e) = value r + gain r e)
    (events : List Event) (k : Nat) : value (r.run (events.take k)) = value r + Trace.total gain step r events k := by
  apply Trace.eq_add_total
  intro i e _
  exact hstep _ e (run_wellFormed h (events.take i)).1

theorem run_count (value : Relay → Nat) {P : Relay → Event → Prop} (h : r.table.WellFormed) (hr : value r = 0)
    (hstep : ∀ (r : Relay) e, r.table.WellFormed → value (r.step e) = value r + indicator (P r e))
    (events : List Event) (k : Nat) : value (r.run (events.take k)) = Trace.count P step r events k := by
  rw [run_total value h hstep, hr, Nat.zero_add, Trace.total_indicator]

theorem run_balance (value : Relay → Int) (h : r.table.WellFormed) (hr : value r = 0)
    (hstep : ∀ (r : Relay) e,
      r.table.WellFormed → value (r.step e) = value r + (indicator (r.OpensSession e) - indicator (r.ClosesSession e)))
    (events : List Event) (k : Nat)
    : value (r.run (events.take k)) =
        Trace.count OpensSession step r events k - Trace.count ClosesSession step r events k := by
  rw [run_total value h hstep, hr, Int.zero_add, Trace.total_sub]

/-- Whatever has happened, each number is that of the events of its kind, in the first `k` events of any run. -/
theorem metrics_mirror_state (names : NamePool) (password : String) (settings : Handshake.Settings) (capacity : Nat)
    (events : List Event) (k : Nat)
    : let first := start names password settings capacity
      let r := first.run (events.take k)
      let count := fun P => Trace.count P step first events k
      r.metrics.active = r.table.sessions.length ∧ r.metrics.active = count OpensSession - count ClosesSession ∧
      r.metrics.received = count (fun _ => Arrives) ∧
      r.metrics.forwarded = Trace.total passedOn step first events k ∧
      r.metrics.bindings = count Binding ∧ r.metrics.stunFailures = count Unverified ∧
      r.metrics.srtpFailures = count Mistagged ∧ r.metrics.handshakesSucceeded = count Succeeds ∧
      r.metrics.handshakesFailed = count Fails := by
  intro first r count
  have h := start_wellFormed names password settings capacity
  have hactive : r.metrics.active = count OpensSession - count ClosesSession :=
    run_balance (fun r => r.metrics.active) h rfl (fun _ _ hr => by rw [metrics_step hr]) events k
  have hlength : (r.table.sessions.length : Int) = count OpensSession - count ClosesSession :=
    run_balance (fun r => r.table.sessions.length) h rfl (fun _ e hr => length_step hr e) events k
  have hforwarded : r.metrics.forwarded = first.metrics.forwarded + Trace.total passedOn step first events k :=
    run_total (fun r => r.metrics.forwarded) h (fun _ _ hr => by rw [metrics_step hr]) events k
  refine ⟨hactive.trans hlength.symm, hactive, ?_, ?_, ?_, ?_, ?_, ?_, ?_⟩
  . exact run_count (fun r => r.metrics.received) h rfl (fun _ _ hr => by rw [metrics_step hr]) events k
  . exact hforwarded.trans (Nat.zero_add _)
  . exact run_count (fun r => r.metrics.bindings) h rfl (fun _ _ hr => by rw [metrics_step hr]) events k
  . exact run_count (fun r => r.metrics.stunFailures) h rfl (fun _ _ hr => by rw [metrics_step hr]) events k
  . exact run_count (fun r => r.metrics.srtpFailures) h rfl (fun _ _ hr => by rw [metrics_step hr]) events k
  . exact run_count (fun r => r.metrics.handshakesSucceeded) h rfl (fun _ _ hr => by rw [metrics_step hr]) events k
  . exact run_count (fun r => r.metrics.handshakesFailed) h rfl (fun _ _ hr => by rw [metrics_step hr]) events k

end Runs

end Intercom.Relay
