import Mathlib
import Intercom.Proofs.Relay.Forwarding
import Intercom.Proofs.Stun.Acceptance

/-!
This module contains the main statement about datagrams that authenticate nothing: they are counted, at most one
of the failures with them, a record is queued for the session of its sender, and nothing else changes.
-/

namespace Intercom

namespace Relay

variable {r : Relay} {octets : Bytes} {a : Endpoint} {q : Session}

/-- Octets that would be audio of the session that is bound to their sender if their tag were right. -/
def WrongTag (t : SessionTable) (octets : Bytes) (a : Endpoint) : Prop :=
  ∃ q ∈ t.sessions, q.remote = some a ∧ q.srtp.unprotect octets = .error .wrongTag

structure Names (t : SessionTable) (octets : Bytes) (request : Stun.Received) : Prop where
  decoded : Stun.decode octets = .ok request
  type : request.message.type = .bindingRequest
  named : ∃ ufrag, request.message.fragment? = some ufrag ∧ ∃ s ∈ t.sessions, s.ufrag? = some ufrag

inductive Counted (t : SessionTable) (octets : Bytes) (a : Endpoint) (m : Metrics) : Metrics → Prop where
  | received (htag : ¬ WrongTag t octets a) (hnames : ∀ request, ¬ Names t octets request)
    : Counted t octets a m { m with received := m.received + 1 }
  | srtpFailure (htag : WrongTag t octets a) (hnames : ∀ request, ¬ Names t octets request)
    : Counted t octets a m { m with received := m.received + 1, srtpFailures := m.srtpFailures + 1 }
  | stunFailure (request : Stun.Received) (htag : ¬ WrongTag t octets a) (hnames : Names t octets request)
    : Counted t octets a m { m with received := m.received + 1, stunFailures := m.stunFailures + 1 }

/-- A record that is no message, from an endpoint that `q` is bound to, with room in the queue of `q`. -/
structure Queues (t : SessionTable) (octets : Bytes) (a : Endpoint) (q : Session) : Prop where
  mem : q ∈ t.sessions
  bound : q.remote = some a
  record : Dtls.isRecord octets
  notStun : ∀ request, Stun.decode octets ≠ .ok request
  room : q.line.queue.length < q.line.settings.queueCapacity

inductive Queued (t : SessionTable) (octets : Bytes) (a : Endpoint) : SessionTable → Prop where
  | same (h : ∀ q, ¬ Queues t octets a q) : Queued t octets a t
  | record (q : Session) (h : Queues t octets a q)
    : Queued t octets a
        (t.modify q.id fun s => { s with line := { s.line with queue := s.line.queue ++ [octets] } })

theorem wrongTag_iff (h : r.table.WellFormed)
    : WrongTag r.table octets a ↔
        ∃ q, r.sender? a = some q ∧ q.srtp.unprotect octets = .error .wrongTag := by
  unfold WrongTag
  simp only [sender?_eq_some_iff h, and_assoc]

theorem names_iff {t : SessionTable} {request : Stun.Received}
    : Names t octets request ↔ ∃ id, Requests t octets request id := by
  constructor
  . intro h
    rcases h.named with ⟨ufrag, hfragment, s, hs, hufrag⟩
    cases hfound : t.byUfrag? ufrag with
    | none => exact absurd hufrag (SessionTable.byUfrag?_eq_none_iff.1 hfound s hs)
    | some id =>
      refine ⟨id, h.decoded, decide_eq_true h.type, ?_⟩
      rw [hfragment]
      exact hfound
  . intro h
    rcases h with ⟨id, h⟩
    have hnamed := h.named
    rw [Option.bind_eq_some_iff] at hnamed
    rcases hnamed with ⟨ufrag, hfragment, hfound⟩
    refine ⟨h.decoded, of_decide_eq_true h.isRequest, ufrag, hfragment, ?_⟩
    by_contra hnone
    push Not at hnone
    rw [SessionTable.byUfrag?_eq_none_iff.2 hnone] at hfound
    simp at hfound

theorem receiveRecord_eq (h : r.table.WellFormed) (hstun : ∀ request, Stun.decode octets ≠ .ok request)
    : ∃ table,
        (if Dtls.isRecord octets then r.receiveRecord octets a else r) = { r with table } ∧
        Queued r.table octets a table := by
  by_cases hqueues : ∃ q, Queues r.table octets a q
  . rcases hqueues with ⟨q, hq⟩
    refine ⟨_, ?_, .record q hq⟩
    unfold receiveRecord
    rw [if_pos hq.record, (sender?_eq_some_iff h).2 ⟨hq.mem, hq.bound⟩]
    dsimp only
    congr 1
    apply h.modify_congr hq.mem
    unfold Handshake.Line.enqueue
    rw [if_pos hq.room]
  . refine ⟨r.table, ?_, .same (not_exists.1 hqueues)⟩
    split
    . next hrecord =>
      unfold receiveRecord
      cases hsender : r.sender? a with
      | none => rfl
      | some q =>
        rcases (sender?_eq_some_iff h).1 hsender with ⟨hq, hbound⟩
        dsimp only
        rw [h.modify_of_eq hq]
        unfold Handshake.Line.enqueue
        rw [if_neg]
        intro hroom
        exact hqueues ⟨q, hq, hbound, hrecord, hstun, hroom⟩
    . rfl

theorem not_names_of_wrongTag {t : SessionTable} {request : Stun.Received} (htag : WrongTag t octets a)
    : ¬ Names t octets request := by
  intro hnames
  rcases htag with ⟨q, -, -, htag⟩
  -- The two top bits of the first octet are 10 in audio and 00 in a message.
  rcases Stun.grammar_of_decode hnames.decoded with ⟨as, hgrammar⟩
  have htop := hgrammar.framed.top
  rw [Srtp.Context.version_of_wrongTag htag] at htop
  simp at htop

theorem receive_of_missed {metrics : Metrics} (h : r.table.WellFormed)
    (hmissed : r.count.receiveAudio octets a = (false, { r with metrics }))
    (hrequest : ∀ request, Names r.table octets request → ¬ request.verifies (Utf8.encode r.password))
    : ∃ table,
        Queued r.table octets a table ∧
        ((∃ request,
            Names r.table octets request ∧
            r.receive octets a =
              (none, { r with metrics := { metrics with stunFailures := metrics.stunFailures + 1 }, table })) ∨
          ((∀ request, ¬ Names r.table octets request) ∧ r.receive octets a = (none, { r with metrics, table }))) := by
  rcases receiveStun_cases { r with metrics } octets a with
    ⟨request, id, hrequests, hverified⟩ | ⟨hnot, hother⟩
  . have hnames : Names r.table octets request := names_iff.2 ⟨id, hrequests⟩
    rcases hverified with ⟨hverified, -⟩ | ⟨-, hstun⟩
    . exact absurd hverified (hrequest request hnames)
    . refine ⟨r.table, .same ?_, .inl ⟨request, hnames, receive_of_stun hmissed hstun⟩⟩
      intro q hq
      exact hq.notStun request hnames.decoded
  . have hnames : ∀ request, ¬ Names r.table octets request := by
      intro request hnames
      rcases names_iff.1 hnames with ⟨id, hrequests⟩
      exact hnot request id hrequests
    rcases hother with ⟨⟨e, hdecode⟩, hstun⟩ | ⟨⟨request, hdecode⟩, hstun⟩
    . have hstun' : ∀ request, Stun.decode octets ≠ .ok request := by
        intro request
        rw [hdecode]
        simp
      rcases receiveRecord_eq (r := { r with metrics }) (a := a) h hstun' with ⟨table, hrecord, hqueued⟩
      refine ⟨table, hqueued, .inr ⟨hnames, ?_⟩⟩
      rw [receive_of_not_stun hmissed hstun, hrecord]
    . refine ⟨r.table, .same ?_, .inr ⟨hnames, receive_of_stun hmissed hstun⟩⟩
      intro q hq
      exact hq.notStun request hdecode

/-- Octets that are no audio of the session that is bound to their sender and no verified request for an open
session. -/
theorem receive_unauthenticated (hr : r.Reachable)
    (haudio : ∀ q ∈ r.table.sessions, q.remote = some a → ∀ p, q.srtp.unprotect octets ≠ .ok p)
    (hrequest : ∀ request, Names r.table octets request → ¬ request.verifies (Utf8.encode r.password))
    : ∃ metrics table,
        r.receive octets a = (none, { r with metrics, table }) ∧
        Counted r.table octets a r.metrics metrics ∧ Queued r.table octets a table := by
  have h := hr.wellFormed
  rcases receiveAudio_cases r.count octets a with ⟨q, p, hsender, hp, -⟩ | ⟨-, hmissed⟩
  . rcases (sender?_eq_some_iff h).1 hsender with ⟨hq, hbound⟩
    exact absurd hp (haudio q hq hbound p)
  . rcases hmissed with ⟨q, hsender, htag, hmissed⟩ | ⟨htag, hmissed⟩
    . have htag : WrongTag r.table octets a := (wrongTag_iff h).2 ⟨q, hsender, htag⟩
      rcases receive_of_missed h hmissed hrequest with
        ⟨table, hqueued, ⟨request, hnames, -⟩ | ⟨hnames, hreceive⟩⟩
      . exact absurd hnames (not_names_of_wrongTag htag)
      . exact ⟨_, table, hreceive, .srtpFailure htag hnames, hqueued⟩
    . have htag : ¬ WrongTag r.table octets a := by
        rw [wrongTag_iff h]
        intro hwrong
        rcases hwrong with ⟨q, hsender, hwrong⟩
        exact htag q hsender hwrong
      rcases receive_of_missed h hmissed hrequest with
        ⟨table, hqueued, ⟨request, hnames, hreceive⟩ | ⟨hnames, hreceive⟩⟩
      . exact ⟨_, table, hreceive, .stunFailure request htag hnames, hqueued⟩
      . exact ⟨_, table, hreceive, .received htag hnames, hqueued⟩

section Sample

def sampleRecord : Bytes := [22, 0xFE, 0xFD] ++ List.replicate 10 0

theorem version_sampleRecord : sampleRecord.headD 0 &&& 0xC0 ≠ 0x80 := by
  decide

theorem not_ok_sampleRecord (c : Srtp.Context) (p : Rtp.Packet) : c.unprotect sampleRecord ≠ .ok p := by
  intro hp
  unfold Srtp.Context.unprotect at hp
  split at hp
  . simp at hp
  . rcases Srtp.Direction.decode?_of_unprotect hp with ⟨heard, hheard, -, -⟩
    exact version_sampleRecord (Rtp.version_of_decode? hheard)

theorem not_names_sampleRecord (t : SessionTable) (request : Stun.Received) : ¬ Names t sampleRecord request := by
  intro hnames
  rcases Stun.grammar_of_decode hnames.decoded with ⟨as, hgrammar⟩
  have hheader := hgrammar.framed.header
  revert hheader
  decide

theorem receive_unauthenticated_sampleRecord
    : ∃ table,
        samplePair.Reachable ∧ Dtls.isRecord sampleRecord ∧
        (∀ q ∈ samplePair.table.sessions, q.remote = some sampleEndpoint →
          ∀ p, q.srtp.unprotect sampleRecord ≠ .ok p) ∧
        (∀ request, ¬ Names samplePair.table sampleRecord request) ∧
        samplePair.receive sampleRecord sampleEndpoint =
          (none,
            { samplePair with
              metrics := { samplePair.metrics with received := samplePair.metrics.received + 1 }
              table }) ∧
        Queued samplePair.table sampleRecord sampleEndpoint table := by
  have hreachable : samplePair.Reachable := ⟨_, _, _, _, _, rfl⟩
  have haudio : ∀ q ∈ samplePair.table.sessions, q.remote = some sampleEndpoint →
      ∀ p, q.srtp.unprotect sampleRecord ≠ .ok p := fun q _ _ p => not_ok_sampleRecord q.srtp p
  have hnames := not_names_sampleRecord samplePair.table
  rcases receive_unauthenticated hreachable haudio (fun request h => absurd h (hnames request)) with
    ⟨metrics, table, hreceive, hcounted, hqueued⟩
  refine ⟨table, hreachable, by decide, haudio, hnames, ?_, hqueued⟩
  rw [hreceive]
  cases hcounted with
  | received => rfl
  | srtpFailure htag =>
    rcases htag with ⟨q, -, -, htag⟩
    exact absurd (Srtp.Context.version_of_wrongTag htag) version_sampleRecord
  | stunFailure request _ h => exact absurd h (hnames request)

end Sample

end Relay

end Intercom
