import Mathlib
import Intercom.Proofs.Relay.Forwarding

/-!
This module contains the main statement about audio from end to end: a participant hears from a copy what the
relay heard exactly if the datagram announced no header extension. The copy keeps the announcement but has no
extension behind it.
-/

namespace Intercom

/-- What of a packet is audio for who hears it. -/
structure Rtp.SameAudio (p heard : Rtp.Packet) : Prop where
  payload : heard.payload = p.payload
  marker : heard.marker = p.marker
  payloadType : heard.payloadType = p.payloadType
  sequenceNumber : heard.sequenceNumber = p.sequenceNumber
  timestamp : heard.timestamp = p.timestamp

namespace Relay

variable {r : Relay} {octets : Bytes} {a : Endpoint} {source : SessionId} {p : Rtp.Packet} {q t : Session}
  {x : Outgoing} {m : Octets Srtp.materialLength}

/-- The other end of a handshake that exported `m` accepts a datagram and hears `p` in it, from `source`. -/
def Hears (m : Octets Srtp.materialLength) (source : SessionId) (p : Rtp.Packet) (datagram : Bytes) : Prop :=
  ∃ heard,
    (Srtp.Context.ofMasters (.ofMaterial m .server)).unprotect datagram = .ok heard ∧
    Rtp.SameAudio p heard ∧ heard.source = source.value

theorem hears_protect_iff (m : Octets Srtp.materialLength) (source : SessionId) (htype : p.payloadType < 128)
    : Hears m source p ((Srtp.Keys.ofMasters (.ofMaterial m .client)).send.protect { p with source := source.value }) ↔
        p.extended = false := by
  unfold Hears Srtp.Context.unprotect Srtp.Context.ofMasters
  have hkeys := Srtp.Keys.receive_ofMaterial_other m .client
  change (Srtp.Keys.ofMasters (.ofMaterial m .server)).receive = _ at hkeys
  dsimp only
  rw [hkeys]
  constructor
  . intro h
    rcases h with ⟨heard, hheard, hsame, -⟩
    -- With the bit but no extension, the receiver takes octets of what is sealed for one.
    by_contra hextended
    have hlt := Srtp.Direction.length_lt_of_unprotect_protect (p := { p with source := source.value })
      (Bool.of_not_eq_false hextended) htype hheard
    rw [hsame.payload] at hlt
    exact lt_irrefl _ hlt
  . intro hextended
    refine ⟨{ p with source := source.value }, ?_, ⟨rfl, rfl, rfl, rfl, rfl⟩, rfl⟩
    exact Srtp.Direction.unprotect_protect _ hextended htype

theorem CopyFor.hears_iff (h : CopyFor source p t x) (hkeys : t.srtp = .ofMasters (.ofMaterial m .client))
    (htype : p.payloadType < 128) : Hears m source p x.datagram ↔ p.extended = false := by
  have hdatagram := h.datagram
  rw [hkeys] at hdatagram
  unfold Srtp.Context.ofMasters Srtp.Context.protect at hdatagram
  rw [Except.ok.injEq] at hdatagram
  rw [← hdatagram]
  exact hears_protect_iff m source htype

theorem header_of_unprotect (h : q.srtp.unprotect octets = .ok p)
    : p.payloadType < 128 ∧ (p.extended = false ↔ octets.headD 0 &&& 0x10 = 0) := by
  unfold Srtp.Context.unprotect at h
  split at h
  . simp at h
  . rcases Srtp.Direction.decode?_of_unprotect h with ⟨heard, hheard, -, rfl⟩
    rcases Rtp.of_decode?_eq_some hheard with ⟨htype, hextended⟩
    refine ⟨htype, ?_⟩
    rw [← Bool.not_eq_true, hextended, not_not]

theorem waiting_receive (hsender : r.sender? a = some q) (hp : q.srtp.unprotect octets = .ok p)
    : (r.receive octets a).2.outbox.waiting = r.outbox.waiting ++ (r.copies q.id p).take r.outbox.room := by
  rw [receive_of_unprotect hsender hp, passOn_eq]
  rfl

theorem hears_copies_iff (hr : r.Reachable) (hq : q ∈ r.table.sessions) (hbound : q.remote = some a)
    (hp : q.srtp.unprotect octets = .ok p)
    : ∃ copies,
        List.Forall₂
          (fun t x =>
            CopyFor q.id p t x ∧
            ∀ m, t.srtp = .ofMasters (.ofMaterial m .client) →
              (Hears m q.id p x.datagram ↔ octets.headD 0 &&& 0x10 = 0))
          (r.recipients q.id) copies ∧
        r.receive octets a =
          (none,
            { r with
              outbox := { r.outbox with waiting := r.outbox.waiting ++ copies.take r.outbox.room }
              metrics := { r.metrics with
                received := r.metrics.received + 1
                forwarded := r.metrics.forwarded + min r.outbox.room copies.length } }) := by
  rcases header_of_unprotect hp with ⟨htype, hextended⟩
  refine ⟨r.copies q.id p, ?_, ?_⟩
  . apply (copies_forall₂ r q.id p).imp
    intro t x hcopy
    refine ⟨hcopy, ?_⟩
    intro m hkeys
    rw [hcopy.hears_iff hkeys htype, hextended]
  . rw [receive_of_unprotect (sender?_eq_some hr.wellFormed hq hbound) hp, passOn_eq]
    rfl

section Sample

def sampleMaterial : Octets Srtp.materialLength := ⟨List.replicate 32 7 ++ List.replicate 28 9, rfl⟩

theorem ofMaterial_sampleMaterial (side : Srtp.Side) : .ofMaterial sampleMaterial side = sampleMasters := by
  cases side with
  | client => rfl
  | server => rfl

theorem recipients_samplePair
    : ∃ q ∈ samplePair.table.sessions, ∃ t,
        samplePair.recipients q.id = [t] ∧ q.remote = some sampleEndpoint ∧
        q.srtp = .ofMasters sampleMasters ∧ t.srtp = .ofMasters (.ofMaterial sampleMaterial .client) := by
  rcases sessions_samplePair with ⟨q, t, hsessions, hqid, hqremote, hqsrtp, htid, htremote, htsrtp⟩
  have hne : t.id ≠ q.id := by
    rw [hqid, htid]
    decide
  refine ⟨q, ?_, t, ?_, hqremote, hqsrtp, ?_⟩
  . rw [hsessions]
    apply List.mem_cons_self
  . unfold recipients
    rw [hsessions]
    simp [hne, htremote, htsrtp, Srtp.Context.hasKeys, Srtp.Context.ofMasters]
  . rw [ofMaterial_sampleMaterial, htsrtp]

theorem hears_copies_samplePair
    : ∃ q ∈ samplePair.table.sessions, ∃ t x,
        let octets := (Srtp.Direction.ofMaster sampleMasters.receive).protect (sampleWord 7 5)
        samplePair.recipients q.id = [t] ∧ q.remote = some sampleEndpoint ∧
        q.srtp.unprotect octets = .ok (sampleWord 7 5) ∧
        t.srtp = .ofMasters (.ofMaterial sampleMaterial .client) ∧ octets.headD 0 &&& 0x10 = 0 ∧
        Hears sampleMaterial q.id (sampleWord 7 5) x.datagram ∧
        (samplePair.receive octets sampleEndpoint).2.outbox.waiting = samplePair.outbox.waiting ++ [x] := by
  rcases recipients_samplePair with ⟨q, hq, t, hrecipients, hremote, hkeys, hkeys'⟩
  have hreachable : samplePair.Reachable := ⟨_, _, _, _, _, rfl⟩
  have hp := unprotect_sampleWord 7 5
  rw [← hkeys] at hp
  rcases hears_copies_iff hreachable hq hremote hp with ⟨copies, hcopies, hreceive⟩
  rw [hrecipients, List.forall₂_cons_left_iff] at hcopies
  rcases hcopies with ⟨x, rest, ⟨-, hears⟩, hrest, rfl⟩
  rw [List.forall₂_nil_left_iff] at hrest
  have hplain : ((Srtp.Direction.ofMaster sampleMasters.receive).protect (sampleWord 7 5)).headD 0 &&& 0x10 = 0 := by
    rfl
  refine ⟨q, hq, t, x, hrecipients, hremote, hp, hkeys', hplain, (hears _ hkeys').2 hplain, ?_⟩
  rw [hreceive, hrest, room_samplePair]
  rfl

def sampleExtended : Bytes :=
  let d := Srtp.Direction.ofMaster sampleMasters.receive
  let p := { sampleWord 7 5 with extended := true }
  let packet := p.header ++ (Bytes.ofNat 2 0xBEDE ++ (Bytes.ofNat 2 1 ++ [0, 0, 0, 0])) ++
    CounterMode.apply d.keys.key (d.start p.source p.sequenceNumber) p.payload
  packet ++ d.tag packet

theorem unprotect_sampleExtended
    : (Srtp.Context.ofMasters sampleMasters).unprotect sampleExtended =
        .ok { sampleWord 7 5 with extended := true } := by
  change (Srtp.Direction.ofMaster sampleMasters.receive).unprotect sampleExtended = _
  unfold sampleExtended
  apply Srtp.Direction.unprotect_append_tag
  intro payload
  rw [List.append_assoc, Rtp.decode?_header]
  . rw [if_pos rfl, List.append_assoc, List.append_assoc, Rtp.dropExtension?_append (by decide) rfl]
    rfl
  . change (111 : UInt8) < 128
    decide

theorem not_hears_sampleExtended
    : ∃ q ∈ samplePair.table.sessions, ∃ t x p,
        samplePair.recipients q.id = [t] ∧ q.remote = some sampleEndpoint ∧
        q.srtp.unprotect sampleExtended = .ok p ∧
        t.srtp = .ofMasters (.ofMaterial sampleMaterial .client) ∧ t.remote = some x.target ∧
        (samplePair.receive sampleExtended sampleEndpoint).2.outbox.waiting = samplePair.outbox.waiting ++ [x] ∧
        ¬ Hears sampleMaterial q.id p x.datagram := by
  rcases recipients_samplePair with ⟨q, hq, t, hrecipients, hremote, hkeys, hkeys'⟩
  have hreachable : samplePair.Reachable := ⟨_, _, _, _, _, rfl⟩
  have hp : q.srtp.unprotect sampleExtended = .ok { sampleWord 7 5 with extended := true } := by
    rw [hkeys]
    exact unprotect_sampleExtended
  have hcopies := copies_forall₂ samplePair q.id { sampleWord 7 5 with extended := true }
  rw [hrecipients, List.forall₂_cons_left_iff] at hcopies
  rcases hcopies with ⟨x, rest, hcopy, hrest, hcopies⟩
  rw [List.forall₂_nil_left_iff] at hrest
  refine ⟨q, hq, t, x, _, hrecipients, hremote, hp, hkeys', hcopy.target, ?_, ?_⟩
  . rw [waiting_receive (sender?_eq_some hreachable.wellFormed hq hremote) hp, hcopies, hrest, room_samplePair]
    rfl
  . rw [hcopy.hears_iff hkeys' (header_of_unprotect hp).1]
    simp

end Sample

end Relay

end Intercom
