import Mathlib
import Intercom.Proofs.Relay.Run
import Intercom.Proofs.Srtp.RoundTrip

/-!
This module contains the main statement about audio: a packet from a bound session goes, in the order of
ids, to every other session with an endpoint and keys, as far as the outbox has room, and nothing else
changes.
-/

namespace Intercom.Relay

variable {r : Relay} {octets : Bytes} {a : Endpoint} {source : SessionId} {p : Rtp.Packet} {q : Session}

def recipients (r : Relay) (source : SessionId) : List Session :=
  r.table.sessions.filter fun s => s.id ≠ source ∧ s.remote.isSome ∧ s.srtp.hasKeys

structure CopyFor (source : SessionId) (p : Rtp.Packet) (s : Session) (x : Outgoing) : Prop where
  target : s.remote = some x.target
  datagram : s.srtp.protect { p with source := source.value } = .ok x.datagram

theorem copyFor_eq_none_of_isNone {s : Session} (h : s.remote = none) : copyFor source p s = none := by
  unfold copyFor
  split
  . rfl
  . rw [h]
    rfl

theorem copyFor_eq_none_of_noKeys {s : Session} (h : s.srtp.keys = none) : copyFor source p s = none := by
  unfold copyFor
  split
  . rfl
  . cases s.remote with
    | none => rfl
    | some remote =>
      simp [Srtp.Context.protect, h, Except.toOption]

theorem copyFor_eq_some {s : Session} {keys : Srtp.Keys} (hid : s.id ≠ source)
    (hremote : s.remote = some a) (hkeys : s.srtp.keys = some keys)
    : copyFor source p s = some ⟨a, keys.send.protect p⟩ := by
  unfold copyFor
  rw [if_neg hid, hremote]
  simp [Srtp.Context.protect, hkeys, Except.toOption]

theorem copies_forall₂ (r : Relay) (source : SessionId) (p : Rtp.Packet)
    : List.Forall₂ (CopyFor source p) (r.recipients source) (r.copies source p) := by
  unfold recipients copies
  induction r.table.sessions with
  | nil => simp
  | cons s sessions ih =>
    rw [List.filter_cons, List.filterMap_cons]
    by_cases hid : s.id = source
    . have hnone : copyFor source { p with source := source.value } s = none := by
        unfold copyFor
        rw [if_pos hid]
      rw [hnone]
      simpa [hid] using ih
    . cases hremote : s.remote with
      | none =>
        rw [copyFor_eq_none_of_isNone hremote]
        simpa using ih
      | some remote =>
        cases hkeys : s.srtp.keys with
        | none =>
          rw [copyFor_eq_none_of_noKeys hkeys]
          simpa [Srtp.Context.hasKeys, hkeys] using ih
        | some keys =>
          rw [copyFor_eq_some hid hremote hkeys]
          have hcopy : CopyFor source p s ⟨remote, keys.send.protect { p with source := source.value }⟩ := by
            constructor
            . exact hremote
            . unfold Srtp.Context.protect
              rw [hkeys]
          simpa [hid, Srtp.Context.hasKeys, hkeys] using ⟨hcopy, ih⟩

theorem recipients_ascending (h : r.table.WellFormed) (source : SessionId)
    : (r.recipients source).Pairwise (·.id.value < ·.id.value) := by
  unfold recipients
  apply List.Pairwise.filter
  have := h.ascending
  unfold SessionTable.ids at this
  rw [List.pairwise_map] at this
  exact this

theorem sender?_eq_some_iff (h : r.table.WellFormed)
    : r.sender? a = some q ↔ q ∈ r.table.sessions ∧ q.remote = some a := by
  unfold sender?
  rw [Option.bind_eq_some_iff]
  constructor
  . intro hsender
    rcases hsender with ⟨id, hindexed, hget⟩
    rw [h.indexed, SessionTable.remote?_eq_some_iff] at hindexed
    rcases hindexed with ⟨s, hs, hbound⟩
    rw [hs, Option.some.injEq] at hget
    rw [← hget]
    exact ⟨SessionTable.mem_of_get? hs, hbound⟩
  . intro hbound
    have hget := h.get?_of_mem hbound.1
    refine ⟨q.id, ?_, hget⟩
    rw [h.indexed, SessionTable.remote?_eq_some_iff]
    exact ⟨q, hget, hbound.2⟩

theorem sender?_eq_some (h : r.table.WellFormed) (hq : q ∈ r.table.sessions) (hbound : q.remote = some a)
    : r.sender? a = some q := by
  rw [sender?_eq_some_iff h]
  exact ⟨hq, hbound⟩

theorem receive_of_unprotect (hsender : r.sender? a = some q) (hp : q.srtp.unprotect octets = .ok p)
    : r.receive octets a = (none, r.count.passOn q.id p) := by
  rcases receive_cases r octets a with ⟨source, packet, hsource, hpacket, heq⟩ | ⟨hnone, -⟩
  . rw [hsender, Option.some.injEq] at hsource
    rw [← hsource, hp, Except.ok.injEq] at hpacket
    rw [heq, ← hsource, ← hpacket]
  . exact absurd hp (hnone q hsender p)

theorem step_of_unprotect (hsender : r.sender? a = some q) (hp : q.srtp.unprotect octets = .ok p)
    : r.step (.datagram octets a) = r.count.passOn q.id p :=
  congrArg Prod.snd (receive_of_unprotect hsender hp)

theorem outbox_of_unprotect (hsender : r.sender? a = some q) (hp : q.srtp.unprotect octets = .ok p)
    : (r.step (.datagram octets a)).outbox =
        { r.outbox with waiting := r.outbox.waiting ++ (r.copies q.id p).take r.outbox.room } := by
  rw [step_of_unprotect hsender hp, passOn_eq]
  rfl

theorem sent_of_unprotect (hsender : r.sender? a = some q) (hp : q.srtp.unprotect octets = .ok p)
    : r.sent (.datagram octets a) = (r.copies q.id p).take r.outbox.room :=
  sent_eq_of_append (congrArg Outbox.waiting (outbox_of_unprotect hsender hp))

theorem receive_audio (hr : r.Reachable) (hq : q ∈ r.table.sessions) (hbound : q.remote = some a)
    (hp : q.srtp.unprotect octets = .ok p)
    : (r.recipients q.id).Pairwise (·.id.value < ·.id.value) ∧
      ∃ copies,
        List.Forall₂ (CopyFor q.id p) (r.recipients q.id) copies ∧
        (∀ x ∈ copies, x.target ≠ a) ∧
        r.receive octets a =
          (none,
            { r with
              outbox := { r.outbox with waiting := r.outbox.waiting ++ copies.take r.outbox.room }
              metrics := { r.metrics with
                received := r.metrics.received + 1
                forwarded := r.metrics.forwarded + min r.outbox.room copies.length } }) := by
  have h := hr.wellFormed
  refine ⟨recipients_ascending h q.id, r.copies q.id p, copies_forall₂ r q.id p, ?_, ?_⟩
  . intro x hx htarget
    rcases exists_of_mem_copies hx with ⟨s, hs, hne, hremote, -⟩
    rw [htarget] at hremote
    exact hne (congrArg Session.id (h.eq_of_remote_eq hs hq hremote hbound))
  . rw [receive_of_unprotect (sender?_eq_some h hq hbound) hp, passOn_eq]
    rfl

section Sample

def sampleEndpoint : Endpoint := .v4 ⟨[10, 0, 0, 1], rfl⟩ 5000

def sampleMasters : Srtp.MasterPair :=
  let master : Srtp.Master := ⟨⟨List.replicate 16 7, rfl⟩, ⟨List.replicate 14 9, rfl⟩⟩
  ⟨master, master⟩

def sampleRequest (ufrag : String) : Bytes :=
  let request : Stun.Message := {
    type := .bindingRequest
    transaction := ⟨List.replicate 12 0, rfl⟩
    username := some ("relay:" ++ ufrag) }
  request.encode (some (Utf8.encode "secret"))

/-- Two participants that are bound and have keys, with two answers not sent yet. -/
def samplePair : Relay :=
  (start ⟨["Ada", "Ben"]⟩ "secret" {} 4).run [
    .openSession,
    .openSession,
    .setIce ⟨0x10000001⟩ ⟨"a", ""⟩,
    .setIce ⟨0x10000002⟩ ⟨"b", ""⟩,
    .datagram (sampleRequest "a") sampleEndpoint,
    .datagram (sampleRequest "b") (.v4 ⟨[10, 0, 0, 2], rfl⟩ 5000),
    .command (.install ⟨0x10000001⟩ (.ok sampleMasters)),
    .command (.install ⟨0x10000002⟩ (.ok sampleMasters))]

def sampleOther : Endpoint := .v4 ⟨[10, 0, 0, 2], rfl⟩ 5000

def sampleBound : Relay :=
  (start ⟨["Ada", "Ben"]⟩ "secret" {} 4).run [
    .openSession,
    .openSession,
    .setIce ⟨0x10000001⟩ ⟨"a", ""⟩,
    .setIce ⟨0x10000002⟩ ⟨"b", ""⟩,
    .datagram (sampleRequest "a") sampleEndpoint,
    .datagram (sampleRequest "b") sampleOther]

theorem sessions_sampleBound
    : sampleBound.table.sessions.map (fun s => (s.id, s.remote)) =
        [(⟨0x10000001⟩, some sampleEndpoint), (⟨0x10000002⟩, some sampleOther)] ∧
      sampleBound.outbox.room = 2 := by
  decide +kernel

theorem step_install (r : Relay) (id : SessionId) (masters : Srtp.MasterPair)
    : let after := r.step (.command (.install id (.ok masters)))
      after.outbox = r.outbox ∧
      after.table = r.table.modify id fun s => { s with srtp := .ofMasters masters } := by
  exact ⟨rfl, rfl⟩

theorem samplePair_eq
    : samplePair =
        (sampleBound.step (.command (.install ⟨0x10000001⟩ (.ok sampleMasters)))).step
          (.command (.install ⟨0x10000002⟩ (.ok sampleMasters))) := by
  have hrun : samplePair = sampleBound.run [
      .command (.install ⟨0x10000001⟩ (.ok sampleMasters)),
      .command (.install ⟨0x10000002⟩ (.ok sampleMasters))] := by
    unfold sampleBound
    rw [← run_append]
    rfl
  rw [hrun]
  rfl

theorem sessions_samplePair
    : ∃ q t,
        samplePair.table.sessions = [q, t] ∧
        q.id = ⟨0x10000001⟩ ∧ q.remote = some sampleEndpoint ∧ q.srtp = .ofMasters sampleMasters ∧
        t.id = ⟨0x10000002⟩ ∧ t.remote = some sampleOther ∧
        t.srtp = .ofMasters sampleMasters := by
  have hbound := sessions_sampleBound.1
  rw [List.map_eq_cons_iff] at hbound
  rcases hbound with ⟨q, rest, hsessions, hq, hrest⟩
  rw [List.map_eq_singleton_iff] at hrest
  rcases hrest with ⟨t, rfl, ht⟩
  rw [Prod.mk.injEq] at hq ht
  let install : Session → Session := fun s => { s with srtp := .ofMasters sampleMasters }
  refine ⟨install q, install t, ?_, hq.1, hq.2, rfl, ht.1, ht.2, rfl⟩
  rw [samplePair_eq, (step_install _ _ _).2, (step_install _ _ _).2]
  unfold SessionTable.modify
  dsimp only
  rw [hsessions]
  simp [install, hq.1, ht.1]

theorem room_samplePair : samplePair.outbox.room = 2 := by
  rw [samplePair_eq, (step_install _ _ _).1, (step_install _ _ _).1]
  exact sessions_sampleBound.2

def sampleWord (source : UInt32) (sequenceNumber : UInt16) : Rtp.Packet where
  padding := false
  extended := false
  marker := true
  payloadType := 111
  sequenceNumber
  timestamp := 6
  source
  payload := List.replicate 17 1

theorem unprotect_sampleWord (source : UInt32) (sequenceNumber : UInt16)
    : let word := sampleWord source sequenceNumber
      (Srtp.Context.ofMasters sampleMasters).unprotect ((Srtp.Direction.ofMaster sampleMasters.receive).protect word) =
        .ok word := by
  apply Srtp.Direction.unprotect_protect
  . rfl
  . change (111 : UInt8) < 128
    decide

def sampleAudio (sequenceNumber : UInt16) : Bytes :=
  (Srtp.Direction.ofMaster sampleMasters.receive).protect (sampleWord 7 sequenceNumber)

theorem receive_audio_samplePair
    : ∃ q ∈ samplePair.table.sessions, ∃ copies,
        q.remote = some sampleEndpoint ∧
        q.srtp.unprotect (sampleAudio 5) = .ok (sampleWord 7 5) ∧
        List.Forall₂ (CopyFor q.id (sampleWord 7 5)) (samplePair.recipients q.id) copies ∧
        (samplePair.receive (sampleAudio 5) sampleEndpoint).2.table = samplePair.table ∧
        (samplePair.receive (sampleAudio 5) sampleEndpoint).2.outbox.waiting =
          samplePair.outbox.waiting ++ copies.take samplePair.outbox.room := by
  rcases sessions_samplePair with ⟨q, t, hsessions, -, hremote, hsrtp, -⟩
  have hq : q ∈ samplePair.table.sessions := by
    rw [hsessions]
    exact List.mem_cons_self
  have hheard : q.srtp.unprotect (sampleAudio 5) = .ok (sampleWord 7 5) := by
    rw [hsrtp]
    exact unprotect_sampleWord 7 5
  have hreachable : samplePair.Reachable := ⟨_, _, _, _, _, rfl⟩
  rcases receive_audio hreachable hq hremote hheard with ⟨-, copies, hcopies, -, heq⟩
  refine ⟨q, hq, copies, hremote, hheard, hcopies, ?_, ?_⟩
  . rw [heq]
  . rw [heq]

end Sample

end Intercom.Relay
