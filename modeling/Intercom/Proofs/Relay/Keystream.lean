import Mathlib
import Intercom.Proofs.Relay.Openings
import Intercom.Proofs.Srtp.Keystream

/-!
This module contains the main statement about the keystream: in a run of the relay no counter block is used
for two packets of different sessions or with different sequence numbers, as long as the keys stay the same.
-/

namespace Intercom.Relay

def Brings (r : Relay) (e : Event) (q : Session) (p : Rtp.Packet) : Prop :=
  ∃ octets sender, e = .datagram octets sender ∧ r.sender? sender = some q ∧ q.srtp.unprotect octets = .ok p

/-- The session to which a datagram goes, and its keys. -/
structure Reaches (r : Relay) (x : Outgoing) (target : Session) (keys : Srtp.Keys) : Prop where
  mem : target ∈ r.table.sessions
  bound : target.remote = some x.target
  keyed : target.srtp.keys = some keys

section Steps

variable {r : Relay} {e : Event} {q target : Session} {p : Rtp.Packet} {x : Outgoing} {keys : Srtp.Keys}

theorem Brings.get? (h : r.Brings e q p) : r.table.get? q.id ≠ none := by
  rcases h with ⟨octets, sender, -, hsender, -⟩
  unfold sender? at hsender
  rw [Option.bind_eq_some_iff] at hsender
  rcases hsender with ⟨id, -, hget⟩
  rw [SessionTable.id_of_get? hget, hget]
  simp

theorem Brings.exists_reaches (h : r.Brings e q p) (hx : x ∈ r.sent e)
    : ∃ target keys, r.Reaches x target keys ∧ x.datagram = keys.send.protect { p with source := q.id.value } := by
  rcases h with ⟨octets, sender, rfl, hsender, hp⟩
  rw [sent_of_unprotect hsender hp] at hx
  rcases exists_of_mem_copies (List.mem_of_mem_take hx) with ⟨target, hmem, -, hbound, keys, hkeys, hdatagram⟩
  exact ⟨target, keys, ⟨hmem, hbound, hkeys⟩, hdatagram⟩

/-- No two sessions are bound to one endpoint, so it does not matter how the keys were found. -/
theorem Brings.datagram_eq (hwf : r.table.WellFormed) (h : r.Brings e q p) (hx : x ∈ r.sent e)
    (hreaches : r.Reaches x target keys) : x.datagram = keys.send.protect { p with source := q.id.value } := by
  rcases h.exists_reaches hx with ⟨other, otherKeys, hother, hdatagram⟩
  have hsame : target = other := hwf.eq_of_remote_eq hreaches.mem hother.mem hreaches.bound hother.bound
  have hkeys : otherKeys = keys := by
    rw [← Option.some.injEq, ← hother.keyed, ← hreaches.keyed, hsame]
  rw [hdatagram, hkeys]

end Steps

/-- The parts: the cipher is applied to the counter blocks of a packet; packets whose sources or sequence numbers differ
share none; no id is given out twice; what the relay sends for a packet comes from a session that was opened before, and
is protected under the keys of its receiver and with the id of that session; and what it sends under the same keys for
sessions that were opened by different events, or with different sequence numbers, shares no counter block. -/
theorem no_counter_used_twice (names : NamePool) (password : String) (settings : Handshake.Settings)
    (capacity : Nat) (events : List Event)
    : let r := fun k => (start names password settings capacity).run (events.take k)
      let Opened := fun i id => ∃ e, events[i]? = some e ∧ Opens (r i) e id
      (∀ (d : Srtp.Direction) p,
        d.protect p =
          let stream := ((d.counters p).flatMap (Aes.encrypt d.keys.key)).take p.payload.length
          let packet := p.header ++ Bytes.xor p.payload stream
          packet ++ d.tag packet) ∧
      (∀ (d : Srtp.Direction) p p',
        p.payload.length ≤ 2 ^ 20 → p'.payload.length ≤ 2 ^ 20 →
        (p.source, p.sequenceNumber) ≠ (p'.source, p'.sequenceNumber) →
        (d.counters p).Disjoint (d.counters p')) ∧
      (∀ i j id, Opened i id → Opened j id → i = j) ∧
      (∀ k e q p x, events[k]? = some e → (r k).Brings e q p → x ∈ (r k).sent e →
        (∃ i < k, Opened i q.id) ∧
        ∃ target keys, (r k).Reaches x target keys ∧
          x.datagram = keys.send.protect { p with source := q.id.value }) ∧
      (∀ i i' j k e f q q' p p' x x' target target' keys,
        events[j]? = some e → (r j).Brings e q p → x ∈ (r j).sent e → (r j).Reaches x target keys →
        events[k]? = some f → (r k).Brings f q' p' → x' ∈ (r k).sent f → (r k).Reaches x' target' keys →
        p.payload.length ≤ 2 ^ 20 → p'.payload.length ≤ 2 ^ 20 →
        Opened i q.id → Opened i' q'.id → (i ≠ i' ∨ p.sequenceNumber ≠ p'.sequenceNumber) →
        x.datagram = keys.send.protect { p with source := q.id.value } ∧
        x'.datagram = keys.send.protect { p' with source := q'.id.value } ∧
        (keys.send.counters { p with source := q.id.value }).Disjoint
          (keys.send.counters { p' with source := q'.id.value })) := by
  intro r Opened
  have h := start_wellFormed names password settings capacity
  have hwf : ∀ k, (r k).table.WellFormed := fun k => (run_wellFormed h (events.take k)).1
  have honce : ∀ i j id, Opened i id → Opened j id → i = j := by
    intro i j id hi hj
    rcases hi with ⟨e, he, hi⟩
    rcases hj with ⟨f, hf, hj⟩
    exact opens_once h he hf hi hj
  refine ⟨Srtp.Direction.protect_eq, ?_, honce, ?_, ?_⟩
  . intro d p p' hp hp' hne
    exact Srtp.Direction.counters_disjoint hp hp' hne
  . intro k e q p x _ hbrings hx
    rcases exists_opens h rfl hbrings.get? with ⟨i, hi, hopened⟩
    exact ⟨⟨i, hi, hopened⟩, hbrings.exists_reaches hx⟩
  . intro i i' j k e f q q' p p' x x' target target' keys _ hq hx hreaches _ hq' hx' hreaches' hp hp' hi hi' hne
    have hlength : ({ p with source := q.id.value } : Rtp.Packet).payload.length ≤ Srtp.Direction.maxPayload := hp
    have hlength' : ({ p' with source := q'.id.value } : Rtp.Packet).payload.length ≤ Srtp.Direction.maxPayload := hp'
    refine ⟨hq.datagram_eq (hwf j) hx hreaches, hq'.datagram_eq (hwf k) hx' hreaches', ?_⟩
    apply Srtp.Direction.counters_disjoint hlength hlength'
    intro heq
    rw [Prod.mk.injEq] at heq
    have hid : q.id = q'.id := congrArg SessionId.mk heq.1
    rw [← hid] at hi'
    cases hne with
    | inl hne => exact hne (honce i i' q.id hi hi')
    | inr hne => exact hne heq.2

section Sample

def sampleSpeech (sequenceNumber : UInt16) : Event :=
  .datagram (sampleAudio sequenceNumber) sampleEndpoint

def sampleTalk : List Event := [
  .openSession,
  .openSession,
  .setIce ⟨0x10000001⟩ ⟨"a", ""⟩,
  .setIce ⟨0x10000002⟩ ⟨"b", ""⟩,
  .datagram (sampleRequest "a") sampleEndpoint,
  .datagram (sampleRequest "b") sampleOther,
  .command (.install ⟨0x10000001⟩ (.ok sampleMasters)),
  .command (.install ⟨0x10000002⟩ (.ok sampleMasters)),
  sampleSpeech 5,
  sampleSpeech 6]

def sampleState (k : Nat) : Relay :=
  (start ⟨["Ada", "Ben"]⟩ "secret" {} 4).run (sampleTalk.take k)

theorem sampleState_pair : sampleState 8 = samplePair := by
  rfl

theorem sampleState_wellFormed (k : Nat) : (sampleState k).table.WellFormed :=
  (run_wellFormed (start_wellFormed _ _ _ _) _).1

theorem sent_sampleSpeech {r : Relay} (sequenceNumber : UInt16) (htable : r.table = samplePair.table)
    (h : r.table.WellFormed) (hroom : 0 < r.outbox.room)
    : ∃ q target x,
        r.Brings (sampleSpeech sequenceNumber) q (sampleWord 7 sequenceNumber) ∧ q.id = ⟨0x10000001⟩ ∧
        r.sent (sampleSpeech sequenceNumber) = [x] ∧ r.Reaches x target (.ofMasters sampleMasters) ∧
        (r.step (sampleSpeech sequenceNumber)).table = r.table ∧
        (r.step (sampleSpeech sequenceNumber)).outbox.room = r.outbox.room - 1 := by
  rcases sessions_samplePair with ⟨q, t, hsessions, hqid, hqremote, hqsrtp, htid, htremote, htsrtp⟩
  rw [← htable] at hsessions
  have hsender : r.sender? sampleEndpoint = some q := by
    apply sender?_eq_some h _ hqremote
    rw [hsessions]
    exact List.mem_cons_self
  have hheard : q.srtp.unprotect (sampleAudio sequenceNumber) = .ok (sampleWord 7 sequenceNumber) := by
    rw [hqsrtp]
    exact unprotect_sampleWord 7 sequenceNumber
  have hkeys : t.srtp.keys = some (.ofMasters sampleMasters) := by
    rw [htsrtp]
    rfl
  have hne : t.id ≠ q.id := by
    rw [htid, hqid]
    decide
  have hcopies : r.copies q.id (sampleWord 7 sequenceNumber) =
      [⟨sampleOther, (Srtp.Direction.ofMaster sampleMasters.send).protect (sampleWord q.id.value sequenceNumber)⟩] := by
    have hown : copyFor q.id (sampleWord q.id.value sequenceNumber) q = none := by
      unfold copyFor
      rw [if_pos rfl]
    have hother := copyFor_eq_some (p := sampleWord q.id.value sequenceNumber) hne htremote hkeys
    unfold copies
    rw [hsessions]
    change List.filterMap (copyFor q.id (sampleWord q.id.value sequenceNumber)) [q, t] = _
    rw [List.filterMap_cons_none hown, List.filterMap_cons_some hother, List.filterMap_nil]
    rfl
  have hsent := sent_of_unprotect hsender hheard
  have houtbox := outbox_of_unprotect hsender hheard
  rw [hcopies, List.take_of_length_le hroom] at hsent houtbox
  refine ⟨q, t, _, ⟨_, _, rfl, hsender, hheard⟩, hqid, hsent, ⟨?_, htremote, hkeys⟩, ?_, ?_⟩
  . rw [hsessions]
    exact List.mem_cons_of_mem q List.mem_cons_self
  . unfold sampleSpeech
    rw [step_of_unprotect hsender hheard, passOn_eq]
    rfl
  . unfold sampleSpeech
    rw [houtbox, Outbox.room_append]
    rfl

theorem no_counter_used_twice_sampleTalk
    : ∃ q q' target target' x x',
        (sampleState 8).Brings (sampleSpeech 5) q (sampleWord 7 5) ∧
        (sampleState 9).Brings (sampleSpeech 6) q' (sampleWord 7 6) ∧
        (sampleState 8).sent (sampleSpeech 5) = [x] ∧ (sampleState 9).sent (sampleSpeech 6) = [x'] ∧
        (sampleState 8).Reaches x target (.ofMasters sampleMasters) ∧
        (sampleState 9).Reaches x' target' (.ofMasters sampleMasters) ∧
        x.datagram = (Srtp.Direction.ofMaster sampleMasters.send).protect (sampleWord 0x10000001 5) ∧
        x'.datagram = (Srtp.Direction.ofMaster sampleMasters.send).protect (sampleWord 0x10000001 6) ∧
        ((Srtp.Direction.ofMaster sampleMasters.send).counters (sampleWord 0x10000001 5)).Disjoint
          ((Srtp.Direction.ofMaster sampleMasters.send).counters (sampleWord 0x10000001 6)) := by
  have hsucc : sampleState 9 = (sampleState 8).step (sampleSpeech 5) := run_take_succ rfl
  have htable : (sampleState 8).table = samplePair.table := congrArg Relay.table sampleState_pair
  have hroom : (sampleState 8).outbox.room = 2 := (congrArg (·.outbox.room) sampleState_pair).trans room_samplePair
  rcases sent_sampleSpeech 5 htable (sampleState_wellFormed 8) (by omega) with
    ⟨q, target, x, hq, hid, hsent, hreaches, htableAfter, hroomAfter⟩
  rw [← hsucc] at htableAfter hroomAfter
  rcases sent_sampleSpeech 6 (htableAfter.trans htable) (sampleState_wellFormed 9) (by omega) with
    ⟨q', target', x', hq', hid', hsent', hreaches', -, -⟩
  have hx : x ∈ (sampleState 8).sent (sampleSpeech 5) := hsent ▸ List.mem_singleton_self x
  have hx' : x' ∈ (sampleState 9).sent (sampleSpeech 6) := hsent' ▸ List.mem_singleton_self x'
  rcases no_counter_used_twice ⟨["Ada", "Ben"]⟩ "secret" {} 4 sampleTalk with ⟨-, -, -, hopened, hunused⟩
  rcases (hopened 8 _ q _ x rfl hq hx).1 with ⟨i, -, hi⟩
  have hi' := hi
  rw [hid, ← hid'] at hi'
  have hresult := hunused i i 8 9 _ _ q q' _ _ x x' target target' _ rfl hq hx hreaches rfl hq' hx' hreaches'
    (by decide) (by decide) hi hi' (.inr (by decide))
  rw [hid, hid'] at hresult
  exact ⟨q, q', target, target', x, x', hq, hq', hsent, hsent', hreaches, hreaches', hresult⟩

end Sample

end Intercom.Relay
