import Mathlib
import Intercom.Proofs.Relay.OwnBinding
import Intercom.Proofs.Relay.Unauthenticated
import Intercom.Proofs.Stun.UserName

/-!
This module contains what a request under a user name that is not UTF-8 does. Only the part between its colons is
looked up, with replacements in it, and so it can be found.
-/

namespace Intercom.Relay

variable {r : Relay} {octets value : Bytes} {a : Endpoint} {request : Stun.Received} {ufrag : String} {s : Session}

structure InvalidName (octets value : Bytes) : Prop where
  name : Stun.userName? octets = some value
  invalid : ¬ Utf8.Valid value

/-- A verified binding request under a user name that is read as if it named an open session. -/
structure ReadAs (r : Relay) (octets value : Bytes) (request : Stun.Received) (ufrag : String) : Prop where
  decoded : Stun.decode octets = .ok request
  type : request.message.type = .bindingRequest
  verified : request.verifies (Utf8.encode r.password)
  part : ∃ part, Stun.between? Utf8.colon value = some part ∧ Utf8.decodeLossy part = ufrag
  isOpen : ∃ s ∈ r.table.sessions, s.ufrag? = some ufrag

/-- A datagram that binds no session, is not answered and starts no handshake. It is counted, and perhaps queued. -/
def Refuses (r : Relay) (octets : Bytes) (a : Endpoint) : Prop :=
  ∃ metrics table, r.receive octets a = (none, { r with metrics, table }) ∧ Queued r.table octets a table

/-- A request that binds a session to its sender, is answered as far as there is room, and starts a handshake if one
can start. -/
structure Binds (r : Relay) (octets : Bytes) (a : Endpoint) (request : Stun.Received) (s : Session) : Prop where
  bound : BoundTo (r.receive octets a).2.table s.id a
  answered : (r.receive octets a).2.outbox =
    (r.outbox.offer ⟨a, (request.message.bindingReply a).encode (some (Utf8.encode r.password))⟩).2
  started : (r.receive octets a).1 = if s.line.start.1 then some s.id else none

theorem receiveAudio_of_framed (h : Stun.Framed octets) (r : Relay) (a : Endpoint)
    : r.receiveAudio octets a = (false, r) := by
  have htop := h.top
  have hnone : Rtp.decode? octets = none := by
    by_contra hsome
    rcases Option.ne_none_iff_exists'.1 hsome with ⟨p, hp⟩
    rw [Rtp.version_of_decode? hp] at htop
    simp at htop
  rcases receiveAudio_cases r octets a with ⟨source, p, -, hp, -⟩ | ⟨-, ⟨source, -, htag, -⟩ | ⟨-, hmissed⟩⟩
  . rw [Srtp.Context.unprotect_of_decode?_eq_none _ hnone] at hp
    simp at hp
  . rw [Srtp.Context.version_of_wrongTag htag] at htop
    simp at htop
  . exact hmissed

theorem readAs_of_names (hname : Stun.userName? octets = some value) (h : Names r.table octets request)
    (hverified : request.verifies (Utf8.encode r.password)) : ∃ ufrag, ReadAs r octets value request ufrag := by
  rcases h.named with ⟨ufrag, hfragment, hopen⟩
  rw [Stun.fragment?_of_decode h.decoded, hname, Option.bind_some, Option.map_eq_some_iff] at hfragment
  exact ⟨ufrag, h.decoded, h.type, hverified, hfragment, hopen⟩

theorem refuses_of_not_readAs (hwf : r.table.WellFormed) (hname : Stun.userName? octets = some value)
    (h : ∀ request ufrag, ¬ ReadAs r octets value request ufrag) (a : Endpoint) : Refuses r octets a := by
  have hunverified : ∀ request, Names r.table octets request → ¬ request.verifies (Utf8.encode r.password) := by
    intro request hnames hverified
    rcases readAs_of_names hname hnames hverified with ⟨ufrag, hread⟩
    exact h request ufrag hread
  rcases receive_of_missed hwf (receiveAudio_of_framed (Stun.framed_of_userName? hname) r.count a) hunverified with
    ⟨table, hqueued, ⟨request, -, hreceive⟩ | ⟨-, hreceive⟩⟩
  . exact ⟨_, table, hreceive, hqueued⟩
  . exact ⟨_, table, hreceive, hqueued⟩

theorem ReadAs.authenticates (hwf : r.table.WellFormed) (hname : Stun.userName? octets = some value)
    (h : ReadAs r octets value request ufrag)
    : ∃ s, FirstWith r.table ufrag s ∧ r.Authenticates octets request s.id := by
  rcases h.isOpen with ⟨s, hs, hufrag⟩
  rcases exists_firstWith hwf hs hufrag with ⟨first, hfirst, hfound⟩
  refine ⟨first, hfirst, h.decoded, decide_eq_true h.type, ?_, h.verified⟩
  rcases h.part with ⟨part, hpart, hread⟩
  rw [Stun.fragment?_of_decode h.decoded, hname, Option.bind_some, hpart, Option.map_some, hread]
  exact hfound

theorem started_of_acceptBinding (hget : r.table.get? s.id = some s) (request : Stun.Message) (a : Endpoint)
    : (r.acceptBinding s.id request a).1 = if s.line.start.1 then some s.id else none := by
  have hbound : (r.table.bind s.id a).get? s.id = some { s with remote := some a } := by
    rw [SessionTable.get?_bind hget, hget, Option.map_some, if_pos rfl]
  unfold acceptBinding startHandshake
  dsimp only
  rw [hbound]
  dsimp only
  generalize s.line.start = start
  rcases start with ⟨_ | _, line⟩
  . rfl
  . rfl

theorem binds_of_authenticates (hwf : r.table.WellFormed) (hs : s ∈ r.table.sessions)
    (h : r.Authenticates octets request s.id) (a : Endpoint) : Binds r octets a request s := by
  rcases receive_of_authenticates h a with ⟨metrics, heq⟩
  constructor
  . exact (boundTo_receive_iff hwf h).2 rfl
  . rcases acceptBinding_cases { r with metrics } s.id request.message a with ⟨table, metrics', -, haccept⟩
    rw [heq, haccept]
  . rw [heq]
    exact started_of_acceptBinding (r := { r with metrics }) (hwf.get?_of_mem hs) request.message a

/-- The octets that are no UTF-8 stand before the first colon or behind the second, or the fragment of the session has
a replacement in it. -/
theorem ReadAs.why (hinvalid : ¬ Utf8.Valid value) (h : ReadAs r octets value request ufrag)
    : Utf8.replacement ∈ ufrag.toList ∨
        ∃ front part rest,
          value = front ++ part ++ rest ∧ Stun.between? Utf8.colon value = some part ∧ Utf8.Valid part ∧
          (¬ Utf8.Valid front ∨ ¬ Utf8.Valid rest) := by
  rcases h.part with ⟨part, hpart, rfl⟩
  by_cases hvalid : Utf8.Valid part
  . right
    rcases Stun.exists_of_between? hpart with ⟨front, rest, hsplit⟩
    refine ⟨front, part, rest, hsplit, hpart, hvalid, ?_⟩
    by_contra hboth
    rw [not_or, not_not, not_not] at hboth
    rw [hsplit] at hinvalid
    exact hinvalid ((hboth.1.append hvalid).append hboth.2)
  . left
    exact Utf8.replacement_mem_decodeLossy hvalid

theorem receive_invalid_name (hr : r.Reachable) (h : InvalidName octets value) (a : Endpoint)
    : (∀ request ufrag,
        ReadAs r octets value request ufrag →
        (∃ s, FirstWith r.table ufrag s ∧ Binds r octets a request s) ∧
        (Utf8.replacement ∈ ufrag.toList ∨
          ∃ front part rest,
            value = front ++ part ++ rest ∧ Stun.between? Utf8.colon value = some part ∧ Utf8.Valid part ∧
            (¬ Utf8.Valid front ∨ ¬ Utf8.Valid rest))) ∧
      ((∀ request ufrag, ¬ ReadAs r octets value request ufrag) → Refuses r octets a) ∧
      ((∀ part, Stun.between? Utf8.colon value = some part → ¬ Utf8.Valid part) →
        (∀ s ∈ r.table.sessions, ∀ ufrag, s.ufrag? = some ufrag → Utf8.replacement ∉ ufrag.toList) →
        Refuses r octets a) := by
  have hwf := hr.wellFormed
  refine ⟨?_, ?_, ?_⟩
  . intro request ufrag hread
    refine ⟨?_, hread.why h.invalid⟩
    rcases hread.authenticates hwf h.name with ⟨s, hfirst, hauth⟩
    exact ⟨s, hfirst, binds_of_authenticates hwf hfirst.isOpen hauth a⟩
  . intro hnot
    exact refuses_of_not_readAs hwf h.name hnot a
  . intro hpart hfragments
    apply refuses_of_not_readAs hwf h.name
    intro request ufrag hread
    rcases hread.why h.invalid with hmem | ⟨-, part, -, -, hbetween, hvalid, -⟩
    . rcases hread.isOpen with ⟨s, hs, hufrag⟩
      exact hfragments s hs ufrag hufrag hmem
    . exact hpart part hbetween hvalid

section Sample

def sampleInvalid : Bytes :=
  let before := [0, 1, 0, 32] ++ Bytes.ofNat 4 Stun.cookie.toNat ++ List.replicate 12 0 ++
    [0, 6, 0, 3, 0xFF, 0x3A, 0x61, 0]
  before ++ [0, 8, 0, 20] ++ (Hmac.sha1 (Utf8.encode "secret") before).bytes

def sampleAlone : Relay :=
  (start ⟨["Ada"]⟩ "secret" {} 4).run [.openSession, .setIce ⟨0x10000001⟩ ⟨"a", "p"⟩]

theorem sessions_sampleAlone : sampleAlone.table.sessions = [sampleMember 0x10000001 "Ada" "a"] := by
  rfl

theorem invalidName_sampleInvalid : InvalidName sampleInvalid [0xFF, 0x3A, 0x61] := by
  constructor
  . decide +kernel
  . rw [Utf8.valid_iff]
    decide

theorem exists_readAs_sampleInvalid : ∃ request, ReadAs sampleAlone sampleInvalid [0xFF, 0x3A, 0x61] request "a" := by
  have hcheck : (match Stun.decode sampleInvalid with
      | .ok request => decide (request.message.type = .bindingRequest ∧ request.verifies (Utf8.encode "secret"))
      | .error _ => false) = true := by
    decide +kernel
  split at hcheck
  . next request hdecoded =>
    rw [decide_eq_true_iff] at hcheck
    refine ⟨request, hdecoded, hcheck.1, hcheck.2, ⟨[0x61], by decide, by decide⟩, ?_⟩
    refine ⟨sampleMember 0x10000001 "Ada" "a", ?_, rfl⟩
    rw [sessions_sampleAlone]
    exact List.mem_singleton_self _
  . simp at hcheck

theorem receive_invalid_name_sampleInvalid
    : ∃ request s,
        sampleAlone.Reachable ∧ InvalidName sampleInvalid [0xFF, 0x3A, 0x61] ∧
        ReadAs sampleAlone sampleInvalid [0xFF, 0x3A, 0x61] request "a" ∧
        FirstWith sampleAlone.table "a" s ∧ Binds sampleAlone sampleInvalid sampleEndpoint request s := by
  have hreachable : sampleAlone.Reachable := ⟨_, _, _, _, _, rfl⟩
  rcases exists_readAs_sampleInvalid with ⟨request, hread⟩
  rcases receive_invalid_name hreachable invalidName_sampleInvalid sampleEndpoint with ⟨hbinds, -, -⟩
  rcases (hbinds request "a" hread).1 with ⟨s, hfirst, hs⟩
  exact ⟨request, s, hreachable, invalidName_sampleInvalid, hread, hfirst, hs⟩

theorem not_refuses_sampleInvalid
    : let after := sampleAlone.receive sampleInvalid sampleEndpoint
      sampleAlone.Reachable ∧ InvalidName sampleInvalid [0xFF, 0x3A, 0x61] ∧
      ¬ Refuses sampleAlone sampleInvalid sampleEndpoint ∧
      sampleAlone.table.remote? ⟨0x10000001⟩ = none ∧ BoundTo after.2.table ⟨0x10000001⟩ sampleEndpoint ∧
      sampleAlone.outbox.waiting = [] ∧ (∃ reply, after.2.outbox.waiting = [⟨sampleEndpoint, reply⟩]) ∧
      after.1 = some ⟨0x10000001⟩ := by
  intro after
  have hreachable : sampleAlone.Reachable := ⟨_, _, _, _, _, rfl⟩
  rcases exists_readAs_sampleInvalid with ⟨request, hread⟩
  rcases hread.authenticates hreachable.wellFormed invalidName_sampleInvalid.name with ⟨s, hfirst, hauth⟩
  have hs := hfirst.isOpen
  have hbinds := binds_of_authenticates hreachable.wellFormed hs hauth sampleEndpoint
  rw [sessions_sampleAlone, List.mem_singleton] at hs
  have hstarted := hbinds.started
  have hanswered := hbinds.answered
  have hbound := hbinds.bound
  rw [hs] at hstarted hbound
  let reply := (request.message.bindingReply sampleEndpoint).encode (some (Utf8.encode "secret"))
  refine ⟨hreachable, invalidName_sampleInvalid, ?_, rfl, hbound, rfl, ⟨reply, ?_⟩, hstarted⟩
  . intro hrefuses
    rcases hrefuses with ⟨metrics, table, heq, -⟩
    rw [heq] at hstarted
    simp [sampleMember, Handshake.Line.start] at hstarted
  . change (sampleAlone.receive sampleInvalid sampleEndpoint).2.outbox.waiting = _
    rw [hanswered]
    rfl

end Sample

end Intercom.Relay
