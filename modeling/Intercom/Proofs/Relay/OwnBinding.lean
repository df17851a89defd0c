import Mathlib
import Intercom.Proofs.Relay.Authentication
import Intercom.Proofs.Relay.SharedPort

/-!
This module contains which session is bound by a request under the user name fragment of an offer. It is the first
one with that fragment, so not always the one for which the offer came.
-/

namespace Intercom

namespace Stun.Message

variable {m : Message} {front ufrag : String}

theorem fragment?_of_username (hname : m.username = some (front ++ ":" ++ ufrag)) (hfront : ':' ∉ front.toList)
    : m.fragment? = some (String.ofList (ufrag.toList.takeWhile (· ≠ ':'))) := by
  have hsplit : (front ++ ":" ++ ufrag).toList.dropWhile (· ≠ ':') = ':' :: ufrag.toList := by
    rw [String.toList_append, String.toList_append, List.append_assoc, List.dropWhile_append_of_pos]
    . simp
    . intro c hc
      rw [decide_eq_true_iff]
      intro heq
      rw [heq] at hc
      exact hfront hc
  unfold fragment?
  rw [hname]
  simp only [Option.bind_eq_bind, Option.bind_some, hsplit]

theorem fragment?_eq_some_iff (hname : m.username = some (front ++ ":" ++ ufrag)) (hfront : ':' ∉ front.toList)
    : m.fragment? = some ufrag ↔ ':' ∉ ufrag.toList := by
  rw [fragment?_of_username hname hfront, Option.some.injEq]
  constructor
  . intro hcut hcolon
    have hself := congrArg String.toList hcut
    rw [String.toList_ofList, List.takeWhile_eq_self_iff] at hself
    have hne := hself ':' hcolon
    simp at hne
  . intro hufrag
    rw [List.takeWhile_eq_self_iff.2, String.ofList_toList]
    intro c hc
    rw [decide_eq_true_iff]
    intro heq
    rw [heq] at hc
    exact hufrag hc

end Stun.Message

namespace Relay

variable {r : Relay} {octets : Bytes} {request other : Stun.Received} {a : Endpoint} {id j : SessionId}
variable {s : Session} {ufrag : String}

/-- A binding request under the user name that a browser has with its session: something without a colon, a colon, and
the fragment from the offer. -/
structure OwnRequest (r : Relay) (s : Session) (ufrag : String) (octets : Bytes) (request : Stun.Received) : Prop where
  isOpen : s ∈ r.table.sessions
  offered : ∃ offer ice, Sdp.iceParameters? offer = some ice ∧ s.ice = some ice ∧ ice.ufrag = ufrag
  decoded : Stun.decode octets = .ok request
  type : request.message.type = .bindingRequest
  named : ∃ front : String, ':' ∉ front.toList ∧ request.message.username = some (front ++ ":" ++ ufrag)
  verified : request.verifies (Utf8.encode r.password)

structure BoundTo (t : SessionTable) (id : SessionId) (a : Endpoint) : Prop where
  remote : t.remote? id = some a
  indexed : t.byEndpoint? a = some id

section Receive

theorem Authenticates.unique (h : r.Authenticates octets request id) (h' : r.Authenticates octets other j)
    : other = request ∧ j = id := by
  have hdecoded := h.decoded
  rw [h'.decoded, Except.ok.injEq] at hdecoded
  have hnamed := h.named
  rw [← hdecoded, h'.named, Option.some.injEq] at hnamed
  exact ⟨hdecoded, hnamed⟩

theorem not_audio_of_decode (h : Stun.decode octets = .ok request) : Rtp.decode? octets = none := by
  by_contra haudio
  have hstun : Protocol.stun.Claims octets := by
    unfold Protocol.Claims
    dsimp only
    rw [h]
    simp
  have htop := (top_of_claims (p := .audio) haudio).symm.trans (top_of_claims hstun)
  simp at htop

theorem receive_of_authenticates (h : r.Authenticates octets request id) (a : Endpoint)
    : ∃ metrics, r.receive octets a = { r with metrics }.acceptBinding id request.message a := by
  rcases receive_cases r octets a with ⟨source, p, -, hp, -⟩ | ⟨-, metrics, ⟨other, j, hother, heq⟩ | ⟨hnone, -⟩⟩
  . rw [Srtp.Context.unprotect_of_decode?_eq_none _ (not_audio_of_decode h.decoded)] at hp
    simp at hp
  . rcases h.unique hother with ⟨rfl, rfl⟩
    exact ⟨metrics, heq⟩
  . exact absurd h (hnone request id)

theorem remote?_receive (hwf : r.table.WellFormed) (h : r.Authenticates octets request id)
    : (r.receive octets a).2.table.remote? j =
        if j = id then some a else if r.table.remote? j = some a then none else r.table.remote? j := by
  rcases receive_of_authenticates h a with ⟨metrics, heq⟩
  rcases h.get?_ne_none with ⟨s, hopen⟩
  rw [heq]
  exact (acceptBinding_table (r := { r with metrics }) hwf hopen request.message a).2 j

theorem boundTo_iff {t : SessionTable} (hwf : t.WellFormed) : BoundTo t id a ↔ t.remote? id = some a := by
  constructor
  . intro h
    exact h.remote
  . intro h
    exact ⟨h, (hwf.indexed a id).2 h⟩

theorem boundTo_receive_iff (hwf : r.table.WellFormed) (h : r.Authenticates octets request id)
    : BoundTo (r.receive octets a).2.table j a ↔ j = id := by
  have hafter : (r.receive octets a).2.table.WellFormed := (regular hwf (.datagram octets a)).wellFormed
  rw [boundTo_iff hafter, remote?_receive hwf h]
  by_cases hj : j = id
  . simp [hj]
  . simp only [hj, if_false, iff_false]
    split
    . simp
    . next hne => exact hne

end Receive

section Own

theorem OwnRequest.ufrag?_eq (h : OwnRequest r s ufrag octets request) : s.ufrag? = some ufrag := by
  rcases h.offered with ⟨offer, ice, -, hice, hufrag⟩
  unfold Session.ufrag?
  rw [hice, ← hufrag]
  rfl

theorem OwnRequest.authenticates (h : OwnRequest r s ufrag octets request) (hcolon : ':' ∉ ufrag.toList)
    (hfirst : r.table.byUfrag? ufrag = some id) : r.Authenticates octets request id := by
  rcases h.named with ⟨front, hfront, hname⟩
  constructor
  . exact h.decoded
  . unfold Stun.Message.isBindingRequest
    rw [decide_eq_true_iff]
    exact h.type
  . rw [(Stun.Message.fragment?_eq_some_iff hname hfront).2 hcolon]
    exact hfirst
  . exact h.verified

theorem OwnRequest.first_of_newly_bound (hwf : r.table.WellFormed) (h : OwnRequest r s ufrag octets request)
    (hold : r.table.remote? s.id ≠ some a) (hnew : (r.receive octets a).2.table.remote? s.id = some a)
    : ':' ∉ ufrag.toList ∧ ∀ other ∈ r.table.sessions, other.ufrag? = some ufrag → s.id.value ≤ other.id.value := by
  rcases h.named with ⟨front, hfront, hname⟩
  rcases admits_of_newly_bound hwf (e := .datagram octets a) hold hnew with
    ⟨octets', request', ufrag', hevent, hadmits⟩
  rw [Event.datagram.injEq] at hevent
  have hdecoded := hadmits.decoded
  rw [← hevent.1, h.decoded, Except.ok.injEq] at hdecoded
  rcases hadmits.named with ⟨session, hget, hhas⟩
  rw [hwf.get?_of_mem h.isOpen, Option.some.injEq] at hget
  rw [← hget, h.ufrag?_eq, Option.some.injEq] at hhas
  have hfragment := hadmits.fragment
  rw [← hdecoded, ← hhas, Stun.Message.fragment?_eq_some_iff hname hfront] at hfragment
  refine ⟨hfragment, ?_⟩
  rw [hhas]
  exact hadmits.first

structure FirstWith (t : SessionTable) (ufrag : String) (s : Session) : Prop where
  isOpen : s ∈ t.sessions
  has : s.ufrag? = some ufrag
  least : ∀ other ∈ t.sessions, other.ufrag? = some ufrag → s.id.value ≤ other.id.value

theorem FirstWith.id_eq {t : SessionTable} {u : Session} (h : FirstWith t ufrag s) (h' : FirstWith t ufrag u)
    : s.id = u.id := by
  have hle := h.least u h'.isOpen h'.has
  have hge := h'.least s h.isOpen h.has
  exact congrArg SessionId.mk (UInt32.le_antisymm hle hge)

theorem exists_firstWith {t : SessionTable} (hwf : t.WellFormed) (hs : s ∈ t.sessions) (hufrag : s.ufrag? = some ufrag)
    : ∃ first, FirstWith t ufrag first ∧ t.byUfrag? ufrag = some first.id := by
  cases hfound : t.byUfrag? ufrag with
  | none => exact absurd hufrag (SessionTable.byUfrag?_eq_none_iff.1 hfound s hs)
  | some id =>
    rcases hwf.byUfrag?_eq_some hfound with ⟨first, hget, hhas, hleast⟩
    have hid := SessionTable.id_of_get? hget
    refine ⟨first, ⟨SessionTable.mem_of_get? hget, hhas, ?_⟩, ?_⟩
    . rw [hid]
      exact hleast
    . rw [hid]

theorem boundTo_own_iff (hr : r.Reachable) (h : OwnRequest r s ufrag octets request) (hcolon : ':' ∉ ufrag.toList)
    : (∃ first, FirstWith r.table ufrag first ∧ BoundTo (r.receive octets a).2.table first.id a) ∧
      (BoundTo (r.receive octets a).2.table s.id a ↔
        ∀ other ∈ r.table.sessions, other.ufrag? = some ufrag → s.id.value ≤ other.id.value) := by
  have hwf := hr.wellFormed
  rcases exists_firstWith hwf h.isOpen h.ufrag?_eq with ⟨first, hfirst, hfound⟩
  have hbound := fun j => boundTo_receive_iff (a := a) (j := j) hwf (h.authenticates hcolon hfound)
  constructor
  . exact ⟨first, hfirst, (hbound first.id).2 rfl⟩
  . rw [hbound]
    constructor
    . intro hid
      rw [hid]
      exact hfirst.least
    . intro hleast
      exact FirstWith.id_eq ⟨h.isOpen, h.ufrag?_eq, hleast⟩ hfirst

end Own

section Sample

def sampleOffer (ufrag : String) : String :=
  "v=0\r\na=ice-ufrag:" ++ ufrag ++ "\r\na=ice-pwd:p\r\n"

theorem exists_sampleRequest_eq (ufrag : String)
    : ∃ m : Stun.Message,
        sampleRequest ufrag = m.encode (some (Utf8.encode "secret")) ∧ m.type = .bindingRequest ∧
        m.username = some ("relay" ++ ":" ++ ufrag) := by
  unfold sampleRequest
  exact ⟨_, rfl, rfl, rfl⟩

/-- Three sessions with the parameters of their offers: the second has the fragment of the first, the third has one
with a colon. -/
def sampleCrowd : Relay :=
  (start ⟨["Ada", "Ben", "Cleo"]⟩ "secret" {} 4).run [
    .openSession,
    .openSession,
    .openSession,
    .setIce ⟨0x10000001⟩ ⟨"a", "p"⟩,
    .setIce ⟨0x10000002⟩ ⟨"a", "p"⟩,
    .setIce ⟨0x10000003⟩ ⟨"b:c", "p"⟩]

def sampleMember (id : UInt32) (name ufrag : String) : Session where
  id := ⟨id⟩
  name
  ice := some ⟨ufrag, "p"⟩
  line := { settings := {} }

theorem sessions_sampleCrowd
    : sampleCrowd.table.sessions =
        [sampleMember 0x10000001 "Ada" "a", sampleMember 0x10000002 "Ben" "a", sampleMember 0x10000003 "Cleo" "b:c"] := by
  rfl

theorem ownRequest_sampleCrowd {id : UInt32} {name : String} (hs : sampleMember id name ufrag ∈ sampleCrowd.table.sessions)
    (hoffer : Sdp.iceParameters? (sampleOffer ufrag) = some ⟨ufrag, "p"⟩)
    (hlength : (sampleRequest ufrag).length ≤ Stun.headerLength + 65535)
    : ∃ request, OwnRequest sampleCrowd (sampleMember id name ufrag) ufrag (sampleRequest ufrag) request := by
  rcases exists_sampleRequest_eq ufrag with ⟨m, hwritten, htype, hname⟩
  refine ⟨m.readBack (some (Utf8.encode "secret")), hs, ?_, ?_, htype, ?_, ?_⟩
  . exact ⟨sampleOffer ufrag, ⟨ufrag, "p"⟩, hoffer, rfl, rfl⟩
  . rw [hwritten] at hlength ⊢
    apply Stun.Message.decode_encode_eq_readBack _ hlength
    rw [htype]
    decide
  . exact ⟨"relay", by decide, hname⟩
  . apply Stun.Message.verifies_readBack

theorem wellFormed_sampleCrowd : sampleCrowd.table.WellFormed :=
  (run_wellFormed (start_wellFormed _ _ _ _) _).1

theorem boundTo_own_iff_sampleCrowd
    : ∃ request,
        sampleCrowd.Reachable ∧
        OwnRequest sampleCrowd (sampleMember 0x10000001 "Ada" "a") "a" (sampleRequest "a") request ∧
        ':' ∉ "a".toList ∧
        BoundTo (sampleCrowd.receive (sampleRequest "a") sampleEndpoint).2.table ⟨0x10000001⟩ sampleEndpoint := by
  have hreachable : sampleCrowd.Reachable := ⟨_, _, _, _, _, rfl⟩
  have hcolon : ':' ∉ "a".toList := by decide
  have hs : sampleMember 0x10000001 "Ada" "a" ∈ sampleCrowd.table.sessions := by
    simp [sessions_sampleCrowd]
  rcases ownRequest_sampleCrowd hs (by decide +kernel) (by decide +kernel) with ⟨request, hown⟩
  refine ⟨request, hreachable, hown, hcolon, (boundTo_own_iff hreachable hown hcolon).2.2 ?_⟩
  intro other hother _
  rw [sessions_sampleCrowd] at hother
  simp only [List.mem_cons, List.not_mem_nil, or_false] at hother
  rcases hother with rfl | rfl | rfl
  . decide
  . decide
  . decide

/-- The second session has the fragment of the first, the fragment of the third has a colon: neither is bound by the
request of its own browser. -/
theorem not_boundTo_own_sampleCrowd
    : sampleCrowd.Reachable ∧
      (∃ request, OwnRequest sampleCrowd (sampleMember 0x10000002 "Ben" "a") "a" (sampleRequest "a") request) ∧
      ¬ BoundTo (sampleCrowd.receive (sampleRequest "a") sampleEndpoint).2.table ⟨0x10000002⟩ sampleEndpoint ∧
      (∃ request,
        OwnRequest sampleCrowd (sampleMember 0x10000003 "Cleo" "b:c") "b:c" (sampleRequest "b:c") request) ∧
      ¬ BoundTo (sampleCrowd.receive (sampleRequest "b:c") sampleEndpoint).2.table ⟨0x10000003⟩ sampleEndpoint := by
  have hada : sampleMember 0x10000001 "Ada" "a" ∈ sampleCrowd.table.sessions := by
    simp [sessions_sampleCrowd]
  have hben : sampleMember 0x10000002 "Ben" "a" ∈ sampleCrowd.table.sessions := by
    simp [sessions_sampleCrowd]
  have hcleo : sampleMember 0x10000003 "Cleo" "b:c" ∈ sampleCrowd.table.sessions := by
    simp [sessions_sampleCrowd]
  rcases ownRequest_sampleCrowd hben (by decide +kernel) (by decide +kernel) with ⟨request, hown⟩
  rcases ownRequest_sampleCrowd hcleo (by decide +kernel) (by decide +kernel) with ⟨requestCut, hcut⟩
  refine ⟨⟨_, _, _, _, _, rfl⟩, ⟨request, hown⟩, ?_, ⟨requestCut, hcut⟩, ?_⟩
  . intro hbound
    have hfirst := hown.first_of_newly_bound wellFormed_sampleCrowd (by decide) hbound.remote
    exact absurd (hfirst.2 _ hada rfl) (by decide)
  . intro hbound
    have hfirst := hcut.first_of_newly_bound wellFormed_sampleCrowd (by decide) hbound.remote
    exact absurd hfirst.1 (by decide)

end Sample

end Relay

end Intercom
