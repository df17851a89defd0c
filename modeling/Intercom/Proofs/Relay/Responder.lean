import Mathlib
import Intercom.Proofs.Relay.Answers
import Intercom.Proofs.Relay.InvalidName

/-!
This module contains the main statement about the two services that answer binding requests, the relay and the
responder: no datagram is answered by both, and what one of them answers is answered by neither.
-/

namespace Intercom.Relay

variable {r : Relay} {octets reply : Bytes} {a b : Endpoint} {request : Stun.Received} {id : SessionId} {x : Outgoing}

/-- What the relay hands to its outbox when it tries a datagram as a STUN message. -/
def answers (r : Relay) (octets : Bytes) (a : Endpoint) : List Outgoing :=
  match r.receiveStun octets a with
  | some (_, answered) => answered.outbox.waiting.drop r.outbox.waiting.length
  | none => []

inductive Reply : Bytes → Prop where
  | responder (octets : Bytes) (a : Endpoint) {reply : Bytes} (h : Stun.respond? octets a = some reply) : Reply reply
  | relay (r : Relay) (octets : Bytes) (a : Endpoint) {x : Outgoing} (h : x ∈ r.answers octets a) : Reply x.datagram

theorem answers_of_authenticates (h : r.Authenticates octets request id) (a : Endpoint)
    : r.answers octets a = [⟨a, r.replyTo request a⟩].take r.outbox.room := by
  unfold answers
  rcases receiveStun_cases r octets a with ⟨other, j, hrequests, hverified⟩ | ⟨hnot, -⟩
  . have hsame : request = other := by
      have hdecoded := hrequests.decoded
      rw [h.decoded, Except.ok.injEq] at hdecoded
      exact hdecoded
    rw [← hsame] at hverified
    rcases hverified with ⟨-, hstun⟩ | ⟨hverified, -⟩
    . rw [hstun]
      rcases acceptBinding_cases r j request.message a with ⟨table, metrics, -, haccept⟩
      dsimp only
      rw [haccept, Outbox.offer_eq, List.drop_left]
      rfl
    . exact absurd h.verified hverified
  . exact absurd ⟨h.decoded, h.isRequest, h.named⟩ (hnot request id)

theorem answers_of_not_authenticates (h : ∀ request id, ¬ r.Authenticates octets request id) (a : Endpoint)
    : r.answers octets a = [] := by
  unfold answers
  rcases receiveStun_cases r octets a with
    ⟨request, id, hrequests, ⟨hverified, -⟩ | ⟨-, hstun⟩⟩ | ⟨-, ⟨-, hstun⟩ | ⟨-, hstun⟩⟩
  . exact absurd ⟨hrequests.decoded, hrequests.isRequest, hrequests.named, hverified⟩ (h request id)
  . rw [hstun]
    exact List.drop_length
  . rw [hstun]
  . rw [hstun]
    exact List.drop_length

theorem isReplyTo_of_mem_answers (h : x ∈ r.answers octets a) : Stun.IsReplyTo octets x.datagram := by
  by_cases hauth : ∃ request id, r.Authenticates octets request id
  . rcases hauth with ⟨request, id, hauth⟩
    rw [answers_of_authenticates hauth] at h
    rw [List.mem_singleton.1 (List.mem_of_mem_take h)]
    exact Stun.isReplyTo_bindingReply hauth.decoded a _
  . push Not at hauth
    rw [answers_of_not_authenticates hauth] at h
    simp at h

theorem Reply.isReplyTo (h : Reply reply) : ∃ octets, Stun.IsReplyTo octets reply := by
  cases h with
  | responder octets a h => exact ⟨octets, Stun.isReplyTo_of_respond? h⟩
  | relay r octets a h => exact ⟨octets, isReplyTo_of_mem_answers h⟩

theorem not_authenticates_of_untagged (h : Stun.PlainRequest octets request) (other : Stun.Received) (id : SessionId)
    : ¬ r.Authenticates octets other id := by
  intro hauth
  have hdecoded := hauth.decoded
  rw [h.decoded, Except.ok.injEq] at hdecoded
  have hverified := hauth.verified
  rw [← hdecoded] at hverified
  unfold Stun.Received.verifies at hverified
  rw [h.untagged] at hverified
  simp at hverified

theorem receive_of_not_authenticates (hdecoded : Stun.decode octets = .ok request)
    (h : ∀ other id, ¬ r.Authenticates octets other id) (a : Endpoint)
    : ∃ metrics, r.receive octets a = (none, { r with metrics }) := by
  rcases Stun.grammar_of_decode hdecoded with ⟨as, hgrammar⟩
  have hmissed := receiveAudio_of_framed hgrammar.framed r.count a
  rcases receiveStun_cases r.count octets a with
    ⟨other, id, hrequests, ⟨hverified, -⟩ | ⟨-, hstun⟩⟩ | ⟨-, ⟨⟨e, he⟩, -⟩ | ⟨-, hstun⟩⟩
  . exact absurd ⟨hrequests.decoded, hrequests.isRequest, hrequests.named, hverified⟩ (h other id)
  . exact ⟨_, receive_of_stun hmissed hstun⟩
  . rw [hdecoded] at he
    simp at he
  . exact ⟨_, receive_of_stun hmissed hstun⟩

theorem receiveStun_of_isReplyTo (h : Stun.IsReplyTo octets reply) (r : Relay) (a : Endpoint)
    : r.receiveStun reply a = some (none, r) := by
  rcases h with ⟨-, answer, -, hdecoded, htype, -⟩
  unfold receiveStun
  rw [hdecoded]
  dsimp only
  rw [if_pos]
  unfold Stun.Message.isBindingRequest
  rw [htype]
  decide

theorem receive_of_isReplyTo (h : Stun.IsReplyTo octets reply) (r : Relay) (a : Endpoint)
    : r.receive reply a = (none, r.count) := by
  have hstun := receiveStun_of_isReplyTo h r.count a
  rcases h with ⟨-, answer, -, hdecoded, -⟩
  rcases Stun.grammar_of_decode hdecoded with ⟨as, hgrammar⟩
  exact receive_of_stun (receiveAudio_of_framed hgrammar.framed r.count a) hstun

theorem answers_of_isReplyTo (h : Stun.IsReplyTo octets reply) (r : Relay) (a : Endpoint) : r.answers reply a = [] := by
  unfold answers
  rw [receiveStun_of_isReplyTo h]
  exact List.drop_length

/-- What the responder answers, the relay only counts; what the relay answers, the responder does not; and an answer of
either is passed over by both. -/
theorem services_apart
    : (∀ octets b reply, Stun.respond? octets b = some reply → ∀ (r : Relay) a,
        r.answers octets a = [] ∧ ∃ metrics, r.receive octets a = (none, { r with metrics })) ∧
      (∀ (r : Relay) octets a, r.answers octets a ≠ [] → ∀ b, Stun.respond? octets b = none) ∧
      ∀ reply, Reply reply → ∀ (r : Relay) a,
        Stun.respond? reply a = none ∧ r.answers reply a = [] ∧ r.receive reply a = (none, r.count) := by
  have hplain : ∀ octets b reply, Stun.respond? octets b = some reply → ∀ (r : Relay) a,
      r.answers octets a = [] ∧ ∃ metrics, r.receive octets a = (none, { r with metrics }) := by
    intro octets b reply hreply r a
    rcases Stun.respond?_eq_some_iff.1 hreply with ⟨request, hrequest, -⟩
    have hnot := not_authenticates_of_untagged (r := r) hrequest
    exact ⟨answers_of_not_authenticates hnot a, receive_of_not_authenticates hrequest.decoded hnot a⟩
  refine ⟨hplain, ?_, ?_⟩
  . intro r octets a hanswers b
    rw [Option.eq_none_iff_forall_ne_some]
    intro reply hreply
    exact hanswers (hplain octets b reply hreply r a).1
  . intro reply hreply r a
    rcases hreply.isReplyTo with ⟨octets, hreply⟩
    exact ⟨hreply.respond?_eq_none a, answers_of_isReplyTo hreply r a, receive_of_isReplyTo hreply r a⟩

section Sample

def samplePlain : Bytes :=
  let request : Stun.Message := {
    type := .bindingRequest
    transaction := ⟨List.replicate 12 7, rfl⟩
    fingerprint := true }
  request.encode none

theorem services_apart_samplePlain
    : ∃ x answer,
        sampleAlone.answers (sampleRequest "a") sampleEndpoint = [x] ∧
        Stun.respond? (sampleRequest "a") sampleOther = none ∧
        Stun.respond? samplePlain sampleEndpoint = some answer ∧
        sampleAlone.answers samplePlain sampleEndpoint = [] ∧
        Stun.respond? x.datagram sampleOther = none ∧
        sampleAlone.receive x.datagram sampleOther = (none, sampleAlone.count) ∧
        Stun.respond? answer sampleOther = none ∧
        sampleAlone.receive answer sampleOther = (none, sampleAlone.count) := by
  rcases services_apart with ⟨hplain, htagged, hreply⟩
  have hanswers : (sampleAlone.answers (sampleRequest "a") sampleEndpoint).length = 1 := by
    decide +kernel
  rw [List.length_eq_one_iff] at hanswers
  rcases hanswers with ⟨x, hx⟩
  have hsome : (Stun.respond? samplePlain sampleEndpoint).isSome := by
    decide +kernel
  rw [Option.isSome_iff_exists] at hsome
  rcases hsome with ⟨answer, hanswer⟩
  have hrelay := hreply _ (.relay sampleAlone (sampleRequest "a") sampleEndpoint (hx ▸ List.mem_singleton_self x))
    sampleAlone sampleOther
  have hresponder := hreply _ (.responder samplePlain sampleEndpoint hanswer) sampleAlone sampleOther
  have hnone := htagged sampleAlone (sampleRequest "a") sampleEndpoint (by simp [hx]) sampleOther
  have hempty := (hplain samplePlain sampleEndpoint answer hanswer sampleAlone sampleEndpoint).1
  exact ⟨x, answer, hx, hnone, hanswer, hempty, hrelay.1, hrelay.2.2, hresponder.1, hresponder.2.2⟩

end Sample

end Intercom.Relay
