import Mathlib
import Intercom.Proofs.Relay.Counters
import Intercom.Proofs.Stun.Reply

/-!
This module contains the main statement about the number of bindings: it counts the accepted requests, and those are
the answered ones only as long as the outbox has room for every answer.
-/

namespace Intercom.Relay

open Trace (indicator indicator_of indicator_of_not)

variable {r : Relay} {e : Event} {octets : Bytes} {a : Endpoint} {request : Stun.Received} {id : SessionId}

/-- A datagram whose sender is given an answer, which the outbox takes. -/
def Answered (r : Relay) : Event → Prop
  | .datagram octets a => ∃ reply, r.sent (.datagram octets a) = [⟨a, reply⟩] ∧ Stun.IsReplyTo octets reply
  | _ => False

def Unanswered (r : Relay) (e : Event) : Prop :=
  r.Binding e ∧ r.outbox.room = 0

section Datagrams

def replyTo (r : Relay) (request : Stun.Received) (a : Endpoint) : Bytes :=
  (request.message.bindingReply a).encode (some (Utf8.encode r.password))

theorem outbox_of_authenticates (h : r.Authenticates octets request id) (a : Endpoint)
    : (r.receive octets a).2.outbox = (r.outbox.offer ⟨a, r.replyTo request a⟩).2 := by
  rcases receive_of_authenticates h a with ⟨metrics, heq⟩
  rcases acceptBinding_cases { r with metrics } id request.message a with ⟨table, metrics', -, haccept⟩
  rw [heq, haccept]
  rfl

theorem sent_of_authenticates (h : r.Authenticates octets request id) (a : Endpoint)
    : r.sent (.datagram octets a) = [⟨a, r.replyTo request a⟩].take r.outbox.room := by
  apply sent_eq_of_append
  unfold step
  dsimp only
  rw [outbox_of_authenticates h, Outbox.offer_eq]

theorem sent_of_not_authenticates (hdecoded : Stun.decode octets = .ok request)
    (h : ∀ other id, ¬ r.Authenticates octets other id) (a : Endpoint) : r.sent (.datagram octets a) = [] := by
  apply sent_eq_of_append
  rw [List.append_nil]
  unfold step
  dsimp only
  rcases receive_cases r octets a with
    ⟨source, p, -, hp, -⟩ | ⟨-, metrics, ⟨other, id, hother, -⟩ | ⟨-, ⟨-, hrecord⟩ | hdropped⟩⟩
  . rw [Srtp.Context.unprotect_of_decode?_eq_none _ (not_audio_of_decode hdecoded)] at hp
    simp at hp
  . exact absurd hother (h other id)
  . rw [hrecord]
    rcases receiveRecord_cases { r with metrics } octets a with ⟨session, -, heq⟩ | ⟨-, heq⟩
    . rw [heq]
    . rw [heq]
  . rw [hdropped]

theorem binding_iff : r.Binding (.datagram octets a) ↔ ∃ request id, r.Authenticates octets request id := by
  unfold Binding
  dsimp only
  constructor
  . intro h
    rcases h with ⟨request, hnames, hverified⟩
    rcases names_iff.1 hnames with ⟨id, hrequests⟩
    exact ⟨request, id, hrequests.decoded, hrequests.isRequest, hrequests.named, hverified⟩
  . intro h
    rcases h with ⟨request, id, h⟩
    exact ⟨request, names_iff.2 ⟨id, h.decoded, h.isRequest, h.named⟩, h.verified⟩

theorem answered_datagram_iff
    : r.Answered (.datagram octets a) ↔ r.Binding (.datagram octets a) ∧ 0 < r.outbox.room := by
  unfold Answered
  dsimp only
  rw [binding_iff]
  constructor
  . intro h
    rcases h with ⟨reply, hsent, request, answer, hdecoded, -⟩
    by_cases hauth : ∃ request id, r.Authenticates octets request id
    . refine ⟨hauth, ?_⟩
      rcases hauth with ⟨request, id, hauth⟩
      rw [sent_of_authenticates hauth] at hsent
      rw [Nat.pos_iff_ne_zero]
      intro hroom
      rw [hroom] at hsent
      simp at hsent
    . push Not at hauth
      rw [sent_of_not_authenticates hdecoded hauth] at hsent
      simp at hsent
  . intro h
    rcases h with ⟨⟨request, id, hauth⟩, hroom⟩
    refine ⟨r.replyTo request a, ?_, Stun.isReplyTo_bindingReply hauth.decoded a _⟩
    rw [sent_of_authenticates hauth]
    apply List.take_of_length_le
    exact hroom

end Datagrams

theorem answered_iff : r.Answered e ↔ r.Binding e ∧ 0 < r.outbox.room := by
  cases e with
  | datagram octets a => exact answered_datagram_iff
  | openSession | closeSession | setIce | command | deliver | handshake | send | closeOutbox =>
    simp [Answered]

theorem indicator_binding (r : Relay) (e : Event)
    : indicator (r.Binding e) = indicator (r.Answered e) + indicator (r.Unanswered e) := by
  unfold Unanswered
  rw [answered_iff]
  by_cases hbinding : r.Binding e
  . rcases Nat.eq_zero_or_pos r.outbox.room with hroom | hroom
    . rw [indicator_of hbinding, indicator_of_not, indicator_of ⟨hbinding, hroom⟩]
      omega
    . rw [indicator_of hbinding, indicator_of ⟨hbinding, hroom⟩, indicator_of_not]
      omega
  . rw [indicator_of_not hbinding, indicator_of_not (fun h => hbinding h.1), indicator_of_not (fun h => hbinding h.1)]

section Runs

variable {first : Relay} {events : List Event} {k : Nat}

theorem run_bindings (h : first.table.WellFormed) (hzero : first.metrics.bindings = 0) (events : List Event) (k : Nat)
    : (first.run (events.take k)).metrics.bindings =
        Trace.count Answered step first events k + Trace.count Unanswered step first events k := by
  have hcount : (first.run (events.take k)).metrics.bindings = Trace.count Binding step first events k :=
    run_count (fun r => r.metrics.bindings) h hzero (fun _ _ hr => by rw [metrics_step hr]) events k
  rw [hcount, ← Trace.total_indicator, ← Trace.total_indicator, ← Trace.total_indicator, ← Trace.total_add]
  congr 1
  funext r e
  exact indicator_binding r e

/-- The number of bindings is that of the answers if and only if no accepted request has met a full or closed outbox. -/
theorem bindings_eq_answered_iff (names : NamePool) (password : String) (settings : Handshake.Settings) (capacity : Nat)
    (events : List Event) (k : Nat)
    : let first := start names password settings capacity
      let r := first.run (events.take k)
      let count := fun P => Trace.count P step first events k
      r.metrics.bindings = count Answered + count Unanswered ∧
      (r.metrics.bindings = count Answered ↔
        ∀ i < k, ∀ e, events[i]? = some e → (first.run (events.take i)).Binding e →
          0 < (first.run (events.take i)).outbox.room) := by
  intro first r count
  have hbindings : r.metrics.bindings = count Answered + count Unanswered :=
    run_bindings (start_wellFormed names password settings capacity) rfl events k
  refine ⟨hbindings, ?_⟩
  rw [hbindings, Nat.add_eq_left, Trace.count_eq_zero_iff]
  constructor
  . intro h i hi e he hbinding
    rw [Nat.pos_iff_ne_zero]
    intro hroom
    exact h i hi e he ⟨hbinding, hroom⟩
  . intro h i hi e he hunanswered
    have hpos := h i hi e he hunanswered.1
    rw [Nat.pos_iff_ne_zero] at hpos
    exact hpos hunanswered.2

theorem binding_of_counted (h : r.table.WellFormed) (hcounted : (r.step e).metrics.bindings ≠ r.metrics.bindings)
    : r.Binding e := by
  by_contra hnot
  apply hcounted
  rw [metrics_step h]
  dsimp only
  rw [indicator_of_not hnot, Nat.add_zero]

end Runs

section Sample

def sampleRepeated : List Event :=
  [.openSession, .setIce ⟨0x10000001⟩ ⟨"a", "p"⟩, .datagram (sampleRequest "a") sampleEndpoint,
    .datagram (sampleRequest "a") sampleEndpoint]

theorem not_bindings_eq_answered_sampleRepeated
    : let first := start ⟨["Ada"]⟩ "secret" {} 1
      (first.run sampleRepeated).metrics.bindings = 2 ∧ Trace.count Answered step first sampleRepeated 4 = 1 ∧
      (first.run sampleRepeated).outbox.waiting.length = 1 := by
  intro first
  have hvalues : (first.run (sampleRepeated.take 2)).metrics.bindings = 0 ∧
      (first.run (sampleRepeated.take 2)).outbox.room = 1 ∧ (first.run (sampleRepeated.take 3)).metrics.bindings = 1 ∧
      (first.run (sampleRepeated.take 3)).outbox.room = 0 ∧ (first.run sampleRepeated).metrics.bindings = 2 ∧
      (first.run sampleRepeated).outbox.waiting.length = 1 := by
    decide +kernel
  rcases hvalues with ⟨hzero, hroom, hone, hfull, htwo, hlength⟩
  have hstart : first.table.WellFormed := start_wellFormed _ _ _ _
  have hwf : ∀ i, (first.run (sampleRepeated.take i)).table.WellFormed := fun i => (run_wellFormed hstart _).1
  have hsecond : (first.run (sampleRepeated.take 2)).Binding (.datagram (sampleRequest "a") sampleEndpoint) := by
    apply binding_of_counted (hwf 2)
    rw [hzero, ← run_take_succ rfl, hone]
    decide
  have hthird : (first.run (sampleRepeated.take 3)).Binding (.datagram (sampleRequest "a") sampleEndpoint) := by
    apply binding_of_counted (hwf 3)
    rw [hone, ← run_take_succ rfl]
    exact ne_of_eq_of_ne htwo (by decide)
  have hanswered : Trace.count Answered step first sampleRepeated 4 ≠ 0 := by
    rw [Ne, Trace.count_eq_zero_iff]
    intro hnone
    apply hnone 2 (by decide) _ rfl
    exact answered_iff.2 ⟨hsecond, hroom.symm ▸ Nat.one_pos⟩
  have hunanswered : Trace.count Unanswered step first sampleRepeated 4 ≠ 0 := by
    rw [Ne, Trace.count_eq_zero_iff]
    intro hnone
    exact hnone 3 (by decide) _ rfl ⟨hthird, hfull⟩
  have hsum : (first.run (sampleRepeated.take 4)).metrics.bindings = _ := run_bindings hstart rfl sampleRepeated 4
  have hall : sampleRepeated.take 4 = sampleRepeated := rfl
  rw [hall, htwo] at hsum
  refine ⟨htwo, ?_, hlength⟩
  omega

end Sample

end Intercom.Relay
