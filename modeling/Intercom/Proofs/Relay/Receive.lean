import Mathlib
import Intercom.Proofs.Session.Index
import Intercom.Relay.Receive

/-!
This module contains what the relay does with a received datagram, as a list of cases with everything
that is known in each.
-/

namespace Intercom.Relay

variable {r : Relay} {octets : Bytes} {sender : Endpoint} {id : SessionId}

/-- A binding request that names a session by its user name fragment, with a right tag. -/
structure Authenticates (r : Relay) (octets : Bytes) (request : Stun.Received) (id : SessionId) : Prop where
  decoded : Stun.decode octets = .ok request
  isRequest : request.message.isBindingRequest
  named : request.message.fragment?.bind r.table.byUfrag? = some id
  verified : request.verifies (Utf8.encode r.password)

structure Requests (t : SessionTable) (octets : Bytes) (request : Stun.Received) (id : SessionId) : Prop where
  decoded : Stun.decode octets = .ok request
  isRequest : request.message.isBindingRequest
  named : request.message.fragment?.bind t.byUfrag? = some id

def count (r : Relay) : Relay :=
  { r with metrics := { r.metrics with received := r.metrics.received + 1 } }

theorem receiveAudio_cases (r : Relay) (octets : Bytes) (sender : Endpoint)
    : (∃ source p,
        r.sender? sender = some source ∧ source.srtp.unprotect octets = .ok p ∧
        r.receiveAudio octets sender = (true, r.passOn source.id p)) ∨
      ((∀ source, r.sender? sender = some source → ∀ p, source.srtp.unprotect octets ≠ .ok p) ∧
        ((∃ source,
            r.sender? sender = some source ∧ source.srtp.unprotect octets = .error .wrongTag ∧
            r.receiveAudio octets sender =
              (false, { r with metrics := { r.metrics with srtpFailures := r.metrics.srtpFailures + 1 } })) ∨
          ((∀ source, r.sender? sender = some source → source.srtp.unprotect octets ≠ .error .wrongTag) ∧
            r.receiveAudio octets sender = (false, r)))) := by
  unfold receiveAudio
  cases hsource : r.sender? sender with
  | none =>
    right
    simp
  | some source =>
    dsimp only
    cases hresult : source.srtp.unprotect octets with
    | ok p =>
      left
      exact ⟨source, p, rfl, hresult, rfl⟩
    | error e =>
      right
      refine ⟨by simp [hresult], ?_⟩
      by_cases htag : e = .wrongTag
      . left
        rw [htag] at hresult ⊢
        exact ⟨source, rfl, hresult, rfl⟩
      . right
        refine ⟨by simp [hresult, htag], ?_⟩
        cases e with
        | wrongTag => exact absurd rfl htag
        | noKeys | notRtp => rfl

theorem receiveStun_cases (r : Relay) (octets : Bytes) (sender : Endpoint)
    : (∃ request id,
        Requests r.table octets request id ∧
        ((request.verifies (Utf8.encode r.password) ∧
            r.receiveStun octets sender = some (r.acceptBinding id request.message sender)) ∨
          (¬ request.verifies (Utf8.encode r.password) ∧
            r.receiveStun octets sender =
              some (none, { r with metrics := { r.metrics with stunFailures := r.metrics.stunFailures + 1 } })))) ∨
      ((∀ request id, ¬ Requests r.table octets request id) ∧
        (((∃ e, Stun.decode octets = .error e) ∧ r.receiveStun octets sender = none) ∨
          ((∃ request, Stun.decode octets = .ok request) ∧ r.receiveStun octets sender = some (none, r)))) := by
  unfold receiveStun
  cases hdecode : Stun.decode octets with
  | error e =>
    right
    refine ⟨?_, .inl ⟨⟨e, rfl⟩, rfl⟩⟩
    intro request id h
    have hdecoded := h.decoded
    rw [hdecode] at hdecoded
    simp at hdecoded
  | ok request =>
    have hdecoded : ∀ other id, Requests r.table octets other id → other = request := by
      intro other id h
      have hother := h.decoded
      rw [hdecode, Except.ok.injEq] at hother
      exact hother.symm
    dsimp only
    split
    . next hkind =>
      right
      refine ⟨?_, .inr ⟨⟨request, rfl⟩, rfl⟩⟩
      intro other id h
      apply hkind
      rw [← hdecoded other id h]
      exact h.isRequest
    . next hkind =>
      split
      . next hnamed =>
        right
        refine ⟨?_, .inr ⟨⟨request, rfl⟩, rfl⟩⟩
        intro other id h
        have hother := h.named
        rw [hdecoded other id h, hnamed] at hother
        simp at hother
      . next id hnamed =>
        left
        refine ⟨request, id, ⟨hdecode, not_not.1 hkind, hnamed⟩, ?_⟩
        split
        . next hverified => exact .inl ⟨hverified, rfl⟩
        . next hverified => exact .inr ⟨hverified, rfl⟩

section

variable {counted missed answered : Relay} {started : Option SessionId}

theorem receive_of_audio (h : r.count.receiveAudio octets sender = (true, counted))
    : r.receive octets sender = (none, counted) := by
  unfold count at h
  unfold receive
  dsimp only
  rw [h]

theorem receive_of_stun (h : r.count.receiveAudio octets sender = (false, missed))
    (hstun : missed.receiveStun octets sender = some (started, answered))
    : r.receive octets sender = (started, answered) := by
  unfold count at h
  unfold receive
  dsimp only
  rw [h]
  dsimp only
  rw [hstun]

theorem receive_of_not_stun (h : r.count.receiveAudio octets sender = (false, missed))
    (hstun : missed.receiveStun octets sender = none)
    : r.receive octets sender =
        (none, if Dtls.isRecord octets then missed.receiveRecord octets sender else missed) := by
  unfold count at h
  unfold receive
  dsimp only
  rw [h]
  dsimp only
  rw [hstun]

end

theorem receive_cases (r : Relay) (octets : Bytes) (sender : Endpoint)
    : (∃ source p,
        r.sender? sender = some source ∧ source.srtp.unprotect octets = .ok p ∧
        r.receive octets sender = (none, r.count.passOn source.id p)) ∨
      ((∀ source, r.sender? sender = some source → ∀ p, source.srtp.unprotect octets ≠ .ok p) ∧
        ∃ metrics,
          (∃ request id,
            r.Authenticates octets request id ∧
            r.receive octets sender = { r with metrics }.acceptBinding id request.message sender) ∨
          ((∀ request id, ¬ r.Authenticates octets request id) ∧
            ((Dtls.isRecord octets ∧
              r.receive octets sender = (none, { r with metrics }.receiveRecord octets sender)) ∨
            r.receive octets sender = (none, { r with metrics })))) := by
  rcases receiveAudio_cases r.count octets sender with
    ⟨source, p, hsource, hp, haudio⟩ | ⟨hnone, hmissed⟩
  . left
    exact ⟨source, p, hsource, hp, receive_of_audio haudio⟩
  . right
    refine ⟨hnone, ?_⟩
    have hmetrics : ∃ metrics, r.count.receiveAudio octets sender = (false, { r with metrics }) := by
      rcases hmissed with ⟨source, -, -, hmissed⟩ | ⟨-, hmissed⟩
      . exact ⟨_, hmissed⟩
      . exact ⟨_, hmissed⟩
    rcases hmetrics with ⟨metrics, hmissed⟩
    rcases receiveStun_cases { r with metrics } octets sender with
      ⟨request, id, hrequests, ⟨hverified, hstun⟩ | ⟨hverified, hstun⟩⟩ | ⟨hnot, hother⟩
    . refine ⟨metrics, .inl ⟨request, id, ?_, receive_of_stun hmissed hstun⟩⟩
      exact ⟨hrequests.decoded, hrequests.isRequest, hrequests.named, hverified⟩
    . refine ⟨_, .inr ⟨?_, .inr (receive_of_stun hmissed hstun)⟩⟩
      intro other id h
      have hdecoded := h.decoded
      rw [hrequests.decoded, Except.ok.injEq] at hdecoded
      rw [hdecoded] at hverified
      exact hverified h.verified
    . have hnot : ∀ request id, ¬ r.Authenticates octets request id := by
        intro request id h
        exact hnot request id ⟨h.decoded, h.isRequest, h.named⟩
      rcases hother with ⟨-, hstun⟩ | ⟨-, hstun⟩
      . refine ⟨metrics, .inr ⟨hnot, ?_⟩⟩
        rw [receive_of_not_stun hmissed hstun]
        split
        . next hrecord => exact .inl ⟨hrecord, rfl⟩
        . exact .inr rfl
      . exact ⟨metrics, .inr ⟨hnot, .inr (receive_of_stun hmissed hstun)⟩⟩

end Intercom.Relay
