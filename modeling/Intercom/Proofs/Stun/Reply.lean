import Mathlib
import Intercom.Proofs.Stun.RoundTrip
import Intercom.Stun.Binding

/-!
This module contains what answers to binding requests are read as, and which requests the responder answers. An answer
is a success response, whatever its request was, and so it is no request itself.
-/

namespace Intercom.Stun

variable {request answer : Received} {octets reply : Bytes} {key : Option Bytes} {a b : Endpoint}

def IsReplyTo (octets reply : Bytes) : Prop :=
  ∃ request answer,
    decode octets = .ok request ∧ decode reply = .ok answer ∧ answer.message.type = .bindingSuccess ∧
    answer.message.transaction = request.message.transaction

structure PlainRequest (octets : Bytes) (request : Received) : Prop where
  decoded : decode octets = .ok request
  type : request.message.type = .bindingRequest
  untagged : request.message.integrity = none

theorem length_encodeAddress (mask : Mask) (e : Endpoint) : (encodeAddress mask e).length = 4 + e.ip.bytes.length := by
  unfold encodeAddress IpAddress.bytes
  cases e.ip with
  | v4 octets => simp [Octets.length_eq]
  | v6 octets => simp [Octets.length_eq]

theorem length_bytes_ofValue (role : Role) (value : Bytes)
    : (Attribute.ofValue role value).bytes.length = 4 + value.length + Attribute.paddingLength value.length := by
  rw [Attribute.length_bytes]
  unfold Attribute.ofValue
  rw [List.length_replicate]

/-- The length of a reply depends on the family of the address and on whether it has a tag, and on nothing else. -/
def replyLength (tagged : Bool) : IpAddress → Nat
  | .v4 _ => if tagged then 64 else 40
  | .v6 _ => if tagged then 76 else 52

namespace Message

theorem attributes_bindingReply (request : Message) (a : Endpoint)
    : (request.bindingReply a).attributes =
        [.ofValue .xorMappedAddress (encodeAddress (.ofTransaction request.transaction) a)] := by
  rfl

theorem written_bindingReply (request : Message) (a : Endpoint) (key : Option Bytes)
    : ∃ checksum : UInt32,
        (request.bindingReply a).written key =
          [.ofValue .xorMappedAddress (encodeAddress (.ofTransaction request.transaction) a)] ++
            (key.map fun key => .ofValue .integrity (tagOf key (request.bindingReply a).content).bytes).toList ++
            [.ofValue .fingerprint (Bytes.ofNat 4 checksum.toNat)] := by
  unfold written tagged
  rw [fingerprintAttribute?_eq_some rfl, attributes_bindingReply]
  cases key with
  | none => exact ⟨_, rfl⟩
  | some key => exact ⟨_, rfl⟩

theorem length_bindingReply (request : Message) (a : Endpoint) (key : Option Bytes)
    : ((request.bindingReply a).encode key).length = replyLength key.isSome a.ip := by
  have htag : ∀ tag : Tag, tag.bytes.length = 20 := fun tag => tag.length_eq
  rcases written_bindingReply request a key with ⟨checksum, hwritten⟩
  have haddress := length_encodeAddress (.ofTransaction request.transaction) a
  rw [length_encode, hwritten]
  unfold IpAddress.bytes at haddress
  cases hip : a.ip <;> rw [hip] at haddress <;> cases key <;>
    simp [haddress, length_bytes_ofValue, Octets.length_eq, Bytes.length_ofNat, htag,
      Attribute.paddingLength, replyLength, headerLength]

theorem length_bindingReply_le (request : Message) (a : Endpoint) (key : Option Bytes)
    : ((request.bindingReply a).encode key).length ≤ headerLength + 65535 := by
  rw [length_bindingReply]
  unfold replyLength headerLength
  split <;> split <;> decide

theorem decode_bindingReply (request : Message) (a : Endpoint) (key : Option Bytes)
    : decode ((request.bindingReply a).encode key) = .ok ((request.bindingReply a).readBack key) := by
  apply decode_encode_eq_readBack
  . change (0x0101 : UInt16) < 0x4000
    decide
  . exact length_bindingReply_le request a key

end Message

theorem isReplyTo_bindingReply (h : decode octets = .ok request) (a : Endpoint) (key : Option Bytes)
    : IsReplyTo octets ((request.message.bindingReply a).encode key) :=
  ⟨request, _, h, Message.decode_bindingReply request.message a key, rfl, rfl⟩

theorem respond?_eq_some_iff
    : respond? octets a = some reply ↔
        ∃ request, PlainRequest octets request ∧ reply = (request.message.bindingReply a).encode none := by
  unfold respond?
  constructor
  . intro h
    split at h
    . simp at h
    . next request hdecoded =>
      split at h
      . next hplain =>
        refine ⟨request, ⟨hdecoded, of_decide_eq_true hplain.1, ?_⟩, (Option.some.inj h).symm⟩
        exact Option.isNone_iff_eq_none.1 hplain.2
      . simp at h
  . intro h
    rcases h with ⟨request, hplain, rfl⟩
    rw [hplain.decoded]
    dsimp only
    rw [if_pos]
    exact ⟨decide_eq_true hplain.type, Option.isNone_iff_eq_none.2 hplain.untagged⟩

theorem IsReplyTo.not_plainRequest (h : IsReplyTo octets reply) : ¬ PlainRequest reply request := by
  intro hplain
  rcases h with ⟨-, answer, -, hdecoded, htype, -⟩
  rw [hplain.decoded, Except.ok.injEq] at hdecoded
  rw [← hdecoded, hplain.type] at htype
  revert htype
  decide

theorem IsReplyTo.respond?_eq_none (h : IsReplyTo octets reply) (b : Endpoint) : respond? reply b = none := by
  rw [Option.eq_none_iff_forall_ne_some]
  intro answer hanswer
  rcases respond?_eq_some_iff.1 hanswer with ⟨request, hplain, -⟩
  exact h.not_plainRequest hplain

theorem isReplyTo_of_respond? (h : respond? octets a = some reply) : IsReplyTo octets reply := by
  rcases respond?_eq_some_iff.1 h with ⟨request, hplain, rfl⟩
  exact isReplyTo_bindingReply hplain.decoded a none

end Intercom.Stun
