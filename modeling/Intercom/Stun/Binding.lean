import Intercom.Stun.Message

/-!
This module contains binding requests and their answers, and the responder that answers requests without
a tag and knows no sessions.
-/

namespace Intercom.Stun

namespace Message

def isBindingRequest (m : Message) : Bool :=
  m.type = .bindingRequest

def bindingReply (request : Message) (sender : Endpoint) : Message :=
  { type := .bindingSuccess, transaction := request.transaction, xorMapped := sender, fingerprint := true }

end Message

def respond? (datagram : Bytes) (sender : Endpoint) : Option Bytes :=
  match decode datagram with
  | .error _ => none
  | .ok request =>
    if request.message.isBindingRequest ∧ request.message.integrity.isNone then
      some ((request.message.bindingReply sender).encode none)
    else none

end Intercom.Stun
