import Intercom.Dtls.Record
import Intercom.Relay.Basic
import Intercom.Stun.Binding

/-!
This module contains what the relay does with a received datagram. It is tried as audio from a bound
endpoint, then as a STUN message, then as a DTLS record; what is none of these is dropped.
-/

namespace Intercom.Relay

def copyFor (source : SessionId) (p : Rtp.Packet) (s : Session) : Option Outgoing :=
  if s.id = source then none
  else do
    let remote ← s.remote
    let datagram ← (s.srtp.protect p).toOption
    return ⟨remote, datagram⟩

/-- Passes a packet on to all other sessions, under the id of the one it comes from. -/
def passOn (r : Relay) (source : SessionId) (p : Rtp.Packet) : Relay :=
  let copies := r.table.sessions.filterMap (copyFor source { p with source := source.value })
  let (taken, outbox) := r.outbox.offerAll copies
  { r with outbox, metrics := { r.metrics with forwarded := r.metrics.forwarded + taken } }

def sender? (r : Relay) (endpoint : Endpoint) : Option Session :=
  (r.table.byEndpoint? endpoint).bind r.table.get?

def receiveAudio (r : Relay) (datagram : Bytes) (sender : Endpoint) : Bool × Relay :=
  match r.sender? sender with
  | none => (false, r)
  | some source =>
    match source.srtp.unprotect datagram with
    | .ok p => (true, r.passOn source.id p)
    | .error .wrongTag =>
      (false, { r with metrics := { r.metrics with srtpFailures := r.metrics.srtpFailures + 1 } })
    | .error _ => (false, r)

def startHandshake (r : Relay) (id : SessionId) : Option SessionId × Relay :=
  match r.table.get? id with
  | none => (none, r)
  | some session =>
    match session.line.start with
    | (true, line) => (some id, { r with table := r.table.modify id fun s => { s with line } })
    | (false, _) => (none, r)

def acceptBinding (r : Relay) (id : SessionId) (request : Stun.Message) (sender : Endpoint) :
    Option SessionId × Relay :=
  let reply := (request.bindingReply sender).encode (some (Utf8.encode r.password))
  startHandshake
    { r with
      table := r.table.bind id sender
      outbox := (r.outbox.offer ⟨sender, reply⟩).2
      metrics := { r.metrics with bindings := r.metrics.bindings + 1 } } id

/-- Tries a datagram as a STUN message; `none` if it is none. The session is found by the user name, and
the tag must be right under the relay's password. -/
def receiveStun (r : Relay) (datagram : Bytes) (sender : Endpoint) :
    Option (Option SessionId × Relay) :=
  match Stun.decode datagram with
  | .error _ => none
  | .ok request =>
    if ¬ request.message.isBindingRequest then some (none, r)
    else match request.message.fragment?.bind r.table.byUfrag? with
      | none => some (none, r)
      | some id =>
        if request.verifies (Utf8.encode r.password) then
          some (r.acceptBinding id request.message sender)
        else
          some (none,
            { r with metrics := { r.metrics with stunFailures := r.metrics.stunFailures + 1 } })

def receiveRecord (r : Relay) (datagram : Bytes) (sender : Endpoint) : Relay :=
  match r.sender? sender with
  | none => r
  | some session =>
    { r with table := r.table.modify session.id fun s => { s with line := (s.line.enqueue datagram).2 } }

/-- Receives a datagram; gives the session whose handshake it started. -/
def receive (r : Relay) (datagram : Bytes) (sender : Endpoint) : Option SessionId × Relay :=
  let r := { r with metrics := { r.metrics with received := r.metrics.received + 1 } }
  match r.receiveAudio datagram sender with
  | (true, r) => (none, r)
  | (false, r) =>
    match r.receiveStun datagram sender with
    | some (started, r) => (started, r)
    | none => (none, if Dtls.isRecord datagram then r.receiveRecord datagram sender else r)

end Intercom.Relay
