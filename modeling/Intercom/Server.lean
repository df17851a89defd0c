import Intercom.Crypto.Sha256
import Intercom.Http.Router
import Intercom.Settings.Basic
import Intercom.Signaling.Connection

/-!
This module contains the whole server: the relay, the responder that knows no sessions, and the listener
for signaling, health check and metrics, as the settings put them together.
-/

namespace Intercom

structure Server where
  lobby : Signaling.Lobby
  relayEndpoint : Endpoint
  stunEndpoint : Option Endpoint
  signalingEndpoint : Endpoint
  healthy : Bool := true

namespace Server

/-- Octets of a datagram that are received; the rest of a longer one is lost. -/
def datagramCapacity : Nat := 1472

def outboxCapacity : Nat := 1024

def announced (certificate : Bytes) : String :=
  "sha-256 " ++ Hex.fingerprint (Sha256.hash certificate).bytes

inductive StartError where
  /-- The validity of the certificate, which no check of the settings looks at. -/
  | overflow
  | bind (e : Settings.BindError)
deriving DecidableEq

def StartError.message : StartError → String
  | overflow => "attempt to multiply with overflow"
  | bind e => e.message

/-- The server at its start; the password and the certificate are new each time. -/
def start (s : Settings) (password : String) (certificate : Bytes) : Except StartError Server := do
  let some settings := s.handshake.toLine? | .error .overflow
  let relayEndpoint ← s.relayEndpoint.mapError .bind
  let stunEndpoint ← s.stunEndpoint.mapError .bind
  let signalingEndpoint ← s.signalingEndpoint.mapError .bind
  let relay : Relay := {
    table := { names := ⟨s.names⟩ }
    password
    settings
    outbox := { capacity := outboxCapacity } }
  let hub : Signaling.Hub := {
    handle := { relay }
    publicAddress := s.publicAddress
    fingerprint := announced certificate
    relayPort := relayEndpoint.port }
  return { lobby := { hub }, relayEndpoint, stunEndpoint, signalingEndpoint }

def receive (s : Server) (datagram : Bytes) (sender : Endpoint) : Option SessionId × Server :=
  if s.lobby.hub.handle.running then
    let (started, relay) := s.lobby.hub.handle.relay.receive (datagram.take datagramCapacity) sender
    (started, { s with lobby.hub.handle.relay := relay })
  else (none, s)

def signal (s : Server) (event : Signaling.Lobby.Event) : Server :=
  { s with lobby := s.lobby.step event }

def respond (s : Server) (uptime : Nat) (request : Http.Request) : Http.Response :=
  let metrics := s.lobby.hub.handle.relay.metrics
  Http.respond metrics ⟨s.healthy, uptime, metrics.active⟩ request

def shutdown (s : Server) : Server :=
  { s with healthy := false, lobby.hub.handle := s.lobby.hub.handle.stop }

end Server

end Intercom
