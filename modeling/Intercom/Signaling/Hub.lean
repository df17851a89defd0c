import Intercom.Relay.Handle
import Intercom.Signaling.Host
import Intercom.Signaling.Roster

/-!
This module contains what all signaling connections share, and what a text from a client does to it.
-/

namespace Intercom.Signaling

inductive Error where
  | notJson
  | offerWithoutIce
  | relay (e : RelayError)
deriving DecidableEq

def Error.message : Error → String
  | notJson => "Ungueltiges JSON"
  | offerWithoutIce => "Protokollfehler: SDP enthaelt keine ICE-Parameter (ice-ufrag/ice-pwd)"
  | relay e => "Relay-Fehler: " ++ e.message

structure Hub where
  handle : RelayHandle
  roster : Roster := {}
  /-- The address that browsers are told to use; the host header if there is none. -/
  publicAddress : Option String := none
  fingerprint : String := ""
  relayPort : UInt16 := 0

namespace Hub

def serverIp (h : Hub) (host : Option String) : String :=
  match h.publicAddress.filter (· ≠ "") with
  | some address => address
  | none => (host.map Host.withoutPort).getD ""

def dispatch (h : Hub) (id : SessionId) : ClientMessage → Except Error Unit × Hub
  | .talk pressed =>
    match h.roster.setState id (.ofPressed pressed) with
    | (true, roster) => (.ok (), { h with roster := roster.sendList.2 })
    | (false, _) => (.ok (), h)
  | .offer sdp =>
    match Sdp.iceParameters? sdp with
    | none => (.error .offerWithoutIce, h)
    | some ice =>
      let (answer, handle) := h.handle.setIce id ice
      (answer.mapError .relay, { h with handle })

def receiveText (h : Hub) (id : SessionId) (text : String) : Except Error Unit × Hub :=
  match ClientMessage.ofText? text with
  | none => (.error .notJson, h)
  | some m => h.dispatch id m

def welcome (h : Hub) (info : SessionInfo) (host : Option String) : ServerMessage :=
  .connected info.name info.id (h.serverIp host) h.relayPort h.handle.relay.password h.fingerprint

end Hub

end Intercom.Signaling
