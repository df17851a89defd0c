import Intercom.Relay.Receive

/-!
This module contains the relay as signaling sees it: a relay that serves requests until it is stopped.
-/

namespace Intercom

inductive RelayError where
  | session (e : SessionError)
  | stopped
deriving DecidableEq

def RelayError.message : RelayError → String
  | session e => e.message
  | stopped => "Relay-Kanal geschlossen"

structure RelayHandle where
  relay : Relay
  running : Bool := true

namespace RelayHandle

def request (h : RelayHandle) (f : Relay → Except SessionError α × Relay) :
    Except RelayError α × RelayHandle :=
  if h.running then
    let (answer, relay) := f h.relay
    (answer.mapError .session, { h with relay })
  else (.error .stopped, h)

def openSession (h : RelayHandle) : Except RelayError SessionInfo × RelayHandle :=
  h.request Relay.openSession

def closeSession (h : RelayHandle) (id : SessionId) : Except RelayError Unit × RelayHandle :=
  h.request (·.closeSession id)

def setIce (h : RelayHandle) (id : SessionId) (ice : IceParameters) :
    Except RelayError Unit × RelayHandle :=
  h.request (·.setIce id ice)

def stop (h : RelayHandle) : RelayHandle :=
  { h with running := false }

end RelayHandle

end Intercom
