import Intercom.Handshake.Line
import Intercom.Net.EndpointText
import Intercom.Session.NamePool
import Intercom.Text.Blank

/-!
This module contains the settings of the server: their standards, what is wrong with them, and what the
parts of the server make of them.
-/

namespace Intercom

structure NetworkSettings where
  bindAddress : String := "0.0.0.0"
  relayPort : UInt16 := 18500
  /-- Of the responder that knows no sessions; 0 if there is none. -/
  stunPort : UInt16 := 3478
  signalingPort : UInt16 := 8080
  publicAddress : String := ""
deriving DecidableEq

structure HandshakeSettings where
  readTimeout : UInt64 := 3000
  mtu : UInt64 := 1422
  maxTimeouts : UInt32 := 5
  validDays : UInt64 := 30
  queueCapacity : UInt64 := 64
deriving DecidableEq

structure LogSettings where
  level : String := "info"
  format : String := "text"
deriving DecidableEq

structure Settings where
  serverName : String := "walkie"
  network : NetworkSettings := {}
  /-- Of the sessions, and so their number. -/
  names : List String := NamePool.standardNames
  handshake : HandshakeSettings := {}
  log : LogSettings := {}
deriving DecidableEq

namespace LogSettings

def isLevel (word : String) : Bool :=
  word ∈ ["trace", "debug", "info", "warn", "error"]

def isFormat (word : String) : Bool :=
  word ∈ ["text", "json"]

end LogSettings

def multiply? (a b : UInt64) : Option UInt64 :=
  if a.toNat * b.toNat < UInt64.size then some (a * b) else none

namespace HandshakeSettings

def validity? (s : HandshakeSettings) : Option UInt64 := do
  let hours ← multiply? s.validDays 24
  let minutes ← multiply? hours 60
  multiply? minutes 60

def toLine? (s : HandshakeSettings) : Option Handshake.Settings := do
  let validity ← s.validity?
  return {
    readTimeout := s.readTimeout.toNat
    mtu := s.mtu.toNat
    maxTimeouts := s.maxTimeouts.toNat
    queueCapacity := s.queueCapacity.toNat
    validity := validity.toNat }

end HandshakeSettings

namespace Settings

inductive Fault where
  | queueCapacity
  | mtu (n : UInt64)
  | readTimeout
  | logLevel (word : String)
  | logFormat (word : String)
deriving DecidableEq

/-- What fits a handshake at least, and what fits a datagram. -/
def leastMtu : UInt64 := 256

def greatestMtu : UInt64 := 1472

def Fault.message : Fault → String
  | queueCapacity => "dtls.eingangs_warteschlange muss groesser als 0 sein"
  | mtu n => "dtls.mtu " ++ toString n.toNat ++ " liegt ausserhalb von " ++
      toString leastMtu.toNat ++ "..=" ++ toString greatestMtu.toNat
  | readTimeout => "dtls.lese_timeout_ms muss groesser als 0 sein"
  | logLevel word => "Ungueltiges Log-Level '" ++ word ++ "'"
  | logFormat word => "Ungueltiges Log-Format '" ++ word ++ "'"

def fault? (s : Settings) : Option Fault :=
  if s.handshake.queueCapacity = 0 then some .queueCapacity
  else if s.handshake.mtu < leastMtu ∨ greatestMtu < s.handshake.mtu then some (.mtu s.handshake.mtu)
  else if s.handshake.readTimeout = 0 then some .readTimeout
  else if ¬ LogSettings.isLevel s.log.level then some (.logLevel s.log.level)
  else if ¬ LogSettings.isFormat s.log.format then some (.logFormat s.log.format)
  else none

structure BindError where
  text : String
deriving DecidableEq

def BindError.message (e : BindError) : String :=
  "Ungueltige Bind-Adresse '" ++ e.text ++ "'"

def endpoint (s : Settings) (port : UInt16) : Except BindError Endpoint :=
  let text := s.network.bindAddress ++ ":" ++ toString port.toNat
  match Endpoint.ofText? text with
  | some endpoint => .ok endpoint
  | none => .error ⟨text⟩

def relayEndpoint (s : Settings) : Except BindError Endpoint :=
  s.endpoint s.network.relayPort

def stunEndpoint (s : Settings) : Except BindError (Option Endpoint) :=
  if s.network.stunPort = 0 then .ok none else (s.endpoint s.network.stunPort).map some

def signalingEndpoint (s : Settings) : Except BindError Endpoint :=
  s.endpoint s.network.signalingPort

def publicAddress (s : Settings) : Option String :=
  let address := Text.trim s.network.publicAddress
  if address = "" then none else some address

end Settings

end Intercom
