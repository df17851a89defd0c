import Intercom.Settings.Basic
import Intercom.Text.Utf8
import Intercom.Toml.Document
import Intercom.Toml.Fields

/-!
This module contains the reading of settings from a TOML file. What is not there has its standard, what
is not known is ignored.
-/

namespace Intercom

open Toml (Fields Value)

def readRecord? (ofFields? : Fields → Option α) (v : Value) : Option α := do
  ofFields? (← Fields.ofValue? v)

def portOfValue? (v : Value) : Option UInt16 :=
  (v.asNat? UInt16.size).map UInt16.ofNat

/-- Counts are written as signed integers and so end where these do. -/
def countOfValue? (v : Value) : Option UInt64 :=
  (v.asNat? UInt64.size).map UInt64.ofNat

def NetworkSettings.ofFields? (f : Fields) : Option NetworkSettings := do
  let standard : NetworkSettings := {}
  return {
    bindAddress := ← f.read? 0 "bind_adresse" Value.asString? standard.bindAddress
    relayPort := ← f.read? 1 "relay_port" portOfValue? standard.relayPort
    stunPort := ← f.read? 2 "stun_port" portOfValue? standard.stunPort
    signalingPort := ← f.read? 3 "signaling_port" portOfValue? standard.signalingPort
    publicAddress := ← f.read? 4 "oeffentliche_adresse" Value.asString? standard.publicAddress }

def HandshakeSettings.ofFields? (f : Fields) : Option HandshakeSettings := do
  let standard : HandshakeSettings := {}
  return {
    readTimeout := ← f.read? 0 "lese_timeout_ms" countOfValue? standard.readTimeout
    mtu := ← f.read? 1 "mtu" countOfValue? standard.mtu
    maxTimeouts := ← f.read? 2 "max_timeouts" (fun v => (v.asNat? UInt32.size).map UInt32.ofNat)
      standard.maxTimeouts
    validDays := ← f.read? 3 "zertifikat_gueltigkeit_tage" countOfValue? standard.validDays
    queueCapacity := ← f.read? 4 "eingangs_warteschlange" countOfValue? standard.queueCapacity }

def LogSettings.ofFields? (f : Fields) : Option LogSettings := do
  let standard : LogSettings := {}
  return {
    level := ← f.read? 0 "level" Value.asString? standard.level
    format := ← f.read? 1 "format" Value.asString? standard.format }

namespace Settings

def ofFields? (f : Fields) : Option Settings := do
  let standard : Settings := {}
  return {
    serverName := ← f.read? 0 "server"
      (readRecord? fun f => f.read? 0 "name" Value.asString? standard.serverName) standard.serverName
    network := ← f.read? 1 "netzwerk" (readRecord? NetworkSettings.ofFields?) standard.network
    names := ← f.read? 2 "sessions"
      (readRecord? fun f => f.read? 0 "namen" Value.asStrings? standard.names) standard.names
    handshake := ← f.read? 3 "dtls" (readRecord? HandshakeSettings.ofFields?) standard.handshake
    log := ← f.read? 4 "logging" (readRecord? LogSettings.ofFields?) standard.log }

inductive Error where
  | notText
  /-- The text is no TOML document, or a value in it has the wrong type. -/
  | notToml
  | fault (f : Fault)
deriving DecidableEq

def ofText (text : String) : Except Error Settings :=
  match (Toml.ofText? text).bind fun root => ofFields? (.named root) with
  | none => .error .notToml
  | some s =>
    match s.fault? with
    | some f => .error (.fault f)
    | none => .ok s

def ofFile (content : Option Bytes) : Except Error Settings :=
  match content with
  | none => .ok {}
  | some content =>
    match Utf8.decode? content with
    | none => .error .notText
    | some text => ofText text

end Settings

end Intercom
