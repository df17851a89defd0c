import Intercom.Json.Parse
import Intercom.Session.Id

/-!
This module contains the messages between browsers and server and their JSON form: an object with the
command and the fields of a message, or an array with the same in order.
-/

namespace Intercom.Signaling

inductive TalkState where
  | active
  | idle
deriving DecidableEq

structure ClientStatus where
  id : SessionId
  name : String
  state : TalkState
deriving DecidableEq

inductive ServerMessage where
  | connected (name : String) (clientId : SessionId) (serverIp : String) (serverPort : UInt16)
      (icePassword fingerprint : String)
  | disconnected (reason : String)
  | clients (clients : List ClientStatus)
deriving DecidableEq

inductive ClientMessage where
  | talk (pressed : Bool)
  | offer (sdp : String)
deriving DecidableEq

open Json (Value)

/-- The fields of a record: by name, or by position. -/
inductive Fields where
  | named (members : List (String × Value))
  | positional (items : List Value)

namespace Fields

def ofValue? : Value → Option Fields
  | .object members => some (.named members)
  | .array items => some (.positional items)
  | _ => none

/-- The values of the given fields. Each must be there once; others are ignored by name and refused by
position. -/
def select? (names : List String) : Fields → Option (List Value)
  | .named members => names.mapM fun name =>
    match members.filter (·.1 = name) with
    | [(_, v)] => some v
    | _ => none
  | .positional items => if items.length = names.length then some items else none

def tagged? (tag : String) : Value → Option (String × Fields)
  | .object members =>
    match members.filter (·.1 = tag) with
    | [(_, .string command)] => some (command, .named (members.filter (·.1 ≠ tag)))
    | _ => none
  | .array (.string command :: items) => some (command, .positional items)
  | _ => none

end Fields

namespace TalkState

def ofPressed (pressed : Bool) : TalkState :=
  if pressed then active else idle

def word : TalkState → String
  | active => "active"
  | idle => "idle"

def ofWord? (word : String) : Option TalkState :=
  if word = "active" then some active
  else if word = "idle" then some idle
  else none

/-- A word, or an object whose only member has that name and nothing in it. -/
def ofValue? : Value → Option TalkState
  | .string s => ofWord? s
  | .object [(name, .null)] => ofWord? name
  | .object [(name, .object [])] => ofWord? name
  | _ => none

end TalkState

def idOfValue? (v : Value) : Option SessionId :=
  (v.asNat? UInt32.size).map fun n => ⟨UInt32.ofNat n⟩

namespace ClientStatus

def toValue (c : ClientStatus) : Value :=
  .object [("id", .nat c.id.value.toNat), ("name", .string c.name), ("state", .string c.state.word)]

def ofValue? (v : Value) : Option ClientStatus := do
  match ← (← Fields.ofValue? v).select? ["id", "name", "state"] with
  | [id, name, state] => return ⟨← idOfValue? id, ← name.asString?, ← TalkState.ofValue? state⟩
  | _ => none

end ClientStatus

def commandField : String := "command"

namespace ServerMessage

def toValue : ServerMessage → Value
  | .connected name clientId serverIp serverPort icePassword fingerprint => .object [
      (commandField, .string "connected"), ("name", .string name),
      ("client_id", .nat clientId.value.toNat), ("server_ip", .string serverIp),
      ("server_port", .nat serverPort.toNat), ("ice_pwd", .string icePassword),
      ("fingerprint", .string fingerprint)]
  | .disconnected reason => .object [
      (commandField, .string "disconnected"), ("reason", .string reason)]
  | .clients list => .object [
      (commandField, .string "clients"), ("clients", .array (list.map ClientStatus.toValue))]

def ofFields? (command : String) (fields : Fields) : Option ServerMessage := do
  if command = "connected" then
    let names := ["name", "client_id", "server_ip", "server_port", "ice_pwd", "fingerprint"]
    match ← fields.select? names with
    | [name, clientId, serverIp, serverPort, icePassword, fingerprint] =>
      return .connected (← name.asString?) (← idOfValue? clientId) (← serverIp.asString?)
        (UInt16.ofNat (← serverPort.asNat? UInt16.size)) (← icePassword.asString?)
        (← fingerprint.asString?)
    | _ => none
  else if command = "disconnected" then
    match ← fields.select? ["reason"] with
    | [reason] => return .disconnected (← reason.asString?)
    | _ => none
  else if command = "clients" then
    match ← fields.select? ["clients"] with
    | [.array items] => return .clients (← items.mapM ClientStatus.ofValue?)
    | _ => none
  else none

def text (m : ServerMessage) : String :=
  m.toValue.text

def ofText? (text : String) : Option ServerMessage := do
  let (command, fields) ← Fields.tagged? commandField (← Value.ofText? text)
  ofFields? command fields

end ServerMessage

namespace ClientMessage

def toValue : ClientMessage → Value
  | .talk pressed => .object [(commandField, .string "ptt"), ("state", .bool pressed)]
  | .offer sdp => .object [(commandField, .string "offer"), ("sdp", .string sdp)]

def ofFields? (command : String) (fields : Fields) : Option ClientMessage := do
  if command = "ptt" then
    match ← fields.select? ["state"] with
    | [state] => return .talk (← state.asBool?)
    | _ => none
  else if command = "offer" then
    match ← fields.select? ["sdp"] with
    | [sdp] => return .offer (← sdp.asString?)
    | _ => none
  else none

def text (m : ClientMessage) : String :=
  m.toValue.text

def ofText? (text : String) : Option ClientMessage := do
  let (command, fields) ← Fields.tagged? commandField (← Value.ofText? text)
  ofFields? command fields

end ClientMessage

end Intercom.Signaling
