import Mathlib
import Intercom.Proofs.Json.RoundTrip
import Intercom.Signaling.Message

/-!
This module contains the main statement about the messages between browsers and server: the text of a
message is read as that message by the reader of its own kind, and refused by the reader of the other.
-/

namespace Intercom.Signaling

open Json (Value)

theorem fits_object {room : Nat} {members : List (String × Value)} (h : members.Forall fun m => m.2.Fits room)
    : (Value.object members).Fits (room + 1) :=
  .object (List.forall_iff_forall_mem.mp h)

theorem id_lt (id : SessionId) : id.value.toNat < UInt32.size :=
  id.value.toNat_lt

theorem fits_id (room : Nat) (id : SessionId) : (Value.nat id.value.toNat).Fits room := by
  apply Value.fits_nat
  have hsize : UInt32.size < UInt64.size := by decide
  have := id_lt id
  omega

theorem fits_port (room : Nat) (port : UInt16) : (Value.nat port.toNat).Fits room := by
  apply Value.fits_nat
  have hsize : UInt16.size < UInt64.size := by decide
  have hlt : port.toNat < UInt16.size := port.toNat_lt
  omega

theorem idOfValue?_nat (id : SessionId) : idOfValue? (.nat id.value.toNat) = some id := by
  unfold idOfValue?
  rw [Value.asNat?_nat (id_lt id)]
  simp

theorem TalkState.ofWord?_word (s : TalkState) : ofWord? s.word = some s := by
  cases s <;> decide

namespace ClientStatus

theorem ofValue?_of_select? {v id : Value} {f : Fields} {c : ClientStatus} (hfields : Fields.ofValue? v = some f)
    (hselect : f.select? ["id", "name", "state"] = some [id, .string c.name, .string c.state.word])
    (hid : idOfValue? id = some c.id) : ofValue? v = some c := by
  unfold ofValue?
  simp [hfields, hselect, hid, Value.asString?, TalkState.ofValue?, TalkState.ofWord?_word]

theorem ofValue?_toValue (c : ClientStatus) : ofValue? c.toValue = some c :=
  ofValue?_of_select? (f := .named _) rfl rfl (idOfValue?_nat c.id)

theorem mapM_ofValue?_toValue (cs : List ClientStatus) : (cs.map toValue).mapM ofValue? = some cs := by
  induction cs with
  | nil => rfl
  | cons c cs ih =>
    rw [List.map_cons, List.mapM_cons, ofValue?_toValue, ih]
    rfl

theorem fits_toValue (room : Nat) (c : ClientStatus) : c.toValue.Fits (room + 1) :=
  fits_object ⟨fits_id _ _, .string _ _, .string _ _⟩

end ClientStatus

namespace ServerMessage

theorem fits_toValue (m : ServerMessage) : m.toValue.Fits Json.maxDepth := by
  cases m with
  | connected name clientId serverIp serverPort icePassword fingerprint =>
    exact fits_object ⟨.string _ _, .string _ _, fits_id _ _, .string _ _, fits_port _ _, .string _ _, .string _ _⟩
  | disconnected reason => exact fits_object ⟨.string _ _, .string _ _⟩
  | clients list =>
    have hitems : ∀ v ∈ list.map ClientStatus.toValue, v.Fits (Json.maxDepth - 2) := by
      intro v hv
      rcases List.mem_map.mp hv with ⟨c, _, rfl⟩
      exact c.fits_toValue _
    exact fits_object ⟨.string _ _, .array hitems⟩

theorem ofFields?_connected {f : Fields} {id port : Value} {name serverIp icePassword fingerprint : String}
    {clientId : SessionId} {serverPort : UInt16}
    (hselect : f.select? ["name", "client_id", "server_ip", "server_port", "ice_pwd", "fingerprint"] =
      some [.string name, id, .string serverIp, port, .string icePassword, .string fingerprint])
    (hid : idOfValue? id = some clientId) (hport : port.asNat? UInt16.size = some serverPort.toNat)
    : ofFields? "connected" f = some (.connected name clientId serverIp serverPort icePassword fingerprint) := by
  unfold ofFields?
  simp [hselect, hid, hport, Value.asString?]

theorem ofFields?_disconnected {f : Fields} {reason : String} (hselect : f.select? ["reason"] = some [.string reason])
    : ofFields? "disconnected" f = some (.disconnected reason) := by
  unfold ofFields?
  simp [hselect, Value.asString?]

theorem ofFields?_clients {f : Fields} {items : List Value} {list : List ClientStatus}
    (hselect : f.select? ["clients"] = some [.array items]) (hitems : items.mapM ClientStatus.ofValue? = some list)
    : ofFields? "clients" f = some (.clients list) := by
  unfold ofFields?
  simp [hselect, hitems]

def command : ServerMessage → String
  | connected .. => "connected"
  | disconnected _ => "disconnected"
  | clients _ => "clients"

theorem tagged?_toValue (m : ServerMessage)
    : ∃ f, Fields.tagged? commandField m.toValue = some (m.command, f) ∧ ofFields? m.command f = some m := by
  cases m with
  | connected name clientId serverIp serverPort icePassword fingerprint =>
    have hport : (Value.nat serverPort.toNat).asNat? UInt16.size = some serverPort.toNat :=
      Value.asNat?_nat serverPort.toNat_lt
    exact ⟨_, rfl, ofFields?_connected rfl (idOfValue?_nat clientId) hport⟩
  | disconnected reason => exact ⟨_, rfl, ofFields?_disconnected rfl⟩
  | clients list => exact ⟨_, rfl, ofFields?_clients rfl (ClientStatus.mapM_ofValue?_toValue list)⟩

end ServerMessage

namespace ClientMessage

theorem fits_toValue (m : ClientMessage) : m.toValue.Fits Json.maxDepth := by
  cases m with
  | talk pressed => exact fits_object ⟨.string _ _, .bool _ _⟩
  | offer sdp => exact fits_object ⟨.string _ _, .string _ _⟩

def command : ClientMessage → String
  | talk _ => "ptt"
  | offer _ => "offer"

theorem ofFields?_talk {f : Fields} {pressed : Bool} (hselect : f.select? ["state"] = some [.bool pressed])
    : ofFields? "ptt" f = some (.talk pressed) := by
  unfold ofFields?
  simp [hselect, Value.asBool?]

theorem ofFields?_offer {f : Fields} {sdp : String} (hselect : f.select? ["sdp"] = some [.string sdp])
    : ofFields? "offer" f = some (.offer sdp) := by
  unfold ofFields?
  simp [hselect, Value.asString?]

theorem tagged?_toValue (m : ClientMessage)
    : ∃ f, Fields.tagged? commandField m.toValue = some (m.command, f) ∧ ofFields? m.command f = some m := by
  cases m with
  | talk pressed => exact ⟨_, rfl, ofFields?_talk rfl⟩
  | offer sdp => exact ⟨_, rfl, ofFields?_offer rfl⟩

end ClientMessage

theorem ClientMessage.ofFields?_command (m : ServerMessage) (f : Fields)
    : ClientMessage.ofFields? m.command f = none := by
  cases m <;> simp [ClientMessage.ofFields?, ServerMessage.command]

theorem ServerMessage.ofFields?_command (m : ClientMessage) (f : Fields)
    : ServerMessage.ofFields? m.command f = none := by
  cases m <;> simp [ServerMessage.ofFields?, ClientMessage.command]

theorem ServerMessage.ofText?_eq {text : String} {v : Value} {command : String} {f : Fields}
    (hv : Value.ofText? text = some v) (htag : Fields.tagged? commandField v = some (command, f))
    : ServerMessage.ofText? text = ServerMessage.ofFields? command f := by
  unfold ofText?
  simp [hv, htag]

theorem ClientMessage.ofText?_eq {text : String} {v : Value} {command : String} {f : Fields}
    (hv : Value.ofText? text = some v) (htag : Fields.tagged? commandField v = some (command, f))
    : ClientMessage.ofText? text = ClientMessage.ofFields? command f := by
  unfold ofText?
  simp [hv, htag]

/-- What a side writes, the other reads as it was meant, and nothing is taken for what the reader writes. -/
theorem reads_own_kind_only
    : (∀ m : ServerMessage, ServerMessage.ofText? m.text = some m ∧ ClientMessage.ofText? m.text = none) ∧
        ∀ m : ClientMessage, ClientMessage.ofText? m.text = some m ∧ ServerMessage.ofText? m.text = none := by
  constructor
  . intro m
    have htext : Value.ofText? m.text = some m.toValue := Value.ofText?_text m.fits_toValue
    rcases m.tagged?_toValue with ⟨f, htag, hread⟩
    rw [ServerMessage.ofText?_eq htext htag, ClientMessage.ofText?_eq htext htag]
    exact ⟨hread, ClientMessage.ofFields?_command m f⟩
  . intro m
    have htext : Value.ofText? m.text = some m.toValue := Value.ofText?_text m.fits_toValue
    rcases m.tagged?_toValue with ⟨f, htag, hread⟩
    rw [ServerMessage.ofText?_eq htext htag, ClientMessage.ofText?_eq htext htag]
    exact ⟨hread, ServerMessage.ofFields?_command m f⟩

end Intercom.Signaling
