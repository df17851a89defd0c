import Mathlib
import Intercom.Proofs.Relay.Handle
import Intercom.Proofs.Signaling.Message
import Intercom.Proofs.Signaling.Roster
import Intercom.Signaling.Hub

/-!
This module contains what a text from a browser can change: the talk state of its own client, which all clients are then
told about, or the ICE parameters of its own session. Every other text changes nothing.
-/

namespace Intercom.Signaling

open Json (Value)

variable {text : String} {v : Value} {m : ClientMessage} {members : List (String × Value)} {name command : String}

def ClientMessage.field : ClientMessage → String × Value
  | talk pressed => ("state", .bool pressed)
  | offer sdp => ("sdp", .string sdp)

/-- The values that are read as a message: an object in which the command and the field are there once each, or an array
of both. -/
inductive ClientMessage.Spelled (m : ClientMessage) : Value → Prop where
  | members (members : List (String × Value))
      (hcommand : members.filter (·.1 = commandField) = [(commandField, .string m.command)])
      (hfield : members.filter (·.1 = m.field.1) = [m.field]) : Spelled m (.object members)
  | items : Spelled m (.array [.string m.command, m.field.2])

def Says (text : String) (m : ClientMessage) : Prop :=
  ∃ v, Value.ofText? text = some v ∧ m.Spelled v

section Reading

theorem filter_filter_of_ne (hname : name ≠ commandField)
    : (members.filter (·.1 ≠ commandField)).filter (·.1 = name) = members.filter (·.1 = name) := by
  rw [List.filter_filter]
  apply List.filter_congr
  intro entry _
  by_cases hentry : entry.1 = name
  . simp [hentry, hname]
  . simp [hentry]

theorem fst_of_filter_eq {key : String} {w : Value} (h : members.filter (·.1 = name) = [(key, w)]) : key = name := by
  have hmem : (key, w) ∈ members.filter (·.1 = name) := by
    rw [h]
    exact List.mem_singleton_self _
  simpa using (List.mem_filter.1 hmem).2

theorem select?_named_eq_some_iff {w : Value}
    : (Fields.named members).select? [name] = some [w] ↔ members.filter (·.1 = name) = [(name, w)] := by
  unfold Fields.select?
  dsimp only
  constructor
  . intro h
    rw [List.mapM_cons, List.mapM_nil, Option.bind_eq_bind, Option.bind_eq_some_iff] at h
    rcases h with ⟨w', hw', h⟩
    split at hw'
    . next key v hfilter =>
      rw [Option.some.injEq] at hw'
      have hw : w' = w := by simpa using h
      rw [hfilter, fst_of_filter_eq hfilter, hw', hw]
    . simp at hw'
  . intro h
    simp [h]

theorem tagged?_object_eq_some_iff {f : Fields}
    : Fields.tagged? commandField (.object members) = some (command, f) ↔
        members.filter (·.1 = commandField) = [(commandField, .string command)] ∧
        f = .named (members.filter (·.1 ≠ commandField)) := by
  unfold Fields.tagged?
  dsimp only
  constructor
  . intro h
    split at h
    . next key command' hfilter =>
      rw [Option.some.injEq, Prod.mk.injEq] at h
      rw [hfilter, fst_of_filter_eq hfilter, h.1]
      exact ⟨rfl, h.2.symm⟩
    . simp at h
  . rintro ⟨hfilter, rfl⟩
    rw [hfilter]

theorem ofFields?_eq_some_iff {f : Fields}
    : ClientMessage.ofFields? command f = some m ↔ command = m.command ∧ f.select? [m.field.1] = some [m.field.2] := by
  constructor
  . intro h
    unfold ClientMessage.ofFields? at h
    split at h
    . next hcommand =>
      rw [Option.bind_eq_bind, Option.bind_eq_some_iff] at h
      rcases h with ⟨values, hselect, h⟩
      split at h
      . next state =>
        cases state with
        | bool pressed =>
          cases h
          exact ⟨hcommand, hselect⟩
        | null | number _ | string _ | array _ | object _ => simp [Value.asBool?] at h
      . simp at h
    . split at h
      . next hcommand =>
        rw [Option.bind_eq_bind, Option.bind_eq_some_iff] at h
        rcases h with ⟨values, hselect, h⟩
        split at h
        . next sdp =>
          cases sdp with
          | string sdp =>
            cases h
            exact ⟨hcommand, hselect⟩
          | null | number _ | bool _ | array _ | object _ => simp [Value.asString?] at h
        . simp at h
      . simp at h
  . rintro ⟨rfl, hselect⟩
    cases m with
    | talk pressed => exact ClientMessage.ofFields?_talk hselect
    | offer sdp => exact ClientMessage.ofFields?_offer hselect

theorem field_ne_commandField (m : ClientMessage) : m.field.1 ≠ commandField := by
  cases m with
  | talk pressed => simp [ClientMessage.field, commandField]
  | offer sdp => simp [ClientMessage.field, commandField]

theorem exists_tagged?_iff
    : (∃ command f, Fields.tagged? commandField v = some (command, f) ∧ ClientMessage.ofFields? command f = some m) ↔
        m.Spelled v := by
  simp only [ofFields?_eq_some_iff]
  constructor
  . rintro ⟨command, f, htagged, rfl, hselect⟩
    cases v with
    | object members =>
      rw [tagged?_object_eq_some_iff] at htagged
      rcases htagged with ⟨hcommand, rfl⟩
      rw [select?_named_eq_some_iff, filter_filter_of_ne (field_ne_commandField m)] at hselect
      exact .members members hcommand hselect
    | array items =>
      unfold Fields.tagged? at htagged
      split at htagged
      . next heq => cases heq
      . next command items heq =>
        cases heq
        rw [Option.some.injEq, Prod.mk.injEq] at htagged
        rcases htagged with ⟨rfl, rfl⟩
        unfold Fields.select? at hselect
        split at hselect
        . next heq => cases heq
        . next items' heq =>
          cases heq
          split at hselect
          . rw [Option.some.injEq] at hselect
            rw [hselect]
            exact .items
          . simp at hselect
      . simp at htagged
    | null | bool _ | number _ | string _ => simp [Fields.tagged?] at htagged
  . intro hspelled
    cases hspelled with
    | members members hcommand hfield =>
      refine ⟨m.command, _, tagged?_object_eq_some_iff.2 ⟨hcommand, rfl⟩, rfl, ?_⟩
      rw [select?_named_eq_some_iff, filter_filter_of_ne (field_ne_commandField m)]
      exact hfield
    | items => exact ⟨m.command, .positional [m.field.2], rfl, rfl, rfl⟩

theorem ofText?_eq_some_iff : ClientMessage.ofText? text = some m ↔ Says text m := by
  unfold Says
  simp only [← exists_tagged?_iff]
  unfold ClientMessage.ofText?
  simp [Option.bind_eq_some_iff]

end Reading

namespace Hub

def Talks (h : Hub) (id : SessionId) (text : String) (pressed : Bool) : Prop :=
  Says text (.talk pressed) ∧ h.roster.isRegistered id = true

/-- The text is an offer with both parameters, and the relay runs and has the session open. -/
def Offers (h : Hub) (id : SessionId) (text : String) (ice : IceParameters) : Prop :=
  (∃ sdp, Says text (.offer sdp) ∧ Sdp.iceParameters? sdp = some ice) ∧
    h.handle.running = true ∧ h.handle.relay.table.get? id ≠ none

variable {h : Hub} {id : SessionId} {ice : IceParameters} {sdp : String}

theorem receiveText_of_message (htext : Says text m) : h.receiveText id text = h.dispatch id m := by
  unfold receiveText
  rw [ofText?_eq_some_iff.2 htext]

theorem receiveText_of_no_message (htext : ∀ m, ¬ Says text m) : h.receiveText id text = (.error .notJson, h) := by
  have hnone : ClientMessage.ofText? text = none := by
    rw [Option.eq_none_iff_forall_ne_some]
    intro m hm
    exact htext m (ofText?_eq_some_iff.1 hm)
  unfold receiveText
  rw [hnone]

theorem dispatch_talk (hregistered : h.roster.isRegistered id = true) (pressed : Bool)
    : let after := (h.dispatch id (.talk pressed)).2
      after = { h with roster := after.roster } ∧
      after.roster.clients = h.roster.clients.map fun c =>
        { c with
          state := if c.id = id then .ofPressed pressed else c.state
          queue := if c.queue.HasRoom then
              { c.queue with messages := c.queue.messages ++ [.clients after.roster.snapshot] }
            else c.queue } := by
  have hafter : (h.dispatch id (.talk pressed)).2 =
      { h with roster := (h.roster.modify id fun c => { c with state := .ofPressed pressed }).sendList.2 } := by
    unfold dispatch Roster.setState
    rw [hregistered]
  rw [hafter]
  refine ⟨rfl, ?_⟩
  unfold Roster.sendList
  dsimp only
  rw [Roster.snapshot_sendAll]
  unfold Roster.sendAll Roster.modify
  dsimp only
  rw [List.map_map]
  apply List.map_congr_left
  intro c _
  rw [Function.comp_apply]
  by_cases hid : c.id = id
  . rw [if_pos hid, if_pos hid, Queue.send_eq]
    split
    . rfl
    . rfl
  . rw [if_neg hid, if_neg hid, Queue.send_eq]
    split
    . rfl
    . rfl

theorem dispatch_talk_of_unknown (hregistered : h.roster.isRegistered id = false) (pressed : Bool)
    : h.dispatch id (.talk pressed) = (.ok (), h) := by
  unfold dispatch Roster.setState
  rw [hregistered]

theorem dispatch_offer (hice : Sdp.iceParameters? sdp = some ice)
    : (h.dispatch id (.offer sdp)).2 = { h with handle := (h.handle.setIce id ice).2 } := by
  unfold dispatch
  dsimp only
  rw [hice]

theorem dispatch_offer_of_none (hice : Sdp.iceParameters? sdp = none)
    : h.dispatch id (.offer sdp) = (.error .offerWithoutIce, h) := by
  unfold dispatch
  dsimp only
  rw [hice]

theorem dispatch_ne_notJson (h : Hub) (id : SessionId) (m : ClientMessage)
    : (h.dispatch id m).1 ≠ .error .notJson := by
  cases m with
  | talk pressed =>
    rcases Bool.eq_false_or_eq_true (h.roster.isRegistered id) with hregistered | hregistered
    . unfold dispatch Roster.setState
      simp [hregistered]
    . simp [dispatch_talk_of_unknown hregistered]
  | offer sdp =>
    unfold dispatch
    dsimp only
    split
    . simp
    . dsimp only
      cases (h.handle.setIce id _).1 with
      | error e => simp [Except.mapError]
      | ok a => simp [Except.mapError]

end Hub

/-- A text is no message exactly if the answer says so. A text that is one changes the talk state of its own client, and
one list of all clients goes to every queue that has room; or it changes the ICE parameters of its own session; or
nothing. -/
theorem receiveText_changes_own_only (h : Hub) (id : SessionId) (text : String)
    : let after := (h.receiveText id text).2
      ((h.receiveText id text).1 = .error .notJson ↔ ∀ m, ¬ Says text m) ∧
      (∀ pressed, h.Talks id text pressed →
        after = { h with roster := after.roster } ∧
        after.roster.clients = h.roster.clients.map fun c =>
          { c with
            state := if c.id = id then .ofPressed pressed else c.state
            queue := if c.queue.HasRoom then
                { c.queue with messages := c.queue.messages ++ [.clients after.roster.snapshot] }
              else c.queue }) ∧
      (∀ ice, h.Offers id text ice →
        after =
          { h with
            handle.relay.table.sessions := h.handle.relay.table.sessions.map fun s =>
              if s.id = id then { s with ice := some ice } else s }) ∧
      ((∀ pressed, ¬ h.Talks id text pressed) → (∀ ice, ¬ h.Offers id text ice) → after = h) := by
  refine ⟨?_, ?_, ?_, ?_⟩
  . constructor
    . intro hanswer m htext
      rw [Hub.receiveText_of_message htext] at hanswer
      exact absurd hanswer (h.dispatch_ne_notJson id m)
    . intro htext
      rw [Hub.receiveText_of_no_message htext]
  . intro pressed htalks
    rw [Hub.receiveText_of_message htalks.1]
    exact Hub.dispatch_talk htalks.2 pressed
  . intro ice hoffers
    rcases hoffers with ⟨⟨sdp, htext, hice⟩, hrunning, hopen⟩
    rw [Hub.receiveText_of_message htext, Hub.dispatch_offer hice, RelayHandle.setIce_eq hrunning hopen]
  . intro htalks hoffers
    by_cases htext : ∃ m, Says text m
    . rcases htext with ⟨m, htext⟩
      rw [Hub.receiveText_of_message htext]
      cases m with
      | talk pressed =>
        have hunknown : h.roster.isRegistered id = false := by
          rw [← Bool.not_eq_true]
          intro hregistered
          exact htalks pressed ⟨htext, hregistered⟩
        rw [Hub.dispatch_talk_of_unknown hunknown]
      | offer sdp =>
        cases hice : Sdp.iceParameters? sdp with
        | none => rw [Hub.dispatch_offer_of_none hice]
        | some ice =>
          rw [Hub.dispatch_offer hice, RelayHandle.setIce_of_not_open]
          by_contra hgranted
          rw [not_or, Bool.not_eq_false] at hgranted
          exact hoffers ice ⟨⟨sdp, htext, hice⟩, hgranted⟩
    . rw [Hub.receiveText_of_no_message (not_exists.1 htext)]

end Intercom.Signaling
