import Mathlib
import Intercom.Proofs.Session.Lookup

/-!
This module contains opening and closing with every write at its place, so that what is written before a failure
would stay. A failure comes before the first write.
-/

namespace Intercom

abbrev InPlace := EStateM SessionError SessionTable

namespace InPlace

def takeName : InPlace String := do
  match (← get).names.take? with
  | none => throw .noneFree
  | some (name, names) =>
    modify fun t => { t with names }
    return name

def openSession (settings : Handshake.Settings) : InPlace SessionInfo := do
  match (← get).nextId with
  | none => throw .noneFree
  | some id =>
    let name ← takeName
    modify fun t => { t with nextId := id.next? }
    let session : Session := { id, name, line := { settings } }
    modify fun t => { t with sessions := t.sessions ++ [session] }
    return session.info

def close (id : SessionId) : InPlace Session := do
  match (← get).get? id with
  | none => throw (.notFound id)
  | some session =>
    modify fun t => { t with sessions := t.sessions.filter (·.id ≠ id) }
    modify fun t => { t with endpoints := SessionTable.unindex t.endpoints session.remote }
    modify fun t => { t with names := t.names.give session.name }
    return session

theorem openSession_run (settings : Handshake.Settings) (t : SessionTable)
    : (openSession settings).run t =
        match t.openSession settings with
        | .ok (info, u) => .ok info u
        | .error e => .error e t := by
  unfold openSession takeName SessionTable.openSession
  cases hnext : t.nextId with
  | none =>
    simp only [EStateM.run_bind, EStateM.run_get, hnext]
    rfl
  | some id =>
    cases htake : t.names.take? with
    | none =>
      simp only [EStateM.run_bind, EStateM.run_get, hnext, htake]
      rfl
    | some taken =>
      simp only [EStateM.run_bind, EStateM.run_get, hnext, htake]
      rfl

theorem close_run (id : SessionId) (t : SessionTable)
    : (close id).run t =
        match t.close? id with
        | some (s, u) => .ok s u
        | none => .error (.notFound id) t := by
  unfold close SessionTable.close?
  cases hget : t.get? id with
  | none =>
    simp only [EStateM.run_bind, EStateM.run_get, hget]
    rfl
  | some s =>
    simp only [EStateM.run_bind, EStateM.run_get, hget]
    rfl

end InPlace

end Intercom
