import Mathlib
import Intercom.Proofs.Session.Index

/-!
This module contains the part of a session that handshakes change, and what each operation on the table does
to it.
-/

namespace Intercom

structure Security where
  line : Handshake.Line
  keys : Option Srtp.Keys := none

def Session.security (s : Session) : Security :=
  ⟨s.line, s.srtp.keys⟩

namespace SessionTable

open Function (update)

variable {t u : SessionTable} {id j : SessionId} {a : Endpoint}

def security? (t : SessionTable) (id : SessionId) : Option Security :=
  (t.get? id).map Session.security

theorem security?_eq_none_iff : t.security? id = none ↔ t.get? id = none := by
  unfold security?
  rw [Option.map_eq_none_iff]

theorem security?_of_get? {s : Session} (h : t.get? id = some s) : t.security? id = some s.security := by
  unfold security?
  rw [h]
  rfl

theorem security?_modify (t : SessionTable) (id : SessionId) (f : Session → Session) (g : Security → Security)
    (hid : ∀ s, (f s).id = s.id) (hf : ∀ s, (f s).security = g s.security)
    : (t.modify id f).security? = update t.security? id ((t.security? id).map g) := by
  funext j
  unfold security?
  rw [get?_modify f hid, Function.update_apply]
  split
  . next hj =>
    rw [hj, Option.map_map, Option.map_map]
    congr 1
    funext s
    exact hf s
  . rfl

theorem security?_bind : (t.bind id a).security? = t.security? := by
  funext j
  unfold security?
  cases hopen : t.get? id with
  | none => rw [bind_of_get?_eq_none hopen]
  | some s =>
    rw [get?_bind hopen, Option.map_map]
    congr 1
    funext u
    rw [Function.comp_apply]
    split
    . rfl
    . split
      . rfl
      . rfl

theorem nextId_bind : (t.bind id a).nextId = t.nextId := by
  unfold bind
  split
  . rfl
  . rfl

theorem security?_setIce {ice : IceParameters} (h : t.setIce id ice = .ok u) : u.security? = t.security? := by
  rcases setIce_eq_ok h with ⟨-, rfl⟩
  have hmodify := security?_modify t id (fun s => { s with ice := some ice }) (fun s => s) (fun _ => rfl) fun _ => rfl
  rw [hmodify, Option.map_id', Function.update_eq_self]

theorem security?_close? {s : Session} (h : t.close? id = some (s, u))
    : u.security? = update t.security? id none := by
  rcases close?_eq_some h with ⟨-, rfl⟩
  funext j
  unfold security? get?
  dsimp only
  rw [get?_filter_ne, Function.update_apply]
  split
  . rfl
  . rfl

theorem WellFormed.security?_openSession (h : t.WellFormed) {settings : Handshake.Settings} {info : SessionInfo}
    (hopen : t.openSession settings = .ok (info, u))
    : t.nextId = some info.id ∧ u.nextId = info.id.next? ∧
        u.security? = update t.security? info.id (some { line := { settings } }) := by
  rcases openSession_eq_ok hopen with ⟨id, name, names, hid, -, rfl, rfl⟩
  have hnone := h.get?_nextId hid
  refine ⟨hid, rfl, ?_⟩
  funext j
  unfold security? get?
  dsimp only
  rw [List.find?_append, Function.update_apply]
  split
  . next hj =>
    unfold get? at hnone
    simp [hj, hnone, Session.security]
  . next hj => simp [Ne.symm hj]

end SessionTable

end Intercom
