import Mathlib
import Intercom.Session.Table

/-!
This module contains what a look-up by id, by endpoint or by user name fragment finds after each
operation on the table of sessions.
-/

namespace Intercom

namespace Session

def ufrag? (s : Session) : Option String :=
  s.ice.map (·.ufrag)

theorem any_ufrag_iff (s : Session) (ufrag : String) : s.ice.any (·.ufrag = ufrag) ↔ s.ufrag? = some ufrag := by
  unfold ufrag?
  cases s.ice with
  | none => simp
  | some ice => simp

end Session

namespace SessionId

theorem next?_eq_some {id next : SessionId} (h : id.next? = some next)
    : id.value < next.value ∧ next = ⟨id.value + 1⟩ := by
  unfold next? at h
  split at h
  . next hlt =>
    simp only [Option.some.injEq] at h
    rw [← h]
    refine ⟨?_, rfl⟩
    rw [UInt32.lt_iff_toNat_lt] at hlt ⊢
    rw [UInt32.toNat_add]
    simp at hlt ⊢
    omega
  . simp at h

end SessionId

namespace SessionTable

variable {t : SessionTable} {s : Session} {id j : SessionId} {a b : Endpoint}

/-- The endpoint that an open session is bound to. -/
def remote? (t : SessionTable) (id : SessionId) : Option Endpoint :=
  (t.get? id).bind (·.remote)

theorem id_of_get? (h : t.get? id = some s) : s.id = id := by
  unfold get? at h
  have := List.find?_some h
  simpa using this

theorem mem_of_get? (h : t.get? id = some s) : s ∈ t.sessions := by
  unfold get? at h
  exact List.mem_of_find?_eq_some h

theorem get?_ne_none_of_mem (h : s ∈ t.sessions) : t.get? s.id ≠ none := by
  intro hnone
  unfold get? at hnone
  rw [List.find?_eq_none] at hnone
  have := hnone s h
  simp at this

theorem byUfrag?_eq_none_iff {ufrag : String}
    : t.byUfrag? ufrag = none ↔ ∀ s ∈ t.sessions, s.ufrag? ≠ some ufrag := by
  unfold byUfrag?
  rw [Option.map_eq_none_iff, List.find?_eq_none]
  simp only [Session.any_ufrag_iff, ne_eq]

theorem remote?_eq_some_iff : t.remote? id = some a ↔ ∃ s, t.get? id = some s ∧ s.remote = some a := by
  unfold remote?
  rw [Option.bind_eq_some_iff]

theorem find?_map_sessions (sessions : List Session) (f : Session → Session)
    (hf : ∀ s, (f s).id = s.id)
    : (sessions.map f).find? (·.id = j) = (sessions.find? (·.id = j)).map f := by
  rw [List.find?_map]
  congr 2
  funext s
  simp [hf]

theorem get?_modify (f : Session → Session) (hf : ∀ s, (f s).id = s.id)
    : (t.modify id f).get? j = if j = id then (t.get? j).map f else t.get? j := by
  unfold modify get?
  dsimp
  rw [find?_map_sessions]
  . cases hfind : t.get? j with
    | none =>
      unfold get? at hfind
      simp [hfind]
    | some s =>
      have hid := id_of_get? hfind
      unfold get? at hfind
      rw [hfind]
      by_cases h : j = id
      . simp [h, hid]
      . simp [h, hid]
  . intro s
    split
    . apply hf
    . rfl

theorem modify_of_get?_eq_none (f : Session → Session) (h : t.get? id = none) : t.modify id f = t := by
  unfold modify
  congr 1
  conv_rhs => rw [← List.map_id t.sessions]
  apply List.map_congr_left
  intro s hs
  split
  . next hid =>
    rw [← hid] at h
    exact absurd h (get?_ne_none_of_mem hs)
  . rfl

theorem remote?_modify (f : Session → Session) (hf : ∀ s, (f s).id = s.id)
    (hremote : ∀ s, (f s).remote = s.remote)
    : (t.modify id f).remote? j = t.remote? j := by
  unfold remote?
  rw [get?_modify f hf]
  split
  . rw [Option.bind_map]
    congr 1
    funext s
    apply hremote
  . rfl

theorem byEndpoint?_modify (f : Session → Session) : (t.modify id f).byEndpoint? a = t.byEndpoint? a :=
  rfl

theorem lookup_cons (endpoints : List (Endpoint × SessionId))
    : ((b, id) :: endpoints).lookup a = if a = b then some id else endpoints.lookup a := by
  rw [List.lookup_cons]
  by_cases h : a = b
  . simp [h]
  . have hbeq : (a == b) = false := beq_eq_false_iff_ne.2 h
    simp [hbeq, h]

theorem lookup_unindex (endpoints : List (Endpoint × SessionId)) (remote : Option Endpoint)
    : (unindex endpoints remote).lookup a = if some a = remote then none else endpoints.lookup a := by
  induction endpoints with
  | nil => simp [unindex]
  | cons entry endpoints ih =>
    rcases entry with ⟨e, i⟩
    unfold unindex at ih ⊢
    rw [List.filter_cons]
    split
    . next he =>
      simp only [ne_eq, decide_not, Bool.not_eq_true', decide_eq_false_iff_not] at he
      rw [lookup_cons, lookup_cons, ih]
      by_cases ha : a = e
      . subst ha
        simp [he]
      . simp [ha]
    . next he =>
      simp only [ne_eq, decide_not, Bool.not_eq_true', decide_eq_false_iff_not, not_not] at he
      rw [ih]
      by_cases ha : some a = remote
      . simp [ha]
      . have hne : a ≠ e := by
          intro h
          exact ha (h ▸ he)
        simp [ha, lookup_cons, hne]

theorem openSession_eq_ok {settings : Handshake.Settings} {info : SessionInfo} {u : SessionTable}
    (h : t.openSession settings = .ok (info, u))
    : ∃ id name names,
        t.nextId = some id ∧ t.names.take? = some (name, names) ∧ info = ⟨id, name⟩ ∧
        u = { t with
          sessions := t.sessions ++ [{ id, name, line := { settings } }]
          nextId := id.next?
          names } := by
  unfold openSession at h
  split at h
  . next id name names hid hname =>
    simp only [Except.ok.injEq, Prod.mk.injEq] at h
    exact ⟨id, name, names, hid, hname, h.1.symm, h.2.symm⟩
  . simp at h

theorem close?_eq_some {u : SessionTable} (h : t.close? id = some (s, u))
    : t.get? id = some s ∧
      u = { t with
        sessions := t.sessions.filter (·.id ≠ id)
        endpoints := unindex t.endpoints s.remote
        names := t.names.give s.name } := by
  unfold close? at h
  rw [Option.map_eq_some_iff] at h
  rcases h with ⟨session, hget, heq⟩
  simp only [Prod.mk.injEq] at heq
  rcases heq with ⟨rfl, rfl⟩
  exact ⟨hget, rfl⟩

theorem close?_eq_none_iff : t.close? id = none ↔ t.get? id = none := by
  unfold close?
  rw [Option.map_eq_none_iff]

theorem setIce_eq_ok {ice : IceParameters} {u : SessionTable} (h : t.setIce id ice = .ok u)
    : t.get? id ≠ none ∧ u = t.modify id fun s => { s with ice := some ice } := by
  unfold setIce at h
  split at h
  . simp at h
  . next session hget =>
    simp only [Except.ok.injEq] at h
    simp [hget, h]

theorem get?_filter_ne
    : (t.sessions.filter (·.id ≠ id)).find? (·.id = j) = if j = id then none else t.get? j := by
  rw [List.find?_filter]
  split
  . next h =>
    rw [List.find?_eq_none]
    intro s _
    simp [h]
  . next h =>
    unfold get?
    congr 1
    funext s
    by_cases hs : s.id = j
    . simp [hs, h]
    . simp [hs]

theorem remote?_close? {u : SessionTable} (h : t.close? id = some (s, u))
    : u.remote? j = if j = id then none else t.remote? j := by
  rcases close?_eq_some h with ⟨-, rfl⟩
  unfold remote? get?
  dsimp only
  rw [get?_filter_ne]
  split
  . rfl
  . rfl

theorem byEndpoint?_close? {u : SessionTable} (h : t.close? id = some (s, u))
    : u.byEndpoint? a = if some a = t.remote? id then none else t.byEndpoint? a := by
  rcases close?_eq_some h with ⟨hget, rfl⟩
  unfold byEndpoint? remote?
  dsimp only
  rw [lookup_unindex, hget]
  rfl

theorem remote?_setIce {u : SessionTable} {ice : IceParameters} (h : t.setIce id ice = .ok u)
    : u.remote? j = t.remote? j := by
  rcases setIce_eq_ok h with ⟨-, rfl⟩
  apply remote?_modify
  . intro _
    rfl
  . intro _
    rfl

theorem get?_bind (hopen : t.get? id = some s)
    : (t.bind id a).get? j =
        (t.get? j).map fun u =>
          if u.id = id then { u with remote := some a }
          else if s.remote ≠ some a ∧ t.byEndpoint? a = some u.id then { u with remote := none }
          else u := by
  unfold bind
  rw [hopen]
  unfold get?
  dsimp only
  rw [find?_map_sessions, lookup_unindex]
  . congr 1
    funext u
    congr 2
    unfold byEndpoint?
    split
    . next h => simp [← h]
    . next h => simp [Ne.symm h, eq_comm]
  . intro u
    split
    . rfl
    . split <;> rfl

theorem byEndpoint?_bind (hopen : t.get? id = some s)
    : (t.bind id a).byEndpoint? b =
        if b = a then some id else if some b = s.remote then none else t.byEndpoint? b := by
  unfold bind
  rw [hopen]
  unfold byEndpoint?
  dsimp only
  rw [lookup_cons, lookup_unindex, lookup_unindex]
  simp only [Option.some.injEq]
  split
  . rfl
  . rfl

theorem bind_of_get?_eq_none (h : t.get? id = none) : t.bind id a = t := by
  unfold bind
  rw [h]

end SessionTable

end Intercom
