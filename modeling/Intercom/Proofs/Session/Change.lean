import Mathlib
import Intercom.Proofs.Session.InPlace
import Intercom.Proofs.Session.Index

/-!
This module contains what any operation does to the ids and the names in the table of sessions: a session comes
in with the next id and the first free name, or it goes out and leaves its name behind the free ones, or both
stay as they are.
-/

namespace Intercom.SessionTable

variable {t u v : SessionTable} {s : Session} {id : SessionId} {fresh : Option SessionId} {ids : List SessionId}
variable {settings : Handshake.Settings} {info : SessionInfo} {e : SessionError}

structure Alike (t u : SessionTable) : Prop where
  infos : u.sessions.map Session.info = t.sessions.map Session.info
  nextId : u.nextId = t.nextId
  names : u.names = t.names

/-- One change of a table, with the id that a new session gets. -/
inductive Change (t : SessionTable) : Option SessionId → SessionTable → Prop where
  | opened {settings : Handshake.Settings} {info : SessionInfo} {u : SessionTable}
      (h : t.openSession settings = .ok (info, u)) : Change t (some info.id) u
  | closed {id : SessionId} {s : Session} {u : SessionTable}
      (h : t.close? id = some (s, u)) : Change t none u
  | alike {u : SessionTable} (h : Alike t u) : Change t none u

/-- Changes one after the other, with all ids that new sessions get. -/
inductive Changes : SessionTable → List SessionId → SessionTable → Prop where
  | refl (t : SessionTable) : Changes t [] t
  | step {t u v : SessionTable} {fresh : Option SessionId} {ids : List SessionId}
      (hwf : t.WellFormed) (h : Change t fresh u) (rest : Changes u ids v) : Changes t (fresh.toList ++ ids) v

def opened? (t : SessionTable) : Op → Option SessionId
  | .openSession settings =>
    match t.openSession settings with
    | .ok (info, _) => some info.id
    | .error _ => none
  | .close _ | .setIce _ _ | .bind _ _ => none

/-- The ids that new sessions get, one operation after the other. -/
def given (t : SessionTable) : List Op → List SessionId
  | [] => []
  | op :: ops => (t.opened? op).toList ++ (t.step op).given ops

section Operations

theorem Alike.refl (t : SessionTable) : Alike t t :=
  ⟨rfl, rfl, rfl⟩

theorem Alike.trans (h : Alike t u) (h' : Alike u v) : Alike t v := by
  constructor
  . rw [h'.infos, h.infos]
  . rw [h'.nextId, h.nextId]
  . rw [h'.names, h.names]

theorem alike_map (f : Session → Session) (hf : ∀ s, (f s).info = s.info)
    (endpoints : List (Endpoint × SessionId)) : Alike t { t with sessions := t.sessions.map f, endpoints } := by
  constructor
  . rw [List.map_map]
    congr 1
    funext s
    apply hf
  . rfl
  . rfl

theorem alike_modify (f : Session → Session) (hf : ∀ s, (f s).info = s.info) : Alike t (t.modify id f) := by
  apply alike_map
  intro s
  split
  . apply hf
  . rfl

theorem alike_bind (t : SessionTable) (id : SessionId) (a : Endpoint) : Alike t (t.bind id a) := by
  unfold bind
  split
  . apply Alike.refl
  . apply alike_map
    intro s
    split
    . rfl
    . split
      . rfl
      . rfl

theorem change_step (t : SessionTable) (op : Op) : Change t (t.opened? op) (t.step op) := by
  cases op with
  | openSession settings =>
    unfold step opened?
    dsimp only
    cases hopen : t.openSession settings with
    | ok opened =>
      rcases opened with ⟨info, u⟩
      exact .opened hopen
    | error e => exact .alike (.refl t)
  | close id =>
    unfold step
    dsimp only
    split
    . next s u hclose => exact .closed hclose
    . exact .alike (.refl t)
  | setIce id ice =>
    unfold step
    dsimp only
    split
    . next u hice =>
      rw [(setIce_eq_ok hice).2]
      apply Change.alike
      apply alike_modify
      intro s
      rfl
    . exact .alike (.refl t)
  | bind id a => exact .alike (alike_bind t id a)

theorem changes_foldl_step (h : t.WellFormed) (ops : List Op) : Changes t (t.given ops) (ops.foldl step t) := by
  induction ops generalizing t with
  | nil => exact .refl t
  | cons op ops ih => exact .step h (change_step t op) (ih (h.step op))

theorem changes_run (names : NamePool) (ops : List Op)
    : Changes { names } (({ names } : SessionTable).given ops) (run names ops) :=
  changes_foldl_step (.empty names) ops

theorem openSession_eq_error_iff (t : SessionTable) (settings : Handshake.Settings)
    : (∃ e, t.openSession settings = .error e) ↔ t.names.free = [] ∨ t.nextId = none := by
  unfold openSession NamePool.take?
  cases t.nextId with
  | none => simp
  | some id =>
    cases t.names.free with
    | nil => simp
    | cons name free => simp

theorem unchanged_of_openSession_eq_error (h : t.openSession settings = .error e)
    : t.step (.openSession settings) = t ∧ (InPlace.openSession settings).run t = .error e t := by
  unfold step
  dsimp only
  rw [InPlace.openSession_run, h]
  exact ⟨rfl, rfl⟩

theorem unchanged_of_get?_eq_none (h : t.get? id = none)
    : t.step (.close id) = t ∧ (InPlace.close id).run t = .error (.notFound id) t := by
  rw [← close?_eq_none_iff] at h
  unfold step
  dsimp only
  rw [InPlace.close_run, h]
  exact ⟨rfl, rfl⟩

end Operations

section Names

def allNames (t : SessionTable) : List String :=
  t.sessions.map (·.name) ++ t.names.free

theorem Alike.allNames_eq (h : Alike t u) : u.allNames = t.allNames := by
  have hnames := congrArg (List.map SessionInfo.name) h.infos
  rw [List.map_map, List.map_map] at hnames
  unfold allNames
  rw [h.names]
  exact congrArg (· ++ t.names.free) hnames

theorem allNames_openSession (h : t.openSession settings = .ok (info, u)) : u.allNames = t.allNames := by
  rcases openSession_eq_ok h with ⟨id, name, names, -, htake, -, rfl⟩
  have hfree : t.names.free = name :: names.free := by
    unfold NamePool.take? at htake
    split at htake
    . simp at htake
    . next hfree =>
      rw [Option.some.injEq, Prod.mk.injEq] at htake
      rw [hfree, htake.1, ← htake.2]
  unfold allNames
  rw [hfree, List.map_append]
  simp

/-- A session that goes out is the only one with its id. -/
theorem WellFormed.perm_filter (h : t.WellFormed) (hget : t.get? id = some s)
    : t.sessions.Perm (s :: t.sessions.filter (·.id ≠ id)) := by
  have hfind := hget
  unfold get? at hfind
  rw [List.find?_eq_some_iff_append] at hfind
  rcases hfind with ⟨hs, before, after, hsessions, hbefore⟩
  have hafter : ∀ u ∈ after, u.id ≠ id := by
    intro u hu heq
    have hascending := h.ascending
    unfold ids at hascending
    rw [hsessions, List.map_append, List.pairwise_append, List.map_cons, List.pairwise_cons] at hascending
    have hlt := hascending.2.1.1 u.id (List.mem_map_of_mem hu)
    rw [heq, ← of_decide_eq_true hs] at hlt
    exact UInt32.lt_irrefl _ hlt
  have hfilter : t.sessions.filter (·.id ≠ id) = before ++ after := by
    rw [hsessions, List.filter_append, List.filter_cons_of_neg, List.filter_eq_self.2, List.filter_eq_self.2]
    . intro u hu
      exact decide_eq_true (hafter u hu)
    . intro u hu
      simpa using hbefore u hu
    . simpa using hs
  rw [hfilter, hsessions]
  apply List.perm_middle

theorem allNames_close? (h : t.WellFormed) (hclose : t.close? id = some (s, u)) : u.allNames.Perm t.allNames := by
  rcases close?_eq_some hclose with ⟨hget, rfl⟩
  have hnames := (h.perm_filter hget).map (·.name)
  rw [List.map_cons] at hnames
  unfold allNames NamePool.give
  dsimp only
  rw [← List.append_assoc]
  apply (List.perm_append_singleton _ _).trans
  exact (hnames.append_right t.names.free).symm

theorem infos_openSession (h : t.openSession settings = .ok (info, u))
    : u.sessions.map Session.info = t.sessions.map Session.info ++ [info] := by
  rcases openSession_eq_ok h with ⟨id, name, names, -, -, rfl, rfl⟩
  dsimp only
  rw [List.map_append]
  rfl

theorem perm_infos_close? (h : t.WellFormed) (hclose : t.close? id = some (s, u))
    : (t.sessions.map Session.info).Perm (s.info :: u.sessions.map Session.info) := by
  rcases close?_eq_some hclose with ⟨hget, rfl⟩
  exact (h.perm_filter hget).map Session.info

theorem get?_of_mem_infos (h : t.WellFormed) (hinfo : info ∈ t.sessions.map Session.info)
    : ∃ s, t.get? info.id = some s ∧ s.info = info := by
  rw [List.mem_map] at hinfo
  rcases hinfo with ⟨s, hs, rfl⟩
  exact ⟨s, h.get?_of_mem hs, rfl⟩

theorem Change.perm_allNames (h : Change t fresh u) (hwf : t.WellFormed) : u.allNames.Perm t.allNames := by
  cases h with
  | opened h => rw [allNames_openSession h]
  | closed h => exact allNames_close? hwf h
  | alike h => rw [h.allNames_eq]

theorem Changes.perm_allNames (h : Changes t ids u) : u.allNames.Perm t.allNames := by
  induction h with
  | refl => rfl
  | step hwf h rest ih => exact ih.trans (h.perm_allNames hwf)

end Names

section Ids

/-- An id that is given out or skipped: the next one is greater, if there is one. -/
def Spent (t : SessionTable) (id : SessionId) : Prop :=
  ∀ next, t.nextId = some next → id.value < next.value

theorem spent_of_none (h : t.nextId = none) : t.Spent id := by
  intro next hnext
  rw [h] at hnext
  simp at hnext

theorem spent_last_iff : t.Spent ⟨0xFFFFFFFF⟩ ↔ t.nextId = none := by
  constructor
  . intro h
    cases hnext : t.nextId with
    | none => rfl
    | some next =>
      have hlt := h next hnext
      rw [UInt32.lt_iff_toNat_lt] at hlt
      have := next.value.toNat_lt
      change 0xFFFFFFFF < next.value.toNat at hlt
      omega
  . exact spent_of_none

theorem spent_of_openSession (h : t.openSession settings = .ok (info, u)) : u.Spent info.id := by
  rcases openSession_eq_ok h with ⟨id, name, names, -, -, rfl, rfl⟩
  intro next hnext
  exact (SessionId.next?_eq_some hnext).1

theorem Spent.lt_of_openSession (hid : t.Spent id) (h : t.openSession settings = .ok (info, u))
    : id.value < info.id.value := by
  rcases openSession_eq_ok h with ⟨next, name, names, hnext, -, rfl, -⟩
  exact hid next hnext

theorem Spent.change (hid : t.Spent id) (h : Change t fresh u)
    : u.Spent id ∧ ∀ new ∈ fresh, id.value < new.value := by
  cases h with
  | opened h =>
    have hlt := hid.lt_of_openSession h
    constructor
    . intro next hnext
      exact UInt32.lt_trans hlt (spent_of_openSession h next hnext)
    . intro new hnew
      rw [← Option.mem_some.1 hnew]
      exact hlt
  | closed h =>
    rw [(close?_eq_some h).2]
    exact ⟨hid, by simp⟩
  | alike h =>
    unfold Spent
    rw [h.nextId]
    exact ⟨hid, by simp⟩

theorem Spent.changes (hid : t.Spent id) (h : Changes t ids u)
    : u.Spent id ∧ ∀ new ∈ ids, id.value < new.value := by
  induction h with
  | refl => exact ⟨hid, by simp⟩
  | step hwf h rest ih =>
    rcases hid.change h with ⟨hafter, hfresh⟩
    rcases ih hafter with ⟨hlast, hrest⟩
    refine ⟨hlast, ?_⟩
    intro new hnew
    rw [List.mem_append, Option.mem_toList] at hnew
    cases hnew with
    | inl hnew => exact hfresh new hnew
    | inr hnew => exact hrest new hnew

theorem Changes.spent (h : Changes t ids u) : ∀ id ∈ ids, u.Spent id := by
  induction h with
  | refl => simp
  | step hwf h rest ih =>
    intro id hid
    rw [List.mem_append, Option.mem_toList] at hid
    cases hid with
    | inl hid =>
      cases h with
      | opened h =>
        rw [← Option.mem_some.1 hid]
        exact ((spent_of_openSession h).changes rest).1
      | closed h => simp at hid
      | alike h => simp at hid
    | inr hid => exact ih id hid

end Ids

end Intercom.SessionTable
