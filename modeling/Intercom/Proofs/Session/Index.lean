import Mathlib
import Intercom.Proofs.Session.Lookup

/-!
This module contains the invariant of the table of sessions: ids ascend and are below the next one, and
the index from endpoints to sessions says exactly where sessions are bound. It holds after every
sequence of operations.
-/

namespace Intercom.SessionTable

variable {t u : SessionTable} {s : Session} {id j : SessionId} {a b : Endpoint}

def ids (t : SessionTable) : List SessionId :=
  t.sessions.map (·.id)

structure WellFormed (t : SessionTable) : Prop where
  ascending : t.ids.Pairwise (·.value < ·.value)
  below : ∀ i ∈ t.ids, ∀ next, t.nextId = some next → i.value < next.value
  indexed : ∀ a i, t.byEndpoint? a = some i ↔ t.remote? i = some a

-- The order of the index is no part of a table, only what is found in it.
structure Same (t u : SessionTable) : Prop where
  sessions : t.sessions = u.sessions
  nextId : t.nextId = u.nextId
  names : t.names = u.names
  byEndpoint? : ∀ a, t.byEndpoint? a = u.byEndpoint? a

namespace WellFormed

theorem get?_of_mem (h : t.WellFormed) (hs : s ∈ t.sessions) : t.get? s.id = some s := by
  cases hget : t.get? s.id with
  | none => exact absurd hget (get?_ne_none_of_mem hs)
  | some u =>
    have hnodup : (t.sessions.map (·.id)).Nodup := by
      apply List.Pairwise.imp _ h.ascending
      intro i j hlt heq
      rw [heq] at hlt
      exact UInt32.lt_irrefl _ hlt
    have := List.inj_on_of_nodup_map hnodup (mem_of_get? hget) hs (id_of_get? hget)
    rw [this]

theorem eq_of_id_eq (h : t.WellFormed) {s u : Session} (hs : s ∈ t.sessions) (hu : u ∈ t.sessions)
    (hid : s.id = u.id) : s = u := by
  have hget := h.get?_of_mem hs
  rw [hid, h.get?_of_mem hu] at hget
  exact (Option.some.inj hget).symm

theorem modify_congr (h : t.WellFormed) (hs : s ∈ t.sessions) {f g : Session → Session} (heq : f s = g s)
    : t.modify s.id f = t.modify s.id g := by
  have hmap : ∀ u ∈ t.sessions, (if u.id = s.id then f u else u) = if u.id = s.id then g u else u := by
    intro u hu
    by_cases hid : u.id = s.id
    . rw [h.eq_of_id_eq hu hs hid, heq]
    . rw [if_neg hid, if_neg hid]
  unfold SessionTable.modify
  rw [List.map_congr_left hmap]

theorem modify_of_eq (h : t.WellFormed) (hs : s ∈ t.sessions) {f : Session → Session} (heq : f s = s)
    : t.modify s.id f = t := by
  rw [h.modify_congr hs (g := id) heq]
  unfold SessionTable.modify
  simp

theorem eq_of_remote_eq (h : t.WellFormed) {s u : Session} (hs : s ∈ t.sessions) (hu : u ∈ t.sessions)
    (hsa : s.remote = some a) (hua : u.remote = some a) : s = u := by
  have hsr : t.remote? s.id = some a := remote?_eq_some_iff.2 ⟨s, h.get?_of_mem hs, hsa⟩
  have hur : t.remote? u.id = some a := remote?_eq_some_iff.2 ⟨u, h.get?_of_mem hu, hua⟩
  rw [← h.indexed] at hsr hur
  exact h.eq_of_id_eq hs hu (Option.some.inj (hsr.symm.trans hur))

theorem empty (names : NamePool) : ({ names } : SessionTable).WellFormed := by
  constructor
  . simp [ids]
  . simp [ids]
  . simp [byEndpoint?, remote?, get?]

theorem modify (h : t.WellFormed) (f : Session → Session) (hf : ∀ s, (f s).id = s.id)
    (hremote : ∀ s, (f s).remote = s.remote) : (t.modify id f).WellFormed := by
  have hids : (t.modify id f).ids = t.ids := by
    unfold ids SessionTable.modify
    rw [List.map_map]
    congr 1
    funext s
    dsimp
    split
    . apply hf
    . rfl
  constructor
  . rw [hids]
    exact h.ascending
  . rw [hids]
    exact h.below
  . intro a i
    rw [byEndpoint?_modify, remote?_modify f hf hremote]
    apply h.indexed

theorem get?_nextId (h : t.WellFormed) (hid : t.nextId = some id) : t.get? id = none := by
  cases hget : t.get? id with
  | none => rfl
  | some s =>
    have hmem : id ∈ t.ids := by
      rw [← id_of_get? hget]
      exact List.mem_map_of_mem (mem_of_get? hget)
    exact absurd (h.below id hmem id hid) (UInt32.lt_irrefl _)

theorem remote?_openSession (h : t.WellFormed) {settings : Handshake.Settings} {info : SessionInfo}
    (hopen : t.openSession settings = .ok (info, u)) : u.remote? j = t.remote? j := by
  rcases openSession_eq_ok hopen with ⟨id, name, names, hid, -, -, rfl⟩
  have hnone := h.get?_nextId hid
  unfold remote? get?
  dsimp only
  rw [List.find?_append]
  by_cases hj : j = id
  . unfold get? at hnone
    simp [hj, hnone]
  . simp [Ne.symm hj]

theorem openSession (h : t.WellFormed) {settings : Handshake.Settings} {info : SessionInfo}
    (hopen : t.openSession settings = .ok (info, u)) : u.WellFormed := by
  have hremote := fun j => h.remote?_openSession hopen (j := j)
  rcases openSession_eq_ok hopen with ⟨id, name, names, hid, -, -, rfl⟩
  constructor
  . unfold ids
    rw [List.map_append, List.pairwise_append]
    refine ⟨h.ascending, by simp, ?_⟩
    intro i hi j hj
    simp only [List.map_cons, List.map_nil, List.mem_singleton] at hj
    rw [hj]
    exact h.below i hi id hid
  . intro i hi next hnext
    rcases SessionId.next?_eq_some hnext with ⟨hlt, rfl⟩
    unfold ids at hi
    rw [List.map_append, List.mem_append] at hi
    cases hi with
    | inl hi => exact UInt32.lt_trans (h.below i hi id hid) hlt
    | inr hi =>
      simp only [List.map_cons, List.map_nil, List.mem_singleton] at hi
      rw [hi]
      exact hlt
  . intro a i
    rw [hremote]
    apply h.indexed

theorem close? (h : t.WellFormed) (hclose : t.close? id = some (s, u)) : u.WellFormed := by
  have hremote := fun j => remote?_close? hclose (j := j)
  have hindex := fun a => byEndpoint?_close? hclose (a := a)
  rcases close?_eq_some hclose with ⟨-, rfl⟩
  have hsub : (t.sessions.filter (·.id ≠ id)).map (·.id) ⊆ t.ids :=
    List.map_subset _ (List.filter_subset_self _)
  constructor
  . exact h.ascending.sublist (List.Sublist.map _ List.filter_sublist)
  . intro i hi
    exact h.below i (hsub hi)
  . intro a i
    rw [hremote, hindex]
    have hthis := h.indexed a id
    have hother := h.indexed a i
    grind

theorem setIce (h : t.WellFormed) {ice : IceParameters} (hice : t.setIce id ice = .ok u)
    : u.WellFormed := by
  rcases setIce_eq_ok hice with ⟨-, rfl⟩
  apply h.modify
  . intro _
    rfl
  . intro _
    rfl

theorem remote?_bind (h : t.WellFormed) (hopen : t.get? id = some s)
    : (t.bind id a).remote? j =
        if j = id then some a else if t.remote? j = some a then none else t.remote? j := by
  unfold remote?
  rw [get?_bind hopen, Option.bind_map]
  cases hget : t.get? j with
  | none =>
    have hj : j ≠ id := by
      intro heq
      rw [heq, hopen] at hget
      simp at hget
    simp [hj]
  | some v =>
    have hv := id_of_get? hget
    have hindexed := h.indexed a j
    have hindexed' := h.indexed a id
    unfold remote? at hindexed hindexed'
    rw [hget] at hindexed
    rw [hopen] at hindexed'
    simp only [Option.bind_some, Function.comp_apply] at hindexed hindexed' ⊢
    rw [hv]
    grind

theorem bind (h : t.WellFormed) : (t.bind id a).WellFormed := by
  cases hopen : t.get? id with
  | none =>
    rw [bind_of_get?_eq_none hopen]
    exact h
  | some s =>
    have hids : (t.bind id a).ids = t.ids := by
      unfold SessionTable.bind ids
      rw [hopen]
      dsimp only
      rw [List.map_map]
      congr 1
      funext u
      dsimp
      split
      . rfl
      . split <;> rfl
    have hnext : (t.bind id a).nextId = t.nextId := by
      unfold SessionTable.bind
      rw [hopen]
    constructor
    . rw [hids]
      exact h.ascending
    . rw [hids, hnext]
      exact h.below
    . intro b i
      rw [byEndpoint?_bind hopen, h.remote?_bind hopen]
      have hthis := h.indexed b id
      have hother := h.indexed b i
      have hrobbed := h.indexed a i
      have hs : t.remote? id = s.remote := by
        unfold remote?
        rw [hopen]
        rfl
      grind

theorem bind_same (h : t.WellFormed) (hopen : t.get? id = some s) (hremote : s.remote = some a)
    : (t.bind id a).Same t := by
  constructor
  . unfold SessionTable.bind
    rw [hopen]
    dsimp only
    rw [lookup_unindex, hremote]
    conv_rhs => rw [← List.map_id t.sessions]
    apply List.map_congr_left
    intro u hu
    split
    . next hid =>
      -- The only session with this id already has the endpoint.
      have hget := h.get?_of_mem hu
      rw [hid, hopen] at hget
      simp only [Option.some.injEq] at hget
      rw [← hget, ← hremote]
      rfl
    . simp
  . unfold SessionTable.bind
    rw [hopen]
  . unfold SessionTable.bind
    rw [hopen]
  . intro b
    rw [byEndpoint?_bind hopen, hremote]
    have hindexed : t.byEndpoint? a = some id := by
      rw [h.indexed, remote?_eq_some_iff]
      exact ⟨s, hopen, hremote⟩
    split
    . next hb =>
      rw [hb, hindexed]
    . next hb => simp [hb]

theorem byUfrag?_eq_some (h : t.WellFormed) {ufrag : String} (hfound : t.byUfrag? ufrag = some id)
    : ∃ s,
        t.get? id = some s ∧ s.ufrag? = some ufrag ∧
        ∀ other ∈ t.sessions, other.ufrag? = some ufrag → id.value ≤ other.id.value := by
  unfold byUfrag? at hfound
  rw [Option.map_eq_some_iff] at hfound
  rcases hfound with ⟨s, hfind, hid⟩
  rw [List.find?_eq_some_iff_append] at hfind
  rcases hfind with ⟨hs, before, after, hsessions, hbefore⟩
  have hmem : s ∈ t.sessions := by
    rw [hsessions]
    simp
  refine ⟨s, ?_, (s.any_ufrag_iff ufrag).1 hs, ?_⟩
  . rw [← hid]
    exact h.get?_of_mem hmem
  . intro other hother hufrag
    rw [hsessions, List.mem_append, List.mem_cons] at hother
    rcases hother with hother | hother | hother
    . have := hbefore other hother
      rw [(other.any_ufrag_iff ufrag).2 hufrag] at this
      simp at this
    . rw [hother, hid]
      exact UInt32.le_refl _
    . have hascending := h.ascending
      unfold ids at hascending
      rw [hsessions, List.map_append, List.pairwise_append, List.map_cons, List.pairwise_cons] at hascending
      have hlt := hascending.2.1.1 other.id (List.mem_map_of_mem hother)
      rw [← hid]
      exact UInt32.le_of_lt hlt

end WellFormed

inductive Op where
  | openSession (settings : Handshake.Settings)
  | close (id : SessionId)
  | setIce (id : SessionId) (ice : IceParameters)
  | bind (id : SessionId) (endpoint : Endpoint)

/-- A failed operation changes nothing. -/
def step (t : SessionTable) : Op → SessionTable
  | .openSession settings =>
    match t.openSession settings with
    | .ok (_, u) => u
    | .error _ => t
  | .close id =>
    match t.close? id with
    | some (_, u) => u
    | none => t
  | .setIce id ice =>
    match t.setIce id ice with
    | .ok u => u
    | .error _ => t
  | .bind id endpoint => t.bind id endpoint

def run (names : NamePool) (ops : List Op) : SessionTable :=
  ops.foldl step { names }

theorem WellFormed.step (h : t.WellFormed) (op : Op) : (t.step op).WellFormed := by
  cases op with
  | openSession settings =>
    simp only [SessionTable.step]
    split
    . next hopen => exact h.openSession hopen
    . exact h
  | close id =>
    simp only [SessionTable.step]
    split
    . next hclose => exact h.close? hclose
    . exact h
  | setIce id ice =>
    simp only [SessionTable.step]
    split
    . next hice => exact h.setIce hice
    . exact h
  | bind id endpoint => exact h.bind

theorem WellFormed.foldl_step (h : t.WellFormed) (ops : List Op) : (ops.foldl SessionTable.step t).WellFormed := by
  induction ops generalizing t with
  | nil => exact h
  | cons op ops ih =>
    rw [List.foldl_cons]
    apply ih
    exact h.step op

theorem WellFormed.run (names : NamePool) (ops : List Op) : (run names ops).WellFormed := by
  unfold SessionTable.run
  apply WellFormed.foldl_step
  apply WellFormed.empty

-- The third to sixth part follow from the first two; they are what the receiving side relies on.
theorem byEndpoint?_run_eq_some_iff (names : NamePool) (ops : List Op)
    : let t := run names ops
      (∀ a id, t.byEndpoint? a = some id ↔ ∃ s, t.get? id = some s ∧ s.remote = some a) ∧
      (∀ id s, t.get? id = some s ↔ s ∈ t.sessions ∧ s.id = id) ∧
      (∀ s ∈ t.sessions, ∀ u ∈ t.sessions, ∀ a, s.remote = some a → u.remote = some a → s = u) ∧
      (∀ id a, t.get? id = none → t.byEndpoint? a ≠ some id) ∧
      (∀ s ∈ t.sessions, ∀ a, s.remote ≠ some a → t.byEndpoint? a ≠ some s.id) ∧
      (∀ s ∈ t.sessions, ∀ a, s.remote = some a → (t.bind s.id a).Same t) := by
  intro t
  have h : t.WellFormed := WellFormed.run names ops
  have hindexed : ∀ a id, t.byEndpoint? a = some id ↔ ∃ s, t.get? id = some s ∧ s.remote = some a := by
    intro a id
    rw [h.indexed, remote?_eq_some_iff]
  refine ⟨hindexed, ?_, ?_, ?_, ?_, ?_⟩
  . intro id s
    constructor
    . intro hget
      exact ⟨mem_of_get? hget, id_of_get? hget⟩
    . intro ⟨hs, hid⟩
      rw [← hid]
      exact h.get?_of_mem hs
  . intro s hs u hu a hsa hua
    exact h.eq_of_remote_eq hs hu hsa hua
  . intro id a hclosed hfound
    rw [hindexed] at hfound
    rcases hfound with ⟨s, hget, -⟩
    rw [hclosed] at hget
    simp at hget
  . intro s hs a hne hfound
    rw [hindexed] at hfound
    rcases hfound with ⟨u, hget, hremote⟩
    rw [h.get?_of_mem hs, Option.some.injEq] at hget
    rw [hget] at hne
    exact hne hremote
  . intro s hs a hremote
    exact h.bind_same (h.get?_of_mem hs) hremote

end Intercom.SessionTable
