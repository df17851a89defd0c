import Mathlib
import Intercom.Proofs.Session.Change

/-!
This module contains that ids are given out in ascending order and never a second time. When the last one is given
out no session can be opened any more.
-/

namespace Intercom.SessionTable

variable {t u : SessionTable} {id : SessionId} {ids : List SessionId} {names : NamePool}
variable {settings : Handshake.Settings} {info : SessionInfo} {n : Nat}

/-- What holds of a table when `given` are the ids that were given out so far. -/
structure NeverReused (given : List SessionId) (t : SessionTable) : Prop where
  fresh : ∀ settings info u, t.openSession settings = .ok (info, u) →
    SessionId.base.value ≤ info.id.value ∧ ∀ id ∈ given, id.value < info.id.value
  above : ∀ next, t.nextId = some next → ∀ id ∈ t.ids, id.value < next.value
  exhausted : ⟨0xFFFFFFFF⟩ ∈ given → ∀ settings,
    t.openSession settings = .error .noneFree ∧ t.step (.openSession settings) = t ∧
      (InPlace.openSession settings).run t = .error .noneFree t
  ascending : t.ids.Pairwise (·.value < ·.value)

theorem openSession_of_nextId_eq_none (h : t.nextId = none) : t.openSession settings = .error .noneFree := by
  unfold openSession
  rw [h]

theorem spent_below_base (names : NamePool) : ({ names } : SessionTable).Spent ⟨0x10000000⟩ := by
  intro next hnext
  rw [← Option.some.inj hnext]
  decide

theorem base_le_of_lt (h : (0x10000000 : UInt32) < id.value) : SessionId.base.value ≤ id.value := by
  rw [UInt32.lt_iff_toNat_lt] at h
  rw [UInt32.le_iff_toNat_le]
  exact h

theorem Changes.neverReused (h : Changes { names } ids t) (hwf : t.WellFormed) : NeverReused ids t := by
  constructor
  . intro settings info u hopen
    constructor
    . apply base_le_of_lt
      exact ((spent_below_base names).changes h).1.lt_of_openSession hopen
    . intro id hid
      exact (h.spent id hid).lt_of_openSession hopen
  . intro next hnext id hid
    exact hwf.below id hid next hnext
  . intro hlast settings
    have hnone : t.openSession settings = .error .noneFree := by
      apply openSession_of_nextId_eq_none
      rw [← spent_last_iff]
      exact h.spent _ hlast
    exact ⟨hnone, unchanged_of_openSession_eq_error hnone⟩
  . exact hwf.ascending

section Exhaustion

theorem given_append (t : SessionTable) (front rest : List Op)
    : t.given (front ++ rest) = t.given front ++ (front.foldl step t).given rest := by
  induction front generalizing t with
  | nil => rfl
  | cons op front ih =>
    rw [List.cons_append, given, given, ih, List.append_assoc]
    rfl

theorem openSession_of_free (hid : t.nextId = some id) (hfree : t.names.free ≠ [])
    : ∃ info u, t.openSession {} = .ok (info, u) ∧ info.id = id ∧ u.nextId = id.next? ∧ u.get? id ≠ none := by
  cases hopen : t.openSession {} with
  | error e =>
    have hwhy := (openSession_eq_error_iff t {}).1 ⟨e, hopen⟩
    rw [hid] at hwhy
    simp [hfree] at hwhy
  | ok opened =>
    rcases opened with ⟨info, u⟩
    rcases openSession_eq_ok hopen with ⟨id', name, names, hid', -, rfl, hu⟩
    rw [hid, Option.some.injEq] at hid'
    rw [← hid'] at hu ⊢
    refine ⟨_, _, rfl, rfl, ?_, ?_⟩
    . rw [hu]
    . let session : Session := { id, name, line := { settings := {} } }
      apply get?_ne_none_of_mem (s := session)
      rw [hu]
      simp [session]

/-- Opening a session and closing it again uses up an id but no name. -/
theorem round_of_free (hid : t.nextId = some id) (hfree : t.names.free ≠ [])
    : ((t.step (.openSession {})).step (.close id)).nextId = id.next? ∧
      ((t.step (.openSession {})).step (.close id)).names.free ≠ [] := by
  rcases openSession_of_free hid hfree with ⟨info, u, hopen, -, hnext, hget⟩
  have hstep : t.step (.openSession {}) = u := by
    unfold step
    dsimp only
    rw [hopen]
  rw [hstep]
  unfold step
  dsimp only
  split
  . next s v hclose =>
    rw [(close?_eq_some hclose).2]
    refine ⟨hnext, ?_⟩
    unfold NamePool.give
    simp
  . next hclose =>
    rw [close?_eq_none_iff] at hclose
    exact absurd hclose hget

-- The induction is on the number of ids that were used up.
theorem exists_nextId_eq (hfree : names.free ≠ []) (hn : SessionId.base.value.toNat + n < UInt32.size)
    : ∃ ops next,
        (run names ops).nextId = some next ∧ next.value.toNat = SessionId.base.value.toNat + n ∧
        (run names ops).names.free ≠ [] := by
  induction n with
  | zero => exact ⟨[], .base, rfl, rfl, hfree⟩
  | succ n ih =>
    rcases ih (by omega) with ⟨ops, id, hid, hvalue, hsome⟩
    have hround := round_of_free hid hsome
    have hnext : id.next? = some ⟨id.value + 1⟩ := by
      unfold SessionId.next?
      rw [if_pos]
      rw [UInt32.lt_iff_toNat_lt]
      change id.value.toNat < 4294967295
      unfold UInt32.size at hn
      omega
    rw [hnext] at hround
    refine ⟨ops ++ [.openSession {}, .close id], ⟨id.value + 1⟩, ?_, ?_, ?_⟩
    . unfold run
      rw [List.foldl_append]
      exact hround.1
    . rw [UInt32.toNat_add, Nat.mod_eq_of_lt]
      . rw [hvalue]
        rfl
      . rw [hvalue]
        exact hn
    . unfold run
      rw [List.foldl_append]
      exact hround.2

/-- Every id is given out in some run if there is a name at all. -/
theorem exists_mem_given (hfree : names.free ≠ []) (hid : SessionId.base.value ≤ id.value)
    : ∃ ops, id ∈ ({ names } : SessionTable).given ops := by
  rw [UInt32.le_iff_toNat_le] at hid
  have hsum : SessionId.base.value.toNat + (id.value.toNat - SessionId.base.value.toNat) = id.value.toNat := by
    omega
  have hlt : SessionId.base.value.toNat + (id.value.toNat - SessionId.base.value.toNat) < UInt32.size := by
    rw [hsum]
    exact id.value.toNat_lt
  rcases exists_nextId_eq hfree hlt with ⟨ops, next, hnext, hvalue, hsome⟩
  rw [hsum] at hvalue
  have hsame : next = id := congrArg SessionId.mk (UInt32.toNat_inj.1 hvalue)
  rw [hsame] at hnext
  rcases openSession_of_free hnext hsome with ⟨info, u, hopen, hinfo, -, -⟩
  refine ⟨ops ++ [.openSession {}], ?_⟩
  rw [given_append, List.mem_append]
  right
  unfold run at hopen
  simp [given, opened?, hopen, hinfo]

end Exhaustion

end Intercom.SessionTable
