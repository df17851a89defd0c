import Mathlib
import Intercom.Proofs.Relay.KeyHistory

/-!
This module contains that each open session was opened by exactly one event of a run: no id is given out
twice, also not after its session was closed.
-/

namespace Intercom.Relay

def Opens (r : Relay) (e : Event) (id : SessionId) : Prop :=
  e = .openSession ∧ ∃ info, r.openSession.1 = .ok info ∧ info.id = id

section Steps

variable {r : Relay} {e : Event} {id : SessionId}

theorem openSession_eq_ok {info : SessionInfo} (h : r.openSession.1 = .ok info)
    : ∃ table, r.table.openSession r.settings = .ok (info, table) ∧ r.openSession.2.table = table := by
  unfold Relay.openSession at h ⊢
  split at h
  . simp at h
  . next other table hopen =>
    rw [Except.ok.injEq] at h
    rw [hopen, ← h]
    exact ⟨table, rfl, rfl⟩

theorem Opens.unused (h : r.table.WellFormed) (hopens : Opens r e id) : r.core.Unused id := by
  rcases hopens with ⟨-, info, hinfo, rfl⟩
  rcases openSession_eq_ok hinfo with ⟨table, hopen, -⟩
  exact ⟨info.id, (h.security?_openSession hopen).1, UInt32.le_refl _⟩

theorem Opens.used (h : r.table.WellFormed) (hopens : Opens r e id) : ¬ (r.step e).core.Unused id := by
  rcases hopens with ⟨rfl, info, hinfo, rfl⟩
  rcases openSession_eq_ok hinfo with ⟨table, hopen, htable⟩
  intro hunused
  rcases hunused with ⟨next, hnext, hle⟩
  have hafter : (r.step .openSession).core.nextId = info.id.next? := by
    have hcore : (r.step .openSession).core.nextId = r.openSession.2.table.nextId := rfl
    rw [hcore, htable, (h.security?_openSession hopen).2.1]
  rw [hafter] at hnext
  exact UInt32.not_le.2 (SessionId.next?_eq_some hnext).1 hle

theorem get?_openSession {info : SessionInfo} (h : r.table.WellFormed) (hinfo : r.openSession.1 = .ok info)
    (hold : r.table.get? id = none) (hnew : r.openSession.2.table.get? id ≠ none) : info.id = id := by
  rcases openSession_eq_ok hinfo with ⟨table, hopen, htable⟩
  rw [get?_eq_none_iff] at hold
  rw [htable, ne_eq, ← SessionTable.security?_eq_none_iff, (h.security?_openSession hopen).2.2,
    Function.update_apply] at hnew
  by_contra hne
  rw [if_neg (Ne.symm hne)] at hnew
  exact hnew hold

namespace Transition

variable {c : Core}

theorem sessions_update {s before : Security} {j : SessionId} (hbefore : r.core.sessions j = some before)
    (hopen : Function.update r.core.sessions j (some s) id ≠ none) : r.core.sessions id ≠ none := by
  rw [Function.update_apply] at hopen
  split at hopen
  . next hid =>
    rw [hid, hbefore]
    simp
  . exact hopen

theorem sessions (h : Transition r e c) (hopen : c.sessions id ≠ none)
    : r.core.sessions id ≠ none ∨ e = .openSession := by
  cases h with
  | still => exact .inl hopen
  | opened => exact .inr rfl
  | closed j s hs =>
    left
    unfold Core.close at hopen
    dsimp only at hopen
    rw [Function.update_apply] at hopen
    split at hopen
    . exact absurd rfl hopen
    . exact hopen
  | started octets sender j s hs => exact .inl (sessions_update hs hopen)
  | queued octets sender j s hs => exact .inl (sessions_update hs hopen)
  | advanced j number e line p =>
    left
    apply (Core.sessions_setLine r.core j id p.line).1
    exact hopen
  | delivered place x =>
    left
    rw [Core.sessions_execute] at hopen
    exact hopen
  | commanded x =>
    left
    rw [Core.sessions_execute] at hopen
    exact hopen

end Transition

theorem opens_of_new (h : r.table.WellFormed) (hold : r.table.get? id = none)
    (hnew : (r.step e).table.get? id ≠ none) : Opens r e id := by
  have hopen : (r.step e).core.sessions id ≠ none := by
    rw [ne_eq, ← get?_eq_none_iff]
    exact hnew
  rcases (transition h e).sessions hopen with hbefore | rfl
  . exact absurd (get?_eq_none_iff.1 hold) hbefore
  . have hstep : (r.step .openSession).table = r.openSession.2.table := rfl
    rw [hstep] at hnew
    cases hinfo : r.openSession.1 with
    | ok info => exact ⟨rfl, info, hinfo, get?_openSession h hinfo hold hnew⟩
    | error error =>
      rw [openSession_snd_of_error hinfo] at hnew
      exact absurd hold hnew

end Steps

section Runs

variable {r : Relay} {events : List Event} {e f : Event} {id : SessionId} {j k : Nat}

theorem exists_opens (h : r.table.WellFormed) (hfresh : r.table.get? id = none)
    (hopen : (r.run (events.take k)).table.get? id ≠ none)
    : ∃ i < k, ∃ e, events[i]? = some e ∧ Opens (r.run (events.take i)) e id := by
  rcases Trace.exists_step (P := fun r : Relay => r.table.get? id ≠ none) (by simp [hfresh]) hopen with
    ⟨i, hi, e, he, hold, hnew⟩
  refine ⟨i, hi, e, he, ?_⟩
  apply opens_of_new (run_wellFormed h (events.take i)).1 (not_not.1 hold) hnew

theorem opens_later (h : r.table.WellFormed) (he : events[j]? = some e)
    (hj : Opens (r.run (events.take j)) e id) (hlt : j < k) : ¬ Opens (r.run (events.take k)) f id := by
  have hwf : ∀ i, (r.run (events.take i)).table.WellFormed := fun i => (run_wellFormed h (events.take i)).1
  have hused : ¬ (r.run (events.take (j + 1))).core.Unused id := by
    rw [run_take_succ he]
    apply hj.used (hwf j)
  have hlater : ¬ (r.run (events.take k)).core.Unused id := by
    apply Trace.keeps (P := fun r : Relay => ¬ r.core.Unused id) _ hlt hused
    intro i x _ hbefore hafter
    exact hbefore ((transition (hwf i) x).unused hafter)
  intro hk
  exact hlater (hk.unused (hwf k))

theorem opens_once (h : r.table.WellFormed) (he : events[j]? = some e) (hf : events[k]? = some f)
    (hj : Opens (r.run (events.take j)) e id) (hk : Opens (r.run (events.take k)) f id) : j = k := by
  rcases Nat.lt_trichotomy j k with hlt | heq | hlt
  . exact absurd hk (opens_later h he hj hlt)
  . exact heq
  . exact absurd hj (opens_later h hf hk hlt)

end Runs

end Intercom.Relay
