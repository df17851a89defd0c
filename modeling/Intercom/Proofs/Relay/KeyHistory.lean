import Mathlib
import Intercom.Proofs.Relay.Forwarding
import Intercom.Proofs.Relay.Keys

/-!
This module contains the main statement about keys: a session gets them at most once, from a handshake that was
started for it, and keeps them; what comes for a closed session reaches nobody.
-/

namespace Intercom.Relay

open Function (update)
open Handshake (Line)

namespace Core

/-- No session has the id, nor will any get it. -/
structure Closed (c : Core) (id : SessionId) : Prop where
  sessions : c.sessions id = none
  used : ¬ c.Unused id

variable {c : Core} {id j : SessionId} {s before : Security}

theorem keys_update (later : Security) (hbefore : c.sessions j = some before) (hkeys : later.keys = before.keys)
    (hs : update c.sessions j (some later) id = some s)
    : ∃ before, c.sessions id = some before ∧ s.keys = before.keys := by
  rw [Function.update_apply] at hs
  split at hs
  . next hid =>
    rw [Option.some.injEq] at hs
    rw [hid, ← hs]
    exact ⟨before, hbefore, hkeys⟩
  . exact ⟨s, hs, rfl⟩

theorem keys_setLine {line : Line} (hs : (c.setLine j line).sessions id = some s)
    : ∃ before, c.sessions id = some before ∧ s.keys = before.keys := by
  unfold setLine at hs
  split at hs
  . dsimp only at hs
    cases hbefore : c.sessions j with
    | none =>
      rw [hbefore, Option.map_none, Function.update_apply] at hs
      split at hs
      . simp at hs
      . exact ⟨s, hs, rfl⟩
    | some before =>
      rw [hbefore] at hs
      exact keys_update { before with line } hbefore rfl hs
  . exact ⟨s, hs, rfl⟩

theorem keys_execute {x : Command} (hs : (c.execute x).sessions id = some s)
    : ∃ before, c.sessions id = some before ∧
        (s.keys = before.keys ∨
          ∃ masters, x = .install id (.ok masters) ∧ s.keys = some (.ofMasters masters)) := by
  rcases execute_cases c x with ⟨heq, -⟩ | ⟨j, masters, rfl⟩
  . rw [heq] at hs
    exact ⟨s, hs, .inl rfl⟩
  . unfold execute at hs
    dsimp only at hs
    rw [Function.update_apply] at hs
    split at hs
    . next hid =>
      rw [Option.map_eq_some_iff] at hs
      rcases hs with ⟨before, hbefore, rfl⟩
      rw [hid]
      exact ⟨before, hbefore, .inr ⟨masters, rfl, rfl⟩⟩
    . exact ⟨s, hs, .inl rfl⟩

end Core

namespace Transition

variable {r : Relay} {e : Event} {c : Core} {id : SessionId} {s : Security}

theorem unused (h : Transition r e c) (hid : c.Unused id) : r.core.Unused id := by
  cases h with
  | still => exact hid
  | opened next hnext =>
    rcases hid with ⟨later, hlater, hle⟩
    exact ⟨next, hnext, UInt32.le_trans (UInt32.le_of_lt (SessionId.next?_eq_some hlater).1) hle⟩
  | closed => exact hid
  | started => exact hid
  | queued => exact hid
  | advanced i number e line p =>
    unfold Core.Unused at hid
    dsimp only at hid
    rw [Core.nextId_setLine] at hid
    exact hid
  | delivered place x =>
    unfold Core.Unused at hid
    rw [(Core.execute_frame _ x).1] at hid
    exact hid
  | commanded x =>
    unfold Core.Unused at hid
    rw [(Core.execute_frame _ x).1] at hid
    exact hid

theorem session (h : Transition r e c) (hcommand : ∀ id outcome, e ≠ .command (.install id outcome))
    (hs : c.sessions id = some s)
    : (∃ before, r.core.sessions id = some before ∧
        (s.keys = before.keys ∨
          ∃ place masters, e = .deliver place ∧ r.core.pending[place]? = some (.install id (.ok masters)) ∧
            s.keys = some (.ofMasters masters))) ∨
      (r.core.Unused id ∧ s.keys = none) := by
  cases h with
  | still => exact .inl ⟨s, hs, .inl rfl⟩
  | opened next hnext =>
    dsimp only at hs
    rw [Function.update_apply] at hs
    split at hs
    . next hid =>
      rw [Option.some.injEq] at hs
      rw [hid, ← hs]
      exact .inr ⟨⟨next, hnext, UInt32.le_refl _⟩, rfl⟩
    . exact .inl ⟨s, hs, .inl rfl⟩
  | closed j before _ =>
    unfold Core.close at hs
    dsimp only at hs
    rw [Function.update_apply] at hs
    split at hs
    . simp at hs
    . exact .inl ⟨s, hs, .inl rfl⟩
  | started octets sender j before hbefore =>
    rcases Core.keys_update { before with line := before.line.start.2 } hbefore rfl hs with
      ⟨before, hbefore, hkeys⟩
    exact .inl ⟨before, hbefore, .inl hkeys⟩
  | queued octets sender j before hbefore =>
    rcases Core.keys_update { before with line := (before.line.enqueue octets).2 } hbefore rfl hs with
      ⟨before, hbefore, hkeys⟩
    exact .inl ⟨before, hbefore, .inl hkeys⟩
  | advanced j number e line p =>
    rcases Core.keys_setLine hs with ⟨before, hbefore, hkeys⟩
    exact .inl ⟨before, hbefore, .inl hkeys⟩
  | delivered place x hx =>
    rcases Core.keys_execute hs with ⟨before, hbefore, hkeys | ⟨masters, rfl, hkeys⟩⟩
    . exact .inl ⟨before, hbefore, .inl hkeys⟩
    . exact .inl ⟨before, hbefore, .inr ⟨place, masters, rfl, hx, hkeys⟩⟩
  | commanded x =>
    rcases Core.keys_execute hs with ⟨before, hbefore, hkeys | ⟨masters, rfl, -⟩⟩
    . exact .inl ⟨before, hbefore, .inl hkeys⟩
    . exact absurd rfl (hcommand id (.ok masters))

theorem pending {masters : Srtp.MasterPair} (h : Transition r e c)
    (hmem : .install id (.ok masters) ∈ c.pending)
    : .install id (.ok masters) ∈ r.core.pending ∨
      ∃ number step line p, e = .handshake id number step ∧ r.core.line? id = some line ∧
        line.advance number step = some p ∧ p.outcome = some (.ok masters) := by
  cases h with
  | still => exact .inl hmem
  | opened => exact .inl hmem
  | closed => exact .inl hmem
  | started => exact .inl hmem
  | queued => exact .inl hmem
  | advanced j number step line p hline hadvance =>
    dsimp only at hmem
    rw [List.mem_append, Command.install_mem_ofProgress] at hmem
    rcases hmem with hmem | ⟨rfl, houtcome⟩
    . exact .inl hmem
    . exact .inr ⟨number, step, line, p, rfl, hline, hadvance, houtcome⟩
  | delivered place x =>
    rw [(Core.execute_frame _ x).2.2] at hmem
    exact .inl (List.mem_of_mem_eraseIdx hmem)
  | commanded x =>
    rw [(Core.execute_frame _ x).2.2] at hmem
    exact .inl hmem

theorem running {line : Line} {attempt : Handshake.Attempt} (h : Transition r e c) (hsound : r.core.Sound)
    (hline : c.line? id = some line) (hattempt : attempt ∈ line.running)
    : (∃ before, r.core.line? id = some before ∧ ∃ a ∈ before.running, a.number = attempt.number) ∨
      ∃ octets sender before, e = .datagram octets sender ∧ (r.receive octets sender).1 = some id ∧
        r.core.line? id = some before ∧ before.started = attempt.number := by
  cases h with
  | still => exact .inl ⟨line, hline, attempt, hattempt, rfl⟩
  | opened next hnext =>
    rw [Core.line?_update] at hline
    split at hline
    . rw [Option.some.injEq] at hline
      rw [← hline] at hattempt
      simp at hattempt
    . exact .inl ⟨line, hline, attempt, hattempt, rfl⟩
  | closed j s hs =>
    left
    rw [Core.line?_close] at hline
    split at hline
    . next hid =>
      split at hline
      . rw [hsound.apart j (by simp [hs])] at hline
        simp at hline
      . rw [Option.some.injEq] at hline
        rw [← hline] at hattempt
        rw [hid]
        exact ⟨s.line, Core.line?_of_some hs, attempt, hattempt, rfl⟩
    . exact ⟨line, hline, attempt, hattempt, rfl⟩
  | started octets sender j s hs hstart hreceive =>
    rw [Core.line?_update r.core j id { s with line := s.line.start.2 } r.core.nextId] at hline
    split at hline
    . next hid =>
      rw [Option.some.injEq] at hline
      rcases s.line.start_cases with ⟨-, -, -, hrunning⟩ | hrefused
      . rw [← hline, hrunning, List.mem_append, List.mem_singleton] at hattempt
        rw [hid]
        rcases hattempt with hbefore | hnew
        . exact .inl ⟨s.line, Core.line?_of_some hs, attempt, hbefore, rfl⟩
        . rw [hnew]
          exact .inr ⟨octets, sender, s.line, rfl, hreceive, Core.line?_of_some hs, rfl⟩
      . rw [hrefused] at hstart
        simp at hstart
    . exact .inl ⟨line, hline, attempt, hattempt, rfl⟩
  | queued octets sender j s hs =>
    left
    rw [Core.line?_update r.core j id { s with line := (s.line.enqueue octets).2 } r.core.nextId] at hline
    split at hline
    . next hid =>
      rcases s.line.enqueue_eq octets with ⟨queue, heq⟩
      rw [Option.some.injEq] at hline
      rw [← hline, heq] at hattempt
      rw [hid]
      exact ⟨s.line, Core.line?_of_some hs, attempt, hattempt, rfl⟩
    . exact ⟨line, hline, attempt, hattempt, rfl⟩
  | advanced j number step before p hbefore hadvance =>
    left
    rcases hsound.lines j before hbefore with ⟨hbalanced, -, hopen⟩
    rcases hbalanced.advance_cases hadvance with ⟨-, -, -, hattached, a, hrunning, -, hcases⟩
    rw [← hattached] at hopen
    have hset : (r.core.setLine j p.line).line? id = some line := hline
    rw [Core.line?_setLine hopen] at hset
    split at hset
    . next hid =>
      split at hset
      . rw [Option.some.injEq] at hset
        rw [← hset] at hattempt
        rw [hid]
        rcases hcases with ⟨-, -, -, hafter⟩ | ⟨_, -, -, -, hafter⟩
        . rw [hafter, List.mem_singleton] at hattempt
          exact ⟨before, hbefore, a, by simp [hrunning], by rw [hattempt]⟩
        . simp [hafter] at hattempt
      . simp at hset
    . exact ⟨line, hset, attempt, hattempt, rfl⟩
  | delivered place x =>
    rw [Core.line?_execute] at hline
    exact .inl ⟨line, hline, attempt, hattempt, rfl⟩
  | commanded x =>
    rw [Core.line?_execute] at hline
    exact .inl ⟨line, hline, attempt, hattempt, rfl⟩

end Transition

def Starts (r : Relay) (e : Event) (id : SessionId) (number : Nat) : Prop :=
  ∃ octets sender line, e = .datagram octets sender ∧ (r.receive octets sender).1 = some id ∧
    r.line? id = some line ∧ line.started = number

/-- The handshake with this number ends, and the exported material gives these keys to the client's side. -/
def Exports (r : Relay) (e : Event) (id : SessionId) (number : Nat) (keys : Srtp.Keys) : Prop :=
  ∃ material hlength, e = .handshake id number (.connects (.ok material)) ∧
    (r.advance id number (.connects (.ok material))).isSome ∧
    keys = .ofMasters (.ofMaterial ⟨material, hlength⟩ .client)

def Installs (r : Relay) (e : Event) (id : SessionId) : Prop :=
  ∃ place masters, e = .deliver place ∧ r.pending[place]? = some (.install id (.ok masters)) ∧
    r.table.get? id ≠ none

section Steps

variable {r : Relay} {e : Event} {id : SessionId} {keys : Srtp.Keys}

theorem get?_eq_none_iff : r.table.get? id = none ↔ r.core.sessions id = none :=
  SessionTable.security?_eq_none_iff.symm

/-- What holds of every relay that was started and to which no foreign keys were ever given. -/
structure Keyed (r : Relay) : Prop where
  wellFormed : r.table.WellFormed
  sound : r.core.Sound

namespace Keyed

theorem step (h : r.Keyed) (hcommand : ∀ id outcome, e ≠ .command (.install id outcome)) : (r.step e).Keyed :=
  ⟨(regular h.wellFormed e).wellFormed, h.sound.step (transition h.wellFormed e) hcommand⟩

theorem stays_used (h : r.Keyed) (hused : ¬ r.core.Unused id) : ¬ (r.step e).core.Unused id :=
  fun hunused => hused ((transition h.wellFormed e).unused hunused)

theorem stays_closed (h : r.Keyed) (hcommand : ∀ id outcome, e ≠ .command (.install id outcome))
    (hclosed : r.core.Closed id) : (r.step e).core.Closed id := by
  have htransition := transition h.wellFormed e
  constructor
  . by_contra hopen
    rcases Option.ne_none_iff_exists'.1 hopen with ⟨s, hs⟩
    rcases htransition.session hcommand hs with ⟨before, hbefore, -⟩ | ⟨hunused, -⟩
    . rw [hclosed.sessions] at hbefore
      simp at hbefore
    . exact hclosed.used hunused
  . exact h.stays_used hclosed.used

theorem used (h : r.Keyed) {s : Security} (hs : r.core.sessions id = some s) : ¬ r.core.Unused id :=
  (h.sound.lines id s.line (Core.line?_of_some hs)).2.1

theorem no_more_keys (h : r.Keyed) {s : Security} (hs : r.core.sessions id = some s) (hkeys : s.keys = some keys)
    {place : Nat} {masters : Srtp.MasterPair} : r.core.pending[place]? ≠ some (.install id (.ok masters)) := by
  intro hwaiting
  -- One pair of keys would wait and one be installed.
  have hcount : 0 < r.core.pending.countP (installs id) := by
    rw [List.countP_pos_iff]
    exact ⟨_, List.mem_of_getElem? hwaiting, by simp [installs]⟩
  have hinstalled : r.core.hasKeys id = true := by
    unfold Core.hasKeys
    simp [hs, hkeys]
  have honce := h.sound.once id
  unfold Core.tokens at honce
  rw [hinstalled, Bool.toNat_true] at honce
  omega

theorem established (h : r.Keyed) {s : Security} (hs : r.core.sessions id = some s) (hkeys : s.keys = some keys)
    : s.line.state = .established := by
  apply h.sound.settled id s.line _ (Core.line?_of_some hs)
  unfold Core.tokens Core.hasKeys
  simp [hs, hkeys]

theorem keeps_keys (h : r.Keyed) (hcommand : ∀ id outcome, e ≠ .command (.install id outcome))
    (hkeys : r.core.Closed id ∨ ∃ s, r.core.sessions id = some s ∧ s.keys = some keys)
    : (r.step e).core.Closed id ∨ ∃ s, (r.step e).core.sessions id = some s ∧ s.keys = some keys := by
  rcases hkeys with hclosed | ⟨s, hs, hkeys⟩
  . exact .inl (h.stays_closed hcommand hclosed)
  . have htransition := transition h.wellFormed e
    cases hafter : (r.step e).core.sessions id with
    | none => exact .inl ⟨hafter, h.stays_used (h.used hs)⟩
    | some after =>
      right
      refine ⟨after, rfl, ?_⟩
      rcases htransition.session hcommand hafter with ⟨before, hbefore, hsame | hnew⟩ | ⟨hunused, -⟩
      . rw [hs, Option.some.injEq] at hbefore
        rw [hsame, ← hbefore, hkeys]
      . rcases hnew with ⟨place, masters, -, hwaiting, -⟩
        exact absurd hwaiting (h.no_more_keys hs hkeys)
      . exact absurd hunused (h.used hs)

end Keyed

theorem Installs.brings_keys (h : Installs r e id)
    : ∃ s keys, (r.step e).core.sessions id = some s ∧ s.keys = some keys := by
  rcases h with ⟨place, masters, rfl, hwaiting, hopen⟩
  rw [ne_eq, get?_eq_none_iff, ← ne_eq, Option.ne_none_iff_exists'] at hopen
  rcases hopen with ⟨s, hs⟩
  have hstep : (r.step (.deliver place)).core.sessions = update r.core.sessions id
      ((r.core.sessions id).map fun s => { s with keys := some (.ofMasters masters) }) := by
    unfold Relay.step
    simp only [hwaiting]
    rw [core_execute]
    rfl
  rw [hstep, Function.update_self, hs]
  exact ⟨_, _, rfl, rfl⟩

theorem execute_closed (h : r.table.get? id = none)
    : (∀ octets, r.execute (.flight id octets) = r) ∧
        ∀ outcome, ∃ metrics, r.execute (.install id outcome) = { r with metrics } := by
  constructor
  . intro octets
    simp only [execute, h, Option.bind_none]
  . intro outcome
    cases outcome with
    | error _ => exact ⟨_, rfl⟩
    | ok masters =>
      simp only [execute]
      rw [SessionTable.modify_of_get?_eq_none _ h]
      exact ⟨_, rfl⟩

theorem Keyed.advance_closed {number : Nat} {e : Handshake.Step} {answer : Handshake.Answer} {r' : Relay}
    (h : r.Keyed) (hclosed : r.table.get? id = none) (hadvance : r.advance id number e = some (answer, r'))
    : ∃ detached xs, r' = { r with detached, pending := r.pending ++ xs } ∧
        (∀ j, j ≠ id → r'.line? j = r.line? j) ∧ ∀ x ∈ xs, x.session = id := by
  rcases advance_eq_some hadvance with ⟨line, p, hline, hp, rfl⟩
  rcases h.sound.lines id line hline with ⟨hbalanced, -, hopen⟩
  rw [get?_eq_none_iff] at hclosed
  rw [← (hbalanced.advance_cases hp).2.2.2.1] at hopen
  have hdetached : ∃ detached, r.setLine id p.line = { r with detached } := by
    unfold setLine
    rw [if_neg (by rw [hopen, hclosed]; simp)]
    exact ⟨_, rfl⟩
  rcases hdetached with ⟨detached, hset⟩
  refine ⟨detached, Command.ofProgress id p, ?_, ?_, fun x => Command.session_of_mem_ofProgress⟩
  . rw [hset]
  . intro j hj
    have hothers := Core.line?_setLine (j := j) hopen
    rw [if_neg hj, ← core_setLine, core_line?, core_line?] at hothers
    exact hothers

end Steps

/-- What happens to a new relay, when nobody but its handshakes brings keys. -/
structure History where
  first : Relay
  wellFormed : first.table.WellFormed
  empty : first.core = ⟨fun _ => none, some .base, [], []⟩
  events : List Event
  ownKeys : ∀ id outcome, Event.command (.install id outcome) ∉ events

namespace History

variable {h : History} {e f : Event} {id : SessionId} {s s' : Security} {keys : Srtp.Keys} {j k : Nat}

def after (h : History) (k : Nat) : Relay :=
  h.first.run (h.events.take k)

theorem ne_install (he : h.events[k]? = some e) (id : SessionId) (outcome : Handshake.Outcome)
    : e ≠ .command (.install id outcome) := by
  rintro rfl
  exact h.ownKeys id outcome (List.mem_of_getElem? he)

theorem keyed (h : History) (k : Nat) : (h.after k).Keyed := by
  apply Trace.keeps _ (Nat.zero_le k)
  . refine ⟨h.wellFormed, ?_⟩
    have hsound : h.first.core.Sound := by
      rw [h.empty]
      exact Core.Sound.init
    exact hsound
  . intro i e he hkeyed
    exact hkeyed.step (ne_install he)

theorem starts {line : Line} {attempt : Handshake.Attempt} (hline : (h.after k).line? id = some line)
    (hattempt : attempt ∈ line.running)
    : ∃ i < k, ∃ e, h.events[i]? = some e ∧ Starts (h.after i) e id attempt.number := by
  have hruns : ∃ line, (h.after k).core.line? id = some line ∧ ∃ a ∈ line.running, a.number = attempt.number := by
    rw [← core_line?] at hline
    exact ⟨line, hline, attempt, hattempt, rfl⟩
  rcases Trace.exists_step (P := fun r : Relay => ∃ line, r.core.line? id = some line ∧
    ∃ a ∈ line.running, a.number = attempt.number) (by simp [h.empty, Core.line?]) hruns with
    ⟨i, hi, e, he, hnot, line, hafter, a, ha, hnumber⟩
  have hkeyed := h.keyed i
  refine ⟨i, hi, e, he, ?_⟩
  rcases (transition hkeyed.wellFormed e).running hkeyed.sound hafter ha with hbefore | hstarts
  . rw [hnumber] at hbefore
    exact absurd hbefore hnot
  . rw [hnumber] at hstarts
    rcases hstarts with ⟨octets, sender, before, hevent, hreceive, hline, hstarted⟩
    rw [core_line?] at hline
    exact ⟨octets, sender, before, hevent, hreceive, hline, hstarted⟩

theorem exports_of_pending {masters : Srtp.MasterPair} (hmem : .install id (.ok masters) ∈ (h.after k).pending)
    : ∃ i j e f number, i < j ∧ j < k ∧ h.events[i]? = some e ∧ h.events[j]? = some f ∧
        Starts (h.after i) e id number ∧ Exports (h.after j) f id number (.ofMasters masters) := by
  have hfirst : .install id (.ok masters) ∉ h.first.core.pending := by
    rw [h.empty]
    exact List.not_mem_nil
  rcases Trace.exists_step (P := fun r : Relay => .install id (.ok masters) ∈ r.pending) hfirst hmem with
    ⟨j, hj, f, hf, hnot, hstep⟩
  have hkeyed := h.keyed j
  rcases (transition hkeyed.wellFormed f).pending hstep with hbefore | ⟨number, e, line, p, rfl, hline, hadvance, houtcome⟩
  . exact absurd hbefore hnot
  . rcases (hkeyed.sound.lines id line hline).1.advance_cases hadvance with ⟨-, -, -, -, a, hrunning, hnumber, hcases⟩
    rcases hcases with ⟨hnone, -⟩ | ⟨o, ho, hends, -⟩
    . rw [houtcome] at hnone
      simp at hnone
    . rw [houtcome, Option.some.injEq] at ho
      subst ho
      rw [Handshake.Ends.ok_iff] at hends
      rcases hends with ⟨material, hlength, rfl, rfl⟩
      rw [core_line?] at hline
      rcases h.starts hline (by simp [hrunning] : a ∈ line.running) with ⟨i, hi, e, he, hstarts⟩
      rw [hnumber] at hstarts
      refine ⟨i, j, e, _, number, hi, hj, he, hf, hstarts, material, hlength, rfl, ?_, rfl⟩
      unfold advance
      simp [hline, hadvance]

theorem exports_of_keys (hs : (h.after k).core.sessions id = some s) (hkeys : s.keys = some keys)
    : ∃ i j e f number, i < j ∧ j < k ∧ h.events[i]? = some e ∧ h.events[j]? = some f ∧
        Starts (h.after i) e id number ∧ Exports (h.after j) f id number keys := by
  rcases Trace.exists_step (P := fun r : Relay => ∃ s, r.core.sessions id = some s ∧ s.keys = some keys)
    (by simp [h.empty]) ⟨s, hs, hkeys⟩ with ⟨l, hl, e, he, hnot, after, hafter, hnew⟩
  rcases (transition (h.keyed l).wellFormed e).session (ne_install he) hafter with
    ⟨before, hbefore, hsame | hinstalled⟩ | ⟨-, hnone⟩
  . rw [hnew] at hsame
    exact absurd ⟨before, hbefore, hsame.symm⟩ hnot
  . rcases hinstalled with ⟨place, masters, -, hwaiting, hmasters⟩
    rw [hnew, Option.some.injEq] at hmasters
    rw [hmasters]
    rcases h.exports_of_pending (List.mem_of_getElem? hwaiting) with ⟨i, j, e, f, number, hi, hj, hrest⟩
    exact ⟨i, j, e, f, number, hi, by omega, hrest⟩
  . rw [hnew] at hnone
    simp at hnone

theorem closed_for_good (hle : j ≤ k) (hclosed : (h.after j).core.Closed id) : (h.after k).core.Closed id :=
  Trace.keeps (P := fun r : Relay => r.core.Closed id)
    (fun i _ he => (h.keyed i).stays_closed (ne_install he)) hle hclosed

theorem keys_for_good (hle : j ≤ k) (hs : (h.after j).core.sessions id = some s) (hkeys : s.keys = some keys)
    (hs' : (h.after k).core.sessions id = some s') : s'.keys = some keys := by
  have hkept : (h.after k).core.Closed id ∨ ∃ s, (h.after k).core.sessions id = some s ∧ s.keys = some keys :=
    Trace.keeps
      (P := fun r : Relay => r.core.Closed id ∨ ∃ s, r.core.sessions id = some s ∧ s.keys = some keys)
      (fun i _ he => (h.keyed i).keeps_keys (ne_install he)) hle (.inr ⟨s, hs, hkeys⟩)
  rcases hkept with hclosed | ⟨after, hafter, hkeys'⟩
  . have hnone := hclosed.sessions
    rw [hs'] at hnone
    simp at hnone
  . rw [hs', Option.some.injEq] at hafter
    rw [hafter, hkeys']

theorem one_installation (he : h.events[j]? = some e) (hj : Installs (h.after j) e id)
    (hk : Installs (h.after k) f id) : k ≤ j := by
  by_contra hlt
  rcases hj.brings_keys with ⟨s, keys, hs, hkeys⟩
  have hsucc : h.after (j + 1) = (h.after j).step e := run_take_succ he
  rw [← hsucc] at hs
  rcases hk with ⟨place, masters, -, hwaiting, hopen⟩
  rw [ne_eq, get?_eq_none_iff, ← ne_eq, Option.ne_none_iff_exists'] at hopen
  rcases hopen with ⟨s', hs'⟩
  exact (h.keyed k).no_more_keys hs' (keys_for_good (by omega) hs hkeys hs') hwaiting

end History

/-- A session gets keys at most once; they come from a handshake that was started for it, its line is then
settled, and they stay as long as it is open. Once it is closed, no command and no step of its handshakes
changes the table, the outbox or the line of another session, ever again. -/
theorem keys_installed_once (names : NamePool) (password : String) (settings : Handshake.Settings) (capacity : Nat)
    (events : List Event) (hcommands : ∀ id outcome, Event.command (.install id outcome) ∉ events)
    : let r := fun k => (start names password settings capacity).run (events.take k)
      (∀ id j k e f, events[j]? = some e → events[k]? = some f →
        Installs (r j) e id → Installs (r k) f id → j = k) ∧
      (∀ id k s keys, (r k).table.get? id = some s → s.srtp.keys = some keys →
        s.line.state = .established ∧
          ∃ i j e f number, i < j ∧ j < k ∧ events[i]? = some e ∧ events[j]? = some f ∧
            Starts (r i) e id number ∧ Exports (r j) f id number keys) ∧
      (∀ id j k s s' keys, j ≤ k → (r j).table.get? id = some s → s.srtp.keys = some keys →
        (r k).table.get? id = some s' → s'.srtp.keys = some keys) ∧
      (∀ id i j k, i ≤ j → j ≤ k → (r i).table.get? id ≠ none → (r j).table.get? id = none →
        (r k).table.get? id = none ∧
          (∀ octets, (r k).execute (.flight id octets) = r k) ∧
          (∀ outcome, ∃ metrics, (r k).execute (.install id outcome) = { r k with metrics }) ∧
          ∀ number e answer r', (r k).advance id number e = some (answer, r') →
            ∃ detached xs, r' = { r k with detached, pending := (r k).pending ++ xs } ∧
              (∀ j, j ≠ id → r'.line? j = (r k).line? j) ∧ ∀ x ∈ xs, x.session = id) := by
  intro r
  let h : History :=
    { first := start names password settings capacity
      wellFormed := start_wellFormed names password settings capacity
      empty := rfl
      events
      ownKeys := hcommands }
  have hkeyed : ∀ k, (r k).Keyed := h.keyed
  have hsession : ∀ {k id s}, (r k).table.get? id = some s → (r k).core.sessions id = some s.security :=
    SessionTable.security?_of_get?
  refine ⟨?_, ?_, ?_, ?_⟩
  . intro id j k e f he hf hj hk
    exact le_antisymm (History.one_installation (h := h) hf hk hj) (History.one_installation (h := h) he hj hk)
  . intro id k s keys hs hkeys
    exact ⟨(hkeyed k).established (hsession hs) hkeys, History.exports_of_keys (h := h) (hsession hs) hkeys⟩
  . intro id j k s s' keys hle hs hkeys hs'
    exact History.keys_for_good (h := h) hle (hsession hs) hkeys (hsession hs')
  . intro id i j k hi hj hopen hclosed
    have hused : ¬ (r j).core.Unused id := by
      rcases Option.ne_none_iff_exists'.1 hopen with ⟨s, hs⟩
      exact Trace.keeps (P := fun r : Relay => ¬ r.core.Unused id) (fun i _ _ => (hkeyed i).stays_used) hi
        ((hkeyed i).used (hsession hs))
    have hclosed' : (r k).table.get? id = none :=
      get?_eq_none_iff.2 (History.closed_for_good (h := h) hj ⟨get?_eq_none_iff.1 hclosed, hused⟩).sessions
    rcases execute_closed hclosed' with ⟨hflight, hinstall⟩
    refine ⟨hclosed', hflight, hinstall, ?_⟩
    intro number e answer r' hadvance
    exact (hkeyed k).advance_closed hclosed' hadvance

section Sample

def sampleCall : List Event := [
  .openSession,
  .setIce .base ⟨"a", ""⟩,
  .datagram (sampleRequest "a") sampleEndpoint,
  .handshake .base 0 (.connects (.ok (List.replicate 60 5))),
  .deliver 0]

theorem keys_installed_once_sampleCall
    : (∀ id outcome, Event.command (.install id outcome) ∉ sampleCall) ∧
      ∃ s keys,
        ((start ⟨["Ada"]⟩ "secret" {} 4).run (sampleCall.take 5)).table.get? .base = some s ∧
        s.srtp.keys = some keys ∧ s.line.state = .established ∧
        ∃ i j e f number, i < j ∧ j < 5 ∧ sampleCall[i]? = some e ∧ sampleCall[j]? = some f ∧
          Starts ((start ⟨["Ada"]⟩ "secret" {} 4).run (sampleCall.take i)) e .base number ∧
          Exports ((start ⟨["Ada"]⟩ "secret" {} 4).run (sampleCall.take j)) f .base number keys := by
  have hcommands : ∀ id outcome, Event.command (.install id outcome) ∉ sampleCall := by
    simp [sampleCall]
  have hany : (((start ⟨["Ada"]⟩ "secret" {} 4).run (sampleCall.take 5)).table.get? .base).any
      (·.srtp.hasKeys) = true := by
    decide +kernel
  rw [Option.any_eq_true] at hany
  rcases hany with ⟨s, hs, hkeys⟩
  unfold Srtp.Context.hasKeys at hkeys
  rw [Option.isSome_iff_exists] at hkeys
  rcases hkeys with ⟨keys, hkeys⟩
  have hresult := (keys_installed_once ⟨["Ada"]⟩ "secret" {} 4 sampleCall hcommands).2.1 .base 5 s keys hs hkeys
  exact ⟨hcommands, s, keys, hs, hkeys, hresult⟩

end Sample

end Intercom.Relay
