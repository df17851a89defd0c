import Mathlib
import Intercom.Proofs.Relay.Handshakes
import Intercom.Proofs.Trace

/-!
This module contains the invariant behind the keys of sessions: as soon as keys for a session wait or are
installed, its line is settled, and no handshake brings other ones.
-/

namespace Intercom.Relay

open Function (update)
open Handshake (Line)

def installs (id : SessionId) : Command → Bool
  | .install j (.ok _) => j = id
  | _ => false

theorem countP_installs_ofProgress (id j : SessionId) (p : Handshake.Progress)
    : (Command.ofProgress id p).countP (installs j) = 0 ∨
      (j = id ∧ (∃ masters, p.outcome = some (.ok masters)) ∧
        (Command.ofProgress id p).countP (installs j) = 1) := by
  have hflight : (p.flight.map (Command.flight id ·)).toList.countP (installs j) = 0 := by
    cases p.flight with
    | none => rfl
    | some datagram => rfl
  unfold Command.ofProgress
  rw [List.countP_append, hflight, Nat.zero_add]
  cases p.outcome with
  | none => exact .inl rfl
  | some o =>
    cases o with
    | error e => exact .inl rfl
    | ok masters =>
      by_cases hj : j = id
      . exact .inr ⟨hj, ⟨masters, rfl⟩, by simp [installs, hj]⟩
      . exact .inl (by simp [installs, Ne.symm hj])

namespace Core

def hasKeys (c : Core) (id : SessionId) : Bool :=
  (c.sessions id).any (·.keys.isSome)

/-- How often keys for a session wait or are installed. -/
def tokens (c : Core) (id : SessionId) : Nat :=
  c.pending.countP (installs id) + (c.hasKeys id).toNat

def Unused (c : Core) (id : SessionId) : Prop :=
  ∃ next, c.nextId = some next ∧ next.value ≤ id.value

/-- As soon as keys of a session are on their way, none of its handshakes goes on. -/
structure Sound (c : Core) : Prop where
  lines : ∀ id line, c.line? id = some line →
    line.Balanced 0 ∧ ¬ c.Unused id ∧ (line.attached = true ↔ c.sessions id ≠ none)
  apart : ∀ id, c.sessions id ≠ none → c.detached.lookup id = none
  unused : ∀ id, c.Unused id → c.tokens id = 0
  once : ∀ id, c.tokens id ≤ 1
  settled : ∀ id line, c.tokens id ≠ 0 → c.line? id = some line → line.state = .established

section Steps

variable {c c' : Core} {id j : SessionId} {s : Security} {line : Line}

theorem line?_of_some (h : c.sessions id = some s) : c.line? id = some s.line := by
  unfold line?
  rw [h]

theorem line?_of_none (h : c.sessions id = none) : c.line? id = c.detached.lookup id := by
  unfold line?
  rw [h]

theorem line?_update (c : Core) (id j : SessionId) (s : Security) (nextId : Option SessionId)
    : line? { c with sessions := update c.sessions id (some s), nextId } j =
        if j = id then some s.line else c.line? j := by
  unfold line?
  dsimp only
  rw [Function.update_apply]
  by_cases hj : j = id
  . rw [if_pos hj, if_pos hj]
  . rw [if_neg hj, if_neg hj]

theorem lookup_filter_ne {α : Type} (entries : List (SessionId × α)) (id j : SessionId)
    : (entries.filter (·.1 ≠ id)).lookup j = if j = id then none else entries.lookup j := by
  induction entries with
  | nil => simp
  | cons entry entries ih =>
    rcases entry with ⟨i, x⟩
    rw [List.filter_cons]
    split
    . next hi =>
      have hne : i ≠ id := of_decide_eq_true hi
      rw [List.lookup_cons, List.lookup_cons, ih]
      by_cases hj : j = i
      . simp [hj, hne]
      . simp [beq_eq_false_iff_ne.2 hj]
    . next hi =>
      have heq : i = id := by simpa using hi
      rw [ih, List.lookup_cons, heq]
      split
      . rfl
      . next hj => simp [beq_eq_false_iff_ne.2 hj]

theorem line?_close (c : Core) (id j : SessionId) (line : Line)
    : (c.close id line).line? j =
        if j = id then if line.running.isEmpty then c.detached.lookup id else some line.detach else c.line? j := by
  unfold line? close
  dsimp only
  rw [Function.update_apply]
  by_cases hj : j = id
  . rw [if_pos hj, if_pos hj, hj]
    dsimp only
    split
    . rfl
    . exact List.lookup_cons_self
  . rw [if_neg hj, if_neg hj]
    split
    . rfl
    . split
      . rfl
      . rw [List.lookup_cons, beq_eq_false_iff_ne.2 hj]

theorem line?_eq_none_iff : c.line? id = none ↔ c.sessions id = none ∧ c.detached.lookup id = none := by
  cases hs : c.sessions id with
  | none =>
    rw [line?_of_none hs]
    simp
  | some s =>
    rw [line?_of_some hs]
    simp

theorem lookup_setLine (c : Core) (id j : SessionId) (line : Line)
    : (c.setLine id line).detached.lookup j =
        if line.attached = false ∧ j = id then if line.running.isEmpty then none else some line
        else c.detached.lookup j := by
  have hfilter := lookup_filter_ne c.detached id j
  unfold setLine
  cases line.attached with
  | true => simp
  | false =>
    rw [if_neg (by simp)]
    dsimp only
    by_cases hj : j = id
    . have hcond : false = false ∧ j = id := ⟨rfl, hj⟩
      rw [if_pos hj] at hfilter
      rw [if_pos hcond]
      split
      . exact hfilter
      . rw [hj]
        exact List.lookup_cons_self
    . have hcond : ¬ (false = false ∧ j = id) := fun h => hj h.2
      rw [if_neg hj] at hfilter
      rw [if_neg hcond]
      split
      . exact hfilter
      . rw [List.lookup_cons, beq_eq_false_iff_ne.2 hj]
        exact hfilter

theorem line?_setLine (h : line.attached = true ↔ c.sessions id ≠ none)
    : (c.setLine id line).line? j =
        if j = id then if line.attached || !line.running.isEmpty then some line else none else c.line? j := by
  cases hattached : line.attached with
  | true =>
    rcases Option.ne_none_iff_exists'.1 (h.1 hattached) with ⟨s, hs⟩
    unfold setLine
    rw [if_pos hattached, hs, Option.map_some, line?_update]
    rfl
  | false =>
    have hs : c.sessions id = none := by
      by_contra hopen
      simp [h.2 hopen] at hattached
    have hsessions : (c.setLine id line).sessions = c.sessions := by
      unfold setLine
      rw [if_neg (by simp [hattached])]
    have hlookup := lookup_setLine c id j line
    unfold line?
    rw [hsessions, hlookup]
    by_cases hj : j = id
    . simp [hj, hs, hattached]
    . simp [hj]

theorem tokens_setLine (c : Core) (id j : SessionId) (line : Line) : (c.setLine id line).tokens j = c.tokens j := by
  unfold setLine
  split
  . unfold tokens hasKeys
    dsimp only
    rw [Function.update_apply]
    split
    . next hj =>
      rw [hj]
      cases c.sessions id with
      | none => rfl
      | some s => rfl
    . rfl
  . rfl

theorem sessions_setLine (c : Core) (id j : SessionId) (line : Line)
    : (c.setLine id line).sessions j ≠ none ↔ c.sessions j ≠ none := by
  unfold setLine
  split
  . dsimp only
    rw [Function.update_apply]
    split
    . next hj => simp [hj]
    . rfl
  . rfl

theorem pending_setLine (c : Core) (id : SessionId) (line : Line) : (c.setLine id line).pending = c.pending := by
  unfold setLine
  split
  . rfl
  . rfl

theorem nextId_setLine (c : Core) (id : SessionId) (line : Line) : (c.setLine id line).nextId = c.nextId := by
  unfold setLine
  split
  . rfl
  . rfl

theorem execute_cases (c : Core) (x : Command)
    : (c.execute x = c ∧ ∀ j, installs j x = false) ∨ ∃ id masters, x = .install id (.ok masters) := by
  cases x with
  | flight id datagram => exact .inl ⟨rfl, fun _ => rfl⟩
  | install id outcome =>
    cases outcome with
    | error e => exact .inl ⟨rfl, fun _ => rfl⟩
    | ok masters => exact .inr ⟨id, masters, rfl⟩

theorem line?_execute (c : Core) (x : Command) (j : SessionId) : (c.execute x).line? j = c.line? j := by
  rcases execute_cases c x with ⟨heq, -⟩ | ⟨id, masters, rfl⟩
  . rw [heq]
  . unfold line? execute
    dsimp only
    rw [Function.update_apply]
    by_cases hj : j = id
    . rw [if_pos hj, hj]
      cases c.sessions id with
      | none => rfl
      | some s => rfl
    . rw [if_neg hj]

theorem sessions_execute (c : Core) (x : Command) (j : SessionId)
    : (c.execute x).sessions j ≠ none ↔ c.sessions j ≠ none := by
  rcases execute_cases c x with ⟨heq, -⟩ | ⟨id, masters, rfl⟩
  . rw [heq]
  . unfold execute
    dsimp only
    rw [Function.update_apply]
    split
    . next hj => simp [hj]
    . rfl

theorem execute_frame (c : Core) (x : Command)
    : (c.execute x).nextId = c.nextId ∧ (c.execute x).detached = c.detached ∧ (c.execute x).pending = c.pending := by
  rcases execute_cases c x with ⟨heq, -⟩ | ⟨id, masters, rfl⟩
  . rw [heq]
    exact ⟨rfl, rfl, rfl⟩
  . exact ⟨rfl, rfl, rfl⟩

theorem tokens_execute (c : Core) (x : Command) (j : SessionId)
    : (c.execute x).tokens j ≤ c.tokens j + (installs j x).toNat := by
  rcases execute_cases c x with ⟨heq, -⟩ | ⟨id, masters, rfl⟩
  . rw [heq]
    omega
  . unfold tokens hasKeys execute installs
    dsimp only
    rw [Function.update_apply]
    split
    . next hj =>
      have hle := Bool.toNat_le ((Option.map (fun s : Security => { s with keys := some (.ofMasters masters) })
        (c.sessions id)).any (·.keys.isSome))
      simp only [hj, decide_true, Bool.toNat_true]
      omega
    . omega

theorem setLine_of_attached (hs : c.sessions id = some s) (hattached : line.attached = true)
    : c.setLine id line = { c with sessions := update c.sessions id (some { s with line }) } := by
  unfold setLine
  rw [if_pos hattached, hs]
  rfl

namespace Sound

theorem tokens_eq_zero (h : c.Sound) (hline : c.line? id = some line) (hstate : line.state ≠ .established)
    : c.tokens id = 0 := by
  by_contra htokens
  exact hstate (h.settled id line htokens hline)

theorem of_le (h : c.Sound) (hunused : ∀ j, c'.Unused j → c.Unused j)
    (hapart : ∀ j, c'.sessions j ≠ none → c'.detached.lookup j = none) (htokens : ∀ j, c'.tokens j ≤ c.tokens j)
    (hlines : ∀ j line, c'.line? j = some line →
      (c.line? j = some line ∧ (c'.sessions j ≠ none ↔ c.sessions j ≠ none)) ∨
        (line.Balanced 0 ∧ ¬ c'.Unused j ∧ (line.attached = true ↔ c'.sessions j ≠ none) ∧
          (c'.tokens j ≠ 0 → line.state = .established)))
    : c'.Sound := by
  constructor
  . intro j line hline
    rcases hlines j line hline with ⟨hsame, hopen⟩ | ⟨hbalanced, hused, hattached, -⟩
    . rcases h.lines j line hsame with ⟨hbalanced, hused, hattached⟩
      rw [hopen]
      exact ⟨hbalanced, fun hunused' => hused (hunused j hunused'), hattached⟩
    . exact ⟨hbalanced, hused, hattached⟩
  . exact hapart
  . intro j hj
    have hle := htokens j
    rw [h.unused j (hunused j hj)] at hle
    exact Nat.le_zero.1 hle
  . intro j
    exact le_trans (htokens j) (h.once j)
  . intro j line hj hline
    rcases hlines j line hline with ⟨hsame, -⟩ | ⟨-, -, -, hstate⟩
    . have hle := htokens j
      exact h.settled j line (by omega) hsame
    . exact hstate hj

theorem setLine {before : Line} (h : c.Sound) (hline : c.line? id = some before)
    (hattached : line.attached = before.attached) (hbalanced : line.Balanced 0)
    (hstate : c.tokens id ≠ 0 → line.state = .established)
    : (c.setLine id line).Sound := by
  rcases h.lines id before hline with ⟨-, hused, hopen⟩
  rw [← hattached] at hopen
  have hunused : ∀ j, (c.setLine id line).Unused j ↔ c.Unused j := by
    intro j
    unfold Unused
    rw [nextId_setLine]
  apply h.of_le
  . exact fun j => (hunused j).1
  . intro j hj
    rw [sessions_setLine] at hj
    rw [lookup_setLine, if_neg]
    . exact h.apart j hj
    . intro hid
      rw [hid.2, ← hopen, hid.1] at hj
      simp at hj
  . exact fun j => le_of_eq (tokens_setLine c id j line)
  . intro j line' hline'
    rw [line?_setLine hopen] at hline'
    rw [sessions_setLine, tokens_setLine, hunused]
    split at hline'
    . next hj =>
      right
      split at hline'
      . rw [Option.some.injEq] at hline'
        subst hline' hj
        exact ⟨hbalanced, hused, hopen, hstate⟩
      . simp at hline'
    . exact .inl ⟨hline', Iff.rfl⟩

theorem opened {settings : Handshake.Settings} (h : c.Sound) (hid : c.nextId = some id)
    : Sound { c with sessions := update c.sessions id (some { line := { settings } }), nextId := id.next? } := by
  have hunused : c.Unused id := ⟨id, hid, UInt32.le_refl _⟩
  have hlater : ∀ j, Unused { c with
      sessions := update c.sessions id (some { line := { settings } }), nextId := id.next? } j →
      c.Unused j ∧ j ≠ id := by
    intro j hj
    rcases hj with ⟨next, hnext, hle⟩
    have hlt := (SessionId.next?_eq_some hnext).1
    refine ⟨⟨id, hid, UInt32.le_trans (UInt32.le_of_lt hlt) hle⟩, ?_⟩
    intro heq
    rw [heq] at hle
    exact UInt32.not_le.2 hlt hle
  have hnone : c.line? id = none := by
    by_contra hline
    rcases Option.ne_none_iff_exists'.1 hline with ⟨line, hline⟩
    exact (h.lines id line hline).2.1 hunused
  rw [line?_eq_none_iff] at hnone
  have htokens : ∀ j, tokens { c with
      sessions := update c.sessions id (some { line := { settings } }), nextId := id.next? } j = c.tokens j := by
    intro j
    unfold tokens hasKeys
    dsimp only
    rw [Function.update_apply]
    split
    . next hj => rw [hj, hnone.1]; rfl
    . rfl
  apply h.of_le
  . exact fun j hj => (hlater j hj).1
  . intro j hj
    dsimp only at hj
    rw [Function.update_apply] at hj
    split at hj
    . next hid =>
      rw [hid]
      exact hnone.2
    . exact h.apart j hj
  . exact fun j => le_of_eq (htokens j)
  . intro j line hline
    rw [line?_update] at hline
    rw [htokens]
    dsimp only
    rw [Function.update_apply]
    by_cases hj : j = id
    . right
      rw [if_pos hj, Option.some.injEq] at hline
      subst hline hj
      refine ⟨rfl, fun hnot => (hlater j hnot).2 rfl, by simp, ?_⟩
      rw [h.unused j hunused]
      exact fun hne => absurd rfl hne
    . rw [if_neg hj] at hline
      rw [if_neg hj]
      exact .inl ⟨hline, Iff.rfl⟩

theorem closed (h : c.Sound) (hs : c.sessions id = some s) : (c.close id s.line).Sound := by
  have hline := line?_of_some hs
  have htokens : ∀ j, (c.close id s.line).tokens j ≤ c.tokens j := by
    intro j
    unfold tokens hasKeys close
    dsimp only
    rw [Function.update_apply]
    split
    . simp
    . exact le_rfl
  rcases h.lines id s.line hline with ⟨hbalanced, hused, -⟩
  apply h.of_le
  . exact fun j hj => hj
  . intro j hj
    unfold close at hj ⊢
    dsimp only at hj ⊢
    rw [Function.update_apply] at hj
    split at hj
    . simp at hj
    . next hid =>
      have hapart := h.apart j hj
      split
      . exact hapart
      . rw [List.lookup_cons, beq_eq_false_iff_ne.2 hid]
        exact hapart
  . exact htokens
  . intro j line hclosed
    rw [line?_close] at hclosed
    have hsessions : (c.close id s.line).sessions j = if j = id then none else c.sessions j :=
      Function.update_apply c.sessions id none j
    rw [hsessions]
    by_cases hj : j = id
    . right
      rw [if_pos hj] at hclosed
      rw [if_pos hj, hj]
      split at hclosed
      . rw [h.apart id (by simp [hs])] at hclosed
        simp at hclosed
      . rw [Option.some.injEq] at hclosed
        rw [← hclosed]
        refine ⟨hbalanced, hused, by simp [Line.detach], ?_⟩
        intro hne
        have hle := htokens id
        exact h.settled id s.line (by omega) hline
    . rw [if_neg hj] at hclosed
      rw [if_neg hj]
      exact .inl ⟨hclosed, Iff.rfl⟩

theorem emitted (h : c.Sound) (xs : List Command)
    (hxs : ∀ j, xs.countP (installs j) ≠ 0 →
      ¬ c.Unused j ∧ c.tokens j + xs.countP (installs j) ≤ 1 ∧
        ∀ line, c.line? j = some line → line.state = .established)
    : Sound { c with pending := c.pending ++ xs } := by
  have htokens : ∀ j, tokens { c with pending := c.pending ++ xs } j = c.tokens j + xs.countP (installs j) := by
    intro j
    unfold tokens hasKeys
    dsimp only
    rw [List.countP_append]
    omega
  constructor
  . exact h.lines
  . exact h.apart
  . intro j hj
    rw [htokens, h.unused j hj, Nat.zero_add]
    by_contra hne
    exact (hxs j hne).1 hj
  . intro j
    rw [htokens]
    by_cases hzero : xs.countP (installs j) = 0
    . rw [hzero]
      exact h.once j
    . exact (hxs j hzero).2.1
  . intro j line hj hline
    rw [htokens] at hj
    by_cases hzero : xs.countP (installs j) = 0
    . rw [hzero] at hj
      exact h.settled j line hj hline
    . exact (hxs j hzero).2.2 line hline

theorem advanced (h : c.Sound) {number : Nat} {e : Handshake.Step} {p : Handshake.Progress}
    (hline : c.line? id = some line) (hadvance : line.advance number e = some p)
    : Sound { c.setLine id p.line with pending := c.pending ++ Command.ofProgress id p } := by
  rcases h.lines id line hline with ⟨hbalanced, hused, hopen⟩
  rcases hbalanced.advance_cases hadvance with ⟨-, hstate, -, hattached, _, -, -, hcases⟩
  have hzero := h.tokens_eq_zero hline (by simp [hstate])
  -- The line is handshaking, so no keys of its session are on their way before this step.
  have hset : (c.setLine id p.line).Sound :=
    h.setLine hline hattached (hbalanced.advance hadvance) fun hne => absurd hzero hne
  rw [← hattached] at hopen
  have hxs : ∀ j, (Command.ofProgress id p).countP (installs j) ≠ 0 →
      ¬ (c.setLine id p.line).Unused j ∧
        (c.setLine id p.line).tokens j + (Command.ofProgress id p).countP (installs j) ≤ 1 ∧
        ∀ line', (c.setLine id p.line).line? j = some line' → line'.state = .established := by
    intro j hj
    rcases countP_installs_ofProgress id j p with hnone | ⟨rfl, ⟨masters, houtcome⟩, hone⟩
    . exact absurd hnone hj
    . have hend : p.line.state = .established := by
        rcases hcases with ⟨hnone, -⟩ | ⟨o, ho, -, hend, -⟩
        . rw [houtcome] at hnone
          simp at hnone
        . rw [houtcome, Option.some.injEq] at ho
          rw [hend, ← ho]
          rfl
      rw [tokens_setLine, hzero, hone]
      refine ⟨?_, le_rfl, ?_⟩
      . unfold Unused
        rw [nextId_setLine]
        exact hused
      . intro line' hline'
        rw [line?_setLine hopen, if_pos rfl] at hline'
        split at hline'
        . rw [Option.some.injEq] at hline'
          rw [← hline', hend]
        . simp at hline'
  have hemitted := hset.emitted _ hxs
  rw [pending_setLine] at hemitted
  exact hemitted

theorem delivered (h : c.Sound) {place : Nat} {x : Command} (hx : c.pending[place]? = some x)
    : Sound ({ c with pending := c.pending.eraseIdx place }.execute x) := by
  rcases execute_frame { c with pending := c.pending.eraseIdx place } x with ⟨hnext, hdetached, -⟩
  -- What stops waiting is at most installed, so no count of keys grows.
  have hrest : ∀ j, tokens { c with pending := c.pending.eraseIdx place } j + (installs j x).toNat = c.tokens j := by
    intro j
    unfold tokens hasKeys
    rw [(Trace.perm_of_getElem? hx).countP_eq, List.countP_cons]
    cases installs j x with
    | true => simp; omega
    | false => simp
  apply h.of_le
  . intro j hj
    unfold Unused at hj
    rw [hnext] at hj
    exact hj
  . intro j hj
    rw [sessions_execute] at hj
    rw [hdetached]
    exact h.apart j hj
  . intro j
    rw [← hrest]
    exact tokens_execute _ x j
  . intro j line hline
    rw [line?_execute] at hline
    rw [sessions_execute]
    exact .inl ⟨hline, Iff.rfl⟩

theorem init : Sound ⟨fun _ => none, some .base, [], []⟩ := by
  constructor
  . intro id line hline
    simp [line?] at hline
  . intro id _
    rfl
  . intro id _
    rfl
  . intro id
    exact Nat.zero_le 1
  . intro id line hid _
    exact absurd rfl hid

theorem step {r : Relay} {e : Event} (h : r.core.Sound) (ht : Transition r e c)
    (hcommand : ∀ id outcome, e ≠ .command (.install id outcome)) : c.Sound := by
  cases ht with
  | still => exact h
  | opened id hid => exact h.opened hid
  | closed id s hs => exact h.closed hs
  | started octets sender id s hs hstart =>
    have hline := line?_of_some hs
    rcases h.lines id s.line hline with ⟨hbalanced, -, hopen⟩
    rcases s.line.start_cases with ⟨-, hstate, hattached, -⟩ | hrefused
    . have hzero := h.tokens_eq_zero hline (by rcases hstate with hstate | hstate <;> simp [hstate])
      rw [← setLine_of_attached hs (hattached.trans (hopen.2 (by simp [hs])))]
      exact h.setLine hline hattached hbalanced.start fun hne => absurd hzero hne
    . rw [hrefused] at hstart
      simp at hstart
  | queued octets sender id s hs =>
    have hline := line?_of_some hs
    rcases h.lines id s.line hline with ⟨hbalanced, -, hopen⟩
    rcases s.line.enqueue_eq octets with ⟨queue, heq⟩
    have hattached : (s.line.enqueue octets).2.attached = s.line.attached := by
      rw [heq]
    rw [← setLine_of_attached hs (hattached.trans (hopen.2 (by simp [hs])))]
    apply h.setLine hline hattached (hbalanced.enqueue octets)
    intro hne
    rw [heq]
    exact h.settled id s.line hne hline
  | advanced id number e line p hline hadvance => exact h.advanced hline hadvance
  | delivered place x hx => exact h.delivered hx
  | commanded x =>
    cases x with
    | flight id datagram => exact h
    | install id outcome => exact absurd rfl (hcommand id outcome)

end Sound

end Steps

end Core

end Intercom.Relay
