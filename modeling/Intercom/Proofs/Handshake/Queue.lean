import Mathlib
import Intercom.Proofs.Handshake.Holding
import Intercom.Proofs.Handshake.Reports

/-!
This module contains the main statement about the queue of a line: a handshake reads the datagrams that were accepted
since its start, each once and in their order, and it still reads them when the session has gone away.
-/

namespace Intercom.Handshake

namespace Line

variable {l : Line} {number room : Nat} {givesUp : Bool} {s : Step} {p : Progress}

theorem advance_read (h : l.advance number (.read room givesUp) = some p)
    : (∃ datagram queue, l.queue = datagram :: queue ∧ p.answer = .datagram (datagram.take room) ∧
        p.line.queue = queue) ∨
      (l.queue = [] ∧ p.answer = .noDatagram (if l.attached then .timeout else .closed) givesUp ∧
        p.line.queue = []) := by
  unfold advance at h
  split at h
  . simp at h
  . dsimp only at h
    split at h
    . next datagram queue hqueue =>
      left
      cases h
      exact ⟨datagram, queue, hqueue, rfl, rfl⟩
    . next hqueue =>
      right
      split at h
      . next hgivesUp =>
        cases h
        refine ⟨hqueue, ?_, hqueue⟩
        rw [hgivesUp]
        rfl
      . next hgoes =>
        cases h
        refine ⟨hqueue, ?_, hqueue⟩
        rw [Bool.not_eq_true] at hgoes
        rw [hgoes]
        rfl

theorem queue_of_advance (h : l.advance number s = some p) (hread : ∀ room givesUp, s ≠ .read room givesUp)
    : p.line.queue = l.queue := by
  rcases advance_cases h with ⟨-, ⟨-, -⟩ | ⟨o, -, -, hline⟩⟩
  . unfold advance at h
    split at h
    . simp at h
    . cases s with
      | createFails message =>
        dsimp only at h
        split at h
        . simp at h
        . cases h
          rfl
      | read room givesUp => exact absurd rfl (hread room givesUp)
      | send datagram => cases h; rfl
      | askLimits => cases h; rfl
      | fails message => cases h; rfl
      | connects exported => cases h; rfl
  . rw [hline]
    rfl

end Line

theorem Call.queue_proceed (c : Call) (l : Line)
    : (c.proceed l).2.queue = l.queue ∨
      c = .draining ∧ ∃ datagram, l.queue = datagram :: (c.proceed l).2.queue := by
  have hclaim {expected : State} {l' : Line} (h : l.claim expected = some l') : l'.queue = l.queue := by
    rw [Line.claim_eq_some_iff] at h
    rw [h.2]
  unfold proceed
  cases c with
  | entering =>
    left
    dsimp only
    split
    . next htaken => exact hclaim htaken
    . rfl
  | retrying =>
    left
    dsimp only
    split
    . next htaken => exact hclaim htaken
    . rfl
  | draining =>
    dsimp only
    split
    . exact .inl rfl
    . next datagram queue hqueue => exact .inr ⟨rfl, datagram, hqueue⟩
  | spawning => exact .inl rfl
  | started number => exact .inl rfl
  | refused => exact .inl rfl

namespace Shared

structure Read where
  number : Nat
  room : Nat
  octets : Bytes

def accepted? (s : Shared) : Action → Option Bytes
  | .enqueue datagram => if (s.line.enqueue datagram).1 then some datagram else none
  | _ => none

def read? (s : Shared) : Action → Option Read
  | .engine number (.read room givesUp) =>
    match s.line.advance number (.read room givesUp) with
    | some ⟨_, .datagram octets, _, _⟩ => some ⟨number, room, octets⟩
    | _ => none
  | _ => none

def readBy? (number : Nat) (s : Shared) (a : Action) : Option Read :=
  (s.read? a).filter (·.number = number)

inductive Moves (s : Shared) : Option Bytes → Option Read → List Bytes → Prop where
  | same : Moves s none none s.line.queue
  | accept (datagram : Bytes) (hroom : s.line.queue.length < s.line.settings.queueCapacity)
      : Moves s (some datagram) none (s.line.queue ++ [datagram])
  | drop (datagram : Bytes) (queue : List Bytes) (hcall : .draining ∈ s.calls)
      (hqueue : s.line.queue = datagram :: queue) : Moves s none none queue
  | read (number room : Nat) (datagram : Bytes) (queue : List Bytes)
      (hrunning : ∃ attempt ∈ s.line.running, attempt.number = number) (hqueue : s.line.queue = datagram :: queue)
      : Moves s none (some ⟨number, room, datagram.take room⟩) queue

section Moves

variable {s : Shared} {number : Nat} {e : Step} {p : Progress}

theorem read?_of_advance {room : Nat} {givesUp : Bool} (h : s.line.advance number (.read room givesUp) = some p)
    : s.read? (.engine number (.read room givesUp)) =
        match p.answer with
        | .datagram octets => some ⟨number, room, octets⟩
        | _ => none := by
  rcases p with ⟨line, answer, flight, outcome⟩
  unfold read?
  dsimp only
  rw [h]
  cases answer with
  | _ => rfl

theorem moves_engine (h : s.line.advance number e = some p)
    : Moves s none (s.read? (.engine number e)) p.line.queue := by
  cases e with
  | read room givesUp =>
    rw [read?_of_advance h]
    rcases Line.advance_read h with ⟨datagram, queue, hqueue, hanswer, hrest⟩ | ⟨hqueue, hanswer, hrest⟩
    . rcases (Line.advance_cases h).1 with ⟨attempt, hattempt⟩
      have hnumber := List.find?_some hattempt
      rw [decide_eq_true_iff] at hnumber
      rw [hanswer, hrest]
      exact .read number room datagram queue ⟨attempt, List.mem_of_find?_eq_some hattempt, hnumber⟩ hqueue
    . rw [hanswer, hrest, ← hqueue]
      exact .same
  | createFails | send | askLimits | fails | connects =>
    rw [Line.queue_of_advance h (by simp)]
    exact .same

theorem moves (s : Shared) (a : Action) : Moves s (s.accepted? a) (s.read? a) (s.step a).line.queue := by
  cases a with
  | call => exact .same
  | proceed place =>
    unfold accepted? read? step
    dsimp only
    split
    . exact .same
    . next c hc =>
      rcases c.queue_proceed s.line with hsame | ⟨rfl, datagram, hqueue⟩
      . dsimp only
        rw [hsame]
        exact .same
      . exact .drop datagram _ (List.mem_of_getElem? hc) hqueue
  | enqueue datagram =>
    unfold accepted? read? step Line.enqueue
    dsimp only
    split
    . next hroom => exact .accept datagram hroom
    . exact .same
  | detach => exact .same
  | engine number e =>
    unfold step
    dsimp only
    split
    . next hnone =>
      have hread : s.read? (.engine number e) = none := by
        cases e with
        | read room givesUp => simp [read?, hnone]
        | _ => rfl
      rw [hread]
      exact .same
    . next p hadvance => exact moves_engine hadvance
  | report place =>
    rw [step_report_line]
    exact .same

end Moves

section Order

variable {s : Shared} {number : Nat} {accepted : Option Bytes} {read : Option Read} {queue : List Bytes}

def Cut (datagram : Bytes) (r : Read) : Prop :=
  r.octets = datagram.take r.room

/-- While the line is held, what is accepted stands behind what is queued, and what is read was in front. -/
theorem Ready.moves (h : Ready s number) (hsound : s.Sound) (hmoves : Moves s accepted read queue)
    : ∃ taken,
        s.line.queue ++ accepted.toList = taken ++ queue ∧
        List.Forall₂ Cut taken (read.filter (·.number = number)).toList := by
  cases hmoves with
  | same => exact ⟨[], List.append_nil _, .nil⟩
  | accept datagram => exact ⟨[], rfl, .nil⟩
  | drop datagram queue hcall => exact absurd hcall (h.not_draining hsound)
  | read n room datagram queue hrunning hqueue =>
    rcases hrunning with ⟨attempt, hattempt, rfl⟩
    refine ⟨[datagram], ?_, ?_⟩
    . rw [hqueue]
      exact List.append_nil _
    . rw [h.number_eq hsound hattempt]
      simp [Option.filter, Cut]

theorem filter_read_eq_none (h : ∀ attempt ∈ s.line.running, attempt.number ≠ number)
    (hmoves : Moves s accepted read queue) : read.filter (·.number = number) = none := by
  cases hmoves with
  | read n room datagram queue hrunning =>
    rcases hrunning with ⟨attempt, hattempt, rfl⟩
    simp [Option.filter, h attempt hattempt]
  | _ => rfl

/-- What a handshake has read is the front of what was accepted for it, and as long as it holds the line the rest is
queued. -/
def InOrder (s : Shared) (number : Nat) (accepted : List Bytes) (reads : List Read) : Prop :=
  ∃ taken rest,
    accepted = taken ++ rest ∧ List.Forall₂ Cut taken reads ∧
    (Ready s number ∧ s.line.queue = rest ∨ Over s number)

theorem InOrder.step {accepted : List Bytes} {reads : List Read} (h : InOrder s number accepted reads)
    (hsound : s.Sound) (a : Action)
    : InOrder (s.step a) number (accepted ++ (s.accepted? a).toList) (reads ++ (readBy? number s a).toList) := by
  rcases h with ⟨taken, rest, rfl, hcut, ⟨hready, rfl⟩ | hover⟩
  . rcases hready.moves hsound (s.moves a) with ⟨taken', heq, hcut'⟩
    refine ⟨taken ++ taken', (s.step a).line.queue, ?_, List.rel_append hcut hcut', ?_⟩
    . rw [List.append_assoc, heq, List.append_assoc]
    . rcases hready.step hsound a with hready' | hover'
      . exact .inl ⟨hready', rfl⟩
      . exact .inr hover'
  . have hnone : readBy? number s a = none := filter_read_eq_none hover.running (s.moves a)
    refine ⟨taken, rest ++ (s.accepted? a).toList, List.append_assoc _ _ _, ?_, .inr (hover.step a)⟩
    rw [hnone]
    simpa using hcut

theorem InOrder.getElem? {accepted : List Bytes} {reads : List Read} {m : Nat} {r : Read}
    (h : InOrder s number accepted reads) (hr : reads[m]? = some r)
    : ∃ datagram, accepted[m]? = some datagram ∧ r.octets = datagram.take r.room := by
  rcases h with ⟨taken, rest, rfl, hcut, -⟩
  rw [List.getElem?_eq_some_iff] at hr
  rcases hr with ⟨hm, rfl⟩
  have hm' : m < taken.length := by
    rw [hcut.length_eq]
    exact hm
  refine ⟨taken[m], ?_, hcut.get hm' hm⟩
  rw [List.getElem?_append_left hm', List.getElem?_eq_getElem hm']

theorem InOrder.queue_eq {accepted : List Bytes} {reads : List Read} {attempt : Attempt}
    (h : InOrder s number accepted reads) (hattempt : attempt ∈ s.line.running) (hnumber : attempt.number = number)
    : s.line.queue = accepted.drop reads.length := by
  rcases h with ⟨taken, rest, rfl, hcut, ⟨-, rfl⟩ | hover⟩
  . rw [← hcut.length_eq, List.drop_left]
  . exact absurd hnumber (hover.running attempt hattempt)

end Order

section Runs

variable {settings : Settings} {actions : List Action} {i j k number : Nat} {a : Action} {s : Shared}

def accepted (settings : Settings) (actions : List Action) (j k : Nat) : List Bytes :=
  Trace.collect accepted? step { line := { settings } } actions j k

def reads (settings : Settings) (actions : List Action) (number k : Nat) : List Read :=
  Trace.collect (readBy? number) step { line := { settings } } actions 0 k

/-- The moment from which datagrams belong to a handshake: the call for it finds nothing queued any more and goes on to
launch it. -/
structure Starts (settings : Settings) (actions : List Action) (j i number : Nat) : Prop where
  action : actions[j]? = some (.proceed i)
  call : (after settings actions j).calls[i]? = some .draining
  queue : (after settings actions j).line.queue = []
  number : (after settings actions j).line.started = number

theorem started_le (settings : Settings) (actions : List Action) (hj : j ≤ k)
    : (after settings actions j).line.started ≤ (after settings actions k).line.started :=
  after_of_le (P := fun s => (after settings actions j).line.started ≤ s.line.started)
    (fun s a _ hle => le_trans hle (s.started_le_step a)) hj le_rfl

theorem Starts.reads_eq_nil (h : Starts settings actions j i number) : reads settings actions number j = [] := by
  apply Trace.collect_eq_nil
  intro i' a _ hi' _
  apply filter_read_eq_none (s := after settings actions i') _ (Shared.moves _ a)
  intro attempt hattempt heq
  have hlt := (after_sound settings actions i').lt_started hattempt
  have hle := started_le settings actions (Nat.le_of_lt hi')
  rw [h.number] at hle
  omega

theorem Starts.next (h : Starts settings actions j i number)
    : (after settings actions (j + 1)).line = (after settings actions j).line ∧
      (after settings actions (j + 1)).calls[i]? = some .spawning := by
  have hproceed : Call.draining.proceed (after settings actions j).line =
      (.spawning, (after settings actions j).line) := by
    unfold Call.proceed
    dsimp only
    rw [h.queue]
  rw [after_succ h.action, calls_step_proceed h.call, step_proceed h.call, hproceed]
  exact ⟨rfl, rfl⟩

theorem Starts.inOrder (h : Starts settings actions j i number) (hk : j < k)
    : InOrder (after settings actions k) number (accepted settings actions j k) (reads settings actions number k) := by
  induction k, hk using Nat.le_induction with
  | base =>
    rcases h.next with ⟨hline, hcall⟩
    have haccepted : accepted settings actions j (j + 1) = [] := by
      unfold accepted
      rw [Trace.collect_succ le_rfl, Trace.collect_self, h.action]
      rfl
    have hreads : reads settings actions number (j + 1) = [] := by
      have hnone := h.reads_eq_nil
      unfold reads at hnone ⊢
      rw [Trace.collect_succ (Nat.zero_le j), hnone, h.action]
      rfl
    rw [haccepted, hreads]
    refine ⟨[], [], rfl, .nil, .inl ⟨.spawning (List.mem_of_getElem? hcall) ?_, ?_⟩⟩
    . rw [hline]
      exact h.number
    . rw [hline]
      exact h.queue
  | succ k hk ih =>
    unfold accepted reads at ih ⊢
    rw [Trace.collect_succ (by omega), Trace.collect_succ (Nat.zero_le k)]
    cases ha : actions[k]? with
    | none =>
      have hsame : after settings actions (k + 1) = after settings actions k := Trace.after_succ_of_none ha
      rw [hsame, Option.bind_none, Option.bind_none, Option.toList_none, Option.toList_none, List.append_nil,
        List.append_nil]
      exact ih
    | some a =>
      rw [after_succ ha]
      exact ih.step (after_sound settings actions k) a

def Launches (i number : Nat) (s : Shared) : Prop :=
  s.calls[i]? = some .spawning ∧ s.line.started = number ∨ s.calls[i]? = some (.started number)

theorem queue_eq_nil_of_drained (h : (Call.draining.proceed s.line).1 = .spawning) : s.line.queue = [] := by
  unfold Call.proceed at h
  dsimp only at h
  split at h
  . next hqueue => exact hqueue
  . simp at h

theorem Launches.of_same (hsound : s.Sound) (hsame : (s.step a).calls[i]? = s.calls[i]?)
    (h : Launches i number (s.step a)) : Launches i number s := by
  unfold Launches at h
  rw [hsame] at h
  rcases h with ⟨hspawning, hnumber⟩ | hstarted
  . left
    refine ⟨hspawning, ?_⟩
    rcases s.line_cases a with ⟨state, queue, running, hline, -⟩ | ⟨place, rfl, hplace, -⟩ | ⟨-, hline⟩
    . rw [hline] at hnumber
      exact hnumber
    . have heq := hsound.place_eq hspawning hplace rfl rfl
      rw [← heq] at hsame hplace
      rw [calls_step_proceed hplace, hplace] at hsame
      simp [Call.proceed] at hsame
    . rw [hline] at hnumber
      exact hnumber
  . exact .inr hstarted

theorem launches_step (hsound : s.Sound) (hnot : ¬ Launches i number s) (h : Launches i number (s.step a))
    : a = .proceed i ∧ s.calls[i]? = some .draining ∧ s.line.queue = [] ∧ s.line.started = number := by
  rcases s.step_calls a i with hsame | ⟨-, hentering⟩ | ⟨c, c', rfl, hc, hc', hproceeds⟩
  . exact absurd (h.of_same hsound hsame) hnot
  . unfold Launches at h
    rw [hentering] at h
    simp at h
  . have hnext : (c.proceed s.line).1 = c' := by
      rw [calls_step_proceed hc, Option.some.injEq] at hc'
      exact hc'
    unfold Launches at hnot h
    rw [hc'] at h
    rw [hc] at hnot ⊢
    generalize (s.step (.proceed i)).line = l at hproceeds h
    cases hproceeds with
    | take | retry | refuse | drop => simp at h
    | drained => exact ⟨rfl, rfl, queue_eq_nil_of_drained hnext, by simpa using h⟩
    | spawn =>
      exfalso
      apply hnot
      simpa using h
    | stay _ _ hholds =>
      exfalso
      rcases h with ⟨hspawning, -⟩ | hstarted
      . rw [Option.some.injEq] at hspawning
        rw [hspawning] at hholds
        simp [Call.holds] at hholds
      . exact hnot (.inr hstarted)

theorem exists_starts (h : (after settings actions k).calls[i]? = some (.started number))
    : ∃ j < k, Starts settings actions j i number := by
  rcases exists_step_of_after (P := Launches i number) (by simp [Launches]) (.inr h) with
    ⟨j, hj, a, ha, hnot, hstep⟩
  rcases launches_step (after_sound settings actions j) hnot hstep with ⟨rfl, hcall, hqueue, hstarted⟩
  exact ⟨j, hj, ha, hcall, hqueue, hstarted⟩

theorem exists_call {attempt : Attempt} (hattempt : attempt ∈ (after settings actions k).line.running)
    : ∃ i : Nat, (after settings actions k).calls[i]? = some (.started attempt.number) := by
  have hsound := after_sound settings actions k
  have hcount := (hsound.started attempt.number).1 (hsound.lt_started hattempt)
  rw [← List.mem_iff_getElem?, ← List.count_pos_iff]
  omega

theorem settings_after (settings : Settings) (actions : List Action) (k : Nat)
    : (after settings actions k).line.settings = settings :=
  after_of_le (P := fun s => s.line.settings = settings) (fun s a _ h => (s.settings_step a).trans h)
    (Nat.zero_le k) rfl

theorem length_queue_le (settings : Settings) (actions : List Action) (k : Nat)
    : (after settings actions k).line.queue.length ≤ settings.queueCapacity := by
  have hkeeps : ∀ (s : Shared) (a : Action), s.Sound →
      s.line.queue.length ≤ s.line.settings.queueCapacity →
      (s.step a).line.queue.length ≤ (s.step a).line.settings.queueCapacity := by
    intro s a _ hle
    rw [settings_step]
    have hmoves := s.moves a
    generalize (s.step a).line.queue = queue at hmoves ⊢
    generalize s.accepted? a = accepted at hmoves
    generalize s.read? a = read at hmoves
    cases hmoves with
    | same => exact hle
    | accept datagram hroom =>
      rw [List.length_append, List.length_singleton]
      exact hroom
    | drop datagram queue _ hqueue =>
      rw [hqueue, List.length_cons] at hle
      omega
    | read number room datagram queue _ hqueue =>
      rw [hqueue, List.length_cons] at hle
      omega
  have hinit : (after settings actions 0).line.queue.length ≤ (after settings actions 0).line.settings.queueCapacity :=
    Nat.zero_le _
  have hle := after_of_le (P := fun s => s.line.queue.length ≤ s.line.settings.queueCapacity) hkeeps
    (Nat.zero_le k) hinit
  rw [settings_after] at hle
  exact hle

theorem attached_iff
    : (after settings actions k).line.attached = false ↔ ∃ i < k, actions[i]? = some .detach := by
  constructor
  . intro h
    rcases exists_step_of_after (P := fun s => s.line.attached = false) (by simp) h with ⟨j, hj, a, ha, hnot, hstep⟩
    rcases (attached_step _ a).1 hstep with hbefore | rfl
    . exact absurd hbefore hnot
    . exact ⟨j, hj, ha⟩
  . intro h
    rcases h with ⟨j, hj, ha⟩
    have hdetached : (after settings actions (j + 1)).line.attached = false := by
      rw [after_succ ha, attached_step]
      exact .inr rfl
    exact after_of_le (P := fun s => s.line.attached = false) (fun s a _ hs => (attached_step s a).2 (.inl hs)) hj
      hdetached

theorem step_enqueue (s : Shared) (datagram : Bytes)
    : ((s.line.enqueue datagram).1 = true ↔ s.line.queue.length < s.line.settings.queueCapacity) ∧
      s.step (.enqueue datagram) =
        if (s.line.enqueue datagram).1 then
          { s with line := { s.line with queue := s.line.queue ++ [datagram] } }
        else s := by
  unfold step Line.enqueue
  dsimp only
  split
  . next hroom => simp [hroom]
  . next hroom => simp [hroom]

theorem answer_of_read {attempt : Attempt} (hattempt : attempt ∈ (after settings actions k).line.running) (room : Nat)
    (givesUp : Bool)
    : ∃ p,
        (after settings actions k).line.advance attempt.number (.read room givesUp) = some p ∧
        ((∃ datagram queue,
            (after settings actions k).line.queue = datagram :: queue ∧ p.line.queue = queue ∧
            p.answer = .datagram (datagram.take room)) ∨
          ((after settings actions k).line.queue = [] ∧
            ∃ reason, p.answer = .noDatagram reason givesUp ∧
              (reason = .closed ↔ ∃ i < k, actions[i]? = some .detach))) := by
  cases hadvance : (after settings actions k).line.advance attempt.number (.read room givesUp) with
  | none =>
    rcases (after_sound settings actions k).advance_eq_none hattempt hadvance with ⟨-, message, heq⟩
    simp at heq
  | some p =>
    refine ⟨p, rfl, ?_⟩
    rcases Line.advance_read hadvance with ⟨datagram, queue, hqueue, hanswer, hrest⟩ | ⟨hqueue, hanswer, -⟩
    . exact .inl ⟨datagram, queue, hqueue, hrest, hanswer⟩
    . refine .inr ⟨hqueue, _, hanswer, ?_⟩
      rw [← attached_iff]
      cases (after settings actions k).line.attached with
      | true => simp
      | false => simp

/-- In every order of steps: the queue is never longer than its capacity, and takes a datagram exactly as long as it is
shorter; each launched handshake has a start within the call for it; what it reads is, one for one, what was accepted
since, and the rest is queued as long as it runs; and without a datagram a read tells whether the session has gone
away. -/
theorem reads_in_order (settings : Settings) (actions : List Action)
    : let s := after settings actions
      (∀ k, (s k).line.queue.length ≤ settings.queueCapacity) ∧
      (∀ k datagram,
        (((s k).line.enqueue datagram).1 = true ↔ (s k).line.queue.length < settings.queueCapacity) ∧
        (s k).step (.enqueue datagram) =
          if ((s k).line.enqueue datagram).1 then
            { s k with line := { (s k).line with queue := (s k).line.queue ++ [datagram] } }
          else s k) ∧
      (∀ (k i number : Nat), (s k).calls[i]? = some (.started number) → ∃ j < k, Starts settings actions j i number) ∧
      (∀ k, ∀ attempt ∈ (s k).line.running, ∃ i : Nat, (s k).calls[i]? = some (.started attempt.number)) ∧
      (∀ i j k number, Starts settings actions j i number → j ≤ k →
        (∀ (m : Nat) (r : Read), (reads settings actions number k)[m]? = some r →
          ∃ datagram, (accepted settings actions j k)[m]? = some datagram ∧ r.octets = datagram.take r.room) ∧
        ∀ attempt ∈ (s k).line.running, attempt.number = number →
          (s k).line.queue = (accepted settings actions j k).drop (reads settings actions number k).length) ∧
      (∀ k, ∀ attempt ∈ (s k).line.running, ∀ room givesUp, ∃ p,
        (s k).line.advance attempt.number (.read room givesUp) = some p ∧
        ((∃ datagram queue,
            (s k).line.queue = datagram :: queue ∧ p.line.queue = queue ∧
            p.answer = .datagram (datagram.take room)) ∨
          ((s k).line.queue = [] ∧
            ∃ reason, p.answer = .noDatagram reason givesUp ∧
              (reason = .closed ↔ ∃ i < k, actions[i]? = some .detach)))) := by
  intro s
  refine ⟨length_queue_le settings actions, ?_, ?_, ?_, ?_, ?_⟩
  . intro k datagram
    have hstep := (s k).step_enqueue datagram
    rw [settings_after] at hstep
    exact hstep
  . intro k i number h
    exact exists_starts h
  . intro k attempt hattempt
    exact exists_call hattempt
  . intro i j k number hstart hj
    rcases Nat.eq_or_lt_of_le hj with rfl | hlt
    . rw [hstart.reads_eq_nil]
      refine ⟨by simp, ?_⟩
      intro attempt hattempt hnumber
      have hlt := (after_sound settings actions j).lt_started hattempt
      rw [hstart.number, hnumber] at hlt
      exact absurd hlt (lt_irrefl number)
    . have horder := hstart.inOrder hlt
      refine ⟨?_, ?_⟩
      . intro m r hr
        exact horder.getElem? hr
      . intro attempt hattempt hnumber
        exact horder.queue_eq hattempt hnumber
  . intro k attempt hattempt room givesUp
    exact answer_of_read hattempt room givesUp

end Runs

end Shared

end Intercom.Handshake
