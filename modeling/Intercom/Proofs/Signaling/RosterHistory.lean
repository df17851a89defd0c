import Mathlib
import Intercom.Proofs.Signaling.Audience

/-!
This module contains what a run of operations makes of the roster and its readers: who is registered with which name
and talk state, and what each reader reads.
-/

namespace Intercom.Signaling.Audience

open Directory (Op)

variable {a : Audience} {ops : List Op} {op : Op} {id : SessionId} {info : SessionInfo} {j k n : Nat} {queue : Queue}
variable {all sent : List ServerMessage}

/-- The `j`-th operation registers the session, and none of the later ones before the `k`-th registers its id again or
removes it. -/
def Registered (ops : List Op) (k j : Nat) (info : SessionInfo) : Prop :=
  j < k ∧ ops[j]? = some (.register info) ∧ ∀ i op, j < i → i < k → ops[i]? = some op → op.ends? ≠ some info.id

def lastState (ops : List Op) (k j : Nat) (id : SessionId) : TalkState :=
  (((ops.take k).drop (j + 1)).filterMap (Op.state? id)).getLast?.getD .idle

def registrations (ops : List Op) (k : Nat) : Nat :=
  (ops.take k).countP Op.isRegister

/-- The messages that were sent to the `n`-th reader while its queue was neither full nor closed. -/
def accepted (n : Nat) (ops : List Op) (k : Nat) : List ServerMessage :=
  Trace.collect (accepted? n) step {} ops 0 k

def read (n : Nat) (ops : List Op) (k : Nat) : List ServerMessage :=
  Trace.collect (read? n) step {} ops 0 k

/-- A reader reads what its queue has taken, in order; as long as it does not go, the queue holds what it has not read
yet. -/
structure Reads (n : Nat) (ops : List Op) (k : Nat) (queue : Queue) : Prop where
  bounded : queue.messages.length ≤ queueCapacity
  receives : Receives (accepted n ops k) (read n ops k) queue
  open_iff : queue.isOpen = true ↔ ∀ j < k, ops[j]? = some (.drop n) → (Trace.after step {} ops j).queue? n = none

section Registrations

theorem registered_succ (hop : ops[k]? = some op)
    : Registered ops (k + 1) j info ↔
        (j = k ∧ op = .register info) ∨ (Registered ops k j info ∧ op.ends? ≠ some info.id) := by
  unfold Registered
  constructor
  . rintro ⟨hj, hregister, hlater⟩
    rcases Nat.lt_succ_iff_lt_or_eq.1 hj with hj | rfl
    . exact .inr ⟨⟨hj, hregister, fun i op hi hik => hlater i op hi (by omega)⟩, hlater k op hj (by omega) hop⟩
    . exact .inl ⟨rfl, Option.some.inj (hop.symm.trans hregister)⟩
  . rintro (⟨rfl, rfl⟩ | ⟨⟨hj, hregister, hlater⟩, hends⟩)
    . exact ⟨by omega, hop, fun i op hi hik => by omega⟩
    . refine ⟨by omega, hregister, ?_⟩
      intro i op' hi hik hop'
      rcases Nat.lt_succ_iff_lt_or_eq.1 hik with hik | rfl
      . exact hlater i op' hi hik hop'
      . rw [hop] at hop'
        rw [← Option.some.inj hop']
        exact hends

theorem registered_succ_of_none (hnone : ops[k]? = none) : Registered ops (k + 1) j info ↔ Registered ops k j info := by
  have hlt {i : Nat} {op : Op} (hi : i < k + 1) (hop : ops[i]? = some op) : i < k := by
    rcases Nat.lt_succ_iff_lt_or_eq.1 hi with hi | rfl
    . exact hi
    . rw [hnone] at hop
      simp at hop
  unfold Registered
  constructor
  . rintro ⟨hj, hregister, hlater⟩
    exact ⟨hlt hj hregister, hregister, fun i op hi hik => hlater i op hi (by omega)⟩
  . rintro ⟨hj, hregister, hlater⟩
    exact ⟨by omega, hregister, fun i op hi hik hop => hlater i op hi (hlt hik hop) hop⟩

theorem lastState_succ (hj : j < k) (hop : ops[k]? = some op) (id : SessionId)
    : lastState ops (k + 1) j id = (op.state? id).getD (lastState ops k j id) := by
  have hlength : j + 1 ≤ (ops.take k).length := by
    have := (List.getElem?_eq_some_iff.1 hop).1
    rw [List.length_take]
    omega
  unfold lastState
  rw [List.take_add_one, hop, List.drop_append_of_le_length hlength, List.filterMap_append, List.getLast?_append]
  cases hstate : op.state? id with
  | none => simp [hstate]
  | some state => simp [hstate]

theorem lastState_succ_of_none (hnone : ops[k]? = none) : lastState ops (k + 1) j id = lastState ops k j id := by
  unfold lastState
  rw [List.take_add_one, hnone, Option.toList_none, List.append_nil]

theorem lastState_self (ops : List Op) (k : Nat) (id : SessionId) : lastState ops (k + 1) k id = .idle := by
  unfold lastState
  rw [List.drop_of_length_le (List.length_take_le ..)]
  rfl

theorem registrations_succ (hop : ops[k]? = some op)
    : registrations ops (k + 1) = registrations ops k + op.isRegister.toNat := by
  unfold registrations
  rw [List.take_add_one, hop, List.countP_append, Option.toList_some, List.countP_singleton]
  cases op.isRegister with
  | false => rfl
  | true => rfl

theorem registrations_succ_of_none (hnone : ops[k]? = none) : registrations ops (k + 1) = registrations ops k := by
  unfold registrations
  rw [List.take_add_one, hnone, Option.toList_none, List.append_nil]

theorem length_after (ops : List Op) (k : Nat) : (Trace.after step {} ops k).places.length = registrations ops k := by
  induction k with
  | zero => rfl
  | succ k ih =>
    cases hop : ops[k]? with
    | none => rw [Trace.after_succ_of_none hop, registrations_succ_of_none hop, ih]
    | some op => rw [Trace.after_succ hop, length_step, registrations_succ hop, ih]

theorem holds_after_iff (ops : List Op) (k n : Nat) (id : SessionId)
    : (Trace.after step {} ops k).Holds n id ↔ ∃ j name, Registered ops k j ⟨id, name⟩ ∧ n = registrations ops j := by
  induction k with
  | zero =>
    constructor
    . intro h
      exact absurd (holds_lt h) (Nat.not_lt_zero n)
    . rintro ⟨j, name, ⟨hj, -⟩, -⟩
      exact absurd hj (Nat.not_lt_zero j)
  | succ k ih =>
    cases hop : ops[k]? with
    | none =>
      rw [Trace.after_succ_of_none hop, ih]
      simp only [registered_succ_of_none hop]
    | some op =>
      rw [Trace.after_succ hop, (Sound.after ops k).holds_step, ih, length_after]
      simp only [registered_succ hop]
      constructor
      . rintro (⟨info, rfl, rfl, rfl⟩ | ⟨⟨j, name, hregistered, rfl⟩, hends⟩)
        . exact ⟨k, info.name, .inl ⟨rfl, rfl⟩, rfl⟩
        . exact ⟨j, name, .inr ⟨hregistered, hends⟩, rfl⟩
      . rintro ⟨j, name, ⟨rfl, rfl⟩ | ⟨hregistered, hends⟩, rfl⟩
        . exact .inl ⟨⟨id, name⟩, rfl, rfl, rfl⟩
        . exact .inr ⟨⟨j, name, hregistered, rfl⟩, hends⟩

theorem entry_of_registered (hregistered : Registered ops k j info)
    : ∃ e, (Trace.after step {} ops k).roster.directory info.id = some e ∧ e.name = info.name ∧
        e.state = lastState ops k j info.id := by
  induction k with
  | zero => exact absurd hregistered.1 (Nat.not_lt_zero j)
  | succ k ih =>
    cases hop : ops[k]? with
    | none =>
      rw [Trace.after_succ_of_none hop, lastState_succ_of_none hop]
      exact ih ((registered_succ_of_none hop).1 hregistered)
    | some op =>
      have hstep := steps_perform (Sound.after ops k).ascending op
      rw [Trace.after_succ hop]
      rcases (registered_succ hop).1 hregistered with ⟨rfl, rfl⟩ | ⟨hregistered, hends⟩
      . rw [lastState_self]
        exact ⟨_, hstep.registered, rfl, rfl⟩
      . rcases ih hregistered with ⟨e, he, hname, hstate⟩
        rcases hstep.keeps hends he with ⟨e', he', hname', hstate'⟩
        refine ⟨e', he', hname'.trans hname, ?_⟩
        rw [hstate', hstate, lastState_succ hregistered.1 hop]

theorem registered_of_entry {e : Entry} (he : (Trace.after step {} ops k).roster.directory id = some e)
    : ∃ j, Registered ops k j ⟨id, e.name⟩ ∧ e.state = lastState ops k j id ∧
        (Trace.after step {} ops k).queue? (registrations ops j) = some e.queue := by
  have hseat : ∃ n, (Trace.after step {} ops k).Holds n id := by
    by_contra hfree
    rw [((Sound.after ops k).seated id).2 fun n hn => hfree ⟨n, hn⟩] at he
    simp at he
  rcases hseat with ⟨n, hholds⟩
  rcases (holds_after_iff ops k n id).1 hholds with ⟨j, name, hregistered, rfl⟩
  rcases entry_of_registered hregistered with ⟨e', he', hname, hstate⟩
  have heq : e' = e := Option.some.inj (he'.symm.trans he)
  rw [heq] at hname hstate
  rw [hname]
  refine ⟨j, hregistered, hstate, ?_⟩
  rw [queue?_of_holds hholds, he]
  rfl

theorem directory_eq_some_iff (ops : List Op) (k : Nat) (id : SessionId) (e : Entry)
    : (Trace.after step {} ops k).roster.directory id = some e ↔
        ∃ j, Registered ops k j ⟨id, e.name⟩ ∧ e.state = lastState ops k j id ∧
          (Trace.after step {} ops k).queue? (registrations ops j) = some e.queue := by
  constructor
  . exact registered_of_entry
  . rintro ⟨j, hregistered, hstate, hqueue⟩
    rcases entry_of_registered hregistered with ⟨e', he', hname', hstate'⟩
    rw [queue?_of_holds ((holds_after_iff ops k _ id).2 ⟨j, e.name, hregistered, rfl⟩), he', Option.map_some,
      Option.some.injEq] at hqueue
    rw [he']
    rcases e with ⟨name, state, queue⟩
    rcases e' with ⟨name', state', queue'⟩
    dsimp only at hname' hstate' hqueue hstate
    rw [hname', hstate', hqueue, hstate]

theorem mem_snapshot_iff (ops : List Op) (k : Nat) (s : ClientStatus)
    : s ∈ (Trace.after step {} ops k).roster.snapshot ↔
        ∃ j, Registered ops k j ⟨s.id, s.name⟩ ∧ s.state = lastState ops k j s.id := by
  rw [(Roster.lists_snapshot (Sound.after ops k).ascending).mem_iff]
  constructor
  . rintro ⟨e, he, hname, hstate⟩
    rcases registered_of_entry he with ⟨j, hregistered, hlast, -⟩
    rw [hname, hstate]
    exact ⟨j, hregistered, hlast⟩
  . rintro ⟨j, hregistered, hstate⟩
    rcases entry_of_registered hregistered with ⟨e, he, hname, hlast⟩
    exact ⟨e, he, hname.symm, hstate.trans hlast.symm⟩

theorem directory_eq_none (hnone : ∀ j name, ¬ Registered ops k j ⟨id, name⟩)
    : (Trace.after step {} ops k).roster.directory id = none := by
  cases he : (Trace.after step {} ops k).roster.directory id with
  | none => rfl
  | some e =>
    rcases registered_of_entry he with ⟨j, hregistered, -⟩
    exact absurd hregistered (hnone j e.name)

end Registrations

section Reading

theorem length_served_le (h : queue.messages.length ≤ queueCapacity) (m : Option ServerMessage) (op : Op)
    : (op.served n m queue).messages.length ≤ queueCapacity := by
  unfold Op.served
  cases op with
  | register | remove | setState | send | sendAll | sendList | snapshot =>
    cases m with
    | none => exact h
    | some m => exact Queue.length_send_le h m
  | read j =>
    dsimp only
    split
    . dsimp only
      rw [List.length_tail]
      omega
    . exact h
  | drop j =>
    dsimp only
    split
    . exact Nat.zero_le _
    . exact h

theorem isOpen_served_iff (m : Option ServerMessage) (op : Op)
    : (op.served n m queue).isOpen = true ↔ queue.isOpen = true ∧ op ≠ .drop n := by
  unfold Op.served
  cases op with
  | register | remove | setState | send | sendAll | sendList | snapshot =>
    cases m with
    | none => simp
    | some m => simp [Queue.isOpen_send]
  | read j =>
    dsimp only
    split
    . simp
    . simp
  | drop j =>
    dsimp only
    split
    . next hj => simp [hj]
    . next hj => simp [hj]

theorem sent?_eq_none (hsent : ∀ list id, op.sent? list id = none) : a.sent? n op = none := by
  unfold sent?
  rw [Option.bind_eq_none_iff]
  intro id _
  exact hsent _ id

theorem read?_read (a : Audience) (n j : Nat)
    : read? n a (.read j) = if j = n then (a.queue? j).bind (·.messages.head?) else none := by
  unfold read?
  dsimp only
  rw [answer_read]

theorem receives_step (hreceives : Receives all sent queue) (hqueue : a.queue? n = some queue) (op : Op)
    : Receives (all ++ (accepted? n a op).toList) (sent ++ (read? n a op).toList)
        (op.served n (a.sent? n op) queue) := by
  have hquiet (hsent : ∀ list id, op.sent? list id = none) : accepted? n a op = none := by
    unfold accepted?
    rw [sent?_eq_none hsent]
    rfl
  have hoffer : Receives (all ++ (accepted? n a op).toList) (sent ++ [])
      (((a.sent? n op).map fun m => (queue.send m).2).getD queue) := by
    unfold accepted?
    rw [hqueue, List.append_nil]
    cases a.sent? n op with
    | none =>
      rw [Option.filter_none, Option.toList_none, List.append_nil]
      exact hreceives
    | some m =>
      have hm := hreceives.offer m
      rw [Option.map_some, Option.getD_some, Option.any_some, Option.filter_some]
      by_cases hroom : queue.HasRoom
      . rw [if_pos hroom] at hm
        rw [if_pos (decide_eq_true hroom)]
        exact hm
      . rw [if_neg hroom] at hm
        rw [if_neg (by simpa using hroom)]
        exact hm
  cases op with
  | register | remove | setState | send | sendAll | sendList | snapshot => exact hoffer
  | read j =>
    rw [hquiet fun _ _ => rfl, Option.toList_none, List.append_nil, read?_read]
    unfold Op.served
    dsimp only
    by_cases hj : j = n
    . rw [if_pos hj, if_pos hj, hj, hqueue, Option.bind_some]
      cases hmessages : queue.messages with
      | nil =>
        rw [List.head?_nil, Option.toList_none, List.append_nil, List.tail_nil, ← hmessages]
        exact hreceives
      | cons m rest =>
        have htake : queue.take? = some (m, { queue with messages := rest }) := by
          unfold Queue.take?
          rw [hmessages]
        exact hreceives.take htake
    . rw [if_neg hj, if_neg hj, Option.toList_none, List.append_nil]
      exact hreceives
  | drop j =>
    rw [hquiet fun _ _ => rfl, Option.toList_none, List.append_nil]
    unfold Op.served read?
    dsimp only
    rw [Option.toList_none, List.append_nil]
    split
    . exact hreceives.close
    . exact hreceives

theorem queue?_eq_none_of_le (hj : j ≤ k) (hnone : (Trace.after step {} ops k).queue? n = none)
    : (Trace.after step {} ops j).queue? n = none := by
  by_contra hsome
  have hkeeps : (Trace.after step {} ops k).queue? n ≠ none := by
    apply Trace.keeps (P := fun a : Audience => a.queue? n ≠ none) _ hj hsome
    intro i op _ h
    rcases Option.ne_none_iff_exists'.1 h with ⟨queue, hqueue⟩
    rw [queue?_step (Sound.after ops i) hqueue]
    simp
  exact hkeeps hnone

theorem accepted?_eq_none (hnone : a.queue? n = none) (op : Op) : accepted? n a op = none := by
  unfold accepted?
  rw [hnone]
  cases a.sent? n op with
  | none => rfl
  | some m => rfl

theorem read?_eq_none (hnone : a.queue? n = none) (op : Op) : read? n a op = none := by
  cases op with
  | register | remove | setState | send | sendAll | sendList | snapshot | drop => rfl
  | read j =>
    rw [read?_read]
    split
    . next hj =>
      rw [hj, hnone]
      rfl
    . rfl

theorem silent (hnone : (Trace.after step {} ops k).queue? n = none) : accepted n ops k = [] ∧ read n ops k = [] := by
  constructor
  . apply Trace.collect_eq_nil
    intro i op _ hi _
    exact accepted?_eq_none (queue?_eq_none_of_le (Nat.le_of_lt hi) hnone) op
  . apply Trace.collect_eq_nil
    intro i op _ hi _
    exact read?_eq_none (queue?_eq_none_of_le (Nat.le_of_lt hi) hnone) op

theorem accepted_succ (hop : ops[k]? = some op)
    : accepted n ops (k + 1) = accepted n ops k ++ (accepted? n (Trace.after step {} ops k) op).toList := by
  unfold accepted
  rw [Trace.collect_succ (Nat.zero_le k), hop]
  rfl

theorem read_succ (hop : ops[k]? = some op)
    : read n ops (k + 1) = read n ops k ++ (read? n (Trace.after step {} ops k) op).toList := by
  unfold read
  rw [Trace.collect_succ (Nat.zero_le k), hop]
  rfl

theorem Reads.succ_of_none (hreads : Reads n ops k queue) (hnone : ops[k]? = none) : Reads n ops (k + 1) queue := by
  constructor
  . exact hreads.bounded
  . unfold accepted read
    rw [Trace.collect_succ (Nat.zero_le k), Trace.collect_succ (Nat.zero_le k), hnone, Option.bind_none,
      Option.bind_none, Option.toList_none, List.append_nil, List.append_nil]
    exact hreads.receives
  . rw [hreads.open_iff]
    constructor
    . intro h j hj hdrop
      rcases Nat.lt_succ_iff_lt_or_eq.1 hj with hj | rfl
      . exact h j hj hdrop
      . rw [hnone] at hdrop
        simp at hdrop
    . intro h j hj
      exact h j (by omega)

theorem Reads.empty (hop : ops[k]? = some op) (hnone : (Trace.after step {} ops k).queue? n = none)
    : Reads n ops (k + 1) {} := by
  rcases silent hnone with ⟨haccepted, hread⟩
  constructor
  . exact Nat.zero_le _
  . rw [accepted_succ hop, read_succ hop, haccepted, hread, accepted?_eq_none hnone, read?_eq_none hnone]
    exact ⟨List.prefix_refl _, fun _ => rfl⟩
  . constructor
    . intro _ j hj _
      exact queue?_eq_none_of_le (Nat.lt_succ_iff.1 hj) hnone
    . intro _
      rfl

theorem Reads.step (hreads : Reads n ops k queue) (hop : ops[k]? = some op)
    (hqueue : (Trace.after Audience.step {} ops k).queue? n = some queue)
    : Reads n ops (k + 1) (op.served n ((Trace.after Audience.step {} ops k).sent? n op) queue) := by
  constructor
  . exact length_served_le hreads.bounded _ op
  . rw [accepted_succ hop, read_succ hop]
    exact receives_step hreads.receives hqueue op
  . rw [isOpen_served_iff, hreads.open_iff]
    constructor
    . rintro ⟨h, hne⟩ j hj hdrop
      rcases Nat.lt_succ_iff_lt_or_eq.1 hj with hj | rfl
      . exact h j hj hdrop
      . exact absurd (Option.some.inj (hop.symm.trans hdrop)) hne
    . intro h
      constructor
      . intro j hj
        exact h j (by omega)
      . rintro rfl
        rw [h k (Nat.lt_succ_self k) hop] at hqueue
        simp at hqueue

theorem reads_after (ops : List Op) (k n : Nat) (hqueue : (Trace.after step {} ops k).queue? n = some queue)
    : Reads n ops k queue := by
  -- Along the run: a reader has no queue at first, gets an empty one when it registers and never loses it.
  induction k generalizing queue with
  | zero => simp [Trace.after, queue?] at hqueue
  | succ k ih =>
    cases hop : ops[k]? with
    | none =>
      rw [Trace.after_succ_of_none hop] at hqueue
      exact (ih hqueue).succ_of_none hop
    | some op =>
      rw [Trace.after_succ hop] at hqueue
      cases hbefore : (Trace.after step {} ops k).queue? n with
      | none =>
        rw [(queue?_step_of_none (Sound.after ops k) hbefore hqueue).2]
        exact .empty hop hbefore
      | some before =>
        rw [queue?_step (Sound.after ops k) hbefore, Option.some.injEq] at hqueue
        rw [← hqueue]
        exact (ih hbefore).step hop hbefore

end Reading

/-- The roster is a map from ids to entries: each operation does to it what it does to the map and answers accordingly,
an unknown id gives `false` and changes nothing, and the order in which the clients are gone through does not matter.
Who is listed, and under which name and talk state, follows from the operations so far; so does what each reader reads,
wherever its queue stands. -/
theorem follows_directory (ops : List Op) (k : Nat)
    : let a := Trace.after step {} ops k
      (k = 0 → a.roster.directory = fun _ => none) ∧
      (∀ op, a.roster.directory.Steps a.Holds op (a.perform op).1 (a.step op).roster.directory) ∧
      (a.roster.snapshot.Pairwise (·.id.value < ·.id.value) ∧
        ∀ s, s ∈ a.roster.snapshot ↔ ∃ j, Registered ops k j ⟨s.id, s.name⟩ ∧ s.state = lastState ops k j s.id) ∧
      (∀ id e,
        a.roster.directory id = some e ↔
          ∃ j, Registered ops k j ⟨id, e.name⟩ ∧ e.state = lastState ops k j id ∧
            a.queue? (registrations ops j) = some e.queue) ∧
      (∀ n id, a.Holds n id ↔ ∃ j name, Registered ops k j ⟨id, name⟩ ∧ n = registrations ops j) ∧
      (∀ n < registrations ops k,
        ∃ queue,
          a.queue? n = some queue ∧ Reads n ops k queue ∧
          (a.perform (.read n)).1 = .message queue.messages.head?) ∧
      (∀ id, (∀ j name, ¬ Registered ops k j ⟨id, name⟩) →
        a.perform (.remove id) = (.flag false, a) ∧
        (∀ state, a.perform (.setState id state) = (.flag false, a)) ∧
        ∀ m, a.perform (.send id m) = (.flag false, a)) ∧
      (∀ m order, order.Perm (a.roster.clients.map (·.id)) → a.roster.sendEach m order = a.roster.sendAll m) ∧
      ∀ list : List ClientStatus,
        list.Perm a.roster.snapshot → list.mergeSort ClientStatus.isUpTo = a.roster.snapshot := by
  intro a
  have hsound : a.Sound := Sound.after ops k
  refine ⟨?_, steps_perform hsound.ascending, ⟨hsound.ascending.pairwise_snapshot, mem_snapshot_iff ops k⟩,
    directory_eq_some_iff ops k, holds_after_iff ops k, ?_, ?_,
    fun m _ horder => Roster.sendEach_eq_sendAll hsound.ascending m horder,
    fun _ hlist => Roster.mergeSort_eq_snapshot hsound.ascending hlist⟩
  . intro hk
    unfold a
    rw [hk]
    rfl
  . intro n hn
    cases hqueue : a.queue? n with
    | none =>
      rw [queue?_eq_none_iff hsound, length_after] at hqueue
      omega
    | some queue =>
      refine ⟨queue, rfl, reads_after ops k n hqueue, ?_⟩
      rw [answer_read, hqueue]
      rfl
  . intro id hnone
    exact perform_of_unknown (directory_eq_none hnone)

def sampleReplaced : List Op :=
  [.register ⟨.base, "Ada"⟩, .send .base (.disconnected "a"), .register ⟨.base, "Ben"⟩,
    .send .base (.disconnected "b"), .read 0, .read 0, .read 1]

example : read 0 sampleReplaced 7 = [.disconnected "a"] ∧ read 1 sampleReplaced 7 = [.disconnected "b"] := by
  decide +kernel

end Intercom.Signaling.Audience
