import Mathlib
import Intercom.Proofs.Signaling.Directory
import Intercom.Proofs.Signaling.Greeting
import Intercom.Proofs.Trace

/-!
This module contains the roster together with the readers of its queues. A reader keeps its queue when its id is removed
or registered again; what it reads is what its queue has taken.
-/

namespace Intercom.Signaling

open Directory (Op Answer Steps)

/-- Where the queue of a reader stands: under an id in the roster, or nowhere any more. -/
inductive Place where
  | seated (id : SessionId)
  | outside (queue : Queue)

namespace Place

def id? : Place → Option SessionId
  | seated id => some id
  | outside _ => none

def leave (id : SessionId) (queue : Option Queue) : Place → Place
  | seated own => if own = id then (queue.map outside).getD (seated own) else seated own
  | outside queue => outside queue

end Place

structure Audience where
  roster : Roster := {}
  /-- One for each registration, in the order of the registrations. -/
  places : List Place := []

namespace Audience

variable {a : Audience} {op : Op} {id j : SessionId} {n n' : Nat} {queue queue' : Queue}
variable {former : Option Queue}

def perform (a : Audience) : Op → Answer × Audience
  | .register info =>
    let former := (a.roster.get? info.id).map (·.queue)
    (.done, ⟨a.roster.register info, a.places.map (.leave info.id former) ++ [.seated info.id]⟩)
  | .remove id =>
    let (former, roster) := a.roster.remove id
    (.flag former.isSome, ⟨roster, a.places.map (.leave id former)⟩)
  | .setState id state =>
    let (known, roster) := a.roster.setState id state
    (.flag known, { a with roster })
  | .send id m =>
    let (taken, roster) := a.roster.send id m
    (.flag taken, { a with roster })
  | .sendAll m =>
    let (count, roster) := a.roster.sendAll m
    (.count count, { a with roster })
  | .sendList =>
    let (count, roster) := a.roster.sendList
    (.count count, { a with roster })
  | .snapshot => (.list a.roster.snapshot, a)
  | .read n =>
    match a.places[n]? with
    | none => (.message none, a)
    | some (.seated id) =>
      let taken := a.roster.take? id
      (.message (taken.map Prod.fst), { a with roster := (taken.map Prod.snd).getD a.roster })
    | some (.outside queue) =>
      let taken := queue.take?
      (.message (taken.map Prod.fst), { a with places := a.places.set n (.outside ((taken.map Prod.snd).getD queue)) })
  | .drop n =>
    match a.places[n]? with
    | none => (.done, a)
    | some (.seated id) => (.done, { a with roster := a.roster.closeQueue id })
    | some (.outside _) => (.done, { a with places := a.places.set n (.outside .close) })

def step (a : Audience) (op : Op) : Audience :=
  (a.perform op).2

def Holds (a : Audience) (n : Nat) (id : SessionId) : Prop :=
  a.places[n]? = some (.seated id)

def queue? (a : Audience) (n : Nat) : Option Queue :=
  a.places[n]?.bind fun
    | .seated id => (a.roster.directory id).map (·.queue)
    | .outside queue => some queue

def sent? (n : Nat) (a : Audience) (op : Op) : Option ServerMessage :=
  (a.places[n]?.bind Place.id?).bind (op.sent? a.roster.snapshot)

/-- The message that an operation sends to the `n`-th reader while its queue is neither full nor closed. -/
def accepted? (n : Nat) (a : Audience) (op : Op) : Option ServerMessage :=
  (a.sent? n op).filter fun _ => (a.queue? n).any (·.HasRoom)

def read? (n : Nat) (a : Audience) : Op → Option ServerMessage
  | .read j =>
    match (a.perform (.read j)).1 with
    | .message m => if j = n then m else none
    | .done | .flag _ | .count _ | .list _ => none
  | .register _ | .remove _ | .setState _ _ | .send _ _ | .sendAll _ | .sendList | .snapshot | .drop _ => none

/-- Every id in the roster has one reader, and every reader that is seated has an id in the roster. -/
structure Sound (a : Audience) : Prop where
  ascending : a.roster.Ascending
  seated : ∀ id, a.roster.directory id = none ↔ ∀ n, ¬ a.Holds n id
  single : ∀ n n' id, a.Holds n id → a.Holds n' id → n = n'

section Refinement

theorem steps_perform (hascending : a.roster.Ascending) (op : Op)
    : a.roster.directory.Steps a.Holds op (a.perform op).1 (a.step op).roster.directory := by
  unfold step perform
  cases op with
  | register info =>
    dsimp only
    rw [Roster.directory_register]
    exact .registers info
  | remove id =>
    have hknown : (a.roster.remove id).1.isSome = (a.roster.directory id).isSome := by
      unfold Roster.remove Roster.directory
      rw [Option.isSome_map, Option.isSome_map]
    dsimp only
    rw [hknown, Roster.directory_remove]
    exact .removes id
  | setState id state =>
    have hknown : (a.roster.setState id state).1 = (a.roster.directory id).isSome := by
      unfold Roster.setState Roster.isRegistered Roster.directory
      rw [Option.isSome_map]
    have hdirectory : (a.roster.setState id state).2.directory =
        a.roster.directory.change id fun e => { e with state } := by
      unfold Roster.setState
      exact Roster.directory_modify (fun _ => rfl) fun _ _ => rfl
    dsimp only
    rw [hknown, hdirectory]
    exact .setsState id state
  | send id m =>
    dsimp only
    rw [Roster.send_fst, Roster.directory_send]
    exact .sends id m
  | sendAll m =>
    dsimp only
    rw [Roster.sendAll_fst hascending, Roster.directory_sendAll]
    exact .sendsAll m
  | sendList =>
    unfold Roster.sendList
    dsimp only
    rw [Roster.sendAll_fst hascending, Roster.directory_sendAll]
    exact .sendsList _ (Roster.lists_snapshot hascending)
  | snapshot => exact .shows _ (Roster.lists_snapshot hascending)
  | read n =>
    have houtside (hplace : ∀ id, a.places[n]? ≠ some (.seated id)) (m : Option ServerMessage)
        : a.roster.directory.Steps a.Holds (.read n) (.message m) a.roster.directory := .readsOutside n m hplace
    dsimp only
    split
    . next hplace => exact houtside (by simp [hplace]) _
    . next id hplace =>
      dsimp only
      rw [Roster.message_take?, Roster.directory_take?]
      exact .reads n id hplace
    . next queue hplace => exact houtside (by simp [hplace]) _
  | drop n =>
    have houtside (hplace : ∀ id, a.places[n]? ≠ some (.seated id))
        : a.roster.directory.Steps a.Holds (.drop n) .done a.roster.directory := .dropsOutside n hplace
    dsimp only
    split
    . next hplace => exact houtside (by simp [hplace])
    . next id hplace =>
      have hdirectory : (a.roster.closeQueue id).directory = a.roster.directory.change id .close := by
        unfold Roster.closeQueue
        exact Roster.directory_modify (fun _ => rfl) fun _ _ => rfl
      dsimp only
      rw [hdirectory]
      exact .drops n id hplace
    . next queue hplace => exact houtside (by simp [hplace])

end Refinement

section Places

theorem holds_lt (h : a.Holds n id) : n < a.places.length :=
  (List.getElem?_eq_some_iff.1 h).1

theorem places_register_of_lt (a : Audience) (info : SessionInfo) (hn : n < a.places.length)
    : (a.step (.register info)).places[n]? =
        a.places[n]?.map (.leave info.id ((a.roster.get? info.id).map (·.queue))) := by
  unfold step perform
  dsimp only
  rw [List.getElem?_append_left, List.getElem?_map]
  rw [List.length_map]
  exact hn

theorem places_register_length (a : Audience) (info : SessionInfo)
    : (a.step (.register info)).places[a.places.length]? = some (.seated info.id) := by
  unfold step perform
  dsimp only
  rw [List.getElem?_append_right (List.length_map _).le, List.length_map, Nat.sub_self]
  rfl

theorem places_remove (a : Audience) (id : SessionId)
    : (a.step (.remove id)).places[n]? = a.places[n]?.map (.leave id ((a.roster.get? id).map (·.queue))) :=
  List.getElem?_map ..

theorem length_step (a : Audience) (op : Op)
    : (a.step op).places.length = a.places.length + op.isRegister.toNat := by
  unfold step perform
  cases op with
  | register info =>
    dsimp only
    rw [List.length_append, List.length_map]
    rfl
  | remove id => exact List.length_map ..
  | setState | send | sendAll | sendList | snapshot => rfl
  | read n =>
    dsimp only
    split
    . rfl
    . rfl
    . exact List.length_set ..
  | drop n =>
    dsimp only
    split
    . rfl
    . rfl
    . exact List.length_set ..

theorem leave_eq_seated_iff
    : a.places[n]?.map (Place.leave id former) = some (.seated j) ↔ a.Holds n j ∧ (j = id → former = none) := by
  unfold Holds
  rw [Option.map_eq_some_iff]
  constructor
  . rintro ⟨place, hplace, hleave⟩
    cases place with
    | outside queue => simp [Place.leave] at hleave
    | seated own =>
      unfold Place.leave at hleave
      dsimp only at hleave
      split at hleave
      . cases former with
        | none =>
          cases hleave
          exact ⟨hplace, fun _ => rfl⟩
        | some queue => simp at hleave
      . next hown =>
        cases hleave
        exact ⟨hplace, fun hj => absurd hj hown⟩
  . rintro ⟨hplace, hformer⟩
    refine ⟨.seated j, hplace, ?_⟩
    unfold Place.leave
    dsimp only
    split
    . next hj =>
      rw [hformer hj]
      rfl
    . rfl

theorem holds_set (houtside : a.places[n]? = some (.outside queue))
    : (a.places.set n (.outside queue'))[n']? = some (.seated id) ↔ a.Holds n' id := by
  unfold Holds
  by_cases hn : n = n'
  . rw [← hn, List.getElem?_set_self (List.getElem?_eq_some_iff.1 houtside).1, houtside]
    simp
  . rw [List.getElem?_set_ne hn]

theorem holds_step_of_ends?_eq_none (hends : op.ends? = none) : (a.step op).Holds n id ↔ a.Holds n id := by
  unfold step perform
  cases op with
  | register | remove => simp [Op.ends?] at hends
  | setState | send | sendAll | sendList | snapshot => rfl
  | read j =>
    dsimp only
    split
    . rfl
    . rfl
    . next queue hplace => exact holds_set hplace
  | drop j =>
    dsimp only
    split
    . rfl
    . rfl
    . next queue hplace => exact holds_set hplace

theorem former_eq_none_iff (r : Roster) (id : SessionId)
    : (r.get? id).map (·.queue) = none ↔ r.directory id = none := by
  rw [Option.map_eq_none_iff, Roster.directory_eq_none_iff]

namespace Sound

theorem leave_eq_seated_iff (hsound : a.Sound)
    : a.places[n]?.map (Place.leave j ((a.roster.get? j).map (·.queue))) = some (.seated id) ↔
        a.Holds n id ∧ some j ≠ some id := by
  rw [Audience.leave_eq_seated_iff]
  apply and_congr_right
  intro hholds
  constructor
  . intro hformer hj
    have hj : id = j := (Option.some.inj hj).symm
    rw [← hj, former_eq_none_iff] at hformer
    exact (hsound.seated id).1 (hformer rfl) n hholds
  . intro hne hj
    exact absurd (congrArg some hj.symm) hne

/-- A reader holds an id from its registration until the id is registered again or removed. -/
theorem holds_step (hsound : a.Sound) (op : Op)
    : (a.step op).Holds n id ↔
        (∃ info, op = .register info ∧ info.id = id ∧ n = a.places.length) ∨ (a.Holds n id ∧ op.ends? ≠ some id) := by
  cases op with
  | register info =>
    -- The readers before the new one, the new one, and numbers that are not taken yet.
    rcases Nat.lt_trichotomy n a.places.length with hn | rfl | hn
    . rw [Holds, places_register_of_lt a info hn, hsound.leave_eq_seated_iff]
      simp [Op.ends?, hn.ne]
    . have hfree : ¬ a.Holds a.places.length id := fun h => Nat.lt_irrefl _ (holds_lt h)
      rw [Holds, places_register_length]
      simp [hfree]
    . have hfree : ¬ a.Holds n id := fun h => Nat.lt_asymm hn (holds_lt h)
      have hregister : ¬ (a.step (.register info)).Holds n id := by
        intro h
        have hlt := holds_lt h
        rw [length_step] at hlt
        exact absurd (Nat.lt_succ_iff.1 hlt) (Nat.not_le.2 hn)
      simp [hfree, hregister, hn.ne']
  | remove j =>
    rw [Holds, places_remove, hsound.leave_eq_seated_iff]
    simp [Op.ends?]
  | setState | send | sendAll | sendList | snapshot | read | drop =>
    rw [holds_step_of_ends?_eq_none rfl]
    simp [Op.ends?]

theorem empty : ({} : Audience).Sound := by
  constructor
  . exact List.Pairwise.nil
  . intro id
    constructor
    . intro _ n h
      exact absurd (holds_lt h) (Nat.not_lt_zero n)
    . intro _
      rfl
  . intro n n' id h
    exact absurd (holds_lt h) (Nat.not_lt_zero n)

theorem ascending_step (hascending : a.roster.Ascending) (op : Op) : (a.step op).roster.Ascending := by
  unfold step perform
  cases op with
  | register info => exact hascending.register info
  | remove id => exact hascending.remove id
  | setState id state => exact hascending.modify id fun _ => rfl
  | send id m => exact hascending.send id m
  | sendAll m => exact hascending.sendAll m
  | sendList => exact hascending.sendAll _
  | snapshot => exact hascending
  | read n =>
    dsimp only
    split
    . exact hascending
    . next id hplace =>
      cases htake : a.roster.take? id with
      | none => exact hascending
      | some taken =>
        rcases Roster.take?_eq_some htake with ⟨client, rest, -, -, hafter⟩
        dsimp only [Option.map_some, Option.getD_some]
        rw [hafter]
        exact hascending.modify id fun _ => rfl
    . exact hascending
  | drop n =>
    dsimp only
    split
    . exact hascending
    . next id hplace => exact hascending.modify id fun _ => rfl
    . exact hascending

theorem step (hsound : a.Sound) (op : Op) : (a.step op).Sound := by
  have hstep := steps_perform hsound.ascending op
  constructor
  . exact ascending_step hsound.ascending op
  . intro id
    constructor
    . intro hnone n hholds
      rcases (hsound.holds_step op).1 hholds with ⟨info, rfl, rfl, -⟩ | ⟨hholds, hends⟩
      . rw [hstep.registered] at hnone
        simp at hnone
      . cases hentry : a.roster.directory id with
        | none => exact (hsound.seated id).1 hentry n hholds
        | some e =>
          rcases hstep.keeps hends hentry with ⟨e', he', -, -⟩
          rw [he'] at hnone
          simp at hnone
    . intro hfree
      apply hstep.eq_none
      . intro info hop hid
        exact hfree a.places.length ((hsound.holds_step op).2 (.inl ⟨info, hop, hid, rfl⟩))
      . by_cases hends : op.ends? = some id
        . exact .inr hends
        . left
          rw [hsound.seated]
          intro n hholds
          exact hfree n ((hsound.holds_step op).2 (.inr ⟨hholds, hends⟩))
  . intro n n' id h h'
    -- A registration ends what held the id before, so that the new reader is alone there.
    rw [hsound.holds_step] at h h'
    rcases h with ⟨info, hop, hid, hn⟩ | ⟨h, hends⟩
    . rcases h' with ⟨-, -, -, hn'⟩ | ⟨-, hends⟩
      . rw [hn, hn']
      . rw [hop, ← hid] at hends
        exact absurd rfl hends
    . rcases h' with ⟨info, hop, hid, -⟩ | ⟨h', -⟩
      . rw [hop, ← hid] at hends
        exact absurd rfl hends
      . exact hsound.single n n' id h h'

theorem after (ops : List Op) (k : Nat) : (Trace.after Audience.step {} ops k).Sound := by
  apply Trace.keeps (P := Audience.Sound) _ (Nat.zero_le k)
  . exact empty
  . intro i op _ h
    exact h.step op

end Sound

end Places

section Queues

theorem queue?_of_holds (h : a.Holds n id) : a.queue? n = (a.roster.directory id).map (·.queue) := by
  unfold queue?
  rw [h]
  rfl

theorem queue?_of_outside (h : a.places[n]? = some (.outside queue)) : a.queue? n = some queue := by
  unfold queue?
  rw [h]
  rfl

theorem place_of_queue? (h : a.queue? n = some queue)
    : (∃ id e, a.Holds n id ∧ a.roster.directory id = some e ∧ e.queue = queue) ∨
        a.places[n]? = some (.outside queue) := by
  unfold queue? at h
  rw [Option.bind_eq_some_iff] at h
  rcases h with ⟨place, hplace, h⟩
  cases place with
  | seated id =>
    rcases Option.map_eq_some_iff.1 h with ⟨e, he, hqueue⟩
    exact .inl ⟨id, e, hplace, he, hqueue⟩
  | outside queue' =>
    rw [← Option.some.inj h]
    exact .inr hplace

theorem sent?_of_holds (h : a.Holds n id) (op : Op) : a.sent? n op = op.sent? a.roster.snapshot id := by
  unfold sent?
  rw [h]
  rfl

theorem sent?_of_outside (h : a.places[n]? = some (.outside queue)) (op : Op) : a.sent? n op = none := by
  unfold sent?
  rw [h]
  rfl

theorem places_step_of_outside (h : a.places[n]? = some (.outside queue)) (op : Op)
    : (a.step op).places[n]? = some (.outside (op.served n none queue)) := by
  have hn : n < a.places.length := (List.getElem?_eq_some_iff.1 h).1
  have hset (j : Nat) (taken : Queue) (hj : j ≠ n) : (a.places.set j (.outside taken))[n]? = a.places[n]? :=
    List.getElem?_set_ne hj
  cases op with
  | register info =>
    rw [places_register_of_lt a info hn, h]
    rfl
  | remove id =>
    rw [places_remove, h]
    rfl
  | setState | send | sendAll | sendList | snapshot => exact h
  | read j =>
    unfold step perform Op.served
    dsimp only
    by_cases hj : j = n
    . rw [if_pos hj, hj, h]
      dsimp only
      rw [Queue.map_snd_take?, List.getElem?_set_self hn]
    . rw [if_neg hj]
      split
      . exact h
      . exact h
      . exact (hset _ _ hj).trans h
  | drop j =>
    unfold step perform Op.served
    dsimp only
    by_cases hj : j = n
    . rw [if_pos hj, hj, h]
      exact List.getElem?_set_self hn
    . rw [if_neg hj]
      split
      . exact h
      . exact h
      . exact (hset _ _ hj).trans h

theorem places_step_of_ends {e : Entry} (hholds : a.Holds n id) (he : a.roster.directory id = some e)
    (hends : op.ends? = some id) : (a.step op).places[n]? = some (.outside e.queue) := by
  have hleave : a.places[n]?.map (Place.leave id ((a.roster.get? id).map (·.queue))) = some (.outside e.queue) := by
    rcases Roster.directory_eq_some_iff.1 he with ⟨c, hget, rfl⟩
    rw [hholds, hget]
    unfold Place.leave
    simp [Client.entry]
  cases op with
  | register info =>
    rw [← Option.some.inj hends] at hleave hholds
    rw [places_register_of_lt a info (holds_lt hholds)]
    exact hleave
  | remove j =>
    rw [← Option.some.inj hends] at hleave
    rw [places_remove]
    exact hleave
  | setState | send | sendAll | sendList | snapshot | read | drop => simp [Op.ends?] at hends

theorem served_of_ends (hends : op.ends? = some id) (list : List ClientStatus) (j : SessionId) (queue : Queue)
    : op.served n (op.sent? list j) queue = queue := by
  cases op with
  | register | remove => rfl
  | setState | send | sendAll | sendList | snapshot | read | drop => simp [Op.ends?] at hends

theorem queue?_step (hsound : a.Sound) (h : a.queue? n = some queue) (op : Op)
    : (a.step op).queue? n = some (op.served n (a.sent? n op) queue) := by
  rcases place_of_queue? h with ⟨id, e, hholds, he, rfl⟩ | houtside
  . rw [sent?_of_holds hholds]
    -- If the reader loses its id, its queue goes with it as it is; else the directory says what becomes of it.
    by_cases hends : op.ends? = some id
    . rw [served_of_ends hends]
      exact queue?_of_outside (places_step_of_ends hholds he hends)
    . have hown (j : SessionId) (hj : a.Holds n j) : j = id := by
        cases hj.symm.trans hholds
        rfl
      have hsingle (n' : Nat) (hn' : a.Holds n' id) : n' = n := hsound.single n' n id hn' hholds
      have hstep := steps_perform hsound.ascending op
      rcases hstep.queue (Roster.lists_snapshot hsound.ascending) hholds hown hsingle hends he with ⟨e', he', hqueue⟩
      rw [queue?_of_holds ((hsound.holds_step op).2 (.inr ⟨hholds, hends⟩)), he', ← hqueue]
      rfl
  . rw [sent?_of_outside houtside]
    exact queue?_of_outside (places_step_of_outside houtside op)

theorem queue?_eq_none_iff (hsound : a.Sound) : a.queue? n = none ↔ a.places.length ≤ n := by
  rw [← List.getElem?_eq_none_iff]
  constructor
  . intro hnone
    cases hplace : a.places[n]? with
    | none => rfl
    | some place =>
      cases place with
      | outside queue =>
        rw [queue?_of_outside hplace] at hnone
        simp at hnone
      | seated id =>
        rw [queue?_of_holds hplace, Option.map_eq_none_iff] at hnone
        exact absurd hplace ((hsound.seated id).1 hnone n)
  . intro hplace
    unfold queue?
    rw [hplace]
    rfl

theorem queue?_step_of_none (hsound : a.Sound) (hnone : a.queue? n = none) (h : (a.step op).queue? n = some queue)
    : op.isRegister = true ∧ queue = {} := by
  have hlength : a.places.length ≤ n := (queue?_eq_none_iff hsound).1 hnone
  have hlength' : n < (a.step op).places.length := by
    by_contra hle
    rw [(queue?_eq_none_iff (hsound.step op)).2 (by omega)] at h
    simp at h
  rw [length_step] at hlength'
  cases op with
  | register info =>
    refine ⟨rfl, ?_⟩
    have hn : n = a.places.length := by
      have : (Op.register info).isRegister.toNat = 1 := rfl
      omega
    rw [queue?_of_holds ((hsound.holds_step _).2 (.inl ⟨info, rfl, rfl, hn⟩)),
      (steps_perform hsound.ascending _).registered] at h
    exact (Option.some.inj h).symm
  | remove | setState | send | sendAll | sendList | snapshot | read | drop =>
    exact absurd hlength' (Nat.not_lt.2 hlength)

theorem answer_read (a : Audience) (n : Nat)
    : (a.perform (.read n)).1 = .message ((a.queue? n).bind (·.messages.head?)) := by
  unfold perform queue?
  dsimp only
  cases a.places[n]? with
  | none => rfl
  | some place =>
    cases place with
    | seated id =>
      dsimp only
      rw [Roster.message_take?, Option.bind_some, Option.bind_map]
      rfl
    | outside queue =>
      dsimp only
      rw [Queue.map_fst_take?]
      rfl

end Queues

theorem perform_of_unknown (hnone : a.roster.directory id = none)
    : a.perform (.remove id) = (.flag false, a) ∧ (∀ state, a.perform (.setState id state) = (.flag false, a)) ∧
        ∀ m, a.perform (.send id m) = (.flag false, a) := by
  have hget : a.roster.get? id = none := Roster.directory_eq_none_iff.1 hnone
  have hremove : a.roster.remove id = (none, a.roster) := by
    have hkept : a.roster.clients.filter (·.id ≠ id) = a.roster.clients := by
      rw [List.filter_eq_self]
      intro c hc
      exact decide_eq_true (Roster.get?_eq_none_iff.1 hget c hc)
    unfold Roster.remove
    rw [hget, hkept]
    rfl
  have hleave : Place.leave id none = fun place => place := by
    funext place
    unfold Place.leave
    split
    . exact ite_self _
    . rfl
  refine ⟨?_, ?_, ?_⟩
  . unfold perform
    dsimp only
    rw [hremove, hleave, List.map_id']
    rfl
  . intro state
    have hset : a.roster.setState id state = (false, a.roster) := by
      unfold Roster.setState Roster.isRegistered
      rw [Roster.modify_of_get?_eq_none _ hget, hget]
      rfl
    unfold perform
    dsimp only
    rw [hset]
  . intro m
    have hsend : a.roster.send id m = (false, a.roster) := by
      unfold Roster.send
      rw [hget]
    unfold perform
    dsimp only
    rw [hsend]

end Audience

end Intercom.Signaling
