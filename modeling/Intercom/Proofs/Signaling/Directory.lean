import Mathlib
import Intercom.Proofs.Signaling.Roster

/-!
This module contains the roster as a map from ids to entries. The roster keeps its clients in ascending order of their
ids; sending to all and listing all give the same in whichever order the clients are gone through.
-/

namespace Intercom.Signaling

def ClientStatus.isUpTo (s t : ClientStatus) : Bool :=
  decide (s.id.value ≤ t.id.value)

namespace Queue

theorem send_fst (q : Queue) (m : ServerMessage) : (q.send m).1 = decide q.HasRoom := by
  rw [send_eq]
  split
  . next hroom => exact (decide_eq_true hroom).symm
  . next hroom => exact (decide_eq_false hroom).symm

theorem isOpen_send (q : Queue) (m : ServerMessage) : (q.send m).2.isOpen = q.isOpen := by
  rw [send_eq]
  split
  . rfl
  . rfl

theorem length_send_le {q : Queue} (h : q.messages.length ≤ queueCapacity) (m : ServerMessage)
    : (q.send m).2.messages.length ≤ queueCapacity := by
  rw [send_eq]
  split
  . next hroom =>
    dsimp only
    rw [List.length_append]
    exact hroom.2
  . exact h

theorem map_fst_take? (q : Queue) : q.take?.map Prod.fst = q.messages.head? := by
  unfold take?
  cases q.messages with
  | nil => rfl
  | cons m rest => rfl

theorem map_snd_take? (q : Queue)
    : (q.take?.map Prod.snd).getD q = { q with messages := q.messages.tail } := by
  rcases q with ⟨messages, isOpen⟩
  cases messages with
  | nil => rfl
  | cons m rest => rfl

end Queue

structure Entry where
  name : String
  state : TalkState := .idle
  queue : Queue := {}

namespace Entry

def offer (e : Entry) (m : ServerMessage) : Entry :=
  if e.queue.HasRoom then { e with queue := { e.queue with messages := e.queue.messages ++ [m] } } else e

def read (e : Entry) : Entry :=
  { e with queue := { e.queue with messages := e.queue.messages.tail } }

def close (e : Entry) : Entry :=
  { e with queue := ⟨[], false⟩ }

theorem offer_eq (e : Entry) (m : ServerMessage) : e.offer m = { e with queue := (e.queue.send m).2 } := by
  unfold offer
  rw [Queue.send_eq]
  split
  . rfl
  . rfl

theorem offer_name (e : Entry) (m : ServerMessage) : (e.offer m).name = e.name := by
  rw [offer_eq]

theorem offer_state (e : Entry) (m : ServerMessage) : (e.offer m).state = e.state := by
  rw [offer_eq]

theorem offer_queue (e : Entry) (m : ServerMessage) : (e.offer m).queue = (e.queue.send m).2 := by
  rw [offer_eq]

end Entry

namespace Client

def entry (c : Client) : Entry :=
  ⟨c.name, c.state, c.queue⟩

def offer (c : Client) (m : ServerMessage) : Client :=
  { c with queue := (c.queue.send m).2 }

theorem entry_offer (c : Client) (m : ServerMessage) : (c.offer m).entry = c.entry.offer m := by
  rw [Entry.offer_eq]
  rfl

end Client

abbrev Directory := SessionId → Option Entry

namespace Directory

variable {Seat : Nat → SessionId → Prop} {d d' : Directory} {id : SessionId} {e : Entry}

def change (d : Directory) (id : SessionId) (f : Entry → Entry) : Directory :=
  Function.update d id ((d id).map f)

def accepting (d : Directory) : Set SessionId :=
  {id | ∃ e, d id = some e ∧ e.queue.HasRoom}

/-- Every id of the directory is listed once, with name and talk state, in strictly ascending order. -/
structure Lists (d : Directory) (list : List ClientStatus) : Prop where
  ascending : list.Pairwise (·.id.value < ·.id.value)
  mem_iff : ∀ s, s ∈ list ↔ ∃ e, d s.id = some e ∧ s.name = e.name ∧ s.state = e.state

/-- What is done with the roster, and by the readers of the queues. These are numbered as they register. -/
inductive Op where
  | register (info : SessionInfo)
  | remove (id : SessionId)
  | setState (id : SessionId) (state : TalkState)
  | send (id : SessionId) (m : ServerMessage)
  | sendAll (m : ServerMessage)
  | sendList
  | snapshot
  | read (n : Nat)
  | drop (n : Nat)

inductive Answer where
  | done
  | flag (value : Bool)
  | count (value : Nat)
  | list (list : List ClientStatus)
  | message (m : Option ServerMessage)

namespace Op

def isRegister : Op → Bool
  | register _ => true
  | remove _ | setState _ _ | send _ _ | sendAll _ | sendList | snapshot | read _ | drop _ => false

def ends? : Op → Option SessionId
  | register info => some info.id
  | remove id => some id
  | setState _ _ | send _ _ | sendAll _ | sendList | snapshot | read _ | drop _ => none

def state? (id : SessionId) : Op → Option TalkState
  | setState j state => if j = id then some state else none
  | register _ | remove _ | send _ _ | sendAll _ | sendList | snapshot | read _ | drop _ => none

def sent? (list : List ClientStatus) (id : SessionId) : Op → Option ServerMessage
  | send j m => if j = id then some m else none
  | sendAll m => some m
  | sendList => some (.clients list)
  | register _ | remove _ | setState _ _ | snapshot | read _ | drop _ => none

/-- What becomes of the queue of the `n`-th reader when it is sent the message. -/
def served (n : Nat) (m : Option ServerMessage) (queue : Queue) : Op → Queue
  | read j => if j = n then { queue with messages := queue.messages.tail } else queue
  | drop j => if j = n then ⟨[], false⟩ else queue
  | register _ | remove _ | setState _ _ | send _ _ | sendAll _ | sendList | snapshot =>
    (m.map fun m => (queue.send m).2).getD queue

end Op

/-- What each operation answers and what it makes of the directory. `Seat n id` says that the queue of the `n`-th reader
is the one that stands under the id; a reader whose queue stands nowhere does not change the directory. -/
inductive Steps (Seat : Nat → SessionId → Prop) (d : Directory) : Op → Answer → Directory → Prop where
  | registers (info : SessionInfo)
    : Steps Seat d (.register info) .done (Function.update d info.id (some { name := info.name }))
  | removes (id : SessionId) : Steps Seat d (.remove id) (.flag (d id).isSome) (Function.update d id none)
  | setsState (id : SessionId) (state : TalkState)
    : Steps Seat d (.setState id state) (.flag (d id).isSome) (d.change id fun e => { e with state })
  | sends (id : SessionId) (m : ServerMessage)
    : Steps Seat d (.send id m) (.flag ((d id).any (·.queue.HasRoom))) (d.change id (·.offer m))
  | sendsAll (m : ServerMessage)
    : Steps Seat d (.sendAll m) (.count d.accepting.ncard) fun id => (d id).map (·.offer m)
  | sendsList (list : List ClientStatus) (hlist : d.Lists list)
    : Steps Seat d .sendList (.count d.accepting.ncard) fun id => (d id).map (·.offer (.clients list))
  | shows (list : List ClientStatus) (hlist : d.Lists list) : Steps Seat d .snapshot (.list list) d
  | reads (n : Nat) (id : SessionId) (hseat : Seat n id)
    : Steps Seat d (.read n) (.message ((d id).bind (·.queue.messages.head?))) (d.change id .read)
  | readsOutside (n : Nat) (m : Option ServerMessage) (hseat : ∀ id, ¬ Seat n id)
    : Steps Seat d (.read n) (.message m) d
  | drops (n : Nat) (id : SessionId) (hseat : Seat n id) : Steps Seat d (.drop n) .done (d.change id .close)
  | dropsOutside (n : Nat) (hseat : ∀ id, ¬ Seat n id) : Steps Seat d (.drop n) .done d

theorem change_eq_some {j : SessionId} (f : Entry → Entry) (h : d id = some e)
    : d.change j f id = some (if id = j then f e else e) := by
  unfold change
  by_cases hid : id = j
  . rw [if_pos hid, ← hid, Function.update_self, h]
    rfl
  . rw [if_neg hid, Function.update_of_ne hid, h]

theorem change_eq_none {j : SessionId} (f : Entry → Entry) (h : d id = none) : d.change j f id = none := by
  unfold change
  by_cases hid : id = j
  . rw [← hid, Function.update_self, h]
    rfl
  . rw [Function.update_of_ne hid, h]

theorem Lists.eq {list list' : List ClientStatus} (h : d.Lists list) (h' : d.Lists list') : list = list' := by
  have hlt {s t : ClientStatus} (hst : s.id.value < t.id.value) : s ≠ t := by
    rintro rfl
    exact UInt32.lt_irrefl _ hst
  have hperm : list.Perm list' := by
    rw [List.perm_ext_iff_of_nodup (h.ascending.imp hlt) (h'.ascending.imp hlt)]
    intro s
    rw [h.mem_iff, h'.mem_iff]
  apply List.Perm.eq_of_pairwise _ h.ascending h'.ascending hperm
  intro s t _ _ hst hts
  exact absurd (UInt32.lt_trans hst hts) (UInt32.lt_irrefl _)

namespace Steps

variable {op : Op} {answer : Answer} {list : List ClientStatus} {n : Nat}

/-- An entry keeps its name until its id is registered again or removed, and its talk state until another is set. -/
theorem keeps (hstep : d.Steps Seat op answer d') (hends : op.ends? ≠ some id) (he : d id = some e)
    : ∃ e', d' id = some e' ∧ e'.name = e.name ∧ e'.state = (op.state? id).getD e.state := by
  have hchange (j : SessionId) (f : Entry → Entry) (hname : ∀ e, (f e).name = e.name)
      (hstate : ∀ e, (f e).state = e.state)
      : ∃ e', d.change j f id = some e' ∧ e'.name = e.name ∧ e'.state = e.state := by
    refine ⟨_, change_eq_some f he, ?_⟩
    split
    . exact ⟨hname e, hstate e⟩
    . exact ⟨rfl, rfl⟩
  have hoffer (m : ServerMessage)
      : ∃ e', (d id).map (·.offer m) = some e' ∧ e'.name = e.name ∧ e'.state = e.state := by
    rw [he]
    exact ⟨_, rfl, e.offer_name m, e.offer_state m⟩
  cases hstep with
  | registers info =>
    have hne : id ≠ info.id := fun hid => hends (congrArg some hid.symm)
    exact ⟨e, (Function.update_of_ne hne _ _).trans he, rfl, rfl⟩
  | removes j =>
    have hne : id ≠ j := fun hid => hends (congrArg some hid.symm)
    exact ⟨e, (Function.update_of_ne hne _ _).trans he, rfl, rfl⟩
  | setsState j state =>
    refine ⟨_, change_eq_some _ he, ?_⟩
    unfold Op.state?
    dsimp only
    by_cases hid : id = j
    . rw [if_pos hid, if_pos hid.symm]
      exact ⟨rfl, rfl⟩
    . rw [if_neg hid, if_neg (Ne.symm hid)]
      exact ⟨rfl, rfl⟩
  | sends j m => exact hchange j (·.offer m) (fun e => e.offer_name m) fun e => e.offer_state m
  | sendsAll m => exact hoffer m
  | sendsList list hlist => exact hoffer (.clients list)
  | reads n j hseat => exact hchange j .read (fun _ => rfl) fun _ => rfl
  | drops n j hseat => exact hchange j .close (fun _ => rfl) fun _ => rfl
  | shows list hlist => exact ⟨e, he, rfl, rfl⟩
  | readsOutside n m hseat => exact ⟨e, he, rfl, rfl⟩
  | dropsOutside n hseat => exact ⟨e, he, rfl, rfl⟩

theorem registered {info : SessionInfo} (hstep : d.Steps Seat (.register info) answer d')
    : d' info.id = some { name := info.name } := by
  cases hstep with
  | registers => exact Function.update_self ..

theorem eq_none (hstep : d.Steps Seat op answer d') (hregister : ∀ info, op = .register info → info.id ≠ id)
    (hnone : d id = none ∨ op.ends? = some id) : d' id = none := by
  rcases hnone with hnone | hends
  . cases hstep with
    | registers info => exact (Function.update_of_ne (hregister info rfl).symm _ _).trans hnone
    | removes j =>
      by_cases hid : id = j
      . rw [hid, Function.update_self]
      . exact (Function.update_of_ne hid _ _).trans hnone
    | setsState | sends | reads | drops => exact change_eq_none _ hnone
    | sendsAll | sendsList =>
      dsimp only
      rw [hnone]
      rfl
    | shows | readsOutside | dropsOutside => exact hnone
  . cases hstep with
    | registers info => exact absurd (Option.some.inj hends) (hregister info rfl)
    | removes j =>
      rw [← Option.some.inj hends]
      exact Function.update_self ..
    | setsState | sends | reads | drops | sendsAll | sendsList | shows | readsOutside | dropsOutside =>
      simp [Op.ends?] at hends

/-- The queue under an id is left alone by the readers of other queues, and sending to it does not depend on them. -/
theorem queue (hstep : d.Steps Seat op answer d') (hlist : d.Lists list) (hseat : Seat n id)
    (hown : ∀ j, Seat n j → j = id) (hsingle : ∀ n', Seat n' id → n' = n) (hends : op.ends? ≠ some id)
    (he : d id = some e) : ∃ e', d' id = some e' ∧ e'.queue = op.served n (op.sent? list id) e.queue := by
  have hreader (n' : Nat) (j : SessionId) (hseat' : Seat n' j) : id = j ↔ n' = n := by
    constructor
    . rintro rfl
      exact hsingle n' hseat'
    . rintro rfl
      exact (hown j hseat').symm
  have houtside (n' : Nat) (hseat' : ∀ j, ¬ Seat n' j) : n' ≠ n := by
    rintro rfl
    exact hseat' id hseat
  cases hstep with
  | registers info =>
    have hne : id ≠ info.id := fun hid => hends (congrArg some hid.symm)
    exact ⟨e, (Function.update_of_ne hne _ _).trans he, rfl⟩
  | removes j =>
    have hne : id ≠ j := fun hid => hends (congrArg some hid.symm)
    exact ⟨e, (Function.update_of_ne hne _ _).trans he, rfl⟩
  | setsState j state =>
    refine ⟨_, change_eq_some _ he, ?_⟩
    split
    . rfl
    . rfl
  | sends j m =>
    refine ⟨_, change_eq_some _ he, ?_⟩
    unfold Op.served Op.sent?
    dsimp only
    by_cases hid : id = j
    . rw [if_pos hid, if_pos hid.symm]
      exact e.offer_queue m
    . rw [if_neg hid, if_neg (Ne.symm hid)]
      rfl
  | sendsAll m =>
    dsimp only
    rw [he]
    exact ⟨_, rfl, e.offer_queue m⟩
  | sendsList list' hlist' =>
    dsimp only
    rw [he, hlist'.eq hlist]
    exact ⟨_, rfl, e.offer_queue (.clients list)⟩
  | shows list' hlist' => exact ⟨e, he, rfl⟩
  | reads n' j hseat' =>
    refine ⟨_, change_eq_some _ he, ?_⟩
    rw [if_congr (hreader n' j hseat') rfl rfl]
    unfold Op.served
    dsimp only
    split
    . rfl
    . rfl
  | drops n' j hseat' =>
    refine ⟨_, change_eq_some _ he, ?_⟩
    rw [if_congr (hreader n' j hseat') rfl rfl]
    unfold Op.served
    dsimp only
    split
    . rfl
    . rfl
  | readsOutside n' m hseat' => exact ⟨e, he, (if_neg (houtside n' hseat')).symm⟩
  | dropsOutside n' hseat' => exact ⟨e, he, (if_neg (houtside n' hseat')).symm⟩

end Steps

end Directory

namespace Roster

variable {r : Roster} {id j : SessionId} {info : SessionInfo} {client c : Client} {cs : List Client} {m : ServerMessage}
variable {order : List SessionId}

def directory (r : Roster) : Directory :=
  fun id => (r.get? id).map Client.entry

def Ascending (r : Roster) : Prop :=
  r.clients.Pairwise (·.id.value < ·.id.value)

section Ascending

theorem mem_insert (h : c ∈ insert client cs) : c = client ∨ c ∈ cs := by
  induction cs with
  | nil => exact .inl (List.mem_singleton.1 h)
  | cons first cs ih =>
    unfold insert at h
    split at h
    . rcases List.mem_cons.1 h with rfl | h
      . exact .inr (List.mem_cons_self ..)
      . rcases ih h with rfl | h
        . exact .inl rfl
        . exact .inr (List.mem_cons_of_mem _ h)
    . split at h
      . rcases List.mem_cons.1 h with rfl | h
        . exact .inl rfl
        . exact .inr (List.mem_cons_of_mem _ h)
      . rcases List.mem_cons.1 h with rfl | h
        . exact .inl rfl
        . exact .inr h

theorem pairwise_insert (client : Client) (h : cs.Pairwise (·.id.value < ·.id.value))
    : (insert client cs).Pairwise (·.id.value < ·.id.value) := by
  induction cs with
  | nil => exact List.pairwise_singleton _ _
  | cons first cs ih =>
    rcases List.pairwise_cons.1 h with ⟨hfirst, hcs⟩
    unfold insert
    split
    . next hlt =>
      apply List.pairwise_cons.2 ⟨_, ih hcs⟩
      intro c hc
      rcases mem_insert hc with rfl | hc
      . exact hlt
      . exact hfirst c hc
    . next hle =>
      split
      . next heq =>
        rw [heq] at hfirst
        exact List.pairwise_cons.2 ⟨hfirst, hcs⟩
      . next hne =>
        have hlt : client.id.value < first.id.value := by
          apply UInt32.lt_of_le_of_ne (UInt32.not_lt.1 hle)
          intro heq
          exact hne (congrArg SessionId.mk heq.symm)
        apply List.pairwise_cons.2 ⟨_, h⟩
        intro c hc
        rcases List.mem_cons.1 hc with rfl | hc
        . exact hlt
        . exact UInt32.lt_trans hlt (hfirst c hc)

theorem ascending_of_map {f : Client → Client} (hf : ∀ c, (f c).id = c.id) (h : r.Ascending)
    : Ascending ⟨r.clients.map f⟩ := by
  unfold Ascending at h ⊢
  rw [List.pairwise_map]
  simpa only [hf] using h

namespace Ascending

theorem register (h : r.Ascending) (info : SessionInfo) : (r.register info).Ascending :=
  pairwise_insert _ h

theorem remove (h : r.Ascending) (id : SessionId) : (r.remove id).2.Ascending := by
  unfold Ascending Roster.remove at *
  exact h.filter _

theorem modify {f : Client → Client} (h : r.Ascending) (id : SessionId) (hf : ∀ c, (f c).id = c.id)
    : (r.modify id f).Ascending := by
  apply ascending_of_map _ h
  intro c
  split
  . exact hf c
  . rfl

theorem send (h : r.Ascending) (id : SessionId) (m : ServerMessage) : (r.send id m).2.Ascending := by
  unfold Roster.send
  split
  . exact h
  . exact h.modify id fun _ => rfl

theorem sendAll (h : r.Ascending) (m : ServerMessage) : (r.sendAll m).2.Ascending :=
  ascending_of_map (fun _ => rfl) h

theorem nodup (h : r.Ascending) : (r.infos.map (·.id)).Nodup := by
  unfold infos
  rw [List.map_map, List.Nodup, List.pairwise_map]
  apply List.Pairwise.imp _ h
  intro c c' hlt heq
  have hvalue : c.id.value = c'.id.value := congrArg SessionId.value heq
  rw [hvalue] at hlt
  exact UInt32.lt_irrefl _ hlt

theorem pairwise_snapshot (h : r.Ascending) : r.snapshot.Pairwise (·.id.value < ·.id.value) := by
  unfold snapshot
  rw [List.pairwise_map]
  exact h

end Ascending

end Ascending

section Directory

theorem directory_eq_none_iff : r.directory id = none ↔ r.get? id = none :=
  Option.map_eq_none_iff

theorem directory_eq_some_iff {e : Entry} : r.directory id = some e ↔ ∃ c, r.get? id = some c ∧ c.entry = e :=
  Option.map_eq_some_iff

theorem get?_remove_self (r : Roster) (id : SessionId) : (r.remove id).2.get? id = none := by
  rw [get?_eq_none_iff]
  intro c hc
  simpa using (List.mem_filter.1 hc).2

theorem directory_register (r : Roster) (info : SessionInfo)
    : (r.register info).directory = Function.update r.directory info.id (some { name := info.name }) := by
  funext j
  unfold directory
  by_cases hj : j = info.id
  . rw [hj, get?_register_self, Function.update_self]
    rfl
  . rw [get?_register_of_ne hj, Function.update_of_ne hj]

theorem directory_remove (r : Roster) (id : SessionId)
    : (r.remove id).2.directory = Function.update r.directory id none := by
  funext j
  unfold directory
  by_cases hj : j = id
  . rw [hj, get?_remove_self, Function.update_self]
    rfl
  . rw [get?_remove_of_ne hj, Function.update_of_ne hj]

theorem directory_modify {f : Client → Client} {g : Entry → Entry} (hf : ∀ c, (f c).id = c.id)
    (hentry : ∀ c, r.get? id = some c → (f c).entry = g c.entry)
    : (r.modify id f).directory = r.directory.change id g := by
  funext j
  unfold directory Directory.change
  rw [get?_modify f hf]
  by_cases hj : j = id
  . rw [if_pos hj, hj, Function.update_self]
    dsimp only
    cases hget : r.get? id with
    | none => rfl
    | some c => exact congrArg some (hentry c hget)
  . rw [if_neg hj, Function.update_of_ne hj]

theorem send_snd (r : Roster) (id : SessionId) (m : ServerMessage)
    : (r.send id m).2 = r.modify id fun c => c.offer m := by
  unfold send
  split
  . next hnone => exact (modify_of_get?_eq_none _ hnone).symm
  . rfl

theorem send_fst (r : Roster) (id : SessionId) (m : ServerMessage)
    : (r.send id m).1 = (r.directory id).any (·.queue.HasRoom) := by
  unfold send directory
  split
  . next hnone =>
    rw [hnone]
    rfl
  . next client hget =>
    rw [hget]
    exact client.queue.send_fst m

theorem directory_send (r : Roster) (id : SessionId) (m : ServerMessage)
    : (r.send id m).2.directory = r.directory.change id (·.offer m) := by
  rw [send_snd]
  exact directory_modify (fun _ => rfl) fun c _ => c.entry_offer m

theorem directory_sendAll (r : Roster) (m : ServerMessage)
    : (r.sendAll m).2.directory = fun id => (r.directory id).map (·.offer m) := by
  funext j
  unfold directory
  rw [get?_sendAll, Option.map_map, Option.map_map]
  congr 1
  funext c
  exact c.entry_offer m

theorem message_take? (r : Roster) (id : SessionId)
    : (r.take? id).map Prod.fst = (r.directory id).bind (·.queue.messages.head?) := by
  unfold take? directory
  cases r.get? id with
  | none => rfl
  | some c =>
    have hfst := c.queue.map_fst_take?
    cases htake : c.queue.take? with
    | none =>
      rw [htake] at hfst
      simpa [htake, Client.entry] using hfst
    | some taken =>
      rw [htake] at hfst
      simpa [htake, Client.entry] using hfst

theorem directory_take? (r : Roster) (id : SessionId)
    : (((r.take? id).map Prod.snd).getD r).directory = r.directory.change id .read := by
  cases htake : r.take? id with
  | none =>
    have hempty : (r.directory id).bind (·.queue.messages.head?) = none := by
      rw [← message_take?, htake]
      rfl
    have hsame : (r.directory id).map Entry.read = r.directory id := by
      cases hentry : r.directory id with
      | none => rfl
      | some e =>
        rw [hentry, Option.bind_some, List.head?_eq_none_iff] at hempty
        rw [Option.map_some, Option.some.injEq]
        unfold Entry.read
        rw [hempty, List.tail_nil, ← hempty]
    unfold Directory.change
    rw [hsame, Function.update_eq_self]
    rfl
  | some taken =>
    rcases take?_eq_some htake with ⟨client, rest, hget, hmessages, hafter⟩
    rw [Option.map_some, Option.getD_some, hafter]
    apply directory_modify
    . intro c
      rfl
    . intro c hc
      have hc : c = client := Option.some.inj (hc.symm.trans hget)
      unfold Entry.read Client.entry
      dsimp only
      rw [hc, hmessages, List.tail_cons]

theorem lists_snapshot (h : r.Ascending) : r.directory.Lists r.snapshot := by
  refine ⟨h.pairwise_snapshot, ?_⟩
  intro s
  unfold snapshot
  rw [List.mem_map]
  constructor
  . rintro ⟨c, hc, rfl⟩
    exact ⟨c.entry, directory_eq_some_iff.2 ⟨c, get?_of_mem h.nodup hc, rfl⟩, rfl, rfl⟩
  . rintro ⟨e, hentry, hname, hstate⟩
    rcases directory_eq_some_iff.1 hentry with ⟨c, hget, rfl⟩
    refine ⟨c, mem_of_get? hget, ?_⟩
    unfold Client.status
    rw [id_of_get? hget]
    exact congrArg₂ (ClientStatus.mk s.id) hname.symm hstate.symm

/-- A queue that is full or without a reader counts for nothing and keeps no other from getting the message. -/
theorem sendAll_fst (h : r.Ascending) (m : ServerMessage) : (r.sendAll m).1 = r.directory.accepting.ncard := by
  let ids := (r.clients.filter fun c => decide c.queue.HasRoom).map (·.id)
  have hnodup : ids.Nodup := by
    have hsub : ids.Sublist (r.infos.map (·.id)) := by
      unfold infos
      rw [List.map_map]
      exact List.filter_sublist.map _
    exact hsub.nodup h.nodup
  have hset : r.directory.accepting = ids.toFinset := by
    ext id
    rw [Finset.mem_coe, List.mem_toFinset, List.mem_map]
    constructor
    . rintro ⟨e, hentry, hroom⟩
      rcases directory_eq_some_iff.1 hentry with ⟨c, hget, rfl⟩
      exact ⟨c, List.mem_filter.2 ⟨mem_of_get? hget, decide_eq_true hroom⟩, id_of_get? hget⟩
    . rintro ⟨c, hc, rfl⟩
      rcases List.mem_filter.1 hc with ⟨hmem, hroom⟩
      exact ⟨c.entry, directory_eq_some_iff.2 ⟨c, get?_of_mem h.nodup hmem, rfl⟩, of_decide_eq_true hroom⟩
  rw [hset, Set.ncard_coe_finset, List.toFinset_card_of_nodup hnodup, List.length_map, ← List.countP_eq_length_filter]
  unfold sendAll
  dsimp only
  congr 1
  funext c
  exact c.queue.send_fst m

end Directory

section Order

def sendEach (r : Roster) (m : ServerMessage) : List SessionId → Nat × Roster
  | [] => (0, r)
  | id :: order =>
    let (taken, r) := r.send id m
    let (count, r) := r.sendEach m order
    (count + taken.toNat, r)

theorem sendEach_fst (m : ServerMessage) (hnodup : order.Nodup)
    : (r.sendEach m order).1 = order.countP fun id => (r.directory id).any (·.queue.HasRoom) := by
  induction order generalizing r with
  | nil => rfl
  | cons id order ih =>
    rcases List.nodup_cons.1 hnodup with ⟨hid, hrest⟩
    -- What one client is sent does not change whether there is room in the queues of the others.
    have hlater : (order.countP fun j => ((r.send id m).2.directory j).any (·.queue.HasRoom)) =
        order.countP fun j => (r.directory j).any (·.queue.HasRoom) := by
      apply List.countP_congr
      intro j hj
      have hne : j ≠ id := by
        rintro rfl
        exact hid hj
      unfold directory
      rw [get?_send_of_ne m hne]
    unfold sendEach
    dsimp only
    rw [ih hrest, hlater, send_fst, List.countP_cons]
    congr 1
    cases (r.directory id).any (·.queue.HasRoom) with
    | false => rfl
    | true => rfl

theorem sendEach_snd (m : ServerMessage) (hnodup : order.Nodup)
    : (r.sendEach m order).2.clients = r.clients.map fun c => if c.id ∈ order then c.offer m else c := by
  induction order generalizing r with
  | nil => simp [sendEach]
  | cons id order ih =>
    rcases List.nodup_cons.1 hnodup with ⟨hid, hrest⟩
    unfold sendEach
    dsimp only
    rw [ih hrest, send_snd]
    unfold modify
    rw [List.map_map]
    congr 1
    funext c
    dsimp only [Function.comp_apply]
    by_cases hc : c.id = id
    . have hself : (c.offer m).id = id := hc
      rw [if_pos hc, hself, if_neg hid, hc, if_pos (List.mem_cons_self ..)]
    . rw [if_neg hc]
      congr 1
      rw [List.mem_cons, eq_false hc, false_or]

/-- Sending to all does not depend on the order in which the clients are gone through. -/
theorem sendEach_eq_sendAll (h : r.Ascending) (m : ServerMessage) (horder : order.Perm (r.clients.map (·.id)))
    : r.sendEach m order = r.sendAll m := by
  have hids : r.clients.map (·.id) = r.infos.map (·.id) := by
    unfold infos
    rw [List.map_map]
    rfl
  have hnodup : order.Nodup := by
    rw [horder.nodup_iff, hids]
    exact h.nodup
  apply Prod.ext
  . rw [sendEach_fst m hnodup, horder.countP_eq, List.countP_map]
    unfold sendAll
    apply List.countP_congr
    intro c hc
    rw [Function.comp_apply, ← send_fst r c.id m]
    unfold send
    rw [get?_of_mem h.nodup hc]
  . have hclients : (r.sendEach m order).2.clients = (r.sendAll m).2.clients := by
      rw [sendEach_snd m hnodup]
      apply List.map_congr_left
      intro c hc
      exact if_pos (horder.mem_iff.2 (List.mem_map_of_mem hc))
    exact congrArg Roster.mk hclients

/-- Nor does the list, which is sorted at the end. -/
theorem mergeSort_eq_snapshot {list : List ClientStatus} (h : r.Ascending) (hlist : list.Perm r.snapshot)
    : list.mergeSort ClientStatus.isUpTo = r.snapshot := by
  have hsorted : (list.mergeSort ClientStatus.isUpTo).Pairwise fun s t => s.isUpTo t = true := by
    apply List.pairwise_mergeSort
    . intro s t u hst htu
      exact decide_eq_true (UInt32.le_trans (of_decide_eq_true hst) (of_decide_eq_true htu))
    . intro s t
      simpa [ClientStatus.isUpTo] using UInt32.le_total s.id.value t.id.value
  have hperm := (List.mergeSort_perm list ClientStatus.isUpTo).trans hlist
  have hascending := h.pairwise_snapshot
  apply List.Perm.eq_of_pairwise _ hsorted _ hperm
  . intro s t hs ht hst hts
    have hvalue : s.id.value = t.id.value := UInt32.le_antisymm (of_decide_eq_true hst) (of_decide_eq_true hts)
    have hnodup : (r.snapshot.map (·.id.value)).Nodup := by
      rw [List.Nodup, List.pairwise_map]
      apply hascending.imp
      intro s t hlt heq
      rw [heq] at hlt
      exact UInt32.lt_irrefl _ hlt
    exact List.inj_on_of_nodup_map hnodup (hperm.mem_iff.1 hs) ht hvalue
  . apply hascending.imp
    intro s t hlt
    exact decide_eq_true (UInt32.le_of_lt hlt)

end Order

end Roster

end Intercom.Signaling
