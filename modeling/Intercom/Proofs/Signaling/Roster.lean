import Mathlib
import Intercom.Signaling.Roster

/-!
This module contains what the operations of the roster do to who is in it and to what is told about it. The queues
of the clients are no part of either.
-/

namespace Intercom.Signaling

def Queue.HasRoom (q : Queue) : Prop :=
  q.isOpen = true ∧ q.messages.length < queueCapacity

instance (q : Queue) : Decidable q.HasRoom :=
  inferInstanceAs (Decidable (_ ∧ _))

theorem Queue.send_eq (q : Queue) (m : ServerMessage)
    : q.send m = if q.HasRoom then (true, { q with messages := q.messages ++ [m] }) else (false, q) := rfl

def Client.info (c : Client) : SessionInfo :=
  ⟨c.id, c.name⟩

namespace Roster

variable {r : Roster} {id j : SessionId} {info : SessionInfo} {client : Client} {cs : List Client} {m : ServerMessage}

def infos (r : Roster) : List SessionInfo :=
  r.clients.map Client.info

theorem mem_of_get? (h : r.get? id = some client) : client ∈ r.clients := by
  unfold get? at h
  exact List.mem_of_find?_eq_some h

theorem id_of_get? (h : r.get? id = some client) : client.id = id := by
  unfold get? at h
  simpa using List.find?_some h

theorem get?_eq_none_iff : r.get? id = none ↔ ∀ c ∈ r.clients, c.id ≠ id := by
  unfold get?
  simp

theorem get?_of_mem (hnodup : (r.infos.map (·.id)).Nodup) (h : client ∈ r.clients)
    : r.get? client.id = some client := by
  unfold infos at hnodup
  rw [List.map_map] at hnodup
  cases hget : r.get? client.id with
  | none => exact absurd rfl (get?_eq_none_iff.1 hget client h)
  | some found =>
    rw [List.inj_on_of_nodup_map hnodup (mem_of_get? hget) h (id_of_get? hget)]

theorem map_modify {β : Type} (value : Client → β) (f : Client → Client) (hf : ∀ c, value (f c) = value c)
    : (r.modify id f).clients.map value = r.clients.map value := by
  unfold modify
  rw [List.map_map]
  congr 1
  funext c
  dsimp
  split
  . apply hf
  . rfl

theorem modify_of_get?_eq_none (f : Client → Client) (h : r.get? id = none) : r.modify id f = r := by
  have hmap : r.clients.map (fun c => if c.id = id then f c else c) = r.clients.map fun c => c := by
    apply List.map_congr_left
    intro c hc
    exact if_neg (get?_eq_none_iff.1 h c hc)
  unfold modify
  rw [hmap, List.map_id']

theorem find?_map_clients (cs : List Client) (f : Client → Client) (hf : ∀ c, (f c).id = c.id)
    : (cs.map f).find? (·.id = j) = (cs.find? (·.id = j)).map f := by
  rw [List.find?_map]
  congr 2
  funext c
  simp [hf]

theorem get?_modify (f : Client → Client) (hf : ∀ c, (f c).id = c.id)
    : (r.modify id f).get? j = if j = id then (r.get? j).map f else r.get? j := by
  unfold modify get?
  dsimp only
  rw [find?_map_clients]
  . cases hfind : r.get? j with
    | none =>
      unfold get? at hfind
      simp [hfind]
    | some c =>
      have hid := id_of_get? hfind
      unfold get? at hfind
      rw [hfind, Option.map_some, hid]
      split
      . rfl
      . rfl
  . intro c
    split
    . apply hf
    . rfl

theorem get?_modify_self (f : Client → Client) (hf : ∀ c, (f c).id = c.id)
    : (r.modify id f).get? id = (r.get? id).map f := by
  rw [get?_modify f hf, if_pos rfl]

theorem get?_modify_of_ne (f : Client → Client) (hf : ∀ c, (f c).id = c.id) (hne : j ≠ id)
    : (r.modify id f).get? j = r.get? j := by
  rw [get?_modify f hf, if_neg hne]

theorem get?_sendAll (r : Roster) (m : ServerMessage)
    : (r.sendAll m).2.get? j = (r.get? j).map fun c => { c with queue := (c.queue.send m).2 } := by
  unfold sendAll get?
  apply find?_map_clients
  intro c
  rfl

theorem get?_send_of_ne (m : ServerMessage) (hne : j ≠ id) : (r.send id m).2.get? j = r.get? j := by
  unfold send
  split
  . rfl
  . let f (c : Client) : Client := { c with queue := (c.queue.send m).2 }
    exact get?_modify_of_ne f (fun _ => rfl) hne

theorem get?_send_self (r : Roster) (id : SessionId) (m : ServerMessage)
    : (r.send id m).2.get? id = (r.get? id).map fun c => { c with queue := (c.queue.send m).2 } := by
  unfold send
  split
  . next hnone =>
    rw [hnone]
    rfl
  . let f (c : Client) : Client := { c with queue := (c.queue.send m).2 }
    exact get?_modify_self f fun _ => rfl

theorem get?_remove_of_ne (hne : j ≠ id) : (r.remove id).2.get? j = r.get? j := by
  unfold remove get?
  dsimp only
  rw [List.find?_filter]
  congr 1
  funext c
  by_cases hc : c.id = j
  . simp [hc, hne]
  . simp [hc]

theorem find?_insert_of_ne (cs : List Client) (hne : j ≠ client.id)
    : (insert client cs).find? (·.id = j) = cs.find? (·.id = j) := by
  have hskip (rest : List Client) : (client :: rest).find? (·.id = j) = rest.find? (·.id = j) :=
    List.find?_cons_of_neg (by simpa using hne.symm)
  induction cs with
  | nil => exact hskip []
  | cons c cs ih =>
    unfold insert
    split
    . rw [List.find?_cons, List.find?_cons, ih]
    . split
      . next heq =>
        rw [hskip]
        apply (List.find?_cons_of_neg _).symm
        rw [heq]
        simpa using hne.symm
      . exact hskip (c :: cs)

theorem find?_insert_self (client : Client) (cs : List Client)
    : (insert client cs).find? (·.id = client.id) = some client := by
  have hfound (rest : List Client) : (client :: rest).find? (·.id = client.id) = some client :=
    List.find?_cons_of_pos (decide_eq_true rfl)
  induction cs with
  | nil => exact hfound []
  | cons c cs ih =>
    unfold insert
    split
    . next hlt =>
      have hne : c.id ≠ client.id := by
        intro heq
        rw [heq] at hlt
        exact UInt32.lt_irrefl _ hlt
      rw [List.find?_cons_of_neg (by simpa using hne), ih]
    . split
      . exact hfound cs
      . exact hfound (c :: cs)

theorem get?_register_self (r : Roster) (info : SessionInfo)
    : (r.register info).get? info.id = some { id := info.id, name := info.name } :=
  find?_insert_self { id := info.id, name := info.name } r.clients

theorem get?_register_of_ne (hne : j ≠ info.id) : (r.register info).get? j = r.get? j :=
  find?_insert_of_ne r.clients hne

theorem perm_insert (h : ∀ c ∈ cs, c.id ≠ client.id) : (insert client cs).Perm (client :: cs) := by
  induction cs with
  | nil => exact .refl _
  | cons c cs ih =>
    have hne : c.id ≠ client.id := h c (List.mem_cons_self ..)
    have hrest := ih fun d hd => h d (List.mem_cons_of_mem c hd)
    unfold insert
    rw [if_neg hne]
    split
    . exact (hrest.cons c).trans (.swap client c cs)
    . exact .refl _

theorem perm_register (h : ∀ i ∈ r.infos, i.id ≠ info.id)
    : (r.register info).clients.Perm ({ id := info.id, name := info.name } :: r.clients) := by
  unfold register
  apply perm_insert
  intro c hc
  exact h c.info (List.mem_map_of_mem hc)

theorem infos_register (h : ∀ i ∈ r.infos, i.id ≠ info.id) : (r.register info).infos.Perm (info :: r.infos) := by
  exact (perm_register h).map Client.info

theorem infos_remove (r : Roster) (id : SessionId) : (r.remove id).2.infos = r.infos.filter (·.id ≠ id) := by
  unfold remove infos
  rw [List.filter_map]
  rfl

theorem infos_send (r : Roster) (id : SessionId) (m : ServerMessage) : (r.send id m).2.infos = r.infos := by
  unfold send
  split
  . rfl
  . exact map_modify Client.info _ fun _ => rfl

theorem infos_sendAll (r : Roster) (m : ServerMessage) : (r.sendAll m).2.infos = r.infos := by
  unfold sendAll infos
  rw [List.map_map]
  rfl

@[simp]
theorem snapshot_sendAll (r : Roster) (m : ServerMessage) : (r.sendAll m).2.snapshot = r.snapshot := by
  unfold sendAll snapshot
  rw [List.map_map]
  rfl

theorem take?_eq_some {after : Roster} (h : r.take? id = some (m, after))
    : ∃ client rest,
        r.get? id = some client ∧ client.queue.messages = m :: rest ∧
        after = r.modify id fun c => { c with queue := { client.queue with messages := rest } } := by
  unfold take? at h
  rw [Option.bind_eq_bind, Option.bind_eq_some_iff] at h
  rcases h with ⟨client, hget, h⟩
  rw [Option.bind_eq_bind, Option.bind_eq_some_iff] at h
  rcases h with ⟨⟨m', queue⟩, htake, h⟩
  rw [Option.pure_def, Option.some.injEq, Prod.mk.injEq] at h
  rcases h with ⟨rfl, rfl⟩
  unfold Queue.take? at htake
  split at htake
  . simp at htake
  . next m'' rest hmessages =>
    rw [Option.some.injEq, Prod.mk.injEq] at htake
    rcases htake with ⟨rfl, rfl⟩
    exact ⟨client, rest, hget, hmessages, rfl⟩

end Roster

end Intercom.Signaling
