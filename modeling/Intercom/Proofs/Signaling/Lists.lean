import Mathlib
import Intercom.Proofs.Signaling.Holders

/-!
This module contains what each step of a connection does to the lists of clients: those that connections have taken
and not sent yet, and those that are on their way to the browsers.
-/

namespace Intercom.Signaling

variable {c : Connection} {cs : List Connection} {h : Hub} {l : Lobby} {i : Nat} {next : Connection × Hub}
variable {list : List ClientStatus} {last : Option (List ClientStatus)} {listing : Option Listing}
variable {history : List (Nat × Listing)}

def ServerMessage.list? : ServerMessage → Option (List ClientStatus)
  | clients list => some list
  | connected _ _ _ _ _ _ | disconnected _ => none

def lastList? (messages : List ServerMessage) : Option (List ClientStatus) :=
  (messages.filterMap ServerMessage.list?).getLast?

/-- Whether a connection has changed the roster and not sent the list that follows yet. -/
def Phase.isUpdating : Phase → Bool
  | registered _ | listDue _ | listTaken _ _ | leaving _ _ => true
  | arriving | opened _ | serving _ | ended => false

/-- Whether a connection has changed the roster and not taken the list that follows yet. -/
def Phase.isDue : Phase → Bool
  | registered _ | listDue _ | leaving _ _ => true
  | arriving | opened _ | listTaken _ _ | serving _ | ended => false

def Phase.taken? : Phase → Option (List ClientStatus)
  | listTaken list _ => some list
  | arriving | opened _ | registered _ | listDue _ | serving _ | leaving _ _ | ended => none

/-- Every queue that is still read takes one more message. -/
def Roster.HasRoom (r : Roster) : Prop :=
  ∀ client ∈ r.clients, client.queue.messages.length < queueCapacity

section History

def Listing.taken? : Listing → Option (List ClientStatus)
  | taken list => some list
  | sent _ => none

def Listing.sent? : Listing → Option (List ClientStatus)
  | taken _ => none
  | sent list => some list

def lastTaken? (history : List (Nat × Listing)) : Option (Nat × List ClientStatus) :=
  (history.filterMap fun entry => entry.2.taken?.map (entry.1, ·)).getLast?

def lastSent? (history : List (Nat × Listing)) : Option (Nat × List ClientStatus) :=
  (history.filterMap fun entry => entry.2.sent?.map (entry.1, ·)).getLast?

@[simp]
theorem lastTaken?_concat_taken : lastTaken? (history ++ [(i, .taken list)]) = some (i, list) := by
  simp [lastTaken?, Listing.taken?]

@[simp]
theorem lastTaken?_concat_sent : lastTaken? (history ++ [(i, .sent list)]) = lastTaken? history := by
  simp [lastTaken?, Listing.taken?]

@[simp]
theorem lastSent?_concat_taken : lastSent? (history ++ [(i, .taken list)]) = lastSent? history := by
  simp [lastSent?, Listing.sent?]

@[simp]
theorem lastSent?_concat_sent : lastSent? (history ++ [(i, .sent list)]) = some (i, list) := by
  simp [lastSent?, Listing.sent?]

end History

/-- The browser of a serving connection gets `last` as its last list, unless nothing reads its queue any more. -/
def Shows (last : Option (List ClientStatus)) (h : Hub) (c : Connection) : Prop :=
  ∀ info client, c.phase = .serving info → h.roster.get? info.id = some client → client.queue.isOpen = true →
    lastList? (c.sent ++ client.queue.messages) = last

section Shown

theorem shows_of_not_serving (hserving : ∀ info, c.phase ≠ .serving info) : Shows last h c := by
  intro info client hphase
  exact absurd hphase (hserving info)

theorem shows_of_get?_eq {h' : Hub} (hshows : Shows last h c)
    (hget : ∀ info, c.phase = .serving info → h'.roster.get? info.id = h.roster.get? info.id) : Shows last h' c := by
  intro info client hphase hclient
  rw [hget info hphase] at hclient
  exact hshows info client hphase hclient

theorem shows_sendAll (hroom : h.roster.HasRoom) (list : List ClientStatus) (c : Connection)
    : Shows (some list) { h with roster := (h.roster.sendAll (.clients list)).2 } c := by
  intro info client hphase hget hopen
  rw [Roster.get?_sendAll, Option.map_eq_some_iff] at hget
  rcases hget with ⟨before, hbefore, rfl⟩
  have hlength := hroom before (Roster.mem_of_get? hbefore)
  have hsend : (before.queue.send (.clients list)).2 =
      { before.queue with messages := before.queue.messages ++ [.clients list] } := by
    unfold Queue.send at hopen ⊢
    split
    . rfl
    . next hfull =>
      rw [if_neg hfull] at hopen
      exact absurd ⟨hopen, hlength⟩ hfull
  dsimp only
  rw [hsend]
  simp [lastList?, ServerMessage.list?]

theorem Phase.session?_of_writing? {phase : Phase} {info : SessionInfo} (hwriting : phase.writing? = some info)
    : phase.session? = some info := by
  cases phase with
  | serving _ | listDue _ | listTaken _ _ => exact hwriting
  | arriving | opened _ | registered _ | leaving _ _ | ended => simp [writing?] at hwriting

theorem Move.get?_of_ne {j : SessionId} (hmove : Move c h listing next) (hquiet : ∀ list, listing ≠ some (.sent list))
    (hother : ∀ info, c.phase.session? = some info → j ≠ info.id) : next.2.roster.get? j = h.roster.get? j := by
  cases hmove with
  | rest | opens _ _ _ _ | refused _ _ | takes _ _ | closes _ _ _ _ _ _ | closesInVain _ _ _ _ | offers _ _ _
  | drains _ _ _ _ _ | loses _ _ _ => rfl
  | registers info hphase => exact Roster.get?_register_of_ne (hother info (hphase ▸ rfl))
  | greets info hphase => exact Roster.get?_send_of_ne _ (hother info (hphase ▸ rfl))
  | sends list next hphase => exact absurd rfl (hquiet list)
  | talks info state hphase => exact Roster.get?_modify_of_ne _ (fun _ => rfl) (hother info (hphase ▸ rfl))
  | leaves info queue hphase => exact Roster.get?_remove_of_ne (hother info (hphase ▸ rfl))
  | writes info client m rest hphase hget hmessages =>
    exact Roster.get?_modify_of_ne _ (fun _ => rfl) (hother info (Phase.session?_of_writing? hphase))
  | breaks info hphase =>
    exact Roster.get?_modify_of_ne _ (fun _ => rfl) (hother info (Phase.session?_of_writing? hphase))

theorem Move.shows (hmove : Move c h listing next) (hquiet : ∀ list, listing ≠ some (.sent list))
    (hshows : Shows last h c) : Shows last next.2 next.1 := by
  cases hmove with
  | rest | offers _ _ _ => exact hshows
  | sends list next hphase => exact absurd rfl (hquiet list)
  | opens _ _ _ _ | refused _ _ | registers _ _ | greets _ _ | takes _ _ | closes _ _ _ _ _ _ | closesInVain _ _ _ _
  | talks _ _ _ | leaves _ _ _ | drains _ _ _ _ _ | loses _ _ _ => exact shows_of_not_serving (by simp)
  | writes info client m rest hphase hget hmessages =>
    intro info' client' hserving hclient hopen
    rw [hserving] at hphase
    have hinfo : info' = info := Option.some.inj hphase
    rw [hinfo] at hserving hclient
    dsimp only at hclient ⊢
    rw [Roster.get?_modify_self, hget, Option.map_some, Option.some.injEq] at hclient
    . rw [← hclient] at hopen ⊢
      rw [← hshows info client hserving hget hopen, hmessages, List.append_assoc]
      rfl
    . intro d
      rfl
  | breaks info hphase =>
    intro info' client' hserving hclient hopen
    rw [hserving] at hphase
    have hinfo : info' = info := Option.some.inj hphase
    rw [hinfo] at hclient
    unfold Roster.closeQueue at hclient
    dsimp only at hclient
    rw [Roster.get?_modify_self, Option.map_eq_some_iff] at hclient
    . rcases hclient with ⟨client, -, rfl⟩
      exact absurd hopen Bool.false_ne_true
    . intro d
      rfl

theorem Sound.shows_set (hsound : Sound l.connections l.hub) (hc : l.connections[i]? = some c)
    (hmove : Move c l.hub listing next) (hquiet : ∀ list, listing ≠ some (.sent list))
    (hshown : ∀ d ∈ l.connections, Shows last l.hub d) : ∀ d ∈ l.connections.set i next.1, Shows last next.2 d := by
  have hperm := Trace.perm_of_getElem? hc
  intro d hd
  rw [(Trace.perm_set hc next.1).mem_iff, List.mem_cons] at hd
  rcases hd with rfl | hd
  . exact hmove.shows hquiet (hshown c (List.mem_of_getElem? hc))
  . apply shows_of_get?_eq (hshown d (hperm.mem_iff.2 (List.mem_cons_of_mem c hd)))
    intro info hserving
    apply hmove.get?_of_ne hquiet
    intro own hown
    apply (hsound.perm hperm).ne_of_mem_registered hown
    exact List.mem_filterMap.2 ⟨d, hd, hserving ▸ rfl⟩

end Shown

section Taken

theorem Move.due (hmove : Move c h listing next) (hquiet : ∀ list, listing ≠ some (.taken list))
    : (c.phase.isDue = true → next.1.phase.isDue = true) ∧
      (next.1.phase.isDue = true ∨ next.2.roster.snapshot = h.roster.snapshot) := by
  cases hmove with
  | rest | offers _ _ _ => exact ⟨id, .inr rfl⟩
  | opens _ _ hphase _ | refused _ hphase => exact ⟨fun hdue => absurd hdue (by simp [hphase, Phase.isDue]), .inr rfl⟩
  | registers _ _ | greets _ _ | closes _ _ _ _ _ _ | closesInVain _ _ _ _ | talks _ _ _ | leaves _ _ _
  | drains _ _ _ _ _ | loses _ _ _ => exact ⟨fun _ => rfl, .inl rfl⟩
  | takes next hphase => exact absurd rfl (hquiet _)
  | sends list next hphase =>
    refine ⟨fun hdue => absurd hdue (by simp [hphase, Phase.isDue]), .inr ?_⟩
    unfold Roster.sendAll Roster.snapshot
    rw [List.map_map]
    rfl
  | writes info client m rest hphase hget hmessages =>
    exact ⟨id, .inr (Roster.map_modify Client.status _ fun _ => rfl)⟩
  | breaks info hphase => exact ⟨id, .inr (Roster.map_modify Client.status _ fun _ => rfl)⟩

theorem due_set (hc : l.connections[i]? = some c) (hmove : Move c l.hub listing next)
    (hquiet : ∀ list, listing ≠ some (.taken list))
    (hdue : (∃ d ∈ l.connections, d.phase.isDue = true) ∨ list = l.hub.roster.snapshot)
    : (∃ d ∈ l.connections.set i next.1, d.phase.isDue = true) ∨ list = next.2.roster.snapshot := by
  have hset := Trace.perm_set hc next.1
  rcases hmove.due hquiet with ⟨hkeeps, hnext⟩
  rcases hdue with ⟨d, hd, hdue⟩ | hlist
  . left
    rw [(Trace.perm_of_getElem? hc).mem_iff, List.mem_cons] at hd
    rcases hd with rfl | hd
    . exact ⟨next.1, hset.mem_iff.2 (List.mem_cons_self ..), hkeeps hdue⟩
    . exact ⟨d, hset.mem_iff.2 (List.mem_cons_of_mem next.1 hd), hdue⟩
  . rcases hnext with hdue | hsnapshot
    . exact .inl ⟨next.1, hset.mem_iff.2 (List.mem_cons_self ..), hdue⟩
    . exact .inr (hlist.trans hsnapshot.symm)

theorem Move.taken?_eq (hmove : Move c h none next) : next.1.phase.taken? = c.phase.taken? := by
  generalize hlisting : (none : Option Listing) = listing at hmove
  cases hmove with
  | rest | offers _ _ _ | writes _ _ _ _ _ _ _ | breaks _ _ => rfl
  | takes _ _ | sends _ _ _ => simp at hlisting
  | opens _ _ hphase _ | refused _ hphase | registers _ hphase | greets _ hphase | closes _ _ _ _ hphase _
  | closesInVain _ _ hphase _ | talks _ _ hphase | leaves _ _ hphase | drains _ _ _ _ hphase | loses _ _ hphase =>
    rw [hphase]
    rfl

def heldList? (cs : List Connection) (i : Nat) : Option (List ClientStatus) :=
  cs[i]?.bind (·.phase.taken?)

theorem heldList?_set (hc : cs[i]? = some c) (c' : Connection) (j : Nat)
    : heldList? (cs.set i c') j = if i = j then c'.phase.taken? else heldList? cs j := by
  unfold heldList?
  rw [List.getElem?_set]
  split
  . next heq =>
    rw [if_pos (List.getElem?_eq_some_iff.1 hc).1]
    rfl
  . rfl

theorem heldList?_arrive (cs : List Connection) (host : Option String) (j : Nat)
    : heldList? (cs ++ [({ host } : Connection)]) j = heldList? cs j := by
  unfold heldList?
  rcases Nat.lt_or_ge j cs.length with hlt | hge
  . rw [List.getElem?_append_left hlt]
  . rw [List.getElem?_append_right hge, List.getElem?_eq_none hge]
    cases j - cs.length with
    | zero => rfl
    | succ n => rfl

end Taken

end Intercom.Signaling
