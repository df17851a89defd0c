import Mathlib
import Intercom.Proofs.Signaling.Lists

/-!
This module contains which browsers are shown who is there. The last list of each is the one that was sent last, and
the roster's is the one that was taken last: the browsers see who is there as long as these two are the same.
-/

namespace Intercom.Signaling

open Lobby (Turn turn start sampleStart sampleSteps)

variable {c : Connection} {cs : List Connection} {h : Hub} {l : Lobby} {i : Nat} {next : Connection × Hub}
variable {list : List ClientStatus} {history : List (Nat × Listing)}

section Settled

theorem Phase.eq_serving {phase : Phase} {info : SessionInfo} (hsettled : phase.isUpdating = false)
    (hregistered : phase.registered? = some info) : phase = .serving info := by
  cases phase with
  | serving info' => exact congrArg serving (Option.some.inj hregistered)
  | registered _ | listDue _ | listTaken _ _ | leaving _ _ => simp [isUpdating] at hsettled
  | arriving | opened _ | ended => simp [registered?] at hregistered

theorem Phase.isDue_eq_false {phase : Phase} (hsettled : phase.isUpdating = false) : phase.isDue = false := by
  cases phase with
  | registered _ | listDue _ | listTaken _ _ | leaving _ _ => simp [isUpdating] at hsettled
  | arriving | opened _ | serving _ | ended => rfl

theorem heldList?_of_settled (hsettled : ∀ c ∈ cs, c.phase.isUpdating = false) (i : Nat) : heldList? cs i = none := by
  unfold heldList?
  rw [Option.bind_eq_none_iff]
  intro c hc
  have hphase := hsettled c (List.mem_of_getElem? hc)
  cases hc' : c.phase with
  | listTaken _ _ => simp [hc', Phase.isUpdating] at hphase
  | arriving | opened _ | registered _ | listDue _ | serving _ | leaving _ _ | ended => rfl

theorem Sound.get?_of_mem {client : Client} (hsound : Sound cs h) (hclient : client ∈ h.roster.clients)
    : h.roster.get? client.id = some client := by
  apply Roster.get?_of_mem _ hclient
  rw [(hsound.roster.map _).nodup_iff]
  exact ((registered_sublist_held cs).map _).nodup hsound.distinct

theorem Sound.exists_serving {client : Client} (hsound : Sound cs h) (hclient : client ∈ h.roster.clients)
    (hsettled : ∀ c ∈ cs, c.phase.isUpdating = false) : ∃ c ∈ cs, c.phase = .serving client.info := by
  have hinfo : client.info ∈ h.roster.infos := List.mem_map_of_mem hclient
  rw [hsound.roster.mem_iff] at hinfo
  unfold registered at hinfo
  rw [List.mem_filterMap] at hinfo
  rcases hinfo with ⟨c, hc, hregistered⟩
  exact ⟨c, hc, Phase.eq_serving (hsettled c hc) hregistered⟩

end Settled

/-- What the lists that were taken and sent so far have to do with what is there. The list that was taken last is the
roster's unless another one is due, and the connection that took it sends no other list before it takes one. -/
structure Current (history : List (Nat × Listing)) (l : Lobby) : Prop where
  shown : ∀ c ∈ l.connections, Shows ((lastSent? history).map (·.2)) l.hub c
  due : (∃ c ∈ l.connections, c.phase.isDue = true) ∨
    ((lastTaken? history).map (·.2)).getD [] = l.hub.roster.snapshot
  taken : ∀ i list, lastTaken? history = some (i, list) →
    heldList? l.connections i = some list ∨
    heldList? l.connections i = none ∧ ∀ sent, lastSent? history = some (i, sent) → sent = list

namespace Current

theorem rests (hcurrent : Current history l) (hsound : Sound l.connections l.hub) (hc : l.connections[i]? = some c)
    (hmove : Move c l.hub none next)
    : Current history { hub := next.2, connections := l.connections.set i next.1 } := by
  have hheld (j : Nat) : heldList? (l.connections.set i next.1) j = heldList? l.connections j := by
    rw [heldList?_set hc, hmove.taken?_eq]
    split
    . next heq =>
      unfold heldList?
      rw [← heq, hc]
      rfl
    . rfl
  constructor
  . exact hsound.shows_set hc hmove (by simp) hcurrent.shown
  . exact due_set hc hmove (by simp) hcurrent.due
  . intro j list hlast
    dsimp only
    rw [hheld]
    exact hcurrent.taken j list hlast

theorem takes (hcurrent : Current history l) (hsound : Sound l.connections l.hub) (hc : l.connections[i]? = some c)
    (hmove : Move c l.hub (some (.taken list)) next)
    : Current (history ++ [(i, .taken list)]) { hub := next.2, connections := l.connections.set i next.1 } := by
  have hshown := hsound.shows_set hc hmove (by simp) hcurrent.shown
  cases hmove with
  | takes next hphase =>
    constructor
    . rw [lastSent?_concat_taken]
      exact hshown
    . rw [lastTaken?_concat_taken]
      exact .inr rfl
    . intro j list hlast
      rw [lastTaken?_concat_taken, Option.some.injEq, Prod.mk.injEq] at hlast
      left
      dsimp only
      rw [heldList?_set hc, if_pos hlast.1, ← hlast.2]
      rfl

theorem sends (hcurrent : Current history l) (hc : l.connections[i]? = some c) (hroom : l.hub.roster.HasRoom)
    (hmove : Move c l.hub (some (.sent list)) next)
    : Current (history ++ [(i, .sent list)]) { hub := next.2, connections := l.connections.set i next.1 } := by
  have hdue := due_set hc hmove (by simp) hcurrent.due
  cases hmove with
  | sends list next hphase =>
    constructor
    . rw [lastSent?_concat_sent]
      intro d hd
      exact shows_sendAll hroom list d
    . rw [lastTaken?_concat_sent]
      exact hdue
    . intro j list' hlast
      rw [lastTaken?_concat_sent] at hlast
      have hbefore := hcurrent.taken j list' hlast
      dsimp only
      rw [lastSent?_concat_sent, heldList?_set hc]
      split
      . next heq =>
        have hheld : heldList? l.connections j = some list := by
          unfold heldList?
          rw [← heq, hc, Option.bind_some, hphase]
          rfl
        -- The connection that took the last list has sent it now.
        have hsame : list = list' := by
          rw [hheld] at hbefore
          simpa using hbefore
        right
        refine ⟨?_, ?_⟩
        . cases next with
          | none => rfl
          | some info => rfl
        . intro sent hsent
          rw [Option.some.injEq, Prod.mk.injEq] at hsent
          rw [← hsent.2, hsame]
      . next hne =>
        rcases hbefore with hheld | ⟨hheld, -⟩
        . exact .inl hheld
        . refine .inr ⟨hheld, ?_⟩
          intro sent hsent
          rw [Option.some.injEq, Prod.mk.injEq] at hsent
          exact absurd hsent.1 hne

theorem arrives (hcurrent : Current history l) (host : Option String)
    : Current history { l with connections := l.connections ++ [{ host }] } := by
  constructor
  . intro c hc
    rw [List.mem_append, List.mem_singleton] at hc
    rcases hc with hc | rfl
    . exact hcurrent.shown c hc
    . exact shows_of_not_serving (by simp)
  . rcases hcurrent.due with ⟨c, hc, hdue⟩ | hlist
    . exact .inl ⟨c, List.mem_append_left _ hc, hdue⟩
    . exact .inr hlist
  . intro i list hlast
    dsimp only
    rw [heldList?_arrive]
    exact hcurrent.taken i list hlast

theorem turned {t : Turn} {listing : Option (Nat × Listing)} {l' : Lobby} (hcurrent : Current history l)
    (hsound : Sound l.connections l.hub) (hturned : Lobby.Turned l t listing l')
    (hroom : ∀ i list, listing = some (i, .sent list) → l.hub.roster.HasRoom)
    : Current (history ++ listing.toList) l' := by
  cases hturned with
  | arrives host =>
    rw [Option.toList_none, List.append_nil]
    exact hcurrent.arrives host
  | misses i a =>
    rw [Option.toList_none, List.append_nil]
    exact hcurrent
  | moves i a c listing next hc hmove =>
    cases listing with
    | none =>
      rw [Option.map_none, Option.toList_none, List.append_nil]
      exact hcurrent.rests hsound hc hmove
    | some listing =>
      cases listing with
      | taken list => exact hcurrent.takes hsound hc hmove
      | sent list => exact hcurrent.sends hc (hroom i list rfl) hmove
  | hears e =>
    rw [Option.toList_none, List.append_nil]
    exact ⟨hcurrent.shown, hcurrent.due, hcurrent.taken⟩
  | stops =>
    rw [Option.toList_none, List.append_nil]
    exact ⟨hcurrent.shown, hcurrent.due, hcurrent.taken⟩

theorem lastTaken?_eq_snapshot (hcurrent : Current history l)
    (hsettled : ∀ c ∈ l.connections, c.phase.isUpdating = false) (hclients : l.hub.roster.clients ≠ [])
    : (lastTaken? history).map (·.2) = some l.hub.roster.snapshot := by
  rcases hcurrent.due with ⟨c, hc, hdue⟩ | hsnapshot
  . rw [Phase.isDue_eq_false (hsettled c hc)] at hdue
    exact absurd hdue Bool.false_ne_true
  . cases htaken : lastTaken? history with
    | none =>
      rw [htaken] at hsnapshot
      exact absurd (List.map_eq_nil_iff.1 hsnapshot.symm) hclients
    | some entry =>
      rw [htaken] at hsnapshot
      exact congrArg some hsnapshot

/-- Nobody overtakes the connection that took the last list if that connection also sent last. -/
theorem lastSent?_eq_lastTaken? (hcurrent : Current history l)
    (hsettled : ∀ c ∈ l.connections, c.phase.isUpdating = false)
    (horder : (lastSent? history).map (·.1) = (lastTaken? history).map (·.1))
    : (lastSent? history).map (·.2) = (lastTaken? history).map (·.2) := by
  cases htaken : lastTaken? history with
  | none =>
    rw [htaken, Option.map_none, Option.map_eq_none_iff] at horder
    rw [horder]
  | some entry =>
    rcases entry with ⟨i, list⟩
    rw [htaken, Option.map_some, Option.map_eq_some_iff] at horder
    rcases horder with ⟨⟨j, sent⟩, hsent, rfl⟩
    rcases hcurrent.taken j list htaken with hheld | ⟨-, hsame⟩
    . rw [heldList?_of_settled hsettled] at hheld
      simp at hheld
    . rw [hsent, Option.map_some, hsame sent hsent, Option.map_some]

end Current

section Runs

variable (names : NamePool) (password : String) (settings : Handshake.Settings) (capacity : Nat)
variable (publicAddress : Option String) (fingerprint : String) (relayPort : UInt16) (turns : List Turn) (k : Nat)

def listings (l : Lobby) (turns : List Turn) (k : Nat) : List (Nat × Listing) :=
  Trace.collect Lobby.listing? turn l turns 0 k

/-- No list was sent in the first `k` turns while some queue was full. -/
def AlwaysRoom (l : Lobby) (turns : List Turn) (k : Nat) : Prop :=
  ∀ j < k, ∀ t i list, turns[j]? = some t → (Trace.after turn l turns j).listing? t = some (i, .sent list) →
    (Trace.after turn l turns j).hub.roster.HasRoom

theorem current_after
    (hroom : AlwaysRoom (start (Relay.start names password settings capacity) publicAddress fingerprint relayPort)
      turns k)
    : let l := start (Relay.start names password settings capacity) publicAddress fingerprint relayPort
      Current (listings l turns k) (Trace.after turn l turns k) := by
  let l := start (Relay.start names password settings capacity) publicAddress fingerprint relayPort
  change Current (listings l turns k) (Trace.after turn l turns k)
  induction k with
  | zero =>
    constructor
    . intro c hc
      exact absurd hc List.not_mem_nil
    . exact .inr rfl
    . intro i list hlast
      simp [listings, Trace.collect, lastTaken?] at hlast
  | succ k ih =>
    have hsound := sound_after names password settings capacity publicAddress fingerprint relayPort turns k
    have hbefore := ih fun j hj => hroom j (Nat.lt_succ_of_lt hj)
    unfold listings at hbefore ⊢
    rw [Trace.collect_succ (Nat.zero_le k)]
    cases ht : turns[k]? with
    | none =>
      rw [Trace.after_succ_of_none ht, Option.bind_none, Option.toList_none, List.append_nil]
      exact hbefore
    | some t =>
      rw [Trace.after_succ ht, Option.bind_some]
      apply hbefore.turned hsound (Lobby.turned _ t)
      intro i list
      exact hroom k (Nat.lt_succ_self k) t i list ht

end Runs

/-- A list may overtake one that was taken later; then the browsers agree on a list that is not the roster's. They see
the roster exactly if the list that was sent last is the one that was taken last, for instance because the connection
that took it also sent last. -/
theorem last_list_eq_snapshot_iff (names : NamePool) (password : String) (settings : Handshake.Settings)
    (capacity : Nat) (publicAddress : Option String) (fingerprint : String) (relayPort : UInt16) (turns : List Turn)
    (k : Nat)
    : let initial := start (Relay.start names password settings capacity) publicAddress fingerprint relayPort
      let l := Trace.after turn initial turns k
      let taken := lastTaken? (listings initial turns k)
      let sent := lastSent? (listings initial turns k)
      AlwaysRoom initial turns k →
      (∀ c ∈ l.connections, c.phase.isUpdating = false) →
      (sent.map (·.1) = taken.map (·.1) → sent.map (·.2) = taken.map (·.2)) ∧
      ∀ client ∈ l.hub.roster.clients, client.queue.isOpen = true →
        taken.map (·.2) = some l.hub.roster.snapshot ∧
        ∃ c ∈ l.connections,
          c.phase = .serving client.info ∧
          lastList? (c.sent ++ client.queue.messages) = sent.map (·.2) ∧
          (lastList? (c.sent ++ client.queue.messages) = some l.hub.roster.snapshot ↔
            sent.map (·.2) = taken.map (·.2)) := by
  intro initial l taken sent hroom hsettled
  have hcurrent := current_after names password settings capacity publicAddress fingerprint relayPort turns k hroom
  have hsound : Sound l.connections l.hub :=
    sound_after names password settings capacity publicAddress fingerprint relayPort turns k
  refine ⟨hcurrent.lastSent?_eq_lastTaken? hsettled, ?_⟩
  intro client hclient hopen
  have htaken : taken.map (·.2) = some l.hub.roster.snapshot :=
    hcurrent.lastTaken?_eq_snapshot hsettled (List.ne_nil_of_mem hclient)
  rcases hsound.exists_serving hclient hsettled with ⟨c, hc, hserving⟩
  have hshown : lastList? (c.sent ++ client.queue.messages) = sent.map (·.2) :=
    hcurrent.shown c hc client.info client hserving (hsound.get?_of_mem hclient) hopen
  refine ⟨htaken, c, hc, hserving, hshown, ?_⟩
  rw [hshown, htaken]

section Sample

/-- Two connections take the same list, and the one that took it first sends it last. -/
def sampleTogether : List Turn :=
  [.lobby (.arrive none), .lobby (.arrive none)] ++ sampleSteps 0 3 ++ sampleSteps 1 3 ++ sampleSteps 0 1 ++
    sampleSteps 1 2 ++ sampleSteps 0 1

/-- The first connection takes a list, and sends it when the second one has sent a later one. -/
def sampleOvertaken : List Turn :=
  [.lobby (.arrive none), .lobby (.arrive none)] ++ sampleSteps 0 4 ++ sampleSteps 1 5 ++ sampleSteps 0 1

/-- Nothing reads the queue of the first connection any more when the second one comes. -/
def sampleUnread : List Turn :=
  [.lobby (.arrive none), .lobby (.arrive none)] ++ sampleSteps 0 5 ++
    [.lobby (.act 0 .write), .lobby (.act 0 .write), .lobby (.act 0 .writeFails)] ++ sampleSteps 1 5

/-- No connection is updating, and the last list of some browser is not what the roster has. -/
def Stale (l : Lobby) : Prop :=
  (∀ c ∈ l.connections, c.phase.isUpdating = false) ∧
    ∃ c ∈ l.connections, ∃ client ∈ l.hub.roster.clients,
      c.phase = .serving client.info ∧
      lastList? (c.sent ++ client.queue.messages) ≠ some l.hub.roster.snapshot

theorem last_list_eq_snapshot_sampleTogether
    : let l := Trace.after turn sampleStart sampleTogether 12
      AlwaysRoom sampleStart sampleTogether 12 ∧ (∀ c ∈ l.connections, c.phase.isUpdating = false) ∧
      (lastSent? (listings sampleStart sampleTogether 12)).map (·.1) = some 0 ∧
      (lastTaken? (listings sampleStart sampleTogether 12)).map (·.1) = some 1 ∧
      l.hub.roster.clients.length = 2 ∧
      ∀ client ∈ l.hub.roster.clients, client.queue.isOpen = true →
        ∃ c ∈ l.connections,
          c.phase = .serving client.info ∧
          lastList? (c.sent ++ client.queue.messages) = some l.hub.roster.snapshot := by
  have hroom : ∀ j < 12, (Trace.after turn sampleStart sampleTogether j).hub.roster.HasRoom := by
    unfold Roster.HasRoom
    decide +kernel
  have hroom : AlwaysRoom sampleStart sampleTogether 12 := fun j hj _ _ _ _ _ => hroom j hj
  have hsettled : ∀ c ∈ (Trace.after turn sampleStart sampleTogether 12).connections, c.phase.isUpdating = false := by
    decide +kernel
  have hsame : (lastSent? (listings sampleStart sampleTogether 12)).map (·.2) =
      (lastTaken? (listings sampleStart sampleTogether 12)).map (·.2) := by
    decide +kernel
  refine ⟨hroom, hsettled, by decide +kernel, by decide +kernel, by decide +kernel, ?_⟩
  intro client hclient hopen
  rcases last_list_eq_snapshot_iff ⟨["Ada", "Ben"]⟩ "" {} 4 none "" 0 sampleTogether 12 hroom hsettled with ⟨-, hshown⟩
  rcases hshown client hclient hopen with ⟨-, c, hc, hserving, -, hiff⟩
  exact ⟨c, hc, hserving, hiff.2 hsame⟩

theorem not_last_list_eq_snapshot_sampleOvertaken
    : (∀ j ≤ 12, (Trace.after turn sampleStart sampleOvertaken j).hub.roster.HasRoom) ∧
      Stale (Trace.after turn sampleStart sampleOvertaken 12) ∧
      (∀ j ≤ 15, (Trace.after turn sampleStart sampleUnread j).hub.roster.HasRoom) ∧
      Stale (Trace.after turn sampleStart sampleUnread 15) := by
  unfold Roster.HasRoom Stale
  decide +kernel

end Sample

end Intercom.Signaling
