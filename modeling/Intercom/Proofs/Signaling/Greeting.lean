import Mathlib
import Intercom.Proofs.Signaling.Lists

/-!
This module contains what a connection finds in its queue. Lists that others send while it is registered and not
greeted yet come before its greeting, and when they fill the queue the greeting is lost.
-/

namespace Intercom.Signaling

open Lobby (Turn turn start sampleStart sampleSteps)

variable {c c' : Connection} {h h' : Hub} {l : Lobby} {i : Nat} {info : SessionInfo} {next : Connection × Hub}
variable {list : List ClientStatus} {overheard : List (List ClientStatus)} {listing : Option Listing}
variable {all sent : List ServerMessage} {queue : Queue} {m : ServerMessage}

def ServerMessage.isGreeting : ServerMessage → Bool
  | connected _ _ _ _ _ _ => true
  | disconnected _ | clients _ => false

def Phase.isEarly : Phase → Bool
  | arriving | opened _ => true
  | registered _ | listDue _ | listTaken _ _ | serving _ | leaving _ _ | ended => false

def Phase.isWaiting : Phase → Bool
  | registered _ => true
  | arriving | opened _ | listDue _ | listTaken _ _ | serving _ | leaving _ _ | ended => false

def Phase.greeted? : Phase → Option SessionInfo
  | listDue next | listTaken _ next => next
  | serving info | leaving info _ => some info
  | arriving | opened _ | registered _ | ended => none

/-- The queue that the messages to a connection go to, or that is left of it. -/
def Phase.queue? (phase : Phase) (r : Roster) : Option Queue :=
  match phase with
  | leaving _ queue => some queue
  | phase => phase.registered?.bind fun info => (r.get? info.id).map (·.queue)

/-- What was written to the browser, and what is to be written yet. -/
def Connection.inbox (c : Connection) (h : Hub) : List ServerMessage :=
  c.sent ++ ((c.phase.queue? h.roster).map (·.messages)).getD []

def Connection.isRead (c : Connection) (h : Hub) : Bool :=
  (c.phase.queue? h.roster).any (·.isOpen)

def Lobby.overheard? (i : Nat) (l : Lobby) (t : Turn) : Option (List ClientStatus) :=
  if l.connections[i]?.any (·.phase.isWaiting) then (l.listing? t).bind (·.2.sent?) else none

def queueBefore (overheard : List (List ClientStatus)) : Queue :=
  ⟨(overheard.take queueCapacity).map .clients, true⟩

/-- What stands in a queue when its connection has been greeted. -/
def opening (overheard : List (List ClientStatus)) (greeting : ServerMessage) : List ServerMessage :=
  (queueBefore overheard).messages ++ if overheard.length < queueCapacity then [greeting] else []

/-- All messages to a browser. If nothing reads its queue any more, some of them may be lost. -/
structure Receives (all sent : List ServerMessage) (queue : Queue) : Prop where
  front : sent ++ queue.messages <+: all
  whole : queue.isOpen = true → sent ++ queue.messages = all

namespace Receives

theorem offer (hreceives : Receives all sent queue) (m : ServerMessage)
    : Receives (all ++ if queue.HasRoom then [m] else []) sent (queue.send m).2 := by
  rw [Queue.send_eq]
  split
  . next hroom =>
    have hall : sent ++ (queue.messages ++ [m]) = all ++ [m] := by
      rw [← hreceives.whole hroom.1, List.append_assoc]
    refine ⟨?_, fun _ => hall⟩
    dsimp only
    rw [hall]
  . rw [List.append_nil]
    exact hreceives

theorem send (hreceives : Receives all sent queue) (list : List ClientStatus)
    : ∃ more : List (List ClientStatus),
        Receives (all ++ more.map .clients) sent (queue.send (.clients list)).2 := by
  have hoffer := hreceives.offer (.clients list)
  by_cases hroom : queue.HasRoom
  . rw [if_pos hroom] at hoffer
    exact ⟨[list], hoffer⟩
  . rw [if_neg hroom] at hoffer
    exact ⟨[], hoffer⟩

theorem take {rest : Queue} (hreceives : Receives all sent queue) (htake : queue.take? = some (m, rest))
    : Receives all (sent ++ [m]) rest := by
  unfold Queue.take? at htake
  split at htake
  . simp at htake
  . next m' messages hmessages =>
    rw [Option.some.injEq, Prod.mk.injEq] at htake
    rcases htake with ⟨rfl, rfl⟩
    have hsame : sent ++ [m'] ++ messages = sent ++ queue.messages := by
      rw [hmessages, List.append_assoc]
      rfl
    constructor
    . rw [hsame]
      exact hreceives.front
    . intro hopen
      rw [hsame]
      exact hreceives.whole hopen

theorem close (hreceives : Receives all sent queue) : Receives all sent .close := by
  constructor
  . unfold Queue.close
    rw [List.append_nil]
    exact (List.prefix_append _ _).trans hreceives.front
  . intro hopen
    exact absurd hopen Bool.false_ne_true

end Receives

def Greeted (overheard : List (List ClientStatus)) (info : SessionInfo) (c : Connection) (h : Hub) : Prop :=
  ∃ (queue : Queue) (later : List (List ClientStatus)),
    c.phase.queue? h.roster = some queue ∧
    Receives (opening overheard (h.welcome info c.host) ++ later.map .clients) c.sent queue

/-- What a connection has been told. Once its session is closed, nothing more is said of it. -/
structure Told (overheard : List (List ClientStatus)) (c : Connection) (h : Hub) : Prop where
  early : c.phase.isEarly = true → c.sent = [] ∧ overheard = []
  waiting : c.phase.isWaiting = true → c.sent = [] ∧ c.phase.queue? h.roster = some (queueBefore overheard)
  greeted : ∀ info, c.phase.greeted? = some info → Greeted overheard info c h

section Steps

variable {p : Phase} {r r' : Roster}

theorem Phase.queue?_of_registered (hregistered : p.registered? = some info) (r : Roster)
    : p.queue? r = (r.get? info.id).map (·.queue) := by
  cases p with
  | leaving _ _ => simp [registered?] at hregistered
  | arriving | opened _ | registered _ | listDue _ | listTaken _ _ | serving _ | ended =>
    unfold queue?
    dsimp only
    rw [hregistered]
    rfl

theorem Phase.queue?_congr (hget : ∀ info, p.registered? = some info → r'.get? info.id = r.get? info.id)
    : p.queue? r' = p.queue? r := by
  cases hregistered : p.registered? with
  | some info => rw [queue?_of_registered hregistered, queue?_of_registered hregistered, hget info hregistered]
  | none =>
    cases p with
    | leaving _ _ => rfl
    | arriving | opened _ | registered _ | listDue _ | listTaken _ _ | serving _ | ended =>
      unfold queue?
      dsimp only
      rw [hregistered]
      rfl

theorem Phase.queue?_sendAll (hregistered : p.registered? = some info) (r : Roster) (m : ServerMessage)
    : p.queue? (r.sendAll m).2 = (p.queue? r).map fun queue => (queue.send m).2 := by
  rw [queue?_of_registered hregistered, queue?_of_registered hregistered, Roster.get?_sendAll, Option.map_map,
    Option.map_map]
  rfl

theorem Phase.registered?_of_writing? (hwriting : p.writing? = some info) : p.registered? = some info := by
  cases p with
  | serving _ | listDue _ | listTaken _ _ => exact hwriting
  | arriving | opened _ | registered _ | leaving _ _ | ended => simp [writing?] at hwriting

theorem Move.welcome_eq (hmove : Move c h listing next) : next.2.welcome = h.welcome := by
  cases hmove with
  | rest | refused _ _ | registers _ _ | greets _ _ | takes _ _ | sends _ _ _ | closesInVain _ _ _ _ | talks _ _ _
  | leaves _ _ _ _ | drains _ _ _ _ _ _ | writes _ _ _ _ _ _ _ | loses _ _ _ | breaks _ _ => rfl
  | opens info relay hphase hopen hpassword =>
    funext info' host
    unfold Hub.welcome
    dsimp only
    rw [hpassword]
    rfl
  | closes info queue s relay hphase hclose hpassword =>
    funext info' host
    unfold Hub.welcome
    dsimp only
    rw [hpassword]
    rfl
  | offers info ice hphase =>
    have hpassword : (h.handle.relay.step (.setIce info.id ice)).password = h.handle.relay.password := by
      unfold Relay.step Relay.setIce
      dsimp only
      split
      . rfl
      . rfl
    funext info' host
    unfold Hub.welcome
    dsimp only
    rw [hpassword]
    rfl

namespace Greeted

theorem move (hgreeted : Greeted overheard info c h) (hhost : c'.host = c.host) (hwelcome : h'.welcome = h.welcome)
    (hqueue : ∀ queue all,
      c.phase.queue? h.roster = some queue → Receives all c.sent queue →
        ∃ queue', c'.phase.queue? h'.roster = some queue' ∧ Receives all c'.sent queue')
    : Greeted overheard info c' h' := by
  rcases hgreeted with ⟨queue, later, hbefore, hreceives⟩
  rcases hqueue queue _ hbefore hreceives with ⟨queue', hafter, hreceives'⟩
  refine ⟨queue', later, hafter, ?_⟩
  rw [hhost, hwelcome]
  exact hreceives'

theorem same (hgreeted : Greeted overheard info c h) (hhost : c'.host = c.host) (hwelcome : h'.welcome = h.welcome)
    (hqueue : c'.phase.queue? h'.roster = c.phase.queue? h.roster) (hsent : c'.sent = c.sent)
    : Greeted overheard info c' h' := by
  apply hgreeted.move hhost hwelcome
  intro queue all hbefore hreceives
  rw [hqueue, hsent]
  exact ⟨queue, hbefore, hreceives⟩

theorem sendAll (hgreeted : Greeted overheard info c h) (list : List ClientStatus)
    : Greeted overheard info c { h with roster := (h.roster.sendAll (.clients list)).2 } := by
  cases hregistered : c.phase.registered? with
  | none =>
    have hqueue : c.phase.queue? (h.roster.sendAll (.clients list)).2 = c.phase.queue? h.roster := by
      apply Phase.queue?_congr
      intro info' hinfo
      rw [hregistered] at hinfo
      simp at hinfo
    exact hgreeted.same rfl rfl hqueue rfl
  | some own =>
    rcases hgreeted with ⟨queue, later, hqueue, hreceives⟩
    rcases hreceives.send list with ⟨more, hmore⟩
    refine ⟨(queue.send (.clients list)).2, later ++ more, ?_, ?_⟩
    . rw [Phase.queue?_sendAll hregistered, hqueue]
      rfl
    . rw [List.map_append, ← List.append_assoc]
      exact hmore

end Greeted

theorem send_greeting (overheard : List (List ClientStatus)) (greeting : ServerMessage)
    : ((queueBefore overheard).send greeting).2 = ⟨opening overheard greeting, true⟩ := by
  have hlength : (queueBefore overheard).messages.length < queueCapacity ↔ overheard.length < queueCapacity := by
    unfold queueBefore
    rw [List.length_map, List.length_take]
    omega
  unfold Queue.send opening
  split
  . next htaken =>
    rw [if_pos (hlength.1 htaken.2)]
    rfl
  . next hfull =>
    rw [if_neg fun hroom => hfull ⟨rfl, hlength.2 hroom⟩, List.append_nil]
    rfl

theorem send_overheard (overheard : List (List ClientStatus)) (list : List ClientStatus)
    : ((queueBefore overheard).send (.clients list)).2 = queueBefore (overheard ++ [list]) := by
  unfold Queue.send
  split
  . next htaken =>
    have hroom := htaken.2
    unfold queueBefore at hroom ⊢
    rw [List.length_map, List.length_take] at hroom
    dsimp only
    rw [List.take_of_length_le (by omega), List.take_of_length_le, List.map_append]
    . rfl
    . rw [List.length_append, List.length_singleton]
      omega
  . next hfull =>
    have hroom : ¬ (queueBefore overheard).messages.length < queueCapacity := fun hroom => hfull ⟨rfl, hroom⟩
    unfold queueBefore at hroom ⊢
    rw [List.length_map, List.length_take] at hroom
    rw [List.take_append_of_le_length]
    omega

theorem Phase.greeted?_of_writing? (hwriting : p.writing? = some info)
    : p.isEarly = false ∧ p.isWaiting = false ∧ p.greeted? = some info := by
  cases p with
  | serving _ | listDue _ | listTaken _ _ => exact ⟨rfl, rfl, hwriting⟩
  | arriving | opened _ | registered _ | leaving _ _ | ended => simp [writing?] at hwriting

theorem told_of_greeted (hearly : c.phase.isEarly = false) (hwaiting : c.phase.isWaiting = false)
    (hgreeted : ∀ info, c.phase.greeted? = some info → Greeted overheard info c h) : Told overheard c h := by
  constructor
  . intro hphase
    rw [hearly] at hphase
    exact absurd hphase Bool.false_ne_true
  . intro hphase
    rw [hwaiting] at hphase
    exact absurd hphase Bool.false_ne_true
  . exact hgreeted

namespace Told

theorem late (htold : Told overheard c h) (hearly : c'.phase.isEarly = false) (hwaiting : c'.phase.isWaiting = false)
    (hgreeted : c'.phase.greeted? = c.phase.greeted?) (hhost : c'.host = c.host) (hwelcome : h'.welcome = h.welcome)
    (hqueue : ∀ queue all,
      c.phase.queue? h.roster = some queue → Receives all c.sent queue →
        ∃ queue', c'.phase.queue? h'.roster = some queue' ∧ Receives all c'.sent queue')
    : Told overheard c' h' := by
  apply told_of_greeted hearly hwaiting
  intro info hinfo
  rw [hgreeted] at hinfo
  exact (htold.greeted info hinfo).move hhost hwelcome hqueue

theorem quiet (htold : Told overheard c h) (hearly : c'.phase.isEarly = false) (hwaiting : c'.phase.isWaiting = false)
    (hgreeted : c'.phase.greeted? = c.phase.greeted?) (hhost : c'.host = c.host) (hwelcome : h'.welcome = h.welcome)
    (hsent : c'.sent = c.sent) (hqueue : c'.phase.queue? h'.roster = c.phase.queue? h.roster)
    : Told overheard c' h' := by
  apply htold.late hearly hwaiting hgreeted hhost hwelcome
  intro queue all hbefore hreceives
  rw [hqueue, hsent]
  exact ⟨queue, hbefore, hreceives⟩

theorem registers (htold : Told overheard c h) (hphase : c.phase = .opened info)
    : Told overheard { c with phase := .registered info } { h with roster := h.roster.register info } := by
  have hbefore := htold.early (by rw [hphase]; rfl)
  constructor
  . intro hearly
    exact absurd hearly Bool.false_ne_true
  . intro _
    refine ⟨hbefore.1, ?_⟩
    dsimp only
    rw [Phase.queue?_of_registered (p := .registered info) rfl, Roster.get?_register_self, hbefore.2]
    rfl
  . intro info' hgreeted
    simp [Phase.greeted?] at hgreeted

theorem greets (htold : Told overheard c h) (hphase : c.phase = .registered info)
    : Told overheard { c with phase := .listDue info }
        { h with roster := (h.roster.send info.id (h.welcome info c.host)).2 } := by
  rcases htold.waiting (by rw [hphase]; rfl) with ⟨hsent, hqueue⟩
  rw [hphase, Phase.queue?_of_registered (p := .registered info) rfl, Option.map_eq_some_iff] at hqueue
  rcases hqueue with ⟨client, hget, hqueue⟩
  apply told_of_greeted rfl rfl
  intro info' hinfo
  rw [← Option.some.inj hinfo]
  refine ⟨⟨opening overheard (h.welcome info c.host), true⟩, [], ?_, ?_⟩
  . rw [Phase.queue?_of_registered (p := .listDue info) rfl, Roster.get?_send_self, hget, ← send_greeting, ← hqueue]
    rfl
  . dsimp only
    rw [hsent, List.map_nil, List.append_nil]
    exact ⟨List.prefix_refl _, fun _ => rfl⟩

theorem writes {client : Client} {rest : List ServerMessage} (htold : Told overheard c h)
    (hphase : c.phase.writing? = some info) (hget : h.roster.get? info.id = some client)
    (hmessages : client.queue.messages = m :: rest)
    : Told overheard { c with sent := c.sent ++ [m] }
        { h with roster := h.roster.modify info.id fun d =>
            { d with queue := { client.queue with messages := rest } } } := by
  rcases Phase.greeted?_of_writing? hphase with ⟨hearly, hwaiting, -⟩
  have hregistered := Phase.registered?_of_writing? hphase
  refine htold.late hearly hwaiting rfl rfl rfl ?_
  intro before all hbefore hreceives
  rw [Phase.queue?_of_registered hregistered, hget] at hbefore
  rw [← Option.some.inj hbefore] at hreceives
  refine ⟨{ client.queue with messages := rest }, ?_, hreceives.take ?_⟩
  . rw [Phase.queue?_of_registered hregistered, Roster.get?_modify_self, hget]
    . rfl
    . intro d
      rfl
  . unfold Queue.take?
    rw [hmessages]

theorem breaks (htold : Told overheard c h) (hphase : c.phase.writing? = some info)
    : Told overheard c { h with roster := h.roster.closeQueue info.id } := by
  rcases Phase.greeted?_of_writing? hphase with ⟨hearly, hwaiting, -⟩
  have hregistered := Phase.registered?_of_writing? hphase
  refine htold.late hearly hwaiting rfl rfl rfl ?_
  intro before all hbefore hreceives
  rw [Phase.queue?_of_registered hregistered, Option.map_eq_some_iff] at hbefore
  rcases hbefore with ⟨client, hget, -⟩
  refine ⟨.close, ?_, hreceives.close⟩
  unfold Roster.closeQueue
  rw [Phase.queue?_of_registered hregistered, Roster.get?_modify_self, hget]
  . rfl
  . intro d
    rfl

theorem move (htold : Told overheard c h) (hmove : Move c h listing next) : Told overheard next.1 next.2 := by
  have hwelcome := hmove.welcome_eq
  cases hmove with
  | rest => exact htold
  | opens info relay hphase hopen hpassword =>
    have hbefore := htold.early (by rw [hphase]; rfl)
    exact ⟨fun _ => hbefore, fun hwaiting => absurd hwaiting Bool.false_ne_true, by simp [Phase.greeted?]⟩
  | refused _ _ | closes _ _ _ _ _ _ _ | closesInVain _ _ _ _ => exact told_of_greeted rfl rfl (by simp [Phase.greeted?])
  | registers info hphase => exact htold.registers hphase
  | greets info hphase => exact htold.greets hphase
  | takes next hphase =>
    refine htold.quiet rfl rfl ?_ rfl rfl rfl ?_
    . rw [hphase]
      rfl
    . rw [hphase]
      rfl
  | sends list next hphase =>
    cases next with
    | none => exact told_of_greeted rfl rfl (by simp [Phase.greeted?])
    | some info =>
      have hsent : Told overheard c { h with roster := (h.roster.sendAll (.clients list)).2 } := by
        apply told_of_greeted (hphase ▸ rfl) (hphase ▸ rfl)
        intro info' hinfo
        exact (htold.greeted info' hinfo).sendAll list
      refine hsent.quiet rfl rfl ?_ rfl rfl rfl ?_
      . rw [hphase]
        rfl
      . rw [hphase]
        rfl
  | talks info state hphase =>
    refine htold.quiet rfl rfl ?_ rfl rfl rfl ?_
    . rw [hphase]
      rfl
    . unfold Roster.setState
      rw [hphase, Phase.queue?_of_registered (p := .listDue info) rfl,
        Phase.queue?_of_registered (p := .serving info) rfl, Roster.get?_modify_self, Option.map_map]
      . rfl
      . intro d
        rfl
  | offers info ice hphase => exact htold.quiet (hphase ▸ rfl) (hphase ▸ rfl) rfl rfl hwelcome rfl rfl
  | leaves info queue hphase hqueue =>
    refine htold.late rfl rfl (hphase ▸ rfl) rfl rfl ?_
    intro before all hbefore hreceives
    rw [hphase, Phase.queue?_of_registered (p := .serving info) rfl] at hbefore
    rw [hbefore] at hqueue
    exact ⟨before, congrArg some hqueue, hreceives⟩
  | drains info queue rest m hphase htake =>
    refine htold.late rfl rfl (hphase ▸ rfl) rfl rfl ?_
    intro before all hbefore hreceives
    rw [hphase] at hbefore
    rw [← Option.some.inj hbefore] at hreceives
    exact ⟨rest, rfl, hreceives.take htake⟩
  | writes info client m rest hphase hget hmessages => exact htold.writes hphase hget hmessages
  | loses info queue hphase =>
    refine htold.late rfl rfl (hphase ▸ rfl) rfl rfl ?_
    intro before all hbefore hreceives
    exact ⟨.close, rfl, hreceives.close⟩
  | breaks info hphase => exact htold.breaks hphase

/-- Of the steps of others only a list that is sent reaches a connection. -/
theorem beside (htold : Told overheard c h) (hwelcome : h'.welcome = h.welcome)
    (hget : ∀ info, c.phase.registered? = some info → h'.roster.get? info.id = h.roster.get? info.id)
    : Told overheard c h' := by
  have hqueue := Phase.queue?_congr hget
  constructor
  . exact htold.early
  . rw [hqueue]
    exact htold.waiting
  . intro info hinfo
    exact (htold.greeted info hinfo).same rfl hwelcome hqueue rfl

theorem sendAll (htold : Told overheard c h) (list : List ClientStatus)
    : Told (overheard ++ (if c.phase.isWaiting then some list else none).toList) c
        { h with roster := (h.roster.sendAll (.clients list)).2 } := by
  cases hwaiting : c.phase.isWaiting with
  | true =>
    rcases htold.waiting hwaiting with ⟨hsent, hqueue⟩
    have hregistered : ∃ info, c.phase = .registered info := by
      cases hphase : c.phase with
      | registered info => exact ⟨info, rfl⟩
      | arriving | opened _ | listDue _ | listTaken _ _ | serving _ | leaving _ _ | ended =>
        simp [hphase, Phase.isWaiting] at hwaiting
    rcases hregistered with ⟨info, hphase⟩
    constructor
    . intro hearly
      simp [hphase, Phase.isEarly] at hearly
    . intro _
      have hregistered : c.phase.registered? = some info := hphase ▸ rfl
      rw [Phase.queue?_sendAll hregistered, hqueue]
      exact ⟨hsent, congrArg some (send_overheard overheard list)⟩
    . intro info' hinfo
      simp [hphase, Phase.greeted?] at hinfo
  | false =>
    rw [if_neg Bool.false_ne_true, Option.toList_none, List.append_nil]
    constructor
    . exact htold.early
    . intro hphase
      rw [hwaiting] at hphase
      exact absurd hphase Bool.false_ne_true
    . intro info hinfo
      exact (htold.greeted info hinfo).sendAll list

end Told

end Steps

section Lobby

variable {t : Turn} {l' : Lobby} {place : Option (Nat × Listing)}

def ToldAt (overheard : List (List ClientStatus)) (i : Nat) (l : Lobby) : Prop :=
  match l.connections[i]? with
  | none => overheard = []
  | some c => Told overheard c l.hub

theorem toldAt_of_some (hc : l.connections[i]? = some c) : ToldAt overheard i l ↔ Told overheard c l.hub := by
  unfold ToldAt
  rw [hc]

theorem Move.isWaiting_of_sent (hmove : Move c h (some (.sent list)) next) : c.phase.isWaiting = false := by
  generalize hlisting : some (Listing.sent list) = listing at hmove
  cases hmove with
  | sends _ _ hphase =>
    rw [hphase]
    rfl
  | takes _ _ => simp at hlisting
  | rest | opens _ _ _ _ _ | refused _ _ | registers _ _ | greets _ _ | closes _ _ _ _ _ _ _ | closesInVain _ _ _ _
  | talks _ _ _ | offers _ _ _ | leaves _ _ _ _ | drains _ _ _ _ _ _ | writes _ _ _ _ _ _ _ | loses _ _ _
  | breaks _ _ => simp at hlisting

namespace ToldAt

theorem arrives (htold : ToldAt overheard i l) (host : Option String)
    : ToldAt overheard i { l with connections := l.connections ++ [{ host }] } := by
  unfold ToldAt at htold ⊢
  dsimp only
  rcases Nat.lt_trichotomy i l.connections.length with hlt | heq | hgt
  . rw [List.getElem?_append_left hlt]
    exact htold
  . rw [List.getElem?_eq_none heq.ge] at htold
    rw [heq, List.getElem?_concat_length]
    exact ⟨fun _ => ⟨rfl, htold⟩, fun hwaiting => absurd hwaiting Bool.false_ne_true, by simp [Phase.greeted?]⟩
  . rw [List.getElem?_eq_none hgt.le] at htold
    rw [List.getElem?_eq_none]
    . exact htold
    . rw [List.length_append, List.length_singleton]
      omega

theorem hears (htold : ToldAt overheard i l) (hhub : l'.hub.roster = l.hub.roster)
    (hwelcome : l'.hub.welcome = l.hub.welcome) (hconnections : l'.connections = l.connections)
    : ToldAt overheard i l' := by
  unfold ToldAt at htold ⊢
  rw [hconnections]
  split
  . next hc =>
    rw [hc] at htold
    exact htold
  . next c hc =>
    rw [hc] at htold
    apply htold.beside hwelcome
    intro info _
    rw [hhub]

theorem moves_other {j : Nat} {d : Connection} (htold : Told overheard d l.hub) (hsound : Sound l.connections l.hub)
    (hd : l.connections[i]? = some d) (hc : l.connections[j]? = some c) (hne : i ≠ j)
    (hmove : Move c l.hub listing next)
    : Told (overheard ++ (if d.phase.isWaiting then listing.bind Listing.sent? else none).toList) d next.2 := by
  by_cases hsent : ∃ list, listing = some (.sent list)
  . rcases hsent with ⟨list, rfl⟩
    have hlist := htold.sendAll list
    cases hmove with
    | sends list next hphase => exact hlist
  . push Not at hsent
    have hnone : listing.bind Listing.sent? = none := by
      rcases listing with _ | ⟨list⟩ | ⟨list⟩
      . rfl
      . rfl
      . exact absurd rfl (hsent list)
    rw [hnone, ite_self, Option.toList_none, List.append_nil]
    apply htold.beside hmove.welcome_eq
    intro info hregistered
    apply hmove.get?_of_ne hsent
    intro own hown
    apply (hsound.perm (Trace.perm_of_getElem? hc)).ne_of_mem_registered hown
    apply List.mem_filterMap.2
    exact ⟨d, List.mem_eraseIdx_iff_getElem?.2 ⟨i, hne, hd⟩, hregistered⟩

theorem moves_self (htold : Told overheard c h) (hmove : Move c h listing next)
    : Told (overheard ++ (if c.phase.isWaiting then listing.bind Listing.sent? else none).toList) next.1 next.2 := by
  have hnone : (if c.phase.isWaiting then listing.bind Listing.sent? else none) = none := by
    rcases listing with _ | ⟨list⟩ | ⟨list⟩
    . apply ite_self
    . apply ite_self
    . rw [hmove.isWaiting_of_sent]
      rfl
  rw [hnone, Option.toList_none, List.append_nil]
  exact htold.move hmove

theorem turned (htold : ToldAt overheard i l) (hsound : Sound l.connections l.hub)
    (hturned : Lobby.Turned l t place l')
    : ToldAt
        (overheard ++ (if l.connections[i]?.any (·.phase.isWaiting) then place.bind (·.2.sent?) else none).toList)
        i l' := by
  cases hturned with
  | arrives host =>
    rw [Option.bind_none, ite_self, Option.toList_none, List.append_nil]
    exact htold.arrives host
  | misses j a =>
    rw [Option.bind_none, ite_self, Option.toList_none, List.append_nil]
    exact htold
  | moves j a c listing next hc hmove =>
    have hplace : (listing.map (j, ·)).bind (·.2.sent?) = listing.bind Listing.sent? := by
      rw [Option.bind_map]
      rfl
    rw [hplace]
    cases hd : l.connections[i]? with
    | none =>
      unfold ToldAt at htold ⊢
      rw [hd] at htold
      rw [List.getElem?_eq_none]
      . simpa using htold
      . rw [List.length_set]
        exact List.getElem?_eq_none_iff.1 hd
    | some d =>
      rw [toldAt_of_some hd] at htold
      rw [Option.any_some]
      by_cases heq : i = j
      . rw [heq, hc, Option.some.injEq] at hd
        rw [toldAt_of_some (c := next.1), ← hd]
        . rw [← hd] at htold
          exact moves_self htold hmove
        . rw [heq]
          exact List.getElem?_set_self (List.getElem?_eq_some_iff.1 hc).1
      . rw [toldAt_of_some (c := d)]
        . exact moves_other htold hsound hd hc heq hmove
        . rw [← hd]
          exact List.getElem?_set_ne fun h => heq h.symm
  | hears e =>
    rw [Option.bind_none, ite_self, Option.toList_none, List.append_nil]
    refine htold.hears rfl ?_ rfl
    have hpassword := (Relay.regular hsound.wellFormed e).password
    funext info host
    unfold Hub.welcome
    dsimp only
    rw [hpassword]
    rfl
  | stops =>
    rw [Option.bind_none, ite_self, Option.toList_none, List.append_nil]
    exact htold.hears rfl rfl rfl

end ToldAt

end Lobby

section Runs

variable (names : NamePool) (password : String) (settings : Handshake.Settings) (capacity : Nat)
variable (publicAddress : Option String) (fingerprint : String) (relayPort : UInt16) (turns : List Turn) (k : Nat)

def overheardBy (i : Nat) (l : Lobby) (turns : List Turn) (k : Nat) : List (List ClientStatus) :=
  Trace.collect (Lobby.overheard? i) turn l turns 0 k

theorem toldAt_after (i : Nat)
    : let initial := start (Relay.start names password settings capacity) publicAddress fingerprint relayPort
      ToldAt (overheardBy i initial turns k) i (Trace.after turn initial turns k) := by
  intro initial
  induction k with
  | zero => rfl
  | succ k ih =>
    have hsound := sound_after names password settings capacity publicAddress fingerprint relayPort turns k
    unfold overheardBy at ih ⊢
    rw [Trace.collect_succ (Nat.zero_le k)]
    cases ht : turns[k]? with
    | none =>
      rw [Trace.after_succ_of_none ht, Option.bind_none, Option.toList_none, List.append_nil]
      exact ih
    | some t =>
      rw [Trace.after_succ ht, Option.bind_some]
      exact ih.turned hsound (Lobby.turned _ t)

end Runs

theorem inbox_of_queue? (hqueue : c.phase.queue? h.roster = some queue) : c.inbox h = c.sent ++ queue.messages := by
  unfold Connection.inbox
  rw [hqueue]
  rfl

theorem Greeted.inbox (hgreeted : Greeted overheard info c h)
    : ∃ later : List (List ClientStatus),
        let all := opening overheard (h.welcome info c.host) ++ later.map .clients
        c.inbox h <+: all ∧ (c.isRead h = true → c.inbox h = all) := by
  rcases hgreeted with ⟨queue, later, hqueue, hreceives⟩
  refine ⟨later, ?_, ?_⟩
  . rw [inbox_of_queue? hqueue]
    exact hreceives.front
  . intro hread
    unfold Connection.isRead at hread
    rw [hqueue] at hread
    rw [inbox_of_queue? hqueue]
    exact hreceives.whole hread

theorem opening_first_iff (info : SessionInfo) (host : Option String) (later : List (List ClientStatus))
    : let greeting := h.welcome info host
      let all := opening overheard greeting ++ later.map .clients
      all.head? = some greeting ∧ all.countP ServerMessage.isGreeting = 1 ↔ overheard = [] := by
  intro greeting all
  constructor
  . intro hfirst
    cases overheard with
    | nil => rfl
    | cons list lists =>
      have hhead : all.head? = some (.clients list) := rfl
      have hgreeting := hfirst.1
      rw [hhead, Option.some.injEq] at hgreeting
      simp [greeting, Hub.welcome] at hgreeting
  . intro hnone
    have hall : all = greeting :: later.map .clients := by
      unfold all
      rw [hnone]
      rfl
    have hlater : (later.map ServerMessage.clients).countP ServerMessage.isGreeting = 0 := by
      rw [List.countP_eq_zero]
      intro m hm
      rcases List.mem_map.1 hm with ⟨list, -, rfl⟩
      exact Bool.false_ne_true
    rw [hall, List.countP_cons_of_pos, hlater]
    . exact ⟨rfl, rfl⟩
    . rfl

/-- The greeting of a connection follows the lists that were sent between its registration and the greeting, and is lost
if these fill the queue. -/
theorem greeted_first_iff (names : NamePool) (password : String) (settings : Handshake.Settings) (capacity : Nat)
    (publicAddress : Option String) (fingerprint : String) (relayPort : UInt16) (turns : List Turn) (k i : Nat)
    (c : Connection) (info : SessionInfo)
    : let initial := start (Relay.start names password settings capacity) publicAddress fingerprint relayPort
      let l := Trace.after turn initial turns k
      let overheard := overheardBy i initial turns k
      let greeting := l.hub.welcome info c.host
      let inbox := c.inbox l.hub
      l.connections[i]? = some c → c.phase.greeted? = some info →
        (∃ later : List (List ClientStatus),
          let all := opening overheard greeting ++ later.map .clients
          inbox <+: all ∧ (c.isRead l.hub = true → inbox = all)) ∧
        (c.isRead l.hub = true →
          (inbox.head? = some greeting ∧ inbox.countP ServerMessage.isGreeting = 1 ↔ overheard = [])) := by
  intro initial l overheard greeting inbox hc hinfo
  have htold : ToldAt overheard i l :=
    toldAt_after names password settings capacity publicAddress fingerprint relayPort turns k i
  rw [toldAt_of_some hc] at htold
  rcases (htold.greeted info hinfo).inbox with ⟨later, hfront, hwhole⟩
  refine ⟨⟨later, hfront, hwhole⟩, ?_⟩
  intro hread
  have hall : inbox = opening overheard greeting ++ later.map .clients := hwhole hread
  rw [hall]
  exact opening_first_iff info c.host later

section Sample

/-- Two connections come. The first one has taken a list before the second one comes, and sends it after the second
one's greeting. -/
def sampleGreeted : List Turn :=
  [.lobby (.arrive none), .lobby (.arrive none)] ++ sampleSteps 0 4 ++ sampleSteps 1 3 ++ sampleSteps 0 1

/-- The same, but the first one sends its list between registration and greeting of the second one. -/
def sampleDisturbed : List Turn :=
  [.lobby (.arrive none), .lobby (.arrive none)] ++ sampleSteps 0 4 ++ sampleSteps 1 2 ++ sampleSteps 0 1 ++
    sampleSteps 1 1

theorem greeted_first_iff_sampleGreeted
    : let l := Trace.after turn sampleStart sampleGreeted 10
      ∃ c info,
        l.connections[1]? = some c ∧ c.phase.greeted? = some info ∧ c.isRead l.hub = true ∧
        overheardBy 1 sampleStart sampleGreeted 10 = [] ∧ (c.inbox l.hub).length = 2 ∧
        (c.inbox l.hub).head? = some (l.hub.welcome info c.host) ∧
        (c.inbox l.hub).countP ServerMessage.isGreeting = 1 := by
  intro l
  have hsome : l.connections[1]?.any (fun c =>
      c.phase.greeted?.isSome && (c.isRead l.hub && (c.inbox l.hub).length == 2)) = true := by
    decide +kernel
  have hnone : overheardBy 1 sampleStart sampleGreeted 10 = [] := by
    decide +kernel
  rcases (Option.any_eq_true _ _).1 hsome with ⟨c, hc, hphase⟩
  rw [Bool.and_eq_true, Bool.and_eq_true, Option.isSome_iff_exists, beq_iff_eq] at hphase
  rcases hphase with ⟨⟨info, hinfo⟩, hread, hlength⟩
  have hfirst := (greeted_first_iff ⟨["Ada", "Ben"]⟩ "" {} 4 none "" 0 sampleGreeted 10 1 c info hc hinfo).2 hread
  rcases hfirst.2 hnone with ⟨hhead, hcount⟩
  exact ⟨c, info, hc, hinfo, hread, hnone, hlength, hhead, hcount⟩

theorem not_greeted_first_sampleDisturbed
    : let l := Trace.after turn sampleStart sampleDisturbed 10
      l.connections[1]?.any (fun c => c.phase.greeted?.isSome && c.isRead l.hub) = true ∧
      l.connections[1]?.map (fun c => (c.inbox l.hub).map ServerMessage.isGreeting) = some [false, true] := by
  decide +kernel

end Sample

end Intercom.Signaling
