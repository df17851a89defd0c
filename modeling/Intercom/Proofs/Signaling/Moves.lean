import Mathlib
import Intercom.Proofs.Relay.Handle
import Intercom.Proofs.Signaling.Roster
import Intercom.Proofs.Trace
import Intercom.Signaling.Connection

/-!
This module contains runs of the signaling side together with its relay, and all that one step of a connection can
be.
-/

namespace Intercom.Signaling

def Phase.session? : Phase → Option SessionInfo
  | opened info | registered info | serving info | leaving info _ => some info
  | listDue next | listTaken _ next => next
  | arriving | ended => none

def Phase.registered? : Phase → Option SessionInfo
  | registered info | serving info => some info
  | listDue next | listTaken _ next => next
  | arriving | opened _ | leaving _ _ | ended => none

inductive Listing where
  | taken (list : List ClientStatus)
  | sent (list : List ClientStatus)

def Connection.listing? (c : Connection) (h : Hub) : Action → Option Listing
  | .proceed =>
    match c.phase with
    | .listDue _ => some (.taken h.roster.snapshot)
    | .listTaken list _ => some (.sent list)
    | _ => none
  | .text _ | .leave | .write | .writeFails => none

inductive Move (c : Connection) (h : Hub) : Option Listing → Connection × Hub → Prop where
  | rest : Move c h none (c, h)
  | opens (info : SessionInfo) (relay : Relay)
      (hphase : c.phase = .arriving)
      (hopen : h.handle.relay.table.openSession h.handle.relay.settings = .ok (info, relay.table))
      (hpassword : relay.password = h.handle.relay.password) :
      Move c h none ({ c with phase := .opened info }, { h with handle := { h.handle with relay } })
  | refused (e : RelayError)
      (hphase : c.phase = .arriving) :
      Move c h none ({ c with phase := .ended, sent := c.sent ++ [.disconnected e.message] }, h)
  | registers (info : SessionInfo)
      (hphase : c.phase = .opened info) :
      Move c h none ({ c with phase := .registered info }, { h with roster := h.roster.register info })
  | greets (info : SessionInfo)
      (hphase : c.phase = .registered info) :
      Move c h none
        ({ c with phase := .listDue info },
          { h with roster := (h.roster.send info.id (h.welcome info c.host)).2 })
  | takes (next : Option SessionInfo)
      (hphase : c.phase = .listDue next) :
      Move c h (some (.taken h.roster.snapshot)) ({ c with phase := .listTaken h.roster.snapshot next }, h)
  | sends (list : List ClientStatus) (next : Option SessionInfo)
      (hphase : c.phase = .listTaken list next) :
      Move c h (some (.sent list))
        ({ c with phase := next.elim .ended .serving },
          { h with roster := (h.roster.sendAll (.clients list)).2 })
  | closes (info : SessionInfo) (queue : Queue) (s : Session) (relay : Relay)
      (hphase : c.phase = .leaving info queue)
      (hclose : h.handle.relay.table.close? info.id = some (s, relay.table))
      (hpassword : relay.password = h.handle.relay.password) :
      Move c h none ({ c with phase := .listDue none }, { h with handle := { h.handle with relay } })
  /-- The relay has stopped, or the session is gone. -/
  | closesInVain (info : SessionInfo) (queue : Queue)
      (hphase : c.phase = .leaving info queue)
      (hvain : h.handle.running = false ∨ h.handle.relay.table.get? info.id = none) :
      Move c h none ({ c with phase := .listDue none }, h)
  | talks (info : SessionInfo) (state : TalkState)
      (hphase : c.phase = .serving info) :
      Move c h none ({ c with phase := .listDue info }, { h with roster := (h.roster.setState info.id state).2 })
  | offers (info : SessionInfo) (ice : IceParameters)
      (hphase : c.phase = .serving info) :
      Move c h none
        (c, { h with handle := { h.handle with relay := h.handle.relay.step (.setIce info.id ice) } })
  | leaves (info : SessionInfo) (queue : Queue)
      (hphase : c.phase = .serving info)
      (hqueue : queue = ((h.roster.get? info.id).map (·.queue)).getD .close) :
      Move c h none ({ c with phase := .leaving info queue }, { h with roster := (h.roster.remove info.id).2 })
  | drains (info : SessionInfo) (queue rest : Queue) (m : ServerMessage)
      (hphase : c.phase = .leaving info queue)
      (htake : queue.take? = some (m, rest)) :
      Move c h none ({ c with phase := .leaving info rest, sent := c.sent ++ [m] }, h)
  | writes (info : SessionInfo) (client : Client) (m : ServerMessage) (rest : List ServerMessage)
      (hphase : c.phase.writing? = some info)
      (hget : h.roster.get? info.id = some client)
      (hmessages : client.queue.messages = m :: rest) :
      Move c h none
        ({ c with sent := c.sent ++ [m] },
          { h with roster := h.roster.modify info.id fun d =>
              { d with queue := { client.queue with messages := rest } } })
  /-- Writing fails after it has left. -/
  | loses (info : SessionInfo) (queue : Queue)
      (hphase : c.phase = .leaving info queue) :
      Move c h none ({ c with phase := .leaving info .close }, h)
  /-- Writing fails while it is registered. -/
  | breaks (info : SessionInfo)
      (hphase : c.phase.writing? = some info) :
      Move c h none (c, { h with roster := h.roster.closeQueue info.id })

section Steps

variable (c : Connection) (h : Hub)

theorem move_proceed : Move c h (c.listing? h .proceed) (c.proceed h) := by
  unfold Connection.proceed Connection.listing?
  dsimp only
  cases hphase : c.phase with
  | arriving =>
    dsimp only
    rcases h.handle.openSession_cases with ⟨info, relay, hopen, heq⟩ | ⟨e, heq⟩
    . have hpassword := h.handle.password_openSession
      rw [heq] at hpassword ⊢
      exact .opens info relay hphase hopen hpassword
    . rw [heq]
      exact .refused e hphase
  | opened info => exact .registers info hphase
  | registered info => exact .greets info hphase
  | listDue next => exact .takes next hphase
  | listTaken list next => exact .sends list next hphase
  | leaving info queue =>
    dsimp only
    split
    . rcases h.handle.closeSession_cases info.id with ⟨s, relay, hclose, heq⟩ | ⟨heq, hvain⟩
      . have hpassword := h.handle.password_closeSession info.id
        rw [heq] at hpassword ⊢
        exact .closes info queue s relay hphase hclose hpassword
      . rw [heq]
        exact .closesInVain info queue hphase hvain
    . exact .rest
  | serving info => exact .rest
  | ended => exact .rest

theorem move_receive (text : String) : Move c h none (c.receive h text) := by
  unfold Connection.receive
  split
  . next info pressed hphase _ =>
    unfold Roster.setState
    dsimp only
    split
    . exact .talks info (.ofPressed pressed) hphase
    . next hthere =>
      have hnone : h.roster.get? info.id = none := by
        unfold Roster.isRegistered at hthere
        simpa using hthere
      rw [Roster.modify_of_get?_eq_none _ hnone]
      exact .rest
  . next info sdp hphase _ =>
    unfold Hub.dispatch
    dsimp only
    split
    . exact .rest
    . next ice _ =>
      dsimp only
      rcases h.handle.setIce_cases info.id ice with heq | heq
      . rw [heq]
        exact .offers info ice hphase
      . rw [heq]
        exact .rest
  . exact .rest

theorem move_leave : Move c h none (c.leave h) := by
  unfold Connection.leave
  split
  . next info hphase => exact .leaves info _ hphase rfl
  . exact .rest

theorem move_write : Move c h none (c.write h) := by
  unfold Connection.write
  split
  . next info queue hphase =>
    split
    . next m rest htake => exact .drains info queue rest m hphase htake
    . exact .rest
  . split
    . next m roster hwrite =>
      rw [Option.bind_eq_some_iff] at hwrite
      rcases hwrite with ⟨info, hwriting, htake⟩
      rcases Roster.take?_eq_some htake with ⟨client, rest, hget, hmessages, rfl⟩
      exact .writes info client m rest hwriting hget hmessages
    . exact .rest

theorem move_failWrite : Move c h none (c.failWrite h) := by
  unfold Connection.failWrite
  split
  . next info queue hphase => exact .loses info queue hphase
  . split
    . next info hwriting => exact .breaks info hwriting
    . exact .rest

theorem move_act (a : Action) : Move c h (c.listing? h a) (c.act h a) := by
  cases a with
  | proceed => exact move_proceed c h
  | text text => exact move_receive c h text
  | leave => exact move_leave c h
  | write => exact move_write c h
  | writeFails => exact move_failWrite c h

end Steps

namespace Lobby

inductive Turn where
  | lobby (e : Event)
  | relay (e : Relay.Event)
  | stop

def turn (l : Lobby) : Turn → Lobby
  | .lobby e => l.step e
  | .relay e => { l with hub.handle.relay := l.hub.handle.relay.step e }
  | .stop => { l with hub.handle := l.hub.handle.stop }

def listing? (l : Lobby) : Turn → Option (Nat × Listing)
  | .lobby (.act i a) => l.connections[i]?.bind fun c => (c.listing? l.hub a).map (i, ·)
  | .lobby (.arrive _) | .relay _ | .stop => none

def start (relay : Relay) (publicAddress : Option String) (fingerprint : String) (relayPort : UInt16) : Lobby :=
  { hub := { handle := { relay }, publicAddress, fingerprint, relayPort } }

inductive Turned (l : Lobby) : Turn → Option (Nat × Listing) → Lobby → Prop where
  | arrives (host : Option String) :
      Turned l (.lobby (.arrive host)) none { l with connections := l.connections ++ [{ host }] }
  | misses (i : Nat) (a : Action) : Turned l (.lobby (.act i a)) none l
  | moves (i : Nat) (a : Action) (c : Connection) (listing : Option Listing) (next : Connection × Hub)
      (hc : l.connections[i]? = some c)
      (hmove : Move c l.hub listing next) :
      Turned l (.lobby (.act i a)) (listing.map (i, ·)) { hub := next.2, connections := l.connections.set i next.1 }
  | hears (e : Relay.Event) : Turned l (.relay e) none { l with hub.handle.relay := l.hub.handle.relay.step e }
  | stops : Turned l .stop none { l with hub.handle := l.hub.handle.stop }

theorem turned (l : Lobby) (t : Turn) : Turned l t (l.listing? t) (l.turn t) := by
  cases t with
  | lobby e =>
    cases e with
    | arrive host => exact .arrives host
    | act i a =>
      unfold turn step listing?
      dsimp only
      cases hc : l.connections[i]? with
      | none => exact .misses i a
      | some c => exact .moves i a c _ _ hc (move_act c l.hub a)
  | relay e => exact .hears e
  | stop => exact .stops

section Sample

def sampleStart : Lobby :=
  start (Relay.start ⟨["Ada", "Ben"]⟩ "" {} 4) none "" 0

def sampleSteps (i n : Nat) : List Turn :=
  List.replicate n (.lobby (.act i .proceed))

end Sample

end Lobby

end Intercom.Signaling
