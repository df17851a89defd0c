import Intercom.Signaling.Hub

/-!
This module contains the life of connections. A connection opens a session, registers with it and greets
its browser; at its end it leaves the roster, closes the session and tells the others. Each step of a
connection is one access to what all of them share, so the steps of several connections may follow each
other in any order.
-/

namespace Intercom.Signaling

inductive Phase where
  | arriving
  | opened (info : SessionInfo)
  | registered (info : SessionInfo)
  /-- The list of clients is due to everyone; then the connection serves its session or ends. -/
  | listDue (next : Option SessionInfo)
  | listTaken (list : List ClientStatus) (next : Option SessionInfo)
  | serving (info : SessionInfo)
  /-- Not registered any more; what was queued is still written to the browser. -/
  | leaving (info : SessionInfo) (queue : Queue)
  | ended
deriving DecidableEq

def Phase.writing? : Phase → Option SessionInfo
  | listDue next => next
  | listTaken _ next => next
  | serving info => some info
  | _ => none

structure Connection where
  host : Option String
  phase : Phase := .arriving
  sent : List ServerMessage := []
deriving DecidableEq

inductive Action where
  | proceed
  | text (text : String)
  | leave
  /-- The oldest message of its queue is written to the browser. -/
  | write
  /-- Writing fails; nothing reads its queue any more. -/
  | writeFails

namespace Connection

def proceed (c : Connection) (h : Hub) : Connection × Hub :=
  match c.phase with
  | .arriving =>
    match h.handle.openSession with
    | (.ok info, handle) => ({ c with phase := .opened info }, { h with handle })
    | (.error e, handle) =>
      ({ c with phase := .ended, sent := c.sent ++ [.disconnected e.message] }, { h with handle })
  | .opened info =>
    ({ c with phase := .registered info }, { h with roster := h.roster.register info })
  | .registered info =>
    ({ c with phase := .listDue info },
      { h with roster := (h.roster.send info.id (h.welcome info c.host)).2 })
  | .listDue next => ({ c with phase := .listTaken h.roster.snapshot next }, h)
  | .listTaken list next =>
    ({ c with phase := next.elim .ended .serving }, { h with roster := (h.roster.sendAll (.clients list)).2 })
  | .leaving info queue =>
    if queue.messages.isEmpty then
      ({ c with phase := .listDue none }, { h with handle := (h.handle.closeSession info.id).2 })
    else (c, h)
  | .serving _ | .ended => (c, h)

/-- A text is read only while the connection serves its session. A changed talk state makes the list
due. -/
def receive (c : Connection) (h : Hub) (text : String) : Connection × Hub :=
  match c.phase, ClientMessage.ofText? text with
  | .serving info, some (.talk pressed) =>
    let (there, roster) := h.roster.setState info.id (.ofPressed pressed)
    (if there then { c with phase := .listDue info } else c, { h with roster })
  | .serving info, some (.offer sdp) => (c, (h.dispatch info.id (.offer sdp)).2)
  | _, _ => (c, h)

def leave (c : Connection) (h : Hub) : Connection × Hub :=
  match c.phase with
  | .serving info =>
    let (queue, roster) := h.roster.remove info.id
    ({ c with phase := .leaving info (queue.getD .close) }, { h with roster })
  | _ => (c, h)

def write (c : Connection) (h : Hub) : Connection × Hub :=
  match c.phase with
  | .leaving info queue =>
    match queue.take? with
    | some (m, queue) => ({ c with phase := .leaving info queue, sent := c.sent ++ [m] }, h)
    | none => (c, h)
  | phase =>
    match phase.writing?.bind fun info => h.roster.take? info.id with
    | some (m, roster) => ({ c with sent := c.sent ++ [m] }, { h with roster })
    | none => (c, h)

def failWrite (c : Connection) (h : Hub) : Connection × Hub :=
  match c.phase with
  | .leaving info _ => ({ c with phase := .leaving info .close }, h)
  | phase =>
    match phase.writing? with
    | some info => (c, { h with roster := h.roster.closeQueue info.id })
    | none => (c, h)

def act (c : Connection) (h : Hub) : Action → Connection × Hub
  | .proceed => c.proceed h
  | .text text => c.receive h text
  | .leave => c.leave h
  | .write => c.write h
  | .writeFails => c.failWrite h

end Connection

/-- All connections, in the order in which they came, and what they share. -/
structure Lobby where
  hub : Hub
  connections : List Connection := []

inductive Lobby.Event where
  | arrive (host : Option String)
  | act (connection : Nat) (action : Action)

namespace Lobby

def step (l : Lobby) : Event → Lobby
  | .arrive host => { l with connections := l.connections ++ [{ host }] }
  | .act i action =>
    match l.connections[i]? with
    | none => l
    | some c =>
      let (c, hub) := c.act l.hub action
      { hub, connections := l.connections.set i c }

def run (l : Lobby) (events : List Event) : Lobby :=
  events.foldl step l

end Lobby

end Intercom.Signaling
