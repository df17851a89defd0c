import Intercom.Signaling.Message

/-!
This module contains the roster: who is registered, who holds the talk button, and the bounded queue of
messages to each. A queue that is full or has lost its reader drops what is sent and does not keep the
others from getting it.
-/

namespace Intercom.Signaling

def queueCapacity : Nat := 64

structure Queue where
  messages : List ServerMessage := []
  isOpen : Bool := true
deriving DecidableEq

namespace Queue

def send (q : Queue) (m : ServerMessage) : Bool × Queue :=
  if q.isOpen ∧ q.messages.length < queueCapacity then
    (true, { q with messages := q.messages ++ [m] })
  else (false, q)

def take? (q : Queue) : Option (ServerMessage × Queue) :=
  match q.messages with
  | [] => none
  | m :: messages => some (m, { q with messages })

def close : Queue :=
  ⟨[], false⟩

end Queue

structure Client where
  id : SessionId
  name : String
  state : TalkState := .idle
  queue : Queue := {}
deriving DecidableEq

def Client.status (c : Client) : ClientStatus :=
  ⟨c.id, c.name, c.state⟩

structure Roster where
  /-- In ascending order of ids. -/
  clients : List Client := []

namespace Roster

def get? (r : Roster) (id : SessionId) : Option Client :=
  r.clients.find? (·.id = id)

def modify (r : Roster) (id : SessionId) (f : Client → Client) : Roster :=
  ⟨r.clients.map fun c => if c.id = id then f c else c⟩

/-- Puts a client in its place; one of the same id is replaced. -/
def insert (client : Client) : List Client → List Client
  | [] => [client]
  | c :: cs =>
    if c.id.value < client.id.value then c :: insert client cs
    else if c.id = client.id then client :: cs
    else client :: c :: cs

def register (r : Roster) (info : SessionInfo) : Roster :=
  ⟨insert { id := info.id, name := info.name } r.clients⟩

/-- Takes a client out; its reader still finds what was queued. -/
def remove (r : Roster) (id : SessionId) : Option Queue × Roster :=
  ((r.get? id).map (·.queue), ⟨r.clients.filter (·.id ≠ id)⟩)

def isRegistered (r : Roster) (id : SessionId) : Bool :=
  (r.get? id).isSome

def setState (r : Roster) (id : SessionId) (state : TalkState) : Bool × Roster :=
  (r.isRegistered id, r.modify id fun c => { c with state })

def send (r : Roster) (id : SessionId) (m : ServerMessage) : Bool × Roster :=
  match r.get? id with
  | none => (false, r)
  | some client => ((client.queue.send m).1, r.modify id fun c => { c with queue := (c.queue.send m).2 })

def sendAll (r : Roster) (m : ServerMessage) : Nat × Roster :=
  (r.clients.countP fun c => (c.queue.send m).1,
    ⟨r.clients.map fun c => { c with queue := (c.queue.send m).2 }⟩)

def snapshot (r : Roster) : List ClientStatus :=
  r.clients.map Client.status

def sendList (r : Roster) : Nat × Roster :=
  r.sendAll (.clients r.snapshot)

def take? (r : Roster) (id : SessionId) : Option (ServerMessage × Roster) := do
  let client ← r.get? id
  let (m, queue) ← client.queue.take?
  return (m, r.modify id fun c => { c with queue })

def closeQueue (r : Roster) (id : SessionId) : Roster :=
  r.modify id fun c => { c with queue := .close }

end Roster

end Intercom.Signaling
