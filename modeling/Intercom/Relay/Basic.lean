import Intercom.Relay.Metrics
import Intercom.Relay.Outbox
import Intercom.Session.Table

/-!
This module contains the state of the relay and what signaling asks of it.
-/

namespace Intercom

inductive Command where
  | flight (id : SessionId) (datagram : Bytes)
  | install (id : SessionId) (outcome : Handshake.Outcome)

structure Relay where
  table : SessionTable
  password : String
  settings : Handshake.Settings := {}
  metrics : Metrics := {}
  outbox : Outbox
  /-- Lines of closed sessions on which a handshake still runs. -/
  detached : List (SessionId × Handshake.Line) := []
  pending : List Command := []

namespace Relay

def openSession (r : Relay) : Except SessionError SessionInfo × Relay :=
  match r.table.openSession r.settings with
  | .error e => (.error e, r)
  | .ok (info, table) =>
    (.ok info, { r with table, metrics := { r.metrics with active := r.metrics.active + 1 } })

def closeSession (r : Relay) (id : SessionId) : Except SessionError Unit × Relay :=
  match r.table.close? id with
  | none => (.error (.notFound id), r)
  | some (session, table) =>
    let detached :=
      if session.line.running.isEmpty then r.detached else (id, session.line.detach) :: r.detached
    (.ok (), { r with table, detached, metrics := { r.metrics with active := r.metrics.active - 1 } })

def setIce (r : Relay) (id : SessionId) (ice : IceParameters) : Except SessionError Unit × Relay :=
  match r.table.setIce id ice with
  | .error e => (.error e, r)
  | .ok table => (.ok (), { r with table })

def execute (r : Relay) : Command → Relay
  | .flight id datagram =>
    match (r.table.get? id).bind (·.remote) with
    | none => r
    | some remote => { r with outbox := (r.outbox.offer ⟨remote, datagram⟩).2 }
  | .install id (.ok masters) =>
    { r with
      metrics := { r.metrics with handshakesSucceeded := r.metrics.handshakesSucceeded + 1 }
      table := r.table.modify id fun s => { s with srtp := ⟨some (.ofMasters masters)⟩ } }
  | .install _ (.error _) =>
    { r with metrics := { r.metrics with handshakesFailed := r.metrics.handshakesFailed + 1 } }

def pump (r : Relay) (n : Nat) : Relay :=
  (r.pending.take n).foldl execute { r with pending := r.pending.drop n }

/-- The line of a session, also of a closed one whose handshake runs on. -/
def line? (r : Relay) (id : SessionId) : Option Handshake.Line :=
  match r.table.get? id with
  | some session => some session.line
  | none => r.detached.lookup id

/-- Puts a line back; a detached one only as long as a handshake runs on it. -/
def setLine (r : Relay) (id : SessionId) (line : Handshake.Line) : Relay :=
  if line.attached then { r with table := r.table.modify id fun s => { s with line } }
  else
    let others := r.detached.filter (·.1 ≠ id)
    { r with detached := if line.running.isEmpty then others else (id, line) :: others }

def advance (r : Relay) (id : SessionId) (number : Nat) (step : Handshake.Step) :
    Option (Handshake.Answer × Relay) := do
  let line ← r.line? id
  let progress ← line.advance number step
  let flight := (progress.flight.map (Command.flight id ·)).toList
  let install := (progress.outcome.map (Command.install id ·)).toList
  return (progress.answer,
    { r.setLine id progress.line with pending := r.pending ++ flight ++ install })

end Relay

end Intercom
