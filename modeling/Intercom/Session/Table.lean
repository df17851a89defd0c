import Intercom.Handshake.Line
import Intercom.Net.Endpoint
import Intercom.Sdp
import Intercom.Session.Id
import Intercom.Session.NamePool
import Intercom.Srtp.Context

/-!
This module contains the table of open sessions: each with its own id and name, and an index from bound
endpoints to sessions for the receiving side.
-/

namespace Intercom

structure Session where
  id : SessionId
  name : String
  ice : Option IceParameters := none
  /-- The endpoint that authenticated itself last. -/
  remote : Option Endpoint := none
  line : Handshake.Line
  srtp : Srtp.Context := {}
deriving DecidableEq

def Session.info (s : Session) : SessionInfo :=
  ⟨s.id, s.name⟩

inductive SessionError where
  | noneFree
  | notFound (id : SessionId)
deriving DecidableEq

def SessionError.message : SessionError → String
  | noneFree => "Keine freie Session: alle Namen vergeben"
  | notFound id => "Session nicht gefunden: " ++ id.text

structure SessionTable where
  /-- In the order of opening, which is that of the ids. -/
  sessions : List Session := []
  endpoints : List (Endpoint × SessionId) := []
  /-- None when every id has been given out. -/
  nextId : Option SessionId := some .base
  names : NamePool

namespace SessionTable

def get? (t : SessionTable) (id : SessionId) : Option Session :=
  t.sessions.find? (·.id = id)

def modify (t : SessionTable) (id : SessionId) (f : Session → Session) : SessionTable :=
  { t with sessions := t.sessions.map fun s => if s.id = id then f s else s }

def openSession (t : SessionTable) (settings : Handshake.Settings) :
    Except SessionError (SessionInfo × SessionTable) :=
  match t.nextId, t.names.take? with
  | some id, some (name, names) =>
    let session : Session := { id, name, line := { settings } }
    .ok (session.info, { t with sessions := t.sessions ++ [session], nextId := id.next?, names })
  | _, _ => .error .noneFree

def unindex (endpoints : List (Endpoint × SessionId)) (remote : Option Endpoint) :
    List (Endpoint × SessionId) :=
  endpoints.filter fun entry => some entry.1 ≠ remote

def close? (t : SessionTable) (id : SessionId) : Option (Session × SessionTable) :=
  (t.get? id).map fun session =>
    (session, { t with
      sessions := t.sessions.filter (·.id ≠ id)
      endpoints := unindex t.endpoints session.remote
      names := t.names.give session.name })

def setIce (t : SessionTable) (id : SessionId) (ice : IceParameters) : Except SessionError SessionTable :=
  match t.get? id with
  | none => .error (.notFound id)
  | some _ => .ok (t.modify id fun s => { s with ice := some ice })

def byEndpoint? (t : SessionTable) (endpoint : Endpoint) : Option SessionId :=
  t.endpoints.lookup endpoint

def byUfrag? (t : SessionTable) (ufrag : String) : Option SessionId :=
  (t.sessions.find? fun s => s.ice.any (·.ufrag = ufrag)).map (·.id)

/-- Binds a session to an endpoint. The endpoint that it had is given up; another session that had the
new one loses it. -/
def bind (t : SessionTable) (id : SessionId) (endpoint : Endpoint) : SessionTable :=
  match t.get? id with
  | none => t
  | some session =>
    let index := unindex t.endpoints session.remote
    let previous := index.lookup endpoint
    { t with
      endpoints := (endpoint, id) :: unindex index (some endpoint)
      sessions := t.sessions.map fun s =>
        if s.id = id then { s with remote := some endpoint }
        else if some s.id = previous then { s with remote := none }
        else s }

end SessionTable

end Intercom
