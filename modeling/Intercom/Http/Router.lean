import Intercom.Http.Exposition
import Intercom.Http.Request
import Intercom.Json.Value

/-!
This module contains the answers to plain HTTP requests: the health check and the metrics. Signaling
shares the listener, but wants a connection and no plain request.
-/

namespace Intercom.Http

structure Response where
  status : Nat
  contentType : Option String := none
  body : String := ""
deriving DecidableEq

structure Health where
  running : Bool
  uptime : Nat
  active : Int

def version : String := "0.1.0"

namespace Health

def toValue (h : Health) : Json.Value := .object [
  ("status", .string (if h.running then "healthy" else "unhealthy")),
  ("version", .string version),
  ("uptime_seconds", .nat h.uptime),
  ("sessions_aktiv", .number (.whole h.active))]

def response (h : Health) : Response :=
  ⟨if h.running then 200 else 503, "application/json", h.toValue.text⟩

end Health

/-- What is there to be got; a `HEAD` request gets it without its body. -/
def Request.getting (r : Request) (response : Response) : Response :=
  if r.method = "GET" then response
  else if r.method = "HEAD" then { response with body := "" }
  else ⟨405, none, ""⟩

def respond (metrics : Metrics) (health : Health) (r : Request) : Response :=
  if r.path = "/health" then r.getting health.response
  else if r.path = "/metrics" then r.getting ⟨200, some "text/plain; version=0.0.4", metrics.text⟩
  else if r.path = "/api" then ⟨if r.method = "GET" then 400 else 405, none, ""⟩
  else ⟨404, none, ""⟩

end Intercom.Http
