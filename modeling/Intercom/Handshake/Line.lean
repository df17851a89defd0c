import Intercom.Srtp.KeyingMaterial

/-!
This module contains handshakes. A line belongs to one session: it takes the DTLS datagrams of that
session into a bounded queue and lets at most one handshake run on them, step by step, beside everything
else. What the secure transport itself does inside a step is left open: a step only says what it asks of
the line.
-/

namespace Intercom.Handshake

structure Settings where
  /-- How long a read waits, in milliseconds. -/
  readTimeout : Nat := 3000
  mtu : Nat := 1422
  /-- Reads without a datagram after which a handshake gives up. -/
  maxTimeouts : Nat := 5
  queueCapacity : Nat := 64
  /-- How long the certificate is valid, in seconds. -/
  validity : Nat := 30 * 86400
deriving DecidableEq

inductive Error where
  | failed (message : String)
  | io (message : String)
  | materialLength (length : Nat)
deriving DecidableEq

def Error.message : Error → String
  | failed message => "DTLS-Handshake fehlgeschlagen: " ++ message
  | io message => "IO-Fehler: " ++ message
  | materialLength length =>
    "Ungueltige Schluessel-Laenge: erwartet " ++ toString Srtp.materialLength ++ ", erhalten " ++
      toString length

abbrev Outcome := Except Error Srtp.MasterPair

def keysOf (side : Srtp.Side) (material : Bytes) : Outcome :=
  match Octets.ofBytes? Srtp.materialLength material with
  | none => .error (.materialLength material.length)
  | some m => .ok (.ofMaterial m side)

inductive State where
  | idle
  | handshaking
  | established
  | failed
deriving DecidableEq

structure Attempt where
  /-- How many handshakes of its line started before it. -/
  number : Nat
  created : Bool := false
deriving DecidableEq

structure Line where
  settings : Settings
  state : State := .idle
  queue : List Bytes := []
  attached : Bool := true
  started : Nat := 0
  running : List Attempt := []
deriving DecidableEq

inductive Step where
  /-- Setting up the transport fails; only possible as the first step. -/
  | createFails (message : String)
  | send (datagram : Bytes)
  /-- Reads a datagram into `room` octets. Without a datagram the handshake gives up or goes on. -/
  | read (room : Nat) (givesUp : Bool)
  | askLimits
  | fails (message : String)
  | connects (exported : Except String Bytes)

inductive NoDatagram where
  | timeout
  | closed
deriving DecidableEq

def NoDatagram.message : NoDatagram → String
  | timeout => "Lese-Timeout im DTLS-Transport"
  | closed => "DTLS-Eingang geschlossen"

inductive Answer where
  | ended
  | written (length : Nat)
  | datagram (octets : Bytes)
  | noDatagram (reason : NoDatagram) (ended : Bool)
  | limits (mtu readTimeout : Nat)
  | exported (label : String) (length : Nat)

structure Progress where
  line : Line
  answer : Answer
  flight : Option Bytes := none
  outcome : Option Outcome := none

namespace Line

def enqueue (l : Line) (datagram : Bytes) : Bool × Line :=
  if l.queue.length < l.settings.queueCapacity then (true, { l with queue := l.queue ++ [datagram] })
  else (false, l)

/-- Starts a handshake if none is running and none has succeeded. What is still queued belongs to an
earlier one and is dropped. -/
def start (l : Line) : Bool × Line :=
  if l.state = .idle ∨ l.state = .failed then
    (true, { l with
      state := .handshaking
      queue := []
      started := l.started + 1
      running := l.running ++ [⟨l.started, false⟩] })
  else (false, l)

/-- The session goes away. A running handshake keeps what is queued. -/
def detach (l : Line) : Line :=
  { l with attached := false }

def finish (l : Line) (number : Nat) (outcome : Outcome) : Line :=
  { l with
    state := match outcome with
      | .ok _ => .established
      | .error _ => .failed
    running := l.running.filter (·.number ≠ number) }

def markCreated (l : Line) (number : Nat) : Line :=
  { l with running := l.running.map fun a => if a.number = number then { a with created := true } else a }

def ends (l : Line) (number : Nat) (answer : Answer) (outcome : Outcome) : Progress :=
  ⟨l.finish number outcome, answer, none, some outcome⟩

/-- A step of the handshake with this number, `none` if it cannot take that step. -/
def advance (l : Line) (number : Nat) (step : Step) : Option Progress :=
  match l.running.find? (·.number = number) with
  | none => none
  | some attempt =>
    let l := l.markCreated number
    match step with
    | .createFails message =>
      if attempt.created then none else some (l.ends number .ended (.error (.failed message)))
    | .send datagram => some ⟨l, .written datagram.length, some datagram, none⟩
    | .read room givesUp =>
      match l.queue with
      | datagram :: queue => some ⟨{ l with queue }, .datagram (datagram.take room), none, none⟩
      | [] =>
        let reason := if l.attached then NoDatagram.timeout else NoDatagram.closed
        if givesUp then some (l.ends number (.noDatagram reason true) (.error (.io reason.message)))
        else some ⟨l, .noDatagram reason false, none, none⟩
    | .askLimits => some ⟨l, .limits l.settings.mtu l.settings.readTimeout, none, none⟩
    | .fails message => some (l.ends number .ended (.error (.failed message)))
    | .connects exported =>
      let outcome := match exported with
        | .ok material => keysOf .client material
        | .error message => .error (.failed message)
      some (l.ends number (.exported Srtp.exporterLabel Srtp.materialLength) outcome)

end Line

end Intercom.Handshake
