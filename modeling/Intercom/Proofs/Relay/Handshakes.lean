import Mathlib
import Intercom.Proofs.Handshake.Line
import Intercom.Proofs.Relay.Run
import Intercom.Proofs.Session.Security

/-!
This module contains the part of the relay that takes part in handshakes, what each event can do to it, and that every
line says whether a handshake runs on it.
-/

namespace Intercom

def Command.session : Command → SessionId
  | .flight id _ => id
  | .install id _ => id

def Command.ofProgress (id : SessionId) (p : Handshake.Progress) : List Command :=
  (p.flight.map (Command.flight id ·)).toList ++ (p.outcome.map (Command.install id ·)).toList

theorem Command.session_of_mem_ofProgress {id : SessionId} {p : Handshake.Progress} {x : Command}
    (h : x ∈ ofProgress id p) : x.session = id := by
  unfold ofProgress at h
  rw [List.mem_append, Option.mem_toList, Option.mem_toList, Option.map_eq_some_iff, Option.map_eq_some_iff] at h
  rcases h with ⟨_, -, rfl⟩ | ⟨_, -, rfl⟩
  . rfl
  . rfl

theorem Command.install_mem_ofProgress {id j : SessionId} {p : Handshake.Progress} {o : Handshake.Outcome}
    : install j o ∈ ofProgress id p ↔ j = id ∧ p.outcome = some o := by
  unfold ofProgress
  rw [List.mem_append, Option.mem_toList, Option.mem_toList, Option.map_eq_some_iff, Option.map_eq_some_iff]
  constructor
  . intro h
    rcases h with ⟨_, -, heq⟩ | ⟨o', ho', heq⟩
    . simp at heq
    . rw [install.injEq] at heq
      rw [← heq.1, ← heq.2]
      exact ⟨rfl, ho'⟩
  . intro h
    rw [h.1]
    exact .inr ⟨o, h.2, rfl⟩

namespace Relay

open Function (update)
open Handshake (Line)

structure Core where
  sessions : SessionId → Option Security
  nextId : Option SessionId
  detached : List (SessionId × Line)
  pending : List Command

def core (r : Relay) : Core :=
  ⟨r.table.security?, r.table.nextId, r.detached, r.pending⟩

namespace Core

def line? (c : Core) (id : SessionId) : Option Line :=
  match c.sessions id with
  | some s => some s.line
  | none => c.detached.lookup id

def setLine (c : Core) (id : SessionId) (line : Line) : Core :=
  if line.attached then
    { c with sessions := update c.sessions id ((c.sessions id).map fun s => { s with line }) }
  else
    let others := c.detached.filter (·.1 ≠ id)
    { c with detached := if line.running.isEmpty then others else (id, line) :: others }

def close (c : Core) (id : SessionId) (line : Line) : Core :=
  { c with
    sessions := update c.sessions id none
    detached := if line.running.isEmpty then c.detached else (id, line.detach) :: c.detached }

def execute (c : Core) : Command → Core
  | .install id (.ok masters) =>
    { c with
      sessions := update c.sessions id
        ((c.sessions id).map fun s => { s with keys := some (.ofMasters masters) }) }
  | _ => c

end Core

inductive Transition (r : Relay) : Event → Core → Prop where
  | still (e : Event) : Transition r e r.core
  | opened (id : SessionId) (hid : r.core.nextId = some id)
      : Transition r .openSession
          { r.core with
            sessions := update r.core.sessions id (some { line := { settings := r.settings } })
            nextId := id.next? }
  | closed (id : SessionId) (s : Security) (hs : r.core.sessions id = some s)
      : Transition r (.closeSession id) (r.core.close id s.line)
  | started (octets : Bytes) (sender : Endpoint) (id : SessionId) (s : Security)
      (hs : r.core.sessions id = some s) (hstart : s.line.start.1 = true)
      (hreceive : (r.receive octets sender).1 = some id)
      : Transition r (.datagram octets sender)
          { r.core with sessions := update r.core.sessions id (some { s with line := s.line.start.2 }) }
  | queued (octets : Bytes) (sender : Endpoint) (id : SessionId) (s : Security)
      (hs : r.core.sessions id = some s)
      : Transition r (.datagram octets sender)
          { r.core with
            sessions := update r.core.sessions id (some { s with line := (s.line.enqueue octets).2 }) }
  | advanced (id : SessionId) (number : Nat) (e : Handshake.Step) (line : Line) (p : Handshake.Progress)
      (hline : r.core.line? id = some line) (hadvance : line.advance number e = some p)
      : Transition r (.handshake id number e)
          { r.core.setLine id p.line with pending := r.core.pending ++ Command.ofProgress id p }
  | delivered (place : Nat) (c : Command) (hc : r.core.pending[place]? = some c)
      : Transition r (.deliver place) ({ r.core with pending := r.core.pending.eraseIdx place }.execute c)
  | commanded (c : Command) : Transition r (.command c) (r.core.execute c)

section Operations

variable {r : Relay} {octets : Bytes} {sender : Endpoint} {id : SessionId}

theorem core_line? (r : Relay) (id : SessionId) : r.core.line? id = r.line? id := by
  unfold Core.line? core SessionTable.security? line?
  dsimp only
  cases r.table.get? id with
  | none => rfl
  | some s => rfl

theorem core_setLine (r : Relay) (id : SessionId) (line : Line) : (r.setLine id line).core = r.core.setLine id line := by
  unfold setLine Core.setLine
  split
  . unfold core
    congr 1
    exact SessionTable.security?_modify r.table id (fun s => { s with line }) (fun s => { s with line })
      (fun _ => rfl) fun _ => rfl
  . rfl

theorem core_execute (r : Relay) (c : Command) : (r.execute c).core = r.core.execute c := by
  cases c with
  | flight id octets =>
    simp only [execute]
    split
    . rfl
    . rfl
  | install id outcome =>
    cases outcome with
    | ok masters =>
      unfold core
      congr 1
      exact SessionTable.security?_modify r.table id (fun s => { s with srtp := ⟨some (.ofMasters masters)⟩ })
        (fun s => { s with keys := some (.ofMasters masters) }) (fun _ => rfl) fun _ => rfl
    | error e => rfl

theorem advance_eq_some {number : Nat} {e : Handshake.Step} {answer : Handshake.Answer} {r' : Relay}
    (h : r.advance id number e = some (answer, r'))
    : ∃ line p, r.core.line? id = some line ∧ line.advance number e = some p ∧
        r' = { r.setLine id p.line with pending := r.pending ++ Command.ofProgress id p } := by
  unfold advance at h
  rw [Option.bind_eq_bind, Option.bind_eq_some_iff] at h
  rcases h with ⟨line, hline, h⟩
  rw [Option.bind_eq_bind, Option.bind_eq_some_iff] at h
  rcases h with ⟨p, hadvance, h⟩
  simp only [Option.pure_def, Option.some.injEq, Prod.mk.injEq] at h
  rw [← core_line?] at hline
  refine ⟨line, p, hline, hadvance, ?_⟩
  rw [← h.2, List.append_assoc]
  rfl

theorem core_startHandshake (r : Relay) (id : SessionId)
    : r.startHandshake id = (none, r) ∨
      ∃ s, r.core.sessions id = some s ∧ s.line.start.1 = true ∧ (r.startHandshake id).1 = some id ∧
        (r.startHandshake id).2.core =
          { r.core with sessions := update r.core.sessions id (some { s with line := s.line.start.2 }) } := by
  rcases startHandshake_cases r id with ⟨session, line, hget, hstart, heq⟩ | heq
  . right
    have hsession : r.core.sessions id = some session.security := SessionTable.security?_of_get? hget
    refine ⟨session.security, hsession, ?_, ?_, ?_⟩
    . exact congrArg Prod.fst hstart
    . rw [heq]
    . rw [heq]
      have hline : session.security.line.start.2 = line := congrArg Prod.snd hstart
      have hmodify := SessionTable.security?_modify r.table id (fun s => { s with line }) (fun s => { s with line })
        (fun _ => rfl) fun _ => rfl
      unfold core at hsession ⊢
      dsimp only at hsession ⊢
      rw [hmodify, hsession, hline]
      rfl
  . exact .inl heq

theorem core_acceptBinding (r : Relay) (id : SessionId) (request : Stun.Message) (sender : Endpoint)
    : (r.acceptBinding id request sender).2.core = r.core ∨
      ∃ s, r.core.sessions id = some s ∧ s.line.start.1 = true ∧
        (r.acceptBinding id request sender).1 = some id ∧
        (r.acceptBinding id request sender).2.core =
          { r.core with sessions := update r.core.sessions id (some { s with line := s.line.start.2 }) } := by
  unfold acceptBinding
  dsimp only
  generalize hbound : ({ r with
    table := r.table.bind id sender
    outbox := (r.outbox.offer
      ⟨sender, (request.bindingReply sender).encode (some (Utf8.encode r.password))⟩).2
    metrics := { r.metrics with bindings := r.metrics.bindings + 1 } } : Relay) = bound
  have hcore : bound.core = r.core := by
    rw [← hbound]
    unfold core
    dsimp only
    rw [SessionTable.security?_bind, SessionTable.nextId_bind]
  rw [← hcore]
  rcases core_startHandshake bound id with heq | hstarted
  . rw [heq]
    exact .inl rfl
  . exact .inr hstarted

theorem transition_datagram (octets : Bytes) (sender : Endpoint)
    : Transition r (.datagram octets sender) (r.receive octets sender).2.core := by
  rcases receive_cases r octets sender with haudio | ⟨-, metrics, haccepted | ⟨-, hrecord | hdropped⟩⟩
  . rcases haudio with ⟨source, p, -, -, heq⟩
    rw [heq, passOn_eq]
    exact .still _
  . rcases haccepted with ⟨request, id, -, heq⟩
    rcases core_acceptBinding { r with metrics } id request.message sender with hsame | hstarted
    . rw [heq, hsame]
      exact .still _
    . rcases hstarted with ⟨s, hs, hstart, hreport, hcore⟩
      rw [← heq] at hreport
      rw [heq, hcore]
      exact .started octets sender id s hs hstart hreport
  . rcases hrecord with ⟨-, heq⟩
    rw [heq]
    rcases receiveRecord_cases { r with metrics } octets sender with ⟨session, hsender, hqueue⟩ | ⟨-, hqueue⟩
    . have hsession : r.core.sessions session.id = some session.security := by
        unfold sender? at hsender
        rw [Option.bind_eq_some_iff] at hsender
        rcases hsender with ⟨id, -, hget⟩
        rw [SessionTable.id_of_get? hget]
        exact SessionTable.security?_of_get? hget
      have hmodify := SessionTable.security?_modify r.table session.id
        (fun s => { s with line := (s.line.enqueue octets).2 }) (fun s => { s with line := (s.line.enqueue octets).2 })
        (fun _ => rfl) fun _ => rfl
      have hcore : ({ r with metrics }.receiveRecord octets sender).core =
          { r.core with
            sessions := update r.core.sessions session.id
              (some { session.security with line := (session.security.line.enqueue octets).2 }) } := by
        rw [hqueue]
        unfold core at hsession ⊢
        dsimp only at hsession ⊢
        rw [hmodify, hsession]
        rfl
      rw [hcore]
      exact .queued octets sender session.id session.security hsession
    . rw [hqueue]
      exact .still _
  . rw [hdropped]
    exact .still _

theorem transition_openSession (h : r.table.WellFormed) : Transition r .openSession r.openSession.2.core := by
  unfold Relay.openSession
  split
  . exact .still _
  . next info table hopen =>
    rcases h.security?_openSession hopen with ⟨hid, hnext, hsessions⟩
    have hcore : ({ r with table, metrics := { r.metrics with active := r.metrics.active + 1 } } : Relay).core =
        { r.core with
          sessions := update r.core.sessions info.id (some { line := { settings := r.settings } })
          nextId := info.id.next? } := by
      unfold core
      dsimp only
      rw [hnext, hsessions]
    rw [hcore]
    exact .opened info.id hid

theorem transition_closeSession (id : SessionId) : Transition r (.closeSession id) (r.closeSession id).2.core := by
  unfold Relay.closeSession
  split
  . exact .still _
  . next session table hclose =>
    rcases SessionTable.close?_eq_some hclose with ⟨hget, htable⟩
    have hnext : table.nextId = r.table.nextId := by
      rw [htable]
    have hsession : r.core.sessions id = some session.security := SessionTable.security?_of_get? hget
    have hclosed := Transition.closed id session.security hsession
    unfold Core.close at hclosed
    unfold core at hclosed ⊢
    dsimp only at hclosed ⊢
    rw [SessionTable.security?_close? hclose, hnext]
    exact hclosed

theorem transition_setIce (id : SessionId) (ice : IceParameters)
    : Transition r (.setIce id ice) (r.setIce id ice).2.core := by
  unfold Relay.setIce
  split
  . exact .still _
  . next table hice =>
    have hcore : ({ r with table } : Relay).core = r.core := by
      unfold core
      dsimp only
      rw [SessionTable.security?_setIce hice]
      rcases SessionTable.setIce_eq_ok hice with ⟨-, rfl⟩
      rfl
    rw [hcore]
    exact .still _

theorem transition (h : r.table.WellFormed) (e : Event) : Transition r e (r.step e).core := by
  cases e with
  | datagram octets sender => exact transition_datagram octets sender
  | openSession => exact transition_openSession h
  | closeSession id => exact transition_closeSession id
  | setIce id ice => exact transition_setIce id ice
  | command c =>
    unfold step
    rw [core_execute]
    exact .commanded c
  | deliver place =>
    unfold step
    dsimp only
    split
    . next c hc =>
      rw [core_execute]
      exact .delivered place c hc
    . exact .still _
  | handshake id number e =>
    unfold step
    dsimp only
    split
    . next answer r' hadvance =>
      rcases advance_eq_some hadvance with ⟨line, p, hline, hp, rfl⟩
      have hadvanced := Transition.advanced id number e line p hline hp
      rw [← core_setLine] at hadvanced
      exact hadvanced
    . exact .still _
  | send count => exact .still _
  | closeOutbox => exact .still _

end Operations

section Lines

variable {r : Relay} {id j : SessionId}

/-- On every line a handshake runs if and only if the line says so, also on lines of closed sessions. -/
structure Core.Lined (c : Core) : Prop where
  sessions : ∀ id s, c.sessions id = some s → s.line.Balanced 0
  detached : ∀ entry ∈ c.detached, entry.2.Balanced 0

namespace Core.Lined

variable {c : Core} {line : Line} {s : Security}

theorem line? (h : c.Lined) (hline : c.line? id = some line) : line.Balanced 0 := by
  unfold Core.line? at hline
  split at hline
  . next s hs =>
    rw [Option.some.injEq] at hline
    rw [← hline]
    exact h.sessions id s hs
  . rw [List.lookup_eq_some_iff] at hline
    rcases hline with ⟨front, rest, hdetached, -⟩
    apply h.detached (id, line)
    rw [hdetached]
    simp

theorem update (h : c.Lined) (id : SessionId) {o : Option Security} (ho : ∀ s, o = some s → s.line.Balanced 0)
    : ∀ j s, Function.update c.sessions id o j = some s → s.line.Balanced 0 := by
  intro j s hs
  rw [Function.update_apply] at hs
  split at hs
  . exact ho s hs
  . exact h.sessions j s hs

theorem opened (h : c.Lined) (hs : s.line.Balanced 0) (id : SessionId) (nextId : Option SessionId)
    : Core.Lined { c with sessions := Function.update c.sessions id (some s), nextId } := by
  refine ⟨h.update id ?_, h.detached⟩
  intro u hu
  rw [Option.some.injEq] at hu
  rw [← hu]
  exact hs

theorem setLine (h : c.Lined) (hline : line.Balanced 0) (id : SessionId) : (c.setLine id line).Lined := by
  unfold Core.setLine
  split
  . refine ⟨h.update id ?_, h.detached⟩
    intro u hu
    rw [Option.map_eq_some_iff] at hu
    rcases hu with ⟨s, -, rfl⟩
    exact hline
  . refine ⟨h.sessions, ?_⟩
    have hothers : ∀ entry ∈ c.detached.filter (·.1 ≠ id), entry.2.Balanced 0 :=
      fun entry hentry => h.detached entry (List.mem_of_mem_filter hentry)
    dsimp only
    split
    . exact hothers
    . rw [List.forall_mem_cons]
      exact ⟨hline, hothers⟩

theorem close (h : c.Lined) (hs : c.sessions id = some s) : (c.close id s.line).Lined := by
  unfold Core.close
  refine ⟨h.update id (by simp), ?_⟩
  dsimp only
  split
  . exact h.detached
  . rw [List.forall_mem_cons]
    exact ⟨h.sessions id s hs, h.detached⟩

theorem execute (h : c.Lined) (x : Command) : (c.execute x).Lined := by
  unfold Core.execute
  split
  . refine ⟨h.update _ ?_, h.detached⟩
    intro u hu
    rw [Option.map_eq_some_iff] at hu
    rcases hu with ⟨s, hs, rfl⟩
    exact h.sessions _ s hs
  . exact h

theorem step {e : Event} (h : r.core.Lined) (ht : Transition r e c) : c.Lined := by
  cases ht with
  | still => exact h
  | opened id hid => exact h.opened (s := { line := { settings := r.settings } }) rfl id _
  | closed id s hs => exact h.close hs
  | started octets sender id s hs => exact h.opened (s := ⟨s.line.start.2, s.keys⟩) (h.sessions id s hs).start id _
  | queued octets sender id s hs =>
    exact h.opened (s := ⟨(s.line.enqueue octets).2, s.keys⟩) ((h.sessions id s hs).enqueue octets) id _
  | advanced id number e line p hline hadvance =>
    have hset := h.setLine ((h.line? hline).advance hadvance) id
    exact ⟨hset.sessions, hset.detached⟩
  | delivered place x =>
    exact execute (c := { r.core with pending := r.core.pending.eraseIdx place }) ⟨h.sessions, h.detached⟩ x
  | commanded x => exact h.execute x

end Core.Lined

theorem run_lined (hwf : r.table.WellFormed) (h : r.core.Lined) (events : List Event) : (r.run events).core.Lined := by
  induction events generalizing r with
  | nil => exact h
  | cons e events ih =>
    apply ih
    . exact (regular hwf e).wellFormed
    . exact h.step (transition hwf e)

theorem Reachable.lined (h : Reachable r) : r.core.Lined := by
  rcases h with ⟨names, password, settings, capacity, events, rfl⟩
  apply run_lined
  . apply start_wellFormed
  . constructor
    . intro id s hs
      simp [start, core, SessionTable.security?, SessionTable.get?] at hs
    . simp [start, core]

end Lines

end Relay

end Intercom
