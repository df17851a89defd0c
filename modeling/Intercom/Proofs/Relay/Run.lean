import Mathlib
import Intercom.Proofs.Relay.Receive

/-!
This module contains runs of the relay: everything that can happen to it from its start on, in any
order, and what each of these events does to the bindings and to what waits for being sent.
-/

namespace Intercom

namespace Relay

inductive Event where
  | datagram (octets : Bytes) (sender : Endpoint)
  | openSession
  | closeSession (id : SessionId)
  | setIce (id : SessionId) (ice : IceParameters)
  /-- A command that need not come from a handshake. -/
  | command (c : Command)
  | deliver (place : Nat)
  | handshake (id : SessionId) (number : Nat) (step : Handshake.Step)
  | send (count : Nat)
  | closeOutbox

def start (names : NamePool) (password : String) (settings : Handshake.Settings) (capacity : Nat) : Relay :=
  { table := { names }, password, settings, outbox := { capacity } }

def step (r : Relay) : Event → Relay
  | .datagram octets sender => (r.receive octets sender).2
  | .openSession => r.openSession.2
  | .closeSession id => (r.closeSession id).2
  | .setIce id ice => (r.setIce id ice).2
  | .command c => r.execute c
  | .deliver place =>
    match r.pending[place]? with
    | some c => { r with pending := r.pending.eraseIdx place }.execute c
    | none => r
  | .handshake id number s =>
    match r.advance id number s with
    | some (_, r) => r
    | none => r
  | .send count => { r with outbox := { r.outbox with waiting := r.outbox.waiting.drop count } }
  | .closeOutbox => { r with outbox := r.outbox.close }

def run (r : Relay) (events : List Event) : Relay :=
  events.foldl step r

def sent (r : Relay) (e : Event) : List Outgoing :=
  (r.step e).outbox.waiting.drop r.outbox.waiting.length

def Reachable (r : Relay) : Prop :=
  ∃ names password settings capacity events, r = (start names password settings capacity).run events

section Operations

variable {r : Relay} {octets : Bytes} {sender a : Endpoint} {id j : SessionId}

def copies (r : Relay) (source : SessionId) (p : Rtp.Packet) : List Outgoing :=
  r.table.sessions.filterMap (copyFor source { p with source := source.value })

theorem passOn_eq (r : Relay) (source : SessionId) (p : Rtp.Packet)
    : r.passOn source p =
        { r with
          outbox := { r.outbox with
            waiting := r.outbox.waiting ++ (r.copies source p).take r.outbox.room }
          metrics := { r.metrics with
            forwarded := r.metrics.forwarded + min r.outbox.room (r.copies source p).length } } := by
  unfold passOn copies
  dsimp only
  rw [Outbox.offerAll_eq]

theorem startHandshake_cases (r : Relay) (id : SessionId)
    : (∃ session line,
        r.table.get? id = some session ∧ session.line.start = (true, line) ∧
        r.startHandshake id = (some id, { r with table := r.table.modify id fun s => { s with line } })) ∨
      r.startHandshake id = (none, r) := by
  unfold startHandshake
  split
  . exact .inr rfl
  . next session hget =>
    split
    . next line hstart => exact .inl ⟨session, line, hget, hstart, rfl⟩
    . exact .inr rfl

theorem acceptBinding_cases (r : Relay) (id : SessionId) (request : Stun.Message) (sender : Endpoint)
    : ∃ table metrics,
        (table = r.table.bind id sender ∨
          ∃ line, table = (r.table.bind id sender).modify id fun s => { s with line }) ∧
        (r.acceptBinding id request sender).2 =
          { r with
            table
            outbox := (r.outbox.offer
              ⟨sender, (request.bindingReply sender).encode (some (Utf8.encode r.password))⟩).2
            metrics } := by
  unfold acceptBinding
  dsimp only
  generalize hbound : ({ r with
    table := r.table.bind id sender
    outbox := (r.outbox.offer
      ⟨sender, (request.bindingReply sender).encode (some (Utf8.encode r.password))⟩).2
    metrics := { r.metrics with bindings := r.metrics.bindings + 1 } } : Relay) = bound
  cases startHandshake_cases bound id with
  | inl hstarted =>
    rcases hstarted with ⟨session, line, -, -, heq⟩
    rw [heq, ← hbound]
    exact ⟨_, _, .inr ⟨line, rfl⟩, rfl⟩
  | inr hnone =>
    rw [hnone, ← hbound]
    exact ⟨_, _, .inl rfl, rfl⟩

theorem acceptBinding_table {s : Session} (h : r.table.WellFormed) (hopen : r.table.get? id = some s)
    (request : Stun.Message) (sender : Endpoint)
    : let table := (r.acceptBinding id request sender).2.table
      table.WellFormed ∧
      ∀ j, table.remote? j =
        if j = id then some sender else if r.table.remote? j = some sender then none else r.table.remote? j := by
  rcases acceptBinding_cases r id request sender with ⟨table, metrics, htable, haccept⟩
  rw [haccept]
  rcases htable with rfl | ⟨line, rfl⟩
  . refine ⟨h.bind, ?_⟩
    intro j
    exact h.remote?_bind hopen
  . refine ⟨h.bind.modify _ (fun _ => rfl) fun _ => rfl, ?_⟩
    intro j
    rw [← h.remote?_bind hopen]
    exact SessionTable.remote?_modify _ (fun _ => rfl) fun _ => rfl

theorem openSession_snd_of_error {e : SessionError} (h : r.openSession.1 = .error e) : r.openSession.2 = r := by
  unfold Relay.openSession at h ⊢
  split at h
  . rfl
  . simp at h

theorem receiveRecord_cases (r : Relay) (octets : Bytes) (sender : Endpoint)
    : (∃ session,
        r.sender? sender = some session ∧
        r.receiveRecord octets sender =
          { r with table := r.table.modify session.id fun s =>
              { s with line := (s.line.enqueue octets).2 } }) ∨
      (r.sender? sender = none ∧ r.receiveRecord octets sender = r) := by
  unfold receiveRecord
  split
  . next hnone => exact .inr ⟨hnone, rfl⟩
  . next session hsome => exact .inl ⟨session, hsome, rfl⟩

theorem execute_cases (r : Relay) (c : Command)
    : (∃ id octets remote,
        r.table.remote? id = some remote ∧
        r.execute c = { r with outbox := (r.outbox.offer ⟨remote, octets⟩).2 }) ∨
      (∃ id masters metrics,
        r.execute c =
          { r with
            metrics
            table := r.table.modify id fun s => { s with srtp := ⟨some (.ofMasters masters)⟩ } }) ∨
      ∃ metrics, r.execute c = { r with metrics } := by
  cases c with
  | flight id octets =>
    simp only [execute]
    split
    . exact .inr (.inr ⟨r.metrics, rfl⟩)
    . next remote hremote => exact .inl ⟨id, octets, remote, hremote, rfl⟩
  | install id outcome =>
    cases outcome with
    | ok masters => exact .inr (.inl ⟨id, masters, _, rfl⟩)
    | error e => exact .inr (.inr ⟨_, rfl⟩)

theorem setLine_cases (r : Relay) (id : SessionId) (line : Handshake.Line)
    : (∃ detached, r.setLine id line = { r with detached }) ∨
      r.setLine id line = { r with table := r.table.modify id fun s => { s with line } } := by
  unfold setLine
  split
  . exact .inr rfl
  . exact .inl ⟨_, rfl⟩

theorem advance_cases {number : Nat} {s : Handshake.Step} {answer : Handshake.Answer} {r' : Relay}
    (h : r.advance id number s = some (answer, r'))
    : ∃ table detached pending,
        (table = r.table ∨ ∃ line, table = r.table.modify id fun s => { s with line }) ∧
        r' = { r with table, detached, pending } := by
  unfold advance at h
  rw [Option.bind_eq_bind, Option.bind_eq_some_iff] at h
  rcases h with ⟨line, -, h⟩
  rw [Option.bind_eq_bind, Option.bind_eq_some_iff] at h
  rcases h with ⟨progress, -, h⟩
  simp only [Option.pure_def, Option.some.injEq, Prod.mk.injEq] at h
  rw [← h.2]
  cases setLine_cases r id progress.line with
  | inl hdetached =>
    rcases hdetached with ⟨detached, heq⟩
    rw [heq]
    exact ⟨_, _, _, .inl rfl, rfl⟩
  | inr hattached =>
    rw [hattached]
    exact ⟨_, _, _, .inr ⟨_, rfl⟩, rfl⟩

end Operations

inductive Effect (r : Relay) (e : Event) : Prop where
  | steady
      (hremote : ∀ j, (r.step e).table.remote? j = r.table.remote? j)
      (hsent : ∀ x ∈ r.sent e, ∃ j, r.table.remote? j = some x.target)
  | closed (id : SessionId)
      (hevent : e = .closeSession id)
      (hremote : ∀ j, (r.step e).table.remote? j = if j = id then none else r.table.remote? j)
      (hsent : r.sent e = [])
  | bound (octets : Bytes) (sender : Endpoint) (request : Stun.Received) (id : SessionId)
      (hevent : e = .datagram octets sender)
      (hauth : r.Authenticates octets request id)
      (hremote : ∀ j, (r.step e).table.remote? j =
        if j = id then some sender
        else if r.table.remote? j = some sender then none
        else r.table.remote? j)
      (hsent : ∀ x ∈ r.sent e, x.target = sender)

structure Regular (r : Relay) (e : Event) : Prop where
  wellFormed : (r.step e).table.WellFormed
  password : (r.step e).password = r.password
  effect : Effect r e

section Steps

variable {r : Relay} {e : Event} {octets : Bytes} {sender a : Endpoint} {id j : SessionId}

theorem sent_eq_of_append {xs : List Outgoing} (h : (r.step e).outbox.waiting = r.outbox.waiting ++ xs)
    : r.sent e = xs := by
  unfold sent
  rw [h, List.drop_left]

theorem sent_eq_nil_of_drop {n : Nat} (h : (r.step e).outbox.waiting = r.outbox.waiting.drop n)
    : r.sent e = [] := by
  unfold sent
  rw [h, List.drop_drop]
  apply List.drop_eq_nil_of_le
  omega

theorem Authenticates.get?_ne_none {request : Stun.Received} (h : r.Authenticates octets request id)
    : ∃ s, r.table.get? id = some s := by
  have hnamed := h.named
  rw [Option.bind_eq_some_iff] at hnamed
  rcases hnamed with ⟨ufrag, -, hfound⟩
  unfold SessionTable.byUfrag? at hfound
  rw [Option.map_eq_some_iff] at hfound
  rcases hfound with ⟨s, hfind, hid⟩
  have hopen := SessionTable.get?_ne_none_of_mem (List.mem_of_find?_eq_some hfind)
  rw [hid] at hopen
  exact Option.ne_none_iff_exists'.1 hopen

theorem exists_of_mem_copies {p : Rtp.Packet} {x : Outgoing} (hx : x ∈ r.copies id p)
    : ∃ s ∈ r.table.sessions, s.id ≠ id ∧ s.remote = some x.target ∧
        ∃ keys, s.srtp.keys = some keys ∧ x.datagram = keys.send.protect { p with source := id.value } := by
  unfold copies at hx
  rw [List.mem_filterMap] at hx
  rcases hx with ⟨s, hs, hcopy⟩
  unfold copyFor Srtp.Context.protect at hcopy
  split at hcopy
  . simp at hcopy
  . next hid =>
    rw [Option.bind_eq_bind, Option.bind_eq_some_iff] at hcopy
    rcases hcopy with ⟨remote, hremote, hcopy⟩
    cases hkeys : s.srtp.keys with
    | none =>
      rw [hkeys] at hcopy
      simp [Except.toOption] at hcopy
    | some keys =>
      rw [hkeys] at hcopy
      simp only [Except.toOption, Option.bind_eq_bind, Option.bind_some, Option.pure_def, Option.some.injEq] at hcopy
      rw [← hcopy]
      exact ⟨s, hs, hid, hremote, keys, hkeys, rfl⟩

theorem regular_of_steady (table : SessionTable) (xs : List Outgoing)
    (htable : (r.step e).table = table) (hpassword : (r.step e).password = r.password)
    (hwaiting : (r.step e).outbox.waiting = r.outbox.waiting ++ xs)
    (hwf : table.WellFormed) (hremote : ∀ j, table.remote? j = r.table.remote? j)
    (hsent : ∀ x ∈ xs, ∃ j, r.table.remote? j = some x.target)
    : r.Regular e := by
  constructor
  . rw [htable]
    exact hwf
  . exact hpassword
  . apply Effect.steady
    . rw [htable]
      exact hremote
    . rw [sent_eq_of_append hwaiting]
      exact hsent

theorem regular_of_same (xs : List Outgoing) (h : r.table.WellFormed)
    (htable : (r.step e).table = r.table) (hpassword : (r.step e).password = r.password)
    (hwaiting : (r.step e).outbox.waiting = r.outbox.waiting ++ xs)
    (hsent : ∀ x ∈ xs, ∃ j, r.table.remote? j = some x.target)
    : r.Regular e :=
  regular_of_steady r.table xs htable hpassword hwaiting h (fun _ => rfl) hsent

theorem regular_of_quiet (h : r.table.WellFormed) (htable : (r.step e).table = r.table)
    (hpassword : (r.step e).password = r.password) (houtbox : (r.step e).outbox = r.outbox)
    : r.Regular e := by
  apply regular_of_same [] h htable hpassword
  . rw [houtbox, List.append_nil]
  . simp

theorem regular_of_modify (id : SessionId) (f : Session → Session) (h : r.table.WellFormed)
    (hf : ∀ s, (f s).id = s.id) (hremote : ∀ s, (f s).remote = s.remote)
    (htable : (r.step e).table = r.table.modify id f) (hpassword : (r.step e).password = r.password)
    (houtbox : (r.step e).outbox = r.outbox)
    : r.Regular e := by
  apply regular_of_steady _ [] htable hpassword
  . rw [houtbox, List.append_nil]
  . exact h.modify f hf hremote
  . intro j
    apply SessionTable.remote?_modify f hf hremote
  . simp

theorem regular_of_passOn {source : SessionId} {p : Rtp.Packet} {metrics : Metrics} (h : r.table.WellFormed)
    (hstep : r.step e = { r with metrics }.passOn source p) : r.Regular e := by
  rw [passOn_eq] at hstep
  apply regular_of_same (({ r with metrics }.copies source p).take r.outbox.room) h
  . rw [hstep]
  . rw [hstep]
  . rw [hstep]
  . intro x hx
    rcases exists_of_mem_copies (List.mem_of_mem_take hx) with ⟨s, hs, -, hremote, -⟩
    refine ⟨s.id, ?_⟩
    rw [SessionTable.remote?_eq_some_iff]
    exact ⟨s, h.get?_of_mem hs, hremote⟩

theorem regular_of_acceptBinding {request : Stun.Received} {metrics : Metrics} (h : r.table.WellFormed)
    (hevent : e = .datagram octets sender) (hauth : r.Authenticates octets request id)
    (hstep : r.step e = (acceptBinding { r with metrics } id request.message sender).2) : r.Regular e := by
  rcases hauth.get?_ne_none with ⟨s, hopen⟩
  have hbound := acceptBinding_table (r := { r with metrics }) h hopen request.message sender
  rw [← hstep] at hbound
  rcases acceptBinding_cases { r with metrics } id request.message sender with ⟨table, metrics', -, haccept⟩
  rw [haccept] at hstep
  constructor
  . exact hbound.1
  . rw [hstep]
  . apply Effect.bound octets sender request id hevent hauth hbound.2
    intro x hx
    have hwaiting : (r.step e).outbox.waiting =
        r.outbox.waiting ++ [⟨sender, (request.message.bindingReply sender).encode
          (some (Utf8.encode r.password))⟩].take r.outbox.room := by
      rw [hstep, Outbox.offer_eq]
    rw [sent_eq_of_append hwaiting] at hx
    have := List.mem_of_mem_take hx
    rw [List.mem_singleton] at this
    rw [this]

theorem regular_of_receiveRecord {metrics : Metrics} (h : r.table.WellFormed)
    (hstep : r.step e = receiveRecord { r with metrics } octets sender) : r.Regular e := by
  rcases receiveRecord_cases { r with metrics } octets sender with ⟨session, -, hrecord⟩ | ⟨-, hrecord⟩
  . rw [hrecord] at hstep
    apply regular_of_modify session.id (fun s => { s with line := (s.line.enqueue octets).2 }) h
    . intro _
      rfl
    . intro _
      rfl
    . rw [hstep]
    . rw [hstep]
    . rw [hstep]
  . rw [hrecord] at hstep
    apply regular_of_quiet h
    . rw [hstep]
    . rw [hstep]
    . rw [hstep]

theorem regular_datagram (h : r.table.WellFormed) (octets : Bytes) (sender : Endpoint)
    : r.Regular (.datagram octets sender) := by
  have hstep : r.step (.datagram octets sender) = (r.receive octets sender).2 := rfl
  rcases receive_cases r octets sender with haudio | ⟨-, metrics, haccepted | ⟨-, hrecord | hdropped⟩⟩
  . rcases haudio with ⟨source, p, -, -, heq⟩
    rw [heq] at hstep
    exact regular_of_passOn h hstep
  . rcases haccepted with ⟨request, id, hauth, heq⟩
    rw [heq] at hstep
    exact regular_of_acceptBinding h rfl hauth hstep
  . rw [hrecord.2] at hstep
    exact regular_of_receiveRecord h hstep
  . rw [hdropped] at hstep
    apply regular_of_quiet h
    . rw [hstep]
    . rw [hstep]
    . rw [hstep]

theorem regular_openSession (h : r.table.WellFormed) : r.Regular .openSession := by
  have hstep : r.step .openSession = r.openSession.2 := rfl
  unfold Relay.openSession at hstep
  split at hstep
  . apply regular_of_quiet h
    . rw [hstep]
    . rw [hstep]
    . rw [hstep]
  . next info table hopen =>
    apply regular_of_steady table []
    . rw [hstep]
    . rw [hstep]
    . rw [hstep, List.append_nil]
    . exact h.openSession hopen
    . intro j
      exact h.remote?_openSession hopen
    . simp

theorem remote?_closeSession (r : Relay) (id j : SessionId)
    : (r.closeSession id).2.table.remote? j = if j = id then none else r.table.remote? j := by
  unfold Relay.closeSession
  split
  . next hclose =>
    rw [SessionTable.close?_eq_none_iff] at hclose
    split
    . next hj =>
      unfold SessionTable.remote?
      rw [hj, hclose]
      rfl
    . rfl
  . next session table hclose => exact SessionTable.remote?_close? hclose

theorem regular_closeSession (h : r.table.WellFormed) (id : SessionId)
    : r.Regular (.closeSession id) := by
  have hstep : r.step (.closeSession id) = (r.closeSession id).2 := rfl
  have hremote := remote?_closeSession r id
  rw [← hstep] at hremote
  unfold Relay.closeSession at hstep
  split at hstep
  . constructor
    . rw [hstep]
      exact h
    . rw [hstep]
    . apply Effect.closed id rfl hremote
      apply sent_eq_of_append
      rw [hstep, List.append_nil]
  . next session table hclose =>
    constructor
    . rw [hstep]
      exact h.close? hclose
    . rw [hstep]
    . apply Effect.closed id rfl hremote
      apply sent_eq_of_append
      rw [hstep, List.append_nil]

theorem regular_setIce (h : r.table.WellFormed) (id : SessionId) (ice : IceParameters)
    : r.Regular (.setIce id ice) := by
  have hstep : r.step (.setIce id ice) = (r.setIce id ice).2 := rfl
  unfold Relay.setIce at hstep
  split at hstep
  . apply regular_of_quiet h
    . rw [hstep]
    . rw [hstep]
    . rw [hstep]
  . next table hice =>
    apply regular_of_steady table []
    . rw [hstep]
    . rw [hstep]
    . rw [hstep, List.append_nil]
    . exact h.setIce hice
    . intro j
      exact SessionTable.remote?_setIce hice
    . simp

-- Where a command comes from makes no difference to what it does.
theorem regular_of_execute (r' : Relay) (c : Command) (h : r.table.WellFormed)
    (hstep : r.step e = r'.execute c) (htable : r'.table = r.table)
    (hpassword : r'.password = r.password) (houtbox : r'.outbox = r.outbox)
    : r.Regular e := by
  rcases execute_cases r' c with hflight | hinstall | hfailed
  . rcases hflight with ⟨id, octets, remote, hremote, heq⟩
    rw [heq, Outbox.offer_eq] at hstep
    apply regular_of_same ([⟨remote, octets⟩].take r.outbox.room) h
    . rw [hstep]
      exact htable
    . rw [hstep]
      exact hpassword
    . rw [hstep, houtbox]
    . intro x hx
      have := List.mem_of_mem_take hx
      rw [List.mem_singleton] at this
      rw [this, ← htable]
      exact ⟨id, hremote⟩
  . rcases hinstall with ⟨id, masters, metrics, heq⟩
    rw [heq] at hstep
    apply regular_of_modify id (fun s => { s with srtp := ⟨some (.ofMasters masters)⟩ }) h
    . intro _
      rfl
    . intro _
      rfl
    . rw [hstep, htable]
    . rw [hstep]
      exact hpassword
    . rw [hstep]
      exact houtbox
  . rcases hfailed with ⟨metrics, heq⟩
    rw [heq] at hstep
    apply regular_of_quiet h
    . rw [hstep]
      exact htable
    . rw [hstep]
      exact hpassword
    . rw [hstep]
      exact houtbox

theorem regular_deliver (h : r.table.WellFormed) (place : Nat) : r.Regular (.deliver place) := by
  cases hc : r.pending[place]? with
  | some c =>
    apply regular_of_execute { r with pending := r.pending.eraseIdx place } c h
    . simp only [step, hc]
    . rfl
    . rfl
    . rfl
  | none =>
    have hstep : r.step (.deliver place) = r := by
      simp only [step, hc]
    apply regular_of_quiet h
    . rw [hstep]
    . rw [hstep]
    . rw [hstep]

theorem regular_handshake (h : r.table.WellFormed) (id : SessionId) (number : Nat) (s : Handshake.Step)
    : r.Regular (.handshake id number s) := by
  cases hadvance : r.advance id number s with
  | none =>
    have hstep : r.step (.handshake id number s) = r := by
      simp only [step, hadvance]
    apply regular_of_quiet h
    . rw [hstep]
    . rw [hstep]
    . rw [hstep]
  | some progress =>
    rcases progress with ⟨answer, r'⟩
    have hstep : r.step (.handshake id number s) = r' := by
      simp only [step, hadvance]
    rcases advance_cases hadvance with ⟨table, detached, pending, htable | ⟨line, htable⟩, heq⟩
    . rw [heq] at hstep
      apply regular_of_quiet h
      . rw [hstep]
        exact htable
      . rw [hstep]
      . rw [hstep]
    . rw [heq] at hstep
      apply regular_of_modify id (fun s => { s with line }) h
      . intro _
        rfl
      . intro _
        rfl
      . rw [hstep]
        exact htable
      . rw [hstep]
      . rw [hstep]

theorem regular_of_drop {n : Nat} (h : r.table.WellFormed) (htable : (r.step e).table = r.table)
    (hpassword : (r.step e).password = r.password)
    (hwaiting : (r.step e).outbox.waiting = r.outbox.waiting.drop n)
    : r.Regular e := by
  constructor
  . rw [htable]
    exact h
  . exact hpassword
  . apply Effect.steady
    . rw [htable]
      exact fun _ => rfl
    . rw [sent_eq_nil_of_drop hwaiting]
      simp

theorem regular (h : r.table.WellFormed) (e : Event) : r.Regular e := by
  cases e with
  | datagram octets sender => exact regular_datagram h octets sender
  | openSession => exact regular_openSession h
  | closeSession id => exact regular_closeSession h id
  | setIce id ice => exact regular_setIce h id ice
  | command c => exact regular_of_execute r c h rfl rfl rfl rfl
  | deliver place => exact regular_deliver h place
  | handshake id number s => exact regular_handshake h id number s
  | send n => exact regular_of_drop h rfl rfl rfl
  | closeOutbox =>
    apply regular_of_drop (n := r.outbox.waiting.length) h rfl rfl
    rw [List.drop_length]
    rfl

end Steps

section Runs

variable {r : Relay} {events : List Event} {e : Event} {k : Nat}

theorem run_wellFormed (h : r.table.WellFormed) (events : List Event)
    : (r.run events).table.WellFormed ∧ (r.run events).password = r.password := by
  induction events generalizing r with
  | nil => exact ⟨h, rfl⟩
  | cons e events ih =>
    have hstep := regular h e
    rcases ih hstep.wellFormed with ⟨hwf, hpassword⟩
    refine ⟨hwf, ?_⟩
    rw [← hstep.password]
    exact hpassword

theorem start_wellFormed (names : NamePool) (password : String) (settings : Handshake.Settings)
    (capacity : Nat) : (start names password settings capacity).table.WellFormed :=
  SessionTable.WellFormed.empty names

theorem Reachable.wellFormed (h : Reachable r) : r.table.WellFormed := by
  rcases h with ⟨names, password, settings, capacity, events, rfl⟩
  exact (run_wellFormed (start_wellFormed names password settings capacity) events).1

theorem run_append (r : Relay) (front rest : List Event) : r.run (front ++ rest) = (r.run front).run rest := by
  apply List.foldl_append

theorem run_take_succ (h : events[k]? = some e)
    : r.run (events.take (k + 1)) = (r.run (events.take k)).step e := by
  unfold run
  rw [List.take_add_one, h, List.foldl_append]
  rfl

theorem run_take_succ_of_none (h : events[k]? = none)
    : r.run (events.take (k + 1)) = r.run (events.take k) := by
  rw [List.take_add_one, h]
  simp

end Runs

end Relay

end Intercom
