import Intercom.Net.Endpoint

/-!
This module contains the bounded queue of datagrams to be sent. What it cannot take is dropped.
-/

namespace Intercom

structure Outgoing where
  target : Endpoint
  datagram : Bytes
deriving DecidableEq

structure Outbox where
  capacity : Nat
  isOpen : Bool := true
  waiting : List Outgoing := []

namespace Outbox

def offer (o : Outbox) (x : Outgoing) : Bool × Outbox :=
  if o.isOpen ∧ o.waiting.length < o.capacity then (true, { o with waiting := o.waiting ++ [x] })
  else (false, o)

def offerAll (o : Outbox) : List Outgoing → Nat × Outbox
  | [] => (0, o)
  | x :: xs =>
    let (taken, o) := o.offer x
    let (n, o) := offerAll o xs
    (if taken then n + 1 else n, o)

def room (o : Outbox) : Nat :=
  if o.isOpen then o.capacity - o.waiting.length else 0

def drain (o : Outbox) : List Outgoing × Outbox :=
  (o.waiting, { o with waiting := [] })

def close (o : Outbox) : Outbox :=
  { o with isOpen := false, waiting := [] }

theorem room_append (o : Outbox) (xs : List Outgoing)
    : ({ o with waiting := o.waiting ++ xs } : Outbox).room = o.room - xs.length := by
  unfold room
  dsimp
  split
  . rw [List.length_append]
    omega
  . omega

theorem offer_eq (o : Outbox) (x : Outgoing)
    : o.offer x = (decide (0 < o.room), { o with waiting := o.waiting ++ [x].take o.room }) := by
  obtain ⟨capacity, isOpen, waiting⟩ := o
  unfold offer room
  dsimp
  cases isOpen with
  | false => simp
  | true =>
    by_cases hlt : waiting.length < capacity
    . obtain ⟨n, hn⟩ : ∃ n, capacity - waiting.length = n + 1 := ⟨capacity - waiting.length - 1, by omega⟩
      simp [hlt, hn]
    . have hzero : capacity - waiting.length = 0 := by omega
      simp [hlt, hzero]

theorem offerAll_eq (o : Outbox) (xs : List Outgoing)
    : o.offerAll xs = (min o.room xs.length, { o with waiting := o.waiting ++ xs.take o.room }) := by
  induction xs generalizing o with
  | nil => simp [offerAll]
  | cons x xs ih =>
    unfold offerAll
    rw [offer_eq]
    dsimp only
    rw [ih, room_append]
    cases hroom : o.room with
    | zero => simp
    | succ n => simp

end Outbox

end Intercom
