import Mathlib
import Intercom.Bytes.Lemmas

/-!
This module contains access to octets at places that are computed, as a machine does it: what is not there, does not fit
or would be negative is a fault, which ends everything. A computation without a fault either gives a value or refuses
its input.
-/

namespace Intercom

namespace Bytes

theorem cut?_eq (n : Nat) (bs : Bytes)
    : cut? n bs = if n ≤ bs.length then some (bs.take n, bs.drop n) else none := by
  split
  . next h => exact cut?_of_le h
  . next h =>
    rw [Option.eq_none_iff_forall_ne_some]
    intro cut hcut
    rw [cut?_eq_some_iff] at hcut
    apply h
    rw [hcut.2, List.length_append, hcut.1]
    apply Nat.le_add_right

theorem cut?_drop (n place : Nat) (data : Bytes) (h : place ≤ data.length)
    : cut? n (data.drop place) =
        if place + n ≤ data.length then some ((data.drop place).take n, data.drop (place + n)) else none := by
  rw [cut?_eq, List.length_drop, List.drop_drop]
  have hiff : n ≤ data.length - place ↔ place + n ≤ data.length := by
    omega
  rw [if_congr hiff rfl rfl]

end Bytes

inductive Fault where
  | outside
  | negative
  /-- A number that needs more bits than there are. -/
  | truncated
  /-- Octets written over a different number of octets. -/
  | unequal
deriving DecidableEq

inductive Halt (ε : Type) where
  | fault (f : Fault)
  | refusal (e : ε)
deriving DecidableEq

abbrev Checked (ε : Type) := Except (Halt ε)

namespace Checked

variable {ε α β : Type} {bs : Bytes} {i n start stop : Nat}

def fault (f : Fault) : Checked ε α :=
  .error (.fault f)

def refuse (e : ε) : Checked ε α :=
  .error (.refusal e)

def refuseIf (p : Prop) [Decidable p] (e : ε) : Checked ε Unit :=
  if p then refuse e else .ok ()

def ofOption (e : ε) : Option α → Checked ε α
  | some x => .ok x
  | none => refuse e

def ofExcept : Except ε α → Checked ε α
  | .ok x => .ok x
  | .error e => refuse e

def index (bs : Bytes) (i : Nat) : Checked ε UInt8 :=
  match bs[i]? with
  | some b => .ok b
  | none => fault .outside

def range? (bs : Bytes) (start stop : Nat) : Option Bytes :=
  if start ≤ stop ∧ stop ≤ bs.length then some ((bs.take stop).drop start) else none

def slice (bs : Bytes) (start stop : Nat) : Checked ε Bytes :=
  match range? bs start stop with
  | some octets => .ok octets
  | none => fault .outside

def splitAt (bs : Bytes) (place : Nat) : Checked ε (Bytes × Bytes) :=
  if place ≤ bs.length then .ok (bs.splitAt place) else fault .outside

def sub (a b : Nat) : Checked ε Nat :=
  if b ≤ a then .ok (a - b) else fault .negative

def toUInt16 (n : Nat) : Checked ε UInt16 :=
  if n < UInt16.size then .ok (UInt16.ofNat n) else fault .truncated

def overwrite (bs : Bytes) (start stop : Nat) (octets : Bytes) : Checked ε Bytes := do
  let old ← slice bs start stop
  if old.length = octets.length then .ok (bs.take start ++ octets ++ bs.drop stop) else fault .unequal

def copy (n : Nat) (bs : Bytes) : Checked ε (Octets n) :=
  match Octets.ofBytes? n bs with
  | some o => .ok o
  | none => fault .unequal

def octets (bs : Bytes) (start : Nat) : (n : Nat) → Checked ε Bytes
  | 0 => .ok []
  | n + 1 => do
    let b ← index bs start
    let rest ← octets bs (start + 1) n
    return b :: rest

def number (bs : Bytes) (start width : Nat) : Checked ε Nat := do
  let octets ← octets bs start width
  return Bytes.toNat octets

section

theorem ok_bind (x : α) (f : α → Checked ε β) : (Except.ok x : Checked ε α) >>= f = f x := rfl

theorem refuse_bind (e : ε) (f : α → Checked ε β) : refuse e >>= f = refuse e := rfl

theorem ofExcept_ne_fault (x : Except ε α) (f : Fault) : ofExcept x ≠ fault f := by
  cases x with
  | ok x => simp [ofExcept, fault]
  | error e => simp [ofExcept, refuse, fault]

theorem ofOption_ne_fault (e : ε) (x : Option α) (f : Fault) : ofOption e x ≠ fault f := by
  cases x with
  | some x => simp [ofOption, fault]
  | none => simp [ofOption, refuse, fault]

theorem bind_eq_ok {x : Checked ε α} {f : α → Checked ε β} {y : β}
    : x >>= f = .ok y ↔ ∃ a, x = .ok a ∧ f a = .ok y := by
  cases x with
  | ok a =>
    rw [ok_bind]
    simp
  | error h =>
    change Except.error h = .ok y ↔ _
    simp

theorem refuseIf_eq_ok {p : Prop} [Decidable p] {e : ε} {u : Unit} : refuseIf p e = .ok u ↔ ¬ p := by
  unfold refuseIf refuse
  split
  . next h => simp [h]
  . next h => simp [h]

theorem pure_eq_ok (x : α) : (pure x : Checked ε α) = .ok x := rfl

theorem refuseIf_of {p : Prop} [Decidable p] (h : p) (e : ε) : refuseIf p e = refuse e :=
  if_pos h

theorem refuseIf_of_not {p : Prop} [Decidable p] (h : ¬ p) (e : ε) : refuseIf p e = .ok () :=
  if_neg h

theorem index_of_lt (h : i < bs.length) : (index bs i : Checked ε UInt8) = .ok bs[i] := by
  unfold index
  rw [List.getElem?_eq_getElem h]

example : (index [1, 2] 2 : Checked Unit UInt8) = fault .outside := rfl

theorem index_drop (h : i < bs.length) : (index bs i : Checked ε UInt8) = .ok ((bs.drop i).headD 0) := by
  rw [index_of_lt h, List.drop_eq_getElem_cons h, List.headD_cons]

theorem range?_of_le (hstart : start ≤ stop) (hstop : stop ≤ bs.length)
    : range? bs start stop = some ((bs.take stop).drop start) :=
  if_pos ⟨hstart, hstop⟩

theorem slice_of_le (hstart : start ≤ stop) (hstop : stop ≤ bs.length)
    : (slice bs start stop : Checked ε Bytes) = .ok ((bs.take stop).drop start) := by
  unfold slice
  rw [range?_of_le hstart hstop]

theorem splitAt_of_le (h : i ≤ bs.length)
    : (splitAt bs i : Checked ε (Bytes × Bytes)) = .ok (bs.take i, bs.drop i) := by
  unfold splitAt
  rw [if_pos h, List.splitAt_eq]

theorem sub_of_le {a b : Nat} (h : b ≤ a) : (sub a b : Checked ε Nat) = .ok (a - b) :=
  if_pos h

theorem toUInt16_of_lt (h : n < 65536) : (toUInt16 n : Checked ε UInt16) = .ok (UInt16.ofNat n) :=
  if_pos h

theorem overwrite_of_le {octets : Bytes} (hlength : start + octets.length = stop) (hstop : stop ≤ bs.length)
    : (overwrite bs start stop octets : Checked ε Bytes) = .ok (bs.take start ++ octets ++ bs.drop stop) := by
  unfold overwrite
  rw [slice_of_le (by omega) hstop, ok_bind, if_pos]
  rw [List.length_drop, List.length_take_of_le hstop]
  omega

theorem copy_of_length {n : Nat} {o : Octets n} (h : bs = o.bytes) : (copy n bs : Checked ε (Octets n)) = .ok o := by
  unfold copy
  rw [Octets.ofBytes?_eq_some_iff.2 h]

theorem octets_of_le (h : start + n ≤ bs.length)
    : (octets bs start n : Checked ε Bytes) = .ok ((bs.drop start).take n) := by
  induction n generalizing start with
  | zero => rfl
  | succ n ih =>
    have hrest : (octets bs (start + 1) n : Checked ε Bytes) = .ok ((bs.drop (start + 1)).take n) := ih (by omega)
    unfold octets
    rw [index_of_lt (by omega), ok_bind, hrest, ok_bind, pure_eq_ok,
      List.drop_eq_getElem_cons (i := start) (by omega), List.take_succ_cons]

theorem number_of_le (h : start + n ≤ bs.length)
    : (number bs start n : Checked ε Nat) = .ok (Bytes.toNat ((bs.drop start).take n)) := by
  unfold number
  rw [octets_of_le h, ok_bind, pure_eq_ok]

end

end Checked

end Intercom
