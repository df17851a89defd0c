import Mathlib
import Intercom.Proofs.Rtp.Checked
import Intercom.Srtp.Context

/-!
This module contains how the tag is cut off a protected packet: two lengths are reduced by its length, and neither is
shorter than it.
-/

namespace Intercom.Srtp

open Checked

def Direction.unprotectChecked (d : Direction) (datagram : Bytes) : Checked Error Rtp.Packet := do
  let p ← Rtp.decodeChecked Error.notRtp datagram 0
  refuseIf (p.payload.length < tagLength) .notRtp
  let place ← sub datagram.length tagLength
  let (authenticated, tag) ← splitAt datagram place
  refuseIf (d.tag authenticated ≠ tag) .wrongTag
  let length ← sub p.payload.length tagLength
  return { p with
    payload := CounterMode.apply d.keys.key (d.start p.source p.sequenceNumber) (p.payload.take length) }

def Context.unprotectChecked (c : Context) (datagram : Bytes) : Checked Error Rtp.Packet :=
  match c.keys with
  | none => refuse .noKeys
  | some keys => keys.receive.unprotectChecked datagram

theorem Direction.unprotectChecked_eq (d : Direction) (datagram : Bytes)
    : d.unprotectChecked datagram = ofExcept (d.unprotect datagram) := by
  have hoffset : Rtp.decodeAt? datagram 0 = Rtp.decode? datagram := Rtp.decodeAt?_append [] datagram
  unfold unprotectChecked unprotect
  rw [Rtp.decodeChecked_eq, hoffset]
  cases hdecoded : Rtp.decode? datagram with
  | none => rfl
  | some p =>
    change (Except.ok p >>= _) = _
    rw [ok_bind]
    dsimp only
    split
    . next hlt =>
      rw [refuseIf_of hlt]
      rfl
    . next hroom =>
      have hpayload : tagLength ≤ p.payload.length := Nat.not_lt.1 hroom
      have hdatagram : p.payload.length ≤ datagram.length := by
        rcases Rtp.exists_header hdecoded with ⟨header, hbytes, -⟩
        rw [hbytes, List.length_append]
        apply Nat.le_add_left
      rw [refuseIf_of_not hroom, ok_bind, sub_of_le (by omega), ok_bind,
        splitAt_of_le (by omega), ok_bind]
      dsimp only
      split
      . next htag =>
        rw [refuseIf_of htag]
        rfl
      . next htag =>
        rw [refuseIf_of_not htag, ok_bind, sub_of_le hpayload, ok_bind]
        rfl

theorem Context.unprotectChecked_eq (c : Context) (datagram : Bytes)
    : c.unprotectChecked datagram = ofExcept (c.unprotect datagram) := by
  unfold unprotectChecked unprotect
  cases c.keys with
  | none => rfl
  | some keys => exact keys.receive.unprotectChecked_eq datagram

end Intercom.Srtp
