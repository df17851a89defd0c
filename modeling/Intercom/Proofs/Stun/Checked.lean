import Mathlib
import Intercom.Proofs.Stun.CheckedAttribute

/-!
This module contains the reading of a message by its places, with a loop over its attributes. Nothing is read outside
the datagram, every attribute ends before the declared end, and what is read is the same message.
-/

namespace Intercom.Stun

open Checked

def headerChecked (datagram : Bytes) : Checked Error (Message × Nat) := do
  refuseIf (datagram.length < headerLength) .notStun
  let top ← index datagram 0
  refuseIf (top &&& 0xC0 ≠ 0) .notStun
  let length ← number datagram 2 2
  let stop := headerLength + length
  refuseIf (datagram.length < stop) .notStun
  let magic ← number datagram 4 4
  refuseIf (magic ≠ cookie.toNat) .notStun
  let id ← slice datagram 8 headerLength
  let transaction ← copy 12 id
  let type ← number datagram 0 2
  return ({ type := ⟨UInt16.ofNat type⟩, transaction }, stop)

/-- What an iteration leaves: the next attribute stands further to the right. -/
structure Advance (place : Nat) where
  received : Received
  next : Nat
  lt : place < next

/-- Takes the attribute at a place, if it ends before `stop`. -/
def advance (datagram : Bytes) (stop place : Nat) (r : Received) : Checked Error (Advance place) := do
  let left ← sub stop place
  refuseIf (left < 4) (.malformedAttribute 0)
  let type ← number datagram place 2
  let length ← number datagram (place + 2) 2
  let start := place + 4
  let padded := (length + 3) / 4 * 4
  refuseIf (stop < start + padded) (.malformedAttribute (UInt16.ofNat type))
  let value ← slice datagram start (start + length)
  let received ← r.absorbChecked datagram place (UInt16.ofNat type) value
  return ⟨received, start + padded, by omega⟩

def advanceAll (datagram : Bytes) (stop place : Nat) (r : Received) : Checked Error Received :=
  if _h : place < stop then do
    let ⟨received, next, _hlt⟩ ← advance datagram stop place r
    advanceAll datagram stop next received
  else return r
termination_by stop - place

def decodeChecked (datagram : Bytes) : Checked Error Received := do
  let (message, stop) ← headerChecked datagram
  advanceAll datagram stop headerLength ⟨message, none⟩

section Header

variable {datagram : Bytes}

theorem framed_of_fields (hheader : headerLength ≤ datagram.length) (htop : datagram.headD 0 &&& 0xC0 = 0)
    (hlength : headerLength + declaredLength datagram ≤ datagram.length)
    (hcookie : Bytes.toNat ((datagram.drop 4).take 4) = cookie.toNat) : Framed datagram := by
  refine ⟨hheader, htop, hlength, ?_⟩
  symm
  rw [← hcookie]
  apply Bytes.ofNat_toNat_of_length
  unfold headerLength at hheader
  rw [List.length_take, List.length_drop]
  omega

theorem readHeader_eq_none (h : ¬ Framed datagram) : readHeader datagram = none := by
  rw [Option.eq_none_iff_forall_ne_some]
  intro header hheader
  exact h (framed_of_readHeader hheader)

theorem headerChecked_eq (datagram : Bytes)
    : headerChecked datagram =
        ofOption .notStun ((readHeader datagram).map fun (message, length) => (message, headerLength + length)) := by
  unfold headerChecked
  by_cases hheader : headerLength ≤ datagram.length
  . have h20 : 20 ≤ datagram.length := hheader
    rw [refuseIf_of_not (Nat.not_lt.2 hheader), ok_bind, index_drop (by omega), ok_bind,
      List.drop_zero]
    by_cases htop : datagram.headD 0 &&& 0xC0 = 0
    . rw [refuseIf_of_not (not_not.2 htop), ok_bind, number_of_le (by omega), ok_bind]
      change (do refuseIf (datagram.length < headerLength + declaredLength datagram) _; _) = _
      by_cases hlength : headerLength + declaredLength datagram ≤ datagram.length
      . rw [refuseIf_of_not (Nat.not_lt.2 hlength), ok_bind, number_of_le (by omega),
          ok_bind]
        by_cases hcookie : Bytes.toNat ((datagram.drop 4).take 4) = cookie.toNat
        . have hid : (datagram.take headerLength).drop 8 =
              (Octets.ofNat 12 (Bytes.toNat ((datagram.drop 8).take 12))).bytes := by
            unfold Octets.ofNat headerLength
            dsimp only
            rw [List.drop_take, Bytes.ofNat_toNat_of_length]
            rw [List.length_take, List.length_drop]
            omega
          rw [refuseIf_of_not (not_not.2 hcookie), ok_bind, slice_of_le (by decide) hheader,
            ok_bind, copy_of_length hid, ok_bind, number_of_le (by omega),
            ok_bind, readHeader_of_framed (framed_of_fields hheader htop hlength hcookie)]
          rfl
        . have hnot : ¬ Framed datagram := by
            intro hframed
            rw [hframed.cookie] at hcookie
            exact hcookie rfl
          rw [refuseIf_of hcookie, refuse_bind, readHeader_eq_none hnot]
          rfl
      . rw [refuseIf_of (Nat.lt_of_not_le hlength), refuse_bind,
          readHeader_eq_none fun h => hlength h.length]
        rfl
    . rw [refuseIf_of htop, refuse_bind, readHeader_eq_none fun h => htop h.top]
      rfl
  . rw [refuseIf_of (Nat.lt_of_not_le hheader), refuse_bind, readHeader_eq_none fun h => hheader h.header]
    rfl

end Header

section Loop

variable {datagram : Bytes} {stop place : Nat}

theorem take_drop_take {bs : Bytes} {i n : Nat} (h : i + n ≤ stop)
    : ((bs.take stop).drop i).take n = (bs.drop i).take n := by
  rw [List.drop_take, List.take_take]
  congr 1
  omega

theorem roundUp_eq (length : Nat) : (length + 3) / 4 * 4 = length + Attribute.paddingLength length := by
  unfold Attribute.paddingLength
  omega

def attributeAt (datagram : Bytes) (place length : Nat) : Attribute where
  type := UInt16.ofNat (Bytes.toNat ((datagram.drop place).take 2))
  value := (datagram.drop (place + 4)).take length
  padding := (datagram.drop (place + 4 + length)).take (Attribute.paddingLength length)

theorem read_drop (hstop : stop ≤ datagram.length) (hplace : place ≤ stop)
    : Attribute.read ((datagram.take stop).drop place) =
        if place + 4 ≤ stop then
          let length := Bytes.toNat ((datagram.drop (place + 2)).take 2)
          let next := place + 4 + (length + 3) / 4 * 4
          if next ≤ stop then .ok (attributeAt datagram place length, (datagram.take stop).drop next)
          else .error (.malformedAttribute (UInt16.ofNat (Bytes.toNat ((datagram.drop place).take 2))))
        else .error (.malformedAttribute 0) := by
  have hend : (datagram.take stop).length = stop := List.length_take_of_le hstop
  unfold Attribute.read
  rw [Bytes.cut?_drop _ _ _ (by omega), hend]
  by_cases hhead : place + 4 ≤ stop
  . have htype : (((datagram.take stop).drop place).take 4).take 2 = (datagram.drop place).take 2 := by
      rw [List.take_take]
      exact take_drop_take (by omega)
    have hlength : (((datagram.take stop).drop place).take 4).drop 2 = (datagram.drop (place + 2)).take 2 := by
      rw [take_drop_take hhead, List.drop_take, List.drop_drop]
    rw [if_pos hhead, if_pos hhead]
    dsimp only
    rw [htype, hlength]
    generalize hn : Bytes.toNat ((datagram.drop (place + 2)).take 2) = length
    rw [Bytes.cut?_drop _ _ _ (by omega), hend]
    by_cases hvalue : place + 4 + length ≤ stop
    . rw [if_pos hvalue]
      dsimp only
      rw [Bytes.cut?_drop _ _ _ (by omega), hend, roundUp_eq, ← Nat.add_assoc]
      by_cases hpadding : place + 4 + length + Attribute.paddingLength length ≤ stop
      . rw [if_pos hpadding, if_pos hpadding]
        dsimp only
        unfold attributeAt
        rw [take_drop_take hvalue, take_drop_take hpadding]
      . rw [if_neg hpadding, if_neg hpadding]
    . rw [if_neg hvalue, if_neg (by omega)]
  . rw [if_neg hhead, if_neg hhead]

theorem length_attributeAt (datagram : Bytes) (place length : Nat)
    (h : place + 4 + (length + 3) / 4 * 4 ≤ datagram.length)
    : (attributeAt datagram place length).value.length = length ∧
      place + (attributeAt datagram place length).bytes.length = place + 4 + (length + 3) / 4 * 4 := by
  rw [roundUp_eq] at h ⊢
  have hvalue : (attributeAt datagram place length).value.length = length := by
    unfold attributeAt
    dsimp only
    rw [List.length_take, List.length_drop]
    omega
  have hpadding : (attributeAt datagram place length).padding.length = Attribute.paddingLength length := by
    unfold attributeAt
    dsimp only
    rw [List.length_take, List.length_drop]
    omega
  refine ⟨hvalue, ?_⟩
  rw [Attribute.length_bytes, hvalue, hpadding]
  omega

theorem advance_eq (r : Received) (hplace : headerLength ≤ place) (hlt : place < stop) (hstop : stop ≤ datagram.length)
    (hlimit : stop ≤ headerLength + 65535)
    : match Attribute.read ((datagram.take stop).drop place) with
      | .error e => advance datagram stop place r = refuse e
      | .ok (a, _) =>
        match r.absorb (datagram.take place) a with
        | .error e => advance datagram stop place r = refuse e
        | .ok received => ∃ hlt, advance datagram stop place r = .ok ⟨received, place + a.bytes.length, hlt⟩ := by
  rw [read_drop hstop hlt.le]
  unfold advance
  rw [sub_of_le hlt.le, ok_bind]
  by_cases hhead : place + 4 ≤ stop
  . rw [if_pos hhead, refuseIf_of_not (by omega), ok_bind, number_of_le (by omega),
      ok_bind, number_of_le (by omega), ok_bind]
    dsimp only
    generalize Bytes.toNat ((datagram.drop (place + 2)).take 2) = length
    by_cases hnext : place + 4 + (length + 3) / 4 * 4 ≤ stop
    . rcases length_attributeAt datagram place length (by omega) with ⟨hvalue, hbytes⟩
      have hslice : (datagram.take (place + 4 + length)).drop (place + 4) =
          (attributeAt datagram place length).value := by
        rw [List.drop_take, Nat.add_sub_cancel_left]
        rfl
      have habsorb := r.absorbChecked_eq datagram (attributeAt datagram place length) hplace
        (by rw [hvalue]; omega) (by rw [hvalue]; omega)
      have htype : UInt16.ofNat (Bytes.toNat ((datagram.drop place).take 2)) =
          (attributeAt datagram place length).type := rfl
      rw [if_pos hnext, refuseIf_of_not (by omega), ok_bind, slice_of_le (by omega) (by omega),
        ok_bind, hslice, htype, habsorb]
      dsimp only
      simp only [hbytes]
      cases r.absorb (datagram.take place) (attributeAt datagram place length) with
      | error e => rfl
      | ok received => exact ⟨by omega, rfl⟩
    . rw [if_neg hnext, refuseIf_of (by omega), refuse_bind]
  . rw [if_neg hhead, refuseIf_of (by omega), refuse_bind]

/-- What is read from these octets at a place, attribute by attribute, and the first fault among them. -/
def readFrom (datagram octets : Bytes) (place : Nat) (r : Received) : Except Error Received :=
  match Attribute.scan octets with
  | (as, fault) =>
    match Received.absorbAll datagram place r as, fault with
    | .error e, _ => .error e
    | .ok _, some e => .error e
    | .ok r, none => .ok r

theorem scan_of_error {bs : Bytes} {e : Error} (hne : bs ≠ []) (h : Attribute.read bs = .error e)
    : Attribute.scan bs = ([], some e) := by
  rw [Attribute.scan, if_neg (by rwa [List.isEmpty_iff])]
  split
  . next e' he' =>
    rw [h, Except.error.injEq] at he'
    rw [he']
  . next hok =>
    rw [h] at hok
    simp at hok

theorem scan_of_ok {bs rest : Bytes} {a : Attribute} (hne : bs ≠ []) (h : Attribute.read bs = .ok (a, rest))
    : Attribute.scan bs = (a :: (Attribute.scan rest).1, (Attribute.scan rest).2) := by
  rw [Attribute.scan, if_neg (by rwa [List.isEmpty_iff])]
  split
  . next he =>
    rw [h] at he
    simp at he
  . next a' rest' hok =>
    rw [h, Except.ok.injEq, Prod.mk.injEq] at hok
    rw [hok.1, hok.2]

theorem readFrom_of_ok {octets rest : Bytes} {a : Attribute} (r : Received) (hne : octets ≠ [])
    (h : Attribute.read octets = .ok (a, rest))
    : readFrom datagram octets place r =
        match r.absorb (datagram.take place) a with
        | .error e => .error e
        | .ok received => readFrom datagram rest (place + a.bytes.length) received := by
  unfold readFrom
  rw [scan_of_ok hne h]
  dsimp only
  rw [Received.absorbAll]
  cases r.absorb (datagram.take place) a with
  | error e => rfl
  | ok received => rfl

-- The induction is on the octets that are left: each iteration takes one attribute off them.
theorem advanceAll_eq (r : Received) (hplace : headerLength ≤ place) (hstop : stop ≤ datagram.length)
    (hlimit : stop ≤ headerLength + 65535)
    : advanceAll datagram stop place r = ofExcept (readFrom datagram ((datagram.take stop).drop place) place r) := by
  induction hleft : stop - place using Nat.strong_induction_on generalizing place r with
  | h left ih =>
    unfold advanceAll
    by_cases hlt : place < stop
    . have hne : (datagram.take stop).drop place ≠ [] := by
        rw [Ne, List.drop_eq_nil_iff, List.length_take_of_le hstop]
        omega
      have hstep := advance_eq r hplace hlt hstop hlimit
      rw [dif_pos hlt]
      cases hread : Attribute.read ((datagram.take stop).drop place) with
      | error e =>
        rw [hread] at hstep
        dsimp only at hstep
        rw [hstep, refuse_bind]
        unfold readFrom
        rw [scan_of_error hne hread]
        rfl
      | ok result =>
        rcases result with ⟨a, rest⟩
        have hrest : rest = (datagram.take stop).drop (place + a.bytes.length) := by
          rw [← List.drop_drop, Attribute.eq_append_of_read hread, List.drop_left]
        rw [hread] at hstep
        dsimp only at hstep
        rw [readFrom_of_ok r hne hread, hrest]
        cases habsorb : r.absorb (datagram.take place) a with
        | error e =>
          rw [habsorb] at hstep
          rw [hstep, refuse_bind]
          rfl
        | ok received =>
          rw [habsorb] at hstep
          rcases hstep with ⟨hnext, hadvance⟩
          rw [hadvance, ok_bind]
          apply ih _ _ _ _ rfl
          . omega
          . omega
    . have hnil : (datagram.take stop).drop place = [] := by
        rw [List.drop_eq_nil_iff, List.length_take_of_le hstop]
        omega
      rw [dif_neg hlt]
      unfold readFrom
      rw [hnil, Attribute.scan]
      rfl

theorem declaredLength_lt (datagram : Bytes) : declaredLength datagram < 65536 := by
  apply Nat.lt_of_lt_of_le (Bytes.toNat_lt _)
  calc 256 ^ ((datagram.drop 2).take 2).length
      ≤ 256 ^ 2 := Nat.pow_le_pow_right (by decide) (List.length_take_le _ _)
    _ = 65536 := by decide

theorem decodeChecked_eq (datagram : Bytes) : decodeChecked datagram = ofExcept (decode datagram) := by
  unfold decodeChecked decode
  rw [headerChecked_eq]
  cases hheader : readHeader datagram with
  | none => rfl
  | some header =>
    rcases header with ⟨m, length⟩
    have hframed := framed_of_readHeader hheader
    rw [readHeader_of_framed hframed, Option.some.injEq, Prod.mk.injEq] at hheader
    have hstop := hframed.length
    have hlimit := declaredLength_lt datagram
    rw [hheader.2] at hstop hlimit
    have hoctets : (datagram.take (headerLength + length)).drop headerLength =
        (datagram.drop headerLength).take length := by
      rw [List.drop_take, Nat.add_sub_cancel_left]
    change advanceAll datagram (headerLength + length) headerLength ⟨m, none⟩ =
      ofExcept (readFrom datagram ((datagram.drop headerLength).take length) headerLength ⟨m, none⟩)
    rw [advanceAll_eq _ le_rfl hstop (by omega), hoctets]

theorem advance_next {r : Received} {next : Advance place} (h : advance datagram stop place r = .ok next)
    : place + 4 ≤ next.next ∧ next.next ≤ stop := by
  unfold advance at h
  simp only [bind_eq_ok, refuseIf_eq_ok, pure_eq_ok, Except.ok.injEq] at h
  rcases h with ⟨left, -, -, -, type, -, length, -, -, hfits, value, -, received, -, rfl⟩
  dsimp only
  omega

/-- The loop over the attributes comes to a place after this many iterations. -/
inductive Comes (datagram : Bytes) (stop : Nat) (first : Received) : Nat → Nat → Received → Prop where
  | start : Comes datagram stop first 0 headerLength first
  | step {k place : Nat} {r : Received} {next : Advance place} (h : Comes datagram stop first k place r)
      (hlt : place < stop) (hadvance : advance datagram stop place r = .ok next)
      : Comes datagram stop first (k + 1) next.next next.received

theorem Comes.bounds {first r : Received} {k : Nat} (hstop : headerLength ≤ stop)
    (h : Comes datagram stop first k place r) : headerLength + 4 * k ≤ place ∧ place ≤ stop := by
  induction h with
  | start => exact ⟨le_rfl, hstop⟩
  | step h hlt hadvance ih =>
    rcases advance_next hadvance with ⟨hnext, hle⟩
    exact ⟨by omega, hle⟩

theorem headerChecked_eq_ok {m : Message} (h : headerChecked datagram = .ok (m, stop))
    : stop = headerLength + declaredLength datagram ∧ stop ≤ datagram.length := by
  rw [headerChecked_eq] at h
  cases hheader : readHeader datagram with
  | none =>
    rw [hheader] at h
    simp [ofOption, refuse] at h
  | some header =>
    have hframed := framed_of_readHeader hheader
    rw [readHeader_of_framed hframed] at h
    change Except.ok (headerOf datagram, headerLength + declaredLength datagram) = .ok (m, stop) at h
    rw [Except.ok.injEq, Prod.mk.injEq] at h
    rw [← h.2]
    exact ⟨rfl, hframed.length⟩

end Loop

end Intercom.Stun
