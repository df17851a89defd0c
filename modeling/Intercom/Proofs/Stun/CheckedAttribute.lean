import Mathlib
import Intercom.Proofs.Bytes.Checked
import Intercom.Proofs.Stun.Acceptance

/-!
This module contains what is done with one attribute of a datagram, by the places of its octets. Whatever the value is,
nothing is read outside it, and the length field of what the tag covers holds the whole length.
-/

namespace Intercom.Stun

open Checked

namespace Mask

def ofTransaction? : Option TransactionId → Mask
  | some id => .ofTransaction id
  | none => .plain

def checked : Option TransactionId → Checked Error Mask
  | some id => do
    let mask ← overwrite (List.replicate 16 0) 0 4 (Bytes.ofNat 4 cookie.toNat)
    let mask ← overwrite mask 4 16 id.bytes
    copy 16 mask
  | none => .ok .plain

end Mask

/-- The next `n` octets of an address, from the one with number `i` on. -/
def unmask (value : Bytes) (mask : Mask) (i : Nat) : (n : Nat) → Checked Error Bytes
  | 0 => .ok []
  | n + 1 => do
    let octet ← index value (4 + i)
    let bits ← index mask.bytes i
    let rest ← unmask value mask (i + 1) n
    return (octet ^^^ bits) :: rest

def unmaskAll (value : Bytes) (mask : Mask) (n : Nat) : Checked Error (Octets n) := do
  let octets ← unmask value mask 0 n
  copy n octets

def addressChecked (type : UInt16) (value : Bytes) (id : Option TransactionId) : Checked Error Endpoint := do
  refuseIf (value.length < 4) (.malformedAttribute type)
  let family ← index value 1
  let portMask := if id.isSome then (cookie >>> 16).toUInt16 else 0
  let port ← number value 2 2
  let port := UInt16.ofNat port ^^^ portMask
  let mask ← Mask.checked id
  if family = 1 ∧ value.length = 8 then
    let octets ← unmaskAll value mask 4
    return .of (.v4 octets) port
  else if family = 2 ∧ value.length = 20 then
    let octets ← unmaskAll value mask 16
    return .of (.v6 octets) port
  else refuse (.malformedAttribute type)

namespace Received

def firstChecked (r : Received) (old : Option α) (new : Checked Error α) (set : α → Message) : Checked Error Received :=
  if old.isSome then .ok r
  else do
    let x ← new
    return { r with message := set x }

def absorbChecked (r : Received) (datagram : Bytes) (place : Nat) (type : UInt16) (value : Bytes)
    : Checked Error Received :=
  let m := r.message
  let role := Role.ofType type
  let malformed := Error.malformedAttribute type
  if m.integrity.isSome ∧ role ≠ .fingerprint then .ok r
  else match role with
    | .mappedAddress => r.firstChecked m.mapped (addressChecked type value none) fun e => { m with mapped := e }
    | .username =>
      r.firstChecked m.username (.ok (Utf8.decodeLossy value)) fun name => { m with username := name }
    | .xorMappedAddress =>
      r.firstChecked m.xorMapped (addressChecked type value (some m.transaction)) fun e => { m with xorMapped := e }
    | .priority =>
      r.firstChecked m.priority (ofOption malformed ((number? 4 value).map UInt32.ofNat)) fun n =>
        { m with priority := n }
    | .iceControlled =>
      r.firstChecked m.iceControlled (ofOption malformed ((number? 8 value).map UInt64.ofNat)) fun n =>
        { m with iceControlled := n }
    | .iceControlling =>
      r.firstChecked m.iceControlling (ofOption malformed ((number? 8 value).map UInt64.ofNat)) fun n =>
        { m with iceControlling := n }
    | .responseOrigin =>
      r.firstChecked m.responseOrigin (addressChecked type value none) fun e => { m with responseOrigin := e }
    | .useCandidate => .ok { r with message := { m with useCandidate := true } }
    | .integrity => do
      let tag ← ofOption malformed (Octets.ofBytes? 20 value)
      let before ← slice datagram 0 place
      let length ← sub (place + 24) headerLength
      let length ← toUInt16 length
      let covered ← overwrite before 2 4 (Bytes.ofNat 2 length.toNat)
      return ⟨{ m with integrity := some tag }, some covered⟩
    | .fingerprint => do
      let n ← ofOption malformed (number? 4 value)
      let before ← slice datagram 0 place
      refuseIf (UInt32.ofNat n ≠ fingerprintOf before) .notStun
      return { r with message := { m with fingerprint := true } }
    | .unknown => refuse (.unknownAttribute type)
    | .ignored => .ok r

end Received

section Address

variable {value : Bytes} {mask : Mask}

theorem unmask_eq {i n : Nat} (hvalue : 4 + i + n ≤ value.length) (hmask : i + n ≤ 16)
    : unmask value mask i n = .ok (Bytes.xor ((value.drop (4 + i)).take n) (mask.bytes.drop i)) := by
  have hlength := mask.length_eq
  induction n generalizing i with
  | zero =>
    unfold unmask Bytes.xor
    simp
  | succ n ih =>
    unfold unmask
    rw [index_of_lt (by omega), ok_bind, index_of_lt (by omega), ok_bind,
      ih (i := i + 1) (by omega) (by omega), ok_bind, pure_eq_ok,
      List.drop_eq_getElem_cons (i := 4 + i) (by omega), List.take_succ_cons,
      List.drop_eq_getElem_cons (i := i) (by omega)]
    rfl

theorem unmaskAll_eq {rest : Bytes} {n : Nat} (h : rest.length = n) (hn : n ≤ 16) (a family b c : UInt8)
    : unmaskAll (a :: family :: b :: c :: rest) mask n = .ok (Octets.masked ⟨rest, h⟩ mask hn) := by
  have htake : ((a :: family :: b :: c :: rest).drop (4 + 0)).take n = rest := by
    rw [← h]
    exact List.take_length
  unfold unmaskAll
  rw [unmask_eq (by simp only [List.length_cons, h]; omega) (by omega), htake, List.drop_zero, ok_bind]
  apply copy_of_length
  rfl

theorem Mask.checked_eq (id : Option TransactionId) : checked id = .ok (ofTransaction? id) := by
  cases id with
  | none => rfl
  | some id =>
    unfold checked
    dsimp only
    have hid := id.length_eq
    rw [overwrite_of_le (by simp) (by simp), ok_bind, overwrite_of_le (by omega) (by simp),
      ok_bind]
    apply copy_of_length
    unfold ofTransaction? ofTransaction
    simp

theorem port_eq (id : Option TransactionId) (b c : UInt8)
    : UInt16.ofNat (Bytes.toNat [b, c]) ^^^ (if id.isSome then (cookie >>> 16).toUInt16 else 0) =
        UInt16.ofNat (Bytes.toNat (Bytes.xor [b, c] (Mask.ofTransaction? id).bytes)) := by
  cases id with
  | none =>
    have hplain : Bytes.xor [b, c] (Mask.ofTransaction? none).bytes = [b ^^^ 0, c ^^^ 0] := rfl
    rw [hplain, UInt8.xor_zero, UInt8.xor_zero]
    exact UInt16.xor_zero
  | some id =>
    have hmask : Bytes.xor [b, c] (Mask.ofTransaction? (some id)).bytes = Bytes.xor [b, c] [0x21, 0x12] := rfl
    have hlength : [b, c].length = ([0x21, 0x12] : Bytes).length := rfl
    rw [hmask, Bytes.toNat_xor hlength, UInt16.ofNat_xor]
    rfl

theorem decodeAddress?_eq_none
    (h : ¬ ((value.length = 8 ∧ value[1]? = some 1) ∨ (value.length = 20 ∧ value[1]? = some 2)))
    : decodeAddress? mask value = none := by
  rw [← isSome_decodeAddress?_iff mask, Bool.not_eq_true, Option.isSome_eq_false_iff, Option.isNone_iff_eq_none] at h
  exact h

theorem addressChecked_eq (type : UInt16) (value : Bytes) (id : Option TransactionId)
    : addressChecked type value id =
        ofOption (.malformedAttribute type) (decodeAddress? (Mask.ofTransaction? id) value) := by
  unfold addressChecked
  rcases value with _ | ⟨a, _ | ⟨family, _ | ⟨b, _ | ⟨c, rest⟩⟩⟩⟩
  . rfl
  . rfl
  . rfl
  . rfl
  . rw [refuseIf_of_not (by simp), ok_bind, index_of_lt (by simp), ok_bind,
      number_of_le (by simp), ok_bind, Mask.checked_eq, ok_bind]
    simp only [List.getElem_cons_succ, List.getElem_cons_zero, List.drop_succ_cons, List.drop_zero,
      List.take_succ_cons, List.take_zero, port_eq]
    generalize Mask.ofTransaction? id = mask
    have hport : Octets.ofBytes? 2 [b, c] = some ⟨[b, c], rfl⟩ := rfl
    by_cases hfour : family = 1 ∧ (a :: family :: b :: c :: rest).length = 8
    . have hrest : rest.length = 4 := by simpa using hfour.2
      have hoctets : Octets.ofBytes? 4 rest = some ⟨rest, hrest⟩ := Octets.ofBytes?_eq_some_iff.2 rfl
      rw [if_pos hfour, unmaskAll_eq hrest (by decide), ok_bind]
      unfold decodeAddress?
      simp only [Bytes.cut?, Option.map_some, Option.bind_eq_bind, Option.bind_some, hport, hfour.1, if_true, hoctets]
      rfl
    . rw [if_neg hfour]
      by_cases hsixteen : family = 2 ∧ (a :: family :: b :: c :: rest).length = 20
      . have hrest : rest.length = 16 := by simpa using hsixteen.2
        have hoctets : Octets.ofBytes? 16 rest = some ⟨rest, hrest⟩ := Octets.ofBytes?_eq_some_iff.2 rfl
        have hother : ¬ (2 : UInt8) = 1 := by decide
        rw [if_pos hsixteen, unmaskAll_eq hrest (by decide), ok_bind]
        unfold decodeAddress?
        simp only [Bytes.cut?, Option.map_some, Option.bind_eq_bind, Option.bind_some, hport, hsixteen.1, hother,
          if_false, if_true, hoctets]
        rfl
      . rw [if_neg hsixteen, decodeAddress?_eq_none]
        . rfl
        . simp only [List.getElem?_cons_succ, List.getElem?_cons_zero, Option.some.injEq]
          intro hshape
          rcases hshape with ⟨hlength, hfamily⟩ | ⟨hlength, hfamily⟩
          . exact hfour ⟨hfamily, hlength⟩
          . exact hsixteen ⟨hfamily, hlength⟩

end Address

namespace Received

variable {place : Nat} {α : Type}

theorem firstChecked_eq (r : Received) (type : UInt16) (old new : Option α) (set : α → Message)
    : r.firstChecked old (ofOption (.malformedAttribute type) new) set = ofExcept (r.first type old new set) := by
  unfold firstChecked first
  split
  . rfl
  . cases new with
    | none => rfl
    | some x => rfl

theorem absorbChecked_eq (r : Received) (datagram : Bytes) (a : Attribute) (hplace : headerLength ≤ place)
    (hdatagram : place + 4 + a.value.length ≤ datagram.length)
    (hlimit : place + 4 + a.value.length ≤ headerLength + 65535)
    : r.absorbChecked datagram place a.type a.value = ofExcept (r.absorb (datagram.take place) a) := by
  unfold headerLength at hplace hlimit
  have hbefore : (datagram.take place).length = place := List.length_take_of_le (by omega)
  unfold absorbChecked absorb
  dsimp only
  split
  . rfl
  . cases Role.ofType a.type with
    | mappedAddress | xorMappedAddress | responseOrigin =>
      dsimp only
      rw [addressChecked_eq]
      apply firstChecked_eq
    | username => exact firstChecked_eq r a.type r.message.username (some (Utf8.decodeLossy a.value)) _
    | priority | iceControlled | iceControlling => apply firstChecked_eq
    | useCandidate | ignored | unknown => rfl
    | integrity =>
      dsimp only
      cases htag : Octets.ofBytes? 20 a.value with
      | none => rfl
      | some tag =>
        have hlength : a.value.length = 20 := by
          rw [← isSome_ofBytes?_iff, htag]
          rfl
        change (Except.ok tag >>= _) = _
        rw [ok_bind, slice_of_le (by omega) (by omega), ok_bind, List.drop_zero,
          sub_of_le (by unfold headerLength; omega), ok_bind,
          toUInt16_of_lt (by unfold headerLength; omega), ok_bind,
          overwrite_of_le (by simp) (by omega), ok_bind, hbefore]
        have hfield : (UInt16.ofNat (place + 24 - headerLength)).toNat = place + 24 - headerLength := by
          rw [UInt16.toNat_ofNat']
          apply Nat.mod_eq_of_lt
          unfold headerLength
          omega
        rw [hfield]
        rfl
    | fingerprint =>
      dsimp only
      cases number? 4 a.value with
      | none => rfl
      | some n =>
        change (Except.ok n >>= _) = _
        rw [ok_bind, slice_of_le (by omega) (by omega), ok_bind, List.drop_zero]
        dsimp only
        split
        . next hright =>
          rw [refuseIf_of_not (not_not.2 hright)]
          rfl
        . next hwrong =>
          rw [refuseIf_of hwrong]
          rfl

end Received

end Intercom.Stun
