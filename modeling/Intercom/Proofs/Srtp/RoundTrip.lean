import Mathlib
import Intercom.Proofs.Handshake.Line
import Intercom.Proofs.Rtp.RoundTrip
import Intercom.Srtp.Context

/-!
This module contains the main statement about protected audio: what one side of a handshake protects, the
other side reads, in both directions. Of a packet that announces an extension less is read than was protected,
or nothing.
-/

namespace Intercom

theorem CounterMode.apply_apply (key : Octets 16) (iv data : Bytes) : apply key iv (apply key iv data) = data := by
  unfold apply
  have hlength : (Bytes.xor data (keystream key iv data.length)).length = data.length := length_apply key iv data
  rw [hlength]
  apply Bytes.xor_xor
  rw [length_keystream]

namespace Srtp

def Side.other : Side → Side
  | client => server
  | server => client

theorem MasterPair.receive_ofMaterial_other (m : Octets materialLength) (side : Side)
    : (ofMaterial m side.other).receive = (ofMaterial m side).send := by
  cases side with
  | client => rfl
  | server => rfl

namespace Direction

variable {p : Rtp.Packet}

theorem length_tag (d : Direction) (packet : Bytes) : (d.tag packet).length = tagLength := by
  unfold tag
  rw [List.length_take, Octets.length_eq]
  rfl

theorem length_protect (d : Direction) (p : Rtp.Packet)
    : (d.protect p).length = Rtp.headerLength + p.payload.length + tagLength := by
  unfold protect
  rw [List.length_append, length_tag, List.length_append, Rtp.Packet.length_header, CounterMode.length_apply]

theorem take_protect (d : Direction) (p : Rtp.Packet) : (d.protect p).take Rtp.headerLength = p.header := by
  unfold protect
  rw [List.append_assoc]
  apply List.take_left'
  apply Rtp.Packet.length_header

theorem unprotect_append_tag (d : Direction) (front : Bytes)
    (hdecode : ∀ payload, Rtp.decode? (front ++ payload) = some { p with payload })
    : let packet := front ++ CounterMode.apply d.keys.key (d.start p.source p.sequenceNumber) p.payload
      d.unprotect (packet ++ d.tag packet) = .ok p := by
  generalize hsealed : CounterMode.apply d.keys.key (d.start p.source p.sequenceNumber) p.payload = sealed
  generalize htag : d.tag (front ++ sealed) = tag
  dsimp only
  rw [htag]
  have hlength : tag.length = tagLength := by
    rw [← htag]
    apply length_tag
  have hpacket : Rtp.decode? (front ++ sealed ++ tag) = some { p with payload := sealed ++ tag } := by
    rw [List.append_assoc]
    apply hdecode
  have hcut : (front ++ sealed ++ tag).length - tagLength = (front ++ sealed).length := by
    rw [List.length_append, hlength, Nat.add_sub_cancel]
  have hcut' : (sealed ++ tag).length - tagLength = sealed.length := by
    rw [List.length_append, hlength, Nat.add_sub_cancel]
  unfold unprotect
  rw [hpacket]
  dsimp only
  rw [if_neg, hcut, hcut', List.take_left, List.drop_left, if_neg, List.take_left, ← hsealed,
    CounterMode.apply_apply]
  . exact not_not.2 htag
  . rw [List.length_append]
    omega

theorem unprotect_protect (d : Direction) (hextended : p.extended = false) (htype : p.payloadType < 128)
    : d.unprotect (d.protect p) = .ok p := by
  unfold protect
  apply unprotect_append_tag
  intro payload
  exact Rtp.decode?_header_append hextended htype payload

theorem decode?_of_unprotect {d : Direction} {datagram : Bytes} (h : d.unprotect datagram = .ok p)
    : ∃ heard,
        Rtp.decode? datagram = some heard ∧ tagLength ≤ heard.payload.length ∧
        p = { heard with
          payload := CounterMode.apply d.keys.key (d.start heard.source heard.sequenceNumber)
            (heard.payload.take (heard.payload.length - tagLength)) } := by
  unfold unprotect at h
  split at h
  . simp at h
  . next heard hheard =>
    split at h
    . simp at h
    . next hroom =>
      dsimp only at h
      split at h
      . simp at h
      . rw [Except.ok.injEq] at h
        exact ⟨heard, hheard, not_lt.1 hroom, h.symm⟩

theorem version_of_wrongTag {d : Direction} {datagram : Bytes} (h : d.unprotect datagram = .error .wrongTag)
    : datagram.headD 0 &&& 0xC0 = 0x80 := by
  unfold unprotect at h
  split at h
  . simp at h
  . next heard hheard => exact Rtp.version_of_decode? hheard

theorem length_lt_of_unprotect_protect {d : Direction} {heard : Rtp.Packet} (hextended : p.extended = true)
    (htype : p.payloadType < 128) (h : d.unprotect (d.protect p) = .ok heard)
    : heard.payload.length < p.payload.length := by
  rcases decode?_of_unprotect h with ⟨read, hread, hroom, rfl⟩
  unfold protect at hread
  rw [List.append_assoc, Rtp.decode?_header htype, hextended, if_pos rfl, Option.map_eq_some_iff] at hread
  rcases hread with ⟨payload, hpayload, rfl⟩
  have hlength := Rtp.length_of_dropExtension? hpayload
  rw [List.length_append, CounterMode.length_apply, length_tag] at hlength
  rw [CounterMode.length_apply, List.length_take]
  dsimp only at hroom ⊢
  omega

end Direction

def Context.ofMasters (masters : MasterPair) : Context :=
  ⟨some (.ofMasters masters)⟩

theorem Context.version_of_wrongTag {c : Context} {datagram : Bytes} (h : c.unprotect datagram = .error .wrongTag)
    : datagram.headD 0 &&& 0xC0 = 0x80 := by
  unfold unprotect at h
  split at h
  . simp at h
  . exact Direction.version_of_wrongTag h

theorem Context.unprotect_of_decode?_eq_none (c : Context) {datagram : Bytes} (h : Rtp.decode? datagram = none)
    : c.unprotect datagram = .error (if c.hasKeys then .notRtp else .noKeys) := by
  unfold unprotect hasKeys
  cases c.keys with
  | none => rfl
  | some keys =>
    dsimp only
    unfold Direction.unprotect
    rw [h]
    rfl

theorem Keys.receive_ofMaterial_other (m : Octets materialLength) (side : Side)
    : (ofMasters (.ofMaterial m side.other)).receive = (ofMasters (.ofMaterial m side)).send := by
  unfold ofMasters
  rw [MasterPair.receive_ofMaterial_other]

end Srtp

namespace Handshake

open Srtp

theorem unprotect_protect_of_keysOf (material : Bytes) (side : Side) (p : Rtp.Packet)
    (hmaterial : material.length = materialLength) (hextended : p.extended = false) (htype : p.payloadType < 128)
    : ∃ masters peers datagram,
        keysOf side material = .ok masters ∧ keysOf side.other material = .ok peers ∧
        (Context.ofMasters masters).protect p = .ok datagram ∧
        (Context.ofMasters peers).unprotect datagram = .ok p ∧
        datagram.length = Rtp.headerLength + p.payload.length + tagLength ∧
        datagram.take Rtp.headerLength = p.encode.take Rtp.headerLength := by
  refine ⟨_, _, _, keysOf_eq_ok hmaterial side, keysOf_eq_ok hmaterial side.other, rfl, ?_, ?_, ?_⟩
  . unfold Context.unprotect Context.ofMasters
    dsimp only
    rw [Keys.receive_ofMaterial_other]
    exact Direction.unprotect_protect _ hextended htype
  . apply Direction.length_protect
  . rw [Direction.take_protect]
    unfold Rtp.Packet.encode
    rw [List.take_left' p.length_header]

section Sample

/-- The last packet before the sequence numbers start again. -/
def lastPacket : Rtp.Packet where
  padding := true
  extended := false
  marker := true
  payloadType := 111
  sequenceNumber := 65535
  timestamp := 0xFFFFFC40
  source := 0x10000001
  payload := [3, 1, 4, 1, 5, 9, 2, 6, 5, 3, 5, 8, 9, 7, 9, 3, 2]

theorem unprotect_protect_lastPacket
    : let material := (List.range 60).map UInt8.ofNat
      material.length = materialLength ∧ lastPacket.extended = false ∧ lastPacket.payloadType < 128 ∧
      ∃ masters peers datagram,
        keysOf .server material = .ok masters ∧ keysOf .client material = .ok peers ∧
        (Context.ofMasters masters).protect lastPacket = .ok datagram ∧
        (Context.ofMasters peers).unprotect datagram = .ok lastPacket ∧
        datagram.length = 39 ∧ datagram.take Rtp.headerLength = lastPacket.encode.take Rtp.headerLength := by
  intro material
  have hmaterial : material.length = materialLength := by decide
  have hextended : lastPacket.extended = false := rfl
  have htype : lastPacket.payloadType < 128 := by decide
  exact ⟨hmaterial, hextended, htype,
    unprotect_protect_of_keysOf material .server lastPacket hmaterial hextended htype⟩

end Sample

end Handshake

end Intercom
