import Mathlib
import Intercom.Proofs.Rtp.Canonical
import Intercom.Proofs.Srtp.RoundTrip

/-!
This module contains the main statement about what a receiver accepts: of the datagrams without contributing
sources and without an extension, those that a sender with its keys writes, octet for octet. They are the ones of
the right version that have room for a tag, and the right one there.
-/

namespace Intercom.Srtp

namespace Direction

variable {d : Direction} {datagram : Bytes} {p : Rtp.Packet}

theorem unprotect_eq_ok_iff
    : d.unprotect datagram = .ok p ↔
        ∃ heard,
          Rtp.decode? datagram = some heard ∧ tagLength ≤ heard.payload.length ∧
          datagram.drop (datagram.length - tagLength) = d.tag (datagram.take (datagram.length - tagLength)) ∧
          p = { heard with
            payload := CounterMode.apply d.keys.key (d.start heard.source heard.sequenceNumber)
              (heard.payload.take (heard.payload.length - tagLength)) } := by
  constructor
  . intro h
    unfold unprotect at h
    split at h
    . simp at h
    . next heard hheard =>
      split at h
      . simp at h
      . next hroom =>
        dsimp only at h
        split at h
        . simp at h
        . next htag =>
          rw [Except.ok.injEq] at h
          exact ⟨heard, hheard, not_lt.1 hroom, (not_not.1 htag).symm, h.symm⟩
  . intro h
    rcases h with ⟨heard, hheard, hroom, htag, rfl⟩
    unfold unprotect
    rw [hheard]
    dsimp only
    rw [if_neg (not_lt.2 hroom), if_neg (not_not.2 htag.symm)]

theorem unprotect_eq_wrongTag_iff
    : d.unprotect datagram = .error .wrongTag ↔
        ∃ heard,
          Rtp.decode? datagram = some heard ∧ tagLength ≤ heard.payload.length ∧
          datagram.drop (datagram.length - tagLength) ≠ d.tag (datagram.take (datagram.length - tagLength)) := by
  unfold unprotect
  cases Rtp.decode? datagram with
  | none => simp
  | some heard =>
    dsimp only
    split
    . next hroom =>
      simp
      omega
    . next hroom =>
      split
      . next htag => simp [not_lt.1 hroom, Ne.symm htag]
      . next htag => simp [not_not.1 htag]

theorem protect_of_unprotect (hplain : Rtp.Plain datagram) (h : d.unprotect datagram = .ok p)
    : d.protect p = datagram := by
  rw [unprotect_eq_ok_iff] at h
  rcases h with ⟨heard, hheard, hroom, htag, rfl⟩
  rw [Rtp.decode?_eq_some_iff hplain] at hheard
  rcases hheard with ⟨-, -, hencode⟩
  have hpacket : heard.header ++ heard.payload.take (heard.payload.length - tagLength) =
      datagram.take (datagram.length - tagLength) := by
    have hcut : heard.encode.length - tagLength = heard.header.length + (heard.payload.length - tagLength) := by
      rw [Rtp.Packet.length_encode, Rtp.Packet.length_header]
      unfold Rtp.Packet.size
      omega
    rw [← hencode, hcut]
    unfold Rtp.Packet.encode
    rw [List.take_length_add_append]
  unfold protect
  rw [CounterMode.apply_apply]
  -- The payload is no part of the header.
  change heard.header ++ _ ++ d.tag (heard.header ++ _) = datagram
  rw [hpacket, ← htag, List.take_append_drop]

theorem plain_protect (d : Direction) (hextended : p.extended = false) : Rtp.Plain (d.protect p) := by
  rcases p.flags_and with ⟨-, hsources, hextension, -⟩
  have hhead : (d.protect p).headD 0 = p.flags := rfl
  constructor
  . rw [hhead]
    exact hsources
  . rw [hhead]
    by_contra hbit
    rw [← ne_eq, hextension, hextended] at hbit
    simp at hbit

theorem exists_unprotect_iff (hplain : Rtp.Plain datagram)
    : (∃ p, d.unprotect datagram = .ok p) ↔
        datagram.headD 0 &&& 0xC0 = 0x80 ∧ Rtp.headerLength + tagLength ≤ datagram.length ∧
        datagram.drop (datagram.length - tagLength) = d.tag (datagram.take (datagram.length - tagLength)) := by
  have hlength {heard : Rtp.Packet} (hheard : Rtp.decode? datagram = some heard)
      : datagram.length = Rtp.headerLength + heard.payload.length := by
    rw [Rtp.decode?_eq_some_iff hplain] at hheard
    rw [← hheard.2.2, Rtp.Packet.length_encode]
    rfl
  constructor
  . intro h
    rcases h with ⟨p, hp⟩
    rw [unprotect_eq_ok_iff] at hp
    rcases hp with ⟨heard, hheard, hroom, htag, -⟩
    refine ⟨Rtp.version_of_decode? hheard, ?_, htag⟩
    rw [hlength hheard]
    omega
  . intro h
    rcases h with ⟨hversion, hroom, htag⟩
    rcases (Rtp.exists_decode?_iff hplain).2 ⟨hversion, by omega⟩ with ⟨heard, hheard⟩
    refine ⟨_, unprotect_eq_ok_iff.2 ⟨heard, hheard, ?_, htag, rfl⟩⟩
    rw [hlength hheard] at hroom
    omega

end Direction

/-- What makes the tag of a packet as long as no sequence number has started again: ten octets of the code over the
packet and four zero octets. -/
def firstTag (master : Master) (packet : Bytes) : Bytes :=
  (Hmac.sha1 ((SessionKeys.derive master).auth.bytes.take 20) (packet ++ [0, 0, 0, 0])).bytes.take 10

theorem Direction.tag_ofMaster (master : Master) (packet : Bytes)
    : (Direction.ofMaster master).tag packet = firstTag master packet := by
  have hzeros : Bytes.ofNat 4 (0 : UInt32).toNat = [0, 0, 0, 0] := rfl
  unfold tag ofMaster firstTag tagLength
  dsimp only
  rw [hzeros]

theorem accepts_only_protected (masters : MasterPair) (datagram : Bytes) (hsources : datagram.headD 0 &&& 0x0F = 0)
    (hextension : datagram.headD 0 &&& 0x10 = 0)
    : (∀ p, (Context.ofMasters masters).unprotect datagram = .ok p →
        ∀ (holder : Context) (keys : Keys),
          holder.keys = some keys → keys.send = (Keys.ofMasters masters).receive →
          holder.protect p = .ok datagram) ∧
      ((∃ p, (Context.ofMasters masters).unprotect datagram = .ok p) ↔
        datagram.headD 0 &&& 0xC0 = 0x80 ∧ 22 ≤ datagram.length ∧
        datagram.drop (datagram.length - 10) =
          firstTag masters.receive (datagram.take (datagram.length - 10))) := by
  have hplain : Rtp.Plain datagram := ⟨hsources, hextension⟩
  constructor
  . intro p hp holder keys hkeys hsend
    unfold Context.protect
    rw [hkeys, Except.ok.injEq, hsend]
    exact Direction.protect_of_unprotect hplain hp
  . unfold Context.ofMasters Context.unprotect Keys.ofMasters
    dsimp only
    rw [Direction.exists_unprotect_iff hplain, Direction.tag_ofMaster]
    rfl

theorem accepts_only_protected_lastPacket
    : let masters := MasterPair.ofMaterial ⟨(List.range 60).map UInt8.ofNat, rfl⟩ .server
      let datagram := (Direction.ofMaster masters.receive).protect Handshake.lastPacket
      datagram.headD 0 &&& 0x0F = 0 ∧ datagram.headD 0 &&& 0x10 = 0 ∧
      (∃ p, (Context.ofMasters masters).unprotect datagram = .ok p) ∧
      datagram.length = 39 ∧
      datagram.drop 29 = firstTag masters.receive (datagram.take 29) ∧
      (⟨some ⟨(Keys.ofMasters masters).receive, (Keys.ofMasters masters).send⟩⟩ : Context).protect
        Handshake.lastPacket = .ok datagram := by
  intro masters datagram
  rcases Direction.plain_protect (p := Handshake.lastPacket) (.ofMaster masters.receive) rfl with ⟨hsources, hextension⟩
  have hlength : datagram.length = 39 := Direction.length_protect _ _
  have hread : (Context.ofMasters masters).unprotect datagram = .ok Handshake.lastPacket :=
    Direction.unprotect_protect (Direction.ofMaster masters.receive) (p := Handshake.lastPacket) rfl (by decide)
  rcases accepts_only_protected masters datagram hsources hextension with ⟨hholder, haccepts⟩
  have htag := (haccepts.1 ⟨_, hread⟩).2.2
  rw [hlength] at htag
  exact ⟨hsources, hextension, ⟨_, hread⟩, hlength, htag, hholder _ hread _ _ rfl rfl⟩

end Intercom.Srtp
