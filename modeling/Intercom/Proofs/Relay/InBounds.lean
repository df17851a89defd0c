import Mathlib
import Intercom.Proofs.Srtp.Checked
import Intercom.Proofs.Stun.Checked

/-!
This module contains the main statement about the places in received datagrams: whatever a datagram contains, reading it
ends without a fault.
-/

namespace Intercom.Relay

open Checked (fault ofExcept ofOption)

/-- Messages, addresses, packets and protected packets are read without a fault, and with the same result as without
places. The loop over the attributes of a message goes on by four octets each time and not past the declared end, and
where there is room for a tag it does not overlap the header with its contributing sources and its extension. -/
theorem reads_in_bounds
    : (∀ datagram,
        (∀ f, Stun.decodeChecked datagram ≠ fault f) ∧
        Stun.decodeChecked datagram = ofExcept (Stun.decode datagram)) ∧
      (∀ datagram m stop, Stun.headerChecked datagram = .ok (m, stop) →
        stop = Stun.headerLength + Stun.declaredLength datagram ∧ stop ≤ datagram.length ∧
        ∀ k place r, Stun.Comes datagram stop ⟨m, none⟩ k place r →
          Stun.headerLength + 4 * k ≤ place ∧ place ≤ stop ∧
          ∀ next, Stun.advance datagram stop place r = .ok next → place + 4 ≤ next.next ∧ next.next ≤ stop) ∧
      (∀ type value id,
        (∀ f, Stun.addressChecked type value id ≠ fault f) ∧
        Stun.addressChecked type value id =
          ofOption (.malformedAttribute type) (Stun.decodeAddress? (Stun.Mask.ofTransaction? id) value)) ∧
      (∀ bs offset,
        (∀ f, Rtp.decodeChecked Srtp.Error.notRtp bs offset ≠ fault f) ∧
        Rtp.decodeChecked Srtp.Error.notRtp bs offset = ofOption .notRtp (Rtp.decodeAt? bs offset)) ∧
      (∀ (c : Srtp.Context) datagram,
        (∀ f, c.unprotectChecked datagram ≠ fault f) ∧
        c.unprotectChecked datagram = ofExcept (c.unprotect datagram)) ∧
      (∀ datagram p, Rtp.decode? datagram = some p → Srtp.tagLength ≤ p.payload.length →
        let tag := datagram.drop (datagram.length - Srtp.tagLength)
        tag.length = Srtp.tagLength ∧
        ∃ header : Rtp.Header, ∃ body,
          datagram = header.bytes ++ (body ++ tag) ∧ p.payload = body ++ tag ∧ p = header.packet p.payload) := by
  refine ⟨?_, ?_, ?_, ?_, ?_, ?_⟩
  . intro datagram
    rw [Stun.decodeChecked_eq]
    exact ⟨Checked.ofExcept_ne_fault _, rfl⟩
  . intro datagram m stop h
    rcases Stun.headerChecked_eq_ok h with ⟨hstop, hle⟩
    refine ⟨hstop, hle, ?_⟩
    intro k place r hcomes
    rcases hcomes.bounds (by omega) with ⟨hplace, hend⟩
    exact ⟨hplace, hend, fun next hnext => Stun.advance_next hnext⟩
  . intro type value id
    rw [Stun.addressChecked_eq]
    exact ⟨Checked.ofOption_ne_fault _ _, rfl⟩
  . intro bs offset
    rw [Rtp.decodeChecked_eq]
    exact ⟨Checked.ofOption_ne_fault _ _, rfl⟩
  . intro c datagram
    rw [c.unprotectChecked_eq]
    exact ⟨Checked.ofExcept_ne_fault _, rfl⟩
  . intro datagram p hdecoded hroom
    rcases Rtp.tag_behind_header hdecoded hroom with ⟨header, body, hdatagram, hpacket, hpayload, hlength⟩
    exact ⟨hlength, header, body, hdatagram, hpayload, hpacket⟩

section Sample

/-- A packet behind a header with a contributing source and an extension; its payload is little longer than a tag. -/
def sampleShort : Bytes :=
  Rtp.Header.sampleHeader.bytes ++ List.replicate 12 7

theorem reads_in_bounds_sampleShort
    : (∃ m stop next,
        Stun.headerChecked Stun.samplePadded = .ok (m, stop) ∧ stop ≤ Stun.samplePadded.length ∧
        Stun.advance Stun.samplePadded stop 20 ⟨m, none⟩ = .ok next ∧ 24 ≤ next.next ∧ next.next ≤ stop) ∧
      ∃ header : Rtp.Header, ∃ body, sampleShort = header.bytes ++ (body ++ List.replicate 10 7) := by
  rcases reads_in_bounds with ⟨-, hloop, -, -, -, htag⟩
  constructor
  . have hcheck : (match Stun.headerChecked Stun.samplePadded with
        | .ok (m, stop) => (Stun.advance Stun.samplePadded stop 20 ⟨m, none⟩).isOk
        | .error _ => false) = true := by
      decide +kernel
    split at hcheck
    . next m stop hheader =>
      rcases hloop _ m stop hheader with ⟨-, hle, hiterations⟩
      cases hadvance : Stun.advance Stun.samplePadded stop 20 ⟨m, none⟩ with
      | ok next =>
        rcases hiterations 0 20 ⟨m, none⟩ .start with ⟨-, -, hnext⟩
        exact ⟨m, stop, next, hheader, hle, hadvance, hnext next hadvance⟩
      | error e =>
        rw [hadvance] at hcheck
        simp [Except.isOk, Except.toBool] at hcheck
    . simp at hcheck
  . have hdecoded := Rtp.Header.sampleHeader.decode?_bytes (List.replicate 12 7)
    rcases htag sampleShort _ hdecoded (by decide) with ⟨-, header, body, hbytes, -⟩
    exact ⟨header, body, hbytes⟩

end Sample

end Intercom.Relay
