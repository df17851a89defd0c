import Mathlib
import Intercom.Proofs.Net.AddressReading
import Intercom.Settings.Reading

/-!
This module contains which addresses the server can listen on as they are written: the IPv4 addresses. An IPv6
address runs together with the port, unless it stands in brackets.
-/

namespace Intercom.Settings

open Endpoint.Text (glued bracketed)

def listeningOn (s : Settings) (address : String) : Settings :=
  { s with network := { s.network with bindAddress := address } }

/-- All parts listen on the address, each on its own port. -/
structure Binds (s : Settings) (address : IpAddress) : Prop where
  relay : s.relayEndpoint = .ok (.of address s.network.relayPort)
  stun : s.stunEndpoint =
    if s.network.stunPort = 0 then .ok none else .ok (some (.of address s.network.stunPort))
  signaling : s.signalingEndpoint = .ok (.of address s.network.signalingPort)

def bindError (s : Settings) (port : UInt16) : BindError :=
  ⟨s.network.bindAddress ++ ":" ++ toString port.toNat⟩

structure Refuses (s : Settings) : Prop where
  relay : s.relayEndpoint = .error (s.bindError s.network.relayPort)
  stun : s.stunEndpoint =
    if s.network.stunPort = 0 then .ok none else .error (s.bindError s.network.stunPort)
  signaling : s.signalingEndpoint = .error (s.bindError s.network.signalingPort)

variable {s : Settings} {address : IpAddress} {port : UInt16} {endpoint : Endpoint} {t : Ipv6Text}

theorem toList_text (address : String) (port : UInt16)
    : (address ++ ":" ++ toString port.toNat).toList = glued address.toList port := by
  have hport : (toString port.toNat).toList = Nat.toDigits 10 port.toNat := String.toList_ofList
  unfold glued
  rw [String.toList_append, String.toList_append, List.append_assoc, hport]
  rfl

theorem endpoint_of_some
    (h : Endpoint.ofText? (s.network.bindAddress ++ ":" ++ toString port.toNat) = some endpoint)
    : s.endpoint port = .ok endpoint := by
  unfold Settings.endpoint
  dsimp only
  rw [h]

theorem endpoint_of_none (h : Endpoint.ofText? (s.network.bindAddress ++ ":" ++ toString port.toNat) = none)
    : s.endpoint port = .error (s.bindError port) := by
  unfold Settings.endpoint
  dsimp only
  rw [h]
  rfl

theorem binds_of_endpoint (h : ∀ port, s.endpoint port = .ok (.of address port)) : s.Binds address where
  relay := h _
  stun := by
    unfold stunEndpoint
    rw [h]
    rfl
  signaling := h _

theorem refuses_of_endpoint (h : ∀ port, s.endpoint port = .error (s.bindError port)) : s.Refuses where
  relay := h _
  stun := by
    unfold stunEndpoint
    rw [h]
    rfl
  signaling := h _

theorem binds_dotted {octets : Octets 4} (h : s.network.bindAddress.toList = octets.dotted)
    : s.Binds (.v4 octets) := by
  apply binds_of_endpoint
  intro port
  apply endpoint_of_some
  apply Endpoint.ofText?_dotted
  rw [toList_text, h]

theorem refuses_chars (h : s.network.bindAddress.toList = t.chars) : s.Refuses := by
  apply refuses_of_endpoint
  intro port
  apply endpoint_of_none
  apply Endpoint.ofText?_chars
  rw [toList_text, h]

theorem binds_bracketed (h : s.network.bindAddress.toList = bracketed t) : s.Binds (.v6 t.octets) := by
  apply binds_of_endpoint
  intro port
  apply endpoint_of_some
  apply Endpoint.ofText?_bracketed
  rw [toList_text, h]

theorem Refuses.not_binds (h : s.Refuses) (address : IpAddress) : ¬ s.Binds address := by
  intro hbinds
  have := h.relay.symm.trans hbinds.relay
  contradiction

theorem refuses_text (s : Settings) (t : Ipv6Text) : (s.listeningOn (AddressText.v6 t).text).Refuses :=
  refuses_chars (t := t) String.toList_ofList

theorem toList_brackets (t : Ipv6Text) : ("[" ++ (AddressText.v6 t).text ++ "]").toList = bracketed t := by
  rw [String.toList_append, String.toList_append]
  change ['['] ++ (String.ofList t.chars).toList ++ [']'] = _
  rw [String.toList_ofList]
  rfl

/-- An address in its own text is listened on if it is an IPv4 address. An IPv6 address is refused, and listened on
if brackets are written around it. -/
theorem binds_text_iff (s : Settings)
    : (∀ t : AddressText, (s.listeningOn t.text).Binds t.address ↔ ∃ octets, t = .v4 octets) ∧
      (∀ t : Ipv6Text, (s.listeningOn (AddressText.v6 t).text).Refuses ∧
        (s.listeningOn ("[" ++ (AddressText.v6 t).text ++ "]")).Binds (.v6 t.octets)) := by
  refine ⟨?_, fun t => ⟨refuses_text s t, binds_bracketed (toList_brackets t)⟩⟩
  intro t
  cases t with
  | v4 octets => exact ⟨fun _ => ⟨octets, rfl⟩, fun _ => binds_dotted String.toList_ofList⟩
  | v6 t =>
    refine ⟨fun h => absurd h ((refuses_text s t).not_binds _), ?_⟩
    rintro ⟨octets, h⟩
    contradiction

def one : Ipv6Text.Group where
  digits := ['1']
  ne_nil := by simp
  length_le := by simp
  isDigit := by
    intro c hc
    rw [List.mem_singleton.1 hc]
    rfl

def loopback : Ipv6Text :=
  .short ⟨[], none⟩ ⟨[one], none⟩ rfl (by decide)

def loopbackFile : Bytes :=
  Utf8.encode "[netzwerk]\nbind_adresse = \"::1\"\n"

theorem not_binds_loopback
    : (AddressText.v6 loopback).text = "::1" ∧ ofFile (some loopbackFile) = .ok (listeningOn {} "::1") ∧
      (listeningOn {} "::1").relayEndpoint = .error ⟨"::1:18500"⟩ ∧
      ¬ (listeningOn {} "::1").Binds (AddressText.v6 loopback).address := by
  have hrefused : (listeningOn {} "::1").relayEndpoint = .error ⟨"::1:18500"⟩ := by decide +kernel
  refine ⟨by decide +kernel, by decide +kernel, hrefused, ?_⟩
  intro hbinds
  have := hrefused.symm.trans hbinds.relay
  contradiction

end Intercom.Settings
