import Mathlib
import Intercom.Bytes.Lemmas
import Intercom.Net.EndpointText
import Intercom.Proofs.Json.Tokens

/-!
This module contains the texts in which addresses are written: four octets in decimal, or groups of hexadecimal
digits, of which a run of zeros may be left out and the last two may be four octets.
-/

namespace Intercom

open Text (natOf)

def Octets.dotted (octets : Octets 4) : List Char :=
  List.intercalate ['.'] (octets.bytes.map fun b => Nat.toDigits 10 b.toNat)

namespace Ipv6Text

structure Group where
  digits : List Char
  ne_nil : digits ≠ []
  length_le : digits.length ≤ 4
  isDigit : ∀ c ∈ digits, (Hex.value? c).isSome

def Group.octets (g : Group) : Bytes :=
  Bytes.ofNat 2 (natOf 16 (g.digits.filterMap Hex.value?))

/-- Groups with colons between them, and perhaps an IPv4 address in the place of two more. -/
structure Row where
  groups : List Group
  last : Option (Octets 4) := none

namespace Row

def pieces (row : Row) : List (List Char) :=
  row.groups.map Group.digits ++ row.last.toList.map Octets.dotted

def chars (row : Row) : List Char :=
  List.intercalate [':'] row.pieces

def octets (row : Row) : Bytes :=
  row.groups.flatMap Group.octets ++ row.last.toList.flatMap Octets.bytes

/-- Counted in groups. -/
def size (row : Row) : Nat :=
  row.groups.length + 2 * row.last.toList.length

theorem length_octets (row : Row) : row.octets.length = 2 * row.size := by
  have hgroups : (row.groups.flatMap Group.octets).length = 2 * row.groups.length := by
    simp [List.length_flatMap, Group.octets, Nat.mul_comm]
  have hlast : (row.last.toList.flatMap Octets.bytes).length = 4 * row.last.toList.length := by
    cases row.last with
    | none => rfl
    | some octets => simp [octets.length_eq]
  unfold octets size
  rw [List.length_append, hgroups, hlast]
  omega

end Row

end Ipv6Text

/-- Eight groups, or fewer around two colons that stand for zeros. Only the end may be an IPv4 address. -/
inductive Ipv6Text where
  | full (row : Ipv6Text.Row) (size_eq : row.size = 8)
  | short (front back : Ipv6Text.Row) (last_eq : front.last = none) (size_le : front.size + back.size ≤ 7)

namespace Ipv6Text

def chars : Ipv6Text → List Char
  | .full row _ => row.chars
  | .short front back _ _ => front.chars ++ ':' :: ':' :: back.chars

def octets : Ipv6Text → Octets 16
  | .full row h => ⟨row.octets, by rw [row.length_octets, h]⟩
  | .short front back _ h =>
    ⟨front.octets ++ List.replicate (2 * (8 - front.size - back.size)) 0 ++ back.octets, by
      rw [List.length_append, List.length_append, List.length_replicate, Row.length_octets, Row.length_octets]
      omega⟩

end Ipv6Text

inductive AddressText where
  | v4 (octets : Octets 4)
  | v6 (text : Ipv6Text)

namespace AddressText

def chars : AddressText → List Char
  | .v4 octets => octets.dotted
  | .v6 text => text.chars

def text (t : AddressText) : String :=
  String.ofList t.chars

def address : AddressText → IpAddress
  | .v4 octets => .v4 octets
  | .v6 text => .v6 text.octets

end AddressText

namespace Ipv6Text

theorem digits_pair {a b : UInt8} {n : Nat} (h : n ∈ [a.toNat / 16, a.toNat % 16, b.toNat / 16, b.toNat % 16])
    : n < 16 := by
  have ha := a.toNat_lt
  have hb := b.toNat_lt
  simp at h
  omega

def Group.ofPair (a b : UInt8) : Group where
  digits := [a.toNat / 16, a.toNat % 16, b.toNat / 16, b.toNat % 16].map Hex.digit
  ne_nil := by simp
  length_le := by simp
  isDigit := by
    intro c hc
    rcases List.mem_map.1 hc with ⟨n, hn, rfl⟩
    rw [Hex.value?_digit (digits_pair hn)]
    rfl

theorem Group.octets_ofPair (a b : UInt8) : (ofPair a b).octets = [a, b] := by
  have hvalues : (ofPair a b).digits.filterMap Hex.value? =
      [a.toNat / 16, a.toNat % 16, b.toNat / 16, b.toNat % 16] := by
    unfold ofPair
    rw [List.filterMap_map]
    exact (List.filterMap_congr fun n hn => Hex.value?_digit (digits_pair hn)).trans List.filterMap_some
  have hvalue : natOf 16 [a.toNat / 16, a.toNat % 16, b.toNat / 16, b.toNat % 16] = Bytes.toNat [a, b] := by
    simp [natOf, Bytes.toNat]
    omega
  unfold octets
  rw [hvalues, hvalue]
  exact Bytes.ofNat_toNat [a, b]

def groupsOf : Bytes → List Group
  | a :: b :: bs => Group.ofPair a b :: groupsOf bs
  | _ => []

theorem flatMap_groupsOf (bs : Bytes) (h : bs.length % 2 = 0)
    : (groupsOf bs).flatMap Group.octets = bs ∧ 2 * (groupsOf bs).length = bs.length := by
  induction bs using groupsOf.induct with
  | case1 a b bs ih =>
    rw [List.length_cons, List.length_cons] at h
    rcases ih (by omega) with ⟨hoctets, hlength⟩
    unfold groupsOf
    rw [List.flatMap_cons, Group.octets_ofPair, hoctets, List.length_cons, List.length_cons, List.length_cons]
    exact ⟨rfl, by omega⟩
  | case2 bs hbs =>
    match bs with
    | [] => exact ⟨rfl, rfl⟩
    | [_] => simp at h
    | a :: b :: bs => exact absurd rfl (hbs a b bs)

end Ipv6Text

theorem AddressText.exists_text (a : IpAddress) : ∃ t : AddressText, t.address = a := by
  cases a with
  | v4 octets => exact ⟨.v4 octets, rfl⟩
  | v6 octets =>
    rcases octets with ⟨bytes, hbytes⟩
    rcases Ipv6Text.flatMap_groupsOf bytes (by rw [hbytes]) with ⟨hoctets, hlength⟩
    have hsize : Ipv6Text.Row.size ⟨Ipv6Text.groupsOf bytes, none⟩ = 8 := by
      change (Ipv6Text.groupsOf bytes).length = 8
      omega
    have hrow : Ipv6Text.Row.octets ⟨Ipv6Text.groupsOf bytes, none⟩ = bytes := by
      unfold Ipv6Text.Row.octets
      rw [hoctets]
      exact List.append_nil bytes
    refine ⟨.v6 (.full ⟨Ipv6Text.groupsOf bytes, none⟩ hsize), ?_⟩
    unfold address Ipv6Text.octets
    simp only [hrow]

end Intercom
