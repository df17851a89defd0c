import Mathlib
import Intercom.Stun.Attribute.Lemmas

/-!
This module contains that attributes which are written are read back: a row of them, and each of the
shapes that their values have. A row of octets is the row of one list of attributes at most.
-/

namespace Intercom

theorem Octets.masked_masked {n m : Nat} (o : Octets n) (mask : Octets m) (h : n ≤ m)
    : (o.masked mask h).masked mask h = o := by
  rcases o with ⟨bytes, hlength⟩
  unfold masked
  simp only [Octets.mk.injEq]
  apply Bytes.xor_xor
  rw [hlength, mask.length_eq]
  exact h

theorem Octets.cut?_append {n : Nat} (o : Octets n) (rest : Bytes)
    : Bytes.cut? n (o.bytes ++ rest) = some (o.bytes, rest) := by
  rw [Bytes.cut?_eq_some_iff]
  exact ⟨o.length_eq, rfl⟩

namespace Stun

theorem number?_ofNat {width x : Nat} (h : x < 256 ^ width) : number? width (Bytes.ofNat width x) = some x := by
  unfold number?
  have hoctets : Octets.ofBytes? width (Bytes.ofNat width x) = some (Octets.ofNat width x) :=
    Octets.ofBytes?_bytes (Octets.ofNat width x)
  rw [hoctets, Option.map_some]
  exact congrArg some (Bytes.toNat_ofNat_of_lt h)

/-- Flow and scope are lost on the way, whatever the mask. -/
theorem decodeAddress?_encodeAddress (mask : Mask) (e : Endpoint)
    : decodeAddress? mask (encodeAddress mask e) = some e.bare := by
  have hport : UInt16.ofNat (Bytes.toNat (Octets.ofNat 2 e.port.toNat).bytes) = e.port := by
    unfold Octets.ofNat
    rw [Bytes.toNat_ofNat_of_lt]
    . exact UInt16.ofNat_toNat
    . exact e.port.toNat_lt
  unfold Endpoint.bare encodeAddress decodeAddress?
  cases e.ip with
  | v4 octets => simp [Octets.cut?_append, Octets.masked_masked, hport]
  | v6 octets => simp [Octets.cut?_append, Octets.masked_masked, hport]

namespace Attribute

/-- The length field can tell how long the value is, and the padding is as long as it says. -/
structure Fits (a : Attribute) : Prop where
  value : a.value.length < 0x10000
  padding : a.padding.length = paddingLength a.value.length

theorem length_bytes (a : Attribute)
    : a.bytes.length = 4 + a.value.length + a.padding.length := by
  unfold bytes
  simp only [List.length_append, Bytes.length_ofNat]

theorem fits_ofValue {role : Role} {value : Bytes} (h : value.length < 0x10000) : (ofValue role value).Fits := by
  constructor
  . exact h
  . unfold ofValue
    rw [List.length_replicate]

theorem fits_of_read {bs rest : Bytes} {a : Attribute} (h : read bs = .ok (a, rest)) : a.Fits := by
  unfold read at h
  split at h
  . simp at h
  . next head body hhead =>
    have hhead := (Bytes.cut?_eq_some_iff.1 hhead).1
    have hlt := Bytes.toNat_lt (head.drop 2)
    rw [List.length_drop, hhead] at hlt
    dsimp only at h
    split at h
    . simp at h
    . next value tail hvalue =>
      have hvalue := (Bytes.cut?_eq_some_iff.1 hvalue).1
      split at h
      . simp at h
      . next padding last hpadding =>
        have hpadding := (Bytes.cut?_eq_some_iff.1 hpadding).1
        rw [Except.ok.injEq, Prod.mk.injEq] at h
        rw [← h.1]
        constructor
        . dsimp only
          omega
        . dsimp only
          rw [hvalue, hpadding]

theorem fits_of_scan {bs : Bytes} {as : List Attribute} {fault : Option Error} (h : scan bs = (as, fault))
    : ∀ a ∈ as, a.Fits := by
  fun_induction scan bs generalizing as fault with
  | case1 bs hbs =>
    rw [Prod.mk.injEq] at h
    rw [← h.1]
    simp
  | case2 bs hbs e he =>
    rw [Prod.mk.injEq] at h
    rw [← h.1]
    simp
  | case3 bs hbs a rest hread as' fault' hscan ih =>
    rw [Prod.mk.injEq] at h
    rw [← h.1]
    intro b hb
    rw [List.mem_cons] at hb
    rcases hb with hb | hb
    . rw [hb]
      exact fits_of_read hread
    . exact ih hscan b hb

theorem read_bytes {a : Attribute} (h : a.Fits) (rest : Bytes) : read (a.bytes ++ rest) = .ok (a, rest) := by
  rcases a with ⟨type, value, padding⟩
  have hvalue := h.value
  have hpadding := h.padding
  dsimp only at hvalue hpadding
  have hhead : Bytes.cut? 4 ((bytes ⟨type, value, padding⟩) ++ rest) =
      some (Bytes.ofNat 2 type.toNat ++ Bytes.ofNat 2 value.length, value ++ (padding ++ rest)) := by
    rw [Bytes.cut?_eq_some_iff]
    simp [bytes]
  have htype : Bytes.toNat (Bytes.ofNat 2 type.toNat) = type.toNat := by
    apply Bytes.toNat_ofNat_of_lt
    exact type.toNat_lt
  have hlength : Bytes.toNat (Bytes.ofNat 2 value.length) = value.length := by
    apply Bytes.toNat_ofNat_of_lt
    exact hvalue
  have htake : (Bytes.ofNat 2 type.toNat ++ Bytes.ofNat 2 value.length).take 2 = Bytes.ofNat 2 type.toNat := by
    apply List.take_left'
    apply Bytes.length_ofNat
  have hdrop : (Bytes.ofNat 2 type.toNat ++ Bytes.ofNat 2 value.length).drop 2 = Bytes.ofNat 2 value.length := by
    apply List.drop_left'
    apply Bytes.length_ofNat
  unfold read
  rw [hhead]
  dsimp only
  rw [htake, hdrop, htype, hlength, Bytes.cut?_append]
  dsimp only
  rw [← hpadding, Bytes.cut?_append, UInt16.ofNat_toNat]

theorem scan_bytes {as : List Attribute} (h : ∀ a ∈ as, a.Fits) : scan (as.flatMap bytes) = (as, none) := by
  induction as with
  | nil =>
    unfold scan
    simp
  | cons a as ih =>
    have hempty : ¬ (a.bytes ++ as.flatMap bytes).isEmpty := by
      intro hnil
      rw [List.isEmpty_iff_length_eq_zero, List.length_append, length_bytes] at hnil
      omega
    have hread := read_bytes (h a List.mem_cons_self) (as.flatMap bytes)
    rw [List.flatMap_cons]
    unfold scan
    rw [if_neg hempty]
    split
    . next e he =>
      rw [hread] at he
      simp at he
    . next b rest hok =>
      rw [hread, Except.ok.injEq, Prod.mk.injEq] at hok
      rw [← hok.1, ← hok.2, ih]
      intro b hb
      exact h b (List.mem_cons_of_mem a hb)

theorem flatMap_bytes_injective {as bs : List Attribute} (has : ∀ a ∈ as, a.Fits) (hbs : ∀ b ∈ bs, b.Fits)
    (h : as.flatMap bytes = bs.flatMap bytes) : as = bs := by
  have hscan := scan_bytes has
  rw [h, scan_bytes hbs, Prod.mk.injEq] at hscan
  exact hscan.1.symm

end Attribute

end Stun

end Intercom
