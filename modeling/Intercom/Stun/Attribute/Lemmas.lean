import Mathlib
import Intercom.Bytes.Lemmas
import Intercom.Stun.Attribute

/-!
This module contains what reading a row of attributes keeps: every octet of it is found again in the
attributes.
-/

namespace Intercom.Stun.Attribute

theorem eq_append_of_read {bs rest : Bytes} {a : Attribute} (h : read bs = .ok (a, rest)) :
    bs = a.bytes ++ rest := by
  unfold read at h
  split at h
  · simp at h
  next head body hhead =>
    obtain ⟨hlen, rfl⟩ := Bytes.cut?_eq_some_iff.1 hhead
    dsimp only at h
    split at h
    · simp at h
    next value tail hvalue =>
      obtain ⟨hv, rfl⟩ := Bytes.cut?_eq_some_iff.1 hvalue
      split at h
      · simp at h
      next padding last hpadding =>
        obtain ⟨-, rfl⟩ := Bytes.cut?_eq_some_iff.1 hpadding
        simp only [Except.ok.injEq, Prod.mk.injEq] at h
        obtain ⟨rfl, rfl⟩ := h
        have htake : Bytes.ofNat 2 (Bytes.toNat (head.take 2)) = head.take 2 := by
          have := Bytes.ofNat_toNat (head.take 2)
          simpa [hlen] using this
        have hdrop : Bytes.ofNat 2 (Bytes.toNat (head.drop 2)) = head.drop 2 := by
          have := Bytes.ofNat_toNat (head.drop 2)
          simpa [hlen] using this
        have htype : (UInt16.ofNat (Bytes.toNat (head.take 2))).toNat = Bytes.toNat (head.take 2) := by
          rw [UInt16.toNat_ofNat']
          apply Nat.mod_eq_of_lt
          have := Bytes.toNat_lt (head.take 2)
          simpa [hlen] using this
        simp only [bytes, htype, hv, htake, hdrop, List.append_assoc]
        rw [← List.append_assoc (head.take 2), List.take_append_drop]

theorem scan_flatMap_bytes {bs : Bytes} {as : List Attribute} (h : scan bs = (as, none)) :
    as.flatMap bytes = bs := by
  fun_induction scan bs generalizing as with
  | case1 bs hbs => simp_all
  | case2 bs hbs e he => simp at h
  | case3 bs hbs a rest hread as' fault ih1 ih2 =>
    simp only [Prod.mk.injEq] at h
    obtain ⟨rfl, rfl⟩ := h
    rw [List.flatMap_cons, ih2 ih1, eq_append_of_read hread]

end Intercom.Stun.Attribute
