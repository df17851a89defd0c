import Mathlib
import Intercom.Proofs.Stun.Coverage
import Intercom.Proofs.Stun.Grammar

/-!
This module contains the main statement about which datagrams are STUN messages: a datagram is read exactly if
its front is in the grammar, and then what is read is what the grammar says, whatever the padding and the
octets behind the declared length are.
-/

namespace Intercom.Stun

theorem isSome_number?_iff {α : Type} {width : Nat} (ofNat : Nat → α) (value : Bytes)
    : ((number? width value).map ofNat).isSome ↔ value.length = width := by
  unfold number?
  rw [Option.isSome_map, Option.isSome_map]
  exact isSome_ofBytes?_iff

theorem isSome_decodeAddress?_iff (mask : Mask) (value : Bytes)
    : (decodeAddress? mask value).isSome ↔
        (value.length = 8 ∧ value[1]? = some 1) ∨ (value.length = 20 ∧ value[1]? = some 2) := by
  match value with
  | [] => simp [decodeAddress?]
  | [_] => simp [decodeAddress?]
  | [_, _] => simp [decodeAddress?, Bytes.cut?]
  | [_, _, _] => simp [decodeAddress?, Bytes.cut?]
  | _ :: family :: b :: c :: rest =>
    unfold decodeAddress?
    have hport : Octets.ofBytes? 2 [b, c] = some ⟨[b, c], rfl⟩ := rfl
    have hfour : (Octets.ofBytes? 4 rest).isSome ↔ rest.length = 4 := isSome_ofBytes?_iff
    have hsixteen : (Octets.ofBytes? 16 rest).isSome ↔ rest.length = 16 := isSome_ofBytes?_iff
    simp only [Bytes.cut?, Option.map_some, Option.bind_eq_bind, Option.bind_some, hport, List.length_cons,
      List.getElem?_cons_succ, List.getElem?_cons_zero, Option.some.injEq]
    by_cases hone : family = 1
    . rw [if_pos hone, Option.isSome_bind]
      simp [hone, hfour]
    . rw [if_neg hone]
      by_cases htwo : family = 2
      . rw [if_pos htwo, Option.isSome_bind]
        simp [htwo, hsixteen]
      . simp [hone, htwo]

namespace Received

variable {datagram before : Bytes} {front as : List Attribute} {a : Attribute} {role : Role} {α : Type}

theorem first_of_shape {r : Received} (read : Bytes → Option α) (set : Option α → Message)
    (h : Unoffending datagram front) (ha : ¬ Offends before front a) (hfront : NoTag front) (hrole : a.role = role)
    (hread : ∀ value, (read value).isSome ↔ role.Shape value)
    (hset : set ((first? front role).bind read) = r.message)
    : r.first a.type ((first? front role).bind read) (read a.value) (fun x => set (some x)) =
        .ok { r with message := set (((first? front role).or (some a.value)).bind read) } := by
  rw [← hrole] at hread hset ⊢
  unfold first
  cases hfirst : first? front a.role with
  | none =>
    have hshape : a.role.Shape a.value := by
      by_contra hshape
      exact ha (.shape hfront ((first?_eq_none_iff hfront).1 hfirst) hshape)
    rw [← hread, Option.isSome_iff_exists] at hshape
    rcases hshape with ⟨x, hx⟩
    simp [hx]
  | some value =>
    -- The field is taken, and a value behind the first one counts for nothing, whatever its shape.
    have hshape := h.shape hfirst
    rw [← hread, Option.isSome_iff_exists] at hshape
    rcases hshape with ⟨x, hx⟩
    rw [hfirst, Option.bind_some, hx] at hset
    simp [hx, hset]

theorem first_of_not_shape {r : Received} {type : UInt16} {set : α → Message} {value : Bytes}
    (read : Bytes → Option α) (hfront : NoTag front) (hfirst : ∀ b ∈ front, b.role ≠ role)
    (hshape : ¬ role.Shape value) (hread : ∀ value, (read value).isSome ↔ role.Shape value)
    : r.first type ((first? front role).bind read) (read value) set = .error (.malformedAttribute type) := by
  rw [← hread, Option.not_isSome_iff_eq_none] at hshape
  rw [← first?_eq_none_iff hfront] at hfirst
  unfold first
  rw [hfirst, hshape]
  rfl

theorem integrity_eq_none_iff (h : Unoffending datagram front)
    : (reading datagram front).message.integrity = none ↔ NoTag front := by
  rw [← find?_tag_eq_none_iff]
  change firstTag? front = none ↔ _
  unfold firstTag?
  cases hfind : front.find? (·.role = .integrity) with
  | none => simp
  | some a =>
    rcases h.tag hfind with ⟨tag, htag⟩
    simp [htag]

theorem eq_ofNat_of_number? {value : Bytes} {n : Nat} {checksum : UInt32} (h : number? 4 value = some n)
    (heq : UInt32.ofNat n = checksum) : value = Bytes.ofNat 4 checksum.toNat := by
  unfold number? at h
  rw [Option.map_eq_some_iff] at h
  rcases h with ⟨octets, hoctets, rfl⟩
  rw [Octets.ofBytes?_eq_some_iff] at hoctets
  have hlt := Bytes.toNat_lt octets.bytes
  rw [octets.length_eq] at hlt
  rw [← heq, UInt32.toNat_ofNat_of_lt' hlt, hoctets, Bytes.ofNat_toNat_of_length octets.length_eq]

theorem reading_append_singleton (hrole : a.role ≠ .integrity)
    : reading datagram (front ++ [a]) =
        ⟨messageOf datagram (first? (front ++ [a])) (firstTag? front)
          (front.any (·.role = .fingerprint) || decide (a.role = .fingerprint)),
        (reading datagram front).covered⟩ := by
  have htag : firstTag? (front ++ [a]) = firstTag? front := by
    unfold firstTag?
    rw [List.find?_append, List.find?_singleton, if_neg, Option.or_none]
    simpa using hrole
  unfold reading
  dsimp only
  rw [htag, List.any_append, List.any_cons, List.any_nil, Bool.or_false, Received.mk.injEq]
  refine ⟨rfl, ?_⟩
  by_cases hfront : NoTag front
  . have hnone : firstTag? front = none := by
      unfold firstTag?
      rw [find?_tag_eq_none_iff.2 hfront]
      rfl
    rw [hnone]
    rfl
  . rw [beforeTag_append_of_tag hfront]

theorem absorb_of_fingerprint (hrole : a.role = .fingerprint) (ha : ¬ Offends (octetsBefore datagram front) front a)
    : (reading datagram front).absorb (octetsBefore datagram front) a = .ok (reading datagram (front ++ [a])) := by
  have hvalue : a.value = Bytes.ofNat 4 (fingerprintOf (octetsBefore datagram front)).toNat := by
    by_contra hvalue
    exact ha (.fingerprint hrole hvalue)
  have hnumber : number? 4 a.value = some (fingerprintOf (octetsBefore datagram front)).toNat := by
    rw [hvalue]
    apply number?_ofNat
    apply UInt32.toNat_lt
  rw [reading_append_singleton (by rw [hrole]; decide)]
  unfold absorb
  have htype : Role.ofType a.type = .fingerprint := hrole
  simp only [htype, hnumber, UInt32.ofNat_toNat, if_true, ne_eq, not_true_eq_false, and_false, if_false]
  rw [hrole, decide_eq_true rfl, Bool.or_true]
  by_cases hfront : NoTag front
  . rw [first?_append_singleton hfront (by rw [hrole]; decide), hrole]
    rfl
  . rw [first?_append_of_tag hfront]
    rfl

theorem absorb_of_tag (h : Unoffending datagram front) (hfront : ¬ NoTag front) (hrole : a.role ≠ .fingerprint)
    (before : Bytes) : (reading datagram front).absorb before a = .ok (reading datagram (front ++ [a])) := by
  have hsome : (reading datagram front).message.integrity.isSome := by
    rw [← integrity_eq_none_iff h] at hfront
    exact Option.isSome_iff_ne_none.2 hfront
  have hrow : reading datagram (front ++ [a]) = reading datagram front := by
    have hfind : (front ++ [a]).find? (·.role = .integrity) = front.find? (·.role = .integrity) := by
      rw [List.find?_append, Option.or_of_isSome]
      rw [← find?_tag_eq_none_iff] at hfront
      exact Option.isSome_iff_ne_none.2 hfront
    unfold reading firstTag?
    rw [hfind, first?_append_of_tag hfront, beforeTag_append_of_tag hfront]
    simp [hrole]
  unfold absorb
  dsimp only
  rw [if_pos ⟨hsome, hrole⟩, hrow]

theorem absorb_of_integrity (h : Unoffending datagram front) (hfront : NoTag front) (hrole : a.role = .integrity)
    (ha : ¬ Offends (octetsBefore datagram front) front a)
    : (reading datagram front).absorb (octetsBefore datagram front) a = .ok (reading datagram (front ++ [a])) := by
  have hnone := (integrity_eq_none_iff h).2 hfront
  have hlength : a.value.length = 20 := by
    by_contra hlength
    exact ha (.tag hfront hrole hlength)
  rw [← isSome_ofBytes?_iff, Option.isSome_iff_exists] at hlength
  rcases hlength with ⟨tag, htag⟩
  have hfind : firstTag? (front ++ [a]) = some tag := by
    unfold firstTag?
    rw [List.find?_append, find?_tag_eq_none_iff.2 hfront, Option.none_or, List.find?_singleton, if_pos]
    . exact htag
    . exact decide_eq_true hrole
  have hbefore : beforeTag (front ++ [a]) = front := by
    rw [beforeTag_append_of_noTag hfront]
    unfold beforeTag
    rw [List.takeWhile_cons_of_neg, List.append_nil]
    simp [hrole]
  have hfirst : first? (front ++ [a]) = first? front := by
    unfold first?
    rw [hbefore, beforeTag_of_noTag hfront]
  have htype : Role.ofType a.type = .integrity := hrole
  unfold absorb
  simp only [htype, hnone, htag, Option.isSome_none, Bool.false_eq_true, false_and, if_false]
  unfold reading
  rw [hfind, hbefore, hfirst]
  simp [hrole]
  rfl

theorem absorb_of_first (h : Unoffending datagram front) (hfront : NoTag front) (ha : ¬ Offends before front a)
    (hintegrity : a.role ≠ .integrity) (hfingerprint : a.role ≠ .fingerprint)
    : (reading datagram front).absorb before a = .ok (reading datagram (front ++ [a])) := by
  have hnone := (integrity_eq_none_iff h).2 hfront
  rw [reading_append_singleton hintegrity, first?_append_singleton hfront hintegrity, decide_eq_false hfingerprint,
    Bool.or_false]
  unfold absorb
  dsimp only
  rw [if_neg (by simp [hnone])]
  generalize hrole : a.role = role
  have htype : Role.ofType a.type = role := hrole
  rw [htype]
  cases role with
  | integrity => exact absurd hrole hintegrity
  | fingerprint => exact absurd hrole hfingerprint
  | unknown =>
    rw [Role.ofType_eq_unknown_iff] at htype
    exact absurd (.unknown hfront htype.1 htype.2) ha
  | ignored => rfl
  | useCandidate =>
    cases hfirst : first? front .useCandidate with
    | none => rfl
    | some value => rfl
  | mappedAddress =>
    exact first_of_shape _ (fun e => { (reading datagram front).message with mapped := e }) h ha hfront hrole
      (isSome_decodeAddress?_iff _) rfl
  | username =>
    exact first_of_shape _ (fun name => { (reading datagram front).message with username := name }) h ha hfront hrole
      (fun _ => ⟨fun _ => trivial, fun _ => rfl⟩) rfl
  | xorMappedAddress =>
    exact first_of_shape _ (fun e => { (reading datagram front).message with xorMapped := e }) h ha hfront hrole
      (isSome_decodeAddress?_iff _) rfl
  | priority =>
    exact first_of_shape (fun value => (number? 4 value).map UInt32.ofNat)
      (fun n => { (reading datagram front).message with priority := n }) h ha hfront hrole (isSome_number?_iff _) rfl
  | iceControlled =>
    exact first_of_shape (fun value => (number? 8 value).map UInt64.ofNat)
      (fun n => { (reading datagram front).message with iceControlled := n }) h ha hfront hrole
      (isSome_number?_iff _) rfl
  | iceControlling =>
    exact first_of_shape (fun value => (number? 8 value).map UInt64.ofNat)
      (fun n => { (reading datagram front).message with iceControlling := n }) h ha hfront hrole
      (isSome_number?_iff _) rfl
  | responseOrigin =>
    exact first_of_shape _ (fun e => { (reading datagram front).message with responseOrigin := e }) h ha hfront hrole
      (isSome_decodeAddress?_iff _) rfl

theorem absorb_of_not_offends (h : Unoffending datagram front) (ha : ¬ Offends (octetsBefore datagram front) front a)
    : (reading datagram front).absorb (octetsBefore datagram front) a = .ok (reading datagram (front ++ [a])) := by
  by_cases hfingerprint : a.role = .fingerprint
  . exact absorb_of_fingerprint hfingerprint ha
  . by_cases hfront : NoTag front
    . by_cases hintegrity : a.role = .integrity
      . exact absorb_of_integrity h hfront hintegrity ha
      . exact absorb_of_first h hfront ha hintegrity hfingerprint
    . exact absorb_of_tag h hfront hfingerprint _

theorem absorb_of_not_shape (h : Unoffending datagram front) (hfront : NoTag front)
    (hfirst : ∀ b ∈ front, b.role ≠ a.role) (hshape : ¬ a.role.Shape a.value) (before : Bytes)
    : (reading datagram front).absorb before a = .error (.malformedAttribute a.type) := by
  have hnone := (integrity_eq_none_iff h).2 hfront
  unfold absorb
  dsimp only
  rw [if_neg (by simp [hnone])]
  generalize hrole : a.role = role at hfirst hshape
  have htype : Role.ofType a.type = role := hrole
  rw [htype]
  cases role with
  | integrity | fingerprint | unknown | ignored | useCandidate | username => exact absurd trivial hshape
  | mappedAddress | xorMappedAddress | responseOrigin =>
    exact first_of_not_shape _ hfront hfirst hshape (isSome_decodeAddress?_iff _)
  | priority =>
    exact first_of_not_shape (fun value => (number? 4 value).map UInt32.ofNat) hfront hfirst hshape
      (isSome_number?_iff _)
  | iceControlled | iceControlling =>
    exact first_of_not_shape (fun value => (number? 8 value).map UInt64.ofNat) hfront hfirst hshape
      (isSome_number?_iff _)

theorem absorb_of_offends (h : Unoffending datagram front) (ha : Offends before front a)
    : ∃ e, (reading datagram front).absorb before a = .error e := by
  cases ha with
  | fingerprint hrole hvalue =>
    have htype : Role.ofType a.type = .fingerprint := hrole
    unfold absorb
    simp only [htype, ne_eq, not_true_eq_false, and_false, if_false]
    split
    . exact ⟨_, rfl⟩
    . next n hn =>
      rw [if_neg]
      . exact ⟨_, rfl⟩
      . intro heq
        exact hvalue (eq_ofNat_of_number? hn heq)
  | unknown hfront hlt htype =>
    have hnone := (integrity_eq_none_iff h).2 hfront
    unfold absorb
    simp [hnone, (Role.ofType_eq_unknown_iff a.type).2 ⟨hlt, htype⟩]
  | tag hfront hrole hlength =>
    have hnone := (integrity_eq_none_iff h).2 hfront
    have htype : Role.ofType a.type = .integrity := hrole
    rw [ne_eq, ← isSome_ofBytes?_iff, Option.not_isSome_iff_eq_none] at hlength
    unfold absorb
    simp [hnone, htype, hlength]
  | shape hfront hfirst hshape => exact ⟨_, absorb_of_not_shape h hfront hfirst hshape before⟩

theorem absorbAll_reading (h : Unoffending datagram (front ++ as))
    : absorbAll datagram (headerLength + (front.flatMap Attribute.bytes).length) (reading datagram front) as =
        .ok (reading datagram (front ++ as)) := by
  -- What was read so far is the reading of the attributes in front; a step moves one of them over.
  induction as generalizing front with
  | nil =>
    rw [List.append_nil]
    rfl
  | cons a as ih =>
    have hstep := absorb_of_not_offends h.of_append (h front a as rfl)
    rw [List.append_cons] at h ⊢
    rw [← ih h, List.flatMap_append, List.flatMap_singleton, List.length_append, ← Nat.add_assoc]
    unfold octetsBefore at hstep
    conv => lhs; unfold absorbAll
    rw [hstep]

theorem unoffending_of_absorbAll {r : Received} (hfront : Unoffending datagram front)
    (h : absorbAll datagram (headerLength + (front.flatMap Attribute.bytes).length) (reading datagram front) as = .ok r)
    : Unoffending datagram (front ++ as) := by
  induction as generalizing front with
  | nil =>
    rw [List.append_nil]
    exact hfront
  | cons a as ih =>
    unfold absorbAll at h
    have ha : ¬ Offends (octetsBefore datagram front) front a := by
      intro ha
      rcases absorb_of_offends hfront ha with ⟨e, he⟩
      unfold octetsBefore at he
      rw [he] at h
      simp at h
    have hstep := absorb_of_not_offends hfront ha
    unfold octetsBefore at hstep
    rw [hstep, Nat.add_assoc] at h
    rw [List.append_cons]
    apply ih (hfront.append_singleton ha)
    rw [List.flatMap_append, List.flatMap_singleton, List.length_append]
    exact h

end Received

section Framing

variable {datagram : Bytes}

theorem and_top_eq_zero_iff (a b : UInt8) : a &&& 0xC0 = 0 ↔ Bytes.toNat [a, b] < 0x4000 := by
  have hall : ∀ n < 256, n &&& 0xC0 = 0 ↔ n < 64 := by
    decide +kernel
  have hb := b.toNat_lt
  rw [← UInt8.toNat_inj, UInt8.toNat_and]
  change a.toNat &&& 0xC0 = 0 ↔ _
  rw [hall a.toNat a.toNat_lt, Bytes.toNat_cons, Bytes.toNat_cons, Bytes.toNat_nil]
  simp only [List.length_cons, List.length_nil]
  omega

theorem guard_guard_guard {α : Type} (p q s : Prop) [Decidable p] [Decidable q] [Decidable s] (x : α)
    : (do guard p; guard q; guard s; return x : Option α) = if p ∧ q ∧ s then some x else none := by
  unfold guard
  by_cases hp : p
  . by_cases hq : q
    . by_cases hs : s
      . simp [hp, hq, hs]
      . simp [hp, hq, hs]
    . simp [hp, hq]
  . simp [hp]

theorem readHeader_eq (h : headerLength ≤ datagram.length)
    : readHeader datagram =
        if Bytes.toNat (datagram.take 2) < 0x4000 ∧ declaredLength datagram ≤ (datagram.drop headerLength).length ∧
            Bytes.toNat ((datagram.drop 4).take 4) = cookie.toNat then
          some (headerOf datagram, declaredLength datagram)
        else none := by
  unfold headerLength at h
  have hid : Octets.ofBytes? 12 ((datagram.drop 8).take 12) =
      some (Octets.ofNat 12 (Bytes.toNat ((datagram.drop 8).take 12))) := by
    rw [Octets.ofBytes?_eq_some_iff]
    symm
    apply Bytes.ofNat_toNat_of_length
    rw [List.length_take, List.length_drop]
    omega
  unfold readHeader
  rw [Bytes.cut?_of_le (by omega)]
  simp only [Option.bind_eq_bind, Option.bind_some]
  rw [Bytes.cut?_of_le (by rw [List.length_drop]; omega), Option.bind_some, List.drop_drop]
  rw [Bytes.cut?_of_le (by rw [List.length_drop]; omega), Option.bind_some, List.drop_drop]
  rw [Bytes.cut?_of_le (by rw [List.length_drop]; omega), Option.bind_some, List.drop_drop, hid, Option.bind_some]
  exact guard_guard_guard _ _ _ _

theorem framed_iff (h : headerLength ≤ datagram.length)
    : Framed datagram ↔
        Bytes.toNat (datagram.take 2) < 0x4000 ∧ declaredLength datagram ≤ (datagram.drop headerLength).length ∧
          Bytes.toNat ((datagram.drop 4).take 4) = cookie.toNat := by
  unfold headerLength at h
  rcases datagram with _ | ⟨b0, _ | ⟨b1, rest⟩⟩
  . simp at h
  . simp at h
  . have htop := and_top_eq_zero_iff b0 b1
    have hmagic : ((b0 :: b1 :: rest).drop 4).take 4 = Bytes.ofNat 4 cookie.toNat ↔
        Bytes.toNat (((b0 :: b1 :: rest).drop 4).take 4) = cookie.toNat := by
      constructor
      . intro hcookie
        rw [hcookie]
        rfl
      . intro hcookie
        symm
        rw [← hcookie]
        apply Bytes.ofNat_toNat_of_length
        rw [List.length_take, List.length_drop]
        omega
    rw [← hmagic, List.length_drop]
    constructor
    . intro hframed
      have hfits := hframed.length
      exact ⟨htop.1 hframed.top, by omega, hframed.cookie⟩
    . intro hframed
      refine ⟨h, htop.2 hframed.1, ?_, hframed.2.2⟩
      have hfits := hframed.2.1
      unfold headerLength at hfits ⊢
      omega

theorem readHeader_of_framed (h : Framed datagram)
    : readHeader datagram = some (headerOf datagram, declaredLength datagram) := by
  rw [readHeader_eq h.header, if_pos]
  exact (framed_iff h.header).1 h

theorem framed_of_readHeader {m : Message} {length : Nat} (h : readHeader datagram = some (m, length))
    : Framed datagram := by
  have hlength : headerLength ≤ datagram.length := by
    have := (readHeader_eq_some h).1
    omega
  rw [framed_iff hlength]
  by_contra hframed
  rw [readHeader_eq hlength, if_neg hframed] at h
  simp at h

end Framing

section Decoding

variable {datagram : Bytes} {as : List Attribute}

theorem decode_of_grammar (h : Grammar datagram as) : decode datagram = .ok (reading datagram as) := by
  have hscan := Attribute.scan_bytes h.fits
  rw [h.bytes] at hscan
  have habsorb := @Received.absorbAll_reading datagram [] as h.unoffending
  unfold decode
  rw [readHeader_of_framed h.framed]
  dsimp only
  rw [hscan]
  dsimp only
  change Received.absorbAll datagram headerLength ⟨headerOf datagram, none⟩ as = _ at habsorb
  rw [habsorb]
  rfl

theorem grammar_of_decode {r : Received} (h : decode datagram = .ok r) : ∃ as, Grammar datagram as := by
  unfold decode at h
  split at h
  . simp at h
  . next m length hheader =>
    have hframed := framed_of_readHeader hheader
    rw [readHeader_of_framed hframed, Option.some.injEq, Prod.mk.injEq] at hheader
    rcases hheader with ⟨rfl, rfl⟩
    generalize hscan : Attribute.scan ((datagram.drop headerLength).take (declaredLength datagram)) = scanned at h
    rcases scanned with ⟨as, fault⟩
    dsimp only at h
    split at h
    . simp at h
    . simp at h
    . next habsorb =>
      refine ⟨as, hframed, Attribute.fits_of_scan hscan, Attribute.scan_flatMap_bytes hscan, ?_⟩
      exact @Received.unoffending_of_absorbAll datagram [] as _ (fun _ _ _ hnil => by simp at hnil) habsorb

theorem Grammar.length (h : Grammar datagram as) : (as.flatMap Attribute.bytes).length = declaredLength datagram := by
  have hfits := h.framed.length
  rw [h.bytes, List.length_take, List.length_drop]
  omega

theorem Grammar.length_le {front rest : List Attribute} (h : Grammar datagram (front ++ rest))
    : (front.flatMap Attribute.bytes).length ≤ declaredLength datagram := by
  rw [← h.length, List.flatMap_append, List.length_append]
  apply Nat.le_add_right

section Tail

variable {datagram' : Bytes} {n : Nat}

theorem take_eq_of_take_eq {k : Nat} (htake : datagram'.take n = datagram.take n) (hk : k ≤ n)
    : datagram'.take k = datagram.take k := by
  rw [← Nat.min_eq_left hk, ← List.take_take, htake, List.take_take]

theorem take_drop_eq_of_take_eq {i k : Nat} (htake : datagram'.take n = datagram.take n) (hk : i + k ≤ n)
    : (datagram'.drop i).take k = (datagram.drop i).take k := by
  rw [List.take_drop, List.take_drop, take_eq_of_take_eq htake hk]

theorem headerOf_eq_of_take_eq (htake : datagram'.take headerLength = datagram.take headerLength)
    : headerOf datagram' = headerOf datagram := by
  unfold headerOf
  rw [take_eq_of_take_eq htake (by decide), take_drop_eq_of_take_eq htake (by decide)]

theorem headD_take_one (bs : Bytes) : (bs.take 1).headD 0 = bs.headD 0 := by
  cases bs with
  | nil => rfl
  | cons b bs => rfl

theorem Framed.of_take_eq (h : Framed datagram) (hn : n = headerLength + declaredLength datagram)
    (hlength : n ≤ datagram'.length) (htake : datagram'.take n = datagram.take n)
    : Framed datagram' ∧ declaredLength datagram' = declaredLength datagram := by
  rw [hn] at hlength htake
  have hdeclared : declaredLength datagram' = declaredLength datagram := by
    unfold declaredLength at htake ⊢
    rw [take_drop_eq_of_take_eq htake]
    unfold headerLength
    omega
  unfold headerLength at htake hlength
  refine ⟨⟨?_, ?_, ?_, ?_⟩, hdeclared⟩
  . unfold headerLength
    omega
  . rw [← headD_take_one, take_eq_of_take_eq htake (by omega), headD_take_one]
    exact h.top
  . rw [hdeclared]
    exact hlength
  . rw [take_drop_eq_of_take_eq htake (by omega)]
    exact h.cookie

theorem Grammar.of_take_eq (h : Grammar datagram as) (hn : n = headerLength + declaredLength datagram)
    (hlength : n ≤ datagram'.length) (htake : datagram'.take n = datagram.take n)
    : Grammar datagram' as ∧ reading datagram' as = reading datagram as := by
  rcases h.framed.of_take_eq hn hlength htake with ⟨hframed, hdeclared⟩
  rw [hn] at htake
  have hbefore : ∀ front rest, as = front ++ rest → octetsBefore datagram' front = octetsBefore datagram front := by
    intro front rest has
    rw [has] at h
    exact take_eq_of_take_eq htake (Nat.add_le_add_left h.length_le headerLength)
  refine ⟨⟨hframed, h.fits, ?_, ?_⟩, ?_⟩
  . rw [h.bytes, hdeclared, take_drop_eq_of_take_eq htake (le_refl _)]
  . intro front a rest has
    rw [hbefore front (a :: rest) has]
    exact h.unoffending front a rest has
  . have htag := hbefore (beforeTag as) _ List.takeWhile_append_dropWhile.symm
    have hheader := headerOf_eq_of_take_eq (take_eq_of_take_eq htake (Nat.le_add_right _ _))
    unfold reading messageOf
    rw [htag, hheader]

end Tail

end Decoding

section Padding

variable {datagram : Bytes} {as : List Attribute}

def Attribute.unpadded (a : Attribute) : Attribute :=
  { a with padding := [] }

theorem first?_map_unpadded (as : List Attribute) : first? (as.map Attribute.unpadded) = first? as := by
  funext role
  unfold first? beforeTag
  rw [List.takeWhile_map, List.find?_map, Option.map_map]
  rfl

theorem firstTag?_map_unpadded (as : List Attribute) : firstTag? (as.map Attribute.unpadded) = firstTag? as := by
  unfold firstTag?
  rw [List.find?_map, Option.bind_map]
  rfl

theorem message_reading_eq {datagram' : Bytes} {as' : List Attribute}
    (hheader : datagram'.take headerLength = datagram.take headerLength)
    (hrow : as'.map Attribute.unpadded = as.map Attribute.unpadded)
    : (reading datagram' as').message = (reading datagram as).message := by
  have hfirst : first? as' = first? as := by
    rw [← first?_map_unpadded, hrow, first?_map_unpadded]
  have htag : firstTag? as' = firstTag? as := by
    rw [← firstTag?_map_unpadded, hrow, firstTag?_map_unpadded]
  have hany : as'.any (·.role = .fingerprint) = as.any (·.role = .fingerprint) := by
    have := congrArg (List.any · (·.role = .fingerprint)) hrow
    simp only [List.any_map] at this
    exact this
  unfold reading messageOf
  dsimp only
  rw [hfirst, htag, hany, headerOf_eq_of_take_eq hheader]

end Padding

theorem decode_grammar (datagram : Bytes)
    : ((∃ r, decode datagram = .ok r) ↔ ∃ as, Grammar datagram as) ∧
      (∀ as, Grammar datagram as → decode datagram = .ok (reading datagram as)) ∧
      (∀ as datagram' as',
        Grammar datagram as → Grammar datagram' as' → datagram'.take headerLength = datagram.take headerLength →
        as'.map Attribute.unpadded = as.map Attribute.unpadded →
        ∃ r r', decode datagram = .ok r ∧ decode datagram' = .ok r' ∧ r'.message = r.message) ∧
      (∀ r tail,
        decode datagram = .ok r →
        decode (datagram.take (headerLength + declaredLength datagram) ++ tail) = .ok r) := by
  refine ⟨⟨?_, ?_⟩, fun as h => decode_of_grammar h, ?_, ?_⟩
  . intro h
    rcases h with ⟨r, hr⟩
    exact grammar_of_decode hr
  . intro h
    rcases h with ⟨as, has⟩
    exact ⟨_, decode_of_grammar has⟩
  . intro as datagram' as' h h' hheader hrow
    exact ⟨_, _, decode_of_grammar h, decode_of_grammar h', message_reading_eq hheader hrow⟩
  . intro r tail h
    rcases grammar_of_decode h with ⟨as, hgrammar⟩
    generalize hn : headerLength + declaredLength datagram = n
    have hfits := hgrammar.framed.length
    rw [hn] at hfits
    have hlength : (datagram.take n).length = n := List.length_take_of_le hfits
    have hle : n ≤ (datagram.take n ++ tail).length := by
      rw [List.length_append]
      omega
    rcases hgrammar.of_take_eq hn.symm hle (List.take_left' hlength) with ⟨htail, hreading⟩
    rw [decode_of_grammar htail, hreading, ← decode_of_grammar hgrammar, h]

section Sample

/-- A request with a user name of three octets, padding that is not zero, and two octets behind the message. -/
def samplePadded : Bytes :=
  [0, 1, 0, 8] ++ Bytes.ofNat 4 cookie.toNat ++ List.replicate 12 7 ++ [0, 6, 0, 3, 97, 58, 98, 255] ++ [1, 2]

theorem decode_grammar_samplePadded
    : ∃ as r,
        Grammar samplePadded as ∧ decode samplePadded = .ok r ∧ r = reading samplePadded as ∧
        r.message.username = some "a:b" ∧ ∀ tail, decode (samplePadded.take 28 ++ tail) = .ok r := by
  have hcheck : (decode samplePadded).map (·.message.username) = .ok (some "a:b") := by
    decide +kernel
  rcases decode_grammar samplePadded with ⟨haccepted, hreading, -, htail⟩
  cases hr : decode samplePadded with
  | error e =>
    rw [hr] at hcheck
    simp [Except.map] at hcheck
  | ok r =>
    rcases haccepted.1 ⟨r, hr⟩ with ⟨as, has⟩
    have hsame := hreading as has
    rw [hr] at hsame hcheck
    rw [Except.ok.injEq] at hsame
    have husername : r.message.username = some "a:b" := Except.ok.inj hcheck
    exact ⟨as, r, has, rfl, hsame, husername, fun tail => htail r tail hr⟩

end Sample

end Intercom.Stun
