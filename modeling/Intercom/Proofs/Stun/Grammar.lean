import Mathlib
import Intercom.Proofs.Stun.Attribute
import Intercom.Stun.Message

/-!
This module contains the grammar of STUN messages: a frame, a row of attributes of which none offends at its
place, and what such a message says. The first attribute of a role counts, and behind the tag only
fingerprints.
-/

namespace Intercom.Stun

namespace Role

/-- The types below `0x8000` that have a meaning or are ignored. -/
def knownTypes : List UInt16 :=
  [0x0001, 0x0006, 0x0008, 0x0020, 0x0024, 0x0025] ++ ignoredTypes

theorem ofType_eq_unknown_iff (type : UInt16) : ofType type = unknown ↔ type < 0x8000 ∧ type ∉ knownTypes := by
  unfold ofType
  split
  case h_11 h1 h2 h3 h4 h5 h6 _ _ _ _ =>
    have hmeaning : type ∉ [0x0001, 0x0006, 0x0008, 0x0020, 0x0024, 0x0025] := by
      simp only [List.mem_cons, List.not_mem_nil, or_false, not_or]
      exact ⟨h1, h2, h3, h4, h5, h6⟩
    unfold knownTypes
    rw [List.mem_append, not_or]
    split
    . next h => simp [h, hmeaning]
    . next h => simp [h, hmeaning]
  all_goals decide

/-- The shape that the first value of a role must have. -/
def Shape (role : Role) (value : Bytes) : Prop :=
  match role with
  | mappedAddress | xorMappedAddress | responseOrigin =>
    (value.length = 8 ∧ value[1]? = some 1) ∨ (value.length = 20 ∧ value[1]? = some 2)
  | priority => value.length = 4
  | iceControlled | iceControlling => value.length = 8
  | _ => True

end Role

theorem isSome_ofBytes?_iff {n : Nat} {bs : Bytes} : (Octets.ofBytes? n bs).isSome ↔ bs.length = n := by
  unfold Octets.ofBytes?
  split
  . next h => simp [h]
  . next h => simp [h]

def Attribute.role (a : Attribute) : Role :=
  .ofType a.type

/-- Attributes among which there is no tag. -/
def NoTag (front : List Attribute) : Prop :=
  ∀ b ∈ front, b.role ≠ .integrity

/-- An attribute that must not stand behind the octets `before` and the attributes `front`. -/
inductive Offends (before : Bytes) (front : List Attribute) (a : Attribute) : Prop where
  | fingerprint (hrole : a.role = .fingerprint) (hvalue : a.value ≠ Bytes.ofNat 4 (fingerprintOf before).toNat)
  | unknown (hfront : NoTag front) (hlt : a.type < 0x8000) (htype : a.type ∉ Role.knownTypes)
  | tag (hfront : NoTag front) (hrole : a.role = .integrity) (hlength : a.value.length ≠ 20)
  | shape (hfront : NoTag front) (hfirst : ∀ b ∈ front, b.role ≠ a.role) (hshape : ¬ a.role.Shape a.value)

/-- The octets before the attribute that follows `front`. -/
def octetsBefore (datagram : Bytes) (front : List Attribute) : Bytes :=
  datagram.take (headerLength + (front.flatMap Attribute.bytes).length)

def Unoffending (datagram : Bytes) (as : List Attribute) : Prop :=
  ∀ front a rest, as = front ++ a :: rest → ¬ Offends (octetsBefore datagram front) front a

def declaredLength (datagram : Bytes) : Nat :=
  Bytes.toNat ((datagram.drop 2).take 2)

structure Framed (datagram : Bytes) : Prop where
  header : headerLength ≤ datagram.length
  top : datagram.headD 0 &&& 0xC0 = 0
  length : headerLength + declaredLength datagram ≤ datagram.length
  cookie : (datagram.drop 4).take 4 = Bytes.ofNat 4 cookie.toNat

/-- A datagram has a message with these attributes at its front. -/
structure Grammar (datagram : Bytes) (as : List Attribute) : Prop where
  framed : Framed datagram
  fits : ∀ a ∈ as, a.Fits
  bytes : as.flatMap Attribute.bytes = (datagram.drop headerLength).take (declaredLength datagram)
  unoffending : Unoffending datagram as

/-- The attributes before the first tag. -/
def beforeTag (as : List Attribute) : List Attribute :=
  as.takeWhile (·.role ≠ .integrity)

/-- The value of the first attribute of a role before the tag. -/
def first? (as : List Attribute) (role : Role) : Option Bytes :=
  ((beforeTag as).find? (·.role = role)).map (·.value)

def headerOf (datagram : Bytes) : Message where
  type := ⟨UInt16.ofNat (Bytes.toNat (datagram.take 2))⟩
  transaction := .ofNat 12 (Bytes.toNat ((datagram.drop 8).take 12))

/-- The value of the first tag. -/
def firstTag? (as : List Attribute) : Option Tag :=
  (as.find? (·.role = .integrity)).bind fun a => Octets.ofBytes? 20 a.value

/-- The message with the header of a datagram whose fields have these values. -/
def messageOf (datagram : Bytes) (value? : Role → Option Bytes) (integrity : Option Tag) (fingerprint : Bool)
    : Message :=
  let mask := Mask.ofTransaction (headerOf datagram).transaction
  { headerOf datagram with
    mapped := (value? .mappedAddress).bind (decodeAddress? .plain)
    username := (value? .username).bind fun value => some (Utf8.decodeLossy value)
    xorMapped := (value? .xorMappedAddress).bind (decodeAddress? mask)
    priority := (value? .priority).bind fun value => (number? 4 value).map UInt32.ofNat
    useCandidate := (value? .useCandidate).isSome
    iceControlled := (value? .iceControlled).bind fun value => (number? 8 value).map UInt64.ofNat
    iceControlling := (value? .iceControlling).bind fun value => (number? 8 value).map UInt64.ofNat
    responseOrigin := (value? .responseOrigin).bind (decodeAddress? .plain)
    integrity
    fingerprint }

/-- What the attributes of a datagram say: each field what its first attribute says, and covered are the octets
before the tag, with a length field as if nothing followed it. -/
def reading (datagram : Bytes) (as : List Attribute) : Received where
  message := messageOf datagram (first? as) (firstTag? as) (as.any (·.role = .fingerprint))
  covered := (firstTag? as).map fun _ =>
    let before := octetsBefore datagram (beforeTag as)
    withLength (before.length + 24 - headerLength) before

section Rows

variable {datagram before : Bytes} {front as : List Attribute} {a : Attribute} {role : Role}

theorem beforeTag_of_noTag (h : NoTag front) : beforeTag front = front := by
  unfold beforeTag
  rw [List.takeWhile_eq_self_iff]
  intro b hb
  exact decide_eq_true (h b hb)

theorem noTag_beforeTag (as : List Attribute) : NoTag (beforeTag as) := by
  intro b hb
  have := List.mem_takeWhile_imp hb
  exact of_decide_eq_true this

theorem beforeTag_append_of_noTag (h : NoTag front) : beforeTag (front ++ as) = front ++ beforeTag as := by
  unfold beforeTag
  apply List.takeWhile_append_of_pos
  intro b hb
  exact decide_eq_true (h b hb)

theorem beforeTag_append_of_tag (h : ¬ NoTag front) : beforeTag (front ++ as) = beforeTag front := by
  unfold beforeTag
  rw [List.takeWhile_append, if_neg]
  intro hlength
  apply h
  have hself := (List.takeWhile_prefix (fun b : Attribute => decide (b.role ≠ .integrity))).eq_of_length hlength
  rw [← hself]
  exact noTag_beforeTag front

theorem find?_tag_eq_none_iff : as.find? (·.role = .integrity) = none ↔ NoTag as := by
  rw [List.find?_eq_none]
  simp only [decide_eq_true_eq]
  rfl

theorem first?_eq_none_iff (h : NoTag front) : first? front role = none ↔ ∀ b ∈ front, b.role ≠ role := by
  unfold first?
  rw [beforeTag_of_noTag h, Option.map_eq_none_iff, List.find?_eq_none]
  simp only [decide_eq_true_eq, ne_eq]

theorem first?_append_of_tag (h : ¬ NoTag front) : first? (front ++ as) = first? front := by
  unfold first?
  rw [beforeTag_append_of_tag h]

theorem first?_append_singleton (h : NoTag front) (hrole : a.role ≠ .integrity)
    : first? (front ++ [a]) = Function.update (first? front) a.role ((first? front a.role).or (some a.value)) := by
  have hnoTag : NoTag [a] := by
    intro b hb
    rw [List.mem_singleton] at hb
    rw [hb]
    exact hrole
  funext role
  unfold first?
  rw [beforeTag_append_of_noTag h, beforeTag_of_noTag h, beforeTag_of_noTag hnoTag, List.find?_append]
  by_cases hsame : role = a.role
  . rw [hsame, Function.update_self]
    cases front.find? (·.role = a.role) with
    | none => simp
    | some b => simp
  . rw [Function.update_of_ne hsame]
    have : decide (a.role = role) = false := decide_eq_false (Ne.symm hsame)
    cases front.find? (·.role = role) with
    | none => simp [this]
    | some b => simp

theorem Unoffending.shape (h : Unoffending datagram as) {value : Bytes} (hfirst : first? as role = some value)
    : role.Shape value := by
  unfold first? at hfirst
  rw [Option.map_eq_some_iff] at hfirst
  rcases hfirst with ⟨b, hb, rfl⟩
  rw [List.find?_eq_some_iff_append] at hb
  rcases hb with ⟨hrole, earlier, later, hsplit, hearlier⟩
  rw [decide_eq_true_eq] at hrole
  rcases List.takeWhile_prefix (fun b : Attribute => decide (b.role ≠ .integrity)) (l := as) with ⟨rest, hrest⟩
  have has : as = earlier ++ b :: (later ++ rest) := by
    rw [← hrest]
    change beforeTag as ++ rest = _
    rw [hsplit, List.append_assoc]
    rfl
  -- It was the first of its role when it was read, so it offended there if its shape is wrong.
  by_contra hshape
  apply h earlier b _ has
  apply Offends.shape
  . intro c hc
    apply noTag_beforeTag as
    rw [hsplit]
    exact List.mem_append_left _ hc
  . intro c hc heq
    have := hearlier c hc
    rw [heq, hrole] at this
    simp at this
  . rw [hrole]
    exact hshape

theorem Unoffending.tag (h : Unoffending datagram as) (hfind : as.find? (·.role = .integrity) = some a)
    : ∃ tag : Tag, Octets.ofBytes? 20 a.value = some tag := by
  rw [List.find?_eq_some_iff_append] at hfind
  rcases hfind with ⟨hrole, earlier, later, has, hearlier⟩
  rw [decide_eq_true_eq] at hrole
  rw [← Option.isSome_iff_exists, isSome_ofBytes?_iff]
  by_contra hlength
  apply h earlier a later has
  refine .tag ?_ hrole hlength
  intro b hb
  have := hearlier b hb
  simpa using this

theorem Unoffending.of_append (h : Unoffending datagram (front ++ as)) : Unoffending datagram front := by
  intro earlier b later hfront
  apply h earlier b (later ++ as)
  rw [hfront, List.append_assoc]
  rfl

theorem Unoffending.append_singleton (h : Unoffending datagram front)
    (ha : ¬ Offends (octetsBefore datagram front) front a) : Unoffending datagram (front ++ [a]) := by
  intro earlier b later hsplit
  -- Either the new one is looked at, or it stands behind the one that is.
  rcases List.eq_nil_or_concat later with hnil | ⟨later', c, hlater⟩
  . rw [hnil] at hsplit
    rcases List.append_inj' hsplit rfl with ⟨hfront, hb⟩
    rw [List.cons.injEq] at hb
    rw [← hfront, ← hb.1]
    exact ha
  . rw [hlater, List.concat_eq_append, ← List.cons_append, ← List.append_assoc] at hsplit
    rcases List.append_inj' hsplit rfl with ⟨hfront, -⟩
    exact h earlier b later' hfront

end Rows

end Intercom.Stun
