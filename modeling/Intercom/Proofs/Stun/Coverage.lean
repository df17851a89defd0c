import Mathlib
import Intercom.Proofs.Stun.RoundTrip

/-!
This module contains the main statement about integrity tags: the octets that a tag covers determine every
field of the message but the tag itself and whether a fingerprint was there.
-/

namespace Intercom.Stun

namespace Message

/-- The message without its tag, and as if there were no fingerprint. -/
def bare (m : Message) : Message :=
  { m with integrity := none, fingerprint := false }

def next (m : Message) (a : Attribute) : Except Error Message :=
  if Role.ofType a.type = .fingerprint then .ok m
  else (Received.absorb ⟨m, none⟩ [] a).map (·.message)

theorem next_of_absorb {m m' : Message} {a : Attribute} (hrole : Role.ofType a.type ≠ .fingerprint)
    (h : Received.absorb ⟨m, none⟩ [] a = .ok ⟨m', none⟩) : m.next a = .ok m' := by
  unfold next
  rw [if_neg hrole, h]
  rfl

end Message

namespace Received

variable {r r' : Received} {before : Bytes} {a : Attribute}

theorem first_bare {α : Type} {type : UInt16} {old new : Option α} {set set' : α → Message}
    (hnone : r.message.integrity = none)
    (hset : ∀ x, (set x).integrity = none ∧ (set x).bare = set' x)
    (h : r.first type old new set = .ok r')
    : r'.message.integrity = none ∧ r'.covered = r.covered ∧
      first ⟨r.message.bare, none⟩ type old new set' = .ok ⟨r'.message.bare, none⟩ := by
  unfold first at h ⊢
  split at h
  . next hold =>
    rw [Except.ok.injEq] at h
    rw [if_pos hold, ← h]
    exact ⟨hnone, rfl, rfl⟩
  . next hold =>
    split at h
    . simp at h
    . next x =>
      rw [Except.ok.injEq] at h
      rw [if_neg hold, ← h]
      exact ⟨(hset x).1, rfl, by rw [(hset x).2]⟩

theorem absorb_of_isSome (hsome : r.message.integrity.isSome) (h : r.absorb before a = .ok r')
    : r'.message.integrity = r.message.integrity ∧ r'.covered = r.covered ∧
      r'.message.bare = r.message.bare := by
  unfold absorb at h
  dsimp only at h
  split at h
  . rw [Except.ok.injEq] at h
    rw [← h]
    exact ⟨rfl, rfl, rfl⟩
  . next hrole =>
    have hfingerprint : Role.ofType a.type = .fingerprint := by
      by_contra hne
      exact hrole ⟨hsome, hne⟩
    rw [hfingerprint] at h
    dsimp only at h
    split at h
    . simp at h
    . split at h
      . rw [Except.ok.injEq] at h
        rw [← h]
        exact ⟨rfl, rfl, rfl⟩
      . simp at h

theorem absorb_integrity (hnone : r.message.integrity = none) (hrole : Role.ofType a.type = .integrity)
    (h : r.absorb before a = .ok r')
    : (∃ tag, r'.message.integrity = some tag ∧ a.value = tag.bytes) ∧
      r'.covered = some (withLength (before.length + 24 - headerLength) before) ∧
      r'.message.bare = r.message.bare := by
  unfold absorb at h
  dsimp only at h
  rw [hnone, hrole, if_neg (by simp)] at h
  dsimp only at h
  split at h
  . simp at h
  . next tag htag =>
    rw [Except.ok.injEq] at h
    rw [← h]
    exact ⟨⟨tag, rfl, Octets.ofBytes?_eq_some_iff.1 htag⟩, rfl, rfl⟩

/-- Before the tag an attribute does to the bare message what it does to the message, whatever stands
before it. -/
theorem absorb_bare (hnone : r.message.integrity = none) (hrole : Role.ofType a.type ≠ .integrity)
    (h : r.absorb before a = .ok r')
    : r'.message.integrity = none ∧ r'.covered = r.covered ∧
      r.message.bare.next a = .ok r'.message.bare := by
  by_cases hfingerprint : Role.ofType a.type = .fingerprint
  . unfold Message.next
    unfold absorb at h
    rw [if_pos hfingerprint]
    rw [hfingerprint] at h
    dsimp only at h
    rw [if_neg (by simp)] at h
    split at h
    . simp at h
    . split at h
      . rw [Except.ok.injEq] at h
        rw [← h]
        exact ⟨hnone, rfl, rfl⟩
      . simp at h
  . suffices hbare : r'.message.integrity = none ∧ r'.covered = r.covered ∧
        absorb ⟨r.message.bare, none⟩ [] a = .ok ⟨r'.message.bare, none⟩ from
      ⟨hbare.1, hbare.2.1, Message.next_of_absorb hfingerprint hbare.2.2⟩
    have hcovered : ¬ ((none : Option Tag).isSome ∧ Role.ofType a.type ≠ .fingerprint) := by simp
    unfold absorb at h ⊢
    dsimp only [Message.bare] at h ⊢
    rw [hnone, if_neg hcovered] at h
    rw [if_neg hcovered]
    cases hcase : Role.ofType a.type with
    | integrity => exact absurd hcase hrole
    | fingerprint => exact absurd hcase hfingerprint
    | unknown =>
      rw [hcase] at h
      simp at h
    | ignored =>
      rw [hcase, Except.ok.injEq] at h
      rw [← h]
      exact ⟨hnone, rfl, rfl⟩
    | useCandidate =>
      rw [hcase, Except.ok.injEq] at h
      rw [← h]
      exact ⟨rfl, rfl, rfl⟩
    | mappedAddress | username | xorMappedAddress | priority | iceControlled | iceControlling | responseOrigin =>
      rw [hcase] at h
      exact first_bare hnone (fun _ => ⟨rfl, rfl⟩) h

section Rows

variable {datagram : Bytes} {offset : Nat} {as : List Attribute}

theorem absorbAll_of_isSome (hsome : r.message.integrity.isSome) (h : absorbAll datagram offset r as = .ok r')
    : r'.message.integrity = r.message.integrity ∧ r'.covered = r.covered ∧
      r'.message.bare = r.message.bare := by
  induction as generalizing offset r with
  | nil =>
    unfold absorbAll at h
    rw [Except.ok.injEq] at h
    rw [← h]
    exact ⟨rfl, rfl, rfl⟩
  | cons a as ih =>
    unfold absorbAll at h
    split at h
    . simp at h
    . next mid hmid =>
      rcases absorb_of_isSome hsome hmid with ⟨hintegrity, hcovered, hbare⟩
      rw [← hintegrity] at hsome
      rw [← hintegrity, ← hcovered, ← hbare]
      exact ih hsome h

/-- A row in which there is a tag. The tag covers what stands before it, and the bare message is made by the
attributes before it. -/
structure Splits (datagram : Bytes) (offset : Nat) (m : Message) (r : Received) (front : List Attribute)
    (a : Attribute) : Prop where
  role : Role.ofType a.type = .integrity
  value : ∃ tag, r.message.integrity = some tag ∧ a.value = tag.bytes
  covered :
    let before := datagram.take (offset + (front.flatMap Attribute.bytes).length)
    r.covered = some (withLength (before.length + 24 - headerLength) before)
  bare : front.foldlM Message.next m = .ok r.message.bare

theorem absorbAll_splits (hnone : r.message.integrity = none) (hsome : r'.message.integrity.isSome)
    (h : absorbAll datagram offset r as = .ok r')
    : ∃ front a rest, as = front ++ a :: rest ∧ Splits datagram offset r.message.bare r' front a := by
  induction as generalizing offset r with
  | nil =>
    unfold absorbAll at h
    rw [Except.ok.injEq] at h
    rw [← h, hnone] at hsome
    simp at hsome
  | cons a as ih =>
    unfold absorbAll at h
    split at h
    . simp at h
    . next mid hmid =>
      by_cases hrole : Role.ofType a.type = .integrity
      . rcases absorb_integrity hnone hrole hmid with ⟨⟨tag, htag, hvalue⟩, hcovered, hbare⟩
        have hmidSome : mid.message.integrity.isSome := by
          rw [htag]
          rfl
        rcases absorbAll_of_isSome hmidSome h with ⟨hintegrity', hcovered', hbare'⟩
        refine ⟨[], a, as, rfl, hrole, ⟨tag, ?_, hvalue⟩, ?_, ?_⟩
        . rw [hintegrity', htag]
        . rw [hcovered', hcovered]
          rfl
        . rw [hbare', hbare]
          rfl
      . rcases absorb_bare hnone hrole hmid with ⟨hnone', -, hnext⟩
        rcases ih hnone' h with ⟨front, b, rest, has, hsplits⟩
        refine ⟨a :: front, b, rest, ?_, hsplits.role, hsplits.value, ?_, ?_⟩
        . rw [has, List.cons_append]
        . rw [hsplits.covered, List.flatMap_cons, List.length_append, Nat.add_assoc]
        . rw [List.foldlM_cons, hnext]
          exact hsplits.bare

end Rows

end Received

/-- What octets before a tag say: their header, then their attributes in turn. The length field has no say. -/
def Makes (before : Bytes) (m : Message) : Prop :=
  ∃ (transaction : TransactionId) (attributes : List Attribute),
    transaction.bytes = (before.drop 8).take 12 ∧
    (∀ a ∈ attributes, a.Fits) ∧
    attributes.flatMap Attribute.bytes = before.drop headerLength ∧
    attributes.foldlM Message.next { type := ⟨UInt16.ofNat (Bytes.toNat (before.take 2))⟩, transaction } = .ok m

theorem Makes.unique {before before' : Bytes} {m m' : Message} (h : Makes before m) (h' : Makes before' m')
    (htake : before.take 2 = before'.take 2) (hdrop : before.drop 4 = before'.drop 4) : m = m' := by
  rcases h with ⟨transaction, attributes, htransaction, hfits, hattributes, hfold⟩
  rcases h' with ⟨transaction', attributes', htransaction', hfits', hattributes', hfold'⟩
  have hfour : ∀ k, before.drop (4 + k) = before'.drop (4 + k) := by
    intro k
    rw [← List.drop_drop, hdrop, List.drop_drop]
  have hid : transaction = transaction' := by
    have hbytes : transaction.bytes = transaction'.bytes := by
      rw [htransaction, htransaction']
      exact congrArg (List.take 12) (hfour 4)
    cases transaction
    cases hbytes
    rfl
  have hrow : attributes = attributes' := by
    apply Attribute.flatMap_bytes_injective hfits hfits'
    rw [hattributes, hattributes']
    exact hfour 16
  rw [hid, hrow, htake, hfold', Except.ok.injEq] at hfold
  exact hfold.symm

section Decoding

variable {datagram : Bytes} {m : Message} {length : Nat} {r : Received}

theorem readHeader_eq_some (h : readHeader datagram = some (m, length))
    : headerLength + length ≤ datagram.length ∧ m.transaction.bytes = (datagram.drop 8).take 12 ∧
      m = { type := ⟨UInt16.ofNat (Bytes.toNat (datagram.take 2))⟩, transaction := m.transaction } := by
  unfold readHeader at h
  simp only [Option.bind_eq_bind, Option.bind_eq_some_iff, Prod.exists, guard] at h
  rcases h with ⟨type, afterType, htype, octets, afterLength, hoctets, magic, afterMagic, hmagic,
    transaction, body, htransaction, id, hid, _, -, _, hfits, _, -, h⟩
  rw [Bytes.cut?_eq_some_iff] at htype hoctets hmagic htransaction
  rw [Octets.ofBytes?_eq_some_iff] at hid
  simp only [Option.pure_def, Option.some.injEq, Prod.mk.injEq] at h
  have hbody : Bytes.toNat octets ≤ body.length := by
    by_contra hlt
    rw [if_neg hlt] at hfits
    simp at hfits
  have hdatagram : datagram = type ++ (octets ++ (magic ++ (transaction ++ body))) := by
    rw [htype.2, hoctets.2, hmagic.2, htransaction.2]
  have htake : datagram.take 2 = type := by
    rw [hdatagram]
    exact List.take_left' htype.1
  have hdrop : datagram.drop 8 = transaction ++ body := by
    rw [hdatagram, ← List.append_assoc, ← List.append_assoc]
    apply List.drop_left'
    simp [htype.1, hoctets.1, hmagic.1]
  refine ⟨?_, ?_, ?_⟩
  . rw [hdatagram, ← h.2]
    simp only [List.length_append, htype.1, hoctets.1, hmagic.1, htransaction.1, headerLength]
    omega
  . rw [hdrop, ← h.1, List.take_left' htransaction.1]
    exact hid.symm
  . rw [htake, ← h.1]

/-- A datagram with a tag: the octets before the tag, which make the bare message and which, with a length
field as if nothing followed the tag, are what the tag covers. -/
structure Tagged (datagram : Bytes) (r : Received) (before : Bytes) : Prop where
  placed : ∃ (a : Attribute) (after : Bytes) (tag : Tag),
    datagram = before ++ (a.bytes ++ after) ∧ Role.ofType a.type = .integrity ∧
    r.message.integrity = some tag ∧ a.value = tag.bytes
  length : headerLength ≤ before.length
  covered : r.covered = some (withLength (before.length + 24 - headerLength) before)
  makes : Makes before r.message.bare

theorem tagged_of_decode (h : decode datagram = .ok r) (hsome : r.message.integrity.isSome)
    : ∃ before, Tagged datagram r before := by
  unfold decode at h
  split at h
  . simp at h
  . next m length hheader =>
    rcases readHeader_eq_some hheader with ⟨hlength, htransaction, hm⟩
    generalize hscan : Attribute.scan ((datagram.drop headerLength).take length) = scanned at h
    rcases scanned with ⟨as, fault⟩
    dsimp only at h
    split at h
    . simp at h
    . simp at h
    . next habsorb =>
      rw [Except.ok.injEq] at h
      rw [h] at habsorb
      have hnone : m.integrity = none := by rw [hm]
      have hbare : m.bare = m := by
        rw [hm]
        rfl
      rcases Received.absorbAll_splits hnone hsome habsorb with ⟨front, a, rest, has, hsplits⟩
      rcases hsplits.value with ⟨tag, htag, hvalue⟩
      have hrow := Attribute.scan_flatMap_bytes hscan
      rw [has, List.flatMap_append, List.flatMap_cons] at hrow
      have hheader : (datagram.take headerLength).length = headerLength := by
        rw [List.length_take]
        omega
      have hdatagram : datagram = datagram.take headerLength ++ front.flatMap Attribute.bytes ++
          (a.bytes ++ (rest.flatMap Attribute.bytes ++ (datagram.drop headerLength).drop length)) := by
        conv => lhs; rw [← List.take_append_drop headerLength datagram,
          ← List.take_append_drop length (datagram.drop headerLength), ← hrow]
        simp only [List.append_assoc]
      have hbefore : datagram.take (headerLength + (front.flatMap Attribute.bytes).length) =
          datagram.take headerLength ++ front.flatMap Attribute.bytes := by
        conv => lhs; rw [hdatagram]
        apply List.take_left'
        rw [List.length_append, hheader]
      have hcovered := hsplits.covered
      rw [hbefore] at hcovered
      refine ⟨_, ⟨a, _, tag, hdatagram, hsplits.role, htag, hvalue⟩, ?_, hcovered, m.transaction, front, ?_, ?_, ?_, ?_⟩
      . rw [List.length_append, hheader]
        omega
      . rw [htransaction, ← hbefore, List.drop_take, List.take_take]
        congr 1
        unfold headerLength
        omega
      . intro b hb
        apply Attribute.fits_of_scan hscan
        rw [has]
        exact List.mem_append_left _ hb
      . rw [List.drop_left' hheader]
      . have htype : (datagram.take headerLength ++ front.flatMap Attribute.bytes).take 2 = datagram.take 2 := by
          rw [List.take_append_of_le_length (by rw [hheader]; decide), List.take_take]
          rfl
        rw [htype, ← hm, ← hsplits.bare, hbare]

theorem take_eq_of_withLength_eq {before before' : Bytes} (hlength : headerLength ≤ before.length)
    (hlength' : headerLength ≤ before'.length) {n n' : Nat} (h : withLength n before = withLength n' before')
    : before.take 2 = before'.take 2 ∧ before.drop 4 = before'.drop 4 := by
  unfold headerLength at hlength hlength'
  unfold withLength at h
  rw [List.append_assoc, List.append_assoc] at h
  have htake : (before.take 2).length = (before'.take 2).length := by
    rw [List.length_take, List.length_take]
    omega
  have hrest := (List.append_inj h htake).2
  have hlengths : (Bytes.ofNat 2 n).length = (Bytes.ofNat 2 n').length := by
    rw [Bytes.length_ofNat, Bytes.length_ofNat]
  exact ⟨(List.append_inj h htake).1, (List.append_inj hrest hlengths).2⟩

theorem Tagged.bare_eq {datagram' before before' : Bytes} {r' : Received} (h : Tagged datagram r before)
    (h' : Tagged datagram' r' before') (hcovered : r.covered = r'.covered) : r.message.bare = r'.message.bare := by
  rw [h.covered, h'.covered, Option.some.injEq] at hcovered
  rcases take_eq_of_withLength_eq h.length h'.length hcovered with ⟨htake, hdrop⟩
  exact h.makes.unique h'.makes htake hdrop

theorem Received.integrity_eq_of_verifies {r' : Received} {key : Bytes} (hcovered : r.covered = r'.covered)
    (h : r.verifies key) (h' : r'.verifies key) : r.message.integrity = r'.message.integrity := by
  unfold verifies at h h'
  rw [← hcovered] at h'
  cases hoctets : r.covered with
  | none =>
    rw [hoctets] at h
    simp at h
  | some octets =>
    rw [hoctets] at h h'
    cases htag : r.message.integrity with
    | none =>
      rw [htag] at h
      simp at h
    | some tag =>
      cases htag' : r'.message.integrity with
      | none =>
        rw [htag'] at h'
        simp at h'
      | some tag' =>
        rw [htag, decide_eq_true_iff] at h
        rw [htag', decide_eq_true_iff] at h'
        rw [← h, ← h']

theorem Message.eq_of_bare_eq {m m' : Message} (h : m.bare = m'.bare)
    : m = { m' with integrity := m.integrity, fingerprint := m.fingerprint } := by
  cases m
  cases m'
  simp only [bare, Message.mk.injEq] at h
  simp [h]

end Decoding

/-- Two datagrams whose tags cover the same octets are the same message apart from the tag and the
fingerprint, whatever follows the tags; with right tags under one key, apart from the fingerprint. What a tag
covers is what stands before it, with a length field that ends the message behind it. -/
theorem message_eq_of_covered_eq {datagram datagram' : Bytes} {r r' : Received} (h : decode datagram = .ok r)
    (h' : decode datagram' = .ok r') (hsome : r.message.integrity.isSome) (hsome' : r'.message.integrity.isSome)
    (hcovered : r.covered = r'.covered)
    : (∃ (before : Bytes) (a : Attribute) (after : Bytes) (tag : Tag),
        datagram = before ++ (a.bytes ++ after) ∧ Role.ofType a.type = .integrity ∧
        r.message.integrity = some tag ∧ a.value = tag.bytes ∧
        r.covered = some (withLength (before.length + 24 - headerLength) before)) ∧
      r.message = { r'.message with integrity := r.message.integrity, fingerprint := r.message.fingerprint } ∧
      r.message.fragment? = r'.message.fragment? ∧
      ∀ key, r.verifies key → r'.verifies key →
        r.message = { r'.message with fingerprint := r.message.fingerprint } := by
  rcases tagged_of_decode h hsome with ⟨before, htagged⟩
  rcases tagged_of_decode h' hsome' with ⟨before', htagged'⟩
  have heq := Message.eq_of_bare_eq (htagged.bare_eq htagged' hcovered)
  refine ⟨?_, heq, ?_, ?_⟩
  . rcases htagged.placed with ⟨a, after, tag, hdatagram, hrole, htag, hvalue⟩
    exact ⟨before, a, after, tag, hdatagram, hrole, htag, hvalue, htagged.covered⟩
  . rw [heq]
    rfl
  . intro key hverifies hverifies'
    have hintegrity := Received.integrity_eq_of_verifies hcovered hverifies hverifies'
    rw [hintegrity] at heq
    exact heq

section Sample

def sampleTagged : Bytes :=
  let request : Message := {
    type := .bindingRequest
    transaction := ⟨List.replicate 12 3, rfl⟩
    username := some "relay:9QwW" }
  request.encode (some [115, 101, 99])

/-- With a priority, an attribute that must be understood and a second tag behind the tag, and some more
octets behind the message. -/
def sampleExtended : Bytes :=
  withLength 80 sampleTagged ++
    ([0, 0x24, 0, 4, 0, 0, 0, 7] ++ [0, 0x30, 0, 4, 1, 2, 3, 4] ++ [0, 8, 0, 20] ++ List.replicate 20 0xAA) ++ [1, 2]

theorem message_eq_sampleExtended
    : ∃ r r',
        decode sampleTagged = .ok r ∧ decode sampleExtended = .ok r' ∧
        r.message.integrity.isSome ∧ r'.message.integrity.isSome ∧ r.covered = r'.covered ∧
        r.verifies [115, 101, 99] ∧ r'.verifies [115, 101, 99] ∧
        r.message.fragment? = r'.message.fragment? ∧
        r.message = { r'.message with fingerprint := r.message.fingerprint } := by
  have hcheck : (match decode sampleTagged, decode sampleExtended with
      | .ok r, .ok r' => decide (r.message.integrity.isSome ∧ r'.message.integrity.isSome ∧
          r.covered = r'.covered ∧ r.verifies [115, 101, 99] ∧ r'.verifies [115, 101, 99])
      | _, _ => false) = true := by
    decide +kernel
  split at hcheck
  . next r r' h h' =>
    rw [decide_eq_true_iff] at hcheck
    rcases hcheck with ⟨hsome, hsome', hcovered, hverifies, hverifies'⟩
    rcases message_eq_of_covered_eq h h' hsome hsome' hcovered with ⟨-, -, hfragment, heq⟩
    exact ⟨r, r', h, h', hsome, hsome', hcovered, hverifies, hverifies', hfragment,
      heq [115, 101, 99] hverifies hverifies'⟩
  . simp at hcheck

end Sample

end Intercom.Stun
