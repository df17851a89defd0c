import Mathlib
import Intercom.Proofs.Stun.Attribute
import Intercom.Proofs.Text.Utf8
import Intercom.Stun.Message

/-!
This module contains the main statement about STUN messages: a message that is written is read back with
all its attributes, the tag and the fingerprint included. Of its addresses the flow and the scope stay behind.
-/

namespace Intercom.Stun

theorem filterMap_id_cons {α : Type} (x : Option α) (xs : List (Option α))
    : (x :: xs).filterMap id = x.toList ++ xs.filterMap id := by
  cases x with
  | none => rfl
  | some x => rfl

theorem length_withLength (n : Nat) {bs : Bytes} (h : 4 ≤ bs.length) : (withLength n bs).length = bs.length := by
  unfold withLength
  simp only [List.length_append, List.length_take, List.length_drop, Bytes.length_ofNat]
  omega

theorem withLength_append (n : Nat) {bs : Bytes} (h : 4 ≤ bs.length) (rest : Bytes)
    : withLength n (bs ++ rest) = withLength n bs ++ rest := by
  unfold withLength
  rw [List.take_append_of_le_length (by omega), List.drop_append_of_le_length h, List.append_assoc,
    List.append_assoc, List.append_assoc]

theorem withLength_withLength (n k : Nat) {bs : Bytes} (h : 4 ≤ bs.length)
    : withLength n (withLength k bs) = withLength n bs := by
  have htake : (bs.take 2).length = 2 := by
    rw [List.length_take]
    omega
  have hfront : (bs.take 2 ++ Bytes.ofNat 2 k).length = 4 := by
    rw [List.length_append, htake, Bytes.length_ofNat]
  have htwo : (withLength k bs).take 2 = bs.take 2 := by
    unfold withLength
    rw [List.append_assoc, List.take_left' htake]
  have hfour : (withLength k bs).drop 4 = bs.drop 4 := by
    unfold withLength
    rw [List.drop_left' hfront]
  change (withLength k bs).take 2 ++ Bytes.ofNat 2 n ++ (withLength k bs).drop 4 = _
  rw [htwo, hfour]
  rfl

namespace Role

theorem ofType_type (role : Role) : ofType role.type = role := by
  cases role <;> decide

end Role

namespace Message

variable {m : Message} {key : Option Bytes}

def tag? (m : Message) (key : Option Bytes) : Option Tag :=
  match key with
  | some key => some (tagOf key m.content)
  | none => m.integrity

def tagAttribute? (m : Message) (key : Option Bytes) : Option Attribute :=
  (m.tag? key).map fun tag => .ofValue .integrity tag.bytes

def tagged (m : Message) (key : Option Bytes) : List Attribute :=
  m.attributes ++ (m.tagAttribute? key).toList

def fingerprintAttribute? (m : Message) (key : Option Bytes) : Option Attribute :=
  let bs := m.withTag key m.content
  if m.fingerprint then
    some (.ofValue .fingerprint
      (Bytes.ofNat 4 (fingerprintOf (withLength (bs.length - headerLength + 8) bs)).toNat))
  else none

def written (m : Message) (key : Option Bytes) : List Attribute :=
  m.tagged key ++ (m.fingerprintAttribute? key).toList

theorem length_header (m : Message) : m.header.length = headerLength := by
  unfold header headerLength
  simp [m.transaction.length_eq]

theorem withTag_content (m : Message) (key : Option Bytes)
    : m.withTag key m.content = m.header ++ (m.tagged key).flatMap Attribute.bytes := by
  have hcontent : m.content = m.header ++ m.attributes.flatMap Attribute.bytes := rfl
  unfold withTag tagged tagAttribute? tag?
  rw [List.flatMap_append, ← List.append_assoc, ← hcontent]
  cases key with
  | some key => simp
  | none => cases m.integrity <;> simp

theorem encode_eq (m : Message) (key : Option Bytes)
    : m.encode key =
        withLength ((m.written key).flatMap Attribute.bytes).length m.header ++
          (m.written key).flatMap Attribute.bytes := by
  have hbytes : m.withFingerprint (m.withTag key m.content) =
      m.header ++ (m.written key).flatMap Attribute.bytes := by
    unfold withFingerprint written fingerprintAttribute?
    split
    . simp [withTag_content]
    . simp [withTag_content]
  unfold encode
  rw [hbytes]
  dsimp only
  rw [List.length_append, length_header, withLength_append]
  . rw [Nat.add_sub_cancel_left]
  . rw [length_header]
    decide

theorem fingerprintAttribute?_eq_some (h : m.fingerprint = true)
    : m.fingerprintAttribute? key = some (.ofValue .fingerprint (Bytes.ofNat 4 (fingerprintOf
        (withLength ((m.written key).flatMap Attribute.bytes).length (m.withTag key m.content))).toNat)) := by
  have hlength : ((m.written key).flatMap Attribute.bytes).length =
      (m.withTag key m.content).length - headerLength + 8 := by
    rw [withTag_content]
    unfold written fingerprintAttribute?
    rw [if_pos h, List.flatMap_append, List.length_append, List.length_append, length_header]
    simp [Attribute.length_bytes, Attribute.ofValue, Attribute.paddingLength]
  rw [hlength]
  unfold fingerprintAttribute?
  rw [if_pos h]

/-- The message whose addresses have neither flow nor scope. -/
def bareAddresses (m : Message) : Message :=
  { m with
    mapped := m.mapped.map .bare
    xorMapped := m.xorMapped.map .bare
    responseOrigin := m.responseOrigin.map .bare }

def readBack (m : Message) (key : Option Bytes) : Received :=
  ⟨{ m.bareAddresses with useCandidate := false, integrity := m.tag? key },
    (m.tag? key).map fun _ => withLength (m.content.length - headerLength + 24) m.content⟩

end Message

namespace Received

variable {datagram : Bytes} {offset : Nat} {rest : List Attribute}

/-- An attribute that is there or not, and that sets one field to what it tells. -/
theorem absorbAll_toList_map {α : Type} (set : Option α → Received) (write : α → Attribute) (told : α → α)
    (x : Option α) (h : ∀ x, (set none).absorb (datagram.take offset) (write x) = .ok (set (some (told x))))
    : absorbAll datagram offset (set none) ((x.map write).toList ++ rest) =
        absorbAll datagram (offset + ((x.map write).toList.flatMap Attribute.bytes).length) (set (x.map told))
          rest := by
  cases x with
  | none => rfl
  | some x =>
    simp only [Option.map_some, Option.toList_some, List.singleton_append, List.flatMap_singleton]
    conv => lhs; unfold absorbAll
    rw [h]

theorem absorbAll_toList {α : Type} (set : Option α → Received) (write : α → Attribute) (x : Option α)
    (h : ∀ x, (set none).absorb (datagram.take offset) (write x) = .ok (set (some x)))
    : absorbAll datagram offset (set none) ((x.map write).toList ++ rest) =
        absorbAll datagram (offset + ((x.map write).toList.flatMap Attribute.bytes).length) (set x) rest := by
  have hmap : x.map id = x := Option.map_id_apply
  rw [absorbAll_toList_map set write id x h, hmap]

theorem absorbAll_attributes (m : Message)
    : absorbAll datagram offset ⟨{ type := m.type, transaction := m.transaction }, none⟩ (m.attributes ++ rest) =
        absorbAll datagram (offset + (m.attributes.flatMap Attribute.bytes).length)
          ⟨{ m.bareAddresses with useCandidate := false, integrity := none, fingerprint := false }, none⟩ rest := by
  rcases m with ⟨type, transaction, mapped, username, xorMapped, priority, _, iceControlled,
    iceControlling, responseOrigin, _, _⟩
  have hpriority : ∀ p : UInt32, number? 4 (Bytes.ofNat 4 p.toNat) = some p.toNat :=
    fun p => number?_ofNat p.toNat_lt
  have htie : ∀ t : UInt64, number? 8 (Bytes.ofNat 8 t.toNat) = some t.toNat :=
    fun t => number?_ofNat t.toNat_lt
  unfold Message.attributes
  simp only [filterMap_id_cons, List.filterMap_nil, List.append_assoc, List.append_nil]
  -- One step for each field, in the order in which they are written; what each step needs is shown
  -- below, the last field first.
  rw [absorbAll_toList_map (fun x => ⟨{ type, transaction, mapped := x }, none⟩) _ .bare]
  rw [absorbAll_toList fun x => ⟨{ type, transaction, mapped := mapped.map .bare, username := x }, none⟩]
  rw [absorbAll_toList_map (fun x =>
    ⟨{ type, transaction, mapped := mapped.map .bare, username, xorMapped := x }, none⟩) _ .bare]
  rw [absorbAll_toList fun x =>
    ⟨{ type, transaction, mapped := mapped.map .bare, username, xorMapped := xorMapped.map .bare, priority := x },
      none⟩]
  rw [absorbAll_toList fun x =>
    ⟨{ type, transaction, mapped := mapped.map .bare, username, xorMapped := xorMapped.map .bare, priority,
       iceControlled := x }, none⟩]
  rw [absorbAll_toList fun x =>
    ⟨{ type, transaction, mapped := mapped.map .bare, username, xorMapped := xorMapped.map .bare, priority,
       iceControlled, iceControlling := x }, none⟩]
  rw [absorbAll_toList_map (fun x =>
    ⟨{ type, transaction, mapped := mapped.map .bare, username, xorMapped := xorMapped.map .bare, priority,
       iceControlled, iceControlling, responseOrigin := x }, none⟩) _ .bare]
  . simp [Nat.add_assoc, Message.bareAddresses]
  . intro e
    simp only [absorb, Attribute.ofValue, decodeAddress?_encodeAddress]
    rfl
  . intro t
    simp only [absorb, Attribute.ofValue, htie, Option.map_some, UInt64.ofNat_toNat]
    rfl
  . intro t
    simp only [absorb, Attribute.ofValue, htie, Option.map_some, UInt64.ofNat_toNat]
    rfl
  . intro p
    simp only [absorb, Attribute.ofValue, hpriority, Option.map_some, UInt32.ofNat_toNat]
    rfl
  . intro e
    simp only [absorb, Attribute.ofValue, decodeAddress?_encodeAddress]
    rfl
  . intro name
    simp only [absorb, Attribute.ofValue, Utf8.decodeLossy_encode]
    rfl
  . intro e
    simp only [absorb, Attribute.ofValue, decodeAddress?_encodeAddress]
    rfl

theorem absorbAll_tagAttribute? {n : Nat} (m : Message) (key : Option Bytes)
    (h : datagram.take offset = withLength n m.content)
    : absorbAll datagram offset
        ⟨{ m.bareAddresses with useCandidate := false, integrity := none, fingerprint := false }, none⟩
        ((m.tagAttribute? key).toList ++ rest) =
        absorbAll datagram (offset + ((m.tagAttribute? key).toList.flatMap Attribute.bytes).length)
          ⟨{ (m.readBack key).message with fingerprint := false }, (m.readBack key).covered⟩ rest := by
  have hlength : headerLength ≤ m.content.length := by
    unfold Message.content
    rw [List.length_append, Message.length_header]
    omega
  -- The octets before the tag are patched twice: when all is written, and when they are read.
  have hwithLength : withLength ((withLength n m.content).length + 24 - headerLength) (withLength n m.content) =
      withLength (m.content.length - headerLength + 24) m.content := by
    unfold headerLength at hlength ⊢
    rw [withLength_withLength, length_withLength]
    . congr 1
      omega
    . omega
    . omega
  apply absorbAll_toList fun tag => ⟨
    { m.bareAddresses with useCandidate := false, integrity := tag, fingerprint := false },
    tag.map fun _ => withLength (m.content.length - headerLength + 24) m.content⟩
  intro tag
  rw [h]
  unfold absorb Attribute.ofValue
  simp only [Role.ofType_type, Octets.ofBytes?_bytes]
  rw [if_neg]
  . simp only [hwithLength, Option.map_some]
  . simp

theorem absorb_fingerprint (r : Received) (before : Bytes)
    : r.absorb before (.ofValue .fingerprint (Bytes.ofNat 4 (fingerprintOf before).toNat)) =
        .ok { r with message := { r.message with fingerprint := true } } := by
  have hnumber : number? 4 (Bytes.ofNat 4 (fingerprintOf before).toNat) = some (fingerprintOf before).toNat :=
    number?_ofNat (fingerprintOf before).toNat_lt
  unfold absorb Attribute.ofValue
  simp only [Role.ofType_type, hnumber, UInt32.ofNat_toNat]
  simp

theorem absorbAll_fingerprintAttribute? (m : Message) (key : Option Bytes)
    (h : datagram.take offset =
      withLength ((m.written key).flatMap Attribute.bytes).length (m.withTag key m.content))
    : absorbAll datagram offset ⟨{ (m.readBack key).message with fingerprint := false }, (m.readBack key).covered⟩
        (m.fingerprintAttribute? key).toList = .ok (m.readBack key) := by
  cases hfingerprint : m.fingerprint with
  | true =>
    rw [Message.fingerprintAttribute?_eq_some hfingerprint, Option.toList_some]
    unfold absorbAll
    rw [h, absorb_fingerprint]
    unfold absorbAll Message.readBack Message.bareAddresses
    rw [hfingerprint]
  | false =>
    have hnone : m.fingerprintAttribute? key = none := by
      unfold Message.fingerprintAttribute?
      rw [hfingerprint]
      rfl
    rw [hnone, Option.toList_none]
    unfold absorbAll Message.readBack Message.bareAddresses
    rw [hfingerprint]

end Received

theorem withLength_header (n : Nat) (m : Message)
    : withLength n m.header = Bytes.ofNat 2 m.type.bits.toNat ++ (Bytes.ofNat 2 n ++
        (Bytes.ofNat 4 cookie.toNat ++ m.transaction.bytes)) := by
  have htake : m.header.take 2 = Bytes.ofNat 2 m.type.bits.toNat := by
    unfold Message.header
    rw [List.append_assoc, List.append_assoc]
    apply List.take_left'
    apply Bytes.length_ofNat
  have hdrop : m.header.drop 4 = Bytes.ofNat 4 cookie.toNat ++ m.transaction.bytes := by
    unfold Message.header
    rw [List.append_assoc]
    apply List.drop_left'
    rw [List.length_append, Bytes.length_ofNat]
    rfl
  unfold withLength
  rw [htake, hdrop, List.append_assoc]

theorem readHeader_withLength {m : Message} {n : Nat} {body : Bytes} (htype : m.type.bits < 0x4000)
    (hn : n < 0x10000) (hbody : n ≤ body.length)
    : readHeader (withLength n m.header ++ body) =
        some ({ type := m.type, transaction := m.transaction }, n) := by
  have hbits : Bytes.toNat (Bytes.ofNat 2 m.type.bits.toNat) = m.type.bits.toNat :=
    Bytes.toNat_ofNat_of_lt m.type.bits.toNat_lt
  have hlength : Bytes.toNat (Bytes.ofNat 2 n) = n := Bytes.toNat_ofNat_of_lt hn
  have hmagic : Bytes.toNat (Bytes.ofNat 4 cookie.toNat) = cookie.toNat :=
    Bytes.toNat_ofNat_of_lt cookie.toNat_lt
  rw [UInt16.lt_iff_toNat_lt] at htype
  unfold readHeader
  rw [withLength_header]
  simp only [List.append_assoc, Bytes.cut?_ofNat_append, Octets.cut?_append, Option.bind_eq_bind, Option.bind_some,
    hbits, hlength, hmagic, Octets.ofBytes?_bytes]
  have hbits' : m.type.bits.toNat < 0x4000 := htype
  simp [guard, hbits', hbody]

namespace Message

variable {m : Message} {key : Option Bytes}

theorem length_encode (m : Message) (key : Option Bytes)
    : (m.encode key).length = headerLength + ((m.written key).flatMap Attribute.bytes).length := by
  rw [encode_eq, List.length_append, length_withLength, length_header]
  rw [length_header]
  decide

theorem eq_ofValue_of_map {α : Type} {x : Option α} {role : Role} {value : α → Bytes} {a : Attribute}
    (h : some a = x.map fun y => .ofValue role (value y)) : ∃ role value, a = .ofValue role value := by
  rw [eq_comm, Option.map_eq_some_iff] at h
  rcases h with ⟨y, -, rfl⟩
  exact ⟨role, value y, rfl⟩

theorem eq_ofValue_of_mem {a : Attribute} (h : a ∈ m.written key) : ∃ role value, a = .ofValue role value := by
  unfold written tagged at h
  rw [List.mem_append, List.mem_append, Option.mem_toList, Option.mem_toList] at h
  rcases h with (hattributes | htag) | hfingerprint
  . unfold attributes at hattributes
    simp only [List.mem_filterMap, id_eq, exists_eq_right, List.mem_cons, List.not_mem_nil, or_false] at hattributes
    rcases hattributes with h | h | h | h | h | h | h
    all_goals exact eq_ofValue_of_map h
  . exact eq_ofValue_of_map htag.symm
  . unfold fingerprintAttribute? at hfingerprint
    split at hfingerprint
    . exact ⟨_, _, (Option.some.inj hfingerprint).symm⟩
    . simp at hfingerprint

theorem fits_of_mem {a : Attribute} (hlength : (m.encode key).length ≤ headerLength + 65535)
    (h : a ∈ m.written key) : a.Fits := by
  have hsublist := (List.singleton_sublist.2 h).flatMap Attribute.bytes
  have hle := hsublist.length_le
  rw [List.flatMap_singleton, Attribute.length_bytes] at hle
  rw [length_encode] at hlength
  rcases eq_ofValue_of_mem h with ⟨role, value, rfl⟩
  apply Attribute.fits_ofValue
  change (Attribute.ofValue role value).value.length < 0x10000
  omega

theorem flatMap_bytes_written (m : Message) (key : Option Bytes)
    : (m.written key).flatMap Attribute.bytes =
        m.attributes.flatMap Attribute.bytes ++
          ((m.tagAttribute? key).toList.flatMap Attribute.bytes ++
            (m.fingerprintAttribute? key).toList.flatMap Attribute.bytes) := by
  unfold written tagged
  rw [List.flatMap_append, List.flatMap_append, List.append_assoc]

/-- What stands at the front of a written message is what was there when the tag and the fingerprint were
computed, apart from the length field. -/
theorem take_encode {front back : Bytes} (h : (m.written key).flatMap Attribute.bytes = front ++ back)
    : (m.encode key).take (m.header ++ front).length =
        withLength ((m.written key).flatMap Attribute.bytes).length (m.header ++ front) := by
  have hheader : 4 ≤ m.header.length := by
    rw [length_header]
    decide
  rw [encode_eq]
  conv => lhs; rhs; rhs; rw [h]
  rw [← List.append_assoc, ← withLength_append _ hheader front]
  apply List.take_left'
  rw [length_withLength]
  rw [List.length_append]
  omega

theorem drop_encode (m : Message) (key : Option Bytes)
    : (m.encode key).drop headerLength = (m.written key).flatMap Attribute.bytes := by
  rw [encode_eq, List.drop_left']
  rw [length_withLength, length_header]
  rw [length_header]
  decide

theorem scan_drop_encode (hlength : (m.encode key).length ≤ headerLength + 65535)
    : Attribute.scan ((m.encode key).drop headerLength) = (m.written key, none) := by
  rw [drop_encode]
  apply Attribute.scan_bytes
  intro a ha
  exact fits_of_mem hlength ha

theorem decode_encode_eq_readBack (htype : m.type.bits < 0x4000)
    (hlength : (m.encode key).length ≤ headerLength + 65535) : decode (m.encode key) = .ok (m.readBack key) := by
  have hbody := length_encode m key
  have hread : readHeader (m.encode key) =
      some ({ type := m.type, transaction := m.transaction }, ((m.written key).flatMap Attribute.bytes).length) := by
    rw [encode_eq]
    apply readHeader_withLength htype
    . omega
    . omega
  have hdrop : ((m.encode key).drop headerLength).take ((m.written key).flatMap Attribute.bytes).length =
      (m.encode key).drop headerLength := by
    rw [drop_encode, List.take_length]
  have hcontent : (m.encode key).take (headerLength + (m.attributes.flatMap Attribute.bytes).length) =
      withLength ((m.written key).flatMap Attribute.bytes).length m.content := by
    have htake := take_encode (flatMap_bytes_written m key)
    rw [List.length_append, length_header] at htake
    exact htake
  have htagged : (m.encode key).take (headerLength + (m.attributes.flatMap Attribute.bytes).length +
      ((m.tagAttribute? key).toList.flatMap Attribute.bytes).length) =
      withLength ((m.written key).flatMap Attribute.bytes).length (m.withTag key m.content) := by
    have hwritten := flatMap_bytes_written m key
    rw [← List.append_assoc] at hwritten
    have htake := take_encode hwritten
    rw [List.length_append, List.length_append, length_header, ← Nat.add_assoc] at htake
    rw [withTag_content, htake]
    unfold tagged
    rw [List.flatMap_append]
  have habsorb : Received.absorbAll (m.encode key) headerLength
      ⟨{ type := m.type, transaction := m.transaction }, none⟩ (m.written key) = .ok (m.readBack key) := by
    unfold written tagged
    rw [List.append_assoc, Received.absorbAll_attributes, Received.absorbAll_tagAttribute? m key hcontent,
      Received.absorbAll_fingerprintAttribute? m key htagged]
  unfold decode
  rw [hread]
  dsimp only
  rw [hdrop, scan_drop_encode hlength]
  dsimp only
  rw [habsorb]

theorem verifies_readBack (m : Message) (key : Bytes) : (m.readBack (some key)).verifies key = true := by
  unfold readBack tag? Received.verifies tagOf
  simp

end Message

end Intercom.Stun
