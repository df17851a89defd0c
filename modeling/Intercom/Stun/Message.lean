import Intercom.Crypto.Crc32
import Intercom.Crypto.Hmac
import Intercom.Stun.Attribute
import Intercom.Stun.MessageType
import Intercom.Text.Utf8

/-!
This module contains STUN messages with the attributes that connectivity checks use, how they are
written, and how they are read together with the octets that their integrity tag covers.
-/

namespace Intercom.Stun

abbrev TransactionId := Octets 12

abbrev Tag := Octets 20

structure Message where
  type : MessageType
  transaction : TransactionId
  mapped : Option Endpoint := none
  username : Option String := none
  xorMapped : Option Endpoint := none
  priority : Option UInt32 := none
  /-- Only read, never written. -/
  useCandidate : Bool := false
  iceControlled : Option UInt64 := none
  iceControlling : Option UInt64 := none
  responseOrigin : Option Endpoint := none
  integrity : Option Tag := none
  /-- When reading, that a right fingerprint was there; when writing, that one is to be added. -/
  fingerprint : Bool := false
deriving DecidableEq

def headerLength : Nat := 20

def withLength (length : Nat) (bs : Bytes) : Bytes :=
  bs.take 2 ++ Bytes.ofNat 2 length ++ bs.drop 4

def fingerprintOf (bs : Bytes) : UInt32 :=
  Crc32.checksum bs ^^^ 0x5354554E

namespace Message

def attributes (m : Message) : List Attribute :=
  let mask := Mask.ofTransaction m.transaction
  [m.mapped.map fun e => .ofValue .mappedAddress (encodeAddress .plain e),
    m.username.map fun name => .ofValue .username (Utf8.encode name),
    m.xorMapped.map fun e => .ofValue .xorMappedAddress (encodeAddress mask e),
    m.priority.map fun p => .ofValue .priority (Bytes.ofNat 4 p.toNat),
    m.iceControlled.map fun t => .ofValue .iceControlled (Bytes.ofNat 8 t.toNat),
    m.iceControlling.map fun t => .ofValue .iceControlling (Bytes.ofNat 8 t.toNat),
    m.responseOrigin.map fun e => .ofValue .responseOrigin (encodeAddress .plain e)].filterMap id

def header (m : Message) : Bytes :=
  Bytes.ofNat 2 m.type.bits.toNat ++ [0, 0] ++ Bytes.ofNat 4 cookie.toNat ++ m.transaction.bytes

def content (m : Message) : Bytes :=
  m.header ++ m.attributes.flatMap Attribute.bytes

/-- The tag over the content; its length field counts the tag already. -/
def tagOf (key content : Bytes) : Tag :=
  Hmac.sha1 key (withLength (content.length - headerLength + 24) content)

/-- Adds the tag: computed under the key, or without one the tag that the message holds. -/
def withTag (m : Message) (key : Option Bytes) (content : Bytes) : Bytes :=
  let tag := match key with
    | some key => some (tagOf key content)
    | none => m.integrity
  match tag with
  | some tag => content ++ (Attribute.ofValue .integrity tag.bytes).bytes
  | none => content

/-- Adds the fingerprint, whose checksum sees a length field that counts the fingerprint already. -/
def withFingerprint (m : Message) (bs : Bytes) : Bytes :=
  if m.fingerprint then
    let checksum := fingerprintOf (withLength (bs.length - headerLength + 8) bs)
    bs ++ (Attribute.ofValue .fingerprint (Bytes.ofNat 4 checksum.toNat)).bytes
  else bs

def encode (m : Message) (key : Option Bytes) : Bytes :=
  let bs := m.withFingerprint (m.withTag key m.content)
  withLength (bs.length - headerLength) bs

/-- The part of the user name between its first and its second colon. -/
def fragment? (m : Message) : Option String := do
  let name ← m.username
  match name.toList.dropWhile (· ≠ ':') with
  | [] => none
  | _ :: rest => some (String.ofList (rest.takeWhile (· ≠ ':')))

end Message

structure Received where
  message : Message
  /-- What the tag covers: the octets before it, with a length field as if nothing followed it. -/
  covered : Option Bytes := none
deriving DecidableEq

namespace Received

def verifies (r : Received) (key : Bytes) : Bool :=
  match r.message.integrity, r.covered with
  | some tag, some covered => Hmac.sha1 key covered = tag
  | _, _ => false

/-- Takes the first attribute of a kind; later ones are not looked at. -/
def first (r : Received) (type : UInt16) (old new : Option α) (set : α → Message) :
    Except Error Received :=
  if old.isSome then .ok r
  else match new with
    | none => .error (.malformedAttribute type)
    | some x => .ok { r with message := set x }

/-- Takes an attribute that stands behind the octets `before`. Behind the tag only fingerprints are
looked at. -/
def absorb (r : Received) (before : Bytes) (a : Attribute) : Except Error Received :=
  let m := r.message
  let role := Role.ofType a.type
  if m.integrity.isSome ∧ role ≠ .fingerprint then .ok r
  else match role with
    | .mappedAddress =>
      r.first a.type m.mapped (decodeAddress? .plain a.value) fun e => { m with mapped := e }
    | .username =>
      r.first a.type m.username (some (Utf8.decodeLossy a.value)) fun name =>
        { m with username := name }
    | .xorMappedAddress =>
      r.first a.type m.xorMapped (decodeAddress? (.ofTransaction m.transaction) a.value) fun e =>
        { m with xorMapped := e }
    | .priority =>
      r.first a.type m.priority ((number? 4 a.value).map UInt32.ofNat) fun n =>
        { m with priority := n }
    | .iceControlled =>
      r.first a.type m.iceControlled ((number? 8 a.value).map UInt64.ofNat) fun n =>
        { m with iceControlled := n }
    | .iceControlling =>
      r.first a.type m.iceControlling ((number? 8 a.value).map UInt64.ofNat) fun n =>
        { m with iceControlling := n }
    | .responseOrigin =>
      r.first a.type m.responseOrigin (decodeAddress? .plain a.value) fun e =>
        { m with responseOrigin := e }
    | .useCandidate => .ok { r with message := { m with useCandidate := true } }
    | .integrity =>
      match Octets.ofBytes? 20 a.value with
      | none => .error (.malformedAttribute a.type)
      | some tag =>
        let covered := withLength (before.length + 24 - headerLength) before
        .ok ⟨{ m with integrity := some tag }, some covered⟩
    | .fingerprint =>
      match number? 4 a.value with
      | none => .error (.malformedAttribute a.type)
      | some n =>
        if UInt32.ofNat n = fingerprintOf before then
          .ok { r with message := { m with fingerprint := true } }
        else .error .notStun
    | .unknown => .error (.unknownAttribute a.type)
    | .ignored => .ok r

def absorbAll (datagram : Bytes) : (offset : Nat) → Received → List Attribute → Except Error Received
  | _, r, [] => .ok r
  | offset, r, a :: as =>
    match r.absorb (datagram.take offset) a with
    | .error e => .error e
    | .ok r => absorbAll datagram (offset + a.bytes.length) r as

end Received

def readHeader (datagram : Bytes) : Option (Message × Nat) := do
  let (type, rest) ← Bytes.cut? 2 datagram
  let (length, rest) ← Bytes.cut? 2 rest
  let (magic, rest) ← Bytes.cut? 4 rest
  let (transaction, body) ← Bytes.cut? 12 rest
  let transaction ← Octets.ofBytes? 12 transaction
  guard (Bytes.toNat type < 0x4000)
  guard (Bytes.toNat length ≤ body.length)
  guard (Bytes.toNat magic = cookie.toNat)
  return ({ type := ⟨UInt16.ofNat (Bytes.toNat type)⟩, transaction }, Bytes.toNat length)

/-- Reads the message at the front of a datagram. Of two faults the one further left counts. -/
def decode (datagram : Bytes) : Except Error Received :=
  match readHeader datagram with
  | none => .error .notStun
  | some (message, length) =>
    let (attributes, fault) := Attribute.scan ((datagram.drop headerLength).take length)
    match Received.absorbAll datagram headerLength ⟨message, none⟩ attributes, fault with
    | .error e, _ => .error e
    | .ok _, some e => .error e
    | .ok r, none => .ok r

end Intercom.Stun
