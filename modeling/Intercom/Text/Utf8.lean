import Intercom.Bytes

/-!
This module contains UTF-8: writing text, and reading octets either strictly or with U+FFFD in the
place of every part that is none. A part that is none is as long as it could have been the start of a
character: the octet that breaks it is read again as the start of what follows.
-/

namespace Intercom.Utf8

def encode (text : String) : Bytes :=
  text.toList.flatMap String.utf8EncodeChar

/-- A character that has begun: how many octets are owed, between which bounds the next one lies, and
the bits so far. -/
structure Begun where
  owed : Nat
  low : UInt8
  high : UInt8
  bits : Nat

inductive Lead where
  | char (c : Char)
  | begun (s : Begun)
  | invalid

def lead (b : UInt8) : Lead :=
  if b < 0x80 then .char (Char.ofNat b.toNat)
  else if b < 0xC2 then .invalid
  else if b < 0xE0 then .begun ⟨1, 0x80, 0xBF, b.toNat % 32⟩
  else if b < 0xF0 then
    .begun ⟨2, if b = 0xE0 then 0xA0 else 0x80, if b = 0xED then 0x9F else 0xBF, b.toNat % 16⟩
  else if b < 0xF5 then
    .begun ⟨3, if b = 0xF0 then 0x90 else 0x80, if b = 0xF4 then 0x8F else 0xBF, b.toNat % 8⟩
  else .invalid

def first (b : UInt8) : List (Option Char) × Option Begun :=
  match lead b with
  | .char c => ([some c], none)
  | .begun s => ([], some s)
  | .invalid => ([none], none)

def next : Option Begun → UInt8 → List (Option Char) × Option Begun
  | none, b => first b
  | some s, b =>
    if s.low ≤ b ∧ b ≤ s.high then
      let bits := s.bits * 64 + b.toNat % 64
      if s.owed ≤ 1 then ([some (Char.ofNat bits)], none)
      else ([], some ⟨s.owed - 1, 0x80, 0xBF, bits⟩)
    else (none :: (first b).1, (first b).2)

/-- The characters that the octets spell, `none` for every part that is no character. -/
def read (bs : Bytes) : List (Option Char) :=
  go none bs
where
  go : Option Begun → Bytes → List (Option Char)
    | none, [] => []
    | some _, [] => [none]
    | s, b :: bs => (next s b).1 ++ go (next s b).2 bs

def decode? (bs : Bytes) : Option String :=
  ((read bs).mapM id).map String.ofList

def decodeLossy (bs : Bytes) : String :=
  String.ofList ((read bs).map (·.getD (Char.ofNat 0xFFFD)))

end Intercom.Utf8
