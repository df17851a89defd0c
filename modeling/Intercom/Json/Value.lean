import Intercom.Bytes.Hex

/-!
This module contains JSON values and their compact text. The text is that of a row of tokens.
-/

namespace Intercom.Json

/-- A number: a whole one that fits 64 bits, or any other as it is written. -/
inductive Number where
  | whole (z : Int)
  | other (literal : List Char)
deriving DecidableEq

/-- Members keep their order, and names may repeat. -/
inductive Value where
  | null
  | bool (b : Bool)
  | number (n : Number)
  | string (s : String)
  | array (items : List Value)
  | object (members : List (String × Value))

namespace Value

def nat (n : Nat) : Value :=
  .number (.whole n)

def asString? : Value → Option String
  | .string s => some s
  | _ => none

def asBool? : Value → Option Bool
  | .bool b => some b
  | _ => none

def asNat? (bound : Nat) : Value → Option Nat
  | .number (.whole z) => if 0 ≤ z ∧ z < bound then some z.toNat else none
  | _ => none

end Value

inductive Token where
  | openArray
  | closeArray
  | openObject
  | closeObject
  | comma
  | colon
  | string (s : String)
  | null
  | bool (b : Bool)
  | number (n : Number)

def escape (c : Char) : List Char :=
  if c = '"' then ['\\', '"']
  else if c = '\\' then ['\\', '\\']
  else if c = '\x08' then ['\\', 'b']
  else if c = '\t' then ['\\', 't']
  else if c = '\n' then ['\\', 'n']
  else if c = '\x0c' then ['\\', 'f']
  else if c = '\r' then ['\\', 'r']
  else if c.toNat < 32 then ['\\', 'u', '0', '0', Hex.digit (c.toNat / 16), Hex.digit (c.toNat % 16)]
  else [c]

def Number.text : Number → List Char
  | .whole z => if z < 0 then '-' :: Nat.toDigits 10 z.natAbs else Nat.toDigits 10 z.natAbs
  | .other literal => literal

def Token.text : Token → List Char
  | .openArray => ['[']
  | .closeArray => [']']
  | .openObject => ['\x7b']
  | .closeObject => ['\x7d']
  | .comma => [',']
  | .colon => [':']
  | .string s => '"' :: s.toList.flatMap escape ++ ['"']
  | .null => ['n', 'u', 'l', 'l']
  | .bool true => ['t', 'r', 'u', 'e']
  | .bool false => ['f', 'a', 'l', 's', 'e']
  | .number n => n.text

namespace Value

mutual

def tokens : Value → List Token
  | .null => [.null]
  | .bool b => [.bool b]
  | .number n => [.number n]
  | .string s => [.string s]
  | .array [] => [.openArray, .closeArray]
  | .array (v :: vs) => .openArray :: tokens v ++ itemTokens vs
  | .object [] => [.openObject, .closeObject]
  | .object ((k, v) :: ms) => .openObject :: .string k :: .colon :: tokens v ++ memberTokens ms

def itemTokens : List Value → List Token
  | [] => [.closeArray]
  | v :: vs => .comma :: tokens v ++ itemTokens vs

def memberTokens : List (String × Value) → List Token
  | [] => [.closeObject]
  | (k, v) :: ms => .comma :: .string k :: .colon :: tokens v ++ memberTokens ms

end

def text (v : Value) : String :=
  String.ofList (v.tokens.flatMap Token.text)

end Value

end Intercom.Json
