import Intercom.Bytes.Hex
import Intercom.Json.Number

/-!
This module contains the reading of JSON tokens, by a machine that takes one character at a time.
-/

namespace Intercom.Json

/-- Where the machine stands. Characters that were read are kept last first. -/
inductive Scan where
  | between
  | word (read : List Char)
  | string (read : List Char)
  | escape (read : List Char)
  /-- In a `\u` escape, with the digits still owed and their value so far; after a high surrogate. -/
  | unicode (read : List Char) (high : Option Nat) (owed value : Nat)
  | half (read : List Char) (high : Nat)
  | halfEscape (read : List Char) (high : Nat)

def isSpace (c : Char) : Bool :=
  c = ' ' || c = '\n' || c = '\t' || c = '\r'

def punctuation? (c : Char) : Option Token :=
  if c = '[' then some .openArray
  else if c = ']' then some .closeArray
  else if c = '\x7b' then some .openObject
  else if c = '\x7d' then some .closeObject
  else if c = ',' then some .comma
  else if c = ':' then some .colon
  else none

def word? (cs : List Char) : Option Token :=
  if cs = Token.null.text then some .null
  else if cs = (Token.bool true).text then some (.bool true)
  else if cs = (Token.bool false).text then some (.bool false)
  else (Number.ofChars? cs).map .number

def begin (c : Char) : List Token × Scan :=
  if isSpace c then ([], .between)
  else if c = '"' then ([], .string [])
  else match punctuation? c with
    | some t => ([t], .between)
    | none => ([], .word [c])

def unescape? (c : Char) : Option Char :=
  if c = '"' ∨ c = '\\' ∨ c = '/' then some c
  else if c = 'b' then some '\x08'
  else if c = 'f' then some '\x0c'
  else if c = 'n' then some '\n'
  else if c = 'r' then some '\r'
  else if c = 't' then some '\t'
  else none

/-- The end of a `\u` escape. A high surrogate must be followed by the escape of a low one. -/
def endUnicode (read : List Char) (high : Option Nat) (value : Nat) : Option Scan :=
  let isHigh := 0xD800 ≤ value ∧ value < 0xDC00
  let isLow := 0xDC00 ≤ value ∧ value < 0xE000
  match high with
  | none =>
    if isLow then none
    else if isHigh then some (.half read value)
    else some (.string (Char.ofNat value :: read))
  | some high =>
    if isLow then
      some (.string (Char.ofNat (0x10000 + (high - 0xD800) * 0x400 + (value - 0xDC00)) :: read))
    else none

def Scan.step (s : Scan) (c : Char) : Option (List Token × Scan) :=
  match s with
  | .between => some (begin c)
  | .word read =>
    if isSpace c || c = '"' || (punctuation? c).isSome then do
      let t ← word? read.reverse
      let (ts, s) := begin c
      return (t :: ts, s)
    else some ([], .word (c :: read))
  | .string read =>
    if c = '"' then some ([.string (String.ofList read.reverse)], .between)
    else if c = '\\' then some ([], .escape read)
    else if c.toNat < 32 then none
    else some ([], .string (c :: read))
  | .escape read =>
    if c = 'u' then some ([], .unicode read none 4 0)
    else (unescape? c).map fun d => ([], .string (d :: read))
  | .unicode read high owed value => do
    let d ← Hex.value? c
    let value := value * 16 + d
    if owed ≤ 1 then
      let s ← endUnicode read high value
      return ([], s)
    else return ([], .unicode read high (owed - 1) value)
  | .half read high => if c = '\\' then some ([], .halfEscape read high) else none
  | .halfEscape read high => if c = 'u' then some ([], .unicode read (some high) 4 0) else none

def Scan.finish : Scan → Option (List Token)
  | .between => some []
  | .word read => (word? read.reverse).map ([·])
  | _ => none

def Scan.run (s : Scan) : List Char → Option (List Token)
  | [] => s.finish
  | c :: cs => do
    let (ts, s) ← s.step c
    let more ← run s cs
    return ts ++ more

def tokens? (text : String) : Option (List Token) :=
  Scan.between.run text.toList

end Intercom.Json
