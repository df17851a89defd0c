import Intercom.Bytes.Hex
import Intercom.Double
import Intercom.Text.Reader
import Intercom.Toml.Value

/-!
This module contains the reading of TOML strings, numbers, truth values and dates.
-/

namespace Intercom.Toml

open Intercom.Text (Reader decimalValue? natOf)
open Intercom.Text.Reader

/-- Stands for itself in comments and strings: no control character but the tab. -/
def isPlain (c : Char) : Bool :=
  c = '\t' || (32 ≤ c.toNat && c.toNat ≠ 127)

def newline : Reader Unit :=
  char '\n' <|> literal ['\r', '\n']

def isBlank (c : Char) : Bool :=
  c = ' ' || c = '\t'

def blanks : Reader Unit :=
  discard (takeWhile isBlank)

def numbered (n : Nat) : Reader Char := do
  let ds ← times n (digit Hex.value?)
  let code := natOf 16 ds
  guard (code.isValidChar)
  return Char.ofNat code

def escaped : Reader Char := do
  char '\\'
  match ← satisfy fun _ => true with
  | 'b' => return '\x08'
  | 't' => return '\t'
  | 'n' => return '\n'
  | 'f' => return '\x0c'
  | 'r' => return '\r'
  | '"' => return '"'
  | '\\' => return '\\'
  | 'u' => numbered 4
  | 'U' => numbered 8
  | _ => failure

def basicString : Reader String := do
  char '"'
  let cs ← many (satisfy (fun c => isPlain c ∧ c ≠ '"' ∧ c ≠ '\\') <|> escaped)
  char '"'
  return String.ofList cs

def literalString : Reader String := do
  char '\''
  let cs ← takeWhile fun c => isPlain c ∧ c ≠ '\''
  char '\''
  return String.ofList cs

def fewQuotes (quote : Char) : Reader (List Char) := do
  let quotes ← takeWhile (· = quote)
  guard (quotes.length = 1 ∨ quotes.length = 2)
  return quotes

/-- A string between three quotes; the last of up to five quotes at its end close it. A newline right
behind the first three does not count. -/
def longString (quote : Char) (piece : Reader (List Char)) : Reader String := do
  literal [quote, quote, quote]
  let _ ← optional newline
  let pieces ← many (piece <|> (newline *> pure ['\n']) <|> fewQuotes quote)
  let quotes ← takeWhile (· = quote)
  guard (3 ≤ quotes.length ∧ quotes.length ≤ 5)
  return String.ofList (pieces.flatten ++ quotes.drop 3)

def hiddenNewline : Reader (List Char) := do
  char '\\'
  blanks
  newline
  let _ ← many (discard (satisfy isBlank) <|> newline)
  return []

def longBasicString : Reader String :=
  longString '"' <|
    (fun c => [c]) <$> satisfy (fun c => isPlain c ∧ c ≠ '"' ∧ c ≠ '\\') <|>
    hiddenNewline <|>
    (fun c => [c]) <$> escaped

def longLiteralString : Reader String :=
  longString '\'' ((fun c => [c]) <$> satisfy fun c => isPlain c ∧ c ≠ '\'')

def string : Reader String :=
  longBasicString <|> basicString <|> longLiteralString <|> literalString

def digitsOf (value? : Char → Option Nat) : Reader (List Nat) := do
  let d ← digit value?
  return d :: (← many (digit value? <|> (char '_' *> digit value?)))

def radixValue? (radix : Nat) (c : Char) : Option Nat := do
  let d ← Hex.value? c
  guard (d < radix)
  return d

def sign : Reader Bool :=
  (char '-' *> pure true) <|> (char '+' *> pure false)

def integer (z : Int) : Reader Value := do
  guard (Int64.minValue.toInt ≤ z ∧ z ≤ Int64.maxValue.toInt)
  return .integer z

def ofRadix (letter : Char) (radix : Nat) : Reader Value := do
  literal ['0', letter]
  integer (natOf radix (← digitsOf (radixValue? radix)))

/-- Whether `digits`, as the digits of a whole number times a power of ten, are beyond the doubles. Only
numbers with 309 digits before the point need a closer look. -/
def overflows (digits : List Nat) (exponent : Int) : Bool :=
  let digits := digits.dropWhile (· = 0)
  let magnitude := exponent + digits.length
  if digits = [] ∨ magnitude < 309 then false
  else if 309 < magnitude then true
  else Double.bound ≤ natOf 10 ((digits ++ List.replicate 309 0).take 309)

def exponent : Reader Int := do
  char 'e' <|> char 'E'
  let negative : Bool ← sign <|> pure false
  let n := natOf 10 (← digitsOf decimalValue?)
  return if negative then -n else n

/-- An integer, or a float if there is a fraction or an exponent. The whole part has no leading zeros. -/
def decimal : Reader Value := do
  let negative : Bool ← sign <|> pure false
  let whole ← digitsOf decimalValue?
  guard (whole.head? = some 0 → whole.length = 1)
  let fraction ← optional (char '.' *> digitsOf decimalValue?)
  let exponent ← optional exponent
  if fraction.isNone ∧ exponent.isNone then
    integer (if negative then -(natOf 10 whole : Int) else natOf 10 whole)
  else
    let fraction := fraction.getD []
    guard (negative ∨ ¬ overflows (whole ++ fraction) (exponent.getD 0 - fraction.length))
    return .float

def specialFloat : Reader Value := do
  let _ ← optional sign
  literal ['i', 'n', 'f'] <|> literal ['n', 'a', 'n']
  return .float

def fixed (n low high : Nat) : Reader Nat := do
  let ds ← times n (digit decimalValue?)
  let value := natOf 10 ds
  guard (low ≤ value ∧ value ≤ high)
  return value

def isLeap (year : Nat) : Bool :=
  year % 4 = 0 && (year % 100 ≠ 0 || year % 400 = 0)

def daysIn (year month : Nat) : Nat :=
  if month = 2 then if isLeap year then 29 else 28
  else if month = 4 ∨ month = 6 ∨ month = 9 ∨ month = 11 then 30
  else 31

def date : Reader Unit := do
  let year ← fixed 4 0 9999
  let month ← char '-' *> fixed 2 1 12
  let day ← char '-' *> fixed 2 1 31
  guard (day ≤ daysIn year month)

/-- A time of day; it may be in a leap second. -/
def time : Reader Unit := do
  discard (fixed 2 0 23)
  discard (char ':' *> fixed 2 0 59)
  discard (char ':' *> fixed 2 0 60)
  discard (optional (char '.' *> many1 (digit decimalValue?)))

def offset : Reader Unit :=
  char 'Z' <|> char 'z' <|> do
    discard sign
    discard (fixed 2 0 23)
    discard (char ':' *> fixed 2 0 59)

def dateTime : Reader Value :=
  (date *> discard (optional do
      char 'T' <|> char 't' <|> char ' '
      time
      discard (optional offset)) <|> time) *>
    pure .dateTime

def boolean : Reader Value :=
  (literal ['t', 'r', 'u', 'e'] *> pure (.boolean true)) <|>
    (literal ['f', 'a', 'l', 's', 'e'] *> pure (.boolean false))

def scalar : Reader Value :=
  Value.string <$> string <|> boolean <|> dateTime <|> ofRadix 'x' 16 <|> ofRadix 'o' 8 <|>
    ofRadix 'b' 2 <|> decimal <|> specialFloat

end Intercom.Toml
