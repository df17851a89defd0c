import Intercom.Double
import Intercom.Json.Value

/-!
This module contains the reading of JSON numbers. A number is refused if its nearest double would be
infinite. Nearness is that of one multiplication: the digits that fit 64 bits, rounded, times the power
of ten, rounded.
-/

namespace Intercom.Json

def spanDigits (cs : List Char) : List Char × List Char :=
  (cs.takeWhile Char.isDigit, cs.dropWhile Char.isDigit)

def digitsValue (ds : List Char) : Nat :=
  ds.foldl (fun n c => n * 10 + (c.toNat - 48)) 0

/-- Appends digits to a number as long as it fits 64 bits; gives the digits left over. -/
def takeDigits (n : Nat) : List Char → Nat × List Char
  | [] => (n, [])
  | d :: ds =>
    let next := n * 10 + (d.toNat - 48)
    if next < UInt64.size then takeDigits next ds else (n, d :: ds)

def overflows (digits : Nat) (exponent : Int) : Bool :=
  if digits = 0 ∨ exponent < 0 then false
  else if 308 < exponent then true
  else Double.bound ≤ Double.round digits * Double.round (Nat.pow 10 exponent.toNat)

structure Literal where
  negative : Bool
  whole : List Char
  fraction : Option (List Char)
  exponent : Option Int

def exponent? (cs : List Char) : Option Int :=
  let (negative, ds) := match cs with
    | '+' :: ds => (false, ds)
    | '-' :: ds => (true, ds)
    | ds => (false, ds)
  if ds ≠ [] ∧ ds.all Char.isDigit then
    some (if negative then -(digitsValue ds : Int) else digitsValue ds)
  else none

def tail? (negative : Bool) (whole : List Char) (fraction : Option (List Char)) :
    List Char → Option Literal
  | [] => some ⟨negative, whole, fraction, none⟩
  | c :: cs =>
    if c = 'e' ∨ c = 'E' then (exponent? cs).map fun e => ⟨negative, whole, fraction, some e⟩
    else none

/-- Reads a literal: no leading zeros, at least one digit on each side of a point. -/
def Literal.ofChars? (cs : List Char) : Option Literal :=
  let (negative, cs) := match cs with
    | '-' :: cs => (true, cs)
    | cs => (false, cs)
  let (whole, rest) := spanDigits cs
  if whole = [] ∨ (whole.head? = some '0' ∧ whole.length ≠ 1) then none
  else match rest with
    | '.' :: rest =>
      let (fraction, rest) := spanDigits rest
      if fraction = [] then none else tail? negative whole (some fraction) rest
    | rest => tail? negative whole none rest

def Literal.overflows (l : Literal) : Bool :=
  let fraction := l.fraction.getD []
  let (digits, wholeLeft) := takeDigits 0 l.whole
  let (digits, fractionLeft) := takeDigits digits fraction
  Json.overflows digits
    (l.exponent.getD 0 + wholeLeft.length - (fraction.length - fractionLeft.length : Nat))

/-- Reads a number. Minus zero and what does not fit 64 bits are no whole numbers. -/
def Number.ofChars? (cs : List Char) : Option Number := do
  let l ← Literal.ofChars? cs
  guard (!l.overflows)
  let n := digitsValue l.whole
  match l.fraction, l.exponent, l.negative with
  | none, none, false => return if n < UInt64.size then .whole n else .other cs
  | none, none, true => return if 0 < n ∧ Int64.minValue.toInt ≤ -n then .whole (-n) else .other cs
  | _, _, _ => return .other cs

end Intercom.Json
