import Intercom.Bytes.Hex
import Intercom.Net.Endpoint
import Intercom.Text.Reader

/-!
This module contains the textual form of endpoints: `1.2.3.4:80`, `[::1]:80` and, with a scope, `[::1%3]:80`.
-/

namespace Intercom.Endpoint

open Intercom.Text (Reader decimalValue? natOf)
open Intercom.Text.Reader (char digit)

namespace Text

/-- A decimal number below `bound` with any number of leading zeros. -/
def number (bound : Nat) : Reader Nat := do
  let ds ← Reader.many1 (digit decimalValue?)
  guard (natOf 10 ds < bound)
  return natOf 10 ds

/-- An octet in decimal, without leading zeros. -/
def octet : Reader UInt8 := do
  let ds ← Reader.many1 (digit decimalValue?)
  guard ((ds.head? = some 0 → ds.length = 1) ∧ natOf 10 ds < 256)
  return UInt8.ofNat (natOf 10 ds)

def v4Octets : Reader Bytes := do
  let a ← octet
  let b ← char '.' *> octet
  let c ← char '.' *> octet
  let d ← char '.' *> octet
  return [a, b, c, d]

def group : Reader Bytes := do
  let ds ← Reader.many1 (digit Hex.value?)
  guard (ds.length ≤ 4)
  return Bytes.ofNat 2 (natOf 16 ds)

def inRow (first : Bool) (r : Reader α) : Reader α :=
  if first then r else char ':' *> r

/-- A row of at most `limit` groups, where four octets in IPv4 form may stand for the last two. Gives
the octets, and whether the row ended with the IPv4 form. -/
def groups (limit : Nat) : Reader (Bytes × Bool) :=
  go true limit
where
  go (first : Bool) : (limit : Nat) → Reader (Bytes × Bool)
    | 0 => pure ([], false)
    | limit + 1 =>
      (do
        guard (limit ≠ 0)
        return (← inRow first v4Octets, true)) <|>
      (do
        let octets ← inRow first group
        let (more, ended) ← go false limit
        return (octets ++ more, ended)) <|>
      pure ([], false)

/-- Eight groups, or fewer around `::`. -/
def v6Octets : Reader Bytes := do
  let (front, ended) ← groups 8
  if front.length = 16 then return front
  guard (ended = false)
  char ':'
  char ':'
  let (back, _) ← groups (7 - front.length / 2)
  return front ++ List.replicate (16 - front.length - back.length) 0 ++ back

def port : Reader UInt16 :=
  UInt16.ofNat <$> (char ':' *> number UInt16.size)

def v4Endpoint : Reader Endpoint := do
  let octets ← Octets.ofBytes? 4 (← v4Octets)
  return .v4 octets (← port)

def v6Endpoint : Reader Endpoint := do
  let octets ← Octets.ofBytes? 16 (← char '[' *> v6Octets)
  let scope ← optional (char '%' *> number UInt32.size)
  char ']'
  return .v6 octets (← port) 0 (UInt32.ofNat (scope.getD 0))

end Text

def ofText? (text : String) : Option Endpoint :=
  (Text.v4Endpoint.whole? text).or (Text.v6Endpoint.whole? text)

end Intercom.Endpoint
