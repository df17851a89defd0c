import Intercom.Bytes

/-!
This module contains the hexadecimal spelling of numbers and octet strings.
-/

namespace Intercom.Hex

def digit (n : Nat) : Char :=
  if n < 10 then Char.ofNat (48 + n) else Char.ofNat (87 + n)

def upperDigit (n : Nat) : Char :=
  if n < 10 then Char.ofNat (48 + n) else Char.ofNat (55 + n)

def value? (c : Char) : Option Nat :=
  if '0' ≤ c ∧ c ≤ '9' then some (c.toNat - 48)
  else if 'a' ≤ c ∧ c ≤ 'f' then some (c.toNat - 87)
  else if 'A' ≤ c ∧ c ≤ 'F' then some (c.toNat - 55)
  else none

def digits : (width x : Nat) → List Char
  | 0, _ => []
  | width + 1, x => digit (x >>> (4 * width) % 16) :: digits width x

def ofNat (width x : Nat) : String :=
  String.ofList (digits width x)

def ofBytes (bs : Bytes) : String :=
  String.ofList (bs.flatMap fun b => [digit (b.toNat / 16), digit (b.toNat % 16)])

/-- Upper case, a colon between octets. -/
def fingerprint (bs : Bytes) : String :=
  ":".intercalate (bs.map fun b =>
    String.ofList [upperDigit (b.toNat / 16), upperDigit (b.toNat % 16)])

def toBytes? (text : String) : Option Bytes :=
  go text.toList
where
  go : List Char → Option Bytes
    | [] => some []
    | [_] => none
    | high :: low :: rest => do
      let h ← value? high
      let l ← value? low
      let bs ← go rest
      return UInt8.ofNat (h * 16 + l) :: bs

def toNat? (text : String) : Option Nat :=
  if text.isEmpty then none
  else text.toList.foldlM (fun n c => (value? c).map (n * 16 + ·)) 0

end Intercom.Hex
