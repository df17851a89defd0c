import Intercom.Bytes

/-!
This module contains what the block-wise hash functions share: padding to blocks of 64 octets, cutting
into pieces of one size and 32-bit words.
-/

namespace Intercom.Block

def pieces (size : Nat) : (count : Nat) → List α → List (List α)
  | 0, _ => []
  | count + 1, xs => xs.take size :: pieces size count (xs.drop size)

/-- A one bit, zeros, and the length in bits as 64-bit number, to whole blocks of 64 octets. -/
def pad (message : Bytes) : Bytes :=
  message ++ 0x80 :: List.replicate ((119 - message.length % 64) % 64) 0 ++
    Bytes.ofNat 8 (message.length * 8)

def words (bs : Bytes) : List UInt32 :=
  (pieces 4 (bs.length / 4) bs).map fun piece => UInt32.ofNat (Bytes.toNat piece)

def blocks (message : Bytes) : List (List UInt32) :=
  let padded := pad message
  (pieces 64 (padded.length / 64) padded).map words

def rotateLeft (x : UInt32) (n : UInt32) : UInt32 :=
  (x <<< n) ||| (x >>> (32 - n))

def rotateRight (x : UInt32) (n : UInt32) : UInt32 :=
  (x >>> n) ||| (x <<< (32 - n))

/-- Puts `count` words before a schedule that is kept newest first, each made from those before. -/
def extend (make : List UInt32 → UInt32) : (count : Nat) → List UInt32 → List UInt32
  | 0, schedule => schedule
  | count + 1, schedule => extend make count (make schedule :: schedule)

end Intercom.Block
