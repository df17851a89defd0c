import Intercom.Crypto.Aes

/-!
This module contains counter mode over AES-128: the keystream is the encryption of consecutive numbers
of 128 bits, and applying it twice restores the data.
-/

namespace Intercom.CounterMode

/-- The counter blocks that `length` octets use up, from `iv` on; they wrap at 2 ^ 128. -/
def counters (iv : Bytes) (length : Nat) : List Bytes :=
  (List.range ((length + 15) / 16)).map fun i => Bytes.ofNat 16 (Bytes.toNat iv + i)

def keystream (key : Octets 16) (iv : Bytes) (length : Nat) : Bytes :=
  ((counters iv length).flatMap (Aes.encrypt key)).take length

def apply (key : Octets 16) (iv data : Bytes) : Bytes :=
  Bytes.xor data (keystream key iv data.length)

@[simp]
theorem length_keystream (key : Octets 16) (iv : Bytes) (length : Nat) :
    (keystream key iv length).length = length := by
  have hblocks : ((counters iv length).map fun block => (Aes.encrypt key block).length).sum
      = (length + 15) / 16 * 16 := by
    simp [counters, Function.comp_def, List.map_const']
  rw [keystream, List.length_take, List.length_flatMap, hblocks]
  omega

@[simp]
theorem length_apply (key : Octets 16) (iv data : Bytes) : (apply key iv data).length = data.length := by
  simp [apply, Bytes.xor]

end Intercom.CounterMode
