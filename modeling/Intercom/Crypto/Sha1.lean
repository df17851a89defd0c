import Intercom.Crypto.Block

/-!
This module contains the hash function SHA-1.
-/

namespace Intercom.Sha1

structure State where
  a : UInt32
  b : UInt32
  c : UInt32
  d : UInt32
  e : UInt32

def State.start : State := ⟨0x67452301, 0xEFCDAB89, 0x98BADCFE, 0x10325476, 0xC3D2E1F0⟩

def State.add (s t : State) : State :=
  ⟨s.a + t.a, s.b + t.b, s.c + t.c, s.d + t.d, s.e + t.e⟩

def mix (i : Nat) (b c d : UInt32) : UInt32 :=
  if i < 20 then ((b &&& c) ||| (~~~b &&& d)) + 0x5A827999
  else if i < 40 then (b ^^^ c ^^^ d) + 0x6ED9EBA1
  else if i < 60 then ((b &&& c) ||| (b &&& d) ||| (c &&& d)) + 0x8F1BBCDC
  else (b ^^^ c ^^^ d) + 0xCA62C1D6

def round (s : State) (w : UInt32 × Nat) : State :=
  ⟨Block.rotateLeft s.a 5 + mix w.2 s.b s.c s.d + s.e + w.1, s.a, Block.rotateLeft s.b 30, s.c, s.d⟩

def schedule (block : List UInt32) : List UInt32 :=
  (Block.extend (fun ws =>
    Block.rotateLeft (ws.getD 2 0 ^^^ ws.getD 7 0 ^^^ ws.getD 13 0 ^^^ ws.getD 15 0) 1)
    64 block.reverse).reverse

def compress (s : State) (block : List UInt32) : State :=
  s.add ((schedule block).zipIdx.foldl round s)

def hash (message : Bytes) : Octets 20 :=
  let s := (Block.blocks message).foldl compress .start
  ⟨Bytes.ofNat 4 s.a.toNat ++ Bytes.ofNat 4 s.b.toNat ++ Bytes.ofNat 4 s.c.toNat ++
    Bytes.ofNat 4 s.d.toNat ++ Bytes.ofNat 4 s.e.toNat, by simp⟩

end Intercom.Sha1
