import Intercom.Crypto.CounterMode
import Intercom.Crypto.Hmac

/-!
This module contains the derivation of SRTP session keys from a master key, and the counters and tags
that they give to packets.
-/

namespace Intercom.Srtp

structure Master where
  key : Octets 16
  salt : Octets 14
deriving DecidableEq

structure SessionKeys where
  key : Octets 16
  salt : Octets 16
  auth : Octets 96
deriving DecidableEq

namespace SessionKeys

/-- Where the keystream of a derivation starts: the salt with the label in its eighth octet, and two
zero octets. -/
def start (salt : Octets 14) (label : UInt8) : Bytes :=
  Bytes.xor (salt.bytes ++ [0, 0]) (List.replicate 7 0 ++ [label] ++ List.replicate 8 0)

def stream (master : Master) (label : UInt8) (n : Nat) : Octets n :=
  ⟨CounterMode.keystream master.key (start master.salt label) n, by simp⟩

/-- Labels 0, 1 and 2 stand for encryption, authentication and salt. -/
def derive (master : Master) : SessionKeys :=
  ⟨stream master 0 16, stream master 2 16, stream master 1 96⟩

end SessionKeys

structure Direction where
  keys : SessionKeys
  rollover : UInt32 := 0
deriving DecidableEq

def tagLength : Nat := 10

namespace Direction

def ofMaster (master : Master) : Direction := ⟨.derive master, 0⟩

/-- The first counter of a packet: the salt with the source in octets 4 to 7, and the index of 48 bits
in octets 8 to 13. -/
def start (d : Direction) (source : UInt32) (sequenceNumber : UInt16) : Bytes :=
  Bytes.xor (d.keys.salt.bytes.take 14 ++ [0, 0])
    (List.replicate 4 0 ++ Bytes.ofNat 4 source.toNat ++
      (Bytes.ofNat 4 d.rollover.toNat ++ Bytes.ofNat 2 sequenceNumber.toNat) ++ [0, 0])

def tag (d : Direction) (packet : Bytes) : Bytes :=
  (Hmac.sha1 (d.keys.auth.bytes.take 20) (packet ++ Bytes.ofNat 4 d.rollover.toNat)).bytes.take tagLength

end Direction

end Intercom.Srtp
