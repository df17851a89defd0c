import Intercom.Bytes

/-!
This module contains the cyclic redundancy check of ISO HDLC: reflected, polynomial `0x04C11DB7`.
-/

namespace Intercom.Crc32

def shift (r : UInt32) : UInt32 :=
  if r &&& 1 = 1 then (r >>> 1) ^^^ 0xEDB88320 else r >>> 1

def absorb (r : UInt32) (b : UInt8) : UInt32 :=
  let r := r ^^^ b.toUInt32
  shift (shift (shift (shift (shift (shift (shift (shift r)))))))

def checksum (bs : Bytes) : UInt32 :=
  bs.foldl absorb 0xFFFFFFFF ^^^ 0xFFFFFFFF

end Intercom.Crc32
