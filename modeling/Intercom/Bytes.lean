/-!
This module contains octet strings, the big-endian numbers inside them and octet strings of a fixed
length.
-/

namespace Intercom

abbrev Bytes := List UInt8

namespace Bytes

/-- `x` in `width` octets, most significant first. Bits above the width are dropped. -/
def ofNat : (width x : Nat) → Bytes
  | 0, _ => []
  | width + 1, x => UInt8.ofNat (x >>> (8 * width)) :: ofNat width x

def toNat (bs : Bytes) : Nat :=
  bs.foldl (fun n b => n * 256 + b.toNat) 0

def cut? : (n : Nat) → Bytes → Option (Bytes × Bytes)
  | 0, bs => some ([], bs)
  | _ + 1, [] => none
  | n + 1, b :: bs => (cut? n bs).map fun (front, rest) => (b :: front, rest)

/-- Octet-wise exclusive or, as long as the shorter string. -/
def xor (a b : Bytes) : Bytes :=
  List.zipWith (· ^^^ ·) a b

@[simp]
theorem length_ofNat (width x : Nat) : (ofNat width x).length = width := by
  induction width with
  | zero => rfl
  | succ width ih => simp [ofNat, ih]

theorem cut?_eq_some_iff {n : Nat} {bs front rest : Bytes} :
    cut? n bs = some (front, rest) ↔ front.length = n ∧ bs = front ++ rest := by
  induction n generalizing bs front with
  | zero => cases front <;> simp [cut?, eq_comm]
  | succ n ih =>
    cases bs with
    | nil => cases front <;> simp [cut?]
    | cons b bs =>
      cases front with
      | nil => simp [cut?]
      | cons c front => simp [cut?, ih]; grind

theorem cut?_append (front rest : Bytes) : cut? front.length (front ++ rest) = some (front, rest) :=
  cut?_eq_some_iff.2 ⟨rfl, rfl⟩

end Bytes

structure Octets (n : Nat) where
  bytes : Bytes
  length_eq : bytes.length = n
deriving DecidableEq

namespace Octets

def ofBytes? (n : Nat) (bs : Bytes) : Option (Octets n) :=
  if h : bs.length = n then some ⟨bs, h⟩ else none

def ofNat (n x : Nat) : Octets n :=
  ⟨Bytes.ofNat n x, Bytes.length_ofNat n x⟩

def slice (o : Octets n) (start k : Nat) (h : start + k ≤ n) : Octets k :=
  ⟨(o.bytes.drop start).take k, by simp [o.length_eq]; omega⟩

def masked (o : Octets n) (mask : Octets m) (h : n ≤ m) : Octets n :=
  ⟨Bytes.xor o.bytes mask.bytes, by simp [Bytes.xor, o.length_eq, mask.length_eq, h]⟩

theorem ofBytes?_eq_some_iff {n : Nat} {bs : Bytes} {o : Octets n} :
    ofBytes? n bs = some o ↔ bs = o.bytes := by
  unfold ofBytes?
  split
  · constructor
    · intro h; cases h; rfl
    · intro h; cases o; simp_all
  · constructor
    · simp
    · intro h; exact absurd (h ▸ o.length_eq) (by assumption)

@[simp]
theorem ofBytes?_bytes (o : Octets n) : ofBytes? n o.bytes = some o :=
  ofBytes?_eq_some_iff.2 rfl

end Octets

end Intercom
