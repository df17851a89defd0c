/-!
This module contains the places of the doubles among the whole numbers.
-/

namespace Intercom.Double

/-- The number with at most 53 significant bits that is nearest, of two the even one. -/
def round (n : Nat) : Nat :=
  if n.log2 < 53 then n
  else
    let unit := 1 <<< (n.log2 - 52)
    let q := n / unit
    let r := n % unit
    let up := unit < 2 * r ∨ (unit = 2 * r ∧ q % 2 = 1)
    (if up then q + 1 else q) * unit

/-- The least number that is too large: half a unit beyond the largest double. -/
def bound : Nat :=
  (1 <<< 1024) - (1 <<< 970)

end Intercom.Double
