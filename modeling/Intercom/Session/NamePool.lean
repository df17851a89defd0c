/-!
This module contains the pool of display names. It is finite and so bounds the number of sessions.
-/

namespace Intercom

structure NamePool where
  /-- The free names; the next one to be taken is the first. -/
  free : List String
deriving DecidableEq

namespace NamePool

def standardNames : List String := ["Alice", "Bob", "Charlotte", "David", "Emily", "Fargo"]

def take? (p : NamePool) : Option (String × NamePool) :=
  match p.free with
  | [] => none
  | name :: free => some (name, ⟨free⟩)

/-- A name comes back behind all others. -/
def give (p : NamePool) (name : String) : NamePool :=
  ⟨p.free ++ [name]⟩

end NamePool

end Intercom
