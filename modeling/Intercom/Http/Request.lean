/-!
This module contains requests and how the line that opens one is read: a method, and a target that is a
path with a query, an address like `http://host/path`, a bare host with a port, or `*`.
-/

namespace Intercom.Http

structure Request where
  method : String
  /-- As it is written; nothing in it is unescaped. A bare host has an empty one. -/
  path : String
deriving DecidableEq

namespace Target

def maxSize : Nat := 65534

def maxSchemeLength : Nat := 64

/-- Colons at most up to the end of what may hold them, a bracketed address or the name of a user. -/
def maxColons : Nat := 8

def isSchemeChar (c : Char) : Bool :=
  c.isAlphanum || "+-.~".toList.contains c

def isPathChar (c : Char) : Bool :=
  ' ' < c && !"<>`".toList.contains c

def isQueryChar (c : Char) : Bool :=
  ' ' < c && !"<>\"".toList.contains c

def isHostChar (c : Char) : Bool :=
  c.isAlphanum || "!$&'()*+,-.;=_~".toList.contains c

def endsHost (c : Char) : Bool :=
  "/?#".toList.contains c

/-- What has been seen of a host. Behind a user's name and behind a bracketed address, colons and
escapes are counted anew. -/
structure HostScan where
  colons : Nat := 0
  opened : Bool := false
  closed : Bool := false
  escaped : Bool := false
deriving DecidableEq

def HostScan.step (s : HostScan) (c : Char) : Option HostScan :=
  match c with
  | ':' => if s.colons < maxColons then some { s with colons := s.colons + 1 } else none
  | '[' => if s.escaped ∨ s.opened then none else some { s with opened := true }
  | ']' =>
    if s.opened ∧ ¬s.closed then some { s with closed := true, colons := 0, escaped := false }
    else none
  | '@' => some { s with colons := 0, escaped := false }
  | '%' => some { s with escaped := true }
  | c => if isHostChar c then some s else none

/-- At the end brackets are balanced, and nothing but one port may follow the host. -/
def HostScan.isDone (s : HostScan) : Bool :=
  s.opened = s.closed ∧ s.colons ≤ 1 ∧ ¬s.escaped

def isHost (text : List Char) : Bool :=
  text ≠ [] && text.getLast? ≠ some '@' && (text.foldlM HostScan.step {}).any HostScan.isDone

/-- The path in front of a query and a fragment, `/` if there is none. Only a fragment holds anything. -/
def path? (text : List Char) : Option (List Char) :=
  let address := text.takeWhile (· ≠ '#')
  let path := address.takeWhile (· ≠ '?')
  let query := address.dropWhile (· ≠ '?')
  if path.all isPathChar ∧ query.all isQueryChar then some (if path = [] then ['/'] else path)
  else none

def pathBehindHost? (text : List Char) : Option (List Char) :=
  let scheme := text.takeWhile isSchemeChar
  match text.dropWhile isSchemeChar with
  | ':' :: '/' :: '/' :: text =>
    if scheme.length ≤ maxSchemeLength ∧ isHost (text.takeWhile (!endsHost ·)) then
      path? (text.dropWhile (!endsHost ·))
    else none
  | _ => if isHost text then some [] else none

def pathOf? (target : String) : Option String :=
  if maxSize < target.utf8ByteSize then none
  else
    String.ofList <$>
      match target.toList with
      | ['*'] => some ['*']
      | '/' :: text => path? ('/' :: text)
      | text => pathBehindHost? text

end Target

def isTokenChar (c : Char) : Bool :=
  c.isAlphanum || "!#$%&'*+-.^_`|~".toList.contains c

def Request.ofLine? (method target : String) : Option Request := do
  guard (method ≠ "" ∧ method.toList.all isTokenChar)
  return ⟨method, ← Target.pathOf? target⟩

end Intercom.Http
