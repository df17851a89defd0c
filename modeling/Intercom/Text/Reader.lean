/-!
This module contains readers: each takes what it reads from the front of a text, or fails and takes
nothing.
-/

namespace Intercom.Text

abbrev Reader := StateT (List Char) Option

namespace Reader

def satisfy (p : Char → Bool) : Reader Char
  | [] => none
  | c :: text => if p c then some (c, text) else none

def char (c : Char) : Reader Unit :=
  discard (satisfy (· = c))

def literal (cs : List Char) : Reader Unit :=
  cs.forM char

def takeWhile (p : Char → Bool) : Reader (List Char) := fun text =>
  some (text.takeWhile p, text.dropWhile p)

def times (n : Nat) (r : Reader α) : Reader (List α) :=
  (List.replicate n r).mapM id

def many (r : Reader α) : Reader (List α) := fun text =>
  some (go text.length text)
where
  /-- A text of `n` characters is used up after `n` rounds. -/
  go : (n : Nat) → List Char → List α × List Char
    | 0, text => ([], text)
    | n + 1, text =>
      match r text with
      | none => ([], text)
      | some (a, rest) =>
        let (as, rest) := go n rest
        (a :: as, rest)

def many1 (r : Reader α) : Reader (List α) := do
  let a ← r
  return a :: (← many r)

def separated (r : Reader α) (separator : Reader Unit) : Reader (List α) := do
  let a ← r
  return a :: (← many (separator *> r))

def digit (value? : Char → Option Nat) : Reader Nat
  | [] => none
  | c :: text => (value? c).map (·, text)

def whole? (r : Reader α) (text : String) : Option α :=
  match r text.toList with
  | some (a, []) => some a
  | _ => none

end Reader

def decimalValue? (c : Char) : Option Nat :=
  if c.isDigit then some (c.toNat - 48) else none

def natOf (radix : Nat) (digits : List Nat) : Nat :=
  digits.foldl (fun n d => n * radix + d) 0

end Intercom.Text
