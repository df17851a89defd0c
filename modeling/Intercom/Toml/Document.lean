import Intercom.Toml.Scalar

/-!
This module contains the reading of TOML documents: arrays and inline tables around the scalars, then
the statements line by line, then the table that they build.
-/

namespace Intercom.Toml

open Intercom.Text (Reader)
open Intercom.Text.Reader

/-- How many parts a dotted key has at most, and how deep arrays and inline tables are nested at
most. -/
def limit : Nat := 79

def bareKey : Reader String := do
  let cs ← takeWhile fun c => c.isAlphanum || c = '_' || c = '-'
  guard (cs ≠ [])
  return String.ofList cs

def keyPart : Reader String :=
  blanks *> (basicString <|> literalString <|> bareKey) <* blanks

def key : Reader Key := do
  let parts ← separated keyPart (char '.')
  guard (parts.length ≤ limit)
  return ⟨parts.dropLast, parts.getLastD ""⟩

def comment : Reader Unit := do
  char '#'
  discard (takeWhile isPlain)

def padding : Reader Unit :=
  discard (many (discard (satisfy isBlank) <|> newline <|> (comment *> newline)))

def array (value : Reader Value) : Reader Value := do
  char '['
  let items ← separated (padding *> value <* padding) (char ',') <* optional (char ',') <|> pure []
  padding
  char ']'
  return .array items

def entry (value : Reader Value) : Reader (Key × Value) := do
  let k ← key
  char '='
  return (k, ← blanks *> value <* blanks)

/-- A table on one line, without a comma behind the last entry. -/
def inlineTable (value : Reader Value) : Reader Value := do
  char '\x7b'
  let entries ← separated (entry value) (char ',') <|> pure []
  blanks
  char '\x7d'
  let table ← entries.foldlM (fun table (k, v) => Entries.assign k v .inline table) []
  return .table .inline table

def value : (depth : Nat) → Reader Value
  | 0 => scalar
  | depth + 1 => scalar <|> array (value depth) <|> inlineTable (value depth)

inductive Statement where
  /-- `[key]` -/
  | table (key : Key)
  /-- `[[key]]` -/
  | nextTable (key : Key)
  /-- `key = value` -/
  | assign (key : Key) (value : Value)

def statement : Reader Statement :=
  Statement.nextTable <$> (literal ['[', '['] *> key <* literal [']', ']']) <|>
    Statement.table <$> (char '[' *> key <* char ']') <|>
    (fun (k, v) => Statement.assign k v) <$> entry (value limit)

def line : Reader (Option Statement) :=
  blanks *> optional statement <* blanks <* optional comment

def document : Reader (List Statement) :=
  optional (char '\ufeff') *> (·.reduceOption) <$> separated line newline

structure Document where
  root : Entries := []
  current : Option Key := none

namespace Document

def step (d : Document) : Statement → Option Document
  | .table k => do return ⟨← Entries.openTable k d.root, some k⟩
  | .nextTable k => do return ⟨← Entries.appendTable k d.root, some k⟩
  | .assign k v => do
    let way := match d.current with
      | none => []
      | some header => header.way ++ [header.last]
    let root ← Entries.modifyAt .headers (Entries.assign k v) way .header d.root
    return { d with root }

end Document

def ofText? (text : String) : Option Entries := do
  let statements ← document.whole? text
  let d ← statements.foldlM Document.step {}
  return d.root

end Intercom.Toml
