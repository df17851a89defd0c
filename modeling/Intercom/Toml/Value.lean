/-!
This module contains TOML values and how tables grow: an entry is put at the end of a dotted key, and
tables are opened by headers. What has been written down as a whole cannot grow any more.
-/

namespace Intercom.Toml

inductive Origin where
  /-- By a header of its own, or as an item of an array of tables. -/
  | header
  /-- On the way to a table with a header. -/
  | implied
  /-- On the way of a dotted key. -/
  | dotted
  | inline
deriving DecidableEq

inductive Value where
  | string (s : String)
  | integer (z : Int)
  | float
  | boolean (b : Bool)
  | dateTime
  | array (items : List Value)
  | table (origin : Origin) (entries : List (String × Value))
  | tables (tables : List (List (String × Value)))

abbrev Entries := List (String × Value)

structure Key where
  way : List String
  last : String

namespace Entries

def set (key : String) (v : Value) : Entries → Entries
  | [] => [(key, v)]
  | (k, old) :: es => if k = key then (k, v) :: es else (k, old) :: set key v es

inductive Route where
  /-- By headers: tables with and without headers, and the last of an array of tables. -/
  | headers
  /-- By dotted keys: no table that has a header. -/
  | keys
deriving DecidableEq

def Route.origin : Route → Origin
  | headers => .implied
  | keys => .dotted

def Route.enters : Route → Origin → Bool
  | _, .inline => false
  | keys, .header => false
  | _, _ => true

/-- Changes the table at the end of a way; a table that is not there is made. -/
def modifyAt (route : Route) (f : Origin → Entries → Option Entries) :
    (way : List String) → Origin → Entries → Option Entries
  | [], origin, entries => f origin entries
  | key :: way, _, entries =>
    match entries.lookup key with
    | none => do
      let inner ← modifyAt route f way route.origin []
      return set key (.table route.origin inner) entries
    | some (.table origin inner) => do
      guard (route.enters origin)
      let inner ← modifyAt route f way origin inner
      return set key (.table origin inner) entries
    | some (.tables tables) => do
      let inner ← modifyAt route f way .header (← tables.getLast?)
      return set key (.tables (tables.dropLast ++ [inner])) entries
    | some _ => none

/-- Puts a value under a dotted key. No key is used twice, and a dotted key ends in a table that only
dotted keys have made. -/
def assign (key : Key) (v : Value) (origin : Origin) (entries : Entries) : Option Entries :=
  entries |> modifyAt .keys (fun origin entries =>
    if (key.way = [] ∨ origin = .dotted) ∧ (entries.lookup key.last).isNone then
      some (entries ++ [(key.last, v)])
    else none) key.way origin

/-- Opens a table by its header; it may be known from the headers of tables inside it. -/
def openTable (key : Key) (entries : Entries) : Option Entries :=
  entries |> modifyAt .headers (fun _ entries =>
    match entries.lookup key.last with
    | none => some (set key.last (.table .header []) entries)
    | some (.table .implied inner) => some (set key.last (.table .header inner) entries)
    | some _ => none) key.way .header

def appendTable (key : Key) (entries : Entries) : Option Entries :=
  entries |> modifyAt .headers (fun _ entries =>
    match entries.lookup key.last with
    | none => some (set key.last (.tables [[]]) entries)
    | some (.tables tables) => some (set key.last (.tables (tables ++ [[]])) entries)
    | some _ => none) key.way .header

end Entries

end Intercom.Toml
