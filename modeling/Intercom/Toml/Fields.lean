import Intercom.Toml.Value

/-!
This module contains the reading of records from TOML values.
-/

namespace Intercom.Toml

namespace Value

def asString? : Value → Option String
  | .string s => some s
  | _ => none

def asNat? (bound : Nat) : Value → Option Nat
  | .integer z => if 0 ≤ z ∧ z < bound then some z.toNat else none
  | _ => none

def asStrings? : Value → Option (List String)
  | .array items => items.mapM asString?
  | _ => none

end Value

inductive Fields where
  | named (entries : Entries)
  | placed (items : List Value)

namespace Fields

/-- A date has no field that a record could know. -/
def ofValue? : Value → Option Fields
  | .table _ entries => some (.named entries)
  | .array items => some (.placed items)
  | .tables tables => some (.placed (tables.map (.table .header)))
  | .dateTime => some (.named [])
  | _ => none

def get? (place : Nat) (name : String) : Fields → Option Value
  | .named entries => entries.lookup name
  | .placed items => items[place]?

def read? (f : Fields) (place : Nat) (name : String) (ofValue? : Value → Option α) (standard : α) :
    Option α :=
  match f.get? place name with
  | none => some standard
  | some v => ofValue? v

end Fields

end Intercom.Toml
