import Intercom.Json.Token

/-!
This module contains the reading of JSON values from tokens, by a machine with a stack of the arrays and
objects that are open. Nesting is bounded.
-/

namespace Intercom.Json

/-- An open array or object. What was read is kept last first. -/
inductive Frame where
  | array (items : List Value)
  | object (members : List (String × Value))
  | member (members : List (String × Value)) (name : String)

inductive Expect where
  | value
  | firstItem
  | firstName
  | name
  | colon
  | separator (value : Value)
  | finish (value : Value)

structure Parser where
  stack : List Frame
  expect : Expect

def maxDepth : Nat := 127

namespace Parser

def complete (v : Value) (stack : List Frame) : Parser :=
  ⟨stack, if stack.isEmpty then .finish v else .separator v⟩

def deeper (stack : List Frame) (frame : Frame) (expect : Expect) : Option Parser :=
  if stack.length < maxDepth then some ⟨frame :: stack, expect⟩ else none

def beginValue (stack : List Frame) : Token → Option Parser
  | .null => some (complete .null stack)
  | .bool b => some (complete (.bool b) stack)
  | .number n => some (complete (.number n) stack)
  | .string s => some (complete (.string s) stack)
  | .openArray => deeper stack (.array []) .firstItem
  | .openObject => deeper stack (.object []) .firstName
  | _ => none

def step (p : Parser) (t : Token) : Option Parser :=
  match p.expect, p.stack, t with
  | .value, stack, t => beginValue stack t
  | .firstItem, .array _ :: stack, .closeArray => some (complete (.array []) stack)
  | .firstItem, stack, t => beginValue stack t
  | .firstName, .object _ :: stack, .closeObject => some (complete (.object []) stack)
  | .firstName, .object members :: stack, .string name
  | .name, .object members :: stack, .string name => some ⟨.member members name :: stack, .colon⟩
  | .colon, stack, .colon => some ⟨stack, .value⟩
  | .separator v, .array items :: stack, .comma => some ⟨.array (v :: items) :: stack, .value⟩
  | .separator v, .array items :: stack, .closeArray =>
    some (complete (.array (v :: items).reverse) stack)
  | .separator v, .member members name :: stack, .comma =>
    some ⟨.object ((name, v) :: members) :: stack, .name⟩
  | .separator v, .member members name :: stack, .closeObject =>
    some (complete (.object ((name, v) :: members).reverse) stack)
  | _, _, _ => none

end Parser

def Value.ofText? (text : String) : Option Value := do
  let tokens ← tokens? text
  let p ← tokens.foldlM Parser.step ⟨[], .value⟩
  match p.expect with
  | .finish v => return v
  | _ => none

end Intercom.Json
