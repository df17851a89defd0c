import Mathlib
import Intercom.Json.Parse
import Intercom.Proofs.Json.Tokens

/-!
This module contains the main statement about JSON: the text of a value is read as that value, if its
numbers are whole and fit 64 bits and its nesting stays within the bound.
-/

namespace Intercom.Json

namespace Value

/-- Numbers are whole and fit 64 bits, and at most so many arrays and objects are open at once. -/
inductive Fits : Nat → Value → Prop where
  | null (room : Nat) : Fits room null
  | bool (room : Nat) (b : Bool) : Fits room (bool b)
  | number (room : Nat) {n : Number} (h : n.Fits) : Fits room (number n)
  | string (room : Nat) (s : String) : Fits room (string s)
  | array {room : Nat} {items : List Value} (h : ∀ v ∈ items, Fits room v) : Fits (room + 1) (array items)
  | object {room : Nat} {members : List (String × Value)} (h : ∀ m ∈ members, Fits room m.2)
      : Fits (room + 1) (object members)

theorem fits_nat (room : Nat) {n : Nat} (h : n < UInt64.size) : Fits room (nat n) := by
  apply Fits.number
  have : Int64.minValue.toInt ≤ 0 := by decide
  exact ⟨by omega, by exact_mod_cast h⟩

theorem asNat?_nat {n bound : Nat} (h : n < bound) : (nat n).asNat? bound = some n := by
  unfold nat asNat?
  dsimp only
  rw [if_pos (by omega), Int.toNat_natCast]

theorem row_itemTokens {vs : List Value} (h : ∀ v ∈ vs, Row v.tokens) : Row (itemTokens vs) := by
  induction vs with
  | nil => exact Row.singleton trivial
  | cons v vs ih =>
    apply Row.cons rfl
    apply Row.append (h v (List.mem_cons_self ..)) (ih fun u hu => h u (List.mem_cons_of_mem _ hu))
    cases vs <;> simp [itemTokens, Token.bare]

theorem row_memberTokens {ms : List (String × Value)} (h : ∀ m ∈ ms, Row m.2.tokens) : Row (memberTokens ms) := by
  induction ms with
  | nil => exact Row.singleton trivial
  | cons m ms ih =>
    apply Row.cons rfl
    apply Row.cons rfl
    apply Row.cons rfl
    apply Row.append (h m (List.mem_cons_self ..)) (ih fun u hu => h u (List.mem_cons_of_mem _ hu))
    cases ms <;> simp [memberTokens, Token.bare]

theorem row_tokens {room : Nat} {v : Value} (h : Fits room v) : Row v.tokens := by
  induction h with
  | null => exact Row.singleton trivial
  | bool => exact Row.singleton trivial
  | number _ h => exact Row.singleton h
  | string => exact Row.singleton trivial
  | @array _ items h ih =>
    cases items with
    | nil => exact Row.cons rfl (Row.singleton trivial)
    -- The first item is written like a further one, with the bracket in the place of the comma.
    | cons v vs => exact Row.cons rfl (row_itemTokens ih).tail
  | @object _ members h ih =>
    cases members with
    | nil => exact Row.cons rfl (Row.singleton trivial)
    | cons m ms => exact Row.cons rfl (row_memberTokens ih).tail

theorem tokens?_text {room : Nat} {v : Value} (h : Fits room v) : tokens? v.text = some v.tokens := by
  unfold tokens? text
  rw [String.toList_ofList]
  exact (row_tokens h).run

end Value

namespace Parser

variable {stack : List Frame} {p q : Parser}

def Takes (p : Parser) (ts : List Token) (q : Parser) : Prop :=
  ts.foldlM step p = some q

theorem Takes.nil : Takes p [] p :=
  rfl

theorem Takes.cons {t : Token} {ts : List Token} {r : Parser} (h : p.step t = some q) (hts : Takes q ts r)
    : Takes p (t :: ts) r := by
  unfold Takes
  rw [List.foldlM_cons, h]
  exact hts

theorem Takes.append {ts us : List Token} {r : Parser} (hts : Takes p ts q) (hus : Takes q us r)
    : Takes p (ts ++ us) r := by
  unfold Takes at hts hus ⊢
  rw [List.foldlM_append, hts]
  exact hus

/-- From a place where a value may stand, the machine reads the value and stands behind it. -/
def Reads (stack : List Frame) (v : Value) : Prop :=
  Takes ⟨stack, .value⟩ v.tokens (complete v stack)

theorem takes_itemTokens {vs : List Value} (u : Value) (read : List Value)
    (h : ∀ v ∈ vs, ∀ read, Reads (.array read :: stack) v)
    : Takes ⟨.array read :: stack, .separator u⟩ (Value.itemTokens vs)
        (complete (.array (read.reverse ++ u :: vs)) stack) := by
  induction vs generalizing u read with
  | nil =>
    apply Takes.cons _ Takes.nil
    simp [step]
  | cons v vs ih =>
    have hv := h v (List.mem_cons_self ..) (u :: read)
    have hrest := ih v (u :: read) fun w hw => h w (List.mem_cons_of_mem _ hw)
    rw [List.reverse_cons, List.append_assoc, List.singleton_append] at hrest
    unfold Value.itemTokens
    apply Takes.cons rfl
    exact Takes.append hv hrest

theorem takes_memberTokens {ms : List (String × Value)} (name : String) (u : Value) (read : List (String × Value))
    (h : ∀ m ∈ ms, ∀ read name, Reads (.member read name :: stack) m.2)
    : Takes ⟨.member read name :: stack, .separator u⟩ (Value.memberTokens ms)
        (complete (.object (read.reverse ++ (name, u) :: ms)) stack) := by
  induction ms generalizing name u read with
  | nil =>
    apply Takes.cons _ Takes.nil
    simp [step]
  | cons m ms ih =>
    rcases m with ⟨k, v⟩
    have hv := h (k, v) (List.mem_cons_self ..) ((name, u) :: read) k
    have hrest := ih k v ((name, u) :: read) fun w hw => h w (List.mem_cons_of_mem _ hw)
    rw [List.reverse_cons, List.append_assoc, List.singleton_append] at hrest
    unfold Value.memberTokens
    apply Takes.cons rfl
    apply Takes.cons rfl
    apply Takes.cons rfl
    exact Takes.append hv hrest

theorem step_firstItem {t : Token} (h : t ≠ .closeArray)
    : step ⟨stack, .firstItem⟩ t = step ⟨stack, .value⟩ t := by
  rcases stack with _ | ⟨_ | _ | _, stack⟩ <;> cases t <;> first | rfl | contradiction

/-- A first item is read like any other value: no value begins with a closing bracket. -/
theorem takes_firstItem {v : Value} (h : Takes ⟨stack, .value⟩ v.tokens q)
    : Takes ⟨stack, .firstItem⟩ v.tokens q := by
  have hhead : ∃ t ts, v.tokens = t :: ts ∧ t ≠ .closeArray := by
    cases v with
    | array items => cases items <;> simp [Value.tokens]
    | object members => cases members <;> simp [Value.tokens]
    | _ => simp [Value.tokens]
  rcases hhead with ⟨t, ts, htokens, ht⟩
  unfold Takes at h ⊢
  rw [htokens, List.foldlM_cons] at h ⊢
  rw [step_firstItem ht]
  exact h

theorem reads_of_fits {room : Nat} {v : Value} (h : v.Fits room) (hroom : stack.length + room ≤ maxDepth)
    : Reads stack v := by
  -- What is open and what may still be opened stay within the bound together.
  induction h generalizing stack with
  | null => exact Takes.cons rfl Takes.nil
  | bool => exact Takes.cons rfl Takes.nil
  | number => exact Takes.cons rfl Takes.nil
  | string => exact Takes.cons rfl Takes.nil
  | @array room items h ih =>
    have hopen : (Parser.mk stack .value).step .openArray = some ⟨.array [] :: stack, .firstItem⟩ := by
      apply if_pos
      dsimp only
      omega
    have hitems : ∀ v ∈ items, ∀ read, Reads (.array read :: stack) v := by
      intro v hv read
      apply ih v hv
      rw [List.length_cons]
      omega
    cases items with
    | nil => exact Takes.cons hopen (Takes.cons rfl Takes.nil)
    | cons v vs =>
      have hfirst := takes_firstItem (hitems v (List.mem_cons_self ..) [])
      have hrest := takes_itemTokens v [] fun w hw => hitems w (List.mem_cons_of_mem _ hw)
      exact Takes.cons hopen (Takes.append hfirst hrest)
  | @object room members h ih =>
    have hopen : (Parser.mk stack .value).step .openObject = some ⟨.object [] :: stack, .firstName⟩ := by
      apply if_pos
      dsimp only
      omega
    have hmembers : ∀ m ∈ members, ∀ read name, Reads (.member read name :: stack) m.2 := by
      intro m hm read name
      apply ih m hm
      rw [List.length_cons]
      omega
    cases members with
    | nil => exact Takes.cons hopen (Takes.cons rfl Takes.nil)
    | cons m ms =>
      rcases m with ⟨k, v⟩
      have hfirst := hmembers (k, v) (List.mem_cons_self ..) [] k
      have hrest := takes_memberTokens k v [] fun w hw => hmembers w (List.mem_cons_of_mem _ hw)
      apply Takes.cons hopen
      apply Takes.cons rfl
      apply Takes.cons rfl
      exact Takes.append hfirst hrest

end Parser

theorem Value.ofText?_text {v : Value} (h : v.Fits maxDepth) : Value.ofText? v.text = some v := by
  have hreads : Parser.Reads [] v := Parser.reads_of_fits h (by rw [List.length_nil, Nat.zero_add])
  unfold Value.ofText?
  rw [Value.tokens?_text h]
  simp only [Option.bind_eq_bind, Option.bind_some]
  rw [hreads]
  rfl

end Intercom.Json
