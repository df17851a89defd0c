import Mathlib
import Intercom.Proofs.Stun.UserName
import Intercom.Proofs.Text.Place
import Intercom.Signaling.Hub

/-!
This module contains which part of a `Host` header is kept, for every form that a header can have, and that the header
is cut only between characters.
-/

namespace Intercom.Signaling

open Stun (ne_of_not_mem takeWhile_append_separator)
open Text (cutAt? firstPlace? lastPlace?)

namespace Host

variable {name port literal rest cs : List Char} {text : String}

/-- The host part, cut out at places that are counted in octets. No host if the header cannot be cut there. -/
def cutOut? (host : String) : Option String :=
  if host.toList.head? = some '[' then
    match firstPlace? ']' host.toList with
    | none => some host
    | some last => do
      let (literal, _) ← cutAt? host (last + 1)
      return literal
  else
    match lastPlace? ':' host.toList with
    | none => some host
    | some place => do
      let (name, _) ← cutAt? host place
      let (_, port) ← cutAt? host (place + 1)
      return if ':' ∉ name.toList ∧ port.toList.all Char.isDigit then name else host

/-- The forms of a header: a literal that is closed or not, or a text that does not begin with a bracket, split at its
last colon if there is one. -/
inductive Form : List Char → Prop where
  | literal (literal rest : List Char) (h : ']' ∉ literal) : Form ('[' :: (literal ++ ']' :: rest))
  | unclosed (cs : List Char) (h : ']' ∉ cs) : Form ('[' :: cs)
  | plain (cs : List Char) (hopen : cs.head? ≠ some '[') (h : ':' ∉ cs) : Form cs
  | port (name port : List Char) (hopen : (name ++ ':' :: port).head? ≠ some '[') (h : ':' ∉ port) :
      Form (name ++ ':' :: port)

section Forms

theorem bracketed_append (h : ']' ∉ literal) : bracketed (literal ++ ']' :: rest) = literal ++ [']'] := by
  induction literal with
  | nil => rfl
  | cons c literal ih =>
    rw [List.mem_cons, not_or] at h
    rw [List.cons_append, bracketed, if_neg (Ne.symm h.1), ih h.2, List.cons_append]

theorem bracketed_of_not_mem (h : ']' ∉ cs) : bracketed cs = cs := by
  induction cs with
  | nil => rfl
  | cons c cs ih =>
    rw [List.mem_cons, not_or] at h
    rw [bracketed, if_neg (Ne.symm h.1), ih h.2]

theorem withoutPort_of_open (h : text.toList = '[' :: cs) : withoutPort text = String.ofList ('[' :: bracketed cs) := by
  unfold withoutPort
  rw [h]
  rfl

theorem withoutPort_of_not_open (h : text.toList.head? ≠ some '[')
    : withoutPort text =
        match text.toList.dropWhile (· ≠ ':') with
        | _ :: port => if port.all Char.isDigit then String.ofList (text.toList.takeWhile (· ≠ ':')) else text
        | [] => text := by
  unfold withoutPort
  split
  . next heq => simp [heq] at h
  . rfl

theorem withoutPort_literal (h : ']' ∉ literal) (htext : text.toList = '[' :: (literal ++ ']' :: rest))
    : withoutPort text = String.ofList ('[' :: (literal ++ [']'])) := by
  rw [withoutPort_of_open htext, bracketed_append h]

theorem withoutPort_unclosed (h : ']' ∉ cs) (htext : text.toList = '[' :: cs) : withoutPort text = text := by
  rw [withoutPort_of_open htext, bracketed_of_not_mem h, ← htext, String.ofList_toList]

theorem withoutPort_plain (hopen : text.toList.head? ≠ some '[') (h : ':' ∉ text.toList) : withoutPort text = text := by
  rw [withoutPort_of_not_open hopen, List.dropWhile_eq_nil_iff.2 (ne_of_not_mem h)]

theorem withoutPort_colon (hopen : text.toList.head? ≠ some '[') (h : ':' ∉ name)
    (htext : text.toList = name ++ ':' :: port)
    : withoutPort text = if port.all Char.isDigit then String.ofList name else text := by
  rw [withoutPort_of_not_open hopen, htext, List.dropWhile_append_of_pos (ne_of_not_mem h),
    List.dropWhile_cons_of_neg (by simp), takeWhile_append_separator h]

theorem exists_last_colon (h : ':' ∈ cs) : ∃ name port, cs = name ++ ':' :: port ∧ ':' ∉ port := by
  rcases List.eq_append_cons_of_mem (List.mem_reverse.2 h) with ⟨port, name, heq, hport⟩
  refine ⟨name.reverse, port.reverse, ?_, by simpa using hport⟩
  rw [← List.reverse_reverse cs, heq]
  simp

theorem form (cs : List Char) : Form cs := by
  by_cases hopen : cs.head? = some '['
  . rcases List.head?_eq_some_iff.1 hopen with ⟨cs, rfl⟩
    by_cases hclosed : ']' ∈ cs
    . rcases List.eq_append_cons_of_mem hclosed with ⟨literal, rest, rfl, h⟩
      exact .literal literal rest h
    . exact .unclosed cs hclosed
  . by_cases hcolon : ':' ∈ cs
    . rcases exists_last_colon hcolon with ⟨name, port, rfl, h⟩
      exact .port name port hopen h
    . exact .plain cs hopen hcolon

/-- Split at the last colon. A further colon stands in front of it and so in what is no port. -/
theorem withoutPort_last_colon (hopen : text.toList.head? ≠ some '[')
    (htext : text.toList = name ++ ':' :: port)
    : withoutPort text = if ':' ∉ name ∧ port.all Char.isDigit then String.ofList name else text := by
  by_cases hname : ':' ∈ name
  . rcases List.eq_append_cons_of_mem hname with ⟨front, between, rfl, hfront⟩
    rw [List.append_assoc, List.cons_append] at htext
    have hdigits : (between ++ ':' :: port).all Char.isDigit = false := by simp
    rw [withoutPort_colon hopen hfront htext, hdigits, if_neg (by simp), if_neg (by simp)]
  . rw [withoutPort_colon hopen hname htext]
    simp [hname]

theorem withoutPort_two_colons (hopen : text.toList.head? ≠ some '[') (h : 2 ≤ text.toList.count ':')
    : withoutPort text = text := by
  have hmem : ':' ∈ text.toList := by
    rw [← List.count_pos_iff]
    omega
  rcases List.eq_append_cons_of_mem hmem with ⟨name, port, htext, hname⟩
  have hport : ':' ∈ port := by
    rw [htext, List.count_append, List.count_cons_self, List.count_eq_zero.2 hname] at h
    rw [← List.count_pos_iff]
    omega
  rw [withoutPort_colon hopen hname htext, if_neg]
  intro hdigits
  have := List.all_eq_true.1 hdigits ':' hport
  contradiction

theorem withoutPort_not_digits {c : Char} (hopen : text.toList.head? ≠ some '[')
    (htext : text.toList = name ++ ':' :: port)
    (hmem : c ∈ port) (hc : c.isDigit = false) : withoutPort text = text := by
  by_cases hname : ':' ∈ name
  . apply withoutPort_two_colons hopen
    have := List.count_pos_iff.2 hname
    rw [htext, List.count_append, List.count_cons_self]
    omega
  . rw [withoutPort_colon hopen hname htext, if_neg]
    intro hdigits
    rw [List.all_eq_true.1 hdigits c hmem] at hc
    contradiction

theorem withoutPort_withoutPort (text : String) : withoutPort (withoutPort text) = withoutPort text := by
  have hform := form text.toList
  generalize hcs : text.toList = cs at hform
  cases hform with
  | literal literal rest h =>
    rw [withoutPort_literal h hcs]
    exact withoutPort_literal h (String.toList_ofList)
  | unclosed cs h => rw [withoutPort_unclosed h hcs, withoutPort_unclosed h hcs]
  | plain _ hopen h =>
    rw [← hcs] at hopen h
    rw [withoutPort_plain hopen h, withoutPort_plain hopen h]
  | port name port hopen h =>
    have hlast := withoutPort_last_colon (by rwa [hcs]) hcs
    rw [hlast]
    split
    . next hport =>
      apply withoutPort_plain
      . rw [String.toList_ofList]
        intro hname
        rw [List.head?_append_of_ne_nil] at hopen
        . exact hopen hname
        . rintro rfl
          simp at hname
      . rw [String.toList_ofList]
        exact hport.1
    . next hport => rw [hlast, if_neg hport]

end Forms

theorem cutOut?_eq (host : String) : cutOut? host = some (withoutPort host) := by
  have hform := form host.toList
  generalize hcs : host.toList = cs at hform
  cases hform with
  | literal literal rest h =>
    have hopen : host.toList.head? = some '[' := by
      rw [hcs]
      rfl
    rw [← List.cons_append] at hcs
    have hplace : firstPlace? ']' host.toList = some (String.ofList ('[' :: literal)).utf8ByteSize := by
      rw [hcs]
      apply Text.firstPlace?_append
      simpa using h
    have hcut : cutAt? host ((String.ofList ('[' :: literal)).utf8ByteSize + 1) =
        some (String.ofList ('[' :: literal ++ [']']), String.ofList rest) := Text.cutAt?_behind hcs
    unfold cutOut?
    rw [if_pos hopen, hplace, withoutPort_literal h hcs]
    dsimp only
    rw [hcut]
    rfl
  | unclosed cs h =>
    have hopen : host.toList.head? = some '[' := by
      rw [hcs]
      rfl
    have hplace : firstPlace? ']' host.toList = none := by
      rw [hcs]
      apply Text.firstPlace?_eq_none
      simpa using h
    unfold cutOut?
    rw [if_pos hopen, hplace, withoutPort_unclosed h hcs]
  | plain _ hopen h =>
    rw [← hcs] at hopen h
    unfold cutOut?
    rw [if_neg hopen, Text.lastPlace?_eq_none h, withoutPort_plain hopen h]
  | port name port hopen h =>
    rw [← hcs] at hopen
    have hbefore := Text.cutAt?_before hcs
    have hbehind : cutAt? host ((String.ofList name).utf8ByteSize + 1) =
        some (String.ofList (name ++ [':']), String.ofList port) := Text.cutAt?_behind hcs
    unfold cutOut?
    rw [if_neg hopen, withoutPort_last_colon hopen hcs, hcs, Text.lastPlace?_append h]
    simp only [hbefore, hbehind, Option.bind_eq_bind, Option.bind_some, Option.pure_def, String.toList_ofList]

/-- Name or address in front of a port, literals with their brackets, and all else as it is; a second time nothing
changes. The server is known by the host part unless it is told its address. -/
theorem keeps_host_part
    : (∀ host port : String,
        ':' ∉ host.toList → host.toList.head? ≠ some '[' → (∀ c ∈ port.toList, c.isDigit = true) →
        withoutPort host = host ∧ withoutPort (host ++ ":" ++ port) = host) ∧
      (∀ literal port : String,
        ']' ∉ literal.toList → (∀ c ∈ port.toList, c.isDigit = true) →
        withoutPort ("[" ++ literal ++ "]") = "[" ++ literal ++ "]" ∧
        withoutPort ("[" ++ literal ++ "]:" ++ port) = "[" ++ literal ++ "]") ∧
      (∀ text : String,
        text.toList.head? ≠ some '[' →
        (2 ≤ text.toList.count ':' ∨
          ∃ name port : String, text = name ++ ":" ++ port ∧ ∃ c ∈ port.toList, c.isDigit = false) →
        withoutPort text = text) ∧
      (∀ text, withoutPort (withoutPort text) = withoutPort text) ∧
      (∀ text, cutOut? text = some (withoutPort text)) ∧
      (∀ (h : Hub) (host : Option String),
        (∀ address, h.publicAddress = some address → address ≠ "" → h.serverIp host = address) ∧
        ((∀ address, h.publicAddress = some address → address = "") →
          h.serverIp host = (host.map withoutPort).getD "")) := by
  refine ⟨?_, ?_, ?_, withoutPort_withoutPort, cutOut?_eq, ?_⟩
  . intro host port hhost hopen hport
    refine ⟨withoutPort_plain hopen hhost, ?_⟩
    have htext : (host ++ ":" ++ port).toList = host.toList ++ ':' :: port.toList := by simp
    have hhead : (host ++ ":" ++ port).toList.head? ≠ some '[' := by
      rw [htext, List.head?_append]
      cases hcs : host.toList.head? with
      | none => simp
      | some c =>
        rw [hcs] at hopen
        exact hopen
    rw [withoutPort_colon hhead hhost htext, if_pos (List.all_eq_true.2 hport), String.ofList_toList]
  . intro literal port hliteral hport
    have hresult : String.ofList ('[' :: (literal.toList ++ [']'])) = "[" ++ literal ++ "]" := by
      rw [← String.toList_inj]
      simp
    constructor
    . have htext : ("[" ++ literal ++ "]").toList = '[' :: (literal.toList ++ ']' :: []) := by simp
      rw [withoutPort_literal hliteral htext, hresult]
    . have htext : ("[" ++ literal ++ "]:" ++ port).toList = '[' :: (literal.toList ++ ']' :: ':' :: port.toList) := by
        simp
      rw [withoutPort_literal hliteral htext, hresult]
  . rintro text hopen (hcolons | ⟨name, port, rfl, c, hmem, hc⟩)
    . exact withoutPort_two_colons hopen hcolons
    . have htext : (name ++ ":" ++ port).toList = name.toList ++ ':' :: port.toList := by simp
      exact withoutPort_not_digits hopen htext hmem hc
  . intro h host
    constructor
    . intro address haddress hne
      simp [Hub.serverIp, haddress, Option.filter, hne]
    . intro hnone
      cases haddress : h.publicAddress with
      | none => simp [Hub.serverIp, haddress]
      | some address => simp [Hub.serverIp, haddress, Option.filter, hnone address haddress]

def sampleHub : Hub where
  handle := { relay := { table := { names := ⟨[]⟩ }, password := "secret", outbox := { capacity := 1 } } }
  publicAddress := some ""

theorem keeps_host_part_sampleHeaders
    : (':' ∉ "é.example".toList ∧ "é.example".toList.head? ≠ some '[' ∧ (∀ c ∈ "8080".toList, c.isDigit = true) ∧
        withoutPort ("é.example" ++ ":" ++ "8080") = "é.example") ∧
      (']' ∉ "::1".toList ∧ withoutPort ("[" ++ "::1" ++ "]:" ++ "8080") = "[" ++ "::1" ++ "]") ∧
      ("2001:db8::1".toList.head? ≠ some '[' ∧ 2 ≤ "2001:db8::1".toList.count ':' ∧
        withoutPort "2001:db8::1" = "2001:db8::1") ∧
      ((∀ address, sampleHub.publicAddress = some address → address = "") ∧
        sampleHub.serverIp (some "é.example:") = withoutPort "é.example:") := by
  rcases keeps_host_part with ⟨hname, hliteral, hother, -, -, hserver⟩
  have hdigits : ∀ c ∈ "8080".toList, c.isDigit = true := by
    apply List.all_eq_true.1
    rfl
  have haddress : ∀ address, sampleHub.publicAddress = some address → address = "" := by
    intro address h
    exact (Option.some.inj h).symm
  refine ⟨⟨by decide, by decide, hdigits, ?_⟩, ⟨by decide, ?_⟩, ⟨by decide, by decide, ?_⟩, haddress, ?_⟩
  . exact (hname "é.example" "8080" (by decide) (by decide) hdigits).2
  . exact (hliteral "::1" "8080" (by decide) hdigits).2
  . exact hother "2001:db8::1" (by decide) (.inl (by decide))
  . exact (hserver sampleHub (some "é.example:")).2 haddress

end Host

end Intercom.Signaling
