import Mathlib
import Intercom.Proofs.Net.AddressText
import Intercom.Proofs.Text.Reader

/-!
This module contains how the text of an endpoint is read that consists of the text of an address and a port. An IPv4
address and an IPv6 address in brackets are read as they are, an IPv6 address without brackets is not read at all.
-/

namespace Intercom

open Text (natOf)

namespace Endpoint.Text

open Intercom.Text (Reader decimalValue? isSome_decimalValue? length_toDigits_of_head?_zero many1_digit
  many1_digit_append many1_toDigits natOf_toDigits)
open Intercom.Text.Reader

variable {text rest : List Char} {b : UInt8} {bs : Bytes}

section Octets

theorem octet_toDigits (b : UInt8) (h : ∀ c ∈ rest.head?, c.isDigit = false)
    : octet (Nat.toDigits 10 b.toNat ++ rest) = some (b, rest) := by
  unfold octet
  rw [bind_of_some (many1_toDigits b.toNat h), bind_of_some (guard_of_pos ?_), natOf_toDigits]
  . change some (UInt8.ofNat b.toNat, rest) = _
    rw [UInt8.ofNat_toNat]
  . rw [natOf_toDigits]
    exact ⟨length_toDigits_of_head?_zero, b.toNat_lt⟩

theorem octet_rest (h : octet text = some (b, rest)) : rest = text.dropWhile Char.isDigit := by
  have hdigit : (fun c => (decimalValue? c).isSome) = Char.isDigit := funext isSome_decimalValue?
  cases hread : many1 (digit decimalValue?) text with
  | none =>
    unfold octet at h
    rw [bind_of_none hread] at h
    simp at h
  | some p =>
    rcases p with ⟨ds, rest'⟩
    have hrest : rest' = text.dropWhile Char.isDigit := by
      rw [many1_digit, hdigit] at hread
      split at hread
      . simp at hread
      . rw [Option.some.injEq, Prod.mk.injEq] at hread
        exact hread.2.symm
    unfold octet at h
    rw [bind_of_some hread] at h
    by_cases hguard : (ds.head? = some 0 → ds.length = 1) ∧ natOf 10 ds < 256
    . rw [bind_of_some (guard_of_pos hguard)] at h
      change some (UInt8.ofNat (natOf 10 ds), rest') = _ at h
      rw [Option.some.injEq, Prod.mk.injEq] at h
      rw [← h.2, hrest]
    . rw [bind_of_none (guard_of_neg hguard)] at h
      simp at h

theorem v4Octets_dotted (octets : Octets 4) (h : ∀ c ∈ rest.head?, c.isDigit = false)
    : v4Octets (octets.dotted ++ rest) = some (octets.bytes, rest) := by
  rcases octets with ⟨bytes, hlength⟩
  rcases List.length_eq_four.1 hlength with ⟨a, b, c, d, rfl⟩
  have hdot : ∀ text : List Char, ∀ x ∈ ('.' :: text).head?, x.isDigit = false := by
    intro text x hx
    cases hx
    rfl
  have htext : Octets.dotted ⟨[a, b, c, d], hlength⟩ ++ rest =
      Nat.toDigits 10 a.toNat ++ '.' :: (Nat.toDigits 10 b.toNat ++ '.' :: (Nat.toDigits 10 c.toNat ++
        '.' :: (Nat.toDigits 10 d.toNat ++ rest))) := by
    simp [Octets.dotted, List.intercalate]
  unfold v4Octets
  rw [htext, bind_of_some (octet_toDigits a (hdot _)),
    bind_of_some (char_seqRight.trans (octet_toDigits b (hdot _))),
    bind_of_some (char_seqRight.trans (octet_toDigits c (hdot _))),
    bind_of_some (char_seqRight.trans (octet_toDigits d h))]
  rfl

theorem v4Octets_eq_none (h : (text.dropWhile Char.isDigit).head? ≠ some '.') : v4Octets text = none := by
  unfold v4Octets
  cases hoctet : octet text with
  | none => exact bind_of_none hoctet
  | some p =>
    rcases p with ⟨b, rest⟩
    rw [bind_of_some hoctet]
    apply bind_of_none
    apply char_seqRight_of_head?
    rw [octet_rest hoctet]
    exact h

end Octets

section Groups

open Ipv6Text (Group Row)

/-- A colon, the closing bracket or nothing comes next. -/
def Closes (text : List Char) : Prop :=
  ∀ c ∈ text.head?, c = ':' ∨ c = ']'

/-- Also behind a single colon comes no group. -/
def Stops (text : List Char) : Prop :=
  Closes text ∧ ∀ tail, text = ':' :: tail → Closes tail

theorem Closes.isDigit (h : Closes text) : ∀ c ∈ text.head?, c.isDigit = false := by
  intro c hc
  rcases h c hc with rfl | rfl
  . rfl
  . rfl

theorem Closes.hex (h : Closes text) : ∀ c ∈ text.head?, Hex.value? c = none := by
  intro c hc
  rcases h c hc with rfl | rfl
  . rfl
  . rfl

theorem Closes.head?_ne {c : Char} (h : Closes text) (hcolon : c ≠ ':') (hbracket : c ≠ ']')
    : text.head? ≠ some c := by
  intro hhead
  rcases h c hhead with heq | heq
  . exact hcolon heq
  . exact hbracket heq

theorem closes_colon (text : List Char) : Closes (':' :: text) := by
  intro c hc
  rw [List.head?_cons, Option.mem_some_iff] at hc
  exact Or.inl hc.symm

theorem stops_bracket (text : List Char) : Stops (']' :: text) := by
  constructor
  . intro c hc
    rw [List.head?_cons, Option.mem_some_iff] at hc
    exact Or.inr hc.symm
  . intro tail htail
    simp at htail

theorem stops_colons (text : List Char) : Stops (':' :: ':' :: text) := by
  refine ⟨closes_colon _, ?_⟩
  intro tail htail
  rw [List.cons.injEq] at htail
  rw [← htail.2]
  exact closes_colon text

theorem dropWhile_of_closes (h : Closes text) : text.dropWhile Char.isDigit = text := by
  cases text with
  | nil => rfl
  | cons c text => rw [List.dropWhile_cons_of_neg (by rw [h.isDigit c rfl]; decide)]

theorem v4Octets_of_closes (h : Closes text) : v4Octets text = none := by
  apply v4Octets_eq_none
  rw [dropWhile_of_closes h]
  exact h.head?_ne (by decide) (by decide)

/-- Behind its decimal digits a group has a letter, or it is over. -/
theorem v4Octets_group (g : Group) (h : Closes rest) : v4Octets (g.digits ++ rest) = none := by
  apply v4Octets_eq_none
  rw [List.dropWhile_append]
  split
  . rw [dropWhile_of_closes h]
    exact h.head?_ne (by decide) (by decide)
  . next hne =>
    intro hdot
    rw [List.head?_append_of_ne_nil _ (by simpa using hne)] at hdot
    have hmem := (List.dropWhile_suffix _).mem (List.mem_of_head? hdot)
    have := g.isDigit '.' hmem
    contradiction

theorem group_digits (g : Group) (h : Closes rest) : group (g.digits ++ rest) = some (g.octets, rest) := by
  have hlength : (g.digits.filterMap Hex.value?).length ≤ 4 :=
    Nat.le_trans (List.length_filterMap_le _ _) g.length_le
  unfold group
  rw [bind_of_some (many1_digit_append g.ne_nil g.isDigit h.hex), bind_of_some (guard_of_pos hlength)]
  rfl

theorem group_of_closes (h : Closes text) : group text = none := by
  unfold group
  apply bind_of_none
  rw [many1_digit, if_pos]
  cases text with
  | nil => rfl
  | cons c text => rw [List.takeWhile_cons_of_neg (by rw [h.hex c rfl]; decide)]

variable {α : Type} {r : Reader α}

theorem inRow_of_stops (hr : ∀ text, Closes text → r text = none) (h : Stops text) (first : Bool)
    : inRow first r text = none := by
  unfold inRow
  split
  . exact hr text h.1
  . cases text with
    | nil => exact char_seqRight_of_head? (by simp)
    | cons c text =>
      by_cases hc : c = ':'
      . rw [hc, char_seqRight]
        exact hr text (h.2 text (by rw [hc]))
      . exact char_seqRight_of_head? (by simpa using hc)

/-- A piece with the colon in front of it, which the first of a row does not have. -/
def linked (first : Bool) (piece : List Char) : List Char :=
  if first then piece else ':' :: piece

def joined : (first : Bool) → List (List Char) → List Char
  | _, [] => []
  | first, piece :: pieces => linked first piece ++ joined false pieces

theorem intercalate_eq_joined (pieces : List (List Char)) : List.intercalate [':'] pieces = joined true pieces := by
  induction pieces with
  | nil => rfl
  | cons piece pieces ih =>
    cases pieces with
    | nil => simp [joined, linked]
    | cons next pieces =>
      rw [List.intercalate_cons_cons, ih]
      simp [joined, linked]

theorem inRow_linked (first : Bool) (r : Reader α) (piece rest : List Char)
    : inRow first r (linked first piece ++ rest) = r (piece ++ rest) := by
  cases first with
  | true => rfl
  | false => exact char_seqRight

theorem closes_joined (pieces : List (List Char)) (h : Closes rest) : Closes (joined false pieces ++ rest) := by
  cases pieces with
  | nil => exact h
  | cons piece pieces => exact closes_colon _

section Go

variable {limit : Nat} {ended : Bool}

theorem go_of_stops (h : Stops rest) (first : Bool) : groups.go first limit rest = some (([], false), rest) := by
  cases limit with
  | zero => rfl
  | succ limit =>
    have hv4 := inRow_of_stops (fun _ => v4Octets_of_closes) h first
    have hgroup := inRow_of_stops (fun _ => group_of_closes) h first
    unfold groups.go
    rw [orElse_of_none, orElse_of_none]
    . rfl
    . exact bind_of_none hgroup
    . exact guard_bind_of_none (bind_of_none hv4)

theorem go_dotted (octets : Octets 4) (h : Closes rest) (first : Bool)
    : groups.go first (limit + 2) (linked first octets.dotted ++ rest) = some ((octets.bytes, true), rest) := by
  have hv4 := (inRow_linked first v4Octets octets.dotted rest).trans (v4Octets_dotted octets h.isDigit)
  unfold groups.go
  apply orElse_of_some
  rw [bind_of_some (guard_of_pos (by simp)), bind_of_some hv4]
  rfl

theorem go_group (g : Group) (h : Closes text) (hgo : groups.go false limit text = some ((bs, ended), rest))
    (first : Bool)
    : groups.go first (limit + 1) (linked first g.digits ++ text) = some ((g.octets ++ bs, ended), rest) := by
  have hv4 := (inRow_linked first v4Octets g.digits text).trans (v4Octets_group g h)
  have hgroup := (inRow_linked first group g.digits text).trans (group_digits g h)
  unfold groups.go
  rw [orElse_of_none]
  . apply orElse_of_some
    rw [bind_of_some hgroup, bind_of_some hgo]
    rfl
  . exact guard_bind_of_none (bind_of_none hv4)

/-- A row is read as far as it goes, if it is not longer than allowed and nothing that follows belongs to it. -/
theorem go_row (row : Row) (first : Bool) (hsize : row.size ≤ limit) (h : Stops rest)
    : groups.go first limit (joined first row.pieces ++ rest) = some ((row.octets, row.last.isSome), rest) := by
  rcases row with ⟨gs, last⟩
  -- Each group takes one off the limit, and only the first has no colon in front of it.
  induction gs generalizing first limit with
  | nil =>
    cases last with
    | none => exact go_of_stops h first
    | some octets =>
      rcases Nat.exists_eq_add_of_le' hsize with ⟨limit, rfl⟩
      have hoctets : Row.octets ⟨[], some octets⟩ = octets.bytes := List.append_nil octets.bytes
      have htext : joined first (Row.pieces ⟨[], some octets⟩) = linked first octets.dotted := List.append_nil _
      rw [hoctets, htext]
      exact go_dotted octets h.1 first
  | cons g gs ih =>
    cases limit with
    | zero => simp [Row.size] at hsize
    | succ limit =>
      have hmore : Row.size ⟨gs, last⟩ ≤ limit := by
        simp [Row.size] at hsize ⊢
        omega
      have hoctets : Row.octets ⟨g :: gs, last⟩ = g.octets ++ Row.octets ⟨gs, last⟩ := by simp [Row.octets]
      have htext : joined first (Row.pieces ⟨g :: gs, last⟩) ++ rest =
          linked first g.digits ++ (joined false (Row.pieces ⟨gs, last⟩) ++ rest) := List.append_assoc _ _ _
      rw [hoctets, htext]
      exact go_group g (closes_joined _ h.1) (ih false hmore) first

end Go

theorem groups_row (row : Row) {limit : Nat} (hsize : row.size ≤ limit) (h : Stops rest)
    : groups limit (row.chars ++ rest) = some ((row.octets, row.last.isSome), rest) := by
  unfold Row.chars
  rw [intercalate_eq_joined]
  exact go_row row true hsize h

end Groups

section Ipv6

theorem v6Octets_chars (t : Ipv6Text) (rest : List Char)
    : v6Octets (t.chars ++ ']' :: rest) = some (t.octets.bytes, ']' :: rest) := by
  unfold v6Octets
  cases t with
  | full row hsize =>
    have hread := groups_row row (by omega : row.size ≤ 8) (stops_bracket rest)
    have hlength : row.octets.length = 16 := by rw [row.length_octets, hsize]
    rw [Ipv6Text.chars, bind_of_some hread]
    dsimp only
    rw [if_pos hlength]
    rfl
  | short front back hlast hsize =>
    have hfront := groups_row front (by omega : front.size ≤ 8) (stops_colons (back.chars ++ ']' :: rest))
    have hended : front.last.isSome = false := by rw [hlast, Option.isSome_none]
    have hlength := front.length_octets
    have hback := groups_row back (by omega : back.size ≤ 7 - front.octets.length / 2) (stops_bracket rest)
    have hzeros : 16 - front.octets.length - back.octets.length = 2 * (8 - front.size - back.size) := by
      rw [back.length_octets]
      omega
    rw [Ipv6Text.chars, List.append_assoc, List.cons_append, List.cons_append, bind_of_some hfront]
    dsimp only
    rw [if_neg (by omega), bind_of_some (guard_of_pos hended), bind_of_some char_cons,
      bind_of_some char_cons, bind_of_some hback, hzeros]
    rfl

theorem chars_of_groups {row : Ipv6Text.Row} {g : Ipv6Text.Group} {gs : List Ipv6Text.Group}
    (h : row.groups = g :: gs) : row.chars = g.digits ++ joined false (Ipv6Text.Row.pieces ⟨gs, row.last⟩) := by
  unfold Ipv6Text.Row.chars
  rw [intercalate_eq_joined]
  unfold Ipv6Text.Row.pieces
  rw [h]
  rfl

theorem chars_cases (t : Ipv6Text) (h : Closes rest)
    : Closes (t.chars ++ rest) ∨
      ∃ (g : Ipv6Text.Group) (more : List Char), t.chars ++ rest = g.digits ++ more ∧ Closes more := by
  cases t with
  | full row hsize =>
    cases hgroups : row.groups with
    | nil =>
      unfold Ipv6Text.Row.size at hsize
      have : row.last.toList.length ≤ 1 := by cases row.last <;> simp
      rw [hgroups, List.length_nil] at hsize
      omega
    | cons g gs =>
      refine Or.inr ⟨g, _, ?_, closes_joined (Ipv6Text.Row.pieces ⟨gs, row.last⟩) h⟩
      rw [Ipv6Text.chars, chars_of_groups hgroups, List.append_assoc]
  | short front back hlast hsize =>
    rw [Ipv6Text.chars, List.append_assoc, List.cons_append]
    cases hgroups : front.groups with
    | nil =>
      have hnil : front.chars = [] := by simp [Ipv6Text.Row.chars, Ipv6Text.Row.pieces, hgroups, hlast]
      rw [hnil]
      exact Or.inl (closes_colon _)
    | cons g gs =>
      refine Or.inr ⟨g, _, ?_, closes_joined (Ipv6Text.Row.pieces ⟨gs, front.last⟩)
        (closes_colon (':' :: back.chars ++ rest))⟩
      rw [chars_of_groups hgroups, List.append_assoc]

theorem v4Octets_chars (t : Ipv6Text) (h : Closes rest) : v4Octets (t.chars ++ rest) = none := by
  rcases chars_cases t h with hcloses | ⟨g, more, htext, hmore⟩
  . exact v4Octets_of_closes hcloses
  . rw [htext]
    exact v4Octets_group g hmore

theorem head?_chars (t : Ipv6Text) (h : Closes rest) : (t.chars ++ rest).head? ≠ some '[' := by
  rcases chars_cases t h with hcloses | ⟨g, more, htext, hmore⟩
  . exact hcloses.head?_ne (by decide) (by decide)
  . intro hhead
    rw [htext, List.head?_append_of_ne_nil _ g.ne_nil] at hhead
    have := g.isDigit '[' (List.mem_of_head? hhead)
    contradiction

end Ipv6

theorem port_toDigits (p : UInt16) : port (':' :: Nat.toDigits 10 p.toNat) = some (p, []) := by
  have hread := many1_toDigits p.toNat fun c (hc : c ∈ ([] : List Char).head?) => by simp at hc
  rw [List.append_nil] at hread
  have hnumber : number UInt16.size (Nat.toDigits 10 p.toNat) = some (p.toNat, []) := by
    unfold number
    rw [bind_of_some hread, natOf_toDigits, bind_of_some (guard_of_pos p.toNat_lt)]
    rfl
  unfold port
  rw [map_of_some (char_seqRight.trans hnumber), UInt16.ofNat_toNat]

/-- An address and a port as they stand in the text of an endpoint. -/
def glued (chars : List Char) (port : UInt16) : List Char :=
  chars ++ ':' :: Nat.toDigits 10 port.toNat

theorem v4Endpoint_dotted (octets : Octets 4) (p : UInt16)
    : v4Endpoint (glued octets.dotted p) = some (.v4 octets p, []) := by
  unfold v4Endpoint glued
  rw [bind_of_some (v4Octets_dotted octets (closes_colon _).isDigit),
    bind_of_some (liftM_of_some (Octets.ofBytes?_eq_some_iff.2 rfl)), bind_of_some (port_toDigits p)]
  rfl

theorem v4Endpoint_chars (t : Ipv6Text) (p : UInt16) : v4Endpoint (glued t.chars p) = none :=
  bind_of_none (v4Octets_chars t (closes_colon _))

theorem v6Endpoint_chars (t : Ipv6Text) (p : UInt16) : v6Endpoint (glued t.chars p) = none :=
  bind_of_none (char_seqRight_of_head? (head?_chars t (closes_colon _)))

def bracketed (t : Ipv6Text) : List Char :=
  '[' :: (t.chars ++ [']'])

theorem v4Endpoint_bracketed (t : Ipv6Text) (p : UInt16) : v4Endpoint (glued (bracketed t) p) = none :=
  bind_of_none (v4Octets_eq_none (by simp [glued, bracketed, Char.isDigit]))

theorem v6Endpoint_bracketed (t : Ipv6Text) (p : UInt16)
    : v6Endpoint (glued (bracketed t) p) = some (.v6 t.octets p 0 0, []) := by
  have hscope : ∀ (r : Reader Nat) (text : List Char), (char '%' *> r) (']' :: text) = none := fun _ _ =>
    char_seqRight_of_head? (by simp)
  unfold v6Endpoint glued bracketed
  rw [List.cons_append, List.append_assoc, List.singleton_append,
    bind_of_some (char_seqRight.trans (v6Octets_chars t _)),
    bind_of_some (liftM_of_some (Octets.ofBytes?_eq_some_iff.2 rfl)), bind_of_some (optional_of_none (hscope _ _)),
    bind_of_some char_cons, bind_of_some (port_toDigits p)]
  rfl

end Endpoint.Text

namespace Endpoint

open Endpoint.Text Intercom.Text.Reader

variable {text : String} {p : UInt16}

theorem ofText?_dotted {octets : Octets 4} (h : text.toList = glued octets.dotted p)
    : ofText? text = some (.v4 octets p) := by
  unfold ofText?
  rw [whole?_of_some (h ▸ v4Endpoint_dotted octets p)]
  rfl

/-- The colons of the address and the one before the port are not told apart. -/
theorem ofText?_chars {t : Ipv6Text} (h : text.toList = glued t.chars p) : ofText? text = none := by
  unfold ofText?
  rw [whole?_of_none (h ▸ v4Endpoint_chars t p), whole?_of_none (h ▸ v6Endpoint_chars t p)]
  rfl

theorem ofText?_bracketed {t : Ipv6Text} (h : text.toList = glued (bracketed t) p)
    : ofText? text = some (.v6 t.octets p 0 0) := by
  unfold ofText?
  rw [whole?_of_none (h ▸ v4Endpoint_bracketed t p), whole?_of_some (h ▸ v6Endpoint_bracketed t p)]
  rfl

end Endpoint

end Intercom
