import Mathlib

/-!
This module contains places in texts, counted in octets. A text is cut only between two characters; the place of a
character that is found in it is such a place, and so is the place behind it.
-/

namespace Intercom.Text

variable {c : Char} {front rest cs : List Char} {text before after : String} {place : Nat}

/-- The parts of a text around a place, unless the place is outside the text or inside a character. -/
def cutAt? (text : String) (place : Nat) : Option (String × String) :=
  if h : (String.Pos.Raw.mk place).IsValid text then
    let position : text.Pos := ⟨⟨place⟩, h⟩
    some ((text.sliceTo position).copy, (text.sliceFrom position).copy)
  else none

def firstPlace? (c : Char) : List Char → Option Nat
  | [] => none
  | d :: cs => if d = c then some 0 else (firstPlace? c cs).map (d.utf8Size + ·)

def lastPlace? (c : Char) : List Char → Option Nat
  | [] => none
  | d :: cs =>
    match lastPlace? c cs with
    | some place => some (d.utf8Size + place)
    | none => if d = c then some 0 else none

theorem cutAt?_eq_some_iff
    : cutAt? text place = some (before, after) ↔ text = before ++ after ∧ place = before.utf8ByteSize := by
  constructor
  . intro h
    unfold cutAt? at h
    split at h
    . next hvalid =>
      rw [Option.some.injEq, Prod.mk.injEq] at h
      have hsplits := (String.Pos.mk (s := text) ⟨place⟩ hvalid).splits
      rw [h.1, h.2] at hsplits
      exact ⟨hsplits.eq_append, congrArg String.Pos.Raw.byteIdx hsplits.offset_eq_rawEndPos⟩
    . simp at h
  . rintro ⟨rfl, rfl⟩
    have hvalid : (String.Pos.Raw.mk before.utf8ByteSize).IsValid (before ++ after) :=
      String.Pos.Raw.isValid_iff_exists_append.2 ⟨before, after, rfl, rfl⟩
    have hsplits : (String.Pos.mk (s := before ++ after) ⟨before.utf8ByteSize⟩ hvalid).Splits before after := ⟨rfl, rfl⟩
    unfold cutAt?
    rw [dif_pos hvalid]
    dsimp only
    rw [hsplits.copy_sliceTo_eq, hsplits.copy_sliceFrom_eq]

example : cutAt? "é" 1 = none := by decide

theorem cutAt?_before (h : text.toList = front ++ c :: rest)
    : cutAt? text (String.ofList front).utf8ByteSize = some (String.ofList front, String.ofList (c :: rest)) := by
  rw [cutAt?_eq_some_iff, ← String.ofList_append, ← h, String.ofList_toList]
  exact ⟨rfl, rfl⟩

theorem cutAt?_behind (h : text.toList = front ++ c :: rest)
    : cutAt? text ((String.ofList front).utf8ByteSize + c.utf8Size) =
        some (String.ofList (front ++ [c]), String.ofList rest) := by
  rw [cutAt?_eq_some_iff, ← String.ofList_append, List.append_assoc, List.singleton_append, ← h, String.ofList_toList,
    String.ofList_append, String.utf8ByteSize_append, ← String.singleton_eq_ofList, String.utf8ByteSize_singleton]
  exact ⟨rfl, rfl⟩

theorem utf8ByteSize_ofList_cons (c : Char) (cs : List Char)
    : (String.ofList (c :: cs)).utf8ByteSize = c.utf8Size + (String.ofList cs).utf8ByteSize := by
  rw [String.ofList_cons, String.utf8ByteSize_append, String.utf8ByteSize_singleton]

theorem firstPlace?_append (h : c ∉ front)
    : firstPlace? c (front ++ c :: rest) = some (String.ofList front).utf8ByteSize := by
  induction front with
  | nil => simp [firstPlace?]
  | cons d front ih =>
    rw [List.mem_cons, not_or] at h
    rw [List.cons_append, firstPlace?, if_neg (Ne.symm h.1), ih h.2, Option.map_some, utf8ByteSize_ofList_cons]

theorem firstPlace?_eq_none (h : c ∉ cs) : firstPlace? c cs = none := by
  induction cs with
  | nil => rfl
  | cons d cs ih =>
    rw [List.mem_cons, not_or] at h
    rw [firstPlace?, if_neg (Ne.symm h.1), ih h.2, Option.map_none]

theorem lastPlace?_eq_none (h : c ∉ cs) : lastPlace? c cs = none := by
  induction cs with
  | nil => rfl
  | cons d cs ih =>
    rw [List.mem_cons, not_or] at h
    rw [lastPlace?, ih h.2]
    exact if_neg (Ne.symm h.1)

theorem lastPlace?_append (h : c ∉ rest)
    : lastPlace? c (front ++ c :: rest) = some (String.ofList front).utf8ByteSize := by
  induction front with
  | nil => simp [lastPlace?, lastPlace?_eq_none h]
  | cons d front ih => rw [List.cons_append, lastPlace?, ih, utf8ByteSize_ofList_cons]

end Intercom.Text
