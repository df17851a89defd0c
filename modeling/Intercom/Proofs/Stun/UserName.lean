import Mathlib
import Intercom.Proofs.Stun.Acceptance
import Intercom.Proofs.Text.Lossy

/-!
This module contains which part of a user name names a session: the octets between its first and its second colon,
whatever the octets are.
-/

namespace Intercom.Stun

/-- What stands between the first and the second separator, or behind the only one. -/
def between? {α : Type} [DecidableEq α] (separator : α) (xs : List α) : Option (List α) :=
  match xs.dropWhile (· ≠ separator) with
  | [] => none
  | _ :: rest => some (rest.takeWhile (· ≠ separator))

/-- The value of the first user name before the tag, among the attributes that can be read. -/
def userName? (datagram : Bytes) : Option Bytes :=
  match readHeader datagram with
  | none => none
  | some (_, length) => first? (Attribute.scan ((datagram.drop headerLength).take length)).1 .username

section Between

variable {α : Type} [DecidableEq α] {separator : α} {xs front part rest : List α}

theorem ne_of_not_mem (h : separator ∉ xs) : ∀ x ∈ xs, decide (x ≠ separator) = true := by
  intro x hx
  rw [decide_eq_true_iff]
  intro heq
  rw [heq] at hx
  exact h hx

theorem between?_eq_none (h : separator ∉ xs) : between? separator xs = none := by
  unfold between?
  rw [List.dropWhile_eq_nil_iff.2 (ne_of_not_mem h)]

theorem between?_append (h : separator ∉ front)
    : between? separator (front ++ separator :: rest) = some (rest.takeWhile (· ≠ separator)) := by
  unfold between?
  rw [List.dropWhile_append_of_pos (ne_of_not_mem h), List.dropWhile_cons_of_neg (by simp)]

theorem takeWhile_of_not_mem (h : separator ∉ part) : part.takeWhile (· ≠ separator) = part :=
  List.takeWhile_eq_self_iff.2 (ne_of_not_mem h)

theorem takeWhile_append_separator (h : separator ∉ part)
    : (part ++ separator :: rest).takeWhile (· ≠ separator) = part := by
  rw [List.takeWhile_append_of_pos (ne_of_not_mem h), List.takeWhile_cons_of_neg (by simp), List.append_nil]

theorem exists_of_between? (h : between? separator xs = some part) : ∃ front rest, xs = front ++ part ++ rest := by
  by_cases hmem : separator ∈ xs
  . rcases List.eq_append_cons_of_mem hmem with ⟨front, rest, rfl, hfront⟩
    rw [between?_append hfront, Option.some.injEq] at h
    refine ⟨front ++ [separator], rest.dropWhile (· ≠ separator), ?_⟩
    rw [← h, List.append_assoc, List.takeWhile_append_dropWhile, List.append_assoc]
    rfl
  . rw [between?_eq_none hmem] at h
    simp at h

end Between

section Reading

variable {datagram value : Bytes} {r : Received}

theorem fragment?_eq_between? (m : Message)
    : m.fragment? = m.username.bind fun name => (between? ':' name.toList).map String.ofList := by
  unfold Message.fragment? between?
  cases m.username with
  | none => rfl
  | some name =>
    rw [Option.bind_eq_bind, Option.bind_some, Option.bind_some]
    cases name.toList.dropWhile (· ≠ ':') with
    | nil => rfl
    | cons c rest => rfl

theorem takeWhile_decodeLossy (bs : Bytes)
    : (Utf8.decodeLossy bs).toList.takeWhile (· ≠ ':') = (Utf8.decodeLossy (bs.takeWhile (· ≠ Utf8.colon))).toList := by
  by_cases hmem : Utf8.colon ∈ bs
  . rcases List.eq_append_cons_of_mem hmem with ⟨part, rest, rfl, hpart⟩
    rw [Utf8.toList_decodeLossy_append_colon, takeWhile_append_separator (Utf8.colon_not_mem_decodeLossy hpart),
      takeWhile_append_separator hpart]
  . rw [takeWhile_of_not_mem hmem, takeWhile_of_not_mem (Utf8.colon_not_mem_decodeLossy hmem)]

theorem between?_decodeLossy (value : Bytes)
    : (between? ':' (Utf8.decodeLossy value).toList).map String.ofList =
        (between? Utf8.colon value).map Utf8.decodeLossy := by
  by_cases hmem : Utf8.colon ∈ value
  . rcases List.eq_append_cons_of_mem hmem with ⟨front, rest, rfl, hfront⟩
    rw [Utf8.toList_decodeLossy_append_colon, between?_append (Utf8.colon_not_mem_decodeLossy hfront),
      between?_append hfront, Option.map_some, Option.map_some, takeWhile_decodeLossy, String.ofList_toList]
  . rw [between?_eq_none hmem, between?_eq_none (Utf8.colon_not_mem_decodeLossy hmem)]
    rfl

theorem userName?_of_grammar {as : List Attribute} (h : Grammar datagram as)
    : userName? datagram = first? as .username := by
  have hscan := Attribute.scan_bytes h.fits
  rw [h.bytes] at hscan
  unfold userName?
  rw [readHeader_of_framed h.framed]
  dsimp only
  rw [hscan]

theorem framed_of_userName? (h : userName? datagram = some value) : Framed datagram := by
  unfold userName? at h
  split at h
  . simp at h
  . next hheader => exact framed_of_readHeader hheader

theorem fragment?_of_decode (h : decode datagram = .ok r)
    : r.message.fragment? = ((userName? datagram).bind (between? Utf8.colon)).map Utf8.decodeLossy := by
  rcases grammar_of_decode h with ⟨as, hgrammar⟩
  rw [decode_of_grammar hgrammar, Except.ok.injEq] at h
  rw [fragment?_eq_between?, userName?_of_grammar hgrammar, ← h]
  unfold reading messageOf
  dsimp only
  cases first? as .username with
  | none => rfl
  | some value =>
    rw [Option.bind_some, Option.bind_some, Option.bind_some]
    exact between?_decodeLossy value

end Reading

end Intercom.Stun
