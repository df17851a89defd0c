import Mathlib

/-!
This module contains histories: the states that a step function gives after the first events of a list, and
lists from which one element is taken.
-/

namespace Intercom.Trace

variable {σ α β : Type} {step : σ → α → σ} {s : σ} {xs : List α} {x : α} {j k : Nat}

/-- The state after the first `k` events. -/
def after (step : σ → α → σ) (s : σ) (xs : List α) (k : Nat) : σ :=
  (xs.take k).foldl step s

theorem after_succ (h : xs[k]? = some x) : after step s xs (k + 1) = step (after step s xs k) x := by
  unfold after
  rw [List.take_add_one, h, List.foldl_append]
  rfl

theorem after_succ_of_none (h : xs[k]? = none) : after step s xs (k + 1) = after step s xs k := by
  unfold after
  rw [List.take_add_one, h]
  simp

/-- What every event keeps holds from one moment to any later one. -/
theorem keeps {P : σ → Prop} (hstep : ∀ i x, xs[i]? = some x → P (after step s xs i) → P (step (after step s xs i) x))
    (hj : j ≤ k) (h : P (after step s xs j)) : P (after step s xs k) := by
  induction k, hj using Nat.le_induction with
  | base => exact h
  | succ k _ ih =>
    cases hx : xs[k]? with
    | none =>
      rw [after_succ_of_none hx]
      exact ih
    | some x =>
      rw [after_succ hx]
      exact hstep k x hx ih

/-- What does not hold at first and holds later came with one of the events. -/
theorem exists_step {P : σ → Prop} (hs : ¬ P s) (h : P (after step s xs k))
    : ∃ j < k, ∃ x, xs[j]? = some x ∧ ¬ P (after step s xs j) ∧ P (step (after step s xs j) x) := by
  induction k with
  | zero => exact absurd h hs
  | succ k ih =>
    by_cases hk : P (after step s xs k)
    . rcases ih hk with ⟨j, hj, hrest⟩
      exact ⟨j, by omega, hrest⟩
    . cases hx : xs[k]? with
      | none =>
        rw [after_succ_of_none hx] at h
        exact absurd h hk
      | some x =>
        rw [after_succ hx] at h
        exact ⟨k, by omega, x, hx, hk, h⟩

/-- What is found in the events from the `j`-th up to the `k`-th, each looked at in the state before it. -/
def collect (find? : σ → α → Option β) (step : σ → α → σ) (s : σ) (xs : List α) (j k : Nat) : List β :=
  (List.range' j (k - j)).filterMap fun i => xs[i]?.bind (find? (after step s xs i))

section Collect

variable {find? : σ → α → Option β}

theorem collect_self (k : Nat) : collect find? step s xs k k = [] := by
  unfold collect
  rw [Nat.sub_self]
  rfl

theorem collect_succ (hj : j ≤ k)
    : collect find? step s xs j (k + 1) =
        collect find? step s xs j k ++ (xs[k]?.bind (find? (after step s xs k))).toList := by
  unfold collect
  rw [Nat.succ_sub hj, List.range'_1_concat, List.filterMap_append, Nat.add_sub_cancel' hj]
  rfl

theorem collect_eq_nil (h : ∀ i x, j ≤ i → i < k → xs[i]? = some x → find? (after step s xs i) x = none)
    : collect find? step s xs j k = [] := by
  unfold collect
  rw [List.filterMap_eq_nil_iff]
  intro i hi
  rw [List.mem_range'_1] at hi
  cases hx : xs[i]? with
  | none => rfl
  | some x => exact h i x hi.1 (by omega) hx

end Collect

section Counting

variable {M : Type} [AddCommMonoid M] {f : σ → α → M} {P : σ → α → Prop}

/-- What the first `k` events add up to, each in the state before it. -/
def total (f : σ → α → M) (step : σ → α → σ) (s : σ) (xs : List α) (k : Nat) : M :=
  ∑ i ∈ Finset.range k, xs[i]?.elim 0 (f (after step s xs i))

/-- How many of the first `k` events are of a kind, each in the state before it. -/
noncomputable def count (P : σ → α → Prop) (step : σ → α → σ) (s : σ) (xs : List α) (k : Nat) : Nat :=
  {i | i < k ∧ ∃ x, xs[i]? = some x ∧ P (after step s xs i) x}.ncard

open Classical in
noncomputable def indicator (p : Prop) : Nat :=
  if p then 1 else 0

theorem indicator_of {p : Prop} (h : p) : indicator p = 1 :=
  if_pos h

theorem indicator_of_not {p : Prop} (h : ¬ p) : indicator p = 0 :=
  if_neg h

@[simp]
theorem indicator_true : indicator True = 1 :=
  indicator_of trivial

@[simp]
theorem indicator_false : indicator False = 0 :=
  indicator_of_not id

theorem eq_add_total {value : σ → M}
    (h : ∀ i x,
      xs[i]? = some x → value (step (after step s xs i) x) = value (after step s xs i) + f (after step s xs i) x)
    (k : Nat) : value (after step s xs k) = value s + total f step s xs k := by
  induction k with
  | zero => exact (add_zero _).symm
  | succ k ih =>
    unfold total at ih ⊢
    rw [Finset.sum_range_succ, ← add_assoc, ← ih]
    cases hx : xs[k]? with
    | none =>
      rw [after_succ_of_none hx]
      exact (add_zero _).symm
    | some x =>
      rw [after_succ hx]
      exact h k x hx

open Classical in
theorem total_indicator (k : Nat) : total (fun s x => indicator (P s x)) step s xs k = count P step s xs k := by
  have hset : {i | i < k ∧ ∃ x, xs[i]? = some x ∧ P (after step s xs i) x} =
      ((Finset.range k).filter fun i => ∃ x, xs[i]? = some x ∧ P (after step s xs i) x : Finset Nat) := by
    ext i
    simp
  unfold total count
  rw [hset, Set.ncard_coe_finset, Finset.card_filter]
  apply Finset.sum_congr rfl
  intro i _
  cases hx : xs[i]? with
  | none => simp
  | some x => simp [indicator]

theorem total_sub {Q : σ → α → Prop} (k : Nat)
    : total (fun s x => (indicator (P s x) - indicator (Q s x) : Int)) step s xs k =
        count P step s xs k - count Q step s xs k := by
  rw [← total_indicator, ← total_indicator]
  unfold total
  rw [Nat.cast_sum, Nat.cast_sum, ← Finset.sum_sub_distrib]
  apply Finset.sum_congr rfl
  intro i _
  cases xs[i]? with
  | none => rfl
  | some x => rfl

theorem total_add {g : σ → α → M} (k : Nat)
    : total (fun s x => f s x + g s x) step s xs k = total f step s xs k + total g step s xs k := by
  unfold total
  rw [← Finset.sum_add_distrib]
  apply Finset.sum_congr rfl
  intro i _
  cases xs[i]? with
  | none => exact (add_zero 0).symm
  | some x => rfl

theorem count_eq_zero_iff (k : Nat)
    : count P step s xs k = 0 ↔ ∀ i < k, ∀ x, xs[i]? = some x → ¬ P (after step s xs i) x := by
  have hfinite : {i | i < k ∧ ∃ x, xs[i]? = some x ∧ P (after step s xs i) x}.Finite := by
    apply (Set.finite_lt_nat k).subset
    intro i hi
    exact hi.1
  unfold count
  rw [Set.ncard_eq_zero hfinite, Set.eq_empty_iff_forall_notMem]
  constructor
  . intro h i hi x hx hP
    exact h i ⟨hi, x, hx, hP⟩
  . intro h i hi
    rcases hi with ⟨hi, x, hx, hP⟩
    exact h i hi x hx hP

end Counting

theorem perm_of_getElem? (h : xs[k]? = some x) : xs.Perm (x :: xs.eraseIdx k) := by
  rw [List.getElem?_eq_some_iff] at h
  rcases h with ⟨hk, rfl⟩
  exact (List.getElem_cons_eraseIdx_perm hk).symm

theorem perm_set (h : xs[k]? = some x) (y : α) : (xs.set k y).Perm (y :: xs.eraseIdx k) := by
  rw [List.getElem?_eq_some_iff] at h
  rcases h with ⟨hk, -⟩
  exact List.set_perm_cons_eraseIdx hk y

end Intercom.Trace
