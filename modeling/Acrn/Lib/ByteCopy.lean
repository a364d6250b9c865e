import Mathlib.Data.Nat.Basic
import Mathlib.Logic.Function.Basic

/-!
# Copies that go one cell after the other

A copy over a memory of cells: the `i`-th step moves the content of `src i` to `dst i`. The two
address functions are arbitrary, so the places may be scattered, overlap, or repeat. Copies are
put together from pieces, and what the whole leaves in each cell is read off at the end.
-/

namespace ByteCopy

variable {ι α : Type*} [DecidableEq ι] {dst src dst' src' : ℕ → ι}

/-- The first `n` cells of a copy, the first one first. -/
def copyCells (dst src : ℕ → ι) : ℕ → (ι → α) → ι → α
  | 0, m => m
  | n + 1, m =>
    let m := copyCells dst src n m
    Function.update m (dst n) (m (src n))

theorem copyCells_add (dst src : ℕ → ι) (a b : ℕ) (m : ι → α) :
    copyCells dst src (a + b) m =
      copyCells (fun i => dst (a + i)) (fun i => src (a + i)) b (copyCells dst src a m) := by
  induction b with
  | zero => rfl
  | succ b ih => rw [Nat.add_succ, copyCells, copyCells, ih]

/-- Only the addresses of the cells that are copied matter. -/
theorem copyCells_congr {n : ℕ} (hdst : ∀ i < n, dst i = dst' i) (hsrc : ∀ i < n, src i = src' i)
    (m : ι → α) : copyCells dst src n m = copyCells dst' src' n m := by
  induction n with
  | zero => rfl
  | succ n ih =>
    rw [copyCells, copyCells, ih (fun i hi => hdst i (Nat.lt_succ_of_lt hi))
      (fun i hi => hsrc i (Nat.lt_succ_of_lt hi)), hdst n (Nat.lt_succ_self n),
      hsrc n (Nat.lt_succ_self n)]

/-- Nothing moves when source and destination are the same. -/
theorem copyCells_self (dst : ℕ → ι) (n : ℕ) (m : ι → α) : copyCells dst dst n m = m := by
  induction n with
  | zero => rfl
  | succ n ih => rw [copyCells, ih, Function.update_eq_self]

/-- A cell that is not a destination keeps its content. -/
theorem copyCells_frame {n : ℕ} (m : ι → α) {a : ι} (h : ∀ i < n, dst i ≠ a) :
    copyCells dst src n m a = m a := by
  induction n with
  | zero => rfl
  | succ n ih =>
    have hn : a ≠ dst n := (h n (Nat.lt_succ_self n)).symm
    rw [copyCells, Function.update_of_ne hn]
    exact ih fun i hi => h i (Nat.lt_succ_of_lt hi)

/-- A destination holds what its source held, if no later cell has the same destination and no
source is overwritten. -/
theorem copyCells_value {n i : ℕ} (m : ι → α) (hi : i < n)
    (hlast : ∀ j, i < j → j < n → dst j ≠ dst i) (hsep : ∀ j < i, dst j ≠ src i) :
    copyCells dst src n m (dst i) = m (src i) := by
  induction n with
  | zero => omega
  | succ n ih =>
    rcases Nat.lt_succ_iff_lt_or_eq.mp hi with hlt | rfl
    · have hn : dst i ≠ dst n := (hlast n hlt (Nat.lt_succ_self n)).symm
      rw [copyCells, Function.update_of_ne hn]
      exact ih hlt fun j hij hj => hlast j hij (Nat.lt_succ_of_lt hj)
    · rw [copyCells, Function.update_self]
      exact copyCells_frame m hsep

end ByteCopy
