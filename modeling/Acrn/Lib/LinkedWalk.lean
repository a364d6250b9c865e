import Mathlib.Data.Finset.Card
import Mathlib.Logic.Function.Iterate

/-!
# Following a linked list

From an element one goes to the next one until an element ends the list. Nothing keeps the list
from being a cycle, so the walk has a number of steps; but a walk through a finite set that does
end, ends before it has been everywhere.
-/

namespace LinkedWalk

variable {α : Type*} (next : α → α) (ends : α → Prop)

/-- The first end is reached after `n` steps. -/
structure FirstEnd (x : α) (n : ℕ) : Prop where
  ends_at : ends (next^[n] x)
  not_before : ∀ i < n, ¬ ends (next^[i] x)

/-- The walk, with at most `n` elements. -/
def walk [DecidablePred ends] : ℕ → α → Option α
  | 0, _ => none
  | n + 1, x => if ends x then some x else walk n (next x)

variable {next ends} {x : α}

theorem FirstEnd.of_ends (h : ends x) : FirstEnd next ends x 0 := ⟨h, nofun⟩

theorem FirstEnd.succ {n : ℕ} (h : ¬ ends x) :
    FirstEnd next ends x (n + 1) ↔ FirstEnd next ends (next x) n := by
  constructor
  · intro hend
    exact ⟨hend.ends_at, fun i hi => hend.not_before (i + 1) (Nat.succ_lt_succ hi)⟩
  · intro hend
    refine ⟨hend.ends_at, fun i hi => ?_⟩
    cases i with
    | zero => exact h
    | succ i => exact hend.not_before i (Nat.lt_of_succ_lt_succ hi)

theorem FirstEnd.eq {n m : ℕ} (h : FirstEnd next ends x n) (h' : FirstEnd next ends x m) :
    n = m := by
  rcases Nat.lt_trichotomy n m with hlt | heq | hgt
  · exact absurd h.ends_at (h'.not_before n hlt)
  · exact heq
  · exact absurd h'.ends_at (h.not_before m hgt)

/-- Before the end no element comes twice. -/
theorem FirstEnd.injOn {n : ℕ} (h : FirstEnd next ends x n) :
    Set.InjOn (fun i => next^[i] x) {i | i < n} := by
  -- after the second of two equal elements the walk would end too early
  have hle : ∀ i j, i < j → j < n → next^[i] x ≠ next^[j] x := by
    intro i j hij hj heq
    refine h.not_before (n - j + i) (by omega) ?_
    have hend := h.ends_at
    rw [show n = n - j + j by omega, Function.iterate_add_apply, ← heq,
      ← Function.iterate_add_apply] at hend
    exact hend
  intro i hi j hj heq
  rcases Nat.lt_trichotomy i j with hlt | heq' | hgt
  · exact absurd heq (hle i j hlt hj)
  · exact heq'
  · exact absurd heq.symm (hle j i hgt hi)

/-- **The walk ends in time**: its elements before the end are not more than there are. -/
theorem FirstEnd.le_card {n : ℕ} (h : FirstEnd next ends x n) (s : Finset α)
    (hs : ∀ i < n, next^[i] x ∈ s) : n ≤ s.card := by
  have hcard := Finset.card_le_card_of_injOn (s := Finset.range n) (fun i => next^[i] x)
    (fun i hi => hs i (Finset.mem_range.mp hi))
    (h.injOn.mono fun i hi => Finset.mem_range.mp hi)
  rwa [Finset.card_range] at hcard

theorem walk_eq_some_iff [DecidablePred ends] {n : ℕ} {y : α} :
    walk next ends n x = some y ↔ ∃ i < n, FirstEnd next ends x i ∧ y = next^[i] x := by
  induction n generalizing x with
  | zero => exact ⟨nofun, fun ⟨i, hi, _⟩ => absurd hi (Nat.not_lt_zero i)⟩
  | succ n ih =>
    rw [walk]
    by_cases hx : ends x
    · rw [if_pos hx]
      constructor
      · intro h
        exact ⟨0, n.succ_pos, .of_ends hx, (Option.some.inj h).symm⟩
      · rintro ⟨i, -, hi, rfl⟩
        obtain rfl := hi.eq (.of_ends hx)
        rfl
    · rw [if_neg hx, ih]
      constructor
      · rintro ⟨i, hi, hend, rfl⟩
        exact ⟨i + 1, Nat.succ_lt_succ hi, (FirstEnd.succ hx).mpr hend, rfl⟩
      · rintro ⟨i, hi, hend, rfl⟩
        cases i with
        | zero => exact absurd hend.ends_at hx
        | succ i => exact ⟨i, Nat.lt_of_succ_lt_succ hi, (FirstEnd.succ hx).mp hend, rfl⟩

end LinkedWalk
