import Mathlib.Tactic.Ring
import Mathlib.Data.Nat.Basic

/-!
# Loops over aligned blocks

An address interval is processed block by block: the first and the last block
may be covered only in part, every other one is covered as a whole. Two loop
shapes occur — a `while` loop over a plain interval, and a bounded `for` loop
that also counts the index of the block inside its table — and each has one rule:
an invariant indexed by the address reached so far is carried from the start of
the interval to its end. `2 ^ k` is the block size throughout.
-/

namespace BlockLoop

/-- The first address of the block after the one that holds `x`. -/
def nextBlock (k x : ℕ) : ℕ := x / 2 ^ k * 2 ^ k + 2 ^ k

/-- The first address of the block that holds `x`. -/
def blockStart (k x : ℕ) : ℕ := x / 2 ^ k * 2 ^ k

theorem nextBlock_eq (k x : ℕ) : nextBlock k x = blockStart k x + 2 ^ k := rfl

theorem lt_nextBlock (k x : ℕ) : x < nextBlock k x := by
  have := Nat.div_add_mod x (2 ^ k)
  have := Nat.mod_lt x (Nat.two_pow_pos k)
  rw [nextBlock, Nat.mul_comm]
  omega

theorem blockStart_le (k x : ℕ) : blockStart k x ≤ x := Nat.div_mul_le_self x (2 ^ k)

theorem dvd_nextBlock (k x : ℕ) : 2 ^ k ∣ nextBlock k x :=
  ⟨x / 2 ^ k + 1, by rw [nextBlock]; ring⟩

theorem dvd_blockStart (k x : ℕ) : 2 ^ k ∣ blockStart k x := Dvd.intro_left _ rfl

theorem nextBlock_div (k x : ℕ) : nextBlock k x / 2 ^ k = x / 2 ^ k + 1 := by
  rw [nextBlock, ← Nat.succ_mul, Nat.mul_div_cancel _ (Nat.two_pow_pos k)]

theorem blockStart_div (k x : ℕ) : blockStart k x / 2 ^ k = x / 2 ^ k :=
  Nat.mul_div_cancel _ (Nat.two_pow_pos k)

theorem blockStart_of_dvd {k x : ℕ} (h : 2 ^ k ∣ x) : blockStart k x = x := Nat.div_mul_cancel h

theorem nextBlock_of_dvd {k x : ℕ} (h : 2 ^ k ∣ x) : nextBlock k x = x + 2 ^ k := by
  rw [nextBlock_eq, blockStart_of_dvd h]

/-- Two addresses share a block when one lies between the ends of the other's. -/
theorem div_eq_iff {k x y : ℕ} :
    x / 2 ^ k = y / 2 ^ k ↔ blockStart k y ≤ x ∧ x < nextBlock k y := by
  have hk := Nat.two_pow_pos k
  rw [nextBlock_eq, blockStart]
  constructor
  · intro h
    rw [← h]
    exact ⟨Nat.div_mul_le_self x _, lt_nextBlock k x⟩
  · rintro ⟨h₁, h₂⟩
    rw [Nat.div_eq_iff hk]
    omega

theorem div_lt_of_lt_blockStart {k x y : ℕ} (h : x < blockStart k y) :
    x / 2 ^ k < y / 2 ^ k := by
  rw [Nat.div_lt_iff_lt_mul (Nat.two_pow_pos k)]
  exact h

variable {σ : Type*}

/-! ## The bounded loop

The invariant is indexed by the address that the loop has come to. A body is given the part of the
interval in its block, and that its index is inside the table. -/

/-- `for (; index < bound; index++) { body; if (next >= stop) break; x = next; }`
with `n` iterations left, so that the index is `bound - n`. -/
def forBlocks (bound : ℕ) (next : ℕ → ℕ) (stop : ℕ) (body : ℕ → ℕ → σ → σ) : ℕ → ℕ → σ → σ
  | 0, _, s => s
  | n + 1, x, s =>
    if stop ≤ next x then body (bound - (n + 1)) x s
    else forBlocks bound next stop body n (next x) (body (bound - (n + 1)) x s)

/-- The bounded loop carries an invariant `I` from `start` to `stop`, provided
the table has room for every block of the interval. The body sees an address
that is either the start or the first of a block, and the index of that block
counted from `j`, the index of the first one. -/
theorem forBlocks_rule {bound k start stop j : ℕ} {next : ℕ → ℕ}
    {body : ℕ → ℕ → σ → σ} {I : ℕ → σ → Prop}
    (hnext : ∀ x, x = start ∨ 2 ^ k ∣ x → next x = nextBlock k x)
    (hstep : ∀ x s, start ≤ x → x < stop → (x = start ∨ 2 ^ k ∣ x) → I x s →
      I (min (nextBlock k x) stop) (body (j + (x / 2 ^ k - start / 2 ^ k)) x s)) :
    ∀ n x s, n ≤ bound → bound - n = j + (x / 2 ^ k - start / 2 ^ k) →
      (stop - 1) / 2 ^ k - x / 2 ^ k < n → start ≤ x → x < stop →
      (x = start ∨ 2 ^ k ∣ x) → I x s → I stop (forBlocks bound next stop body n x s) := by
  intro n
  induction n with
  | zero =>
    intro x s _ _ hroom
    omega
  | succ n ih =>
    intro x s hn hidx hroom hge hlt hal hI
    have hI' := hstep x s hge hlt hal hI
    rw [← hidx] at hI'
    rw [forBlocks, hnext x hal]
    by_cases hend : stop ≤ nextBlock k x
    · rw [if_pos hend]
      rwa [Nat.min_eq_right hend] at hI'
    · rw [if_neg hend]
      rw [Nat.min_eq_left (by omega)] at hI'
      have hnx := lt_nextBlock k x
      have hdiv := nextBlock_div k x
      have hmono : start / 2 ^ k ≤ x / 2 ^ k := Nat.div_le_div_right hge
      have hlast : nextBlock k x / 2 ^ k ≤ (stop - 1) / 2 ^ k := Nat.div_le_div_right (by omega)
      exact ih (nextBlock k x) _ (by omega) (by omega) (by omega) (by omega) (by omega)
        (Or.inr (dvd_nextBlock k x)) hI'

/-! ## The unbounded loop -/

/-- `while (x < stop) { body; x = next; }` over blocks of size `2 ^ k`. -/
def whileBlocks (k stop : ℕ) (body : ℕ → σ → σ) (x : ℕ) (s : σ) : σ :=
  if x < stop then whileBlocks k stop body (nextBlock k x) (body x s) else s
termination_by stop - x
decreasing_by
  have := lt_nextBlock k x
  omega

theorem whileBlocks_of_le {k stop : ℕ} {body : ℕ → σ → σ} {x : ℕ} (h : stop ≤ x) (s : σ) :
    whileBlocks k stop body x s = s := by
  rw [whileBlocks, if_neg (by omega)]

/-- The unbounded loop carries an invariant from its start to its end. -/
theorem whileBlocks_rule {k start stop : ℕ} {body : ℕ → σ → σ} {I : ℕ → σ → Prop}
    (hstep : ∀ x s, start ≤ x → x < stop → (x = start ∨ 2 ^ k ∣ x) → I x s →
      I (min (nextBlock k x) stop) (body x s))
    (s : σ) (hle : start ≤ stop) (hI : I start s) :
    I stop (whileBlocks k stop body start s) := by
  suffices h : ∀ n x s, stop - x ≤ n → start ≤ x → (x = start ∨ 2 ^ k ∣ x) →
      I (min x stop) s → I stop (whileBlocks k stop body x s) by
    refine h _ start s le_rfl le_rfl (Or.inl rfl) ?_
    rwa [Nat.min_eq_left hle]
  intro n
  induction n with
  | zero =>
    intro x s hn _ _ hI
    rw [whileBlocks, if_neg (by omega)]
    rwa [Nat.min_eq_right (by omega)] at hI
  | succ n ih =>
    intro x s hn hge hal hI
    rw [whileBlocks]
    by_cases hlt : x < stop
    · rw [if_pos hlt]
      rw [Nat.min_eq_left (by omega)] at hI
      have hnx := lt_nextBlock k x
      exact ih _ _ (by omega) (by omega) (Or.inr (dvd_nextBlock k x)) (hstep x s hge hlt hal hI)
    · rw [if_neg hlt]
      rwa [Nat.min_eq_right (by omega)] at hI

end BlockLoop
