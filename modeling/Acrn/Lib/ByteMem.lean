import Mathlib.Data.Nat.ModEq
import Mathlib.Data.BitVec
import Mathlib.Logic.Function.Basic
import Mathlib.Tactic.Ring

/-!
# Numbers in a memory of bytes

Numbers are kept with the low byte first. A number that was written is read back modulo its
width, and a write leaves alone what lies apart from it.
-/

namespace ByteMem

/-- A memory, byte by byte. -/
abbrev Mem : Type := ℕ → BitVec 8

/-- Two intervals of addresses have no address in common. -/
def Apart (a n b k : ℕ) : Prop := ∀ i, ¬ ((a ≤ i ∧ i < a + n) ∧ b ≤ i ∧ i < b + k)

theorem apart_iff {a n b k : ℕ} :
    Apart a n b k ↔ n = 0 ∨ k = 0 ∨ a + n ≤ b ∨ b + k ≤ a := by
  constructor
  · intro h
    have hi := h (max a b)
    omega
  · intro h i hi
    omega

instance (a n b k : ℕ) : Decidable (Apart a n b k) := decidable_of_iff _ apart_iff.symm

/-- The number of `n` bytes at `a`. -/
def readLE (m : Mem) (a : ℕ) : ℕ → ℕ
  | 0 => 0
  | n + 1 => (m a).toNat + 256 * readLE m (a + 1) n

/-- The number `v` is written to the `n` bytes at `a`. -/
def writeLE (m : Mem) (a : ℕ) : ℕ → ℕ → Mem
  | 0, _ => m
  | n + 1, v => Function.update (writeLE m (a + 1) n (v / 256)) a (BitVec.ofNat 8 v)

variable {m m' : Mem} {a b n k v i : ℕ}

/-- A byte outside stays. -/
theorem writeLE_frame (h : i < a ∨ a + n ≤ i) : writeLE m a n v i = m i := by
  induction n generalizing a v with
  | zero => rfl
  | succ n ih =>
    have hne : i ≠ a := by omega
    rw [writeLE, Function.update_of_ne hne]
    exact ih (by omega)

/-- Only the bytes of a number count. -/
theorem readLE_congr (h : ∀ i, a ≤ i → i < a + n → m i = m' i) : readLE m a n = readLE m' a n := by
  induction n generalizing a with
  | zero => rfl
  | succ n ih =>
    rw [readLE, readLE, h a le_rfl (by omega), ih fun i hi hlt => h i (by omega) (by omega)]

/-- **A number is read back** modulo its width. -/
theorem readLE_writeLE_self : readLE (writeLE m a n v) a n = v % 256 ^ n := by
  induction n generalizing a v with
  | zero => rw [readLE, pow_zero, Nat.mod_one]
  | succ n ih =>
    have hrest : readLE (writeLE m a (n + 1) v) (a + 1) n = v / 256 % 256 ^ n := by
      rw [← ih (a := a + 1) (v := v / 256)]
      refine readLE_congr fun i hi _ => ?_
      rw [writeLE, Function.update_of_ne (by omega)]
    have hbyte : (writeLE m a (n + 1) v a).toNat = v % 256 := by
      rw [writeLE, Function.update_self, BitVec.toNat_ofNat]
    rw [readLE, hrest, hbyte, pow_succ, Nat.mul_comm (256 ^ n), Nat.mod_mul]

/-- A write apart from a number leaves it. -/
theorem readLE_writeLE_of_disjoint (h : a + n ≤ b ∨ b + k ≤ a) :
    readLE (writeLE m a n v) b k = readLE m b k :=
  readLE_congr fun _ _ _ => writeLE_frame (by omega)

end ByteMem
