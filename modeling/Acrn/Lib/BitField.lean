import Mathlib.Data.BitVec
import Mathlib.Tactic.Ring

/-!
# Bit fields of machine words

General facts about masking. A word is read field by field: `fieldMask lo hi`
selects the bits `lo ≤ i < hi`, and a word assembled with `|||` from parts that
live in disjoint fields gives every part back under its own mask. Everything is
stated for an arbitrary width.
-/

namespace BitField

variable {w : ℕ}

/-- The word whose set bits are exactly those at positions `lo ≤ i < hi`. -/
def fieldMask (w lo hi : ℕ) : BitVec w := BitVec.ofNat w (2 ^ hi - 2 ^ lo)

theorem testBit_two_pow_sub (lo hi i : ℕ) (h : lo ≤ hi) :
    (2 ^ hi - 2 ^ lo).testBit i = (decide (lo ≤ i) && decide (i < hi)) := by
  have hsplit : 2 ^ hi - 2 ^ lo = 2 ^ lo * (2 ^ (hi - lo) - 1) := by
    rw [Nat.mul_sub, ← Nat.pow_add, Nat.mul_one, Nat.add_sub_cancel' h]
  rw [hsplit, Nat.testBit_two_pow_mul, Nat.testBit_two_pow_sub_one]
  by_cases hi' : lo ≤ i
  · simp only [hi', decide_true, Bool.true_and, decide_eq_decide]
    omega
  · simp [hi']

@[simp] theorem getLsbD_fieldMask {lo hi i : ℕ} (h : lo ≤ hi) :
    (fieldMask w lo hi).getLsbD i = (decide (i < w) && (decide (lo ≤ i) && decide (i < hi))) := by
  rw [fieldMask, BitVec.getLsbD_ofNat, testBit_two_pow_sub lo hi i h]

/-! ## Disjoint parts

Under a mask that a part misses, the part is as if it were not there. All equations of this section
are proved one bit at a time. -/

/-- A part that misses the mask disappears under it. -/
theorem or_and_of_disjoint_right {a b m : BitVec w} (h : b &&& m = 0#w) :
    (a ||| b) &&& m = a &&& m := by
  rw [BitVec.and_or_distrib_right, h, BitVec.or_zero]

theorem or_and_of_disjoint_left {a b m : BitVec w} (h : a &&& m = 0#w) :
    (a ||| b) &&& m = b &&& m := by
  rw [BitVec.or_comm, or_and_of_disjoint_right h]

/-- Clearing bits outside the mask changes nothing under it. -/
theorem not_and_of_disjoint {c m : BitVec w} (h : c &&& m = 0#w) : ~~~c &&& m = m := by
  have hall : ~~~c ||| c = BitVec.allOnes w := by simp
  rw [← BitVec.or_zero (x := ~~~c &&& m), ← h, ← BitVec.and_or_distrib_right, hall,
    BitVec.allOnes_and]

/-- A mask read through a smaller mask. -/
theorem and_eq_zero_of_subset {x m n : BitVec w} (hx : x &&& m = 0#w) (hn : n &&& m = n) :
    x &&& n = 0#w := by
  have hxn : x &&& n = (x &&& m) &&& n := by
    rw [BitVec.and_assoc, BitVec.and_comm m n, hn]
  rw [hxn, hx, BitVec.zero_and]

theorem or_and_ne_zero {a b m : BitVec w} (h : b &&& m ≠ 0#w) : (a ||| b) &&& m ≠ 0#w := by
  intro hab
  apply h
  have hbits : ∀ i, ((a ||| b) &&& m).getLsbD i = false := by
    intro i
    rw [hab, BitVec.getLsbD_zero]
  apply BitVec.eq_of_getLsbD_eq
  intro i hi
  have := hbits i
  simp only [BitVec.getLsbD_and, BitVec.getLsbD_or, BitVec.getLsbD_zero] at this ⊢
  cases hb : b.getLsbD i <;> cases hm : m.getLsbD i <;> simp_all

/-- Bits that a clearing mask spares. -/
theorem and_not_and_of_disjoint {x c m : BitVec w} (h : c &&& m = 0#w) :
    (x &&& ~~~c) &&& m = x &&& m := by
  rw [BitVec.and_assoc, not_and_of_disjoint h]

/-- A word put together from two under a mask, read within the mask. -/
theorem select_and_of_subset {s g m n : BitVec w} (h : m &&& n = n) :
    ((s &&& m) ||| (g &&& ~~~m)) &&& n = s &&& n := by
  have hclear : ~~~m &&& n = 0#w := by
    rw [← h, ← BitVec.and_assoc, BitVec.and_comm (~~~m)]
    simp
  have hnone : (g &&& ~~~m) &&& n = 0#w := by
    rw [BitVec.and_assoc, hclear]
    simp
  rw [or_and_of_disjoint_right hnone, BitVec.and_assoc, h]

/-- Words that differ outside the mask only. -/
theorem and_eq_of_xor_and_eq_zero {a b m : BitVec w} (h : (a ^^^ b) &&& m = 0#w) :
    b &&& m = a &&& m := by
  ext i hi
  have hbit : ((a ^^^ b) &&& m)[i] = (0#w)[i] := by rw [h]
  revert hbit
  simp only [BitVec.getElem_and, BitVec.getElem_xor, BitVec.getElem_zero]
  cases a[i] <;> cases b[i] <;> cases m[i] <;> simp

/-- Equations between words, bit by bit. -/
theorem getLsbD_of_eq_zero {x : BitVec w} (h : x = 0#w) (i : ℕ) : x.getLsbD i = false := by
  rw [h, BitVec.getLsbD_zero]

/-! ## Single bits -/

theorem getLsbD_one_shiftLeft {n : ℕ} (hn : n < w) (i : ℕ) :
    (1#w <<< n).getLsbD i = decide (i = n) := by
  rw [BitVec.getLsbD_shiftLeft, BitVec.getLsbD_one, Bool.eq_iff_iff]
  simp only [Bool.and_eq_true, decide_eq_true_eq, Bool.not_eq_true', decide_eq_false_iff_not]
  omega

/-- A bit is set when masking with it leaves something. -/
theorem and_one_shiftLeft_ne_zero {n : ℕ} (hn : n < w) (x : BitVec w) :
    x &&& 1#w <<< n ≠ 0#w ↔ x.getLsbD n = true := by
  constructor
  · intro hne
    by_contra hbit
    apply hne
    apply BitVec.eq_of_getLsbD_eq
    intro i _
    rw [BitVec.getLsbD_and, getLsbD_one_shiftLeft hn, BitVec.getLsbD_zero]
    by_cases hi : i = n
    · simpa [hi] using hbit
    · simp [hi]
  · intro hbit hzero
    have hnone := getLsbD_of_eq_zero hzero n
    rw [BitVec.getLsbD_and, getLsbD_one_shiftLeft hn, hbit] at hnone
    simp at hnone

/-! ## Fields as numbers -/

theorem toNat_and_fieldMask_low (x : BitVec w) {hi : ℕ} (h : hi ≤ w) :
    (x &&& fieldMask w 0 hi).toNat = x.toNat % 2 ^ hi := by
  have hlt : 2 ^ hi - 2 ^ 0 < 2 ^ w := by
    have : 2 ^ hi ≤ 2 ^ w := Nat.pow_le_pow_right (by omega) h
    have : 0 < 2 ^ hi := Nat.two_pow_pos hi
    omega
  rw [BitVec.toNat_and, fieldMask, BitVec.toNat_ofNat, Nat.mod_eq_of_lt hlt, Nat.pow_zero,
    Nat.and_two_pow_sub_one_eq_mod]

/-- Masking with `lo ≤ i < hi` drops the low `lo` bits and everything from `hi` on. -/
theorem toNat_and_fieldMask (x : BitVec w) {lo hi : ℕ} (hlo : lo ≤ hi) (hhi : hi ≤ w) :
    (x &&& fieldMask w lo hi).toNat = x.toNat % 2 ^ hi / 2 ^ lo * 2 ^ lo := by
  apply Nat.eq_of_testBit_eq
  intro i
  rw [BitVec.testBit_toNat, BitVec.getLsbD_and, getLsbD_fieldMask hlo, Nat.testBit_mul_two_pow,
    Nat.testBit_div_two_pow, Nat.testBit_mod_two_pow, BitVec.testBit_toNat]
  by_cases h : lo ≤ i
  · simp only [h, decide_true, Bool.true_and]
    rw [show i - lo + lo = i by omega]
    by_cases hi' : i < hi
    · simp [hi', show i < w by omega]
    · simp [hi']
  · simp [h]

/-- Bits below `k` of an aligned number are clear. -/
theorem getLsbD_ofNat_of_dvd {n k i : ℕ} (h : 2 ^ k ∣ n) (hi : i < k) :
    (BitVec.ofNat w n).getLsbD i = false := by
  obtain ⟨q, rfl⟩ := h
  rw [BitVec.getLsbD_ofNat, Nat.testBit_two_pow_mul]
  simp [show ¬ k ≤ i by omega]

/-- The sum of an aligned number and an offset below the alignment is their `|||`. -/
theorem toNat_or_of_aligned {x y : BitVec w} {n : ℕ} (hx : 2 ^ n ∣ x.toNat)
    (hy : y.toNat < 2 ^ n) : (x ||| y).toNat = x.toNat + y.toNat := by
  obtain ⟨k, hk⟩ := hx
  rw [BitVec.toNat_or, hk, Nat.two_pow_add_eq_or_of_lt hy]

/-! ## Fields cut out of a word -/

/-- A field that was shifted to its place, cut out again. -/
theorem extractLsb'_shiftLeft_self {n lo : ℕ} (h : lo + n ≤ w) (v : BitVec n) :
    (v.setWidth w <<< lo).extractLsb' lo n = v := by
  apply BitVec.eq_of_getLsbD_eq
  intro i hi
  rw [BitVec.getLsbD_extractLsb', BitVec.getLsbD_shiftLeft, BitVec.getLsbD_setWidth,
    Nat.add_sub_cancel_left]
  simp [hi, show lo + i < w by omega, show i < w by omega]

/-- A field at another place has no part in it. -/
theorem extractLsb'_shiftLeft_of_disjoint {m n lo lo' : ℕ} (h : lo' + n ≤ lo ∨ lo + m ≤ lo')
    (v : BitVec m) : (v.setWidth w <<< lo).extractLsb' lo' n = 0#n := by
  apply BitVec.eq_of_getLsbD_eq
  intro i hi
  rw [BitVec.getLsbD_extractLsb', BitVec.getLsbD_shiftLeft, BitVec.getLsbD_setWidth,
    BitVec.getLsbD_zero]
  rcases h with h | h
  · simp [show lo' + i < lo by omega]
  · rw [BitVec.getLsbD_of_ge v _ (by omega)]
    simp

/-- A mask as wide as the field does not change it. -/
theorem setWidth_and_allOnes {n : ℕ} (v : BitVec n) :
    v.setWidth w &&& (BitVec.allOnes n).setWidth w = v.setWidth w := by
  apply BitVec.eq_of_getLsbD_eq
  intro i hi
  rw [BitVec.getLsbD_and, BitVec.getLsbD_setWidth, BitVec.getLsbD_setWidth, BitVec.getLsbD_allOnes]
  by_cases hin : i < n
  · simp [hin, hi]
  · rw [BitVec.getLsbD_of_ge v i (by omega)]
    simp

end BitField
