import Acrn.Lib.BitField

/-!
# Access to parts of a register

A register of 32 bits, lowest byte first, is read and written by the byte, the word and the
double word. An access of `bytes` bytes at `offset` means the bits of its lanes, which are
found from the position of the offset in the register.
-/

namespace RegAccess

open BitField

/-- The number of bits of an access; whatever is not a byte or a word is a double word. -/
def width (bytes : ℕ) : ℕ :=
  match bytes with
  | 1 => 8
  | 2 => 16
  | _ => 32

/-- The first bit of an access. -/
def shift (offset bytes : ℕ) : ℕ :=
  match bytes with
  | 1 => 8 * (offset % 4)
  | 2 => 16 * (offset / 2 % 2)
  | _ => 0

/-- The bits of an access. -/
def lanes (offset bytes : ℕ) : BitVec 32 :=
  fieldMask 32 (shift offset bytes) (shift offset bytes + width bytes)

/-- The part of a register that an access reads. -/
def readLanes (reg : BitVec 32) (offset bytes : ℕ) : BitVec 32 :=
  (reg &&& lanes offset bytes) >>> shift offset bytes

/-- The register after an access that writes `val`. -/
def writeLanes (reg : BitVec 32) (offset bytes : ℕ) (val : BitVec 32) : BitVec 32 :=
  (reg &&& ~~~lanes offset bytes) ||| (val <<< shift offset bytes &&& lanes offset bytes)

variable (reg val : BitVec 32) (offset bytes i : ℕ)

theorem shift_add_width_le : shift offset bytes + width bytes ≤ 32 := by
  unfold shift width
  split <;> omega

theorem shift_two : shift offset 2 = 16 * (offset / 2 % 2) := rfl

theorem shift_four : shift offset 4 = 0 := rfl

/-! ## Bit by bit

Everything about lanes is proved from these three equations. -/

theorem getLsbD_lanes : (lanes offset bytes).getLsbD i =
    (decide (shift offset bytes ≤ i) && decide (i < shift offset bytes + width bytes)) := by
  have hle := shift_add_width_le offset bytes
  rw [lanes, getLsbD_fieldMask (by omega), Bool.eq_iff_iff]
  simp only [Bool.and_eq_true, decide_eq_true_eq]
  omega

theorem getLsbD_readLanes : (readLanes reg offset bytes).getLsbD i =
    (decide (i < width bytes) && reg.getLsbD (shift offset bytes + i)) := by
  rw [readLanes, BitVec.getLsbD_ushiftRight, BitVec.getLsbD_and, getLsbD_lanes, Bool.and_comm]
  congr 1
  rw [Bool.eq_iff_iff]
  simp only [Bool.and_eq_true, decide_eq_true_eq]
  omega

theorem getLsbD_writeLanes (hi : i < 32) : (writeLanes reg offset bytes val).getLsbD i =
    if (lanes offset bytes).getLsbD i = true then val.getLsbD (i - shift offset bytes)
    else reg.getLsbD i := by
  rw [writeLanes, BitVec.getLsbD_or, BitVec.getLsbD_and, BitVec.getLsbD_and, BitVec.getLsbD_not,
    BitVec.getLsbD_shiftLeft]
  cases hlane : (lanes offset bytes).getLsbD i with
  | false => simp [hi]
  | true =>
    rw [getLsbD_lanes, Bool.and_eq_true, decide_eq_true_eq] at hlane
    simp [hi, hlane.1]

/-! ## Whole accesses -/

theorem toNat_readLanes_lt : (readLanes reg offset bytes).toNat < 2 ^ width bytes := by
  refine Nat.lt_pow_two_of_testBit _ fun i hi => ?_
  rw [BitVec.testBit_toNat, getLsbD_readLanes, decide_eq_false (by omega), Bool.false_and]

/-- What is written is read again. -/
theorem readLanes_writeLanes :
    readLanes (writeLanes reg offset bytes val) offset bytes =
      val &&& fieldMask 32 0 (width bytes) := by
  have hle := shift_add_width_le offset bytes
  apply BitVec.eq_of_getLsbD_eq
  intro i hi
  rw [getLsbD_readLanes, BitVec.getLsbD_and, getLsbD_fieldMask (by omega)]
  by_cases hw : i < width bytes
  · rw [getLsbD_writeLanes _ _ _ _ _ (by omega), getLsbD_lanes]
    simp [hw, hi]
  · simp [hw]

/-- What is read may be written again. -/
theorem writeLanes_readLanes :
    writeLanes reg offset bytes (readLanes reg offset bytes) = reg := by
  apply BitVec.eq_of_getLsbD_eq
  intro i hi
  rw [getLsbD_writeLanes _ _ _ _ _ hi]
  split
  · next hlane =>
    rw [getLsbD_lanes, Bool.and_eq_true, decide_eq_true_eq, decide_eq_true_eq] at hlane
    rw [getLsbD_readLanes, Nat.add_sub_cancel' hlane.1]
    simp [show i - shift offset bytes < width bytes by omega]
  · rfl

/-- Other lanes stay. -/
theorem writeLanes_and_of_disjoint {m : BitVec 32} (h : lanes offset bytes &&& m = 0#32) :
    writeLanes reg offset bytes val &&& m = reg &&& m := by
  have hval : (val <<< shift offset bytes &&& lanes offset bytes) &&& m = 0#32 := by
    rw [BitVec.and_assoc, h, BitVec.and_zero]
  rw [writeLanes, or_and_of_disjoint_right hval, and_not_and_of_disjoint h]

theorem lanes_four : lanes offset 4 = BitVec.allOnes 32 := by
  apply BitVec.eq_of_getLsbD_eq
  intro i hi
  rw [getLsbD_lanes, BitVec.getLsbD_allOnes]
  simp [shift, width]

@[simp] theorem readLanes_four : readLanes reg offset 4 = reg := by
  rw [readLanes, lanes_four, BitVec.and_allOnes, shift_four, BitVec.ushiftRight_zero]

@[simp] theorem writeLanes_four : writeLanes reg offset 4 val = val := by
  rw [writeLanes, lanes_four, BitVec.and_allOnes, BitVec.not_allOnes, BitVec.and_zero,
    BitVec.zero_or, shift_four, BitVec.shiftLeft_zero]

/-! ## Aligned accesses -/

/-- An access of a byte, a word or a double word at a multiple of its size. -/
structure Aligned (offset bytes : ℕ) : Prop where
  size : bytes = 1 ∨ bytes = 2 ∨ bytes = 4
  dvd : bytes ∣ offset

variable {offset bytes}

theorem Aligned.width_eq (h : Aligned offset bytes) : width bytes = 8 * bytes := by
  obtain ⟨rfl | rfl | rfl, -⟩ := h <;> rfl

/-- The lanes of an aligned access are the bytes from its offset on. -/
theorem Aligned.shift_eq (h : Aligned offset bytes) : shift offset bytes = 8 * (offset % 4) := by
  obtain ⟨rfl | rfl | rfl, hdvd⟩ := h
  · rfl
  · rw [shift_two]
    omega
  · rw [shift_four]
    omega

/-- An aligned access stays in its register. -/
theorem Aligned.end_le (h : Aligned offset bytes) : offset % 4 + bytes ≤ 4 := by
  obtain ⟨rfl | rfl | rfl, hdvd⟩ := h <;> omega

end RegAccess
