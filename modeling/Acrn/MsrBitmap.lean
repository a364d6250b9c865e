import Acrn.VcpuRun

/-!
# The MSR bitmap

Which MSRs are intercepted after a sequence of `enable_msr_interception` calls: the last
call for the bit of an MSR decides.
-/

namespace Acrn

/-- Two MSR numbers have the same bit. -/
def SameSlot (m m' : U32) : Prop := msrByte m = msrByte m' ∧ msrBit m = msrBit m'

instance (m m' : U32) : Decidable (SameSlot m m') := inferInstanceAs (Decidable (_ ∧ _))

theorem and_seven_toNat_lt (x : U32) : (x &&& 0x7#32).toNat < 8 := by
  rw [BitVec.toNat_and]
  exact Nat.and_lt_two_pow _ (n := 3) (by decide)

/-- Two bits of a byte are the same or apart. -/
theorem msrBit_and (m m' : U32) (h : msrBit m ≠ msrBit m') : msrBit m &&& msrBit m' = 0#8 := by
  have hall : ∀ i < 8, ∀ j < 8, 1#8 <<< i ≠ 1#8 <<< j → (1#8 <<< i) &&& (1#8 <<< j) = 0#8 := by
    decide
  exact hall _ (and_seven_toNat_lt m) _ (and_seven_toNat_lt m') h

theorem msrBit_ne_zero (m : U32) : msrBit m ≠ 0#8 := by
  have hall : ∀ i < 8, 1#8 <<< i ≠ 0#8 := by decide
  exact hall _ (and_seven_toNat_lt m)

/-- The read quarters are the first half of the bitmap. -/
theorem msrByte_lt (m : U32) : msrByte m < 2048 := by
  have hbyte : ((m &&& 0x1FFF#32) >>> 3).toNat < 1024 := by
    rw [BitVec.toNat_ushiftRight, BitVec.toNat_and, Nat.shiftRight_eq_div_pow]
    have : m.toNat &&& (0x1FFF#32).toNat < 2 ^ 13 := Nat.and_lt_two_pow _ (by decide)
    omega
  rw [msrByte]
  split <;> omega

section
variable {bitmap : ℕ → BitVec 8} {index index' : ℕ} {bit bit' : BitVec 8} {on : Bool}

theorem setMsrBit_of_index_ne (h : index' ≠ index) :
    setMsrBit bitmap index bit on index' = bitmap index' :=
  Function.update_of_ne h _ _

theorem setMsrBit_of_bit_ne (h : bit &&& bit' = 0#8) :
    setMsrBit bitmap index bit on index' &&& bit' = bitmap index' &&& bit' := by
  rw [setMsrBit]
  by_cases hidx : index' = index
  · subst hidx
    rw [Function.update_self]
    cases on
    · exact BitField.and_not_and_of_disjoint h
    · exact BitField.or_and_of_disjoint_right h
  · rw [Function.update_of_ne hidx]

theorem setMsrBit_self (h : bit ≠ 0#8) :
    decide (setMsrBit bitmap index bit on index &&& bit ≠ 0#8) = on := by
  rw [setMsrBit, Function.update_self]
  cases on
  · simp [BitVec.and_assoc]
  · exact decide_eq_true (BitField.or_and_ne_zero (by rwa [BitVec.and_self]))

end

section
variable (bitmap : ℕ → BitVec 8) (msr msr' : U32) (mode : InterceptMode)

theorem enableMsrInterception_same (h : SameSlot msr msr') :
    readIntercepted (enableMsrInterception bitmap msr mode) msr' = mode.read ∧
      writeIntercepted (enableMsrInterception bitmap msr mode) msr' = mode.write := by
  have hlt := msrByte_lt msr'
  rw [readIntercepted, writeIntercepted, enableMsrInterception, h.1, h.2,
    setMsrBit_of_index_ne (by omega)]
  exact ⟨setMsrBit_self (msrBit_ne_zero _), setMsrBit_self (msrBit_ne_zero _)⟩

theorem enableMsrInterception_other (h : ¬ SameSlot msr msr') :
    readIntercepted (enableMsrInterception bitmap msr mode) msr' = readIntercepted bitmap msr' ∧
      writeIntercepted (enableMsrInterception bitmap msr mode) msr' =
        writeIntercepted bitmap msr' := by
  have hlt := msrByte_lt msr
  have hlt' := msrByte_lt msr'
  rw [readIntercepted, writeIntercepted, readIntercepted, writeIntercepted, enableMsrInterception,
    setMsrBit_of_index_ne (by omega : msrByte msr' ≠ 2048 + msrByte msr)]
  by_cases hbit : msrBit msr = msrBit msr'
  · have hbyte : msrByte msr' ≠ msrByte msr := fun hb => h ⟨hb.symm, hbit⟩
    rw [setMsrBit_of_index_ne hbyte, setMsrBit_of_index_ne (by omega),
      setMsrBit_of_index_ne (by omega)]
    exact ⟨rfl, rfl⟩
  · have hdisj := msrBit_and msr msr' hbit
    rw [setMsrBit_of_bit_ne hdisj, setMsrBit_of_bit_ne hdisj, setMsrBit_of_bit_ne hdisj]
    exact ⟨rfl, rfl⟩

end

/-! ## Sequences of calls

A call writes the bits of one MSR. Of a sequence only the last call for these bits counts, whatever
the others are for. -/

/-- The calls of `enable_msr_interception` in order. -/
def enableAll (bitmap : ℕ → BitVec 8) (calls : List (U32 × InterceptMode)) : ℕ → BitVec 8 :=
  calls.foldl (fun bitmap m => enableMsrInterception bitmap m.1 m.2) bitmap

/-- Both accesses to an MSR are intercepted as the mode says. -/
def InterceptedAs (bitmap : ℕ → BitVec 8) (msr : U32) (mode : InterceptMode) : Prop :=
  readIntercepted bitmap msr = mode.read ∧ writeIntercepted bitmap msr = mode.write

section
variable {bitmap : ℕ → BitVec 8} {msr : U32} {mode : InterceptMode}
  {calls : List (U32 × InterceptMode)}

/-- Calls for other bits change nothing. -/
theorem InterceptedAs.enableAll (h : InterceptedAs bitmap msr mode)
    (hother : ∀ m ∈ calls, ¬ SameSlot m.1 msr) :
    InterceptedAs (enableAll bitmap calls) msr mode := by
  induction calls generalizing bitmap with
  | nil => exact h
  | cons m calls ih =>
    obtain ⟨hread, hwrite⟩ := enableMsrInterception_other bitmap m.1 msr m.2
      (hother m List.mem_cons_self)
    exact ih ⟨hread.trans h.1, hwrite.trans h.2⟩ fun m' hm' =>
      hother m' (List.mem_cons_of_mem m hm')

/-- Calls of one mode that have the MSR among them. -/
theorem interceptedAs_enableAll (hmode : ∀ m ∈ calls, m.2 = mode)
    (hmem : ∃ m ∈ calls, SameSlot m.1 msr) : InterceptedAs (enableAll bitmap calls) msr mode := by
  induction calls generalizing bitmap with
  | nil => obtain ⟨m, hm, -⟩ := hmem; exact absurd hm List.not_mem_nil
  | cons m calls ih =>
    by_cases htail : ∃ m ∈ calls, SameSlot m.1 msr
    · exact ih (fun m' hm' => hmode m' (List.mem_cons_of_mem m hm')) htail
    · -- the head is the last call for this bit
      have hhead : SameSlot m.1 msr := by
        obtain ⟨m', hm', hslot⟩ := hmem
        obtain rfl | hm' := List.mem_cons.mp hm'
        · exact hslot
        · exact absurd ⟨m', hm', hslot⟩ htail
      have hset : InterceptedAs (enableMsrInterception bitmap m.1 m.2) msr mode := by
        rw [← hmode m List.mem_cons_self]
        exact enableMsrInterception_same bitmap m.1 msr m.2 hhead
      exact hset.enableAll fun m' hm' hslot => htail ⟨m', hm', hslot⟩

theorem enableAll_append (bitmap : ℕ → BitVec 8) (calls rest : List (U32 × InterceptMode)) :
    enableAll bitmap (calls ++ rest) = enableAll (enableAll bitmap calls) rest :=
  List.foldl_append

/-- **The last call for the bit of an MSR decides**, in a sequence in which it lies among
calls of one mode. -/
theorem interceptedAs_of_last (before rest : List (U32 × InterceptMode))
    (hmode : ∀ m ∈ calls, m.2 = mode) (hmem : ∃ m ∈ calls, SameSlot m.1 msr)
    (hrest : ∀ m ∈ rest, ¬ SameSlot m.1 msr) :
    InterceptedAs (enableAll bitmap (before ++ calls ++ rest)) msr mode := by
  rw [enableAll_append, enableAll_append]
  exact (interceptedAs_enableAll hmode hmem).enableAll hrest

end

end Acrn
