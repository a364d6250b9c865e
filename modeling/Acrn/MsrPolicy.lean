import Acrn.Tsc

/-!
# The policy of the MSR bitmap

What `init_msr_emulation` leaves in the bitmap, MSR by MSR, whatever was in it before,
and that nothing a vCPU does later departs from it.
-/

namespace Acrn

open Transition

/-! ## The MSRs of the bitmap -/

def lowMsrEnd : U32 := 0x1FFF#32
def highMsrStart : U32 := 0xC0000000#32
def highMsrEnd : U32 := 0xC0001FFF#32

/-- The MSRs that have bits in the bitmap, which `enable_msr_interception` is called for. -/
def BitmapMsr (msr : U32) : Prop := msr ≤ lowMsrEnd ∨ highMsrStart ≤ msr ∧ msr ≤ highMsrEnd

instance (msr : U32) : Decidable (BitmapMsr msr) := inferInstanceAs (Decidable (_ ∨ _))

section
variable {msr msr' : U32}

/-- The bitmap is indexed with the low thirteen bits of the MSR number. -/
theorem and_low_toNat (msr : U32) : (msr &&& 0x1FFF#32).toNat = msr.toNat % 0x2000 := by
  rw [BitVec.toNat_and]
  exact Nat.and_two_pow_sub_one_eq_mod msr.toNat 13

theorem msrBit_eq (msr : U32) : msrBit msr = 1#8 <<< (msr.toNat % 8) := by
  rw [msrBit, BitVec.toNat_and]
  exact congrArg _ (Nat.and_two_pow_sub_one_eq_mod msr.toNat 3)

/-- The bit of an MSR tells its last three digits. -/
theorem mod_eight_of_msrBit (h : msrBit msr = msrBit msr') : msr.toNat % 8 = msr'.toNat % 8 := by
  have hall : ∀ i < 8, ∀ j < 8, 1#8 <<< i = 1#8 <<< j → i = j := by decide
  rw [msrBit_eq, msrBit_eq] at h
  exact hall _ (Nat.mod_lt _ (by decide)) _ (Nat.mod_lt _ (by decide)) h

/-- The low MSRs take the first 1 KByte of each half of the bitmap. -/
theorem msrByte_low (h : msr ≤ lowMsrEnd) : msrByte msr = msr.toNat / 8 := by
  have hlt : msr.toNat < 2 ^ 13 := Nat.lt_succ_of_le h
  have hclear : msr &&& 0xC0000000#32 = 0#32 := by
    apply BitVec.eq_of_getLsbD_eq
    intro i hi
    rw [BitVec.getLsbD_and, BitVec.getLsbD_zero]
    by_cases h30 : i < 30
    · have hmask : ∀ i < 30, (0xC0000000#32).getLsbD i = false := by decide
      rw [hmask i h30, Bool.and_false]
    · have hpow : 2 ^ 13 ≤ 2 ^ i := Nat.pow_le_pow_right (by decide) (by omega)
      rw [BitVec.getLsbD, Nat.testBit_lt_two_pow (by omega), Bool.false_and]
  rw [msrByte, if_neg (not_not.mpr hclear), BitVec.toNat_ushiftRight, and_low_toNat,
    Nat.shiftRight_eq_div_pow]
  omega

/-- The high MSRs take the second 1 KByte of each half of the bitmap. -/
theorem msrByte_high_eq (h : highMsrStart ≤ msr) (h' : msr ≤ highMsrEnd) :
    msrByte msr = 1024 + (msr.toNat - 0xC0000000) / 8 := by
  have hle : 0xC0000000 ≤ msr.toNat := h
  have hle' : msr.toNat ≤ 0xC0001FFF := h'
  have hset : msr &&& 0xC0000000#32 ≠ 0#32 := by
    intro hzero
    have hget := BitField.getLsbD_of_eq_zero hzero 31
    rw [BitVec.getLsbD_and, BitVec.getLsbD, Nat.testBit_eq_decide_div_mod_eq,
      decide_eq_true (by omega)] at hget
    exact absurd hget (by decide)
  rw [msrByte, if_pos hset, BitVec.toNat_ushiftRight, and_low_toNat, Nat.shiftRight_eq_div_pow]
  omega

/-- **Every MSR of the bitmap has bits of its own.** -/
theorem sameSlot_iff (h : BitmapMsr msr) (h' : BitmapMsr msr') : SameSlot msr msr' ↔ msr = msr' := by
  constructor
  · rintro ⟨hbyte, hbit⟩
    have hmod := mod_eight_of_msrBit hbit
    apply BitVec.eq_of_toNat_eq
    obtain h | ⟨h, hend⟩ := h <;> obtain h' | ⟨h', hend'⟩ := h'
    · rw [msrByte_low h, msrByte_low h'] at hbyte
      omega
    · -- the quarters of the high MSRs are others
      have hlow : msr.toNat ≤ 0x1FFF := h
      rw [msrByte_low h, msrByte_high_eq h' hend'] at hbyte
      omega
    · have hlow : msr'.toNat ≤ 0x1FFF := h'
      rw [msrByte_high_eq h hend, msrByte_low h'] at hbyte
      omega
    · have hle : 0xC0000000 ≤ msr.toNat := h
      have hle' : 0xC0000000 ≤ msr'.toNat := h'
      rw [msrByte_high_eq h hend, msrByte_high_eq h' hend'] at hbyte
      omega
  · rintro rfl
    exact ⟨rfl, rfl⟩

end

/-! ## The last call for an MSR

What a sequence of calls does to an MSR of the bitmap is a function of the list of calls. It is
computed without the bitmap. -/

/-- The mode of the last call for an MSR. -/
def lastMode (msr : U32) : List (U32 × InterceptMode) → Option InterceptMode
  | [] => none
  | m :: calls => (lastMode msr calls).or (if m.1 = msr then some m.2 else none)

section
variable {bitmap : ℕ → BitVec 8} {msr : U32} {mode : InterceptMode}

/-- A later call for the MSR hides the earlier ones. -/
theorem lastMode_append (calls rest : List (U32 × InterceptMode)) :
    lastMode msr (calls ++ rest) = (lastMode msr rest).or (lastMode msr calls) := by
  induction calls with
  | nil => rw [List.nil_append, lastMode, Option.or_none]
  | cons m calls ih => rw [List.cons_append, lastMode, lastMode, ih, Option.or_assoc]

/-- A loop that calls for every MSR of a list decides for its members alone. -/
theorem lastMode_map (msrs : List U32) :
    lastMode msr (msrs.map (·, mode)) = if msr ∈ msrs then some mode else none := by
  induction msrs with
  | nil => rfl
  | cons m msrs ih =>
    rw [List.map_cons, lastMode, ih]
    by_cases htail : msr ∈ msrs
    · rw [if_pos htail, if_pos (List.mem_cons_of_mem m htail)]
      rfl
    · have hmem : msr ∈ m :: msrs ↔ m = msr := by simp [htail, eq_comm]
      rw [if_neg htail, Option.none_or]
      simp only [hmem]

/-- Calls of `enable_msr_interception` set the bits of the MSRs that they are for. -/
theorem InterceptedAs.lastMode (hmsr : BitmapMsr msr) (h : InterceptedAs bitmap msr mode)
    {calls : List (U32 × InterceptMode)} (hcalls : ∀ m ∈ calls, BitmapMsr m.1) :
    InterceptedAs (Acrn.enableAll bitmap calls) msr ((Acrn.lastMode msr calls).getD mode) := by
  induction calls generalizing bitmap mode with
  | nil => exact h
  | cons m calls ih =>
    have hm := sameSlot_iff (hcalls m List.mem_cons_self) hmsr
    have htail := fun m' hm' => hcalls m' (List.mem_cons_of_mem m hm')
    rw [Acrn.lastMode]
    by_cases hsame : m.1 = msr
    · have hset := enableMsrInterception_same bitmap m.1 msr m.2 (hm.mpr hsame)
      rw [if_pos hsame]
      have hrest := ih hset htail
      cases hlast : Acrn.lastMode msr calls <;> rwa [hlast] at hrest
    · obtain ⟨hread, hwrite⟩ :=
        enableMsrInterception_other bitmap m.1 msr m.2 (fun hslot => hsame (hm.mp hslot))
      rw [if_neg hsame, Option.or_none]
      exact ih ⟨hread.trans h.1, hwrite.trans h.2⟩ htail

end

/-! ## The policy

The policy is a function of the MSR and of the TSC offset. It is compared with the calls that
`init_msr_emulation` makes, list by list. -/

/-- The mode of an MSR whose interception does not change. -/
def fixedPolicy (p : Platform) (msr : U32) : InterceptMode :=
  if msr = msrIa32ExtApicIcr then interceptReadWrite
  else if msr = msrIa32ExtApicLdr ∨ msr = msrIa32ExtXapicid then interceptRead
  else if msr ∈ x2apicMsrs then interceptDisable
  else if p.isSafetyVm = true ∧ msr ∈ msrRange msrIa32Mc0Status 10 4 then interceptRead
  else if p.isSafetyVm = true ∧
      (msr ∈ msrRange msrIa32Mc0Ctl 10 4 ∨ msr ∈ msrRange msrIa32Mc0Ctl2 4 1) then interceptDisable
  else if msr = msrIa32Efer ∨ msr = msrIa32TimeStampCounter then interceptWrite
  else if msr ∈ uninterceptedMsrs then interceptDisable
  else interceptReadWrite

/-- The mode of an MSR, with the TSC offset that decides about two of them. -/
def msrPolicy (p : Platform) (offset : Word) (msr : U32) : InterceptMode :=
  if msr = msrIa32TscDeadline then
    if offset = 0#64 then interceptDisable else interceptReadWrite
  else if msr = msrIa32TscAdjust then
    if offset = 0#64 then interceptWrite else interceptReadWrite
  else fixedPolicy p msr

/-- The bitmap is as the policy says. -/
def FollowsPolicy (p : Platform) (bitmap : ℕ → BitVec 8) (offset : Word) : Prop :=
  ∀ msr, BitmapMsr msr → InterceptedAs bitmap msr (msrPolicy p offset msr)

section
variable {p : Platform} {msr : U32}

theorem ite_some_or {α : Type*} (c : Prop) [Decidable c] (a : α) (o o' : Option α) :
    (if c then some a else o).or o' = if c then some a else o.or o' := by
  split <;> rfl

/-- The calls of `update_msr_bitmap_x2apic_passthru`. -/
def x2apicCalls : List (U32 × InterceptMode) :=
  x2apicMsrs.map (·, interceptDisable) ++ [(msrIa32ExtXapicid, interceptRead),
    (msrIa32ExtApicLdr, interceptRead), (msrIa32ExtApicIcr, interceptReadWrite)]

/-- What the calls come to: ICR, LDR and the identifier stay intercepted, and the other x2APIC
registers are passed through. -/
theorem lastMode_x2apicCalls : lastMode msr x2apicCalls =
    if msr = msrIa32ExtApicIcr then some interceptReadWrite
    else if msr = msrIa32ExtApicLdr ∨ msr = msrIa32ExtXapicid then some interceptRead
    else if msr ∈ x2apicMsrs then some interceptDisable else none := by
  simp only [x2apicCalls, lastMode_append, lastMode_map, lastMode, Option.none_or, ite_some_or,
    eq_comm (b := msr), ite_or]

/-- The calls of `init_msr_emulation` come to the policy. -/
theorem lastMode_initCalls (hmsr : BitmapMsr msr) :
    lastMode msr (initCalls p) = some (fixedPolicy p msr) := by
  have hrange : msr ∈ msrRange 0xC0000000#32 0x2000 1 ∨ msr ∈ msrRange 0x0#32 0x2000 1 := by
    rw [mem_msrRange, mem_msrRange]
    obtain h | ⟨h, hend⟩ := hmsr
    · exact .inr ⟨msr.toNat, Nat.lt_succ_of_le h, by simp⟩
    · have hle : 0xC0000000 ≤ msr.toNat := h
      have hle' : msr.toNat ≤ 0xC0001FFF := hend
      refine .inl ⟨msr.toNat - 0xC0000000, by omega, BitVec.eq_of_toNat_eq ?_⟩
      rw [BitVec.toNat_add, BitVec.toNat_ofNat, BitVec.toNat_ofNat]
      omega
  have hdefault : (if msr ∈ msrRange 0xC0000000#32 0x2000 1 then some interceptReadWrite
      else if msr ∈ msrRange 0x0#32 0x2000 1 then some interceptReadWrite else none) =
      some interceptReadWrite := by
    rw [← ite_or, if_pos hrange]
  have hx2apic : x2apicMsrs.map (·, interceptDisable) ++ [(msrIa32ExtXapicid, interceptRead),
      (msrIa32ExtApicLdr, interceptRead), (msrIa32ExtApicIcr, interceptReadWrite)] = x2apicCalls :=
    rfl
  rw [initCalls, lastCalls, fixedPolicy]
  simp only [List.append_assoc]
  rw [hx2apic, lastMode_append, lastMode_append, lastMode_append, lastMode_append, lastMode_append,
    lastMode_x2apicCalls]
  cases hsafety : p.isSafetyVm
  · simp only [lastMode_map, lastMode, Option.none_or, ite_some_or, hdefault, ite_or,
      eq_comm (b := msr), Bool.false_eq_true, if_false, false_and, apply_ite some]
  · simp only [lastMode_append, lastMode_map, lastMode, Option.none_or, ite_some_or, hdefault,
      ite_or, eq_comm (b := msr), if_true, true_and, apply_ite some]

/-- Calls of modes that the policy has for their MSRs keep to it. -/
theorem FollowsPolicy.enableAll {bitmap : ℕ → BitVec 8} {offset : Word}
    (h : FollowsPolicy p bitmap offset) {calls : List (U32 × InterceptMode)}
    (hcalls : ∀ m ∈ calls, BitmapMsr m.1)
    (hmode : ∀ msr mode, lastMode msr calls = some mode → mode = msrPolicy p offset msr) :
    FollowsPolicy p (Acrn.enableAll bitmap calls) offset := by
  intro msr hmsr
  have hlast := (h msr hmsr).lastMode hmsr hcalls
  cases hcall : lastMode msr calls with
  | none => rwa [hcall] at hlast
  | some mode =>
    rw [hcall] at hlast
    rw [← hmode msr mode hcall]
    exact hlast

/-! ## The operations -/

/-- The deadline is intercepted exactly while the TSC of the guest is offset. -/
theorem msrPolicy_deadline (offset : Word) : msrPolicy p offset msrIa32TscDeadline =
    ⟨decide (offset ≠ 0#64), decide (offset ≠ 0#64)⟩ := by
  rw [msrPolicy, if_pos rfl]
  by_cases hzero : offset = 0#64 <;> simp [hzero, interceptDisable, interceptReadWrite]

/-- Writes of IA32_TSC_ADJUST are always intercepted, reads exactly while the TSC of the guest is
offset. -/
theorem msrPolicy_adjust (offset : Word) : msrPolicy p offset msrIa32TscAdjust =
    ⟨decide (offset ≠ 0#64), true⟩ := by
  rw [msrPolicy, if_neg (by decide), if_pos rfl]
  by_cases hzero : offset = 0#64 <;> simp [hzero, interceptWrite, interceptReadWrite]

/-- No other MSR depends on the TSC offset. -/
theorem msrPolicy_fixed (offset : Word) (hdeadline : msr ≠ msrIa32TscDeadline)
    (hadjust : msr ≠ msrIa32TscAdjust) : msrPolicy p offset msr = fixedPolicy p msr := by
  rw [msrPolicy, if_neg hdeadline, if_neg hadjust]

theorem readIntercepted_deadline {bitmap : ℕ → BitVec 8} {offset : Word}
    (h : FollowsPolicy p bitmap offset) :
    readIntercepted bitmap msrIa32TscDeadline = decide (offset ≠ 0#64) := by
  have hread := (h msrIa32TscDeadline (by decide)).1
  rwa [msrPolicy_deadline] at hread

/-- The calls of `set_tsc_msr_interception`. -/
def tscCalls (interception : Bool) : List (U32 × InterceptMode) :=
  [(msrIa32TscDeadline, ⟨interception, interception⟩), (msrIa32TscAdjust, ⟨interception, true⟩)]

/-- The bitmap after `set_tsc_msr_interception`. -/
theorem setTscMsrInterception_msrBitmap (vcpu : Vcpu) (interception : Bool) :
    (setTscMsrInterception vcpu interception).msrBitmap =
      if readIntercepted vcpu.msrBitmap msrIa32TscDeadline = interception then vcpu.msrBitmap
      else enableAll vcpu.msrBitmap (tscCalls interception) := by
  rw [setTscMsrInterception]
  generalize readIntercepted vcpu.msrBitmap msrIa32TscDeadline = isIntercepted
  dsimp only
  cases isIntercepted <;> cases interception
  · rfl
  · rfl
  · simp only [Bool.not_false, Bool.true_and, if_true]
    split <;> rfl
  · rfl

/-- `set_tsc_msr_interception` turns the policy to the new offset. -/
theorem FollowsPolicy.setTscMsrInterception {vcpu : Vcpu} {offset : Word}
    (h : FollowsPolicy p vcpu.msrBitmap offset) (offset' : Word) :
    FollowsPolicy p
      (Acrn.setTscMsrInterception vcpu (decide (offset' ≠ 0#64))).msrBitmap offset' := by
  rw [setTscMsrInterception_msrBitmap, readIntercepted_deadline h]
  split
  · next hsame =>
    -- both offsets are zero, or neither is
    have hzero : offset = 0#64 ↔ offset' = 0#64 := not_iff_not.mp (decide_eq_decide.mp hsame)
    have hpolicy : ∀ msr, msrPolicy p offset' msr = msrPolicy p offset msr := by
      intro msr
      simp only [msrPolicy, hzero]
    intro msr hmsr
    rw [hpolicy]
    exact h msr hmsr
  · intro msr hmsr
    have hcalls : ∀ m ∈ tscCalls (decide (offset' ≠ 0#64)), BitmapMsr m.1 := by
      simp only [tscCalls, List.forall_mem_cons]
      exact ⟨by decide, by decide, fun m hm => absurd hm List.not_mem_nil⟩
    have hmode : (lastMode msr (tscCalls (decide (offset' ≠ 0#64)))).getD (msrPolicy p offset msr) =
        msrPolicy p offset' msr := by
      simp only [tscCalls, lastMode, Option.none_or, ite_some_or, eq_comm (b := msr)]
      by_cases hadjust : msr = msrIa32TscAdjust
      · rw [if_pos hadjust, Option.getD_some, hadjust, msrPolicy_adjust]
      · rw [if_neg hadjust]
        by_cases hdeadline : msr = msrIa32TscDeadline
        · rw [if_pos hdeadline, Option.getD_some, hdeadline, msrPolicy_deadline]
        · rw [if_neg hdeadline, msrPolicy_fixed offset' hdeadline hadjust]
          exact msrPolicy_fixed offset hdeadline hadjust
    rw [← hmode]
    exact (h msr hmsr).lastMode hmsr hcalls

/-- `update_msr_bitmap_x2apic_passthru` is the fold of its calls, followed by the choice for the
MSRs of the TSC. -/
theorem updateMsrBitmapX2apicPassthru_eq (vcpu : Vcpu) : updateMsrBitmapX2apicPassthru vcpu =
    setTscMsrInterception { vcpu with msrBitmap := enableAll vcpu.msrBitmap x2apicCalls }
      (decide (vcpu.vmcs.tscOffset ≠ 0#64)) := by
  have hx2apic : interceptX2apicMsrs vcpu.msrBitmap interceptDisable =
      enableAll vcpu.msrBitmap (x2apicMsrs.map (·, interceptDisable)) := by
    rw [interceptX2apicMsrs, enableAll, List.foldl_map]
  rw [updateMsrBitmapX2apicPassthru, hx2apic, x2apicCalls, enableAll_append]
  rfl

/-- `update_msr_bitmap_x2apic_passthru` keeps to the policy, for the offset that it reads. -/
theorem FollowsPolicy.updateMsrBitmapX2apicPassthru {vcpu : Vcpu} {offset : Word}
    (h : FollowsPolicy p vcpu.msrBitmap offset) :
    FollowsPolicy p (Acrn.updateMsrBitmapX2apicPassthru vcpu).msrBitmap vcpu.vmcs.tscOffset := by
  have hx2apic : FollowsPolicy p (Acrn.enableAll vcpu.msrBitmap x2apicCalls) offset := by
    apply h.enableAll
    · decide
    · intro msr mode hmode
      have hmem : msr ∈ x2apicMsrs := by
        by_contra hmem
        have hicr : msr ≠ msrIa32ExtApicIcr := fun he => hmem (by rw [he]; decide)
        have hread : ¬ (msr = msrIa32ExtApicLdr ∨ msr = msrIa32ExtXapicid) := by
          rintro (rfl | rfl) <;> exact hmem (by decide)
        rw [lastMode_x2apicCalls, if_neg hicr, if_neg hread, if_neg hmem] at hmode
        exact absurd hmode (by simp)
      have hdeadline : msr ≠ msrIa32TscDeadline := fun he => absurd hmem (by rw [he]; decide)
      have hadjust : msr ≠ msrIa32TscAdjust := fun he => absurd hmem (by rw [he]; decide)
      rw [msrPolicy_fixed offset hdeadline hadjust, fixedPolicy, if_pos hmem]
      rw [lastMode_x2apicCalls, if_pos hmem, ← apply_ite some, ← apply_ite some] at hmode
      exact (Option.some.inj hmode).symm
  rw [updateMsrBitmapX2apicPassthru_eq]
  exact hx2apic.setTscMsrInterception vcpu.vmcs.tscOffset

theorem bitmapMsr_msrRange {first : U32} {n step : ℕ}
    (h : ∀ i < n, BitmapMsr (first + BitVec.ofNat 32 (step * i))) (mode : InterceptMode) :
    ∀ m ∈ (msrRange first n step).map (·, mode), BitmapMsr m.1 := by
  intro m hm
  obtain ⟨msr, hmsr, rfl⟩ := List.mem_map.mp hm
  obtain ⟨i, hi, rfl⟩ := mem_msrRange.mp hmsr
  exact h i hi

/-- `init_msr_emulation` is for MSRs of the bitmap only. -/
theorem bitmapMsr_initCalls : ∀ m ∈ initCalls p, BitmapMsr m.1 := by
  have hlow : ∀ i < 0x2000, BitmapMsr (0x0#32 + BitVec.ofNat 32 (1 * i)) := by
    intro i hi
    refine .inl (BitVec.le_def.mpr ?_)
    simp only [lowMsrEnd, BitVec.toNat_add, BitVec.toNat_ofNat]
    omega
  have hhigh : ∀ i < 0x2000, BitmapMsr (0xC0000000#32 + BitVec.ofNat 32 (1 * i)) := by
    intro i hi
    refine .inr ⟨BitVec.le_def.mpr ?_, BitVec.le_def.mpr ?_⟩
    · simp only [highMsrStart, BitVec.toNat_add, BitVec.toNat_ofNat]
      omega
    · simp only [highMsrEnd, BitVec.toNat_add, BitVec.toNat_ofNat]
      omega
  have hlast : ∀ m ∈ lastCalls p, BitmapMsr m.1 := by
    rw [lastCalls]
    cases p.isSafetyVm <;> decide
  rw [initCalls]
  intro m hm
  rw [List.mem_append, List.mem_append, List.mem_append, List.mem_append] at hm
  obtain (hm | hm | hm) | hm | hm := hm
  · exact bitmapMsr_msrRange hlow _ m hm
  · exact bitmapMsr_msrRange hhigh _ m hm
  · exact (show ∀ m ∈ uninterceptedMsrs.map (·, interceptDisable), BitmapMsr m.1 by decide) m hm
  · exact (show ∀ m ∈ [(msrIa32TimeStampCounter, interceptWrite), (msrIa32Efer, interceptWrite)],
      BitmapMsr m.1 by decide) m hm
  · exact hlast m hm

/-- `init_msr_emulation` sets the policy up, whatever the bitmap was before. -/
theorem initMsrEmulation_followsPolicy (p : Platform) (vcpu : Vcpu) :
    FollowsPolicy p (initMsrEmulation p vcpu).msrBitmap vcpu.vmcs.tscOffset := by
  have hcalls : FollowsPolicy p (enableAll vcpu.msrBitmap (initCalls p)) 1#64 := by
    intro msr hmsr
    have hold : InterceptedAs vcpu.msrBitmap msr
        ⟨readIntercepted vcpu.msrBitmap msr, writeIntercepted vcpu.msrBitmap msr⟩ := ⟨rfl, rfl⟩
    have hlast := hold.lastMode hmsr (bitmapMsr_initCalls (p := p))
    have hpolicy : msrPolicy p 1#64 msr = fixedPolicy p msr := by
      -- the two MSRs of the counter are in none of the lists
      by_cases hdeadline : msr = msrIa32TscDeadline
      · subst hdeadline
        rw [msrPolicy, if_pos rfl, fixedPolicy]
        cases p.isSafetyVm <;> rfl
      by_cases hadjust : msr = msrIa32TscAdjust
      · subst hadjust
        rw [msrPolicy, if_neg hdeadline, if_pos rfl, fixedPolicy]
        cases p.isSafetyVm <;> rfl
      exact msrPolicy_fixed _ hdeadline hadjust
    rw [lastMode_initCalls hmsr, Option.getD_some] at hlast
    rwa [hpolicy]
  rw [initMsrEmulation_eq]
  generalize enableAll vcpu.msrBitmap (initCalls p) = bitmap at hcalls ⊢
  exact hcalls.setTscMsrInterception vcpu.vmcs.tscOffset

end

/-! ## Runs

A step departs from the policy only if it writes to the bitmap, and apart from the initialisation
it does that only by `set_tsc_msr_interception`, which moves the offset along. -/

/-- A vCPU, with the TSC offset that `set_tsc_msr_interception` was last called for. -/
structure BitmapState where
  vcpu : Vcpu
  offset : Word

/-- The steps of a vCPU, and the calls by themselves. -/
inductive BitmapStep where
  | initMsrEmulation
  | updateMsrBitmapX2apicPassthru
  | vcpu (a : VcpuStep)

/-- The offset that `set_tsc_msr_interception` was last called for, after a step. -/
def offsetAfter (p : Platform) (s : BitmapState) : VcpuStep → Word
  | .init _ => s.vcpu.vmcs.tscOffset
  | .wrmsr rdtsc msr val =>
    if msr = msrIa32TimeStampCounter ∨ msr = msrIa32TscAdjust then
      (vcpuStep p s.vcpu (.wrmsr rdtsc msr val)).vmcs.tscOffset
    else s.offset
  | _ => s.offset

/-- One step. -/
def bitmapStep (p : Platform) (s : BitmapState) : BitmapStep → BitmapState
  | .initMsrEmulation => ⟨initMsrEmulation p s.vcpu, s.vcpu.vmcs.tscOffset⟩
  | .updateMsrBitmapX2apicPassthru =>
    ⟨updateMsrBitmapX2apicPassthru s.vcpu, s.vcpu.vmcs.tscOffset⟩
  | .vcpu a => ⟨vcpuStep p s.vcpu a, offsetAfter p s a⟩

/-- The runs after `init_msr_emulation` on any vCPU. -/
def bitmapSystem (p : Platform) : System BitmapState BitmapStep where
  init s := ∃ vcpu, s = ⟨initMsrEmulation p vcpu, vcpu.vmcs.tscOffset⟩
  step s a s' := s' = bitmapStep p s a

section
variable {p : Platform} {v w : VcpuView}

/-- A switch of the paging mode leaves the bitmap alone, and so do the writes below. -/
theorem switchPaging_msrBitmap {mem : GuestMem} {val : Word}
    (h : v.switchPaging p mem val = some w) : w.msrBitmap = v.msrBitmap := by
  obtain ⟨_, rfl, -⟩ | ⟨-, -, rfl⟩ | ⟨-, rfl⟩ := switchPaging_cases h
  · rfl
  · rfl
  · rfl

theorem writeCr0_msrBitmap {mem : GuestMem} {val : Word} (h : v.writeCr0 p mem val = some w) :
    w.msrBitmap = v.msrBitmap := by
  obtain ⟨-, u, hu, rfl⟩ := writeCr0_eq_some h
  rw [← switchPaging_msrBitmap hu, VcpuView.applyCr0Changes, VcpuView.commitCr0]

theorem writeCr4_msrBitmap {mem : GuestMem} {val : Word} (h : v.writeCr4 p mem val = some w) :
    w.msrBitmap = v.msrBitmap := by
  obtain ⟨-, _, _, rfl⟩ := writeCr4_eq_some h
  rfl

theorem getD_msrBitmap {o : Option VcpuView} (h : ∀ w, o = some w → w.msrBitmap = v.msrBitmap) :
    (o.getD v.injectGp).msrBitmap = v.msrBitmap := by
  cases o with
  | none => rfl
  | some w => exact h w rfl

/-- A control-register access leaves the bitmap alone, whether it succeeds or injects. -/
theorem crAccess_msrBitmap (vcpu : Vcpu) (mem : GuestMem) (access : CrAccess) :
    (crAccessVmexitHandler p mem vcpu access).view.msrBitmap = vcpu.view.msrBitmap := by
  obtain ⟨cr0, h⟩ | ⟨cr4, h⟩ := crAccessVmexitHandler_view p vcpu mem access
  · rw [h]
    exact getD_msrBitmap fun w hw => writeCr0_msrBitmap hw
  · rw [h]
    exact getD_msrBitmap fun w hw => writeCr4_msrBitmap hw

theorem writePat_msrBitmap {val : Word} (h : v.writePat val = some w) :
    w.msrBitmap = v.msrBitmap := by
  rw [VcpuView.writePat] at h
  split at h
  · exact absurd h (by simp)
  · obtain rfl := Option.some.inj h
    rfl

theorem writeEfer_msrBitmap {val : Word} (h : v.writeEfer p val = some w) :
    w.msrBitmap = v.msrBitmap := by
  rw [VcpuView.writeEfer] at h
  split at h
  · obtain rfl := Option.some.inj h
    rfl
  · exact absurd h (by simp)

theorem writeMiscEnable_msrBitmap {val : Word} (h : v.writeMiscEnable val = some w) :
    w.msrBitmap = v.msrBitmap := by
  rw [VcpuView.writeMiscEnable] at h
  split at h
  · exact absurd h (by simp)
  · dsimp only at h
    split at h
    · obtain rfl := Option.some.inj h
      rfl
    · obtain rfl := Option.some.inj h
      rfl

/-- A handler leaves the bitmap. -/
def KeepsBitmap (vcpu : Vcpu) (r : ℤ × Vcpu) : Prop := r.2.msrBitmap = vcpu.msrBitmap

theorem KeepsBitmap.ite {vcpu : Vcpu} {r r' : ℤ × Vcpu} {c : Prop} [Decidable c]
    (h : KeepsBitmap vcpu r) (h' : KeepsBitmap vcpu r') :
    KeepsBitmap vcpu (if c then r else r') := by
  split
  · exact h
  · exact h'

/-- The exception for an error leaves the bitmap, too. -/
theorem KeepsBitmap.exit {vcpu : Vcpu} {r : ℤ × Vcpu} (h : KeepsBitmap vcpu r) :
    (if r.1 < 0 then injectGp r.2 else r.2).msrBitmap = vcpu.msrBitmap := by
  split
  · exact h
  · exact h

/-- A write to another MSR than those of the counter leaves the bitmap. -/
theorem wrmsrExit_msrBitmap (vcpu : Vcpu) (rdtsc : Word) {msr : U32} (val : Word)
    (hmsr : ¬ (msr = msrIa32TimeStampCounter ∨ msr = msrIa32TscAdjust)) :
    (wrmsrExit p rdtsc vcpu msr val).msrBitmap = vcpu.msrBitmap := by
  obtain ⟨hcounter, hadjust⟩ := not_or.mp hmsr
  by_cases hpat : msr = msrIa32Pat
  · rw [hpat]
    exact (congrArg VcpuView.msrBitmap (wrmsrExit_pat p vcpu rdtsc val)).trans
      (getD_msrBitmap fun w hw => writePat_msrBitmap hw)
  by_cases hefer : msr = msrIa32Efer
  · rw [hefer]
    exact (congrArg VcpuView.msrBitmap (wrmsrExit_efer p vcpu rdtsc val)).trans
      (getD_msrBitmap fun w hw => writeEfer_msrBitmap hw)
  by_cases hmisc : msr = msrIa32MiscEnable
  · rw [hmisc]
    exact (congrArg VcpuView.msrBitmap (wrmsrExit_miscEnable p vcpu rdtsc val)).trans
      (getD_msrBitmap fun w hw => writeMiscEnable_msrBitmap hw)
  apply KeepsBitmap.exit (r := wrmsrVmexitHandler p rdtsc vcpu msr val)
  rw [wrmsrVmexitHandler, if_neg hpat, if_neg hefer, if_neg hmisc, if_neg hcounter, if_neg hadjust]
  refine .ite ?_ (.ite rfl (.ite rfl (.ite rfl (.ite rfl (.ite ?_ rfl)))))
  · rw [KeepsBitmap, vlapicSetTscDeadlineMsr]
    dsimp only
    split <;> rfl
  · rw [vlapicX2apicWrite]
    split <;> rfl

/-- A read of an MSR never changes the bitmap. -/
theorem rdmsr_msrBitmap (vcpu : Vcpu) (msr : U32) :
    (vcpuStep p vcpu (.rdmsr msr)).msrBitmap = vcpu.msrBitmap := by
  apply KeepsBitmap.exit (r := ((rdmsrVmexitHandler p vcpu msr).1,
    (rdmsrVmexitHandler p vcpu msr).2.2))
  have hdeadline : (vlapicGetTscDeadlineMsr vcpu).2.msrBitmap = vcpu.msrBitmap := by
    rw [vlapicGetTscDeadlineMsr]
    split <;> rfl
  rw [KeepsBitmap, rdmsrVmexitHandler]
  simp only [apply_ite Prod.snd, apply_ite Vcpu.msrBitmap, hdeadline, ite_self]

/-- **Every step keeps to the policy.** -/
theorem FollowsPolicy.step {s : BitmapState} (h : FollowsPolicy p s.vcpu.msrBitmap s.offset)
    (a : BitmapStep) :
    FollowsPolicy p (bitmapStep p s a).vcpu.msrBitmap (bitmapStep p s a).offset := by
  cases a with
  | initMsrEmulation => exact initMsrEmulation_followsPolicy p s.vcpu
  | updateMsrBitmapX2apicPassthru => exact h.updateMsrBitmapX2apicPassthru
  | vcpu a =>
    cases a with
    | init vcpuId =>
      have hinit := initMsrEmulation_followsPolicy p (resetVcpu s.vcpu vcpuId)
      rwa [← initVmcs_msrBitmap] at hinit
    | run guest =>
      have hrun : (runVcpu s.vcpu guest).msrBitmap = s.vcpu.msrBitmap :=
        congrArg TscState.bitmap (runVcpu_tscState s.vcpu guest)
      rw [bitmapStep, vcpuStep, hrun]
      exact h
    | crAccess mem access =>
      have hcr : (crAccessVmexitHandler p mem s.vcpu access).msrBitmap = s.vcpu.msrBitmap :=
        crAccess_msrBitmap s.vcpu mem access
      rw [bitmapStep, vcpuStep, hcr]
      exact h
    | wrmsr rdtsc msr val =>
      by_cases hmsr : msr = msrIa32TimeStampCounter ∨ msr = msrIa32TscAdjust
      · -- the offset is written before `set_tsc_msr_interception` is called for it
        rw [bitmapStep, offsetAfter, if_pos hmsr]
        obtain rfl | rfl := hmsr
        · have hoffset : (setGuestTsc rdtsc s.vcpu val).vmcs.tscOffset = val - rdtsc :=
            congrArg TscState.offset (setGuestTsc_tscState rdtsc s.vcpu val)
          rw [vcpuStep, wrmsrExit_counter, hoffset]
          apply FollowsPolicy.setTscMsrInterception
          exact h
        · have hoffset : (setGuestTscAdjust s.vcpu val).vmcs.tscOffset =
              s.vcpu.vmcs.tscOffset + (val - s.vcpu.guestMsrs .tscAdjust) :=
            congrArg TscState.offset (setGuestTscAdjust_tscState s.vcpu val)
          rw [vcpuStep, wrmsrExit_adjust, hoffset]
          apply FollowsPolicy.setTscMsrInterception
          exact h
      · rw [bitmapStep, offsetAfter, if_neg hmsr, vcpuStep, wrmsrExit_msrBitmap _ _ _ hmsr]
        exact h
    | rdmsr msr =>
      rw [bitmapStep, rdmsr_msrBitmap]
      exact h

end

/-- **The bitmap is as the policy says, in every run and whatever it was before**, and no
call for one MSR changes the bits of another. -/
theorem msr_bitmap_policy (p : Platform) :
    (∀ s, Reach (bitmapSystem p) any s → ∀ msr, BitmapMsr msr →
      InterceptedAs s.vcpu.msrBitmap msr (msrPolicy p s.offset msr)) ∧
    ∀ bitmap mode msr msr', BitmapMsr msr → BitmapMsr msr' → msr' ≠ msr →
      readIntercepted (enableMsrInterception bitmap msr mode) msr' = readIntercepted bitmap msr' ∧
        writeIntercepted (enableMsrInterception bitmap msr mode) msr' =
          writeIntercepted bitmap msr' := by
  constructor
  · intro s h
    apply Reach.invariant (P := fun s => FollowsPolicy p s.vcpu.msrBitmap s.offset) _ _ h
    · rintro s ⟨vcpu, rfl⟩
      exact initMsrEmulation_followsPolicy p vcpu
    · rintro s a _ - rfl hs
      exact hs.step a
  · intro bitmap mode msr msr' hmsr hmsr' hne
    exact enableMsrInterception_other bitmap msr msr' mode fun hslot =>
      hne ((sameSlot_iff hmsr hmsr').mp hslot).symm

/-- `RDMSR` of the counter does not exit, and the counter is in none of the lists. -/
theorem msr_bitmap_counter_read :
    let vcpu := initMsrEmulation typicalPlatform (Vcpu.cleared ⟨0#64, 0#64⟩)
    Reach (bitmapSystem typicalPlatform) any ⟨vcpu, 0#64⟩ ∧
      msrIa32TimeStampCounter ∉ uninterceptedMsrs ∧ msrIa32TimeStampCounter ∉ x2apicMsrs ∧
      msrIa32TimeStampCounter ≠ msrIa32TscDeadline ∧
      ¬ InterceptedAs vcpu.msrBitmap msrIa32TimeStampCounter interceptReadWrite := by
  intro vcpu
  refine ⟨.init ⟨_, rfl⟩, by decide, by decide, by decide, fun h => ?_⟩
  have hfollows := initMsrEmulation_followsPolicy typicalPlatform (Vcpu.cleared ⟨0#64, 0#64⟩)
    msrIa32TimeStampCounter (by decide)
  exact absurd (hfollows.1.symm.trans h.1) (by decide)

end Acrn
