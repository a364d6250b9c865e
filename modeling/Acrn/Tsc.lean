import Acrn.MsrBitmap
import Acrn.ControlRegs

/-!
# The time-stamp counter

A guest sees the physical counter plus the TSC offset of its VMCS, and the offset is what
its `IA32_TSC_ADJUST` has over the physical one. While the offset is zero its deadlines
are physical ones and `IA32_TSC_DEADLINE` is passed through; otherwise the accesses exit
and are translated.
-/

namespace Acrn

open Transition

/-! ## Interception of the MSRs of the counter

The bitmap has the bits of many MSRs. Of the calls of `init_msr_emulation`, the last ones for the
MSRs of the counter are singled out. -/

/-- What is intercepted while the offset is, or is not, zero. -/
structure TscIntercepted (bitmap : ℕ → BitVec 8) (on : Bool) : Prop where
  counter : writeIntercepted bitmap msrIa32TimeStampCounter = true
  adjust : InterceptedAs bitmap msrIa32TscAdjust ⟨on, true⟩
  deadline : InterceptedAs bitmap msrIa32TscDeadline ⟨on, on⟩

/-- The bitmap after `set_tsc_msr_interception`. -/
theorem setTscMsrInterception_intercepted {vcpu : Vcpu} {on : Bool} (interception : Bool)
    (h : TscIntercepted vcpu.msrBitmap on) :
    TscIntercepted (setTscMsrInterception vcpu interception).msrBitmap interception := by
  -- the two calls leave the counter, and the second leaves the deadline
  have hset : ∀ deadline adjust : InterceptMode, ∀ on' : Bool, deadline = ⟨on', on'⟩ →
      adjust = ⟨on', true⟩ → TscIntercepted (enableMsrInterception
        (enableMsrInterception vcpu.msrBitmap msrIa32TscDeadline deadline) msrIa32TscAdjust adjust)
        on' := by
    rintro deadline adjust on' rfl rfl
    refine ⟨?_, ?_, ?_⟩
    · rw [(enableMsrInterception_other _ _ _ _ (by decide)).2,
        (enableMsrInterception_other _ _ _ _ (by decide)).2]
      exact h.counter
    · exact enableMsrInterception_same _ _ _ _ ⟨rfl, rfl⟩
    · have hother := enableMsrInterception_other
        (enableMsrInterception vcpu.msrBitmap msrIa32TscDeadline ⟨on', on'⟩) msrIa32TscAdjust
        msrIa32TscDeadline ⟨on', true⟩ (by decide)
      have hsame := enableMsrInterception_same vcpu.msrBitmap msrIa32TscDeadline
        msrIa32TscDeadline ⟨on', on'⟩ ⟨rfl, rfl⟩
      exact ⟨hother.1.trans hsame.1, hother.2.trans hsame.2⟩
  have hread : readIntercepted vcpu.msrBitmap msrIa32TscDeadline = on := h.deadline.1
  rw [setTscMsrInterception, hread]
  dsimp only
  cases interception <;> cases on
  · exact h
  · simp only [Bool.not_false, Bool.true_and, if_true]
    split
    · exact hset _ _ false rfl rfl
    · exact hset _ _ false rfl rfl
  · exact hset _ _ true rfl rfl
  · exact h

/-- The last of the calls of `init_msr_emulation`, but for those of
`set_tsc_msr_interception`. -/
def lastCalls (p : Platform) : List (U32 × InterceptMode) :=
  (if p.isSafetyVm then
    (msrRange msrIa32Mc0Ctl2 4 1).map (·, interceptDisable) ++
    (msrRange msrIa32Mc0Ctl 10 4).map (·, interceptDisable) ++
    (msrRange msrIa32Mc0Status 10 4).map (·, interceptRead)
  else []) ++
  x2apicMsrs.map (·, interceptDisable) ++
  [(msrIa32ExtXapicid, interceptRead), (msrIa32ExtApicLdr, interceptRead),
    (msrIa32ExtApicIcr, interceptReadWrite)]

/-- All of them. -/
def initCalls (p : Platform) : List (U32 × InterceptMode) :=
  (msrRange 0x0#32 0x2000 1).map (·, interceptReadWrite) ++
  ((msrRange 0xC0000000#32 0x2000 1).map (·, interceptReadWrite) ++
  uninterceptedMsrs.map (·, interceptDisable)) ++
  ([(msrIa32TimeStampCounter, interceptWrite), (msrIa32Efer, interceptWrite)] ++ lastCalls p)

theorem initCalls_eq (p : Platform) :
    initCalls p = initInterceptions p ++ x2apicMsrs.map (·, interceptDisable) ++
      [(msrIa32ExtXapicid, interceptRead), (msrIa32ExtApicLdr, interceptRead),
        (msrIa32ExtApicIcr, interceptReadWrite)] := by
  simp only [initCalls, initInterceptions, lastCalls, List.append_assoc]

theorem initMsrEmulation_eq (p : Platform) (vcpu : Vcpu) :
    initMsrEmulation p vcpu = setTscMsrInterception
      { vcpu with msrBitmap := enableAll vcpu.msrBitmap (initCalls p) }
      (decide (vcpu.vmcs.tscOffset ≠ 0#64)) := by
  have hx2apic : ∀ bitmap, interceptX2apicMsrs bitmap interceptDisable =
      enableAll bitmap (x2apicMsrs.map (·, interceptDisable)) := by
    intro bitmap
    rw [interceptX2apicMsrs, enableAll, List.foldl_map]
  have hinit : (initInterceptions p).foldl (fun bitmap m => enableMsrInterception bitmap m.1 m.2)
      vcpu.msrBitmap = enableAll vcpu.msrBitmap (initInterceptions p) := rfl
  rw [initMsrEmulation, updateMsrBitmapX2apicPassthru, hx2apic, hinit, initCalls_eq,
    enableAll_append, enableAll_append]
  generalize enableAll vcpu.msrBitmap (initInterceptions p) = bitmap
  rfl

/-- The upper range has the bytes above those of the lower range. -/
theorem msrByte_high {i : ℕ} (h : i < 0x2000) :
    1024 ≤ msrByte (0xC0000000#32 + BitVec.ofNat 32 (1 * i)) := by
  have hbit : (0xC0000000#32 + BitVec.ofNat 32 (1 * i)) &&& 0xC0000000#32 ≠ 0#32 := by
    intro hzero
    have hget := congrArg (BitVec.getLsbD · 31) hzero
    rw [BitVec.getLsbD_and, BitVec.getLsbD, Nat.testBit_eq_decide_div_mod_eq] at hget
    have hnat : (0xC0000000#32 + BitVec.ofNat 32 (1 * i)).toNat = 0xC0000000 + i := by
      rw [BitVec.toNat_add, BitVec.toNat_ofNat, BitVec.toNat_ofNat]
      omega
    rw [hnat, decide_eq_true (by omega)] at hget
    exact absurd hget (by decide)
  rw [msrByte, if_pos hbit]
  omega

theorem mem_msrRange {first msr : U32} {n step : ℕ} :
    msr ∈ msrRange first n step ↔ ∃ i < n, first + BitVec.ofNat 32 (step * i) = msr := by
  simp [msrRange]

/-- An MSR of the lower range that the lists leave alone is intercepted. -/
theorem interceptedAs_initCalls (p : Platform) (bitmap : ℕ → BitVec 8) {msr : U32}
    (hlow : msr.toNat < 0x2000) (hbyte : msrByte msr < 1024)
    (hunintercepted : ∀ m ∈ uninterceptedMsrs.map (·, interceptDisable), ¬ SameSlot m.1 msr)
    (hlater : ∀ m ∈ [(msrIa32TimeStampCounter, interceptWrite), (msrIa32Efer, interceptWrite)] ++
      lastCalls p, ¬ SameSlot m.1 msr) :
    InterceptedAs (enableAll bitmap (initCalls p)) msr interceptReadWrite := by
  rw [initCalls, ← List.nil_append (List.map _ (msrRange 0x0#32 _ _)), List.append_assoc]
  refine interceptedAs_of_last _ _ ?_ ⟨(msr, interceptReadWrite), ?_, rfl, rfl⟩ ?_
  · intro m hm
    obtain ⟨msr', -, rfl⟩ := List.mem_map.mp hm
    rfl
  · exact List.mem_map.mpr ⟨msr, mem_msrRange.mpr ⟨msr.toNat, hlow, by simp⟩, rfl⟩
  · intro m hm
    obtain hm | hm := List.mem_append.mp hm
    · obtain hm | hm := List.mem_append.mp hm
      · obtain ⟨msr', hmsr', rfl⟩ := List.mem_map.mp hm
        obtain ⟨i, hi, rfl⟩ := mem_msrRange.mp hmsr'
        have hhigh := msrByte_high hi
        rintro ⟨hsame, -⟩
        dsimp only at hsame
        omega
      · exact hunintercepted m hm
    · exact hlater m hm

/-- All the MSRs of the counter are intercepted before `set_tsc_msr_interception`. -/
theorem initCalls_intercepted (p : Platform) (bitmap : ℕ → BitVec 8) :
    TscIntercepted (enableAll bitmap (initCalls p)) true := by
  have hlists : ∀ msr, msr = msrIa32TscAdjust ∨ msr = msrIa32TscDeadline →
      InterceptedAs (enableAll bitmap (initCalls p)) msr interceptReadWrite := by
    rintro msr (rfl | rfl) <;> refine interceptedAs_initCalls p bitmap ?_ ?_ ?_ ?_
    · decide
    · decide
    · decide
    · rw [lastCalls]
      cases p.isSafetyVm <;> decide
    · decide
    · decide
    · decide
    · rw [lastCalls]
      cases p.isSafetyVm <;> decide
  refine ⟨?_, hlists _ (.inl rfl), hlists _ (.inr rfl)⟩
  · have hlast : InterceptedAs (enableAll bitmap (initCalls p)) msrIa32TimeStampCounter
        interceptWrite := by
      rw [initCalls, ← List.append_assoc]
      refine interceptedAs_of_last _ _ (by simp) ⟨_, List.mem_cons_self, rfl, rfl⟩ ?_
      rw [lastCalls]
      cases p.isSafetyVm <;> decide
    exact hlast.2

/-- What `init_msr_emulation` leaves: the interception that the old offset asks for. -/
theorem initMsrEmulation_intercepted (p : Platform) (vcpu : Vcpu) :
    TscIntercepted (initMsrEmulation p vcpu).msrBitmap (decide (vcpu.vmcs.tscOffset ≠ 0#64)) := by
  have hcalls := initCalls_intercepted p vcpu.msrBitmap
  rw [initMsrEmulation_eq]
  generalize enableAll vcpu.msrBitmap (initCalls p) = bitmap at hcalls ⊢
  exact setTscMsrInterception_intercepted _ hcalls

/-! ## The offset

Few steps change the offset, the adjustment or their interception. The view `TscState` has these,
and every other step leaves it alone. -/

/-- The part of a vCPU that the emulation of the counter is about. -/
structure TscState where
  offset : Word
  adjust : Word
  bitmap : ℕ → BitVec 8

def Vcpu.tscState (vcpu : Vcpu) : TscState where
  offset := vcpu.vmcs.tscOffset
  adjust := vcpu.guestMsrs .tscAdjust
  bitmap := vcpu.msrBitmap

theorem setTscMsrInterception_tscState (vcpu : Vcpu) (interception : Bool) :
    (setTscMsrInterception vcpu interception).tscState = { vcpu.tscState with
      bitmap := (setTscMsrInterception vcpu interception).msrBitmap } := by
  obtain ⟨bitmap, deadline, phys, h⟩ := setTscMsrInterception_frame vcpu interception
  rw [h]
  rfl

/-- The initialisation of the VMCS sets the offset after the interception. -/
theorem initVmcs_tscState (p : Platform) (vcpu : Vcpu) : (initVmcs p vcpu).tscState = {
    offset := vcpu.guestMsrs .tscAdjust - p.tscAdjust
    adjust := vcpu.guestMsrs .tscAdjust
    bitmap := (initMsrEmulation p vcpu).msrBitmap } := by
  obtain ⟨bitmap, deadline, phys, h⟩ := initMsrEmulation_frame p vcpu
  rw [initVmcs, initExecCtrl, h]
  cases vcpu.vcpuPowerup <;>
    simp [initEntryCtrl, initGuestState, initGuestVmx, initGuestMsrs, vmxWriteCr4, commitCr4,
      vmxWriteCr0, commitCr0, vcpuSetGuestMsr, initCr0Cr4HostMask, setEntryControls,
      Vcpu.tscState, Function.update]

theorem initVmcs_tscOffset (p : Platform) (vcpu : Vcpu) :
    (initVmcs p vcpu).vmcs.tscOffset = vcpu.guestMsrs .tscAdjust - p.tscAdjust :=
  congrArg TscState.offset (initVmcs_tscState p vcpu)

theorem initVmcs_msrBitmap (p : Platform) (vcpu : Vcpu) :
    (initVmcs p vcpu).msrBitmap = (initMsrEmulation p vcpu).msrBitmap :=
  congrArg TscState.bitmap (initVmcs_tscState p vcpu)

theorem runVcpu_tscState (vcpu : Vcpu) (guest : GuestActivity) :
    (runVcpu vcpu guest).tscState = vcpu.tscState := by
  obtain ⟨v₁, h₁, hv₁⟩ := vcpuGetEfer_spec (enterGuest (flushEfer vcpu) guest)
  obtain ⟨v₂, h₂, hv₂⟩ := vcpuGetCr0_spec v₁
  have hstate : ∀ v w : Vcpu, v.view = w.view → v.tscState = w.tscState := by
    intro v w h
    exact congrArg (fun u : VcpuView =>
      TscState.mk u.vmcs.tscOffset (u.guestMsrs .tscAdjust) u.msrBitmap) h
  have hentered : (runVcpu vcpu guest).tscState = v₂.tscState := by
    rw [runVcpu, h₁]
    dsimp only
    rw [h₂]
    rfl
  rw [hentered, hstate _ _ hv₂, hstate _ _ hv₁, flushEfer]
  cases vcpu.eferUpdated <;> rfl

/-- Two writes change the offset. -/
theorem wrmsrExit_counter (p : Platform) (rdtsc : Word) (vcpu : Vcpu) (v : Word) :
    wrmsrExit p rdtsc vcpu msrIa32TimeStampCounter v = setGuestTsc rdtsc vcpu v := rfl

theorem wrmsrExit_adjust (p : Platform) (rdtsc : Word) (vcpu : Vcpu) (v : Word) :
    wrmsrExit p rdtsc vcpu msrIa32TscAdjust v = setGuestTscAdjust vcpu v := rfl

theorem setGuestTsc_tscState (rdtsc : Word) (vcpu : Vcpu) (v : Word) :
    (setGuestTsc rdtsc vcpu v).tscState = {
      offset := v - rdtsc
      adjust := vcpu.guestMsrs .tscAdjust + (v - rdtsc - vcpu.vmcs.tscOffset)
      bitmap := (setGuestTsc rdtsc vcpu v).msrBitmap } := by
  rw [setGuestTsc, setTscMsrInterception_tscState]
  rfl

theorem setGuestTscAdjust_tscState (vcpu : Vcpu) (v : Word) :
    (setGuestTscAdjust vcpu v).tscState = {
      offset := vcpu.vmcs.tscOffset + (v - vcpu.guestMsrs .tscAdjust)
      adjust := v
      bitmap := (setGuestTscAdjust vcpu v).msrBitmap } := by
  rw [setGuestTscAdjust, setTscMsrInterception_tscState]
  rfl

/-! ## Consistency of the counter

The interception is chosen by the offset that was in the VMCS. A write of the guest brings the two
together again, so only the first initialisation can leave them apart. -/

/-- The steps that change what the guest sees of the counter, and the entries between
them. -/
inductive TscStep : VcpuStep → Prop where
  | init (vcpuId : U32) : TscStep (.init vcpuId)
  | run (guest : GuestActivity) : TscStep (.run guest)
  | writeCounter (rdtsc v : Word) : TscStep (.wrmsr rdtsc msrIa32TimeStampCounter v)
  | writeAdjust (rdtsc v : Word) : TscStep (.wrmsr rdtsc msrIa32TscAdjust v)

/-- What `RDTSC` returns to the guest while the physical counter is `tsc`. -/
def guestRdtsc (vcpu : Vcpu) (tsc : Word) : Word := tsc + vcpu.vmcs.tscOffset

/-- What a guest's `RDMSR` of `IA32_TSC_ADJUST` returns, from the handler or from the
pCPU. -/
def guestTscAdjust (p : Platform) (vcpu : Vcpu) : Word :=
  if readIntercepted vcpu.msrBitmap msrIa32TscAdjust then
    (rdmsrVmexitHandler p vcpu msrIa32TscAdjust).2.1
  else p.tscAdjust

/-- The offset, the adjustment and the interception fit together. -/
structure TscConsistent (p : Platform) (vcpu : Vcpu) : Prop where
  offset : vcpu.vmcs.tscOffset = vcpu.guestMsrs .tscAdjust - p.tscAdjust
  rdtsc : ∀ now elapsed v,
    guestRdtsc (vcpuStep p vcpu (.wrmsr now msrIa32TimeStampCounter v)) (now + elapsed) = v + elapsed
  adjust : guestTscAdjust p vcpu = vcpu.guestMsrs .tscAdjust
  deadline : InterceptedAs vcpu.msrBitmap msrIa32TscDeadline
    ⟨decide (vcpu.vmcs.tscOffset ≠ 0#64), decide (vcpu.vmcs.tscOffset ≠ 0#64)⟩

/-- The invariant of the runs. -/
structure TscState.Consistent (p : Platform) (s : TscState) : Prop where
  offset : s.offset = s.adjust - p.tscAdjust
  intercepted : TscIntercepted s.bitmap (decide (s.offset ≠ 0#64))

section
variable {p : Platform} {vcpu : Vcpu}

theorem TscState.Consistent.tscConsistent (h : vcpu.tscState.Consistent p) :
    TscConsistent p vcpu := by
  have hoffset : vcpu.vmcs.tscOffset = vcpu.guestMsrs .tscAdjust - p.tscAdjust := h.offset
  refine ⟨hoffset, ?_, ?_, h.intercepted.deadline⟩
  · intro now elapsed v
    have hwritten := congrArg TscState.offset (setGuestTsc_tscState now vcpu v)
    have hnew : (setGuestTsc now vcpu v).vmcs.tscOffset = v - now := hwritten
    rw [guestRdtsc, vcpuStep, wrmsrExit_counter, hnew]
    bv_omega
  · have hread : readIntercepted vcpu.msrBitmap msrIa32TscAdjust =
        decide (vcpu.vmcs.tscOffset ≠ 0#64) := h.intercepted.adjust.1
    rw [guestTscAdjust, hread]
    by_cases hzero : vcpu.vmcs.tscOffset = 0#64
    · -- passed through, and the two adjustments agree
      rw [hzero] at hoffset
      rw [hzero, if_neg (by decide)]
      bv_omega
    · rw [decide_eq_true hzero, if_pos rfl]
      rfl

/-- An initialisation is consistent if the old offset was zero exactly when the new one is. -/
theorem initVmcs_consistent
    (h : vcpu.vmcs.tscOffset = 0#64 ↔ vcpu.guestMsrs .tscAdjust = p.tscAdjust) :
    (initVmcs p vcpu).tscState.Consistent p := by
  rw [initVmcs_tscState]
  refine ⟨rfl, ?_⟩
  have hsame : decide (vcpu.guestMsrs .tscAdjust - p.tscAdjust ≠ 0#64) =
      decide (vcpu.vmcs.tscOffset ≠ 0#64) := by
    rw [decide_eq_decide, not_iff_not, h]
    exact sub_eq_zero
  dsimp only
  rw [hsame]
  exact initMsrEmulation_intercepted p vcpu

/-- Every step keeps the counter consistent. -/
theorem TscState.Consistent.step (h : vcpu.tscState.Consistent p) {a : VcpuStep}
    (ha : TscStep a) : (vcpuStep p vcpu a).tscState.Consistent p := by
  have hoffset : vcpu.vmcs.tscOffset = vcpu.guestMsrs .tscAdjust - p.tscAdjust := h.offset
  cases ha with
  | init vcpuId =>
    apply initVmcs_consistent
    show vcpu.vmcs.tscOffset = 0#64 ↔ vcpu.guestMsrs .tscAdjust = p.tscAdjust
    rw [hoffset]
    exact sub_eq_zero
  | run guest =>
    rw [vcpuStep, runVcpu_tscState]
    exact h
  | writeCounter rdtsc v =>
    rw [vcpuStep, wrmsrExit_counter, setGuestTsc_tscState]
    refine ⟨?_, setTscMsrInterception_intercepted _ h.intercepted⟩
    dsimp only
    rw [hoffset]
    bv_omega
  | writeAdjust rdtsc v =>
    rw [vcpuStep, wrmsrExit_adjust, setGuestTscAdjust_tscState]
    refine ⟨?_, setTscMsrInterception_intercepted _ h.intercepted⟩
    dsimp only
    rw [hoffset]
    bv_omega

/-- A vCPU starts with offset and adjustment zero in its memory. -/
theorem Booted.consistent (h : Booted p vcpu) (hphys : p.tscAdjust = 0#64) :
    vcpu.tscState.Consistent p := by
  cases h with
  | real vcpuId pcpu => exact initVmcs_consistent ⟨fun _ => hphys.symm, fun _ => rfl⟩
  | protectedMode vcpuId pcpu => exact initVmcs_consistent ⟨fun _ => hphys.symm, fun _ => rfl⟩

/-- The first initialisation passes the deadline through, whatever offset it sets. -/
theorem initVmcs_createVcpu (p : Platform) (vcpuId : U32) (pcpu : PcpuMsrs) :
    (initVmcs p (createVcpu vcpuId pcpu)).vmcs.tscOffset = 0#64 - p.tscAdjust ∧
      readIntercepted (initVmcs p (createVcpu vcpuId pcpu)).msrBitmap msrIa32TscDeadline = false := by
  have hadjust : (createVcpu vcpuId pcpu).guestMsrs .tscAdjust = 0#64 := rfl
  rw [initVmcs_tscOffset, initVmcs_msrBitmap, hadjust]
  exact ⟨rfl, (initMsrEmulation_intercepted p (createVcpu vcpuId pcpu)).deadline.1⟩

end

/-- **The TSC offset, the adjustment and the interception are consistent in every run**,
exactly when the physical `IA32_TSC_ADJUST` is zero. -/
theorem tsc_offset_consistent (p : Platform) :
    (∀ vcpu, Reach (vcpuSystem p) (fun _ a => TscStep a) vcpu → TscConsistent p vcpu) ↔
      p.tscAdjust = 0#64 := by
  constructor
  · intro h
    have hboot := (h _ (.init (.real 0#32 ⟨0#64, 0#64⟩))).deadline
    obtain ⟨hoffset, hread⟩ := initVmcs_createVcpu p 0#32 ⟨0#64, 0#64⟩
    have hzero := hboot.1.symm.trans hread
    rw [hoffset] at hzero
    have := of_decide_eq_false hzero
    bv_omega
  · intro hphys vcpu h
    have hinv : vcpu.tscState.Consistent p := by
      induction h with
      | init hboot => exact Booted.consistent hboot hphys
      | step _ ha hstep ih =>
        rw [show _ = _ from hstep]
        exact ih.step ha
    exact hinv.tscConsistent

/-- With a physical adjustment of 5 the offset of a new vCPU is not zero, and its deadline
is passed through. -/
theorem tsc_offset_passthrough :
    let p := { typicalPlatform with tscAdjust := 5#64 }
    ∃ vcpu, Reach (vcpuSystem p) (fun _ a => TscStep a) vcpu ∧ vcpu.vmcs.tscOffset ≠ 0#64 ∧
      readIntercepted vcpu.msrBitmap msrIa32TscDeadline = false ∧ ¬ TscConsistent p vcpu := by
  intro p
  obtain ⟨hoffset, hread⟩ := initVmcs_createVcpu p 0#32 ⟨0#64, 0#64⟩
  have hne : (initVmcs p (createVcpu 0#32 ⟨0#64, 0#64⟩)).vmcs.tscOffset ≠ 0#64 := by
    rw [hoffset]
    decide
  refine ⟨_, .init (.real 0#32 ⟨0#64, 0#64⟩), hne, hread, fun h => ?_⟩
  have hintercepted := h.deadline.1.symm.trans hread
  rw [decide_eq_true hne] at hintercepted
  exact absurd hintercepted (by decide)

end Acrn
