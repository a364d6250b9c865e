import Acrn.Tsc

/-!
# The deadline of the time-stamp counter

The guest arms its timer with a value of its own counter. While the offset is zero it
writes the deadline of the pCPU itself; otherwise the write exits, and the deadline of the
pCPU is what the offset makes of the value. A write to the counter that changes the offset
under an armed timer is where the two can part.
-/

namespace Acrn

open Transition

/-! ## The timer of a guest -/

/-- A vCPU and the deadline that its guest has armed and that has not passed. -/
structure TimerState where
  vcpu : Vcpu
  armed : Option Word

/-- What the guest and the timer do. -/
inductive TimerStep where
  | writeCounter (rdtsc v : Word)
  | writeAdjust (rdtsc v : Word)
  | writeDeadline (rdtsc v : Word)
  | readDeadline
  | fire

/-- A write to the deadline exits or reaches the pCPU. -/
def writeDeadline (p : Platform) (vcpu : Vcpu) (rdtsc v : Word) : Vcpu :=
  if writeIntercepted vcpu.msrBitmap msrIa32TscDeadline then
    wrmsrExit p rdtsc vcpu msrIa32TscDeadline v
  else { vcpu with pcpu.tscDeadline := v }

/-- A read of the deadline exits or reaches the pCPU. -/
def readDeadline (p : Platform) (vcpu : Vcpu) : Word × Vcpu :=
  if readIntercepted vcpu.msrBitmap msrIa32TscDeadline then
    (rdmsrVmexitHandler p vcpu msrIa32TscDeadline).2
  else (vcpu.pcpu.tscDeadline, vcpu)

/-- One step. The writes to the counter and its adjustment always exit; the timer fires
when it is armed, and that disarms it. -/
inductive TimerState.Step (p : Platform) (s : TimerState) : TimerStep → TimerState → Prop where
  | writeCounter (rdtsc v : Word) : Step p s (.writeCounter rdtsc v)
      ⟨wrmsrExit p rdtsc s.vcpu msrIa32TimeStampCounter v, s.armed⟩
  | writeAdjust (rdtsc v : Word) : Step p s (.writeAdjust rdtsc v)
      ⟨wrmsrExit p rdtsc s.vcpu msrIa32TscAdjust v, s.armed⟩
  | writeDeadline (rdtsc v : Word) : Step p s (.writeDeadline rdtsc v)
      ⟨Acrn.writeDeadline p s.vcpu rdtsc v, if v = 0#64 then none else some v⟩
  | readDeadline : Step p s .readDeadline ⟨(Acrn.readDeadline p s.vcpu).2, s.armed⟩
  | fire : s.vcpu.pcpu.tscDeadline ≠ 0#64 →
      Step p s .fire ⟨{ s.vcpu with pcpu.tscDeadline := 0#64 }, none⟩

/-- A guest starts with its timer disarmed. -/
def timerSystem (p : Platform) : System TimerState TimerStep where
  init s := Booted p s.vcpu ∧ s.armed = none
  step := TimerState.Step p

/-- The physical deadline of a guest's deadline. -/
def physDeadline (offset deadline : Word) : Word :=
  if deadline - offset = 0#64 then 1#64 else deadline - offset

/-- The timer is armed as the guest wrote it. -/
structure TimerState.Follows (p : Platform) (s : TimerState) : Prop where
  armed : ∀ deadline, s.armed = some deadline →
    s.vcpu.pcpu.tscDeadline = physDeadline s.vcpu.vmcs.tscOffset deadline
  fires : ∀ deadline, s.armed = some deadline → deadline ≠ s.vcpu.vmcs.tscOffset →
    guestRdtsc s.vcpu s.vcpu.pcpu.tscDeadline = deadline
  read : (Acrn.readDeadline p s.vcpu).1 = s.armed.getD 0#64

/-- A new offset is zero, or it asks for no other physical deadline. -/
def TimerState.OffsetAllowed (s : TimerState) (offset : Word) : Prop :=
  offset = 0#64 ∨ ∀ deadline, s.armed = some deadline →
    physDeadline offset deadline = physDeadline s.vcpu.vmcs.tscOffset deadline

/-- Steps that do not move the counter under an armed timer. -/
def TimerState.Allowed (s : TimerState) : TimerStep → Prop
  | .writeCounter rdtsc v => s.OffsetAllowed (v - rdtsc)
  | .writeAdjust _ v => s.OffsetAllowed (s.vcpu.vmcs.tscOffset + (v - s.vcpu.guestMsrs .tscAdjust))
  | .writeDeadline _ _ | .readDeadline | .fire => True

theorem physDeadline_zero {deadline : Word} (h : deadline ≠ 0#64) :
    physDeadline 0#64 deadline = deadline := by
  rw [physDeadline, BitVec.sub_zero, if_neg h]

theorem physDeadline_ne_zero (offset deadline : Word) : physDeadline offset deadline ≠ 0#64 := by
  rw [physDeadline]
  split
  · decide
  · assumption

/-! ## What the interception does to the deadlines

`set_tsc_msr_interception` moves the deadline between the pCPU and the cached copy. Turned on, it
leaves the pCPU's deadline as it is, which is then one of the old offset. -/

/-- The physical and the cached deadline when the interception changes. -/
def switchedDeadlines (on interception : Bool) (phys cached : Word) : Word × Word :=
  match on, interception with
  | true, false => if phys ≠ 0#64 then (cached, cached) else (phys, 0#64)
  | false, true => (phys, phys)
  | _, _ => (phys, cached)

/-- Only turning the interception off writes to the pCPU. -/
theorem switchedDeadlines_true_fst (on : Bool) (phys cached : Word) :
    (switchedDeadlines on true phys cached).1 = phys := by
  cases on <;> rfl

/-- The deadlines after `set_tsc_msr_interception`. -/
theorem setTscMsrInterception_deadline {vcpu : Vcpu} {on : Bool} (interception : Bool)
    (h : TscIntercepted vcpu.msrBitmap on) :
    ((setTscMsrInterception vcpu interception).pcpu.tscDeadline,
      (setTscMsrInterception vcpu interception).guestMsrs .tscDeadline) =
    switchedDeadlines on interception vcpu.pcpu.tscDeadline (vcpu.guestMsrs .tscDeadline) := by
  have hread : readIntercepted vcpu.msrBitmap msrIa32TscDeadline = on := h.deadline.1
  rw [setTscMsrInterception, hread]
  cases on <;> cases interception
  · rfl
  · rfl
  · dsimp only
    rw [if_pos (by decide), switchedDeadlines]
    by_cases hphys : vcpu.pcpu.tscDeadline = 0#64
    · rw [if_neg (not_not.mpr hphys), if_neg (not_not.mpr hphys)]
      rfl
    · rw [if_pos hphys, if_pos hphys]
  · rfl

/-- The invariant: the physical deadline is that of the armed one, and the cached copy has
it while the accesses exit. -/
structure TimerState.Invariant (s : TimerState) : Prop where
  intercepted : TscIntercepted s.vcpu.msrBitmap (decide (s.vcpu.vmcs.tscOffset ≠ 0#64))
  disarmed : s.armed = none → s.vcpu.pcpu.tscDeadline = 0#64
  armed : ∀ deadline, s.armed = some deadline → deadline ≠ 0#64 ∧
    s.vcpu.pcpu.tscDeadline = physDeadline s.vcpu.vmcs.tscOffset deadline
  cached : ∀ deadline, s.armed = some deadline → s.vcpu.vmcs.tscOffset ≠ 0#64 →
    s.vcpu.guestMsrs .tscDeadline = deadline

section
variable {p : Platform} {s : TimerState}

theorem TimerState.Invariant.follows (h : s.Invariant) : s.Follows p := by
  have hread : readIntercepted s.vcpu.msrBitmap msrIa32TscDeadline =
      decide (s.vcpu.vmcs.tscOffset ≠ 0#64) := h.intercepted.deadline.1
  refine ⟨fun deadline harmed => (h.armed deadline harmed).2, fun deadline harmed hne => ?_, ?_⟩
  · have hsub : deadline - s.vcpu.vmcs.tscOffset ≠ 0#64 := fun hzero => hne (sub_eq_zero.mp hzero)
    rw [guestRdtsc, (h.armed deadline harmed).2, physDeadline, if_neg hsub]
    exact sub_add_cancel _ _
  · rw [Acrn.readDeadline, hread]
    cases harmed : s.armed with
    | none =>
      have hphys := h.disarmed harmed
      split
      · show (vlapicGetTscDeadlineMsr s.vcpu).1 = 0#64
        rw [vlapicGetTscDeadlineMsr, if_pos hphys]
      · exact hphys
    | some deadline =>
      obtain ⟨hne, hphys⟩ := h.armed deadline harmed
      by_cases hoffset : s.vcpu.vmcs.tscOffset = 0#64
      · -- the guest reads the register of the pCPU
        rw [hoffset, if_neg (by decide)]
        dsimp only
        rw [hphys, hoffset, physDeadline_zero hne]
        rfl
      · rw [decide_eq_true hoffset, if_pos rfl]
        show (vlapicGetTscDeadlineMsr s.vcpu).1 = deadline
        rw [vlapicGetTscDeadlineMsr, hphys, if_neg (physDeadline_ne_zero _ _)]
        exact h.cached deadline harmed hoffset

/-! ## Steps

A step that is allowed keeps the invariant, and one that is not breaks it. The second is proved
too, so that the condition leaves no other run out. -/

theorem setTscMsrInterception_offset (vcpu : Vcpu) (interception : Bool) :
    (setTscMsrInterception vcpu interception).vmcs.tscOffset = vcpu.vmcs.tscOffset :=
  congrArg TscState.offset (setTscMsrInterception_tscState vcpu interception)

/-- A vCPU between the write of a new offset and the change of the interception. -/
structure OffsetWritten (vcpu : Vcpu) (offset : Word) (vcpu' : Vcpu) : Prop where
  offset : vcpu'.vmcs.tscOffset = offset
  bitmap : vcpu'.msrBitmap = vcpu.msrBitmap
  phys : vcpu'.pcpu.tscDeadline = vcpu.pcpu.tscDeadline
  cached : vcpu'.guestMsrs .tscDeadline = vcpu.guestMsrs .tscDeadline

variable {offset : Word} {vcpu' : Vcpu}

/-- The deadlines after a change of the offset. -/
theorem OffsetWritten.deadline (hw : OffsetWritten s.vcpu offset vcpu') (h : s.Invariant) :
    ((setTscMsrInterception vcpu' (decide (offset ≠ 0#64))).pcpu.tscDeadline,
      (setTscMsrInterception vcpu' (decide (offset ≠ 0#64))).guestMsrs .tscDeadline) =
    switchedDeadlines (decide (s.vcpu.vmcs.tscOffset ≠ 0#64)) (decide (offset ≠ 0#64))
      s.vcpu.pcpu.tscDeadline (s.vcpu.guestMsrs .tscDeadline) := by
  have hintercepted := h.intercepted
  rw [← hw.bitmap] at hintercepted
  rw [setTscMsrInterception_deadline _ hintercepted, hw.phys, hw.cached]

/-- A new offset that is allowed keeps the invariant. -/
theorem OffsetWritten.invariant (hw : OffsetWritten s.vcpu offset vcpu') (h : s.Invariant)
    (hallowed : s.OffsetAllowed offset) :
    TimerState.Invariant ⟨setTscMsrInterception vcpu' (decide (offset ≠ 0#64)), s.armed⟩ := by
  have hintercepted := h.intercepted
  rw [← hw.bitmap] at hintercepted
  have hoffset : (setTscMsrInterception vcpu' (decide (offset ≠ 0#64))).vmcs.tscOffset = offset := by
    rw [setTscMsrInterception_offset, hw.offset]
  obtain ⟨hphys, hcached⟩ := Prod.ext_iff.mp (hw.deadline h)
  dsimp only at hphys hcached
  -- an armed deadline in the four cases of old and new offset
  have harm : ∀ deadline, s.armed = some deadline →
      (setTscMsrInterception vcpu' (decide (offset ≠ 0#64))).pcpu.tscDeadline =
          physDeadline offset deadline ∧
        (offset ≠ 0#64 → (setTscMsrInterception vcpu' (decide (offset ≠ 0#64))).guestMsrs
          .tscDeadline = deadline) := by
    intro deadline harmed
    obtain ⟨hne, hold⟩ := h.armed deadline harmed
    have hkeep := fun hoff : offset ≠ 0#64 => hallowed.resolve_left hoff deadline harmed
    by_cases hzero : s.vcpu.vmcs.tscOffset = 0#64 <;> by_cases hzero' : offset = 0#64 <;>
      rw [hphys, hcached]
    · -- passed through before and after
      simp [switchedDeadlines, hzero, hzero', hold]
    · -- the copy is taken from the pCPU
      have hdeadline := hkeep hzero'
      rw [hzero] at hold hdeadline
      simp [switchedDeadlines, hzero, hzero', hold, hdeadline, physDeadline_zero hne]
    · -- the pCPU is given the copy
      simp [switchedDeadlines, hzero, hzero', hold, physDeadline_ne_zero,
        h.cached deadline harmed hzero, physDeadline_zero hne]
    · -- intercepted before and after
      simp [switchedDeadlines, hzero, hzero', hold, hkeep hzero', h.cached deadline harmed hzero]
  refine ⟨?_, fun hnone => ?_, fun deadline harmed => ⟨(h.armed deadline harmed).1, ?_⟩,
    fun deadline harmed hne => ?_⟩
  · show TscIntercepted _ (decide
      ((setTscMsrInterception vcpu' (decide (offset ≠ 0#64))).vmcs.tscOffset ≠ 0#64))
    rw [hoffset]
    exact setTscMsrInterception_intercepted _ hintercepted
  · show (setTscMsrInterception vcpu' (decide (offset ≠ 0#64))).pcpu.tscDeadline = 0#64
    have hold := h.disarmed hnone
    rw [hphys]
    by_cases hzero : s.vcpu.vmcs.tscOffset = 0#64 <;> by_cases hzero' : offset = 0#64 <;>
      simp [switchedDeadlines, hzero, hzero', hold]
  · rw [(harm deadline harmed).1]
    exact congrArg (physDeadline · deadline) hoffset.symm
  · exact (harm deadline harmed).2 (by rwa [← hoffset])

/-- A new offset that is not allowed leaves the physical deadline where it was. -/
theorem OffsetWritten.allowed (hw : OffsetWritten s.vcpu offset vcpu') (h : s.Invariant)
    (hfollows : TimerState.Follows p
      ⟨setTscMsrInterception vcpu' (decide (offset ≠ 0#64)), s.armed⟩) :
    s.OffsetAllowed offset := by
  rw [TimerState.OffsetAllowed, or_iff_not_imp_left]
  intro hne deadline harmed
  have hoffset : (setTscMsrInterception vcpu' (decide (offset ≠ 0#64))).vmcs.tscOffset = offset := by
    rw [setTscMsrInterception_offset, hw.offset]
  have hphys : (setTscMsrInterception vcpu' (decide (offset ≠ 0#64))).pcpu.tscDeadline =
      s.vcpu.pcpu.tscDeadline := by
    have hfst := congrArg Prod.fst (hw.deadline h)
    dsimp only at hfst
    rw [hfst, decide_eq_true hne, switchedDeadlines_true_fst]
  calc physDeadline offset deadline
      = (setTscMsrInterception vcpu' (decide (offset ≠ 0#64))).pcpu.tscDeadline := by
        rw [hfollows.armed deadline harmed]
        exact congrArg (physDeadline · deadline) hoffset.symm
    _ = s.vcpu.pcpu.tscDeadline := hphys
    _ = physDeadline s.vcpu.vmcs.tscOffset deadline := (h.armed deadline harmed).2

/-- The writes to the counter and its adjustment. -/
theorem setGuestTsc_eq (rdtsc : Word) (vcpu : Vcpu) (v : Word) : ∃ vcpu',
    OffsetWritten vcpu (v - rdtsc) vcpu' ∧
      setGuestTsc rdtsc vcpu v = setTscMsrInterception vcpu' (decide (v - rdtsc ≠ 0#64)) := by
  refine ⟨_, ?_, rfl⟩
  exact ⟨rfl, rfl, rfl, rfl⟩

theorem setGuestTscAdjust_eq (vcpu : Vcpu) (v : Word) : ∃ vcpu',
    OffsetWritten vcpu (vcpu.vmcs.tscOffset + (v - vcpu.guestMsrs .tscAdjust)) vcpu' ∧
      setGuestTscAdjust vcpu v = setTscMsrInterception vcpu'
        (decide (vcpu.vmcs.tscOffset + (v - vcpu.guestMsrs .tscAdjust) ≠ 0#64)) := by
  refine ⟨_, ?_, rfl⟩
  exact ⟨rfl, rfl, rfl, rfl⟩

/-- A disarmed timer. -/
theorem TimerState.Invariant.of_disarmed {vcpu : Vcpu}
    (h : TscIntercepted vcpu.msrBitmap (decide (vcpu.vmcs.tscOffset ≠ 0#64)))
    (hphys : vcpu.pcpu.tscDeadline = 0#64) : TimerState.Invariant ⟨vcpu, none⟩ := by
  refine ⟨h, fun _ => hphys, fun deadline hd => ?_, fun deadline hd => ?_⟩
  · cases hd
  · cases hd

/-- A timer armed with the deadline `v`. -/
theorem TimerState.Invariant.of_armed {vcpu : Vcpu} {v : Word}
    (h : TscIntercepted vcpu.msrBitmap (decide (vcpu.vmcs.tscOffset ≠ 0#64))) (hv : v ≠ 0#64)
    (hphys : vcpu.pcpu.tscDeadline = physDeadline vcpu.vmcs.tscOffset v)
    (hcached : vcpu.vmcs.tscOffset ≠ 0#64 → vcpu.guestMsrs .tscDeadline = v) :
    TimerState.Invariant ⟨vcpu, some v⟩ := by
  refine ⟨h, fun hnone => ?_, fun deadline hd => ?_, fun deadline hd hne => ?_⟩
  · cases hnone
  · obtain rfl := Option.some.inj hd
    exact ⟨hv, hphys⟩
  · obtain rfl := Option.some.inj hd
    exact hcached hne

/-- A write to the deadline arms the timer. -/
theorem TimerState.Invariant.writeDeadline (h : s.Invariant) (rdtsc v : Word) :
    TimerState.Invariant
      ⟨Acrn.writeDeadline p s.vcpu rdtsc v, if v = 0#64 then none else some v⟩ := by
  have hwrite : writeIntercepted s.vcpu.msrBitmap msrIa32TscDeadline =
      decide (s.vcpu.vmcs.tscOffset ≠ 0#64) := h.intercepted.deadline.2
  have hset : wrmsrExit p rdtsc s.vcpu msrIa32TscDeadline v =
      { vcpuSetGuestMsr s.vcpu .tscDeadline v with
        pcpu.tscDeadline := if v = 0#64 then 0#64 else physDeadline s.vcpu.vmcs.tscOffset v } := by
    show vlapicSetTscDeadlineMsr s.vcpu v = _
    rw [vlapicSetTscDeadlineMsr, physDeadline]
    dsimp only
    by_cases hv : v = 0#64
    · rw [if_neg (not_not.mpr hv), if_pos hv]
    · rw [if_pos hv, if_neg hv]
      by_cases hsub : v - s.vcpu.vmcs.tscOffset = 0#64
      · rw [if_pos hsub]
        have hsub' : v - (vcpuSetGuestMsr s.vcpu .tscDeadline v).vmcs.tscOffset = 0#64 := hsub
        rw [if_pos hsub', hsub']
        rfl
      · rw [if_neg hsub]
        have hsub' : v - (vcpuSetGuestMsr s.vcpu .tscDeadline v).vmcs.tscOffset ≠ 0#64 := hsub
        rw [if_neg hsub']
        rfl
  rw [Acrn.writeDeadline, hwrite, hset]
  by_cases hv : v = 0#64 <;> by_cases hoffset : s.vcpu.vmcs.tscOffset = 0#64
  · rw [if_pos hv, if_pos hv, hoffset, if_neg (by decide)]
    exact .of_disarmed h.intercepted hv
  · rw [if_pos hv, if_pos hv, decide_eq_true hoffset, if_pos rfl]
    exact .of_disarmed h.intercepted rfl
  · rw [if_neg hv, if_neg hv, hoffset, if_neg (by decide)]
    refine .of_armed h.intercepted hv ?_ (fun hne => absurd hoffset hne)
    dsimp only
    rw [hoffset, physDeadline_zero hv]
  · rw [if_neg hv, if_neg hv, decide_eq_true hoffset, if_pos rfl]
    exact .of_armed h.intercepted hv rfl (fun _ => rfl)

/-- A read of the deadline. -/
theorem TimerState.Invariant.readDeadline (h : s.Invariant) :
    TimerState.Invariant ⟨(Acrn.readDeadline p s.vcpu).2, s.armed⟩ := by
  rw [Acrn.readDeadline]
  split
  swap
  · exact h
  show TimerState.Invariant ⟨(vlapicGetTscDeadlineMsr s.vcpu).2, s.armed⟩
  rw [vlapicGetTscDeadlineMsr]
  split
  swap
  · exact h
  next hphys =>
    -- a deadline that has passed is forgotten
    cases harmed : s.armed with
    | none => exact .of_disarmed h.intercepted hphys
    | some deadline =>
      rw [(h.armed deadline harmed).2] at hphys
      exact absurd hphys (physDeadline_ne_zero _ _)

/-- Every step that is allowed keeps the invariant. -/
theorem TimerState.Invariant.step (h : s.Invariant) {a : TimerStep} {s' : TimerState}
    (hstep : s.Step p a s') (hallowed : s.Allowed a) : s'.Invariant := by
  cases hstep with
  | writeCounter rdtsc v =>
    obtain ⟨vcpu', hw, heq⟩ := setGuestTsc_eq rdtsc s.vcpu v
    rw [wrmsrExit_counter, heq]
    exact hw.invariant h hallowed
  | writeAdjust rdtsc v =>
    obtain ⟨vcpu', hw, heq⟩ := setGuestTscAdjust_eq s.vcpu v
    rw [wrmsrExit_adjust, heq]
    exact hw.invariant h hallowed
  | writeDeadline rdtsc v => exact h.writeDeadline rdtsc v
  | readDeadline => exact h.readDeadline
  | fire hphys => exact .of_disarmed h.intercepted rfl

/-- A step that is not allowed breaks the timer. -/
theorem TimerState.Invariant.allowed (h : s.Invariant) {a : TimerStep} {s' : TimerState}
    (hstep : s.Step p a s') (hfollows : s'.Follows p) : s.Allowed a := by
  cases hstep with
  | writeCounter rdtsc v =>
    obtain ⟨vcpu', hw, heq⟩ := setGuestTsc_eq rdtsc s.vcpu v
    rw [wrmsrExit_counter, heq] at hfollows
    exact hw.allowed h hfollows
  | writeAdjust rdtsc v =>
    obtain ⟨vcpu', hw, heq⟩ := setGuestTscAdjust_eq s.vcpu v
    rw [wrmsrExit_adjust, heq] at hfollows
    exact hw.allowed h hfollows
  | writeDeadline rdtsc v => trivial
  | readDeadline => trivial
  | fire hphys => trivial

/-- The initialisation of the VMCS leaves the deadlines to `init_msr_emulation`. -/
theorem initVmcs_deadline (vcpu : Vcpu) :
    (initVmcs p vcpu).pcpu.tscDeadline = (initMsrEmulation p vcpu).pcpu.tscDeadline := by
  obtain ⟨bitmap, deadline, phys, h⟩ := initMsrEmulation_frame p vcpu
  rw [initVmcs, initExecCtrl, h]
  cases vcpu.vcpuPowerup <;>
    simp [initEntryCtrl, initGuestState, initGuestVmx, initGuestMsrs, vmxWriteCr4, commitCr4,
      vmxWriteCr0, commitCr0, vcpuSetGuestMsr, initCr0Cr4HostMask, setEntryControls]

/-- Turning the interception off with a cleared copy disarms the timer of the pCPU. -/
theorem setTscMsrInterception_disarms {vcpu : Vcpu} (h : TscIntercepted vcpu.msrBitmap true)
    (hcached : vcpu.guestMsrs .tscDeadline = 0#64) :
    (setTscMsrInterception vcpu false).pcpu.tscDeadline = 0#64 := by
  have hswitch := congrArg Prod.fst (setTscMsrInterception_deadline false h)
  rw [hcached, switchedDeadlines] at hswitch
  refine hswitch.trans ?_
  split
  · rfl
  · next hphys => exact not_not.mp hphys

/-- The first initialisation disarms the timer of the pCPU. -/
theorem initVmcs_disarms {vcpu : Vcpu} (hoffset : vcpu.vmcs.tscOffset = 0#64)
    (hcached : vcpu.guestMsrs .tscDeadline = 0#64) :
    (initVmcs p vcpu).pcpu.tscDeadline = 0#64 := by
  have hcalls := initCalls_intercepted p vcpu.msrBitmap
  have hoff : decide ((0#64 : Word) ≠ 0#64) = false := by decide
  rw [initVmcs_deadline, initMsrEmulation_eq, hoffset, hoff]
  -- the bitmap is made of thousands of calls
  generalize enableAll vcpu.msrBitmap (initCalls p) = bitmap at hcalls ⊢
  exact setTscMsrInterception_disarms hcalls hcached

theorem Booted.timer {vcpu : Vcpu} (h : Booted p vcpu) (hphys : p.tscAdjust = 0#64) :
    TimerState.Invariant ⟨vcpu, none⟩ := by
  refine .of_disarmed (h.consistent hphys).intercepted ?_
  cases h with
  | real vcpuId pcpu => exact initVmcs_disarms rfl rfl
  | protectedMode vcpuId pcpu => exact initVmcs_disarms rfl rfl

end

theorem TimerState.Invariant.of_reach {p : Platform} {s : TimerState} (hphys : p.tscAdjust = 0#64)
    (h : Reach (timerSystem p) TimerState.Allowed s) : s.Invariant := by
  refine h.invariant ?_ fun s a s' hallowed hstep hs => hs.step hstep hallowed
  rintro ⟨vcpu, armed⟩ ⟨hboot, rfl⟩
  exact hboot.timer hphys

/-- **The timer follows the guest's counter** as long as no write to the counter moves it
under an armed timer, and the first write that does breaks the timer. -/
theorem timer_follows_counter {p : Platform} {s : TimerState} (hphys : p.tscAdjust = 0#64)
    (h : Reach (timerSystem p) TimerState.Allowed s) :
    s.Follows p ∧ ∀ a s', s.Step p a s' → (s'.Follows p ↔ s.Allowed a) := by
  have hinv := TimerState.Invariant.of_reach hphys h
  refine ⟨hinv.follows, fun a s' hstep => ⟨fun hfollows => hinv.allowed hstep hfollows, ?_⟩⟩
  intro hallowed
  exact (hinv.step hstep hallowed).follows

/-- A guest that arms its timer goes on a run. -/
theorem reach_writeDeadline {p : Platform} {s : TimerState}
    (h : Reach (timerSystem p) TimerState.Allowed s) (rdtsc v : Word) (hv : v ≠ 0#64) :
    Reach (timerSystem p) TimerState.Allowed ⟨writeDeadline p s.vcpu rdtsc v, some v⟩ := by
  have hstep := TimerState.Step.writeDeadline (p := p) (s := s) rdtsc v
  rw [if_neg hv] at hstep
  exact h.step (a := .writeDeadline rdtsc v) trivial hstep

/-- A guest that arms its timer and then writes to its counter what it reads from it. -/
theorem timer_follows_counter_rewrite :
    ∃ s, Reach (timerSystem typicalPlatform) TimerState.Allowed s ∧ s.armed = some 1000#64 ∧
      s.Follows typicalPlatform := by
  obtain ⟨vcpu, hboot⟩ : ∃ vcpu, Booted typicalPlatform vcpu := ⟨_, .real 0#32 ⟨0#64, 0#64⟩⟩
  have hstart : Reach (timerSystem typicalPlatform) TimerState.Allowed ⟨vcpu, none⟩ :=
    .init ⟨hboot, rfl⟩
  have harmed := reach_writeDeadline hstart 0#64 1000#64 (by decide)
  have hallowed : TimerState.Allowed ⟨writeDeadline typicalPlatform vcpu 0#64 1000#64,
      some 1000#64⟩ (.writeCounter 7#64 7#64) := .inl (by decide)
  have hwritten := harmed.step hallowed (.writeCounter 7#64 7#64)
  exact ⟨_, hwritten, rfl, (timer_follows_counter rfl hwritten).1⟩

theorem writeDeadline_offset (p : Platform) (vcpu : Vcpu) (rdtsc v : Word) :
    (writeDeadline p vcpu rdtsc v).vmcs.tscOffset = vcpu.vmcs.tscOffset := by
  rw [writeDeadline]
  split
  · show (vlapicSetTscDeadlineMsr vcpu v).vmcs.tscOffset = _
    rw [vlapicSetTscDeadlineMsr]
    dsimp only
    split <;> rfl
  · rfl

/-- A guest that arms its timer for 1000 and then sets its counter forward by one: the
timer of the pCPU stays where it was. -/
theorem counter_write_misses_timer :
    ∃ s, Reach (timerSystem typicalPlatform) any s ∧ s.armed = some 1000#64 ∧
      s.vcpu.vmcs.tscOffset = 1#64 ∧ ¬ s.Follows typicalPlatform := by
  obtain ⟨vcpu, hboot, hoffset⟩ : ∃ vcpu, Booted typicalPlatform vcpu ∧
      vcpu.vmcs.tscOffset = 0#64 :=
    ⟨_, .real 0#32 ⟨0#64, 0#64⟩, (initVmcs_createVcpu typicalPlatform 0#32 ⟨0#64, 0#64⟩).1⟩
  have hstart : Reach (timerSystem typicalPlatform) TimerState.Allowed ⟨vcpu, none⟩ :=
    .init ⟨hboot, rfl⟩
  have harmed := reach_writeDeadline hstart 0#64 1000#64 (by decide)
  have hinv := TimerState.Invariant.of_reach rfl harmed
  refine ⟨_, (harmed.mono fun _ _ _ => trivial).step (a := .writeCounter 0#64 1#64) trivial
    (.writeCounter _ _), rfl, ?_, fun hfollows => ?_⟩
  · rw [wrmsrExit_counter]
    exact congrArg TscState.offset (setGuestTsc_tscState _ _ _)
  · obtain hzero | hkeep := hinv.allowed (.writeCounter 0#64 1#64) hfollows
    · exact absurd hzero (by decide)
    · have hdeadline := hkeep 1000#64 rfl
      dsimp only at hdeadline
      rw [writeDeadline_offset, hoffset] at hdeadline
      exact absurd hdeadline (by decide)

end Acrn
