import Acrn.Vmsr

/-!
# The runs of a vCPU

`vcpu.c` and `vmcs.c`: the registers a vCPU is given when it is created or reset, what
the initialisation of its VMCS makes of them, and what is kept of them from one VM
exit to the next. A run is a sequence of such steps, with the exits between them that
the guest causes.
-/

namespace Acrn

open Transition

/-! ## Registers at reset -/

/-- The part of `struct acrn_vcpu_regs` that reaches the control registers. -/
structure VcpuRegs where
  cr0 : Word
  cr3 : Word
  cr4 : Word
  ia32Efer : Word
  csAr : U32

/-- `realmode_init_vregs`. -/
def realmodeInitVregs : VcpuRegs where
  cr0 := cr0Et ||| cr0Ne ||| cr0Cd ||| cr0Nw
  cr3 := 0#64
  cr4 := 0#64
  ia32Efer := 0#64
  csAr := 0x9b#32

/-- `protect_mode_init_vregs`. -/
def protectModeInitVregs : VcpuRegs where
  cr0 := cr0Et ||| cr0Ne ||| cr0Pe ||| cr0Nw ||| cr0Cd
  cr3 := 0#64
  cr4 := 0#64
  ia32Efer := 0#64
  csAr := 0xc09b#32

/-- `set_vcpu_regs`. -/
def setVcpuRegs (vcpu : Vcpu) (vcpuRegs : VcpuRegs) : Vcpu :=
  let vcpu := vcpuSetEfer vcpu vcpuRegs.ia32Efer
  let vcpu := { vcpu with
    events.rflags := 0x2#64
    ctxCr0 := vcpuRegs.cr0
    extCr3 := vcpuRegs.cr3
    ctxCr4 := vcpuRegs.cr4
    extCsAttr := vcpuRegs.csAr }
  setVcpuMode vcpu vcpuRegs.csAr vcpuRegs.ia32Efer vcpuRegs.cr0

/-- `reset_vcpu_regs`. -/
def resetVcpuRegs (vcpu : Vcpu) : Vcpu := setVcpuRegs vcpu realmodeInitVregs

/-- `init_vcpu_protect_mode_regs`. -/
def initVcpuProtectModeRegs (vcpu : Vcpu) : Vcpu := setVcpuRegs vcpu protectModeInitVregs

/-- `vlapic_reset` on the vCPU with the given number. -/
def vlapicReset (vcpu : Vcpu) (vcpuId : U32) : Vcpu :=
  { vcpu with lapic := {
      id := vcpuId
      ldr := (((vcpuId &&& 0xFFFF0#32) >>> 4) <<< 16) ||| (1#32 <<< (vcpuId &&& 0xF#32).toNat)
      icrLo := 0#32
      icrHi := 0#32
      apicbase := 0xfee00000#64 ||| 0x800#64 ||| 0x400#64 |||
        (if vcpuId = 0#32 then 0x100#64 else 0#64) } }

/-- `create_vcpu`. -/
def createVcpu (vcpuId : U32) (pcpu : PcpuMsrs) : Vcpu :=
  resetVcpuRegs (vlapicReset (Vcpu.cleared pcpu) vcpuId)

/-- `reset_vcpu`. -/
def resetVcpu (vcpu : Vcpu) (vcpuId : U32) : Vcpu :=
  let vcpu := { vcpu with
    events := vcpu.events.reset
    ctxCr0 := 0#64
    ctxCr4 := 0#64
    ctxEfer := 0#64 }
  resetVcpuRegs (vlapicReset vcpu vcpuId)

/-! ## Initialisation of the VMCS -/

/-- `check_vmx_ctrl`. -/
def checkVmxCtrl (vmxMsr : Word) (ctrlReq : U32) : U32 :=
  (ctrlReq &&& (vmxMsr >>> 32).setWidth 32) ||| vmxMsr.setWidth 32

/-- `init_exec_ctrl`. -/
def initExecCtrl (p : Platform) (vcpu : Vcpu) : Vcpu :=
  let vcpu := initMsrEmulation p vcpu
  let vcpu := { vcpu with vmcs.tscOffset := vcpu.guestMsrs .tscAdjust - p.tscAdjust }
  initCr0Cr4HostMask p vcpu

/-- The value of `IA32_MISC_ENABLE` that a guest starts with. -/
def initialMiscEnable (p : Platform) : Word :=
  (p.miscEnable &&& ~~~(0x40000#64 ||| 0x80#64 ||| 0x10000#64 ||| 0x8#64)) |||
    (0x800#64 ||| 0x1000#64)

/-- The part of `init_guest_vmx` that concerns the MSRs. -/
def initGuestMsrs (p : Platform) (vcpu : Vcpu) : Vcpu :=
  let vcpu := vcpuSetGuestMsr vcpu .miscEnable (initialMiscEnable p)
  let vcpu := vcpuSetGuestMsr vcpu .mcgCap 0#64
  let vcpu := vcpuSetGuestMsr vcpu .mcgStatus 0#64
  let vcpu := vcpuSetGuestMsr vcpu .p5McAddr 0#64
  let vcpu := vcpuSetGuestMsr vcpu .p5McType 0#64
  if vcpu.vcpuPowerup = false then
    { vcpuSetGuestMsr vcpu .pat patPowerOnValue with vmcs.guestPat := patPowerOnValue }
  else vcpu

/-- `init_guest_vmx`. -/
def initGuestVmx (p : Platform) (vcpu : Vcpu) (cr0 cr3 cr4 : Word) : Vcpu :=
  let vcpu := vmxWriteCr4 p (fun _ => none) vcpu cr4 true
  let vcpu := vmxWriteCr0 p (fun _ => none) vcpu cr0 true
  let vcpu := { vcpu with
    vmcs.guestCr3 := cr3
    vmcs.csAttr := vcpu.extCsAttr
    vmcs.trAttr := 0x8b#32 }
  initGuestMsrs p vcpu

/-- `init_guest_state`. -/
def initGuestState (p : Platform) (vcpu : Vcpu) : Vcpu :=
  initGuestVmx p vcpu vcpu.ctxCr0 vcpu.extCr3 (vcpu.ctxCr4 &&& ~~~(cr4Vmxe ||| cr4Smxe ||| cr4Mce))

/-- The entry controls of `init_entry_ctrl`. -/
def initialEntryControls (p : Platform) : U32 :=
  checkVmxCtrl p.entryCtls (vmxEntryCtlsLoadEfer ||| vmxEntryCtlsLoadPat) &&&
    ~~~vmxEntryCtlsLoadDebugctl

/-- `init_entry_ctrl`. -/
def initEntryCtrl (p : Platform) (vcpu : Vcpu) : Vcpu :=
  { setEntryControls vcpu (initialEntryControls p) with events := initEntryEvents vcpu.events }

/-- `init_vmcs`. -/
def initVmcs (p : Platform) (vcpu : Vcpu) : Vcpu :=
  initEntryCtrl p (initGuestState p (initExecCtrl p vcpu))

/-! ## A VM entry and the exit after it

A guest can change the bits of CR0 and CR4 that it owns, and nothing else of what the hypervisor
keeps in the VMCS. What the host owns is as it was written. -/

/-- What a guest leaves in the registers that it may change without an exit, and what
the entry and the exit make of the pending events. -/
structure GuestActivity where
  cr0 : Word
  cr3 : Word
  cr4 : Word
  pdpte : Fin 4 → Word
  csAttr : U32
  trAttr : U32
  pcpu : PcpuMsrs
  events : VcpuEvents

/-- The guest runs: of CR0 and CR4 it can change the bits that the host does not own. -/
def vmxVmrun (vmcs : Vmcs) (guest : GuestActivity) : Vmcs :=
  { vmcs with
    guestCr0 := (vmcs.guestCr0 &&& vmcs.cr0GuestHostMask) ||| (guest.cr0 &&& ~~~vmcs.cr0GuestHostMask)
    guestCr3 := guest.cr3
    guestCr4 := (vmcs.guestCr4 &&& vmcs.cr4GuestHostMask) ||| (guest.cr4 &&& ~~~vmcs.cr4GuestHostMask)
    guestPdpte := guest.pdpte
    csAttr := guest.csAttr
    trAttr := guest.trAttr }

/-- The write of EFER into the VMCS before an entry. -/
def flushEfer (vcpu : Vcpu) : Vcpu :=
  if vcpu.eferUpdated then { vcpu with eferUpdated := false, vmcs.guestEfer := vcpu.ctxEfer }
  else vcpu

/-- The entry and the exit: the cached copies are gone. -/
def enterGuest (vcpu : Vcpu) (guest : GuestActivity) : Vcpu :=
  { vcpu with
    vcpuPowerup := true
    vmcs := vmxVmrun vcpu.vmcs guest
    pcpu := guest.pcpu
    events := guest.events
    cr0Cached := false
    cr4Cached := false
    eferCached := false }

/-- `run_vcpu`. -/
def runVcpu (vcpu : Vcpu) (guest : GuestActivity) : Vcpu :=
  let vcpu := enterGuest (flushEfer vcpu) guest
  let csAttr := vcpu.vmcs.csAttr
  let (ia32Efer, vcpu) := vcpuGetEfer vcpu
  let (cr0, vcpu) := vcpuGetCr0 vcpu
  setVcpuMode vcpu csAttr ia32Efer cr0

/-- The accesses to control registers that exit. -/
inductive CrAccess where
  | movToCr0 (reg : Word)
  | movToCr4 (reg : Word)
  | lmsw (source : Word)

/-- `cr_access_vmexit_handler`. -/
def crAccessVmexitHandler (p : Platform) (mem : GuestMem) (vcpu : Vcpu) : CrAccess → Vcpu
  | .movToCr0 reg => vmxWriteCr0 p mem vcpu reg false
  | .movToCr4 reg => vmxWriteCr4 p mem vcpu reg false
  | .lmsw source =>
    let (cr0, vcpu) := vcpuGetCr0 vcpu
    vmxWriteCr0 p mem vcpu ((cr0 &&& ~~~0xe#64) ||| (source &&& 0xf#64)) false

/-! ## Runs

A run begins with a vCPU that has been created and goes on by exits, requests and entries in any
order, and with any values from the guest. -/

/-- The steps of a vCPU. -/
inductive VcpuStep where
  /-- INIT, start-up request and initialisation of the VMCS -/
  | init (vcpuId : U32)
  | run (guest : GuestActivity)
  | crAccess (mem : GuestMem) (access : CrAccess)
  | wrmsr (rdtsc : Word) (msr : U32) (val : Word)
  | rdmsr (msr : U32)

/-- One step. -/
def vcpuStep (p : Platform) (vcpu : Vcpu) : VcpuStep → Vcpu
  | .init vcpuId => initVmcs p (resetVcpu vcpu vcpuId)
  | .run guest => runVcpu vcpu guest
  | .crAccess mem access => crAccessVmexitHandler p mem vcpu access
  | .wrmsr rdtsc msr val => wrmsrExit p rdtsc vcpu msr val
  | .rdmsr msr =>
    let (ret, _, vcpu) := rdmsrVmexitHandler p vcpu msr
    if ret < 0 then injectGp vcpu else vcpu

/-- A vCPU before its first VM entry: in real mode, or in protected mode if it is the
one that a VM starts on. -/
inductive Booted (p : Platform) : Vcpu → Prop where
  | real (vcpuId : U32) (pcpu : PcpuMsrs) : Booted p (initVmcs p (createVcpu vcpuId pcpu))
  | protectedMode (vcpuId : U32) (pcpu : PcpuMsrs) :
      Booted p (initVmcs p (initVcpuProtectModeRegs (createVcpu vcpuId pcpu)))

/-- The runs of a vCPU. -/
def vcpuSystem (p : Platform) : System Vcpu VcpuStep where
  init := Booted p
  step vcpu a vcpu' := vcpu' = vcpuStep p vcpu a

/-- Every sequence of steps is a run. -/
theorem reach_foldl {p : Platform} {vcpu : Vcpu} (h : Reach (vcpuSystem p) any vcpu)
    (steps : List VcpuStep) : Reach (vcpuSystem p) any (steps.foldl (vcpuStep p) vcpu) := by
  induction steps generalizing vcpu with
  | nil => exact h
  | cons a steps ih => exact ih (h.step trivial rfl)

/-! ## What the steps leave alone

Most MSRs have nothing to do with the control registers. That a step does not touch these is shown
by comparing views. -/

theorem setTscMsrInterception_frame (vcpu : Vcpu) (interception : Bool) :
    ∃ bitmap deadline phys, setTscMsrInterception vcpu interception = { vcpu with
      msrBitmap := bitmap
      guestMsrs := Function.update vcpu.guestMsrs .tscDeadline deadline
      pcpu.tscDeadline := phys } := by
  rw [setTscMsrInterception]
  dsimp only
  split
  · split
    · exact ⟨_, vcpu.guestMsrs .tscDeadline, _, by rw [Function.update_eq_self]⟩
    · exact ⟨_, 0#64, vcpu.pcpu.tscDeadline, rfl⟩
  · split
    · exact ⟨_, vcpu.pcpu.tscDeadline, vcpu.pcpu.tscDeadline, rfl⟩
    · exact ⟨vcpu.msrBitmap, vcpu.guestMsrs .tscDeadline, vcpu.pcpu.tscDeadline, by
        rw [Function.update_eq_self]⟩

theorem initMsrEmulation_frame (p : Platform) (vcpu : Vcpu) :
    ∃ bitmap deadline phys, initMsrEmulation p vcpu = { vcpu with
      msrBitmap := bitmap
      guestMsrs := Function.update vcpu.guestMsrs .tscDeadline deadline
      pcpu.tscDeadline := phys } := by
  rw [initMsrEmulation, updateMsrBitmapX2apicPassthru]
  exact setTscMsrInterception_frame _ _

/-- Two views of a vCPU with the same control registers. -/
structure SameControls (v w : VcpuView) : Prop where
  vmcs : ∃ offset, w.vmcs = { v.vmcs with tscOffset := offset }
  cr0 : w.cr0 = v.cr0
  cr4 : w.cr4 = v.cr4
  efer : w.efer = v.efer
  entryEfer : w.entryEfer = v.entryEfer
  cpuMode : w.cpuMode = v.cpuMode
  pat : w.guestMsrs .pat = v.guestMsrs .pat
  miscEnable : w.guestMsrs .miscEnable = v.guestMsrs .miscEnable

namespace SameControls

variable {v w u : VcpuView}

theorem refl (v : VcpuView) : SameControls v v :=
  ⟨⟨v.vmcs.tscOffset, rfl⟩, rfl, rfl, rfl, rfl, rfl, rfl, rfl⟩

theorem trans (h : SameControls v w) (h' : SameControls w u) : SameControls v u := by
  obtain ⟨o, ho⟩ := h.vmcs
  obtain ⟨o', ho'⟩ := h'.vmcs
  exact ⟨⟨o', by rw [ho', ho]⟩, h'.cr0.trans h.cr0, h'.cr4.trans h.cr4, h'.efer.trans h.efer,
    h'.entryEfer.trans h.entryEfer, h'.cpuMode.trans h.cpuMode, h'.pat.trans h.pat,
    h'.miscEnable.trans h.miscEnable⟩

theorem injectGp (v : VcpuView) : SameControls v v.injectGp :=
  ⟨⟨v.vmcs.tscOffset, rfl⟩, rfl, rfl, rfl, rfl, rfl, rfl, rfl⟩

theorem setTscMsrInterception (vcpu : Vcpu) (interception : Bool) :
    SameControls vcpu.view (Acrn.setTscMsrInterception vcpu interception).view := by
  obtain ⟨bitmap, deadline, phys, h⟩ := setTscMsrInterception_frame vcpu interception
  rw [h]
  exact ⟨⟨vcpu.vmcs.tscOffset, rfl⟩, rfl, rfl, rfl, rfl, rfl, rfl, rfl⟩

/-- The TSC offset and the guest's `IA32_TSC_ADJUST` are no controls. -/
theorem setOffset (vcpu : Vcpu) (offset adjust : Word) : SameControls vcpu.view
    { vcpuSetGuestMsr vcpu .tscAdjust adjust with vmcs.tscOffset := offset }.view :=
  ⟨⟨offset, rfl⟩, rfl, rfl, rfl, rfl, rfl, rfl, rfl⟩

theorem setGuestTsc (rdtsc : Word) (vcpu : Vcpu) (guestTsc : Word) :
    SameControls vcpu.view (Acrn.setGuestTsc rdtsc vcpu guestTsc).view :=
  (setOffset vcpu _ _).trans (setTscMsrInterception _ _)

theorem setGuestTscAdjust (vcpu : Vcpu) (tscAdjust : Word) :
    SameControls vcpu.view (Acrn.setGuestTscAdjust vcpu tscAdjust).view :=
  (setOffset vcpu _ _).trans (setTscMsrInterception _ _)

theorem vlapicSetTscDeadlineMsr (vcpu : Vcpu) (val : Word) :
    SameControls vcpu.view (Acrn.vlapicSetTscDeadlineMsr vcpu val).view := by
  rw [Acrn.vlapicSetTscDeadlineMsr]
  dsimp only
  split <;> exact ⟨⟨vcpu.vmcs.tscOffset, rfl⟩, rfl, rfl, rfl, rfl, rfl, rfl, rfl⟩

theorem vlapicX2apicWrite (vcpu : Vcpu) (msr : U32) (val : Word) :
    SameControls vcpu.view (Acrn.vlapicX2apicWrite vcpu msr val).2.view := by
  rw [Acrn.vlapicX2apicWrite]
  split <;> exact ⟨⟨vcpu.vmcs.tscOffset, rfl⟩, rfl, rfl, rfl, rfl, rfl, rfl, rfl⟩

end SameControls

/-! ## The steps on the view

Here the handlers of the exits become operations on the view: a write that fails leaves an
exception, and one that succeeds does what its specification says. -/

section
variable (p : Platform) (vcpu : Vcpu)

theorem Handles.wrmsrExit {rdtsc : Word} {msr : U32} {val : Word} {w : Option VcpuView}
    (h : Handles (wrmsrVmexitHandler p rdtsc vcpu msr val) vcpu.view w) :
    (Acrn.wrmsrExit p rdtsc vcpu msr val).view = w.getD vcpu.view.injectGp := by
  rw [Acrn.wrmsrExit]
  dsimp only
  cases w with
  | none => rw [if_pos h.1, injectGp_view, h.2]; rfl
  | some w => rw [if_neg (by rw [h.1]; decide), h.2]; rfl

theorem wrmsrExit_pat (rdtsc val : Word) : (wrmsrExit p rdtsc vcpu msrIa32Pat val).view =
    (vcpu.view.writePat val).getD vcpu.view.injectGp :=
  Handles.wrmsrExit p vcpu (writePatMsr_handles vcpu val)

theorem wrmsrExit_efer (rdtsc val : Word) : (wrmsrExit p rdtsc vcpu msrIa32Efer val).view =
    (vcpu.view.writeEfer p val).getD vcpu.view.injectGp :=
  Handles.wrmsrExit p vcpu (writeEferMsr_handles p vcpu val)

theorem wrmsrExit_miscEnable (rdtsc val : Word) :
    (wrmsrExit p rdtsc vcpu msrIa32MiscEnable val).view =
      (vcpu.view.writeMiscEnable val).getD vcpu.view.injectGp :=
  Handles.wrmsrExit p vcpu (setGuestIa32MiscEnable_handles vcpu val)

/-- A handler's result with the exception for an error, under `SameControls`. -/
theorem SameControls.exit {r : ℤ × Vcpu} {v : VcpuView} (h : SameControls v r.2.view) :
    SameControls v (if r.1 < 0 then Acrn.injectGp r.2 else r.2).view := by
  split
  · exact h.trans (.injectGp r.2.view)
  · exact h

/-- Whichever of two results a handler gives, under `SameControls`. -/
theorem SameControls.ite {c : Prop} [Decidable c] {r r' : ℤ × Vcpu} {v : VcpuView}
    (h : SameControls v r.2.view) (h' : SameControls v r'.2.view) :
    SameControls v (if c then r else r').2.view := by
  split
  · exact h
  · exact h'

/-- The other MSRs are no controls. -/
theorem wrmsrExit_other {rdtsc : Word} {msr : U32} {val : Word} (hpat : msr ≠ msrIa32Pat)
    (hefer : msr ≠ msrIa32Efer) (hmisc : msr ≠ msrIa32MiscEnable) :
    SameControls vcpu.view (wrmsrExit p rdtsc vcpu msr val).view := by
  apply SameControls.exit (r := wrmsrVmexitHandler p rdtsc vcpu msr val)
  rw [wrmsrVmexitHandler, if_neg hpat, if_neg hefer, if_neg hmisc]
  refine .ite (.vlapicSetTscDeadlineMsr vcpu val) ?_
  refine .ite (.setGuestTscAdjust vcpu val) ?_
  refine .ite (.setGuestTsc rdtsc vcpu val) ?_
  refine .ite (.refl _) ?_
  refine .ite ⟨⟨vcpu.vmcs.tscOffset, rfl⟩, rfl, rfl, rfl, rfl, rfl, rfl, rfl⟩ ?_
  refine .ite (.refl _) ?_
  refine .ite (.refl _) ?_
  exact .ite (.vlapicX2apicWrite vcpu msr val) (.refl _)

/-- A read of the deadline may clear it, and nothing else changes. -/
theorem rdmsrVmexitHandler_sameControls (msr : U32) :
    SameControls vcpu.view (rdmsrVmexitHandler p vcpu msr).2.2.view := by
  by_cases hmsr : msr = msrIa32TscDeadline
  · subst hmsr
    show SameControls vcpu.view (vlapicGetTscDeadlineMsr vcpu).2.view
    rw [vlapicGetTscDeadlineMsr]
    split
    · exact ⟨⟨vcpu.vmcs.tscOffset, rfl⟩, rfl, rfl, rfl, rfl, rfl, rfl, rfl⟩
    · exact .refl _
  · have hsame : (rdmsrVmexitHandler p vcpu msr).2.2 = vcpu := by
      simp only [rdmsrVmexitHandler, if_neg hmsr, apply_ite Prod.snd, ite_self]
    rw [hsame]
    exact .refl _

theorem rdmsr_sameControls (msr : U32) :
    SameControls vcpu.view (vcpuStep p vcpu (.rdmsr msr)).view :=
  SameControls.exit (r := ((rdmsrVmexitHandler p vcpu msr).1,
    (rdmsrVmexitHandler p vcpu msr).2.2)) (rdmsrVmexitHandler_sameControls p vcpu msr)

theorem crAccessVmexitHandler_view (mem : GuestMem) (access : CrAccess) :
    (∃ cr0, (crAccessVmexitHandler p mem vcpu access).view =
      (vcpu.view.writeCr0 p mem cr0).getD vcpu.view.injectGp) ∨
    ∃ cr4, (crAccessVmexitHandler p mem vcpu access).view =
      (vcpu.view.writeCr4 p mem cr4).getD vcpu.view.injectGp := by
  cases access with
  | movToCr0 reg => exact .inl ⟨reg, vmxWriteCr0_view p mem vcpu reg⟩
  | movToCr4 reg => exact .inr ⟨reg, vmxWriteCr4_view p mem vcpu reg⟩
  | lmsw source =>
    obtain ⟨v₁, h₁, hv₁⟩ := vcpuGetCr0_spec vcpu
    left
    rw [crAccessVmexitHandler, h₁]
    exact ⟨_, by rw [vmxWriteCr0_view, hv₁]⟩

end

end Acrn
