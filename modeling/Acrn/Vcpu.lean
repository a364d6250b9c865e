import Acrn.Page
import Acrn.ExceptionMerge

/-!
# The registers of a vCPU

`vcpu.c` and `virtual_cr.c`: a vCPU keeps the registers of its guest in the VMCS,
and copies of some of them that are valid until the next VM exit (`reg_cached`) or
have not been written back yet (`reg_updated`).

The part of the state that a guest can tell apart is a `VcpuView`: the same without
the copies.
-/

namespace Acrn

/-! ## Constants -/

def cr0Pg : Word := 0x80000000#64
def cr0Cd : Word := 0x40000000#64
def cr0Nw : Word := 0x20000000#64
def cr0Am : Word := 0x40000#64
def cr0Wp : Word := 0x10000#64
def cr0Ne : Word := 0x20#64
def cr0Et : Word := 0x10#64
def cr0Ts : Word := 0x8#64
def cr0Em : Word := 0x4#64
def cr0Mp : Word := 0x2#64
def cr0Pe : Word := 0x1#64

def cr4Vme : Word := 0x1#64
def cr4Pvi : Word := 0x2#64
def cr4Tsd : Word := 0x4#64
def cr4De : Word := 0x8#64
def cr4Pse : Word := 0x10#64
def cr4Pae : Word := 0x20#64
def cr4Mce : Word := 0x40#64
def cr4Pge : Word := 0x80#64
def cr4Pce : Word := 0x100#64
def cr4Osfxsr : Word := 0x200#64
def cr4Osxmmexcpt : Word := 0x400#64
def cr4Umip : Word := 0x800#64
def cr4Vmxe : Word := 0x2000#64
def cr4Smxe : Word := 0x4000#64
def cr4Fsgsbase : Word := 0x10000#64
def cr4Pcide : Word := 0x20000#64
def cr4Osxsave : Word := 0x40000#64
def cr4Smep : Word := 0x100000#64
def cr4Smap : Word := 0x200000#64
def cr4Pke : Word := 0x400000#64

/-- `MSR_IA32_EFER_LME_BIT`. -/
def eferLme : Word := 0x100#64
/-- `MSR_IA32_EFER_LMA_BIT`. -/
def eferLma : Word := 0x400#64
/-- `MSR_IA32_EFER_NXE_BIT`. -/
def eferNxe : Word := 0x800#64

/-- `VMX_ENTRY_CTLS_LOAD_DEBUGCTL`. -/
def vmxEntryCtlsLoadDebugctl : U32 := 0x4#32
/-- `VMX_ENTRY_CTLS_IA32E_MODE`. -/
def vmxEntryCtlsIa32eMode : U32 := 0x200#32
/-- `VMX_ENTRY_CTLS_LOAD_PAT`. -/
def vmxEntryCtlsLoadPat : U32 := 0x4000#32
/-- `VMX_ENTRY_CTLS_LOAD_EFER`. -/
def vmxEntryCtlsLoadEfer : U32 := 0x8000#32

/-- `PAT_POWER_ON_VALUE`. -/
def patPowerOnValue : Word := 0x0007040600070406#64
/-- `PAT_ALL_UC_VALUE`. -/
def patAllUcValue : Word := 0#64

/-! ## State -/

/-- The fields of the VMCS that the control registers and MSRs are kept in. -/
structure Vmcs where
  guestCr0 : Word
  cr0ReadShadow : Word
  cr0GuestHostMask : Word
  guestCr3 : Word
  guestCr4 : Word
  cr4ReadShadow : Word
  cr4GuestHostMask : Word
  guestEfer : Word
  guestPat : Word
  guestPdpte : Fin 4 → Word
  csAttr : U32
  trAttr : U32
  entryControls : U32
  tscOffset : Word

/-- `enum vm_cpu_mode`. -/
inductive CpuMode where
  | real
  | protectedMode
  | compatibility
  | mode64
  deriving DecidableEq, Repr

/-- The MSRs of `emulated_guest_msrs` that are kept in `guest_msrs`. -/
inductive GuestMsr where
  | pat
  | tscAdjust
  | tscDeadline
  | miscEnable
  | mcgCap
  | mcgStatus
  | p5McAddr
  | p5McType
  deriving DecidableEq, Repr

/-- The registers of the virtual local APIC that are in use. -/
structure LapicRegs where
  id : U32
  ldr : U32
  icrLo : U32
  icrHi : U32
  apicbase : Word

/-- The MSRs of the pCPU that the guest reaches through its handlers. -/
structure PcpuMsrs where
  tscDeadline : Word
  specCtrl : Word

/-- The registers of a vCPU with the cached copies in `run_ctx`. -/
structure Vcpu where
  vmcs : Vmcs
  ctxCr0 : Word
  ctxCr4 : Word
  ctxEfer : Word
  cr0Cached : Bool
  cr4Cached : Bool
  eferCached : Bool
  eferUpdated : Bool
  extCsAttr : U32
  extCr3 : Word
  guestMsrs : GuestMsr → Word
  msrBitmap : ℕ → BitVec 8
  lapic : LapicRegs
  cpuMode : CpuMode
  vcpuPowerup : Bool
  events : VcpuEvents
  pcpu : PcpuMsrs

/-- What a pCPU and the configuration of the VM determine. -/
structure Platform where
  cr0Fixed0 : Word
  cr0Fixed1 : Word
  cr4Fixed0 : Word
  cr4Fixed1 : Word
  /-- `MSR_IA32_VMX_ENTRY_CTLS` -/
  entryCtls : Word
  /-- `MSR_IA32_MISC_ENABLE` of the pCPU -/
  miscEnable : Word
  /-- `MSR_IA32_TSC_ADJUST` of the pCPU -/
  tscAdjust : Word
  /-- `phys_bits` -/
  maxphyaddr : ℕ
  /-- `EDX` of the CPUID leaves `0x80000001` and `2` -/
  cpuid80000001Edx : U32
  cpuid2Edx : U32
  vcpuidXlevel : U32
  microcodeVersion : Word
  /-- `MSR_IA32_MC0_STATUS` and the like of the pCPU -/
  mcStatus : U32 → Word
  isSafetyVm : Bool

/-- The memory of a vCPU as `create_vcpu` clears it, with no exception pending. -/
def Vcpu.cleared (pcpu : PcpuMsrs) : Vcpu where
  vmcs := {
    guestCr0 := 0#64, cr0ReadShadow := 0#64, cr0GuestHostMask := 0#64, guestCr3 := 0#64
    guestCr4 := 0#64, cr4ReadShadow := 0#64, cr4GuestHostMask := 0#64, guestEfer := 0#64
    guestPat := 0#64, guestPdpte := fun _ => 0#64, csAttr := 0#32, trAttr := 0#32
    entryControls := 0#32, tscOffset := 0#64 }
  ctxCr0 := 0#64
  ctxCr4 := 0#64
  ctxEfer := 0#64
  cr0Cached := false
  cr4Cached := false
  eferCached := false
  eferUpdated := false
  extCsAttr := 0#32
  extCr3 := 0#64
  guestMsrs := fun _ => 0#64
  msrBitmap := fun _ => 0#8
  lapic := { id := 0#32, ldr := 0#32, icrLo := 0#32, icrHi := 0#32, apicbase := 0#64 }
  cpuMode := .real
  vcpuPowerup := false
  events := VcpuEvents.created
  pcpu := pcpu

/-- The values that a processor with VMX and unrestricted guests reports. -/
def typicalPlatform : Platform where
  cr0Fixed0 := 0x80000021#64
  cr0Fixed1 := 0xFFFFFFFF#64
  cr4Fixed0 := 0x2000#64
  cr4Fixed1 := 0x3767FF#64
  entryCtls := 0x3FFFF000011FF#64
  miscEnable := 0x850089#64
  tscAdjust := 0#64
  maxphyaddr := 39
  cpuid80000001Edx := 0x2C100800#32
  cpuid2Edx := 0#32
  vcpuidXlevel := 0x80000008#32
  microcodeVersion := 0#64
  mcStatus := fun _ => 0#64
  isSafetyVm := false

/-- The four entries at an address of guest memory, if it is mapped:
`copy_from_gpa`. -/
abbrev GuestMem : Type := Word → Option (Fin 4 → Word)

/-! ## Reading and writing registers

A read may fill a cached copy, and a write goes to the copy and marks it to be written back. None
of this is seen in the view. -/

/-- What a guest reads from CR0, through the guest/host mask. -/
def Vmcs.virtualCr0 (vmcs : Vmcs) : Word :=
  (vmcs.cr0ReadShadow &&& vmcs.cr0GuestHostMask) ||| (vmcs.guestCr0 &&& ~~~vmcs.cr0GuestHostMask)

/-- What a guest reads from CR4. -/
def Vmcs.virtualCr4 (vmcs : Vmcs) : Word :=
  (vmcs.cr4ReadShadow &&& vmcs.cr4GuestHostMask) ||| (vmcs.guestCr4 &&& ~~~vmcs.cr4GuestHostMask)

/-- `vcpu_get_cr0`. -/
def vcpuGetCr0 (vcpu : Vcpu) : Word × Vcpu :=
  let vcpu := if vcpu.cr0Cached then vcpu
    else { vcpu with cr0Cached := true, ctxCr0 := vcpu.vmcs.virtualCr0 }
  (vcpu.ctxCr0, vcpu)

/-- `vcpu_get_cr4`. -/
def vcpuGetCr4 (vcpu : Vcpu) : Word × Vcpu :=
  let vcpu := if vcpu.cr4Cached then vcpu
    else { vcpu with cr4Cached := true, ctxCr4 := vcpu.vmcs.virtualCr4 }
  (vcpu.ctxCr4, vcpu)

/-- `vcpu_get_efer`. -/
def vcpuGetEfer (vcpu : Vcpu) : Word × Vcpu :=
  let vcpu := if !vcpu.eferUpdated && !vcpu.eferCached then
      { vcpu with eferCached := true, ctxEfer := vcpu.vmcs.guestEfer }
    else vcpu
  (vcpu.ctxEfer, vcpu)

/-- `vcpu_set_efer`. -/
def vcpuSetEfer (vcpu : Vcpu) (val : Word) : Vcpu :=
  { vcpu with ctxEfer := val, eferUpdated := true }

/-- `vcpu_set_guest_msr`. -/
def vcpuSetGuestMsr (vcpu : Vcpu) (msr : GuestMsr) (val : Word) : Vcpu :=
  { vcpu with guestMsrs := Function.update vcpu.guestMsrs msr val }

/-- `vcpu_make_request`. -/
def vcpuMakeRequest (vcpu : Vcpu) (eventid : Request) : Vcpu :=
  { vcpu with events := vcpu.events.makeRequest eventid }

/-- `vcpu_inject_gp` with error code 0. -/
def injectGp (vcpu : Vcpu) : Vcpu :=
  { vcpu with events := (vcpuInjectGp vcpu.events 0#32).getD vcpu.events }

/-- `is_long_mode`. -/
def isLongMode (vcpu : Vcpu) : Bool × Vcpu :=
  let (efer, vcpu) := vcpuGetEfer vcpu
  (decide (efer &&& eferLma ≠ 0#64), vcpu)

/-- `is_paging_enabled`. -/
def isPagingEnabled (vcpu : Vcpu) : Bool × Vcpu :=
  let (cr0, vcpu) := vcpuGetCr0 vcpu
  (decide (cr0 &&& cr0Pg ≠ 0#64), vcpu)

/-- `is_pae`. -/
def isPae (vcpu : Vcpu) : Bool × Vcpu :=
  let (cr4, vcpu) := vcpuGetCr4 vcpu
  (decide (cr4 &&& cr4Pae ≠ 0#64), vcpu)

/-- `set_vcpu_mode`. -/
def setVcpuMode (vcpu : Vcpu) (csAttr : U32) (ia32Efer cr0 : Word) : Vcpu :=
  { vcpu with cpuMode :=
      if ia32Efer &&& eferLma ≠ 0#64 then
        if csAttr &&& 0x2000#32 ≠ 0#32 then .mode64 else .compatibility
      else if cr0 &&& cr0Pe ≠ 0#64 then .protectedMode else .real }

/-! ## The view of a vCPU

For every access function there is an equation on views, in which the caches do not occur. The
handlers are later treated by these equations. -/

/-- The registers of a vCPU without the cached copies. -/
structure VcpuView where
  vmcs : Vmcs
  cr0 : Word
  cr4 : Word
  efer : Word
  /-- what the next VM entry loads into EFER -/
  entryEfer : Word
  guestMsrs : GuestMsr → Word
  msrBitmap : ℕ → BitVec 8
  lapic : LapicRegs
  cpuMode : CpuMode
  vcpuPowerup : Bool
  events : VcpuEvents
  pcpu : PcpuMsrs

/-- What the vCPU is read as. -/
def Vcpu.view (vcpu : Vcpu) : VcpuView where
  vmcs := vcpu.vmcs
  cr0 := if vcpu.cr0Cached then vcpu.ctxCr0 else vcpu.vmcs.virtualCr0
  cr4 := if vcpu.cr4Cached then vcpu.ctxCr4 else vcpu.vmcs.virtualCr4
  efer := if vcpu.eferUpdated || vcpu.eferCached then vcpu.ctxEfer else vcpu.vmcs.guestEfer
  entryEfer := if vcpu.eferUpdated then vcpu.ctxEfer else vcpu.vmcs.guestEfer
  guestMsrs := vcpu.guestMsrs
  msrBitmap := vcpu.msrBitmap
  lapic := vcpu.lapic
  cpuMode := vcpu.cpuMode
  vcpuPowerup := vcpu.vcpuPowerup
  events := vcpu.events
  pcpu := vcpu.pcpu

variable (vcpu : Vcpu)

/-- Reading CR0 returns its value and changes no value. -/
theorem vcpuGetCr0_spec : ∃ vcpu', vcpuGetCr0 vcpu = (vcpu.view.cr0, vcpu') ∧
    vcpu'.view = vcpu.view := by
  refine ⟨(vcpuGetCr0 vcpu).2, ?_, ?_⟩
  · rw [vcpuGetCr0, Vcpu.view]
    cases vcpu.cr0Cached <;> rfl
  · rw [vcpuGetCr0, Vcpu.view, Vcpu.view]
    cases h : vcpu.cr0Cached <;> simp [h]

theorem vcpuGetCr4_spec : ∃ vcpu', vcpuGetCr4 vcpu = (vcpu.view.cr4, vcpu') ∧
    vcpu'.view = vcpu.view := by
  refine ⟨(vcpuGetCr4 vcpu).2, ?_, ?_⟩
  · rw [vcpuGetCr4, Vcpu.view]
    cases vcpu.cr4Cached <;> rfl
  · rw [vcpuGetCr4, Vcpu.view, Vcpu.view]
    cases h : vcpu.cr4Cached <;> simp [h]

theorem vcpuGetEfer_spec : ∃ vcpu', vcpuGetEfer vcpu = (vcpu.view.efer, vcpu') ∧
    vcpu'.view = vcpu.view := by
  refine ⟨(vcpuGetEfer vcpu).2, ?_, ?_⟩
  · rw [vcpuGetEfer, Vcpu.view]
    cases vcpu.eferUpdated <;> cases vcpu.eferCached <;> rfl
  · rw [vcpuGetEfer, Vcpu.view, Vcpu.view]
    cases h : vcpu.eferUpdated <;> cases h' : vcpu.eferCached <;> simp [h, h']

theorem isLongMode_spec : ∃ vcpu', isLongMode vcpu =
    (decide (vcpu.view.efer &&& eferLma ≠ 0#64), vcpu') ∧ vcpu'.view = vcpu.view := by
  obtain ⟨vcpu', h, hview⟩ := vcpuGetEfer_spec vcpu
  exact ⟨vcpu', by rw [isLongMode, h], hview⟩

theorem isPagingEnabled_spec : ∃ vcpu', isPagingEnabled vcpu =
    (decide (vcpu.view.cr0 &&& cr0Pg ≠ 0#64), vcpu') ∧ vcpu'.view = vcpu.view := by
  obtain ⟨vcpu', h, hview⟩ := vcpuGetCr0_spec vcpu
  exact ⟨vcpu', by rw [isPagingEnabled, h], hview⟩

theorem isPae_spec : ∃ vcpu', isPae vcpu =
    (decide (vcpu.view.cr4 &&& cr4Pae ≠ 0#64), vcpu') ∧ vcpu'.view = vcpu.view := by
  obtain ⟨vcpu', h, hview⟩ := vcpuGetCr4_spec vcpu
  exact ⟨vcpu', by rw [isPae, h], hview⟩

/-- A new value of EFER, which the next VM entry loads. -/
def VcpuView.setEfer (v : VcpuView) (val : Word) : VcpuView :=
  { v with efer := val, entryEfer := val }

theorem vcpuSetEfer_view (val : Word) : (vcpuSetEfer vcpu val).view = vcpu.view.setEfer val := rfl

theorem vcpuMakeRequest_view (eventid : Request) : (vcpuMakeRequest vcpu eventid).view =
    { vcpu.view with events := vcpu.view.events.makeRequest eventid } := rfl

theorem vcpuSetGuestMsr_view (msr : GuestMsr) (val : Word) : (vcpuSetGuestMsr vcpu msr val).view =
    { vcpu.view with guestMsrs := Function.update vcpu.view.guestMsrs msr val } := rfl

/-- A general protection exception is queued. -/
def VcpuView.injectGp (v : VcpuView) : VcpuView :=
  { v with events := (vcpuInjectGp v.events 0#32).getD v.events }

theorem injectGp_view : (injectGp vcpu).view = vcpu.view.injectGp := rfl

end Acrn
