import Acrn.VirtualCr

/-!
# Model-specific registers

`vmsr.c`: the MSR bitmap that decides which accesses of the guest exit, and the
handlers of `RDMSR` and `WRMSR`. The writes that reach the virtual local APIC have
here what they do to the vCPU that writes.
-/

namespace Acrn

/-! ## Constants -/

def msrIa32P5McAddr : U32 := 0x0#32
def msrIa32P5McType : U32 := 0x1#32
def msrIa32MonitorFilterSize : U32 := 0x6#32
def msrIa32TimeStampCounter : U32 := 0x10#32
def msrIa32ApicBase : U32 := 0x1B#32
def msrIa32FeatureControl : U32 := 0x3A#32
def msrIa32TscAdjust : U32 := 0x3B#32
def msrIa32SpecCtrl : U32 := 0x48#32
def msrIa32BiosSignId : U32 := 0x8B#32
def msrIa32McgCap : U32 := 0x179#32
def msrIa32McgStatus : U32 := 0x17A#32
def msrIa32MiscEnable : U32 := 0x1A0#32
def msrIa32Pat : U32 := 0x277#32
def msrIa32Mc0Ctl2 : U32 := 0x280#32
def msrIa32Mc0Ctl : U32 := 0x400#32
def msrIa32Mc0Status : U32 := 0x401#32
def msrIa32TscDeadline : U32 := 0x6E0#32
def msrIa32ExtXapicid : U32 := 0x802#32
def msrIa32ExtApicLdr : U32 := 0x80D#32
def msrIa32ExtApicIcr : U32 := 0x830#32
def msrIa32Efer : U32 := 0xC0000080#32

def msrIa32FeatureControlLock : Word := 0x1#64
def msrIa32SpecCtrlStibp : Word := 0x2#64
def msrIa32McStatusAddrv : Word := 0x400000000000000#64
def msrIa32McStatusMiscv : Word := 0x800000000000000#64
def mcgCapForSafetyVm : Word := 0x40A#64
def msrIa32MiscEnableLimitCpuid : Word := 0x400000#64
def msrIa32MiscEnableXdDisable : Word := 0x400000000#64
def msrIa32MiscEnableMask : Word := msrIa32MiscEnableLimitCpuid ||| msrIa32MiscEnableXdDisable
def msrIa32EferMask : Word := 0xD01#64
def cpuidEdxXdBitAvil : U32 := 0x100000#32
/-- `NUM_MC_BANKS`. -/
def numMcBanks : U32 := 10#32

def eacces : ℤ := 13

/-- `unintercepted_msrs`. -/
def uninterceptedMsrs : List U32 :=
  [0x17#32, 0x49#32, 0xCE#32, 0x10B#32, 0x13C#32, 0x174#32, 0x175#32, 0x176#32, 0xC0000081#32,
   0xC0000082#32, 0xC0000083#32, 0xC0000084#32, 0xC0000100#32, 0xC0000101#32, 0xC0000102#32,
   0xC0000103#32]

/-- `x2apic_msrs`. -/
def x2apicMsrs : List U32 :=
  [0x802#32, 0x803#32, 0x808#32, 0x80A#32, 0x80B#32, 0x80D#32, 0x80F#32,
   0x810#32, 0x811#32, 0x812#32, 0x813#32, 0x814#32, 0x815#32, 0x816#32, 0x817#32,
   0x818#32, 0x819#32, 0x81A#32, 0x81B#32, 0x81C#32, 0x81D#32, 0x81E#32, 0x81F#32,
   0x820#32, 0x821#32, 0x822#32, 0x823#32, 0x824#32, 0x825#32, 0x826#32, 0x827#32,
   0x828#32, 0x82F#32, 0x830#32, 0x832#32, 0x833#32, 0x834#32, 0x835#32, 0x836#32, 0x837#32,
   0x838#32, 0x839#32, 0x83E#32, 0x83F#32]

/-- `is_x2apic_msr`. -/
def isX2apicMsr (msr : U32) : Bool := x2apicMsrs.contains msr

/-- `is_mc_ctl2_msr`. -/
def isMcCtl2Msr (msr : U32) : Bool :=
  decide (msrIa32Mc0Ctl2 ≤ msr) && decide (msr < msrIa32Mc0Ctl2 + numMcBanks)

/-- `is_mc_ctl_msr`. -/
def isMcCtlMsr (msr : U32) : Bool :=
  decide (msrIa32Mc0Ctl ≤ msr) && decide (msr < msrIa32Mc0Ctl + 4#32 * numMcBanks) &&
    decide (msr % 4#32 = 0#32)

/-- `is_mc_status_msr`. -/
def isMcStatusMsr (msr : U32) : Bool :=
  decide (msrIa32Mc0Status ≤ msr) && decide (msr < msrIa32Mc0Status + 4#32 * numMcBanks) &&
    decide (msr % 4#32 = 1#32)

/-! ## The MSR bitmap

The bitmap has four quarters: reads and writes, for low MSRs and for high ones. An MSR outside of
both ranges always exits. -/

/-- `INTERCEPT_DISABLE`, `INTERCEPT_READ`, `INTERCEPT_WRITE` and `INTERCEPT_READ_WRITE`. -/
structure InterceptMode where
  read : Bool
  write : Bool

def interceptDisable : InterceptMode := ⟨false, false⟩
def interceptRead : InterceptMode := ⟨true, false⟩
def interceptWrite : InterceptMode := ⟨false, true⟩
def interceptReadWrite : InterceptMode := ⟨true, true⟩

/-- The byte of an MSR in a quarter of the bitmap, from the read quarters on. -/
def msrByte (msr : U32) : ℕ :=
  (if msr &&& 0xC0000000#32 ≠ 0#32 then 1024 else 0) + ((msr &&& 0x1FFF#32) >>> 3).toNat

/-- The bit of an MSR in its byte. -/
def msrBit (msr : U32) : BitVec 8 := 1#8 <<< (msr &&& 0x7#32).toNat

/-- Setting or clearing a bit of one byte. -/
def setMsrBit (bitmap : ℕ → BitVec 8) (index : ℕ) (bit : BitVec 8) (on : Bool) : ℕ → BitVec 8 :=
  Function.update bitmap index (if on then bitmap index ||| bit else bitmap index &&& ~~~bit)

/-- `enable_msr_interception`. -/
def enableMsrInterception (bitmap : ℕ → BitVec 8) (msr : U32) (mode : InterceptMode) :
    ℕ → BitVec 8 :=
  setMsrBit (setMsrBit bitmap (msrByte msr) (msrBit msr) mode.read)
    (2048 + msrByte msr) (msrBit msr) mode.write

/-- Whether `RDMSR` exits. -/
def readIntercepted (bitmap : ℕ → BitVec 8) (msr : U32) : Bool :=
  decide (bitmap (msrByte msr) &&& msrBit msr ≠ 0#8)

/-- Whether `WRMSR` exits. -/
def writeIntercepted (bitmap : ℕ → BitVec 8) (msr : U32) : Bool :=
  decide (bitmap (2048 + msrByte msr) &&& msrBit msr ≠ 0#8)

/-- `intercept_x2apic_msrs`. -/
def interceptX2apicMsrs (bitmap : ℕ → BitVec 8) (mode : InterceptMode) : ℕ → BitVec 8 :=
  x2apicMsrs.foldl (fun bitmap msr => enableMsrInterception bitmap msr mode) bitmap

/-- `set_tsc_msr_interception`. -/
def setTscMsrInterception (vcpu : Vcpu) (interception : Bool) : Vcpu :=
  let isIntercepted := readIntercepted vcpu.msrBitmap msrIa32TscDeadline
  if !interception && isIntercepted then
    let bitmap := enableMsrInterception vcpu.msrBitmap msrIa32TscDeadline interceptDisable
    let vcpu := { vcpu with
      msrBitmap := enableMsrInterception bitmap msrIa32TscAdjust interceptWrite }
    if vcpu.pcpu.tscDeadline ≠ 0#64 then
      { vcpu with pcpu.tscDeadline := vcpu.guestMsrs .tscDeadline }
    else vcpuSetGuestMsr vcpu .tscDeadline 0#64
  else if interception && !isIntercepted then
    let bitmap := enableMsrInterception vcpu.msrBitmap msrIa32TscDeadline interceptReadWrite
    let vcpu := { vcpu with
      msrBitmap := enableMsrInterception bitmap msrIa32TscAdjust interceptReadWrite }
    vcpuSetGuestMsr vcpu .tscDeadline vcpu.pcpu.tscDeadline
  else vcpu

/-- `update_msr_bitmap_x2apic_passthru`. -/
def updateMsrBitmapX2apicPassthru (vcpu : Vcpu) : Vcpu :=
  let bitmap := interceptX2apicMsrs vcpu.msrBitmap interceptDisable
  let bitmap := enableMsrInterception bitmap msrIa32ExtXapicid interceptRead
  let bitmap := enableMsrInterception bitmap msrIa32ExtApicLdr interceptRead
  let bitmap := enableMsrInterception bitmap msrIa32ExtApicIcr interceptReadWrite
  setTscMsrInterception { vcpu with msrBitmap := bitmap } (decide (vcpu.vmcs.tscOffset ≠ 0#64))

/-- The MSRs `first + step * i` for `i < n`. -/
def msrRange (first : U32) (n step : ℕ) : List U32 :=
  (List.range n).map fun i => first + BitVec.ofNat 32 (step * i)

/-- The MSRs whose interception `init_msr_emulation` sets, in its order. -/
def initInterceptions (p : Platform) : List (U32 × InterceptMode) :=
  (msrRange 0x0#32 0x2000 1).map (·, interceptReadWrite) ++
  (msrRange 0xC0000000#32 0x2000 1).map (·, interceptReadWrite) ++
  uninterceptedMsrs.map (·, interceptDisable) ++
  [(msrIa32TimeStampCounter, interceptWrite), (msrIa32Efer, interceptWrite)] ++
  if p.isSafetyVm then
    (msrRange msrIa32Mc0Ctl2 4 1).map (·, interceptDisable) ++
    (msrRange msrIa32Mc0Ctl 10 4).map (·, interceptDisable) ++
    (msrRange msrIa32Mc0Status 10 4).map (·, interceptRead)
  else []

/-- `init_msr_emulation`. -/
def initMsrEmulation (p : Platform) (vcpu : Vcpu) : Vcpu :=
  updateMsrBitmapX2apicPassthru { vcpu with
    msrBitmap := (initInterceptions p).foldl
      (fun bitmap m => enableMsrInterception bitmap m.1 m.2) vcpu.msrBitmap }

/-! ## Handlers -/

/-- `is_pat_mem_type_invalid`. -/
def isPatMemTypeInvalid (x : Word) : Bool :=
  decide (x &&& 0xF8#64 ≠ 0#64) || decide (x &&& 0x6#64 = 0x2#64)

/-- Whether a field of the value is no memory type. -/
def patInvalid (value : Word) : Bool :=
  (List.range 8).any fun i => isPatMemTypeInvalid ((value >>> (i * 8)) &&& 0xff#64)

/-- `write_pat_msr`. -/
def writePatMsr (vcpu : Vcpu) (value : Word) : ℤ × Vcpu :=
  if patInvalid value then (-einval, vcpu)
  else
    let vcpu := vcpuSetGuestMsr vcpu .pat value
    let (cr0, vcpu) := vcpuGetCr0 vcpu
    if cr0 &&& cr0Cd = 0#64 then (0, { vcpu with vmcs.guestPat := value }) else (0, vcpu)

/-- `EDX` of `guest_cpuid` for the leaf `0x80000001`. -/
def guestCpuid80000001Edx (p : Platform) (vcpu : Vcpu) : U32 :=
  let misc := vcpu.guestMsrs .miscEnable
  let edx := if misc &&& msrIa32MiscEnableXdDisable ≠ 0#64 then
      p.cpuid80000001Edx &&& ~~~cpuidEdxXdBitAvil
    else p.cpuid80000001Edx
  -- `guest_limit_cpuid`, whose other condition holds of basic leaves only
  if misc &&& msrIa32MiscEnableLimitCpuid ≠ 0#64 ∧ p.vcpuidXlevel < 0x80000001#32 then p.cpuid2Edx
  else edx

/-- `write_efer_msr`. -/
def writeEferMsr (p : Platform) (vcpu : Vcpu) (value : Word) : ℤ × Vcpu :=
  let (guestEfer, vcpu) := vcpuGetEfer vcpu
  let eferChangedBits := guestEfer ^^^ value
  if eferChangedBits &&& ~~~msrIa32EferMask ≠ 0#64 then (-eacces, vcpu)
  else
    let (underPaging, vcpu) :=
      if eferChangedBits &&& eferLme ≠ 0#64 then isPagingEnabled vcpu else (false, vcpu)
    if underPaging then (-eacces, vcpu)
    else
      let cpuidXdFeatFlag := guestCpuid80000001Edx p vcpu &&& cpuidEdxXdBitAvil
      if cpuidXdFeatFlag = 0#32 ∧ value &&& eferNxe ≠ 0#64 then (-eacces, vcpu)
      else
        let newVal := if eferChangedBits &&& eferLma ≠ 0#64 then
            (value &&& ~~~eferLma) ||| (guestEfer &&& eferLma)
          else value
        let vcpu := vcpuSetEfer vcpu newVal
        if eferChangedBits &&& eferNxe ≠ 0#64 then (0, vcpuMakeRequest vcpu .eptFlush) else (0, vcpu)

/-- `set_guest_ia32_misc_enable`. -/
def setGuestIa32MiscEnable (vcpu : Vcpu) (v : Word) : ℤ × Vcpu :=
  let guestIa32MiscEnable := vcpu.guestMsrs .miscEnable
  let miscEnableChangedBits := v ^^^ guestIa32MiscEnable
  if miscEnableChangedBits &&& ~~~msrIa32MiscEnableMask ≠ 0#64 then (-eacces, vcpu)
  else
    let vcpu := if miscEnableChangedBits &&& msrIa32MiscEnableMask ≠ 0#64 then
        vcpuSetGuestMsr vcpu .miscEnable
          ((guestIa32MiscEnable &&& ~~~msrIa32MiscEnableMask) ||| (v &&& msrIa32MiscEnableMask))
      else vcpu
    if v &&& msrIa32MiscEnableXdDisable ≠ 0#64 then
      let (guestEfer, vcpu) := vcpuGetEfer vcpu
      if guestEfer &&& eferNxe ≠ 0#64 then
        (0, vcpuMakeRequest (vcpuSetEfer vcpu (guestEfer &&& ~~~eferNxe)) .eptFlush)
      else (0, vcpu)
    else (0, vcpu)

/-- `set_guest_tsc`, with the value that `rdtsc` returns. -/
def setGuestTsc (rdtsc : Word) (vcpu : Vcpu) (guestTsc : Word) : Vcpu :=
  let tscDelta := guestTsc - rdtsc
  let tscOffsetDelta := tscDelta - vcpu.vmcs.tscOffset
  let tscAdjust := vcpu.guestMsrs .tscAdjust
  let vcpu := vcpuSetGuestMsr vcpu .tscAdjust (tscAdjust + tscOffsetDelta)
  setTscMsrInterception { vcpu with vmcs.tscOffset := tscDelta } (decide (tscDelta ≠ 0#64))

/-- `set_guest_tsc_adjust`. -/
def setGuestTscAdjust (vcpu : Vcpu) (tscAdjust : Word) : Vcpu :=
  let tscAdjustDelta := tscAdjust - vcpu.guestMsrs .tscAdjust
  let tscOffset := vcpu.vmcs.tscOffset
  let vcpu := { vcpu with vmcs.tscOffset := tscOffset + tscAdjustDelta }
  setTscMsrInterception (vcpuSetGuestMsr vcpu .tscAdjust tscAdjust)
    (decide (tscOffset + tscAdjustDelta ≠ 0#64))

/-- `vlapic_get_tsc_deadline_msr`. -/
def vlapicGetTscDeadlineMsr (vcpu : Vcpu) : Word × Vcpu :=
  if vcpu.pcpu.tscDeadline = 0#64 then (0#64, vcpuSetGuestMsr vcpu .tscDeadline 0#64)
  else (vcpu.guestMsrs .tscDeadline, vcpu)

/-- `vlapic_set_tsc_deadline_msr`. -/
def vlapicSetTscDeadlineMsr (vcpu : Vcpu) (val : Word) : Vcpu :=
  let vcpu := vcpuSetGuestMsr vcpu .tscDeadline val
  if val ≠ 0#64 then
    let val := val - vcpu.vmcs.tscOffset
    let val := if val = 0#64 then val + 1#64 else val
    { vcpu with pcpu.tscDeadline := val }
  else { vcpu with pcpu.tscDeadline := 0#64 }

/-- The bits of the ICR that must be clear. -/
def icrReservedBits : U32 :=
  ~~~(0xff#32 ||| 0x700#32 ||| 0x800#32 ||| 0x4000#32 ||| 0x8000#32 ||| 0xc0000#32)

/-- What `vlapic_x2apic_pt_icr_access` returns. -/
def icrAccessRet (val : Word) : ℤ :=
  if val.setWidth 32 &&& icrReservedBits ≠ 0#32 then -1 else 0

/-- `vlapic_x2apic_write`, on the vCPU that writes. -/
def vlapicX2apicWrite (vcpu : Vcpu) (msr : U32) (val : Word) : ℤ × Vcpu :=
  if msr = msrIa32ExtApicIcr then
    (icrAccessRet val, { vcpu with
      lapic.icrHi := (val >>> 32).setWidth 32
      lapic.icrLo := (val &&& 0xC0FFF#64).setWidth 32 ||| 0x4000#32 })
  else (-1, vcpu)

/-- `vlapic_x2apic_read` through `vlapic_read`. -/
def vlapicX2apicRead (vcpu : Vcpu) (msr : U32) : ℤ × Word :=
  if msr = msrIa32ExtApicLdr then (0, vcpu.lapic.ldr.setWidth 64)
  else if msr = msrIa32ExtXapicid then (0, vcpu.lapic.id.setWidth 64)
  else if msr = msrIa32ExtApicIcr then
    (0, vcpu.lapic.icrLo.setWidth 64 ||| (vcpu.lapic.icrHi.setWidth 64 <<< 32))
  else (-1, 0#64)

/-- `wrmsr_vmexit_handler`. -/
def wrmsrVmexitHandler (p : Platform) (rdtsc : Word) (vcpu : Vcpu) (msr : U32) (v : Word) :
    ℤ × Vcpu :=
  if msr = msrIa32TscDeadline then (0, vlapicSetTscDeadlineMsr vcpu v)
  else if msr = msrIa32TscAdjust then (0, setGuestTscAdjust vcpu v)
  else if msr = msrIa32TimeStampCounter then (0, setGuestTsc rdtsc vcpu v)
  else if msr = msrIa32P5McAddr ∨ msr = msrIa32P5McType ∨ msr = msrIa32McgStatus ∨
      msr = msrIa32BiosSignId then (if v ≠ 0#64 then -eacces else 0, vcpu)
  else if msr = msrIa32Pat then writePatMsr vcpu v
  else if msr = msrIa32Efer then writeEferMsr p vcpu v
  else if msr = msrIa32MiscEnable then setGuestIa32MiscEnable vcpu v
  else if msr = msrIa32SpecCtrl then
    (0, { vcpu with pcpu.specCtrl := v &&& ~~~msrIa32SpecCtrlStibp })
  else if msr = msrIa32MonitorFilterSize then (0, vcpu)
  else if isMcCtl2Msr msr || isMcCtlMsr msr || isMcStatusMsr msr then
    (if p.isSafetyVm then 0 else -eacces, vcpu)
  else if isX2apicMsr msr then vlapicX2apicWrite vcpu msr v
  else (-eacces, vcpu)

/-- `rdmsr_vmexit_handler`. -/
def rdmsrVmexitHandler (p : Platform) (vcpu : Vcpu) (msr : U32) : ℤ × Word × Vcpu :=
  if msr = msrIa32P5McAddr ∨ msr = msrIa32P5McType ∨ msr = msrIa32McgStatus then (0, 0#64, vcpu)
  else if msr = msrIa32TscDeadline then (0, vlapicGetTscDeadlineMsr vcpu)
  else if msr = msrIa32TscAdjust then (0, vcpu.guestMsrs .tscAdjust, vcpu)
  else if msr = msrIa32BiosSignId then (0, p.microcodeVersion, vcpu)
  else if msr = msrIa32Pat then (0, vcpu.guestMsrs .pat, vcpu)
  else if msr = msrIa32ApicBase then (0, vcpu.lapic.apicbase, vcpu)
  else if msr = msrIa32FeatureControl then (0, msrIa32FeatureControlLock, vcpu)
  else if msr = msrIa32MiscEnable then (0, vcpu.guestMsrs .miscEnable, vcpu)
  else if msr = msrIa32SpecCtrl then (0, vcpu.pcpu.specCtrl &&& ~~~msrIa32SpecCtrlStibp, vcpu)
  else if msr = msrIa32MonitorFilterSize then (0, 0#64, vcpu)
  else if msr = msrIa32McgCap then (0, if p.isSafetyVm then mcgCapForSafetyVm else 0#64, vcpu)
  else if isMcCtl2Msr msr || isMcCtlMsr msr then (if p.isSafetyVm then 0 else -eacces, 0#64, vcpu)
  else if isMcStatusMsr msr then
    if p.isSafetyVm then
      (0, p.mcStatus msr &&& ~~~(msrIa32McStatusAddrv ||| msrIa32McStatusMiscv), vcpu)
    else (-eacces, 0#64, vcpu)
  else if isX2apicMsr msr then
    let (err, v) := vlapicX2apicRead vcpu msr
    (err, v, vcpu)
  else (-eacces, 0#64, vcpu)

/-- A `WRMSR` that exits: `vcpu_thread` turns an error into an exception. -/
def wrmsrExit (p : Platform) (rdtsc : Word) (vcpu : Vcpu) (msr : U32) (v : Word) : Vcpu :=
  let (ret, vcpu) := wrmsrVmexitHandler p rdtsc vcpu msr v
  if ret < 0 then injectGp vcpu else vcpu

/-! ## The handlers on the view

A handler either succeeds with a view that its specification gives, or fails and leaves the view
that it was called on. `Handles` has both cases. -/

namespace VcpuView

variable (p : Platform) (v : VcpuView)

/-- Whether the guest sees the execute-disable feature. -/
def xdFeature : Bool :=
  decide ((if v.guestMsrs .miscEnable &&& msrIa32MiscEnableLimitCpuid ≠ 0#64 ∧
      p.vcpuidXlevel < 0x80000001#32 then p.cpuid2Edx
    else if v.guestMsrs .miscEnable &&& msrIa32MiscEnableXdDisable ≠ 0#64 then
      p.cpuid80000001Edx &&& ~~~cpuidEdxXdBitAvil
    else p.cpuid80000001Edx) &&& cpuidEdxXdBitAvil ≠ 0#32)

/-- A guest write to `IA32_PAT`. -/
def writePat (value : Word) : Option VcpuView :=
  if patInvalid value then none
  else some { v with
    guestMsrs := Function.update v.guestMsrs .pat value
    vmcs.guestPat := if v.cr0 &&& cr0Cd = 0#64 then value else v.vmcs.guestPat }

/-- The checks of `write_efer_msr`. -/
structure EferValid (value : Word) : Prop where
  mask : (v.efer ^^^ value) &&& ~~~msrIa32EferMask = 0#64
  lme : (v.efer ^^^ value) &&& eferLme = 0#64 ∨ v.cr0 &&& cr0Pg = 0#64
  nxe : v.xdFeature p = true ∨ value &&& eferNxe = 0#64

theorem eferValid_iff (value : Word) : v.EferValid p value ↔
    (v.efer ^^^ value) &&& ~~~msrIa32EferMask = 0#64 ∧
    ((v.efer ^^^ value) &&& eferLme = 0#64 ∨ v.cr0 &&& cr0Pg = 0#64) ∧
    (v.xdFeature p = true ∨ value &&& eferNxe = 0#64) :=
  ⟨fun h => ⟨h.mask, h.lme, h.nxe⟩, fun h => ⟨h.1, h.2.1, h.2.2⟩⟩

instance (value : Word) : Decidable (v.EferValid p value) :=
  decidable_of_iff' _ (v.eferValid_iff p value)

/-- A guest write to `IA32_EFER`. -/
def writeEfer (value : Word) : Option VcpuView :=
  if v.EferValid p value then
    let newVal := if (v.efer ^^^ value) &&& eferLma ≠ 0#64 then
        (value &&& ~~~eferLma) ||| (v.efer &&& eferLma)
      else value
    some { v.setEfer newVal with
      events := if (v.efer ^^^ value) &&& eferNxe ≠ 0#64 then v.events.makeRequest .eptFlush
        else v.events }
  else none

/-- What an accepted write leaves in `IA32_MISC_ENABLE`. -/
def miscEnableAfter (value : Word) : Word :=
  if (value ^^^ v.guestMsrs .miscEnable) &&& msrIa32MiscEnableMask ≠ 0#64 then
    (v.guestMsrs .miscEnable &&& ~~~msrIa32MiscEnableMask) ||| (value &&& msrIa32MiscEnableMask)
  else v.guestMsrs .miscEnable

/-- A guest write to `IA32_MISC_ENABLE`. -/
def writeMiscEnable (value : Word) : Option VcpuView :=
  if (value ^^^ v.guestMsrs .miscEnable) &&& ~~~msrIa32MiscEnableMask ≠ 0#64 then none
  else
    let w := { v with
      guestMsrs := Function.update v.guestMsrs .miscEnable (v.miscEnableAfter value) }
    if value &&& msrIa32MiscEnableXdDisable ≠ 0#64 ∧ v.efer &&& eferNxe ≠ 0#64 then
      some { w.setEfer (v.efer &&& ~~~eferNxe) with events := v.events.makeRequest .eptFlush }
    else some w

end VcpuView

/-- The result of a handler: it succeeds and leaves the view `w`, or it fails and
leaves the view `v` it was called with. -/
def Handles (r : ℤ × Vcpu) (v : VcpuView) (w : Option VcpuView) : Prop :=
  match w with
  | some w => r.1 = 0 ∧ r.2.view = w
  | none => r.1 < 0 ∧ r.2.view = v

theorem neg_eacces : -eacces < 0 := by decide

theorem neg_einval : -einval < 0 := by decide

section
variable (p : Platform) (vcpu : Vcpu) (value : Word)

theorem writePatMsr_handles :
    Handles (writePatMsr vcpu value) vcpu.view (vcpu.view.writePat value) := by
  rw [writePatMsr, VcpuView.writePat]
  by_cases hinv : patInvalid value = true
  · rw [if_pos hinv, if_pos hinv]
    exact ⟨neg_einval, rfl⟩
  · rw [if_neg hinv, if_neg hinv]
    obtain ⟨v₁, h₁, hv₁⟩ := vcpuGetCr0_spec (vcpuSetGuestMsr vcpu .pat value)
    rw [vcpuSetGuestMsr_view] at h₁ hv₁
    dsimp only at h₁ hv₁ ⊢
    rw [h₁]
    dsimp only
    by_cases hcd : vcpu.view.cr0 &&& cr0Cd = 0#64
    · rw [if_pos hcd, if_pos hcd]
      have hview : ({ v₁ with vmcs.guestPat := value } : Vcpu).view =
          { v₁.view with vmcs.guestPat := value } := rfl
      exact ⟨rfl, by rw [hview, hv₁]⟩
    · rw [if_neg hcd, if_neg hcd]
      exact ⟨rfl, hv₁⟩

theorem guestCpuid80000001Edx_xd :
    (guestCpuid80000001Edx p vcpu &&& cpuidEdxXdBitAvil = 0#32) ↔ vcpu.view.xdFeature p = false := by
  rw [guestCpuid80000001Edx, VcpuView.xdFeature, decide_eq_false_iff_not, not_not]
  rfl

theorem writeEferMsr_handles :
    Handles (writeEferMsr p vcpu value) vcpu.view (vcpu.view.writeEfer p value) := by
  obtain ⟨v₁, h₁, hv₁⟩ := vcpuGetEfer_spec vcpu
  obtain ⟨v₂, h₂, hv₂⟩ := isPagingEnabled_spec v₁
  rw [hv₁] at h₂ hv₂
  rw [writeEferMsr, h₁, VcpuView.writeEfer]
  dsimp only
  by_cases hmask : (vcpu.view.efer ^^^ value) &&& ~~~msrIa32EferMask = 0#64
  swap
  · rw [if_pos hmask, if_neg (fun h => hmask h.mask)]
    exact ⟨neg_eacces, hv₁⟩
  rw [if_neg (not_not.mpr hmask)]
  -- the read of CR0 is skipped when LME stays the same
  obtain ⟨v₃, h₃, hv₃⟩ : ∃ v₃,
      (if (vcpu.view.efer ^^^ value) &&& eferLme ≠ 0#64 then isPagingEnabled v₁ else (false, v₁)) =
        (decide ((vcpu.view.efer ^^^ value) &&& eferLme ≠ 0#64 ∧ vcpu.view.cr0 &&& cr0Pg ≠ 0#64),
          v₃) ∧ v₃.view = vcpu.view := by
    by_cases hlme : (vcpu.view.efer ^^^ value) &&& eferLme = 0#64
    · exact ⟨v₁, by simp [hlme], hv₁⟩
    · exact ⟨v₂, by simp [hlme, h₂], hv₂⟩
  rw [h₃]
  dsimp only
  by_cases hlme : (vcpu.view.efer ^^^ value) &&& eferLme = 0#64 ∨ vcpu.view.cr0 &&& cr0Pg = 0#64
  swap
  · rw [if_pos (by simpa [not_or] using hlme), if_neg (fun h => hlme h.lme)]
    exact ⟨neg_eacces, hv₃⟩
  rw [if_neg (by simpa [or_iff_not_imp_left] using hlme)]
  have hxd := guestCpuid80000001Edx_xd p v₃
  rw [hv₃] at hxd
  by_cases hnxe : vcpu.view.xdFeature p = true ∨ value &&& eferNxe = 0#64
  swap
  · have hnot := not_or.mp hnxe
    rw [if_pos ⟨hxd.mpr (Bool.eq_false_iff.mpr hnot.1), hnot.2⟩, if_neg (fun h => hnxe h.nxe)]
    exact ⟨neg_eacces, hv₃⟩
  have hvalid : vcpu.view.EferValid p value := ⟨hmask, hlme, hnxe⟩
  rw [if_neg (fun h => hnxe.elim (fun hx => Bool.false_ne_true ((hxd.mp h.1).symm.trans hx)) h.2),
    if_pos hvalid]
  by_cases hchg : (vcpu.view.efer ^^^ value) &&& eferNxe = 0#64
  · rw [if_neg (not_not.mpr hchg), if_neg (not_not.mpr hchg)]
    exact ⟨rfl, by rw [vcpuSetEfer_view, hv₃]; rfl⟩
  · rw [if_pos hchg, if_pos hchg]
    exact ⟨rfl, by rw [vcpuMakeRequest_view, vcpuSetEfer_view, hv₃]; rfl⟩

theorem setGuestIa32MiscEnable_handles :
    Handles (setGuestIa32MiscEnable vcpu value) vcpu.view (vcpu.view.writeMiscEnable value) := by
  rw [setGuestIa32MiscEnable, VcpuView.writeMiscEnable]
  have hmsrs : vcpu.view.guestMsrs = vcpu.guestMsrs := rfl
  rw [hmsrs]
  dsimp only
  by_cases hmask : (value ^^^ vcpu.guestMsrs .miscEnable) &&& ~~~msrIa32MiscEnableMask = 0#64
  swap
  · rw [if_pos hmask, if_pos hmask]
    exact ⟨neg_eacces, rfl⟩
  rw [if_neg (not_not.mpr hmask), if_neg (not_not.mpr hmask)]
  obtain ⟨v₁, h₁, hv₁⟩ : ∃ v₁,
      (if (value ^^^ vcpu.guestMsrs .miscEnable) &&& msrIa32MiscEnableMask ≠ 0#64 then
        vcpuSetGuestMsr vcpu .miscEnable
          ((vcpu.guestMsrs .miscEnable &&& ~~~msrIa32MiscEnableMask) |||
            (value &&& msrIa32MiscEnableMask))
      else vcpu) = v₁ ∧ v₁.view = { vcpu.view with
        guestMsrs := Function.update vcpu.guestMsrs .miscEnable
          (vcpu.view.miscEnableAfter value) } := by
    refine ⟨_, rfl, ?_⟩
    rw [VcpuView.miscEnableAfter, hmsrs]
    by_cases hchg : (value ^^^ vcpu.guestMsrs .miscEnable) &&& msrIa32MiscEnableMask = 0#64
    · rw [if_neg (not_not.mpr hchg), if_neg (not_not.mpr hchg), Function.update_eq_self]
      rfl
    · rw [if_pos hchg, if_pos hchg]
      rfl
  rw [h₁]
  obtain ⟨v₂, h₂, hv₂⟩ := vcpuGetEfer_spec v₁
  rw [hv₁] at h₂ hv₂
  rw [h₂]
  dsimp only
  by_cases hxd : value &&& msrIa32MiscEnableXdDisable = 0#64
  · rw [if_neg (not_not.mpr hxd), if_neg (fun h => h.1 hxd)]
    exact ⟨rfl, hv₁⟩
  rw [if_pos hxd]
  by_cases hnxe : vcpu.view.efer &&& eferNxe = 0#64
  · rw [if_neg (not_not.mpr hnxe), if_neg (fun h => h.2 hnxe)]
    exact ⟨rfl, hv₂⟩
  · rw [if_pos hnxe, if_pos ⟨hxd, hnxe⟩]
    exact ⟨rfl, by rw [vcpuMakeRequest_view, vcpuSetEfer_view, hv₂]; rfl⟩

end

/-! ## Faulting writes

The handlers check before they write. The ICR is the exception: its halves are stored first. -/

section
variable {v : VcpuView} {r : ℤ × Vcpu} {w : Option VcpuView}

/-- If the handler fails, it leaves the view. -/
def LeavesOnFault (v : VcpuView) (r : ℤ × Vcpu) : Prop := r.1 < 0 → r.2.view = v

theorem Handles.leavesOnFault (h : Handles r v w) : LeavesOnFault v r := by
  intro hret
  cases w with
  | none => exact h.2
  | some w => exact absurd hret (by rw [h.1]; decide)

theorem LeavesOnFault.of_zero {vcpu : Vcpu} : LeavesOnFault v (0, vcpu) :=
  fun h => absurd h (show ¬ (0 : ℤ) < 0 by decide)

theorem LeavesOnFault.of_view {vcpu : Vcpu} {ret : ℤ} : LeavesOnFault vcpu.view (ret, vcpu) :=
  fun _ => rfl

theorem LeavesOnFault.ite {c : Prop} [Decidable c] {r' : ℤ × Vcpu} (h : LeavesOnFault v r)
    (h' : LeavesOnFault v r') : LeavesOnFault v (if c then r else r') := by
  split
  · exact h
  · exact h'

end

section
variable (p : Platform) (rdtsc : Word) (vcpu : Vcpu) (msr : U32) (val : Word)

theorem icrAccessRet_neg : icrAccessRet val < 0 ↔ val.setWidth 32 &&& icrReservedBits ≠ 0#32 := by
  rw [icrAccessRet]
  split
  · next h => exact ⟨fun _ => h, fun _ => by decide⟩
  · next h => exact ⟨fun h' => absurd h' (by decide), fun h' => absurd h' h⟩

/-- The halves of the ICR as a write leaves them. -/
def icrHalves : U32 × U32 :=
  ((val >>> 32).setWidth 32, (val &&& 0xC0FFF#64).setWidth 32 ||| 0x4000#32)

/-- Every handler but the one of the ICR fails before it changes anything. -/
theorem wrmsrVmexitHandler_fault (hmsr : msr ≠ msrIa32ExtApicIcr) :
    LeavesOnFault vcpu.view (wrmsrVmexitHandler p rdtsc vcpu msr val) := by
  rw [wrmsrVmexitHandler, vlapicX2apicWrite, if_neg hmsr]
  refine .ite .of_zero (.ite .of_zero (.ite .of_zero (.ite .of_view (.ite ?_ (.ite ?_ (.ite ?_
    (.ite .of_zero (.ite .of_view (.ite .of_view (.ite .of_view .of_view))))))))))
  · exact (writePatMsr_handles vcpu val).leavesOnFault
  · exact (writeEferMsr_handles p vcpu val).leavesOnFault
  · exact (setGuestIa32MiscEnable_handles vcpu val).leavesOnFault

theorem wrmsrVmexitHandler_icr : wrmsrVmexitHandler p rdtsc vcpu msrIa32ExtApicIcr val =
    (icrAccessRet val, { vcpu with
      lapic.icrHi := (icrHalves val).1
      lapic.icrLo := (icrHalves val).2 }) := by
  rw [wrmsrVmexitHandler, if_neg (by decide), if_neg (by decide), if_neg (by decide),
    if_neg (by decide), if_neg (by decide), if_neg (by decide), if_neg (by decide),
    if_neg (by decide), if_neg (by decide), if_neg (by decide), if_pos (by decide)]
  rfl

theorem wrmsrExit_of_neg (hret : (wrmsrVmexitHandler p rdtsc vcpu msr val).1 < 0) :
    (wrmsrExit p rdtsc vcpu msr val).view =
      (wrmsrVmexitHandler p rdtsc vcpu msr val).2.view.injectGp := by
  rw [wrmsrExit]
  dsimp only
  rw [if_pos hret]
  rfl

/-- **A `WRMSR` that faults leaves nothing but the exception**, exactly when it is not a
write to the ICR with a reserved bit set and a destination or command that the ICR does
not hold already. -/
theorem faulting_wrmsr_changes_nothing :
    ((wrmsrVmexitHandler p rdtsc vcpu msr val).1 < 0 →
      (wrmsrExit p rdtsc vcpu msr val).view = vcpu.view.injectGp) ↔
    ¬ (msr = msrIa32ExtApicIcr ∧ val.setWidth 32 &&& icrReservedBits ≠ 0#32 ∧
      (vcpu.lapic.icrHi, vcpu.lapic.icrLo) ≠ icrHalves val) := by
  by_cases hmsr : msr = msrIa32ExtApicIcr
  · subst hmsr
    rw [wrmsrVmexitHandler_icr]
    constructor
    · rintro h ⟨-, hres, hne⟩
      have hret := (icrAccessRet_neg val).mpr hres
      have hview := h hret
      rw [wrmsrExit_of_neg _ _ _ _ _ (by rwa [wrmsrVmexitHandler_icr]), wrmsrVmexitHandler_icr]
        at hview
      have hlapic := congrArg VcpuView.lapic hview
      exact hne (Prod.ext (congrArg LapicRegs.icrHi hlapic).symm
        (congrArg LapicRegs.icrLo hlapic).symm)
    · intro h hret
      have hsame : (vcpu.lapic.icrHi, vcpu.lapic.icrLo) = icrHalves val := by
        by_contra hne
        exact h ⟨rfl, (icrAccessRet_neg val).mp hret, hne⟩
      rw [wrmsrExit_of_neg _ _ _ _ _ (by rwa [wrmsrVmexitHandler_icr]), wrmsrVmexitHandler_icr,
        ← hsame]
  · refine ⟨fun _ h => hmsr h.1, fun _ hret => ?_⟩
    rw [wrmsrExit_of_neg _ _ _ _ _ hret, wrmsrVmexitHandler_fault p rdtsc vcpu msr val hmsr hret]

end

/-- A write of the ICR with bit 12 set faults, and its destination stays in the ICR. -/
theorem faulting_icr_write_stored :
    let vcpu := Vcpu.cleared ⟨0#64, 0#64⟩
    let val := 0x100001000#64
    (wrmsrVmexitHandler typicalPlatform 0#64 vcpu msrIa32ExtApicIcr val).1 < 0 ∧
      (wrmsrExit typicalPlatform 0#64 vcpu msrIa32ExtApicIcr val).lapic.icrHi = 1#32 ∧
      vcpu.lapic.icrHi = 0#32 := by
  decide

end Acrn
