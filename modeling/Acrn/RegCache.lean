import Acrn.ControlRegs
import Acrn.Lib.AccessLog

/-!
# The cached registers of a vCPU

`vcpu.c`: between a VM exit and the next VM entry the registers of a guest are in three
places. The general-purpose registers are in `run_ctx`, where `vmx_vmrun` saves them and
loads them from, RSP excepted. RIP, RFLAGS, EFER, CR0 and CR4 are in the VMCS, and `run_ctx`
has a copy of them that is valid if a bit of `reg_cached` says so, and that `run_vcpu` still
has to write back if a bit of `reg_updated` says so. RSP is in both.

What is shown is that none of this is seen from outside: whatever calls are made between an
exit and an entry, they answer as one store of registers would, and the guest goes on with
what that store holds.
-/

namespace Acrn

open AccessLog

/-! ## State -/

/-- `CPU_REG_RAX`. -/
def cpuRegRax : Fin 16 := 0
/-- `CPU_REG_RCX`. -/
def cpuRegRcx : Fin 16 := 1
/-- `CPU_REG_RDX`. -/
def cpuRegRdx : Fin 16 := 2
/-- `CPU_REG_RBX`. -/
def cpuRegRbx : Fin 16 := 3
/-- `CPU_REG_RSP`. -/
def cpuRegRsp : Fin 16 := 4
/-- `CPU_REG_RSI`. -/
def cpuRegRsi : Fin 16 := 6

/-- `vm_exit_cr_access_reg_idx`. -/
def vmExitCrAccessRegIdx (exitQual : Word) : Fin 16 :=
  Fin.ofNat 16 ((exitQual &&& 0xF00#64) >>> 8).toNat

/-- All registers of a vCPU: the control registers with their copies, the saved registers
of `run_ctx`, and the fields of the VMCS for the rest. No function sets the bits of CR0 and
CR4 in `reg_updated`. -/
structure RegContext where
  vcpu : Vcpu
  /-- `cpu_regs.longs` -/
  longs : Fin 16 → Word
  rip : Word
  rflags : Word
  ripUpdated : Bool
  rspUpdated : Bool
  rflagsUpdated : Bool
  ripCached : Bool
  rflagsCached : Bool
  launched : Bool
  guestRip : Word
  guestRsp : Word
  guestRflags : Word

namespace RegContext

variable (s : RegContext)

/-! ## Access functions -/

/-- `vcpu_get_gpreg`. -/
def getGpreg (reg : Fin 16) : Word := s.longs reg

/-- `vcpu_set_gpreg`. -/
def setGpreg (reg : Fin 16) (val : Word) : RegContext :=
  { s with longs := Function.update s.longs reg val }

/-- `vcpu_get_rip`. -/
def getRip : Word × RegContext :=
  let s := if !s.ripUpdated && !s.ripCached then { s with ripCached := true, rip := s.guestRip }
    else s
  (s.rip, s)

/-- `vcpu_set_rip`. -/
def setRip (val : Word) : RegContext := { s with rip := val, ripUpdated := true }

/-- `vcpu_set_rsp`. -/
def setRsp (val : Word) : RegContext :=
  { s with longs := Function.update s.longs cpuRegRsp val, rspUpdated := true }

/-- `vcpu_get_efer`. -/
def getEfer : Word × RegContext :=
  let (efer, vcpu) := vcpuGetEfer s.vcpu
  (efer, { s with vcpu })

/-- `vcpu_set_efer`. -/
def setEfer (val : Word) : RegContext := { s with vcpu := vcpuSetEfer s.vcpu val }

/-- `vcpu_get_rflags`. -/
def getRflags : Word × RegContext :=
  let s := if !s.rflagsUpdated && !s.rflagsCached then
      let s := { s with rflagsCached := true }
      if s.launched then { s with rflags := s.guestRflags } else s
    else s
  (s.rflags, s)

/-- `vcpu_set_rflags`. -/
def setRflags (val : Word) : RegContext := { s with rflags := val, rflagsUpdated := true }

/-- `vcpu_get_cr0`. -/
def getCr0 : Word × RegContext :=
  let (cr0, vcpu) := vcpuGetCr0 s.vcpu
  (cr0, { s with vcpu })

/-- `vcpu_set_cr0` for a guest. -/
def setCr0 (p : Platform) (mem : GuestMem) (val : Word) : RegContext :=
  { s with vcpu := vmxWriteCr0 p mem s.vcpu val false }

/-- `vcpu_get_cr4`. -/
def getCr4 : Word × RegContext :=
  let (cr4, vcpu) := vcpuGetCr4 s.vcpu
  (cr4, { s with vcpu })

/-- `vcpu_set_cr4` for a guest. -/
def setCr4 (p : Platform) (mem : GuestMem) (val : Word) : RegContext :=
  { s with vcpu := vmxWriteCr4 p mem s.vcpu val false }

/-- `vcpu_retain_rip`. -/
def retainRip : RegContext := { s with vcpu.events.instLen := 0#32 }

/-! ## `run_vcpu` -/

/-- The registers that `run_vcpu` writes back. -/
def flushRegs : RegContext :=
  let s := if s.ripUpdated then { s with ripUpdated := false, guestRip := s.rip } else s
  let s := if s.rspUpdated then { s with rspUpdated := false, guestRsp := s.longs cpuRegRsp } else s
  let s := { s with vcpu := flushEfer s.vcpu }
  if s.rflagsUpdated then { s with rflagsUpdated := false, guestRflags := s.rflags } else s

/-- `run_vcpu` up to the VM entry. -/
def prepareEntry : RegContext :=
  let s := s.flushRegs
  if s.launched then
    let instlen := s.vcpu.events.instLen
    let (rip, s) := s.getRip
    { s with guestRip := rip + instlen.setWidth 64 }
  else { s with launched := true }

end RegContext

/-- What a guest leaves in its registers, what other vCPUs request meanwhile, and
`VMX_EXIT_INSTR_LEN`. -/
structure GuestRun where
  control : GuestActivity
  longs : Fin 16 → Word
  rip : Word
  rsp : Word
  rflags : Word
  nmi : Bool
  eptFlush : Bool
  instLen : U32

/-- The events of a vCPU at its exit. -/
def VcpuEvents.exited (s : VcpuEvents) (guest : GuestRun) : VcpuEvents :=
  let s := { hardwareExit s with instLen := guest.instLen }
  let s := if guest.nmi then s.makeRequest .nmi else s
  if guest.eptFlush then s.makeRequest .eptFlush else s

/-- The VM entry, the exit after it, and `run_vcpu` from there on. RSP is taken from the
VMCS. -/
def RegContext.exitGuest (s : RegContext) (guest : GuestRun) : RegContext :=
  let vcpu := enterGuest s.vcpu { guest.control with events := s.vcpu.events.exited guest }
  let csAttr := vcpu.vmcs.csAttr
  let (ia32Efer, vcpu) := vcpuGetEfer vcpu
  let (cr0, vcpu) := vcpuGetCr0 vcpu
  { s with
    vcpu := setVcpuMode vcpu csAttr ia32Efer cr0
    longs := Function.update guest.longs cpuRegRsp guest.rsp
    guestRip := guest.rip
    guestRsp := guest.rsp
    guestRflags := guest.rflags
    ripCached := false
    rflagsCached := false }

/-- `run_vcpu`. -/
def RegContext.runVcpu (s : RegContext) (guest : GuestRun) : RegContext :=
  s.prepareEntry.exitGuest guest

/-! ## Registers

The registers are read in two ways: `regs` is what the access functions would answer now, and
`held` what an entry would load. Over a whole interval they are compared with a log of what was got
and set. -/

/-- The names of the registers. -/
inductive GuestReg where
  | rip
  | rflags
  | efer
  | cr0
  | cr4
  | gpr (i : Fin 16)
  deriving DecidableEq

namespace RegContext

/-- What the guest has in its registers, as an entry would load them and an exit leaves
them. -/
def held (s : RegContext) : GuestReg → Word
  | .rip => s.guestRip
  | .rflags => s.guestRflags
  | .efer => s.vcpu.vmcs.guestEfer
  | .cr0 => s.vcpu.vmcs.virtualCr0
  | .cr4 => s.vcpu.vmcs.virtualCr4
  | .gpr i => if i = cpuRegRsp then s.guestRsp else s.longs i

/-- What the registers are read as. -/
def regs (s : RegContext) : GuestReg → Word
  | .rip => if s.ripUpdated || s.ripCached then s.rip else s.guestRip
  | .rflags => if s.rflagsUpdated || s.rflagsCached then s.rflags else s.guestRflags
  | .efer => s.vcpu.view.efer
  | .cr0 => s.vcpu.view.cr0
  | .cr4 => s.vcpu.view.cr4
  | .gpr i => s.longs i

end RegContext

/-- What was got and set, the earliest first. -/
abbrev RegLog : Type := List (Access GuestReg Word)

/-- The calls between an exit and an entry. -/
inductive RegCall where
  | getGpreg (reg : Fin 16)
  | setGpreg (reg : Fin 16) (val : Word)
  | getRip
  | setRip (val : Word)
  | setRsp (val : Word)
  | getEfer
  | setEfer (val : Word)
  | getRflags
  | setRflags (val : Word)
  | getCr0
  | setCr0 (mem : GuestMem) (val : Word)
  | getCr4
  | setCr4 (mem : GuestMem) (val : Word)

/-- What a call gets or sets. A write to CR0 or CR4 that is rejected sets nothing, and one
that is accepted sets the value that the guest sees from then on; a write to CR0 sets EFER
as well. -/
def RegContext.call (p : Platform) (s : RegContext) : RegCall → RegLog × RegContext
  | .getGpreg reg => ([.get (.gpr reg) (s.getGpreg reg)], s)
  | .setGpreg reg val => ([.set (.gpr reg) val], s.setGpreg reg val)
  | .getRip => ([.get .rip s.getRip.1], s.getRip.2)
  | .setRip val => ([.set .rip val], s.setRip val)
  | .setRsp val => ([.set (.gpr cpuRegRsp) val], s.setRsp val)
  | .getEfer => ([.get .efer s.getEfer.1], s.getEfer.2)
  | .setEfer val => ([.set .efer val], s.setEfer val)
  | .getRflags => ([.get .rflags s.getRflags.1], s.getRflags.2)
  | .setRflags val => ([.set .rflags val], s.setRflags val)
  | .getCr0 => ([.get .cr0 s.getCr0.1], s.getCr0.2)
  | .setCr0 mem val =>
    (match s.vcpu.view.writeCr0 p mem val with
      | none => []
      | some w => [.set .cr0 w.cr0, .set .efer w.efer], s.setCr0 p mem val)
  | .getCr4 => ([.get .cr4 s.getCr4.1], s.getCr4.2)
  | .setCr4 mem val =>
    (match s.vcpu.view.writeCr4 p mem val with
      | none => []
      | some w => [.set .cr4 w.cr4], s.setCr4 p mem val)

/-- Two views with the same registers. -/
structure SameRegs (v w : VcpuView) : Prop where
  cr0 : w.cr0 = v.cr0
  cr4 : w.cr4 = v.cr4
  efer : w.efer = v.efer
  entryEfer : w.entryEfer = v.entryEfer
  virtualCr0 : w.vmcs.virtualCr0 = v.vmcs.virtualCr0
  virtualCr4 : w.vmcs.virtualCr4 = v.vmcs.virtualCr4

/-- What may happen after an exit: calls, in any order, and between them anything that
leaves the control registers alone. -/
inductive Interval (p : Platform) (s₀ : RegContext) :
    List RegCall → RegLog → RegContext → Prop where
  | exit : Interval p s₀ [] [] s₀
  | call {calls : List RegCall} {log : RegLog} {s : RegContext} (c : RegCall) :
      Interval p s₀ calls log s →
      Interval p s₀ (calls ++ [c]) (log ++ (s.call p c).1) (s.call p c).2
  | other {calls : List RegCall} {log : RegLog} {s : RegContext} {vcpu : Vcpu} :
      Interval p s₀ calls log s → SameRegs s.vcpu.view vcpu.view →
      Interval p s₀ calls log { s with vcpu }

/-! ## One call

`CacheOk` is the invariant of the copies: a valid copy that is not to be written back is the one of
the VMCS. A get may make a copy valid, which changes nothing that is read. -/

/-- A copy that is not to be written back is one of the VMCS, and the control registers read
as the VMCS has them. -/
structure RegContext.CacheOk (s : RegContext) : Prop where
  launched : s.launched = true
  rip : s.ripUpdated = false → s.ripCached = true → s.rip = s.guestRip
  rflags : s.rflagsUpdated = false → s.rflagsCached = true → s.rflags = s.guestRflags
  cr0 : s.vcpu.view.cr0 = s.vcpu.view.vmcs.virtualCr0
  cr4 : s.vcpu.view.cr4 = s.vcpu.view.vmcs.virtualCr4
  efer : s.vcpu.view.entryEfer = s.vcpu.view.efer

section
variable {p : Platform} {mem : GuestMem} {v w : VcpuView} {val : Word}

theorem SameRegs.refl (v : VcpuView) : SameRegs v v := ⟨rfl, rfl, rfl, rfl, rfl, rfl⟩

theorem SameRegs.of_eq (h : w = v) : SameRegs v w := h ▸ .refl v

/-- A step that leaves all control state alone leaves the registers alone. -/
theorem SameControls.sameRegs (h : SameControls v w) : SameRegs v w := by
  obtain ⟨o, ho⟩ := h.vmcs
  exact ⟨h.cr0, h.cr4, h.efer, h.entryEfer, by rw [ho]; rfl, by rw [ho]; rfl⟩

/-- What an accepted write to CR0 does to the control registers. -/
theorem writeCr0_regs (h : v.writeCr0 p mem val = some w) (hefer : v.entryEfer = v.efer) :
    w.cr4 = v.cr4 ∧ w.vmcs.virtualCr4 = v.vmcs.virtualCr4 ∧ w.cr0 = w.vmcs.virtualCr0 ∧
      w.entryEfer = w.efer := by
  obtain ⟨-, u, hu, rfl⟩ := writeCr0_eq_some h
  rcases switchPaging_cases hu with ⟨pdpte, rfl, -⟩ | ⟨-, -, rfl⟩ | ⟨-, rfl⟩
  · exact ⟨rfl, rfl, rfl, hefer⟩
  · exact ⟨rfl, rfl, rfl, rfl⟩
  · exact ⟨rfl, rfl, rfl, rfl⟩

/-- What an accepted write to CR4 does to the control registers. -/
theorem writeCr4_regs (h : v.writeCr4 p mem val = some w) (hefer : v.entryEfer = v.efer) :
    w.cr0 = v.cr0 ∧ w.vmcs.virtualCr0 = v.vmcs.virtualCr0 ∧ w.efer = v.efer ∧
      w.cr4 = w.vmcs.virtualCr4 ∧ w.entryEfer = w.efer := by
  obtain ⟨-, pdpte, events, rfl⟩ := writeCr4_eq_some h
  exact ⟨rfl, rfl, rfl, rfl, hefer⟩

end

namespace RegContext

variable {p : Platform} {s : RegContext}

/-- A step that leaves the control registers alone. -/
theorem CacheOk.other (h : s.CacheOk) {vcpu : Vcpu} (hsame : SameRegs s.vcpu.view vcpu.view) :
    CacheOk { s with vcpu } :=
  ⟨h.launched, h.rip, h.rflags, by rw [hsame.cr0, h.cr0, hsame.virtualCr0],
    by rw [hsame.cr4, h.cr4, hsame.virtualCr4], by rw [hsame.entryEfer, h.efer, hsame.efer]⟩

/-- The registers are read as before if the control state is the same. -/
theorem regs_other {vcpu : Vcpu} (hsame : SameRegs s.vcpu.view vcpu.view) :
    regs { s with vcpu } = s.regs := by
  funext r
  cases r
  case efer => exact hsame.efer
  case cr0 => exact hsame.cr0
  case cr4 => exact hsame.cr4
  all_goals rfl

/-- A call that answers a get and changes copies only. -/
structure Gets (s : RegContext) (r : GuestReg) (a : Word) (s' : RegContext) : Prop where
  value : a = s.regs r
  regs : s'.regs = s.regs
  cacheOk : s.CacheOk → s'.CacheOk

/-- A get that goes to the copies of the control registers. -/
theorem Gets.control {r : GuestReg} {a : Word} {vcpu : Vcpu} (ha : a = s.regs r)
    (hview : vcpu.view = s.vcpu.view) : s.Gets r a { s with vcpu } :=
  ⟨ha, regs_other (.of_eq hview), fun h => h.other (.of_eq hview)⟩

theorem getEfer_gets : s.Gets .efer s.getEfer.1 s.getEfer.2 := by
  obtain ⟨vcpu, hget, hview⟩ := vcpuGetEfer_spec s.vcpu
  rw [getEfer, hget]
  exact .control rfl hview

theorem getCr0_gets : s.Gets .cr0 s.getCr0.1 s.getCr0.2 := by
  obtain ⟨vcpu, hget, hview⟩ := vcpuGetCr0_spec s.vcpu
  rw [getCr0, hget]
  exact .control rfl hview

theorem getCr4_gets : s.Gets .cr4 s.getCr4.1 s.getCr4.2 := by
  obtain ⟨vcpu, hget, hview⟩ := vcpuGetCr4_spec s.vcpu
  rw [getCr4, hget]
  exact .control rfl hview

/-- `vcpu_get_rip` answers from the copy if there is one, and makes one otherwise. -/
theorem getRip_gets : s.Gets .rip s.getRip.1 s.getRip.2 := by
  cases hup : s.ripUpdated <;> cases hca : s.ripCached
  · -- the copy is made now
    refine ⟨by simp [getRip, regs, hup, hca], ?_, fun h => ?_⟩
    · funext r
      cases r <;> simp [getRip, regs, hup, hca]
    · have hget : s.getRip.2 = { s with ripCached := true, rip := s.guestRip } := by
        simp [getRip, hup, hca]
      rw [hget]
      exact ⟨h.launched, fun _ _ => rfl, h.rflags, h.cr0, h.cr4, h.efer⟩
  all_goals
    have hget : s.getRip = (s.rip, s) := by simp [getRip, hup, hca]
    rw [hget]
    exact ⟨by simp [regs, hup, hca], rfl, id⟩

/-- `vcpu_get_rflags` does the same, except before the first launch. -/
theorem getRflags_gets (hl : s.launched = true) : s.Gets .rflags s.getRflags.1 s.getRflags.2 := by
  cases hup : s.rflagsUpdated <;> cases hca : s.rflagsCached
  · refine ⟨by simp [getRflags, regs, hup, hca, hl], ?_, fun h => ?_⟩
    · funext r
      cases r <;> simp [getRflags, regs, hup, hca, hl]
    · have hget : s.getRflags.2 = { s with rflagsCached := true, rflags := s.guestRflags } := by
        simp [getRflags, hup, hca, hl]
      rw [hget]
      exact ⟨h.launched, h.rip, fun _ _ => rfl, h.cr0, h.cr4, h.efer⟩
  all_goals
    have hget : s.getRflags = (s.rflags, s) := by simp [getRflags, hup, hca]
    rw [hget]
    exact ⟨by simp [regs, hup, hca], rfl, id⟩

/-! ## Any call

Whatever the call, it answers as one store of registers would and leaves the store that it should.
This is the only fact about calls that is used of an interval. -/

theorem setGpreg_regs (reg : Fin 16) (val : Word) :
    (s.setGpreg reg val).regs = Function.update s.regs (.gpr reg) val := by
  funext r
  cases r <;> simp [setGpreg, regs, Function.update]

theorem setRip_regs (val : Word) : (s.setRip val).regs = Function.update s.regs .rip val := by
  funext r
  cases r <;> simp [setRip, regs]

theorem setRsp_regs (val : Word) :
    (s.setRsp val).regs = Function.update s.regs (.gpr cpuRegRsp) val := by
  funext r
  cases r <;> simp [setRsp, regs, Function.update]

theorem setEfer_regs (val : Word) : (s.setEfer val).regs = Function.update s.regs .efer val := by
  funext r
  cases r <;> simp [setEfer, regs, vcpuSetEfer_view, VcpuView.setEfer]

theorem setRflags_regs (val : Word) :
    (s.setRflags val).regs = Function.update s.regs .rflags val := by
  funext r
  cases r <;> simp [setRflags, regs]

/-- What a call does: what it gets is what the registers are read as, and they are read
afterwards as its sets make them. -/
structure CallOk (s : RegContext) (call : RegLog × RegContext) : Prop where
  answered : Answered s.regs call.1
  regs : call.2.regs = replay s.regs call.1
  cacheOk : call.2.CacheOk

/-- A get is a call of the log with the answer that the store gives. -/
theorem Gets.callOk {r : GuestReg} {a : Word} {s' : RegContext} (h : s.Gets r a s')
    (hs : s.CacheOk) : s.CallOk ([.get r a], s') :=
  ⟨answered_get h.value, h.regs, h.cacheOk hs⟩

/-- A call that sets one register. -/
theorem CallOk.of_set {r : GuestReg} {a : Word} {s' : RegContext}
    (hregs : s'.regs = Function.update s.regs r a) (hs' : s'.CacheOk) :
    s.CallOk ([.set r a], s') :=
  ⟨answered_of_forall_ne (by simp), hregs, hs'⟩

/-- A write to CR0 that is refused sets nothing; one that is accepted may also switch EFER, and so
it sets both. -/
theorem setCr0_callOk (h : s.CacheOk) (mem : GuestMem) (val : Word) :
    s.CallOk (s.call p (.setCr0 mem val)) := by
  have hview := vmxWriteCr0_view p mem s.vcpu val
  rw [call]
  cases hw : s.vcpu.view.writeCr0 p mem val with
  | none =>
    rw [hw, Option.getD_none] at hview
    have hsame : SameRegs s.vcpu.view (vmxWriteCr0 p mem s.vcpu val false).view :=
      hview ▸ (SameControls.injectGp _).sameRegs
    exact ⟨answered_nil, regs_other hsame, h.other hsame⟩
  | some w =>
    rw [hw, Option.getD_some] at hview
    obtain ⟨hcr4, hvirt, hcr0, hefer⟩ := writeCr0_regs hw h.efer
    refine ⟨answered_of_forall_ne (by simp), ?_, ?_⟩
    · funext r
      cases r <;> simp [replay, Access.apply, setCr0, regs, hview, hcr4]
    · refine ⟨h.launched, h.rip, h.rflags, ?_, ?_, ?_⟩
      · rw [setCr0, hview, hcr0]
      · rw [setCr0, hview, hcr4, h.cr4, hvirt]
      · rw [setCr0, hview, hefer]

/-- A write to CR4 that is refused sets nothing, and one that is accepted sets CR4 alone. -/
theorem setCr4_callOk (h : s.CacheOk) (mem : GuestMem) (val : Word) :
    s.CallOk (s.call p (.setCr4 mem val)) := by
  have hview := vmxWriteCr4_view p mem s.vcpu val
  rw [call]
  cases hw : s.vcpu.view.writeCr4 p mem val with
  | none =>
    rw [hw, Option.getD_none] at hview
    have hsame : SameRegs s.vcpu.view (vmxWriteCr4 p mem s.vcpu val false).view :=
      hview ▸ (SameControls.injectGp _).sameRegs
    exact ⟨answered_nil, regs_other hsame, h.other hsame⟩
  | some w =>
    rw [hw, Option.getD_some] at hview
    obtain ⟨hcr0, hvirt, hefer, hcr4, hentry⟩ := writeCr4_regs hw h.efer
    refine ⟨answered_of_forall_ne (by simp), ?_, ?_⟩
    · funext r
      cases r <;> simp [replay, Access.apply, setCr4, regs, hview, hcr0, hefer]
    · refine ⟨h.launched, h.rip, h.rflags, ?_, ?_, ?_⟩
      · rw [setCr4, hview, hcr0, h.cr0, hvirt]
      · rw [setCr4, hview, hcr4]
      · rw [setCr4, hview, hentry]

/-- **Every call** gets and sets the registers as one store. -/
theorem call_ok (h : s.CacheOk) (c : RegCall) : s.CallOk (s.call p c) := by
  cases c with
  | getGpreg reg => exact ⟨answered_get rfl, rfl, h⟩
  | setGpreg reg val =>
    exact .of_set (setGpreg_regs reg val)
      ⟨h.launched, h.rip, h.rflags, h.cr0, h.cr4, h.efer⟩
  | getRip => exact getRip_gets.callOk h
  | setRip val =>
    exact .of_set (setRip_regs val)
      ⟨h.launched, fun hup => absurd hup (by simp [setRip]), h.rflags, h.cr0, h.cr4, h.efer⟩
  | setRsp val =>
    exact .of_set (setRsp_regs val) ⟨h.launched, h.rip, h.rflags, h.cr0, h.cr4, h.efer⟩
  | getEfer => exact getEfer_gets.callOk h
  | setEfer val =>
    exact .of_set (setEfer_regs val) ⟨h.launched, h.rip, h.rflags, h.cr0, h.cr4, rfl⟩
  | getRflags => exact (getRflags_gets h.launched).callOk h
  | setRflags val =>
    exact .of_set (setRflags_regs val)
      ⟨h.launched, h.rip, fun hup => absurd hup (by simp [setRflags]), h.cr0, h.cr4, h.efer⟩
  | getCr0 => exact getCr0_gets.callOk h
  | setCr0 mem val => exact setCr0_callOk h mem val
  | getCr4 => exact getCr4_gets.callOk h
  | setCr4 mem val => exact setCr4_callOk h mem val

/-! ## Entry and exit

An entry writes back what `reg_updated` has and drops the copies after the exit. RSP goes the other
way: it is in the VMCS and is copied to `run_ctx`. -/

/-- What is written back before an entry. -/
theorem flushRegs_eq (s : RegContext) : s.flushRegs = { s with
    vcpu := flushEfer s.vcpu
    ripUpdated := false
    rspUpdated := false
    rflagsUpdated := false
    guestRip := if s.ripUpdated then s.rip else s.guestRip
    guestRsp := if s.rspUpdated then s.longs cpuRegRsp else s.guestRsp
    guestRflags := if s.rflagsUpdated then s.rflags else s.guestRflags } := by
  obtain ⟨_, _, _, _, ripUpdated, rspUpdated, rflagsUpdated, _, _, _, _, _, _⟩ := s
  cases ripUpdated <;> cases rspUpdated <;> cases rflagsUpdated <;> rfl

theorem prepareEntry_vcpu (s : RegContext) : s.prepareEntry.vcpu = flushEfer s.vcpu := by
  rw [prepareEntry, flushRegs_eq, getRip]
  dsimp only
  split
  · split <;> rfl
  · rfl

/-- What an entry loads into RSP. -/
def entryRsp (s : RegContext) : Word :=
  if s.rspUpdated then s.longs cpuRegRsp else s.guestRsp

/-- **An entry** loads what the registers are read as, and RIP is advanced. -/
theorem prepareEntry_held (h : s.CacheOk) : s.prepareEntry.held =
    Function.update (Function.update s.regs .rip
      (s.regs .rip + s.vcpu.events.instLen.setWidth 64)) (.gpr cpuRegRsp) s.entryRsp := by
  have hlen : (flushEfer s.vcpu).events.instLen = s.vcpu.events.instLen := by
    rw [flushEfer]
    split <;> rfl
  -- the RIP that is advanced is the one that was written back
  have hrip : (if s.ripCached then s.rip else if s.ripUpdated then s.rip else s.guestRip) =
      s.regs .rip := by
    rw [regs]
    cases hup : s.ripUpdated <;> cases hca : s.ripCached <;> simp
  have hrflags : (if s.rflagsUpdated then s.rflags else s.guestRflags) = s.regs .rflags := by
    rw [regs]
    cases hup : s.rflagsUpdated <;> cases hca : s.rflagsCached
    · rfl
    · exact (h.rflags hup hca).symm
    · rfl
    · rfl
  have hentry : s.prepareEntry.held = held { s with
      vcpu := flushEfer s.vcpu
      guestRip := s.regs .rip + s.vcpu.events.instLen.setWidth 64
      guestRsp := s.entryRsp
      guestRflags := if s.rflagsUpdated then s.rflags else s.guestRflags } := by
    rw [prepareEntry, flushRegs_eq]
    simp only [h.launched, if_true, getRip, hlen, ← hrip]
    funext r
    cases hca : s.ripCached <;> cases r <;> simp [held, entryRsp]
  rw [hentry]
  funext r
  cases r with
  | rip =>
    rw [Function.update_of_ne (by simp), Function.update_self]
    rfl
  | rflags =>
    rw [Function.update_of_ne (by simp), Function.update_of_ne (by simp)]
    exact hrflags
  | efer =>
    rw [Function.update_of_ne (by simp), Function.update_of_ne (by simp), held, flushEfer_vmcs]
    exact h.efer
  | cr0 =>
    rw [Function.update_of_ne (by simp), Function.update_of_ne (by simp), held, flushEfer_vmcs]
    exact h.cr0.symm
  | cr4 =>
    rw [Function.update_of_ne (by simp), Function.update_of_ne (by simp), held, flushEfer_vmcs]
    exact h.cr4.symm
  | gpr i =>
    by_cases hi : i = cpuRegRsp
    · subst hi
      rw [Function.update_self]
      rfl
    · have hreg : GuestReg.gpr i ≠ .gpr cpuRegRsp := fun heq => hi (GuestReg.gpr.inj heq)
      rw [Function.update_of_ne hreg, Function.update_of_ne (by simp), held, if_neg hi]
      rfl

/-- The control registers after the exit are those of `run_vcpu`. -/
theorem runVcpu_vcpu (s : RegContext) (guest : GuestRun) :
    (s.runVcpu guest).vcpu = Acrn.runVcpu s.vcpu
      { guest.control with events := (flushEfer s.vcpu).events.exited guest } := by
  rw [runVcpu, exitGuest, prepareEntry_vcpu, Acrn.runVcpu]

theorem runVcpu_launched (s : RegContext) (guest : GuestRun) :
    (s.runVcpu guest).launched = true ∧ (s.runVcpu guest).ripUpdated = false ∧
      (s.runVcpu guest).rspUpdated = false ∧ (s.runVcpu guest).rflagsUpdated = false := by
  rw [runVcpu, prepareEntry, flushRegs_eq, getRip]
  dsimp only
  split
  · next hl => split <;> exact ⟨hl, rfl, rfl, rfl⟩
  · exact ⟨rfl, rfl, rfl, rfl⟩

/-- **After an exit** there are no copies but valid ones, and the registers read as the guest
left them. -/
theorem runVcpu_exit (s : RegContext) (guest : GuestRun) :
    (s.runVcpu guest).CacheOk ∧ (s.runVcpu guest).regs = (s.runVcpu guest).held := by
  obtain ⟨hl, hrip, -, hrflags⟩ := runVcpu_launched s guest
  have hentered := runVcpu_entered s.vcpu
    { guest.control with events := (flushEfer s.vcpu).events.exited guest }
  rw [← runVcpu_vcpu] at hentered
  have hefer : (s.runVcpu guest).vcpu.view.vmcs.guestEfer = s.vcpu.view.entryEfer := by
    rw [hentered.vmcs]
    rfl
  refine ⟨⟨hl, fun _ hca => absurd hca (by simp [runVcpu, exitGuest]),
    fun _ hca => absurd hca (by simp [runVcpu, exitGuest]), hentered.cr0, hentered.cr4,
    hentered.entryEfer.trans hentered.efer.symm⟩, ?_⟩
  funext r
  cases r with
  | rip => rw [regs, held, hrip]; rfl
  | rflags => rw [regs, held, hrflags]; rfl
  | efer => exact hentered.efer.trans hefer.symm
  | cr0 => exact hentered.cr0
  | cr4 => exact hentered.cr4
  | gpr i =>
    by_cases hi : i = cpuRegRsp
    · subst hi
      rw [regs, held, if_pos rfl, runVcpu, exitGuest]
      exact Function.update_self cpuRegRsp guest.rsp guest.longs
    · rw [regs, held, if_neg hi]

/-! ## The interval -/

/-- The saved RSP is the one of the VMCS until it is written through `vcpu_set_rsp`. -/
def RspKept (s : RegContext) : Prop := s.longs cpuRegRsp = s.entryRsp

theorem RspKept.call (h : s.RspKept) {c : RegCall}
    (hc : ∀ val, c ≠ .setGpreg cpuRegRsp val) : (s.call p c).2.RspKept := by
  have hgpr : ∀ {reg : Fin 16} {val : Word}, c = .setGpreg reg val → reg ≠ cpuRegRsp :=
    fun {_ val} hset hreg => hc val (hreg ▸ hset)
  cases c with
  | setGpreg reg val =>
    rw [RspKept, RegContext.call, setGpreg, entryRsp]
    dsimp only
    rw [Function.update_of_ne (hgpr rfl).symm]
    exact h
  | getRip =>
    rw [RspKept, RegContext.call, getRip]
    dsimp only
    split <;> exact h
  | getRflags =>
    rw [RspKept, RegContext.call, getRflags]
    dsimp only
    split
    · split <;> exact h
    · exact h
  | setRsp val => rfl
  | _ => exact h

end RegContext

section
variable {p : Platform} {s₀ s : RegContext} {calls : List RegCall} {log : RegLog}

open RegContext

/-- The copies stay valid, every get is answered, and the registers read as the log has
them. -/
theorem Interval.spec (h : Interval p s₀ calls log s) (h₀ : s₀.CacheOk) :
    s.CacheOk ∧ Answered s₀.regs log ∧ s.regs = replay s₀.regs log := by
  induction h with
  | exit => exact ⟨h₀, answered_nil, rfl⟩
  | call c _ ih =>
    obtain ⟨hok, hans, hregs⟩ := ih
    have hcall := call_ok (p := p) hok c
    refine ⟨hcall.cacheOk, hans.append (hregs ▸ hcall.answered), ?_⟩
    rw [hcall.regs, hregs, replay_append]
  | other _ hsame ih =>
    obtain ⟨hok, hans, hregs⟩ := ih
    exact ⟨hok.other hsame, hans, (regs_other hsame).trans hregs⟩

theorem Interval.rspKept (h : Interval p s₀ calls log s) (h₀ : s₀.RspKept)
    (hcalls : ∀ val, .setGpreg cpuRegRsp val ∉ calls) : s.RspKept := by
  induction h with
  | exit => exact h₀
  | call c _ ih =>
    have hc : ∀ val, c ≠ .setGpreg cpuRegRsp val := by
      rintro val rfl
      exact hcalls val (by simp)
    exact (ih fun val hval => hcalls val (List.mem_append_left _ hval)).call hc
  | other _ _ ih => exact ih hcalls

/-- Intervals can be put together. -/
theorem Interval.append {s' : RegContext} {calls' : List RegCall} {log' : RegLog}
    (h : Interval p s₀ calls log s) (h' : Interval p s calls' log' s') :
    Interval p s₀ (calls ++ calls') (log ++ log') s' := by
  induction h' with
  | exit => rwa [List.append_nil, List.append_nil]
  | call c _ ih =>
    rw [← List.append_assoc, ← List.append_assoc]
    exact ih.call c
  | other _ hsame ih => exact ih.other hsame

end

end Acrn
