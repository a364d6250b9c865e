import Acrn.RegCache
import Acrn.Vcpuid
import Acrn.Vectoring

/-!
# Exit handlers and the registers

`vmexit.c`, `vmsr.c`, `io_req.c` and the loop of `vcpu_thread`: the handlers of the exits
after which the guest goes on, as sequences of the calls that get and set its registers, and
how far RIP is advanced after them. An exit that is answered by a shutdown of the VM has no
next entry.
-/

namespace Acrn

open AccessLog

/-- `ERANGE`. -/
def erange : ℤ := 34

/-- A write of 32 bits through a pointer to a variable of 64. -/
def setLow (reg : Word) (val : U32) : Word := (reg &&& 0xFFFFFFFF00000000#64) ||| val.setWidth 64

/-- The exits, with what the handlers find besides the registers. -/
inductive VmExit where
  /-- an exception of this vector, or `VECTOR_INVALID` -/
  | exception (vector : U32)
  | initSignal
  | taskSwitch (exitQual : Word)
  /-- whether `guest_cpuid` reads CR4, and what it makes of CR4 and the registers -/
  | cpuid (readsCr4 : Bool) (guestCpuid : Word → CpuidRegs → CpuidRegs)
  | invd
  | wbinvd
  /-- the exits of `undefined_vmexit_handler` -/
  | undefined
  | crAccess (mem : GuestMem) (exitQual : Word)
  | movDr (exitQual : Word)
  /-- what the port is read as -/
  | ioInstruction (exitQual : Word) (value : U32)
  | rdmsr
  | wrmsr (rdtsc : Word)
  | xsetbv
  /-- whether `ept_violation_vmexit_handler` makes the page executable -/
  | eptViolation (exec : Bool)
  /-- the exits of `unexpected_vmexit_handler` -/
  | unexpected

/-- The exits on an instruction that is emulated. -/
def VmExit.OnInstruction : VmExit → Bool
  | .exception _ | .initSignal | .taskSwitch _ | .eptViolation _ | .unexpected => false
  | _ => true

namespace RegContext

/-! ## The handlers -/

/-- `vcpu_queue_exception`. -/
def queueException (s : RegContext) (vector errCode : U32) : RegContext :=
  { s with vcpu.events :=
      (vcpuQueueException s.vcpu.events vector errCode).getD s.vcpu.events }

/-- `cpuid_vmexit_handler`. -/
def cpuidVmexitHandler (s : RegContext) (readsCr4 : Bool)
    (guestCpuid : Word → CpuidRegs → CpuidRegs) : RegContext :=
  let rax := s.getGpreg cpuRegRax
  let rbx := s.getGpreg cpuRegRbx
  let rcx := s.getGpreg cpuRegRcx
  let rdx := s.getGpreg cpuRegRdx
  let (cr4, s) := if readsCr4 then s.getCr4 else (0#64, s)
  let regs := guestCpuid cr4
    ⟨rax.setWidth 32, rbx.setWidth 32, rcx.setWidth 32, rdx.setWidth 32⟩
  let s := s.setGpreg cpuRegRax (setLow rax regs.eax)
  let s := s.setGpreg cpuRegRbx (setLow rbx regs.ebx)
  let s := s.setGpreg cpuRegRcx (setLow rcx regs.ecx)
  s.setGpreg cpuRegRdx (setLow rdx regs.edx)

/-- `cr_access_vmexit_handler`. -/
def crAccessVmexitHandler (p : Platform) (s : RegContext) (mem : GuestMem) (exitQual : Word) :
    ℤ × RegContext :=
  let reg := s.getGpreg (vmExitCrAccessRegIdx exitQual)
  match (exitQual &&& 0x3F#64).toNat with
  | 0x00 => (0, s.setCr0 p mem reg)
  | 0x04 => (0, s.setCr4 p mem reg)
  | 0x30 =>
    let (cr0, s) := s.getCr0
    (0, s.setCr0 p mem ((cr0 &&& ~~~0x0e#64) ||| ((exitQual >>> 16) &&& 0x0f#64)))
  | _ => (-erange, s)

/-- What a debug register is read as. -/
def debugRegister (exitQual : Word) : Word :=
  match (exitQual &&& 7#64).toNat with
  | 4 => 0xFFFE0FF0#64
  | 6 => 0xFFFE0FF0#64
  | 5 => 0x400#64
  | 7 => 0x400#64
  | _ => 0#64

/-- `movdr_vmexit_handler`. -/
def movdrVmexitHandler (s : RegContext) (exitQual : Word) : RegContext :=
  let idx := vmExitCrAccessRegIdx exitQual
  if exitQual &&& 0x10#64 ≠ 0#64 then s.setGpreg idx (debugRegister exitQual) else s

/-- `emulate_pio_complete` for a read. -/
def emulatePioComplete (s : RegContext) (size : ℕ) (value : U32) : RegContext :=
  let mask := 0xFFFFFFFF#64 >>> (32 - 8 * size)
  let rax := s.getGpreg cpuRegRax
  s.setGpreg cpuRegRax ((rax &&& ~~~mask) ||| (value.setWidth 64 &&& mask))

/-- `pio_instr_vmexit_handler`. -/
def pioInstrVmexitHandler (s : RegContext) (exitQual : Word) (value : U32) : ℤ × RegContext :=
  let size := (exitQual &&& 7#64).toNat + 1
  if size = 3 ∨ 5 ≤ size then (-erange, s)
  else if exitQual &&& 8#64 = 0#64 then (0, s)
  else (0, s.emulatePioComplete size value)

/-- `rdmsr_vmexit_handler`. -/
def rdmsrVmexitHandler (p : Platform) (s : RegContext) : ℤ × RegContext :=
  let msr := (s.getGpreg cpuRegRcx).setWidth 32
  let (err, v, vcpu) := Acrn.rdmsrVmexitHandler p s.vcpu msr
  let s := { s with vcpu }
  if err = 0 then
    (err, (s.setGpreg cpuRegRax (v &&& 0xffffffff#64)).setGpreg cpuRegRdx (v >>> 32))
  else (err, s)

/-- `wrmsr_vmexit_handler`. -/
def wrmsrVmexitHandler (p : Platform) (s : RegContext) (rdtsc : Word) : ℤ × RegContext :=
  let msr := (s.getGpreg cpuRegRcx).setWidth 32
  let v := (s.getGpreg cpuRegRdx <<< 32) ||| (s.getGpreg cpuRegRax &&& 0xFFFFFFFF#64)
  let (err, vcpu) := Acrn.wrmsrVmexitHandler p rdtsc s.vcpu msr v
  (err, { s with vcpu })

/-- `xsetbv_vmexit_handler`; the extended control register is none of the guest's here. -/
def xsetbvVmexitHandler (s : RegContext) : RegContext :=
  if s.getGpreg cpuRegRcx &&& 0xffffffff#64 ≠ 0#64 then s.queueException 13#32 0#32
  else
    let val64 := (s.getGpreg cpuRegRax &&& 0xffffffff#64) ||| (s.getGpreg cpuRegRdx <<< 32)
    if val64 &&& 1#64 = 0#64 then s.queueException 13#32 0#32
    else if val64 &&& ~~~7#64 ≠ 0#64 then s.queueException 13#32 0#32
    else if val64 &&& 6#64 = 4#64 then s.queueException 13#32 0#32
    else s

/-- The entry of `dispatch_table`: nothing, if the VM is shut down or the hypervisor stops. -/
def dispatch (p : Platform) (s : RegContext) : VmExit → Option (ℤ × RegContext)
  | .exception vector =>
    -- only a debug exception is expected
    if vector = 1#32 then some (0, s.retainRip.queueException 13#32 0#32) else none
  | .initSignal => some (0, s.retainRip)
  | .taskSwitch exitQual => some (0, s.queueException 13#32 ((exitQual &&& 0xFF#64).setWidth 32))
  | .cpuid readsCr4 guestCpuid => some (0, s.cpuidVmexitHandler readsCr4 guestCpuid)
  | .invd => some (0, s.queueException 13#32 0#32)
  | .wbinvd => some (0, s)
  | .undefined => some (0, s.queueException 6#32 0#32)
  | .crAccess mem exitQual => some (s.crAccessVmexitHandler p mem exitQual)
  | .movDr exitQual => some (0, s.movdrVmexitHandler exitQual)
  | .ioInstruction exitQual value => some (s.pioInstrVmexitHandler exitQual value)
  | .rdmsr => some (s.rdmsrVmexitHandler p)
  | .wrmsr rdtsc => some (s.wrmsrVmexitHandler p rdtsc)
  | .xsetbv => some (0, s.xsetbvVmexitHandler)
  | .eptViolation exec => some (0, if exec then s.retainRip else s.queueException 14#32 0#32)
  | .unexpected => none

/-- What `vcpu_thread` does with the result of a handler. -/
def finishExit (ret : ℤ) (s : RegContext) : Option RegContext :=
  if ret < 0 then if ret = -erange then none else some (s.queueException 13#32 0#32) else some s

/-- `vmexit_handler`, and `vcpu_thread` after it, for the given values of the IDT-vectoring
fields. -/
def handleExit (p : Platform) (s : RegContext) (x : VmExit) (idtVecInfo idtVecErrorCode : U32) :
    Option RegContext :=
  (vmexitHandler s.vcpu.events idtVecInfo idtVecErrorCode).bind fun events =>
    (dispatch p { s with vcpu.events := events } x).bind fun (ret, s) => finishExit ret s

/-- `acrn_handle_pending_request`: whether the VM entry may go on, and the new state. A fault
that is injected sets RF. -/
def handlePendingRequest (s : RegContext) : Option (Bool × RegContext) :=
  (acrnHandlePendingRequest s.vcpu.events).map fun (ok, events) =>
    let s' := { s with vcpu.events := events }
    if ok = true ∧ s.vcpu.events.pendingReq .excp = true ∧
        getExceptionType s.vcpu.events.exception = .fault then
      let (rflags, s') := s'.getRflags
      (ok, s'.setRflags (rflags ||| rflagsRf))
    else (ok, s')

end RegContext

/-! ## The calls of the handlers

A handler is a sequence of calls that get and set registers, with the exceptions in between. What
is proved of each such call elsewhere then holds of a handler. -/

/-- The calls that lead from one state to another. RIP is not set by them, and RSP through
`vcpu_set_gpreg` only if `rsp` holds. -/
def HandledBy (p : Platform) (rsp : Prop) (s s' : RegContext) : Prop :=
  ∃ calls log, Interval p s calls log s' ∧ (∀ val, .setRip val ∉ calls) ∧
    ∀ val, .setGpreg cpuRegRsp val ∈ calls → rsp

namespace HandledBy

variable {p : Platform} {rsp : Prop} {s s₁ s₂ : RegContext}

theorem refl (s : RegContext) : HandledBy p rsp s s :=
  ⟨[], [], .exit, fun _ h => absurd h (by simp), fun _ h => absurd h (by simp)⟩

theorem trans (h : HandledBy p rsp s s₁) (h' : HandledBy p rsp s₁ s₂) : HandledBy p rsp s s₂ := by
  obtain ⟨calls, log, hint, hrip, hrsp⟩ := h
  obtain ⟨calls', log', hint', hrip', hrsp'⟩ := h'
  refine ⟨calls ++ calls', log ++ log', hint.append hint', fun val hval => ?_, fun val hval => ?_⟩
  · rcases List.mem_append.mp hval with hval | hval
    · exact hrip val hval
    · exact hrip' val hval
  · rcases List.mem_append.mp hval with hval | hval
    · exact hrsp val hval
    · exact hrsp' val hval

theorem call (c : RegCall) (hrip : ∀ val, c ≠ .setRip val)
    (hrsp : ∀ val, c = .setGpreg cpuRegRsp val → rsp) : HandledBy p rsp s (s.call p c).2 := by
  refine ⟨[c], (s.call p c).1, Interval.exit.call c, fun val hval => ?_, fun val hval => ?_⟩
  · exact hrip val (List.mem_singleton.mp hval).symm
  · exact hrsp val (List.mem_singleton.mp hval).symm

/-- A general-purpose register other than RSP is written. -/
theorem setGpreg {reg : Fin 16} (hreg : reg ≠ cpuRegRsp) (val : Word) :
    HandledBy p rsp s (s.setGpreg reg val) :=
  call (.setGpreg reg val) (fun _ h => nomatch h) fun _ h => absurd (RegCall.setGpreg.inj h).1 hreg

theorem other {vcpu : Vcpu} (hsame : SameRegs s.vcpu.view vcpu.view) :
    HandledBy p rsp s { s with vcpu } :=
  ⟨[], [], Interval.exit.other hsame, fun _ h => absurd h (by simp), fun _ h => absurd h (by simp)⟩

/-- The events are no registers. -/
theorem events (events : VcpuEvents) : HandledBy p rsp s { s with vcpu.events := events } :=
  other ⟨rfl, rfl, rfl, rfl, rfl, rfl⟩

theorem queueException (vector errCode : U32) :
    HandledBy p rsp s (s.queueException vector errCode) := events _

theorem retainRip : HandledBy p rsp s s.retainRip := events _

theorem getCr0 : HandledBy p rsp s s.getCr0.2 :=
  call .getCr0 (fun _ h => nomatch h) fun _ h => nomatch h

theorem setCr0 (mem : GuestMem) (val : Word) : HandledBy p rsp s (s.setCr0 p mem val) :=
  call (.setCr0 mem val) (fun _ h => nomatch h) fun _ h => nomatch h

theorem getCr4 : HandledBy p rsp s s.getCr4.2 :=
  call .getCr4 (fun _ h => nomatch h) fun _ h => nomatch h

theorem setCr4 (mem : GuestMem) (val : Word) : HandledBy p rsp s (s.setCr4 p mem val) :=
  call (.setCr4 mem val) (fun _ h => nomatch h) fun _ h => nomatch h

/-- `vcpu_set_efer`, with anything that is no register. -/
theorem setEfer {vcpu : Vcpu} (hsame : ∃ val, SameRegs (s.vcpu.view.setEfer val) vcpu.view) :
    HandledBy p rsp s { s with vcpu } := by
  obtain ⟨val, hsame⟩ := hsame
  have hset : HandledBy p rsp s (s.setEfer val) :=
    call (.setEfer val) (fun _ h => nomatch h) fun _ h => nomatch h
  exact hset.trans (other hsame)

end HandledBy

section
variable {p : Platform} {rsp : Prop} {s s' : RegContext}

open RegContext

theorem cpuidVmexitHandler_handledBy (readsCr4 : Bool)
    (guestCpuid : Word → CpuidRegs → CpuidRegs) :
    HandledBy p rsp s (s.cpuidVmexitHandler readsCr4 guestCpuid) := by
  have hcr4 : HandledBy p rsp s (if readsCr4 then s.getCr4 else (0#64, s)).2 := by
    cases readsCr4
    · exact .refl s
    · exact .getCr4
  rw [cpuidVmexitHandler]
  exact (((hcr4.trans (.setGpreg (by decide) _)).trans (.setGpreg (by decide) _)).trans
    (.setGpreg (by decide) _)).trans (.setGpreg (by decide) _)

theorem crAccessVmexitHandler_handledBy (mem : GuestMem) (exitQual : Word) :
    HandledBy p rsp s (s.crAccessVmexitHandler p mem exitQual).2 := by
  rw [RegContext.crAccessVmexitHandler]
  split
  · exact .setCr0 mem _
  · exact .setCr4 mem _
  · exact HandledBy.getCr0.trans (.setCr0 mem _)
  · exact .refl s

/-- A debug register may be read into RSP. -/
theorem movdrVmexitHandler_handledBy (exitQual : Word)
    (hrsp : vmExitCrAccessRegIdx exitQual = cpuRegRsp → rsp) :
    HandledBy p rsp s (s.movdrVmexitHandler exitQual) := by
  rw [movdrVmexitHandler]
  split
  · exact .call (.setGpreg _ _) (fun _ h => nomatch h) fun _ h => hrsp (RegCall.setGpreg.inj h).1
  · exact .refl s

theorem pioInstrVmexitHandler_handledBy (exitQual : Word) (value : U32) :
    HandledBy p rsp s (s.pioInstrVmexitHandler exitQual value).2 := by
  rw [pioInstrVmexitHandler]
  split
  · exact .refl s
  split
  · exact .refl s
  · exact .setGpreg (by decide) _

theorem rdmsrVmexitHandler_handledBy :
    HandledBy p rsp s (s.rdmsrVmexitHandler p).2 := by
  have hread : HandledBy p rsp s { s with vcpu :=
      (Acrn.rdmsrVmexitHandler p s.vcpu ((s.getGpreg cpuRegRcx).setWidth 32)).2.2 } :=
    .other (rdmsrVmexitHandler_sameControls p s.vcpu _).sameRegs
  rw [RegContext.rdmsrVmexitHandler]
  dsimp only
  split
  · exact (hread.trans (.setGpreg (by decide) _)).trans (.setGpreg (by decide) _)
  · exact hread

theorem xsetbvVmexitHandler_cases (s : RegContext) :
    s.xsetbvVmexitHandler = s ∨ s.xsetbvVmexitHandler = s.queueException 13#32 0#32 := by
  rw [xsetbvVmexitHandler]
  dsimp only
  split
  · exact .inr rfl
  split
  · exact .inr rfl
  split
  · exact .inr rfl
  split
  · exact .inr rfl
  · exact .inl rfl

/-- A write to an MSR, with the exception if it is rejected. -/
theorem wrmsrExit_handledBy (rdtsc : Word) (msr : U32) (val : Word) :
    HandledBy p rsp s { s with vcpu := wrmsrExit p rdtsc s.vcpu msr val } := by
  have hreject : SameRegs s.vcpu.view s.vcpu.view.injectGp := (SameControls.injectGp _).sameRegs
  by_cases hpat : msr = msrIa32Pat
  · refine .other ?_
    rw [hpat, wrmsrExit_pat, VcpuView.writePat]
    split
    · exact hreject
    · exact ⟨rfl, rfl, rfl, rfl, rfl, rfl⟩
  by_cases hefer : msr = msrIa32Efer
  · have hview := wrmsrExit_efer p s.vcpu rdtsc val
    rw [VcpuView.writeEfer] at hview
    rw [hefer]
    split at hview
    · refine .setEfer ⟨(wrmsrExit p rdtsc s.vcpu msrIa32Efer val).view.efer, ?_⟩
      rw [hview]
      exact ⟨rfl, rfl, rfl, rfl, rfl, rfl⟩
    · exact .other (hview ▸ hreject)
  by_cases hmisc : msr = msrIa32MiscEnable
  · have hview := wrmsrExit_miscEnable p s.vcpu rdtsc val
    rw [VcpuView.writeMiscEnable] at hview
    rw [hmisc]
    split at hview
    · exact .other (hview ▸ hreject)
    dsimp only at hview
    split at hview
    · refine .setEfer ⟨(wrmsrExit p rdtsc s.vcpu msrIa32MiscEnable val).view.efer, ?_⟩
      rw [hview]
      exact ⟨rfl, rfl, rfl, rfl, rfl, rfl⟩
    · refine .other ?_
      rw [hview]
      exact ⟨rfl, rfl, rfl, rfl, rfl, rfl⟩
  exact .other (wrmsrExit_other p s.vcpu hpat hefer hmisc).sameRegs

/-- The end of a handler. -/
theorem finishExit_handledBy {ret : ℤ} (h : finishExit ret s = some s') : HandledBy p rsp s s' := by
  rw [finishExit] at h
  split at h
  · split at h
    · cases h
    · obtain rfl := Option.some.inj h
      exact .queueException 13#32 0#32
  · obtain rfl := Option.some.inj h
    exact .refl s

/-- `WRMSR` with what follows on its error. -/
theorem finishExit_wrmsr {rdtsc : Word} (h : finishExit (s.wrmsrVmexitHandler p rdtsc).1
    (s.wrmsrVmexitHandler p rdtsc).2 = some s') :
    ∃ msr val, s' = { s with vcpu := wrmsrExit p rdtsc s.vcpu msr val } := by
  have hdef : ∃ msr val, s.wrmsrVmexitHandler p rdtsc =
      ((Acrn.wrmsrVmexitHandler p rdtsc s.vcpu msr val).1,
        { s with vcpu := (Acrn.wrmsrVmexitHandler p rdtsc s.vcpu msr val).2 }) := ⟨_, _, rfl⟩
  obtain ⟨msr, val, hdef⟩ := hdef
  refine ⟨msr, val, ?_⟩
  rw [hdef, finishExit] at h
  rw [wrmsrExit]
  dsimp only at h ⊢
  by_cases hret : (Acrn.wrmsrVmexitHandler p rdtsc s.vcpu msr val).1 < 0
  · rw [if_pos hret] at h ⊢
    split at h
    · cases h
    · exact (Option.some.inj h).symm
  · rw [if_neg hret] at h ⊢
    exact (Option.some.inj h).symm

/-- The exit on which RSP is written like any other register. -/
def VmExit.ReadsDrToRsp (x : VmExit) : Prop :=
  ∃ exitQual, x = .movDr exitQual ∧ vmExitCrAccessRegIdx exitQual = cpuRegRsp

theorem dispatch_handledBy {x : VmExit} {ret : ℤ} {s₁ : RegContext}
    (hdispatch : s.dispatch p x = some (ret, s₁)) (hfinish : finishExit ret s₁ = some s') :
    HandledBy p x.ReadsDrToRsp s s' := by
  have hend : HandledBy p x.ReadsDrToRsp s₁ s' := finishExit_handledBy hfinish
  cases x with
  | exception vector =>
    rw [dispatch] at hdispatch
    split at hdispatch
    · obtain ⟨rfl, rfl⟩ := Prod.mk.inj (Option.some.inj hdispatch)
      exact (HandledBy.retainRip.trans (.queueException _ _)).trans hend
    · cases hdispatch
  | initSignal =>
    obtain ⟨rfl, rfl⟩ := Prod.mk.inj (Option.some.inj hdispatch)
    exact HandledBy.retainRip.trans hend
  | taskSwitch exitQual =>
    obtain ⟨rfl, rfl⟩ := Prod.mk.inj (Option.some.inj hdispatch)
    exact (HandledBy.queueException _ _).trans hend
  | cpuid readsCr4 guestCpuid =>
    obtain ⟨rfl, rfl⟩ := Prod.mk.inj (Option.some.inj hdispatch)
    exact (cpuidVmexitHandler_handledBy readsCr4 guestCpuid).trans hend
  | invd =>
    obtain ⟨rfl, rfl⟩ := Prod.mk.inj (Option.some.inj hdispatch)
    exact (HandledBy.queueException _ _).trans hend
  | wbinvd =>
    obtain ⟨rfl, rfl⟩ := Prod.mk.inj (Option.some.inj hdispatch)
    exact hend
  | undefined =>
    obtain ⟨rfl, rfl⟩ := Prod.mk.inj (Option.some.inj hdispatch)
    exact (HandledBy.queueException _ _).trans hend
  | crAccess mem exitQual =>
    obtain rfl := congrArg Prod.snd (Option.some.inj hdispatch)
    exact (crAccessVmexitHandler_handledBy mem exitQual).trans hend
  | movDr exitQual =>
    obtain ⟨rfl, rfl⟩ := Prod.mk.inj (Option.some.inj hdispatch)
    exact (movdrVmexitHandler_handledBy exitQual fun hrsp => ⟨exitQual, rfl, hrsp⟩).trans hend
  | ioInstruction exitQual value =>
    obtain rfl := congrArg Prod.snd (Option.some.inj hdispatch)
    exact (pioInstrVmexitHandler_handledBy exitQual value).trans hend
  | rdmsr =>
    obtain rfl := congrArg Prod.snd (Option.some.inj hdispatch)
    exact rdmsrVmexitHandler_handledBy.trans hend
  | wrmsr rdtsc =>
    obtain ⟨hret, hs₁⟩ := Prod.mk.inj (Option.some.inj hdispatch)
    rw [← hret, ← hs₁] at hfinish
    obtain ⟨msr, val, rfl⟩ := finishExit_wrmsr hfinish
    exact wrmsrExit_handledBy rdtsc msr val
  | xsetbv =>
    obtain ⟨rfl, rfl⟩ := Prod.mk.inj (Option.some.inj hdispatch)
    refine HandledBy.trans ?_ hend
    rcases xsetbvVmexitHandler_cases s with h | h
    · rw [h]
      exact .refl _
    · rw [h]
      exact .queueException _ _
  | eptViolation exec =>
    obtain ⟨rfl, rfl⟩ := Prod.mk.inj (Option.some.inj hdispatch)
    refine HandledBy.trans ?_ hend
    cases exec
    · exact .queueException _ _
    · exact .retainRip
  | unexpected => cases hdispatch

/-- **Every exit** is handled by calls that get and set the registers. -/
theorem handleExit_handledBy {x : VmExit} {info errCode : U32}
    (h : s.handleExit p x info errCode = some s') : HandledBy p x.ReadsDrToRsp s s' := by
  obtain ⟨events, -, h⟩ := Option.bind_eq_some_iff.mp h
  obtain ⟨⟨ret, s₁⟩, hdispatch, hfinish⟩ := Option.bind_eq_some_iff.mp h
  exact (HandledBy.events events).trans (dispatch_handledBy hdispatch hfinish)

/-- The events are those of `acrn_handle_pending_request`, and at most RFLAGS is set. -/
theorem handlePendingRequest_cases {ok : Bool} (h : s.handlePendingRequest = some (ok, s')) :
    ∃ events, acrnHandlePendingRequest s.vcpu.events = some (ok, events) ∧
      (s' = { s with vcpu.events := events } ∨
        ∃ val, s' = (RegContext.getRflags { s with vcpu.events := events }).2.setRflags val) := by
  obtain ⟨⟨ok', events⟩, hevents, h⟩ := Option.map_eq_some_iff.mp h
  dsimp only at h
  split at h
  · obtain ⟨rfl, rfl⟩ := Prod.mk.inj h
    exact ⟨events, hevents, .inr ⟨_, rfl⟩⟩
  · obtain ⟨rfl, rfl⟩ := Prod.mk.inj h
    exact ⟨events, hevents, .inl rfl⟩

/-- The pending requests are handled by calls too. -/
theorem handlePendingRequest_handledBy {ok : Bool}
    (h : s.handlePendingRequest = some (ok, s')) : HandledBy p rsp s s' := by
  obtain ⟨events, -, rfl | ⟨val, rfl⟩⟩ := handlePendingRequest_cases h
  · exact .events events
  · have hget : HandledBy p rsp { s with vcpu.events := events }
        (RegContext.getRflags { s with vcpu.events := events }).2 :=
      .call .getRflags (fun _ h => nomatch h) fun _ h => nomatch h
    have hset : HandledBy p rsp (RegContext.getRflags { s with vcpu.events := events }).2
        ((RegContext.getRflags { s with vcpu.events := events }).2.setRflags val) :=
      .call (.setRflags val) (fun _ h => nomatch h) fun _ h => nomatch h
    exact ((HandledBy.events events).trans hget).trans hset

end

end Acrn
