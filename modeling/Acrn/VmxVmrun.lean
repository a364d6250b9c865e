import Acrn.Lib.X64
import Acrn.Page

/-!
# Entry to a guest and the return from it

`vmx_vmrun` of `vmx_asm.S`: the registers of the caller go on the stack, those of the guest
come from its `run_context`, and back. The processor finds `vm_exit` and the stack pointer in
the VMCS when the guest exits. What a guest leaves in the registers is arbitrary.
-/

namespace Acrn

open X64

/-- `VMX_HOST_RSP` and `VMX_HOST_RIP`. -/
def vmxHostRsp : Word := 0x6c14#64
def vmxHostRip : Word := 0x6c16#64

/-- A stay in guest mode: how it began, and what the guest left. -/
structure GuestStay where
  /-- by VMLAUNCH -/
  launch : Bool
  entryGpr : X64.Reg → Word
  entryCr2 : Word
  exitGpr : X64.Reg → Word
  exitCr2 : Word

/-- The processor but for its general-purpose registers. -/
structure VmxCpu where
  cr2 : Word
  /-- the fields of the current VMCS -/
  vmcs : Word → Word
  /-- the stays in guest mode, the last one first -/
  stays : List GuestStay

/-- The instructions of `vmx_vmrun` that only concern the processor. -/
inductive VmxOp where
  /-- `mov %rax,%cr2` -/
  | movToCr2
  /-- `mov %cr2,%rax` -/
  | movFromCr2
  /-- `vmwrite %rsp,%rdx` -/
  | vmwrite
  | vmlaunch
  | vmresume

/-- A VM entry and the exit after it. A guest can write its own memory, and leaves what it likes in
the return stack buffer. -/
inductive GuestStays (guestMem : Set Word) (launch : Bool) (m : X64.Machine VmxCpu) :
    Config VmxCpu → Prop where
  | intro (gpr : X64.Reg → Word) (cr2 : Word) (vmcs mem : Word → Word) (rsb : List Word) :
      vmcs vmxHostRsp = m.sys.vmcs vmxHostRsp → vmcs vmxHostRip = m.sys.vmcs vmxHostRip →
      (∀ a ∉ guestMem, mem a = m.mem a) →
      GuestStays guestMem launch m (m.sys.vmcs vmxHostRip, {
        gpr := Function.update gpr .rsp (m.sys.vmcs vmxHostRsp)
        rflags := 0x2#64
        mem
        rsb
        sys := {
          cr2
          vmcs
          stays := ⟨launch, m.gpr, m.sys.cr2, gpr, cr2⟩ :: m.sys.stays } })

/-- A VMX instruction fails, which shows in CF or ZF. -/
def VmFails (next : Word) (m : X64.Machine VmxCpu) (c : Config VmxCpu) : Prop :=
  ∃ cf zf, (cf || zf) = true ∧ c = (next, m.flags cf zf)

/-- What they do. The flags after a move to or from CR2 are not specified for the processor,
and the routine relies on them to stay as they are. -/
def vmxExt (guestMem : Set Word) : VmxOp → Word → X64.Machine VmxCpu → Config VmxCpu → Prop
  | .movToCr2, next, m, c => c = (next, { m with sys.cr2 := m.gpr .rax })
  | .movFromCr2, next, m, c => c = (next, m.set .rax m.sys.cr2)
  | .vmwrite, next, m, c => VmFails next m c ∨ c = (next, { m.flags false false with
      sys.vmcs := Function.update m.sys.vmcs (m.gpr .rdx) (m.gpr .rsp) })
  | .vmlaunch, next, m, c => VmFails next m c ∨ GuestStays guestMem true m c
  | .vmresume, next, m, c => VmFails next m c ∨ GuestStays guestMem false m c

/-! ## The routine

The text is cut where control can arrive: at the entry, at `vm_exit`, at `vm_eval_error` and in the
loop of `stuff_rsb`. The moves of registers are given by lists, which are in the order of the
source. -/

/-- The labels of the routine. -/
inductive VmrunLabel where
  | vmxVmrun | vmLaunch | vmExit | vmEvalError | stuffRsb | l3 | l33 | l4 | l44 | l5 | vmReturn
  deriving DecidableEq

/-- The offset of a register in a `run_context`. -/
def ctxOffset : X64.Reg → Word
  | .rax => 0x0#64
  | .rcx => 0x8#64
  | .rdx => 0x10#64
  | .rbx => 0x18#64
  | .rsp => 0x20#64
  | .rbp => 0x28#64
  | .rsi => 0x30#64
  | .rdi => 0x38#64
  | .r8 => 0x40#64
  | .r9 => 0x48#64
  | .r10 => 0x50#64
  | .r11 => 0x58#64
  | .r12 => 0x60#64
  | .r13 => 0x68#64
  | .r14 => 0x70#64
  | .r15 => 0x78#64

/-- The offset of CR2. -/
def ctxOffsetCr2 : Word := 0x88#64

/-- The registers of the caller that it gets back. -/
def calleeRegs : List X64.Reg := [.rdx, .rbx, .rbp, .r12, .r13, .r14, .r15]

/-- The registers of the caller that are saved. -/
def hostRegs : List X64.Reg := calleeRegs ++ [.rdi]

/-- The registers of the guest that are loaded before RDI. -/
def guestRegs : List X64.Reg :=
  [.rax, .rcx, .rdx, .rbx, .rbp, .rsi, .r8, .r9, .r10, .r11, .r12, .r13, .r14, .r15]

/-- The registers of the guest in a `run_context`. -/
def ctxRegs : List X64.Reg := guestRegs ++ [.rdi]

/-- The registers of the guest that are stored after RAX. -/
def guestRegsStored : List X64.Reg :=
  [.rcx, .rdx, .rbx, .rbp, .rsi, .r8, .r9, .r10, .r11, .r12, .r13, .r14, .r15]

/-- The registers of the caller are saved. -/
def vmrunSave : List Op := hostRegs.map .push ++ [.movImm .rdx vmxHostRsp]

/-- Those of the guest are loaded. -/
def vmrunLoad : List Op :=
  (guestRegs.map fun r => .load r .rdi (ctxOffset r)) ++ [.load .rdi .rdi (ctxOffset .rdi)]

/-- Those of the guest are stored, after RAX. -/
def vmrunStore : List Op :=
  [.store .rdi ctxOffsetCr2 .rax] ++ (guestRegsStored.map fun r => .store .rdi (ctxOffset r) r) ++
    [.load .rdx .rsp 0#64, .store .rdi (ctxOffset .rdi) .rdx, .mov .rsi .rdi]

/-- Those of the caller are restored. -/
def vmrunRestore : List Op := hostRegs.reverse.map .pop ++ [.movImm .rax (-1#64)]

/-- The registers that are cleared after a stay in guest mode. -/
def clearedRegs : List X64.Reg := [.rcx, .r8, .r9, .r10, .r11]

/-- `vmx_vmrun`, with the addresses of its labels. -/
def vmxVmrunText (addr : VmrunLabel → Word) : List (VmrunLabel × List (Instr VmxOp)) := [
  (.vmxVmrun, vmrunSave.map .op ++
    [.ext .vmwrite, .jcc .carryOrZero (addr .vmEvalError),
      .op (.cmpImm .rsi 1#64), .op (.load .rax .rdi ctxOffsetCr2), .ext .movToCr2] ++
    vmrunLoad.map .op ++ [.jcc .zero (addr .vmLaunch), .ext .vmresume, .jmp (addr .vmExit)]),
  (.vmLaunch, [.ext .vmlaunch]),
  (.vmExit, [.op (.xchg .rsp 0#64 .rdi), .op (.store .rdi (ctxOffset .rax) .rax),
    .ext .movFromCr2] ++ vmrunStore.map .op),
  (.vmEvalError, vmrunRestore.map .op ++
    [.jcc .carry (addr .vmReturn), .jcc .zero (addr .vmReturn)] ++
    clearedRegs.map fun r => .op (.zero r)),
  (.stuffRsb, [.op (.movImm .rax 16#64)]),
  (.l3, [.call (addr .l4)]),
  (.l33, [.op .pause, .jmp (addr .l33)]),
  (.l4, [.call (addr .l5)]),
  (.l44, [.op .pause, .jmp (addr .l44)]),
  (.l5, [.op (.dec .rax), .jcc .notZero (addr .l3), .op (.addImm .rsp 0x100#64),
    .op (.movImm .rax 0#64)]),
  (.vmReturn, [.ret])]

/-! ## The way out

This is common to an exit from the guest and to an instruction that failed. All that it relies on
is that the registers of the caller are on top of the stack. -/

section
variable {code : Code VmxOp} {guestMem : Set Word} {addr : VmrunLabel → Word}
  {Q : Config VmxCpu → Prop} {m x y z : X64.Machine VmxCpu} {a : Word}

/-- `ret` to the caller. -/
theorem ensures_vmReturn (hcode : Listing code addr (vmxVmrunText addr)) (ha : Aligned a)
    (hrsp : y.gpr .rsp = a)
    (hq : Q (y.mem a, { y.set .rsp (a + 8#64) with rsb := y.rsb.tail })) :
    Ensures code (vmxExt guestMem) Q (addr .vmReturn, y) := by
  obtain ⟨_, _, hret, -⟩ := hcode.exists_at 10 rfl
  have hread : y.read (y.gpr .rsp) = some (y.mem a) := by
    rw [hrsp]
    exact if_pos ha
  refine .ret hret hread (.here ?_)
  rw [X64.Machine.returned, hrsp]
  exact hq

/-- What some rounds of `stuff_rsb` leave in the return stack buffer. -/
def rsbFill (addr : VmrunLabel → Word) (rounds : ℕ) : List Word :=
  (List.replicate rounds [addr .l44, addr .l33]).flatten

theorem rsbFill_succ {n : ℕ} : rsbFill addr (n + 1) = addr .l44 :: addr .l33 :: rsbFill addr n := rfl

/-- The loop of `stuff_rsb` before its round with `n` in RAX. -/
structure Stuffing (addr : VmrunLabel → Word) (y : X64.Machine VmxCpu) (a : Word) (n : ℕ)
    (z : X64.Machine VmxCpu) : Prop where
  rax : z.gpr .rax = BitVec.ofNat 64 n
  rsp : z.gpr .rsp = a - BitVec.ofNat 64 (8 * (2 * (16 - n)))
  other : ∀ r, r ≠ .rax → r ≠ .rsp → z.gpr r = y.gpr r
  mem : ∀ b, (∀ i < 32, b ≠ slot a i) → z.mem b = y.mem b
  rsb : z.rsb = rsbFill addr (16 - n) ++ y.rsb
  sys : z.sys = y.sys

/-- The two calls of a round. -/
def stuffed (addr : VmrunLabel → Word) (z : X64.Machine VmxCpu) : X64.Machine VmxCpu :=
  ((z.pushAll [addr .l33, addr .l44]).called (addr .l33)).called (addr .l44)

/-- A round pushes two return addresses. -/
theorem Stuffing.round {n : ℕ} (h : Stuffing addr y a (n + 1) z) (hn : n < 16) :
    Stuffing addr y a n (((stuffed addr z).set .rax (z.gpr .rax - 1#64)).flags
      (z.rflags.getLsbD 0) (decide (z.gpr .rax - 1#64 = 0#64))) where
  rax := by
    rw [X64.Machine.gpr_flags, X64.Machine.gpr_set_self, h.rax]
    bv_omega
  rsp := by
    rw [X64.Machine.gpr_flags, X64.Machine.gpr_set_of_ne _ (by decide), stuffed,
      X64.Machine.gpr_called, X64.Machine.gpr_called, X64.Machine.rsp_pushAll, h.rsp,
      List.length_cons, List.length_singleton]
    bv_omega
  other r hrax hrsp := by
    rw [X64.Machine.gpr_flags, X64.Machine.gpr_set_of_ne _ hrax, stuffed, X64.Machine.gpr_called,
      X64.Machine.gpr_called, X64.Machine.gpr_pushAll hrsp]
    exact h.other r hrax hrsp
  mem b hb := by
    refine (pushed_of_ne fun i hi => ?_).trans (h.mem b hb)
    have hslot : slot (z.gpr .rsp) i = slot a (2 * (16 - (n + 1)) + i) := by
      rw [h.rsp, slot, slot]
      bv_omega
    rw [hslot]
    have hi2 : i < 2 := hi
    exact hb _ (by omega)
  rsb := by
    have hrounds : 16 - n = 16 - (n + 1) + 1 := by omega
    show addr .l44 :: addr .l33 :: z.rsb = _
    rw [h.rsb, hrounds, rsbFill_succ, List.cons_append, List.cons_append]
  sys := h.sys

/-- What `stuff_rsb` leaves, on the way to the caller. -/
def AfterStuffing (addr : VmrunLabel → Word) (Q : Config VmxCpu → Prop) (y : X64.Machine VmxCpu)
    (a : Word) : Prop :=
  ∀ mem rflags, (∀ b, (∀ i < 32, b ≠ slot a i) → mem b = y.mem b) → Q (mem a, {
    gpr := Function.update (Function.update y.gpr .rax 0#64) .rsp (a + 8#64)
    rflags
    mem
    rsb := (rsbFill addr 16).tail ++ y.rsb
    sys := y.sys })

/-- A round of the loop goes on to the next one or to the caller. -/
theorem ensures_round (hcode : Listing code addr (vmxVmrunText addr)) (ha : Aligned a) {n : ℕ}
    (hn : n < 16) (h : Stuffing addr y a (n + 1) z) (hq : AfterStuffing addr Q y a)
    (hmore : n ≠ 0 → ∀ z', Stuffing addr y a n z' →
      Ensures code (vmxExt guestMem) Q (addr .l3, z')) :
    Ensures code (vmxExt guestMem) Q (addr .l3, z) := by
  have hstuff : Aligned (z.gpr .rsp) := h.rsp.symm ▸ ha.sub (.quad _)
  obtain ⟨_, hcall, hra⟩ := hcode.block 5 rfl rfl
  obtain rfl : _ = addr .l33 := hra
  refine .call hcall (X64.Machine.push_eq hstuff) ?_
  obtain ⟨_, hcall', hra'⟩ := hcode.block 7 rfl rfl
  obtain rfl : _ = addr .l44 := hra'
  refine .call hcall' (X64.Machine.push_eq ?_) ?_
  · rw [X64.Machine.gpr_called, X64.Machine.rsp_pushAll]
    exact hstuff.sub (.quad _)
  rw [X64.Machine.pushAll_called, X64.Machine.pushAll_pushAll]
  change Ensures code (vmxExt guestMem) Q (addr .l5, stuffed addr z)
  obtain ⟨_, hdec, next, hjcc, _, hadd, _, hmov, hnext⟩ := hcode.block 9 rfl rfl
  have hround := h.round hn
  refine .op hdec rfl (.jcc hjcc ?_)
  have hzero : decide (z.gpr .rax - 1#64 = 0#64) = decide (n = 0) := by
    rw [h.rax]
    refine decide_eq_decide.mpr ⟨fun h0 => ?_, fun h0 => ?_⟩
    · bv_omega
    · rw [h0]
      rfl
  set z' : X64.Machine VmxCpu := ((stuffed addr z).set .rax (z.gpr .rax - 1#64)).flags
    (z.rflags.getLsbD 0) (decide (z.gpr .rax - 1#64 = 0#64)) with hz'
  have hholds : Cond.notZero.holds z'.rflags = !decide (n = 0) := by
    rw [Cond.holds, hz', X64.Machine.rflags_flags, getLsbD_setFlags_zf, hzero]
  show Ensures _ _ _ (if Cond.notZero.holds z'.rflags then addr .l3 else next, z')
  rw [hholds]
  by_cases hn0 : n = 0
  · subst hn0
    refine .op hadd rfl (.op hmov rfl ?_)
    obtain rfl : _ = addr .vmReturn := hnext
    have hrsp : z'.gpr .rsp + 0x100#64 = a := by
      rw [hround.rsp]
      exact BitVec.sub_add_cancel a 0x100#64
    refine ensures_vmReturn hcode ha ?_ ?_
    · rw [X64.Machine.gpr_set_of_ne _ (by decide), X64.Machine.gpr_flags, X64.Machine.gpr_set_self]
      exact hrsp
    · have hregs : (((z'.set .rsp (z'.gpr .rsp + 0x100#64)).set .rax 0#64).set .rsp (a + 8#64)).gpr
          = Function.update (Function.update y.gpr .rax 0#64) .rsp (a + 8#64) := by
        funext r
        by_cases hrsp' : r = .rsp
        · rw [hrsp', X64.Machine.gpr_set_self, Function.update_self]
        rw [X64.Machine.gpr_set_of_ne _ hrsp', Function.update_of_ne hrsp']
        by_cases hrax : r = .rax
        · rw [hrax, X64.Machine.gpr_set_self, Function.update_self]
        rw [X64.Machine.gpr_set_of_ne _ hrax, X64.Machine.gpr_set_of_ne _ hrsp',
          Function.update_of_ne hrax]
        exact hround.other r hrax hrsp'
      have hdone := hq z'.mem (setFlags z'.rflags
        (decide (2 ^ 64 ≤ (z'.gpr .rsp).toNat + (0x100#64).toNat))
        (decide (z'.gpr .rsp + 0x100#64 = 0#64))) hround.mem
      have hrsb : z'.rsb.tail = (rsbFill addr 16).tail ++ y.rsb := by
        rw [hround.rsb, rsbFill_succ]
        rfl
      rw [← hregs, ← hrsb, ← hround.sys] at hdone
      exact hdone
  · rw [decide_eq_false hn0]
    exact hmore hn0 z' hround

/-- `stuff_rsb` fills the return stack buffer, and its calls are undone. -/
theorem ensures_l3 (hcode : Listing code addr (vmxVmrunText addr)) (ha : Aligned a) {n : ℕ}
    (hn : n < 16) (h : Stuffing addr y a (n + 1) z) (hq : AfterStuffing addr Q y a) :
    Ensures code (vmxExt guestMem) Q (addr .l3, z) := by
  induction n generalizing z with
  | zero => exact ensures_round hcode ha hn h hq fun h0 => absurd rfl h0
  | succ n ih =>
    exact ensures_round hcode ha hn h hq fun _ _ h' => ih (Nat.lt_of_succ_lt hn) h'

theorem ensures_stuffRsb (hcode : Listing code addr (vmxVmrunText addr)) (ha : Aligned a)
    (hrsp : y.gpr .rsp = a) (hq : AfterStuffing addr Q y a) :
    Ensures code (vmxExt guestMem) Q (addr .stuffRsb, y) := by
  obtain ⟨_, hmov, hnext⟩ := hcode.block 4 rfl rfl
  obtain rfl : _ = addr .l3 := hnext
  refine .op hmov rfl (ensures_l3 hcode ha (n := 15) (by decide) ?_ hq)
  refine ⟨X64.Machine.gpr_set_self y, ?_, fun r hr _ => X64.Machine.gpr_set_of_ne y hr,
    fun _ _ => rfl, rfl, rfl⟩
  rw [X64.Machine.gpr_set_of_ne y (by decide), hrsp]
  exact (BitVec.sub_zero a).symm

/-- The registers of the caller `m` are on the stack. -/
structure HostSaved (m x : X64.Machine VmxCpu) : Prop where
  aligned : Aligned (m.gpr .rsp)
  rsp : x.gpr .rsp = slot (m.gpr .rsp) 7
  saved : ∀ r ∈ calleeRegs, x.mem (slot (m.gpr .rsp) (hostRegs.idxOf r)) = m.gpr r
  ret : x.mem (m.gpr .rsp) = m.mem (m.gpr .rsp)

/-- The general-purpose registers when those of the caller have been restored. -/
def restoredGpr (m x : X64.Machine VmxCpu) (r : X64.Reg) : Word :=
  if r = .rsp then m.gpr .rsp
  else if r = .rax then -1#64
  else if r = .rdi then x.mem (slot (m.gpr .rsp) 7)
  else if r ∈ calleeRegs then m.gpr r else x.gpr r

theorem idxOf_hostRegs : ∀ r ∈ hostRegs, hostRegs.reverse.idxOf r = 7 - hostRegs.idxOf r ∧
    hostRegs.idxOf r ≤ 7 := by decide

theorem execAll_restore (h : HostSaved m x) :
    execAll x vmrunRestore = some { x with gpr := restoredGpr m x } := by
  have hpop : execAll x (hostRegs.reverse.map .pop) =
      some { x with gpr := popped x hostRegs.reverse } :=
    execAll_pop (by decide) (by decide) (h.rsp.symm ▸ h.aligned.slot 7)
  rw [vmrunRestore, execAll_append, hpop, Option.bind_some]
  show some _ = _
  congr 1
  rw [X64.Machine.set]
  congr 1
  funext r
  by_cases hrax : r = .rax
  · rw [hrax]
    exact Function.update_self X64.Reg.rax _ _
  rw [Function.update_of_ne hrax]
  show popped x hostRegs.reverse r = _
  rw [restoredGpr, popped, if_neg hrax, h.rsp]
  by_cases hrsp : r = .rsp
  · rw [if_pos hrsp, if_pos hrsp]
    exact BitVec.sub_add_cancel (m.gpr .rsp) 0x40#64
  rw [if_neg hrsp, if_neg hrsp]
  by_cases hmem : r ∈ hostRegs
  · obtain ⟨hidx, hle⟩ := idxOf_hostRegs r hmem
    have hslot : 7 - (7 - hostRegs.idxOf r) = hostRegs.idxOf r := by omega
    rw [if_pos (List.mem_reverse.mpr hmem), slot_add (by omega), hidx, hslot]
    by_cases hrdi : r = .rdi
    · rw [if_pos hrdi, hrdi]
      rfl
    · have hcallee : r ∈ calleeRegs :=
        (List.mem_append.mp hmem).resolve_right fun h => hrdi (List.mem_singleton.mp h)
      rw [if_neg hrdi, if_pos hcallee]
      exact h.saved r hcallee
  · have hrdi : r ≠ .rdi := fun heq => hmem (heq ▸ by decide)
    have hcallee : r ∉ calleeRegs := fun h => hmem (List.mem_append_left _ h)
    rw [if_neg fun h => hmem (List.mem_reverse.mp h), if_neg hrdi, if_neg hcallee]

/-- **The way out**, after a VMX instruction that failed or after a stay in guest mode. -/
theorem ensures_vmEvalError (hcode : Listing code addr (vmxVmrunText addr)) (h : HostSaved m x)
    (hfail : Cond.carryOrZero.holds x.rflags = true → Q (m.mem (m.gpr .rsp), { x with
      gpr := Function.update (restoredGpr m x) .rsp (m.gpr .rsp + 8#64)
      rsb := x.rsb.tail }))
    (hok : Cond.carryOrZero.holds x.rflags = false → ∀ rflags, AfterStuffing addr Q { x with
      gpr := fun r => if r ∈ clearedRegs then 0#64 else restoredGpr m x r
      rflags } (m.gpr .rsp)) :
    Ensures code (vmxExt guestMem) Q (addr .vmEvalError, x) := by
  obtain ⟨_, hfirst, hrest⟩ := At.append.mp (hcode.block 3 rfl rfl)
  obtain ⟨_, hpops, _, hcarry, after, hzero, hnext⟩ := At.append.mp hfirst
  obtain rfl : after = _ := hnext
  refine .ops hpops (execAll_restore h) ?_
  set y : X64.Machine VmxCpu := { x with gpr := restoredGpr m x } with hy
  have hreturn (hcf : Cond.carryOrZero.holds x.rflags = true) :
      Ensures code (vmxExt guestMem) Q (addr .vmReturn, y) := by
    refine ensures_vmReturn hcode h.aligned rfl ?_
    rw [hy, h.ret]
    exact hfail hcf
  refine .jcc hcarry ?_
  by_cases hc : x.rflags.getLsbD 0 = true
  · rw [if_pos (show Cond.carry.holds y.rflags = true from hc)]
    exact hreturn (by rw [Cond.holds, hc]; rfl)
  rw [if_neg (show ¬ Cond.carry.holds y.rflags = true from hc)]
  refine .jcc hzero ?_
  by_cases hz : x.rflags.getLsbD 6 = true
  · rw [if_pos (show Cond.zero.holds y.rflags = true from hz)]
    exact hreturn (by rw [Cond.holds, hz, Bool.or_true])
  rw [if_neg (show ¬ Cond.zero.holds y.rflags = true from hz)]
  obtain ⟨rflags, hclear⟩ := @execAll_zero _ y clearedRegs
  have hzeros : At code _ ((clearedRegs.map .zero).map .op) _ := hrest
  refine .ops hzeros hclear ?_
  refine ensures_stuffRsb hcode h.aligned rfl (hok ?_ rflags)
  rw [Cond.holds, Bool.not_eq_true _ |>.mp hc, Bool.not_eq_true _ |>.mp hz]
  rfl

/-! ## The guest's registers

RDI holds the `run_context` while the others are loaded and stored, and is itself loaded last. At
the exit the pointer is found on the stack. -/

/-- The quadwords of a `run_context` that the routine accesses. -/
def ctxFields (ctx : Word) : Set Word :=
  { b | (∃ r ∈ ctxRegs, b = ctx + ctxOffset r) ∨ b = ctx + ctxOffsetCr2 }

theorem ctxOffset_inj : ∀ r ∈ ctxRegs, ∀ r' ∈ ctxRegs, ctxOffset r = ctxOffset r' → r = r' := by
  decide

theorem ctxOffset_ne_cr2 : ∀ r ∈ ctxRegs, ctxOffset r ≠ ctxOffsetCr2 := by decide

theorem aligned_ctxOffset : ∀ r ∈ ctxRegs, Aligned (ctxOffset r) := by decide

theorem ctxRegs_eq : ∀ r ∈ ctxRegs, r = .rax ∨ r = .rdi ∨ r ∈ guestRegsStored := by decide

theorem guestRegsStored_subset : ∀ r ∈ guestRegsStored, r ∈ ctxRegs ∧ r ≠ .rax ∧ r ≠ .rdi := by
  decide

/-- What the routine relies on. -/
structure VmrunReady (addr : VmrunLabel → Word) (guestMem : Set Word) (m : X64.Machine VmxCpu) :
    Prop where
  rsp : Aligned (m.gpr .rsp)
  ctx : Aligned (m.gpr .rdi)
  hostRip : m.sys.vmcs vmxHostRip = addr .vmExit
  /-- the `run_context` is not on the stack -/
  apart : ∀ b ∈ ctxFields (m.gpr .rdi), b ≠ m.gpr .rsp ∧ ∀ i < 32, b ≠ slot (m.gpr .rsp) i
  /-- a guest has no access to either -/
  guest : ∀ b ∈ guestMem, b ∉ ctxFields (m.gpr .rdi) ∧ b ≠ m.gpr .rsp ∧
    ∀ i < 8, b ≠ slot (m.gpr .rsp) i

/-- The registers of the caller are on the stack at `vm_exit`, with the address of the
`run_context` on top. -/
structure AtExit (m x : X64.Machine VmxCpu) : Prop extends HostSaved m x where
  ctx : x.mem (slot (m.gpr .rsp) 7) = m.gpr .rdi

/-- The memory when the registers of the guest have been stored. -/
def exitMem (m x : X64.Machine VmxCpu) : Word → Word :=
  let ctx := m.gpr .rdi
  let mem := Function.update x.mem (slot (m.gpr .rsp) 7) (x.gpr .rdi)
  let mem := Function.update mem (ctx + ctxOffset .rax) (x.gpr .rax)
  let mem := Function.update mem (ctx + ctxOffsetCr2) x.sys.cr2
  let mem := storedRegs mem ctx ctxOffset x.gpr guestRegsStored
  Function.update mem (ctx + ctxOffset .rdi) (x.gpr .rdi)

/-- The machine at `vm_eval_error` after a stay in guest mode. -/
def exited (m x : X64.Machine VmxCpu) : X64.Machine VmxCpu where
  gpr r :=
    if r = .rsi ∨ r = .rdi then m.gpr .rdi
    else if r = .rdx then x.gpr .rdi
    else if r = .rax then x.sys.cr2 else x.gpr r
  rflags := x.rflags
  mem := exitMem m x
  rsb := x.rsb
  sys := x.sys

theorem exited_gpr (r : X64.Reg) : (exited m x).gpr r =
    if r = .rsi ∨ r = .rdi then m.gpr .rdi
    else if r = .rdx then x.gpr .rdi
    else if r = .rax then x.sys.cr2 else x.gpr r := rfl

/-- The top of the stack is none of the fields. -/
theorem VmrunReady.slot_ne (h : VmrunReady addr guestMem m) {i : ℕ} (hi : i < 32) :
    (∀ r ∈ ctxRegs, slot (m.gpr .rsp) i ≠ m.gpr .rdi + ctxOffset r) ∧
      slot (m.gpr .rsp) i ≠ m.gpr .rdi + ctxOffsetCr2 :=
  ⟨fun r hr heq => (h.apart _ (.inl ⟨r, hr, rfl⟩)).2 i hi heq.symm,
    fun heq => (h.apart _ (.inr rfl)).2 i hi heq.symm⟩

/-- The stores after RAX and CR2 are in registers. -/
theorem execAll_vmrunStore {ctx guestRdi : Word} (hctx : Aligned ctx) (ha : Aligned a)
    (hrdi : y.gpr .rdi = ctx) (hrsp : y.gpr .rsp = a) (htop : y.mem a = guestRdi)
    (hne : (∀ r ∈ ctxRegs, a ≠ ctx + ctxOffset r) ∧ a ≠ ctx + ctxOffsetCr2) :
    execAll y vmrunStore = some (({ y with
      mem := Function.update (storedRegs (Function.update y.mem (ctx + ctxOffsetCr2) (y.gpr .rax))
        ctx ctxOffset y.gpr guestRegsStored) (ctx + ctxOffset .rdi) guestRdi } :
          X64.Machine VmxCpu).set .rdx guestRdi |>.set .rsi ctx) := by
  have hcr2 : execAll y [.store .rdi ctxOffsetCr2 .rax] = some { y with
      mem := Function.update y.mem (ctx + ctxOffsetCr2) (y.gpr .rax) } := by
    rw [execAll_cons, exec, hrdi, X64.Machine.write, if_pos (hctx.add (by decide))]
    rfl
  set y₁ : X64.Machine VmxCpu := { y with
    mem := Function.update y.mem (ctx + ctxOffsetCr2) (y.gpr .rax) } with hy₁
  have hstores : execAll y₁ (guestRegsStored.map fun r => .store .rdi (ctxOffset r) r) = some {
      y₁ with mem := storedRegs y₁.mem ctx ctxOffset y.gpr guestRegsStored } := by
    have hrdi₁ : y₁.gpr .rdi = ctx := hrdi
    rw [execAll_store fun r hr => hrdi₁.symm ▸
      hctx.add (aligned_ctxOffset r (guestRegsStored_subset r hr).1), hrdi₁]
  set y₂ : X64.Machine VmxCpu := { y₁ with
    mem := storedRegs y₁.mem ctx ctxOffset y.gpr guestRegsStored } with hy₂
  have htop₂ : y₂.mem a = guestRdi := by
    refine (storedRegs_of_ne fun r hr => ?_).trans ((Function.update_of_ne hne.2 ..).trans htop)
    exact hne.1 r (guestRegsStored_subset r hr).1
  have hload : exec y₂ (.load .rdx .rsp 0#64) = some (y₂.set .rdx guestRdi) := by
    have hrsp₂ : y₂.gpr .rsp + 0#64 = a := (BitVec.add_zero _).trans hrsp
    rw [exec, hrsp₂, X64.Machine.read, if_pos ha, Option.map_some, htop₂]
  have hrdi₂ : (y₂.set .rdx guestRdi).gpr .rdi = ctx :=
    (X64.Machine.gpr_set_of_ne y₂ (by decide)).trans hrdi
  set y₃ : X64.Machine VmxCpu := ({ y₂ with
    mem := Function.update y₂.mem (ctx + ctxOffset .rdi) guestRdi } : X64.Machine VmxCpu).set
      .rdx guestRdi with hy₃
  have hstore : exec (y₂.set .rdx guestRdi) (.store .rdi (ctxOffset .rdi) .rdx) = some y₃ := by
    rw [exec, hrdi₂, X64.Machine.gpr_set_self, X64.Machine.write, if_pos (hctx.add (by decide))]
    rfl
  have hmov : exec y₃ (.mov .rsi .rdi) = some (y₃.set .rsi ctx) := by
    have hrdi₃ : y₃.gpr .rdi = ctx := hrdi₂
    rw [exec, hrdi₃]
  rw [vmrunStore, execAll_append, execAll_append, hcr2, Option.bind_some, hstores,
    Option.bind_some, execAll_cons, hload, Option.bind_some, execAll_cons, hstore,
    Option.bind_some, execAll_cons, hmov]
  rfl

theorem ensures_vmExit (hcode : Listing code addr (vmxVmrunText addr))
    (hready : VmrunReady addr guestMem m) (h : AtExit m x)
    (hq : Ensures code (vmxExt guestMem) Q (addr .vmEvalError, exited m x)) :
    Ensures code (vmxExt guestMem) Q (addr .vmExit, x) := by
  obtain ⟨_, hxchg, _, hstore, _, hcr2, hrest⟩ := hcode.block 2 rfl rfl
  have hrsp : x.gpr .rsp + 0#64 = slot (m.gpr .rsp) 7 := by rw [BitVec.add_zero, h.rsp]
  have hx₁ : exec x (.xchg .rsp 0#64 .rdi) = some (({ x with
      mem := Function.update x.mem (slot (m.gpr .rsp) 7) (x.gpr .rdi) } : X64.Machine VmxCpu).set
        .rdi (m.gpr .rdi)) := by
    rw [exec, hrsp, X64.Machine.read, X64.Machine.write, if_pos (h.aligned.slot 7),
      if_pos (h.aligned.slot 7), Option.bind_some, Option.map_some, h.ctx]
  set x₁ : X64.Machine VmxCpu := ({ x with
    mem := Function.update x.mem (slot (m.gpr .rsp) 7) (x.gpr .rdi) } : X64.Machine VmxCpu).set
      .rdi (m.gpr .rdi) with hx₁def
  have hrdi₁ : x₁.gpr .rdi = m.gpr .rdi := X64.Machine.gpr_set_self _
  have hx₂ : exec x₁ (.store .rdi (ctxOffset .rax) .rax) = some { x₁ with
      mem := Function.update x₁.mem (m.gpr .rdi + ctxOffset .rax) (x.gpr .rax) } := by
    have hrax₁ : x₁.gpr .rax = x.gpr .rax := X64.Machine.gpr_set_of_ne _ (by decide)
    rw [exec, hrdi₁, hrax₁, X64.Machine.write, if_pos (hready.ctx.add (by decide))]
  refine .op hxchg hx₁ (.op hstore hx₂ ?_)
  refine .instr_eq hcr2 (fun _ => Iff.rfl) ?_
  set x₂ : X64.Machine VmxCpu := ({ x₁ with
    mem := Function.update x₁.mem (m.gpr .rdi + ctxOffset .rax) (x.gpr .rax) } :
      X64.Machine VmxCpu).set .rax x.sys.cr2 with hx₂def
  have hgpr (r : X64.Reg) (hrax : r ≠ .rax) (hrdi : r ≠ .rdi) : x₂.gpr r = x.gpr r :=
    (X64.Machine.gpr_set_of_ne _ hrax).trans (X64.Machine.gpr_set_of_ne _ hrdi)
  have hrdi₂ : x₂.gpr .rdi = m.gpr .rdi :=
    (X64.Machine.gpr_set_of_ne _ (by decide)).trans hrdi₁
  have hrax₂ : x₂.gpr .rax = x.sys.cr2 := X64.Machine.gpr_set_self _
  have hne := hready.slot_ne (show 7 < 32 by decide)
  have htop₂ : x₂.mem (slot (m.gpr .rsp) 7) = x.gpr .rdi :=
    (Function.update_of_ne (hne.1 .rax (by decide)) ..).trans (Function.update_self ..)
  have hstores := execAll_vmrunStore hready.ctx (h.aligned.slot 7) hrdi₂
    ((hgpr .rsp (by decide) (by decide)).trans h.rsp) htop₂ hne
  refine .ops hrest hstores ?_
  have hexited : ((({ x₂ with
      mem := Function.update (storedRegs (Function.update x₂.mem (m.gpr .rdi + ctxOffsetCr2)
        (x₂.gpr .rax)) (m.gpr .rdi) ctxOffset x₂.gpr guestRegsStored)
        (m.gpr .rdi + ctxOffset .rdi) (x.gpr .rdi) } : X64.Machine VmxCpu).set .rdx
          (x.gpr .rdi)).set .rsi (m.gpr .rdi)) = exited m x := by
    rw [hrax₂, storedRegs_congr fun r hr => hgpr r (guestRegsStored_subset r hr).2.1
      (guestRegsStored_subset r hr).2.2]
    refine X64.Machine.ext (funext fun r => ?_) rfl rfl rfl rfl
    rw [exited_gpr]
    by_cases hrsi : r = .rsi
    · rw [if_pos (.inl hrsi), hrsi, X64.Machine.gpr_set_self]
    rw [X64.Machine.gpr_set_of_ne _ hrsi]
    by_cases hrdx : r = .rdx
    · rw [hrdx, X64.Machine.gpr_set_self]
      rfl
    rw [X64.Machine.gpr_set_of_ne _ hrdx]
    show x₂.gpr r = _
    by_cases hrdi : r = .rdi
    · rw [if_pos (.inr hrdi), hrdi, hrdi₂]
    by_cases hrax : r = .rax
    · rw [hrax, hrax₂]
      rfl
    rw [hgpr r hrax hrdi, if_neg (by simp [hrsi, hrdi]), if_neg hrdx, if_neg hrax]
  rw [hexited]
  exact hq

/-! ## What is stored -/

/-- Each register of the guest is in its field, -/
theorem exitMem_field {r : X64.Reg} (hr : r ∈ ctxRegs) :
    exitMem m x (m.gpr .rdi + ctxOffset r) = x.gpr r := by
  rw [exitMem]
  by_cases hrdi : r = .rdi
  · rw [hrdi]
    exact Function.update_self ..
  have hne : m.gpr .rdi + ctxOffset r ≠ m.gpr .rdi + ctxOffset .rdi := fun heq =>
    hrdi (ctxOffset_inj r hr .rdi (by decide) ((BitVec.add_right_inj _).mp heq))
  rw [Function.update_of_ne hne]
  by_cases hmem : r ∈ guestRegsStored
  · exact storedRegs_of_mem (fun r₁ h₁ r₂ h₂ => ctxOffset_inj r₁ (guestRegsStored_subset r₁ h₁).1
      r₂ (guestRegsStored_subset r₂ h₂).1) hmem
  · have hrax : r = .rax := (ctxRegs_eq r hr).resolve_right fun h => h.elim hrdi hmem
    subst hrax
    refine (storedRegs_of_ne fun r' hr' heq => ?_).trans ?_
    · exact (guestRegsStored_subset r' hr').2.1 (ctxOffset_inj .rax hr r'
        (guestRegsStored_subset r' hr').1 ((BitVec.add_right_inj _).mp heq)).symm
    · rw [Function.update_of_ne fun heq =>
        ctxOffset_ne_cr2 .rax hr ((BitVec.add_right_inj _).mp heq)]
      exact Function.update_self ..

/-- and CR2 in its. -/
theorem exitMem_cr2 : exitMem m x (m.gpr .rdi + ctxOffsetCr2) = x.sys.cr2 := by
  have hne (r : X64.Reg) (hr : r ∈ ctxRegs) :
      m.gpr .rdi + ctxOffsetCr2 ≠ m.gpr .rdi + ctxOffset r :=
    fun heq => ctxOffset_ne_cr2 r hr ((BitVec.add_right_inj _).mp heq).symm
  rw [exitMem, Function.update_of_ne (hne .rdi (by decide))]
  exact (storedRegs_of_ne fun r hr => hne r (guestRegsStored_subset r hr).1).trans
    (Function.update_self ..)

/-- The rest of the memory stays, but for the top of the stack. -/
theorem exitMem_of_notMem {b : Word} (hfield : b ∉ ctxFields (m.gpr .rdi))
    (hslot : b ≠ slot (m.gpr .rsp) 7) : exitMem m x b = x.mem b := by
  have hreg (r : X64.Reg) (hr : r ∈ ctxRegs) : b ≠ m.gpr .rdi + ctxOffset r :=
    fun heq => hfield (.inl ⟨r, hr, heq⟩)
  have hcr2 : b ≠ m.gpr .rdi + ctxOffsetCr2 := fun heq => hfield (.inr heq)
  rw [exitMem, Function.update_of_ne (hreg .rdi (by decide)),
    storedRegs_of_ne fun r hr => hreg r (guestRegsStored_subset r hr).1,
    Function.update_of_ne hcr2, Function.update_of_ne (hreg .rax (by decide)),
    Function.update_of_ne hslot]

theorem exitMem_slot (hready : VmrunReady addr guestMem m) {i : ℕ} (hi : i < 32) (h7 : i ≠ 7) :
    exitMem m x (slot (m.gpr .rsp) i) = x.mem (slot (m.gpr .rsp) i) := by
  refine exitMem_of_notMem (fun hfield => (hready.apart _ hfield).2 i hi rfl) fun heq => h7 ?_
  rw [slot, slot] at heq
  bv_omega

theorem exitMem_top (hready : VmrunReady addr guestMem m) :
    exitMem m x (slot (m.gpr .rsp) 7) = x.gpr .rdi := by
  obtain ⟨hreg, hcr2⟩ := hready.slot_ne (show 7 < 32 by decide)
  rw [exitMem, Function.update_of_ne (hreg .rdi (by decide)),
    storedRegs_of_ne fun r hr => hreg r (guestRegsStored_subset r hr).1,
    Function.update_of_ne hcr2, Function.update_of_ne (hreg .rax (by decide)),
    Function.update_self]

theorem idxOf_calleeRegs : ∀ r ∈ calleeRegs, hostRegs.idxOf r < 7 := by decide

theorem AtExit.exited (hready : VmrunReady addr guestMem m) (h : AtExit m x) :
    HostSaved m (exited m x) where
  aligned := h.aligned
  rsp := h.rsp
  saved r hr := by
    have hidx := idxOf_calleeRegs r hr
    exact (exitMem_slot hready (by omega) (by omega)).trans (h.saved r hr)
  ret := by
    have hslot : m.gpr .rsp ≠ slot (m.gpr .rsp) 7 := by
      rw [slot]
      bv_omega
    exact (exitMem_of_notMem (fun hfield => (hready.apart _ hfield).1 rfl) hslot).trans h.ret

/-! ## The whole routine

The parts are put together: the entry goes on with `vm_exit` or with `vm_eval_error`, and each of
them with the way out. -/

/-- The routine returns to its caller. -/
structure VmrunReturned (m : X64.Machine VmxCpu) (c : Config VmxCpu) : Prop where
  rip : c.1 = m.mem (m.gpr .rsp)
  rsp : c.2.gpr .rsp = m.gpr .rsp + 8#64
  saved : ∀ r ∈ calleeRegs, c.2.gpr r = m.gpr r

/-- A VMX instruction has failed: the guest has not run. -/
structure VmrunFailed (m : X64.Machine VmxCpu) (c : Config VmxCpu) : Prop where
  rax : c.2.gpr .rax = -1#64
  stays : c.2.sys.stays = m.sys.stays
  mem : ∀ b, (∀ i < 8, b ≠ slot (m.gpr .rsp) i) → c.2.mem b = m.mem b

/-- The guest has run once, with the registers of its `run_context` at the entry, and with
those that it left in there now. Of these, RDI alone is still in a register. In front of what the
guest left in the return stack buffer are the calls of `stuff_rsb`, less the one that the return to
the caller has taken. -/
structure VmrunStayed (addr : VmrunLabel → Word) (guestMem : Set Word) (m : X64.Machine VmxCpu)
    (g : GuestStay) (c : Config VmxCpu) : Prop where
  stays : c.2.sys.stays = g :: m.sys.stays
  launch : g.launch = decide (m.gpr .rsi = 1#64)
  entry : ∀ r ∈ ctxRegs, g.entryGpr r = m.mem (m.gpr .rdi + ctxOffset r)
  entryCr2 : g.entryCr2 = m.mem (m.gpr .rdi + ctxOffsetCr2)
  exit : ∀ r ∈ ctxRegs, c.2.mem (m.gpr .rdi + ctxOffset r) = g.exitGpr r
  exitCr2 : c.2.mem (m.gpr .rdi + ctxOffsetCr2) = g.exitCr2
  rax : c.2.gpr .rax = 0#64
  cleared : ∀ r ∈ clearedRegs, c.2.gpr r = 0#64
  rsi : c.2.gpr .rsi = m.gpr .rdi
  rdi : c.2.gpr .rdi = g.exitGpr .rdi
  rsb : (rsbFill addr 16).tail <+: c.2.rsb
  mem : ∀ b ∉ guestMem, b ∉ ctxFields (m.gpr .rdi) → (∀ i < 32, b ≠ slot (m.gpr .rsp) i) →
    c.2.mem b = m.mem b

/-- How the routine ends. -/
def VmrunDone (addr : VmrunLabel → Word) (guestMem : Set Word) (m : X64.Machine VmxCpu)
    (c : Config VmxCpu) : Prop :=
  VmrunReturned m c ∧ (VmrunFailed m c ∨ ∃ g, VmrunStayed addr guestMem m g c)

/-- The machine before VMLAUNCH or VMRESUME. -/
structure AtEntry (addr : VmrunLabel → Word) (m w : X64.Machine VmxCpu) : Prop where
  rsp : w.gpr .rsp = slot (m.gpr .rsp) 7
  gpr : ∀ r ∈ ctxRegs, w.gpr r = m.mem (m.gpr .rdi + ctxOffset r)
  mem : w.mem = pushed m.mem (m.gpr .rsp) (hostRegs.map m.gpr)
  cr2 : w.sys.cr2 = m.mem (m.gpr .rdi + ctxOffsetCr2)
  hostRsp : w.sys.vmcs vmxHostRsp = slot (m.gpr .rsp) 7
  hostRip : w.sys.vmcs vmxHostRip = addr .vmExit
  stays : w.sys.stays = m.sys.stays

variable {w : X64.Machine VmxCpu} {c : Config VmxCpu}

/-- The registers of the caller have been pushed. -/
theorem pushed_hostRegs {mem : Word → Word} {r : X64.Reg} (hr : r ∈ hostRegs) :
    pushed mem a (hostRegs.map m.gpr) (slot a (hostRegs.idxOf r)) = m.gpr r := by
  have hlt : hostRegs.idxOf r < (hostRegs.map m.gpr).length := by
    rw [List.length_map]
    exact List.idxOf_lt_length_iff.mpr hr
  have hlen : (hostRegs.map m.gpr).length < 2 ^ 61 := by
    rw [List.length_map]
    decide
  rw [pushed_slot hlen hlt, List.getElem_map, List.getElem_idxOf]

theorem ret_ne_slot {i : ℕ} (hi : i < 32) : a ≠ slot a i := by
  rw [slot]
  bv_omega

/-- A machine that has what is on the stack at the entry. -/
theorem AtEntry.atExit (hready : VmrunReady addr guestMem m) (hw : AtEntry addr m w)
    (hrsp : x.gpr .rsp = slot (m.gpr .rsp) 7) (hmem : ∀ b ∉ guestMem, x.mem b = w.mem b) :
    AtExit m x := by
  have hsame (b : Word) (hb : b = m.gpr .rsp ∨ ∃ i < 8, b = slot (m.gpr .rsp) i) :
      x.mem b = pushed m.mem (m.gpr .rsp) (hostRegs.map m.gpr) b := by
    rw [hmem b, hw.mem]
    rintro hguest
    obtain ⟨-, hret, hslot⟩ := hready.guest b hguest
    rcases hb with rfl | ⟨i, hi, rfl⟩
    · exact hret rfl
    · exact hslot i hi rfl
  refine ⟨⟨hready.rsp, hrsp, fun r hr => ?_, ?_⟩, ?_⟩
  · have hlt := idxOf_calleeRegs r hr
    rw [hsame _ (.inr ⟨_, by omega, rfl⟩)]
    exact pushed_hostRegs (List.mem_append_left _ hr)
  · rw [hsame _ (.inl rfl)]
    exact pushed_of_ne fun i hi => ret_ne_slot (Nat.lt_trans (m := 8) hi (by decide))
  · rw [hsame _ (.inr ⟨7, by decide, rfl⟩)]
    exact pushed_hostRegs (r := .rdi) (by decide)

theorem calleeRegs_ne : ∀ r ∈ calleeRegs, r ≠ .rsp ∧ r ≠ .rax ∧ r ≠ .rdi ∧ r ∉ clearedRegs := by
  decide

theorem restoredGpr_callee {r : X64.Reg} (hr : r ∈ calleeRegs) : restoredGpr m x r = m.gpr r := by
  obtain ⟨hrsp, hrax, hrdi, -⟩ := calleeRegs_ne r hr
  rw [restoredGpr, if_neg hrsp, if_neg hrax, if_neg hrdi, if_pos hr]

/-- After a failure. -/
theorem vmrunDone_failed (hstays : x.sys.stays = m.sys.stays)
    (hmem : ∀ b, (∀ i < 8, b ≠ slot (m.gpr .rsp) i) → x.mem b = m.mem b) :
    VmrunDone addr guestMem m (m.mem (m.gpr .rsp), { x with
      gpr := Function.update (restoredGpr m x) .rsp (m.gpr .rsp + 8#64)
      rsb := x.rsb.tail }) := by
  refine ⟨⟨rfl, Function.update_self X64.Reg.rsp _ (restoredGpr m x), fun r hr => ?_⟩,
    .inl ⟨?_, hstays, hmem⟩⟩
  · exact (Function.update_of_ne (calleeRegs_ne r hr).1 ..).trans (restoredGpr_callee hr)
  · show Function.update (restoredGpr m x) .rsp (m.gpr .rsp + 8#64) .rax = _
    rw [Function.update_of_ne (by decide)]
    rfl

/-- What is stored after a failure is what was there. -/
theorem exitMem_failed (hgpr : ∀ r ∈ ctxRegs, x.gpr r = m.mem (m.gpr .rdi + ctxOffset r))
    (hcr2 : x.sys.cr2 = m.mem (m.gpr .rdi + ctxOffsetCr2))
    (hmem : ∀ b, (∀ i < 8, b ≠ slot (m.gpr .rsp) i) → x.mem b = m.mem b) {b : Word}
    (hb : ∀ i < 8, b ≠ slot (m.gpr .rsp) i) : exitMem m x b = m.mem b := by
  by_cases hfield : b ∈ ctxFields (m.gpr .rdi)
  · rcases hfield with ⟨r, hr, rfl⟩ | rfl
    · exact (exitMem_field hr).trans (hgpr r hr)
    · exact exitMem_cr2.trans hcr2
  · exact (exitMem_of_notMem hfield (hb 7 (by decide))).trans (hmem b hb)

/-- After a stay in guest mode. -/
theorem vmrunDone_stayed {g : GuestStay} (hready : VmrunReady addr guestMem m)
    (hstays : x.sys.stays = g :: m.sys.stays) (hlaunch : g.launch = decide (m.gpr .rsi = 1#64))
    (hentry : ∀ r ∈ ctxRegs, g.entryGpr r = m.mem (m.gpr .rdi + ctxOffset r))
    (hentryCr2 : g.entryCr2 = m.mem (m.gpr .rdi + ctxOffsetCr2))
    (hexit : ∀ r ∈ ctxRegs, x.gpr r = g.exitGpr r) (hexitCr2 : x.sys.cr2 = g.exitCr2)
    (hmem : ∀ b ∉ guestMem, (∀ i < 8, b ≠ slot (m.gpr .rsp) i) → x.mem b = m.mem b)
    (hsaved : HostSaved m (exited m x)) (rflags : Word) :
    AfterStuffing addr (VmrunDone addr guestMem m) { exited m x with
      gpr := fun r => if r ∈ clearedRegs then 0#64 else restoredGpr m (exited m x) r
      rflags } (m.gpr .rsp) := by
  intro mem rflags' hsame
  set gpr : X64.Reg → Word :=
    fun r => if r ∈ clearedRegs then 0#64 else restoredGpr m (exited m x) r with hgpr
  have hfield (b : Word) (hb : b ∈ ctxFields (m.gpr .rdi)) : mem b = exitMem m x b :=
    hsame b (hready.apart b hb).2
  have hother (r : X64.Reg) (hrax : r ≠ .rax) (hrsp : r ≠ .rsp) : Function.update
      (Function.update gpr .rax 0#64) .rsp (m.gpr .rsp + 8#64) r = gpr r := by
    rw [Function.update_of_ne hrsp, Function.update_of_ne hrax]
  refine ⟨⟨?_, ?_, fun r hr => ?_⟩, .inr ⟨g, ?_⟩⟩
  · exact (hsame _ fun i hi => ret_ne_slot hi).trans hsaved.ret
  · exact Function.update_self X64.Reg.rsp _ (Function.update gpr .rax 0#64)
  · obtain ⟨hrsp, hrax, -, hcleared⟩ := calleeRegs_ne r hr
    refine (hother r hrax hrsp).trans ?_
    exact (if_neg hcleared).trans (restoredGpr_callee hr)
  refine ⟨hstays, hlaunch, hentry, hentryCr2, fun r hr => ?_, ?_, ?_, fun r hr => ?_, ?_, ?_,
    List.prefix_append .., fun b hguest hb hslot => ?_⟩
  · exact (hfield _ (.inl ⟨r, hr, rfl⟩)).trans ((exitMem_field hr).trans (hexit r hr))
  · exact (hfield _ (.inr rfl)).trans (exitMem_cr2.trans hexitCr2)
  · show Function.update (Function.update gpr .rax 0#64) .rsp (m.gpr .rsp + 8#64) .rax = _
    rw [Function.update_of_ne (by decide), Function.update_self]
  · have hne : ∀ r ∈ clearedRegs, r ≠ .rax ∧ r ≠ .rsp := by decide
    exact (hother r (hne r hr).1 (hne r hr).2).trans (if_pos hr)
  · refine (hother .rsi (by decide) (by decide)).trans ?_
    rfl
  · refine (hother .rdi (by decide) (by decide)).trans ?_
    exact (exitMem_top hready).trans (hexit .rdi (by decide))
  · refine (hsame b hslot).trans ((exitMem_of_notMem hb (hslot 7 (by decide))).trans ?_)
    exact hmem b hguest fun i hi => hslot i (Nat.lt_trans hi (by decide))

/-- **From the entry on**: the instruction fails, or the guest runs. -/
theorem ensures_vmEntry (hcode : Listing code addr (vmxVmrunText addr))
    (hready : VmrunReady addr guestMem m) (hw : AtEntry addr m w)
    (hc : VmFails (addr .vmExit) w c ∨ GuestStays guestMem (decide (m.gpr .rsi = 1#64)) w c) :
    Ensures code (vmxExt guestMem) (VmrunDone addr guestMem m) c := by
  have hmem (b : Word) (hb : ∀ i < 8, b ≠ slot (m.gpr .rsp) i) : w.mem b = m.mem b := by
    rw [hw.mem]
    exact pushed_of_ne hb
  rcases hc with ⟨cf, zf, hflags, rfl⟩ | ⟨gpr, cr2, vmcs, mem, rsb, -, -, hframe⟩
  · have hexit : AtExit m (w.flags cf zf) := hw.atExit hready hw.rsp fun _ _ => rfl
    refine ensures_vmExit hcode hready hexit
      (ensures_vmEvalError hcode (hexit.exited hready) (fun _ => ?_) fun hnone => ?_)
    · exact vmrunDone_failed hw.stays fun b hb =>
        exitMem_failed (x := w.flags cf zf) hw.gpr hw.cr2 hmem hb
    · have hholds : Cond.carryOrZero.holds (w.flags cf zf).rflags = (cf || zf) := by
        rw [Cond.holds, X64.Machine.rflags_flags, getLsbD_setFlags_cf, getLsbD_setFlags_zf]
      exact absurd (hholds.symm.trans hnone) (by rw [hflags]; decide)
  · set x : X64.Machine VmxCpu := {
      gpr := Function.update gpr .rsp (w.sys.vmcs vmxHostRsp)
      rflags := 0x2#64
      mem
      rsb
      sys := {
        cr2
        vmcs
        stays := ⟨decide (m.gpr .rsi = 1#64), w.gpr, w.sys.cr2, gpr, cr2⟩ :: w.sys.stays } }
      with hx
    have hexit : AtExit m x :=
      hw.atExit hready ((Function.update_self X64.Reg.rsp _ gpr).trans hw.hostRsp) hframe
    rw [hw.hostRip]
    refine ensures_vmExit hcode hready hexit
      (ensures_vmEvalError hcode (hexit.exited hready) (fun hfail => ?_) fun _ rflags => ?_)
    · exact absurd (show Cond.carryOrZero.holds 0x2#64 = true from hfail) (by decide)
    · refine vmrunDone_stayed hready (congrArg _ hw.stays) rfl hw.gpr hw.cr2 (fun r hr => ?_) rfl
        (fun b hguest hb => (hframe b hguest).trans (hmem b hb)) (hexit.exited hready) rflags
      have hne : ∀ r ∈ ctxRegs, r ≠ .rsp := by decide
      exact Function.update_of_ne (hne r hr) ..

/-- The pushes before the VMWRITE. -/
theorem execAll_vmrunSave (ha : Aligned (m.gpr .rsp)) : execAll m vmrunSave =
    some ((m.pushAll (hostRegs.map m.gpr)).set .rdx vmxHostRsp) := by
  rw [vmrunSave, execAll_append, execAll_push (by decide) ha]
  rfl

/-- The loads of the guest's registers. -/
theorem execAll_vmrunLoad {ctx : Word} (hctx : Aligned ctx) (hrdi : y.gpr .rdi = ctx) :
    ∃ w, execAll y vmrunLoad = some w ∧ (∀ r ∈ ctxRegs, w.gpr r = y.mem (ctx + ctxOffset r)) ∧
      w.gpr .rsp = y.gpr .rsp ∧ w.rflags = y.rflags ∧ w.mem = y.mem ∧ w.sys = y.sys := by
  have hsub : ∀ r ∈ guestRegs, r ∈ ctxRegs := fun r => List.mem_append_left _
  have hload : execAll y (guestRegs.map fun r => .load r .rdi (ctxOffset r)) = some { y with
      gpr := fun r => if r ∈ guestRegs then y.mem (ctx + ctxOffset r) else y.gpr r } := by
    rw [execAll_load (by decide) fun r hr =>
      hrdi.symm ▸ hctx.add (aligned_ctxOffset r (hsub r hr)), hrdi]
  set y₁ : X64.Machine VmxCpu := { y with
    gpr := fun r => if r ∈ guestRegs then y.mem (ctx + ctxOffset r) else y.gpr r } with hy₁
  have hrdi₁ : y₁.gpr .rdi = ctx := hrdi
  have hlast : exec y₁ (.load .rdi .rdi (ctxOffset .rdi)) =
      some (y₁.set .rdi (y.mem (ctx + ctxOffset .rdi))) := by
    rw [exec, hrdi₁, X64.Machine.read, if_pos (hctx.add (by decide))]
    rfl
  refine ⟨y₁.set .rdi (y.mem (ctx + ctxOffset .rdi)), ?_, fun r hr => ?_, ?_, rfl, rfl, rfl⟩
  · rw [vmrunLoad, execAll_append, hload, Option.bind_some, execAll_cons, hlast]
    rfl
  · by_cases hr' : r = .rdi
    · rw [hr', X64.Machine.gpr_set_self]
    · rw [X64.Machine.gpr_set_of_ne _ hr']
      exact if_pos ((List.mem_append.mp hr).resolve_right fun h => hr' (List.mem_singleton.mp h))
  · exact X64.Machine.gpr_set_of_ne _ (by decide)

/-- **The routine enters the guest and returns.** Whatever the processor and the guest do, it
comes back to its caller, with the registers that C relies on as they were. Either a VMX
instruction has failed, and no memory but the stack below is written; or the guest has run once,
from the registers of the `run_context` on, which now has those that the guest left, and the last
31 entries of the return stack buffer are those of `stuff_rsb`. -/
theorem vmx_vmrun_returns (hcode : Listing code addr (vmxVmrunText addr))
    (hready : VmrunReady addr guestMem m) :
    Ensures code (vmxExt guestMem) (VmrunDone addr guestMem m) (addr .vmxVmrun, m) := by
  obtain ⟨_, hABC, _, hjz, _, hresume, _, hjmp, hnext⟩ := At.append.mp (hcode.block 0 rfl rfl)
  obtain ⟨_, hAB, hloads⟩ := At.append.mp hABC
  obtain ⟨_, hsave, _, hvmwrite, _, hjbe, _, hcmp, _, hload, _, hcr2, hend⟩ := At.append.mp hAB
  set p : X64.Machine VmxCpu := (m.pushAll (hostRegs.map m.gpr)).set .rdx vmxHostRsp with hp
  have hpmem : p.mem = pushed m.mem (m.gpr .rsp) (hostRegs.map m.gpr) := rfl
  have hprsp : p.gpr .rsp = slot (m.gpr .rsp) 7 :=
    (X64.Machine.gpr_set_of_ne _ (by decide)).trans X64.Machine.rsp_pushAll
  have hprdx : p.gpr .rdx = vmxHostRsp := X64.Machine.gpr_set_self _
  have hpother (r : X64.Reg) (hrsp : r ≠ .rsp) (hrdx : r ≠ .rdx) : p.gpr r = m.gpr r :=
    (X64.Machine.gpr_set_of_ne _ hrdx).trans (X64.Machine.gpr_pushAll hrsp)
  refine .ops hsave (execAll_vmrunSave hready.rsp) (.instr hvmwrite ⟨_, .inr rfl⟩ ?_)
  rintro c (⟨cf, zf, hflags, rfl⟩ | rfl)
  -- the VMWRITE fails
  · have hholds : Cond.carryOrZero.holds (p.flags cf zf).rflags = true := by
      rw [Cond.holds, X64.Machine.rflags_flags, getLsbD_setFlags_cf, getLsbD_setFlags_zf, hflags]
    refine .jcc hjbe ?_
    rw [if_pos hholds]
    refine ensures_vmEvalError hcode ⟨hready.rsp, hprsp, fun r hr => ?_, ?_⟩
      (fun _ => ?_) fun hnone => ?_
    · exact pushed_hostRegs (List.mem_append_left _ hr)
    · exact pushed_of_ne fun i hi => ret_ne_slot (Nat.lt_trans (m := 8) hi (by decide))
    · exact vmrunDone_failed rfl fun b hb => pushed_of_ne hb
    · exact absurd (hholds.symm.trans hnone) (by decide)
  obtain rfl := hend
  refine .jcc hjbe ?_
  set q : X64.Machine VmxCpu := { p.flags false false with
    sys.vmcs := Function.update p.sys.vmcs (p.gpr .rdx) (p.gpr .rsp) } with hq
  have hnone : Cond.carryOrZero.holds q.rflags = false := by
    show Cond.carryOrZero.holds (p.flags false false).rflags = false
    rw [Cond.holds, X64.Machine.rflags_flags, getLsbD_setFlags_cf, getLsbD_setFlags_zf]
    rfl
  rw [hnone]
  refine .op hcmp rfl ?_
  have hqrsi : decide (q.gpr .rsi = 1#64) = decide (m.gpr .rsi = 1#64) :=
    congrArg (fun v => decide (v = 1#64)) (hpother .rsi (by decide) (by decide))
  set q₁ : X64.Machine VmxCpu := q.flags (decide (q.gpr .rsi < 1#64)) (decide (q.gpr .rsi = 1#64))
    with hq₁
  have hqrdi : q₁.gpr .rdi = m.gpr .rdi := hpother .rdi (by decide) (by decide)
  have hfield (b : Word) (hb : b ∈ ctxFields (m.gpr .rdi)) : q₁.mem b = m.mem b :=
    pushed_of_ne fun i hi => (hready.apart b hb).2 i (Nat.lt_trans (m := 8) hi (by decide))
  have hqcr2 : exec q₁ (.load .rax .rdi ctxOffsetCr2) =
      some (q₁.set .rax (m.mem (m.gpr .rdi + ctxOffsetCr2))) := by
    rw [exec, hqrdi, X64.Machine.read, if_pos (hready.ctx.add (by decide)), Option.map_some,
      hfield _ (.inr rfl)]
  refine .op hload hqcr2 (.instr_eq hcr2 (fun _ => Iff.rfl) ?_)
  set q₂ : X64.Machine VmxCpu := { q₁.set .rax (m.mem (m.gpr .rdi + ctxOffsetCr2)) with
    sys.cr2 := (q₁.set .rax (m.mem (m.gpr .rdi + ctxOffsetCr2))).gpr .rax } with hq₂
  have hq₂gpr (r : X64.Reg) (hr : r ≠ .rax) : q₂.gpr r = q₁.gpr r := X64.Machine.gpr_set_of_ne q₁ hr
  obtain ⟨w, hw, hwgpr, hwrsp, hwflags, hwmem, hwsys⟩ := execAll_vmrunLoad (y := q₂) hready.ctx
    ((hq₂gpr .rdi (by decide)).trans hqrdi)
  have hentry : AtEntry addr m w := by
    refine ⟨?_, fun r hr => ?_, hwmem, ?_, ?_, ?_, ?_⟩
    · rw [hwrsp]
      exact (hq₂gpr .rsp (by decide)).trans hprsp
    · exact (hwgpr r hr).trans (hfield _ (.inl ⟨r, hr, rfl⟩))
    · rw [hwsys]
      show (q₁.set .rax (m.mem (m.gpr .rdi + ctxOffsetCr2))).gpr .rax = _
      exact X64.Machine.gpr_set_self q₁
    · rw [hwsys]
      show Function.update p.sys.vmcs (p.gpr .rdx) (p.gpr .rsp) vmxHostRsp = _
      rw [hprdx, Function.update_self, hprsp]
    · rw [hwsys]
      show Function.update p.sys.vmcs (p.gpr .rdx) (p.gpr .rsp) vmxHostRip = _
      rw [hprdx, Function.update_of_ne (by decide)]
      exact hready.hostRip
    · rw [hwsys]
      rfl
  have hlaunch : Cond.zero.holds w.rflags = decide (m.gpr .rsi = 1#64) := by
    rw [hwflags, Cond.holds]
    show (setFlags q.rflags _ _).getLsbD 6 = _
    rw [getLsbD_setFlags_zf, hqrsi]
  refine .ops hloads hw (.jcc hjz ?_)
  rw [hlaunch]
  by_cases hrsi : m.gpr .rsi = 1#64
  -- VMLAUNCH
  · obtain ⟨_, hvmlaunch, hexit⟩ := hcode.block 1 rfl rfl
    obtain rfl : _ = addr .vmExit := hexit
    rw [decide_eq_true hrsi]
    refine .instr hvmlaunch ⟨_, .inl ⟨true, false, rfl, rfl⟩⟩ fun c hc => ?_
    exact ensures_vmEntry hcode hready hentry (by rwa [decide_eq_true hrsi])
  -- VMRESUME
  · rw [decide_eq_false hrsi]
    refine .instr hresume ⟨_, .inl ⟨true, false, rfl, rfl⟩⟩ fun c hc => ?_
    rcases hc with ⟨cf, zf, hflags, rfl⟩ | hrun
    · exact .jmp hjmp (ensures_vmEntry hcode hready hentry (.inl ⟨cf, zf, hflags, rfl⟩))
    · exact ensures_vmEntry hcode hready hentry (.inr (by rwa [decide_eq_false hrsi]))

end

/-- The routine at 1000H, with one address for each instruction. -/
def vmrunAddr : VmrunLabel → Word
  | .vmxVmrun => 0x1000#64
  | .vmLaunch => 0x1020#64
  | .vmExit => 0x1021#64
  | .vmEvalError => 0x1035#64
  | .stuffRsb => 0x1045#64
  | .l3 => 0x1046#64
  | .l33 => 0x1047#64
  | .l4 => 0x1049#64
  | .l44 => 0x104a#64
  | .l5 => 0x104c#64
  | .vmReturn => 0x1050#64

/-- A call with a `run_context` at 8000H, for VMLAUNCH. -/
def vmrunCall : X64.Machine VmxCpu where
  gpr r := if r = .rsp then 0x7000#64 else if r = .rdi then 0x8000#64 else 1#64
  rflags := 0x2#64
  mem a := a + 5#64
  rsb := []
  sys := ⟨0#64, fun _ => 0x1021#64, []⟩

theorem ctxFields_vmrunCall {b : Word} (hb : b ∈ ctxFields 0x8000#64) :
    0x8000#64 ≤ b ∧ b < 0x9000#64 := by
  have hreg : ∀ r ∈ ctxRegs, 0x8000#64 ≤ 0x8000#64 + ctxOffset r ∧
      0x8000#64 + ctxOffset r < 0x9000#64 := by decide
  rcases hb with ⟨r, hr, rfl⟩ | rfl
  · exact hreg r hr
  · decide

theorem vmrunReady_vmrunCall : VmrunReady vmrunAddr { b | 0x9000#64 ≤ b } vmrunCall where
  rsp := rfl
  ctx := rfl
  hostRip := rfl
  apart b hb := by
    have hslots : ∀ i < 32, slot 0x7000#64 i < 0x8000#64 := by decide
    have hle := (ctxFields_vmrunCall hb).1
    refine ⟨fun heq => ?_, fun i hi heq => ?_⟩
    · exact absurd (heq ▸ hle) (by decide)
    · exact absurd (hslots i hi) (BitVec.not_lt.mpr (heq ▸ hle))
  guest b hb := by
    have hslots : ∀ i < 8, ¬ 0x9000#64 ≤ slot 0x7000#64 i := by decide
    refine ⟨fun hfield => ?_, fun heq => ?_, fun i hi heq => ?_⟩
    · exact absurd (ctxFields_vmrunCall hfield).2 (BitVec.not_lt.mpr hb)
    · have hrsp : b = 0x7000#64 := heq
      exact absurd (hrsp ▸ hb : 0x9000#64 ≤ 0x7000#64) (by decide)
    · have hslot : b = slot 0x7000#64 i := heq
      exact absurd (hslot ▸ hb : 0x9000#64 ≤ slot 0x7000#64 i) (hslots i hi)

theorem vmx_vmrun_returns_vmrunCall :
    Ensures (codeAt 0x1000#64 ((vmxVmrunText vmrunAddr).flatMap Prod.snd))
      (vmxExt { b | 0x9000#64 ≤ b }) (VmrunDone vmrunAddr { b | 0x9000#64 ≤ b } vmrunCall)
      (0x1000#64, vmrunCall) := by
  have hlen : ([] ++ (vmxVmrunText vmrunAddr).flatMap Prod.snd).length < 2 ^ 64 := by decide
  have hlabels : LabelsAt 0x1000#64 vmrunAddr 0 (vmxVmrunText vmrunAddr) :=
    ⟨rfl, rfl, rfl, rfl, rfl, rfl, rfl, rfl, rfl, rfl, rfl, trivial⟩
  have hlisting : Listing (codeAt 0x1000#64 ([] ++ (vmxVmrunText vmrunAddr).flatMap Prod.snd))
      vmrunAddr (vmxVmrunText vmrunAddr) := listing_codeAt hlen hlabels
  exact vmx_vmrun_returns hlisting vmrunReady_vmrunCall

end Acrn
