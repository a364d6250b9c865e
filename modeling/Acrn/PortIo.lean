import Acrn.CfgPorts
import Acrn.ExitRegs

/-!
# Port I/O and CPUID of a guest

`vmx_io.c` and `io_req.c`: an access of a guest to a port is decoded, the handler is found that
is registered for the port, and what it reads is put into RAX. Together with the exit on CPUID
this is compared with what the instructions do to the registers of a processor.
-/

namespace Acrn

open BitField RegContext

namespace Pio

/-! ## Data -/

/-- `REQUEST_READ` and `REQUEST_WRITE`. -/
inductive Direction where
  | read
  | write
  deriving DecidableEq, Repr

/-- `struct pio_request` of a vCPU. -/
structure Request where
  direction : Direction
  address : Word
  size : ℕ
  value : U32

/-- An `io_read` function: the devices and the value of the request, for a port and a size. -/
abbrev IoRead (D : Type) : Type := BitVec 16 → ℕ → D × U32 → D × U32

/-- An `io_write` function. -/
abbrev IoWrite (D : Type) : Type := BitVec 16 → ℕ → U32 → D → D

/-- `struct vm_io_handler_desc`. -/
structure Handler (D : Type) where
  portStart : BitVec 16
  portEnd : BitVec 16
  ioRead : Option (IoRead D)
  ioWrite : Option (IoWrite D)

/-- A vCPU with its request, the handlers of its VM and the devices behind them. -/
structure Vcpu (D : Type) where
  regs : RegContext
  exitQualification : Word
  req : Request
  emulPio : List (Handler D)
  dev : D

variable {D : Type}

/-! ## Functions -/

/-- `pio_default_read`. -/
def defaultRead : IoRead D := fun _ size s => (s.1, pioDefaultRead size)

/-- `pio_default_write`. -/
def defaultWrite : IoWrite D := fun _ _ _ dev => dev

/-- The loop of `hv_emulate_pio` over the handlers. -/
def findHandler (port : BitVec 16) : List (Handler D) → IoRead D × IoWrite D
  | [] => (defaultRead, defaultWrite)
  | handler :: rest =>
    if port < handler.portStart ∨ handler.portEnd ≤ port then findHandler port rest
    else (handler.ioRead.getD defaultRead, handler.ioWrite.getD defaultWrite)

/-- `hv_emulate_pio`. -/
def hvEmulatePio (s : Vcpu D) : Vcpu D :=
  let port := s.req.address.setWidth 16
  let size := s.req.size
  let (ioRead, ioWrite) := findHandler port s.emulPio
  match s.req.direction with
  | .write => { s with dev := ioWrite port size s.req.value s.dev }
  | .read =>
    let (dev, value) := ioRead port size (s.dev, s.req.value)
    { s with dev, req := { s.req with value } }

/-- `emulate_pio_complete`. -/
def emulatePioComplete (s : Vcpu D) : Vcpu D :=
  match s.req.direction with
  | .write => s
  | .read => { s with regs := s.regs.emulatePioComplete s.req.size s.req.value }

/-- `emulate_io`. -/
def emulateIo (s : Vcpu D) : Vcpu D := emulatePioComplete (hvEmulatePio s)

/-- `vm_exit_io_instruction_size`. -/
def ioInstructionSize (exitQual : Word) : Word := exitQual &&& 7#64

/-- `vm_exit_io_instruction_access_direction`. -/
def ioInstructionAccessDirection (exitQual : Word) : Word := (exitQual &&& 8#64) >>> 3

/-- `vm_exit_io_instruction_port_number`. -/
def ioInstructionPortNumber (exitQual : Word) : Word := (exitQual &&& 0xFFFF0000#64) >>> 16

/-- `pio_instr_vmexit_handler`. -/
def pioInstrVmexitHandler (s : Vcpu D) : ℤ × Vcpu D :=
  let exitQual := s.exitQualification
  let size := (ioInstructionSize exitQual).toNat + 1
  let req := { s.req with size, address := ioInstructionPortNumber exitQual }
  if size = 3 ∨ 5 ≤ size then (-erange, { s with req })
  else if ioInstructionAccessDirection exitQual = 0#64 then
    let value := (s.regs.getGpreg cpuRegRax).setWidth 32 &&& pioMask size
    (0, emulateIo { s with req := { req with direction := .write, value } })
  else (0, emulateIo { s with req := { req with direction := .read } })

/-! ## What the instructions do

IN and OUT are stated on their own: which bytes of RAX are passed or written, and that a write of
32 bits clears the high half. The handlers of the VM are only given as slots here. -/

/-- The size, the port and the direction that an exit qualification stands for. -/
def exitSize (exitQual : Word) : ℕ := (exitQual.extractLsb' 0 3).toNat + 1

def exitPort (exitQual : Word) : BitVec 16 := exitQual.extractLsb' 16 16

def exitIsIn (exitQual : Word) : Bool := exitQual.getLsbD 3

/-- The first slot whose range contains the port. -/
def slotOf (port : BitVec 16) (slots : List (Handler D)) : Option (Handler D) :=
  slots.find? fun handler => handler.portStart ≤ port ∧ port < handler.portEnd

/-- What a read of the slot gives; all ones if there is no slot. -/
def readSlot (slot : Option (Handler D)) : IoRead D := (slot.bind Handler.ioRead).getD defaultRead

def writeSlot (slot : Option (Handler D)) : IoWrite D :=
  (slot.bind Handler.ioWrite).getD defaultWrite

/-- RAX after an IN: the low bytes are those that were read, and of the others those of a 32-bit
register are kept for the smaller sizes and cleared for size 4. -/
structure InResult (size : ℕ) (rax : Word) (value : U32) (rax' : Word) : Prop where
  low : ∀ i < 8 * size, rax'.getLsbD i = value.getLsbD i
  high : ∀ i, 8 * size ≤ i → rax'.getLsbD i = if size = 4 then false else rax.getLsbD i

/-- **A port access as the processor has it.** -/
structure Architectural (s : Vcpu D) : Prop where
  invalid : exitSize s.exitQualification ∉ [1, 2, 4] →
    (pioInstrVmexitHandler s).1 = -erange ∧ (pioInstrVmexitHandler s).2.dev = s.dev ∧
      (pioInstrVmexitHandler s).2.regs = s.regs
  out : exitSize s.exitQualification ∈ [1, 2, 4] → exitIsIn s.exitQualification = false →
    (pioInstrVmexitHandler s).1 = 0 ∧ (pioInstrVmexitHandler s).2.regs = s.regs ∧
      (pioInstrVmexitHandler s).2.dev =
        writeSlot (slotOf (exitPort s.exitQualification) s.emulPio) (exitPort s.exitQualification)
          (exitSize s.exitQualification)
          (((s.regs.regs (.gpr cpuRegRax)).setWidth (8 * exitSize s.exitQualification)).setWidth 32)
          s.dev
  inn : exitSize s.exitQualification ∈ [1, 2, 4] → exitIsIn s.exitQualification = true →
    ∃ dev value, readSlot (slotOf (exitPort s.exitQualification) s.emulPio)
        (exitPort s.exitQualification) (exitSize s.exitQualification) (s.dev, s.req.value) =
          (dev, value) ∧
      (pioInstrVmexitHandler s).1 = 0 ∧ (pioInstrVmexitHandler s).2.dev = dev ∧
      InResult (exitSize s.exitQualification) (s.regs.regs (.gpr cpuRegRax)) value
        ((pioInstrVmexitHandler s).2.regs.regs (.gpr cpuRegRax)) ∧
      ∀ reg, reg ≠ .gpr cpuRegRax →
        (pioInstrVmexitHandler s).2.regs.regs reg = s.regs.regs reg

/-- The exit is not a read of four bytes, or the high half of RAX is zero. -/
def RaxFits (s : Vcpu D) : Prop :=
  exitSize s.exitQualification = 4 → exitIsIn s.exitQualification = true →
    (s.regs.regs (.gpr cpuRegRax)).toNat < 2 ^ 32

/-! ## The handler -/

theorem findHandler_eq (port : BitVec 16) (slots : List (Handler D)) :
    findHandler port slots = (readSlot (slotOf port slots), writeSlot (slotOf port slots)) := by
  induction slots with
  | nil => rfl
  | cons handler rest ih =>
    rw [findHandler, slotOf, List.find?_cons]
    by_cases hin : handler.portStart ≤ port ∧ port < handler.portEnd
    · have hskip : ¬ (port < handler.portStart ∨ handler.portEnd ≤ port) :=
        not_or.mpr ⟨BitVec.not_lt.mpr hin.1, BitVec.not_le.mpr hin.2⟩
      rw [if_neg hskip, decide_eq_true hin]
      rfl
    · have hskip : port < handler.portStart ∨ handler.portEnd ≤ port :=
        (not_and_or.mp hin).imp BitVec.not_le.mp BitVec.not_lt.mp
      rw [if_pos hskip, decide_eq_false hin, ih]
      rfl

/-! ### Decoding -/

theorem ioInstructionSize_eq (exitQual : Word) :
    (ioInstructionSize exitQual).toNat + 1 = exitSize exitQual := by
  rw [ioInstructionSize, exitSize, BitVec.toNat_and, BitVec.extractLsb'_toNat, Nat.shiftRight_zero]
  exact congrArg (· + 1) (Nat.and_two_pow_sub_one_eq_mod exitQual.toNat 3)

theorem ioInstructionPortNumber_eq (exitQual : Word) :
    (ioInstructionPortNumber exitQual).setWidth 16 = exitPort exitQual := by
  have hmask : 0xFFFF0000#64 = fieldMask 64 16 32 := by decide
  rw [ioInstructionPortNumber, exitPort, hmask]
  apply BitVec.eq_of_getLsbD_eq
  intro i hi
  have hrange : 16 + i < 32 := by omega
  have hword : 16 + i < 64 := by omega
  rw [BitVec.getLsbD_setWidth, BitVec.getLsbD_ushiftRight, BitVec.getLsbD_and,
    getLsbD_fieldMask (by decide), BitVec.getLsbD_extractLsb', decide_eq_true hrange,
    decide_eq_true hword, decide_eq_true (Nat.le_add_right 16 i)]
  simp only [Bool.and_true]

theorem ioInstructionAccessDirection_eq_zero_iff (exitQual : Word) :
    ioInstructionAccessDirection exitQual = 0#64 ↔ exitIsIn exitQual = false := by
  have hbit : exitQual &&& 8#64 ≠ 0#64 ↔ exitQual.getLsbD 3 = true :=
    and_one_shiftLeft_ne_zero (show 3 < 64 by decide) exitQual
  rw [exitIsIn, ← Bool.not_eq_true, ← hbit, not_not, ioInstructionAccessDirection]
  constructor
  · intro h
    apply BitVec.eq_of_getLsbD_eq
    intro i hi
    by_cases h3 : i = 3
    · have hshift := congrArg (fun x => x.getLsbD 0) h
      rw [h3]
      simpa using hshift
    · have height : (8#64).getLsbD i = false := by
        have hone := getLsbD_one_shiftLeft (w := 64) (n := 3) (by decide) i
        rw [show 8#64 = 1#64 <<< 3 from rfl, hone]
        exact decide_eq_false h3
      rw [BitVec.getLsbD_and, height, Bool.and_false, BitVec.getLsbD_zero]
  · intro h
    rw [h]
    rfl

theorem exitSize_mem_iff (exitQual : Word) :
    exitSize exitQual ∈ [1, 2, 4] ↔ ¬ (exitSize exitQual = 3 ∨ 5 ≤ exitSize exitQual) := by
  simp only [List.mem_cons, List.not_mem_nil, or_false]
  have : 1 ≤ exitSize exitQual := Nat.le_add_left 1 _
  omega

/-! ### Masks -/

/-- The mask of a size is that of its low bits. -/
theorem mask_eq_fieldMask {size : ℕ} (h : size ∈ [1, 2, 4]) :
    0xFFFFFFFF#64 >>> (32 - 8 * size) = fieldMask 64 0 (8 * size) ∧
      pioMask size = fieldMask 32 0 (8 * size) ∧ 8 * size ≤ 32 := by
  simp only [List.mem_cons, List.not_mem_nil, or_false] at h
  obtain rfl | rfl | rfl := h
  · decide
  · decide
  · decide

/-- An OUT passes the low bytes. -/
theorem and_pioMask {size : ℕ} (h : size ∈ [1, 2, 4]) (rax : Word) :
    rax.setWidth 32 &&& pioMask size = (rax.setWidth (8 * size)).setWidth 32 := by
  obtain ⟨-, hmask, hle⟩ := mask_eq_fieldMask h
  rw [hmask]
  apply BitVec.eq_of_getLsbD_eq
  intro i hi
  rw [BitVec.getLsbD_and, getLsbD_fieldMask (Nat.zero_le _), BitVec.getLsbD_setWidth,
    BitVec.getLsbD_setWidth, BitVec.getLsbD_setWidth]
  by_cases hlow : i < 8 * size
  · simp [hi, hlow]
  · simp [hlow]

/-- A word below `2 ^ 32` has no high bits. -/
theorem toNat_lt_iff_high (x : Word) :
    x.toNat < 2 ^ 32 ↔ ∀ i, 32 ≤ i → x.getLsbD i = false := by
  constructor
  · intro h i hi
    rw [BitVec.getLsbD]
    exact Nat.testBit_lt_two_pow (h.trans_le (Nat.pow_le_pow_right (by decide) hi))
  · intro h
    refine Nat.lt_pow_two_of_testBit _ fun i hi => ?_
    rw [BitVec.testBit_toNat]
    exact h i hi

/-- RAX after `emulate_pio_complete`: the result of the instruction, unless the high half should
have been cleared. -/
theorem inResult_iff {size : ℕ} (h : size ∈ [1, 2, 4]) (rax : Word) (value : U32) :
    InResult size rax value ((rax &&& ~~~(0xFFFFFFFF#64 >>> (32 - 8 * size))) |||
      (value.setWidth 64 &&& 0xFFFFFFFF#64 >>> (32 - 8 * size))) ↔
      (size = 4 → rax.toNat < 2 ^ 32) := by
  obtain ⟨hmask, -, hle⟩ := mask_eq_fieldMask h
  rw [hmask]
  have hbit : ∀ i < 64, ((rax &&& ~~~fieldMask 64 0 (8 * size)) |||
      (value.setWidth 64 &&& fieldMask 64 0 (8 * size))).getLsbD i =
        if i < 8 * size then value.getLsbD i else rax.getLsbD i := by
    intro i hi
    rw [BitVec.getLsbD_or, BitVec.getLsbD_and, BitVec.getLsbD_and, BitVec.getLsbD_not,
      getLsbD_fieldMask (Nat.zero_le _), BitVec.getLsbD_setWidth]
    by_cases hlow : i < 8 * size
    · simp [hi, hlow]
    · simp [hi, hlow]
  have hlow : ∀ i < 8 * size, ((rax &&& ~~~fieldMask 64 0 (8 * size)) |||
      (value.setWidth 64 &&& fieldMask 64 0 (8 * size))).getLsbD i = value.getLsbD i := by
    intro i hi
    rw [hbit i (by omega), if_pos hi]
  have hhigh : ∀ i, 8 * size ≤ i → ((rax &&& ~~~fieldMask 64 0 (8 * size)) |||
      (value.setWidth 64 &&& fieldMask 64 0 (8 * size))).getLsbD i = rax.getLsbD i := by
    intro i hi
    by_cases hi64 : i < 64
    · rw [hbit i hi64, if_neg (by omega)]
    · rw [BitVec.getLsbD_of_ge _ _ (not_lt.mp hi64), BitVec.getLsbD_of_ge _ _ (not_lt.mp hi64)]
  constructor
  · rintro ⟨-, hres⟩ h4
    rw [toNat_lt_iff_high]
    intro i hi
    have hcleared := hres i (by omega)
    rw [hhigh i (by omega), if_pos h4] at hcleared
    exact hcleared
  · intro hrax
    refine ⟨hlow, fun i hi => ?_⟩
    rw [hhigh i hi]
    split
    · rename_i h4
      exact (toNat_lt_iff_high rax).mp (hrax h4) i (by omega)
    · rfl

/-! ### The whole exit -/

section

variable (s : Vcpu D)

theorem pioInstrVmexitHandler_invalid (h : exitSize s.exitQualification ∉ [1, 2, 4]) :
    (pioInstrVmexitHandler s).1 = -erange ∧ (pioInstrVmexitHandler s).2.dev = s.dev ∧
      (pioInstrVmexitHandler s).2.regs = s.regs := by
  have hsize : exitSize s.exitQualification = 3 ∨ 5 ≤ exitSize s.exitQualification :=
    not_not.mp (mt (exitSize_mem_iff _).mpr h)
  rw [pioInstrVmexitHandler]
  simp only [ioInstructionSize_eq, if_pos hsize]
  exact ⟨trivial, trivial, trivial⟩

theorem pioInstrVmexitHandler_out (h : exitSize s.exitQualification ∈ [1, 2, 4])
    (hout : exitIsIn s.exitQualification = false) :
    (pioInstrVmexitHandler s).1 = 0 ∧ (pioInstrVmexitHandler s).2.regs = s.regs ∧
      (pioInstrVmexitHandler s).2.dev =
        writeSlot (slotOf (exitPort s.exitQualification) s.emulPio) (exitPort s.exitQualification)
          (exitSize s.exitQualification)
          (((s.regs.regs (.gpr cpuRegRax)).setWidth (8 * exitSize s.exitQualification)).setWidth 32)
          s.dev := by
  have hsize := (exitSize_mem_iff _).mp h
  have hdirection := (ioInstructionAccessDirection_eq_zero_iff _).mpr hout
  rw [pioInstrVmexitHandler]
  simp only [ioInstructionSize_eq, if_neg hsize, if_pos hdirection, emulateIo, hvEmulatePio,
    emulatePioComplete, ioInstructionPortNumber_eq, findHandler_eq, and_pioMask h]
  exact ⟨trivial, trivial, rfl⟩

theorem pioInstrVmexitHandler_in (h : exitSize s.exitQualification ∈ [1, 2, 4])
    (hin : exitIsIn s.exitQualification = true) {dev : D} {value : U32}
    (hread : readSlot (slotOf (exitPort s.exitQualification) s.emulPio)
      (exitPort s.exitQualification) (exitSize s.exitQualification) (s.dev, s.req.value) =
        (dev, value)) :
    (pioInstrVmexitHandler s).1 = 0 ∧ (pioInstrVmexitHandler s).2.dev = dev ∧
      (pioInstrVmexitHandler s).2.regs =
        s.regs.emulatePioComplete (exitSize s.exitQualification) value := by
  have hsize := (exitSize_mem_iff _).mp h
  have hdirection : ¬ ioInstructionAccessDirection s.exitQualification = 0#64 := by
    rw [ioInstructionAccessDirection_eq_zero_iff, hin]
    decide
  rw [pioInstrVmexitHandler]
  simp only [ioInstructionSize_eq, if_neg hsize, if_neg hdirection, emulateIo, hvEmulatePio,
    emulatePioComplete, ioInstructionPortNumber_eq, findHandler_eq, hread]
  exact ⟨trivial, trivial, trivial⟩

/-- **The port access is as the processor has it exactly if RAX fits.** -/
theorem architectural_iff : Architectural s ↔ RaxFits s := by
  have hresult : ∀ value, InResult (exitSize s.exitQualification) (s.regs.regs (.gpr cpuRegRax))
      value ((s.regs.emulatePioComplete (exitSize s.exitQualification) value).regs
        (.gpr cpuRegRax)) ↔ InResult (exitSize s.exitQualification) (s.regs.regs (.gpr cpuRegRax))
      value ((s.regs.getGpreg cpuRegRax &&&
          ~~~(0xFFFFFFFF#64 >>> (32 - 8 * exitSize s.exitQualification))) |||
        (value.setWidth 64 &&& 0xFFFFFFFF#64 >>> (32 - 8 * exitSize s.exitQualification))) := by
    intro value
    rw [RegContext.emulatePioComplete, setGpreg_regs, Function.update_self]
  constructor
  · intro harch h4 hin
    have hmem : exitSize s.exitQualification ∈ [1, 2, 4] := by rw [h4]; decide
    obtain ⟨dev, value, hread, -, -, hin', -⟩ := harch.inn hmem hin
    rw [(pioInstrVmexitHandler_in s hmem hin hread).2.2, hresult] at hin'
    exact (inResult_iff hmem _ value).mp hin' h4
  · intro hfits
    refine ⟨pioInstrVmexitHandler_invalid s, pioInstrVmexitHandler_out s, fun hmem hin => ?_⟩
    obtain ⟨dev, value, hread⟩ : ∃ dev value, readSlot (slotOf (exitPort s.exitQualification)
        s.emulPio) (exitPort s.exitQualification) (exitSize s.exitQualification)
        (s.dev, s.req.value) = (dev, value) := ⟨_, _, rfl⟩
    obtain ⟨hret, hdev, hregs⟩ := pioInstrVmexitHandler_in s hmem hin hread
    refine ⟨dev, value, hread, hret, hdev, ?_, fun reg hreg => ?_⟩
    · rw [hregs, hresult]
      exact (inResult_iff hmem _ value).mpr fun h4 => hfits h4 hin
    · rw [hregs, RegContext.emulatePioComplete, setGpreg_regs, Function.update_of_ne hreg]

end

/-- For the registers, this is the handler of which only the value is known that is read. -/
theorem pioInstrVmexitHandler_regs (s : Vcpu D) :
    ∃ value, (pioInstrVmexitHandler s).1 =
        (s.regs.pioInstrVmexitHandler s.exitQualification value).1 ∧
      (pioInstrVmexitHandler s).2.regs =
        (s.regs.pioInstrVmexitHandler s.exitQualification value).2 := by
  have hsize : (s.exitQualification &&& 7#64).toNat + 1 = exitSize s.exitQualification :=
    ioInstructionSize_eq _
  have hbit : s.exitQualification &&& 8#64 ≠ 0#64 ↔ exitIsIn s.exitQualification = true :=
    and_one_shiftLeft_ne_zero (show 3 < 64 by decide) _
  by_cases hmem : exitSize s.exitQualification ∈ [1, 2, 4]
  · have hvalid := (exitSize_mem_iff _).mp hmem
    cases hin : exitIsIn s.exitQualification with
    | false =>
      have hzero : s.exitQualification &&& 8#64 = 0#64 := by
        by_contra hne
        exact absurd (hin.symm.trans (hbit.mp hne)) nofun
      obtain ⟨hret, hregs, -⟩ := pioInstrVmexitHandler_out s hmem hin
      refine ⟨0#32, ?_, ?_⟩
      · rw [hret, RegContext.pioInstrVmexitHandler, hsize, if_neg hvalid, if_pos hzero]
      · rw [hregs, RegContext.pioInstrVmexitHandler, hsize, if_neg hvalid, if_pos hzero]
    | true =>
      obtain ⟨dev, value, hread⟩ : ∃ dev value, readSlot (slotOf (exitPort s.exitQualification)
          s.emulPio) (exitPort s.exitQualification) (exitSize s.exitQualification)
          (s.dev, s.req.value) = (dev, value) := ⟨_, _, rfl⟩
      obtain ⟨hret, -, hregs⟩ := pioInstrVmexitHandler_in s hmem hin hread
      refine ⟨value, ?_, ?_⟩
      · rw [hret, RegContext.pioInstrVmexitHandler, hsize, if_neg hvalid, if_neg (hbit.mpr hin)]
      · rw [hregs, RegContext.pioInstrVmexitHandler, hsize, if_neg hvalid, if_neg (hbit.mpr hin)]
  · have hinvalid := not_not.mp (mt (exitSize_mem_iff _).mpr hmem)
    obtain ⟨hret, -, hregs⟩ := pioInstrVmexitHandler_invalid s hmem
    refine ⟨0#32, ?_, ?_⟩
    · rw [hret, RegContext.pioInstrVmexitHandler, hsize, if_pos hinvalid]
    · rw [hregs, RegContext.pioInstrVmexitHandler, hsize, if_pos hinvalid]

/-! ## The ports of configuration space -/

section

variable (ops : ℕ → MemoryOps) (lapicLdr : PcpuId → U32) (m : Machine) (vmId : ℕ)

/-- The handlers that `vpci_init` registers. -/
def pciHandlers : List (Handler VpciWorld) :=
  [⟨pciConfigAddr, pciConfigAddr + 1#16,
      some fun port size s => (s.1, pciCfgaddrIoRead (s.1.vpci vmId) port size),
      some fun port size val w =>
        w.setVpci vmId (pciCfgaddrIoWrite (w.vpci vmId) port size val)⟩,
    ⟨pciConfigData, pciConfigData + 4#16,
      some fun port size s => pciCfgdataIoRead vmId s.1 port size,
      some fun port size val w => pciCfgdataIoWrite ops lapicLdr m vmId w port size val⟩]

/-- An access where only these are registered. -/
theorem findHandler_pciHandlers (port : BitVec 16) (size : ℕ) (w : VpciWorld) (rax old : U32) :
    ((findHandler port (pciHandlers ops lapicLdr m vmId)).2 port size (rax &&& pioMask size) w,
        none) = Acrn.emulateIo ops lapicLdr w ⟨vmId, m, ⟨.write rax, port, size⟩⟩ ∧
      (Prod.map id fun value => some (value &&& pioMask size))
          ((findHandler port (pciHandlers ops lapicLdr m vmId)).1 port size (w, old)) =
        Acrn.emulateIo ops lapicLdr w ⟨vmId, m, ⟨.read, port, size⟩⟩ := by
  have haddr : (port < pciConfigAddr ∨ pciConfigAddr + 1#16 ≤ port) ↔
      ¬ isCfgaddrPort port = true := by
    rw [isCfgaddrPort, Bool.and_eq_true, decide_eq_true_eq, decide_eq_true_eq, not_and_or,
      BitVec.not_le, BitVec.not_lt]
  have hdata : (port < pciConfigData ∨ pciConfigData + 4#16 ≤ port) ↔
      ¬ isCfgdataPort port = true := by
    rw [isCfgdataPort, Bool.and_eq_true, decide_eq_true_eq, decide_eq_true_eq, not_and_or,
      BitVec.not_le, BitVec.not_lt]
  rw [pciHandlers, findHandler, findHandler, findHandler, Acrn.emulateIo, Acrn.emulateIo]
  by_cases hcfgaddr : isCfgaddrPort port = true
  · rw [if_neg (fun h => haddr.mp h hcfgaddr)]
    simp only [if_pos hcfgaddr]
    exact ⟨rfl, rfl⟩
  rw [if_pos (haddr.mpr hcfgaddr)]
  simp only [if_neg hcfgaddr]
  by_cases hcfgdata : isCfgdataPort port = true
  · rw [if_neg (fun h => hdata.mp h hcfgdata)]
    simp only [if_pos hcfgdata]
    exact ⟨rfl, rfl⟩
  · rw [if_pos (hdata.mpr hcfgdata)]
    simp only [if_neg hcfgdata]
    exact ⟨rfl, rfl⟩

end

end Pio

/-! ## CPUID

CPUID writes four registers of 32 bits, whose high halves it clears. The handler writes the low
halves through pointers, so that it is right where the high halves are zero already. -/

section

variable (s : RegContext) (readsCr4 : Bool) (guestCpuid : Word → CpuidRegs → CpuidRegs)

/-- The registers that CPUID writes. -/
def cpuidGprs : List (Fin 16) := [cpuRegRax, cpuRegRbx, cpuRegRcx, cpuRegRdx]

/-- What `guest_cpuid` makes of the registers of an exit. -/
def cpuidResult : CpuidRegs :=
  guestCpuid (if readsCr4 then s.regs .cr4 else 0#64)
    ⟨(s.regs (.gpr cpuRegRax)).setWidth 32, (s.regs (.gpr cpuRegRbx)).setWidth 32,
      (s.regs (.gpr cpuRegRcx)).setWidth 32, (s.regs (.gpr cpuRegRdx)).setWidth 32⟩

/-- **CPUID as the processor has it**: the four registers are the results, with the high halves
cleared, and no other register changes. -/
structure CpuidArchitectural : Prop where
  rax : (s.cpuidVmexitHandler readsCr4 guestCpuid).regs (.gpr cpuRegRax) =
    (cpuidResult s readsCr4 guestCpuid).eax.setWidth 64
  rbx : (s.cpuidVmexitHandler readsCr4 guestCpuid).regs (.gpr cpuRegRbx) =
    (cpuidResult s readsCr4 guestCpuid).ebx.setWidth 64
  rcx : (s.cpuidVmexitHandler readsCr4 guestCpuid).regs (.gpr cpuRegRcx) =
    (cpuidResult s readsCr4 guestCpuid).ecx.setWidth 64
  rdx : (s.cpuidVmexitHandler readsCr4 guestCpuid).regs (.gpr cpuRegRdx) =
    (cpuidResult s readsCr4 guestCpuid).edx.setWidth 64
  others : ∀ reg, (∀ i ∈ cpuidGprs, reg ≠ .gpr i) →
    (s.cpuidVmexitHandler readsCr4 guestCpuid).regs reg = s.regs reg

/-- The high halves of the registers are zero. -/
def CpuidFits : Prop := ∀ i ∈ cpuidGprs, (s.regs (.gpr i)).toNat < 2 ^ 32

/-- The write of 32 bits clears nothing. -/
theorem setLow_eq_iff (reg : Word) (val : U32) :
    setLow reg val = val.setWidth 64 ↔ reg.toNat < 2 ^ 32 := by
  have hmask : 0xFFFFFFFF00000000#64 = fieldMask 64 32 64 := by decide
  have hbit : ∀ i, (setLow reg val).getLsbD i =
      if i < 32 then val.getLsbD i else reg.getLsbD i := by
    intro i
    rw [setLow, hmask, BitVec.getLsbD_or, BitVec.getLsbD_and, getLsbD_fieldMask (by decide),
      BitVec.getLsbD_setWidth]
    by_cases hi : i < 32
    · have hword : i < 64 := by omega
      simp [hi, hword]
    · rw [if_neg hi, BitVec.getLsbD_of_ge val i (not_lt.mp hi)]
      by_cases hword : i < 64
      · simp [hword, not_lt.mp hi]
      · simp [BitVec.getLsbD_of_ge reg i (not_lt.mp hword)]
  rw [Pio.toNat_lt_iff_high]
  constructor
  · intro h i hi
    have hzero := congrArg (fun x => x.getLsbD i) h
    simp only [hbit i, if_neg (not_lt.mpr hi), BitVec.getLsbD_setWidth,
      BitVec.getLsbD_of_ge val i hi, Bool.and_false] at hzero
    exact hzero
  · intro h
    apply BitVec.eq_of_getLsbD_eq
    intro i hword
    rw [hbit i, BitVec.getLsbD_setWidth]
    by_cases hi : i < 32
    · simp [hi, hword]
    · rw [if_neg hi, h i (not_lt.mp hi), BitVec.getLsbD_of_ge val i (not_lt.mp hi), Bool.and_false]

/-- All registers after the exit. -/
theorem cpuidVmexitHandler_regs :
    (s.cpuidVmexitHandler readsCr4 guestCpuid).regs =
      Function.update (Function.update (Function.update (Function.update s.regs (.gpr cpuRegRax)
        (setLow (s.regs (.gpr cpuRegRax)) (cpuidResult s readsCr4 guestCpuid).eax)) (.gpr cpuRegRbx)
        (setLow (s.regs (.gpr cpuRegRbx)) (cpuidResult s readsCr4 guestCpuid).ebx)) (.gpr cpuRegRcx)
        (setLow (s.regs (.gpr cpuRegRcx)) (cpuidResult s readsCr4 guestCpuid).ecx)) (.gpr cpuRegRdx)
        (setLow (s.regs (.gpr cpuRegRdx)) (cpuidResult s readsCr4 guestCpuid).edx) := by
  rw [cpuidVmexitHandler, setGpreg_regs, setGpreg_regs, setGpreg_regs, setGpreg_regs, cpuidResult]
  cases readsCr4 with
  | false => rfl
  | true =>
    have hcr4 := getCr4_gets (s := s)
    rw [if_pos rfl, if_pos rfl, ← hcr4.value, hcr4.regs]
    rfl

theorem cpuidArchitectural_iff : CpuidArchitectural s readsCr4 guestCpuid ↔ CpuidFits s := by
  have hregs := cpuidVmexitHandler_regs s readsCr4 guestCpuid
  have hrax := congrFun hregs (.gpr cpuRegRax)
  have hrbx := congrFun hregs (.gpr cpuRegRbx)
  have hrcx := congrFun hregs (.gpr cpuRegRcx)
  have hrdx := congrFun hregs (.gpr cpuRegRdx)
  rw [Function.update_of_ne (by decide), Function.update_of_ne (by decide),
    Function.update_of_ne (by decide), Function.update_self] at hrax
  rw [Function.update_of_ne (by decide), Function.update_of_ne (by decide),
    Function.update_self] at hrbx
  rw [Function.update_of_ne (by decide), Function.update_self] at hrcx
  rw [Function.update_self] at hrdx
  have hothers : ∀ reg, (∀ i ∈ cpuidGprs, reg ≠ .gpr i) →
      (s.cpuidVmexitHandler readsCr4 guestCpuid).regs reg = s.regs reg := by
    intro reg hreg
    rw [hregs, Function.update_of_ne (hreg cpuRegRdx (by decide)),
      Function.update_of_ne (hreg cpuRegRcx (by decide)),
      Function.update_of_ne (hreg cpuRegRbx (by decide)),
      Function.update_of_ne (hreg cpuRegRax (by decide))]
  constructor
  · intro h i hi
    simp only [cpuidGprs, List.mem_cons, List.not_mem_nil, or_false] at hi
    obtain rfl | rfl | rfl | rfl := hi
    · exact (setLow_eq_iff _ _).mp (hrax.symm.trans h.rax)
    · exact (setLow_eq_iff _ _).mp (hrbx.symm.trans h.rbx)
    · exact (setLow_eq_iff _ _).mp (hrcx.symm.trans h.rcx)
    · exact (setLow_eq_iff _ _).mp (hrdx.symm.trans h.rdx)
  · intro h
    refine ⟨hrax.trans ?_, hrbx.trans ?_, hrcx.trans ?_, hrdx.trans ?_, hothers⟩
    · exact (setLow_eq_iff _ _).mpr (h cpuRegRax (by decide))
    · exact (setLow_eq_iff _ _).mpr (h cpuRegRbx (by decide))
    · exact (setLow_eq_iff _ _).mpr (h cpuRegRcx (by decide))
    · exact (setLow_eq_iff _ _).mpr (h cpuRegRdx (by decide))

end

/-- **The exits on port I/O and CPUID are as the processor has the instructions**, exactly if no
high half that should be cleared is set. -/
theorem exits_architectural_iff {D : Type} (s : Pio.Vcpu D) (r : RegContext) (readsCr4 : Bool)
    (guestCpuid : Word → CpuidRegs → CpuidRegs) :
    (Pio.Architectural s ↔ Pio.RaxFits s) ∧
      (CpuidArchitectural r readsCr4 guestCpuid ↔ CpuidFits r) :=
  ⟨Pio.architectural_iff s, cpuidArchitectural_iff r readsCr4 guestCpuid⟩

/-- A guest whose registers are all ones in the high halves. -/
def guestWithHighHalves : RegContext where
  vcpu := Vcpu.cleared ⟨0#64, 0#64⟩
  longs := fun _ => 0xFFFFFFFF00000000#64
  rip := 0#64
  rflags := 2#64
  ripUpdated := false
  rspUpdated := false
  rflagsUpdated := false
  ripCached := false
  rflagsCached := false
  launched := true
  guestRip := 0#64
  guestRsp := 0#64
  guestRflags := 2#64

/-- The guest reads four bytes of port 80H, for which nothing is registered: the high half of RAX
stays. -/
theorem exits_high_halves :
    let s : Pio.Vcpu Unit := ⟨guestWithHighHalves, 0x80000B#64, ⟨.read, 0#64, 0, 0#32⟩, [], ()⟩
    (Pio.pioInstrVmexitHandler s).2.regs.regs (.gpr cpuRegRax) = 0xFFFFFFFFFFFFFFFF#64 ∧
      ¬ Pio.Architectural s ∧
      ¬ CpuidArchitectural guestWithHighHalves false (fun _ _ => ⟨0x16#32, 0#32, 0#32, 0#32⟩) := by
  intro s
  refine ⟨by decide, ?_, ?_⟩
  · intro h
    exact absurd ((Pio.architectural_iff s).mp h (by decide) (by decide)) (by decide)
  · intro h
    exact absurd ((cpuidArchitectural_iff _ _ _).mp h cpuRegRax (by decide)) (by decide)

end Acrn
