import Acrn.Lib.BitField
import Acrn.VmxVmrun

/-!
# Exceptions and interrupts in the hypervisor

The descriptors of `HOST_IDT` before and after `fixup_idt`, and the entry points of `idt.S`:
each pushes the number of its vector, and the common ones save and restore all
general-purpose registers around the call of a C function.
-/

namespace Acrn

open BitField X64

/-! ## The descriptors

The assembler cannot split an address as a descriptor wants it, so `fixup_idt` moves the parts at
run time. Here the result is read as the processor reads it. -/

/-- `union idt_64_descriptor`. -/
structure IdtDesc where
  low32 : BitVec 32
  high32 : BitVec 32
  offset6332 : BitVec 32
  rsvd : BitVec 32

/-- The macro `interrupt_descriptor`. -/
def interruptDescriptor (entry : Word) (dpl ist : BitVec 32) : IdtDesc where
  low32 := 0x0008#32 <<< 16
  high32 := 0x00008e00#32 + (dpl <<< 13) + ist
  offset6332 := entry.setWidth 32
  rsvd := (entry >>> 32).setWidth 32

/-- `fixup_idt` on a descriptor. -/
def fixupIdt (d : IdtDesc) : IdtDesc :=
  let entryLo32 := d.offset6332
  let entryHi32 := d.rsvd
  { low32 := (d.low32 &&& 0xffff0000#32) ||| (entryLo32 &&& 0xffff#32)
    high32 := (d.high32 &&& 0xffff#32) ||| ((entryLo32 >>> 16) <<< 16)
    offset6332 := entryHi32
    rsvd := 0#32 }

namespace IdtDesc

variable (d : IdtDesc)

/-- The entry point that the processor finds. -/
def offset : Word :=
  (d.offset6332.setWidth 64 <<< 32) ||| (d.high32.setWidth 64 &&& 0xffff0000#64) |||
    (d.low32.setWidth 64 &&& 0xffff#64)

/-- A present interrupt gate. -/
def IsInterruptGate : Prop := d.high32 &&& 0x8f00#32 = 0x8e00#32

instance : Decidable d.IsInterruptGate := inferInstanceAs (Decidable (_ = _))

def ist : BitVec 32 := d.high32 &&& 0x7#32

end IdtDesc

/-- The low half of the second doubleword stays. -/
theorem high32_fixupIdt (d : IdtDesc) {mask : BitVec 32} (hmask : mask &&& 0xffff#32 = mask) :
    (fixupIdt d).high32 &&& mask = d.high32 &&& mask := by
  have hshift : (d.offset6332 >>> 16) <<< 16 &&& 0xffff#32 = 0#32 := by
    apply BitVec.eq_of_getLsbD_eq
    intro i hi
    rw [show 0xffff#32 = fieldMask 32 0 16 by decide, BitVec.getLsbD_and, BitVec.getLsbD_shiftLeft,
      getLsbD_fieldMask (Nat.zero_le 16), BitVec.getLsbD_zero]
    by_cases hlt : i < 16
    · rw [decide_eq_true hlt, Bool.not_true, Bool.and_false, Bool.false_and, Bool.false_and]
    · rw [decide_eq_false hlt, Bool.and_false, Bool.and_false, Bool.and_false]
  rw [fixupIdt]
  dsimp only
  rw [or_and_of_disjoint_right (and_eq_zero_of_subset hshift hmask), BitVec.and_assoc,
    BitVec.and_comm 0xffff#32, hmask]

theorem low_masks : (0xffff0000#32 = fieldMask 32 16 32 ∧ 0xffff#32 = fieldMask 32 0 16) ∧
    0xffff0000#64 = fieldMask 64 16 32 ∧ 0xffff#64 = fieldMask 64 0 16 := by decide

/-- The processor finds the entry point of the macro, -/
theorem offset_fixupIdt (entry : Word) (dpl ist : BitVec 32) :
    (fixupIdt (interruptDescriptor entry dpl ist)).offset = entry := by
  generalize hhigh : (interruptDescriptor entry dpl ist).high32 = high
  obtain ⟨⟨h32, h16⟩, h64, h64'⟩ := low_masks
  rw [IdtDesc.offset, fixupIdt, hhigh, interruptDescriptor, h32, h16, h64, h64']
  apply BitVec.eq_of_getLsbD_eq
  intro i hi
  simp only [BitVec.getLsbD_or, BitVec.getLsbD_and, BitVec.getLsbD_setWidth,
    BitVec.getLsbD_shiftLeft, BitVec.getLsbD_ushiftRight,
    getLsbD_fieldMask (show 16 ≤ 32 by decide), getLsbD_fieldMask (Nat.zero_le 16)]
  rcases lt_or_ge i 16 with hlo | hlo
  · have hi32 : i < 32 := by omega
    simp only [hi, hlo, hi32, Nat.not_le.mpr hlo, Nat.zero_le, decide_true, decide_false,
      Bool.true_and, Bool.and_true, Bool.and_false, Bool.false_or, Bool.not_true, Bool.false_and]
  rcases lt_or_ge i 32 with hmid | hhi
  · have hback : 16 + (i - 16) = i := by omega
    simp only [hi, hlo, hmid, hback, Nat.not_lt.mpr hlo, Nat.zero_le, decide_true,
      decide_false, Bool.true_and, Bool.and_true, Bool.and_false, Bool.false_or, Bool.or_false,
      Bool.not_true, Bool.not_false, Bool.false_and]
  · have hback : 32 + (i - 32) = i := by omega
    have hlt : i - 32 < 32 := by omega
    have hlt64 : i - 32 < 64 := by omega
    simp only [hi, hback, hlt, hlt64, Nat.not_lt.mpr hhi, Nat.not_lt.mpr hlo, decide_true,
      decide_false, Bool.true_and, Bool.and_true, Bool.and_false, Bool.or_false, Bool.not_false]

/-! ## The entry points -/

/-- The C functions that they call. -/
inductive IdtHandler where
  | dispatchException
  | handleNmi
  | dispatchInterrupt
  deriving DecidableEq

/-- A call of one: its argument, and the memory. -/
structure HandlerCall where
  handler : IdtHandler
  ctx : Word
  mem : Word → Word

/-- The processor but for its general-purpose registers and RFLAGS. -/
structure IdtCpu where
  cs : Word
  ss : Word
  /-- the stacks of the interrupt stack table, by their numbers -/
  ist : BitVec 32 → Word
  /-- the address of `pending_req` of the vCPU in `ever_run_vcpu` -/
  everRunVcpu : Option Word
  /-- the calls, the last one first -/
  calls : List HandlerCall
  panicked : Bool

/-- The instructions of `idt.S` that are not plain ones. -/
inductive IdtOp where
  | callC (h : IdtHandler)
  | iretq

/-- The labels. -/
inductive IdtLabel where
  /-- the entry point of a vector -/
  | vector (v : Fin 256)
  | excpSaveFrame
  | excpRsvd
  | nmiSaveFrame
  | externalInterruptSaveFrame
  deriving DecidableEq

/-- The arguments `dpl` and `ist` of the descriptor of a vector in `HOST_IDT`. -/
def vectorDpl (v : ℕ) : BitVec 32 := if v = 1 ∨ v = 3 ∨ v = 4 then 3#32 else 0#32
def vectorIst (v : ℕ) : BitVec 32 :=
  if v = 8 then 2#32 else if v = 12 then 3#32 else if v = 18 then 1#32 else 0#32

/-- `HOST_IDT` after `fixup_idt`. -/
def hostIdt (addr : IdtLabel → Word) (v : Fin 256) : IdtDesc :=
  fixupIdt (interruptDescriptor (addr (.vector v)) (vectorDpl v) (vectorIst v))

/-- The entry points that do not push a pseudo error code. -/
def noPseudoError : List ℕ := [0x08, 0x0a, 0x0b, 0x0c, 0x0d, 0x0e, 0x11]

/-- Where an entry point goes on. -/
def commonEntry (v : ℕ) : IdtLabel :=
  if v = 2 then .nmiSaveFrame
  else if v = 0x09 ∨ v = 0x0f ∨ 0x15 ≤ v ∧ v < 0x20 then .excpRsvd
  else if v < 0x20 then .excpSaveFrame
  else .externalInterruptSaveFrame

/-- The registers that `save_frame` pushes before and after RSP. -/
def frameRegs : List X64.Reg := [.r15, .r14, .r13, .r12, .r11, .r10, .r9, .r8, .rdi, .rsi, .rbp]
def frameRegs' : List X64.Reg := [.rbx, .rdx, .rcx, .rax]

/-- The macro `save_frame`. -/
def saveFrame : List Op :=
  frameRegs.map .push ++ .push .rsp :: frameRegs'.map .push ++ [.mov .rdi .rsp]

/-- The macro `restore_frame`. -/
def restoreFrame : List Op :=
  frameRegs'.reverse.map .pop ++ .pop .rsp :: frameRegs.reverse.map .pop ++ [.addImm .rsp 16#64]

/-- A common entry point. -/
def savedCall (h : IdtHandler) : List (Instr IdtOp) :=
  saveFrame.map .op ++ .ext (.callC h) :: restoreFrame.map .op ++ [.ext .iretq]

/-- The text of `idt.S`. -/
def idtText (addr : IdtLabel → Word) : IdtLabel → List (Instr IdtOp)
  | .vector v => (if (v : ℕ) ∈ noPseudoError then [] else [.op (.pushImm 0#64)]) ++
      [.op (.pushImm (BitVec.ofNat 64 v)), .jmp (addr (commonEntry v))]
  | .excpSaveFrame => savedCall .dispatchException
  | .excpRsvd => savedCall .dispatchException
  | .nmiSaveFrame => savedCall .handleNmi
  | .externalInterruptSaveFrame => savedCall .dispatchInterrupt

/-! ## The processor -/

/-- The vectors with which the processor pushes an error code. They are those of exceptions: of an
external interrupt with such a vector, for which there would be none, nothing is said. -/
def hasErrorCode (v : ℕ) : Bool := v ∈ [8, 10, 11, 12, 13, 14, 17]

/-- The stack that an interrupt is delivered on. -/
def deliveryStack (d : IdtDesc) (m : X64.Machine IdtCpu) : Word :=
  (if d.ist = 0#32 then m.gpr .rsp else m.sys.ist d.ist) &&& ~~~0xf#64

/-- The machine before the processor pushes; IF, TF, NT, RF and VM are cleared. -/
def delivered (d : IdtDesc) (m : X64.Machine IdtCpu) : X64.Machine IdtCpu :=
  { m.set .rsp (deliveryStack d m) with
    rflags := m.rflags &&& ~~~0x34300#64
    sys.cs := (d.low32 >>> 16).setWidth 64 }

/-- The processor delivers a vector between two instructions. -/
def deliver (idt : Fin 256 → IdtDesc) (v : Fin 256) (error rip : Word) (m : X64.Machine IdtCpu) :
    Option (Config IdtCpu) :=
  if (idt v).IsInterruptGate then
    some ((idt v).offset, (delivered (idt v) m).pushAll
      ([m.sys.ss, m.gpr .rsp, m.rflags, m.sys.cs, rip] ++ if hasErrorCode v then [error] else []))
  else none

/-- `handle_nmi`: `ACRN_REQUEST_NMI` is requested of the vCPU. -/
def handleNmi (everRunVcpu : Option Word) (mem : Word → Word) : Word → Word :=
  match everRunVcpu with
  | none => mem
  | some pendingReq => Function.update mem pendingReq (mem pendingReq ||| 1#64 <<< 3)

/-- The registers that a C function preserves. -/
def preservedRegs : List X64.Reg := [.rsp, .rbx, .rbp, .r12, .r13, .r14, .r15]

/-- A call of a C function, which uses `depth` quadwords of the stack: `handle_nmi` returns,
and the others end in `panic`. -/
inductive CalledC (depth : ℕ) (next : Word) (m : X64.Machine IdtCpu) :
    IdtHandler → Config IdtCpu → Prop where
  | panics (h : IdtHandler) : h ≠ .handleNmi → CalledC depth next m h (next, { m with
      sys.calls := ⟨h, m.gpr .rdi, m.mem⟩ :: m.sys.calls
      sys.panicked := true })
  | returns (gpr : X64.Reg → Word) (rflags : Word) (mem : Word → Word) (rsb : List Word) :
      (∀ r ∈ preservedRegs, gpr r = m.gpr r) →
      (∀ b, (∀ i < depth, b ≠ slot (m.gpr .rsp) i) →
        mem b = handleNmi m.sys.everRunVcpu m.mem b) →
      CalledC depth next m .handleNmi (next, {
        gpr
        rflags
        mem
        rsb
        sys := { m.sys with calls := ⟨.handleNmi, m.gpr .rdi, m.mem⟩ :: m.sys.calls } })

/-- What the instructions of `IdtOp` do. -/
def idtExt (depth : ℕ) : IdtOp → Word → X64.Machine IdtCpu → Config IdtCpu → Prop
  | .callC h, next, m, c => CalledC depth next m h c
  | .iretq, _, m, c => c = (m.mem (m.gpr .rsp), {
      m.set .rsp (m.mem (m.gpr .rsp + 24#64)) with
      rflags := m.mem (m.gpr .rsp + 16#64)
      sys.cs := m.mem (m.gpr .rsp + 8#64)
      sys.ss := m.mem (m.gpr .rsp + 32#64) })

/-! ## The frame

Interrupts with an error code and without come to the same layout, since the entry points push a
pseudo error code for the others. `FrameIn` is the frame in memory, with each value at its place. -/

section
variable {m x y : X64.Machine IdtCpu} {top : Word} {v : ℕ} {error rip : Word}

/-- What is on the stack at the call of the C function. -/
def frameValues (m : X64.Machine IdtCpu) (top : Word) (v : ℕ) (error rip : Word) : List Word :=
  [m.sys.ss, m.gpr .rsp, m.rflags, m.sys.cs, rip, if hasErrorCode v then error else 0#64,
    BitVec.ofNat 64 v] ++ frameRegs.map m.gpr ++ slot top 17 :: frameRegs'.map m.gpr

theorem length_frameValues : (frameValues m top v error rip).length = 23 := rfl

/-- A register in a list of values. -/
theorem getElem?_map_idxOf {rs : List X64.Reg} {r : X64.Reg} (hr : r ∈ rs) (f : X64.Reg → Word)
    (before after : List Word) :
    (before ++ rs.map f ++ after)[before.length + rs.idxOf r]? = some (f r) := by
  have hlt : rs.idxOf r < rs.length := List.idxOf_lt_length_iff.mpr hr
  rw [List.append_assoc, List.getElem?_append_right (Nat.le_add_right ..), Nat.add_sub_cancel_left,
    List.getElem?_append_left (by rwa [List.length_map]), List.getElem?_map,
    List.getElem?_eq_getElem hlt, Option.map_some, List.getElem_idxOf hlt]

/-- The frame of the machine is in the memory. -/
def FrameIn (m : X64.Machine IdtCpu) (top : Word) (v : ℕ) (error rip : Word) (mem : Word → Word) :
    Prop :=
  ∀ i w, (frameValues m top v error rip)[i]? = some w → mem (slot top i) = w

theorem frameIn_pushed {mem : Word → Word} :
    FrameIn m top v error rip (pushed mem top (frameValues m top v error rip)) := by
  intro i w hw
  obtain ⟨hi, rfl⟩ := List.getElem?_eq_some_iff.mp hw
  exact pushed_slot (length_frameValues.trans_lt (by decide)) hi

theorem FrameIn.frameReg {mem : Word → Word} (h : FrameIn m top v error rip mem) {r : X64.Reg}
    (hr : r ∈ frameRegs) : mem (slot top (7 + frameRegs.idxOf r)) = m.gpr r :=
  h _ _ (getElem?_map_idxOf hr m.gpr [_, _, _, _, _, _, _] _)

theorem FrameIn.frameReg' {mem : Word → Word} (h : FrameIn m top v error rip mem) {r : X64.Reg}
    (hr : r ∈ frameRegs') : mem (slot top (19 + frameRegs'.idxOf r)) = m.gpr r := by
  have hvalues : frameValues m top v error rip = ([m.sys.ss, m.gpr .rsp, m.rflags, m.sys.cs, rip,
      if hasErrorCode v then error else 0#64, BitVec.ofNat 64 v] ++ frameRegs.map m.gpr ++
        [slot top 17]) ++ frameRegs'.map m.gpr ++ [] := rfl
  exact h _ _ (hvalues ▸ getElem?_map_idxOf hr m.gpr _ [])

/-- `save_frame` completes the frame. -/
theorem execAll_saveFrame {before : List Word} (htop : Aligned top) (hrsp : y.gpr .rsp = top)
    (hlen : before.length = 7) : execAll (y.pushAll before) saveFrame = some
      ((y.pushAll (before ++ frameRegs.map y.gpr ++ slot top 17 :: frameRegs'.map y.gpr)).set .rdi
        (slot top 22)) := by
  have haligned (vs : List Word) : Aligned ((y.pushAll vs).gpr .rsp) := by
    rw [X64.Machine.rsp_pushAll, hrsp]
    exact htop.sub (.quad _)
  have hmap (vs : List Word) (rs : List X64.Reg) (hrs : .rsp ∉ rs) :
      rs.map (y.pushAll vs).gpr = rs.map y.gpr :=
    List.map_congr_left fun r hr => X64.Machine.gpr_pushAll fun h => hrs (h ▸ hr)
  have hfirst : execAll (y.pushAll before) (frameRegs.map .push) =
      some (y.pushAll (before ++ frameRegs.map y.gpr)) := by
    rw [execAll_push (by decide) (haligned _), hmap _ _ (by decide), X64.Machine.pushAll_pushAll]
  have hpush : exec (y.pushAll (before ++ frameRegs.map y.gpr)) (.push .rsp) =
      some (y.pushAll (before ++ frameRegs.map y.gpr ++ [slot top 17])) := by
    rw [exec, X64.Machine.push_eq (haligned _), X64.Machine.pushAll_pushAll,
      X64.Machine.rsp_pushAll, hrsp, List.length_append, List.length_map, hlen]
    rfl
  have hlast : execAll (y.pushAll (before ++ frameRegs.map y.gpr ++ [slot top 17]))
      (frameRegs'.map .push) = some (y.pushAll
        (before ++ frameRegs.map y.gpr ++ slot top 17 :: frameRegs'.map y.gpr)) := by
    rw [execAll_push (by decide) (haligned _), hmap _ _ (by decide), X64.Machine.pushAll_pushAll,
      List.append_assoc _ [slot top 17]]
    rfl
  have hmov : (y.pushAll (before ++ frameRegs.map y.gpr ++
      slot top 17 :: frameRegs'.map y.gpr)).gpr .rsp = slot top 22 := by
    rw [X64.Machine.rsp_pushAll, hrsp, List.length_append, List.length_append, hlen]
    rfl
  rw [saveFrame, execAll_append, execAll_append, hfirst, Option.bind_some, execAll_cons, hpush,
    Option.bind_some, hlast, Option.bind_some, execAll_cons, exec, hmov]
  rfl

/-- The registers are popped in the opposite order. -/
theorem idxOf_frameRegs : (∀ r ∈ frameRegs, frameRegs.reverse.idxOf r = 10 - frameRegs.idxOf r ∧
    frameRegs.idxOf r ≤ 10) ∧ ∀ r ∈ frameRegs', frameRegs'.reverse.idxOf r =
      3 - frameRegs'.idxOf r ∧ frameRegs'.idxOf r ≤ 3 := by decide

theorem frameRegs_eq : ∀ r : X64.Reg, r = .rsp ∨ r ∈ frameRegs ∨ r ∈ frameRegs' := by
  intro r
  cases r <;> decide

/-- `restore_frame` takes the registers from the frame. -/
theorem execAll_restoreFrame (htop : Aligned top) (h : FrameIn m top v error rip x.mem)
    (hrsp : x.gpr .rsp = slot top 22) : ∃ rflags, execAll x restoreFrame = some { x with
      gpr := Function.update m.gpr .rsp (slot top 4)
      rflags } := by
  have hpop : execAll x (frameRegs'.reverse.map .pop) =
      some { x with gpr := popped x frameRegs'.reverse } :=
    execAll_pop (by decide) (by decide) (hrsp.symm ▸ htop.slot 22)
  have hreg' : ∀ r ∈ frameRegs', popped x frameRegs'.reverse r = m.gpr r := by
    intro r hr
    obtain ⟨hidx, hle⟩ := idxOf_frameRegs.2 r hr
    have hne : r ≠ .rsp := fun heq => absurd (heq ▸ hr) (by decide)
    have hslot : 22 - (3 - frameRegs'.idxOf r) = 19 + frameRegs'.idxOf r := by omega
    rw [popped, if_neg hne, if_pos (List.mem_reverse.mpr hr), hrsp, slot_add (by omega), hidx,
      hslot, h.frameReg' hr]
  set x₁ : X64.Machine IdtCpu := { x with gpr := popped x frameRegs'.reverse } with hx₁
  have hrsp₁ : x₁.gpr .rsp = slot top 18 := by
    show popped x frameRegs'.reverse .rsp = _
    rw [popped, if_pos rfl, hrsp]
    exact slot_add (by decide)
  have hsp : exec x₁ (.pop .rsp) = some (x₁.set .rsp (slot top 17)) := by
    have hvalue : x₁.mem (slot top 18) = slot top 17 := h 18 _ rfl
    rw [exec, hrsp₁, X64.Machine.read, if_pos (htop.slot 18), Option.map_some, hvalue]
    congr 1
    refine X64.Machine.ext ?_ rfl rfl rfl rfl
    exact Function.update_idem ..
  set x₂ : X64.Machine IdtCpu := x₁.set .rsp (slot top 17) with hx₂
  have hrsp₂ : x₂.gpr .rsp = slot top 17 := X64.Machine.gpr_set_self _
  have hpop₂ : execAll x₂ (frameRegs.reverse.map .pop) =
      some { x₂ with gpr := popped x₂ frameRegs.reverse } :=
    execAll_pop (by decide) (by decide) (hrsp₂.symm ▸ htop.slot 17)
  have hreg : ∀ r ∈ frameRegs, popped x₂ frameRegs.reverse r = m.gpr r := by
    intro r hr
    obtain ⟨hidx, hle⟩ := idxOf_frameRegs.1 r hr
    have hne : r ≠ .rsp := fun heq => absurd (heq ▸ hr) (by decide)
    have hslot : 17 - (10 - frameRegs.idxOf r) = 7 + frameRegs.idxOf r := by omega
    rw [popped, if_neg hne, if_pos (List.mem_reverse.mpr hr), hrsp₂, slot_add (by omega), hidx,
      hslot]
    exact h.frameReg hr
  set x₃ : X64.Machine IdtCpu := { x₂ with gpr := popped x₂ frameRegs.reverse } with hx₃
  have hrsp₃ : x₃.gpr .rsp + 16#64 = slot top 4 := by
    show popped x₂ frameRegs.reverse .rsp + BitVec.ofNat 64 (8 * 2) = _
    rw [popped, if_pos rfl, hrsp₂, slot_add (by decide)]
    exact slot_add (by decide)
  have hadd : exec x₃ (.addImm .rsp 16#64) = some ((x₃.set .rsp (slot top 4)).flags
      (decide (2 ^ 64 ≤ (x₃.gpr .rsp).toNat + (16#64).toNat)) (decide (slot top 4 = 0#64))) := by
    rw [exec, hrsp₃]
  refine ⟨setFlags x₃.rflags (decide (2 ^ 64 ≤ (x₃.gpr .rsp).toNat + (16#64).toNat))
    (decide (slot top 4 = 0#64)), ?_⟩
  rw [restoreFrame, execAll_append, execAll_append, hpop, Option.bind_some, execAll_cons, hsp,
    Option.bind_some, hpop₂, Option.bind_some, execAll_cons, hadd]
  refine congrArg some (X64.Machine.ext (funext fun r => ?_) rfl rfl rfl rfl)
  by_cases hr : r = .rsp
  · rw [hr, X64.Machine.gpr_flags, X64.Machine.gpr_set_self]
    exact (Function.update_self X64.Reg.rsp _ m.gpr).symm
  rw [X64.Machine.gpr_flags, X64.Machine.gpr_set_of_ne _ hr]
  show popped x₂ frameRegs.reverse r = Function.update m.gpr .rsp (slot top 4) r
  rw [Function.update_of_ne hr]
  rcases (frameRegs_eq r).resolve_left hr with hmem | hmem
  · exact hreg r hmem
  · have hnot : r ∉ frameRegs.reverse := by
      have hdisjoint : ∀ r ∈ frameRegs', r ∉ frameRegs.reverse := by decide
      exact hdisjoint r hmem
    rw [popped, if_neg hr, if_neg hnot]
    exact (X64.Machine.gpr_set_of_ne x₁ hr).trans (hreg' r hmem)

/-! ## Delivery -/

/-- The handler of a vector. -/
def vectorHandler (v : ℕ) : IdtHandler :=
  if v = 2 then .handleNmi else if v < 32 then .dispatchException else .dispatchInterrupt

/-- What the C function is called with: a `struct intr_excp_ctx` of the interrupted code. -/
structure Framed (m : X64.Machine IdtCpu) (v : ℕ) (error rip : Word) (call : HandlerCall) :
    Prop where
  handler : call.handler = vectorHandler v
  gpRegs : ∀ r, r ≠ .rsp → call.mem (call.ctx + ctxOffset r) = m.gpr r
  vector : call.mem (call.ctx + 0x80#64) = BitVec.ofNat 64 v
  errorCode : call.mem (call.ctx + 0x88#64) = if hasErrorCode v then error else 0#64
  rip : call.mem (call.ctx + 0x90#64) = rip
  cs : call.mem (call.ctx + 0x98#64) = m.sys.cs
  rflags : call.mem (call.ctx + 0xa0#64) = m.rflags
  rsp : call.mem (call.ctx + 0xa8#64) = m.gpr .rsp
  ss : call.mem (call.ctx + 0xb0#64) = m.sys.ss

/-- The interrupted code goes on, and nothing that it has is changed but for the stack below
and for the request that `handle_nmi` makes. -/
structure Undisturbed (depth : ℕ) (top : Word) (m : X64.Machine IdtCpu) (rip : Word)
    (c : Config IdtCpu) : Prop where
  rip : c.1 = rip
  gpr : c.2.gpr = m.gpr
  rflags : c.2.rflags = m.rflags
  cs : c.2.sys.cs = m.sys.cs
  ss : c.2.sys.ss = m.sys.ss
  mem : ∀ b, (∀ i < 23 + depth, b ≠ slot top i) →
    c.2.mem b = handleNmi m.sys.everRunVcpu m.mem b

/-- A frame that a handler was called with. -/
theorem FrameIn.framed {mem : Word → Word} (h : FrameIn m top v error rip mem) :
    Framed m v error rip ⟨vectorHandler v, slot top 22, mem⟩ := by
  have hfield (k i : ℕ) (hk : k ≤ 22) (w : Word) (hi : 22 - k = i)
      (hw : (frameValues m top v error rip)[i]? = some w) :
      mem (slot top 22 + BitVec.ofNat 64 (8 * k)) = w := by
    rw [slot_add hk, hi]
    exact h i w hw
  refine ⟨rfl, fun r hr => ?_, ?_, ?_, ?_, ?_, ?_, ?_, ?_⟩
  · cases r with
    | rsp => exact absurd rfl hr
    | rax => exact hfield 0 22 (by decide) _ rfl rfl
    | rcx => exact hfield 1 21 (by decide) _ rfl rfl
    | rdx => exact hfield 2 20 (by decide) _ rfl rfl
    | rbx => exact hfield 3 19 (by decide) _ rfl rfl
    | rbp => exact hfield 5 17 (by decide) _ rfl rfl
    | rsi => exact hfield 6 16 (by decide) _ rfl rfl
    | rdi => exact hfield 7 15 (by decide) _ rfl rfl
    | r8 => exact hfield 8 14 (by decide) _ rfl rfl
    | r9 => exact hfield 9 13 (by decide) _ rfl rfl
    | r10 => exact hfield 10 12 (by decide) _ rfl rfl
    | r11 => exact hfield 11 11 (by decide) _ rfl rfl
    | r12 => exact hfield 12 10 (by decide) _ rfl rfl
    | r13 => exact hfield 13 9 (by decide) _ rfl rfl
    | r14 => exact hfield 14 8 (by decide) _ rfl rfl
    | r15 => exact hfield 15 7 (by decide) _ rfl rfl
  · exact hfield 16 6 (by decide) _ rfl rfl
  · exact hfield 17 5 (by decide) _ rfl rfl
  · exact hfield 18 4 (by decide) _ rfl rfl
  · exact hfield 19 3 (by decide) _ rfl rfl
  · exact hfield 20 2 (by decide) _ rfl rfl
  · exact hfield 21 1 (by decide) _ rfl rfl
  · exact hfield 22 0 (by decide) _ rfl rfl

end

/-! ## From the delivery to the handler and back

The way goes through an entry point, a common entry point and the C function, and for an NMI back
through `iretq`. Each of these is one lemma on the machine, and they are chained. -/

section
variable {code : Code IdtOp} {addr : IdtLabel → Word} {depth : ℕ} {Q : Config IdtCpu → Prop}
  {m x y : X64.Machine IdtCpu} {top error rip : Word} {v : Fin 256}

theorem vectorHandler_eq_handleNmi {v : ℕ} : vectorHandler v = .handleNmi ↔ v = 2 := by
  unfold vectorHandler
  split_ifs with h2 h32
  · exact ⟨fun _ => h2, fun _ => rfl⟩
  · exact ⟨fun h => absurd h (by decide), fun h => absurd h h2⟩
  · exact ⟨fun h => absurd h (by decide), fun h => absurd h h2⟩

/-- Each vector goes on to the call of its handler. -/
theorem idtText_commonEntry (v : ℕ) :
    idtText addr (commonEntry v) = savedCall (vectorHandler v) := by
  unfold commonEntry vectorHandler
  split_ifs with h2 hrsvd h32 h32
  · rfl
  · rfl
  · omega
  · rfl
  · rfl

/-- Every descriptor is a gate that the processor uses. -/
theorem isInterruptGate_hostIdt : (hostIdt addr v).IsInterruptGate := by
  rw [IdtDesc.IsInterruptGate, hostIdt, high32_fixupIdt _ (by decide), interruptDescriptor]
  unfold vectorDpl vectorIst
  dsimp only
  split_ifs <;> decide

theorem aligned_deliveryStack {d : IdtDesc} : Aligned (deliveryStack d m) := by
  have hlow (a : Word) : (a &&& ~~~0xf#64) &&& 0x7#64 = 0#64 := by
    rw [BitVec.and_assoc]
    exact BitVec.and_zero
  have hmod := congrArg BitVec.toNat (hlow (if d.ist = 0#32 then m.gpr .rsp else m.sys.ist d.ist))
  rw [BitVec.toNat_and] at hmod
  exact (Nat.and_two_pow_sub_one_eq_mod _ 3).symm.trans hmod

/-- The entry point of a vector pushes its number, below the error code or the pseudo one. -/
theorem ensures_vector (hcode : ∀ l, ∃ b, At code (addr l) (idtText addr l) b)
    {before : List Word} (ha : Aligned (y.gpr .rsp))
    (h : Ensures code (idtExt depth) Q (addr (commonEntry v), y.pushAll (before ++
      [if hasErrorCode v then error else 0#64, BitVec.ofNat 64 v]))) :
    Ensures code (idtExt depth) Q (addr (.vector v),
      y.pushAll (before ++ if hasErrorCode v then [error] else [])) := by
  have haligned (vs : List Word) : Aligned ((y.pushAll vs).gpr .rsp) := by
    rw [X64.Machine.rsp_pushAll]
    exact ha.sub (.quad _)
  obtain ⟨b, hat⟩ := hcode (.vector v)
  obtain ⟨c, hpseudo, next, hpush, hjmp⟩ := At.append.mp hat
  obtain ⟨_, hjmp, -⟩ := hjmp
  -- what is left once there are six values
  have hrest {vs : List Word} (hvs : before ++ [if hasErrorCode v then error else 0#64] = vs) :
      Ensures code (idtExt depth) Q (c, y.pushAll vs) := by
    refine .op hpush (X64.Machine.push_eq (haligned _)) (.jmp hjmp ?_)
    rw [X64.Machine.pushAll_pushAll, ← hvs, List.append_assoc]
    exact h
  by_cases herror : (v : ℕ) ∈ noPseudoError
  · have hhas : hasErrorCode v = true := decide_eq_true herror
    rw [if_pos herror] at hpseudo
    obtain rfl : _ = c := hpseudo
    rw [if_pos hhas]
    exact hrest (by rw [if_pos hhas])
  · have hhas : ¬ hasErrorCode v = true := fun h => herror (of_decide_eq_true h)
    rw [if_neg herror] at hpseudo
    obtain ⟨_, hzero, rfl⟩ := hpseudo
    rw [if_neg hhas, List.append_nil]
    refine .op hzero (X64.Machine.push_eq (haligned _)) ?_
    rw [X64.Machine.pushAll_pushAll]
    exact hrest (by rw [if_neg hhas])

/-- `iretq` with the frame of the machine takes it back. -/
theorem ensures_iretq (htop : Aligned top) {a : Word} {b : Word}
    (hcode : At code a (restoreFrame.map .op ++ [.ext .iretq]) b)
    (hframe : FrameIn m top v error rip x.mem) (hrsp : x.gpr .rsp = slot top 22)
    (hq : Q (rip, {
      gpr := m.gpr
      rflags := m.rflags
      mem := x.mem
      rsb := x.rsb
      sys := { x.sys with cs := m.sys.cs, ss := m.sys.ss } })) :
    Ensures code (idtExt depth) Q (a, x) := by
  obtain ⟨_, hrestore, _, hiretq, -⟩ := At.append.mp hcode
  obtain ⟨rflags, hexec⟩ := execAll_restoreFrame htop hframe hrsp
  refine .ops hrestore hexec (.instr_eq hiretq (fun _ => Iff.rfl) (.here ?_))
  set z : X64.Machine IdtCpu := { x with gpr := Function.update m.gpr .rsp (slot top 4), rflags }
    with hz
  have hrsp' : z.gpr .rsp = slot top 4 := Function.update_self X64.Reg.rsp _ m.gpr
  have hfield (k i : ℕ) (hk : k ≤ 4) (w : Word) (hi : 4 - k = i)
      (hw : (frameValues m top v error rip)[i]? = some w) :
      z.mem (z.gpr .rsp + BitVec.ofNat 64 (8 * k)) = w := by
    rw [hrsp', slot_add hk, hi]
    exact hframe i w hw
  have hgpr : (z.set .rsp (z.mem (z.gpr .rsp + 24#64))).gpr = m.gpr := by
    rw [hfield 3 1 (by decide) (m.gpr .rsp) rfl rfl]
    show Function.update (Function.update m.gpr .rsp _) .rsp _ = _
    rw [Function.update_idem, Function.update_eq_self]
  have hrip : z.mem (z.gpr .rsp) = rip := by
    rw [hrsp']
    exact hframe 4 rip rfl
  rw [hrip, hfield 1 3 (by decide) m.sys.cs rfl rfl, hfield 2 2 (by decide) m.rflags rfl rfl,
    hfield 4 0 (by decide) m.sys.ss rfl rfl]
  convert hq using 2
  exact X64.Machine.ext hgpr rfl rfl rfl rfl

/-- What comes of a vector: its handler has the frame, and what was interrupted by an NMI goes
on. -/
def Handled (depth : ℕ) (top : Word) (m : X64.Machine IdtCpu) (v : ℕ) (error rip : Word)
    (c : Config IdtCpu) : Prop :=
  ∃ call, c.2.sys.calls = call :: m.sys.calls ∧ Framed m v error rip call ∧
    if v = 2 then Undisturbed depth top m rip c else c.2.sys.panicked = true

/-- `handle_nmi` leaves the frame. -/
theorem handleNmi_frameIn {everRunVcpu : Option Word} {mem : Word → Word}
    (hrequest : ∀ a, everRunVcpu = some a → ∀ i < 23, a ≠ slot top i)
    (h : FrameIn m top v error rip mem) :
    FrameIn m top v error rip (handleNmi everRunVcpu mem) := by
  intro i w hw
  cases everRunVcpu with
  | none => exact h i w hw
  | some a =>
    have hi : i < 23 := (List.getElem?_eq_some_iff.mp hw).1
    exact (Function.update_of_ne (hrequest a rfl i hi).symm ..).trans (h i w hw)

/-- What it does elsewhere depends on nothing else. -/
theorem handleNmi_congr {everRunVcpu : Option Word} {mem mem' : Word → Word} {b : Word}
    (h : mem b = mem' b) : handleNmi everRunVcpu mem b = handleNmi everRunVcpu mem' b := by
  cases everRunVcpu with
  | none => exact h
  | some a =>
    by_cases hb : b = a
    · subst hb
      rw [handleNmi, handleNmi, Function.update_self, Function.update_self, h]
    · rw [handleNmi, handleNmi, Function.update_of_ne hb, Function.update_of_ne hb, h]

/-- **From a common entry point on**, with the frame on the stack but for the registers. -/
theorem ensures_savedCall (hcode : ∀ l, ∃ b, At code (addr l) (idtText addr l) b)
    (hdepth : 23 + depth < 2 ^ 61) (htop : Aligned top)
    (hrequest : ∀ a, m.sys.everRunVcpu = some a → ∀ i < 23, a ≠ slot top i)
    (hrsp : y.gpr .rsp = top) (hgpr : ∀ r, r ≠ .rsp → y.gpr r = m.gpr r) (hmem : y.mem = m.mem)
    (hcalls : y.sys.calls = m.sys.calls) (hvcpu : y.sys.everRunVcpu = m.sys.everRunVcpu) :
    Ensures code (idtExt depth) (Handled depth top m v error rip)
      (addr (commonEntry v), y.pushAll [m.sys.ss, m.gpr .rsp, m.rflags, m.sys.cs, rip,
        if hasErrorCode v then error else 0#64, BitVec.ofNat 64 v]) := by
  obtain ⟨_, hat⟩ := hcode (commonEntry v)
  rw [idtText_commonEntry, savedCall, List.append_assoc] at hat
  obtain ⟨_, hsave, next, hcall, hrest⟩ := At.append.mp hat
  have hmap (rs : List X64.Reg) (hrs : .rsp ∉ rs) : rs.map y.gpr = rs.map m.gpr :=
    List.map_congr_left fun r hr => hgpr r fun heq => hrs (heq ▸ hr)
  have hlen : [m.sys.ss, m.gpr .rsp, m.rflags, m.sys.cs, rip,
    if hasErrorCode v then error else 0#64, BitVec.ofNat 64 v].length = 7 := rfl
  have hexec := execAll_saveFrame htop hrsp hlen
  rw [hmap frameRegs (by decide), hmap frameRegs' (by decide)] at hexec
  set x : X64.Machine IdtCpu := (y.pushAll (frameValues m top v error rip)).set .rdi (slot top 22)
    with hx
  have hxrsp : x.gpr .rsp = slot top 22 := by
    rw [hx, X64.Machine.gpr_set_of_ne _ (by decide), X64.Machine.rsp_pushAll, hrsp]
    rfl
  have hxmem : x.mem = pushed m.mem top (frameValues m top v error rip) := by
    rw [hx, X64.Machine.mem_set, X64.Machine.mem_pushAll, hrsp, hmem]
  have hframe : FrameIn m top v error rip x.mem := hxmem ▸ frameIn_pushed
  have hframed : Framed m v error rip ⟨vectorHandler v, x.gpr .rdi, x.mem⟩ := by
    rw [hx, X64.Machine.gpr_set_self]
    exact hframe.framed
  refine .ops hsave hexec (.instr hcall ?_ fun c hc => ?_)
  · by_cases hnmi : vectorHandler v = .handleNmi
    · rw [hnmi]
      exact ⟨_, .returns x.gpr x.rflags _ [] (fun _ _ => rfl) fun _ _ => rfl⟩
    · exact ⟨_, .panics _ hnmi⟩
  change CalledC depth next x (vectorHandler v) c at hc
  generalize hhandler : vectorHandler v = h at hc hframed
  cases hc with
  | panics h hne =>
    have hv : (v : ℕ) ≠ 2 := fun hv => hne (hhandler ▸ vectorHandler_eq_handleNmi.mpr hv)
    refine .here ⟨⟨h, x.gpr .rdi, x.mem⟩, congrArg _ hcalls, hframed, ?_⟩
    rw [if_neg hv]
  | returns gpr rflags mem rsb hpreserved hchanged =>
    have hv : (v : ℕ) = 2 := vectorHandler_eq_handleNmi.mp hhandler
    have hslots {b : Word} (hb : ∀ i < 23 + depth, b ≠ slot top i) :
        mem b = handleNmi m.sys.everRunVcpu m.mem b := by
      have hbelow : ∀ i < depth, b ≠ slot (x.gpr .rsp) i := fun i hi => by
        rw [hxrsp, slot_slot]
        exact hb _ (by omega)
      rw [hchanged b hbelow, show x.sys.everRunVcpu = m.sys.everRunVcpu from hvcpu]
      refine handleNmi_congr ?_
      rw [hxmem]
      exact pushed_of_ne fun i hi => hb i (hi.trans_le (Nat.le_add_right ..))
    have hleft : FrameIn m top v error rip mem := by
      intro i w hw
      have hi : i < 23 := (List.getElem?_eq_some_iff.mp hw).1
      have hbelow : ∀ j < depth, slot top i ≠ slot (x.gpr .rsp) j := fun j hj => by
        rw [hxrsp, slot_slot]
        exact slot_ne_slot (by omega) (by omega)
      rw [hchanged _ hbelow, show x.sys.everRunVcpu = m.sys.everRunVcpu from hvcpu]
      exact handleNmi_frameIn hrequest hframe i w hw
    refine ensures_iretq htop hrest hleft ((hpreserved .rsp (by decide)).trans hxrsp) ?_
    · refine ⟨⟨.handleNmi, x.gpr .rdi, x.mem⟩, congrArg _ hcalls, hframed, ?_⟩
      rw [if_pos hv]
      exact ⟨rfl, rfl, rfl, rfl, rfl, fun b hb => hslots hb⟩

/-- **Every vector comes to its handler** with the registers of the interrupted code in the
context, in the places that C reads them from. After an NMI that code goes on with all of its
registers as they were; the other handlers end in `panic`. -/
theorem interrupts_framed (hcode : ∀ l, ∃ b, At code (addr l) (idtText addr l) b)
    (hdepth : 23 + depth < 2 ^ 61) (hrequest : ∀ a, m.sys.everRunVcpu = some a → ∀ i < 23,
      a ≠ slot (deliveryStack (hostIdt addr v) m) i) :
    ∃ c, deliver (hostIdt addr) v error rip m = some c ∧ Ensures code (idtExt depth)
      (Handled depth (deliveryStack (hostIdt addr v) m) m v error rip) c := by
  set top := deliveryStack (hostIdt addr v) m with htop
  have haligned : Aligned top := aligned_deliveryStack
  set y : X64.Machine IdtCpu := delivered (hostIdt addr v) m with hy
  have hrsp : y.gpr .rsp = top := by
    show (m.set .rsp top).gpr .rsp = top
    exact X64.Machine.gpr_set_self m
  refine ⟨_, if_pos isInterruptGate_hostIdt, ?_⟩
  rw [hostIdt, offset_fixupIdt]
  refine ensures_vector hcode (hrsp.symm ▸ haligned) ?_
  exact ensures_savedCall hcode hdepth haligned hrequest hrsp
    (fun r hr => Function.update_of_ne hr ..) rfl rfl rfl

end

/-- A place for each label, of 64 addresses. -/
def idtPlace : IdtLabel → ℕ
  | .vector v => v
  | .excpSaveFrame => 256
  | .excpRsvd => 257
  | .nmiSaveFrame => 258
  | .externalInterruptSaveFrame => 259

def idtLabelAt (n : ℕ) : Option IdtLabel :=
  if h : n < 256 then some (.vector ⟨n, h⟩)
  else [IdtLabel.excpSaveFrame, .excpRsvd, .nmiSaveFrame, .externalInterruptSaveFrame][n - 256]?

def idtAddr (l : IdtLabel) : Word := BitVec.ofNat 64 (64 * idtPlace l)

/-- The text of `idt.S` at these places, with one address for each instruction. -/
def idtCode : Code IdtOp := fun a => do
  let l ← idtLabelAt (a.toNat / 64)
  let i ← (idtText idtAddr l)[a.toNat % 64]?
  return (i, a + 1#64)

theorem idtLabelAt_idtPlace {l : IdtLabel} : idtLabelAt (idtPlace l) = some l := by
  cases l with
  | vector v => exact dif_pos v.isLt
  | _ => rfl

theorem length_idtText {l : IdtLabel} : (idtText idtAddr l).length ≤ 36 ∧ idtPlace l < 260 := by
  cases l with
  | vector v =>
    refine ⟨?_, v.isLt.trans (by decide)⟩
    rw [idtText]
    split_ifs <;> simp
  | _ => decide

theorem at_idtCode (l : IdtLabel) : ∃ b, At idtCode (idtAddr l) (idtText idtAddr l) b := by
  obtain ⟨hlen, hplace⟩ := length_idtText (l := l)
  have hat (is done : List (Instr IdtOp)) (htext : done ++ is = idtText idtAddr l) :
      ∃ b, At idtCode (idtAddr l + BitVec.ofNat 64 done.length) is b := by
    induction is generalizing done with
    | nil => exact ⟨_, rfl⟩
    | cons i is ih =>
      obtain ⟨b, hb⟩ := ih (done ++ [i]) (by rw [List.append_assoc]; exact htext)
      have hdone : done.length < 36 := by
        rw [← htext, List.length_append, List.length_cons] at hlen
        omega
      have haddr : (idtAddr l + BitVec.ofNat 64 done.length).toNat =
          64 * idtPlace l + done.length := by
        unfold idtAddr
        bv_omega
      have hget : (idtText idtAddr l)[done.length]? = some i := by
        rw [← htext, List.getElem?_append_right le_rfl, Nat.sub_self]
        rfl
      refine ⟨b, _, ?_, hb⟩
      have hdiv : (64 * idtPlace l + done.length) / 64 = idtPlace l := by omega
      have hmod : (64 * idtPlace l + done.length) % 64 = done.length := by omega
      have hnext : idtAddr l + BitVec.ofNat 64 done.length + 1#64 =
          idtAddr l + BitVec.ofNat 64 (done ++ [i]).length := by
        rw [List.length_append, List.length_singleton]
        bv_omega
      rw [idtCode, haddr, hdiv, hmod, idtLabelAt_idtPlace, hnext]
      simp only [Option.bind_eq_bind, Option.bind_some, hget, Option.pure_def]
  obtain ⟨b, hb⟩ := hat _ [] rfl
  exact ⟨b, by rwa [show idtAddr l + BitVec.ofNat 64 ([] : List (Instr IdtOp)).length = idtAddr l
    from BitVec.add_zero _] at hb⟩

/-- The hypervisor on a stack at 7008H. -/
def nmiMachine : X64.Machine IdtCpu where
  gpr r := if r = .rsp then 0x7008#64 else 5#64
  rflags := 0x2#64
  mem a := a
  rsb := []
  sys := ⟨0x8#64, 0#64, fun _ => 0x9000#64, some 0x8000#64, [], false⟩

theorem interrupts_framed_nmi : ∃ c,
    deliver (hostIdt idtAddr) 2 0#64 0x1234#64 nmiMachine = some c ∧
      Ensures idtCode (idtExt 64) (Handled 64 (deliveryStack (hostIdt idtAddr 2) nmiMachine)
        nmiMachine 2 0#64 0x1234#64) c := by
  refine interrupts_framed at_idtCode (by decide) fun a ha i hi => ?_
  obtain rfl : 0x8000#64 = a := Option.some.inj ha
  have hslots : ∀ i < 23, 0x8000#64 ≠ slot 0x7000#64 i := by decide
  exact hslots i hi

end Acrn
