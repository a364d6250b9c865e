import Acrn.Lib.BitField
import Acrn.Lib.Multiplex
import Acrn.Page

/-!
# The extended context of a vCPU

The vCPUs of a processor share its x87, SSE and AVX registers, XCR0, and the MSRs for system
calls. `context_switch_out` and `context_switch_in` save and restore them, by the instructions
XSAVES and XRSTORS, which leave out what they take for initial or for unmodified.
-/

namespace Acrn

open BitField Multiplex Transition

/-! ## The components -/

/-- The state components that the hypervisor switches. -/
inductive XComp where
  | x87
  | sse
  | avx
  deriving DecidableEq

/-- The x87 state. Of FIP and FDP these are the low halves. -/
structure X87State where
  fcw : BitVec 16
  fsw : BitVec 16
  /-- a bit for each register that is not empty -/
  ftw : BitVec 8
  fop : BitVec 16
  fip : BitVec 32
  fcs : BitVec 16
  fdp : BitVec 32
  fds : BitVec 16
  st : Fin 8 → BitVec 80

structure SseState where
  mxcsr : BitVec 32
  xmm : Fin 16 → BitVec 128

/-- The high halves of the YMM registers. -/
structure AvxState where
  ymmHigh : Fin 16 → BitVec 128

namespace XComp

/-- The number of a component in XCR0, XSTATE_BV and XCOMP_BV. -/
def bit : XComp → ℕ
  | x87 => 0
  | sse => 1
  | avx => 2

abbrev State : XComp → Type
  | x87 => X87State
  | sse => SseState
  | avx => AvxState

/-- The initial configuration. -/
def init : (i : XComp) → i.State
  | x87 => (⟨0x37f#16, 0#16, 0#8, 0#16, 0#32, 0#16, 0#32, 0#16, fun _ => 0#80⟩ : X87State)
  | sse => (⟨0x1f80#32, fun _ => 0#128⟩ : SseState)
  | avx => (⟨fun _ => 0#128⟩ : AvxState)

/-- A component that the processor may take for initial; MXCSR does not count. -/
def Initial : (i : XComp) → i.State → Prop
  | x87, v => v = init x87
  | sse, (v : SseState) => v.xmm = fun _ => 0#128
  | avx, v => v = init avx

end XComp

/-- The bits of components. -/
def xbv (f : XComp → Bool) : Word :=
  (if f .x87 then 1#64 else 0#64) ||| (if f .sse then 2#64 else 0#64) |||
    (if f .avx then 4#64 else 0#64)

theorem getLsbD_xbv {f : XComp → Bool} (i : XComp) : (xbv f).getLsbD i.bit = f i := by
  have hbits : ∀ a b c : Bool, ∀ v, (if a then 1#64 else 0#64) ||| (if b then 2#64 else 0#64) |||
      (if c then 4#64 else 0#64) = v → v.getLsbD 0 = a ∧ v.getLsbD 1 = b ∧ v.getLsbD 2 = c := by
    rintro a b c v rfl
    revert a b c
    decide
  obtain ⟨h87, hsse, havx⟩ := hbits (f .x87) (f .sse) (f .avx) (xbv f) rfl
  cases i with
  | x87 => exact h87
  | sse => exact hsse
  | avx => exact havx

theorem xbv_and {f : XComp → Bool} {v : Word} (hv : 7#64 &&& v = 0#64) : xbv f &&& v = 0#64 := by
  have hseven : ∀ a b c : Bool, ((if a then 1#64 else 0#64) ||| (if b then 2#64 else 0#64) |||
      (if c then 4#64 else 0#64)) &&& 7#64 = (if a then 1#64 else 0#64) |||
        (if b then 2#64 else 0#64) ||| (if c then 4#64 else 0#64) := by decide
  rw [xbv, ← hseven, BitVec.and_assoc, hv, BitVec.and_zero]

/-! ## The processor

XSAVES leaves out what is initial and what was not modified since the last restore from the same
area; XRSTORS initializes what the area does not hold. So an area alone does not say what was saved
to it: it takes XSTATE_BV, and what the processor remembers of its last XRSTORS. -/

/-- `struct xsave_area`. -/
structure XsaveArea where
  xstateBv : Word
  xcompBv : Word
  comp : (i : XComp) → i.State

/-- From where the processor last restored. -/
structure XrstorInfo where
  /-- in a guest -/
  nonRoot : Bool
  addr : Word
  xcompBv : Word
  deriving DecidableEq

/-- The registers that are switched, and what the processor knows of them. -/
structure XCpu where
  xcr0 : Word
  xss : Word
  comp : (i : XComp) → i.State
  /-- the high halves of FIP and FDP -/
  fipHigh : BitVec 32
  fdpHigh : BitVec 32
  /-- XINUSE and XMODIFIED -/
  inUse : XComp → Bool
  modified : XComp → Bool
  xrstorInfo : XrstorInfo
  star : Word
  lstar : Word
  fmask : Word
  kernelGsBase : Word

/-- What a processor supports: x87, SSE and AVX at least. -/
structure XFeatures where
  xcr0 : Word
  xss : Word
  mxcsrMask : BitVec 32
  avx : xcr0 &&& 7#64 = 7#64
  mxcsr : 0x1f80#32 &&& ~~~mxcsrMask = 0#32

/-- A value that XSETBV accepts for XCR0, as far as x87, SSE and AVX go. -/
def XcrValid (supported v : Word) : Prop :=
  v.getLsbD 0 = true ∧ (v.getLsbD 2 = true → v.getLsbD 1 = true) ∧ v &&& ~~~supported = 0#64

instance (supported v : Word) : Decidable (XcrValid supported v) :=
  inferInstanceAs (Decidable (_ ∧ _))

/-- `write_xcr(0, ..)`; XSETBV faults on other values. -/
def writeXcr (feat : XFeatures) (v : Word) (c : XCpu) : Option XCpu :=
  if XcrValid feat.xcr0 v then some { c with xcr0 := v } else none

/-- `msr_write(MSR_IA32_XSS, ..)`. -/
def writeXss (feat : XFeatures) (v : Word) (c : XCpu) : Option XCpu :=
  if v &&& ~~~feat.xss = 0#64 then some { c with xss := v } else none

/-- An address with the upper bits all alike. -/
def Canonical (v : Word) : Prop := (v.setWidth 48).signExtend 64 = v

instance (v : Word) : Decidable (Canonical v) := inferInstanceAs (Decidable (_ = _))

theorem canonical_zero : Canonical 0#64 := by decide

/-- `msr_write` of the MSRs that hold an address; WRMSR faults on one that is not canonical. -/
def writeLstar (v : Word) (c : XCpu) : Option XCpu :=
  if Canonical v then some { c with lstar := v } else none

def writeKernelGsBase (v : Word) (c : XCpu) : Option XCpu :=
  if Canonical v then some { c with kernelGsBase := v } else none

namespace XCpu

variable (c : XCpu)

/-- The components that are enabled. XSAVES and XRSTORS are asked for all of them. -/
def rfbm : Word := c.xcr0 ||| c.xss

/-- MXCSR alone makes SSE be in use. -/
def mxcsrInUse : XComp → Bool
  | .sse => decide ((c.comp .sse).mxcsr ≠ 0x1f80#32)
  | _ => false

/-- XSTATE_BV is set for a component. -/
def saved (i : XComp) : Bool := c.inUse i || c.mxcsrInUse i

/-- A component is written. When the area is the one that was restored from, that is only what
was modified. -/
def toBeSaved (same : Bool) (i : XComp) : Bool :=
  (c.inUse i && !(same && !c.modified i)) || c.mxcsrInUse i

end XCpu

/-- XCOMP_BV for the compacted format. -/
def compactedBit : Word := 1#64 <<< 63

/-- XSAVES to the area at an address. -/
def xsaves (addr : Word) (c : XCpu) (a : XsaveArea) : XsaveArea :=
  let compMask := c.rfbm ||| compactedBit
  let same := decide (c.xrstorInfo = ⟨false, addr, compMask⟩)
  { xstateBv := xbv fun i => c.rfbm.getLsbD i.bit && c.saved i
    xcompBv := compMask
    comp := fun i =>
      if c.rfbm.getLsbD i.bit && c.toBeSaved same i then c.comp i else a.comp i }

/-- XRSTORS does not fault. -/
def XrstorsAllowed (feat : XFeatures) (a : XsaveArea) (c : XCpu) : Prop :=
  a.xcompBv.getLsbD 63 = true ∧ a.xcompBv &&& ~~~(c.rfbm ||| compactedBit) = 0#64 ∧
    a.xstateBv &&& ~~~a.xcompBv = 0#64 ∧
    (c.rfbm.getLsbD 1 = true → a.xstateBv.getLsbD 1 = true →
      (a.comp .sse).mxcsr &&& ~~~feat.mxcsrMask = 0#32)

instance (feat : XFeatures) (a : XsaveArea) (c : XCpu) : Decidable (XrstorsAllowed feat a c) :=
  inferInstanceAs (Decidable (_ ∧ _))

/-- The enabled components are loaded or initialized. -/
def XCpu.restored (addr : Word) (a : XsaveArea) (c : XCpu) : XCpu :=
  { c with
    comp := fun i =>
      if c.rfbm.getLsbD i.bit then
        if a.xstateBv.getLsbD i.bit then a.comp i else i.init
      else c.comp i
    fipHigh := if c.rfbm.getLsbD 0 then 0#32 else c.fipHigh
    fdpHigh := if c.rfbm.getLsbD 0 then 0#32 else c.fdpHigh
    inUse := fun i => if c.rfbm.getLsbD i.bit then a.xstateBv.getLsbD i.bit else c.inUse i
    modified := fun i => !c.rfbm.getLsbD i.bit
    xrstorInfo := ⟨false, addr, a.xcompBv⟩ }

/-- XRSTORS from the area at an address. -/
def xrstors (feat : XFeatures) (addr : Word) (a : XsaveArea) (c : XCpu) : Option XCpu :=
  if XrstorsAllowed feat a c then some (c.restored addr a) else none

/-! ## The hypervisor -/

/-- `struct ext_context`, the fields that are switched. -/
structure ExtContext where
  ia32Star : Word
  ia32Lstar : Word
  ia32Fmask : Word
  ia32KernelGsBase : Word
  xsArea : XsaveArea
  xcr0 : Word
  xss : Word

def xcr0Sse : Word := 1#64 <<< 1
def xcr0Avx : Word := 1#64 <<< 2

/-- `XCR0_EMULATED_RESERVED_BITS`. -/
def xcr0EmulatedReservedBits : Word := ~~~((1#64 <<< 3) - 1#64)

/-- `init_xsave`. -/
def initXsave (e : ExtContext) : ExtContext :=
  { e with
    xcr0 := 1#64
    xss := 0#64
    xsArea := {
      xcompBv := e.xsArea.xcompBv ||| (compactedBit ||| 1#64 ||| xcr0Sse)
      xstateBv := e.xsArea.xstateBv ||| (1#64 ||| xcr0Sse)
      comp := fun
        | .x87 => { e.xsArea.comp .x87 with fcw := 0x40#16, ftw := 0xff#8 }
        | .sse => { e.xsArea.comp .sse with mxcsr := 0x1f80#32 }
        | .avx => e.xsArea.comp .avx } }

/-- The extended context that `create_vcpu` clears. -/
def zeroedExtContext : ExtContext where
  ia32Star := 0#64
  ia32Lstar := 0#64
  ia32Fmask := 0#64
  ia32KernelGsBase := 0#64
  xsArea := {
    xstateBv := 0#64
    xcompBv := 0#64
    comp := fun
      | .x87 => ⟨0#16, 0#16, 0#8, 0#16, 0#32, 0#16, 0#32, 0#16, fun _ => 0#80⟩
      | .sse => ⟨0#32, fun _ => 0#128⟩
      | .avx => ⟨fun _ => 0#128⟩ }
  xcr0 := 0#64
  xss := 0#64

/-- `set_vcpu_regs`. -/
def ExtContext.setVcpuRegs (e : ExtContext) : ExtContext := { e with ia32KernelGsBase := 0#64 }

/-- What `create_vcpu` leaves. -/
def createdExtContext : ExtContext := (initXsave zeroedExtContext).setVcpuRegs

section
variable (feat : XFeatures) (addr : Word)

/-- `save_xsave_area`. -/
def saveXsaveArea (c : XCpu) (e : ExtContext) : Option (XCpu × ExtContext) :=
  (writeXcr feat (c.xcr0 ||| xcr0Sse ||| xcr0Avx) c).map fun c' =>
    (c', { e with xcr0 := c.xcr0, xss := c'.xss, xsArea := xsaves addr c' e.xsArea })

/-- `rstore_xsave_area`. -/
def rstoreXsaveArea (e : ExtContext) (c : XCpu) : Option XCpu :=
  (writeXcr feat (e.xcr0 ||| xcr0Sse ||| xcr0Avx) c).bind fun c =>
    (writeXss feat e.xss c).bind fun c =>
      (xrstors feat addr e.xsArea c).bind (writeXcr feat e.xcr0)

/-- `context_switch_out`. -/
def contextSwitchOut (c : XCpu) (e : ExtContext) : Option (XCpu × ExtContext) :=
  saveXsaveArea feat addr c { e with
    ia32Star := c.star
    ia32Lstar := c.lstar
    ia32Fmask := c.fmask
    ia32KernelGsBase := c.kernelGsBase }

/-- `context_switch_in`, after `load_vmcs`. -/
def contextSwitchIn (e : ExtContext) (c : XCpu) : Option XCpu :=
  (writeLstar e.ia32Lstar { c with star := e.ia32Star }).bind fun c =>
    (writeKernelGsBase e.ia32KernelGsBase { c with fmask := e.ia32Fmask }).bind
      (rstoreXsaveArea feat addr e)

/-- `xsetbv_vmexit_handler`, and whether it injects an exception. -/
def XCpu.xsetbvVmexitHandler (c : XCpu) (rcx rax rdx : Word) : Option (XCpu × Bool) :=
  if rcx &&& 0xffffffff#64 ≠ 0#64 then some (c, true)
  else
    let val64 := (rax &&& 0xffffffff#64) ||| (rdx <<< 32)
    if val64 &&& 1#64 = 0#64 then some (c, true)
    else if val64 &&& xcr0EmulatedReservedBits ≠ 0#64 then some (c, true)
    else if val64 &&& (xcr0Sse ||| xcr0Avx) = xcr0Avx then some (c, true)
    else (writeXcr feat val64 c).map (·, false)

end

/-! ## Turns of the vCPUs

The switch is an instance of the library on a device that clients take turns on: the clients are
the vCPUs, a turn is what a guest does with the registers and XSETBV, and what is switched are the
registers and the areas. -/

/-- What a vCPU has of the extended context. -/
structure ExtFile where
  comp : (i : XComp) → i.State
  xcr0 : Word
  star : Word
  lstar : Word
  fmask : Word
  kernelGsBase : Word

def XCpu.view (c : XCpu) : ExtFile where
  comp := c.comp
  xcr0 := c.xcr0
  star := c.star
  lstar := c.lstar
  fmask := c.fmask
  kernelGsBase := c.kernelGsBase

/-- What a vCPU does in its turn. -/
inductive ExtUse where
  /-- the guest runs, and leaves these registers -/
  | guest (f : ExtFile)
  /-- it executes XSETBV, and gets an exception or not -/
  | xsetbv (rcx rax rdx : Word) (gp : Bool)

/-- What a guest can do: it changes all registers but XCR0 and XSS, and restores from areas of
its own. The processor keeps track of the components, and takes no address that is not canonical. -/
structure GuestRuns (feat : XFeatures) (c c' : XCpu) : Prop where
  xcr0 : c'.xcr0 = c.xcr0
  xss : c'.xss = c.xss
  initial : ∀ i, c'.inUse i = false → i.Initial (c'.comp i)
  mxcsr : (c'.comp .sse).mxcsr &&& ~~~feat.mxcsrMask = 0#32
  lstar : Canonical c'.lstar
  kernelGsBase : Canonical c'.kernelGsBase
  tracked : c'.xrstorInfo.nonRoot = true ∨ c'.xrstorInfo = c.xrstorInfo ∧
    ∀ i, c'.modified i = false →
      c.modified i = false ∧ c'.comp i = c.comp i ∧ (c'.inUse i = true → c.inUse i = true)

/-- The registers and areas of the vCPUs whose `struct xsave_area` are at `addr`. -/
def extDevice {T : Type*} (feat : XFeatures) (addr : T → Word) :
    Device T XCpu ExtContext ExtUse Unit where
  client c l c' := match l with
    | .guest f => GuestRuns feat c c' ∧ f = c'.view
    | .xsetbv rcx rax rdx gp => c.xsetbvVmexitHandler feat rcx rax rdx = some (c', gp)
  touch _ e := e.setVcpuRegs
  fresh := createdExtContext
  save t := contextSwitchOut feat (addr t)
  restore t := contextSwitchIn feat (addr t)

/-- XSETBV is allowed on a processor with x87, SSE and AVX. -/
def XsetbvAllowed (rcx rax rdx : Word) : Prop :=
  rcx.setWidth 32 = 0#32 ∧ XcrValid 7#64 (rdx.setWidth 32 ++ rax.setWidth 32)

/-- A processor for each vCPU. -/
def ownExt : Own ExtFile ExtUse Unit where
  client f l f' := match l with
    | .guest g => f'.xcr0 = f.xcr0 ∧ g = f'
    | .xsetbv rcx rax rdx gp => XsetbvAllowed rcx rax rdx ∧ gp = false ∧
          f' = { f with xcr0 := rdx.setWidth 32 ++ rax.setWidth 32 } ∨
        ¬ XsetbvAllowed rcx rax rdx ∧ gp = true ∧ f' = f
  touch _ f := { f with kernelGsBase := 0#64 }
  fresh := {
    comp := fun
      | .x87 => ⟨0x40#16, 0#16, 0xff#8, 0#16, 0#32, 0#16, 0#32, 0#16, fun _ => 0#80⟩
      | .sse => ⟨0x1f80#32, fun _ => 0#128⟩
      | .avx => ⟨fun _ => 0#128⟩
    xcr0 := 1#64
    star := 0#64
    lstar := 0#64
    fmask := 0#64
    kernelGsBase := 0#64 }

/-! ## Values of XCR0 -/

section
variable {v : Word} {feat : XFeatures}

theorem lt_of_and_not_seven (h : v &&& ~~~7#64 = 0#64) : v.toNat < 8 := by
  have hseven : ∀ i, 3 ≤ i → i < 64 → (7#64).getLsbD i = false := by decide
  refine Nat.lt_pow_two_of_testBit (n := 3) v.toNat fun i hi => ?_
  show v.getLsbD i = false
  rcases lt_or_ge i 64 with hlt | hge
  · have hbit := getLsbD_of_eq_zero h i
    rwa [BitVec.getLsbD_and, BitVec.getLsbD_not, hseven i hi hlt, decide_eq_true hlt,
      Bool.not_false, Bool.and_true, Bool.and_true] at hbit
  · exact BitVec.getLsbD_of_ge v i hge

/-- The values that a guest can have in XCR0. -/
theorem xcrValid_seven : XcrValid 7#64 v ↔ v = 1#64 ∨ v = 3#64 ∨ v = 7#64 := by
  have hsmall : ∀ n < 8, XcrValid 7#64 (BitVec.ofNat 64 n) →
      BitVec.ofNat 64 n = 1#64 ∨ BitVec.ofNat 64 n = 3#64 ∨ BitVec.ofNat 64 n = 7#64 := by decide
  constructor
  · intro h
    have hv := hsmall v.toNat (lt_of_and_not_seven h.2.2)
    rw [BitVec.ofNat_toNat, BitVec.setWidth_eq] at hv
    exact hv h
  · rintro (rfl | rfl | rfl) <;> decide

/-- The processor supports them. -/
theorem XcrValid.supported (h : XcrValid 7#64 v) : XcrValid feat.xcr0 v := by
  refine ⟨h.1, h.2.1, ?_⟩
  have hseven : 7#64 &&& ~~~feat.xcr0 = 0#64 := by
    have havx := feat.avx
    rw [← havx, BitVec.and_comm feat.xcr0, BitVec.and_assoc, BitVec.and_not_self]
    rfl
  have hv : v &&& 7#64 = v := by
    rcases xcrValid_seven.mp h with rfl | rfl | rfl <;> decide
  rw [← hv, BitVec.and_assoc, hseven, BitVec.and_zero]

theorem xcr0_or (h : XcrValid 7#64 v) : v ||| xcr0Sse ||| xcr0Avx = 7#64 := by
  rcases xcrValid_seven.mp h with rfl | rfl | rfl <;> decide

theorem xcrValid_all : XcrValid 7#64 7#64 := by decide

theorem getLsbD_seven (i : XComp) : (7#64 ||| 0#64).getLsbD i.bit = true := by
  cases i <;> decide

end

/-! ## The laws of the switch

The library asks that a fresh context holds what a vCPU starts with, that a save holds what the
vCPU had, that a restore gives it back, and that a turn on the shared registers is one on registers
of the vCPU's own. `Ready` and `Live` are what makes the two optimisations of XSAVES harmless. -/

namespace XCpu

/-- What holds of the processor between any two steps. -/
structure Ready (feat : XFeatures) (c : XCpu) : Prop where
  xcr0 : XcrValid 7#64 c.xcr0
  xss : c.xss = 0#64
  initial : ∀ i, c.inUse i = false → i.Initial (c.comp i)
  mxcsr : (c.comp .sse).mxcsr &&& ~~~feat.mxcsrMask = 0#32
  lstar : Canonical c.lstar
  kernelGsBase : Canonical c.kernelGsBase

/-- The area is the one that was restored from: what is not modified is still in it. -/
def Live (c : XCpu) (e : ExtContext) : Prop :=
  c.xrstorInfo.nonRoot = false →
    ∀ i, c.modified i = false → c.inUse i = true → e.xsArea.comp i = c.comp i

end XCpu

/-- The extended context holds what a vCPU had. -/
structure ExtContext.Holds (feat : XFeatures) (e : ExtContext) (f : ExtFile) : Prop where
  xcr0 : e.xcr0 = f.xcr0
  valid : XcrValid 7#64 f.xcr0
  xss : e.xss = 0#64
  compacted : e.xsArea.xcompBv.getLsbD 63 = true
  xcompBv : e.xsArea.xcompBv &&& ~~~(7#64 ||| 0#64 ||| compactedBit) = 0#64
  xstateBv : e.xsArea.xstateBv &&& ~~~e.xsArea.xcompBv = 0#64
  comp : ∀ i, f.comp i = if e.xsArea.xstateBv.getLsbD i.bit then e.xsArea.comp i else i.init
  mxcsr : (f.comp .sse).mxcsr &&& ~~~feat.mxcsrMask = 0#32
  star : e.ia32Star = f.star
  lstar : e.ia32Lstar = f.lstar
  fmask : e.ia32Fmask = f.fmask
  kernelGsBase : e.ia32KernelGsBase = f.kernelGsBase
  canonicalLstar : Canonical f.lstar
  canonicalGsBase : Canonical f.kernelGsBase

def extViews {T : Type*} (feat : XFeatures) : Views T XCpu ExtContext ExtFile where
  view := XCpu.view
  Ready := XCpu.Ready feat
  Holds := ExtContext.Holds feat
  Live _ := XCpu.Live

section
variable {feat : XFeatures} {addr : Word} {c c' : XCpu} {e : ExtContext} {f : ExtFile}

/-- What is not saved is initial. -/
theorem XCpu.Ready.init_of_not_saved (h : c.Ready feat) {i : XComp} (hi : c.saved i = false) :
    c.comp i = i.init := by
  obtain ⟨huse, hmxcsr⟩ := Bool.or_eq_false_iff.mp hi
  have hinitial := h.initial i huse
  cases i with
  | x87 => exact hinitial
  | avx => exact hinitial
  | sse =>
    have hvalue : (c.comp .sse).mxcsr = 0x1f80#32 := not_not.mp (of_decide_eq_false hmxcsr)
    exact congrArg₂ SseState.mk hvalue hinitial

/-- What is saved and not written is in the area. -/
theorem XCpu.Live.comp_eq (h : c.Live e) {i : XComp} {mask : Word}
    (hi : c.saved i = true)
    (hnot : c.toBeSaved (decide (c.xrstorInfo = ⟨false, addr, mask⟩)) i = false) :
    e.xsArea.comp i = c.comp i := by
  obtain ⟨hskip, hmxcsr⟩ := Bool.or_eq_false_iff.mp hnot
  have huse : c.inUse i = true := by
    rw [XCpu.saved, hmxcsr, Bool.or_false] at hi
    exact hi
  rw [huse, Bool.true_and, Bool.not_eq_false', Bool.and_eq_true] at hskip
  have hinfo := of_decide_eq_true hskip.1
  refine h (hinfo ▸ rfl) i ?_ huse
  rw [← Bool.not_eq_true']
  exact hskip.2

theorem XComp.initial_init (i : XComp) : i.Initial i.init := by
  cases i <;> rfl

/-- The hypervisor enables all components before it saves or restores. -/
theorem writeXcr_all {v : Word} (hv : XcrValid 7#64 v) :
    writeXcr feat (v ||| xcr0Sse ||| xcr0Avx) c = some { c with xcr0 := 7#64 } := by
  rw [xcr0_or hv]
  exact if_pos xcrValid_all.supported

theorem XCpu.rfbm_all (hxcr0 : c.xcr0 = 7#64) (hxss : c.xss = 0#64) :
    c.rfbm = 7#64 ||| 0#64 := by
  rw [XCpu.rfbm, hxcr0, hxss]

theorem XCpu.getLsbD_rfbm (hxcr0 : c.xcr0 = 7#64) (hxss : c.xss = 0#64) (i : XComp) :
    c.rfbm.getLsbD i.bit = true := by
  rw [XCpu.rfbm_all hxcr0 hxss]
  exact getLsbD_seven i

theorem xsaves_xstateBv {a : XsaveArea} : (xsaves addr c a).xstateBv =
    xbv fun i => c.rfbm.getLsbD i.bit && c.saved i := rfl

theorem xsaves_xcompBv {a : XsaveArea} (hxcr0 : c.xcr0 = 7#64) (hxss : c.xss = 0#64) :
    (xsaves addr c a).xcompBv = 7#64 ||| 0#64 ||| compactedBit :=
  congrArg (· ||| compactedBit) (XCpu.rfbm_all hxcr0 hxss)

/-- **XSAVES** leaves all components in the area, or leaves them out for initial. -/
theorem XCpu.Ready.xsaves_comp (hready : c.Ready feat) (hlive : c.Live e)
    (hxcr0 : c.xcr0 = 7#64) (i : XComp) :
    c.comp i = if (xsaves addr c e.xsArea).xstateBv.getLsbD i.bit then
      (xsaves addr c e.xsArea).comp i else i.init := by
  have hbit : c.rfbm.getLsbD i.bit = true := XCpu.getLsbD_rfbm hxcr0 hready.xss i
  have hxstate : (xsaves addr c e.xsArea).xstateBv.getLsbD i.bit = c.saved i := by
    rw [xsaves_xstateBv, getLsbD_xbv, hbit, Bool.true_and]
  rw [hxstate]
  cases hsaved : c.saved i with
  | false => exact hready.init_of_not_saved hsaved
  | true =>
    rw [if_pos rfl, xsaves]
    dsimp only
    rw [hbit, Bool.true_and]
    split
    · rfl
    -- it was restored from there, and was not modified since
    · next hnot => exact (hlive.comp_eq hsaved (Bool.not_eq_true _ ▸ hnot)).symm

theorem XCpu.restored_inUse {a : XsaveArea} (hxcr0 : c.xcr0 = 7#64) (hxss : c.xss = 0#64)
    (i : XComp) : (c.restored addr a).inUse i = a.xstateBv.getLsbD i.bit :=
  if_pos (XCpu.getLsbD_rfbm hxcr0 hxss i)

/-- **XRSTORS** loads what the area holds. -/
theorem ExtContext.Holds.restored_comp (hholds : e.Holds feat f) (hxcr0 : c.xcr0 = 7#64)
    (hxss : c.xss = 0#64) (i : XComp) : (c.restored addr e.xsArea).comp i = f.comp i := by
  rw [XCpu.restored]
  dsimp only
  rw [if_pos (XCpu.getLsbD_rfbm hxcr0 hxss i), hholds.comp i]

theorem ExtContext.Holds.xrstorsAllowed (hholds : e.Holds feat f) (hxcr0 : c.xcr0 = 7#64)
    (hxss : c.xss = 0#64) : XrstorsAllowed feat e.xsArea c := by
  refine ⟨hholds.compacted, XCpu.rfbm_all hxcr0 hxss ▸ hholds.xcompBv, hholds.xstateBv,
    fun _ hsse => ?_⟩
  have hcomp : f.comp .sse = e.xsArea.comp .sse := (hholds.comp .sse).trans (if_pos hsse)
  exact hcomp ▸ hholds.mxcsr

/-- After XRSTORS the processor is ready, and the area is the one it was restored from. -/
theorem ExtContext.Holds.restored (hholds : e.Holds feat f) (hxcr0 : c.xcr0 = 7#64)
    (hxss : c.xss = 0#64) (hlstar : c.lstar = f.lstar) (hgs : c.kernelGsBase = f.kernelGsBase) :
    (c.restored addr e.xsArea).Ready feat ∧ (c.restored addr e.xsArea).Live e := by
  have huse (i : XComp) :
      (c.restored addr e.xsArea).inUse i = e.xsArea.xstateBv.getLsbD i.bit :=
    XCpu.restored_inUse hxcr0 hxss i
  have hcomp (i : XComp) : (c.restored addr e.xsArea).comp i = f.comp i :=
    hholds.restored_comp hxcr0 hxss i
  refine ⟨⟨hxcr0.symm ▸ xcrValid_all, hxss, fun i hi => ?_, ?_, hlstar.symm ▸ hholds.canonicalLstar,
    hgs.symm ▸ hholds.canonicalGsBase⟩, fun _ i _ hi => ?_⟩
  · have hnot : ¬ e.xsArea.xstateBv.getLsbD i.bit = true :=
      Bool.not_eq_true _ ▸ (huse i).symm.trans hi
    rw [hcomp, hholds.comp i, if_neg hnot]
    exact i.initial_init
  · rw [hcomp]
    exact hholds.mxcsr
  · have hsaved : e.xsArea.xstateBv.getLsbD i.bit = true := (huse i).symm.trans hi
    rw [hcomp, hholds.comp i, if_pos hsaved]

/-- **`context_switch_out`** saves what the vCPU has. -/
theorem contextSwitchOut_holds (hready : c.Ready feat) (hlive : c.Live e) :
    ∃ c' e', contextSwitchOut feat addr c e = some (c', e') ∧ c'.Ready feat ∧
      e'.Holds feat c.view := by
  set c₁ : XCpu := { c with xcr0 := 7#64 } with hc₁
  have hxcr : writeXcr feat (c.xcr0 ||| xcr0Sse ||| xcr0Avx) c = some c₁ :=
    writeXcr_all hready.xcr0
  have hready₁ : c₁.Ready feat := { hready with xcr0 := xcrValid_all }
  have hlive₁ : c₁.Live e := hlive
  have hxcomp : (xsaves addr c₁ e.xsArea).xcompBv = 7#64 ||| 0#64 ||| compactedBit :=
    xsaves_xcompBv rfl hready.xss
  refine ⟨c₁, {
    ia32Star := c.star
    ia32Lstar := c.lstar
    ia32Fmask := c.fmask
    ia32KernelGsBase := c.kernelGsBase
    xsArea := xsaves addr c₁ e.xsArea
    xcr0 := c.xcr0
    xss := c₁.xss }, ?_, hready₁, ?_⟩
  · rw [contextSwitchOut, saveXsaveArea, hxcr]
    rfl
  · have hcompacted : (xsaves addr c₁ e.xsArea).xcompBv.getLsbD 63 = true := by
      rw [hxcomp]
      decide
    have henabled : (xsaves addr c₁ e.xsArea).xcompBv &&&
        ~~~(7#64 ||| 0#64 ||| compactedBit) = 0#64 := by
      rw [hxcomp]
      decide
    have hstate : (xsaves addr c₁ e.xsArea).xstateBv &&&
        ~~~(xsaves addr c₁ e.xsArea).xcompBv = 0#64 := by
      rw [xsaves_xstateBv, hxcomp]
      exact xbv_and (by decide)
    have hcomp (i : XComp) : c.comp i = if (xsaves addr c₁ e.xsArea).xstateBv.getLsbD i.bit then
        (xsaves addr c₁ e.xsArea).comp i else i.init := hready₁.xsaves_comp hlive₁ rfl i
    exact ⟨rfl, hready.xcr0, hready.xss, hcompacted, henabled, hstate, hcomp, hready.mxcsr,
      rfl, rfl, rfl, rfl, hready.lstar, hready.kernelGsBase⟩

/-- **`context_switch_in`** restores it. -/
theorem contextSwitchIn_view (hholds : e.Holds feat f) :
    ∃ c', contextSwitchIn feat addr e c = some c' ∧ c'.Ready feat ∧ c'.Live e ∧ c'.view = f := by
  have hvalid : XcrValid 7#64 e.xcr0 := hholds.xcr0 ▸ hholds.valid
  have hlstar : Canonical e.ia32Lstar := hholds.lstar ▸ hholds.canonicalLstar
  have hgs : Canonical e.ia32KernelGsBase := hholds.kernelGsBase ▸ hholds.canonicalGsBase
  set c₀ : XCpu := { c with
    star := e.ia32Star
    lstar := e.ia32Lstar
    fmask := e.ia32Fmask
    kernelGsBase := e.ia32KernelGsBase } with hc₀
  have hmsrs : contextSwitchIn feat addr e c = rstoreXsaveArea feat addr e c₀ := by
    rw [contextSwitchIn, writeLstar, if_pos hlstar, Option.bind_some, writeKernelGsBase,
      if_pos hgs, Option.bind_some]
  have hxcr : writeXcr feat (e.xcr0 ||| xcr0Sse ||| xcr0Avx) c₀ =
      some { c₀ with xcr0 := 7#64 } := writeXcr_all hvalid
  set c₁ : XCpu := { c₀ with xcr0 := 7#64, xss := e.xss } with hc₁
  have hxss : writeXss feat e.xss { c₀ with xcr0 := 7#64 } = some c₁ := by
    refine if_pos ?_
    rw [hholds.xss]
    exact BitVec.zero_and
  have hxss₁ : c₁.xss = 0#64 := hholds.xss
  obtain ⟨hready, hlive⟩ : (c₁.restored addr e.xsArea).Ready feat ∧
      (c₁.restored addr e.xsArea).Live e :=
    hholds.restored rfl hxss₁ hholds.lstar hholds.kernelGsBase
  refine ⟨{ c₁.restored addr e.xsArea with xcr0 := e.xcr0 }, ?_, { hready with xcr0 := hvalid },
    hlive, ?_⟩
  · rw [hmsrs, rstoreXsaveArea, hxcr, Option.bind_some, hxss, Option.bind_some, xrstors,
      if_pos (hholds.xrstorsAllowed rfl hxss₁), Option.bind_some]
    exact if_pos hvalid.supported
  · have hcomps : (c₁.restored addr e.xsArea).comp = f.comp :=
      funext (hholds.restored_comp rfl hxss₁)
    rw [XCpu.view]
    dsimp only
    rw [hcomps, hholds.xcr0]
    show ExtFile.mk f.comp f.xcr0 e.ia32Star e.ia32Lstar e.ia32Fmask e.ia32KernelGsBase = f
    rw [hholds.star, hholds.lstar, hholds.fmask, hholds.kernelGsBase]

/-- The two halves of the value for XSETBV. -/
theorem xsetbv_value {rax rdx : Word} : (rax &&& 0xffffffff#64) ||| (rdx <<< 32) =
    rdx.setWidth 32 ++ rax.setWidth 32 := by
  have hmask : 0xffffffff#64 = fieldMask 64 0 32 := by decide
  apply BitVec.eq_of_getLsbD_eq
  intro i hi
  rw [hmask, BitVec.getLsbD_or, BitVec.getLsbD_and, getLsbD_fieldMask (Nat.zero_le 32),
    BitVec.getLsbD_shiftLeft, BitVec.getLsbD_append, BitVec.getLsbD_setWidth,
    BitVec.getLsbD_setWidth]
  by_cases hlt : i < 32
  · simp [hlt, hi]
  · have hhigh : i - 32 < 32 := by omega
    simp [hlt, hi, hhigh]

theorem xsetbv_index {rcx : Word} : rcx &&& 0xffffffff#64 = 0#64 ↔ rcx.setWidth 32 = 0#32 := by
  have hmod : (rcx &&& 0xffffffff#64).toNat = (rcx.setWidth 32).toNat := by
    rw [BitVec.toNat_and, BitVec.toNat_setWidth]
    exact Nat.and_two_pow_sub_one_eq_mod rcx.toNat 32
  rw [← BitVec.toNat_inj, ← BitVec.toNat_inj, hmod]
  rfl

/-- What the handler checks of a value. -/
theorem xcrValid_checks {v : Word} : XcrValid 7#64 v ↔ v &&& 1#64 ≠ 0#64 ∧
    v &&& xcr0EmulatedReservedBits = 0#64 ∧ v &&& (xcr0Sse ||| xcr0Avx) ≠ xcr0Avx := by
  have hsmall : ∀ n < 8, BitVec.ofNat 64 n &&& 1#64 ≠ 0#64 →
      BitVec.ofNat 64 n &&& (xcr0Sse ||| xcr0Avx) ≠ xcr0Avx →
        XcrValid 7#64 (BitVec.ofNat 64 n) := by decide
  constructor
  · intro h
    rcases xcrValid_seven.mp h with rfl | rfl | rfl <;> decide
  · rintro ⟨hx87, hreserved, havx⟩
    have hv := hsmall v.toNat (lt_of_and_not_seven hreserved)
    rw [BitVec.ofNat_toNat, BitVec.setWidth_eq] at hv
    exact hv hx87 havx

/-- **`xsetbv_vmexit_handler`** is XSETBV of a processor with x87, SSE and AVX. -/
theorem xsetbvVmexitHandler_eq (feat : XFeatures) (c : XCpu) {rcx rax rdx : Word} :
    XsetbvAllowed rcx rax rdx ∧ c.xsetbvVmexitHandler feat rcx rax rdx =
        some ({ c with xcr0 := rdx.setWidth 32 ++ rax.setWidth 32 }, false) ∨
      ¬ XsetbvAllowed rcx rax rdx ∧ c.xsetbvVmexitHandler feat rcx rax rdx = some (c, true) := by
  rw [XCpu.xsetbvVmexitHandler, xsetbv_value]
  by_cases hindex : rcx &&& 0xffffffff#64 = 0#64
  swap
  · exact .inr ⟨fun h => hindex (xsetbv_index.mpr h.1), if_pos hindex⟩
  rw [if_neg (not_not.mpr hindex)]
  dsimp only
  by_cases hvalid : XcrValid 7#64 (rdx.setWidth 32 ++ rax.setWidth 32)
  · obtain ⟨hx87, hreserved, havx⟩ := xcrValid_checks.mp hvalid
    refine .inl ⟨⟨xsetbv_index.mp hindex, hvalid⟩, ?_⟩
    rw [if_neg hx87, if_neg (not_not.mpr hreserved), if_neg havx, writeXcr,
      if_pos hvalid.supported]
    rfl
  · refine .inr ⟨fun h => hvalid h.2, ?_⟩
    by_contra hother
    refine hvalid (xcrValid_checks.mpr ⟨fun h => hother ?_, ?_, fun h => hother ?_⟩)
    · rw [if_pos h]
    · by_contra h
      refine hother ?_
      rw [if_pos h, ite_self]
    · rw [if_pos h, ite_self, ite_self]

/-- What a vCPU does in its turn. -/
theorem extDevice_client {T : Type*} {addr : T → Word} {use : ExtUse} (hready : c.Ready feat)
    (hlive : c.Live e) (h : (extDevice feat addr).client c use c') :
    ownExt.client c.view use c'.view ∧ c'.Ready feat ∧ c'.Live e := by
  cases use with
  | guest g =>
    obtain ⟨hrun, hview⟩ := h
    refine ⟨⟨hrun.xcr0, hview⟩,
      ⟨hrun.xcr0 ▸ hready.xcr0, hrun.xss.trans hready.xss, hrun.initial, hrun.mxcsr, hrun.lstar,
        hrun.kernelGsBase⟩, ?_⟩
    intro hroot i hmodified huse
    rcases hrun.tracked with hguest | ⟨hinfo, htracked⟩
    · exact absurd (hguest.symm.trans hroot) (by decide)
    · obtain ⟨hmodified', hcomp, huse'⟩ := htracked i hmodified
      exact (hlive (hinfo ▸ hroot) i hmodified' (huse' huse)).trans hcomp.symm
  | xsetbv rcx rax rdx gp =>
    have hhandler : c.xsetbvVmexitHandler feat rcx rax rdx = some (c', gp) := h
    rcases xsetbvVmexitHandler_eq feat c with ⟨hallowed, heq⟩ | ⟨hnot, heq⟩
    · obtain ⟨rfl, rfl⟩ := Prod.mk.inj (Option.some.inj (heq.symm.trans hhandler))
      exact ⟨.inl ⟨hallowed, rfl, rfl⟩, { hready with xcr0 := hallowed.2 }, hlive⟩
    · obtain ⟨rfl, rfl⟩ := Prod.mk.inj (Option.some.inj (heq.symm.trans hhandler))
      exact ⟨.inr ⟨hnot, rfl, rfl⟩, hready, hlive⟩

end

/-! ## Every run -/

section
variable {T : Type*} {feat : XFeatures} {addr : T → Word}

theorem createdExtContext_holds : createdExtContext.Holds feat ownExt.fresh where
  xcr0 := rfl
  valid := by decide
  xss := rfl
  compacted := by decide
  xcompBv := by decide
  xstateBv := by decide
  comp i := by
    cases i <;> rfl
  mxcsr := feat.mxcsr
  star := rfl
  lstar := rfl
  fmask := rfl
  kernelGsBase := rfl
  canonicalLstar := canonical_zero
  canonicalGsBase := canonical_zero

/-- The switch keeps the laws. -/
theorem ext_implements : Implements (extDevice feat addr) ownExt (extViews feat) where
  fresh := createdExtContext_holds
  touch _ _ _ h := { h with kernelGsBase := rfl, canonicalGsBase := canonical_zero }
  touchLive _ _ _ _ h := h
  client _ _ _ _ _ := extDevice_client
  save _ _ _ := contextSwitchOut_holds
  restore _ _ _ _ _ := contextSwitchIn_view

variable [DecidableEq T] {s s' : Shared T XCpu ExtContext} {es : List (Event T ExtUse Unit)}

/-- **Each vCPU has an extended context of its own.** Every run of the vCPUs of a processor is,
event by event, one of vCPUs that have a processor each, and the one that has its turn finds
there what it has here. No save or restore faults. -/
theorem extended_context_private (hinit : (extDevice feat addr).system.init s)
    (hready : s.regs.Ready feat) (hrun : Run (extDevice feat addr).system s es s') :
    (∃ p, Run ownExt.system ⟨fun _ => none, none⟩ es p ∧ p.curr = s'.curr ∧
      ∀ t, s'.curr = some t → p.files t = some s'.regs.view) ∧
    ∀ next, s'.curr ≠ next → (∀ t, next = some t → s'.areas t ≠ none) →
      ∃ s'', (extDevice feat addr).Step s' (.switch next) s'' := by
  obtain ⟨regs, areas, curr⟩ := s
  obtain ⟨rfl, hnone⟩ := hinit
  have hrel : (extViews (T := T) feat).Rel ⟨regs, areas, none⟩ ⟨fun _ => none, none⟩ := by
    refine Views.rel_idle hready fun t => ?_
    have harea : areas t = none := hnone t
    rw [harea]
    exact .none
  obtain ⟨p, hown, hrel'⟩ := ext_implements.simulates.run hrel hrun
  refine ⟨⟨p, hown, hrel'.curr.symm, fun t ht => ?_⟩, fun next => ext_implements.switch hrel'⟩
  obtain ⟨-, -, hfile, -⟩ := hrel'.view ht
  exact hfile

end

/-- A processor with x87, SSE and AVX alone. -/
def avxFeatures : XFeatures where
  xcr0 := 7#64
  xss := 0#64
  mxcsrMask := 0xffff#32
  avx := by decide
  mxcsr := by decide

/-- The processor when the hypervisor has started. -/
def bootXCpu : XCpu where
  xcr0 := 1#64
  xss := 0#64
  comp := XComp.init
  fipHigh := 0#32
  fdpHigh := 0#32
  inUse _ := false
  modified _ := true
  xrstorInfo := ⟨true, 0#64, 0#64⟩
  star := 0#64
  lstar := 0#64
  fmask := 0#64
  kernelGsBase := 0#64

theorem bootXCpu_ready : bootXCpu.Ready avxFeatures where
  xcr0 := by decide
  xss := rfl
  initial i _ := i.initial_init
  mxcsr := by decide
  lstar := canonical_zero
  kernelGsBase := canonical_zero

/-- A vCPU enables AVX, is switched out and is switched in again. -/
theorem extended_context_private_avx : ∃ (s' : Shared Bool XCpu ExtContext)
    (p : Files Bool ExtFile), Run (extDevice avxFeatures fun _ : Bool => 0x1000#64).system
      ⟨bootXCpu, fun _ => none, none⟩ [.create true, .switch (some true),
        .client (.xsetbv 0#64 7#64 0#64 false), .switch none, .switch (some true)] s' ∧
      s'.curr = some true ∧ p.files true = some s'.regs.view ∧ p.curr = some true := by
  set D := extDevice avxFeatures fun _ : Bool => 0x1000#64 with hD
  set s₀ : Shared Bool XCpu ExtContext := ⟨bootXCpu, fun _ => none, none⟩ with hs₀
  have hinit : D.system.init s₀ := ⟨rfl, fun _ => rfl⟩
  have hready : s₀.regs.Ready avxFeatures := bootXCpu_ready
  have hcreate : D.Step s₀ (.create true) _ := .create true (Option.some_ne_none true).symm
  have hrun₁ : Run D.system s₀ [.create true] _ := Run.nil.step hcreate
  have hnext : ∀ t, some true = some t → Function.update s₀.areas true (some D.fresh) t ≠ none := by
    rintro t ht
    cases ht
    rw [Function.update_self]
    exact Option.some_ne_none _
  obtain ⟨s₂, hs₂⟩ := (extended_context_private hinit hready hrun₁).2 (some true)
    (Option.some_ne_none true).symm hnext
  have hallowed : XsetbvAllowed 0#64 7#64 0#64 := ⟨by decide, by decide⟩
  obtain ⟨r, hr⟩ : ∃ r, s₂.regs.xsetbvVmexitHandler avxFeatures 0#64 7#64 0#64 =
      some (r, false) := by
    rcases xsetbvVmexitHandler_eq avxFeatures s₂.regs with h | h
    · exact ⟨_, h.2⟩
    · exact absurd hallowed h.1
  have hclient : D.Step s₂ (.client (.xsetbv 0#64 7#64 0#64 false)) { s₂ with regs := r } :=
    .client true _ r hs₂.curr_switch hr
  have hrun₃ := (hrun₁.step hs₂).step hclient
  have hcurr₂ := hs₂.curr_switch
  obtain ⟨s₄, hs₄⟩ := (extended_context_private hinit hready hrun₃).2 none
    (hcurr₂ ▸ Option.some_ne_none true) fun t ht => absurd ht (Option.some_ne_none t).symm
  have hcurr₄ := hs₄.curr_switch
  have hrun₄ := hrun₃.step hs₄
  have hcreated : s₄.areas true ≠ none :=
    hs₄.created (hclient.created (hs₂.created (hnext true rfl)))
  obtain ⟨s₅, hs₅⟩ := (extended_context_private hinit hready hrun₄).2 (some true)
    (hcurr₄ ▸ (Option.some_ne_none true).symm) fun t ht => Option.some.inj ht ▸ hcreated
  obtain ⟨⟨p, -, hcurr, hview⟩, -⟩ := extended_context_private hinit hready (hrun₄.step hs₅)
  have hcurr₅ := hs₅.curr_switch
  exact ⟨s₅, p, hrun₄.step hs₅, hcurr₅, hview true hcurr₅, hcurr.trans hcurr₅⟩

end Acrn
