import Acrn.DmarTables
import Acrn.Lib.Driver
import Acrn.Vcpuid

/-!
# The registers of a remapping unit

`init_iommu` and `enable_iommu` program a remapping unit through its registers: commands go to
`DMAR_GCMD_REG`, the unit carries each one out at some later time and shows that in `DMAR_GSTS_REG`,
and requests to forget what it keeps of the tables go through the invalidation queue in memory.
-/

namespace Acrn

open Driver

/-! ## The unit

The unit is a device with steps of its own: it carries out a command, or the next descriptor of the
queue. `Allows` is what the hardware demands of a write. A write against it is a step as well, so
that a driver has to be shown to make none. -/

/-- The registers, and the halves of those of 64 bits. -/
inductive DmarReg where
  /-- `DMAR_GCMD_REG` -/
  | gcmd
  /-- `DMAR_GSTS_REG` -/
  | gsts
  /-- `DMAR_RTADDR_REG` -/
  | rtaddr (half : EntryWord)
  /-- `DMAR_IQT_REG` -/
  | iqt
  /-- `DMAR_IQA_REG` -/
  | iqa (half : EntryWord)
  /-- `DMAR_IRTA_REG` -/
  | irta (half : EntryWord)

/-- What the hypervisor accesses: registers, the queue in memory, and the words in memory that wait
descriptors write to. -/
inductive DmarLoc where
  | reg (reg : DmarReg)
  | entry (addr : Word) (word : EntryWord)
  | status (addr : Word)

/-- Bit `DMA_GCMD_TE` of commands and `DMA_GSTS_TES` of the status, and so on. -/
def teBit : ℕ := 31
def srtpBit : ℕ := 30
def qieBit : ℕ := 26
def ireBit : ℕ := 25
def sirtpBit : ℕ := 24

/-- The bits of the status that follow the command register: TE, EAFL, QIE, IRE and CFI. -/
def toggleMask : U32 := 0x96800000#32

/-- The bits of commands to be carried out once: SRTP, SFL, WBF and SIRTP. -/
def onceMask : U32 := 0x69000000#32

/-- A unit and the memory that it fetches from. `command` is what is still to be carried out. The
tables that were set are `root` and `irTable`; the other flags tell whether it may keep entries from
before the tables were set. -/
structure DmarHw where
  gsts : U32
  command : Option U32
  rtaddr : Word
  irta : Word
  iqa : Word
  iqt : U32
  head : ℕ
  mem : Word → DmarEntry
  status : Word → U32
  root : Word
  irTable : Word
  ctxKept : Bool
  iotlbKept : Bool
  iecKept : Bool

/-- One half of a register of 64 bits is written. -/
def setHalf (x : Word) (half : EntryWord) (v : U32) : Word :=
  match half with
  | .lo => x.extractLsb' 32 32 ++ v
  | .hi => v ++ x.extractLsb' 0 32

namespace DmarHw

variable (h : DmarHw)

/-- A bit of the status. -/
def sts (n : ℕ) : Bool := h.gsts.getLsbD n

/-- What a write to the command register asks for. -/
def asked (v : U32) : U32 := ((v ^^^ h.gsts) &&& toggleMask) ||| (v &&& onceMask)

/-- The command register is written. The status shows no more what is to be done once again. -/
def writeGcmd (v : U32) : DmarHw :=
  if h.asked v = 0#32 then h
  else { h with gsts := h.gsts &&& ~~~(v &&& onceMask), command := some v }

/-- A command is carried out. -/
def carryOut (v : U32) : DmarHw :=
  { h with
    command := none
    gsts := (h.gsts &&& ~~~toggleMask) ||| (v &&& (toggleMask ||| onceMask))
    root := if v.getLsbD srtpBit then h.rtaddr else h.root
    ctxKept := h.ctxKept || v.getLsbD srtpBit
    iotlbKept := h.iotlbKept || v.getLsbD srtpBit
    irTable := if v.getLsbD sirtpBit then h.irta else h.irTable
    iecKept := h.iecKept || v.getLsbD sirtpBit
    head := if v.getLsbD qieBit && !h.sts qieBit then 0 else h.head }

/-- The descriptor at the head of the queue. -/
def descriptor : DmarEntry := h.mem (h.iqa + 16#64 * BitVec.ofNat 64 h.head)

/-- A request is carried out. -/
def perform : Invalidation → DmarHw
  | .context granularity _ _ _ => { h with ctxKept := h.ctxKept && granularity != 1#2 }
  | .iotlb granularity _ => { h with iotlbKept := h.iotlbKept && granularity != 1#2 }
  | .iec granularity _ _ => { h with iecKept := h.iecKept && granularity != 0#1 }
  | .wait addr data => { h with status := Function.update h.status addr data }
  | .reserved => h

/-- The descriptor at the head of the queue is carried out. -/
def fetch : DmarHw :=
  { h with head := (h.head + 1) % qiSlots }.perform (decodeInvalidation h.descriptor)

/-- There is nothing in the queue. -/
def Drained : Prop := h.sts qieBit = true → 16 * h.head = h.iqt.toNat

/-- What the unit does by itself. -/
inductive Tick (h : DmarHw) : DmarHw → Prop where
  | carryOut {v : U32} : h.command = some v → Tick h (h.carryOut v)
  | fetch : h.sts qieBit = true → 16 * h.head ≠ h.iqt.toNat → Tick h h.fetch

/-- A register is written. -/
def writeReg (reg : DmarReg) (v : U32) : DmarHw :=
  match reg with
  | .gcmd => h.writeGcmd v
  | .gsts => h
  | .rtaddr half => { h with rtaddr := setHalf h.rtaddr half v }
  | .iqt => { h with iqt := v }
  | .iqa half => { h with iqa := setHalf h.iqa half v }
  | .irta half => { h with irta := setHalf h.irta half v }

def read : DmarLoc → Word
  | .reg .gsts => h.gsts.setWidth 64
  | .reg _ => 0#64
  | .entry addr word => h.mem addr word
  | .status addr => (h.status addr).setWidth 64

def write : DmarLoc → Word → DmarHw
  | .reg reg, v => h.writeReg reg (v.setWidth 32)
  | .entry addr word, v =>
    { h with mem := Function.update h.mem addr (Function.update (h.mem addr) word v) }
  | .status addr, v => { h with status := Function.update h.status addr (v.setWidth 32) }

/-- What the unit demands of a command: it is the only one, nothing old is kept when translation
or interrupt remapping is turned on, and the queue is turned on at its first slot. -/
structure AllowsCommand (v : U32) : Prop where
  single : ∃ n : ℕ, h.asked v &&& ~~~(1#32 <<< n) = 0#32
  translation : h.sts teBit = false → v.getLsbD teBit = true →
    h.ctxKept = false ∧ h.iotlbKept = false
  remapping : h.sts ireBit = false → v.getLsbD ireBit = true → h.iecKept = false
  queue : h.sts qieBit = false → v.getLsbD qieBit = true → h.iqt = 0#32

/-- What the unit demands of a write: no command is under way, the queue does not move while it is
in use, and nothing is written to it that the unit is about to fetch. -/
def Allows : DmarLoc → Word → Prop
  | .reg reg, v => h.command = none ∧
    match reg with
    | .gcmd => h.AllowsCommand (v.setWidth 32)
    | .iqa _ => h.sts qieBit = false
    | _ => True
  | .entry _ _, _ => h.Drained
  | .status _, _ => h.Drained

end DmarHw

/-- A remapping unit as a device. -/
def dmarDevice : Device DmarHw DmarLoc Word where
  read h loc := (h.read loc, h)
  write := DmarHw.write
  tick := DmarHw.Tick
  allows := DmarHw.Allows

/-! ## The driver

The functions are programs that read, write and wait. A wait is one action, which is there again as
long as its condition does not hold. -/

/-- Programs that access a unit. -/
abbrev DmarProg (α : Type) := Prog DmarLoc Word α

/-- `DMAR_GSTS_REG_MASK`. -/
def dmarGstsRegMask : U32 := 0x96FFFFFF#32

/-- `DMA_GCMD_TE` and `DMA_GSTS_TES`, and so on. -/
def dmaGcmdTe : U32 := 1#32 <<< teBit
def dmaGcmdSrtp : U32 := 1#32 <<< srtpBit
def dmaGcmdQie : U32 := 1#32 <<< qieBit
def dmaGcmdIre : U32 := 1#32 <<< ireBit
def dmaGcmdSirtp : U32 := 1#32 <<< sirtpBit

/-- `DMAR_IR_ENABLE_EIM`. -/
def dmarIrEnableEim : Word := 1#64 <<< 11

/-- `struct dmar_drhd_rt`, with `ignore` of `struct dmar_drhd`. -/
structure DmarDrhdRt where
  index : ℕ
  ignore : Bool
  rootTableAddr : Option Word
  irTableAddr : Option Word
  qiQueue : Word
  qiTail : BitVec 16
  gcmd : U32

/-- `get_root_table`, `get_ir_table` and `get_qi_queue`, and where `qi_status` is on the stack. -/
structure DmarPages where
  getRootTable : ℕ → Word
  getIrTable : ℕ → Word
  getQiQueue : ℕ → Word
  qiStatus : Word

/-- `iommu_read32`. -/
def iommuRead32 (reg : DmarReg) : DmarProg U32 := do
  let v ← Prog.readReg (.reg reg)
  return v.setWidth 32

/-- `iommu_write32`. -/
def iommuWrite32 (reg : DmarReg) (value : U32) : DmarProg Unit :=
  Prog.writeReg (.reg reg) (value.setWidth 64)

/-- `iommu_write64`. -/
def iommuWrite64 (reg : EntryWord → DmarReg) (value : Word) : DmarProg Unit := do
  iommuWrite32 (reg .lo) (value.setWidth 32)
  iommuWrite32 (reg .hi) ((value >>> 32).setWidth 32)

/-- `dmar_wait_completion`. -/
def dmarWaitCompletion (reg : DmarReg) (mask : U32) (preCondition : Bool) : DmarProg U32 := do
  let v ← Prog.waitReg (.reg reg) fun v => decide (v.setWidth 32 &&& mask = 0#32) == preCondition
  return v.setWidth 32

section

variable (pages : DmarPages) (rt : DmarDrhdRt)

/-- `dmar_enable_intr_remapping`. -/
def dmarEnableIntrRemapping : DmarProg DmarDrhdRt :=
  if rt.gcmd &&& dmaGcmdIre = 0#32 then do
    let rt := { rt with gcmd := rt.gcmd ||| dmaGcmdIre }
    iommuWrite32 .gcmd rt.gcmd
    let _ ← dmarWaitCompletion .gsts dmaGcmdIre false
    return rt
  else return rt

/-- `dmar_enable_translation`. -/
def dmarEnableTranslation : DmarProg DmarDrhdRt :=
  if rt.gcmd &&& dmaGcmdTe = 0#32 then do
    let rt := { rt with gcmd := rt.gcmd ||| dmaGcmdTe }
    iommuWrite32 .gcmd rt.gcmd
    let _ ← dmarWaitCompletion .gsts dmaGcmdTe false
    return rt
  else return rt

/-- `dmar_disable_translation`. -/
def dmarDisableTranslation : DmarProg DmarDrhdRt := do
  let rt := { rt with gcmd := rt.gcmd &&& ~~~dmaGcmdTe }
  iommuWrite32 .gcmd rt.gcmd
  let _ ← dmarWaitCompletion .gsts dmaGcmdTe true
  return rt

/-- `dmar_register_hrhd`. -/
def dmarRegisterHrhd : DmarProg DmarDrhdRt := do
  let gsts ← iommuRead32 .gsts
  dmarDisableTranslation { rt with gcmd := gsts &&& dmarGstsRegMask }

/-- `dmar_set_root_table`. -/
def dmarSetRootTable : DmarProg DmarDrhdRt := do
  let rootTableAddr := rt.rootTableAddr.getD (pages.getRootTable rt.index)
  let rt := { rt with rootTableAddr := some rootTableAddr }
  iommuWrite64 .rtaddr rootTableAddr
  iommuWrite32 .gcmd (rt.gcmd ||| dmaGcmdSrtp)
  let _ ← dmarWaitCompletion .gsts dmaGcmdSrtp false
  return rt

/-- `dmar_enable_qi`. -/
def dmarEnableQi : DmarProg DmarDrhdRt := do
  let rt := { rt with qiQueue := pages.getQiQueue rt.index }
  iommuWrite64 .iqa rt.qiQueue
  iommuWrite32 .iqt 0#32
  if rt.gcmd &&& dmaGcmdQie = 0#32 then
    let rt := { rt with gcmd := rt.gcmd ||| dmaGcmdQie }
    iommuWrite32 .gcmd rt.gcmd
    let _ ← dmarWaitCompletion .gsts dmaGcmdQie false
    return rt
  else return rt

/-- `dmar_set_intr_remap_table`. -/
def dmarSetIntrRemapTable : DmarProg DmarDrhdRt := do
  let irTableAddr := rt.irTableAddr.getD (pages.getIrTable rt.index)
  let rt := { rt with irTableAddr := some irTableAddr }
  -- the field holds one less than the number of index bits
  let size := (fls32 (BitVec.ofNat 32 configMaxIrEntries)).setWidth 8 - 1#8
  iommuWrite64 .irta (irTableAddr ||| dmarIrEnableEim ||| size.setWidth 64)
  iommuWrite32 .gcmd (rt.gcmd ||| dmaGcmdSirtp)
  let _ ← dmarWaitCompletion .gsts dmaGcmdSirtp false
  return rt

/-- `dmar_prepare`. -/
def dmarPrepare : DmarProg DmarDrhdRt := do
  let rt ← dmarSetRootTable pages rt
  let rt ← dmarEnableQi pages rt
  dmarSetIntrRemapTable pages rt

/-- A descriptor is written to the slot at the tail, and `qi_tail` goes to the next slot. -/
def writeDescriptor (desc : DmarEntry) : DmarProg DmarDrhdRt := do
  let slot := rt.qiQueue + 16#64 * BitVec.ofNat 64 (rt.qiTail.toNat / dmarQiInvEntrySize)
  Prog.writeReg (.entry slot .hi) (desc .hi)
  Prog.writeReg (.entry slot .lo) (desc .lo)
  return { rt with qiTail := nextQiTail rt.qiTail }

/-- `dmar_issue_qi_request`. -/
def dmarIssueQiRequest (invalidateDesc : DmarEntry) : DmarProg DmarDrhdRt := do
  let rt ← writeDescriptor rt invalidateDesc
  let rt ← writeDescriptor rt (dmarEntry dmarInvWaitDescLower pages.qiStatus)
  Prog.writeReg (.status pages.qiStatus) 0#64
  iommuWrite32 .iqt (rt.qiTail.setWidth 32)
  let _ ← Prog.waitReg (.status pages.qiStatus) fun v => decide (v.setWidth 32 = 1#32)
  return rt

/-- `dmar_invalid_context_cache`. -/
def dmarInvalidContextCache (did sid : BitVec 16) (fm : BitVec 8) (cirg : DmarCirg) :
    DmarProg DmarDrhdRt :=
  let lo := match cirg with
    | .global => 0x01#64 ||| (1#64 <<< 4)
    | .device => 0x01#64 ||| ((3#64 <<< 4) ||| dmaCcmdDid did ||| dmaCcmdSid sid ||| dmaCcmdFm fm)
    | _ => 0#64
  if lo ≠ 0#64 then dmarIssueQiRequest pages rt (dmarEntry lo 0#64) else return rt

/-- `dmar_invalid_context_cache_global`. -/
def dmarInvalidContextCacheGlobal : DmarProg DmarDrhdRt :=
  dmarInvalidContextCache pages rt 0#16 0#16 0#8 .global

/-- `dmar_invalid_iotlb`. -/
def dmarInvalidIotlb (did : BitVec 16) (iirg : DmarIirg) : DmarProg DmarDrhdRt :=
  let lo := (1#64 <<< 7) ||| (1#64 <<< 6) ||| 0x02#64
  let lo := match iirg with
    | .global => lo ||| (1#64 <<< 4)
    | .domain => lo ||| ((2#64 <<< 4) ||| dmaIotlbDid did)
    | _ => 0#64
  if lo ≠ 0#64 then dmarIssueQiRequest pages rt (dmarEntry lo 0#64) else return rt

/-- `dmar_invalid_iotlb_global`. -/
def dmarInvalidIotlbGlobal : DmarProg DmarDrhdRt := dmarInvalidIotlb pages rt 0#16 .global

/-- `dmar_invalid_iec`. -/
def dmarInvalidIec (intrIndex : BitVec 16) (indexMask : BitVec 8) (isGlobal : Bool) :
    DmarProg DmarDrhdRt :=
  let lo := if isGlobal then 0x04#64 ||| (0#64 <<< 4)
    else 0x04#64 ||| ((1#64 <<< 4) ||| dmaIecIndex intrIndex indexMask)
  dmarIssueQiRequest pages rt (dmarEntry lo 0#64)

/-- `dmar_invalid_iec_global`. -/
def dmarInvalidIecGlobal : DmarProg DmarDrhdRt := dmarInvalidIec pages rt 0#16 0#8 true

/-- `dmar_enable`. -/
def dmarEnable : DmarProg DmarDrhdRt := do
  let rt ← dmarInvalidContextCacheGlobal pages rt
  let rt ← dmarInvalidIotlbGlobal pages rt
  let rt ← dmarInvalidIecGlobal pages rt
  dmarEnableTranslation rt

end

/-! ## All units -/

section

variable {n : ℕ}

/-- Programs that access the units. -/
abbrev IommuProg (n : ℕ) (α : Type) := Prog (Fin n × DmarLoc) Word α

/-- An action on one of the units. -/
def onUnit (action : DmarDrhdRt → DmarProg DmarDrhdRt) (units : Fin n → DmarDrhdRt) (i : Fin n) :
    IommuProg n (Fin n → DmarDrhdRt) := do
  let rt ← (action (units i)).on i
  return Function.update units i rt

/-- `register_hrhd_units`. -/
def registerHrhdUnits (units : Fin n → DmarDrhdRt) : IommuProg n (Fin n → DmarDrhdRt) :=
  (List.finRange n).foldlM
    (fun units i => onUnit (fun rt => dmarRegisterHrhd { rt with index := i.val }) units i) units

/-- `do_action_for_iommus`. -/
def doActionForIommus (action : DmarDrhdRt → DmarProg DmarDrhdRt) (units : Fin n → DmarDrhdRt) :
    IommuProg n (Fin n → DmarDrhdRt) :=
  (List.finRange n).foldlM
    (fun units i => if (units i).ignore then pure units else onUnit action units i) units

variable (pages : DmarPages)

/-- `init_iommu`. -/
def initIommu (units : Fin n → DmarDrhdRt) : IommuProg n (Fin n → DmarDrhdRt) := do
  let units ← registerHrhdUnits units
  doActionForIommus (dmarPrepare pages) units

/-- `enable_iommu`. -/
def enableIommu (units : Fin n → DmarDrhdRt) : IommuProg n (Fin n → DmarDrhdRt) :=
  doActionForIommus (dmarEnable pages) units

end

end Acrn
