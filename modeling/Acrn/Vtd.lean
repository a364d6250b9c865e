import Acrn.IntrRemap
import Acrn.Lib.DoorbellQueue

/-!
# DMA remapping

`vtd.c`: the remapping hardware finds the domain of a device through a root table, with an
entry for each bus, and a context table for each bus, with an entry for each device and
function; messages go through the interrupt remapping table. What the hardware keeps of an
entry is invalidated by descriptors in a queue.

All devices but the graphics device are under the second unit, `dmar_drhd_units[1]`.
-/

namespace Acrn

open BitField DoorbellQueue Transition

/-! ## Tables -/

/-- The two words of a `struct dmar_entry`. -/
inductive EntryWord where
  | lo
  | hi
  deriving DecidableEq

/-- `struct dmar_entry`. -/
abbrev DmarEntry : Type := EntryWord → Word

/-- The entry with the given words. -/
def dmarEntry (lo hi : Word) : DmarEntry
  | .lo => lo
  | .hi => hi

/-- `ROOT_ENTRY_LOWER_PRESENT_MASK`, at position 0. -/
def rootEntryLowerPresentMask : Word := 1#64
/-- `ROOT_ENTRY_LOWER_CTP_MASK`, at position 12. -/
def rootEntryLowerCtpMask : Word := 0xFFFFFFFFFFFFF#64 <<< 12
/-- `CTX_ENTRY_UPPER_AW_MASK`, at position 0. -/
def ctxEntryUpperAwMask : Word := 0x7#64
/-- `CTX_ENTRY_UPPER_DID_MASK`, at position 8. -/
def ctxEntryUpperDidMask : Word := 0xFFFF#64 <<< 8
/-- `CTX_ENTRY_LOWER_P_MASK`, at position 0. -/
def ctxEntryLowerPMask : Word := 0x1#64
/-- `CTX_ENTRY_LOWER_TT_MASK`, at position 2. -/
def ctxEntryLowerTtMask : Word := 0x3#64 <<< 2
/-- `CTX_ENTRY_LOWER_SLPTPTR_MASK`, at position 12. -/
def ctxEntryLowerSlptptrMask : Word := 0xFFFFFFFFFFFFF#64 <<< 12

/-- `dmar_get_bitslice`. -/
def dmarGetBitslice (var mask : Word) (pos : ℕ) : Word := (var &&& mask) >>> pos

/-- `dmar_set_bitslice`. -/
def dmarSetBitslice (var mask : Word) (pos : ℕ) (val : Word) : Word :=
  (var &&& ~~~mask) ||| ((val <<< pos) &&& mask)

/-- `vmid_to_domainid`. -/
def vmidToDomainid (vmId : BitVec 16) : BitVec 16 := vmId + 1#16

/-- `width_to_level`. -/
def widthToLevel (width : U32) : BitVec 8 := ((width - 12#32) / 9#32).setWidth 8

/-- `width_to_aw`. -/
def widthToAw (width : U32) : BitVec 8 := widthToLevel width - 2#8

/-- `struct iommu_domain`. -/
structure IommuDomain where
  vmId : BitVec 16
  addrWidth : U32
  transTablePtr : Word

/-- `create_iommu_domain`. -/
def createIommuDomain (vmId : BitVec 16) (translationTable : Word) (addrWidth : U32) :
    IommuDomain := ⟨vmId, addrWidth, translationTable⟩

/-- `ctx_tables[1]`: a page for each bus. -/
structure ContextTables where
  base : Word
  aligned : base.toNat % 4096 = 0
  fits : base.toNat + 4096 * 256 ≤ 2 ^ 64

/-- `get_ctx_table`. -/
def ContextTables.getCtxTable (ctx : ContextTables) (bus : BitVec 8) : Word :=
  ctx.base + 4096#64 * bus.setWidth 64

/-! ## State -/

/-- A write to one of the tables, or the flush of an entry after it. -/
inductive TableEvent where
  | root (bus : BitVec 8) (word : EntryWord) (value : Word)
  | context (addr : Word) (word : EntryWord) (value : Word)
  | irte (index : BitVec 16) (irte : DmarIrEntry)
  | flushRoot (bus : BitVec 8)
  | flushContext (addr : Word)
  | flushIrte (index : BitVec 16)

/-- `struct dmar_drhd_rt` of the unit, with its tables: the root table, the memory of the
context tables, the interrupt remapping table and the invalidation queue, where hardware
fetches. `tails` lists the values that `qi_tail` has had. -/
structure Dmar where
  rootTable : BitVec 8 → DmarEntry
  ctxMem : Word → DmarEntry
  unit : DmarUnit
  qiTail : BitVec 16
  tails : List (BitVec 16)
  queue : Queue EntryWord Word TableEvent

/-- `DMAR_QI_INV_ENTRY_SIZE`. -/
def dmarQiInvEntrySize : ℕ := 16
/-- `DMAR_INVALIDATION_QUEUE_SIZE`. -/
def dmarInvalidationQueueSize : ℕ := 4096
/-- The number of slots of the queue. -/
def qiSlots : ℕ := 256

/-- `(qi_tail + DMAR_QI_INV_ENTRY_SIZE) % DMAR_INVALIDATION_QUEUE_SIZE`. -/
def nextQiTail (qiTail : BitVec 16) : BitVec 16 :=
  BitVec.ofNat 16 ((qiTail.toNat + dmarQiInvEntrySize) % dmarInvalidationQueueSize)

/-- `DMAR_INV_WAIT_DESC_LOWER`: a status write of `DMAR_INV_STATUS_COMPLETED`. -/
def dmarInvWaitDescLower : Word := (1#64 <<< 5) ||| 0x05#64 ||| (1#64 <<< 32)

/-- `enum dmar_cirg_type`. -/
inductive DmarCirg where
  | reserved
  | global
  | domain
  | device

/-- `enum dmar_iirg_type`. -/
inductive DmarIirg where
  | reserved
  | global
  | domain
  | page

/-- `dma_ccmd_fm`. -/
def dmaCcmdFm (fm : BitVec 8) : Word := (fm.setWidth 64 &&& 0x3#64) <<< 48
/-- `dma_ccmd_sid`. -/
def dmaCcmdSid (sid : BitVec 16) : Word := (sid.setWidth 64 &&& 0xffff#64) <<< 32
/-- `dma_ccmd_did`. -/
def dmaCcmdDid (did : BitVec 16) : Word := (did.setWidth 64 &&& 0xffff#64) <<< 16
/-- `dma_iotlb_did`. -/
def dmaIotlbDid (did : BitVec 16) : Word := (did.setWidth 64 &&& 0xffff#64) <<< 16
/-- `dma_iec_index`. -/
def dmaIecIndex (index : BitVec 16) (indexMask : BitVec 8) : Word :=
  ((index.setWidth 64 &&& 0xFFFF#64) <<< 32) ||| ((indexMask.setWidth 64 &&& 0x1F#64) <<< 27)

namespace Dmar

variable (s : Dmar)

/-- A write to a word of a root entry. -/
def writeRoot (bus : BitVec 8) (word : EntryWord) (value : Word) : Dmar :=
  { s with
    rootTable := Function.update s.rootTable bus (Function.update (s.rootTable bus) word value)
    queue := s.queue.note (.root bus word value) }

/-- A write to a word of a context entry. -/
def writeContext (addr : Word) (word : EntryWord) (value : Word) : Dmar :=
  { s with
    ctxMem := Function.update s.ctxMem addr (Function.update (s.ctxMem addr) word value)
    queue := s.queue.note (.context addr word value) }

/-- The entry at `index` of the interrupt remapping table is written. -/
def writeIrte (unit : DmarUnit) (index : BitVec 16) : Dmar :=
  { s with unit, queue := s.queue.note (.irte index (unit.irTable index)) }

/-- `iommu_flush_cache`. -/
def iommuFlushCache (e : TableEvent) : Dmar := { s with queue := s.queue.note e }

/-! ## Invalidation

A request takes two slots of the queue, one for itself and one for the wait descriptor behind it.
The tail wraps around at the end of the queue. -/

/-- A descriptor is written to the slot at the tail, the high word first. -/
def writeDescriptor (desc : DmarEntry) : Dmar :=
  let slot := s.qiTail.toNat / dmarQiInvEntrySize
  { s with queue := (s.queue.write slot .hi (desc .hi)).write slot .lo (desc .lo) }

/-- `qi_tail` goes to the next slot. -/
def advanceTail : Dmar :=
  { s with qiTail := nextQiTail s.qiTail, tails := s.tails ++ [nextQiTail s.qiTail] }

/-- `dmar_issue_qi_request`, where `qi_status` is at the address `qiStatus`. The write to
`DMAR_IQT_REG` makes the hardware fetch what is in the queue; it completes the wait
descriptor, and the loop on `qi_status` ends. -/
def dmarIssueQiRequest (invalidateDesc : DmarEntry) (qiStatus : Word) : Dmar :=
  let s := (s.writeDescriptor invalidateDesc).advanceTail
  let s := (s.writeDescriptor (dmarEntry dmarInvWaitDescLower qiStatus)).advanceTail
  { s with queue := s.queue.ring qiSlots (s.qiTail.toNat / dmarQiInvEntrySize) }

/-- `dmar_invalid_context_cache`. -/
def dmarInvalidContextCache (did sid : BitVec 16) (fm : BitVec 8) (cirg : DmarCirg)
    (qiStatus : Word) : Dmar :=
  let lo := match cirg with
    | .global => 0x01#64 ||| (1#64 <<< 4)
    | .device => 0x01#64 ||| ((3#64 <<< 4) ||| dmaCcmdDid did ||| dmaCcmdSid sid ||| dmaCcmdFm fm)
    | _ => 0#64
  if lo ≠ 0#64 then s.dmarIssueQiRequest (dmarEntry lo 0#64) qiStatus else s

/-- `dmar_invalid_iotlb`. -/
def dmarInvalidIotlb (did : BitVec 16) (iirg : DmarIirg) (qiStatus : Word) : Dmar :=
  let lo := (1#64 <<< 7) ||| (1#64 <<< 6) ||| 0x02#64
  let lo := match iirg with
    | .global => lo ||| (1#64 <<< 4)
    | .domain => lo ||| ((2#64 <<< 4) ||| dmaIotlbDid did)
    | _ => 0#64
  if lo ≠ 0#64 then s.dmarIssueQiRequest (dmarEntry lo 0#64) qiStatus else s

/-- `dmar_invalid_iec`. -/
def dmarInvalidIec (intrIndex : BitVec 16) (indexMask : BitVec 8) (isGlobal : Bool)
    (qiStatus : Word) : Dmar :=
  let lo := if isGlobal then 0x04#64 ||| (0#64 <<< 4)
    else 0x04#64 ||| ((1#64 <<< 4) ||| dmaIecIndex intrIndex indexMask)
  s.dmarIssueQiRequest (dmarEntry lo 0#64) qiStatus

/-- `dmar_enable`: everything that hardware has kept is invalidated. -/
def dmarEnable (qiStatus : Word) : Dmar :=
  let s := s.dmarInvalidContextCache 0#16 0#16 0#8 .global qiStatus
  let s := s.dmarInvalidIotlb 0#16 .global qiStatus
  s.dmarInvalidIec 0#16 0#8 true qiStatus

/-! ## Devices and interrupts -/

section

variable (ctx : ContextTables)

/-- `add_iommu_device`. -/
def addIommuDevice (domain : IommuDomain) (bus devfun : BitVec 8) : Dmar :=
  let rootLo := s.rootTable bus .lo
  let (s, contextTableAddr) :=
    if dmarGetBitslice rootLo rootEntryLowerPresentMask 0 = 0#64 then
      let contextTableAddr := ctx.getCtxTable bus >>> 12
      let lo := dmarSetBitslice 0#64 rootEntryLowerCtpMask 12 contextTableAddr
      let lo := dmarSetBitslice lo rootEntryLowerPresentMask 0 1#64
      let s := (s.writeRoot bus .hi 0#64).writeRoot bus .lo lo
      (s.iommuFlushCache (.flushRoot bus), contextTableAddr)
    else (s, dmarGetBitslice rootLo rootEntryLowerCtpMask 12)
  let contextEntry := contextTableAddr <<< 12 + 16#64 * devfun.setWidth 64
  let hi := dmarSetBitslice 0#64 ctxEntryUpperAwMask 0 ((widthToAw domain.addrWidth).setWidth 64)
  let lo := dmarSetBitslice 0#64 ctxEntryLowerTtMask 2 0#64
  let hi := dmarSetBitslice hi ctxEntryUpperDidMask 8
    ((vmidToDomainid domain.vmId).setWidth 64)
  let lo := dmarSetBitslice lo ctxEntryLowerSlptptrMask 12 (domain.transTablePtr >>> 12)
  let lo := dmarSetBitslice lo ctxEntryLowerPMask 0 1#64
  let s := (s.writeContext contextEntry .hi hi).writeContext contextEntry .lo lo
  s.iommuFlushCache (.flushContext contextEntry)

/-- `remove_iommu_device`. -/
def removeIommuDevice (domain : IommuDomain) (bus devfun : BitVec 8)
    (qiStatus qiStatus' : Word) : Dmar :=
  let sid := bus ++ devfun
  let contextTableAddr := dmarGetBitslice (s.rootTable bus .lo) rootEntryLowerCtpMask 12
  let contextEntry := contextTableAddr <<< 12 + 16#64 * devfun.setWidth 64
  let s := (s.writeContext contextEntry .lo 0#64).writeContext contextEntry .hi 0#64
  let s := s.iommuFlushCache (.flushContext contextEntry)
  let s := s.dmarInvalidContextCache (vmidToDomainid domain.vmId) sid 0#8 .device qiStatus
  s.dmarInvalidIotlb (vmidToDomainid domain.vmId) .domain qiStatus'

end

/-- `dmar_assign_irte`. -/
def assignIrte (msi : BitVec 16) (irte : DmarIrEntry) (index : BitVec 16) (qiStatus : Word) :
    Dmar :=
  let s := s.writeIrte (s.unit.dmarAssignIrte msi irte index) index
  let s := s.iommuFlushCache (.flushIrte index)
  s.dmarInvalidIec index 0#8 false qiStatus

/-- `dmar_free_irte`. -/
def freeIrte (index : BitVec 16) (qiStatus : Word) : Dmar :=
  let s := s.writeIrte (s.unit.dmarFreeIrte index) index
  let s := s.iommuFlushCache (.flushIrte index)
  s.dmarInvalidIec index 0#8 false qiStatus

/-- The unit after `dmar_prepare`, with all tables zero. -/
def prepared : Dmar where
  rootTable := fun _ => dmarEntry 0#64 0#64
  ctxMem := fun _ => dmarEntry 0#64 0#64
  unit := ⟨false, fun _ => DmarIrEntry.zero⟩
  qiTail := 0#16
  tails := [0#16]
  queue := ⟨fun _ => dmarEntry 0#64 0#64, 0, []⟩

end Dmar

/-! ## What hardware reads

Hardware has its own view of the tables and of the queue: fields of words, and addresses that are
followed. The functions of the source are compared with that. -/

/-- An invalidation request. -/
inductive Invalidation where
  | context (granularity : BitVec 2) (did sid : BitVec 16) (fm : BitVec 2)
  | iotlb (granularity : BitVec 2) (did : BitVec 16)
  | iec (granularity : BitVec 1) (im : BitVec 5) (index : BitVec 16)
  | wait (statusAddr : Word) (statusData : U32)
  | reserved
  deriving DecidableEq

/-- The request that a descriptor makes. -/
def decodeInvalidation (desc : DmarEntry) : Invalidation :=
  let lo := desc .lo
  let type := lo.extractLsb' 0 4
  if type = 1#4 then
    .context (lo.extractLsb' 4 2) (lo.extractLsb' 16 16) (lo.extractLsb' 32 16)
      (lo.extractLsb' 48 2)
  else if type = 2#4 then .iotlb (lo.extractLsb' 4 2) (lo.extractLsb' 16 16)
  else if type = 4#4 then
    .iec (lo.extractLsb' 4 1) (lo.extractLsb' 27 5) (lo.extractLsb' 32 16)
  else if type = 5#4 then .wait (desc .hi) (lo.extractLsb' 32 32)
  else .reserved

/-- The address of the table in an entry. -/
def tablePointer (lo : Word) : Word := lo &&& ~~~0xFFF#64

/-- The fields of a context entry. -/
structure ContextFields where
  present : Bool
  translationType : Word
  slptptr : Word
  addressWidth : ℕ
  did : BitVec 16

/-- The fields of a context entry, as hardware reads them. -/
def decodeContext (e : DmarEntry) : ContextFields where
  present := (e .lo).getLsbD 0
  translationType := e .lo &&& 0xC#64
  slptptr := tablePointer (e .lo)
  addressWidth := 30 + 9 * (e .hi &&& 0x7#64).toNat
  did := (e .hi).extractLsb' 8 16

/-- **The context entry of a device**, found by way of the root table. -/
def Dmar.contextEntry (s : Dmar) (bus devfun : BitVec 8) : DmarEntry :=
  let root := s.rootTable bus .lo
  if root.getLsbD 0 then s.ctxMem (tablePointer root + 16#64 * devfun.setWidth 64)
  else dmarEntry 0#64 0#64

/-! ## Descriptors -/

theorem decode_wait (qiStatus : Word) :
    decodeInvalidation (dmarEntry dmarInvWaitDescLower qiStatus) = .wait qiStatus 1#32 := by
  have htype : dmarInvWaitDescLower.extractLsb' 0 4 = 5#4 := by decide
  have hdata : dmarInvWaitDescLower.extractLsb' 32 32 = 1#32 := by decide
  simp [decodeInvalidation, dmarEntry, htype, hdata]

theorem mask16 (v : BitVec 16) : v.setWidth 64 &&& 0xffff#64 = v.setWidth 64 :=
  setWidth_and_allOnes (w := 64) v

/-- A device-selective request names the domain and the source. -/
theorem decode_contextCache (did sid : BitVec 16) :
    decodeInvalidation (dmarEntry (0x01#64 ||| ((3#64 <<< 4) ||| dmaCcmdDid did ||| dmaCcmdSid sid |||
      dmaCcmdFm 0#8)) 0#64) = .context 3#2 did sid 0#2 := by
  have hfm : dmaCcmdFm 0#8 = 0#64 := by decide
  have hbelow : ∀ lo n, lo + n ≤ 16 → (did.setWidth 64 <<< 16).extractLsb' lo n = 0#n ∧
      (sid.setWidth 64 <<< 32).extractLsb' lo n = 0#n := fun lo n h =>
    ⟨extractLsb'_shiftLeft_of_disjoint (w := 64) (Or.inl h) did,
      extractLsb'_shiftLeft_of_disjoint (w := 64) (Or.inl (by omega)) sid⟩
  have hdid : (did.setWidth 64 <<< 16).extractLsb' 16 16 = did ∧
      (sid.setWidth 64 <<< 32).extractLsb' 16 16 = 0#16 :=
    ⟨extractLsb'_shiftLeft_self (w := 64) (by decide) did,
      extractLsb'_shiftLeft_of_disjoint (w := 64) (Or.inl (by decide)) sid⟩
  have hsid : (did.setWidth 64 <<< 16).extractLsb' 32 16 = 0#16 ∧
      (sid.setWidth 64 <<< 32).extractLsb' 32 16 = sid :=
    ⟨extractLsb'_shiftLeft_of_disjoint (w := 64) (Or.inr (by decide)) did,
      extractLsb'_shiftLeft_self (w := 64) (by decide) sid⟩
  have habove : (did.setWidth 64 <<< 16).extractLsb' 48 2 = 0#2 ∧
      (sid.setWidth 64 <<< 32).extractLsb' 48 2 = 0#2 :=
    ⟨extractLsb'_shiftLeft_of_disjoint (w := 64) (Or.inr (by decide)) did,
      extractLsb'_shiftLeft_of_disjoint (w := 64) (Or.inr (by decide)) sid⟩
  have h4 := hbelow 0 4 (by decide)
  have h2 := hbelow 4 2 (by decide)
  simp only [decodeInvalidation, dmarEntry, hfm, dmaCcmdDid, dmaCcmdSid, mask16,
    BitVec.extractLsb'_or, h4.1, h4.2, h2.1, h2.2, hdid.1, hdid.2, hsid.1, hsid.2, habove.1, habove.2,
    BitVec.or_zero]
  simp

/-- A domain-selective request for the IOTLB names the domain. -/
theorem decode_iotlb (did : BitVec 16) :
    decodeInvalidation (dmarEntry ((1#64 <<< 7) ||| (1#64 <<< 6) ||| 0x02#64 |||
      ((2#64 <<< 4) ||| dmaIotlbDid did)) 0#64) = .iotlb 2#2 did := by
  have h4 : (did.setWidth 64 <<< 16).extractLsb' 0 4 = 0#4 :=
    extractLsb'_shiftLeft_of_disjoint (w := 64) (Or.inl (by decide)) did
  have h2 : (did.setWidth 64 <<< 16).extractLsb' 4 2 = 0#2 :=
    extractLsb'_shiftLeft_of_disjoint (w := 64) (Or.inl (by decide)) did
  have hdid : (did.setWidth 64 <<< 16).extractLsb' 16 16 = did :=
    extractLsb'_shiftLeft_self (w := 64) (by decide) did
  simp only [decodeInvalidation, dmarEntry, dmaIotlbDid, mask16, BitVec.extractLsb'_or, h4, h2, hdid,
    BitVec.or_zero]
  simp

/-- An index-selective request names the entry. -/
theorem decode_iec (index : BitVec 16) :
    decodeInvalidation (dmarEntry (0x04#64 ||| ((1#64 <<< 4) ||| dmaIecIndex index 0#8)) 0#64) =
      .iec 1#1 0#5 index := by
  have hmask : ((0#8).setWidth 64 &&& 0x1F#64) <<< 27 = 0#64 := by decide
  have hbelow : ∀ lo n, lo + n ≤ 32 → (index.setWidth 64 <<< 32).extractLsb' lo n = 0#n :=
    fun lo n h => extractLsb'_shiftLeft_of_disjoint (w := 64) (Or.inl h) index
  have hindex : (index.setWidth 64 <<< 32).extractLsb' 32 16 = index :=
    extractLsb'_shiftLeft_self (w := 64) (by decide) index
  simp only [decodeInvalidation, dmarEntry, dmaIecIndex, mask16, hmask, BitVec.extractLsb'_or, hindex,
    hbelow 0 4 (by decide), hbelow 4 1 (by decide), hbelow 27 5 (by decide), BitVec.or_zero]
  simp

/-! ## Bit slices -/

/-- A slice that was set is there. -/
theorem dmarSetBitslice_and_self (var mask val : Word) (pos : ℕ) :
    dmarSetBitslice var mask pos val &&& mask = val <<< pos &&& mask := by
  have hclear : (var &&& ~~~mask) &&& mask = 0#64 := by
    have hnone : ~~~mask &&& mask = 0#64 := by simp
    rw [BitVec.and_assoc, hnone, BitVec.and_zero]
  rw [dmarSetBitslice, or_and_of_disjoint_left hclear, BitVec.and_assoc, BitVec.and_self]

/-- The other slices stay. -/
theorem dmarSetBitslice_and_of_disjoint {mask mask' : Word} (h : mask &&& mask' = 0#64)
    (var val : Word) (pos : ℕ) : dmarSetBitslice var mask pos val &&& mask' = var &&& mask' := by
  have hnone : (val <<< pos &&& mask) &&& mask' = 0#64 := by
    rw [BitVec.and_assoc, h, BitVec.and_zero]
  rw [dmarSetBitslice, or_and_of_disjoint_right hnone, and_not_and_of_disjoint h]

theorem getLsbD_zero_iff (x : Word) : x.getLsbD 0 = true ↔ x &&& 1#64 ≠ 0#64 :=
  (and_one_shiftLeft_ne_zero (by decide) x).symm

/-- The pointer in an entry, as the code reads and shifts it. -/
theorem tablePointer_eq (lo : Word) :
    dmarGetBitslice lo rootEntryLowerCtpMask 12 <<< 12 = tablePointer lo := by
  have hmask : rootEntryLowerCtpMask = ~~~0xFFF#64 := by decide
  have hall : BitVec.allOnes 64 <<< 12 = ~~~0xFFF#64 := by decide
  rw [dmarGetBitslice, BitVec.shiftLeft_ushiftRight, hmask, hall, BitVec.and_assoc, BitVec.and_self,
    tablePointer]

/-- A page-aligned address, which has nothing in its low bits. -/
theorem tablePointer_of_aligned {addr : Word} (h : addr.toNat % 4096 = 0) :
    tablePointer addr = addr ∧ addr >>> 12 <<< 12 = addr := by
  have hshift : addr >>> 12 <<< 12 = addr := by
    apply BitVec.eq_of_toNat_eq
    have hlt := addr.isLt
    rw [BitVec.toNat_shiftLeft, BitVec.toNat_ushiftRight, Nat.shiftRight_eq_div_pow,
      Nat.shiftLeft_eq]
    omega
  have hall : BitVec.allOnes 64 <<< 12 = ~~~0xFFF#64 := by decide
  rw [BitVec.shiftLeft_ushiftRight, hall] at hshift
  refine ⟨hshift, ?_⟩
  rw [BitVec.shiftLeft_ushiftRight, hall]
  exact hshift

/-! ## Addresses -/

namespace ContextTables

variable (ctx : ContextTables)

theorem toNat_getCtxTable (bus : BitVec 8) :
    (ctx.getCtxTable bus).toNat = ctx.base.toNat + 4096 * bus.toNat := by
  have hbus := bus.isLt
  have hfits := ctx.fits
  rw [getCtxTable, BitVec.toNat_add, BitVec.toNat_mul, BitVec.toNat_setWidth,
    Nat.mod_eq_of_lt (show bus.toNat < 2 ^ 64 by omega), show (4096#64).toNat = 4096 from rfl]
  omega

theorem getCtxTable_aligned (bus : BitVec 8) : (ctx.getCtxTable bus).toNat % 4096 = 0 := by
  have h := ctx.aligned
  rw [toNat_getCtxTable]
  omega

/-- The address of the context entry of a device. -/
def entryAddr (bus devfun : BitVec 8) : Word := ctx.getCtxTable bus + 16#64 * devfun.setWidth 64

theorem toNat_entryAddr (bus devfun : BitVec 8) : (ctx.entryAddr bus devfun).toNat =
    ctx.base.toNat + 4096 * bus.toNat + 16 * devfun.toNat := by
  have hbus := bus.isLt
  have hdevfun := devfun.isLt
  have hfits := ctx.fits
  rw [entryAddr, BitVec.toNat_add, BitVec.toNat_mul, BitVec.toNat_setWidth, toNat_getCtxTable,
    Nat.mod_eq_of_lt (show devfun.toNat < 2 ^ 64 by omega), show (16#64).toNat = 16 from rfl]
  omega

/-- Every device has an entry of its own. -/
theorem entryAddr_inj {bus bus' devfun devfun' : BitVec 8}
    (h : ctx.entryAddr bus devfun = ctx.entryAddr bus' devfun') : bus = bus' ∧ devfun = devfun' := by
  have hnat := congrArg BitVec.toNat h
  have hdevfun := devfun.isLt
  have hdevfun' := devfun'.isLt
  rw [toNat_entryAddr, toNat_entryAddr] at hnat
  exact ⟨BitVec.eq_of_toNat_eq (by omega), BitVec.eq_of_toNat_eq (by omega)⟩

end ContextTables

/-! ## Entries

What is written is put together from slices, and what hardware reads are slices again. A slice that
was set is read back, as no other overlaps it. -/

/-- The low word of the root entry of a bus. -/
def rootEntryLo (ctx : ContextTables) (bus : BitVec 8) : Word :=
  dmarSetBitslice (dmarSetBitslice 0#64 rootEntryLowerCtpMask 12 (ctx.getCtxTable bus >>> 12))
    rootEntryLowerPresentMask 0 1#64

/-- The context entry of a device of a domain. -/
def IommuDomain.contextEntry (domain : IommuDomain) : DmarEntry :=
  dmarEntry
    (dmarSetBitslice (dmarSetBitslice (dmarSetBitslice 0#64 ctxEntryLowerTtMask 2 0#64)
      ctxEntryLowerSlptptrMask 12 (domain.transTablePtr >>> 12)) ctxEntryLowerPMask 0 1#64)
    (dmarSetBitslice (dmarSetBitslice 0#64 ctxEntryUpperAwMask 0
      ((widthToAw domain.addrWidth).setWidth 64)) ctxEntryUpperDidMask 8
      ((vmidToDomainid domain.vmId).setWidth 64))

theorem rootEntryLo_present (ctx : ContextTables) (bus : BitVec 8) :
    (rootEntryLo ctx bus).getLsbD 0 = true := by
  rw [getLsbD_zero_iff, rootEntryLo, show (1#64 : Word) = rootEntryLowerPresentMask from rfl,
    dmarSetBitslice_and_self]
  decide

theorem tablePointer_rootEntryLo (ctx : ContextTables) (bus : BitVec 8) :
    tablePointer (rootEntryLo ctx bus) = ctx.getCtxTable bus := by
  obtain ⟨hpointer, hshift⟩ := tablePointer_of_aligned (ctx.getCtxTable_aligned bus)
  have hmask : ~~~0xFFF#64 = rootEntryLowerCtpMask := by decide
  rw [tablePointer] at hpointer
  rw [tablePointer, rootEntryLo, hmask, dmarSetBitslice_and_of_disjoint (by decide),
    dmarSetBitslice_and_self, hshift, ← hmask, hpointer]

/-- A domain that a device can be added to: it translates 48 bits, by a table that is
aligned to a page. -/
structure IommuDomain.Valid (domain : IommuDomain) : Prop where
  width : domain.addrWidth = 48#32
  aligned : domain.transTablePtr.toNat % 4096 = 0

/-- The entry of a device that the domain has been given. -/
structure HoldsDomain (domain : IommuDomain) (e : ContextFields) : Prop where
  present : e.present = true
  untranslated : e.translationType = 0#64
  table : e.slptptr = domain.transTablePtr
  width : e.addressWidth = 48
  did : e.did = vmidToDomainid domain.vmId

/-- **The entry that `add_iommu_device` writes** holds the domain. -/
theorem IommuDomain.contextEntry_holds {domain : IommuDomain} (h : domain.Valid) :
    HoldsDomain domain (decodeContext domain.contextEntry) := by
  obtain ⟨hpointer, hshift⟩ := tablePointer_of_aligned h.aligned
  have htable : ~~~0xFFF#64 = ctxEntryLowerSlptptrMask := by decide
  rw [tablePointer] at hpointer
  refine ⟨?_, ?_, ?_, ?_, ?_⟩
  · rw [decodeContext, contextEntry]
    dsimp only [dmarEntry]
    rw [getLsbD_zero_iff, show (1#64 : Word) = ctxEntryLowerPMask from rfl, dmarSetBitslice_and_self]
    decide
  · rw [decodeContext, contextEntry]
    dsimp only [dmarEntry]
    rw [dmarSetBitslice_and_of_disjoint (by decide), dmarSetBitslice_and_of_disjoint (by decide)]
    decide
  · rw [decodeContext, contextEntry]
    dsimp only [dmarEntry]
    rw [tablePointer, htable, dmarSetBitslice_and_of_disjoint (by decide), dmarSetBitslice_and_self,
      hshift, ← htable, hpointer]
  · rw [decodeContext, contextEntry, h.width]
    dsimp only [dmarEntry]
    rw [show (0x7#64 : Word) = ctxEntryUpperAwMask from rfl,
      dmarSetBitslice_and_of_disjoint (by decide), dmarSetBitslice_and_self]
    decide
  · rw [decodeContext, contextEntry]
    dsimp only [dmarEntry]
    have hfield : ctxEntryUpperDidMask = fieldMask 64 8 24 := by decide
    generalize vmidToDomainid domain.vmId = did
    have hself := dmarSetBitslice_and_self (dmarSetBitslice 0#64 ctxEntryUpperAwMask 0
      ((widthToAw domain.addrWidth).setWidth 64)) ctxEntryUpperDidMask (did.setWidth 64) 8
    generalize dmarSetBitslice _ ctxEntryUpperDidMask 8 _ = hi at hself ⊢
    apply BitVec.eq_of_getLsbD_eq
    intro i hi'
    have hbit := congrArg (fun x : Word => x.getLsbD (8 + i)) hself
    rw [hfield, BitVec.getLsbD_and, BitVec.getLsbD_and, getLsbD_fieldMask (by decide),
      BitVec.getLsbD_shiftLeft, BitVec.getLsbD_setWidth, Nat.add_sub_cancel_left] at hbit
    rw [BitVec.getLsbD_extractLsb']
    simpa [hi', show 8 + i < 64 by omega, show 8 + i < 24 by omega, show i < 64 by omega] using hbit

/-! ## The queue

The log of the queue grows by what a request submits. Between two requests hardware stands at the
tail, because the hypervisor waits for each of them. -/

namespace Dmar

variable {s s' : Dmar}

/-- The words of a slot, in the order in which they are written. -/
def slotWords : List EntryWord := [.hi, .lo]

theorem mem_slotWords (w : EntryWord) : w ∈ slotWords := by
  cases w <;> decide

/-- A value of `qi_tail`: the offset of a slot in the queue. -/
def IsTail (t : BitVec 16) : Prop := 16 ∣ t.toNat ∧ t.toNat < dmarInvalidationQueueSize

/-- **The queue is in order**: the tail is at a slot, where hardware stands as well, and it
only ever passed slots that were fully written. -/
structure QueueOk (s : Dmar) : Prop where
  tails : ∀ t ∈ s.tails, IsTail t
  tail : s.qiTail ∈ s.tails
  head : s.queue.head = s.qiTail.toNat / dmarQiInvEntrySize
  settled : s.queue.Settled qiSlots

theorem QueueOk.isTail (h : s.QueueOk) : IsTail s.qiTail := h.tails _ h.tail

/-- The next tail is the offset of the next slot. -/
theorem isTail_next {t : BitVec 16} (h : IsTail t) : IsTail (nextQiTail t) ∧
    (nextQiTail t).toNat / dmarQiInvEntrySize = (t.toNat / dmarQiInvEntrySize + 1) % qiSlots := by
  obtain ⟨⟨k, hk⟩, hlt⟩ := h
  rw [dmarInvalidationQueueSize] at hlt
  have hnat : (nextQiTail t).toNat = (t.toNat + 16) % 4096 := by
    rw [nextQiTail, BitVec.toNat_ofNat]
    exact Nat.mod_eq_of_lt ((Nat.mod_lt _ (by decide)).trans (by decide))
  refine ⟨⟨?_, ?_⟩, ?_⟩
  · rw [hnat]
    omega
  · rw [hnat]
    exact Nat.mod_lt _ (by decide)
  · rw [hnat, dmarQiInvEntrySize, qiSlots]
    omega

/-- **One request**: a request to the queue for the descriptor and a wait descriptor. The
tables stay as they are. -/
theorem dmarIssueQiRequest_spec (h : s.QueueOk) (desc : DmarEntry) (qiStatus : Word) :
    s.dmarIssueQiRequest desc qiStatus =
        { s with
          qiTail := nextQiTail (nextQiTail s.qiTail)
          tails := s.tails ++ [nextQiTail s.qiTail] ++ [nextQiTail (nextQiTail s.qiTail)]
          queue := s.queue.request qiSlots slotWords
            [desc, dmarEntry dmarInvWaitDescLower qiStatus] } ∧
      (s.dmarIssueQiRequest desc qiStatus).QueueOk := by
  obtain ⟨ht, hslot⟩ := isTail_next h.isTail
  obtain ⟨ht', hslot'⟩ := isTail_next ht
  have hlt : s.queue.head < qiSlots := h.settled.1
  have h0 : s.qiTail.toNat / dmarQiInvEntrySize = (s.queue.head + 0) % qiSlots := by
    rw [← h.head, Nat.add_zero, Nat.mod_eq_of_lt hlt]
  rw [← h.head] at hslot
  rw [hslot, Nat.mod_add_mod] at hslot'
  have hqueue : (s.dmarIssueQiRequest desc qiStatus).queue =
      ((s.queue.writeSlot slotWords (s.qiTail.toNat / dmarQiInvEntrySize) desc).writeSlot slotWords
        ((nextQiTail s.qiTail).toNat / dmarQiInvEntrySize)
        (dmarEntry dmarInvWaitDescLower qiStatus)).ring qiSlots
        ((nextQiTail (nextQiTail s.qiTail)).toNat / dmarQiInvEntrySize) := rfl
  rw [h0, hslot, hslot'] at hqueue
  have hrequest : (s.dmarIssueQiRequest desc qiStatus).queue = s.queue.request qiSlots slotWords
      [desc, dmarEntry dmarInvWaitDescLower qiStatus] := hqueue
  refine ⟨?_, ?_, ?_, ?_, ?_⟩
  · rw [← hrequest]
    rfl
  · intro t hmem
    rcases List.mem_append.mp hmem with hmem | hmem
    · rcases List.mem_append.mp hmem with hmem | hmem
      · exact h.tails t hmem
      · obtain rfl := List.mem_singleton.mp hmem
        exact ht
    · obtain rfl := List.mem_singleton.mp hmem
      exact ht'
  · exact List.mem_append_right _ (List.mem_singleton.mpr rfl)
  · rw [hrequest]
    exact hslot'.symm
  · rw [hrequest]
    exact h.settled.request mem_slotWords _ (show 2 < qiSlots by decide)

end Dmar

end Acrn
