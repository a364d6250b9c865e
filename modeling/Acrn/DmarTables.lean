import Acrn.Vtd

/-!
# Tables and invalidations stay in step

Devices are added to domains and removed, and entries of the interrupt remapping table are
assigned and freed, in any order. The table entries say at any time what was done last, and
whatever hardware may have kept of an entry that a call takes away is invalidated before the
call returns.
-/

namespace Acrn

open DoorbellQueue Transition

/-! ## Requests of a call

A call writes to the tables first and then makes its requests. `Submits` says so of the log, and
each function adds one thing at its end. -/

/-- From `s` to `s'` the writes `tables` are made, and after the last of them hardware is
handed the requests `invs`. -/
def Dmar.Submits (s s' : Dmar) (tables : List TableEvent) (invs : List Invalidation) : Prop :=
  ∃ requests, s'.queue.log = s.queue.log ++ tables.map .note ++ requests ∧
    notesOf requests = [] ∧ (fetchedOf requests).map decodeInvalidation = invs

/-- The tables of a unit are the same. -/
structure Dmar.SameTables (s s' : Dmar) : Prop where
  root : s'.rootTable = s.rootTable
  context : s'.ctxMem = s.ctxMem
  irte : s'.unit = s.unit

namespace Dmar

variable {s s₁ s' : Dmar} {tables : List TableEvent} {invs : List Invalidation}

theorem submits_of_notes (h : s'.queue.log = s.queue.log ++ tables.map .note) :
    s.Submits s' tables [] :=
  ⟨[], by rw [h, List.append_nil], rfl, rfl⟩

/-- Only notes are notes. -/
theorem notesOf_eq_nil {log : List (Event EntryWord Word TableEvent)}
    (h : ∀ e ∈ log, ∀ o, e ≠ .note o) : notesOf log = [] := by
  rw [notesOf, List.filterMap_eq_nil_iff]
  intro e he
  cases e with
  | note o => exact absurd rfl (h _ he o)
  | write => rfl
  | doorbell => rfl
  | fetched => rfl

/-- **One more request** behind those that were made. -/
theorem Submits.request (h : s.Submits s₁ tables invs) (hq : s₁.QueueOk) (desc : DmarEntry)
    (qiStatus : Word) : s.Submits (s₁.dmarIssueQiRequest desc qiStatus) tables
      (invs ++ [decodeInvalidation desc, .wait qiStatus 1#32]) := by
  obtain ⟨requests, hlog, hnotes, hfetched⟩ := h
  obtain ⟨hissue, -⟩ := dmarIssueQiRequest_spec hq desc qiStatus
  obtain ⟨writes, hrequest, hwrites, -⟩ := Queue.request_log mem_slotWords hq.settled.1
    [desc, dmarEntry dmarInvWaitDescLower qiStatus] (show 2 < qiSlots by decide)
  have hnote : ∀ e ∈ writes, ∀ o, e ≠ .note o := by
    intro e he o
    obtain ⟨slot, w, v, rfl⟩ := hwrites e he
    nofun
  have hfetch : fetchedOf writes = [] := by
    rw [fetchedOf, List.filterMap_eq_nil_iff]
    intro e he
    obtain ⟨slot, w, v, rfl⟩ := hwrites e he
    rfl
  rw [hlog] at hrequest
  refine ⟨requests ++ (writes ++ .doorbell ((s₁.queue.head + 2) % qiSlots) ::
    [desc, dmarEntry dmarInvWaitDescLower qiStatus].map .fetched), ?_, ?_, ?_⟩
  · rw [hissue]
    dsimp only
    rw [hrequest]
    simp only [List.append_assoc]
    rfl
  · rw [notesOf_append, hnotes, notesOf_append, notesOf_eq_nil hnote]
    rfl
  · rw [fetchedOf_append, List.map_append, hfetched, fetchedOf_append, hfetch, List.nil_append,
      ← decode_wait qiStatus]
    rfl

theorem sameTables_issue (hq : s.QueueOk) (desc : DmarEntry) (qiStatus : Word) :
    s.SameTables (s.dmarIssueQiRequest desc qiStatus) := by
  obtain ⟨hissue, -⟩ := dmarIssueQiRequest_spec hq desc qiStatus
  rw [hissue]
  exact ⟨rfl, rfl, rfl⟩

/-- The writes and the requests that were made so far, with the queue in order. -/
structure Progress (s s₁ : Dmar) (tables : List TableEvent) (invs : List Invalidation) : Prop where
  queueOk : s₁.QueueOk
  submits : s.Submits s₁ tables invs

theorem Progress.issue (h : s.Progress s₁ tables invs) (desc : DmarEntry) (qiStatus : Word) :
    s.Progress (s₁.dmarIssueQiRequest desc qiStatus) tables
      (invs ++ [decodeInvalidation desc, .wait qiStatus 1#32]) ∧
    s₁.SameTables (s₁.dmarIssueQiRequest desc qiStatus) :=
  ⟨⟨(dmarIssueQiRequest_spec h.queueOk desc qiStatus).2,
    h.submits.request h.queueOk desc qiStatus⟩, sameTables_issue h.queueOk desc qiStatus⟩

/-- `dmar_invalid_context_cache` for a device. -/
theorem Progress.invalidContextCache (h : s.Progress s₁ tables invs) (did sid : BitVec 16)
    (qiStatus : Word) :
    s.Progress (s₁.dmarInvalidContextCache did sid 0#8 .device qiStatus) tables
      (invs ++ [.context 3#2 did sid 0#2, .wait qiStatus 1#32]) ∧
    s₁.SameTables (s₁.dmarInvalidContextCache did sid 0#8 .device qiStatus) := by
  have hdecode := decode_contextCache did sid
  have hne : 0x01#64 ||| ((3#64 <<< 4) ||| dmaCcmdDid did ||| dmaCcmdSid sid ||| dmaCcmdFm 0#8) ≠
      0#64 := by
    intro h0
    rw [h0] at hdecode
    cases hdecode
  rw [dmarInvalidContextCache]
  simp only [if_pos hne]
  rw [← hdecode]
  exact h.issue _ qiStatus

/-- `dmar_invalid_iotlb` for a domain. -/
theorem Progress.invalidIotlb (h : s.Progress s₁ tables invs) (did : BitVec 16) (qiStatus : Word) :
    s.Progress (s₁.dmarInvalidIotlb did .domain qiStatus) tables
      (invs ++ [.iotlb 2#2 did, .wait qiStatus 1#32]) ∧
    s₁.SameTables (s₁.dmarInvalidIotlb did .domain qiStatus) := by
  have hdecode := decode_iotlb did
  have hne : (1#64 <<< 7) ||| (1#64 <<< 6) ||| 0x02#64 ||| ((2#64 <<< 4) ||| dmaIotlbDid did) ≠
      0#64 := by
    intro h0
    rw [h0] at hdecode
    cases hdecode
  rw [dmarInvalidIotlb]
  simp only [if_pos hne]
  rw [← hdecode]
  exact h.issue _ qiStatus

/-- `dmar_invalid_iec` for an index. -/
theorem Progress.invalidIec (h : s.Progress s₁ tables invs) (index : BitVec 16) (qiStatus : Word) :
    s.Progress (s₁.dmarInvalidIec index 0#8 false qiStatus) tables
      (invs ++ [.iec 1#1 0#5 index, .wait qiStatus 1#32]) ∧
    s₁.SameTables (s₁.dmarInvalidIec index 0#8 false qiStatus) := by
  rw [dmarInvalidIec, if_neg Bool.false_ne_true, ← decode_iec index]
  exact h.issue _ qiStatus

/-- A note in the log of the queue, with any change to the tables. -/
theorem QueueOk.note (h : s.QueueOk) {o : TableEvent} (hqueue : s'.queue = s.queue.note o)
    (htail : s'.qiTail = s.qiTail) (htails : s'.tails = s.tails) : s'.QueueOk := by
  refine ⟨?_, ?_, ?_, ?_⟩
  · rw [htails]
    exact h.tails
  · rw [htails, htail]
    exact h.tail
  · rw [hqueue, htail]
    exact h.head
  · rw [hqueue]
    exact h.settled.note o

theorem QueueOk.writeRoot (h : s.QueueOk) (bus : BitVec 8) (w : EntryWord) (v : Word) :
    (s.writeRoot bus w v).QueueOk := h.note (o := .root bus w v) rfl rfl rfl

theorem QueueOk.writeContext (h : s.QueueOk) (addr : Word) (w : EntryWord) (v : Word) :
    (s.writeContext addr w v).QueueOk := h.note (o := .context addr w v) rfl rfl rfl

theorem QueueOk.writeIrte (h : s.QueueOk) (unit : DmarUnit) (index : BitVec 16) :
    (s.writeIrte unit index).QueueOk := h.note (o := .irte index (unit.irTable index)) rfl rfl rfl

theorem QueueOk.iommuFlushCache (h : s.QueueOk) (o : TableEvent) :
    (s.iommuFlushCache o).QueueOk := h.note (o := o) rfl rfl rfl

/-! ## Writing an entry -/

section

variable {ι : Type} [DecidableEq ι] (m : ι → DmarEntry) (i : ι) (hi lo : Word)

/-- Both words of an entry of a table, in either order. -/
theorem update_hi_lo : Function.update (Function.update m i (Function.update (m i) .hi hi)) i
    (Function.update (Function.update m i (Function.update (m i) .hi hi) i) .lo lo) =
      Function.update m i (dmarEntry lo hi) := by
  rw [Function.update_idem, Function.update_self]
  congr 1
  funext w
  cases w <;> rfl

theorem update_lo_hi : Function.update (Function.update m i (Function.update (m i) .lo lo)) i
    (Function.update (Function.update m i (Function.update (m i) .lo lo) i) .hi hi) =
      Function.update m i (dmarEntry lo hi) := by
  rw [Function.update_idem, Function.update_self]
  congr 1
  funext w
  cases w <;> rfl

end

/-- A root entry is not there, or leads to the context table of its bus. -/
def RootOk (ctx : ContextTables) (s : Dmar) (bus : BitVec 8) : Prop :=
  s.rootTable bus .lo = 0#64 ∨ s.rootTable bus .lo = rootEntryLo ctx bus

end Dmar

/-! ## Calls

For each of the four functions there is one equation: what the tables are afterwards, and which
requests were made. -/

/-- A call of one of the four functions. -/
inductive DmarCall where
  | add (domain : IommuDomain) (bus devfun : BitVec 8)
  | remove (domain : IommuDomain) (bus devfun : BitVec 8) (qiStatus qiStatus' : Word)
  | assign (msi : BitVec 16) (irte : DmarIrEntry) (index : BitVec 16) (qiStatus : Word)
  | free (index : BitVec 16) (qiStatus : Word)

namespace DmarCall

/-- The device whose context entry the call is about. -/
def device : DmarCall → Option (BitVec 8 × BitVec 8)
  | add _ bus devfun => some (bus, devfun)
  | remove _ bus devfun _ _ => some (bus, devfun)
  | _ => none

/-- The interrupt remapping entry that the call is about. -/
def index : DmarCall → Option (BitVec 16)
  | assign _ _ index _ => some index
  | free index _ => some index
  | _ => none

/-- What has to be invalidated: the context entry of exactly the device, in the cache of its
domain, or exactly the entry at the index. -/
def requests : DmarCall → List Invalidation
  | add _ _ _ => []
  | remove domain bus devfun qiStatus qiStatus' =>
    [.context 3#2 (vmidToDomainid domain.vmId) (bus ++ devfun) 0#2, .wait qiStatus 1#32,
      .iotlb 2#2 (vmidToDomainid domain.vmId), .wait qiStatus' 1#32]
  | assign _ _ index qiStatus => [.iec 1#1 0#5 index, .wait qiStatus 1#32]
  | free index qiStatus => [.iec 1#1 0#5 index, .wait qiStatus 1#32]

end DmarCall

namespace Dmar

variable (ctx : ContextTables) (s : Dmar)

/-- One call. -/
def call : DmarCall → Dmar
  | .add domain bus devfun => s.addIommuDevice ctx domain bus devfun
  | .remove domain bus devfun qiStatus qiStatus' =>
    s.removeIommuDevice domain bus devfun qiStatus qiStatus'
  | .assign msi irte index qiStatus => s.assignIrte msi irte index qiStatus
  | .free index qiStatus => s.freeIrte index qiStatus

/-- The writes to the tables that a call makes. -/
def tableWrites : DmarCall → List TableEvent
  | .add domain bus devfun =>
    (if s.rootTable bus .lo = 0#64 then
      [.root bus .hi 0#64, .root bus .lo (rootEntryLo ctx bus), .flushRoot bus] else []) ++
    [.context (ctx.entryAddr bus devfun) .hi (domain.contextEntry .hi),
      .context (ctx.entryAddr bus devfun) .lo (domain.contextEntry .lo),
      .flushContext (ctx.entryAddr bus devfun)]
  | .remove _ bus devfun _ _ =>
    [.context (ctx.entryAddr bus devfun) .lo 0#64, .context (ctx.entryAddr bus devfun) .hi 0#64,
      .flushContext (ctx.entryAddr bus devfun)]
  | .assign msi irte index _ =>
    [.irte index ((s.unit.dmarAssignIrte msi irte index).irTable index), .flushIrte index]
  | .free index _ =>
    [.irte index ((s.unit.dmarFreeIrte index).irTable index), .flushIrte index]

variable {ctx s}

theorem rootEntryLo_ne_zero (bus : BitVec 8) : rootEntryLo ctx bus ≠ 0#64 := by
  intro h
  have hpresent := rootEntryLo_present ctx bus
  rw [h] at hpresent
  exact absurd hpresent (by decide)

/-- What `add_iommu_device` does to the tables. -/
theorem addIommuDevice_spec (domain : IommuDomain) {bus : BitVec 8} (devfun : BitVec 8) (hq : s.QueueOk)
    (hroot : s.RootOk ctx bus) :
    s.Progress (s.addIommuDevice ctx domain bus devfun)
        (s.tableWrites ctx (.add domain bus devfun)) [] ∧
      (s.addIommuDevice ctx domain bus devfun).ctxMem =
        Function.update s.ctxMem (ctx.entryAddr bus devfun) domain.contextEntry ∧
      (s.addIommuDevice ctx domain bus devfun).unit = s.unit ∧
      (s.addIommuDevice ctx domain bus devfun).rootTable bus .lo = rootEntryLo ctx bus ∧
      ∀ b, b ≠ bus → (s.addIommuDevice ctx domain bus devfun).rootTable b = s.rootTable b := by
  have hshift := (tablePointer_of_aligned (ctx.getCtxTable_aligned bus)).2
  rcases hroot with hzero | hset
  · -- the first device on the bus
    have hcond : dmarGetBitslice (s.rootTable bus .lo) rootEntryLowerPresentMask 0 = 0#64 := by
      rw [hzero]
      decide
    rw [addIommuDevice]
    simp only [hcond, if_true]
    rw [hshift]
    have hrootTable := update_hi_lo s.rootTable bus 0#64 (rootEntryLo ctx bus)
    refine ⟨⟨?_, ?_⟩, update_hi_lo _ _ _ _, rfl, ?_, fun b hb => ?_⟩
    · exact ((((hq.writeRoot _ _ _).writeRoot _ _ _).iommuFlushCache _).writeContext _ _ _
        |>.writeContext _ _ _).iommuFlushCache _
    · refine submits_of_notes ?_
      rw [tableWrites, if_pos hzero]
      simp only [iommuFlushCache, writeContext, writeRoot, Queue.note, List.append_assoc]
      rfl
    · have hself : Function.update s.rootTable bus (dmarEntry (rootEntryLo ctx bus) 0#64) bus =
          dmarEntry (rootEntryLo ctx bus) 0#64 := Function.update_self _ _ _
      exact congrFun ((congrFun hrootTable bus).trans hself) .lo
    · exact (congrFun hrootTable b).trans (Function.update_of_ne hb _ _)
  · have hpresent := (getLsbD_zero_iff _).mp (rootEntryLo_present ctx bus)
    have hcond : ¬ dmarGetBitslice (s.rootTable bus .lo) rootEntryLowerPresentMask 0 = 0#64 := by
      rw [hset, dmarGetBitslice, BitVec.ushiftRight_zero]
      exact hpresent
    have hpointer : dmarGetBitslice (s.rootTable bus .lo) rootEntryLowerCtpMask 12 <<< 12 =
        ctx.getCtxTable bus := by
      rw [tablePointer_eq, hset, tablePointer_rootEntryLo]
    rw [addIommuDevice]
    simp only [hcond, if_false]
    rw [hpointer]
    refine ⟨⟨?_, ?_⟩, update_hi_lo _ _ _ _, rfl, hset, fun b _ => rfl⟩
    · exact ((hq.writeContext _ _ _).writeContext _ _ _).iommuFlushCache _
    · refine submits_of_notes ?_
      have hne : s.rootTable bus .lo ≠ 0#64 := by
        rw [hset]
        exact rootEntryLo_ne_zero bus
      rw [tableWrites, if_neg hne]
      simp only [iommuFlushCache, writeContext, Queue.note, List.append_assoc]
      rfl

/-- What `remove_iommu_device` does to the tables, on a bus that has a context table. -/
theorem removeIommuDevice_spec (domain : IommuDomain) {bus : BitVec 8} (devfun : BitVec 8)
    (qiStatus qiStatus' : Word) (hq : s.QueueOk)
    (hset : s.rootTable bus .lo = rootEntryLo ctx bus) :
    s.Progress (s.removeIommuDevice domain bus devfun qiStatus qiStatus')
        (s.tableWrites ctx (.remove domain bus devfun qiStatus qiStatus'))
        (DmarCall.requests (.remove domain bus devfun qiStatus qiStatus')) ∧
      (s.removeIommuDevice domain bus devfun qiStatus qiStatus').ctxMem =
        Function.update s.ctxMem (ctx.entryAddr bus devfun) (dmarEntry 0#64 0#64) ∧
      (s.removeIommuDevice domain bus devfun qiStatus qiStatus').unit = s.unit ∧
      (s.removeIommuDevice domain bus devfun qiStatus qiStatus').rootTable = s.rootTable := by
  have hpointer : dmarGetBitslice (s.rootTable bus .lo) rootEntryLowerCtpMask 12 <<< 12 =
      ctx.getCtxTable bus := by
    rw [tablePointer_eq, hset, tablePointer_rootEntryLo]
  rw [removeIommuDevice]
  simp only [hpointer]
  -- the entry is cleared, and then there are two requests
  have hclear : s.Progress (((s.writeContext (ctx.entryAddr bus devfun) .lo 0#64).writeContext
      (ctx.entryAddr bus devfun) .hi 0#64).iommuFlushCache
        (.flushContext (ctx.entryAddr bus devfun)))
      (s.tableWrites ctx (.remove domain bus devfun qiStatus qiStatus')) [] := by
    refine ⟨((hq.writeContext _ _ _).writeContext _ _ _).iommuFlushCache _, submits_of_notes ?_⟩
    simp only [iommuFlushCache, writeContext, Queue.note, List.append_assoc]
    rfl
  obtain ⟨hcontext, hsame⟩ := hclear.invalidContextCache (vmidToDomainid domain.vmId)
    (bus ++ devfun) qiStatus
  obtain ⟨hiotlb, hsame'⟩ := hcontext.invalidIotlb (vmidToDomainid domain.vmId) qiStatus'
  refine ⟨hiotlb, ?_, hsame'.irte.trans hsame.irte, hsame'.root.trans hsame.root⟩
  exact (hsame'.context.trans hsame.context).trans (update_lo_hi _ _ _ _)

/-- What `dmar_assign_irte` does to the tables. -/
theorem assignIrte_spec (ctx : ContextTables) (msi : BitVec 16) (irte : DmarIrEntry)
    (index : BitVec 16) (qiStatus : Word) (hq : s.QueueOk) :
    s.Progress (s.assignIrte msi irte index qiStatus)
        (s.tableWrites ctx (.assign msi irte index qiStatus))
        (DmarCall.requests (.assign msi irte index qiStatus)) ∧
      (s.assignIrte msi irte index qiStatus).ctxMem = s.ctxMem ∧
      (s.assignIrte msi irte index qiStatus).unit = s.unit.dmarAssignIrte msi irte index ∧
      (s.assignIrte msi irte index qiStatus).rootTable = s.rootTable := by
  have hwrite : s.Progress ((s.writeIrte (s.unit.dmarAssignIrte msi irte index)
      index).iommuFlushCache (.flushIrte index))
      (s.tableWrites ctx (.assign msi irte index qiStatus)) [] := by
    refine ⟨(hq.writeIrte _ _).iommuFlushCache _, submits_of_notes ?_⟩
    simp only [iommuFlushCache, writeIrte, Queue.note, List.append_assoc]
    rfl
  obtain ⟨hiec, hsame⟩ := hwrite.invalidIec index qiStatus
  exact ⟨hiec, hsame.context, hsame.irte, hsame.root⟩

/-- What `dmar_free_irte` does to the tables. -/
theorem freeIrte_spec (ctx : ContextTables) (index : BitVec 16) (qiStatus : Word)
    (hq : s.QueueOk) :
    s.Progress (s.freeIrte index qiStatus) (s.tableWrites ctx (.free index qiStatus))
        (DmarCall.requests (.free index qiStatus)) ∧
      (s.freeIrte index qiStatus).ctxMem = s.ctxMem ∧
      (s.freeIrte index qiStatus).unit = s.unit.dmarFreeIrte index ∧
      (s.freeIrte index qiStatus).rootTable = s.rootTable := by
  have hwrite : s.Progress ((s.writeIrte (s.unit.dmarFreeIrte index) index).iommuFlushCache
      (.flushIrte index)) (s.tableWrites ctx (.free index qiStatus)) [] := by
    refine ⟨(hq.writeIrte _ _).iommuFlushCache _, submits_of_notes ?_⟩
    simp only [iommuFlushCache, writeIrte, Queue.note, List.append_assoc]
    rfl
  obtain ⟨hiec, hsame⟩ := hwrite.invalidIec index qiStatus
  exact ⟨hiec, hsame.context, hsame.irte, hsame.root⟩

end Dmar

/-! ## Runs -/

/-- The last operation on a device. -/
inductive LastOp where
  | never
  | added (domain : IommuDomain)
  | removed

/-- The unit, with the last operation on every device. -/
structure DmarState where
  dmar : Dmar
  last : BitVec 8 → BitVec 8 → LastOp

/-- The last operations after a call. -/
def DmarCall.record (last : BitVec 8 → BitVec 8 → LastOp) : DmarCall → BitVec 8 → BitVec 8 → LastOp
  | add domain bus devfun =>
    Function.update last bus (Function.update (last bus) devfun (.added domain))
  | remove _ bus devfun _ _ =>
    Function.update last bus (Function.update (last bus) devfun .removed)
  | _ => last

/-- A call with its record. -/
def DmarState.call (ctx : ContextTables) (s : DmarState) (c : DmarCall) : DmarState :=
  ⟨s.dmar.call ctx c, c.record s.last⟩

/-- The callers keep to this: the domain of an `add` is one that `create_iommu_domain` made,
a device is removed only after it was added, and an index is below
`CONFIG_MAX_IR_ENTRIES`. -/
def DmarOk (s : DmarState) : DmarCall → Prop
  | .add domain _ _ => domain.Valid
  | .remove _ bus devfun _ _ => s.last bus devfun ≠ .never
  | .assign _ _ index _ => index.toNat < configMaxIrEntries
  | .free index _ => index.toNat < configMaxIrEntries

/-- Calls in any order, from the enabled unit on. -/
def dmarSystem (ctx : ContextTables) : System DmarState DmarCall where
  init s := ∃ qiStatus, s = ⟨Dmar.prepared.dmarEnable qiStatus, fun _ _ => .never⟩
  step s c s' := s' = s.call ctx c

/-- What the context entry of a device is after its last operation. -/
def LastOp.Reflected : LastOp → DmarEntry → Prop
  | added domain, e => HoldsDomain domain (decodeContext e)
  | _, e => (decodeContext e).present = false

/-- **A call in step.** Only the entry that it is about changes, and its requests are handed to
hardware after the writes to the tables. -/
structure InStep (ctx : ContextTables) (s : DmarState) (c : DmarCall) : Prop where
  contexts : ∀ bus devfun, c.device ≠ some (bus, devfun) →
    (s.call ctx c).dmar.contextEntry bus devfun = s.dmar.contextEntry bus devfun
  irtes : ∀ index, c.index ≠ some index →
    (s.call ctx c).dmar.unit.irTable index = s.dmar.unit.irTable index
  submits : s.dmar.Submits (s.call ctx c).dmar (s.dmar.tableWrites ctx c) c.requests
  /-- the domain that is named is the one in the entry -/
  domain : ∀ domain domain' bus devfun qiStatus qiStatus',
    c = .remove domain bus devfun qiStatus qiStatus' → s.last bus devfun = .added domain' →
    domain'.vmId = domain.vmId →
      (decodeContext (s.dmar.contextEntry bus devfun)).did = vmidToDomainid domain.vmId

/-! ## The invariant

An entry is compared with the last operation on its device: it has the words that an `add` leaves,
or is clear. The callers remove only what they have added, so that the bus has a context table
then. -/

/-- The words that an operation leaves in the entry. -/
def LastOp.Writes : LastOp → DmarEntry → Prop
  | added domain, e => domain.Valid ∧ e = domain.contextEntry
  | _, e => e = dmarEntry 0#64 0#64

/-- The root entries lead to the context tables, and the entries there are what was written
last. -/
structure DmarState.Inv (ctx : ContextTables) (s : DmarState) : Prop where
  queueOk : s.dmar.QueueOk
  root : ∀ bus, s.dmar.RootOk ctx bus
  linked : ∀ bus devfun, s.last bus devfun ≠ .never →
    s.dmar.rootTable bus .lo = rootEntryLo ctx bus
  entries : ∀ bus devfun, (s.last bus devfun).Writes (s.dmar.ctxMem (ctx.entryAddr bus devfun))

namespace DmarState

variable {ctx : ContextTables} {s s' : DmarState}

/-- What hardware finds by way of the root table. -/
theorem Inv.contextEntry (h : s.Inv ctx) (bus devfun : BitVec 8) :
    s.dmar.contextEntry bus devfun = s.dmar.ctxMem (ctx.entryAddr bus devfun) := by
  rw [Dmar.contextEntry]
  rcases h.root bus with hzero | hset
  · -- no device on the bus was added yet
    have hnever : s.last bus devfun = .never := by
      by_contra hlast
      exact Dmar.rootEntryLo_ne_zero bus ((h.linked bus devfun hlast).symm.trans hzero)
    have hentry := h.entries bus devfun
    rw [hnever] at hentry
    rw [hzero]
    exact hentry.symm
  · simp only [hset, rootEntryLo_present, if_true, tablePointer_rootEntryLo]
    rfl

/-- **The entry says what was done last.** -/
theorem Inv.reflected (h : s.Inv ctx) (bus devfun : BitVec 8) :
    (s.last bus devfun).Reflected (s.dmar.contextEntry bus devfun) := by
  have hentry := h.entries bus devfun
  rw [h.contextEntry]
  cases hlast : s.last bus devfun with
  | never =>
    rw [hlast] at hentry
    rw [hentry]
    rfl
  | added domain =>
    rw [hlast] at hentry
    rw [hentry.2]
    exact IommuDomain.contextEntry_holds hentry.1
  | removed =>
    rw [hlast] at hentry
    rw [hentry]
    rfl

/-! ## Steps

A call is about one device or about one interrupt remapping entry. The two cases share nothing, and
each has one lemma for all calls of its kind. -/

/-- The record of another device stays. -/
theorem record_apply (last : BitVec 8 → BitVec 8 → LastOp) (bus devfun bus' devfun' : BitVec 8)
    (op : LastOp) :
    Function.update last bus (Function.update (last bus) devfun op) bus' devfun' =
      if bus' = bus ∧ devfun' = devfun then op else last bus' devfun' := by
  by_cases hbus : bus' = bus
  · subst hbus
    rw [Function.update_self]
    by_cases hdevfun : devfun' = devfun
    · rw [if_pos ⟨rfl, hdevfun⟩, hdevfun, Function.update_self]
    · rw [if_neg fun h => hdevfun h.2, Function.update_of_ne hdevfun]
  · rw [if_neg fun h => hbus h.1, Function.update_of_ne hbus]

/-- **A call about one device.** The invariant holds afterwards, and no other device has
another entry than before. -/
theorem Inv.of_device (h : s.Inv ctx) (s' : DmarState) {bus devfun : BitVec 8} (op : LastOp)
    {e : DmarEntry}
    (hq : s'.dmar.QueueOk)
    (hctx : s'.dmar.ctxMem = Function.update s.dmar.ctxMem (ctx.entryAddr bus devfun) e)
    (hroot : s'.dmar.rootTable bus .lo = rootEntryLo ctx bus)
    (hother : ∀ b, b ≠ bus → s'.dmar.rootTable b = s.dmar.rootTable b)
    (hlast : s'.last = Function.update s.last bus (Function.update (s.last bus) devfun op))
    (hop : op.Writes e) : s'.Inv ctx ∧ ∀ bus' devfun', (bus', devfun') ≠ (bus, devfun) →
      s'.dmar.contextEntry bus' devfun' = s.dmar.contextEntry bus' devfun' := by
  have hkept : ∀ bus' devfun', ¬ (bus' = bus ∧ devfun' = devfun) →
      s'.dmar.ctxMem (ctx.entryAddr bus' devfun') = s.dmar.ctxMem (ctx.entryAddr bus' devfun') ∧
        s'.last bus' devfun' = s.last bus' devfun' := by
    intro bus' devfun' hne
    rw [hctx, hlast, record_apply, if_neg hne, Function.update_of_ne]
    · exact ⟨rfl, rfl⟩
    · exact fun heq => hne (ctx.entryAddr_inj heq)
  have hinv : s'.Inv ctx := by
    refine ⟨hq, fun b => ?_, fun b d hb => ?_, fun b d => ?_⟩
    · by_cases hb : b = bus
      · rw [hb]
        exact Or.inr hroot
      · rw [Dmar.RootOk, hother b hb]
        exact h.root b
    · by_cases hbus : b = bus
      · rw [hbus]
        exact hroot
      · rw [(hkept b d fun heq => hbus heq.1).2] at hb
        rw [hother b hbus]
        exact h.linked b d hb
    · by_cases heq : b = bus ∧ d = devfun
      · obtain ⟨rfl, rfl⟩ := heq
        rw [hctx, hlast, record_apply, if_pos ⟨rfl, rfl⟩, Function.update_self]
        exact hop
      · rw [(hkept b d heq).1, (hkept b d heq).2]
        exact h.entries b d
  refine ⟨hinv, fun b d hne => ?_⟩
  rw [hinv.contextEntry, h.contextEntry]
  exact (hkept b d fun heq => hne (Prod.ext heq.1 heq.2)).1

/-- A call about the interrupt remapping table. -/
theorem Inv.of_irte (h : s.Inv ctx) (s' : DmarState) (hq : s'.dmar.QueueOk)
    (hctx : s'.dmar.ctxMem = s.dmar.ctxMem) (hroot : s'.dmar.rootTable = s.dmar.rootTable)
    (hlast : s'.last = s.last) : s'.Inv ctx ∧ ∀ bus devfun,
      s'.dmar.contextEntry bus devfun = s.dmar.contextEntry bus devfun := by
  refine ⟨⟨hq, fun b => ?_, ?_, ?_⟩, fun b d => ?_⟩
  · rw [Dmar.RootOk, hroot]
    exact h.root b
  · rw [hlast, hroot]
    exact h.linked
  · rw [hlast, hctx]
    exact h.entries
  · rw [Dmar.contextEntry, hroot, hctx]
    rfl

/-- **The step lemma.** -/
theorem Inv.call (h : s.Inv ctx) {c : DmarCall} (hok : DmarOk s c) :
    (s.call ctx c).Inv ctx ∧ InStep ctx s c := by
  cases c with
  | add domain bus devfun =>
    obtain ⟨hprogress, hctx, hunit, hroot, hother⟩ :=
      Dmar.addIommuDevice_spec domain devfun h.queueOk (h.root bus)
    obtain ⟨hinv, hframe⟩ := h.of_device (s.call ctx (.add domain bus devfun)) (.added domain)
      hprogress.queueOk hctx hroot hother rfl ⟨hok, rfl⟩
    refine ⟨hinv, ⟨fun b d hne => hframe b d fun heq => hne (congrArg some heq.symm), ?_,
      hprogress.submits, nofun⟩⟩
    intro index _
    exact congrFun (congrArg DmarUnit.irTable hunit) index
  | remove domain bus devfun qiStatus qiStatus' =>
    have hset := h.linked bus devfun hok
    obtain ⟨hprogress, hctx, hunit, hroot⟩ :=
      Dmar.removeIommuDevice_spec domain devfun qiStatus qiStatus' h.queueOk hset
    obtain ⟨hinv, hframe⟩ := h.of_device
      (s.call ctx (.remove domain bus devfun qiStatus qiStatus')) .removed
      hprogress.queueOk hctx ((congrFun (congrFun hroot bus) .lo).trans hset)
      (fun b _ => congrFun hroot b) rfl rfl
    refine ⟨hinv, ⟨fun b d hne => hframe b d fun heq => hne (congrArg some heq.symm), ?_,
      hprogress.submits, ?_⟩⟩
    · intro index _
      exact congrFun (congrArg DmarUnit.irTable hunit) index
    · intro domain₁ domain' b d a a' hc hlast hid
      cases hc
      have hreflected := h.reflected bus devfun
      rw [hlast] at hreflected
      rw [hreflected.did, hid]
  | assign msi irte index qiStatus =>
    obtain ⟨hprogress, hctx, hunit, hroot⟩ :=
      Dmar.assignIrte_spec ctx msi irte index qiStatus h.queueOk
    obtain ⟨hinv, hframe⟩ := h.of_irte (s.call ctx (.assign msi irte index qiStatus))
      hprogress.queueOk hctx hroot rfl
    refine ⟨hinv, ⟨fun b d _ => hframe b d, ?_, hprogress.submits, nofun⟩⟩
    intro i hne
    have hi : i ≠ index := fun heq => hne (congrArg some heq.symm)
    exact (congrFun (congrArg DmarUnit.irTable hunit) i).trans (Function.update_of_ne hi _ _)
  | free index qiStatus =>
    obtain ⟨hprogress, hctx, hunit, hroot⟩ :=
      Dmar.freeIrte_spec ctx index qiStatus h.queueOk
    obtain ⟨hinv, hframe⟩ := h.of_irte (s.call ctx (.free index qiStatus))
      hprogress.queueOk hctx hroot rfl
    refine ⟨hinv, ⟨fun b d _ => hframe b d, ?_, hprogress.submits, nofun⟩⟩
    intro i hne
    have hi : i ≠ index := fun heq => hne (congrArg some heq.symm)
    exact (congrFun (congrArg DmarUnit.irTable hunit) i).trans (Function.update_of_ne hi _ _)

/-- The queue of the prepared unit is empty. -/
theorem queueOk_prepared : Dmar.prepared.QueueOk := by
  refine ⟨fun t ht => ?_, List.mem_singleton.mpr rfl, rfl, by decide, rfl, ordered_nil⟩
  obtain rfl := List.mem_singleton.mp ht
  exact ⟨by decide, by decide⟩

/-- `dmar_enable` leaves the tables as they are. -/
theorem dmarEnable_prepared (qiStatus : Word) :
    (Dmar.prepared.dmarEnable qiStatus).QueueOk ∧
      Dmar.prepared.SameTables (Dmar.prepared.dmarEnable qiStatus) := by
  have hprepared : Dmar.prepared.Progress Dmar.prepared [] [] :=
    ⟨queueOk_prepared, Dmar.submits_of_notes rfl⟩
  obtain ⟨h₁, hsame₁⟩ := hprepared.issue (dmarEntry (0x01#64 ||| (1#64 <<< 4)) 0#64) qiStatus
  obtain ⟨h₂, hsame₂⟩ := h₁.issue (dmarEntry ((1#64 <<< 7) ||| (1#64 <<< 6) ||| 0x02#64 |||
    (1#64 <<< 4)) 0#64) qiStatus
  obtain ⟨h₃, hsame₃⟩ := h₂.issue (dmarEntry (0x04#64 ||| (0#64 <<< 4)) 0#64) qiStatus
  exact ⟨h₃.queueOk, hsame₃.root.trans (hsame₂.root.trans hsame₁.root),
    hsame₃.context.trans (hsame₂.context.trans hsame₁.context),
    hsame₃.irte.trans (hsame₂.irte.trans hsame₁.irte)⟩

/-- The tables are empty at first. -/
theorem inv_init (h : (dmarSystem ctx).init s) : s.Inv ctx := by
  obtain ⟨qiStatus, rfl⟩ := h
  obtain ⟨hqueue, hsame⟩ := dmarEnable_prepared qiStatus
  refine ⟨hqueue, fun b => Or.inl ?_, fun _ _ hne => absurd rfl hne, fun b d => ?_⟩
  · exact congrFun (congrFun hsame.root b) .lo
  · exact congrFun hsame.context _

theorem reach_inv (h : Reach (dmarSystem ctx) DmarOk s) : s.Inv ctx := by
  refine h.invariant (fun _ hinit => inv_init hinit) ?_
  rintro s c s' hok rfl hinv
  exact (hinv.call hok).1

/-- **DMA remapping tables and their invalidations stay in step.** -/
theorem dmar_tables_in_step (ctx : ContextTables) {s : DmarState}
    (h : Reach (dmarSystem ctx) DmarOk s) :
    (∀ bus devfun, (s.last bus devfun).Reflected (s.dmar.contextEntry bus devfun)) ∧
    (∀ c, DmarOk s c → InStep ctx s c) ∧ s.dmar.QueueOk :=
  ⟨(reach_inv h).reflected, fun _ hok => ((reach_inv h).call hok).2, (reach_inv h).queueOk⟩

/-- The device 00:01.0 is added to the domain of the first virtual machine, and removed. -/
theorem dmar_tables_in_step_remove :
    ∃ (ctx : ContextTables) (s : DmarState) (domain : IommuDomain),
      HoldsDomain domain (decodeContext (s.dmar.contextEntry 0#8 8#8)) ∧
      InStep ctx s (.remove domain 0#8 8#8 0x5000#64 0x5000#64) ∧ s.dmar.QueueOk := by
  let ctx : ContextTables := ⟨0x200000#64, by decide, by decide⟩
  let domain := createIommuDomain 0#16 0x400000#64 48#32
  let start : DmarState := ⟨Dmar.prepared.dmarEnable 0x5000#64, fun _ _ => .never⟩
  let s := start.call ctx (.add domain 0#8 8#8)
  have hadd : DmarOk start (.add domain 0#8 8#8) := ⟨by decide, by decide⟩
  have hreach : Reach (dmarSystem ctx) DmarOk s := .step (.init ⟨0x5000#64, rfl⟩) hadd rfl
  have hlast : s.last 0#8 8#8 = .added domain := by
    have hrecord := record_apply start.last 0#8 8#8 0#8 8#8 (.added domain)
    rw [if_pos ⟨rfl, rfl⟩] at hrecord
    exact hrecord
  obtain ⟨hreflected, hstep, hqueue⟩ := dmar_tables_in_step ctx hreach
  have hholds := hreflected 0#8 8#8
  rw [hlast] at hholds
  refine ⟨ctx, s, domain, hholds, hstep _ ?_, hqueue⟩
  show s.last 0#8 8#8 ≠ .never
  rw [hlast]
  nofun

end DmarState

end Acrn
