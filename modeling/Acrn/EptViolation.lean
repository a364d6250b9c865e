import Acrn.BarSpec
import Acrn.EptView
import Acrn.ExceptionMerge

/-!
# The execute-right mitigation and its repair

With the mitigation active, large pages of an EPT are not executable. An instruction fetch
from one ends in an EPT violation, and `ept_violation_vmexit_handler` gives the execute right
back to the 4-KByte page that was fetched from, if it is write-back memory.
-/

namespace Acrn

open BlockLoop BitField PageTableLevel Transition

/-! ## The handler -/

/-- What the handler changes of a vCPU. -/
structure FaultVcpu where
  events : VcpuEvents
  cr2 : Word

/-- `PAGE_MASK`. -/
def pageMask : Word := 0xFFFFFFFFFFFFF000#64

/-- `vcpu_inject_pf`. -/
def vcpuInjectPf (vcpu : FaultVcpu) (addr : Word) (errCode : U32) : Option FaultVcpu :=
  (vcpuQueueException vcpu.events 14#32 errCode).map fun events => ⟨events, addr⟩

/-- `gpa` is mapped as write-back memory. -/
def IsWriteBack (ops : MemoryOps) (gpa : ℕ) (ept : PgMem) : Prop :=
  match lookupAddress ops ops.info.pml4Base gpa ept with
  | some (pgentry, _) => ept.mem pgentry &&& eptMtMask = eptWb
  | none => False

instance (ops : MemoryOps) (gpa : ℕ) (ept : PgMem) : Decidable (IsWriteBack ops gpa ept) := by
  unfold IsWriteBack
  split <;> infer_instance

/-- `ept_violation_vmexit_handler`; bit 2 of the exit qualification is an instruction fetch. -/
def eptViolationVmexitHandler (ops : MemoryOps) (exitQual gpa : Word) (vcpu : FaultVcpu)
    (ept : PgMem) : Option (FaultVcpu × PgMem) :=
  if exitQual &&& 0x4#64 ≠ 0#64 ∧ IsWriteBack ops gpa.toNat ept then
    -- `ept_modify_mr` requests a flush, and `vcpu_retain_rip` has the fetch repeated
    some ({ vcpu with events := { vcpu.events.makeRequest .eptFlush with instLen := 0#32 } },
      eptModifyMr ops ops.info.pml4Base (gpa &&& pageMask).toNat pageSize eptExe 0#64 ept)
  else (vcpuInjectPf vcpu 0#64 0#32).map fun vcpu => (vcpu, ept)

/-! ## Runs -/

/-- What happens to the EPT of a VM. -/
inductive EptStep where
  /-- `ept_add_mr` for the memory of the VM -/
  | addRam (hpa gpa size : ℕ) (prot : Word)
  | mapVbar (vdev : PciVdev) (idx : ℕ)
  | unmapVbar (vdev : PciVdev) (idx : ℕ)
  | violation (exitQual gpa : Word) (vcpu : FaultVcpu)

namespace EptStep

variable (ops : MemoryOps)

def run : EptStep → PgMem → Option PgMem
  | addRam hpa gpa size prot, s => some (eptAddMr ops ops.info.pml4Base hpa gpa size prot s)
  | mapVbar vdev idx, s => some (vdevPtMapMemVbar ops vdev idx s)
  | unmapVbar vdev idx, s => some (vdevPtUnmapMemVbar ops vdev idx s)
  | violation exitQual gpa vcpu, s =>
    (eptViolationVmexitHandler ops exitQual gpa vcpu s).map Prod.snd

/-- What the callers keep to: memory is added where nothing is mapped, inside the window of the
table pages and below `MAXPHYADDR`; a BAR has been found valid; a walk has 48 address bits. -/
def Allowed (s : PgMem) : EptStep → Prop
  | addRam hpa gpa size prot =>
    (prot = eptRwx ||| eptWb ∨ prot = eptRwx ||| eptUncached) ∧
      rangeEnd gpa size ≤ ops.info.window ∧
      roundPageDown hpa + (rangeEnd gpa size - roundPageDown gpa) ≤ 2 ^ 39 ∧
      ∀ v ∈ pageRange gpa size, gpa2hpa ops s v = none
  | mapVbar vdev idx => (vdev.bar idx).base ≠ 0#64 → (vdev.bar idx).Fits
  | unmapVbar vdev idx => (vdev.bar idx).base ≠ 0#64 → (vdev.bar idx).Fits
  | violation _ gpa _ => gpa.toNat < 2 ^ 48

end EptStep

/-- The EPT of a VM from its creation. -/
def eptSystem (ops : MemoryOps) : System PgMem EptStep where
  init s := ∃ s₀, BeforeCreate ops s₀ ∧ s = createEpt ops s₀
  step s a s' := a.Allowed ops s ∧ a.run ops s = some s'

/-! ## The invariant

A repair may cut a page and so needs a page for the pieces. The window of the pools has one for
every address in it, and what is mapped lies in the window. -/

variable {ops : MemoryOps} {s s' : PgMem}

/-- Mapped pages lie in the window. -/
def InWindow (ops : MemoryOps) (s : PgMem) : Prop :=
  ∀ v < 2 ^ 48, leaf ops s.mem v ≠ none → roundPageDown v + pageSize ≤ ops.info.window

/-- A well-kept EPT on which a page can be repaired. -/
structure EptOpen (ops : MemoryOps) (s : PgMem) : Prop extends EptOk ops s where
  inWindow : InWindow ops s
  tables : TablesOpen ops s

/-- Everything that is mapped was mapped before. -/
theorem InWindow.of_kept (h : InWindow ops s)
    (hkept : ∀ v < 2 ^ 48, leaf ops s'.mem v = none ∨ LeafKept ops s s' v) : InWindow ops s' := by
  intro v hv hne
  obtain hnone | ⟨f, hf, -⟩ := hkept v hv
  · exact absurd hnone hne
  · refine h v hv fun hnone => hne ?_
    rw [hf, hnone, Option.map_none]

/-- The page of an address of a range lies in the range. -/
theorem page_le_rangeEnd {gpa size v : ℕ} (h : v < rangeEnd gpa size) :
    roundPageDown v + pageSize ≤ rangeEnd gpa size := by
  have hdvd := dvd_rangeEnd gpa size
  simp only [roundPageDown, blockStart, pageSize] at *
  omega

theorem createEpt_open (hops : ops.Lawful) (h : BeforeCreate ops s) :
    EptOpen ops (createEpt ops s) ∧ NoLargeExe ops (createEpt ops s) := by
  refine ⟨⟨createEpt_ok hops h, fun v hv hne => ?_, fun l v _ hv hlink => ?_⟩, fun v L hv hL => ?_⟩
  · exact absurd (createEpt_leaf hops hv) hne
  · exact absurd hlink (createEpt_not_linked hops (next_ne_pml4 l) hv)
  · rw [createEpt_leaf hops hv] at hL
    cases hL

/-! ## What a step keeps

Memory and BARs are added and taken out by calls on the EPT. For each it is shown that the EPT
stays in order and that no large page becomes executable. -/

theorem EptOpen.del (hknown : ops.Known) (hpool : ops.info.ptPool = true) (h : EptOpen ops s)
    {gpa size : ℕ} (hwin : rangeEnd gpa size ≤ ops.info.window) :
    EptOpen ops (eptDelMr ops ops.info.pml4Base gpa size s) ∧
      (NoLargeExe ops s → NoLargeExe ops (eptDelMr ops ops.info.pml4Base gpa size s)) := by
  have hkept : ∀ v < 2 ^ 48, leaf ops (eptDelMr ops ops.info.pml4Base gpa size s).mem v = none ∨
      LeafKept ops s (eptDelMr ops ops.info.pml4Base gpa size s) v := by
    intro v hv
    have hleaf := h.toEptOk.del_leaf hknown hpool hwin hv
    split at hleaf
    · exact .inl hleaf
    · exact .inr hleaf
  have hwrites : Writes ops s (eptDelMr ops ops.info.pml4Base gpa size s) :=
    mmuModifyOrDel_writes hknown.lawful hpool (fun hc => (by cases hc)) h.sound h.root hwin
  exact ⟨⟨(h.toEptOk.del hknown hpool hwin).1, h.inWindow.of_kept hkept,
    hwrites.tablesOpen hknown.lawful h.tables⟩, fun hexe => hexe.of_kept hkept⟩

theorem EptOpen.add (hknown : ops.Known) (hpool : ops.info.ptPool = true) (h : EptOpen ops s)
    {hpa gpa size : ℕ} {prot : Word} (hwin : rangeEnd gpa size ≤ ops.info.window)
    (hprot : ProtOk ops (snooped prot))
    (hpaddr : roundPageDown hpa + (rangeEnd gpa size - roundPageDown gpa) < 2 ^ 39 + 2 ^ 21)
    (hfree : ∀ v ∈ pageRange gpa size, gpa2hpa ops s v = none) :
    EptOpen ops (eptAddMr ops ops.info.pml4Base hpa gpa size prot s) ∧
      (ops.tweakExeRight (snooped prot) &&& eptExe = 0#64 → NoLargeExe ops s →
        NoLargeExe ops (eptAddMr ops ops.info.pml4Base hpa gpa size prot s)) := by
  have hleaf := fun v (hv : v < 2 ^ 48) =>
    h.toEptOk.add_leaf hknown hpool hwin hprot hpaddr hfree hv
  refine ⟨⟨(h.toEptOk.add hknown hpool hwin hprot hpaddr hfree).1, fun v hv hne => ?_, ?_⟩,
    fun htweak hexe v L hv hL hne => ?_⟩
  · have hv' := hleaf v hv
    split at hv'
    · next hin => exact (page_le_rangeEnd hin.2).trans hwin
    · rw [hv'] at hne
      exact h.inWindow v hv hne
  · exact (mmuAdd_writes hknown.lawful hpool h.sound hwin).tablesOpen hknown.lawful h.tables
  · have hv' := hleaf v hv
    split at hv'
    · obtain ⟨L', hL', -, hlarge⟩ := hv'
      obtain rfl := Option.some.inj (hL.symm.trans hL')
      rw [hlarge hne, htweak]
    · rw [hv'] at hL
      exact hexe v L hv hL hne

/-- The page that is made executable, and what the processor finds there. -/
theorem EptOpen.makeExecutable (hknown : ops.Known) (hpool : ops.info.ptPool = true)
    (hdefault : ops.getDefaultAccessRight = eptRwx) (h : EptOpen ops s) {v : ℕ} (hv : v < 2 ^ 48)
    (hmapped : leaf ops s.mem v ≠ none) :
    let s' := eptModifyMr ops ops.info.pml4Base (roundPageDown v) pageSize eptExe 0#64 s
    EptOpen ops s' ∧ (NoLargeExe ops s → NoLargeExe ops s') ∧
      (∀ u < 2 ^ 48, eptView ops s' u = eptView ops s u) ∧
      (∃ e, lookupEntry ops ops.info.pml4Base v s' = some (e, pageSize) ∧
        e &&& eptExe = eptExe) ∧
      walkRight ops ops.info.pml4Base v s' &&& eptExe = eptExe := by
  intro s'
  have hpage := h.inWindow v hv hmapped
  obtain ⟨hok, hkept, hexe⟩ := h.toEptOk.makeExecutable hknown hpool (dvd_roundPageDown v) hpage
  have hkept' := fun u hu => Or.inr (a := leaf ops s'.mem u = none) (hkept u hu)
  have hrange : rangeEnd (roundPageDown v) pageSize ≤ ops.info.window := by
    rw [rangeEnd_page (dvd_roundPageDown v) (hpage.trans ops.info.window_le)]
    exact hpage
  have hwrites : Writes ops s s' :=
    mmuModifyOrDel_writes hknown.lawful hpool (fun _ => (by decide)) h.sound h.root hrange
  have htables : TablesOpen ops s' := hwrites.tablesOpen hknown.lawful h.tables
  obtain ⟨L, hL⟩ := Option.ne_none_iff_exists'.mp hmapped
  obtain ⟨e, hleaf, he⟩ := hexe v (blockStart_le 12 v) (BlockLoop.lt_nextBlock 12 v) L hL
  refine ⟨⟨hok, h.inWindow.of_kept hkept', htables⟩, fun hno => hno.of_kept hkept',
    fun u hu => (hkept u hu).view_eq h.sound hok.sound hu, ⟨e, ?_, he⟩, ?_⟩
  · rw [lookupEntry_eq hok.sound, Nat.mod_eq_of_lt hv,
      show leaf ops s'.mem v = _ from hleaf, Option.map_some]
    rfl
  · rw [walkRight_eq hok.sound htables hdefault hv, show leaf ops s'.mem v = _ from hleaf,
      Option.map_some, Option.getD_some, BitVec.and_assoc,
      show eptRwx &&& eptExe = eptExe by decide, he]

/-- The pages of a BAR are taken out. -/
theorem EptOpen.unmapVbar (hknown : ops.Known) (hpool : ops.info.ptPool = true)
    (hwin : pciVbarTopLimit ≤ ops.info.window) (h : EptOpen ops s) {vdev : PciVdev} {idx : ℕ}
    (hfits : (vdev.bar idx).base ≠ 0#64 → (vdev.bar idx).Fits) :
    EptOpen ops (vdevPtUnmapMemVbar ops vdev idx s) ∧
      (NoLargeExe ops s → NoLargeExe ops (vdevPtUnmapMemVbar ops vdev idx s)) := by
  rw [vdevPtUnmapMemVbar]
  split
  · next hbase => exact h.del hknown hpool ((hfits hbase).rangeEnd_le.trans hwin)
  · exact ⟨h, id⟩

/-- The pages of a BAR are put in. -/
theorem EptOpen.mapVbar (hknown : ops.Known) (hpool : ops.info.ptPool = true)
    (hwin : pciVbarTopLimit ≤ ops.info.window) (h : EptOpen ops s) {vdev : PciVdev} {idx : ℕ}
    (hfits : (vdev.bar idx).base ≠ 0#64 → (vdev.bar idx).Fits) :
    EptOpen ops (vdevPtMapMemVbar ops vdev idx s) ∧
      (ops.tweakExeRight (snooped vbarProt) &&& eptExe = 0#64 → NoLargeExe ops s →
        NoLargeExe ops (vdevPtMapMemVbar ops vdev idx s)) := by
  rw [vdevPtMapMemVbar]
  split
  · next hbase =>
    have hend := (hfits hbase).rangeEnd_le.trans hwin
    obtain ⟨hdel, hexe⟩ := h.del hknown hpool hend
    have hfree : ∀ v ∈ pageRange (vdev.bar idx).base.toNat (vdev.bar idx).size.toNat,
        gpa2hpa ops (eptDelMr ops ops.info.pml4Base (vdev.bar idx).base.toNat
          (vdev.bar idx).size.toNat s) v = none := by
      intro v hv
      have hv48 : v < 2 ^ 48 := hv.2.trans_le (hend.trans ops.info.window_le)
      rw [(h.toEptOk.del hknown hpool hend).2 v hv48, if_pos hv]
    obtain ⟨hadd, hexe'⟩ :=
      hdel.add hknown hpool hend (vbarProt_ok hknown) (hfits hbase).hpa_lt hfree
    exact ⟨hadd, fun htweak hno => hexe' htweak (hexe hno)⟩
  · exact ⟨h, fun _ hno => hno⟩

/-! ## The handler -/

theorem isWriteBack_iff (hs : Sound ops s) {v : ℕ} (hv : v < 2 ^ 48) :
    IsWriteBack ops v s ↔ ∃ L, leaf ops s.mem v = some L ∧ L.entry &&& eptMtMask = eptWb := by
  rw [IsWriteBack, lookupAddress_eq hs hv]
  cases hL : leaf ops s.mem v with
  | none => simp
  | some L =>
    rw [Option.map_some]
    show s.mem (ops.info.entryAddr L.level v) &&& eptMtMask = eptWb ↔ _
    have hentry : s.mem (ops.info.entryAddr L.level v) = L.entry := (leafOver_some hL).2.1.symm
    simp [hentry]

/-- Whether memory is write-back is part of the view. -/
theorem isWriteBack_iff_view (hs : Sound ops s) {v : ℕ} (hv : v < 2 ^ 48) :
    IsWriteBack ops v s ↔ ∃ view, eptView ops s v = some view ∧ view.2 &&& eptMtMask = eptWb := by
  have hmask : ∀ e : Word, e &&& viewMask &&& eptMtMask = e &&& eptMtMask := fun e => by
    rw [BitVec.and_assoc, show viewMask &&& eptMtMask = eptMtMask by decide]
  rw [isWriteBack_iff hs hv, eptView_eq hs hv]
  constructor
  · rintro ⟨L, hL, hwb⟩
    exact ⟨L.view v, by rw [hL, Option.map_some], (hmask L.entry).trans hwb⟩
  · rintro ⟨view, hview, hwb⟩
    obtain ⟨L, hL, rfl⟩ := Option.map_eq_some_iff.mp hview
    exact ⟨L, hL, (hmask L.entry).symm.trans hwb⟩

theorem toNat_and_pageMask (gpa : Word) : (gpa &&& pageMask).toNat = roundPageDown gpa.toNat := by
  rw [show pageMask = fieldMask 64 12 64 by decide, toNat_and_fieldMask gpa (by decide) le_rfl,
    Nat.mod_eq_of_lt gpa.isLt]
  rfl

/-- A page fault is combined with what is pending. -/
theorem vcpuInjectPf_spec {vcpu : FaultVcpu} (h : vcpu.events.Consistent) (addr : Word)
    (errCode : U32) : ∃ vcpu', vcpuInjectPf vcpu addr errCode = some vcpu' ∧ vcpu'.cr2 = addr ∧
      vcpu'.events.pending = vcpu.events.pending.combine (14#32, errCode) := by
  have hlt : (14#32 : U32).toNat < 32 := by decide
  have hdf : (14#32 : U32) = 8#32 → errCode = 0#32 := fun h8 => absurd h8 (by decide)
  obtain ⟨events, hqueue, -, hpending, -⟩ := vcpuQueueException_spec h hlt hdf
  exact ⟨⟨events, addr⟩, by rw [vcpuInjectPf, hqueue, Option.map_some], rfl, hpending⟩

/-- The handler on a fetch from write-back memory, and on everything else. -/
theorem eptViolationVmexitHandler_eq (ops : MemoryOps) (exitQual gpa : Word) (vcpu : FaultVcpu)
    (s : PgMem) : eptViolationVmexitHandler ops exitQual gpa vcpu s =
      if exitQual &&& 0x4#64 ≠ 0#64 ∧ IsWriteBack ops gpa.toNat s then
        some ({ vcpu with events := { vcpu.events.makeRequest .eptFlush with instLen := 0#32 } },
          eptModifyMr ops ops.info.pml4Base (roundPageDown gpa.toNat) pageSize eptExe 0#64 s)
      else (vcpuInjectPf vcpu 0#64 0#32).map fun vcpu => (vcpu, s) := by
  rw [eptViolationVmexitHandler, toNat_and_pageMask]

/-- **A violation changes no view**, and leaves large pages as they are. -/
theorem EptOpen.violation (hknown : ops.Known) (hpool : ops.info.ptPool = true)
    (hdefault : ops.getDefaultAccessRight = eptRwx) (h : EptOpen ops s) {exitQual gpa : Word}
    {vcpu vcpu' : FaultVcpu} (hgpa : gpa.toNat < 2 ^ 48)
    (hrun : eptViolationVmexitHandler ops exitQual gpa vcpu s = some (vcpu', s')) :
    EptOpen ops s' ∧ (NoLargeExe ops s → NoLargeExe ops s') ∧
      ∀ v < 2 ^ 48, eptView ops s' v = eptView ops s v := by
  rw [eptViolationVmexitHandler_eq] at hrun
  split at hrun
  · next hfetch =>
    obtain ⟨-, rfl⟩ := Prod.mk.inj (Option.some.inj hrun)
    obtain ⟨L, hL, -⟩ := (isWriteBack_iff h.sound hgpa).mp hfetch.2
    have hmapped : leaf ops s.mem gpa.toNat ≠ none := by
      rw [hL]
      exact Option.some_ne_none L
    obtain ⟨hopen, hno, hview, -⟩ := h.makeExecutable hknown hpool hdefault hgpa hmapped
    exact ⟨hopen, hno, hview⟩
  · obtain ⟨vcpu'', -, heq⟩ := Option.map_eq_some_iff.mp hrun
    obtain ⟨-, rfl⟩ := Prod.mk.inj heq
    exact ⟨h, id, fun _ _ => rfl⟩

/-! ## Every run -/

/-- The rights that the memory of a VM is mapped with. -/
theorem ramProt_ok (info : PoolLayout) (force enforce : Bool) {prot : Word}
    (hprot : prot = eptRwx ||| eptWb ∨ prot = eptRwx ||| eptUncached) :
    ProtOk (initEptMemOps info force enforce) (snooped prot) := by
  have hattr : snooped prot &&& frameMask = 0#64 := by
    rcases hprot with rfl | rfl <;> decide
  have hept : eptPgentryPresent (snooped prot) ≠ 0#64 := by
    rcases hprot with rfl | rfl <;> decide
  have htweak : eptPgentryPresent (eptTweakExeRight (snooped prot)) ≠ 0#64 := by
    rcases hprot with rfl | rfl <;> decide
  cases force with
  | true => exact ⟨hattr, hept, htweak⟩
  | false => exact ⟨hattr, hept, hept⟩

/-- What the mitigation takes away. -/
theorem tweak_and_exe (prot : Word) : eptTweakExeRight prot &&& eptExe = 0#64 := by
  rw [eptTweakExeRight, BitVec.and_assoc, show ~~~eptExe &&& eptExe = 0#64 by decide,
    BitVec.and_zero]

variable {info : PoolLayout} {enforce4kIpage : Bool}

/-- **Every step keeps the EPT in order and large pages not executable.** -/
theorem mitigation_step (hpool : info.ptPool = true) (hwin : pciVbarTopLimit ≤ info.window)
    {a : EptStep} (h : EptOpen (initEptMemOps info true enforce4kIpage) s)
    (hexe : NoLargeExe (initEptMemOps info true enforce4kIpage) s)
    (hok : a.Allowed (initEptMemOps info true enforce4kIpage) s)
    (hstep : a.run (initEptMemOps info true enforce4kIpage) s = some s') :
    EptOpen (initEptMemOps info true enforce4kIpage) s' ∧
      NoLargeExe (initEptMemOps info true enforce4kIpage) s' := by
  have hknown : (initEptMemOps info true enforce4kIpage).Known := .ept info true enforce4kIpage hpool
  have htweak : ∀ prot, (initEptMemOps info true enforce4kIpage).tweakExeRight prot &&& eptExe =
      0#64 := tweak_and_exe
  cases a with
  | addRam hpa gpa size prot =>
    obtain ⟨hprot, hrange, hpaddr, hfree⟩ := hok
    obtain rfl := Option.some.inj hstep
    obtain ⟨hopen, hno⟩ := h.add hknown hpool hrange (ramProt_ok info true enforce4kIpage hprot)
      (hpaddr.trans_lt (by decide)) hfree
    exact ⟨hopen, hno (htweak _) hexe⟩
  | mapVbar vdev idx =>
    obtain rfl := Option.some.inj hstep
    obtain ⟨hopen, hno⟩ := h.mapVbar hknown hpool hwin hok
    exact ⟨hopen, hno (htweak _) hexe⟩
  | unmapVbar vdev idx =>
    obtain rfl := Option.some.inj hstep
    obtain ⟨hopen, hno⟩ := h.unmapVbar hknown hpool hwin hok
    exact ⟨hopen, hno hexe⟩
  | violation exitQual gpa vcpu =>
    obtain ⟨⟨vcpu', t⟩, hrun, rfl⟩ := Option.map_eq_some_iff.mp hstep
    obtain ⟨hopen, hno, -⟩ := h.violation hknown hpool rfl hok hrun
    exact ⟨hopen, hno hexe⟩

theorem mitigation_of_reach (hpool : info.ptPool = true) (hwin : pciVbarTopLimit ≤ info.window)
    (h : Reach (eptSystem (initEptMemOps info true enforce4kIpage)) any s) :
    EptOpen (initEptMemOps info true enforce4kIpage) s ∧
      NoLargeExe (initEptMemOps info true enforce4kIpage) s := by
  have hknown : (initEptMemOps info true enforce4kIpage).Known := .ept info true enforce4kIpage hpool
  refine h.invariant (P := fun s => EptOpen (initEptMemOps info true enforce4kIpage) s ∧
    NoLargeExe (initEptMemOps info true enforce4kIpage) s) ?_ ?_
  · rintro s ⟨s₀, hboot, rfl⟩
    exact createEpt_open hknown.lawful hboot
  · rintro s a s' - ⟨hok, hstep⟩ ⟨hopen, hexe⟩
    exact mitigation_step hpool hwin hopen hexe hok hstep

/-- **The mitigation and its repair.** In every run with the mitigation active no large page is
executable. An instruction fetch from write-back memory that violates leaves all views as they
are and makes its 4-KByte page executable, so that the fetch does not violate again. Any other
violation leaves the EPT as it is and queues a page fault. -/
theorem execute_right_repaired (hpool : info.ptPool = true) (hwin : pciVbarTopLimit ≤ info.window)
    (enforce4kIpage : Bool) {s : PgMem}
    (h : Reach (eptSystem (initEptMemOps info true enforce4kIpage)) any s) :
    let ops := initEptMemOps info true enforce4kIpage
    (∀ v e pgSize, lookupEntry ops ops.info.pml4Base v s = some (e, pgSize) →
      pgSize ≠ pageSize → e &&& eptExe = 0#64) ∧
    ∀ (exitQual gpa : Word) (vcpu : FaultVcpu), gpa.toNat < 2 ^ 48 →
      (exitQual &&& 0x4#64 ≠ 0#64 → IsWriteBack ops gpa.toNat s →
        ∃ vcpu' s', eptViolationVmexitHandler ops exitQual gpa vcpu s = some (vcpu', s') ∧
          (∀ v < 2 ^ 48, eptView ops s' v = eptView ops s v) ∧
          (∃ e, lookupEntry ops ops.info.pml4Base gpa.toNat s' = some (e, pageSize) ∧
            e &&& eptExe = eptExe) ∧
          walkRight ops ops.info.pml4Base gpa.toNat s' &&& eptExe = eptExe) ∧
      (¬ (exitQual &&& 0x4#64 ≠ 0#64 ∧ IsWriteBack ops gpa.toNat s) → vcpu.events.Consistent →
        ∃ vcpu', eptViolationVmexitHandler ops exitQual gpa vcpu s = some (vcpu', s) ∧
          vcpu'.cr2 = 0#64 ∧
          vcpu'.events.pending = vcpu.events.pending.combine (14#32, 0#32)) := by
  intro ops
  have hknown : ops.Known := .ept info true enforce4kIpage hpool
  obtain ⟨hopen, hexe⟩ := mitigation_of_reach hpool hwin h
  refine ⟨fun v e pgSize hentry hne => ?_, fun exitQual gpa vcpu hgpa => ⟨fun hfetch hwb => ?_,
    fun hother hcons => ?_⟩⟩
  · rw [lookupEntry_eq hopen.sound, Option.map_eq_some_iff] at hentry
    obtain ⟨L, hL, heq⟩ := hentry
    obtain ⟨rfl, rfl⟩ := Prod.mk.inj heq
    exact hexe _ L (Nat.mod_lt v (Nat.two_pow_pos 48)) hL fun hpt => hne (size_eq_page.mpr hpt)
  · obtain ⟨L, hL, -⟩ := (isWriteBack_iff hopen.sound hgpa).mp hwb
    have hmapped : leaf ops s.mem gpa.toNat ≠ none := by
      rw [hL]
      exact Option.some_ne_none L
    obtain ⟨-, -, hview, hentry, hwalk⟩ := hopen.makeExecutable hknown hpool rfl hgpa hmapped
    refine ⟨{ vcpu with events := { vcpu.events.makeRequest .eptFlush with instLen := 0#32 } }, _,
      ?_, hview, hentry, hwalk⟩
    rw [eptViolationVmexitHandler_eq, if_pos ⟨hfetch, hwb⟩]
  · obtain ⟨vcpu', hinject, hcr2, hpending⟩ := vcpuInjectPf_spec hcons 0#64 0#32
    refine ⟨vcpu', ?_, hcr2, hpending⟩
    rw [eptViolationVmexitHandler_eq, if_neg hother, hinject, Option.map_some]

/-- Low memory of 16 MByte at 4 GByte, from which a fetch is repaired. -/
theorem execute_right_repaired_uos :
    let ops := initEptMemOps uosLayout true false
    let s := eptAddMr ops ops.info.pml4Base 0x100000000 0x0 0x1000000 (eptRwx ||| eptWb)
      (createEpt ops (bootMem ops))
    (∀ v e pgSize, lookupEntry ops ops.info.pml4Base v s = some (e, pgSize) →
      pgSize ≠ pageSize → e &&& eptExe = 0#64) ∧
    ∃ vcpu s', eptViolationVmexitHandler ops 0x4#64 0x2345#64 ⟨.created, 0#64⟩ s =
        some (vcpu, s') ∧
      (∀ v < 2 ^ 48, eptView ops s' v = eptView ops s v) ∧
      walkRight ops ops.info.pml4Base 0x2345 s' &&& eptExe = eptExe := by
  intro ops s
  have hknown : ops.Known := .ept uosLayout true false rfl
  have hboot := beforeCreate_bootMem ops
  have hempty : ∀ v ∈ pageRange 0x0 0x1000000, gpa2hpa ops (createEpt ops (bootMem ops)) v = none :=
    fun v hv => gpa2hpa_createEpt hknown.lawful hboot
      (hv.2.trans_le (show rangeEnd 0x0 0x1000000 ≤ 2 ^ 48 by decide))
  have hrun : Reach (eptSystem ops) any s := by
    refine Reach.step (a := .addRam 0x100000000 0x0 0x1000000 (eptRwx ||| eptWb))
      (.init ⟨_, hboot, rfl⟩) trivial ⟨⟨.inl rfl, ?_, ?_, hempty⟩, rfl⟩
    · decide
    · decide
  have hok := (createEpt_open hknown.lawful hboot).1
  have hmapped : IsWriteBack ops 0x2345 s := by
    have hwin : rangeEnd 0x0 0x1000000 ≤ ops.info.window := by decide
    have hprot := ramProt_ok uosLayout true false (.inl rfl : _ ∨ eptRwx ||| eptWb = _)
    have hpaddr : roundPageDown 0x100000000 +
        (rangeEnd 0x0 0x1000000 - roundPageDown 0x0) < 2 ^ 39 + 2 ^ 21 := by decide
    have hview := hok.toEptOk.add_view hknown rfl hwin hprot hpaddr hempty
      (show 0x2345 < 2 ^ 48 by decide)
    rw [if_pos (show 0x2345 ∈ pageRange 0x0 0x1000000 by decide)] at hview
    have hsound := (hok.toEptOk.add hknown rfl hwin hprot hpaddr hempty).1
    exact (isWriteBack_iff_view hsound.sound (by decide)).mpr ⟨_, hview, by decide⟩
  obtain ⟨hlarge, hviolation⟩ := execute_right_repaired rfl (by decide) false hrun
  obtain ⟨vcpu, s', hrun', hview, -, hwalk⟩ := (hviolation 0x4#64 0x2345#64 ⟨.created, 0#64⟩
    (by decide)).1 (by decide) hmapped
  exact ⟨hlarge, vcpu, s', hrun', hview, hwalk⟩

end Acrn
