import Acrn.E820
import Acrn.EptViolation
import Acrn.Vpci
import Mathlib.Data.Set.Lattice
import Mathlib.Order.CompletePartialOrder

/-!
# The memory of the guests

`create_vm` maps the memory of a VM along its virtual E820. From then on the guest moves BARs and
runs into EPT violations. Neither changes what the guest finds outside the MMIO window, and
inside it finds its own devices only.
-/

namespace Acrn

open BlockLoop BitField Ownership Transition

/-! ## The virtual E820 -/

/-- `struct acrn_vm_mem_config`. -/
structure VmMemConfig where
  startHpa : Word
  size : Word

/-- `pre_ve820_template`. -/
def preVe820Template : List E820Entry :=
  [⟨0x0#64, 0xF0000#64, e820TypeRam⟩, ⟨0xF0000#64, 0x10000#64, e820TypeReserved⟩,
    ⟨0x100000#64, 0#64, e820TypeRam⟩]

/-- `ENTRY_HPA1`. -/
def entryHpa1 : ℕ := 2

/-- `create_prelaunched_vm_e820`. -/
def createPrelaunchedVmE820 (memory : VmMemConfig) : List E820Entry :=
  preVe820Template.modify entryHpa1 fun entry => { entry with length := memory.size - mem1M }

/-- The loop of `prepare_prelaunched_vm_memmap`. -/
def memmapEntries (ops : MemoryOps) : List E820Entry → Word → Word → PgMem → PgMem
  | [], _, _, ept => ept
  | entry :: entries, baseHpa, remainingHpaSize, ept =>
    if entry.length = 0#64 then ept
    else if entry.type = e820TypeRam ∧ entry.length ≤ remainingHpaSize then
      memmapEntries ops entries (baseHpa + entry.length) (remainingHpaSize - entry.length)
        (eptAddMr ops ops.info.pml4Base baseHpa.toNat entry.baseaddr.toNat entry.length.toNat
          (eptRwx ||| eptWb) ept)
    else if entry.type ≠ e820TypeRam ∧ entry.baseaddr < mem1M ∧
        entry.length ≤ remainingHpaSize then
      memmapEntries ops entries (baseHpa + entry.length) (remainingHpaSize - entry.length)
        (eptAddMr ops ops.info.pml4Base baseHpa.toNat entry.baseaddr.toNat entry.length.toNat
          (eptRwx ||| eptUncached) ept)
    else memmapEntries ops entries baseHpa remainingHpaSize ept

/-- `prepare_prelaunched_vm_memmap`. -/
def preparePrelaunchedVmMemmap (ops : MemoryOps) (memory : VmMemConfig) (ept : PgMem) : PgMem :=
  memmapEntries ops (createPrelaunchedVmE820 memory) memory.startHpa memory.size ept

/-! ## What the guest finds

The memory of a guest is described by its view, as a function of the address alone. How `create_vm`
cuts it into entries does not show there. -/

/-- The ACPI area in the first megabyte. -/
def acpiArea : Set ℕ := {g | 0xF0000 ≤ g ∧ g < 0x100000}

instance (g : ℕ) : Decidable (g ∈ acpiArea) := inferInstanceAs (Decidable (_ ∧ _))

/-- The memory type of guest memory. -/
def ramType (g : ℕ) : Word := if g ∈ acpiArea then eptUncached else eptWb

/-- The view of guest memory: from address 0 on, backed in one piece. -/
def ramView (memory : VmMemConfig) (g : ℕ) : Option (ℕ × Word) :=
  if g < memory.size.toNat then
    some (memory.startHpa.toNat + g, snooped (eptRwx ||| ramType g) &&& viewMask)
  else none

/-- The memory type that the EPT gives an address. -/
def memType (ops : MemoryOps) (s : PgMem) (gpa : ℕ) : Option Word :=
  (lookupEntry ops ops.info.pml4Base gpa s).map fun entry => entry.1 &&& eptMtMask

namespace VmMemConfig

variable (memory : VmMemConfig)

/-- The host memory of a VM. -/
def hostRange : Set ℕ :=
  {hpa | memory.startHpa.toNat ≤ hpa ∧ hpa < memory.startHpa.toNat + memory.size.toNat}

/-- Whole pages, at least one megabyte of them, which do not reach the MMIO window of the guest;
host memory ends at `MAXPHYADDR`. -/
structure Valid : Prop where
  start_dvd : pageSize ∣ memory.startHpa.toNat
  size_dvd : pageSize ∣ memory.size.toNat
  le_size : 0x100000 ≤ memory.size.toNat
  size_le : memory.size.toNat ≤ pciVbarBaseLimit
  host_le : memory.startHpa.toNat + memory.size.toNat ≤ 2 ^ 39

end VmMemConfig

variable {ops : MemoryOps} {s ept : PgMem} {memory : VmMemConfig}

theorem memType_eq_view (hs : Sound ops s) {v : ℕ} (hv : v < 2 ^ 48) :
    memType ops s v = (eptView ops s v).map fun view => view.2 &&& eptMtMask := by
  have hmask : ∀ e : Word, e &&& viewMask &&& eptMtMask = e &&& eptMtMask := fun e => by
    rw [BitVec.and_assoc, show viewMask &&& eptMtMask = eptMtMask by decide]
  rw [memType, lookupEntry_eq hs, Nat.mod_eq_of_lt hv, eptView_eq hs hv, Option.map_map,
    Option.map_map]
  congr 1
  funext L
  exact (hmask L.entry).symm

/-! ## Setting the memory up

The loop maps the entries of the E820 one after the other, from address 0 upwards without a gap.
The invariant is that all below the next entry is mapped, and nothing from there on. -/

/-- The memory is mapped up to guest address `top`, and nothing else is. -/
structure MappedTo (ops : MemoryOps) (memory : VmMemConfig) (top : ℕ) (ept : PgMem) : Prop where
  kept : EptOpen ops ept
  view : ∀ v < 2 ^ 48, eptView ops ept v = if v < top then ramView memory v else none

theorem createEpt_mappedTo (hops : ops.Lawful) (h : BeforeCreate ops s) (memory : VmMemConfig) :
    MappedTo ops memory 0 (createEpt ops s) := by
  refine ⟨(createEpt_open hops h).1, fun v hv => ?_⟩
  rw [eptView_eq (createEpt_sound hops h) hv, createEpt_leaf hops hv, Option.map_none,
    if_neg (Nat.not_lt_zero v)]

/-- One entry of the E820: the next piece of memory. -/
theorem MappedTo.add (hknown : ops.Known) (hpool : ops.info.ptPool = true)
    (hwin : pciVbarTopLimit ≤ ops.info.window) (hmem : memory.Valid) {top len : ℕ}
    (h : MappedTo ops memory top ept) {prot : Word} (hprot : ProtOk ops (snooped prot))
    (htop : pageSize ∣ top) (hlen : pageSize ∣ len) (hle : top + len ≤ memory.size.toNat)
    (htype : ∀ v, top ≤ v → v < top + len → prot = eptRwx ||| ramType v) :
    MappedTo ops memory (top + len)
      (eptAddMr ops ops.info.pml4Base (memory.startHpa.toNat + top) top len prot ept) := by
  have hsize := hmem.size_le
  have hhost := hmem.host_le
  have hgpa : roundPageDown top = top := blockStart_of_dvd (k := 12) htop
  have hhpa : roundPageDown (memory.startHpa.toNat + top) = memory.startHpa.toNat + top :=
    blockStart_of_dvd (k := 12) (Nat.dvd_add hmem.start_dvd htop)
  have hend : rangeEnd top len = top + len := by
    have hdvd : pageSize ∣ top + len := Nat.dvd_add htop hlen
    simp only [rangeEnd, roundPageUp, blockStart, pageSize, pciVbarBaseLimit] at *
    omega
  have hwin' : rangeEnd top len ≤ ops.info.window := by
    rw [hend]
    exact (hle.trans hsize).trans (le_trans (by decide) hwin)
  have hpaddr : roundPageDown (memory.startHpa.toNat + top) +
      (rangeEnd top len - roundPageDown top) < 2 ^ 39 + 2 ^ 21 := by
    rw [hend, hhpa, hgpa]
    omega
  have hfree : ∀ v ∈ pageRange top len, gpa2hpa ops ept v = none := by
    rintro v ⟨hge, hlt⟩
    rw [hgpa] at hge
    have hv : v < 2 ^ 48 := hlt.trans_le (hwin'.trans ops.info.window_le)
    rw [gpa2hpa_eq_view h.kept.sound hv, h.view v hv, if_neg (Nat.not_lt.mpr hge), Option.map_none]
  refine ⟨(h.kept.add hknown hpool hwin' hprot hpaddr hfree).1, fun v hv => ?_⟩
  rw [h.kept.toEptOk.add_view hknown hpool hwin' hprot hpaddr hfree hv, h.view v hv, hhpa, hgpa]
  by_cases hin : v ∈ pageRange top len
  · obtain ⟨hge, hlt⟩ := hin
    rw [if_pos (show v ∈ pageRange top len from ⟨hge, hlt⟩)]
    rw [hgpa] at hge
    rw [hend] at hlt
    rw [if_pos hlt, ramView, if_pos (hlt.trans_le hle), htype v hge hlt]
    congr 2
    omega
  · rw [if_neg hin]
    have hout : ¬ (top ≤ v ∧ v < top + len) := fun hc =>
      hin ⟨hgpa.le.trans hc.1, hc.2.trans_eq hend.symm⟩
    by_cases hlow : v < top
    · rw [if_pos hlow, if_pos (by omega)]
    · rw [if_neg hlow, if_neg (by omega)]

/-- The loop of `prepare_prelaunched_vm_memmap` has come to guest address `top`. -/
structure MemmapAt (ops : MemoryOps) (memory : VmMemConfig) (top : ℕ) (baseHpa remaining : Word)
    (ept : PgMem) : Prop extends MappedTo ops memory top ept where
  hpa : baseHpa.toNat = memory.startHpa.toNat + top
  remaining : remaining.toNat = memory.size.toNat - top

/-- The right that an entry is mapped with. -/
def E820Entry.prot (entry : E820Entry) : Word :=
  if entry.type = e820TypeRam then eptRwx ||| eptWb else eptRwx ||| eptUncached

/-- An iteration maps its entry. -/
theorem MemmapAt.entry (hknown : ops.Known) (hpool : ops.info.ptPool = true)
    (hwin : pciVbarTopLimit ≤ ops.info.window) (hmem : memory.Valid) {top : ℕ}
    {baseHpa remaining : Word} (h : MemmapAt ops memory top baseHpa remaining ept)
    (entry : E820Entry) (entries : List E820Entry)
    (hprot : ProtOk ops (snooped entry.prot)) (hbase : entry.baseaddr.toNat = top)
    (htop : pageSize ∣ top) (hlen : pageSize ∣ entry.length.toNat) (hne : entry.length ≠ 0#64)
    (hle : top + entry.length.toNat ≤ memory.size.toNat)
    (hlow : entry.type ≠ e820TypeRam → entry.baseaddr < mem1M)
    (htype : ∀ v, top ≤ v → v < top + entry.length.toNat →
      entry.prot = eptRwx ||| ramType v) :
    ∃ baseHpa' remaining' ept', memmapEntries ops (entry :: entries) baseHpa remaining ept =
        memmapEntries ops entries baseHpa' remaining' ept' ∧
      MemmapAt ops memory (top + entry.length.toNat) baseHpa' remaining' ept' := by
  have hhost := hmem.host_le
  have hroom : entry.length ≤ remaining := by
    rw [BitVec.le_def, h.remaining]
    omega
  refine ⟨baseHpa + entry.length, remaining - entry.length,
    eptAddMr ops ops.info.pml4Base baseHpa.toNat entry.baseaddr.toNat entry.length.toNat
      entry.prot ept, ?_, ?_, ?_, ?_⟩
  · rw [memmapEntries, if_neg hne]
    by_cases hram : entry.type = e820TypeRam
    · rw [if_pos ⟨hram, hroom⟩, E820Entry.prot, if_pos hram]
    · rw [if_neg fun hc => hram hc.1, if_pos ⟨hram, hlow hram, hroom⟩, E820Entry.prot,
        if_neg hram]
  · rw [h.hpa, hbase]
    exact h.toMappedTo.add hknown hpool hwin hmem hprot htop hlen hle htype
  · rw [BitVec.toNat_add, h.hpa, Nat.mod_eq_of_lt (by omega)]
    omega
  · rw [BitVec.toNat_sub_of_le hroom, h.remaining]
    omega

/-- **The memory of a VM after its creation.** -/
theorem preparePrelaunchedVmMemmap_spec (info : PoolLayout) (force enforce : Bool)
    (hpool : info.ptPool = true) (hwin : pciVbarTopLimit ≤ info.window) (hmem : memory.Valid)
    (h : MappedTo (initEptMemOps info force enforce) memory 0 ept) :
    MappedTo (initEptMemOps info force enforce) memory memory.size.toNat
      (preparePrelaunchedVmMemmap (initEptMemOps info force enforce) memory ept) := by
  have hknown := MemoryOps.Known.ept info force enforce hpool
  have hsize := hmem.le_size
  have hdvd := hmem.size_dvd
  have hprot : ∀ entry : E820Entry,
      ProtOk (initEptMemOps info force enforce) (snooped entry.prot) := by
    intro entry
    refine ramProt_ok info force enforce ?_
    rw [E820Entry.prot]
    split
    · exact .inl rfl
    · exact .inr rfl
  have hlast : (memory.size - mem1M).toNat = memory.size.toNat - 0x100000 :=
    BitVec.toNat_sub_of_le (x := memory.size) (y := mem1M) hsize
  have h₀ : MemmapAt (initEptMemOps info force enforce) memory 0 memory.startHpa memory.size ept :=
    ⟨h, rfl, rfl⟩
  -- the memory below the ACPI area, the area, and what lies above the first megabyte
  obtain ⟨hpa₁, rem₁, ept₁, hrun₁, h₁⟩ := h₀.entry hknown hpool hwin hmem
    ⟨0x0#64, 0xF0000#64, e820TypeRam⟩
    [⟨0xF0000#64, 0x10000#64, e820TypeReserved⟩,
      ⟨0x100000#64, memory.size - mem1M, e820TypeRam⟩] (hprot _)
    rfl (by decide) (by decide) (by decide) (by simp; omega) (by simp) fun v _ hlt => by
      rw [ramType, if_neg fun hacpi => absurd hlt (Nat.not_lt.mpr hacpi.1)]
      rfl
  obtain ⟨hpa₂, rem₂, ept₂, hrun₂, h₂⟩ := h₁.entry hknown hpool hwin hmem
    ⟨0xF0000#64, 0x10000#64, e820TypeReserved⟩
    [⟨0x100000#64, memory.size - mem1M, e820TypeRam⟩] (hprot _) rfl (by decide) (by decide)
    (by decide) (by simp; omega) (fun _ => by decide) fun v hge hlt => by
      rw [ramType, if_pos (show v ∈ acpiArea from ⟨hge, hlt⟩)]
      rfl
  have hrun : preparePrelaunchedVmMemmap (initEptMemOps info force enforce) memory ept =
      memmapEntries (initEptMemOps info force enforce)
        [⟨0x100000#64, memory.size - mem1M, e820TypeRam⟩] hpa₂ rem₂ ept₂ := hrun₁.trans hrun₂
  rw [hrun]
  by_cases hzero : memory.size - mem1M = 0#64
  · have htop : memory.size.toNat = 0x100000 := by
      rw [hzero] at hlast
      simp at hlast
      omega
    rw [memmapEntries, if_pos hzero, htop]
    exact h₂.toMappedTo
  · obtain ⟨hpa₃, rem₃, ept₃, hrun₃, h₃⟩ := h₂.entry hknown hpool hwin hmem
      ⟨0x100000#64, memory.size - mem1M, e820TypeRam⟩ [] (hprot _) rfl (by decide)
      (by simp only [hlast, pageSize] at *; omega) hzero (by simp only [hlast]; simp; omega)
      (by simp) fun v hge _ => by
        rw [ramType, if_neg fun hacpi => absurd hge (Nat.not_le.mpr hacpi.2)]
        rfl
    rw [hrun₃, memmapEntries]
    have htop : memory.size.toNat = 0 + 0xF0000 + 0x10000 + (memory.size - mem1M).toNat := by
      rw [hlast]
      omega
    rw [htop]
    exact h₃.toMappedTo

/-! ## Runs of the guests -/

/-- What a VM is created from: its memory, the arrays of its EPT with the choices of
`init_ept_mem_ops`, and its devices. -/
structure VmConfig where
  memory : VmMemConfig
  info : PoolLayout
  forceTweak : Bool
  enforce4kIpage : Bool
  devices : ℕ

namespace VmConfig

variable (c : VmConfig)

/-- `ept_mem_ops`. -/
def eptMemOps : MemoryOps := initEptMemOps c.info c.forceTweak c.enforce4kIpage

structure Valid : Prop where
  memory : c.memory.Valid
  ptPool : c.info.ptPool = true
  window : pciVbarTopLimit ≤ c.info.window

/-- The VM after `create_vm`; its devices wait for `init_vdev_pt` in zeroed memory. -/
structure Created (st : Vm c.devices) : Prop where
  ept : ∃ s, BeforeCreate c.eptMemOps s ∧
    st.ept = preparePrelaunchedVmMemmap c.eptMemOps c.memory (createEpt c.eptMemOps s)
  dev : ∀ d, (st.dev d).pdev.Conforms ∧ (st.dev d).vdev.Fresh 0
  cfg : ∀ d i, pageSize ∣ ((st.dev d).vdev.vbarBase i).toNat ∧
    ((st.dev d).vdev.vbarBase i).toNat < 2 ^ 32

end VmConfig

/-- What happens to a VM after its creation. -/
inductive GuestStep (n : ℕ) where
  | initVdev (d : Fin n)
  | writeVbar (d : Fin n) (idx : ℕ) (val : Reg)
  | violation (exitQual gpa : Word) (vcpu : FaultVcpu)

/-- The step leads from `st` to `st'`. -/
def GuestStep.Leads {n : ℕ} (ops : MemoryOps) (st st' : Vm n) : GuestStep n → Prop
  | initVdev d => (st.dev d).vdev.Fresh 0 ∧ st' = st.initVdev ops d
  | writeVbar d idx val => idx < pciBarCount ∧ st' = st.writeVbar ops d idx val
  | violation exitQual gpa vcpu => gpa.toNat < 2 ^ 48 ∧ ∃ vcpu' ept,
      eptViolationVmexitHandler ops exitQual gpa vcpu st.ept = some (vcpu', ept) ∧
        st' = { st with ept }

variable {ι : Type*} [DecidableEq ι]

/-- The VMs side by side, each with an EPT of its own. -/
def guestSystem (c : ι → VmConfig) :
    System (∀ i, Vm (c i).devices) (Σ i, GuestStep (c i).devices) where
  init st := ∀ i, (c i).Created (st i)
  step st a st' := ∃ vm, a.2.Leads (c a.1).eptMemOps (st a.1) vm ∧ st' = Function.update st a.1 vm

/-- A guest puts no BAR at an unaligned address. -/
def AlignedWrites (c : ι → VmConfig) (st : ∀ i, Vm (c i).devices)
    (a : Σ i, GuestStep (c i).devices) : Prop :=
  match a with
  | ⟨i, .writeVbar d idx val⟩ => ((st i).dev d).vdev.Aligned idx val
  | _ => True

/-! ## The invariant

Inside the MMIO window the EPT is what the BARs claim, outside it is the memory. A BAR is aligned
as long as the guest writes aligned bases only, and then its pages stay inside the window. -/

variable {c : VmConfig} {st st' : Vm c.devices} {n : ℕ} {b : Fin c.devices × ℕ}

/-- The EPT of a VM: outside the MMIO window it is a view of the memory of the VM, inside it
realizes claims of the BARs. -/
structure VmConfig.Contains (c : VmConfig) (st : Vm c.devices) : Prop where
  ept : EptOpen c.eptMemOps st.ept
  ram : ∀ v < 2 ^ 48, v ∉ mmioWindow → eptView c.eptMemOps st.ept v = ramView c.memory v
  backed : ∃ claims, st.Backed c.eptMemOps claims

theorem VmConfig.Valid.serves (h : c.Valid) : Serves c.eptMemOps :=
  ⟨.ept c.info c.forceTweak c.enforce4kIpage h.ptPool, h.ptPool, h.window⟩

/-- Guest memory ends below the MMIO window. -/
theorem VmMemConfig.Valid.not_mem_window (h : memory.Valid) {v : ℕ} (hv : v < memory.size.toNat) :
    v ∉ mmioWindow := fun hin => absurd (hv.trans_le h.size_le) (Nat.not_lt.mpr hin.1)

/-- Outside the pages of a BAR its mapping does not show. -/
theorem EptOk.view_unmapVbar (hserves : Serves ops) (h : EptOk ops ept) {vdev : PciVdev} {idx v : ℕ}
    (hfits : (vdev.bar idx).base ≠ 0#64 → (vdev.bar idx).Fits) (hv : v < 2 ^ 48)
    (hout : v ∉ mmioWindow) :
    eptView ops (vdevPtUnmapMemVbar ops vdev idx ept) v = eptView ops ept v := by
  obtain ⟨hknown, hpool, hwin⟩ := hserves
  have hpages : v ∉ (vdev.bar idx).pages := fun hin => hout (PciBar.pages_subset hfits hin)
  rw [vdevPtUnmapMemVbar]
  split
  · next hbase =>
    rw [h.del_view hknown hpool ((hfits hbase).rangeEnd_le.trans hwin) hv,
      if_neg fun hin => hpages ⟨hbase, hin⟩]
  · rfl

theorem EptOk.view_mapVbar (hserves : Serves ops) (h : EptOk ops ept) {vdev : PciVdev} {idx v : ℕ}
    (hfits : (vdev.bar idx).base ≠ 0#64 → (vdev.bar idx).Fits) (hv : v < 2 ^ 48)
    (hout : v ∉ mmioWindow) :
    eptView ops (vdevPtMapMemVbar ops vdev idx ept) v = eptView ops ept v := by
  obtain ⟨hknown, hpool, hwin⟩ := hserves
  have hpages : v ∉ (vdev.bar idx).pages := fun hin => hout (PciBar.pages_subset hfits hin)
  rw [vdevPtMapMemVbar]
  split
  · next hbase =>
    have hend := (hfits hbase).rangeEnd_le.trans hwin
    obtain ⟨hdel, hmap⟩ := h.del hknown hpool hend
    have hfree : ∀ v ∈ pageRange (vdev.bar idx).base.toNat (vdev.bar idx).size.toNat,
        gpa2hpa ops (eptDelMr ops ops.info.pml4Base (vdev.bar idx).base.toNat
          (vdev.bar idx).size.toNat ept) v = none := by
      intro v hv
      rw [hmap v (hv.2.trans_le (hend.trans ops.info.window_le)), if_pos hv]
    have hne : v ∉ pageRange (vdev.bar idx).base.toNat (vdev.bar idx).size.toNat :=
      fun hin => hpages ⟨hbase, hin⟩
    rw [hdel.add_view hknown hpool hend (vbarProt_ok hknown) (hfits hbase).hpa_lt hfree hv,
      if_neg hne, h.del_view hknown hpool hend hv, if_neg hne]
  · rfl

/-- A BAR moves inside the window. -/
theorem VmConfig.Contains.move (hc : c.Valid) (h : c.Contains st)
    (hm : Vm.Moved c.eptMemOps b st st') : c.Contains st' := by
  have hserves := hc.serves
  obtain ⟨hknown, hpool, hwin⟩ := hc.serves
  obtain ⟨claims, hclaims⟩ := h.backed
  have hunmap := (h.ept.unmapVbar hknown hpool hwin hm.old).1
  refine ⟨?_, fun v hv hout => ?_, _, hclaims.move hserves hm⟩
  · rw [hm.ept]
    exact (hunmap.mapVbar hknown hpool hwin (hm.new b)).1
  · rw [hm.ept, hunmap.toEptOk.view_mapVbar hserves (hm.new b) hv hout,
      h.ept.toEptOk.view_unmapVbar hserves hm.old hv hout]
    exact h.ram v hv hout

/-- A violation changes no view. -/
theorem VmConfig.Contains.violation (hc : c.Valid) (h : c.Contains st) {exitQual gpa : Word}
    {vcpu vcpu' : FaultVcpu} {ept : PgMem} (hgpa : gpa.toNat < 2 ^ 48)
    (hrun : eptViolationVmexitHandler c.eptMemOps exitQual gpa vcpu st.ept = some (vcpu', ept)) :
    c.Contains { st with ept } := by
  obtain ⟨hopen, -, hview⟩ := h.ept.violation hc.serves.known hc.ptPool rfl hgpa hrun
  obtain ⟨claims, hclaims⟩ := h.backed
  refine ⟨hopen, fun v hv hout => (hview v hv).trans (h.ram v hv hout), claims,
    hopen.toEptOk, hclaims.sound, hclaims.part, fun v hv => ?_⟩
  have hv48 := mmioWindow_lt hv
  refine Eq.trans ?_ (hclaims.map v hv)
  rw [gpa2hpa_eq_view hopen.sound hv48, hview v hv48, ← gpa2hpa_eq_view h.ept.sound hv48]

theorem VmConfig.Created.contains (hc : c.Valid) (h : c.Created st) : st.Inv ∧ c.Contains st := by
  obtain ⟨s, hboot, hept⟩ := h.ept
  have hmapped := preparePrelaunchedVmMemmap_spec c.info c.forceTweak c.enforce4kIpage hc.ptPool
    hc.window hc.memory (createEpt_mappedTo hc.serves.known.lawful hboot c.memory)
  have hopen : EptOpen c.eptMemOps st.ept := by
    rw [hept]
    exact hmapped.kept
  have hview : ∀ v < 2 ^ 48, eptView c.eptMemOps st.ept v = ramView c.memory v := by
    intro v hv
    rw [hept]
    refine (hmapped.view v hv).trans ?_
    split
    · rfl
    · next hout => rw [ramView, if_neg hout]
  have hfree : ∀ v ∈ mmioWindow, gpa2hpa c.eptMemOps st.ept v = none := by
    intro v hv
    have hv48 := mmioWindow_lt hv
    rw [gpa2hpa_eq_view hopen.sound hv48, hview v hv48, ramView,
      if_neg fun hlt => hc.memory.not_mem_window hlt hv, Option.map_none]
  exact ⟨⟨fun d => (h.dev d).1, fun d => setUp_of_fresh (h.dev d).2, h.cfg⟩, hopen,
    fun v hv _ => hview v hv, _, Vm.backed_of_fresh hopen.toEptOk hfree fun d => (h.dev d).2⟩

/-- **Every step keeps the guest where it belongs.** -/
theorem GuestStep.contains (hc : c.Valid) {a : GuestStep c.devices} (h : a.Leads c.eptMemOps st st')
    (hinv : st.Inv) (hst : c.Contains st) : st'.Inv ∧ c.Contains st' := by
  have hmove : ∀ b (st st' : Vm c.devices), Vm.Moved c.eptMemOps b st st' →
      Vm.Source (fun _ _ _ => True) b st st' → c.Contains st → c.Contains st' :=
    fun _ _ _ hm _ h => h.move hc hm
  cases a with
  | initVdev d =>
    obtain ⟨hfresh, rfl⟩ := h
    exact hinv.initVdev hmove hst hfresh
  | writeVbar d idx val =>
    obtain ⟨-, rfl⟩ := h
    exact hinv.writeVbar hmove hst trivial
  | violation exitQual gpa vcpu =>
    obtain ⟨hgpa, vcpu', ept, hrun, rfl⟩ := h
    exact ⟨⟨hinv.conf, hinv.setUp, hinv.cfg⟩, hst.violation hc hgpa hrun⟩

/-- Aligned writes keep the BARs aligned. -/
theorem GuestStep.alignedBars {a : GuestStep c.devices} (h : a.Leads c.eptMemOps st st')
    (hok : ∀ d idx val, a = .writeVbar d idx val → (st.dev d).vdev.Aligned idx val)
    (hinv : st.Inv) (haligned : st.AlignedBars) : st'.AlignedBars := by
  have hmove : ∀ b (st st' : Vm c.devices), Vm.Moved c.eptMemOps b st st' →
      Vm.Source PciVdev.Aligned b st st' → st.AlignedBars → st'.AlignedBars :=
    fun _ _ _ hm hsource h => h.move hm hsource
  cases a with
  | initVdev d =>
    obtain ⟨hfresh, rfl⟩ := h
    exact (hinv.initVdev hmove haligned hfresh).2
  | writeVbar d idx val =>
    obtain ⟨-, rfl⟩ := h
    exact (hinv.writeVbar hmove haligned (hok d idx val rfl)).2
  | violation exitQual gpa vcpu =>
    obtain ⟨-, vcpu', ept, -, rfl⟩ := h
    exact haligned

/-- What holds of one VM in every state, whatever the others do. -/
theorem guest_invariant {c : ι → VmConfig} (hc : ∀ i, (c i).Valid) {st : ∀ i, Vm (c i).devices}
    {Ok : (∀ i, Vm (c i).devices) → (Σ i, GuestStep (c i).devices) → Prop}
    (h : Reach (guestSystem c) Ok st) (i : ι) : (st i).Inv ∧ (c i).Contains (st i) := by
  refine h.invariant (P := fun st => (st i).Inv ∧ (c i).Contains (st i)) ?_ ?_
  · intro st hinit
    exact (hinit i).contains (hc i)
  · rintro st ⟨j, a⟩ st' - ⟨vm, hleads, rfl⟩ ⟨hinv, hst⟩
    by_cases hij : i = j
    · subst hij
      rw [Function.update_self]
      exact GuestStep.contains (hc i) hleads hinv hst
    · rw [Function.update_of_ne hij]
      exact ⟨hinv, hst⟩

theorem guest_aligned {c : ι → VmConfig} (hc : ∀ i, (c i).Valid) {st : ∀ i, Vm (c i).devices}
    (h : Reach (guestSystem c) (AlignedWrites c) st) (i : ι) : (st i).AlignedBars := by
  refine (h.invariant (P := fun st => ((st i).Inv ∧ (c i).Contains (st i)) ∧ (st i).AlignedBars)
    ?_ ?_).2
  · intro st hinit
    exact ⟨(hinit i).contains (hc i), Vm.alignedBars_of_fresh fun d => ((hinit i).dev d).2⟩
  · rintro st ⟨j, a⟩ st' hok ⟨vm, hleads, rfl⟩ ⟨⟨hinv, hst⟩, haligned⟩
    by_cases hij : i = j
    · subst hij
      rw [Function.update_self]
      refine ⟨GuestStep.contains (hc i) hleads hinv hst, GuestStep.alignedBars hleads ?_ hinv
        haligned⟩
      cases a with
      | initVdev d => exact fun _ _ _ ha => (by cases ha)
      | violation exitQual gpa vcpu => exact fun _ _ _ ha => (by cases ha)
      | writeVbar d idx val =>
        intro d' idx' val' ha
        obtain ⟨rfl, rfl, rfl⟩ := GuestStep.writeVbar.inj ha
        exact hok
    · rw [Function.update_of_ne hij]
      exact ⟨⟨hinv, hst⟩, haligned⟩

/-! ## Isolation -/

/-- Guest memory is where it was mapped, with its memory type. -/
theorem VmConfig.Contains.mapped (hc : c.Valid) (h : c.Contains st) {g : ℕ}
    (hg : g < c.memory.size.toNat) :
    gpa2hpa c.eptMemOps st.ept g = some (c.memory.startHpa.toNat + g) ∧
      memType c.eptMemOps st.ept g = some (ramType g) := by
  have hwin := hc.memory.not_mem_window hg
  have hg48 : g < 2 ^ 48 := hg.trans_le (hc.memory.size_le.trans (by decide))
  have hview := h.ram g hg48 hwin
  rw [ramView, if_pos hg] at hview
  refine ⟨?_, ?_⟩
  · rw [gpa2hpa_eq_view h.ept.sound hg48, hview, Option.map_some]
  · have htype : snooped (eptRwx ||| ramType g) &&& viewMask &&& eptMtMask = ramType g := by
      rw [ramType]
      split
      · decide
      · decide
    rw [memType_eq_view h.ept.sound hg48, hview, Option.map_some, htype]

/-- Nothing else is mapped outside the window. -/
theorem VmConfig.Contains.unmapped (h : c.Contains st) {g : ℕ} (hg : g < 2 ^ 48)
    (hsize : c.memory.size.toNat ≤ g) (hout : g ∉ mmioWindow) :
    gpa2hpa c.eptMemOps st.ept g = none := by
  rw [gpa2hpa_eq_view h.ept.sound hg, h.ram g hg hout, ramView, if_neg (Nat.not_lt.mpr hsize),
    Option.map_none]

/-- What a guest reaches is its own memory, or in a BAR of one of its devices. -/
theorem VmConfig.Contains.reached (hc : c.Valid) (h : c.Contains st) (hinv : st.Inv)
    (haligned : st.AlignedBars) {g : ℕ} (hg : g < 2 ^ 48) {hpa : ℕ}
    (hmap : gpa2hpa c.eptMemOps st.ept g = some hpa) :
    hpa ∈ c.memory.hostRange ∨ st.InDeviceBar hpa := by
  by_cases hin : g ∈ mmioWindow
  · obtain ⟨claims, hclaims⟩ := h.backed
    exact .inr (hclaims.inDeviceBar hinv haligned hin hmap)
  · by_cases hsize : g < c.memory.size.toNat
    · rw [(h.mapped hc hsize).1, Option.some.injEq] at hmap
      subst hmap
      exact .inl ⟨Nat.le_add_right _ g, Nat.add_lt_add_left hsize _⟩
    · rw [h.unmapped hg (Nat.not_lt.mp hsize) hin] at hmap
      cases hmap

/-- **Guest memory stays with its guest.** As long as no guest puts a BAR at an unaligned
address, guest memory is mapped in one piece with its memory type; outside of it and of the MMIO
window nothing is mapped; and whatever a guest reaches is its own memory or in a BAR of one of
its devices, so it is the memory of another guest in no other way. -/
theorem guest_memory_isolated {c : ι → VmConfig} (hc : ∀ i, (c i).Valid)
    (hdisjoint : ∀ i j, i ≠ j → Disjoint (c i).memory.hostRange (c j).memory.hostRange)
    {st : ∀ i, Vm (c i).devices} (h : Reach (guestSystem c) (AlignedWrites c) st) (i : ι) :
    let gpa2hpa := gpa2hpa (c i).eptMemOps (st i).ept
    (∀ g < (c i).memory.size.toNat, gpa2hpa g = some ((c i).memory.startHpa.toNat + g) ∧
      memType (c i).eptMemOps (st i).ept g = some (ramType g)) ∧
    (∀ g < 2 ^ 48, (c i).memory.size.toNat ≤ g → g ∉ mmioWindow → gpa2hpa g = none) ∧
    (∀ g < 2 ^ 48, ∀ hpa, gpa2hpa g = some hpa →
      hpa ∈ (c i).memory.hostRange ∨ (st i).InDeviceBar hpa) ∧
    ∀ j, j ≠ i → ∀ g < 2 ^ 48, ∀ hpa, gpa2hpa g = some hpa → hpa ∈ (c j).memory.hostRange →
      (st i).InDeviceBar hpa := by
  obtain ⟨hinv, hst⟩ := guest_invariant hc h i
  have haligned := guest_aligned hc h i
  have hreached : ∀ g < 2 ^ 48, ∀ hpa, gpa2hpa (c i).eptMemOps (st i).ept g = some hpa →
      hpa ∈ (c i).memory.hostRange ∨ (st i).InDeviceBar hpa :=
    fun g hg hpa hmap => hst.reached (hc i) hinv haligned hg hmap
  refine ⟨fun g hg => hst.mapped (hc i) hg, fun g hg hsize hout => hst.unmapped hg hsize hout,
    hreached, fun j hj g hg hpa hmap hother => ?_⟩
  refine (hreached g hg hpa hmap).resolve_left fun hown => ?_
  exact Set.disjoint_left.mp (hdisjoint i j hj.symm) hown hother

/-! ## Two guests -/

/-- Two VMs with 1 GByte each from 4 GByte on, and a device with a small BAR. -/
def twoGuests (i : Fin 2) : VmConfig where
  memory := ⟨if i = 0 then 0x100000000#64 else 0x140000000#64, 0x40000000#64⟩
  info := uosLayout
  forceTweak := true
  enforce4kIpage := true
  devices := 1

theorem twoGuests_memory (i : Fin 2) :
    (twoGuests i).memory.startHpa.toNat = 0x100000000 + 0x40000000 * i.val ∧
      (twoGuests i).memory.size.toNat = 0x40000000 := by
  revert i
  decide

theorem twoGuests_valid (i : Fin 2) : (twoGuests i).Valid := by
  obtain ⟨hstart, hsize⟩ := twoGuests_memory i
  have hi := i.isLt
  refine ⟨⟨?_, ?_, ?_, ?_, ?_⟩, rfl, show pciVbarTopLimit ≤ uosLayout.window by decide⟩
  · rw [hstart]
    exact Nat.dvd_add (by decide) (Dvd.dvd.mul_right (by decide) _)
  · rw [hsize]
    decide
  · rw [hsize]
    decide
  · rw [hsize]
    decide
  · rw [hstart, hsize]
    omega

theorem twoGuests_disjoint (i j : Fin 2) (h : i ≠ j) :
    Disjoint (twoGuests i).memory.hostRange (twoGuests j).memory.hostRange := by
  rw [Set.disjoint_left]
  rintro hpa ⟨hge, hlt⟩ ⟨hge', hlt'⟩
  obtain ⟨hstart, hsize⟩ := twoGuests_memory i
  obtain ⟨hstart', hsize'⟩ := twoGuests_memory j
  have hne : i.val ≠ j.val := fun hval => h (Fin.ext hval)
  omega

/-- Both are created. -/
def twoGuestsCreated (i : Fin 2) : Vm (twoGuests i).devices where
  ept := preparePrelaunchedVmMemmap (twoGuests i).eptMemOps (twoGuests i).memory
    (createEpt (twoGuests i).eptMemOps (bootMem (twoGuests i).eptMemOps))
  dev _ := smallBarDev 0xF0000000#32

theorem twoGuestsCreated_init : (guestSystem twoGuests).init twoGuestsCreated := fun _ =>
  ⟨⟨_, beforeCreate_bootMem _, rfl⟩, fun _ => ⟨smallBarDev_conforms (.inl rfl), fun _ _ => rfl⟩,
    fun _ _ => show pageSize ∣ 0 ∧ 0 < 2 ^ 32 by decide⟩

/-- The first guest has its device initialised. -/
def twoGuestsUp : ∀ i, Vm (twoGuests i).devices :=
  Function.update twoGuestsCreated 0
    ((twoGuestsCreated 0).initVdev (twoGuests 0).eptMemOps (0 : Fin 1))

/-- It puts the BAR of the device at `base`. -/
def twoGuestsPlaced (base : Reg) : ∀ i, Vm (twoGuests i).devices :=
  Function.update twoGuestsUp 0
    ((twoGuestsUp 0).writeVbar (twoGuests 0).eptMemOps (0 : Fin 1) 0 base)

theorem twoGuestsPlaced_reach (Ok : (∀ i, Vm (twoGuests i).devices) →
      (Σ i, GuestStep (twoGuests i).devices) → Prop) (base : Reg)
    (hinit : Ok twoGuestsCreated ⟨0, .initVdev (0 : Fin 1)⟩)
    (hwrite : Ok twoGuestsUp ⟨0, .writeVbar (0 : Fin 1) 0 base⟩) :
    Reach (guestSystem twoGuests) Ok twoGuestsUp ∧
      Reach (guestSystem twoGuests) Ok (twoGuestsPlaced base) := by
  have hup : Reach (guestSystem twoGuests) Ok twoGuestsUp :=
    (Reach.init twoGuestsCreated_init).step hinit ⟨_, ⟨fun _ _ => rfl, rfl⟩, rfl⟩
  exact ⟨hup, hup.step hwrite ⟨_, ⟨show 0 < pciBarCount by decide, rfl⟩, rfl⟩⟩

theorem guest_memory_isolated_two :
    let st := twoGuestsPlaced 0xC0001000#32
    gpa2hpa (twoGuests 0).eptMemOps (st 0).ept 0x2345 = some 0x100002345 ∧
      memType (twoGuests 0).eptMemOps (st 0).ept 0x2345 = some eptWb ∧
      gpa2hpa (twoGuests 0).eptMemOps (st 0).ept 0x80000000 = none ∧
      gpa2hpa (twoGuests 1).eptMemOps (st 1).ept 0xC0001000 ≠ some 0x100002345 := by
  intro st
  have hrun := (twoGuestsPlaced_reach (AlignedWrites twoGuests) 0xC0001000#32 trivial
    fun _ _ => by decide +kernel).2
  obtain ⟨hram, hrest, -, -⟩ := guest_memory_isolated twoGuests_valid twoGuests_disjoint hrun 0
  obtain ⟨-, -, -, hother⟩ := guest_memory_isolated twoGuests_valid twoGuests_disjoint hrun 1
  obtain ⟨hmap, htype⟩ := hram 0x2345 (by decide)
  refine ⟨hmap, htype.trans (by decide), hrest 0x80000000 (by decide) (by decide)
    fun hin => absurd hin.1 (by decide), fun hleak => ?_⟩
  have hbar := hother 0 (by decide) 0xC0001000 (by decide) _ hleak ⟨by decide, by decide⟩
  obtain ⟨d, idx, a, k, hbar, x, hge, hlt, hx⟩ := hbar
  obtain rfl : d = (0 : Fin 1) := Subsingleton.elim (α := Fin 1) _ _
  obtain ⟨rfl, rfl⟩ := smallBarDev_memBar hbar
  simp only [pageSize] at hx
  omega

/-- With its BAR at `0xC0000800` the guest reaches the page after that of the device. -/
theorem guest_memory_unaligned :
    let st := twoGuestsPlaced 0xC0000800#32
    Reach (guestSystem twoGuests) any st ∧ (∀ i, (twoGuests i).Valid) ∧
      (∀ i j, i ≠ j →
        Disjoint (twoGuests i).memory.hostRange (twoGuests j).memory.hostRange) ∧
      gpa2hpa (twoGuests 0).eptMemOps (st 0).ept 0xC0001000 = some 0xF0001000 ∧
      0xF0001000 ∉ (twoGuests 0).memory.hostRange ∧ ¬ (st 0).InDeviceBar 0xF0001000 := by
  intro st
  obtain ⟨hup, hrun⟩ := twoGuestsPlaced_reach any 0xC0000800#32 trivial trivial
  obtain ⟨hinv, hst⟩ := guest_invariant twoGuests_valid hup 0
  have hmap := Vm.writeVbar_mapped (twoGuests_valid 0).serves hinv hst.ept.toEptOk (0 : Fin 1) 0
    0xC0000800#32 (by decide +kernel) (v := 0xC0001000) (by decide +kernel)
  refine ⟨hrun, twoGuests_valid, twoGuests_disjoint, hmap.trans (by decide +kernel),
    fun hin => ?_, ?_⟩
  · exact absurd hin.1 (by decide)
  · rintro ⟨d, idx, a, k, hbar, x, hge, hlt, hx⟩
    obtain rfl : d = (0 : Fin 1) := Subsingleton.elim (α := Fin 1) _ _
    have hcreated := ((twoGuestsCreated_init 0).contains (twoGuests_valid 0)).1
    have hdev : ((twoGuestsUp 0).dev (0 : Fin 1)).pdev = (smallBarDev 0xF0000000#32).pdev :=
      @Vm.initVdev_pdev (twoGuests 0).eptMemOps 1 (twoGuestsCreated 0) hcreated 0 (fun _ _ => rfl) 0
    have hpdev : ((st 0).dev (0 : Fin 1)).pdev = (smallBarDev 0xF0000000#32).pdev :=
      (Vm.writeVbar_pdev (twoGuestsUp 0) (0 : Fin 1) 0 0xC0000800#32 (0 : Fin 1)).trans hdev
    rw [hpdev] at hbar
    obtain ⟨rfl, rfl⟩ := smallBarDev_memBar hbar
    simp only [pageSize] at hx
    omega

end Acrn
