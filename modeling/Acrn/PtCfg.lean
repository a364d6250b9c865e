import Acrn.Vmsi

/-!
# Configuration space of pass-through devices

`vpci_write_pt_dev_cfg` and `vpci_read_pt_dev_cfg`, with the initialisation of a device. A
guest reaches the command and status registers of the physical device and, through the virtual
capability, its MSI registers. Everything else stays in the virtual configuration space. Legacy
interrupts are masked by the initialisation, and a write cannot unmask them.
-/

namespace Acrn

open BitField RegAccess

/-- `PCIR_COMMAND`. -/
abbrev pcirCommand : ℕ := 0x04
/-- `PCIR_REVID`. -/
abbrev pcirRevid : ℕ := 0x08
/-- `PCIR_INTERRUPT_PIN`. -/
abbrev pcirInterruptPin : ℕ := 0x3D
/-- `PCIM_CMD_INTXDIS`. -/
def pcimCmdIntxdis : Reg := 0x400#32
/-- `PCI_USB_CONTROLLER`. -/
def pciUsbController : BitVec 16 := 0xA0#16
/-- `PCI_ETH_CONTROLLER`. -/
def pciEthController : BitVec 16 := 0xFE#16

/-! ## Reads and writes -/

/-- What a write to a device may act on: the device, the EPT of its virtual machine and the
remapping unit. -/
structure PtCfg where
  vdev : VpciVdev
  ept : PgMem
  unit : DmarUnit

/-- `pci_bar_index`. -/
def pciBarIndex (offset : ℕ) : ℕ := (offset - pciBarOffset 0) / 4

/-- The value that is forwarded to the command and status registers. -/
def commandValue (offset bytes : ℕ) (val : Reg) : Reg :=
  if offset = pcirCommand + 1 ∧ bytes = 1 then val ||| pcimCmdIntxdis >>> 8
  else if offset = pcirCommand ∧ (bytes = 2 ∨ bytes = 4) then val ||| pcimCmdIntxdis
  else val

section

variable (ops : MemoryOps) (m : Machine) (lapicLdr : PcpuId → U32) (vmId : ℕ)

/-- `vpci_write_pt_dev_cfg`. -/
def vpciWritePtDevCfg (s : PtCfg) (offset bytes : ℕ) (val : Reg) : PtCfg :=
  if s.vdev.vbarAccess offset then
    -- a BAR is written as a whole or not at all
    if bytes = 4 ∧ offset % 4 = 0 then
      let (cfg, ept) := vdevPtWriteVbar ops (pciBarIndex offset) val s.vdev.toPciVdev s.ept
      { s with vdev := { s.vdev with toPciVdev := cfg }, ept }
    else s
  else if s.vdev.msicapAccess offset then
    let (vdev, unit) := vmsiWriteCfg m lapicLdr vmId s.vdev s.unit offset bytes val
    { s with vdev, unit }
  else if pcirCommand ≤ offset ∧ offset < pcirRevid then
    let pdev := s.vdev.pdev.pciPdevWriteCfg offset bytes (commandValue offset bytes val)
    { s with vdev := { s.vdev with pdev } }
  else s

end

/-- `vpci_read_pt_dev_cfg`. -/
def vpciReadPtDevCfg (vdev : VpciVdev) (offset bytes : ℕ) : Reg :=
  if vdev.vbarAccess offset then
    if bytes = 4 ∧ offset % 4 = 0 then pciVdevReadBar vdev.toPciVdev (pciBarIndex offset)
    else ~~~0#32
  else if pcirCommand ≤ offset ∧ offset < pcirRevid then vdev.pdev.pciPdevReadCfg offset bytes
  else pciVdevReadCfg vdev.toPciVdev offset bytes

/-! ## Initialisation -/

/-- `struct pci_dev_fields`. -/
structure PciDevFields where
  offset : ℕ
  length : ℕ

/-- The fields of the Ethernet controller. -/
def ethFields : List PciDevFields := [⟨0xa4, 4⟩, ⟨0xa8, 4⟩]

/-- The fields of the USB controller. -/
def usbFields : List PciDevFields :=
  [⟨0x40, 4⟩, ⟨0x44, 4⟩, ⟨0x50, 4⟩, ⟨0x60, 2⟩, ⟨0x94, 4⟩, ⟨0xa4, 2⟩, ⟨0xb0, 4⟩, ⟨0xb4, 4⟩,
    ⟨0xb8, 4⟩, ⟨0xbc, 4⟩, ⟨0xd0, 4⟩, ⟨0xd4, 4⟩, ⟨0xd8, 1⟩]

/-- The fields of the header, without the BARs. -/
def headerFields : List PciDevFields :=
  (List.range 16).filterMap fun index =>
    if index < 4 ∨ 4 + pciBarCount - 1 < index then some ⟨4 * index, 4⟩ else none

/-- Physical fields are copied into the virtual configuration space. -/
def copyFields (pdev : PciDevice) (fields : List PciDevFields) (cfg : PciVdev) : PciVdev :=
  fields.foldl (fun cfg f =>
    pciVdevWriteCfg cfg f.offset f.length (pdev.pciPdevReadCfg f.offset f.length)) cfg

/-- `init_default_cfg`. -/
def initDefaultCfg (vdev : VpciVdev) : VpciVdev :=
  -- legacy interrupts are masked before anything is copied
  let pciCommand := vdev.pdev.pciPdevReadCfg pcirCommand 2 ||| pcimCmdIntxdis
  let pdev := vdev.pdev.pciPdevWriteCfg pcirCommand 2 pciCommand
  let cfg := copyFields pdev headerFields vdev.toPciVdev
  let cfg := pciVdevWriteCfg cfg pcirInterruptPin 1 0#32
  let fields := if vdev.pbdf = pciUsbController then usbFields
    else if vdev.pbdf = pciEthController then ethFields else []
  { vdev with toPciVdev := copyFields pdev fields cfg, pdev }

/-- `init_vdev_pt` on the whole device. -/
def initVdevPtCfg (ops : MemoryOps) (vdev : VpciVdev) (ept : PgMem) : VpciVdev × PgMem :=
  let (dev, ept) := initVdevPt ops ⟨vdev.pdev.toPciPdev, vdev.toPciVdev⟩ ept
  ({ vdev with
    toPciVdev := dev.vdev
    nrBars := pciBarCount
    pdev := { vdev.pdev with toPciPdev := dev.pdev } }, ept)

/-- `vpci_init_pt_dev`. -/
def vpciInitPtDev (ops : MemoryOps) (fuel : ℕ) (vdev : VpciVdev) (ept : PgMem) :
    Option (VpciVdev × PgMem) := do
  let vdev ← initVmsi fuel (initDefaultCfg vdev)
  return initVdevPtCfg ops vdev ept

/-! ## What a write reaches

A write comes to a BAR, to the MSI capability, to the command and status registers, or to the
virtual space only. `forwarded` has the physical registers of these cases. -/

open VpciVdev

/-- The registers of the physical device that writes are forwarded to. -/
def VpciVdev.forwarded (vdev : VpciVdev) : Set ℕ :=
  {r | r = 1 ∨ vdev.hasMsiCap = true ∧ r ∈ vdev.msiRegs}

/-- A capability that is there is where it should be. -/
def VpciVdev.MsiWhere (vdev : VpciVdev) : Prop := vdev.hasMsiCap = true → vdev.MsiPlaced

theorem hasMsiCap_of_msicapAccess {vdev : VpciVdev} {offset : ℕ}
    (h : vdev.msicapAccess offset = true) : vdev.hasMsiCap = true := by
  rw [msicapAccess, Bool.and_eq_true] at h
  exact h.1

/-- The register of a BAR is the one at the offset. -/
theorem pciBarOffset_pciBarIndex {vdev : VpciVdev} {offset : ℕ}
    (h : vdev.vbarAccess offset = true) : pciBarOffset (pciBarIndex offset) / 4 = offset / 4 := by
  rw [vbarAccess, Bool.and_eq_true, decide_eq_true_eq] at h
  have hge := h.1
  unfold pciBarOffset at hge ⊢
  unfold pciBarIndex pciBarOffset
  omega

/-- The command register is not one of the MSI registers. -/
theorem one_not_mem_msiRegs {vdev : VpciVdev} (h : vdev.MsiPlaced) : 1 ∉ vdev.msiRegs := by
  intro hmem
  have hle := h.le
  have hmem := hmem.1
  omega

/-- Interrupt Disable is set in what is forwarded, whenever it is written at all. -/
theorem commandValue_intxdis {offset bytes : ℕ} (haligned : Aligned offset bytes)
    (hge : pcirCommand ≤ offset) (hlt : offset < pcirRevid) (val : Reg)
    (hlane : (lanes offset bytes).getLsbD 10 = true) :
    (commandValue offset bytes val <<< shift offset bytes).getLsbD 10 = true := by
  rw [getLsbD_lanes, haligned.shift_eq, haligned.width_eq, Bool.and_eq_true, decide_eq_true_eq,
    decide_eq_true_eq] at hlane
  rw [BitVec.getLsbD_shiftLeft, haligned.shift_eq, commandValue]
  unfold pcirCommand at hge ⊢
  unfold pcirRevid at hlt
  obtain ⟨rfl | rfl | rfl, hdvd⟩ := haligned
  · -- the byte that holds bits 8 to 15
    obtain rfl : offset = 5 := by omega
    simp [pcimCmdIntxdis]
  · -- the word of the command register; the one behind has no bit 10
    obtain rfl : offset = 4 := by omega
    simp [pcimCmdIntxdis]
  · obtain rfl : offset = 4 := by omega
    simp [pcimCmdIntxdis]

section

variable (ops : MemoryOps) (m : Machine) (lapicLdr : PcpuId → U32) (vmId : ℕ) (s : PtCfg)
  {offset bytes : ℕ} (val : Reg)

/-- The physical device after a write: nothing but what is forwarded has changed. -/
theorem vpciWritePtDevCfg_pdev (hmsi : s.vdev.MsiWhere) :
    PciDevice.ChangesOnly s.vdev.forwarded s.vdev.pdev
      (vpciWritePtDevCfg ops m lapicLdr vmId s offset bytes val).vdev.pdev := by
  rw [vpciWritePtDevCfg]
  split
  · split <;> exact .refl _ _
  split
  · next haccess =>
    have hcap := hasMsiCap_of_msicapAccess haccess
    exact (vmsiWriteCfg_pdev m lapicLdr s.unit (hmsi hcap) vmId offset bytes val).mono
      fun r hr => .inr ⟨hcap, hr⟩
  split
  · next hcommand =>
    refine .pciPdevWriteCfg _ _ (.inl ?_)
    unfold pcirCommand pcirRevid at hcommand
    omega
  · exact .refl _ _

/-- Interrupt Disable stays set. -/
theorem vpciWritePtDevCfg_intxdis (hmsi : s.vdev.MsiWhere) (haligned : Aligned offset bytes)
    (hwritable : (s.vdev.pdev.writable 1).getLsbD 10 = true)
    (hset : (s.vdev.pdev.reg 1).getLsbD 10 = true) :
    ((vpciWritePtDevCfg ops m lapicLdr vmId s offset bytes val).vdev.pdev.reg 1).getLsbD 10 =
      true := by
  rw [vpciWritePtDevCfg]
  split
  · split <;> exact hset
  split
  · next haccess =>
    -- the capability is elsewhere
    have hplaced := hmsi (hasMsiCap_of_msicapAccess haccess)
    have hpdev := vmsiWriteCfg_pdev m lapicLdr s.unit hplaced vmId offset bytes val
    dsimp only
    rwa [hpdev.reg 1 (one_not_mem_msiRegs hplaced)]
  split
  · next hcommand =>
    have hdiv : offset / 4 = 1 := by
      unfold pcirCommand pcirRevid at hcommand
      omega
    dsimp only
    rw [← hdiv, PciDevice.pciPdevWriteCfg_self, hdiv]
    cases hlane : (lanes offset bytes).getLsbD 10 with
    | false => rwa [PciDevice.getLsbD_onWrite_of_not_lane _ hlane]
    | true =>
      rw [PciDevice.getLsbD_onWrite_of_lane _ hlane hwritable]
      exact commandValue_intxdis haligned hcommand.1 hcommand.2 val hlane
  · exact hset

/-- Registers that differ in the lanes of an access at most. -/
structure LanesOnly (offset bytes : ℕ) (regs regs' : ℕ → Reg) : Prop where
  other : ∀ r, r ≠ offset / 4 → regs' r = regs r
  bits : regs' (offset / 4) &&& ~~~lanes offset bytes =
    regs (offset / 4) &&& ~~~lanes offset bytes

theorem LanesOnly.refl (regs : ℕ → Reg) : LanesOnly offset bytes regs regs :=
  ⟨fun _ _ => rfl, rfl⟩

/-- Only the lanes of an access change, in the virtual configuration space and in the physical
one. A write to the MSI capability gives the physical device a message of the hypervisor. -/
structure CfgLanes (offset bytes : ℕ) (v v' : VpciVdev) : Prop where
  same : SameShape v v'
  virt : LanesOnly offset bytes v.cfgdata v'.cfgdata
  phys : v.msicapAccess offset = false → LanesOnly offset bytes v.pdev.reg v'.pdev.reg

theorem CfgLanes.refl (v : VpciVdev) : CfgLanes offset bytes v v :=
  ⟨.refl _, .refl _, fun _ => .refl _⟩

/-- A write to the physical device. -/
theorem LanesOnly.pciPdevWriteCfg (d : PciDevice) (offset bytes : ℕ) (val : Reg) :
    LanesOnly offset bytes d.reg (d.pciPdevWriteCfg offset bytes val).reg := by
  refine ⟨fun r hr => d.pciPdevWriteCfg_of_ne offset bytes val hr, ?_⟩
  rw [PciDevice.pciPdevWriteCfg_self]
  apply BitVec.eq_of_getLsbD_eq
  intro i hi
  rw [BitVec.getLsbD_and, BitVec.getLsbD_and, BitVec.getLsbD_not]
  cases hlane : (lanes offset bytes).getLsbD i with
  | true => simp
  | false => rw [d.getLsbD_onWrite_of_not_lane hlane]

/-- A write to a vbar writes its register. -/
theorem vdevPtWriteVbar_cfgdata (idx : ℕ) (v : PciVdev) (ept : PgMem) {r : ℕ}
    (hr : r ≠ pciBarOffset idx / 4) :
    (vdevPtWriteVbar ops idx val v ept).1.cfgdata r = v.cfgdata r := by
  rw [vdevPtWriteVbar]
  split
  · rfl
  · exact Function.update_of_ne hr _ _

theorem vpciWritePtDevCfg_cfg :
    CfgLanes offset bytes s.vdev
      (vpciWritePtDevCfg ops m lapicLdr vmId s offset bytes val).vdev := by
  rw [vpciWritePtDevCfg]
  split
  · next hbar =>
    split
    · next hfour =>
      obtain ⟨rfl, hmod⟩ := hfour
      have hdiv := pciBarOffset_pciBarIndex hbar
      refine ⟨⟨rfl, rfl, rfl, rfl, rfl⟩, ⟨fun r hr => ?_, ?_⟩, fun _ => .refl _⟩
      · exact vdevPtWriteVbar_cfgdata ops val _ _ _ (by rwa [hdiv])
      · rw [lanes_four, BitVec.not_allOnes, BitVec.and_zero, BitVec.and_zero]
    · exact .refl _
  split
  · next haccess =>
    obtain ⟨hsame, x, hcfg⟩ := vmsiWriteCfg_cfg m lapicLdr s.unit s.vdev vmId offset bytes val
    refine ⟨hsame, ⟨fun r hr => ?_, ?_⟩, fun hnone => absurd (haccess.symm.trans hnone) (by decide)⟩
    · dsimp only
      rw [hcfg, pciVdevWriteCfg_of_ne _ _ _ _ hr]
    · dsimp only
      rw [hcfg, pciVdevWriteCfg_self, writeLanes_and_of_disjoint]
      exact BitVec.and_not_self _
  split
  · exact ⟨⟨rfl, rfl, rfl, rfl, rfl⟩, .refl _, fun _ => .pciPdevWriteCfg _ _ _ _⟩
  · exact .refl _

end

/-! ## After the initialisation

The walk through the capabilities of a device has found MSI where the specification allows it, so
that no later write to the capability comes to the command register. -/

/-- The offsets to which the list of capabilities of a device leads. -/
inductive CapAt (pdev : PciDevice) : ℕ → Prop where
  | first {ptr : Reg} : pdev.pciPdevReadCfg pcirCapPtr 1 = ptr → ptr ≠ 0#32 → ptr ≠ 0xFF#32 →
      CapAt pdev ptr.toNat
  | next {offset : ℕ} {ptr : Reg} : CapAt pdev offset →
      pdev.pciPdevReadCfg (offset + 1) 1 = ptr → ptr ≠ 0#32 → ptr ≠ 0xFF#32 →
      CapAt pdev ptr.toNat

/-- A device as the PCI specification has it: it implements Interrupt Disable, and its capabilities
are behind the header, at multiples of four. -/
structure PciDevice.PciConforms (pdev : PciDevice) : Prop where
  intxdis : (pdev.writable 1).getLsbD 10 = true
  caps : ∀ offset, CapAt pdev offset → 4 ∣ offset ∧ 0x40 ≤ offset

/-- The command register is no part of the list of capabilities. -/
theorem capAt_of_changesOnly {pdev pdev' : PciDevice} (h : PciDevice.ChangesOnly {1} pdev pdev')
    (hconf : pdev.PciConforms) {offset : ℕ} (hcap : CapAt pdev' offset) : CapAt pdev offset := by
  have hread : ∀ off bytes, 8 ≤ off →
      pdev'.pciPdevReadCfg off bytes = pdev.pciPdevReadCfg off bytes := by
    intro off bytes hoff
    have hne : off / 4 ∉ ({1} : Set ℕ) := by
      rw [Set.mem_singleton_iff]
      omega
    rw [PciDevice.pciPdevReadCfg, PciDevice.pciPdevReadCfg, h.reg _ hne]
  induction hcap with
  | first hptr hzero hall =>
    rw [hread _ _ (by decide)] at hptr
    exact .first hptr hzero hall
  | next _ hptr hzero hall ih =>
    rw [hread _ _ (by have := (hconf.caps _ ih).2; omega)] at hptr
    exact .next ih hptr hzero hall

/-- What the walk finds is a capability. -/
theorem findMsiCap_eq_some {pdev : PciDevice} {fuel found : ℕ} {val : Reg}
    (hval : val ≠ 0#32 → val ≠ 0xFF#32 → CapAt pdev val.toNat)
    (h : findMsiCap pdev fuel val = some found) : found = 0 ∨ CapAt pdev found := by
  induction fuel generalizing val with
  | zero => cases h
  | succ fuel ih =>
    rw [findMsiCap] at h
    split at h
    · next hptr =>
      have hcap := hval hptr.1 hptr.2
      split at h
      · cases h
        exact .inr hcap
      · exact ih (fun hzero hall => .next hcap rfl hzero hall) h
    · cases h
      exact .inl rfl

/-- `init_vmsi` leaves the physical device alone and finds the capability where it should be. -/
theorem initVmsi_spec {fuel : ℕ} {v v' : VpciVdev} (h : initVmsi fuel v = some v')
    (hzero : v.msi.capoff = 0) (hcaps : ∀ offset, CapAt v.pdev offset → 4 ∣ offset ∧ 0x40 ≤ offset) :
    v'.pdev = v.pdev ∧ v'.MsiWhere := by
  obtain ⟨found, hfind, rfl⟩ := initVmsi_eq_some h
  have hfound := findMsiCap_eq_some (fun hz ha => .first rfl hz ha) hfind
  have hpdev : (recordMsiCap v found).pdev = v.pdev := by
    rw [recordMsiCap]
    split <;> rfl
  have hcapoff : (recordMsiCap v found).msi.capoff = found := by
    rw [recordMsiCap]
    split
    · next heq => exact hzero.trans heq.symm
    · rfl
  have hwhere : (recordMsiCap v found).MsiWhere := by
    intro hcap
    rw [hasMsiCap, hcapoff, decide_eq_true_eq] at hcap
    obtain heq | hat := hfound
    · exact absurd heq hcap
    · obtain ⟨hdvd, hle⟩ := hcaps found hat
      exact ⟨hcapoff.symm ▸ hdvd, hcapoff.symm ▸ hle⟩
  split
  · next hcap =>
    obtain ⟨hdvd, hle⟩ := hwhere hcap
    exact ⟨hpdev, fun _ => ⟨hdvd, hle⟩⟩
  · exact ⟨hpdev, hwhere⟩

/-! ### `init_vdev_pt` -/

/-- Only the registers from the first BAR to the one behind the last are written. -/
structure BarRegsOnly (p p' : PciPdev) : Prop where
  writable : p'.writable = p.writable
  reg : ∀ r, r < 4 ∨ 10 < r → p'.reg r = p.reg r

namespace BarRegsOnly

theorem refl (p : PciPdev) : BarRegsOnly p p := ⟨rfl, fun _ _ => rfl⟩

theorem trans {p p₁ p₂ : PciPdev} (h : BarRegsOnly p p₁) (h' : BarRegsOnly p₁ p₂) :
    BarRegsOnly p p₂ :=
  ⟨h'.writable.trans h.writable, fun r hr => (h'.reg r hr).trans (h.reg r hr)⟩

theorem pciPdevProbe (p : PciPdev) {idx : ℕ} (hidx : idx ≤ pciBarCount) (val : Reg) :
    BarRegsOnly p (pciPdevProbe p (pciBarOffset idx) val).2 := by
  refine ⟨rfl, fun r hr => ?_⟩
  have hne : r ≠ pciBarOffset idx / 4 := by
    unfold pciBarOffset
    unfold pciBarCount at hidx
    omega
  exact (Function.update_of_ne hne _ _).trans (Function.update_of_ne hne _ _)

theorem initVbar (ops : MemoryOps) {idx : ℕ} (hidx : idx < pciBarCount) (dev : PtDev)
    (ept : PgMem) : BarRegsOnly dev.pdev (initVbar ops idx dev ept).2.1.pdev := by
  rw [Acrn.initVbar]
  dsimp only
  split
  · exact .refl _
  split
  · -- a BAR of 64 bits has two registers
    split
    · exact .refl _
    · exact (pciPdevProbe _ hidx.le _).trans (pciPdevProbe _ hidx _)
  · split
    · exact .refl _
    · exact pciPdevProbe _ hidx.le _

theorem initVbars (ops : MemoryOps) (n : ℕ) : ∀ (idx : ℕ) (dev : PtDev) (ept : PgMem),
    BarRegsOnly dev.pdev (initVbars ops n idx dev ept).1.pdev := by
  induction n with
  | zero => exact fun _ _ _ => .refl _
  | succ n ih =>
    intro idx dev ept
    rw [Acrn.initVbars]
    split
    · next hidx => exact (initVbar ops hidx dev ept).trans (ih _ _ _)
    · exact .refl _

end BarRegsOnly

/-- What holds of a pass-through device from its initialisation on. -/
structure VpciVdev.IntxMasked (vdev : VpciVdev) : Prop where
  msi : vdev.MsiWhere
  writable : (vdev.pdev.writable 1).getLsbD 10 = true
  set : (vdev.pdev.reg 1).getLsbD 10 = true

/-- A device as `vpci_init_pt_dev` leaves it, if it is one of those that the PCI specification
describes. -/
def VpciVdev.Initialised (vdev : VpciVdev) : Prop :=
  ∃ (ops : MemoryOps) (fuel : ℕ) (fresh : VpciVdev) (ept ept' : PgMem),
    fresh.pdev.PciConforms ∧ fresh.msi.capoff = 0 ∧
      vpciInitPtDev ops fuel fresh ept = some (vdev, ept')

/-- **The initialisation masks legacy interrupts.** -/
theorem VpciVdev.Initialised.intxMasked {vdev : VpciVdev} (h : vdev.Initialised) :
    vdev.IntxMasked := by
  obtain ⟨ops, fuel, fresh, ept, ept', hconf, hzero, hinit⟩ := h
  rw [vpciInitPtDev] at hinit
  cases hvmsi : initVmsi fuel (initDefaultCfg fresh) with
  | none =>
    rw [hvmsi] at hinit
    cases hinit
  | some v =>
    rw [hvmsi] at hinit
    have hvdev : vdev = (initVdevPtCfg ops v ept).1 :=
      congrArg Prod.fst (Option.some.inj hinit).symm
    -- the command register is written first, and the capabilities are found where they were
    have hcommand : PciDevice.ChangesOnly {1} fresh.pdev (initDefaultCfg fresh).pdev :=
      .pciPdevWriteCfg _ _ rfl
    have hset : ((initDefaultCfg fresh).pdev.reg 1).getLsbD 10 = true := by
      have hlane : (lanes pcirCommand 2).getLsbD 10 = true := by decide
      rw [initDefaultCfg]
      dsimp only
      rw [show 1 = pcirCommand / 4 from rfl, PciDevice.pciPdevWriteCfg_self]
      refine (PciDevice.getLsbD_onWrite_of_lane _ hlane hconf.intxdis).trans ?_
      rw [show shift pcirCommand 2 = 0 from rfl]
      simp [pcimCmdIntxdis]
    obtain ⟨hpdev, hwhere⟩ := initVmsi_spec hvmsi hzero fun offset hcap =>
      hconf.caps offset (capAt_of_changesOnly hcommand hconf hcap)
    have hbar := BarRegsOnly.initVbars ops pciBarCount 0 ⟨v.pdev.toPciPdev, v.toPciVdev⟩ ept
    rw [hvdev]
    refine ⟨fun hcap => ?_, ?_, ?_⟩
    · obtain ⟨hdvd, hle⟩ := hwhere hcap
      exact ⟨hdvd, hle⟩
    · have hwritable : (initVdevPtCfg ops v ept).1.pdev.writable = v.pdev.writable := hbar.writable
      rw [hwritable, hpdev, hcommand.writable]
      exact hconf.intxdis
    · have hreg : (initVdevPtCfg ops v ept).1.pdev.reg 1 = v.pdev.reg 1 :=
        hbar.reg 1 (.inl (by decide))
      rw [hreg, hpdev]
      exact hset

end Acrn
