import Acrn.EptMap

/-!
# The BARs of pass-through devices

`vdev.c` and `pci_pt.c`: a guest sees virtual BARs (vbars) in the configuration
space of its device, and the hypervisor keeps the EPT mapping between the address
a vbar holds and the physical BAR (pbar) behind it.

The physical device is part of the state, with the registers that
`pci_pdev_read_cfg` and `pci_pdev_write_cfg` reach: a write only changes the bits
that the device implements as writable, which is how the size of a BAR is probed.
-/

namespace Acrn

/-- `uint32_t`, the size of a configuration register. -/
abbrev Reg : Type := BitVec 32

/-- `PCI_BAR_COUNT`. -/
abbrev pciBarCount : ℕ := 6

/-- `PCI_BASE_ADDRESS_MEM_MASK`. -/
def pciBaseAddressMemMask : Word := ~~~0xf#64

/-- `pci_bar_offset`. -/
def pciBarOffset (idx : ℕ) : ℕ := 0x10 + 4 * idx

/-- `enum pci_bar_type`. -/
inductive PciBarType where
  | none
  | ioSpace
  | mem32
  | mem64
  | mem64hi
  deriving DecidableEq, Repr

/-- `struct pci_bar`. -/
structure PciBar where
  type : PciBarType
  size : Word
  base : Word
  baseHpa : Word
  fixed : Reg
  mask : Reg

/-- `struct pci_vdev`, with the registers of its configuration space and
`pci_dev_config->vbar_base`. -/
structure PciVdev where
  cfgdata : ℕ → Reg
  bar : ℕ → PciBar
  vbarBase : ℕ → Word

/-- The configuration registers of a physical device, and the bits of them that
can be written. -/
structure PciPdev where
  reg : ℕ → Reg
  writable : ℕ → Reg

/-- `pci_pdev_read_cfg` for four bytes. -/
def pciPdevReadCfg (pdev : PciPdev) (offset : ℕ) : Reg := pdev.reg (offset / 4)

/-- `pci_pdev_write_cfg` for four bytes. -/
def pciPdevWriteCfg (pdev : PciPdev) (offset : ℕ) (val : Reg) : PciPdev :=
  let w := pdev.writable (offset / 4)
  { pdev with
    reg := Function.update pdev.reg (offset / 4) ((pdev.reg (offset / 4) &&& ~~~w) ||| (val &&& w)) }

/-- `pci_vdev_read_cfg_u32`. -/
def pciVdevReadCfgU32 (vdev : PciVdev) (offset : ℕ) : Reg := vdev.cfgdata (offset / 4)

/-- `pci_vdev_write_cfg_u32`. -/
def pciVdevWriteCfgU32 (vdev : PciVdev) (offset : ℕ) (val : Reg) : PciVdev :=
  { vdev with cfgdata := Function.update vdev.cfgdata (offset / 4) val }

/-- `vdev->bar[idx] = bar`. -/
def PciVdev.setBar (vdev : PciVdev) (idx : ℕ) (bar : PciBar) : PciVdev :=
  { vdev with bar := Function.update vdev.bar idx bar }

/-! ## `vdev.c`

A write puts a value into the register of the virtual configuration space first, and the base is
decoded from there. A 64-bit BAR has two registers, which are written one at a time. -/

/-- `pci_vdev_read_bar`. -/
def pciVdevReadBar (vdev : PciVdev) (idx : ℕ) : Reg := pciVdevReadCfgU32 vdev (pciBarOffset idx)

/-- `PCI_VBAR_BASE_LIMIT`. -/
abbrev pciVbarBaseLimit : ℕ := 0xC0000000
/-- `PCI_VBAR_TOP_LIMIT`. -/
abbrev pciVbarTopLimit : ℕ := 0xE0000000

/-- `vbar_base_is_valid`. The sum is taken modulo `2 ^ 64`. -/
def vbarBaseIsValid (barBase size : Word) : Bool :=
  !(decide (barBase.toNat < pciVbarBaseLimit) || decide ((barBase + size).toNat > pciVbarTopLimit))

/-- The base that `pci_vdev_update_bar_base` reads out of the registers. -/
def decodedBase (vdev : PciVdev) (idx : ℕ) : Word :=
  let vbar := vdev.bar idx
  let offset := pciBarOffset idx
  let lo := pciVdevReadCfgU32 vdev offset
  if vbar.type ≠ .none ∧ lo ≠ ~~~0#32 then
    let base := (lo &&& vbar.mask).setWidth 64
    let (vbar, base) :=
      if vbar.type = .mem64 then
        let vbar := vdev.bar (idx + 1)
        let hi := pciVdevReadCfgU32 vdev (offset + 4)
        if hi ≠ ~~~0#32 then (vbar, base ||| ((hi &&& vbar.mask).setWidth 64 <<< 32))
        else (vbar, 0#64)
      else (vbar, base)
    if vbar.type = .ioSpace then base &&& 0xffff#64 else base
  else 0#64

/-- `pci_vdev_update_bar_base`. -/
def pciVdevUpdateBarBase (vdev : PciVdev) (idx : ℕ) : PciVdev :=
  let base := decodedBase vdev idx
  let base := if base ≠ 0#64 ∧ ¬ vbarBaseIsValid base (vdev.bar idx).size then 0#64 else base
  vdev.setBar idx { vdev.bar idx with base }

/-- The BAR whose base depends on register `idx`: for the high half of a 64-bit
BAR it is the one before. -/
def PciVdev.updateIdx (vdev : PciVdev) (idx : ℕ) : ℕ :=
  if (vdev.bar idx).type = .mem64hi then idx - 1 else idx

/-- `pci_vdev_write_bar`. -/
def pciVdevWriteBar (vdev : PciVdev) (idx : ℕ) (val : Reg) : PciVdev :=
  let vbar := vdev.bar idx
  let bar := (val &&& vbar.mask) ||| vbar.fixed
  pciVdevUpdateBarBase (pciVdevWriteCfgU32 vdev (pciBarOffset idx) bar) (vdev.updateIdx idx)

/-! ## `pci_pt.c`

A BAR is unmapped before its register is written and mapped again afterwards, at the base that was
decoded, if there is one. -/

/-- `pci_get_bar_type`. -/
def pciGetBarType (val : Reg) : PciBarType :=
  if val &&& 0x1#32 ≠ 0x1#32 then
    if val &&& 0x6#32 = 0x0#32 then .mem32
    else if val &&& 0x6#32 = 0x4#32 then .mem64
    else .none
  else .none

/-- `vdev_pt_unmap_mem_vbar`. -/
def vdevPtUnmapMemVbar (ops : MemoryOps) (vdev : PciVdev) (idx : ℕ) (ept : PgMem) : PgMem :=
  let vbar := vdev.bar idx
  if vbar.base ≠ 0#64 then eptDelMr ops ops.info.pml4Base vbar.base.toNat vbar.size.toNat ept
  else ept

/-- The right of a mapped BAR: `EPT_WR | EPT_RD | EPT_UNCACHED`. -/
def vbarProt : Word := eptWr ||| eptRd ||| eptUncached

/-- `vdev_pt_map_mem_vbar`. -/
def vdevPtMapMemVbar (ops : MemoryOps) (vdev : PciVdev) (idx : ℕ) (ept : PgMem) : PgMem :=
  let vbar := vdev.bar idx
  if vbar.base ≠ 0#64 then
    let ept := eptDelMr ops ops.info.pml4Base vbar.base.toNat vbar.size.toNat ept
    eptAddMr ops ops.info.pml4Base vbar.baseHpa.toNat vbar.base.toNat vbar.size.toNat vbarProt ept
  else ept

/-- `vdev_pt_write_vbar`. -/
def vdevPtWriteVbar (ops : MemoryOps) (idx : ℕ) (val : Reg) (vdev : PciVdev) (ept : PgMem) :
    PciVdev × PgMem :=
  if (vdev.bar idx).type = .none then (vdev, ept)
  else
    let updateIdx := vdev.updateIdx idx
    let ept := vdevPtUnmapMemVbar ops vdev updateIdx ept
    let vdev := pciVdevWriteBar vdev idx val
    (vdev, vdevPtMapMemVbar ops vdev updateIdx ept)

/-- All ones are written to a physical register, read back, and the register is
restored. -/
def pciPdevProbe (pdev : PciPdev) (offset : ℕ) (val : Reg) : Reg × PciPdev :=
  let pdev := pciPdevWriteCfg pdev offset (~~~0#32)
  (pciPdevReadCfg pdev offset, pciPdevWriteCfg pdev offset val)

/-- The size of a BAR from the probed bits: the lowest one, rounded up to pages. -/
def vbarSize (bits : Word) : Word :=
  BitVec.ofNat 64 (roundPageUp (bits &&& ~~~(bits - 1#64)).toNat)

/-- A pass-through device: the physical one and its virtual counterpart. -/
structure PtDev where
  pdev : PciPdev
  vdev : PciVdev

/-- One iteration of the loop of `init_vdev_pt`, with the index of the next. -/
def initVbar (ops : MemoryOps) (idx : ℕ) (dev : PtDev) (ept : PgMem) : ℕ × PtDev × PgMem :=
  let vdev := dev.vdev
  let offset := pciBarOffset idx
  let lo := pciPdevReadCfg dev.pdev offset
  let type := pciGetBarType lo
  if type = .none then (idx + 1, dev, ept)
  else
    let hi := if type = .mem64 then pciPdevReadCfg dev.pdev (offset + 4) else 0#32
    let baseHpa := (lo.setWidth 64 &&& pciBaseAddressMemMask) |||
      if type = .mem64 then hi.setWidth 64 <<< 32 else 0#64
    let vbar := { vdev.bar idx with baseHpa }
    if baseHpa = 0#64 then (idx + 1, { dev with vdev := vdev.setBar idx vbar }, ept)
    else
      let (size32, pdev) := pciPdevProbe dev.pdev offset lo
      let size := size32.setWidth 64 &&& pciBaseAddressMemMask
      let vbar := { vbar with
        type
        mask := size.setWidth 32
        fixed := (lo.setWidth 64 &&& ~~~pciBaseAddressMemMask).setWidth 32
        size }
      let lo := (vdev.vbarBase idx).setWidth 32
      if type = .mem64 then
        let (size32, pdev) := pciPdevProbe pdev (pciBarOffset (idx + 1)) hi
        let size := size ||| size32.setWidth 64 <<< 32
        let vdev := vdev.setBar idx { vbar with size := vbarSize size }
        let vdev := vdev.setBar (idx + 1)
          { vdev.bar (idx + 1) with mask := size32, type := .mem64hi }
        let hi := (vdev.vbarBase idx >>> 32).setWidth 32
        let vdev := pciVdevWriteBar vdev idx lo
        let vdev := pciVdevWriteBar vdev (idx + 1) hi
        (idx + 2, ⟨pdev, vdev⟩, vdevPtMapMemVbar ops vdev idx ept)
      else
        let vdev := vdev.setBar idx { vbar with size := vbarSize size }
        let vdev := pciVdevWriteBar vdev idx lo
        (idx + 1, ⟨pdev, vdev⟩, vdevPtMapMemVbar ops vdev idx ept)

/-- The loop over the BARs of a device; `n` bounds the iterations left. -/
def initVbars (ops : MemoryOps) : ℕ → ℕ → PtDev → PgMem → PtDev × PgMem
  | 0, _, dev, ept => (dev, ept)
  | n + 1, idx, dev, ept =>
    if idx < pciBarCount then
      let (idx, dev, ept) := initVbar ops idx dev ept
      initVbars ops n idx dev ept
    else (dev, ept)

/-- `init_vdev_pt`. The index grows with every iteration, so there are at most
`PCI_BAR_COUNT` of them. -/
def initVdevPt (ops : MemoryOps) (dev : PtDev) (ept : PgMem) : PtDev × PgMem :=
  initVbars ops pciBarCount 0 dev ept

end Acrn
