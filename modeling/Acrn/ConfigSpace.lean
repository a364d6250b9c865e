import Acrn.Vdev
import Acrn.Lib.RegAccess

/-!
# Access to configuration space

The virtual configuration space of a device and the one of the physical device behind it,
read and written by the byte, the word and the double word.
-/

namespace Acrn

open BitField RegAccess

/-! ## Devices -/

/-- A physical device, with the status bits that writing a one clears. -/
structure PciDevice extends PciPdev where
  w1c : ℕ → Reg

/-- `struct pci_msi`. -/
structure PciMsi where
  is64bit : Bool
  capoff : ℕ
  caplen : ℕ

/-- `vdev->vdev_ops`: `vhostbridge_ops` or `pci_pt_dev_ops`. -/
inductive PciVdevOps where
  | vhostbridge
  | ptDev
  deriving DecidableEq

/-- `struct pci_vdev` with the physical device of `pbdf`. -/
structure VpciVdev extends PciVdev where
  bdf : BitVec 16
  pbdf : BitVec 16
  nrBars : ℕ
  msi : PciMsi
  vdevOps : PciVdevOps
  pdev : PciDevice

/-! ## The virtual configuration space

The space is an array of registers of 32 bits; an access of one, two or four bytes is one to some
lanes of a register. -/

section

variable (vdev : PciVdev) (offset bytes : ℕ) (val : Reg)

/-- `pci_vdev_read_cfg`. -/
def pciVdevReadCfg : Reg := readLanes (vdev.cfgdata (offset / 4)) offset bytes

/-- `pci_vdev_write_cfg`. -/
def pciVdevWriteCfg : PciVdev :=
  { vdev with
    cfgdata := Function.update vdev.cfgdata (offset / 4)
      (writeLanes (vdev.cfgdata (offset / 4)) offset bytes val) }

theorem pciVdevReadCfg_four : pciVdevReadCfg vdev offset 4 = pciVdevReadCfgU32 vdev offset :=
  readLanes_four _ _

theorem pciVdevWriteCfg_four :
    pciVdevWriteCfg vdev offset 4 val = pciVdevWriteCfgU32 vdev offset val := by
  rw [pciVdevWriteCfg, writeLanes_four, pciVdevWriteCfgU32]

/-- Writing what is there changes nothing. -/
theorem pciVdevWriteCfg_read :
    pciVdevWriteCfg vdev offset bytes (pciVdevReadCfg vdev offset bytes) = vdev := by
  rw [pciVdevWriteCfg, pciVdevReadCfg, writeLanes_readLanes, Function.update_eq_self]

theorem pciVdevWriteCfg_self : (pciVdevWriteCfg vdev offset bytes val).cfgdata (offset / 4) =
    writeLanes (vdev.cfgdata (offset / 4)) offset bytes val := Function.update_self _ _ _

/-- What is written is read again. -/
theorem pciVdevReadCfg_pciVdevWriteCfg :
    pciVdevReadCfg (pciVdevWriteCfg vdev offset bytes val) offset bytes =
      val &&& fieldMask 32 0 (width bytes) := by
  rw [pciVdevReadCfg, pciVdevWriteCfg_self, readLanes_writeLanes]

theorem pciVdevWriteCfg_of_ne {r : ℕ} (h : r ≠ offset / 4) :
    (pciVdevWriteCfg vdev offset bytes val).cfgdata r = vdev.cfgdata r := Function.update_of_ne h _ _

end

/-! ## The physical configuration space

A device decides bit by bit what a write does: a bit takes the value, is cleared by a one, or
stays. -/

namespace PciDevice

variable (d : PciDevice) (offset bytes : ℕ) (val : Reg)

/-- `pci_pdev_read_cfg`, for an access that is aligned. What four bytes are at another offset, where
the access goes beyond the data ports, is up to the platform; here the register that it begins in. -/
def pciPdevReadCfg : Reg := readLanes (d.reg (offset / 4)) offset bytes

/-- What becomes of register `r` when the lanes `m` are written. -/
def onWrite (r : ℕ) (m v : Reg) : Reg :=
  (d.reg r &&& ~~~(m &&& (d.writable r ||| v &&& d.w1c r))) ||| (v &&& d.writable r &&& m)

/-- `pci_pdev_write_cfg`, for an access that is aligned. -/
def pciPdevWriteCfg : PciDevice :=
  { d with
    reg := Function.update d.reg (offset / 4)
      (d.onWrite (offset / 4) (lanes offset bytes) (val <<< shift offset bytes)) }

/-- Where no bit is cleared by a one, four bytes are written as `pci_pt.c` writes them. -/
theorem pciPdevWriteCfg_four (h : d.w1c (offset / 4) = 0#32) :
    (d.pciPdevWriteCfg offset 4 val).toPciPdev = Acrn.pciPdevWriteCfg d.toPciPdev offset val := by
  rw [pciPdevWriteCfg, Acrn.pciPdevWriteCfg, onWrite, lanes_four, shift_four, h, BitVec.and_zero,
    BitVec.or_zero, BitVec.allOnes_and, BitVec.and_allOnes, BitVec.shiftLeft_zero]

theorem pciPdevWriteCfg_of_ne {r : ℕ} (h : r ≠ offset / 4) :
    (d.pciPdevWriteCfg offset bytes val).reg r = d.reg r := Function.update_of_ne h _ _

theorem pciPdevWriteCfg_self : (d.pciPdevWriteCfg offset bytes val).reg (offset / 4) =
    d.onWrite (offset / 4) (lanes offset bytes) (val <<< shift offset bytes) :=
  Function.update_self _ _ _

/-- A bit that is not in the lanes stays. -/
theorem getLsbD_onWrite_of_not_lane {r i : ℕ} {m v : Reg} (h : m.getLsbD i = false) :
    (d.onWrite r m v).getLsbD i = (d.reg r).getLsbD i := by
  rw [onWrite, BitVec.getLsbD_or, BitVec.getLsbD_and, BitVec.getLsbD_and, BitVec.getLsbD_not,
    BitVec.getLsbD_and, h]
  by_cases hi : i < 32
  · simp [hi]
  · simp [BitVec.getLsbD_of_ge _ _ (not_lt.1 hi)]

/-- A bit in the lanes that the device implements as writable takes the value. -/
theorem getLsbD_onWrite_of_lane {r i : ℕ} {m v : Reg} (h : m.getLsbD i = true)
    (hw : (d.writable r).getLsbD i = true) : (d.onWrite r m v).getLsbD i = v.getLsbD i := by
  rw [onWrite, BitVec.getLsbD_or, BitVec.getLsbD_and, BitVec.getLsbD_and, BitVec.getLsbD_and,
    BitVec.getLsbD_not, BitVec.getLsbD_and, BitVec.getLsbD_or, h, hw]
  simp

/-- A bit that is neither writable nor cleared by a one stays. -/
theorem getLsbD_onWrite_of_const {r i : ℕ} {m v : Reg} (hw : (d.writable r).getLsbD i = false)
    (hc : (d.w1c r).getLsbD i = false) : (d.onWrite r m v).getLsbD i = (d.reg r).getLsbD i := by
  rw [onWrite, BitVec.getLsbD_or, BitVec.getLsbD_and, BitVec.getLsbD_and, BitVec.getLsbD_and,
    BitVec.getLsbD_not, BitVec.getLsbD_and, BitVec.getLsbD_or, BitVec.getLsbD_and, hw, hc]
  by_cases hi : i < 32
  · simp [hi]
  · simp [BitVec.getLsbD_of_ge _ _ (not_lt.1 hi)]

/-- What is written to writable bits is read again. -/
theorem pciPdevReadCfg_pciPdevWriteCfg (h : ∀ i, (lanes offset bytes).getLsbD i = true →
    (d.writable (offset / 4)).getLsbD i = true) :
    (d.pciPdevWriteCfg offset bytes val).pciPdevReadCfg offset bytes =
      val &&& fieldMask 32 0 (width bytes) := by
  have hle := shift_add_width_le offset bytes
  apply BitVec.eq_of_getLsbD_eq
  intro i hi
  rw [pciPdevReadCfg, pciPdevWriteCfg_self, getLsbD_readLanes, BitVec.getLsbD_and,
    getLsbD_fieldMask (by omega)]
  by_cases hw : i < width bytes
  · have hlane : (lanes offset bytes).getLsbD (shift offset bytes + i) = true := by
      rw [getLsbD_lanes]
      simp [hw]
    rw [getLsbD_onWrite_of_lane _ hlane (h _ hlane), BitVec.getLsbD_shiftLeft]
    simp [hw, hi, show shift offset bytes + i < 32 by omega]
  · simp [hw]

/-! ## Devices that differ in some registers

This is the frame of all functions that write to a device: the registers in which it may differ
afterwards. -/

/-- Only registers in `S` are written. -/
structure ChangesOnly (S : Set ℕ) (d d' : PciDevice) : Prop where
  writable : d'.writable = d.writable
  w1c : d'.w1c = d.w1c
  reg : ∀ r, r ∉ S → d'.reg r = d.reg r

namespace ChangesOnly

variable {d} {d₁ d₂ : PciDevice} {S T : Set ℕ}

theorem refl (S : Set ℕ) (d : PciDevice) : ChangesOnly S d d := ⟨rfl, rfl, fun _ _ => rfl⟩

theorem trans (h : ChangesOnly S d d₁) (h' : ChangesOnly S d₁ d₂) : ChangesOnly S d d₂ :=
  ⟨h'.writable.trans h.writable, h'.w1c.trans h.w1c,
    fun r hr => (h'.reg r hr).trans (h.reg r hr)⟩

theorem mono (h : ChangesOnly S d d₁) (hsub : S ⊆ T) : ChangesOnly T d d₁ :=
  ⟨h.writable, h.w1c, fun r hr => h.reg r fun hmem => hr (hsub hmem)⟩

theorem pciPdevWriteCfg {offset : ℕ} (bytes : ℕ) (val : Reg) (h : offset / 4 ∈ S) :
    ChangesOnly S d (d.pciPdevWriteCfg offset bytes val) :=
  ⟨rfl, rfl, fun _ hr => d.pciPdevWriteCfg_of_ne _ _ _ fun heq => hr (heq ▸ h)⟩

end ChangesOnly

end PciDevice

/-! ## Where an access goes -/

namespace VpciVdev

variable (vdev : VpciVdev) (offset : ℕ)

/-- `vbar_access`. -/
def vbarAccess : Bool :=
  decide (pciBarOffset 0 ≤ offset) && decide (offset < pciBarOffset vdev.nrBars)

/-- `has_msi_cap`. -/
def hasMsiCap : Bool := decide (vdev.msi.capoff ≠ 0)

/-- `msicap_access`. -/
def msicapAccess : Bool :=
  vdev.hasMsiCap && (decide (vdev.msi.capoff ≤ offset) &&
    decide (offset < vdev.msi.capoff + vdev.msi.caplen))

end VpciVdev

end Acrn
