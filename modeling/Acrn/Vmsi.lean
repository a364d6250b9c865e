import Acrn.ConfigSpace
import Acrn.IntrRemap

/-!
# The virtual MSI capability

`vmsi.c`: a guest writes the MSI capability of its device in the virtual configuration space.
When it enables MSI with a legal vector, the message is remapped, and the physical device is
given the remapped one.
-/

namespace Acrn

open BitField RegAccess

/-! ## Registers of the capability -/

/-- `PCIR_CAP_PTR`. -/
abbrev pcirCapPtr : ℕ := 0x34
/-- `PCIR_MSI_CTRL`. -/
abbrev pcirMsiCtrl : ℕ := 0x2
/-- `PCIR_MSI_ADDR`. -/
abbrev pcirMsiAddr : ℕ := 0x4
/-- `PCIR_MSI_ADDR_HIGH`. -/
abbrev pcirMsiAddrHigh : ℕ := 0x8
/-- `PCIR_MSI_DATA`. -/
abbrev pcirMsiData : ℕ := 0x8
/-- `PCIR_MSI_DATA_64BIT`. -/
abbrev pcirMsiData64bit : ℕ := 0xC

/-- `PCIM_MSICTRL_MSI_ENABLE`. -/
def pcimMsictrlMsiEnable : Reg := 0x1#32
/-- `PCIM_MSICTRL_64BIT`. -/
def pcimMsictrl64bit : Reg := 0x80#32
/-- `PCIM_MSICTRL_MMC_MASK`. -/
def pcimMsictrlMmcMask : Reg := 0x0E#32
/-- `PCIM_MSICTRL_MME_MASK`. -/
def pcimMsictrlMmeMask : Reg := 0x70#32
/-- `PCIM_NEXTPTR`. -/
def pcimNextptr : Reg := 0xFF#32
/-- `PCIY_MSI`. -/
def pciyMsi : Reg := 0x05#32
/-- `MSG_INITIAL_VALUE`. -/
def msgInitialValue : Reg := 0xFEE00000#32
/-- `MSI_DATA_DELIVER_MODE_MASK`. -/
def msiDataDeliverModeMask : Reg := 7#32 <<< 8
/-- `MSI_DATA_TRIGGER_MODE`. -/
def msiDataTriggerMode : Reg := 1#32 <<< 15
/-- `MSI_DATA_LEVEL_TRIGGER_MODE`. -/
def msiDataLevelTriggerMode : Reg := 1#32 <<< 14

namespace PciMsi

variable (msi : PciMsi)

/-- The offset of the message data. -/
def dataOffset : ℕ := msi.capoff + if msi.is64bit then pcirMsiData64bit else pcirMsiData

/-- `msi_64_ro_mask` and `msi_32_ro_mask`. -/
def roMaskBytes : List (BitVec 8) :=
  if msi.is64bit then
    [0xff#8, 0xff#8, 0xfe#8, 0xff#8, 0xff#8, 0x0f#8, 0xf0#8, 0xff#8,
      0xff#8, 0xff#8, 0xff#8, 0xff#8, 0x00#8, 0xff#8, 0xff#8, 0xff#8]
  else
    [0xff#8, 0xff#8, 0xfe#8, 0xff#8, 0xff#8, 0x0f#8, 0xf0#8, 0xff#8,
      0x00#8, 0xff#8, 0xff#8, 0xff#8]

end PciMsi

/-- `memcpy_s` of bytes into a register. -/
def memcpyReg (dst : Reg) (src : List (BitVec 8)) : ℕ → Reg
  | 0 => dst
  | n + 1 => writeLanes (memcpyReg dst src n) n 1 ((src.getD n 0#8).setWidth 32)

/-- The `ro_mask` of an access. -/
def PciMsi.roMask (msi : PciMsi) (offset bytes : ℕ) : Reg :=
  memcpyReg (~~~0#32) (msi.roMaskBytes.drop (offset - msi.capoff)) bytes

/-! ## `vmsi.c` -/

/-- `enable_disable_msi`. -/
def enableDisableMsi (vdev : VpciVdev) (enable : Bool) : VpciVdev :=
  let offset := vdev.msi.capoff + pcirMsiCtrl
  let msgctrl := vdev.pdev.pciPdevReadCfg offset 2
  let msgctrl := if enable then msgctrl ||| pcimMsictrlMsiEnable
    else msgctrl &&& ~~~pcimMsictrlMsiEnable
  { vdev with pdev := vdev.pdev.pciPdevWriteCfg offset 2 msgctrl }

/-- The virtual message of a device. -/
def vmsiInfo (vdev : VpciVdev) : PtirqMsiInfo :=
  let capoff := vdev.msi.capoff
  let vmsiAddrlo := pciVdevReadCfgU32 vdev.toPciVdev (capoff + pcirMsiAddr)
  let vmsiAddrhi := if vdev.msi.is64bit then
    pciVdevReadCfgU32 vdev.toPciVdev (capoff + pcirMsiAddrHigh) else 0#32
  { vmsiAddr := vmsiAddrlo.setWidth 64 ||| vmsiAddrhi.setWidth 64 <<< 32
    vmsiData := Acrn.pciVdevReadCfg vdev.toPciVdev vdev.msi.dataOffset 2
    pmsiAddr := 0#64
    pmsiData := 0#32 }

/-- The range of vectors that are remapped. -/
def PtirqMsiInfo.Legal (info : PtirqMsiInfo) : Prop := 0x10#8 ≤ info.vector ∧ info.vector ≤ 0xfe#8

instance (info : PtirqMsiInfo) : Decidable info.Legal := by
  unfold PtirqMsiInfo.Legal
  infer_instance

/-- The physical device is given a message. -/
def writePmsi (vdev : VpciVdev) (info : PtirqMsiInfo) : VpciVdev :=
  let capoff := vdev.msi.capoff
  let pdev := vdev.pdev.pciPdevWriteCfg (capoff + pcirMsiAddr) 4 (info.pmsiAddr.setWidth 32)
  let pdev := if vdev.msi.is64bit then
    pdev.pciPdevWriteCfg (capoff + pcirMsiAddrHigh) 4 ((info.pmsiAddr >>> 32).setWidth 32) else pdev
  { vdev with
    pdev := pdev.pciPdevWriteCfg vdev.msi.dataOffset 2 ((info.pmsiData.setWidth 16).setWidth 32) }

section

variable (m : Machine) (lapicLdr : PcpuId → U32) (vm : ℕ) (vdev : VpciVdev) (unit : DmarUnit)

/-- `remap_vmsi`. -/
def remapVmsi : VpciVdev × DmarUnit :=
  let info := vmsiInfo vdev
  if info.Legal then
    let (unit, info) := ptirqMsixRemap m lapicLdr unit vm vdev.bdf vdev.pbdf info
    (enableDisableMsi (writePmsi vdev info) true, unit)
  else (vdev, unit)

/-- `vmsi_write_cfg`. -/
def vmsiWriteCfg (offset bytes : ℕ) (val : Reg) : VpciVdev × DmarUnit :=
  let roMask := vdev.msi.roMask offset bytes
  if roMask ≠ ~~~0#32 then
    let old := pciVdevReadCfg vdev.toPciVdev offset bytes
    let vdev := { vdev with
      toPciVdev := pciVdevWriteCfg vdev.toPciVdev offset bytes (old &&& roMask ||| val &&& ~~~roMask) }
    -- the device is quiet while its message changes
    let vdev := enableDisableMsi vdev false
    let msgctrl := pciVdevReadCfg vdev.toPciVdev (vdev.msi.capoff + pcirMsiCtrl) 2
    if msgctrl &&& pcimMsictrlMsiEnable ≠ 0#32 then remapVmsi m lapicLdr vm vdev unit
    else (vdev, unit)
  else (vdev, unit)

/-- `deinit_vmsi`. -/
def deinitVmsi : DmarUnit :=
  if vdev.hasMsiCap then ptirqRemoveMsixRemapping unit vm vdev.bdf 1 else unit

end

/-- The walk of `init_vmsi` through the capabilities, from `val` on; no result when the list
does not end within the steps given. -/
def findMsiCap (pdev : PciDevice) : ℕ → Reg → Option ℕ
  | 0, _ => none
  | n + 1, val =>
    if val ≠ 0#32 ∧ val ≠ 0xFF#32 then
      if pdev.pciPdevReadCfg val.toNat 1 = pciyMsi then some val.toNat
      else findMsiCap pdev n (pdev.pciPdevReadCfg (val.toNat + 1) 1)
    else some 0

/-- The virtual capability of `init_vmsi`. -/
def initVmsiCap (vdev : VpciVdev) : VpciVdev :=
  let capoff := vdev.msi.capoff
  let val := vdev.pdev.pciPdevReadCfg capoff 4
  let is64bit := decide (val &&& pcimMsictrl64bit <<< 16 ≠ 0#32)
  let vdev := { vdev with msi := ⟨is64bit, capoff, if is64bit then 14 else 10⟩ }
  -- one message, and no capability behind this one
  let val := val &&& ~~~(pcimNextptr <<< 8) &&& ~~~(pcimMsictrlMmcMask <<< 16) &&&
    ~~~(pcimMsictrlMmeMask <<< 16)
  let data := vdev.pdev.pciPdevReadCfg vdev.msi.dataOffset 4 &&&
    ~~~(msiDataTriggerMode ||| msiDataLevelTriggerMode ||| msiDataDeliverModeMask) |||
    msiDataLevelTriggerMode
  let cfg := pciVdevWriteCfg vdev.toPciVdev capoff 4 val
  let cfg := pciVdevWriteCfg cfg (capoff + pcirMsiAddr) 4 msgInitialValue
  { vdev with toPciVdev := pciVdevWriteCfg cfg vdev.msi.dataOffset 4 data }

/-- The capability that was found is the only one in the virtual list. -/
def recordMsiCap (vdev : VpciVdev) (found : ℕ) : VpciVdev :=
  let vdev := if found = 0 then vdev else { vdev with msi := { vdev.msi with capoff := found } }
  { vdev with
    toPciVdev := pciVdevWriteCfg vdev.toPciVdev pcirCapPtr 1 (BitVec.ofNat 32 vdev.msi.capoff) }

/-- `init_vmsi`. -/
def initVmsi (fuel : ℕ) (vdev : VpciVdev) : Option VpciVdev := do
  let found ← findMsiCap vdev.pdev fuel (vdev.pdev.pciPdevReadCfg pcirCapPtr 1)
  let vdev := recordMsiCap vdev found
  return if vdev.hasMsiCap then initVmsiCap vdev else vdev

/-! ## The read-only bits

A write that crosses the end of a register does not happen, since an access is aligned. So a write
can be treated register by register, and there bit by bit. -/

/-- The read-only bits of register `k` of the capability. -/
def PciMsi.roReg (msi : PciMsi) (k : ℕ) : Reg :=
  memcpyReg 0#32 (msi.roMaskBytes.drop (4 * k)) 4

/-- The mask of an access is taken from the register that it falls in. -/
theorem PciMsi.roMask_eq {msi : PciMsi} {offset bytes : ℕ}
    (hlt : offset - msi.capoff < if msi.is64bit then 14 else 10)
    (h : Aligned (offset - msi.capoff) bytes) :
    msi.roMask offset bytes = readLanes (msi.roReg ((offset - msi.capoff) / 4))
      (offset - msi.capoff) bytes ||| ~~~fieldMask 32 0 (width bytes) := by
  have hall : ∀ is64bit : Bool, ∀ k < (if is64bit then 14 else 10), ∀ n : Fin 5,
      (n.val = 1 ∨ n.val = 2 ∨ n.val = 4) → n.val ∣ k →
      memcpyReg (~~~0#32) ((PciMsi.roMaskBytes ⟨is64bit, 0, 0⟩).drop k) n.val =
        readLanes (PciMsi.roReg ⟨is64bit, 0, 0⟩ (k / 4)) k n.val |||
          ~~~fieldMask 32 0 (width n.val) := by
    decide +kernel
  have hbytes : bytes < 5 := by
    obtain ⟨h1 | h2 | h4, -⟩ := h <;> omega
  exact hall msi.is64bit _ hlt ⟨bytes, hbytes⟩ h.size h.dvd

/-- An access to the capability, with the offset of the capability a multiple of four. -/
structure MsiAccess (msi : PciMsi) (offset bytes : ℕ) : Prop where
  aligned : Aligned offset bytes
  dvd : 4 ∣ msi.capoff
  le : msi.capoff ≤ offset
  lt : offset - msi.capoff < if msi.is64bit then 14 else 10

namespace MsiAccess

variable {msi : PciMsi} {offset bytes : ℕ} (h : MsiAccess msi offset bytes)

include h

theorem sub_mod : (offset - msi.capoff) % 4 = offset % 4 := by
  have := h.dvd
  have := h.le
  omega

theorem sub_div : offset / 4 = msi.capoff / 4 + (offset - msi.capoff) / 4 := by
  have := h.dvd
  have := h.le
  omega

/-- A naturally aligned access stays aligned when counted from the capability, which itself starts
at a multiple of four. -/
theorem aligned_sub : Aligned (offset - msi.capoff) bytes := by
  refine ⟨h.aligned.size, Nat.dvd_sub h.aligned.dvd ?_⟩
  obtain ⟨rfl | rfl | rfl, -⟩ := h.aligned
  · exact one_dvd _
  · exact (by decide : 2 ∣ 4).trans h.dvd
  · exact h.dvd

/-- Counting from the capability does not change which byte lane of the dword an access hits. -/
theorem shift_sub : shift (offset - msi.capoff) bytes = shift offset bytes := by
  rw [h.aligned.shift_eq, h.aligned_sub.shift_eq, h.sub_mod]

/-- The bits that a write reaches: in its lanes and not read-only. -/
theorem getLsbD_write (old val : Reg) {i : ℕ} (hi : i < 32) :
    (writeLanes old offset bytes (readLanes old offset bytes &&& msi.roMask offset bytes |||
      val &&& ~~~msi.roMask offset bytes)).getLsbD i =
    if (lanes offset bytes &&& ~~~msi.roReg ((offset - msi.capoff) / 4)).getLsbD i = true then
      val.getLsbD (i - shift offset bytes) else old.getLsbD i := by
  rw [getLsbD_writeLanes _ _ _ _ _ hi, BitVec.getLsbD_and, BitVec.getLsbD_not]
  cases hlane : (lanes offset bytes).getLsbD i with
  | false => simp
  | true =>
    rw [getLsbD_lanes, Bool.and_eq_true, decide_eq_true_eq, decide_eq_true_eq] at hlane
    have hwidth := shift_add_width_le offset bytes
    have hro : (msi.roMask offset bytes).getLsbD (i - shift offset bytes) =
        (msi.roReg ((offset - msi.capoff) / 4)).getLsbD i := by
      rw [PciMsi.roMask_eq h.lt h.aligned_sub, BitVec.getLsbD_or, getLsbD_readLanes,
        h.shift_sub, BitVec.getLsbD_not, getLsbD_fieldMask (by omega),
        Nat.add_sub_cancel' hlane.1]
      simp [show i - shift offset bytes < width bytes by omega,
        show i - shift offset bytes < 32 by omega]
    have hold : (readLanes old offset bytes).getLsbD (i - shift offset bytes) = old.getLsbD i := by
      rw [getLsbD_readLanes, Nat.add_sub_cancel' hlane.1]
      simp [show i - shift offset bytes < width bytes by omega]
    rw [BitVec.getLsbD_or, BitVec.getLsbD_and, BitVec.getLsbD_and, BitVec.getLsbD_not, hro, hold]
    cases (msi.roReg ((offset - msi.capoff) / 4)).getLsbD i <;>
      simp [hi, show i - shift offset bytes < 32 by omega]

/-- A write leaves the read-only bits alone. -/
theorem write_and_roReg (old val : Reg) :
    writeLanes old offset bytes (readLanes old offset bytes &&& msi.roMask offset bytes |||
      val &&& ~~~msi.roMask offset bytes) &&& msi.roReg ((offset - msi.capoff) / 4) =
    old &&& msi.roReg ((offset - msi.capoff) / 4) := by
  apply BitVec.eq_of_getLsbD_eq
  intro i hi
  rw [BitVec.getLsbD_and, h.getLsbD_write _ _ hi, BitVec.getLsbD_and, BitVec.getLsbD_and,
    BitVec.getLsbD_not]
  cases (msi.roReg ((offset - msi.capoff) / 4)).getLsbD i <;> simp

end MsiAccess

/-! ## The physical device

The guest writes to the virtual capability, and the physical one follows: it is enabled when the
guest has enabled MSI with a vector that can be remapped, and has the remapped message then. -/

namespace VpciVdev

variable (vdev : VpciVdev)

/-- Whether the guest has enabled MSI. -/
def virtMsiEnable : Bool := (vdev.cfgdata (vdev.msi.capoff / 4)).getLsbD 16

/-- Whether the physical device sends messages. -/
def physMsiEnable : Bool := (vdev.pdev.reg (vdev.msi.capoff / 4)).getLsbD 16

/-- The address of the messages of the physical device. -/
def physMsiAddr : Word :=
  (vdev.pdev.reg (vdev.msi.capoff / 4 + 1)).setWidth 64 |||
    (if vdev.msi.is64bit then vdev.pdev.reg (vdev.msi.capoff / 4 + 2) else 0#32).setWidth 64 <<< 32

/-- The data of the messages of the physical device. -/
def physMsiData : U32 := vdev.pdev.pciPdevReadCfg vdev.msi.dataOffset 2

/-- The MSI registers of the physical device. -/
def msiRegs : Set ℕ :=
  Set.Icc (vdev.msi.capoff / 4) (vdev.msi.capoff / 4 + if vdev.msi.is64bit then 3 else 2)

/-- The capability is behind the header, at a multiple of four, as the PCI specification has it. -/
structure MsiPlaced : Prop where
  dvd : 4 ∣ vdev.msi.capoff
  le : 0x40 ≤ vdev.msi.capoff

/-- A device with an MSI capability as the PCI specification has it: the enable bit, the message
address but for its two lowest bits, which are zero, and the message data can be written. -/
structure MsiConforms : Prop extends vdev.MsiPlaced where
  enable : (vdev.pdev.writable (vdev.msi.capoff / 4)).getLsbD 16 = true
  addr : ∀ i, 2 ≤ i → i < 32 →
    (vdev.pdev.writable (vdev.msi.capoff / 4 + 1)).getLsbD i = true
  addrLow : ∀ i < 2, (vdev.pdev.writable (vdev.msi.capoff / 4 + 1)).getLsbD i = false ∧
    (vdev.pdev.w1c (vdev.msi.capoff / 4 + 1)).getLsbD i = false ∧
    (vdev.pdev.reg (vdev.msi.capoff / 4 + 1)).getLsbD i = false
  addrHigh : vdev.msi.is64bit = true → ∀ i < 32,
    (vdev.pdev.writable (vdev.msi.capoff / 4 + 2)).getLsbD i = true
  data : ∀ i < 16, (vdev.pdev.writable (vdev.msi.dataOffset / 4)).getLsbD i = true

/-- What a write to configuration space never changes. -/
structure SameShape (v v' : VpciVdev) : Prop where
  bdf : v'.bdf = v.bdf
  pbdf : v'.pbdf = v.pbdf
  nrBars : v'.nrBars = v.nrBars
  msi : v'.msi = v.msi
  vdevOps : v'.vdevOps = v.vdevOps

variable {vdev}

theorem SameShape.refl (v : VpciVdev) : SameShape v v := ⟨rfl, rfl, rfl, rfl, rfl⟩

theorem SameShape.trans {v v₁ v₂ : VpciVdev} (h : SameShape v v₁) (h' : SameShape v₁ v₂) :
    SameShape v v₂ :=
  ⟨h'.bdf.trans h.bdf, h'.pbdf.trans h.pbdf, h'.nrBars.trans h.nrBars, h'.msi.trans h.msi,
    h'.vdevOps.trans h.vdevOps⟩

namespace MsiPlaced

/-- The control word is the upper half of the capability's first dword. -/
theorem offset_ctrl (h : vdev.MsiPlaced) :
    (vdev.msi.capoff + pcirMsiCtrl) / 4 = vdev.msi.capoff / 4 ∧
      shift (vdev.msi.capoff + pcirMsiCtrl) 2 = 16 := by
  obtain ⟨q, hq⟩ := h.dvd
  rw [shift_two, hq]
  unfold pcirMsiCtrl
  omega

/-- The low and the high address are the second and the third dword of the capability. -/
theorem offset_addr (h : vdev.MsiPlaced) :
    (vdev.msi.capoff + pcirMsiAddr) / 4 = vdev.msi.capoff / 4 + 1 ∧
      (vdev.msi.capoff + pcirMsiAddrHigh) / 4 = vdev.msi.capoff / 4 + 2 := by
  obtain ⟨q, hq⟩ := h.dvd
  unfold pcirMsiAddr pcirMsiAddrHigh
  omega

/-- The data register is the low half of the third dword, or of the fourth in a 64-bit
capability. -/
theorem offset_data (h : vdev.MsiPlaced) :
    vdev.msi.dataOffset / 4 = vdev.msi.capoff / 4 + (if vdev.msi.is64bit then 3 else 2) ∧
      shift vdev.msi.dataOffset 2 = 0 := by
  obtain ⟨q, hq⟩ := h.dvd
  rw [shift_two, PciMsi.dataOffset, hq]
  unfold pcirMsiData64bit pcirMsiData
  split <;> omega

end MsiPlaced

/-- A physical device conforms whatever is written to it. -/
theorem MsiConforms.write (h : vdev.MsiConforms) (offset bytes : ℕ) (val : Reg) :
    { vdev with pdev := vdev.pdev.pciPdevWriteCfg offset bytes val }.MsiConforms := by
  refine ⟨⟨h.dvd, h.le⟩, h.enable, h.addr, fun i hi => ?_, h.addrHigh, h.data⟩
  obtain ⟨hw, hc, hreg⟩ := h.addrLow i hi
  refine ⟨hw, hc, ?_⟩
  dsimp only
  rw [PciDevice.pciPdevWriteCfg]
  dsimp only
  rw [Function.update_apply]
  split
  · next heq => rw [← heq, PciDevice.getLsbD_onWrite_of_const _ hw hc, hreg]
  · exact hreg

end VpciVdev

open VpciVdev

variable {vdev : VpciVdev}

/-! ### `enable_disable_msi` -/

/-- `enable_disable_msi` leaves the enable bit of the physical function as asked. -/
theorem enableDisableMsi_physMsiEnable (h : vdev.MsiConforms) (enable : Bool) :
    (enableDisableMsi vdev enable).physMsiEnable = enable := by
  obtain ⟨hdiv, hshift⟩ := h.offset_ctrl
  have hlane : (lanes (vdev.msi.capoff + pcirMsiCtrl) 2).getLsbD 16 = true := by
    rw [getLsbD_lanes, hshift]
    rfl
  rw [physMsiEnable, enableDisableMsi]
  dsimp only
  rw [PciDevice.pciPdevWriteCfg, hdiv]
  dsimp only
  rw [Function.update_self, PciDevice.getLsbD_onWrite_of_lane _ hlane h.enable, hshift,
    BitVec.getLsbD_shiftLeft]
  cases enable <;> simp [pcimMsictrlMsiEnable]

theorem enableDisableMsi_conforms (h : vdev.MsiConforms) (enable : Bool) :
    (enableDisableMsi vdev enable).MsiConforms := h.write _ _ _

/-- `enable_disable_msi` writes the control dword of the capability and no other. -/
theorem enableDisableMsi_reg_of_ne (h : vdev.MsiPlaced) (enable : Bool) {r : ℕ}
    (hr : r ≠ vdev.msi.capoff / 4) :
    (enableDisableMsi vdev enable).pdev.reg r = vdev.pdev.reg r :=
  PciDevice.pciPdevWriteCfg_of_ne _ _ _ _ (by rwa [h.offset_ctrl.1])

/-! ### `remap_vmsi` -/

/-- A register of which all bits but constant zeros are writable takes the value. -/
theorem onWrite_four_eq {d : PciDevice} {r : ℕ} {v : Reg} (h : ∀ i < 32,
    (d.writable r).getLsbD i = true ∨ (d.writable r).getLsbD i = false ∧
      (d.w1c r).getLsbD i = false ∧ (d.reg r).getLsbD i = false ∧ v.getLsbD i = false) :
    d.onWrite r (BitVec.allOnes 32) v = v := by
  apply BitVec.eq_of_getLsbD_eq
  intro i hi
  obtain hw | ⟨hw, hc, hreg, hv⟩ := h i hi
  · exact d.getLsbD_onWrite_of_lane (by rw [BitVec.getLsbD_allOnes, decide_eq_true hi]) hw
  · rw [d.getLsbD_onWrite_of_const hw hc, hreg, hv]

theorem writePmsi_conforms (h : vdev.MsiConforms) (info : PtirqMsiInfo) :
    (writePmsi vdev info).MsiConforms := by
  rw [writePmsi]
  split
  · exact ((h.write _ _ _).write _ _ _).write _ _ _
  · exact (h.write _ _ _).write _ _ _

/-- A remappable address has zeros where the physical register has. -/
theorem getLsbD_remappableAddr_low (index : BitVec 16) {i : ℕ} (hi : i < 2) :
    (remappableAddr index).getLsbD i = false := by
  rw [getLsbD_remappableAddr]
  simp [show i ≠ 2 by omega, show i ≠ 4 by omega, show ¬ 5 ≤ i by omega, show ¬ 20 ≤ i by omega]

/-- A remappable address lies below 4 GByte, so the upper address register is zero. -/
theorem remappableAddr_high (index : BitVec 16) : remappableAddr index >>> 32 = 0#64 := by
  apply BitVec.eq_of_getLsbD_eq
  intro i _
  rw [BitVec.getLsbD_ushiftRight, getLsbD_remappableAddr,
    getLsbD_constant (show 12 ≤ 32 + i - 20 by omega)]
  simp [show 32 + i ≠ 2 by omega, show 32 + i ≠ 4 by omega, show ¬ 32 + i < 20 by omega]

/-- A word is its low and its high half. -/
theorem low_or_high (x : Word) :
    (x.setWidth 32).setWidth 64 ||| ((x >>> 32).setWidth 32).setWidth 64 <<< 32 = x := by
  apply BitVec.eq_of_getLsbD_eq
  intro i hi
  simp only [BitVec.getLsbD_or, BitVec.getLsbD_shiftLeft, BitVec.getLsbD_setWidth,
    BitVec.getLsbD_ushiftRight]
  by_cases hlow : i < 32
  · simp [hlow, hi]
  · simp [hlow, hi, show i - 32 < 32 by omega, show i - 32 < 64 by omega,
      show 32 + (i - 32) = i by omega]

/-- The address register takes a remappable address. -/
theorem reg_addr (h : vdev.MsiConforms) (index : BitVec 16) :
    (vdev.pdev.pciPdevWriteCfg (vdev.msi.capoff + pcirMsiAddr) 4
      ((remappableAddr index).setWidth 32)).reg (vdev.msi.capoff / 4 + 1) =
      (remappableAddr index).setWidth 32 := by
  rw [← h.offset_addr.1, PciDevice.pciPdevWriteCfg_self, lanes_four, shift_four,
    BitVec.shiftLeft_zero, h.offset_addr.1]
  apply onWrite_four_eq
  intro i hi
  by_cases hlow : i < 2
  · obtain ⟨hw, hc, hreg⟩ := h.addrLow i hlow
    refine .inr ⟨hw, hc, hreg, ?_⟩
    rw [BitVec.getLsbD_setWidth, getLsbD_remappableAddr_low index hlow, Bool.and_false]
  · exact .inl (h.addr i (by omega) hi)

/-- The register of the high half takes every value. -/
theorem reg_addrHigh (h : vdev.MsiConforms) (h64 : vdev.msi.is64bit = true) (val : Reg) :
    (vdev.pdev.pciPdevWriteCfg (vdev.msi.capoff + pcirMsiAddrHigh) 4 val).reg
      (vdev.msi.capoff / 4 + 2) = val := by
  rw [← h.offset_addr.2, PciDevice.pciPdevWriteCfg_self, lanes_four, shift_four,
    BitVec.shiftLeft_zero, h.offset_addr.2]
  exact onWrite_four_eq fun i hi => .inl (h.addrHigh h64 i hi)

/-- The data register takes every word. -/
theorem read_data (h : vdev.MsiConforms) (data : U32) :
    (vdev.pdev.pciPdevWriteCfg vdev.msi.dataOffset 2
      ((data.setWidth 16).setWidth 32)).pciPdevReadCfg vdev.msi.dataOffset 2 =
      (data.setWidth 16).setWidth 32 := by
  rw [PciDevice.pciPdevReadCfg_pciPdevWriteCfg]
  · apply BitVec.eq_of_getLsbD_eq
    intro i hi
    rw [BitVec.getLsbD_and, getLsbD_fieldMask (by omega), BitVec.getLsbD_setWidth,
      BitVec.getLsbD_setWidth]
    by_cases hlow : i < 16
    · simp [hlow, hi, width]
    · simp [hlow]
  · intro i hi
    rw [getLsbD_lanes, h.offset_data.2, Bool.and_eq_true, decide_eq_true_eq,
      decide_eq_true_eq] at hi
    exact h.data i (by simpa [width] using hi.2)

/-- The physical registers after a message is written. -/
theorem writePmsi_physMsi (h : vdev.MsiConforms) {info : PtirqMsiInfo} {index : BitVec 16}
    (hinfo : info.pmsiAddr = remappableAddr index) :
    (writePmsi vdev info).physMsiAddr = info.pmsiAddr ∧
      (writePmsi vdev info).physMsiData = (info.pmsiData.setWidth 16).setWidth 32 := by
  have hdata := h.offset_data.1
  have hlow := reg_addr h index
  have hconf := h.write (vdev.msi.capoff + pcirMsiAddr) 4 ((remappableAddr index).setWidth 32)
  have hsplit := low_or_high (remappableAddr index)
  rw [physMsiAddr, physMsiData, writePmsi, hinfo]
  cases h64 : vdev.msi.is64bit with
  | false =>
    rw [h64] at hdata
    simp only [Bool.false_eq_true, if_false]
    refine ⟨?_, read_data hconf _⟩
    rw [PciDevice.pciPdevWriteCfg_of_ne _ _ _ _ (by rw [hdata]; simp), hlow]
    rw [remappableAddr_high] at hsplit
    exact hsplit
  | true =>
    rw [h64] at hdata
    have hconf' := hconf.write (vdev.msi.capoff + pcirMsiAddrHigh) 4
      ((remappableAddr index >>> 32).setWidth 32)
    simp only [if_true]
    refine ⟨?_, read_data hconf' _⟩
    rw [PciDevice.pciPdevWriteCfg_of_ne _ _ _ _ (by rw [hdata]; simp),
      PciDevice.pciPdevWriteCfg_of_ne _ _ _ _ (by rw [h.offset_addr.2]; simp), hlow,
      PciDevice.pciPdevWriteCfg_of_ne _ _ _ _ (by rw [hdata]; simp), reg_addrHigh hconf h64]
    exact hsplit

/-- Turning the enable bit leaves the address and the data of the physical function alone. -/
theorem enableDisableMsi_physMsi (h : vdev.MsiPlaced) (enable : Bool) :
    (enableDisableMsi vdev enable).physMsiAddr = vdev.physMsiAddr ∧
      (enableDisableMsi vdev enable).physMsiData = vdev.physMsiData := by
  have hreg := fun k (hk : k ≠ 0) =>
    enableDisableMsi_reg_of_ne h enable (r := vdev.msi.capoff / 4 + k) (by omega)
  have hdata : (enableDisableMsi vdev enable).pdev.reg (vdev.msi.dataOffset / 4) =
      vdev.pdev.reg (vdev.msi.dataOffset / 4) := by
    rw [h.offset_data.1]
    exact hreg _ (by split <;> decide)
  constructor
  · rw [physMsiAddr, physMsiAddr, ← hreg 1 (by decide), ← hreg 2 (by decide)]
    rfl
  · rw [physMsiData, physMsiData, PciDevice.pciPdevReadCfg, PciDevice.pciPdevReadCfg, ← hdata]
    rfl

/-! ### What is written

The frame of a write: the registers of the virtual capability in its lanes, the MSI registers of
the physical device, and the one entry of the remapping table. -/

/-- Only the MSI registers of the physical device are written. -/
structure MsiFrame (v v' : VpciVdev) : Prop where
  same : SameShape v v'
  cfg : v'.toPciVdev = v.toPciVdev
  pdev : PciDevice.ChangesOnly v.msiRegs v.pdev v'.pdev

namespace MsiFrame

theorem refl (v : VpciVdev) : MsiFrame v v := ⟨.refl _, rfl, .refl _ _⟩

theorem trans {v v₁ v₂ : VpciVdev} (h : MsiFrame v v₁) (h' : MsiFrame v₁ v₂) : MsiFrame v v₂ := by
  refine ⟨h.same.trans h'.same, h'.cfg.trans h.cfg, h.pdev.trans ?_⟩
  have hregs : v₁.msiRegs = v.msiRegs := by rw [msiRegs, msiRegs, h.same.msi]
  exact hregs ▸ h'.pdev

/-- Where the capability lies is configuration, which no MSI operation writes. -/
theorem placed {v v' : VpciVdev} (h : MsiFrame v v') (hplaced : v.MsiPlaced) : v'.MsiPlaced := by
  constructor
  · rw [h.same.msi]
    exact hplaced.dvd
  · rw [h.same.msi]
    exact hplaced.le

theorem write (v : VpciVdev) {offset : ℕ} (bytes : ℕ) (val : Reg) (hmem : offset / 4 ∈ v.msiRegs) :
    MsiFrame v { v with pdev := v.pdev.pciPdevWriteCfg offset bytes val } :=
  ⟨⟨rfl, rfl, rfl, rfl, rfl⟩, rfl, .pciPdevWriteCfg _ _ hmem⟩

theorem enableDisableMsi (h : vdev.MsiPlaced) (enable : Bool) :
    MsiFrame vdev (enableDisableMsi vdev enable) := by
  refine write _ _ _ ?_
  rw [h.offset_ctrl.1]
  exact ⟨le_rfl, Nat.le_add_right _ _⟩

theorem writePmsi (h : vdev.MsiPlaced) (info : PtirqMsiInfo) :
    MsiFrame vdev (writePmsi vdev info) := by
  have haddr : (vdev.msi.capoff + pcirMsiAddr) / 4 ∈ vdev.msiRegs := by
    rw [h.offset_addr.1, msiRegs]
    refine ⟨by omega, ?_⟩
    split <;> omega
  have hhigh : (vdev.msi.capoff + pcirMsiAddrHigh) / 4 ∈ vdev.msiRegs := by
    rw [h.offset_addr.2, msiRegs]
    refine ⟨by omega, ?_⟩
    split <;> omega
  have hdata : vdev.msi.dataOffset / 4 ∈ vdev.msiRegs := by
    rw [h.offset_data.1, msiRegs]
    exact ⟨Nat.le_add_right _ _, le_rfl⟩
  rw [Acrn.writePmsi]
  split
  · exact ((write _ _ _ haddr).trans (write _ _ _ hhigh)).trans (write _ _ _ hdata)
  · exact (write _ _ _ haddr).trans (write _ _ _ hdata)

end MsiFrame

section

variable (m : Machine) (lapicLdr : PcpuId → U32) (vm : ℕ) (unit : DmarUnit)

/-- `remap_vmsi` writes the registers of the MSI capability and nothing else of the device. -/
theorem remapVmsi_frame (h : vdev.MsiPlaced) :
    MsiFrame vdev (remapVmsi m lapicLdr vm vdev unit).1 := by
  rw [remapVmsi]
  dsimp only
  split
  · have hwrite := MsiFrame.writePmsi h
      (ptirqMsixRemap m lapicLdr unit vm vdev.bdf vdev.pbdf (vmsiInfo vdev)).2
    exact hwrite.trans (.enableDisableMsi (hwrite.placed h) true)
  · exact .refl _

/-- `remap_vmsi` keeps the physical and the virtual capability of one shape, whatever it
programs. -/
theorem remapVmsi_conforms (h : vdev.MsiConforms) :
    (remapVmsi m lapicLdr vm vdev unit).1.MsiConforms := by
  rw [remapVmsi]
  dsimp only
  split
  · exact enableDisableMsi_conforms (writePmsi_conforms h _) _
  · exact h

/-- The virtual device after a write to the capability. -/
def vmsiVirtWrite (vdev : VpciVdev) (offset bytes : ℕ) (val : Reg) : VpciVdev :=
  let roMask := vdev.msi.roMask offset bytes
  let old := pciVdevReadCfg vdev.toPciVdev offset bytes
  { vdev with
    toPciVdev := pciVdevWriteCfg vdev.toPciVdev offset bytes (old &&& roMask ||| val &&& ~~~roMask) }

theorem vmsiVirtWrite_conforms (h : vdev.MsiConforms) (offset bytes : ℕ) (val : Reg) :
    (vmsiVirtWrite vdev offset bytes val).MsiConforms :=
  ⟨⟨h.dvd, h.le⟩, h.enable, h.addr, h.addrLow, h.addrHigh, h.data⟩

theorem vmsiVirtWrite_same (vdev : VpciVdev) (offset bytes : ℕ) (val : Reg) :
    SameShape vdev (vmsiVirtWrite vdev offset bytes val) := ⟨rfl, rfl, rfl, rfl, rfl⟩

/-- The part of `vmsi_write_cfg` after the virtual registers are written. -/
def vmsiUpdate (vdev : VpciVdev) (unit : DmarUnit) : VpciVdev × DmarUnit :=
  if vdev.virtMsiEnable = true then remapVmsi m lapicLdr vm (enableDisableMsi vdev false) unit
  else (enableDisableMsi vdev false, unit)

/-- The enable bit as `vmsi_write_cfg` reads it. -/
theorem msgctrl_enable (h : vdev.MsiPlaced) :
    pciVdevReadCfg vdev.toPciVdev (vdev.msi.capoff + pcirMsiCtrl) 2 &&& pcimMsictrlMsiEnable ≠
      0#32 ↔ vdev.virtMsiEnable = true := by
  rw [pcimMsictrlMsiEnable, ← BitVec.shiftLeft_zero 0x1#32, and_one_shiftLeft_ne_zero (by decide),
    pciVdevReadCfg, getLsbD_readLanes, h.offset_ctrl.1, h.offset_ctrl.2, virtMsiEnable]
  simp [width]

/-- A write either reaches no bit, or the virtual registers are written and the physical device
follows. -/
theorem vmsiWriteCfg_eq (h : vdev.MsiPlaced) (offset bytes : ℕ) (val : Reg) :
    vmsiWriteCfg m lapicLdr vm vdev unit offset bytes val =
      if vdev.msi.roMask offset bytes ≠ ~~~0#32 then
        vmsiUpdate m lapicLdr vm (vmsiVirtWrite vdev offset bytes val) unit
      else (vdev, unit) := by
  rw [vmsiWriteCfg, vmsiUpdate]
  split
  · refine if_congr ?_ rfl rfl
    have hplaced : (enableDisableMsi (vmsiVirtWrite vdev offset bytes val) false).MsiPlaced :=
      ⟨h.dvd, h.le⟩
    exact msgctrl_enable hplaced
  · rfl

end

/-- The physical device sends the messages that the guest has set up, remapped. -/
structure MsiRemapped (lapicLdr : PcpuId → U32) (d : RemapDevice) (m : Machine) (vdev : VpciVdev)
    (unit : DmarUnit) : Prop where
  enable : vdev.virtMsiEnable = true
  legal : (vmsiInfo vdev).Legal
  addr : vdev.physMsiAddr = (ptirqMsixRemap m lapicLdr unit d.vmId d.virtBdf vdev.pbdf
    (vmsiInfo vdev)).2.pmsiAddr
  data : vdev.physMsiData = (ptirqMsixRemap m lapicLdr unit d.vmId d.virtBdf vdev.pbdf
    (vmsiInfo vdev)).2.pmsiData
  selects : irIndex vdev.physMsiAddr vdev.physMsiData = some d.index
  irte : CarriesMsi lapicLdr d ⟨m, vdev.pbdf, vmsiInfo vdev⟩ (unit.irTable d.index)

section

variable (m : Machine) (lapicLdr : PcpuId → U32) (unit : DmarUnit)

/-- What the guest programmed is read from the virtual configuration space alone. -/
theorem vmsiInfo_congr {v v' : VpciVdev} (hcfg : v'.toPciVdev = v.toPciVdev)
    (hmsi : v'.msi = v.msi) : vmsiInfo v' = vmsiInfo v := by
  rw [vmsiInfo, vmsiInfo, hcfg, hmsi]

theorem virtMsiEnable_congr {v v' : VpciVdev} (hcfg : v'.toPciVdev = v.toPciVdev)
    (hmsi : v'.msi = v.msi) : v'.virtMsiEnable = v.virtMsiEnable := by
  rw [virtMsiEnable, virtMsiEnable, hcfg, hmsi]

/-- `remap_vmsi` of an enabled device with a legal vector. -/
theorem remapVmsi_legal (h : vdev.MsiConforms) {d : RemapDevice} (hbdf : vdev.bdf = d.virtBdf)
    (henable : vdev.virtMsiEnable = true) (hlegal : (vmsiInfo vdev).Legal) :
    (remapVmsi m lapicLdr d.vmId vdev unit).1.physMsiEnable = true ∧
      MsiRemapped lapicLdr d m (remapVmsi m lapicLdr d.vmId vdev unit).1
        (remapVmsi m lapicLdr d.vmId vdev unit).2 := by
  obtain ⟨hsame, hcfg, -⟩ := remapVmsi_frame m lapicLdr d.vmId unit h.toMsiPlaced
  have hinfo := vmsiInfo_congr hcfg hsame.msi
  have hvirt := virtMsiEnable_congr hcfg hsame.msi
  revert hsame hcfg hinfo hvirt
  rw [remapVmsi]
  dsimp only
  rw [if_pos hlegal, hbdf]
  dsimp only
  intro hsame _ hinfo hvirt
  set info := (ptirqMsixRemap m lapicLdr unit d.vmId d.virtBdf vdev.pbdf (vmsiInfo vdev)).2
  have hphys := enableDisableMsi_physMsi (writePmsi_conforms h info).toMsiPlaced true
  have haddr : info.pmsiAddr = remappableAddr d.index := rfl
  have hmsg := writePmsi_physMsi h haddr
  refine ⟨enableDisableMsi_physMsiEnable (writePmsi_conforms h _) true,
    hvirt.trans henable, ?_, ?_, ?_, ?_, ?_⟩
  · rwa [hinfo]
  · rw [hphys.1, hmsg.1, hinfo, hsame.pbdf]
    rfl
  · rw [hphys.2, hmsg.2]
    rfl
  · rw [hphys.1, hphys.2, hmsg.1]
    exact irIndex_remappableAddr _ _
  · rw [hinfo, hsame.pbdf]
    exact ptirqMsixRemap_entry lapicLdr d m unit vdev.pbdf (vmsiInfo vdev)

/-- The physical device after an update. -/
theorem vmsiUpdate_spec (h : vdev.MsiConforms) {d : RemapDevice} (hbdf : vdev.bdf = d.virtBdf)
    {vdev' : VpciVdev} {unit' : DmarUnit}
    (hupdate : vmsiUpdate m lapicLdr d.vmId vdev unit = (vdev', unit')) :
    MsiFrame vdev vdev' ∧ vdev'.MsiConforms ∧
      (vdev'.physMsiEnable = true ↔ vdev'.virtMsiEnable = true ∧ (vmsiInfo vdev').Legal) ∧
      (vdev'.physMsiEnable = true → MsiRemapped lapicLdr d m vdev' unit') := by
  have hframe := MsiFrame.enableDisableMsi h.toMsiPlaced false
  have hconf := enableDisableMsi_conforms h false
  have hoff := enableDisableMsi_physMsiEnable h false
  have hvirt := virtMsiEnable_congr hframe.cfg hframe.same.msi
  rw [vmsiUpdate] at hupdate
  generalize enableDisableMsi vdev false = disabled at hupdate hframe hoff hvirt hconf
  split at hupdate
  · next henable =>
    rw [← hvirt] at henable
    by_cases hlegal : (vmsiInfo disabled).Legal
    · obtain ⟨hon, hremapped⟩ := remapVmsi_legal m lapicLdr unit hconf
        (hframe.same.bdf.trans hbdf) henable hlegal
      have hframe' := remapVmsi_frame m lapicLdr d.vmId unit hconf.toMsiPlaced
      have hconf' := remapVmsi_conforms m lapicLdr d.vmId unit hconf
      rw [hupdate] at hon hremapped hframe' hconf'
      exact ⟨hframe.trans hframe', hconf',
        ⟨fun _ => ⟨hremapped.enable, hremapped.legal⟩, fun _ => hon⟩,
        fun _ => hremapped⟩
    · -- the physical device stays disabled without a legal vector
      rw [remapVmsi, if_neg hlegal] at hupdate
      cases hupdate
      rw [hoff]
      exact ⟨hframe, hconf, ⟨fun hf => absurd hf (by decide), fun hl => absurd hl.2 hlegal⟩,
        fun hf => absurd hf (by decide)⟩
  · next hdisable =>
    cases hupdate
    rw [hoff, hvirt]
    exact ⟨hframe, hconf, ⟨fun hf => absurd hf (by decide), fun hl => absurd hl.1 hdisable⟩,
      fun hf => absurd hf (by decide)⟩

/-- A write reaches the virtual registers of its own lanes at most. -/
theorem vmsiWriteCfg_cfg (vdev : VpciVdev) (vmId offset bytes : ℕ) (val : Reg) :
    SameShape vdev (vmsiWriteCfg m lapicLdr vmId vdev unit offset bytes val).1 ∧
      ∃ x, (vmsiWriteCfg m lapicLdr vmId vdev unit offset bytes val).1.toPciVdev =
        pciVdevWriteCfg vdev.toPciVdev offset bytes x := by
  have hremap : ∀ v : VpciVdev, SameShape v (remapVmsi m lapicLdr vmId v unit).1 ∧
      (remapVmsi m lapicLdr vmId v unit).1.toPciVdev = v.toPciVdev := by
    intro v
    rw [remapVmsi]
    dsimp only
    split
    · exact ⟨⟨rfl, rfl, rfl, rfl, rfl⟩, rfl⟩
    · exact ⟨.refl _, rfl⟩
  rw [vmsiWriteCfg]
  dsimp only
  split
  · split
    · obtain ⟨hsame, hcfg⟩ := hremap (enableDisableMsi (vmsiVirtWrite vdev offset bytes val) false)
      have hvirt : SameShape vdev
          (enableDisableMsi (vmsiVirtWrite vdev offset bytes val) false) := ⟨rfl, rfl, rfl, rfl, rfl⟩
      exact ⟨hvirt.trans hsame, _, hcfg⟩
    · exact ⟨⟨rfl, rfl, rfl, rfl, rfl⟩, _, rfl⟩
  · exact ⟨.refl _, _, (pciVdevWriteCfg_read vdev.toPciVdev offset bytes).symm⟩

/-- A write reaches the MSI registers of the physical device at most. -/
theorem vmsiWriteCfg_pdev (h : vdev.MsiPlaced) (vmId offset bytes : ℕ) (val : Reg) :
    PciDevice.ChangesOnly vdev.msiRegs vdev.pdev
      (vmsiWriteCfg m lapicLdr vmId vdev unit offset bytes val).1.pdev := by
  rw [vmsiWriteCfg_eq m lapicLdr vmId unit h, vmsiUpdate]
  have hplaced : (vmsiVirtWrite vdev offset bytes val).MsiPlaced := ⟨h.dvd, h.le⟩
  have hoff := MsiFrame.enableDisableMsi hplaced false
  split
  · split
    · exact (hoff.trans (remapVmsi_frame m lapicLdr vmId unit (hoff.placed hplaced))).pdev
    · exact hoff.pdev
  · exact .refl _ _

/-- Only the entry of the device is written. -/
theorem vmsiWriteCfg_irTable_of_ne {vmId : ℕ} {index : BitVec 16}
    (hindex : index ≠ irteIndex vmId vdev.bdf) (offset bytes : ℕ) (val : Reg) :
    (vmsiWriteCfg m lapicLdr vmId vdev unit offset bytes val).2.irTable index =
      unit.irTable index := by
  have hremap : ∀ v : VpciVdev, v.bdf = vdev.bdf →
      (remapVmsi m lapicLdr vmId v unit).2.irTable index = unit.irTable index := by
    intro v hbdf
    rw [remapVmsi]
    dsimp only
    split
    · exact Function.update_of_ne (by rwa [hbdf]) _ _
    · rfl
  rw [vmsiWriteCfg]
  dsimp only
  split
  · split
    · exact hremap _ rfl
    · rfl
  · rfl

/-- Only the entry of the device is freed. -/
theorem deinitVmsi_irTable_of_ne {vmId : ℕ} {index : BitVec 16}
    (hindex : index ≠ irteIndex vmId vdev.bdf) :
    (deinitVmsi vmId vdev unit).irTable index = unit.irTable index := by
  rw [deinitVmsi]
  split
  · exact Function.update_of_ne hindex _ _
  · rfl

end

/-! ## Writes in any order

The invariant compares the physical device with the virtual registers as the last write that
reached a bit has left them. Other writes change neither. -/

/-- A pass-through device and the remapping unit, with the virtual machines as they were when a
write last reached a bit of the capability. -/
structure VmsiState where
  vdev : VpciVdev
  unit : DmarUnit
  remapped : Option Machine

/-- A write of the guest to the configuration space of the device. -/
structure VmsiWrite where
  m : Machine
  offset : ℕ
  bytes : ℕ
  val : Reg

/-- The write carried out. -/
def VmsiState.write (lapicLdr : PcpuId → U32) (d : RemapDevice) (s : VmsiState) (w : VmsiWrite) :
    VmsiState :=
  let (vdev, unit) := vmsiWriteCfg w.m lapicLdr d.vmId s.vdev s.unit w.offset w.bytes w.val
  ⟨vdev, unit, if s.vdev.msi.roMask w.offset w.bytes ≠ ~~~0#32 then some w.m else s.remapped⟩

/-- Aligned writes inside the capability. -/
def InCapability (s : VmsiState) (w : VmsiWrite) : Prop :=
  Aligned w.offset w.bytes ∧ s.vdev.msicapAccess w.offset = true

/-- The writes to a device in the state `start`. -/
def vmsiSystem (lapicLdr : PcpuId → U32) (d : RemapDevice) (start : VmsiState) :
    Transition.System VmsiState VmsiWrite where
  init s := s = start
  step s w s' := s' = s.write lapicLdr d w

/-- What holds of a device in every state of a run. -/
structure VmsiState.Inv (lapicLdr : PcpuId → U32) (d : RemapDevice) (start s : VmsiState) :
    Prop where
  same : SameShape start.vdev s.vdev
  conforms : s.vdev.MsiConforms
  readOnly : ∀ k, s.vdev.cfgdata (start.vdev.msi.capoff / 4 + k) &&& start.vdev.msi.roReg k =
    start.vdev.cfgdata (start.vdev.msi.capoff / 4 + k) &&& start.vdev.msi.roReg k
  found : s.remapped = none → s.vdev = start.vdev ∧ s.unit = start.unit
  follows : ∀ m, s.remapped = some m →
    (s.vdev.physMsiEnable = true ↔ s.vdev.virtMsiEnable = true ∧ (vmsiInfo s.vdev).Legal) ∧
    (s.vdev.physMsiEnable = true → MsiRemapped lapicLdr d m s.vdev s.unit)

/-- An aligned access that `msicap_access` sends to the capability is one of the accesses that the
lemmas on lanes are about. -/
theorem msiAccess_of_msicapAccess {offset bytes : ℕ} (h : vdev.MsiPlaced)
    (hlen : vdev.msi.caplen = if vdev.msi.is64bit then 14 else 10) (haligned : Aligned offset bytes)
    (haccess : vdev.msicapAccess offset = true) : MsiAccess vdev.msi offset bytes := by
  rw [msicapAccess, Bool.and_eq_true, Bool.and_eq_true, decide_eq_true_eq, decide_eq_true_eq,
    hlen] at haccess
  obtain ⟨-, hle, hlt⟩ := haccess
  exact ⟨haligned, h.dvd, hle, by omega⟩

namespace VmsiState.Inv

variable {lapicLdr : PcpuId → U32} {d : RemapDevice} {start s : VmsiState}

theorem refl (hconf : start.vdev.MsiConforms) (hnone : start.remapped = none) :
    start.Inv lapicLdr d start :=
  ⟨.refl _, hconf, fun _ => rfl, fun _ => ⟨rfl, rfl⟩, fun m hm => by simp [hnone] at hm⟩

/-- The step lemma: a guest write inside the capability keeps the physical capability in step with
the virtual one. -/
theorem write (h : start.Inv lapicLdr d s) (hbdf : start.vdev.bdf = d.virtBdf)
    (hlen : start.vdev.msi.caplen = if start.vdev.msi.is64bit then 14 else 10) {w : VmsiWrite}
    (hw : InCapability s w) : start.Inv lapicLdr d (s.write lapicLdr d w) := by
  have haccess : MsiAccess start.vdev.msi w.offset w.bytes := by
    rw [← h.same.msi] at hlen ⊢
    exact msiAccess_of_msicapAccess h.conforms.toMsiPlaced hlen hw.1 hw.2
  rw [VmsiState.write, vmsiWriteCfg_eq w.m lapicLdr d.vmId s.unit h.conforms.toMsiPlaced]
  by_cases hreach : s.vdev.msi.roMask w.offset w.bytes ≠ ~~~0#32
  · obtain ⟨vdev', unit', hupdate⟩ : ∃ vdev' unit', vmsiUpdate w.m lapicLdr d.vmId
        (vmsiVirtWrite s.vdev w.offset w.bytes w.val) s.unit = (vdev', unit') := ⟨_, _, rfl⟩
    obtain ⟨hframe, hconf, hiff, hremapped⟩ := vmsiUpdate_spec w.m lapicLdr s.unit
      (vmsiVirtWrite_conforms h.conforms w.offset w.bytes w.val) (h.same.bdf.trans hbdf) hupdate
    simp only [if_pos hreach, hupdate]
    refine ⟨(h.same.trans (vmsiVirtWrite_same _ _ _ _)).trans hframe.same, hconf,
      fun k => ?_, fun hnone => ?_, fun m hm => ?_⟩
    · rw [← h.readOnly k, hframe.cfg]
      have hdiv := haccess.sub_div
      -- the register of the access keeps its read-only bits, and the others are untouched
      by_cases hk : k = (w.offset - start.vdev.msi.capoff) / 4
      · rw [hk, ← hdiv, vmsiVirtWrite]
        dsimp only
        rw [pciVdevWriteCfg_self, pciVdevReadCfg, h.same.msi]
        exact haccess.write_and_roReg _ _
      · rw [vmsiVirtWrite]
        dsimp only
        rw [pciVdevWriteCfg_of_ne _ _ _ _ (by omega)]
    · cases hnone
    · cases hm
      exact ⟨hiff, hremapped⟩
  · simp only [if_neg hreach]
    exact h

end VmsiState.Inv

/-- What `init_vmsi` has found and made. -/
theorem initVmsi_eq_some {fuel : ℕ} {vdev vdev' : VpciVdev} (h : initVmsi fuel vdev = some vdev') :
    ∃ found, findMsiCap vdev.pdev fuel (vdev.pdev.pciPdevReadCfg pcirCapPtr 1) = some found ∧
      vdev' = if (recordMsiCap vdev found).hasMsiCap then initVmsiCap (recordMsiCap vdev found)
        else recordMsiCap vdev found := by
  rw [initVmsi] at h
  cases hfind : findMsiCap vdev.pdev fuel (vdev.pdev.pciPdevReadCfg pcirCapPtr 1) with
  | none =>
    rw [hfind] at h
    cases h
  | some found =>
    rw [hfind] at h
    exact ⟨found, rfl, (Option.some.inj h).symm⟩

/-- `init_vmsi` takes the length of the capability from its 64-bit bit alone. -/
theorem initVmsi_caplen {fuel : ℕ} {vdev vdev' : VpciVdev} (h : initVmsi fuel vdev = some vdev')
    (hcap : vdev'.hasMsiCap = true) :
    vdev'.msi.caplen = if vdev'.msi.is64bit then 14 else 10 := by
  obtain ⟨found, -, rfl⟩ := initVmsi_eq_some h
  split
  · rfl
  · next hnone =>
    rw [if_neg hnone] at hcap
    exact absurd hcap hnone

/-- **The physical MSI follows the virtual one** once a write has reached a bit of the
capability, and from the start when it was disabled then. -/
theorem vmsi_follows_guest (lapicLdr : PcpuId → U32) (d : RemapDevice) {fuel : ℕ}
    {vdev : VpciVdev} {start s : VmsiState} (hinit : initVmsi fuel vdev = some start.vdev)
    (hcap : start.vdev.hasMsiCap = true) (hconf : start.vdev.MsiConforms)
    (hbdf : start.vdev.bdf = d.virtBdf) (hnone : start.remapped = none)
    (hrun : Transition.Reach (vmsiSystem lapicLdr d start) InCapability s) :
    (∀ k, s.vdev.cfgdata (start.vdev.msi.capoff / 4 + k) &&& start.vdev.msi.roReg k =
      start.vdev.cfgdata (start.vdev.msi.capoff / 4 + k) &&& start.vdev.msi.roReg k) ∧
    (s.remapped = none → s.vdev = start.vdev ∧ s.unit = start.unit) ∧
    (s.remapped ≠ none ∨ start.vdev.physMsiEnable = false →
      (s.vdev.physMsiEnable = true → ∃ m, s.remapped = some m ∧
        MsiRemapped lapicLdr d m s.vdev s.unit) ∧
      (s.vdev.virtMsiEnable = false → s.vdev.physMsiEnable = false)) := by
  have hlen := initVmsi_caplen hinit hcap
  have hinv : start.Inv lapicLdr d s := by
    refine hrun.invariant (fun s hs => ?_) fun s w s' hw hs h => ?_
    · rw [hs]
      exact .refl hconf hnone
    · rw [hs]
      exact h.write hbdf hlen hw
  refine ⟨hinv.readOnly, hinv.found, fun hstart => ?_⟩
  have hphys : s.vdev.physMsiEnable = true → ∃ m, s.remapped = some m ∧
      MsiRemapped lapicLdr d m s.vdev s.unit := by
    intro hon
    cases hremapped : s.remapped with
    | none =>
      obtain hne | hoff := hstart
      · exact absurd hremapped hne
      · rw [(hinv.found hremapped).1, hoff] at hon
        cases hon
    | some m => exact ⟨m, rfl, (hinv.follows m hremapped).2 hon⟩
  refine ⟨hphys, fun hvirt => ?_⟩
  by_contra hon
  rw [Bool.not_eq_false] at hon
  obtain ⟨m, -, hremapped⟩ := hphys hon
  exact absurd (hvirt.symm.trans hremapped.enable) (by decide)

/-- A device with a 32-bit MSI capability at 40H, enabled or not, which sends its messages to the
first processor. -/
def msiDevice (enabled : Bool) : VpciVdev where
  cfgdata := fun _ => 0#32
  bar := fun _ => ⟨.none, 0#64, 0#64, 0#64, 0#32, 0#32⟩
  vbarBase := fun _ => 0#64
  bdf := 0x08#16
  pbdf := 0x10#16
  nrBars := 6
  msi := ⟨false, 0, 0⟩
  vdevOps := .ptDev
  pdev := {
    reg := fun r => if r = 13 then 0x40#32
      else if r = 16 then (if enabled then 0x10005#32 else 0x5#32)
      else if r = 17 then 0xFEE00000#32 else if r = 18 then 0x31#32 else 0#32
    writable := fun r => if r = 16 then 0x710000#32 else if r = 17 then 0xFFFFFFFC#32
      else if r = 18 then 0xFFFF#32 else 0#32
    w1c := fun _ => 0#32 }

/-- The device after `init_vmsi`. -/
def msiStart (enabled : Bool) : VmsiState :=
  ⟨initVmsiCap (recordMsiCap (msiDevice enabled) 0x40), ⟨false, fun _ => DmarIrEntry.zero⟩, none⟩

theorem initVmsi_msiDevice (enabled : Bool) :
    initVmsi 1 (msiDevice enabled) = some (msiStart enabled).vdev := by
  cases enabled <;> rfl

theorem msiStart_conforms (enabled : Bool) : (msiStart enabled).vdev.MsiConforms := by
  have haddr : ∀ i < 32, 2 ≤ i → ((msiStart enabled).vdev.pdev.writable
      ((msiStart enabled).vdev.msi.capoff / 4 + 1)).getLsbD i = true := by
    cases enabled <;> decide
  refine ⟨⟨?_, ?_⟩, ?_, fun i h2 hi => haddr i hi h2, ?_, ?_, ?_⟩ <;>
  · cases enabled <;> decide

/-- The device 0:1.0 of the first virtual machine. -/
def msiRemapDevice : RemapDevice := ⟨0, 0x08#16, by decide, by decide, by decide⟩

/-- The logical IDs of the pCPUs, one bit each. -/
def oneBitLdr (p : PcpuId) : U32 := 1#32 <<< p.val

/-- The guest writes the vector 31H and enables MSI. -/
theorem vmsi_follows_guest_enable : ∃ s : VmsiState, s.vdev.physMsiEnable = true ∧
    ∃ m, MsiRemapped oneBitLdr msiRemapDevice m s.vdev s.unit := by
  let data : VmsiWrite := ⟨twoVcpus, 0x48, 1, 0x31#32⟩
  let enable : VmsiWrite := ⟨twoVcpus, 0x42, 2, 0x1#32⟩
  let first := (msiStart false).write oneBitLdr msiRemapDevice data
  let second := first.write oneBitLdr msiRemapDevice enable
  have hrun : Transition.Reach (vmsiSystem oneBitLdr msiRemapDevice (msiStart false)) InCapability
      second :=
    .step (.step (.init rfl) ⟨⟨by decide, by decide⟩, by decide⟩ rfl)
      ⟨⟨by decide, by decide⟩, by decide +kernel⟩ rfl
  have hon : second.vdev.physMsiEnable = true := by decide +kernel
  obtain ⟨-, -, hfollows⟩ := vmsi_follows_guest oneBitLdr msiRemapDevice
    (initVmsi_msiDevice false) (by decide) (msiStart_conforms false) rfl rfl hrun
  obtain ⟨m, -, hremapped⟩ := (hfollows (.inr (by decide))).1 hon
  exact ⟨second, hon, m, hremapped⟩

/-- A device that is found enabled goes on with the message it was found with when a write
reaches no bit of the capability. -/
theorem vmsi_found_enabled :
    initVmsi 1 (msiDevice true) = some (msiStart true).vdev ∧
      InCapability (msiStart true) ⟨twoVcpus, 0x40, 1, 0x0#32⟩ ∧
      let s := (msiStart true).write oneBitLdr msiRemapDevice ⟨twoVcpus, 0x40, 1, 0x0#32⟩
      s.vdev.physMsiEnable = true ∧ irIndex s.vdev.physMsiAddr s.vdev.physMsiData = none :=
  ⟨rfl, ⟨⟨by decide, by decide⟩, by decide⟩, by decide, by decide⟩

end Acrn
