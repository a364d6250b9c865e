import Acrn.PtCfg

/-!
# The configuration ports

`pci_cfgaddr_io_read` and its kin: a guest selects a register of a device with the address port
CF8H and reaches the bytes of it through the data ports CFCH to CFFH. A data access uses the
selection up.
-/

namespace Acrn

open BitField RegAccess

/-- `struct acrn_vpci` of a virtual machine, with the EPT that the BARs of its devices are in. -/
structure AcrnVpci where
  addr : U32
  pciVdevCnt : ℕ
  pciVdevs : ℕ → VpciVdev
  ept : PgMem

/-- All virtual machines and the remapping unit. -/
structure VpciWorld where
  vpci : ℕ → AcrnVpci
  unit : DmarUnit

/-- `PCI_CONFIG_ADDR`. -/
abbrev pciConfigAddr : BitVec 16 := 0xCF8#16
/-- `PCI_CONFIG_DATA`. -/
abbrev pciConfigData : BitVec 16 := 0xCFC#16
/-- `PCI_DISABLED_CONFIG_ADDR`. -/
def pciDisabledConfigAddr : U32 := 0x00FFFF00#32

/-! ## Devices -/

/-- `pci_find_vdev`. -/
def pciFindVdev (vpci : AcrnVpci) (vbdf : BitVec 16) : Option ℕ :=
  (List.range vpci.pciVdevCnt).find? fun i => decide ((vpci.pciVdevs i).bdf = vbdf)

/-- `read_vdev_cfg` of the device: `vhostbridge_read_cfg` or `vpci_read_pt_dev_cfg`. -/
def readVdevCfg (vdev : VpciVdev) (offset bytes : ℕ) : Reg :=
  match vdev.vdevOps with
  | .vhostbridge => pciVdevReadCfg vdev.toPciVdev offset bytes
  | .ptDev => vpciReadPtDevCfg vdev offset bytes

/-- `read_cfg`. -/
def readCfg (vpci : AcrnVpci) (bdf : BitVec 16) (offset bytes : ℕ) (val : U32) : U32 :=
  match pciFindVdev vpci bdf with
  | some i => readVdevCfg (vpci.pciVdevs i) offset bytes
  | none => val

section

variable (ops : MemoryOps) (m : Machine) (lapicLdr : PcpuId → U32) (vmId : ℕ)

/-- `write_vdev_cfg` of the device: `vhostbridge_write_cfg` or `vpci_write_pt_dev_cfg`. -/
def writeVdevCfg (s : PtCfg) (offset bytes : ℕ) (val : Reg) : PtCfg :=
  match s.vdev.vdevOps with
  | .vhostbridge => s
  | .ptDev => vpciWritePtDevCfg ops m lapicLdr vmId s offset bytes val

/-- `write_cfg`. -/
def writeCfg (w : VpciWorld) (bdf : BitVec 16) (offset bytes : ℕ) (val : U32) : VpciWorld :=
  let vpci := w.vpci vmId
  match pciFindVdev vpci bdf with
  | some i =>
    let s := writeVdevCfg ops m lapicLdr vmId ⟨vpci.pciVdevs i, vpci.ept, w.unit⟩ offset bytes val
    { vpci := Function.update w.vpci vmId
        { vpci with pciVdevs := Function.update vpci.pciVdevs i s.vdev, ept := s.ept }
      unit := s.unit }
  | none => w

end

/-! ## Ports -/

/-- `vpci_is_valid_access_offset`. -/
def vpciIsValidAccessOffset (offset bytes : ℕ) : Bool := decide (offset &&& (bytes - 1) = 0)

/-- `vpci_is_valid_access_byte`. -/
def vpciIsValidAccessByte (bytes : ℕ) : Bool :=
  decide (bytes = 1) || decide (bytes = 2) || decide (bytes = 4)

/-- `vpci_is_valid_access`. -/
def vpciIsValidAccess (offset bytes : ℕ) : Bool :=
  vpciIsValidAccessByte bytes && vpciIsValidAccessOffset offset bytes

/-- `cfg_addr.bits.enable`. -/
def cfgEnable (cfgAddr : U32) : Bool := cfgAddr.getLsbD 31

/-- `cfg_addr.bits.bdf`. -/
def cfgBdf (cfgAddr : U32) : BitVec 16 := cfgAddr.extractLsb' 8 16

/-- `cfg_addr.bits.reg_num`. -/
def cfgRegNum (cfgAddr : U32) : ℕ := (cfgAddr.extractLsb' 0 8).toNat

/-- The `target_reg` of an access to a data port. -/
def targetReg (cfgAddr : U32) (addr : BitVec 16) : ℕ :=
  cfgRegNum cfgAddr + (addr.toNat - pciConfigData.toNat)

/-- `pci_cfgaddr_io_read`. -/
def pciCfgaddrIoRead (vpci : AcrnVpci) (addr : BitVec 16) (bytes : ℕ) : U32 :=
  if addr = pciConfigAddr ∧ bytes = 4 then vpci.addr else ~~~0#32

/-- `pci_cfgaddr_io_write`. -/
def pciCfgaddrIoWrite (vpci : AcrnVpci) (addr : BitVec 16) (bytes : ℕ) (val : U32) : AcrnVpci :=
  if addr = pciConfigAddr ∧ bytes = 4 then { vpci with addr := val &&& ~~~0x7f000003#32 } else vpci

/-- A virtual machine is replaced. -/
def VpciWorld.setVpci (w : VpciWorld) (vmId : ℕ) (vpci : AcrnVpci) : VpciWorld :=
  { w with vpci := Function.update w.vpci vmId vpci }

/-- The address register is given up for a data access. -/
def VpciWorld.swapAddr (w : VpciWorld) (vmId : ℕ) : VpciWorld :=
  w.setVpci vmId { w.vpci vmId with addr := pciDisabledConfigAddr }

/-- `pci_cfgdata_io_read`. -/
def pciCfgdataIoRead (vmId : ℕ) (w : VpciWorld) (addr : BitVec 16) (bytes : ℕ) : VpciWorld × U32 :=
  -- `atomic_swap32` gives the selection up whatever comes of the access
  let cfgAddr := (w.vpci vmId).addr
  let w := w.swapAddr vmId
  let val := ~~~0#32
  if cfgEnable cfgAddr then
    if vpciIsValidAccess (targetReg cfgAddr addr) bytes then
      (w, readCfg (w.vpci vmId) (cfgBdf cfgAddr) (targetReg cfgAddr addr) bytes val)
    else (w, val)
  else (w, val)

/-- What a guest asks of a port: a read, or a write of what its RAX holds. -/
inductive PioDirection where
  | read
  | write (rax : U32)

/-- `struct pio_request`. -/
structure PioRequest where
  direction : PioDirection
  address : BitVec 16
  size : ℕ

/-- An access of a guest, with the virtual machines as they are then. -/
structure PortAccess where
  vmId : ℕ
  m : Machine
  req : PioRequest

/-- The bits of RAX that an access is about. -/
def pioMask (size : ℕ) : U32 := 0xFFFFFFFF#32 >>> (32 - 8 * size)

/-- `pio_default_read`. -/
def pioDefaultRead (size : ℕ) : U32 := BitVec.ofNat 32 (2 ^ (8 * size) - 1)

section

variable (ops : ℕ → MemoryOps) (lapicLdr : PcpuId → U32)

/-- `pci_cfgdata_io_write`. -/
def pciCfgdataIoWrite (m : Machine) (vmId : ℕ) (w : VpciWorld) (addr : BitVec 16) (bytes : ℕ)
    (val : U32) : VpciWorld :=
  let cfgAddr := (w.vpci vmId).addr
  let w := w.swapAddr vmId
  if cfgEnable cfgAddr then
    if vpciIsValidAccess (targetReg cfgAddr addr) bytes then
      writeCfg (ops vmId) m lapicLdr vmId w (cfgBdf cfgAddr) (targetReg cfgAddr addr) bytes val
    else w
  else w

/-- The port belongs to the handler that `vpci_init` registers for the address. -/
def isCfgaddrPort (port : BitVec 16) : Bool :=
  decide (pciConfigAddr ≤ port) && decide (port < pciConfigAddr + 1#16)

/-- The port belongs to the handler that `vpci_init` registers for the data. -/
def isCfgdataPort (port : BitVec 16) : Bool :=
  decide (pciConfigData ≤ port) && decide (port < pciConfigData + 4#16)

/-- `emulate_io` for the ports of configuration space, where no other handler is registered:
`hv_emulate_pio`, and what `emulate_pio_complete` gives the guest of a read. -/
def emulateIo (w : VpciWorld) (a : PortAccess) : VpciWorld × Option U32 :=
  let port := a.req.address
  let size := a.req.size
  match a.req.direction with
  | .write rax =>
    let val := rax &&& pioMask size
    if isCfgaddrPort port then
      (w.setVpci a.vmId (pciCfgaddrIoWrite (w.vpci a.vmId) port size val), none)
    else if isCfgdataPort port then
      (pciCfgdataIoWrite ops lapicLdr a.m a.vmId w port size val, none)
    else (w, none)
  | .read =>
    if isCfgaddrPort port then
      (w, some (pciCfgaddrIoRead (w.vpci a.vmId) port size &&& pioMask size))
    else if isCfgdataPort port then
      let (w, val) := pciCfgdataIoRead a.vmId w port size
      (w, some (val &&& pioMask size))
    else (w, some (pioDefaultRead size &&& pioMask size))

end

/-! ## The selection

The address register is compared with the history of the accesses: `lastAddr` reads off the latest
ones what should be selected. The ports of two virtual machines have nothing in common. -/

/-- The accesses that guests make to the ports from CF8H to CFFH. -/
def InPciPorts (a : PortAccess) : Prop :=
  (pciConfigAddr ≤ a.req.address ∧ a.req.address ≤ 0xCFF#16) ∧
    (a.req.size = 1 ∨ a.req.size = 2 ∨ a.req.size = 4)

/-- What the address port was last given by a virtual machine, from the latest access on: a data
access has used it up, and nothing is selected at first. -/
def lastAddr (vmId : ℕ) : List PortAccess → U32
  | [] => pciDisabledConfigAddr
  | a :: trace =>
    if a.vmId = vmId then
      if isCfgdataPort a.req.address then pciDisabledConfigAddr
      else
        match a.req.direction with
        | .write rax =>
          if a.req.address = pciConfigAddr ∧ a.req.size = 4 then rax &&& ~~~0x7f000003#32
          else lastAddr vmId trace
        | .read => lastAddr vmId trace
    else lastAddr vmId trace

/-- All virtual machines, and the accesses that they have made. -/
structure PortRun where
  world : VpciWorld
  trace : List PortAccess

/-- Accesses in any order, from a state on. -/
def portSystem (ops : ℕ → MemoryOps) (lapicLdr : PcpuId → U32) (start : VpciWorld) :
    Transition.System PortRun PortAccess where
  init s := s = ⟨start, []⟩
  step s a s' := s' = ⟨(emulateIo ops lapicLdr s.world a).1, a :: s.trace⟩

/-- `vpci_init` has disabled the address registers. -/
def VpciWorld.Fresh (w : VpciWorld) : Prop := ∀ vmId, (w.vpci vmId).addr = pciDisabledConfigAddr

theorem vpciIsValidAccess_iff {offset bytes : ℕ} :
    vpciIsValidAccess offset bytes = true ↔ Aligned offset bytes := by
  rw [vpciIsValidAccess, vpciIsValidAccessByte, vpciIsValidAccessOffset]
  simp only [Bool.and_eq_true, Bool.or_eq_true, decide_eq_true_eq, or_assoc]
  have hmask : ∀ k, offset &&& (2 ^ k - 1) = 0 ↔ 2 ^ k ∣ offset := by
    intro k
    rw [Nat.and_two_pow_sub_one_eq_mod, Nat.dvd_iff_mod_eq_zero]
  constructor
  · rintro ⟨hsize, hoffset⟩
    refine ⟨hsize, ?_⟩
    obtain rfl | rfl | rfl := hsize
    · exact one_dvd _
    · exact (hmask 1).1 hoffset
    · exact (hmask 2).1 hoffset
  · rintro ⟨hsize, hdvd⟩
    refine ⟨hsize, ?_⟩
    obtain rfl | rfl | rfl := hsize
    · exact (hmask 0).2 hdvd
    · exact (hmask 1).2 hdvd
    · exact (hmask 2).2 hdvd

/-- The device that an access to a data port reaches when the address register holds `reg`. -/
structure Designates (vpci : AcrnVpci) (reg : U32) (req : PioRequest) (i : ℕ) : Prop where
  data : isCfgdataPort req.address = true
  enable : cfgEnable reg = true
  aligned : Aligned (targetReg reg req.address) req.size
  found : pciFindVdev vpci (cfgBdf reg) = some i

theorem pciFindVdev_eq_some {vpci : AcrnVpci} {vbdf : BitVec 16} {i : ℕ}
    (h : pciFindVdev vpci vbdf = some i) : i < vpci.pciVdevCnt ∧ (vpci.pciVdevs i).bdf = vbdf := by
  have hfound := List.find?_some h
  rw [decide_eq_true_eq] at hfound
  exact ⟨List.mem_range.1 (List.mem_of_find?_eq_some h), hfound⟩

/-! ## One access

`AccessEffect` lists what an access can be: one of the address port, one of another port, a data
access with a device, or one without. All that follows is proved from this list. -/

section

variable (ops : ℕ → MemoryOps) (lapicLdr : PcpuId → U32) (w : VpciWorld) {vmId i : ℕ}
  {req : PioRequest}

/-- A device of a virtual machine is replaced, with the EPT and the remapping unit. -/
def VpciWorld.setVdev (vmId i : ℕ) (s : PtCfg) : VpciWorld where
  vpci := Function.update w.vpci vmId { w.vpci vmId with
    addr := pciDisabledConfigAddr
    pciVdevs := Function.update (w.vpci vmId).pciVdevs i s.vdev
    ept := s.ept }
  unit := s.unit

theorem setVdev_pciVdevs (vmId i : ℕ) (s : PtCfg) : ((w.setVdev vmId i s).vpci vmId).pciVdevs =
    Function.update (w.vpci vmId).pciVdevs i s.vdev := by
  rw [VpciWorld.setVdev]
  dsimp only
  rw [Function.update_self]

theorem swapAddr_self (vmId : ℕ) : (w.swapAddr vmId).vpci vmId =
    { w.vpci vmId with addr := pciDisabledConfigAddr } := Function.update_self _ _ _

theorem pciFindVdev_swapAddr (vmId : ℕ) (vbdf : BitVec 16) :
    pciFindVdev ((w.swapAddr vmId).vpci vmId) vbdf = pciFindVdev (w.vpci vmId) vbdf := by
  rw [swapAddr_self]
  rfl

theorem pciCfgdataIoRead_designated (h : Designates (w.vpci vmId) (w.vpci vmId).addr req i) :
    pciCfgdataIoRead vmId w req.address req.size = (w.swapAddr vmId,
      readVdevCfg ((w.vpci vmId).pciVdevs i) (targetReg (w.vpci vmId).addr req.address)
        req.size) := by
  rw [pciCfgdataIoRead, if_pos h.enable, if_pos (vpciIsValidAccess_iff.2 h.aligned), readCfg,
    pciFindVdev_swapAddr, h.found, swapAddr_self]

theorem pciCfgdataIoRead_none (hdata : isCfgdataPort req.address = true)
    (h : ∀ i, ¬ Designates (w.vpci vmId) (w.vpci vmId).addr req i) :
    pciCfgdataIoRead vmId w req.address req.size = (w.swapAddr vmId, ~~~0#32) := by
  rw [pciCfgdataIoRead]
  split
  · next henable =>
    split
    · next hvalid =>
      rw [readCfg, pciFindVdev_swapAddr]
      cases hfind : pciFindVdev (w.vpci vmId) (cfgBdf (w.vpci vmId).addr) with
      | none => rfl
      | some i => exact absurd ⟨hdata, henable, vpciIsValidAccess_iff.1 hvalid, hfind⟩ (h i)
    · rfl
  · rfl

variable (m : Machine) (val : U32)

theorem pciCfgdataIoWrite_designated (h : Designates (w.vpci vmId) (w.vpci vmId).addr req i) :
    pciCfgdataIoWrite ops lapicLdr m vmId w req.address req.size val =
      w.setVdev vmId i (writeVdevCfg (ops vmId) m lapicLdr vmId
        ⟨(w.vpci vmId).pciVdevs i, (w.vpci vmId).ept, w.unit⟩
        (targetReg (w.vpci vmId).addr req.address) req.size val) := by
  rw [pciCfgdataIoWrite, if_pos h.enable, if_pos (vpciIsValidAccess_iff.2 h.aligned), writeCfg,
    pciFindVdev_swapAddr, h.found, swapAddr_self, VpciWorld.swapAddr, VpciWorld.setVpci,
    VpciWorld.setVdev]
  dsimp only
  rw [Function.update_idem]

theorem pciCfgdataIoWrite_none (hdata : isCfgdataPort req.address = true)
    (h : ∀ i, ¬ Designates (w.vpci vmId) (w.vpci vmId).addr req i) :
    pciCfgdataIoWrite ops lapicLdr m vmId w req.address req.size val = w.swapAddr vmId := by
  rw [pciCfgdataIoWrite]
  split
  · next henable =>
    split
    · next hvalid =>
      rw [writeCfg, pciFindVdev_swapAddr]
      cases hfind : pciFindVdev (w.vpci vmId) (cfgBdf (w.vpci vmId).addr) with
      | none => rfl
      | some i => exact absurd ⟨hdata, henable, vpciIsValidAccess_iff.1 hvalid, hfind⟩ (h i)
    · rfl
  · rfl

end

/-- What an access does, and what it gives the guest: it is for the address port, for no port of
configuration space, for a data port with no device designated, or for a device. -/
inductive AccessEffect (ops : ℕ → MemoryOps) (lapicLdr : PcpuId → U32) (w : VpciWorld)
    (a : PortAccess) : VpciWorld × Option U32 → Prop where
  | readAddr : isCfgaddrPort a.req.address = true → a.req.direction = .read →
      AccessEffect ops lapicLdr w a (w,
        some (pciCfgaddrIoRead (w.vpci a.vmId) a.req.address a.req.size &&& pioMask a.req.size))
  | writeAddr (rax : U32) : isCfgaddrPort a.req.address = true → a.req.direction = .write rax →
      AccessEffect ops lapicLdr w a (w.setVpci a.vmId (pciCfgaddrIoWrite (w.vpci a.vmId)
        a.req.address a.req.size (rax &&& pioMask a.req.size)), none)
  | other (val : Option U32) : isCfgaddrPort a.req.address = false →
      isCfgdataPort a.req.address = false → AccessEffect ops lapicLdr w a (w, val)
  | none (val : Option U32) : isCfgdataPort a.req.address = true →
      (∀ i, ¬ Designates (w.vpci a.vmId) (w.vpci a.vmId).addr a.req i) →
      (a.req.direction = .read → val = some (pioMask a.req.size)) →
      AccessEffect ops lapicLdr w a (w.swapAddr a.vmId, val)
  | read (i : ℕ) : Designates (w.vpci a.vmId) (w.vpci a.vmId).addr a.req i →
      a.req.direction = .read →
      AccessEffect ops lapicLdr w a (w.swapAddr a.vmId,
        some (readVdevCfg ((w.vpci a.vmId).pciVdevs i)
          (targetReg (w.vpci a.vmId).addr a.req.address) a.req.size &&& pioMask a.req.size))
  | write (i : ℕ) (rax : U32) : Designates (w.vpci a.vmId) (w.vpci a.vmId).addr a.req i →
      a.req.direction = .write rax →
      AccessEffect ops lapicLdr w a (w.setVdev a.vmId i (writeVdevCfg (ops a.vmId) a.m lapicLdr
        a.vmId ⟨(w.vpci a.vmId).pciVdevs i, (w.vpci a.vmId).ept, w.unit⟩
        (targetReg (w.vpci a.vmId).addr a.req.address) a.req.size (rax &&& pioMask a.req.size)),
        Option.none)

theorem isCfgdataPort_of_isCfgaddrPort {port : BitVec 16} (h : isCfgaddrPort port = true) :
    port = pciConfigAddr ∧ isCfgdataPort port = false := by
  rw [isCfgaddrPort, Bool.and_eq_true, decide_eq_true_eq, decide_eq_true_eq] at h
  have hport : port = pciConfigAddr := by
    obtain ⟨hge, hlt⟩ := h
    apply BitVec.eq_of_toNat_eq
    rw [BitVec.le_def] at hge
    rw [BitVec.lt_def] at hlt
    have hnext : (pciConfigAddr + 1#16).toNat = pciConfigAddr.toNat + 1 := by decide
    omega
  exact ⟨hport, by rw [hport]; decide⟩

/-- No port belongs to both handlers. -/
theorem not_isCfgdataPort {port : BitVec 16} (h : isCfgaddrPort port = true) :
    ¬ isCfgdataPort port = true := by
  rw [(isCfgdataPort_of_isCfgaddrPort h).2]
  decide

theorem emulateIo_effect (ops : ℕ → MemoryOps) (lapicLdr : PcpuId → U32) (w : VpciWorld)
    (a : PortAccess) : AccessEffect ops lapicLdr w a (emulateIo ops lapicLdr w a) := by
  rw [emulateIo]
  cases haddr : isCfgaddrPort a.req.address with
  | true =>
    cases hdir : a.req.direction with
    | read => exact .readAddr haddr hdir
    | write rax => exact .writeAddr rax haddr hdir
  | false =>
    cases hdata : isCfgdataPort a.req.address with
    | false => cases a.req.direction <;> exact .other _ haddr hdata
    | true =>
      by_cases hdev : ∃ i, Designates (w.vpci a.vmId) (w.vpci a.vmId).addr a.req i
      · obtain ⟨i, hi⟩ := hdev
        cases hdir : a.req.direction with
        | read =>
          dsimp only
          rw [pciCfgdataIoRead_designated w hi]
          exact .read i hi hdir
        | write rax =>
          dsimp only
          rw [pciCfgdataIoWrite_designated ops lapicLdr w a.m _ hi]
          exact .write i rax hi hdir
      · rw [not_exists] at hdev
        cases hdir : a.req.direction with
        | read =>
          dsimp only
          rw [pciCfgdataIoRead_none w hdata hdev]
          refine .none _ hdata hdev fun _ => ?_
          dsimp only
          rw [show ~~~0#32 = BitVec.allOnes 32 from rfl, BitVec.allOnes_and]
        | write rax =>
          dsimp only
          rw [pciCfgdataIoWrite_none ops lapicLdr w a.m _ hdata hdev]
          exact .none _ hdata hdev fun h => by rw [hdir] at h; cases h

/-! ## The register and its bytes -/

/-- The low two bits of what is selected are clear. -/
theorem cfgRegNum_lastAddr (vmId : ℕ) (trace : List PortAccess) :
    cfgRegNum (lastAddr vmId trace) % 4 = 0 := by
  have hmask : ∀ rax : U32, cfgRegNum (rax &&& ~~~0x7f000003#32) % 4 = 0 := by
    -- `pci_cfgaddr_io_write` clears them
    intro rax
    have hbyte : ∀ x : BitVec 8, (x &&& 0xFC#8).toNat % 4 = 0 := by decide
    have hlow : (rax &&& ~~~0x7f000003#32).extractLsb' 0 8 = rax.extractLsb' 0 8 &&& 0xFC#8 := by
      rw [BitVec.extractLsb'_and]
      rfl
    rw [cfgRegNum, hlow]
    exact hbyte _
  have hnone : cfgRegNum pciDisabledConfigAddr % 4 = 0 := by decide
  induction trace with
  | nil => exact hnone
  | cons a trace ih =>
    rw [lastAddr]
    split
    · split
      · exact hnone
      · split
        · split
          · exact hmask _
          · exact ih
        · exact ih
    · exact ih

theorem cfgdata_offset {port : BitVec 16} (h : isCfgdataPort port = true) :
    port.toNat - pciConfigData.toNat < 4 := by
  rw [isCfgdataPort, Bool.and_eq_true, decide_eq_true_eq, decide_eq_true_eq, BitVec.le_def,
    BitVec.lt_def] at h
  have hnext : (pciConfigData + 4#16).toNat = pciConfigData.toNat + 4 := by decide
  omega

theorem pioMask_eq {size : ℕ} (h : size = 1 ∨ size = 2 ∨ size = 4) :
    pioMask size = fieldMask 32 0 (8 * size) := by
  obtain rfl | rfl | rfl := h <;> decide

/-- A device answers a read from the lanes of a register of its own, or with all ones. -/
theorem readVdevCfg_lanes (vdev : VpciVdev) {offset bytes : ℕ} (h : Aligned offset bytes) :
    ∃ x ∈ [vdev.cfgdata (offset / 4), vdev.pdev.reg (offset / 4), BitVec.allOnes 32],
      readVdevCfg vdev offset bytes &&& pioMask bytes = readLanes x offset bytes := by
  have hmask : ∀ x, readLanes x offset bytes &&& pioMask bytes = readLanes x offset bytes := by
    intro x
    apply BitVec.eq_of_getLsbD_eq
    intro i hi
    rw [BitVec.getLsbD_and, pioMask_eq h.size, getLsbD_fieldMask (by omega), getLsbD_readLanes,
      h.width_eq]
    by_cases hw : i < 8 * bytes
    · simp [hw, hi]
    · simp [hw]
  have hones : ~~~0#32 &&& pioMask bytes = readLanes (BitVec.allOnes 32) offset bytes := by
    apply BitVec.eq_of_getLsbD_eq
    intro i hi
    have hend := shift_add_width_le offset bytes
    rw [show ~~~0#32 = BitVec.allOnes 32 from rfl, BitVec.allOnes_and, pioMask_eq h.size,
      getLsbD_fieldMask (by omega), getLsbD_readLanes, h.width_eq, BitVec.getLsbD_allOnes]
    rw [h.width_eq] at hend
    by_cases hw : i < 8 * bytes
    · simp [hw, hi, show shift offset bytes + i < 32 by omega]
    · simp [hw]
  rw [readVdevCfg]
  split
  · exact ⟨_, by simp, hmask _⟩
  · rw [vpciReadPtDevCfg]
    split
    · next hbar =>
      split
      · next hfour =>
        -- `pci_vdev_read_bar` reads the register at the offset of its index
        refine ⟨vdev.cfgdata (offset / 4), by simp, ?_⟩
        rw [pciVdevReadBar, pciVdevReadCfgU32, pciBarOffset_pciBarIndex hbar, ← hmask, hfour.1,
          readLanes_four]
      · exact ⟨_, by simp, hones⟩
    · split
      · exact ⟨vdev.pdev.reg (offset / 4), by simp, hmask _⟩
      · exact ⟨vdev.cfgdata (offset / 4), by simp, hmask _⟩

/-! ## Accesses in any order

By induction on the run the address register is what the history says; what an access does then
follows from the list above, with the register that the history gives. -/

section

variable {ops : ℕ → MemoryOps} {lapicLdr : PcpuId → U32} {start w : VpciWorld}

/-- An access stays in its virtual machine. -/
theorem emulateIo_vpci_of_ne (a : PortAccess) {vmId : ℕ} (h : vmId ≠ a.vmId) :
    (emulateIo ops lapicLdr w a).1.vpci vmId = w.vpci vmId := by
  have heffect := emulateIo_effect ops lapicLdr w a
  generalize emulateIo ops lapicLdr w a = r at heffect ⊢
  cases heffect with
  | readAddr => rfl
  | writeAddr => exact Function.update_of_ne h _ _
  | other => rfl
  | none => exact Function.update_of_ne h _ _
  | read => exact Function.update_of_ne h _ _
  | write => exact Function.update_of_ne h _ _

theorem isCfgaddrPort_pciConfigAddr : isCfgaddrPort pciConfigAddr = true := by decide

/-- The address register after an access. -/
theorem emulateIo_addr (a : PortAccess) (vmId : ℕ) {trace : List PortAccess}
    (h : (w.vpci vmId).addr = lastAddr vmId trace) :
    ((emulateIo ops lapicLdr w a).1.vpci vmId).addr = lastAddr vmId (a :: trace) := by
  by_cases hvm : a.vmId = vmId
  · subst hvm
    have heffect := emulateIo_effect ops lapicLdr w a
    generalize emulateIo ops lapicLdr w a = r at heffect ⊢
    rw [lastAddr, if_pos rfl]
    cases heffect with
    | readAddr haddr hdir =>
      rw [(isCfgdataPort_of_isCfgaddrPort haddr).2, hdir]
      exact h
    | writeAddr rax haddr hdir =>
      -- only a whole double word is taken
      obtain ⟨hport, hdata⟩ := isCfgdataPort_of_isCfgaddrPort haddr
      rw [hdata, hdir, ← h]
      dsimp only [VpciWorld.setVpci]
      rw [Function.update_self, pciCfgaddrIoWrite]
      split
      · next hfour =>
        have hmask : pioMask 4 = BitVec.allOnes 32 := by decide
        rw [hfour.2, hmask, BitVec.and_allOnes]
        simp
      · simp
    | other val haddr hdata =>
      have hne : a.req.address ≠ pciConfigAddr := by
        intro hport
        rw [hport, isCfgaddrPort_pciConfigAddr] at haddr
        cases haddr
      rw [hdata]
      cases a.req.direction with
      | read => exact h
      | write rax => simpa [hne] using h
    | none val hdata =>
      -- the selection is given up even when the access reaches no device
      rw [swapAddr_self, hdata]
      rfl
    | read i hdes =>
      rw [swapAddr_self, hdes.data]
      rfl
    | write i rax hdes =>
      dsimp only [VpciWorld.setVdev]
      rw [Function.update_self, hdes.data]
      rfl
  · rw [emulateIo_vpci_of_ne a (Ne.symm hvm), lastAddr, if_neg hvm]
    exact h

/-- **The address register holds what was last selected.** -/
theorem addr_lastAddr {Ok : PortRun → PortAccess → Prop} {s : PortRun} (hfresh : start.Fresh)
    (hrun : Transition.Reach (portSystem ops lapicLdr start) Ok s) (vmId : ℕ) :
    (s.world.vpci vmId).addr = lastAddr vmId s.trace := by
  refine hrun.invariant (P := fun s => (s.world.vpci vmId).addr = lastAddr vmId s.trace)
    (fun s hs => ?_) fun s a s' _ hs h => ?_
  · rw [hs]
    exact hfresh vmId
  · rw [hs]
    exact emulateIo_addr a vmId h

/-- What an access to device `i` of a virtual machine does, where the address register holds
`reg`: it is the device of the selection, the offset is in the selected register and in the
configuration space, and only the bytes of the access are touched. -/
structure DeviceAccess (vpci vpci' : AcrnVpci) (reg : U32) (req : PioRequest) (i : ℕ)
    (val : Option U32) : Prop where
  lt : i < vpci.pciVdevCnt
  bdf : (vpci.pciVdevs i).bdf = cfgBdf reg
  register : targetReg reg req.address / 4 = cfgRegNum reg / 4
  byte : targetReg reg req.address % 4 = req.address.toNat - pciConfigData.toNat
  end_le : targetReg reg req.address % 4 + req.size ≤ 4 ∧
    targetReg reg req.address + req.size ≤ 256
  lanes : CfgLanes (targetReg reg req.address) req.size (vpci.pciVdevs i) (vpci'.pciVdevs i)
  read : req.direction = .read →
    vpci'.pciVdevs i = vpci.pciVdevs i ∧
    ∃ x ∈ [(vpci.pciVdevs i).cfgdata (targetReg reg req.address / 4),
        (vpci.pciVdevs i).pdev.reg (targetReg reg req.address / 4), BitVec.allOnes 32],
      val = some (readLanes x (targetReg reg req.address) req.size)

theorem writeVdevCfg_cfg (ops : MemoryOps) (m : Machine) (lapicLdr : PcpuId → U32) (vmId : ℕ)
    (s : PtCfg) (offset bytes : ℕ) (val : Reg) :
    CfgLanes offset bytes s.vdev (writeVdevCfg ops m lapicLdr vmId s offset bytes val).vdev := by
  rw [writeVdevCfg]
  split
  · exact .refl _
  · exact vpciWritePtDevCfg_cfg ops m lapicLdr vmId s val

theorem deviceAccess (a : PortAccess) {i : ℕ} (hreg : cfgRegNum (w.vpci a.vmId).addr % 4 = 0)
    (h : Designates (w.vpci a.vmId) (w.vpci a.vmId).addr a.req i) :
    DeviceAccess (w.vpci a.vmId) ((emulateIo ops lapicLdr w a).1.vpci a.vmId)
      (w.vpci a.vmId).addr a.req i (emulateIo ops lapicLdr w a).2 := by
  obtain ⟨hlt, hbdf⟩ := pciFindVdev_eq_some h.found
  have hoffset := cfgdata_offset h.data
  have hend := h.aligned.end_le
  have hnum : cfgRegNum (w.vpci a.vmId).addr < 256 := BitVec.isLt _
  have htarget : targetReg (w.vpci a.vmId).addr a.req.address =
      cfgRegNum (w.vpci a.vmId).addr + (a.req.address.toNat - pciConfigData.toNat) := rfl
  have heffect := emulateIo_effect ops lapicLdr w a
  generalize emulateIo ops lapicLdr w a = r at heffect ⊢
  obtain ⟨hlanes, hread⟩ : CfgLanes (targetReg (w.vpci a.vmId).addr a.req.address) a.req.size
      ((w.vpci a.vmId).pciVdevs i) ((r.1.vpci a.vmId).pciVdevs i) ∧
      (a.req.direction = .read → (r.1.vpci a.vmId).pciVdevs i = (w.vpci a.vmId).pciVdevs i ∧
        r.2 = some (readVdevCfg ((w.vpci a.vmId).pciVdevs i)
          (targetReg (w.vpci a.vmId).addr a.req.address) a.req.size &&& pioMask a.req.size)) := by
    cases heffect with
    | readAddr haddr => exact absurd h.data (not_isCfgdataPort haddr)
    | writeAddr rax haddr => exact absurd h.data (not_isCfgdataPort haddr)
    | other val _ hdata => exact absurd (h.data.symm.trans hdata) (by decide)
    | none val _ hnone => exact absurd h (hnone i)
    | read j hj hdir =>
      cases hj.found.symm.trans h.found
      rw [swapAddr_self]
      exact ⟨.refl _, fun _ => ⟨rfl, rfl⟩⟩
    | write j rax hj hdir =>
      cases hj.found.symm.trans h.found
      rw [setVdev_pciVdevs, Function.update_self]
      have hcfg := writeVdevCfg_cfg (ops a.vmId) a.m lapicLdr a.vmId
        ⟨(w.vpci a.vmId).pciVdevs i, (w.vpci a.vmId).ept, w.unit⟩
        (targetReg (w.vpci a.vmId).addr a.req.address) a.req.size (rax &&& pioMask a.req.size)
      exact ⟨hcfg, fun hread => by rw [hdir] at hread; cases hread⟩
  refine ⟨hlt, hbdf, by omega, by omega, by omega, hlanes, fun hdir => ?_⟩
  obtain ⟨x, hx, heq⟩ := readVdevCfg_lanes ((w.vpci a.vmId).pciVdevs i) h.aligned
  exact ⟨(hread hdir).1, x, hx, (hread hdir).2.trans (congrArg some heq)⟩

/-- Devices that an access is not for. -/
theorem emulateIo_vdev_of_not (a : PortAccess) {j : ℕ}
    (h : ¬ Designates (w.vpci a.vmId) (w.vpci a.vmId).addr a.req j) :
    ((emulateIo ops lapicLdr w a).1.vpci a.vmId).pciVdevs j = (w.vpci a.vmId).pciVdevs j := by
  have heffect := emulateIo_effect ops lapicLdr w a
  generalize emulateIo ops lapicLdr w a = r at heffect ⊢
  cases heffect with
  | readAddr => rfl
  | writeAddr rax =>
    dsimp only [VpciWorld.setVpci]
    rw [Function.update_self, pciCfgaddrIoWrite]
    split <;> rfl
  | other => rfl
  | none => rw [swapAddr_self]
  | read => rw [swapAddr_self]
  | write i rax hi =>
    have hne : j ≠ i := fun heq => h (heq ▸ hi)
    rw [setVdev_pciVdevs, Function.update_of_ne hne]

/-- **Accesses to the configuration ports are routed** to the device and the bytes that the
latest selection and the port designate. -/
theorem config_ports_routed {s : PortRun} (hfresh : start.Fresh)
    (hrun : Transition.Reach (portSystem ops lapicLdr start) (fun _ => InPciPorts) s)
    (a : PortAccess) (ha : InPciPorts a) :
    let vpci := s.world.vpci a.vmId
    let reg := lastAddr a.vmId s.trace
    let r := emulateIo ops lapicLdr s.world a
    (∀ i, Designates vpci reg a.req i → DeviceAccess vpci (r.1.vpci a.vmId) reg a.req i r.2) ∧
    (∀ j, ¬ Designates vpci reg a.req j → (r.1.vpci a.vmId).pciVdevs j = vpci.pciVdevs j) ∧
    (∀ vmId, vmId ≠ a.vmId → r.1.vpci vmId = s.world.vpci vmId) ∧
    (isCfgdataPort a.req.address = true → (∀ i, ¬ Designates vpci reg a.req i) →
      (r.1.vpci a.vmId).ept = vpci.ept ∧ r.1.unit = s.world.unit ∧
        (a.req.direction = .read → r.2 = some (fieldMask 32 0 (8 * a.req.size)))) ∧
    (a.req = ⟨.read, pciConfigAddr, 4⟩ → r = (s.world, some reg)) := by
  intro vpci reg r
  have hreg : vpci.addr = reg := addr_lastAddr hfresh hrun a.vmId
  refine ⟨fun i hi => ?_, fun j hj => ?_, fun vmId hvm => emulateIo_vpci_of_ne a hvm,
    fun hdata hnone => ?_, fun hreq => ?_⟩
  · rw [← hreg] at hi ⊢
    refine deviceAccess a ?_ hi
    rw [hreg]
    exact cfgRegNum_lastAddr _ _
  · rw [← hreg] at hj
    exact emulateIo_vdev_of_not a hj
  · rw [← hreg] at hnone
    have heffect := emulateIo_effect ops lapicLdr s.world a
    change AccessEffect ops lapicLdr s.world a r at heffect
    generalize r = r' at heffect
    cases heffect with
    | readAddr haddr => exact absurd hdata (not_isCfgdataPort haddr)
    | writeAddr rax haddr => exact absurd hdata (not_isCfgdataPort haddr)
    | other val _ hother => exact absurd (hdata.symm.trans hother) (by decide)
    | none val _ _ hval =>
      rw [swapAddr_self, ← pioMask_eq ha.2]
      exact ⟨rfl, rfl, hval⟩
    | read i hi => exact absurd hi (hnone i)
    | write i rax hi => exact absurd hi (hnone i)
  · have hmask : pioMask 4 = BitVec.allOnes 32 := by decide
    change emulateIo ops lapicLdr s.world a = _
    rw [emulateIo, hreq]
    dsimp only
    rw [if_pos isCfgaddrPort_pciConfigAddr, pciCfgaddrIoRead, if_pos ⟨rfl, rfl⟩, hmask,
      BitVec.and_allOnes, ← hreg]

end

/-- Virtual machines with one device each. -/
def oneDevice (vdev : VpciVdev) : VpciWorld where
  vpci _ := ⟨pciDisabledConfigAddr, 1, fun _ => vdev, ⟨fun _ => 0#64, []⟩⟩
  unit := ⟨false, fun _ => DmarIrEntry.zero⟩

/-- An access of the first virtual machine. -/
def portAccess (direction : PioDirection) (address : BitVec 16) (size : ℕ) : PortAccess :=
  ⟨0, twoVcpus, ⟨direction, address, size⟩⟩

/-- The command register of the device 0:1.0 is selected. -/
def selectCommand : PortAccess := portAccess (.write 0x80000804#32) pciConfigAddr 4

/-- The EPT of every virtual machine. -/
def uosEpt (_ : ℕ) : MemoryOps := initEptMemOps uosLayout true true

theorem oneDevice_fresh (vdev : VpciVdev) : (oneDevice vdev).Fresh := fun _ => rfl

theorem inPciPorts_selectCommand : InPciPorts selectCommand := ⟨by decide, by decide⟩

/-- The guest selects the command register and reads the status register behind it. -/
theorem config_ports_routed_status :
    let w := (emulateIo uosEpt oneBitLdr (oneDevice (msiDevice false)) selectCommand).1
    let status := portAccess .read 0xCFE#16 2
    DeviceAccess (w.vpci 0) ((emulateIo uosEpt oneBitLdr w status).1.vpci 0) 0x80000804#32
      status.req 0 (emulateIo uosEpt oneBitLdr w status).2 := by
  intro w status
  have hrun : Transition.Reach (portSystem uosEpt oneBitLdr (oneDevice (msiDevice false)))
      (fun _ => InPciPorts) ⟨w, [selectCommand]⟩ :=
    .step (.init rfl) inPciPorts_selectCommand rfl
  obtain ⟨hrouted, -⟩ := config_ports_routed (oneDevice_fresh _) hrun status
    ⟨by decide, by decide⟩
  exact hrouted 0 ⟨by decide, by decide, ⟨by decide, by decide⟩, by decide⟩

/-- The address port does not read back what was written once the selection is used up. -/
theorem selection_used_up :
    ∃ s : PortRun, Transition.Reach (portSystem uosEpt oneBitLdr (oneDevice (msiDevice false)))
        (fun _ => InPciPorts) s ∧
      s.trace = [portAccess .read pciConfigData 4, selectCommand] ∧
      (emulateIo uosEpt oneBitLdr s.world (portAccess .read pciConfigAddr 4)).2 =
        some 0x00FFFF00#32 := by
  refine ⟨⟨_, _⟩, .step (.step (.init rfl) inPciPorts_selectCommand rfl)
    (a := portAccess .read pciConfigData 4) ⟨by decide, by decide⟩ rfl, rfl, ?_⟩
  decide

end Acrn
