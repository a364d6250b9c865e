import Acrn.CfgPorts
import Acrn.Lib.IndexedWindow
import Acrn.SpinLock

/-!
# Physical configuration space

`pci_pdev_read_cfg` and `pci_pdev_write_cfg` reach a register of a physical device through the
address port CF8H and the data ports from CFCH on, under `pci_device_lock`. The two ports are shared
by all pCPUs; with the lock, each call is one configuration cycle, at its own device and register.
-/

namespace Acrn

open BitField RegAccess Transition IndexedWindow

/-- The ticket spinlock, of fewer CPUs than there are tickets. -/
def spinLock (C : Type*) [DecidableEq C] [Fintype C] (hcard : Fintype.card C < 2 ^ 32) :
    IndexedWindow.Lock (SpinLock C) (SpinStep C) C where
  system := spinSystem C
  Inside s c := s.pc c = .inside
  exclusive hreach hc hc' := by
    obtain ⟨h, -, hat⟩ := SpinLock.at_of_reach hcard hreach
    exact (hat.inside hc).unique (hat.inside hc')

/-! ## The ports -/

/-- `PCI_CFG_ENABLE`. -/
def pciCfgEnable : U32 := 0x80000000#32

/-- `pci_pdev_calc_address`. -/
def pciPdevCalcAddress (bdf : BitVec 16) (offset : U32) : U32 :=
  (bdf.setWidth 32 <<< 8) ||| (offset ||| pciCfgEnable)

/-- An access to a data port: `pio_read8` and its kin, or `pio_write8` and its kin. -/
structure DataAccess where
  port : BitVec 16
  bits : ℕ
  out : Option U32

/-- A call of `pci_pdev_read_cfg`, or one of `pci_pdev_write_cfg` with the value. Its offset is in
the configuration space and aligned, as both demand. -/
structure PdevCfgCall where
  bdf : BitVec 16
  offset : U32
  bytes : ℕ
  val : Option U32
  offset_lt : offset.toNat < 256
  aligned : Aligned offset.toNat bytes

namespace PdevCfgCall

variable (call : PdevCfgCall)

/-- What is written, in the width of the port access. -/
def out : Option U32 := call.val.map (· &&& fieldMask 32 0 (width call.bytes))

/-- The access that the `switch` comes to, at `data_port_addr`. -/
def dataAccess : DataAccess where
  port := pciConfigData + (call.offset &&& 3#32).setWidth 16
  bits := width call.bytes
  out := call.out

end PdevCfgCall

/-! ## The host bridge

What a data port does depends on the address port alone. So the two accesses of a call are one
configuration cycle if nobody writes the address port in between. -/

/-- A configuration cycle: some lanes of a register of a device are read or written. -/
structure CfgCycle where
  bdf : BitVec 16
  reg : BitVec 6
  lane : ℕ
  bits : ℕ
  out : Option U32

/-- All devices. -/
abbrev PciBus := BitVec 16 → PciDevice

/-- A cycle on the bus, with the data in the lanes. -/
def CfgCycle.serve (cycle : CfgCycle) (bus : PciBus) : U32 × PciBus :=
  let pdev := bus cycle.bdf
  let reg := cycle.reg.toNat
  let lanes := fieldMask 32 (8 * cycle.lane) (8 * cycle.lane + cycle.bits)
  match cycle.out with
  | none => ((pdev.reg reg &&& lanes) >>> (8 * cycle.lane), bus)
  | some val =>
    let pdev' := { pdev with
      reg := Function.update pdev.reg reg (pdev.onWrite reg lanes (val <<< (8 * cycle.lane))) }
    (0#32, Function.update bus cycle.bdf pdev')

/-- What the host bridge makes of an access to a data port, given what the address port holds. -/
def hostBridge (addr : U32) (access : DataAccess) (bus : PciBus) : U32 × PciBus :=
  if cfgEnable addr then
    CfgCycle.serve ⟨cfgBdf addr, addr.extractLsb' 2 6, access.port.toNat - pciConfigData.toNat,
      access.bits, access.out⟩ bus
  else (BitVec.allOnes 32, bus)

/-- A call in a single step. -/
def PdevCfgCall.serve (call : PdevCfgCall) (bus : PciBus) : U32 × PciBus :=
  let pdev := bus call.bdf
  match call.val with
  | none => (pdev.pciPdevReadCfg call.offset.toNat call.bytes, bus)
  | some val =>
    (0#32, Function.update bus call.bdf (pdev.pciPdevWriteCfg call.offset.toNat call.bytes val))

theorem pciPdevCalcAddress_enable (bdf : BitVec 16) (offset : U32) :
    cfgEnable (pciPdevCalcAddress bdf offset) = true := by
  rw [cfgEnable, pciPdevCalcAddress, BitVec.getLsbD_or, BitVec.getLsbD_or,
    show pciCfgEnable.getLsbD 31 = true from rfl, Bool.or_true, Bool.or_true]

/-- The enable bit is alone above the offset. -/
theorem getLsbD_pciCfgEnable {i : ℕ} (hi : i < 31) : pciCfgEnable.getLsbD i = false := by
  rw [show pciCfgEnable = BitVec.twoPow 32 31 from rfl, BitVec.getLsbD_twoPow]
  simp only [Bool.and_eq_false_iff, decide_eq_false_iff_not]
  omega

/-- Nothing of the offset is above the registers of a device. -/
theorem PdevCfgCall.getLsbD_offset (call : PdevCfgCall) {i : ℕ} (hi : 8 ≤ i) :
    call.offset.getLsbD i = false := by
  rw [← BitVec.testBit_toNat]
  exact Nat.testBit_lt_two_pow (call.offset_lt.trans_le (Nat.pow_le_pow_right Nat.two_pos hi))

theorem pciPdevCalcAddress_bdf (call : PdevCfgCall) :
    cfgBdf (pciPdevCalcAddress call.bdf call.offset) = call.bdf := by
  apply BitVec.eq_of_getLsbD_eq
  intro i hi
  rw [cfgBdf, BitVec.getLsbD_extractLsb', pciPdevCalcAddress, BitVec.getLsbD_or, BitVec.getLsbD_or,
    call.getLsbD_offset (by omega), getLsbD_pciCfgEnable (by omega), BitVec.getLsbD_shiftLeft,
    BitVec.getLsbD_setWidth]
  simp [hi, show 8 + i < 32 by omega, show i < 32 by omega]

theorem pciPdevCalcAddress_reg (call : PdevCfgCall) :
    (pciPdevCalcAddress call.bdf call.offset).extractLsb' 2 6 =
      BitVec.ofNat 6 (call.offset.toNat / 4) := by
  apply BitVec.eq_of_getLsbD_eq
  intro i hi
  have hdiv : (call.offset.toNat / 4).testBit i = call.offset.getLsbD (2 + i) := by
    rw [show 4 = 2 ^ 2 from rfl, Nat.testBit_div_two_pow, BitVec.testBit_toNat, Nat.add_comm]
  rw [BitVec.getLsbD_extractLsb', pciPdevCalcAddress, BitVec.getLsbD_or, BitVec.getLsbD_or,
    getLsbD_pciCfgEnable (by omega), BitVec.getLsbD_shiftLeft, BitVec.getLsbD_ofNat, hdiv]
  simp [hi, show 2 + i < 8 by omega]

/-- The lane of the data port is that of the offset. -/
theorem PdevCfgCall.dataAccess_port (call : PdevCfgCall) :
    call.dataAccess.port.toNat - pciConfigData.toNat = call.offset.toNat % 4 := by
  have hlane : (call.offset &&& 3#32).toNat = call.offset.toNat % 4 := by
    rw [BitVec.toNat_and, show (3#32).toNat = 2 ^ 2 - 1 from rfl, Nat.and_two_pow_sub_one_eq_mod]
  rw [PdevCfgCall.dataAccess, BitVec.toNat_add, BitVec.toNat_setWidth, hlane,
    show pciConfigData.toNat = 3324 from rfl]
  omega

/-! ## Calls

The calls are an instance of the library on critical sections: between obtaining and releasing the
lock each is a sequence of actions, which together do what the call is for. -/

/-- Of a value to be written, only the lanes matter. -/
theorem PciDevice.onWrite_congr (pdev : PciDevice) {r : ℕ} {m v v' : Reg}
    (h : v &&& m = v' &&& m) : pdev.onWrite r m v = pdev.onWrite r m v' := by
  have hw1c : m &&& (v &&& pdev.w1c r) = m &&& (v' &&& pdev.w1c r) := by
    rw [← BitVec.and_assoc, BitVec.and_comm m, h, BitVec.and_comm v', BitVec.and_assoc]
  have hwritable : v &&& pdev.writable r &&& m = v' &&& pdev.writable r &&& m := by
    rw [BitVec.and_assoc, BitVec.and_comm _ m, ← BitVec.and_assoc, h, BitVec.and_assoc,
      BitVec.and_comm m, ← BitVec.and_assoc]
  have hlanes : m &&& (pdev.writable r ||| v &&& pdev.w1c r) =
      m &&& (pdev.writable r ||| v' &&& pdev.w1c r) := by
    rw [BitVec.and_or_distrib_left, hw1c, ← BitVec.and_or_distrib_left]
  rw [onWrite, onWrite, hlanes, hwritable]

/-- The width of the access cuts off nothing that is in its lanes. -/
theorem shiftLeft_width_and_lanes (val : U32) (offset bytes : ℕ) :
    (val &&& fieldMask 32 0 (width bytes)) <<< shift offset bytes &&& lanes offset bytes =
      val <<< shift offset bytes &&& lanes offset bytes := by
  apply BitVec.eq_of_getLsbD_eq
  intro i hi
  rw [BitVec.getLsbD_and, BitVec.getLsbD_and, getLsbD_lanes, BitVec.getLsbD_shiftLeft,
    BitVec.getLsbD_shiftLeft, BitVec.getLsbD_and, getLsbD_fieldMask (Nat.zero_le _)]
  by_cases hlane : shift offset bytes ≤ i ∧ i < shift offset bytes + width bytes
  · simp [hi, hlane.1, hlane.2, show i - shift offset bytes < width bytes by omega,
      show i - shift offset bytes < 32 by omega]
  · have hlanes : (decide (shift offset bytes ≤ i) &&
        decide (i < shift offset bytes + width bytes)) = false := by
      simpa using hlane
    rw [hlanes, Bool.and_false, Bool.and_false]

namespace PdevCfgCall

variable (call : PdevCfgCall) (bus : PciBus)

theorem toNat_reg : (BitVec.ofNat 6 (call.offset.toNat / 4)).toNat = call.offset.toNat / 4 := by
  have hlt := call.offset_lt
  rw [BitVec.toNat_ofNat]
  omega

/-- The host bridge is given the register and the lanes of the call. -/
theorem hostBridge_eq :
    hostBridge (pciPdevCalcAddress call.bdf call.offset) call.dataAccess bus =
      CfgCycle.serve ⟨call.bdf, BitVec.ofNat 6 (call.offset.toNat / 4), call.offset.toNat % 4,
        width call.bytes, call.out⟩ bus := by
  rw [hostBridge, if_pos (pciPdevCalcAddress_enable _ _), pciPdevCalcAddress_bdf,
    pciPdevCalcAddress_reg, call.dataAccess_port]
  rfl

/-- The two port accesses of a call do what the call is for. -/
theorem hostBridge_serve :
    hostBridge (pciPdevCalcAddress call.bdf call.offset) call.dataAccess bus = call.serve bus := by
  rw [hostBridge_eq, CfgCycle.serve, serve, out]
  dsimp only
  rw [toNat_reg, ← call.aligned.shift_eq]
  cases call.val with
  | none => rfl
  | some val =>
    rw [Option.map_some]
    dsimp only
    rw [PciDevice.pciPdevWriteCfg, ← lanes,
      PciDevice.onWrite_congr _ (shiftLeft_width_and_lanes val call.offset.toNat call.bytes)]

end PdevCfgCall

/-- `pci_pdev_read_cfg` and `pci_pdev_write_cfg` between `spinlock_obtain` and `spinlock_release`:
the address port is written, and a data port is accessed. -/
def pciPorts : Window U32 PdevCfgCall U32 PciBus where
  select call _ := pciPdevCalcAddress call.bdf call.offset
  transfer addr call bus := hostBridge addr call.dataAccess bus
  serve call bus := call.serve bus
  transfer_select call _ bus := call.hostBridge_serve bus

/-- The runs of pCPUs that call `pci_pdev_read_cfg` and `pci_pdev_write_cfg`. -/
def pciSystem {C : Type*} [DecidableEq C] [Fintype C] (hcard : Fintype.card C < 2 ^ 32)
    (bus : PciBus) :
    System (State (SpinLock C) C U32 PdevCfgCall U32 PciBus)
      (Event (SpinStep C) C PdevCfgCall) :=
  system (spinLock C hcard) pciPorts bus

/-- **Configuration space is not mixed up.** However the pCPUs are interleaved, the devices are as
if the calls had been made one after another, each in a single step at its own device and register;
so is what they return, and the calls of each pCPU take effect once and in order. -/
theorem pci_config_calls_atomic {C : Type*} [DecidableEq C] [Fintype C]
    (hcard : Fintype.card C < 2 ^ 32) (bus : PciBus)
    {s : State (SpinLock C) C U32 PdevCfgCall U32 PciBus}
    (hreach : Reach (pciSystem hcard bus) any s) :
    s.dev = s.log.foldl (fun bus e => (e.request.serve bus).2) bus ∧
    (∀ before e after, s.log = before ++ e :: after → e.answer =
      (e.request.serve (before.foldl (fun bus e => (e.request.serve bus).2) bus)).1) ∧
    ∀ c, s.asked c = s.served c ++ (s.pending c).toList := by
  have h := inv_of_reach hreach
  exact ⟨h.dev, h.answers, h.once⟩

/-- A device whose first register reads as its BDF. -/
def bdfBus : PciBus := fun bdf => ⟨⟨fun _ => bdf.setWidth 32, fun _ => 0#32⟩, fun _ => 0#32⟩

theorem aligned_zero_four : Aligned (0#32).toNat 4 := ⟨.inr (.inr rfl), dvd_zero 4⟩

/-- A read of the first register of a device. -/
def readFirst (bdf : BitVec 16) : PdevCfgCall where
  bdf := bdf
  offset := 0#32
  bytes := 4
  val := none
  offset_lt := Nat.pow_pos (n := 8) Nat.two_pos
  aligned := aligned_zero_four

/-- Two pCPUs: the one that selects its device later waits for the lock. -/
theorem pci_config_calls_atomic_two : ∃ s, Reach (pciSystem (C := Fin 2) (by decide) bdfBus) any s ∧
    s.lock.pc 1 = .waiting 1#32 ∧ s.log = [⟨0, readFirst 8#16, 8#32⟩] ∧
    s.asked 0 = [readFirst 8#16] := by
  have hinit : Reach (spinSystem (Fin 2)) any SpinLock.init := .init rfl
  obtain ⟨l, hl⟩ : ∃ l : SpinLock (Fin 2), [SpinStep.xadd 0, .xadd 1, .cmp 0].foldlM
      (guarded any SpinLock.step) SpinLock.init = some l := ⟨_, rfl⟩
  have hreach : Reach (pciSystem (C := Fin 2) (by decide) bdfBus) any
      ⟨l, 0#32, bdfBus, fun _ => none, fun _ => [], []⟩ :=
    reach_of_lock 0#32 (hinit.foldlM _ hl)
  obtain rfl := Option.some.inj hl
  have hselect := hreach.step trivial (.select (c := 0) (r := readFirst 8#16) rfl rfl)
  have htransfer := hselect.step trivial (.transfer (c := 0) (r := readFirst 8#16) rfl rfl)
  have hatomic := pci_config_calls_atomic (by decide) bdfBus htransfer
  exact ⟨_, htransfer, rfl, rfl, hatomic.2.2 0⟩

end Acrn
