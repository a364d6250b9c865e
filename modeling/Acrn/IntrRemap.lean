import Acrn.IcrAccess

/-!
# Interrupt remapping of message signalled interrupts

`ptirq_msix_remap` fills an entry of the interrupt remapping table for a pass-through device
and makes the message that selects it; `remove_msix_remapping` takes the entry away. The
index of the entry is computed from the virtual machine and the virtual device, and each
device of each virtual machine has one of its own.
-/

namespace Acrn

open BitField

/-! ## Bitmaps of CPUs -/

/-- `ffs64`, where no bit set gives `INVALID_BIT_INDEX`. -/
def ffs64 (value : Word) : ℕ := ((List.range 64).find? fun i => value.getLsbD i).getD 0xffff

/-- `bitmap_set_nolock`. -/
def bitmapSetNolock (nr : ℕ) (map : Word) : Word := map ||| 1#64 <<< (nr % 64)

/-- `bitmap_clear_nolock`. -/
def bitmapClearNolock (nr : ℕ) (map : Word) : Word := map &&& ~~~(1#64 <<< (nr % 64))

/-- The loop of `calculate_logical_dest_mask`; a turn clears one of `MAX_PCPU_NUM` bits. -/
def logicalDestMaskLoop (lapicLdr : PcpuId → U32) : ℕ → Word → U32 → U32
  | 0, _, destMask => destMask
  | n + 1, pcpuMask, destMask =>
    if h : ffs64 pcpuMask < maxPcpuNum then
      logicalDestMaskLoop lapicLdr n (bitmapClearNolock (ffs64 pcpuMask) pcpuMask)
        (destMask ||| lapicLdr ⟨ffs64 pcpuMask, h⟩)
    else destMask

/-- `calculate_logical_dest_mask`. -/
def calculateLogicalDestMask (lapicLdr : PcpuId → U32) (pdmask : Word) : U32 :=
  logicalDestMaskLoop lapicLdr maxPcpuNum pdmask 0#32

namespace Machine

variable (m : Machine) (vm : ℕ)

/-- `vlapic_calc_dest`, which is `set_dest_mask_phys`. -/
def vlapicCalcDest (dest : U32) : Word :=
  match m.vmApicid2vcpuId vm dest with
  | some i => if i < m.createdVcpus vm then bitmapSetNolock i 0#64 else 0#64
  | none => 0#64

/-- `vcpumask2pcpumask`. -/
def vcpumask2pcpumask (vdmask : Word) : Word :=
  (List.range (m.createdVcpus vm)).foldl (fun dmask i =>
    if vdmask &&& 1#64 <<< i ≠ 0#64 then bitmapSetNolock (m.vcpu vm i).pcpuId dmask
    else dmask) 0#64

end Machine

/-! ## The remapping table -/

/-- `union dmar_ir_entry`. -/
structure DmarIrEntry where
  present : Bool
  fpd : BitVec 1
  destMode : BitVec 1
  rh : BitVec 1
  triggerMode : BitVec 1
  deliveryMode : BitVec 3
  mode : BitVec 1
  vector : BitVec 8
  dest : U32
  sid : BitVec 16
  sq : BitVec 2
  svt : BitVec 2

/-- The entry with all fields zero. -/
def DmarIrEntry.zero : DmarIrEntry :=
  ⟨false, 0#1, 0#1, 0#1, 0#1, 0#3, 0#1, 0#8, 0#32, 0#16, 0#2, 0#2⟩

/-- The remapping unit that all devices are under. -/
structure DmarUnit where
  intrRemapEnabled : Bool
  irTable : BitVec 16 → DmarIrEntry

/-- The number of entries of the table. -/
def configMaxIrEntries : ℕ := 256

/-- `struct ptirq_msi_info`. -/
structure PtirqMsiInfo where
  vmsiAddr : Word
  vmsiData : U32
  pmsiAddr : Word
  pmsiData : U32

namespace PtirqMsiInfo

variable (info : PtirqMsiInfo)

/-- `vmsi_addr.bits.dest_field`. -/
def destField : U32 := (info.vmsiAddr.extractLsb' 12 8).setWidth 32

/-- `vmsi_data.bits.vector`. -/
def vector : BitVec 8 := info.vmsiData.extractLsb' 0 8

/-- `vmsi_data.bits.delivery_mode`. -/
def deliveryMode : BitVec 3 := info.vmsiData.extractLsb' 8 3

end PtirqMsiInfo

namespace DmarUnit

variable (unit : DmarUnit)

/-- `dmar_assign_irte`. -/
def dmarAssignIrte (msi : BitVec 16) (irte : DmarIrEntry) (index : BitVec 16) : DmarUnit :=
  { intrRemapEnabled := true
    irTable := Function.update unit.irTable index { irte with
      svt := 1#2
      sq := 0#2
      sid := msi
      present := true
      mode := 0#1
      triggerMode := 0#1
      fpd := 0#1 } }

/-- `dmar_free_irte`. -/
def dmarFreeIrte (index : BitVec 16) : DmarUnit :=
  { unit with irTable :=
      Function.update unit.irTable index { unit.irTable index with present := false } }

end DmarUnit

/-- The index of the entry of a virtual device of a virtual machine. -/
def irteIndex (vmId : ℕ) (virtBdf : BitVec 16) : BitVec 16 :=
  ((virtBdf &&& 0x3F#16) ||| BitVec.ofNat 16 (vmId <<< 6)) &&& 0xFF#16

/-- An address in the remappable format: `intr_index_high`, `shv`, `intr_format`,
`intr_index_low` and `constant`. -/
def remappableAddr (index : BitVec 16) : Word :=
  (index.extractLsb' 15 1).setWidth 64 <<< 2 ||| 0#64 <<< 3 ||| 1#64 <<< 4 |||
    (index.extractLsb' 0 15).setWidth 64 <<< 5 ||| 0xFEE#64 <<< 20

section

variable (m : Machine) (lapicLdr : PcpuId → U32) (unit : DmarUnit) (vm : ℕ)

/-- The delivery mode that goes out: fixed, or else lowest priority. -/
def physicalDelmode (delmode : BitVec 3) : BitVec 3 :=
  if delmode ≠ 0#3 ∧ delmode ≠ 1#3 then 1#3 else delmode

/-- `ptirq_build_physical_msi`. -/
def ptirqBuildPhysicalMsi (info : PtirqMsiInfo) (virtBdf physBdf : BitVec 16) (vector : U32) :
    DmarUnit × PtirqMsiInfo :=
  let vdmask := m.vlapicCalcDest vm info.destField
  let pdmask := m.vcpumask2pcpumask vm vdmask
  let irte := { DmarIrEntry.zero with
    vector := vector.setWidth 8
    deliveryMode := physicalDelmode info.deliveryMode
    destMode := 1#1
    rh := 1#1
    dest := calculateLogicalDestMask lapicLdr pdmask }
  let index := irteIndex vm virtBdf
  (unit.dmarAssignIrte physBdf irte index,
    { info with pmsiData := 0#32, pmsiAddr := remappableAddr index })

/-- `remove_msix_remapping`. -/
def removeMsixRemapping (virtBdf : BitVec 16) : DmarUnit :=
  unit.dmarFreeIrte (irteIndex vm virtBdf)

/-- `ptirq_msix_remap`. -/
def ptirqMsixRemap (virtBdf physBdf : BitVec 16) (info : PtirqMsiInfo) :
    DmarUnit × PtirqMsiInfo :=
  ptirqBuildPhysicalMsi m lapicLdr unit vm info virtBdf physBdf (info.vector.setWidth 32)

/-- `ptirq_remove_msix_remapping`. -/
def ptirqRemoveMsixRemapping (virtBdf : BitVec 16) : ℕ → DmarUnit
  | 0 => unit
  | vectorCount + 1 =>
    removeMsixRemapping (ptirqRemoveMsixRemapping virtBdf vectorCount) vm virtBdf

end

/-- The entry that the remapping hardware takes for a message: bit 4 of the address tells the
remappable format, and the data counts when bit 3 is set. -/
def irIndex (addr : Word) (data : U32) : Option (BitVec 16) :=
  if addr >>> 20 = 0xFEE#64 ∧ addr.getLsbD 4 = true then
    let handle := addr.extractLsb' 2 1 ++ addr.extractLsb' 5 15
    some (if addr.getLsbD 3 then handle + data.setWidth 16 else handle)
  else none

/-! ## Bits of a bitmap -/

theorem getLsbD_bitmapSetNolock {nr : ℕ} (hnr : nr < 64) (map : Word) (j : ℕ) :
    (bitmapSetNolock nr map).getLsbD j = (map.getLsbD j || decide (j = nr)) := by
  rw [bitmapSetNolock, Nat.mod_eq_of_lt hnr, BitVec.getLsbD_or, getLsbD_one_shiftLeft hnr]

theorem getLsbD_bitmapClearNolock {nr : ℕ} (hnr : nr < 64) (map : Word) (j : ℕ) :
    (bitmapClearNolock nr map).getLsbD j = (map.getLsbD j && !decide (j = nr)) := by
  rw [bitmapClearNolock, Nat.mod_eq_of_lt hnr, BitVec.getLsbD_and, BitVec.getLsbD_not,
    getLsbD_one_shiftLeft hnr]
  by_cases hj : j < 64
  · simp [hj]
  · simp [BitVec.getLsbD_of_ge map j (by omega)]

/-- The bit that `ffs64` finds is set. -/
theorem getLsbD_ffs64 {value : Word} (h : ffs64 value < 64) :
    value.getLsbD (ffs64 value) = true := by
  rw [ffs64] at h ⊢
  cases hfind : (List.range 64).find? fun i => value.getLsbD i with
  | none =>
    rw [hfind, Option.getD_none] at h
    omega
  | some i => simpa using List.find?_some hfind

/-- No bit before it is set. -/
theorem getLsbD_of_lt_ffs64 {value : Word} {j : ℕ} (hj : j < 64) (h : j < ffs64 value) :
    value.getLsbD j = false := by
  rw [ffs64] at h
  cases hfind : (List.range 64).find? fun i => value.getLsbD i with
  | none =>
    rw [List.find?_eq_none] at hfind
    simpa using hfind j (List.mem_range.2 hj)
  | some i =>
    rw [hfind, Option.getD_some] at h
    rw [List.find?_range_eq_some] at hfind
    simpa using hfind.2.2 j h

/-! ## The destination

A mask of vCPUs becomes a mask of pCPUs, and that the logical destinations of these. Each step is a
loop over bits, and its invariant is about one bit. -/

theorem lt_64_of_lt_maxPcpuNum {n : ℕ} (h : n < maxPcpuNum) : n < 64 :=
  h.trans (by decide)

/-- The loop collects the logical IDs of the pCPUs in the mask, once the turns that are left
cover the bits that are not clear yet. -/
theorem getLsbD_logicalDestMaskLoop (lapicLdr : PcpuId → U32) {n k : ℕ} {pcpuMask : Word}
    (destMask : U32) (hclear : ∀ j < k, pcpuMask.getLsbD j = false) (hn : maxPcpuNum ≤ n + k)
    (b : ℕ) : (logicalDestMaskLoop lapicLdr n pcpuMask destMask).getLsbD b = true ↔
      destMask.getLsbD b = true ∨
        ∃ p : PcpuId, pcpuMask.getLsbD p = true ∧ (lapicLdr p).getLsbD b = true := by
  induction n generalizing k pcpuMask destMask with
  | zero =>
    -- no turn is left, and no bit
    have hnone : ∀ p : PcpuId, pcpuMask.getLsbD p = false := fun p => hclear p (by omega)
    simp [logicalDestMaskLoop, hnone]
  | succ n ih =>
    rw [logicalDestMaskLoop]
    split
    · next hlt =>
      have hlt64 := lt_64_of_lt_maxPcpuNum hlt
      have hset := getLsbD_ffs64 hlt64
      have hk : k ≤ ffs64 pcpuMask := by
        by_contra hk
        rw [hclear _ (by omega)] at hset
        exact Bool.false_ne_true hset
      -- the next bit to look at is behind the one that this turn clears
      rw [ih (k := ffs64 pcpuMask + 1) _ _ (by omega), BitVec.getLsbD_or, Bool.or_eq_true, or_assoc]
      · refine or_congr_right ⟨?_, ?_⟩
        · rintro (hp | ⟨p, hp, hb⟩)
          · exact ⟨_, hset, hp⟩
          · rw [getLsbD_bitmapClearNolock hlt64, Bool.and_eq_true] at hp
            exact ⟨p, hp.1, hb⟩
        · rintro ⟨p, hp, hb⟩
          by_cases heq : (p : ℕ) = ffs64 pcpuMask
          · left
            rwa [show (⟨ffs64 pcpuMask, hlt⟩ : PcpuId) = p from Fin.ext heq.symm]
          · right
            refine ⟨p, ?_, hb⟩
            rw [getLsbD_bitmapClearNolock hlt64, hp]
            simpa using heq
      · intro j hj
        rw [getLsbD_bitmapClearNolock hlt64]
        rcases Nat.lt_or_ge j (ffs64 pcpuMask) with hlt' | hge
        · rw [getLsbD_of_lt_ffs64 (by omega) hlt', Bool.false_and]
        · simp [show j = ffs64 pcpuMask by omega]
    · next hge =>
      have hnone : ∀ p : PcpuId, pcpuMask.getLsbD p = false := fun p =>
        getLsbD_of_lt_ffs64 (lt_64_of_lt_maxPcpuNum p.isLt) (p.isLt.trans_le (not_lt.1 hge))
      simp [hnone]

/-- `calculate_logical_dest_mask` is made of the logical IDs of the pCPUs in the mask. -/
theorem getLsbD_calculateLogicalDestMask (lapicLdr : PcpuId → U32) (pdmask : Word) (b : ℕ) :
    (calculateLogicalDestMask lapicLdr pdmask).getLsbD b = true ↔
      ∃ p : PcpuId, pdmask.getLsbD p = true ∧ (lapicLdr p).getLsbD b = true := by
  rw [calculateLogicalDestMask,
    getLsbD_logicalDestMaskLoop lapicLdr (k := 0) _ (fun _ h => absurd h (by omega)) le_rfl]
  simp

/-- A bitmap into which the pCPUs of some vCPUs are collected. -/
theorem getLsbD_foldl_bitmapSetNolock (P : ℕ → Prop) [DecidablePred P] (pcpuId : ℕ → PcpuId)
    (n : ℕ) (p : PcpuId) :
    ((List.range n).foldl (fun map i => if P i then bitmapSetNolock (pcpuId i) map else map)
      0#64).getLsbD p = true ↔ ∃ i < n, P i ∧ pcpuId i = p := by
  induction n with
  | zero => simp
  | succ n ih =>
    rw [List.range_succ, List.foldl_append, List.foldl_cons, List.foldl_nil]
    -- the last vCPU adds its pCPU if it is one of them
    have hsplit : ∀ Q : ℕ → Prop, (∃ i < n + 1, Q i) ↔ (∃ i < n, Q i) ∨ Q n := by
      intro Q
      simp only [Nat.lt_succ_iff_lt_or_eq]
      grind
    rw [hsplit, ← ih]
    split
    · next h =>
      rw [getLsbD_bitmapSetNolock (lt_64_of_lt_maxPcpuNum (pcpuId n).isLt), Bool.or_eq_true]
      refine or_congr_right ?_
      rw [decide_eq_true_eq, and_iff_right h, ← Fin.ext_iff]
      exact eq_comm
    · next h =>
      rw [or_iff_left]
      exact fun hn => h hn.1

namespace Machine

variable (m : Machine) (vm : ℕ)

/-- The pCPUs of the vCPUs in the mask. -/
theorem getLsbD_vcpumask2pcpumask (vdmask : Word) (p : PcpuId) :
    (m.vcpumask2pcpumask vm vdmask).getLsbD p = true ↔
      ∃ i < m.createdVcpus vm, vdmask.getLsbD i = true ∧ (m.vcpu vm i).pcpuId = p := by
  have hcreated := m.created_le vm
  rw [vcpumask2pcpumask, getLsbD_foldl_bitmapSetNolock]
  refine exists_congr fun i => and_congr_right fun hi => and_congr_left fun _ => ?_
  exact and_one_shiftLeft_ne_zero (lt_64_of_lt_maxPcpuNum (hi.trans_le hcreated)) vdmask

theorem lt_of_vmApicid2vcpuId {m : Machine} {vm i : ℕ} {dest : U32}
    (h : m.vmApicid2vcpuId vm dest = some i) : i < m.createdVcpus vm :=
  List.mem_range.1 (List.mem_of_find?_eq_some h)

/-- A logical destination that is the ID of the pCPU of a vCPU of the virtual machine, the one
with the APIC ID asked for; there may be no such vCPU. -/
inductive OwnPcpu (lapicLdr : PcpuId → U32) (dest : U32) : U32 → Prop where
  | vcpu (i : ℕ) : m.vmApicid2vcpuId vm dest = some i → i < m.createdVcpus vm →
      OwnPcpu lapicLdr dest (lapicLdr (m.vcpu vm i).pcpuId)
  | none : m.vmApicid2vcpuId vm dest = none → OwnPcpu lapicLdr dest 0#32

/-- A destination stands for the logical ID of the pCPU of the vCPU that it names. -/
theorem ownPcpu_logicalDest (lapicLdr : PcpuId → U32) (dest : U32) :
    m.OwnPcpu vm lapicLdr dest
      (calculateLogicalDestMask lapicLdr (m.vcpumask2pcpumask vm (m.vlapicCalcDest vm dest))) := by
  have hbits : ∀ b, (calculateLogicalDestMask lapicLdr
      (m.vcpumask2pcpumask vm (m.vlapicCalcDest vm dest))).getLsbD b = true ↔
      ∃ i < m.createdVcpus vm, (m.vlapicCalcDest vm dest).getLsbD i = true ∧
        (lapicLdr (m.vcpu vm i).pcpuId).getLsbD b = true := by
    intro b
    rw [getLsbD_calculateLogicalDestMask]
    simp only [getLsbD_vcpumask2pcpumask]
    constructor
    · rintro ⟨p, ⟨i, hi, hmask, rfl⟩, hb⟩
      exact ⟨i, hi, hmask, hb⟩
    · rintro ⟨i, hi, hmask, hb⟩
      exact ⟨_, ⟨i, hi, hmask, rfl⟩, hb⟩
  generalize calculateLogicalDestMask lapicLdr _ = mask at hbits ⊢
  rw [vlapicCalcDest] at hbits
  cases hfind : m.vmApicid2vcpuId vm dest with
  | none =>
    -- nobody has the APIC ID, and the message goes nowhere
    have hzero : mask = 0#32 := by
      apply BitVec.eq_of_getLsbD_eq
      intro b _
      rw [Bool.eq_iff_iff, hbits, hfind]
      simp
    rw [hzero]
    exact .none hfind
  | some i =>
    have hi := lt_of_vmApicid2vcpuId hfind
    have hi64 : i < 64 := lt_64_of_lt_maxPcpuNum (hi.trans_le (m.created_le vm))
    have hone : mask = lapicLdr (m.vcpu vm i).pcpuId := by
      apply BitVec.eq_of_getLsbD_eq
      intro b _
      rw [Bool.eq_iff_iff, hbits, hfind]
      simp only [hi, if_true, getLsbD_bitmapSetNolock hi64, BitVec.getLsbD_zero, Bool.false_or,
        decide_eq_true_eq]
      constructor
      · rintro ⟨j, -, rfl, hb⟩
        exact hb
      · intro hb
        exact ⟨i, hi, rfl, hb⟩
    rw [hone]
    exact .vcpu i hfind hi

end Machine

/-! ## The index of a device

Two devices of one virtual machine, or of two, have different indices: the bits of the index are
those of the machine, the device and the function. -/

/-- A virtual device of a virtual machine that `ptirq_msix_remap` may be called for. -/
structure RemapDevice where
  vmId : ℕ
  virtBdf : BitVec 16
  vmId_lt : vmId < 4
  bus_eq : virtBdf >>> 8 = 0#16
  devfun_lt : virtBdf &&& 0xFF#16 < 0x3F#16

namespace RemapDevice

variable (d d' : RemapDevice)

/-- The index of the entry of the device. -/
def index : BitVec 16 := irteIndex d.vmId d.virtBdf

theorem virtBdf_lt : d.virtBdf.toNat < 0x3F := by
  have hbus : d.virtBdf.toNat / 2 ^ 8 = 0 := by
    rw [← Nat.shiftRight_eq_div_pow, ← BitVec.toNat_ushiftRight, d.bus_eq]
    rfl
  have hdevfun : d.virtBdf.toNat % 2 ^ 8 < 0x3F := by
    have h := BitVec.lt_def.1 d.devfun_lt
    rwa [BitVec.toNat_and, show (0xFF#16).toNat = 2 ^ 8 - 1 from rfl,
      Nat.and_two_pow_sub_one_eq_mod] at h
  omega

/-- The index has the virtual machine in its bits 6 and 7 and the device below. -/
theorem toNat_index : d.index.toNat = 2 ^ 6 * d.vmId + d.virtBdf.toNat := by
  have hbdf := d.virtBdf_lt
  have hvm := d.vmId_lt
  -- the two fields do not overlap, and nothing is cut off
  have hlow : (0x3F#16).toNat = 2 ^ 6 - 1 := rfl
  have hall : (0xFF#16).toNat = 2 ^ 8 - 1 := rfl
  rw [index, irteIndex, BitVec.toNat_and, BitVec.toNat_or, BitVec.toNat_and, hlow, hall,
    BitVec.toNat_ofNat, Nat.and_two_pow_sub_one_eq_mod, Nat.and_two_pow_sub_one_eq_mod,
    Nat.shiftLeft_eq,
    Nat.mod_eq_of_lt (a := d.virtBdf.toNat) (by omega), Nat.mod_eq_of_lt (a := d.vmId * 2 ^ 6)
      (by omega), Nat.or_comm, Nat.mul_comm d.vmId, ← Nat.two_pow_add_eq_or_of_lt (by omega)]
  exact Nat.mod_eq_of_lt (by omega)

variable {d d'}

/-- Two devices never have the same entry. -/
theorem index_inj (h : d.index = d'.index) : d = d' := by
  have hbdf := d.virtBdf_lt
  have hbdf' := d'.virtBdf_lt
  have hnat := congrArg BitVec.toNat h
  rw [toNat_index, toNat_index] at hnat
  have hvm : d.vmId = d'.vmId := by omega
  have hvirt : d.virtBdf = d'.virtBdf := BitVec.eq_of_toNat_eq (by omega)
  cases d
  cases d'
  simp_all

end RemapDevice

/-- The `constant` of the remappable format has twelve bits. -/
theorem getLsbD_constant {i : ℕ} (h : 12 ≤ i) : (0xFEE#64).getLsbD i = false := by
  have hlt : 0xFEE < 2 ^ i :=
    (show 0xFEE < 2 ^ 12 by decide).trans_le (Nat.pow_le_pow_right (by decide) h)
  rw [BitVec.getLsbD_ofNat, Nat.testBit_lt_two_pow hlt, Bool.and_false]

theorem getLsbD_remappableAddr (index : BitVec 16) (i : ℕ) :
    (remappableAddr index).getLsbD i =
      (decide (i = 2) && index.getLsbD 15 || decide (i = 4) ||
        decide (5 ≤ i ∧ i < 20) && index.getLsbD (i - 5) ||
        decide (20 ≤ i) && (0xFEE#64).getLsbD (i - 20)) := by
  rw [remappableAddr, BitVec.getLsbD_or, BitVec.getLsbD_or, BitVec.getLsbD_or, BitVec.getLsbD_or,
    getLsbD_one_shiftLeft (by decide)]
  simp only [BitVec.getLsbD_shiftLeft, BitVec.getLsbD_setWidth, BitVec.getLsbD_extractLsb',
    BitVec.getLsbD_zero, Nat.zero_add]
  by_cases hi : i < 64
  · grind
  · rw [getLsbD_constant (show 12 ≤ i - 20 by omega)]
    grind

/-- The remappable address leads back to the index that it was made of. -/
theorem irIndex_remappableAddr (index : BitVec 16) (data : U32) :
    irIndex (remappableAddr index) data = some index := by
  have hconst : remappableAddr index >>> 20 = 0xFEE#64 := by
    apply BitVec.eq_of_getLsbD_eq
    intro i hi
    rw [BitVec.getLsbD_ushiftRight, getLsbD_remappableAddr]
    simp [show ¬ 20 + i = 2 by omega, show ¬ 20 + i = 4 by omega]
  have hformat : (remappableAddr index).getLsbD 4 = true := by
    rw [getLsbD_remappableAddr]
    simp
  have hshv : (remappableAddr index).getLsbD 3 = false := by
    rw [getLsbD_remappableAddr]
    simp
  have hindex : (remappableAddr index).extractLsb' 2 1 ++ (remappableAddr index).extractLsb' 5 15 =
      index := by
    apply BitVec.eq_of_getLsbD_eq
    intro i hi
    rw [BitVec.getLsbD_append]
    simp only [BitVec.getLsbD_extractLsb', getLsbD_remappableAddr]
    split
    · grind
    · grind
  rw [irIndex, if_pos ⟨hconst, hformat⟩]
  simp only [hshv, hindex]
  rfl

/-! ## Calls for many devices

A call writes at most the entry of its own device. So the entry of a device is what its own last
call has made of it. -/

/-- What a device was remapped for, with the message that came out. -/
structure MsiRemap where
  machine : Machine
  physBdf : BitVec 16
  info : PtirqMsiInfo

/-- The remapping unit and the messages of the devices. -/
structure PtirqState where
  unit : DmarUnit
  msi : RemapDevice → Option MsiRemap

/-- A call for a device. -/
inductive PtirqCall where
  | msixRemap (d : RemapDevice) (m : Machine) (physBdf : BitVec 16) (info : PtirqMsiInfo)
  | removeMsixRemapping (d : RemapDevice)

/-- The device that the call is for. -/
def PtirqCall.device : PtirqCall → RemapDevice
  | .msixRemap d _ _ _ => d
  | .removeMsixRemapping d => d

instance : DecidableEq RemapDevice := fun d d' =>
  decidable_of_iff (d.vmId = d'.vmId ∧ d.virtBdf = d'.virtBdf) (by
    cases d
    cases d'
    simp)

namespace PtirqState

variable (lapicLdr : PcpuId → U32) (s : PtirqState)

/-- The entry of a device. -/
def entry (d : RemapDevice) : DmarIrEntry := s.unit.irTable d.index

/-- One call. -/
def call : PtirqCall → PtirqState
  | .msixRemap d m physBdf info =>
    let (unit, info) := ptirqMsixRemap m lapicLdr s.unit d.vmId d.virtBdf physBdf info
    ⟨unit, Function.update s.msi d (some ⟨m, physBdf, info⟩)⟩
  | .removeMsixRemapping d =>
    ⟨removeMsixRemapping s.unit d.vmId d.virtBdf, Function.update s.msi d none⟩

end PtirqState

/-- The entry carries the vector and the source of the device, and the destination is made of
the logical ID of a pCPU that runs a vCPU of the virtual machine. -/
structure CarriesMsi (lapicLdr : PcpuId → U32) (d : RemapDevice) (r : MsiRemap)
    (irte : DmarIrEntry) : Prop where
  present : irte.present = true
  vector : irte.vector = r.info.vector
  sid : irte.sid = r.physBdf
  /-- the whole source id is checked -/
  verify : irte.svt = 1#2 ∧ irte.sq = 0#2
  logical : irte.destMode = 1#1
  dest : r.machine.OwnPcpu d.vmId lapicLdr r.info.destField irte.dest

/-- The entry that a remapping writes. -/
theorem ptirqMsixRemap_entry (lapicLdr : PcpuId → U32) (d : RemapDevice) (m : Machine)
    (unit : DmarUnit) (physBdf : BitVec 16) (info : PtirqMsiInfo) :
    CarriesMsi lapicLdr d ⟨m, physBdf, info⟩
      ((ptirqMsixRemap m lapicLdr unit d.vmId d.virtBdf physBdf info).1.irTable d.index) := by
  have hentry : (ptirqMsixRemap m lapicLdr unit d.vmId d.virtBdf physBdf info).1.irTable d.index =
      _ := Function.update_self _ _ _
  rw [hentry]
  refine ⟨rfl, ?_, rfl, ⟨rfl, rfl⟩, rfl, m.ownPcpu_logicalDest d.vmId lapicLdr info.destField⟩
  simp [PtirqMsiInfo.vector]

/-- Every remapped device has its entry, and its message leads to it. -/
def PtirqState.Inv (lapicLdr : PcpuId → U32) (s : PtirqState) : Prop :=
  ∀ d r, s.msi d = some r →
    irIndex r.info.pmsiAddr r.info.pmsiData = some d.index ∧ CarriesMsi lapicLdr d r (s.entry d)

namespace PtirqState

variable {lapicLdr : PcpuId → U32} {s : PtirqState}

/-- A call leaves the entries of other devices alone. -/
theorem entry_call_of_ne {c : PtirqCall} {d : RemapDevice} (h : d ≠ c.device) :
    (s.call lapicLdr c).entry d = s.entry d := by
  have hindex : d.index ≠ c.device.index := fun heq => h (RemapDevice.index_inj heq)
  cases c with
  | msixRemap d' m physBdf info => exact Function.update_of_ne hindex _ _
  | removeMsixRemapping d' => exact Function.update_of_ne hindex _ _

theorem msi_call_of_ne {c : PtirqCall} {d : RemapDevice} (h : d ≠ c.device) :
    (s.call lapicLdr c).msi d = s.msi d := by
  cases c with
  | msixRemap d' m physBdf info => exact Function.update_of_ne h _ _
  | removeMsixRemapping d' => exact Function.update_of_ne h _ _

/-- The device of the call has its entry. -/
theorem carries_msixRemap (d : RemapDevice) (m : Machine) (physBdf : BitVec 16)
    (info : PtirqMsiInfo) : ∃ r, (s.call lapicLdr (.msixRemap d m physBdf info)).msi d = some r ∧
      irIndex r.info.pmsiAddr r.info.pmsiData = some d.index ∧
      CarriesMsi lapicLdr d r ((s.call lapicLdr (.msixRemap d m physBdf info)).entry d) := by
  obtain ⟨present, vector, sid, verify, logical, dest⟩ :=
    ptirqMsixRemap_entry lapicLdr d m s.unit physBdf info
  exact ⟨_, Function.update_self _ _ _, irIndex_remappableAddr _ _,
    present, vector, sid, verify, logical, dest⟩

theorem Inv.call (h : s.Inv lapicLdr) (c : PtirqCall) : (s.call lapicLdr c).Inv lapicLdr := by
  intro d r hmsi
  by_cases hd : d = c.device
  · cases c with
    | msixRemap d' m physBdf info =>
      cases hd
      obtain ⟨r', hr', hindex, hcarries⟩ := carries_msixRemap (s := s) d' m physBdf info
      cases hmsi.symm.trans hr'
      exact ⟨hindex, hcarries⟩
    | removeMsixRemapping d' =>
      cases hd
      have hnone : (s.call lapicLdr (.removeMsixRemapping d')).msi d' = none :=
        Function.update_self _ _ _
      cases hmsi.symm.trans hnone
  · rw [msi_call_of_ne hd] at hmsi
    rw [entry_call_of_ne hd]
    exact h d r hmsi

end PtirqState

/-- Calls in any order, before which no device is remapped. -/
def ptirqSystem (lapicLdr : PcpuId → U32) : Transition.System PtirqState PtirqCall where
  init s := ∀ d, s.msi d = none
  step s c s' := s' = s.call lapicLdr c

/-- **Interrupt remapping entries are isolated.** -/
theorem remapping_entries_isolated (lapicLdr : PcpuId → U32) {s : PtirqState}
    (hrun : Transition.Reach (ptirqSystem lapicLdr) Transition.any s) :
    (∀ d d' : RemapDevice, irteIndex d.vmId d.virtBdf = irteIndex d'.vmId d'.virtBdf →
      d.vmId = d'.vmId ∧ d.virtBdf = d'.virtBdf) ∧
    (∀ c d, d ≠ c.device → (s.call lapicLdr c).entry d = s.entry d) ∧
    (∀ d, ((s.call lapicLdr (.removeMsixRemapping d)).entry d).present = false) ∧
    ∀ d r, s.msi d = some r →
      irIndex r.info.pmsiAddr r.info.pmsiData = some (irteIndex d.vmId d.virtBdf) ∧
      CarriesMsi lapicLdr d r (s.entry d) := by
  have hinv : s.Inv lapicLdr := by
    refine hrun.invariant (fun s hinit d r hr => ?_) fun s c s' _ hs h => ?_
    · rw [hinit d] at hr
      cases hr
    · rw [hs]
      exact h.call c
  refine ⟨fun d d' heq => ?_, fun c d hd => PtirqState.entry_call_of_ne hd, fun d => ?_, hinv⟩
  · cases RemapDevice.index_inj heq
    exact ⟨rfl, rfl⟩
  · have hentry : (s.call lapicLdr (.removeMsixRemapping d)).entry d = _ :=
      Function.update_self _ _ _
    rw [hentry]

/-- The devices 0:1.0 of two virtual machines are remapped one after the other. -/
theorem remapping_entries_isolated_two :
    ∃ (d d' : RemapDevice) (s : PtirqState) (r r' : MsiRemap),
      d ≠ d' ∧ s.msi d = some r ∧ s.msi d' = some r' ∧
        CarriesMsi (fun p => 1#32 <<< p.val) d r (s.entry d) := by
  let d : RemapDevice := ⟨0, 0x08#16, by decide, by decide, by decide⟩
  let d' : RemapDevice := ⟨1, 0x08#16, by decide, by decide, by decide⟩
  let lapicLdr : PcpuId → U32 := fun p => 1#32 <<< p.val
  let info : PtirqMsiInfo := ⟨0xFEE01000#64, 0x31#32, 0#64, 0#32⟩
  let start : PtirqState := ⟨⟨false, fun _ => DmarIrEntry.zero⟩, fun _ => none⟩
  let first := start.call lapicLdr (.msixRemap d twoVcpus 0x10#16 info)
  let second := first.call lapicLdr (.msixRemap d' twoVcpus 0x18#16 info)
  have hrun : Transition.Reach (ptirqSystem lapicLdr) Transition.any second :=
    .step (.step (.init (s := start) fun _ => rfl) trivial rfl) trivial rfl
  have hne : d ≠ d' := by decide
  obtain ⟨r, hr, -⟩ : ∃ r, first.msi d = some r ∧ _ :=
    PtirqState.carries_msixRemap d twoVcpus 0x10#16 info
  have hmsi : second.msi d = some r := (PtirqState.msi_call_of_ne hne).trans hr
  obtain ⟨r', hr', -⟩ : ∃ r', second.msi d' = some r' ∧ _ :=
    PtirqState.carries_msixRemap d' twoVcpus 0x18#16 info
  exact ⟨d, d', second, r, r', hne, hmsi, hr',
    ((remapping_entries_isolated lapicLdr hrun).2.2.2 d r hmsi).2⟩

end Acrn
