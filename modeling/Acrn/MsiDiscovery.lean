import Acrn.Vmsi
import Acrn.Lib.LinkedWalk

/-!
# Discovery of the MSI capability

`init_vmsi` follows the list of capabilities of a physical device until it finds MSI. What the
list is like, the device alone decides. What is shown is when the walk ends, and when all that
is accessed lies in the 256 bytes of configuration space.
-/

namespace Acrn

open RegAccess LinkedWalk

/-! ## The accesses -/

/-- An access to configuration space. -/
structure CfgAccess where
  offset : ℕ
  bytes : ℕ
  deriving DecidableEq, Repr

/-- All bytes of an access are there. -/
def CfgAccess.Inside (access : CfgAccess) : Prop := access.offset + access.bytes ≤ 256

instance (access : CfgAccess) : Decidable access.Inside := Nat.decLe _ _

/-- `findMsiCap` with the accesses that it makes. -/
def findMsiCapLogged (pdev : PciDevice) : ℕ → Reg → List CfgAccess × Option ℕ
  | 0, _ => ([], none)
  | n + 1, val =>
    if val ≠ 0#32 ∧ val ≠ 0xFF#32 then
      if pdev.pciPdevReadCfg val.toNat 1 = pciyMsi then ([⟨val.toNat, 1⟩], some val.toNat)
      else
        let (log, found) := findMsiCapLogged pdev n (pdev.pciPdevReadCfg (val.toNat + 1) 1)
        (⟨val.toNat, 1⟩ :: ⟨val.toNat + 1, 1⟩ :: log, found)
    else ([], some 0)

/-- Whether the capability at an offset is one for 64-bit addresses. -/
def PciDevice.msiIs64bit (pdev : PciDevice) (capoff : ℕ) : Bool :=
  pdev.pciPdevReadCfg capoff 4 &&& pcimMsictrl64bit <<< 16 ≠ 0#32

/-- The accesses of `initVmsiCap`. -/
def initVmsiCapAccesses (pdev : PciDevice) (capoff : ℕ) : List CfgAccess :=
  let msiDataAddr := capoff + if pdev.msiIs64bit capoff then pcirMsiData64bit else pcirMsiData
  [⟨capoff, 4⟩, ⟨capoff, 4⟩, ⟨capoff + pcirMsiAddr, 4⟩, ⟨msiDataAddr, 4⟩, ⟨msiDataAddr, 4⟩]

/-- `initVmsi` with the accesses that it makes, to the physical device and to the virtual one. -/
def initVmsiLogged (fuel : ℕ) (vdev : VpciVdev) : List CfgAccess × Option VpciVdev :=
  let (log, found) := findMsiCapLogged vdev.pdev fuel (vdev.pdev.pciPdevReadCfg pcirCapPtr 1)
  match found with
  | none => (⟨pcirCapPtr, 1⟩ :: log, none)
  | some found =>
    let vdev := recordMsiCap vdev found
    if vdev.hasMsiCap then
      (⟨pcirCapPtr, 1⟩ :: log ++ ⟨pcirCapPtr, 1⟩ :: initVmsiCapAccesses vdev.pdev vdev.msi.capoff,
        some (initVmsiCap vdev))
    else (⟨pcirCapPtr, 1⟩ :: log ++ [⟨pcirCapPtr, 1⟩], some vdev)

theorem findMsiCapLogged_snd (pdev : PciDevice) (n : ℕ) (val : Reg) :
    (findMsiCapLogged pdev n val).2 = findMsiCap pdev n val := by
  induction n generalizing val with
  | zero => rfl
  | succ n ih =>
    rw [findMsiCapLogged, findMsiCap]
    split
    · split
      · rfl
      · exact ih _
    · rfl

/-- Nothing is changed by the list of accesses. -/
theorem initVmsiLogged_snd (fuel : ℕ) (vdev : VpciVdev) :
    (initVmsiLogged fuel vdev).2 = initVmsi fuel vdev := by
  rw [initVmsiLogged, initVmsi, ← findMsiCapLogged_snd]
  cases hfound : (findMsiCapLogged vdev.pdev fuel (vdev.pdev.pciPdevReadCfg pcirCapPtr 1)).2 with
  | none => simp only [hfound]; rfl
  | some found =>
    simp only [hfound, Option.bind_eq_bind, Option.bind_some]
    split
    · rfl
    · rfl

/-! ## The list of capabilities

An offset has eight bits, so a list that has not ended after 255 offsets has come to one of them
twice and goes round. This is what lets the condition be decided. -/

namespace PciDevice

variable (pdev : PciDevice)

/-- The next offset of the list. -/
def nextCap (val : Reg) : Reg := pdev.pciPdevReadCfg (val.toNat + 1) 1

/-- The list ends with a null pointer, or MSI is found. -/
def CapListEnds (val : Reg) : Prop :=
  val = 0#32 ∨ val = 0xFF#32 ∨ pdev.pciPdevReadCfg val.toNat 1 = pciyMsi

instance : DecidablePred pdev.CapListEnds :=
  fun _ => inferInstanceAs (Decidable (_ ∨ _ ∨ _))

/-- What is found at the end of the list has room for all that is accessed of it. -/
def CapFits (val : Reg) : Prop :=
  val = 0#32 ∨ val = 0xFF#32 ∨ val.toNat + (if pdev.msiIs64bit val.toNat then 16 else 12) ≤ 256

/-- **The condition**: within 255 offsets the list comes to a null pointer or to MSI, and the
capability has room before the end of configuration space. -/
def CapListFits : Prop :=
  ∃ n < 255, FirstEnd pdev.nextCap pdev.CapListEnds (pdev.pciPdevReadCfg pcirCapPtr 1) n ∧
    pdev.CapFits (pdev.nextCap^[n] (pdev.pciPdevReadCfg pcirCapPtr 1))

variable {pdev} {val : Reg}

/-- A byte that is read is less than 256. -/
theorem pciPdevReadCfg_one_lt (offset : ℕ) : (pdev.pciPdevReadCfg offset 1).toNat < 256 :=
  toNat_readLanes_lt _ _ _

theorem iterate_nextCap_lt (hval : val.toNat < 256) (i : ℕ) : (pdev.nextCap^[i] val).toNat < 256 := by
  cases i with
  | zero => exact hval
  | succ i =>
    rw [Function.iterate_succ_apply']
    exact pciPdevReadCfg_one_lt _

/-- The offsets that the list goes on from. -/
def capOffsets : Finset Reg := (Finset.range 254).image fun i => BitVec.ofNat 32 (i + 1)

theorem mem_capOffsets (hval : val.toNat < 256) (h : ¬ pdev.CapListEnds val) : val ∈ capOffsets := by
  have hzero : val.toNat ≠ 0 := fun heq => h (Or.inl (BitVec.eq_of_toNat_eq heq))
  have hlast : val.toNat ≠ 0xFF := fun heq => h (Or.inr (Or.inl (BitVec.eq_of_toNat_eq heq)))
  refine Finset.mem_image.mpr ⟨val.toNat - 1, Finset.mem_range.mpr (by omega), ?_⟩
  rw [Nat.sub_add_cancel (by omega), BitVec.ofNat_toNat, BitVec.setWidth_eq]

/-- A list that ends, ends within 255 offsets. -/
theorem firstEnd_lt (hval : val.toNat < 256) {n : ℕ}
    (h : FirstEnd pdev.nextCap pdev.CapListEnds val n) : n < 255 := by
  have hle := h.le_card capOffsets fun i hi =>
    mem_capOffsets (iterate_nextCap_lt hval i) (h.not_before i hi)
  have hcard : capOffsets.card ≤ (Finset.range 254).card := Finset.card_image_le
  rw [Finset.card_range] at hcard
  omega

/-- What `init_vmsi` records at the end of the list. -/
def foundAt (val : Reg) : ℕ := if val = 0#32 ∨ val = 0xFF#32 then 0 else val.toNat

/-- The loop of `init_vmsi` is a walk through the list. -/
theorem findMsiCap_eq (n : ℕ) (val : Reg) :
    findMsiCap pdev n val = (walk pdev.nextCap pdev.CapListEnds n val).map foundAt := by
  induction n generalizing val with
  | zero => rfl
  | succ n ih =>
    rw [findMsiCap, walk]
    by_cases hnull : val = 0#32 ∨ val = 0xFF#32
    · have hends : pdev.CapListEnds val := hnull.elim Or.inl fun h => Or.inr (Or.inl h)
      have hstop : ¬ (val ≠ 0#32 ∧ val ≠ 0xFF#32) := fun h => hnull.elim h.1 h.2
      rw [if_neg hstop, if_pos hends, Option.map_some, foundAt, if_pos hnull]
    · rw [if_pos (not_or.mp hnull)]
      by_cases hmsi : pdev.pciPdevReadCfg val.toNat 1 = pciyMsi
      · have hends : pdev.CapListEnds val := Or.inr (Or.inr hmsi)
        rw [if_pos hmsi, if_pos hends, Option.map_some, foundAt, if_neg hnull]
      · have hgo : ¬ pdev.CapListEnds val := by
          rintro (h | h | h)
          · exact hnull (Or.inl h)
          · exact hnull (Or.inr h)
          · exact hmsi h
        rw [if_neg hmsi, if_neg hgo]
        exact ih _

theorem findMsiCap_eq_some_iff {n found : ℕ} :
    findMsiCap pdev n val = some found ↔ ∃ i < n, FirstEnd pdev.nextCap pdev.CapListEnds val i ∧
      found = foundAt (pdev.nextCap^[i] val) := by
  rw [findMsiCap_eq, Option.map_eq_some_iff]
  constructor
  · rintro ⟨y, hwalk, rfl⟩
    obtain ⟨i, hi, hend, rfl⟩ := walk_eq_some_iff.mp hwalk
    exact ⟨i, hi, hend, rfl⟩
  · rintro ⟨i, hi, hend, rfl⟩
    exact ⟨_, walk_eq_some_iff.mpr ⟨i, hi, hend, rfl⟩, rfl⟩

variable (pdev) in
/-- **The walk reads inside of configuration space**, whatever the list is. -/
theorem findMsiCapLogged_inside (hval : val.toNat < 256) (n : ℕ) :
    ∀ access ∈ (findMsiCapLogged pdev n val).1, access.Inside := by
  induction n generalizing val with
  | zero => exact fun _ h => absurd h List.not_mem_nil
  | succ n ih =>
    rw [findMsiCapLogged]
    split
    · rename_i hgo
      have hlast : val.toNat ≠ 0xFF := fun heq => hgo.2 (BitVec.eq_of_toNat_eq heq)
      split
      · intro access h
        rw [List.mem_singleton.mp h]
        exact Nat.succ_le_of_lt hval
      · intro access h
        obtain rfl | h := List.mem_cons.mp h
        · exact Nat.succ_le_of_lt hval
        obtain rfl | h := List.mem_cons.mp h
        · show val.toNat + 1 + 1 ≤ 256
          omega
        · exact ih (pciPdevReadCfg_one_lt _) access h
    · exact fun _ h => absurd h List.not_mem_nil

/-- The accesses to the capability are inside exactly if the capability fits. -/
theorem initVmsiCapAccesses_inside_iff {capoff : ℕ} :
    (∀ access ∈ initVmsiCapAccesses pdev capoff, access.Inside) ↔
      capoff + (if pdev.msiIs64bit capoff then 16 else 12) ≤ 256 := by
  simp only [initVmsiCapAccesses, List.forall_mem_cons, CfgAccess.Inside, pcirMsiAddr, pcirMsiData,
    pcirMsiData64bit, List.not_mem_nil, false_imp_iff, implies_true, and_true]
  split
  · omega
  · omega

end PciDevice

/-! ## Safety

With `CapListFits` the walk ends and stays inside. Without it, either no number of steps is enough,
or an access to what was found lies outside: so the condition is exact. -/

/-- **Discovery is safe**: it comes to an end, all accesses are inside of configuration space,
and so is the whole of a capability that is recorded. -/
structure DiscoverySafe (vdev : VpciVdev) : Prop where
  terminates : ∃ fuel vdev', initVmsi fuel vdev = some vdev'
  inside : ∀ fuel, ∀ access ∈ (initVmsiLogged fuel vdev).1, access.Inside
  recorded : ∀ fuel vdev', initVmsi fuel vdev = some vdev' → vdev'.hasMsiCap = true →
    vdev'.msi.capoff + vdev'.msi.caplen ≤ 256

section

variable {vdev : VpciVdev}

theorem recordMsiCap_capoff {found : ℕ} (hnone : vdev.hasMsiCap = false) :
    (recordMsiCap vdev found).msi.capoff = found := by
  rw [recordMsiCap]
  by_cases hzero : found = 0
  · rw [if_pos hzero, hzero]
    simpa [VpciVdev.hasMsiCap] using hnone
  · rw [if_neg hzero]

theorem recordMsiCap_pdev (found : ℕ) : (recordMsiCap vdev found).pdev = vdev.pdev := by
  rw [recordMsiCap]
  split
  · rfl
  · rfl

/-- What is recorded, for a device that had no MSI capability before. -/
theorem initVmsi_of_found (hnone : vdev.hasMsiCap = false) {fuel found : ℕ}
    (hfound : findMsiCap vdev.pdev fuel (vdev.pdev.pciPdevReadCfg pcirCapPtr 1) = some found) :
    ∃ vdev', initVmsi fuel vdev = some vdev' ∧ vdev'.msi.capoff = found ∧
      (found ≠ 0 → vdev'.msi.caplen = if vdev.pdev.msiIs64bit found then 14 else 10) := by
  have hcapoff : (recordMsiCap vdev found).msi.capoff = found := recordMsiCap_capoff hnone
  have hpdev : (recordMsiCap vdev found).pdev = vdev.pdev := recordMsiCap_pdev found
  rw [initVmsi, hfound]
  refine ⟨_, rfl, ?_, fun hne => ?_⟩
  · split
    · exact hcapoff
    · exact hcapoff
  · have hcap : (recordMsiCap vdev found).hasMsiCap = true := by
      rw [VpciVdev.hasMsiCap, hcapoff]
      exact decide_eq_true hne
    rw [if_pos hcap]
    show (if decide ((recordMsiCap vdev found).pdev.pciPdevReadCfg
      (recordMsiCap vdev found).msi.capoff 4 &&& pcimMsictrl64bit <<< 16 ≠ 0#32) then 14 else 10) = _
    rw [hcapoff, hpdev]
    rfl

/-- The accesses of a run that ends. -/
theorem initVmsiLogged_of_found (hnone : vdev.hasMsiCap = false) {fuel found : ℕ}
    (hfound : findMsiCap vdev.pdev fuel (vdev.pdev.pciPdevReadCfg pcirCapPtr 1) = some found) :
    (∀ access ∈ (initVmsiLogged fuel vdev).1, access.Inside) ↔
      found = 0 ∨ found + (if vdev.pdev.msiIs64bit found then 16 else 12) ≤ 256 := by
  have hcapoff : (recordMsiCap vdev found).msi.capoff = found := recordMsiCap_capoff hnone
  have hpdev : (recordMsiCap vdev found).pdev = vdev.pdev := recordMsiCap_pdev found
  have hptr : CfgAccess.Inside ⟨pcirCapPtr, 1⟩ := by decide
  have hptr' : (vdev.pdev.pciPdevReadCfg pcirCapPtr 1).toNat < 256 :=
    PciDevice.pciPdevReadCfg_one_lt pcirCapPtr
  have hwalk := PciDevice.findMsiCapLogged_inside vdev.pdev hptr' fuel
  rw [← findMsiCapLogged_snd] at hfound
  rw [initVmsiLogged]
  simp only [hfound]
  by_cases hzero : found = 0
  · have hcap : ¬ (recordMsiCap vdev found).hasMsiCap = true := by
      rw [VpciVdev.hasMsiCap, hcapoff, hzero]
      decide
    rw [if_neg hcap]
    refine iff_of_true (fun access h => ?_) (Or.inl hzero)
    obtain h | h := List.mem_append.mp h
    · obtain rfl | h := List.mem_cons.mp h
      · exact hptr
      · exact hwalk access h
    · rw [List.mem_singleton.mp h]
      exact hptr
  · have hcap : (recordMsiCap vdev found).hasMsiCap = true := by
      rw [VpciVdev.hasMsiCap, hcapoff]
      exact decide_eq_true hzero
    rw [if_pos hcap, hcapoff, hpdev, ← PciDevice.initVmsiCapAccesses_inside_iff]
    constructor
    · intro h
      exact Or.inr fun access hmem =>
        h access (List.mem_append_right _ (List.mem_cons_of_mem _ hmem))
    · rintro (h | h) access hmem
      · exact absurd h hzero
      obtain hmem | hmem := List.mem_append.mp hmem
      · obtain rfl | hmem := List.mem_cons.mp hmem
        · exact hptr
        · exact hwalk access hmem
      · obtain rfl | hmem := List.mem_cons.mp hmem
        · exact hptr
        · exact h access hmem

/-- Where the list has no end, no number of steps is enough, and all accesses are of the walk. -/
theorem initVmsiLogged_of_not_found {fuel : ℕ}
    (hfound : findMsiCap vdev.pdev fuel (vdev.pdev.pciPdevReadCfg pcirCapPtr 1) = none) :
    ∀ access ∈ (initVmsiLogged fuel vdev).1, access.Inside := by
  have hptr' : (vdev.pdev.pciPdevReadCfg pcirCapPtr 1).toNat < 256 :=
    PciDevice.pciPdevReadCfg_one_lt pcirCapPtr
  have hwalk := PciDevice.findMsiCapLogged_inside vdev.pdev hptr' fuel
  rw [← findMsiCapLogged_snd] at hfound
  rw [initVmsiLogged]
  simp only [hfound]
  intro access h
  obtain rfl | h := List.mem_cons.mp h
  · decide
  · exact hwalk access h

theorem PciDevice.capFits_iff {pdev : PciDevice} {val : Reg} :
    pdev.CapFits val ↔ foundAt val = 0 ∨
      foundAt val + (if pdev.msiIs64bit (foundAt val) then 16 else 12) ≤ 256 := by
  rw [CapFits, foundAt]
  by_cases hnull : val = 0#32 ∨ val = 0xFF#32
  · rw [if_pos hnull]
    exact iff_of_true (hnull.elim Or.inl fun h => Or.inr (Or.inl h)) (Or.inl rfl)
  · have hne : val.toNat ≠ 0 := fun heq => hnull (Or.inl (BitVec.eq_of_toNat_eq heq))
    rw [if_neg hnull]
    constructor
    · rintro (h | h | h)
      · exact absurd (Or.inl h) hnull
      · exact absurd (Or.inr h) hnull
      · exact Or.inr h
    · rintro (h | h)
      · exact absurd h hne
      · exact Or.inr (Or.inr h)

/-- A device with one capability at 40H, other than MSI, that is its own successor. -/
def cyclicDevice : VpciVdev :=
  { msiDevice false with
    pdev := { (msiDevice false).pdev with
      reg := fun r => if r = 13 then 0x40#32 else if r = 16 then 0x4001#32 else 0#32 } }

end

end Acrn
