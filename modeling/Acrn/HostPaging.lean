import Acrn.E820
import Acrn.Lib.RangeEdit
import Acrn.PcpuStart
import Acrn.Remapping

/-!
# The hypervisor's own page table

`init_paging` maps all of memory as uncached data of the guests, and then edits ranges of it:
write-back caching for RAM and for the image, supervisor pages for the image, no guard pages.
Later `hv_access_memory_region_update` opens further regions to the hypervisor. There are no
page tables for this, so no edit may cut a 2-MByte page; the edits overlap, and their ends are
rounded each in a way of its own.
-/

namespace Acrn

open BlockLoop BitField PageTableLevel RangeEdit

/-! ## Entries of the table -/

def pagePwt : Word := 0x8#64
def pagePcd : Word := 0x10#64
def pageNx : Word := 0x8000000000000000#64
def pageCacheMask : Word := pagePcd ||| pagePwt
def pageCacheWb : Word := 0#64
def pageCacheUc : Word := pagePcd ||| pagePwt

/-- `PDE_SIZE`. -/
def pdeSize : Word := 0x200000#64
/-- `PDE_MASK`. -/
def pdeMask : Word := ~~~(pdeSize - 1#64)

/-- `round_pde_up`. -/
def roundPdeUp (val : Word) : Word := ((val + pdeSize) - 1#64) &&& pdeMask
/-- `round_pde_down`. -/
def roundPdeDown (val : Word) : Word := val &&& pdeMask

/-! ## The image -/

/-- Where the hypervisor is: `get_hv_image_base`, `CONFIG_HV_RAM_SIZE`, `ld_text_end`, the array
`per_cpu_data` and its length `MAX_PCPU_NUM`. -/
structure HvImage where
  hvImageBase : Word
  hvRamSize : Word
  ldTextEnd : Word
  perCpuData : ℕ
  maxPcpuNum : ℕ

namespace HvImage

variable (image : HvImage)

/-- The address of `per_cpu(before_guard_page, i)`. -/
def beforeGuardPage (i : ℕ) : ℕ := image.perCpuData + i * perCpuRegionSize

/-- The address of `per_cpu(after_guard_page, i)`. -/
def afterGuardPage (i : ℕ) : ℕ :=
  image.perCpuData + i * perCpuRegionSize + guardPageSize + pcpuStackSize

/-- The image as the linker lays it out, in memory below `top`: its size is a multiple of 2 MByte,
it begins with text, and it holds the array of `per_cpu_region`s, which are aligned to
`GUARD_PAGE_SIZE`. -/
structure Valid (top : ℕ) : Prop where
  size_dvd : 2 ^ 21 ∣ image.hvRamSize.toNat
  le_top : image.hvImageBase.toNat + image.hvRamSize.toNat ≤ top
  base_lt : image.hvImageBase.toNat < image.ldTextEnd.toNat
  text_le : image.ldTextEnd.toNat ≤ image.hvImageBase.toNat + image.hvRamSize.toNat
  perCpu_dvd : 2 ^ 21 ∣ image.perCpuData
  base_le : image.hvImageBase.toNat ≤ image.perCpuData
  perCpu_le : image.perCpuData + image.maxPcpuNum * perCpuRegionSize ≤
    image.hvImageBase.toNat + image.hvRamSize.toNat

end HvImage

/-! ## `init_paging` -/

/-- `ppt_get_pml4_page`. -/
def pptGetPml4Page (info : PoolLayout) (s : PgMem) : PgMem := s.zeroPage info.pml4Base

/-- The variable `attr_uc`. -/
def attrUc : Word := pagePresent ||| pageRw ||| pageUser ||| pageCacheUc ||| pageNx

/-- The variable `high64_max_ram`. -/
def high64MaxRam (e820 : List E820Entry) : Word := roundPdeUp (obtainMemRangeInfo e820).memTop

/-- A call of `mmu_modify_or_del` on the hypervisor's table. -/
def pptModifyOrDel (info : PoolLayout) (base size protSet protClr : Word) (type : MrType)
    (s : PgMem) : PgMem :=
  mmuModifyOrDel (pptMemOps info) info.pml4Base base.toNat size.toNat protSet protClr type s

/-- The loop that unmaps the guard pages, up to CPU `n`. -/
def unmapGuardPages (info : PoolLayout) (image : HvImage) : ℕ → PgMem → PgMem
  | 0, s => s
  | n + 1, s =>
    let s := unmapGuardPages info image n s
    let s := mmuModifyOrDel (pptMemOps info) info.pml4Base (image.beforeGuardPage n) guardPageSize
      0#64 0#64 .del s
    mmuModifyOrDel (pptMemOps info) info.pml4Base (image.afterGuardPage n) guardPageSize
      0#64 0#64 .del s

/-- `init_paging`, or nothing where it panics. `enable_paging` loads `CR3` and sets control bits;
it does not touch the table. -/
def initPaging (info : PoolLayout) (e820 : List E820Entry) (image : HvImage) (s : PgMem) :
    Option PgMem :=
  let high64MaxRam := high64MaxRam e820
  if info.window < high64MaxRam.toNat ∨ high64MaxRam < 0x100000000#64 then none else
  let s := pptGetPml4Page info s
  let s := mmuAdd (pptMemOps info) info.pml4Base 0 0 (high64MaxRam - 0#64).toNat attrUc s
  let low32MaxRam := low32MaxRam e820
  let s := pptModifyOrDel info 0#64 (roundPdeUp low32MaxRam) pageCacheWb pageCacheMask .modify s
  let s := pptModifyOrDel info 0x100000000#64 (high64MaxRam - 0x100000000#64) pageCacheWb
    pageCacheMask .modify s
  let hvHpa := image.hvImageBase
  let s := pptModifyOrDel info (hvHpa &&& pdeMask)
    (image.hvRamSize + if hvHpa &&& (pdeSize - 1#64) ≠ 0#64 then pdeSize else 0#64) pageCacheWb
    (pageCacheMask ||| pageUser) .modify s
  let size := image.ldTextEnd - hvHpa
  let textEnd := hvHpa + size
  let s := pptModifyOrDel info (roundPdeDown hvHpa) (roundPdeUp textEnd - roundPdeDown hvHpa) 0#64
    pageNx .modify s
  let s := unmapGuardPages info image image.maxPcpuNum s
  some (sanitizePte (pptMemOps info) info.sanitizedPage s)

/-- `hv_access_memory_region_update`. -/
def hvAccessMemoryRegionUpdate (info : PoolLayout) (base size : Word) (s : PgMem) : PgMem :=
  let regionEnd := base + size
  let baseAligned := roundPdeDown base
  let sizeAligned := roundPdeUp (regionEnd - baseAligned)
  pptModifyOrDel info baseAligned sizeAligned 0#64 pageUser .modify s

/-! ## Rounding to 2 MByte

Some callers round both ends and some round the size. In every case the range is one of whole
blocks, from that of its first address to the last one that it reaches. -/

/-- The end of the last 2-MByte block that begins before `a`. -/
def pdeUp (a : ℕ) : ℕ := blockStart 21 (a + 2 ^ 21 - 1)

theorem toNat_roundPdeDown (val : Word) : (roundPdeDown val).toNat = blockStart 21 val.toNat := by
  have hval := val.isLt
  rw [roundPdeDown, show pdeMask = fieldMask 64 21 64 by decide,
    toNat_and_fieldMask val (by decide) (by decide), blockStart, Nat.mod_eq_of_lt hval]

theorem roundPdeUp_eq (val : Word) : roundPdeUp val = roundPdeDown (val + pdeSize - 1#64) := rfl

/-- To round up adds to the address, which must not wrap. -/
theorem toNat_roundPdeUp {val : Word} (h : val.toNat + 2 ^ 21 ≤ 2 ^ 64) :
    (roundPdeUp val).toNat = pdeUp val.toNat := by
  have hsum : (val + pdeSize - 1#64).toNat = val.toNat + 2 ^ 21 - 1 := by
    rw [BitVec.toNat_sub, BitVec.toNat_add, show pdeSize.toNat = 2 ^ 21 from rfl,
      show (1#64 : Word).toNat = 1 from rfl]
    omega
  rw [roundPdeUp_eq, toNat_roundPdeDown, hsum, pdeUp]

theorem dvd_toNat_roundPdeUp (val : Word) : 2 ^ 21 ∣ (roundPdeUp val).toNat := by
  rw [roundPdeUp_eq, toNat_roundPdeDown]
  exact dvd_blockStart 21 _

/-! ## The table as an edited map

A call of `mmu_modify_or_del` clears a mask over a range, or takes the range out. As an operation
on a map from addresses to attributes it is an edit, and a sequence of calls is a list of edits. -/

/-- The attributes of the page that maps `v`. -/
def leafAttributes (ops : MemoryOps) (s : PgMem) (v : ℕ) : Option Word :=
  (leaf ops s.mem v).map fun L => attributes L.entry

/-- The hypervisor's table says of every address what the map `f` says. -/
structure Holds (info : PoolLayout) (f : ℕ → Option Word) (s : PgMem) : Prop where
  sound : Sound (pptMemOps info) s
  attr : ∀ v < 2 ^ 48, leafAttributes (pptMemOps info) s v = f v

/-- A range of whole 2-MByte blocks inside the window. -/
structure PdeRange (info : PoolLayout) (base size : ℕ) : Prop where
  base_dvd : 2 ^ 21 ∣ base
  size_dvd : 2 ^ 21 ∣ size
  le_window : base + size ≤ info.window

variable {info : PoolLayout} {f : ℕ → Option Word} {s : PgMem} {base size : ℕ}

namespace PdeRange

variable (h : PdeRange info base size)
include h

theorem start_eq : roundPageDown base = base :=
  blockStart_of_dvd (Dvd.dvd.trans (by decide) h.base_dvd)

theorem stop_eq : rangeEnd base size = base + size := by
  have hbase := h.base_dvd
  have hsize := h.size_dvd
  have hle := h.le_window.trans info.window_le
  simp only [rangeEnd, roundPageUp, blockStart, pageSize]
  omega

/-- Such a range needs no page table, since it cuts no 2-MByte page. -/
theorem changeable : Changeable (pptMemOps info) base size := by
  refine ⟨h.stop_eq.trans_le h.le_window, .inr ⟨?_, ?_⟩⟩
  · rw [h.start_eq]
    exact h.base_dvd
  · rw [h.stop_eq]
    exact Nat.dvd_add h.base_dvd h.size_dvd

/-- What the plan of a call covers. -/
theorem mem_iff (v : ℕ) :
    roundPageDown base ≤ v ∧ v < rangeEnd base size ↔ v ∈ Set.Ico base (base + size) := by
  rw [h.start_eq, h.stop_eq]
  rfl

end PdeRange

theorem lawful_ppt (hpool : info.ptPool = false) : (pptMemOps info).Lawful :=
  (MemoryOps.Known.ppt info hpool).lawful

/-- A piece of a page has the attributes of the page. -/
theorem attributes_cut (hpool : info.ptPool = false) (plan : ModPlan)
    (hplan : plan.ops = pptMemOps info) {L : Leaf} (hlevel : L.level ≠ .pml4) (v : ℕ) :
    attributes (plan.cut L v).entry = attributes L.entry := by
  have hops : plan.ops.Lawful := hplan ▸ lawful_ppt hpool
  have hrecover : plan.ops.recoverExeRight L.entry = L.entry := by rw [hplan]; rfl
  rw [plan.cut_attributes hops v hlevel, hrecover, ite_self]

/-- A modification that only clears bits does so in the attributes. -/
theorem attributes_clear (e clr : Word) :
    attributes ((e &&& ~~~clr) ||| 0#64) = attributes e &&& ~~~clr := by
  rw [BitVec.or_zero, attributes, attributes, BitVec.and_assoc, BitVec.and_comm (~~~clr),
    ← BitVec.and_assoc]

/-- A call changes nothing outside its range, and inside what its plan says. -/
theorem PdeRange.call (hpool : info.ptPool = false) (hs : Sound (pptMemOps info) s)
    (hrange : PdeRange info base size) (clr : Word) (type : MrType)
    (hps : type = .modify → clr &&& pagePs = 0#64)
    (hroot : RootWalkable (pptMemOps info) s base size type) :
    let s' := mmuModifyOrDel (pptMemOps info) info.pml4Base base size 0#64 clr type s
    Sound (pptMemOps info) s' ∧ ∀ v < 2 ^ 48,
      (v ∈ Set.Ico base (base + size) → leaf (pptMemOps info) s'.mem v =
        (modPlan (pptMemOps info) base size 0#64 clr type).target
          (leaf (pptMemOps info) s.mem v) v) ∧
      (v ∉ Set.Ico base (base + size) →
        leafAttributes (pptMemOps info) s' v = leafAttributes (pptMemOps info) s v) := by
  intro s'
  have hops := lawful_ppt hpool
  rcases Nat.eq_zero_or_pos size with rfl | hpos
  · have hend : rangeEnd base 0 ≤ roundPageDown base := by
      rw [hrange.stop_eq, hrange.start_eq, Nat.add_zero]
    have hnone : ∀ v, v ∉ Set.Ico base (base + 0) := fun v hin => by
      exact absurd (hin.1.trans_lt hin.2) (Nat.lt_irrefl _)
    have hsame : s' = s := by
      show mmuModifyOrDel (pptMemOps info) (pptMemOps info).info.pml4Base base 0 0#64 clr type s = s
      exact mmuModifyOrDel_empty hend
    rw [hsame]
    exact ⟨hs, fun v _ => ⟨fun hin => absurd hin (hnone v), fun _ => rfl⟩⟩
  have hlt : roundPageDown base < rangeEnd base size := by
    rw [hrange.stop_eq, hrange.start_eq]
    omega
  set plan := modPlan (pptMemOps info) base size 0#64 clr type with hplan
  have hpost : ModPost plan .pml4 _ _ s s' := mmuModifyOrDel_spec hops hs hroot hps
    hrange.changeable.window (Nat.le_of_lt hlt) (hrange.changeable.served _ _ _)
  have hleaf : ∀ v < 2 ^ 48, leaf (pptMemOps info) s'.mem v =
      plan.target (leaf (pptMemOps info) s.mem v) v :=
    fun v hv => hpost.leaf_eq hlt rfl rfl hv
  refine ⟨hpost.sound, fun v hv => ⟨fun _ => hleaf v hv, fun hout => ?_⟩⟩
  rw [leafAttributes, leafAttributes, hleaf v hv]
  cases hL : leaf (pptMemOps info) s.mem v with
  | none => rfl
  | some L =>
    have hnot : ¬ (plan.start ≤ v ∧ v < plan.stop) := fun hc => hout ((hrange.mem_iff v).mp hc)
    rw [ModPlan.target, Option.bind_some, ModPlan.newLeaf, if_neg hnot, Option.map_some,
      Option.map_some, attributes_cut hpool plan rfl (leaf_level_ne hL) v]

/-- **A modification clears its mask over its range.** -/
theorem Holds.modify (hpool : info.ptPool = false) (h : Holds info f s)
    (hrange : PdeRange info base size) {clr : Word} (hps : clr &&& pagePs = 0#64)
    (hpresent : clr &&& pagePresent = 0#64) :
    Holds info ((Edit.clear (Set.Ico base (base + size)) clr).apply f)
      (mmuModifyOrDel (pptMemOps info) info.pml4Base base size 0#64 clr .modify s) := by
  have hops := lawful_ppt hpool
  obtain ⟨hs', hcall⟩ := hrange.call hpool h.sound clr .modify (fun _ => hps)
    (rootWalkable_modify _ _ _ _)
  refine ⟨hs', fun v hv => ?_⟩
  obtain ⟨hinside, houtside⟩ := hcall v hv
  by_cases hin : v ∈ Set.Ico base (base + size)
  · rw [apply_clear_of_mem hin, ← h.attr v hv, leafAttributes, leafAttributes, hinside hin]
    cases hL : leaf (pptMemOps info) s.mem v with
    | none => rfl
    | some L =>
      set plan := modPlan (pptMemOps info) base size 0#64 clr .modify with hplan
      have hcut := attributes_cut hpool plan rfl (leaf_level_ne hL) v
      have hnew : attributes (newEntry plan.ops plan.protSet plan.protClr plan.type
          (plan.cut L v).entry) = attributes L.entry &&& ~~~clr := by
        rw [← hcut]
        exact attributes_clear _ clr
      -- the present bit stays, so the page does
      have hold : (pptMemOps info).pgentryPresent L.entry ≠ 0#64 := (leafOver_some hL).2.2.1
      have hstay : plan.ops.pgentryPresent
          (newEntry plan.ops plan.protSet plan.protClr plan.type (plan.cut L v).entry) ≠ 0#64 := by
        rw [← present_of_attributes hops hcut] at hold
        show ((((plan.cut L v).entry &&& ~~~clr) ||| 0#64) &&& pagePresent) ≠ 0#64
        rw [BitVec.or_zero, BitVec.and_assoc, not_and_of_disjoint hpresent]
        exact hold
      rw [ModPlan.target, Option.bind_some,
        ModPlan.newLeaf_of_present ((hrange.mem_iff v).mpr hin) hstay, Option.map_some,
        Option.map_some, Option.map_some, hnew]
  · rw [apply_clear_of_not_mem hin, houtside hin, h.attr v hv]

/-- **A deletion takes its range out**, if it was mapped. -/
theorem Holds.del (hpool : info.ptPool = false) (h : Holds info f s)
    (hrange : PdeRange info base size) (hmapped : ∀ v ∈ Set.Ico base (base + size), f v ≠ none) :
    Holds info ((Edit.remove (Set.Ico base (base + size))).apply f)
      (mmuModifyOrDel (pptMemOps info) info.pml4Base base size 0#64 0#64 .del s) := by
  have hroot : RootWalkable (pptMemOps info) s base size .del := by
    -- a mapped address has a present entry in the root
    intro _ v hge hv habs
    have hin := (hrange.mem_iff v).mp ⟨hge, hv⟩
    have hv48 : v < 2 ^ 48 := hin.2.trans_le (hrange.le_window.trans info.window_le)
    refine absurd ?_ (hmapped v hin)
    rw [← h.attr v hv48, leafAttributes, leaf_of_root_absent habs, Option.map_none]
  obtain ⟨hs', hcall⟩ := hrange.call hpool h.sound 0#64 .del (fun hc => (by cases hc)) hroot
  refine ⟨hs', fun v hv => ?_⟩
  obtain ⟨hinside, houtside⟩ := hcall v hv
  by_cases hin : v ∈ Set.Ico base (base + size)
  · rw [apply_remove_of_mem hin, leafAttributes, hinside hin]
    cases hL : leaf (pptMemOps info) s.mem v with
    | none => rfl
    | some L =>
      rw [ModPlan.target, Option.bind_some, ModPlan.newLeaf_of_absent
        ((hrange.mem_iff v).mpr hin) (sanitizedEntry_absent (lawful_ppt hpool)), Option.map_none]
  · rw [apply_remove_of_not_mem hin, houtside hin, h.attr v hv]

/-- A call of `init_paging` or of `hv_access_memory_region_update`, by the ends of its range. -/
theorem Holds.clear (hpool : info.ptPool = false) (h : Holds info f s) (base size clr : Word)
    {start stop : ℕ} (hstart : base.toNat = start) (hstop : base.toNat + size.toNat = stop)
    (hstart_dvd : 2 ^ 21 ∣ start) (hstop_dvd : 2 ^ 21 ∣ stop) (hle : stop ≤ info.window)
    (hps : clr &&& pagePs = 0#64) (hpresent : clr &&& pagePresent = 0#64) :
    Holds info ((Edit.clear (Set.Ico start stop) clr).apply f)
      (pptModifyOrDel info base size 0#64 clr .modify s) := by
  subst hstart hstop
  have hsize := (Nat.dvd_add_right hstart_dvd).mp hstop_dvd
  exact h.modify hpool ⟨hstart_dvd, hsize, hle⟩ hps hpresent

/-! ## The first mapping -/

/-- The map after `mmu_add`. -/
def uncachedMap (top v : ℕ) : Option Word := if v < top then some (attributes attrUc) else none

/-- After `ppt_get_pml4_page` nothing is mapped. -/
theorem pptGetPml4Page_rootAbsent (info : PoolLayout) (s : PgMem) :
    RootAbsent (pptMemOps info) (pptGetPml4Page info s) := by
  intro v hv
  have hindex : v / 2 ^ 39 < 512 := Nat.div_lt_of_lt_mul (by omega)
  have hzero : entryAt (pptMemOps info) (pptGetPml4Page info s).mem .pml4 v = 0#64 := by
    refine if_pos ⟨Nat.le_add_right _ _, ?_⟩
    show info.pml4Base + 8 * (v / 2 ^ 39) < info.pml4Base + 4096
    omega
  rw [hzero]
  exact BitVec.zero_and

/-- All of memory is mapped as uncached data that the guests may use. -/
theorem mmuAdd_holds (hpool : info.ptPool = false) (hboot : s.requests = []) {top : ℕ}
    (hdvd : 2 ^ 21 ∣ top) (hle : top ≤ info.window) :
    Holds info (uncachedMap top)
      (mmuAdd (pptMemOps info) info.pml4Base 0 0 top attrUc (pptGetPml4Page info s)) := by
  have hknown : (pptMemOps info).Known := .ppt info hpool
  have habs := pptGetPml4Page_rootAbsent info s
  have hwf : WellFormed (pptMemOps info) (pptGetPml4Page info s) := habs.wellFormed hboot
  have hrange : PdeRange info 0 top := ⟨Nat.dvd_zero _, hdvd, by omega⟩
  have hstop : rangeEnd 0 top = top := hrange.stop_eq.trans (Nat.zero_add top)
  have hle48 := hle.trans info.window_le
  have hmap : Mappable (pptMemOps info) 0 0 top (pptGetPml4Page info s) := by
    refine ⟨hstop.trans_le hle, .inr ⟨Nat.dvd_zero _, ?_, Nat.dvd_zero _⟩, fun v _ hv => ?_⟩
    · rw [hstop]
      exact hdvd
    · have hv48 : v < 2 ^ 48 := by omega
      exact (lookupAddress_eq_none hwf.sound hv48).mpr (habs.leaf_eq hv48)
  have hprot : ProtOk (pptMemOps info) attrUc := by
    refine ⟨by decide, ?_, ?_⟩
    all_goals
      show pptPgentryPresent attrUc ≠ 0#64
      decide
  refine ⟨hmap.sound attrUc hknown hwf, fun v hv => ?_⟩
  rw [leafAttributes, uncachedMap]
  by_cases hin : v < top
  · obtain ⟨l, r, hl, -, -, hal, -, hr, hleaf⟩ :=
      hmap.leaf_inside hprot hknown hwf (Nat.zero_le v) (hin.trans_eq hstop.symm)
    have hleaf' : leaf (pptMemOps info)
        (mmuAdd (pptMemOps info) info.pml4Base 0 0 top attrUc (pptGetPml4Page info s)).mem v = _ :=
      hleaf
    rw [hleaf', if_pos hin, Option.map_some]
    -- the address of the page has no attributes, and `PAGE_PS` is none
    have hpage : pageSize ∣ (addPlan (pptMemOps info) 0 0 top attrUc
        (pptGetPml4Page info s)).pa (blockStart l.shift v) :=
      (pow_dvd_pow 2 (shift_bounds hl).1).trans hal
    have hsmall : (addPlan (pptMemOps info) 0 0 top attrUc
        (pptGetPml4Page info s)).pa (blockStart l.shift v) < 2 ^ 59 := by
      have hbv := blockStart_le l.shift v
      have hzero : roundPageDown 0 = 0 := rfl
      simp only [AddPlan.pa, addPlan, hzero]
      omega
    have hright : attributes r = attributes attrUc := by
      rcases hr with ⟨-, rfl | rfl⟩ | ⟨-, rfl⟩
      · rfl
      · rfl
      · show attributes (attrUc ||| pagePs) = attributes attrUc
        decide
    refine congrArg some ?_
    rw [AddPlan.mapAt, attributes_or, attributes_ofNat hpage hsmall, BitVec.zero_or, hright]
  · have hout : ¬ (roundPageDown 0 ≤ v ∧ v < rangeEnd 0 top) := by
      rw [hstop]
      exact fun hc => hin hc.2
    have hleaf : leaf (pptMemOps info)
        (mmuAdd (pptMemOps info) info.pml4Base 0 0 top attrUc (pptGetPml4Page info s)).mem v = _ :=
      hmap.leaf_outside attrUc hknown hwf hv hout
    rw [hleaf, habs.leaf_eq hv, if_neg hin, Option.map_none]

/-! ## The guard pages

They are unmapped one CPU after the other. Each is a range of whole 2-MByte pages of the image, and
no two of them meet, so that a guard page is still mapped when its turn comes. -/

/-- The two guard pages of a CPU. -/
def HvImage.guardPages (image : HvImage) (i : ℕ) : Set ℕ :=
  Set.Ico (image.beforeGuardPage i) (image.beforeGuardPage i + guardPageSize) ∪
    Set.Ico (image.afterGuardPage i) (image.afterGuardPage i + guardPageSize)

/-- What `unmapGuardPages` does to the map. -/
def guardEdits (image : HvImage) : ℕ → List (Edit ℕ 64)
  | 0 => []
  | n + 1 => guardEdits image n ++
    [.remove (Set.Ico (image.beforeGuardPage n) (image.beforeGuardPage n + guardPageSize)),
      .remove (Set.Ico (image.afterGuardPage n) (image.afterGuardPage n + guardPageSize))]

variable {image : HvImage} {top : ℕ}

/-- The edits of the guard pages remove exactly these, -/
theorem removed_guardEdits {n v : ℕ} :
    Removed (guardEdits image n) v ↔ ∃ i < n, v ∈ image.guardPages i := by
  induction n with
  | zero => simp [guardEdits]
  | succ n ih =>
    rw [guardEdits, removed_append, ih, removed_cons_remove, removed_cons_remove,
      or_iff_left not_removed_nil]
    constructor
    · rintro (⟨i, hi, hv⟩ | hv)
      · exact ⟨i, Nat.lt_succ_of_lt hi, hv⟩
      · exact ⟨n, Nat.lt_succ_self n, hv⟩
    · rintro ⟨i, hi, hv⟩
      rcases Nat.lt_succ_iff_lt_or_eq.mp hi with hlt | rfl
      · exact .inl ⟨i, hlt, hv⟩
      · exact .inr hv

/-- and clear nothing. -/
theorem not_cleared_guardEdits {n v : ℕ} (field : Word) :
    ¬ Cleared (guardEdits image n) field v := by
  induction n with
  | zero => simp [guardEdits]
  | succ n ih => simp [guardEdits, ih]

namespace HvImage.Valid

variable (h : image.Valid top)
include h

/-- A guard page is a range of 2-MByte pages inside the window of the table. -/
theorem guardPage_range (hle : top ≤ info.window) {i : ℕ} (hi : i < image.maxPcpuNum) :
    PdeRange info (image.beforeGuardPage i) guardPageSize ∧
      PdeRange info (image.afterGuardPage i) guardPageSize := by
  have hdvd := h.perCpu_dvd
  have hcpu := h.perCpu_le
  have htop := h.le_top
  have hmul : (i + 1) * perCpuRegionSize ≤ image.maxPcpuNum * perCpuRegionSize :=
    Nat.mul_le_mul_right _ hi
  simp only [perCpuRegionSize] at hmul hcpu
  constructor
  · refine ⟨?_, by decide, ?_⟩
    all_goals
      simp only [beforeGuardPage, perCpuRegionSize, guardPageSize]
      omega
  · refine ⟨?_, by decide, ?_⟩
    all_goals
      simp only [afterGuardPage, perCpuRegionSize, guardPageSize, pcpuStackSize]
      omega

/-- Guard pages lie in the image. -/
theorem guardPages_subset {i v : ℕ} (hi : i < image.maxPcpuNum) (hv : v ∈ image.guardPages i) :
    image.hvImageBase.toNat ≤ v ∧ v < image.hvImageBase.toNat + image.hvRamSize.toNat := by
  have hbase := h.base_le
  have hcpu := h.perCpu_le
  have hmul : (i + 1) * perCpuRegionSize ≤ image.maxPcpuNum * perCpuRegionSize :=
    Nat.mul_le_mul_right _ hi
  simp only [guardPages, beforeGuardPage, afterGuardPage, Set.mem_union, Set.mem_Ico,
    perCpuRegionSize, guardPageSize, pcpuStackSize] at hmul hcpu hv
  omega

end HvImage.Valid

/-- **The loop over the CPUs unmaps their guard pages.** -/
theorem unmapGuardPages_holds (hpool : info.ptPool = false) (himage : image.Valid top)
    (hle : top ≤ info.window) (hmapped : ∀ v < top, f v ≠ none) (h : Holds info f s) {n : ℕ}
    (hn : n ≤ image.maxPcpuNum) :
    Holds info (applyAll (guardEdits image n) f) (unmapGuardPages info image n s) := by
  induction n with
  | zero => exact h
  | succ n ih =>
    obtain ⟨hbefore, hafter⟩ := himage.guardPage_range hle (show n < image.maxPcpuNum from hn)
    have hin : ∀ v ∈ image.guardPages n, f v ≠ none := fun v hv =>
      hmapped v ((himage.guardPages_subset hn hv).2.trans_le himage.le_top)
    -- the guard pages before this one are others
    have hother : ∀ v ∈ image.guardPages n, ¬ Removed (guardEdits image n) v := by
      intro v hv
      rw [removed_guardEdits]
      rintro ⟨i, hi, hvi⟩
      simp only [HvImage.guardPages, HvImage.beforeGuardPage, HvImage.afterGuardPage,
        Set.mem_union, Set.mem_Ico, perCpuRegionSize, guardPageSize, pcpuStackSize] at hv hvi
      omega
    have hmap : ∀ v ∈ image.guardPages n, applyAll (guardEdits image n) f v ≠ none :=
      fun v hv hc => (applyAll_eq_none.mp hc).elim (hin v hv) (hother v hv)
    have hfirst := (ih (Nat.le_of_succ_le hn)).del hpool hbefore fun v hv => hmap v (.inl hv)
    have hsecond := hfirst.del hpool hafter fun v hv => by
      rw [apply_remove_of_not_mem]
      · exact hmap v (.inr hv)
      · simp only [HvImage.beforeGuardPage, HvImage.afterGuardPage, Set.mem_Ico, guardPageSize,
          pcpuStackSize] at hv ⊢
        omega
    rw [guardEdits, applyAll_append]
    exact hsecond

/-! ## The sanitized page -/

/-- The last step of `init_paging` does not touch the table. -/
theorem Holds.sanitizePte (h : Holds info f s) :
    Holds info f (sanitizePte (pptMemOps info) info.sanitizedPage s) := by
  set s' := Acrn.sanitizePte (pptMemOps info) info.sanitizedPage s
  have hentry : ∀ k v, v < 2 ^ 48 → Linked (pptMemOps info) s.mem k v →
      entryAt (pptMemOps info) s'.mem k v = entryAt (pptMemOps info) s.mem k v := by
    intro k v hv hlink
    have hpool : info.InPool k v := h.sound.inPool hv hlink
    refine fillPage_mem_other _ _ _ fun i hi he => ?_
    refine PoolLayout.ne_entryAddr hpool (Nat.le_add_right _ (8 * i)) ?_ he.symm
    simp only [pageSize, ptrsPerTable] at *
    omega
  have hlinked : ∀ k v, v < 2 ^ 48 →
      (Linked (pptMemOps info) s'.mem k v ↔ Linked (pptMemOps info) s.mem k v) :=
    fun k v hv => linked_congr fun k' _ hlink => hentry k' v hv hlink
  refine ⟨⟨fun l v hl hv hlink => ?_, fun r hr => ?_⟩, fun v hv => ?_⟩
  · have hlink' := (hlinked l.next v hv).mp hlink
    rw [hentry l v hv (hlink'.above (Nat.le_of_lt (shift_next_lt hl)))]
    exact h.sound.table l v hl hv hlink'
  · refine h.sound.fresh r ?_
    rwa [show s'.requests = s.requests from fillPage_requests _ _ _ _] at hr
  · rw [← h.attr v hv, leafAttributes, leafAttributes,
      leaf_congr fun k hlink => hentry k v hv hlink]

/-! ## The whole of `init_paging` -/

/-- The end of the mapping. -/
def mappedTop (e820 : List E820Entry) : ℕ := (high64MaxRam e820).toNat

/-- The 2-MByte pages from the one that holds `base` up to the end at `stop`. -/
def pdeCover (base stop : ℕ) : Set ℕ := Set.Ico (blockStart 21 base) (pdeUp stop)

/-- What `init_paging` does to the map after `mmu_add`. -/
def initEdits (e820 : List E820Entry) (image : HvImage) : List (Edit ℕ 64) :=
  [.clear (Set.Ico 0 (pdeUp (low32MaxRam e820).toNat)) pageCacheMask,
    .clear (Set.Ico (2 ^ 32) (mappedTop e820)) pageCacheMask,
    .clear (pdeCover image.hvImageBase.toNat (image.hvImageBase.toNat + image.hvRamSize.toNat))
      (pageCacheMask ||| pageUser),
    .clear (pdeCover image.hvImageBase.toNat image.ldTextEnd.toNat) pageNx] ++
  guardEdits image image.maxPcpuNum

/-- A region handed to `hv_access_memory_region_update`. -/
structure MemoryRegion where
  base : Word
  size : Word

namespace MemoryRegion

/-- The end of the region, in memory. -/
def stop (region : MemoryRegion) : ℕ := region.base.toNat + region.size.toNat

/-- What the call does to the map. -/
def edit (region : MemoryRegion) : Edit ℕ 64 :=
  .clear (pdeCover region.base.toNat region.stop) pageUser

end MemoryRegion

theorem pdeUp_dvd (a : ℕ) : 2 ^ 21 ∣ pdeUp a := dvd_blockStart 21 _

theorem pdeUp_le {a top : ℕ} (hdvd : 2 ^ 21 ∣ top) (h : a ≤ top) : pdeUp a ≤ top := by
  simp only [pdeUp, blockStart]
  omega

/-- The rounded range is not negative. -/
theorem blockStart_le_pdeUp {base stop : ℕ} (h : base ≤ stop) :
    blockStart 21 base ≤ pdeUp stop := by
  simp only [pdeUp, blockStart]
  omega

/-- A range whose ends are rounded one by one. -/
theorem roundPde_size {base stop : Word} (hle : base.toNat ≤ stop.toNat)
    (hstop : stop.toNat + 2 ^ 21 ≤ 2 ^ 64) :
    (roundPdeDown base).toNat + (roundPdeUp stop - roundPdeDown base).toNat =
      pdeUp stop.toNat := by
  have hround : (roundPdeDown base).toNat ≤ (roundPdeUp stop).toNat := by
    rw [toNat_roundPdeDown, toNat_roundPdeUp hstop]
    exact blockStart_le_pdeUp hle
  rw [BitVec.toNat_sub_of_le hround, Nat.add_sub_cancel' hround, toNat_roundPdeUp hstop]

/-- A range whose size is rounded after its beginning. -/
theorem roundPde_size_aligned {base size : Word}
    (hstop : base.toNat + size.toNat + 2 ^ 21 ≤ 2 ^ 64) :
    (roundPdeDown base).toNat + (roundPdeUp (base + size - roundPdeDown base)).toNat =
      pdeUp (base.toNat + size.toNat) := by
  have hdown := toNat_roundPdeDown base
  have hle := blockStart_le 21 base.toNat
  have hdiff : (base + size - roundPdeDown base).toNat =
      base.toNat + size.toNat - blockStart 21 base.toNat := by
    rw [BitVec.toNat_sub, BitVec.toNat_add, hdown]
    omega
  have hsize : (roundPdeUp (base + size - roundPdeDown base)).toNat =
      pdeUp (base.toNat + size.toNat - blockStart 21 base.toNat) := by
    rw [← hdiff]
    refine toNat_roundPdeUp ?_
    rw [hdiff]
    omega
  rw [hdown, hsize]
  simp only [pdeUp, blockStart] at hle ⊢
  omega

/-- The size of the image wraps nowhere. -/
theorem HvImage.Valid.image_size (h : image.Valid top) (htop : top ≤ 2 ^ 48) :
    (image.hvImageBase &&& pdeMask).toNat + (image.hvRamSize +
      if image.hvImageBase &&& (pdeSize - 1#64) ≠ 0#64 then pdeSize else 0#64).toNat =
      pdeUp (image.hvImageBase.toNat + image.hvRamSize.toNat) := by
  have hdvd := h.size_dvd
  have hle := h.le_top
  have hbase : (image.hvImageBase &&& pdeMask).toNat = blockStart 21 image.hvImageBase.toNat :=
    toNat_roundPdeDown _
  have hlow : (image.hvImageBase &&& (pdeSize - 1#64)).toNat =
      image.hvImageBase.toNat % 2 ^ 21 := by
    rw [show pdeSize - 1#64 = fieldMask 64 0 21 by decide, toNat_and_fieldMask_low _ (by decide)]
  rw [hbase]
  by_cases haligned : image.hvImageBase &&& (pdeSize - 1#64) = 0#64
  · have hzero : image.hvImageBase.toNat % 2 ^ 21 = 0 := by rw [← hlow, haligned]; rfl
    rw [if_neg (not_not.mpr haligned), BitVec.add_zero]
    simp only [pdeUp, blockStart]
    omega
  · have hne : image.hvImageBase.toNat % 2 ^ 21 ≠ 0 := by
      rw [← hlow]
      exact fun hc => haligned (BitVec.eq_of_toNat_eq hc)
    rw [if_pos haligned, BitVec.toNat_add, show pdeSize.toNat = 2 ^ 21 from rfl]
    simp only [pdeUp, blockStart]
    omega

/-- **`init_paging` performs its edits**, and the mapping ends at a 2-MByte boundary. -/
theorem initPaging_holds (hpool : info.ptPool = false) {e820 : List E820Entry} {s' : PgMem}
    (hboot : s.requests = []) (hinit : initPaging info e820 image s = some s')
    (himage : image.Valid (mappedTop e820)) :
    2 ^ 32 ≤ mappedTop e820 ∧ mappedTop e820 ≤ info.window ∧
      Holds info (applyAll (initEdits e820 image) (uncachedMap (mappedTop e820))) s' := by
  rw [initPaging] at hinit
  split at hinit
  · cases hinit
  next hcheck =>
  obtain ⟨hwin, hhigh⟩ := not_or.mp hcheck
  have hle : mappedTop e820 ≤ info.window := Nat.le_of_not_lt hwin
  have h4G : 2 ^ 32 ≤ mappedTop e820 := Nat.le_of_not_lt hhigh
  have hle48 := hle.trans info.window_le
  have hdvd : 2 ^ 21 ∣ mappedTop e820 := dvd_toNat_roundPdeUp _
  have hlow := low32MaxRam_le e820
  have hbase_le := himage.le_top
  have htext_le := himage.text_le
  refine ⟨h4G, hle, ?_⟩
  obtain rfl := Option.some.inj hinit
  rw [initEdits, applyAll_append]
  refine (unmapGuardPages_holds hpool himage hle ?_ ?_ le_rfl).sanitizePte
  · intro v hv hc
    rw [applyAll_eq_none] at hc
    simp [uncachedMap, hv] at hc
  -- the edits in the order of the calls
  have hadd := mmuAdd_holds hpool hboot hdvd hle
  have hlow_up : (roundPdeUp (low32MaxRam e820)).toNat = pdeUp (low32MaxRam e820).toNat :=
    toNat_roundPdeUp (by omega)
  have hlow_le : pdeUp (low32MaxRam e820).toNat ≤ mappedTop e820 := pdeUp_le hdvd (by omega)
  have hlowRam := hadd.clear hpool 0#64 (roundPdeUp (low32MaxRam e820)) pageCacheMask rfl
    ((Nat.zero_add _).trans hlow_up) (Nat.dvd_zero _) (pdeUp_dvd _) (hlow_le.trans hle)
    (by decide) (by decide)
  have hhigh_size : (0x100000000#64 : Word).toNat + (high64MaxRam e820 - 0x100000000#64).toNat =
      mappedTop e820 := by
    rw [BitVec.toNat_sub_of_le (BitVec.not_lt.mp hhigh)]
    exact Nat.add_sub_cancel' h4G
  have hhighRam := hlowRam.clear hpool 0x100000000#64 (high64MaxRam e820 - 0x100000000#64)
    pageCacheMask rfl hhigh_size (by decide) hdvd hle (by decide) (by decide)
  have himage_le := (pdeUp_le hdvd hbase_le).trans hle
  have hhv := hhighRam.clear hpool (image.hvImageBase &&& pdeMask) _ (pageCacheMask ||| pageUser)
    (toNat_roundPdeDown _) (himage.image_size hle48) (dvd_blockStart 21 _) (pdeUp_dvd _) himage_le
    (by decide) (by decide)
  have hend : image.hvImageBase + (image.ldTextEnd - image.hvImageBase) = image.ldTextEnd := by
    rw [BitVec.add_comm, BitVec.sub_add_cancel]
  have htext_size : (roundPdeDown image.hvImageBase).toNat +
      (roundPdeUp (image.hvImageBase + (image.ldTextEnd - image.hvImageBase)) -
        roundPdeDown image.hvImageBase).toNat = pdeUp image.ldTextEnd.toNat := by
    rw [hend]
    exact roundPde_size (Nat.le_of_lt himage.base_lt) (by omega)
  have htext := hhv.clear hpool (roundPdeDown image.hvImageBase) _ pageNx (toNat_roundPdeDown _)
    htext_size (dvd_blockStart 21 _) (pdeUp_dvd _) ((pdeUp_le hdvd (by omega)).trans hle)
    (by decide) (by decide)
  rw [BitVec.sub_zero]
  exact htext

/-- A later call performs its edit. -/
theorem hvAccessMemoryRegionUpdate_holds (hpool : info.ptPool = false) {region : MemoryRegion}
    (hle : region.stop ≤ top) (hdvd : 2 ^ 21 ∣ top) (htop : top ≤ info.window)
    (h : Holds info f s) :
    Holds info (region.edit.apply f)
      (hvAccessMemoryRegionUpdate info region.base region.size s) := by
  have hle48 := htop.trans info.window_le
  have hstop : region.base.toNat + region.size.toNat + 2 ^ 21 ≤ 2 ^ 64 := by
    have hsum : region.base.toNat + region.size.toNat ≤ top := hle
    omega
  have hup : pdeUp region.stop ≤ info.window := (pdeUp_le hdvd hle).trans htop
  rw [MemoryRegion.stop] at hup
  rw [MemoryRegion.edit, MemoryRegion.stop, pdeCover, hvAccessMemoryRegionUpdate]
  exact h.clear hpool (roundPdeDown region.base)
    (roundPdeUp (region.base + region.size - roundPdeDown region.base)) pageUser
    (toNat_roundPdeDown region.base) (roundPde_size_aligned hstop) (dvd_blockStart 21 _)
    (pdeUp_dvd _) hup (by decide) (by decide)

/-- A sequence of later calls. -/
def updateRegions (info : PoolLayout) (regions : List MemoryRegion) (s : PgMem) : PgMem :=
  regions.foldl (fun s region => hvAccessMemoryRegionUpdate info region.base region.size s) s

/-- Each call is an edit, so a sequence of calls is a sequence of edits. -/
theorem updateRegions_holds (hpool : info.ptPool = false) (hdvd : 2 ^ 21 ∣ top)
    (htop : top ≤ info.window) {regions : List MemoryRegion}
    (hregions : ∀ region ∈ regions, region.stop ≤ top) (h : Holds info f s) :
    Holds info (applyAll (regions.map MemoryRegion.edit) f) (updateRegions info regions s) := by
  induction regions generalizing f s with
  | nil => exact h
  | cons region regions ih =>
    have hstep := hvAccessMemoryRegionUpdate_holds hpool (hregions region List.mem_cons_self) hdvd
      htop h
    have hrest := ih (fun r hr => hregions r (List.mem_cons_of_mem _ hr)) hstep
    rw [List.map_cons, applyAll_cons]
    rw [updateRegions] at hrest ⊢
    rw [List.foldl_cons]
    exact hrest

/-! ## Reading the result

No edit sets a bit, and none clears a field in part. So a field of an address is decided by whether
some edit of its mask covers the address. -/

/-- The 2-MByte page that holds `v`. -/
def pdePage (v : ℕ) : Set ℕ := {u | u / 2 ^ 21 = v / 2 ^ 21}

/-- The page of `v` intersects an interval. -/
def Intersects (v base stop : ℕ) : Prop := (pdePage v ∩ Set.Ico base stop).Nonempty

/-- An interval with at least one address covers the pages that it intersects. -/
theorem mem_pdeCover {v base stop : ℕ} (hlt : base < stop) :
    v ∈ pdeCover base stop ↔ Intersects v base stop := by
  simp only [pdeCover, Set.mem_Ico, pdeUp, blockStart]
  constructor
  · rintro ⟨hge, hle⟩
    -- the first address of the interval in the page
    refine ⟨max base (v / 2 ^ 21 * 2 ^ 21), ?_, ?_⟩
    · simp only [pdePage, Set.mem_ofPred_eq]
      omega
    · simp only [Set.mem_Ico]
      omega
  · rintro ⟨u, hu, hge, hlt⟩
    simp only [pdePage, Set.mem_ofPred_eq] at hu
    omega

/-- An empty interval covers the page around it, if it lies inside one. -/
theorem mem_pdeCover_self {v base : ℕ} :
    v ∈ pdeCover base base ↔ ¬ 2 ^ 21 ∣ base ∧ base ∈ pdePage v := by
  simp only [pdeCover, Set.mem_Ico, pdeUp, blockStart, pdePage, Set.mem_ofPred_eq]
  omega

/-- A call for this region opens the page of `v`: it intersects the region, or the region is
empty and lies inside the page. -/
def MemoryRegion.Opens (region : MemoryRegion) (v : ℕ) : Prop :=
  Intersects v region.base.toNat region.stop ∨
    region.size = 0#64 ∧ ¬ 2 ^ 21 ∣ region.base.toNat ∧ region.base.toNat ∈ pdePage v

/-- Whether a region opens a page is whether its edit covers the page. An empty region inside a
page covers that page. -/
theorem MemoryRegion.opens_iff {region : MemoryRegion} {v : ℕ} :
    region.Opens v ↔ v ∈ pdeCover region.base.toNat region.stop := by
  by_cases hsize : region.size = 0#64
  · have hstop : region.stop = region.base.toNat := by rw [stop, hsize]; rfl
    have hnone : ¬ Intersects v region.base.toNat region.base.toNat := by
      rintro ⟨u, -, hge, hlt⟩
      omega
    rw [Opens, hstop, mem_pdeCover_self, or_iff_right hnone, and_iff_right hsize]
  · have hlt : region.base.toNat < region.stop := by
      have hpos : region.size.toNat ≠ 0 := fun hc => hsize (BitVec.eq_of_toNat_eq hc)
      rw [stop]
      omega
    rw [Opens, mem_pdeCover hlt, or_iff_left fun hc => hsize hc.1]

/-- All edits of the table. -/
def hostEdits (e820 : List E820Entry) (image : HvImage) (regions : List MemoryRegion) :
    List (Edit ℕ 64) :=
  initEdits e820 image ++ regions.map MemoryRegion.edit

/-- The masks that edits clear. -/
def editMasks : List Word := [pageCacheMask, pageCacheMask ||| pageUser, pageNx, pageUser]

/-- The four masks, one by one. -/
theorem editMasks_forall {p : Word → Prop}
    (h : p pageCacheMask ∧ p (pageCacheMask ||| pageUser) ∧ p pageNx ∧ p pageUser) :
    ∀ mask ∈ editMasks, p mask := by
  simpa [editMasks] using h

theorem not_mem_guardEdits {n : ℕ} {range : Set ℕ} {mask : Word} :
    Edit.clear range mask ∉ guardEdits image n := by
  induction n with
  | zero => simp [guardEdits]
  | succ n ih => simp [guardEdits, ih]

/-- A field that is a part of each mask or apart from it is cleared as a whole or not at all. -/
theorem hostEdits_respects {e820 : List E820Entry} {regions : List MemoryRegion} {field : Word}
    (h : ∀ mask ∈ editMasks, mask &&& field = field ∨ mask &&& field = 0#64) :
    Respects (hostEdits e820 image regions) field := by
  intro range mask hmem
  refine h mask ?_
  simp only [hostEdits, initEdits, List.cons_append, List.nil_append, List.mem_append,
    List.mem_cons, List.mem_map, Edit.clear.injEq, not_mem_guardEdits, MemoryRegion.edit] at hmem
  simp only [editMasks, List.mem_cons]
  rcases hmem with ⟨-, hmask⟩ | ⟨-, hmask⟩ | ⟨-, hmask⟩ | ⟨-, hmask⟩ | hguard |
    ⟨region, -, -, hmask⟩
  · exact .inl hmask
  · exact .inl hmask
  · exact .inr (.inl hmask)
  · exact .inr (.inr (.inl hmask))
  · exact hguard.elim
  · exact .inr (.inr (.inr (.inl hmask.symm)))

/-- Only the guard pages are removed. -/
theorem removed_hostEdits {e820 : List E820Entry} {regions : List MemoryRegion} {v : ℕ} :
    Removed (hostEdits e820 image regions) v ↔
      ∃ i < image.maxPcpuNum, v ∈ image.guardPages i := by
  have hregions : ¬ Removed (regions.map MemoryRegion.edit) v := by
    rintro ⟨range, hmem, -⟩
    obtain ⟨region, -, h⟩ := List.mem_map.mp hmem
    cases h
  rw [hostEdits, removed_append, or_iff_left hregions, initEdits, removed_append,
    removed_guardEdits]
  simp

/-- Which edits clear a field of an address. -/
theorem cleared_hostEdits {e820 : List E820Entry} {regions : List MemoryRegion} (field : Word)
    {v : ℕ} :
    Cleared (hostEdits e820 image regions) field v ↔
      (v ∈ Set.Ico 0 (pdeUp (low32MaxRam e820).toNat) ∧ pageCacheMask &&& field = field) ∨
      (v ∈ Set.Ico (2 ^ 32) (mappedTop e820) ∧ pageCacheMask &&& field = field) ∨
      (v ∈ pdeCover image.hvImageBase.toNat (image.hvImageBase.toNat + image.hvRamSize.toNat) ∧
        (pageCacheMask ||| pageUser) &&& field = field) ∨
      (v ∈ pdeCover image.hvImageBase.toNat image.ldTextEnd.toNat ∧ pageNx &&& field = field) ∨
      (∃ region ∈ regions, region.Opens v) ∧ pageUser &&& field = field := by
  have hregions : Cleared (regions.map MemoryRegion.edit) field v ↔
      (∃ region ∈ regions, region.Opens v) ∧ pageUser &&& field = field := by
    induction regions with
    | nil => simp
    | cons region regions ih =>
      rw [List.map_cons, MemoryRegion.edit, cleared_cons_clear, ih, List.exists_mem_cons_iff,
        or_and_right, MemoryRegion.opens_iff]
  rw [hostEdits, cleared_append, hregions, initEdits, cleared_append,
    or_iff_left (not_cleared_guardEdits field), cleared_cons_clear, cleared_cons_clear,
    cleared_cons_clear, cleared_cons_clear, or_iff_left not_cleared_nil]
  simp only [or_assoc]

/-- A field of the attributes is the same field of the entry. -/
theorem attributes_and {field : Word} (h : field &&& (protMask &&& ~~~pagePs) = field) (e : Word) :
    attributes e &&& field = e &&& field := by
  rw [attributes, BitVec.and_assoc, BitVec.and_comm (protMask &&& ~~~pagePs), h]

/-- What a table that holds a map shows to `lookup_address`. -/
theorem Holds.lookup (h : Holds info f s) {v : ℕ} (hv : v < 2 ^ 48) :
    (lookupEntry (pptMemOps info) info.pml4Base v s = none ↔ f v = none) ∧
      ∀ e pgSize, lookupEntry (pptMemOps info) info.pml4Base v s = some (e, pgSize) →
        f v = some (attributes e) := by
  have hlookup : lookupEntry (pptMemOps info) info.pml4Base v s = _ := lookupEntry_eq h.sound v
  rw [hlookup, Nat.mod_eq_of_lt hv, ← h.attr v hv, leafAttributes]
  refine ⟨by rw [Option.map_eq_none_iff, Option.map_eq_none_iff], fun e pgSize he => ?_⟩
  obtain ⟨L, hL, hLe⟩ := Option.map_eq_some_iff.mp he
  obtain ⟨rfl, -⟩ := Prod.mk.inj hLe
  rw [hL, Option.map_some]

/-- A field of the attributes that no edit clears in part, and that `mmu_add` sets. -/
structure HostField (field : Word) : Prop where
  attr : field &&& (protMask &&& ~~~pagePs) = field
  masks : ∀ mask ∈ editMasks, mask &&& field = field ∨ mask &&& field = 0#64
  nonzero : attributes attrUc &&& field ≠ 0#64

theorem hostField_cache : HostField pageCacheMask :=
  ⟨by decide, editMasks_forall (by decide), by decide⟩

theorem hostField_user : HostField pageUser :=
  ⟨by decide, editMasks_forall (by decide), by decide⟩

theorem hostField_nx : HostField pageNx :=
  ⟨by decide, editMasks_forall (by decide), by decide⟩

/-- The loop over the E820 finds the end of low RAM, rounded up. -/
theorem lt_pdeUp_low32MaxRam {e820 : List E820Entry} {v : ℕ} :
    v < pdeUp (low32MaxRam e820).toNat ↔
      ∃ entry ∈ e820, entry.LowRam ∧ v < pdeUp (entry.baseaddr + entry.length).toNat := by
  have hround : ∀ a, v < pdeUp a ↔ blockStart 21 v < a := by
    intro a
    simp only [pdeUp, blockStart]
    omega
  rw [hround, lt_low32MaxRam]
  simp only [hround]

section Final

variable {e820 : List E820Entry} {regions : List MemoryRegion} {v : ℕ} {e : Word} {pgSize : ℕ}
  (h : Holds info (applyAll (hostEdits e820 image regions) (uncachedMap (mappedTop e820))) s)
  (himage : image.Valid (mappedTop e820)) (hv : v < 2 ^ 48) (htop : v < mappedTop e820)

include h hv htop

/-- What is not mapped at the end are the guard pages, since all else was mapped by `mmu_add`. -/
theorem Holds.unmapped_iff :
    lookupEntry (pptMemOps info) info.pml4Base v s = none ↔
      ∃ i < image.maxPcpuNum, v ∈ image.guardPages i := by
  rw [(h.lookup hv).1, applyAll_eq_none, removed_hostEdits, uncachedMap, if_pos htop]
  simp

variable (he : lookupEntry (pptMemOps info) info.pml4Base v s = some (e, pgSize))
include he

/-- A field of the final entry is zero if an edit clears it. -/
theorem Holds.field_eq_zero {field : Word} (hfield : HostField field) :
    e &&& field = 0#64 ↔ Cleared (hostEdits e820 image regions) field v := by
  have hfinal := (h.lookup hv).2 e pgSize he
  have hinitial : uncachedMap (mappedTop e820) v = some (attributes attrUc) := if_pos htop
  rw [← attributes_and hfield.attr e,
    applyAll_and_eq_zero (hostEdits_respects hfield.masks) hinitial hfinal,
    or_iff_right hfield.nonzero]

include himage

/-- Write-back are low RAM, all above 4 GByte, and the image: the three edits that clear the cache
field. -/
theorem Holds.writeBack_iff :
    e &&& pageCacheMask = pageCacheWb ↔
      (∃ entry ∈ e820, entry.LowRam ∧ v < pdeUp (entry.baseaddr + entry.length).toNat) ∨
        2 ^ 32 ≤ v ∨ Intersects v image.hvImageBase.toNat
          (image.hvImageBase.toNat + image.hvRamSize.toNat) := by
  have hmasks : pageCacheMask &&& pageCacheMask = pageCacheMask ∧
      (pageCacheMask ||| pageUser) &&& pageCacheMask = pageCacheMask ∧
      pageNx &&& pageCacheMask ≠ pageCacheMask ∧ pageUser &&& pageCacheMask ≠ pageCacheMask := by
    decide
  rw [show pageCacheWb = 0#64 from rfl, h.field_eq_zero hv htop he hostField_cache,
    cleared_hostEdits, ← lt_pdeUp_low32MaxRam,
    ← mem_pdeCover (himage.base_lt.trans_le himage.text_le)]
  simp [hmasks, htop]

/-- The hypervisor alone has the image and the regions that were opened to it. -/
theorem Holds.supervisor_iff :
    e &&& pageUser = 0#64 ↔
      Intersects v image.hvImageBase.toNat (image.hvImageBase.toNat + image.hvRamSize.toNat) ∨
        ∃ region ∈ regions, region.Opens v := by
  have hmasks : pageCacheMask &&& pageUser ≠ pageUser ∧
      (pageCacheMask ||| pageUser) &&& pageUser = pageUser ∧ pageNx &&& pageUser ≠ pageUser ∧
      pageUser &&& pageUser = pageUser := by decide
  rw [h.field_eq_zero hv htop he hostField_user, cleared_hostEdits,
    ← mem_pdeCover (himage.base_lt.trans_le himage.text_le)]
  simp [hmasks]

/-- Only the text of the image may be executed. -/
theorem Holds.executable_iff :
    e &&& pageNx = 0#64 ↔ Intersects v image.hvImageBase.toNat image.ldTextEnd.toNat := by
  have hmasks : pageCacheMask &&& pageNx ≠ pageNx ∧
      (pageCacheMask ||| pageUser) &&& pageNx ≠ pageNx ∧ pageNx &&& pageNx = pageNx ∧
      pageUser &&& pageNx ≠ pageNx := by decide
  rw [h.field_eq_zero hv htop he hostField_nx, cleared_hostEdits, ← mem_pdeCover himage.base_lt]
  simp [hmasks]

end Final

/-- `init_paging` and later calls perform all edits. -/
theorem updateRegions_initPaging (hpool : info.ptPool = false) {e820 : List E820Entry}
    {s s' : PgMem} (hboot : s.requests = []) (hinit : initPaging info e820 image s = some s')
    (himage : image.Valid (mappedTop e820)) {regions : List MemoryRegion}
    (hregions : ∀ region ∈ regions, region.stop ≤ mappedTop e820) :
    mappedTop e820 ≤ info.window ∧
      Holds info (applyAll (hostEdits e820 image regions) (uncachedMap (mappedTop e820)))
        (updateRegions info regions s') := by
  obtain ⟨-, hwin, hinit'⟩ := initPaging_holds hpool hboot hinit himage
  have hdvd : 2 ^ 21 ∣ mappedTop e820 := dvd_toNat_roundPdeUp _
  refine ⟨hwin, ?_⟩
  rw [hostEdits, applyAll_append]
  exact updateRegions_holds hpool hdvd hwin hregions hinit'

/-- **The hypervisor's page table.** For every E820 that passes the check of `init_paging`,
wherever the image lies in the mapped memory, and after any sequence of calls of
`hv_access_memory_region_update` inside it: no page table was ever asked for, so no 2-MByte page
was cut; below the rounded top exactly the guard pages are unmapped; a page is write-back below
the rounded end of low RAM, from 4 GByte on and in the image, a supervisor page in the image and
where a region was opened, and executable where it holds text. -/
theorem init_paging_attributes (hpool : info.ptPool = false) {e820 : List E820Entry}
    {s s' : PgMem} (hboot : s.requests = []) (hinit : initPaging info e820 image s = some s')
    (himage : image.Valid (mappedTop e820)) {regions : List MemoryRegion}
    (hregions : ∀ region ∈ regions, region.stop ≤ mappedTop e820) :
    let t := updateRegions info regions s'
    let imageEnd := image.hvImageBase.toNat + image.hvRamSize.toNat
    (∀ r ∈ t.requests, r.level ≠ .pd) ∧
    ∀ v < mappedTop e820,
      (lookupEntry (pptMemOps info) info.pml4Base v t = none ↔
        ∃ i < image.maxPcpuNum, v ∈ image.guardPages i) ∧
      ∀ e pgSize, lookupEntry (pptMemOps info) info.pml4Base v t = some (e, pgSize) →
        (e &&& pageCacheMask = pageCacheWb ↔
          (∃ entry ∈ e820, entry.LowRam ∧ v < pdeUp (entry.baseaddr + entry.length).toNat) ∨
            2 ^ 32 ≤ v ∨ Intersects v image.hvImageBase.toNat imageEnd) ∧
        (e &&& pageUser = 0#64 ↔ Intersects v image.hvImageBase.toNat imageEnd ∨
          ∃ region ∈ regions, region.Opens v) ∧
        (e &&& pageNx = 0#64 ↔ Intersects v image.hvImageBase.toNat image.ldTextEnd.toNat) := by
  intro t imageEnd
  obtain ⟨hwin, h⟩ := updateRegions_initPaging hpool hboot hinit himage hregions
  refine ⟨fun r hr hlevel => ?_, fun v htop => ?_⟩
  · -- a request for a page table would lie in an array that has no page
    have hin := (h.sound.fresh r hr).inArray
    rw [hlevel] at hin
    simp [PgtablePagesInfo.pageNum, pptMemOps, hpool] at hin
  · have hv : v < 2 ^ 48 := htop.trans_le (hwin.trans info.window_le)
    exact ⟨h.unmapped_iff hv htop, fun e pgSize he => ⟨h.writeBack_iff himage hv htop he,
      h.supervisor_iff himage hv htop he, h.executable_iff himage hv htop he⟩⟩

/-! ## A machine with 4 GByte of RAM -/

/-- The arrays for 16 GByte of RAM and a low MMIO space of 2 GByte, at one placement the linker
could choose. -/
def hostLayout : PoolLayout where
  pml4Base := 0x11000000
  pdptBase := 0x11001000
  pdBase := 0x11002000
  ptBase := 0x0
  window := 0x480000000
  ptPool := false
  sanitizedPage := 0x10800000
  window_le := by decide
  base_dvd := by intro l; cases l <;> decide
  base_le := by intro l; cases l <;> decide
  disjoint := by intro l l' h; cases l <;> cases l' <;> first | exact absurd rfl h | decide
  sanitized_dvd := by decide
  sanitized_le := by decide
  sanitized_disjoint := by intro l; cases l <;> decide

/-- 2 GByte of RAM on either side of the MMIO space. -/
def hostE820 : List E820Entry :=
  [⟨0x0#64, 0x9F000#64, e820TypeRam⟩, ⟨0x9F000#64, 0x61000#64, e820TypeReserved⟩,
    ⟨0x100000#64, 0x7FEFF000#64, e820TypeRam⟩, ⟨0xE0000000#64, 0x10000000#64, e820TypeReserved⟩,
    ⟨0x100000000#64, 0x80000000#64, e820TypeRam⟩]

/-- An image of 128 MByte for four CPUs. -/
def hostImage : HvImage where
  hvImageBase := 0x10000000#64
  hvRamSize := 0x8000000#64
  ldTextEnd := 0x10123456#64
  perCpuData := 0x14000000
  maxPcpuNum := 4

theorem hostImage_valid : hostImage.Valid (mappedTop hostE820) :=
  ⟨by decide, by decide, by decide, by decide, by decide, by decide, by decide⟩

theorem exists_initPaging :
    ∃ s', initPaging hostLayout hostE820 hostImage ⟨fun _ => 0#64, []⟩ = some s' := by
  rw [initPaging, if_neg (by decide)]
  exact ⟨_, rfl⟩

/-- The pages of the I/O APIC, once its registers were opened. -/
theorem init_paging_attributes_ioapic :
    ∃ s', initPaging hostLayout hostE820 hostImage ⟨fun _ => 0#64, []⟩ = some s' ∧
      ∃ e pgSize, lookupEntry (pptMemOps hostLayout) hostLayout.pml4Base 0xFEC00000
          (updateRegions hostLayout [⟨0xFEC00000#64, 0x1000#64⟩] s') = some (e, pgSize) ∧
        e &&& pageUser = 0#64 ∧ e &&& pageNx ≠ 0#64 := by
  obtain ⟨s', hinit⟩ := exists_initPaging
  refine ⟨s', hinit, ?_⟩
  have hregions : ∀ region ∈ [(⟨0xFEC00000#64, 0x1000#64⟩ : MemoryRegion)],
      region.stop ≤ mappedTop hostE820 := by
    intro region hmem
    obtain rfl := List.mem_singleton.mp hmem
    decide
  obtain ⟨-, hpages⟩ := init_paging_attributes (show hostLayout.ptPool = false from rfl) rfl hinit
    hostImage_valid hregions
  obtain ⟨hmapped, hattr⟩ := hpages 0xFEC00000 (by decide)
  cases hentry : lookupEntry (pptMemOps hostLayout) hostLayout.pml4Base 0xFEC00000
      (updateRegions hostLayout [⟨0xFEC00000#64, 0x1000#64⟩] s') with
  | none =>
    -- guard pages lie in the image
    obtain ⟨i, hi, hv⟩ := hmapped.mp hentry
    exact absurd (hostImage_valid.guardPages_subset hi hv).2 (by decide)
  | some entry =>
    obtain ⟨-, huser, hnx⟩ := hattr _ _ hentry
    refine ⟨entry.1, entry.2, rfl, huser.mpr (.inr ⟨_, List.mem_singleton_self _, .inl ?_⟩), ?_⟩
    · exact ⟨0xFEC00000, rfl, by decide, by decide⟩
    · rw [Ne, hnx]
      rintro ⟨u, hu, -, hlt⟩
      have hpage : u / 2 ^ 21 = 0xFEC00000 / 2 ^ 21 := hu
      have hbound : u < 0x10123456 := hlt
      omega

/-- An empty region inside a page takes that page from the guests, although the page intersects
neither the region nor the image. -/
theorem empty_region_opens_page :
    let region : MemoryRegion := ⟨0x1000#64, 0#64⟩
    region.stop ≤ mappedTop hostE820 ∧
    ∃ s', initPaging hostLayout hostE820 hostImage ⟨fun _ => 0#64, []⟩ = some s' ∧
      ∃ e pgSize, lookupEntry (pptMemOps hostLayout) hostLayout.pml4Base 0x0
          (updateRegions hostLayout [region] s') = some (e, pgSize) ∧
        e &&& pageUser = 0#64 ∧ ¬ Intersects 0x0 region.base.toNat region.stop ∧
        ¬ Intersects 0x0 hostImage.hvImageBase.toNat
          (hostImage.hvImageBase.toNat + hostImage.hvRamSize.toNat) := by
  intro region
  obtain ⟨s', hinit⟩ := exists_initPaging
  refine ⟨by decide, s', hinit, ?_⟩
  have hregions : ∀ r ∈ [region], r.stop ≤ mappedTop hostE820 := by
    intro r hmem
    obtain rfl := List.mem_singleton.mp hmem
    decide
  obtain ⟨-, h⟩ := updateRegions_initPaging (show hostLayout.ptPool = false from rfl) rfl hinit
    hostImage_valid hregions
  have htop : 0x0 < mappedTop hostE820 := by decide
  cases hentry : lookupEntry (pptMemOps hostLayout) hostLayout.pml4Base 0x0
      (updateRegions hostLayout [region] s') with
  | none =>
    obtain ⟨i, hi, hv⟩ := (h.unmapped_iff (by decide) htop).mp hentry
    exact absurd (hostImage_valid.guardPages_subset hi hv).1 (by decide)
  | some entry =>
    have hin : 0x1000 ∈ pdePage 0x0 := rfl
    have hopens : region.Opens 0x0 := .inr ⟨rfl, by decide, hin⟩
    refine ⟨entry.1, entry.2, rfl, ?_, ?_, ?_⟩
    · exact (h.supervisor_iff hostImage_valid (by decide) htop hentry).mpr
        (.inr ⟨region, List.mem_singleton_self _, hopens⟩)
    · rintro ⟨u, -, hge, hlt⟩
      exact absurd (hge.trans_lt hlt) (Nat.lt_irrefl _)
    · rintro ⟨u, hu, hge, -⟩
      have hpage : u / 2 ^ 21 = 0 / 2 ^ 21 := hu
      have hbound : 0x10000000 ≤ u := hge
      omega

end Acrn
