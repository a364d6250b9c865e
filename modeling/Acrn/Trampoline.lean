import Acrn.GuestCopy
import Acrn.LowMemory
import Acrn.Lib.ByteMem

/-!
# The trampoline

`trampoline.c`: the code that a start-up IPI begins with is copied to a block below 1 MByte,
and the references in it are changed to where it lies. What the boot loader left is read
again afterwards, when the virtual machines are set up, so the block must spare it.
-/

namespace Acrn

open ByteMem ByteCopy

/-! ## The structures of the boot loader -/

/-- `sizeof(struct multiboot_info)`. -/
def sizeofMultibootInfo : ℕ := 92
/-- `sizeof(struct multiboot_module)`. -/
def sizeofMultibootModule : ℕ := 16

section

variable (m : HostMem) (mbi : ℕ)

/-- `mbi->mi_mods_count`. -/
def miModsCount : ℕ := readLE m (mbi + 20) 4
/-- `mbi->mi_mods_addr`. -/
def miModsAddr : ℕ := readLE m (mbi + 24) 4
/-- `mbi->mi_mmap_length`. -/
def miMmapLength : ℕ := readLE m (mbi + 44) 4
/-- `mbi->mi_mmap_addr`. -/
def miMmapAddr : ℕ := readLE m (mbi + 48) 4

/-- `mods[i].mm_string`. -/
def mmString (i : ℕ) : ℕ := readLE m (miModsAddr m mbi + sizeofMultibootModule * i + 8) 4

end

/-- A string of `n` bytes with a NUL behind it. -/
def IsString (m : HostMem) (addr n : ℕ) : Prop :=
  (∀ i < n, m (addr + i) ≠ 0#8) ∧ m (addr + n) = 0#8

/-! ## The section -/

/-- The section `.trampoline`: where it is loaded, and the offsets of its symbols, in the
order of `trampoline.S`. It is linked at zero. -/
structure TrampolineImage where
  ldTrampolineLoad : ℕ
  size : ℕ
  trampolineFixupIp : ℕ
  trampolineFixupCs : ℕ
  trampolineFixupTarget : ℕ
  trampolineStart64Fixup : ℕ
  trampolineStart64 : ℕ
  mainEntry : ℕ
  trampolineGdt : ℕ
  trampolineGdtPtr : ℕ
  cpuBootPageTablesPtr : ℕ
  cpuBootPageTablesStart : ℕ
  trampolinePdptAddr : ℕ
  /-- the image of the hypervisor begins at 4 MBytes -/
  load_ge : 0x400000 ≤ ldTrampolineLoad
  size_le : size ≤ 0x10000
  ip_cs : trampolineFixupIp + 2 ≤ trampolineFixupCs
  cs_target : trampolineFixupCs + 2 ≤ trampolineFixupTarget
  target_fixup : trampolineFixupTarget ≤ trampolineStart64Fixup
  fixup_start64 : trampolineStart64Fixup + 4 ≤ trampolineStart64
  start64_entry : trampolineStart64 ≤ mainEntry
  entry_gdt : mainEntry + 8 ≤ trampolineGdt
  gdt_ptr : trampolineGdt ≤ trampolineGdtPtr
  ptr_tablesPtr : trampolineGdtPtr + 10 ≤ cpuBootPageTablesPtr
  tablesPtr_tables : cpuBootPageTablesPtr + 4 ≤ cpuBootPageTablesStart
  tables_pdpt : cpuBootPageTablesStart + 8 ≤ trampolinePdptAddr
  pdpt_size : trampolinePdptAddr + 32 ≤ size

namespace TrampolineImage

variable (img : TrampolineImage)

/-- The image is in memory where it was loaded, with its references as they are linked. -/
structure LoadedIn (m : HostMem) : Prop where
  tablesPtr : readLE m (img.ldTrampolineLoad + img.cpuBootPageTablesPtr) 4 =
    img.cpuBootPageTablesStart
  tables : readLE m (img.ldTrampolineLoad + img.cpuBootPageTablesStart) 8 =
    img.trampolinePdptAddr + 3
  gdt : readLE m (img.ldTrampolineLoad + (img.trampolineGdtPtr + 2)) 8 = img.trampolineGdt
  start64 : readLE m (img.ldTrampolineLoad + img.trampolineStart64Fixup) 4 = img.trampolineStart64

/-! ## Functions -/

/-- `CONFIG_LOW_RAM_SIZE`. -/
def configLowRamSize : BitVec 32 := 0x10000#32

/-- `get_ap_trampoline_buf`; `none` is a panic. -/
def getApTrampolineBuf (e820 : List E820Entry) (mbi : ℕ) (m : HostMem) : Option ℕ :=
  let ret := e820AllocLowMemory e820 configLowRamSize
  let stop := (ret + configLowRamSize.toNat) % 2 ^ 64
  if ret = acrnInvalidHpa then none
  else if miMmapAddr m mbi < stop ∧ ret < (miMmapAddr m mbi + miMmapLength m mbi) % 2 ^ 32 then none
  else if mbi < stop ∧ ret < mbi + sizeofMultibootInfo then none
  else if miModsAddr m mbi < stop ∧
      ret < miModsAddr m mbi + miModsCount m mbi * sizeofMultibootModule then none
  else some ret

/-- `get_hv_image_delta`. -/
def getHvImageDelta : ℕ := 0

/-- `trampoline_relo_addr`, for the address of a symbol. -/
def trampolineReloAddr (addr : ℕ) : ℕ := addr - getHvImageDelta

/-- `update_trampoline_code_refs`. -/
def updateTrampolineCodeRefs (destPa : ℕ) (m : HostMem) : HostMem :=
  let val := destPa + trampolineReloAddr img.trampolineFixupTarget
  let ptr := destPa + trampolineReloAddr img.trampolineFixupCs
  let m := writeLE m ptr 2 (val / 2 ^ 4 % 2 ^ 16)
  let ptr := destPa + trampolineReloAddr img.trampolineFixupIp
  let m := writeLE m ptr 2 (val % 2 ^ 4)
  let ptr := destPa + trampolineReloAddr img.cpuBootPageTablesPtr
  let m := writeLE m ptr 4 (readLE m ptr 4 + destPa)
  let ptr := destPa + trampolineReloAddr img.cpuBootPageTablesStart
  let m := writeLE m ptr 8 (readLE m ptr 8 + destPa)
  let ptr := destPa + trampolineReloAddr img.trampolineGdtPtr
  let m := writeLE m (ptr + 2) 8 (readLE m (ptr + 2) 8 + destPa)
  let ptr := destPa + trampolineReloAddr img.trampolineStart64Fixup
  let m := writeLE m ptr 4 (readLE m ptr 4 + destPa)
  let ptr := destPa + trampolineReloAddr img.mainEntry
  writeLE m ptr 8 (readLE m ptr 8 + getHvImageDelta)

/-- `prepare_trampoline`: the block and the memory; `none` is a panic. -/
def prepareTrampoline (e820 : List E820Entry) (mbi : ℕ) (m : HostMem) : Option (ℕ × HostMem) :=
  (getApTrampolineBuf e820 mbi m).map fun destPa =>
    let m := memcpyS destPa img.size img.ldTrampolineLoad img.size m
    (destPa, img.updateTrampolineCodeRefs destPa m)

/-! ## What is expected

The references in the copy are read as the processor reads them, and what is spared is every
interval that is read later. Neither speaks of the functions. -/

/-- The references in the copy lead to the copies of the symbols: the far jump from real mode,
the pointer for CR3, the first entry of the page tables, the base of the GDT and the target of
the jump to 64-bit mode. The rest is copied as it is. -/
structure Designates (destPa : ℕ) (m m' : HostMem) : Prop where
  farJump : 16 * readLE m' (destPa + img.trampolineFixupCs) 2 +
    readLE m' (destPa + img.trampolineFixupIp) 2 = destPa + img.trampolineFixupTarget
  cr3 : readLE m' (destPa + img.cpuBootPageTablesPtr) 4 = destPa + img.cpuBootPageTablesStart
  entry : readLE m' (destPa + img.cpuBootPageTablesStart) 8 = destPa + img.trampolinePdptAddr + 3
  gdt : readLE m' (destPa + img.trampolineGdtPtr + 2) 8 = destPa + img.trampolineGdt
  start64 : readLE m' (destPa + img.trampolineStart64Fixup) 4 = destPa + img.trampolineStart64
  copied : ∀ off < img.size, (∀ field ∈ [(img.trampolineFixupIp, 2), (img.trampolineFixupCs, 2),
    (img.trampolineStart64Fixup, 4), (img.mainEntry, 8), (img.trampolineGdtPtr + 2, 8),
    (img.cpuBootPageTablesPtr, 4), (img.cpuBootPageTablesStart, 8)],
      off < field.1 ∨ field.1 + field.2 ≤ off) → m' (destPa + off) = m (img.ldTrampolineLoad + off)

end TrampolineImage

/-- The intervals of memory that are read afterwards. -/
inductive BootInterval (m : HostMem) (mbi : ℕ) : ℕ → ℕ → Prop where
  | info : BootInterval m mbi mbi sizeofMultibootInfo
  | mmap : BootInterval m mbi (miMmapAddr m mbi) (miMmapLength m mbi)
  | mods : BootInterval m mbi (miModsAddr m mbi) (miModsCount m mbi * sizeofMultibootModule)
  | string (i n : ℕ) : i < miModsCount m mbi → IsString m (mmString m mbi i) n →
      BootInterval m mbi (mmString m mbi i) (n + 1)

/-- **The boot information is spared**: the block is apart from all of it, and the bytes of it
are those of the boot loader. -/
def SparesBootInfo (mbi block size : ℕ) (m m' : HostMem) : Prop :=
  ∀ a n, BootInterval m mbi a n → Apart block size a n ∧ ∀ i < n, m' (a + i) = m (a + i)

/-! ## Where the block lies

The search of the last module has chosen the block. The checks compare it with three intervals
only, and `BlockFits` says when that was enough. -/

/-- The block: the end of the first RAM entry that has room for it below 1 MByte. -/
def trampolineBlock (e820 : List E820Entry) : Option ℕ :=
  (e820.find? fun entry => entry.Eligible 0x10000).map fun entry =>
    max entry.pageStart (entry.pageEnd - 0x10000)

/-- One of the three checks hits, the first of which computes the end of the memory map in 32
bits. -/
def SeenByChecks (mbi : ℕ) (m : HostMem) (block : ℕ) : Prop :=
  (miMmapAddr m mbi < block + 0x10000 ∧
    block < (miMmapAddr m mbi + miMmapLength m mbi) % 2 ^ 32) ∨
  (mbi < block + 0x10000 ∧ block < mbi + sizeofMultibootInfo) ∨
  (miModsAddr m mbi < block + 0x10000 ∧
    block < miModsAddr m mbi + miModsCount m mbi * sizeofMultibootModule)

instance (mbi : ℕ) (m : HostMem) (block : ℕ) : Decidable (SeenByChecks mbi m block) :=
  inferInstanceAs (Decidable (_ ∨ _ ∨ _))

/-- **The condition**: there is no block, or the checks hit, or else the target of the far jump
is below 1 MByte and the block is apart from the whole memory map and from all strings. -/
def BlockFits (img : TrampolineImage) (e820 : List E820Entry) (mbi : ℕ) (m : HostMem) : Prop :=
  ∀ block, trampolineBlock e820 = some block → SeenByChecks mbi m block ∨
    (block + img.trampolineFixupTarget < 2 ^ 20 ∧
      Apart block 0x10000 (miMmapAddr m mbi) (miMmapLength m mbi) ∧
      ∀ i n, i < miModsCount m mbi → IsString m (mmString m mbi i) n →
        Apart block 0x10000 (mmString m mbi i) (n + 1))

/-- The search as a whole. -/
theorem e820AllocLowMemory_trampoline (e820 : List E820Entry) :
    e820AllocLowMemory e820 TrampolineImage.configLowRamSize =
      (trampolineBlock e820).getD acrnInvalidHpa := by
  have hsize : (lowMemorySize TrampolineImage.configLowRamSize).toNat = 0x10000 := by decide
  rw [e820AllocLowMemory, hsize, trampolineBlock]
  cases hfind : e820.find? fun entry => entry.Eligible 0x10000 with
  | none => rfl
  | some entry =>
    have helig : entry.Eligible 0x10000 := by simpa using List.find?_some hfind
    exact helig.block_eq (by decide)

/-- The block ends below `2 ^ 64`. -/
theorem trampolineBlock_lt {e820 : List E820Entry} {block : ℕ}
    (h : trampolineBlock e820 = some block) : block + 0x10000 < 2 ^ 64 := by
  obtain ⟨entry, hfind, rfl⟩ := Option.map_eq_some_iff.mp h
  have helig : entry.Eligible 0x10000 := by simpa using List.find?_some hfind
  obtain ⟨-, hlength, hstart⟩ := helig.spec (by decide)
  have hend : entry.pageEnd < 2 ^ 64 :=
    (BlockLoop.blockStart_le 12 _).trans_lt (entry.baseaddr + entry.length).isLt
  have hmem : mem1M.toNat = 0x100000 := rfl
  omega

namespace TrampolineImage

/-- The block is given back unless one of the checks hits. -/
theorem getApTrampolineBuf_eq (e820 : List E820Entry) (mbi : ℕ) (m : HostMem) :
    getApTrampolineBuf e820 mbi m = (trampolineBlock e820).bind fun block =>
      if SeenByChecks mbi m block then none else some block := by
  rw [getApTrampolineBuf, e820AllocLowMemory_trampoline]
  cases hblock : trampolineBlock e820 with
  | none => rfl
  | some block =>
    have hlt := trampolineBlock_lt hblock
    have hsize : configLowRamSize.toNat = 0x10000 := rfl
    have hvalid : block ≠ acrnInvalidHpa := by
      rw [acrnInvalidHpa]
      omega
    rw [Option.getD_some, hsize, Nat.mod_eq_of_lt hlt, Option.bind_some, if_neg hvalid]
    by_cases hmmap : miMmapAddr m mbi < block + 0x10000 ∧
        block < (miMmapAddr m mbi + miMmapLength m mbi) % 2 ^ 32
    · have hseen : SeenByChecks mbi m block := Or.inl hmmap
      rw [if_pos hmmap, if_pos hseen]
    rw [if_neg hmmap]
    by_cases hinfo : mbi < block + 0x10000 ∧ block < mbi + sizeofMultibootInfo
    · have hseen : SeenByChecks mbi m block := Or.inr (Or.inl hinfo)
      rw [if_pos hinfo, if_pos hseen]
    rw [if_neg hinfo]
    by_cases hmods : miModsAddr m mbi < block + 0x10000 ∧
        block < miModsAddr m mbi + miModsCount m mbi * sizeofMultibootModule
    · have hseen : SeenByChecks mbi m block := Or.inr (Or.inr hmods)
      rw [if_pos hmods, if_pos hseen]
    · have hunseen : ¬ SeenByChecks mbi m block := by
        rintro (h | h | h)
        · exact hmmap h
        · exact hinfo h
        · exact hmods h
      rw [if_neg hmods, if_neg hunseen]

/-! ## The references

A reference is a field of the copy, and the fields are apart. The pointers get the distance of the
copy from the section; the far jump has 16 bits for its segment. -/

variable (img : TrampolineImage) (destPa : ℕ) (m : HostMem)

/-- The fields that are changed, and no two of them overlap. -/
structure Relocated (m m' : HostMem) : Prop where
  cs : readLE m' (destPa + img.trampolineFixupCs) 2 =
    (destPa + img.trampolineFixupTarget) / 2 ^ 4 % 2 ^ 16
  ip : readLE m' (destPa + img.trampolineFixupIp) 2 =
    (destPa + img.trampolineFixupTarget) % 2 ^ 4
  cr3 : readLE m' (destPa + img.cpuBootPageTablesPtr) 4 =
    (readLE m (destPa + img.cpuBootPageTablesPtr) 4 + destPa) % 2 ^ 32
  entry : readLE m' (destPa + img.cpuBootPageTablesStart) 8 =
    (readLE m (destPa + img.cpuBootPageTablesStart) 8 + destPa) % 2 ^ 64
  gdt : readLE m' (destPa + img.trampolineGdtPtr + 2) 8 =
    (readLE m (destPa + img.trampolineGdtPtr + 2) 8 + destPa) % 2 ^ 64
  start64 : readLE m' (destPa + img.trampolineStart64Fixup) 4 =
    (readLE m (destPa + img.trampolineStart64Fixup) 4 + destPa) % 2 ^ 32
  frame : ∀ i, (∀ field ∈ [(img.trampolineFixupIp, 2), (img.trampolineFixupCs, 2),
    (img.trampolineStart64Fixup, 4), (img.mainEntry, 8), (img.trampolineGdtPtr + 2, 8),
    (img.cpuBootPageTablesPtr, 4), (img.cpuBootPageTablesStart, 8)],
      i < destPa + field.1 ∨ destPa + field.1 + field.2 ≤ i) → m' i = m i

theorem updateTrampolineCodeRefs_spec :
    img.Relocated destPa m (img.updateTrampolineCodeRefs destPa m) := by
  obtain ⟨-, -, ip, cs, target, fixup, start64, mainEntry, gdt, gdtPtr, tablesPtr, tables, pdpt, -, -,
    ip_cs, cs_target, target_fixup, fixup_start64, start64_entry, entry_gdt, gdt_ptr,
    ptr_tablesPtr, tablesPtr_tables, tables_pdpt, -⟩ := img
  have hreloc : ∀ addr, trampolineReloAddr addr = addr := fun _ => rfl
  constructor
  all_goals simp only [updateTrampolineCodeRefs, hreloc, Nat.add_assoc]
  · simp (disch := omega) only [readLE_writeLE_of_disjoint, readLE_writeLE_self]
    omega
  · simp (disch := omega) only [readLE_writeLE_of_disjoint, readLE_writeLE_self]
    omega
  · simp (disch := omega) only [readLE_writeLE_of_disjoint, readLE_writeLE_self]
    rfl
  · simp (disch := omega) only [readLE_writeLE_of_disjoint, readLE_writeLE_self]
    rfl
  · simp (disch := omega) only [readLE_writeLE_of_disjoint, readLE_writeLE_self]
    rfl
  · simp (disch := omega) only [readLE_writeLE_of_disjoint, readLE_writeLE_self]
    rfl
  · intro i h
    simp only [List.forall_mem_cons] at h
    obtain ⟨h1, h2, h3, h4, h5, h6, h7, -⟩ := h
    simp (disch := omega) only [writeLE_frame]

variable {img destPa m} {m' : HostMem}

/-- The far jump leads to its target exactly if that is below 1 MByte. -/
theorem Relocated.farJump_iff (h : img.Relocated destPa m m') :
    16 * readLE m' (destPa + img.trampolineFixupCs) 2 +
      readLE m' (destPa + img.trampolineFixupIp) 2 = destPa + img.trampolineFixupTarget ↔
    destPa + img.trampolineFixupTarget < 2 ^ 20 := by
  rw [h.cs, h.ip]
  omega

/-- Outside of the copy the memory stays. -/
theorem Relocated.outside (h : img.Relocated destPa m m') {i : ℕ}
    (hi : i < destPa ∨ destPa + img.size ≤ i) : m' i = m i := by
  have := img.ip_cs
  have := img.cs_target
  have := img.target_fixup
  have := img.fixup_start64
  have := img.start64_entry
  have := img.entry_gdt
  have := img.gdt_ptr
  have := img.ptr_tablesPtr
  have := img.tablesPtr_tables
  have := img.tables_pdpt
  have := img.pdpt_size
  refine h.frame i ?_
  simp only [List.forall_mem_cons, List.not_mem_nil, false_imp_iff, implies_true, and_true]
  omega

/-- The copy of the section, if the block lies before it. -/
theorem memcpyS_image (hdest : destPa + img.size ≤ img.ldTrampolineLoad) {off : ℕ}
    (hoff : off < img.size) :
    memcpyS destPa img.size img.ldTrampolineLoad img.size m (destPa + off) =
      m (img.ldTrampolineLoad + off) := by
  have hapart : Apart destPa img.size img.ldTrampolineLoad img.size :=
    apart_iff.mpr (.inr (.inr (.inl hdest)))
  rw [memcpyS_apply m hapart, if_pos (by omega), Nat.add_sub_cancel_left]

theorem memcpyS_outside {i : ℕ} (hi : i < destPa ∨ destPa + img.size ≤ i) :
    memcpyS destPa img.size img.ldTrampolineLoad img.size m i = m i := by
  rw [memcpyS_eq]
  exact copyCells_frame m fun j hj => by omega

/-- A number in the copy. -/
theorem readLE_memcpyS (hdest : destPa + img.size ≤ img.ldTrampolineLoad) {off n : ℕ}
    (hoff : off + n ≤ img.size) :
    readLE (memcpyS destPa img.size img.ldTrampolineLoad img.size m) (destPa + off) n =
      readLE m (img.ldTrampolineLoad + off) n := by
  induction n generalizing off with
  | zero => rfl
  | succ n ih =>
    rw [readLE, readLE, memcpyS_image hdest (by omega), Nat.add_assoc, ih (by omega), Nat.add_assoc]

/-- **The references of a copy below 1 MByte.** -/
theorem Relocated.designates (himg : img.LoadedIn m) (hlow : destPa + img.trampolineFixupTarget < 2 ^ 20)
    (h : img.Relocated destPa (memcpyS destPa img.size img.ldTrampolineLoad img.size m) m') :
    img.Designates destPa m m' := by
  have hsize := img.size_le
  have hload := img.load_ge
  have hdest : destPa + img.size ≤ img.ldTrampolineLoad := by omega
  have := img.ip_cs
  have := img.cs_target
  have := img.target_fixup
  have := img.fixup_start64
  have := img.start64_entry
  have := img.entry_gdt
  have := img.gdt_ptr
  have := img.ptr_tablesPtr
  have := img.tablesPtr_tables
  have := img.tables_pdpt
  have := img.pdpt_size
  refine ⟨h.farJump_iff.mpr hlow, ?_, ?_, ?_, ?_, fun off hoff hfields => ?_⟩
  · rw [h.cr3, readLE_memcpyS hdest (by omega), himg.tablesPtr]
    omega
  · rw [h.entry, readLE_memcpyS hdest (by omega), himg.tables]
    omega
  · rw [h.gdt, Nat.add_assoc, readLE_memcpyS hdest (by omega), himg.gdt]
    omega
  · rw [h.start64, readLE_memcpyS hdest (by omega), himg.start64]
    omega
  · rw [h.frame (destPa + off) fun field hfield => ?_]
    · exact memcpyS_image hdest hoff
    · have := hfields field hfield
      omega

/-- **Installing the trampoline.** It spares the boot information and the references of the copy
are right, or it panics, exactly if the block fits. -/
theorem prepareTrampoline_spares_iff (img : TrampolineImage) (e820 : List E820Entry)
    (mbi : BitVec 32) (m : HostMem) (himg : img.LoadedIn m) :
    (∀ destPa m', img.prepareTrampoline e820 mbi.toNat m = some (destPa, m') →
      SparesBootInfo mbi.toNat destPa 0x10000 m m' ∧ img.Designates destPa m m') ↔
      BlockFits img e820 mbi.toNat m := by
  rw [prepareTrampoline, getApTrampolineBuf_eq, BlockFits]
  cases hblock : trampolineBlock e820 with
  | none => exact ⟨fun _ _ h => absurd h nofun, fun _ _ _ h => absurd h nofun⟩
  | some block =>
    rw [Option.bind_some]
    by_cases hseen : SeenByChecks mbi.toNat m block
    · -- panic
      rw [if_pos hseen]
      refine ⟨fun _ b hb => ?_, fun _ _ _ h => absurd h nofun⟩
      obtain rfl := Option.some.inj hb
      exact Or.inl hseen
    rw [if_neg hseen, Option.map_some]
    have hspec := img.updateTrampolineCodeRefs_spec block
      (memcpyS block img.size img.ldTrampolineLoad img.size m)
    constructor
    · intro h b hb
      obtain rfl := Option.some.inj hb
      obtain ⟨hspares, hdesignates⟩ := h block _ rfl
      exact Or.inr ⟨hspec.farJump_iff.mp hdesignates.farJump, (hspares _ _ .mmap).1,
        fun i n hi hn => (hspares _ _ (.string i n hi hn)).1⟩
    · intro h destPa m' heq
      obtain ⟨rfl, rfl⟩ := Prod.mk.inj (Option.some.inj heq)
      obtain hseen' | ⟨hlow, hmmap, hstrings⟩ := h block rfl
      · exact absurd hseen' hseen
      refine ⟨fun a n hinterval => ?_, hspec.designates himg hlow⟩
      have hapart : Apart block 0x10000 a n := by
        cases hinterval with
        | info =>
          refine apart_iff.mpr ?_
          have hnot := not_or.mp (not_or.mp hseen).2
          omega
        | mmap => exact hmmap
        | mods =>
          refine apart_iff.mpr ?_
          have hnot := not_or.mp (not_or.mp hseen).2
          omega
        | string i n hi hn => exact hstrings i n hi hn
      refine ⟨hapart, fun i hi => ?_⟩
      have hsize := img.size_le
      have hout : a + i < block ∨ block + img.size ≤ a + i := by
        by_contra hin
        exact hapart (a + i) (by omega)
      exact (hspec.outside hout).trans (memcpyS_outside hout)

/-! ## An image, and what the boot loader may leave -/

/-- A section with the symbols at these offsets, loaded at 8 MBytes. -/
def sampleImage : TrampolineImage where
  ldTrampolineLoad := 0x800000
  size := 0x2020
  trampolineFixupIp := 2
  trampolineFixupCs := 4
  trampolineFixupTarget := 6
  trampolineStart64Fixup := 0x60
  trampolineStart64 := 0x66
  mainEntry := 0x90
  trampolineGdt := 0xA0
  trampolineGdtPtr := 0xB8
  cpuBootPageTablesPtr := 0xC4
  cpuBootPageTablesStart := 0x1000
  trampolinePdptAddr := 0x2000
  load_ge := by decide
  size_le := by decide
  ip_cs := by decide
  cs_target := by decide
  target_fixup := by decide
  fixup_start64 := by decide
  start64_entry := by decide
  entry_gdt := by decide
  gdt_ptr := by decide
  ptr_tablesPtr := by decide
  tablesPtr_tables := by decide
  tables_pdpt := by decide
  pdpt_size := by decide

/-- The image, the multiboot information at `0x10000`, one module at `0x11000`, and a string of
one character at the given address. -/
def sampleMemory (string : ℕ) : HostMem :=
  let m := writeLE (fun _ => 0#8) (0x800000 + 0xC4) 4 0x1000
  let m := writeLE m (0x800000 + 0x1000) 8 0x2003
  let m := writeLE m (0x800000 + 0xBA) 8 0xA0
  let m := writeLE m (0x800000 + 0x60) 4 0x66
  let m := writeLE m (0x10000 + 20) 4 1
  let m := writeLE m (0x10000 + 24) 4 0x11000
  let m := writeLE m (0x11000 + 8) 4 string
  writeLE m string 1 0x61

/-- RAM from zero to 636 KBytes: the block is at `0x8F000`. -/
def sampleE820 : List E820Entry := [⟨0#64, 0x9F000#64, e820TypeRam⟩]

/-- The string lies behind the block. -/
theorem prepareTrampoline_spares_sample :
    ∃ m', sampleImage.prepareTrampoline sampleE820 0x10000 (sampleMemory 0x200000) =
        some (0x8F000, m') ∧ SparesBootInfo 0x10000 0x8F000 0x10000 (sampleMemory 0x200000) m' ∧
      sampleImage.Designates 0x8F000 (sampleMemory 0x200000) m' := by
  have himg : sampleImage.LoadedIn (sampleMemory 0x200000) :=
    ⟨by decide, by decide, by decide, by decide⟩
  have hblock : trampolineBlock sampleE820 = some 0x8F000 := by decide
  have hmodule : mmString (sampleMemory 0x200000) 0x10000 0 = 0x200000 := by decide
  have hfits : BlockFits sampleImage sampleE820 (0x10000#32).toNat (sampleMemory 0x200000) := by
    intro block hb
    rw [hblock] at hb
    obtain rfl := Option.some.inj hb
    refine Or.inr ⟨by decide, by decide, fun i n hi _ => ?_⟩
    have hi0 : i = 0 := Nat.lt_one_iff.mp (hi.trans_eq (by decide))
    rw [hi0, show (0x10000#32).toNat = 0x10000 from rfl, hmodule]
    exact apart_iff.mpr (by omega)
  have hbuf : getApTrampolineBuf sampleE820 0x10000 (sampleMemory 0x200000) = some 0x8F000 := by
    decide
  have hrun : sampleImage.prepareTrampoline sampleE820 (0x10000#32).toNat
      (sampleMemory 0x200000) = some (0x8F000, _) := congrArg (Option.map _) hbuf
  exact ⟨_, hrun, (prepareTrampoline_spares_iff sampleImage sampleE820 0x10000#32
    (sampleMemory 0x200000) himg).mpr hfits 0x8F000 _ hrun⟩

/-- The boot loader has put the string of the module to `0x90000`, into the block. -/
theorem prepareTrampoline_over_string :
    ∃ m', sampleImage.LoadedIn (sampleMemory 0x90000) ∧
      IsString (sampleMemory 0x90000) (mmString (sampleMemory 0x90000) 0x10000 0) 1 ∧
      sampleImage.prepareTrampoline sampleE820 0x10000 (sampleMemory 0x90000) =
        some (0x8F000, m') ∧
      ¬ SparesBootInfo 0x10000 0x8F000 0x10000 (sampleMemory 0x90000) m' := by
  have hmodule : mmString (sampleMemory 0x90000) 0x10000 0 = 0x90000 := by decide
  have hstring : IsString (sampleMemory 0x90000) (mmString (sampleMemory 0x90000) 0x10000 0) 1 := by
    rw [hmodule]
    exact ⟨by decide, by decide⟩
  have hbuf : getApTrampolineBuf sampleE820 0x10000 (sampleMemory 0x90000) = some 0x8F000 := by
    decide
  refine ⟨_, ⟨by decide, by decide, by decide, by decide⟩, hstring,
    congrArg (Option.map _) hbuf, fun h => ?_⟩
  have hapart := (h _ _ (.string 0 1 (by decide) hstring)).1
  rw [hmodule] at hapart
  exact absurd hapart (by decide)

end TrampolineImage

end Acrn
