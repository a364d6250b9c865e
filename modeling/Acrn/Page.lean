import Acrn.Lib.BitField
import Acrn.Lib.BlockLoop

/-!
# Paging structures and their pools

The data of `page.h`, `pgtable.h` and `page.c`: the bits of a paging-structure
entry, the four levels, the arrays the table pages come from, and the
`memory_ops` records that distinguish the hypervisor's own page table from a
VM's EPT.

Addresses are natural numbers and entries are 64-bit words. Host virtual and
host physical addresses coincide (`hpa2hva` is the identity), so one memory,
indexed by the byte address of an 8-byte slot, holds every table. Cache flushes
(`clflush_pagewalk`) have no effect on it.
-/

namespace Acrn

open BlockLoop

/-- `uint64_t` as a paging-structure entry or a register. -/
abbrev Word : Type := BitVec 64

def einval : ℤ := 22

/-- `MAX_PCPU_NUM`, which is `MAX_VCPUS_PER_VM` as well. -/
abbrev maxPcpuNum : ℕ := 4

/-! ## Bits of an entry -/

def pagePresent : Word := 0x1#64
def pageRw : Word := 0x2#64
def pageUser : Word := 0x4#64
/-- `PAGE_PS`: the entry maps a large page. -/
def pagePs : Word := 0x80#64

def eptRd : Word := 0x1#64
def eptWr : Word := 0x2#64
def eptExe : Word := 0x4#64
/-- `EPT_RWX`: an EPT entry is present when one of these three bits is set. -/
def eptRwx : Word := eptRd ||| eptWr ||| eptExe
def eptUncached : Word := 0x0#64
def eptWb : Word := 0x30#64
def eptMtMask : Word := 0x38#64
def eptSnoopCtrl : Word := 0x800#64
def eptPfnHighMask : Word := 0xFFF0000000000000#64

/-- `PML4E_PFN_MASK`, `PDPTE_PFN_MASK` and `PDE_PFN_MASK`: the page frame of a
table, below `MAXPHYADDR` = 39 bits. -/
def pfnMask : Word := 0x0000007FFFFFF000#64
def pdptePaddrMask : Word := 0x0000007FC0000000#64
def pdePaddrMask : Word := 0x0000007FFFE00000#64
/-- `PDPTE_PROT_MASK` and `PDE_PROT_MASK`. -/
def protMask : Word := 0xF800000000000FFF#64

/-- Size of a 4-KByte page, of a table, and of the arrays' elements. -/
abbrev pageSize : ℕ := 4096
/-- Every table has 512 entries. -/
abbrev ptrsPerTable : ℕ := 512

/-- `round_page_down`. -/
def roundPageDown (addr : ℕ) : ℕ := blockStart 12 addr

/-- `round_page_up`, whose addition is modulo `2 ^ 64`. -/
def roundPageUp (addr : ℕ) : ℕ := blockStart 12 ((addr + pageSize - 1) % 2 ^ 64)

/-- `mem_aligned_check` for an alignment of `2 ^ k` bytes. -/
def memAlignedCheck (value k : ℕ) : Bool := value % 2 ^ k == 0

/-! ## Levels

The four levels differ in shifts only, so functions of the source that exist once for each level
become one definition with the level as an argument. -/

/-- `enum page_table_level`. -/
inductive PageTableLevel where
  | pml4
  | pdpt
  | pd
  | pt
  deriving DecidableEq, Repr

namespace PageTableLevel

/-- `PML4E_SHIFT`, `PDPTE_SHIFT`, `PDE_SHIFT`, `PTE_SHIFT`. -/
def shift : PageTableLevel → ℕ
  | pml4 => 39
  | pdpt => 30
  | pd => 21
  | pt => 12

/-- The bytes an entry of this level controls: `PML4E_SIZE` down to `PTE_SIZE`. -/
abbrev size (l : PageTableLevel) : ℕ := 2 ^ l.shift

/-- The level of the table that an entry of this level references. -/
def next : PageTableLevel → PageTableLevel
  | pml4 => pdpt
  | pdpt => pd
  | pd => pt
  | pt => pt

@[simp] theorem next_pml4 : pml4.next = pdpt := rfl
@[simp] theorem next_pdpt : pdpt.next = pd := rfl
@[simp] theorem next_pd : pd.next = pt := rfl

/-- `pml4e_index`, `pdpte_index`, `pde_index`, `pte_index`. -/
def index (l : PageTableLevel) (addr : ℕ) : ℕ := addr / l.size % ptrsPerTable

end PageTableLevel

/-! ## The arrays of table pages

There is no free list. Each level has an array with room for every table that the address space can
need, and `PoolLayout` says that these arrays are apart. -/

/-- `union pgtable_pages_info` with the size of the address space its arrays are
dimensioned for, and the page `mmu.c` points non-present entries to. -/
structure PgtablePagesInfo where
  pml4Base : ℕ
  pdptBase : ℕ
  pdBase : ℕ
  ptBase : ℕ
  /-- `EPT_ADDRESS_SPACE(CONFIG_UOS_RAM_SIZE)`, or `CONFIG_PLATFORM_RAM_SIZE +
  PLATFORM_LO_MMIO_SIZE` for the hypervisor -/
  window : ℕ
  /-- whether there is an array of page tables at all; `ppt_pages_info` has none -/
  ptPool : Bool
  /-- the address of `sanitized_page` -/
  sanitizedPage : ℕ

namespace PgtablePagesInfo

variable (info : PgtablePagesInfo)

/-- The array the tables of a level come from. -/
def base : PageTableLevel → ℕ
  | .pml4 => info.pml4Base
  | .pdpt => info.pdptBase
  | .pd => info.pdBase
  | .pt => info.ptBase

/-- `PML4_PAGE_NUM`, `PDPT_PAGE_NUM`, `PD_PAGE_NUM`, `PT_PAGE_NUM`. -/
def pageNum : PageTableLevel → ℕ
  | .pml4 => 1
  | .pdpt => (info.window + PageTableLevel.pml4.size - 1) / PageTableLevel.pml4.size
  | .pd => (info.window + PageTableLevel.pdpt.size - 1) / PageTableLevel.pdpt.size
  | .pt => if info.ptPool then
      (info.window + PageTableLevel.pd.size - 1) / PageTableLevel.pd.size else 0

end PgtablePagesInfo

/-- The arrays as the linker places them: page aligned, disjoint, and below the
39 bits that the frame of an entry can hold. -/
structure PoolLayout extends PgtablePagesInfo where
  window_le : window ≤ 2 ^ 48
  base_dvd : ∀ l, pageSize ∣ toPgtablePagesInfo.base l
  base_le : ∀ l, toPgtablePagesInfo.base l + pageSize * toPgtablePagesInfo.pageNum l ≤ 2 ^ 39
  disjoint : ∀ l l', l ≠ l' →
    toPgtablePagesInfo.base l + pageSize * toPgtablePagesInfo.pageNum l ≤
        toPgtablePagesInfo.base l' ∨
      toPgtablePagesInfo.base l' + pageSize * toPgtablePagesInfo.pageNum l' ≤
        toPgtablePagesInfo.base l
  sanitized_dvd : pageSize ∣ sanitizedPage
  sanitized_le : sanitizedPage + pageSize ≤ 2 ^ 39
  sanitized_disjoint : ∀ l,
    toPgtablePagesInfo.base l + pageSize * toPgtablePagesInfo.pageNum l ≤ sanitizedPage ∨
      sanitizedPage + pageSize ≤ toPgtablePagesInfo.base l

/-! ## Memory

Next to the words in memory stands the list of the page requests. No function reads it: it is there
to say of a page that nobody used it when it was handed out. -/

/-- A call of a page getter: the level of the entry that is to reference the
page, the address it was chosen for, and the memory just before it was zeroed. -/
structure PageRequest where
  level : PageTableLevel
  gpa : ℕ
  before : ℕ → Word

/-- The memory the tables live in, with the history of the pages handed out. -/
structure PgMem where
  mem : ℕ → Word
  requests : List PageRequest

namespace PgMem

/-- `set_pgentry`. -/
def setPgentry (s : PgMem) (ptep : ℕ) (pte : Word) : PgMem :=
  { s with mem := Function.update s.mem ptep pte }

/-- `memset(page, 0, PAGE_SIZE)`. -/
def zeroPage (s : PgMem) (page : ℕ) : PgMem :=
  { s with mem := fun a => if page ≤ a ∧ a < page + pageSize then 0#64 else s.mem a }

/-- `for (i = 0; i < n; i++) set_pgentry(page + i, pte i)`. -/
def fillPage (page : ℕ) (pte : ℕ → Word) : ℕ → PgMem → PgMem
  | 0, s => s
  | n + 1, s => (fillPage page pte n s).setPgentry (page + 8 * n) (pte n)

end PgMem

/-! ## Memory operations -/

/-- `struct memory_ops`. The page getters are the same formula over the arrays of
`info` for both instances; see `getTablePage`. -/
structure MemoryOps where
  info : PoolLayout
  largePageEnabled : Bool
  getDefaultAccessRight : Word
  pgentryPresent : Word → Word
  tweakExeRight : Word → Word
  recoverExeRight : Word → Word

/-- `ppt_pgentry_present`. -/
def pptPgentryPresent (pte : Word) : Word := pte &&& pagePresent
/-- `ept_pgentry_present`. -/
def eptPgentryPresent (pte : Word) : Word := pte &&& eptRwx
def eptTweakExeRight (prot : Word) : Word := prot &&& ~~~eptExe
def eptRecoverExeRight (prot : Word) : Word := prot ||| eptExe
def nopTweakExeRight (prot : Word) : Word := prot
def nopRecoverExeRight (prot : Word) : Word := prot

/-- `ppt_mem_ops`. -/
def pptMemOps (info : PoolLayout) : MemoryOps where
  info := info
  largePageEnabled := true
  getDefaultAccessRight := pagePresent ||| pageRw ||| pageUser
  pgentryPresent := pptPgentryPresent
  tweakExeRight := nopTweakExeRight
  recoverExeRight := nopRecoverExeRight

/-- `init_ept_mem_ops`; `isEptForce4kIpage` is the result of the function of that
name, which tells whether the platform needs the machine-check mitigation. -/
def initEptMemOps (info : PoolLayout) (isEptForce4kIpage enforce4kIpage : Bool) : MemoryOps where
  info := info
  largePageEnabled := !(isEptForce4kIpage && enforce4kIpage)
  getDefaultAccessRight := eptRwx
  pgentryPresent := eptPgentryPresent
  tweakExeRight := if isEptForce4kIpage then eptTweakExeRight else nopTweakExeRight
  recoverExeRight := if isEptForce4kIpage then eptRecoverExeRight else nopRecoverExeRight

/-- The two `memory_ops` instances of the hypervisor. Only an EPT has page
tables to hand out: `ppt_mem_ops` leaves `get_pt_page` null. -/
inductive MemoryOps.Known : MemoryOps → Prop where
  | ept (info : PoolLayout) (force enforce : Bool) :
      info.ptPool = true → Known (initEptMemOps info force enforce)
  | ppt (info : PoolLayout) : info.ptPool = false → Known (pptMemOps info)

/-! ## Page getters -/

/-- The page of the array below `l` that belongs to `gpa`. -/
def PoolLayout.tablePage (info : PoolLayout) (l : PageTableLevel) (gpa : ℕ) : ℕ :=
  info.base l.next + pageSize * (gpa / l.size)

/-- The body shared by the page getters: the page is picked by the address
alone, zeroed and returned. For the hypervisor's `get_pt_page`, which is a null
pointer, the request is recorded like any other; its array has no page. -/
def getTablePage (l : PageTableLevel) (ops : MemoryOps) (gpa : ℕ) (s : PgMem) : ℕ × PgMem :=
  let page := ops.info.tablePage l gpa
  (page, { s.zeroPage page with requests := ⟨l, gpa, s.mem⟩ :: s.requests })

/-- `ept_get_pdpt_page`, `ppt_get_pdpt_page`. -/
def getPdptPage : MemoryOps → ℕ → PgMem → ℕ × PgMem := getTablePage .pml4
/-- `ept_get_pd_page`, `ppt_get_pd_page`. -/
def getPdPage : MemoryOps → ℕ → PgMem → ℕ × PgMem := getTablePage .pdpt
/-- `ept_get_pt_page`. -/
def getPtPage : MemoryOps → ℕ → PgMem → ℕ × PgMem := getTablePage .pd

/-- `sanitize_pte_entry`: the entry is pointed to the sanitized page. -/
def sanitizePteEntry (ops : MemoryOps) (ptep : ℕ) (s : PgMem) : PgMem :=
  s.setPgentry ptep (BitVec.ofNat 64 ops.info.sanitizedPage)

/-- `sanitize_pte`: all entries of a table are sanitized. -/
def sanitizePte (ops : MemoryOps) (ptPage : ℕ) (s : PgMem) : PgMem :=
  PgMem.fillPage ptPage (fun _ => BitVec.ofNat 64 ops.info.sanitizedPage) ptrsPerTable s

end Acrn
