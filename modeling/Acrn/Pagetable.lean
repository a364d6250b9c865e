import Acrn.Page

/-!
# The page-table operations

`pagetable.c` as it stands: `mmu_add` and `mmu_modify_or_del` walk the four
levels with nested loops, each of which advances `vaddr` to the next block
boundary and stops at the end of its interval or of its table; `lookup_address`
follows the tables down to the entry that maps an address.

The functions of the page-directory level and of the page-directory-pointer
level are the same text over different levels, so each pair is one definition
(`addEntries`, `modifyOrDelEntries`) taken at both. Logging is left out.
-/

namespace Acrn

open BlockLoop PageTableLevel

/-- `pml4e_page_vaddr`, `pdpte_page_vaddr`, `pde_page_vaddr`. -/
def pageVaddr (pte : Word) : ℕ := (pte &&& pfnMask).toNat

/-- `pdpte_large`, `pde_large`. -/
def entryLarge (pte : Word) : Word := pte &&& pagePs

/-- The `type` argument: `MR_MODIFY` or `MR_DEL`. -/
inductive MrType where
  | modify
  | del
  deriving DecidableEq, Repr

/-! ## Single entries -/

/-- `split_large_page`: the large entry at `pte` becomes a table of 512 entries
of the level below with the same attributes. Splitting a 2-MByte page gives the
execute right back. -/
def splitLargePage (ops : MemoryOps) (pte : ℕ) (level : PageTableLevel) (vaddr : ℕ)
    (s : PgMem) : PgMem :=
  match level with
  | .pdpt =>
    let paddr := s.mem pte &&& pdptePaddrMask
    let refProt := s.mem pte &&& protMask
    let (pbase, s) := getPdPage ops vaddr s
    let s := PgMem.fillPage pbase
      (fun i => (paddr + BitVec.ofNat 64 (i * pd.size)) ||| refProt) ptrsPerTable s
    s.setPgentry pte (BitVec.ofNat 64 pbase ||| ops.getDefaultAccessRight)
  | _ =>
    let paddr := s.mem pte &&& pdePaddrMask
    let refProt := ops.recoverExeRight (s.mem pte &&& protMask &&& ~~~pagePs)
    let (pbase, s) := getPtPage ops vaddr s
    let s := PgMem.fillPage pbase
      (fun i => (paddr + BitVec.ofNat 64 (i * pt.size)) ||| refProt) ptrsPerTable s
    s.setPgentry pte (BitVec.ofNat 64 pbase ||| ops.getDefaultAccessRight)

/-- `local_modify_or_del_pte`. -/
def localModifyOrDelPte (ops : MemoryOps) (pte : ℕ) (protSet protClr : Word) (type : MrType)
    (s : PgMem) : PgMem :=
  match type with
  | .modify => s.setPgentry pte ((s.mem pte &&& ~~~protClr) ||| protSet)
  | .del => sanitizePteEntry ops pte s

/-- `construct_pgentry`: sanitize a fresh table page, then reference it. -/
def constructPgentry (ops : MemoryOps) (pde pdPage : ℕ) (prot : Word) (s : PgMem) : PgMem :=
  (sanitizePte ops pdPage s).setPgentry pde (BitVec.ofNat 64 pdPage ||| prot)

/-! ## `mmu_modify_or_del` -/

/-- `modify_or_del_pte`. -/
def modifyOrDelPte (ops : MemoryOps) (protSet protClr : Word) (type : MrType)
    (pde vaddrStart vaddrEnd : ℕ) (s : PgMem) : PgMem :=
  let ptPage := pageVaddr (s.mem pde)
  forBlocks ptrsPerTable (fun vaddr => vaddr + pt.size) vaddrEnd
    (fun index _ s =>
      let pte := ptPage + 8 * index
      if ops.pgentryPresent (s.mem pte) = 0#64 then s
      else localModifyOrDelPte ops pte protSet protClr type s)
    (ptrsPerTable - pt.index vaddrStart) vaddrStart s

/-- The text shared by `modify_or_del_pde` and `modify_or_del_pdpte`: `level` is
the level of the entries the loop runs over, `child` handles the table below. -/
def modifyOrDelEntries (level : PageTableLevel) (child : ℕ → ℕ → ℕ → PgMem → PgMem)
    (ops : MemoryOps) (protSet protClr : Word) (type : MrType)
    (parent vaddrStart vaddrEnd : ℕ) (s : PgMem) : PgMem :=
  let page := pageVaddr (s.mem parent)
  forBlocks ptrsPerTable (nextBlock level.shift) vaddrEnd
    (fun index vaddr s =>
      let pte := page + 8 * index
      let vaddrNext := nextBlock level.shift vaddr
      if ops.pgentryPresent (s.mem pte) = 0#64 then s
      else if entryLarge (s.mem pte) ≠ 0#64 then
        if vaddrEnd < vaddrNext ∨ memAlignedCheck vaddr level.shift = false then
          child pte vaddr (min vaddrNext vaddrEnd) (splitLargePage ops pte level vaddr s)
        else localModifyOrDelPte ops pte protSet protClr type s
      else child pte vaddr (min vaddrNext vaddrEnd) s)
    (ptrsPerTable - level.index vaddrStart) vaddrStart s

/-- `modify_or_del_pde`. -/
def modifyOrDelPde (ops : MemoryOps) (protSet protClr : Word) (type : MrType) :
    ℕ → ℕ → ℕ → PgMem → PgMem :=
  modifyOrDelEntries .pd (modifyOrDelPte ops protSet protClr type) ops protSet protClr type

/-- `modify_or_del_pdpte`. -/
def modifyOrDelPdpte (ops : MemoryOps) (protSet protClr : Word) (type : MrType) :
    ℕ → ℕ → ℕ → PgMem → PgMem :=
  modifyOrDelEntries .pdpt (modifyOrDelPde ops protSet protClr type) ops protSet protClr type

/-- `mmu_modify_or_del`. The addition `vaddr_base + size` is modulo `2 ^ 64`;
`ASSERT` is empty in a release build. -/
def mmuModifyOrDel (ops : MemoryOps) (pml4Page vaddrBase size : ℕ) (protSet protClr : Word)
    (type : MrType) (s : PgMem) : PgMem :=
  let vaddrEnd := roundPageUp ((vaddrBase + size) % 2 ^ 64)
  whileBlocks pml4.shift vaddrEnd
    (fun vaddr s =>
      let pml4e := pml4Page + 8 * pml4.index vaddr
      if ops.pgentryPresent (s.mem pml4e) = 0#64 ∧ type = .modify then s
      else modifyOrDelPdpte ops protSet protClr type pml4e vaddr
        (min (nextBlock pml4.shift vaddr) vaddrEnd) s)
    (roundPageDown vaddrBase) s

/-! ## `mmu_add`

A loop is a recursion on the entries that are left in its table. The variables that it carries are
those of the source, `effective_prot` among them. -/

/-- The loop of `add_pte`. An entry that is already present is skipped without
advancing `vaddr` and `paddr`. -/
def addPteLoop (ops : MemoryOps) (ptPage vaddrEnd : ℕ) (prot : Word) :
    ℕ → ℕ → ℕ → PgMem → PgMem
  | 0, _, _, s => s
  | n + 1, vaddr, paddr, s =>
    let pte := ptPage + 8 * (ptrsPerTable - (n + 1))
    if ops.pgentryPresent (s.mem pte) ≠ 0#64 then
      addPteLoop ops ptPage vaddrEnd prot n vaddr paddr s
    else
      let s := s.setPgentry pte (BitVec.ofNat 64 paddr ||| prot)
      if vaddrEnd ≤ vaddr + pt.size then s
      else addPteLoop ops ptPage vaddrEnd prot n (vaddr + pt.size) (paddr + pt.size) s

/-- `add_pte`. -/
def addPte (ops : MemoryOps) (pde paddrStart vaddrStart vaddrEnd : ℕ) (prot : Word)
    (s : PgMem) : PgMem :=
  addPteLoop ops (pageVaddr (s.mem pde)) vaddrEnd prot
    (ptrsPerTable - pt.index vaddrStart) vaddrStart paddrStart s

/-- The variables `add_pde` and `add_pdpte` carry through their loop. -/
structure AddCursor where
  paddr : ℕ
  effectiveProt : Word
  pages : PgMem

/-- The text shared by `add_pde` and `add_pdpte`: `level` is the level of the
entries the loop runs over, `child` fills the table below. -/
def addEntries (level : PageTableLevel) (child : ℕ → ℕ → ℕ → ℕ → Word → PgMem → PgMem)
    (ops : MemoryOps) (parent paddrStart vaddrStart vaddrEnd : ℕ) (prot : Word)
    (s : PgMem) : PgMem :=
  let page := pageVaddr (s.mem parent)
  let body (index vaddr : ℕ) (c : AddCursor) : AddCursor :=
    let pte := page + 8 * index
    let vaddrNext := nextBlock level.shift vaddr
    let paddrNext := c.paddr + (vaddrNext - vaddr)
    if entryLarge (c.pages.mem pte) ≠ 0#64 then { c with paddr := paddrNext }
    else if ops.pgentryPresent (c.pages.mem pte) = 0#64 then
      if ops.largePageEnabled = true ∧ memAlignedCheck c.paddr level.shift = true ∧
          memAlignedCheck vaddr level.shift = true ∧ vaddrNext ≤ vaddrEnd then
        -- the tweaked right stays in `effective_prot` for the rest of the loop
        let effectiveProt := ops.tweakExeRight c.effectiveProt
        ⟨paddrNext, effectiveProt,
          c.pages.setPgentry pte (BitVec.ofNat 64 c.paddr ||| (effectiveProt ||| pagePs))⟩
      else
        let (tablePage, pages) := getTablePage level ops vaddr c.pages
        let pages := constructPgentry ops pte tablePage ops.getDefaultAccessRight pages
        ⟨paddrNext, c.effectiveProt,
          child pte c.paddr vaddr (min vaddrNext vaddrEnd) c.effectiveProt pages⟩
    else
      ⟨paddrNext, c.effectiveProt,
        child pte c.paddr vaddr (min vaddrNext vaddrEnd) c.effectiveProt c.pages⟩
  (forBlocks ptrsPerTable (nextBlock level.shift) vaddrEnd body
    (ptrsPerTable - level.index vaddrStart) vaddrStart ⟨paddrStart, prot, s⟩).pages

/-- `add_pde`. -/
def addPde (ops : MemoryOps) : ℕ → ℕ → ℕ → ℕ → Word → PgMem → PgMem :=
  addEntries .pd (addPte ops) ops

/-- `add_pdpte`. -/
def addPdpte (ops : MemoryOps) : ℕ → ℕ → ℕ → ℕ → Word → PgMem → PgMem :=
  addEntries .pdpt (addPde ops) ops

/-- `mmu_add`. -/
def mmuAdd (ops : MemoryOps) (pml4Page paddrBase vaddrBase size : ℕ) (prot : Word)
    (s : PgMem) : PgMem :=
  let vaddrEnd := roundPageUp ((vaddrBase + size) % 2 ^ 64)
  (whileBlocks pml4.shift vaddrEnd
    (fun vaddr (c : ℕ × PgMem) =>
      let pml4e := pml4Page + 8 * pml4.index vaddr
      let vaddrNext := nextBlock pml4.shift vaddr
      let pages :=
        if ops.pgentryPresent (c.2.mem pml4e) = 0#64 then
          let (pdptPage, pages) := getPdptPage ops vaddr c.2
          constructPgentry ops pml4e pdptPage ops.getDefaultAccessRight pages
        else c.2
      (c.1 + (vaddrNext - vaddr),
        addPdpte ops pml4e c.1 vaddr (min vaddrNext vaddrEnd) prot pages))
    (roundPageDown vaddrBase) (roundPageDown paddrBase, s)).2

/-! ## `lookup_address` -/

/-- `lookup_address`: a pointer to the entry that maps `addr` and the size of
the page it maps, or nothing. -/
def lookupAddress (ops : MemoryOps) (pml4Page addr : ℕ) (s : PgMem) : Option (ℕ × ℕ) :=
  let pml4e := pml4Page + 8 * pml4.index addr
  if ops.pgentryPresent (s.mem pml4e) = 0#64 then none else
  let pdpte := pageVaddr (s.mem pml4e) + 8 * pdpt.index addr
  if ops.pgentryPresent (s.mem pdpte) = 0#64 then none else
  if entryLarge (s.mem pdpte) ≠ 0#64 then some (pdpte, pdpt.size) else
  let pde := pageVaddr (s.mem pdpte) + 8 * pd.index addr
  if ops.pgentryPresent (s.mem pde) = 0#64 then none else
  if entryLarge (s.mem pde) ≠ 0#64 then some (pde, pd.size) else
  let pte := pageVaddr (s.mem pde) + 8 * pt.index addr
  if ops.pgentryPresent (s.mem pte) = 0#64 then none else some (pte, pt.size)

end Acrn
