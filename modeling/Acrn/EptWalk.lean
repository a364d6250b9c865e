import Acrn.Lib.Tiling
import Acrn.Remapping

/-!
# Walking a whole table

`walk_page_table` visits the entries of a table with four nested loops and calls back at every
one that maps a page; `lookup_address` follows the tables for one address. Each decodes the
entries on its own. Both see the same leaves, and so what `ept_flush_leaf_page` flushes over a
whole EPT are the host pages that guest-physical addresses translate to.
-/

namespace Acrn

open BlockLoop BitField PageTableLevel Tiling

/-! ## The walk -/

/-- `walk_page_table`. `cb` gives what the callback does at an entry of a size, and the walk lists
it in order; the callback does not write to the tables. -/
def walkPageTable {α : Type*} (ops : MemoryOps) (pml4Page : ℕ) (cb : ℕ → ℕ → List α)
    (m : ℕ → Word) : List α :=
  (List.range ptrsPerTable).flatMap fun i =>
    let pml4e := pml4Page + 8 * pml4.index (i * pml4.size)
    if ops.pgentryPresent (m pml4e) = 0#64 then [] else
    (List.range ptrsPerTable).flatMap fun j =>
      let pdpte := pageVaddr (m pml4e) + 8 * pdpt.index (j * pdpt.size)
      if ops.pgentryPresent (m pdpte) = 0#64 then []
      else if entryLarge (m pdpte) ≠ 0#64 then cb pdpte pdpt.size else
      (List.range ptrsPerTable).flatMap fun k =>
        let pde := pageVaddr (m pdpte) + 8 * pd.index (k * pd.size)
        if ops.pgentryPresent (m pde) = 0#64 then []
        else if entryLarge (m pde) ≠ 0#64 then cb pde pd.size else
        (List.range ptrsPerTable).flatMap fun n =>
          let pte := pageVaddr (m pde) + 8 * pt.index (n * pt.size)
          if ops.pgentryPresent (m pte) ≠ 0#64 then cb pte pt.size else []

/-- `walk_ept_table`. -/
def walkEptTable {α : Type*} (ops : MemoryOps) (cb : ℕ → ℕ → List α) (s : PgMem) : List α :=
  walkPageTable ops ops.info.pml4Base cb s.mem

/-- The arguments of the calls of the callback. -/
def walkCalls (ops : MemoryOps) (pml4Page : ℕ) (m : ℕ → Word) : List (ℕ × ℕ) :=
  walkPageTable ops pml4Page (fun pte size => [(pte, size)]) m

variable {ops : MemoryOps} {s : PgMem}

/-- The walk does what the callback does at each call, one after the other. -/
theorem walkPageTable_eq_flatMap {α : Type*} (ops : MemoryOps) (pml4Page : ℕ)
    (cb : ℕ → ℕ → List α) (m : ℕ → Word) :
    walkPageTable ops pml4Page cb m =
      (walkCalls ops pml4Page m).flatMap fun c => cb c.1 c.2 := by
  simp only [walkPageTable, walkCalls, List.flatMap_assoc,
    apply_ite (List.flatMap fun c : ℕ × ℕ => cb c.1 c.2), List.flatMap_nil, List.flatMap_singleton]

/-! ## Agreement with the lookup

A list of calls tiles an interval when each of them is about a block, the blocks follow each other,
and what the lookup finds in a block is what the call was given. The four loops tile a block of
their level, each by the loop below. -/

theorem index_mul_size (l : PageTableLevel) {i : ℕ} (hi : i < ptrsPerTable) :
    l.index (i * l.size) = i := by
  rw [index, Nat.mul_div_cancel _ (Nat.two_pow_pos _), Nat.mod_eq_of_lt hi]

/-- All addresses of the `i`-th part of a block of the level above select the `i`-th entry. -/
theorem index_of_part {l : PageTableLevel} {base i v : ℕ} (hbase : ptrsPerTable * l.size ∣ base)
    (hi : i < ptrsPerTable) (hge : base + i * l.size ≤ v) (hlt : v < base + i * l.size + l.size) :
    l.index v = i := by
  obtain ⟨b, rfl⟩ := hbase
  have hpos : 0 < l.size := Nat.two_pow_pos _
  have hdiv : v / l.size = ptrsPerTable * b + i := by
    refine Nat.div_eq_of_lt_le ?_ ?_
    · calc (ptrsPerTable * b + i) * l.size = ptrsPerTable * l.size * b + i * l.size := by ring
        _ ≤ v := hge
    · calc v < ptrsPerTable * l.size * b + i * l.size + l.size := hlt
        _ = (ptrsPerTable * b + i + 1) * l.size := by ring
  rw [index, hdiv, Nat.mul_add_mod, Nat.mod_eq_of_lt hi]

/-- A block of a page: its length is the size of the page, and it starts at a multiple of it. -/
def PageBlock (lo hi : ℕ) (call : ℕ × ℕ) : Prop := hi = lo + call.2 ∧ call.2 ∣ lo

/-- One of the four loops: the `i`-th round handles the addresses that select the `i`-th entry. -/
theorem loop_tiles {f : ℕ → Option (ℕ × ℕ)} (l : PageTableLevel) {a : ℕ}
    (ha : ptrsPerTable * l.size ∣ a) {part : ℕ → List (ℕ × ℕ)}
    (h : ∀ i < ptrsPerTable, ∀ b, a ≤ b → b + l.size ≤ a + ptrsPerTable * l.size → l.size ∣ b →
      (∀ v, b ≤ v → v < b + l.size → l.index v = i) →
        Tiles f PageBlock b (b + l.size) (part i)) :
    Tiles f PageBlock a (a + ptrsPerTable * l.size) ((List.range ptrsPerTable).flatMap part) := by
  refine Tiles.flatMap_range a ptrsPerTable fun i hi => h i hi _ (Nat.le_add_right _ _) ?_ ?_ ?_
  · have hle : (i + 1) * l.size ≤ ptrsPerTable * l.size := Nat.mul_le_mul_right _ hi
    calc a + i * l.size + l.size = a + (i + 1) * l.size := by ring
      _ ≤ a + ptrsPerTable * l.size := Nat.add_le_add_left hle a
  · exact Nat.dvd_add ((Dvd.intro_left _ rfl).trans ha) (Dvd.intro_left _ rfl)
  · exact fun v hge hlt => index_of_part ha hi hge hlt

/-- **The walk lists what the lookup finds**, from the lowest address to the highest. -/
theorem walkCalls_tiles (ops : MemoryOps) (pml4Page : ℕ) (s : PgMem) :
    Tiles (fun v => lookupAddress ops pml4Page v s) PageBlock 0 (2 ^ 48)
      (walkCalls ops pml4Page s.mem) := by
  have hsize : (2 : ℕ) ^ 48 = 0 + ptrsPerTable * pml4.size := by decide
  rw [hsize, walkCalls, walkPageTable]
  refine loop_tiles pml4 (dvd_zero _) fun i hi a _ _ hdvd4 hi4 => ?_
  simp only [index_mul_size _ hi]
  by_cases h4 : ops.pgentryPresent (s.mem (pml4Page + 8 * i)) = 0#64
  · rw [if_pos h4]
    refine .empty (Nat.le_add_right _ _) fun v hge hlt => ?_
    rw [lookupAddress, hi4 v hge hlt, if_pos h4]
  rw [if_neg h4]
  refine loop_tiles pdpt hdvd4 fun j hj b hb hb' hdvd3 hi3 => ?_
  have hi4' : ∀ v, b ≤ v → v < b + pdpt.size → pml4.index v = i :=
    fun v hge hlt => hi4 v (hb.trans hge) (hlt.trans_le hb')
  simp only [index_mul_size _ hj]
  by_cases h3 : ops.pgentryPresent (s.mem (pageVaddr (s.mem (pml4Page + 8 * i)) + 8 * j)) = 0#64
  · rw [if_pos h3]
    refine .empty (Nat.le_add_right _ _) fun v hge hlt => ?_
    simp only [lookupAddress, hi4' v hge hlt, hi3 v hge hlt, if_neg h4, if_pos h3]
  rw [if_neg h3]
  by_cases p3 : entryLarge (s.mem (pageVaddr (s.mem (pml4Page + 8 * i)) + 8 * j)) ≠ 0#64
  · rw [if_pos p3]
    refine .single (Nat.lt_add_of_pos_right (Nat.two_pow_pos _)) ⟨rfl, hdvd3⟩ fun v hge hlt => ?_
    simp only [lookupAddress, hi4' v hge hlt, hi3 v hge hlt, if_neg h4, if_neg h3, if_pos p3]
  rw [if_neg p3]
  refine loop_tiles pd hdvd3 fun k hk c hc hc' hdvd2 hi2 => ?_
  have hi3' : ∀ v, c ≤ v → v < c + pd.size → pml4.index v = i ∧ pdpt.index v = j :=
    fun v hge hlt => ⟨hi4' v (hc.trans hge) (hlt.trans_le hc'),
      hi3 v (hc.trans hge) (hlt.trans_le hc')⟩
  simp only [index_mul_size _ hk]
  by_cases h2 : ops.pgentryPresent (s.mem (pageVaddr (s.mem (pageVaddr (s.mem
      (pml4Page + 8 * i)) + 8 * j)) + 8 * k)) = 0#64
  · rw [if_pos h2]
    refine .empty (Nat.le_add_right _ _) fun v hge hlt => ?_
    simp only [lookupAddress, (hi3' v hge hlt).1, (hi3' v hge hlt).2, hi2 v hge hlt, if_neg h4,
      if_neg h3, if_neg p3, if_pos h2]
  rw [if_neg h2]
  by_cases p2 : entryLarge (s.mem (pageVaddr (s.mem (pageVaddr (s.mem
      (pml4Page + 8 * i)) + 8 * j)) + 8 * k)) ≠ 0#64
  · rw [if_pos p2]
    refine .single (Nat.lt_add_of_pos_right (Nat.two_pow_pos _)) ⟨rfl, hdvd2⟩ fun v hge hlt => ?_
    simp only [lookupAddress, (hi3' v hge hlt).1, (hi3' v hge hlt).2, hi2 v hge hlt, if_neg h4,
      if_neg h3, if_neg p3, if_neg h2, if_pos p2]
  rw [if_neg p2]
  refine loop_tiles pt hdvd2 fun n hn d hd hd' hdvd1 hi1 => ?_
  have hi2' : ∀ v, d ≤ v → v < d + pt.size → (pml4.index v = i ∧ pdpt.index v = j) ∧ pd.index v = k :=
    fun v hge hlt => ⟨hi3' v (hd.trans hge) (hlt.trans_le hd'),
      hi2 v (hd.trans hge) (hlt.trans_le hd')⟩
  simp only [index_mul_size _ hn]
  split
  · next h1 =>
    refine .single (Nat.lt_add_of_pos_right (Nat.two_pow_pos _)) ⟨rfl, hdvd1⟩ fun v hge hlt => ?_
    simp only [lookupAddress, (hi2' v hge hlt).1.1, (hi2' v hge hlt).1.2, (hi2' v hge hlt).2,
      hi1 v hge hlt, if_neg h4, if_neg h3, if_neg p3, if_neg h2, if_neg p2, if_neg h1]
  · next h1 =>
    refine .empty (Nat.le_add_right _ _) fun v hge hlt => ?_
    simp only [lookupAddress, (hi2' v hge hlt).1.1, (hi2' v hge hlt).1.2, (hi2' v hge hlt).2,
      hi1 v hge hlt, if_neg h4, if_neg h3, if_neg p3, if_neg h2, if_neg p2, if_pos (not_not.mp h1)]

/-! ## Flushing the leaves -/

abbrev cacheLineSize : ℕ := 64

/-- The loop of `flush_address_space`, from `n` on: the addresses given to `clflushopt`. -/
def flushFrom (addr size n : ℕ) : List ℕ :=
  if n < size then (addr + n) :: flushFrom addr size (n + cacheLineSize) else []
termination_by size - n
decreasing_by rw [cacheLineSize]; omega

/-- `flush_address_space`. -/
def flushAddressSpace (addr size : ℕ) : List ℕ := flushFrom addr size 0

/-- `ept_flush_leaf_page`: a page that is uncached is skipped. `hpa2hva` is the identity. -/
def eptFlushLeafPage (m : ℕ → Word) (pge size : ℕ) : List ℕ :=
  if m pge &&& eptMtMask ≠ eptUncached then
    flushAddressSpace (m pge &&& ~~~(BitVec.ofNat 64 size - 1#64)).toNat size
  else []

theorem mem_flushFrom {addr size a : ℕ} (n : ℕ) :
    a ∈ flushFrom addr size n ↔
      ∃ k, n + cacheLineSize * k < size ∧ a = addr + n + cacheLineSize * k := by
  fun_induction flushFrom addr size n with
  | case1 n hlt ih =>
    rw [List.mem_cons, ih]
    simp only [cacheLineSize]
    constructor
    · rintro (rfl | ⟨k, hk, rfl⟩)
      · exact ⟨0, by omega, by omega⟩
      · exact ⟨k + 1, by omega, by omega⟩
    · rintro ⟨k, hk, rfl⟩
      cases k with
      | zero => exact .inl (by omega)
      | succ k => exact .inr ⟨k, by omega, by omega⟩
  | case2 n hge =>
    refine ⟨fun h => absurd h List.not_mem_nil, ?_⟩
    rintro ⟨k, hk, -⟩
    omega

/-- The cache lines that are flushed are those of the region. -/
theorem flushAddressSpace_lines {addr size : ℕ} (haddr : cacheLineSize ∣ addr)
    (hsize : cacheLineSize ∣ size) (h : ℕ) :
    (∃ a ∈ flushAddressSpace addr size, h / cacheLineSize = a / cacheLineSize) ↔
      addr ≤ h ∧ h < addr + size := by
  simp only [flushAddressSpace, mem_flushFrom, cacheLineSize] at *
  constructor
  · rintro ⟨a, ⟨k, hk, rfl⟩, hline⟩
    omega
  · rintro ⟨hge, hlt⟩
    exact ⟨addr + 64 * ((h - addr) / 64), ⟨(h - addr) / 64, by omega, by omega⟩, by omega⟩

/-! ## Entries below the physical address space

`ept_flush_leaf_page` and the translation mask an entry differently. They agree on entries without
bits above the frame, and an EPT has no others as long as the calls bring none in. -/

/-- The rights have no bit above the frame of an entry, and the host range lies in the physical
address space. -/
def EptCall.Physical : EptCall → Prop
  | .add hpa gpa size prot => paddrEnd hpa gpa size ≤ 2 ^ 52 ∧ prot &&& eptPfnHighMask = 0#64
  | .modify _ _ protSet _ => protSet &&& eptPfnHighMask = 0#64
  | .del _ _ => True

/-- The states of a VM's EPT after calls of this kind. -/
inductive EptRun (ops : MemoryOps) : PgMem → Prop where
  | init {s : PgMem} : BeforeCreate ops s → EptRun ops (createEpt ops s)
  | step {s : PgMem} {c : EptCall} : EptRun ops s → c.Admissible ops → c.Physical →
      EptRun ops (c.run ops s)

theorem EptRun.reachable (h : EptRun ops s) : EptReachable ops s := by
  induction h with
  | init hb => exact .init hb
  | step _ hc _ ih => exact ih.step hc

/-- No bit of the entry is above its frame. -/
def FrameBits (_ : PageTableLevel) (e : Word) : Prop := e.toNat < 2 ^ 52

theorem toNat_lt_of_high {e : Word} (h : e &&& eptPfnHighMask = 0#64) : e.toNat < 2 ^ 52 := by
  have hmask : eptPfnHighMask = fieldMask 64 52 64 := by decide
  have hnat := congrArg BitVec.toNat h
  rw [hmask, toNat_and_fieldMask _ (by decide) (by decide), BitVec.toNat_zero,
    Nat.mod_eq_of_lt e.isLt] at hnat
  omega

theorem toNat_or_lt {a b : Word} (ha : a.toNat < 2 ^ 52) (hb : b.toNat < 2 ^ 52) :
    (a ||| b).toNat < 2 ^ 52 := by
  rw [BitVec.toNat_or]
  exact Nat.or_lt_two_pow ha hb

theorem toNat_and_lt {a : Word} (b : Word) (ha : a.toNat < 2 ^ 52) : (a &&& b).toNat < 2 ^ 52 := by
  rw [BitVec.toNat_and]
  exact Nat.and_le_left.trans_lt ha

theorem toNat_ofNat_lt {a : ℕ} (ha : a < 2 ^ 52) : (BitVec.ofNat 64 a).toNat < 2 ^ 52 := by
  rw [BitVec.toNat_ofNat]
  exact (Nat.mod_le _ _).trans_lt ha

/-- The pieces of a large page have no bit above their frame if the page has none. -/
theorem frameBits_splitEntry (hops : ops.Lawful) {l : PageTableLevel} (hl : l = .pdpt ∨ l = .pd)
    {e : Word} (he : FrameBits l e) {i : ℕ} (hi : i < ptrsPerTable) :
    FrameBits l.next (splitEntry ops l e i) := by
  have hpiece : ∀ mask : Word, mask.toNat < 2 ^ 39 → ∀ n, n < 2 ^ 30 →
      ((e &&& mask) + BitVec.ofNat 64 n).toNat < 2 ^ 52 := by
    intro mask hmask n hn
    have hand : (e &&& mask).toNat ≤ mask.toNat := by
      rw [BitVec.toNat_and]
      exact Nat.and_le_right
    rw [BitVec.toNat_add, BitVec.toNat_ofNat]
    omega
  rcases hl with rfl | rfl
  · refine toNat_or_lt (hpiece pdptePaddrMask (by decide) _ ?_) (toNat_and_lt _ he)
    simp only [size, shift, ptrsPerTable] at *
    omega
  · refine toNat_or_lt (hpiece pdePaddrMask (by decide) _ ?_) ?_
    · simp only [size, shift, ptrsPerTable] at *
      omega
    · obtain ⟨exe, hexe, -, hrecover⟩ := hops.exe
      rw [hrecover, ← hexe]
      refine toNat_or_lt (toNat_and_lt _ (toNat_and_lt _ he)) ?_
      rw [BitVec.and_comm]
      exact toNat_and_lt _ (by decide)

theorem frameBits_newEntry {l : PageTableLevel} {protSet protClr : Word} {type : MrType}
    (hset : protSet.toNat < 2 ^ 52) {e : Word} (he : FrameBits l e) :
    FrameBits l (newEntry ops protSet protClr type e) := by
  cases type with
  | modify => exact toNat_or_lt (toNat_and_lt _ he) hset
  | del =>
    have := ops.info.sanitized_le
    exact toNat_ofNat_lt (by rw [pageSize] at this; omega)

theorem snooped_lt {prot : Word} (h : prot &&& eptPfnHighMask = 0#64) :
    (snooped prot).toNat < 2 ^ 52 := by
  rw [snooped]
  split
  · exact toNat_or_lt (toNat_lt_of_high h) (by decide)
  · exact toNat_lt_of_high h

theorem MemoryOps.Lawful.frameBits_tableEntry (hops : ops.Lawful) (l : PageTableLevel) {page : ℕ}
    (hpage : page + pageSize ≤ 2 ^ 39) : FrameBits l (tableEntry ops page) := by
  refine toNat_or_lt (toNat_ofNat_lt (by rw [pageSize] at hpage; omega)) ?_
  rw [← hops.default_low, BitVec.and_comm]
  exact toNat_and_lt _ (by decide)

/-- A call of this kind leaves no bit above the frames. -/
theorem EptCall.frameBits (hops : ops.Lawful) (hpool : ops.info.ptPool = true) (hs : Sound ops s)
    (hroot : SanitizedRoot ops s) {c : EptCall} (hc : c.Admissible ops) (hphys : c.Physical)
    (h : Entries ops FrameBits s) : Entries ops FrameBits (c.run ops s) := by
  have hmod : ∀ {protSet protClr : Word} {type : MrType} {start stop : ℕ} {s' : PgMem},
      protSet.toNat < 2 ^ 52 → WritesOf ops (modKind ops protSet protClr type start stop) s s' →
        Entries ops FrameBits s' := by
    intro protSet protClr type start stop s' hset hwrites
    refine hwrites.entries hops (fun l _ _ => hops.frameBits_tableEntry l) ?_ ?_ h
    · rintro l v old e - ⟨-, -, -, rfl⟩ hold
      exact frameBits_newEntry hset hold
    · rintro l v old f - ⟨-, -, hl, -, rfl⟩ hold i hi
      exact frameBits_splitEntry hops hl hold hi
  obtain ⟨hwin, hclr⟩ := hc
  cases c with
  | add hpa gpa size prot =>
    obtain ⟨haddr, hprot⟩ := hphys
    have hwrites : WritesOf ops (addKind ops (paddrEnd hpa gpa size) (snooped prot)) s _ :=
      mmuAdd_writesOf hops (.inl hpool) hs hwin (.inl hpool) (.inl hpool) (.inl hpool)
    refine hwrites.entries hops (fun l _ _ => hops.frameBits_tableEntry l) ?_ ?_ h
    · rintro l v old e - ⟨-, paddr, hlt, right, hright, he⟩ -
      have hbits : right.toNat < 2 ^ 52 := by
        rcases hright with rfl | rfl
        · exact snooped_lt hprot
        · obtain ⟨exe, -, htweak, -⟩ := hops.exe
          rw [htweak]
          exact toNat_and_lt _ (snooped_lt hprot)
      have hpaddr := toNat_ofNat_lt (hlt.trans_le haddr)
      rcases he with rfl | rfl
      · exact toNat_or_lt hpaddr hbits
      · exact toNat_or_lt hpaddr (toNat_or_lt hbits (by decide))
    · rintro l v old f - ⟨-, rfl⟩ - i -
      have := ops.info.sanitized_le
      exact toNat_ofNat_lt (by rw [pageSize] at this; omega)
  | modify gpa size protSet protClr =>
    exact hmod (snooped_lt hphys)
      (mmuModifyOrDel_writesOf hops (fun _ => hclr) hs (.inl hroot) hwin (.inl hpool) (.inl hpool))
  | del gpa size =>
    exact hmod (by decide) (mmuModifyOrDel_writesOf hops (fun htype => (by cases htype)) hs
      (.inl hroot) hwin (.inl hpool) (.inl hpool))

theorem EptRun.frameBits (hops : ops.Lawful) (hpool : ops.info.ptPool = true)
    (h : EptRun ops s) : Entries ops FrameBits s := by
  induction h with
  | init _ =>
    intro l v hv hlink
    have hl : l = .pml4 := by
      by_contra hl
      exact createEpt_not_linked hops hl hv hlink
    have := ops.info.sanitized_le
    rw [hl, createEpt_entry v hv]
    exact toNat_ofNat_lt (by rw [pageSize] at this; omega)
  | step hrun hc hphys ih =>
    obtain ⟨hs, hroot⟩ := hrun.reachable.sound hops hpool
    exact EptCall.frameBits hops hpool hs hroot hc hphys ih

/-! ## The two traversals -/

/-- The address of an entry tells its block. -/
theorem lookupAddress_inj (hs : Sound ops s) {v v' : ℕ} (hv : v < 2 ^ 48) (hv' : v' < 2 ^ 48)
    {c c' : ℕ × ℕ} (h : lookupAddress ops ops.info.pml4Base v s = some c)
    (h' : lookupAddress ops ops.info.pml4Base v' s = some c') (hc : c.1 = c'.1) :
    v / c.2 = v' / c.2 := by
  rw [lookupAddress_eq hs hv, Option.map_eq_some_iff] at h
  rw [lookupAddress_eq hs hv', Option.map_eq_some_iff] at h'
  obtain ⟨L, hL, rfl⟩ := h
  obtain ⟨L', hL', rfl⟩ := h'
  have hpool := hs.inPool hv (linked_of_leaf hL)
  have hpool' := hs.inPool hv' (linked_of_leaf hL')
  obtain ⟨hlevel, hdiv⟩ := PoolLayout.entryAddr_inj hpool hpool' hc
  rwa [← hlevel] at hdiv

theorem lookupAddress_leaf (hs : Sound ops s) (hbits : Entries ops FrameBits s) {gpa : ℕ}
    (hgpa : gpa < 2 ^ 48) {c : ℕ × ℕ} (h : lookupAddress ops ops.info.pml4Base gpa s = some c) :
    ∃ l : PageTableLevel, l ≠ .pml4 ∧ c.2 = l.size ∧ (s.mem c.1).toNat < 2 ^ 52 := by
  rw [lookupAddress_eq hs hgpa, Option.map_eq_some_iff] at h
  obtain ⟨L, hL, rfl⟩ := h
  refine ⟨L.level, ?_, rfl, hbits L.level gpa hgpa (linked_of_leaf hL)⟩
  intro hl
  have hmaps := (leafOver_some hL).2.2.2
  rw [hl] at hmaps
  exact hmaps

/-- The start of the page that `ept_flush_leaf_page` computes. -/
theorem toNat_frame {l : PageTableLevel} (e : Word) :
    (e &&& ~~~(BitVec.ofNat 64 l.size - 1#64)).toNat = e.toNat / l.size * l.size := by
  have hmask : ~~~(BitVec.ofNat 64 l.size - 1#64) = fieldMask 64 l.shift 64 := by
    cases l <;> decide
  rw [hmask, toNat_and_fieldMask _ (by cases l <;> decide) le_rfl, Nat.mod_eq_of_lt e.isLt]

/-- It is where the translation of the page starts. -/
theorem localGpa2hpa_of_lookup {l : PageTableLevel} (hl : l ≠ .pml4) {c : ℕ × ℕ}
    (hsize : c.2 = l.size) (hbits : (s.mem c.1).toNat < 2 ^ 52) {gpa : ℕ}
    (h : lookupAddress ops ops.info.pml4Base gpa s = some c) :
    (localGpa2hpa ops ops.info.pml4Base gpa s).map BitVec.toNat =
      some ((s.mem c.1).toNat / c.2 * c.2 + gpa % c.2) := by
  obtain ⟨pge, size⟩ := c
  obtain rfl : size = l.size := hsize
  have hhpa := Leaf.hpa_toNat (L := ⟨l, s.mem pge⟩) hl gpa
  rw [Nat.mod_eq_of_lt hbits] at hhpa
  rw [localGpa2hpa, h, Option.map_some, Option.map_some]
  exact congrArg some hhpa

/-- The cache lines flushed for a leaf are those its page is translated to. -/
theorem eptFlushLeafPage_lines {l : PageTableLevel} (hl : l ≠ .pml4) {c : ℕ × ℕ}
    (hsize : c.2 = l.size) (hcached : s.mem c.1 &&& eptMtMask ≠ eptUncached) (hpa : ℕ) :
    (∃ a ∈ eptFlushLeafPage s.mem c.1 c.2, hpa / cacheLineSize = a / cacheLineSize) ↔
      (s.mem c.1).toNat / c.2 * c.2 ≤ hpa ∧ hpa < (s.mem c.1).toNat / c.2 * c.2 + c.2 := by
  have hline : cacheLineSize ∣ c.2 := by
    rw [hsize]
    exact pow_dvd_pow 2 (show 6 ≤ l.shift by cases l <;> decide)
  rw [eptFlushLeafPage, if_pos hcached, hsize, toNat_frame, ← hsize]
  exact flushAddressSpace_lines (hline.trans (Dvd.intro_left _ rfl)) hline hpa

/-- **The walk and the lookup agree.** In every state of an EPT the callback of `walk_ept_table`
is called once for each leaf that `lookup_address` can return and for nothing else, with the size
of the leaf, in the order of the addresses. So flushing the leaves flushes exactly the host pages
that some guest-physical address is translated to, without those that are mapped as uncached. -/
theorem walk_agrees_with_lookup (info : PoolLayout) (hpool : info.ptPool = true)
    (isEptForce4kIpage enforce4kIpage : Bool) {s : PgMem}
    (h : EptRun (initEptMemOps info isEptForce4kIpage enforce4kIpage) s) :
    let ops := initEptMemOps info isEptForce4kIpage enforce4kIpage
    let calls := walkEptTable ops (fun pge size => [(pge, size)]) s
    (∀ (α : Type) (cb : ℕ → ℕ → List α),
      walkEptTable ops cb s = calls.flatMap fun c => cb c.1 c.2) ∧
    (∀ c, c ∈ calls ↔ ∃ gpa, lookupAddress ops info.pml4Base gpa s = some c) ∧
    (calls.map Prod.fst).Nodup ∧
    (∀ c ∈ calls, c.2 = pt.size ∨ c.2 = pd.size ∨ c.2 = pdpt.size) ∧
    (∃ starts : List ℕ, starts.Pairwise (· < ·) ∧
      List.Forall₂ (fun start c => c.2 ∣ start ∧ start + c.2 ≤ 2 ^ 48 ∧ ∀ gpa, start ≤ gpa →
        gpa < start + c.2 → lookupAddress ops info.pml4Base gpa s = some c) starts calls) ∧
    ∀ hpa, (∃ a ∈ walkEptTable ops (eptFlushLeafPage s.mem) s,
        hpa / cacheLineSize = a / cacheLineSize) ↔
      ∃ gpa e size, lookupEntry ops info.pml4Base gpa s = some (e, size) ∧
        e &&& eptMtMask ≠ eptUncached ∧
        (localGpa2hpa ops info.pml4Base gpa s).map BitVec.toNat = some hpa := by
  intro ops calls
  have hops : ops.Lawful := (MemoryOps.Known.ept info _ _ hpool).lawful
  have hs : Sound ops s := (h.reachable.sound hops hpool).1
  have hbits : Entries ops FrameBits s := h.frameBits hops hpool
  have htiles : Tiles (fun v => lookupAddress ops info.pml4Base v s) PageBlock 0 (2 ^ 48) calls :=
    walkCalls_tiles ops info.pml4Base s
  have hwalk : ∀ (α : Type) (cb : ℕ → ℕ → List α),
      walkEptTable ops cb s = calls.flatMap fun c => cb c.1 c.2 :=
    fun α cb => walkPageTable_eq_flatMap ops _ cb s.mem
  have hmem : ∀ c, c ∈ calls ↔ ∃ gpa, lookupAddress ops info.pml4Base gpa s = some c := by
    intro c
    rw [htiles.mem_iff]
    constructor
    · rintro ⟨gpa, -, -, hc⟩
      exact ⟨gpa, hc⟩
    · rintro ⟨gpa, hc⟩
      exact ⟨gpa % 2 ^ 48, Nat.zero_le _, Nat.mod_lt _ (Nat.two_pow_pos _),
        (lookupAddress_mod ops _ gpa s).trans hc⟩
  have hleaf : ∀ c ∈ calls, ∃ l : PageTableLevel,
      l ≠ .pml4 ∧ c.2 = l.size ∧ (s.mem c.1).toNat < 2 ^ 52 := by
    intro c hc
    obtain ⟨gpa, -, hlt, hgpa⟩ := (htiles.mem_iff c).mp hc
    exact lookupAddress_leaf hs hbits hlt hgpa
  refine ⟨hwalk, hmem, ?_, ?_, ?_, ?_⟩
  · refine htiles.nodup_map ?_
    rintro a b v x y hab hb hv ⟨rfl, hdvd⟩ hx hy hxy
    have hdiv : a / x.2 = v / x.2 :=
      lookupAddress_inj hs (hab.trans_le hb) hv hx hy hxy
    obtain ⟨k, rfl⟩ := hdvd
    have hpos : 0 < x.2 := by omega
    rw [Nat.mul_div_cancel_left k hpos] at hdiv
    calc v < x.2 * (v / x.2 + 1) := Nat.lt_mul_div_succ v hpos
      _ = x.2 * k + x.2 := by rw [← hdiv, Nat.mul_succ]
  · intro c hc
    obtain ⟨l, hl, hsize, -⟩ := hleaf c hc
    cases l with
    | pml4 => exact absurd rfl hl
    | pdpt => exact .inr (.inr hsize)
    | pd => exact .inr (.inl hsize)
    | pt => exact .inl hsize
  · obtain ⟨starts, hsorted, hall⟩ := htiles.exists_starts
    refine ⟨starts, hsorted, hall.imp ?_⟩
    rintro start c ⟨-, w, -, hle, ⟨rfl, hdvd⟩, hsome⟩
    exact ⟨hdvd, hle, hsome⟩
  · intro hpa
    rw [hwalk]
    constructor
    · rintro ⟨a, ha, hline⟩
      obtain ⟨c, hc, ha⟩ := List.mem_flatMap.mp ha
      obtain ⟨l, hl, hsize, hframe⟩ := hleaf c hc
      have hcached : s.mem c.1 &&& eptMtMask ≠ eptUncached := by
        by_contra hun
        rw [eptFlushLeafPage, if_neg (not_not.mpr hun)] at ha
        exact List.not_mem_nil ha
      have hin := (eptFlushLeafPage_lines hl hsize hcached hpa).mp ⟨a, ha, hline⟩
      -- the address in the block of the leaf with the offset of `hpa`
      obtain ⟨gpa, -, hlt, hgpa⟩ := (htiles.mem_iff c).mp hc
      obtain ⟨start, stop, -, -, -, ⟨rfl, hdvd⟩, hsome⟩ :=
        htiles.exists_block (Nat.zero_le _) hlt hgpa
      set frame := (s.mem c.1).toNat / c.2 * c.2
      have hgpa' := hsome (start + (hpa - frame)) (by omega) (by omega)
      refine ⟨start + (hpa - frame), s.mem c.1, c.2, ?_, hcached, ?_⟩
      · rw [lookupEntry, hgpa']
        rfl
      · refine (localGpa2hpa_of_lookup hl hsize hframe hgpa').trans (congrArg some ?_)
        obtain ⟨k, rfl⟩ := hdvd
        rw [Nat.mul_add_mod, Nat.mod_eq_of_lt (show hpa - frame < c.2 by omega)]
        exact Nat.add_sub_cancel' hin.1
    · rintro ⟨gpa, e, size, hentry, hcached, hhpa⟩
      rw [lookupEntry, Option.map_eq_some_iff] at hentry
      obtain ⟨c, hgpa, hce⟩ := hentry
      obtain ⟨rfl, rfl⟩ := Prod.mk.inj hce
      have hc := (hmem c).mpr ⟨gpa, hgpa⟩
      obtain ⟨l, hl, hsize, hframe⟩ := hleaf c hc
      obtain rfl := Option.some.inj
        ((localGpa2hpa_of_lookup hl hsize hframe hgpa).symm.trans hhpa)
      have hoff : gpa % c.2 < c.2 := Nat.mod_lt _ (hsize ▸ Nat.two_pow_pos _)
      obtain ⟨a, ha, hline⟩ := (eptFlushLeafPage_lines hl hsize hcached _).mpr
        ⟨Nat.le_add_right _ _, Nat.add_lt_add_left hoff _⟩
      exact ⟨a, List.mem_flatMap.mpr ⟨c, hc, ha⟩, hline⟩

/-- A table with one page: the walk calls back for it. -/
theorem walk_agrees_with_lookup_page :
    let ops := initEptMemOps uosLayout true true
    let s := (EptCall.add 0x40000000 0x0 0x1000 (eptRwx ||| eptWb)).run ops
      (createEpt ops (bootMem ops))
    ∃ c ∈ walkEptTable ops (fun pge size => [(pge, size)]) s,
      lookupAddress ops uosLayout.pml4Base 0x0 s = some c := by
  intro ops s
  have hknown : ops.Known := .ept uosLayout true true rfl
  have hboot := beforeCreate_bootMem ops
  have hrun : EptRun ops s := (EptRun.init hboot).step ⟨by decide, trivial⟩ ⟨by decide, by decide⟩
  have hmap : Mappable ops 0x40000000 0x0 0x1000 (createEpt ops (bootMem ops)) :=
    createEpt_mappable hknown.lawful hboot rfl (by decide)
  have hprot : ProtOk ops (snooped (eptRwx ||| eptWb)) := ⟨by decide, by decide, by decide⟩
  have hhpa : localGpa2hpa ops uosLayout.pml4Base 0x0 s = some _ :=
    hmap.hpa_inside hprot hknown (createEpt_wellFormed hknown.lawful hboot) (by decide) (by decide)
  obtain ⟨c, hc, -⟩ := Option.map_eq_some_iff.mp hhpa
  exact ⟨c, ((walk_agrees_with_lookup uosLayout rfl true true hrun).2.1 c).mpr ⟨0x0, hc⟩, hc⟩

end Acrn
