import Acrn.Pagetable

/-!
# The shape of a table and what it maps

Because a table page is picked by address alone, a well-formed table is
canonical: the entry of level `l` for address `v` can only live in one slot,
`entryAddr l v`. On that footing the four arrays are four flat maps from blocks
to entries; `Linked l v` says which of them a walk for `v` really reads, and
`leaf v` is the entry at which the walk ends.

`Sound` is the invariant behind this: every reachable table reference names the
page its address selects, inside the array. The step lemmas at the end say what
the two kinds of write — a leaf, and a whole new table — do to a walk.
-/

namespace Acrn

open BlockLoop BitField PageTableLevel

/-! ## Canonical addresses

The formula of the page getters is inverted here: which slot belongs to which level and address,
and that two different entries never share one. -/

namespace PageTableLevel

/-- The level and those below it, in the order a walk meets them. -/
def downTo : PageTableLevel → List PageTableLevel
  | pml4 => [pml4, pdpt, pd, pt]
  | pdpt => [pdpt, pd, pt]
  | pd => [pd, pt]
  | pt => [pt]

/-- Each level above the page table has 512 entries, each as large as one table of the next. -/
theorem size_eq {l : PageTableLevel} (h : l ≠ pt) : l.size = ptrsPerTable * l.next.size := by
  cases l
  case pt => exact absurd rfl h
  all_goals simp [size, next, shift, ptrsPerTable]

theorem div_size_next {l : PageTableLevel} (h : l ≠ pt) (v : ℕ) :
    v / l.next.size / ptrsPerTable = v / l.size := by
  rw [Nat.div_div_eq_div_mul, Nat.mul_comm, size_eq h]

theorem div_size_eq {l : PageTableLevel} (h : l ≠ pt) (v : ℕ) :
    v / l.next.size = ptrsPerTable * (v / l.size) + l.next.index v := by
  rw [index, ← div_size_next h v]
  exact (Nat.div_add_mod _ _).symm

theorem index_lt (l : PageTableLevel) (v : ℕ) : l.index v < ptrsPerTable :=
  Nat.mod_lt _ (by decide)

theorem shift_next_lt {l : PageTableLevel} (h : l ≠ pt) : l.next.shift < l.shift := by
  cases l
  case pt => exact absurd rfl h
  all_goals decide

/-- Between a level and the next there is none. -/
theorem shift_lt_next {k l : PageTableLevel} (hl : l ≠ pt) (hk : k.shift < l.shift)
    (hne : k ≠ l.next) : k.shift < l.next.shift := by
  revert hl hk hne
  cases k <;> cases l <;> decide

/-- The shift tells the level. -/
theorem shift_inj {k l : PageTableLevel} (h : k.shift = l.shift) : k = l := by
  revert h
  cases k <;> cases l <;> decide

/-- No two levels have the same next level. -/
theorem next_inj {k l : PageTableLevel} (hl : l ≠ pt) (hk : k ≠ pt) (h : l.next = k.next) :
    l = k := by
  revert hl hk h
  cases k <;> cases l <;> decide

theorem next_ne_pml4 (l : PageTableLevel) : l.next ≠ pml4 := by
  cases l <;> decide

end PageTableLevel

namespace PoolLayout

variable (info : PoolLayout)

/-- The slot of the entry of level `l` for address `v`. -/
def entryAddr (l : PageTableLevel) (v : ℕ) : ℕ := info.base l + 8 * (v / l.size)

/-- The slot lies inside the array of its level. -/
def InPool (l : PageTableLevel) (v : ℕ) : Prop := v / l.size < ptrsPerTable * info.pageNum l

variable {info}

theorem inPool_pml4 {v : ℕ} (h : v < 2 ^ 48) : info.InPool .pml4 v := by
  have : v / 2 ^ 39 < 512 := Nat.div_lt_of_lt_mul (by omega)
  simpa [InPool, PgtablePagesInfo.pageNum, size, shift] using this

theorem inPool_next {l : PageTableLevel} (hl : l ≠ .pt) {v : ℕ}
    (h : v / l.size < info.pageNum l.next) : info.InPool l.next v := by
  have := index_lt l.next v
  rw [InPool, div_size_eq hl]
  simp only [ptrsPerTable] at *
  omega

theorem base_eq_tablePage {l : PageTableLevel} (hl : l ≠ .pt) (v : ℕ) :
    info.tablePage l v + 8 * l.next.index v = info.entryAddr l.next v := by
  rw [tablePage, entryAddr, div_size_eq hl v, pageSize]
  ring

/-- The slot a loop computes for `x` in the table that serves the block of `start`. -/
theorem tablePage_slot (info : PoolLayout) {l : PageTableLevel} (hl : l ≠ .pt) {x start : ℕ}
    (hx : x / l.size = start / l.size) :
    info.tablePage l start + 8 * l.next.index x = info.entryAddr l.next x := by
  rw [← base_eq_tablePage hl, tablePage, tablePage, hx]

/-- An entry whose table is in the pool lies in the pool of its level. -/
theorem entryAddr_lt {l : PageTableLevel} {v : ℕ} (h : info.InPool l v) :
    info.entryAddr l v < info.base l + pageSize * info.pageNum l := by
  rw [InPool, ptrsPerTable] at h
  rw [entryAddr, pageSize]
  omega

/-- Different entries live in different slots. -/
theorem entryAddr_inj {l l' : PageTableLevel} {v v' : ℕ} (h : info.InPool l v)
    (h' : info.InPool l' v') (he : info.entryAddr l v = info.entryAddr l' v') :
    l = l' ∧ v / l.size = v' / l'.size := by
  have hlt := entryAddr_lt h
  have hlt' := entryAddr_lt h'
  have hge : info.base l ≤ info.entryAddr l v := Nat.le_add_right _ _
  have hge' : info.base l' ≤ info.entryAddr l' v' := Nat.le_add_right _ _
  by_cases hl : l = l'
  · subst hl
    rw [entryAddr, entryAddr] at he
    exact ⟨rfl, by omega⟩
  · rcases info.disjoint l l' hl with hd | hd <;> omega

/-- The tables of the pool are whole pages. -/
theorem tablePage_dvd (l : PageTableLevel) (v : ℕ) : pageSize ∣ info.tablePage l v :=
  Nat.dvd_add (info.base_dvd l.next) (Dvd.intro _ rfl)

theorem tablePage_le {l : PageTableLevel} {v : ℕ} (h : v / l.size < info.pageNum l.next) :
    info.tablePage l v + pageSize ≤ 2 ^ 39 := by
  have := info.base_le l.next
  rw [tablePage, pageSize] at *
  omega

/-- Different tables live on different pages. -/
theorem tablePage_inj {l l' : PageTableLevel} {v v' : ℕ} (hl : l ≠ .pt) (hl' : l' ≠ .pt)
    (h : v / l.size < info.pageNum l.next) (h' : v' / l'.size < info.pageNum l'.next)
    (he : info.tablePage l v = info.tablePage l' v') : l = l' ∧ v / l.size = v' / l'.size := by
  have hnext : l.next = l'.next := by
    by_contra hne
    rw [tablePage, tablePage, pageSize] at he
    rcases info.disjoint l.next l'.next hne with hd | hd <;> rw [pageSize] at hd <;> omega
  obtain rfl : l = l' := next_inj hl hl' hnext
  rw [tablePage, tablePage, pageSize] at he
  exact ⟨rfl, by omega⟩

/-- The slots of a table page are those of the entries of the block it serves. -/
theorem entryAddr_mem_tablePage {l l' : PageTableLevel} {v v' : ℕ} (hl : l ≠ .pt)
    (h : v / l.size < info.pageNum l.next) (h' : info.InPool l' v') :
    (info.tablePage l v ≤ info.entryAddr l' v' ∧
        info.entryAddr l' v' < info.tablePage l v + pageSize) ↔
      l' = l.next ∧ v' / l.size = v / l.size := by
  have hlt' := entryAddr_lt h'
  have hge' : info.base l' ≤ info.entryAddr l' v' := Nat.le_add_right _ _
  constructor
  · rintro ⟨h₁, h₂⟩
    have hl' : l' = l.next := by
      by_contra hne
      rw [tablePage, pageSize] at h₁ h₂
      rcases info.disjoint l' l.next hne with hd | hd <;> rw [pageSize] at hd hlt' <;> omega
    subst hl'
    refine ⟨rfl, ?_⟩
    have := index_lt l.next v'
    rw [← base_eq_tablePage hl, tablePage, tablePage] at h₁ h₂
    simp only [pageSize, ptrsPerTable] at h₁ h₂ this
    omega
  · rintro ⟨rfl, hv⟩
    have := index_lt l.next v'
    rw [← base_eq_tablePage hl, tablePage, tablePage, hv]
    simp only [pageSize, ptrsPerTable] at this ⊢
    omega

/-- A block below the served window has its page in the array. -/
theorem div_lt_pageNum {l : PageTableLevel} {v : ℕ} (hl : l ≠ .pt) (h : v < info.window)
    (hp : l = .pd → info.ptPool = true) : v / l.size < info.pageNum l.next := by
  have hround : ∀ k, v / 2 ^ k < (info.window + 2 ^ k - 1) / 2 ^ k := by
    intro k
    have hk := Nat.two_pow_pos k
    rw [← Nat.succ_le_iff, Nat.le_div_iff_mul_le hk, Nat.succ_mul]
    have := Nat.div_mul_le_self v (2 ^ k)
    omega
  cases l with
  | pml4 => exact hround 39
  | pdpt => exact hround 30
  | pd =>
    simp only [next, PgtablePagesInfo.pageNum, hp rfl, if_true]
    exact hround 21
  | pt => exact absurd rfl hl

end PoolLayout

/-! ## Walks

A walk is a recursion on the levels that are left. What it reads depends on the entries above only,
so that a change below an entry that ends the walk is not noticed. -/

variable (ops : MemoryOps) (m : ℕ → Word)

/-- The entry of level `l` for address `v`. -/
def entryAt (l : PageTableLevel) (v : ℕ) : Word := m (ops.info.entryAddr l v)

/-- An entry of level `l`, if present, maps a page rather than referencing a
table. -/
def Maps (l : PageTableLevel) (e : Word) : Prop :=
  match l with
  | .pml4 => False
  | .pt => True
  | _ => entryLarge e ≠ 0#64

instance (l : PageTableLevel) (e : Word) : Decidable (Maps l e) := by
  cases l <;> unfold Maps <;> infer_instance

/-- The entry is present and references a table. -/
def IsTable (l : PageTableLevel) (e : Word) : Prop := ops.pgentryPresent e ≠ 0#64 ∧ ¬ Maps l e

instance (l : PageTableLevel) (e : Word) : Decidable (IsTable ops l e) :=
  inferInstanceAs (Decidable (_ ∧ _))

/-- The walk for `v` reads the entry of level `l`. -/
def Linked (l : PageTableLevel) (v : ℕ) : Prop :=
  match l with
  | .pml4 => True
  | .pdpt => IsTable ops .pml4 (entryAt ops m .pml4 v)
  | .pd => IsTable ops .pml4 (entryAt ops m .pml4 v) ∧ IsTable ops .pdpt (entryAt ops m .pdpt v)
  | .pt => IsTable ops .pml4 (entryAt ops m .pml4 v) ∧
      IsTable ops .pdpt (entryAt ops m .pdpt v) ∧ IsTable ops .pd (entryAt ops m .pd v)

/-- An entry that maps a page, with its level. -/
structure Leaf where
  level : PageTableLevel
  entry : Word
  deriving DecidableEq

/-- The walk for `v` over the given levels: it ends at the first entry that is
absent or maps a page. -/
def leafOver (v : ℕ) : List PageTableLevel → Option Leaf
  | [] => none
  | l :: ls =>
    let e := entryAt ops m l v
    if ops.pgentryPresent e = 0#64 then none
    else if Maps l e then some ⟨l, e⟩
    else leafOver v ls

/-- The end of the walk from level `l` downwards. -/
def leafFrom (l : PageTableLevel) (v : ℕ) : Option Leaf := leafOver ops m v l.downTo

/-- The entry that maps `v`. -/
def leaf (v : ℕ) : Option Leaf := leafFrom ops m .pml4 v

variable {ops m}

/-- One step of the walk, at every level. -/
theorem leafFrom_eq (l : PageTableLevel) (v : ℕ) :
    leafFrom ops m l v =
      if ops.pgentryPresent (entryAt ops m l v) = 0#64 then none
      else if Maps l (entryAt ops m l v) then some ⟨l, entryAt ops m l v⟩
      else leafFrom ops m l.next v := by
  cases l
  case pt => simp [leafFrom, downTo, leafOver, Maps]
  all_goals rfl

/-- A walk that ends does so at a present entry that maps a page. -/
theorem leafOver_some {v : ℕ} {L : Leaf} {ls : List PageTableLevel}
    (h : leafOver ops m v ls = some L) :
    L.level ∈ ls ∧ L.entry = entryAt ops m L.level v ∧ ops.pgentryPresent L.entry ≠ 0#64 ∧
      Maps L.level L.entry := by
  induction ls with
  | nil => cases h
  | cons l ls ih =>
    rw [leafOver] at h
    by_cases hp : ops.pgentryPresent (entryAt ops m l v) = 0#64
    · rw [if_pos hp] at h
      cases h
    · rw [if_neg hp] at h
      by_cases hm : Maps l (entryAt ops m l v)
      · rw [if_pos hm] at h
        cases h
        exact ⟨List.mem_cons_self, rfl, hp, hm⟩
      · rw [if_neg hm] at h
        have := ih h
        exact ⟨List.mem_cons_of_mem _ this.1, this.2⟩

/-- An entry is reached exactly if its table is reached and the entry above points to that table. -/
theorem linked_next {l : PageTableLevel} (hl : l ≠ .pt) (v : ℕ) :
    Linked ops m l.next v ↔ Linked ops m l v ∧ IsTable ops l (entryAt ops m l v) := by
  cases l
  case pt => exact absurd rfl hl
  all_goals simp [Linked, next, and_assoc]

/-- The walk from the root may be started at any level that is reached. -/
theorem leafFrom_of_linked {l : PageTableLevel} {v : ℕ} (h : Linked ops m l v) :
    leaf ops m v = leafFrom ops m l v := by
  have step : ∀ k, IsTable ops k (entryAt ops m k v) →
      leafFrom ops m k v = leafFrom ops m k.next v := by
    intro k hk
    rw [leafFrom_eq, if_neg hk.1, if_neg hk.2]
  cases l with
  | pml4 => rfl
  | pdpt => exact step _ h
  | pd => exact (step _ h.1).trans (step _ h.2)
  | pt => exact (step _ h.1).trans ((step _ h.2.1).trans (step _ h.2.2))

/-- A linked level has every level above it linked. -/
theorem Linked.above {l l' : PageTableLevel} {v : ℕ} (h : Linked ops m l v)
    (hs : l.shift ≤ l'.shift) : Linked ops m l' v := by
  cases l <;> cases l' <;> simp_all [Linked, shift]

/-- Above a reached entry, every entry points to a table. -/
theorem Linked.isTable_above {l k : PageTableLevel} {v : ℕ} (h : Linked ops m l v)
    (hs : l.shift < k.shift) : IsTable ops k (entryAt ops m k v) := by
  cases l <;> cases k <;> simp_all [Linked, shift]

/-- Whether a level is linked depends only on the entries above it. -/
theorem linked_congr {m' : ℕ → Word} {l : PageTableLevel} {v v' : ℕ}
    (h : ∀ k, l.shift < k.shift → Linked ops m k v → entryAt ops m' k v' = entryAt ops m k v) :
    Linked ops m' l v' ↔ Linked ops m l v := by
  have h₄ := h .pml4
  have h₃ := h .pdpt
  have h₂ := h .pd
  cases l with
  | pml4 => exact Iff.rfl
  | pdpt => simp only [Linked, h₄ (by decide) trivial]
  | pd =>
    simp only [Linked, h₄ (by decide) trivial]
    refine and_congr_right fun ht => ?_
    rw [h₃ (by decide) ht]
  | pt =>
    simp only [Linked, h₄ (by decide) trivial]
    refine and_congr_right fun ht => ?_
    rw [h₃ (by decide) ht]
    refine and_congr_right fun ht' => ?_
    rw [h₂ (by decide) ⟨ht, ht'⟩]

/-- A walk whose entries are unchanged ends where it did. -/
theorem leaf_congr {m' : ℕ → Word} {v : ℕ}
    (h : ∀ k, Linked ops m k v → entryAt ops m' k v = entryAt ops m k v) :
    leaf ops m' v = leaf ops m v := by
  have step : ∀ k, Linked ops m k v →
      (IsTable ops k (entryAt ops m k v) → leafFrom ops m' k.next v = leafFrom ops m k.next v) →
      leafFrom ops m' k v = leafFrom ops m k v := by
    intro k hk hrec
    rw [leafFrom_eq, leafFrom_eq (m := m), h k hk]
    by_cases hp : ops.pgentryPresent (entryAt ops m k v) = 0#64
    · rw [if_pos hp, if_pos hp]
    · by_cases hm : Maps k (entryAt ops m k v)
      · rw [if_neg hp, if_neg hp, if_pos hm, if_pos hm]
      · rw [if_neg hp, if_neg hp, if_neg hm, if_neg hm]
        exact hrec ⟨hp, hm⟩
  refine step .pml4 trivial fun h₄ => step .pdpt h₄ fun h₃ => step .pd ⟨h₄, h₃⟩ fun h₂ =>
    step .pt ⟨h₄, h₃, h₂⟩ fun ht => absurd trivial ht.2

/-! ## The end of a walk -/

/-- The entry at which the walk for `v` ends, whether it is present or not. -/
def walkEnd (ops : MemoryOps) (m : ℕ → Word) (v : ℕ) : Leaf :=
  if IsTable ops .pml4 (entryAt ops m .pml4 v) then
    if IsTable ops .pdpt (entryAt ops m .pdpt v) then
      if IsTable ops .pd (entryAt ops m .pd v) then ⟨.pt, entryAt ops m .pt v⟩
      else ⟨.pd, entryAt ops m .pd v⟩
    else ⟨.pdpt, entryAt ops m .pdpt v⟩
  else ⟨.pml4, entryAt ops m .pml4 v⟩

/-- The walk ends at the first entry that points to no table. -/
theorem walkEnd_of_entry {l : PageTableLevel} {v : ℕ} (h : Linked ops m l v)
    (hnt : ¬ IsTable ops l (entryAt ops m l v)) : walkEnd ops m v = ⟨l, entryAt ops m l v⟩ := by
  cases l with
  | pml4 => rw [walkEnd, if_neg hnt]
  | pdpt => rw [walkEnd, if_pos (show IsTable ops .pml4 _ from h), if_neg hnt]
  | pd => rw [walkEnd, if_pos h.1, if_pos h.2, if_neg hnt]
  | pt => rw [walkEnd, if_pos h.1, if_pos h.2.1, if_pos h.2.2]

/-- Every walk ends: the entries of the lowest level point to no table. -/
theorem exists_walkEnd (ops : MemoryOps) (m : ℕ → Word) (v : ℕ) :
    ∃ l, Linked ops m l v ∧ ¬ IsTable ops l (entryAt ops m l v) := by
  by_cases h₄ : IsTable ops .pml4 (entryAt ops m .pml4 v)
  · by_cases h₃ : IsTable ops .pdpt (entryAt ops m .pdpt v)
    · by_cases h₂ : IsTable ops .pd (entryAt ops m .pd v)
      · exact ⟨.pt, ⟨h₄, h₃, h₂⟩, fun h => h.2 trivial⟩
      · exact ⟨.pd, ⟨h₄, h₃⟩, h₂⟩
    · exact ⟨.pdpt, h₄, h₃⟩
  · exact ⟨.pml4, trivial, h₄⟩

/-- The walk ends at the same entry for every address of a block that ends it. -/
theorem leaf_of_entry {l₀ : PageTableLevel} {v : ℕ} (hlink : Linked ops m l₀ v) {e : Word}
    (he : entryAt ops m l₀ v = e) (hnt : ¬ IsTable ops l₀ e) :
    leaf ops m v = if ops.pgentryPresent e = 0#64 then none else some ⟨l₀, e⟩ := by
  rw [leafFrom_of_linked hlink, leafFrom_eq, he]
  by_cases hp : ops.pgentryPresent e = 0#64
  · rw [if_pos hp, if_pos hp]
  · have hm : Maps l₀ e := by
      by_contra hm
      exact hnt ⟨hp, hm⟩
    rw [if_neg hp, if_neg hp, if_pos hm]

/-- Where the walk ends at a present entry, that entry is the leaf. -/
theorem leaf_of_present {l : PageTableLevel} {v : ℕ} (hlink : Linked ops m l v)
    (hnt : ¬ IsTable ops l (entryAt ops m l v))
    (hpresent : ops.pgentryPresent (entryAt ops m l v) ≠ 0#64) :
    leaf ops m v = some ⟨l, entryAt ops m l v⟩ := by
  rw [leaf_of_entry hlink rfl hnt, if_neg hpresent]

/-- A leaf is reached. -/
theorem linked_of_leaf {v : ℕ} {L : Leaf} (h : leaf ops m v = some L) :
    Linked ops m L.level v := by
  obtain ⟨l, hlink, hnt⟩ := exists_walkEnd ops m v
  rw [leaf_of_entry hlink rfl hnt] at h
  split at h
  · cases h
  · obtain rfl := Option.some.inj h
    exact hlink

/-- The address is mapped when that entry is present. -/
theorem leaf_eq_walkEnd (ops : MemoryOps) (m : ℕ → Word) (v : ℕ) :
    leaf ops m v = if ops.pgentryPresent (walkEnd ops m v).entry = 0#64 then none
      else some (walkEnd ops m v) := by
  obtain ⟨l, hlink, hnt⟩ := exists_walkEnd ops m v
  rw [leaf_of_entry hlink rfl hnt, walkEnd_of_entry hlink hnt]

/-- The walk looks at the entries it passes and at nothing else. -/
theorem walkEnd_congr {m' : ℕ → Word} {v : ℕ}
    (h : ∀ k, Linked ops m k v → entryAt ops m' k v = entryAt ops m k v) :
    walkEnd ops m' v = walkEnd ops m v := by
  obtain ⟨l, hlink, hnt⟩ := exists_walkEnd ops m v
  have hlink' : Linked ops m' l v := (linked_congr fun k _ hk => h k hk).mpr hlink
  rw [walkEnd_of_entry hlink hnt, walkEnd_of_entry hlink' (by rwa [h l hlink]), h l hlink]

/-! ## Addresses of one block -/

/-- Two addresses in one block of a level are in one block of every level above. -/
theorem div_size_of_le {l k : PageTableLevel} {v v' : ℕ} (h : l.shift ≤ k.shift)
    (hv : v / l.size = v' / l.size) : v / k.size = v' / k.size := by
  have hsize : k.size = l.size * 2 ^ (k.shift - l.shift) := by
    rw [size, size, ← Nat.pow_add, Nat.add_sub_cancel' h]
  rw [hsize, ← Nat.div_div_eq_div_mul, hv, Nat.div_div_eq_div_mul]

theorem entryAt_block {l k : PageTableLevel} {v v' : ℕ} (h : l.shift ≤ k.shift)
    (hv : v / l.size = v' / l.size) : entryAt ops m k v = entryAt ops m k v' := by
  rw [entryAt, entryAt, PoolLayout.entryAddr, PoolLayout.entryAddr, div_size_of_le h hv]

/-- All addresses of a block share the tables down to the entry of the block. -/
theorem linked_block {l : PageTableLevel} {v v' : ℕ} (hv : v / l.size = v' / l.size) :
    Linked ops m l v ↔ Linked ops m l v' :=
  linked_congr fun _ hk _ => entryAt_block (Nat.le_of_lt hk) hv

/-- They also share the table below that entry. -/
theorem linked_next_block {l : PageTableLevel} (hl : l ≠ .pt) {v v' : ℕ}
    (hv : v / l.size = v' / l.size) : Linked ops m l.next v ↔ Linked ops m l.next v' := by
  rw [linked_next hl, linked_next hl, linked_block hv, entryAt_block le_rfl hv]

end Acrn
