import Acrn.TableStep

/-!
# Every operation keeps the table pool in order

The arrays of table pages have no free list: a page is picked by address and
zeroed without looking. That this never hits a live table does not depend on
what the operations are asked to map, only on the shape of what they write. So
`Evolves` is shown for every operation over arbitrary ranges, free or not, and
arbitrary rights; the one thing that matters is that a modification does not
clear `PAGE_PS`, which would turn a large page into a table reference.
-/

namespace Acrn

open BlockLoop BitField PageTableLevel

/-! ## What every operation preserves

`Evolves` is a preorder on the states of a table. It has what a later walk may rely on: tables stay
where they are, and a page that was handed out was not in use. -/

/-- From `s` to `s'` the table stayed canonical, no table was unlinked, an entry
of the root was changed only to reference a table, and the sanitized page was
left alone. -/
structure Evolves (ops : MemoryOps) (s s' : PgMem) : Prop where
  sound : Sound ops s'
  linked : ∀ k v, v < 2 ^ 48 → Linked ops s.mem k v → Linked ops s'.mem k v
  root : ∀ v, v < 2 ^ 48 → entryAt ops s'.mem .pml4 v = entryAt ops s.mem .pml4 v ∨
    ops.pgentryPresent (entryAt ops s'.mem .pml4 v) ≠ 0#64
  sanitized : ∀ a, ops.info.sanitizedPage ≤ a → a < ops.info.sanitizedPage + pageSize →
    s'.mem a = s.mem a

variable {ops : MemoryOps} {s s' s'' : PgMem}

theorem Evolves.refl (h : Sound ops s) : Evolves ops s s :=
  ⟨h, fun _ _ _ hk => hk, fun _ _ => Or.inl rfl, fun _ _ _ => rfl⟩

theorem Evolves.trans (h : Evolves ops s s') (h' : Evolves ops s' s'') : Evolves ops s s'' := by
  refine ⟨h'.sound, fun k v hv hk => h'.linked k v hv (h.linked k v hv hk), ?_, ?_⟩
  · intro v hv
    rcases h'.root v hv with he | he
    · rw [he]
      exact h.root v hv
    · exact Or.inr he
  · intro a ha ha'
    rw [h'.sanitized a ha ha', h.sanitized a ha ha']

/-- The sanitized page lies outside of the arrays, so no entry of a table is on it. -/
theorem PoolLayout.ne_entryAddr {info : PoolLayout} {l : PageTableLevel} {v a : ℕ}
    (h : info.InPool l v) (ha : info.sanitizedPage ≤ a)
    (ha' : a < info.sanitizedPage + pageSize) : a ≠ info.entryAddr l v := by
  have hlt := entryAddr_lt h
  have hge : info.base l ≤ info.entryAddr l v := Nat.le_add_right _ _
  rcases info.sanitized_disjoint l with hd | hd <;> omega

/-! ## The two writes -/

/-- A leaf is written below the root. -/
theorem setLeaf_evolves (hs : Sound ops s) {l₀ : PageTableLevel} (hl₀ : l₀ ≠ .pml4) {v₀ : ℕ}
    (hv₀ : v₀ < 2 ^ 48) (hlink : Linked ops s.mem l₀ v₀)
    (hold : ¬ IsTable ops l₀ (entryAt ops s.mem l₀ v₀)) {e : Word} (hnew : ¬ IsTable ops l₀ e) :
    Evolves ops s (s.setPgentry (ops.info.entryAddr l₀ v₀) e) := by
  obtain ⟨hs', hframe, -, hlinked⟩ := setLeaf_spec hs hv₀ hlink hold hnew rfl
  refine ⟨hs', fun k v hv hk => (hlinked k v hv).mpr hk, ?_, ?_⟩
  · intro v hv
    refine Or.inl (hframe v .pml4 hv (Or.inl ?_) trivial)
    cases l₀
    case pml4 => exact absurd rfl hl₀
    all_goals decide
  · intro a ha ha'
    exact Function.update_of_ne (PoolLayout.ne_entryAddr (hs.inPool hv₀ hlink) ha ha') ..

/-- A table is linked. -/
theorem linkTable_evolves (hops : ops.Lawful) (hs : Sound ops s) {l₀ : PageTableLevel}
    (hl₀ : l₀ ≠ .pt) {v₀ : ℕ} (hv₀ : v₀ < 2 ^ 48) (hlink : Linked ops s.mem l₀ v₀)
    (hold : ¬ IsTable ops l₀ (entryAt ops s.mem l₀ v₀))
    (hpage : v₀ / l₀.size < ops.info.pageNum l₀.next) {f : ℕ → Word}
    (hf : ∀ i < ptrsPerTable, ¬ IsTable ops l₀.next (f i)) :
    Evolves ops s (linkTable ops l₀ v₀ (ops.info.entryAddr l₀ v₀) f s) := by
  obtain ⟨hs', hframe, -, hlinked⟩ := linkTable_spec hops hs hl₀ hv₀ hlink hold hpage hf rfl
  have hpool := hs.inPool hv₀ hlink
  refine ⟨hs', fun k v hv hk => (hlinked k v hv).mpr (Or.inl hk), ?_, ?_⟩
  · intro v hv
    by_cases hc : l₀ = .pml4 ∧ v / size .pml4 = v₀ / size .pml4
    · obtain ⟨rfl, hvv⟩ := hc
      right
      rw [entryAt_linkTable hl₀ (PoolLayout.inPool_pml4 hv) hpool hpage, if_pos ⟨rfl, hvv⟩]
      exact tableEntry_present hops _
    · left
      refine hframe v .pml4 hv ?_ trivial
      by_cases hl : l₀ = .pml4
      · subst hl
        exact Or.inr fun hm => hc ⟨rfl, hm⟩
      · cases l₀
        case pml4 => exact absurd rfl hl
        all_goals exact Or.inl (by decide)
  · intro a ha ha'
    have hfill : ∀ i < ptrsPerTable, a ≠ ops.info.tablePage l₀ v₀ + 8 * i := by
      intro i hi
      have := ops.info.sanitized_disjoint l₀.next
      simp only [PoolLayout.tablePage, pageSize, ptrsPerTable] at *
      omega
    have hzero : ¬ (ops.info.tablePage l₀ v₀ ≤ a ∧ a < ops.info.tablePage l₀ v₀ + pageSize) := by
      have := ops.info.sanitized_disjoint l₀.next
      simp only [PoolLayout.tablePage, pageSize] at *
      omega
    rw [linkTable, PgMem.setPgentry]
    refine (Function.update_of_ne (PoolLayout.ne_entryAddr hpool ha ha') ..).trans ?_
    rw [fillPage_mem_other _ _ _ hfill]
    exact if_neg hzero

/-! ## Sequences of writes

The operations are loops within loops. What holds of a sequence of writes does not depend on how
they are nested, so it is enough to know which writes an operation makes (`WriteKind`). -/

/-- `s'` comes from `s` by writes of the two kinds. Every operation on a table is of this
form, so an invariant of a table need only be checked for single writes. -/
inductive Writes (ops : MemoryOps) (s : PgMem) : PgMem → Prop where
  | refl : Sound ops s → Writes ops s s
  | leaf {t : PgMem} {l₀ : PageTableLevel} {v₀ : ℕ} {e : Word} : Writes ops s t → l₀ ≠ .pml4 →
      v₀ < 2 ^ 48 → Linked ops t.mem l₀ v₀ → ¬ IsTable ops l₀ (entryAt ops t.mem l₀ v₀) →
      ¬ IsTable ops l₀ e → Writes ops s (t.setPgentry (ops.info.entryAddr l₀ v₀) e)
  | table {t : PgMem} {l₀ : PageTableLevel} {v₀ : ℕ} {f : ℕ → Word} : Writes ops s t → l₀ ≠ .pt →
      v₀ < 2 ^ 48 → Linked ops t.mem l₀ v₀ → ¬ IsTable ops l₀ (entryAt ops t.mem l₀ v₀) →
      v₀ / l₀.size < ops.info.pageNum l₀.next →
      (∀ i < ptrsPerTable, ¬ IsTable ops l₀.next (f i)) →
      Writes ops s (linkTable ops l₀ v₀ (ops.info.entryAddr l₀ v₀) f t)

namespace Writes

/-- A sequence of writes is an evolution, since each write is one, -/
theorem evolves (hops : ops.Lawful) (h : Writes ops s s') : Evolves ops s s' := by
  induction h with
  | refl hs => exact .refl hs
  | leaf _ hl₀ hv₀ hlink hold hnew ih =>
    exact ih.trans (setLeaf_evolves ih.sound hl₀ hv₀ hlink hold hnew)
  | table _ hl₀ hv₀ hlink hold hpage hf ih =>
    exact ih.trans (linkTable_evolves hops ih.sound hl₀ hv₀ hlink hold hpage hf)

/-- and it ends in a table that is in order. -/
theorem sound (hops : ops.Lawful) (h : Writes ops s s') : Sound ops s' := (h.evolves hops).sound

end Writes

/-- Which writes an operation makes: the level, the address, the old entry, and the new entry or
the content of the new table. -/
structure WriteKind where
  leaf : PageTableLevel → ℕ → Word → Word → Prop
  table : PageTableLevel → ℕ → Word → (ℕ → Word) → Prop

/-- `s'` comes from `s` by writes of one kind. -/
inductive WritesOf (ops : MemoryOps) (kind : WriteKind) (s : PgMem) : PgMem → Prop where
  | refl : Sound ops s → WritesOf ops kind s s
  | leaf {t : PgMem} {l₀ : PageTableLevel} {v₀ : ℕ} {e : Word} : WritesOf ops kind s t →
      l₀ ≠ .pml4 → v₀ < 2 ^ 48 → Linked ops t.mem l₀ v₀ →
      ¬ IsTable ops l₀ (entryAt ops t.mem l₀ v₀) → ¬ IsTable ops l₀ e →
      kind.leaf l₀ v₀ (entryAt ops t.mem l₀ v₀) e →
      WritesOf ops kind s (t.setPgentry (ops.info.entryAddr l₀ v₀) e)
  | table {t : PgMem} {l₀ : PageTableLevel} {v₀ : ℕ} {f : ℕ → Word} : WritesOf ops kind s t →
      l₀ ≠ .pt → v₀ < 2 ^ 48 → Linked ops t.mem l₀ v₀ →
      ¬ IsTable ops l₀ (entryAt ops t.mem l₀ v₀) → v₀ / l₀.size < ops.info.pageNum l₀.next →
      (∀ i < ptrsPerTable, ¬ IsTable ops l₀.next (f i)) →
      kind.table l₀ v₀ (entryAt ops t.mem l₀ v₀) f →
      WritesOf ops kind s (linkTable ops l₀ v₀ (ops.info.entryAddr l₀ v₀) f t)

namespace WritesOf

variable {kind : WriteKind}

theorem trans (h : WritesOf ops kind s s') (h' : WritesOf ops kind s' s'') :
    WritesOf ops kind s s'' := by
  induction h' with
  | refl _ => exact h
  | leaf _ hl₀ hv₀ hlink hold hnew hk ih => exact ih.leaf hl₀ hv₀ hlink hold hnew hk
  | table _ hl₀ hv₀ hlink hold hpage hf hk ih => exact ih.table hl₀ hv₀ hlink hold hpage hf hk

/-- What kind of writes they are may be forgotten. -/
theorem writes (h : WritesOf ops kind s s') : Writes ops s s' := by
  induction h with
  | refl hs => exact .refl hs
  | leaf _ hl₀ hv₀ hlink hold hnew _ ih => exact ih.leaf hl₀ hv₀ hlink hold hnew
  | table _ hl₀ hv₀ hlink hold hpage hf _ ih => exact ih.table hl₀ hv₀ hlink hold hpage hf

theorem evolves (hops : ops.Lawful) (h : WritesOf ops kind s s') : Evolves ops s s' :=
  h.writes.evolves hops

theorem sound (hops : ops.Lawful) (h : WritesOf ops kind s s') : Sound ops s' :=
  (h.evolves hops).sound

end WritesOf

/-! ## Invariants of single entries -/

/-- Every entry that a walk can meet has a property, which may depend on its level. -/
def Entries (ops : MemoryOps) (P : PageTableLevel → Word → Prop) (s : PgMem) : Prop :=
  ∀ l v, v < 2 ^ 48 → Linked ops s.mem l v → P l (entryAt ops s.mem l v)

namespace Entries

variable {P : PageTableLevel → Word → Prop}

/-- A write to an entry concerns the property of that entry only. -/
theorem setLeaf (h : Entries ops P s) (hs : Sound ops s) {l₀ : PageTableLevel} {v₀ : ℕ}
    (hv₀ : v₀ < 2 ^ 48) (hlink : Linked ops s.mem l₀ v₀)
    (hold : ¬ IsTable ops l₀ (entryAt ops s.mem l₀ v₀)) {e : Word} (hnew : ¬ IsTable ops l₀ e)
    (he : P l₀ e) : Entries ops P (s.setPgentry (ops.info.entryAddr l₀ v₀) e) := by
  obtain ⟨-, -, -, hlinked⟩ := setLeaf_spec hs hv₀ hlink hold hnew rfl
  intro l v hv hlv
  have hlv' := (hlinked l v hv).mp hlv
  rw [entryAt_setPgentry (hs.inPool hv hlv') (hs.inPool hv₀ hlink)]
  split
  · next hslot => exact hslot.1 ▸ he
  · exact h l v hv hlv'

/-- A fresh table brings new entries, all of which must have the property, and so must the entry
that references it. -/
theorem linkTable (h : Entries ops P s) {l₀ : PageTableLevel} {v₀ : ℕ} {f : ℕ → Word}
    (hnew : NewTable ops s s' l₀ v₀ f) (hentry : P l₀ (tableEntry ops (ops.info.tablePage l₀ v₀)))
    (hf : ∀ i < ptrsPerTable, P l₀.next (f i)) : Entries ops P s' := by
  intro l v hv hlv
  rw [hnew.entryAt_eq (hnew.sound_after.inPool hv hlv)]
  split
  · next hslot => exact hslot.1 ▸ hentry
  · split
    · next hbelow => exact hbelow.1 ▸ hf _ (index_lt _ _)
    · next hbelow =>
      rcases (hnew.linked_iff l hv).mp hlv with hlv | hlv
      · exact h l v hv hlv
      · exact absurd hlv hbelow

end Entries

/-- What every write of a kind keeps is kept by a sequence of them. -/
theorem WritesOf.entries (hops : ops.Lawful) {kind : WriteKind} {P : PageTableLevel → Word → Prop}
    (htable : ∀ l page, l ≠ .pt → page + pageSize ≤ 2 ^ 39 → P l (tableEntry ops page))
    (hleaf : ∀ l v old e, l ≠ .pml4 → kind.leaf l v old e → P l old → P l e)
    (hpage : ∀ l v old f, l ≠ .pt → kind.table l v old f → P l old →
      ∀ i < ptrsPerTable, P l.next (f i))
    (h : WritesOf ops kind s s') (hP : Entries ops P s) : Entries ops P s' := by
  induction h with
  | refl _ => exact hP
  | leaf hw hl₀ hv₀ hlink hold hnew hkind ih =>
    exact ih.setLeaf (hw.sound hops) hv₀ hlink hold hnew
      (hleaf _ _ _ _ hl₀ hkind (ih _ _ hv₀ hlink))
  | table hw hl₀ hv₀ hlink hold hpn hf hkind ih =>
    exact ih.linkTable ⟨hops, hw.sound hops, hl₀, hv₀, hlink, hold, hpn, hf, rfl⟩
      (htable _ _ hl₀ (PoolLayout.tablePage_le hpn))
      (hpage _ _ _ _ hl₀ hkind (ih _ _ hv₀ hlink))

/-! ## Fresh tables and split pages -/

/-- The entry `construct_pgentry` fills a table with. -/
def sanitizedEntry (ops : MemoryOps) : Word := BitVec.ofNat 64 ops.info.sanitizedPage

theorem sanitizedEntry_absent (hops : ops.Lawful) :
    ops.pgentryPresent (sanitizedEntry ops) = 0#64 :=
  hops.present_ofNat ops.info.sanitized_dvd

theorem not_isTable_sanitizedEntry (hops : ops.Lawful) (l : PageTableLevel) :
    ¬ IsTable ops l (sanitizedEntry ops) := fun h => h.1 (sanitizedEntry_absent hops)

/-- The `i`-th entry of the table that replaces the large entry `e`. -/
def splitEntry (ops : MemoryOps) (level : PageTableLevel) (e : Word) (i : ℕ) : Word :=
  match level with
  | .pdpt => ((e &&& pdptePaddrMask) + BitVec.ofNat 64 (i * pd.size)) ||| (e &&& protMask)
  | _ => ((e &&& pdePaddrMask) + BitVec.ofNat 64 (i * pt.size)) |||
      ops.recoverExeRight (e &&& protMask &&& ~~~pagePs)

/-- `split_large_page` is the link of a table of pieces. -/
theorem splitLargePage_eq {l : PageTableLevel} (hl : l = .pdpt ∨ l = .pd) (pte v : ℕ) :
    splitLargePage ops pte l v s = linkTable ops l v pte (splitEntry ops l (s.mem pte)) s := by
  rcases hl with rfl | rfl <;> rfl

/-- A split page has no table below it either: a piece of a 1-GByte page is large
itself, and a 4-KByte piece cannot reference a table. -/
theorem not_isTable_splitEntry (ops : MemoryOps) {l : PageTableLevel} (hl : l = .pdpt ∨ l = .pd)
    {e : Word}
    (he : entryLarge e ≠ 0#64) (i : ℕ) : ¬ IsTable ops l.next (splitEntry ops l e i) := by
  rintro ⟨-, hm⟩
  apply hm
  rcases hl with rfl | rfl
  · refine or_and_ne_zero ?_
    rwa [BitVec.and_assoc, show protMask &&& pagePs = pagePs by decide]
  · trivial

/-! ## Single steps of the walkers

A write is of the first kind if the entry is no table reference, neither the old one nor the new.
Here it is shown of what the walkers store. -/

/-- The test for a large page, as the walk has it. -/
theorem entryLarge_maps {l : PageTableLevel} (hl : l = .pdpt ∨ l = .pd) (e : Word) :
    Maps l e ↔ entryLarge e ≠ 0#64 := by
  rcases hl with rfl | rfl <;> rfl

theorem not_isTable_of_absent {l : PageTableLevel} {e : Word}
    (h : ops.pgentryPresent e = 0#64) : ¬ IsTable ops l e := fun ht => ht.1 h

theorem not_isTable_of_large {l : PageTableLevel} (hl : l = .pdpt ∨ l = .pd) {e : Word}
    (h : entryLarge e ≠ 0#64) : ¬ IsTable ops l e :=
  fun ht => ht.2 ((entryLarge_maps hl e).mpr h)

/-- What `local_modify_or_del_pte` stores. -/
def newEntry (ops : MemoryOps) (protSet protClr : Word) (type : MrType) (e : Word) : Word :=
  match type with
  | .modify => (e &&& ~~~protClr) ||| protSet
  | .del => sanitizedEntry ops

theorem localModifyOrDelPte_eq (pte : ℕ) (protSet protClr : Word) (type : MrType) :
    localModifyOrDelPte ops pte protSet protClr type s =
      s.setPgentry pte (newEntry ops protSet protClr type (s.mem pte)) := by
  cases type <;> rfl

/-- A large entry stays one, unless the modification clears `PAGE_PS`. -/
theorem newEntry_large (ops : MemoryOps) (protSet : Word) {protClr : Word}
    (hclr : protClr &&& pagePs = 0#64) {e : Word}
    (he : entryLarge e ≠ 0#64) : entryLarge (newEntry ops protSet protClr .modify e) ≠ 0#64 := by
  rw [entryLarge, newEntry, BitVec.or_comm]
  refine or_and_ne_zero ?_
  rwa [BitVec.and_assoc, not_and_of_disjoint hclr]

/-- A modification makes no table reference of a page, as long as `PAGE_PS` is not cleared. -/
theorem not_isTable_newEntry (hops : ops.Lawful) {l : PageTableLevel} (hl : l ≠ .pml4)
    {protSet protClr : Word} {type : MrType}
    (hclr : type = .modify → protClr &&& pagePs = 0#64) {e : Word}
    (he : l = .pt ∨ entryLarge e ≠ 0#64) :
    ¬ IsTable ops l (newEntry ops protSet protClr type e) := by
  cases type with
  | del => exact not_isTable_sanitizedEntry hops l
  | modify =>
    rcases he with rfl | he
    · exact fun ht => ht.2 trivial
    · have := newEntry_large ops protSet (hclr rfl) he
      cases l with
      | pml4 => exact absurd rfl hl
      | pdpt => exact not_isTable_of_large (Or.inl rfl) this
      | pd => exact not_isTable_of_large (Or.inr rfl) this
      | pt => exact fun ht => ht.2 trivial

/-! ## `mmu_add` -/

/-- The writes of `mmu_add`: an absent entry gets an address below `limit` and a right that was
asked for, or a table that is sanitized. -/
def addKind (ops : MemoryOps) (limit : ℕ) (prot : Word) : WriteKind where
  leaf _ _ old new := ops.pgentryPresent old = 0#64 ∧ ∃ paddr < limit, ∃ right,
    (right = prot ∨ right = ops.tweakExeRight prot) ∧
      (new = BitVec.ofNat 64 paddr ||| right ∨ new = BitVec.ofNat 64 paddr ||| (right ||| pagePs))
  table _ _ old f := ops.pgentryPresent old = 0#64 ∧ f = fun _ => sanitizedEntry ops

/-- Where there are no page tables, the address is that of a 2-MByte block. -/
def BlockAligned (ops : MemoryOps) (a : ℕ) : Prop := ops.info.ptPool = true ∨ 2 ^ 21 ∣ a

theorem BlockAligned.of_dvd {l : PageTableLevel} (hl : l ≠ .pt) {a : ℕ} (h : l.size ∣ a) :
    BlockAligned ops a := by
  refine .inr (Dvd.dvd.trans (pow_dvd_pow 2 ?_) h)
  cases l
  case pt => exact absurd rfl hl
  all_goals decide

theorem BlockAligned.min {a b : ℕ} (ha : BlockAligned ops a) (hb : BlockAligned ops b) :
    BlockAligned ops (min a b) := by
  rcases min_choice a b with h | h <;> rw [h]
  · exact ha
  · exact hb

theorem BlockAligned.add_sub {a b c : ℕ} (ha : BlockAligned ops a) (hb : BlockAligned ops b)
    (hc : BlockAligned ops c) : BlockAligned ops (a + (b - c)) := by
  rcases ha with ha | ha
  · exact .inl ha
  rcases hb with hb | hb
  · exact .inl hb
  rcases hc with hc | hc
  · exact .inl hc
  exact .inr (Nat.dvd_add ha (Nat.dvd_sub hb hc))

/-- A table of 2-MByte pages is asked for a page table only where there is one. -/
theorem ptPool_of_small {x stop : ℕ} (hx : BlockAligned ops x) (hstop : BlockAligned ops stop)
    (hlt : x < stop)
    (h : memAlignedCheck x pd.shift = false ∨ stop < nextBlock pd.shift x) :
    ops.info.ptPool = true := by
  rcases hx with hx | hx
  · exact hx
  rcases hstop with hstop | hstop
  · exact hstop
  exfalso
  rcases h with h | h
  · have hcheck : memAlignedCheck x pd.shift = true := beq_iff_eq.mpr (Nat.mod_eq_zero_of_dvd hx)
    rw [hcheck] at h
    cases h
  · rw [nextBlock, shift] at h
    omega

/-- Where no large page fits there are page tables. -/
theorem ptPool_of_not_large {paddr x stop : ℕ}
    (hlarge : ops.info.ptPool = true ∨ ops.largePageEnabled = true)
    (hpaddr : BlockAligned ops paddr) (hx : BlockAligned ops x) (hstop : BlockAligned ops stop)
    (hlt : x < stop)
    (h : ¬ (ops.largePageEnabled = true ∧ memAlignedCheck paddr pd.shift = true ∧
      memAlignedCheck x pd.shift = true ∧ nextBlock pd.shift x ≤ stop)) :
    ops.info.ptPool = true := by
  rcases hlarge with hpool | hlarge
  · exact hpool
  rcases hpaddr with hpool | hpaddr
  · exact hpool
  by_contra hpool
  have hcheck : memAlignedCheck paddr pd.shift = true := beq_iff_eq.mpr (Nat.mod_eq_zero_of_dvd hpaddr)
  refine h ⟨hlarge, hcheck, ?_, ?_⟩
  · by_contra hne
    exact hpool (ptPool_of_small hx hstop hlt (.inl (Bool.eq_false_iff.mpr hne)))
  · by_contra hgt
    exact hpool (ptPool_of_small hx hstop hlt (.inr (Nat.lt_of_not_le hgt)))

/-- Each slot of a page table is the slot of some address of its block. -/
theorem exists_slot (ops : MemoryOps) (v : ℕ) {i : ℕ} (hi : i < ptrsPerTable) :
    ∃ u, u / pd.size = v / pd.size ∧
      ops.info.tablePage .pd v + 8 * i = ops.info.entryAddr .pt u := by
  refine ⟨v / pd.size * pd.size + pt.size * i, ?_, ?_⟩
  · simp only [size, shift, ptrsPerTable] at *
    omega
  · simp only [PoolLayout.tablePage, PoolLayout.entryAddr, next, size, shift, ptrsPerTable,
      pageSize] at *
    omega

/-- The loop of `add_pte` writes leaves only. An entry that is present is left alone. -/
theorem addPteLoop_writes (hops : ops.Lawful) {v₀ : ℕ} (hv₀ : v₀ < 2 ^ 48) (stop : ℕ) {limit : ℕ}
    {prot right : Word} (hright : right = prot ∨ right = ops.tweakExeRight prot) :
    ∀ n vaddr paddr s, n ≤ ptrsPerTable → vaddr < stop → paddr + (stop - vaddr) ≤ limit →
      Sound ops s → Linked ops s.mem .pt v₀ →
      WritesOf ops (addKind ops limit prot) s
        (addPteLoop ops (ops.info.tablePage .pd v₀) stop right n vaddr paddr s) := by
  intro n
  induction n with
  | zero =>
    intro vaddr paddr s _ _ _ hs _
    exact .refl hs
  | succ n ih =>
    intro vaddr paddr s hn hlt hlim hs hlink
    obtain ⟨u, hu, hslot⟩ := exists_slot ops v₀ (i := ptrsPerTable - (n + 1)) (by omega)
    have hu48 : u < 2 ^ 48 := by
      simp only [size, shift] at hu
      omega
    have hlink' : Linked ops s.mem .pt u := (linked_next_block (l := .pd) (by decide) hu).mpr hlink
    have hpt : ∀ e, ¬ IsTable ops .pt e := fun e ht => ht.2 trivial
    rw [addPteLoop, hslot]
    by_cases hp : ops.pgentryPresent (s.mem (ops.info.entryAddr .pt u)) ≠ 0#64
    · rw [if_pos hp]
      exact ih _ _ s (by omega) hlt hlim hs hlink
    · rw [if_neg hp]
      have hstep : WritesOf ops (addKind ops limit prot) s _ :=
        (WritesOf.refl hs).leaf (by decide) hu48 hlink' (hpt _)
          (hpt (BitVec.ofNat 64 paddr ||| right))
          ⟨not_not.mp hp, paddr, by omega, right, hright, .inl rfl⟩
      by_cases hend : stop ≤ vaddr + pt.size
      · rw [if_pos hend]
        exact hstep
      · rw [if_neg hend]
        exact hstep.trans
          (ih _ _ _ (by omega) (by omega) (by omega) (hstep.sound hops)
            ((hstep.evolves hops).linked .pt v₀ hv₀ hlink))

theorem addPte_writes (hops : ops.Lawful) {start stop paddr limit : ℕ} {prot right : Word}
    (hright : right = prot ∨ right = ops.tweakExeRight prot) (hs : Sound ops s)
    (hw : Within .pd start stop) (hlim : paddr + (stop - start) ≤ limit)
    (hlink : Linked ops s.mem .pt start) :
    WritesOf ops (addKind ops limit prot) s
      (addPte ops (ops.info.entryAddr .pd start) paddr start stop right s) := by
  have hv₀ : start < 2 ^ 48 := lt_of_lt_of_le hw.lt hw.le
  have hpage := (hs.table .pd start (by decide) hv₀ hlink).2
  rw [entryAt] at hpage
  rw [addPte, hpage]
  exact addPteLoop_writes hops hv₀ stop hright _ _ _ s (Nat.sub_le _ _) hw.lt hlim hs hlink

/-- The step shared by `add_pde` and `add_pdpte`, given that filling the table
below keeps the pool in order. -/
theorem addEntries_writes (hops : ops.Lawful) {p : PageTableLevel}
    (hp : p = .pml4 ∨ p = .pdpt) {limit : ℕ} {prot : Word}
    {child : ℕ → ℕ → ℕ → ℕ → Word → PgMem → PgMem}
    (hchild : ∀ s start stop paddr right, (right = prot ∨ right = ops.tweakExeRight prot) →
      Sound ops s → Within p.next start stop → stop ≤ ops.info.window → BlockAligned ops start →
      BlockAligned ops stop → BlockAligned ops paddr → paddr + (stop - start) ≤ limit →
      Linked ops s.mem p.next.next start →
      WritesOf ops (addKind ops limit prot) s
        (child (ops.info.entryAddr p.next start) paddr start stop right s))
    (hlargeEnabled : ops.info.ptPool = true ∨ ops.largePageEnabled = true)
    {start stop paddr : ℕ} {right : Word} (hright : right = prot ∨ right = ops.tweakExeRight prot)
    (hs : Sound ops s) (hw : Within p start stop) (hwin : stop ≤ ops.info.window)
    (hstart : BlockAligned ops start) (hstop : BlockAligned ops stop)
    (hpaddr : BlockAligned ops paddr) (hlim : paddr + (stop - start) ≤ limit)
    (hlink : Linked ops s.mem p.next start) :
    WritesOf ops (addKind ops limit prot) s
      (addEntries p.next child ops (ops.info.entryAddr p start) paddr start stop right s) := by
  have hppt : p ≠ .pt := by rcases hp with rfl | rfl <;> decide
  have hnpt : p.next ≠ .pt := by rcases hp with rfl | rfl <;> decide
  have hnl : p.next = .pdpt ∨ p.next = .pd := by rcases hp with rfl | rfl <;> simp [next]
  have hv₀ : start < 2 ^ 48 := lt_of_lt_of_le hw.lt hw.le
  have hpage := (hs.table p start hppt hv₀ hlink).2
  rw [entryAt] at hpage
  rw [addEntries, hpage]
  refine (tableLoop_rule (I := fun x (c : AddCursor) =>
    WritesOf ops (addKind ops limit prot) s c.pages ∧ BlockAligned ops c.paddr ∧
    (x < stop → c.paddr + (stop - x) ≤ limit) ∧
    (c.effectiveProt = prot ∨ c.effectiveProt = ops.tweakExeRight prot))
    hppt hw (fun _ _ => rfl) ?_ ⟨paddr, right, s⟩ ⟨.refl hs, hpaddr, fun _ => hlim, hright⟩).1
  rintro x c hge hlt hx ⟨hev, hpa, hcl, hprot⟩
  have hlim' : min (nextBlock p.next.shift x) stop < stop →
      c.paddr + (nextBlock p.next.shift x - x) + (stop - min (nextBlock p.next.shift x) stop) ≤
        limit := by
    have := hcl hlt
    have := lt_nextBlock p.next.shift x
    omega
  have hxs := hw.div_eq hge hlt
  have hx48 : x < 2 ^ 48 := lt_of_lt_of_le hlt hw.le
  have hslot := ops.info.tablePage_slot hppt hxs
  have hlinkx : Linked ops c.pages.mem p.next x :=
    (linked_next_block hppt hxs).mpr ((hev.evolves hops).linked _ _ hv₀ hlink)
  have hstep := hw.step hge hlt hx
  have hxa : BlockAligned ops x := by
    rcases hx with rfl | hx
    · exact hstart
    · exact .of_dvd hnpt hx
  have hnext : BlockAligned ops (nextBlock p.next.shift x) := .of_dvd hnpt (dvd_nextBlock _ x)
  have hpa' : BlockAligned ops (c.paddr + (nextBlock p.next.shift x - x)) := hpa.add_sub hnext hxa
  have htweak : ops.tweakExeRight c.effectiveProt = ops.tweakExeRight prot := by
    rcases hprot with h | h <;> rw [h]
    exact hops.tweak_tweak prot
  simp only [hslot]
  have hchild' : ∀ s₁, WritesOf ops (addKind ops limit prot) c.pages s₁ →
      Linked ops s₁.mem p.next.next x →
      WritesOf ops (addKind ops limit prot) s (child (ops.info.entryAddr p.next x) c.paddr x
        (min (nextBlock p.next.shift x) stop) c.effectiveProt s₁) := by
    intro s₁ hev₁ hlink₁
    have := hcl hlt
    exact (hev.trans hev₁).trans (hchild s₁ x _ _ _ hprot (hev₁.sound hops) hstep (by omega) hxa
      (hnext.min hstop) hpa (by omega) hlink₁)
  by_cases hlarge : entryLarge (c.pages.mem (ops.info.entryAddr p.next x)) ≠ 0#64
  · rw [if_pos hlarge]
    exact ⟨hev, hpa', hlim', hprot⟩
  · rw [if_neg hlarge]
    by_cases habs : ops.pgentryPresent (c.pages.mem (ops.info.entryAddr p.next x)) = 0#64
    · rw [if_pos habs]
      split
      · refine ⟨hev.leaf (next_ne_pml4 p) hx48 hlinkx (not_isTable_of_absent habs)
          (not_isTable_of_large hnl ?_) ⟨habs, c.paddr, ?_, ops.tweakExeRight prot, .inr rfl, ?_⟩,
          hpa', hlim', .inr htweak⟩
        · rw [entryLarge, ← BitVec.or_assoc]
          exact or_and_ne_zero (by decide)
        · have := hcl hlt
          omega
        · rw [htweak]
          exact .inr rfl
      · next hsmall =>
        have hpn : x / p.next.size < ops.info.pageNum p.next.next := by
          refine PoolLayout.div_lt_pageNum hnpt (by omega) fun hpd => ?_
          rw [hpd] at hsmall
          exact ptPool_of_not_large hlargeEnabled hpa hxa hstop hlt hsmall
        have hnt := not_isTable_sanitizedEntry hops p.next.next
        have hev₁ : WritesOf ops (addKind ops limit prot) c.pages _ :=
          (WritesOf.refl (hev.sound hops)).table hnpt hx48 hlinkx (not_isTable_of_absent habs) hpn
            (f := fun _ => sanitizedEntry ops) (fun _ _ => hnt) ⟨habs, rfl⟩
        have hlink₁ := linkTable_spec hops (hev.sound hops) hnpt hx48 hlinkx
          (not_isTable_of_absent habs) hpn (f := fun _ => sanitizedEntry ops) (fun _ _ => hnt) rfl
        exact ⟨hchild' _ hev₁ ((hlink₁.2.2.2 _ x hx48).mpr (Or.inr ⟨rfl, rfl⟩)), hpa', hlim', hprot⟩
    · rw [if_neg habs]
      refine ⟨hchild' _ (.refl (hev.sound hops))
        ((linked_next hnpt x).mpr ⟨hlinkx, habs, ?_⟩), hpa', hlim', hprot⟩
      rwa [entryLarge_maps hnl]

/-- The end of the interval that `mmu_add` and `mmu_modify_or_del` work on. -/
def rangeEnd (vaddrBase size : ℕ) : ℕ := roundPageUp ((vaddrBase + size) % 2 ^ 64)

/-- The end of the physical range that `mmu_add` maps. -/
def paddrEnd (paddrBase vaddrBase size : ℕ) : ℕ :=
  roundPageDown paddrBase + (rangeEnd vaddrBase size - roundPageDown vaddrBase)

theorem dvd_rangeEnd (vaddrBase size : ℕ) : pageSize ∣ rangeEnd vaddrBase size :=
  dvd_blockStart 12 _

theorem dvd_roundPageDown (addr : ℕ) : pageSize ∣ roundPageDown addr := dvd_blockStart 12 _

/-- All writes of a call are of the kinds that `addKind` lists, whatever the range and whatever was
mapped before. -/
theorem mmuAdd_writesOf (hops : ops.Lawful)
    (hlargeEnabled : ops.info.ptPool = true ∨ ops.largePageEnabled = true)
    {paddrBase vaddrBase size : ℕ} {prot : Word} (hs : Sound ops s)
    (hwin : rangeEnd vaddrBase size ≤ ops.info.window)
    (hstart : BlockAligned ops (roundPageDown vaddrBase))
    (hstop : BlockAligned ops (rangeEnd vaddrBase size))
    (hpaddr : BlockAligned ops (roundPageDown paddrBase)) :
    WritesOf ops (addKind ops (paddrEnd paddrBase vaddrBase size) prot) s
      (mmuAdd ops ops.info.pml4Base paddrBase vaddrBase size prot s) := by
  have hle : rangeEnd vaddrBase size ≤ 2 ^ 48 := hwin.trans ops.info.window_le
  rw [mmuAdd, ← rangeEnd]
  rcases Nat.le_total (rangeEnd vaddrBase size) (roundPageDown vaddrBase) with hempty | hrange
  · rw [whileBlocks_of_le hempty]
    exact .refl hs
  refine (rootLoop_rule (I := fun x (c : ℕ × PgMem) =>
    WritesOf ops (addKind ops (paddrEnd paddrBase vaddrBase size) prot) s c.2 ∧
    BlockAligned ops c.1 ∧ (x < rangeEnd vaddrBase size →
      c.1 + (rangeEnd vaddrBase size - x) ≤ paddrEnd paddrBase vaddrBase size))
    hle (dvd_roundPageDown _) (dvd_rangeEnd _ _) ?_
    (roundPageDown paddrBase, s) hrange ⟨.refl hs, hpaddr, fun _ => le_rfl⟩).1
  rintro x c _ hx hw ⟨hev, hpa, hcl⟩
  have hx48 : x < 2 ^ 48 := lt_of_lt_of_le hw.lt hw.le
  have hwin' : min (nextBlock pml4.shift x) (rangeEnd vaddrBase size) ≤ ops.info.window := by omega
  have hxa : BlockAligned ops x := by
    rcases hx with rfl | hx
    · exact hstart
    · exact .of_dvd (l := .pml4) (by decide) hx
  have hnext : BlockAligned ops (nextBlock pml4.shift x) :=
    .of_dvd (l := .pml4) (by decide) (dvd_nextBlock _ x)
  have hxlt := hw.lt
  have hlim := hcl (by omega)
  have hlim' : min (nextBlock pml4.shift x) (rangeEnd vaddrBase size) < rangeEnd vaddrBase size →
      c.1 + (nextBlock pml4.shift x - x) + (rangeEnd vaddrBase size -
        min (nextBlock pml4.shift x) (rangeEnd vaddrBase size)) ≤
          paddrEnd paddrBase vaddrBase size := by
    have := lt_nextBlock pml4.shift x
    omega
  have hpdpte : ∀ s₁, Sound ops s₁ → Linked ops s₁.mem .pdpt x →
      WritesOf ops (addKind ops (paddrEnd paddrBase vaddrBase size) prot) s₁
        (addPdpte ops (ops.info.entryAddr .pml4 x) c.1 x
          (min (nextBlock pml4.shift x) (rangeEnd vaddrBase size)) prot s₁) := by
    intro s₁ hs₁ hlink₁
    refine addEntries_writes (p := .pml4) hops (Or.inl rfl) ?_ hlargeEnabled (.inl rfl) hs₁ hw hwin'
      hxa (hnext.min hstop) hpa (by omega) hlink₁
    intro s₂ start stop paddr right hright hs₂ hw₂ hwin₂ hstart₂ hstop₂ hpaddr₂ hlim₂ hlink₂
    refine addEntries_writes (p := .pdpt) hops (Or.inr rfl) ?_ hlargeEnabled hright hs₂ hw₂ hwin₂
      hstart₂ hstop₂ hpaddr₂ hlim₂ hlink₂
    intro s₃ start stop paddr right hright hs₃ hw₃ _ _ _ _ hlim₃ hlink₃
    exact addPte_writes hops hright hs₃ hw₃ hlim₃ hlink₃
  refine ⟨?_, hpa.add_sub hnext hxa, hlim'⟩
  simp only [root_slot hx48]
  by_cases habs : ops.pgentryPresent (c.2.mem (ops.info.entryAddr .pml4 x)) = 0#64
  · rw [if_pos habs]
    have hnt := not_isTable_sanitizedEntry hops .pdpt
    have hroot : PageTableLevel.pml4 ≠ .pt := by decide
    have hpn : x / pml4.size < ops.info.pageNum .pdpt :=
      PoolLayout.div_lt_pageNum (l := .pml4) (by decide) (lt_of_lt_of_le hw.lt hwin') nofun
    have hev₁ := hev.table hroot hx48 trivial (not_isTable_of_absent habs) hpn
      (f := fun _ => sanitizedEntry ops) (fun _ _ => hnt) ⟨habs, rfl⟩
    have hlink₁ := linkTable_spec hops (hev.sound hops) hroot hx48 trivial
      (not_isTable_of_absent habs) hpn (f := fun _ => sanitizedEntry ops) (fun _ _ => hnt) rfl
    exact hev₁.trans (hpdpte _ (hev₁.sound hops)
      ((hlink₁.2.2.2 .pdpt x hx48).mpr (Or.inr ⟨rfl, rfl⟩)))
  · rw [if_neg habs]
    exact hev.trans (hpdpte _ (hev.sound hops) ⟨habs, id⟩)

theorem mmuAdd_writes (hops : ops.Lawful) (hpool : ops.info.ptPool = true)
    {paddrBase vaddrBase size : ℕ} {prot : Word} (hs : Sound ops s)
    (hwin : rangeEnd vaddrBase size ≤ ops.info.window) :
    Writes ops s (mmuAdd ops ops.info.pml4Base paddrBase vaddrBase size prot s) :=
  (mmuAdd_writesOf hops (.inl hpool) hs hwin (.inl hpool) (.inl hpool) (.inl hpool)).writes

/-- So `mmu_add` keeps the pool in order. -/
theorem mmuAdd_evolves (hops : ops.Lawful) (hpool : ops.info.ptPool = true)
    {paddrBase vaddrBase size : ℕ} {prot : Word} (hs : Sound ops s)
    (hwin : rangeEnd vaddrBase size ≤ ops.info.window) :
    Evolves ops s (mmuAdd ops ops.info.pml4Base paddrBase vaddrBase size prot s) :=
  (mmuAdd_writes hops hpool hs hwin).evolves hops

/-! ## `mmu_modify_or_del` -/

/-- The writes of `mmu_modify_or_del` in `[start, stop)`: an entry that maps a page is replaced, or
a large page by the table of its pieces. -/
def modKind (ops : MemoryOps) (protSet protClr : Word) (type : MrType) (start stop : ℕ) :
    WriteKind where
  leaf l v old new := (start ≤ v ∧ v < stop) ∧ ops.pgentryPresent old ≠ 0#64 ∧ Maps l old ∧
    new = newEntry ops protSet protClr type old
  table l v old f := (start ≤ v ∧ v < stop) ∧ ops.pgentryPresent old ≠ 0#64 ∧
    (l = .pdpt ∨ l = .pd) ∧ entryLarge old ≠ 0#64 ∧ f = splitEntry ops l old

theorem modifyOrDelPte_writes (hops : ops.Lawful) {start stop a b : ℕ} {protSet protClr : Word}
    {type : MrType} (hclr : type = .modify → protClr &&& pagePs = 0#64) (hs : Sound ops s)
    (hw : Within .pd start stop) (ha : a ≤ start) (hb : stop ≤ b)
    (hlink : Linked ops s.mem .pt start) :
    WritesOf ops (modKind ops protSet protClr type a b) s
      (modifyOrDelPte ops protSet protClr type (ops.info.entryAddr .pd start) start stop s) := by
  have hv₀ : start < 2 ^ 48 := lt_of_lt_of_le hw.lt hw.le
  have hpage := (hs.table .pd start (by decide) hv₀ hlink).2
  rw [entryAt] at hpage
  rw [modifyOrDelPte, hpage]
  refine tableLoop_rule (l := .pd)
    (I := fun _ t => WritesOf ops (modKind ops protSet protClr type a b) s t) (by decide) hw ?_ ?_ _
    (.refl hs)
  · intro x hx
    refine (nextBlock_of_dvd ?_).symm
    rcases hx with rfl | hx
    · exact hw.start_dvd
    · exact hx
  intro x t hge hlt hx hev
  have hxs := hw.div_eq hge hlt
  have hx48 : x < 2 ^ 48 := lt_of_lt_of_le hlt hw.le
  have hslot : ops.info.tablePage .pd start + 8 * pt.index x = ops.info.entryAddr .pt x :=
    PoolLayout.tablePage_slot _ (l := .pd) (by decide) hxs
  have hlinkx : Linked ops t.mem .pt x :=
    (linked_next_block (l := .pd) (by decide) hxs).mpr ((hev.evolves hops).linked _ _ hv₀ hlink)
  simp only [next, hslot]
  by_cases habs : ops.pgentryPresent (t.mem (ops.info.entryAddr .pt x)) = 0#64
  · rw [if_pos habs]
    exact hev
  · rw [if_neg habs, localModifyOrDelPte_eq]
    exact hev.leaf (by decide) hx48 hlinkx (fun ht => ht.2 trivial)
      (not_isTable_newEntry hops (by decide) hclr (Or.inl rfl))
      ⟨⟨ha.trans hge, hlt.trans_le hb⟩, habs, trivial, rfl⟩

/-- The step shared by `modify_or_del_pde` and `modify_or_del_pdpte`. -/
theorem modifyOrDelEntries_writes (hops : ops.Lawful) {p : PageTableLevel}
    (hp : p = .pml4 ∨ p = .pdpt) {child : ℕ → ℕ → ℕ → PgMem → PgMem}
    {a b : ℕ} {protSet protClr : Word} {type : MrType}
    (hchild : ∀ s start stop, Sound ops s → Within p.next start stop → a ≤ start → stop ≤ b →
      stop ≤ ops.info.window → BlockAligned ops start → BlockAligned ops stop →
      Linked ops s.mem p.next.next start →
      WritesOf ops (modKind ops protSet protClr type a b) s
        (child (ops.info.entryAddr p.next start) start stop s))
    {start stop : ℕ} (hclr : type = .modify → protClr &&& pagePs = 0#64) (hs : Sound ops s)
    (hw : Within p start stop) (ha : a ≤ start) (hb : stop ≤ b) (hwin : stop ≤ ops.info.window)
    (hstart : BlockAligned ops start) (hstop : BlockAligned ops stop)
    (hlink : Linked ops s.mem p.next start) :
    WritesOf ops (modKind ops protSet protClr type a b) s
      (modifyOrDelEntries p.next child ops protSet protClr type
        (ops.info.entryAddr p start) start stop s) := by
  have hppt : p ≠ .pt := by rcases hp with rfl | rfl <;> decide
  have hnpt : p.next ≠ .pt := by rcases hp with rfl | rfl <;> decide
  have hnl : p.next = .pdpt ∨ p.next = .pd := by rcases hp with rfl | rfl <;> simp [next]
  have hv₀ : start < 2 ^ 48 := lt_of_lt_of_le hw.lt hw.le
  have hpage := (hs.table p start hppt hv₀ hlink).2
  rw [entryAt] at hpage
  rw [modifyOrDelEntries, hpage]
  refine tableLoop_rule (I := fun _ t => WritesOf ops (modKind ops protSet protClr type a b) s t)
    hppt hw (fun _ _ => rfl) ?_ _ (.refl hs)
  intro x t hge hlt hx hev
  have hxs := hw.div_eq hge hlt
  have hx48 : x < 2 ^ 48 := lt_of_lt_of_le hlt hw.le
  have hlinkx : Linked ops t.mem p.next x :=
    (linked_next_block hppt hxs).mpr ((hev.evolves hops).linked _ _ hv₀ hlink)
  have hstep := hw.step hge hlt hx
  have hxa : BlockAligned ops x := by
    rcases hx with rfl | hx
    · exact hstart
    · exact .of_dvd hnpt hx
  have hnext : BlockAligned ops (nextBlock p.next.shift x) := .of_dvd hnpt (dvd_nextBlock _ x)
  have hin : a ≤ x ∧ x < b := ⟨ha.trans hge, hlt.trans_le hb⟩
  have hchild' : ∀ s₁, WritesOf ops (modKind ops protSet protClr type a b) t s₁ →
      Linked ops s₁.mem p.next.next x →
      WritesOf ops (modKind ops protSet protClr type a b) s (child (ops.info.entryAddr p.next x) x
        (min (nextBlock p.next.shift x) stop) s₁) := by
    intro s₁ hev₁ hlink₁
    exact (hev.trans hev₁).trans (hchild s₁ x _ (hev₁.sound hops) hstep hin.1 (by omega) (by omega)
      hxa (hnext.min hstop) hlink₁)
  simp only [PoolLayout.tablePage_slot _ hppt hxs]
  by_cases habs : ops.pgentryPresent (t.mem (ops.info.entryAddr p.next x)) = 0#64
  · rw [if_pos habs]
    exact hev
  rw [if_neg habs]
  by_cases hlarge : entryLarge (t.mem (ops.info.entryAddr p.next x)) ≠ 0#64
  · rw [if_pos hlarge]
    have hold : ¬ IsTable ops p.next _ := not_isTable_of_large hnl hlarge
    split
    · next hcut =>
      have hpn : x / p.next.size < ops.info.pageNum p.next.next := by
        refine PoolLayout.div_lt_pageNum hnpt (by omega) fun hpd => ?_
        rw [hpd] at hcut
        exact ptPool_of_small hxa hstop hlt hcut.symm
      have hnt := fun i (_ : i < ptrsPerTable) => not_isTable_splitEntry ops hnl hlarge i
      rw [splitLargePage_eq hnl]
      have hev₁ : WritesOf ops (modKind ops protSet protClr type a b) t _ :=
        (WritesOf.refl (hev.sound hops)).table hnpt hx48 hlinkx hold hpn hnt
          ⟨hin, habs, hnl, hlarge, rfl⟩
      have hlink₁ := linkTable_spec hops (hev.sound hops) hnpt hx48 hlinkx hold hpn hnt rfl
      exact hchild' _ hev₁ ((hlink₁.2.2.2 _ x hx48).mpr (Or.inr ⟨rfl, rfl⟩))
    · rw [localModifyOrDelPte_eq]
      exact hev.leaf (next_ne_pml4 p) hx48 hlinkx hold
        (not_isTable_newEntry hops (next_ne_pml4 p) hclr (Or.inr hlarge))
        ⟨hin, habs, (entryLarge_maps hnl _).mpr hlarge, rfl⟩
  · rw [if_neg hlarge]
    refine hchild' _ (.refl (hev.sound hops)) ((linked_next hnpt x).mpr ⟨hlinkx, habs, ?_⟩)
    rwa [entryLarge_maps hnl]

/-- Nothing happens to a table without a present entry. -/
theorem modifyOrDelEntries_absent {p : PageTableLevel} (hp : p ≠ .pt) {start stop parent : ℕ}
    (hw : Within p start stop) {child : ℕ → ℕ → ℕ → PgMem → PgMem} {protSet protClr : Word}
    {type : MrType} (habs : ∀ i < ptrsPerTable,
      ops.pgentryPresent (s.mem (pageVaddr (s.mem parent) + 8 * i)) = 0#64) :
    modifyOrDelEntries p.next child ops protSet protClr type parent start stop s = s := by
  rw [modifyOrDelEntries]
  refine tableLoop_rule (I := fun _ t => t = s) hp hw (fun _ _ => rfl) ?_ _ rfl
  rintro x t - - - rfl
  exact if_pos (habs _ (index_lt _ _))

/-- Where the root has no table for the window it points to the sanitized page,
which maps nothing. -/
structure SanitizedRoot (ops : MemoryOps) (s : PgMem) : Prop where
  root : ∀ v, v < ops.info.window → ops.pgentryPresent (entryAt ops s.mem .pml4 v) = 0#64 →
    pageVaddr (entryAt ops s.mem .pml4 v) = ops.info.sanitizedPage
  page : ∀ i < ptrsPerTable, ops.pgentryPresent (s.mem (ops.info.sanitizedPage + 8 * i)) = 0#64

theorem Evolves.sanitizedRoot (hev : Evolves ops s s') (h : SanitizedRoot ops s) :
    SanitizedRoot ops s' := by
  constructor
  · intro v hv habs
    rcases hev.root v (lt_of_lt_of_le hv ops.info.window_le) with he | he
    · rw [he] at habs ⊢
      exact h.root v hv habs
    · exact absurd habs he
  · intro i hi
    rw [hev.sanitized _ (by omega) (by simp only [pageSize, ptrsPerTable] at *; omega)]
    exact h.page i hi

/-- The same of `mmu_modify_or_del`. A deletion may walk an absent entry of the root, which leads
to the sanitized page, where it finds nothing. -/
theorem mmuModifyOrDel_writesOf (hops : ops.Lawful)
    {vaddrBase size : ℕ} {protSet protClr : Word} {type : MrType}
    (hclr : type = .modify → protClr &&& pagePs = 0#64) (hs : Sound ops s)
    (hroot : SanitizedRoot ops s ∨ ∀ v, roundPageDown vaddrBase ≤ v → v < rangeEnd vaddrBase size →
      ops.pgentryPresent (entryAt ops s.mem .pml4 v) = 0#64 → type = .modify)
    (hwin : rangeEnd vaddrBase size ≤ ops.info.window)
    (hstart : BlockAligned ops (roundPageDown vaddrBase))
    (hstop : BlockAligned ops (rangeEnd vaddrBase size)) :
    WritesOf ops
      (modKind ops protSet protClr type (roundPageDown vaddrBase) (rangeEnd vaddrBase size)) s
      (mmuModifyOrDel ops ops.info.pml4Base vaddrBase size protSet protClr type s) := by
  have hle : rangeEnd vaddrBase size ≤ 2 ^ 48 := hwin.trans ops.info.window_le
  rw [mmuModifyOrDel, ← rangeEnd]
  rcases Nat.le_total (rangeEnd vaddrBase size) (roundPageDown vaddrBase) with hempty | hrange
  · rw [whileBlocks_of_le hempty]
    exact .refl hs
  refine rootLoop_rule (I := fun _ t => WritesOf ops _ s t) hle (dvd_roundPageDown _)
    (dvd_rangeEnd _ _) ?_ _ hrange (.refl hs)
  intro x t hge hx hw hev
  have hx48 : x < 2 ^ 48 := lt_of_lt_of_le hw.lt hw.le
  have hxa : BlockAligned ops x := by
    rcases hx with rfl | hx
    · exact hstart
    · exact .of_dvd (l := .pml4) (by decide) hx
  have hnext : BlockAligned ops (nextBlock pml4.shift x) :=
    .of_dvd (l := .pml4) (by decide) (dvd_nextBlock _ x)
  simp only [root_slot hx48]
  by_cases habs : ops.pgentryPresent (t.mem (ops.info.entryAddr .pml4 x)) = 0#64
  · split
    · exact hev
    · next hmodify =>
      have hroot' : SanitizedRoot ops t := by
        rcases hroot with hroot | hroot
        · exact (hev.evolves hops).sanitizedRoot hroot
        · -- the entry was absent from the start
          refine absurd ⟨habs, hroot x hge (by have := hw.lt; omega) ?_⟩ hmodify
          by_contra hp
          exact ((hev.evolves hops).linked .pdpt x hx48 ⟨hp, id⟩).1 habs
      -- a deletion below an absent entry of the root walks the sanitized page
      have hpage : pageVaddr (t.mem (ops.info.entryAddr .pml4 x)) = ops.info.sanitizedPage :=
        hroot'.root x (lt_of_lt_of_le hw.lt (by omega)) habs
      have hnone : modifyOrDelPdpte ops protSet protClr type (ops.info.entryAddr .pml4 x) x
          (min (nextBlock pml4.shift x) (rangeEnd vaddrBase size)) t = t :=
        modifyOrDelEntries_absent (p := .pml4) (by decide) hw (by rw [hpage]; exact hroot'.page)
      rw [hnone]
      exact hev
  · rw [if_neg (fun h => habs h.1)]
    refine hev.trans (modifyOrDelEntries_writes (p := .pml4) hops (Or.inl rfl) ?_ hclr
      (hev.sound hops) hw hge (Nat.min_le_right _ _) (by omega) hxa (hnext.min hstop) ⟨habs, id⟩)
    intro s₁ start stop hs₁ hw₁ ha₁ hb₁ hwin₁ hstart₁ hstop₁ hlink₁
    refine modifyOrDelEntries_writes (p := .pdpt) hops (Or.inr rfl) ?_ hclr hs₁ hw₁ ha₁ hb₁ hwin₁
      hstart₁ hstop₁ hlink₁
    intro s₂ start stop hs₂ hw₂ ha₂ hb₂ _ _ _ hlink₂
    exact modifyOrDelPte_writes hops hclr hs₂ hw₂ ha₂ hb₂ hlink₂

theorem mmuModifyOrDel_writes (hops : ops.Lawful) (hpool : ops.info.ptPool = true)
    {vaddrBase size : ℕ} {protSet protClr : Word} {type : MrType}
    (hclr : type = .modify → protClr &&& pagePs = 0#64) (hs : Sound ops s)
    (hroot : SanitizedRoot ops s) (hwin : rangeEnd vaddrBase size ≤ ops.info.window) :
    Writes ops s
      (mmuModifyOrDel ops ops.info.pml4Base vaddrBase size protSet protClr type s) :=
  (mmuModifyOrDel_writesOf hops hclr hs (.inl hroot) hwin (.inl hpool) (.inl hpool)).writes

/-- So it keeps the pool in order, too. -/
theorem mmuModifyOrDel_evolves (hops : ops.Lawful) (hpool : ops.info.ptPool = true)
    {vaddrBase size : ℕ} {protSet protClr : Word} {type : MrType}
    (hclr : type = .modify → protClr &&& pagePs = 0#64) (hs : Sound ops s)
    (hroot : SanitizedRoot ops s) (hwin : rangeEnd vaddrBase size ≤ ops.info.window) :
    Evolves ops s
      (mmuModifyOrDel ops ops.info.pml4Base vaddrBase size protSet protClr type s) :=
  (mmuModifyOrDel_writes hops hpool hclr hs hroot hwin).evolves hops

end Acrn
