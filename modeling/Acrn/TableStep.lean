import Acrn.Entry
import Acrn.Walk

/-!
# Well-formed tables and the two kinds of write

`Sound` is the invariant that makes a table canonical: every table reference a
walk can meet names the page that its address selects, and every page ever
handed out was, at that moment, referenced by no table entry. `Frame l T` says
that a change is confined to the blocks `T` of level `l`. The operations are
made of two writes, and each has one lemma: `setLeaf_spec` for an entry that
references no table before or after, and `linkTable_spec` for a fresh page that
is filled and then referenced.
-/

namespace Acrn

open BlockLoop BitField PageTableLevel

/-! ## The invariant

A page of the pool may be handed out although it is in use elsewhere, if the getters were wrong.
That it was not is recorded in the ghost list `requests`, and `Sound` speaks about that list. -/

/-- The page asked for lies in its array, and no table entry of the tree
references it at that moment. -/
structure PageRequest.Fresh (ops : MemoryOps) (r : PageRequest) : Prop where
  level_ne : r.level ≠ .pt
  inArray : r.gpa / r.level.size < ops.info.pageNum r.level.next
  unlinked : ∀ l v, l ≠ .pt → v < 2 ^ 48 → Linked ops r.before l.next v →
    pageVaddr (entryAt ops r.before l v) ≠ ops.info.tablePage r.level r.gpa

/-- Every table reference is canonical, and every page was fresh when it was
handed out. -/
structure Sound (ops : MemoryOps) (s : PgMem) : Prop where
  table : ∀ l v, l ≠ .pt → v < 2 ^ 48 → Linked ops s.mem l.next v →
    v / l.size < ops.info.pageNum l.next ∧
      pageVaddr (entryAt ops s.mem l v) = ops.info.tablePage l v
  fresh : ∀ r ∈ s.requests, r.Fresh ops

variable {ops : MemoryOps} {s s' : PgMem}

/-- Who is reached lies in the pool of its level. -/
theorem Sound.inPool (h : Sound ops s) {l : PageTableLevel} {v : ℕ} (hv : v < 2 ^ 48)
    (hl : Linked ops s.mem l v) : ops.info.InPool l v := by
  have hnext : ∀ k : PageTableLevel, k ≠ .pt → Linked ops s.mem k.next v →
      ops.info.InPool k.next v :=
    fun k hk hkv => PoolLayout.inPool_next hk (h.table k v hk hv hkv).1
  cases l with
  | pml4 => exact PoolLayout.inPool_pml4 hv
  | pdpt => exact hnext .pml4 (by decide) hl
  | pd => exact hnext .pdpt (by decide) hl
  | pt => exact hnext .pd (by decide) hl

/-- The slot a loop computes from a table reference is the canonical one. -/
theorem Sound.slot_eq (h : Sound ops s) {l : PageTableLevel} {v : ℕ} (hl : l ≠ .pt)
    (hv : v < 2 ^ 48) (hv' : Linked ops s.mem l.next v) :
    pageVaddr (entryAt ops s.mem l v) + 8 * l.next.index v = ops.info.entryAddr l.next v := by
  rw [(h.table l v hl hv hv').2, PoolLayout.base_eq_tablePage hl]

/-! ## Frames

A change of one block leaves the walks of all others alone. Frames of a level are frames of the
levels above it, for the block around. -/

/-- The change from `m` to `m'` leaves alone every entry a walk can read, except
those of level `l` and below in the blocks `T` of level `l`. -/
def Frame (ops : MemoryOps) (l : PageTableLevel) (T : Set ℕ) (m m' : ℕ → Word) : Prop :=
  ∀ v k, v < 2 ^ 48 → (l.shift < k.shift ∨ v / l.size ∉ T) → Linked ops m k v →
    entryAt ops m' k v = entryAt ops m k v

namespace Frame

variable {l : PageTableLevel} {T T' : Set ℕ} {m m' m'' : ℕ → Word}

theorem refl (l : PageTableLevel) (T : Set ℕ) (m : ℕ → Word) : Frame ops l T m m :=
  fun _ _ _ _ _ => rfl

/-- Outside the changed blocks, and down to their level everywhere, the same tables are reached. -/
theorem linked_iff (h : Frame ops l T m m') {k : PageTableLevel} {v : ℕ} (hv : v < 2 ^ 48)
    (hk : l.shift ≤ k.shift ∨ v / l.size ∉ T) : Linked ops m' k v ↔ Linked ops m k v := by
  refine linked_congr fun k' hk' hlink => h v k' hv ?_ hlink
  rcases hk with hk | hk
  · exact Or.inl (by omega)
  · exact Or.inr hk

/-- Outside the changed blocks the leaves are as before. -/
theorem leaf_eq (h : Frame ops l T m m') {v : ℕ} (hv : v < 2 ^ 48) (hT : v / l.size ∉ T) :
    leaf ops m' v = leaf ops m v :=
  leaf_congr fun k hk => h v k hv (Or.inr hT) hk

theorem walkEnd_eq (h : Frame ops l T m m') {v : ℕ} (hv : v < 2 ^ 48) (hT : v / l.size ∉ T) :
    walkEnd ops m' v = walkEnd ops m v :=
  walkEnd_congr fun k hk => h v k hv (Or.inr hT) hk

theorem trans (h : Frame ops l T m m') (h' : Frame ops l T' m' m'') :
    Frame ops l (T ∪ T') m m'' := by
  intro v k hv hk hlink
  have hT : l.shift < k.shift ∨ v / l.size ∉ T :=
    hk.imp_right fun hn hm => hn (Or.inl hm)
  have hT' : l.shift < k.shift ∨ v / l.size ∉ T' :=
    hk.imp_right fun hn hm => hn (Or.inr hm)
  have hlink' : Linked ops m' k v := (h.linked_iff hv (hT.imp_left Nat.le_of_lt)).mpr hlink
  rw [h' v k hv hT' hlink', h v k hv hT hlink]

theorem mono (h : Frame ops l T m m') (hTT : T ⊆ T') : Frame ops l T' m m' :=
  fun v k hv hk => h v k hv (hk.imp_right fun hn hm => hn (hTT hm))

/-- A change inside the table of a block is a change of that block. -/
theorem widen (hl : l ≠ .pt) (h : Frame ops l.next T m m')
    (hT : ∀ x ∈ T, x / ptrsPerTable ∈ T') : Frame ops l T' m m' := by
  intro v k hv hk hlink
  refine h v k hv ?_ hlink
  rcases hk with hk | hk
  · exact Or.inl ((shift_next_lt hl).trans hk)
  · refine Or.inr fun hm => hk ?_
    rw [← div_size_next hl]
    exact hT _ hm

end Frame

/-! ## Slots under a write -/

/-- A write of one entry is seen at that entry only: no two entries of the pools share an
address. -/
theorem entryAt_setPgentry {l l₀ : PageTableLevel} {v v₀ : ℕ} (h : ops.info.InPool l v)
    (h₀ : ops.info.InPool l₀ v₀) (s : PgMem) (e : Word) :
    entryAt ops (s.setPgentry (ops.info.entryAddr l₀ v₀) e).mem l v =
      if l = l₀ ∧ v / l.size = v₀ / l₀.size then e else entryAt ops s.mem l v := by
  rw [entryAt, PgMem.setPgentry]
  by_cases hc : l = l₀ ∧ v / l.size = v₀ / l₀.size
  · obtain ⟨rfl, hv⟩ := hc
    rw [if_pos ⟨rfl, hv⟩, show ops.info.entryAddr l v = ops.info.entryAddr l v₀ by
      rw [PoolLayout.entryAddr, PoolLayout.entryAddr, hv]]
    exact Function.update_self ..
  · rw [if_neg hc]
    exact Function.update_of_ne (fun he => hc (PoolLayout.entryAddr_inj h h₀ he)) ..

/-- Each entry of a filled page is what it was to be. -/
theorem fillPage_mem_slot (page : ℕ) (f : ℕ → Word) (s : PgMem) {n i : ℕ} (hi : i < n) :
    (PgMem.fillPage page f n s).mem (page + 8 * i) = f i := by
  induction n with
  | zero => omega
  | succ n ih =>
    rw [PgMem.fillPage, PgMem.setPgentry]
    rcases Nat.lt_succ_iff_lt_or_eq.mp hi with hlt | rfl
    · exact (Function.update_of_ne (by omega) ..).trans (ih hlt)
    · exact Function.update_self ..

/-- Filling a page changes nothing outside it. -/
theorem fillPage_mem_other (page : ℕ) (f : ℕ → Word) (s : PgMem) {n a : ℕ}
    (ha : ∀ i < n, a ≠ page + 8 * i) : (PgMem.fillPage page f n s).mem a = s.mem a := by
  induction n with
  | zero => rfl
  | succ n ih =>
    rw [PgMem.fillPage, PgMem.setPgentry]
    exact (Function.update_of_ne (ha n (by omega)) ..).trans
      (ih fun i hi => ha i (by omega))

theorem fillPage_requests (page : ℕ) (f : ℕ → Word) (n : ℕ) (s : PgMem) :
    (PgMem.fillPage page f n s).requests = s.requests := by
  induction n with
  | zero => rfl
  | succ n ih => exact ih

/-! ## Writing a leaf -/

/-- The entry at `(l₀, v₀)` is replaced, and is a table reference neither before
nor after: walks of other blocks are untouched, and every level stays linked
where it was. -/
theorem setLeaf_spec (hs : Sound ops s) {l₀ : PageTableLevel} {v₀ : ℕ} (hv₀ : v₀ < 2 ^ 48)
    (hlink : Linked ops s.mem l₀ v₀) (hold : ¬ IsTable ops l₀ (entryAt ops s.mem l₀ v₀))
    {e : Word} (hnew : ¬ IsTable ops l₀ e)
    (hs' : s' = s.setPgentry (ops.info.entryAddr l₀ v₀) e) :
    Sound ops s' ∧ Frame ops l₀ {v₀ / l₀.size} s.mem s'.mem ∧
      (∀ v < 2 ^ 48, v / l₀.size = v₀ / l₀.size → entryAt ops s'.mem l₀ v = e) ∧
      ∀ k v, v < 2 ^ 48 → (Linked ops s'.mem k v ↔ Linked ops s.mem k v) := by
  have hpool := hs.inPool hv₀ hlink
  have hframe : Frame ops l₀ {v₀ / l₀.size} s.mem s'.mem := by
    intro v k hv hk hkv
    rw [hs', entryAt_setPgentry (hs.inPool hv hkv) hpool, if_neg]
    rintro ⟨rfl, hvv⟩
    rcases hk with hk | hk
    · exact absurd hk (lt_irrefl _)
    · exact hk hvv
  have hblock : ∀ v < 2 ^ 48, v / l₀.size = v₀ / l₀.size → entryAt ops s'.mem l₀ v = e := by
    intro v hv hvv
    have hpool' : ops.info.InPool l₀ v := by
      rw [PoolLayout.InPool, hvv]
      exact hpool
    rw [hs', entryAt_setPgentry hpool' hpool, if_pos ⟨rfl, hvv⟩]
  have hlinked : ∀ k v, v < 2 ^ 48 → (Linked ops s'.mem k v ↔ Linked ops s.mem k v) := by
    intro k v hv
    by_cases hvv : v / l₀.size = v₀ / l₀.size
    · by_cases hk : l₀.shift ≤ k.shift
      · exact hframe.linked_iff hv (Or.inl hk)
      · -- below the written entry nothing is linked, before or after
        have hentry : entryAt ops s.mem l₀ v = entryAt ops s.mem l₀ v₀ := entryAt_block le_rfl hvv
        constructor <;> intro hkv <;> exfalso
        · have := hkv.isTable_above (k := l₀) (by omega)
          rw [hblock v hv hvv] at this
          exact hnew this
        · have := hkv.isTable_above (k := l₀) (by omega)
          rw [hentry] at this
          exact hold this
    · exact hframe.linked_iff hv (Or.inr hvv)
  refine ⟨⟨?_, ?_⟩, hframe, hblock, hlinked⟩
  · intro l v hl hv hlv
    have hlv' := (hlinked _ v hv).mp hlv
    have hup := (linked_next hl v).mp hlv'
    have hsame : entryAt ops s'.mem l v = entryAt ops s.mem l v := by
      rw [hs', entryAt_setPgentry (hs.inPool hv hup.1) hpool, if_neg]
      rintro ⟨rfl, hvv⟩
      have := ((linked_next hl v).mp hlv).2
      rw [hblock v hv hvv] at this
      exact hnew this
    rw [hsame]
    exact hs.table l v hl hv hlv'
  · intro r hr
    rw [hs'] at hr
    exact hs.fresh r hr

/-! ## Linking a table -/

/-- A page is taken from the pool, filled, and referenced from the entry at
`pte`. Both `construct_pgentry` and `split_large_page` are this. -/
def linkTable (ops : MemoryOps) (l₀ : PageTableLevel) (v₀ pte : ℕ) (f : ℕ → Word)
    (s : PgMem) : PgMem :=
  (PgMem.fillPage (ops.info.tablePage l₀ v₀) f ptrsPerTable (getTablePage l₀ ops v₀ s).2).setPgentry
    pte (tableEntry ops (ops.info.tablePage l₀ v₀))

/-- What the entries are after a table has been linked: those of the new table, the one that points
to it, and all others as before. -/
theorem entryAt_linkTable {l l₀ : PageTableLevel} {v v₀ : ℕ} (hl₀ : l₀ ≠ .pt)
    (h : ops.info.InPool l v) (h₀ : ops.info.InPool l₀ v₀)
    (hpage : v₀ / l₀.size < ops.info.pageNum l₀.next) (f : ℕ → Word) (s : PgMem) :
    entryAt ops (linkTable ops l₀ v₀ (ops.info.entryAddr l₀ v₀) f s).mem l v =
      if l = l₀ ∧ v / l.size = v₀ / l₀.size then tableEntry ops (ops.info.tablePage l₀ v₀)
      else if l = l₀.next ∧ v / l₀.size = v₀ / l₀.size then f (l₀.next.index v)
      else entryAt ops s.mem l v := by
  rw [linkTable, entryAt_setPgentry h h₀]
  refine if_congr Iff.rfl rfl ?_
  by_cases hc : l = l₀.next ∧ v / l₀.size = v₀ / l₀.size
  · obtain ⟨rfl, hv⟩ := hc
    rw [if_pos ⟨rfl, hv⟩, entryAt, ← PoolLayout.base_eq_tablePage hl₀,
      show ops.info.tablePage l₀ v = ops.info.tablePage l₀ v₀ by
        rw [PoolLayout.tablePage, PoolLayout.tablePage, hv]]
    exact fillPage_mem_slot _ _ _ (index_lt _ _)
  · have hmem := PoolLayout.entryAddr_mem_tablePage hl₀ hpage h
    rw [if_neg hc, entryAt, fillPage_mem_other]
    · simp only [getTablePage, PgMem.zeroPage]
      rw [if_neg (fun hin => hc (hmem.mp hin)), entryAt]
    · intro i hi he
      refine hc (hmem.mp ?_)
      simp only [pageSize, ptrsPerTable] at hi ⊢
      omega

/-- A page filled with entries that reference no table is linked below `(l₀, v₀)`, where
there was no table. -/
structure NewTable (ops : MemoryOps) (s s' : PgMem) (l₀ : PageTableLevel) (v₀ : ℕ)
    (f : ℕ → Word) : Prop where
  lawful : ops.Lawful
  sound : Sound ops s
  ne_pt : l₀ ≠ .pt
  lt : v₀ < 2 ^ 48
  linked : Linked ops s.mem l₀ v₀
  absent : ¬ IsTable ops l₀ (entryAt ops s.mem l₀ v₀)
  page_lt : v₀ / l₀.size < ops.info.pageNum l₀.next
  leaves : ∀ i < ptrsPerTable, ¬ IsTable ops l₀.next (f i)
  eq : s' = linkTable ops l₀ v₀ (ops.info.entryAddr l₀ v₀) f s

namespace NewTable

variable {l₀ : PageTableLevel} {v₀ : ℕ} {f : ℕ → Word} (h : NewTable ops s s' l₀ v₀ f)

include h

/-- Every entry that a walk can read, after the link. -/
theorem entryAt_eq {l : PageTableLevel} {v : ℕ} (hpool : ops.info.InPool l v) :
    entryAt ops s'.mem l v =
      if l = l₀ ∧ v / l.size = v₀ / l₀.size then tableEntry ops (ops.info.tablePage l₀ v₀)
      else if l = l₀.next ∧ v / l₀.size = v₀ / l₀.size then f (l₀.next.index v)
      else entryAt ops s.mem l v := by
  rw [h.eq]
  exact entryAt_linkTable h.ne_pt hpool (h.sound.inPool h.lt h.linked) h.page_lt f s

theorem next_ne : l₀.next ≠ l₀ := by
  intro he
  have := shift_next_lt h.ne_pt
  rw [he] at this
  exact lt_irrefl _ this

/-- The entry references the page. -/
theorem isTable : IsTable ops l₀ (tableEntry ops (ops.info.tablePage l₀ v₀)) := by
  refine ⟨tableEntry_present h.lawful _, ?_⟩
  have hdvd : pageSize ∣ ops.info.tablePage l₀ v₀ := PoolLayout.tablePage_dvd l₀ v₀
  have hps := tableEntry_ps h.lawful hdvd
  have hne := h.ne_pt
  cases l₀ <;> simp_all [Maps, entryLarge]

/-- The entry of the block is the new reference. -/
theorem entryAt_block_eq {v : ℕ} (hvv : v / l₀.size = v₀ / l₀.size) :
    entryAt ops s'.mem l₀ v = tableEntry ops (ops.info.tablePage l₀ v₀) := by
  have hpool : ops.info.InPool l₀ v := by
    rw [PoolLayout.InPool, hvv]
    exact h.sound.inPool h.lt h.linked
  rw [h.entryAt_eq hpool, if_pos ⟨rfl, hvv⟩]

/-- The entries below are those of the page. -/
theorem entryAt_below {v : ℕ} (hvv : v / l₀.size = v₀ / l₀.size) :
    entryAt ops s'.mem l₀.next v = f (l₀.next.index v) := by
  have hpool : ops.info.InPool l₀.next v := PoolLayout.inPool_next h.ne_pt (by
    rw [hvv]
    exact h.page_lt)
  rw [h.entryAt_eq hpool, if_neg (fun hc => h.next_ne hc.1), if_pos ⟨rfl, hvv⟩]

/-- An entry below references no table. -/
theorem not_isTable_below {v : ℕ} (hvv : v / l₀.size = v₀ / l₀.size) :
    ¬ IsTable ops l₀.next (entryAt ops s'.mem l₀.next v) := by
  rw [h.entryAt_below hvv]
  exact h.leaves _ (index_lt _ _)

/-- The block had no table. -/
theorem not_isTable_block {v : ℕ} (hvv : v / l₀.size = v₀ / l₀.size) :
    ¬ IsTable ops l₀ (entryAt ops s.mem l₀ v) := by
  rw [entryAt_block le_rfl hvv]
  exact h.absent

/-- The walks of other blocks are untouched. -/
theorem frame : Frame ops l₀ {v₀ / l₀.size} s.mem s'.mem := by
  intro v k hv hk hkv
  rw [h.entryAt_eq (h.sound.inPool hv hkv), if_neg, if_neg]
  · rintro ⟨rfl, hvv⟩
    rcases hk with hk | hk
    · have := shift_next_lt h.ne_pt
      omega
    · exact hk hvv
  · rintro ⟨rfl, hvv⟩
    rcases hk with hk | hk
    · exact absurd hk (lt_irrefl _)
    · exact hk hvv

/-- Below the block only the new table is linked. -/
theorem linked_iff_block {k : PageTableLevel} {v : ℕ} (hv : v < 2 ^ 48)
    (hvv : v / l₀.size = v₀ / l₀.size) (hk : k.shift < l₀.shift) :
    Linked ops s'.mem k v ↔ k = l₀.next := by
  constructor
  · -- a level below the new table would need one of its entries to be a table
    intro hkv
    by_contra hne
    have hlt := shift_lt_next h.ne_pt hk hne
    exact h.not_isTable_below hvv (hkv.isTable_above hlt)
  · rintro rfl
    refine (linked_next h.ne_pt v).mpr ⟨?_, ?_⟩
    · exact (h.frame.linked_iff hv (Or.inl le_rfl)).mpr ((linked_block hvv).mpr h.linked)
    · rw [h.entryAt_block_eq hvv]
      exact h.isTable

/-- Exactly one more table is linked. -/
theorem linked_iff (k : PageTableLevel) {v : ℕ} (hv : v < 2 ^ 48) : Linked ops s'.mem k v ↔
    Linked ops s.mem k v ∨ k = l₀.next ∧ v / l₀.size = v₀ / l₀.size := by
  by_cases hvv : v / l₀.size = v₀ / l₀.size
  · by_cases hk : l₀.shift ≤ k.shift
    · have hne : k ≠ l₀.next := by
        rintro rfl
        have := shift_next_lt h.ne_pt
        omega
      rw [h.frame.linked_iff hv (Or.inl hk)]
      simp [hne]
    · have hnot : ¬ Linked ops s.mem k v := fun hkv =>
        h.not_isTable_block hvv (hkv.isTable_above (by omega))
      rw [h.linked_iff_block hv hvv (by omega)]
      simp [hnot, hvv]
  · rw [h.frame.linked_iff hv (Or.inr hvv)]
    simp [hvv]

/-- An old reference keeps its entry. -/
theorem entryAt_old {l : PageTableLevel} {v : ℕ} (hl : l ≠ .pt) (hv : v < 2 ^ 48)
    (hold : Linked ops s.mem l.next v) (hnew : Linked ops s'.mem l.next v) :
    entryAt ops s'.mem l v = entryAt ops s.mem l v := by
  have hup := (linked_next hl v).mp hold
  rw [h.entryAt_eq (h.sound.inPool hv hup.1), if_neg, if_neg]
  · rintro ⟨rfl, hvv⟩
    exact h.not_isTable_below hvv ((linked_next hl v).mp hnew).2
  · rintro ⟨rfl, hvv⟩
    exact h.not_isTable_block hvv hup.2

/-- Every reference is canonical after the link. -/
theorem table {l : PageTableLevel} {v : ℕ} (hl : l ≠ .pt) (hv : v < 2 ^ 48)
    (hlv : Linked ops s'.mem l.next v) : v / l.size < ops.info.pageNum l.next ∧
      pageVaddr (entryAt ops s'.mem l v) = ops.info.tablePage l v := by
  rcases (h.linked_iff _ hv).mp hlv with hlv' | ⟨hll, hvv⟩
  · rw [h.entryAt_old hl hv hlv' hlv]
    exact h.sound.table l v hl hv hlv'
  · obtain rfl : l = l₀ := next_inj hl h.ne_pt hll
    have hdvd : pageSize ∣ ops.info.tablePage l v₀ := PoolLayout.tablePage_dvd l v₀
    have hple : ops.info.tablePage l v₀ + pageSize ≤ 2 ^ 39 := PoolLayout.tablePage_le h.page_lt
    refine ⟨hvv ▸ h.page_lt, ?_⟩
    rw [h.entryAt_block_eq hvv, pageVaddr, tableEntry, toNat_ofNat_or_and_pfnMask hdvd
      (by simp only [pageSize] at hple; omega) h.lawful.default_pfn, PoolLayout.tablePage,
      PoolLayout.tablePage, hvv]

/-- The page that was taken is referenced by no entry. -/
theorem request_fresh : PageRequest.Fresh ops ⟨l₀, v₀, s.mem⟩ := by
  refine ⟨h.ne_pt, h.page_lt, ?_⟩
  intro l v hl hv hlv he
  obtain ⟨hin, hvaddr⟩ := h.sound.table l v hl hv hlv
  obtain ⟨rfl, hvv⟩ := PoolLayout.tablePage_inj hl h.ne_pt hin h.page_lt (hvaddr.symm.trans he)
  exact h.not_isTable_block hvv ((linked_next hl v).mp hlv).2

/-- After the step the tables are still sound. -/
theorem sound_after : Sound ops s' := by
  refine ⟨fun l v hl hv hlv => h.table hl hv hlv, fun r hr => ?_⟩
  have hreq : s'.requests = ⟨l₀, v₀, s.mem⟩ :: s.requests := by
    rw [h.eq, linkTable, PgMem.setPgentry, fillPage_requests, getTablePage]
  rw [hreq, List.mem_cons] at hr
  rcases hr with rfl | hr
  · exact h.request_fresh
  · exact h.sound.fresh r hr

end NewTable

/-- The walks of other blocks are untouched, and exactly one more table is linked. -/
theorem linkTable_spec (hops : ops.Lawful) (hs : Sound ops s) {l₀ : PageTableLevel}
    (hl₀ : l₀ ≠ .pt) {v₀ : ℕ} (hv₀ : v₀ < 2 ^ 48) (hlink : Linked ops s.mem l₀ v₀)
    (hold : ¬ IsTable ops l₀ (entryAt ops s.mem l₀ v₀))
    (hpage : v₀ / l₀.size < ops.info.pageNum l₀.next) {f : ℕ → Word}
    (hf : ∀ i < ptrsPerTable, ¬ IsTable ops l₀.next (f i))
    (hs' : s' = linkTable ops l₀ v₀ (ops.info.entryAddr l₀ v₀) f s) :
    Sound ops s' ∧ Frame ops l₀ {v₀ / l₀.size} s.mem s'.mem ∧
      (∀ v < 2 ^ 48, v / l₀.size = v₀ / l₀.size →
        entryAt ops s'.mem l₀.next v = f (l₀.next.index v)) ∧
      ∀ k v, v < 2 ^ 48 → (Linked ops s'.mem k v ↔
        Linked ops s.mem k v ∨ k = l₀.next ∧ v / l₀.size = v₀ / l₀.size) := by
  have h : NewTable ops s s' l₀ v₀ f := ⟨hops, hs, hl₀, hv₀, hlink, hold, hpage, hf, hs'⟩
  exact ⟨h.sound_after, h.frame, fun v _ hvv => h.entryAt_below hvv, fun k v hv => h.linked_iff k hv⟩

/-! ## The loop over one table -/

/-- `[start, stop)` is a nonempty interval of whole 4-KByte pages inside one
block of level `l`, and so inside the table below one entry of that level. -/
structure Within (l : PageTableLevel) (start stop : ℕ) : Prop where
  lt : start < stop
  le : stop ≤ 2 ^ 48
  block : (stop - 1) / l.size = start / l.size
  start_dvd : pageSize ∣ start
  stop_dvd : pageSize ∣ stop

namespace Within

variable {l : PageTableLevel} {start stop x : ℕ}

theorem div_eq (h : Within l start stop) (hge : start ≤ x) (hlt : x < stop) :
    x / l.size = start / l.size := by
  have h₁ : start / l.size ≤ x / l.size := Nat.div_le_div_right hge
  have h₂ : x / l.size ≤ (stop - 1) / l.size := Nat.div_le_div_right (by omega)
  have h₃ := h.block
  omega

theorem page_dvd_nextBlock (k : PageTableLevel) (x : ℕ) : pageSize ∣ nextBlock k.shift x := by
  refine Dvd.dvd.trans ?_ (dvd_nextBlock k.shift x)
  exact pow_dvd_pow 2 (show 12 ≤ k.shift by cases k <;> decide)

/-- The part of the interval that one iteration of a loop handles. -/
theorem step {k : PageTableLevel} (h : Within l start stop) (hge : start ≤ x) (hlt : x < stop)
    (hx : x = start ∨ 2 ^ k.shift ∣ x) : Within k x (min (nextBlock k.shift x) stop) := by
  have hnx := lt_nextBlock k.shift x
  refine ⟨by omega, by have := h.le; omega, ?_, ?_, ?_⟩
  · rw [div_eq_iff]
    have := blockStart_le k.shift x
    omega
  · rcases hx with rfl | hx
    · exact h.start_dvd
    · exact (pow_dvd_pow 2 (show 12 ≤ k.shift by cases k <;> decide)).trans hx
  · rcases min_choice (nextBlock k.shift x) stop with he | he <;> rw [he]
    · exact page_dvd_nextBlock k x
    · exact h.stop_dvd

end Within

/-- A loop over the entries of the table below a block of level `l`: the body
sees each block of the interval with the index of its entry. -/
theorem tableLoop_rule {σ : Type*} {l : PageTableLevel} (hl : l ≠ .pt) {start stop : ℕ}
    (hw : Within l start stop) {next : ℕ → ℕ} {body : ℕ → ℕ → σ → σ} {I : ℕ → σ → Prop}
    (hnext : ∀ x, x = start ∨ 2 ^ l.next.shift ∣ x → next x = nextBlock l.next.shift x)
    (hstep : ∀ x s, start ≤ x → x < stop → (x = start ∨ 2 ^ l.next.shift ∣ x) → I x s →
      I (min (nextBlock l.next.shift x) stop) (body (l.next.index x) x s))
    (s : σ) (hI : I start s) :
    I stop (forBlocks ptrsPerTable next stop body (ptrsPerTable - l.next.index start) start s) := by
  have hidx := index_lt l.next start
  have hlast := index_lt l.next (stop - 1)
  have hdiv := div_size_eq hl start
  have hdiv' := div_size_eq hl (stop - 1)
  rw [hw.block] at hdiv'
  refine forBlocks_rule (k := l.next.shift) (j := l.next.index start) hnext ?_ _ _ _
    (Nat.sub_le _ _) (by omega) (by simp only [size] at hdiv hdiv'; omega) le_rfl hw.lt
    (Or.inl rfl) hI
  intro x s hge hlt hx hI
  have hx' := div_size_eq hl x
  rw [hw.div_eq hge hlt] at hx'
  have hmono : start / l.next.size ≤ x / l.next.size := Nat.div_le_div_right hge
  have hindex : l.next.index start + (x / 2 ^ l.next.shift - start / 2 ^ l.next.shift) =
      l.next.index x := by
    simp only [size] at hdiv hx' hmono
    omega
  rw [hindex]
  exact hstep x s hge hlt hx hI

/-- The loop over the entries of the root table. -/
theorem rootLoop_rule {σ : Type*} {start stop : ℕ} (hle : stop ≤ 2 ^ 48)
    (hstart : pageSize ∣ start) (hstop : pageSize ∣ stop) {body : ℕ → σ → σ} {I : ℕ → σ → Prop}
    (hstep : ∀ x s, start ≤ x → (x = start ∨ 2 ^ pml4.shift ∣ x) →
      Within .pml4 x (min (nextBlock pml4.shift x) stop) → I x s →
      I (min (nextBlock pml4.shift x) stop) (body x s))
    (s : σ) (hrange : start ≤ stop) (hI : I start s) :
    I stop (whileBlocks pml4.shift stop body start s) := by
  refine whileBlocks_rule ?_ s hrange hI
  intro x s hge hlt hx hI
  have hnx := lt_nextBlock pml4.shift x
  refine hstep x s hge hx ⟨by omega, by omega, ?_, ?_, ?_⟩ hI
  · rw [div_eq_iff]
    have := blockStart_le pml4.shift x
    omega
  · rcases hx with rfl | hx
    · exact hstart
    · exact (pow_dvd_pow 2 (show 12 ≤ pml4.shift by decide)).trans hx
  · rcases min_choice (nextBlock pml4.shift x) stop with he | he <;> rw [he]
    · exact Within.page_dvd_nextBlock .pml4 x
    · exact hstop

/-- The slot of the root table that `pml4e_offset` computes. -/
theorem root_slot {v : ℕ} (hv : v < 2 ^ 48) :
    ops.info.pml4Base + 8 * pml4.index v = ops.info.entryAddr .pml4 v := by
  have : v / 2 ^ 39 < 512 := Nat.div_lt_of_lt_mul (by omega)
  rw [PoolLayout.entryAddr, index, size, shift, ptrsPerTable, Nat.mod_eq_of_lt this]
  rfl

end Acrn
