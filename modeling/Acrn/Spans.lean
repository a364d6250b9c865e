import Acrn.TablePool
import Acrn.Translate

/-!
# The part of a range that one table sees

The walkers cut a range at table boundaries on the way down. `PartOf` says that
an interval is what the cut leaves for one block, `touched` is the set of blocks
an interval meets. Both the specification of `mmu_add` and that of
`mmu_modify_or_del` are stated with them. `Holes` is the second invariant of a
table: an absent entry does not carry `PAGE_PS`, so that no walker takes it for
a large page.
-/

namespace Acrn

open BlockLoop BitField PageTableLevel

/-! ## Parts of a range

An iteration sees the part of the range in its block. That the blocks touched by a range and by its
part are the same is what the induction over the levels needs. -/

/-- `[a, b)` is the part of `[start, stop)` inside the block of level `l` that
holds `a`. -/
structure PartOf (start stop : ℕ) (l : PageTableLevel) (a b : ℕ) : Prop extends Within l a b where
  iff : ∀ u, u / l.size = a / l.size → (start ≤ u ∧ u < stop ↔ a ≤ u ∧ u < b)

/-- The blocks of level `l` that `[a, b)` meets. -/
def touched (l : PageTableLevel) (a b : ℕ) : Set ℕ := {n | ∃ u, a ≤ u ∧ u < b ∧ u / l.size = n}

section

variable {start stop a b x : ℕ} {p l : PageTableLevel}

theorem mem_touched_block (h : Within l a b) {n : ℕ} : n ∈ touched l a b ↔ n = a / l.size := by
  constructor
  · rintro ⟨u, h₁, h₂, rfl⟩
    exact h.div_eq h₁ h₂
  · rintro rfl
    exact ⟨a, le_rfl, h.lt, rfl⟩

theorem not_mem_touched (hx : x = a ∨ 2 ^ l.shift ∣ x) {v : ℕ} (hv : v / l.size = x / l.size) :
    v / l.size ∉ touched l a x := by
  rintro ⟨u, hau, hux, he⟩
  rcases hx with rfl | hx
  · omega
  · have hlt : u < blockStart l.shift x := by
      rw [blockStart_of_dvd hx]
      exact hux
    have := div_lt_of_lt_blockStart hlt
    simp only [size] at he hv
    omega

theorem touched_union (hax : a ≤ x) (hxb : x ≤ b) :
    touched l a x ∪ touched l x b ⊆ touched l a b := by
  rintro n (⟨u, h₁, h₂, h₃⟩ | ⟨u, h₁, h₂, h₃⟩)
  · exact ⟨u, h₁, by omega, h₃⟩
  · exact ⟨u, by omega, h₂, h₃⟩

/-- What comes after a block boundary meets none of the blocks before it. -/
theorem touched_disjoint (hx : x = a ∨ 2 ^ l.shift ∣ x) {n : ℕ} (hn : n ∈ touched l a x) :
    n ∉ touched l x b := by
  obtain ⟨v, hav, hvx, rfl⟩ := hn
  rintro ⟨u, hxu, -, he⟩
  rcases hx with rfl | hx
  · omega
  · have hlt : v < blockStart l.shift x := by rwa [blockStart_of_dvd hx]
    have hdiv := div_lt_of_lt_blockStart hlt
    have hmono : x / 2 ^ l.shift ≤ u / 2 ^ l.shift := Nat.div_le_div_right hxu
    simp only [size] at he
    omega

theorem touched_next (hl : l ≠ .pt) {n : ℕ} (hn : n ∈ touched l.next a b) :
    n / ptrsPerTable ∈ touched l a b := by
  obtain ⟨u, h₁, h₂, rfl⟩ := hn
  exact ⟨u, h₁, h₂, (div_size_next hl u).symm⟩

/-- The part of a range in a block meets the same blocks below as the range. -/
theorem PartOf.touched_iff (h : PartOf start stop l a b) {k : PageTableLevel}
    (hk : k.shift ≤ l.shift) {v : ℕ} (hv : v / l.size = a / l.size) :
    v / k.size ∈ touched k start stop ↔ v / k.size ∈ touched k a b := by
  have hblock : ∀ u, u / k.size = v / k.size → u / l.size = a / l.size :=
    fun u hu => (div_size_of_le hk hu).trans hv
  constructor
  · rintro ⟨u, h₁, h₂, hu⟩
    obtain ⟨h₃, h₄⟩ := (h.iff u (hblock u hu)).mp ⟨h₁, h₂⟩
    exact ⟨u, h₃, h₄, hu⟩
  · rintro ⟨u, h₁, h₂, hu⟩
    obtain ⟨h₃, h₄⟩ := (h.iff u (hblock u hu)).mpr ⟨h₁, h₂⟩
    exact ⟨u, h₃, h₄, hu⟩

/-- One iteration cuts the part of a block down to the part of an entry. -/
theorem PartOf.step (h : PartOf start stop p a b) (hp : p ≠ .pt) (hge : a ≤ x) (hlt : x < b)
    (hx : x = a ∨ 2 ^ p.next.shift ∣ x) :
    PartOf start stop p.next x (min (nextBlock p.next.shift x) b) := by
  refine ⟨h.toWithin.step hge hlt hx, fun u hu => ?_⟩
  have hup : u / p.size = a / p.size := by
    rw [div_size_of_le (Nat.le_of_lt (shift_next_lt hp)) hu]
    exact h.div_eq hge hlt
  obtain ⟨hlow, hhigh⟩ := div_eq_iff.mp hu
  rw [h.iff u hup]
  constructor
  · rintro ⟨hau, hub⟩
    refine ⟨?_, by omega⟩
    rcases hx with rfl | hx
    · exact hau
    · rwa [blockStart_of_dvd hx] at hlow
  · rintro ⟨hxu, hu⟩
    omega

/-- A block that is covered as a whole starts an iteration. -/
theorem PartOf.covered_iff (h : PartOf start stop p a b) (hp : p ≠ .pt) (hge : a ≤ x)
    (hlt : x < b) (hx : x = a ∨ 2 ^ p.next.shift ∣ x) :
    (start ≤ blockStart p.next.shift x ∧ nextBlock p.next.shift x ≤ stop) ↔
      2 ^ p.next.shift ∣ x ∧ nextBlock p.next.shift x ≤ b := by
  have hlow := blockStart_le p.next.shift x
  have hnx := BlockLoop.lt_nextBlock p.next.shift x
  have hblk : ∀ u, blockStart p.next.shift x ≤ u → u < nextBlock p.next.shift x →
      u / p.size = a / p.size := by
    intro u h₁ h₂
    rw [div_size_of_le (Nat.le_of_lt (shift_next_lt hp)) (div_eq_iff.mpr ⟨h₁, h₂⟩)]
    exact h.div_eq hge hlt
  have hfirst := h.iff _ (hblk (blockStart p.next.shift x) le_rfl (by omega))
  have hlast := h.iff _ (hblk (nextBlock p.next.shift x - 1) (by omega) (by omega))
  constructor
  · rintro ⟨h₁, h₂⟩
    have h₃ := hfirst.mp ⟨h₁, by omega⟩
    refine ⟨?_, by have := hlast.mp ⟨by omega, by omega⟩; omega⟩
    rcases hx with rfl | hx
    · have : x = blockStart p.next.shift x := by omega
      rw [this]
      exact dvd_blockStart _ _
    · exact hx
  · rintro ⟨h₁, h₂⟩
    rw [blockStart_of_dvd h₁] at hfirst ⊢
    have := hfirst.mpr ⟨hge, hlt⟩
    have := hlast.mpr ⟨by omega, by omega⟩
    omega

/-- The root loop cuts the whole range. -/
theorem partOf_root (hge : start ≤ x)
    (hw : Within .pml4 x (min (nextBlock pml4.shift x) stop))
    (hx : x = start ∨ 2 ^ pml4.shift ∣ x) :
    PartOf start stop .pml4 x (min (nextBlock pml4.shift x) stop) := by
  refine ⟨hw, fun u hu => ?_⟩
  obtain ⟨hlow, hhigh⟩ := div_eq_iff.mp hu
  constructor
  · rintro ⟨h₁, h₂⟩
    refine ⟨?_, by omega⟩
    rcases hx with rfl | hx
    · exact h₁
    · rwa [blockStart_of_dvd hx] at hlow
  · rintro ⟨h₁, h₂⟩
    omega

end

/-! ## Absent entries -/

/-- No absent entry that the walk for `v` can meet looks like a large page. -/
def HoleFree (ops : MemoryOps) (m : ℕ → Word) (v : ℕ) : Prop :=
  ∀ l, l = .pdpt ∨ l = .pd → Linked ops m l v →
    ops.pgentryPresent (entryAt ops m l v) = 0#64 → entryLarge (entryAt ops m l v) = 0#64

variable {ops : MemoryOps} {s s' : PgMem}

theorem HoleFree.maps {v : ℕ} (h : HoleFree ops s.mem v) {l : PageTableLevel}
    (hl : l = .pdpt ∨ l = .pd) (hlink : Linked ops s.mem l v)
    (hlarge : entryLarge (entryAt ops s.mem l v) ≠ 0#64) :
    leaf ops s.mem v = some ⟨l, entryAt ops s.mem l v⟩ := by
  have hp : ops.pgentryPresent (entryAt ops s.mem l v) ≠ 0#64 :=
    fun habs => hlarge (h l hl hlink habs)
  rw [leaf_of_entry hlink rfl (not_isTable_of_large hl hlarge), if_neg hp]

theorem HoleFree.congr {m m' : ℕ → Word} {v : ℕ} (h : HoleFree ops m v)
    (hm : ∀ k, Linked ops m k v → entryAt ops m' k v = entryAt ops m k v) :
    HoleFree ops m' v := by
  intro l hl hlink
  have hlink' : Linked ops m l v := (linked_congr fun k _ hk => hm k hk).mp hlink
  rw [hm l hlink']
  exact h l hl hlink'

theorem HoleFree.setLeaf {v : ℕ} (hh : HoleFree ops s.mem v) (hs : Sound ops s)
    (hv : v < 2 ^ 48) {l₀ : PageTableLevel} {v₀ : ℕ}
    (hv₀ : v₀ < 2 ^ 48) (hlink : Linked ops s.mem l₀ v₀)
    (hold : ¬ IsTable ops l₀ (entryAt ops s.mem l₀ v₀)) {e : Word} (hnew : ¬ IsTable ops l₀ e)
    (he : v / l₀.size = v₀ / l₀.size → l₀ = .pt ∨
      (ops.pgentryPresent e = 0#64 → entryLarge e = 0#64)) :
    HoleFree ops (s.setPgentry (ops.info.entryAddr l₀ v₀) e).mem v := by
  obtain ⟨-, hframe, hblock, hlinked⟩ := setLeaf_spec hs hv₀ hlink hold hnew rfl
  by_cases hvv : v / l₀.size = v₀ / l₀.size
  · intro l hl hlv
    have hlv' := (hlinked l v hv).mp hlv
    rcases Nat.lt_trichotomy l.shift l₀.shift with hlt | heq | hgt
    · have := hlv.isTable_above hlt
      rw [hblock v hv hvv] at this
      exact absurd this hnew
    · obtain rfl : l = l₀ := shift_inj heq
      rw [hblock v hv hvv]
      rcases he hvv with rfl | he
      · rcases hl with hl | hl <;> cases hl
      · exact he
    · rw [hframe v l hv (Or.inl hgt) hlv']
      exact hh l hl hlv'
  · exact hh.congr fun k hk => hframe v k hv (Or.inr hvv) hk

theorem HoleFree.linkTable {v : ℕ} (hh : HoleFree ops s.mem v) (hops : ops.Lawful)
    (hs : Sound ops s) (hv : v < 2 ^ 48)
    {l₀ : PageTableLevel} (hl₀ : l₀ ≠ .pt) {v₀ : ℕ} (hv₀ : v₀ < 2 ^ 48)
    (hlink : Linked ops s.mem l₀ v₀) (hold : ¬ IsTable ops l₀ (entryAt ops s.mem l₀ v₀))
    (hpage : v₀ / l₀.size < ops.info.pageNum l₀.next) {f : ℕ → Word}
    (hf : ∀ i < ptrsPerTable, ¬ IsTable ops l₀.next (f i))
    (hf' : ∀ i < ptrsPerTable, ops.pgentryPresent (f i) = 0#64 → entryLarge (f i) = 0#64) :
    HoleFree ops (linkTable ops l₀ v₀ (ops.info.entryAddr l₀ v₀) f s).mem v := by
  obtain ⟨hs', hframe, hbelow, hlinked⟩ := linkTable_spec hops hs hl₀ hv₀ hlink hold hpage hf rfl
  by_cases hvv : v / l₀.size = v₀ / l₀.size
  · intro l hl hlv
    rcases (hlinked l v hv).mp hlv with hlv' | ⟨rfl, -⟩
    · rcases Nat.lt_trichotomy l.shift l₀.shift with hlt | heq | hgt
      · have := hlv'.isTable_above hlt
        rw [entryAt_block le_rfl hvv] at this
        exact absurd this hold
      · obtain rfl : l = l₀ := shift_inj heq
        rw [entryAt_linkTable hl₀ (hs'.inPool hv hlv) (hs.inPool hv₀ hlink) hpage,
          if_pos ⟨rfl, hvv⟩]
        exact fun habs => absurd habs (tableEntry_present hops _)
      · rw [hframe v l hv (Or.inl hgt) hlv']
        exact hh l hl hlv'
    · rw [hbelow v hv hvv]
      exact hf' _ (index_lt _ _)
  · exact hh.congr fun k hk => hframe v k hv (Or.inr hvv) hk

end Acrn
