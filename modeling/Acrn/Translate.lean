import Acrn.TableStep

/-!
# From entries to addresses

`lookup_address` ends where the walk ends, and the host physical address is
assembled from the entry it finds as `local_gpa2hpa` does: the frame of the
entry above the page size, the offset of the address below it.
-/

namespace Acrn

open BlockLoop BitField PageTableLevel

/-- `INVALID_HPA` is `none`. -/
def localGpa2hpa (ops : MemoryOps) (pml4Page gpa : ℕ) (s : PgMem) : Option Word :=
  (lookupAddress ops pml4Page gpa s).map fun (pgentry, pgSize) =>
    ((s.mem pgentry &&& ~~~eptPfnHighMask) &&& ~~~(BitVec.ofNat 64 pgSize - 1#64)) |||
      (BitVec.ofNat 64 gpa &&& (BitVec.ofNat 64 pgSize - 1#64))

/-- The entry `lookup_address` finds, with the size of the page it maps. -/
def lookupEntry (ops : MemoryOps) (pml4Page addr : ℕ) (s : PgMem) : Option (Word × ℕ) :=
  (lookupAddress ops pml4Page addr s).map fun (pgentry, pgSize) => (s.mem pgentry, pgSize)

/-- The address that a leaf gives to `v`. -/
def Leaf.hpa (L : Leaf) (v : ℕ) : Word :=
  ((L.entry &&& ~~~eptPfnHighMask) &&& ~~~(BitVec.ofNat 64 L.level.size - 1#64)) |||
    (BitVec.ofNat 64 v &&& (BitVec.ofNat 64 L.level.size - 1#64))

variable {ops : MemoryOps} {s : PgMem}

/-- The walk only looks at the low 48 bits of the address. -/
theorem index_mod (l : PageTableLevel) (v : ℕ) : l.index (v % 2 ^ 48) = l.index v := by
  cases l <;> simp only [index, size, shift, ptrsPerTable] <;> omega

theorem lookupAddress_mod (ops : MemoryOps) (pml4Page v : ℕ) (s : PgMem) :
    lookupAddress ops pml4Page (v % 2 ^ 48) s = lookupAddress ops pml4Page v s := by
  simp only [lookupAddress, index_mod]

/-- `lookup_address` finds the leaf of the walk. -/
theorem lookupAddress_eq (hs : Sound ops s) {v : ℕ} (hv : v < 2 ^ 48) :
    lookupAddress ops ops.info.pml4Base v s =
      (leaf ops s.mem v).map fun L => (ops.info.entryAddr L.level v, L.level.size) := by
  have hentry : ∀ l, s.mem (ops.info.entryAddr l v) = entryAt ops s.mem l v := fun _ => rfl
  have hslot : ∀ l : PageTableLevel, l ≠ .pt → Linked ops s.mem l.next v →
      pageVaddr (entryAt ops s.mem l v) + 8 * l.next.index v = ops.info.entryAddr l.next v :=
    fun l hl hlink => hs.slot_eq hl hv hlink
  simp only [lookupAddress, root_slot hv, hentry]
  rw [leaf, leafFrom_eq]
  by_cases h₄ : ops.pgentryPresent (entryAt ops s.mem .pml4 v) = 0#64
  · rw [if_pos h₄, if_pos h₄]
    rfl
  have l₄ : Linked ops s.mem .pdpt v := ⟨h₄, id⟩
  have s₄ : _ + 8 * pdpt.index v = ops.info.entryAddr .pdpt v := hslot .pml4 (by decide) l₄
  rw [if_neg h₄, if_neg h₄, if_neg (show ¬ Maps .pml4 _ from id), s₄, hentry,
    next_pml4, leafFrom_eq]
  by_cases h₃ : ops.pgentryPresent (entryAt ops s.mem .pdpt v) = 0#64
  · rw [if_pos h₃, if_pos h₃]
    rfl
  rw [if_neg h₃, if_neg h₃]
  by_cases p₃ : entryLarge (entryAt ops s.mem .pdpt v) ≠ 0#64
  · rw [if_pos p₃, if_pos (show Maps .pdpt _ from p₃)]
    rfl
  have l₃ : Linked ops s.mem .pd v := ⟨l₄, h₃, p₃⟩
  have s₃ : _ + 8 * pd.index v = ops.info.entryAddr .pd v := hslot .pdpt (by decide) l₃
  rw [if_neg p₃, if_neg (show ¬ Maps .pdpt _ from p₃), s₃, hentry,
    next_pdpt, leafFrom_eq]
  by_cases h₂ : ops.pgentryPresent (entryAt ops s.mem .pd v) = 0#64
  · rw [if_pos h₂, if_pos h₂]
    rfl
  rw [if_neg h₂, if_neg h₂]
  by_cases p₂ : entryLarge (entryAt ops s.mem .pd v) ≠ 0#64
  · rw [if_pos p₂, if_pos (show Maps .pd _ from p₂)]
    rfl
  have l₂ : Linked ops s.mem .pt v := ⟨l₄, ⟨h₃, p₃⟩, h₂, p₂⟩
  have s₂ : _ + 8 * pt.index v = ops.info.entryAddr .pt v := hslot .pd (by decide) l₂
  rw [if_neg p₂, if_neg (show ¬ Maps .pd _ from p₂), s₂, hentry,
    next_pd, leafFrom_eq]
  by_cases h₁ : ops.pgentryPresent (entryAt ops s.mem .pt v) = 0#64
  · rw [if_pos h₁, if_pos h₁]
    rfl
  · rw [if_neg h₁, if_neg h₁, if_pos (show Maps .pt _ from trivial)]
    rfl

theorem lookupEntry_eq (hs : Sound ops s) (v : ℕ) :
    lookupEntry ops ops.info.pml4Base v s =
      (leaf ops s.mem (v % 2 ^ 48)).map fun L => (L.entry, L.level.size) := by
  rw [lookupEntry, ← lookupAddress_mod, lookupAddress_eq hs (Nat.mod_lt v (Nat.two_pow_pos 48))]
  cases hL : leaf ops s.mem (v % 2 ^ 48) with
  | none => rfl
  | some L =>
    simp only [Option.map_some]
    rw [(leafOver_some hL).2.1]
    rfl

theorem localGpa2hpa_eq (hs : Sound ops s) (v : ℕ) :
    localGpa2hpa ops ops.info.pml4Base v s =
      (leaf ops s.mem (v % 2 ^ 48)).map fun L => L.hpa v := by
  rw [localGpa2hpa, ← lookupAddress_mod, lookupAddress_eq hs (Nat.mod_lt v (Nat.two_pow_pos 48))]
  cases hL : leaf ops s.mem (v % 2 ^ 48) with
  | none => rfl
  | some L =>
    simp only [Option.map_some, Leaf.hpa]
    rw [(leafOver_some hL).2.1]
    rfl

theorem lookupAddress_eq_none (hs : Sound ops s) {v : ℕ} (hv : v < 2 ^ 48) :
    lookupAddress ops ops.info.pml4Base v s = none ↔ leaf ops s.mem v = none := by
  rw [lookupAddress_eq hs hv, Option.map_eq_none_iff]

/-! ## Decoding -/

/-- The bits of an entry that can hold a page frame. Everything else is an
attribute. -/
def frameMask : Word := fieldMask 64 12 52

theorem frame_mask {l : PageTableLevel} (hl : l ≠ .pml4) :
    ~~~eptPfnHighMask &&& ~~~(BitVec.ofNat 64 l.size - 1#64) = fieldMask 64 l.shift 52 := by
  cases l
  case pml4 => exact absurd rfl hl
  all_goals decide

theorem offset_mask (l : PageTableLevel) :
    BitVec.ofNat 64 l.size - 1#64 = fieldMask 64 0 l.shift := by
  cases l <;> decide

theorem shift_bounds {l : PageTableLevel} (hl : l ≠ .pml4) : 12 ≤ l.shift ∧ l.shift ≤ 30 := by
  cases l
  case pml4 => exact absurd rfl hl
  all_goals decide

theorem Leaf.hpa_toNat {L : Leaf} (hl : L.level ≠ .pml4) (v : ℕ) :
    (L.hpa v).toNat = L.entry.toNat % 2 ^ 52 / L.level.size * L.level.size + v % L.level.size := by
  obtain ⟨-, hs⟩ := shift_bounds hl
  have hframe : (L.entry &&& fieldMask 64 L.level.shift 52).toNat =
      L.entry.toNat % 2 ^ 52 / L.level.size * L.level.size :=
    toNat_and_fieldMask _ (by omega) (by decide)
  have hoff : (BitVec.ofNat 64 v &&& fieldMask 64 0 L.level.shift).toNat = v % L.level.size := by
    rw [toNat_and_fieldMask_low _ (by omega), BitVec.toNat_ofNat]
    exact Nat.mod_mod_of_dvd _ (pow_dvd_pow 2 (by omega))
  rw [Leaf.hpa, BitVec.and_assoc, frame_mask hl, offset_mask,
    toNat_or_of_aligned (n := L.level.shift), hframe, hoff]
  · rw [hframe]
    exact Dvd.intro_left _ rfl
  · rw [hoff]
    exact Nat.mod_lt _ (Nat.two_pow_pos _)

/-- Only the low 48 bits matter here, too. -/
theorem Leaf.hpa_mod {L : Leaf} (hl : L.level ≠ .pml4) (v : ℕ) : L.hpa (v % 2 ^ 48) = L.hpa v := by
  apply BitVec.eq_of_toNat_eq
  have hs := (shift_bounds hl).2
  rw [Leaf.hpa_toNat hl, Leaf.hpa_toNat hl, Nat.mod_mod_of_dvd v (pow_dvd_pow 2 (by omega))]

/-- A leaf assembled from an aligned address and attributes maps its block to
that address. -/
theorem hpa_of_paddr {l : PageTableLevel} (hl : l ≠ .pml4) {a : ℕ} (ha : l.size ∣ a) {right : Word}
    (hright : right &&& frameMask = 0#64) (v : ℕ) :
    (Leaf.hpa ⟨l, BitVec.ofNat 64 a ||| right⟩ v).toNat = (a + v % l.size) % 2 ^ 52 := by
  obtain ⟨hs₁, hs₂⟩ := shift_bounds hl
  have hpos : 0 < l.size := Nat.two_pow_pos _
  have hdvd : l.size ∣ 2 ^ 52 := pow_dvd_pow 2 (by omega)
  have hclear : right &&& fieldMask 64 l.shift 52 = 0#64 := by
    refine and_eq_zero_of_subset hright ?_
    apply BitVec.eq_of_getLsbD_eq
    intro i hi
    rw [frameMask, BitVec.getLsbD_and, getLsbD_fieldMask (by omega), getLsbD_fieldMask (by decide)]
    by_cases h : l.shift ≤ i
    · simp [show 12 ≤ i by omega, h, hi]
    · simp [h]
  have hframe : (BitVec.ofNat 64 a ||| right).toNat % 2 ^ 52 / l.size * l.size = a % 2 ^ 52 := by
    rw [size, ← toNat_and_fieldMask _ (by omega) (by decide), or_and_of_disjoint_right hclear,
      toNat_and_fieldMask _ (by omega) (by decide), BitVec.toNat_ofNat,
      Nat.mod_mod_of_dvd a (pow_dvd_pow 2 (by decide))]
    exact Nat.div_mul_cancel ((Nat.dvd_mod_iff hdvd).mpr ha)
  have hoff : v % l.size < l.size := Nat.mod_lt _ hpos
  rw [Leaf.hpa_toNat hl, hframe]
  obtain ⟨k, hk⟩ := hdvd
  obtain ⟨b, rfl⟩ := ha
  rw [hk, Nat.mul_mod_mul_left, Nat.add_mod, Nat.mul_mod_mul_left,
    Nat.mod_eq_of_lt (a := v % l.size)]
  · refine (Nat.mod_eq_of_lt ?_).symm
    have hk0 : 0 < k := by
      rcases Nat.eq_zero_or_pos k with rfl | h
      · omega
      · exact h
    have := Nat.mod_lt b hk0
    calc l.size * (b % k) + v % l.size < l.size * (b % k) + l.size := by omega
      _ = l.size * (b % k + 1) := by ring
      _ ≤ l.size * k := Nat.mul_le_mul_left _ this
  · calc v % l.size < l.size := hoff
      _ ≤ l.size * k := by rw [← hk]; exact Nat.pow_le_pow_right (by decide) (by omega)

end Acrn
