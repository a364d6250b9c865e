import Acrn.Page

/-!
# The memory map

The E820 tables: the one that the boot loader hands over, and what the hypervisor reads off it.
The end of an entry is computed modulo `2 ^ 64`.
-/

namespace Acrn

/-- `E820_TYPE_RAM`. -/
def e820TypeRam : BitVec 32 := 1#32
/-- `E820_TYPE_RESERVED`. -/
def e820TypeReserved : BitVec 32 := 2#32

/-- `E820_MAX_ENTRIES`. -/
abbrev e820MaxEntries : ℕ := 32

/-- `MEM_1M`. -/
def mem1M : Word := 0x100000#64

/-- `struct e820_entry`. -/
structure E820Entry where
  baseaddr : Word
  length : Word
  type : BitVec 32

/-- `struct mem_range`. -/
structure MemRange where
  memBottom : Word
  memTop : Word
  totalMemSize : Word

/-- `obtain_mem_range_info`. -/
def obtainMemRangeInfo (e820 : List E820Entry) : MemRange :=
  e820.foldl
    (fun range entry =>
      { memBottom := if entry.baseaddr < range.memBottom then entry.baseaddr else range.memBottom
        memTop :=
          if range.memTop < entry.baseaddr + entry.length then entry.baseaddr + entry.length
          else range.memTop
        totalMemSize :=
          if entry.type = e820TypeRam then range.totalMemSize + entry.length
          else range.totalMemSize })
    ⟨BitVec.allOnes 64, 0#64, 0#64⟩

/-- The end of an entry, not modulo `2 ^ 64`. -/
def E820Entry.stop (entry : E820Entry) : ℕ := entry.baseaddr.toNat + entry.length.toNat

/-- The bytes of RAM in a list of entries. -/
def ramSize (e820 : List E820Entry) : ℕ :=
  ((e820.filter (·.type = e820TypeRam)).map (·.length.toNat)).sum

theorem E820Entry.toNat_stop {entry : E820Entry} (h : entry.stop < 2 ^ 64) :
    (entry.baseaddr + entry.length).toNat = entry.stop := by
  rw [BitVec.toNat_add]
  exact Nat.mod_eq_of_lt h

/-- The end of an entry that runs past `2 ^ 64` comes out below its base. -/
theorem E820Entry.toNat_stop_lt {entry : E820Entry} (h : 2 ^ 64 ≤ entry.stop) :
    (entry.baseaddr + entry.length).toNat < entry.baseaddr.toNat := by
  have hbase := entry.baseaddr.isLt
  have hlength := entry.length.isLt
  rw [BitVec.toNat_add]
  simp only [E820Entry.stop] at h
  omega

/-! ## The range

The loop keeps the least base, the greatest end and the sum of the sizes. Each of the three is a
fold over the entries. -/

section Range

variable {e820 : List E820Entry}

theorem memTop_concat (e820 : List E820Entry) (entry : E820Entry) :
    (obtainMemRangeInfo (e820 ++ [entry])).memTop =
      if (obtainMemRangeInfo e820).memTop < entry.baseaddr + entry.length then
        entry.baseaddr + entry.length
      else (obtainMemRangeInfo e820).memTop := by
  rw [obtainMemRangeInfo, List.foldl_concat]
  rfl

theorem memBottom_concat (e820 : List E820Entry) (entry : E820Entry) :
    (obtainMemRangeInfo (e820 ++ [entry])).memBottom =
      if entry.baseaddr < (obtainMemRangeInfo e820).memBottom then entry.baseaddr
      else (obtainMemRangeInfo e820).memBottom := by
  rw [obtainMemRangeInfo, List.foldl_concat]
  rfl

theorem totalMemSize_concat (e820 : List E820Entry) (entry : E820Entry) :
    (obtainMemRangeInfo (e820 ++ [entry])).totalMemSize =
      if entry.type = e820TypeRam then (obtainMemRangeInfo e820).totalMemSize + entry.length
      else (obtainMemRangeInfo e820).totalMemSize := by
  rw [obtainMemRangeInfo, List.foldl_concat]
  rfl

/-- `mem_top` is the greatest of the ends. -/
theorem lt_memTop {n : ℕ} :
    n < (obtainMemRangeInfo e820).memTop.toNat ↔
      ∃ entry ∈ e820, n < (entry.baseaddr + entry.length).toNat := by
  induction e820 using List.reverseRecOn with
  | nil => simp [obtainMemRangeInfo]
  | append_singleton e820 entry ih =>
    simp only [memTop_concat, List.mem_append, List.mem_singleton, or_and_right, exists_or,
      exists_eq_left, ← ih]
    split
    · next h =>
      have hlt := BitVec.lt_def.mp h
      constructor
      · exact .inr
      · rintro (hn | hn)
        · exact hn.trans hlt
        · exact hn
    · next h =>
      have hle := BitVec.le_def.mp (BitVec.not_lt.mp h)
      constructor
      · exact .inl
      · rintro (hn | hn)
        · exact hn
        · exact hn.trans_le hle

theorem memBottom_le {entry : E820Entry} (h : entry ∈ e820) :
    (obtainMemRangeInfo e820).memBottom ≤ entry.baseaddr := by
  induction e820 using List.reverseRecOn with
  | nil => cases h
  | append_singleton e820 last ih =>
    rw [memBottom_concat]
    rcases List.mem_append.mp h with h | h
    · split
      · next hlt => exact BitVec.le_trans (BitVec.le_of_lt hlt) (ih h)
      · exact ih h
    · obtain rfl := List.mem_singleton.mp h
      split
      · exact BitVec.le_refl _
      · next hge => exact BitVec.not_lt.mp hge

/-- The sizes add up, as long as their sum is a 64-bit number. -/
theorem totalMemSize_eq (h : ramSize e820 < 2 ^ 64) :
    (obtainMemRangeInfo e820).totalMemSize.toNat = ramSize e820 := by
  induction e820 using List.reverseRecOn with
  | nil => rfl
  | append_singleton e820 entry ih =>
    rw [totalMemSize_concat]
    by_cases htype : entry.type = e820TypeRam
    · have hsize : ramSize (e820 ++ [entry]) = ramSize e820 + entry.length.toNat := by
        simp [ramSize, htype]
      rw [if_pos htype, BitVec.toNat_add, ih (by omega), Nat.mod_eq_of_lt (by omega), hsize]
    · have hsize : ramSize (e820 ++ [entry]) = ramSize e820 := by simp [ramSize, htype]
      rw [if_neg htype, ih (by omega), hsize]

end Range

/-! ## RAM below 4 GByte -/

/-- RAM that begins and ends below 4 GByte. -/
def E820Entry.LowRam (entry : E820Entry) : Prop :=
  entry.type = e820TypeRam ∧ entry.baseaddr < 0x100000000#64 ∧
    entry.baseaddr + entry.length < 0x100000000#64

instance (entry : E820Entry) : Decidable entry.LowRam :=
  inferInstanceAs (Decidable (_ ∧ _ ∧ _))

/-- An iteration of the loop in `init_paging` that looks for the end of low RAM. -/
def low32Step (low32MaxRam : Word) (entry : E820Entry) : Word :=
  if entry.type = e820TypeRam then
    if entry.baseaddr < 0x100000000#64 then
      let stop := entry.baseaddr + entry.length
      if stop < 0x100000000#64 ∧ low32MaxRam < stop then stop else low32MaxRam
    else low32MaxRam
  else low32MaxRam

/-- The variable `low32_max_ram` of `init_paging` after the loop. -/
def low32MaxRam (e820 : List E820Entry) : Word := e820.foldl low32Step 0#64

theorem low32Step_eq (top : Word) (entry : E820Entry) :
    (low32Step top entry).toNat =
      if entry.LowRam then max top.toNat (entry.baseaddr + entry.length).toNat
      else top.toNat := by
  rw [low32Step]
  split
  · next htype =>
    split
    · next hbase =>
      simp only [E820Entry.LowRam, htype, hbase, true_and]
      by_cases hstop : entry.baseaddr + entry.length < 0x100000000#64
      · rw [if_pos hstop]
        by_cases hlt : top < entry.baseaddr + entry.length
        · rw [if_pos ⟨hstop, hlt⟩]
          exact (max_eq_right (Nat.le_of_lt hlt)).symm
        · rw [if_neg fun h => hlt h.2]
          exact (max_eq_left (Nat.le_of_not_lt hlt)).symm
      · rw [if_neg hstop, if_neg fun h => hstop h.1]
    · next hbase => rw [if_neg fun h => hbase h.2.1]
  · next htype => rw [if_neg fun h => htype h.1]

/-- **`low32_max_ram` is the end of low RAM**: it lies beyond `n` if some entry does. -/
theorem lt_low32MaxRam {e820 : List E820Entry} {n : ℕ} :
    n < (low32MaxRam e820).toNat ↔
      ∃ entry ∈ e820, entry.LowRam ∧ n < (entry.baseaddr + entry.length).toNat := by
  have hfold : ∀ (l : List E820Entry) (top : Word), n < (l.foldl low32Step top).toNat ↔
      n < top.toNat ∨ ∃ entry ∈ l, entry.LowRam ∧ n < (entry.baseaddr + entry.length).toNat := by
    intro l
    induction l with
    | nil => simp
    | cons entry l ih =>
      intro top
      rw [List.foldl_cons, ih, low32Step_eq, List.exists_mem_cons_iff, ← or_assoc]
      refine or_congr_left ?_
      split
      · next hlow => rw [lt_max_iff, and_iff_right hlow]
      · next hlow => rw [or_iff_left fun h => hlow h.1]
  rw [low32MaxRam, hfold]
  simp

theorem low32MaxRam_le (e820 : List E820Entry) : (low32MaxRam e820).toNat ≤ 2 ^ 32 := by
  by_contra h
  obtain ⟨entry, -, hlow, hlt⟩ := lt_low32MaxRam.mp (Nat.lt_of_not_le h)
  have hstop : (entry.baseaddr + entry.length).toNat < 2 ^ 32 := hlow.2.2
  omega

end Acrn
