import Acrn.E820

/-!
# Memory below 1 MByte

`e820_alloc_low_memory` finds the place for the code that a start-up IPI begins with, whose
vector only reaches 1 MByte. It looks for a RAM entry with room for the block behind its first
page boundary, and then takes the block from the other end of the entry.
-/

namespace Acrn

open BlockLoop

/-- `ACRN_INVALID_HPA`. -/
def acrnInvalidHpa : ℕ := 2 ^ 64 - 1

namespace E820Entry

variable (entry : E820Entry)

/-- The variable `start`. -/
def pageStart : ℕ := roundPageUp entry.baseaddr.toNat

/-- The variable `end`. -/
def pageEnd : ℕ := roundPageDown (entry.baseaddr + entry.length).toNat

/-- The variable `length`. -/
def pageLength : ℕ :=
  if entry.pageStart < entry.pageEnd then entry.pageEnd - entry.pageStart else 0

/-- The loop stops at the entry. -/
def Eligible (size : ℕ) : Prop :=
  ¬ (entry.type ≠ e820TypeRam ∨ entry.pageLength < size ∨
    mem1M.toNat < (entry.pageStart + size) % 2 ^ 64)

instance (size : ℕ) : Decidable (entry.Eligible size) := inferInstanceAs (Decidable (¬ _))

/-- The entry has all the bytes of a block. -/
def Covers (a size : ℕ) : Prop := entry.baseaddr.toNat ≤ a ∧ a + size ≤ entry.stop

end E820Entry

/-- The variable `size`: the argument in whole pages. -/
def lowMemorySize (sizeArg : BitVec 32) : BitVec 32 :=
  (((sizeArg + BitVec.ofNat 32 pageSize) - 1#32) >>> 12) <<< 12

/-- `e820_alloc_low_memory`. -/
def e820AllocLowMemory (e820 : List E820Entry) (sizeArg : BitVec 32) : ℕ :=
  let size := (lowMemorySize sizeArg).toNat
  match e820.find? fun entry => entry.Eligible size with
  | none => acrnInvalidHpa
  | some entry =>
    if entry.pageLength = size then entry.pageStart else entry.pageEnd - size

/-- The address is that of a block of RAM that a start-up IPI reaches, or there is none. -/
def LowBlock (e820 : List E820Entry) (size r : ℕ) : Prop :=
  (r = acrnInvalidHpa ∧ ∀ entry ∈ e820, entry.type = e820TypeRam →
    ¬ ∃ a, pageSize ∣ a ∧ a + size ≤ mem1M.toNat ∧ entry.Covers a size) ∨
  (pageSize ∣ r ∧ r + size ≤ mem1M.toNat ∧
    ∃ entry ∈ e820, entry.type = e820TypeRam ∧ entry.Covers r size)

/-- The tables that the search is right about. The entry it stops at ends at 1 MByte or below it,
or has no room for more than the block, and it has the bytes at its first page boundary. (It may
miss them if the boundary wraps or the block is empty; then another entry has to cover the block.)
If it stops nowhere, no RAM entry below 1 MByte runs up to `2 ^ 64`. -/
def SearchFits (e820 : List E820Entry) (size : ℕ) : Prop :=
  match e820.find? fun entry => entry.Eligible size with
  | none => ∀ entry ∈ e820, entry.type = e820TypeRam → 2 ^ 64 ≤ entry.stop →
      mem1M.toNat < entry.baseaddr.toNat + size
  | some entry =>
    (entry.pageEnd ≤ mem1M.toNat ∨ entry.pageLength = size) ∧
      (entry.Covers entry.pageStart size ∨ ∃ other ∈ e820, other.type = e820TypeRam ∧
        other.Covers (max entry.pageStart (entry.pageEnd - size)) size)

/-! ## One entry

The check of the loop and the cut round in different directions. They agree on how much room there
is, and so the block lies in the entry; where it lies is decided by the entry's end. -/

namespace E820Entry

variable {entry : E820Entry} {size : ℕ}

theorem pageEnd_le_stop (entry : E820Entry) : entry.pageEnd ≤ entry.stop := by
  refine (blockStart_le 12 _).trans ?_
  rw [BitVec.toNat_add]
  exact Nat.mod_le _ _

theorem pageSize_dvd_pageStart (entry : E820Entry) : pageSize ∣ entry.pageStart :=
  dvd_blockStart 12 _

theorem pageSize_dvd_pageEnd (entry : E820Entry) : pageSize ∣ entry.pageEnd :=
  dvd_blockStart 12 _

/-- The check of the loop does not wrap. -/
theorem Eligible.spec (h : entry.Eligible size) (hsize : size < 2 ^ 32) :
    entry.type = e820TypeRam ∧ size ≤ entry.pageLength ∧
      entry.pageStart + size ≤ mem1M.toNat := by
  obtain ⟨htype, h⟩ := not_or.mp h
  obtain ⟨hlength, hstart⟩ := not_or.mp h
  have hend : entry.pageEnd < 2 ^ 64 :=
    (blockStart_le 12 _).trans_lt (entry.baseaddr + entry.length).isLt
  have hbegin : entry.pageStart < 2 ^ 64 :=
    (blockStart_le 12 _).trans_lt (Nat.mod_lt _ (by decide))
  have hsum : entry.pageStart + size < 2 ^ 64 := by
    simp only [pageLength] at hlength
    split at hlength <;> omega
  rw [Nat.mod_eq_of_lt hsum] at hstart
  exact ⟨not_not.mp htype, Nat.le_of_not_lt hlength, Nat.le_of_not_lt hstart⟩

/-- A RAM entry that ends below `2 ^ 64` and covers a block below 1 MByte is eligible. -/
theorem eligible_of_covers {a : ℕ} (htype : entry.type = e820TypeRam)
    (hstop : entry.stop < 2 ^ 64) (ha : pageSize ∣ a) (hsize : pageSize ∣ size)
    (hlow : a + size ≤ mem1M.toNat) (hcovers : entry.Covers a size) : entry.Eligible size := by
  obtain ⟨hbase, hend⟩ := hcovers
  have hmem : mem1M.toNat = 0x100000 := rfl
  have hstart : entry.pageStart ≤ a := by
    simp only [pageStart, roundPageUp, blockStart, pageSize] at ha ⊢
    omega
  have hpageEnd : a + size ≤ entry.pageEnd := by
    rw [pageEnd, toNat_stop hstop]
    simp only [roundPageDown, blockStart, pageSize] at ha hsize ⊢
    omega
  have hlength : size ≤ entry.pageLength := by
    rw [pageLength]
    split <;> omega
  rintro (h | h | h)
  · exact h htype
  · omega
  · rw [Nat.mod_eq_of_lt (by omega)] at h
    omega

/-- Where the block is taken from, whichever branch is taken. -/
theorem Eligible.block_eq (h : entry.Eligible size) (hsize : size < 2 ^ 32) :
    (if entry.pageLength = size then entry.pageStart else entry.pageEnd - size) =
      max entry.pageStart (entry.pageEnd - size) := by
  obtain ⟨-, hlength, -⟩ := h.spec hsize
  by_cases hlt : entry.pageStart < entry.pageEnd
  · rw [pageLength, if_pos hlt] at hlength ⊢
    split <;> omega
  · rw [pageLength, if_neg hlt] at hlength ⊢
    split <;> omega

/-- An eligible entry gives a block below 1 MByte if it ends there or has nothing to spare. -/
theorem Eligible.le_mem1M_iff (h : entry.Eligible size) (hsize : size < 2 ^ 32) :
    max entry.pageStart (entry.pageEnd - size) + size ≤ mem1M.toNat ↔
      entry.pageEnd ≤ mem1M.toNat ∨ entry.pageLength = size := by
  obtain ⟨-, hlength, hstart⟩ := h.spec hsize
  by_cases hlt : entry.pageStart < entry.pageEnd
  · rw [pageLength, if_pos hlt] at hlength ⊢
    omega
  · rw [pageLength, if_neg hlt] at hlength ⊢
    omega

/-- The bytes at the first page boundary are there, so those of the block are. -/
theorem Eligible.covers (h : entry.Eligible size) (hsize : size < 2 ^ 32)
    (hcovers : entry.Covers entry.pageStart size) :
    entry.Covers (max entry.pageStart (entry.pageEnd - size)) size := by
  obtain ⟨-, hlength, -⟩ := h.spec hsize
  obtain ⟨hbase, hend⟩ := hcovers
  have hstop := entry.pageEnd_le_stop
  refine ⟨hbase.trans (le_max_left _ _), ?_⟩
  rw [pageLength] at hlength
  split at hlength <;> omega

end E820Entry

/-! ## The search

The loop stops at the first entry that passes the check. What comes out depends on that entry
alone. -/

theorem lowMemorySize_eq {sizeArg : BitVec 32} (h : pageSize ∣ sizeArg.toNat) :
    lowMemorySize sizeArg = sizeArg := by
  have hlt := sizeArg.isLt
  refine BitVec.eq_of_toNat_eq ?_
  rw [lowMemorySize, BitVec.toNat_shiftLeft, BitVec.toNat_ushiftRight, BitVec.toNat_sub,
    BitVec.toNat_add, BitVec.toNat_ofNat, Nat.shiftRight_eq_div_pow, Nat.shiftLeft_eq]
  simp only [pageSize, BitVec.toNat_ofNat] at h ⊢
  omega

/-- No page begins at `ACRN_INVALID_HPA`. -/
theorem not_dvd_acrnInvalidHpa : ¬ pageSize ∣ acrnInvalidHpa := by decide

/-- **`e820_alloc_low_memory`** gives a block of RAM below 1 MByte, or there is none, if and only if
the search fits the table. -/
theorem e820AllocLowMemory_lowBlock (e820 : List E820Entry) (sizeArg : BitVec 32)
    (hsize : pageSize ∣ sizeArg.toNat) :
    LowBlock e820 sizeArg.toNat (e820AllocLowMemory e820 sizeArg) ↔
      SearchFits e820 sizeArg.toNat := by
  have hlt := sizeArg.isLt
  rw [e820AllocLowMemory, lowMemorySize_eq hsize, SearchFits, LowBlock]
  cases hfind : e820.find? fun entry => entry.Eligible sizeArg.toNat with
  | none =>
    have hnone : ∀ entry ∈ e820, ¬ entry.Eligible sizeArg.toNat := by
      simpa [List.find?_eq_none] using hfind
    rw [or_iff_left fun h => not_dvd_acrnInvalidHpa h.1, and_iff_right rfl]
    refine forall₂_congr fun entry hmem => forall_congr' fun htype => ?_
    constructor
    · intro h hwrap
      by_contra hlow
      have hmem1M : mem1M.toNat = 0x100000 := rfl
      -- the first page boundary is a place for the block
      refine h ⟨blockStart 12 (entry.baseaddr.toNat + 4095), dvd_blockStart 12 _, ?_, ?_, ?_⟩ <;>
        simp only [blockStart, pageSize] at hsize ⊢ <;> omega
    · rintro h ⟨a, ha, hlow, hcovers⟩
      by_cases hstop : entry.stop < 2 ^ 64
      · exact hnone entry hmem (E820Entry.eligible_of_covers htype hstop ha hsize hlow hcovers)
      · have hgt := h (Nat.le_of_not_lt hstop)
        have hbase := hcovers.1
        omega
  | some entry =>
    have helig : entry.Eligible sizeArg.toNat := by simpa using List.find?_some hfind
    have hmem := List.mem_of_find?_eq_some hfind
    have htype := (helig.spec hlt).1
    simp only [helig.block_eq hlt]
    have haligned : pageSize ∣ max entry.pageStart (entry.pageEnd - sizeArg.toNat) := by
      rcases max_choice entry.pageStart (entry.pageEnd - sizeArg.toNat) with heq | heq <;> rw [heq]
      · exact entry.pageSize_dvd_pageStart
      · exact Nat.dvd_sub entry.pageSize_dvd_pageEnd hsize
    have hvalid : ¬ (max entry.pageStart (entry.pageEnd - sizeArg.toNat) = acrnInvalidHpa ∧
        ∀ entry ∈ e820, entry.type = e820TypeRam →
          ¬ ∃ a, pageSize ∣ a ∧ a + sizeArg.toNat ≤ mem1M.toNat ∧
            entry.Covers a sizeArg.toNat) := by
      rintro ⟨heq, -⟩
      exact not_dvd_acrnInvalidHpa (heq ▸ haligned)
    rw [or_iff_right hvalid, and_iff_right haligned, helig.le_mem1M_iff hlt]
    refine and_congr_right fun _ => ⟨.inr, ?_⟩
    rintro (h | h)
    · exact ⟨entry, hmem, htype, helig.covers hlt h⟩
    · exact h

theorem e820AllocLowMemory_lowBlock_trampoline :
    LowBlock [⟨0#64, 0x9F000#64, e820TypeRam⟩] (0x2000#32).toNat
        (e820AllocLowMemory [⟨0#64, 0x9F000#64, e820TypeRam⟩] 0x2000#32) ↔
      SearchFits [⟨0#64, 0x9F000#64, e820TypeRam⟩] (0x2000#32).toNat :=
  e820AllocLowMemory_lowBlock [⟨0#64, 0x9F000#64, e820TypeRam⟩] 0x2000#32 (by decide)

/-- RAM that reaches over 1 MByte: the block is cut from the end of it, at `0x1FF000`. -/
theorem ram_over_1M_gives_high_block :
    ¬ ∀ (e820 : List E820Entry) (sizeArg : BitVec 32), pageSize ∣ sizeArg.toNat →
      LowBlock e820 sizeArg.toNat (e820AllocLowMemory e820 sizeArg) := by
  intro h
  have hblock := h [⟨0x90000#64, 0x170000#64, e820TypeRam⟩] 0x1000#32 (by decide)
  have hresult : e820AllocLowMemory [⟨0x90000#64, 0x170000#64, e820TypeRam⟩] 0x1000#32 = 0x1FF000 :=
    by decide
  rw [hresult] at hblock
  rcases hblock with ⟨heq, -⟩ | ⟨-, hle, -⟩
  · exact absurd heq (by decide)
  · exact absurd hle (by decide)

end Acrn
