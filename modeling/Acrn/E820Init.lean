import Acrn.E820

/-!
# Reading the memory map

`init_e820` copies the memory map of the boot loader, cuts every entry off at the end of the
platform's address space, and derives the range of memory from the copy. The cut looks at the
end of an entry modulo `2 ^ 64`, and the range counts an entry that was cut to nothing.
-/

namespace Acrn

def multibootInfoMagic : BitVec 32 := 0x2BADB002#32
def multibootInfoHasMmap : BitVec 32 := 0x40#32
/-- `sizeof(struct multiboot_mmap)`. -/
def sizeofMultibootMmap : BitVec 32 := 24#32
def configPlatformRamSize : Word := 0x400000000#64
def platformLoMmioSize : Word := 0x80000000#64

/-- The fields of `struct multiboot_info` that tell where the memory map ends. -/
structure MultibootInfo where
  miFlags : BitVec 32
  miMmapLength : BitVec 32

/-- What `init_e820` works on. -/
structure E820State where
  /-- the entries at `mi_mmap_addr`; their `size` is not read -/
  mmap : ℕ → E820Entry
  hvE820EntriesNr : BitVec 32
  hvE820 : Vector E820Entry e820MaxEntries
  hvMemRange : MemRange

/-- The ways for `init_e820` not to return. -/
inductive E820Fault where
  | panic (message : String)
  /-- a write past the end of `hv_e820` -/
  | outOfBounds

/-! ## `init_e820`

The table of the hypervisor has a fixed size. A write past its end is a fault of the model and not
a value, and so is the panic without a memory map. -/

/-- The variable `top_addr_space`. -/
def topAddrSpace : Word := configPlatformRamSize + platformLoMmioSize

/-- What the loop makes of the length of an entry. -/
def clipEntry (entry : E820Entry) : E820Entry :=
  if topAddrSpace ≤ entry.baseaddr then { entry with length := 0#64 }
  else if topAddrSpace < entry.baseaddr + entry.length then
    { entry with length := topAddrSpace - entry.baseaddr }
  else entry

/-- `hv_e820_entries_nr` as computed from the length of the map. -/
def e820EntriesNr (mbi : MultibootInfo) : BitVec 32 :=
  let nr := mbi.miMmapLength / sizeofMultibootMmap
  if BitVec.ofNat 32 e820MaxEntries < nr then BitVec.ofNat 32 e820MaxEntries else nr

/-- An iteration of the loop: `mmap[i]` is cut in place and copied to `hv_e820[i]`. -/
def copyEntry (i : ℕ) (s : E820State) : Except E820Fault E820State :=
  let entry := clipEntry (s.mmap i)
  if h : i < e820MaxEntries then
    .ok { s with
      mmap := Function.update s.mmap i entry
      hvE820 := s.hvE820.set i entry h }
  else .error .outOfBounds

/-- The loop of `init_e820` up to entry `n`. -/
def copyEntries : ℕ → E820State → Except E820Fault E820State
  | 0, s => .ok s
  | n + 1, s => copyEntries n s >>= copyEntry n

/-- The entries of `hv_e820` in use. -/
def E820State.entries (s : E820State) : List E820Entry :=
  s.hvE820.toList.take s.hvE820EntriesNr.toNat

/-- `init_e820`; `bootReg` is `boot_regs[0]`. -/
def initE820 (bootReg : BitVec 32) (mbi : MultibootInfo) (s : E820State) :
    Except E820Fault E820State :=
  if bootReg = multibootInfoMagic then
    if mbi.miFlags &&& multibootInfoHasMmap ≠ 0#32 then do
      let s := { s with hvE820EntriesNr := e820EntriesNr mbi }
      let s ← copyEntries s.hvE820EntriesNr.toNat s
      .ok { s with hvMemRange := obtainMemRangeInfo s.entries }
    else .error (.panic "no memory map found from multiboot info")
  else .error (.panic "no multiboot info found")

/-- The entries of the boot loader's map that `init_e820` reads. -/
def mmapEntries (mbi : MultibootInfo) (mmap : ℕ → E820Entry) : List E820Entry :=
  (List.range (e820EntriesNr mbi).toNat).map mmap

/-! ## The copy -/

theorem e820EntriesNr_le (mbi : MultibootInfo) : (e820EntriesNr mbi).toNat ≤ e820MaxEntries := by
  rw [e820EntriesNr]
  split
  · exact Nat.le_refl 32
  · next h => exact Nat.le_of_not_lt h

/-- The loop never leaves the array; it has copied what it has passed, and the rest of the
boot loader's map is still untouched. -/
theorem copyEntries_spec (s : E820State) {n : ℕ} (hn : n ≤ e820MaxEntries) :
    ∃ s', copyEntries n s = .ok s' ∧ s'.hvE820EntriesNr = s.hvE820EntriesNr ∧
      (∀ i, n ≤ i → s'.mmap i = s.mmap i) ∧
      ∀ (i : ℕ) (hi : i < e820MaxEntries), i < n → s'.hvE820[i] = clipEntry (s.mmap i) := by
  induction n with
  | zero => exact ⟨s, rfl, rfl, fun _ _ => rfl, fun i _ h => absurd h (Nat.not_lt_zero i)⟩
  | succ n ih =>
    obtain ⟨s₁, hrun, hnr, hrest, hcopied⟩ := ih (Nat.le_of_succ_le hn)
    have hlt : n < e820MaxEntries := hn
    refine ⟨{ s₁ with
      mmap := Function.update s₁.mmap n (clipEntry (s₁.mmap n))
      hvE820 := s₁.hvE820.set n (clipEntry (s₁.mmap n)) hlt }, ?_, hnr, ?_, ?_⟩
    · rw [copyEntries, hrun]
      exact dif_pos hlt
    · intro i hi
      have hne : i ≠ n := by omega
      exact (Function.update_of_ne hne _ _).trans (hrest i (by omega))
    · intro i hi hin
      rw [Vector.getElem_set]
      split
      · next heq =>
        subst heq
        rw [hrest n le_rfl]
      · next hne => exact hcopied i hi (by omega)

/-- **`init_e820` returns**, and it has stored the entries of the map, each one cut. -/
theorem initE820_ok (mbi : MultibootInfo) (s : E820State)
    (hmmap : mbi.miFlags &&& multibootInfoHasMmap ≠ 0#32) :
    ∃ s', initE820 multibootInfoMagic mbi s = .ok s' ∧
      s'.entries = (mmapEntries mbi s.mmap).map clipEntry ∧
      s'.hvMemRange = obtainMemRangeInfo s'.entries := by
  have hle := e820EntriesNr_le mbi
  obtain ⟨s', hrun, hnr, -, hcopied⟩ :=
    copyEntries_spec { s with hvE820EntriesNr := e820EntriesNr mbi } hle
  have hentries : s'.entries = (mmapEntries mbi s.mmap).map clipEntry := by
    have hlen : s'.entries.length = (e820EntriesNr mbi).toNat := by
      simp [E820State.entries, hnr, hle]
    refine List.ext_getElem (by simp [mmapEntries, hlen]) fun i hi hi' => ?_
    have hin : i < (e820EntriesNr mbi).toNat := hlen ▸ hi
    simp only [E820State.entries, List.getElem_take, Vector.getElem_toList, mmapEntries,
      List.getElem_map, List.getElem_range]
    exact hcopied i (hin.trans_le hle) hin
  refine ⟨{ s' with hvMemRange := obtainMemRangeInfo s'.entries }, ?_, hentries, rfl⟩
  rw [initE820, if_pos rfl, if_pos hmmap]
  exact congrArg (· >>= _) hrun

/-! ## The cut

The cut compares ends, and an end is a 64-bit number. It is right unless an entry wraps, or begins
beyond the address space and is cut to nothing. -/

section Clip

variable {entry : E820Entry}

@[simp] theorem clipEntry_baseaddr (entry : E820Entry) :
    (clipEntry entry).baseaddr = entry.baseaddr := by
  rw [clipEntry]
  split <;> [rfl; split <;> rfl]

@[simp] theorem clipEntry_type (entry : E820Entry) : (clipEntry entry).type = entry.type := by
  rw [clipEntry]
  split <;> [rfl; split <;> rfl]

theorem length_clipEntry_of_le (h : topAddrSpace ≤ entry.baseaddr) :
    (clipEntry entry).length = 0#64 := by
  rw [clipEntry, if_pos h]

theorem stop_clipEntry_of_le (h : topAddrSpace ≤ entry.baseaddr) :
    (clipEntry entry).stop = entry.baseaddr.toNat := by
  rw [E820Entry.stop, length_clipEntry_of_le h, clipEntry_baseaddr]
  rfl

/-- The cut is right for an entry that begins in the address space and does not wrap. -/
theorem stop_clipEntry (hbase : entry.baseaddr < topAddrSpace) (hstop : entry.stop < 2 ^ 64) :
    (clipEntry entry).stop = min entry.stop topAddrSpace.toNat := by
  rw [clipEntry, if_neg (BitVec.not_le.mpr hbase)]
  by_cases hover : topAddrSpace < entry.baseaddr + entry.length
  · have hlt : topAddrSpace.toNat < entry.stop :=
      (BitVec.lt_def.mp hover).trans_eq (E820Entry.toNat_stop hstop)
    rw [if_pos hover, min_eq_right hlt.le, E820Entry.stop,
      BitVec.toNat_sub_of_le (BitVec.le_of_lt hbase)]
    exact Nat.add_sub_cancel' (BitVec.lt_def.mp hbase).le
  · have hle : entry.stop ≤ topAddrSpace.toNat :=
      (E820Entry.toNat_stop hstop).symm.trans_le (Nat.le_of_not_lt hover)
    rw [if_neg hover, min_eq_left hle]

/-- An entry that wraps escapes the cut. -/
theorem clipEntry_of_wrap (hbase : entry.baseaddr < topAddrSpace) (hstop : 2 ^ 64 ≤ entry.stop) :
    clipEntry entry = entry := by
  have hlt : entry.baseaddr + entry.length < topAddrSpace :=
    (E820Entry.toNat_stop_lt hstop).trans hbase
  rw [clipEntry, if_neg (BitVec.not_le.mpr hbase), if_neg (BitVec.lt_asymm hlt)]

theorem length_clipEntry_ne_zero :
    (clipEntry entry).length ≠ 0#64 ↔ entry.baseaddr < topAddrSpace ∧ entry.length ≠ 0#64 := by
  by_cases hbase : entry.baseaddr < topAddrSpace
  · rw [and_iff_right hbase, clipEntry, if_neg (BitVec.not_le.mpr hbase)]
    split
    · next hover =>
      refine iff_of_true (fun h => ?_) (fun h => ?_)
      · have hsub := BitVec.toNat_sub_of_le (BitVec.le_of_lt hbase)
        have hpos := Nat.sub_pos_of_lt (BitVec.lt_def.mp hbase)
        rw [← hsub] at hpos
        exact Nat.ne_of_gt hpos (congrArg BitVec.toNat h)
      · rw [h, BitVec.add_zero] at hover
        exact BitVec.lt_asymm hover hbase
    · rfl
  · refine iff_of_false ?_ fun h => hbase h.1
    exact not_not.mpr (length_clipEntry_of_le (BitVec.not_lt.mp hbase))

end Clip

/-! ## The result

`MmapFits` names the maps without the entries of the last section, and `clipped_iff` shows that it
leaves out no other. -/

/-- The end of the highest entry that is not empty, or 0. -/
def IsHighestStop (entries : List E820Entry) (n : ℕ) : Prop :=
  (∀ entry ∈ entries, entry.length ≠ 0#64 → entry.stop ≤ n) ∧
    (n = 0 ∨ ∃ entry ∈ entries, entry.length ≠ 0#64 ∧ entry.stop = n)

/-- The stored entries lie in the address space of the platform, and the range says where. -/
structure E820State.Clipped (s : E820State) : Prop where
  inside : ∀ entry ∈ s.entries, entry.length ≠ 0#64 → entry.stop ≤ topAddrSpace.toNat
  memTop_le : s.hvMemRange.memTop.toNat ≤ topAddrSpace.toNat
  memTop_eq : IsHighestStop s.entries s.hvMemRange.memTop.toNat
  memBottom_le : ∀ entry ∈ s.entries, s.hvMemRange.memBottom ≤ entry.baseaddr
  totalMemSize_eq : s.hvMemRange.totalMemSize.toNat = ramSize s.entries

/-- The maps for which the cut works: no entry begins beyond the address space, none that begins
in it runs past `2 ^ 64`, and one that is or becomes empty is not above all others. -/
structure MmapFits (mmap : List E820Entry) : Prop where
  base_le : ∀ entry ∈ mmap, entry.baseaddr ≤ topAddrSpace
  stop_lt : ∀ entry ∈ mmap, entry.baseaddr < topAddrSpace → entry.stop < 2 ^ 64
  empty_le : ∀ entry ∈ mmap, entry.length = 0#64 ∨ entry.baseaddr = topAddrSpace →
    entry.baseaddr = 0#64 ∨ ∃ other ∈ mmap, other.length ≠ 0#64 ∧
      other.baseaddr < topAddrSpace ∧ entry.baseaddr.toNat ≤ other.stop

section Result

variable {mmap : List E820Entry} {entry : E820Entry}

theorem MmapFits.stop_clipEntry_lt (h : MmapFits mmap) (hmem : entry ∈ mmap) :
    (clipEntry entry).stop < 2 ^ 64 := by
  by_cases hbase : entry.baseaddr < topAddrSpace
  · rw [stop_clipEntry hbase (h.stop_lt entry hmem hbase)]
    exact (Nat.min_le_left _ _).trans_lt (h.stop_lt entry hmem hbase)
  · rw [stop_clipEntry_of_le (BitVec.not_lt.mp hbase)]
    exact entry.baseaddr.isLt

theorem MmapFits.stop_clipEntry_le (h : MmapFits mmap) (hmem : entry ∈ mmap) :
    (clipEntry entry).stop ≤ topAddrSpace.toNat := by
  by_cases hbase : entry.baseaddr < topAddrSpace
  · rw [stop_clipEntry hbase (h.stop_lt entry hmem hbase)]
    exact Nat.min_le_right _ _
  · rw [stop_clipEntry_of_le (BitVec.not_lt.mp hbase)]
    exact BitVec.le_def.mp (h.base_le entry hmem)

/-- `mem_top` where no stored entry wraps. -/
theorem MmapFits.lt_memTop (h : MmapFits mmap) {n : ℕ} :
    n < (obtainMemRangeInfo (mmap.map clipEntry)).memTop.toNat ↔
      ∃ entry ∈ mmap, n < (clipEntry entry).stop := by
  rw [Acrn.lt_memTop]
  constructor
  · rintro ⟨_, hclip, hlt⟩
    obtain ⟨entry, hmem, rfl⟩ := List.mem_map.mp hclip
    exact ⟨entry, hmem, (E820Entry.toNat_stop (h.stop_clipEntry_lt hmem)) ▸ hlt⟩
  · rintro ⟨entry, hmem, hlt⟩
    exact ⟨_, List.mem_map_of_mem hmem,
      (E820Entry.toNat_stop (h.stop_clipEntry_lt hmem)).symm ▸ hlt⟩

theorem MmapFits.memTop_le (h : MmapFits mmap) :
    (obtainMemRangeInfo (mmap.map clipEntry)).memTop.toNat ≤ topAddrSpace.toNat := by
  by_contra hgt
  obtain ⟨entry, hmem, hlt⟩ := h.lt_memTop.mp (Nat.lt_of_not_le hgt)
  exact absurd hlt (Nat.not_lt.mpr (h.stop_clipEntry_le hmem))

theorem MmapFits.memTop_eq (h : MmapFits mmap) :
    IsHighestStop (mmap.map clipEntry)
      (obtainMemRangeInfo (mmap.map clipEntry)).memTop.toNat := by
  have hbound : ∀ entry ∈ mmap,
      (clipEntry entry).stop ≤ (obtainMemRangeInfo (mmap.map clipEntry)).memTop.toNat := by
    intro entry hmem
    by_contra hgt
    exact absurd (h.lt_memTop.mpr ⟨entry, hmem, Nat.lt_of_not_le hgt⟩) (Nat.lt_irrefl _)
  refine ⟨?_, ?_⟩
  · intro _ hclip _
    obtain ⟨entry, hmem, rfl⟩ := List.mem_map.mp hclip
    exact hbound entry hmem
  · rcases Nat.eq_zero_or_pos (obtainMemRangeInfo (mmap.map clipEntry)).memTop.toNat with
      hzero | hpos
    · exact .inl hzero
    obtain ⟨entry, hmem, hlt⟩ := h.lt_memTop.mp (Nat.sub_lt hpos Nat.one_pos)
    have htop := Nat.le_antisymm (hbound entry hmem) (by omega)
    by_cases hempty : (clipEntry entry).length = 0#64
    · -- the highest entry is empty: another one reaches as far
      have hat : entry.length = 0#64 ∨ entry.baseaddr = topAddrSpace := by
        by_contra hne
        obtain ⟨hlength, hne⟩ := not_or.mp hne
        refine length_clipEntry_ne_zero.mpr ⟨?_, hlength⟩ hempty
        have hle := BitVec.le_def.mp (h.base_le entry hmem)
        exact BitVec.lt_def.mpr (Nat.lt_of_le_of_ne hle fun h => hne (BitVec.eq_of_toNat_eq h))
      have hstop : (clipEntry entry).stop = entry.baseaddr.toNat := by
        rw [E820Entry.stop, hempty, clipEntry_baseaddr]
        rfl
      rcases h.empty_le entry hmem hat with hzero | ⟨other, hmem', hlength, hbase, hle⟩
      · rw [← htop, hstop, hzero] at hpos
        exact absurd hpos (Nat.lt_irrefl 0)
      · have hother := stop_clipEntry hbase (h.stop_lt other hmem' hbase)
        have hle' := BitVec.le_def.mp (h.base_le entry hmem)
        refine .inr ⟨_, List.mem_map_of_mem hmem', length_clipEntry_ne_zero.mpr ⟨hbase, hlength⟩,
          Nat.le_antisymm (hbound other hmem') ?_⟩
        rw [← htop, hstop, hother]
        exact Nat.le_min.mpr ⟨hle, hle'⟩
    · exact .inr ⟨_, List.mem_map_of_mem hmem, hempty, htop⟩

/-- The lengths of at most 32 entries in the address space add up to a 64-bit number. -/
theorem MmapFits.ramSize_lt (h : MmapFits mmap) (hlen : mmap.length ≤ e820MaxEntries) :
    ramSize (mmap.map clipEntry) < 2 ^ 64 := by
  have hsum : ∀ l : List E820Entry, (∀ entry ∈ l, entry.stop ≤ topAddrSpace.toNat) →
      ramSize l ≤ l.length * topAddrSpace.toNat := by
    intro l
    induction l with
    | nil => exact fun _ => Nat.le_refl 0
    | cons entry l ih =>
      intro hl
      have hrest := ih fun e he => hl e (List.mem_cons_of_mem _ he)
      have hfirst := hl entry List.mem_cons_self
      rw [E820Entry.stop] at hfirst
      rw [List.length_cons, Nat.succ_mul]
      by_cases htype : entry.type = e820TypeRam
      · have hcons : ramSize (entry :: l) = entry.length.toNat + ramSize l := by
          simp [ramSize, htype]
        omega
      · have hcons : ramSize (entry :: l) = ramSize l := by simp [ramSize, htype]
        omega
  have hle := hsum (mmap.map clipEntry) fun e he => by
    obtain ⟨entry, hmem, rfl⟩ := List.mem_map.mp he
    exact h.stop_clipEntry_le hmem
  rw [List.length_map] at hle
  have hprod : mmap.length * topAddrSpace.toNat ≤ 32 * topAddrSpace.toNat :=
    Nat.mul_le_mul_right _ hlen
  have htop : 32 * topAddrSpace.toNat < 2 ^ 64 := by decide
  omega

/-- **The range is the range of the clipped map** if and only if the map fits. -/
theorem clipped_iff {s : E820State} (hlen : mmap.length ≤ e820MaxEntries)
    (hentries : s.entries = mmap.map clipEntry)
    (hrange : s.hvMemRange = obtainMemRangeInfo s.entries) : s.Clipped ↔ MmapFits mmap := by
  constructor
  · intro h
    have hle : ∀ entry ∈ mmap, (entry.baseaddr + (clipEntry entry).length).toNat ≤
        s.hvMemRange.memTop.toNat := by
      intro entry hmem
      have hstored : clipEntry entry ∈ s.entries := hentries ▸ List.mem_map_of_mem hmem
      have hlt := fun n hn => lt_memTop (n := n).mpr ⟨clipEntry entry, hstored, hn⟩
      rw [clipEntry_baseaddr, ← hrange] at hlt
      by_contra hgt
      exact absurd (hlt _ (Nat.lt_of_not_le hgt)) (Nat.lt_irrefl _)
    have hempty : ∀ entry ∈ mmap, (clipEntry entry).length = 0#64 →
        entry.baseaddr.toNat ≤ s.hvMemRange.memTop.toNat := by
      intro entry hmem hzero
      have := hle entry hmem
      rwa [hzero, BitVec.add_zero] at this
    refine ⟨?_, ?_, ?_⟩
    · intro entry hmem
      by_contra hgt
      have hge := BitVec.not_le.mp hgt
      have htop := hempty entry hmem (length_clipEntry_of_le (BitVec.le_of_lt hge))
      exact hgt (htop.trans h.memTop_le)
    · intro entry hmem hbase
      by_contra hwrap
      have hwrap := Nat.le_of_not_lt hwrap
      have hlength : entry.length ≠ 0#64 := by
        intro hzero
        have hlt := entry.baseaddr.isLt
        rw [E820Entry.stop, hzero] at hwrap
        exact absurd hlt (Nat.not_lt.mpr hwrap)
      have hin := h.inside (clipEntry entry) (hentries ▸ List.mem_map_of_mem hmem)
        (length_clipEntry_ne_zero.mpr ⟨hbase, hlength⟩)
      rw [clipEntry_of_wrap hbase hwrap] at hin
      have := topAddrSpace.isLt
      omega
    · intro entry hmem hat
      have hzero : (clipEntry entry).length = 0#64 := by
        by_contra hne
        obtain ⟨hbase, hlength⟩ := length_clipEntry_ne_zero.mp hne
        rcases hat with hat | hat
        · exact hlength hat
        · exact BitVec.lt_irrefl _ (hat ▸ hbase)
      have hbelow := hempty entry hmem hzero
      rcases h.memTop_eq.2 with htop | ⟨_, hmem', hlength, htop⟩
      · rw [htop] at hbelow
        exact .inl (BitVec.eq_of_toNat_eq (Nat.le_zero.mp hbelow))
      · obtain ⟨other, hother, rfl⟩ := List.mem_map.mp (hentries ▸ hmem')
        obtain ⟨hbase, hlength⟩ := length_clipEntry_ne_zero.mp hlength
        refine .inr ⟨other, hother, hlength, hbase, hbelow.trans (htop ▸ ?_)⟩
        by_cases hstop : other.stop < 2 ^ 64
        · rw [stop_clipEntry hbase hstop]
          exact Nat.min_le_left _ _
        · rw [clipEntry_of_wrap hbase (Nat.le_of_not_lt hstop)]
  · intro h
    refine ⟨?_, ?_, ?_, ?_, ?_⟩
    · intro _ hstored _
      obtain ⟨entry, hmem, rfl⟩ := List.mem_map.mp (hentries ▸ hstored)
      exact h.stop_clipEntry_le hmem
    · rw [hrange, hentries]
      exact h.memTop_le
    · rw [hrange, hentries]
      exact h.memTop_eq
    · intro entry hmem
      rw [hrange]
      exact memBottom_le hmem
    · rw [hrange, hentries]
      exact totalMemSize_eq (h.ramSize_lt hlen)

/-- **`init_e820`** returns without a write past the table. What it leaves lies in the address
space of the platform, with the range to match, if and only if the map fits. -/
theorem initE820_clipped (mbi : MultibootInfo) (s : E820State)
    (hmmap : mbi.miFlags &&& multibootInfoHasMmap ≠ 0#32) :
    ∃ s', initE820 multibootInfoMagic mbi s = .ok s' ∧
      (s'.Clipped ↔ MmapFits (mmapEntries mbi s.mmap)) := by
  obtain ⟨s', hrun, hentries, hrange⟩ := initE820_ok mbi s hmmap
  refine ⟨s', hrun, clipped_iff ?_ hentries hrange⟩
  rw [mmapEntries, List.length_map, List.length_range]
  exact e820EntriesNr_le mbi

end Result

/-- Before `init_e820`: `hv_e820` is zeroed, and the boot loader's map is as given. -/
def bootE820 (mmap : ℕ → E820Entry) : E820State where
  mmap := mmap
  hvE820EntriesNr := 0#32
  hvE820 := Vector.replicate e820MaxEntries ⟨0#64, 0#64, 0#32⟩
  hvMemRange := ⟨0#64, 0#64, 0#64⟩

/-- A map of one entry. -/
def oneEntryMbi : MultibootInfo := ⟨multibootInfoHasMmap, sizeofMultibootMmap⟩

theorem initE820_clipped_lowRam :
    ∃ s', initE820 multibootInfoMagic oneEntryMbi
        (bootE820 fun _ => ⟨0#64, 0xA0000#64, e820TypeRam⟩) = .ok s' ∧
      (s'.Clipped ↔ MmapFits [⟨0#64, 0xA0000#64, e820TypeRam⟩]) :=
  initE820_clipped oneEntryMbi (bootE820 fun _ => ⟨0#64, 0xA0000#64, e820TypeRam⟩) (by decide)

/-- A reserved page above the address space is cut to nothing, and still its base becomes the top
of memory. -/
theorem reserved_page_raises_memTop :
    ¬ ∀ (mbi : MultibootInfo) (s : E820State), mbi.miFlags &&& multibootInfoHasMmap ≠ 0#32 →
      ∃ s', initE820 multibootInfoMagic mbi s = .ok s' ∧ s'.Clipped := by
  intro h
  obtain ⟨s', hrun, hclipped⟩ := h oneEntryMbi
    (bootE820 fun _ => ⟨0x500000000#64, 0x1000#64, e820TypeReserved⟩) (by decide)
  obtain ⟨s'', hrun', hentries, hrange⟩ := initE820_ok oneEntryMbi
    (bootE820 fun _ => ⟨0x500000000#64, 0x1000#64, e820TypeReserved⟩) (by decide)
  obtain rfl : s'' = s' := Except.ok.inj (hrun'.symm.trans hrun)
  have htop := hclipped.memTop_le
  rw [hrange, hentries] at htop
  exact absurd htop (by decide)

end Acrn
