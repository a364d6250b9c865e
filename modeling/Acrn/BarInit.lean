import Acrn.BarSpec

/-!
# Physical BARs and `init_vdev_pt`

A conforming device implements a BAR of `2 ^ k` bytes by making exactly the
address bits from `k` upwards writable. Probing such a register finds `2 ^ k`, and
the virtual BAR is set up for the physical one: same size up to whole pages, and
the address of the physical one behind it.
-/

namespace Acrn

open BlockLoop BitField

/-! ## The physical side -/

namespace PciPdev

variable (p : PciPdev)

/-- The register of BAR `idx`, and the bits of it that can be written. -/
def barReg (idx : ℕ) : Reg := p.reg (idx + 4)
def barWritable (idx : ℕ) : Reg := p.writable (idx + 4)

/-- The type in the register of BAR `idx`. -/
def barType (idx : ℕ) : PciBarType := pciGetBarType (p.barReg idx)

end PciPdev

/-- The bits of an address in a BAR of this type. -/
def PciBarType.width : PciBarType → ℕ
  | .mem64 => 64
  | _ => 32

/-- The contents of one register, or of two in case of a 64-bit BAR. -/
def barWord (type : PciBarType) (lo hi : Reg) : Word :=
  lo.setWidth 64 ||| if type = .mem64 then hi.setWidth 64 <<< 32 else 0#64

namespace PciPdev

variable (p : PciPdev)

/-- The address bits of BAR `idx`. -/
def barAddress (idx : ℕ) : Word :=
  barWord (p.barType idx) (p.barReg idx) (p.barReg (idx + 1)) &&& pciBaseAddressMemMask

/-- A memory BAR of `2 ^ k` bytes at address `a` starts at register `idx`. It is
naturally aligned and lies below `MAXPHYADDR`. -/
structure MemBar (idx a k : ℕ) : Prop where
  isMem : p.barType idx ≠ .none
  le : 4 ≤ k
  lt : k < (p.barType idx).width
  writable : barWord (p.barType idx) (p.barWritable idx) (p.barWritable (idx + 1)) =
    fieldMask 64 k (p.barType idx).width
  address : p.barAddress idx = BitVec.ofNat 64 a
  aligned : 2 ^ k ∣ a
  below : a + 2 ^ k ≤ 2 ^ 39

/-- A BAR starts at register `idx`, which is not the second half of another. -/
def start : ℕ → Bool
  | 0 => true
  | idx + 1 => !(start idx && decide (p.barType idx = .mem64))

/-- Every BAR that the firmware assigned an address to is implemented as the bus
specification demands. -/
structure Conforms : Prop where
  mem : ∀ idx, idx < pciBarCount → p.start idx → p.barType idx ≠ .none → p.barAddress idx ≠ 0#64 →
    ∃ a k, p.MemBar idx a k
  pair : ∀ idx, p.start idx → p.barType idx = .mem64 → p.barAddress idx ≠ 0#64 →
    idx + 1 < pciBarCount

end PciPdev

/-- A register is a memory BAR of 32 or of 64 bits, or none at all. -/
theorem pciGetBarType_cases (val : Reg) :
    pciGetBarType val = .none ∨ pciGetBarType val = .mem32 ∨ pciGetBarType val = .mem64 := by
  rw [pciGetBarType]
  split
  · split
    · exact Or.inr (Or.inl rfl)
    · split
      · exact Or.inr (Or.inr rfl)
      · exact Or.inl rfl
  · exact Or.inl rfl

/-! ## Probing

The size of a BAR is found by writing ones to it. The lemmas turn the words that are read back into
the mask of the BAR's address, for one register and for two. -/

/-- The probe returns the register with all writable bits set and restores it. -/
theorem pciPdevProbe_eq (p : PciPdev) (idx : ℕ) :
    pciPdevProbe p (pciBarOffset idx) (p.barReg idx) = (p.barReg idx ||| p.barWritable idx, p) := by
  have hread : ∀ r w : Reg, (r &&& ~~~w) ||| (~~~0#32 &&& w) = r ||| w := by
    intro r w
    apply BitVec.eq_of_getLsbD_eq
    intro i hi
    simp only [BitVec.getLsbD_or, BitVec.getLsbD_and, BitVec.getLsbD_not, hi, decide_true,
      BitVec.getLsbD_zero]
    cases r.getLsbD i <;> cases w.getLsbD i <;> rfl
  have hrestore : ∀ r w : Reg, ((r ||| w) &&& ~~~w) ||| (r &&& w) = r := by
    intro r w
    apply BitVec.eq_of_getLsbD_eq
    intro i hi
    simp only [BitVec.getLsbD_or, BitVec.getLsbD_and, BitVec.getLsbD_not, hi, decide_true]
    cases r.getLsbD i <;> cases w.getLsbD i <;> rfl
  simp only [pciPdevProbe, pciPdevReadCfg, pciPdevWriteCfg, pciBarOffset_div, PciPdev.barReg,
    PciPdev.barWritable, Function.update_self, hread, hrestore, Function.update_idem,
    Function.update_eq_self]

theorem barWord_or (type : PciBarType) (a b c d : Reg) :
    barWord type (a ||| b) (c ||| d) = barWord type a c ||| barWord type b d := by
  apply BitVec.eq_of_getLsbD_eq
  intro i hi
  by_cases h : type = .mem64
  · by_cases hi' : i < 32
    · simp [barWord, h, hi']
    · simp [barWord, h, hi', hi, Bool.or_assoc, Bool.or_left_comm]
  · simp [barWord, h]

theorem getLsbD_barWord_of_le {type : PciBarType} {lo hi : Reg} {i : ℕ} (h : type.width ≤ i) :
    (barWord type lo hi).getLsbD i = false := by
  cases type
  case mem64 => exact BitVec.getLsbD_of_ge _ _ h
  all_goals
    rw [barWord, if_neg (by decide), BitVec.or_zero, BitVec.getLsbD_setWidth,
      BitVec.getLsbD_of_ge lo i h, Bool.and_false]

theorem getLsbD_memMask (i : ℕ) :
    pciBaseAddressMemMask.getLsbD i = (decide (i < 64) && decide (4 ≤ i)) := by
  by_cases hi : i < 64
  · revert i
    decide
  · rw [BitVec.getLsbD_of_ge _ _ (by omega), decide_eq_false hi, Bool.false_and]

/-- What the probe of a memory BAR finds: the mask of its address. -/
theorem PciPdev.MemBar.probe {p : PciPdev} {idx a k : ℕ} (h : p.MemBar idx a k) :
    barWord (p.barType idx) (p.barReg idx ||| p.barWritable idx)
        (p.barReg (idx + 1) ||| p.barWritable (idx + 1)) &&& pciBaseAddressMemMask =
      fieldMask 64 k (p.barType idx).width := by
  have hk := h.le
  rw [barWord_or, h.writable]
  apply BitVec.eq_of_getLsbD_eq
  intro i hi
  have haddr := congrArg (fun x : Word => x.getLsbD i) h.address
  simp only [PciPdev.barAddress, BitVec.getLsbD_and, getLsbD_memMask, hi, decide_true,
    Bool.true_and] at haddr
  simp only [BitVec.getLsbD_and, BitVec.getLsbD_or, getLsbD_memMask,
    getLsbD_fieldMask (Nat.le_of_lt h.lt), hi, decide_true, Bool.true_and]
  by_cases hik : k ≤ i
  · by_cases hin : i < (p.barType idx).width
    · simp [hik, hin, hk.trans hik]
    · rw [getLsbD_barWord_of_le (Nat.le_of_not_lt hin)]
      simp [hik, hin]
  · -- the device does not implement these bits, and its address has none of them
    rw [getLsbD_ofNat_of_dvd h.aligned (by omega)] at haddr
    simp [hik, haddr]

/-- Only the low half of an address has attribute bits. -/
theorem barWord_and_memMask (type : PciBarType) (lo hi : Reg) :
    (lo.setWidth 64 &&& pciBaseAddressMemMask) |||
        (if type = .mem64 then hi.setWidth 64 <<< 32 else 0#64) =
      barWord type lo hi &&& pciBaseAddressMemMask := by
  apply BitVec.eq_of_getLsbD_eq
  intro i hi'
  rw [barWord, BitVec.getLsbD_and, BitVec.getLsbD_or, BitVec.getLsbD_or, BitVec.getLsbD_and,
    getLsbD_memMask]
  by_cases h4 : 4 ≤ i
  · simp [hi', h4]
  · split
    · simp [h4, show i < 32 by omega]
    · simp [h4]

theorem vbarSize_fieldMask {k n : ℕ} (hn : n = 32 ∨ n = 64) (hk : 4 ≤ k) (hkn : k < n) :
    (vbarSize (fieldMask 64 k n)).toNat = max (2 ^ k) pageSize := by
  have h32 : ∀ k < 32, 4 ≤ k → (vbarSize (fieldMask 64 k 32)).toNat = max (2 ^ k) pageSize := by
    decide
  have h64 : ∀ k < 64, 4 ≤ k → (vbarSize (fieldMask 64 k 64)).toNat = max (2 ^ k) pageSize := by
    decide
  rcases hn with rfl | rfl
  · exact h32 k hkn hk
  · exact h64 k hkn hk

namespace PciPdev.MemBar

variable {p : PciPdev} {idx a k : ℕ}

/-- The low register of the mask. -/
theorem mask_lo (h : p.MemBar idx a k) :
    ((p.barReg idx ||| p.barWritable idx).setWidth 64 &&& pciBaseAddressMemMask).setWidth 32 =
      p.barWritable idx := by
  apply BitVec.eq_of_getLsbD_eq
  intro i hi
  have hprobe := congrArg (fun x : Word => x.getLsbD i) (h.probe.trans h.writable.symm)
  simp only [barWord, BitVec.getLsbD_and, BitVec.getLsbD_or, getLsbD_memMask] at hprobe
  simp only [BitVec.getLsbD_setWidth, BitVec.getLsbD_and, getLsbD_memMask, hi, decide_true,
    Bool.true_and, show i < 64 by omega]
  split at hprobe
  · simpa [hi, show i < 64 by omega] using hprobe
  · simpa [hi, show i < 64 by omega] using hprobe

/-- The type bits cannot be written. -/
theorem mask_type (h : p.MemBar idx a k) : p.barWritable idx &&& 0xf#32 = 0#32 := by
  have hk := h.le
  apply BitVec.eq_of_getLsbD_eq
  intro i hi
  have hw := congrArg (fun x : Word => x.getLsbD i) h.writable
  simp only [barWord, BitVec.getLsbD_or, getLsbD_fieldMask (Nat.le_of_lt h.lt)] at hw
  have hmask : ∀ j < 32, (0xf#32).getLsbD j = decide (j < 4) := by decide
  rw [BitVec.getLsbD_and, hmask i hi, BitVec.getLsbD_zero]
  by_cases h4 : i < 4
  · have hlow : (p.barWritable idx).getLsbD i = false := by
      split at hw
      · simpa [hi, show i < 64 by omega, show ¬ k ≤ i by omega] using hw
      · simpa [hi, show i < 64 by omega, show ¬ k ≤ i by omega] using hw
    rw [hlow, Bool.false_and]
  · rw [decide_eq_false h4, Bool.and_false]

/-- Its high register. -/
theorem mask_hi (h : p.MemBar idx a k) (h64 : p.barType idx = .mem64) :
    p.barReg (idx + 1) ||| p.barWritable (idx + 1) = p.barWritable (idx + 1) := by
  apply BitVec.eq_of_getLsbD_eq
  intro i hi
  have hprobe := congrArg (fun x : Word => x.getLsbD (i + 32)) (h.probe.trans h.writable.symm)
  have hlo : ∀ x : Reg, x.getLsbD (i + 32) = false := fun x => BitVec.getLsbD_of_ge x _ (by omega)
  simp only [barWord, if_pos h64, BitVec.getLsbD_and, BitVec.getLsbD_or, BitVec.getLsbD_setWidth,
    BitVec.getLsbD_shiftLeft, getLsbD_memMask, hlo, show i + 32 < 64 by omega,
    show ¬ i + 32 < 32 by omega, show 4 ≤ i + 32 by omega, show i < 64 by omega,
    Nat.add_sub_cancel, decide_true, decide_false, Bool.and_true, Bool.true_and, Bool.and_false,
    Bool.false_or, Bool.not_false] at hprobe
  rw [BitVec.getLsbD_or]
  exact hprobe

theorem size_eq (h : p.MemBar idx a k) :
    (vbarSize (((p.barReg idx ||| p.barWritable idx).setWidth 64 &&& pciBaseAddressMemMask) |||
      if p.barType idx = .mem64 then
        (p.barReg (idx + 1) ||| p.barWritable (idx + 1)).setWidth 64 <<< 32
      else 0#64)).toNat = max (2 ^ k) pageSize := by
  rw [barWord_and_memMask, h.probe]
  refine vbarSize_fieldMask ?_ h.le h.lt
  cases p.barType idx <;> simp [PciBarType.width]

theorem address_toNat (h : p.MemBar idx a k) : (p.barAddress idx).toNat = a := by
  have hbelow := h.below
  have hpos := Nat.two_pow_pos k
  rw [h.address, BitVec.toNat_ofNat, Nat.mod_eq_of_lt (by omega)]

end PciPdev.MemBar

/-- The type bits of a register. -/
theorem fixed_eq (lo : Reg) :
    (lo.setWidth 64 &&& ~~~pciBaseAddressMemMask).setWidth 32 = lo &&& 0xf#32 := by
  have hmask : (~~~pciBaseAddressMemMask).setWidth 32 = 0xf#32 := by decide
  rw [BitVec.setWidth_and, hmask, BitVec.setWidth_setWidth_of_le _ (by decide),
    BitVec.setWidth_eq]

/-! ## The virtual side

`SetUp` is what the writes to a virtual BAR rely on and keep: the size, the physical address and
the fixed bits are those of the physical BAR. Only the base is the guest's. -/

/-- A BAR nothing was done to: `struct pci_bar` in zeroed memory. -/
def PciBar.initial : PciBar := ⟨.none, 0#64, 0#64, 0#64, 0#32, 0#32⟩

/-- The virtual BARs are those of the physical device, with bases of their own. -/
structure PciVdev.SetUp (p : PciPdev) (vdev : PciVdev) : Prop where
  mem : ∀ i, (vdev.bar i).IsMem → ∃ a k, p.MemBar i a k ∧ (vdev.bar i).type = p.barType i ∧
    (vdev.bar i).size.toNat = max (2 ^ k) pageSize ∧ (vdev.bar i).baseHpa.toNat = a
  hi : ∀ i, (vdev.bar i).type = .mem64hi → 0 < i ∧ (vdev.bar (i - 1)).type = .mem64
  io : ∀ i, (vdev.bar i).type ≠ .ioSpace
  regs : ∀ i, (vdev.bar i).type ≠ .none → (vdev.bar i).mask = p.barWritable i ∧
    (vdev.bar i).fixed = if (vdev.bar i).type = .mem64hi then 0#32 else p.barReg i &&& 0xf#32
  base : ∀ i, (vdev.bar i).base ≠ 0#64 →
    (vdev.bar i).IsMem ∧ vbarBaseIsValid (vdev.bar i).base (vdev.bar i).size = true

/-- Two virtual devices differ in the registers and in one base at most. -/
structure PciVdev.SameBut (vdev vdev' : PciVdev) (idx : ℕ) : Prop where
  other : ∀ i, i ≠ idx → vdev'.bar i = vdev.bar i
  this : ∃ base, vdev'.bar idx = { vdev.bar idx with base }
  valid : (vdev'.bar idx).base = 0#64 ∨
    vbarBaseIsValid (vdev'.bar idx).base (vdev'.bar idx).size = true

namespace PciVdev

variable {p : PciPdev} {vdev vdev' : PciVdev}

/-- Nothing but bases can differ. -/
theorem SameBut.eq {idx : ℕ} (h : vdev.SameBut vdev' idx) (i : ℕ) :
    vdev'.bar i = { vdev.bar i with base := (vdev'.bar i).base } := by
  by_cases hi : i = idx
  · obtain ⟨base, hb⟩ := h.this
    rw [hi, hb]
  · rw [h.other i hi]

/-- Such a change keeps a device set up. -/
theorem SetUp.sameBut (h : vdev.SetUp p) {idx : ℕ} (hs : vdev.SameBut vdev' idx)
    (hmem : (vdev.bar idx).IsMem) : vdev'.SetUp p := by
  have htype : ∀ i, (vdev'.bar i).type = (vdev.bar i).type := fun i => by rw [hs.eq i]
  have hisMem : ∀ i, (vdev'.bar i).IsMem ↔ (vdev.bar i).IsMem := fun i => by
    rw [PciBar.IsMem, PciBar.IsMem, htype]
  refine ⟨?_, ?_, ?_, ?_, ?_⟩
  · intro i hi
    rw [hs.eq i]
    exact h.mem i ((hisMem i).mp hi)
  · intro i hi
    rw [htype] at hi ⊢
    exact h.hi i hi
  · intro i
    rw [htype]
    exact h.io i
  · intro i hi
    rw [hs.eq i] at hi ⊢
    exact h.regs i hi
  · intro i hi
    rw [hisMem]
    by_cases he : i = idx
    · subst he
      exact ⟨hmem, hs.valid.resolve_left hi⟩
    · rw [hs.other i he] at hi ⊢
      exact h.base i hi

/-- The BAR that a register belongs to decodes memory. -/
theorem SetUp.isMem_updateIdx (h : vdev.SetUp p) {idx : ℕ} (hidx : (vdev.bar idx).type ≠ .none) :
    (vdev.bar (vdev.updateIdx idx)).IsMem := by
  rw [updateIdx]
  split
  case isTrue hhi => exact Or.inr (h.hi idx hhi).2
  case isFalse hhi =>
    have hio := h.io idx
    rw [PciBar.IsMem]
    cases ht : (vdev.bar idx).type <;> simp_all

/-- A write to a BAR that was set up is such a change, and what it leaves there is
the requested address. -/
theorem SetUp.write (h : vdev.SetUp p) {idx u : ℕ} (val : Reg) (hu : vdev.updateIdx idx = u)
    (hmem : (vdev.bar u).IsMem) :
    vdev.SameBut (pciVdevWriteBar vdev idx val) u ∧
      (((pciVdevWriteBar vdev idx val).bar u).base ≠ 0#64 →
        ((pciVdevWriteBar vdev idx val).bar u).base.toNat = vdev.requested idx val ∧
        ((vdev.bar u).type = .mem64 →
          (pciVdevWriteBar vdev idx val).cfgdata (u + 5) ≠ ~~~0#32)) := by
  subst hu
  obtain ⟨base, hb, hbase⟩ := pciVdevWriteBar_bar_self vdev idx val hmem (h.io _)
  refine ⟨⟨fun i hi => pciVdevWriteBar_bar_of_ne hi, ⟨base, hb⟩, ?_⟩, fun hne => ?_⟩
  · rw [hb]
    rcases hbase with hz | ⟨-, hv, -⟩
    · exact Or.inl hz
    · exact Or.inr hv
  · rw [hb] at hne ⊢
    rcases hbase with hz | ⟨ha, -, hall⟩
    · exact absurd hz hne
    · exact ⟨ha, hall⟩

/-- The BARs of a device that was set up can be mapped. -/
theorem SetUp.fits (h : vdev.SetUp p) (i : ℕ) (hbase : (vdev.bar i).base ≠ 0#64) :
    (vdev.bar i).Fits := by
  obtain ⟨hmem, hvalid⟩ := h.base i hbase
  obtain ⟨a, k, hbar, -, hsize, hhpa⟩ := h.mem i hmem
  refine ⟨hvalid, ?_⟩
  rw [hsize, hhpa, roundPageDown, blockStart]
  have hbelow := hbar.below
  rcases Nat.le_total (2 ^ k) pageSize with hle | hle
  · rw [Nat.max_eq_right hle]
    have := Nat.two_pow_pos k
    simp only [pageSize]
    omega
  · rw [Nat.max_eq_left hle]
    exact (Nat.add_le_add_right (Nat.div_mul_le_self a (2 ^ 12)) _).trans hbelow

end PciVdev

/-! ## One iteration -/

variable {ops : MemoryOps} {p : PciPdev} {vdev : PciVdev} {ept : PgMem} {idx a k : ℕ}

/-- The fields that an iteration fills in before it writes the base. -/
def fillVbar (p : PciPdev) (vdev : PciVdev) (idx : ℕ) : PciVdev :=
  let vdev' := vdev.setBar idx
    { type := p.barType idx
      size := vbarSize (((p.barReg idx ||| p.barWritable idx).setWidth 64 &&& pciBaseAddressMemMask) |||
        if p.barType idx = .mem64 then
          (p.barReg (idx + 1) ||| p.barWritable (idx + 1)).setWidth 64 <<< 32
        else 0#64)
      base := (vdev.bar idx).base
      baseHpa := p.barAddress idx
      fixed := p.barReg idx &&& 0xf#32
      mask := p.barWritable idx }
  if p.barType idx = .mem64 then
    vdev'.setBar (idx + 1)
      { vdev'.bar (idx + 1) with mask := p.barWritable (idx + 1), type := .mem64hi }
  else vdev'

/-- The writes that follow. -/
def writeVbarBase (p : PciPdev) (vdev : PciVdev) (idx : ℕ) : PciVdev :=
  let vdev' := pciVdevWriteBar vdev idx ((vdev.vbarBase idx).setWidth 32)
  if p.barType idx = .mem64 then
    pciVdevWriteBar vdev' (idx + 1) ((vdev.vbarBase idx >>> 32).setWidth 32)
  else vdev'

theorem pciPdevReadCfg_barOffset (p : PciPdev) (idx : ℕ) :
    pciPdevReadCfg p (pciBarOffset idx) = p.barReg idx := by
  rw [pciPdevReadCfg, pciBarOffset_div, PciPdev.barReg]

theorem pciPdevReadCfg_barOffset_next (p : PciPdev) (idx : ℕ) :
    pciPdevReadCfg p (pciBarOffset idx + 4) = p.barReg (idx + 1) := by
  rw [pciPdevReadCfg, pciBarOffset_add_div, PciPdev.barReg]

/-- A register without an assigned memory BAR is passed over. -/
theorem initVbar_skip (hskip : p.barType idx = .none ∨ p.barAddress idx = 0#64)
    (hhpa : (vdev.bar idx).baseHpa = 0#64) :
    initVbar ops idx ⟨p, vdev⟩ ept = (idx + 1, ⟨p, vdev⟩, ept) := by
  rcases pciGetBarType_cases (p.barReg idx) with hnone | hmem
  · simp only [initVbar, pciPdevReadCfg_barOffset, hnone, if_true]
  · have hzero : p.barAddress idx = 0#64 := by
      refine hskip.resolve_left ?_
      rw [PciPdev.barType]
      rcases hmem with h | h <;> rw [h] <;> decide
    have hsame : vdev.setBar idx { vdev.bar idx with baseHpa := 0#64 } = vdev := by
      rw [PciVdev.setBar, ← hhpa, Function.update_eq_self]
    have hword := barWord_and_memMask (p.barType idx) (p.barReg idx) (p.barReg (idx + 1))
    rw [show barWord _ _ _ &&& _ = p.barAddress idx from rfl, hzero, PciPdev.barType] at hword
    have hne32 : (PciBarType.mem32 = .none) ↔ False := by decide
    have hne64 : (PciBarType.mem64 = .none) ↔ False := by decide
    have hne : (PciBarType.mem32 = .mem64) ↔ False := by decide
    rcases hmem with h | h
    · simp only [h, hne, if_false] at hword
      simp only [initVbar, pciPdevReadCfg_barOffset, h, hne32, hne, if_false, hword, if_true, hsame]
    · simp only [h, if_true] at hword
      simp only [initVbar, pciPdevReadCfg_barOffset, pciPdevReadCfg_barOffset_next, h, hne64,
        if_false, if_true, hword, hsame]

/-- A memory BAR is filled in, written and mapped. -/
theorem initVbar_mem (hbar : p.MemBar idx a k) (hassigned : p.barAddress idx ≠ 0#64) :
    initVbar ops idx ⟨p, vdev⟩ ept =
      let vdev' := writeVbarBase p (fillVbar p vdev idx) idx
      (if p.barType idx = .mem64 then idx + 2 else idx + 1, ⟨p, vdev'⟩,
        vdevPtMapMemVbar ops vdev' idx ept) := by
  have hhpa : ((p.barReg idx).setWidth 64 &&& pciBaseAddressMemMask ||| if p.barType idx = .mem64 then
      (p.barReg (idx + 1)).setWidth 64 <<< 32 else 0#64) = p.barAddress idx :=
    barWord_and_memMask _ _ _
  by_cases h64 : p.barType idx = .mem64
  · have h64' : pciGetBarType (p.barReg idx) = .mem64 := h64
    have hne : (PciBarType.mem64 = .none) ↔ False := by decide
    simp only [if_pos h64] at hhpa
    simp only [initVbar, pciPdevReadCfg_barOffset, pciPdevReadCfg_barOffset_next, h64', hne,
      if_false, if_true, hhpa, if_neg hassigned, pciPdevProbe_eq, hbar.mask_lo, fixed_eq,
      hbar.mask_hi h64, writeVbarBase, fillVbar, h64]
    rfl
  · have h32 : p.barType idx = .mem32 := by
      rcases pciGetBarType_cases (p.barReg idx) with h | h | h
      · exact absurd h hbar.isMem
      · exact h
      · exact absurd h h64
    have h32' : pciGetBarType (p.barReg idx) = .mem32 := h32
    have hne : (PciBarType.mem32 = .none) ↔ False := by decide
    have hne' : (PciBarType.mem32 = .mem64) ↔ False := by decide
    simp only [if_neg h64] at hhpa
    simp only [initVbar, pciPdevReadCfg_barOffset, pciPdevReadCfg_barOffset_next, h32', hne, hne',
      if_false, hhpa, if_neg hassigned, pciPdevProbe_eq, hbar.mask_lo, fixed_eq, writeVbarBase,
      fillVbar, h32, BitVec.or_zero]
    rfl

/-! ## What an iteration does

The loop goes by registers and a BAR may take two of them. `Fresh` says that nothing is done from
the register on that the loop has come to, and an iteration takes that to the next BAR. -/

/-- BARs from `idx` on are untouched. -/
def PciVdev.Fresh (vdev : PciVdev) (idx : ℕ) : Prop := ∀ i, idx ≤ i → vdev.bar i = PciBar.initial

theorem fillVbar_bar_self :
    ((fillVbar p vdev idx).bar idx).type = p.barType idx ∧
    ((fillVbar p vdev idx).bar idx).size =
      vbarSize (((p.barReg idx ||| p.barWritable idx).setWidth 64 &&& pciBaseAddressMemMask) |||
        if p.barType idx = .mem64 then
          (p.barReg (idx + 1) ||| p.barWritable (idx + 1)).setWidth 64 <<< 32
        else 0#64) ∧
    ((fillVbar p vdev idx).bar idx).base = (vdev.bar idx).base ∧
    ((fillVbar p vdev idx).bar idx).baseHpa = p.barAddress idx ∧
    ((fillVbar p vdev idx).bar idx).fixed = p.barReg idx &&& 0xf#32 ∧
    ((fillVbar p vdev idx).bar idx).mask = p.barWritable idx := by
  by_cases h64 : p.barType idx = .mem64
  · simp [fillVbar, h64, PciVdev.setBar]
  · simp [fillVbar, h64, PciVdev.setBar]

theorem fillVbar_bar_next (h64 : p.barType idx = .mem64) : (fillVbar p vdev idx).bar (idx + 1) =
    { vdev.bar (idx + 1) with mask := p.barWritable (idx + 1), type := .mem64hi } := by
  simp [fillVbar, h64, PciVdev.setBar]

theorem fillVbar_bar_of_ne {i : ℕ} (hi : i ≠ idx) (hi' : p.barType idx = .mem64 → i ≠ idx + 1) :
    (fillVbar p vdev idx).bar i = vdev.bar i := by
  by_cases h64 : p.barType idx = .mem64
  · simp [fillVbar, h64, PciVdev.setBar, Function.update_of_ne hi, Function.update_of_ne (hi' h64)]
  · simp [fillVbar, h64, PciVdev.setBar, Function.update_of_ne hi]

theorem barType_cases (h : p.barType idx ≠ .none) :
    p.barType idx = .mem32 ∨ p.barType idx = .mem64 :=
  (pciGetBarType_cases (p.barReg idx)).resolve_left h

/-- The filled BAR is set up, and so is the device. -/
theorem PciVdev.SetUp.fillVbar (h : vdev.SetUp p) (hfresh : vdev.Fresh idx)
    (hbar : p.MemBar idx a k) : (fillVbar p vdev idx).SetUp p := by
  obtain ⟨htype, hsize, hbase, hhpa, hfixed, hmask⟩ := @fillVbar_bar_self p vdev idx
  have hinit : ∀ i, idx ≤ i → (vdev.bar i).type = .none ∧ (vdev.bar i).base = 0#64 ∧
      (vdev.bar i).fixed = 0#32 := by
    intro i hi
    rw [hfresh i hi]
    exact ⟨rfl, rfl, rfl⟩
  have hmem := barType_cases hbar.isMem
  -- every BAR is the filled one, its second half, or as before
  have hcases : ∀ i, i = idx ∨ (p.barType idx = .mem64 ∧ i = idx + 1) ∨
      (Acrn.fillVbar p vdev idx).bar i = vdev.bar i ∧ i ≠ idx := by
    intro i
    by_cases hi : i = idx
    · exact Or.inl hi
    · by_cases hi' : p.barType idx = .mem64 ∧ i = idx + 1
      · exact Or.inr (Or.inl hi')
      · exact Or.inr (Or.inr ⟨fillVbar_bar_of_ne hi fun h he => hi' ⟨h, he⟩, hi⟩)
  refine ⟨?_, ?_, ?_, ?_, ?_⟩
  · intro i hi
    rcases hcases i with rfl | ⟨h64, rfl⟩ | ⟨he, -⟩
    · refine ⟨a, k, hbar, htype, ?_, ?_⟩
      · rw [hsize, hbar.size_eq]
      · rw [hhpa, hbar.address_toNat]
    · rw [PciBar.IsMem, fillVbar_bar_next h64] at hi
      rcases hi with hi | hi <;> cases hi
    · rw [he] at hi ⊢
      exact h.mem i hi
  · intro i hi
    rcases hcases i with rfl | ⟨h64, rfl⟩ | ⟨he, hne⟩
    · rw [htype] at hi
      rcases hmem with hm | hm <;> rw [hm] at hi <;> cases hi
    · exact ⟨Nat.succ_pos _, by rw [Nat.add_sub_cancel, htype, h64]⟩
    · rw [he] at hi
      have hlt : i < idx := by
        by_contra hge
        rw [(hinit i (by omega)).1] at hi
        cases hi
      obtain ⟨hpos, h64⟩ := h.hi i hi
      rw [fillVbar_bar_of_ne (by omega) (by omega)]
      exact ⟨hpos, h64⟩
  · intro i
    rcases hcases i with rfl | ⟨h64, rfl⟩ | ⟨he, -⟩
    · rw [htype]
      rcases hmem with hm | hm <;> rw [hm] <;> decide
    · rw [fillVbar_bar_next h64]
      exact fun hi => nomatch hi
    · rw [he]
      exact h.io i
  · intro i hi
    rcases hcases i with rfl | ⟨h64, rfl⟩ | ⟨he, -⟩
    · refine ⟨hmask, ?_⟩
      rw [hfixed, if_neg]
      rw [htype]
      rcases hmem with hm | hm <;> rw [hm] <;> decide
    · rw [fillVbar_bar_next h64]
      refine ⟨rfl, ?_⟩
      rw [if_pos rfl]
      exact (hinit _ (Nat.le_succ _)).2.2
    · rw [he] at hi ⊢
      exact h.regs i hi
  · intro i hi
    rcases hcases i with rfl | ⟨h64, rfl⟩ | ⟨he, -⟩
    · rw [hbase, (hinit _ le_rfl).2.1] at hi
      exact absurd rfl hi
    · rw [fillVbar_bar_next h64, show ({ vdev.bar (idx + 1) with
        mask := p.barWritable (idx + 1), type := .mem64hi } : PciBar).base = _ from
          (hinit _ (Nat.le_succ _)).2.1] at hi
      exact absurd rfl hi
    · rw [he] at hi ⊢
      exact h.base i hi

/-- The writable bits of a register after a write are those of the value. -/
theorem or_fixed_and {m : Reg} (x lo : Reg) (hm : m &&& 0xf#32 = 0#32) :
    ((x &&& m) ||| (lo &&& 0xf#32)) &&& m = x &&& m := by
  have hfixed : lo &&& 0xf#32 &&& m = 0#32 := by
    rw [BitVec.and_assoc, BitVec.and_comm _ m, hm, BitVec.and_zero]
  rw [or_and_of_disjoint_right hfixed, BitVec.and_assoc, BitVec.and_self]

/-- Masking keeps an aligned value aligned, and makes it no larger. -/
theorem and_mask_le (x m : Reg) : (x &&& m).toNat ≤ x.toNat ∧
    (pageSize ∣ x.toNat → pageSize ∣ (x &&& m).toNat) := by
  rw [BitVec.toNat_and]
  refine ⟨Nat.and_le_left, fun h => ?_⟩
  have hmod : x.toNat % 2 ^ 12 = 0 := Nat.mod_eq_zero_of_dvd h
  refine Nat.dvd_of_mod_eq_zero (?_ : (x.toNat &&& m.toNat) % 2 ^ 12 = 0)
  rw [Nat.and_mod_two_pow, hmod, Nat.zero_and]

theorem PciVdev.SameBut.trans {vdev' vdev'' : PciVdev} (h : vdev.SameBut vdev' idx)
    (h' : vdev'.SameBut vdev'' idx) : vdev.SameBut vdev'' idx := by
  refine ⟨fun i hi => (h'.other i hi).trans (h.other i hi), ?_, h'.valid⟩
  obtain ⟨base, hb⟩ := h.this
  obtain ⟨base', hb'⟩ := h'.this
  exact ⟨base', by rw [hb', hb]⟩

namespace PciVdev.SetUp

/-- The registers of a set up BAR hold the type of the physical one. -/
theorem regs_lo (h : vdev.SetUp p) (hbar : p.MemBar idx a k)
    (htype : (vdev.bar idx).type = p.barType idx) :
    vdev.updateIdx idx = idx ∧ (vdev.bar idx).IsMem ∧ (vdev.bar idx).mask = p.barWritable idx ∧
      (vdev.bar idx).fixed = p.barReg idx &&& 0xf#32 := by
  have hmem := barType_cases hbar.isMem
  rw [← htype] at hmem
  have hhi : (vdev.bar idx).type ≠ .mem64hi := by
    rcases hmem with hm | hm <;> rw [hm] <;> decide
  have hne : (vdev.bar idx).type ≠ .none := by rw [htype]; exact hbar.isMem
  obtain ⟨hmask, hfixed⟩ := h.regs idx hne
  rw [if_neg hhi] at hfixed
  exact ⟨if_neg hhi, hmem, hmask, hfixed⟩

/-- The address that a write to a 32-bit BAR requests. -/
theorem requested_lo (h : vdev.SetUp p) (hbar : p.MemBar idx a k)
    (htype : (vdev.bar idx).type = p.barType idx) (h32 : p.barType idx = .mem32) (val : Reg) :
    vdev.requested idx val = (val &&& p.barWritable idx).toNat := by
  obtain ⟨hidx, -, hmask, hfixed⟩ := h.regs_lo hbar htype
  rw [PciVdev.requested, PciVdev.address, hidx, pciVdevWriteCfgU32_cfgdata, Function.update_self]
  show (((val &&& (vdev.bar idx).mask) ||| (vdev.bar idx).fixed) &&& (vdev.bar idx).mask).toNat +
    (if (vdev.bar idx).type = .mem64 then _ else 0) = _
  rw [htype, h32, if_neg (by decide), hmask, hfixed, or_fixed_and _ _ hbar.mask_type]
  rfl

/-- The address that a write to the high half of a 64-bit BAR requests. -/
theorem requested_hi (h : vdev.SetUp p) (h64 : (vdev.bar idx).type = .mem64)
    (hhi : (vdev.bar (idx + 1)).type = .mem64hi) (val : Reg) :
    vdev.requested (idx + 1) val = (vdev.cfgdata (idx + 4) &&& p.barWritable idx).toNat +
      2 ^ 32 * (val &&& p.barWritable (idx + 1)).toNat := by
  obtain ⟨hmask, -⟩ := h.regs idx (by rw [h64]; decide)
  obtain ⟨hmask', hfixed'⟩ := h.regs (idx + 1) (by rw [hhi]; decide)
  rw [if_pos hhi] at hfixed'
  have hidx : vdev.updateIdx (idx + 1) = idx := if_pos hhi
  rw [PciVdev.requested, PciVdev.address, hidx, pciVdevWriteCfgU32_cfgdata,
    Function.update_of_ne (show idx + 4 ≠ idx + 1 + 4 by omega), Function.update_self]
  show (vdev.cfgdata (idx + 4) &&& (vdev.bar idx).mask).toNat +
    (if (vdev.bar idx).type = .mem64 then
      2 ^ 32 * (((val &&& (vdev.bar (idx + 1)).mask) ||| (vdev.bar (idx + 1)).fixed) &&&
        (vdev.bar (idx + 1)).mask).toNat else 0) = _
  rw [if_pos h64, hmask, hmask', hfixed', BitVec.or_zero, BitVec.and_assoc, BitVec.and_self]

end PciVdev.SetUp

/-- The configured base, register by register. -/
theorem vbarBase_lo (x : Word) : (x.setWidth 32).toNat ≤ x.toNat ∧
    (pageSize ∣ x.toNat → pageSize ∣ (x.setWidth 32).toNat) := by
  rw [BitVec.toNat_setWidth]
  exact ⟨Nat.mod_le _ _, fun h => (Nat.dvd_mod_iff (show pageSize ∣ 2 ^ 32 by decide)).mpr h⟩

theorem vbarBase_split (x : Word) :
    (x.setWidth 32).toNat + 2 ^ 32 * ((x >>> 32).setWidth 32).toNat = x.toNat := by
  have hx := x.isLt
  rw [BitVec.toNat_setWidth, BitVec.toNat_setWidth, BitVec.toNat_ushiftRight,
    Nat.shiftRight_eq_div_pow, Nat.mod_eq_of_lt (a := x.toNat / 2 ^ 32) (by omega)]
  exact Nat.mod_add_div _ _

/-- The base of a BAR after its iteration comes from the configured one. -/
theorem writeVbarBase_spec (h : vdev.SetUp p) (hbar : p.MemBar idx a k)
    (htype : (vdev.bar idx).type = p.barType idx)
    (hnext : p.barType idx = .mem64 → (vdev.bar (idx + 1)).type = .mem64hi) :
    vdev.SameBut (writeVbarBase p vdev idx) idx ∧
      (((writeVbarBase p vdev idx).bar idx).base ≠ 0#64 →
        ((writeVbarBase p vdev idx).bar idx).base.toNat ≤ (vdev.vbarBase idx).toNat ∧
        (pageSize ∣ (vdev.vbarBase idx).toNat →
          pageSize ∣ ((writeVbarBase p vdev idx).bar idx).base.toNat)) := by
  obtain ⟨hidx, hmem, hmask, hfixed⟩ := h.regs_lo hbar htype
  set lo : Reg := (vdev.vbarBase idx).setWidth 32 with hlo
  obtain ⟨hlole, hlodvd⟩ := vbarBase_lo (vdev.vbarBase idx)
  obtain ⟨hmaskle, hmaskdvd⟩ := and_mask_le lo (p.barWritable idx)
  obtain ⟨hsame, hbase⟩ := h.write lo hidx hmem
  rcases barType_cases hbar.isMem with h32 | h64
  · have hw : writeVbarBase p vdev idx = pciVdevWriteBar vdev idx lo := by
      rw [writeVbarBase, if_neg (by rw [h32]; decide)]
    rw [hw]
    refine ⟨hsame, fun hne => ?_⟩
    rw [(hbase hne).1, h.requested_lo hbar htype h32]
    exact ⟨hmaskle.trans hlole, fun hd => hmaskdvd (hlodvd hd)⟩
  · set hi : Reg := (vdev.vbarBase idx >>> 32).setWidth 32 with hhi
    set vdev' := pciVdevWriteBar vdev idx lo with hvdev'
    have hset' := h.sameBut hsame hmem
    have htype' : (vdev'.bar idx).type = .mem64 := by
      rw [hsame.eq idx]
      exact htype.trans h64
    have hnext' : (vdev'.bar (idx + 1)).type = .mem64hi := by
      rw [hsame.other _ (by omega), hnext h64]
    have hcfg : vdev'.cfgdata (idx + 4) &&& p.barWritable idx = lo &&& p.barWritable idx := by
      rw [hvdev', pciVdevWriteBar_cfgdata, Function.update_self, hmask, hfixed,
        or_fixed_and _ _ hbar.mask_type]
    obtain ⟨hsame', hbase'⟩ := hset'.write hi (if_pos hnext') (u := idx) (Or.inr htype')
    have hw : writeVbarBase p vdev idx = pciVdevWriteBar vdev' (idx + 1) hi := by
      rw [writeVbarBase, if_pos h64]
    rw [hw]
    refine ⟨hsame.trans hsame', fun hne => ?_⟩
    rw [(hbase' hne).1, hset'.requested_hi htype' hnext', hcfg]
    have hsplit := vbarBase_split (vdev.vbarBase idx)
    rw [← hlo, ← hhi] at hsplit
    have hhighle := Nat.mul_le_mul_left (2 ^ 32) (and_mask_le hi (p.barWritable (idx + 1))).1
    refine ⟨by omega, fun hd => ?_⟩
    exact Nat.dvd_add (hmaskdvd (hlodvd hd)) (Dvd.dvd.mul_right (by decide) _)

/-- The loop gets to register `idx`: a BAR starts there, or it is the empty second
half of one without an address. -/
def PciPdev.Visited (p : PciPdev) (idx : ℕ) : Prop := p.start idx = true ∨ p.barReg idx = 0#32

/-- An iteration of `init_vdev_pt` gives BAR `idx` a base that comes from the
configured one, and maps it. -/
structure InitStep (ops : MemoryOps) (idx : ℕ) (dev dev' : PtDev) (ept ept' : PgMem) : Prop where
  pdev : dev'.pdev = dev.pdev
  vbarBase : dev'.vdev.vbarBase = dev.vdev.vbarBase
  setUp : dev'.vdev.SetUp dev.pdev
  other : ∀ i, i ≠ idx → (dev'.vdev.bar i).base = (dev.vdev.bar i).base ∧
    (dev'.vdev.bar i).size = (dev.vdev.bar i).size ∧
    (dev'.vdev.bar i).baseHpa = (dev.vdev.bar i).baseHpa
  old : (dev.vdev.bar idx).base = 0#64
  base : (dev'.vdev.bar idx).base ≠ 0#64 →
    (dev'.vdev.bar idx).base.toNat ≤ (dev.vdev.vbarBase idx).toNat ∧
    (pageSize ∣ (dev.vdev.vbarBase idx).toNat → pageSize ∣ (dev'.vdev.bar idx).base.toNat)
  ept : ept' = vdevPtMapMemVbar ops dev'.vdev idx ept

theorem barAddress_eq_zero (p : PciPdev) (idx : ℕ) {hi : Reg}
    (h : barWord (p.barType idx) (p.barReg idx) hi &&&
    pciBaseAddressMemMask = 0#64) (h64 : p.barType idx = .mem64) : hi = 0#32 := by
  apply BitVec.eq_of_getLsbD_eq
  intro i hi'
  have hbit := congrArg (fun x : Word => x.getLsbD (i + 32)) h
  have hlo : (p.barReg idx).getLsbD (i + 32) = false := BitVec.getLsbD_of_ge _ _ (by omega)
  simp only [barWord, if_pos h64, BitVec.getLsbD_and, BitVec.getLsbD_or, BitVec.getLsbD_setWidth,
    BitVec.getLsbD_shiftLeft, getLsbD_memMask, hlo, show i + 32 < 64 by omega,
    show ¬ i + 32 < 32 by omega, show 4 ≤ i + 32 by omega, show i < 64 by omega,
    Nat.add_sub_cancel, decide_true, decide_false, Bool.and_true, Bool.true_and, Bool.and_false,
    Bool.false_or, Bool.not_false, BitVec.getLsbD_zero] at hbit
  rw [BitVec.getLsbD_zero]
  exact hbit

/-- A register that is passed over is followed by one the loop may look at. -/
theorem PciPdev.visited_next (hskip : p.barType idx = .none ∨ p.barAddress idx = 0#64) :
    p.Visited (idx + 1) := by
  by_cases hhalf : p.start idx = true ∧ p.barType idx = .mem64
  · obtain ⟨-, h64⟩ := hhalf
    right
    refine barAddress_eq_zero p idx ?_ h64
    refine hskip.resolve_left ?_
    rw [h64]
    decide
  · left
    rw [PciPdev.start, Bool.not_eq_true', Bool.and_eq_false_iff]
    by_cases hs : p.start idx = true
    · exact Or.inr (decide_eq_false fun h64 => hhalf ⟨hs, h64⟩)
    · exact Or.inl (Bool.not_eq_true _ ▸ hs)

/-- A register with an assigned memory BAR really starts one. -/
theorem PciPdev.Visited.start (h : p.Visited idx) (hassigned : p.barAddress idx ≠ 0#64) :
    p.start idx = true := by
  refine h.resolve_right fun hz => hassigned ?_
  have h32 : p.barType idx = .mem32 := by
    rw [PciPdev.barType, hz]
    decide
  rw [PciPdev.barAddress, h32, hz, barWord, if_neg (by decide)]
  decide

theorem initVbar_spec (ops : MemoryOps) (ept : PgMem) (hconf : p.Conforms) (hset : vdev.SetUp p)
    (hfresh : vdev.Fresh idx)
    (hvisit : p.Visited idx) (hidx : idx < pciBarCount) :
    ∃ idx' vdev' ept', initVbar ops idx ⟨p, vdev⟩ ept = (idx', ⟨p, vdev'⟩, ept') ∧
      p.Visited idx' ∧ vdev'.Fresh idx' ∧ InitStep ops idx ⟨p, vdev⟩ ⟨p, vdev'⟩ ept ept' := by
  have hinit := hfresh idx le_rfl
  have hold : (vdev.bar idx).base = 0#64 := by
    rw [hinit]
    rfl
  by_cases hskip : p.barType idx = .none ∨ p.barAddress idx = 0#64
  · refine ⟨idx + 1, vdev, ept, initVbar_skip hskip (by rw [hinit]; rfl), p.visited_next hskip,
      fun i hi => hfresh i (by omega), rfl, rfl, hset, fun _ _ => ⟨rfl, rfl, rfl⟩, hold,
      fun hne => absurd hold hne, ?_⟩
    rw [vdevPtMapMemVbar, if_neg (not_not.mpr hold)]
  · obtain ⟨hmem, hassigned⟩ := not_or.mp hskip
    have hstart := hvisit.start hassigned
    obtain ⟨a, k, hbar⟩ := hconf.mem idx hidx hstart hmem hassigned
    have hfill := hset.fillVbar hfresh hbar
    obtain ⟨htype, -, hbase, -, -, -⟩ := @fillVbar_bar_self p vdev idx
    have hnext : p.barType idx = .mem64 →
        ((fillVbar p vdev idx).bar (idx + 1)).type = .mem64hi := by
      intro h64
      rw [fillVbar_bar_next h64]
    obtain ⟨hsame, hwritten⟩ := writeVbarBase_spec hfill hbar htype hnext
    have hvb : (fillVbar p vdev idx).vbarBase = vdev.vbarBase := by
      rw [fillVbar]
      split <;> rfl
    have hvb' : (writeVbarBase p (fillVbar p vdev idx) idx).vbarBase = vdev.vbarBase := by
      rw [writeVbarBase, ← hvb]
      split <;> rfl
    have hmem' : ((fillVbar p vdev idx).bar idx).IsMem := by
      rw [PciBar.IsMem, htype]
      exact barType_cases hmem
    refine ⟨_, _, _, initVbar_mem hbar hassigned, ?_, ?_, rfl, hvb', hfill.sameBut hsame hmem', ?_,
      hold, by rwa [hvb] at hwritten, rfl⟩
    · left
      split
      case isTrue h64 => simp [PciPdev.start, h64, hstart]
      case isFalse h64 => simp [PciPdev.start, h64]
    · intro i hi
      have hge : idx + 1 ≤ i ∧ (p.barType idx = .mem64 → idx + 2 ≤ i) := by
        split at hi
        · exact ⟨by omega, fun _ => hi⟩
        · exact ⟨hi, fun h64 => by contradiction⟩
      rw [hsame.other i (by omega), fillVbar_bar_of_ne (by omega) fun h64 => by
        have := hge.2 h64
        omega]
      exact hfresh i (by omega)
    · intro i hi
      rw [hsame.other i hi]
      by_cases hhalf : p.barType idx = .mem64 ∧ i = idx + 1
      · obtain ⟨h64, rfl⟩ := hhalf
        rw [fillVbar_bar_next h64]
        exact ⟨rfl, rfl, rfl⟩
      · rw [fillVbar_bar_of_ne hi fun h64 he => hhalf ⟨h64, he⟩]
        exact ⟨rfl, rfl, rfl⟩

/-! ## The loop -/

theorem initVbars_rule {P : PtDev → PgMem → Prop}
    (hstep : ∀ idx dev dev' ept ept', InitStep ops idx dev dev' ept ept' → P dev ept → P dev' ept')
    (hconf : p.Conforms) (n : ℕ) : ∀ idx vdev ept, vdev.SetUp p → vdev.Fresh idx → p.Visited idx →
      P ⟨p, vdev⟩ ept →
        P (initVbars ops n idx ⟨p, vdev⟩ ept).1 (initVbars ops n idx ⟨p, vdev⟩ ept).2 := by
  induction n with
  | zero => exact fun _ _ _ _ _ _ h => h
  | succ n ih =>
    intro idx vdev ept hset hfresh hvisit h
    rw [initVbars]
    by_cases hidx : idx < pciBarCount
    · obtain ⟨idx', vdev', ept', he, hvisit', hfresh', hs⟩ :=
        initVbar_spec ops ept hconf hset hfresh hvisit hidx
      rw [if_pos hidx, he]
      exact ih idx' vdev' ept' hs.setUp hfresh' hvisit' (hstep _ _ _ _ _ hs h)
    · rw [if_neg hidx]
      exact h

/-- A device in zeroed memory is set up: it has no BARs. -/
theorem setUp_of_fresh (h : vdev.Fresh 0) : vdev.SetUp p := by
  have hinit : ∀ i, vdev.bar i = PciBar.initial := fun i => h i (Nat.zero_le i)
  refine ⟨?_, ?_, ?_, ?_, ?_⟩ <;> intro i
  · rw [PciBar.IsMem, hinit]
    rintro (hi | hi) <;> cases hi
  · rw [hinit]
    exact fun hi => nomatch hi
  · rw [hinit]
    exact fun hi => nomatch hi
  · rw [hinit]
    exact fun hi => absurd rfl hi
  · rw [hinit]
    exact fun hi => absurd rfl hi

/-- **What every iteration keeps holds after `init_vdev_pt`.** -/
theorem initVdevPt_rule (P : PtDev → PgMem → Prop)
    (hstep : ∀ idx dev dev' ept ept', InitStep ops idx dev dev' ept ept' → P dev ept → P dev' ept')
    {dev : PtDev} (hconf : dev.pdev.Conforms) (hfresh : dev.vdev.Fresh 0) (h : P dev ept) :
    P (initVdevPt ops dev ept).1 (initVdevPt ops dev ept).2 :=
  initVbars_rule hstep hconf pciBarCount 0 dev.vdev ept (setUp_of_fresh hfresh) hfresh (Or.inl rfl) h

end Acrn
