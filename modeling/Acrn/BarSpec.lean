import Acrn.Vdev

/-!
# What a virtual BAR holds and what backs it

The address that a guest puts into the registers of a BAR becomes its base if the
range is valid, and nothing otherwise. The EPT maps the pages of a BAR with a base
to the pages of its physical BAR; `PciBar.pages` and `PciBar.hpaAt` say which.
-/

namespace Acrn

open BlockLoop BitField

/-! ## The registers of a device -/

@[simp] theorem pciBarOffset_div (idx : ℕ) : pciBarOffset idx / 4 = idx + 4 := by
  rw [pciBarOffset]
  omega

@[simp] theorem pciBarOffset_add_div (idx : ℕ) : (pciBarOffset idx + 4) / 4 = idx + 1 + 4 := by
  rw [pciBarOffset]
  omega

/-- The address in the registers of a memory BAR. -/
def PciVdev.address (vdev : PciVdev) (idx : ℕ) : ℕ :=
  (vdev.cfgdata (idx + 4) &&& (vdev.bar idx).mask).toNat +
    if (vdev.bar idx).type = .mem64 then
      2 ^ 32 * (vdev.cfgdata (idx + 5) &&& (vdev.bar (idx + 1)).mask).toNat
    else 0

/-- The address in the registers of the BAR once `val` has been written to
register `idx`. -/
def PciVdev.requested (vdev : PciVdev) (idx : ℕ) (val : Reg) : ℕ :=
  PciVdev.address (pciVdevWriteCfgU32 vdev (pciBarOffset idx)
    ((val &&& (vdev.bar idx).mask) ||| (vdev.bar idx).fixed)) (vdev.updateIdx idx)

/-- The BAR decodes memory. -/
def PciBar.IsMem (bar : PciBar) : Prop := bar.type = .mem32 ∨ bar.type = .mem64

theorem toNat_setWidth_or_shift (lo hi : Reg) :
    (lo.setWidth 64 ||| hi.setWidth 64 <<< 32).toNat = lo.toNat + 2 ^ 32 * hi.toNat := by
  have hlo := lo.isLt
  have hhi := hi.isLt
  have hshift : (hi.setWidth 64 <<< 32).toNat = 2 ^ 32 * hi.toNat := by
    rw [BitVec.toNat_shiftLeft, BitVec.toNat_setWidth, Nat.mod_eq_of_lt (by omega),
      Nat.shiftLeft_eq, Nat.mod_eq_of_lt (by omega), Nat.mul_comm]
  have hlow : (lo.setWidth 64).toNat = lo.toNat := by
    rw [BitVec.toNat_setWidth, Nat.mod_eq_of_lt (by omega)]
  rw [BitVec.or_comm, toNat_or_of_aligned (n := 32), hshift, hlow, Nat.add_comm]
  · rw [hshift]
    exact Dvd.intro _ rfl
  · rw [hlow]
    exact hlo

/-- What `pci_vdev_update_bar_base` decodes is the address in the registers, or
nothing. A 64-bit BAR whose high register is all ones holds no address. -/
theorem decodedBase_eq (vdev : PciVdev) (idx : ℕ) (hmem : (vdev.bar idx).IsMem)
    (hhi : (vdev.bar (idx + 1)).type ≠ .ioSpace) :
    decodedBase vdev idx = 0#64 ∨ (decodedBase vdev idx).toNat = vdev.address idx ∧
      ((vdev.bar idx).type = .mem64 → vdev.cfgdata (idx + 5) ≠ ~~~0#32) := by
  have hio : (vdev.bar idx).type ≠ .ioSpace := by
    rcases hmem with h | h <;> rw [h] <;> decide
  rw [decodedBase]
  simp only [pciVdevReadCfgU32, pciBarOffset_div, pciBarOffset_add_div]
  by_cases hlo : (vdev.bar idx).type ≠ .none ∧ vdev.cfgdata (idx + 4) ≠ ~~~0#32
  · rw [if_pos hlo]
    by_cases h64 : (vdev.bar idx).type = .mem64
    · simp only [if_pos h64]
      by_cases hall : vdev.cfgdata (idx + 1 + 4) ≠ ~~~0#32
      · simp only [if_pos hall, if_neg hhi]
        refine Or.inr ⟨?_, fun _ => hall⟩
        rw [toNat_setWidth_or_shift, PciVdev.address, if_pos h64]
      · simp only [if_neg hall, if_neg hhi]
        exact Or.inl trivial
    · simp only [if_neg h64, if_neg hio]
      refine Or.inr ⟨?_, fun h => absurd h h64⟩
      have := (vdev.cfgdata (idx + 4) &&& (vdev.bar idx).mask).isLt
      rw [PciVdev.address, if_neg h64, BitVec.toNat_setWidth, Nat.mod_eq_of_lt (by omega)]
      rfl
  · rw [if_neg hlo]
    exact Or.inl rfl

/-! ## Writing a register -/

variable {vdev : PciVdev} {idx : ℕ} {val : Reg}

/-- A write concerns the base of one BAR. -/
theorem pciVdevWriteBar_bar_of_ne {i : ℕ} (h : i ≠ vdev.updateIdx idx) :
    (pciVdevWriteBar vdev idx val).bar i = vdev.bar i := Function.update_of_ne h _ _

/-- Its base becomes the requested address, if that is valid. -/
theorem pciVdevWriteBar_bar_self (vdev : PciVdev) (idx : ℕ) (val : Reg)
    (hmem : (vdev.bar (vdev.updateIdx idx)).IsMem)
    (hhi : (vdev.bar (vdev.updateIdx idx + 1)).type ≠ .ioSpace) :
    ∃ base, (pciVdevWriteBar vdev idx val).bar (vdev.updateIdx idx) =
        { vdev.bar (vdev.updateIdx idx) with base } ∧
      (base = 0#64 ∨
        base.toNat = vdev.requested idx val ∧
        vbarBaseIsValid base (vdev.bar (vdev.updateIdx idx)).size = true ∧
        ((vdev.bar (vdev.updateIdx idx)).type = .mem64 →
          (pciVdevWriteBar vdev idx val).cfgdata (vdev.updateIdx idx + 5) ≠ ~~~0#32)) := by
  set written := pciVdevWriteCfgU32 vdev (pciBarOffset idx)
    ((val &&& (vdev.bar idx).mask) ||| (vdev.bar idx).fixed) with hwritten
  refine ⟨_, Function.update_self _ _ _, ?_⟩
  by_cases hinvalid : decodedBase written (vdev.updateIdx idx) ≠ 0#64 ∧
      ¬ vbarBaseIsValid (decodedBase written (vdev.updateIdx idx))
        (written.bar (vdev.updateIdx idx)).size
  · exact Or.inl (if_pos hinvalid)
  · rw [if_neg hinvalid]
    rcases decodedBase_eq written _ hmem hhi with h | ⟨h, hhi'⟩
    · exact Or.inl h
    · by_cases hz : decodedBase written (vdev.updateIdx idx) = 0#64
      · exact Or.inl hz
      · refine Or.inr ⟨h, ?_, hhi'⟩
        by_contra hv
        exact hinvalid ⟨hz, hv⟩

theorem pciVdevWriteCfgU32_cfgdata : (pciVdevWriteCfgU32 vdev (pciBarOffset idx) val).cfgdata =
    Function.update vdev.cfgdata (idx + 4) val := by
  rw [pciVdevWriteCfgU32, pciBarOffset_div]

theorem pciVdevWriteBar_cfgdata : (pciVdevWriteBar vdev idx val).cfgdata =
    Function.update vdev.cfgdata (idx + 4)
      ((val &&& (vdev.bar idx).mask) ||| (vdev.bar idx).fixed) := pciVdevWriteCfgU32_cfgdata

/-- **A register reads back** its writable bits as written and its fixed ones. -/
theorem pciVdevReadBar_write :
    pciVdevReadBar (pciVdevWriteBar vdev idx val) idx =
      (val &&& (vdev.bar idx).mask) ||| (vdev.bar idx).fixed := by
  rw [pciVdevReadBar, pciVdevReadCfgU32, pciBarOffset_div, pciVdevWriteBar_cfgdata,
    Function.update_self]

/-! ## Pages

The EPT has pages, and a base need not be aligned to one. What is mapped for a BAR are the pages
that its range touches as the code rounds it. -/

/-- The addresses in the pages of `[base, base + size)`, for a BAR with a base. -/
def PciBar.pages (bar : PciBar) : Set ℕ :=
  {v | bar.base ≠ 0#64 ∧ v ∈ pageRange bar.base.toNat bar.size.toNat}

instance (bar : PciBar) (v : ℕ) : Decidable (v ∈ bar.pages) :=
  inferInstanceAs (Decidable (_ ∧ _))

/-- The host address behind address `v` of the BAR, page by page. -/
def PciBar.hpaAt (bar : PciBar) (v : ℕ) : ℕ :=
  roundPageDown bar.baseHpa.toNat + (v - roundPageDown bar.base.toNat)

/-- The range that `vbar_base_is_valid` is about. -/
def mmioWindow : Set ℕ := {v | pciVbarBaseLimit ≤ v ∧ v < pciVbarTopLimit}

/-- The base is valid, and the physical BAR lies below `MAXPHYADDR`. -/
structure PciBar.Fits (bar : PciBar) : Prop where
  valid : vbarBaseIsValid bar.base bar.size = true
  hpa : roundPageDown bar.baseHpa.toNat + bar.size.toNat ≤ 2 ^ 39

theorem vbarBaseIsValid_iff {base size : Word} : vbarBaseIsValid base size = true ↔
    pciVbarBaseLimit ≤ base.toNat ∧ (base.toNat + size.toNat) % 2 ^ 64 ≤ pciVbarTopLimit := by
  rw [vbarBaseIsValid, Bool.not_eq_true', Bool.or_eq_false_iff, decide_eq_false_iff_not,
    decide_eq_false_iff_not, BitVec.toNat_add, Nat.not_lt, Nat.not_lt]

namespace PciBar

variable {bar : PciBar} {v : ℕ}

/-- Even where `base + size` wraps around, a valid range ends below the limit. -/
theorem Fits.rangeEnd_le (h : bar.Fits) :
    rangeEnd bar.base.toNat bar.size.toNat ≤ pciVbarTopLimit := by
  have hv := (vbarBaseIsValid_iff.mp h.valid).2
  simp only [rangeEnd, roundPageUp, blockStart, pciVbarTopLimit, pageSize] at *
  omega

theorem Fits.le_roundPageDown (h : bar.Fits) :
    pciVbarBaseLimit ≤ roundPageDown bar.base.toNat := by
  have hv := (vbarBaseIsValid_iff.mp h.valid).1
  simp only [roundPageDown, blockStart, pciVbarBaseLimit] at *
  omega

theorem pages_subset (h : bar.base ≠ 0#64 → bar.Fits) : bar.pages ⊆ mmioWindow := by
  rintro v ⟨hbase, hge, hlt⟩
  exact ⟨(h hbase).le_roundPageDown.trans hge, hlt.trans_le (h hbase).rangeEnd_le⟩

/-- The pages of a BAR take up its size, and one page more if its base is not
aligned. -/
theorem Fits.hpa_lt (h : bar.Fits) : roundPageDown bar.baseHpa.toNat +
    (rangeEnd bar.base.toNat bar.size.toNat - roundPageDown bar.base.toNat) <
      2 ^ 39 + 2 ^ 21 := by
  have hsize := h.hpa
  have hb := bar.base.isLt
  simp only [rangeEnd, roundPageUp, roundPageDown, blockStart, pageSize] at *
  omega

end PciBar

/-! ## The EPT side of a write

An unaligned BAR may share a page with another, and here the two meet: each write is described by
the interval that it takes out of the map and by the one that it puts in. -/

variable {ops : MemoryOps} {ept : PgMem}

theorem vbarProt_ok (hknown : ops.Known) : ProtOk ops (snooped vbarProt) := by
  have hattr : snooped vbarProt &&& frameMask = 0#64 := by decide
  have hept : eptPgentryPresent (snooped vbarProt) ≠ 0#64 := by decide
  have htweak : eptPgentryPresent (eptTweakExeRight (snooped vbarProt)) ≠ 0#64 := by decide
  have hppt : pptPgentryPresent (snooped vbarProt) ≠ 0#64 := by decide
  cases hknown with
  | ept info force enforce _ =>
    cases force with
    | true => exact ⟨hattr, hept, htweak⟩
    | false => exact ⟨hattr, hept, hept⟩
  | ppt info _ => exact ⟨hattr, hppt, hppt⟩

/-- The pages of a BAR are taken out of the map. -/
theorem vdevPtUnmapMemVbar_spec (hknown : ops.Known) (hpool : ops.info.ptPool = true)
    (hwin : pciVbarTopLimit ≤ ops.info.window) (hept : EptOk ops ept)
    (hfits : (vdev.bar idx).base ≠ 0#64 → (vdev.bar idx).Fits) :
    EptOk ops (vdevPtUnmapMemVbar ops vdev idx ept) ∧
      ∀ v < 2 ^ 48, gpa2hpa ops (vdevPtUnmapMemVbar ops vdev idx ept) v =
        if v ∈ (vdev.bar idx).pages then none else gpa2hpa ops ept v := by
  rw [vdevPtUnmapMemVbar]
  by_cases hbase : (vdev.bar idx).base ≠ 0#64
  · obtain ⟨hok, hmap⟩ := hept.del hknown hpool ((hfits hbase).rangeEnd_le.trans hwin)
    rw [if_pos hbase]
    refine ⟨hok, fun v hv => (hmap v hv).trans ?_⟩
    by_cases hin : v ∈ pageRange (vdev.bar idx).base.toNat (vdev.bar idx).size.toNat
    · rw [if_pos hin, if_pos (show v ∈ (vdev.bar idx).pages from ⟨hbase, hin⟩)]
    · rw [if_neg hin, if_neg fun h : v ∈ (vdev.bar idx).pages => hin h.2]
  · rw [if_neg hbase]
    exact ⟨hept, fun v _ => (if_neg fun h : v ∈ (vdev.bar idx).pages => hbase h.1).symm⟩

/-- The pages of a BAR are mapped to those of its physical BAR, whatever was
mapped there before. -/
theorem vdevPtMapMemVbar_spec (hknown : ops.Known) (hpool : ops.info.ptPool = true)
    (hwin : pciVbarTopLimit ≤ ops.info.window) (hept : EptOk ops ept)
    (hfits : (vdev.bar idx).base ≠ 0#64 → (vdev.bar idx).Fits) :
    EptOk ops (vdevPtMapMemVbar ops vdev idx ept) ∧
      ∀ v < 2 ^ 48, gpa2hpa ops (vdevPtMapMemVbar ops vdev idx ept) v =
        if v ∈ (vdev.bar idx).pages then some ((vdev.bar idx).hpaAt v)
        else gpa2hpa ops ept v := by
  rw [vdevPtMapMemVbar]
  by_cases hbase : (vdev.bar idx).base ≠ 0#64
  · have hend := (hfits hbase).rangeEnd_le.trans hwin
    obtain ⟨hok, hmap⟩ := hept.del hknown hpool hend
    have hfree : ∀ v ∈ pageRange (vdev.bar idx).base.toNat (vdev.bar idx).size.toNat,
        gpa2hpa ops (eptDelMr ops ops.info.pml4Base (vdev.bar idx).base.toNat
          (vdev.bar idx).size.toNat ept) v = none := by
      intro v hv
      have hle := ops.info.window_le
      rw [hmap v (by have := hv.2; omega), if_pos hv]
    obtain ⟨hok', hmap'⟩ := hok.add hknown hpool hend (vbarProt_ok hknown) (hfits hbase).hpa_lt
      hfree
    rw [if_pos hbase]
    refine ⟨hok', fun v hv => (hmap' v hv).trans ?_⟩
    by_cases hin : v ∈ pageRange (vdev.bar idx).base.toNat (vdev.bar idx).size.toNat
    · rw [if_pos hin, if_pos (show v ∈ (vdev.bar idx).pages from ⟨hbase, hin⟩)]
      rfl
    · rw [if_neg hin, if_neg fun h : v ∈ (vdev.bar idx).pages => hin h.2, hmap v hv, if_neg hin]
  · rw [if_neg hbase]
    exact ⟨hept, fun v _ => (if_neg fun h : v ∈ (vdev.bar idx).pages => hbase h.1).symm⟩

end Acrn
