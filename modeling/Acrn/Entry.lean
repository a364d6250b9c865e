import Acrn.Page

/-!
# Reading and assembling entries

What the masks of `pgtable.h` select, and what the callbacks of a `memory_ops`
may look at: presence is decided by some of the low three bits, the default
access right is a present table right, and the two execute-right callbacks only
touch `EPT_EXE`. Both instances of the hypervisor keep to that.
-/

namespace Acrn

open BitField

theorem pfnMask_eq : pfnMask = fieldMask 64 12 39 := by decide
theorem pdptePaddrMask_eq : pdptePaddrMask = fieldMask 64 30 39 := by decide
theorem pdePaddrMask_eq : pdePaddrMask = fieldMask 64 21 39 := by decide
theorem pagePs_eq : pagePs = fieldMask 64 7 8 := by decide
theorem protMask_eq : protMask = fieldMask 64 0 12 ||| fieldMask 64 59 64 := by decide

/-- The frame of the table an entry was built for. -/
theorem toNat_ofNat_or_and_pfnMask {page : ℕ} {right : Word} (hdvd : pageSize ∣ page)
    (hlt : page < 2 ^ 39) (hright : right &&& pfnMask = 0#64) :
    ((BitVec.ofNat 64 page ||| right) &&& pfnMask).toNat = page := by
  rw [or_and_of_disjoint_right hright, pfnMask_eq,
    toNat_and_fieldMask _ (by decide) (by decide), BitVec.toNat_ofNat,
    Nat.mod_eq_of_lt (show page < 2 ^ 64 by omega), Nat.mod_eq_of_lt hlt,
    show (2 : ℕ) ^ 12 = pageSize from rfl, Nat.div_mul_cancel hdvd]

/-! ## The contract of a `memory_ops`

All later modules use these facts about the callbacks only. They hold of `ppt_mem_ops` and of the
one for EPTs, with the mitigation and without. -/

/-- What the page-table operations rely on. -/
structure MemoryOps.Lawful (ops : MemoryOps) : Prop where
  present : ∃ mask : Word, mask &&& 0x7#64 = mask ∧ ∀ e, ops.pgentryPresent e = e &&& mask
  default_present : ops.pgentryPresent ops.getDefaultAccessRight ≠ 0#64
  default_low : ops.getDefaultAccessRight &&& 0x7#64 = ops.getDefaultAccessRight
  exe : ∃ exe : Word, exe &&& eptExe = exe ∧ (∀ p, ops.tweakExeRight p = p &&& ~~~exe) ∧
    ∀ p, ops.recoverExeRight p = p ||| exe

theorem and_not_zero (p : Word) : p &&& ~~~0#64 = p := by
  rw [BitVec.not_zero, BitVec.and_allOnes]

theorem MemoryOps.Known.lawful {ops : MemoryOps} (h : ops.Known) : ops.Lawful := by
  have hept : eptPgentryPresent eptRwx ≠ 0#64 ∧ eptRwx &&& 0x7#64 = eptRwx := by decide
  have hppt : pptPgentryPresent (pagePresent ||| pageRw ||| pageUser) ≠ 0#64 ∧
      (pagePresent ||| pageRw ||| pageUser) &&& 0x7#64 = pagePresent ||| pageRw ||| pageUser := by
    decide
  cases h with
  | ept info force enforce _ =>
    refine ⟨⟨eptRwx, by decide, fun _ => rfl⟩, hept.1, hept.2, ?_⟩
    cases force with
    | true => exact ⟨eptExe, by decide, fun _ => rfl, fun _ => rfl⟩
    | false =>
      exact ⟨0#64, by decide, fun p => (and_not_zero p).symm, fun _ => BitVec.or_zero.symm⟩
  | ppt info _ =>
    exact ⟨⟨pagePresent, by decide, fun _ => rfl⟩, hppt.1, hppt.2,
      0#64, by decide, fun p => (and_not_zero p).symm, fun _ => BitVec.or_zero.symm⟩

namespace MemoryOps.Lawful

variable {ops : MemoryOps} (h : ops.Lawful)
include h

theorem present_or_right {a b : Word} (hb : ops.pgentryPresent b ≠ 0#64) :
    ops.pgentryPresent (a ||| b) ≠ 0#64 := by
  obtain ⟨mask, -, hp⟩ := h.present
  rw [hp] at hb ⊢
  exact or_and_ne_zero hb

theorem present_or_left {a b : Word} (ha : ops.pgentryPresent a ≠ 0#64) :
    ops.pgentryPresent (a ||| b) ≠ 0#64 := by
  rw [BitVec.or_comm]
  exact h.present_or_right ha

/-- Presence is decided by the low three bits. -/
theorem present_congr {a b : Word} (hab : a &&& 0x7#64 = b &&& 0x7#64) :
    ops.pgentryPresent a = ops.pgentryPresent b := by
  obtain ⟨mask, hm, hp⟩ := h.present
  rw [hp, hp, ← hm, BitVec.and_comm mask, ← BitVec.and_assoc, ← BitVec.and_assoc, hab]

/-- A page address without any right is not present. -/
theorem present_ofNat {page : ℕ} (hdvd : pageSize ∣ page) :
    ops.pgentryPresent (BitVec.ofNat 64 page) = 0#64 := by
  have hlow : BitVec.ofNat 64 page &&& 0x7#64 = 0#64 &&& 0x7#64 := by
    rw [show (0x7#64 : Word) = fieldMask 64 0 3 by decide]
    apply BitVec.eq_of_toNat_eq
    rw [toNat_and_fieldMask_low _ (by decide), toNat_and_fieldMask_low _ (by decide),
      BitVec.toNat_ofNat]
    simp only [pageSize] at hdvd
    simp only [BitVec.toNat_ofNat]
    omega
  rw [h.present_congr hlow]
  obtain ⟨mask, -, hp⟩ := h.present
  rw [hp, BitVec.zero_and]

theorem default_pfn : ops.getDefaultAccessRight &&& pfnMask = 0#64 := by
  rw [← h.default_low, BitVec.and_assoc, show (0x7#64 &&& pfnMask : Word) = 0#64 by decide,
    BitVec.and_zero]

theorem default_ps : ops.getDefaultAccessRight &&& pagePs = 0#64 := by
  rw [← h.default_low, BitVec.and_assoc, show (0x7#64 &&& pagePs : Word) = 0#64 by decide,
    BitVec.and_zero]

/-- Tweaking a second time changes nothing. -/
theorem tweak_tweak (p : Word) :
    ops.tweakExeRight (ops.tweakExeRight p) = ops.tweakExeRight p := by
  obtain ⟨exe, -, ht, -⟩ := h.exe
  rw [ht, ht, BitVec.and_assoc, BitVec.and_self]

end MemoryOps.Lawful

/-! ## Table references -/

variable {ops : MemoryOps}

/-- The entry that references the table page at `page`. -/
def tableEntry (ops : MemoryOps) (page : ℕ) : Word :=
  BitVec.ofNat 64 page ||| ops.getDefaultAccessRight

theorem tableEntry_present (h : ops.Lawful) (page : ℕ) :
    ops.pgentryPresent (tableEntry ops page) ≠ 0#64 :=
  h.present_or_right h.default_present

theorem tableEntry_ps (h : ops.Lawful) {page : ℕ} (hdvd : pageSize ∣ page) :
    tableEntry ops page &&& pagePs = 0#64 := by
  rw [tableEntry, or_and_of_disjoint_right h.default_ps]
  apply BitVec.eq_of_getLsbD_eq
  intro i hi
  rw [BitVec.getLsbD_and, pagePs_eq, getLsbD_fieldMask (by decide), BitVec.getLsbD_zero]
  by_cases hlow : i < 12
  · rw [getLsbD_ofNat_of_dvd (k := 12) hdvd hlow, Bool.false_and]
  · simp [show ¬ i < 8 by omega]

theorem sanitized_ps {page : ℕ} (hdvd : pageSize ∣ page) :
    BitVec.ofNat 64 page &&& pagePs = 0#64 := by
  apply BitVec.eq_of_getLsbD_eq
  intro i hi
  rw [BitVec.getLsbD_and, pagePs_eq, getLsbD_fieldMask (by decide), BitVec.getLsbD_zero]
  by_cases hlow : i < 12
  · rw [getLsbD_ofNat_of_dvd (k := 12) hdvd hlow, Bool.false_and]
  · simp [show ¬ i < 8 by omega]

end Acrn
