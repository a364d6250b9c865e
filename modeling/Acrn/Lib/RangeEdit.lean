import Mathlib.Data.Set.Basic
import Acrn.Lib.BitField

/-!
# Edits of a map over ranges of its keys

A partial map from keys to bit vectors is edited range by range: an edit clears a mask in
every value of its range, or takes the range out of the map. The ranges of a sequence of
edits may overlap in any way. What is left of one key is read off the list: it is gone if an
edit that removes covers it, and a field is zero if an edit that clears it covers the key.
-/

namespace RangeEdit

open BitField

/-- One edit over a range of keys. -/
inductive Edit (ι : Type*) (w : ℕ) where
  /-- the bits of the mask are cleared -/
  | clear (range : Set ι) (mask : BitVec w)
  /-- the range is taken out -/
  | remove (range : Set ι)

variable {ι : Type*} {w : ℕ}

open Classical in
/-- What an edit makes of a map. -/
noncomputable def Edit.apply (edit : Edit ι w) (f : ι → Option (BitVec w)) (i : ι) :
    Option (BitVec w) :=
  match edit with
  | .clear range mask => if i ∈ range then (f i).map (· &&& ~~~mask) else f i
  | .remove range => if i ∈ range then none else f i

/-- A sequence of edits, the first one first. -/
noncomputable def applyAll (edits : List (Edit ι w)) (f : ι → Option (BitVec w)) :
    ι → Option (BitVec w) :=
  edits.foldl (fun f edit => edit.apply f) f

/-- Some edit takes the key out. -/
def Removed (edits : List (Edit ι w)) (i : ι) : Prop :=
  ∃ range, Edit.remove range ∈ edits ∧ i ∈ range

/-- Some edit that covers the key clears the field. -/
def Cleared (edits : List (Edit ι w)) (field : BitVec w) (i : ι) : Prop :=
  ∃ range mask, Edit.clear range mask ∈ edits ∧ i ∈ range ∧ mask &&& field = field

/-- Each edit clears the field as a whole or leaves it alone. -/
def Respects (edits : List (Edit ι w)) (field : BitVec w) : Prop :=
  ∀ range mask, Edit.clear range mask ∈ edits → mask &&& field = field ∨ mask &&& field = 0#w

variable {edit : Edit ι w} {edits : List (Edit ι w)} {f : ι → Option (BitVec w)}
  {field : BitVec w} {i : ι}

theorem applyAll_cons : applyAll (edit :: edits) f = applyAll edits (edit.apply f) := rfl

theorem applyAll_append (edits edits' : List (Edit ι w)) (f : ι → Option (BitVec w)) :
    applyAll (edits ++ edits') f = applyAll edits' (applyAll edits f) :=
  List.foldl_append

/-! ## One edit -/

theorem apply_clear_of_mem {range : Set ι} {mask : BitVec w} (h : i ∈ range) :
    (Edit.clear range mask).apply f i = (f i).map (· &&& ~~~mask) := if_pos h

theorem apply_clear_of_not_mem {range : Set ι} {mask : BitVec w} (h : i ∉ range) :
    (Edit.clear range mask).apply f i = f i := if_neg h

theorem apply_remove_of_mem {range : Set ι} (h : i ∈ range) :
    (Edit.remove range).apply f i = none := if_pos h

theorem apply_remove_of_not_mem {range : Set ι} (h : i ∉ range) :
    (Edit.remove range : Edit ι w).apply f i = f i := if_neg h

/-! ## Reading a sequence -/

@[simp] theorem not_removed_nil : ¬ Removed ([] : List (Edit ι w)) i := by
  rintro ⟨range, hmem, -⟩
  cases hmem

@[simp] theorem removed_cons_clear {range : Set ι} {mask : BitVec w} :
    Removed (.clear range mask :: edits) i ↔ Removed edits i := by
  simp [Removed]

@[simp] theorem removed_cons_remove {range : Set ι} :
    Removed (.remove range :: edits) i ↔ i ∈ range ∨ Removed edits i := by
  simp [Removed, or_and_right, exists_or]

@[simp] theorem removed_append {edits' : List (Edit ι w)} :
    Removed (edits ++ edits') i ↔ Removed edits i ∨ Removed edits' i := by
  simp [Removed, or_and_right, exists_or]

@[simp] theorem not_cleared_nil : ¬ Cleared ([] : List (Edit ι w)) field i := by
  rintro ⟨range, mask, hmem, -⟩
  cases hmem

@[simp] theorem cleared_cons_clear {range : Set ι} {mask : BitVec w} :
    Cleared (.clear range mask :: edits) field i ↔
      (i ∈ range ∧ mask &&& field = field) ∨ Cleared edits field i := by
  constructor
  · rintro ⟨range', mask', hmem, h⟩
    rcases List.mem_cons.mp hmem with heq | hmem
    · obtain ⟨rfl, rfl⟩ := Edit.clear.inj heq
      exact .inl h
    · exact .inr ⟨range', mask', hmem, h⟩
  · rintro (h | ⟨range', mask', hmem, h⟩)
    · exact ⟨range, mask, List.mem_cons_self, h⟩
    · exact ⟨range', mask', List.mem_cons_of_mem _ hmem, h⟩

@[simp] theorem cleared_cons_remove {range : Set ι} :
    Cleared (.remove range :: edits) field i ↔ Cleared edits field i := by
  simp [Cleared]

@[simp] theorem cleared_append {edits' : List (Edit ι w)} :
    Cleared (edits ++ edits') field i ↔ Cleared edits field i ∨ Cleared edits' field i := by
  simp [Cleared, or_and_right, exists_or]

theorem Respects.tail (h : Respects (edit :: edits) field) : Respects edits field :=
  fun range mask hmem => h range mask (List.mem_cons_of_mem _ hmem)

/-! ## Sequences of edits

The order of the edits does not matter for what is left of a key: what is gone stays so, and a
field that was cleared stays zero. -/

/-- **A key is gone** if it was never there or some edit takes it out. -/
theorem applyAll_eq_none : applyAll edits f i = none ↔ f i = none ∨ Removed edits i := by
  induction edits generalizing f with
  | nil => simp [applyAll]
  | cons edit edits ih =>
    rw [applyAll_cons, ih]
    cases edit with
    | clear range mask =>
      rw [removed_cons_clear]
      by_cases hi : i ∈ range
      · rw [apply_clear_of_mem hi, Option.map_eq_none_iff]
      · rw [apply_clear_of_not_mem hi]
    | remove range =>
      rw [removed_cons_remove]
      by_cases hi : i ∈ range
      · simp [apply_remove_of_mem hi, hi]
      · simp [apply_remove_of_not_mem hi, hi]

/-- **A field is zero** if it was zero from the start or some edit that covers the key
clears it. -/
theorem applyAll_and_eq_zero {a b : BitVec w} (hresp : Respects edits field) (ha : f i = some a)
    (hb : applyAll edits f i = some b) :
    b &&& field = 0#w ↔ a &&& field = 0#w ∨ Cleared edits field i := by
  induction edits generalizing f a with
  | nil =>
    obtain rfl := Option.some.inj (ha.symm.trans hb)
    simp
  | cons edit edits ih =>
    rw [applyAll_cons] at hb
    cases edit with
    | clear range mask =>
      rw [cleared_cons_clear, ← or_assoc]
      by_cases hi : i ∈ range
      · have hstep : (Edit.clear range mask).apply f i = some (a &&& ~~~mask) := by
          rw [apply_clear_of_mem hi, ha, Option.map_some]
        rw [ih hresp.tail hstep hb]
        refine or_congr_left ?_
        rcases hresp range mask List.mem_cons_self with hfull | hdisj
        · -- the field is among the cleared bits
          have hnot : ~~~mask &&& mask = 0#w := by simp
          have hzero : a &&& ~~~mask &&& field = 0#w := by
            rw [BitVec.and_assoc, ← hfull, ← BitVec.and_assoc (~~~mask), hnot, BitVec.zero_and,
              BitVec.and_zero]
          exact iff_of_true hzero (.inr ⟨hi, hfull⟩)
        · have hsame : a &&& ~~~mask &&& field = a &&& field := by
            rw [BitVec.and_assoc, not_and_of_disjoint hdisj]
          rw [hsame, or_iff_left_of_imp]
          rintro ⟨-, hfull⟩
          rw [← hfull, hdisj, BitVec.and_zero]
      · rw [ih hresp.tail ((apply_clear_of_not_mem hi).trans ha) hb]
        exact or_congr_left (or_iff_left fun h => hi h.1).symm
    | remove range =>
      have hi : i ∉ range := by
        intro hi
        have hgone : (Edit.remove range).apply f i = none := apply_remove_of_mem hi
        have hnone : applyAll edits _ i = none := applyAll_eq_none.mpr (.inl hgone)
        rw [hnone] at hb
        cases hb
      rw [cleared_cons_remove]
      exact ih hresp.tail ((apply_remove_of_not_mem hi).trans ha) hb

end RangeEdit
