import Acrn.Lib.ByteCopy
import Acrn.Lib.ByteMem

/-!
# Regions of a memory

A memory is filled by writers, each of which keeps to a region of its own and leaves there what
it is meant to hold. If the regions are pairwise apart, everything is in its place at the end,
in whatever order the writers came.
-/

namespace Regions

open ByteMem ByteCopy

variable {α : Type*}

/-- Some consecutive addresses, and what they are meant to hold. Only the region itself counts
for that. -/
structure Region (α : Type*) where
  base : ℕ
  size : ℕ
  Ok : (ℕ → α) → Prop
  congr : ∀ m m', (∀ i < size, m (base + i) = m' (base + i)) → Ok m → Ok m'

namespace Region

/-- The address lies in the region. -/
def Covers (r : Region α) (a : ℕ) : Prop := r.base ≤ a ∧ a < r.base + r.size

instance (r : Region α) (a : ℕ) : Decidable (r.Covers a) := inferInstanceAs (Decidable (_ ∧ _))

/-- The region is meant to hold the bytes that `content` gives by offset. -/
def holding (base size : ℕ) (content : ℕ → α) : Region α where
  base := base
  size := size
  Ok m := ∀ i < size, m (base + i) = content i
  congr _ _ h hok i hi := (h i hi).symm.trans (hok i hi)

/-- A writer of the region: it writes nothing else, and what it leaves is right. -/
structure Writes (r : Region α) (m m' : ℕ → α) : Prop where
  frame : ∀ a, ¬ r.Covers a → m' a = m a
  ok : r.Ok m'

/-- The regions share no address. -/
def Apart (r r' : Region α) : Prop := ByteMem.Apart r.base r.size r'.base r'.size

variable {r r' : Region α} {m m' : ℕ → α}

theorem Apart.not_covers (h : r.Apart r') {i : ℕ} (hi : i < r.size) : ¬ r'.Covers (r.base + i) :=
  fun hc => h (r.base + i) ⟨⟨Nat.le_add_right .., Nat.add_lt_add_left hi _⟩, hc⟩

/-- What is in a region stays when another one is written. -/
theorem Writes.keeps (hw : r'.Writes m m') (h : r.Apart r') (hok : r.Ok m) : r.Ok m' :=
  r.congr m m' (fun _ hi => (hw.frame _ (h.not_covers hi)).symm) hok

/-- What is written may be described in another way. -/
theorem Writes.of_ok (hw : r'.Writes m m') (hcovers : ∀ a, r'.Covers a → r.Covers a)
    (hok : r.Ok m') : r.Writes m m' :=
  ⟨fun a ha => hw.frame a fun hc => ha (hcovers a hc), hok⟩

/-- A copy is a writer of its destination, which then holds what the source held. -/
theorem writes_copyCells {d s n : ℕ} (m : ℕ → α) (h : ByteMem.Apart d n s n) :
    (holding d n fun i => m (s + i)).Writes m
      (copyCells (fun i => d + i) (fun i => s + i) n m) where
  frame a ha := by
    refine copyCells_frame m fun i hi heq => ha ?_
    subst heq
    exact ⟨Nat.le_add_right .., Nat.add_lt_add_left hi d⟩
  ok i hi := by
    refine copyCells_value m hi (fun j hij _ heq => ?_) fun j hj heq => ?_
    · exact hij.ne (Nat.add_left_cancel heq).symm
    · refine h (s + i) ⟨?_, Nat.le_add_right .., Nat.add_lt_add_left hi s⟩
      rw [← heq]
      exact ⟨Nat.le_add_right .., Nat.add_lt_add_left (hj.trans hi) d⟩

end Region

/-- The regions are written one after the other, the first one first. -/
inductive Filled : List (Region α) → (ℕ → α) → (ℕ → α) → Prop where
  | nil (m : ℕ → α) : Filled [] m m
  | cons {r : Region α} {rs : List (Region α)} {m m₁ m₂ : ℕ → α} :
      r.Writes m m₁ → Filled rs m₁ m₂ → Filled (r :: rs) m m₂

variable {rs : List (Region α)} {m m' : ℕ → α}

theorem Filled.append {rs' : List (Region α)} {m₁ : ℕ → α} (h : Filled rs m m₁)
    (h' : Filled rs' m₁ m') : Filled (rs ++ rs') m m' := by
  induction h with
  | nil m => exact h'
  | cons hw _ ih => exact .cons hw (ih h')

/-- What is apart from all regions stays. -/
theorem Filled.keeps (h : Filled rs m m') {r : Region α} (hapart : ∀ r' ∈ rs, r.Apart r')
    (hok : r.Ok m) : r.Ok m' := by
  induction h with
  | nil m => exact hok
  | cons hw _ ih =>
    exact ih (fun r' hr' => hapart r' (List.mem_cons_of_mem _ hr'))
      (hw.keeps (hapart _ List.mem_cons_self) hok)

/-- **Regions that are pairwise apart** all hold what was written there. -/
theorem Filled.ok (h : Filled rs m m') (hapart : rs.Pairwise Region.Apart) : ∀ r ∈ rs, r.Ok m' := by
  induction h with
  | nil m => exact fun r hr => absurd hr List.not_mem_nil
  | cons hw hrest ih =>
    obtain ⟨hhead, htail⟩ := List.pairwise_cons.mp hapart
    intro r hr
    rcases List.mem_cons.mp hr with rfl | hr
    · exact hrest.keeps hhead hw.ok
    · exact ih htail r hr

end Regions
