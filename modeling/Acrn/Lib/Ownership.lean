import Mathlib.Data.Set.Basic
import Mathlib.Logic.Function.Basic

/-!
# Claims on parts of a space

Owners claim parts of a common space, and a point belongs to whoever claimed it
last. An owner that claims a new part first gives up its old one, point by point,
even where somebody else owns the point by now. So a point always lies in the
part of its owner, but an owner may have lost points of its part; it keeps them as
long as nobody else's part comes near.
-/

namespace Ownership

variable {ι α : Type*}

/-- The part each owner claims, and the owner of each point. -/
structure Claims (ι α : Type*) where
  part : ι → Set α
  owner : α → Option ι

namespace Claims

/-- Nothing is claimed. -/
def empty : Claims ι α := ⟨fun _ => ∅, fun _ => none⟩

/-- `i` gives up its part and claims `W`. -/
noncomputable def move [DecidableEq ι] (c : Claims ι α) (i : ι) (W : Set α) : Claims ι α where
  part := Function.update c.part i W
  owner x :=
    open Classical in if x ∈ W then some i else if x ∈ c.part i then none else c.owner x

/-- Every point lies in the part of its owner. -/
def Sound (c : Claims ι α) : Prop := ∀ x i, c.owner x = some i → x ∈ c.part i

variable {c : Claims ι α} {i j : ι} {W : Set α} {x : α}

theorem sound_empty : (empty : Claims ι α).Sound := fun _ _ h => nomatch h

variable [DecidableEq ι]

@[simp] theorem part_move_self : (c.move i W).part i = W := by
  simp only [move, Function.update_self]

theorem part_move_of_ne (h : j ≠ i) : (c.move i W).part j = c.part j := by
  simp only [move, Function.update_of_ne h]

theorem owner_move_of_mem (h : x ∈ W) : (c.move i W).owner x = some i := if_pos h

theorem owner_move_of_old (h : x ∉ W) (h' : x ∈ c.part i) : (c.move i W).owner x = none := by
  simp only [move, if_neg h, if_pos h']

/-- A claim does not concern the points outside the old and the new part. -/
theorem owner_move_of_not_mem (h : x ∉ W) (h' : x ∉ c.part i) :
    (c.move i W).owner x = c.owner x := by
  simp only [move, if_neg h, if_neg h']

theorem Sound.move (h : c.Sound) (i : ι) (W : Set α) : (c.move i W).Sound := by
  intro x j hj
  by_cases hW : x ∈ W
  · obtain rfl : i = j := by
      rw [owner_move_of_mem hW] at hj
      exact Option.some.inj hj
    rwa [part_move_self]
  · by_cases hold : x ∈ c.part i
    · rw [owner_move_of_old hW hold] at hj
      cases hj
    · rw [owner_move_of_not_mem hW hold] at hj
      have hne : j ≠ i := by
        rintro rfl
        exact hold (h x j hj)
      rw [part_move_of_ne hne]
      exact h x j hj

end Claims

end Ownership
