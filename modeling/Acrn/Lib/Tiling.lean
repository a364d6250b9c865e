import Mathlib.Data.List.Nodup
import Mathlib.Data.List.Forall2
import Mathlib.Tactic.Ring

/-!
# The blocks of a partial function, from left to right

A partial function on an interval may be constant on blocks of different sizes, with gaps where
it is not defined. A list tiles the interval when it has one entry for each block, in the order
of the blocks. Such lists are put together by concatenation, and everything about the order and
the entries of the whole follows from there.
-/

namespace Tiling

variable {α β : Type*} {f : ℕ → Option α} {block : ℕ → ℕ → α → Prop} {lo mid hi : ℕ}
  {xs ys : List α}

/-- `xs` lists the values of `f` on `[lo, hi)`: one entry for each block, from left to right.
`block a b x` says what the ends of a block with the value `x` may be. -/
inductive Tiles (f : ℕ → Option α) (block : ℕ → ℕ → α → Prop) : ℕ → ℕ → List α → Prop
  | nil (lo : ℕ) : Tiles f block lo lo []
  | gap {lo mid hi : ℕ} {xs : List α} : lo ≤ mid → (∀ v, lo ≤ v → v < mid → f v = none) →
      Tiles f block mid hi xs → Tiles f block lo hi xs
  | tile {lo mid hi : ℕ} {x : α} {xs : List α} : lo < mid → block lo mid x →
      (∀ v, lo ≤ v → v < mid → f v = some x) → Tiles f block mid hi xs →
      Tiles f block lo hi (x :: xs)

/-- The block `[v, w)` with the value `x` lies in `[lo, hi)`. -/
structure BlockAt (f : ℕ → Option α) (block : ℕ → ℕ → α → Prop) (lo hi v : ℕ) (x : α) : Prop where
  le : lo ≤ v
  exists_stop : ∃ w, v < w ∧ w ≤ hi ∧ block v w x ∧ ∀ u, v ≤ u → u < w → f u = some x

theorem BlockAt.mono_left {v : ℕ} {x : α} (h : BlockAt f block mid hi v x) (hle : lo ≤ mid) :
    BlockAt f block lo hi v x :=
  ⟨hle.trans h.le, h.exists_stop⟩

namespace Tiles

/-! ## Putting lists together -/

theorem le (h : Tiles f block lo hi xs) : lo ≤ hi := by
  induction h with
  | nil _ => exact le_rfl
  | gap hle _ _ ih => exact hle.trans ih
  | tile hlt _ _ _ ih => exact hlt.le.trans ih

theorem append (h : Tiles f block lo mid xs) (h' : Tiles f block mid hi ys) :
    Tiles f block lo hi (xs ++ ys) := by
  induction h with
  | nil _ => exact h'
  | gap hle hnone _ ih => exact .gap hle hnone (ih h')
  | tile hlt hblock hsome _ ih => exact .tile hlt hblock hsome (ih h')

theorem empty (hle : lo ≤ hi) (h : ∀ v, lo ≤ v → v < hi → f v = none) : Tiles f block lo hi [] :=
  .gap hle h (.nil hi)

theorem single {x : α} (hlt : lo < hi) (hblock : block lo hi x)
    (h : ∀ v, lo ≤ v → v < hi → f v = some x) : Tiles f block lo hi [x] :=
  .tile hlt hblock h (.nil hi)

/-- A loop over `n` parts of the same width. -/
theorem flatMap_range {part : ℕ → List α} {width : ℕ} (lo n : ℕ)
    (h : ∀ i < n, Tiles f block (lo + i * width) (lo + i * width + width) (part i)) :
    Tiles f block lo (lo + n * width) ((List.range n).flatMap part) := by
  induction n with
  | zero => simpa using Tiles.nil lo
  | succ n ih =>
    have hinit := ih fun i hi => h i (Nat.lt_succ_of_lt hi)
    have hend : lo + (n + 1) * width = lo + n * width + width := by ring
    rw [List.range_succ, List.flatMap_append, List.flatMap_singleton, hend]
    exact hinit.append (h n (Nat.lt_succ_self n))

/-! ## Entries and blocks

Everything about the list follows from the tiling: which entries it has, in which order, and how
often. -/

/-- The entries stand at increasing places, each at a block of its own. -/
theorem exists_starts (h : Tiles f block lo hi xs) :
    ∃ starts : List ℕ, starts.Pairwise (· < ·) ∧ List.Forall₂ (BlockAt f block lo hi) starts xs := by
  induction h with
  | nil _ => exact ⟨[], List.Pairwise.nil, .nil⟩
  | gap hle _ _ ih =>
    obtain ⟨starts, hsorted, hall⟩ := ih
    exact ⟨starts, hsorted, hall.imp fun _ _ hb => hb.mono_left hle⟩
  | @tile lo mid hi x xs hlt hblock hsome hrest ih =>
    obtain ⟨starts, hsorted, hall⟩ := ih
    refine ⟨lo :: starts, List.pairwise_cons.mpr ⟨fun v hv => ?_, hsorted⟩, .cons ?_ ?_⟩
    · obtain ⟨i, hi', rfl⟩ := List.mem_iff_getElem.mp hv
      exact hlt.trans_le (hall.get hi' (hall.length_eq ▸ hi')).le
    · exact ⟨le_rfl, mid, hlt, hrest.le, hblock, hsome⟩
    · exact hall.imp fun _ _ hb => hb.mono_left hlt.le

/-- The list has exactly the values of the function. -/
theorem mem_iff (h : Tiles f block lo hi xs) (x : α) :
    x ∈ xs ↔ ∃ v, lo ≤ v ∧ v < hi ∧ f v = some x := by
  induction h with
  | nil lo =>
    refine ⟨fun hx => absurd hx List.not_mem_nil, ?_⟩
    rintro ⟨v, hge, hlt, -⟩
    omega
  | @gap lo mid hi xs hle hnone _ ih =>
    rw [ih]
    constructor
    · rintro ⟨v, hge, hlt, hv⟩
      exact ⟨v, hle.trans hge, hlt, hv⟩
    · rintro ⟨v, hge, hlt, hv⟩
      refine ⟨v, ?_, hlt, hv⟩
      by_contra hmid
      rw [hnone v hge (Nat.lt_of_not_le hmid)] at hv
      cases hv
  | @tile lo mid hi y xs hltm _ hsome hrest ih =>
    rw [List.mem_cons, ih]
    constructor
    · rintro (rfl | ⟨v, hge, hlt, hv⟩)
      · exact ⟨lo, le_rfl, hltm.trans_le hrest.le, hsome lo le_rfl hltm⟩
      · exact ⟨v, hltm.le.trans hge, hlt, hv⟩
    · rintro ⟨v, hge, hlt, hv⟩
      rcases Nat.lt_or_ge v mid with hmid | hmid
      · rw [hsome v hge hmid] at hv
        exact .inl (Option.some.inj hv).symm
      · exact .inr ⟨v, hmid, hlt, hv⟩

/-- Wherever the function is defined there is a block around. -/
theorem exists_block (h : Tiles f block lo hi xs) {v : ℕ} {x : α} (hge : lo ≤ v) (hlt : v < hi)
    (hv : f v = some x) :
    ∃ a b, a ≤ v ∧ v < b ∧ b ≤ hi ∧ block a b x ∧ ∀ u, a ≤ u → u < b → f u = some x := by
  induction h with
  | nil lo => omega
  | @gap lo mid hi xs _ hnone _ ih =>
    refine ih ?_ hlt
    by_contra hmid
    rw [hnone v hge (Nat.lt_of_not_le hmid)] at hv
    cases hv
  | @tile lo mid hi y xs _ hblock hsome hrest ih =>
    rcases Nat.lt_or_ge v mid with hmid | hmid
    · obtain rfl : y = x := Option.some.inj ((hsome v hge hmid).symm.trans hv)
      exact ⟨lo, mid, hge, hmid, hrest.le, hblock, hsome⟩
    · exact ih hmid hlt

/-- Entries with a key that tells blocks apart are listed once. -/
theorem nodup_map (h : Tiles f block lo hi xs) {key : α → β}
    (hkey : ∀ a b v x y, a < b → b ≤ hi → v < hi → block a b x → f a = some x → f v = some y →
      key x = key y → v < b) :
    (xs.map key).Nodup := by
  induction h with
  | nil _ => exact List.nodup_nil
  | gap _ _ _ ih => exact ih hkey
  | @tile lo mid hi x xs hlt hblock hsome hrest ih =>
    rw [List.map_cons, List.nodup_cons]
    refine ⟨fun hmem => ?_, ih hkey⟩
    obtain ⟨y, hy, hxy⟩ := List.mem_map.mp hmem
    obtain ⟨v, hge, hvhi, hv⟩ := (hrest.mem_iff y).mp hy
    have := hkey lo mid v x y hlt hrest.le hvhi hblock (hsome lo le_rfl hlt) hv hxy.symm
    omega

end Tiles

end Tiling
