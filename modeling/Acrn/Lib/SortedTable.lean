import Mathlib.Data.List.Basic
import Mathlib.Order.Basic
import Mathlib.Order.Lattice

/-!
# Search in a sorted table

A table is a list that is sorted by a key, where several entries may have the same key. The
search goes over the entries in order and ends behind the key; it may begin at any entry before
which all keys are smaller.
-/

namespace SortedTable

variable {α κ : Type*} [LinearOrder κ] (key : α → κ) (accept : α → Bool) (k : κ)

/-- The search. -/
def scan : List α → Option α
  | [] => none
  | e :: es =>
    if key e < k then scan es
    else if key e = k then if accept e then some e else scan es
    else none

/-- The search that goes over all entries. -/
def linearScan (es : List α) : Option α :=
  es.find? fun e => decide (key e = k) && accept e

variable {key accept k} {es pre : List α}

theorem linearScan_eq_none_iff :
    linearScan key accept k es = none ↔ ∀ e ∈ es, key e = k → accept e = false := by
  rw [linearScan, List.find?_eq_none]
  constructor
  · intro h e he hkey
    simpa [hkey] using h e he
  · intro h e he
    by_cases hkey : key e = k
    · simp [h e he hkey]
    · simp [hkey]

theorem linearScan_some {e : α} (h : linearScan key accept k es = some e) :
    e ∈ es ∧ key e = k ∧ accept e = true := by
  have hfound := List.find?_some h
  rw [Bool.and_eq_true, decide_eq_true_iff] at hfound
  exact ⟨List.mem_of_find?_eq_some h, hfound⟩

/-- Entries with other keys are passed over. -/
theorem linearScan_append_of_ne (h : ∀ e ∈ pre, key e ≠ k) :
    linearScan key accept k (pre ++ es) = linearScan key accept k es := by
  have hpre : linearScan key accept k pre = none :=
    linearScan_eq_none_iff.mpr fun e he hkey => absurd hkey (h e he)
  rw [linearScan] at hpre
  rw [linearScan, List.find?_append, hpre]
  rfl

/-- **The search stops in time**: behind the first larger key there is no entry with the key. -/
theorem scan_eq_linearScan (h : es.Pairwise fun a b => key a ≤ key b) :
    scan key accept k es = linearScan key accept k es := by
  induction es with
  | nil => rfl
  | cons e es ih =>
    obtain ⟨hle, hes⟩ := List.pairwise_cons.mp h
    rw [scan]
    by_cases hlt : key e < k
    · rw [if_pos hlt, ih hes, ← List.singleton_append]
      refine (linearScan_append_of_ne fun e' he' => ?_).symm
      rw [List.mem_singleton.mp he']
      exact hlt.ne
    rw [if_neg hlt]
    by_cases heq : key e = k
    · rw [if_pos heq, ih hes, linearScan, linearScan, List.find?_cons]
      cases haccept : accept e with
      | true => simp [heq]
      | false => simp
    · rw [if_neg heq, eq_comm, linearScan_eq_none_iff]
      intro e' he' hkey
      have hgt : k < key e := lt_of_le_of_ne (not_lt.mp hlt) (Ne.symm heq)
      obtain rfl | he' := List.mem_cons.mp he'
      · exact absurd hkey heq
      · exact absurd hkey (hgt.trans_le (hle e' he')).ne'

/-- **The search may begin in the middle**, at an entry with a smaller key. -/
theorem scan_drop (h : es.Pairwise fun a b => key a ≤ key b) {i : ℕ} (hi : i < es.length)
    (hkey : key es[i] < k) : scan key accept k (es.drop i) = linearScan key accept k es := by
  rw [scan_eq_linearScan (h.sublist (List.drop_sublist i es))]
  conv_rhs => rw [← List.take_append_drop i es]
  refine (linearScan_append_of_ne fun e he => ?_).symm
  obtain ⟨j, hj, rfl⟩ := List.getElem_of_mem he
  rw [List.getElem_take]
  rw [List.length_take] at hj
  exact ((List.pairwise_iff_getElem.mp h j i (by omega) hi (by omega)).trans_lt hkey).ne

end SortedTable
