import Mathlib.Data.List.Basic
import Mathlib.Logic.Function.Basic

/-!
# Strings in a memory, and their pieces

A string lies in a memory with a terminator behind it. It is cut in place by putting terminators
on its separators. A separator takes the blanks behind it along, so a piece is empty where two
separators meet.
-/

namespace MemString

variable {α : Type*} {z : α} {m m' : ℕ → α} {a : ℕ} {l l' w r : List α}

/-- The string that lies at an address, with the terminator `z` behind it. -/
def StringAt (z : α) (m : ℕ → α) : ℕ → List α → Prop
  | a, [] => m a = z
  | a, c :: l => m a = c ∧ c ≠ z ∧ StringAt z m (a + 1) l

theorem StringAt.congr (h : StringAt z m a l) (heq : ∀ i, a ≤ i → i ≤ a + l.length → m' i = m i) :
    StringAt z m' a l := by
  induction l generalizing a with
  | nil => exact (heq a (Nat.le_refl a) (Nat.le_refl a)).trans h
  | cons c l ih =>
    obtain ⟨hc, hne, htail⟩ := h
    rw [List.length_cons] at heq
    refine ⟨(heq a (Nat.le_refl a) (by omega)).trans hc, hne, ih htail fun i hi hle => ?_⟩
    exact heq i (by omega) (by omega)

/-- One address holds one string. -/
theorem StringAt.unique (h : StringAt z m a l) (h' : StringAt z m a l') : l = l' := by
  induction l generalizing a l' with
  | nil =>
    cases l' with
    | nil => rfl
    | cons c l' => exact absurd (h'.1.symm.trans h) h'.2.1
  | cons c l ih =>
    cases l' with
    | nil => exact absurd (h.1.symm.trans h') h.2.1
    | cons d l' => rw [h.1.symm.trans h'.1, ih h.2.2 h'.2.2]

/-- A string with its places, and what is behind them the terminator. -/
theorem stringAt_of_getD (hz : z ∉ l) (h : ∀ i, i ≤ l.length → m (a + i) = l.getD i z) :
    StringAt z m a l := by
  induction l generalizing a with
  | nil => exact h 0 (Nat.le_refl 0)
  | cons c l ih =>
    refine ⟨h 0 (Nat.zero_le _), fun hc => hz (hc ▸ List.mem_cons_self),
      ih (fun hmem => hz (List.mem_cons_of_mem _ hmem)) fun i hi => ?_⟩
    rw [Nat.add_assoc, Nat.add_comm 1, h (i + 1) (Nat.succ_le_succ hi), List.getD_cons_succ]

theorem StringAt.terminator (h : StringAt z m a l) : m (a + l.length) = z := by
  induction l generalizing a with
  | nil => exact h
  | cons c l ih =>
    have := ih h.2.2
    rwa [Nat.add_assoc, Nat.add_comm 1] at this

/-- The rest of a string lies behind its beginning. -/
theorem StringAt.suffix (h : StringAt z m a (w ++ r)) : StringAt z m (a + w.length) r := by
  induction w generalizing a with
  | nil => exact h
  | cons c w ih =>
    have := ih h.2.2
    rwa [Nat.add_assoc, Nat.add_comm 1] at this

/-- A string is cut by a terminator behind its beginning. -/
theorem StringAt.cut (h : StringAt z m a (w ++ r)) :
    StringAt z (Function.update m (a + w.length) z) a w := by
  induction w generalizing a with
  | nil => exact Function.update_self ..
  | cons c w ih =>
    have htail := ih h.2.2
    rw [Nat.add_assoc, Nat.add_comm 1] at htail
    refine ⟨?_, h.2.1, htail⟩
    rw [List.length_cons, Function.update_of_ne (by omega)]
    exact h.1

/-! ## The pieces of a string

The pieces are an inductive predicate on the list of characters. Every list has exactly one list of
pieces, so that a splitting function is compared with it. -/

section

variable (blank : α) (Sep : α → Prop)

/-- The pieces between separators. A separator takes the blanks behind it along, and behind the
last one there is no piece if nothing is left. -/
inductive Pieces : List α → List (List α) → Prop
  | nil : Pieces [] []
  | last {w : List α} : w ≠ [] → (∀ c ∈ w, ¬ Sep c) → Pieces w [w]
  | more {w gap rest : List α} {c : α} {ps : List (List α)} : (∀ d ∈ w, ¬ Sep d) → Sep c →
      (∀ d ∈ gap, d = blank) → rest.head? ≠ some blank → Pieces rest ps →
      Pieces (w ++ c :: (gap ++ rest)) (w :: ps)

variable {blank Sep} {ps ps' : List (List α)}

/-- Every piece but an empty one at the end uses up a character. -/
theorem Pieces.length_le (h : Pieces blank Sep l ps) : ps.length ≤ l.length := by
  induction h with
  | nil => exact Nat.le_refl 0
  | last hne _ => exact List.length_pos_iff.mpr hne
  | more _ _ _ _ _ ih =>
    simp only [List.length_cons, List.length_append]
    omega

/-- The characters before the first one with a property, and the rest. -/
theorem exists_split (P : α → Prop) [DecidablePred P] (l : List α) :
    ∃ w r, l = w ++ r ∧ (∀ c ∈ w, ¬ P c) ∧ ∀ c ∈ r.head?, P c := by
  induction l with
  | nil => exact ⟨[], [], rfl, fun _ hc => absurd hc List.not_mem_nil, fun _ hc => by simp at hc⟩
  | cons c l ih =>
    by_cases hc : P c
    · refine ⟨[], c :: l, rfl, fun _ hd => absurd hd List.not_mem_nil, fun d hd => ?_⟩
      rw [List.head?_cons, Option.mem_some_iff] at hd
      exact hd ▸ hc
    · obtain ⟨w, r, rfl, hw, hr⟩ := ih
      refine ⟨c :: w, r, rfl, fun d hd => ?_, hr⟩
      obtain rfl | hd := List.mem_cons.mp hd
      · exact hc
      · exact hw d hd

/-- What is split off at the first character with a property is determined. -/
theorem split_unique {P : α → Prop} {w w' r r' : List α} (hw : ∀ c ∈ w, ¬ P c)
    (hr : ∀ c ∈ r.head?, P c) (hw' : ∀ c ∈ w', ¬ P c) (hr' : ∀ c ∈ r'.head?, P c)
    (h : w ++ r = w' ++ r') : w = w' ∧ r = r' := by
  induction w generalizing w' with
  | nil =>
    cases w' with
    | nil => exact ⟨rfl, h⟩
    | cons d w' =>
      rw [List.nil_append] at h
      rw [h] at hr
      exact absurd (hr d rfl) (hw' d List.mem_cons_self)
  | cons c w ih =>
    cases w' with
    | nil =>
      rw [List.nil_append] at h
      rw [← h] at hr'
      exact absurd (hr' c rfl) (hw c List.mem_cons_self)
    | cons d w' =>
      rw [List.cons_append, List.cons_append, List.cons.injEq] at h
      obtain ⟨rfl, rfl⟩ := ih (fun x hx => hw x (List.mem_cons_of_mem _ hx))
        (fun x hx => hw' x (List.mem_cons_of_mem _ hx)) h.2
      exact ⟨by rw [h.1], rfl⟩

theorem exists_pieces [DecidablePred Sep] [DecidableEq α] (h : l.head? ≠ some blank) :
    ∃ ps, Pieces blank Sep l ps := by
  induction hn : l.length using Nat.strongRecOn generalizing l with
  | _ n ih =>
    obtain ⟨w, r, rfl, hw, hr⟩ := exists_split Sep l
    cases r with
    | nil =>
      rw [List.append_nil]
      cases w with
      | nil => exact ⟨[], .nil⟩
      | cons c w => exact ⟨_, .last (List.cons_ne_nil c w) hw⟩
    | cons c r =>
      obtain ⟨gap, rest, rfl, hgap, hrest⟩ := exists_split (· ≠ blank) r
      rw [List.length_append, List.length_cons, List.length_append] at hn
      have hhead : rest.head? ≠ some blank := fun heq => hrest blank heq rfl
      obtain ⟨ps, hps⟩ := ih rest.length (by omega) hhead rfl
      exact ⟨_, .more hw (hr c rfl) (fun d hd => not_not.mp (hgap d hd)) hhead hps⟩

theorem head?_cons {P : α → Prop} {c : α} (hc : P c) (l : List α) : ∀ d ∈ (c :: l).head?, P d := by
  intro d hd
  rw [List.head?_cons, Option.mem_some_iff] at hd
  exact hd ▸ hc

/-- A string has one list of pieces. -/
theorem Pieces.unique (h : Pieces blank Sep l ps) (h' : Pieces blank Sep l' ps') (hl : l = l') :
    ps = ps' := by
  have hend : ∀ c ∈ ([] : List α).head?, Sep c := fun c hc => by simp at hc
  induction h generalizing l' ps' with
  | nil =>
    cases h' with
    | nil => rfl
    | last hne => exact absurd hl.symm hne
    | more => simp at hl
  | @last w hne hw =>
    cases h' with
    | nil => exact absurd hl hne
    | last => rw [hl]
    | @more w' _ _ c _ hw' hc =>
      rw [← List.append_nil w] at hl
      obtain ⟨-, hnil⟩ := split_unique hw hend hw' (head?_cons hc _) hl
      simp at hnil
  | @more w gap rest c _ hw hc hgap hhead _ ih =>
    have hsep := head?_cons hc (gap ++ rest)
    cases h' with
    | nil => simp at hl
    | @last w' _ hw' =>
      rw [← List.append_nil l'] at hl
      obtain ⟨-, hnil⟩ := split_unique hw hsep hw' hend hl
      simp at hnil
    | @more w' gap' rest' c' _ hw' hc' hgap' hhead' hps' =>
      obtain ⟨rfl, hcons⟩ := split_unique hw hsep hw' (head?_cons hc' _) hl
      obtain ⟨-, hrest⟩ := split_unique (P := (· ≠ blank))
        (fun d hd => not_not.mpr (hgap d hd)) (fun d hd heq => hhead (heq ▸ hd))
        (fun d hd => not_not.mpr (hgap' d hd)) (fun d hd heq => hhead' (heq ▸ hd))
        (List.cons.inj hcons).2
      rw [ih hps' hrest]

end

end MemString
