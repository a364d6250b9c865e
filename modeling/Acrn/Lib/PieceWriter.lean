import Mathlib.Data.List.Basic
import Mathlib.Logic.Function.Basic
import Mathlib.Logic.Nontrivial.Basic

/-!
# Text that is written piece by piece

A writer appends pieces of text and counts their characters. Of each piece it stores some of the
first characters only; how many depends on the piece and on the count before it. What it leaves
in memory is the beginning of the whole text if and only if each piece, at the place where it
begins, is stored as far as it must be and no further than it may be.
-/

namespace PieceWriter

variable {α P : Type*}

/-- The characters of `l` stored from `off` on. -/
def storeAt (off : ℕ) (l : List α) (m : ℕ → α) : ℕ → α := fun i =>
  if off ≤ i then (l[i - off]?).getD (m i) else m i

theorem storeAt_of_lt {off i : ℕ} {l : List α} {m : ℕ → α} (hi : off ≤ i)
    (hlt : i - off < l.length) : storeAt off l m i = l[i - off] := by
  rw [storeAt, if_pos hi, List.getElem?_eq_getElem hlt, Option.getD_some]

theorem storeAt_frame {off i : ℕ} {l : List α} {m : ℕ → α} (h : i < off ∨ off + l.length ≤ i) :
    storeAt off l m i = m i := by
  rw [storeAt]
  split
  · rename_i hi
    rw [List.getElem?_eq_none (by omega), Option.getD_none]
  · rfl

@[simp] theorem storeAt_nil (off : ℕ) (m : ℕ → α) : storeAt off [] m = m :=
  funext fun _ => storeAt_frame ((Nat.lt_or_ge _ off).imp_right fun h => h)

/-- The first character stored by itself. -/
theorem storeAt_cons (off : ℕ) (c : α) (l : List α) (m : ℕ → α) :
    storeAt off (c :: l) m = storeAt (off + 1) l (Function.update m off c) := by
  funext i
  rcases Nat.lt_trichotomy i off with hlt | rfl | hgt
  · rw [storeAt_frame (Or.inl hlt), storeAt_frame (Or.inl (by omega)),
      Function.update_of_ne (Nat.ne_of_lt hlt)]
  · rw [storeAt_frame (l := l) (Or.inl (Nat.lt_succ_self i)), Function.update_self, storeAt,
      if_pos (Nat.le_refl i), Nat.sub_self, List.getElem?_cons_zero, Option.getD_some]
  · rw [storeAt, storeAt, if_pos (by omega), if_pos (by omega),
      Function.update_of_ne (Nat.ne_of_gt hgt), show i - off = i - (off + 1) + 1 by omega,
      List.getElem?_cons_succ]

variable (text : P → List α) (kept : ℕ → P → ℕ)

/-- The whole text of a list of pieces. -/
def render (ps : List P) : List α := ps.flatMap text

/-- The number of characters stored of a piece that begins at `off`. -/
def storedLen (off : ℕ) (p : P) : ℕ := min (kept off p) (text p).length

/-- The memory after the pieces, the first of which begins at `off`. -/
def store : List P → ℕ → (ℕ → α) → ℕ → α
  | [], _, m => m
  | p :: ps, off, m =>
    store ps (off + (text p).length) (storeAt off ((text p).take (kept off p)) m)

/-- Every piece has the property at the place where it begins. -/
def AtPlace (R : ℕ → P → Prop) : List P → ℕ → Prop
  | [], _ => True
  | p :: ps, off => R off p ∧ AtPlace R ps (off + (text p).length)

/-- The place `i` is one that the pieces are stored at. -/
def Stored : List P → ℕ → ℕ → Prop
  | [], _, _ => False
  | p :: ps, off, i =>
    off ≤ i ∧ i < off + storedLen text kept off p ∨ Stored ps (off + (text p).length) i

/-- Of a piece that begins at `off`, what lies below `a` is stored and nothing from `b` on. -/
def Fits (a b off : ℕ) (p : P) : Prop :=
  min a (off + (text p).length) ≤ off + storedLen text kept off p ∧
    (storedLen text kept off p = 0 ∨ off + storedLen text kept off p ≤ b)

theorem storedLen_le (off : ℕ) (p : P) : storedLen text kept off p ≤ (text p).length :=
  Nat.min_le_right _ _

theorem length_take_kept (off : ℕ) (p : P) :
    ((text p).take (kept off p)).length = storedLen text kept off p := List.length_take

variable {text kept}

@[simp] theorem render_nil : render text [] = [] := rfl

@[simp] theorem render_cons (p : P) (ps : List P) :
    render text (p :: ps) = text p ++ render text ps := List.flatMap_cons

/-! ## What each place holds afterwards -/

/-- A place that is stored at lies inside the text. -/
theorem Stored.range {ps : List P} {off i : ℕ} (h : Stored text kept ps off i) :
    off ≤ i ∧ i < off + (render text ps).length := by
  induction ps generalizing off with
  | nil => exact h.elim
  | cons p ps ih =>
    rw [render_cons, List.length_append]
    have hle := storedLen_le text kept off p
    obtain ⟨hlo, hhi⟩ | htail := h
    · omega
    · have := ih htail
      omega

/-- The piece that a stored place belongs to. -/
theorem Stored.piece {ps : List P} {off i : ℕ} (h : Stored text kept ps off i) :
    ∃ pre, ∃ p ∈ ps, pre ≤ i ∧ i < pre + storedLen text kept pre p := by
  induction ps generalizing off with
  | nil => exact h.elim
  | cons p ps ih =>
    obtain hhead | htail := h
    · exact ⟨off, p, List.mem_cons_self, hhead⟩
    · obtain ⟨pre, q, hq, hrange⟩ := ih htail
      exact ⟨pre, q, List.mem_cons_of_mem _ hq, hrange⟩

/-- A place that is not stored at keeps its content. -/
theorem store_of_not_stored {ps : List P} {off i : ℕ} {m : ℕ → α}
    (h : ¬ Stored text kept ps off i) : store text kept ps off m i = m i := by
  induction ps generalizing off m with
  | nil => rfl
  | cons p ps ih =>
    obtain ⟨hhead, htail⟩ := not_or.mp h
    rw [store, ih htail]
    refine storeAt_frame ?_
    rw [length_take_kept]
    omega

/-- A place that is stored at holds its character of the whole text, whatever was there. -/
theorem store_of_stored {ps : List P} {off i : ℕ} {m : ℕ → α} (h : Stored text kept ps off i) :
    some (store text kept ps off m i) = (render text ps)[i - off]? := by
  induction ps generalizing off m with
  | nil => exact h.elim
  | cons p ps ih =>
    have hle := storedLen_le text kept off p
    rw [store, render_cons]
    by_cases htail : Stored text kept ps (off + (text p).length) i
    · have hrange := htail.range
      rw [ih htail, List.getElem?_append_right (by omega), Nat.sub_sub]
    · obtain ⟨hlo, hhi⟩ := h.resolve_right htail
      have hlen := length_take_kept text kept off p
      rw [store_of_not_stored htail, storeAt_of_lt hlo (by omega),
        List.getElem?_append_left (by omega), List.getElem_take]
      exact (List.getElem?_eq_getElem _).symm

/-! ## When the text arrives

Each piece is judged at the place where it begins. Both directions are proved, so that a writer
fails wherever a piece does not fit. -/

theorem AtPlace.imp {R S : ℕ → P → Prop} {ps : List P} {off : ℕ} (h : AtPlace text R ps off)
    (himp : ∀ pre, ∀ p ∈ ps, pre + (text p).length ≤ off + (render text ps).length →
      R pre p → S pre p) : AtPlace text S ps off := by
  induction ps generalizing off with
  | nil => trivial
  | cons p ps ih =>
    rw [render_cons, List.length_append] at himp
    refine ⟨himp off p List.mem_cons_self (by omega) h.1, ih h.2 fun pre q hq hle hR => ?_⟩
    exact himp pre q (List.mem_cons_of_mem _ hq) (by omega) hR

theorem atPlace_congr {R S : ℕ → P → Prop} {ps : List P} {off : ℕ}
    (h : ∀ pre, ∀ p ∈ ps, pre + (text p).length ≤ off + (render text ps).length →
      (R pre p ↔ S pre p)) : AtPlace text R ps off ↔ AtPlace text S ps off :=
  ⟨fun hR => hR.imp fun pre p hp hle => (h pre p hp hle).mp,
    fun hS => hS.imp fun pre p hp hle => (h pre p hp hle).mpr⟩

theorem atPlace_of_forall {R : ℕ → P → Prop} {ps : List P} {off : ℕ}
    (h : ∀ pre, ∀ p ∈ ps, pre + (text p).length ≤ off + (render text ps).length → R pre p) :
    AtPlace text R ps off := by
  have htrue : AtPlace text (fun _ _ => True) ps off := by
    clear h
    induction ps generalizing off with
    | nil => trivial
    | cons p ps ih => exact ⟨trivial, ih⟩
  exact htrue.imp fun pre p hp hle _ => h pre p hp hle

/-- Everything below `a` is stored at and nothing from `b` on, if and only if every piece fits. -/
theorem stored_iff_fits {ps : List P} {off a b : ℕ} :
    ((∀ i, off ≤ i → i < min a (off + (render text ps).length) → Stored text kept ps off i) ∧
      ∀ i, Stored text kept ps off i → i < b) ↔ AtPlace text (Fits text kept a b) ps off := by
  induction ps generalizing off with
  | nil =>
    refine ⟨fun _ => trivial, fun _ => ⟨fun i hi hlt => ?_, fun i h => h.elim⟩⟩
    rw [render_nil, List.length_nil] at hlt
    omega
  | cons p ps ih =>
    have hle := storedLen_le text kept off p
    rw [render_cons, List.length_append, AtPlace, ← ih, Fits]
    constructor
    · rintro ⟨hall, hbound⟩
      refine ⟨⟨?_, ?_⟩, fun i hi hlt => ?_, fun i h => hbound i (Or.inr h)⟩
      · -- the first place of the piece that is not stored at would belong to a later piece
        by_contra hlt
        obtain ⟨_, hhi⟩ | htail := hall (off + storedLen text kept off p) (by omega) (by omega)
        · omega
        · have := htail.range
          omega
      · by_contra hne
        obtain ⟨hpos, hlt⟩ := not_or.mp hne
        have := hbound (off + storedLen text kept off p - 1) (Or.inl ⟨by omega, by omega⟩)
        omega
      · obtain ⟨_, hhi⟩ | htail := hall i (by omega) (by omega)
        · omega
        · exact htail
    · rintro ⟨⟨hfill, hroom⟩, hall, hbound⟩
      refine ⟨fun i hi hlt => ?_, fun i h => ?_⟩
      · rcases Nat.lt_or_ge i (off + (text p).length) with hin | hout
        · exact Or.inl ⟨hi, by omega⟩
        · exact Or.inr (hall i hout (by omega))
      · obtain ⟨hlo, hhi⟩ | htail := h
        · omega
        · exact hbound i htail

/-- **The beginning of the text arrives, and nothing is written from `b` on, if and only if every
piece fits where it begins.** What the memory held before is arbitrary. -/
theorem store_iff [Nontrivial α] {ps : List P} {a b : ℕ} :
    (∀ m : ℕ → α,
      (∀ i, i < min a (render text ps).length →
        some (store text kept ps 0 m i) = (render text ps)[i]?) ∧
      ∀ i, b ≤ i → store text kept ps 0 m i = m i) ↔ AtPlace text (Fits text kept a b) ps 0 := by
  rw [← stored_iff_fits]
  simp only [Nat.zero_add, Nat.zero_le, true_implies]
  constructor
  · refine fun h => ⟨fun i hi => ?_, fun i hstored => ?_⟩
    · by_contra hno
      -- a place that is not stored at shows its old content, which may be any
      have hlt : i < (render text ps).length := Nat.lt_of_lt_of_le hi (Nat.min_le_right _ _)
      obtain ⟨c, hc⟩ := exists_ne (render text ps)[i]
      have hold := (h fun _ => c).1 i hi
      rw [store_of_not_stored hno, List.getElem?_eq_getElem hlt, Option.some_inj] at hold
      exact hc hold
    · by_contra hge
      obtain ⟨hlo, hlt⟩ := hstored.range
      rw [Nat.zero_add] at hlt
      obtain ⟨c, hc⟩ := exists_ne (render text ps)[i]
      have hnew := store_of_stored (m := fun _ => c) hstored
      rw [(h fun _ => c).2 i (Nat.le_of_not_lt hge), Nat.sub_zero, List.getElem?_eq_getElem hlt,
        Option.some_inj] at hnew
      exact hc hnew
  · rintro ⟨hall, hbound⟩ m
    refine ⟨fun i hi => ?_, fun i hi => ?_⟩
    · rw [store_of_stored (hall i hi), Nat.sub_zero]
    · exact store_of_not_stored fun h => absurd (hbound i h) (Nat.not_lt.mpr hi)

end PieceWriter
