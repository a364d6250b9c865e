import Mathlib.Data.List.TakeWhile
import Acrn.Lib.Numeral

/-!
# Numbers at the front of a text

A number at the front of a text is written as white space, at most one marker and digits, and ends
where the text no longer goes on in this form. The longest prefix of this form is found in one scan
from the left.
-/

namespace Numeral

variable {γ : Type*}

/-- How numbers are written. -/
structure NumeralForm (γ : Type*) where
  base : ℕ
  space : γ → Bool
  digit : γ → Option ℕ
  /-- What may stand in front of the digits. -/
  markers : List (List γ)
  digit_lt : ∀ c d, digit c = some d → d < base
  space_digit : ∀ c, space c = true → digit c = none
  marker_starts : ∀ m ∈ markers, ∃ c ∈ m.head?, space c = false
  marker_no_digits : ∀ m ∈ markers, ∃ c ∈ m, digit c = none
  marker_alone : ∀ m ∈ markers, ∀ m' ∈ markers, m <+: m' → m = m'

namespace NumeralForm

variable (F : NumeralForm γ)

/-- **The text is white space, the marker, if there is one, and digits that stand for `n`.** -/
def HasForm (p m : List γ) (n : ℕ) : Prop :=
  ∃ ws text ds, (∀ c ∈ ws, F.space c = true) ∧ (m = [] ∨ m ∈ F.markers) ∧
    text.map F.digit = ds.map some ∧ p = ws ++ (m ++ text) ∧ valueOf F.base ds = n

/-- `p` is the longest prefix of the form. -/
def IsLongest (l p m : List γ) (n : ℕ) : Prop :=
  p <+: l ∧ F.HasForm p m n ∧
    ∀ p' m' n', p' <+: l → F.HasForm p' m' n' → p'.length ≤ p.length

/-! ## Digits -/

def isDigit (c : γ) : Bool := (F.digit c).isSome

/-- The digits at the front of a text. -/
def digitsAt (l : List γ) : List ℕ := (l.takeWhile F.isDigit).filterMap F.digit

variable {F} {l r p m : List γ} {n : ℕ}

theorem filterMap_map_of_isDigit (h : ∀ c ∈ l, F.isDigit c = true) :
    l.map F.digit = (l.filterMap F.digit).map some := by
  induction l with
  | nil => rfl
  | cons c l ih =>
    obtain ⟨d, hd⟩ := Option.isSome_iff_exists.mp (h c List.mem_cons_self)
    rw [List.map_cons, List.filterMap_cons_some hd, List.map_cons, hd,
      ih fun x hx => h x (List.mem_cons_of_mem _ hx)]

theorem filterMap_of_map {ds : List ℕ} (h : l.map F.digit = ds.map some) :
    l.filterMap F.digit = ds := by
  induction l generalizing ds with
  | nil => exact (List.map_eq_nil_iff.mp h.symm).symm
  | cons c l ih =>
    obtain ⟨d, ds, rfl⟩ : ∃ d t, ds = d :: t := by
      cases ds with
      | nil => exact absurd h (by simp)
      | cons d t => exact ⟨d, t, rfl⟩
    rw [List.map_cons, List.map_cons, List.cons.injEq] at h
    rw [List.filterMap_cons_some h.1, ih h.2]

theorem isDigit_of_map {ds : List ℕ} (h : l.map F.digit = ds.map some) :
    ∀ c ∈ l, F.isDigit c = true := by
  intro c hc
  have hmem : F.digit c ∈ ds.map some := h ▸ List.mem_map_of_mem hc
  obtain ⟨d, -, hd⟩ := List.mem_map.mp hmem
  rw [isDigit, ← hd]
  rfl

@[simp] theorem digitsAt_nil : F.digitsAt [] = [] := rfl

theorem digitsAt_cons_none {c : γ} (h : F.digit c = none) : F.digitsAt (c :: l) = [] := by
  have hnot : ¬F.isDigit c = true := by
    rw [isDigit, h]
    simp
  rw [digitsAt, List.takeWhile_cons_of_neg hnot]
  rfl

theorem digitsAt_cons_some {c : γ} {d : ℕ} (h : F.digit c = some d) :
    F.digitsAt (c :: l) = d :: F.digitsAt l := by
  have his : F.isDigit c = true := by
    rw [isDigit, h]
    rfl
  rw [digitsAt, List.takeWhile_cons_of_pos his, List.filterMap_cons_some h]
  rfl

/-! ## The scan

The scan is a single pass: white space, a marker if there is one, and digits. Each of its parts is
a function of the text that is left. -/

variable [DecidableEq γ] (F)

/-- The marker at the front of a text. -/
def markerOf (l : List γ) : List γ := (F.markers.find? (·.isPrefixOf l)).getD []

/-- The text behind the white space. -/
def rest (l : List γ) : List γ := l.dropWhile F.space

/-- The marker that the scan finds. -/
def scanMarker (l : List γ) : List γ := F.markerOf (F.rest l)

/-- The digits that the scan finds, and what follows them. -/
def scanTail (l : List γ) : List γ := (F.rest l).drop (F.scanMarker l).length

/-- What the scan takes. -/
def scanned (l : List γ) : List γ :=
  l.takeWhile F.space ++ (F.scanMarker l ++ (F.scanTail l).takeWhile F.isDigit)

/-- The number that the scan finds. -/
def scanValue (l : List γ) : ℕ := valueOf F.base (F.digitsAt (F.scanTail l))

variable {F}

theorem markerOf_mem : F.markerOf l = [] ∨ F.markerOf l ∈ F.markers := by
  rw [markerOf]
  cases hfind : F.markers.find? (·.isPrefixOf l) with
  | none => exact .inl rfl
  | some m => exact .inr (List.mem_of_find?_eq_some hfind)

theorem markerOf_prefix : F.markerOf l <+: l := by
  rw [markerOf]
  cases hfind : F.markers.find? (·.isPrefixOf l) with
  | none => exact List.nil_prefix
  | some m =>
    have hpfx := List.find?_some (p := fun m => List.isPrefixOf m l) hfind
    exact List.isPrefixOf_iff_prefix.mp hpfx

theorem markerOf_of_not (h : ∀ m ∈ F.markers, ¬m <+: l) : F.markerOf l = [] := by
  obtain hnil | hmem := markerOf_mem (F := F) (l := l)
  · exact hnil
  · exact absurd markerOf_prefix (h _ hmem)

theorem markerOf_append (hm : m ∈ F.markers) : F.markerOf (m ++ r) = m := by
  rw [markerOf]
  cases hfind : F.markers.find? (·.isPrefixOf (m ++ r)) with
  | none =>
    have hnot := List.find?_eq_none.mp hfind m hm
    exact absurd (List.isPrefixOf_iff_prefix.mpr (List.prefix_append m r)) hnot
  | some m' =>
    have hm' := List.mem_of_find?_eq_some hfind
    have hpfx := List.find?_some (p := fun m' => List.isPrefixOf m' (m ++ r)) hfind
    obtain h | h := List.prefix_or_prefix_of_prefix (List.isPrefixOf_iff_prefix.mp hpfx)
      (List.prefix_append m r)
    · exact F.marker_alone m' hm' m hm h
    · exact (F.marker_alone m hm m' hm' h).symm

/-! ## The scan takes the longest prefix

What makes the scan subtle is a marker that begins with a digit: without digits behind it, the
digit counts, and not the marker. -/

theorem scanned_prefix (F : NumeralForm γ) (l : List γ) : F.scanned l <+: l := by
  have hrest : l.takeWhile F.space ++ F.rest l = l := List.takeWhile_append_dropWhile
  have hmarker : F.scanMarker l ++ F.scanTail l = F.rest l :=
    List.prefix_iff_eq_append.mp markerOf_prefix
  have htext := List.takeWhile_prefix F.isDigit (l := F.scanTail l)
  obtain ⟨t, ht⟩ := htext
  refine ⟨t, ?_⟩
  rw [scanned, List.append_assoc, List.append_assoc, ht, hmarker, hrest]

theorem hasForm_scanned (F : NumeralForm γ) (l : List γ) :
    F.HasForm (F.scanned l) (F.scanMarker l) (F.scanValue l) := by
  refine ⟨_, _, F.digitsAt (F.scanTail l), fun c hc => ?_, markerOf_mem, ?_, rfl, rfl⟩
  · exact List.mem_takeWhile_imp hc
  · exact filterMap_map_of_isDigit fun c hc => List.mem_takeWhile_imp hc

/-- Digits at the front of a text are no more than a part of the marker, or there is no marker. -/
theorem markerOf_digits {text : List γ} (h : ∀ c ∈ text, F.isDigit c = true) :
    F.markerOf (text ++ r) = [] ∨
      ∃ q, q ≠ [] ∧ F.markerOf (text ++ r) = text ++ q := by
  obtain hnil | hmem := markerOf_mem (F := F) (l := text ++ r)
  · exact .inl hnil
  · refine .inr ?_
    obtain ⟨c, hc, hnone⟩ := F.marker_no_digits _ hmem
    obtain hle | ⟨q, hq⟩ :=
      List.prefix_or_prefix_of_prefix markerOf_prefix (List.prefix_append text r)
    · have hdigit := h c (hle.subset hc)
      rw [isDigit, hnone] at hdigit
      exact absurd hdigit (by simp)
    · refine ⟨q, fun hqnil => ?_, hq.symm⟩
      rw [hqnil, List.append_nil] at hq
      have hdigit := h c (hq ▸ hc)
      rw [isDigit, hnone] at hdigit
      exact absurd hdigit (by simp)

/-- **A prefix of the form is a prefix of what the scan takes; when it is all of it, the scan finds
its marker and its number.** -/
theorem HasForm.scanned_append (h : F.HasForm p m n) (r : List γ) :
    ∃ q, F.scanned (p ++ r) = p ++ q ∧
      (q = [] → F.scanMarker (p ++ r) = m ∧ F.scanValue (p ++ r) = n) := by
  obtain ⟨ws, text, ds, hws, hm, hds, rfl, rfl⟩ := h
  have hdigits := isDigit_of_map hds
  have hnospace : ∀ c ∈ text, F.space c = false := by
    intro c hc
    cases hspace : F.space c with
    | false => rfl
    | true =>
      have hdigit := hdigits c hc
      rw [isDigit, F.space_digit c hspace] at hdigit
      exact absurd hdigit (by simp)
  have hsplit : ws ++ (m ++ text) ++ r = ws ++ (m ++ (text ++ r)) := by
    rw [List.append_assoc, List.append_assoc]
  rw [hsplit]
  obtain rfl | hmem := hm
  · rw [List.nil_append, List.nil_append]
    cases htext : text with
    | nil =>
      -- The prefix is white space only.
      have hdsnil : ds = [] := by
        rw [htext] at hds
        exact List.map_eq_nil_iff.mp hds.symm
      rw [List.nil_append, List.append_nil]
      refine ⟨r.takeWhile F.space ++ (F.scanMarker (ws ++ r) ++
        (F.scanTail (ws ++ r)).takeWhile F.isDigit), ?_, fun hq => ?_⟩
      · rw [scanned, List.takeWhile_append_of_pos hws, List.append_assoc]
      · have hq := List.append_eq_nil_iff.mp hq
        have hq' := List.append_eq_nil_iff.mp hq.2
        refine ⟨hq'.1, ?_⟩
        rw [scanValue, digitsAt, hq'.2, hdsnil]
        rfl
    | cons c text' =>
      rw [← htext]
      have hspaces : (ws ++ (text ++ r)).takeWhile F.space = ws := by
        rw [List.takeWhile_append_of_pos hws, htext, List.cons_append,
          List.takeWhile_cons_of_neg (by rw [hnospace c (htext ▸ List.mem_cons_self)]; simp),
          List.append_nil]
      have hrest : F.rest (ws ++ (text ++ r)) = text ++ r := by
        rw [rest, List.dropWhile_append_of_pos hws, htext, List.cons_append,
          List.dropWhile_cons_of_neg (by rw [hnospace c (htext ▸ List.mem_cons_self)]; simp)]
      obtain hnil | ⟨q, hq, hmarker⟩ := markerOf_digits (r := r) hdigits
      · have hmarker : F.scanMarker (ws ++ (text ++ r)) = [] := by rw [scanMarker, hrest, hnil]
        have htail : F.scanTail (ws ++ (text ++ r)) = text ++ r := by
          rw [scanTail, hmarker, hrest]
          rfl
        refine ⟨r.takeWhile F.isDigit, ?_, fun hq => ⟨hmarker, ?_⟩⟩
        · rw [scanned, hspaces, hmarker, htail, List.takeWhile_append_of_pos hdigits,
            List.nil_append, List.append_assoc]
        · rw [scanValue, htail, digitsAt, List.takeWhile_append_of_pos hdigits, hq, List.append_nil,
            filterMap_of_map hds]
      · -- The digits are the beginning of a marker.
        refine ⟨q ++ (F.scanTail (ws ++ (text ++ r))).takeWhile F.isDigit, ?_, fun hnil => ?_⟩
        · rw [scanned, hspaces, scanMarker, hrest, hmarker]
          simp only [List.append_assoc]
        · exact absurd (List.append_eq_nil_iff.mp hnil).1 hq
  · obtain ⟨c, hc, hcspace⟩ := F.marker_starts m hmem
    obtain ⟨m', rfl⟩ : ∃ t, m = c :: t := by
      cases m with
      | nil => exact absurd hc (by simp)
      | cons x t => exact ⟨t, by rw [Option.mem_some_iff.mp hc]⟩
    have hspaces : (ws ++ (c :: m' ++ (text ++ r))).takeWhile F.space = ws := by
      rw [List.takeWhile_append_of_pos hws, List.cons_append,
        List.takeWhile_cons_of_neg (by rw [hcspace]; simp), List.append_nil]
    have hrest : F.rest (ws ++ (c :: m' ++ (text ++ r))) = c :: m' ++ (text ++ r) := by
      rw [rest, List.dropWhile_append_of_pos hws, List.cons_append,
        List.dropWhile_cons_of_neg (by rw [hcspace]; simp)]
    have hmarker : F.scanMarker (ws ++ (c :: m' ++ (text ++ r))) = c :: m' := by
      rw [scanMarker, hrest, markerOf_append hmem]
    have htail : F.scanTail (ws ++ (c :: m' ++ (text ++ r))) = text ++ r := by
      rw [scanTail, hmarker, hrest, List.drop_left]
    refine ⟨r.takeWhile F.isDigit, ?_, fun hq => ⟨hmarker, ?_⟩⟩
    · rw [scanned, hspaces, hmarker, htail, List.takeWhile_append_of_pos hdigits]
      simp only [List.append_assoc]
    · rw [scanValue, htail, digitsAt, List.takeWhile_append_of_pos hdigits, hq, List.append_nil,
        filterMap_of_map hds]

/-- **The longest prefix of the form is what the scan takes.** -/
theorem isLongest_iff :
    F.IsLongest l p m n ↔ p = F.scanned l ∧ m = F.scanMarker l ∧ n = F.scanValue l := by
  constructor
  · rintro ⟨⟨r, rfl⟩, hform, hlongest⟩
    obtain ⟨q, hq, hall⟩ := hform.scanned_append r
    have hle := hlongest _ _ _ (F.scanned_prefix (p ++ r)) (F.hasForm_scanned (p ++ r))
    rw [hq, List.length_append] at hle
    have hnil : q = [] := List.eq_nil_of_length_eq_zero (by omega)
    obtain ⟨hmarker, hvalue⟩ := hall hnil
    rw [hq, hnil, List.append_nil]
    exact ⟨rfl, hmarker.symm, hvalue.symm⟩
  · rintro ⟨rfl, rfl, rfl⟩
    refine ⟨F.scanned_prefix l, F.hasForm_scanned l, ?_⟩
    rintro p' m' n' ⟨r, rfl⟩ hform
    obtain ⟨q, hq, -⟩ := hform.scanned_append r
    rw [hq, List.length_append]
    exact Nat.le_add_right _ _

end NumeralForm

end Numeral
