import Acrn.Lib.NumeralForm
import Acrn.PrintNumber

/-!
# Strings as numbers

`string.c` of the debug library: `strtol_deci` and `strtoul_hex`. What the pointer `s` and the
character `c` in front of it stand for is one list, the bytes from `c` on up to the NUL and with it;
a read from the empty list is a read behind the NUL. Next to its value a conversion gives the exact
results of the operations that it does.
-/

namespace Acrn

open Numeral

/-! ## The conversions -/

/-- The exact result of an operation, and the type that it is stored in. -/
inductive Computed where
  | char (n : ℤ)
  | uint64 (n : ℕ)

/-- The type does not hold the result. -/
def Computed.Wraps : Computed → Prop
  | char n => n < -128 ∨ 127 < n
  | uint64 n => 2 ^ 64 ≤ n

/-- What a conversion returns, and the operations that led to it. -/
structure Conversion where
  value : Word
  computed : List Computed

/-- Some result did not fit. -/
def Conversion.Wraps (c : Conversion) : Prop := ∃ x ∈ c.computed, x.Wraps

/-- `is_space`. -/
def isSpace (c : CChar) : Bool := c = ascii ' ' || c = ascii '\t'

/-- The loop over white space: the list from the first other character on. -/
def skipSpace : List CChar → Option (List CChar)
  | [] => none
  | c :: s => if isSpace c then skipSpace s else some (c :: s)

/-- `c - '0'` in the loop of `strtol_deci`, where `c` is a digit. -/
def deciDigit (c : CChar) : Option (CChar × Computed) :=
  if ascii '0' ≤ c ∧ c ≤ ascii '9' then
    some (c - ascii '0', .char (c.toInt - (ascii '0').toInt))
  else none

/-- `hex_digit_value`, `none` for -1. -/
def hexDigitValue (ch : CChar) : Option (CChar × Computed) :=
  if ascii '0' ≤ ch ∧ ch ≤ ascii '9' then
    some (ch - ascii '0', .char (ch.toInt - (ascii '0').toInt))
  else if ascii 'a' ≤ ch ∧ ch ≤ ascii 'f' then
    some (ch - ascii 'a' + 10#8, .char (ch.toInt - (ascii 'a').toInt + 10))
  else if ascii 'A' ≤ ch ∧ ch ≤ ascii 'F' then
    some (ch - ascii 'A' + 10#8, .char (ch.toInt - (ascii 'A').toInt + 10))
  else none

/-- What the loop over digits leaves behind: `any < 0`, `acc` and the operations. -/
structure DigitsDone where
  overflow : Bool
  acc : Word
  computed : List Computed

/-- The loop over digits, the same in both functions. -/
def digitsLoop (digitOf : CChar → Option (CChar × Computed)) (base cutoff cutlim : Word) :
    List CChar → Word → List Computed → Option DigitsDone
  | [], _, _ => none
  | c :: s, acc, computed =>
    match digitOf c with
    | none => some ⟨false, acc, computed⟩
    | some (digit, exact) =>
      let digit := digit.signExtend 64
      if cutoff < acc ∨ acc = cutoff ∧ cutlim < digit then
        some ⟨true, acc, computed ++ [exact]⟩
      else
        digitsLoop digitOf base cutoff cutlim s (acc * base + digit)
          (computed ++ [exact, .uint64 (acc.toNat * base.toNat),
            .uint64 ((acc * base).toNat + digit.toNat)])

/-- `LONG_MAX`. -/
def longMax : Word := 0xFFFFFFFFFFFFFFFF#64 >>> 1

/-- `LONG_MIN`. -/
def longMin : Word := ~~~longMax

/-- `ULONG_MAX`. -/
def ulongMax : Word := 0xFFFFFFFFFFFFFFFF#64

/-- `strtol_deci`. -/
def strtolDeci (nptr : List CChar) : Option Conversion :=
  (skipSpace nptr).bind fun s =>
    let neg := s.head? = some (ascii '-')
    let s := if neg ∨ s.head? = some (ascii '+') then s.tail else s
    let cutoff := if neg then longMin else longMax
    (digitsLoop deciDigit 10#64 (cutoff / 10#64) (cutoff % 10#64) s 0#64 []).map fun done =>
      if done.overflow then ⟨if neg then longMin else longMax, done.computed⟩
      else if neg then
        ⟨~~~done.acc + 1#64, done.computed ++ [.uint64 ((~~~done.acc).toNat + 1)]⟩
      else ⟨done.acc, done.computed⟩

/-- The `0x` that `strtoul_hex` steps over: the list behind it. The second character is read only
behind a `0`. -/
def skipHexMarker : List CChar → Option (List CChar)
  | [] => none
  | c :: s =>
    if c = ascii '0' then
      s.head?.map fun x => if x = ascii 'x' ∨ x = ascii 'X' then s.tail else c :: s
    else some (c :: s)

/-- `strtoul_hex`. -/
def strtoulHex (nptr : List CChar) : Option Conversion :=
  ((skipSpace nptr).bind skipHexMarker).bind fun s =>
    (digitsLoop hexDigitValue 16#64 (ulongMax / 16#64) (ulongMax % 16#64) s 0#64 []).map
      fun done => ⟨if done.overflow then ulongMax else done.acc, done.computed⟩

/-! ## The forms

The numeral forms are those of the library: white space, a mark, and digits, of which the longest
prefix of a string counts. -/

/-- The digit of a base that a character is. -/
def charDigit (base : ℕ) (c : CChar) : Option ℕ :=
  (List.range base).find? fun d => c = digitChar false d || c = digitChar true d

/-- White space, an optional sign and decimal digits. -/
def deciForm : NumeralForm CChar where
  base := 10
  space c := c = ascii ' ' || c = ascii '\t'
  digit := charDigit 10
  markers := [[ascii '-'], [ascii '+']]
  digit_lt c d h := List.mem_range.mp (List.mem_of_find?_eq_some h)
  space_digit := by decide +kernel
  marker_starts := by decide +kernel
  marker_no_digits := by decide +kernel
  marker_alone := by decide +kernel

/-- White space, an optional `0x` and hexadecimal digits. -/
def hexForm : NumeralForm CChar where
  base := 16
  space c := c = ascii ' ' || c = ascii '\t'
  digit := charDigit 16
  markers := [[ascii '0', ascii 'x'], [ascii '0', ascii 'X']]
  digit_lt c d h := List.mem_range.mp (List.mem_of_find?_eq_some h)
  space_digit := by decide +kernel
  marker_starts := by decide +kernel
  marker_no_digits := by decide +kernel
  marker_alone := by decide +kernel

/-- The number that a sign and digits stand for. -/
def signed (marker : List CChar) (n : ℕ) : ℤ := if marker = [ascii '-'] then -n else n

/-- A number, kept within the limits of `long`. -/
def saturateLong (n : ℤ) : ℤ := max (-2 ^ 63) (min n (2 ^ 63 - 1))

/-- A number, kept within the limits of `unsigned long`. -/
def saturateULong (n : ℕ) : ℕ := min n (2 ^ 64 - 1)

/-! ## The parts of a conversion

The loop over digits is the same for both bases. Its invariant is that the accumulator holds the
value so far, or that the limit has been passed and no operation has wrapped. -/

instance : DecidablePred Computed.Wraps
  | .char n => inferInstanceAs (Decidable (n < -128 ∨ 127 < n))
  | .uint64 n => inferInstanceAs (Decidable (2 ^ 64 ≤ n))

/-- The loop takes the digits of the form, each with its value, and no digit wraps. -/
structure TakesDigits (digitOf : CChar → Option (CChar × Computed)) (F : NumeralForm CChar) :
    Prop where
  value : ∀ c, (digitOf c).map (fun taken => (taken.1.signExtend 64).toNat) = F.digit c
  exact : ∀ c, ∀ taken ∈ digitOf c, ¬taken.2.Wraps

theorem deciDigit_takes : TakesDigits deciDigit deciForm where
  value := by decide +kernel
  exact := by decide +kernel

theorem hexDigitValue_takes : TakesDigits hexDigitValue hexForm where
  value := by decide +kernel
  exact := by decide +kernel

/-- The string `s` and its NUL. -/
def withNul (s : List CChar) : List CChar := s ++ [0#8]

/-- What the loop has done is right for digits of the value `total`. -/
structure DigitsDone.Right (done : DigitsDone) (limit total : ℕ) : Prop where
  overflow : done.overflow = true ↔ limit < total
  acc : done.overflow = false → done.acc.toNat = total
  exact : ∀ x ∈ done.computed, ¬x.Wraps

/-- Either the digits are too many, or the accumulator holds their value. -/
theorem DigitsDone.Right.cases {done : DigitsDone} {limit total : ℕ} (h : done.Right limit total) :
    done.overflow = true ∧ limit < total ∨
      done.overflow = false ∧ done.acc.toNat = total ∧ total ≤ limit := by
  obtain hover | hover := Bool.eq_false_or_eq_true done.overflow
  · exact .inl ⟨hover, h.overflow.mp hover⟩
  · have hle : ¬limit < total := fun hlt =>
      Bool.false_ne_true (hover.symm.trans (h.overflow.mpr hlt))
    exact .inr ⟨hover, h.acc hover, not_lt.mp hle⟩

theorem digitsLoop_cons {digitOf : CChar → Option (CChar × Computed)} {base cutoff cutlim : Word}
    {c digit : CChar} {exact : Computed} (s : List CChar) (acc : Word) (computed : List Computed)
    (h : digitOf c = some (digit, exact)) :
    digitsLoop digitOf base cutoff cutlim (c :: s) acc computed =
      if cutoff < acc ∨ acc = cutoff ∧ cutlim < digit.signExtend 64 then
        some ⟨true, acc, computed ++ [exact]⟩
      else
        digitsLoop digitOf base cutoff cutlim s (acc * base + digit.signExtend 64)
          (computed ++ [exact, .uint64 (acc.toNat * base.toNat),
            .uint64 ((acc * base).toNat + (digit.signExtend 64).toNat)]) := by
  rw [digitsLoop, h]

/-- **The loop stops at the limit, before an operation wraps**, or has the value of all digits. The
invariant is that the digits taken so far stand for `acc`. -/
theorem digitsLoop_right {digitOf : CChar → Option (CChar × Computed)} {F : NumeralForm CChar}
    (base cutoff cutlim : Word) (limit : ℕ) (hdigit : TakesDigits digitOf F)
    (hnul : F.digit 0#8 = none) (hbase : base.toNat = F.base)
    (hcutoff : cutoff.toNat = limit / F.base) (hcutlim : cutlim.toNat = limit % F.base)
    (hlimit : limit < 2 ^ 64) (s : List CChar) (acc : Word) (computed : List Computed)
    (hacc : acc.toNat ≤ limit) (hexact : ∀ x ∈ computed, ¬x.Wraps) :
    ∃ done, digitsLoop digitOf base cutoff cutlim (withNul s) acc computed = some done ∧
      done.Right limit ((F.digitsAt s).foldl (fun a d => a * F.base + d) acc.toNat) := by
  induction s generalizing acc computed with
  | nil =>
    have hnone : digitOf 0#8 = none := Option.map_eq_none_iff.mp ((hdigit.value _).trans hnul)
    refine ⟨⟨false, acc, computed⟩, ?_, ⟨?_, fun _ => rfl, hexact⟩⟩
    · rw [withNul, List.nil_append, digitsLoop, hnone]
    · exact iff_of_false (by simp) (by simpa using hacc)
  | cons c s ih =>
    rw [withNul, List.cons_append]
    cases htaken : digitOf c with
    | none =>
      have hnone : F.digit c = none := by rw [← hdigit.value c, htaken, Option.map_none]
      rw [NumeralForm.digitsAt_cons_none hnone]
      refine ⟨⟨false, acc, computed⟩, ?_, ⟨?_, fun _ => rfl, hexact⟩⟩
      · rw [digitsLoop, htaken]
      · exact iff_of_false (by simp) (by simpa using hacc)
    | some taken =>
      obtain ⟨digit, exact⟩ := taken
      have hsome : F.digit c = some (digit.signExtend 64).toNat := by
        rw [← hdigit.value c, htaken, Option.map_some]
      have hlt := F.digit_lt _ _ hsome
      have hexact' : ¬exact.Wraps := hdigit.exact c _ htaken
      rw [NumeralForm.digitsAt_cons_some hsome, List.foldl_cons, digitsLoop_cons _ _ _ htaken]
      generalize digit.signExtend 64 = d at hsome hlt
      have hcut : (cutoff < acc ∨ acc = cutoff ∧ cutlim < d) ↔
          limit < acc.toNat * F.base + d.toNat := by
        rw [limit_lt_iff hlt, ← hcutoff, ← hcutlim, BitVec.lt_def, BitVec.lt_def,
          BitVec.toNat_inj]
      rcases Nat.lt_or_ge limit (acc.toNat * F.base + d.toNat) with hover | hfits
      · refine ⟨⟨true, acc, computed ++ [exact]⟩, ?_, ⟨?_, fun h => ?_, fun x hx => ?_⟩⟩
        · exact if_pos (hcut.mpr hover)
        · exact iff_of_true rfl (Nat.lt_of_lt_of_le hover (le_foldl (Nat.zero_lt_of_lt hlt) _ _))
        · exact absurd h (by simp)
        · obtain hx | hx := List.mem_append.mp hx
          · exact hexact x hx
          · rw [List.mem_singleton.mp hx]
            exact hexact'
      · have hmul : (acc * base).toNat = acc.toNat * F.base := by
          rw [BitVec.toNat_mul, hbase]
          exact Nat.mod_eq_of_lt (by omega)
        have hadd : (acc * base + d).toNat = acc.toNat * F.base + d.toNat := by
          rw [BitVec.toNat_add, hmul]
          exact Nat.mod_eq_of_lt (by omega)
        obtain ⟨done, hdone, hright⟩ := ih (acc * base + d)
          (computed ++ [exact, .uint64 (acc.toNat * base.toNat),
            .uint64 ((acc * base).toNat + d.toNat)]) (by rw [hadd]; exact hfits) (by
            intro x hx
            simp only [List.mem_append, List.mem_cons, List.not_mem_nil, or_false] at hx
            obtain hx | rfl | rfl | rfl := hx
            · exact hexact x hx
            · exact hexact'
            · rw [Computed.Wraps, hbase]
              omega
            · rw [Computed.Wraps, hmul]
              omega)
        rw [hadd] at hright
        refine ⟨done, ?_, hright⟩
        exact (if_neg fun h => absurd (hcut.mp h) (by omega)).trans hdone

/-! ## The front of the string -/

theorem skipSpace_eq (s : List CChar) :
    skipSpace (withNul s) = some (withNul (deciForm.rest s)) := by
  induction s with
  | nil => rfl
  | cons c s ih =>
    rw [withNul, List.cons_append, skipSpace, NumeralForm.rest, List.dropWhile_cons]
    cases hspace : isSpace c with
    | true => exact ih.trans (congrArg _ (congrArg _ (if_pos hspace).symm))
    | false =>
      have hform : ¬deciForm.space c = true := fun h =>
        Bool.false_ne_true (hspace.symm.trans h)
      rw [if_neg hform]
      rfl

/-- The sign that the function finds is that of the scan. -/
theorem deci_sign (r : List CChar) :
    ((withNul r).head? = some (ascii '-') ↔ deciForm.markerOf r = [ascii '-']) ∧
      (if (withNul r).head? = some (ascii '-') ∨ (withNul r).head? = some (ascii '+') then
        (withNul r).tail else withNul r) =
        withNul (r.drop (deciForm.markerOf r).length) := by
  cases r with
  | nil => exact ⟨by decide +kernel, by decide +kernel⟩
  | cons c t =>
    have hhead : (withNul (c :: t)).head? = some c := rfl
    rw [hhead]
    by_cases hminus : c = ascii '-'
    · have hmarker : deciForm.markerOf (c :: t) = [ascii '-'] := by
        rw [hminus]
        exact NumeralForm.markerOf_append (m := [ascii '-']) List.mem_cons_self
      rw [hmarker, hminus]
      exact ⟨iff_of_true rfl rfl, if_pos (.inl rfl)⟩
    · have hne : ¬some c = some (ascii '-') := fun h => hminus (Option.some_injective _ h)
      by_cases hplus : c = ascii '+'
      · have hmarker : deciForm.markerOf (c :: t) = [ascii '+'] := by
          rw [hplus]
          exact NumeralForm.markerOf_append (m := [ascii '+'])
            (List.mem_cons_of_mem _ List.mem_cons_self)
        rw [hmarker, hplus]
        exact ⟨iff_of_false (by decide) (by decide), if_pos (.inr rfl)⟩
      · have hne' : ¬some c = some (ascii '+') := fun h => hplus (Option.some_injective _ h)
        have hmarker : deciForm.markerOf (c :: t) = [] := by
          refine NumeralForm.markerOf_of_not fun m hm hpfx => ?_
          obtain rfl | hm := List.mem_cons.mp hm
          · exact hminus (List.cons_prefix_cons.mp hpfx).1.symm
          · rw [List.mem_singleton.mp hm] at hpfx
            exact hplus (List.cons_prefix_cons.mp hpfx).1.symm
        rw [hmarker]
        exact ⟨iff_of_false hne (by simp), if_neg fun h => h.elim hne hne'⟩

/-- The function steps over the marker of the scan. -/
theorem hex_marker (r : List CChar) :
    skipHexMarker (withNul r) = some (withNul (r.drop (hexForm.markerOf r).length)) := by
  have hnone : ∀ l : List CChar,
      (∀ x t, l = ascii '0' :: x :: t → x ≠ ascii 'x' ∧ x ≠ ascii 'X') →
        hexForm.markerOf l = [] := by
    intro l hl
    refine NumeralForm.markerOf_of_not fun m hm hpfx => ?_
    obtain ⟨t, ht⟩ := hpfx
    obtain rfl | hm := List.mem_cons.mp hm
    · exact (hl _ t ht.symm).1 rfl
    · rw [List.mem_singleton.mp hm] at ht
      exact (hl _ t ht.symm).2 rfl
  cases r with
  | nil => exact by decide +kernel
  | cons c t =>
    rw [withNul, List.cons_append, skipHexMarker]
    by_cases hzero : c = ascii '0'
    · rw [if_pos hzero]
      cases t with
      | nil =>
        rw [hzero]
        decide +kernel
      | cons x t =>
        rw [List.cons_append, List.head?_cons, Option.map_some]
        by_cases hx : x = ascii 'x'
        · have hmarker : hexForm.markerOf (c :: x :: t) = [ascii '0', ascii 'x'] := by
            rw [hzero, hx]
            exact NumeralForm.markerOf_append (m := [ascii '0', ascii 'x']) List.mem_cons_self
          rw [if_pos (.inl hx), hmarker]
          rfl
        · by_cases hX : x = ascii 'X'
          · have hmarker : hexForm.markerOf (c :: x :: t) = [ascii '0', ascii 'X'] := by
              rw [hzero, hX]
              exact NumeralForm.markerOf_append (m := [ascii '0', ascii 'X'])
                (List.mem_cons_of_mem _ List.mem_cons_self)
            rw [if_pos (.inr hX), hmarker]
            rfl
          · rw [if_neg fun h => h.elim hx hX, hnone (c :: x :: t) fun y u h => ?_]
            · rfl
            · obtain ⟨-, h⟩ := List.cons.inj h
              obtain ⟨rfl, -⟩ := List.cons.inj h
              exact ⟨hx, hX⟩
    · rw [if_neg hzero, hnone (c :: t) fun x u h => absurd (List.cons.inj h).1 hzero]
      rfl

/-! ## The conversions are exact

Both functions skip white space, look for a mark and take digits, as the scan does. What is left is
to compare the limits. -/

theorem not_wraps_of_all {xs : List Computed} {v : Word} (h : ∀ x ∈ xs, ¬x.Wraps) :
    ¬(Conversion.mk v xs).Wraps := by
  rintro ⟨x, hx, hwraps⟩
  exact h x hx hwraps

/-- The two's complement, exact up to 2^63, of which only that of zero wraps. -/
theorem twosComplement {acc : Word} {xs : List Computed} (hacc : acc.toNat ≤ 2 ^ 63)
    (h : ∀ x ∈ xs, ¬x.Wraps) :
    (~~~acc + 1#64).toInt = -acc.toNat ∧
      ((Conversion.mk (~~~acc + 1#64) (xs ++ [.uint64 ((~~~acc).toNat + 1)])).Wraps ↔
        acc.toNat = 0) := by
  have hnot : (~~~acc).toNat = 2 ^ 64 - 1 - acc.toNat := BitVec.toNat_not
  have hlt := acc.isLt
  constructor
  · rw [BitVec.toInt_eq_toNat_cond, BitVec.toNat_add, hnot]
    have hone : (1#64).toNat = 1 := rfl
    rw [hone]
    rcases Nat.eq_zero_or_pos acc.toNat with hzero | hpos
    · rw [hzero]
      rfl
    · rw [Nat.mod_eq_of_lt (by omega)]
      split
      · omega
      · omega
  · constructor
    · rintro ⟨x, hx, hwraps⟩
      obtain hx | hx := List.mem_append.mp hx
      · exact absurd hwraps (h x hx)
      · rw [List.mem_singleton.mp hx, Computed.Wraps, hnot] at hwraps
        omega
    · intro hzero
      refine ⟨_, List.mem_append_right xs (List.mem_singleton_self _), ?_⟩
      rw [Computed.Wraps, hnot, hzero]
      omega

/-- `strtol_deci` gives the value of the scan. Only the two's complement of zero wraps. -/
theorem strtolDeci_eq (s : List CChar) :
    ∃ c, strtolDeci (withNul s) = some c ∧
      c.value.toInt = saturateLong (signed (deciForm.scanMarker s) (deciForm.scanValue s)) ∧
      (c.Wraps ↔ deciForm.scanMarker s = [ascii '-'] ∧ deciForm.scanValue s = 0) := by
  obtain ⟨hneg, hsign⟩ := deci_sign (deciForm.rest s)
  have hskip : (if (withNul (deciForm.rest s)).head? = some (ascii '-') ∨
      (withNul (deciForm.rest s)).head? = some (ascii '+') then
        (withNul (deciForm.rest s)).tail else withNul (deciForm.rest s)) =
      withNul (deciForm.scanTail s) := hsign
  have hmin : longMin.toInt = -2 ^ 63 := by decide
  have hmax : longMax.toInt = 2 ^ 63 - 1 := by decide
  rw [strtolDeci, skipSpace_eq, Option.bind_some]
  dsimp only
  rw [hskip]
  by_cases hminus : (withNul (deciForm.rest s)).head? = some (ascii '-')
  · have hmarker : deciForm.scanMarker s = [ascii '-'] := hneg.mp hminus
    obtain ⟨done, hdone, hright⟩ :=
      digitsLoop_right 10#64 (longMin / 10#64) (longMin % 10#64) (2 ^ 63) deciDigit_takes
        (by decide +kernel) (by decide) (by decide) (by decide) (by decide) (deciForm.scanTail s)
        0#64 [] (by decide) nofun
    have hvalue : done.Right (2 ^ 63) (deciForm.scanValue s) := hright
    rw [signed, if_pos hmarker]
    simp only [if_pos hminus]
    rw [hdone, Option.map_some]
    obtain ⟨hover, hlt⟩ | ⟨hover, hacc, hle⟩ := hvalue.cases
    · rw [hover]
      refine ⟨_, rfl, ?_, iff_of_false (not_wraps_of_all hvalue.exact) ?_⟩
      · rw [if_pos rfl, hmin, saturateLong]
        omega
      · rintro ⟨-, hzero⟩
        omega
    · obtain ⟨hint, hwraps⟩ := twosComplement (hacc.trans_le hle) hvalue.exact
      rw [hover]
      refine ⟨_, rfl, ?_, ?_⟩
      · rw [if_neg nofun, hint, hacc, saturateLong]
        omega
      · rw [if_neg nofun]
        exact hwraps.trans ⟨fun h => ⟨hmarker, hacc.symm.trans h⟩, fun h => hacc.trans h.2⟩
  · have hmarker : ¬deciForm.scanMarker s = [ascii '-'] := fun h => hminus (hneg.mpr h)
    obtain ⟨done, hdone, hright⟩ :=
      digitsLoop_right 10#64 (longMax / 10#64) (longMax % 10#64) (2 ^ 63 - 1) deciDigit_takes
        (by decide +kernel) (by decide) (by decide) (by decide) (by decide) (deciForm.scanTail s)
        0#64 [] (by decide) nofun
    have hvalue : done.Right (2 ^ 63 - 1) (deciForm.scanValue s) := hright
    rw [signed, if_neg hmarker]
    simp only [if_neg hminus]
    rw [hdone, Option.map_some]
    obtain ⟨hover, hlt⟩ | ⟨hover, hacc, hle⟩ := hvalue.cases
    · rw [hover]
      refine ⟨_, rfl, ?_, iff_of_false (not_wraps_of_all hvalue.exact) fun h => hmarker h.1⟩
      rw [if_pos rfl, hmax, saturateLong]
      omega
    · have hint : done.acc.toInt = done.acc.toNat := BitVec.toInt_eq_toNat_of_lt (by omega)
      rw [hover]
      refine ⟨_, rfl, ?_, iff_of_false (not_wraps_of_all hvalue.exact) fun h => hmarker h.1⟩
      rw [if_neg nofun]
      refine hint.trans ?_
      rw [hacc, saturateLong]
      omega

/-- `strtoul_hex` gives the value of the scan, and nothing wraps. -/
theorem strtoulHex_eq (s : List CChar) :
    ∃ c, strtoulHex (withNul s) = some c ∧
      c.value.toNat = saturateULong (hexForm.scanValue s) ∧ ¬c.Wraps := by
  have hmax : ulongMax.toNat = 2 ^ 64 - 1 := by decide
  obtain ⟨done, hdone, hright⟩ :=
    digitsLoop_right 16#64 (ulongMax / 16#64) (ulongMax % 16#64) (2 ^ 64 - 1) hexDigitValue_takes
      (by decide +kernel) (by decide) (by decide) (by decide) (by decide) (hexForm.scanTail s)
      0#64 [] (by decide) nofun
  have hvalue : done.Right (2 ^ 64 - 1) (hexForm.scanValue s) := hright
  have hskip : skipHexMarker (withNul (hexForm.rest s)) = some (withNul (hexForm.scanTail s)) :=
    hex_marker _
  have hspace : skipSpace (withNul s) = some (withNul (hexForm.rest s)) := skipSpace_eq s
  rw [strtoulHex, hspace, Option.bind_some, hskip, Option.bind_some, hdone, Option.map_some]
  refine ⟨_, rfl, ?_, not_wraps_of_all hvalue.exact⟩
  obtain ⟨hover, hlt⟩ | ⟨hover, hacc, hle⟩ := hvalue.cases
  · rw [hover, if_pos rfl, hmax, saturateULong]
    omega
  · rw [hover, if_neg nofun, hacc, saturateULong]
    omega

/-- **Conversions are exact.** Both stay inside the string and give the number of the longest prefix
of their form, kept within the limits of the type. The only operation that wraps is the two's
complement of `strtol_deci` for a minus sign in front of zero or of no digit. -/
theorem string_conversions_exact (s : CString) :
    (∃ c, strtolDeci (withNul s.1) = some c ∧
      (∃ p m n, deciForm.IsLongest s.1 p m n) ∧
      ∀ p m n, deciForm.IsLongest s.1 p m n →
        c.value.toInt = saturateLong (signed m n) ∧ (c.Wraps ↔ m = [ascii '-'] ∧ n = 0)) ∧
    (∃ c, strtoulHex (withNul s.1) = some c ∧ ¬c.Wraps ∧
      (∃ p m n, hexForm.IsLongest s.1 p m n) ∧
      ∀ p m n, hexForm.IsLongest s.1 p m n → c.value.toNat = saturateULong n) := by
  obtain ⟨c, hc, hvalue, hwraps⟩ := strtolDeci_eq s.1
  obtain ⟨c', hc', hvalue', hwraps'⟩ := strtoulHex_eq s.1
  refine ⟨⟨c, hc, ⟨_, _, _, NumeralForm.isLongest_iff.mpr ⟨rfl, rfl, rfl⟩⟩, ?_⟩,
    ⟨c', hc', hwraps', ⟨_, _, _, NumeralForm.isLongest_iff.mpr ⟨rfl, rfl, rfl⟩⟩, ?_⟩⟩
  · intro p m n hlongest
    obtain ⟨-, rfl, rfl⟩ := NumeralForm.isLongest_iff.mp hlongest
    exact ⟨hvalue, hwraps⟩
  · intro p m n hlongest
    obtain ⟨-, -, rfl⟩ := NumeralForm.isLongest_iff.mp hlongest
    exact hvalue'

/-- `-0` leads to an operation that wraps. -/
theorem strtolDeci_wraps :
    ¬∀ s : CString, ∃ c, strtolDeci (withNul s.1) = some c ∧ ¬c.Wraps := by
  intro h
  obtain ⟨c, hc, hnot⟩ := h ⟨[ascii '-', ascii '0'], by decide⟩
  obtain ⟨c', hc', -, hwraps⟩ := strtolDeci_eq [ascii '-', ascii '0']
  rw [← Option.some_injective _ (hc'.symm.trans hc)] at hnot
  exact hnot (hwraps.mpr ⟨by decide +kernel, by decide +kernel⟩)

end Acrn
