import Acrn.Snprintf
import Acrn.Lib.Numeral

/-!
# Formatted numbers

What `%d`, `%i`, `%u`, `%x` and `%X` print: the digits, the prefix, and the padding around them.
The digits are always right. The prefix is counted against the precision, it is put in front of
unsigned numbers and of the hexadecimal zero only, and `h` and `hh` do not convert signed
arguments, so this file also says when the text is the one that the conversion asks for.
-/

namespace Acrn

open PieceWriter Numeral

/-! ## The digit buffers

The loops put digits into a buffer from the end. Their invariant is that the numeral of what is
left, followed by what is in the buffer, is the numeral of the value. -/

/-- The character of a digit. -/
def digitChar (upper : Bool) (d : ℕ) : CChar :=
  if d < 10 then ascii '0' + BitVec.ofNat 8 d
  else ascii (if upper then 'A' else 'a') + BitVec.ofNat 8 (d - 10)

/-- The numeral of `n`. -/
def numeral (upper : Bool) (base n : ℕ) : List CChar := (digitsOf base n).map (digitChar upper)

/-- Different digits have different characters. -/
theorem digitChar_inj (upper : Bool) :
    ∀ d < 16, ∀ e < 16, digitChar upper d = digitChar upper e → d = e := by
  cases upper <;> decide

theorem numeral_of_lt {upper : Bool} {base n : ℕ} (h : n < base) :
    numeral upper base n = [digitChar upper n] := by
  rw [numeral, digitsOf_of_lt h, List.map_singleton]

/-- One round of a loop: the last digit goes in front of what is there. -/
theorem numeral_append {upper : Bool} {base n : ℕ} (hb : 1 < base) (h : base ≤ n)
    (pos : List CChar) :
    numeral upper base (n / base) ++ digitChar upper (n % base) :: pos =
      numeral upper base n ++ pos := by
  rw [numeral, numeral, digitsOf_of_ge hb h, List.map_append, List.map_singleton,
    List.append_assoc, List.singleton_append]

/-- The loops add the digit to the character of zero. -/
theorem digit_add_zero {d : ℕ} (h : d < 10) :
    BitVec.ofNat 8 d + ascii '0' = digitChar false d := by
  rw [digitChar, if_pos h, BitVec.add_comm]

/-- One round of the loop over the low half. -/
theorem decimalLoop32_succ (rounds : ℕ) (v : BitVec 32) (pos : List CChar) :
    decimalLoop32 (rounds + 1) v pos =
      if 10 ≤ v.toNat then
        decimalLoop32 rounds (v / 10#32) (digitChar false (v.toNat % 10) :: pos)
      else digitChar false (v.toNat % 10) :: pos := by
  have hchar : (v % 10#32).setWidth 8 + ascii '0' = digitChar false (v.toNat % 10) := by
    have hmod : (v % 10#32).setWidth 8 = BitVec.ofNat 8 (v.toNat % 10) := by
      apply BitVec.eq_of_toNat_eq
      simp
    rw [hmod, digit_add_zero (Nat.mod_lt _ (by decide))]
  have hnext : v / 10#32 ≠ 0#32 ↔ 10 ≤ v.toNat := by
    rw [ne_eq, ← BitVec.toNat_inj, BitVec.toNat_udiv]
    simp
  rw [decimalLoop32, hchar]
  exact if_congr hnext rfl rfl

/-- The loop over the low half writes the numeral of it. -/
theorem decimalLoop32_eq (rounds : ℕ) (v : BitVec 32) (pos : List CChar)
    (h : v.toNat < 10 ^ (rounds + 1)) :
    decimalLoop32 (rounds + 1) v pos = numeral false 10 v.toNat ++ pos := by
  have hlast : v.toNat < 10 →
      digitChar false (v.toNat % 10) :: pos = numeral false 10 v.toNat ++ pos := fun hlt => by
    rw [numeral_of_lt hlt, Nat.mod_eq_of_lt hlt, List.singleton_append]
  induction rounds generalizing v pos with
  | zero =>
    rw [decimalLoop32_succ, if_neg (by omega)]
    exact hlast (by omega)
  | succ rounds ih =>
    rw [decimalLoop32_succ]
    split
    · rename_i hge
      have hdiv : (v / 10#32).toNat = v.toNat / 10 := BitVec.toNat_udiv
      have hlt : (v / 10#32).toNat < 10 ^ (rounds + 1) := by
        rw [hdiv]
        rw [Nat.pow_succ] at h
        omega
      rw [ih _ _ hlt fun hsmall => ?_, hdiv, numeral_append (by decide) hge]
      rw [numeral_of_lt hsmall, Nat.mod_eq_of_lt hsmall, List.singleton_append]
    · exact hlast (by omega)

/-- The loop over the 64-bit value leaves the rest of the digits to the low half. -/
theorem decimalLoop64_eq (rounds : ℕ) (v : Word) (pos : List CChar)
    (h : v.toNat < 10 ^ rounds) :
    (decimalLoop64 rounds v pos).1.toNat < 2 ^ 32 ∧
      numeral false 10 (decimalLoop64 rounds v pos).1.toNat ++ (decimalLoop64 rounds v pos).2 =
        numeral false 10 v.toNat ++ pos := by
  induction rounds generalizing v pos with
  | zero =>
    have hsmall : v.toNat < 2 ^ 32 := Nat.lt_trans h (by norm_num)
    exact ⟨hsmall, rfl⟩
  | succ rounds ih =>
    have hhigh : v >>> 32 ≠ 0#64 ↔ 2 ^ 32 ≤ v.toNat := by
      rw [ne_eq, ← BitVec.toNat_inj]
      simp [Nat.shiftRight_eq_div_pow]
    rw [decimalLoop64]
    split
    · rename_i hne
      have hge := hhigh.mp hne
      have hdiv : (v / 10#64).toNat = v.toNat / 10 := BitVec.toNat_udiv
      have hchar : (v % 10#64).setWidth 8 + ascii '0' = digitChar false (v.toNat % 10) := by
        have hmod : (v % 10#64).setWidth 8 = BitVec.ofNat 8 (v.toNat % 10) := by
          apply BitVec.eq_of_toNat_eq
          simp
        rw [hmod, digit_add_zero (Nat.mod_lt _ (by decide))]
      have hlt : (v / 10#64).toNat < 10 ^ rounds := by
        rw [hdiv]
        rw [Nat.pow_succ] at h
        omega
      obtain ⟨hsmall, htext⟩ := ih (v / 10#64) (digitChar false (v.toNat % 10) :: pos) hlt
      rw [hchar]
      exact ⟨hsmall, htext.trans (by rw [hdiv, numeral_append (by decide) (by omega)])⟩
    · rename_i heq
      exact ⟨Nat.lt_of_not_le fun hge => heq (hhigh.mpr hge), rfl⟩

/-- What `print_decimal` puts into its buffer. -/
theorem decimalDigits_eq (v : Word) : decimalDigits v = numeral false 10 v.toNat := by
  have hlt : v.toNat < 10 ^ 64 := Nat.lt_trans v.isLt (by norm_num)
  obtain ⟨hsmall, htext⟩ := decimalLoop64_eq 64 v [] hlt
  have hlow : ((decimalLoop64 64 v []).1.setWidth 32).toNat =
      (decimalLoop64 64 v []).1.toNat := by
    rw [BitVec.toNat_setWidth, Nat.mod_eq_of_lt hsmall]
  have hbound : ((decimalLoop64 64 v []).1.setWidth 32).toNat < 10 ^ (31 + 1) :=
    Nat.lt_trans (hlow ▸ hsmall) (by norm_num)
  rw [decimalDigits, decimalLoop32_eq 31 _ _ hbound, hlow, htext, List.append_nil]

/-- The character of a hexadecimal digit in the tables of the source. -/
theorem hexDigits_getD (upper : Bool) :
    ∀ d < 16, (if upper then upperHexDigits else lowerHexDigits).getD d 0#8 =
      digitChar upper d := by
  cases upper <;> decide

/-- The loop of `print_pow2` writes the hexadecimal numeral. -/
theorem pow2Loop_eq (upper : Bool) (rounds : ℕ) (v : Word) (pos : List CChar)
    (h : v.toNat < 16 ^ (rounds + 1)) :
    pow2Loop (if upper then upperHexDigits else lowerHexDigits) 4 (rounds + 1) v pos =
      numeral upper 16 v.toNat ++ pos := by
  have hdiv : ∀ v : Word, (v >>> 4).toNat = v.toNat / 16 := fun v => by
    rw [BitVec.toNat_ushiftRight, Nat.shiftRight_eq_div_pow]
  have hstep : ∀ (rounds : ℕ) (v : Word) (pos : List CChar),
      pow2Loop (if upper then upperHexDigits else lowerHexDigits) 4 (rounds + 1) v pos =
        if 16 ≤ v.toNat then
          pow2Loop (if upper then upperHexDigits else lowerHexDigits) 4 rounds (v >>> 4)
            (digitChar upper (v.toNat % 16) :: pos)
        else digitChar upper (v.toNat % 16) :: pos := fun rounds v pos => by
    have hmask : (v &&& (1#64 <<< 4 - 1#64)).toNat = v.toNat % 16 := by
      rw [BitVec.toNat_and, show (1#64 <<< 4 - 1#64).toNat = 2 ^ 4 - 1 by decide,
        Nat.and_two_pow_sub_one_eq_mod]
    have hnext : v >>> 4 ≠ 0#64 ↔ 16 ≤ v.toNat := by
      rw [ne_eq, ← BitVec.toNat_inj, hdiv]
      simp
    rw [pow2Loop, hmask, hexDigits_getD upper _ (Nat.mod_lt _ (by decide))]
    exact if_congr hnext rfl rfl
  induction rounds generalizing v pos with
  | zero =>
    have hlt : v.toNat < 16 := by omega
    rw [hstep, if_neg (by omega), numeral_of_lt hlt, Nat.mod_eq_of_lt hlt, List.singleton_append]
  | succ rounds ih =>
    rw [hstep]
    split
    · rename_i hge
      have hlt : (v >>> 4).toNat < 16 ^ (rounds + 1) := by
        rw [hdiv]
        rw [Nat.pow_succ] at h
        omega
      rw [ih _ _ hlt, hdiv, numeral_append (by decide) hge]
    · have hlt : v.toNat < 16 := by omega
      rw [numeral_of_lt hlt, Nat.mod_eq_of_lt hlt, List.singleton_append]

/-! ## Prefix and padding -/

/-- The padding of a number: blanks in front, zeros behind the prefix, and blanks at the end. -/
structure Padding where
  lead : ℕ
  zeros : ℕ
  trail : ℕ

/-- The padding of `len` characters, prefix included, to the precision and the width. -/
def paddingOf (flags : PrintFlags) (width precision len : ℕ) : Padding :=
  let w := width - max precision len
  { lead := if flags.leftJustify || flags.padZero then 0 else w
    zeros := (if !flags.leftJustify && flags.padZero then w else 0) + (precision - len)
    trail := if flags.leftJustify then w else 0 }

/-- A number with its prefix and its padding. -/
def Padding.apply (pad : Padding) (pfx value : List CChar) : List CChar :=
  List.replicate pad.lead (ascii ' ') ++
    (pfx ++ (List.replicate pad.zeros (ascii '0') ++ value)) ++
    List.replicate pad.trail (ascii ' ')

/-- A number, padded as the source does it. -/
def paddedText (flags : PrintFlags) (width precision : BitVec 32) (pfx value : List CChar) :
    List CChar :=
  (paddingOf flags width.toNat precision.toNat (value.length + pfx.length)).apply pfx value

/-- A copy of the whole of a string without terminators prints the string. -/
theorem copy_text {s : List CChar} (h : 0#8 ∉ s) (hlen : s.length < 2 ^ 32) :
    (EmitCall.copy s (BitVec.ofNat 32 s.length)).text = s := by
  have hsz : (BitVec.ofNat 32 s.length).toNat = s.length := Nat.mod_eq_of_lt hlen
  rw [EmitCall.text, hsz, List.take_length, List.takeWhile_eq_self_iff]
  exact fun c hc => decide_eq_true (ne_of_mem_of_not_mem hc h)

/-- The guarded subtractions of the source are truncated ones. -/
theorem toNat_sub_or_zero (a b : BitVec 32) :
    (if a < b then b - a else 0#32).toNat = b.toNat - a.toNat := by
  split
  · rename_i hlt
    rw [BitVec.toNat_sub_of_le (BitVec.le_of_lt hlt)]
  · rename_i hge
    rw [BitVec.lt_def] at hge
    exact (Nat.sub_eq_zero_of_le (Nat.le_of_not_lt hge)).symm

/-- The text that `format_number` emits. -/
theorem render_formatNumber {vars : PrintVars} {pfx value : List CChar}
    (hpfx : vars.prefixChars.getD [] = pfx)
    (hprefixlen : vars.prefixlen = BitVec.ofNat 32 pfx.length)
    (hvalue : vars.value = value) (hvaluelen : vars.valuelen = BitVec.ofNat 32 value.length)
    (hpfx0 : 0#8 ∉ pfx) (hvalue0 : 0#8 ∉ value) (hlen : value.length + pfx.length < 2 ^ 32) :
    render EmitCall.text (formatNumber vars) =
      paddedText vars.flags vars.width vars.precision pfx value := by
  have hwidth : (vars.valuelen + vars.prefixlen).toNat = value.length + pfx.length := by
    rw [hvaluelen, hprefixlen, ← BitVec.ofNat_add, BitVec.toNat_ofNat, Nat.mod_eq_of_lt hlen]
  have hp := toNat_sub_or_zero (vars.valuelen + vars.prefixlen) vars.precision
  rw [formatNumber]
  set p := if vars.valuelen + vars.prefixlen < vars.precision then
    vars.precision - (vars.valuelen + vars.prefixlen) else 0#32
  have hboth : (vars.valuelen + vars.prefixlen + p).toNat =
      max vars.precision.toNat (value.length + pfx.length) := by
    have := vars.precision.isLt
    rw [BitVec.toNat_add, hp, hwidth, Nat.mod_eq_of_lt (by omega)]
    omega
  have hw := toNat_sub_or_zero (vars.valuelen + vars.prefixlen + p) vars.width
  set w := if vars.valuelen + vars.prefixlen + p < vars.width then
    vars.width - (vars.valuelen + vars.prefixlen + p) else 0#32
  rw [hwidth] at hp
  rw [hboth] at hw
  have hcopy : (EmitCall.copy (vars.prefixChars.getD []) vars.prefixlen).text = pfx := by
    rw [hpfx, hprefixlen, copy_text hpfx0 (by omega)]
  have hnumber : (EmitCall.copy vars.value vars.valuelen).text = value := by
    rw [hvalue, hvaluelen, copy_text hvalue0 (by omega)]
  have hzeros : (EmitCall.fill (ascii '0') p).text =
      List.replicate (vars.precision.toNat - (value.length + pfx.length)) (ascii '0') := by
    rw [EmitCall.text, hp]
  have hfill : ∀ c, (EmitCall.fill c w).text = List.replicate
      (vars.width.toNat - max vars.precision.toNat (value.length + pfx.length)) c := fun c => by
    rw [EmitCall.text, hw]
  have hnone : (EmitCall.copy [] 0#32).text = [] := rfl
  cases hleft : vars.flags.leftJustify <;> cases hzero : vars.flags.padZero <;>
    simp [paddedText, Padding.apply, paddingOf, hleft, hzero, hcopy, hnumber, hzeros, hfill, hnone,
      List.replicate_add, -List.replicate_append_replicate]

/-! ## Conversions of numbers

A conversion is given by its parts and spelled out, so that the theorem speaks of all conversions
and not of all strings. `Printed` is what the standard asks for, in the form that the source
documents. -/

/-- A flag of a conversion. -/
inductive FlagChar where
  | alternate | zero | minus | space | plus
  deriving DecidableEq

def FlagChar.char : FlagChar → CChar
  | alternate => ascii '#'
  | zero => ascii '0'
  | minus => ascii '-'
  | space => ascii ' '
  | plus => ascii '+'

/-- A length modifier. -/
inductive LengthModifier where
  | none | h | hh | l | ll
  deriving DecidableEq

def LengthModifier.text : LengthModifier → List CChar
  | none => []
  | h => [ascii 'h']
  | hh => [ascii 'h', ascii 'h']
  | l => [ascii 'l']
  | ll => [ascii 'l', ascii 'l']

/-- The width of the type that the modifier names. -/
def LengthModifier.bits : LengthModifier → ℕ
  | none => 32
  | h => 16
  | hh => 8
  | l => 64
  | ll => 64

/-- The width of the type that the argument is taken from the list as. -/
def LengthModifier.passedBits : LengthModifier → ℕ
  | l => 64
  | ll => 64
  | _ => 32

inductive NumberConv where
  | d | i | u | x | X
  deriving DecidableEq

namespace NumberConv

def char : NumberConv → CChar
  | d => ascii 'd'
  | i => ascii 'i'
  | u => ascii 'u'
  | x => ascii 'x'
  | X => ascii 'X'

def signed : NumberConv → Bool
  | d | i => true
  | _ => false

def base : NumberConv → ℕ
  | x | X => 16
  | _ => 10

def upper : NumberConv → Bool
  | X => true
  | _ => false

end NumberConv

/-- The conversion of a number: any sequence of flags, a width, a precision, a length modifier and
the kind of the number. -/
structure NumberSpec where
  flags : List FlagChar
  width : BitVec 32
  precision : Option (BitVec 32)
  modifier : LengthModifier
  conv : NumberConv

/-- A parameter as it is written, nothing for zero. -/
def spelled (n : ℕ) : List CChar := if n = 0 then [] else numeral false 10 n

namespace NumberSpec

variable (spec : NumberSpec) (arg : Word)

/-- What lies behind the width. -/
def precisionText : List CChar :=
  match spec.precision with
  | none => []
  | some precision => ascii '.' :: spelled precision.toNat

/-- The conversion as it stands in a format. -/
def text : List CChar :=
  ascii '%' :: (spec.flags.map FlagChar.char ++ (spelled spec.width.toNat ++
    (spec.precisionText ++ (spec.modifier.text ++ [spec.conv.char]))))

/-- The argument converted to the type of the modifier. -/
def converted : ℤ :=
  if spec.conv.signed then (arg.setWidth spec.modifier.bits).toInt
  else (arg.setWidth spec.modifier.bits).toNat

/-- The prefix that the conversion asks for: a sign for signed numbers only, `0x` or `0X` for
other numbers than zero only. -/
def prefixText : List CChar :=
  match spec.conv with
  | .d | .i =>
    if spec.converted arg < 0 then [ascii '-']
    else if .plus ∈ spec.flags then [ascii '+']
    else if .space ∈ spec.flags then [ascii ' ']
    else []
  | .u => []
  | .x => if .alternate ∈ spec.flags ∧ spec.converted arg ≠ 0 then [ascii '0', ascii 'x'] else []
  | .X => if .alternate ∈ spec.flags ∧ spec.converted arg ≠ 0 then [ascii '0', ascii 'X'] else []

/-- **The text that a conversion asks for**: the prefix and the digits, which read back as the
converted argument, in blanks on the side that the flags say. -/
structure Printed (out lead digits trail : List CChar) : Prop where
  text : out = lead ++ (spec.prefixText arg ++ digits) ++ trail
  reads : ReadsAs (digitChar spec.conv.upper) spec.conv.base digits (spec.converted arg).natAbs
  precision : (spec.precision.getD 0#32).toNat ≤ digits.length
  width : spec.width.toNat ≤ out.length
  lead_blank : ∀ c ∈ lead, c = ascii ' '
  trail_blank : ∀ c ∈ trail, c = ascii ' '
  /-- With zero padding the zeros are among the digits. -/
  lead_nil : .minus ∈ spec.flags ∨ .zero ∈ spec.flags → lead = []
  trail_nil : .minus ∉ spec.flags → trail = []
  /-- Blanks pad to the width, not beyond it. -/
  only : lead ≠ [] ∨ trail ≠ [] → out.length = spec.width.toNat

end NumberSpec

/-! ## Parsing a conversion

The parser is run on a conversion that is spelled out. It stops at the first character that does
not belong to a part, which is the first one of the next part. -/

theorem isDigit_digitChar : ∀ d < 10, isDigit (digitChar false d) = true := by decide

theorem digitChar_value :
    ∀ d < 10, (digitChar false d - ascii '0').setWidth 32 = BitVec.ofNat 32 d := by decide

/-- No digit is mistaken for a terminator, a blank, a sign or the letter of a prefix. -/
theorem digitChar_ne (upper : Bool) : ∀ d < 16, digitChar upper d ≠ 0#8 ∧
    digitChar upper d ≠ ascii ' ' ∧ digitChar upper d ≠ ascii '-' ∧
    digitChar upper d ≠ ascii '+' ∧ digitChar upper d ≠ ascii 'x' ∧
    digitChar upper d ≠ ascii 'X' := by
  cases upper <;> decide

/-- A parameter ends at the first character that is no digit. -/
theorem getParamLoop_stop {rest : List CChar} (h : isDigit (deref rest) = false)
    (x : BitVec 32) : getParamLoop rest x = (rest, x) := by
  cases rest with
  | nil => rfl
  | cons c rest =>
    have hc : isDigit c = false := h
    rw [getParamLoop, hc, if_neg Bool.false_ne_true]

/-- The loop reads the digits as a number, modulo 2^32. -/
theorem getParamLoop_digits {ds : List ℕ} (hds : ∀ d ∈ ds, d < 10) {rest : List CChar}
    (h : isDigit (deref rest) = false) (x : ℕ) :
    getParamLoop (ds.map (digitChar false) ++ rest) (BitVec.ofNat 32 x) =
      (rest, BitVec.ofNat 32 (ds.foldl (fun a d => a * 10 + d) x)) := by
  induction ds generalizing x with
  | nil => exact getParamLoop_stop h _
  | cons d ds ih =>
    have hd := hds d List.mem_cons_self
    have hnext : BitVec.ofNat 32 x * 10#32 + BitVec.ofNat 32 d = BitVec.ofNat 32 (x * 10 + d) := by
      rw [BitVec.ofNat_add, BitVec.ofNat_mul]
    rw [List.map_cons, List.cons_append, getParamLoop, if_pos (isDigit_digitChar d hd),
      digitChar_value d hd, hnext, ih (fun e he => hds e (List.mem_cons_of_mem _ he)),
      List.foldl_cons]

/-- What begins the spelling of a parameter or what follows it. -/
theorem deref_spelled {P : CChar → Prop} (hdigit : ∀ d < 10, d ≠ 0 → P (digitChar false d))
    {rest : List CChar} (hrest : P (deref rest)) (n : ℕ) : P (deref (spelled n ++ rest)) := by
  rw [spelled]
  split
  · exact hrest
  · rename_i hn
    have hhead := head_digitsOf_ne_zero (b := 10) hn
    have hlt := lt_of_mem_digitsOf (b := 10) (n := n) (by decide)
    rw [numeral]
    obtain ⟨d, ds, hds⟩ := List.exists_cons_of_ne_nil (digitsOf_ne_nil (b := 10) (n := n))
    simp only [hds, List.head_cons] at hhead
    rw [hds] at hlt ⊢
    exact hdigit d (hlt d List.mem_cons_self) hhead

/-- A parameter that is spelled out is read as it was. -/
theorem getParam_spelled {rest : List CChar} (h : isDigit (deref rest) = false)
    (hminus : deref rest ≠ ascii '-') (n : ℕ) :
    getParam (spelled n ++ rest) = (rest, BitVec.ofNat 32 n) := by
  have hne : deref (spelled n ++ rest) ≠ ascii '-' :=
    deref_spelled (P := (· ≠ ascii '-')) (by decide) hminus n
  rw [getParam, if_neg hne, spelled]
  split
  · rename_i hzero
    rw [hzero, List.nil_append]
    exact getParamLoop_stop h _
  · have hloop := getParamLoop_digits (lt_of_mem_digitsOf (b := 10) (n := n) (by decide)) h 0
    have hvalue : (digitsOf 10 n).foldl (fun a d => a * 10 + d) 0 = n :=
      valueOf_digitsOf (b := 10) (by decide)
    rw [hvalue] at hloop
    exact hloop

/-- The effect of a flag. -/
def FlagChar.set (c : FlagChar) (flags : PrintFlags) : PrintFlags :=
  match c with
  | alternate => { flags with alternateForm := true }
  | zero => { flags with padZero := true }
  | minus => { flags with leftJustify := true }
  | space => { flags with space := true }
  | plus => { flags with sign := true }

theorem applyFlag_char (c : FlagChar) (flags : PrintFlags) :
    applyFlag c.char flags = some (c.set flags) := by
  cases c <;> rfl

theorem applyFlag_eq_none {c : CChar} (h : c ∉ "#0- +".toList.map ascii) (flags : PrintFlags) :
    applyFlag c flags = none := by
  have hlist : "#0- +".toList.map ascii = [ascii '#', ascii '0', ascii '-', ascii ' ', ascii '+'] :=
    rfl
  rw [hlist] at h
  simp only [List.mem_cons, List.not_mem_nil, or_false, not_or] at h
  obtain ⟨halt, hzero, hminus, hspace, hplus⟩ := h
  rw [applyFlag, if_neg halt, if_neg hzero, if_neg hminus, if_neg hspace, if_neg hplus]

theorem getFlagsLoop_stop {rest : List CChar} (h : ∀ flags, applyFlag (deref rest) flags = none)
    (flags : PrintFlags) : getFlagsLoop rest flags = (rest, flags) := by
  cases rest with
  | nil => rfl
  | cons c rest =>
    have hc : applyFlag c flags = none := h flags
    rw [getFlagsLoop, hc]

/-- The flags are taken one by one, up to the first character that is none. -/
theorem getFlagsLoop_flags (cs : List FlagChar) {rest : List CChar}
    (h : ∀ flags, applyFlag (deref rest) flags = none) (flags : PrintFlags) :
    getFlagsLoop (cs.map FlagChar.char ++ rest) flags =
      (rest, { flags with
        alternateForm := flags.alternateForm || decide (.alternate ∈ cs)
        padZero := flags.padZero || decide (.zero ∈ cs)
        leftJustify := flags.leftJustify || decide (.minus ∈ cs)
        space := flags.space || decide (.space ∈ cs)
        sign := flags.sign || decide (.plus ∈ cs) }) := by
  induction cs generalizing flags with
  | nil =>
    rw [List.map_nil, List.nil_append, getFlagsLoop_stop h]
    simp
  | cons c cs ih =>
    rw [List.map_cons, List.cons_append, getFlagsLoop, applyFlag_char]
    refine (ih (c.set flags)).trans ?_
    cases c <;> simp [FlagChar.set]

/-- The modifier is taken with its mask and its flags, and the kind of the conversion is left. -/
theorem getLengthModifier_text (modifier : LengthModifier) (conv : NumberConv) (t : List CChar)
    (flags : PrintFlags) (mask : Word) :
    getLengthModifier (modifier.text ++ conv.char :: t) flags mask =
      (conv.char :: t, { flags with
        char := flags.char || modifier = .hh
        short := flags.short || modifier = .h
        long := flags.long || (modifier = .l || modifier = .ll) },
        match modifier with
        | .hh => 0xFF#64
        | .h => 0xFFFF#64
        | _ => mask) := by
  have hne : conv.char ≠ ascii 'h' ∧ conv.char ≠ ascii 'l' := by cases conv <;> decide
  cases modifier <;>
    simp [getLengthModifier, LengthModifier.text, deref, hne, show ascii 'l' ≠ ascii 'h' by decide]

namespace NumberSpec

variable (spec : NumberSpec)

/-- The flags that the source finds. -/
def flagBits : PrintFlags :=
  { alternateForm := .alternate ∈ spec.flags
    padZero := decide (.zero ∈ spec.flags) && !decide (.minus ∈ spec.flags)
    leftJustify := .minus ∈ spec.flags
    sign := .plus ∈ spec.flags
    space := decide (.space ∈ spec.flags) && !decide (.plus ∈ spec.flags)
    char := spec.modifier = .hh
    short := spec.modifier = .h
    long := spec.modifier = .l || spec.modifier = .ll }

/-- The mask of the modifier. -/
def mask : Word :=
  match spec.modifier with
  | .hh => 0xFF#64
  | .h => 0xFFFF#64
  | _ => 0xFFFFFFFFFFFFFFFF#64

/-- The `vars` of the conversion. -/
def vars : PrintVars :=
  { flags := spec.flagBits
    width := spec.width
    precision := spec.precision.getD 0#32
    mask := spec.mask }

/-- A character that the length modifier or the conversion begins with. -/
theorem deref_modifier {P : CChar → Prop}
    (h : ∀ c ∈ "hldiuxX".toList.map ascii, P c) (t : List CChar) :
    P (deref (spec.modifier.text ++ spec.conv.char :: t)) := by
  have hmem : ∀ (m : LengthModifier) (c : NumberConv),
      deref (m.text ++ [c.char]) ∈ "hldiuxX".toList.map ascii := fun m c => by
    cases m <;> cases c <;> decide
  have heq : deref (spec.modifier.text ++ spec.conv.char :: t) =
      deref (spec.modifier.text ++ [spec.conv.char]) := by
    cases spec.modifier <;> rfl
  rw [heq]
  exact h _ (hmem _ _)

theorem deref_precision {P : CChar → Prop}
    (h : ∀ c ∈ ".hldiuxX".toList.map ascii, P c) (t : List CChar) :
    P (deref (spec.precisionText ++ (spec.modifier.text ++ spec.conv.char :: t))) := by
  rw [precisionText]
  split
  · exact deref_modifier spec (fun c hc => h c (List.mem_cons_of_mem _ hc)) t
  · exact h _ List.mem_cons_self

/-- A precision that is spelled out is read as it was, and one that is left out is zero. -/
theorem getPrecision_text (t : List CChar) :
    getPrecision (spec.precisionText ++ (spec.modifier.text ++ spec.conv.char :: t)) =
      (spec.modifier.text ++ spec.conv.char :: t, spec.precision.getD 0#32) := by
  have hpoint := deref_modifier spec (P := (· ≠ ascii '.')) (by decide) t
  have hdigit := deref_modifier spec (P := (isDigit · = false)) (by decide) t
  have hminus := deref_modifier spec (P := (· ≠ ascii '-')) (by decide) t
  rw [getPrecision, precisionText]
  cases spec.precision with
  | none =>
    rw [List.nil_append, if_neg hpoint]
    rfl
  | some precision =>
    have hderef : deref ((ascii '.' :: spelled precision.toNat) ++
        (spec.modifier.text ++ spec.conv.char :: t)) = ascii '.' := rfl
    rw [if_pos hderef, List.cons_append, List.tail_cons, getParam_spelled hdigit hminus,
      BitVec.ofNat_toNat, BitVec.setWidth_eq]
    rfl

/-- The source finds in a conversion what was written there. -/
theorem parseConversion_text (t : List CChar) :
    parseConversion (spec.flags.map FlagChar.char ++ (spelled spec.width.toNat ++
      (spec.precisionText ++ (spec.modifier.text ++ spec.conv.char :: t)))) =
      (spec.vars, spec.conv.char :: t) := by
  have hdigit := deref_precision spec (P := (isDigit · = false)) (by decide) t
  have hminus := deref_precision spec (P := (· ≠ ascii '-')) (by decide) t
  have hnone := deref_precision spec (P := (· ∉ "#0- +".toList.map ascii)) (by decide) t
  have hflag : ∀ flags, applyFlag (deref (spelled spec.width.toNat ++
      (spec.precisionText ++ (spec.modifier.text ++ spec.conv.char :: t)))) flags = none :=
    applyFlag_eq_none (deref_spelled (P := (· ∉ "#0- +".toList.map ascii)) (by decide) hnone _)
  rw [parseConversion, getFlags, getFlagsLoop_flags _ hflag]
  simp only [getParam_spelled hdigit hminus, getPrecision_text, getLengthModifier_text]
  rw [BitVec.ofNat_toNat, BitVec.setWidth_eq]
  simp only [vars, flagBits, mask, Bool.false_or]

theorem char_ne_zero : spec.conv.char ≠ 0#8 := by
  cases spec.conv <;> decide

/-- A conversion that is spelled out has no terminator in it. -/
theorem zero_not_mem_text : 0#8 ∉ spec.text := by
  have hspelled : ∀ n, 0#8 ∉ spelled n := fun n hmem => by
    rw [spelled] at hmem
    split at hmem
    · exact absurd hmem List.not_mem_nil
    · obtain ⟨d, hd, hchar⟩ := List.mem_map.mp hmem
      exact (digitChar_ne false d (Nat.lt_trans (lt_of_mem_digitsOf (by decide) d hd)
        (by decide))).1 hchar
  have hflags : 0#8 ∉ spec.flags.map FlagChar.char := fun hmem => by
    obtain ⟨c, -, hc⟩ := List.mem_map.mp hmem
    cases c <;> exact absurd hc (by decide)
  have hprecision : 0#8 ∉ spec.precisionText := fun hmem => by
    rw [precisionText] at hmem
    split at hmem
    · exact absurd hmem List.not_mem_nil
    · obtain hpoint | hrest := List.mem_cons.mp hmem
      · exact absurd hpoint (by decide)
      · exact hspelled _ hrest
  have hmodifier : 0#8 ∉ spec.modifier.text := by
    cases spec.modifier <;> decide
  rw [text]
  simp only [List.mem_cons, List.mem_append, List.not_mem_nil, or_false, not_or]
  exact ⟨by decide, hflags, hspelled _, hprecision, hmodifier, (char_ne_zero spec).symm⟩

/-- The format that consists of the conversion. -/
def format : CString := ⟨spec.text, spec.zero_not_mem_text⟩

/-- The conversion is all that is printed. -/
theorem rendering_format (tail : List CChar) (args : PrintArgs) :
    ∃ start fmt, rendering spec.format tail args =
      render EmitCall.text
        (printConversion spec.vars spec.conv.char start fmt args (args.slot 0)).1 := by
  have hfmt : spec.format.val ++ 0#8 :: tail =
      ascii '%' :: (spec.flags.map FlagChar.char ++ (spelled spec.width.toNat ++
        (spec.precisionText ++ (spec.modifier.text ++ spec.conv.char :: 0#8 :: tail)))) := by
    simp [format, text]
  have h0 : deref (spec.format.val ++ 0#8 :: tail) ≠ 0#8 := by
    rw [hfmt]
    exact (by decide : ascii '%' ≠ 0#8)
  have hlit : isLiteral (ascii '%') = false := by decide
  have hdrop : (spec.format.val ++ 0#8 :: tail).dropWhile isLiteral =
      spec.format.val ++ 0#8 :: tail := by
    rw [hfmt, List.dropWhile_cons, hlit]
    rfl
  have htake : (spec.format.val ++ 0#8 :: tail).takeWhile isLiteral = [] := by
    rw [hfmt, List.takeWhile_cons, hlit]
    rfl
  have hpercent : deref ((spec.format.val ++ 0#8 :: tail).dropWhile isLiteral) = ascii '%' := by
    rw [hdrop, hfmt]
    rfl
  have hparse : parseConversion (spec.format.val ++ 0#8 :: tail).tail =
      (spec.vars, spec.conv.char :: 0#8 :: tail) := by
    rw [hfmt, List.tail_cons, parseConversion_text]
  have hend : ∀ i, doPrint args i (0#8 :: tail) = ([], 0#8 :: tail) := fun i =>
    doPrint_end args i rfl
  refine ⟨spec.format.val ++ 0#8 :: tail, 0#8 :: tail, ?_⟩
  rw [rendering, emitted, doPrint_conversion args 0 h0 hpercent, hdrop, htake, conversionAt, hparse]
  simp only [List.tail_cons, hend, List.append_nil, render_cons]
  rfl

end NumberSpec

/-! ## What the source prints

The text of the source is found by evaluating `do_print` on the format of one conversion: prefix
and digits as the two functions make them, padded by `format_number`. -/

theorem mem_numeral {upper : Bool} {base n : ℕ} (hb : 1 < base) (hle : base ≤ 16) {c : CChar}
    (h : c ∈ numeral upper base n) : ∃ d < 16, digitChar upper d = c := by
  obtain ⟨d, hd, rfl⟩ := List.mem_map.mp h
  exact ⟨d, Nat.lt_of_lt_of_le (lt_of_mem_digitsOf hb d hd) hle, rfl⟩

theorem zero_not_mem_numeral {upper : Bool} {base n : ℕ} (hb : 1 < base) (hle : base ≤ 16) :
    0#8 ∉ numeral upper base n := fun hmem => by
  obtain ⟨d, hd, hc⟩ := mem_numeral hb hle hmem
  exact (digitChar_ne upper d hd).1 hc

/-- **No digit is written outside the two buffers** of 20 and 22 characters. -/
def DigitsInBuffers : Prop :=
  (∀ v, (decimalDigits v).length ≤ 20) ∧
    ∀ (upper : Bool) v,
      (pow2Loop (if upper then upperHexDigits else lowerHexDigits) 4 64 v []).length ≤ 22

/-- A number of 64 bits has as many digits as the largest of them. -/
theorem length_numeral_le {upper : Bool} {base k : ℕ} (hb : 1 < base) (hk : 0 < k) (v : Word)
    (h : 2 ^ 64 ≤ base ^ k) : (numeral upper base v.toNat).length ≤ k := by
  rw [numeral, List.length_map]
  exact length_digitsOf_le hb hk (Nat.lt_of_lt_of_le v.isLt h)

theorem pow2Loop_numeral (upper : Bool) (v : Word) :
    pow2Loop (if upper then upperHexDigits else lowerHexDigits) 4 64 v [] =
      numeral upper 16 v.toNat := by
  rw [pow2Loop_eq upper 63 v [] (Nat.lt_trans v.isLt (by norm_num)), List.append_nil]

theorem digitsInBuffers : DigitsInBuffers := by
  refine ⟨fun v => ?_, fun upper v => ?_⟩
  · rw [decimalDigits_eq]
    exact length_numeral_le (by decide) (by decide) v (by norm_num)
  · rw [pow2Loop_numeral]
    exact length_numeral_le (by decide) (by decide) v (by norm_num)

/-- The prefix of `print_decimal`. -/
def signText (flags : PrintFlags) (negative : Bool) : List CChar :=
  if negative then [ascii '-']
  else if flags.sign then [ascii '+']
  else if flags.space then [ascii ' ']
  else []

theorem length_numeral_add_lt {upper : Bool} {base : ℕ} (hb : 10 ≤ base) (v : Word)
    {pfx : List CChar} (hpfx : pfx.length ≤ 2) :
    (numeral upper base v.toNat).length + pfx.length < 2 ^ 32 := by
  have hpow : 2 ^ 64 ≤ base ^ 20 := Nat.le_trans (by norm_num) (Nat.pow_le_pow_left hb 20)
  have := @length_numeral_le upper base 20 (by omega) (by decide) v hpow
  omega

/-- What `print_decimal` prints: the sign is its prefix, and the rest is left to `format_number`. -/
theorem render_printDecimal {vars : PrintVars} (hpfx : vars.prefixChars = none)
    (hlen : vars.prefixlen = 0#32) {v : Word} {negative : Bool}
    (hneg : (!vars.flags.uint32 && v.slt 0#64) = negative) :
    render EmitCall.text (printDecimal vars v) =
      paddedText vars.flags vars.width vars.precision (signText vars.flags negative)
        (numeral false 10 (if negative then -v else v &&& vars.mask).toNat) := by
  have hvalue0 : ∀ n, 0#8 ∉ numeral false 10 n := fun n =>
    zero_not_mem_numeral (by decide) (by decide)
  have hfit := fun (w : Word) (pfx : List CChar) (h : pfx.length ≤ 2) =>
    @length_numeral_add_lt false 10 (Nat.le_refl 10) w pfx h
  simp only [printDecimal, decimalDigits_eq, hneg, signText]
  split
  · exact render_formatNumber rfl rfl rfl rfl (by decide) (hvalue0 _) (hfit _ _ (by decide))
  · split
    · exact render_formatNumber rfl rfl rfl rfl (by decide) (hvalue0 _) (hfit _ _ (by decide))
    · split
      · exact render_formatNumber rfl rfl rfl rfl (by decide) (hvalue0 _) (hfit _ _ (by decide))
      · exact render_formatNumber (by rw [hpfx]; rfl) hlen rfl rfl List.not_mem_nil (hvalue0 _)
          (hfit _ _ (by decide))

/-- The prefix of `print_pow2`. -/
def hexPrefix (flags : PrintFlags) (v : Word) : List CChar :=
  if v = 0#64 ∧ flags.alternateForm then [ascii '0', ascii (if flags.upper then 'X' else 'x')]
  else []

/-- What `print_pow2` prints: in the alternate form the prefix stands in front of zero, and of
nothing else. -/
theorem render_printPow2 {vars : PrintVars} (hpfx : vars.prefixChars = none)
    (hlen : vars.prefixlen = 0#32) (v : Word) :
    render EmitCall.text (printPow2 vars v 4) =
      paddedText vars.flags vars.width vars.precision (hexPrefix vars.flags (v &&& vars.mask))
        (numeral vars.flags.upper 16 (v &&& vars.mask).toNat) := by
  have hvalue0 : 0#8 ∉ numeral vars.flags.upper 16 (v &&& vars.mask).toNat :=
    zero_not_mem_numeral (by decide) (by decide)
  have hx : (if vars.flags.upper then upperHexDigits else lowerHexDigits).getD 16 0#8 =
      ascii (if vars.flags.upper then 'X' else 'x') := by
    cases vars.flags.upper <;> rfl
  have hx0 : 0#8 ∉ [ascii '0', ascii (if vars.flags.upper then 'X' else 'x')] := by
    cases vars.flags.upper <;> decide
  simp only [printPow2, pow2Loop_numeral, hx, if_true, hexPrefix]
  split
  · exact render_formatNumber rfl rfl rfl rfl hx0 hvalue0
      (length_numeral_add_lt (by decide) _ (Nat.le_refl 2))
  · exact render_formatNumber (by rw [hpfx]; rfl) hlen rfl rfl List.not_mem_nil hvalue0
      (length_numeral_add_lt (by decide) _ (Nat.zero_le 2))

namespace NumberSpec

variable (spec : NumberSpec) (arg : Word)

/-- The argument as the source takes it from the list. -/
def passed : Word :=
  if spec.flagBits.long then arg
  else if spec.conv.signed then (arg.setWidth 32).signExtend 64
  else (arg.setWidth 32).setWidth 64

/-- The text of the conversion: the padded digits of a number, with a prefix. -/
def padded (pfx value : List CChar) : List CChar :=
  paddedText spec.flagBits spec.width (spec.precision.getD 0#32) pfx value

section

variable {spec} (tail : List CChar) (args : PrintArgs)

/-- What `%d` and `%i` print: a negative argument is negated first, and so its digits are those of
its absolute value. -/
theorem rendering_signed (h : spec.conv.signed = true) :
    rendering spec.format tail args =
      let v := spec.passed (args.slot 0)
      spec.padded (signText spec.flagBits (v.slt 0#64))
        (numeral false 10 (if v.slt 0#64 then -v else v &&& spec.mask).toNat) := by
  obtain ⟨start, fmt, hrender⟩ := rendering_format spec tail args
  have hchar : spec.conv.char ≠ ascii '%' ∧
      (spec.conv.char = ascii 'd' ∨ spec.conv.char = ascii 'i') := by
    cases hc : spec.conv <;> rw [hc] at h <;> first | exact absurd h (by decide) | decide
  have hpassed : (if spec.flagBits.long then args.slot 0
      else ((args.slot 0).setWidth 32).signExtend 64) = spec.passed (args.slot 0) := by
    rw [passed, if_pos h]
  have hcall : (printConversion spec.vars spec.conv.char start fmt args (args.slot 0)).1 =
      printDecimal spec.vars (spec.passed (args.slot 0)) := by
    rw [printConversion, if_neg hchar.1, if_pos hchar.2, ← hpassed]
    rfl
  rw [hrender, hcall]
  exact render_printDecimal rfl rfl rfl

/-- What `%u` prints: with the flags for a sign, even a number without one gets a prefix. -/
theorem rendering_unsigned (h : spec.conv = .u) :
    rendering spec.format tail args =
      spec.padded (signText spec.flagBits false)
        (numeral false 10 (spec.passed (args.slot 0) &&& spec.mask).toNat) := by
  obtain ⟨start, fmt, hrender⟩ := rendering_format spec tail args
  have hpassed : (if spec.flagBits.long then args.slot 0
      else ((args.slot 0).setWidth 32).setWidth 64) = spec.passed (args.slot 0) := by
    rw [passed, h]
    rfl
  have hcall : (printConversion spec.vars spec.conv.char start fmt args (args.slot 0)).1 =
      printDecimal { spec.vars with flags := { spec.flagBits with uint32 := true } }
        (spec.passed (args.slot 0)) := by
    rw [printConversion, h, if_neg (by decide), if_neg (by decide), if_pos (by decide), ← hpassed]
    rfl
  have hpad : ∀ pfx value, paddedText { spec.flagBits with uint32 := true } spec.width
      (spec.precision.getD 0#32) pfx value = spec.padded pfx value := fun _ _ => rfl
  have hdecimal := @render_printDecimal
    { spec.vars with flags := { spec.flagBits with uint32 := true } } rfl rfl
    (spec.passed (args.slot 0)) false rfl
  rw [hrender, hcall, hdecimal, if_neg Bool.false_ne_true]
  exact hpad _ _

/-- What `%x` and `%X` print: with the alternate flag, zero is the only number that gets a
prefix. -/
theorem rendering_hex (h : spec.conv.base = 16) :
    rendering spec.format tail args =
      let v := spec.passed (args.slot 0) &&& spec.mask
      spec.padded (hexPrefix { spec.flagBits with upper := spec.conv.upper } v)
        (numeral spec.conv.upper 16 v.toNat) := by
  obtain ⟨start, fmt, hrender⟩ := rendering_format spec tail args
  have hcall : (printConversion spec.vars spec.conv.char start fmt args (args.slot 0)).1 =
      printPow2 { spec.vars with flags := { spec.flagBits with upper := spec.conv.upper } }
        (spec.passed (args.slot 0)) 4 := by
    have hpassed : spec.conv.signed = false → (if spec.flagBits.long then args.slot 0
        else ((args.slot 0).setWidth 32).setWidth 64) = spec.passed (args.slot 0) := fun hs => by
      rw [passed, hs]
      rfl
    rw [printConversion]
    cases hc : spec.conv <;> rw [hc] at h hpassed <;>
      first
        | exact absurd h (by decide)
        | rw [if_neg (by decide), if_neg (by decide), if_neg (by decide), if_pos (by decide),
            ← hpassed rfl]
          rfl
  have hpad : ∀ pfx value, paddedText { spec.flagBits with upper := spec.conv.upper } spec.width
      (spec.precision.getD 0#32) pfx value = spec.padded pfx value := fun _ _ => rfl
  have hpow2 := @render_printPow2
    { spec.vars with flags := { spec.flagBits with upper := spec.conv.upper } } rfl rfl
    (spec.passed (args.slot 0))
  rw [hrender, hcall, hpow2]
  exact hpad _ _

end

/-! ### The values -/

/-- The number that the source prints for a signed argument: a negative one as it is, another
one under the mask. -/
def shown : ℤ :=
  if (spec.passed arg).toInt < 0 then (spec.passed arg).toInt
  else (spec.passed arg).toInt % 2 ^ spec.modifier.bits

/-- What is printed for a signed argument is its value in the type of the modifier. -/
def SignedFits : Prop :=
  ((spec.passed arg).toInt < 0 → -2 ^ (spec.modifier.bits - 1) ≤ (spec.passed arg).toInt) ∧
    (0 ≤ (spec.passed arg).toInt →
      (spec.passed arg).toInt % 2 ^ spec.modifier.bits < 2 ^ (spec.modifier.bits - 1))

/-- A signed argument is taken from the list in the width of `int` or of `long`, whatever `h` and
`hh` say. -/
theorem passed_toInt (h : spec.conv.signed = true) :
    (spec.passed arg).toInt = (arg.setWidth spec.modifier.passedBits).toInt := by
  rw [passed, if_pos h, flagBits]
  cases spec.modifier <;>
    simp [LengthModifier.passedBits, -BitVec.toInt_setWidth, BitVec.toInt_signExtend_of_le]

/-- The integer as a signed number of `w` bits. -/
theorem toInt_setWidth_cond (w : ℕ) : (arg.setWidth w).toInt =
    if 2 * (arg.toNat % 2 ^ w) < 2 ^ w then ((arg.toNat % 2 ^ w : ℕ) : ℤ)
    else ((arg.toNat % 2 ^ w : ℕ) : ℤ) - (2 ^ w : ℕ) := by
  rw [BitVec.toInt_eq_toNat_cond, BitVec.toNat_setWidth]

/-- What is shown of a signed argument is what was to be converted if it fits in the type of the
modifier. -/
theorem shown_eq_iff (h : spec.conv.signed = true) :
    spec.shown arg = spec.converted arg ↔ spec.SignedFits arg := by
  have hp := (passed_toInt spec arg h).trans (toInt_setWidth_cond arg _)
  have hT := toInt_setWidth_cond arg spec.modifier.bits
  have hlt := arg.isLt
  rw [shown, SignedFits, converted, if_pos h, hT]
  cases hm : spec.modifier <;> rw [hm] at hp <;>
    simp only [LengthModifier.bits, LengthModifier.passedBits] at hp ⊢ <;> split <;> omega

/-- The mask of the modifier is a truncation, where the modifier is `h` or `hh`. -/
theorem toNat_and_mask (v : Word) :
    (v &&& spec.mask).toNat =
      v.toNat % 2 ^ if spec.modifier.bits < 32 then spec.modifier.bits else 64 := by
  have hmask : spec.mask.toNat =
      2 ^ (if spec.modifier.bits < 32 then spec.modifier.bits else 64) - 1 := by
    rw [mask]
    cases spec.modifier <;> decide
  rw [BitVec.toNat_and, hmask, Nat.and_two_pow_sub_one_eq_mod]

/-- The digits of a signed number are those of its absolute value, the least one included. -/
theorem magnitude_signed (h : spec.conv.signed = true) :
    (if (spec.passed arg).slt 0#64 then -spec.passed arg
      else spec.passed arg &&& spec.mask).toNat = (spec.shown arg).natAbs := by
  have hp := (passed_toInt spec arg h).trans (toInt_setWidth_cond arg _)
  have hslt : (spec.passed arg).slt 0#64 = decide ((spec.passed arg).toInt < 0) := by
    rw [BitVec.slt, BitVec.toInt_zero]
  have hv := BitVec.toInt_eq_toNat_cond (spec.passed arg)
  have hlt := (spec.passed arg).isLt
  rw [hslt, shown]
  simp only [decide_eq_true_eq]
  split
  · rw [BitVec.toNat_neg]
    omega
  · rw [toNat_and_mask]
    cases hm : spec.modifier <;> rw [hm] at hp <;>
      simp only [LengthModifier.bits, LengthModifier.passedBits] at hp ⊢ <;> simp <;> omega

theorem magnitude_unsigned (h : spec.conv.signed = false) :
    (spec.passed arg &&& spec.mask).toNat = (spec.converted arg).natAbs := by
  have hp : (spec.passed arg).toNat = arg.toNat % 2 ^ spec.modifier.passedBits := by
    rw [passed, h, flagBits]
    cases spec.modifier <;> simp [LengthModifier.passedBits]
    all_goals omega
  have hT : (spec.converted arg).natAbs = arg.toNat % 2 ^ spec.modifier.bits := by
    rw [converted, h, if_neg Bool.false_ne_true, Int.natAbs_natCast, BitVec.toNat_setWidth]
  have hlt := arg.isLt
  rw [toNat_and_mask, hp, hT]
  cases spec.modifier <;> simp [LengthModifier.bits, LengthModifier.passedBits]
  omega

/-! ### Blanks and zeros

Apart from blanks a text has only one reading, so the prefix and the digits of the source can be
compared with those that are asked for. What remains is the precision, which the source counts with
the prefix. -/

/-- The precision is not cut short by a prefix of `k` characters: there is none, or the digits are
enough without zeros, or zero padding makes up for it. -/
def PrecisionFits (k digits : ℕ) : Prop :=
  k = 0 ∨ (spec.precision.getD 0#32).toNat ≤ digits ∨
    (.zero ∈ spec.flags ∧ .minus ∉ spec.flags ∧
      (spec.precision.getD 0#32).toNat + k ≤ spec.width.toNat)

/-- The padding of `len` characters. -/
def padding (len : ℕ) : Padding :=
  paddingOf spec.flagBits spec.width.toNat (spec.precision.getD 0#32).toNat len

theorem padding_lead (len : ℕ) : (spec.padding len).lead =
    if .minus ∈ spec.flags ∨ .zero ∈ spec.flags then 0
    else spec.width.toNat - max (spec.precision.getD 0#32).toNat len := by
  by_cases hm : .minus ∈ spec.flags <;> by_cases hz : .zero ∈ spec.flags <;>
    simp [padding, paddingOf, flagBits, hm, hz]

theorem padding_zeros (len : ℕ) : (spec.padding len).zeros =
    (if .minus ∉ spec.flags ∧ .zero ∈ spec.flags then
      spec.width.toNat - max (spec.precision.getD 0#32).toNat len else 0) +
      ((spec.precision.getD 0#32).toNat - len) := by
  by_cases hm : .minus ∈ spec.flags <;> by_cases hz : .zero ∈ spec.flags <;>
    simp [padding, paddingOf, flagBits, hm, hz]

theorem padding_trail (len : ℕ) : (spec.padding len).trail =
    if .minus ∈ spec.flags then spec.width.toNat - max (spec.precision.getD 0#32).toNat len
    else 0 := by
  by_cases hm : .minus ∈ spec.flags <;> simp [padding, paddingOf, flagBits, hm]

/-- The digits and the zeros reach the precision exactly if the prefix, which is counted with them,
leaves enough. -/
theorem precisionFits_iff (k digits : ℕ) :
    (spec.precision.getD 0#32).toNat ≤ (spec.padding (digits + k)).zeros + digits ↔
      spec.PrecisionFits k digits := by
  rw [padding_zeros, PrecisionFits]
  by_cases hm : .minus ∈ spec.flags <;> by_cases hz : .zero ∈ spec.flags <;>
    simp only [hm, hz, not_true_eq_false, not_false_eq_true, and_true, and_false, true_and,
      false_and, or_false, if_true, if_false] <;> omega

/-- A printed number is as long as it is itself, or as the precision or the width where these are
larger. -/
theorem length_padded (pfx value : List CChar) :
    (spec.padded pfx value).length = max spec.width.toNat
      (max (spec.precision.getD 0#32).toNat (value.length + pfx.length)) := by
  have hpadded : spec.padded pfx value =
      (spec.padding (value.length + pfx.length)).apply pfx value := rfl
  rw [hpadded, Padding.apply]
  simp only [List.length_append, List.length_replicate, padding_lead, padding_zeros, padding_trail]
  by_cases hm : .minus ∈ spec.flags <;> by_cases hz : .zero ∈ spec.flags <;>
    simp only [hm, hz, not_true_eq_false, not_false_eq_true, and_true, and_false, or_true, or_false,
      if_true, if_false] <;> omega

/-- The characters other than blanks. -/
def nonblank (l : List CChar) : List CChar := l.filter (· ≠ ascii ' ')

theorem nonblank_append (l l' : List CChar) : nonblank (l ++ l') = nonblank l ++ nonblank l' :=
  List.filter_append ..

theorem nonblank_eq_nil {l : List CChar} (h : ∀ c ∈ l, c = ascii ' ') : nonblank l = [] :=
  List.filter_eq_nil_iff.mpr fun c hc => by simp [h c hc]

theorem base_le : spec.conv.base ≤ 16 := by
  cases spec.conv <;> decide

theorem one_lt_base : 1 < spec.conv.base := by
  cases spec.conv <;> decide

variable {spec arg}

/-- A numeral has no other characters than digits in it. -/
theorem reads_ne {n : ℕ} {l : List CChar}
    (h : ReadsAs (digitChar spec.conv.upper) spec.conv.base l n) {c : CChar} (hc : c ∈ l) :
    c ≠ ascii ' ' ∧ c ≠ ascii '-' ∧ c ≠ ascii '+' ∧ c ≠ ascii 'x' ∧ c ≠ ascii 'X' := by
  obtain ⟨d, hd, rfl⟩ := h.mem hc
  exact (digitChar_ne _ d (Nat.lt_of_lt_of_le hd spec.base_le)).2

/-- A numeral has no blanks. -/
theorem nonblank_reads {n : ℕ} {l : List CChar}
    (h : ReadsAs (digitChar spec.conv.upper) spec.conv.base l n) : nonblank l = l :=
  List.filter_eq_self.mpr fun _ hc => decide_eq_true (reads_ne h hc).1

/-- A numeral is read as one number only. -/
theorem reads_unique {n m : ℕ} {l : List CChar}
    (h : ReadsAs (digitChar spec.conv.upper) spec.conv.base l n)
    (h' : ReadsAs (digitChar spec.conv.upper) spec.conv.base l m) : n = m :=
  h.unique (fun d hd e he => digitChar_inj _ d (Nat.lt_of_lt_of_le hd spec.base_le) e
    (Nat.lt_of_lt_of_le he spec.base_le)) h'

/-- The digits that the source prints, zeros included. -/
theorem reads_zeros (z n : ℕ) : ReadsAs (digitChar spec.conv.upper) spec.conv.base
    (List.replicate z (ascii '0') ++ numeral spec.conv.upper spec.conv.base n) n := by
  have hzero : digitChar spec.conv.upper 0 = ascii '0' := by cases spec.conv <;> decide
  rw [← hzero]
  exact readsAs_zeros _ spec.one_lt_base z n

theorem nonblank_padded (pfx : List CChar) (n : ℕ) :
    nonblank (spec.padded pfx (numeral spec.conv.upper spec.conv.base n)) =
      nonblank pfx ++ (List.replicate (spec.padding
        ((numeral spec.conv.upper spec.conv.base n).length + pfx.length)).zeros (ascii '0') ++
        numeral spec.conv.upper spec.conv.base n) := by
  have hblank : ∀ k, nonblank (List.replicate k (ascii ' ')) = [] := fun k =>
    nonblank_eq_nil fun _ hc => List.eq_of_mem_replicate hc
  rw [padded, paddedText, Padding.apply, nonblank_append, nonblank_append, nonblank_append, hblank,
    hblank, nonblank_reads (reads_zeros _ n), List.nil_append, List.append_nil]
  rfl

section

variable {out lead digits trail : List CChar}

/-- Without its blanks a printed number is its prefix and its digits. -/
theorem Printed.nonblank_eq (h : spec.Printed arg out lead digits trail) :
    nonblank out = nonblank (spec.prefixText arg) ++ digits := by
  rw [h.text, nonblank_append, nonblank_append, nonblank_append, nonblank_eq_nil h.lead_blank,
    nonblank_eq_nil h.trail_blank, nonblank_reads h.reads, List.nil_append, List.append_nil]

end

/-- With the prefix that the conversion asks for the text is right, if and only if the precision
is not cut short. -/
theorem printed_prefix_iff :
    (∃ lead digits trail, spec.Printed arg (spec.padded (spec.prefixText arg)
        (numeral spec.conv.upper spec.conv.base (spec.converted arg).natAbs)) lead digits trail) ↔
      spec.PrecisionFits (spec.prefixText arg).length
        (numeral spec.conv.upper spec.conv.base (spec.converted arg).natAbs).length := by
  set value := numeral spec.conv.upper spec.conv.base (spec.converted arg).natAbs with hvalue
  rw [← precisionFits_iff]
  set pad := spec.padding (value.length + (spec.prefixText arg).length) with hpad
  have hlen : (List.replicate pad.zeros (ascii '0') ++ value).length =
      pad.zeros + value.length := by
    rw [List.length_append, List.length_replicate]
  constructor
  · rintro ⟨lead, digits, trail, h⟩
    have hdigits : digits = List.replicate pad.zeros (ascii '0') ++ value :=
      List.append_cancel_left (h.nonblank_eq.symm.trans (nonblank_padded _ _))
    rw [← hlen, ← hdigits]
    exact h.precision
  · intro hfits
    have hlead := spec.padding_lead (value.length + (spec.prefixText arg).length)
    have htrail := spec.padding_trail (value.length + (spec.prefixText arg).length)
    have hout := spec.length_padded (spec.prefixText arg) value
    rw [← hpad] at hlead htrail
    refine ⟨List.replicate pad.lead (ascii ' '), List.replicate pad.zeros (ascii '0') ++ value,
      List.replicate pad.trail (ascii ' '), ?_⟩
    exact {
      text := rfl
      reads := reads_zeros _ _
      precision := by rw [hlen]; exact hfits
      width := by rw [hout]; exact Nat.le_max_left _ _
      lead_blank := fun _ hc => List.eq_of_mem_replicate hc
      trail_blank := fun _ hc => List.eq_of_mem_replicate hc
      lead_nil := fun hflags => by rw [hlead, if_pos hflags]; rfl
      trail_nil := fun hflag => by rw [htrail, if_neg hflag]; rfl
      only := fun hne => by
        have hpos : 0 < pad.lead ∨ 0 < pad.trail := hne.imp
          (fun h => Nat.pos_of_ne_zero fun hzero => h (by rw [hzero]; rfl))
          (fun h => Nat.pos_of_ne_zero fun hzero => h (by rw [hzero]; rfl))
        rw [hlead, htrail] at hpos
        rw [hout]
        split_ifs at hpos <;> omega }

/-! ### The three kinds of numbers -/

theorem prefixText_signed (h : spec.conv.signed = true) :
    spec.prefixText arg = signText spec.flagBits (spec.converted arg < 0) := by
  have hpfx : spec.prefixText arg =
      if spec.converted arg < 0 then [ascii '-']
      else if .plus ∈ spec.flags then [ascii '+']
      else if .space ∈ spec.flags then [ascii ' ']
      else [] := by
    rw [prefixText]
    cases hc : spec.conv <;> rw [hc] at h <;> first | rfl | exact absurd h (by decide)
  rw [hpfx, signText]
  by_cases hneg : spec.converted arg < 0 <;> by_cases hplus : .plus ∈ spec.flags <;>
    simp [hneg, hplus, flagBits]

/-- A minus sign is there for negative numbers only. -/
theorem minus_mem_iff {negative : Bool} {n : ℕ} {l : List CChar}
    (h : ReadsAs (digitChar spec.conv.upper) spec.conv.base l n) :
    ascii '-' ∈ nonblank (signText spec.flagBits negative) ++ l ↔ negative = true := by
  have hl : ascii '-' ∉ l := fun hmem => (reads_ne h hmem).2.1 rfl
  rw [List.mem_append, or_iff_left hl, signText]
  cases negative with
  | true => simp [nonblank, show ascii '-' ≠ ascii ' ' by decide]
  | false =>
    have hplus : ascii '-' ≠ ascii '+' := by decide
    have hspace : ascii '-' ≠ ascii ' ' := by decide
    cases spec.flagBits.sign <;> cases spec.flagBits.space <;> simp [nonblank, hplus, hspace]

/-- A signed number: the sign and the digits are those of the number that the source takes for the
converted one. -/
theorem printed_signed_iff (h : spec.conv.signed = true) {n : ℤ} :
    (∃ lead digits trail, spec.Printed arg (spec.padded (signText spec.flagBits (n < 0))
        (numeral spec.conv.upper spec.conv.base n.natAbs)) lead digits trail) ↔
      n = spec.converted arg ∧ spec.PrecisionFits (spec.prefixText arg).length
        (numeral spec.conv.upper spec.conv.base (spec.converted arg).natAbs).length := by
  have hpfx : spec.prefixText arg = _ := prefixText_signed h
  constructor
  · rintro ⟨lead, digits, trail, hprinted⟩
    have htext := hprinted.nonblank_eq.symm.trans (nonblank_padded _ _)
    have hzeros := @reads_zeros spec (spec.padding
      ((numeral spec.conv.upper spec.conv.base n.natAbs).length +
        (signText spec.flagBits (n < 0)).length)).zeros n.natAbs
    have hsign : decide (spec.converted arg < 0) = decide (n < 0) := by
      rw [hpfx] at htext
      rw [Bool.eq_iff_iff, ← minus_mem_iff hprinted.reads, htext]
      exact minus_mem_iff hzeros
    rw [hpfx, hsign] at htext
    have hdigits := List.append_cancel_left htext
    have habs := reads_unique hprinted.reads (by rw [hdigits]; exact hzeros)
    have hn : n = spec.converted arg := by
      have := decide_eq_decide.mp hsign
      omega
    refine ⟨hn, printed_prefix_iff.mp ⟨lead, digits, trail, ?_⟩⟩
    rw [hpfx, hsign, ← hn]
    exact hprinted
  · rintro ⟨rfl, hfits⟩
    rw [← hpfx]
    exact printed_prefix_iff.mpr hfits

/-- An unsigned number: a sign or a blank in front of it is wrong, but for a blank that the padding
asks for as well. -/
theorem printed_unsigned_iff (h : spec.conv = .u) :
    (∃ lead digits trail, spec.Printed arg (spec.padded (signText spec.flagBits false)
        (numeral spec.conv.upper spec.conv.base (spec.converted arg).natAbs)) lead digits trail) ↔
      .plus ∉ spec.flags ∧ (.space ∈ spec.flags → .minus ∉ spec.flags ∧ .zero ∉ spec.flags ∧
        (spec.precision.getD 0#32).toNat ≤
          (numeral spec.conv.upper spec.conv.base (spec.converted arg).natAbs).length ∧
        (numeral spec.conv.upper spec.conv.base (spec.converted arg).natAbs).length + 1 ≤
          spec.width.toNat) := by
  have hnone : spec.prefixText arg = [] := by rw [prefixText, h]
  by_cases hplus : .plus ∈ spec.flags
  · -- the plus sign is not among the digits
    have hsign : signText spec.flagBits false = [ascii '+'] := by simp [signText, flagBits, hplus]
    rw [hsign]
    refine ⟨fun ⟨lead, digits, trail, hprinted⟩ => ?_, fun hfits => absurd hplus hfits.1⟩
    have htext := hprinted.nonblank_eq.symm.trans (nonblank_padded _ _)
    rw [hnone] at htext
    have hmem : ascii '+' ∈ digits := by
      have hkeep : nonblank [ascii '+'] = [ascii '+'] := by decide
      rw [show digits = nonblank [] ++ digits from rfl, htext, hkeep]
      exact List.mem_cons_self
    exact absurd rfl (reads_ne hprinted.reads hmem).2.2.1
  · by_cases hspace : .space ∈ spec.flags
    · have hsign : signText spec.flagBits false = [ascii ' '] := by
        simp [signText, flagBits, hplus, hspace]
      rw [hsign]
      set value := numeral spec.conv.upper spec.conv.base (spec.converted arg).natAbs with hvalue
      have hout := spec.length_padded [ascii ' '] value
      have hlead := spec.padding_lead (value.length + 1)
      have hzeros := spec.padding_zeros (value.length + 1)
      have htrail := spec.padding_trail (value.length + 1)
      have hpadded : spec.padded [ascii ' '] value =
          (spec.padding (value.length + 1)).apply [ascii ' '] value := rfl
      rw [List.length_singleton] at hout
      constructor
      · rintro ⟨lead, digits, trail, hprinted⟩
        have hdigits : digits =
            List.replicate (spec.padding (value.length + 1)).zeros (ascii '0') ++ value := by
          have htext := hprinted.nonblank_eq.symm.trans (nonblank_padded [ascii ' '] _)
          rw [hnone] at htext
          exact htext
        have hlen : digits.length =
            (spec.padding (value.length + 1)).zeros + value.length := by
          rw [hdigits, List.length_append, List.length_replicate]
        have htext := hprinted.text
        rw [hnone, List.nil_append] at htext
        have hflags : ¬ (.minus ∈ spec.flags ∨ .zero ∈ spec.flags) := fun hflags => by
          -- no blank may come first then, but the source begins with one
          rw [hprinted.lead_nil hflags, List.nil_append, hpadded, Padding.apply, hlead,
            if_pos hflags] at htext
          obtain ⟨c, ds, hcons⟩ := List.exists_cons_of_ne_nil hprinted.reads.ne_nil
          rw [hcons] at htext
          have hc : ascii ' ' = c := (List.cons.inj htext).1
          exact (reads_ne hprinted.reads (hcons ▸ List.mem_cons_self)).1 hc.symm
        obtain ⟨hminus, hzero⟩ := not_or.mp hflags
        rw [if_neg (fun hboth => hzero hboth.2), Nat.zero_add] at hzeros
        have hprecision := hprinted.precision
        have hle : (spec.precision.getD 0#32).toNat ≤ value.length := by omega
        have hne : lead ≠ [] := fun hnil => by
          have hlength := congrArg List.length htext
          rw [hnil, hprinted.trail_nil hminus, List.nil_append, List.append_nil, hout] at hlength
          omega
        have hwidth := hprinted.only (Or.inl hne)
        rw [hout] at hwidth
        exact ⟨hplus, fun _ => ⟨hminus, hzero, hle, by omega⟩⟩
      · rintro ⟨-, hfits⟩
        obtain ⟨hminus, hzero, hle, hwidth⟩ := hfits hspace
        rw [if_neg (not_or.mpr ⟨hminus, hzero⟩)] at hlead
        rw [if_neg (fun hboth => hzero hboth.2)] at hzeros
        rw [if_neg hminus] at htrail
        have hnozeros : (spec.padding (value.length + 1)).zeros = 0 := by omega
        refine ⟨List.replicate ((spec.padding (value.length + 1)).lead + 1) (ascii ' '), value, [],
          ?_⟩
        exact {
          text := by
            rw [hpadded, Padding.apply, hnozeros, htrail, hnone, List.replicate_succ']
            simp
          reads := reads_zeros 0 _
          precision := hle
          width := by rw [hout]; exact Nat.le_max_left _ _
          lead_blank := fun _ hc => List.eq_of_mem_replicate hc
          trail_blank := fun _ hc => absurd hc List.not_mem_nil
          lead_nil := fun hflags => absurd hflags (not_or.mpr ⟨hminus, hzero⟩)
          trail_nil := fun _ => rfl
          only := fun _ => by rw [hout]; omega }
    · have hsign : signText spec.flagBits false = [] := by
        simp [signText, flagBits, hplus, hspace]
      rw [hsign, ← hnone, printed_prefix_iff, hnone]
      exact ⟨fun _ => ⟨hplus, fun hmem => absurd hmem hspace⟩, fun _ => Or.inl rfl⟩

theorem prefixText_hex (h : spec.conv.base = 16) :
    spec.prefixText arg =
      if .alternate ∈ spec.flags ∧ spec.converted arg ≠ 0 then
        [ascii '0', ascii (if spec.conv.upper then 'X' else 'x')]
      else [] := by
  rw [prefixText]
  cases hc : spec.conv <;> rw [hc] at h <;> first | rfl | exact absurd h (by decide)

/-- A hexadecimal number: the alternate form is never right. -/
theorem printed_hex_iff (h : spec.conv.base = 16) {v : Word}
    (hv : v.toNat = (spec.converted arg).natAbs) :
    (∃ lead digits trail, spec.Printed arg
        (spec.padded (hexPrefix { spec.flagBits with upper := spec.conv.upper } v)
          (numeral spec.conv.upper spec.conv.base (spec.converted arg).natAbs))
        lead digits trail) ↔ .alternate ∉ spec.flags := by
  have hpfx : spec.prefixText arg = _ := prefixText_hex h
  have hzero : v = 0#64 ↔ spec.converted arg = 0 := by
    rw [← BitVec.toNat_inj, hv]
    exact Int.natAbs_eq_zero
  set x := ascii (if spec.conv.upper then 'X' else 'x') with hx
  have hkeep : nonblank [ascii '0', x] = [ascii '0', x] := by
    rw [hx]
    cases spec.conv.upper <;> decide
  have hdigit : ∀ {n : ℕ} {l : List CChar},
      ReadsAs (digitChar spec.conv.upper) spec.conv.base l n → x ∉ l := fun hreads hmem => by
    have hne := reads_ne hreads hmem
    rw [hx] at hne
    cases hupper : spec.conv.upper with
    | false => exact hne.2.2.2.1 (by rw [hupper]; rfl)
    | true => exact hne.2.2.2.2 (by rw [hupper]; rfl)
  by_cases halt : .alternate ∈ spec.flags
  · refine ⟨fun ⟨lead, digits, trail, hprinted⟩ => ?_, fun hno => absurd halt hno⟩
    have htext := hprinted.nonblank_eq.symm.trans (nonblank_padded _ _)
    by_cases hv0 : v = 0#64
    · -- the source prints `0x` in front of zero
      have hsource : hexPrefix { spec.flagBits with upper := spec.conv.upper } v =
          [ascii '0', x] := if_pos ⟨hv0, decide_eq_true halt⟩
      rw [hpfx, if_neg (fun hboth => hboth.2 (hzero.mp hv0)), hsource, hkeep] at htext
      refine absurd ?_ (hdigit hprinted.reads)
      rw [show digits = nonblank [] ++ digits from rfl, htext]
      exact List.mem_cons_of_mem _ List.mem_cons_self
    · -- and nothing in front of another number
      have hsource : hexPrefix { spec.flagBits with upper := spec.conv.upper } v = [] :=
        if_neg fun hboth => hv0 hboth.1
      rw [hpfx, if_pos ⟨halt, fun hT => hv0 (hzero.mpr hT)⟩, hsource, hkeep] at htext
      have hmem : x ∈ [ascii '0', x] ++ digits := List.mem_cons_of_mem _ List.mem_cons_self
      rw [htext, show nonblank [] = [] from rfl, List.nil_append] at hmem
      exact absurd hmem (hdigit (reads_zeros _ _))
  · have hsource : hexPrefix { spec.flagBits with upper := spec.conv.upper } v = [] :=
      if_neg fun hboth => halt (of_decide_eq_true hboth.2)
    have hnone : spec.prefixText arg = [] := by rw [hpfx, if_neg fun hboth => halt hboth.1]
    rw [hsource, ← hnone, printed_prefix_iff, hnone]
    exact ⟨fun _ => halt, fun _ => Or.inl rfl⟩

variable (spec arg)

/-- The number of digits of the converted argument. -/
def digitCount : ℕ := (digitsOf spec.conv.base (spec.converted arg).natAbs).length

/-- **When the text of a conversion is the right one.** -/
def PrintsRight : Prop :=
  match spec.conv with
  | .d | .i =>
    spec.SignedFits arg ∧ spec.PrecisionFits (spec.prefixText arg).length (spec.digitCount arg)
  | .u =>
    .plus ∉ spec.flags ∧ (.space ∈ spec.flags → .minus ∉ spec.flags ∧ .zero ∉ spec.flags ∧
      (spec.precision.getD 0#32).toNat ≤ spec.digitCount arg ∧
      spec.digitCount arg + 1 ≤ spec.width.toNat)
  | .x | .X => .alternate ∉ spec.flags

theorem length_numeral_converted :
    (numeral spec.conv.upper spec.conv.base (spec.converted arg).natAbs).length =
      spec.digitCount arg := List.length_map _

/-- A signed conversion is right exactly if the argument fits in its type and the prefix takes
nothing from the precision. -/
theorem signed_printed_iff (tail : List CChar) (args : PrintArgs)
    (h : spec.conv.signed = true) :
    (∃ lead digits trail,
        spec.Printed (args.slot 0) (rendering spec.format tail args) lead digits trail) ↔
      spec.SignedFits (args.slot 0) ∧ spec.PrecisionFits (spec.prefixText (args.slot 0)).length
        (spec.digitCount (args.slot 0)) := by
  have hslt : (spec.passed (args.slot 0)).slt 0#64 = decide (spec.shown (args.slot 0) < 0) := by
    rw [BitVec.slt, BitVec.toInt_zero, shown]
    split
    · rfl
    · rename_i hge
      have hmod : 0 ≤ (spec.passed (args.slot 0)).toInt % 2 ^ spec.modifier.bits :=
        Int.emod_nonneg _ (by positivity)
      rw [decide_eq_false hge, decide_eq_false (by omega)]
  have hkind : spec.conv.upper = false ∧ spec.conv.base = 10 := by
    cases hc : spec.conv <;> rw [hc] at h <;> first | exact absurd h (by decide) | decide
  have htext : rendering spec.format tail args =
      spec.padded (signText spec.flagBits (spec.shown (args.slot 0) < 0))
        (numeral spec.conv.upper spec.conv.base (spec.shown (args.slot 0)).natAbs) := by
    have hvalue := magnitude_signed spec (args.slot 0) h
    have hsource := rendering_signed tail args h
    rw [hslt] at hvalue
    simp only [hslt, hvalue] at hsource
    rw [hsource, hkind.1, hkind.2]
  rw [htext, printed_signed_iff h, shown_eq_iff spec _ h, length_numeral_converted]

theorem unsigned_printed_iff (tail : List CChar) (args : PrintArgs) (h : spec.conv = .u) :
    (∃ lead digits trail,
        spec.Printed (args.slot 0) (rendering spec.format tail args) lead digits trail) ↔
      .plus ∉ spec.flags ∧ (.space ∈ spec.flags → .minus ∉ spec.flags ∧ .zero ∉ spec.flags ∧
        (spec.precision.getD 0#32).toNat ≤ spec.digitCount (args.slot 0) ∧
        spec.digitCount (args.slot 0) + 1 ≤ spec.width.toNat) := by
  have hkind : spec.conv.upper = false ∧ spec.conv.base = 10 := by
    rw [h]
    decide
  have htext : rendering spec.format tail args = spec.padded (signText spec.flagBits false)
      (numeral spec.conv.upper spec.conv.base (spec.converted (args.slot 0)).natAbs) := by
    rw [rendering_unsigned tail args h, magnitude_unsigned spec _ (by rw [h]; rfl), hkind.1,
      hkind.2]
  rw [htext, printed_unsigned_iff h, length_numeral_converted]

/-- A hexadecimal conversion is right exactly if the alternate form is not asked for. -/
theorem hex_printed_iff (tail : List CChar) (args : PrintArgs) (h : spec.conv.base = 16) :
    (∃ lead digits trail,
        spec.Printed (args.slot 0) (rendering spec.format tail args) lead digits trail) ↔
      .alternate ∉ spec.flags := by
  have hsigned : spec.conv.signed = false := by
    cases hc : spec.conv <;> rw [hc] at h <;> first | exact absurd h (by decide) | rfl
  have hvalue := magnitude_unsigned spec (args.slot 0) hsigned
  have htext := rendering_hex tail args h
  rw [← h] at htext
  simp only [hvalue] at htext
  rw [htext]
  exact printed_hex_iff h hvalue

end NumberSpec

/-- **Exactly when a number is printed as its conversion asks for**: for every flags, width,
precision, length modifier, argument, and kind of number. -/
theorem number_printed_iff (spec : NumberSpec) (tail : List CChar) (args : PrintArgs) :
    (DigitsInBuffers ∧ ∃ lead digits trail,
        spec.Printed (args.slot 0) (rendering spec.format tail args) lead digits trail) ↔
      spec.PrintsRight (args.slot 0) := by
  rw [and_iff_right digitsInBuffers, NumberSpec.PrintsRight]
  cases hc : spec.conv with
  | d => exact spec.signed_printed_iff tail args (by rw [hc]; rfl)
  | i => exact spec.signed_printed_iff tail args (by rw [hc]; rfl)
  | u => exact spec.unsigned_printed_iff tail args hc
  | x => exact spec.hex_printed_iff tail args (by rw [hc]; rfl)
  | X => exact spec.hex_printed_iff tail args (by rw [hc]; rfl)

/-- `%#x` of 16 lacks its prefix. -/
theorem number_not_printed :
    ¬ ∀ (spec : NumberSpec) (tail : List CChar) (args : PrintArgs),
      DigitsInBuffers ∧ ∃ lead digits trail,
        spec.Printed (args.slot 0) (rendering spec.format tail args) lead digits trail := by
  intro h
  have hprinted := (h ⟨[.alternate], 0#32, none, .none, .x⟩ [] ⟨fun _ => 16#64, fun _ => none⟩).2
  exact (NumberSpec.hex_printed_iff _ _ _ rfl).mp hprinted List.mem_cons_self

end Acrn
