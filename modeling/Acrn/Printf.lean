import Acrn.GuestCopy
import Acrn.Lib.PieceWriter

/-!
# Formatted output

`printf.c`: `do_print` walks over a format string and hands pieces of text to an emit function.
A pointer into a string is the list of the bytes from there on; what is read behind the end of the
list is NUL. The position `pos` in a digit buffer is the list of the digits from there on, so that
`pos--` puts a digit in front.
-/

namespace Acrn

open PieceWriter

/-! ## Data -/

/-- `char`. -/
abbrev CChar : Type := BitVec 8

/-- A character constant. -/
def ascii (c : Char) : CChar := BitVec.ofNat 8 c.toNat

/-- A NUL-terminated string, without its NUL. -/
abbrev CString : Type := {s : List CChar // 0#8 ∉ s}

/-- `*s`. -/
def deref (s : List CChar) : CChar := s.headD 0#8

/-- The bits of `PRINT_FLAG_…`. `PRINT_FLAG_LONG` and `PRINT_FLAG_LONG_LONG` are the same bit. -/
structure PrintFlags where
  upper : Bool := false
  alternateForm : Bool := false
  padZero : Bool := false
  leftJustify : Bool := false
  sign : Bool := false
  space : Bool := false
  char : Bool := false
  short : Bool := false
  long : Bool := false
  uint32 : Bool := false
  deriving DecidableEq

/-- `print_param.vars`, as `memset` and the mask of all ones leave it. -/
structure PrintVars where
  flags : PrintFlags := {}
  width : BitVec 32 := 0#32
  precision : BitVec 32 := 0#32
  mask : Word := 0xFFFFFFFFFFFFFFFF#64
  value : List CChar := []
  valuelen : BitVec 32 := 0#32
  prefixChars : Option (List CChar) := none
  prefixlen : BitVec 32 := 0#32

/-- A call of the emit function: `PRINT_CMD_COPY` or `PRINT_CMD_FILL`. -/
inductive EmitCall where
  | copy (s : List CChar) (sz : BitVec 32)
  | fill (c : CChar) (sz : BitVec 32)
  deriving DecidableEq

/-- The characters that a call stands for. -/
def EmitCall.text : EmitCall → List CChar
  | copy s sz => (s.take sz.toNat).takeWhile (· ≠ 0#8)
  | fill c sz => List.replicate sz.toNat c

/-- The arguments: the slots of the `va_list` and the strings that pointers among them lead to,
`none` for `NULL`. -/
structure PrintArgs where
  slot : ℕ → Word
  str : Word → Option CString

/-! ## Parsing a conversion -/

def isDigit (c : CChar) : Bool := ascii '0' ≤ c && c ≤ ascii '9'

/-- The loop of `get_param`. -/
def getParamLoop : List CChar → BitVec 32 → List CChar × BitVec 32
  | [], x => ([], x)
  | c :: s, x =>
    if isDigit c then getParamLoop s (x * 10#32 + (c - ascii '0').setWidth 32) else (c :: s, x)

/-- `get_param`. -/
def getParam (s : List CChar) : List CChar × BitVec 32 :=
  getParamLoop (if deref s = ascii '-' then s.tail else s) 0#32

/-- The flag of a character of `flagchars`, set as `fl` says. -/
def applyFlag (c : CChar) (flags : PrintFlags) : Option PrintFlags :=
  if c = ascii '#' then some { flags with alternateForm := true }
  else if c = ascii '0' then some { flags with padZero := true }
  else if c = ascii '-' then some { flags with leftJustify := true }
  else if c = ascii ' ' then some { flags with space := true }
  else if c = ascii '+' then some { flags with sign := true }
  else none

/-- The loop of `get_flags`. -/
def getFlagsLoop : List CChar → PrintFlags → List CChar × PrintFlags
  | [], flags => ([], flags)
  | c :: s, flags =>
    match applyFlag c flags with
    | some flags => getFlagsLoop s flags
    | none => (c :: s, flags)

/-- `get_flags`. `-` has a higher priority than `0`, and `+` a higher one than the space. -/
def getFlags (s : List CChar) (flags : PrintFlags) : List CChar × PrintFlags :=
  let found := getFlagsLoop s flags
  (found.1, { found.2 with
    padZero := found.2.padZero && !found.2.leftJustify
    space := found.2.space && !found.2.sign })

/-- `get_length_modifier`. -/
def getLengthModifier (s : List CChar) (flags : PrintFlags) (mask : Word) :
    List CChar × PrintFlags × Word :=
  if deref s = ascii 'h' then
    if deref s.tail = ascii 'h' then (s.tail.tail, { flags with char := true }, 0xFF#64)
    else (s.tail, { flags with short := true }, 0xFFFF#64)
  else if deref s = ascii 'l' then
    if deref s.tail = ascii 'l' then (s.tail.tail, { flags with long := true }, mask)
    else (s.tail, { flags with long := true }, mask)
  else (s, flags, mask)

/-- The precision of a conversion: a parameter behind a point. -/
def getPrecision (s : List CChar) : List CChar × BitVec 32 :=
  if deref s = ascii '.' then getParam s.tail else (s, 0#32)

/-- The part of a conversion between its `%` and its last character: what `do_print` sets in
`vars`, and the pointer to that character. -/
def parseConversion (s : List CChar) : PrintVars × List CChar :=
  let flags := getFlags s {}
  let width := getParam flags.1
  let precision := getPrecision width.1
  let modifier := getLengthModifier precision.1 flags.2 0xFFFFFFFFFFFFFFFF#64
  ({ flags := modifier.2.1, width := width.2, precision := precision.2, mask := modifier.2.2 },
    modifier.1)

/-! ## Printing an argument -/

/-- `format_number`: the calls it makes. -/
def formatNumber (vars : PrintVars) : List EmitCall :=
  let width := vars.valuelen + vars.prefixlen
  let p := if width < vars.precision then vars.precision - width else 0#32
  let w := if width + p < vars.width then vars.width - (width + p) else 0#32
  let pfx := EmitCall.copy (vars.prefixChars.getD []) vars.prefixlen
  let number := [.fill (ascii '0') p, .copy vars.value vars.valuelen]
  if vars.flags.leftJustify then pfx :: number ++ [.fill (ascii ' ') w]
  else if vars.flags.padZero then pfx :: .fill (ascii '0') w :: .copy [] 0#32 :: number
  else .fill (ascii ' ') w :: pfx :: number

def upperHexDigits : List CChar := "0123456789ABCDEFX".toList.map ascii

def lowerHexDigits : List CChar := "0123456789abcdefx".toList.map ascii

/-- The loop of `print_pow2`. A word runs out of bits in at most 64 rounds. -/
def pow2Loop (digits : List CChar) (shift : ℕ) : ℕ → Word → List CChar → List CChar
  | 0, _, pos => pos
  | rounds + 1, v, pos =>
    let pos := digits.getD (v &&& (1#64 <<< shift - 1#64)).toNat 0#8 :: pos
    if v >>> shift ≠ 0#64 then pow2Loop digits shift rounds (v >>> shift) pos else pos

/-- `print_pow2`. -/
def printPow2 (vars : PrintVars) (v : Word) (shift : ℕ) : List EmitCall :=
  let digits := if vars.flags.upper then upperHexDigits else lowerHexDigits
  let v := v &&& vars.mask
  let vars :=
    if v = 0#64 ∧ vars.flags.alternateForm then
      if shift = 4 then
        { vars with prefixChars := some [ascii '0', digits.getD 16 0#8], prefixlen := 2#32 }
      else { vars with prefixChars := some [ascii '0'], prefixlen := 1#32 }
    else vars
  let pos := pow2Loop digits shift 64 v []
  formatNumber { vars with value := pos, valuelen := BitVec.ofNat 32 pos.length }

/-- The loop of `print_decimal` over the 64-bit value, which ends when the high half is zero. -/
def decimalLoop64 : ℕ → Word → List CChar → Word × List CChar
  | 0, v, pos => (v, pos)
  | rounds + 1, v, pos =>
    if v >>> 32 ≠ 0#64 then
      decimalLoop64 rounds (v / 10#64) (((v % 10#64).setWidth 8 + ascii '0') :: pos)
    else (v, pos)

/-- The loop of `print_decimal` over the low half. -/
def decimalLoop32 : ℕ → BitVec 32 → List CChar → List CChar
  | 0, _, pos => pos
  | rounds + 1, v, pos =>
    let pos := ((v % 10#32).setWidth 8 + ascii '0') :: pos
    if v / 10#32 ≠ 0#32 then decimalLoop32 rounds (v / 10#32) pos else pos

/-- The digit buffer of `print_decimal`, from `pos` on. -/
def decimalDigits (v : Word) : List CChar :=
  let high := decimalLoop64 64 v []
  decimalLoop32 32 (high.1.setWidth 32) high.2

/-- `print_decimal`. -/
def printDecimal (vars : PrintVars) (value : Word) : List EmitCall :=
  let negative := !vars.flags.uint32 && value.slt 0#64
  let v := if negative then -value else value &&& vars.mask
  let vars :=
    if negative then { vars with prefixChars := some [ascii '-'], prefixlen := 1#32 }
    else if vars.flags.sign then { vars with prefixChars := some [ascii '+'], prefixlen := 1#32 }
    else if vars.flags.space then { vars with prefixChars := some [ascii ' '], prefixlen := 1#32 }
    else vars
  let pos := decimalDigits v
  formatNumber { vars with value := pos, valuelen := BitVec.ofNat 32 pos.length }

/-- `strnlen_s` of a string. -/
def CString.strnlenS : List CChar → ℕ → ℕ
  | [], _ => 0
  | _ :: _, 0 => 0
  | c :: s, maxlen + 1 => if c ≠ 0#8 then CString.strnlenS s maxlen + 1 else 0

/-- `PRINT_STRING_MAX_LEN`. -/
def printStringMaxLen : ℕ := 4096

/-- `print_string`. -/
def printString (vars : PrintVars) (s : List CChar) : List EmitCall :=
  let len := BitVec.ofNat 32 (CString.strnlenS s printStringMaxLen)
  let len := if vars.precision ≠ 0#32 ∧ vars.precision < len then vars.precision else len
  let w := if 0#32 < vars.width ∧ len < vars.width then vars.width - len else 0#32
  if vars.flags.leftJustify then [.copy s len, .fill (ascii ' ') w]
  else [.fill (ascii ' ') w, .copy s len]

/-- The conversion that begins at `start` with its `%`, with `ch` its last character and `fmt`
what lies behind it: the calls made, and whether the argument was taken. -/
def printConversion (vars : PrintVars) (ch : CChar) (start fmt : List CChar) (args : PrintArgs)
    (arg : Word) : List EmitCall × Bool :=
  if ch = ascii '%' then ([.copy [ch] 1#32], false)
  else if ch = ascii 'd' ∨ ch = ascii 'i' then
    (printDecimal vars (if vars.flags.long then arg else (arg.setWidth 32).signExtend 64), true)
  else if ch = ascii 'u' then
    let vars := { vars with flags := { vars.flags with uint32 := true } }
    (printDecimal vars (if vars.flags.long then arg else (arg.setWidth 32).setWidth 64), true)
  else if ch = ascii 'X' ∨ ch = ascii 'x' then
    let vars :=
      if ch = ascii 'X' then { vars with flags := { vars.flags with upper := true } } else vars
    (printPow2 vars (if vars.flags.long then arg else (arg.setWidth 32).setWidth 64) 4, true)
  else if ch = ascii 's' then
    (printString vars (((args.str arg).map Subtype.val).getD ("(null)".toList.map ascii)), true)
  else if ch = ascii 'c' then (printString vars [arg.setWidth 8], true)
  else ([.copy start (BitVec.ofNat 32 (start.length - fmt.length))], false)

/-! ## The walk over the format

The walk is a recursion on the format. It is well founded because a conversion leaves a proper
suffix of what it began with, whatever it is made of. -/

/-- A character that is neither the end of the format nor the start of a conversion. -/
def isLiteral (c : CChar) : Bool := c ≠ 0#8 && c ≠ ascii '%'

theorem getParamLoop_suffix (s : List CChar) (x : BitVec 32) : (getParamLoop s x).1 <:+ s := by
  induction s generalizing x with
  | nil => exact List.suffix_refl _
  | cons c s ih =>
    rw [getParamLoop]
    split
    · exact (ih _).trans (List.suffix_cons c s)
    · exact List.suffix_refl _

theorem getParam_suffix (s : List CChar) : (getParam s).1 <:+ s := by
  refine (getParamLoop_suffix _ _).trans ?_
  split
  · exact List.tail_suffix s
  · exact List.suffix_refl s

theorem getFlagsLoop_suffix (s : List CChar) (flags : PrintFlags) :
    (getFlagsLoop s flags).1 <:+ s := by
  induction s generalizing flags with
  | nil => exact List.suffix_refl _
  | cons c s ih =>
    rw [getFlagsLoop]
    split
    · exact (ih _).trans (List.suffix_cons c s)
    · exact List.suffix_refl _

theorem getPrecision_suffix (s : List CChar) : (getPrecision s).1 <:+ s := by
  rw [getPrecision]
  split
  · exact (getParam_suffix _).trans (List.tail_suffix s)
  · exact List.suffix_refl s

theorem getLengthModifier_suffix (s : List CChar) (flags : PrintFlags) (mask : Word) :
    (getLengthModifier s flags mask).1 <:+ s := by
  have htail : s.tail <:+ s := List.tail_suffix s
  have htail' : s.tail.tail <:+ s := (List.tail_suffix s.tail).trans htail
  rw [getLengthModifier]
  split_ifs
  · exact htail'
  · exact htail
  · exact htail'
  · exact htail
  · exact List.suffix_refl s

theorem parseConversion_suffix (s : List CChar) : (parseConversion s).2 <:+ s :=
  calc (parseConversion s).2
    _ <:+ (getPrecision (getParam (getFlags s {}).1).1).1 := getLengthModifier_suffix _ _ _
    _ <:+ (getParam (getFlags s {}).1).1 := getPrecision_suffix _
    _ <:+ (getFlags s {}).1 := getParam_suffix _
    _ <:+ s := getFlagsLoop_suffix s {}

/-- A pointer to a character leads to one that is there. -/
theorem ne_nil_of_deref {s : List CChar} {c : CChar} (h : deref s = c) (hc : c ≠ 0#8) :
    s ≠ [] := by
  rintro rfl
  exact hc h.symm

/-- What lies behind a conversion. -/
theorem rest_suffix (fmt : List CChar) :
    (parseConversion (fmt.dropWhile isLiteral).tail).2.tail <:+ (fmt.dropWhile isLiteral).tail :=
  (List.tail_suffix _).trans (parseConversion_suffix _)

theorem length_rest_lt {fmt : List CChar} (h : deref (fmt.dropWhile isLiteral) = ascii '%') :
    (parseConversion (fmt.dropWhile isLiteral).tail).2.tail.length < fmt.length := by
  have hdrop := (List.dropWhile_suffix isLiteral (l := fmt)).length_le
  have hrest := (rest_suffix fmt).length_le
  have hpos := List.length_pos_of_ne_nil (ne_nil_of_deref h (by decide))
  have htail := List.length_tail (l := fmt.dropWhile isLiteral)
  omega

/-- `do_print` from the `i`-th argument on: the calls of the emit function, and the place in the
format where the walk ends. -/
def doPrint (args : PrintArgs) (i : ℕ) (fmt : List CChar) : List EmitCall × List CChar :=
  if deref fmt = 0#8 then ([], fmt)
  else
    let start := fmt.dropWhile isLiteral
    let literal := EmitCall.copy fmt (BitVec.ofNat 32 (fmt.takeWhile isLiteral).length)
    if _h : deref start = ascii '%' then
      let conv := parseConversion start.tail
      let out := printConversion conv.1 (deref conv.2) start conv.2.tail args (args.slot i)
      let later := doPrint args (if out.2 then i + 1 else i) conv.2.tail
      (literal :: (out.1 ++ later.1), later.2)
    else ([literal], start)
  termination_by fmt.length
  decreasing_by exact length_rest_lt _h

/-- The conversion that begins at `start`. -/
def conversionAt (args : PrintArgs) (i : ℕ) (start : List CChar) : List EmitCall × Bool :=
  printConversion (parseConversion start.tail).1 (deref (parseConversion start.tail).2) start
    (parseConversion start.tail).2.tail args (args.slot i)

section

variable (args : PrintArgs) (i : ℕ) {fmt : List CChar}

theorem doPrint_end (h : deref fmt = 0#8) : doPrint args i fmt = ([], fmt) := by
  rw [doPrint, if_pos h]

theorem doPrint_literal (h0 : deref fmt ≠ 0#8)
    (h : deref (fmt.dropWhile isLiteral) ≠ ascii '%') :
    doPrint args i fmt =
      ([.copy fmt (BitVec.ofNat 32 (fmt.takeWhile isLiteral).length)],
        fmt.dropWhile isLiteral) := by
  rw [doPrint, if_neg h0, dif_neg h]

theorem doPrint_conversion (h0 : deref fmt ≠ 0#8)
    (h : deref (fmt.dropWhile isLiteral) = ascii '%') :
    doPrint args i fmt =
      let out := conversionAt args i (fmt.dropWhile isLiteral)
      let later := doPrint args (if out.2 then i + 1 else i)
        (parseConversion (fmt.dropWhile isLiteral).tail).2.tail
      (.copy fmt (BitVec.ofNat 32 (fmt.takeWhile isLiteral).length) :: (out.1 ++ later.1),
        later.2) := by
  rw [doPrint, if_neg h0, dif_pos h]
  rfl

end

/-! ## Output to a buffer -/

/-- `struct snprint_param`. The memory is that from the destination on. -/
structure SnprintParam where
  dst : HostMem
  sz : BitVec 32
  wrtn : BitVec 32

/-- The copy loop of `charmem`, with `room` for `param->sz - param->wrtn`. -/
def charmemLoop (room sz : BitVec 32) :
    List CChar → ℕ → BitVec 32 → HostMem → BitVec 32 × HostMem
  | [], _, n, m => (n, m)
  | c :: s, p, n, m =>
    if c ≠ 0#8 ∧ n < sz then
      charmemLoop room sz s (p + 1) (n + 1#32) (if n < room then Function.update m p c else m)
    else (n, m)

/-- `charmem`. -/
def charmem (param : SnprintParam) : EmitCall → SnprintParam
  | .copy s sz =>
    let copied :=
      if 0#32 < sz then charmemLoop (param.sz - param.wrtn) sz s param.wrtn.toNat 0#32 param.dst
      else (0#32, param.dst)
    { param with wrtn := param.wrtn + copied.1, dst := copied.2 }
  | .fill c sz =>
    let n := if sz < param.sz - param.wrtn then sz else 0#32
    { param with
      wrtn := param.wrtn + sz
      dst := memset param.wrtn.toNat c n.toNat param.dst }

/-- `vsnprintf`: the result, and the memory from the destination on. -/
def vsnprintf (dst : HostMem) (szArg : Word) (fmt : List CChar) (args : PrintArgs) :
    Word × HostMem :=
  let sz : BitVec 32 := szArg.setWidth 32
  let snparam := (doPrint args 0 fmt).1.foldl charmem ⟨dst, sz, 0#32⟩
  let last := if snparam.wrtn < sz then snparam.wrtn else sz - 1#32
  (snparam.wrtn.setWidth 64, Function.update snparam.dst last.toNat 0#8)

end Acrn
