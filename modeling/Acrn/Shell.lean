import Acrn.Printf
import Acrn.Lib.MemString

/-!
# The shell

`shell.c` and `strncpy_s`: the hypervisor shell edits one of two lines in place, hands the line
to a command when it is done, and keeps the other one for the repeat command. The characters come
from `console_getc`; what it returns when nothing was received is a character like others. What a
command does is left out, but for the characters that it reads by itself.
-/

namespace Acrn

open MemString

/-! ## Copying a string -/

/-- The loop of `strncpy_s` with `dest_avail`, `d`, `s`, `slen` and `overlap_guard`: what is left of
`dest_avail`, whether `pret` is left, and the memory. -/
def strncpyLoop : ℕ → ℕ → ℕ → ℕ → ℕ → HostMem → ℕ × Bool × HostMem
  | 0, _, _, _, _, m => (0, true, m)
  | avail + 1, d, s, slen, guard, m =>
    if guard = 0 then (avail + 1, false, Function.update m (d - 1) 0#8)
    else if slen = 0 then (avail + 1, true, Function.update m d 0#8)
    else
      let m := Function.update m d (m s)
      if m d = 0#8 then (avail + 1, true, m)
      else strncpyLoop avail (d + 1) (s + 1) (slen - 1) (guard - 1) m

/-- `strncpy_s`. The lengths are of the type `size_t`, and so below `2 ^ 32`; they are only counted
down. -/
def strncpyS (d dmax s slen : ℕ) (m : HostMem) : Option ℕ × HostMem :=
  if d = 0 ∨ s = 0 then (none, m)
  else if dmax = 0 ∨ slen = 0 then (none, m)
  else if d = s then (some d, m)
  else
    let out := strncpyLoop dmax d s slen (if s < d then d - s - 1 else s - d - 1) m
    if out.1 = 0 then (some d, Function.update out.2.2 (d + dmax - 1) 0#8)
    else (if out.2.1 then some d else none, out.2.2)

/-! ## Splitting a line

The string is changed in place, and what is found are pointers into it. -/

/-- `while (*p_ch == ' ') p_ch++`, within `n` bytes. -/
def skipSpaces (m : HostMem) : ℕ → ℕ → ℕ
  | 0, pCh => pCh
  | n + 1, pCh => if m pCh = ascii ' ' then skipSpaces m n (pCh + 1) else pCh

/-- A character that ends an argument. -/
def IsSeparator (c : CChar) : Prop := c = ascii ' ' ∨ c = ascii ','

instance : DecidablePred IsSeparator := fun _ => inferInstanceAs (Decidable (_ ∨ _))

/-- The move past an argument, within `n` bytes. -/
def skipArg (m : HostMem) : ℕ → ℕ → ℕ
  | 0, pCh => pCh
  | n + 1, pCh => if ¬ IsSeparator (m pCh) ∧ m pCh ≠ 0#8 then skipArg m n (pCh + 1) else pCh

/-- The loop of `string_to_argv` over the rest of the string, which is shorter than `n` bytes: the
argument pointers, and the memory with the arguments terminated. -/
def argvLoop : ℕ → HostMem → ℕ → List ℕ → List ℕ × HostMem
  | 0, m, _, argv => (argv, m)
  | n + 1, m, pCh, argv =>
    if m pCh ≠ 0#8 then
      let next := skipArg m (n + 1) pCh
      if m next ≠ 0#8 then
        let m := Function.update m next 0#8
        argvLoop n m (skipSpaces m n (next + 1)) (argv ++ [pCh])
      else (argv ++ [pCh], m)
    else (argv, m)

/-- `SHELL_CMD_MAX_LEN`. -/
abbrev shellCmdMaxLen : ℕ := 100

/-- `string_to_argv`, for a string in an array of `SHELL_CMD_MAX_LEN + 1` bytes. -/
def stringToArgv (argvStr : ℕ) (m : HostMem) : List ℕ × HostMem :=
  if argvStr = 0 then ([], m)
  else argvLoop (shellCmdMaxLen + 1) m (skipSpaces m (shellCmdMaxLen + 1) argvStr) []

/-! ## The shell

The two lines lie behind each other. A line that is run becomes the other one, unless it is the
repeat command, which runs the other one once more. -/

/-- `sizeof(struct shell)`. -/
abbrev sizeofShell : ℕ := 232

/-- Where `hv_shell` lies, and the local array `cmd_argv_str` of `shell_process_cmd`. These are
different objects, and above the locals of a function there is its return address. -/
structure ShellLayout where
  hvShell : ℕ
  cmdArgvStr : ℕ
  hvShell_pos : 0 < hvShell
  cmdArgvStr_pos : 0 < cmdArgvStr
  apart : cmdArgvStr + (shellCmdMaxLen + 1) + 8 ≤ hvShell ∨ hvShell + sizeofShell ≤ cmdArgvStr

example : ShellLayout := ⟨0x2000, 0x1000, by decide, by decide, by decide⟩

/-- `hv_shell`, whose two lines are in the memory, and the number of characters received. -/
structure Shell where
  mem : HostMem
  inputLineLen : BitVec 32
  inputLineActive : BitVec 32
  received : ℕ

/-- `SHELL_INPUT_LINE_OTHER`. -/
def shellInputLineOther (v : BitVec 32) : BitVec 32 := (v + 1#32) &&& 1#32

/-- A call of `shell_process_cmd`: the line it is given, the argument pointers it finds, and the
memory in which these are handed to the command. -/
structure CmdCall where
  line : List CChar
  argv : List ℕ
  mem : HostMem

def backspace : CChar := 0x08#8
def lineFeed : CChar := 0x0a#8
def carriageReturn : CChar := 0x0d#8
def escape : CChar := 0x1b#8

/-- The characters that are put into the line. -/
def Printable (c : CChar) : Prop := 32#8 ≤ c ∧ c ≤ 126#8

instance : DecidablePred Printable := fun _ => inferInstanceAs (Decidable (_ ∧ _))

/-- The string at an address, within `n` bytes. -/
def cString (m : HostMem) : ℕ → ℕ → List CChar
  | 0, _ => []
  | n + 1, a => if m a = 0#8 then [] else m a :: cString m n (a + 1)

section

variable (lay : ShellLayout)

/-- `p_shell->input_line[i]`. -/
def inputLine (i : BitVec 32) : ℕ := lay.hvShell + (shellCmdMaxLen + 1) * i.toNat

/-- `shell_handle_special_char`: the escape character consumes the next two. -/
def shellHandleSpecialChar (ch : CChar) (s : Shell) : Shell :=
  if ch = escape then { s with received := s.received + 2 } else s

/-- `shell_input_line`, with the characters that `console_getc` returns. -/
def shellInputLine (input : ℕ → CChar) (s : Shell) : Bool × Shell :=
  let ch := input s.received
  let s := { s with received := s.received + 1 }
  if ch = backspace then
    if 0#32 < s.inputLineLen then
      let len := s.inputLineLen - 1#32
      (false, { s with
        inputLineLen := len
        mem := Function.update s.mem (inputLine lay s.inputLineActive + len.toNat) 0#8 })
    else (false, s)
  else if ch = carriageReturn then (true, { s with inputLineLen := 0#32 })
  else if ch = lineFeed then (false, s)
  else if s.inputLineLen < BitVec.ofNat 32 shellCmdMaxLen then
    if Printable ch then
      (false, { s with
        mem := Function.update s.mem
          (inputLine lay s.inputLineActive + s.inputLineLen.toNat) ch
        inputLineLen := s.inputLineLen + 1#32 })
    else (false, shellHandleSpecialChar ch s)
  else (true, { s with inputLineLen := 0#32 })

/-- `shell_process_cmd`: the argument pointers, and the memory. -/
def shellProcessCmd (pInputLine : ℕ) (m : HostMem) : List ℕ × HostMem :=
  let m := (strncpyS lay.cmdArgvStr (shellCmdMaxLen + 1) pInputLine shellCmdMaxLen m).2
  stringToArgv lay.cmdArgvStr (Function.update m (lay.cmdArgvStr + shellCmdMaxLen) 0#8)

/-- `shell_process`. -/
def shellProcess (s : Shell) : CmdCall × Shell :=
  let repeats := s.mem (inputLine lay s.inputLineActive) = ascii '.'
  let other := shellInputLineOther s.inputLineActive
  let pInputLine := if repeats then inputLine lay other else inputLine lay s.inputLineActive
  let active := if repeats then s.inputLineActive else other
  let out := shellProcessCmd lay pInputLine s.mem
  (⟨cString s.mem (shellCmdMaxLen + 1) pInputLine, out.1, out.2⟩,
    { s with
      inputLineActive := active
      mem := memset (inputLine lay active) 0#8 (shellCmdMaxLen + 1) out.2 })

/-- `shell_kick`. The command of a line reads `reads line` characters by itself. -/
def shellKick (reads : List CChar → ℕ) (input : ℕ → CChar) (s : Shell) : Option CmdCall × Shell :=
  let typed := shellInputLine lay input s
  if typed.1 then
    let out := shellProcess lay typed.2
    (some out.1, { out.2 with received := out.2.received + reads out.1.line })
  else (none, typed.2)

/-- `shell_init` on `hv_shell`, which is zero at the start. -/
def shellInit (m : HostMem) : Shell :=
  { mem := memset lay.hvShell 0#8 (shellCmdMaxLen + 1) (memset lay.hvShell 0#8 sizeofShell m)
    inputLineLen := 0#32
    inputLineActive := 0#32
    received := 0 }

end

/-- `sizeof(cmd_argv_mem)`. -/
def cmdArgvMemSize : ℕ := 4 * (8 * ((shellCmdMaxLen + 1) >>> 1))

end Acrn
