import Acrn.Shell

/-!
# Editing and splitting a line

The lines that the shell hands to its commands are the ones that were typed: a session, which keeps
only what was typed since the last line, says what each of them is. A line is copied and split in
place, and the arguments are its pieces.
-/

namespace Acrn

open MemString

/-! ## The copy -/

/-- The copy of a string that fits, with source and destination far enough apart. -/
theorem strncpyLoop_eq {l : List CChar} (avail d s slen guard : ℕ) {m : HostMem}
    (h : StringAt 0#8 m s l) (hslen : l.length ≤ slen) (havail : l.length < avail)
    (hguard : l.length < guard) (hapart : d + l.length < s ∨ s + l.length < d) :
    0 < (strncpyLoop avail d s slen guard m).1 ∧
      StringAt 0#8 (strncpyLoop avail d s slen guard m).2.2 d l ∧
      ∀ i, i < d ∨ d + l.length < i → (strncpyLoop avail d s slen guard m).2.2 i = m i := by
  induction l generalizing avail d s slen guard m with
  | nil =>
    obtain ⟨avail, rfl⟩ : ∃ k, avail = k + 1 := ⟨avail - 1, by omega⟩
    rw [List.length_nil] at hguard
    have hframe : ∀ i, i < d ∨ d + ([] : List CChar).length < i →
        Function.update m d 0#8 i = m i := fun i hi => by
      rw [List.length_nil] at hi
      exact Function.update_of_ne (by omega) ..
    rw [strncpyLoop, if_neg (by omega)]
    split
    · exact ⟨Nat.succ_pos _, Function.update_self .., hframe⟩
    · have hend : m s = 0#8 := h
      rw [hend]
      simp only [Function.update_self, if_true]
      exact ⟨Nat.succ_pos _, Function.update_self .., hframe⟩
  | cons c l ih =>
    rw [List.length_cons] at hslen havail hguard hapart
    obtain ⟨avail, rfl⟩ : ∃ k, avail = k + 1 := ⟨avail - 1, by omega⟩
    obtain ⟨hc, hne, htail⟩ := h
    have hrest : StringAt 0#8 (Function.update m d c) (s + 1) l :=
      htail.congr fun i hlo hhi => Function.update_of_ne (by omega) ..
    rw [strncpyLoop, if_neg (by omega), if_neg (by omega), hc]
    simp only [Function.update_self, if_neg hne]
    obtain ⟨hpos, hcopied, hframe⟩ := ih avail (d + 1) (s + 1) (slen - 1) (guard - 1) hrest
      (by omega) (by omega) (by omega) (by omega)
    refine ⟨hpos, ⟨?_, hne, hcopied⟩, fun i hi => ?_⟩
    · rw [hframe d (by omega), Function.update_self]
    · rw [List.length_cons] at hi
      rw [hframe i (by omega), Function.update_of_ne (by omega)]

theorem strncpyS_eq {l : List CChar} {d s : ℕ} {m : HostMem} (h : StringAt 0#8 m s l)
    (hlen : l.length ≤ shellCmdMaxLen) (hd : 0 < d) (hs : 0 < s)
    (hapart : d + (shellCmdMaxLen + 1) < s ∨ s + (shellCmdMaxLen + 1) < d) :
    StringAt 0#8 (strncpyS d (shellCmdMaxLen + 1) s shellCmdMaxLen m).2 d l ∧
      ∀ i, i < d ∨ d + shellCmdMaxLen < i →
        (strncpyS d (shellCmdMaxLen + 1) s shellCmdMaxLen m).2 i = m i := by
  have hnull : ¬ (d = 0 ∨ s = 0) := by omega
  have hsize : ¬ (shellCmdMaxLen + 1 = 0 ∨ shellCmdMaxLen = 0) := by decide
  have hne : d ≠ s := by omega
  obtain ⟨hpos, hcopied, hframe⟩ := strncpyLoop_eq (shellCmdMaxLen + 1) d s shellCmdMaxLen
    (if s < d then d - s - 1 else s - d - 1) h hlen (by omega) (by split <;> omega) (by omega)
  rw [strncpyS, if_neg hnull, if_neg hsize, if_neg hne]
  simp only [if_neg (Nat.ne_of_gt hpos)]
  exact ⟨hcopied, fun i hi => hframe i (by omega)⟩

/-! ## The split

The split writes terminators over the separators as it goes. What it has passed is in pieces, and
what is ahead of it is as it was typed. -/

theorem skipSpaces_eq {gap rest : List CChar} {m : HostMem} {n p : ℕ}
    (h : StringAt 0#8 m p (gap ++ rest)) (hgap : ∀ c ∈ gap, c = ascii ' ')
    (hrest : rest.head? ≠ some (ascii ' ')) (hn : gap.length ≤ n) :
    skipSpaces m n p = p + gap.length := by
  induction gap generalizing n p with
  | nil =>
    cases n with
    | zero => rfl
    | succ n =>
      have hne : m p ≠ ascii ' ' := by
        cases rest with
        | nil =>
          have hend : m p = 0#8 := h
          rw [hend]
          decide
        | cons c rest =>
          rw [h.1]
          exact fun hc => hrest (congrArg some hc)
      rw [skipSpaces, if_neg hne]
      rfl
  | cons c gap ih =>
    rw [List.length_cons] at hn ⊢
    obtain ⟨n, rfl⟩ : ∃ k, n = k + 1 := ⟨n - 1, by omega⟩
    have hc : m p = ascii ' ' := h.1.trans (hgap c List.mem_cons_self)
    rw [skipSpaces, if_pos hc, ih h.2.2 (fun d hd => hgap d (List.mem_cons_of_mem _ hd))
      (by omega), Nat.add_assoc, Nat.add_comm 1]

theorem skipArg_eq {w rest : List CChar} {m : HostMem} {n p : ℕ}
    (h : StringAt 0#8 m p (w ++ rest)) (hw : ∀ c ∈ w, ¬ IsSeparator c)
    (hrest : ∀ c ∈ rest.head?, IsSeparator c) (hn : w.length ≤ n) :
    skipArg m n p = p + w.length := by
  induction w generalizing n p with
  | nil =>
    cases n with
    | zero => rfl
    | succ n =>
      have hstop : ¬ (¬ IsSeparator (m p) ∧ m p ≠ 0#8) := by
        cases rest with
        | nil => exact fun hboth => hboth.2 h
        | cons c rest =>
          rw [h.1]
          exact fun hboth => hboth.1 (hrest c rfl)
      rw [skipArg, if_neg hstop]
      rfl
  | cons c w ih =>
    rw [List.length_cons] at hn ⊢
    obtain ⟨n, rfl⟩ : ∃ k, n = k + 1 := ⟨n - 1, by omega⟩
    have hgo : ¬ IsSeparator (m p) ∧ m p ≠ 0#8 := by
      rw [h.1]
      exact ⟨hw c List.mem_cons_self, h.2.1⟩
    rw [skipArg, if_pos hgo, ih h.2.2 (fun d hd => hw d (List.mem_cons_of_mem _ hd)) (by omega),
      Nat.add_assoc, Nat.add_comm 1]

/-- An argument pointer leads to a piece, which lies inside the buffer with its terminator. -/
def PointsTo (m : HostMem) (lo hi : ℕ) (q : ℕ) (w : List CChar) : Prop :=
  StringAt 0#8 m q w ∧ lo ≤ q ∧ q + w.length ≤ hi

/-- The pieces of a string, found and terminated in place. -/
theorem argvLoop_eq {l : List CChar} {ps : List (List CChar)}
    (hps : Pieces (ascii ' ') IsSeparator l ps) {m : HostMem} {n p : ℕ} (h : StringAt 0#8 m p l)
    (hn : l.length < n) (argv : List ℕ) :
    ∃ qs, (argvLoop n m p argv).1 = argv ++ qs ∧
      List.Forall₂ (PointsTo (argvLoop n m p argv).2 p (p + l.length)) qs ps ∧
      ∀ i, i < p ∨ p + l.length ≤ i → (argvLoop n m p argv).2 i = m i := by
  induction hps generalizing m n p argv with
  | nil =>
    obtain ⟨n, rfl⟩ : ∃ k, n = k + 1 := ⟨n - 1, by omega⟩
    have hend : m p = 0#8 := h
    rw [argvLoop, if_neg (not_not.mpr hend)]
    exact ⟨[], (List.append_nil _).symm, .nil, fun _ _ => rfl⟩
  | @last w hne hw =>
    obtain ⟨n, rfl⟩ : ∃ k, n = k + 1 := ⟨n - 1, by omega⟩
    have hhead : m p ≠ 0#8 := by
      obtain ⟨c, w, rfl⟩ := List.exists_cons_of_ne_nil hne
      rw [h.1]
      exact h.2.1
    have hnext : skipArg m (n + 1) p = p + w.length :=
      skipArg_eq ((List.append_nil w).symm ▸ h) hw (fun c hc => by simp at hc) (by omega)
    rw [argvLoop, if_pos hhead, hnext, if_neg (not_not.mpr h.terminator)]
    exact ⟨[p], rfl, .cons ⟨h, Nat.le_refl _, Nat.le_refl _⟩ .nil, fun _ _ => rfl⟩
  | @more w gap rest c ps hw hc hgap hhead hrest ih =>
    obtain ⟨n, rfl⟩ : ∃ k, n = k + 1 := ⟨n - 1, by omega⟩
    simp only [List.length_append, List.length_cons] at hn ⊢
    have hfirst : m p ≠ 0#8 := by
      cases w with
      | nil =>
        rw [h.1]
        exact h.2.1
      | cons d w =>
        rw [h.1]
        exact h.2.1
    have hnext : skipArg m (n + 1) p = p + w.length :=
      skipArg_eq h hw (head?_cons hc _) (by omega)
    have hsep := h.suffix
    have hsepne : m (p + w.length) ≠ 0#8 := by
      rw [hsep.1]
      exact hsep.2.1
    set m' := Function.update m (p + w.length) 0#8 with hm'
    have hgap' : StringAt 0#8 m' (p + w.length + 1) (gap ++ rest) :=
      hsep.2.2.congr fun i hlo _ => Function.update_of_ne (by omega) ..
    have hskip : skipSpaces m' n (p + w.length + 1) = p + w.length + 1 + gap.length :=
      skipSpaces_eq hgap' hgap hhead (by omega)
    obtain ⟨qs, hargv, hqs, hframe⟩ := ih (m := m') (n := n) hgap'.suffix (by omega) (argv ++ [p])
    rw [argvLoop, if_pos hfirst, hnext, if_pos hsepne]
    simp only [← hm', hskip]
    refine ⟨p :: qs, by rw [hargv, List.append_assoc, List.singleton_append], .cons ?_ ?_,
      fun i hi => ?_⟩
    · -- later arguments leave this one alone
      refine ⟨h.cut.congr fun i _ hhi => hframe i (Or.inl (by omega)), Nat.le_refl _, by omega⟩
    · refine hqs.imp fun q v hq => ?_
      obtain ⟨hstring, hlo, hhi⟩ := hq
      exact ⟨hstring, by omega, by omega⟩
    · rw [hframe i (by omega), hm', Function.update_of_ne (by omega)]

/-! ## What was typed

The session has no memory and no second line: it has the characters received since the last line
was handed over, and computes the line from them. -/

/-- The effect of a character on the line. -/
def edit (line : List CChar) (c : CChar) : List CChar :=
  if c = backspace then line.dropLast else if Printable c then line ++ [c] else line

/-- The line that the characters make: the printable ones, with backspaces applied. -/
def edited (typed : List CChar) : List CChar := typed.foldl edit []

/-- What a shell session is about: the characters received since the last line was handed over,
but for those that an escape character takes along, and the last line processed. -/
structure Session where
  typed : List CChar
  last : List CChar
  received : ℕ

/-- The next character. A carriage return hands the line over, and so does any character but a
backspace and a line feed when the line has its maximal length. A line that begins with a period
is replaced by the last one. -/
def Session.kick (reads : List CChar → ℕ) (input : ℕ → CChar) (t : Session) :
    Option (List CChar) × Session :=
  let ch := input t.received
  if ch = carriageReturn ∨
      (edited t.typed).length = shellCmdMaxLen ∧ ch ≠ backspace ∧ ch ≠ lineFeed then
    let line := (edited (t.typed ++ [ch])).take shellCmdMaxLen
    let run := if line.head? = some (ascii '.') then t.last else line
    (some run, ⟨[], run, t.received + 1 + reads run⟩)
  else (none, ⟨t.typed ++ [ch], t.last, t.received + if ch = escape then 3 else 1⟩)

theorem edited_append (typed : List CChar) (c : CChar) :
    edited (typed ++ [c]) = edit (edited typed) c := by
  rw [edited, List.foldl_append]
  rfl

/-- Only printable characters are in the line. -/
theorem printable_of_mem_edited {typed : List CChar} : ∀ c ∈ edited typed, Printable c := by
  induction typed using List.reverseRecOn with
  | nil => exact fun c hc => absurd hc List.not_mem_nil
  | append_singleton typed d ih =>
    intro c hc
    rw [edited_append, edit] at hc
    split_ifs at hc with hback hprint
    · exact ih c (List.mem_of_mem_dropLast hc)
    · obtain hc | hc := List.mem_append.mp hc
      · exact ih c hc
      · exact List.mem_singleton.mp hc ▸ hprint
    · exact ih c hc

theorem zero_not_mem_edited {typed : List CChar} : 0#8 ∉ edited typed := fun hmem =>
  absurd (printable_of_mem_edited _ hmem) (by decide)

/-- What a character that ends the line adds to it is cut off. -/
theorem take_edited {typed : List CChar} {ch : CChar}
    (hle : (edited typed).length ≤ shellCmdMaxLen)
    (h : ch = carriageReturn ∨
      (edited typed).length = shellCmdMaxLen ∧ ch ≠ backspace ∧ ch ≠ lineFeed) :
    (edited (typed ++ [ch])).take shellCmdMaxLen = edited typed := by
  have hback : ch ≠ backspace := by
    obtain rfl | ⟨-, hback, -⟩ := h
    · decide
    · exact hback
  rw [edited_append, edit, if_neg hback]
  split
  · rename_i hprint
    have hfull : (edited typed).length = shellCmdMaxLen := by
      obtain rfl | ⟨hfull, -⟩ := h
      · exact absurd hprint (by decide)
      · exact hfull
    rw [← hfull, List.take_left']
    rfl
  · exact List.take_of_length_le hle

/-! ## The shell and the session

The two agree when the active line in memory is the one that the session computes, with zeros
behind it. Each character is shown to keep that, and a line that is done is run as the session
says. -/

section

variable {lay : ShellLayout}

/-- The state of the shell is that of the session: the active line holds what was typed, with
zeros behind it, and the other line holds the last one. -/
structure Agrees (lay : ShellLayout) (s : Shell) (t : Session) : Prop where
  received : s.received = t.received
  active : s.inputLineActive = 0#32 ∨ s.inputLineActive = 1#32
  len : s.inputLineLen.toNat = (edited t.typed).length
  len_le : s.inputLineLen.toNat ≤ shellCmdMaxLen
  line : ∀ i ≤ shellCmdMaxLen,
    s.mem (inputLine lay s.inputLineActive + i) = (edited t.typed).getD i 0#8
  last : StringAt 0#8 s.mem (inputLine lay (shellInputLineOther s.inputLineActive)) t.last
  last_le : t.last.length ≤ shellCmdMaxLen

/-- A call of `shell_process_cmd` is given the line and finds its pieces, behind the spaces that
it begins with. They lie terminated in the local array, and their pointers in the argument
memory. -/
structure RunsLine (lay : ShellLayout) (call : CmdCall) (line : List CChar) : Prop where
  line_eq : call.line = line
  argv : ∃ lead body ps, line = lead ++ body ∧ (∀ c ∈ lead, c = ascii ' ') ∧
    body.head? ≠ some (ascii ' ') ∧ Pieces (ascii ' ') IsSeparator body ps ∧
    List.Forall₂ (PointsTo call.mem lay.cmdArgvStr (lay.cmdArgvStr + shellCmdMaxLen)) call.argv ps
  room : 8 * call.argv.length ≤ cmdArgvMemSize

theorem inputLine_other {v : BitVec 32} (h : v = 0#32 ∨ v = 1#32) :
    (inputLine lay v = lay.hvShell ∧
        inputLine lay (shellInputLineOther v) = lay.hvShell + (shellCmdMaxLen + 1) ∨
      inputLine lay v = lay.hvShell + (shellCmdMaxLen + 1) ∧
        inputLine lay (shellInputLineOther v) = lay.hvShell) ∧
    (shellInputLineOther v = 0#32 ∨ shellInputLineOther v = 1#32) ∧
    shellInputLineOther (shellInputLineOther v) = v := by
  obtain rfl | rfl := h
  · exact ⟨Or.inl ⟨rfl, rfl⟩, Or.inr rfl, rfl⟩
  · exact ⟨Or.inr ⟨rfl, rfl⟩, Or.inl rfl, rfl⟩

theorem cString_eq {m : HostMem} {a n : ℕ} {l : List CChar} (h : StringAt 0#8 m a l)
    (hn : l.length < n) : cString m n a = l := by
  induction l generalizing a n with
  | nil =>
    obtain ⟨n, rfl⟩ : ∃ k, n = k + 1 := ⟨n - 1, by omega⟩
    exact if_pos h
  | cons c l ih =>
    rw [List.length_cons] at hn
    obtain ⟨n, rfl⟩ : ∃ k, n = k + 1 := ⟨n - 1, by omega⟩
    obtain ⟨hc, hne, htail⟩ := h
    rw [cString, hc, if_neg hne, ih htail (by omega)]

theorem stringToArgv_eq {m : HostMem} {a : ℕ} {line : List CChar} (ha : 0 < a)
    (h : StringAt 0#8 m a line) (hlen : line.length ≤ shellCmdMaxLen) :
    (∃ lead body ps, line = lead ++ body ∧ (∀ c ∈ lead, c = ascii ' ') ∧
      body.head? ≠ some (ascii ' ') ∧ Pieces (ascii ' ') IsSeparator body ps ∧
      List.Forall₂ (PointsTo (stringToArgv a m).2 a (a + shellCmdMaxLen))
        (stringToArgv a m).1 ps ∧ (stringToArgv a m).1.length ≤ shellCmdMaxLen) ∧
      ∀ i, i < a ∨ a + shellCmdMaxLen < i → (stringToArgv a m).2 i = m i := by
  obtain ⟨lead, body, rfl, hlead, hbody⟩ := exists_split (· ≠ ascii ' ') line
  rw [List.length_append] at hlen
  have hspaces : ∀ c ∈ lead, c = ascii ' ' := fun c hc => not_not.mp (hlead c hc)
  have hhead : body.head? ≠ some (ascii ' ') := fun heq => hbody _ heq rfl
  obtain ⟨ps, hps⟩ : ∃ ps, Pieces (ascii ' ') IsSeparator body ps := exists_pieces hhead
  have hskip := skipSpaces_eq (n := shellCmdMaxLen + 1) h hspaces hhead (by omega)
  obtain ⟨qs, hargv, hqs, hframe⟩ :=
    argvLoop_eq hps (n := shellCmdMaxLen + 1) h.suffix (by omega) []
  rw [stringToArgv, if_neg (by omega), hskip, hargv, List.nil_append]
  refine ⟨⟨lead, body, ps, rfl, hspaces, hhead, hps, hqs.imp fun q w hq => ?_, ?_⟩,
    fun i hi => hframe i (by omega)⟩
  · obtain ⟨hstring, hlo, hhi⟩ := hq
    exact ⟨hstring, by omega, by omega⟩
  · have := hqs.length_eq
    have := hps.length_le
    omega

/-- Handing over a line leaves everything but the local array as it was. -/
theorem shellProcessCmd_eq {m : HostMem} {a : ℕ} {line : List CChar} (h : StringAt 0#8 m a line)
    (hlen : line.length ≤ shellCmdMaxLen)
    (ha : a = lay.hvShell ∨ a = lay.hvShell + (shellCmdMaxLen + 1)) :
    RunsLine lay ⟨line, (shellProcessCmd lay a m).1, (shellProcessCmd lay a m).2⟩ line ∧
      ∀ i, i < lay.cmdArgvStr ∨ lay.cmdArgvStr + shellCmdMaxLen < i →
        (shellProcessCmd lay a m).2 i = m i := by
  have hapart := lay.apart
  have hpos := lay.hvShell_pos
  have hd := lay.cmdArgvStr_pos
  have hmax : shellCmdMaxLen = 100 := rfl
  have hsizeof : sizeofShell = 232 := rfl
  obtain ⟨hcopied, hframe⟩ := strncpyS_eq h hlen hd (by omega) (by omega)
  set m₁ := (strncpyS lay.cmdArgvStr (shellCmdMaxLen + 1) a shellCmdMaxLen m).2 with hm₁
  have hstring : StringAt 0#8 (Function.update m₁ (lay.cmdArgvStr + shellCmdMaxLen) 0#8)
      lay.cmdArgvStr line := by
    refine hcopied.congr fun i _ hhi => ?_
    by_cases hi : i = lay.cmdArgvStr + shellCmdMaxLen
    · -- the array is full, and the copy has put the terminator there
      have hfull : line.length = shellCmdMaxLen := by omega
      rw [hi, Function.update_self, ← hfull, hcopied.terminator]
    · exact Function.update_of_ne hi ..
  obtain ⟨⟨lead, body, ps, hline, hlead, hbody, hps, hargv, hcount⟩, hkeep⟩ :=
    stringToArgv_eq hd hstring hlen
  refine ⟨⟨rfl, ⟨lead, body, ps, hline, hlead, hbody, hps, hargv⟩, ?_⟩, fun i hi => ?_⟩
  · have hsize : cmdArgvMemSize = 1600 := rfl
    have hlist : ∀ call : CmdCall, call.argv = (shellProcessCmd lay a m).1 →
        8 * call.argv.length ≤ cmdArgvMemSize := fun call heq => by
      rw [heq, shellProcessCmd, ← hm₁, hsize]
      omega
    exact hlist _ rfl
  · rw [shellProcessCmd, hkeep i hi, Function.update_of_ne (by omega), hframe i hi]

variable {s : Shell} {t : Session} {reads : List CChar → ℕ} {input : ℕ → CChar}

/-- A character that leaves the line as it is. -/
theorem Agrees.keep (h : Agrees lay s t) {typed : List CChar} (heq : edited typed = edited t.typed)
    (n : ℕ) : Agrees lay { s with received := n } ⟨typed, t.last, n⟩ where
  received := rfl
  active := h.active
  len := h.len.trans (congrArg List.length heq.symm)
  len_le := h.len_le
  line := fun i hi => (h.line i hi).trans (by rw [heq])
  last := h.last
  last_le := h.last_le

/-- A character that changes one place of the line. -/
theorem Agrees.update (h : Agrees lay s t) {typed : List CChar} {k : ℕ} {c : CChar}
    {len : BitVec 32} (hk : k ≤ shellCmdMaxLen) (hlen : len.toNat = (edited typed).length)
    (hle : len.toNat ≤ shellCmdMaxLen)
    (hline : ∀ i, (edited typed).getD i 0#8 = if i = k then c else (edited t.typed).getD i 0#8)
    (n : ℕ) :
    Agrees lay { s with
      mem := Function.update s.mem (inputLine lay s.inputLineActive + k) c
      inputLineLen := len
      received := n } ⟨typed, t.last, n⟩ := by
  have hlast := h.last_le
  have hmax : shellCmdMaxLen = 100 := rfl
  have hplaces := (@inputLine_other lay _ h.active).1
  refine ⟨rfl, h.active, hlen, hle, fun i hi => ?_, h.last.congr fun i hlo hhi => ?_, hlast⟩
  · rw [hline i]
    change Function.update s.mem (inputLine lay s.inputLineActive + k) c
      (inputLine lay s.inputLineActive + i) = _
    by_cases hik : i = k
    · rw [hik, if_pos rfl, Function.update_self]
    · rw [if_neg hik, Function.update_of_ne (by omega)]
      exact h.line i hi
  · exact Function.update_of_ne (by omega) ..

theorem getD_dropLast (l : List CChar) (i : ℕ) :
    l.dropLast.getD i 0#8 = if i = l.length - 1 then 0#8 else l.getD i 0#8 := by
  rw [List.getD_eq_getElem?_getD, List.getD_eq_getElem?_getD, List.getElem?_dropLast]
  rcases Nat.lt_trichotomy i (l.length - 1) with hlt | rfl | hgt
  · rw [if_pos hlt, if_neg (Nat.ne_of_lt hlt)]
  · rw [if_neg (Nat.lt_irrefl _), if_pos rfl, Option.getD_none]
  · rw [if_neg (by omega), if_neg (Nat.ne_of_gt hgt), List.getElem?_eq_none (by omega)]

theorem getD_append_singleton (l : List CChar) (c : CChar) (i : ℕ) :
    (l ++ [c]).getD i 0#8 = if i = l.length then c else l.getD i 0#8 := by
  simp only [List.getD_eq_getElem?_getD]
  split
  · rename_i hi
    rw [hi, List.getElem?_concat_length, Option.getD_some]
  · rename_i hi
    rcases Nat.lt_or_ge i l.length with hlt | hge
    · rw [List.getElem?_append_left hlt]
    · rw [List.getElem?_eq_none (by rw [List.length_append, List.length_singleton]; omega),
        List.getElem?_eq_none hge]

/-- A character that does not end the line is put into it as the session says. -/
theorem Agrees.input_line (h : Agrees lay s t)
    (hcont : ¬ (input t.received = carriageReturn ∨ (edited t.typed).length = shellCmdMaxLen ∧
      input t.received ≠ backspace ∧ input t.received ≠ lineFeed)) :
    (shellInputLine lay input s).1 = false ∧
      Agrees lay (shellInputLine lay input s).2 (t.kick reads input).2 := by
  obtain ⟨hcr, hfull⟩ := not_or.mp hcont
  have hlen := h.len
  have hle := h.len_le
  have hkick : (t.kick reads input).2 = ⟨t.typed ++ [input t.received], t.last,
      t.received + if input t.received = escape then 3 else 1⟩ := by
    rw [Session.kick, if_neg hcont]
  have hone : input t.received ≠ escape →
      s.received + 1 = t.received + if input t.received = escape then 3 else 1 := fun hne => by
    rw [if_neg hne, h.received]
  have hedit := edited_append t.typed (input t.received)
  rw [hkick, shellInputLine, h.received]
  by_cases hback : input t.received = backspace
  · have hnotesc : input t.received ≠ escape := by
      rw [hback]
      decide
    rw [edit, if_pos hback] at hedit
    simp only [if_pos hback, if_neg hnotesc]
    split
    · rename_i hpos
      have hposN : 0 < s.inputLineLen.toNat := hpos
      have hdec : (s.inputLineLen - 1#32).toNat = (edited t.typed).length - 1 := by
        rw [BitVec.toNat_sub_of_le hposN, ← hlen]
        rfl
      refine ⟨rfl, h.update (by omega) ?_ (by omega) (fun i => ?_) _⟩
      · rw [hdec, hedit, List.length_dropLast]
      · rw [hedit, getD_dropLast, hdec]
    · rename_i hzero
      have hempty : edited t.typed = [] :=
        List.eq_nil_of_length_eq_zero (hlen ▸ Nat.eq_zero_of_not_pos hzero)
      refine ⟨rfl, h.keep ?_ _⟩
      rw [hedit, hempty]
      rfl
  · rw [edit, if_neg hback] at hedit
    by_cases hlf : input t.received = lineFeed
    · have hnotprint : ¬ Printable (input t.received) := by
        rw [hlf]
        decide
      have hnotesc : input t.received ≠ escape := by
        rw [hlf]
        decide
      rw [if_neg hnotprint] at hedit
      rw [if_neg hback, if_neg hcr, if_pos hlf, if_neg hnotesc]
      exact ⟨rfl, h.keep hedit _⟩
    · have hroom : (edited t.typed).length ≠ shellCmdMaxLen := fun heq =>
        hfull ⟨heq, hback, hlf⟩
      have hmax : (BitVec.ofNat 32 shellCmdMaxLen).toNat = shellCmdMaxLen := rfl
      have hlt : s.inputLineLen < BitVec.ofNat 32 shellCmdMaxLen := by
        rw [BitVec.lt_def, hmax]
        omega
      have hltN : s.inputLineLen.toNat < shellCmdMaxLen := by omega
      simp only [if_neg hback, if_neg hcr, if_neg hlf, if_pos hlt]
      split
      · rename_i hprint
        have hnotesc : input t.received ≠ escape := fun heq => by
          rw [heq] at hprint
          exact absurd hprint (by decide)
        have hinc : (s.inputLineLen + 1#32).toNat = (edited t.typed).length + 1 := by
          rw [BitVec.toNat_add, ← hlen]
          exact Nat.mod_eq_of_lt (Nat.lt_of_le_of_lt (Nat.succ_le_of_lt hltN) (by decide))
        rw [if_pos hprint] at hedit
        rw [if_neg hnotesc]
        refine ⟨rfl, h.update (by omega) ?_ (by omega) (fun i => ?_) _⟩
        · rw [hinc, hedit, List.length_append, List.length_singleton]
        · rw [hedit, getD_append_singleton, hlen]
      · rename_i hnotprint
        rw [if_neg hnotprint] at hedit
        rw [shellHandleSpecialChar]
        split
        · exact ⟨rfl, h.keep hedit _⟩
        · exact ⟨rfl, h.keep hedit _⟩

/-- The line that is run when the line is done. -/
def Session.run (t : Session) : List CChar :=
  if (edited t.typed).head? = some (ascii '.') then t.last else edited t.typed

theorem Agrees.input_done (h : Agrees lay s t)
    (hend : input t.received = carriageReturn ∨ (edited t.typed).length = shellCmdMaxLen ∧
      input t.received ≠ backspace ∧ input t.received ≠ lineFeed) :
    shellInputLine lay input s =
      (true, { s with received := s.received + 1, inputLineLen := 0#32 }) := by
  have hlen := h.len
  rw [shellInputLine, h.received]
  by_cases hcr : input t.received = carriageReturn
  · have hback : input t.received ≠ backspace := by
      rw [hcr]
      decide
    simp only [if_neg hback, if_pos hcr]
  · obtain ⟨hfull, hback, hlf⟩ := hend.resolve_left hcr
    have hroom : ¬ s.inputLineLen < BitVec.ofNat 32 shellCmdMaxLen := by
      have hmax : (BitVec.ofNat 32 shellCmdMaxLen).toNat = shellCmdMaxLen := rfl
      rw [BitVec.lt_def, hmax]
      omega
    simp only [if_neg hback, if_neg hcr, if_neg hlf, if_neg hroom]

/-- The line that is done is handed over, and the next one is empty. -/
theorem Agrees.process (h : Agrees lay s t) (n : ℕ) :
    RunsLine lay (shellProcess lay { s with received := n, inputLineLen := 0#32 }).1 t.run ∧
      ∀ k, Agrees lay
        { (shellProcess lay { s with received := n, inputLineLen := 0#32 }).2 with received := k }
        ⟨[], t.run, k⟩ := by
  have hmax : shellCmdMaxLen = 100 := rfl
  have hsizeof : sizeofShell = 232 := rfl
  have hapart := lay.apart
  have hle : (edited t.typed).length ≤ shellCmdMaxLen := h.len ▸ h.len_le
  obtain ⟨hplaces, hother, hback⟩ := @inputLine_other lay _ h.active
  have hline : StringAt 0#8 s.mem (inputLine lay s.inputLineActive) (edited t.typed) :=
    stringAt_of_getD zero_not_mem_edited fun i hi => h.line i (Nat.le_trans hi hle)
  have hfirst : s.mem (inputLine lay s.inputLineActive) = ascii '.' ↔
      (edited t.typed).head? = some (ascii '.') := by
    cases hl : edited t.typed with
    | nil =>
      rw [hl] at hline
      have hzero : s.mem (inputLine lay s.inputLineActive) = 0#8 := hline
      rw [hzero]
      decide
    | cons c l =>
      rw [hl] at hline
      rw [hline.1, List.head?_cons, Option.some_inj]
  have hrun_le : t.run.length ≤ shellCmdMaxLen := by
    rw [Session.run]
    split
    · exact h.last_le
    · exact hle
  -- the line of the call, and the line that is active afterwards
  obtain ⟨active, a, hprocess, hactive, hrun, ha, hnew, hkept⟩ : ∃ active a,
      shellProcess lay { s with received := n, inputLineLen := 0#32 } =
        (⟨cString s.mem (shellCmdMaxLen + 1) a, (shellProcessCmd lay a s.mem).1,
          (shellProcessCmd lay a s.mem).2⟩,
          { s with
            received := n
            inputLineLen := 0#32
            inputLineActive := active
            mem := memset (inputLine lay active) 0#8 (shellCmdMaxLen + 1)
              (shellProcessCmd lay a s.mem).2 }) ∧
      (active = 0#32 ∨ active = 1#32) ∧ StringAt 0#8 s.mem a t.run ∧
      (a = lay.hvShell ∨ a = lay.hvShell + (shellCmdMaxLen + 1)) ∧
      (inputLine lay active = lay.hvShell ∨
        inputLine lay active = lay.hvShell + (shellCmdMaxLen + 1)) ∧
      inputLine lay (shellInputLineOther active) = a ∧ a ≠ inputLine lay active := by
    by_cases hdot : s.mem (inputLine lay s.inputLineActive) = ascii '.'
    · refine ⟨s.inputLineActive, inputLine lay (shellInputLineOther s.inputLineActive), ?_,
        h.active, ?_, ?_, ?_, rfl, ?_⟩
      · simp only [shellProcess, hdot, if_true]
      · rw [Session.run, if_pos (hfirst.mp hdot)]
        exact h.last
      · omega
      · omega
      · omega
    · refine ⟨shellInputLineOther s.inputLineActive, inputLine lay s.inputLineActive, ?_, hother,
        ?_, ?_, ?_, by rw [hback], ?_⟩
      · simp only [shellProcess, hdot, if_false]
      · rw [Session.run, if_neg (fun heq => hdot (hfirst.mpr heq))]
        exact hline
      · omega
      · omega
      · omega
  obtain ⟨hcall, hframe⟩ := shellProcessCmd_eq hrun hrun_le ha
  rw [hprocess, cString_eq hrun (Nat.lt_succ_of_le hrun_le)]
  refine ⟨hcall, fun k => ⟨rfl, hactive, rfl, Nat.zero_le _, fun i hi => ?_, ?_, hrun_le⟩⟩
  · change memset (inputLine lay active) 0#8 (shellCmdMaxLen + 1) _ (inputLine lay active + i) = _
    rw [memset, if_pos (by omega)]
    rfl
  · change StringAt 0#8 (memset (inputLine lay active) 0#8 (shellCmdMaxLen + 1)
      (shellProcessCmd lay a s.mem).2) (inputLine lay (shellInputLineOther active)) t.run
    rw [hkept.1]
    refine hrun.congr fun i hlo hhi => ?_
    have hne := hkept.2
    rw [memset, if_neg (by omega), hframe i (by omega)]

/-- One call of `shell_kick`. -/
theorem Agrees.kick (h : Agrees lay s t) :
    Option.Rel (RunsLine lay) (shellKick lay reads input s).1 (t.kick reads input).1 ∧
      Agrees lay (shellKick lay reads input s).2 (t.kick reads input).2 := by
  by_cases hend : input t.received = carriageReturn ∨ (edited t.typed).length = shellCmdMaxLen ∧
      input t.received ≠ backspace ∧ input t.received ≠ lineFeed
  · obtain ⟨hcall, hnext⟩ := h.process (s.received + 1)
    have htake := take_edited (h.len ▸ h.len_le) hend
    have hkick : t.kick reads input =
        (some t.run, ⟨[], t.run, t.received + 1 + reads t.run⟩) := by
      simp only [Session.kick, if_pos hend, htake]
      rfl
    have hreceived : (shellProcess lay
        { s with received := s.received + 1, inputLineLen := 0#32 }).2.received =
        t.received + 1 := congrArg (· + 1) h.received
    rw [hkick, shellKick, h.input_done hend]
    simp only [if_true, hcall.line_eq, hreceived]
    exact ⟨.some hcall, hnext _⟩
  · obtain ⟨hfalse, hnext⟩ := @Agrees.input_line lay s t reads input h hend
    have hnone : (t.kick reads input).1 = none := by rw [Session.kick, if_neg hend]
    rw [shellKick, hfalse, hnone]
    exact ⟨.none, hnext⟩

end

/-! ## Runs -/

section

variable (lay : ShellLayout) (reads : List CChar → ℕ) (input : ℕ → CChar)

/-- The shell after `n` calls of `shell_kick`. -/
def shellAfter (m : HostMem) : ℕ → Shell
  | 0 => shellInit lay m
  | n + 1 => (shellKick lay reads input (shellAfter m n)).2

/-- The session after `n` calls. -/
def sessionAfter : ℕ → Session
  | 0 => ⟨[], [], 0⟩
  | n + 1 => ((sessionAfter n).kick reads input).2

theorem agrees_init (m : HostMem) : Agrees lay (shellInit lay m) ⟨[], [], 0⟩ := by
  have hmax : shellCmdMaxLen = 100 := rfl
  have hsizeof : sizeofShell = 232 := rfl
  have hzero : ∀ i < sizeofShell, (shellInit lay m).mem (lay.hvShell + i) = 0#8 := fun i hi => by
    change memset _ _ _ (memset _ _ _ m) _ = _
    rw [memset]
    split
    · rfl
    · rw [memset, if_pos (by omega)]
  refine ⟨rfl, Or.inl rfl, rfl, Nat.zero_le _, fun i hi => ?_, ?_, Nat.zero_le _⟩
  · exact hzero i (by omega)
  · have hother : shellInputLineOther (shellInit lay m).inputLineActive = 1#32 := by
      change shellInputLineOther 0#32 = 1#32
      decide
    rw [hother]
    exact hzero (shellCmdMaxLen + 1) (by omega)

/-- **The shell runs the lines that were typed**: at every time the active line is what was typed,
with zeros behind it up to the end of the array, the next call of `shell_kick` hands over the line
that the session says, and the arguments are its pieces. -/
theorem shell_runs_session (m : HostMem) (n : ℕ) :
    Agrees lay (shellAfter lay reads input m n) (sessionAfter reads input n) ∧
      Option.Rel (RunsLine lay) (shellKick lay reads input (shellAfter lay reads input m n)).1
        ((sessionAfter reads input n).kick reads input).1 := by
  have hagrees : Agrees lay (shellAfter lay reads input m n) (sessionAfter reads input n) := by
    induction n with
    | zero => exact agrees_init lay m
    | succ n ih => exact ih.kick.2
  exact ⟨hagrees, hagrees.kick.1⟩

end

/-! ## Commas and spaces -/

/-- The pieces of a line when every run of spaces and every comma by itself is a separator. -/
def literalPieces : List CChar → List (List CChar)
  | [] => [[]]
  | c :: l =>
    if c = ascii ',' then [] :: literalPieces l
    else if c = ascii ' ' then
      if l.head? = some (ascii ' ') then literalPieces l else [] :: literalPieces l
    else
      match literalPieces l with
      | w :: ps => (c :: w) :: ps
      | [] => [[c]]

/-- The arguments that `string_to_argv` finds. -/
def argvStrings (a : ℕ) (m : HostMem) : List (List CChar) :=
  (stringToArgv a m).1.map (cString (stringToArgv a m).2 (shellCmdMaxLen + 1))

/-- `,a, b`. -/
def commaLine : List CChar := [ascii ',', ascii 'a', ascii ',', ascii ' ', ascii 'b']

/-- `,a, b` has an empty argument in front of the first comma and none behind the second. -/
theorem argvStrings_not_literal :
    (¬ ∀ (m : HostMem) (a : ℕ) (l : List CChar), 0 < a → StringAt 0#8 m a l →
      l.length ≤ shellCmdMaxLen → argvStrings a m = literalPieces l) ∧
    ¬ ∀ (m : HostMem) (a : ℕ) (l : List CChar), 0 < a → StringAt 0#8 m a l →
      l.length ≤ shellCmdMaxLen → argvStrings a m = (literalPieces l).filter (· ≠ []) := by
  have hline : StringAt 0#8 (fun i => commaLine.getD (i - 16) 0#8) 16 commaLine :=
    stringAt_of_getD (by decide) fun i _ => by rw [Nat.add_sub_cancel_left]
  have hfound : argvStrings 16 (fun i => commaLine.getD (i - 16) 0#8) =
      [[], [ascii 'a'], [ascii 'b']] := by
    decide +kernel
  refine ⟨fun h => ?_, fun h => ?_⟩
  · have hall := h _ 16 commaLine (by decide) hline (by decide)
    exact absurd (hfound.symm.trans hall) (by decide)
  · have hnonempty := h _ 16 commaLine (by decide) hline (by decide)
    exact absurd (hfound.symm.trans hnonempty) (by decide)

end Acrn
