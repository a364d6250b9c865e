import Mathlib.Data.List.TakeWhile
import Acrn.Printf

/-!
# Formatted output to a buffer

`vsnprintf` keeps to its buffer as long as the remaining space, computed as an unsigned
difference, is what it stands for, and as long as no padding crosses the end. This file says
exactly when that is so.
-/

namespace Acrn

open PieceWriter

/-! ## One piece -/

/-- The number of characters that `charmem` stores of a piece, when `off` are already written. -/
def keptOf (sz : BitVec 32) (off : ℕ) : EmitCall → ℕ
  | .copy _ _ => (sz - BitVec.ofNat 32 off).toNat
  | .fill _ n => if n < sz - BitVec.ofNat 32 off then n.toNat else 0

/-- The loop of `charmem` counts up to the terminator or to the end of the piece, and stores what
there is room for. -/
theorem charmemLoop_eq (room sz : BitVec 32) (s : List CChar) (p : ℕ) (n : BitVec 32)
    (m : HostMem) :
    charmemLoop room sz s p n m =
      (n + BitVec.ofNat 32 ((s.take (sz.toNat - n.toNat)).takeWhile (· ≠ 0#8)).length,
        storeAt p (((s.take (sz.toNat - n.toNat)).takeWhile (· ≠ 0#8)).take
          (room.toNat - n.toNat)) m) := by
  induction s generalizing p n m with
  | nil => rw [charmemLoop, List.take_nil, List.takeWhile_nil, List.take_nil, storeAt_nil,
      List.length_nil, BitVec.add_zero]
  | cons c s ih =>
    rw [charmemLoop]
    by_cases hlt : n < sz
    · have hltN : n.toNat < sz.toNat := hlt
      obtain ⟨k, hk⟩ : ∃ k, sz.toNat - n.toNat = k + 1 := ⟨sz.toNat - n.toNat - 1, by omega⟩
      by_cases hc : c = 0#8
      · rw [if_neg (fun h => h.1 hc), hk, List.take_succ_cons, hc, List.takeWhile_cons_of_neg
          (by decide), List.length_nil, List.take_nil, storeAt_nil, BitVec.add_zero]
      · have hsucc : (n + 1#32).toNat = n.toNat + 1 := by
          rw [BitVec.toNat_add, BitVec.toNat_ofNat]
          have := sz.isLt
          omega
        have hk' : sz.toNat - (n.toNat + 1) = k := by omega
        rw [if_pos ⟨hc, hlt⟩, ih, hsucc, hk, hk', List.take_succ_cons,
          List.takeWhile_cons_of_pos (by simpa using hc), List.length_cons]
        congr 1
        · rw [BitVec.add_assoc, ← BitVec.ofNat_add, Nat.add_comm 1]
        · by_cases hroom : n < room
          · have hroomN : n.toNat < room.toNat := hroom
            obtain ⟨r, hr⟩ : ∃ r, room.toNat - n.toNat = r + 1 :=
              ⟨room.toNat - n.toNat - 1, by omega⟩
            rw [if_pos hroom, hr, List.take_succ_cons, storeAt_cons,
              show room.toNat - (n.toNat + 1) = r by omega]
          · have hroomN : room.toNat ≤ n.toNat := Nat.le_of_not_lt hroom
            rw [if_neg hroom, Nat.sub_eq_zero_of_le hroomN,
              Nat.sub_eq_zero_of_le (Nat.le_succ_of_le hroomN), List.take_zero, List.take_zero,
              storeAt_nil, storeAt_nil]
    · have hge : sz.toNat ≤ n.toNat := Nat.le_of_not_lt hlt
      rw [if_neg (fun h => hlt h.2), Nat.sub_eq_zero_of_le hge, List.take_zero,
        List.takeWhile_nil, List.take_nil, storeAt_nil, List.length_nil, BitVec.add_zero]

/-- A fill is a store of copies of one character. -/
theorem memset_eq_storeAt (d : ℕ) (c : CChar) (n : ℕ) (m : HostMem) :
    memset d c n m = storeAt d (List.replicate n c) m := by
  funext i
  rw [memset]
  split
  · rename_i h
    rw [storeAt_of_lt h.1 (by rw [List.length_replicate]; omega), List.getElem_replicate]
  · rw [storeAt_frame (by rw [List.length_replicate]; omega)]

/-- What a call of `charmem` does, whatever its kind. -/
theorem charmem_eq (param : SnprintParam) (call : EmitCall) :
    charmem param call =
      { param with
        wrtn := param.wrtn + BitVec.ofNat 32 call.text.length
        dst := storeAt param.wrtn.toNat (call.text.take (keptOf param.sz param.wrtn.toNat call))
          param.dst } := by
  have hwrtn : BitVec.ofNat 32 param.wrtn.toNat = param.wrtn := by
    rw [BitVec.ofNat_toNat, BitVec.setWidth_eq]
  cases call with
  | copy s sz =>
    have hcopied : (if 0#32 < sz then
          charmemLoop (param.sz - param.wrtn) sz s param.wrtn.toNat 0#32 param.dst
        else (0#32, param.dst)) =
        (BitVec.ofNat 32 (EmitCall.copy s sz).text.length,
          storeAt param.wrtn.toNat ((EmitCall.copy s sz).text.take
            (param.sz - param.wrtn).toNat) param.dst) := by
      split
      · rw [charmemLoop_eq, BitVec.zero_add]
        rfl
      · rename_i h
        have hzero : sz.toNat = 0 := Nat.eq_zero_of_not_pos h
        rw [EmitCall.text, hzero, List.take_zero, List.takeWhile_nil, List.take_nil, storeAt_nil,
          List.length_nil]
    rw [charmem, hcopied, keptOf, hwrtn]
  | fill c sz =>
    rw [charmem, keptOf, hwrtn, EmitCall.text, memset_eq_storeAt, List.length_replicate,
      BitVec.ofNat_toNat, BitVec.setWidth_eq]
    split
    · rw [List.take_of_length_le (by rw [List.length_replicate])]
    · rfl

/-! ## All pieces -/

/-- The count grows by what the calls print, whether it is stored or not. -/
theorem foldl_charmem_wrtn (calls : List EmitCall) (param : SnprintParam) :
    (calls.foldl charmem param).wrtn =
      param.wrtn + BitVec.ofNat 32 (render EmitCall.text calls).length := by
  induction calls generalizing param with
  | nil => exact (BitVec.add_zero _).symm
  | cons call calls ih =>
    rw [List.foldl_cons, ih, charmem_eq, render_cons, List.length_append, BitVec.ofNat_add,
      BitVec.add_assoc]

/-- While the count does not overflow, the pieces are stored at the places where they belong. -/
theorem foldl_charmem_dst (sz : BitVec 32) (calls : List EmitCall) (off : ℕ) (m : HostMem)
    (h : off + (render EmitCall.text calls).length < 2 ^ 32) :
    (calls.foldl charmem ⟨m, sz, BitVec.ofNat 32 off⟩).dst =
      store EmitCall.text (keptOf sz) calls off m := by
  induction calls generalizing off m with
  | nil => rfl
  | cons call calls ih =>
    rw [render_cons, List.length_append] at h
    have hoff : (BitVec.ofNat 32 off).toNat = off := Nat.mod_eq_of_lt (by omega)
    rw [List.foldl_cons, charmem_eq, hoff, ← BitVec.ofNat_add, ih _ _ (by omega), store]

/-! ## The end of the format

What lies behind the NUL of the format must not matter. The parser is compared on a format with and
without something behind it: it stops where the format ends. -/

/-- Behind the end of a string the next character is the terminator that the format has there. -/
theorem deref_append (l t : List CChar) : deref (l ++ 0#8 :: t) = deref l := by
  cases l with
  | nil => rfl
  | cons c l => rfl

/-- Going on by one character leaves what lies behind the format. -/
theorem tail_append {l : List CChar} (h : l ≠ []) (t : List CChar) :
    (l ++ 0#8 :: t).tail = l.tail ++ 0#8 :: t := List.tail_append_of_ne_nil h

theorem tail_append_of_deref {l : List CChar} {c : Char} (h : deref l = ascii c)
    (hc : ascii c ≠ 0#8) (t : List CChar) : (l ++ 0#8 :: t).tail = l.tail ++ 0#8 :: t :=
  tail_append (ne_nil_of_deref h hc) t

section

variable (l t : List CChar)

/-- Parsing a parameter stops at the terminator at the latest. -/
theorem getParamLoop_append (x : BitVec 32) :
    getParamLoop (l ++ 0#8 :: t) x = ((getParamLoop l x).1 ++ 0#8 :: t, (getParamLoop l x).2) := by
  induction l generalizing x with
  | nil => rfl
  | cons c l ih =>
    rw [List.cons_append, getParamLoop, getParamLoop]
    split
    · exact ih _
    · rfl

theorem getParam_append :
    getParam (l ++ 0#8 :: t) = ((getParam l).1 ++ 0#8 :: t, (getParam l).2) := by
  rw [getParam, getParam, deref_append]
  split
  · rename_i h
    rw [tail_append_of_deref h (by decide), getParamLoop_append]
  · exact getParamLoop_append l t 0#32

theorem getPrecision_append :
    getPrecision (l ++ 0#8 :: t) = ((getPrecision l).1 ++ 0#8 :: t, (getPrecision l).2) := by
  rw [getPrecision, getPrecision, deref_append]
  split
  · rename_i h
    rw [tail_append_of_deref h (by decide), getParam_append]
  · rfl

theorem getFlagsLoop_append (flags : PrintFlags) :
    getFlagsLoop (l ++ 0#8 :: t) flags =
      ((getFlagsLoop l flags).1 ++ 0#8 :: t, (getFlagsLoop l flags).2) := by
  induction l generalizing flags with
  | nil => rfl
  | cons c l ih =>
    rw [List.cons_append, getFlagsLoop, getFlagsLoop]
    split
    · exact ih _
    · rfl

theorem getFlags_append (flags : PrintFlags) :
    getFlags (l ++ 0#8 :: t) flags = ((getFlags l flags).1 ++ 0#8 :: t, (getFlags l flags).2) := by
  rw [getFlags, getFlagsLoop_append]
  rfl

theorem getLengthModifier_append (flags : PrintFlags) (mask : Word) :
    getLengthModifier (l ++ 0#8 :: t) flags mask =
      ((getLengthModifier l flags mask).1 ++ 0#8 :: t, (getLengthModifier l flags mask).2) := by
  rw [getLengthModifier, getLengthModifier, deref_append]
  split
  · rename_i h
    rw [tail_append_of_deref h (by decide), deref_append]
    split
    · rename_i h'
      rw [tail_append_of_deref h' (by decide)]
    · rfl
  · split
    · rename_i h
      rw [tail_append_of_deref h (by decide), deref_append]
      split
      · rename_i h'
        rw [tail_append_of_deref h' (by decide)]
      · rfl
    · rfl

/-- Parsing a conversion looks at nothing behind the terminator. -/
theorem parseConversion_append :
    parseConversion (l ++ 0#8 :: t) =
      ((parseConversion l).1, (parseConversion l).2 ++ 0#8 :: t) := by
  rw [parseConversion, getFlags_append, getParam_append, getPrecision_append,
    getLengthModifier_append]
  rfl

theorem dropWhile_append :
    (l ++ 0#8 :: t).dropWhile isLiteral = l.dropWhile isLiteral ++ 0#8 :: t := by
  induction l with
  | nil => rfl
  | cons c l ih =>
    rw [List.cons_append, List.dropWhile_cons, List.dropWhile_cons]
    split
    · exact ih
    · rfl

end

/-- Every conversion of a format has a last character. -/
def completeFormat (fmt : List CChar) : Bool :=
  let start := fmt.dropWhile isLiteral
  if _h : deref start = ascii '%' then
    let conv := parseConversion start.tail
    !conv.2.isEmpty && completeFormat conv.2.tail
  else true
  termination_by fmt.length
  decreasing_by exact length_rest_lt _h

/-- What is left after a conversion is an end of the format, so the recursion goes down. -/
theorem doPrint_suffix (args : PrintArgs) (i : ℕ) (fmt : List CChar) :
    (doPrint args i fmt).2 <:+ fmt := by
  fun_induction doPrint args i fmt with
  | case1 => exact List.suffix_refl _
  | case2 i fmt _ start _ _ conv _ _ ih =>
    exact (ih.trans (rest_suffix fmt)).trans
      ((List.tail_suffix _).trans (List.dropWhile_suffix isLiteral))
  | case3 => exact List.dropWhile_suffix isLiteral

theorem deref_mem {l : List CChar} (h : l ≠ []) : deref l ∈ l := by
  obtain ⟨c, l, rfl⟩ := List.exists_cons_of_ne_nil h
  exact List.mem_cons_self

/-- A format without a NUL in it is literal to its end, or a conversion begins in it. -/
theorem dropWhile_eq_nil {fmt : List CChar} (hfmt : 0#8 ∉ fmt)
    (h : deref (fmt.dropWhile isLiteral) ≠ ascii '%') : fmt.dropWhile isLiteral = [] := by
  by_contra hne
  have hhead : isLiteral (deref (fmt.dropWhile isLiteral)) = false := by
    have := List.head_dropWhile_not isLiteral hne
    obtain ⟨c, l, hcons⟩ := List.exists_cons_of_ne_nil hne
    simp only [hcons, List.head_cons] at this
    rw [hcons]
    exact this
  have hmem := (List.dropWhile_suffix isLiteral).subset (deref_mem hne)
  have h0 : deref (fmt.dropWhile isLiteral) ≠ 0#8 := ne_of_mem_of_not_mem hmem hfmt
  rw [isLiteral, decide_eq_true h0, decide_eq_true h] at hhead
  exact Bool.false_ne_true hhead.symm

/-- The walk ends at the NUL of a complete format, and behind it otherwise. -/
theorem doPrint_stop (args : PrintArgs) (i : ℕ) {fmt : List CChar} (hfmt : 0#8 ∉ fmt)
    (tail : List CChar) :
    (doPrint args i (fmt ++ 0#8 :: tail)).2 = 0#8 :: tail ↔ completeFormat fmt = true := by
  induction fmt using completeFormat.induct generalizing i with
  | case1 fmt start h conv ih =>
    have hne : start ≠ [] := ne_nil_of_deref h (by decide)
    have hfmtne : fmt ≠ [] := by
      rintro rfl
      exact hne rfl
    have h0 : deref (fmt ++ 0#8 :: tail) ≠ 0#8 := by
      rw [deref_append]
      exact ne_of_mem_of_not_mem (deref_mem hfmtne) hfmt
    have hstart : deref ((fmt ++ 0#8 :: tail).dropWhile isLiteral) = ascii '%' := by
      rw [dropWhile_append, deref_append]
      exact h
    have hparse : (parseConversion ((fmt ++ 0#8 :: tail).dropWhile isLiteral).tail).2 =
        conv.2 ++ 0#8 :: tail := by
      rw [dropWhile_append, tail_append hne, parseConversion_append]
    have hcomplete : completeFormat fmt = (!conv.2.isEmpty && completeFormat conv.2.tail) := by
      rw [completeFormat, dif_pos h]
    rw [doPrint_conversion args i h0 hstart, hparse, hcomplete]
    by_cases hnil : conv.2 = []
    · -- the last character is the NUL, and the walk goes on behind it
      have hstop : ∀ j, (doPrint args j tail).2 ≠ 0#8 :: tail := fun j heq => by
        have := (doPrint_suffix args j tail).length_le
        rw [heq, List.length_cons] at this
        omega
      rw [hnil]
      exact ⟨fun heq => absurd heq (hstop _), fun heq => absurd heq Bool.false_ne_true⟩
    · have hsub : conv.2.tail <:+ fmt :=
        (rest_suffix fmt).trans ((List.tail_suffix _).trans (List.dropWhile_suffix isLiteral))
      rw [tail_append hnil, List.isEmpty_eq_false_iff.mpr hnil, Bool.not_false, Bool.true_and]
      exact ih _ fun hmem => hfmt (hsub.subset hmem)
  | case2 fmt start h =>
    have hnil : fmt.dropWhile isLiteral = [] := dropWhile_eq_nil hfmt h
    have hcomplete : completeFormat fmt = true := by
      rw [completeFormat, dif_neg h]
    refine ⟨fun _ => hcomplete, fun _ => ?_⟩
    by_cases h0 : deref (fmt ++ 0#8 :: tail) = 0#8
    · have hempty : fmt = [] := by
        by_contra hne
        rw [deref_append] at h0
        exact hfmt (h0 ▸ deref_mem hne)
      rw [doPrint_end args i h0, hempty, List.nil_append]
    · have hdrop : (fmt ++ 0#8 :: tail).dropWhile isLiteral = 0#8 :: tail := by
        rw [dropWhile_append, hnil, List.nil_append]
      have hend : deref (0#8 :: tail) ≠ ascii '%' := (by decide : 0#8 ≠ ascii '%')
      rw [doPrint_literal args i h0 (by rw [hdrop]; exact hend), hdrop]

/-! ## No NUL in the text -/

/-- A call that does not pad with NUL. -/
def EmitCall.Plain : EmitCall → Prop
  | copy _ _ => True
  | fill c _ => c ≠ 0#8

/-- A plain call prints no terminator. -/
theorem EmitCall.Plain.not_mem {call : EmitCall} (h : call.Plain) : 0#8 ∉ call.text := by
  cases call with
  | copy s sz =>
    intro hmem
    exact absurd (List.mem_takeWhile_imp hmem) (by decide)
  | fill c sz => exact fun hmem => h (List.eq_of_mem_replicate hmem).symm

/-- The pieces of a number are plain. -/
theorem formatNumber_plain (vars : PrintVars) : ∀ call ∈ formatNumber vars, call.Plain := by
  have hzero : (ascii '0') ≠ 0#8 := by decide
  have hspace : (ascii ' ') ≠ 0#8 := by decide
  rw [formatNumber]
  split_ifs <;> simp [EmitCall.Plain, hzero, hspace]

/-- The pieces of a string are plain. -/
theorem printString_plain (vars : PrintVars) (s : List CChar) :
    ∀ call ∈ printString vars s, call.Plain := by
  have hspace : (ascii ' ') ≠ 0#8 := by decide
  simp only [printString]
  split_ifs <;> simp [EmitCall.Plain, hspace]

theorem printConversion_plain (vars : PrintVars) (ch : CChar) (start fmt : List CChar)
    (args : PrintArgs) (arg : Word) :
    ∀ call ∈ (printConversion vars ch start fmt args arg).1, call.Plain := by
  have hcopy : ∀ s sz, ∀ call ∈ [EmitCall.copy s sz], call.Plain := by
    rintro s sz call hmem
    rw [List.mem_singleton.mp hmem]
    trivial
  unfold printConversion
  split_ifs
  · exact hcopy _ _
  · exact formatNumber_plain _
  · exact formatNumber_plain _
  · exact formatNumber_plain _
  · exact formatNumber_plain _
  · exact formatNumber_plain _
  · exact printString_plain _ _
  · exact printString_plain _ _
  · exact hcopy _ _

/-- All pieces that `do_print` emits are plain. -/
theorem doPrint_plain (args : PrintArgs) (i : ℕ) (fmt : List CChar) :
    ∀ call ∈ (doPrint args i fmt).1, call.Plain := by
  fun_induction doPrint args i fmt with
  | case1 => exact fun call hmem => absurd hmem List.not_mem_nil
  | case2 i fmt _ start literal _ conv out later ih =>
    intro call hmem
    obtain rfl | hmem := List.mem_cons.mp hmem
    · trivial
    · obtain hmem | hmem := List.mem_append.mp hmem
      · exact printConversion_plain _ _ _ _ _ _ call hmem
      · exact ih call hmem
  | case3 =>
    intro call hmem
    rw [List.mem_singleton.mp hmem]
    trivial

theorem not_mem_render {calls : List EmitCall} (h : ∀ call ∈ calls, call.Plain) :
    0#8 ∉ render EmitCall.text calls := by
  intro hmem
  obtain ⟨call, hcall, hc⟩ := List.mem_flatMap.mp hmem
  exact (h call hcall).not_mem hc

/-! ## When the output keeps to its buffer

The text is a list of pieces, and each that begins in the buffer has to be cut where the buffer
ends. `charmem` does that for copies. Padding has to fit, or to begin at the last byte or behind
it. -/

instance : Nontrivial CChar := ⟨0#8, 1#8, by decide⟩

section

variable (sz : Word) (fmt : CString) (tail : List CChar) (args : PrintArgs)

/-- The calls that `do_print` makes for `fmt`, behind whose NUL the memory goes on with `tail`. -/
def emitted : List EmitCall := (doPrint args 0 (fmt.val ++ 0#8 :: tail)).1

/-- The rendering of the format: all the text that the emit function gets. -/
def rendering : List CChar := render EmitCall.text (emitted fmt tail args)

/-- The result of `vsnprintf` and the memory from the destination on. -/
def printed (dst : HostMem) : Word × HostMem := vsnprintf dst sz (fmt.val ++ 0#8 :: tail) args

/-- **Formatted output keeps to its buffer and truncates to a prefix**, whatever the memory held
before. -/
structure PrintsPrefix : Prop where
  /-- The format is read no further than its NUL. -/
  stops : (doPrint args 0 (fmt.val ++ 0#8 :: tail)).2 = 0#8 :: tail
  returns : ∀ dst, (printed sz fmt tail args dst).1.toNat = (rendering fmt tail args).length
  holds : ∀ dst i, i < min (sz.toNat - 1) (rendering fmt tail args).length →
    some ((printed sz fmt tail args dst).2 i) = (rendering fmt tail args)[i]?
  terminated : ∀ dst,
    (printed sz fmt tail args dst).2 (min (sz.toNat - 1) (rendering fmt tail args).length) = 0#8
  /-- Nothing is written behind the buffer. -/
  inside : ∀ dst i, sz.toNat ≤ i → (printed sz fmt tail args dst).2 i = dst i

end

/-- A piece that begins at `off` in a buffer of `sz` bytes comes to lie there as it should: none
begins behind the end, and padding that reaches the end begins at the last byte or there. -/
def PieceFits (sz off : ℕ) : EmitCall → Prop
  | .copy s n => (EmitCall.copy s n).text = [] ∨ off ≤ sz
  | .fill _ n => n = 0#32 ∨ off ≤ sz ∧ (off + n.toNat < sz ∨ sz ≤ off + 1)

/-- The condition on the buffer: the text is shorter than `2 ^ 32`, every piece fits, and a size
that the 32-bit field cannot hold leaves enough of itself there. -/
def BufferSuffices (sz : Word) (calls : List EmitCall) : Prop :=
  (render EmitCall.text calls).length < 2 ^ 32 ∧
    if sz.toNat < 2 ^ 32 then AtPlace EmitCall.text (PieceFits sz.toNat) calls 0
    else (render EmitCall.text calls).length < sz.toNat % 2 ^ 32

/-- What `charmem` keeps of a piece is what fits. -/
theorem fits_iff_pieceFits {sz : ℕ} (hsz : sz < 2 ^ 32) {off : ℕ} {call : EmitCall}
    (h : off + call.text.length < 2 ^ 32) :
    Fits EmitCall.text (keptOf (BitVec.ofNat 32 sz)) (sz - 1) sz off call ↔
      PieceFits sz off call := by
  have hroom : (BitVec.ofNat 32 sz - BitVec.ofNat 32 off).toNat =
      if off ≤ sz then sz - off else sz + 2 ^ 32 - off := by
    rw [BitVec.toNat_sub, BitVec.toNat_ofNat, BitVec.toNat_ofNat, Nat.mod_eq_of_lt hsz,
      Nat.mod_eq_of_lt (show off < 2 ^ 32 by omega)]
    split <;> omega
  cases call with
  | copy s n =>
    rw [Fits, storedLen, PieceFits, keptOf, hroom, ← List.length_eq_zero_iff]
    split <;> omega
  | fill c n =>
    have hlen : (EmitCall.fill c n).text.length = n.toNat := List.length_replicate
    have hzero : n = 0#32 ↔ n.toNat = 0 := BitVec.toNat_eq
    have hlt : n < BitVec.ofNat 32 sz - BitVec.ofNat 32 off ↔
        n.toNat < if off ≤ sz then sz - off else sz + 2 ^ 32 - off := by
      rw [BitVec.lt_def, hroom]
    rw [hlen] at h
    simp only [Fits, storedLen, PieceFits, keptOf, hlen, hlt, hzero]
    split <;> split <;> omega

section

variable {sz : Word} {fmt : CString} {tail : List CChar} {args : PrintArgs}

/-- The return value is the length of the whole text, in 32 bits. -/
theorem printed_fst (dst : HostMem) :
    (printed sz fmt tail args dst).1.toNat = (rendering fmt tail args).length % 2 ^ 32 := by
  have hwrtn := foldl_charmem_wrtn (emitted fmt tail args) ⟨dst, sz.setWidth 32, 0#32⟩
  rw [BitVec.zero_add] at hwrtn
  have hfst : (printed sz fmt tail args dst).1 =
      (BitVec.ofNat 32 (rendering fmt tail args).length).setWidth 64 :=
    congrArg (BitVec.setWidth 64) hwrtn
  rw [hfst, BitVec.toNat_setWidth, BitVec.toNat_ofNat, Nat.mod_eq_of_lt (by omega)]

/-- The place of the final NUL. -/
def lastPlace (sz : BitVec 32) (len : ℕ) : ℕ := if len < sz.toNat then len else (sz - 1#32).toNat

theorem printed_snd (h : (rendering fmt tail args).length < 2 ^ 32) (dst : HostMem) :
    (printed sz fmt tail args dst).2 =
      Function.update (store EmitCall.text (keptOf (sz.setWidth 32)) (emitted fmt tail args) 0 dst)
        (lastPlace (sz.setWidth 32) (rendering fmt tail args).length) 0#8 := by
  have hwrtn := foldl_charmem_wrtn (emitted fmt tail args) ⟨dst, sz.setWidth 32, 0#32⟩
  rw [BitVec.zero_add] at hwrtn
  have hdst := foldl_charmem_dst (sz.setWidth 32) (emitted fmt tail args) 0 dst
    (by rw [Nat.zero_add]; exact h)
  have hlen : (BitVec.ofNat 32 (rendering fmt tail args).length).toNat =
      (rendering fmt tail args).length := Nat.mod_eq_of_lt h
  rw [printed, vsnprintf]
  simp only [← emitted.eq_1, hwrtn, ← rendering.eq_1]
  have hlast : (if BitVec.ofNat 32 (rendering fmt tail args).length < sz.setWidth 32 then
        BitVec.ofNat 32 (rendering fmt tail args).length
      else sz.setWidth 32 - 1#32).toNat =
      lastPlace (sz.setWidth 32) (rendering fmt tail args).length := by
    rw [lastPlace]
    split
    · rename_i hlt
      rw [BitVec.lt_def, hlen] at hlt
      rw [if_pos hlt, hlen]
    · rename_i hge
      rw [BitVec.lt_def, hlen] at hge
      rw [if_neg hge]
  rw [hlast]
  congr 1

/-- The text and its NUL come to lie as they should, if and only if every piece fits: a size that
the field of the buffer's size holds. -/
theorem holds_iff_of_lt (hpos : 1 ≤ sz.toNat) (hsz : sz.toNat < 2 ^ 32)
    (h : (rendering fmt tail args).length < 2 ^ 32) :
    ((∀ dst i, i < min (sz.toNat - 1) (rendering fmt tail args).length →
        some ((printed sz fmt tail args dst).2 i) = (rendering fmt tail args)[i]?) ∧
      (∀ dst, (printed sz fmt tail args dst).2
        (min (sz.toNat - 1) (rendering fmt tail args).length) = 0#8) ∧
      ∀ dst i, sz.toNat ≤ i → (printed sz fmt tail args dst).2 i = dst i) ↔
    AtPlace EmitCall.text (PieceFits sz.toNat) (emitted fmt tail args) 0 := by
  have hwidth : sz.setWidth 32 = BitVec.ofNat 32 sz.toNat := rfl
  have hsize : (sz.setWidth 32).toNat = sz.toNat := by
    rw [BitVec.toNat_setWidth, Nat.mod_eq_of_lt hsz]
  have hlast : lastPlace (sz.setWidth 32) (rendering fmt tail args).length =
      min (sz.toNat - 1) (rendering fmt tail args).length := by
    have hsub : (sz.setWidth 32 - 1#32).toNat = sz.toNat - 1 := by
      rw [BitVec.toNat_sub_of_le (by rw [BitVec.le_def, hsize]; exact hpos), hsize]
      rfl
    rw [lastPlace, hsub, hsize]
    split <;> omega
  have hpieces : AtPlace EmitCall.text (PieceFits sz.toNat) (emitted fmt tail args) 0 ↔
      AtPlace EmitCall.text (Fits EmitCall.text (keptOf (sz.setWidth 32)) (sz.toNat - 1) sz.toNat)
        (emitted fmt tail args) 0 := by
    refine atPlace_congr fun pre call _ hle => ?_
    rw [rendering] at h
    exact (fits_iff_pieceFits hsz (by omega)).symm
  rw [hpieces, ← store_iff]
  constructor
  · rintro ⟨hholds, -, hinside⟩ dst
    refine ⟨fun i hi => ?_, fun i hi => ?_⟩
    · have hne : i ≠ min (sz.toNat - 1) (rendering fmt tail args).length := Nat.ne_of_lt hi
      have hout := hholds dst i hi
      rwa [printed_snd h, hlast, Function.update_of_ne hne] at hout
    · have hout := hinside dst i hi
      rwa [printed_snd h, hlast, Function.update_of_ne (by omega)] at hout
  · intro hstore
    refine ⟨fun dst i hi => ?_, fun dst => ?_, fun dst i hi => ?_⟩
    · have hne : i ≠ min (sz.toNat - 1) (rendering fmt tail args).length := Nat.ne_of_lt hi
      rw [printed_snd h, hlast, Function.update_of_ne hne]
      exact (hstore dst).1 i hi
    · rw [printed_snd h, hlast, Function.update_self]
    · rw [printed_snd h, hlast, Function.update_of_ne (by omega)]
      exact (hstore dst).2 i hi

/-- The same for a size of which the field holds the low half only. -/
theorem holds_iff_of_ge (hsz : 2 ^ 32 ≤ sz.toNat)
    (h : (rendering fmt tail args).length < 2 ^ 32) :
    ((∀ dst i, i < min (sz.toNat - 1) (rendering fmt tail args).length →
        some ((printed sz fmt tail args dst).2 i) = (rendering fmt tail args)[i]?) ∧
      (∀ dst, (printed sz fmt tail args dst).2
        (min (sz.toNat - 1) (rendering fmt tail args).length) = 0#8) ∧
      ∀ dst i, sz.toNat ≤ i → (printed sz fmt tail args dst).2 i = dst i) ↔
    (rendering fmt tail args).length < sz.toNat % 2 ^ 32 := by
  have hsize : (sz.setWidth 32).toNat = sz.toNat % 2 ^ 32 := BitVec.toNat_setWidth ..
  have hmin : min (sz.toNat - 1) (rendering fmt tail args).length =
      (rendering fmt tail args).length := by omega
  rw [hmin]
  constructor
  · rintro ⟨hholds, hterm, -⟩
    by_contra hge
    have hlast : lastPlace (sz.setWidth 32) (rendering fmt tail args).length =
        (sz.setWidth 32 - 1#32).toNat := by
      rw [lastPlace, hsize, if_neg hge]
    rcases Nat.eq_zero_or_pos (sz.toNat % 2 ^ 32) with hzero | hpos
    · -- the NUL goes to the end of the 4 GBytes, and the first character is not stored
      have hwidth : sz.setWidth 32 = 0#32 := BitVec.eq_of_toNat_eq (hsize.trans hzero)
      have hplace : (sz.setWidth 32 - 1#32).toNat = 2 ^ 32 - 1 := by
        rw [hwidth]
        rfl
      rw [hplace] at hlast
      have hfirst : ¬ Stored EmitCall.text (keptOf (sz.setWidth 32)) (emitted fmt tail args) 0 0 :=
        fun hstored => by
          obtain ⟨pre, call, -, hlo, hhi⟩ := hstored.piece
          obtain rfl : pre = 0 := Nat.eq_zero_of_le_zero hlo
          have hnone : keptOf (sz.setWidth 32) 0 call = 0 := by
            rw [hwidth]
            cases call with
            | copy s n => rfl
            | fill c n =>
              have hn : ¬ n < 0#32 - BitVec.ofNat 32 0 := fun hlt => Nat.not_lt_zero _ hlt
              rw [keptOf, if_neg hn]
          rw [storedLen, hnone] at hhi
          omega
      have hkeep : ∀ dst, (printed sz fmt tail args dst).2 0 = dst 0 := fun dst => by
        rw [printed_snd h, hlast, Function.update_of_ne (by decide), store_of_not_stored hfirst]
      rcases Nat.eq_zero_or_pos (rendering fmt tail args).length with hempty | hlen
      · have hnul := hterm fun _ => 1#8
        rw [hempty, hkeep] at hnul
        exact absurd hnul (by decide)
      · have hzeros := hholds (fun _ => 0#8) 0 hlen
        have hones := hholds (fun _ => 1#8) 0 hlen
        rw [hkeep] at hzeros hones
        exact absurd (Option.some_inj.mp (hzeros.trans hones.symm)) (by decide)
    · -- the NUL goes to a place inside the text
      have hplace : (sz.setWidth 32 - 1#32).toNat = sz.toNat % 2 ^ 32 - 1 := by
        rw [BitVec.toNat_sub_of_le (by rw [BitVec.le_def, hsize]; exact hpos), hsize]
        rfl
      have hnul := hholds (fun _ => 0#8) (sz.toNat % 2 ^ 32 - 1) (by omega)
      rw [printed_snd h, hlast, hplace, Function.update_self] at hnul
      exact not_mem_render (doPrint_plain args 0 _) (List.mem_of_getElem? hnul.symm)
  · intro hlt
    have hlast : lastPlace (sz.setWidth 32) (rendering fmt tail args).length =
        (rendering fmt tail args).length := by
      rw [lastPlace, hsize, if_pos hlt]
    have hfits : AtPlace EmitCall.text (Fits EmitCall.text (keptOf (sz.setWidth 32))
        (rendering fmt tail args).length sz.toNat) (emitted fmt tail args) 0 := by
      refine atPlace_of_forall fun pre call _ hle => ?_
      have hlt' : pre + call.text.length < sz.toNat % 2 ^ 32 := by
        rw [rendering] at hlt
        omega
      have hall : storedLen EmitCall.text (keptOf (sz.setWidth 32)) pre call =
          call.text.length := by
        have hroom : (sz.setWidth 32 - BitVec.ofNat 32 pre).toNat = sz.toNat % 2 ^ 32 - pre := by
          have hpre : (BitVec.ofNat 32 pre).toNat = pre := Nat.mod_eq_of_lt (by omega)
          rw [BitVec.toNat_sub_of_le (by rw [BitVec.le_def, hsize, hpre]; omega), hsize, hpre]
        cases call with
        | copy s n =>
          rw [storedLen, keptOf, hroom]
          omega
        | fill c n =>
          have hlen : (EmitCall.fill c n).text.length = n.toNat := List.length_replicate
          have hn : n < sz.setWidth 32 - BitVec.ofNat 32 pre := by
            rw [BitVec.lt_def, hroom]
            omega
          rw [storedLen, keptOf, if_pos hn, hlen, Nat.min_self]
      rw [Fits, hall]
      omega
    rw [← store_iff] at hfits
    refine ⟨fun dst i hi => ?_, fun dst => ?_, fun dst i hi => ?_⟩
    · rw [printed_snd h, hlast, Function.update_of_ne (Nat.ne_of_lt hi)]
      exact (hfits dst).1 i (by rw [← rendering]; omega)
    · rw [printed_snd h, hlast, Function.update_self]
    · rw [printed_snd h, hlast, Function.update_of_ne (by omega)]
      exact (hfits dst).2 i hi

/-- **Exactly when formatted output keeps to its buffer and truncates to a prefix.** -/
theorem vsnprintf_prefix_iff (hpos : 1 ≤ sz.toNat) :
    PrintsPrefix sz fmt tail args ↔
      completeFormat fmt.val = true ∧ BufferSuffices sz (emitted fmt tail args) := by
  have hstop := doPrint_stop args 0 fmt.property tail
  constructor
  · intro hprints
    have hlen : (rendering fmt tail args).length < 2 ^ 32 := by
      rw [← hprints.returns fun _ => 0#8, printed_fst]
      exact Nat.mod_lt _ (by decide)
    refine ⟨hstop.mp hprints.stops, hlen, ?_⟩
    split
    · rename_i hsz
      exact (holds_iff_of_lt hpos hsz hlen).mp
        ⟨hprints.holds, hprints.terminated, hprints.inside⟩
    · rename_i hsz
      exact (holds_iff_of_ge (Nat.le_of_not_lt hsz) hlen).mp
        ⟨hprints.holds, hprints.terminated, hprints.inside⟩
  · rintro ⟨hcomplete, hlen, hbuffer⟩
    rw [← rendering] at hlen
    have hreturns : ∀ dst, (printed sz fmt tail args dst).1.toNat =
        (rendering fmt tail args).length := fun dst => by
      rw [printed_fst, Nat.mod_eq_of_lt hlen]
    split at hbuffer
    · rename_i hsz
      obtain ⟨hholds, hterm, hinside⟩ := (holds_iff_of_lt hpos hsz hlen).mpr hbuffer
      exact ⟨hstop.mpr hcomplete, hreturns, hholds, hterm, hinside⟩
    · rename_i hsz
      obtain ⟨hholds, hterm, hinside⟩ := (holds_iff_of_ge (Nat.le_of_not_lt hsz) hlen).mpr hbuffer
      exact ⟨hstop.mpr hcomplete, hreturns, hholds, hterm, hinside⟩

end

/-! ## A string behind padding that does not fit -/

/-- `"%5s"`. -/
def paddedFormat : CString := ⟨[ascii '%', ascii '5', ascii 's'], by decide⟩

/-- One argument, which points to `"hi"`. -/
def paddedArgs : PrintArgs :=
  ⟨fun _ => 0x1000#64, fun _ => some ⟨[ascii 'h', ascii 'i'], by decide⟩⟩

theorem vsnprintf_prefix_iff_padded :
    1 ≤ (6#64).toNat ∧ (PrintsPrefix 6#64 paddedFormat [] paddedArgs ↔
      completeFormat paddedFormat.val = true ∧
        BufferSuffices 6#64 (emitted paddedFormat [] paddedArgs)) :=
  ⟨by decide, vsnprintf_prefix_iff (by decide)⟩

/-- In a buffer of two bytes the string comes to lie behind the buffer. -/
theorem vsnprintf_not_prefix :
    ¬ ∀ (sz : Word) (fmt : CString) (tail : List CChar) (args : PrintArgs),
      1 ≤ sz.toNat → PrintsPrefix sz fmt tail args := by
  intro h
  have hprefix := h 2#64 paddedFormat [] paddedArgs (by decide)
  have hinside := hprefix.inside (fun _ => 0#8) 3 (by decide)
  have hstored : (printed 2#64 paddedFormat [] paddedArgs fun _ => 0#8).2 3 = ascii 'h' := by
    decide +kernel
  exact absurd (hstored.symm.trans hinside) (by decide)

end Acrn
