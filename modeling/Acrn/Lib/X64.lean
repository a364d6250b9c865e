import Mathlib.Data.BitVec
import Mathlib.Logic.Function.Basic

/-!
# A part of the 64-bit x86 instruction set

The instructions that routines written in assembler need to save registers on a stack and to
load others: pushes, pops, moves, a little arithmetic and jumps. What else a routine executes
is a parameter, with its own effects on a state that the instructions here leave alone.

Memory is accessed by quadwords at addresses that are multiples of 8, and an access at another
address is not described. Of the status flags, CF and ZF are kept up to date.
-/

namespace X64

/-- The general-purpose registers. -/
inductive Reg where
  | rax | rcx | rdx | rbx | rsp | rbp | rsi | rdi
  | r8 | r9 | r10 | r11 | r12 | r13 | r14 | r15
  deriving DecidableEq

/-- What the instructions work on; `sys` is for the instructions of the parameter. -/
@[ext]
structure Machine (S : Type*) where
  gpr : Reg → BitVec 64
  rflags : BitVec 64
  /-- the quadword at an address -/
  mem : BitVec 64 → BitVec 64
  /-- the return stack buffer: where the calls that no `ret` has taken yet return to, the last one
  first -/
  rsb : List (BitVec 64)
  sys : S

/-- An address of a quadword. -/
def Aligned (a : BitVec 64) : Prop := a.toNat % 8 = 0

instance (a : BitVec 64) : Decidable (Aligned a) := inferInstanceAs (Decidable (_ = _))

namespace Aligned

variable {a b : BitVec 64}

theorem add (ha : Aligned a) (hb : Aligned b) : Aligned (a + b) := by
  unfold Aligned at *
  bv_omega

theorem sub (ha : Aligned a) (hb : Aligned b) : Aligned (a - b) := by
  unfold Aligned at *
  bv_omega

/-- Offsets of quadwords. -/
theorem quad (n : ℕ) : Aligned (BitVec.ofNat 64 (8 * n)) := by
  unfold Aligned
  bv_omega

end Aligned

/-- The instructions that go on to the next one. -/
inductive Op where
  | push (r : Reg)
  | pushImm (v : BitVec 64)
  | pop (r : Reg)
  | pushf
  | popf
  | mov (dst src : Reg)
  | movImm (dst : Reg) (v : BitVec 64)
  | load (dst base : Reg) (off : BitVec 64)
  | store (base : Reg) (off : BitVec 64) (src : Reg)
  | xchg (base : Reg) (off : BitVec 64) (r : Reg)
  | cmpImm (r : Reg) (v : BitVec 64)
  | addImm (dst : Reg) (v : BitVec 64)
  | dec (r : Reg)
  /-- `xor` of a register with itself -/
  | zero (r : Reg)
  | pause
  deriving DecidableEq

/-- The conditions of jumps. -/
inductive Cond where
  | carry
  | zero
  | notZero
  | carryOrZero
  deriving DecidableEq

/-- The instructions, with those of the parameter. -/
inductive Instr (E : Type*) where
  | op (o : Op)
  | jmp (target : BitVec 64)
  | jcc (c : Cond) (target : BitVec 64)
  | call (target : BitVec 64)
  | ret
  | ext (e : E)

/-- RFLAGS with CF and ZF as given. -/
def setFlags (rflags : BitVec 64) (cf zf : Bool) : BitVec 64 :=
  (rflags &&& ~~~0x41#64) ||| (if cf then 0x1#64 else 0#64) ||| (if zf then 0x40#64 else 0#64)

@[simp] theorem getLsbD_setFlags_cf {rflags : BitVec 64} {cf zf : Bool} :
    (setFlags rflags cf zf).getLsbD 0 = cf := by
  cases cf <;> cases zf <;> simp [setFlags]

@[simp] theorem getLsbD_setFlags_zf {rflags : BitVec 64} {cf zf : Bool} :
    (setFlags rflags cf zf).getLsbD 6 = zf := by
  cases cf <;> cases zf <;> simp [setFlags]

/-- A jump with the condition is taken. -/
def Cond.holds (rflags : BitVec 64) : Cond → Bool
  | .carry => rflags.getLsbD 0
  | .zero => rflags.getLsbD 6
  | .notZero => !rflags.getLsbD 6
  | .carryOrZero => rflags.getLsbD 0 || rflags.getLsbD 6

section
variable {S : Type*}

namespace Machine

variable (m : Machine S)

/-- A register is loaded. -/
def set (r : Reg) (v : BitVec 64) : Machine S := { m with gpr := Function.update m.gpr r v }

/-- A quadword is read. -/
def read (a : BitVec 64) : Option (BitVec 64) := if Aligned a then some (m.mem a) else none

/-- A quadword is written. -/
def write (a v : BitVec 64) : Option (Machine S) :=
  if Aligned a then some { m with mem := Function.update m.mem a v } else none

/-- A quadword is pushed. -/
def push (v : BitVec 64) : Option (Machine S) :=
  (m.set .rsp (m.gpr .rsp - 8#64)).write (m.gpr .rsp - 8#64) v

theorem gpr_set_self {r : Reg} {v : BitVec 64} : (m.set r v).gpr r = v := Function.update_self ..

theorem gpr_set_of_ne {r r' : Reg} {v : BitVec 64} (h : r' ≠ r) : (m.set r v).gpr r' = m.gpr r' :=
  Function.update_of_ne h ..

/-- CF and ZF are set. -/
def flags (cf zf : Bool) : Machine S := { m with rflags := setFlags m.rflags cf zf }

/-- A call is noted in the return stack buffer, -/
def called (next : BitVec 64) : Machine S := { m with rsb := next :: m.rsb }

/-- and a return takes the last one from it. -/
def returned : Machine S := { m.set .rsp (m.gpr .rsp + 8#64) with rsb := m.rsb.tail }

variable {m} {r : Reg} {v : BitVec 64} {cf zf : Bool}

@[simp] theorem mem_set : (m.set r v).mem = m.mem := rfl
@[simp] theorem rflags_set : (m.set r v).rflags = m.rflags := rfl
@[simp] theorem rsb_set : (m.set r v).rsb = m.rsb := rfl
@[simp] theorem sys_set : (m.set r v).sys = m.sys := rfl
@[simp] theorem gpr_flags : (m.flags cf zf).gpr = m.gpr := rfl
@[simp] theorem mem_flags : (m.flags cf zf).mem = m.mem := rfl
@[simp] theorem rflags_flags : (m.flags cf zf).rflags = setFlags m.rflags cf zf := rfl
@[simp] theorem rsb_flags : (m.flags cf zf).rsb = m.rsb := rfl
@[simp] theorem sys_flags : (m.flags cf zf).sys = m.sys := rfl
@[simp] theorem gpr_called : (m.called v).gpr = m.gpr := rfl
@[simp] theorem mem_called : (m.called v).mem = m.mem := rfl
@[simp] theorem rflags_called : (m.called v).rflags = m.rflags := rfl
@[simp] theorem rsb_called : (m.called v).rsb = v :: m.rsb := rfl
@[simp] theorem sys_called : (m.called v).sys = m.sys := rfl

end Machine

/-- What an instruction does. Bit 1 of RFLAGS is always set. -/
def exec (m : Machine S) : Op → Option (Machine S)
  | .push r => m.push (m.gpr r)
  | .pushImm v => m.push v
  | .pop r => (m.read (m.gpr .rsp)).map ((m.set .rsp (m.gpr .rsp + 8#64)).set r)
  | .pushf => m.push m.rflags
  | .popf => (m.read (m.gpr .rsp)).map fun v =>
      { m.set .rsp (m.gpr .rsp + 8#64) with rflags := v ||| 0x2#64 }
  | .mov dst src => some (m.set dst (m.gpr src))
  | .movImm dst v => some (m.set dst v)
  | .load dst base off => (m.read (m.gpr base + off)).map (m.set dst)
  | .store base off src => m.write (m.gpr base + off) (m.gpr src)
  | .xchg base off r => (m.read (m.gpr base + off)).bind fun v =>
      (m.write (m.gpr base + off) (m.gpr r)).map (·.set r v)
  | .cmpImm r v => some (m.flags (decide (m.gpr r < v)) (decide (m.gpr r = v)))
  | .addImm dst v => some ((m.set dst (m.gpr dst + v)).flags
      (decide (2 ^ 64 ≤ (m.gpr dst).toNat + v.toNat)) (decide (m.gpr dst + v = 0#64)))
  | .dec r => some ((m.set r (m.gpr r - 1#64)).flags (m.rflags.getLsbD 0)
      (decide (m.gpr r - 1#64 = 0#64)))
  | .zero r => some ((m.set r 0#64).flags false true)
  | .pause => some m

/-- What a sequence of them does. -/
def execAll (m : Machine S) (ops : List Op) : Option (Machine S) := ops.foldlM exec m

/-! ## Steps

`Ensures` is about all results of the instructions of the parameter: whatever they do, control
comes to where it should, and no instruction is executed that is not described. -/

/-- Code: the instruction at an address, and the address of the one after it. -/
abbrev Code (E : Type*) := BitVec 64 → Option (Instr E × BitVec 64)

/-- Where the machine is, with what it works on. -/
abbrev Config (S : Type*) := BitVec 64 × Machine S

variable {E : Type*} {code : Code E} {ext : E → BitVec 64 → Machine S → Config S → Prop}

/-- What an instruction does, where `next` is the address of the one after it. -/
def Does (ext : E → BitVec 64 → Machine S → Config S → Prop) (next : BitVec 64) (m : Machine S) :
    Instr E → Config S → Prop
  | .op o, c => (exec m o).map (next, ·) = some c
  | .jmp target, c => c = (target, m)
  | .jcc cond target, c => c = (if cond.holds m.rflags then target else next, m)
  | .call target, c => (m.push next).map (target, ·.called next) = some c
  | .ret, c => (m.read (m.gpr .rsp)).map (·, m.returned) = some c
  | .ext e, c => ext e next m c

/-- One step. -/
def Step (code : Code E) (ext : E → BitVec 64 → Machine S → Config S → Prop)
    (c c' : Config S) : Prop :=
  ∃ i next, code c.1 = some (i, next) ∧ Does ext next c.2 i c'

/-- Whatever the instructions of the parameter do, the machine comes to a configuration with
`Q`, and does not stop before. -/
inductive Ensures (code : Code E) (ext : E → BitVec 64 → Machine S → Config S → Prop)
    (Q : Config S → Prop) : Config S → Prop where
  | here {c : Config S} : Q c → Ensures code ext Q c
  | step {c : Config S} : (∃ c', Step code ext c c') →
      (∀ c', Step code ext c c' → Ensures code ext Q c') → Ensures code ext Q c

namespace Ensures

variable {Q : Config S → Prop} {rip next target : BitVec 64} {m m' : Machine S}

/-- The rule of an instruction. -/
theorem instr {i : Instr E} (hcode : code rip = some (i, next)) (hex : ∃ c', Does ext next m i c')
    (h : ∀ c', Does ext next m i c' → Ensures code ext Q c') : Ensures code ext Q (rip, m) := by
  obtain ⟨c₀, hc₀⟩ := hex
  refine .step ⟨c₀, i, next, hcode, hc₀⟩ fun c' hstep => ?_
  obtain ⟨i', next', hcode', hdoes⟩ := hstep
  cases hcode'.symm.trans hcode
  exact h c' hdoes

/-- The rule of an instruction with one result. -/
theorem instr_eq {i : Instr E} {c' : Config S} (hcode : code rip = some (i, next))
    (hdoes : ∀ d, Does ext next m i d ↔ d = c') (h : Ensures code ext Q c') :
    Ensures code ext Q (rip, m) := by
  refine instr hcode ⟨c', (hdoes c').mpr rfl⟩ fun d hd => ?_
  rwa [(hdoes d).mp hd]

theorem op {o : Op} (hcode : code rip = some (.op o, next)) (hexec : exec m o = some m')
    (h : Ensures code ext Q (next, m')) : Ensures code ext Q (rip, m) := by
  refine instr_eq hcode (fun d => ?_) h
  rw [Does, hexec, Option.map_some, Option.some_inj, eq_comm]

theorem jmp (hcode : code rip = some (.jmp target, next))
    (h : Ensures code ext Q (target, m)) : Ensures code ext Q (rip, m) :=
  instr_eq hcode (fun _ => Iff.rfl) h

theorem jcc {cond : Cond} (hcode : code rip = some (.jcc cond target, next))
    (h : Ensures code ext Q (if cond.holds m.rflags then target else next, m)) :
    Ensures code ext Q (rip, m) :=
  instr_eq hcode (fun _ => Iff.rfl) h

theorem call (hcode : code rip = some (.call target, next)) (hpush : m.push next = some m')
    (h : Ensures code ext Q (target, m'.called next)) : Ensures code ext Q (rip, m) := by
  refine instr_eq hcode (fun d => ?_) h
  rw [Does, hpush, Option.map_some, Option.some_inj, eq_comm]

theorem ret {v : BitVec 64} (hcode : code rip = some (.ret, next))
    (hread : m.read (m.gpr .rsp) = some v)
    (h : Ensures code ext Q (v, m.returned)) : Ensures code ext Q (rip, m) := by
  refine instr_eq hcode (fun d => ?_) h
  rw [Does, hread, Option.map_some, Option.some_inj, eq_comm]

end Ensures

/-! ## Code without jumps -/

/-- The instructions of a list are at successive places, the first one at `a`, and `b` is the
address after the last one. -/
def At (code : Code E) (a : BitVec 64) : List (Instr E) → BitVec 64 → Prop
  | [], b => a = b
  | i :: is, b => ∃ next, code a = some (i, next) ∧ At code next is b

theorem At.append {a b : BitVec 64} {is js : List (Instr E)} :
    At code a (is ++ js) b ↔ ∃ c, At code a is c ∧ At code c js b := by
  induction is generalizing a with
  | nil => exact ⟨fun h => ⟨a, rfl, h⟩, fun ⟨c, hc, h⟩ => hc ▸ h⟩
  | cons i is ih =>
    constructor
    · rintro ⟨next, hcode, hrest⟩
      obtain ⟨c, his, hjs⟩ := ih.mp hrest
      exact ⟨c, ⟨next, hcode, his⟩, hjs⟩
    · rintro ⟨c, ⟨next, hcode, his⟩, hjs⟩
      exact ⟨next, hcode, ih.mpr ⟨c, his, hjs⟩⟩

/-- The rule of instructions that go on to the next one. -/
theorem Ensures.ops {Q : Config S → Prop} {a b : BitVec 64} {os : List Op} {m m' : Machine S}
    (hcode : At code a (os.map .op) b) (hexec : execAll m os = some m')
    (h : Ensures code ext Q (b, m')) : Ensures code ext Q (a, m) := by
  induction os generalizing a m with
  | nil =>
    obtain rfl : m = m' := Option.some.inj hexec
    obtain rfl : a = b := hcode
    exact h
  | cons o os ih =>
    obtain ⟨next, hcode, hrest⟩ := hcode
    rw [execAll, List.foldlM_cons] at hexec
    obtain ⟨m₁, hm₁, hexec⟩ := Option.bind_eq_some_iff.mp hexec
    exact .op hcode hm₁ (ih hrest hexec)

/-! ## Registers saved and loaded

Lists of registers are pushed, popped, stored and loaded. For each of these there is one equation
for the whole list, with the memory and the registers as functions. -/

theorem execAll_cons {m : Machine S} {o : Op} {os : List Op} :
    execAll m (o :: os) = (exec m o).bind (execAll · os) := rfl

theorem execAll_append {m : Machine S} {os os' : List Op} :
    execAll m (os ++ os') = (execAll m os).bind (execAll · os') :=
  List.foldlM_append

/-- The address of the `i`th quadword that is pushed on a stack whose top is at `a`. -/
def slot (a : BitVec 64) (i : ℕ) : BitVec 64 := a - BitVec.ofNat 64 (8 * (i + 1))

theorem slot_sub {a : BitVec 64} {i : ℕ} : slot (a - 8#64) i = slot a (i + 1) := by
  unfold slot
  bv_omega

theorem slot_slot {a : BitVec 64} {i j : ℕ} : slot (slot a i) j = slot a (i + j + 1) := by
  unfold slot
  bv_omega

theorem slot_add {a : BitVec 64} {i k : ℕ} (hk : k ≤ i) :
    slot a i + BitVec.ofNat 64 (8 * k) = slot a (i - k) := by
  unfold slot
  bv_omega

theorem slot_ne_slot {a : BitVec 64} {i j : ℕ} (hij : i < j) (hj : j < 2 ^ 61) :
    slot a i ≠ slot a j := by
  unfold slot
  bv_omega

theorem Aligned.slot {a : BitVec 64} (ha : Aligned a) (i : ℕ) : Aligned (slot a i) := by
  unfold Aligned X64.slot at *
  bv_omega

/-- The memory after values have been pushed. -/
def pushed (mem : BitVec 64 → BitVec 64) (a : BitVec 64) : List (BitVec 64) → BitVec 64 → BitVec 64
  | [] => mem
  | v :: vs => pushed (Function.update mem (a - 8#64) v) (a - 8#64) vs

section
variable {mem : BitVec 64 → BitVec 64} {a b : BitVec 64} {vs ws : List (BitVec 64)}

/-- Only the slots are written. -/
theorem pushed_of_ne (hb : ∀ i < vs.length, b ≠ slot a i) : pushed mem a vs b = mem b := by
  induction vs generalizing mem a with
  | nil => rfl
  | cons v vs ih =>
    have hrest : ∀ i < vs.length, b ≠ slot (a - 8#64) i := by
      intro i hi
      rw [slot_sub]
      exact hb (i + 1) (Nat.succ_lt_succ hi)
    rw [pushed, ih hrest]
    exact Function.update_of_ne (hb 0 (Nat.succ_pos _)) ..

/-- **A value that was pushed is in its slot.** -/
theorem pushed_slot (hlen : vs.length < 2 ^ 61) {i : ℕ} (hi : i < vs.length) :
    pushed mem a vs (slot a i) = vs[i] := by
  induction vs generalizing mem a i with
  | nil => exact absurd hi (Nat.not_lt_zero i)
  | cons v vs ih =>
    rw [List.length_cons] at hlen
    cases i with
    | zero =>
      rw [pushed, pushed_of_ne fun i hi => ?_]
      · exact Function.update_self ..
      · rw [slot, slot]
        bv_omega
    | succ i =>
      rw [pushed, ← slot_sub, ih (by omega) (Nat.lt_of_succ_lt_succ hi)]
      rfl

/-- Pushes of what is there already change nothing. -/
theorem pushed_eq_self (hlen : vs.length < 2 ^ 61)
    (hmem : ∀ i, ∀ hi : i < vs.length, mem (slot a i) = vs[i]) : pushed mem a vs = mem := by
  funext b
  by_cases hb : ∃ i < vs.length, b = slot a i
  · obtain ⟨i, hi, rfl⟩ := hb
    rw [pushed_slot hlen hi, hmem i hi]
  · exact pushed_of_ne fun i hi heq => hb ⟨i, hi, heq⟩

theorem pushed_append : pushed mem a (vs ++ ws) =
    pushed (pushed mem a vs) (a - BitVec.ofNat 64 (8 * vs.length)) ws := by
  induction vs generalizing mem a with
  | nil =>
    have hzero : a - BitVec.ofNat 64 (8 * ([] : List (BitVec 64)).length) = a := BitVec.sub_zero a
    rw [hzero]
    rfl
  | cons v vs ih =>
    have hsub : a - 8#64 - BitVec.ofNat 64 (8 * vs.length) =
        a - BitVec.ofNat 64 (8 * (v :: vs).length) := by
      rw [List.length_cons]
      bv_omega
    rw [List.cons_append, pushed, ih, hsub]
    rfl

end

/-- Values are pushed. -/
def Machine.pushAll (m : Machine S) (vs : List (BitVec 64)) : Machine S :=
  { m with
    gpr := Function.update m.gpr .rsp (m.gpr .rsp - BitVec.ofNat 64 (8 * vs.length))
    mem := pushed m.mem (m.gpr .rsp) vs }

theorem Machine.rsp_pushAll {m : Machine S} {vs : List (BitVec 64)} :
    (m.pushAll vs).gpr .rsp = m.gpr .rsp - BitVec.ofNat 64 (8 * vs.length) :=
  Function.update_self Reg.rsp _ m.gpr

theorem Machine.gpr_pushAll {m : Machine S} {vs : List (BitVec 64)} {r : Reg} (hr : r ≠ .rsp) :
    (m.pushAll vs).gpr r = m.gpr r :=
  Function.update_of_ne hr ..

@[simp] theorem Machine.mem_pushAll {m : Machine S} {vs : List (BitVec 64)} :
    (m.pushAll vs).mem = pushed m.mem (m.gpr .rsp) vs := rfl

@[simp] theorem Machine.rflags_pushAll {m : Machine S} {vs : List (BitVec 64)} :
    (m.pushAll vs).rflags = m.rflags := rfl

@[simp] theorem Machine.rsb_pushAll {m : Machine S} {vs : List (BitVec 64)} :
    (m.pushAll vs).rsb = m.rsb := rfl

@[simp] theorem Machine.sys_pushAll {m : Machine S} {vs : List (BitVec 64)} :
    (m.pushAll vs).sys = m.sys := rfl

/-- Pushes and calls do not interfere. -/
theorem Machine.pushAll_called {m : Machine S} {v : BitVec 64} {vs : List (BitVec 64)} :
    (m.called v).pushAll vs = (m.pushAll vs).called v := rfl

theorem Machine.pushAll_nil {m : Machine S} : m.pushAll [] = m := by
  have hzero : m.gpr .rsp - BitVec.ofNat 64 (8 * ([] : List (BitVec 64)).length) = m.gpr .rsp :=
    BitVec.sub_zero _
  rw [pushAll, hzero, Function.update_eq_self]
  rfl

theorem Machine.push_eq {m : Machine S} {v : BitVec 64} (ha : Aligned (m.gpr .rsp)) :
    m.push v = some (m.pushAll [v]) := by
  rw [push, write, if_pos (ha.sub (by decide))]
  rfl

theorem Machine.pushAll_pushAll {m : Machine S} {vs ws : List (BitVec 64)} :
    (m.pushAll vs).pushAll ws = m.pushAll (vs ++ ws) := by
  have hsub : m.gpr .rsp - BitVec.ofNat 64 (8 * vs.length) - BitVec.ofNat 64 (8 * ws.length) =
      m.gpr .rsp - BitVec.ofNat 64 (8 * (vs ++ ws).length) := by
    rw [List.length_append]
    bv_omega
  rw [pushAll, pushAll, pushAll, pushed_append]
  simp only [Function.update_self, Function.update_idem, hsub]

/-- The general-purpose registers after some of them have been popped. -/
def popped (m : Machine S) (rs : List Reg) (r : Reg) : BitVec 64 :=
  if r = .rsp then m.gpr .rsp + BitVec.ofNat 64 (8 * rs.length)
  else if r ∈ rs then m.mem (m.gpr .rsp + BitVec.ofNat 64 (8 * rs.idxOf r)) else m.gpr r

section
variable {m : Machine S} {rs : List Reg}

/-- **Pushes** of registers. -/
theorem execAll_push (hrs : .rsp ∉ rs) (ha : Aligned (m.gpr .rsp)) :
    execAll m (rs.map .push) = some (m.pushAll (rs.map m.gpr)) := by
  induction rs generalizing m with
  | nil => exact congrArg some Machine.pushAll_nil.symm
  | cons r rs ih =>
    have hrs' : .rsp ∉ rs := fun h => hrs (List.mem_cons_of_mem r h)
    have hgpr : rs.map (m.pushAll [m.gpr r]).gpr = rs.map m.gpr :=
      List.map_congr_left fun r' hr' => Machine.gpr_pushAll fun h => hrs' (h ▸ hr')
    have ha' : Aligned ((m.pushAll [m.gpr r]).gpr .rsp) := by
      rw [Machine.rsp_pushAll]
      exact ha.sub (.quad 1)
    rw [List.map_cons, execAll_cons, exec, Machine.push_eq ha, Option.bind_some, ih hrs' ha', hgpr,
      Machine.pushAll_pushAll]
    rfl

/-- **Pops** of registers. -/
theorem execAll_pop (hrs : .rsp ∉ rs) (hnodup : rs.Nodup) (ha : Aligned (m.gpr .rsp)) :
    execAll m (rs.map .pop) = some { m with gpr := popped m rs } := by
  induction rs generalizing m with
  | nil =>
    have hsame : popped m [] = m.gpr := by
      funext r
      by_cases hr : r = .rsp
      · rw [popped, if_pos hr, hr]
        exact BitVec.add_zero _
      · rw [popped, if_neg hr, if_neg (List.not_mem_nil)]
    rw [hsame]
    rfl
  | cons r rs ih =>
    have hr : r ≠ .rsp := fun h => hrs (h ▸ List.mem_cons_self)
    have hrs' : .rsp ∉ rs := fun h => hrs (List.mem_cons_of_mem r h)
    have hmem : r ∉ rs := (List.nodup_cons.mp hnodup).1
    set m₁ := (m.set .rsp (m.gpr .rsp + 8#64)).set r (m.mem (m.gpr .rsp)) with hm₁
    have hrsp : m₁.gpr .rsp = m.gpr .rsp + 8#64 :=
      (Machine.gpr_set_of_ne _ hr.symm).trans (Machine.gpr_set_self m)
    have hread : m.read (m.gpr .rsp) = some (m.mem (m.gpr .rsp)) := if_pos ha
    rw [List.map_cons, execAll_cons, exec, hread, Option.map_some, Option.bind_some,
      ih hrs' (List.nodup_cons.mp hnodup).2 (hrsp.symm ▸ ha.add (.quad 1))]
    congr 2
    funext r'
    rw [popped, popped, hrsp]
    by_cases hr' : r' = .rsp
    · rw [if_pos hr', if_pos hr', List.length_cons]
      bv_omega
    rw [if_neg hr', if_neg hr']
    by_cases heq : r' = r
    · subst heq
      rw [if_neg hmem, if_pos List.mem_cons_self, List.idxOf_cons_self]
      exact (Machine.gpr_set_self _).trans (congrArg m.mem (BitVec.add_zero _).symm)
    · have hidx : m.gpr .rsp + 8#64 + BitVec.ofNat 64 (8 * rs.idxOf r') =
          m.gpr .rsp + BitVec.ofNat 64 (8 * (r :: rs).idxOf r') := by
        rw [List.idxOf_cons_ne _ (Ne.symm heq)]
        bv_omega
      have hother : m₁.gpr r' = m.gpr r' :=
        (Machine.gpr_set_of_ne _ heq).trans (Machine.gpr_set_of_ne m hr')
      rw [hidx, hother]
      simp only [List.mem_cons, heq, false_or]
      rfl

/-- Registers are cleared. -/
theorem execAll_zero : ∃ rflags, execAll m (rs.map .zero) = some { m with
    gpr := fun r => if r ∈ rs then 0#64 else m.gpr r
    rflags } := by
  induction rs generalizing m with
  | nil => exact ⟨m.rflags, rfl⟩
  | cons r rs ih =>
    obtain ⟨rflags, h⟩ := ih (m := (m.set r 0#64).flags false true)
    refine ⟨rflags, ?_⟩
    rw [List.map_cons, execAll_cons, exec, Option.bind_some, h]
    congr 2
    funext r'
    rw [Machine.gpr_flags]
    by_cases hr' : r' ∈ rs
    · rw [if_pos hr', if_pos (List.mem_cons_of_mem r hr')]
    by_cases heq : r' = r
    · rw [if_neg hr', if_pos (heq ▸ List.mem_cons_self), heq, Machine.gpr_set_self]
    · rw [if_neg hr', if_neg (by simp [hr', heq]), Machine.gpr_set_of_ne _ heq]

/-- **Loads** of registers from a record, of which `off` gives the offsets. -/
theorem execAll_load {base : Reg} {off : Reg → BitVec 64} (hbase : base ∉ rs)
    (ha : ∀ r ∈ rs, Aligned (m.gpr base + off r)) :
    execAll m (rs.map fun r => .load r base (off r)) = some { m with
      gpr := fun r => if r ∈ rs then m.mem (m.gpr base + off r) else m.gpr r } := by
  induction rs generalizing m with
  | nil => rfl
  | cons r rs ih =>
    have hr : base ≠ r := fun h => hbase (h ▸ List.mem_cons_self)
    have hbase' : (m.set r (m.mem (m.gpr base + off r))).gpr base = m.gpr base :=
      Machine.gpr_set_of_ne m hr
    have hread : m.read (m.gpr base + off r) = some (m.mem (m.gpr base + off r)) :=
      if_pos (ha r List.mem_cons_self)
    rw [List.map_cons, execAll_cons, exec, hread, Option.map_some, Option.bind_some,
      ih (fun h => hbase (List.mem_cons_of_mem r h))
        fun r' hr' => hbase'.symm ▸ ha r' (List.mem_cons_of_mem r hr')]
    rw [hbase']
    congr 2
    funext r'
    by_cases hr' : r' ∈ rs
    · rw [if_pos hr', if_pos (List.mem_cons_of_mem r hr')]
      rfl
    by_cases heq : r' = r
    · rw [if_neg hr', if_pos (heq ▸ List.mem_cons_self), heq]
      exact Machine.gpr_set_self m
    · rw [if_neg hr', if_neg (by simp [hr', heq])]
      exact Machine.gpr_set_of_ne m heq

/-- The memory after registers have been stored in a record. -/
def storedRegs (mem : BitVec 64 → BitVec 64) (b : BitVec 64) (off gpr : Reg → BitVec 64)
    (rs : List Reg) : BitVec 64 → BitVec 64 :=
  rs.foldl (fun mem r => Function.update mem (b + off r) (gpr r)) mem

/-- **Stores** of registers. -/
theorem execAll_store {base : Reg} {off : Reg → BitVec 64}
    (ha : ∀ r ∈ rs, Aligned (m.gpr base + off r)) :
    execAll m (rs.map fun r => .store base (off r) r) =
      some { m with mem := storedRegs m.mem (m.gpr base) off m.gpr rs } := by
  induction rs generalizing m with
  | nil => rfl
  | cons r rs ih =>
    have hwrite : m.write (m.gpr base + off r) (m.gpr r) =
        some { m with mem := Function.update m.mem (m.gpr base + off r) (m.gpr r) } :=
      if_pos (ha r List.mem_cons_self)
    rw [List.map_cons, execAll_cons, exec, hwrite, Option.bind_some]
    exact ih fun r' hr' => ha r' (List.mem_cons_of_mem r hr')

theorem storedRegs_congr {mem : BitVec 64 → BitVec 64} {b : BitVec 64}
    {off gpr gpr' : Reg → BitVec 64} (h : ∀ r ∈ rs, gpr r = gpr' r) :
    storedRegs mem b off gpr rs = storedRegs mem b off gpr' rs :=
  List.foldl_ext _ _ mem fun _ r hr => by rw [h r hr]

theorem storedRegs_of_ne {mem : BitVec 64 → BitVec 64} {a b : BitVec 64}
    {off gpr : Reg → BitVec 64} (h : ∀ r ∈ rs, a ≠ b + off r) :
    storedRegs mem b off gpr rs a = mem a := by
  induction rs generalizing mem with
  | nil => rfl
  | cons r rs ih =>
    rw [storedRegs, List.foldl_cons]
    refine (ih fun r' hr' => h r' (List.mem_cons_of_mem r hr')).trans ?_
    exact Function.update_of_ne (h r List.mem_cons_self) ..

/-- A register that was stored is found at its offset. -/
theorem storedRegs_of_mem {mem : BitVec 64 → BitVec 64} {b : BitVec 64}
    {off gpr : Reg → BitVec 64} (hoff : ∀ r ∈ rs, ∀ r' ∈ rs, off r = off r' → r = r') {r : Reg}
    (hr : r ∈ rs) : storedRegs mem b off gpr rs (b + off r) = gpr r := by
  induction rs generalizing mem with
  | nil => exact absurd hr List.not_mem_nil
  | cons r₁ rs ih =>
    rw [storedRegs, List.foldl_cons]
    by_cases hrs : r ∈ rs
    · exact ih (fun r hr r' hr' =>
        hoff r (List.mem_cons_of_mem r₁ hr) r' (List.mem_cons_of_mem r₁ hr')) hrs
    · obtain rfl : r = r₁ := (List.mem_cons.mp hr).resolve_right hrs
      refine (storedRegs_of_ne fun r' hr' heq => hrs ?_).trans (Function.update_self ..)
      have hoffs : off r = off r' := BitVec.add_right_inj b |>.mp heq
      rwa [hoff r List.mem_cons_self r' (List.mem_cons_of_mem r hr') hoffs]

end

/-! ## Blocks of code

Code is given as blocks with labels, one after the other in memory. A block that does not end in a
jump goes on to the next one. -/

/-- Blocks at successive places, with the addresses of their labels. -/
def Listing {L : Type*} (code : Code E) (addr : L → BitVec 64) : List (L × List (Instr E)) → Prop
  | [] => True
  | (l, is) :: blocks => Listing code addr blocks ∧
      ∃ b, At code (addr l) is b ∧ ∀ l' is', blocks.head? = some (l', is') → b = addr l'

section
variable {L : Type*} {addr : L → BitVec 64} {blocks : List (L × List (Instr E))}

/-- A block goes on to the next one. -/
theorem Listing.block (h : Listing code addr blocks) (i : ℕ) {l l' : L} {is is' : List (Instr E)}
    (hi : blocks[i]? = some (l, is)) (hi' : blocks[i + 1]? = some (l', is')) :
    At code (addr l) is (addr l') := by
  induction blocks generalizing i with
  | nil => cases hi
  | cons block blocks ih =>
    obtain ⟨hrest, b, hat, hnext⟩ := h
    cases i with
    | zero =>
      cases hi
      exact hnext l' is' ((List.head?_eq_getElem?).trans hi') ▸ hat
    | succ i => exact ih hrest i hi hi'

/-- The last block, too, is at its label. -/
theorem Listing.exists_at (h : Listing code addr blocks) (i : ℕ) {l : L} {is : List (Instr E)}
    (hi : blocks[i]? = some (l, is)) : ∃ b, At code (addr l) is b := by
  induction blocks generalizing i with
  | nil => cases hi
  | cons block blocks ih =>
    obtain ⟨hrest, b, hat, -⟩ := h
    cases i with
    | zero =>
      cases hi
      exact ⟨b, hat⟩
    | succ i => exact ih hrest i hi

end

/-- Code of instructions at successive addresses. -/
def codeAt (base : BitVec 64) (is : List (Instr E)) : Code E := fun a =>
  is[(a - base).toNat]?.map (·, a + 1#64)

theorem at_codeAt {base : BitVec 64} {pre is post : List (Instr E)}
    (hlen : (pre ++ is ++ post).length < 2 ^ 64) :
    At (codeAt base (pre ++ is ++ post)) (base + BitVec.ofNat 64 pre.length) is
      (base + BitVec.ofNat 64 (pre.length + is.length)) := by
  induction is generalizing pre with
  | nil => rfl
  | cons i is ih =>
    have hlt : pre.length < 2 ^ 64 := by
      simp only [List.length_append, List.length_cons] at hlen
      omega
    have hidx : (base + BitVec.ofNat 64 pre.length - base).toNat = pre.length := by bv_omega
    have hget : (pre ++ i :: is ++ post)[pre.length]? = some i := by
      rw [List.append_assoc, List.getElem?_append_right le_rfl, Nat.sub_self]
      rfl
    have hassoc : pre ++ i :: is ++ post = pre ++ [i] ++ is ++ post := by simp
    refine ⟨base + BitVec.ofNat 64 (pre ++ [i]).length, ?_, ?_⟩
    · rw [codeAt, hidx, hget, Option.map_some, List.length_append]
      congr 2
      simp only [List.length_cons, List.length_nil]
      bv_omega
    · have hrest : At _ (base + BitVec.ofNat 64 (pre ++ [i]).length) is _ := ih (hassoc ▸ hlen)
      rw [← hassoc] at hrest
      convert hrest using 3
      simp only [List.length_append, List.length_cons, List.length_nil]
      omega

/-- The labels have the addresses of their blocks. -/
def LabelsAt {L : Type*} (base : BitVec 64) (addr : L → BitVec 64) :
    ℕ → List (L × List (Instr E)) → Prop
  | _, [] => True
  | n, (l, is) :: blocks =>
    addr l = base + BitVec.ofNat 64 n ∧ LabelsAt base addr (n + is.length) blocks

/-- Code that is put together from blocks has them at its labels. -/
theorem listing_codeAt {L : Type*} {base : BitVec 64} {addr : L → BitVec 64}
    {pre : List (Instr E)} {blocks : List (L × List (Instr E))}
    (hlen : (pre ++ blocks.flatMap Prod.snd).length < 2 ^ 64)
    (hlabels : LabelsAt base addr pre.length blocks) :
    Listing (codeAt base (pre ++ blocks.flatMap Prod.snd)) addr blocks := by
  induction blocks generalizing pre with
  | nil => trivial
  | cons block blocks ih =>
    obtain ⟨l, is⟩ := block
    obtain ⟨haddr, hrest⟩ := hlabels
    have hassoc : pre ++ ((l, is) :: blocks).flatMap Prod.snd =
        pre ++ is ++ blocks.flatMap Prod.snd := by
      rw [List.flatMap_cons, List.append_assoc]
    rw [hassoc] at hlen ⊢
    refine ⟨ih hlen (List.length_append ▸ hrest), _, haddr ▸ at_codeAt hlen, ?_⟩
    rintro l' is' hhead
    cases blocks with
    | nil => cases hhead
    | cons block' blocks =>
      cases hhead
      exact hrest.1.symm

end

end X64
