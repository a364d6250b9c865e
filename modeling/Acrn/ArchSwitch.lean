import Acrn.Lib.Transition
import Acrn.Lib.X64
import Acrn.Page

/-!
# The switch from one thread to another

`arch_switch_to` of `sched.S` saves the registers that a C function has to preserve on the
stack of the thread that calls it, and takes those of the next thread from the stack of that
one. A thread that has not run yet has a frame from `build_stack_frame` there.
-/

namespace Acrn

open X64 Transition

/-- The registers that `arch_switch_to` pushes after RFLAGS. -/
def switchedRegs : List X64.Reg := [.rbx, .rbp, .r12, .r13, .r14, .r15, .rdi]

/-- The instructions of `arch_switch_to` before its `retq`. -/
def archSwitchToOps : List Op :=
  [.pushf, .push .rbx, .push .rbp, .push .r12, .push .r13, .push .r14, .push .r15, .push .rdi,
    .store .rdi 0#64 .rsp, .load .rsp .rsi 0#64,
    .pop .rdi, .pop .r15, .pop .r14, .pop .r13, .pop .r12, .pop .rbp, .pop .rbx, .popf]

section
variable {S : Type*}

/-- `arch_switch_to`, with where it returns to. -/
def archSwitchTo (m : X64.Machine S) : Option (Config S) :=
  (execAll m archSwitchToOps).bind fun m =>
    (m.read (m.gpr .rsp)).map (·, m.returned)

/-- What it pushes. -/
def switchFrame (m : X64.Machine S) : List Word := m.rflags :: switchedRegs.map m.gpr

/-- The memory that it leaves. -/
def switchedMem (m : X64.Machine S) : Word → Word :=
  Function.update (pushed m.mem (m.gpr .rsp) (switchFrame m)) (m.gpr .rdi) (slot (m.gpr .rsp) 7)

/-- The machine that it leaves, when `a` is where the next thread's return address is. -/
def switched (m : X64.Machine S) (a : Word) : X64.Machine S where
  gpr r :=
    if r = .rsp then a + 8#64
    else if r ∈ switchedRegs then switchedMem m (slot a (switchedRegs.idxOf r + 1)) else m.gpr r
  rflags := switchedMem m (slot a 0) ||| 0x2#64
  mem := switchedMem m
  rsb := m.rsb.tail
  sys := m.sys

variable {m : X64.Machine S} {a : Word}

/-- The pushes, and the store of the stack pointer. -/
theorem execAll_archSwitchTo_save (hrsp : Aligned (m.gpr .rsp)) (hrdi : Aligned (m.gpr .rdi)) :
    execAll m [.pushf, .push .rbx, .push .rbp, .push .r12, .push .r13, .push .r14, .push .r15,
      .push .rdi, .store .rdi 0#64 .rsp] = some { m with
        gpr := Function.update m.gpr .rsp (slot (m.gpr .rsp) 7)
        mem := switchedMem m } := by
  have hflags : exec m .pushf = some (m.pushAll [m.rflags]) := X64.Machine.push_eq hrsp
  have hrsp' : Aligned ((m.pushAll [m.rflags]).gpr .rsp) := by
    rw [X64.Machine.rsp_pushAll]
    exact hrsp.sub (.quad 1)
  have hregs : switchedRegs.map (m.pushAll [m.rflags]).gpr = switchedRegs.map m.gpr := by
    refine List.map_congr_left fun r hr => X64.Machine.gpr_pushAll fun h => ?_
    exact absurd (h ▸ hr) (by decide)
  have hpush : execAll (m.pushAll [m.rflags]) (switchedRegs.map .push) =
      some (m.pushAll (switchFrame m)) := by
    rw [execAll_push (by decide) hrsp', hregs, X64.Machine.pushAll_pushAll]
    rfl
  have hbase : (m.pushAll (switchFrame m)).gpr .rdi = m.gpr .rdi :=
    X64.Machine.gpr_pushAll (by decide)
  rw [execAll_cons, hflags, Option.bind_some]
  show execAll _ (switchedRegs.map .push ++ [.store .rdi 0#64 .rsp]) = _
  rw [execAll_append, hpush, Option.bind_some, execAll_cons, exec, hbase, BitVec.add_zero,
    X64.Machine.write, if_pos hrdi, X64.Machine.rsp_pushAll]
  rfl

/-- The registers that it pops. -/
def poppedRegs : List X64.Reg := [.rdi, .r15, .r14, .r13, .r12, .rbp, .rbx]

theorem poppedRegs_eq : poppedRegs = switchedRegs.reverse := by decide

theorem idxOf_poppedRegs : ∀ r ∈ switchedRegs, poppedRegs.idxOf r = 6 - switchedRegs.idxOf r ∧
    switchedRegs.idxOf r ≤ 6 := by decide

/-- **What `arch_switch_to` does.** -/
theorem archSwitchTo_eq (hrsp : Aligned (m.gpr .rsp)) (hrdi : Aligned (m.gpr .rdi))
    (hrsi : Aligned (m.gpr .rsi)) (ha : Aligned a) (hsp : switchedMem m (m.gpr .rsi) = slot a 7) :
    archSwitchTo m = some (switchedMem m a, switched m a) := by
  set m₁ : X64.Machine S := { m with
    gpr := Function.update m.gpr .rsp (slot a 7)
    mem := switchedMem m } with hm₁
  have hload : exec { m with
      gpr := Function.update m.gpr .rsp (slot (m.gpr .rsp) 7)
      mem := switchedMem m } (.load .rsp .rsi 0#64) = some m₁ := by
    have hbase : Function.update m.gpr .rsp (slot (m.gpr .rsp) 7) .rsi = m.gpr .rsi :=
      Function.update_of_ne (by decide) ..
    rw [exec, X64.Machine.read]
    simp only [hbase, BitVec.add_zero, if_pos hrsi, Option.map_some, hsp, X64.Machine.set,
      Function.update_idem, hm₁]
  have hrsp₁ : m₁.gpr .rsp = slot a 7 := Function.update_self X64.Reg.rsp _ m.gpr
  have hpops : execAll m₁ (poppedRegs.map .pop) = some { m₁ with gpr := popped m₁ poppedRegs } :=
    execAll_pop (by decide) (by decide) (hrsp₁.symm ▸ ha.slot 7)
  set m₂ : X64.Machine S := { m₁ with gpr := popped m₁ poppedRegs } with hm₂
  have hrsp₂ : m₂.gpr .rsp = slot a 0 := by
    show popped m₁ poppedRegs .rsp = _
    rw [popped, if_pos rfl, hrsp₁]
    exact slot_add (by decide)
  have hpopf : exec m₂ .popf = some
      { m₂.set .rsp a with rflags := switchedMem m (slot a 0) ||| 0x2#64 } := by
    have htop : slot a 0 + 8#64 = a := BitVec.sub_add_cancel a 8#64
    rw [exec, hrsp₂, X64.Machine.read, if_pos (ha.slot 0), Option.map_some, htop]
  have hregs : ∀ r ∈ switchedRegs, popped m₁ poppedRegs r =
      switchedMem m (slot a (switchedRegs.idxOf r + 1)) := by
    intro r hr
    obtain ⟨hidx, hle⟩ := idxOf_poppedRegs r hr
    have hne : r ≠ .rsp := fun h => absurd (h ▸ hr) (by decide)
    have hmem : r ∈ poppedRegs := poppedRegs_eq ▸ List.mem_reverse.mpr hr
    have hslot : 7 - (6 - switchedRegs.idxOf r) = switchedRegs.idxOf r + 1 := by omega
    rw [popped, if_neg hne, if_pos hmem, hrsp₁, slot_add (by omega), hidx, hslot]
  have hops : execAll m archSwitchToOps = some
      { m₂.set .rsp a with rflags := switchedMem m (slot a 0) ||| 0x2#64 } := by
    show execAll m ([.pushf, .push .rbx, .push .rbp, .push .r12, .push .r13, .push .r14,
      .push .r15, .push .rdi, .store .rdi 0#64 .rsp] ++
      (.load .rsp .rsi 0#64 :: (poppedRegs.map .pop ++ [.popf]))) = _
    rw [execAll_append, execAll_archSwitchTo_save hrsp hrdi, Option.bind_some, execAll_cons, hload,
      Option.bind_some, execAll_append, hpops, Option.bind_some, execAll_cons, hpopf]
    rfl
  rw [archSwitchTo, hops, Option.bind_some]
  dsimp only
  rw [X64.Machine.gpr_set_self, X64.Machine.read, if_pos ha, Option.map_some]
  congr 2
  refine X64.Machine.ext (funext fun r => ?_) rfl rfl rfl rfl
  show Function.update (m₂.set .rsp a).gpr .rsp _ r = if r = .rsp then a + 8#64
    else if r ∈ switchedRegs then switchedMem m (slot a (switchedRegs.idxOf r + 1)) else m.gpr r
  by_cases hr : r = .rsp
  · have hrsp₃ : (m₂.set .rsp a).gpr .rsp = a := X64.Machine.gpr_set_self m₂
    rw [if_pos hr, hr, Function.update_self]
    exact congrArg (· + 8#64) hrsp₃
  rw [if_neg hr, Function.update_of_ne hr, X64.Machine.gpr_set_of_ne _ hr]
  by_cases hmem : r ∈ switchedRegs
  · rw [if_pos hmem]
    exact hregs r hmem
  · have hpopped : r ∉ poppedRegs := fun h => hmem (List.mem_reverse.mp (poppedRegs_eq ▸ h))
    rw [if_neg hmem]
    show popped m₁ poppedRegs r = m.gpr r
    rw [popped, if_neg hr, if_neg hpopped]
    exact Function.update_of_ne hr ..

end

/-! ## The threads of a pCPU

A thread that is not executed has a frame at the address in its `host_sp`. The frame of a new
thread looks as if it had called `arch_switch_to` itself, so that both kinds are switched to
alike. -/

/-- Where the threads of a pCPU have their stacks and their `host_sp`. -/
structure ThreadLayout (T : Type*) where
  /-- the address of the thread object -/
  obj : T → Word
  /-- the address of its field `host_sp` -/
  hostSp : T → Word
  stackTop : T → Word
  /-- the quadwords of the stack -/
  stack : T → Set Word
  aligned_hostSp : ∀ t, Aligned (hostSp t)
  aligned_stackTop : ∀ t, Aligned (stackTop t)
  hostSp_injective : Function.Injective hostSp
  hostSp_notMem : ∀ t t', hostSp t ∉ stack t'
  disjoint : ∀ t t' a, a ∈ stack t → a ∈ stack t' → t = t'
  frame_mem : ∀ t, ∀ i < 10, slot (stackTop t) i ∈ stack t

/-- The fields of a `stack_frame`, in the order in which they are set, with their offsets. -/
def stackFrameFields (magic threadEntry obj : Word) : List (Word × Word) :=
  [(72#64, magic), (64#64, threadEntry), (56#64, 0#64), (48#64, 0#64), (40#64, 0#64),
    (32#64, 0#64), (24#64, 0#64), (16#64, 0#64), (8#64, 0#64), (0#64, obj)]

/-- `build_stack_frame` on the stack with the given top: the memory and the stack pointer. -/
def buildStackFrame (mem : Word → Word) (stacktop magic threadEntry obj : Word) :
    (Word → Word) × Word :=
  let frame := stacktop - 80#64
  ((stackFrameFields magic threadEntry obj).foldl
    (fun mem f => Function.update mem (frame + f.1) f.2) mem, frame)

/-- A frame is what pushes leave. -/
theorem buildStackFrame_eq (mem : Word → Word) (stacktop magic threadEntry obj : Word) :
    buildStackFrame mem stacktop magic threadEntry obj =
      (pushed mem stacktop [magic, threadEntry, 0#64, 0#64, 0#64, 0#64, 0#64, 0#64, 0#64, obj],
        slot stacktop 9) := by
  have hfield : ∀ n ≤ 9, slot stacktop 9 + BitVec.ofNat 64 (8 * n) = slot stacktop (9 - n) :=
    fun n hn => slot_add hn
  have hslot : ∀ n, slot stacktop n - 8#64 = slot stacktop (n + 1) := by
    intro n
    rw [slot, slot]
    bv_omega
  have hfirst : stacktop - 8#64 = slot stacktop 0 := rfl
  set fields : List (ℕ × Word) := [(9, magic), (8, threadEntry), (7, 0#64), (6, 0#64), (5, 0#64),
    (4, 0#64), (3, 0#64), (2, 0#64), (1, 0#64), (0, obj)] with hfields
  have hpushed : pushed mem stacktop
      [magic, threadEntry, 0#64, 0#64, 0#64, 0#64, 0#64, 0#64, 0#64, obj] =
      fields.foldl (fun mem f => Function.update mem (slot stacktop (9 - f.1)) f.2) mem := by
    simp only [pushed, hfirst, hslot, hfields, List.foldl_cons, List.foldl_nil]
  have hmap : stackFrameFields magic threadEntry obj =
      fields.map fun f => (BitVec.ofNat 64 (8 * f.1), f.2) := rfl
  rw [hpushed, buildStackFrame, hmap, List.foldl_map]
  refine Prod.ext ?_ rfl
  dsimp only
  refine List.foldl_ext _ _ mem fun mem f hf => ?_
  have hle : f.1 ≤ 9 := by
    have hall : ∀ f ∈ fields, f.1 ≤ 9 := by simp [hfields]
    exact hall f hf
  rw [← hfield f.1 hle]
  rfl

section
variable {S T : Type*}

/-- A pCPU with its threads. For a thread that is not executed, `left` is the machine at its
call of `arch_switch_to`. -/
structure ThreadState (S T : Type*) where
  curr : T
  cpu : Config S
  left : T → Option (X64.Machine S)

/-- The steps of a pCPU. -/
inductive ThreadStep (T : Type*) where
  /-- the thread that is executed goes on, or another pCPU does -/
  | work
  /-- `prepare_vcpu` for a thread that is not executed -/
  | prepare (t : T) (threadEntry : Word)
  /-- the call of `arch_switch_to` in `schedule` -/
  | switch (next : T)

namespace ThreadLayout

variable (L : ThreadLayout T)

/-- A thread that begins, as if it had called `arch_switch_to` on the entry of `thread_entry`. -/
def fresh (t : T) (threadEntry : Word) (mem : Word → Word) (sys : S) : X64.Machine S where
  gpr r := if r = .rsp then slot (L.stackTop t) 1 else if r = .rdi then L.obj t else 0#64
  rflags := 0#64
  mem := Function.update mem (slot (L.stackTop t) 1) threadEntry
  rsb := []
  sys := sys

/-- The frames of `arch_switch_to` in the thread's stack. -/
structure FrameFits (t : T) (rsp : Word) : Prop where
  aligned : Aligned rsp
  top : rsp ∈ L.stack t
  slots : ∀ i < 8, slot rsp i ∈ L.stack t

/-- The thread that is executed calls `arch_switch_to` with its own `host_sp` and that of the
next one. -/
structure Calls (s : ThreadState S T) (next : T) : Prop where
  ne : next ≠ s.curr
  rdi : s.cpu.2.gpr .rdi = L.hostSp s.curr
  rsi : s.cpu.2.gpr .rsi = L.hostSp next
  fits : L.FrameFits s.curr (s.cpu.2.gpr .rsp)

/-- What one step does. -/
inductive Stepped [DecidableEq T] (magic : Word) (s : ThreadState S T) :
    ThreadStep T → ThreadState S T → Prop where
  | work (cpu : Config S) : (∀ t ≠ s.curr, ∀ a ∈ L.stack t, cpu.2.mem a = s.cpu.2.mem a) →
      (∀ t, cpu.2.mem (L.hostSp t) = s.cpu.2.mem (L.hostSp t)) →
      Stepped magic s .work { s with cpu }
  | prepare (t : T) (threadEntry : Word) (mem : Word → Word) (built : (Word → Word) × Word) :
      t ≠ s.curr → (∀ a, a ∉ L.stack t → mem a = s.cpu.2.mem a) →
      buildStackFrame mem (L.stackTop t) magic threadEntry (L.obj t) = built →
      Stepped magic s (.prepare t threadEntry) { s with
        cpu := (s.cpu.1, { s.cpu.2 with mem := Function.update built.1 (L.hostSp t) built.2 })
        left := Function.update s.left t
          (some (L.fresh t threadEntry (Function.update built.1 (L.hostSp t) built.2) s.cpu.2.sys)) }
  | switch (next : T) (cpu : Config S) : L.Calls s next → (s.left next).isSome = true →
      archSwitchTo s.cpu.2 = some cpu →
      Stepped magic s (.switch next) {
        curr := next
        cpu
        left := Function.update s.left s.curr (some s.cpu.2) }

/-- A pCPU on which one thread runs and the others are not prepared yet. -/
def threadSystem [DecidableEq T] (magic : Word) : System (ThreadState S T) (ThreadStep T) where
  init s := ∀ t, s.left t = none
  step := L.Stepped magic

/-! ## What a thread finds when it is switched to

`Parked` is the invariant of a thread that waits: its frame holds what it had in the registers. The
stacks are apart, and what a thread does in its own leaves the frames of the others alone. -/

/-- In the configuration, a call of `arch_switch_to` that the thread made on the machine
returns, with what the thread had in the registers that C relies on and on its stack. -/
structure Resumes (t : T) (m : X64.Machine S) (c : Config S) : Prop where
  rip : c.1 = m.mem (m.gpr .rsp)
  rsp : c.2.gpr .rsp = m.gpr .rsp + 8#64
  regs : ∀ r ∈ switchedRegs, c.2.gpr r = m.gpr r
  /-- of which bit 1 is always set -/
  rflags : c.2.rflags = m.rflags ||| 0x2#64
  stack : ∀ a ∈ L.stack t, (∀ i < 8, a ≠ slot (m.gpr .rsp) i) → c.2.mem a = m.mem a

/-- A thread that left at the machine is found by `arch_switch_to` in the memory. -/
structure Parked (t : T) (m : X64.Machine S) (mem : Word → Word) : Prop where
  fits : L.FrameFits t (m.gpr .rsp)
  hostSp : mem (L.hostSp t) = slot (m.gpr .rsp) 7
  stack : ∀ a ∈ L.stack t, mem a = pushed m.mem (m.gpr .rsp) (switchFrame m) a

variable {L} {t t' : T} {m m₀ : X64.Machine S} {mem mem' : Word → Word} {s s' : ThreadState S T}
  {magic : Word} {next : T}

/-- Nothing that a thread is found by is written. -/
theorem Parked.of_same (h : L.Parked t m mem) (hsp : mem' (L.hostSp t) = mem (L.hostSp t))
    (hstack : ∀ a ∈ L.stack t, mem' a = mem a) : L.Parked t m mem' where
  fits := h.fits
  hostSp := hsp.trans h.hostSp
  stack a ha := (hstack a ha).trans (h.stack a ha)

theorem length_switchFrame : (switchFrame m).length = 8 := rfl

/-- A slot of the frame has what was pushed there. -/
theorem Parked.slot (h : L.Parked t m mem) {i : ℕ} (hi : i < 8) :
    mem (slot (m.gpr .rsp) i) = (switchFrame m).get ⟨i, hi.trans_eq length_switchFrame.symm⟩ := by
  rw [h.stack _ (h.fits.slots i hi)]
  exact pushed_slot (by rw [length_switchFrame]; decide) _

/-- The quadwords of the frames are all apart from those above. -/
theorem Parked.other (h : L.Parked t m mem) {a : Word} (ha : a ∈ L.stack t)
    (hne : ∀ i < 8, a ≠ X64.slot (m.gpr .rsp) i) : mem a = m.mem a := by
  rw [h.stack a ha]
  exact pushed_of_ne fun i hi => hne i (hi.trans_eq length_switchFrame)

theorem top_ne_slot {a : Word} {i : ℕ} (hi : i < 8) : a ≠ X64.slot a i := by
  rw [X64.slot]
  bv_omega

/-- The memory of the switch is that of before but in the stack of the thread that calls, and
in its `host_sp`. -/
theorem Calls.switchedMem_of_ne (h : L.Calls s next) {a : Word} (hsp : a ≠ L.hostSp s.curr)
    (hstack : a ∉ L.stack s.curr) : switchedMem s.cpu.2 a = s.cpu.2.mem a := by
  rw [switchedMem, h.rdi, Function.update_of_ne hsp]
  refine pushed_of_ne fun i hi heq => hstack ?_
  rw [heq]
  exact h.fits.slots i (hi.trans_eq length_switchFrame)

/-- The thread that calls is parked. -/
theorem Calls.parked (h : L.Calls s next) :
    L.Parked s.curr s.cpu.2 (switchedMem s.cpu.2) where
  fits := h.fits
  hostSp := by
    rw [switchedMem, h.rdi]
    exact Function.update_self ..
  stack a ha := by
    rw [switchedMem, h.rdi]
    exact Function.update_of_ne (fun heq => L.hostSp_notMem _ _ (heq ▸ ha)) ..

/-- Another thread that is parked stays so. -/
theorem Calls.parked_other (h : L.Calls s next) (ht : t ≠ s.curr)
    (hp : L.Parked t m s.cpu.2.mem) : L.Parked t m (switchedMem s.cpu.2) :=
  hp.of_same (h.switchedMem_of_ne (fun heq => ht (L.hostSp_injective heq)) (L.hostSp_notMem _ _))
    fun _ ha => h.switchedMem_of_ne (fun heq => L.hostSp_notMem _ _ (heq ▸ ha))
      fun ha' => ht (L.disjoint _ _ _ ha ha')

/-- **A call of `arch_switch_to`** returns in the thread that is parked. -/
theorem Calls.resumes (h : L.Calls s next) (hp : L.Parked next m₀ s.cpu.2.mem) :
    ∃ c, archSwitchTo s.cpu.2 = some c ∧ L.Resumes next m₀ c ∧ c.2.mem = switchedMem s.cpu.2 ∧
      c.2.sys = s.cpu.2.sys := by
  have hp' := h.parked_other h.ne hp
  have hsp : switchedMem s.cpu.2 (s.cpu.2.gpr .rsi) = X64.slot (m₀.gpr .rsp) 7 := by
    rw [h.rsi]
    exact hp'.hostSp
  refine ⟨_, archSwitchTo_eq h.fits.aligned (h.rdi.symm ▸ L.aligned_hostSp _)
    (h.rsi.symm ▸ L.aligned_hostSp _) hp.fits.aligned hsp, ?_, rfl, rfl⟩
  refine ⟨?_, rfl, fun r hr => ?_, ?_, fun a ha hne => ?_⟩
  · exact hp'.other hp.fits.top fun i hi => top_ne_slot hi
  · have hne : r ≠ .rsp := fun heq => absurd (heq ▸ hr) (by decide)
    have hlt : switchedRegs.idxOf r < switchedRegs.length := List.idxOf_lt_length_iff.mpr hr
    show (if r = .rsp then _ else if r ∈ switchedRegs then _ else _) = _
    rw [if_neg hne, if_pos hr, hp'.slot (Nat.succ_lt_succ hlt)]
    show (switchedRegs.map m₀.gpr).get ⟨switchedRegs.idxOf r, _⟩ = _
    rw [List.get_eq_getElem, List.getElem_map, List.getElem_idxOf hlt]
  · exact congrArg (· ||| 0x2#64) (hp'.slot (Nat.succ_pos 7))
  · exact hp'.other ha hne

/-! ## Every run -/

variable (L) in
/-- Each thread that has left is parked. -/
def AllParked (s : ThreadState S T) : Prop :=
  ∀ t ≠ s.curr, ∀ m, s.left t = some m → L.Parked t m s.cpu.2.mem

/-- A thread that begins is parked. -/
theorem parked_fresh {threadEntry : Word} {sys : S} (hmem : mem' = Function.update
    (pushed mem (L.stackTop t) [magic, threadEntry, 0#64, 0#64, 0#64, 0#64, 0#64, 0#64, 0#64,
      L.obj t]) (L.hostSp t) (X64.slot (L.stackTop t) 9)) :
    L.Parked t (L.fresh t threadEntry mem' sys) mem' := by
  have hrsp : (L.fresh t threadEntry mem' sys).gpr .rsp = X64.slot (L.stackTop t) 1 := rfl
  have hslot : ∀ i < 8, X64.slot (X64.slot (L.stackTop t) 1) i = X64.slot (L.stackTop t) (i + 2) :=
    fun i _ => slot_slot.trans (congrArg _ (by omega))
  set values := [magic, threadEntry, 0#64, 0#64, 0#64, 0#64, 0#64, 0#64, 0#64, L.obj t]
    with hvalues
  have hlen : values.length = 10 := rfl
  have hvalue : ∀ i, ∀ hi : i < values.length, mem' (X64.slot (L.stackTop t) i) = values[i] := by
    intro i hi
    rw [hmem, Function.update_of_ne]
    · exact pushed_slot (hlen ▸ by decide) hi
    · exact fun heq => L.hostSp_notMem t t (heq ▸ L.frame_mem t i (hi.trans_eq hlen))
  have hentry : (L.fresh t threadEntry mem' sys).mem = mem' := by
    have hrip : threadEntry = mem' (X64.slot (L.stackTop t) 1) := (hvalue 1 (hlen ▸ by decide)).symm
    rw [fresh, hrip]
    exact Function.update_eq_self ..
  -- below the entry is what a switch would have pushed there: flags, registers, the object
  refine ⟨⟨?_, ?_, fun i hi => ?_⟩, ?_, fun a _ => ?_⟩
  · rw [hrsp]
    exact (L.aligned_stackTop t).slot 1
  · rw [hrsp]
    exact L.frame_mem t 1 (by decide)
  · rw [hrsp, hslot i hi]
    exact L.frame_mem t (i + 2) (Nat.add_lt_add_right hi 2)
  · rw [hrsp, slot_slot, hmem]
    exact Function.update_self ..
  · rw [hrsp, hentry, pushed_eq_self (length_switchFrame ▸ by decide)]
    intro i hi
    have hi8 : i < 8 := hi
    rw [hslot i hi8, hvalue (i + 2) (Nat.add_lt_add_right hi8 2)]
    rfl

variable [DecidableEq T]

theorem AllParked.step {a : ThreadStep T} (h : L.AllParked s) (hstep : L.Stepped magic s a s') :
    L.AllParked s' := by
  cases hstep with
  | work cpu hstack hsp =>
    exact fun t ht m hm => (h t ht m hm).of_same (hsp t) (hstack t ht)
  | prepare t threadEntry mem built ht hmem hbuilt =>
    rw [buildStackFrame_eq] at hbuilt
    intro t' ht' m hm
    -- the frame is on the stack of `t`, and no other has a part of that
    by_cases heq : t' = t
    · subst heq
      dsimp only at hm
      rw [Function.update_self, Option.some_inj] at hm
      subst hm
      obtain rfl := hbuilt
      exact parked_fresh rfl
    · have hleft : s.left t' = some m := (Function.update_of_ne heq ..).symm.trans hm
      refine (h t' ht' m hleft).of_same ?_ fun a ha => ?_
      · show Function.update _ _ _ _ = _
        rw [Function.update_of_ne (fun hsp => heq (L.hostSp_injective hsp)), ← hbuilt]
        refine (pushed_of_ne fun i hi hslot => ?_).trans (hmem _ (L.hostSp_notMem _ _))
        exact L.hostSp_notMem t' t (hslot ▸ L.frame_mem t i hi)
      · have hnot : a ∉ L.stack t := fun ha' => heq (L.disjoint _ _ _ ha ha')
        show Function.update _ _ _ _ = _
        rw [Function.update_of_ne (fun hsp => L.hostSp_notMem _ _ (hsp ▸ ha)), ← hbuilt]
        refine (pushed_of_ne fun i hi hslot => ?_).trans (hmem _ hnot)
        exact hnot (hslot ▸ L.frame_mem t i hi)
  | switch next cpu hcalls hsome hcpu =>
    obtain ⟨m₀, hm₀⟩ := Option.isSome_iff_exists.mp hsome
    obtain ⟨c, hc, -, hmem, -⟩ := hcalls.resumes (h next hcalls.ne m₀ hm₀)
    obtain rfl := Option.some.inj (hc.symm.trans hcpu)
    intro t ht m hm
    show L.Parked t m c.2.mem
    rw [hmem]
    -- the one that calls is parked by its call, and it writes to no other's stack
    by_cases heq : t = s.curr
    · subst heq
      dsimp only at hm
      rw [Function.update_self, Option.some_inj] at hm
      exact hm ▸ hcalls.parked
    · have hleft : s.left t = some m := (Function.update_of_ne heq ..).symm.trans hm
      exact hcalls.parked_other heq (h t heq m hleft)

/-- **Each thread goes on where it left.** In every run, a call of `arch_switch_to` returns in
the next thread, from the call on which that one left or to its entry, with the registers and
the stack that it had, and nothing is written but the stack and the `host_sp` of the thread
that calls. -/
theorem threads_resume (hreach : Reach (L.threadSystem magic) any s) (hcalls : L.Calls s next)
    (hleft : s.left next = some m₀) :
    ∃ c, archSwitchTo s.cpu.2 = some c ∧ L.Resumes next m₀ c ∧ c.2.sys = s.cpu.2.sys ∧
      ∀ a, a ≠ L.hostSp s.curr → a ∉ L.stack s.curr → c.2.mem a = s.cpu.2.mem a := by
  have hparked : L.AllParked s := by
    refine hreach.invariant (P := L.AllParked) (fun s hinit t _ m hm => ?_)
      fun _ _ _ _ hstep h => h.step hstep
    rw [hinit t] at hm
    cases hm
  obtain ⟨c, hc, hresumes, hmem, hsys⟩ := hcalls.resumes (hparked next hcalls.ne m₀ hleft)
  refine ⟨c, hc, hresumes, hsys, fun a hsp hstack => ?_⟩
  rw [hmem]
  exact hcalls.switchedMem_of_ne hsp hstack

end ThreadLayout

end

/-! ## Two threads -/

/-- The idle thread, and a vCPU; each has a page for its stack. -/
def idleAndVcpu : ThreadLayout Bool where
  obj vcpu := if vcpu then 0x9000#64 else 0x8000#64
  hostSp vcpu := if vcpu then 0x9028#64 else 0x8028#64
  stackTop vcpu := if vcpu then 0x3000#64 else 0x2000#64
  stack vcpu := { a | a.toNat / 4096 = if vcpu then 2 else 1 }
  aligned_hostSp := by decide
  aligned_stackTop := by decide
  hostSp_injective := by decide
  hostSp_notMem := by decide
  disjoint t t' a h h' := by
    rw [Set.mem_ofPred_eq] at h h'
    cases t <;> cases t' <;> simp_all
  frame_mem := by decide

/-- The idle thread about to call `arch_switch_to`. -/
def idleCalls : X64.Machine Unit where
  gpr r := if r = .rsp then 0x1f00#64 else if r = .rdi then 0x8028#64 else 0x9028#64
  rflags := 0x2#64
  mem _ := 0#64
  rsb := []
  sys := ()

/-- The memory with the frame of the vCPU. -/
def vcpuFrame : Word → Word :=
  let built := buildStackFrame idleCalls.mem 0x3000#64 0x5a5a#64 0x4000#64 0x9000#64
  Function.update built.1 0x9028#64 built.2

/-- The vCPU is prepared. -/
def vcpuPrepared : ThreadState Unit Bool where
  curr := false
  cpu := (0#64, { idleCalls with mem := vcpuFrame })
  left := Function.update (fun _ => none) true
    (some (idleAndVcpu.fresh true 0x4000#64 vcpuFrame ()))

/-- The vCPU begins at the entry of its thread. -/
theorem threads_resume_idleAndVcpu : ∃ c : Config Unit,
    Reach (idleAndVcpu.threadSystem 0x5a5a#64) any vcpuPrepared ∧
      archSwitchTo vcpuPrepared.cpu.2 = some c ∧ c.1 = 0x4000#64 ∧ c.2.gpr .rsp = 0x2ff8#64 ∧
      c.2.gpr .rdi = 0x9000#64 := by
  let s₀ : ThreadState Unit Bool := ⟨false, (0#64, idleCalls), fun _ => none⟩
  have hreach : Reach (idleAndVcpu.threadSystem 0x5a5a#64) any vcpuPrepared :=
    .step (.init (s := s₀) fun _ => rfl) trivial
      (.prepare true 0x4000#64 idleCalls.mem _ Bool.noConfusion (fun _ _ => rfl) rfl)
  have hslots : ∀ i < 8, (slot 0x1f00#64 i).toNat / 4096 = 1 := by decide
  have hcalls : idleAndVcpu.Calls vcpuPrepared true :=
    ⟨Bool.noConfusion, rfl, rfl, ⟨rfl, rfl, hslots⟩⟩
  have hleft : vcpuPrepared.left true = some (idleAndVcpu.fresh true 0x4000#64 vcpuFrame ()) := rfl
  obtain ⟨c, hc, hresumes, -⟩ := ThreadLayout.threads_resume hreach hcalls hleft
  exact ⟨c, hreach, hc, hresumes.rip, hresumes.rsp, hresumes.regs .rdi (by decide)⟩

end Acrn
