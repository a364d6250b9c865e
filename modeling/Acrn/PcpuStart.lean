import Acrn.IntrRemap
import Acrn.Lib.Transition
import Mathlib.Logic.Function.Basic

/-!
# Starting the secondary processors

`start_pcpus` wakes the secondary processors of a mask one by one. Each finds the address of
its stack in one word of the trampoline, looks for its own local APIC ID, reports
`PCPU_STATE_RUNNING` and waits until `pcpu_sync` is 0.
-/

namespace Acrn

open Transition

/-! ## The stacks -/

/-- `PCPU_STACK_SIZE` -/
def pcpuStackSize : ℕ := 0x200000

/-- `GUARD_PAGE_SIZE` -/
def guardPageSize : ℕ := 0x200000

/-- `sizeof(struct per_cpu_region)`: two guard pages, the stack between them, and all other
fields in one more multiple of the alignment. -/
def perCpuRegionSize : ℕ := 0x800000

/-- `CPU_STACK_ALIGN` -/
def cpuStackAlign : ℕ := 16

/-- `per_cpu(stack, pcpu_id)`, where `per_cpu_data` is at `base`. -/
def perCpuStack (base pcpuId : ℕ) : ℕ := base + pcpuId * perCpuRegionSize + guardPageSize

/-- What `write_trampoline_stack_sym` writes. To clear the low bits is to round down. -/
def stackSymAddr (base pcpuId : ℕ) : ℕ :=
  (perCpuStack base pcpuId + (pcpuStackSize - 1)) / cpuStackAlign * cpuStackAlign

/-- The address lies in the stack. -/
theorem stackSymAddr_mem (base i : ℕ) : perCpuStack base i ≤ stackSymAddr base i ∧
    stackSymAddr base i < perCpuStack base i + pcpuStackSize := by
  simp only [stackSymAddr, pcpuStackSize, cpuStackAlign]
  omega

/-- The stacks of two pCPUs are at least `PCPU_STACK_SIZE` apart. -/
theorem stackSymAddr_apart (base : ℕ) {i j : ℕ} (h : i ≠ j) :
    stackSymAddr base i + pcpuStackSize ≤ stackSymAddr base j ∨
      stackSymAddr base j + pcpuStackSize ≤ stackSymAddr base i := by
  obtain ⟨hi, hi'⟩ := stackSymAddr_mem base i
  obtain ⟨hj, hj'⟩ := stackSymAddr_mem base j
  simp only [perCpuStack, pcpuStackSize, guardPageSize, perCpuRegionSize] at *
  omega

/-! ## The processors

The boot processor goes through `start_pcpus`, and each secondary processor through the trampoline
and `init_secondary_pcpu`. They share the slot for the stack, the states of the pCPUs and
`pcpu_sync`. A step is one access to these. -/

/-- What the start-up begins with. -/
structure BringUp where
  /-- the address of `per_cpu_data` -/
  base : ℕ
  physCpuNum : ℕ
  physCpuNum_le : physCpuNum ≤ maxPcpuNum
  /-- the field `lapic_id` of the per-CPU regions -/
  lapicId : ℕ → U32
  lapicId_inj : ∀ i < physCpuNum, ∀ j < physCpuNum, lapicId i = lapicId j → i = j
  /-- the pCPU that runs `start_pcpus` -/
  bootPcpu : ℕ
  bootPcpu_lt : bootPcpu < physCpuNum
  mask : Word
  mask_lt : ∀ i, mask.getLsbD i = true → i < physCpuNum

/-- `get_pcpu_id_from_lapic_id`, where no pCPU gives `INVALID_CPU_ID`. -/
def BringUp.getPcpuIdFromLapicId (c : BringUp) (lapicId : U32) : ℕ :=
  ((List.range c.physCpuNum).find? fun i => c.lapicId i = lapicId).getD 0xffff

/-- Where the boot processor is in `start_pcpus`. -/
inductive StartPc where
  | entry
  /-- at the head of the loop -/
  | next
  /-- in `start_pcpu`, before `write_trampoline_stack_sym` -/
  | writing (i : ℕ)
  /-- before `send_startup_ipi` -/
  | sending (i : ℕ)
  /-- waiting for `PCPU_STATE_RUNNING` -/
  | polling (i : ℕ)
  /-- the time is over -/
  | failing (i : ℕ)
  /-- after the loop -/
  | ended (status : Bool)
  | returned (status : Bool)
  deriving DecidableEq

/-- Where a secondary processor is. -/
inductive SecondaryPc where
  /-- it waits for the first INIT -/
  | off
  | trampoline
  /-- with the stack that it has read, before it looks for its ID -/
  | loaded (stack : ℕ)
  | identified (stack pcpuId : ℕ)
  /-- in `wait_sync_change` -/
  | waiting (stack pcpuId : ℕ)
  /-- after `wait_sync_change` -/
  | left (stack pcpuId : ℕ)
  | panicked
  deriving DecidableEq

/-- The stack that it runs on. -/
def SecondaryPc.stack : SecondaryPc → Option ℕ
  | .loaded stack => some stack
  | .identified stack _ => some stack
  | .waiting stack _ => some stack
  | .left stack _ => some stack
  | _ => none

/-- The pCPU that it takes itself for. -/
def SecondaryPc.pcpuId : SecondaryPc → Option ℕ
  | .identified _ i => some i
  | .waiting _ i => some i
  | .left _ i => some i
  | _ => none

/-- It has set `PCPU_STATE_RUNNING`. -/
def SecondaryPc.isUp : SecondaryPc → Bool
  | .waiting _ _ => true
  | .left _ _ => true
  | _ => false

/-- The boot processor and the secondary processors, which are named by their local APIC IDs. -/
structure StartState where
  boot : StartPc
  /-- `expected_start_mask` -/
  remaining : Word
  /-- `secondary_cpu_stack` in the trampoline -/
  slot : ℕ
  /-- `boot_state` is `PCPU_STATE_RUNNING` -/
  running : ℕ → Bool
  /-- `pcpu_sync` is 1 -/
  pcpuSync : Bool
  secondary : U32 → SecondaryPc

/-- The steps of the boot processor, and those of the secondary processor `x`. -/
inductive StartStep where
  | begin
  | next
  | writeStack
  | sendStartupIpi
  | running
  | timeOut
  | setDead
  | release
  | readStack (x : U32)
  | identify (x : U32)
  | setRunning (x : U32)
  | leave (x : U32)
  deriving DecidableEq

namespace StartState

variable (c : BringUp) (s : StartState)

def setRunning (i : ℕ) (up : Bool) : StartState :=
  { s with running := Function.update s.running i up }

def setSecondary (x : U32) (pc : SecondaryPc) : StartState :=
  { s with secondary := Function.update s.secondary x pc }

/-- The head of the loop of `start_pcpus`. -/
def loopHead : StartState :=
  let i := ffs64 s.remaining
  if i = 0xffff then { s with boot := .ended true }
  else
    let s' := { s with remaining := bitmapClearNolock i s.remaining }
    if c.bootPcpu = i then s' else { s' with boot := .writing i }

/-- One step, where the code can take it. -/
def step : StartStep → Option StartState
  | .begin =>
    match s.boot with
    | .entry => some { s with pcpuSync := true, boot := .next }
    | _ => none
  | .next =>
    match s.boot with
    | .next => some (s.loopHead c)
    | _ => none
  | .writeStack =>
    match s.boot with
    | .writing i => some { s with slot := stackSymAddr c.base i, boot := .sending i }
    | _ => none
  | .sendStartupIpi =>
    match s.boot with
    | .sending i => some { s.setSecondary (c.lapicId i) .trampoline with boot := .polling i }
    | _ => none
  | .running =>
    match s.boot with
    | .polling i => if s.running i = true then some { s with boot := .next } else none
    | _ => none
  | .timeOut =>
    match s.boot with
    | .polling i => if s.running i = false then some { s with boot := .failing i } else none
    | _ => none
  | .setDead =>
    match s.boot with
    | .failing i => some { s.setRunning i false with boot := .ended false }
    | _ => none
  | .release =>
    match s.boot with
    | .ended status => some { s with pcpuSync := false, boot := .returned status }
    | _ => none
  | .readStack x =>
    match s.secondary x with
    | .trampoline => some (s.setSecondary x (.loaded s.slot))
    | _ => none
  | .identify x =>
    match s.secondary x with
    | .loaded stack =>
      if c.getPcpuIdFromLapicId x < maxPcpuNum then
        some (s.setSecondary x (.identified stack (c.getPcpuIdFromLapicId x)))
      else some (s.setSecondary x .panicked)
    | _ => none
  | .setRunning x =>
    match s.secondary x with
    | .identified stack i => some ((s.setSecondary x (.waiting stack i)).setRunning i true)
    | _ => none
  | .leave x =>
    match s.secondary x with
    | .waiting stack i =>
      if s.pcpuSync = false then some (s.setSecondary x (.left stack i)) else none
    | _ => none

/-- Before `start_pcpus`. The boot processor is running. -/
def start : StartState where
  boot := .entry
  remaining := c.mask
  slot := 0
  running := fun i => i = c.bootPcpu
  pcpuSync := false
  secondary := fun _ => .off

end StartState

/-- The start-up of all processors. -/
def startSystem (c : BringUp) : System StartState StartStep :=
  .ofFun (· = .start c) (StartState.step c)

/-- No `start_pcpu` gives up. -/
def InTime (_ : StartState) (a : StartStep) : Prop := a ≠ .timeOut

instance (s : StartState) (a : StartStep) : Decidable (InTime s a) :=
  inferInstanceAs (Decidable (a ≠ .timeOut))

/-! ## The mask and the local APIC IDs -/

theorem ffs64_lt_or (value : Word) : ffs64 value < 64 ∨ ffs64 value = 0xffff := by
  rw [ffs64]
  cases hfind : (List.range 64).find? fun i => value.getLsbD i with
  | none => exact .inr rfl
  | some i => exact .inl (List.mem_range.mp (List.mem_of_find?_eq_some hfind))

namespace BringUp

variable (c : BringUp)

/-- What is found has the ID. -/
theorem lapicId_getPcpuId {x : U32} (h : c.getPcpuIdFromLapicId x < maxPcpuNum) :
    c.getPcpuIdFromLapicId x < c.physCpuNum ∧ c.lapicId (c.getPcpuIdFromLapicId x) = x := by
  unfold getPcpuIdFromLapicId at h ⊢
  cases hfind : (List.range c.physCpuNum).find? fun i => c.lapicId i = x with
  | none =>
    rw [hfind] at h
    exact absurd h (by decide)
  | some i =>
    have hid := List.find?_some hfind
    exact ⟨List.mem_range.mp (List.mem_of_find?_eq_some hfind), of_decide_eq_true hid⟩

end BringUp

/-! ## What a step does

Each place of the code has one way to go on, but for the wait for a pCPU, which can time out, and
for the search for an ID, which can fail. All invariants below are proved from this list. -/

namespace StartState

/-- The steps, with where they are taken and what they leave. -/
inductive Stepped (c : BringUp) (s : StartState) : StartStep → StartState → Prop where
  | begin : s.boot = .entry → Stepped c s .begin { s with pcpuSync := true, boot := .next }
  | next : s.boot = .next → Stepped c s .next (s.loopHead c)
  | writeStack (i : ℕ) : s.boot = .writing i →
      Stepped c s .writeStack { s with slot := stackSymAddr c.base i, boot := .sending i }
  | sendStartupIpi (i : ℕ) : s.boot = .sending i →
      Stepped c s .sendStartupIpi
        { s.setSecondary (c.lapicId i) .trampoline with boot := .polling i }
  | running (i : ℕ) : s.boot = .polling i → s.running i = true →
      Stepped c s .running { s with boot := .next }
  | timeOut (i : ℕ) : s.boot = .polling i → s.running i = false →
      Stepped c s .timeOut { s with boot := .failing i }
  | setDead (i : ℕ) : s.boot = .failing i →
      Stepped c s .setDead { s.setRunning i false with boot := .ended false }
  | release (status : Bool) : s.boot = .ended status →
      Stepped c s .release { s with pcpuSync := false, boot := .returned status }
  | readStack (x : U32) : s.secondary x = .trampoline →
      Stepped c s (.readStack x) (s.setSecondary x (.loaded s.slot))
  | identify (x : U32) (stack : ℕ) : s.secondary x = .loaded stack →
      c.getPcpuIdFromLapicId x < maxPcpuNum →
      Stepped c s (.identify x) (s.setSecondary x (.identified stack (c.getPcpuIdFromLapicId x)))
  | panic (x : U32) (stack : ℕ) : s.secondary x = .loaded stack →
      Stepped c s (.identify x) (s.setSecondary x .panicked)
  | setRunning (x : U32) (stack i : ℕ) : s.secondary x = .identified stack i →
      Stepped c s (.setRunning x) ((s.setSecondary x (.waiting stack i)).setRunning i true)
  | leave (x : U32) (stack i : ℕ) : s.secondary x = .waiting stack i → s.pcpuSync = false →
      Stepped c s (.leave x) (s.setSecondary x (.left stack i))

theorem stepped {c : BringUp} {s s' : StartState} {a : StartStep} (h : s.step c a = some s') :
    Stepped c s a s' := by
  cases a with
  | begin =>
    rw [step] at h
    split at h
    · next hboot => exact Option.some.inj h ▸ .begin hboot
    · cases h
  | next =>
    rw [step] at h
    split at h
    · next hboot => exact Option.some.inj h ▸ .next hboot
    · cases h
  | writeStack =>
    rw [step] at h
    split at h
    · next i hboot => exact Option.some.inj h ▸ .writeStack i hboot
    · cases h
  | sendStartupIpi =>
    rw [step] at h
    split at h
    · next i hboot => exact Option.some.inj h ▸ .sendStartupIpi i hboot
    · cases h
  | running =>
    rw [step] at h
    split at h
    · next i hboot =>
      obtain ⟨hrunning, rfl⟩ := of_guard h
      exact .running i hboot hrunning
    · cases h
  | timeOut =>
    rw [step] at h
    split at h
    · next i hboot =>
      obtain ⟨hrunning, rfl⟩ := of_guard h
      exact .timeOut i hboot hrunning
    · cases h
  | setDead =>
    rw [step] at h
    split at h
    · next i hboot => exact Option.some.inj h ▸ .setDead i hboot
    · cases h
  | release =>
    rw [step] at h
    split at h
    · next status hboot => exact Option.some.inj h ▸ .release status hboot
    · cases h
  | readStack x =>
    rw [step] at h
    split at h
    · next hx => exact Option.some.inj h ▸ .readStack x hx
    · cases h
  | identify x =>
    rw [step] at h
    split at h
    · next stack hx =>
      split at h
      · next hid => exact Option.some.inj h ▸ .identify x stack hx hid
      · exact Option.some.inj h ▸ .panic x stack hx
    · cases h
  | setRunning x =>
    rw [step] at h
    split at h
    · next stack i hx => exact Option.some.inj h ▸ .setRunning x stack i hx
    · cases h
  | leave x =>
    rw [step] at h
    split at h
    · next stack i hx =>
      obtain ⟨hsync, rfl⟩ := of_guard h
      exact .leave x stack i hx hsync
    · cases h

end StartState

/-! ## What holds in every run

A pCPU that is still to be signalled has not begun, and one that is in the trampoline is the last
that was signalled: so the one slot for a stack is the right one whenever it is read. -/

/-- The pCPU that `start_pcpu` is about. -/
def StartPc.starting : StartPc → Option ℕ
  | .writing i => some i
  | .sending i => some i
  | .polling i => some i
  | .failing i => some i
  | _ => none

/-- The last INIT has been sent, to pCPU `i` if the loop goes on. -/
def StartPc.Sent (boot : StartPc) (i : ℕ) : Prop :=
  boot = .polling i ∨ boot = .failing i ∨ boot = .ended false ∨ boot = .returned false

namespace StartState

variable {c : BringUp} {s s' : StartState}

/-- pCPU `j` is still to be signalled. -/
def ToStart (s : StartState) (j : ℕ) : Prop :=
  s.remaining.getLsbD j = true ∨ s.boot = .writing j ∨ s.boot = .sending j

/-- `sp` is the stack of the secondary processor `x`. -/
def OwnStack (c : BringUp) (x : U32) (sp : ℕ) : Prop :=
  ∃ i < c.physCpuNum, i ≠ c.bootPcpu ∧ c.lapicId i = x ∧ sp = stackSymAddr c.base i

/-- In every run. -/
structure Sound (c : BringUp) (s : StartState) : Prop where
  remaining : ∀ j, s.remaining.getLsbD j = true → j < c.physCpuNum
  starting : ∀ i, s.boot.starting = some i →
    i < c.physCpuNum ∧ i ≠ c.bootPcpu ∧ s.remaining.getLsbD i = false
  entry : s.boot = .entry → ∀ x, s.secondary x = .off
  unstarted : ∀ j, s.ToStart j → s.secondary (c.lapicId j) = .off
  slot : ∀ i, s.boot = .sending i → s.slot = stackSymAddr c.base i
  trampoline : ∀ x, s.secondary x = .trampoline →
    ∃ i < c.physCpuNum, i ≠ c.bootPcpu ∧ c.lapicId i = x ∧ s.slot = stackSymAddr c.base i ∧
      s.boot.Sent i
  stack : ∀ x sp, (s.secondary x).stack = some sp → OwnStack c x sp
  pcpuId : ∀ x i, (s.secondary x).pcpuId = some i → i < c.physCpuNum ∧ c.lapicId i = x
  running : ∀ j, s.running j = true →
    j = c.bootPcpu ∨ (s.secondary (c.lapicId j)).isUp = true
  left : ∀ x sp i, s.secondary x = .left sp i → ∃ status, s.boot = .returned status
  sync : s.pcpuSync = false → s.boot = .entry ∨ ∃ status, s.boot = .returned status

/-- Before `start_pcpus` is entered nothing has been sent and nobody is in the trampoline. -/
theorem Sound.start : Sound c (start c) :=
  ⟨c.mask_lt, fun _ h => (by cases h), fun _ _ => rfl, fun _ _ => rfl, fun _ h => (by cases h),
    fun _ h => (by cases h), fun _ _ h => (by cases h), fun _ _ h => (by cases h),
    fun _ h => .inl (of_decide_eq_true h), fun _ _ _ h => (by cases h), fun _ => .inl rfl⟩

/-- Nobody is in the trampoline before the first INIT, nor between two turns of the loop. -/
theorem Sound.no_trampoline (h : Sound c s) (hboot : ∀ i, ¬ s.boot.Sent i) (x : U32) :
    s.secondary x ≠ .trampoline := by
  intro hx
  obtain ⟨i, -, -, -, -, hsent⟩ := h.trampoline x hx
  exact hboot i hsent

/-- A step of the boot processor that sends nothing. -/
theorem Sound.setBoot (h : Sound c s) {boot : StartPc} {remaining : Word} {slot : ℕ} {sync : Bool}
    (hremaining : ∀ j, remaining.getLsbD j = true → s.remaining.getLsbD j = true)
    (hstarting : ∀ i, boot.starting = some i →
      i < c.physCpuNum ∧ i ≠ c.bootPcpu ∧ remaining.getLsbD i = false)
    (hentry : boot ≠ .entry) (hto : ∀ j, boot = .writing j ∨ boot = .sending j → s.ToStart j)
    (hslot : ∀ i, boot = .sending i → slot = stackSymAddr c.base i)
    (htrampoline : ∀ x, s.secondary x = .trampoline →
      ∃ i < c.physCpuNum, i ≠ c.bootPcpu ∧ c.lapicId i = x ∧ slot = stackSymAddr c.base i ∧
        boot.Sent i)
    (hleft : (∃ status, s.boot = .returned status) → ∃ status, boot = .returned status)
    (hsync : sync = false → ∃ status, boot = .returned status) :
    Sound c { s with
      boot := boot
      remaining := remaining
      slot := slot
      pcpuSync := sync } := by
  refine ⟨fun j hj => h.remaining j (hremaining j hj), hstarting, fun he => absurd he hentry, ?_,
    hslot, htrampoline, h.stack, h.pcpuId, h.running, fun x sp i hx => hleft (h.left x sp i hx),
    fun hs => .inr (hsync hs)⟩
  rintro j (hj | hj)
  · exact h.unstarted j (.inl (hremaining j hj))
  · exact h.unstarted j (hto j hj)

/-- A step of a secondary processor after the trampoline. -/
theorem Sound.setSecondary (h : Sound c s) {x : U32} {pc : SecondaryPc} (hx : s.secondary x ≠ .off)
    (hpc : pc ≠ .trampoline) (hstack : ∀ sp, pc.stack = some sp → OwnStack c x sp)
    (hid : ∀ i, pc.pcpuId = some i → i < c.physCpuNum ∧ c.lapicId i = x)
    (hup : (s.secondary x).isUp = true → pc.isUp = true)
    (hleft : ∀ sp i, pc = .left sp i → ∃ status, s.boot = .returned status) :
    Sound c (s.setSecondary x pc) := by
  have hsecondary : ∀ y, (s.setSecondary x pc).secondary y = if y = x then pc else s.secondary y :=
    Function.update_apply s.secondary x pc
  refine ⟨h.remaining, h.starting, fun he => absurd (h.entry he x) hx, fun j hj => ?_, h.slot,
    fun y hy => ?_, fun y sp hy => ?_, fun y i hy => ?_, fun j hj => ?_, fun y sp i hy => ?_, h.sync⟩
  · have hoff := h.unstarted j hj
    have hne : c.lapicId j ≠ x := by
      rintro rfl
      exact hx hoff
    rw [hsecondary, if_neg hne]
    exact hoff
  · rw [hsecondary] at hy
    split at hy
    · exact absurd hy hpc
    · exact h.trampoline y hy
  · rw [hsecondary] at hy
    split at hy
    · next heq =>
      rw [heq]
      exact hstack sp hy
    · exact h.stack y sp hy
  · rw [hsecondary] at hy
    split at hy
    · next heq =>
      rw [heq]
      exact hid i hy
    · exact h.pcpuId y i hy
  · refine (h.running j hj).imp_right fun hjup => ?_
    rw [hsecondary]
    split
    · next heq => exact hup (heq ▸ hjup)
    · exact hjup
  · rw [hsecondary] at hy
    split at hy
    · exact hleft sp i hy
    · exact h.left y sp i hy

/-- A pCPU is dead, or its secondary processor has set its state. -/
theorem Sound.setRunning (h : Sound c s) {i : ℕ} {up : Bool}
    (hup : up = true → (s.secondary (c.lapicId i)).isUp = true) : Sound c (s.setRunning i up) := by
  refine ⟨h.remaining, h.starting, h.entry, h.unstarted, h.slot, h.trampoline, h.stack, h.pcpuId,
    fun j hj => ?_, h.left, h.sync⟩
  have hrunning : (s.setRunning i up).running j = if j = i then up else s.running j :=
    Function.update_apply s.running i up j
  rw [hrunning] at hj
  split at hj
  · next heq =>
    rw [heq]
    exact .inr (hup hj)
  · exact h.running j hj

/-- The head of the loop. -/
theorem Sound.loopHead (h : Sound c s) (hboot : s.boot = .next) : Sound c (s.loopHead c) := by
  have hnobody : ∀ x, s.secondary x ≠ .trampoline := by
    refine h.no_trampoline fun i hi => ?_
    rw [StartPc.Sent, hboot] at hi
    simp at hi
  have hout : ¬ ∃ status, s.boot = .returned status := by
    rintro ⟨status, hr⟩
    rw [hboot] at hr
    cases hr
  have hsync : s.pcpuSync ≠ false := by
    intro hs
    obtain he | hr := h.sync hs
    · rw [hboot] at he
      cases he
    · exact hout hr
  rw [StartState.loopHead]
  split
  · exact h.setBoot (fun _ hj => hj) (fun _ hi => (by cases hi)) (fun he => (by cases he))
      (fun _ hj => (by simp at hj)) (fun _ hi => (by cases hi)) (fun x hx => absurd hx (hnobody x))
      (fun hr => absurd hr hout) (fun hs => absurd hs hsync)
  · next hne =>
    have hlt := (ffs64_lt_or s.remaining).resolve_right hne
    have hbit := getLsbD_ffs64 hlt
    have hremaining : ∀ j, (bitmapClearNolock (ffs64 s.remaining) s.remaining).getLsbD j = true →
        s.remaining.getLsbD j = true := by
      intro j hj
      rw [getLsbD_bitmapClearNolock hlt, Bool.and_eq_true] at hj
      exact hj.1
    split
    · exact h.setBoot hremaining (fun i hi => (by rw [hboot] at hi; cases hi))
        (fun he => (by rw [hboot] at he; cases he)) (fun _ hj => (by simp [hboot] at hj))
        (fun _ hi => (by rw [hboot] at hi; cases hi)) (fun x hx => absurd hx (hnobody x))
        (fun hr => absurd hr hout) (fun hs => absurd hs hsync)
    · next hown =>
      refine h.setBoot hremaining (fun i hi => ?_) (fun he => (by cases he)) (fun j hj => ?_)
        (fun _ hi => (by cases hi)) (fun x hx => absurd hx (hnobody x))
        (fun hr => absurd hr hout) (fun hs => absurd hs hsync)
      · obtain rfl := Option.some.inj hi
        refine ⟨h.remaining _ hbit, fun heq => hown heq.symm, ?_⟩
        rw [getLsbD_bitmapClearNolock hlt]
        simp
      · obtain hj | hj := hj
        · obtain rfl := StartPc.writing.inj hj
          exact .inl hbit
        · cases hj

/-- INIT starts the pCPU that the slot has been written for. -/
theorem Sound.sendStartupIpi (h : Sound c s) {i : ℕ} (hboot : s.boot = .sending i) :
    Sound c { s.setSecondary (c.lapicId i) .trampoline with boot := .polling i } := by
  obtain ⟨hi, hown, hcleared⟩ := h.starting i (by rw [hboot]; rfl)
  have hoff := h.unstarted i (.inr (.inr hboot))
  have hsecondary : ∀ y, (s.setSecondary (c.lapicId i) .trampoline).secondary y =
      if y = c.lapicId i then .trampoline else s.secondary y :=
    Function.update_apply s.secondary (c.lapicId i) .trampoline
  have hnobody : ∀ x, s.secondary x ≠ .trampoline := by
    refine h.no_trampoline fun i hi => ?_
    rw [StartPc.Sent, hboot] at hi
    simp at hi
  refine ⟨h.remaining, fun i' hi' => ?_, fun he => (by cases he), fun j hj => ?_,
    fun _ hi => (by cases hi), fun y hy => ?_, fun y sp hy => ?_, fun y k hy => ?_, fun j hj => ?_,
    fun y sp k hy => ?_, fun hs => ?_⟩
  · obtain rfl := Option.some.inj hi'
    exact ⟨hi, hown, hcleared⟩
  · -- the other pCPUs have other local APIC IDs
    have hbit : s.remaining.getLsbD j = true := hj.resolve_right (by simp)
    have hne : c.lapicId j ≠ c.lapicId i := by
      intro heq
      obtain rfl := c.lapicId_inj j (h.remaining j hbit) i hi heq
      rw [hcleared] at hbit
      cases hbit
    show (s.setSecondary (c.lapicId i) .trampoline).secondary (c.lapicId j) = _
    rw [hsecondary, if_neg hne]
    exact h.unstarted j (.inl hbit)
  · have hy' : (s.setSecondary (c.lapicId i) .trampoline).secondary y = .trampoline := hy
    rw [hsecondary] at hy'
    split at hy'
    · next heq => exact ⟨i, hi, hown, heq.symm, h.slot i hboot, .inl rfl⟩
    · exact absurd hy' (hnobody y)
  · have hy' : ((s.setSecondary (c.lapicId i) .trampoline).secondary y).stack = some sp := hy
    rw [hsecondary] at hy'
    split at hy'
    · cases hy'
    · exact h.stack y sp hy'
  · have hy' : ((s.setSecondary (c.lapicId i) .trampoline).secondary y).pcpuId = some k := hy
    rw [hsecondary] at hy'
    split at hy'
    · cases hy'
    · exact h.pcpuId y k hy'
  · refine (h.running j hj).imp_right fun hup => ?_
    show ((s.setSecondary (c.lapicId i) .trampoline).secondary (c.lapicId j)).isUp = true
    rw [hsecondary]
    split
    · next heq =>
      rw [heq, hoff] at hup
      cases hup
    · exact hup
  · have hy' : (s.setSecondary (c.lapicId i) .trampoline).secondary y = .left sp k := hy
    rw [hsecondary] at hy'
    split at hy'
    · cases hy'
    · obtain ⟨status, hr⟩ := h.left y sp k hy'
      rw [hboot] at hr
      cases hr
  · obtain he | ⟨status, hr⟩ := h.sync hs
    · rw [hboot] at he
      cases he
    · rw [hboot] at hr
      cases hr

/-- A step of the boot processor at a place other than the end, with the flag raised. -/
theorem Sound.midway (h : Sound c s) (hentry : s.boot ≠ .entry)
    (hreturned : ∀ status, s.boot ≠ .returned status) : s.pcpuSync ≠ false := by
  intro hs
  obtain he | ⟨status, hr⟩ := h.sync hs
  · exact hentry he
  · exact hreturned status hr

/-- At such a place nothing has been returned. -/
theorem not_returned (hreturned : ∀ status, s.boot ≠ .returned status) {P : Prop} :
    (∃ status, s.boot = .returned status) → P :=
  fun ⟨status, hr⟩ => absurd hr (hreturned status)

/-- The flag is raised before the first start-up IPI, so nobody is past it. -/
theorem Sound.begin (h : Sound c s) (hboot : s.boot = .entry) :
    Sound c { s with pcpuSync := true, boot := .next } := by
  refine h.setBoot (fun _ hj => hj) (fun _ hi => (by cases hi)) (fun he => (by cases he))
    (fun _ hj => (by simp at hj)) (fun _ hi => (by cases hi)) (fun x hx => ?_)
    (not_returned (by simp [hboot])) (fun hs => (by cases hs))
  rw [h.entry hboot x] at hx
  cases hx

/-- The stack is written while nobody is in the trampoline to read it. -/
theorem Sound.writeStack (h : Sound c s) {i : ℕ} (hboot : s.boot = .writing i) :
    Sound c { s with slot := stackSymAddr c.base i, boot := .sending i } := by
  have hstarting := h.starting i (by rw [hboot]; rfl)
  have hsync := h.midway (by simp [hboot]) (by simp [hboot])
  refine h.setBoot (fun _ hj => hj) (fun i' hi' => ?_) (fun he => (by cases he)) (fun j hj => ?_)
    (fun i' hi' => ?_) (fun x hx => ?_) (not_returned (by simp [hboot])) (fun hs => absurd hs hsync)
  · obtain rfl := Option.some.inj hi'
    exact hstarting
  · obtain hj | hj := hj
    · cases hj
    · obtain rfl := StartPc.sending.inj hj
      exact .inr (.inl hboot)
  · obtain rfl := StartPc.sending.inj hi'
    rfl
  · exact absurd hx (h.no_trampoline (by simp [StartPc.Sent, hboot]) x)

/-- The pCPU that was started last is up, and so it has left the trampoline. -/
theorem Sound.running_next (h : Sound c s) {i : ℕ} (hboot : s.boot = .polling i)
    (hrunning : s.running i = true) : Sound c { s with boot := .next } := by
  have hsync := h.midway (by simp [hboot]) (by simp [hboot])
  refine h.setBoot (fun _ hj => hj) (fun _ hi => (by cases hi)) (fun he => (by cases he))
    (fun _ hj => (by simp at hj)) (fun _ hi => (by cases hi)) (fun x hx => ?_)
    (not_returned (by simp [hboot])) (fun hs => absurd hs hsync)
  obtain ⟨i', -, hown, hx', -, hsent⟩ := h.trampoline x hx
  have hi : i = i' := by
    simpa [StartPc.Sent, hboot] using hsent
  obtain rfl := hi
  obtain hown' | hup := h.running i hrunning
  · exact absurd hown' hown
  · rw [hx', hx] at hup
    cases hup

/-- If it is late it may still be there. -/
theorem Sound.timeOut (h : Sound c s) {i : ℕ} (hboot : s.boot = .polling i) :
    Sound c { s with boot := .failing i } := by
  have hstarting := h.starting i (by rw [hboot]; rfl)
  have hsync := h.midway (by simp [hboot]) (by simp [hboot])
  refine h.setBoot (fun _ hj => hj) (fun i' hi' => ?_) (fun he => (by cases he))
    (fun _ hj => (by simp at hj)) (fun _ hi => (by cases hi)) (fun x hx => ?_)
    (not_returned (by simp [hboot])) (fun hs => absurd hs hsync)
  · obtain rfl := Option.some.inj hi'
    exact hstarting
  · obtain ⟨i', hi', hown', hx', hslot, hsent⟩ := h.trampoline x hx
    have heq : i = i' := by
      simpa [StartPc.Sent, hboot] using hsent
    obtain rfl := heq
    exact ⟨i, hi', hown', hx', hslot, .inr (.inl rfl)⟩

/-- A pCPU that was given up on is taken for dead, while its processor may still run in the
trampoline. -/
theorem Sound.setDead (h : Sound c s) {i : ℕ} (hboot : s.boot = .failing i) :
    Sound c { s.setRunning i false with boot := .ended false } := by
  have hsync := h.midway (by simp [hboot]) (by simp [hboot])
  have hdead : Sound c (s.setRunning i false) := h.setRunning fun hup => (by cases hup)
  have hboot' : (s.setRunning i false).boot = .failing i := hboot
  refine hdead.setBoot (fun _ hj => hj) (fun _ hi => (by cases hi)) (fun he => (by cases he))
    (fun _ hj => (by simp at hj)) (fun _ hi => (by cases hi)) (fun x hx => ?_)
    (not_returned (by simp [hboot'])) (fun hs => absurd hs hsync)
  obtain ⟨i', hi', hown, hx', hslot, -⟩ := h.trampoline x hx
  exact ⟨i', hi', hown, hx', hslot, .inr (.inr (.inl rfl))⟩

/-- The flag is lowered last: who is in the trampoline then was given up on before. -/
theorem Sound.release (h : Sound c s) {status : Bool} (hboot : s.boot = .ended status) :
    Sound c { s with pcpuSync := false, boot := .returned status } := by
  refine h.setBoot (fun _ hj => hj) (fun _ hi => (by cases hi)) (fun he => (by cases he))
    (fun _ hj => (by simp at hj)) (fun _ hi => (by cases hi)) (fun x hx => ?_)
    (fun _ => ⟨status, rfl⟩) (fun _ => ⟨status, rfl⟩)
  obtain ⟨i, hi, hown, hx', hslot, hsent⟩ := h.trampoline x hx
  have hstatus : status = false := by
    simpa [StartPc.Sent, hboot] using hsent
  exact ⟨i, hi, hown, hx', hslot, .inr (.inr (.inr (by rw [hstatus])))⟩

/-- The stack in the slot is that of the processor that reads it. -/
theorem Sound.readStack (h : Sound c s) {x : U32} (hx : s.secondary x = .trampoline) :
    Sound c (s.setSecondary x (.loaded s.slot)) := by
  obtain ⟨i, hi, hown, hx', hslot, -⟩ := h.trampoline x hx
  refine h.setSecondary (by simp [hx]) (by simp) (fun sp hsp => ?_) (fun _ hk => (by cases hk))
    (fun hup => (by rw [hx] at hup; cases hup)) (fun _ _ hl => (by cases hl))
  obtain rfl := Option.some.inj hsp
  exact ⟨i, hi, hown, hx', hslot⟩

/-- A processor that finds its identifier is the one whose identifier it is. -/
theorem Sound.identify (h : Sound c s) {x : U32} {sp : ℕ} (hx : s.secondary x = .loaded sp)
    (hid : c.getPcpuIdFromLapicId x < maxPcpuNum) :
    Sound c (s.setSecondary x (.identified sp (c.getPcpuIdFromLapicId x))) := by
  have hstack : OwnStack c x sp := h.stack x sp (by rw [hx]; rfl)
  refine h.setSecondary (by simp [hx]) (by simp) (fun sp' hsp => ?_) (fun i hi => ?_)
    (fun hup => (by rw [hx] at hup; cases hup)) (fun _ _ hl => (by cases hl))
  · obtain rfl := Option.some.inj hsp
    exact hstack
  · obtain rfl := Option.some.inj hi
    exact c.lapicId_getPcpuId hid

/-- A processor says that it is up only after it has left the trampoline with its own stack. -/
theorem Sound.up (h : Sound c s) {x : U32} {sp i : ℕ} (hx : s.secondary x = .identified sp i) :
    Sound c ((s.setSecondary x (.waiting sp i)).setRunning i true) := by
  have hid := h.pcpuId x i (by rw [hx]; rfl)
  have hwaiting : Sound c (s.setSecondary x (.waiting sp i)) := by
    refine h.setSecondary (by simp [hx]) (by simp) (fun sp' hsp => ?_) (fun i' hi' => ?_)
      (fun _ => rfl) (fun _ _ hl => (by cases hl))
    · exact h.stack x sp' (by rw [hx]; exact hsp)
    · exact h.pcpuId x i' (by rw [hx]; exact hi')
  refine hwaiting.setRunning fun _ => ?_
  rw [hid.2]
  show (Function.update s.secondary x (.waiting sp i) x).isUp = true
  rw [Function.update_self]
  rfl

/-- Nobody waits before `start_pcpus` is entered, so the flag is down since its end. -/
theorem Sound.leave (h : Sound c s) {x : U32} {sp i : ℕ} (hx : s.secondary x = .waiting sp i)
    (hsync : s.pcpuSync = false) : Sound c (s.setSecondary x (.left sp i)) := by
  refine h.setSecondary (by simp [hx]) (by simp) (fun sp' hsp => ?_) (fun i' hi' => ?_)
    (fun _ => rfl) (fun _ _ _ => ?_)
  · exact h.stack x sp' (by rw [hx]; exact hsp)
  · exact h.pcpuId x i' (by rw [hx]; exact hi')
  · refine (h.sync hsync).resolve_left fun he => ?_
    rw [h.entry he x] at hx
    cases hx

/-- The step lemma: every step of the boot processor and of a secondary keeps the invariant. -/
theorem Sound.step {a : StartStep} (h : Sound c s) (hstep : s.step c a = some s') : Sound c s' := by
  cases stepped hstep with
  | begin hboot => exact h.begin hboot
  | next hboot => exact h.loopHead hboot
  | writeStack i hboot => exact h.writeStack hboot
  | sendStartupIpi i hboot => exact h.sendStartupIpi hboot
  | running i hboot hrunning => exact h.running_next hboot hrunning
  | timeOut i hboot => exact h.timeOut hboot
  | setDead i hboot => exact h.setDead hboot
  | release status hboot => exact h.release hboot
  | readStack x hx => exact h.readStack hx
  | identify x sp hx hid => exact h.identify hx hid
  | panic x sp hx =>
    exact h.setSecondary (by simp [hx]) (by simp) (fun _ hsp => (by cases hsp))
      (fun _ hk => (by cases hk)) (fun hup => (by rw [hx] at hup; cases hup))
      (fun _ _ hl => (by cases hl))
  | setRunning x sp i hx => exact h.up hx
  | leave x sp i hx hsync => exact h.leave hx hsync

/-- The invariant holds in every run, whether the waiting times out or not. -/
theorem sound_of_reach {Ok : StartState → StartStep → Prop} (h : Reach (startSystem c) Ok s) :
    Sound c s := by
  refine h.invariant ?_ fun s a s' _ hstep hs => hs.step hstep
  rintro s rfl
  exact .start

/-! ## What holds while nobody gives up

Without a time-out `start_pcpu` returns only when its pCPU is up. So those that the loop is past
are up, and when the loop ends all of the mask are. -/

/-- In the runs without a time-out. -/
structure AllUp (c : BringUp) (s : StartState) : Prop where
  own : s.running c.bootPcpu = true
  failing : ∀ i, s.boot ≠ .failing i
  success : ∀ status, s.boot = .ended status ∨ s.boot = .returned status → status = true
  started : ∀ j, c.mask.getLsbD j = true →
    s.remaining.getLsbD j = true ∨ s.boot.starting = some j ∨ s.running j = true
  done : ∀ status, s.boot = .ended status ∨ s.boot = .returned status →
    ∀ j, c.mask.getLsbD j = true → s.running j = true

/-- At the start the boot processor is up, and all others are still in the mask. -/
theorem AllUp.start : AllUp c (start c) :=
  ⟨decide_eq_true rfl, fun _ h => (by cases h), fun _ h => (by simp [StartState.start] at h),
    fun _ h => .inl h, fun _ h => (by simp [StartState.start] at h)⟩

/-- A secondary processor that is up stays up. -/
theorem AllUp.setRunning (h : AllUp c s) (i : ℕ) : AllUp c (s.setRunning i true) := by
  have hkeep : ∀ j, s.running j = true → (s.setRunning i true).running j = true := by
    intro j hj
    show Function.update s.running i true j = true
    rw [Function.update_apply]
    split
    · rfl
    · exact hj
  exact ⟨hkeep _ h.own, h.failing, h.success,
    fun j hj => (h.started j hj).imp_right fun h => h.imp_right (hkeep j),
    fun status hb j hj => hkeep j (h.done status hb j hj)⟩

/-- A step of the boot processor before the end of the loop. -/
theorem AllUp.setBoot (h : AllUp c s) {boot : StartPc} {remaining : Word} {slot : ℕ} {sync : Bool}
    {secondary : U32 → SecondaryPc} (hfailing : ∀ i, boot ≠ .failing i)
    (hout : ∀ status, ¬ (boot = .ended status ∨ boot = .returned status))
    (hstarted : ∀ j, s.remaining.getLsbD j = true ∨ s.boot.starting = some j →
      remaining.getLsbD j = true ∨ boot.starting = some j ∨ s.running j = true) :
    AllUp c ⟨boot, remaining, slot, s.running, sync, secondary⟩ := by
  refine ⟨h.own, hfailing, fun status hb => absurd hb (hout status), fun j hj => ?_,
    fun status hb => absurd hb (hout status)⟩
  obtain hj | hj | hj := h.started j hj
  · exact hstarted j (.inl hj)
  · exact hstarted j (.inr hj)
  · exact .inr (.inr hj)

/-- The head of the loop takes a pCPU out of the mask only to start it, or because it is its own. -/
theorem AllUp.loopHead (h : AllUp c s) (hboot : s.boot = .next) : AllUp c (s.loopHead c) := by
  rw [StartState.loopHead]
  split
  · next hffs =>
    -- the mask is empty
    have hup : ∀ j, c.mask.getLsbD j = true → s.running j = true := by
      intro j hj
      obtain hj | hj | hj := h.started j hj
      · have hlt : j < 64 := by
          by_contra hge
          rw [BitVec.getLsbD_of_ge _ _ (Nat.le_of_not_lt hge)] at hj
          cases hj
        rw [getLsbD_of_lt_ffs64 hlt (by omega)] at hj
        cases hj
      · rw [hboot] at hj
        cases hj
      · exact hj
    refine ⟨h.own, fun _ hf => (by cases hf), fun status hb => ?_,
      fun j hj => .inr (.inr (hup j hj)), fun _ _ => hup⟩
    obtain hb | hb := hb
    · exact (StartPc.ended.inj hb).symm
    · cases hb
  · next hne =>
    have hlt := (ffs64_lt_or s.remaining).resolve_right hne
    have hbits : ∀ j, s.remaining.getLsbD j = true ∨ s.boot.starting = some j →
        (bitmapClearNolock (ffs64 s.remaining) s.remaining).getLsbD j = true ∨
          j = ffs64 s.remaining := by
      intro j hj
      obtain hj | hj := hj
      · rw [getLsbD_bitmapClearNolock hlt, hj]
        by_cases heq : j = ffs64 s.remaining
        · exact .inr heq
        · exact .inl (by simp [heq])
      · rw [hboot] at hj
        cases hj
    split
    · next hown =>
      refine h.setBoot h.failing (fun status hb => (by simp [hboot] at hb)) fun j hj => ?_
      refine (hbits j hj).imp_right fun heq => .inr ?_
      rw [heq, ← hown]
      exact h.own
    · refine h.setBoot (fun _ hf => (by cases hf)) (fun status hb => (by simp at hb)) fun j hj => ?_
      exact (hbits j hj).imp_right fun heq => .inl (by rw [heq]; rfl)

/-- What a secondary processor does on its way does not matter. -/
theorem AllUp.setSecondary (h : AllUp c s) (x : U32) (pc : SecondaryPc) :
    AllUp c (s.setSecondary x pc) :=
  ⟨h.own, h.failing, h.success, h.started, h.done⟩

/-- The return keeps what the end of the loop has established. -/
theorem AllUp.release (h : AllUp c s) {status : Bool} (hboot : s.boot = .ended status) :
    AllUp c { s with pcpuSync := false, boot := .returned status } := by
  have hstatus := h.success status (.inl hboot)
  have hup := h.done status (.inl hboot)
  refine ⟨h.own, fun _ hf => (by cases hf), fun status' hb => ?_,
    fun j hj => .inr (.inr (hup j hj)), fun _ _ => hup⟩
  obtain hb | hb := hb
  · cases hb
  · exact (StartPc.returned.inj hb).symm.trans hstatus

/-- Where no poll times out, the failing branch is never reached, and so every started pCPU is up
before the next one is. -/
theorem AllUp.step {a : StartStep} (h : AllUp c s) (hok : InTime s a)
    (hstep : s.step c a = some s') : AllUp c s' := by
  cases stepped hstep with
  | begin hboot =>
    refine h.setBoot (fun _ hf => (by cases hf)) (fun _ hb => (by simp at hb)) fun j hj => ?_
    exact .inl (hj.resolve_right (by simp [hboot, StartPc.starting]))
  | next hboot => exact h.loopHead hboot
  | writeStack i hboot =>
    refine h.setBoot (fun _ hf => (by cases hf)) (fun _ hb => (by simp at hb)) fun j hj => ?_
    exact hj.imp_right fun hj => .inl (by rw [hboot] at hj; exact hj)
  | sendStartupIpi i hboot =>
    refine h.setBoot (fun _ hf => (by cases hf)) (fun _ hb => (by simp at hb)) fun j hj => ?_
    exact hj.imp_right fun hj => .inl (by rw [hboot] at hj; exact hj)
  | running i hboot hrunning =>
    -- the pCPU that was waited for is up
    refine h.setBoot (fun _ hf => (by cases hf)) (fun _ hb => (by simp at hb)) fun j hj => ?_
    refine hj.imp_right fun hj => .inr ?_
    rw [hboot] at hj
    obtain rfl := Option.some.inj hj
    exact hrunning
  | timeOut => exact absurd rfl hok
  | setDead i hboot => exact absurd hboot (h.failing i)
  | release status hboot => exact h.release hboot
  | setRunning x sp i hx => exact (h.setSecondary x (.waiting sp i)).setRunning i
  | readStack x => exact h.setSecondary x _
  | identify x => exact h.setSecondary x _
  | panic x => exact h.setSecondary x _
  | leave x => exact h.setSecondary x _

/-- Two secondary processors are two pCPUs, of which none is the boot processor. -/
theorem OwnStack.apart {x y : U32} {sp sp' : ℕ} (h : OwnStack c x sp) (h' : OwnStack c y sp')
    (hne : x ≠ y) : sp + pcpuStackSize ≤ sp' ∨ sp' + pcpuStackSize ≤ sp := by
  obtain ⟨i, -, -, rfl, rfl⟩ := h
  obtain ⟨j, -, -, rfl, rfl⟩ := h'
  refine stackSymAddr_apart c.base ?_
  rintro rfl
  exact hne rfl

end StartState

/-! ## Every run -/

open StartState

/-- The stack that a secondary processor runs on has been written for it, and it takes itself
for the pCPU that has its local APIC ID. No two stacks overlap, nor does one that of the boot
processor. Time-outs do not matter here. -/
theorem secondary_stacks (c : BringUp) {Ok : StartState → StartStep → Prop} {s : StartState}
    (h : Reach (startSystem c) Ok s) :
    (∀ x sp, (s.secondary x).stack = some sp → ∃ i < c.physCpuNum, i ≠ c.bootPcpu ∧
      c.lapicId i = x ∧ sp = stackSymAddr c.base i) ∧
    (∀ x y sp sp', x ≠ y → (s.secondary x).stack = some sp → (s.secondary y).stack = some sp' →
      sp + pcpuStackSize ≤ sp' ∨ sp' + pcpuStackSize ≤ sp) ∧
    (∀ x sp, (s.secondary x).stack = some sp →
      sp + pcpuStackSize ≤ stackSymAddr c.base c.bootPcpu ∨
        stackSymAddr c.base c.bootPcpu + pcpuStackSize ≤ sp) ∧
    ∀ x i, (s.secondary x).pcpuId = some i → i < c.physCpuNum ∧ c.lapicId i = x := by
  have hsound := sound_of_reach h
  refine ⟨hsound.stack, fun x y sp sp' hne hx hy => (hsound.stack x sp hx).apart
    (hsound.stack y sp' hy) hne, fun x sp hx => ?_, hsound.pcpuId⟩
  obtain ⟨i, -, hown, -, rfl⟩ := hsound.stack x sp hx
  exact stackSymAddr_apart c.base hown

/-- **The secondary processors are released when all are up.** In every run in which no
`start_pcpu` times out, each secondary processor runs on its own stack and knows which pCPU it
is, and it leaves `wait_sync_change` only after every pCPU of the mask is running, when
`start_pcpus` returns true. -/
theorem released_when_all_up (c : BringUp) {s : StartState} (h : Reach (startSystem c) InTime s) :
    (∀ x sp, (s.secondary x).stack = some sp → ∃ i < c.physCpuNum, i ≠ c.bootPcpu ∧
      c.lapicId i = x ∧ sp = stackSymAddr c.base i) ∧
    (∀ x y sp sp', x ≠ y → (s.secondary x).stack = some sp → (s.secondary y).stack = some sp' →
      sp + pcpuStackSize ≤ sp' ∨ sp' + pcpuStackSize ≤ sp) ∧
    (∀ x sp, (s.secondary x).stack = some sp →
      sp + pcpuStackSize ≤ stackSymAddr c.base c.bootPcpu ∨
        stackSymAddr c.base c.bootPcpu + pcpuStackSize ≤ sp) ∧
    (∀ x i, (s.secondary x).pcpuId = some i → i < c.physCpuNum ∧ c.lapicId i = x) ∧
    ∀ x sp i, s.secondary x = .left sp i →
      s.boot = .returned true ∧ ∀ j, c.mask.getLsbD j = true → s.running j = true := by
  obtain ⟨hown, hapart, hboot, hid⟩ := secondary_stacks c h
  refine ⟨hown, hapart, hboot, hid, fun x sp i hx => ?_⟩
  have hall : AllUp c s := by
    refine h.invariant ?_ fun s a s' hok hstep hs => hs.step hok hstep
    rintro s rfl
    exact .start
  obtain ⟨status, hr⟩ := (sound_of_reach h).left x sp i hx
  obtain rfl := hall.success status (.inr hr)
  exact ⟨hr, hall.done true (.inr hr)⟩

theorem fourPcpus_boot : 0 < 4 := by decide

/-- Four pCPUs, of which the first starts the others. -/
def fourPcpus : BringUp where
  base := 0
  physCpuNum := 4
  physCpuNum_le := le_rfl
  lapicId := fun i => BitVec.ofNat 32 i
  lapicId_inj := by decide
  bootPcpu := 0
  bootPcpu_lt := fourPcpus_boot
  mask := 0b1110#64
  mask_lt := by
    intro i hi
    by_contra hge
    rw [BitVec.getLsbD_ofNat, Bool.and_eq_true] at hi
    have hbit : Nat.testBit 14 i = false :=
      Nat.testBit_lt_two_pow ((by decide : 14 < 2 ^ 4).trans_le
        (Nat.pow_le_pow_right (by decide) (Nat.le_of_not_lt hge)))
    rw [hbit] at hi
    exact absurd hi.2 (by decide)

/-- The steps of `start_pcpus` for one pCPU that comes up. -/
def startSteps (x : U32) : List StartStep :=
  [.next, .writeStack, .sendStartupIpi, .readStack x, .identify x, .setRunning x, .running]

/-- All three come up, and the third is released. -/
theorem released_when_all_up_three : ∃ s : StartState, Reach (startSystem fourPcpus) InTime s ∧
    s.secondary 3#32 = .left (stackSymAddr 0 3) 3 ∧ s.running 1 = true ∧ s.running 2 = true := by
  have hstart : Reach (startSystem fourPcpus) InTime (.start fourPcpus) := .init rfl
  have hreach := hstart.foldlM ([.begin] ++ startSteps 1#32 ++ startSteps 2#32 ++
    startSteps 3#32 ++ [.next, .release, .leave 3#32]) rfl
  obtain ⟨-, hall⟩ := (released_when_all_up fourPcpus hreach).2.2.2.2 3#32 _ _ rfl
  exact ⟨_, hreach, rfl, hall 1 rfl, hall 2 rfl⟩

/-- The second pCPU of the mask is late: the first is released although the third has never
been signalled and `start_pcpus` has failed. -/
theorem released_after_time_out : ∃ s : StartState, Reach (startSystem fourPcpus) any s ∧
    s.secondary 1#32 = .left (stackSymAddr 0 1) 1 ∧ s.boot = .returned false ∧
    s.running 2 = false ∧ s.secondary 3#32 = .off := by
  have hstart : Reach (startSystem fourPcpus) any (.start fourPcpus) := .init rfl
  have hreach := hstart.foldlM ([.begin] ++ startSteps 1#32 ++
    [.next, .writeStack, .sendStartupIpi, .timeOut, .setDead, .release, .leave 1#32]) rfl
  exact ⟨_, hreach, rfl, rfl, rfl, rfl⟩

end Acrn
