import Acrn.IcrAccess

/-!
# The loop of a vCPU on its pCPU

`vcpu_thread` and `default_idle` of `hv_main.c` on a pCPU that a vCPU is pinned to, in the
steps that other pCPUs can come between. The section of `schedule` under the scheduler lock
is one step, and the callbacks `context_switch_out` and `context_switch_in` after it are
others. An INIT signal that arrives while the hypervisor runs stays pending, and ends the
next stay in guest mode.
-/

namespace Acrn

open Transition

/-- The threads of a pCPU. -/
inductive PcpuThread where
  | idle
  | vcpu
  deriving DecidableEq

/-- Where a pCPU is in the code. -/
inductive VcpuPc where
  /-- in `default_idle` -/
  | idle
  /-- in `schedule`, which has chosen the vCPU, before `context_switch_in` -/
  | switchIn
  /-- in `schedule`, which has chosen the idle thread, before `context_switch_out` -/
  | switchOut
  /-- in `vcpu_thread`, before the test of `need_reschedule` -/
  | loopHead
  /-- before `acrn_handle_pending_request` -/
  | handling
  /-- in it, with the EPT flush request taken and `invept` not executed -/
  | flushing
  /-- before the VM entry -/
  | entering
  | guest
  /-- after a VM exit, in its handler, or after a failure -/
  | exited
  deriving DecidableEq

/-- A pCPU with the vCPU that is pinned to it. -/
structure VcpuCpu where
  ctl : SchedControl PcpuThread
  pc : VcpuPc
  /-- the thread of the vCPU has run before, so that it goes on in `schedule` -/
  started : Bool
  running : Bool
  state : VcpuState
  /-- an INIT signal is pending -/
  initPending : Bool

/-- The steps of a pCPU. -/
inductive LoopStep where
  | schedule
  | switchIn
  | switchOut
  | noReschedule
  /-- `acrn_handle_pending_request` up to the test of the EPT flush request -/
  | handleRequests (flush : Bool)
  /-- it fails instead, for a triple fault -/
  | handleFails
  | invept
  | entry
  /-- the VM entry fails -/
  | entryFails
  | exit (byInit : Bool)
  | handled
  deriving DecidableEq

namespace VcpuCpu

variable (c : VcpuCpu)

/-- A call on the scheduler from another pCPU, which may send INIT, or from this one. -/
def call (f : SchedControl PcpuThread → SchedControl PcpuThread × Bool) : VcpuCpu :=
  { c with ctl := (f c.ctl).1, initPending := c.initPending || (f c.ctl).2 }

/-- `sleep_thread` on the vCPU. -/
def sleepThread (here : Bool) : VcpuCpu := c.call (·.sleepThread .vcpu here)

/-- `wake_thread` on the vCPU. -/
def wakeThread (here : Bool) : VcpuCpu := c.call (·.wakeThread .vcpu here)

/-- `kick_thread` on the vCPU. -/
def kickThread (here : Bool) : VcpuCpu := c.call (·.kickThread .vcpu here)

/-- Where `schedule` goes on after its locked section. -/
def afterSchedule (next : Option PcpuThread) : VcpuPc :=
  match c.pc with
  | .idle => if next = some .vcpu then .switchIn else .idle
  | _ => if next = some .vcpu then .handling else .switchOut

/-- One step of the pCPU, where the code can take it. -/
def step : LoopStep → Option VcpuCpu
  | .schedule =>
    if (c.pc = .idle ∨ c.pc = .loopHead) ∧ c.ctl.needReschedule = true then
      (c.ctl.schedule .idle).map fun ctl => { c with ctl, pc := c.afterSchedule ctl.currObj }
    else none
  | .switchIn =>
    if c.pc = .switchIn then
      some { c with
        running := true
        started := true
        pc := if c.started then .handling else .loopHead }
    else none
  | .switchOut => if c.pc = .switchOut then some { c with running := false, pc := .idle } else none
  | .noReschedule =>
    if c.pc = .loopHead ∧ c.ctl.needReschedule = false then some { c with pc := .handling } else none
  | .handleRequests flush =>
    if c.pc = .handling then some { c with pc := if flush then .flushing else .entering } else none
  | .handleFails => if c.pc = .handling then some { c with pc := .exited } else none
  | .invept => if c.pc = .flushing then some { c with pc := .entering } else none
  | .entry => if c.pc = .entering then some { c with pc := .guest } else none
  | .entryFails => if c.pc = .entering then some { c with pc := .exited } else none
  | .exit byInit =>
    if c.pc = .guest ∧ (byInit = true → c.initPending = true) then
      some { c with pc := .exited, initPending := c.initPending && !byInit }
    else none
  | .handled => if c.pc = .exited then some { c with pc := .loopHead } else none

end VcpuCpu

/-- A pCPU that runs its idle thread after `prepare_vcpu`. -/
def VcpuCpu.prepared : VcpuCpu where
  ctl := ((initSched PcpuThread).initThreadData .vcpu).runThread .idle
  pc := .idle
  started := false
  running := false
  state := .init
  initPending := false

/-! ## What a step does

Each step is taken at one place of the code. The inversion below has them with what they leave, and
every invariant of the loop is proved from it. -/

/-- The thread of the vCPU is the one that is executed. -/
def VcpuPc.OnVcpu (pc : VcpuPc) : Prop := pc ≠ .idle ∧ pc ≠ .switchOut

/-- The pCPU is between `context_switch_in` and the end of `context_switch_out`. -/
def VcpuPc.Running (pc : VcpuPc) : Prop := pc ≠ .idle ∧ pc ≠ .switchIn

instance (pc : VcpuPc) : Decidable pc.OnVcpu := inferInstanceAs (Decidable (_ ∧ _))

instance (pc : VcpuPc) : Decidable pc.Running := inferInstanceAs (Decidable (_ ∧ _))

namespace VcpuCpu

/-- Everything that a step can do. -/
inductive Stepped (c : VcpuCpu) : LoopStep → VcpuCpu → Prop where
  | schedule {ctl : SchedControl PcpuThread} : c.pc = .idle ∨ c.pc = .loopHead →
      c.ctl.needReschedule = true → c.ctl.schedule .idle = some ctl →
      Stepped c .schedule { c with ctl, pc := c.afterSchedule ctl.currObj }
  | switchIn : c.pc = .switchIn → Stepped c .switchIn { c with
      running := true
      started := true
      pc := if c.started then .handling else .loopHead }
  | switchOut : c.pc = .switchOut → Stepped c .switchOut { c with running := false, pc := .idle }
  | noReschedule : c.pc = .loopHead → c.ctl.needReschedule = false →
      Stepped c .noReschedule { c with pc := .handling }
  | handleRequests (flush : Bool) : c.pc = .handling →
      Stepped c (.handleRequests flush) { c with pc := if flush then .flushing else .entering }
  | handleFails : c.pc = .handling → Stepped c .handleFails { c with pc := .exited }
  | invept : c.pc = .flushing → Stepped c .invept { c with pc := .entering }
  | entry : c.pc = .entering → Stepped c .entry { c with pc := .guest }
  | entryFails : c.pc = .entering → Stepped c .entryFails { c with pc := .exited }
  | exit (byInit : Bool) : c.pc = .guest → (byInit = true → c.initPending = true) →
      Stepped c (.exit byInit) { c with pc := .exited, initPending := c.initPending && !byInit }
  | handled : c.pc = .exited → Stepped c .handled { c with pc := .loopHead }

variable {c c' : VcpuCpu}

theorem step_eq_some {a : LoopStep} (h : c.step a = some c') : c.Stepped a c' := by
  cases a with
  | schedule =>
    obtain ⟨hc, hsched⟩ := Option.ite_none_right_eq_some.mp h
    obtain ⟨ctl, hctl, rfl⟩ := Option.map_eq_some_iff.mp hsched
    exact .schedule hc.1 hc.2 hctl
  | switchIn => obtain ⟨hc, rfl⟩ := of_guard h; exact .switchIn hc
  | switchOut => obtain ⟨hc, rfl⟩ := of_guard h; exact .switchOut hc
  | noReschedule => obtain ⟨hc, rfl⟩ := of_guard h; exact .noReschedule hc.1 hc.2
  | handleRequests flush => obtain ⟨hc, rfl⟩ := of_guard h; exact .handleRequests _ hc
  | handleFails => obtain ⟨hc, rfl⟩ := of_guard h; exact .handleFails hc
  | invept => obtain ⟨hc, rfl⟩ := of_guard h; exact .invept hc
  | entry => obtain ⟨hc, rfl⟩ := of_guard h; exact .entry hc
  | entryFails => obtain ⟨hc, rfl⟩ := of_guard h; exact .entryFails hc
  | exit byInit => obtain ⟨hc, rfl⟩ := of_guard h; exact .exit _ hc.1 hc.2
  | handled => obtain ⟨hc, rfl⟩ := of_guard h; exact .handled hc

/-- The handler of a VM exit only ends. -/
theorem step_exited {a : LoopStep} (hpc : c.pc = .exited) (h : c.step a = some c') :
    a = .handled := by
  cases step_eq_some h with
  | handled => rfl
  | schedule hc =>
    rw [hpc] at hc
    exact absurd hc (by decide)
  | switchIn hc => exact absurd (hpc.symm.trans hc) (by decide)
  | switchOut hc => exact absurd (hpc.symm.trans hc) (by decide)
  | noReschedule hc => exact absurd (hpc.symm.trans hc) (by decide)
  | handleRequests flush hc => exact absurd (hpc.symm.trans hc) (by decide)
  | handleFails hc => exact absurd (hpc.symm.trans hc) (by decide)
  | invept hc => exact absurd (hpc.symm.trans hc) (by decide)
  | entry hc => exact absurd (hpc.symm.trans hc) (by decide)
  | entryFails hc => exact absurd (hpc.symm.trans hc) (by decide)
  | exit byInit hc => exact absurd (hpc.symm.trans hc) (by decide)

/-! ## The scheduler

Calls on the scheduler come from any pCPU between two steps of the loop. They choose no thread, and
so leave the pCPU in the thread that it is in. -/

/-- The scheduler knows which thread is executed, and the idle thread is in no slot. -/
structure Scheduled (c : VcpuCpu) : Prop where
  currObj : c.ctl.currObj = some (if c.pc.OnVcpu then .vcpu else .idle)
  slot : c.ctl.noopThreadObj ≠ some .idle

theorem Scheduled.prepared : VcpuCpu.prepared.Scheduled := ⟨rfl, by decide⟩

/-- A call on the scheduler that chooses no thread and puts only the vCPU into the slot. -/
structure KeepsThread (ctl ctl' : SchedControl PcpuThread) : Prop where
  currObj : ctl'.currObj = ctl.currObj
  slot : ctl.noopThreadObj ≠ some .idle → ctl'.noopThreadObj ≠ some .idle

variable {ctl : SchedControl PcpuThread} (here : Bool)

theorem KeepsThread.sleepThread : KeepsThread ctl (ctl.sleepThread .vcpu here).1 := by
  rw [SchedControl.sleepThread]
  refine ⟨?_, fun hslot => ?_⟩
  · dsimp only
    split <;> simp [SchedControl.makeRescheduleRequest]
  · dsimp only
    split <;> simp [SchedControl.makeRescheduleRequest, hslot]

theorem KeepsThread.wakeThread : KeepsThread ctl (ctl.wakeThread .vcpu here).1 := by
  rw [SchedControl.wakeThread]
  split
  · refine ⟨by simp [SchedControl.makeRescheduleRequest], fun hslot => ?_⟩
    cases hnoop : ctl.noopThreadObj with
    | none => simp [SchedControl.makeRescheduleRequest, hnoop]
    | some t =>
      rw [hnoop] at hslot
      simpa [SchedControl.makeRescheduleRequest, hnoop] using hslot
  · exact ⟨rfl, id⟩

theorem KeepsThread.kickThread : KeepsThread ctl (ctl.kickThread .vcpu here).1 := by
  rw [SchedControl.kickThread]
  split
  · exact ⟨rfl, id⟩
  · split
    · exact ⟨rfl, id⟩
    · exact ⟨rfl, id⟩

theorem Scheduled.call {f : SchedControl PcpuThread → SchedControl PcpuThread × Bool}
    (h : c.Scheduled) (hf : KeepsThread c.ctl (f c.ctl).1) : (c.call f).Scheduled :=
  ⟨hf.currObj.trans h.currObj, hf.slot h.slot⟩

theorem Scheduled.sleepThread (h : c.Scheduled) : (c.sleepThread here).Scheduled :=
  h.call (f := (·.sleepThread .vcpu here)) (.sleepThread here)

theorem Scheduled.wakeThread (h : c.Scheduled) : (c.wakeThread here).Scheduled :=
  h.call (f := (·.wakeThread .vcpu here)) (.wakeThread here)

theorem Scheduled.kickThread (h : c.Scheduled) : (c.kickThread here).Scheduled :=
  h.call (f := (·.kickThread .vcpu here)) (.kickThread here)

/-- Every step leaves the scheduler in order. -/
theorem Scheduled.step {a : LoopStep} (h : c.Scheduled) (hstep : c.step a = some c') :
    c'.Scheduled := by
  have hsame : ∀ pc : VcpuPc, (pc.OnVcpu ↔ c.pc.OnVcpu) →
      c.ctl.currObj = some (if pc.OnVcpu then .vcpu else .idle) := by
    intro pc hpc
    rw [h.currObj]
    simp only [hpc]
  cases step_eq_some hstep with
  | @schedule ctl hpc hneed hsched =>
    obtain ⟨prev, -, hcurr, hslot, -, -⟩ := SchedControl.schedule_eq_some hsched
    refine ⟨?_, fun hidle => h.slot (hslot ▸ hidle)⟩
    show ctl.currObj = some (if (c.afterSchedule ctl.currObj).OnVcpu then .vcpu else .idle)
    rw [hcurr, afterSchedule]
    cases c.ctl.pickNext .idle with
    | idle =>
      obtain hpc | hpc := hpc
      · rw [hpc]
        rfl
      · rw [hpc]
        rfl
    | vcpu =>
      obtain hpc | hpc := hpc
      · rw [hpc]
        rfl
      · rw [hpc]
        rfl
  | switchIn hpc =>
    refine ⟨hsame (if c.started then .handling else .loopHead) ?_, h.slot⟩
    rw [hpc]
    cases c.started
    · decide
    · decide
  | switchOut hpc => exact ⟨hsame .idle (by rw [hpc]; decide), h.slot⟩
  | noReschedule hpc => exact ⟨hsame .handling (by rw [hpc]; decide), h.slot⟩
  | handleRequests flush hpc =>
    refine ⟨hsame (if flush then .flushing else .entering) ?_, h.slot⟩
    rw [hpc]
    cases flush
    · decide
    · decide
  | handleFails hpc => exact ⟨hsame .exited (by rw [hpc]; decide), h.slot⟩
  | invept hpc => exact ⟨hsame .entering (by rw [hpc]; decide), h.slot⟩
  | entry hpc => exact ⟨hsame .guest (by rw [hpc]; decide), h.slot⟩
  | entryFails hpc => exact ⟨hsame .exited (by rw [hpc]; decide), h.slot⟩
  | exit byInit hpc => exact ⟨hsame .exited (by rw [hpc]; decide), h.slot⟩
  | handled hpc => exact ⟨hsame .loopHead (by rw [hpc]; decide), h.slot⟩

/-! ## The flag -/

/-- The flag says whether the pCPU is between `context_switch_in` and the end of
`context_switch_out`. -/
def FlagRight (c : VcpuCpu) : Prop := c.running = true ↔ c.pc.Running

theorem FlagRight.prepared : VcpuCpu.prepared.FlagRight :=
  iff_of_false Bool.false_ne_true (show ¬ VcpuPc.idle.Running by decide)

theorem FlagRight.step {a : LoopStep} (h : c.FlagRight) (hstep : c.step a = some c') :
    c'.FlagRight := by
  have hsame : ∀ pc : VcpuPc, (pc.Running ↔ c.pc.Running) → (c.running = true ↔ pc.Running) :=
    fun pc hpc => Iff.trans h hpc.symm
  cases step_eq_some hstep with
  | @schedule ctl hpc =>
    refine hsame (c.afterSchedule ctl.currObj) ?_
    rw [afterSchedule]
    obtain hpc | hpc := hpc
    · rw [hpc]
      dsimp only
      split
      · decide
      · decide
    · rw [hpc]
      dsimp only
      split
      · decide
      · decide
  | switchIn hpc =>
    refine iff_of_true rfl ?_
    show (if c.started then VcpuPc.handling else VcpuPc.loopHead).Running
    cases c.started
    · decide
    · decide
  | switchOut hpc => exact iff_of_false Bool.false_ne_true (show ¬ VcpuPc.idle.Running by decide)
  | noReschedule hpc => exact hsame .handling (by rw [hpc]; decide)
  | handleRequests flush hpc =>
    refine hsame (if flush then .flushing else .entering) ?_
    rw [hpc]
    cases flush
    · decide
    · decide
  | handleFails hpc => exact hsame .exited (by rw [hpc]; decide)
  | invept hpc => exact hsame .entering (by rw [hpc]; decide)
  | entry hpc => exact hsame .guest (by rw [hpc]; decide)
  | entryFails hpc => exact hsame .exited (by rw [hpc]; decide)
  | exit byInit hpc => exact hsame .exited (by rw [hpc]; decide)
  | handled hpc => exact hsame .loopHead (by rw [hpc]; decide)

/-! ## A vCPU that is switched out

Once the idle thread runs and the slot is empty, only a wake-up brings the vCPU back. -/

/-- Steps of the pCPU leave the slot and the state of the vCPU alone. -/
theorem step_slot_state {a : LoopStep} (hstep : c.step a = some c') :
    c'.ctl.noopThreadObj = c.ctl.noopThreadObj ∧ c'.state = c.state := by
  cases step_eq_some hstep with
  | schedule hpc hneed hsched =>
    obtain ⟨prev, -, -, hslot, -, -⟩ := SchedControl.schedule_eq_some hsched
    exact ⟨hslot, rfl⟩
  | _ => exact ⟨rfl, rfl⟩

/-- The pCPU is in its idle thread, and the scheduler has no other to pick. -/
structure Stopped (c : VcpuCpu) : Prop where
  slot : c.ctl.noopThreadObj = none
  pc : c.pc = .idle

/-- The pCPU of a vCPU that is switched out does no more than pick its idle thread again. -/
theorem Stopped.step {a : LoopStep} (h : c.Stopped) (hstep : c.step a = some c') :
    a = .schedule ∧ c'.Stopped := by
  have hslot := (step_slot_state hstep).1.trans h.slot
  cases step_eq_some hstep with
  | schedule hpc hneed hsched =>
    obtain ⟨prev, -, hcurr, -, -, -⟩ := SchedControl.schedule_eq_some hsched
    refine ⟨rfl, hslot, ?_⟩
    show c.afterSchedule _ = .idle
    rw [hcurr, SchedControl.pickNext, h.slot, afterSchedule, h.pc]
    rfl
  | switchIn hpc => exact absurd (h.pc.symm.trans hpc) (by decide)
  | switchOut hpc => exact absurd (h.pc.symm.trans hpc) (by decide)
  | noReschedule hpc => exact absurd (h.pc.symm.trans hpc) (by decide)
  | handleRequests flush hpc => exact absurd (h.pc.symm.trans hpc) (by decide)
  | handleFails hpc => exact absurd (h.pc.symm.trans hpc) (by decide)
  | invept hpc => exact absurd (h.pc.symm.trans hpc) (by decide)
  | entry hpc => exact absurd (h.pc.symm.trans hpc) (by decide)
  | entryFails hpc => exact absurd (h.pc.symm.trans hpc) (by decide)
  | exit byInit hpc => exact absurd (h.pc.symm.trans hpc) (by decide)
  | handled hpc => exact absurd (h.pc.symm.trans hpc) (by decide)

end VcpuCpu

end Acrn
