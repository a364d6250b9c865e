import Acrn.VcpuLoop

/-!
# Pausing a vCPU

`pause_vcpu`, `launch_vcpu`, `reset_vcpu` and `offline_vcpu` on one pCPU, for a vCPU of
another. The wait of `pause_vcpu` reads the flag `running`, which `context_switch_in` sets
only after the scheduler lock is released.
-/

namespace Acrn

open Transition

/-- Where the pCPU is that calls `pause_vcpu`. -/
inductive PausePc where
  | ready
  /-- before `sleep_thread` -/
  | sleeping
  /-- in the loop that waits for `running` to be false -/
  | waiting
  deriving DecidableEq

/-- Two pCPUs, and whether `pause_vcpu` has returned with no `launch_vcpu` since. -/
structure PauseState where
  cpu : VcpuCpu
  caller : PausePc
  paused : Bool

/-- The steps of both. A call of `launch_vcpu` or `kick_vcpu` may come from the pCPU of the
vCPU as well. -/
inductive PauseStep where
  | pcpu (a : LoopStep)
  | launchVcpu (here : Bool)
  | kickVcpu (here : Bool)
  | pauseVcpu
  | sleepThread
  /-- the flag is read and is false -/
  | notRunning
  | resetVcpu
  | offlineVcpu
  deriving DecidableEq

/-- `launch_vcpu`. -/
def VcpuCpu.launchVcpu (c : VcpuCpu) (here : Bool) : VcpuCpu :=
  { c with state := .running }.wakeThread here

/-- `reset_vcpu`, which makes a request at its end. -/
def VcpuCpu.resetVcpu (c : VcpuCpu) (here : Bool) : VcpuCpu :=
  { c with state := .init, running := false }.kickThread here

/-- One step, where the code can take it. What resets a vCPU or takes it off line has paused
it before. -/
def pauseStep (s : PauseState) : PauseStep → Option PauseState
  | .pcpu a => (s.cpu.step a).map fun cpu => { s with cpu }
  | .launchVcpu here =>
    if s.caller = .ready then some { s with cpu := s.cpu.launchVcpu here, paused := false }
    else none
  | .kickVcpu here => some { s with cpu := s.cpu.kickThread here }
  | .pauseVcpu =>
    if s.caller = .ready then
      some (if s.cpu.state = .running then
          { s with cpu := { s.cpu with state := .zombie }, caller := .sleeping }
        else if s.cpu.state = .init then
          { s with cpu := { s.cpu with state := .zombie }, paused := true }
        else { s with paused := true })
    else none
  | .sleepThread =>
    if s.caller = .sleeping then
      some { s with cpu := s.cpu.sleepThread false, caller := .waiting }
    else none
  | .notRunning =>
    if s.caller = .waiting ∧ s.cpu.running = false then
      some { s with caller := .ready, paused := true }
    else none
  | .resetVcpu =>
    if s.caller = .ready ∧ s.paused = true then some { s with cpu := s.cpu.resetVcpu false }
    else none
  | .offlineVcpu =>
    if s.caller = .ready ∧ s.paused = true then
      some { s with cpu := { s.cpu with state := .offline } }
    else none

/-- The runs from the end of `prepare_vcpu`. -/
def pauseSystem : System PauseState PauseStep :=
  .ofFun (· = ⟨.prepared, .ready, false⟩) pauseStep

/-- The wait does not end between the choice of the vCPU by `schedule` and the end of
`context_switch_in`. -/
def ReturnsApart (s : PauseState) (a : PauseStep) : Prop :=
  a = .notRunning → s.cpu.pc ≠ .switchIn

instance (s : PauseState) (a : PauseStep) : Decidable (ReturnsApart s a) :=
  inferInstanceAs (Decidable (_ → _))

/-! ## The invariant

The invariant follows `pause_vcpu` through its places: before the wait the vCPU is not to run,
after it the vCPU has left its pCPU, and only `launch_vcpu` takes that back. -/

namespace VcpuCpu

variable {c : VcpuCpu} (here : Bool)

@[simp] theorem sleepThread_pc : (c.sleepThread here).pc = c.pc := rfl

@[simp] theorem sleepThread_state : (c.sleepThread here).state = c.state := rfl

@[simp] theorem sleepThread_running : (c.sleepThread here).running = c.running := rfl

@[simp] theorem kickThread_pc : (c.kickThread here).pc = c.pc := rfl

@[simp] theorem kickThread_state : (c.kickThread here).state = c.state := rfl

@[simp] theorem kickThread_running : (c.kickThread here).running = c.running := rfl

@[simp] theorem launchVcpu_pc : (c.launchVcpu here).pc = c.pc := rfl

@[simp] theorem launchVcpu_state : (c.launchVcpu here).state = .running := rfl

@[simp] theorem launchVcpu_running : (c.launchVcpu here).running = c.running := rfl

@[simp] theorem kickThread_slot :
    (c.kickThread here).ctl.noopThreadObj = c.ctl.noopThreadObj := by
  show (c.ctl.kickThread .vcpu here).1.noopThreadObj = _
  rw [SchedControl.kickThread]
  split
  · rfl
  · split
    · rfl
    · rfl

/-- A thread that sleeps is not in the slot. -/
theorem Scheduled.sleepThread_slot (h : c.Scheduled) :
    (c.sleepThread here).ctl.noopThreadObj = none := by
  have hslot := h.slot
  have hsleep : (c.ctl.noopSleep .vcpu).noopThreadObj = none := by
    rw [SchedControl.noopSleep_noopThreadObj]
    split
    · rfl
    · next hne =>
      cases hnoop : c.ctl.noopThreadObj with
      | none => rfl
      | some t =>
        rw [hnoop] at hslot hne
        cases t with
        | idle => exact absurd rfl hslot
        | vcpu => exact absurd rfl hne
  show (c.ctl.sleepThread .vcpu here).1.noopThreadObj = none
  rw [SchedControl.sleepThread]
  dsimp only
  split
  · exact hsleep
  · exact hsleep

theorem Scheduled.of_ctl {c' : VcpuCpu} (h : c.Scheduled) (hctl : c'.ctl = c.ctl)
    (hpc : c'.pc = c.pc) : c'.Scheduled := by
  refine ⟨?_, ?_⟩
  · rw [hctl, hpc]
    exact h.currObj
  · rw [hctl]
    exact h.slot

theorem Scheduled.launchVcpu (h : c.Scheduled) : (c.launchVcpu here).Scheduled :=
  (h.of_ctl rfl rfl : Scheduled { c with state := .running }).wakeThread here

theorem Stopped.kickThread (h : c.Stopped) : (c.kickThread here).Stopped :=
  ⟨(kickThread_slot here).trans h.slot, h.pc⟩

end VcpuCpu

namespace PauseState

/-- What holds in every state. Outside `pause_vcpu` a vCPU that is not to run is switched
out, and the wait begins with an empty slot. -/
structure Invariant (s : PauseState) : Prop where
  scheduled : s.cpu.Scheduled
  flag : s.cpu.FlagRight
  zombie : s.caller ≠ .ready → s.cpu.state = .zombie
  waiting : s.caller = .waiting → s.cpu.ctl.noopThreadObj = none
  stopped : s.caller = .ready → s.cpu.state ≠ .running → s.cpu.Stopped
  paused : s.paused = true → s.caller = .ready ∧ s.cpu.state ≠ .running

variable {s s' : PauseState}

theorem Invariant.prepared : Invariant ⟨.prepared, .ready, false⟩ :=
  ⟨.prepared, .prepared, fun h => absurd rfl h, fun h => absurd h (by decide),
    fun _ _ => ⟨rfl, rfl⟩, fun h => absurd h (by decide)⟩

/-- Every step of the two pCPUs keeps the invariant. -/
theorem Invariant.step {a : PauseStep} (h : s.Invariant) (hok : ReturnsApart s a)
    (hstep : pauseStep s a = some s') : s'.Invariant := by
  cases a with
  | pcpu a =>
    obtain ⟨cpu, hcpu, rfl⟩ := Option.map_eq_some_iff.mp hstep
    obtain ⟨hslot, hstate⟩ := VcpuCpu.step_slot_state hcpu
    refine ⟨h.scheduled.step hcpu, h.flag.step hcpu, ?_, ?_, ?_, ?_⟩
    · rw [hstate]
      exact h.zombie
    · rw [hslot]
      exact h.waiting
    · rw [hstate]
      exact fun hready hrun => ((h.stopped hready hrun).step hcpu).2
    · rw [hstate]
      exact h.paused
  | launchVcpu here =>
    obtain ⟨hready, rfl⟩ := of_guard hstep
    refine ⟨h.scheduled.launchVcpu here, h.flag, fun hne => absurd hready hne, fun hwait => ?_,
      fun _ hne => absurd rfl hne, fun hp => absurd hp Bool.false_ne_true⟩
    exact absurd (hready.symm.trans hwait) (by decide)
  | kickVcpu here =>
    obtain rfl := Option.some.inj hstep
    refine ⟨h.scheduled.kickThread here, h.flag, h.zombie, ?_, fun hready hrun => ?_,
      h.paused⟩
    · rw [VcpuCpu.kickThread_slot]
      exact h.waiting
    · exact (h.stopped hready hrun).kickThread here
  | pauseVcpu =>
    obtain ⟨hready, rfl⟩ := of_guard hstep
    split
    · next hrun =>
      refine ⟨h.scheduled.of_ctl rfl rfl, h.flag, fun _ => rfl, fun hw => (by cases hw),
        fun hr => (by cases hr), fun hp => ?_⟩
      exact absurd hrun (h.paused hp).2
    split
    · next hinit =>
      have hstopped := h.stopped hready (by rw [hinit]; decide)
      refine ⟨h.scheduled.of_ctl rfl rfl, h.flag, fun _ => rfl, h.waiting,
        fun _ _ => ⟨hstopped.slot, hstopped.pc⟩, fun _ => ⟨hready, fun hr => (by cases hr)⟩⟩
    · next hrun hinit =>
      exact ⟨h.scheduled, h.flag, h.zombie, h.waiting, h.stopped, fun _ => ⟨hready, hrun⟩⟩
  | sleepThread =>
    obtain ⟨hsleep, rfl⟩ := of_guard hstep
    have hzombie := h.zombie (by rw [hsleep]; decide)
    refine ⟨h.scheduled.sleepThread false, h.flag, fun _ => hzombie,
      fun _ => h.scheduled.sleepThread_slot false, fun hr => (by cases hr), fun hp => ?_⟩
    exact absurd ((h.paused hp).1.symm.trans hsleep) (by decide)
  | notRunning =>
    -- the pCPU is outside its vCPU, and not on the way to it
    obtain ⟨⟨hwait, hrun⟩, rfl⟩ := of_guard hstep
    have hzombie := h.zombie (by rw [hwait]; decide)
    have hpc : s.cpu.pc = .idle := by
      by_contra hidle
      have hrunning := h.flag.mpr ⟨hidle, hok rfl⟩
      rw [hrun] at hrunning
      cases hrunning
    exact ⟨h.scheduled, h.flag, fun hne => absurd rfl hne, fun hw => (by cases hw),
      fun _ _ => ⟨h.waiting hwait, hpc⟩, fun _ => ⟨rfl, by rw [hzombie]; decide⟩⟩
  | resetVcpu =>
    obtain ⟨⟨hready, hpaused⟩, rfl⟩ := of_guard hstep
    have hstopped := h.stopped hready (h.paused hpaused).2
    have hflag : s.cpu.running = false := by
      refine Bool.eq_false_iff.mpr fun hrun => ?_
      have hpc := h.flag.mp hrun
      rw [hstopped.pc] at hpc
      exact absurd hpc (by decide)
    refine ⟨(h.scheduled.of_ctl rfl rfl :
      VcpuCpu.Scheduled { s.cpu with state := .init, running := false }).kickThread false,
      ?_, fun hne => absurd hready hne, fun hw => ?_, fun _ _ => ?_,
      fun _ => ⟨hready, fun hr => (by cases hr)⟩⟩
    · show false = true ↔ s.cpu.pc.Running
      rw [← hflag]
      exact h.flag
    · exact absurd (hready.symm.trans hw) (by decide)
    · exact (⟨hstopped.slot, hstopped.pc⟩ :
        VcpuCpu.Stopped { s.cpu with state := .init, running := false }).kickThread false
  | offlineVcpu =>
    obtain ⟨⟨hready, hpaused⟩, rfl⟩ := of_guard hstep
    have hstopped := h.stopped hready (h.paused hpaused).2
    refine ⟨h.scheduled.of_ctl rfl rfl, h.flag, fun hne => absurd hready hne, h.waiting,
      fun _ _ => ⟨hstopped.slot, hstopped.pc⟩, fun _ => ⟨hready, fun hr => (by cases hr)⟩⟩

theorem reach_invariant (h : Reach pauseSystem ReturnsApart s) : s.Invariant := by
  refine h.invariant ?_ fun s a s' hok hstep hs => hs.step hok hstep
  rintro s rfl
  exact .prepared

theorem Invariant.paused_stopped (h : s.Invariant) (hp : s.paused = true) : s.cpu.Stopped :=
  h.stopped (h.paused hp).1 (h.paused hp).2

/-- Only `launch_vcpu` ends the pause. -/
theorem Invariant.stays_paused {a : PauseStep} (h : s.Invariant) (hp : s.paused = true)
    (hstep : pauseStep s a = some s') (hlaunch : ∀ here, a ≠ .launchVcpu here) :
    s'.paused = true := by
  obtain ⟨hready, hrun⟩ := h.paused hp
  cases a with
  | pcpu a =>
    obtain ⟨cpu, -, rfl⟩ := Option.map_eq_some_iff.mp hstep
    exact hp
  | launchVcpu here => exact absurd rfl (hlaunch here)
  | kickVcpu here =>
    obtain rfl := Option.some.inj hstep
    exact hp
  | pauseVcpu =>
    obtain ⟨-, rfl⟩ := of_guard hstep
    rw [if_neg hrun]
    split
    · rfl
    · rfl
  | sleepThread =>
    obtain ⟨-, rfl⟩ := of_guard hstep
    exact hp
  | notRunning =>
    obtain ⟨-, rfl⟩ := of_guard hstep
    rfl
  | resetVcpu =>
    obtain ⟨-, rfl⟩ := of_guard hstep
    exact hp
  | offlineVcpu =>
    obtain ⟨-, rfl⟩ := of_guard hstep
    exact hp

end PauseState

/-! ## Every run

`ReturnsApart` excludes the one step that breaks the invariant: a wait that ends while the vCPU has
been chosen and its flag is not set yet. -/

/-- The vCPU is switched out, for its flag and for its pCPU. -/
structure VcpuCpu.SwitchedOut (c : VcpuCpu) : Prop where
  running : c.running = false
  pc : c.pc = .idle

theorem VcpuCpu.Stopped.switchedOut {c : VcpuCpu} (h : c.Stopped) (hflag : c.FlagRight) :
    c.SwitchedOut := by
  refine ⟨Bool.eq_false_iff.mpr fun hrun => ?_, h.pc⟩
  have hpc := hflag.mp hrun
  rw [h.pc] at hpc
  exact absurd hpc (by decide)

theorem PauseState.Invariant.switchedOut {s : PauseState} (h : s.Invariant)
    (hp : s.paused = true) : s.cpu.SwitchedOut :=
  (h.paused_stopped hp).switchedOut h.flag

/-- **A paused vCPU is stopped**, in every run in which no wait of `pause_vcpu` ends while its
pCPU is on the way to it. Until it is launched its pCPU only picks the idle thread, and what
resets it or takes it off line finds it switched out. -/
theorem paused_vcpu_stopped {s : PauseState} (h : Reach pauseSystem ReturnsApart s) :
    (s.paused = true → s.cpu.SwitchedOut) ∧
    ∀ a s', pauseStep s a = some s' →
      (s.paused = true → (∀ here, a ≠ .launchVcpu here) →
        s'.paused = true ∧ s'.cpu.SwitchedOut) ∧
      (s.paused = true → ∀ b, a = .pcpu b → b = .schedule) ∧
      (a = .resetVcpu ∨ a = .offlineVcpu → s.cpu.SwitchedOut) := by
  have hinv := PauseState.reach_invariant h
  refine ⟨hinv.switchedOut, fun a s' hstep => ⟨fun hp hlaunch => ?_, fun hp b hb => ?_, fun ha => ?_⟩⟩
  · -- the wait is over, so that the step is an allowed one
    have hok : ReturnsApart s a := by
      rintro rfl
      obtain ⟨⟨hwait, -⟩, -⟩ := of_guard hstep
      exact absurd ((hinv.paused hp).1.symm.trans hwait) (by decide)
    have hp' := hinv.stays_paused hp hstep hlaunch
    exact ⟨hp', (hinv.step hok hstep).switchedOut hp'⟩
  · subst hb
    obtain ⟨cpu, hcpu, -⟩ := Option.map_eq_some_iff.mp hstep
    exact ((hinv.paused_stopped hp).step hcpu).1
  · obtain rfl | rfl := ha
    · exact hinv.switchedOut (of_guard hstep).1.2
    · exact hinv.switchedOut (of_guard hstep).1.2

/-- A vCPU is launched, paused from another pCPU and reset. -/
theorem paused_vcpu_stopped_reset : ∃ s, Reach pauseSystem ReturnsApart s ∧ s.paused = true ∧
    s.cpu.started = true ∧ s.cpu.SwitchedOut := by
  have hstart : Reach pauseSystem ReturnsApart ⟨.prepared, .ready, false⟩ := .init rfl
  have hreach := hstart.foldlM
    [.launchVcpu false, .pcpu .schedule, .pcpu .switchIn, .pauseVcpu, .sleepThread, .pcpu .schedule,
      .pcpu .switchOut, .notRunning, .resetVcpu] rfl
  exact ⟨_, hreach, rfl, rfl, (paused_vcpu_stopped hreach).1 rfl⟩

/-- The second time that a vCPU is launched, `pause_vcpu` reads its flag before
`context_switch_in` sets it, and the paused vCPU goes on into guest mode. -/
theorem paused_vcpu_in_guest : ∃ s, Reach pauseSystem any s ∧ s.paused = true ∧
    s.cpu.running = true ∧ s.cpu.pc = .guest := by
  have hstart : Reach pauseSystem any ⟨.prepared, .ready, false⟩ := .init rfl
  have hreach := hstart.foldlM
    [.launchVcpu false, .pcpu .schedule, .pcpu .switchIn, .pauseVcpu, .sleepThread, .pcpu .schedule,
      .pcpu .switchOut, .notRunning, .resetVcpu, .launchVcpu false, .pcpu .schedule, .pauseVcpu,
      .sleepThread, .notRunning, .pcpu .switchIn, .pcpu (.handleRequests false), .pcpu .entry] rfl
  exact ⟨_, hreach, rfl, rfl, rfl⟩

end Acrn
