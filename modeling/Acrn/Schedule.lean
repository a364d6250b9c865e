import Acrn.Lib.Transition
import Mathlib.Logic.Function.Basic
import Mathlib.Tactic.Common

/-!
# The scheduler of a pCPU

`schedule.c` over the scheduler of `sched_noop.c`, which has one slot for a thread besides
the idle thread. Threads are of any type; every call is one step, as under the scheduler
lock. The calls that may interrupt the pCPU also say whether they do.
-/

namespace Acrn

open Transition

/-- `enum thread_object_state`. -/
inductive ThreadSts where
  | running
  | runnable
  | blocked
  deriving DecidableEq

/-- `struct sched_control` with the slot of `struct sched_noop_control` and the status of
the threads of the pCPU, which `init_thread_data` sets first. -/
structure SchedControl (T : Type*) where
  needReschedule : Bool
  currObj : Option T
  noopThreadObj : Option T
  status : T → Option ThreadSts

/-- `init_sched`. -/
def initSched (T : Type*) : SchedControl T where
  needReschedule := false
  currObj := none
  noopThreadObj := none
  status := fun _ => none

namespace SchedControl

variable {T : Type*} [DecidableEq T] (ctl : SchedControl T) (obj idle : T)

/-- `set_thread_status`. -/
def setThreadStatus (status : ThreadSts) : SchedControl T :=
  { ctl with status := Function.update ctl.status obj (some status) }

/-- `init_thread_data`. -/
def initThreadData : SchedControl T := ctl.setThreadStatus obj .blocked

/-- `make_reschedule_request`, which sends INIT to the pCPU unless the caller is `here` on
it. -/
def makeRescheduleRequest (here : Bool) : SchedControl T × Bool :=
  ({ ctl with needReschedule := true }, !here)

/-- `sched_noop_pick_next`. -/
def pickNext : T := ctl.noopThreadObj.getD idle

/-- `sched_noop_sleep`. -/
def noopSleep : SchedControl T :=
  if ctl.noopThreadObj = some obj then { ctl with noopThreadObj := none } else ctl

/-- `sched_noop_wake`. -/
def noopWake : SchedControl T :=
  if ctl.noopThreadObj = none then { ctl with noopThreadObj := some obj } else ctl

/-- `sleep_thread`. -/
def sleepThread (here : Bool) : SchedControl T × Bool :=
  let ctl := ctl.noopSleep obj
  let (ctl, init) := if ctl.status obj = some .running then ctl.makeRescheduleRequest here
    else (ctl, false)
  (ctl.setThreadStatus obj .blocked, init)

/-- `wake_thread`. -/
def wakeThread (here : Bool) : SchedControl T × Bool :=
  if ctl.status obj = some .blocked then
    ((ctl.noopWake obj).setThreadStatus obj .runnable).makeRescheduleRequest here
  else (ctl, false)

/-- `kick_thread`. -/
def kickThread (here : Bool) : SchedControl T × Bool :=
  if ctl.status obj = some .running then (ctl, !here)
  else if ctl.status obj = some .runnable then ctl.makeRescheduleRequest here
  else (ctl, false)

/-- `run_thread`. -/
def runThread : SchedControl T :=
  { ctl.initThreadData obj with currObj := some obj }.setThreadStatus obj .running

/-- `schedule`, which reads the thread that runs. -/
def schedule : Option (SchedControl T) :=
  match ctl.currObj with
  | none => none
  | some prev =>
    let next := ctl.pickNext idle
    let ctl := { ctl with needReschedule := false }
    let ctl := if ctl.status prev = some .running then ctl.setThreadStatus prev .runnable else ctl
    some { ctl.setThreadStatus next .running with currObj := some next }

end SchedControl

/-! ## Calls from any pCPU

A call is a step of its own because of the scheduler lock. The state has, next to the scheduler,
the threads that should run: those that were woken and have not slept since. -/

/-- The calls on a scheduler. -/
inductive ThreadCall (T : Type*) where
  | initThreadData (obj : T)
  | wakeThread (obj : T) (here : Bool)
  | sleepThread (obj : T) (here : Bool)
  | kickThread (obj : T) (here : Bool)
  | runThread (obj : T)
  | schedule

/-- A scheduler and the threads that were woken and not put to sleep again. -/
structure SchedState (T : Type*) where
  ctl : SchedControl T
  woken : T → Prop

variable {T : Type*} [DecidableEq T]

/-- One call. -/
inductive SchedState.Step (idle : T) (s : SchedState T) : ThreadCall T → SchedState T → Prop where
  | initThreadData (obj : T) : Step idle s (.initThreadData obj) ⟨s.ctl.initThreadData obj, s.woken⟩
  | wakeThread (obj : T) (here : Bool) : Step idle s (.wakeThread obj here)
      ⟨(s.ctl.wakeThread obj here).1, fun t => t = obj ∨ s.woken t⟩
  | sleepThread (obj : T) (here : Bool) : Step idle s (.sleepThread obj here)
      ⟨(s.ctl.sleepThread obj here).1, fun t => t ≠ obj ∧ s.woken t⟩
  | kickThread (obj : T) (here : Bool) : Step idle s (.kickThread obj here)
      ⟨(s.ctl.kickThread obj here).1, s.woken⟩
  | runThread (obj : T) : Step idle s (.runThread obj) ⟨s.ctl.runThread obj, s.woken⟩
  | schedule {ctl : SchedControl T} : s.ctl.schedule idle = some ctl →
      Step idle s .schedule ⟨ctl, s.woken⟩

/-- The runs of the scheduler of a pCPU. -/
def schedSystem (idle : T) : System (SchedState T) (ThreadCall T) where
  init s := s = ⟨initSched T, fun _ => False⟩
  step := SchedState.Step idle

/-- How the hypervisor calls the scheduler: a thread is initialised once and woken after
that, the idle thread does not sleep, and it is the one that is run, while no other thread
is running. -/
def SchedState.Allowed (idle : T) (s : SchedState T) : ThreadCall T → Prop
  | .initThreadData obj => obj ≠ idle ∧ s.ctl.status obj = none
  | .wakeThread obj _ => s.ctl.status obj ≠ none
  | .sleepThread obj _ => obj ≠ idle
  | .kickThread _ _ => True
  | .runThread obj => obj = idle ∧ ∀ t, t ≠ idle → s.ctl.status t ≠ some .running
  | .schedule => True

/-- No wake-up is lost and no switch is forgotten. -/
structure SchedState.NoLostWake (idle : T) (s : SchedState T) : Prop where
  running : ∀ t, s.ctl.status t = some .running → s.ctl.currObj = some t
  woken : ∀ t, s.woken t → s.ctl.status t = some .runnable ∨ s.ctl.status t = some .running
  picked : ∀ t, s.woken t → t ≠ idle → (∀ t', t' = idle ∨ t' = t) → s.ctl.pickNext idle = t
  reschedule : ∀ t, s.ctl.currObj = some t → s.ctl.pickNext idle ≠ t → s.ctl.needReschedule = true

/-! ## The invariant

Without a request to reschedule, the thread that runs is the one that would be picked. The slot
holds one thread, and a thread that may run is in it unless there is another to take it. -/

namespace SchedControl

section
variable {T : Type*} {ctl : SchedControl T} {obj : T}

@[simp] theorem noopWake_status : (ctl.noopWake obj).status = ctl.status := by
  rw [noopWake]
  split <;> rfl

@[simp] theorem noopWake_currObj : (ctl.noopWake obj).currObj = ctl.currObj := by
  rw [noopWake]
  split <;> rfl

@[simp] theorem noopWake_noopThreadObj :
    (ctl.noopWake obj).noopThreadObj = some (ctl.noopThreadObj.getD obj) := by
  rw [noopWake]
  cases h : ctl.noopThreadObj with
  | none => rfl
  | some t => simp [h]

end

variable {idle : T} {ctl : SchedControl T} {obj : T}

/-- A thread that may run. -/
def Active (ctl : SchedControl T) (t : T) : Prop :=
  ctl.status t = some .runnable ∨ ctl.status t = some .running

/-- What holds between two calls. -/
structure Invariant (idle : T) (ctl : SchedControl T) : Prop where
  running : ∀ t, ctl.status t = some .running → ctl.currObj = some t
  idle_blocked : ctl.status idle ≠ some .blocked
  noop : ∀ t, ctl.noopThreadObj = some t → t ≠ idle ∧ ctl.Active t
  /-- a thread that may run is in the slot if there is no other to take it -/
  slot : ∀ t, ctl.Active t → t ≠ idle → (∀ t', t' = idle ∨ t' = t) → ctl.noopThreadObj = some t
  /-- without a request the thread that runs is the one to pick -/
  settled : ctl.needReschedule = false → ∀ t, ctl.currObj = some t →
    ctl.pickNext idle = t ∧ ctl.status t = some .running
  unstarted : ctl.needReschedule = false → ctl.currObj = none → ctl.noopThreadObj = none

@[simp] theorem setThreadStatus_status (status : ThreadSts) (t : T) :
    (ctl.setThreadStatus obj status).status t = if t = obj then some status else ctl.status t :=
  Function.update_apply ctl.status obj (some status) t

@[simp] theorem setThreadStatus_currObj (status : ThreadSts) :
    (ctl.setThreadStatus obj status).currObj = ctl.currObj := rfl

@[simp] theorem setThreadStatus_noopThreadObj (status : ThreadSts) :
    (ctl.setThreadStatus obj status).noopThreadObj = ctl.noopThreadObj := rfl

@[simp] theorem setThreadStatus_needReschedule (status : ThreadSts) :
    (ctl.setThreadStatus obj status).needReschedule = ctl.needReschedule := rfl

/-- A new thread is blocked, so there is nothing to pick it for. -/
theorem Invariant.initThreadData (h : ctl.Invariant idle) (hne : obj ≠ idle)
    (hnone : ctl.status obj = none) : (ctl.initThreadData obj).Invariant idle := by
  have hactive : ∀ t, (ctl.initThreadData obj).Active t → ctl.Active t := by
    intro t ht
    simp only [Active, SchedControl.initThreadData, setThreadStatus_status] at ht ⊢
    grind
  refine ⟨fun t ht => ?_, ?_, fun t ht => ?_, fun t ht => h.slot t (hactive t ht), ?_, h.unstarted⟩
  · simp only [SchedControl.initThreadData, setThreadStatus_status] at ht
    split at ht
    · cases ht
    · exact h.running t ht
  · -- another thread is initialised
    simp only [SchedControl.initThreadData, setThreadStatus_status, if_neg hne.symm]
    exact h.idle_blocked
  · obtain ⟨htne, hact⟩ := h.noop t ht
    refine ⟨htne, ?_⟩
    simp only [Active, SchedControl.initThreadData, setThreadStatus_status] at hact ⊢
    grind
  · intro hneed t hcurr
    obtain ⟨hpick, hrun⟩ := h.settled hneed t hcurr
    refine ⟨hpick, ?_⟩
    simp only [SchedControl.initThreadData, setThreadStatus_status]
    grind

/-! ### The slot -/

@[simp] theorem noopSleep_status : (ctl.noopSleep obj).status = ctl.status := by
  rw [noopSleep]
  split <;> rfl

@[simp] theorem noopSleep_currObj : (ctl.noopSleep obj).currObj = ctl.currObj := by
  rw [noopSleep]
  split <;> rfl

@[simp] theorem noopSleep_needReschedule :
    (ctl.noopSleep obj).needReschedule = ctl.needReschedule := by
  rw [noopSleep]
  split <;> rfl

@[simp] theorem noopSleep_noopThreadObj : (ctl.noopSleep obj).noopThreadObj =
    if ctl.noopThreadObj = some obj then none else ctl.noopThreadObj := by
  rw [noopSleep]
  split <;> rfl

/-! ### The calls -/

/-- `wake_thread` changes the status of a blocked thread only. -/
theorem wakeThread_status (here : Bool) (t : T) : (ctl.wakeThread obj here).1.status t =
    if t = obj ∧ ctl.status obj = some .blocked then some .runnable else ctl.status t := by
  rw [wakeThread]
  split
  · next hblocked => simp [makeRescheduleRequest, hblocked]
  · next hblocked => simp [hblocked]

theorem sleepThread_status (here : Bool) (t : T) : (ctl.sleepThread obj here).1.status t =
    if t = obj then some ThreadSts.blocked else ctl.status t := by
  rw [sleepThread]
  dsimp only
  split <;> simp [makeRescheduleRequest]

/-- A blocked thread that is woken is put in the slot of the scheduler where that is free. -/
theorem Invariant.wakeThread (h : ctl.Invariant idle) (here : Bool) :
    (ctl.wakeThread obj here).1.Invariant idle := by
  rw [SchedControl.wakeThread]
  by_cases hblocked : ctl.status obj = some .blocked
  swap
  · rw [if_neg hblocked]
    exact h
  rw [if_pos hblocked, makeRescheduleRequest]
  have hne : obj ≠ idle := fun heq => h.idle_blocked (heq ▸ hblocked)
  refine ⟨fun t ht => ?_, ?_, fun t ht => ?_, fun t ht htne honly => ?_, fun hneed => ?_,
    fun hneed => ?_⟩
  · simp only [setThreadStatus_status, noopWake_status] at ht
    split at ht
    · cases ht
    · simpa using h.running t ht
  · simpa [hne.symm] using h.idle_blocked
  · -- the slot has its thread, or it takes the one that wakes up
    simp only [setThreadStatus_noopThreadObj, noopWake_noopThreadObj, Option.some.injEq] at ht
    simp only [Active, setThreadStatus_status, noopWake_status]
    cases hslot : ctl.noopThreadObj with
    | none =>
      rw [hslot] at ht
      obtain rfl : obj = t := ht
      exact ⟨hne, by simp⟩
    | some u =>
      rw [hslot] at ht
      obtain rfl : u = t := ht
      obtain ⟨hu, hact⟩ := h.noop u hslot
      refine ⟨hu, ?_⟩
      split
      · exact .inl rfl
      · exact hact
  · have hobj : obj = t := (honly obj).resolve_left hne
    simp only [setThreadStatus_noopThreadObj, noopWake_noopThreadObj, Option.some.injEq]
    cases hslot : ctl.noopThreadObj with
    | none => exact hobj
    | some u => exact (honly u).resolve_left (h.noop u hslot).1
  -- a switch is asked for, so nothing has to be settled
  · cases hneed
  · cases hneed

/-- A thread that goes to sleep leaves the slot. -/
theorem Invariant.sleepThread (h : ctl.Invariant idle) (hne : obj ≠ idle) (here : Bool) :
    (ctl.sleepThread obj here).1.Invariant idle := by
  -- the request of a thread that runs only makes the last two conditions easier
  have hsleep : ∀ need, (need = false → ctl.needReschedule = false ∧
      ctl.status obj ≠ some .running) →
      ({ ctl.noopSleep obj with needReschedule := need }.setThreadStatus obj .blocked).Invariant
        idle := by
    intro need hneed
    refine ⟨fun t ht => ?_, ?_, fun t ht => ?_, fun t ht htne honly => ?_, fun hn t hcurr => ?_,
      fun hn hcurr => ?_⟩
    · simp only [setThreadStatus_status, noopSleep_status] at ht
      split at ht
      · cases ht
      · simpa using h.running t ht
    · simpa [hne.symm] using h.idle_blocked
    · simp only [setThreadStatus_noopThreadObj, noopSleep_noopThreadObj] at ht
      split at ht
      · cases ht
      · next hslot =>
        have htobj : t ≠ obj := fun heq => hslot (heq ▸ ht)
        simpa [Active, htobj] using h.noop t ht
    · simp only [Active, setThreadStatus_status, noopSleep_status] at ht
      have htobj : t ≠ obj := by
        rintro rfl
        simp at ht
      exact absurd ((honly obj).resolve_left hne).symm htobj
    · obtain ⟨hold, hrun⟩ := hneed hn
      simp only [setThreadStatus_currObj, noopSleep_currObj] at hcurr
      obtain ⟨hpick, ht⟩ := h.settled hold t hcurr
      have htobj : t ≠ obj := fun heq => hrun (heq ▸ ht)
      have hslot : ctl.noopThreadObj ≠ some obj := by
        intro hslot
        rw [pickNext, hslot] at hpick
        exact htobj hpick.symm
      refine ⟨?_, by simpa [htobj] using ht⟩
      simpa [pickNext, hslot] using hpick
    · obtain ⟨hold, -⟩ := hneed hn
      simp only [setThreadStatus_currObj, noopSleep_currObj] at hcurr
      have hslot := h.unstarted hold hcurr
      simp [hslot]
  rw [SchedControl.sleepThread]
  dsimp only
  rw [noopSleep_status]
  by_cases hrun : ctl.status obj = some .running
  · rw [if_pos hrun]
    exact hsleep true (fun hfalse => absurd hfalse (by decide))
  · rw [if_neg hrun]
    refine hsleep (ctl.noopSleep obj).needReschedule (fun hfalse => ⟨?_, hrun⟩)
    rwa [noopSleep_needReschedule] at hfalse

omit [DecidableEq T] in
theorem kickThread_status (here : Bool) : (ctl.kickThread obj here).1.status = ctl.status := by
  rw [kickThread]
  split
  · rfl
  · split <;> rfl

omit [DecidableEq T] in
/-- A kick asks for a decision and changes nothing else. -/
theorem Invariant.kickThread (h : ctl.Invariant idle) (here : Bool) :
    (ctl.kickThread obj here).1.Invariant idle := by
  rw [SchedControl.kickThread]
  split
  · exact h
  · split
    · exact ⟨h.running, h.idle_blocked, h.noop, h.slot, fun hneed => (by cases hneed),
        fun hneed => (by cases hneed)⟩
    · exact h

theorem Invariant.runThread (h : ctl.Invariant idle)
    (hothers : ∀ t, t ≠ idle → ctl.status t ≠ some .running) :
    (ctl.runThread idle).Invariant idle := by
  have hstatus : ∀ t, t ≠ idle → (ctl.runThread idle).status t = ctl.status t := by
    intro t ht
    simp [SchedControl.runThread, SchedControl.initThreadData, ht]
  have hidle : (ctl.runThread idle).status idle = some .running := by
    simp [SchedControl.runThread]
  have hcurr : (ctl.runThread idle).currObj = some idle := rfl
  refine ⟨fun t ht => ?_, ?_, fun t ht => ?_, fun t ht htne honly => ?_, fun hneed t ht => ?_,
    fun _ hnone => ?_⟩
  · by_cases htidle : t = idle
    · rw [hcurr, htidle]
    · rw [hstatus t htidle] at ht
      exact absurd ht (hothers t htidle)
  · rw [hidle]
    decide
  · obtain ⟨htne, hact⟩ := h.noop t ht
    refine ⟨htne, ?_⟩
    rwa [Active, hstatus t htne]
  · rw [Active, hstatus t htne] at ht
    exact h.slot t ht htne honly
  · obtain rfl : idle = t := Option.some.inj (hcurr.symm.trans ht)
    refine ⟨?_, hidle⟩
    cases hold : ctl.currObj with
    | none =>
      have hslot : (ctl.runThread idle).noopThreadObj = none := h.unstarted hneed hold
      rw [pickNext, hslot]
      rfl
    | some u =>
      -- the thread that ran is the idle one, since no other is running
      obtain ⟨hpick, hrun⟩ := h.settled hneed u hold
      have hu : u = idle := by
        by_contra hu
        exact hothers u hu hrun
      exact hpick.trans hu
  · rw [hcurr] at hnone
    cases hnone

/-- What `schedule` does. -/
theorem schedule_eq_some {ctl' : SchedControl T} (h : ctl.schedule idle = some ctl') :
    ∃ prev, ctl.currObj = some prev ∧ ctl'.currObj = some (ctl.pickNext idle) ∧
      ctl'.noopThreadObj = ctl.noopThreadObj ∧ ctl'.needReschedule = false ∧
      ∀ t, ctl'.status t = if t = ctl.pickNext idle then some ThreadSts.running
        else if t = prev ∧ ctl.status prev = some .running then some .runnable
        else ctl.status t := by
  rw [SchedControl.schedule] at h
  cases hcurr : ctl.currObj with
  | none =>
    rw [hcurr] at h
    cases h
  | some prev =>
    rw [hcurr] at h
    obtain rfl := Option.some.inj h
    refine ⟨prev, rfl, rfl, ?_, ?_, fun t => ?_⟩
    · dsimp only
      split <;> rfl
    · dsimp only
      split <;> rfl
    · dsimp only
      split
      · next hrun => simp [hrun]
      · next hrun => simp [hrun]

/-- The decision is for the thread in the slot, or for the idle thread if there is none. -/
theorem Invariant.schedule (h : ctl.Invariant idle) {ctl' : SchedControl T}
    (hsched : ctl.schedule idle = some ctl') : ctl'.Invariant idle := by
  obtain ⟨prev, hprev, hcurr, hnoop, hneed, hstatus⟩ := schedule_eq_some hsched
  have hpick : ctl'.pickNext idle = ctl.pickNext idle := by rw [pickNext, hnoop, pickNext]
  have hrun : ctl'.status (ctl.pickNext idle) = some .running := by rw [hstatus, if_pos rfl]
  have hactive : ∀ t, ctl.Active t → ctl'.Active t := by
    intro t ht
    simp only [Active, hstatus] at ht ⊢
    grind
  refine ⟨fun t ht => ?_, ?_, fun t ht => ?_, fun t ht htne honly => ?_, fun _ t ht => ?_,
    fun _ hnone => ?_⟩
  · -- a thread that ran before was the current one and has been stopped
    rw [hcurr]
    by_contra hne
    have htpick : t ≠ ctl.pickNext idle := fun heq => hne (congrArg some heq.symm)
    rw [hstatus, if_neg htpick] at ht
    split at ht
    · cases ht
    · next hstop =>
      have htprev := Option.some.inj (hprev.symm.trans (h.running t ht))
      exact hstop ⟨htprev.symm, htprev ▸ ht⟩
  · rw [hstatus]
    split
    · decide
    · split
      · decide
      · exact h.idle_blocked
  · rw [hnoop] at ht
    exact ⟨(h.noop t ht).1, hactive t (h.noop t ht).2⟩
  · rw [hnoop]
    refine h.slot t ?_ htne honly
    rw [Active, hstatus] at ht
    by_cases htpick : t = ctl.pickNext idle
    · -- the thread picked is not the idle one, so it comes from the slot
      cases hslot : ctl.noopThreadObj with
      | none =>
        rw [pickNext, hslot] at htpick
        exact absurd htpick htne
      | some u =>
        rw [pickNext, hslot] at htpick
        obtain rfl : t = u := htpick
        exact (h.noop t hslot).2
    · rw [if_neg htpick] at ht
      by_cases htprev : t = prev ∧ ctl.status prev = some .running
      · exact .inr (htprev.1 ▸ htprev.2)
      · rwa [if_neg htprev] at ht
  · obtain rfl := Option.some.inj (hcurr.symm.trans ht)
    exact ⟨hpick, hrun⟩
  · rw [hcurr] at hnone
    cases hnone

end SchedControl

/-! ## Every run -/

section
variable {idle : T} {s s' : SchedState T}

/-- A woken thread may run, on top of the invariant of the scheduler. -/
structure SchedState.Invariant (idle : T) (s : SchedState T) : Prop where
  ctl : s.ctl.Invariant idle
  woken : ∀ t, s.woken t → s.ctl.Active t

omit [DecidableEq T] in
/-- A woken thread is not forgotten: it is the one that would be picked, and unless it runs a
decision is to come. -/
theorem SchedState.Invariant.noLostWake (h : s.Invariant idle) : s.NoLostWake idle := by
  refine ⟨h.ctl.running, h.woken, fun t hw hne honly => ?_, fun t hcurr hpick => ?_⟩
  · rw [SchedControl.pickNext, h.ctl.slot t (h.woken t hw) hne honly]
    rfl
  · by_contra hneed
    exact hpick (h.ctl.settled (Bool.eq_false_iff.mpr hneed) t hcurr).1

/-- The step lemma for the calls on threads. -/
theorem SchedState.Invariant.step (h : s.Invariant idle) {a : ThreadCall T}
    (hstep : s.Step idle a s') (hallowed : s.Allowed idle a) : s'.Invariant idle := by
  cases hstep with
  | initThreadData obj =>
    refine ⟨h.ctl.initThreadData hallowed.1 hallowed.2, fun t hw => ?_⟩
    have hact := h.woken t hw
    have hne : t ≠ obj := by
      rintro rfl
      simp [SchedControl.Active, hallowed.2] at hact
    simpa [SchedControl.Active, SchedControl.initThreadData, hne] using hact
  | wakeThread obj here =>
    refine ⟨h.ctl.wakeThread here, fun t hw => ?_⟩
    rw [SchedControl.Active, SchedControl.wakeThread_status]
    obtain rfl | hw := hw
    · -- a thread that was not blocked may run already
      have hnone : s.ctl.status t ≠ none := hallowed
      cases hstatus : s.ctl.status t with
      | none => exact absurd hstatus hnone
      | some status => cases status <;> simp
    · have hact := h.woken t hw
      split
      · exact .inl rfl
      · exact hact
  | sleepThread obj here =>
    refine ⟨h.ctl.sleepThread hallowed here, fun t ⟨hne, hw⟩ => ?_⟩
    rw [SchedControl.Active, SchedControl.sleepThread_status, if_neg hne]
    exact h.woken t hw
  | kickThread obj here =>
    refine ⟨h.ctl.kickThread here, fun t hw => ?_⟩
    rw [SchedControl.Active, SchedControl.kickThread_status]
    exact h.woken t hw
  | runThread obj =>
    obtain ⟨rfl, hothers⟩ := hallowed
    refine ⟨h.ctl.runThread hothers, fun t hw => ?_⟩
    have hact := h.woken t hw
    by_cases ht : t = obj <;>
      simp_all [SchedControl.Active, SchedControl.runThread, SchedControl.initThreadData]
  | schedule hsched =>
    refine ⟨h.ctl.schedule hsched, fun t hw => ?_⟩
    obtain ⟨prev, -, -, -, -, hstatus⟩ := SchedControl.schedule_eq_some hsched
    have hact := h.woken t hw
    simp only [SchedControl.Active, hstatus] at hact ⊢
    grind

omit [DecidableEq T] in
/-- After `init_sched` there is no thread, and the slot is empty. -/
theorem initSched_invariant : (initSched T).Invariant idle := by
  refine ⟨fun t ht => ?_, ?_, fun t ht => ?_, fun t ht => ?_, fun _ t ht => ?_, fun _ _ => rfl⟩
  · cases ht
  · simp [initSched]
  · cases ht
  · simp [SchedControl.Active, initSched] at ht
  · cases ht

/-- **The scheduler loses no wake-up** and forgets no switch, for any threads and in every
order of calls that the hypervisor makes. -/
theorem no_wake_up_lost (h : Reach (schedSystem idle) (SchedState.Allowed idle) s) :
    s.NoLostWake idle := by
  have hinv : s.Invariant idle := by
    refine h.invariant ?_ fun s a s' hallowed hstep hs => hs.step hstep hallowed
    rintro s rfl
    exact ⟨initSched_invariant, fun t hw => hw.elim⟩
  exact hinv.noLostWake

end

/-- A call goes on a run. -/
theorem reach_call {idle : T} {s s' : SchedState T} {Ok : SchedState T → ThreadCall T → Prop}
    (h : Reach (schedSystem idle) Ok s) (a : ThreadCall T) (hok : Ok s a)
    (hstep : s.Step idle a s') : Reach (schedSystem idle) Ok s' :=
  h.step hok hstep

/-- The idle thread runs, and a thread is woken up and switched to. -/
theorem no_wake_up_lost_switch :
    ∃ s, Reach (schedSystem false) (SchedState.Allowed false) s ∧ s.ctl.currObj = some true ∧
      s.NoLostWake false := by
  have hstart : Reach (schedSystem false) (SchedState.Allowed false)
      ⟨initSched Bool, fun _ => False⟩ := .init rfl
  have hrun := reach_call hstart (.runThread false) ⟨rfl, fun t _ => (by simp [initSched])⟩
    (.runThread false)
  have hinit := reach_call hrun (.initThreadData true) ⟨by decide, by decide⟩ (.initThreadData true)
  have hwake := reach_call hinit (.wakeThread true false) (show _ ≠ none by decide)
    (.wakeThread true false)
  have hswitch := reach_call hwake .schedule trivial (.schedule rfl)
  exact ⟨_, hswitch, rfl, no_wake_up_lost hswitch⟩

/-- Two threads run after a second `run_thread`, and a wake-up of the idle thread takes the
slot of another one. -/
theorem second_run_thread :
    (∃ s, Reach (schedSystem false) any s ∧ s.ctl.status false = some .running ∧
      s.ctl.status true = some .running) ∧
    ∃ s, Reach (schedSystem false) any s ∧ s.woken true ∧ s.ctl.pickNext false = false := by
  have hstart : Reach (schedSystem false) any ⟨initSched Bool, fun _ => False⟩ := .init rfl
  have hrun := reach_call hstart (.runThread false) trivial (.runThread false)
  have hinit := reach_call hrun (.initThreadData true) trivial (.initThreadData true)
  constructor
  · have hwake := reach_call hinit (.wakeThread true false) trivial (.wakeThread true false)
    have hswitch := reach_call hwake .schedule trivial (.schedule rfl)
    have hagain := reach_call hswitch (.runThread false) trivial (.runThread false)
    exact ⟨_, hagain, by decide, by decide⟩
  · have hsleep := reach_call hinit (.sleepThread false true) trivial (.sleepThread false true)
    have hidle := reach_call hsleep (.wakeThread false false) trivial (.wakeThread false false)
    have hwake := reach_call hidle (.wakeThread true false) trivial (.wakeThread true false)
    exact ⟨_, hwake, .inl rfl, by decide⟩

end Acrn
