import Acrn.PauseVcpu

/-!
# EPT edits and the vCPUs that run

`ept_add_mr`, `ept_modify_mr` and `ept_del_mr` write the tables of a virtual machine under
`ept_lock` and then make an EPT flush request to every vCPU. A vCPU takes the request before
its next VM entry, and `kick_thread` has to bring it there. The tables are counted by their
writes: an `invept` covers the writes before it.
-/

namespace Acrn

open Transition

/-! ## One vCPU -/

/-- A vCPU on its pCPU. -/
structure FlushVcpu where
  cpu : VcpuCpu
  /-- `ACRN_REQUEST_EPT_FLUSH` is set -/
  flush : Bool
  /-- the number of writes to the tables before the last `invept` of the pCPU -/
  invepted : ℕ

/-- What the hypervisor calls for a vCPU, on any pCPU. -/
inductive VcpuCall where
  | launchVcpu
  | pauseVcpu
  | resetVcpu
  | kickVcpu
  deriving DecidableEq

/-- `pause_vcpu`, up to the wait. -/
def VcpuCpu.pauseVcpu (c : VcpuCpu) (here : Bool) : VcpuCpu :=
  if c.state = .running then { c with state := .zombie }.sleepThread here
  else if c.state = .init then { c with state := .zombie }
  else c

/-- A call for the vCPU. -/
def VcpuCpu.callVcpu (c : VcpuCpu) : VcpuCall → Bool → VcpuCpu
  | .launchVcpu, here => c.launchVcpu here
  | .pauseVcpu, here => c.pauseVcpu here
  | .resetVcpu, here => c.resetVcpu here
  | .kickVcpu, here => c.kickThread here

/-- One step of the pCPU, with `writes` to the tables so far. The request is taken where
`acrn_handle_pending_request` tests it. -/
def FlushVcpu.step (x : FlushVcpu) (writes : ℕ) : LoopStep → Option FlushVcpu
  | .handleRequests flush =>
    if flush = x.flush then
      (x.cpu.step (.handleRequests flush)).map fun cpu => { x with cpu, flush := false }
    else none
  | .invept => (x.cpu.step .invept).map fun cpu => { x with cpu, invepted := writes }
  | a => (x.cpu.step a).map fun cpu => { x with cpu }

/-! ## All vCPUs -/

/-- Where a vCPU is in an EPT edit. -/
inductive EditPc (V : Type*) where
  /-- with `ept_lock`, in `mmu_add` or `mmu_modify_or_del` -/
  | writing
  /-- before the next request of `foreach_vcpu`, with the number of writes at the end -/
  | requesting (stamp : ℕ) (todo : List V)
  /-- in `vcpu_make_request`, before `kick_vcpu` -/
  | kicking (stamp : ℕ) (target : V) (todo : List V)

/-- The vCPUs of a virtual machine, each on a pCPU of its own. -/
structure FlushState (V : Type*) where
  vcpu : V → FlushVcpu
  writes : ℕ
  eptLock : Option V
  edit : V → Option (EditPc V)
  /-- the edits that have returned, each with the number of writes at its end -/
  returned : List ℕ

/-- The steps of the pCPUs. Those of an edit are steps of the vCPU that makes it. -/
inductive FlushStep (V : Type*) where
  | pcpu (v : V) (a : LoopStep)
  | call (v : V) (f : VcpuCall) (here : Bool)
  /-- a vCPU changes how it caches, and makes the request to itself -/
  | requestFlush (v : V)
  | lockEpt (u : V)
  | writeTable (u : V)
  | unlockEpt (u : V)
  | makeRequest (u : V)
  | kickVcpu (u : V)
  | editReturns (u : V)

variable {V : Type*} [DecidableEq V] (vcpus : List V)

namespace FlushState

variable (s : FlushState V)

/-- A change of one vCPU. -/
def setVcpu (v : V) (x : FlushVcpu) : FlushState V :=
  { s with vcpu := Function.update s.vcpu v x }

/-- A vCPU goes on in its edit. -/
def setEdit (u : V) (pc : Option (EditPc V)) : FlushState V :=
  { s with edit := Function.update s.edit u pc }

/-- One step, where the code can take it. A vCPU that edits stays in its handler, and a call
comes from the vCPU's own pCPU only there or in the idle thread. -/
def step : FlushStep V → Option (FlushState V)
  | .pcpu v a =>
    if a = .handled ∧ (s.edit v).isSome then none
    else ((s.vcpu v).step s.writes a).map fun x => s.setVcpu v x
  | .call v f here =>
    if here = true → (s.vcpu v).cpu.pc = .exited ∨ (s.vcpu v).cpu.pc = .idle then
      some (s.setVcpu v { s.vcpu v with cpu := (s.vcpu v).cpu.callVcpu f here })
    else none
  | .requestFlush v =>
    if (s.vcpu v).cpu.pc = .exited then
      some (s.setVcpu v { s.vcpu v with cpu := (s.vcpu v).cpu.kickThread true, flush := true })
    else none
  | .lockEpt u =>
    if (s.vcpu u).cpu.pc = .exited ∧ (s.edit u).isNone ∧ s.eptLock = none then
      some { s.setEdit u (some .writing) with eptLock := some u }
    else none
  | .writeTable u => if s.eptLock = some u then some { s with writes := s.writes + 1 } else none
  | .unlockEpt u =>
    if s.eptLock = some u then
      some { s.setEdit u (some (.requesting s.writes vcpus)) with eptLock := none }
    else none
  | .makeRequest u =>
    match s.edit u with
    | some (.requesting stamp (t :: todo)) =>
      -- `foreach_vcpu` skips those that are off line
      if (s.vcpu t).cpu.state = .offline then
        some (s.setEdit u (some (.requesting stamp todo)))
      else
        some ((s.setVcpu t { s.vcpu t with flush := true }).setEdit u
          (some (.kicking stamp t todo)))
    | _ => none
  | .kickVcpu u =>
    match s.edit u with
    | some (.kicking stamp t todo) =>
      some ((s.setVcpu t { s.vcpu t with cpu := (s.vcpu t).cpu.kickThread (t = u) }).setEdit u
        (some (.requesting stamp todo)))
    | _ => none
  | .editReturns u =>
    match s.edit u with
    | some (.requesting stamp []) =>
      some { s.setEdit u none with returned := stamp :: s.returned }
    | _ => none

/-- After `prepare_vcpu` for every vCPU. -/
def start : FlushState V where
  vcpu := fun _ => ⟨.prepared, false, 0⟩
  writes := 0
  eptLock := none
  edit := fun _ => none
  returned := []

end FlushState

/-- The runs of a virtual machine that has been created. -/
def flushSystem : System (FlushState V) (FlushStep V) :=
  .ofFun (· = .start) (FlushState.step vcpus)

/-! ## A pCPU that has to reschedule is interrupted

A kick sets `need_reschedule` and sends INIT where the vCPU is executed. That suffices because of
`Alert`: between the last test of `need_reschedule` and the VM entry, the signal is pending
whenever the request is there. -/

/-- The pCPU is past its last test of `need_reschedule` before the VM entry. -/
def VcpuPc.PastTest (pc : VcpuPc) : Prop :=
  pc = .switchIn ∨ pc = .handling ∨ pc = .flushing ∨ pc = .entering ∨ pc = .guest

/-- The pCPU is in guest mode, or has no more to do before that. -/
def VcpuPc.NearGuest (pc : VcpuPc) : Prop := pc = .entering ∨ pc = .guest

instance (pc : VcpuPc) : Decidable pc.PastTest := inferInstanceAs (Decidable (_ ∨ _))

instance (pc : VcpuPc) : Decidable pc.NearGuest := inferInstanceAs (Decidable (_ ∨ _))

namespace VcpuCpu

variable {c c' : VcpuCpu} (here : Bool)

/-- A vCPU that is executed and not to run has a request to reschedule, and a request that is
not tested before the VM entry has an INIT signal pending. -/
structure Alert (c : VcpuCpu) : Prop where
  scheduled : c.Scheduled
  request : c.pc.OnVcpu → c.ctl.status .vcpu ≠ some .running → c.ctl.needReschedule = true
  signal : c.pc.PastTest → c.ctl.needReschedule = true → c.initPending = true

theorem Alert.prepared : VcpuCpu.prepared.Alert :=
  ⟨.prepared, fun h => absurd h (by decide), fun h => absurd h (by decide)⟩

/-- A step within the vCPU's thread that leaves the scheduler alone. -/
theorem Alert.of_pc (h : c.Alert) (hsched : c'.Scheduled) (hctl : c'.ctl = c.ctl)
    (hon : c'.pc.OnVcpu → c.pc.OnVcpu)
    (htest : c'.pc.PastTest → c.pc.PastTest ∨ c.ctl.needReschedule = false)
    (hinit : c'.pc.PastTest → c.initPending = true → c'.initPending = true) : c'.Alert := by
  refine ⟨hsched, fun hpc hrun => ?_, fun hpc hneed => ?_⟩
  · rw [hctl] at hrun ⊢
    exact h.request (hon hpc) hrun
  · rw [hctl] at hneed
    obtain hold | hfalse := htest hpc
    · exact hinit hpc (h.signal hold hneed)
    · rw [hfalse] at hneed
      cases hneed

/-- The steps of the loop keep the scheduler alert. The test comes after every point where a
request can be left behind without a signal. -/
theorem Alert.step {a : LoopStep} (h : c.Alert) (hstep : c.step a = some c') : c'.Alert := by
  have hsched := h.scheduled.step hstep
  cases step_eq_some hstep with
  | schedule hpc hneed hctl =>
    -- the thread that is picked runs, and the request is done
    obtain ⟨prev, -, hcurr, -, hneed', hstatus⟩ := SchedControl.schedule_eq_some hctl
    refine ⟨hsched, fun hon hrun => ?_, fun _ hneed => ?_⟩
    · have hpick := hsched.currObj
      rw [if_pos hon] at hpick
      have hvcpu := Option.some.inj (hcurr.symm.trans hpick)
      exact absurd (by rw [hstatus, if_pos hvcpu.symm]) hrun
    · exact absurd (hneed'.symm.trans hneed) Bool.false_ne_true
  | switchIn hpc =>
    refine h.of_pc hsched rfl (fun _ => ?_) (fun _ => .inl ?_) fun _ => id
    · rw [hpc]
      decide
    · rw [hpc]
      decide
  | switchOut hpc =>
    refine h.of_pc hsched rfl (fun hon => ?_) (fun htest => ?_) fun _ => id
    · exact absurd hon (show ¬ VcpuPc.idle.OnVcpu by decide)
    · exact absurd htest (show ¬ VcpuPc.idle.PastTest by decide)
  | noReschedule hpc hneed =>
    refine h.of_pc hsched rfl (fun _ => ?_) (fun _ => .inr hneed) fun _ => id
    rw [hpc]
    decide
  | handleRequests flush hpc =>
    refine h.of_pc hsched rfl (fun _ => ?_) (fun _ => .inl ?_) fun _ => id
    · rw [hpc]
      decide
    · rw [hpc]
      decide
  | handleFails hpc =>
    refine h.of_pc hsched rfl (fun _ => ?_) (fun htest => ?_) fun _ => id
    · rw [hpc]
      decide
    · exact absurd htest (show ¬ VcpuPc.exited.PastTest by decide)
  | invept hpc =>
    refine h.of_pc hsched rfl (fun _ => ?_) (fun _ => .inl ?_) fun _ => id
    · rw [hpc]
      decide
    · rw [hpc]
      decide
  | entry hpc =>
    refine h.of_pc hsched rfl (fun _ => ?_) (fun _ => .inl ?_) fun _ => id
    · rw [hpc]
      decide
    · rw [hpc]
      decide
  | entryFails hpc =>
    refine h.of_pc hsched rfl (fun _ => ?_) (fun htest => ?_) fun _ => id
    · rw [hpc]
      decide
    · exact absurd htest (show ¬ VcpuPc.exited.PastTest by decide)
  | exit byInit hpc =>
    refine h.of_pc hsched rfl (fun _ => ?_) (fun htest => ?_) fun htest => ?_
    · rw [hpc]
      decide
    · exact absurd htest (show ¬ VcpuPc.exited.PastTest by decide)
    · exact absurd htest (show ¬ VcpuPc.exited.PastTest by decide)
  | handled hpc =>
    refine h.of_pc hsched rfl (fun _ => ?_) (fun htest => ?_) fun _ => id
    · rw [hpc]
      decide
    · exact absurd htest (show ¬ VcpuPc.loopHead.PastTest by decide)

/-- What the calls on the scheduler have in common. -/
structure AlertCall (here : Bool) (ctl ctl' : SchedControl PcpuThread) (init : Bool) : Prop where
  keeps : KeepsThread ctl ctl'
  need : ctl.needReschedule = true → ctl'.needReschedule = true
  signal : ctl'.needReschedule = true → ctl.needReschedule = true ∨ init = !here
  request : ctl'.status .vcpu ≠ some .running →
    ctl.status .vcpu ≠ some .running ∨ ctl'.needReschedule = true

variable {ctl : SchedControl PcpuThread}

/-- The three calls on the scheduler have the same shape: the status of the vCPU changes, and if it
is not to run any more, a request is made, with INIT from another pCPU. -/
theorem AlertCall.sleepThread :
    AlertCall here ctl (ctl.sleepThread .vcpu here).1 (ctl.sleepThread .vcpu here).2 := by
  refine ⟨.sleepThread here, fun hneed => ?_, fun hneed => ?_, fun _ => ?_⟩
  · rw [SchedControl.sleepThread]
    dsimp only
    split
    · rfl
    · simpa using hneed
  · rw [SchedControl.sleepThread] at hneed ⊢
    dsimp only at hneed ⊢
    split at hneed
    · next hrun => exact .inr (by rw [if_pos hrun]; rfl)
    · exact .inl (by simpa using hneed)
  · -- a thread that runs is asked to stop
    rw [SchedControl.sleepThread]
    dsimp only
    split
    · exact .inr rfl
    · next hrun => exact .inl (by simpa using hrun)

theorem AlertCall.wakeThread :
    AlertCall here ctl (ctl.wakeThread .vcpu here).1 (ctl.wakeThread .vcpu here).2 := by
  refine ⟨.wakeThread here, ?_, ?_, ?_⟩
  · rw [SchedControl.wakeThread]
    split
    · exact fun _ => rfl
    · exact id
  · rw [SchedControl.wakeThread]
    split
    · exact fun _ => .inr rfl
    · exact .inl
  · rw [SchedControl.wakeThread]
    split
    · exact fun _ => .inr rfl
    · exact .inl

theorem AlertCall.kickThread :
    AlertCall here ctl (ctl.kickThread .vcpu here).1 (ctl.kickThread .vcpu here).2 := by
  refine ⟨.kickThread here, ?_, ?_, ?_⟩
  · rw [SchedControl.kickThread]
    split
    · exact id
    split
    · exact fun _ => rfl
    · exact id
  · rw [SchedControl.kickThread]
    split
    · exact .inl
    split
    · exact fun _ => .inr rfl
    · exact .inl
  · rw [SchedControl.kickThread_status]
    exact .inl

/-- A call from the vCPU's own pCPU comes before the next test. -/
theorem Alert.call {f : SchedControl PcpuThread → SchedControl PcpuThread × Bool} (h : c.Alert)
    (hf : AlertCall here c.ctl (f c.ctl).1 (f c.ctl).2) (hhere : here = true → ¬ c.pc.PastTest) :
    (c.call f).Alert := by
  refine ⟨h.scheduled.call hf.keeps, fun hon hrun => ?_, fun htest hneed => ?_⟩
  · obtain hold | hneed := hf.request hrun
    · exact hf.need (h.request hon hold)
    · exact hneed
  · show (c.initPending || (f c.ctl).2) = true
    obtain hold | hinit := hf.signal hneed
    · rw [h.signal htest hold]
      rfl
    · rw [hinit]
      cases here with
      | false => exact Bool.or_true _
      | true => exact absurd htest (hhere rfl)

theorem Alert.of_ctl (h : c.Alert) (hctl : c'.ctl = c.ctl) (hpc : c'.pc = c.pc)
    (hinit : c'.initPending = c.initPending) : c'.Alert := by
  refine h.of_pc (h.scheduled.of_ctl hctl hpc) hctl ?_ ?_ ?_
  · rw [hpc]
    exact id
  · rw [hpc]
    exact .inl
  · rw [hinit]
    exact fun _ => id

/-- Calls for the vCPU leave its pCPU where it is, and an INIT signal pending. -/
structure Called (c c' : VcpuCpu) : Prop where
  pc : c'.pc = c.pc
  initPending : c.initPending = true → c'.initPending = true
  online : c.state ≠ .offline → c'.state ≠ .offline

/-- A signal stays pending until the pCPU takes it. -/
theorem initPending_call {f : SchedControl PcpuThread → SchedControl PcpuThread × Bool}
    (hinit : c.initPending = true) : (c.call f).initPending = true := by
  show (c.initPending || (f c.ctl).2) = true
  rw [hinit]
  rfl

/-- Whatever is called for a vCPU, its pCPU stays where it is. -/
theorem Called.callVcpu (f : VcpuCall) : Called c (c.callVcpu f here) := by
  cases f with
  | launchVcpu =>
    exact ⟨rfl, fun hinit => initPending_call (c := { c with state := .running }) hinit,
      fun _ h => (by cases h)⟩
  | resetVcpu =>
    exact ⟨rfl, fun hinit => initPending_call (c := { c with state := .init, running := false }) hinit,
      fun _ h => (by cases h)⟩
  | kickVcpu => exact ⟨rfl, fun hinit => initPending_call hinit, id⟩
  | pauseVcpu =>
    rw [VcpuCpu.callVcpu, VcpuCpu.pauseVcpu]
    split
    · exact ⟨rfl, fun hinit => initPending_call (c := { c with state := .zombie }) hinit,
        fun _ h => (by cases h)⟩
    split
    · exact ⟨rfl, id, fun _ h => (by cases h)⟩
    · exact ⟨rfl, id, id⟩

theorem Alert.sleepThread (h : c.Alert) (hhere : here = true → ¬ c.pc.PastTest) :
    (c.sleepThread here).Alert :=
  h.call here (f := (·.sleepThread .vcpu here)) (.sleepThread here) hhere

theorem Alert.wakeThread (h : c.Alert) (hhere : here = true → ¬ c.pc.PastTest) :
    (c.wakeThread here).Alert :=
  h.call here (f := (·.wakeThread .vcpu here)) (.wakeThread here) hhere

theorem Alert.kickThread (h : c.Alert) (hhere : here = true → ¬ c.pc.PastTest) :
    (c.kickThread here).Alert :=
  h.call here (f := (·.kickThread .vcpu here)) (.kickThread here) hhere

/-- All calls together. One that comes from the vCPU's own pCPU comes where the test is still
ahead. -/
theorem Alert.callVcpu (h : c.Alert) (f : VcpuCall) (hhere : here = true → ¬ c.pc.PastTest) :
    (c.callVcpu f here).Alert := by
  cases f with
  | launchVcpu =>
    exact (h.of_ctl rfl rfl rfl : Alert { c with state := .running }).wakeThread here hhere
  | resetVcpu =>
    exact (h.of_ctl rfl rfl rfl : Alert { c with state := .init, running := false }).kickThread here
      hhere
  | kickVcpu => exact h.kickThread here hhere
  | pauseVcpu =>
    rw [VcpuCpu.callVcpu, VcpuCpu.pauseVcpu]
    split
    · exact (h.of_ctl rfl rfl rfl : Alert { c with state := .zombie }).sleepThread here hhere
    split
    · exact h.of_ctl rfl rfl rfl
    · exact h

/-- After a kick a vCPU in guest mode, or just before it, is interrupted. -/
theorem Alert.kicked (h : c.Alert) (hhere : here = true → c.pc = .exited)
    (hpc : c.pc.NearGuest) : (c.kickThread here).initPending = true := by
  have haway : here = false := by
    rw [Bool.eq_false_iff]
    intro htrue
    rw [hhere htrue] at hpc
    exact absurd hpc (by decide)
  have hon : c.pc.OnVcpu ∧ c.pc.PastTest := by
    obtain hpc | hpc := hpc
    · rw [hpc]
      decide
    · rw [hpc]
      decide
  show (c.initPending || (c.ctl.kickThread .vcpu here).2) = true
  rw [haway, SchedControl.kickThread]
  split
  · exact Bool.or_true _
  · next hrun =>
    -- a thread that does not run has been asked to stop before
    rw [h.signal hon.2 (h.request hon.1 hrun)]
    rfl

/-- After the locked section of `schedule` the test is ahead. -/
theorem afterSchedule_notNear {next : Option PcpuThread} : ¬ (c.afterSchedule next).NearGuest := by
  rw [afterSchedule]
  split
  · split
    · decide
    · decide
  · split
    · decide
    · decide

/-- What comes after the request has been taken. -/
theorem Stepped.of_flushing {a : LoopStep} (h : c.Stepped a c') (hpc : c.pc = .flushing) :
    a = .invept := by
  cases h with
  | invept => rfl
  | schedule hc =>
    rw [hpc] at hc
    exact absurd hc (by decide)
  | switchIn hc => exact absurd (hpc.symm.trans hc) (by decide)
  | switchOut hc => exact absurd (hpc.symm.trans hc) (by decide)
  | noReschedule hc => exact absurd (hpc.symm.trans hc) (by decide)
  | handleRequests flush hc => exact absurd (hpc.symm.trans hc) (by decide)
  | handleFails hc => exact absurd (hpc.symm.trans hc) (by decide)
  | entry hc => exact absurd (hpc.symm.trans hc) (by decide)
  | entryFails hc => exact absurd (hpc.symm.trans hc) (by decide)
  | exit byInit hc => exact absurd (hpc.symm.trans hc) (by decide)
  | handled hc => exact absurd (hpc.symm.trans hc) (by decide)

end VcpuCpu

/-! ## What a vCPU knows of an edit

An edit has `w` writes when it makes its requests. A vCPU is asked once the request is set, unless
it has executed `invept` since, and told once it cannot stay in guest mode without it. Both are
stable under every step: this is where the order of the test, the clearing and the `invept`
matters. -/

namespace FlushVcpu

variable {x x' : FlushVcpu} {w writes : ℕ}

/-- The vCPU has executed `invept` after the writes up to `w`, it is about to, or it has a
request to. -/
def Asked (x : FlushVcpu) (w : ℕ) : Prop :=
  w ≤ x.invepted ∨ x.cpu.pc = .flushing ∨ x.flush = true

/-- It does not stay in guest mode before it has. -/
structure Told (x : FlushVcpu) (w : ℕ) : Prop where
  asked : x.Asked w
  signal : x.cpu.pc.NearGuest → w ≤ x.invepted ∨ x.cpu.initPending = true

/-- Everything that a step of the pCPU can do. -/
inductive Stepped (x : FlushVcpu) (writes : ℕ) : LoopStep → FlushVcpu → Prop where
  | handleRequests {cpu : VcpuCpu} : x.cpu.step (.handleRequests x.flush) = some cpu →
      Stepped x writes (.handleRequests x.flush) { x with cpu, flush := false }
  | invept {cpu : VcpuCpu} : x.cpu.step .invept = some cpu →
      Stepped x writes .invept { x with cpu, invepted := writes }
  | other {a : LoopStep} {cpu : VcpuCpu} : (∀ flush, a ≠ .handleRequests flush) → a ≠ .invept →
      x.cpu.step a = some cpu → Stepped x writes a { x with cpu }

theorem step_eq_some {a : LoopStep} (h : x.step writes a = some x') : x.Stepped writes a x' := by
  have hother : (∀ flush, a ≠ .handleRequests flush) → a ≠ .invept →
      (x.cpu.step a).map (fun cpu => { x with cpu }) = some x' → x.Stepped writes a x' := by
    intro hrequests hinvept hmap
    obtain ⟨cpu, hcpu, rfl⟩ := Option.map_eq_some_iff.mp hmap
    exact .other hrequests hinvept hcpu
  cases a with
  | handleRequests flush =>
    obtain ⟨rfl, hmap⟩ := Option.ite_none_right_eq_some.mp h
    obtain ⟨cpu, hcpu, rfl⟩ := Option.map_eq_some_iff.mp hmap
    exact .handleRequests hcpu
  | invept =>
    obtain ⟨cpu, hcpu, rfl⟩ := Option.map_eq_some_iff.mp h
    exact .invept hcpu
  | _ => exact hother (fun flush hne => (by cases hne)) (fun hne => (by cases hne)) h

/-- An asked vCPU stays asked: it takes its request only to go on to `invept`. -/
theorem Asked.step {a : LoopStep} (h : x.Asked w) (hw : w ≤ writes)
    (hstep : x.step writes a = some x') : x'.Asked w := by
  cases step_eq_some hstep with
  | handleRequests hcpu =>
    cases VcpuCpu.step_eq_some hcpu with
    | handleRequests _ hpc =>
      obtain hinvept | hflushing | hflush := h
      · exact .inl hinvept
      · exact absurd (hpc.symm.trans hflushing) (by decide)
      · -- the request is taken
        refine .inr (.inl ?_)
        show (if x.flush then VcpuPc.flushing else VcpuPc.entering) = .flushing
        rw [hflush]
        rfl
  | invept hcpu => exact .inl hw
  | other _ hinvept hcpu =>
    obtain hold | hflushing | hflush := h
    · exact .inl hold
    · exact absurd ((VcpuCpu.step_eq_some hcpu).of_flushing hflushing) hinvept
    · exact .inr (.inr hflush)

/-- What the pCPU does is a step of its own. -/
theorem step_cpu {a : LoopStep} (h : x.step writes a = some x') :
    x.cpu.step a = some x'.cpu := by
  cases step_eq_some h with
  | handleRequests hcpu => exact hcpu
  | invept hcpu => exact hcpu
  | other _ _ hcpu => exact hcpu

/-- **Who has been told of the writes stays told of them.** -/
theorem Told.step {a : LoopStep} (h : x.Told w) (hw : w ≤ writes)
    (hstep : x.step writes a = some x') : x'.Told w := by
  refine ⟨h.asked.step hw hstep, ?_⟩
  cases step_eq_some hstep with
  | handleRequests hcpu =>
    cases VcpuCpu.step_eq_some hcpu with
    | handleRequests _ hpc =>
      intro hpc'
      obtain hinvept | hflushing | hflush := h.asked
      · exact .inl hinvept
      · exact absurd (hpc.symm.trans hflushing) (by decide)
      · -- there is `invept` to do first
        have hnext : (if x.flush then VcpuPc.flushing else VcpuPc.entering).NearGuest := hpc'
        rw [hflush] at hnext
        exact absurd hnext (show ¬ VcpuPc.flushing.NearGuest by decide)
  | invept hcpu => exact fun _ => .inl hw
  | other hrequests hinvept hcpu =>
    cases VcpuCpu.step_eq_some hcpu with
    | entry hpc => exact fun _ => h.signal (.inl hpc)
    | handleRequests flush => exact absurd rfl (hrequests flush)
    | invept => exact absurd rfl hinvept
    | schedule => exact fun hpc => absurd hpc VcpuCpu.afterSchedule_notNear
    | switchIn =>
      intro hpc
      have hnext : (if x.cpu.started then VcpuPc.handling else VcpuPc.loopHead).NearGuest := hpc
      cases hstarted : x.cpu.started with
      | false =>
        rw [hstarted] at hnext
        exact absurd hnext (show ¬ VcpuPc.loopHead.NearGuest by decide)
      | true =>
        rw [hstarted] at hnext
        exact absurd hnext (show ¬ VcpuPc.handling.NearGuest by decide)
    | switchOut => exact fun hpc => absurd hpc (show ¬ VcpuPc.idle.NearGuest by decide)
    | noReschedule => exact fun hpc => absurd hpc (show ¬ VcpuPc.handling.NearGuest by decide)
    | handleFails => exact fun hpc => absurd hpc (show ¬ VcpuPc.exited.NearGuest by decide)
    | entryFails => exact fun hpc => absurd hpc (show ¬ VcpuPc.exited.NearGuest by decide)
    | exit => exact fun hpc => absurd hpc (show ¬ VcpuPc.exited.NearGuest by decide)
    | handled => exact fun hpc => absurd hpc (show ¬ VcpuPc.loopHead.NearGuest by decide)

/-- Calls for the vCPU and new requests change nothing of that. -/
theorem Asked.called {cpu : VcpuCpu} {flush : Bool} (h : x.Asked w) (hcpu : x.cpu.Called cpu)
    (hflush : x.flush = true → flush = true) : Asked { x with cpu, flush } w := by
  obtain hinvept | hpc | hset := h
  · exact .inl hinvept
  · exact .inr (.inl (hcpu.pc.trans hpc))
  · exact .inr (.inr (hflush hset))

/-- Calls for a vCPU take no request back and no signal. -/
theorem Told.called {cpu : VcpuCpu} {flush : Bool} (h : x.Told w) (hcpu : x.cpu.Called cpu)
    (hflush : x.flush = true → flush = true) : Told { x with cpu, flush } w := by
  refine ⟨h.asked.called hcpu hflush, fun hpc => ?_⟩
  have hold : x.cpu.pc.NearGuest := by
    rw [← hcpu.pc]
    exact hpc
  exact (h.signal hold).imp id hcpu.initPending

/-- A vCPU that has a request and is kicked has been told. -/
theorem Asked.kicked {here : Bool} (h : x.Asked w) (halert : x.cpu.Alert)
    (hhere : here = true → x.cpu.pc = .exited) :
    Told { x with cpu := x.cpu.kickThread here } w :=
  ⟨h.called (VcpuCpu.Called.callVcpu here .kickVcpu) id,
    fun hpc => .inr (halert.kicked here hhere hpc)⟩

/-- The request is cleared on the way to `invept`. -/
theorem flush_cleared {a : LoopStep} (h : x.step writes a = some x') (hflush : x.flush = true)
    (hclear : x'.flush = false) : x'.cpu.pc = .flushing := by
  cases step_eq_some h with
  | handleRequests hcpu =>
    cases VcpuCpu.step_eq_some hcpu with
    | handleRequests =>
      show (if x.flush then VcpuPc.flushing else VcpuPc.entering) = .flushing
      rw [hflush]
      rfl
  | invept => exact absurd (hflush.symm.trans hclear) (by decide)
  | other => exact absurd (hflush.symm.trans hclear) (by decide)

/-- A vCPU on that way executes it. -/
theorem step_flushing {a : LoopStep} (h : x.step writes a = some x')
    (hpc : x.cpu.pc = .flushing) : x'.cpu.pc = .entering ∧ x'.invepted = writes := by
  obtain rfl := (VcpuCpu.step_eq_some (step_cpu h)).of_flushing hpc
  cases step_eq_some h with
  | invept hcpu =>
    cases VcpuCpu.step_eq_some hcpu with
    | invept => exact ⟨rfl, rfl⟩
  | other _ hne => exact absurd rfl hne

end FlushVcpu

/-! ## The invariant

An edit that has returned has told everybody, and one that is under way has told those that it has
come past. No step takes that back (`Keeps`), so a step has to be looked at for one vCPU or one
edit only. -/

namespace FlushState

variable {vcpus} {s s' : FlushState V} {w : ℕ}

/-- Everybody else has been told of the writes up to `w`. -/
structure Reached (vcpus : List V) (s : FlushState V) (w : ℕ) (todo : List V) : Prop where
  stamp : w ≤ s.writes
  told : ∀ v ∈ vcpus, v ∈ todo ∨ (s.vcpu v).Told w

/-- How far an edit has come. -/
def EditOk (vcpus : List V) (s : FlushState V) : EditPc V → Prop
  | .writing => True
  | .requesting stamp todo => s.Reached vcpus stamp todo
  | .kicking stamp t todo => s.Reached vcpus stamp (t :: todo) ∧ (s.vcpu t).Asked stamp

structure Invariant (vcpus : List V) (s : FlushState V) : Prop where
  alert : ∀ v, (s.vcpu v).cpu.Alert
  online : ∀ v, (s.vcpu v).cpu.state ≠ .offline
  editing : ∀ u pc, s.edit u = some pc → (s.vcpu u).cpu.pc = .exited ∧ s.EditOk vcpus pc
  locked : ∀ u, s.eptLock = some u → s.edit u = some .writing
  returned : ∀ w ∈ s.returned, s.Reached vcpus w []

/-- A step after which nobody knows less. -/
structure Keeps (s s' : FlushState V) : Prop where
  writes : s.writes ≤ s'.writes
  told : ∀ v w, w ≤ s.writes → (s.vcpu v).Told w → (s'.vcpu v).Told w
  asked : ∀ v w, w ≤ s.writes → (s.vcpu v).Asked w → (s'.vcpu v).Asked w

omit [DecidableEq V] in
/-- Who has been told stays told, so an edit does not fall behind, -/
theorem Reached.keeps {todo : List V} (h : s.Reached vcpus w todo) (hs : s.Keeps s') :
    s'.Reached vcpus w todo :=
  ⟨h.stamp.trans hs.writes, fun v hv => (h.told v hv).imp id (hs.told v w h.stamp)⟩

omit [DecidableEq V] in
/-- wherever it is. -/
theorem EditOk.keeps {pc : EditPc V} (h : s.EditOk vcpus pc) (hs : s.Keeps s') :
    s'.EditOk vcpus pc := by
  cases pc with
  | writing => trivial
  | requesting stamp todo => exact Reached.keeps h hs
  | kicking stamp t todo => exact ⟨h.1.keeps hs, hs.asked t stamp h.1.stamp h.2⟩

/-- A change of one vCPU after which it knows no less. -/
theorem Keeps.setVcpu {v : V} {x : FlushVcpu}
    (htold : ∀ w, w ≤ s.writes → (s.vcpu v).Told w → x.Told w)
    (hasked : ∀ w, w ≤ s.writes → (s.vcpu v).Asked w → x.Asked w) : s.Keeps (s.setVcpu v x) := by
  refine ⟨le_rfl, fun u w hw h => ?_, fun u w hw h => ?_⟩
  · rw [FlushState.setVcpu]
    dsimp only
    by_cases hu : u = v
    · rw [hu, Function.update_self]
      exact htold w hw (hu ▸ h)
    · rwa [Function.update_of_ne hu]
  · rw [FlushState.setVcpu]
    dsimp only
    by_cases hu : u = v
    · rw [hu, Function.update_self]
      exact hasked w hw (hu ▸ h)
    · rwa [Function.update_of_ne hu]

omit [DecidableEq V] in
/-- Nobody edits the tables at first. -/
theorem Invariant.start : (FlushState.start : FlushState V).Invariant vcpus :=
  ⟨fun _ => .prepared, fun _ h => (by cases h), fun _ _ h => (by cases h), fun _ h => (by cases h),
    fun _ h => absurd h List.not_mem_nil⟩

/-- A change of one vCPU. -/
theorem Invariant.setVcpu {v : V} {x : FlushVcpu} (h : s.Invariant vcpus)
    (hs : s.Keeps (s.setVcpu v x)) (halert : x.cpu.Alert) (honline : x.cpu.state ≠ .offline)
    (hpc : s.edit v ≠ none → x.cpu.pc = .exited) : (s.setVcpu v x).Invariant vcpus := by
  have hforall : ∀ P : FlushVcpu → Prop, P x → (∀ u, P (s.vcpu u)) →
      ∀ u, P ((s.setVcpu v x).vcpu u) := by
    intro P hx hall u
    rw [FlushState.setVcpu]
    dsimp only
    by_cases hu : u = v
    · rwa [hu, Function.update_self]
    · rw [Function.update_of_ne hu]
      exact hall u
  refine ⟨hforall (·.cpu.Alert) halert h.alert, hforall (·.cpu.state ≠ .offline) honline h.online,
    fun u pc hu => ⟨?_, (h.editing u pc hu).2.keeps hs⟩, h.locked,
    fun w hw => (h.returned w hw).keeps hs⟩
  rw [FlushState.setVcpu]
  dsimp only
  by_cases huv : u = v
  · rw [huv, Function.update_self]
    refine hpc ?_
    rw [← huv]
    exact fun hnone => Option.some_ne_none pc (hu.symm.trans hnone)
  · rw [Function.update_of_ne huv]
    exact (h.editing u pc hu).1

omit [DecidableEq V] in
theorem Keeps.of_vcpu (hvcpu : s'.vcpu = s.vcpu) (hwrites : s.writes ≤ s'.writes) : s.Keeps s' :=
  ⟨hwrites, fun v w _ h => (by rwa [hvcpu]), fun v w _ h => (by rwa [hvcpu])⟩

/-- A vCPU goes on in its edit. -/
theorem Invariant.of_edit {u : V} {e : Option (EditPc V)} (h : s.Invariant vcpus)
    (hvcpu : s'.vcpu = s.vcpu) (hwrites : s.writes ≤ s'.writes)
    (hedit : s'.edit = Function.update s.edit u e)
    (hpc : ∀ p, e = some p → (s.vcpu u).cpu.pc = .exited ∧ s.EditOk vcpus p)
    (hlocked : ∀ v, s'.eptLock = some v → s'.edit v = some .writing)
    (hreturned : ∀ w ∈ s'.returned, s.Reached vcpus w []) : s'.Invariant vcpus := by
  have hs : s.Keeps s' := .of_vcpu hvcpu hwrites
  refine ⟨?_, ?_, fun v p hv => ?_, hlocked, fun w hw => (hreturned w hw).keeps hs⟩
  · rw [hvcpu]
    exact h.alert
  · rw [hvcpu]
    exact h.online
  · have hold : (s.vcpu v).cpu.pc = .exited ∧ s.EditOk vcpus p := by
      rw [hedit] at hv
      by_cases hvu : v = u
      · rw [hvu, Function.update_self] at hv
        exact hvu ▸ hpc p hv
      · rw [Function.update_of_ne hvu] at hv
        exact h.editing v p hv
    rw [hvcpu]
    exact ⟨hold.1, hold.2.keeps hs⟩

/-- The same without the lock. -/
theorem Invariant.setEdit {u : V} {old pc : EditPc V} (h : s.Invariant vcpus)
    (hold : s.edit u = some old) (hlock : old ≠ .writing) (hpc : s.EditOk vcpus pc) :
    (s.setEdit u (some pc)).Invariant vcpus := by
  refine h.of_edit rfl le_rfl rfl (fun p hp => ?_) (fun v hv => ?_) h.returned
  · obtain rfl := Option.some.inj hp
    exact ⟨(h.editing u old hold).1, hpc⟩
  · have hvu : v ≠ u := by
      rintro rfl
      exact hlock (Option.some.inj (hold.symm.trans (h.locked v hv)))
    show Function.update s.edit u (some pc) v = some .writing
    rw [Function.update_of_ne hvu]
    exact h.locked v hv

omit [DecidableEq V] in
/-- A vCPU with an edit is in its handler. -/
theorem Invariant.exited {v : V} (h : s.Invariant vcpus) (hedit : s.edit v ≠ none) :
    (s.vcpu v).cpu.pc = .exited := by
  obtain ⟨pc, hpc⟩ := Option.ne_none_iff_exists'.mp hedit
  exact (h.editing v pc hpc).1

/-! ### Steps of one vCPU

What a pCPU does, and what is called for a vCPU, concerns no edit but through what the vCPU
knows. -/

/-- A step of a pCPU. The vCPU knows no less after it, and the others are not concerned. -/
theorem Invariant.pcpu {v : V} {a : LoopStep} {x : FlushVcpu} (h : s.Invariant vcpus)
    (hedit : ¬ (a = .handled ∧ (s.edit v).isSome)) (hx : (s.vcpu v).step s.writes a = some x) :
    (s.setVcpu v x).Invariant vcpus := by
  refine h.setVcpu (.setVcpu (fun w hw ht => ht.step hw hx) (fun w hw ha => ha.step hw hx)) ?_ ?_
    fun hne => ?_
  · exact (h.alert v).step (FlushVcpu.step_cpu hx)
  · rw [(VcpuCpu.step_slot_state (FlushVcpu.step_cpu hx)).2]
    exact h.online v
  -- the only way out of the handler is not open during an edit
  · have hhandled := VcpuCpu.step_exited (h.exited hne) (FlushVcpu.step_cpu hx)
    exact absurd ⟨hhandled, Option.isSome_iff_ne_none.mpr hne⟩ hedit

/-- A call for a vCPU from any pCPU. -/
theorem Invariant.call {v : V} {here : Bool} (f : VcpuCall) (h : s.Invariant vcpus)
    (hhere : here = true → (s.vcpu v).cpu.pc = .exited ∨ (s.vcpu v).cpu.pc = .idle) :
    (s.setVcpu v { s.vcpu v with cpu := (s.vcpu v).cpu.callVcpu f here }).Invariant vcpus := by
  have hcalled : (s.vcpu v).cpu.Called ((s.vcpu v).cpu.callVcpu f here) := .callVcpu here f
  refine h.setVcpu (.setVcpu (fun w _ ht => ht.called hcalled id)
    (fun w _ ha => ha.called hcalled id)) ?_ (hcalled.online (h.online v))
    fun hedit => hcalled.pc.trans (h.exited hedit)
  refine (h.alert v).callVcpu here f fun htrue => ?_
  obtain hpc | hpc := hhere htrue
  · rw [hpc]
    decide
  · rw [hpc]
    decide

/-- A vCPU that requests a flush of itself has more to flush than the edits, which does no harm. -/
theorem Invariant.requestFlush {v : V} (h : s.Invariant vcpus)
    (hpc : (s.vcpu v).cpu.pc = .exited) :
    (s.setVcpu v { s.vcpu v with cpu := (s.vcpu v).cpu.kickThread true, flush := true }).Invariant
      vcpus := by
  have hcalled : (s.vcpu v).cpu.Called ((s.vcpu v).cpu.kickThread true) := .callVcpu true .kickVcpu
  refine h.setVcpu (.setVcpu (fun w _ ht => ht.called hcalled fun _ => rfl)
    (fun w _ ha => ha.called hcalled fun _ => rfl)) ?_ (h.online v) fun _ => hpc
  refine (h.alert v).kickThread true fun _ => ?_
  rw [hpc]
  decide

/-! ### Steps of an edit

What is written is requested of one vCPU after the other. A vCPU has been asked once its request
is set, and told once it has been kicked too. -/

/-- The edit begins: `ept_lock` is taken, and the tables may be written. -/
theorem Invariant.lockEpt {u : V} (h : s.Invariant vcpus) (hpc : (s.vcpu u).cpu.pc = .exited) :
    { s.setEdit u (some .writing) with eptLock := some u }.Invariant vcpus := by
  refine h.of_edit (u := u) (e := some .writing) rfl le_rfl rfl (fun p hp => ?_) (fun v hv => ?_)
    h.returned
  · obtain rfl := Option.some.inj hp
    exact ⟨hpc, trivial⟩
  · obtain rfl := Option.some.inj hv
    exact Function.update_self _ _ _

/-- The writes are done, and their number is the stamp of the edit. From here on the vCPUs are
asked one by one. -/
theorem Invariant.unlockEpt {u : V} (h : s.Invariant vcpus) (hlock : s.eptLock = some u) :
    { s.setEdit u (some (.requesting s.writes vcpus)) with eptLock := none }.Invariant vcpus := by
  refine h.of_edit (u := u) (e := some (.requesting s.writes vcpus)) rfl le_rfl rfl (fun p hp => ?_)
    (fun v hv => (by cases hv)) h.returned
  obtain rfl := Option.some.inj hp
  exact ⟨(h.editing u _ (h.locked u hlock)).1, le_rfl, fun v hv => .inl hv⟩

/-- The next vCPU gets its request, and is asked from then on. -/
theorem Invariant.makeRequest {u t : V} {stamp : ℕ} {todo : List V} (h : s.Invariant vcpus)
    (hedit : s.edit u = some (.requesting stamp (t :: todo))) :
    ((s.setVcpu t { s.vcpu t with flush := true }).setEdit u
      (some (.kicking stamp t todo))).Invariant vcpus := by
  obtain ⟨-, hreached⟩ := h.editing u _ hedit
  have hcalled : (s.vcpu t).cpu.Called (s.vcpu t).cpu := ⟨rfl, id, id⟩
  have hkeeps : s.Keeps (s.setVcpu t { s.vcpu t with flush := true }) :=
    .setVcpu (fun w _ ht => ht.called hcalled fun _ => rfl)
      (fun w _ ha => ha.called hcalled fun _ => rfl)
  refine (h.setVcpu hkeeps (h.alert t) (h.online t) h.exited).setEdit hedit
    (fun hw => (by cases hw)) ⟨Reached.keeps hreached hkeeps, ?_⟩
  rw [FlushState.setVcpu]
  dsimp only
  rw [Function.update_self]
  exact .inr (.inr rfl)

/-- It is kicked, so that it does not stay in guest mode: it has been told. -/
theorem Invariant.kickVcpu {u t : V} {stamp : ℕ} {todo : List V} (h : s.Invariant vcpus)
    (hedit : s.edit u = some (.kicking stamp t todo)) :
    ((s.setVcpu t { s.vcpu t with cpu := (s.vcpu t).cpu.kickThread (t = u) }).setEdit u
      (some (.requesting stamp todo))).Invariant vcpus := by
  obtain ⟨hpc, hreached, hasked⟩ := h.editing u _ hedit
  have hcalled : (s.vcpu t).cpu.Called ((s.vcpu t).cpu.kickThread (t = u)) := .callVcpu _ .kickVcpu
  have hkeeps : s.Keeps (s.setVcpu t { s.vcpu t with cpu := (s.vcpu t).cpu.kickThread (t = u) }) :=
    .setVcpu (fun w _ ht => ht.called hcalled id) (fun w _ ha => ha.called hcalled id)
  -- a vCPU kicks itself only in its handler
  have hhere : decide (t = u) = true → (s.vcpu t).cpu.pc = .exited := by
    intro htu
    rw [of_decide_eq_true htu]
    exact hpc
  refine (h.setVcpu hkeeps ((h.alert t).kickThread _ fun htu => ?_) (h.online t) h.exited).setEdit
    hedit (fun hw => (by cases hw)) ⟨hreached.stamp, fun v hv => ?_⟩
  · show ¬ (s.vcpu t).cpu.pc.PastTest
    rw [hhere htu]
    decide
  · obtain hmem | htold := hreached.told v hv
    · obtain rfl | hmem := List.mem_cons.mp hmem
      · refine .inr ?_
        rw [FlushState.setVcpu]
        dsimp only
        rw [Function.update_self]
        exact hasked.kicked (h.alert v) hhere
      · exact .inl hmem
    · exact .inr (hkeeps.told v stamp hreached.stamp htold)

/-- Everybody has been told, and the edit returns. -/
theorem Invariant.editReturns {u : V} {stamp : ℕ} (h : s.Invariant vcpus)
    (hedit : s.edit u = some (.requesting stamp [])) :
    { s.setEdit u none with returned := stamp :: s.returned }.Invariant vcpus := by
  obtain ⟨-, hreached⟩ := h.editing u _ hedit
  refine h.of_edit (u := u) (e := none) rfl le_rfl rfl (fun p hp => (by cases hp))
    (fun v hv => ?_) fun w hw => ?_
  · have hvu : v ≠ u := by
      rintro rfl
      cases hedit.symm.trans (h.locked v hv)
    show Function.update s.edit u none v = some .writing
    rw [Function.update_of_ne hvu]
    exact h.locked v hv
  · obtain rfl | hw := List.mem_cons.mp hw
    · exact hreached
    · exact h.returned w hw

/-- **Every step keeps the invariant.** -/
theorem Invariant.step {a : FlushStep V} (h : s.Invariant vcpus)
    (hstep : s.step vcpus a = some s') : s'.Invariant vcpus := by
  cases a with
  | pcpu v a =>
    obtain ⟨hedit, hmap⟩ := Option.ite_none_left_eq_some.mp hstep
    obtain ⟨x, hx, rfl⟩ := Option.map_eq_some_iff.mp hmap
    exact h.pcpu hedit hx
  | call v f here =>
    obtain ⟨hhere, rfl⟩ := of_guard hstep
    exact h.call f hhere
  | requestFlush v =>
    obtain ⟨hpc, rfl⟩ := of_guard hstep
    exact h.requestFlush hpc
  | lockEpt u =>
    obtain ⟨⟨hpc, -, -⟩, rfl⟩ := of_guard hstep
    exact h.lockEpt hpc
  | writeTable u =>
    obtain ⟨-, rfl⟩ := of_guard hstep
    exact h.of_edit (u := u) (e := s.edit u) rfl (Nat.le_succ _) (Function.update_eq_self u _).symm
      (fun p hp => h.editing u p hp) h.locked h.returned
  | unlockEpt u =>
    obtain ⟨hlock, rfl⟩ := of_guard hstep
    exact h.unlockEpt hlock
  | makeRequest u =>
    rw [FlushState.step] at hstep
    split at hstep
    · next stamp t todo hedit =>
      rw [if_neg (h.online t)] at hstep
      obtain rfl := Option.some.inj hstep
      exact h.makeRequest hedit
    · cases hstep
  | kickVcpu u =>
    rw [FlushState.step] at hstep
    split at hstep
    · next stamp t todo hedit =>
      obtain rfl := Option.some.inj hstep
      exact h.kickVcpu hedit
    · cases hstep
  | editReturns u =>
    rw [FlushState.step] at hstep
    split at hstep
    · next stamp hedit =>
      obtain rfl := Option.some.inj hstep
      exact h.editReturns hedit
    · cases hstep

/-- For a vCPU a step is one of its own pCPU, or it leaves that where it is. -/
theorem step_vcpu {a : FlushStep V} (hstep : s.step vcpus a = some s') (v : V) :
    (∃ b, (s.vcpu v).step s.writes b = some (s'.vcpu v)) ∨
      (s'.vcpu v).cpu.pc = (s.vcpu v).cpu.pc ∧
        ((s.vcpu v).flush = true → (s'.vcpu v).flush = true) := by
  have hset : ∀ t x, x.cpu.pc = (s.vcpu t).cpu.pc → ((s.vcpu t).flush = true → x.flush = true) →
      ((s.setVcpu t x).vcpu v).cpu.pc = (s.vcpu v).cpu.pc ∧
        ((s.vcpu v).flush = true → ((s.setVcpu t x).vcpu v).flush = true) := by
    intro t x hpc hflush
    rw [setVcpu]
    dsimp only
    by_cases hv : v = t
    · rw [hv, Function.update_self]
      exact ⟨hpc, hflush⟩
    · rw [Function.update_of_ne hv]
      exact ⟨rfl, id⟩
  cases a with
  | pcpu t a =>
    obtain ⟨-, hmap⟩ := Option.ite_none_left_eq_some.mp hstep
    obtain ⟨x, hx, rfl⟩ := Option.map_eq_some_iff.mp hmap
    by_cases hv : v = t
    · refine .inl ⟨a, ?_⟩
      rw [setVcpu, hv, hx]
      dsimp only
      rw [Function.update_self]
    · refine .inr ?_
      rw [setVcpu]
      dsimp only
      rw [Function.update_of_ne hv]
      exact ⟨rfl, id⟩
  | call t f here =>
    obtain ⟨-, rfl⟩ := of_guard hstep
    exact .inr (hset t _ (VcpuCpu.Called.callVcpu here f).pc id)
  | requestFlush t =>
    obtain ⟨-, rfl⟩ := of_guard hstep
    exact .inr (hset t _ rfl fun _ => rfl)
  | lockEpt u =>
    obtain ⟨-, rfl⟩ := of_guard hstep
    exact .inr ⟨rfl, id⟩
  | writeTable u =>
    obtain ⟨-, rfl⟩ := of_guard hstep
    exact .inr ⟨rfl, id⟩
  | unlockEpt u =>
    obtain ⟨-, rfl⟩ := of_guard hstep
    exact .inr ⟨rfl, id⟩
  | makeRequest u =>
    rw [FlushState.step] at hstep
    split at hstep
    · split at hstep
      · obtain rfl := Option.some.inj hstep
        exact .inr ⟨rfl, id⟩
      · obtain rfl := Option.some.inj hstep
        exact .inr (hset _ _ rfl fun _ => rfl)
    · cases hstep
  | kickVcpu u =>
    rw [FlushState.step] at hstep
    split at hstep
    · obtain rfl := Option.some.inj hstep
      exact .inr (hset _ _ rfl id)
    · cases hstep
  | editReturns u =>
    rw [FlushState.step] at hstep
    split at hstep
    · obtain rfl := Option.some.inj hstep
      exact .inr ⟨rfl, id⟩
    · cases hstep

end FlushState

/-! ## Every run

`Invariant.step` is carried over the runs by `Reach.invariant`. -/

/-- **No vCPU misses an EPT edit**, with any number of vCPUs and in every order of steps. For
an edit that has returned, a vCPU in guest mode has executed `invept` after its last write,
or it has the request and an INIT signal pending. The request is cleared only by a vCPU that
executes `invept` before anything else. -/
theorem no_ept_edit_missed {s : FlushState V} (h : Reach (flushSystem vcpus) any s) :
    (∀ w ∈ s.returned, ∀ v ∈ vcpus, (s.vcpu v).cpu.pc = .guest →
      w ≤ (s.vcpu v).invepted ∨
        (s.vcpu v).flush = true ∧ (s.vcpu v).cpu.initPending = true) ∧
    ∀ a s', s.step vcpus a = some s' → ∀ v,
      ((s.vcpu v).flush = true → (s'.vcpu v).flush = false → (s'.vcpu v).cpu.pc = .flushing) ∧
      ((s.vcpu v).cpu.pc = .flushing → (s'.vcpu v).cpu.pc = .flushing ∨
        (s'.vcpu v).cpu.pc = .entering ∧ (s'.vcpu v).invepted = s.writes) := by
  have hinv : s.Invariant vcpus := by
    refine h.invariant ?_ fun s a s' _ hstep hs => hs.step hstep
    rintro s rfl
    exact .start
  refine ⟨fun w hw v hv hguest => ?_, fun a s' hstep v => ⟨fun hflush hclear => ?_, fun hpc => ?_⟩⟩
  · have htold := ((hinv.returned w hw).told v hv).resolve_left List.not_mem_nil
    obtain hinvept | hflushing | hflush := htold.asked
    · exact .inl hinvept
    · exact absurd (hguest.symm.trans hflushing) (by decide)
    · exact (htold.signal (.inr hguest)).imp id fun hinit => ⟨hflush, hinit⟩
  · obtain ⟨b, hb⟩ | ⟨-, hkept⟩ := FlushState.step_vcpu hstep v
    · exact FlushVcpu.flush_cleared hb hflush hclear
    · exact absurd ((hkept hflush).symm.trans hclear) (by decide)
  · obtain ⟨b, hb⟩ | ⟨hkept, -⟩ := FlushState.step_vcpu hstep v
    · exact .inr (FlushVcpu.step_flushing hb hpc)
    · exact .inl (hkept.trans hpc)

/-- A vCPU edits the tables while another one is in guest mode, which is interrupted. -/
theorem no_ept_edit_missed_interrupts : ∃ s : FlushState Bool,
    Reach (flushSystem [false, true]) any s ∧ 1 ∈ s.returned ∧
      (s.vcpu true).cpu.pc = .guest ∧ (s.vcpu true).invepted = 0 ∧
      (s.vcpu true).flush = true ∧ (s.vcpu true).cpu.initPending = true := by
  have hstart : Reach (flushSystem [false, true]) any (.start : FlushState Bool) := .init rfl
  have hreach := hstart.foldlM ([false, true].flatMap (fun v => [.call v .launchVcpu false,
    .pcpu v .schedule, .pcpu v .switchIn, .pcpu v .noReschedule, .pcpu v (.handleRequests false),
    .pcpu v .entry]) ++ [.pcpu false (.exit false), .lockEpt false, .writeTable false,
    .unlockEpt false, .makeRequest false, .kickVcpu false, .makeRequest false, .kickVcpu false,
    .editReturns false]) rfl
  have hseen := (no_ept_edit_missed _ hreach).1 1 (by decide) true (by decide) rfl
  exact ⟨_, hreach, by decide, rfl, rfl, hseen.resolve_left (by decide)⟩

end Acrn
