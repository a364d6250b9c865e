import Acrn.Schedule
import Acrn.VcpuRun
import Mathlib.Tactic.IntervalCases

/-!
# Writes to the interrupt command register

`vlapic_x2apic_pt_icr_access` over all the virtual machines and the schedulers of all the
pCPUs. A fixed interrupt or an NMI goes out with its destination translated; INIT and
start-up requests are carried out on the vCPU they are for. The hypervisor interrupts a
pCPU with an INIT of its own when it has to reschedule.
-/

namespace Acrn

/-! ## The machine -/

/-- The number of a pCPU. -/
abbrev PcpuId : Type := Fin maxPcpuNum

/-- `enum vcpu_state`. -/
inductive VcpuState where
  | offline
  | init
  | running
  | zombie
  deriving DecidableEq

/-- `struct acrn_vcpu`, as far as its life goes. -/
structure AcrnVcpu where
  arch : Vcpu
  state : VcpuState
  prevState : VcpuState
  nrSipi : BitVec 8
  launched : Bool
  running : Bool
  /-- the pCPU of its thread -/
  pcpuId : PcpuId
  csSelector : BitVec 16
  csBase : Word
  rip : Word

/-- `reset_vcpu_regs`, for the registers that a vCPU starts from. -/
def AcrnVcpu.resetVcpuRegs (v : AcrnVcpu) : AcrnVcpu :=
  { v with csSelector := 0xf000#16, csBase := 0xFFFF0000#64, rip := 0xFFF0#64 }

/-- `reset_vcpu` on the vCPU itself. -/
def AcrnVcpu.reset (v : AcrnVcpu) (i : ℕ) : AcrnVcpu :=
  { v with
    arch := Acrn.resetVcpu v.arch (BitVec.ofNat 32 i)
    state := .init
    launched := false
    running := false
    nrSipi := 0#8 }.resetVcpuRegs

/-- The thread of a vCPU of a virtual machine, or the idle thread. -/
abbrev Thread : Type := Option (ℕ × ℕ)

/-- All virtual machines, whose vCPUs have the numbers of their places, and all pCPUs. -/
structure Machine where
  createdVcpus : ℕ → ℕ
  created_le : ∀ vm, createdVcpus vm ≤ maxPcpuNum
  vcpu : ℕ → ℕ → AcrnVcpu
  sched : PcpuId → SchedControl Thread
  /-- the APIC IDs of the pCPUs -/
  lapicId : PcpuId → U32
  /-- the values written to the physical ICR, in order -/
  icrWrites : List Word

namespace Machine

variable (m : Machine) (vm i : ℕ)

/-- A change of one vCPU. -/
def updateVcpu (f : AcrnVcpu → AcrnVcpu) : Machine :=
  { m with vcpu := Function.update m.vcpu vm (Function.update (m.vcpu vm) i (f (m.vcpu vm i))) }

/-- A write to the physical ICR. -/
def writeIcr (val : Word) : Machine := { m with icrWrites := m.icrWrites ++ [val] }

/-- The physical ICR for a destination. -/
def icrValue (dest low : U32) : Word := dest.setWidth 64 <<< 32 ||| low.setWidth 64

/-- `send_single_init`. -/
def sendSingleInit (pcpuId : PcpuId) : Machine := m.writeIcr (icrValue (m.lapicId pcpuId) 0x500#32)

/-- A call on the scheduler of a vCPU. -/
def callScheduler (call : SchedControl Thread → SchedControl Thread × Bool) : Machine :=
  let pcpuId := (m.vcpu vm i).pcpuId
  let (ctl, init) := call (m.sched pcpuId)
  let m := { m with sched := Function.update m.sched pcpuId ctl }
  if init then m.sendSingleInit pcpuId else m

/-- Whether the vCPU belongs to the pCPU that the call comes from. -/
def here (cur : PcpuId) : Bool := decide (cur = (m.vcpu vm i).pcpuId)

/-- `kick_vcpu`. -/
def kickVcpu (cur : PcpuId) : Machine :=
  m.callScheduler vm i fun ctl => ctl.kickThread (some (vm, i)) (m.here vm i cur)

/-- `vcpu_make_request`. -/
def vcpuMakeRequest (cur : PcpuId) (eventid : Request) : Machine :=
  (m.updateVcpu vm i fun v => { v with arch := Acrn.vcpuMakeRequest v.arch eventid }).kickVcpu vm i
    cur

/-- `pause_vcpu`, which waits for the vCPU to leave its pCPU. -/
def pauseVcpu (cur : PcpuId) : Machine :=
  let v := m.vcpu vm i
  if v.state = .running ∨ v.state = .init then
    let m := m.updateVcpu vm i fun v => { v with prevState := v.state, state := .zombie }
    if v.state = .running then
      m.callScheduler vm i fun ctl => ctl.sleepThread (some (vm, i)) (m.here vm i cur)
    else m
  else m

/-- `reset_vcpu`. -/
def resetVcpu (cur : PcpuId) : Machine := (m.updateVcpu vm i (·.reset i)).kickVcpu vm i cur

/-- `set_vcpu_startup_entry`. -/
def setVcpuStartupEntry (entry : Word) : Machine :=
  m.updateVcpu vm i fun v => { v with
    csSelector := (entry >>> 4).setWidth 16
    csBase := ((entry >>> 4).setWidth 16).setWidth 64 <<< 4
    rip := 0#64 }

/-- `launch_vcpu`. -/
def launchVcpu (cur : PcpuId) : Machine :=
  let m := m.updateVcpu vm i fun v => { v with state := .running }
  m.callScheduler vm i fun ctl => ctl.wakeThread (some (vm, i)) (m.here vm i cur)

/-- `APIC_DELMODE_MASK` and the modes. -/
def apicDelmodeMask : U32 := 0x700#32
def apicDelmodeFixed : U32 := 0x000#32
def apicDelmodeLowpr : U32 := 0x100#32
def apicDelmodeSmi : U32 := 0x200#32
def apicDelmodeReserved1 : U32 := 0x300#32
def apicDelmodeNmi : U32 := 0x400#32
def apicDelmodeInit : U32 := 0x500#32
def apicDelmodeStartup : U32 := 0x600#32
def apicDelmodeReserved2 : U32 := 0x700#32
def apicDestmodeLog : U32 := 0x800#32
def apicDestMask : U32 := 0xc0000#32
def apicVectorMask : U32 := 0xff#32

/-- `vlapic_process_init_sipi`. -/
def vlapicProcessInitSipi (cur : PcpuId) (mode icrLow : U32) : Machine :=
  if i ≠ 0 then
    if mode = apicDelmodeInit then
      let m := (m.pauseVcpu vm i cur).resetVcpu vm i cur
      m.updateVcpu vm i fun v => { v with nrSipi := 1#8 }
    else if mode = apicDelmodeStartup then
      if (m.vcpu vm i).state = .init ∧ (m.vcpu vm i).nrSipi ≠ 0#8 then
        let m := m.updateVcpu vm i fun v => { v with nrSipi := v.nrSipi - 1#8 }
        let m := m.setVcpuStartupEntry vm i ((icrLow &&& apicVectorMask).setWidth 64 <<< 12)
        let m := m.vcpuMakeRequest vm i cur .initVmcs
        m.launchVcpu vm i cur
      else m
    else m
  else m

/-- `vm_apicid2vcpu_id`; `INVALID_CPU_ID` is none. -/
def vmApicid2vcpuId (lapicid : U32) : Option ℕ :=
  (List.range (m.createdVcpus vm)).find? fun i =>
    decide ((m.vcpu vm i).state ≠ .offline) && decide ((m.vcpu vm i).arch.lapic.id = lapicid)

/-- `vlapic_x2apic_pt_icr_access`. -/
def vlapicX2apicPtIcrAccess (cur : PcpuId) (val : Word) : ℤ × Machine :=
  let vapicId := (val >>> 32).setWidth 32
  let icrLow := val.setWidth 32
  let mode := icrLow &&& apicDelmodeMask
  if icrLow &&& icrReservedBits ≠ 0#32 then (-1, m)
  else if icrLow &&& apicDestmodeLog ≠ 0#32 ∨ icrLow &&& apicDestMask ≠ 0#32 then (0, m)
  else
    match m.vmApicid2vcpuId vm vapicId with
    | none => (0, m)
    | some target =>
      if target < m.createdVcpus vm ∧ (m.vcpu vm target).state ≠ .offline then
        if mode = apicDelmodeInit ∨ mode = apicDelmodeStartup then
          (0, m.vlapicProcessInitSipi vm target cur mode icrLow)
        else if mode = apicDelmodeLowpr ∨ mode = apicDelmodeSmi ∨ mode = apicDelmodeReserved1 ∨
            mode = apicDelmodeReserved2 then (0, m)
        else (0, m.writeIcr (icrValue (m.lapicId (m.vcpu vm target).pcpuId) icrLow))
      else (0, m)

/-- The writer's copy of the ICR. -/
def cacheIcr (val : Word) : Machine :=
  m.updateVcpu vm i fun v => { v with arch := (vlapicX2apicWrite v.arch msrIa32ExtApicIcr val).2 }

/-- `vlapic_x2apic_write` of the ICR by a vCPU on its own pCPU. -/
def vlapicX2apicWriteIcr (val : Word) : ℤ × Machine :=
  (m.cacheIcr vm i val).vlapicX2apicPtIcrAccess vm (m.vcpu vm i).pcpuId val

end Machine

/-! ## What reaches other vCPUs

`OnlyVcpu` is the frame of everything that is done for one vCPU: all other vCPUs and threads, and
all other pCPUs, are as before. -/

/-- The INIT by which the hypervisor interrupts a pCPU. -/
def initNotification (lapicId : U32) : Word := Machine.icrValue lapicId 0x500#32

/-- Only one vCPU and its thread change, and only its pCPU is interrupted. -/
structure OnlyVcpu (vm t : ℕ) (m m' : Machine) : Prop where
  createdVcpus : m'.createdVcpus = m.createdVcpus
  lapicId : m'.lapicId = m.lapicId
  pcpuId : (m'.vcpu vm t).pcpuId = (m.vcpu vm t).pcpuId
  vcpu : ∀ v i, ¬ (v = vm ∧ i = t) → m'.vcpu v i = m.vcpu v i
  sched : ∀ p, p ≠ (m.vcpu vm t).pcpuId → m'.sched p = m.sched p
  thread : ∀ p th, th ≠ some (vm, t) → (m'.sched p).status th = (m.sched p).status th
  slot : ∀ p th, th ≠ some (vm, t) → (m.sched p).noopThreadObj = some th →
    (m'.sched p).noopThreadObj = some th
  currObj : ∀ p, (m'.sched p).currObj = (m.sched p).currObj
  icrWrites : ∃ n, m'.icrWrites =
    m.icrWrites ++ List.replicate n (initNotification (m.lapicId (m.vcpu vm t).pcpuId))

/-- A call that changes only one thread. -/
structure OnlyThread (th : Thread) (ctl ctl' : SchedControl Thread) : Prop where
  status : ∀ t, t ≠ th → ctl'.status t = ctl.status t
  slot : ∀ t, t ≠ th → ctl.noopThreadObj = some t → ctl'.noopThreadObj = some t
  currObj : ctl'.currObj = ctl.currObj

namespace OnlyThread

variable {th : Thread} {ctl : SchedControl Thread} (here : Bool)

theorem kickThread : OnlyThread th ctl (ctl.kickThread th here).1 := by
  rw [SchedControl.kickThread]
  split
  · exact ⟨fun _ _ => rfl, fun _ _ h => h, rfl⟩
  · split
    · exact ⟨fun _ _ => rfl, fun _ _ h => h, rfl⟩
    · exact ⟨fun _ _ => rfl, fun _ _ h => h, rfl⟩

theorem sleepThread : OnlyThread th ctl (ctl.sleepThread th here).1 := by
  refine ⟨fun t ht => ?_, fun t ht hslot => ?_, ?_⟩
  · rw [SchedControl.sleepThread_status, if_neg ht]
  · rw [SchedControl.sleepThread]
    dsimp only
    split <;> simp [SchedControl.makeRescheduleRequest, hslot, ht]
  · rw [SchedControl.sleepThread]
    dsimp only
    split <;> simp [SchedControl.makeRescheduleRequest]

theorem wakeThread : OnlyThread th ctl (ctl.wakeThread th here).1 := by
  refine ⟨fun t ht => ?_, fun t ht hslot => ?_, ?_⟩
  · rw [SchedControl.wakeThread_status, if_neg (fun h => ht h.1)]
  · rw [SchedControl.wakeThread]
    split <;> simp [SchedControl.makeRescheduleRequest, hslot]
  · rw [SchedControl.wakeThread]
    split <;> simp [SchedControl.makeRescheduleRequest]

end OnlyThread

namespace OnlyVcpu

variable {vm t : ℕ} {m m₁ m₂ : Machine}

theorem refl (m : Machine) : OnlyVcpu vm t m m :=
  ⟨rfl, rfl, rfl, fun _ _ _ => rfl, fun _ _ => rfl, fun _ _ _ => rfl, fun _ _ _ h => h, fun _ => rfl,
    0, by simp⟩

theorem trans (h : OnlyVcpu vm t m m₁) (h' : OnlyVcpu vm t m₁ m₂) : OnlyVcpu vm t m m₂ := by
  obtain ⟨n, hn⟩ := h.icrWrites
  obtain ⟨n', hn'⟩ := h'.icrWrites
  refine ⟨h'.createdVcpus.trans h.createdVcpus, h'.lapicId.trans h.lapicId,
    h'.pcpuId.trans h.pcpuId, fun v i hne => (h'.vcpu v i hne).trans (h.vcpu v i hne),
    fun p hp => ?_, fun p th hth => (h'.thread p th hth).trans (h.thread p th hth),
    fun p th hth hslot => h'.slot p th hth (h.slot p th hth hslot),
    fun p => (h'.currObj p).trans (h.currObj p), n + n', ?_⟩
  · exact (h'.sched p (by rwa [h.pcpuId])).trans (h.sched p hp)
  · rw [hn', hn, h.pcpuId, h.lapicId, List.append_assoc, List.replicate_append_replicate]

theorem updateVcpu {f : AcrnVcpu → AcrnVcpu} (hf : ∀ v, (f v).pcpuId = v.pcpuId) :
    OnlyVcpu vm t m (m.updateVcpu vm t f) := by
  refine ⟨rfl, rfl, ?_, fun v i hne => ?_, fun _ _ => rfl, fun _ _ _ => rfl, fun _ _ _ h => h,
    fun _ => rfl, 0, by simp [Machine.updateVcpu]⟩
  · simp [Machine.updateVcpu, hf]
  · rw [Machine.updateVcpu]
    dsimp only
    by_cases hv : v = vm
    · subst hv
      rw [Function.update_self, Function.update_of_ne (fun hi => hne ⟨rfl, hi⟩)]
    · rw [Function.update_of_ne hv]

theorem callScheduler {call : SchedControl Thread → SchedControl Thread × Bool}
    (hcall : ∀ ctl, OnlyThread (some (vm, t)) ctl (call ctl).1) :
    OnlyVcpu vm t m (m.callScheduler vm t call) := by
  have hsched : (m.callScheduler vm t call).sched = Function.update m.sched (m.vcpu vm t).pcpuId
      (call (m.sched (m.vcpu vm t).pcpuId)).1 := by
    rw [Machine.callScheduler]
    dsimp only
    split <;> rfl
  have hkeep : (m.callScheduler vm t call).vcpu = m.vcpu ∧
      (m.callScheduler vm t call).lapicId = m.lapicId ∧
      (m.callScheduler vm t call).createdVcpus = m.createdVcpus := by
    rw [Machine.callScheduler]
    dsimp only
    split <;> exact ⟨rfl, rfl, rfl⟩
  obtain ⟨hvcpu, hlapic, hcreated⟩ := hkeep
  refine ⟨hcreated, hlapic, by rw [hvcpu], fun v i _ => by rw [hvcpu], fun p hp => ?_,
    fun p th hth => ?_, fun p th hth hslot => ?_, fun p => ?_, ?_⟩
  · rw [hsched, Function.update_of_ne hp]
  · rw [hsched, Function.update_apply]
    split
    · next hp => rw [(hcall _).status th hth, hp]
    · rfl
  · rw [hsched, Function.update_apply]
    split
    · next hp => exact (hcall _).slot th hth (hp ▸ hslot)
    · exact hslot
  · rw [hsched, Function.update_apply]
    split
    · next hp => rw [(hcall _).currObj, hp]
    · rfl
  · -- a request from another pCPU is sent once
    rw [Machine.callScheduler]
    dsimp only
    split
    · exact ⟨1, rfl⟩
    · exact ⟨0, by simp⟩

/-- A change of the vCPU, and what comes after it. -/
theorem after_update {f : AcrnVcpu → AcrnVcpu} (h : OnlyVcpu vm t (m.updateVcpu vm t f) m₂)
    (hf : ∀ v, (f v).pcpuId = v.pcpuId) : OnlyVcpu vm t m m₂ :=
  (updateVcpu hf).trans h

variable (cur : PcpuId)

theorem kickVcpu : OnlyVcpu vm t m (m.kickVcpu vm t cur) :=
  callScheduler fun _ => .kickThread _

theorem vcpuMakeRequest (eventid : Request) :
    OnlyVcpu vm t m (m.vcpuMakeRequest vm t cur eventid) :=
  after_update (kickVcpu cur) fun _ => rfl

theorem pauseVcpu : OnlyVcpu vm t m (m.pauseVcpu vm t cur) := by
  rw [Machine.pauseVcpu]
  dsimp only
  split
  · split
    · exact after_update (callScheduler fun _ => .sleepThread _) fun _ => rfl
    · exact updateVcpu fun _ => rfl
  · exact refl m

theorem resetVcpu : OnlyVcpu vm t m (m.resetVcpu vm t cur) :=
  after_update (kickVcpu cur) fun _ => rfl

theorem launchVcpu : OnlyVcpu vm t m (m.launchVcpu vm t cur) :=
  after_update (callScheduler fun _ => .wakeThread _) fun _ => rfl

/-- INIT and start-up requests change only the vCPU that they are for. -/
theorem vlapicProcessInitSipi (mode icrLow : U32) :
    OnlyVcpu vm t m (m.vlapicProcessInitSipi vm t cur mode icrLow) := by
  rw [Machine.vlapicProcessInitSipi]
  split
  swap
  · exact refl m
  split
  · -- INIT
    exact ((pauseVcpu cur).trans (resetVcpu cur)).trans (updateVcpu (f := _) fun _ => rfl)
  split
  swap
  · exact refl m
  split
  swap
  · exact refl m
  · -- the start-up request that is waited for
    refine .trans ?_ (launchVcpu cur)
    refine .trans ?_ (vcpuMakeRequest cur .initVmcs)
    exact after_update (updateVcpu fun _ => rfl) fun _ => rfl

end OnlyVcpu

/-! ## The isolation of interrupts

Of the eight delivery modes two go out on the wire, two are carried out on the target, and the
others do nothing. `IcrEffect` has a case for each of these. -/

/-- A vCPU that is there and has the virtual APIC ID of a value's destination. -/
structure IcrTarget (m : Machine) (vm t : ℕ) (val : Word) : Prop where
  created : t < m.createdVcpus vm
  online : (m.vcpu vm t).state ≠ .offline
  apicId : (m.vcpu vm t).arch.lapic.id = (val >>> 32).setWidth 32

/-- A value of the ICR with no reserved bit, no shorthand and a physical destination. -/
structure IcrPhysical (val : Word) : Prop where
  reserved : val.setWidth 32 &&& icrReservedBits = 0#32
  destMode : val.setWidth 32 &&& Machine.apicDestmodeLog = 0#32
  shorthand : val.setWidth 32 &&& Machine.apicDestMask = 0#32

/-- The delivery mode of a value of the ICR. -/
def icrMode (val : Word) : U32 := val.setWidth 32 &&& Machine.apicDelmodeMask

/-- What a write to the ICR does besides the writer's own copy. -/
inductive IcrEffect (m : Machine) (vm : ℕ) (val : Word) : Machine → Prop where
  /-- nothing -/
  | ignored : IcrEffect m vm val m
  /-- a fixed interrupt or an NMI to the pCPU of the target -/
  | sent (t : ℕ) : IcrTarget m vm t val → IcrPhysical val →
      icrMode val = Machine.apicDelmodeFixed ∨ icrMode val = Machine.apicDelmodeNmi →
      IcrEffect m vm val
        (m.writeIcr (Machine.icrValue (m.lapicId (m.vcpu vm t).pcpuId) (val.setWidth 32)))
  /-- INIT or a start-up request to a target that is not the first vCPU -/
  | carriedOut (t : ℕ) {m' : Machine} : IcrTarget m vm t val → IcrPhysical val → t ≠ 0 →
      icrMode val = Machine.apicDelmodeInit ∨ icrMode val = Machine.apicDelmodeStartup →
      OnlyVcpu vm t m m' → IcrEffect m vm val m'

/-- The eight delivery modes. -/
theorem icrMode_cases (val : Word) :
    icrMode val = Machine.apicDelmodeFixed ∨ icrMode val = Machine.apicDelmodeLowpr ∨
    icrMode val = Machine.apicDelmodeSmi ∨ icrMode val = Machine.apicDelmodeReserved1 ∨
    icrMode val = Machine.apicDelmodeNmi ∨ icrMode val = Machine.apicDelmodeInit ∨
    icrMode val = Machine.apicDelmodeStartup ∨ icrMode val = Machine.apicDelmodeReserved2 := by
  -- the field has three bits
  have hbits : ∀ low : U32, low &&& 0x700#32 = (low.extractLsb' 8 3).setWidth 32 <<< 8 := by
    intro low
    ext i hi
    simp only [BitVec.getElem_and, BitVec.getElem_shiftLeft]
    interval_cases i <;> simp
  have hall : ∀ mode : BitVec 3, mode.setWidth 32 <<< 8 = Machine.apicDelmodeFixed ∨
      mode.setWidth 32 <<< 8 = Machine.apicDelmodeLowpr ∨
      mode.setWidth 32 <<< 8 = Machine.apicDelmodeSmi ∨
      mode.setWidth 32 <<< 8 = Machine.apicDelmodeReserved1 ∨
      mode.setWidth 32 <<< 8 = Machine.apicDelmodeNmi ∨
      mode.setWidth 32 <<< 8 = Machine.apicDelmodeInit ∨
      mode.setWidth 32 <<< 8 = Machine.apicDelmodeStartup ∨
      mode.setWidth 32 <<< 8 = Machine.apicDelmodeReserved2 := by decide
  rw [icrMode, Machine.apicDelmodeMask, hbits]
  exact hall _

/-- The vCPU that a destination stands for. -/
theorem vmApicid2vcpuId_eq_some {m : Machine} {vm t : ℕ} {val : Word}
    (h : m.vmApicid2vcpuId vm ((val >>> 32).setWidth 32) = some t) : IcrTarget m vm t val := by
  have hmem := List.mem_of_find?_eq_some h
  have hfound := List.find?_some h
  rw [Bool.and_eq_true, decide_eq_true_eq, decide_eq_true_eq] at hfound
  exact ⟨List.mem_range.mp hmem, hfound.1, hfound.2⟩

theorem vlapicX2apicPtIcrAccess_effect (m : Machine) (vm : ℕ) (cur : PcpuId) (val : Word) :
    IcrEffect m vm val (m.vlapicX2apicPtIcrAccess vm cur val).2 := by
  rw [Machine.vlapicX2apicPtIcrAccess]
  by_cases hres : val.setWidth 32 &&& icrReservedBits = 0#32
  swap
  · rw [if_pos hres]
    exact .ignored
  rw [if_neg (not_not.mpr hres)]
  by_cases hdest : val.setWidth 32 &&& Machine.apicDestmodeLog ≠ 0#32 ∨
      val.setWidth 32 &&& Machine.apicDestMask ≠ 0#32
  · rw [if_pos hdest]
    exact .ignored
  rw [if_neg hdest]
  have hphys : IcrPhysical val :=
    ⟨hres, not_not.mp (not_or.mp hdest).1, not_not.mp (not_or.mp hdest).2⟩
  cases hfind : m.vmApicid2vcpuId vm ((val >>> 32).setWidth 32) with
  | none => exact .ignored
  | some t =>
    have htarget := vmApicid2vcpuId_eq_some hfind
    dsimp only
    rw [if_pos ⟨htarget.created, htarget.online⟩]
    have hmode := icrMode_cases val
    rw [icrMode] at hmode
    split
    · next hinit =>
      by_cases ht : t = 0
      · -- the first vCPU is started by the hypervisor alone
        rw [ht, Machine.vlapicProcessInitSipi, if_neg (fun h => h rfl)]
        exact .ignored
      · exact .carriedOut t htarget hphys ht hinit (.vlapicProcessInitSipi cur _ _)
    · next hinit =>
      split
      · exact .ignored
      · next hother =>
        refine .sent t htarget hphys ?_
        rw [icrMode]
        tauto

theorem vlapicX2apicPtIcrAccess_ret (m : Machine) (vm : ℕ) (cur : PcpuId) (val : Word) :
    (m.vlapicX2apicPtIcrAccess vm cur val).1 = icrAccessRet val := by
  rw [Machine.vlapicX2apicPtIcrAccess, icrAccessRet]
  split
  · rfl
  split
  · rfl
  split
  · rfl
  · split_ifs <;> rfl

/-- **A write to the ICR stays in its virtual machine**: for every state, every vCPU and
every value. -/
theorem icr_write_isolated (m : Machine) (vm i : ℕ) (val : Word) :
    (m.vlapicX2apicWriteIcr vm i val).1 = icrAccessRet val ∧
      IcrEffect (m.cacheIcr vm i val) vm val (m.vlapicX2apicWriteIcr vm i val).2 :=
  ⟨vlapicX2apicPtIcrAccess_ret _ _ _ _, vlapicX2apicPtIcrAccess_effect _ _ _ _⟩

/-- Two vCPUs that run, each on the pCPU of its number. -/
def twoVcpus : Machine where
  createdVcpus := fun _ => 2
  created_le := fun _ => by decide
  vcpu := fun _ i => {
    arch := vlapicReset (Vcpu.cleared ⟨0#64, 0#64⟩) (BitVec.ofNat 32 i)
    state := .running
    prevState := .init
    nrSipi := 0#8
    launched := true
    running := true
    pcpuId := Fin.ofNat maxPcpuNum i
    csSelector := 0#16
    csBase := 0#64
    rip := 0#64 }
  sched := fun p => {
    needReschedule := false
    currObj := some (some (0, p.val))
    noopThreadObj := some (some (0, p.val))
    status := fun th => if th = some (0, p.val) then some .running else some .runnable }
  lapicId := fun p => BitVec.ofNat 32 (2 * p.val)
  icrWrites := []

/-- An INIT for the second vCPU interrupts its pCPU with an INIT of the hypervisor, and the
writer's copy of the ICR has changed. -/
theorem init_request_on_wire :
    (twoVcpus.vlapicX2apicWriteIcr 0 0 0x100000500#64).2.icrWrites = [0x200000500#64] ∧
      ((twoVcpus.vlapicX2apicWriteIcr 0 0 0x800#64).2.vcpu 0 0).arch.lapic.icrLo ≠
        (twoVcpus.vcpu 0 0).arch.lapic.icrLo := by
  decide

end Acrn
