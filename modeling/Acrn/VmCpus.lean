import Acrn.IntrRemap

/-!
# Virtual machines on their pCPUs

The vCPUs of a virtual machine are prepared on the pCPUs of its configuration, and `shutdown_vm`
takes them and the pCPUs off line. What the vCPUs do in between, and what the schedulers do,
leaves it at that which vCPUs there are, and on which pCPUs.
-/

namespace Acrn

/-- The part of `struct per_cpu_region` that the life of virtual machines depends on. -/
structure PerCpuRegion where
  /-- the bit `NEED_OFFLINE` of `pcpu_flag` -/
  needOffline : Bool
  /-- the bit `NEED_SHUTDOWN_VM` of it -/
  needShutdownVm : Bool
  shutdownVmId : ℕ
  everRunVcpu : Option (ℕ × ℕ)
  /-- `boot_state` is `PCPU_STATE_RUNNING` -/
  running : Bool

/-- All virtual machines and the per-CPU regions. -/
structure VmCpus extends Machine where
  perCpu : PcpuId → PerCpuRegion

/-- A pCPU that sees `need_offline` calls `cpu_dead`. -/
def PerCpuRegion.goOffline (r : PerCpuRegion) : PerCpuRegion :=
  if r.needOffline = true then { r with needOffline := false, running := false } else r

namespace Machine

variable (m : Machine) (vm : ℕ)

theorem created_update {k : ℕ} (hk : k ≤ maxPcpuNum) (v : ℕ) :
    Function.update m.createdVcpus vm k v ≤ maxPcpuNum := by
  by_cases hv : v = vm
  · subst hv
    rwa [Function.update_self]
  · rw [Function.update_of_ne hv]
    exact m.created_le v

/-- `vm->hw.created_vcpus` is set. -/
def setCreated (k : ℕ) (hk : k ≤ maxPcpuNum) : Machine :=
  { m with
    createdVcpus := Function.update m.createdVcpus vm k
    created_le := m.created_update vm hk }

/-- The vCPU that `create_vcpu` makes, on a pCPU with the MSRs `msrs`. -/
def createdVcpu (i : ℕ) (pcpuId : PcpuId) (msrs : PcpuMsrs) : AcrnVcpu where
  arch := createVcpu (BitVec.ofNat 32 i) msrs
  state := .init
  prevState := .offline
  nrSipi := 0#8
  launched := false
  running := false
  pcpuId := pcpuId
  csSelector := 0xf000#16
  csBase := 0xFFFF0000#64
  rip := 0xFFF0#64

/-- `get_pcpu_bitmap`. -/
def getPcpuBitmap : Word :=
  (List.range (m.createdVcpus vm)).foldl (fun bitmap i =>
    if (m.vcpu vm i).state ≠ .offline then bitmapSetNolock (m.vcpu vm i).pcpuId bitmap
    else bitmap) 0#64

end Machine

namespace VmCpus

variable (c : VmCpus) (vm i : ℕ) (cur p : PcpuId)

/-- A change of the virtual machines and the schedulers. -/
def onMachine (f : Machine → Machine) : VmCpus := { c with toMachine := f c.toMachine }

/-- A change of one per-CPU region. -/
def updatePcpu (f : PerCpuRegion → PerCpuRegion) : VmCpus :=
  { c with perCpu := Function.update c.perCpu p (f (c.perCpu p)) }

/-- `prepare_vcpu`. -/
def prepareVcpu (msrs : PcpuId → PcpuMsrs) : VmCpus :=
  let vcpuId := c.createdVcpus vm
  if h : vcpuId < maxPcpuNum then
    let c := c.updatePcpu p fun r => { r with everRunVcpu := some (vm, vcpuId) }
    let c := c.onMachine (·.updateVcpu vm vcpuId fun _ => Machine.createdVcpu vcpuId p (msrs p))
    let c := c.onMachine (·.setCreated vm (vcpuId + 1) h)
    { c with sched := Function.update c.sched p ((c.sched p).initThreadData (some (vm, vcpuId))) }
  else c

/-- `offline_vcpu`. -/
def offlineVcpu : VmCpus :=
  let c := c.updatePcpu (c.vcpu vm i).pcpuId fun r => { r with everRunVcpu := none }
  c.onMachine (·.updateVcpu vm i fun v => { v with state := .offline })

/-- `foreach_vcpu`. -/
def foreachVcpu (body : ℕ → VmCpus → VmCpus) : VmCpus :=
  (List.range (c.createdVcpus vm)).foldl
    (fun c i => if (c.vcpu vm i).state ≠ .offline then body i c else c) c

/-- `make_pcpu_offline`. -/
def makePcpuOffline : VmCpus :=
  let c := c.updatePcpu p fun r => { r with needOffline := true }
  if cur ≠ p then c.onMachine (·.sendSingleInit p) else c

/-- `make_shutdown_vm_request`. -/
def makeShutdownVmRequest : VmCpus :=
  let c := c.updatePcpu p fun r => { r with needShutdownVm := true }
  if cur ≠ p then c.onMachine (·.sendSingleInit p) else c

/-- `wait_pcpus_offline`, for the pCPUs in the mask. Those that are `gone` have seen their flag
when the wait is over, at its end or for the timeout. -/
def waitPcpusOffline (mask : Word) (gone : PcpuId → Bool) : VmCpus :=
  { c with perCpu := fun p =>
      if mask.getLsbD p = true ∧ gone p = true then (c.perCpu p).goOffline else c.perCpu p }

/-- The flag `running` of the vCPU of a thread, as its callbacks set it. -/
def setRunning (obj : Option Thread) (running : Bool) : VmCpus :=
  match obj with
  | some (some (vm, i)) => c.onMachine (·.updateVcpu vm i fun v => { v with running })
  | _ => c

/-- `schedule` on a pCPU, which calls `context_switch_out` and `context_switch_in`. -/
def schedule : Option VmCpus :=
  match (c.sched p).schedule none with
  | none => none
  | some ctl =>
    let prev := (c.sched p).currObj
    let c := { c with sched := Function.update c.sched p ctl }
    some (if prev = ctl.currObj then c else (c.setRunning prev false).setRunning ctl.currObj true)

/-- The part of `pause_vm` that concerns the vCPUs. -/
def pauseVcpus : VmCpus := c.foreachVcpu vm fun i c => c.onMachine (·.pauseVcpu vm i cur)

/-- The part of `start_vm` that concerns the first vCPU. -/
def startVcpu : VmCpus :=
  (c.onMachine (·.vcpuMakeRequest vm 0 cur .initVmcs)).onMachine (·.launchVcpu vm 0 cur)

/-- The body of the loop of `shutdown_vm`. -/
def shutdownVcpu (mask : Word) : VmCpus :=
  let c := (c.onMachine (·.resetVcpu vm i cur)).offlineVcpu vm i
  if mask.getLsbD (c.vcpu vm i).pcpuId = true then c.makePcpuOffline cur (c.vcpu vm i).pcpuId
  else c

/-- The part of `shutdown_vm` that concerns the vCPUs and the pCPUs. -/
def shutdownVcpus (gone : PcpuId → Bool) : VmCpus :=
  let mask := c.getPcpuBitmap vm
  let here := mask.getLsbD cur
  let c := if here = true then c.makePcpuOffline cur cur else c
  let mask := if here = true then bitmapClearNolock cur mask else mask
  let c := c.foreachVcpu vm fun i c => c.shutdownVcpu vm i cur mask
  c.waitPcpusOffline mask gone

end VmCpus

/-! ## What stays

While a virtual machine is up its vCPUs are launched, paused, kicked and reset, from any pCPU. None
of this changes which vCPUs there are, where they are, or whether they are off line. -/

/-- There are the same vCPUs, on the same pCPUs, and none of them has gone off line. -/
structure Machine.Keeps (m m' : Machine) : Prop where
  createdVcpus : m'.createdVcpus = m.createdVcpus
  pcpuId : ∀ vm i, (m'.vcpu vm i).pcpuId = (m.vcpu vm i).pcpuId
  online : ∀ vm i, (m.vcpu vm i).state ≠ .offline → (m'.vcpu vm i).state ≠ .offline

namespace Machine.Keeps

variable {m m₁ m' : Machine} {vm i : ℕ} {cur : PcpuId}

theorem refl (m : Machine) : m.Keeps m := ⟨rfl, fun _ _ => rfl, fun _ _ h => h⟩

theorem trans (h : m.Keeps m₁) (h' : m₁.Keeps m') : m.Keeps m' :=
  ⟨h'.createdVcpus.trans h.createdVcpus, fun vm i => (h'.pcpuId vm i).trans (h.pcpuId vm i),
    fun vm i hon => h'.online vm i (h.online vm i hon)⟩

/-- A change of a vCPU as it is. -/
theorem updateVcpu_at {f : AcrnVcpu → AcrnVcpu}
    (hpcpu : (f (m.vcpu vm i)).pcpuId = (m.vcpu vm i).pcpuId)
    (honline : (m.vcpu vm i).state ≠ .offline → (f (m.vcpu vm i)).state ≠ .offline) :
    m.Keeps (m.updateVcpu vm i f) := by
  have hvcpu : ∀ v j, (m.updateVcpu vm i f).vcpu v j =
      if v = vm ∧ j = i then f (m.vcpu vm i) else m.vcpu v j := by
    intro v j
    rw [Machine.updateVcpu]
    dsimp only
    by_cases hv : v = vm
    · subst hv
      by_cases hj : j = i
      · rw [hj, if_pos ⟨rfl, rfl⟩, Function.update_self, Function.update_self]
      · rw [if_neg fun h => hj h.2, Function.update_self, Function.update_of_ne hj]
    · rw [if_neg fun h => hv h.1, Function.update_of_ne hv]
  refine ⟨rfl, fun v j => ?_, fun v j hon => ?_⟩
  · rw [hvcpu]
    split
    · next h => rw [hpcpu, h.1, h.2]
    · rfl
  · rw [hvcpu]
    split
    · next h =>
      rw [h.1, h.2] at hon
      exact honline hon
    · exact hon

/-- A change of one vCPU is harmless while it neither moves the vCPU nor takes it offline. -/
theorem updateVcpu {f : AcrnVcpu → AcrnVcpu} (hpcpu : ∀ v, (f v).pcpuId = v.pcpuId)
    (honline : ∀ v, v.state ≠ .offline → (f v).state ≠ .offline) :
    m.Keeps (m.updateVcpu vm i f) := updateVcpu_at (hpcpu _) (honline _)

/-- What does not change the virtual machines at all. -/
theorem of_vcpu (hcreated : m'.createdVcpus = m.createdVcpus) (hvcpu : m'.vcpu = m.vcpu) :
    m.Keeps m' := by
  refine ⟨hcreated, fun vm i => ?_, fun vm i hon => ?_⟩
  · rw [hvcpu]
  · rwa [hvcpu]

/-- The calls of the scheduler touch no vCPU. -/
theorem callScheduler (call : SchedControl Thread → SchedControl Thread × Bool) :
    m.Keeps (m.callScheduler vm i call) := by
  have hkeep : (m.callScheduler vm i call).createdVcpus = m.createdVcpus ∧
      (m.callScheduler vm i call).vcpu = m.vcpu := by
    rw [Machine.callScheduler]
    dsimp only
    split <;> exact ⟨rfl, rfl⟩
  exact .of_vcpu hkeep.1 hkeep.2

/-- A change of a vCPU, and what comes after it. -/
theorem after_update {f : AcrnVcpu → AcrnVcpu} (h : (m.updateVcpu vm i f).Keeps m')
    (hpcpu : ∀ v, (f v).pcpuId = v.pcpuId)
    (honline : ∀ v, v.state ≠ .offline → (f v).state ≠ .offline) : m.Keeps m' :=
  (updateVcpu hpcpu honline).trans h

theorem kickVcpu : m.Keeps (m.kickVcpu vm i cur) := callScheduler _

theorem vcpuMakeRequest (eventid : Request) : m.Keeps (m.vcpuMakeRequest vm i cur eventid) :=
  after_update kickVcpu (fun _ => rfl) fun _ hon => hon

/-- A vCPU with a state that is none of those off line. -/
theorem online_of_eq {f : AcrnVcpu → AcrnVcpu} {state : VcpuState} (hf : ∀ v, (f v).state = state)
    (hne : state ≠ .offline) (v : AcrnVcpu) (_ : v.state ≠ .offline) : (f v).state ≠ .offline := by
  rwa [hf]

theorem launchVcpu : m.Keeps (m.launchVcpu vm i cur) := by
  rw [Machine.launchVcpu]
  exact after_update (callScheduler _) (fun _ => rfl) (online_of_eq (fun _ => rfl) (by decide))

theorem resetVcpu : m.Keeps (m.resetVcpu vm i cur) :=
  after_update kickVcpu (fun _ => rfl) (online_of_eq (fun _ => rfl) (by decide))

theorem pauseVcpu : m.Keeps (m.pauseVcpu vm i cur) := by
  have honline := online_of_eq (f := fun v => { v with prevState := v.state, state := .zombie })
    (fun _ => rfl) (by decide)
  rw [Machine.pauseVcpu]
  dsimp only
  split
  · split
    · exact after_update (callScheduler _) (fun _ => rfl) honline
    · exact updateVcpu (fun _ => rfl) honline
  · exact refl m

theorem vlapicProcessInitSipi (mode icrLow : U32) :
    m.Keeps (m.vlapicProcessInitSipi vm i cur mode icrLow) := by
  rw [Machine.vlapicProcessInitSipi]
  split
  swap
  · exact refl m
  split
  · -- INIT
    exact (pauseVcpu.trans resetVcpu).trans (updateVcpu (f := _) (fun _ => rfl) fun _ hon => hon)
  split
  swap
  · exact refl m
  split
  swap
  · exact refl m
  · -- the start-up request that is waited for
    refine .trans ?_ launchVcpu
    refine .trans ?_ (vcpuMakeRequest .initVmcs)
    exact after_update (updateVcpu (fun _ => rfl) fun _ hon => hon) (fun _ => rfl) fun _ hon => hon

/-- A write to the ICR. -/
theorem vlapicX2apicWriteIcr (val : Word) : m.Keeps (m.vlapicX2apicWriteIcr vm i val).2 := by
  rw [Machine.vlapicX2apicWriteIcr]
  have hcache : m.Keeps (m.cacheIcr vm i val) := updateVcpu (fun _ => rfl) fun _ hon => hon
  refine hcache.trans ?_
  rw [Machine.vlapicX2apicPtIcrAccess]
  split
  · exact refl _
  split
  · exact refl _
  split
  · exact refl _
  split
  swap
  · exact refl _
  split
  · exact vlapicProcessInitSipi _ _
  split
  · exact refl _
  · exact .of_vcpu rfl rfl

end Machine.Keeps

namespace VmCpus

variable {c c' : VmCpus} {vm : ℕ} {cur p : PcpuId}

/-- **The loop rule.** `P` is indexed by the number of turns. -/
theorem foreachVcpu_rule {P : ℕ → VmCpus → Prop} {body : ℕ → VmCpus → VmCpus} (hstart : P 0 c)
    (hbody : ∀ i < c.createdVcpus vm, ∀ c', P i c' →
      P (i + 1) (if (c'.vcpu vm i).state ≠ .offline then body i c' else c')) :
    P (c.createdVcpus vm) (c.foreachVcpu vm body) := by
  rw [foreachVcpu]
  generalize c.createdVcpus vm = n at hbody ⊢
  induction n with
  | zero => exact hstart
  | succ n ih =>
    rw [List.range_succ, List.foldl_append, List.foldl_cons, List.foldl_nil]
    exact hbody n n.lt_succ_self _ (ih fun i hi => hbody i (hi.trans n.lt_succ_self))

theorem foreachVcpu_keeps {body : ℕ → VmCpus → VmCpus}
    (hbody : ∀ i (c : VmCpus), c.toMachine.Keeps (body i c).toMachine) :
    c.toMachine.Keeps (c.foreachVcpu vm body).toMachine := by
  refine foreachVcpu_rule (P := fun _ c' => c.toMachine.Keeps c'.toMachine) (.refl _) ?_
  intro i _ c' hkeeps
  split
  · exact hkeeps.trans (hbody i c')
  · exact hkeeps

/-- Pausing all vCPUs of a VM moves none of them and takes none offline. -/
theorem pauseVcpus_keeps : c.toMachine.Keeps (c.pauseVcpus vm cur).toMachine :=
  foreachVcpu_keeps fun _ _ => .pauseVcpu

theorem startVcpu_keeps : c.toMachine.Keeps (c.startVcpu vm cur).toMachine :=
  Machine.Keeps.trans (.vcpuMakeRequest .initVmcs) .launchVcpu

/-- `make_shutdown_vm_request` touches no vCPU. -/
theorem makeShutdownVmRequest_keeps :
    c.toMachine.Keeps (c.makeShutdownVmRequest cur p).toMachine := by
  rw [makeShutdownVmRequest]
  split
  · exact .of_vcpu rfl rfl
  · exact .refl _

theorem setRunning_keeps (obj : Option Thread) (running : Bool) :
    c.toMachine.Keeps (c.setRunning obj running).toMachine := by
  rcases obj with _ | _ | ⟨vm, i⟩
  · exact .refl _
  · exact .refl _
  · exact .updateVcpu (f := fun v => { v with running }) (fun _ => rfl) fun _ hon => hon

/-- A scheduling decision moves no vCPU and takes none offline. -/
theorem schedule_keeps (h : c.schedule p = some c') : c.toMachine.Keeps c'.toMachine := by
  rw [schedule] at h
  cases hctl : (c.sched p).schedule none with
  | none =>
    rw [hctl] at h
    cases h
  | some ctl =>
    rw [hctl] at h
    obtain rfl := Option.some.inj h
    set c₁ : VmCpus := { c with sched := Function.update c.sched p ctl }
    have hsched : c.toMachine.Keeps c₁.toMachine := .of_vcpu rfl rfl
    split
    · exact hsched
    · exact (hsched.trans (setRunning_keeps _ false)).trans (setRunning_keeps _ true)

/-! ## Preparation -/

/-- The vCPUs are on the pCPUs of their virtual machines, and those of a machine that is up are not
off line. -/
structure Inv {n : ℕ} (pcpus : Fin n → List PcpuId) (up : Fin n → Bool) (c : VmCpus) : Prop where
  placed : ∀ vm : Fin n, ∀ i < c.createdVcpus vm, (c.vcpu vm i).pcpuId ∈ pcpus vm
  online : ∀ vm : Fin n, up vm = true → ∀ i < c.createdVcpus vm, (c.vcpu vm i).state ≠ .offline

section

variable {n : ℕ} {pcpus : Fin n → List PcpuId} {up : Fin n → Bool}

/-- The invariant survives whatever moves no vCPU and takes none offline: this is the way all
operations but creation and shutdown keep it. -/
theorem Inv.keeps (h : c.Inv pcpus up) (hkeeps : c.toMachine.Keeps c'.toMachine) :
    c'.Inv pcpus up := by
  refine ⟨fun vm i hi => ?_, fun vm hvm i hi => ?_⟩
  · rw [hkeeps.createdVcpus] at hi
    rw [hkeeps.pcpuId]
    exact h.placed vm i hi
  · rw [hkeeps.createdVcpus] at hi
    exact hkeeps.online vm i (h.online vm hvm i hi)

/-- A virtual machine that is cleared has no vCPUs. -/
theorem Inv.clear (h : c.Inv pcpus up) (vm : Fin n) :
    (c.onMachine (·.setCreated vm 0 (Nat.zero_le maxPcpuNum))).Inv pcpus
      (Function.update up vm true) := by
  have hcreated : ∀ v : Fin n, v ≠ vm →
      Function.update c.createdVcpus vm 0 v = c.createdVcpus v :=
    fun v hv => Function.update_of_ne (fun heq => hv (Fin.ext heq)) ..
  refine ⟨fun v i hi => ?_, fun v hvm i hi => ?_⟩
  · replace hi : i < Function.update c.createdVcpus vm 0 v := hi
    by_cases hv : v = vm
    · subst hv
      rw [Function.update_self] at hi
      exact absurd hi (Nat.not_lt_zero i)
    · rw [hcreated v hv] at hi
      exact h.placed v i hi
  · replace hi : i < Function.update c.createdVcpus vm 0 v := hi
    by_cases hv : v = vm
    · subst hv
      rw [Function.update_self] at hi
      exact absurd hi (Nat.not_lt_zero i)
    · rw [hcreated v hv] at hi
      rw [Function.update_of_ne hv] at hvm
      exact h.online v hvm i hi

/-- One more vCPU. -/
theorem Inv.prepareVcpu (h : c.Inv pcpus up) {vm : Fin n} (hp : p ∈ pcpus vm)
    (msrs : PcpuId → PcpuMsrs) : (c.prepareVcpu vm p msrs).Inv pcpus up := by
  rw [VmCpus.prepareVcpu]
  split
  swap
  · exact h
  next hlt =>
  set k := c.createdVcpus vm with hk
  have hvcpu : ∀ v i, (Function.update c.vcpu vm (Function.update (c.vcpu vm) k
      (Machine.createdVcpu k p (msrs p)))) v i =
      if v = vm ∧ i = k then Machine.createdVcpu k p (msrs p) else c.vcpu v i := by
    intro v i
    by_cases hv : v = vm
    · subst hv
      by_cases hi : i = k
      · rw [hi, if_pos ⟨rfl, rfl⟩, Function.update_self, Function.update_self]
      · rw [if_neg fun h => hi h.2, Function.update_self, Function.update_of_ne hi]
    · rw [if_neg fun h => hv h.1, Function.update_of_ne hv]
  have hcreated : ∀ {v i : ℕ}, i < Function.update c.createdVcpus vm (k + 1) v →
      v = vm ∧ i = k ∨ i < c.createdVcpus v := by
    intro v i hi
    by_cases hv : v = vm
    · subst hv
      rw [Function.update_self] at hi
      omega
    · rw [Function.update_of_ne hv] at hi
      exact .inr hi
  refine ⟨fun v i hi => ?_, fun v hv i hi => ?_⟩
  · show ((Function.update c.vcpu vm (Function.update (c.vcpu vm) k
      (Machine.createdVcpu k p (msrs p)))) v i).pcpuId ∈ pcpus v
    rw [hvcpu]
    split
    · next heq =>
      obtain rfl := Fin.ext heq.1
      exact hp
    · next hne => exact h.placed v i ((hcreated hi).resolve_left hne)
  · show ((Function.update c.vcpu vm (Function.update (c.vcpu vm) k
      (Machine.createdVcpu k p (msrs p)))) v i).state ≠ .offline
    rw [hvcpu]
    split
    · exact fun hoff => VcpuState.noConfusion hoff
    · next hne => exact h.online v hv i ((hcreated hi).resolve_left hne)

end

/-! ## Taking off line

A turn of the loop in `shutdown_vm` is about one vCPU and its pCPU. The vCPUs are on different
pCPUs, so that no turn undoes what another one did. -/

/-- The pCPU of vCPU `i`. -/
def pcpuOf (c : VmCpus) (vm i : ℕ) : PcpuId := (c.vcpu vm i).pcpuId

/-- Only a vCPU and its pCPU change, and no pCPU that was asked to go off line is asked no more. -/
structure OnlyVcpu (vm i : ℕ) (c c' : VmCpus) : Prop where
  createdVcpus : c'.createdVcpus = c.createdVcpus
  pcpuOf : c'.pcpuOf vm i = c.pcpuOf vm i
  vcpu : ∀ v j, ¬ (v = vm ∧ j = i) → c'.vcpu v j = c.vcpu v j
  sched : ∀ p, c.pcpuOf vm i ≠ p → c'.sched p = c.sched p
  perCpu : ∀ p, c.pcpuOf vm i ≠ p → c'.perCpu p = c.perCpu p
  asked : ∀ p, (c.perCpu p).needOffline = true → (c'.perCpu p).needOffline = true

namespace OnlyVcpu

variable {c₁ : VmCpus} {i : ℕ}

theorem trans (h : OnlyVcpu vm i c c₁) (h' : OnlyVcpu vm i c₁ c') : OnlyVcpu vm i c c' := by
  refine ⟨h'.createdVcpus.trans h.createdVcpus, h'.pcpuOf.trans h.pcpuOf,
    fun v j hne => (h'.vcpu v j hne).trans (h.vcpu v j hne), fun p hp => ?_, fun p hp => ?_,
    fun p hasked => h'.asked p (h.asked p hasked)⟩
  · exact (h'.sched p (by rwa [h.pcpuOf])).trans (h.sched p hp)
  · exact (h'.perCpu p (by rwa [h.pcpuOf])).trans (h.perCpu p hp)

theorem updateVcpu {f : AcrnVcpu → AcrnVcpu} (hpcpu : ∀ v, (f v).pcpuId = v.pcpuId) :
    OnlyVcpu vm i c (c.onMachine (·.updateVcpu vm i f)) := by
  have hself : (c.onMachine (·.updateVcpu vm i f)).vcpu vm i = f (c.vcpu vm i) := by
    rw [onMachine, Machine.updateVcpu]
    dsimp only
    rw [Function.update_self, Function.update_self]
  refine ⟨rfl, ?_, fun v j hne => ?_, fun _ _ => rfl, fun _ _ => rfl, fun _ hasked => hasked⟩
  · rw [VmCpus.pcpuOf, hself, hpcpu, VmCpus.pcpuOf]
  · rw [onMachine, Machine.updateVcpu]
    dsimp only
    by_cases hv : v = vm
    · subst hv
      rw [Function.update_self, Function.update_of_ne fun hj => hne ⟨rfl, hj⟩]
    · rw [Function.update_of_ne hv]

theorem kickVcpu : OnlyVcpu vm i c (c.onMachine (·.kickVcpu vm i cur)) := by
  have hkick : (c.kickVcpu vm i cur).createdVcpus = c.createdVcpus ∧
      (c.kickVcpu vm i cur).vcpu = c.vcpu ∧
      ∀ p, c.pcpuOf vm i ≠ p → (c.kickVcpu vm i cur).sched p = c.sched p := by
    rw [Machine.kickVcpu, Machine.callScheduler]
    dsimp only
    split
    · exact ⟨rfl, rfl, fun p hp => Function.update_of_ne hp.symm ..⟩
    · exact ⟨rfl, rfl, fun p hp => Function.update_of_ne hp.symm ..⟩
  obtain ⟨hcreated, hvcpu, hsched⟩ := hkick
  exact ⟨hcreated, congrArg (fun vcpu => (vcpu vm i).pcpuId) hvcpu,
    fun v j _ => congrArg (fun vcpu => vcpu v j) hvcpu, hsched, fun _ _ => rfl,
    fun _ hasked => hasked⟩

theorem resetVcpu : OnlyVcpu vm i c (c.onMachine (·.resetVcpu vm i cur)) := by
  have hupdate : OnlyVcpu vm i c (c.onMachine (·.updateVcpu vm i (·.reset i))) :=
    updateVcpu fun _ => rfl
  exact hupdate.trans kickVcpu

/-- A change of the region of the pCPU. -/
theorem updatePcpu {f : PerCpuRegion → PerCpuRegion} (hp : c.pcpuOf vm i = p)
    (hasked : ∀ r, r.needOffline = true → (f r).needOffline = true) :
    OnlyVcpu vm i c (c.updatePcpu p f) := by
  refine ⟨rfl, rfl, fun _ _ _ => rfl, fun _ _ => rfl, fun q hq => ?_, fun q hneed => ?_⟩
  · exact Function.update_of_ne (fun heq => hq (hp.trans heq.symm)) ..
  · show (Function.update c.perCpu p (f (c.perCpu p)) q).needOffline = true
    by_cases hq : q = p
    · subst hq
      rw [Function.update_self]
      exact hasked _ hneed
    · rwa [Function.update_of_ne hq]

/-- `make_pcpu_offline` for the pCPU of a vCPU concerns no other pCPU and no other vCPU. -/
theorem makePcpuOffline (hp : c.pcpuOf vm i = p) : OnlyVcpu vm i c (c.makePcpuOffline cur p) := by
  have hflag : OnlyVcpu vm i c (c.updatePcpu p fun r => { r with needOffline := true }) :=
    updatePcpu hp fun _ _ => rfl
  rw [VmCpus.makePcpuOffline]
  split
  · exact ⟨hflag.createdVcpus, hflag.pcpuOf, hflag.vcpu, hflag.sched, hflag.perCpu, hflag.asked⟩
  · exact hflag

theorem offlineVcpu : OnlyVcpu vm i c (c.offlineVcpu vm i) := by
  have hever : OnlyVcpu vm i c
      (c.updatePcpu (c.vcpu vm i).pcpuId fun r => { r with everRunVcpu := none }) :=
    updatePcpu rfl fun _ hasked => hasked
  exact hever.trans (updateVcpu fun _ => rfl)

end OnlyVcpu

/-- After `make_pcpu_offline` the pCPU is told to go offline. -/
theorem needOffline_makePcpuOffline : ((c.makePcpuOffline cur p).perCpu p).needOffline = true := by
  have hflag : (Function.update c.perCpu p { c.perCpu p with needOffline := true } p).needOffline =
      true := by rw [Function.update_self]
  rw [makePcpuOffline]
  split
  · exact hflag
  · exact hflag

/-- After `offline_vcpu` the vCPU is offline. -/
theorem state_offlineVcpu (i : ℕ) : ((c.offlineVcpu vm i).vcpu vm i).state = .offline := by
  rw [offlineVcpu, onMachine, Machine.updateVcpu]
  dsimp only
  rw [Function.update_self, Function.update_self]

/-- **One turn** of the loop of `shutdown_vm`. -/
theorem shutdownVcpu_spec (c : VmCpus) (vm i : ℕ) (cur : PcpuId) (mask : Word) :
    OnlyVcpu vm i c (c.shutdownVcpu vm i cur mask) ∧
    ((c.shutdownVcpu vm i cur mask).vcpu vm i).state = .offline ∧
    (mask.getLsbD (c.pcpuOf vm i) = true →
      ((c.shutdownVcpu vm i cur mask).perCpu (c.pcpuOf vm i)).needOffline = true) := by
  set c₁ := (c.onMachine (·.resetVcpu vm i cur)).offlineVcpu vm i with hc₁
  have honly : OnlyVcpu vm i c c₁ := OnlyVcpu.resetVcpu.trans .offlineVcpu
  have hstate : (c₁.vcpu vm i).state = .offline := state_offlineVcpu i
  have hpcpu : (c₁.vcpu vm i).pcpuId = c.pcpuOf vm i := honly.pcpuOf
  rw [shutdownVcpu]
  rw [← hc₁, hpcpu]
  split
  · next hmask =>
    refine ⟨honly.trans (.makePcpuOffline hpcpu), ?_, fun _ => needOffline_makePcpuOffline⟩
    rw [makePcpuOffline]
    split
    · exact hstate
    · exact hstate
  · next hmask => exact ⟨honly, hstate, fun hset => absurd hset hmask⟩

/-! ### The bitmap -/

/-- The pCPUs of the vCPUs that are not off line. -/
theorem getLsbD_getPcpuBitmap (m : Machine) (vm : ℕ) (p : PcpuId) :
    (m.getPcpuBitmap vm).getLsbD p = true ↔
      ∃ i < m.createdVcpus vm, (m.vcpu vm i).state ≠ .offline ∧ (m.vcpu vm i).pcpuId = p := by
  rw [Machine.getPcpuBitmap]
  exact getLsbD_foldl_bitmapSetNolock _ _ _ p

/-! ### The whole loop

`Turns` is the loop invariant: the vCPUs before `k` are off line, and those of their pCPUs that are
in the mask have been asked to go off line. -/

/-- Only the vCPUs of one virtual machine and their pCPUs change. -/
structure OnlyVm (vm : ℕ) (c c' : VmCpus) : Prop where
  createdVcpus : c'.createdVcpus = c.createdVcpus
  pcpuOf : ∀ i, c'.pcpuOf vm i = c.pcpuOf vm i
  vcpu : ∀ v i, v ≠ vm → c'.vcpu v i = c.vcpu v i
  sched : ∀ p, (∀ i < c.createdVcpus vm, c.pcpuOf vm i ≠ p) → c'.sched p = c.sched p
  perCpu : ∀ p, (∀ i < c.createdVcpus vm, c.pcpuOf vm i ≠ p) → c'.perCpu p = c.perCpu p

namespace OnlyVm

variable {c₁ : VmCpus} {i : ℕ}

theorem refl (c : VmCpus) : OnlyVm vm c c :=
  ⟨rfl, fun _ => rfl, fun _ _ _ => rfl, fun _ _ => rfl, fun _ _ => rfl⟩

theorem trans (h : OnlyVm vm c c₁) (h' : OnlyVm vm c₁ c') : OnlyVm vm c c' := by
  have hothers : ∀ {p}, (∀ i < c.createdVcpus vm, c.pcpuOf vm i ≠ p) →
      ∀ i < c₁.createdVcpus vm, c₁.pcpuOf vm i ≠ p := by
    intro p hp i hi
    rw [h.createdVcpus] at hi
    rw [h.pcpuOf]
    exact hp i hi
  exact ⟨h'.createdVcpus.trans h.createdVcpus, fun i => (h'.pcpuOf i).trans (h.pcpuOf i),
    fun v i hv => (h'.vcpu v i hv).trans (h.vcpu v i hv),
    fun p hp => (h'.sched p (hothers hp)).trans (h.sched p hp),
    fun p hp => (h'.perCpu p (hothers hp)).trans (h.perCpu p hp)⟩

end OnlyVm

/-- What concerns one created vCPU of a VM concerns that VM only. -/
theorem OnlyVcpu.onlyVm {i : ℕ} (h : OnlyVcpu vm i c c') (hi : i < c.createdVcpus vm) :
    OnlyVm vm c c' := by
  refine ⟨h.createdVcpus, fun j => ?_, fun v j hv => h.vcpu v j fun heq => hv heq.1,
    fun p hp => h.sched p (hp i hi), fun p hp => h.perCpu p (hp i hi)⟩
  by_cases hj : j = i
  · rw [hj]
    exact h.pcpuOf
  · exact congrArg AcrnVcpu.pcpuId (h.vcpu vm j fun heq => hj heq.2)

/-- What the loop of `shutdown_vm` has done after `k` turns. -/
structure Turns (vm : ℕ) (mask : Word) (c : VmCpus) (k : ℕ) (c' : VmCpus) : Prop where
  only : OnlyVm vm c c'
  later : ∀ i, k ≤ i → c'.vcpu vm i = c.vcpu vm i
  offline : ∀ i < k, (c'.vcpu vm i).state = .offline
  kept : ∀ p, (c.perCpu p).needOffline = true → (c'.perCpu p).needOffline = true
  asked : ∀ i < k, mask.getLsbD (c.pcpuOf vm i) = true →
    (c'.perCpu (c.pcpuOf vm i)).needOffline = true

/-- The loop of `shutdown_vm` takes each created vCPU through one turn, in order. -/
theorem foreachVcpu_turns (hon : ∀ i < c.createdVcpus vm, (c.vcpu vm i).state ≠ .offline)
    (cur : PcpuId) (mask : Word) : Turns vm mask c (c.createdVcpus vm)
      (c.foreachVcpu vm fun i c => c.shutdownVcpu vm i cur mask) := by
  refine foreachVcpu_rule (P := Turns vm mask c) ?_ ?_
  · exact ⟨.refl c, fun _ _ => rfl, nofun, fun _ h => h, nofun⟩
  · intro i hi c' h
    have hsame := h.later i le_rfl
    rw [if_pos]
    swap
    · rw [hsame]
      exact hon i hi
    obtain ⟨honly, hoff, hask⟩ := shutdownVcpu_spec c' vm i cur mask
    have hi' : i < c'.createdVcpus vm := by rwa [h.only.createdVcpus]
    rw [h.only.pcpuOf] at hask
    refine ⟨h.only.trans (honly.onlyVm hi'), fun j hj => ?_, fun j hj => ?_,
      fun p hp => honly.asked p (h.kept p hp), fun j hj hmask => ?_⟩
    · exact (honly.vcpu vm j fun heq => by omega).trans (h.later j (by omega))
    · by_cases hji : j = i
      · rwa [hji]
      · rw [honly.vcpu vm j fun heq => hji heq.2]
        exact h.offline j (by omega)
    · by_cases hji : j = i
      · subst hji
        exact hask hmask
      · exact honly.asked _ (h.asked j (by omega) hmask)

/-- The vCPUs of a machine are off line, and their pCPUs were asked to go off line, before it was
waited for them to do so. -/
structure ShutDown (vm : ℕ) (gone : PcpuId → Bool) (c c' : VmCpus) : Prop where
  only : OnlyVm vm c c'
  offline : ∀ i < c.createdVcpus vm, (c'.vcpu vm i).state = .offline
  asked : ∃ (c₁ : VmCpus) (mask : Word), c' = c₁.waitPcpusOffline mask gone ∧
    ∀ i < c.createdVcpus vm, (c₁.perCpu (c.pcpuOf vm i)).needOffline = true

/-- Waiting for the pCPUs to go offline concerns the VM alone, since every pCPU of the mask runs
one of its vCPUs. -/
theorem OnlyVm.waitPcpusOffline {mask : Word} (gone : PcpuId → Bool)
    (hmask : ∀ p : PcpuId, mask.getLsbD p = true → ∃ i < c.createdVcpus vm, c.pcpuOf vm i = p) :
    OnlyVm vm c (c.waitPcpusOffline mask gone) := by
  refine ⟨rfl, fun _ => rfl, fun _ _ _ => rfl, fun _ _ => rfl, fun p hp => if_neg fun h => ?_⟩
  obtain ⟨i, hi, heq⟩ := hmask p h.1
  exact hp i hi heq

/-- **The vCPUs and the pCPUs in `shutdown_vm`.** -/
theorem shutdownVcpus_shutDown
    (hon : ∀ i < c.createdVcpus vm, (c.vcpu vm i).state ≠ .offline) (gone : PcpuId → Bool) :
    ShutDown vm gone c (c.shutdownVcpus vm cur gone) := by
  have hbitmap : ∀ p : PcpuId, (c.getPcpuBitmap vm).getLsbD p = true ↔
      ∃ i < c.createdVcpus vm, c.pcpuOf vm i = p := by
    intro p
    rw [getLsbD_getPcpuBitmap]
    exact exists_congr fun i => and_congr_right fun hi => and_iff_right (hon i hi)
  set here := (c.getPcpuBitmap vm).getLsbD cur with hhere
  -- the pCPU that the call is made on is asked first
  set c₁ := if here = true then c.makePcpuOffline cur cur else c with hc₁
  have hfirst : OnlyVm vm c c₁ ∧ c₁.vcpu = c.vcpu ∧
      (here = true → (c₁.perCpu cur).needOffline = true) := by
    rw [hc₁]
    split
    · next hset =>
      obtain ⟨i, hi, hcur⟩ := (hbitmap cur).mp hset
      refine ⟨(OnlyVcpu.makePcpuOffline hcur).onlyVm hi, ?_, fun _ => needOffline_makePcpuOffline⟩
      rw [makePcpuOffline]
      split
      · rfl
      · rfl
    · next hclear => exact ⟨.refl c, rfl, fun hset => absurd hset hclear⟩
  obtain ⟨honly₁, hvcpu₁, hasked₁⟩ := hfirst
  set mask := if here = true then bitmapClearNolock cur (c.getPcpuBitmap vm)
    else c.getPcpuBitmap vm with hmask
  -- the mask has the others
  have hmem : ∀ p : PcpuId, mask.getLsbD p = true ↔
      (∃ i < c.createdVcpus vm, c.pcpuOf vm i = p) ∧ p ≠ cur := by
    intro p
    rw [hmask]
    split
    · next hset =>
      rw [getLsbD_bitmapClearNolock (lt_64_of_lt_maxPcpuNum cur.isLt), Bool.and_eq_true, hbitmap,
        Bool.not_eq_true', decide_eq_false_iff_not, ← Fin.ext_iff]
    · next hclear =>
      rw [hbitmap, iff_self_and]
      rintro hp rfl
      exact hclear ((hbitmap p).mpr hp)
  have hon₁ : ∀ i < c₁.createdVcpus vm, (c₁.vcpu vm i).state ≠ .offline := by
    rw [honly₁.createdVcpus, hvcpu₁]
    exact hon
  have hturns := foreachVcpu_turns hon₁ cur mask
  rw [honly₁.createdVcpus] at hturns
  set c₂ := c₁.foreachVcpu vm fun i c => c.shutdownVcpu vm i cur mask with hc₂
  have honly₂ := honly₁.trans hturns.only
  have heq : c.shutdownVcpus vm cur gone = c₂.waitPcpusOffline mask gone := rfl
  rw [heq]
  refine ⟨honly₂.trans (.waitPcpusOffline gone fun p hp => ?_), hturns.offline, c₂, mask, rfl,
    fun i hi => ?_⟩
  · obtain ⟨i, hi, hp⟩ := ((hmem p).mp hp).1
    refine ⟨i, ?_, ?_⟩
    · rwa [honly₂.createdVcpus]
    · rwa [honly₂.pcpuOf]
  · have hpcpu₁ := honly₁.pcpuOf i
    by_cases hcur : c.pcpuOf vm i = cur
    · refine hturns.kept _ ?_
      rw [hcur]
      exact hasked₁ ((hbitmap cur).mpr ⟨i, hi, hcur⟩)
    · have hask := hturns.asked i hi
      rw [hpcpu₁] at hask
      exact hask ((hmem _).mpr ⟨⟨i, hi, rfl⟩, hcur⟩)

/-- A shutdown keeps the invariant, with the VM marked as down. -/
theorem Inv.shutDown {n : ℕ} {pcpus : Fin n → List PcpuId} {up : Fin n → Bool}
    (h : c.Inv pcpus up) {vm : Fin n} {gone : PcpuId → Bool} (hdown : ShutDown vm gone c c') :
    c'.Inv pcpus (Function.update up vm false) := by
  refine ⟨fun v i hi => ?_, fun v hv i hi => ?_⟩
  · rw [hdown.only.createdVcpus] at hi
    have hplaced := h.placed v i hi
    by_cases hvm : v = vm
    · subst hvm
      have hpcpu : (c'.vcpu v i).pcpuId = (c.vcpu v i).pcpuId := hdown.only.pcpuOf i
      rwa [hpcpu]
    · rwa [hdown.only.vcpu v i fun heq => hvm (Fin.ext heq)]
  · have hvm : v ≠ vm := by
      rintro rfl
      rw [Function.update_self] at hv
      cases hv
    rw [hdown.only.createdVcpus] at hi
    rw [Function.update_of_ne hvm] at hv
    rw [hdown.only.vcpu v i fun heq => hvm (Fin.ext heq)]
    exact h.online v hv i hi

end VmCpus

end Acrn
