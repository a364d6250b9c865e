import Acrn.Teardown

/-!
# Separation of virtual machines

Nothing that is done for other virtual machines, by their guests or by the hypervisor, changes what
a virtual machine runs on: its EPT, the tables its devices are in, its vCPUs, and the schedulers and
regions of its pCPUs. A pCPU that turns to the shutdown of a virtual machine, or switches between
threads, only ever finds there what belongs to its owner.
-/

namespace Acrn

open Transition

/-- A thread that a scheduler may switch to or from. -/
def SchedControl.Names {T : Type*} (ctl : SchedControl T) (th : T) : Prop :=
  ctl.currObj = some th ∨ ctl.noopThreadObj = some th

namespace VmCpus

variable {n : ℕ} {pcpus : List PcpuId} {vm i : ℕ} {cur p : PcpuId} {c c₁ c' : VmCpus}

/-! ## Changes within a virtual machine

`Within pcpus vm` is what a call for the virtual machine may change: its own vCPUs, and on its own
pCPUs the regions and the schedulers, which get to know of no other vCPU. It is transitive, so that
a function is within the virtual machine as soon as all the calls that it makes are. -/

/-- Only the vCPUs of a virtual machine and its pCPUs change, and no pCPU gets to know of anything
but this virtual machine. -/
structure Within (pcpus : List PcpuId) (vm : ℕ) (c c' : VmCpus) : Prop where
  vcpu : ∀ v i, v ≠ vm → c'.vcpu v i = c.vcpu v i
  perCpu : ∀ p ∉ pcpus, c'.perCpu p = c.perCpu p
  sched : ∀ p ∉ pcpus, c'.sched p = c.sched p
  threads : ∀ p v i, (c'.sched p).Names (some (v, i)) →
    (c.sched p).Names (some (v, i)) ∨ v = vm ∧ p ∈ pcpus
  requests : ∀ p, (c'.perCpu p).needShutdownVm = true →
    (c.perCpu p).needShutdownVm = true ∧ (c'.perCpu p).shutdownVmId = (c.perCpu p).shutdownVmId ∨
      (c'.perCpu p).shutdownVmId = vm ∧ p ∈ pcpus

namespace Within

theorem refl (c : VmCpus) : Within pcpus vm c c :=
  ⟨fun _ _ _ => rfl, fun _ _ => rfl, fun _ _ => rfl, fun _ _ _ h => .inl h,
    fun _ h => .inl ⟨h, rfl⟩⟩

theorem trans (h : Within pcpus vm c c₁) (h' : Within pcpus vm c₁ c') : Within pcpus vm c c' := by
  refine ⟨fun v i hv => (h'.vcpu v i hv).trans (h.vcpu v i hv),
    fun p hp => (h'.perCpu p hp).trans (h.perCpu p hp),
    fun p hp => (h'.sched p hp).trans (h.sched p hp), fun p v i hnames => ?_, fun p hneed => ?_⟩
  · obtain hnames₁ | hown := h'.threads p v i hnames
    · exact h.threads p v i hnames₁
    · exact .inr hown
  · obtain ⟨hneed₁, hid₁⟩ | hown := h'.requests p hneed
    · obtain ⟨hneed₀, hid₀⟩ | ⟨hid₀, hp⟩ := h.requests p hneed₁
      · exact .inl ⟨hneed₀, hid₁.trans hid₀⟩
      · exact .inr ⟨hid₁.trans hid₀, hp⟩
    · exact .inr hown

/-- Neither the threads nor the requests of a pCPU change. -/
theorem of_vcpu (hvcpu : ∀ v i, v ≠ vm → c'.vcpu v i = c.vcpu v i) (hperCpu : c'.perCpu = c.perCpu)
    (hsched : c'.sched = c.sched) : Within pcpus vm c c' := by
  refine ⟨hvcpu, fun p _ => congrFun hperCpu p, fun p _ => congrFun hsched p, fun p v i h => ?_,
    fun p h => ?_⟩
  · rw [hsched] at h
    exact .inl h
  · rw [hperCpu] at h ⊢
    exact .inl ⟨h, rfl⟩

theorem updateVcpu (f : AcrnVcpu → AcrnVcpu) :
    Within pcpus vm c (c.onMachine (·.updateVcpu vm i f)) :=
  of_vcpu (fun _ _ hv => congrFun (Function.update_of_ne hv ..) _) rfl rfl

/-- A change of the region of a pCPU that asks for no other shutdown. -/
theorem updatePcpu {f : PerCpuRegion → PerCpuRegion} (hp : p ∈ pcpus)
    (hf : (f (c.perCpu p)).needShutdownVm = true →
      (c.perCpu p).needShutdownVm = true ∧
        (f (c.perCpu p)).shutdownVmId = (c.perCpu p).shutdownVmId ∨
      (f (c.perCpu p)).shutdownVmId = vm) : Within pcpus vm c (c.updatePcpu p f) := by
  refine ⟨fun _ _ _ => rfl, fun q hq => ?_, fun _ _ => rfl, fun _ _ _ h => .inl h,
    fun q hneed => ?_⟩
  · refine Function.update_of_ne ?_ ..
    rintro rfl
    exact hq hp
  · have hperCpu : (c.updatePcpu p f).perCpu = Function.update c.perCpu p (f (c.perCpu p)) := rfl
    rw [hperCpu] at hneed ⊢
    by_cases hq : q = p
    · subst hq
      rw [Function.update_self] at hneed ⊢
      exact (hf hneed).imp_right fun hid => ⟨hid, hp⟩
    · rw [Function.update_of_ne hq] at hneed ⊢
      exact .inl ⟨hneed, rfl⟩

/-- A change of the scheduler of a pCPU, which gets to know of one vCPU at most. -/
theorem updateSched {ctl : SchedControl Thread} (hp : p ∈ pcpus)
    (hctl : ∀ v i, ctl.Names (some (v, i)) → (c.sched p).Names (some (v, i)) ∨ v = vm) :
    Within pcpus vm c { c with sched := Function.update c.sched p ctl } := by
  refine ⟨fun _ _ _ => rfl, fun _ _ => rfl, fun q hq => ?_, fun q v i hnames => ?_,
    fun _ h => .inl ⟨h, rfl⟩⟩
  · refine Function.update_of_ne ?_ ..
    rintro rfl
    exact hq hp
  · by_cases hq : q = p
    · subst hq
      have hnames' : ctl.Names (some (v, i)) := by
        rwa [← Function.update_self q ctl c.sched]
      exact (hctl v i hnames').imp_right fun hv => ⟨hv, hp⟩
    · refine .inl ?_
      rwa [← Function.update_of_ne hq ctl c.sched]

/-! ### Calls on the scheduler of a vCPU

These work on the scheduler that the vCPU stands with. It is one of the virtual machine's as long
as the vCPU is on its pCPUs, and a change of a vCPU keeps it there (`placed_updateVcpu`). -/

/-- A call for a vCPU of the virtual machine, on the scheduler that it stands with. What the call
may name afterwards is the vCPU, and whatever was named before. -/
theorem callScheduler {call : SchedControl Thread → SchedControl Thread × Bool}
    (hp : (c.vcpu vm i).pcpuId ∈ pcpus)
    (hcall : ∀ ctl v j, (call ctl).1.Names (some (v, j)) → ctl.Names (some (v, j)) ∨ v = vm) :
    Within pcpus vm c (c.onMachine (·.callScheduler vm i call)) := by
  have hsched : Within pcpus vm c _ := updateSched hp (hcall (c.sched (c.vcpu vm i).pcpuId))
  refine hsched.trans (of_vcpu ?_ rfl ?_)
  · intro v j _
    rw [onMachine, Machine.callScheduler]
    dsimp only
    split
    · rfl
    · rfl
  · rw [onMachine, Machine.callScheduler]
    dsimp only
    split
    · rfl
    · rfl

/-- A vCPU that changes stays on its pCPU. -/
theorem placed_updateVcpu {f : AcrnVcpu → AcrnVcpu} (hf : ∀ v, (f v).pcpuId = v.pcpuId)
    (hp : (c.vcpu vm i).pcpuId ∈ pcpus) :
    ((c.onMachine (·.updateVcpu vm i f)).vcpu vm i).pcpuId ∈ pcpus := by
  have hkeep : ((c.onMachine (·.updateVcpu vm i f)).vcpu vm i).pcpuId = (c.vcpu vm i).pcpuId :=
    (OnlyVcpu.updateVcpu hf).pcpuOf
  rwa [hkeep]

/-- A change of a vCPU, and what comes after it. -/
theorem after_update {f : AcrnVcpu → AcrnVcpu}
    (h : Within pcpus vm (c.onMachine (·.updateVcpu vm i f)) c') : Within pcpus vm c c' :=
  (updateVcpu f).trans h

/-- A kick chooses no thread, so that nobody is named who was not before. -/
theorem names_kickThread {ctl : SchedControl Thread} {th th' : Thread} {here : Bool}
    (h : (ctl.kickThread th here).1.Names th') : ctl.Names th' := by
  rw [SchedControl.kickThread] at h
  split at h
  · exact h
  split at h
  · exact h
  · exact h

theorem kickVcpu (hp : (c.vcpu vm i).pcpuId ∈ pcpus) :
    Within pcpus vm c (c.onMachine (·.kickVcpu vm i cur)) :=
  callScheduler hp fun _ _ _ h => .inl (names_kickThread h)

/-- A wake-up may put the thread into the slot, and names no other. -/
theorem names_wakeThread {ctl : SchedControl Thread} {th th' : Thread} {here : Bool}
    (h : (ctl.wakeThread th here).1.Names th') : ctl.Names th' ∨ th = th' := by
  rw [SchedControl.wakeThread] at h
  split at h
  · obtain hcurr | hslot := h
    · refine .inl (.inl ?_)
      simpa [SchedControl.makeRescheduleRequest] using hcurr
    · cases hold : ctl.noopThreadObj with
      | none => simp_all [SchedControl.makeRescheduleRequest]
      | some t => simp_all [SchedControl.makeRescheduleRequest, SchedControl.Names]
  · exact .inl h

/-- A thread that sleeps is taken out of the slot, which names nobody instead. -/
theorem names_sleepThread {ctl : SchedControl Thread} {th th' : Thread} {here : Bool}
    (h : (ctl.sleepThread th here).1.Names th') : ctl.Names th' := by
  have hsleep : (ctl.noopSleep th).Names th' → ctl.Names th' := by
    rintro (hcurr | hslot)
    · have hsame : (ctl.noopSleep th).currObj = ctl.currObj := SchedControl.noopSleep_currObj
      exact .inl (hsame.symm.trans hcurr)
    · rw [SchedControl.noopSleep_noopThreadObj] at hslot
      split at hslot
      · cases hslot
      · exact .inr hslot
  rw [SchedControl.sleepThread] at h
  dsimp only at h
  split at h
  · exact hsleep h
  · exact hsleep h

/-- A request is noted with the vCPU, which is then kicked. -/
theorem vcpuMakeRequest (hp : (c.vcpu vm i).pcpuId ∈ pcpus) (eventid : Request) :
    Within pcpus vm c (c.onMachine (·.vcpuMakeRequest vm i cur eventid)) :=
  after_update (f := fun v => { v with arch := Acrn.vcpuMakeRequest v.arch eventid })
    (kickVcpu (placed_updateVcpu (fun _ => rfl) hp))

theorem wakeThread (hp : (c.vcpu vm i).pcpuId ∈ pcpus) (here : Bool) :
    Within pcpus vm c (c.onMachine (·.callScheduler vm i (·.wakeThread (some (vm, i)) here))) := by
  refine callScheduler hp fun _ _ _ h => (names_wakeThread h).imp_right fun heq => ?_
  cases heq
  rfl

theorem launchVcpu (hp : (c.vcpu vm i).pcpuId ∈ pcpus) :
    Within pcpus vm c (c.onMachine (·.launchVcpu vm i cur)) := by
  set f : AcrnVcpu → AcrnVcpu := fun v => { v with state := .running }
  have hp₁ : ((c.onMachine (·.updateVcpu vm i f)).vcpu vm i).pcpuId ∈ pcpus :=
    placed_updateVcpu (fun _ => rfl) hp
  exact after_update (wakeThread hp₁ _)

theorem sleepThread (hp : (c.vcpu vm i).pcpuId ∈ pcpus) (here : Bool) :
    Within pcpus vm c (c.onMachine (·.callScheduler vm i (·.sleepThread (some (vm, i)) here))) :=
  callScheduler hp fun _ _ _ h => .inl (names_sleepThread h)

theorem pauseVcpu (hp : (c.vcpu vm i).pcpuId ∈ pcpus) :
    Within pcpus vm c (c.onMachine (·.pauseVcpu vm i cur)) := by
  set f : AcrnVcpu → AcrnVcpu := fun v => { v with prevState := v.state, state := .zombie }
  have hp₁ : ((c.onMachine (·.updateVcpu vm i f)).vcpu vm i).pcpuId ∈ pcpus :=
    placed_updateVcpu (fun _ => rfl) hp
  rw [onMachine, Machine.pauseVcpu]
  dsimp only
  split
  · split
    · exact after_update (sleepThread hp₁ _)
    · exact updateVcpu f
  · exact refl c

theorem resetVcpu (hp : (c.vcpu vm i).pcpuId ∈ pcpus) :
    Within pcpus vm c (c.onMachine (·.resetVcpu vm i cur)) := by
  have hp₁ : ((c.onMachine (·.updateVcpu vm i (·.reset i))).vcpu vm i).pcpuId ∈ pcpus :=
    placed_updateVcpu (fun _ => rfl) hp
  exact after_update (kickVcpu hp₁)

/-! ### Requests of a guest -/

/-- INIT and start-up requests: the target is paused, reset and launched, and all of these stay
within the virtual machine. -/
theorem vlapicProcessInitSipi (hp : (c.vcpu vm i).pcpuId ∈ pcpus) (mode icrLow : U32) :
    Within pcpus vm c (c.onMachine (·.vlapicProcessInitSipi vm i cur mode icrLow)) := by
  have hkeeps : ∀ c₁ : VmCpus, c.toMachine.Keeps c₁.toMachine → (c₁.vcpu vm i).pcpuId ∈ pcpus :=
    fun c₁ h => by rwa [h.pcpuId]
  rw [onMachine, Machine.vlapicProcessInitSipi]
  split
  swap
  · exact refl c
  split
  · -- INIT
    have hpause : c.toMachine.Keeps (c.onMachine (·.pauseVcpu vm i cur)).toMachine := .pauseVcpu
    exact ((pauseVcpu hp).trans (resetVcpu (hkeeps _ hpause))).trans (updateVcpu _)
  split
  swap
  · exact refl c
  split
  swap
  · exact refl c
  · -- the start-up request that is waited for
    set f : AcrnVcpu → AcrnVcpu := fun v => { v with nrSipi := v.nrSipi - 1#8 }
    set entry := (icrLow &&& Machine.apicVectorMask).setWidth 64 <<< 12
    set g : AcrnVcpu → AcrnVcpu := fun v => { v with
      csSelector := (entry >>> 4).setWidth 16
      csBase := ((entry >>> 4).setWidth 16).setWidth 64 <<< 4
      rip := 0#64 }
    set c₁ := c.onMachine (·.updateVcpu vm i f)
    set c₂ := c₁.onMachine (·.updateVcpu vm i g)
    have hkeep₁ : c.toMachine.Keeps c₁.toMachine :=
      .updateVcpu (f := f) (fun _ => rfl) fun _ hon => hon
    have hkeep₂ : c.toMachine.Keeps c₂.toMachine :=
      hkeep₁.trans (.updateVcpu (f := g) (fun _ => rfl) fun _ hon => hon)
    set c₃ := c₂.onMachine (·.vcpuMakeRequest vm i cur .initVmcs)
    have hkeep₃ : c.toMachine.Keeps c₃.toMachine := hkeep₂.trans (.vcpuMakeRequest .initVmcs)
    have hentry : Within pcpus vm c c₂ := (updateVcpu f).trans (updateVcpu g)
    exact (hentry.trans (vcpuMakeRequest (hkeeps _ hkeep₂) .initVmcs)).trans
      (launchVcpu (hkeeps _ hkeep₃))

/-- **A write to the ICR** stays within the virtual machine. -/
theorem vlapicX2apicWriteIcr (hplaced : ∀ t < c.createdVcpus vm, (c.vcpu vm t).pcpuId ∈ pcpus)
    (val : Word) :
    Within pcpus vm c (c.onMachine fun m => (m.vlapicX2apicWriteIcr vm i val).2) := by
  set f : AcrnVcpu → AcrnVcpu :=
    fun v => { v with arch := (vlapicX2apicWrite v.arch msrIa32ExtApicIcr val).2 }
  refine after_update (i := i) (f := f) ?_
  set c₁ := c.onMachine (·.updateVcpu vm i f) with hc₁
  have hkeep : c.toMachine.Keeps c₁.toMachine := .updateVcpu (fun _ => rfl) fun _ hon => hon
  show Within pcpus vm c₁
    (c₁.onMachine fun m => (m.vlapicX2apicPtIcrAccess vm (c.vcpu vm i).pcpuId val).2)
  rw [onMachine, Machine.vlapicX2apicPtIcrAccess]
  split
  · exact refl _
  split
  · exact refl _
  split
  · exact refl _
  next t ht =>
  split
  swap
  · exact refl _
  next hcreated =>
  split
  · refine vlapicProcessInitSipi ?_ _ _
    have hlt : t < c.createdVcpus vm := hcreated.1
    rw [hkeep.pcpuId]
    exact hplaced t hlt
  split
  · exact refl _
  · exact of_vcpu (fun _ _ _ => rfl) rfl rfl

/-! ### Requests of the hypervisor -/

/-- A pCPU of the virtual machine is asked to go off line. -/
theorem makePcpuOffline (hp : p ∈ pcpus) : Within pcpus vm c (c.makePcpuOffline cur p) := by
  have hflag : Within pcpus vm c (c.updatePcpu p fun r => { r with needOffline := true }) :=
    updatePcpu hp fun hneed => .inl ⟨hneed, rfl⟩
  rw [VmCpus.makePcpuOffline]
  split
  · exact hflag.trans (of_vcpu (fun _ _ _ => rfl) rfl rfl)
  · exact hflag

/-- The shutdown of the virtual machine is asked for, once it is noted which one it is. -/
theorem requestShutdown (hp : p ∈ pcpus) : Within pcpus vm c
    ((c.updatePcpu p fun r => { r with shutdownVmId := vm }).makeShutdownVmRequest cur p) := by
  set c₁ := c.updatePcpu p fun r => { r with shutdownVmId := vm } with hc₁
  have hid : (c₁.perCpu p).shutdownVmId = vm := by
    rw [hc₁, VmCpus.updatePcpu]
    dsimp only
    rw [Function.update_self]
  have hnoted : Within pcpus vm c c₁ := updatePcpu hp fun _ => .inr rfl
  have hflag : Within pcpus vm c (c₁.updatePcpu p fun r => { r with needShutdownVm := true }) :=
    hnoted.trans (updatePcpu hp fun _ => .inr hid)
  rw [makeShutdownVmRequest]
  split
  · exact hflag.trans (of_vcpu (fun _ _ _ => rfl) rfl rfl)
  · exact hflag

/-- The pCPUs in the mask are waited for. -/
theorem waitPcpusOffline {mask : Word} (gone : PcpuId → Bool)
    (hmask : ∀ p : PcpuId, mask.getLsbD p = true → p ∈ pcpus) :
    Within pcpus vm c (c.waitPcpusOffline mask gone) := by
  have hoffline : ∀ r : PerCpuRegion, r.goOffline.needShutdownVm = r.needShutdownVm ∧
      r.goOffline.shutdownVmId = r.shutdownVmId := by
    intro r
    rw [PerCpuRegion.goOffline]
    split
    · exact ⟨rfl, rfl⟩
    · exact ⟨rfl, rfl⟩
  refine ⟨fun _ _ _ => rfl, fun p hp => if_neg fun h => hp (hmask p h.1), fun _ _ => rfl,
    fun _ _ _ h => .inl h, fun p hneed => .inl ?_⟩
  have hperCpu : (c.waitPcpusOffline mask gone).perCpu p =
      if mask.getLsbD p = true ∧ gone p = true then (c.perCpu p).goOffline else c.perCpu p := rfl
  rw [hperCpu] at hneed ⊢
  split at hneed
  · next hgone =>
    rw [if_pos hgone]
    rw [(hoffline _).1] at hneed
    exact ⟨hneed, (hoffline _).2⟩
  · next hgone =>
    rw [if_neg hgone]
    exact ⟨hneed, rfl⟩

/-! ### Loops

The bodies are within the virtual machine and leave every vCPU on its pCPU, which is the invariant
that the next turn needs. -/

/-- **The loop over the vCPUs**, where the body leaves them on their pCPUs. -/
theorem foreachVcpu {body : ℕ → VmCpus → VmCpus}
    (hplaced : ∀ i < c.createdVcpus vm, (c.vcpu vm i).pcpuId ∈ pcpus)
    (hpcpu : ∀ i j (c : VmCpus), ((body i c).vcpu vm j).pcpuId = (c.vcpu vm j).pcpuId)
    (hbody : ∀ i (c : VmCpus), (c.vcpu vm i).pcpuId ∈ pcpus → Within pcpus vm c (body i c)) :
    Within pcpus vm c (c.foreachVcpu vm body) := by
  have hloop : Within pcpus vm c (c.foreachVcpu vm body) ∧
      ∀ j, ((c.foreachVcpu vm body).vcpu vm j).pcpuId = (c.vcpu vm j).pcpuId := by
    refine foreachVcpu_rule (P := fun _ c' => Within pcpus vm c c' ∧
      ∀ j, (c'.vcpu vm j).pcpuId = (c.vcpu vm j).pcpuId) ⟨refl c, fun _ => rfl⟩ ?_
    rintro i hi c' ⟨hwithin, hsame⟩
    split
    · have hp : (c'.vcpu vm i).pcpuId ∈ pcpus := by
        rw [hsame]
        exact hplaced i hi
      exact ⟨hwithin.trans (hbody i c' hp), fun j => (hpcpu i j c').trans (hsame j)⟩
    · exact ⟨hwithin, hsame⟩
  exact hloop.1

/-- `pause_vm` for the vCPUs: the loop over `pause_vcpu`. -/
theorem pauseVcpus (hplaced : ∀ i < c.createdVcpus vm, (c.vcpu vm i).pcpuId ∈ pcpus) :
    Within pcpus vm c (c.pauseVcpus vm cur) := by
  refine foreachVcpu hplaced (fun i j c => ?_) fun i c hp => pauseVcpu hp
  have hkeeps : c.toMachine.Keeps (c.pauseVcpu vm i cur) := .pauseVcpu
  exact hkeeps.pcpuId vm j

theorem startVcpu (hp : (c.vcpu vm 0).pcpuId ∈ pcpus) :
    Within pcpus vm c (c.startVcpu vm cur) := by
  set c₁ := c.onMachine (·.vcpuMakeRequest vm 0 cur .initVmcs)
  have hrequest : c.toMachine.Keeps c₁.toMachine := .vcpuMakeRequest .initVmcs
  refine (vcpuMakeRequest hp .initVmcs).trans (launchVcpu ?_)
  rwa [hrequest.pcpuId]

/-- A turn of the loop in `shutdown_vm`: the vCPU goes off line, and its pCPU is asked to. -/
theorem shutdownVcpu (hp : (c.vcpu vm i).pcpuId ∈ pcpus) (mask : Word) :
    Within pcpus vm c (c.shutdownVcpu vm i cur mask) := by
  set f : AcrnVcpu → AcrnVcpu := fun v => { v with state := .offline }
  set c₁ := c.onMachine (·.resetVcpu vm i cur)
  have hreset : (c₁.vcpu vm i).pcpuId = (c.vcpu vm i).pcpuId :=
    Machine.Keeps.resetVcpu.pcpuId vm i
  have hever : Within pcpus vm c₁
      (c₁.updatePcpu (c₁.vcpu vm i).pcpuId fun r => { r with everRunVcpu := none }) :=
    updatePcpu (by rwa [hreset]) fun hneed => .inl ⟨hneed, rfl⟩
  have hoffline : Within pcpus vm c (c₁.offlineVcpu vm i) :=
    ((resetVcpu hp).trans hever).trans (updateVcpu f)
  have hpcpu : ((c₁.offlineVcpu vm i).vcpu vm i).pcpuId = (c.vcpu vm i).pcpuId :=
    OnlyVcpu.offlineVcpu.pcpuOf.trans hreset
  rw [VmCpus.shutdownVcpu]
  split
  · refine hoffline.trans (makePcpuOffline ?_)
    rwa [hpcpu]
  · exact hoffline

/-- **The vCPUs and the pCPUs in `shutdown_vm`.** -/
theorem shutdownVcpus (hplaced : ∀ i < c.createdVcpus vm, (c.vcpu vm i).pcpuId ∈ pcpus)
    (gone : PcpuId → Bool) : Within pcpus vm c (c.shutdownVcpus vm cur gone) := by
  have hbitmap : ∀ p : PcpuId, (c.getPcpuBitmap vm).getLsbD p = true → p ∈ pcpus := by
    intro p hp
    obtain ⟨i, hi, -, rfl⟩ := (getLsbD_getPcpuBitmap c.toMachine vm p).mp hp
    exact hplaced i hi
  set here := (c.getPcpuBitmap vm).getLsbD cur with hhere
  set c₁ := if here = true then c.makePcpuOffline cur cur else c with hc₁
  have hfirst : Within pcpus vm c c₁ ∧ c₁.createdVcpus = c.createdVcpus ∧ c₁.vcpu = c.vcpu := by
    rw [hc₁]
    split
    · next hset =>
      have hwithin : Within pcpus vm c (c.makePcpuOffline cur cur) :=
        makePcpuOffline (hbitmap cur hset)
      rw [VmCpus.makePcpuOffline] at hwithin ⊢
      rw [if_neg fun hne => hne rfl] at hwithin ⊢
      exact ⟨hwithin, rfl, rfl⟩
    · exact ⟨refl c, rfl, rfl⟩
  obtain ⟨hwithin₁, hcreated₁, hvcpu₁⟩ := hfirst
  set mask := if here = true then bitmapClearNolock cur (c.getPcpuBitmap vm)
    else c.getPcpuBitmap vm with hmask
  have hmask_mem : ∀ p : PcpuId, mask.getLsbD p = true → p ∈ pcpus := by
    intro p hp
    refine hbitmap p ?_
    rw [hmask] at hp
    split at hp
    · rw [getLsbD_bitmapClearNolock (lt_64_of_lt_maxPcpuNum cur.isLt), Bool.and_eq_true] at hp
      exact hp.1
    · exact hp
  have hloop : Within pcpus vm c₁ (c₁.foreachVcpu vm fun i c => c.shutdownVcpu vm i cur mask) := by
    refine foreachVcpu (fun i hi => ?_) (fun i j c => ?_) fun i c hp => shutdownVcpu hp mask
    · rw [hcreated₁] at hi
      rw [hvcpu₁]
      exact hplaced i hi
    · have honly := (shutdownVcpu_spec c vm i cur mask).1
      by_cases hj : j = i
      · rw [hj]
        exact honly.pcpuOf
      · exact congrArg AcrnVcpu.pcpuId (honly.vcpu vm j fun heq => hj heq.2)
  exact (hwithin₁.trans hloop).trans (waitPcpusOffline gone hmask_mem)

/-! ### Preparation -/

/-- A vCPU is created on a pCPU of the virtual machine, with a thread that is blocked and that the
scheduler does not name yet. -/
theorem prepareVcpu (hp : p ∈ pcpus) (msrs : PcpuId → PcpuMsrs) :
    Within pcpus vm c (c.prepareVcpu vm p msrs) := by
  rw [VmCpus.prepareVcpu]
  split
  swap
  · exact refl c
  next hlt =>
  set k := c.createdVcpus vm
  set f : AcrnVcpu → AcrnVcpu := fun _ => Machine.createdVcpu k p (msrs p)
  set c₁ := c.updatePcpu p fun r => { r with everRunVcpu := some (vm, k) }
  set c₂ := c₁.onMachine (·.updateVcpu vm k f)
  set c₃ := c₂.onMachine (·.setCreated vm (k + 1) hlt)
  have hever : Within pcpus vm c c₁ := updatePcpu hp fun hneed => .inl ⟨hneed, rfl⟩
  have hvcpu : Within pcpus vm c₁ c₂ := updateVcpu f
  have hcreated : Within pcpus vm c₂ c₃ := of_vcpu (fun _ _ _ => rfl) rfl rfl
  exact ((hever.trans hvcpu).trans hcreated).trans (updateSched hp fun _ _ h => .inl h)

end Within

/-! ## What a pCPU knows of

`schedule` runs on the current pCPU for whatever thread it finds there, and the idle thread shuts
down whatever virtual machine it was asked to. That these are the pCPU's own is an invariant of the
hypervisor: `Confined` holds at the boot, and every change within a virtual machine keeps it. -/

/-- The vCPUs that a pCPU knows of belong to the virtual machine whose pCPU it is, and so does the
shutdown that it was asked for. -/
structure Confined (pcpus : Fin n → List PcpuId) (c : VmCpus) : Prop where
  threads : ∀ {p v i}, (c.sched p).Names (some (v, i)) → ∃ vm : Fin n, vm.val = v ∧ p ∈ pcpus vm
  requests : ∀ {p}, (c.perCpu p).needShutdownVm = true →
    ∃ vm : Fin n, vm.val = (c.perCpu p).shutdownVmId ∧ p ∈ pcpus vm

section Confined

variable {pcpus : Fin n → List PcpuId}

/-- What stays within one virtual machine keeps the pCPUs confined: its own pCPUs get to know of
its vCPUs only, and the others of nobody. -/
theorem Confined.within (h : c.Confined pcpus) {vm : Fin n} (hwithin : Within (pcpus vm) vm c c') :
    c'.Confined pcpus := by
  refine ⟨fun {p v i} hnames => ?_, fun {p} hneed => ?_⟩
  · obtain hold | ⟨rfl, hp⟩ := hwithin.threads p v i hnames
    · exact h.threads hold
    · exact ⟨vm, rfl, hp⟩
  · obtain ⟨hold, hid⟩ | ⟨hid, hp⟩ := hwithin.requests p hneed
    · rw [hid]
      exact h.requests hold
    · exact ⟨vm, hid.symm, hp⟩

/-- The flag of a thread concerns its vCPU only. -/
theorem setRunning_frame (obj : Option Thread) (running : Bool) :
    (c.setRunning obj running).sched = c.sched ∧ (c.setRunning obj running).perCpu = c.perCpu ∧
      ∀ v, (∀ i, obj ≠ some (some (v, i))) →
        (c.setRunning obj running).vcpu v = c.vcpu v := by
  rcases obj with _ | _ | ⟨vm, i⟩
  · exact ⟨rfl, rfl, fun _ _ => rfl⟩
  · exact ⟨rfl, rfl, fun _ _ => rfl⟩
  · refine ⟨rfl, rfl, fun v hv => Function.update_of_ne ?_ ..⟩
    rintro rfl
    exact hv i rfl

/-- **A switch of threads** is between threads that the pCPU knows of. -/
theorem Confined.schedule (h : c.Confined pcpus) (hsched : c.schedule p = some c') :
    c'.Confined pcpus ∧ (∀ q, q ≠ p → c'.sched q = c.sched q) ∧ c'.perCpu = c.perCpu ∧
      ∀ vm : Fin n, p ∉ pcpus vm → c'.vcpu vm = c.vcpu vm := by
  rw [VmCpus.schedule] at hsched
  cases hctl : (c.sched p).schedule none with
  | none =>
    rw [hctl] at hsched
    cases hsched
  | some ctl =>
    rw [hctl] at hsched
    obtain rfl := Option.some.inj hsched
    -- the next thread is the one in the slot, or the idle thread
    have hnext : ctl.noopThreadObj = (c.sched p).noopThreadObj ∧
        ctl.currObj = some ((c.sched p).noopThreadObj.getD none) := by
      rw [SchedControl.schedule] at hctl
      split at hctl
      · cases hctl
      · obtain rfl := Option.some.inj hctl
        split
        · exact ⟨rfl, rfl⟩
        · exact ⟨rfl, rfl⟩
    have hnames : ∀ {v i}, ctl.Names (some (v, i)) → (c.sched p).Names (some (v, i)) := by
      rintro v i (hcurr | hslot)
      · rw [hnext.2] at hcurr
        cases hold : (c.sched p).noopThreadObj with
        | none =>
          rw [hold] at hcurr
          cases hcurr
        | some th =>
          rw [hold] at hcurr
          exact .inr (hold.trans hcurr)
      · exact .inr (hnext.1.symm.trans hslot)
    set c₁ : VmCpus := { c with sched := Function.update c.sched p ctl } with hc₁
    have hself : c₁.sched p = ctl := Function.update_self ..
    have hother : ∀ q, q ≠ p → c₁.sched q = c.sched q := fun q hq => Function.update_of_ne hq ..
    have hconfined : c₁.Confined pcpus := by
      refine ⟨fun {q v i} hq => ?_, h.requests⟩
      by_cases hqp : q = p
      · rw [hqp, hself] at hq
        rw [hqp]
        exact h.threads (hnames hq)
      · rw [hother q hqp] at hq
        exact h.threads hq
    split
    · exact ⟨hconfined, hother, rfl, fun _ _ => rfl⟩
    · obtain ⟨hsched₂, hperCpu₂, hvcpu₂⟩ := c₁.setRunning_frame (c.sched p).currObj false
      obtain ⟨hsched₃, hperCpu₃, hvcpu₃⟩ :=
        (c₁.setRunning (c.sched p).currObj false).setRunning_frame ctl.currObj true
      have hsched' := hsched₃.trans hsched₂
      have hperCpu' := hperCpu₃.trans hperCpu₂
      -- neither thread is a vCPU of a machine without the pCPU
      have hforeign : ∀ {vm : Fin n} {ctl : SchedControl Thread}, p ∉ pcpus vm →
          (∀ {v i}, ctl.Names (some (v, i)) → (c.sched p).Names (some (v, i))) →
          ∀ i, ctl.currObj ≠ some (some (vm.val, i)) := by
        intro vm ctl hp hsub i hcurr
        obtain ⟨vm', hvm', hp'⟩ := h.threads (hsub (.inl hcurr))
        exact hp (Fin.ext hvm' ▸ hp')
      refine ⟨⟨fun {q v i} hq => ?_, fun {q} hq => ?_⟩, fun q hq => ?_, hperCpu', fun vm hp => ?_⟩
      · rw [hsched'] at hq
        exact hconfined.threads hq
      · rw [hperCpu'] at hq ⊢
        exact hconfined.requests hq
      · rw [hsched']
        exact hother q hq
      · exact (hvcpu₃ vm (hforeign hp hnames)).trans (hvcpu₂ vm (hforeign hp id))

end Confined

end VmCpus

/-! ## Devices

The devices of a virtual machine are assigned and taken away by calls on the remapping tables, each
for one bus, device and function. Tables and interrupt remapping entries of all other devices
stay. -/

namespace DeviceState

variable {n : ℕ} {config : DeviceConfig n} {ctx : ContextTables} {up : Fin n → Bool} {vm : Fin n}
  {s : DeviceState n} {c : DmarCall} {bus devfun : BitVec 8}

/-- The calls of `vpci_init`. -/
abbrev initCalls (config : DeviceConfig n) (vm : Fin n) : List DmarCall :=
  (config.pciDevs vm).flatMap (VpciVdev.initCalls (config.domain vm))

/-- The loop of `vpci_init` is a list of calls on the remapping unit. -/
theorem vpciInit_eq (s : DeviceState n) :
    (s.createDomain vm (config.nworldEptp vm)).vpciInitVdevs ctx vm (config.pciDevs vm) =
      (s.createDomain vm (config.nworldEptp vm)).calls ctx (initCalls config vm) := by
  rw [vpciInitVdevs_eq, (domain_createDomain vm).2]

/-- They are about devices of the virtual machine, -/
theorem initCalls_device (hc : c ∈ initCalls config vm) (hdevice : c.device = some (bus, devfun)) :
    config.Owns vm bus devfun := by
  obtain ⟨vdev, hvdev, hpt, rfl⟩ := mem_initCalls.mp hc
  obtain ⟨hbus, hdevfun⟩ := Prod.mk.inj (Option.some.inj hdevice)
  exact ⟨vdev, hvdev, hpt, hbus, hdevfun⟩

/-- and about no interrupt remapping entry. -/
theorem initCalls_index (hc : c ∈ initCalls config vm) : c.index = none := by
  obtain ⟨vdev, -, -, rfl⟩ := mem_initCalls.mp hc
  rfl

/-- The callers' part is kept by each of them. -/
theorem initCalls_ok (t : DmarState) : ∀ c ∈ initCalls config vm, DmarOk t c := by
  intro c hc
  obtain ⟨vdev, -, -, rfl⟩ := mem_initCalls.mp hc
  exact config.domain_valid vm

/-- `vpci_init` leaves the devices of the others where they are, and all interrupt remapping
entries. -/
theorem Inv.vpciInit_frame (h : s.Inv config ctx up) (vm : Fin n) :
    let s' := (s.createDomain vm (config.nworldEptp vm)).vpciInitVdevs ctx vm (config.pciDevs vm)
    (∀ bus devfun, ¬ config.Owns vm bus devfun →
      s'.dmar.dmar.contextEntry bus devfun = s.dmar.dmar.contextEntry bus devfun ∧
        s'.dmar.last bus devfun = s.dmar.last bus devfun) ∧
    ∀ index, s'.dmar.dmar.unit.irTable index = s.dmar.dmar.unit.irTable index := by
  intro s'
  have hs' : s' = (s.createDomain vm (config.nworldEptp vm)).calls ctx (initCalls config vm) :=
    vpciInit_eq s
  rw [hs']
  have hok : ∀ c ∈ initCalls config vm, _ := initCalls_ok s.dmar
  obtain ⟨-, -, -, hcontexts, hirtes⟩ := h.tables.calls hok
  refine ⟨fun bus devfun hnot => hcontexts bus devfun fun c hc hdevice =>
    hnot (initCalls_device hc hdevice), fun index => hirtes index fun c hc hindex => ?_⟩
  rw [initCalls_index hc] at hindex
  cases hindex

end DeviceState

/-! ## Steps of others

`Untouched` compares two states of the hypervisor by all that a virtual machine runs on. It is a
preorder, so that a run leaves a virtual machine untouched when each of its steps does. A step of
others is one that is neither made for the virtual machine nor on one of its pCPUs. -/

/-- The step is made for the virtual machine, by its guest, or on one of its pCPUs. A vUART may be
connected to one of another virtual machine, so a call on it is made for none. -/
def HostStep.Concerns {n : ℕ} (config : HostConfig n) (vm : Fin n) : HostStep n → Prop
  | .createVm v | .startVm v _ | .eptCall v _ | .msixRemap v _ _ _ | .runVcpu v _ _
  | .vcpuMakeRequest v _ _ _ | .writeIcr v _ _ | .pauseVm v _ | .requestShutdown v _ _ => v = vm
  | .vuartCall _ => False
  | .schedule p | .idle p _ _ => p ∈ (config.vms vm).pcpus

/-- The vCPU that the step is about is there. -/
def HostStep.HasVcpu {n : ℕ} (h : HostState n) : HostStep n → Prop
  | .startVm vm _ => 0 < h.cpus.createdVcpus vm
  | .runVcpu vm i _ | .vcpuMakeRequest vm i _ _ | .writeIcr vm i _ | .requestShutdown vm i _ =>
    i < h.cpus.createdVcpus vm
  | _ => True

namespace HostState

variable {n : ℕ} {config : HostConfig n} {vm vm' : Fin n} {h h₁ h' : HostState n}

/-- No pCPU knows of a vCPU that is none of its virtual machine's. -/
def Confined (config : HostConfig n) (h : HostState n) : Prop :=
  h.cpus.Confined fun vm => (config.vms vm).pcpus

/-- No vCPU has been on a pCPU, and no shutdown has been asked for. -/
structure Unused (h : HostState n) : Prop where
  threads : ∀ {p v i}, ¬ (h.cpus.sched p).Names (some (v, i))
  requests : ∀ p, (h.cpus.perCpu p).needShutdownVm = false

/-- A pCPU on which no vCPU has been knows of none. -/
theorem Unused.confined (hunused : h.Unused) : h.Confined config := by
  refine ⟨fun hnames => absurd hnames hunused.threads, fun {p} hneed => ?_⟩
  rw [hunused.requests] at hneed
  cases hneed

namespace Untouched

theorem refl (h : HostState n) : Untouched config vm h h :=
  ⟨rfl, fun _ _ _ => rfl, fun _ _ _ => rfl, fun _ _ => rfl, fun _ => rfl, fun _ _ => rfl,
    fun _ _ => rfl⟩

theorem trans (hfirst : Untouched config vm h h₁) (hsecond : Untouched config vm h₁ h') :
    Untouched config vm h h' := by
  have hup : h₁.up vm = h.up vm := by rw [up, up, hfirst.state]
  refine ⟨hsecond.state.trans hfirst.state, fun hvm v hv => ?_,
    fun bus devfun howns => (hsecond.contexts bus devfun howns).trans
      (hfirst.contexts bus devfun howns),
    fun vdev hvdev => (hsecond.irtes vdev hvdev).trans (hfirst.irtes vdev hvdev),
    fun i => (hsecond.vcpu i).trans (hfirst.vcpu i),
    fun p hp => (hsecond.perCpu p hp).trans (hfirst.perCpu p hp),
    fun p hp => (hsecond.sched p hp).trans (hfirst.sched p hp)⟩
  exact (hsecond.ept (hup.trans hvm) v hv).trans (hfirst.ept hvm v hv)

/-- A change of the vCPUs of another virtual machine and its pCPUs. -/
theorem of_within (hne : vm' ≠ vm) {f : VmCpus → VmCpus}
    (hwithin : VmCpus.Within (config.vms vm).pcpus vm h.cpus (f h.cpus)) :
    Untouched config vm' h (h.onCpus f) := by
  have hpcpu : ∀ p ∈ (config.vms vm').pcpus, p ∉ (config.vms vm).pcpus :=
    fun p hp hp' => hne (config.disjoint hp hp')
  exact ⟨rfl, fun _ _ _ => rfl, fun _ _ _ => rfl, fun _ _ => rfl,
    fun i => hwithin.vcpu vm' i fun heq => hne (Fin.ext heq),
    fun p hp => hwithin.perCpu p (hpcpu p hp), fun p hp => hwithin.sched p (hpcpu p hp)⟩

/-- The state of a virtual machine is its own. -/
theorem setState (hne : vm' ≠ vm) (state : VmLifeState) :
    Untouched config vm' h (h.setState vm state) :=
  ⟨Function.update_of_ne hne .., fun _ _ _ => rfl, fun _ _ _ => rfl, fun _ _ => rfl, fun _ => rfl,
    fun _ _ => rfl, fun _ _ => rfl⟩

/-- A change of the EPT of another virtual machine. -/
theorem of_frames (hinv : h.Inv config) (hne : vm' ≠ vm) {ept : EptArrays n}
    (hframes : EptArrays.Frames config.pools vm h.ept ept) :
    Untouched config vm' h { h with ept } :=
  ⟨rfl, fun hvm => (hframes.other hne (hinv.ept.sound hvm)).2, fun _ _ _ => rfl, fun _ _ => rfl,
    fun _ => rfl, fun _ _ => rfl, fun _ _ => rfl⟩

end Untouched

/-- The vCPUs that there are stand on the pCPUs of their virtual machine. -/
theorem Inv.placed (hinv : h.Inv config) :
    ∀ i < h.cpus.createdVcpus vm, (h.cpus.vcpu vm i).pcpuId ∈ (config.vms vm).pcpus :=
  hinv.cpus.placed vm

/-- What `create_vm` does to the vCPUs. -/
theorem cpus_createVm (h : HostState n) (vm : Fin n) :
    VmCpus.Within (config.vms vm).pcpus vm h.cpus (h.createVm config vm).cpus := by
  have hprepare : ∀ ps : List PcpuId, (∀ p ∈ ps, p ∈ (config.vms vm).pcpus) → ∀ c : VmCpus,
      VmCpus.Within (config.vms vm).pcpus vm c
        (ps.foldl (fun c p => c.prepareVcpu vm p config.msrs) c) := by
    intro ps hps
    induction ps with
    | nil => exact .refl
    | cons p ps ih =>
      exact fun c => (VmCpus.Within.prepareVcpu (hps p List.mem_cons_self) config.msrs).trans
        (ih (fun q hq => hps q (List.mem_cons_of_mem p hq)) _)
  have hcleared : VmCpus.Within (config.vms vm).pcpus vm h.cpus
      (h.cpus.onMachine (·.setCreated vm 0 (Nat.zero_le maxPcpuNum))) :=
    .of_vcpu (fun _ _ _ => rfl) rfl rfl
  exact hcleared.trans (hprepare _ (fun _ hp => hp) _)

/-- **`create_vm`** touches no other virtual machine. -/
theorem Inv.createVm_untouched (hinv : h.Inv config) (hfresh : h.launched vm = false)
    (hne : vm' ≠ vm) : Untouched config vm' h (h.createVm config vm) := by
  have hcpus : VmCpus.Within (config.vms vm).pcpus vm h.cpus (h.createVm config vm).cpus :=
    h.cpus_createVm vm
  have hpcpu : ∀ p ∈ (config.vms vm').pcpus, p ∉ (config.vms vm).pcpus :=
    fun p hp hp' => hne (config.disjoint hp hp')
  obtain ⟨hcontexts, hirtes⟩ := hinv.devices.vpciInit_frame vm
  constructor
  case state => exact Function.update_of_ne hne ..
  case ept =>
    intro hvm'
    obtain ⟨hcreated, hframes⟩ := hinv.ept.create hfresh
    obtain ⟨-, hframes'⟩ := hcreated.calls (Function.update_self ..) (Function.update_self ..)
      (config.setup_admissible vm)
    rw [ept_createVm]
    exact ((hframes.trans hframes').other hne (hinv.ept.sound hvm')).2
  case contexts =>
    exact fun bus devfun howns => (hcontexts bus devfun (DeviceConfig.owns_ne howns hne)).1
  case irtes => exact fun vdev _ => hirtes _
  case vcpu => exact fun i => hcpus.vcpu vm' i fun heq => hne (Fin.ext heq)
  case perCpu => exact fun p hp => hcpus.perCpu p (hpcpu p hp)
  case sched => exact fun p hp => hcpus.sched p (hpcpu p hp)

/-- What `pause_vm` does to the vCPUs. -/
theorem Inv.pauseVm_within (hinv : h.Inv config) (cur : PcpuId) :
    VmCpus.Within (config.vms vm).pcpus vm h.cpus (h.pauseVm vm cur).cpus := by
  rw [HostState.pauseVm]
  split
  · exact .pauseVcpus hinv.placed
  · exact .refl _

/-! ### The idle thread -/

/-- What a turn of the idle thread does: it takes its own pCPU off line, or it shuts down a virtual
machine that the pCPU belongs to. -/
inductive IdleTurn (config : HostConfig n) (h : HostState n) (p : PcpuId) (gone : PcpuId → Bool)
    (qi : VpciVdev → QiStatus) : HostState n → Prop where
  | none : IdleTurn config h p gone qi h
  | offline : IdleTurn config h p gone qi (h.onCpus (·.updatePcpu p PerCpuRegion.goOffline))
  | clear : IdleTurn config h p gone qi
      (h.onCpus (·.updatePcpu p fun r => { r with needShutdownVm := false }))
  | shutdown (vm : Fin n) : p ∈ (config.vms vm).pcpus → h.state vm = .paused →
      IdleTurn config h p gone qi
        ((h.onCpus (·.updatePcpu p fun r => { r with needShutdownVm := false })).shutdownVm config
          vm p gone qi)

/-- The idle thread takes its pCPU off line if it was asked to, and otherwise shuts down what the
pCPU was asked to shut down, which is its own virtual machine. -/
theorem Confined.idleTurn (hconf : h.Confined config) (p : PcpuId) (gone : PcpuId → Bool)
    (qi : VpciVdev → QiStatus) : IdleTurn config h p gone qi (h.idle config p gone qi) := by
  rw [HostState.idle]
  split
  · exact .offline
  split
  swap
  · exact .none
  next hneed =>
  obtain ⟨owner, hid, hp⟩ := hconf.requests hneed
  have hid' : (Function.update h.cpus.perCpu p
      { h.cpus.perCpu p with needShutdownVm := false } p).shutdownVmId = owner := by
    rw [Function.update_self]
    exact hid.symm
  rw [shutdownVmFromIdle]
  split
  swap
  · exact .clear
  next hlt =>
  dsimp only
  have howner : (⟨_, hlt⟩ : Fin n) = owner := Fin.ext hid'
  rw [howner]
  split
  · next hpaused => exact .shutdown owner hp hpaused
  · exact .clear

/-! ### Every step

Two things are shown of every step: it keeps `Confined`, and it leaves a virtual machine untouched
that it does not concern. The second needs the first for the steps that a pCPU takes by itself. -/

/-- **Every step** leaves the pCPUs to their virtual machines. -/
theorem Confined.step (hconf : h.Confined config) (hinv : h.Inv config) {a : HostStep n}
    (hvcpu : a.HasVcpu h) (hstep : a.run config h = some h') : h'.Confined config := by
  cases a with
  | createVm vm =>
    obtain rfl := Option.some.inj hstep
    exact VmCpus.Confined.within hconf (h.cpus_createVm vm)
  | startVm vm cur =>
    obtain rfl := Option.some.inj hstep
    exact VmCpus.Confined.within hconf (.startVcpu (hinv.placed 0 hvcpu))
  | eptCall vm c =>
    obtain rfl := Option.some.inj hstep
    exact hconf
  | msixRemap vm vdev irte qiStatus =>
    obtain rfl := Option.some.inj hstep
    exact hconf
  | vuartCall call =>
    obtain rfl := Option.some.inj hstep
    exact hconf
  | runVcpu vm i vcpu =>
    obtain rfl := Option.some.inj hstep
    exact VmCpus.Confined.within hconf (.updateVcpu fun _ => vcpu)
  | vcpuMakeRequest vm i cur eventid =>
    obtain rfl := Option.some.inj hstep
    exact VmCpus.Confined.within hconf (.vcpuMakeRequest (hinv.placed i hvcpu) eventid)
  | writeIcr vm i val =>
    obtain rfl := Option.some.inj hstep
    exact VmCpus.Confined.within hconf (.vlapicX2apicWriteIcr hinv.placed val)
  | pauseVm vm cur =>
    obtain rfl := Option.some.inj hstep
    exact VmCpus.Confined.within hconf (hinv.pauseVm_within cur)
  | requestShutdown vm i cur =>
    obtain rfl := Option.some.inj hstep
    exact VmCpus.Confined.within hconf (.requestShutdown (hinv.placed i hvcpu))
  | schedule p =>
    obtain ⟨cpus, hcpus, rfl⟩ := Option.map_eq_some_iff.mp hstep
    exact (VmCpus.Confined.schedule hconf hcpus).1
  | idle p gone qi =>
    obtain rfl := Option.some.inj hstep
    have hclear : ∀ f : PerCpuRegion → PerCpuRegion,
        (∀ r, (f r).needShutdownVm = true → r.needShutdownVm = true) →
        (∀ r, (f r).shutdownVmId = r.shutdownVmId) →
        (h.onCpus (·.updatePcpu p f)).Confined config := by
      intro f hneed hid
      refine ⟨hconf.threads, fun {q} hq => ?_⟩
      have hperCpu : (h.onCpus (·.updatePcpu p f)).cpus.perCpu =
          Function.update h.cpus.perCpu p (f (h.cpus.perCpu p)) := rfl
      rw [hperCpu] at hq ⊢
      by_cases hqp : q = p
      · subst hqp
        rw [Function.update_self] at hq ⊢
        rw [hid]
        exact hconf.requests (hneed _ hq)
      · rw [Function.update_of_ne hqp] at hq ⊢
        exact hconf.requests hq
    have hcleared := hclear (fun r => { r with needShutdownVm := false })
      (fun _ hfalse => absurd hfalse Bool.false_ne_true) fun _ => rfl
    have hturn := hconf.idleTurn p gone qi
    generalize h.idle config p gone qi = h₁ at hturn ⊢
    cases hturn with
    | none => exact hconf
    | offline =>
      refine hclear _ (fun r hr => ?_) fun r => ?_
      · rw [PerCpuRegion.goOffline] at hr
        split at hr
        · exact hr
        · exact hr
      · rw [PerCpuRegion.goOffline]
        split
        · rfl
        · rfl
    | clear => exact hcleared
    | shutdown vm hp hpaused =>
      have hwithin : VmCpus.Within (config.vms vm).pcpus vm
          (h.cpus.updatePcpu p fun r => { r with needShutdownVm := false })
          ((h.cpus.updatePcpu p fun r => { r with needShutdownVm := false }).shutdownVcpus vm p
            gone) := by
        refine .shutdownVcpus ?_ gone
        exact hinv.placed
      exact VmCpus.Confined.within hcleared hwithin

/-- **A step of others** leaves a virtual machine untouched. -/
theorem Inv.untouched_step (hinv : h.Inv config) (hconf : h.Confined config) {a : HostStep n}
    (hvcpu : a.HasVcpu h) (hothers : ¬ a.Concerns config vm') (hok : a.Allowed config h)
    (hstep : a.run config h = some h') : Untouched config vm' h h' := by
  cases a with
  | createVm vm =>
    obtain rfl := Option.some.inj hstep
    exact hinv.createVm_untouched hok fun heq => hothers heq.symm
  | startVm vm cur =>
    obtain rfl := Option.some.inj hstep
    have hne : vm' ≠ vm := fun heq => hothers heq.symm
    exact (Untouched.setState hne .started).trans
      (.of_within hne (f := (·.startVcpu vm cur)) (.startVcpu (hinv.placed 0 hvcpu)))
  | eptCall vm c =>
    obtain rfl := Option.some.inj hstep
    exact .of_frames hinv (fun heq => hothers heq.symm)
      (hinv.ept.call hok.1 (hinv.launched hok.1) hok.2).2
  | msixRemap vm vdev irte qiStatus =>
    obtain rfl := Option.some.inj hstep
    have hne : vm' ≠ vm := fun heq => hothers heq.symm
    have hindex : (irteIndex vm vdev.bdf).toNat < configMaxIrEntries := irteIndex_lt _ _
    obtain ⟨-, hcall⟩ := hinv.devices.tables.call
      (c := .assign vdev.pbdf irte (irteIndex vm vdev.bdf) qiStatus) hindex
    refine ⟨rfl, fun _ _ _ => rfl, fun bus devfun _ => hcall.contexts bus devfun ?_,
      fun vdev' _ => hcall.irtes _ fun heq => ?_, fun _ => rfl, fun _ _ => rfl, fun _ _ => rfl⟩
    · exact (Option.some_ne_none _).symm
    · exact config.devices.irteIndex_ne hne _ _ (Option.some.inj heq).symm
  | vuartCall call =>
    obtain rfl := Option.some.inj hstep
    exact ⟨rfl, fun _ _ _ => rfl, fun _ _ _ => rfl, fun _ _ => rfl, fun _ => rfl, fun _ _ => rfl,
      fun _ _ => rfl⟩
  | runVcpu vm i vcpu =>
    obtain rfl := Option.some.inj hstep
    exact .of_within (fun heq => hothers heq.symm)
      (f := (·.onMachine (·.updateVcpu vm i fun _ => vcpu))) (.updateVcpu fun _ => vcpu)
  | vcpuMakeRequest vm i cur eventid =>
    obtain rfl := Option.some.inj hstep
    exact .of_within (fun heq => hothers heq.symm)
      (f := (·.onMachine (·.vcpuMakeRequest vm i cur eventid)))
      (.vcpuMakeRequest (hinv.placed i hvcpu) eventid)
  | writeIcr vm i val =>
    obtain rfl := Option.some.inj hstep
    exact .of_within (fun heq => hothers heq.symm)
      (f := (·.onMachine fun m => (m.vlapicX2apicWriteIcr vm i val).2))
      (.vlapicX2apicWriteIcr hinv.placed val)
  | pauseVm vm cur =>
    obtain rfl := Option.some.inj hstep
    have hne : vm' ≠ vm := fun heq => hothers heq.symm
    rw [HostState.pauseVm]
    split
    · exact (Untouched.of_within hne (f := (·.pauseVcpus vm cur)) (.pauseVcpus hinv.placed)).trans
        (.setState hne .paused)
    · exact .refl h
  | requestShutdown vm i cur =>
    obtain rfl := Option.some.inj hstep
    set p := (h.cpus.vcpu vm i).pcpuId
    exact .of_within (fun heq => hothers heq.symm)
      (f := fun c => (c.updatePcpu p fun r => { r with shutdownVmId := vm }).makeShutdownVmRequest
        cur p) (.requestShutdown (hinv.placed i hvcpu))
  | schedule p =>
    obtain ⟨cpus, hcpus, rfl⟩ := Option.map_eq_some_iff.mp hstep
    obtain ⟨-, hsched, hperCpu, hvcpus⟩ := VmCpus.Confined.schedule hconf hcpus
    refine ⟨rfl, fun _ _ _ => rfl, fun _ _ _ => rfl, fun _ _ => rfl,
      fun i => congrFun (hvcpus vm' hothers) i, fun q _ => congrFun hperCpu q, fun q hq => ?_⟩
    refine hsched q ?_
    rintro rfl
    exact hothers hq
  | idle p gone qi =>
    obtain rfl := Option.some.inj hstep
    -- a turn that only concerns the region of the pCPU
    have hregion : ∀ f : PerCpuRegion → PerCpuRegion,
        Untouched config vm' h (h.onCpus (·.updatePcpu p f)) := by
      refine fun f => ⟨rfl, fun _ _ _ => rfl, fun _ _ _ => rfl, fun _ _ => rfl, fun _ => rfl,
        fun q hq => ?_, fun _ _ => rfl⟩
      refine Function.update_of_ne ?_ ..
      rintro rfl
      exact hothers hq
    have hturn := hconf.idleTurn p gone qi
    generalize h.idle config p gone qi = h₁ at hturn ⊢
    cases hturn with
    | none => exact .refl h
    | offline => exact hregion _
    | clear => exact hregion _
    | shutdown vm hp hpaused =>
      have hcleared := hinv.keeps
        (f := (·.updatePcpu p fun r => { r with needShutdownVm := false })) (.refl _)
      have hne : vm' ≠ vm := by
        rintro rfl
        exact hothers hp
      exact (hregion _).trans
        (hcleared.untouched p gone qi (up_of_state hpaused (by decide)) hne)

end HostState

/-! ## Runs of others -/

/-- The hypervisor from its boot on, before any vCPU is on a pCPU. -/
def launchSystem {n : ℕ} (config : HostConfig n) : System (HostState n) (HostStep n) where
  init h := h.Booted config ∧ h.Unused
  step := (hostSystem config).step

/-- In every run both invariants hold: the parts of the hypervisor are in order, and no pCPU knows
of a foreign vCPU. -/
theorem launchSystem_inv {n : ℕ} {config : HostConfig n} {h : HostState n}
    (hreach : Reach (launchSystem config) HostStep.HasVcpu h) :
    h.Inv config ∧ h.Confined config := by
  refine hreach.invariant (P := fun h => h.Inv config ∧ h.Confined config) ?_ ?_
  · exact fun h hinit => ⟨HostState.Inv.booted hinit.1, hinit.2.confined⟩
  · exact fun h a h' hvcpu hstep hs =>
      ⟨hs.1.step hstep.1 hstep.2, hs.2.step hs.1 hvcpu hstep.2⟩

/-- **Separation.** Whatever the others do, and the hypervisor for them, in whatever order: a
virtual machine is left as it was. -/
theorem virtual_machines_separated {n : ℕ} (config : HostConfig n) (vm : Fin n) {h h' : HostState n}
    (hreach : Reach (launchSystem config) HostStep.HasVcpu h)
    (hothers : Reach ((launchSystem config).startAt h)
      (fun h a => a.HasVcpu h ∧ ¬ a.Concerns config vm) h') :
    HostState.Untouched config vm h h' := by
  refine (hothers.respects (P := fun h => h.Inv config ∧ h.Confined config)
    HostState.Untouched.refl HostState.Untouched.trans ?_ (launchSystem_inv hreach)).2
  rintro h a h' ⟨hinv, hconf⟩ ⟨hvcpu, hnot⟩ ⟨hok, hstep⟩
  exact ⟨⟨hinv.step hok hstep, hconf.step hinv hvcpu hstep⟩,
    hinv.untouched_step hconf hvcpu hnot hok hstep⟩

/-! ## Two virtual machines -/

theorem VmCpus.createdVcpus_prepareVcpu {c : VmCpus} {vm : ℕ} {p : PcpuId}
    {msrs : PcpuId → PcpuMsrs} (hlt : c.createdVcpus vm < maxPcpuNum) :
    (c.prepareVcpu vm p msrs).createdVcpus =
      Function.update c.createdVcpus vm (c.createdVcpus vm + 1) := by
  rw [prepareVcpu]
  exact congrArg (fun c : VmCpus => c.createdVcpus) (dif_pos hlt)

/-- `create_vm` makes a vCPU for each bitmap. -/
theorem HostState.createdVcpus_createVm {n : ℕ} {config : HostConfig n} {vm : Fin n}
    {h : HostState n} (hle : (config.vms vm).pcpus.length ≤ maxPcpuNum) :
    (h.createVm config vm).cpus.createdVcpus =
      Function.update h.cpus.createdVcpus vm (config.vms vm).pcpus.length := by
  have hprepare : ∀ (ps : List PcpuId) (c : VmCpus), c.createdVcpus vm + ps.length ≤ maxPcpuNum →
      (ps.foldl (fun c p => c.prepareVcpu vm p config.msrs) c).createdVcpus =
        Function.update c.createdVcpus vm (c.createdVcpus vm + ps.length) := by
    intro ps
    induction ps with
    | nil => exact fun c _ => (Function.update_eq_self ..).symm
    | cons p ps ih =>
      intro c hc
      rw [List.length_cons] at hc ⊢
      have hcreated : (c.prepareVcpu vm p config.msrs).createdVcpus =
          Function.update c.createdVcpus vm (c.createdVcpus vm + 1) :=
        VmCpus.createdVcpus_prepareVcpu (by omega)
      rw [List.foldl_cons, ih _ (by rw [hcreated, Function.update_self]; omega), hcreated,
        Function.update_self, Function.update_idem, Nat.add_assoc, Nat.add_comm 1]
  have hcleared : Function.update h.cpus.createdVcpus vm 0 vm = 0 := Function.update_self ..
  refine (hprepare _ (h.cpus.onMachine (·.setCreated vm 0 (Nat.zero_le maxPcpuNum))) ?_).trans ?_
  · exact (congrArg (· + _) hcleared).trans_le ((Nat.zero_add _).trans_le hle)
  · show Function.update (Function.update h.cpus.createdVcpus vm 0) vm
      (Function.update h.cpus.createdVcpus vm 0 vm + _) = _
    rw [hcleared, Nat.zero_add, Function.update_idem]

theorem twoBooted_unused : twoBooted.Unused where
  threads := by
    rintro p v i (hcurr | hslot)
    · cases hcurr
    · cases hslot
  requests := fun _ => rfl

/-- Both are created, -/
def twoCreated : HostState 2 :=
  (twoBooted.createVm twoVms ⟨0, Nat.two_pos⟩).createVm twoVms ⟨1, Nat.one_lt_two⟩

theorem two_lt_maxPcpuNum : 2 < maxPcpuNum := by decide

/-- and started. -/
def twoStarted : HostState 2 :=
  (twoCreated.startVm ⟨0, Nat.two_pos⟩ ⟨0, zero_lt_maxPcpuNum⟩).startVm ⟨1, Nat.one_lt_two⟩
    ⟨2, two_lt_maxPcpuNum⟩

/-- Each has two vCPUs. -/
theorem createdVcpus_twoCreated (vm : Fin 2) : 0 < twoCreated.cpus.createdVcpus vm := by
  have hlength : ∀ vm, (twoVms.vms vm).pcpus.length = 2 := by decide
  have hcreated : ∀ (h : HostState 2) (v : Fin 2), (h.createVm twoVms v).cpus.createdVcpus =
      Function.update h.cpus.createdVcpus v 2 := by
    intro h v
    rw [HostState.createdVcpus_createVm, hlength]
    exact (hlength v).trans_le (by decide)
  rw [twoCreated, hcreated, hcreated]
  revert vm
  decide

theorem HostState.createdVcpus_startVm {n : ℕ} {vm : Fin n} {cur : PcpuId} {h : HostState n} :
    (h.startVm vm cur).cpus.createdVcpus = h.cpus.createdVcpus :=
  VmCpus.startVcpu_keeps.createdVcpus

theorem HostState.createdVcpus_pauseVm {n : ℕ} {vm : Fin n} {cur : PcpuId} {h : HostState n} :
    (h.pauseVm vm cur).cpus.createdVcpus = h.cpus.createdVcpus := by
  rw [pauseVm]
  split
  · exact VmCpus.pauseVcpus_keeps.createdVcpus
  · rfl

/-- The two virtual machines are created and started, in four steps. -/
theorem twoStarted_reach : Reach (launchSystem twoVms) HostStep.HasVcpu twoStarted := by
  have hcreated : Reach (launchSystem twoVms) HostStep.HasVcpu twoCreated :=
    .step (a := .createVm 1) (.step (a := .createVm 0)
      (.init ⟨twoBooted_booted, twoBooted_unused⟩) trivial ⟨rfl, rfl⟩) trivial ⟨rfl, rfl⟩
  have hfirst : Reach (launchSystem twoVms) HostStep.HasVcpu (twoCreated.startVm 0 0) :=
    .step (a := .startVm 0 0) hcreated (createdVcpus_twoCreated 0) ⟨rfl, rfl⟩
  have hvcpu : 0 < (twoCreated.startVm 0 0).cpus.createdVcpus 1 := by
    rw [HostState.createdVcpus_startVm]
    exact createdVcpus_twoCreated 1
  exact .step (a := .startVm 1 2) hfirst hvcpu ⟨rfl, rfl⟩

/-- The first is paused, and its shutdown is asked for. -/
def twoPaused : HostState 2 := twoStarted.pauseVm ⟨0, Nat.two_pos⟩ ⟨0, zero_lt_maxPcpuNum⟩

theorem createdVcpus_twoPaused : 0 < twoPaused.cpus.createdVcpus 0 := by
  rw [twoPaused, HostState.createdVcpus_pauseVm, twoStarted, HostState.createdVcpus_startVm,
    HostState.createdVcpus_startVm]
  exact createdVcpus_twoCreated 0

/-- Both are started, and the first is paused and shut down by one of its own pCPUs. -/
theorem virtual_machines_separated_two :
    ∃ h : HostState 2, twoStarted.state 1 = .started ∧ h.state 0 = .poweredOff ∧
      HostState.Untouched twoVms 1 twoStarted h := by
  let qi : VpciVdev → QiStatus := fun _ => ⟨0x5000#64, 0x5000#64, 0x5000#64⟩
  let gone : PcpuId → Bool := fun _ => true
  have hne : (0 : Fin 2) ≠ 1 := by decide
  have hpcpu : (0 : PcpuId) ∉ (smallVm 1).pcpus := by decide
  have hpause : Reach ((launchSystem twoVms).startAt twoStarted)
      (fun h a => a.HasVcpu h ∧ ¬ a.Concerns twoVms 1) twoPaused :=
    .step (a := .pauseVm 0 0) (.init rfl) ⟨trivial, hne⟩ ⟨trivial, rfl⟩
  have hrequest : Reach ((launchSystem twoVms).startAt twoStarted)
      (fun h a => a.HasVcpu h ∧ ¬ a.Concerns twoVms 1) (twoPaused.requestShutdown 0 0 0) :=
    .step (a := .requestShutdown 0 0 0) hpause ⟨createdVcpus_twoPaused, hne⟩ ⟨trivial, rfl⟩
  have hidle : Reach ((launchSystem twoVms).startAt twoStarted)
      (fun h a => a.HasVcpu h ∧ ¬ a.Concerns twoVms 1)
      ((twoPaused.requestShutdown 0 0 0).idle twoVms 0 gone qi) :=
    .step (a := .idle 0 gone qi) hrequest ⟨trivial, hpcpu⟩ ⟨rfl, rfl⟩
  exact ⟨_, rfl, rfl, virtual_machines_separated twoVms 1 twoStarted_reach hidle⟩

end Acrn
