import Acrn.HostState
import Acrn.Vmsi

/-!
# Teardown

`shutdown_vm` takes a virtual machine out of everything that `create_vm` put it into, in an order in
which no device can reach the EPT any more when it is destroyed, and touches no other virtual
machine. Whoever asks for it, it happens once.
-/

namespace Acrn

open Transition

/-! ## Setup as a list of calls -/

section SetupCalls

variable {ops : MemoryOps} {ept : PgMem}

/-- The three loops of `create_vm` that change the EPT are lists of calls: that over the entries of
the E820, -/
theorem memmapEntries_eq (entries : List E820Entry) (baseHpa remainingHpaSize : Word) :
    memmapEntries ops entries baseHpa remainingHpaSize ept =
      (memmapCalls entries baseHpa remainingHpaSize).foldl (fun ept c => c.run ops ept) ept := by
  induction entries generalizing baseHpa remainingHpaSize ept with
  | nil => rfl
  | cons entry entries ih =>
    rw [memmapEntries, memmapCalls]
    split
    · rfl
    split
    · exact ih _ _
    split
    · exact ih _ _
    · exact ih _ _

/-- that over the pages of a BAR, -/
theorem vdevPtMapMemVbar_eq (vdev : PciVdev) (idx : ℕ) :
    vdevPtMapMemVbar ops vdev idx ept =
      (vdev.bar idx).mapCalls.foldl (fun ept c => c.run ops ept) ept := by
  rw [vdevPtMapMemVbar, PciBar.mapCalls]
  split
  · rfl
  · rfl

/-- A loop whose turns are lists of calls. -/
theorem foldl_flatMap_run {α : Type} (xs : List α) (calls : α → List EptCall)
    {body : PgMem → α → PgMem}
    (hbody : ∀ ept x, body ept x = (calls x).foldl (fun ept c => c.run ops ept) ept) :
    xs.foldl body ept = (xs.flatMap calls).foldl (fun ept c => c.run ops ept) ept := by
  induction xs generalizing ept with
  | nil => rfl
  | cons x xs ih => rw [List.foldl_cons, ih, hbody, List.flatMap_cons, List.foldl_append]

/-- and that over the devices. -/
theorem AcrnVmConfig.mapVbars_eq {n : ℕ} (config : AcrnVmConfig n) : config.mapVbars ops ept =
    (config.pciDevs.flatMap VpciVdev.mapCalls).foldl (fun ept c => c.run ops ept) ept := by
  refine foldl_flatMap_run _ _ fun ept vdev => ?_
  rw [VpciVdev.mapCalls]
  cases hops : vdev.vdevOps with
  | vhostbridge =>
    have hnot : ¬ vdev.Pt := fun hpt => PciVdevOps.noConfusion (hops.symm.trans hpt)
    rw [if_neg hnot]
    rfl
  | ptDev =>
    have hpt : vdev.Pt := hops
    rw [if_pos hpt]
    exact foldl_flatMap_run _ _ fun ept idx => vdevPtMapMemVbar_eq vdev.toPciVdev idx

end SetupCalls

namespace EptArrays

variable {n : ℕ} {pools : EptPools n} {vm : Fin n} {s : EptArrays n}

theorem apply_apply (f g : PgMem → PgMem) :
    (s.apply vm f).apply vm g = s.apply vm fun ept => g (f ept) := by
  have hpgMem := pgMem_apply s vm f
  rw [apply, hpgMem]
  refine congrArg (EptArrays.mk _) ?_
  exact Function.update_idem ..

theorem apply_foldl (cs : List EptCall) :
    s.apply vm (fun ept => cs.foldl (fun ept c => c.run (pools.ops vm) ept) ept) =
      s.calls pools vm cs := by
  induction cs generalizing s with
  | nil =>
    refine congrArg (EptArrays.mk _) ?_
    exact Function.update_eq_self ..
  | cons c cs ih => rw [calls, List.foldl_cons, ← calls, ← ih, apply_apply]; rfl

end EptArrays

namespace HostState

variable {n : ℕ} {config : HostConfig n} {vm vm' : Fin n} {h h' : HostState n}

/-- What `create_vm` does to the EPT. -/
theorem ept_createVm : (h.createVm config vm).ept =
    (h.ept.apply vm (createEpt (config.pools.ops vm))).calls config.pools vm
      (config.vms vm).setupCalls := by
  have hsetup : ∀ ept, (config.vms vm).setupCalls.foldl
      (fun ept c => c.run (config.pools.ops vm) ept) ept = (config.vms vm).mapVbars
        (config.pools.ops vm) (preparePrelaunchedVmMemmap (config.pools.ops vm)
          (config.vms vm).memory ept) := by
    intro ept
    rw [AcrnVmConfig.setupCalls, List.foldl_append, ← memmapEntries_eq, ← AcrnVmConfig.mapVbars_eq,
      preparePrelaunchedVmMemmap]
  have hept : (h.createVm config vm).ept =
      ((h.ept.apply vm (createEpt (config.pools.ops vm))).apply vm
        (preparePrelaunchedVmMemmap (config.pools.ops vm) (config.vms vm).memory)).apply vm
          ((config.vms vm).mapVbars (config.pools.ops vm)) := rfl
  rw [hept, EptArrays.apply_apply _ ((config.vms vm).mapVbars (config.pools.ops vm)),
    ← EptArrays.apply_foldl]
  exact congrArg (EptArrays.apply _ vm) (funext fun ept => (hsetup ept).symm)

/-! ## The invariant

The invariant is that of each part: of the EPTs, of the devices, of the vUARTs and of the vCPUs,
all for the same set of virtual machines that are up. A step mostly concerns one part. -/

/-- All parts are in order, for the virtual machines that are up, and those that were torn down are
powered off for good. -/
structure Inv (config : HostConfig n) (h : HostState n) : Prop where
  ept : h.ept.Inv config.pools h.up h.launched
  devices : h.devices.Inv config.devices config.ctx h.up
  vuarts : VuartRun.Paired ⟨h.vuarts, h.up⟩
  cpus : h.cpus.Inv (fun vm => (config.vms vm).pcpus) h.up
  launched : ∀ {vm}, h.up vm = true → h.launched vm = true
  once : h.teardowns.Nodup
  off : ∀ vm ∈ h.teardowns, h.launched vm = true ∧ h.up vm = false

theorem up_of_state {state : VmLifeState} (hstate : h.state vm = state)
    (hne : state ≠ .poweredOff) : h.up vm = true := by
  rw [up, hstate]
  exact decide_eq_true hne

/-- Which virtual machines are up is told by their states, so an update of a state is one of that
set. -/
theorem up_update {state : VmLifeState} (hstate : h'.state = Function.update h.state vm state) :
    h'.up = Function.update h.up vm (decide (state ≠ .poweredOff)) := by
  funext vm'
  rw [up, hstate]
  by_cases hvm : vm' = vm
  · rw [hvm, Function.update_self, Function.update_self]
  · rw [Function.update_of_ne hvm, Function.update_of_ne hvm, up]

theorem up_of_update {state : VmLifeState} (hstate : h'.state = Function.update h.state vm state)
    (hne : state ≠ .poweredOff) : h'.up = Function.update h.up vm true := by
  rw [up_update hstate, decide_eq_true hne]

/-! ### Parts -/

/-- A change of state that keeps a virtual machine up leaves all parts as they are. -/
theorem Inv.setState (hinv : h.Inv config) (hup : h.up vm = true) {state : VmLifeState}
    (hne : state ≠ .poweredOff) : (h.setState vm state).Inv config := by
  have hstate : (h.setState vm state).state = Function.update h.state vm state := rfl
  have hsame : (h.setState vm state).up = h.up := by
    rw [up_of_update hstate hne, ← hup]
    exact Function.update_eq_self ..
  constructor
  case once => exact hinv.once
  all_goals
    rw [hsame]
  case ept => exact hinv.ept
  case devices => exact hinv.devices
  case vuarts => exact hinv.vuarts
  case cpus => exact hinv.cpus
  case launched => exact hinv.launched
  case off => exact hinv.off

/-- What happens to the vCPUs alone concerns the other parts only by which of them are there. -/
theorem Inv.onCpus {f : VmCpus → VmCpus} (hinv : h.Inv config)
    (hcpus : (f h.cpus).Inv (fun vm => (config.vms vm).pcpus) h.up) : (h.onCpus f).Inv config :=
  ⟨hinv.ept, hinv.devices, hinv.vuarts, hcpus, hinv.launched, hinv.once, hinv.off⟩

/-- What leaves it at that which vCPUs there are. -/
theorem Inv.keeps {f : VmCpus → VmCpus} (hinv : h.Inv config)
    (hkeeps : h.cpus.toMachine.Keeps (f h.cpus).toMachine) : (h.onCpus f).Inv config :=
  hinv.onCpus (hinv.cpus.keeps hkeeps)

/-! ### Creation -/

/-- A virtual machine that was never launched has nothing in any of the parts yet. `create_vm` puts
it into each of them, and the others stay. -/
theorem Inv.createVm (hinv : h.Inv config) (hfresh : h.launched vm = false) :
    (h.createVm config vm).Inv config := by
  have hdown : h.up vm = false := by
    refine Bool.eq_false_iff.mpr fun hup => ?_
    rw [hinv.launched hup] at hfresh
    cases hfresh
  have hstate : (h.createVm config vm).state = Function.update h.state vm .created := rfl
  have hup := up_of_update hstate (by decide)
  have hne : ∀ {vm'}, vm' ∈ h.teardowns → vm' ≠ vm := by
    rintro vm' hmem rfl
    rw [(hinv.off _ hmem).1] at hfresh
    cases hfresh
  have hlaunched : (h.createVm config vm).launched = Function.update h.launched vm true := rfl
  constructor
  case once => exact hinv.once
  all_goals
    rw [hup]
  case ept =>
    rw [ept_createVm, hlaunched]
    exact ((hinv.ept.create hfresh).1.calls (Function.update_self ..) (Function.update_self ..)
      (config.setup_admissible vm)).1
  case devices => exact hinv.devices.vpciInit hdown
  case vuarts =>
    have hcreate : VuartRun.step config.vuart ⟨h.vuarts, h.up⟩ (.createVm vm) =
        some ⟨h.vuarts.createVm vm (config.vms vm).vuart, Function.update h.up vm true⟩ :=
      if_pos hdown
    exact hinv.vuarts.createVm hcreate
  case cpus =>
    have hclear := hinv.cpus.clear vm
    have hprepare : ∀ ps : List PcpuId, (∀ p ∈ ps, p ∈ (config.vms vm).pcpus) →
        ∀ c : VmCpus, c.Inv (fun vm => (config.vms vm).pcpus) (Function.update h.up vm true) →
        (ps.foldl (fun c p => c.prepareVcpu vm p config.msrs) c).Inv
          (fun vm => (config.vms vm).pcpus) (Function.update h.up vm true) := by
      intro ps hps
      induction ps with
      | nil => exact fun _ hc => hc
      | cons p ps ih =>
        exact fun c hc => ih (fun q hq => hps q (List.mem_cons_of_mem p hq)) _
          (hc.prepareVcpu (hps p List.mem_cons_self) config.msrs)
    exact hprepare _ (fun _ hp => hp) _ hclear
  case launched =>
    rw [hlaunched]
    intro vm' hvm'
    by_cases heq : vm' = vm
    · rw [heq, Function.update_self]
    · rw [Function.update_of_ne heq] at hvm' ⊢
      exact hinv.launched hvm'
  case off =>
    rw [hlaunched]
    intro vm' hmem
    rw [Function.update_of_ne (hne hmem), Function.update_of_ne (hne hmem)]
    exact hinv.off vm' hmem

/-! ## What `shutdown_vm` does

The order of the calls matters for one thing: the devices are out of their domain while the EPT is
still there. `TornDown` records it. -/

/-- A virtual machine is out of everything from `h` to `h'`, and its devices were when the EPT was
still as before, in `released`. -/
structure TornDown (config : HostConfig n) (vm : Fin n) (gone : PcpuId → Bool)
    (qi : VpciVdev → QiStatus) (h released h' : HostState n) : Prop where
  state : h'.state vm = .poweredOff
  devices : DeviceState.Released config.devices config.ctx vm qi h.devices released.devices
  eptKept : released.ept = h.ept
  devicesKept : h'.devices = released.devices
  unmapped : ∀ v < 2 ^ 48, leaf (config.pools.ops vm) h'.ept.mem v = none
  vuarts : ∀ {u w}, h'.vuarts.peer u = some w → u.1 ≠ vm ∧ w.1 ≠ vm
  cpus : VmCpus.ShutDown vm gone h.cpus h'.cpus

/-- Nothing of a virtual machine has changed from `h` to `h'`. -/
structure Untouched (config : HostConfig n) (vm : Fin n) (h h' : HostState n) : Prop where
  state : h'.state vm = h.state vm
  ept : h.up vm = true → EptArrays.SameLeaves config.pools vm h.ept h'.ept
  contexts : ∀ bus devfun, config.devices.Owns vm bus devfun →
    h'.devices.dmar.dmar.contextEntry bus devfun = h.devices.dmar.dmar.contextEntry bus devfun
  irtes : ∀ vdev ∈ (config.vms vm).pciDevs,
    h'.devices.dmar.dmar.unit.irTable (irteIndex vm vdev.bdf) =
      h.devices.dmar.dmar.unit.irTable (irteIndex vm vdev.bdf)
  vcpu : ∀ i, h'.cpus.vcpu vm i = h.cpus.vcpu vm i
  perCpu : ∀ p ∈ (config.vms vm).pcpus, h'.cpus.perCpu p = h.cpus.perCpu p
  sched : ∀ p ∈ (config.vms vm).pcpus, h'.cpus.sched p = h.cpus.sched p

section ShutdownVm

variable (cur : PcpuId) (gone : PcpuId → Bool) (qi : VpciVdev → QiStatus)

/-- The loop of `shutdown_vm` takes every vCPU off line: none is off line before, since the virtual
machine is up. -/
theorem Inv.shutDown (hinv : h.Inv config) (hup : h.up vm = true) :
    VmCpus.ShutDown vm gone h.cpus (h.cpus.shutdownVcpus vm cur gone) :=
  VmCpus.shutdownVcpus_shutDown (hinv.cpus.online vm hup) gone

/-- No vUART of the virtual machine is connected, nor to one of it. -/
theorem Inv.deinitVuart (hinv : h.Inv config) (hup : h.up vm = true) :
    VuartRun.Paired ⟨h.vuarts.deinitVuart vm, Function.update h.up vm false⟩ ∧
      ∀ {u w}, (h.vuarts.deinitVuart vm).peer u = some w → u.1 ≠ vm ∧ w.1 ≠ vm := by
  have hdeinit : VuartRun.step config.vuart ⟨h.vuarts, h.up⟩ (.deinitVuart vm) =
      some ⟨h.vuarts.deinitVuart vm, Function.update h.up vm false⟩ := rfl
  obtain ⟨hpaired, hpeer⟩ := hinv.vuarts.deinitVuart hup hdeinit
  exact ⟨hpaired, fun huw => (hpeer huw).2⟩

/-- **Teardown is complete.** -/
theorem Inv.tornDown (hinv : h.Inv config) (hup : h.up vm = true) :
    TornDown config vm gone qi h (h.releaseVm config vm cur gone qi)
      (h.shutdownVm config vm cur gone qi) where
  state := Function.update_self ..
  devices := (hinv.devices.released hup qi).destroyDomain
  eptKept := rfl
  devicesKept := rfl
  unmapped := (hinv.ept.destroy (hinv.launched hup)).2.2
  vuarts := (hinv.deinitVuart hup).2
  cpus := hinv.shutDown cur gone hup

/-- **Teardown touches only its own virtual machine.** -/
theorem Inv.untouched (hinv : h.Inv config) (hup : h.up vm = true) (hne : vm' ≠ vm) :
    Untouched config vm' h (h.shutdownVm config vm cur gone qi) := by
  have hreleased := hinv.devices.released hup qi
  have hcpus := (hinv.shutDown cur gone hup).only
  -- the pCPUs of the other machine have no vCPU of this one
  have hpcpu : ∀ p ∈ (config.vms vm').pcpus, ∀ i < h.cpus.createdVcpus vm,
      h.cpus.pcpuOf vm i ≠ p := by
    rintro p hp i hi rfl
    exact hne (config.disjoint hp (hinv.cpus.placed vm i hi))
  constructor
  case state => exact Function.update_of_ne hne ..
  case ept =>
    exact fun hvm' => ((hinv.ept.destroy (hinv.launched hup)).2.1.other hne (hinv.ept.sound hvm')).2
  case contexts =>
    exact fun bus devfun howns =>
      hreleased.contexts bus devfun (DeviceConfig.owns_ne howns hne)
  case irtes =>
    refine fun vdev hvdev => hreleased.irtes _ ?_
    rintro ⟨vdev', -, -, -, hindex⟩
    exact config.devices.irteIndex_ne hne _ _ hindex.symm
  case vcpu => exact fun i => hcpus.vcpu vm' i fun heq => hne (Fin.ext heq)
  case perCpu => exact fun p hp => hcpus.perCpu p (hpcpu p hp)
  case sched => exact fun p hp => hcpus.sched p (hpcpu p hp)

/-- **Teardown happens once**, and leaves the others in order. -/
theorem Inv.shutdownVm (hinv : h.Inv config) (hup : h.up vm = true) :
    (h.shutdownVm config vm cur gone qi).Inv config := by
  have hstate : (h.shutdownVm config vm cur gone qi).state =
      Function.update h.state vm .poweredOff := rfl
  have hdown : (h.shutdownVm config vm cur gone qi).up = Function.update h.up vm false :=
    up_update hstate
  have hnew : vm ∉ h.teardowns := by
    intro hmem
    rw [(hinv.off vm hmem).2] at hup
    cases hup
  constructor
  case once =>
    refine List.nodup_append.mpr ⟨hinv.once, List.nodup_singleton vm, ?_⟩
    rintro vm' hmem _ hself rfl
    exact hnew (List.mem_singleton.mp hself ▸ hmem)
  all_goals
    rw [hdown]
  case ept => exact (hinv.ept.destroy (hinv.launched hup)).1
  case devices => exact hinv.devices.release hup
  case vuarts => exact (hinv.deinitVuart hup).1
  case cpus => exact hinv.cpus.shutDown (hinv.shutDown cur gone hup)
  case launched =>
    intro vm' hvm'
    have hne : vm' ≠ vm := by
      rintro rfl
      rw [Function.update_self] at hvm'
      cases hvm'
    rw [Function.update_of_ne hne] at hvm'
    exact hinv.launched hvm'
  case off =>
    intro vm' hmem
    obtain hmem | hself := List.mem_append.mp hmem
    · have hne : vm' ≠ vm := by
        rintro rfl
        exact hnew hmem
      rw [Function.update_of_ne hne]
      exact hinv.off vm' hmem
    · rw [List.mem_singleton.mp hself, Function.update_self]
      exact ⟨hinv.launched hup, rfl⟩

end ShutdownVm

/-! ## Every step -/

theorem Inv.pauseVm (hinv : h.Inv config) (cur : PcpuId) : (h.pauseVm vm cur).Inv config := by
  rw [HostState.pauseVm]
  split
  · next hstarted =>
    have hpause := hinv.keeps (f := (·.pauseVcpus vm cur)) VmCpus.pauseVcpus_keeps
    exact hpause.setState (up_of_state hstarted (by decide)) (by decide)
  · exact hinv

/-- What the idle thread does is a teardown, or it takes a pCPU off line, which no part depends
on. -/
theorem Inv.idle (hinv : h.Inv config) (p : PcpuId) (gone : PcpuId → Bool)
    (qi : VpciVdev → QiStatus) : (h.idle config p gone qi).Inv config := by
  rw [HostState.idle]
  split
  · exact hinv.keeps (f := (·.updatePcpu p PerCpuRegion.goOffline)) (.refl _)
  split
  · have hclear := hinv.keeps
      (f := (·.updatePcpu p fun r => { r with needShutdownVm := false })) (.refl _)
    rw [shutdownVmFromIdle]
    split
    · next hvm =>
      dsimp only
      split
      · next hpaused => exact hclear.shutdownVm p gone qi (up_of_state hpaused (by decide))
      · exact hclear
    · exact hclear
  · exact hinv

/-- At the boot no virtual machine is up, and the parts are those of no machine. -/
theorem Inv.booted (hboot : h.Booted config) : h.Inv config := by
  have hup : h.up = fun _ => false := by
    funext vm
    rw [up, hboot.state]
    rfl
  constructor
  case once =>
    rw [hboot.teardowns]
    exact List.nodup_nil
  all_goals
    rw [hup]
  case ept =>
    refine ⟨hboot.page, fun _ => congrFun hboot.requests _, fun hvm => ?_⟩
    cases hvm
  case devices => exact DeviceState.inv_init hboot.dmar
  case vuarts =>
    rw [hboot.vuarts]
    exact .zeroed
  case cpus =>
    refine ⟨fun vm i hi => ?_, fun vm hvm => ?_⟩
    · rw [hboot.createdVcpus] at hi
      exact absurd hi (Nat.not_lt_zero i)
    · cases hvm
  case launched => exact fun hvm => absurd hvm Bool.false_ne_true
  case off =>
    rw [hboot.teardowns]
    exact fun vm hmem => absurd hmem List.not_mem_nil

/-- **Every step.** -/
theorem Inv.step (hinv : h.Inv config) {a : HostStep n} (hok : a.Allowed config h)
    (hstep : a.run config h = some h') : h'.Inv config := by
  cases a with
  | createVm vm =>
    obtain rfl := Option.some.inj hstep
    exact hinv.createVm hok
  | startVm vm cur =>
    obtain rfl := Option.some.inj hstep
    have hup : h.up vm = true := up_of_state hok (by decide)
    exact (hinv.setState hup (by decide)).keeps (f := (·.startVcpu vm cur)) VmCpus.startVcpu_keeps
  | eptCall vm c =>
    obtain rfl := Option.some.inj hstep
    exact { hinv with ept := (hinv.ept.call hok.1 (hinv.launched hok.1) hok.2).1 }
  | msixRemap vm vdev irte qiStatus =>
    obtain rfl := Option.some.inj hstep
    obtain ⟨-, hmem, hpt, hmsi⟩ := hok
    exact { hinv with devices := hinv.devices.assign hmem hpt hmsi vdev.pbdf irte qiStatus }
  | vuartCall call =>
    obtain rfl := Option.some.inj hstep
    have hcall : VuartRun.step config.vuart ⟨h.vuarts, h.up⟩ (.call call) =
        some ⟨{ h.vuarts with vuarts := (call.run h.vuarts.vuarts).2 }, h.up⟩ := rfl
    exact { hinv with vuarts := hinv.vuarts.call hcall }
  | runVcpu vm i vcpu =>
    obtain rfl := Option.some.inj hstep
    obtain ⟨-, hpcpu, hstate⟩ := hok
    refine hinv.keeps (f := (·.onMachine (·.updateVcpu vm i fun _ => vcpu))) ?_
    refine .updateVcpu_at (f := fun _ => vcpu) hpcpu fun hon => ?_
    rwa [hstate]
  | vcpuMakeRequest vm i cur eventid =>
    obtain rfl := Option.some.inj hstep
    exact hinv.keeps (f := (·.onMachine (·.vcpuMakeRequest vm i cur eventid)))
      (.vcpuMakeRequest eventid)
  | writeIcr vm i val =>
    obtain rfl := Option.some.inj hstep
    exact hinv.keeps (f := (·.onMachine fun m => (m.vlapicX2apicWriteIcr vm i val).2))
      (.vlapicX2apicWriteIcr val)
  | pauseVm vm cur =>
    obtain rfl := Option.some.inj hstep
    exact hinv.pauseVm cur
  | requestShutdown vm i cur =>
    obtain rfl := Option.some.inj hstep
    set p := (h.cpus.vcpu vm i).pcpuId
    have hid := hinv.keeps (f := (·.updatePcpu p fun r => { r with shutdownVmId := vm })) (.refl _)
    exact hid.keeps (f := (·.makeShutdownVmRequest cur p)) VmCpus.makeShutdownVmRequest_keeps
  | schedule p =>
    obtain ⟨cpus, hcpus, rfl⟩ := Option.map_eq_some_iff.mp hstep
    exact hinv.keeps (f := fun _ => cpus) (VmCpus.schedule_keeps hcpus)
  | idle p gone qi =>
    obtain rfl := Option.some.inj hstep
    exact hinv.idle p gone qi

/-- By the invariant rule. -/
theorem reach_inv (hreach : Reach (hostSystem config) any h) : h.Inv config := by
  refine hreach.invariant (P := Inv config) (fun _ => Inv.booted) fun s a s' _ hstep hs => ?_
  exact hs.step hstep.1 hstep.2

end HostState

/-- **The teardown of virtual machines**, in every state of every run. -/
theorem shutdown_vm_complete {n : ℕ} (config : HostConfig n) {h : HostState n}
    (hreach : Reach (hostSystem config) any h) :
    h.teardowns.Nodup ∧
    ∀ (vm : Fin n) (cur : PcpuId) (gone : PcpuId → Bool) (qi : VpciVdev → QiStatus),
      h.state vm = .paused →
      HostState.TornDown config vm gone qi h (h.releaseVm config vm cur gone qi)
        (h.shutdownVm config vm cur gone qi) ∧
      ∀ vm', vm' ≠ vm → HostState.Untouched config vm' h (h.shutdownVm config vm cur gone qi) := by
  have hinv := HostState.reach_inv hreach
  refine ⟨hinv.once, fun vm cur gone qi hpaused => ?_⟩
  have hup : h.up vm = true := HostState.up_of_state hpaused (by decide)
  exact ⟨hinv.tornDown cur gone qi hup, fun vm' hne => hinv.untouched cur gone qi hup hne⟩

/-! ## Two virtual machines -/

/-- The arrays of a second virtual machine, behind those of the first. -/
def uosInfo1 : PgtablePagesInfo where
  pml4Base := 0x3000000
  pdptBase := 0x3001000
  pdBase := 0x3002000
  ptBase := 0x3010000
  window := 0x280000000
  ptPool := true
  sanitizedPage := 0x800000

theorem uosInfo1_window_le : uosInfo1.window ≤ 2 ^ 48 := by decide

theorem uosInfo1_base_dvd (l : PageTableLevel) : pageSize ∣ uosInfo1.base l := by cases l <;> decide

theorem uosInfo1_base_le (l : PageTableLevel) :
    uosInfo1.base l + pageSize * uosInfo1.pageNum l ≤ 2 ^ 39 := by cases l <;> decide

theorem uosInfo1_disjoint (l l' : PageTableLevel) (h : l ≠ l') :
    uosInfo1.base l + pageSize * uosInfo1.pageNum l ≤ uosInfo1.base l' ∨
      uosInfo1.base l' + pageSize * uosInfo1.pageNum l' ≤ uosInfo1.base l := by
  cases l <;> cases l' <;> first | exact absurd rfl h | decide

theorem uosInfo1_sanitized_dvd : pageSize ∣ uosInfo1.sanitizedPage := by decide

theorem uosInfo1_sanitized_le : uosInfo1.sanitizedPage + pageSize ≤ 2 ^ 39 := by decide

theorem uosInfo1_sanitized_disjoint (l : PageTableLevel) :
    uosInfo1.base l + pageSize * uosInfo1.pageNum l ≤ uosInfo1.sanitizedPage ∨
      uosInfo1.sanitizedPage + pageSize ≤ uosInfo1.base l := by cases l <;> decide

def uosLayout1 : PoolLayout where
  toPgtablePagesInfo := uosInfo1
  window_le := uosInfo1_window_le
  base_dvd := uosInfo1_base_dvd
  base_le := uosInfo1_base_le
  disjoint := uosInfo1_disjoint
  sanitized_dvd := uosInfo1_sanitized_dvd
  sanitized_le := uosInfo1_sanitized_le
  sanitized_disjoint := uosInfo1_sanitized_disjoint

/-- The arrays of both. -/
def uosLayouts (vm : Fin 2) : PoolLayout := if vm.val = 0 then uosLayout else uosLayout1

theorem uosLayouts_ptPool : ∀ vm, (uosLayouts vm).ptPool = true := by decide

theorem uosLayouts_sanitizedPage : ∀ vm, (uosLayouts vm).sanitizedPage = 0x800000 := by decide

theorem uosLayouts_pml4Base : ∀ vm, (uosLayouts vm).pml4Base ≠ 0 := by decide

theorem uosLayouts_range : ∀ vm : Fin 2, ∀ l,
    0x1000000 + 0x2000000 * vm.val ≤ (uosLayouts vm).base l ∧
      (uosLayouts vm).base l + pageSize * (uosLayouts vm).pageNum l ≤
        0x3000000 + 0x2000000 * vm.val := by
  intro vm l
  revert vm
  cases l <;> decide

theorem uosLayouts_apart {vm vm' : Fin 2} (hne : vm ≠ vm') {a : ℕ} (h : (uosLayouts vm).Holds a) :
    ¬ (uosLayouts vm').Holds a := by
  rintro ⟨l', hle', hlt'⟩
  obtain ⟨l, hle, hlt⟩ := h
  have hrange := uosLayouts_range vm l
  have hrange' := uosLayouts_range vm' l'
  omega

def uosPools : EptPools 2 where
  info := uosLayouts
  isEptForce4kIpage := false
  sanitizedPage := 0x800000
  ptPool := uosLayouts_ptPool
  sanitizedPage_eq := uosLayouts_sanitizedPage
  pml4Base_ne := uosLayouts_pml4Base
  apart := uosLayouts_apart

theorem ffs64_single : ∀ p : PcpuId, ffs64 (1#64 <<< p.val) < maxPcpuNum := by decide

/-- The bitmap of one pCPU. -/
def onlyPcpu (p : PcpuId) : { map : Word // ffs64 map < maxPcpuNum } :=
  ⟨1#64 <<< p.val, ffs64_single p⟩

/-- A virtual machine with 2 MByte of memory and an MSI device. The vUARTs of the two name each
other. -/
def smallVm (vm : Fin 2) : AcrnVmConfig 2 where
  memory := ⟨if vm.val = 0 then 0x100000000#64 else 0x140000000#64, 0x200000#64⟩
  pciDevs := [{ (msiStart false).vdev with pbdf := if vm.val = 0 then 0x10#16 else 0x18#16 }]
  vuart i := ⟨.vuartLegacyPio, if i.val = 0 then 0x3F8#16 else 0x2F8#16, (vm.rev, i)⟩
  vcpuAffinity := ((List.finRange maxPcpuNum).filter fun p => p.val / 2 = vm.val).map onlyPcpu

theorem smallVm_setupCalls (vm : Fin 2) : ∃ baseHpa : Word, (smallVm vm).setupCalls =
    [.add baseHpa.toNat 0x0 0xF0000 (eptRwx ||| eptWb),
      .add (baseHpa + 0xF0000#64).toNat 0xF0000 0x10000 (eptRwx ||| eptUncached),
      .add (baseHpa + 0xF0000#64 + 0x10000#64).toNat 0x100000 0x100000 (eptRwx ||| eptWb)] := by
  have hlast : 0x200000#64 - mem1M = 0x100000#64 := by decide
  have hentries : createPrelaunchedVmE820 (smallVm vm).memory =
      [⟨0x0#64, 0xF0000#64, e820TypeRam⟩, ⟨0xF0000#64, 0x10000#64, e820TypeReserved⟩,
        ⟨0x100000#64, 0x200000#64 - mem1M, e820TypeRam⟩] := rfl
  have hbars : (smallVm vm).pciDevs.flatMap VpciVdev.mapCalls = [] := rfl
  have hsize : (smallVm vm).memory.size = 0x200000#64 := rfl
  refine ⟨(smallVm vm).memory.startHpa, ?_⟩
  rw [AcrnVmConfig.setupCalls, hentries, hlast, hbars, hsize, List.append_nil]
  rfl

theorem smallVm_admissible (vm : Fin 2) :
    ∀ c ∈ (smallVm vm).setupCalls, c.Admissible (uosPools.ops vm) := by
  have hwindow : ∀ vm, (uosPools.ops vm).info.window = 0x280000000 := by
    decide
  have hadd : ∀ {hpa gpa size prot}, rangeEnd gpa size ≤ 0x280000000 →
      (EptCall.add hpa gpa size prot).Admissible (uosPools.ops vm) :=
    fun hend => ⟨hend.trans_eq (hwindow vm).symm, trivial⟩
  obtain ⟨baseHpa, hcalls⟩ := smallVm_setupCalls vm
  rw [hcalls]
  intro c hc
  simp only [List.mem_cons, List.not_mem_nil, or_false] at hc
  obtain rfl | rfl | rfl := hc
  · exact hadd (by decide)
  · exact hadd (by decide)
  · exact hadd (by decide)

theorem smallVm_distinct {vm vm' : Fin 2} {vdev vdev' : VpciVdev} (h : vdev ∈ (smallVm vm).pciDevs)
    (h' : vdev' ∈ (smallVm vm').pciDevs) (_ : vdev.Pt) (_ : vdev'.Pt) (_ : vdev.bus = vdev'.bus)
    (hdevfun : vdev.devfun = vdev'.devfun) : vm = vm' := by
  have hbdf : ∀ vm vm' : Fin 2, (if vm.val = 0 then 0x10#16 else 0x18#16).extractLsb' 0 8 =
      (if vm'.val = 0 then 0x10#16 else 0x18#16).extractLsb' 0 8 → vm = vm' := by
    decide
  obtain rfl := List.mem_singleton.mp h
  obtain rfl := List.mem_singleton.mp h'
  exact hbdf vm vm' hdevfun

theorem smallVm_disjoint : ∀ {vm vm' : Fin 2} {p : PcpuId}, p ∈ (smallVm vm).pcpus →
    p ∈ (smallVm vm').pcpus → vm = vm' := by
  decide

/-- The context tables of the platform. -/
def twoContexts : ContextTables := ⟨0x200000#64, by decide, by decide⟩

/-- The platform of both. -/
def twoVms : HostConfig 2 where
  pools := uosPools
  ctx := twoContexts
  msrs := fun _ => ⟨0#64, 0#64⟩
  vms := smallVm
  le_four := by decide
  setup_admissible := smallVm_admissible
  distinct := smallVm_distinct
  disjoint := smallVm_disjoint

theorem zero_le_maxPcpuNum (_ : ℕ) : 0 ≤ maxPcpuNum := Nat.zero_le _

theorem zero_lt_maxPcpuNum : 0 < maxPcpuNum := by decide

/-- The hypervisor before they are launched. -/
def twoBooted : HostState 2 where
  state := fun _ => .poweredOff
  launched := fun _ => false
  ept := ⟨fun _ => 0x800000#64, fun _ => []⟩
  devices := ⟨fun _ => 0#16, fun _ => ⟨0#16, 0#32, 0#64⟩,
    ⟨Dmar.prepared.dmarEnable 0x5000#64, fun _ _ => .never⟩⟩
  vuarts := VuartRun.zeroed.toVuartArrays
  cpus := {
    createdVcpus := fun _ => 0
    created_le := zero_le_maxPcpuNum
    vcpu := fun _ i => Machine.createdVcpu i ⟨0, zero_lt_maxPcpuNum⟩ ⟨0#64, 0#64⟩
    sched := fun _ => (initSched Thread).runThread none
    lapicId := fun p => BitVec.ofNat 32 p
    icrWrites := []
    perCpu := fun _ => ⟨false, false, 0, none, true⟩ }
  teardowns := []

theorem twoBooted_booted : twoBooted.Booted twoVms where
  state := rfl
  launched := rfl
  page := fun _ _ => rfl
  requests := rfl
  dmar := ⟨0x5000#64, rfl⟩
  vuarts := rfl
  createdVcpus := rfl
  teardowns := rfl

/-- The first is paused, and both of its vCPUs have asked for its shutdown. -/
theorem shutdown_vm_complete_two :
    let qi : VpciVdev → QiStatus := fun _ => ⟨0x5000#64, 0x5000#64, 0x5000#64⟩
    let gone : PcpuId → Bool := fun _ => true
    ∃ h : HostState 2, Reach (hostSystem twoVms) any h ∧ h.up 1 = true ∧ h.teardowns.Nodup ∧
      HostState.TornDown twoVms 0 gone qi h (h.releaseVm twoVms 0 1 gone qi)
        (h.shutdownVm twoVms 0 1 gone qi) ∧
      HostState.Untouched twoVms 1 h (h.shutdownVm twoVms 0 1 gone qi) := by
  intro qi gone
  let h₁ := twoBooted.createVm twoVms 0
  let h₂ := h₁.createVm twoVms 1
  let h₃ := h₂.startVm 0 0
  let h₄ := h₃.startVm 1 2
  let h₅ := h₄.pauseVm 0 0
  let h₆ := h₅.requestShutdown 0 0 0
  let h₇ := h₆.requestShutdown 0 1 1
  have hreach : Reach (hostSystem twoVms) any h₇ :=
    .step (a := .requestShutdown 0 1 1) (.step (a := .requestShutdown 0 0 0)
      (.step (a := .pauseVm 0 0) (.step (a := .startVm 1 2) (.step (a := .startVm 0 0)
        (.step (a := .createVm 1) (.step (a := .createVm 0) (.init twoBooted_booted)
          trivial ⟨rfl, rfl⟩) trivial ⟨rfl, rfl⟩) trivial ⟨rfl, rfl⟩) trivial ⟨rfl, rfl⟩)
      trivial ⟨trivial, rfl⟩) trivial ⟨trivial, rfl⟩) trivial ⟨trivial, rfl⟩
  have hpaused : h₇.state 0 = .paused := rfl
  obtain ⟨honce, hteardown⟩ := shutdown_vm_complete twoVms hreach
  obtain ⟨htorn, hothers⟩ := hteardown 0 1 gone qi hpaused
  exact ⟨h₇, hreach, rfl, honce, htorn, hothers 1 (by decide)⟩

end Acrn
