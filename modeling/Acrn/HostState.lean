import Acrn.SharedEpt
import Acrn.AssignedDevices
import Acrn.VmCpus
import Acrn.VuartConnect
import Acrn.GuestMemory

/-!
# Virtual machines from creation to shutdown

`create_vm`, `start_vm`, `pause_vm` and `shutdown_vm` for all virtual machines of a platform: their
EPTs, their devices, their vUARTs and their vCPUs. In between, the guests and their vCPUs do what
they like. A virtual machine is launched once.
-/

namespace Acrn

open Transition

/-- `enum vm_state`. -/
inductive VmLifeState where
  | poweredOff
  | created
  | started
  | paused
  deriving DecidableEq

/-- What a virtual machine of the platform is given. -/
structure AcrnVmConfig (n : ℕ) where
  memory : VmMemConfig
  /-- `pci_devs`, as `init_vdev` makes virtual devices of them -/
  pciDevs : List VpciVdev
  vuart : Fin maxVuartNumPerVm → VuartConfig n
  /-- `vcpu_affinity`, where each bitmap has a pCPU -/
  vcpuAffinity : List { map : Word // ffs64 map < maxPcpuNum }

namespace AcrnVmConfig

variable {n : ℕ} (config : AcrnVmConfig n)

/-- The pCPUs that the vCPUs of the virtual machine get. -/
def pcpus : List PcpuId := config.vcpuAffinity.map fun map => ⟨ffs64 map.val, map.property⟩

/-- `vpci_init_vdevs`, for the EPT: `init_vdev_pt` maps the BARs of the devices of the platform. -/
def mapVbars (ops : MemoryOps) (ept : PgMem) : PgMem :=
  config.pciDevs.foldl (fun ept vdev =>
    match vdev.vdevOps with
    | .vhostbridge => ept
    | .ptDev => (List.range vdev.nrBars).foldl
        (fun ept idx => vdevPtMapMemVbar ops vdev.toPciVdev idx ept) ept) ept

end AcrnVmConfig

/-! ## Setup of an EPT as a list of calls

`create_vm` calls `ept_add_mr` and `ept_del_mr` in loops over entries and BARs. As one list of
calls its EPT is a reachable one. -/

/-- The calls of `prepare_prelaunched_vm_memmap`. -/
def memmapCalls : List E820Entry → Word → Word → List EptCall
  | [], _, _ => []
  | entry :: entries, baseHpa, remainingHpaSize =>
    if entry.length = 0#64 then []
    else if entry.type = e820TypeRam ∧ entry.length ≤ remainingHpaSize then
      .add baseHpa.toNat entry.baseaddr.toNat entry.length.toNat (eptRwx ||| eptWb) ::
        memmapCalls entries (baseHpa + entry.length) (remainingHpaSize - entry.length)
    else if entry.type ≠ e820TypeRam ∧ entry.baseaddr < mem1M ∧
        entry.length ≤ remainingHpaSize then
      .add baseHpa.toNat entry.baseaddr.toNat entry.length.toNat (eptRwx ||| eptUncached) ::
        memmapCalls entries (baseHpa + entry.length) (remainingHpaSize - entry.length)
    else memmapCalls entries baseHpa remainingHpaSize

/-- The calls of `vdev_pt_map_mem_vbar`. -/
def PciBar.mapCalls (vbar : PciBar) : List EptCall :=
  if vbar.base ≠ 0#64 then
    [.del vbar.base.toNat vbar.size.toNat,
      .add vbar.baseHpa.toNat vbar.base.toNat vbar.size.toNat vbarProt]
  else []

/-- The calls of `init_vdev_pt`. -/
def VpciVdev.mapCalls (vdev : VpciVdev) : List EptCall :=
  if vdev.Pt then (List.range vdev.nrBars).flatMap fun idx => (vdev.bar idx).mapCalls else []

/-- The calls of `create_vm`. -/
def AcrnVmConfig.setupCalls {n : ℕ} (config : AcrnVmConfig n) : List EptCall :=
  memmapCalls (createPrelaunchedVmE820 config.memory) config.memory.startHpa config.memory.size ++
    config.pciDevs.flatMap VpciVdev.mapCalls

/-- What is fixed before the virtual machines are launched. No two of them have the same device or
the same pCPU. -/
structure HostConfig (n : ℕ) where
  pools : EptPools n
  ctx : ContextTables
  msrs : PcpuId → PcpuMsrs
  vms : Fin n → AcrnVmConfig n
  le_four : n ≤ 4
  setup_admissible : ∀ vm, ∀ c ∈ (vms vm).setupCalls, c.Admissible (pools.ops vm)
  distinct : ∀ {vm vm' vdev vdev'}, vdev ∈ (vms vm).pciDevs → vdev' ∈ (vms vm').pciDevs →
    vdev.Pt → vdev'.Pt → vdev.bus = vdev'.bus → vdev.devfun = vdev'.devfun → vm = vm'
  disjoint : ∀ {vm vm' p}, p ∈ (vms vm).pcpus → p ∈ (vms vm').pcpus → vm = vm'

namespace HostConfig

variable {n : ℕ} (config : HostConfig n) (vm : Fin n)

/-- `hva2hpa(vm->arch_vm.nworld_eptp)`. -/
def nworldEptp : Word := BitVec.ofNat 64 (config.pools.info vm).pml4Base

theorem nworldEptp_aligned : (config.nworldEptp vm).toNat % 4096 = 0 := by
  have hdvd : pageSize ∣ (config.pools.info vm).pml4Base := (config.pools.info vm).base_dvd .pml4
  have hle : (config.pools.info vm).pml4Base + pageSize * 1 ≤ 2 ^ 39 :=
    (config.pools.info vm).base_le .pml4
  have hlt : (config.pools.info vm).pml4Base < 2 ^ 64 := by omega
  rw [nworldEptp, BitVec.toNat_ofNat, Nat.mod_eq_of_lt hlt]
  exact Nat.mod_eq_zero_of_dvd hdvd

/-- The devices of all virtual machines, under the roots of their EPTs. -/
def devices : DeviceConfig n where
  pciDevs vm := (config.vms vm).pciDevs
  nworldEptp := config.nworldEptp
  le_four := config.le_four
  aligned := config.nworldEptp_aligned
  distinct := config.distinct

/-- The vUARTs of all virtual machines. -/
def vuart : VuartId n → VuartConfig n := fun u => (config.vms u.1).vuart u.2

end HostConfig

/-- The state of the hypervisor, as far as the life of virtual machines is concerned. -/
structure HostState (n : ℕ) where
  state : Fin n → VmLifeState
  /-- `launch_vms` has been there -/
  launched : Fin n → Bool
  ept : EptArrays n
  devices : DeviceState n
  vuarts : VuartArrays n
  cpus : VmCpus
  /-- the virtual machines that have been torn down, in order -/
  teardowns : List (Fin n)

namespace HostState

variable {n : ℕ} (config : HostConfig n) (vm : Fin n) (i : ℕ) (cur p : PcpuId) (h : HostState n)

/-- The virtual machine is not powered off. -/
def up (vm : Fin n) : Bool := decide (h.state vm ≠ .poweredOff)

/-- `vm->state` is set. -/
def setState (state : VmLifeState) : HostState n :=
  { h with state := Function.update h.state vm state }

/-- A change of the EPT of a virtual machine. -/
def onEpt (f : PgMem → PgMem) : HostState n := { h with ept := h.ept.apply vm f }

/-- A change of the devices. -/
def onDevices (f : DeviceState n → DeviceState n) : HostState n := { h with devices := f h.devices }

/-- A change of the vUARTs. -/
def onVuarts (f : VuartArrays n → VuartArrays n) : HostState n := { h with vuarts := f h.vuarts }

/-- A change of the vCPUs and the pCPUs. -/
def onCpus (f : VmCpus → VmCpus) : HostState n := { h with cpus := f h.cpus }

/-- `vpci_init`. -/
def vpciInit : HostState n :=
  let h := h.onDevices (·.createDomain vm (config.nworldEptp vm))
  let h := h.onEpt vm ((config.vms vm).mapVbars (config.pools.ops vm))
  h.onDevices (·.vpciInitVdevs config.ctx vm (config.vms vm).pciDevs)

/-- `create_vm`. -/
def createVm : HostState n :=
  let h := { h with launched := Function.update h.launched vm true }
  let h := h.onCpus (·.onMachine (·.setCreated vm 0 (Nat.zero_le maxPcpuNum)))
  let h := h.onEpt vm (createEpt (config.pools.ops vm))
  let h := h.onEpt vm (preparePrelaunchedVmMemmap (config.pools.ops vm) (config.vms vm).memory)
  let h := h.onVuarts (·.createVm vm (config.vms vm).vuart)
  let h := h.vpciInit config vm
  let h := h.setState vm .created
  h.onCpus fun c => (config.vms vm).pcpus.foldl (fun c p => c.prepareVcpu vm p config.msrs) c

/-- `start_vm`. -/
def startVm : HostState n := (h.setState vm .started).onCpus (·.startVcpu vm cur)

/-- `pause_vm`. -/
def pauseVm : HostState n :=
  if h.state vm = .started then (h.onCpus (·.pauseVcpus vm cur)).setState vm .paused else h

/-- What `fatal_error_shutdown_vm` does after `pause_vm`, for a vCPU. -/
def requestShutdown : HostState n :=
  let p := (h.cpus.vcpu vm i).pcpuId
  let h := h.onCpus (·.updatePcpu p fun r => { r with shutdownVmId := vm })
  h.onCpus (·.makeShutdownVmRequest cur p)

/-- `fatal_error_shutdown_vm`, which holds `vm_lock` for the first of the two. -/
def fatalErrorShutdownVm : HostState n := (h.pauseVm vm cur).requestShutdown vm i cur

/-- `shutdown_vm` before the EPT is destroyed. -/
def releaseVm (gone : PcpuId → Bool) (qi : VpciVdev → QiStatus) : HostState n :=
  let h := h.setState vm .poweredOff
  let h := h.onCpus (·.shutdownVcpus vm cur gone)
  let h := h.onDevices (·.vpciCleanup config.ctx vm (config.vms vm).pciDevs qi)
  let h := h.onVuarts (·.deinitVuart vm)
  h.onDevices (·.destroyDomain vm)

/-- `shutdown_vm`. -/
def shutdownVm (gone : PcpuId → Bool) (qi : VpciVdev → QiStatus) : HostState n :=
  let h := h.releaseVm config vm cur gone qi
  let h := h.onEpt vm (destroyEpt (config.pools.ops vm))
  { h with teardowns := h.teardowns ++ [vm] }

/-- `shutdown_vm_from_idle`. -/
def shutdownVmFromIdle (gone : PcpuId → Bool) (qi : VpciVdev → QiStatus) : HostState n :=
  if hvm : (h.cpus.perCpu p).shutdownVmId < n then
    let vm : Fin n := ⟨(h.cpus.perCpu p).shutdownVmId, hvm⟩
    if h.state vm = .paused then h.shutdownVm config vm p gone qi else h
  else h

/-- `default_idle`, where there is no need to reschedule. -/
def idle (gone : PcpuId → Bool) (qi : VpciVdev → QiStatus) : HostState n :=
  if (h.cpus.perCpu p).needOffline = true then h.onCpus (·.updatePcpu p PerCpuRegion.goOffline)
  else if (h.cpus.perCpu p).needShutdownVm = true then
    (h.onCpus (·.updatePcpu p fun r => { r with needShutdownVm := false })).shutdownVmFromIdle
      config p gone qi
  else h

end HostState

/-! ## Runs

A step is a function of the hypervisor from its begin to its end, or something that a guest does.
The waits of the hypervisor for other pCPUs are ended by steps of these. -/

/-- A step of a run. -/
inductive HostStep (n : ℕ) where
  | createVm (vm : Fin n)
  | startVm (vm : Fin n) (cur : PcpuId)
  /-- a VM exit, or a write to a BAR, changes the EPT -/
  | eptCall (vm : Fin n) (c : EptCall)
  /-- `ptirq_msix_remap` for a device -/
  | msixRemap (vm : Fin n) (vdev : VpciVdev) (irte : DmarIrEntry) (qiStatus : Word)
  /-- a register access of a guest, or a call of the console -/
  | vuartCall (call : VuartCall (VuartId n))
  /-- a vCPU changes anything about itself but its state -/
  | runVcpu (vm : Fin n) (i : ℕ) (vcpu : AcrnVcpu)
  | vcpuMakeRequest (vm : Fin n) (i : ℕ) (cur : PcpuId) (eventid : Request)
  | writeIcr (vm : Fin n) (i : ℕ) (val : Word)
  | pauseVm (vm : Fin n) (cur : PcpuId)
  | requestShutdown (vm : Fin n) (i : ℕ) (cur : PcpuId)
  | schedule (p : PcpuId)
  /-- a turn of the idle thread -/
  | idle (p : PcpuId) (gone : PcpuId → Bool) (qi : VpciVdev → QiStatus)

namespace HostStep

variable {n : ℕ} (config : HostConfig n)

def run (h : HostState n) : HostStep n → Option (HostState n)
  | .createVm vm => some (h.createVm config vm)
  | .startVm vm cur => some (h.startVm vm cur)
  | .eptCall vm c => some (h.onEpt vm (c.run (config.pools.ops vm)))
  | .msixRemap vm vdev irte qiStatus =>
    some (h.onDevices (·.call config.ctx (.assign vdev.pbdf irte (irteIndex vm vdev.bdf) qiStatus)))
  | .vuartCall call => some (h.onVuarts fun s => { s with vuarts := (call.run s.vuarts).2 })
  | .runVcpu vm i vcpu => some (h.onCpus (·.onMachine (·.updateVcpu vm i fun _ => vcpu)))
  | .vcpuMakeRequest vm i cur eventid =>
    some (h.onCpus (·.onMachine (·.vcpuMakeRequest vm i cur eventid)))
  | .writeIcr vm i val => some (h.onCpus (·.onMachine fun m => (m.vlapicX2apicWriteIcr vm i val).2))
  | .pauseVm vm cur => some (h.pauseVm vm cur)
  | .requestShutdown vm i cur => some (h.requestShutdown vm i cur)
  | .schedule p => (h.cpus.schedule p).map fun cpus => { h with cpus }
  | .idle p gone qi => some (h.idle config p gone qi)

/-- `fatal_error_shutdown_vm` is two steps, and others may come in between. -/
theorem run_fatalErrorShutdownVm (h : HostState n) (vm : Fin n) (i : ℕ) (cur : PcpuId) :
    ((HostStep.pauseVm vm cur).run config h).bind
      (fun h => (HostStep.requestShutdown vm i cur).run config h) =
        some (h.fatalErrorShutdownVm vm i cur) := rfl

/-- When a step can be taken. A guest runs as long as its virtual machine is not powered off. Each
virtual machine is created once: that the debug shell can create the first one again is left to
`LaunchStep`. -/
def Allowed (h : HostState n) : HostStep n → Prop
  | .createVm vm => h.launched vm = false
  | .startVm vm _ => h.state vm = .created
  | .eptCall vm c => h.up vm = true ∧ c.Admissible (config.pools.ops vm)
  | .msixRemap vm vdev _ _ =>
    h.up vm = true ∧ vdev ∈ (config.vms vm).pciDevs ∧ vdev.Pt ∧ vdev.hasMsiCap = true
  | .runVcpu vm i vcpu => h.up vm = true ∧ vcpu.pcpuId = (h.cpus.vcpu vm i).pcpuId ∧
    vcpu.state = (h.cpus.vcpu vm i).state
  | .writeIcr vm _ _ => h.up vm = true
  | .idle p _ _ => (h.cpus.perCpu p).running = true
  | _ => True

end HostStep

/-- The hypervisor before a virtual machine is launched: the arrays are zeroed, but for the page
that `init_paging` has sanitized, and `init_iommu` is done. -/
structure HostState.Booted {n : ℕ} (config : HostConfig n) (h : HostState n) : Prop where
  state : h.state = fun _ => .poweredOff
  launched : h.launched = fun _ => false
  page : ∀ i < ptrsPerTable,
    h.ept.mem (config.pools.sanitizedPage + 8 * i) = BitVec.ofNat 64 config.pools.sanitizedPage
  requests : h.ept.requests = fun _ => []
  dmar : (dmarSystem config.ctx).init h.devices.dmar
  vuarts : h.vuarts = VuartRun.zeroed.toVuartArrays
  createdVcpus : h.cpus.createdVcpus = fun _ => 0
  teardowns : h.teardowns = []

/-- The runs of the hypervisor. -/
def hostSystem {n : ℕ} (config : HostConfig n) : System (HostState n) (HostStep n) where
  init h := h.Booted config
  step h a h' := a.Allowed config h ∧ a.run config h = some h'

end Acrn
