import Acrn.DmarCalls
import Acrn.ConfigSpace

/-!
# The devices of virtual machines

`vpci_init` makes the domain of a virtual machine and adds its pass-through devices to it;
`vpci_cleanup` removes them again, and frees the interrupt remapping entries of those that have
an MSI capability.
-/

namespace Acrn

namespace VpciVdev

variable (vdev : VpciVdev)

/-- `pbdf.fields.bus`. -/
def bus : BitVec 8 := vdev.pbdf.extractLsb' 8 8

/-- `pbdf.fields.devfun`. -/
def devfun : BitVec 8 := vdev.pbdf.extractLsb' 0 8

/-- A device of the platform is behind it. -/
def Pt : Prop := vdev.vdevOps = .ptDev

instance : Decidable vdev.Pt := inferInstanceAs (Decidable (_ = _))

end VpciVdev

/-- The status words of the requests of a `deinit_vdev`: for the context cache, the IOTLB and the
interrupt entry cache. -/
structure QiStatus where
  context : Word
  iotlb : Word
  iec : Word

/-- `iommu_domains`, the `iommu` of each virtual machine, which is a place there, and the unit. -/
structure DeviceState (n : ℕ) where
  iommu : Fin n → BitVec 16
  iommuDomains : BitVec 16 → IommuDomain
  dmar : DmarState

/-- `vm_id` of a virtual machine. -/
def vmIdOf {n : ℕ} (vm : Fin n) : BitVec 16 := BitVec.ofNat 16 vm

/-- The number of its domain. -/
def domainidOf {n : ℕ} (vm : Fin n) : BitVec 16 := vmidToDomainid (vmIdOf vm)

namespace DeviceState

variable {n : ℕ} (ctx : ContextTables) (vm : Fin n) (vdev : VpciVdev) (s : DeviceState n)

/-- What `vm->iommu` points to. -/
def domain : IommuDomain := s.iommuDomains (s.iommu vm)

/-- `vm->iommu = create_iommu_domain(..)`. -/
def createDomain (translationTable : Word) : DeviceState n :=
  { s with
    iommu := Function.update s.iommu vm (domainidOf vm)
    iommuDomains := Function.update s.iommuDomains (domainidOf vm)
      (createIommuDomain (vmIdOf vm) translationTable 48#32) }

/-- `destroy_iommu_domain`. -/
def destroyDomain : DeviceState n :=
  { s with iommuDomains := Function.update s.iommuDomains (s.iommu vm) ⟨0#16, 0#32, 0#64⟩ }

/-- A call on the unit. -/
def call (c : DmarCall) : DeviceState n := { s with dmar := s.dmar.call ctx c }

/-- `assign_vdev_pt_iommu_domain`. -/
def assignVdevPtIommuDomain : DeviceState n :=
  s.call ctx (.add (s.domain vm) vdev.bus vdev.devfun)

/-- `remove_vdev_pt_iommu_domain`. -/
def removeVdevPtIommuDomain (qi : QiStatus) : DeviceState n :=
  s.call ctx (.remove (s.domain vm) vdev.bus vdev.devfun qi.context qi.iotlb)

/-- `deinit_vmsi`, for one vector. -/
def deinitVmsi (qi : QiStatus) : DeviceState n :=
  if vdev.hasMsiCap = true then s.call ctx (.free (irteIndex vm vdev.bdf) qi.iec) else s

/-- `init_vdev`, of which the EPT and the configuration space are left out. -/
def initVdev : DeviceState n :=
  match vdev.vdevOps with
  | .vhostbridge => s
  | .ptDev => s.assignVdevPtIommuDomain ctx vm vdev

/-- `deinit_vdev`: `deinit_vhostbridge` or `vpci_deinit_pt_dev`. -/
def deinitVdev (qi : QiStatus) : DeviceState n :=
  match vdev.vdevOps with
  | .vhostbridge => s
  | .ptDev => (s.removeVdevPtIommuDomain ctx vm vdev qi).deinitVmsi ctx vm vdev qi

/-- `vpci_init_vdevs`. -/
def vpciInitVdevs (vdevs : List VpciVdev) : DeviceState n :=
  vdevs.foldl (fun s vdev => s.initVdev ctx vm vdev) s

/-- `vpci_cleanup`. -/
def vpciCleanup (vdevs : List VpciVdev) (qi : VpciVdev → QiStatus) : DeviceState n :=
  vdevs.foldl (fun s vdev => s.deinitVdev ctx vm vdev (qi vdev)) s

end DeviceState

/-! ## Setup and teardown as lists of calls

Both loops are lists of calls on the remapping unit, so that what is proved of such lists applies,
whatever the devices and their order. -/

/-- The calls of `init_vdev`. -/
def VpciVdev.initCalls (domain : IommuDomain) (vdev : VpciVdev) : List DmarCall :=
  if vdev.Pt then [.add domain vdev.bus vdev.devfun] else []

/-- The calls of `deinit_vdev`. -/
def VpciVdev.deinitCalls (domain : IommuDomain) (vmId : ℕ) (qi : VpciVdev → QiStatus)
    (vdev : VpciVdev) : List DmarCall :=
  if vdev.Pt then
    .remove domain vdev.bus vdev.devfun (qi vdev).context (qi vdev).iotlb ::
      if vdev.hasMsiCap = true then [.free (irteIndex vmId vdev.bdf) (qi vdev).iec] else []
  else []

namespace DeviceState

variable {n : ℕ} {ctx : ContextTables} {vm : Fin n} {s : DeviceState n}
  {vdevs : List VpciVdev} {qi : VpciVdev → QiStatus} {c : DmarCall}

/-- Calls on the unit. -/
def calls (ctx : ContextTables) (s : DeviceState n) (cs : List DmarCall) : DeviceState n :=
  { s with dmar := s.dmar.calls ctx cs }

theorem calls_append (cs cs' : List DmarCall) :
    (s.calls ctx cs).calls ctx cs' = s.calls ctx (cs ++ cs') := by
  rw [calls, calls, calls, DmarState.calls, DmarState.calls, DmarState.calls, List.foldl_append]

theorem initVdev_eq (vdev : VpciVdev) :
    s.initVdev ctx vm vdev = s.calls ctx (vdev.initCalls (s.domain vm)) := by
  rw [initVdev, VpciVdev.initCalls]
  cases hops : vdev.vdevOps with
  | vhostbridge =>
    have hnot : ¬ vdev.Pt := fun hpt => PciVdevOps.noConfusion (hops.symm.trans hpt)
    rw [if_neg hnot]
    rfl
  | ptDev =>
    have hpt : vdev.Pt := hops
    rw [if_pos hpt]
    rfl

theorem deinitVdev_eq (vdev : VpciVdev) :
    s.deinitVdev ctx vm vdev (qi vdev) = s.calls ctx (vdev.deinitCalls (s.domain vm) vm qi) := by
  rw [deinitVdev, VpciVdev.deinitCalls]
  cases hops : vdev.vdevOps with
  | vhostbridge =>
    have hnot : ¬ vdev.Pt := fun hpt => PciVdevOps.noConfusion (hops.symm.trans hpt)
    rw [if_neg hnot]
    rfl
  | ptDev =>
    have hpt : vdev.Pt := hops
    rw [if_pos hpt, deinitVmsi]
    by_cases hmsi : vdev.hasMsiCap = true
    · simp only [if_pos hmsi]
      rfl
    · simp only [if_neg hmsi]
      rfl

theorem vpciInitVdevs_eq : s.vpciInitVdevs ctx vm vdevs =
    s.calls ctx (vdevs.flatMap (VpciVdev.initCalls (s.domain vm))) := by
  induction vdevs generalizing s with
  | nil => rfl
  | cons vdev vdevs ih =>
    rw [vpciInitVdevs, List.foldl_cons, ← vpciInitVdevs, ih, initVdev_eq, List.flatMap_cons,
      calls_append]
    rfl

theorem vpciCleanup_eq : s.vpciCleanup ctx vm vdevs qi =
    s.calls ctx (vdevs.flatMap (VpciVdev.deinitCalls (s.domain vm) vm qi)) := by
  induction vdevs generalizing s with
  | nil => rfl
  | cons vdev vdevs ih =>
    rw [vpciCleanup, List.foldl_cons, ← vpciCleanup, ih, deinitVdev_eq, List.flatMap_cons,
      calls_append]
    rfl

theorem mem_initCalls {domain : IommuDomain} :
    c ∈ vdevs.flatMap (VpciVdev.initCalls domain) ↔
      ∃ vdev ∈ vdevs, vdev.Pt ∧ c = .add domain vdev.bus vdev.devfun := by
  rw [List.mem_flatMap]
  refine exists_congr fun vdev => and_congr_right fun _ => ?_
  rw [VpciVdev.initCalls]
  split
  · next hpt => simp [hpt]
  · next hpt => simp [hpt]

theorem mem_deinitCalls {domain : IommuDomain} {vmId : ℕ} :
    c ∈ vdevs.flatMap (VpciVdev.deinitCalls domain vmId qi) ↔
      ∃ vdev ∈ vdevs, vdev.Pt ∧
        (c = .remove domain vdev.bus vdev.devfun (qi vdev).context (qi vdev).iotlb ∨
          vdev.hasMsiCap = true ∧ c = .free (irteIndex vmId vdev.bdf) (qi vdev).iec) := by
  rw [List.mem_flatMap]
  refine exists_congr fun vdev => and_congr_right fun _ => ?_
  rw [VpciVdev.deinitCalls]
  split
  · next hpt =>
    by_cases hmsi : vdev.hasMsiCap = true
    · simp [hpt, hmsi]
    · simp [hpt, hmsi]
  · next hpt => simp [hpt]

end DeviceState

/-! ## All machines

The invariant is about the machines that are up: exactly their devices are in the context tables,
and a remapped interrupt belongs to one of them. It can be kept by each machine for itself because
domains and indices of two machines are different. -/

/-- The devices of all virtual machines and the roots of their EPTs. The IDs of the machines fit
into the index of an interrupt remapping entry, and no two machines have the same device. -/
structure DeviceConfig (n : ℕ) where
  pciDevs : Fin n → List VpciVdev
  nworldEptp : Fin n → Word
  le_four : n ≤ 4
  aligned : ∀ vm, (nworldEptp vm).toNat % 4096 = 0
  distinct : ∀ {vm vm' vdev vdev'}, vdev ∈ pciDevs vm → vdev' ∈ pciDevs vm' → vdev.Pt → vdev'.Pt →
    vdev.bus = vdev'.bus → vdev.devfun = vdev'.devfun → vm = vm'

/-! ### Indices -/

theorem irteIndex_lt (vmId : ℕ) (virtBdf : BitVec 16) :
    (irteIndex vmId virtBdf).toNat < configMaxIrEntries := by
  have hall : (0xFF#16).toNat = 2 ^ 8 - 1 := rfl
  rw [irteIndex, BitVec.toNat_and, hall, Nat.and_two_pow_sub_one_eq_mod]
  exact Nat.mod_lt _ (by decide)

/-- The bits 6 and 7 are the ID of the machine. -/
theorem irteIndex_div {vmId : ℕ} (hvm : vmId < 4) (virtBdf : BitVec 16) :
    (irteIndex vmId virtBdf).toNat / 2 ^ 6 = vmId := by
  have hlow : (0x3F#16).toNat = 2 ^ 6 - 1 := rfl
  have hall : (0xFF#16).toNat = 2 ^ 8 - 1 := rfl
  have hdevice : virtBdf.toNat % 2 ^ 6 < 2 ^ 6 := Nat.mod_lt _ (by decide)
  have hindex : (irteIndex vmId virtBdf).toNat = 2 ^ 6 * vmId + virtBdf.toNat % 2 ^ 6 := by
    rw [irteIndex, BitVec.toNat_and, BitVec.toNat_or, BitVec.toNat_and, hlow, hall,
      BitVec.toNat_ofNat, Nat.and_two_pow_sub_one_eq_mod, Nat.and_two_pow_sub_one_eq_mod,
      Nat.shiftLeft_eq, Nat.mod_eq_of_lt (a := vmId * 2 ^ 6) (by omega), Nat.or_comm,
      Nat.mul_comm vmId, ← Nat.two_pow_add_eq_or_of_lt hdevice]
    exact Nat.mod_eq_of_lt (by omega)
  omega

namespace DeviceConfig

variable {n : ℕ} (config : DeviceConfig n) {vm vm' : Fin n}

/-- The domain of a machine. -/
def domain (vm : Fin n) : IommuDomain :=
  createIommuDomain (vmIdOf vm) (config.nworldEptp vm) 48#32

/-- The machine has the device. -/
def Owns (vm : Fin n) (bus devfun : BitVec 8) : Prop :=
  ∃ vdev ∈ config.pciDevs vm, vdev.Pt ∧ vdev.bus = bus ∧ vdev.devfun = devfun

/-- The index is the one of a device of the machine that may be remapped. -/
def Remaps (vm : Fin n) (index : BitVec 16) : Prop :=
  ∃ vdev ∈ config.pciDevs vm, vdev.Pt ∧ vdev.hasMsiCap = true ∧ irteIndex vm vdev.bdf = index

theorem domain_valid (vm : Fin n) : (config.domain vm).Valid := ⟨rfl, config.aligned vm⟩

include config in
theorem vm_lt_four (vm : Fin n) : vm.val < 4 := vm.isLt.trans_le config.le_four

variable {config}

include config in
theorem domainidOf_inj (h : domainidOf vm = domainidOf vm') : vm = vm' := by
  have hid : vmIdOf vm = vmIdOf vm' := (BitVec.add_left_inj _).mp h
  have hlt := config.vm_lt_four vm
  have hlt' := config.vm_lt_four vm'
  have hnat := congrArg BitVec.toNat hid
  rw [vmIdOf, vmIdOf, BitVec.toNat_ofNat, BitVec.toNat_ofNat, Nat.mod_eq_of_lt (by omega),
    Nat.mod_eq_of_lt (by omega)] at hnat
  exact Fin.ext hnat

include config in
/-- Devices of two machines have two interrupt remapping entries. -/
theorem irteIndex_ne (hne : vm' ≠ vm) (virtBdf virtBdf' : BitVec 16) :
    irteIndex vm' virtBdf' ≠ irteIndex vm virtBdf := by
  intro h
  have hvm := congrArg (fun index : BitVec 16 => index.toNat / 2 ^ 6) h
  simp only [irteIndex_div (config.vm_lt_four _)] at hvm
  exact hne (Fin.ext hvm)

theorem owns_ne {bus devfun : BitVec 8} (h : config.Owns vm' bus devfun) (hne : vm' ≠ vm) :
    ¬ config.Owns vm bus devfun := by
  obtain ⟨vdev', hmem', hpt', rfl, rfl⟩ := h
  rintro ⟨vdev, hmem, hpt, hbus, hdevfun⟩
  exact hne (config.distinct hmem hmem' hpt hpt' hbus hdevfun).symm

end DeviceConfig

namespace DeviceState

variable {n : ℕ} {config : DeviceConfig n} {ctx : ContextTables} {up : Fin n → Bool} {vm : Fin n}
  {s : DeviceState n} {qi : VpciVdev → QiStatus}

/-- The context entries are those of the devices of machines that are up, in their domains, and the
interrupt remapping entries are those of devices that may be remapped. -/
structure Inv (config : DeviceConfig n) (ctx : ContextTables) (up : Fin n → Bool)
    (s : DeviceState n) : Prop where
  tables : s.dmar.Inv ctx
  owner : ∀ {bus devfun domain}, s.dmar.last bus devfun = .added domain →
    ∃ vm, up vm = true ∧ config.Owns vm bus devfun ∧ domain = config.domain vm
  known : ∀ {vm bus devfun}, up vm = true → config.Owns vm bus devfun →
    s.dmar.last bus devfun ≠ .never
  domain : ∀ {vm}, up vm = true → s.iommu vm = domainidOf vm ∧ s.domain vm = config.domain vm
  remaps : ∀ {index}, (s.dmar.dmar.unit.irTable index).present = true →
    ∃ vm, config.Remaps vm index

/-- Nothing is there before a machine is created. -/
theorem inv_init (h : (dmarSystem ctx).init s.dmar) : s.Inv config ctx fun _ => false := by
  have htables := DmarState.inv_init h
  obtain ⟨qiStatus, hdmar⟩ := h
  refine ⟨htables, fun {bus devfun domain} hlast => ?_, nofun, nofun, fun {index} hpresent => ?_⟩
  · rw [hdmar] at hlast
    cases hlast
  · have hirte := (DmarState.dmarEnable_prepared qiStatus).2.irte
    have hentry := congrFun (congrArg DmarUnit.irTable hirte) index
    rw [hdmar] at hpresent
    exact absurd ((congrArg DmarIrEntry.present hentry).symm.trans hpresent) Bool.false_ne_true

/-! ### Creation -/

theorem domain_createDomain (vm : Fin n) :
    (s.createDomain vm (config.nworldEptp vm)).iommu vm = domainidOf vm ∧
      (s.createDomain vm (config.nworldEptp vm)).domain vm = config.domain vm := by
  have hiommu : (s.createDomain vm (config.nworldEptp vm)).iommu vm = domainidOf vm :=
    Function.update_self ..
  refine ⟨hiommu, ?_⟩
  rw [domain, hiommu]
  exact Function.update_self ..

/-- **`vpci_init`.** The devices of the machine are in its domain, and no other entry changes. -/
theorem Inv.vpciInit (h : s.Inv config ctx up) (hdown : up vm = false) :
    ((s.createDomain vm (config.nworldEptp vm)).vpciInitVdevs ctx vm (config.pciDevs vm)).Inv
      config ctx (Function.update up vm true) := by
  obtain ⟨hiommu, hdomain⟩ : (s.createDomain vm (config.nworldEptp vm)).iommu vm = domainidOf vm ∧
      (s.createDomain vm (config.nworldEptp vm)).domain vm = config.domain vm :=
    domain_createDomain vm
  rw [vpciInitVdevs_eq, hdomain]
  set cs := (config.pciDevs vm).flatMap (VpciVdev.initCalls (config.domain vm)) with hcs
  have hmem : ∀ c ∈ cs, ∃ vdev ∈ config.pciDevs vm, vdev.Pt ∧
      c = .add (config.domain vm) vdev.bus vdev.devfun := fun c hc => mem_initCalls.mp hc
  have hok : ∀ c ∈ cs, DmarOk s.dmar c := by
    intro c hc
    obtain ⟨vdev, -, -, rfl⟩ := hmem c hc
    exact config.domain_valid vm
  obtain ⟨htables, -, -, hcontexts, hirtes⟩ := h.tables.calls hok
  -- the devices of the machine have been added, and nothing was done with the others
  have hlast : ∀ bus devfun, config.Owns vm bus devfun →
      (s.dmar.calls ctx cs).last bus devfun = .added (config.domain vm) := by
    rintro bus devfun ⟨vdev, hvdev, hpt, rfl, rfl⟩
    refine DmarState.last_calls (fun c hc hdevice t => ?_)
      ⟨_, mem_initCalls.mpr ⟨vdev, hvdev, hpt, rfl⟩, rfl⟩
    obtain ⟨vdev', -, -, rfl⟩ := hmem c hc
    obtain ⟨hbus, hdevfun⟩ := Prod.mk.inj (Option.some.inj hdevice)
    rw [DmarState.last_call]
    exact if_pos ⟨hbus.symm, hdevfun.symm⟩
  have hother : ∀ bus devfun, ¬ config.Owns vm bus devfun →
      (s.dmar.calls ctx cs).last bus devfun = s.dmar.last bus devfun := by
    refine fun bus devfun hnot => (hcontexts bus devfun fun c hc hdevice => hnot ?_).2
    obtain ⟨vdev, hvdev, hpt, rfl⟩ := hmem c hc
    obtain ⟨hbus, hdevfun⟩ := Prod.mk.inj (Option.some.inj hdevice)
    exact ⟨vdev, hvdev, hpt, hbus, hdevfun⟩
  have hup : ∀ {vm'}, vm' ≠ vm → Function.update up vm true vm' = up vm' :=
    fun hne => Function.update_of_ne hne ..
  refine ⟨htables, fun {bus devfun domain} hadded => ?_, fun {vm' bus devfun} hvm' howns => ?_,
    fun {vm'} hvm' => ?_, fun {index} hpresent => ?_⟩
  · by_cases howns : config.Owns vm bus devfun
    · have heq := (hlast bus devfun howns).symm.trans hadded
      exact ⟨vm, Function.update_self .., howns, (LastOp.added.inj heq).symm⟩
    · obtain ⟨vm', hvm', howns', rfl⟩ := h.owner ((hother bus devfun howns).symm.trans hadded)
      have hne : vm' ≠ vm := by
        rintro rfl
        exact howns howns'
      exact ⟨vm', (hup hne).trans hvm', howns', rfl⟩
  · by_cases hne : vm' = vm
    · subst hne
      exact fun hnever => LastOp.noConfusion ((hlast bus devfun howns).symm.trans hnever)
    · rw [hup hne] at hvm'
      exact fun hnever => h.known hvm' howns
        ((hother bus devfun (DeviceConfig.owns_ne howns hne)).symm.trans hnever)
  · by_cases hne : vm' = vm
    · subst hne
      exact ⟨hiommu, hdomain⟩
    · rw [hup hne] at hvm'
      obtain ⟨hiommu', hdomain'⟩ := h.domain hvm'
      have hsame : (s.createDomain vm (config.nworldEptp vm)).iommu vm' = domainidOf vm' :=
        (Function.update_of_ne hne ..).trans hiommu'
      refine ⟨hsame, Eq.trans ?_ hdomain'⟩
      show (s.createDomain vm (config.nworldEptp vm)).domain vm' = s.domain vm'
      rw [DeviceState.domain, hsame, DeviceState.domain, hiommu']
      exact Function.update_of_ne (fun heq => hne (config.domainidOf_inj heq)) ..
  · have hsame : (s.dmar.calls ctx cs).dmar.unit.irTable index =
        s.dmar.dmar.unit.irTable index := by
      refine hirtes index fun c hc => ?_
      obtain ⟨vdev, -, -, rfl⟩ := hmem c hc
      nofun
    exact h.remaps ((congrArg DmarIrEntry.present hsame).symm.trans hpresent)

/-! ### Interrupts -/

/-- **A device is remapped.** -/
theorem Inv.assign (h : s.Inv config ctx up) {vdev : VpciVdev} (hmem : vdev ∈ config.pciDevs vm)
    (hpt : vdev.Pt) (hmsi : vdev.hasMsiCap = true) (msi : BitVec 16) (irte : DmarIrEntry)
    (qiStatus : Word) :
    (s.call ctx (.assign msi irte (irteIndex vm vdev.bdf) qiStatus)).Inv config ctx up := by
  have hindex : (irteIndex vm vdev.bdf).toNat < configMaxIrEntries :=
    irteIndex_lt _ _
  obtain ⟨htables, hstep⟩ := h.tables.call
    (c := .assign msi irte (irteIndex vm vdev.bdf) qiStatus) hindex
  refine ⟨htables, h.owner, h.known, h.domain, fun {index} hpresent => ?_⟩
  by_cases heq : irteIndex vm vdev.bdf = index
  · exact ⟨vm, vdev, hmem, hpt, hmsi, heq⟩
  · refine h.remaps ((congrArg DmarIrEntry.present (hstep.irtes index ?_)).symm.trans hpresent)
    exact fun hsome => heq (Option.some.inj hsome)

/-! ### Teardown

After `vpci_cleanup` none of the machine's devices is left, so its domain may be given up. Between
the two the domain is there without devices, which `Released` describes. -/

/-- The devices of a machine have been taken out of the tables from `s` to `s'`, each by a call in
step, and nothing else has. -/
structure Released (config : DeviceConfig n) (ctx : ContextTables) (vm : Fin n)
    (qi : VpciVdev → QiStatus) (s s' : DeviceState n) : Prop where
  queueOk : s'.dmar.dmar.QueueOk
  made : ∀ vdev ∈ config.pciDevs vm, vdev.Pt → DmarState.Made ctx s.dmar s'.dmar
    (.remove (config.domain vm) vdev.bus vdev.devfun (qi vdev).context (qi vdev).iotlb)
  removed : ∀ bus devfun, config.Owns vm bus devfun →
    (decodeContext (s'.dmar.dmar.contextEntry bus devfun)).present = false
  /-- an entry that is present holds the domain of another machine -/
  other : ∀ bus devfun, (decodeContext (s'.dmar.dmar.contextEntry bus devfun)).present = true →
    ∃ vm', vm' ≠ vm ∧ HoldsDomain (config.domain vm')
      (decodeContext (s'.dmar.dmar.contextEntry bus devfun))
  did : ∀ bus devfun, (decodeContext (s'.dmar.dmar.contextEntry bus devfun)).present = true →
    (decodeContext (s'.dmar.dmar.contextEntry bus devfun)).did ≠ domainidOf vm
  freed : ∀ vdev ∈ config.pciDevs vm,
    (s'.dmar.dmar.unit.irTable (irteIndex vm vdev.bdf)).present = false
  contexts : ∀ bus devfun, ¬ config.Owns vm bus devfun →
    s'.dmar.dmar.contextEntry bus devfun = s.dmar.dmar.contextEntry bus devfun
  irtes : ∀ index, ¬ config.Remaps vm index →
    s'.dmar.dmar.unit.irTable index = s.dmar.dmar.unit.irTable index

section Deinit

variable {bus devfun : BitVec 8} {index : BitVec 16}

/-- The calls of `vpci_cleanup`. -/
abbrev cleanupCalls (config : DeviceConfig n) (vm : Fin n) (qi : VpciVdev → QiStatus) :
    List DmarCall :=
  (config.pciDevs vm).flatMap (VpciVdev.deinitCalls (config.domain vm) vm qi)

theorem cleanupCalls_device (hc : c ∈ cleanupCalls config vm qi)
    (hdevice : c.device = some (bus, devfun)) : config.Owns vm bus devfun := by
  obtain ⟨vdev, hvdev, hpt, rfl | ⟨-, rfl⟩⟩ := mem_deinitCalls.mp hc
  · obtain ⟨hbus, hdevfun⟩ := Prod.mk.inj (Option.some.inj hdevice)
    exact ⟨vdev, hvdev, hpt, hbus, hdevfun⟩
  · cases hdevice

theorem last_cleanupCalls (hc : c ∈ cleanupCalls config vm qi)
    (hdevice : c.device = some (bus, devfun)) (t : DmarState) :
    (t.call ctx c).last bus devfun = .removed := by
  obtain ⟨vdev, -, -, rfl | ⟨-, rfl⟩⟩ := mem_deinitCalls.mp hc
  · obtain ⟨hbus, hdevfun⟩ := Prod.mk.inj (Option.some.inj hdevice)
    rw [DmarState.last_call]
    exact if_pos ⟨hbus.symm, hdevfun.symm⟩
  · cases hdevice

theorem cleanupCalls_index (hc : c ∈ cleanupCalls config vm qi) (hindex : c.index = some index) :
    config.Remaps vm index := by
  obtain ⟨vdev, hvdev, hpt, rfl | ⟨hmsi, rfl⟩⟩ := mem_deinitCalls.mp hc
  · cases hindex
  · exact ⟨vdev, hvdev, hpt, hmsi, Option.some.inj hindex⟩

theorem cleanupCalls_releases (hc : c ∈ cleanupCalls config vm qi) : c.Releases := by
  obtain ⟨vdev, -, -, rfl | ⟨-, rfl⟩⟩ := mem_deinitCalls.mp hc
  · exact trivial
  · exact trivial

theorem Inv.cleanupCalls_ok (h : s.Inv config ctx up) (hup : up vm = true)
    (qi : VpciVdev → QiStatus) : ∀ c ∈ cleanupCalls config vm qi, DmarOk s.dmar c := by
  intro c hc
  obtain ⟨vdev, hvdev, hpt, rfl | ⟨-, rfl⟩⟩ := mem_deinitCalls.mp hc
  · exact h.known hup ⟨vdev, hvdev, hpt, rfl, rfl⟩
  · exact irteIndex_lt _ _

/-- The devices of the machine are removed, and nothing is done with the others. -/
theorem Inv.last_cleanup (h : s.Inv config ctx up) (hup : up vm = true)
    (qi : VpciVdev → QiStatus) (bus devfun : BitVec 8) :
    (config.Owns vm bus devfun →
      (s.dmar.calls ctx (cleanupCalls config vm qi)).last bus devfun = .removed) ∧
    (¬ config.Owns vm bus devfun →
      (s.dmar.calls ctx (cleanupCalls config vm qi)).dmar.contextEntry bus devfun =
          s.dmar.dmar.contextEntry bus devfun ∧
        (s.dmar.calls ctx (cleanupCalls config vm qi)).last bus devfun =
          s.dmar.last bus devfun) := by
  obtain ⟨-, -, -, hcontexts, -⟩ := h.tables.calls (h.cleanupCalls_ok hup qi)
  constructor
  · rintro ⟨vdev, hvdev, hpt, rfl, rfl⟩
    exact DmarState.last_calls (fun c hc hdevice => last_cleanupCalls hc hdevice)
      ⟨_, mem_deinitCalls.mpr ⟨vdev, hvdev, hpt, .inl rfl⟩, rfl⟩
  · exact fun hnot => hcontexts bus devfun fun c hc hdevice =>
      hnot (cleanupCalls_device hc hdevice)

/-- What is still added belongs to another machine that is up. -/
theorem Inv.added_cleanup (h : s.Inv config ctx up) (hup : up vm = true) {domain : IommuDomain}
    (hlast : (s.dmar.calls ctx (cleanupCalls config vm qi)).last bus devfun = .added domain) :
    ∃ vm', vm' ≠ vm ∧ up vm' = true ∧ config.Owns vm' bus devfun ∧ domain = config.domain vm' := by
  obtain ⟨hremoved, hother⟩ := h.last_cleanup hup qi bus devfun
  by_cases howns : config.Owns vm bus devfun
  · exact LastOp.noConfusion ((hremoved howns).symm.trans hlast)
  · obtain ⟨vm', hvm', howns', rfl⟩ := h.owner ((hother howns).2.symm.trans hlast)
    refine ⟨vm', ?_, hvm', howns', rfl⟩
    rintro rfl
    exact howns howns'

/-- The interrupts that are still remapped are those of other machines. -/
theorem Inv.present_cleanup (h : s.Inv config ctx up) (hup : up vm = true)
    (hpresent : ((s.dmar.calls ctx (cleanupCalls config vm qi)).dmar.unit.irTable index).present =
      true) : ∃ vm', vm' ≠ vm ∧ config.Remaps vm' index := by
  obtain ⟨hbefore, hfree⟩ := DmarState.irTable_calls h.tables (h.cleanupCalls_ok hup qi)
    (fun c => cleanupCalls_releases) hpresent
  obtain ⟨vm', vdev, hvdev, hpt, hmsi, hindex⟩ := h.remaps hbefore
  refine ⟨vm', ?_, vdev, hvdev, hpt, hmsi, hindex⟩
  rintro rfl
  exact hfree _ (mem_deinitCalls.mpr ⟨vdev, hvdev, hpt, .inr ⟨hmsi, rfl⟩⟩) (congrArg some hindex)

/-- **`vpci_cleanup`.** -/
theorem Inv.released (h : s.Inv config ctx up) (hup : up vm = true) (qi : VpciVdev → QiStatus) :
    Released config ctx vm qi s (s.vpciCleanup ctx vm (config.pciDevs vm) qi) := by
  rw [vpciCleanup_eq, (h.domain hup).2]
  obtain ⟨htables, -, hmade, hcontexts, hirtes⟩ := h.tables.calls (h.cleanupCalls_ok hup qi)
  have hother : ∀ bus devfun, (decodeContext ((s.dmar.calls ctx
      (cleanupCalls config vm qi)).dmar.contextEntry bus devfun)).present = true →
      ∃ vm', vm' ≠ vm ∧ HoldsDomain (config.domain vm') (decodeContext ((s.dmar.calls ctx
        (cleanupCalls config vm qi)).dmar.contextEntry bus devfun)) := by
    intro bus devfun hpresent
    have hreflected := htables.reflected bus devfun
    cases hlast : (s.dmar.calls ctx (cleanupCalls config vm qi)).last bus devfun with
    | added domain =>
      obtain ⟨vm', hne, -, -, rfl⟩ := h.added_cleanup hup hlast
      rw [hlast] at hreflected
      exact ⟨vm', hne, hreflected⟩
    | never =>
      rw [hlast] at hreflected
      exact absurd (hreflected.symm.trans hpresent) Bool.false_ne_true
    | removed =>
      rw [hlast] at hreflected
      exact absurd (hreflected.symm.trans hpresent) Bool.false_ne_true
  constructor
  case queueOk => exact htables.queueOk
  case made =>
    exact fun vdev hvdev hpt => hmade _ (mem_deinitCalls.mpr ⟨vdev, hvdev, hpt, .inl rfl⟩)
  case removed =>
    intro bus devfun howns
    have hreflected := htables.reflected bus devfun
    rwa [(h.last_cleanup hup qi bus devfun).1 howns] at hreflected
  case other => exact hother
  case did =>
    intro bus devfun hpresent hdid
    obtain ⟨vm', hne, hholds⟩ := hother bus devfun hpresent
    exact hne (config.domainidOf_inj (hholds.did.symm.trans hdid))
  case freed =>
    refine fun vdev hvdev => Bool.eq_false_iff.mpr fun hpresent => ?_
    obtain ⟨vm', hne, vdev', -, -, -, hindex⟩ := h.present_cleanup hup hpresent
    exact config.irteIndex_ne hne _ _ hindex
  case contexts => exact fun bus devfun hnot => ((h.last_cleanup hup qi bus devfun).2 hnot).1
  case irtes =>
    exact fun index hnot => hirtes index fun c hc hindex => hnot (cleanupCalls_index hc hindex)

/-- The tables do not change when the domain is destroyed. -/
theorem Released.destroyDomain {s' : DeviceState n} (h : Released config ctx vm qi s s') :
    Released config ctx vm qi s (s'.destroyDomain vm) :=
  ⟨h.queueOk, h.made, h.removed, h.other, h.did, h.freed, h.contexts, h.irtes⟩

/-- `destroy_iommu_domain` after it. -/
theorem Inv.release (h : s.Inv config ctx up) (hup : up vm = true) :
    ((s.vpciCleanup ctx vm (config.pciDevs vm) qi).destroyDomain vm).Inv config ctx
      (Function.update up vm false) := by
  obtain ⟨hiommu, hdomain⟩ := h.domain hup
  rw [vpciCleanup_eq, hdomain]
  have hdown : ∀ {vm'}, vm' ≠ vm → Function.update up vm false vm' = up vm' :=
    fun hne => Function.update_of_ne hne ..
  have hne : ∀ {vm'}, Function.update up vm false vm' = true → vm' ≠ vm := by
    rintro vm' hvm' rfl
    rw [Function.update_self] at hvm'
    cases hvm'
  constructor
  case tables => exact (h.tables.calls (h.cleanupCalls_ok hup qi)).1
  case owner =>
    intro bus devfun domain hlast
    obtain ⟨vm', hvm, hvm', howns, hdom⟩ := h.added_cleanup hup hlast
    exact ⟨vm', (hdown hvm).trans hvm', howns, hdom⟩
  case known =>
    intro vm' bus devfun hvm' howns
    have hvm := hne hvm'
    rw [hdown hvm] at hvm'
    exact fun hnever => h.known hvm' howns
      (((h.last_cleanup hup qi bus devfun).2 (DeviceConfig.owns_ne howns hvm)).2.symm.trans hnever)
  case domain =>
    intro vm' hvm'
    have hvm := hne hvm'
    rw [hdown hvm] at hvm'
    obtain ⟨hiommu', hdomain'⟩ := h.domain hvm'
    refine ⟨hiommu', Eq.trans ?_ hdomain'⟩
    have hids : s.iommu vm' ≠ s.iommu vm := by
      rw [hiommu', hiommu]
      exact fun heq => hvm (config.domainidOf_inj heq)
    exact Function.update_of_ne hids ..
  case remaps =>
    intro index hpresent
    obtain ⟨vm', -, hremaps⟩ := h.present_cleanup hup hpresent
    exact ⟨vm', hremaps⟩

end Deinit

end DeviceState

end Acrn
