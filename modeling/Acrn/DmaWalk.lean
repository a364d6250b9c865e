import Acrn.Separation

/-!
# What devices reach

The DMA of a device goes through its context entry and the second-level tables that the entry points
to. These are the EPT of the virtual machine that the device belongs to, so at any time of any run a
device reaches exactly the memory that the processors of its virtual machine reach, with the same
rights, and a device of a virtual machine that is not up reaches nothing.
-/

namespace Acrn

open BitField PageTableLevel Transition

/-! ## The walk of the remapping hardware

An EPT and a second-level table have the same format, but hardware wants each entry on the way to
grant the access, and reads the levels from the context entry. The two walks are shown to agree
level by level. -/

/-- The table, or the page, that a second-level entry points to. -/
def secondLevelFrame (l : PageTableLevel) (e : Word) : ℕ := e.toNat % 2 ^ 52 / l.size * l.size

/-- The second-level walk for an access that needs `right`. Each entry has to grant it. -/
def secondLevelWalk (mem : ℕ → Word) (right : Word) (v : ℕ) : List PageTableLevel → ℕ → Option ℕ
  | [], _ => none
  | l :: ls, table =>
    let e := mem (table + 8 * l.index v)
    if e &&& right = 0#64 then none
    else if Maps l e then some (secondLevelFrame l e + v % l.size)
    else secondLevelWalk mem right v ls (secondLevelFrame .pt e)

/-- The levels of a second-level table, by the address width of the context entry. -/
def secondLevels (addressWidth : ℕ) : List PageTableLevel :=
  if addressWidth = 48 then pml4.downTo
  else if addressWidth = 39 then pdpt.downTo
  else if addressWidth = 30 then pd.downTo
  else []

/-- **The translation of a DMA** that needs `right`, by what is in the tables. -/
def Dmar.translateDma (s : Dmar) (mem : ℕ → Word) (right : Word) (bus devfun : BitVec 8) (v : ℕ) :
    Option ℕ :=
  let fields := decodeContext (s.contextEntry bus devfun)
  if fields.present = false then none
  else if fields.translationType = 0x8#64 then some v
  else if fields.translationType = 0xC#64 then none
  else if 2 ^ fields.addressWidth ≤ v then none
  else secondLevelWalk mem right v (secondLevels fields.addressWidth) fields.slptptr.toNat

/-- What a processor reaches at `v` with `right`, under an EPT. -/
def eptTranslate (ops : MemoryOps) (right : Word) (v : ℕ) (s : PgMem) : Option ℕ :=
  if walkRight ops ops.info.pml4Base v s &&& right = 0#64 then none
  else (localGpa2hpa ops ops.info.pml4Base v s).map BitVec.toNat

/-- The right of an access of a device. -/
def DmaRight (right : Word) : Prop := right = eptRd ∨ right = eptWr

section Walk

variable {ops : MemoryOps} {m : ℕ → Word} {requests : List PageRequest} {right : Word} {v : ℕ}

theorem DmaRight.subset (h : DmaRight right) : eptRwx &&& right = right ∧ right ≠ 0#64 := by
  rcases h with rfl | rfl
  · decide
  · decide

/-- A reference to a table grants everything. -/
theorem tableEntry_grants (hdefault : ops.getDefaultAccessRight = eptRwx) (hright : DmaRight right)
    (l : PageTableLevel) :
    tableEntry ops (ops.info.tablePage l v) &&& right ≠ 0#64 := by
  obtain ⟨hsub, hne⟩ := hright.subset
  have hgrants := tableEntry_and_rwx hdefault l v right
  rw [BitVec.and_comm right, hsub, BitVec.and_assoc, BitVec.and_comm right, hsub] at hgrants
  rwa [hgrants]

/-- and leads to its page. -/
theorem secondLevelFrame_tableEntry (hdefault : ops.getDefaultAccessRight = eptRwx)
    {l : PageTableLevel} (hpage : v / l.size < ops.info.pageNum l.next) :
    secondLevelFrame .pt (tableEntry ops (ops.info.tablePage l v)) = ops.info.tablePage l v := by
  have hle := PoolLayout.tablePage_le hpage
  have hdvd : 2 ^ 12 ∣ ops.info.tablePage l v := PoolLayout.tablePage_dvd l v
  have hlt : ops.info.tablePage l v < 2 ^ 64 := by omega
  have hnat : (BitVec.ofNat 64 (ops.info.tablePage l v)).toNat = ops.info.tablePage l v := by
    rw [BitVec.toNat_ofNat, Nat.mod_eq_of_lt hlt]
  have hrwx : eptRwx.toNat = 7 := rfl
  have hsum : (tableEntry ops (ops.info.tablePage l v)).toNat = ops.info.tablePage l v + 7 := by
    rw [tableEntry, hdefault, toNat_or_of_aligned (n := 12), hnat, hrwx]
    · rwa [hnat]
    · rw [hrwx]
      decide
  have hsize : pt.size = 4096 := rfl
  rw [secondLevelFrame, hsum, hsize]
  omega

/-- What the walk makes of a leaf. -/
def Leaf.grant (right : Word) (v : ℕ) (L : Leaf) : Option ℕ :=
  if L.entry &&& right = 0#64 then none else some (L.hpa v).toNat

/-- **One level.** -/
theorem secondLevelWalk_level (hdefault : ops.getDefaultAccessRight = eptRwx)
    (hpresent : ∀ e, ops.pgentryPresent e = e &&& eptRwx) (hs : Sound ops ⟨m, requests⟩)
    (ho : TablesOpen ops ⟨m, requests⟩) (hright : DmaRight right) (hv : v < 2 ^ 48)
    {l : PageTableLevel} {ls : List PageTableLevel} {table : ℕ} (hlink : Linked ops m l v)
    (hslot : table + 8 * l.index v = ops.info.entryAddr l v)
    (hnext : l ≠ .pt → Linked ops m l.next v → ∀ table,
      table + 8 * l.next.index v = ops.info.entryAddr l.next v →
        secondLevelWalk m right v ls table = (leafFrom ops m l.next v).bind (Leaf.grant right v)) :
    secondLevelWalk m right v (l :: ls) table =
      (leafFrom ops m l v).bind (Leaf.grant right v) := by
  have hentry : m (ops.info.entryAddr l v) = entryAt ops m l v := rfl
  rw [secondLevelWalk, leafFrom_eq, hslot, hentry]
  by_cases habsent : ops.pgentryPresent (entryAt ops m l v) = 0#64
  · -- what is absent grants nothing
    have hnone : entryAt ops m l v &&& right = 0#64 := by
      rw [← hright.subset.1, ← BitVec.and_assoc, ← hpresent, habsent, BitVec.zero_and]
    rw [if_pos habsent, if_pos hnone]
    rfl
  rw [if_neg habsent]
  by_cases hmaps : Maps l (entryAt ops m l v)
  · have hlevel : l ≠ .pml4 := by
      rintro rfl
      exact hmaps
    rw [if_pos hmaps, if_pos hmaps, Option.bind_some, Leaf.grant, Leaf.hpa_toNat hlevel]
    rfl
  · -- a reference to the table of the next level
    have hpt : l ≠ .pt := by
      rintro rfl
      exact hmaps trivial
    have hlink' : Linked ops m l.next v := (linked_next hpt v).mpr ⟨hlink, habsent, hmaps⟩
    have htable : entryAt ops m l v = tableEntry ops (ops.info.tablePage l v) :=
      ho l v hpt hv hlink'
    obtain ⟨hpage, -⟩ := hs.table l v hpt hv hlink'
    rw [if_neg hmaps, if_neg hmaps, htable, if_neg (tableEntry_grants hdefault hright l),
      secondLevelFrame_tableEntry hdefault hpage]
    exact hnext hpt hlink' _ (PoolLayout.base_eq_tablePage hpt v)

/-- **The hardware finds the leaf of the EPT.** -/
theorem secondLevelWalk_eq (hdefault : ops.getDefaultAccessRight = eptRwx)
    (hpresent : ∀ e, ops.pgentryPresent e = e &&& eptRwx) (hs : Sound ops ⟨m, requests⟩)
    (ho : TablesOpen ops ⟨m, requests⟩) (hright : DmaRight right) (hv : v < 2 ^ 48) :
    secondLevelWalk m right v pml4.downTo ops.info.pml4Base =
      (leaf ops m v).bind (Leaf.grant right v) := by
  have hlevel := @secondLevelWalk_level ops m requests right v hdefault hpresent hs ho hright hv
  refine hlevel (l := .pml4) trivial (root_slot hv) fun _ hpdpt _ hslot => ?_
  refine hlevel (l := .pdpt) hpdpt hslot fun _ hpd _ hslot => ?_
  refine hlevel (l := .pd) hpd hslot fun _ hpt _ hslot => ?_
  exact hlevel (l := .pt) hpt hslot fun hne => absurd rfl hne

/-- **A processor finds the same.** -/
theorem eptTranslate_eq (hdefault : ops.getDefaultAccessRight = eptRwx)
    (hs : Sound ops ⟨m, requests⟩) (ho : TablesOpen ops ⟨m, requests⟩) (hright : DmaRight right)
    (hv : v < 2 ^ 48) :
    eptTranslate ops right v ⟨m, requests⟩ = (leaf ops m v).bind (Leaf.grant right v) := by
  rw [eptTranslate, walkRight_eq hs ho hdefault hv, localGpa2hpa_eq hs, Nat.mod_eq_of_lt hv]
  cases hL : leaf ops m v with
  | none =>
    rw [Option.map_none, Option.map_none]
    split
    · rfl
    · rfl
  | some L =>
    rw [Option.map_some, Option.map_some, Option.getD_some, BitVec.and_assoc, hright.subset.1]
    rfl

/-- The rights of the tables depend on the arrays only. -/
theorem TablesOpen.congr {m' : ℕ → Word} {requests' : List PageRequest}
    (hs : Sound ops ⟨m, requests⟩) (ho : TablesOpen ops ⟨m, requests⟩)
    (hm : SameArrays ops.info m m') : TablesOpen ops ⟨m', requests'⟩ := by
  intro l v hl hv hlink
  have hlinked : Linked ops m l.next v :=
    (linked_congr fun _ _ hk => hs.entryAt_congr hm hv hk).mp hlink
  have habove : Linked ops m l v := ((linked_next hl v).mp hlinked).1
  exact (hs.entryAt_congr hm hv habove).trans (ho l v hl hv hlinked)

end Walk

/-! ## All EPTs

That a table of an EPT grants everything is kept by every call on it, and it is a fact about that
EPT's own arrays. -/

namespace EptPools

variable {n : ℕ} (pools : EptPools n) (vm : Fin n)

theorem getDefaultAccessRight_ops : (pools.ops vm).getDefaultAccessRight = eptRwx := rfl

theorem pgentryPresent_ops (e : Word) : (pools.ops vm).pgentryPresent e = e &&& eptRwx := rfl

end EptPools

namespace EptArrays

variable {n : ℕ} {pools : EptPools n} {up launched : Fin n → Bool} {s s' : EptArrays n}
  {vm vm' : Fin n}

/-- No table of a virtual machine that is up takes a right away. -/
def Open (pools : EptPools n) (up : Fin n → Bool) (s : EptArrays n) : Prop :=
  ∀ vm, up vm = true → TablesOpen (pools.ops vm) (s.pgMem vm)

/-- A change of one EPT, for the others. -/
theorem Open.other (hopen : s.Open pools up) (h : s.Inv pools up launched)
    (hframes : Frames pools vm s s') (hne : vm' ≠ vm) (hup : up vm' = true) :
    TablesOpen (pools.ops vm') (s'.pgMem vm') := by
  obtain ⟨hsound, -⟩ := h.sound hup
  exact TablesOpen.congr hsound (hopen vm' hup) (hframes.sameArrays hne)

/-- A call on one EPT keeps its own tables open, and it writes in no other array. -/
theorem Open.call (hopen : s.Open pools up) (h : s.Inv pools up launched) (hup : up vm = true)
    (hlaunched : launched vm = true) {c : EptCall} (hc : c.Admissible (pools.ops vm)) :
    (s.apply vm (c.run (pools.ops vm))).Open pools up := by
  obtain ⟨hsound, hroot⟩ := h.sound hup
  have hwrites := EptCall.writes (pools.lawful vm) (pools.ptPool vm) hsound hroot hc
  intro vm' hup'
  by_cases hne : vm' = vm
  · subst hne
    rw [pgMem_apply]
    exact hwrites.tablesOpen (pools.lawful vm') (hopen vm' hup')
  · exact hopen.other h (h.call hup hlaunched hc).2 hne hup'

theorem Open.calls (hopen : s.Open pools up) (h : s.Inv pools up launched) (hup : up vm = true)
    (hlaunched : launched vm = true) {cs : List EptCall}
    (hcs : ∀ c ∈ cs, c.Admissible (pools.ops vm)) : (s.calls pools vm cs).Open pools up := by
  induction cs generalizing s with
  | nil => exact hopen
  | cons c cs ih =>
    have hc := hcs c List.mem_cons_self
    exact ih (hopen.call h hup hlaunched hc) (h.call hup hlaunched hc).1
      fun c' hc' => hcs c' (List.mem_cons_of_mem c hc')

/-- A new EPT is open, for `create_ept` has only written sanitised entries. -/
theorem Open.create (hopen : s.Open pools up) (h : s.Inv pools up launched)
    (hfresh : launched vm = false) :
    (s.apply vm (createEpt (pools.ops vm))).Open pools (Function.update up vm true) := by
  have hbefore : BeforeCreate (pools.ops vm) (s.pgMem vm) := by
    refine ⟨fun i hi => ?_, h.fresh hfresh⟩
    have hpage := h.page i hi
    rwa [← pools.sanitizedPage_eq vm] at hpage
  intro vm' hup'
  by_cases hne : vm' = vm
  · subst hne
    rw [pgMem_apply]
    exact (createEpt_open (pools.lawful vm') hbefore).1.tables
  · rw [Function.update_of_ne hne] at hup'
    exact hopen.other h (h.create hfresh).2 hne hup'

/-- Destroying an EPT says nothing about the others. -/
theorem Open.destroy (hopen : s.Open pools up) (h : s.Inv pools up launched)
    (hlaunched : launched vm = true) :
    (s.apply vm (destroyEpt (pools.ops vm))).Open pools (Function.update up vm false) := by
  intro vm' hup'
  have hne : vm' ≠ vm := by
    rintro rfl
    rw [Function.update_self] at hup'
    cases hup'
  rw [Function.update_of_ne hne] at hup'
  exact hopen.other h (h.destroy hlaunched).2.1 hne hup'

end EptArrays

/-! ## All devices -/

namespace DeviceState

variable {n : ℕ} {config : DeviceConfig n} {ctx : ContextTables} {up : Fin n → Bool} {vm : Fin n}
  {s : DeviceState n}

/-- The devices of a virtual machine that is up are in its domain. -/
def Attached (config : DeviceConfig n) (up : Fin n → Bool) (s : DeviceState n) : Prop :=
  ∀ vm, up vm = true → ∀ bus devfun, config.Owns vm bus devfun →
    s.dmar.last bus devfun = .added (config.domain vm)

/-- `vpci_init_vdevs` puts the devices of the new virtual machine in its domain, and moves no other
device. -/
theorem Attached.vpciInit (hattached : s.Attached config up) (h : s.Inv config ctx up) :
    ((s.createDomain vm (config.nworldEptp vm)).vpciInitVdevs ctx vm (config.pciDevs vm)).Attached
      config (Function.update up vm true) := by
  obtain ⟨hothers, -⟩ := h.vpciInit_frame vm
  intro vm' hup' bus devfun howns
  by_cases hne : vm' = vm
  · subst hne
    obtain ⟨vdev, hvdev, hpt, rfl, rfl⟩ := howns
    rw [vpciInit_eq]
    refine DmarState.last_calls (fun c hc hdevice t => ?_)
      ⟨_, mem_initCalls.mpr ⟨vdev, hvdev, hpt, rfl⟩, rfl⟩
    obtain ⟨vdev', -, -, rfl⟩ := mem_initCalls.mp hc
    obtain ⟨hbus, hdevfun⟩ := Prod.mk.inj (Option.some.inj hdevice)
    rw [DmarState.last_call]
    exact if_pos ⟨hbus.symm, hdevfun.symm⟩
  · rw [Function.update_of_ne hne] at hup'
    exact (hothers bus devfun (DeviceConfig.owns_ne howns hne)).2.trans
      (hattached vm' hup' bus devfun howns)

/-- Releasing the devices and the domain of one virtual machine concerns no other. -/
theorem Attached.release (hattached : s.Attached config up) (h : s.Inv config ctx up)
    (hup : up vm = true) (qi : VpciVdev → QiStatus) :
    ((s.vpciCleanup ctx vm (config.pciDevs vm) qi).destroyDomain vm).Attached config
      (Function.update up vm false) := by
  intro vm' hup' bus devfun howns
  have hne : vm' ≠ vm := by
    rintro rfl
    rw [Function.update_self] at hup'
    cases hup'
  rw [Function.update_of_ne hne] at hup'
  have hother := ((h.last_cleanup hup qi bus devfun).2 (DeviceConfig.owns_ne howns hne)).2
  rw [vpciCleanup_eq, (h.domain hup).2]
  exact hother.trans (hattached vm' hup' bus devfun howns)

end DeviceState

/-! ## Every step

What devices reach follows from three things in a state: the rights in the EPTs, the devices that
are in the domains, and what the domains point to. Most steps leave them all alone. -/

namespace HostState

variable {n : ℕ} {config : HostConfig n} {h h' : HostState n}

/-- The rights of the EPTs are those of their last entries, and the devices are where their virtual
machines are. -/
structure DmaInv (config : HostConfig n) (h : HostState n) : Prop extends h.Inv config where
  tables : h.ept.Open config.pools h.up
  attached : h.devices.Attached config.devices h.up

/-- What leaves the EPTs and the devices as they are. -/
theorem DmaInv.of_eq (hdma : h.DmaInv config) (hinv : h'.Inv config) (hept : h'.ept = h.ept)
    (hlast : h'.devices.dmar.last = h.devices.dmar.last) (hup : h'.up = h.up) :
    h'.DmaInv config := by
  refine ⟨hinv, ?_, fun vm hvm bus devfun howns => ?_⟩
  · rw [hept, hup]
    exact hdma.tables
  · rw [hup] at hvm
    rw [hlast]
    exact hdma.attached vm hvm bus devfun howns

/-- A change of state between those that are up leaves it at which virtual machines are up. -/
theorem up_setState {vm : Fin n} (hup : h.up vm = true) {state : VmLifeState}
    (hne : state ≠ .poweredOff) : (h.setState vm state).up = h.up := by
  have hstate : (h.setState vm state).state = Function.update h.state vm state := rfl
  rw [up_of_update hstate hne, ← hup]
  exact Function.update_eq_self ..

/-- After the boot no virtual machine is up. -/
theorem DmaInv.booted (hboot : h.Booted config) : h.DmaInv config := by
  have hdown : ∀ vm, h.up vm ≠ true := by
    intro vm hup
    rw [up, hboot.state] at hup
    cases hup
  exact ⟨.booted hboot, fun vm hup => absurd hup (hdown vm), fun vm hup => absurd hup (hdown vm)⟩

/-- What leaves it at that which vCPUs there are. -/
theorem DmaInv.keeps {f : VmCpus → VmCpus} (hdma : h.DmaInv config)
    (hkeeps : h.cpus.toMachine.Keeps (f h.cpus).toMachine) : (h.onCpus f).DmaInv config :=
  hdma.of_eq (hdma.toInv.keeps hkeeps) rfl rfl rfl

/-- A shutdown takes the EPT and the domain of its virtual machine away, and those only. -/
theorem DmaInv.shutdownVm (hdma : h.DmaInv config) {vm : Fin n} (hup : h.up vm = true)
    (cur : PcpuId) (gone : PcpuId → Bool) (qi : VpciVdev → QiStatus) :
    (h.shutdownVm config vm cur gone qi).DmaInv config := by
  have hstate : (h.shutdownVm config vm cur gone qi).state =
    Function.update h.state vm .poweredOff := rfl
  have hdown : (h.shutdownVm config vm cur gone qi).up = Function.update h.up vm false :=
    up_update hstate
  refine ⟨hdma.toInv.shutdownVm cur gone qi hup, ?_, ?_⟩
  · rw [hdown]
    exact hdma.tables.destroy hdma.ept (hdma.launched hup)
  · rw [hdown]
    exact hdma.attached.release hdma.devices hup qi

theorem DmaInv.idle (hdma : h.DmaInv config) (p : PcpuId) (gone : PcpuId → Bool)
    (qi : VpciVdev → QiStatus) : (h.idle config p gone qi).DmaInv config := by
  rw [HostState.idle]
  split
  · exact hdma.keeps (f := (·.updatePcpu p PerCpuRegion.goOffline)) (.refl _)
  split
  · have hclear := hdma.keeps
      (f := (·.updatePcpu p fun r => { r with needShutdownVm := false })) (.refl _)
    rw [shutdownVmFromIdle]
    split
    · next hvm =>
      dsimp only
      split
      · next hpaused => exact hclear.shutdownVm (up_of_state hpaused (by decide)) p gone qi
      · exact hclear
    · exact hclear
  · exact hdma

/-- **Every step.** -/
theorem DmaInv.step (hdma : h.DmaInv config) {a : HostStep n} (hok : a.Allowed config h)
    (hstep : a.run config h = some h') : h'.DmaInv config := by
  have hinv' := hdma.toInv.step hok hstep
  cases a with
  | createVm vm =>
    obtain rfl := Option.some.inj hstep
    have hstate : (h.createVm config vm).state = Function.update h.state vm .created := rfl
    have hup := up_of_update hstate (by decide)
    refine ⟨hinv', ?_, ?_⟩
    · rw [hup, ept_createVm]
      obtain ⟨hcreated, -⟩ := hdma.ept.create hok
      exact (hdma.tables.create hdma.ept hok).calls hcreated (Function.update_self ..)
        (Function.update_self ..) (config.setup_admissible vm)
    · rw [hup]
      exact hdma.attached.vpciInit hdma.devices
  | startVm vm cur =>
    obtain rfl := Option.some.inj hstep
    have hup : h.up vm = true := up_of_state hok (by decide)
    exact hdma.of_eq hinv' rfl rfl (up_setState hup (by decide))
  | eptCall vm c =>
    obtain rfl := Option.some.inj hstep
    exact ⟨hinv', hdma.tables.call hdma.ept hok.1 (hdma.launched hok.1) hok.2, hdma.attached⟩
  | msixRemap vm vdev irte qiStatus =>
    obtain rfl := Option.some.inj hstep
    exact hdma.of_eq hinv' rfl rfl rfl
  | vuartCall call =>
    obtain rfl := Option.some.inj hstep
    exact hdma.of_eq hinv' rfl rfl rfl
  | runVcpu vm i vcpu =>
    obtain rfl := Option.some.inj hstep
    exact hdma.of_eq hinv' rfl rfl rfl
  | vcpuMakeRequest vm i cur eventid =>
    obtain rfl := Option.some.inj hstep
    exact hdma.of_eq hinv' rfl rfl rfl
  | writeIcr vm i val =>
    obtain rfl := Option.some.inj hstep
    exact hdma.of_eq hinv' rfl rfl rfl
  | pauseVm vm cur =>
    obtain rfl := Option.some.inj hstep
    rw [HostState.pauseVm] at hinv' ⊢
    split at hinv'
    · next hstarted =>
      have hup : (h.onCpus (·.pauseVcpus vm cur)).up vm = true := up_of_state hstarted (by decide)
      rw [if_pos hstarted]
      exact hdma.of_eq hinv' rfl rfl (up_setState hup (by decide))
    · next hstarted =>
      rw [if_neg hstarted]
      exact hdma
  | requestShutdown vm i cur =>
    obtain rfl := Option.some.inj hstep
    exact hdma.of_eq hinv' rfl rfl rfl
  | schedule p =>
    obtain ⟨cpus, -, rfl⟩ := Option.map_eq_some_iff.mp hstep
    exact hdma.of_eq hinv' rfl rfl rfl
  | idle p gone qi =>
    obtain rfl := Option.some.inj hstep
    exact hdma.idle p gone qi

/-- The invariant holds in every run. -/
theorem reach_dmaInv (hreach : Reach (hostSystem config) any h) : h.DmaInv config := by
  refine hreach.invariant (P := DmaInv config) (fun _ => .booted) fun s a s' _ hstep hs => ?_
  exact hs.step hstep.1 hstep.2

/-! ## The isolation of devices -/

theorem toNat_nworldEptp (config : HostConfig n) (vm : Fin n) :
    (config.nworldEptp vm).toNat = (config.pools.ops vm).info.pml4Base := by
  have hle : (config.pools.info vm).pml4Base + pageSize * 1 ≤ 2 ^ 39 :=
    (config.pools.info vm).base_le .pml4
  have hlt : (config.pools.info vm).pml4Base < 2 ^ 64 := by omega
  rw [HostConfig.nworldEptp, BitVec.toNat_ofNat, Nat.mod_eq_of_lt hlt]
  rfl

/-- A device in the domain of a virtual machine goes through its EPT. -/
theorem DmaInv.translateDma_added (hdma : h.DmaInv config) {vm : Fin n} (hup : h.up vm = true)
    {bus devfun : BitVec 8} (howns : config.devices.Owns vm bus devfun) {right : Word}
    (hright : DmaRight right) (v : ℕ) :
    h.devices.dmar.dmar.translateDma h.ept.mem right bus devfun v =
      if v < 2 ^ 48 then eptTranslate (config.pools.ops vm) right v (h.ept.pgMem vm) else none := by
  have hholds := hdma.devices.tables.reflected bus devfun
  rw [hdma.attached vm hup bus devfun howns] at hholds
  obtain ⟨hpresent, htype, htable, hwidth, -⟩ := hholds
  have htable' : (config.devices.domain vm).transTablePtr = config.nworldEptp vm := rfl
  have hlevels : secondLevels 48 = pml4.downTo := rfl
  rw [Dmar.translateDma, hpresent, htype, htable, hwidth, htable', toNat_nworldEptp, hlevels,
    if_neg (by decide), if_neg (by decide), if_neg (by decide)]
  by_cases hv : v < 2 ^ 48
  · rw [if_neg (Nat.not_le.mpr hv), if_pos hv]
    obtain ⟨hsound, -⟩ := hdma.ept.sound hup
    have hdefault := config.pools.getDefaultAccessRight_ops vm
    have hpresent := config.pools.pgentryPresent_ops vm
    have hopen := hdma.tables vm hup
    exact (secondLevelWalk_eq hdefault hpresent hsound hopen hright hv).trans
      (eptTranslate_eq hdefault hsound hopen hright hv).symm
  · rw [if_pos (Nat.not_lt.mp hv), if_neg hv]

/-- A device in no domain reaches nothing. -/
theorem Inv.translateDma_absent (hinv : h.Inv config) {bus devfun : BitVec 8}
    (hlast : ∀ domain, h.devices.dmar.last bus devfun ≠ .added domain) (right : Word) (v : ℕ) :
    h.devices.dmar.dmar.translateDma h.ept.mem right bus devfun v = none := by
  have hreflected := hinv.devices.tables.reflected bus devfun
  rw [Dmar.translateDma]
  refine if_pos ?_
  cases hop : h.devices.dmar.last bus devfun with
  | added domain => exact absurd hop (hlast domain)
  | never =>
    rw [hop] at hreflected
    exact hreflected
  | removed =>
    rw [hop] at hreflected
    exact hreflected

end HostState

/-- **The isolation of devices.** In every state of every run, a device of a virtual machine that is
up reaches what the processors of that virtual machine reach, at the same host address with the same
right, and any other device reaches nothing. -/
theorem devices_reach_memory_of_owner {n : ℕ} (config : HostConfig n) {h : HostState n}
    (hreach : Reach (hostSystem config) any h) {right : Word} (hright : DmaRight right)
    (bus devfun : BitVec 8) (v : ℕ) :
    (∀ vm, h.up vm = true → config.devices.Owns vm bus devfun →
      h.devices.dmar.dmar.translateDma h.ept.mem right bus devfun v =
        if v < 2 ^ 48 then eptTranslate (config.pools.ops vm) right v (h.ept.pgMem vm)
        else none) ∧
    ((∀ vm, h.up vm = true → ¬ config.devices.Owns vm bus devfun) →
      h.devices.dmar.dmar.translateDma h.ept.mem right bus devfun v = none) := by
  have hdma := HostState.reach_dmaInv hreach
  refine ⟨fun vm hup howns => hdma.translateDma_added hup howns hright v, fun hnone => ?_⟩
  refine hdma.translateDma_absent (fun domain hadded => ?_) right v
  obtain ⟨vm, hup, howns, -⟩ := hdma.devices.owner hadded
  exact hnone vm hup howns

/-- The first virtual machine is created, and the second is not. -/
def oneCreated : HostState 2 := twoBooted.createVm twoVms ⟨0, Nat.two_pos⟩

theorem state_oneCreated (vm : Fin 2) :
    oneCreated.state vm = if vm = 0 then .created else .poweredOff := by
  have hstate : oneCreated.state = Function.update (fun _ => .poweredOff) 0 .created := rfl
  rw [hstate, Function.update_apply]

theorem devices_reach_memory_of_owner_two :
    oneCreated.devices.dmar.dmar.translateDma oneCreated.ept.mem eptWr 0#8 0x10#8 0x5000 =
        eptTranslate (twoVms.pools.ops 0) eptWr 0x5000 (oneCreated.ept.pgMem 0) ∧
      oneCreated.devices.dmar.dmar.translateDma oneCreated.ept.mem eptWr 0#8 0x18#8 0x5000 =
        none := by
  have hreach : Reach (hostSystem twoVms) any oneCreated :=
    .step (a := .createVm 0) (.init twoBooted_booted) trivial ⟨rfl, rfl⟩
  have hup : oneCreated.up 0 = true := HostState.up_of_state (state_oneCreated 0) (by decide)
  have howns : twoVms.devices.Owns 0 0#8 0x10#8 := ⟨_, List.mem_singleton_self _, rfl, rfl, rfl⟩
  have hnone : ∀ vm, oneCreated.up vm = true → ¬ twoVms.devices.Owns vm 0#8 0x18#8 := by
    rintro vm hvm ⟨vdev, hmem, -, -, hdevfun⟩
    obtain rfl := List.mem_singleton.mp hmem
    by_cases hzero : vm = 0
    · subst hzero
      cases hdevfun
    · rw [HostState.up, state_oneCreated, if_neg hzero] at hvm
      cases hvm
  have hdevice := (devices_reach_memory_of_owner twoVms hreach (.inr rfl) 0#8 0x10#8 0x5000).1 0 hup
    howns
  rw [if_pos (by decide)] at hdevice
  exact ⟨hdevice,
    (devices_reach_memory_of_owner twoVms hreach (.inr rfl) 0#8 0x18#8 0x5000).2 hnone⟩

end Acrn
