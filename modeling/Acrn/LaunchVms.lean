import Acrn.Teardown
import Acrn.Vacpi

/-!
# The launch of virtual machines

`launch_vms` and `prepare_vm` of `vm.c`, and the commands `start_test` and `stop_test` of the debug
shell, on top of the life of virtual machines. They alone call `build_vacpi`, and a template of ACPI
tables is good for one build (`buildVacpi_not_valid_second`). So it matters which virtual machines
are prepared again: only the safety VM is, and for that one no tables are built.

All pCPUs are at work at once. Each has the calls that it still has to make, and between any two of
them the others make theirs, and the guests go on.
-/

namespace Acrn

open Transition

/-! ## The calls of a pCPU

`prepare_vm` is a sequence of four calls, or of three, and `launch_vms` is one of these for each
virtual machine that has its first vCPU on the pCPU. -/

/-- A call that `prepare_vm` makes. -/
inductive LaunchCall (n : ℕ) where
  | createVm (vm : Fin n)
  | buildVacpi (vm : Fin n)
  | directBootSwLoader (vm : Fin n)
  | startVm (vm : Fin n)
  deriving DecidableEq

/-- The virtual machine that a call is made for. -/
def LaunchCall.vm {n : ℕ} : LaunchCall n → Fin n
  | createVm vm => vm
  | buildVacpi vm => vm
  | directBootSwLoader vm => vm
  | startVm vm => vm

section
variable {n : ℕ}

/-- `is_safety_vm`. -/
def isSafetyVm (vm : Fin n) : Bool := decide (vm.val = 0)

/-- `prepare_vm`. What `create_vm` returns is always 0. -/
def prepareVm (vm : Fin n) : List (LaunchCall n) :=
  .createVm vm :: ((if !isSafetyVm vm then [.buildVacpi vm] else []) ++
    [.directBootSwLoader vm, .startVm vm])

/-- `get_vm_bsp_pcpu_id`, where no pCPU stands for FFFFH. -/
def AcrnVmConfig.getVmBspPcpuId (config : AcrnVmConfig n) (pcpuNums : ℕ) : Option PcpuId :=
  config.pcpus.head?.filter fun p => decide (p.val < pcpuNums)

/-- `launch_vms` on a pCPU. -/
def HostConfig.launchVms (config : HostConfig n) (pcpuNums : ℕ) (p : PcpuId) :
    List (LaunchCall n) :=
  (List.finRange n).flatMap fun vm =>
    if (config.vms vm).getVmBspPcpuId pcpuNums = some p then prepareVm vm else []

end

/-! ## The state and its steps

The hypervisor as before, with the templates of the ACPI tables, with the calls that the pCPUs have
to make, and with all tables that were ever copied to guests. -/

/-- The tables that `build_vacpi` has copied to a guest, when it had so many vCPUs. -/
structure GuestTables (n : ℕ) where
  vm : Fin n
  createdVcpus : ℕ
  image : AcpiImage

/-- The state of the hypervisor while virtual machines are launched. -/
structure LaunchState (n : ℕ) where
  host : HostState n
  /-- `acpi_table_template` -/
  templates : Fin n → AcpiTableInfo
  /-- the pCPU has called `launch_vms` -/
  launched : PcpuId → Bool
  calls : PcpuId → List (LaunchCall n)
  /-- the tables of guests, the last ones first -/
  tables : List (GuestTables n)

namespace LaunchState

variable {n : ℕ} (config : HostConfig n) (s : LaunchState n)

/-- A pCPU has calls to make. -/
def setCalls (p : PcpuId) (calls : List (LaunchCall n)) : LaunchState n :=
  { s with calls := Function.update s.calls p calls }

/-- `build_vacpi`. -/
def buildVacpi (vm : Fin n) : LaunchState n :=
  let createdVcpus := s.host.cpus.createdVcpus vm
  let built := Acrn.buildVacpi (s.templates vm) createdVcpus
  { s with
    templates := Function.update s.templates vm built.1
    tables := ⟨vm, createdVcpus, built.2⟩ :: s.tables }

/-- A call by a pCPU. `direct_boot_sw_loader` works on the memory and on the first vCPU of the guest,
of which nothing is in the state. -/
def call (cur : PcpuId) : LaunchCall n → LaunchState n
  | .createVm vm => { s with host := s.host.createVm config vm }
  | .buildVacpi vm => s.buildVacpi vm
  | .directBootSwLoader _ => s
  | .startVm vm => { s with host := s.host.startVm vm cur }

end LaunchState

/-- A step of a run. -/
inductive LaunchStep (n : ℕ) where
  | launchVms (p : PcpuId)
  | shellStartTest (p : PcpuId)
  | shellStopTest (p : PcpuId) (gone : PcpuId → Bool) (qi : VpciVdev → QiStatus)
  /-- a pCPU makes its next call -/
  | call (p : PcpuId)
  /-- what else the guests and the hypervisor do -/
  | other (a : HostStep n)

namespace LaunchStep

variable {n : ℕ} [NeZero n] (config : HostConfig n) (pcpuNums : ℕ)

/-- The commands of the shell are about VM 0. -/
def run (s : LaunchState n) : LaunchStep n → Option (LaunchState n)
  | .launchVms p => some ({ s with launched := Function.update s.launched p true }.setCalls p
      (config.launchVms pcpuNums p))
  | .shellStartTest p =>
    some (if s.host.state 0 = .poweredOff then s.setCalls p (prepareVm 0) else s)
  | .shellStopTest p gone qi =>
    some (if s.host.state 0 ≠ .poweredOff then
      { s with host := s.host.shutdownVm config 0 p gone qi } else s)
  | .call p =>
    match s.calls p with
    | [] => none
    | c :: calls => some ((s.setCalls p calls).call config p c)
  | .other a => (a.run config s.host).map fun host => { s with host }

/-- When a step can be taken: `init_guest_mode` calls `launch_vms` once on each pCPU, and the shell
is run by the idle thread or at a VM exit. -/
def Allowed (s : LaunchState n) : LaunchStep n → Prop
  | .launchVms p => s.launched p = false ∧ s.calls p = []
  | .shellStartTest p => s.calls p = []
  | .shellStopTest p _ _ => s.calls p = []
  | .call _ => True
  | .other (.createVm _) => False
  | .other (.startVm _ _) => False
  | .other a => a.Allowed config s.host

end LaunchStep

/-- Before `launch_vms`. -/
structure LaunchState.Booted {n : ℕ} (config : HostConfig n) (s : LaunchState n) : Prop where
  host : s.host.Booted config
  templates : s.templates = fun _ => acpiTableTemplate
  launched : s.launched = fun _ => false
  calls : s.calls = fun _ => []
  tables : s.tables = []

/-- The runs of the hypervisor from its boot on, the launches included. -/
def launchVmsSystem {n : ℕ} [NeZero n] (config : HostConfig n) (pcpuNums : ℕ) :
    System (LaunchState n) (LaunchStep n) where
  init s := s.Booted config
  step s a s' := a.Allowed config s ∧ a.run config pcpuNums s = some s'

/-! ## No call is made twice

A pCPU calls `launch_vms` once, and a virtual machine has its first vCPU on one pCPU. That is why
there is one `build_vacpi` for it at most. -/

section
variable {n : ℕ} {config : HostConfig n} {pcpuNums : ℕ} {p p' : PcpuId} {vm : Fin n}

/-- All calls of `prepare_vm` are for its own virtual machine. -/
theorem vm_of_mem_prepareVm {c : LaunchCall n} (hc : c ∈ prepareVm vm) : c.vm = vm := by
  rw [prepareVm, List.mem_cons, List.mem_append] at hc
  rcases hc with rfl | hbuild | hrest
  · rfl
  · split at hbuild
    · exact List.mem_singleton.mp hbuild ▸ rfl
    · cases hbuild
  · rcases List.mem_pair.mp hrest with rfl | rfl <;> rfl

/-- `prepare_vm` makes none of its calls twice. -/
theorem nodup_prepareVm (vm : Fin n) : (prepareVm vm).Nodup := by
  unfold prepareVm
  split <;> simp

/-- No tables are built for the safety VM. -/
theorem buildVacpi_notMem_prepareVm_zero [NeZero n] : .buildVacpi vm ∉ prepareVm (0 : Fin n) := by
  have hsafety : isSafetyVm (0 : Fin n) = true := decide_eq_true (Fin.val_zero ..)
  simp [prepareVm, hsafety]

/-- Nor does `launch_vms`, since it prepares each virtual machine at most once. -/
theorem nodup_launchVms (p : PcpuId) : (config.launchVms pcpuNums p).Nodup := by
  refine List.nodup_flatMap.mpr ⟨fun vm _ => ?_, ?_⟩
  · split
    · exact nodup_prepareVm vm
    · exact List.nodup_nil
  · refine (List.nodup_finRange n).imp fun {vm vm'} hne c hc hc' => hne ?_
    dsimp only at hc hc'
    split at hc
    · split at hc'
      · exact (vm_of_mem_prepareVm hc).symm.trans (vm_of_mem_prepareVm hc')
      · cases hc'
    · cases hc

/-- `launch_vms` only prepares the virtual machines whose first vCPU is on the pCPU that calls
it. -/
theorem bsp_of_mem_launchVms {c : LaunchCall n} (hc : c ∈ config.launchVms pcpuNums p) :
    (config.vms c.vm).getVmBspPcpuId pcpuNums = some p := by
  obtain ⟨vm, -, hmem⟩ := List.mem_flatMap.mp hc
  split at hmem
  · next hbsp => exact vm_of_mem_prepareVm hmem ▸ hbsp
  · cases hmem

namespace LaunchState

variable {s : LaunchState n}

/-- Tables have been built for a virtual machine. -/
def HasTables (s : LaunchState n) (vm : Fin n) : Prop := ∃ t ∈ s.tables, t.vm = vm

/-- All tables are right, and one more build for a virtual machine is the first one. -/
structure Inv (config : HostConfig n) (pcpuNums : ℕ) (s : LaunchState n) : Prop where
  valid : ∀ t ∈ s.tables, t.image.Valid t.createdVcpus
  fresh : ∀ vm, ¬ s.HasTables vm → s.templates vm = acpiTableTemplate
  nodup : ∀ p, (s.calls p).Nodup
  pending : ∀ p vm, .buildVacpi vm ∈ s.calls p →
    (config.vms vm).getVmBspPcpuId pcpuNums = some p ∧ s.launched p = true ∧ ¬ s.HasTables vm
  unlaunched : ∀ p vm, (config.vms vm).getVmBspPcpuId pcpuNums = some p → s.launched p = false →
    ¬ s.HasTables vm

/-- Before the first `launch_vms` no tables are built and every template is fresh. -/
theorem Booted.inv (h : s.Booted config) : s.Inv config pcpuNums := by
  have hnone : ∀ vm, ¬ s.HasTables vm := by
    rintro vm ⟨t, ht, -⟩
    rw [h.tables] at ht
    cases ht
  refine ⟨fun t ht => ?_, fun vm _ => ?_, fun p => ?_, fun p vm hmem => ?_, fun _ vm _ _ => hnone vm⟩
  · rw [h.tables] at ht
    cases ht
  · rw [h.templates]
  · rw [h.calls]
    exact List.nodup_nil
  · rw [h.calls] at hmem
    cases hmem

/-- What happens to the rest of the hypervisor does not matter. -/
theorem Inv.setHost (h : s.Inv config pcpuNums) (host : HostState n) :
    { s with host }.Inv config pcpuNums :=
  ⟨h.valid, h.fresh, h.nodup, h.pending, h.unlaunched⟩

theorem calls_setCalls_self {calls : List (LaunchCall n)} :
    (s.setCalls p calls).calls p = calls := by
  simp only [setCalls, Function.update_self]

theorem calls_setCalls_of_ne {calls : List (LaunchCall n)} (hp : p' ≠ p) :
    (s.setCalls p calls).calls p' = s.calls p' := by
  simp only [setCalls, Function.update_of_ne hp]

/-- The calls of a pCPU are replaced. -/
theorem Inv.setCalls (h : s.Inv config pcpuNums) {calls : List (LaunchCall n)}
    (hnodup : calls.Nodup) (hpending : ∀ vm, .buildVacpi vm ∈ calls →
      (config.vms vm).getVmBspPcpuId pcpuNums = some p ∧ s.launched p = true ∧
        ¬ s.HasTables vm) : (s.setCalls p calls).Inv config pcpuNums := by
  refine ⟨h.valid, h.fresh, fun p' => ?_, fun p' vm hmem => ?_, h.unlaunched⟩
  · by_cases hp : p' = p
    · rw [hp, calls_setCalls_self]
      exact hnodup
    · rw [calls_setCalls_of_ne hp]
      exact h.nodup p'
  · by_cases hp : p' = p
    · rw [hp, calls_setCalls_self] at hmem
      exact hp ▸ hpending vm hmem
    · rw [calls_setCalls_of_ne hp] at hmem
      exact h.pending p' vm hmem

/-- When a pCPU enters `launch_vms`, no tables have been built for its virtual machines: only this
pCPU builds them, and it has not been here before. -/
theorem Inv.launchVms (h : s.Inv config pcpuNums) (hp : s.launched p = false) :
    ({ s with launched := Function.update s.launched p true }.setCalls p
      (config.launchVms pcpuNums p)).Inv config pcpuNums := by
  have hlaunched : Function.update s.launched p true p = true := Function.update_self ..
  have hinv : Inv config pcpuNums { s with launched := Function.update s.launched p true } := by
    refine ⟨h.valid, h.fresh, h.nodup, fun p' vm hmem => ?_, fun p' vm hbsp hp' => ?_⟩
    · obtain ⟨hbsp, hon, hnone⟩ := h.pending p' vm hmem
      refine ⟨hbsp, ?_, hnone⟩
      dsimp only
      rw [Function.update_apply, hon, ite_self]
    · refine h.unlaunched p' vm hbsp ?_
      have hne : p' ≠ p := fun heq => absurd (hlaunched.symm.trans (heq ▸ hp')) (by decide)
      exact (Function.update_of_ne hne ..).symm.trans hp'
  refine hinv.setCalls (nodup_launchVms p) fun vm hmem => ?_
  have hbsp := bsp_of_mem_launchVms hmem
  exact ⟨hbsp, hlaunched, h.unlaunched p vm hbsp hp⟩

/-- **`build_vacpi`** for a virtual machine that has no tables yet, when no more builds for it are
to come. -/
theorem Inv.buildVacpi (h : s.Inv config pcpuNums)
    (hbsp : (config.vms vm).getVmBspPcpuId pcpuNums = some p) (hlaunched : s.launched p = true)
    (hnone : ¬ s.HasTables vm) (hlast : ∀ p', .buildVacpi vm ∉ s.calls p') :
    (s.buildVacpi vm).Inv config pcpuNums := by
  have htables : ∀ vm', (s.buildVacpi vm).HasTables vm' → vm' = vm ∨ s.HasTables vm' := by
    rintro vm' ⟨t, ht, rfl⟩
    rcases List.mem_cons.mp ht with rfl | ht
    · exact Or.inl rfl
    · exact Or.inr ⟨t, ht, rfl⟩
  refine ⟨fun t ht => ?_, fun vm' hnone' => ?_, h.nodup, fun p' vm' hmem => ?_,
    fun p' vm' hbsp' hoff hhas => ?_⟩
  -- the template is as it was at the start
  · rcases List.mem_cons.mp ht with rfl | ht
    · show AcpiImage.Valid (Acrn.buildVacpi (s.templates vm) _).2 _
      rw [h.fresh vm hnone]
      exact buildVacpi_valid_first (s.host.cpus.created_le vm)
    · exact h.valid t ht
  · have hne : vm' ≠ vm := fun heq => hnone' ⟨_, List.mem_cons_self, heq.symm⟩
    refine (Function.update_of_ne hne ..).trans (h.fresh vm' ?_)
    rintro ⟨t, ht, rfl⟩
    exact hnone' ⟨t, List.mem_cons_of_mem _ ht, rfl⟩
  · obtain ⟨hbsp', hon, hnone'⟩ := h.pending p' vm' hmem
    refine ⟨hbsp', hon, fun hhas => (htables vm' hhas).elim (fun heq => ?_) hnone'⟩
    exact hlast p' (heq ▸ hmem)
  · rcases htables vm' hhas with rfl | hhas
    · obtain rfl : p = p' := Option.some.inj (hbsp.symm.trans hbsp')
      exact absurd (hlaunched.symm.trans hoff) (by decide)
    · exact h.unlaunched p' vm' hbsp' hoff hhas

/-- The next call of a pCPU. -/
theorem Inv.call (h : s.Inv config pcpuNums) {c : LaunchCall n} {calls : List (LaunchCall n)}
    (hcalls : s.calls p = c :: calls) :
    ((s.setCalls p calls).call config p c).Inv config pcpuNums := by
  obtain ⟨hnot, hnodup⟩ := List.nodup_cons.mp (hcalls ▸ h.nodup p)
  have hrest : (s.setCalls p calls).Inv config pcpuNums :=
    h.setCalls hnodup fun vm hmem => h.pending p vm (hcalls ▸ List.mem_cons_of_mem c hmem)
  cases c with
  | createVm vm => exact hrest.setHost _
  | buildVacpi vm =>
    obtain ⟨hbsp, hlaunched, hnone⟩ := h.pending p vm (hcalls ▸ List.mem_cons_self)
    refine hrest.buildVacpi hbsp hlaunched hnone fun p' hmem => ?_
    by_cases hp : p' = p
    · rw [hp, calls_setCalls_self] at hmem
      exact hnot hmem
    -- another pCPU has no build to make for a virtual machine of this one
    · rw [calls_setCalls_of_ne hp] at hmem
      exact hp (Option.some.inj ((h.pending p' vm hmem).1.symm.trans hbsp))
  | directBootSwLoader vm => exact hrest
  | startVm vm => exact hrest.setHost _

/-- The step lemma: the only step that puts `build_vacpi` in front of a pCPU is its `launch_vms`. -/
theorem Inv.step [NeZero n] {s' : LaunchState n} {a : LaunchStep n} (h : s.Inv config pcpuNums)
    (hallowed : a.Allowed config s) (hrun : a.run config pcpuNums s = some s') :
    s'.Inv config pcpuNums := by
  cases a with
  | launchVms p =>
    obtain rfl := Option.some.inj hrun
    exact h.launchVms hallowed.1
  | shellStartTest p =>
    obtain rfl := Option.some.inj hrun
    split
    · exact h.setCalls (nodup_prepareVm 0) fun vm hmem => absurd hmem buildVacpi_notMem_prepareVm_zero
    · exact h
  | shellStopTest p gone qi =>
    obtain rfl := Option.some.inj hrun
    split
    · exact h.setHost _
    · exact h
  | call p =>
    rw [LaunchStep.run] at hrun
    split at hrun
    · cases hrun
    · next c calls hcalls =>
      obtain rfl := Option.some.inj hrun
      exact h.call hcalls
  | other a =>
    obtain ⟨host, -, rfl⟩ := Option.map_eq_some_iff.mp hrun
    exact h.setHost host

/-- The invariant holds in every run. -/
theorem reach_inv [NeZero n] {s : LaunchState n}
    (hreach : Reach (launchVmsSystem config pcpuNums) any s) : s.Inv config pcpuNums :=
  hreach.invariant (P := LaunchState.Inv config pcpuNums)
    (fun s (hbooted : s.Booted config) => hbooted.inv)
    fun s a s' _ (hstep : a.Allowed config s ∧ a.run config pcpuNums s = some s') h =>
      h.step hstep.1 hstep.2

end LaunchState

/-- **Every ACPI table that a guest is given is right.** In every run, whatever the pCPUs, the guests
and the shell do, each RSDP, XSDT and MADT that `build_vacpi` copies to a guest has right checksums
over its lengths, and the MADT has one enabled local APIC for each vCPU, in order. -/
theorem acpi_tables_valid [NeZero n] (config : HostConfig n) (pcpuNums : ℕ) {s : LaunchState n}
    (hreach : Reach (launchVmsSystem config pcpuNums) any s) :
    ∀ t ∈ s.tables, t.image.Valid t.createdVcpus :=
  (LaunchState.reach_inv hreach).valid

/-- The next call of a pCPU, in a run. -/
theorem LaunchState.reach_call [NeZero n] {s : LaunchState n} {c : LaunchCall n}
    {calls : List (LaunchCall n)} (hreach : Reach (launchVmsSystem config pcpuNums) any s)
    (hcalls : s.calls p = c :: calls) :
    Reach (launchVmsSystem config pcpuNums) any ((s.setCalls p calls).call config p c) := by
  refine hreach.step (a := .call p) trivial ⟨trivial, ?_⟩
  rw [LaunchStep.run, hcalls]

end

/-- The platform of two before `launch_vms`. -/
def twoUnlaunched : LaunchState 2 where
  host := twoBooted
  templates := fun _ => acpiTableTemplate
  launched := fun _ => false
  calls := fun _ => []
  tables := []

theorem launchVms_twoVms : twoVms.launchVms 4 0 = [.createVm 0, .directBootSwLoader 0, .startVm 0] ∧
    twoVms.launchVms 4 2 =
      [.createVm 1, .buildVacpi 1, .directBootSwLoader 1, .startVm 1] := by decide

/-- The safety VM is stopped and started again, and then the other one gets its tables. -/
theorem acpi_tables_valid_two :
    ∃ s : LaunchState 2, Reach (launchVmsSystem twoVms 4) any s ∧
      ∃ image, s.tables = [⟨1, 2, image⟩] ∧ image.Valid 2 := by
  let gone : PcpuId → Bool := fun _ => true
  let qi : VpciVdev → QiStatus := fun _ => ⟨0x5000#64, 0x5000#64, 0x5000#64⟩
  have hbooted : twoUnlaunched.Booted twoVms := ⟨twoBooted_booted, rfl, rfl, rfl, rfl⟩
  obtain ⟨hfirst, hsecond⟩ := launchVms_twoVms
  have h₁ : Reach (launchVmsSystem twoVms 4) any _ :=
    .step (a := .launchVms 0) (.init hbooted) trivial ⟨⟨rfl, rfl⟩, rfl⟩
  have h₂ := LaunchState.reach_call h₁ (LaunchState.calls_setCalls_self.trans hfirst)
  have h₃ := LaunchState.reach_call h₂ LaunchState.calls_setCalls_self
  have h₄ := LaunchState.reach_call h₃ LaunchState.calls_setCalls_self
  have hup : VmLifeState.started ≠ .poweredOff := by decide
  have h₅ : Reach (launchVmsSystem twoVms 4) any _ :=
    .step (a := .shellStopTest 0 gone qi) h₄ trivial ⟨rfl, congrArg some (if_pos hup)⟩
  have h₆ : Reach (launchVmsSystem twoVms 4) any _ :=
    .step (a := .shellStartTest 0) h₅ trivial ⟨rfl, congrArg some (if_pos rfl)⟩
  have h₇ : Reach (launchVmsSystem twoVms 4) any _ :=
    .step (a := .launchVms 2) h₆ trivial ⟨⟨rfl, rfl⟩, rfl⟩
  have h₈ := LaunchState.reach_call h₇ (LaunchState.calls_setCalls_self.trans hsecond)
  have h₉ := LaunchState.reach_call h₈ LaunchState.calls_setCalls_self
  exact ⟨_, h₉, _, rfl, acpi_tables_valid twoVms 4 h₉ _ List.mem_cons_self⟩

end Acrn
