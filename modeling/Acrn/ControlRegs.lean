import Acrn.VcpuRun

/-!
# The control registers over a run

What the steps of a vCPU make of its control registers. `Coherent` is the invariant
under everything else: the guest/host masks are those of `init_cr0_cr4_host_mask`, and
a register reads as the VMCS has it, through its mask and its shadow.
-/

namespace Acrn

open BitField Transition

/-! ## What the host owns

A guest reads a trapped bit from the shadow and any other bit from the field itself, which is what
makes it possible to say what a register reads as without the caches of the vCPU. -/

/-- The host owns the bits of CR0 that it traps. -/
theorem cr0HostOwnedBits_and (p : Platform) {b : Word} (htrap : cr0TrapMask &&& b = b)
    (hres : cr0ReservedMask &&& b = 0#64) : cr0HostOwnedBits p &&& b = b := by
  rw [cr0HostOwnedBits, and_not_and_of_disjoint hres, BitVec.and_or_distrib_right, htrap]
  ext i
  simp only [BitVec.getElem_or, BitVec.getElem_and]
  cases b[i] <;> simp

/-- The host owns the bits of CR4 that it traps. -/
theorem cr4HostOwnedBits_and (p : Platform) {b : Word} (htrap : cr4TrapMask &&& b = b)
    (hres : cr4ReservedMask &&& b = 0#64) : cr4HostOwnedBits p &&& b = b := by
  rw [cr4HostOwnedBits, and_not_and_of_disjoint hres, BitVec.and_or_distrib_right, htrap]
  ext i
  simp only [BitVec.getElem_or, BitVec.getElem_and]
  cases b[i] <;> simp

/-- What a vCPU with an initialised VMCS is read as. -/
structure Coherent (p : Platform) (v : VcpuView) : Prop where
  cr0Mask : v.vmcs.cr0GuestHostMask = cr0HostOwnedBits p
  cr4Mask : v.vmcs.cr4GuestHostMask = cr4HostOwnedBits p
  cr0 : v.cr0 = v.vmcs.virtualCr0
  cr4 : v.cr4 = v.vmcs.virtualCr4
  efer : v.entryEfer = v.efer

section
variable {p : Platform} {mem : GuestMem} {v w : VcpuView} {val : Word}

theorem Coherent.congr (h : Coherent p v) (hsame : SameControls v w) : Coherent p w := by
  obtain ⟨o, ho⟩ := hsame.vmcs
  exact ⟨by rw [ho]; exact h.cr0Mask, by rw [ho]; exact h.cr4Mask,
    by rw [hsame.cr0, h.cr0, ho]; rfl, by rw [hsame.cr4, h.cr4, ho]; rfl,
    by rw [hsame.entryEfer, h.efer, hsame.efer]⟩

/-- A trapped bit of CR0 reads as the shadow has it. -/
theorem Coherent.cr0_and (h : Coherent p v) {b : Word} (htrap : cr0TrapMask &&& b = b)
    (hres : cr0ReservedMask &&& b = 0#64) : v.cr0 &&& b = v.vmcs.cr0ReadShadow &&& b := by
  rw [h.cr0, Vmcs.virtualCr0, select_and_of_subset]
  rw [h.cr0Mask]
  exact cr0HostOwnedBits_and p htrap hres

/-- A trapped bit of CR4 reads as the shadow has it. -/
theorem Coherent.cr4_and (h : Coherent p v) {b : Word} (htrap : cr4TrapMask &&& b = b)
    (hres : cr4ReservedMask &&& b = 0#64) : v.cr4 &&& b = v.vmcs.cr4ReadShadow &&& b := by
  rw [h.cr4, Vmcs.virtualCr4, select_and_of_subset]
  rw [h.cr4Mask]
  exact cr4HostOwnedBits_and p htrap hres

/-! ## The writes to CR0 and CR4

An accepted write goes through at most two changes: paging is switched, and the value is committed.
Invariants are kept by each of them. -/

/-- Loading the PDPTEs writes nothing else. -/
theorem loadPdptrs_eq_some (h : v.loadPdptrs p mem = some w) :
    ∃ pdpte, w = { v with vmcs.guestPdpte := pdpte } := by
  rw [VcpuView.loadPdptrs, Option.map_eq_some_iff] at h
  obtain ⟨pdpte, -, rfl⟩ := h
  exact ⟨pdpte, rfl⟩

/-- What turning paging on or off comes down to. -/
theorem switchPaging_cases (h : v.switchPaging p mem val = some w) :
    (∃ pdpte, w = { v with vmcs.guestPdpte := pdpte } ∧
      (v.efer &&& eferLme = 0#64 ∨ (v.cr0 &&& cr0Pg = 0#64 ↔ val &&& cr0Pg = 0#64))) ∨
    (val &&& cr0Pg ≠ 0#64 ∧ v.efer &&& eferLme ≠ 0#64 ∧
      w = { v with vmcs.entryControls := v.vmcs.entryControls ||| vmxEntryCtlsIa32eMode }.setEfer
        (v.efer ||| eferLma)) ∨
    (val &&& cr0Pg = 0#64 ∧
      w = { v with vmcs.entryControls := v.vmcs.entryControls &&& ~~~vmxEntryCtlsIa32eMode }.setEfer
        (v.efer &&& ~~~eferLma)) := by
  rw [VcpuView.switchPaging] at h
  split at h
  · next hon =>
    split at h
    · next hlme =>
      split at h
      · exact absurd h (by simp)
      · exact .inr (.inl ⟨hon.2, hlme, (Option.some.inj h).symm⟩)
    · next hlme =>
      left
      split at h
      · obtain ⟨pdpte, rfl⟩ := loadPdptrs_eq_some h
        exact ⟨pdpte, rfl, .inl (not_not.mp hlme)⟩
      · exact ⟨_, (Option.some.inj h).symm, .inl (not_not.mp hlme)⟩
  · next hon =>
    split at h
    · next hoff =>
      split at h
      · split at h
        · exact .inr (.inr ⟨hoff.2, (Option.some.inj h).symm⟩)
        · exact absurd h (by simp)
      · next hlme => exact .inl ⟨_, (Option.some.inj h).symm, .inl (not_not.mp hlme)⟩
    · next hoff =>
      refine .inl ⟨_, (Option.some.inj h).symm, .inr ⟨fun hold => ?_, fun hnew => ?_⟩⟩
      · by_contra hnew
        exact hon ⟨hold, hnew⟩
      · by_contra hold
        exact hoff ⟨hold, hnew⟩

/-- An accepted write to CR0 was valid, switched paging, and was committed. -/
theorem writeCr0_eq_some (h : v.writeCr0 p mem val = some w) : v.Cr0Valid p val ∧
    ∃ u, v.switchPaging p mem (val &&& ~~~cr0ReservedMask) = some u ∧
      w = (u.applyCr0Changes (v.cr0 ^^^ val) (val &&& ~~~cr0ReservedMask)).commitCr0 p
        (val &&& ~~~cr0ReservedMask) := by
  rw [VcpuView.writeCr0] at h
  split at h
  · next hvalid =>
    obtain ⟨u, hu, rfl⟩ := Option.map_eq_some_iff.mp h
    exact ⟨hvalid, u, hu, rfl⟩
  · exact absurd h (by simp)

/-- An accepted write to CR4 was valid and was committed; the PDPTEs and the pending
requests may have changed before. -/
theorem writeCr4_eq_some (h : v.writeCr4 p mem val = some w) : v.Cr4Valid p val ∧
    ∃ pdpte events, w = { v with vmcs.guestPdpte := pdpte, events := events }.commitCr4 p val := by
  rw [VcpuView.writeCr4] at h
  split at h
  · next hvalid =>
    refine ⟨hvalid, ?_⟩
    split at h
    · obtain ⟨u, hu, rfl⟩ := Option.map_eq_some_iff.mp h
      rw [VcpuView.reloadPdptrs] at hu
      split at hu
      · obtain ⟨pdpte, rfl⟩ := loadPdptrs_eq_some hu
        exact ⟨pdpte, _, rfl⟩
      · obtain rfl := Option.some.inj hu
        exact ⟨_, _, rfl⟩
    · obtain rfl := Option.some.inj h
      exact ⟨_, _, rfl⟩
  · exact absurd h (by simp)

/-- A trapped bit of a committed value of CR0. -/
theorem commitCr0_and (hmask : v.vmcs.cr0GuestHostMask = cr0HostOwnedBits p) {b : Word}
    (htrap : cr0TrapMask &&& b = b) (hres : cr0ReservedMask &&& b = 0#64)
    (hne : cr0Ne &&& b = 0#64) : (v.commitCr0 p val).cr0 &&& b = val &&& b := by
  have hlow : 0xFFFFFFFF#64 &&& b = b := by
    have hsub : cr0TrapMask &&& 0xFFFFFFFF#64 = cr0TrapMask := by decide
    rw [← htrap, ← BitVec.and_assoc, BitVec.and_comm (0xFFFFFFFF#64), hsub]
  rw [VcpuView.commitCr0]
  dsimp only
  rw [Vmcs.virtualCr0, select_and_of_subset]
  · rw [BitVec.and_assoc, hlow, or_and_of_disjoint_right hne]
  · rw [hmask]
    exact cr0HostOwnedBits_and p htrap hres

/-- A trapped bit of CR4 reads as it was committed. -/
theorem commitCr4_and (hmask : v.vmcs.cr4GuestHostMask = cr4HostOwnedBits p) {b : Word}
    (htrap : cr4TrapMask &&& b = b) (hres : cr4ReservedMask &&& b = 0#64) :
    (v.commitCr4 p val).cr4 &&& b = val &&& b := by
  have hlow : 0xFFFFFFFF#64 &&& b = b := by
    have hsub : cr4TrapMask &&& 0xFFFFFFFF#64 = cr4TrapMask := by decide
    rw [← htrap, ← BitVec.and_assoc, BitVec.and_comm (0xFFFFFFFF#64), hsub]
  rw [VcpuView.commitCr4]
  dsimp only
  rw [Vmcs.virtualCr4, select_and_of_subset]
  · rw [BitVec.and_assoc, hlow]
  · rw [hmask]
    exact cr4HostOwnedBits_and p htrap hres

/-- Switching paging writes EFER to the VMCS where it changes it. -/
theorem Coherent.switchPaging (hv : Coherent p v) (h : v.switchPaging p mem val = some w) :
    Coherent p w := by
  obtain ⟨pdpte, rfl, -⟩ | ⟨-, -, rfl⟩ | ⟨-, rfl⟩ := switchPaging_cases h
  · exact ⟨hv.cr0Mask, hv.cr4Mask, hv.cr0, hv.cr4, hv.efer⟩
  · exact ⟨hv.cr0Mask, hv.cr4Mask, hv.cr0, hv.cr4, rfl⟩
  · exact ⟨hv.cr0Mask, hv.cr4Mask, hv.cr0, hv.cr4, rfl⟩

/-- A write to CR0 commits the shadow and the register together, and drops the copy. -/
theorem Coherent.writeCr0 (hv : Coherent p v) (h : v.writeCr0 p mem val = some w) :
    Coherent p w := by
  obtain ⟨-, u, hu, rfl⟩ := writeCr0_eq_some h
  have hcoh := hv.switchPaging hu
  exact ⟨hcoh.cr0Mask, hcoh.cr4Mask, rfl, hcoh.cr4, hcoh.efer⟩

/-- So does a write to CR4. -/
theorem Coherent.writeCr4 (hv : Coherent p v) (h : v.writeCr4 p mem val = some w) :
    Coherent p w := by
  obtain ⟨-, pdpte, events, rfl⟩ := writeCr4_eq_some h
  exact ⟨hv.cr0Mask, hv.cr4Mask, hv.cr0, rfl, hv.efer⟩

/-- A write to EFER goes to the value that the next entry loads. -/
theorem Coherent.writeEfer (hv : Coherent p v) (h : v.writeEfer p val = some w) :
    Coherent p w := by
  rw [VcpuView.writeEfer] at h
  split at h
  · obtain rfl := Option.some.inj h
    exact ⟨hv.cr0Mask, hv.cr4Mask, hv.cr0, hv.cr4, rfl⟩
  · exact absurd h (by simp)

theorem Coherent.writeMiscEnable (hv : Coherent p v) (h : v.writeMiscEnable val = some w) :
    Coherent p w := by
  rw [VcpuView.writeMiscEnable] at h
  split at h
  · exact absurd h (by simp)
  · split at h
    · obtain rfl := Option.some.inj h
      exact ⟨hv.cr0Mask, hv.cr4Mask, hv.cr0, hv.cr4, rfl⟩
    · obtain rfl := Option.some.inj h
      exact ⟨hv.cr0Mask, hv.cr4Mask, hv.cr0, hv.cr4, hv.efer⟩

theorem Coherent.writePat (hv : Coherent p v) (h : v.writePat val = some w) : Coherent p w := by
  rw [VcpuView.writePat] at h
  split at h
  · exact absurd h (by simp)
  · obtain rfl := Option.some.inj h
    exact ⟨hv.cr0Mask, hv.cr4Mask, hv.cr0, hv.cr4, hv.efer⟩

/-! ## Entries and initialisation -/

/-- An entry loads EFER, and after the exit every register reads as the VMCS has it. -/
structure Entered (v : VcpuView) (guest : GuestActivity) (w : VcpuView) : Prop where
  vmcs : w.vmcs = vmxVmrun { v.vmcs with guestEfer := v.entryEfer } guest
  cr0 : w.cr0 = w.vmcs.virtualCr0
  cr4 : w.cr4 = w.vmcs.virtualCr4
  efer : w.efer = v.entryEfer
  entryEfer : w.entryEfer = v.entryEfer
  guestMsrs : w.guestMsrs = v.guestMsrs

/-- Before an entry the pending value of EFER is written to the VMCS, and nothing else of it. -/
theorem flushEfer_vmcs (vcpu : Vcpu) :
    (flushEfer vcpu).vmcs = { vcpu.vmcs with guestEfer := vcpu.view.entryEfer } := by
  rw [flushEfer, Vcpu.view]
  cases vcpu.eferUpdated <;> rfl

theorem flushEfer_eferUpdated (vcpu : Vcpu) : (flushEfer vcpu).eferUpdated = false := by
  rw [flushEfer]
  cases h : vcpu.eferUpdated
  · exact h
  · rfl

theorem flushEfer_guestMsrs (vcpu : Vcpu) : (flushEfer vcpu).guestMsrs = vcpu.guestMsrs := by
  rw [flushEfer]
  cases vcpu.eferUpdated <;> rfl

theorem setVcpuMode_view (vcpu : Vcpu) (csAttr : U32) (ia32Efer cr0 : Word) :
    (setVcpuMode vcpu csAttr ia32Efer cr0).view =
      { vcpu.view with cpuMode := (setVcpuMode vcpu csAttr ia32Efer cr0).cpuMode } := rfl

/-- A round through the guest reads as one entry and one exit. -/
theorem runVcpu_entered (vcpu : Vcpu) (guest : GuestActivity) :
    Entered vcpu.view guest (runVcpu vcpu guest).view := by
  obtain ⟨v₁, h₁, hv₁⟩ := vcpuGetEfer_spec (enterGuest (flushEfer vcpu) guest)
  obtain ⟨v₂, h₂, hv₂⟩ := vcpuGetCr0_spec v₁
  rw [hv₁] at h₂ hv₂
  have hview : (runVcpu vcpu guest).view =
      { (enterGuest (flushEfer vcpu) guest).view with cpuMode := (runVcpu vcpu guest).cpuMode } := by
    rw [runVcpu, h₁]
    dsimp only
    rw [h₂]
    dsimp only
    rw [setVcpuMode_view, hv₂]
  have hvmcs : (enterGuest (flushEfer vcpu) guest).view.vmcs =
      vmxVmrun { vcpu.view.vmcs with guestEfer := vcpu.view.entryEfer } guest :=
    congrArg (vmxVmrun · guest) (flushEfer_vmcs vcpu)
  have hefer : (enterGuest (flushEfer vcpu) guest).view.efer = vcpu.view.entryEfer ∧
      (enterGuest (flushEfer vcpu) guest).view.entryEfer = vcpu.view.entryEfer := by
    simp [Vcpu.view, enterGuest, flushEfer_eferUpdated, vmxVmrun, flushEfer_vmcs]
  rw [hview]
  exact ⟨hvmcs, rfl, rfl, hefer.1, hefer.2, flushEfer_guestMsrs vcpu⟩

/-- The masks do not change in the guest, and the copies are made anew after the exit. -/
theorem Coherent.entered (hv : Coherent p v) {guest : GuestActivity} (h : Entered v guest w) :
    Coherent p w := by
  refine ⟨?_, ?_, h.cr0, h.cr4, h.entryEfer.trans h.efer.symm⟩
  · rw [h.vmcs]
    exact hv.cr0Mask
  · rw [h.vmcs]
    exact hv.cr4Mask

/-- What the initialisation of the VMCS makes of the registers a vCPU was given. -/
structure Initialised (p : Platform) (vcpu : Vcpu) (w : VcpuView) : Prop where
  coherent : Coherent p w
  guestCr0 : w.vmcs.guestCr0 =
    ((cr0AlwaysOnMask p ||| (vcpu.ctxCr0 &&& ~~~cr0ReservedMask)) &&& ~~~(cr0Cd ||| cr0Nw)) &&&
      0xFFFFFFFF#64
  cr0Shadow : w.vmcs.cr0ReadShadow =
    ((vcpu.ctxCr0 &&& ~~~cr0ReservedMask) ||| cr0Ne) &&& 0xFFFFFFFF#64
  efer : w.efer = vcpu.ctxEfer
  entryControls : w.vmcs.entryControls = initialEntryControls p
  miscEnable : w.guestMsrs .miscEnable = initialMiscEnable p
  pat : w.guestMsrs .pat = if vcpu.vcpuPowerup then vcpu.guestMsrs .pat else patPowerOnValue
  guestPat : w.vmcs.guestPat = if vcpu.vcpuPowerup then vcpu.vmcs.guestPat else patPowerOnValue

/-- `init_vmcs` makes a coherent vCPU of any vCPU that was reset. -/
theorem initVmcs_initialised (vcpu : Vcpu) (hefer : vcpu.eferUpdated = true) :
    Initialised p vcpu (initVmcs p vcpu).view := by
  obtain ⟨bitmap, deadline, phys, h⟩ := initMsrEmulation_frame p vcpu
  rw [initVmcs, initExecCtrl, h]
  cases hup : vcpu.vcpuPowerup <;> refine ⟨⟨?_, ?_, ?_, ?_, ?_⟩, ?_, ?_, ?_, ?_, ?_, ?_, ?_⟩ <;>
    simp [initEntryCtrl, initGuestState, initGuestVmx, initGuestMsrs, vmxWriteCr4, commitCr4,
      vmxWriteCr0, commitCr0, vcpuSetGuestMsr, initCr0Cr4HostMask, setEntryControls, Vcpu.view,
      Vmcs.virtualCr0, Vmcs.virtualCr4, hup, hefer, Function.update]

/-! ## Steps

`ViewStep` is the inversion of a step: whatever the exit, the view has made one of eight moves. An
invariant of the control registers needs one lemma for each. -/

/-- A step on the view: an entry, an initialisation of the VMCS, a write that is accepted,
or one that changes no control register. -/
inductive ViewStep (p : Platform) (vcpu : Vcpu) (w : VcpuView) : VcpuStep → Prop where
  | init {vcpuId : U32} : Initialised p (resetVcpu vcpu vcpuId) w → ViewStep p vcpu w (.init vcpuId)
  | run {guest : GuestActivity} : Entered vcpu.view guest w → ViewStep p vcpu w (.run guest)
  | cr0 {mem : GuestMem} {access : CrAccess} (cr0 : Word) :
      vcpu.view.writeCr0 p mem cr0 = some w → ViewStep p vcpu w (.crAccess mem access)
  | cr4 {mem : GuestMem} {access : CrAccess} (cr4 : Word) :
      vcpu.view.writeCr4 p mem cr4 = some w → ViewStep p vcpu w (.crAccess mem access)
  | pat {rdtsc val : Word} : vcpu.view.writePat val = some w →
      ViewStep p vcpu w (.wrmsr rdtsc msrIa32Pat val)
  | efer {rdtsc val : Word} : vcpu.view.writeEfer p val = some w →
      ViewStep p vcpu w (.wrmsr rdtsc msrIa32Efer val)
  | miscEnable {rdtsc val : Word} : vcpu.view.writeMiscEnable val = some w →
      ViewStep p vcpu w (.wrmsr rdtsc msrIa32MiscEnable val)
  | other {a : VcpuStep} : SameControls vcpu.view w → ViewStep p vcpu w a

/-- An accepted write, or the exception of a rejected one. -/
theorem ViewStep.getD {vcpu : Vcpu} {a : VcpuStep} {o : Option VcpuView}
    (hsome : ∀ w, o = some w → ViewStep p vcpu w a) :
    ViewStep p vcpu (o.getD vcpu.view.injectGp) a := by
  cases o with
  | none => exact .other (.injectGp vcpu.view)
  | some w => exact hsome w rfl

/-- Every step of a vCPU is one of these. -/
theorem vcpuStep_view (vcpu : Vcpu) (a : VcpuStep) :
    ViewStep p vcpu (vcpuStep p vcpu a).view a := by
  cases a with
  | init vcpuId => exact .init (initVmcs_initialised _ rfl)
  | run guest => exact .run (runVcpu_entered vcpu guest)
  | crAccess mem access =>
    rw [vcpuStep]
    obtain ⟨cr0, h⟩ | ⟨cr4, h⟩ := crAccessVmexitHandler_view p vcpu mem access
    · rw [h]
      exact .getD fun w hw => .cr0 cr0 hw
    · rw [h]
      exact .getD fun w hw => .cr4 cr4 hw
  | wrmsr rdtsc msr val =>
    rw [vcpuStep]
    by_cases hpat : msr = msrIa32Pat
    · rw [hpat, wrmsrExit_pat]
      exact .getD fun w hw => .pat hw
    by_cases hefer : msr = msrIa32Efer
    · rw [hefer, wrmsrExit_efer]
      exact .getD fun w hw => .efer hw
    by_cases hmisc : msr = msrIa32MiscEnable
    · rw [hmisc, wrmsrExit_miscEnable]
      exact .getD fun w hw => .miscEnable hw
    exact .other (wrmsrExit_other p vcpu hpat hefer hmisc)
  | rdmsr msr => exact .other (rdmsr_sameControls p vcpu msr)

/-- A vCPU before its first entry: what it was given, and how it was initialised. -/
theorem Booted.initialised {vcpu : Vcpu} (h : Booted p vcpu) :
    ∃ u : Vcpu, Initialised p u vcpu.view ∧ u.vcpuPowerup = false ∧ u.ctxEfer = 0#64 ∧
      (u.ctxCr0 = realmodeInitVregs.cr0 ∨ u.ctxCr0 = protectModeInitVregs.cr0) := by
  cases h with
  | real vcpuId pcpu => exact ⟨_, initVmcs_initialised _ rfl, rfl, rfl, .inl rfl⟩
  | protectedMode vcpuId pcpu => exact ⟨_, initVmcs_initialised _ rfl, rfl, rfl, .inr rfl⟩

end

end Acrn
