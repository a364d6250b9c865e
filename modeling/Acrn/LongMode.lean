import Acrn.ControlRegs

/-!
# Long mode

`vmx_write_cr0` keeps `EFER.LMA` and the IA-32e-mode-guest control in step with CR0.PG,
`vmx_write_cr4` keeps PAE on under them, and the writes to `IA32_EFER` and
`IA32_MISC_ENABLE` keep out a value that a VM entry would refuse. Here: after any run.
-/

namespace Acrn

open BitField Transition

/-- The processor lets a VM entry leave IA-32e mode, and its CPUID has the leaf
`0x80000001`. -/
structure Platform.LongModeCapable (p : Platform) : Prop where
  entryCtls : p.entryCtls.setWidth 32 &&& vmxEntryCtlsIa32eMode = 0#32
  xlevel : 0x80000001#32 ≤ p.vcpuidXlevel

/-- The registers that decide the mode agree with each other. -/
structure LongMode (p : Platform) (v : VcpuView) : Prop extends Coherent p v where
  lma : v.efer &&& eferLma ≠ 0#64 ↔ v.cr0 &&& cr0Pg ≠ 0#64 ∧ v.efer &&& eferLme ≠ 0#64
  ia32e : v.vmcs.entryControls &&& vmxEntryCtlsIa32eMode ≠ 0#32 ↔ v.efer &&& eferLma ≠ 0#64
  pae : v.efer &&& eferLma ≠ 0#64 → v.cr4 &&& cr4Pae ≠ 0#64
  nxe : v.guestMsrs .miscEnable &&& msrIa32MiscEnableXdDisable ≠ 0#64 → v.efer &&& eferNxe = 0#64

section
variable {p : Platform} {mem : GuestMem} {v w : VcpuView} {val : Word}

theorem LongMode.congr (h : LongMode p v) (hsame : SameControls v w) : LongMode p w := by
  obtain ⟨o, ho⟩ := hsame.vmcs
  refine ⟨h.toCoherent.congr hsame, ?_, ?_, ?_, ?_⟩
  · rw [hsame.efer, hsame.cr0]
    exact h.lma
  · rw [hsame.efer, ho]
    exact h.ia32e
  · rw [hsame.efer, hsame.cr4]
    exact h.pae
  · rw [hsame.efer, hsame.miscEnable]
    exact h.nxe

/-- The entry controls start without the IA-32e control, whatever the processor requires of them. -/
theorem initialEntryControls_ia32e (hp : p.LongModeCapable) :
    initialEntryControls p &&& vmxEntryCtlsIa32eMode = 0#32 := by
  have hdbg : vmxEntryCtlsLoadDebugctl &&& vmxEntryCtlsIa32eMode = 0#32 := by decide
  have hreq : (vmxEntryCtlsLoadEfer ||| vmxEntryCtlsLoadPat) &&& vmxEntryCtlsIa32eMode = 0#32 := by
    decide
  rw [initialEntryControls, and_not_and_of_disjoint hdbg, checkVmxCtrl,
    or_and_of_disjoint_right hp.entryCtls, BitVec.and_assoc, BitVec.and_comm _ vmxEntryCtlsIa32eMode,
    ← BitVec.and_assoc, hreq, BitVec.zero_and]

/-- After its VMCS is initialised a vCPU is outside long mode in every respect. -/
theorem LongMode.of_initialised {u : Vcpu} (hp : p.LongModeCapable) (h : Initialised p u v)
    (hefer : u.ctxEfer = 0#64) : LongMode p v := by
  have hzero : v.efer = 0#64 := h.efer.trans hefer
  refine ⟨h.coherent, ?_, ?_, ?_, ?_⟩
  · simp [hzero]
  · simp [hzero, h.entryControls, initialEntryControls_ia32e hp]
  · simp [hzero]
  · simp [hzero]

/-! ## Writes

Each write is looked at for the parts of the invariant in turn. They are about different bits, so
most of them come down to bits that a write leaves alone. -/

/-- PG is no reserved bit. -/
theorem cr0_mask_pg : (val &&& ~~~cr0ReservedMask) &&& cr0Pg = val &&& cr0Pg :=
  and_not_and_of_disjoint (by decide)

/-- The mode bits of EFER do not meet. -/
theorem eferLma_and_eferLme : eferLma &&& eferLme = 0#64 := by decide

theorem eferLma_and_eferNxe : eferLma &&& eferNxe = 0#64 := by decide

/-- Switching paging sets LMA to what the new PG asks for. -/
theorem LongMode.switchPaging_lma (hv : LongMode p v) (hu : v.switchPaging p mem val = some w) :
    w.efer &&& eferLma ≠ 0#64 ↔ val &&& cr0Pg ≠ 0#64 ∧ w.efer &&& eferLme ≠ 0#64 := by
  obtain ⟨pdpte, rfl, hsame⟩ | ⟨hon, hlme, rfl⟩ | ⟨hoff, rfl⟩ := switchPaging_cases hu
  · rw [hv.lma]
    obtain hlme | hpg := hsame
    · simp [hlme]
    · rw [Ne, Ne, hpg]
  · have hlma : (v.efer ||| eferLma) &&& eferLma ≠ 0#64 := or_and_ne_zero (by decide)
    have hkept : (v.efer ||| eferLma) &&& eferLme = v.efer &&& eferLme :=
      or_and_of_disjoint_right eferLma_and_eferLme
    simpa [VcpuView.setEfer, hlma, hkept, hon] using hlme
  · simp [VcpuView.setEfer, hoff, BitVec.and_assoc]

/-- Switching paging moves the entry control together with LMA. -/
theorem LongMode.switchPaging_ia32e (hv : LongMode p v)
    (hu : v.switchPaging p mem val = some w) :
    w.vmcs.entryControls &&& vmxEntryCtlsIa32eMode ≠ 0#32 ↔ w.efer &&& eferLma ≠ 0#64 := by
  obtain ⟨pdpte, rfl, -⟩ | ⟨-, -, rfl⟩ | ⟨-, rfl⟩ := switchPaging_cases hu
  · exact hv.ia32e
  · exact iff_of_true (or_and_ne_zero (by decide)) (or_and_ne_zero (by decide))
  · simp [VcpuView.setEfer, BitVec.and_assoc]

/-- What switching paging leaves alone. -/
theorem switchPaging_kept (hu : v.switchPaging p mem val = some w) :
    w.cr4 = v.cr4 ∧ w.efer &&& eferLme = v.efer &&& eferLme := by
  obtain ⟨pdpte, rfl, -⟩ | ⟨-, -, rfl⟩ | ⟨-, rfl⟩ := switchPaging_cases hu
  · exact ⟨rfl, rfl⟩
  · exact ⟨rfl, or_and_of_disjoint_right eferLma_and_eferLme⟩
  · exact ⟨rfl, and_not_and_of_disjoint eferLma_and_eferLme⟩

/-- Switching paging leaves NXE alone. -/
theorem LongMode.switchPaging_nxe (hv : LongMode p v) (hu : v.switchPaging p mem val = some w) :
    w.guestMsrs .miscEnable &&& msrIa32MiscEnableXdDisable ≠ 0#64 → w.efer &&& eferNxe = 0#64 := by
  intro hxd
  obtain ⟨pdpte, rfl, -⟩ | ⟨-, -, rfl⟩ | ⟨-, rfl⟩ := switchPaging_cases hu
  · exact hv.nxe hxd
  · have hkept : (v.efer ||| eferLma) &&& eferNxe = v.efer &&& eferNxe :=
      or_and_of_disjoint_right eferLma_and_eferNxe
    exact hkept.trans (hv.nxe hxd)
  · have hkept : (v.efer &&& ~~~eferLma) &&& eferNxe = v.efer &&& eferNxe :=
      and_not_and_of_disjoint eferLma_and_eferNxe
    exact hkept.trans (hv.nxe hxd)

/-- A write to CR0 is accepted with PG and LME only where PAE is set, and LMA follows PG. -/
theorem LongMode.writeCr0 (hv : LongMode p v) (h : v.writeCr0 p mem val = some w) :
    LongMode p w := by
  have hcoh := hv.toCoherent.writeCr0 h
  obtain ⟨hvalid, u, hu, rfl⟩ := writeCr0_eq_some h
  let applied := u.applyCr0Changes (v.cr0 ^^^ val) (val &&& ~~~cr0ReservedMask)
  have hpg : (applied.commitCr0 p (val &&& ~~~cr0ReservedMask)).cr0 &&& cr0Pg =
      (val &&& ~~~cr0ReservedMask) &&& cr0Pg :=
    commitCr0_and (v := applied) (hv.toCoherent.switchPaging hu).cr0Mask (by decide) (by decide)
      (by decide)
  have hlma := hv.switchPaging_lma hu
  have hia32e := hv.switchPaging_ia32e hu
  have hnxe := hv.switchPaging_nxe hu
  obtain ⟨hcr4, hlme⟩ := switchPaging_kept hu
  refine ⟨hcoh, ?_, hia32e, ?_, hnxe⟩
  · rw [hpg]
    exact hlma
  · -- paging in long mode is only accepted with PAE
    intro hon
    obtain ⟨hpg', hlme'⟩ := hlma.mp hon
    rw [cr0_mask_pg] at hpg'
    rw [hlme] at hlme'
    show u.cr4 &&& cr4Pae ≠ 0#64
    rw [hcr4]
    exact (hvalid.pae.resolve_left hpg').resolve_right hlme'

/-- A write to CR4 is refused if it clears PAE in long mode. -/
theorem LongMode.writeCr4 (hv : LongMode p v) (h : v.writeCr4 p mem val = some w) :
    LongMode p w := by
  have hcoh := hv.toCoherent.writeCr4 h
  obtain ⟨hvalid, pdpte, events, rfl⟩ := writeCr4_eq_some h
  let loaded := { v with vmcs.guestPdpte := pdpte, events := events }
  have hpae : (loaded.commitCr4 p val).cr4 &&& cr4Pae = val &&& cr4Pae :=
    commitCr4_and (v := loaded) hv.cr4Mask (by decide) (by decide)
  refine ⟨hcoh, hv.lma, hv.ia32e, ?_, hv.nxe⟩
  intro hon
  rw [hpae]
  exact hvalid.pae.resolve_left hon

/-- A guest whose execute-disable feature is turned off does not see it. -/
theorem xdFeature_of_disabled (hp : p.LongModeCapable)
    (hxd : v.guestMsrs .miscEnable &&& msrIa32MiscEnableXdDisable ≠ 0#64) :
    v.xdFeature p = false := by
  rw [VcpuView.xdFeature, if_neg (fun h => absurd h.2 (BitVec.not_lt.mpr hp.xlevel)), if_pos hxd,
    BitVec.and_assoc]
  simp

/-- A write to EFER cannot change LMA, nor LME while paging is on, nor set NXE where the feature is
disabled. -/
theorem LongMode.writeEfer (hp : p.LongModeCapable) (hv : LongMode p v)
    (h : v.writeEfer p val = some w) : LongMode p w := by
  have hcoh := hv.toCoherent.writeEfer h
  rw [VcpuView.writeEfer] at h
  split at h
  swap
  · exact absurd h (by simp)
  next hvalid =>
  obtain ⟨newVal, hnew⟩ : ∃ x, x = (if (v.efer ^^^ val) &&& eferLma ≠ 0#64 then
      (val &&& ~~~eferLma) ||| (v.efer &&& eferLma) else val) := ⟨_, rfl⟩
  -- the guest cannot change LMA, and the other bits are the ones it wrote
  have hlma : newVal &&& eferLma = v.efer &&& eferLma := by
    rw [hnew]
    split
    · rw [or_and_of_disjoint_left (by simp [BitVec.and_assoc]), BitVec.and_assoc, BitVec.and_self]
    · next hsame => exact and_eq_of_xor_and_eq_zero (not_not.mp hsame)
  have hother : ∀ b, eferLma &&& b = 0#64 → newVal &&& b = val &&& b := by
    intro b hb
    rw [hnew]
    split
    · rw [or_and_of_disjoint_right (by rw [BitVec.and_assoc, hb, BitVec.and_zero]),
        and_not_and_of_disjoint hb]
    · rfl
  have hlme := hother _ eferLma_and_eferLme
  have hnxe := hother _ eferLma_and_eferNxe
  rw [← hnew] at h
  obtain rfl := Option.some.inj h
  refine ⟨hcoh, ?_, ?_, ?_, ?_⟩
  · show newVal &&& eferLma ≠ 0#64 ↔ v.cr0 &&& cr0Pg ≠ 0#64 ∧ newVal &&& eferLme ≠ 0#64
    rw [hlma, hlme, hv.lma]
    obtain hsame | hpg := hvalid.lme
    · rw [and_eq_of_xor_and_eq_zero hsame]
    · simp [hpg]
  · show v.vmcs.entryControls &&& vmxEntryCtlsIa32eMode ≠ 0#32 ↔ newVal &&& eferLma ≠ 0#64
    rw [hlma]
    exact hv.ia32e
  · show newVal &&& eferLma ≠ 0#64 → v.cr4 &&& cr4Pae ≠ 0#64
    rw [hlma]
    exact hv.pae
  · intro hxd
    show newVal &&& eferNxe = 0#64
    rw [hnxe]
    have hoff : v.xdFeature p = false := xdFeature_of_disabled hp hxd
    exact hvalid.nxe.resolve_left (by simp [hoff])

/-- The execute-disable bit is the one that was written. -/
theorem miscEnableAfter_xd (v : VcpuView) (val : Word) :
    v.miscEnableAfter val &&& msrIa32MiscEnableXdDisable = val &&& msrIa32MiscEnableXdDisable := by
  have hsub : msrIa32MiscEnableMask &&& msrIa32MiscEnableXdDisable = msrIa32MiscEnableXdDisable := by
    decide
  have hclear : ~~~msrIa32MiscEnableMask &&& msrIa32MiscEnableXdDisable = 0#64 := by decide
  rw [VcpuView.miscEnableAfter]
  split
  · rw [or_and_of_disjoint_left (by rw [BitVec.and_assoc, hclear, BitVec.and_zero]),
      BitVec.and_assoc, hsub]
  · next hsame =>
    exact and_eq_of_xor_and_eq_zero (and_eq_zero_of_subset (not_not.mp hsame)
      (by rw [BitVec.and_comm]; exact hsub))

/-- Disabling the execute-disable feature clears NXE. -/
theorem LongMode.writeMiscEnable (hv : LongMode p v) (h : v.writeMiscEnable val = some w) :
    LongMode p w := by
  have hcoh := hv.toCoherent.writeMiscEnable h
  have hxd := miscEnableAfter_xd v val
  rw [VcpuView.writeMiscEnable] at h
  split at h
  · exact absurd h (by simp)
  dsimp only at h
  split at h
  · -- NXE is cleared with the feature, and the mode bits stay
    obtain rfl := Option.some.inj h
    have hlma : (v.efer &&& ~~~eferNxe) &&& eferLma = v.efer &&& eferLma :=
      and_not_and_of_disjoint (by decide)
    have hlme : (v.efer &&& ~~~eferNxe) &&& eferLme = v.efer &&& eferLme :=
      and_not_and_of_disjoint (by decide)
    refine ⟨hcoh, ?_, ?_, ?_, fun _ => ?_⟩
    · show (v.efer &&& ~~~eferNxe) &&& eferLma ≠ 0#64 ↔
        v.cr0 &&& cr0Pg ≠ 0#64 ∧ (v.efer &&& ~~~eferNxe) &&& eferLme ≠ 0#64
      rw [hlma, hlme]
      exact hv.lma
    · show v.vmcs.entryControls &&& vmxEntryCtlsIa32eMode ≠ 0#32 ↔
        (v.efer &&& ~~~eferNxe) &&& eferLma ≠ 0#64
      rw [hlma]
      exact hv.ia32e
    · show (v.efer &&& ~~~eferNxe) &&& eferLma ≠ 0#64 → v.cr4 &&& cr4Pae ≠ 0#64
      rw [hlma]
      exact hv.pae
    · show (v.efer &&& ~~~eferNxe) &&& eferNxe = 0#64
      simp [BitVec.and_assoc]
  · next hkeep =>
    obtain rfl := Option.some.inj h
    refine ⟨hcoh, hv.lma, hv.ia32e, hv.pae, fun hon => ?_⟩
    dsimp only at hon
    rw [Function.update_self, hxd] at hon
    by_contra hnxe
    exact hkeep ⟨hon, hnxe⟩

/-- The PAT has no part in the mode. -/
theorem LongMode.writePat (hv : LongMode p v) (h : v.writePat val = some w) : LongMode p w := by
  have hcoh := hv.toCoherent.writePat h
  rw [VcpuView.writePat] at h
  split at h
  · exact absurd h (by simp)
  · obtain rfl := Option.some.inj h
    exact ⟨hcoh, hv.lma, hv.ia32e, hv.pae, hv.nxe⟩

/-- The guest cannot leave the mode by itself. -/
theorem LongMode.entered {guest : GuestActivity} (hv : LongMode p v) (h : Entered v guest w) :
    LongMode p w := by
  have hcoh := hv.toCoherent.entered h
  have hefer : w.efer = v.efer := h.efer.trans hv.efer
  have hpg : w.cr0 &&& cr0Pg = v.cr0 &&& cr0Pg := by
    rw [hcoh.cr0_and (by decide) (by decide), hv.cr0_and (by decide) (by decide), h.vmcs]
    rfl
  have hpae : w.cr4 &&& cr4Pae = v.cr4 &&& cr4Pae := by
    rw [hcoh.cr4_and (by decide) (by decide), hv.cr4_and (by decide) (by decide), h.vmcs]
    rfl
  refine ⟨hcoh, ?_, ?_, ?_, ?_⟩
  · rw [hefer, hpg]
    exact hv.lma
  · rw [hefer, h.vmcs]
    exact hv.ia32e
  · rw [hefer, hpae]
    exact hv.pae
  · rw [hefer, h.guestMsrs]
    exact hv.nxe

/-! ## Runs -/

/-- The step lemma: whatever a step does to the registers, they agree afterwards. -/
theorem LongMode.step {vcpu : Vcpu} {a : VcpuStep} (hp : p.LongModeCapable)
    (hv : LongMode p vcpu.view) (h : ViewStep p vcpu w a) : LongMode p w := by
  cases h with
  | init h => exact .of_initialised hp h rfl
  | run h => exact hv.entered h
  | cr0 cr0 h => exact hv.writeCr0 h
  | cr4 cr4 h => exact hv.writeCr4 h
  | pat h => exact hv.writePat h
  | efer h => exact hv.writeEfer hp h
  | miscEnable h => exact hv.writeMiscEnable h
  | other h => exact hv.congr h

/-- They agree in every run, from the power-up of the vCPU on. -/
theorem LongMode.reach {vcpu : Vcpu} (hp : p.LongModeCapable)
    (h : Reach (vcpuSystem p) any vcpu) : LongMode p vcpu.view := by
  induction h with
  | init h =>
    obtain ⟨u, hu, -, hefer, -⟩ := Booted.initialised h
    exact .of_initialised hp hu hefer
  | step _ _ hs ih =>
    subst hs
    exact ih.step hp (vcpuStep_view _ _)

/-- **After any run of a vCPU its mode is consistent**: LMA is PG and LME, the VM-entry
control is LMA, LMA has PAE under it, and NXE is off when the feature is turned off. -/
theorem long_mode_consistent (hp : p.LongModeCapable) {vcpu : Vcpu}
    (h : Reach (vcpuSystem p) any vcpu) :
    let efer := (vcpuGetEfer vcpu).1
    let cr0 := (vcpuGetCr0 vcpu).1
    let cr4 := (vcpuGetCr4 vcpu).1
    (efer &&& eferLma ≠ 0#64 ↔ cr0 &&& cr0Pg ≠ 0#64 ∧ efer &&& eferLme ≠ 0#64) ∧
    (vcpu.vmcs.entryControls &&& vmxEntryCtlsIa32eMode ≠ 0#32 ↔ efer &&& eferLma ≠ 0#64) ∧
    (efer &&& eferLma ≠ 0#64 → cr4 &&& cr4Pae ≠ 0#64) ∧
    (vcpu.guestMsrs .miscEnable &&& msrIa32MiscEnableXdDisable ≠ 0#64 →
      efer &&& eferNxe = 0#64) := by
  obtain ⟨v₁, h₁, -⟩ := vcpuGetEfer_spec vcpu
  obtain ⟨v₂, h₂, -⟩ := vcpuGetCr0_spec vcpu
  obtain ⟨v₃, h₃, -⟩ := vcpuGetCr4_spec vcpu
  rw [h₁, h₂, h₃]
  have hv := LongMode.reach hp h
  exact ⟨hv.lma, hv.ia32e, hv.pae, hv.nxe⟩

end

/-- The run of a guest that goes to long mode from the protected mode it starts in. -/
theorem long_mode_consistent_boot :
    let boot := initVmcs typicalPlatform (initVcpuProtectModeRegs (createVcpu 0#32 ⟨0#64, 0#64⟩))
    let steps := [.crAccess (fun _ => none) (.movToCr4 0x20#64), .wrmsr 0#64 msrIa32Efer 0x900#64,
      .crAccess (fun _ => none) (.movToCr0 0x80000031#64)]
    let vcpu := steps.foldl (vcpuStep typicalPlatform) boot
    (vcpuGetEfer vcpu).1 &&& eferLma ≠ 0#64 ↔
      (vcpuGetCr0 vcpu).1 &&& cr0Pg ≠ 0#64 ∧ (vcpuGetEfer vcpu).1 &&& eferLme ≠ 0#64 := by
  intro boot steps vcpu
  have hp : typicalPlatform.LongModeCapable := ⟨by decide, by decide⟩
  have hboot : Reach (vcpuSystem typicalPlatform) any boot := .init (.protectedMode 0#32 ⟨0#64, 0#64⟩)
  have hreach : Reach (vcpuSystem typicalPlatform) any vcpu := reach_foldl hboot steps
  exact (long_mode_consistent hp hreach).1

end Acrn
