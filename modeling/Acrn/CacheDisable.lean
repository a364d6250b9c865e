import Acrn.ControlRegs

/-!
# Cache disable

The guest's CR0.CD is emulated with the memory types: while it is set the PAT of the
guest is all uncacheable, and the field of CR0 never has CD or NW. A history of what the
guest wrote goes along with the run and says what it should find.
-/

namespace Acrn

open BitField Transition

/-- The bits of CR0 that control the caches. -/
def cr0CdNw : Word := cr0Cd ||| cr0Nw

/-- What a guest has written. -/
structure CacheHistory where
  /-- the last accepted write to `IA32_PAT`, at first its power-on value -/
  pat : Word
  /-- CD and NW of the last accepted write to CR0, after an INIT both -/
  cdNw : Word
  /-- an accepted write to CR0 has changed CD since the last INIT -/
  cdChanged : Bool

/-- The history at the first initialisation. -/
def CacheHistory.boot : CacheHistory where
  pat := patPowerOnValue
  cdNw := cr0CdNw
  cdChanged := false

/-- The value that an access writes to CR0. -/
def CrAccess.cr0Value (vcpu : Vcpu) : CrAccess → Option Word
  | .movToCr0 reg => some reg
  | .movToCr4 _ => none
  | .lmsw source => some (((vcpuGetCr0 vcpu).1 &&& ~~~0xe#64) ||| (source &&& 0xf#64))

/-- The history after a step. -/
def CacheHistory.step (p : Platform) (vcpu : Vcpu) (g : CacheHistory) : VcpuStep → CacheHistory
  | .init _ => { CacheHistory.boot with pat := if vcpu.vcpuPowerup then g.pat else patPowerOnValue }
  | .crAccess mem access =>
    match access.cr0Value vcpu with
    | some cr0 =>
      if (vcpu.view.writeCr0 p mem cr0).isSome then
        { g with
          cdNw := cr0 &&& cr0CdNw
          cdChanged := g.cdChanged || decide ((vcpu.view.cr0 ^^^ cr0) &&& cr0Cd ≠ 0#64) }
      else g
    | none => g
  | .wrmsr rdtsc msr val =>
    if msr = msrIa32Pat ∧ (wrmsrVmexitHandler p rdtsc vcpu msr val).1 = 0 then { g with pat := val }
    else g
  | .run _ | .rdmsr _ => g

/-- A vCPU and the history of its guest. -/
def cacheSystem (p : Platform) : System (Vcpu × CacheHistory) VcpuStep where
  init s := Booted p s.1 ∧ s.2 = CacheHistory.boot
  step s a s' := s'.1 = vcpuStep p s.1 a ∧ s'.2 = s.2.step p s.1 a

/-- Every step goes on a run. -/
theorem cacheSystem_step {p : Platform} {s : Vcpu × CacheHistory}
    (h : Reach (cacheSystem p) any s) (a : VcpuStep) :
    Reach (cacheSystem p) any (vcpuStep p s.1 a, s.2.step p s.1 a) :=
  h.step trivial ⟨rfl, rfl⟩

/-- The guest finds what it wrote. -/
structure CacheEmulated (p : Platform) (v : VcpuView) (g : CacheHistory) : Prop
    extends Coherent p v where
  guestPat : g.cdChanged = true →
    v.vmcs.guestPat = if v.cr0 &&& cr0Cd ≠ 0#64 then patAllUcValue else v.guestMsrs .pat
  pat : v.guestMsrs .pat = g.pat
  field : v.vmcs.guestCr0 &&& cr0CdNw = 0#64
  cdNw : v.cr0 &&& cr0CdNw = g.cdNw

section
variable {p : Platform} {mem : GuestMem} {v w : VcpuView} {g : CacheHistory} {val : Word}

theorem CacheEmulated.congr (h : CacheEmulated p v g) (hsame : SameControls v w) :
    CacheEmulated p w g := by
  obtain ⟨o, ho⟩ := hsame.vmcs
  refine ⟨h.toCoherent.congr hsame, fun hg => ?_, ?_, ?_, ?_⟩
  · rw [ho, hsame.cr0, hsame.pat]
    exact h.guestPat hg
  · rw [hsame.pat]
    exact h.pat
  · rw [ho]
    exact h.field
  · rw [hsame.cr0]
    exact h.cdNw

/-- A field without CD and NW. -/
theorem field_and_cdNw (x : Word) :
    ((x &&& ~~~(cr0Cd ||| cr0Nw)) &&& 0xFFFFFFFF#64) &&& cr0CdNw = 0#64 := by
  rw [BitVec.and_assoc, BitVec.and_assoc,
    show ~~~(cr0Cd ||| cr0Nw) &&& (0xFFFFFFFF#64 &&& cr0CdNw) = 0#64 by decide, BitVec.and_zero]

theorem CacheEmulated.of_initialised {u : Vcpu} (h : Initialised p u v)
    (hcr0 : u.ctxCr0 = realmodeInitVregs.cr0 ∨ u.ctxCr0 = protectModeInitVregs.cr0)
    (hpat : v.guestMsrs .pat = g.pat) (hcd : g.cdNw = cr0CdNw) (hchg : g.cdChanged = false) :
    CacheEmulated p v g := by
  refine ⟨h.coherent, fun hg => ?_, hpat, ?_, ?_⟩
  · rw [hchg] at hg
    exact absurd hg (by decide)
  · rw [h.guestCr0]
    exact field_and_cdNw _
  · rw [h.coherent.cr0_and (by decide) (by decide), h.cr0Shadow, hcd]
    obtain hreal | hprot := hcr0
    · rw [hreal]
      decide
    · rw [hprot]
      decide

theorem CacheEmulated.entered {guest : GuestActivity} (hv : CacheEmulated p v g)
    (h : Entered v guest w) : CacheEmulated p w g := by
  have hcoh := hv.toCoherent.entered h
  -- CD and NW belong to the host
  have hown : v.vmcs.cr0GuestHostMask &&& cr0CdNw = cr0CdNw := by
    rw [hv.cr0Mask]
    exact cr0HostOwnedBits_and p (by decide) (by decide)
  have hread : ∀ b, cr0TrapMask &&& b = b → cr0ReservedMask &&& b = 0#64 →
      w.cr0 &&& b = v.cr0 &&& b := by
    intro b htrap hres
    rw [hcoh.cr0_and htrap hres, hv.cr0_and htrap hres, h.vmcs]
    rfl
  refine ⟨hcoh, fun hg => ?_, ?_, ?_, ?_⟩
  · rw [hread cr0Cd (by decide) (by decide), h.guestMsrs, h.vmcs]
    exact hv.guestPat hg
  · rw [h.guestMsrs]
    exact hv.pat
  · rw [h.vmcs]
    exact (select_and_of_subset hown).trans hv.field
  · rw [hread cr0CdNw (by decide) (by decide)]
    exact hv.cdNw

/-- Switching paging leaves the memory types alone. -/
theorem switchPaging_pat (h : v.switchPaging p mem val = some w) :
    w.vmcs.guestPat = v.vmcs.guestPat ∧ w.guestMsrs = v.guestMsrs := by
  obtain ⟨pdpte, rfl, -⟩ | ⟨-, -, rfl⟩ | ⟨-, rfl⟩ := switchPaging_cases h
  all_goals exact ⟨rfl, rfl⟩

theorem CacheEmulated.writeCr0 (hv : CacheEmulated p v g) (h : v.writeCr0 p mem val = some w) :
    CacheEmulated p w { g with
      cdNw := val &&& cr0CdNw
      cdChanged := g.cdChanged || decide ((v.cr0 ^^^ val) &&& cr0Cd ≠ 0#64) } := by
  have hcoh := hv.toCoherent.writeCr0 h
  obtain ⟨-, u, hu, rfl⟩ := writeCr0_eq_some h
  obtain ⟨hpat, hmsrs⟩ := switchPaging_pat hu
  let applied := u.applyCr0Changes (v.cr0 ^^^ val) (val &&& ~~~cr0ReservedMask)
  have hread : ∀ b, cr0TrapMask &&& b = b → cr0ReservedMask &&& b = 0#64 → cr0Ne &&& b = 0#64 →
      (applied.commitCr0 p (val &&& ~~~cr0ReservedMask)).cr0 &&& b = val &&& b := by
    intro b htrap hres hne
    rw [commitCr0_and (v := applied) (hv.toCoherent.switchPaging hu).cr0Mask htrap hres hne,
      and_not_and_of_disjoint hres]
  have hmask : (val &&& ~~~cr0ReservedMask) &&& cr0Cd = val &&& cr0Cd :=
    and_not_and_of_disjoint (by decide)
  refine ⟨hcoh, fun hg => ?_, ?_, field_and_cdNw _, hread cr0CdNw (by decide) (by decide) (by decide)⟩
  · rw [hread cr0Cd (by decide) (by decide) (by decide)]
    show (if (v.cr0 ^^^ val) &&& cr0Cd ≠ 0#64 then
        if (val &&& ~~~cr0ReservedMask) &&& cr0Cd ≠ 0#64 then patAllUcValue else u.guestMsrs .pat
      else u.vmcs.guestPat) = if val &&& cr0Cd ≠ 0#64 then patAllUcValue else u.guestMsrs .pat
    rw [hmask, hpat, hmsrs]
    by_cases hchg : (v.cr0 ^^^ val) &&& cr0Cd = 0#64
    · -- CD stays as it is, and the field is already right
      have hsame := and_eq_of_xor_and_eq_zero hchg
      have hold : g.cdChanged = true := by simpa [hchg] using hg
      rw [if_neg (not_not.mpr hchg), hsame]
      exact hv.guestPat hold
    · rw [if_pos hchg]
  · show u.guestMsrs .pat = g.pat
    rw [hmsrs]
    exact hv.pat

theorem CacheEmulated.writeCr4 (hv : CacheEmulated p v g) (h : v.writeCr4 p mem val = some w) :
    CacheEmulated p w g := by
  have hcoh := hv.toCoherent.writeCr4 h
  obtain ⟨-, pdpte, events, rfl⟩ := writeCr4_eq_some h
  exact ⟨hcoh, hv.guestPat, hv.pat, hv.field, hv.cdNw⟩

theorem CacheEmulated.writePat (hv : CacheEmulated p v g) (h : v.writePat val = some w) :
    CacheEmulated p w { g with pat := val } := by
  have hcoh := hv.toCoherent.writePat h
  rw [VcpuView.writePat] at h
  split at h
  · exact absurd h (by simp)
  obtain rfl := Option.some.inj h
  have hself : Function.update v.guestMsrs .pat val .pat = val := Function.update_self ..
  refine ⟨hcoh, fun hg => ?_, hself, hv.field, hv.cdNw⟩
  show (if v.cr0 &&& cr0Cd = 0#64 then val else v.vmcs.guestPat) =
    if v.cr0 &&& cr0Cd ≠ 0#64 then patAllUcValue else Function.update v.guestMsrs .pat val .pat
  rw [hself]
  by_cases hcd : v.cr0 &&& cr0Cd = 0#64
  · rw [if_pos hcd, if_neg (not_not.mpr hcd)]
  · rw [if_neg hcd, hv.guestPat hg, if_pos hcd, if_pos hcd]

theorem CacheEmulated.writeEfer (hv : CacheEmulated p v g) (h : v.writeEfer p val = some w) :
    CacheEmulated p w g := by
  have hcoh := hv.toCoherent.writeEfer h
  rw [VcpuView.writeEfer] at h
  split at h
  · obtain rfl := Option.some.inj h
    exact ⟨hcoh, hv.guestPat, hv.pat, hv.field, hv.cdNw⟩
  · exact absurd h (by simp)

theorem CacheEmulated.writeMiscEnable (hv : CacheEmulated p v g)
    (h : v.writeMiscEnable val = some w) : CacheEmulated p w g := by
  have hcoh := hv.toCoherent.writeMiscEnable h
  have hne : ∀ x, Function.update v.guestMsrs .miscEnable x .pat = v.guestMsrs .pat := fun x =>
    Function.update_of_ne (by decide) _ _
  rw [VcpuView.writeMiscEnable] at h
  split at h
  · exact absurd h (by simp)
  dsimp only at h
  split at h
  all_goals
    obtain rfl := Option.some.inj h
    refine ⟨hcoh, fun hg => ?_, (hne (v.miscEnableAfter val)).trans hv.pat, hv.field, hv.cdNw⟩
    show v.vmcs.guestPat = if v.cr0 &&& cr0Cd ≠ 0#64 then patAllUcValue else
      Function.update v.guestMsrs .miscEnable (v.miscEnableAfter val) .pat
    rw [hne]
    exact hv.guestPat hg

end

/-! ## Runs

The history takes its step along with the vCPU. For each kind of exit the two are compared once
more, now with what the guest has asked for. -/

section
variable {p : Platform} {s : Vcpu × CacheHistory}

/-- An access to CR0 writes the value it stands for. -/
theorem crAccessVmexitHandler_cr0 {vcpu : Vcpu} {mem : GuestMem} {access : CrAccess} {cr0 : Word}
    (h : access.cr0Value vcpu = some cr0) : (crAccessVmexitHandler p mem vcpu access).view =
      (vcpu.view.writeCr0 p mem cr0).getD vcpu.view.injectGp := by
  cases access with
  | movToCr0 reg =>
    obtain rfl := Option.some.inj h
    exact vmxWriteCr0_view p mem vcpu reg
  | movToCr4 reg => exact absurd h (by simp [CrAccess.cr0Value])
  | lmsw source =>
    obtain rfl := Option.some.inj h
    obtain ⟨v₁, h₁, hv₁⟩ := vcpuGetCr0_spec vcpu
    rw [crAccessVmexitHandler, h₁]
    dsimp only
    rw [vmxWriteCr0_view, hv₁]

theorem CacheEmulated.crAccess {vcpu : Vcpu} {g : CacheHistory}
    (hv : CacheEmulated p vcpu.view g) (mem : GuestMem) (access : CrAccess) :
    CacheEmulated p (crAccessVmexitHandler p mem vcpu access).view
      (g.step p vcpu (.crAccess mem access)) := by
  rw [CacheHistory.step]
  cases hval : access.cr0Value vcpu with
  | some cr0 =>
    rw [crAccessVmexitHandler_cr0 hval]
    cases hw : vcpu.view.writeCr0 p mem cr0 with
    | none => simpa [hw] using hv.congr (.injectGp vcpu.view)
    | some w => simpa [hw] using hv.writeCr0 hw
  | none =>
    cases access with
    | movToCr0 reg => exact absurd hval (by simp [CrAccess.cr0Value])
    | lmsw source => exact absurd hval (by simp [CrAccess.cr0Value])
    | movToCr4 reg =>
      rw [crAccessVmexitHandler, vmxWriteCr4_view]
      cases hw : vcpu.view.writeCr4 p mem reg with
      | none => exact hv.congr (.injectGp vcpu.view)
      | some w => exact hv.writeCr4 hw

theorem CacheEmulated.wrmsr {vcpu : Vcpu} {g : CacheHistory}
    (hv : CacheEmulated p vcpu.view g) (rdtsc : Word) (msr : U32) (val : Word) :
    CacheEmulated p (wrmsrExit p rdtsc vcpu msr val).view
      (g.step p vcpu (.wrmsr rdtsc msr val)) := by
  rw [CacheHistory.step]
  by_cases hpat : msr = msrIa32Pat
  · subst hpat
    have hret : Handles (wrmsrVmexitHandler p rdtsc vcpu msrIa32Pat val) vcpu.view
        (vcpu.view.writePat val) := writePatMsr_handles vcpu val
    rw [wrmsrExit_pat]
    cases hw : vcpu.view.writePat val with
    | none =>
      rw [hw] at hret
      rw [if_neg (fun h => absurd h.2 (ne_of_lt hret.1))]
      exact hv.congr (.injectGp vcpu.view)
    | some w =>
      rw [hw] at hret
      rw [if_pos ⟨rfl, hret.1⟩]
      exact hv.writePat hw
  rw [if_neg (fun h => hpat h.1)]
  by_cases hefer : msr = msrIa32Efer
  · rw [hefer, wrmsrExit_efer]
    cases hw : vcpu.view.writeEfer p val with
    | none => exact hv.congr (.injectGp vcpu.view)
    | some w => exact hv.writeEfer hw
  by_cases hmisc : msr = msrIa32MiscEnable
  · rw [hmisc, wrmsrExit_miscEnable]
    cases hw : vcpu.view.writeMiscEnable val with
    | none => exact hv.congr (.injectGp vcpu.view)
    | some w => exact hv.writeMiscEnable hw
  exact hv.congr (wrmsrExit_other p vcpu hpat hefer hmisc)

theorem CacheEmulated.step {vcpu : Vcpu} {g : CacheHistory} (hv : CacheEmulated p vcpu.view g)
    (a : VcpuStep) : CacheEmulated p (vcpuStep p vcpu a).view (g.step p vcpu a) := by
  cases a with
  | init vcpuId =>
    have hinit := initVmcs_initialised (p := p) (resetVcpu vcpu vcpuId) rfl
    refine .of_initialised hinit (.inl rfl) ?_ rfl rfl
    rw [vcpuStep, hinit.pat, CacheHistory.step, ← hv.pat]
    rfl
  | run guest => exact hv.entered (runVcpu_entered vcpu guest)
  | crAccess mem access => exact hv.crAccess mem access
  | wrmsr rdtsc msr val => exact hv.wrmsr rdtsc msr val
  | rdmsr msr => exact hv.congr (rdmsr_sameControls p vcpu msr)

theorem CacheEmulated.reach (h : Reach (cacheSystem p) any s) :
    CacheEmulated p s.1.view s.2 := by
  induction h with
  | @init s h =>
    obtain ⟨u, hu, hup, -, hcr0⟩ := Booted.initialised h.1
    rw [h.2]
    refine .of_initialised hu hcr0 ?_ rfl rfl
    rw [hu.pat, hup]
    rfl
  | step _ _ hs ih =>
    rw [hs.1, hs.2]
    exact ih.step _

/-- **The caches of a guest are emulated after any run**: once CD has changed, the PAT in
the VMCS is all uncacheable while CD is set and the guest's own while it is clear; the
guest's `IA32_PAT` is what it wrote last; CR0 in the VMCS never has CD or NW, and reads
with the ones last written. -/
theorem cache_disable_emulated (h : Reach (cacheSystem p) any s) :
    (s.2.cdChanged = true → s.1.vmcs.guestPat =
      if (vcpuGetCr0 s.1).1 &&& cr0Cd ≠ 0#64 then patAllUcValue else s.2.pat) ∧
    rdmsrVmexitHandler p s.1 msrIa32Pat = (0, s.2.pat, s.1) ∧
    s.1.vmcs.guestCr0 &&& (cr0Cd ||| cr0Nw) = 0#64 ∧
    (vcpuGetCr0 s.1).1 &&& (cr0Cd ||| cr0Nw) = s.2.cdNw := by
  obtain ⟨v₁, h₁, -⟩ := vcpuGetCr0_spec s.1
  have hv := CacheEmulated.reach h
  have hpat : s.1.guestMsrs .pat = s.2.pat := hv.pat
  refine ⟨fun hchg => ?_, ?_, hv.field, ?_⟩
  · rw [h₁, ← hpat]
    exact hv.guestPat hchg
  · rw [← hpat]
    rfl
  · rw [h₁]
    exact hv.cdNw

end

/-- A guest turns its caches on and writes a PAT of write-back entries. -/
theorem cache_disable_emulated_write_back :
    let boot := initVmcs typicalPlatform (createVcpu 1#32 ⟨0#64, 0#64⟩)
    let vcpu₁ := vcpuStep typicalPlatform boot (.crAccess (fun _ => none) (.movToCr0 0x31#64))
    let vcpu₂ := vcpuStep typicalPlatform vcpu₁ (.wrmsr 0#64 msrIa32Pat 0x0606060606060606#64)
    (rdmsrVmexitHandler typicalPlatform vcpu₂ msrIa32Pat).1 = 0 ∧
      vcpu₂.vmcs.guestCr0 &&& (cr0Cd ||| cr0Nw) = 0#64 := by
  intro boot vcpu₁ vcpu₂
  have hboot : Reach (cacheSystem typicalPlatform) any (boot, CacheHistory.boot) :=
    .init ⟨.real 1#32 ⟨0#64, 0#64⟩, rfl⟩
  have hrun := cacheSystem_step (cacheSystem_step hboot
    (.crAccess (fun _ => none) (.movToCr0 0x31#64))) (.wrmsr 0#64 msrIa32Pat 0x0606060606060606#64)
  obtain ⟨-, hread, hfield, -⟩ := cache_disable_emulated hrun
  exact ⟨congrArg Prod.fst hread, hfield⟩

end Acrn
