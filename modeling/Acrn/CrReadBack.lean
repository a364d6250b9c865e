import Acrn.ControlRegs

/-!
# Reading back CR0 and CR4

An accepted write is read back through the guest/host mask and the shadow, while the
field of the VMCS has the bits that VMX fixes; a rejected one leaves an exception and
nothing else. The bit-level facts are about one bit at a time.
-/

namespace Acrn

open BitField

/-- The fixed bits as processors report them: only defined bits are fixed to 1, and
neither CD nor NW, and NE is fixed. -/
structure Platform.CrFixed (p : Platform) : Prop where
  cr0_subset : p.cr0Fixed0 &&& ~~~p.cr0Fixed1 = 0#64
  cr4_subset : p.cr4Fixed0 &&& ~~~p.cr4Fixed1 = 0#64
  cr0_defined : p.cr0Fixed0 &&& (cr0ReservedMask ||| cr0Cd ||| cr0Nw) = 0#64
  cr4_defined : p.cr4Fixed0 &&& cr4ReservedMask = 0#64
  ne : p.cr0Fixed1 &&& cr0Ne &&& ~~~p.cr0Fixed0 = 0#64

/-- The field of the VMCS for a value of CR0. -/
def cr0Field (p : Platform) (cr0Mask : Word) : Word :=
  ((cr0AlwaysOnMask p ||| cr0Mask) &&& ~~~(cr0Cd ||| cr0Nw)) &&& 0xFFFFFFFF#64

/-- The read shadow for a value of CR0. -/
def cr0Shadow (cr0Mask : Word) : Word := (cr0Mask ||| cr0Ne) &&& 0xFFFFFFFF#64

/-- The field of the VMCS for a value of CR4. -/
def cr4Field (p : Platform) (cr4 : Word) : Word := (cr4AlwaysOnMask p ||| cr4) &&& 0xFFFFFFFF#64

section
variable {p : Platform} {val : Word}

/-- The checks of a CR0 write cover every defined bit. -/
theorem cr0_defined_bits_checked : ~~~cr0ReservedMask &&& ~~~0xffffffffe005003f#64 = 0#64 := by
  decide

/-- Through the mask, a value of CR0 reads as it was written, with NE. -/
theorem cr0_read_back (hp : p.CrFixed) :
    (cr0Shadow (val &&& ~~~cr0ReservedMask) &&& cr0HostOwnedBits p) |||
      (cr0Field p (val &&& ~~~cr0ReservedMask) &&& ~~~cr0HostOwnedBits p) =
    (val &&& ~~~cr0ReservedMask) ||| cr0Ne := by
  have hne : cr0Ne &&& cr0ReservedMask = 0#64 := by decide
  have hlow : ~~~cr0ReservedMask &&& ~~~0xFFFFFFFF#64 = 0#64 := by decide
  have htrap : (cr0Cd ||| cr0Nw) &&& ~~~cr0TrapMask = 0#64 := by decide
  apply BitVec.eq_of_getLsbD_eq
  intro i hi
  have h₁ := getLsbD_of_eq_zero hp.cr0_subset i
  have h₂ := getLsbD_of_eq_zero hp.cr0_defined i
  have h₃ := getLsbD_of_eq_zero hp.ne i
  have h₄ := getLsbD_of_eq_zero hne i
  have h₅ := getLsbD_of_eq_zero hlow i
  have h₆ := getLsbD_of_eq_zero htrap i
  revert h₁ h₂ h₃ h₄ h₅ h₆
  simp only [cr0Shadow, cr0Field, cr0HostOwnedBits, cr0AlwaysOnMask, BitVec.getLsbD_and,
    BitVec.getLsbD_or, BitVec.getLsbD_not, BitVec.getLsbD_xor, hi, decide_true, Bool.true_and]
  generalize p.cr0Fixed0.getLsbD i = f₀
  generalize p.cr0Fixed1.getLsbD i = f₁
  generalize cr0ReservedMask.getLsbD i = r
  generalize cr0TrapMask.getLsbD i = t
  generalize cr0Cd.getLsbD i = cd
  generalize cr0Nw.getLsbD i = nw
  generalize cr0Ne.getLsbD i = ne
  generalize (0xFFFFFFFF#64).getLsbD i = low
  generalize (cr0Pe.getLsbD i || cr0Pg.getLsbD i) = pg
  generalize val.getLsbD i = x
  -- the mask takes the bit from the shadow or from the field
  cases f₀ <;> cases f₁ <;> cases t <;> cases r <;> cases low <;> simp <;> grind

/-- The field has the bits that are fixed to 1, PE and PG apart, which an unrestricted
guest may clear. -/
theorem cr0Field_fixed0 (hp : p.CrFixed) :
    p.cr0Fixed0 &&& ~~~(cr0Pe ||| cr0Pg) &&& ~~~cr0Field p (val &&& ~~~cr0ReservedMask) = 0#64 := by
  have hlow : ~~~cr0ReservedMask &&& ~~~0xFFFFFFFF#64 = 0#64 := by decide
  apply BitVec.eq_of_getLsbD_eq
  intro i hi
  have h₂ := getLsbD_of_eq_zero hp.cr0_defined i
  have h₅ := getLsbD_of_eq_zero hlow i
  revert h₂ h₅
  simp only [cr0Field, cr0AlwaysOnMask, BitVec.getLsbD_and, BitVec.getLsbD_or, BitVec.getLsbD_not,
    BitVec.getLsbD_zero, hi, decide_true, Bool.true_and]
  generalize p.cr0Fixed0.getLsbD i = f₀
  generalize cr0ReservedMask.getLsbD i = r
  generalize (0xFFFFFFFF#64).getLsbD i = low
  cases f₀ <;> cases r <;> cases low <;> simp
  grind

/-- The field has no bit that is fixed to 0. -/
theorem cr0Field_fixed1 (hp : p.CrFixed) (hoff : val &&& cr0AlwaysOffMask p = 0#64) :
    cr0Field p (val &&& ~~~cr0ReservedMask) &&& ~~~p.cr0Fixed1 = 0#64 := by
  apply BitVec.eq_of_getLsbD_eq
  intro i hi
  have h₁ := getLsbD_of_eq_zero hp.cr0_subset i
  have h₂ := getLsbD_of_eq_zero hoff i
  have h₃ := getLsbD_of_eq_zero cr0_defined_bits_checked i
  revert h₁ h₂ h₃
  simp only [cr0Field, cr0AlwaysOnMask, cr0AlwaysOffMask, BitVec.getLsbD_and, BitVec.getLsbD_or,
    BitVec.getLsbD_not, BitVec.getLsbD_zero, hi, decide_true, Bool.true_and]
  generalize p.cr0Fixed0.getLsbD i = f₀
  generalize p.cr0Fixed1.getLsbD i = f₁
  generalize cr0ReservedMask.getLsbD i = r
  generalize (0xffffffffe005003f#64).getLsbD i = checked
  cases f₀ <;> cases f₁ <;> cases r <;> cases checked <;> simp
  grind

/-- Through the mask, an accepted value of CR4 reads as it was written. -/
theorem cr4_read_back (hp : p.CrFixed) (hoff : val &&& cr4AlwaysOffMask p = 0#64) :
    ((val &&& 0xFFFFFFFF#64) &&& cr4HostOwnedBits p) |||
      (cr4Field p val &&& ~~~cr4HostOwnedBits p) = val := by
  have hlow : ~~~cr4ReservedMask &&& ~~~0xFFFFFFFF#64 = 0#64 := by decide
  apply BitVec.eq_of_getLsbD_eq
  intro i hi
  have h₁ := getLsbD_of_eq_zero hp.cr4_subset i
  have h₂ := getLsbD_of_eq_zero hp.cr4_defined i
  have h₃ := getLsbD_of_eq_zero hoff i
  have h₄ := getLsbD_of_eq_zero hlow i
  revert h₁ h₂ h₃ h₄
  simp only [cr4Field, cr4HostOwnedBits, cr4AlwaysOnMask, cr4AlwaysOffMask, BitVec.getLsbD_and,
    BitVec.getLsbD_or, BitVec.getLsbD_not, BitVec.getLsbD_xor, hi, decide_true, Bool.true_and]
  generalize p.cr4Fixed0.getLsbD i = f₀
  generalize p.cr4Fixed1.getLsbD i = f₁
  generalize cr4ReservedMask.getLsbD i = r
  generalize cr4TrapMask.getLsbD i = t
  generalize (0xFFFFFFFF#64).getLsbD i = low
  cases f₀ <;> cases f₁ <;> cases t <;> cases r <;> cases low <;> simp

theorem cr4Field_fixed0 (hp : p.CrFixed) : p.cr4Fixed0 &&& ~~~cr4Field p val = 0#64 := by
  have hlow : ~~~cr4ReservedMask &&& ~~~0xFFFFFFFF#64 = 0#64 := by decide
  apply BitVec.eq_of_getLsbD_eq
  intro i hi
  have h₁ := getLsbD_of_eq_zero hp.cr4_defined i
  have h₂ := getLsbD_of_eq_zero hlow i
  revert h₁ h₂
  simp only [cr4Field, cr4AlwaysOnMask, BitVec.getLsbD_and, BitVec.getLsbD_or, BitVec.getLsbD_not,
    BitVec.getLsbD_zero, hi, decide_true, Bool.true_and]
  generalize p.cr4Fixed0.getLsbD i = f₀
  generalize cr4ReservedMask.getLsbD i = r
  generalize (0xFFFFFFFF#64).getLsbD i = low
  cases f₀ <;> cases r <;> cases low <;> simp

theorem cr4Field_fixed1 (hp : p.CrFixed) (hoff : val &&& cr4AlwaysOffMask p = 0#64) :
    cr4Field p val &&& ~~~p.cr4Fixed1 = 0#64 := by
  apply BitVec.eq_of_getLsbD_eq
  intro i hi
  have h₁ := getLsbD_of_eq_zero hp.cr4_subset i
  have h₂ := getLsbD_of_eq_zero hoff i
  revert h₁ h₂
  simp only [cr4Field, cr4AlwaysOnMask, cr4AlwaysOffMask, BitVec.getLsbD_and, BitVec.getLsbD_or,
    BitVec.getLsbD_not, BitVec.getLsbD_zero, hi, decide_true, Bool.true_and]
  generalize p.cr4Fixed0.getLsbD i = f₀
  generalize p.cr4Fixed1.getLsbD i = f₁
  cases f₀ <;> cases f₁ <;> simp
  grind

end

/-! ## The writes

The facts about single bits are put together to facts about words by extensionality. -/

theorem commitCr0_cr0 {p : Platform} (hp : p.CrFixed) {v : VcpuView} {val : Word}
    (hmask : v.vmcs.cr0GuestHostMask = cr0HostOwnedBits p) :
    (v.commitCr0 p (val &&& ~~~cr0ReservedMask)).cr0 = (val &&& ~~~cr0ReservedMask) ||| cr0Ne := by
  rw [← cr0_read_back hp, ← hmask]
  rfl

theorem commitCr4_cr4 {p : Platform} (hp : p.CrFixed) {v : VcpuView} {val : Word}
    (hmask : v.vmcs.cr4GuestHostMask = cr4HostOwnedBits p)
    (hoff : val &&& cr4AlwaysOffMask p = 0#64) : (v.commitCr4 p val).cr4 = val := by
  conv_rhs => rw [← cr4_read_back hp hoff, ← hmask]
  rfl

/-- **CR0 and CR4 read back as an accepted write left them**, the fields of the VMCS have
the fixed bits, and a rejected write leaves a general protection exception and nothing
else. -/
theorem cr_writes_read_back {p : Platform} (hp : p.CrFixed) (mem : GuestMem) (vcpu₀ : Vcpu)
    (val : Word) :
    let vcpu := initCr0Cr4HostMask p vcpu₀
    let vcpu₁ := vmxWriteCr0 p mem vcpu val false
    let vcpu₂ := vmxWriteCr4 p mem vcpu val false
    (if (vcpu.view.writeCr0 p mem val).isSome then
      (vcpuGetCr0 vcpu₁).1 = (val &&& ~~~cr0ReservedMask) ||| cr0Ne ∧
      p.cr0Fixed0 &&& ~~~(cr0Pe ||| cr0Pg) &&& ~~~vcpu₁.vmcs.guestCr0 = 0#64 ∧
      vcpu₁.vmcs.guestCr0 &&& ~~~p.cr0Fixed1 = 0#64
    else vcpu₁.view = vcpu.view.injectGp) ∧
    if (vcpu.view.writeCr4 p mem val).isSome then
      (vcpuGetCr4 vcpu₂).1 = val ∧
      p.cr4Fixed0 &&& ~~~vcpu₂.vmcs.guestCr4 = 0#64 ∧
      vcpu₂.vmcs.guestCr4 &&& ~~~p.cr4Fixed1 = 0#64
    else vcpu₂.view = vcpu.view.injectGp := by
  intro vcpu vcpu₁ vcpu₂
  have hview₁ : vcpu₁.view = _ := vmxWriteCr0_view p mem vcpu val
  have hview₂ : vcpu₂.view = _ := vmxWriteCr4_view p mem vcpu val
  constructor
  · cases h : vcpu.view.writeCr0 p mem val with
    | none =>
      rw [h] at hview₁
      exact hview₁
    | some w =>
      rw [h] at hview₁
      obtain ⟨hvalid, u, hu, rfl⟩ := writeCr0_eq_some h
      obtain ⟨v₁, h₁, -⟩ := vcpuGetCr0_spec vcpu₁
      have hmask : u.vmcs.cr0GuestHostMask = cr0HostOwnedBits p := by
        obtain ⟨pdpte, rfl, -⟩ | ⟨-, -, rfl⟩ | ⟨-, rfl⟩ := switchPaging_cases hu
        all_goals rfl
      have hfield : vcpu₁.vmcs.guestCr0 = cr0Field p (val &&& ~~~cr0ReservedMask) :=
        congrArg (·.vmcs.guestCr0) hview₁
      refine ⟨?_, ?_, ?_⟩
      · rw [h₁, hview₁]
        exact commitCr0_cr0 hp hmask
      · rw [hfield]
        exact cr0Field_fixed0 hp
      · rw [hfield]
        exact cr0Field_fixed1 hp hvalid.off
  · cases h : vcpu.view.writeCr4 p mem val with
    | none =>
      rw [h] at hview₂
      exact hview₂
    | some w =>
      rw [h] at hview₂
      obtain ⟨hvalid, pdpte, events, rfl⟩ := writeCr4_eq_some h
      obtain ⟨v₂, h₂, -⟩ := vcpuGetCr4_spec vcpu₂
      have hfield : vcpu₂.vmcs.guestCr4 = cr4Field p val := congrArg (·.vmcs.guestCr4) hview₂
      refine ⟨?_, ?_, ?_⟩
      · rw [h₂, hview₂]
        exact commitCr4_cr4 hp rfl hvalid.off
      · rw [hfield]
        exact cr4Field_fixed0 hp
      · rw [hfield]
        exact cr4Field_fixed1 hp hvalid.off

/-- The guest turns protection and caching on. -/
theorem cr_writes_read_back_typical :
    let vcpu := initCr0Cr4HostMask typicalPlatform (Vcpu.cleared ⟨0#64, 0#64⟩)
    (vcpu.view.writeCr0 typicalPlatform (fun _ => none) 0x11#64).isSome ∧
      (vcpuGetCr0 (vmxWriteCr0 typicalPlatform (fun _ => none) vcpu 0x11#64 false)).1 = 0x31#64 := by
  intro vcpu
  have hp : typicalPlatform.CrFixed :=
    ⟨by decide, by decide, by decide, by decide, by decide⟩
  have hacc : (vcpu.view.writeCr0 typicalPlatform (fun _ => none) 0x11#64).isSome := by decide
  have h := (cr_writes_read_back hp (fun _ => none) (Vcpu.cleared ⟨0#64, 0#64⟩) 0x11#64).1
  rw [if_pos hacc] at h
  exact ⟨hacc, h.1⟩

/-- PE and PG are not kept: an unrestricted guest leaves paging while VMX fixes the bits. -/
theorem cr0_write_clears_fixed_bits :
    let vcpu := initCr0Cr4HostMask typicalPlatform (Vcpu.cleared ⟨0#64, 0#64⟩)
    typicalPlatform.cr0Fixed0 &&& ~~~typicalPlatform.cr0Fixed1 = 0#64 ∧
      (vcpu.view.writeCr0 typicalPlatform (fun _ => none) 0x10#64).isSome ∧
      typicalPlatform.cr0Fixed0 &&&
        ~~~(vmxWriteCr0 typicalPlatform (fun _ => none) vcpu 0x10#64 false).vmcs.guestCr0 ≠ 0#64 := by
  decide

end Acrn
