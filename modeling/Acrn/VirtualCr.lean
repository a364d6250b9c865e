import Acrn.Vcpu

/-!
# Control registers

`virtual_cr.c`: the guest writes to CR0 and CR4, with the checks that reject a value
and everything an accepted one changes. Over each function stands what it does to
the view of the vCPU: a write is an operation on views that may fail, and then only
a general protection exception is left behind.
-/

namespace Acrn

/-! ## Masks -/

/-- `CR0_TRAP_MASK`. -/
def cr0TrapMask : Word := cr0Pe ||| cr0Pg ||| cr0Wp ||| cr0Cd ||| cr0Nw

/-- `CR0_RESERVED_MASK`. -/
def cr0ReservedMask : Word :=
  ~~~(cr0Pg ||| cr0Cd ||| cr0Nw ||| cr0Am ||| cr0Wp ||| cr0Ne ||| cr0Et ||| cr0Ts ||| cr0Em |||
    cr0Mp ||| cr0Pe)

/-- `CR4_TRAP_MASK`. -/
def cr4TrapMask : Word :=
  cr4Pse ||| cr4Pae ||| cr4Vmxe ||| cr4Pcide ||| cr4Smep ||| cr4Smap ||| cr4Pke ||| cr4Smxe |||
    cr4De ||| cr4Mce ||| cr4Pce ||| cr4Vme ||| cr4Pvi

/-- `CR4_RESERVED_MASK`. -/
def cr4ReservedMask : Word :=
  ~~~(cr4Vme ||| cr4Pvi ||| cr4Tsd ||| cr4De ||| cr4Pse ||| cr4Pae ||| cr4Mce ||| cr4Pge |||
    cr4Pce ||| cr4Osfxsr ||| cr4Pcide ||| cr4Osxsave ||| cr4Smep ||| cr4Fsgsbase ||| cr4Vmxe |||
    cr4Osxmmexcpt ||| cr4Smap ||| cr4Pke ||| cr4Smxe ||| cr4Umip)

/-- `PAE_PDPTE_FIXED_RESVD_BITS`. -/
def paePdpteFixedResvdBits : Word := 0x1E6#64

/-- `cr0_always_on_mask`. -/
def cr0AlwaysOnMask (p : Platform) : Word := p.cr0Fixed0 &&& ~~~(cr0Pe ||| cr0Pg)

/-- `cr0_always_off_mask`. -/
def cr0AlwaysOffMask (p : Platform) : Word :=
  (~~~p.cr0Fixed1 ||| cr0ReservedMask) &&& 0xffffffffe005003f#64

/-- `cr4_always_on_mask`. -/
def cr4AlwaysOnMask (p : Platform) : Word := p.cr4Fixed0

/-- `cr4_always_off_mask`. -/
def cr4AlwaysOffMask (p : Platform) : Word := ~~~p.cr4Fixed1 ||| cr4ReservedMask

/-- `cr0_host_owned_bits`. -/
def cr0HostOwnedBits (p : Platform) : Word :=
  (~~~(p.cr0Fixed0 ^^^ p.cr0Fixed1) ||| cr0TrapMask) &&& ~~~cr0ReservedMask

/-- `cr4_host_owned_bits`. -/
def cr4HostOwnedBits (p : Platform) : Word :=
  (~~~(p.cr4Fixed0 ^^^ p.cr4Fixed1) ||| cr4TrapMask) &&& ~~~cr4ReservedMask

/-- `init_cr0_cr4_host_mask`. -/
def initCr0Cr4HostMask (p : Platform) (vcpu : Vcpu) : Vcpu :=
  { vcpu with
    vmcs.cr0GuestHostMask := cr0HostOwnedBits p
    vmcs.cr4GuestHostMask := cr4HostOwnedBits p }

/-! ## `load_pdptrs` -/

/-- The PDPTEs that `load_pdptrs` reads, if all of them are valid. -/
def readPdptrs (p : Platform) (mem : GuestMem) (guestCr3 : Word) : Option (Fin 4 → Word) :=
  let rsvdBitsMask := (((1#64 <<< (63 - p.maxphyaddr + 1)) - 1#64) <<< p.maxphyaddr) |||
    paePdpteFixedResvdBits
  match mem (guestCr3 &&& 0xFFFFFFE0#64) with
  | none => none
  | some pdpte =>
    if ∃ i, pdpte i &&& pagePresent ≠ 0#64 ∧ pdpte i &&& rsvdBitsMask ≠ 0#64 then none
    else some pdpte

/-- `load_pdptrs`: whether it returns 0. -/
def loadPdptrs (p : Platform) (mem : GuestMem) (vcpu : Vcpu) : Bool × Vcpu :=
  match readPdptrs p mem vcpu.vmcs.guestCr3 with
  | none => (false, vcpu)
  | some pdpte => (true, { vcpu with vmcs.guestPdpte := pdpte })

/-- `load_pdptrs` on the view. -/
def VcpuView.loadPdptrs (p : Platform) (mem : GuestMem) (v : VcpuView) : Option VcpuView :=
  (readPdptrs p mem v.vmcs.guestCr3).map fun pdpte => { v with vmcs.guestPdpte := pdpte }

theorem loadPdptrs_spec (p : Platform) (mem : GuestMem) (vcpu : Vcpu) :
    match vcpu.view.loadPdptrs p mem with
    | none => loadPdptrs p mem vcpu = (false, vcpu)
    | some v => ∃ vcpu', loadPdptrs p mem vcpu = (true, vcpu') ∧ vcpu'.view = v := by
  rw [VcpuView.loadPdptrs, loadPdptrs, show vcpu.view.vmcs.guestCr3 = vcpu.vmcs.guestCr3 from rfl]
  cases readPdptrs p mem vcpu.vmcs.guestCr3 with
  | none => rfl
  | some pdpte => exact ⟨_, rfl, rfl⟩

/-! ## CR0

The functions on the vCPU come first and what they do to the view after them. The checks of a write
are gathered in `Cr0Valid`. -/

/-- `is_cr0_write_valid`. -/
def isCr0WriteValid (p : Platform) (vcpu : Vcpu) (cr0 : Word) : Bool × Vcpu :=
  if cr0 &&& cr0AlwaysOffMask p ≠ 0#64 then (false, vcpu)
  else
    let (oldCr0, vcpu) := vcpuGetCr0 vcpu
    if oldCr0 &&& cr0Pe ≠ 0#64 ∧ cr0 &&& cr0Pe = 0#64 then (false, vcpu)
    else
      let (noPae, vcpu) :=
        if cr0 &&& cr0Pg ≠ 0#64 then
          let (pae, vcpu) := isPae vcpu
          if !pae then
            let (efer, vcpu) := vcpuGetEfer vcpu
            (decide (efer &&& eferLme ≠ 0#64), vcpu)
          else (false, vcpu)
        else (false, vcpu)
      if noPae then (false, vcpu)
      else if cr0 &&& cr0Pe = 0#64 ∧ cr0 &&& cr0Pg ≠ 0#64 then (false, vcpu)
      else if cr0 &&& cr0Cd = 0#64 ∧ cr0 &&& cr0Nw ≠ 0#64 then (false, vcpu)
      else (true, vcpu)

/-- A write to `VMX_ENTRY_CONTROLS`. -/
def setEntryControls (vcpu : Vcpu) (entryCtrls : U32) : Vcpu :=
  { vcpu with vmcs.entryControls := entryCtrls }

theorem setEntryControls_view (vcpu : Vcpu) (entryCtrls : U32) :
    (setEntryControls vcpu entryCtrls).view =
      { vcpu.view with vmcs.entryControls := entryCtrls } := rfl

/-- The part of `vmx_write_cr0` that turns paging on or off: whether an error was
found, in which case a general protection exception was queued. -/
def switchPaging (p : Platform) (mem : GuestMem) (vcpu : Vcpu) (oldPagingEnabled : Bool)
    (cr0Mask : Word) : Bool × Vcpu :=
  if oldPagingEnabled = false ∧ cr0Mask &&& cr0Pg ≠ 0#64 then
    let (efer, vcpu) := vcpuGetEfer vcpu
    if efer &&& eferLme ≠ 0#64 then
      if vcpu.vmcs.csAttr &&& 0x2000#32 ≠ 0#32 ∨ vcpu.vmcs.trAttr &&& 0xf#32 = 3#32 then
        (true, injectGp vcpu)
      else
        let vcpu := setEntryControls vcpu (vcpu.vmcs.entryControls ||| vmxEntryCtlsIa32eMode)
        let (efer, vcpu) := vcpuGetEfer vcpu
        (false, vcpuSetEfer vcpu (efer ||| eferLma))
    else
      let (pae, vcpu) := isPae vcpu
      if pae then
        let (loaded, vcpu) := loadPdptrs p mem vcpu
        if loaded then (false, vcpu) else (true, injectGp vcpu)
      else (false, vcpu)
  else if oldPagingEnabled = true ∧ cr0Mask &&& cr0Pg = 0#64 then
    let (efer, vcpu) := vcpuGetEfer vcpu
    if efer &&& eferLme ≠ 0#64 then
      if vcpu.cpuMode = .compatibility then
        let vcpu := setEntryControls vcpu (vcpu.vmcs.entryControls &&& ~~~vmxEntryCtlsIa32eMode)
        let (efer, vcpu) := vcpuGetEfer vcpu
        (false, vcpuSetEfer vcpu (efer &&& ~~~eferLma))
      else (true, injectGp vcpu)
    else (false, vcpu)
  else (false, vcpu)

/-- The effects of the changed bits of CR0 on the memory types and the EPT. -/
def applyCr0Changes (vcpu : Vcpu) (cr0ChangedBits cr0Mask : Word) : Vcpu :=
  let vcpu :=
    if cr0ChangedBits &&& cr0Cd ≠ 0#64 then
      if cr0Mask &&& cr0Cd ≠ 0#64 then { vcpu with vmcs.guestPat := patAllUcValue }
      else { vcpu with vmcs.guestPat := vcpu.guestMsrs .pat }
    else vcpu
  if cr0ChangedBits &&& (cr0Pg ||| cr0Wp ||| cr0Cd) ≠ 0#64 then vcpuMakeRequest vcpu .eptFlush
  else vcpu

/-- The VMCS fields for a value of CR0. -/
def commitCr0 (p : Platform) (vcpu : Vcpu) (cr0Mask : Word) : Vcpu :=
  let cr0Vmx := (cr0AlwaysOnMask p ||| cr0Mask) &&& ~~~(cr0Cd ||| cr0Nw)
  let cr0Mask := cr0Mask ||| cr0Ne
  { vcpu with
    vmcs.guestCr0 := cr0Vmx &&& 0xFFFFFFFF#64
    vmcs.cr0ReadShadow := cr0Mask &&& 0xFFFFFFFF#64
    cr0Cached := false }

/-- `vmx_write_cr0`. -/
def vmxWriteCr0 (p : Platform) (mem : GuestMem) (vcpu : Vcpu) (cr0 : Word) (isInit : Bool) : Vcpu :=
  let cr0Mask := cr0 &&& ~~~cr0ReservedMask
  let (errFound, vcpu) :=
    if isInit = false then
      let (valid, vcpu) := isCr0WriteValid p vcpu cr0
      if !valid then (true, injectGp vcpu)
      else
        let (oldPagingEnabled, vcpu) := isPagingEnabled vcpu
        let (oldCr0, vcpu) := vcpuGetCr0 vcpu
        let cr0ChangedBits := oldCr0 ^^^ cr0
        let (errFound, vcpu) := switchPaging p mem vcpu oldPagingEnabled cr0Mask
        if errFound then (true, vcpu)
        else (false, applyCr0Changes vcpu cr0ChangedBits cr0Mask)
    else (false, vcpu)
  if errFound then vcpu else commitCr0 p vcpu cr0Mask

namespace VcpuView

variable (p : Platform) (mem : GuestMem) (v : VcpuView)

/-- The checks of `is_cr0_write_valid`. -/
structure Cr0Valid (cr0 : Word) : Prop where
  off : cr0 &&& cr0AlwaysOffMask p = 0#64
  pe : v.cr0 &&& cr0Pe = 0#64 ∨ cr0 &&& cr0Pe ≠ 0#64
  pae : cr0 &&& cr0Pg = 0#64 ∨ v.cr4 &&& cr4Pae ≠ 0#64 ∨ v.efer &&& eferLme = 0#64
  pg : cr0 &&& cr0Pe ≠ 0#64 ∨ cr0 &&& cr0Pg = 0#64
  cd : cr0 &&& cr0Cd ≠ 0#64 ∨ cr0 &&& cr0Nw = 0#64

theorem cr0Valid_iff (cr0 : Word) : v.Cr0Valid p cr0 ↔ cr0 &&& cr0AlwaysOffMask p = 0#64 ∧
    (v.cr0 &&& cr0Pe = 0#64 ∨ cr0 &&& cr0Pe ≠ 0#64) ∧
    (cr0 &&& cr0Pg = 0#64 ∨ v.cr4 &&& cr4Pae ≠ 0#64 ∨ v.efer &&& eferLme = 0#64) ∧
    (cr0 &&& cr0Pe ≠ 0#64 ∨ cr0 &&& cr0Pg = 0#64) ∧
    (cr0 &&& cr0Cd ≠ 0#64 ∨ cr0 &&& cr0Nw = 0#64) :=
  ⟨fun h => ⟨h.off, h.pe, h.pae, h.pg, h.cd⟩, fun h => ⟨h.1, h.2.1, h.2.2.1, h.2.2.2.1, h.2.2.2.2⟩⟩

instance (cr0 : Word) : Decidable (v.Cr0Valid p cr0) :=
  decidable_of_iff' _ (v.cr0Valid_iff p cr0)

/-- Turning paging on or off. -/
def switchPaging (cr0Mask : Word) : Option VcpuView :=
  if v.cr0 &&& cr0Pg = 0#64 ∧ cr0Mask &&& cr0Pg ≠ 0#64 then
    if v.efer &&& eferLme ≠ 0#64 then
      if v.vmcs.csAttr &&& 0x2000#32 ≠ 0#32 ∨ v.vmcs.trAttr &&& 0xf#32 = 3#32 then none
      else
        let entryCtrls := v.vmcs.entryControls ||| vmxEntryCtlsIa32eMode
        some ({ v with vmcs.entryControls := entryCtrls }.setEfer (v.efer ||| eferLma))
    else if v.cr4 &&& cr4Pae ≠ 0#64 then v.loadPdptrs p mem
    else some v
  else if v.cr0 &&& cr0Pg ≠ 0#64 ∧ cr0Mask &&& cr0Pg = 0#64 then
    if v.efer &&& eferLme ≠ 0#64 then
      if v.cpuMode = .compatibility then
        let entryCtrls := v.vmcs.entryControls &&& ~~~vmxEntryCtlsIa32eMode
        some ({ v with vmcs.entryControls := entryCtrls }.setEfer (v.efer &&& ~~~eferLma))
      else none
    else some v
  else some v

/-- The effects of the changed bits of CR0. -/
def applyCr0Changes (cr0ChangedBits cr0Mask : Word) : VcpuView :=
  { v with
    vmcs.guestPat :=
      if cr0ChangedBits &&& cr0Cd ≠ 0#64 then
        if cr0Mask &&& cr0Cd ≠ 0#64 then patAllUcValue else v.guestMsrs .pat
      else v.vmcs.guestPat
    events :=
      if cr0ChangedBits &&& (cr0Pg ||| cr0Wp ||| cr0Cd) ≠ 0#64 then v.events.makeRequest .eptFlush
      else v.events }

/-- The VMCS fields for a value of CR0, and what it reads as then. -/
def commitCr0 (cr0Mask : Word) : VcpuView :=
  let vmcs := { v.vmcs with
    guestCr0 := ((cr0AlwaysOnMask p ||| cr0Mask) &&& ~~~(cr0Cd ||| cr0Nw)) &&& 0xFFFFFFFF#64
    cr0ReadShadow := (cr0Mask ||| cr0Ne) &&& 0xFFFFFFFF#64 }
  { v with vmcs, cr0 := vmcs.virtualCr0 }

/-- A guest write to CR0. -/
def writeCr0 (cr0 : Word) : Option VcpuView :=
  if v.Cr0Valid p cr0 then
    (v.switchPaging p mem (cr0 &&& ~~~cr0ReservedMask)).map fun w =>
      (w.applyCr0Changes (v.cr0 ^^^ cr0) (cr0 &&& ~~~cr0ReservedMask)).commitCr0 p
        (cr0 &&& ~~~cr0ReservedMask)
  else none

end VcpuView

theorem isCr0WriteValid_spec (p : Platform) (vcpu : Vcpu) (cr0 : Word) :
    ∃ vcpu', isCr0WriteValid p vcpu cr0 = (decide (vcpu.view.Cr0Valid p cr0), vcpu') ∧
      vcpu'.view = vcpu.view := by
  obtain ⟨v₁, h₁, hv₁⟩ := vcpuGetCr0_spec vcpu
  obtain ⟨v₂, h₂, hv₂⟩ := isPae_spec v₁
  obtain ⟨v₃, h₃, hv₃⟩ := vcpuGetEfer_spec v₂
  rw [hv₁] at h₂ hv₂
  rw [hv₂] at h₃ hv₃
  refine ⟨(isCr0WriteValid p vcpu cr0).2, Prod.ext ?_ rfl, ?_⟩
  · simp only [isCr0WriteValid, h₁, h₂, h₃, VcpuView.cr0Valid_iff]
    -- the tests of the code, in their order, are the negated conditions
    grind
  · simp only [isCr0WriteValid, h₁, h₂, h₃]
    grind

section
variable (p : Platform) (mem : GuestMem) (vcpu : Vcpu) (cr0Mask : Word)

/-- Turning paging on. -/
theorem enablePaging_spec (hold : vcpu.view.cr0 &&& cr0Pg = 0#64)
    (hnew : cr0Mask &&& cr0Pg ≠ 0#64) :
    ∃ vcpu', switchPaging p mem vcpu false cr0Mask =
        ((vcpu.view.switchPaging p mem cr0Mask).isNone, vcpu') ∧
      vcpu'.view = (vcpu.view.switchPaging p mem cr0Mask).getD vcpu.view.injectGp := by
  obtain ⟨v₁, h₁, hv₁⟩ := vcpuGetEfer_spec vcpu
  have hvmcs : v₁.vmcs = vcpu.view.vmcs := congrArg VcpuView.vmcs hv₁
  rw [switchPaging, if_pos ⟨rfl, hnew⟩, h₁, VcpuView.switchPaging, if_pos ⟨hold, hnew⟩]
  dsimp only
  by_cases hlme : vcpu.view.efer &&& eferLme = 0#64
  · -- no long mode: the PDPTEs are loaded if PAE is on
    rw [if_neg (not_not.mpr hlme), if_neg (not_not.mpr hlme)]
    obtain ⟨v₂, h₂, hv₂⟩ := isPae_spec v₁
    rw [hv₁] at h₂ hv₂
    rw [h₂]
    by_cases hpae : vcpu.view.cr4 &&& cr4Pae = 0#64
    · exact ⟨v₂, by simp [hpae], by simpa [hpae] using hv₂⟩
    · have hload := loadPdptrs_spec p mem v₂
      rw [hv₂] at hload
      simp only [hpae, ne_eq, not_false_eq_true, decide_true, if_true]
      cases hpd : vcpu.view.loadPdptrs p mem with
      | none =>
        rw [hpd] at hload
        exact ⟨_, by rw [hload]; rfl, by rw [injectGp_view, hv₂]; rfl⟩
      | some w =>
        rw [hpd] at hload
        obtain ⟨v₃, h₃, hv₃⟩ := hload
        exact ⟨v₃, by rw [h₃]; rfl, hv₃⟩
  · rw [if_pos hlme, if_pos hlme, hvmcs]
    split
    · exact ⟨_, rfl, by rw [injectGp_view, hv₁]; rfl⟩
    · obtain ⟨v₂, h₂, hv₂⟩ := vcpuGetEfer_spec
        (setEntryControls v₁ (vcpu.view.vmcs.entryControls ||| vmxEntryCtlsIa32eMode))
      rw [setEntryControls_view, hv₁] at h₂ hv₂
      exact ⟨_, by rw [h₂]; rfl, by rw [vcpuSetEfer_view, hv₂]; rfl⟩

/-- Turning paging off. -/
theorem disablePaging_spec (hold : vcpu.view.cr0 &&& cr0Pg ≠ 0#64)
    (hnew : cr0Mask &&& cr0Pg = 0#64) :
    ∃ vcpu', switchPaging p mem vcpu true cr0Mask =
        ((vcpu.view.switchPaging p mem cr0Mask).isNone, vcpu') ∧
      vcpu'.view = (vcpu.view.switchPaging p mem cr0Mask).getD vcpu.view.injectGp := by
  obtain ⟨v₁, h₁, hv₁⟩ := vcpuGetEfer_spec vcpu
  have hvmcs : v₁.vmcs = vcpu.view.vmcs := congrArg VcpuView.vmcs hv₁
  have hmode : v₁.cpuMode = vcpu.view.cpuMode := congrArg VcpuView.cpuMode hv₁
  rw [switchPaging, if_neg (by simp), if_pos ⟨rfl, hnew⟩, h₁, VcpuView.switchPaging,
    if_neg (fun h => hold h.1), if_pos ⟨hold, hnew⟩]
  dsimp only
  by_cases hlme : vcpu.view.efer &&& eferLme = 0#64
  · rw [if_neg (not_not.mpr hlme), if_neg (not_not.mpr hlme)]
    exact ⟨v₁, rfl, hv₁⟩
  · rw [if_pos hlme, if_pos hlme, hmode, hvmcs]
    split
    · obtain ⟨v₂, h₂, hv₂⟩ := vcpuGetEfer_spec
        (setEntryControls v₁ (vcpu.view.vmcs.entryControls &&& ~~~vmxEntryCtlsIa32eMode))
      rw [setEntryControls_view, hv₁] at h₂ hv₂
      exact ⟨_, by rw [h₂]; rfl, by rw [vcpuSetEfer_view, hv₂]; rfl⟩
    · exact ⟨_, rfl, by rw [injectGp_view, hv₁]; rfl⟩

theorem switchPaging_spec :
    ∃ vcpu', switchPaging p mem vcpu (decide (vcpu.view.cr0 &&& cr0Pg ≠ 0#64)) cr0Mask =
        ((vcpu.view.switchPaging p mem cr0Mask).isNone, vcpu') ∧
      vcpu'.view = (vcpu.view.switchPaging p mem cr0Mask).getD vcpu.view.injectGp := by
  by_cases hold : vcpu.view.cr0 &&& cr0Pg = 0#64 <;> by_cases hnew : cr0Mask &&& cr0Pg = 0#64
  · exact ⟨vcpu, by simp [switchPaging, VcpuView.switchPaging, hold, hnew],
      by simp [VcpuView.switchPaging, hold, hnew]⟩
  · rw [decide_eq_false (not_not.mpr hold)]
    exact enablePaging_spec p mem vcpu cr0Mask hold hnew
  · rw [decide_eq_true hold]
    exact disablePaging_spec p mem vcpu cr0Mask hold hnew
  · exact ⟨vcpu, by simp [switchPaging, VcpuView.switchPaging, hold, hnew],
      by simp [VcpuView.switchPaging, hold, hnew]⟩

end

theorem applyCr0Changes_view (vcpu : Vcpu) (cr0ChangedBits cr0Mask : Word) :
    (applyCr0Changes vcpu cr0ChangedBits cr0Mask).view =
      vcpu.view.applyCr0Changes cr0ChangedBits cr0Mask := by
  rw [applyCr0Changes, VcpuView.applyCr0Changes]
  split <;> split <;> try split
  all_goals rfl

theorem commitCr0_view (p : Platform) (vcpu : Vcpu) (cr0Mask : Word) :
    (commitCr0 p vcpu cr0Mask).view = vcpu.view.commitCr0 p cr0Mask := rfl

/-- A guest write to CR0 does what it does to the view, or leaves an exception. -/
theorem vmxWriteCr0_view (p : Platform) (mem : GuestMem) (vcpu : Vcpu) (cr0 : Word) :
    (vmxWriteCr0 p mem vcpu cr0 false).view =
      (vcpu.view.writeCr0 p mem cr0).getD vcpu.view.injectGp := by
  obtain ⟨v₁, h₁, hv₁⟩ := isCr0WriteValid_spec p vcpu cr0
  obtain ⟨v₂, h₂, hv₂⟩ := isPagingEnabled_spec v₁
  obtain ⟨v₃, h₃, hv₃⟩ := vcpuGetCr0_spec v₂
  rw [hv₁] at h₂ hv₂
  rw [hv₂] at h₃ hv₃
  obtain ⟨v₄, h₄, hv₄⟩ := switchPaging_spec p mem v₃ (cr0 &&& ~~~cr0ReservedMask)
  rw [hv₃] at h₄ hv₄
  simp only [vmxWriteCr0, if_true, h₁, VcpuView.writeCr0]
  by_cases hvalid : vcpu.view.Cr0Valid p cr0
  · simp only [hvalid, decide_true, Bool.not_true, Bool.false_eq_true, if_false, if_true, h₂, h₃, h₄]
    cases hsw : vcpu.view.switchPaging p mem (cr0 &&& ~~~cr0ReservedMask) with
    | none =>
      rw [hsw] at hv₄
      exact hv₄
    | some w =>
      rw [hsw] at hv₄
      simp only [Option.isNone_some, Bool.false_eq_true, if_false, commitCr0_view,
        applyCr0Changes_view, hv₄, Option.getD_some, Option.map_some]
  · simp [hvalid, injectGp_view, hv₁]

/-! ## CR4

This is built like CR0, with the reload of the PDPTEs in the place of the switch of paging. -/

/-- The bits of CR4 that a guest must leave clear: those it does not see in CPUID. -/
def cr4Invisible (p : Platform) (cr4 : Word) : Bool :=
  decide (cr4 &&& cr4Vmxe ≠ 0#64) || decide (cr4 &&& cr4Smxe ≠ 0#64) ||
    decide (cr4 &&& cr4Pke ≠ 0#64) || decide (cr4 &&& cr4Pce ≠ 0#64) ||
    decide (cr4 &&& cr4De ≠ 0#64) || decide (cr4 &&& cr4Vme ≠ 0#64) ||
    decide (cr4 &&& cr4Pvi ≠ 0#64) || (!p.isSafetyVm && decide (cr4 &&& cr4Mce ≠ 0#64))

/-- `is_cr4_write_valid`. -/
def isCr4WriteValid (p : Platform) (vcpu : Vcpu) (cr4 : Word) : Bool × Vcpu :=
  if cr4 &&& cr4AlwaysOffMask p ≠ 0#64 then (false, vcpu)
  else if cr4Invisible p cr4 then (false, vcpu)
  else if cr4 &&& cr4Pcide ≠ 0#64 then (false, vcpu)
  else
    let (longMode, vcpu) := isLongMode vcpu
    if longMode then (decide (cr4 &&& cr4Pae ≠ 0#64), vcpu) else (true, vcpu)

/-- The bits of CR4 whose change flushes the TLB and reloads the PDPTEs. -/
def cr4FlushBits : Word := cr4Pge ||| cr4Pse ||| cr4Pae ||| cr4Smep ||| cr4Smap

/-- The part of `vmx_write_cr4` that reloads the PDPTEs: whether an error was found. -/
def reloadPdptrs (p : Platform) (mem : GuestMem) (vcpu : Vcpu) (cr4 : Word) : Bool × Vcpu :=
  if cr4 &&& cr4Pae ≠ 0#64 then
    let (paging, vcpu) := isPagingEnabled vcpu
    if paging then
      let (longMode, vcpu) := isLongMode vcpu
      if !longMode then
        let (loaded, vcpu) := loadPdptrs p mem vcpu
        if loaded then (false, vcpu) else (true, injectGp vcpu)
      else (false, vcpu)
    else (false, vcpu)
  else (false, vcpu)

/-- The VMCS fields for a value of CR4. -/
def commitCr4 (p : Platform) (vcpu : Vcpu) (cr4 : Word) : Vcpu :=
  { vcpu with
    vmcs.guestCr4 := (cr4AlwaysOnMask p ||| cr4) &&& 0xFFFFFFFF#64
    vmcs.cr4ReadShadow := cr4 &&& 0xFFFFFFFF#64
    cr4Cached := false }

/-- `vmx_write_cr4`. -/
def vmxWriteCr4 (p : Platform) (mem : GuestMem) (vcpu : Vcpu) (cr4 : Word) (isInit : Bool) : Vcpu :=
  let (errFound, vcpu) :=
    if isInit = false then
      let (valid, vcpu) := isCr4WriteValid p vcpu cr4
      if !valid then (true, injectGp vcpu)
      else
        let (oldCr4, vcpu) := vcpuGetCr4 vcpu
        if (cr4 ^^^ oldCr4) &&& cr4FlushBits ≠ 0#64 then
          let (errFound, vcpu) := reloadPdptrs p mem vcpu cr4
          if errFound then (true, vcpu) else (false, vcpuMakeRequest vcpu .eptFlush)
        else (false, vcpu)
    else (false, vcpu)
  if errFound then vcpu else commitCr4 p vcpu cr4

namespace VcpuView

variable (p : Platform) (mem : GuestMem) (v : VcpuView)

/-- The checks of `is_cr4_write_valid`. -/
structure Cr4Valid (cr4 : Word) : Prop where
  off : cr4 &&& cr4AlwaysOffMask p = 0#64
  invisible : cr4Invisible p cr4 = false
  pcide : cr4 &&& cr4Pcide = 0#64
  pae : v.efer &&& eferLma = 0#64 ∨ cr4 &&& cr4Pae ≠ 0#64

theorem cr4Valid_iff (cr4 : Word) : v.Cr4Valid p cr4 ↔ cr4 &&& cr4AlwaysOffMask p = 0#64 ∧
    cr4Invisible p cr4 = false ∧ cr4 &&& cr4Pcide = 0#64 ∧
    (v.efer &&& eferLma = 0#64 ∨ cr4 &&& cr4Pae ≠ 0#64) :=
  ⟨fun h => ⟨h.off, h.invisible, h.pcide, h.pae⟩, fun h => ⟨h.1, h.2.1, h.2.2.1, h.2.2.2⟩⟩

instance (cr4 : Word) : Decidable (v.Cr4Valid p cr4) :=
  decidable_of_iff' _ (v.cr4Valid_iff p cr4)

/-- Reloading the PDPTEs under PAE paging. -/
def reloadPdptrs (cr4 : Word) : Option VcpuView :=
  if cr4 &&& cr4Pae ≠ 0#64 ∧ v.cr0 &&& cr0Pg ≠ 0#64 ∧ v.efer &&& eferLma = 0#64 then
    v.loadPdptrs p mem
  else some v

/-- The VMCS fields for a value of CR4, and what it reads as then. -/
def commitCr4 (cr4 : Word) : VcpuView :=
  let vmcs := { v.vmcs with
    guestCr4 := (cr4AlwaysOnMask p ||| cr4) &&& 0xFFFFFFFF#64
    cr4ReadShadow := cr4 &&& 0xFFFFFFFF#64 }
  { v with vmcs, cr4 := vmcs.virtualCr4 }

/-- A guest write to CR4. -/
def writeCr4 (cr4 : Word) : Option VcpuView :=
  if v.Cr4Valid p cr4 then
    if (cr4 ^^^ v.cr4) &&& cr4FlushBits ≠ 0#64 then
      (v.reloadPdptrs p mem cr4).map fun w =>
        { w with events := w.events.makeRequest .eptFlush }.commitCr4 p cr4
    else some (v.commitCr4 p cr4)
  else none

end VcpuView

theorem isCr4WriteValid_spec (p : Platform) (vcpu : Vcpu) (cr4 : Word) :
    ∃ vcpu', isCr4WriteValid p vcpu cr4 = (decide (vcpu.view.Cr4Valid p cr4), vcpu') ∧
      vcpu'.view = vcpu.view := by
  obtain ⟨v₁, h₁, hv₁⟩ := isLongMode_spec vcpu
  refine ⟨(isCr4WriteValid p vcpu cr4).2, Prod.ext ?_ rfl, ?_⟩
  · simp only [isCr4WriteValid, h₁, VcpuView.cr4Valid_iff]
    by_cases hoff : cr4 &&& cr4AlwaysOffMask p = 0#64 <;>
      cases hinv : cr4Invisible p cr4 <;> by_cases hpcide : cr4 &&& cr4Pcide = 0#64 <;>
      by_cases hlma : vcpu.view.efer &&& eferLma = 0#64 <;> simp [hoff, hpcide, hlma]
  · simp only [isCr4WriteValid, h₁]
    grind

theorem reloadPdptrs_spec (p : Platform) (mem : GuestMem) (vcpu : Vcpu) (cr4 : Word) :
    ∃ vcpu', reloadPdptrs p mem vcpu cr4 =
        ((vcpu.view.reloadPdptrs p mem cr4).isNone, vcpu') ∧
      vcpu'.view = (vcpu.view.reloadPdptrs p mem cr4).getD vcpu.view.injectGp := by
  obtain ⟨v₁, h₁, hv₁⟩ := isPagingEnabled_spec vcpu
  obtain ⟨v₂, h₂, hv₂⟩ := isLongMode_spec v₁
  rw [hv₁] at h₂ hv₂
  have hload := loadPdptrs_spec p mem v₂
  rw [hv₂] at hload
  simp only [reloadPdptrs, h₁, h₂, VcpuView.reloadPdptrs]
  by_cases hpae : cr4 &&& cr4Pae = 0#64
  · exact ⟨vcpu, by simp [hpae], by simp [hpae]⟩
  by_cases hpg : vcpu.view.cr0 &&& cr0Pg = 0#64
  · exact ⟨v₁, by simp [hpae, hpg], by simp [hpg, hv₁]⟩
  by_cases hlma : vcpu.view.efer &&& eferLma = 0#64
  · simp only [hpae, hpg, hlma, ne_eq, not_false_eq_true, not_true, decide_true, decide_false,
      Bool.not_false, and_self, if_true]
    cases hpd : vcpu.view.loadPdptrs p mem with
    | none =>
      rw [hpd] at hload
      exact ⟨_, by rw [hload]; rfl, by rw [injectGp_view, hv₂]; rfl⟩
    | some w =>
      rw [hpd] at hload
      obtain ⟨v₃, h₃, hv₃⟩ := hload
      exact ⟨v₃, by rw [h₃]; rfl, hv₃⟩
  · exact ⟨v₂, by simp [hpae, hpg, hlma], by simp [hlma, hv₂]⟩

theorem commitCr4_view (p : Platform) (vcpu : Vcpu) (cr4 : Word) :
    (commitCr4 p vcpu cr4).view = vcpu.view.commitCr4 p cr4 := rfl

/-- A guest write to CR4 does what it does to the view, or leaves an exception. -/
theorem vmxWriteCr4_view (p : Platform) (mem : GuestMem) (vcpu : Vcpu) (cr4 : Word) :
    (vmxWriteCr4 p mem vcpu cr4 false).view =
      (vcpu.view.writeCr4 p mem cr4).getD vcpu.view.injectGp := by
  obtain ⟨v₁, h₁, hv₁⟩ := isCr4WriteValid_spec p vcpu cr4
  obtain ⟨v₂, h₂, hv₂⟩ := vcpuGetCr4_spec v₁
  rw [hv₁] at h₂ hv₂
  obtain ⟨v₃, h₃, hv₃⟩ := reloadPdptrs_spec p mem v₂ cr4
  rw [hv₂] at h₃ hv₃
  simp only [vmxWriteCr4, if_true, h₁, VcpuView.writeCr4]
  by_cases hvalid : vcpu.view.Cr4Valid p cr4
  · simp only [hvalid, decide_true, Bool.not_true, Bool.false_eq_true, if_false, if_true, h₂, h₃]
    by_cases hflush : (cr4 ^^^ vcpu.view.cr4) &&& cr4FlushBits = 0#64
    · simp [hflush, commitCr4_view, hv₂]
    · simp only [hflush, ne_eq, not_false_eq_true, if_true]
      cases hre : vcpu.view.reloadPdptrs p mem cr4 with
      | none =>
        rw [hre] at hv₃
        exact hv₃
      | some w =>
        rw [hre] at hv₃
        simp only [Option.isNone_some, Bool.false_eq_true, if_false, commitCr4_view,
          vcpuMakeRequest_view, hv₃, Option.getD_some, Option.map_some]
  · simp [hvalid, injectGp_view, hv₁]

end Acrn
