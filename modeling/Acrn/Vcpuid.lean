import Acrn.Vmsr
import Acrn.Lib.SortedTable

/-!
# The virtual CPUID

`vcpuid.c`: what CPUID reports to a guest is put into a table when the VM is created, from what
the pCPU reports, apart from some leaves that differ between vCPUs. A guest that executes CPUID
is answered from the table.
-/

namespace Acrn

open SortedTable

/-! ## Constants -/

/-- `CPUID_CHECK_SUBLEAF`. -/
def cpuidCheckSubleaf : U32 := 0x1#32
/-- `CPUID_MAX_EXTENDED_FUNCTION`. -/
def cpuidMaxExtendedFunction : U32 := 0x80000000#32
/-- `CPUID_EXTEND_FUNCTION_2`. -/
def cpuidExtendFunction2 : U32 := 0x80000002#32
/-- `VIRT_CRYSTAL_CLOCK_FREQ`. -/
def virtCrystalClockFreq : U32 := 0x16C2154#32
/-- `MAX_VM_VCPUID_ENTRIES`. -/
def maxVmVcpuidEntries : ℕ := 64

/-- Bit `n`, as the flags of CPUID are written. -/
def cpuidBit (n : ℕ) : U32 := 1#32 <<< n

def cpuidEcxDtes64 : U32 := cpuidBit 2
def cpuidEcxMonitor : U32 := cpuidBit 3
def cpuidEcxDsCpl : U32 := cpuidBit 4
def cpuidEcxVmx : U32 := cpuidBit 5
def cpuidEcxSmx : U32 := cpuidBit 6
def cpuidEcxEst : U32 := cpuidBit 7
def cpuidEcxTm2 : U32 := cpuidBit 8
def cpuidEcxSdbg : U32 := cpuidBit 11
def cpuidEcxXtpr : U32 := cpuidBit 14
def cpuidEcxPdcm : U32 := cpuidBit 15
def cpuidEcxPcid : U32 := cpuidBit 17
def cpuidEcxOsxsave : U32 := cpuidBit 27
def cpuidEdxVme : U32 := cpuidBit 1
def cpuidEdxDe : U32 := cpuidBit 2
def cpuidEdxMce : U32 := cpuidBit 7
def cpuidEdxMtrr : U32 := cpuidBit 12
def cpuidEdxMca : U32 := cpuidBit 14
def cpuidEdxDtes : U32 := cpuidBit 21
def cpuidEdxAcpi : U32 := cpuidBit 22
def cpuidEdxHtt : U32 := cpuidBit 28
def cpuidEdxTm1 : U32 := cpuidBit 29
def cpuidEdxPbe : U32 := cpuidBit 31
def cpuidEaxArat : U32 := cpuidBit 2
def cpuidEbxSgx : U32 := cpuidBit 2
def cpuidEbxHle : U32 := cpuidBit 4
def cpuidEbxInvpcid : U32 := cpuidBit 10
def cpuidEbxPqm : U32 := cpuidBit 12
def cpuidEbxMpx : U32 := cpuidBit 14
def cpuidEbxPqe : U32 := cpuidBit 15
def cpuidEbxProcTrc : U32 := cpuidBit 25
def cpuidEcxSgxLc : U32 := cpuidBit 30
def cpuidEdxTsxForceAbort : U32 := cpuidBit 13
def cpuidEdxStibp : U32 := cpuidBit 27
def cpuidEaxXcr0Bndregs : U32 := cpuidBit 3
def cpuidEaxXcr0Bndcsr : U32 := cpuidBit 4
def cpuidEaxXsaves : U32 := cpuidBit 3
def cpuidEcxPtState : U32 := cpuidBit 8
/-- `CPUID_ECX_L2_ASSOCIATIVITY_FIELD_MASK`. -/
def cpuidEcxL2AssociativityFieldMask : U32 := 0xF000#32
/-- `L2_WAYS_OF_ASSOCIATIVITY`, at its position. -/
def l2WaysOfAssociativity : U32 := 0x4000#32
/-- `XSAVE_LEGACY_AREA_SIZE + XSAVE_HEADER_AREA_SIZE`. -/
def xsaveLegacyHeaderSize : U32 := 576#32
/-- `APIC_ID_MASK`. -/
def apicIdMask : U32 := 0xFF000000#32

/-! ## Data -/

/-- The registers of `CPUID`. -/
structure CpuidRegs where
  eax : U32
  ebx : U32
  ecx : U32
  edx : U32
  deriving DecidableEq, Repr

/-- What a pCPU reports for a leaf and a sub-leaf. -/
abbrev Cpuid : Type := U32 → U32 → CpuidRegs

/-- `struct vcpuid_entry`. -/
structure VcpuidEntry extends CpuidRegs where
  leaf : U32
  subleaf : U32
  flags : U32
  deriving DecidableEq, Repr

/-- The fields of `struct acrn_vm` for the table. -/
structure VcpuidTable where
  vcpuidEntries : List VcpuidEntry
  vcpuidLevel : U32
  vcpuidXlevel : U32
  vcpuidEntryNr_le : vcpuidEntries.length ≤ maxVmVcpuidEntries

/-- A VM, with the fields that CPUID depends on. -/
structure CpuidVm where
  vcpuid : VcpuidTable
  vmId : ℕ
  createdVcpus : BitVec 16

/-! ## The table

The table is filled behind its last entry. To write past its end is an error of the model, so that
a table that is there had room for everything. -/

namespace VcpuidTable

/-- The table of a new VM. -/
def empty : VcpuidTable := ⟨[], 0#32, 0#32, Nat.zero_le _⟩

end VcpuidTable

section

variable (cpuidSubleaf : Cpuid)

/-- `set_vcpuid_entry`; `none` is a write behind the table. -/
def setVcpuidEntry (vm : VcpuidTable) (entry : VcpuidEntry) : Option VcpuidTable :=
  if h : vm.vcpuidEntries.length < maxVmVcpuidEntries then
    some { vm with
      vcpuidEntries := vm.vcpuidEntries ++ [entry]
      vcpuidEntryNr_le := by
        rw [List.length_append, List.length_singleton]
        exact h }
  else none

/-- The registers of `init_vcpuid_entry`. -/
def initVcpuidRegs (leaf subleaf : U32) : CpuidRegs :=
  let native := cpuidSubleaf leaf subleaf
  if leaf = 0x06#32 then ⟨cpuidEaxArat, 0#32, 0#32, 0#32⟩
  else if leaf = 0x07#32 then
    { native with
      ebx := native.ebx &&& ~~~(cpuidEbxInvpcid ||| cpuidEbxPqm ||| cpuidEbxPqe) &&& ~~~cpuidEbxSgx
        &&& ~~~cpuidEbxMpx &&& ~~~cpuidEbxProcTrc &&& ~~~cpuidEbxHle
      ecx := native.ecx &&& ~~~cpuidEcxSgxLc
      edx := native.edx &&& ~~~cpuidEdxStibp &&& ~~~cpuidEdxTsxForceAbort }
  else if leaf = 0x15#32 then { native with ecx := virtCrystalClockFreq }
  else if leaf = 0x80000006#32 then
    { native with
      ecx := native.ecx &&& ~~~cpuidEcxL2AssociativityFieldMask ||| l2WaysOfAssociativity }
  else native

/-- `init_vcpuid_entry`. -/
def initVcpuidEntry (leaf subleaf flags : U32) : VcpuidEntry :=
  { initVcpuidRegs cpuidSubleaf leaf subleaf with leaf, subleaf, flags }

/-- The loop over the sub-leaves of leaf 4, with room for a number of entries. -/
def setCacheEntries : ℕ → U32 → VcpuidTable → Option VcpuidTable
  | room, j, vm =>
    let entry := initVcpuidEntry cpuidSubleaf 0x04#32 j cpuidCheckSubleaf
    if entry.eax = 0#32 then some vm
    else match room with
      | 0 => none
      | room + 1 => (setVcpuidEntry vm entry).bind (setCacheEntries room (j + 1#32))

/-- The leaves that are not supported. -/
def disabledLeaves : List U32 :=
  [0x05#32, 0x08#32, 0x09#32, 0x0A#32, 0x0C#32, 0x0E#32, 0x0F#32, 0x10#32, 0x11#32, 0x12#32,
    0x13#32, 0x14#32]

/-- The body of the loop over the basic leaves. -/
def setBasicEntries (vm : VcpuidTable) (i : U32) : Option VcpuidTable :=
  if i = 0x1#32 ∨ i = 0xB#32 ∨ i = 0xD#32 then some vm
  else if i = 0x04#32 then
    setCacheEntries cpuidSubleaf (maxVmVcpuidEntries - vm.vcpuidEntries.length) 0#32 vm
  else if i = 0x07#32 then
    setVcpuidEntry vm (initVcpuidEntry cpuidSubleaf i 0#32 cpuidCheckSubleaf)
  else if i ∈ disabledLeaves then some vm
  else setVcpuidEntry vm (initVcpuidEntry cpuidSubleaf i 0#32 0#32)

/-- The body of the loop over the extended leaves. -/
def setExtendedEntry (vm : VcpuidTable) (i : U32) : Option VcpuidTable :=
  setVcpuidEntry vm (initVcpuidEntry cpuidSubleaf i 0#32 0#32)

/-- A loop over the leaves from `first` to `limit`. -/
def forLeaves (body : VcpuidTable → U32 → Option VcpuidTable) (first : ℕ) (limit : U32)
    (vm : VcpuidTable) : Option VcpuidTable :=
  (List.range' first (limit.toNat + 1 - first)).foldlM (fun vm i => body vm (BitVec.ofNat 32 i)) vm

/-- `set_vcpuid_extended_function`. -/
def setVcpuidExtendedFunction (vm : VcpuidTable) : Option VcpuidTable := do
  let entry := initVcpuidEntry cpuidSubleaf cpuidMaxExtendedFunction 0#32 0#32
  let vm ← setVcpuidEntry vm entry
  let limit := entry.eax
  forLeaves (setExtendedEntry cpuidSubleaf) cpuidExtendFunction2.toNat limit
    { vm with vcpuidXlevel := limit }

/-- `set_vcpuid_entries`. -/
def setVcpuidEntries (vm : VcpuidTable) : Option VcpuidTable := do
  let entry := initVcpuidEntry cpuidSubleaf 0#32 0#32 0#32
  let vm ← setVcpuidEntry vm entry
  let limit := entry.eax
  let vm ← forLeaves (setBasicEntries cpuidSubleaf) 1 limit { vm with vcpuidLevel := limit }
  setVcpuidExtendedFunction cpuidSubleaf vm

end

/-! ## The search

The search begins in the middle and goes to either end. `entryFor` is the search over all entries
that it stands for. -/

/-- The leaf of an entry, by which the table is sorted. -/
def VcpuidEntry.leafNr (entry : VcpuidEntry) : ℕ := entry.leaf.toNat

/-- The sub-leaf is not looked at, or it is the one of the entry. -/
def VcpuidEntry.matchesSubleaf (subleaf : U32) (entry : VcpuidEntry) : Bool :=
  entry.flags &&& cpuidCheckSubleaf = 0#32 ∨ entry.subleaf = subleaf

/-- The first entry that matches, of all. -/
def VcpuidTable.entryFor (vm : VcpuidTable) (leaf subleaf : U32) : Option VcpuidEntry :=
  linearScan VcpuidEntry.leafNr (VcpuidEntry.matchesSubleaf subleaf) leaf.toNat vm.vcpuidEntries

/-- `local_find_vcpuid_entry`. -/
def localFindVcpuidEntry (vm : VcpuidTable) (leaf subleaf : U32) : Option VcpuidEntry :=
  let nr := vm.vcpuidEntries.length
  let half := nr / 2
  let i := if ∃ entry ∈ vm.vcpuidEntries[half]?, entry.leaf < leaf then half else 0
  scan VcpuidEntry.leafNr (VcpuidEntry.matchesSubleaf subleaf) leaf.toNat
    (vm.vcpuidEntries.drop i)

/-- The maximum that a leaf is compared with. -/
def VcpuidTable.limit (vm : VcpuidTable) (leaf : U32) : U32 :=
  if leaf &&& cpuidMaxExtendedFunction ≠ 0#32 then vm.vcpuidXlevel else vm.vcpuidLevel

/-- `find_vcpuid_entry`. -/
def findVcpuidEntry (vm : VcpuidTable) (leaf subleaf : U32) : Option VcpuidEntry :=
  match localFindVcpuidEntry vm leaf subleaf with
  | some entry => some entry
  | none =>
    if vm.limit leaf < leaf then localFindVcpuidEntry vm vm.vcpuidLevel subleaf else none

/-! ## CPUID of a guest -/

/-- `is_percpu_related`. -/
def isPercpuRelated (leaf : U32) : Bool :=
  leaf = 0x1#32 ∨ leaf = 0xB#32 ∨ leaf = 0xD#32 ∨ leaf = 0x80000001#32

/-- `fls32`. -/
def fls32 (value : U32) : U32 :=
  if value = 0#32 then 0xFFFF#32 else BitVec.ofNat 32 value.toNat.log2

section

variable (cpuidSubleaf : Cpuid) (vm : CpuidVm) (vcpu : Vcpu)

/-- `guest_cpuid_01h`. -/
def guestCpuid01h : CpuidRegs × Vcpu :=
  let apicid := vcpu.lapic.id
  let native := cpuidSubleaf 0x1#32 0#32
  let ebx := native.ebx &&& ~~~apicIdMask ||| apicid <<< 24
  let ecx := native.ecx &&& ~~~cpuidEcxMonitor &&& ~~~(cpuidEcxDtes64 ||| cpuidEcxDsCpl)
    &&& ~~~cpuidEcxSmx &&& ~~~cpuidEcxEst &&& ~~~cpuidEcxTm2 &&& ~~~cpuidEcxXtpr
    &&& ~~~cpuidEcxPdcm &&& ~~~cpuidEcxSdbg &&& ~~~cpuidEcxPcid &&& ~~~cpuidEcxVmx
  let (cr4, vcpu) := vcpuGetCr4 vcpu
  let ecx := ecx &&& ~~~cpuidEcxOsxsave
  let ecx := if cr4 &&& cr4Osxsave ≠ 0#64 then ecx ||| cpuidEcxOsxsave else ecx
  let edx := native.edx &&& ~~~cpuidEdxDtes &&& ~~~cpuidEdxVme &&& ~~~cpuidEdxDe
    &&& ~~~cpuidEdxMtrr &&& ~~~cpuidEdxAcpi &&& ~~~cpuidEdxTm1 &&& ~~~cpuidEdxPbe
  let edx := if vm.vmId = 0 then edx &&& ~~~cpuidEdxHtt
    else edx &&& ~~~cpuidEdxMce &&& ~~~cpuidEdxMca
  ({ eax := native.eax, ebx, ecx, edx }, vcpu)

/-- `guest_cpuid_0bh`. -/
def guestCpuid0bh (subleaf : U32) : CpuidRegs :=
  let created := vm.createdVcpus.setWidth 32
  let ecx := subleaf &&& 0xFF#32
  let edx := vcpu.lapic.id
  if subleaf = 0#32 then ⟨0#32, 1#32, ecx ||| 0x100#32, edx⟩
  else if subleaf = 1#32 then
    ⟨if created = 1#32 then 0#32 else fls32 (created - 1#32) + 1#32, created, ecx ||| 0x200#32, edx⟩
  else ⟨0#32, 0#32, ecx, edx⟩

/-- `guest_cpuid_0dh`. -/
def guestCpuid0dh (subleaf : U32) : CpuidRegs :=
  let avxAreaSize := (cpuidSubleaf 0xD#32 2#32).eax
  let native := cpuidSubleaf 0xD#32 subleaf
  if subleaf = 0#32 then
    { native with
      eax := native.eax &&& ~~~cpuidEaxXcr0Bndregs &&& ~~~cpuidEaxXcr0Bndcsr
      ecx := xsaveLegacyHeaderSize + avxAreaSize }
  else if subleaf = 1#32 then
    { native with
      eax := native.eax &&& ~~~cpuidEaxXsaves
      ecx := native.ecx &&& ~~~cpuidEcxPtState }
  else if subleaf = 2#32 then native
  else ⟨0#32, 0#32, 0#32, 0#32⟩

/-- `guest_cpuid_80000001h`. -/
def guestCpuid80000001h : CpuidRegs :=
  let native := cpuidSubleaf 0x80000001#32 0#32
  if vcpu.guestMsrs .miscEnable &&& msrIa32MiscEnableXdDisable ≠ 0#64 then
    { native with edx := native.edx &&& ~~~cpuidEdxXdBitAvil }
  else native

/-- The leaves that differ between vCPUs. -/
def percpuCpuid (leaf subleaf : U32) : CpuidRegs × Vcpu :=
  if leaf = 0x1#32 then guestCpuid01h cpuidSubleaf vm vcpu
  else if leaf = 0xB#32 then (guestCpuid0bh vm vcpu subleaf, vcpu)
  else if leaf = 0xD#32 then (guestCpuid0dh cpuidSubleaf subleaf, vcpu)
  else (guestCpuid80000001h cpuidSubleaf vcpu, vcpu)

/-- The answer of the table: that of an entry, or zeros. -/
def regsOfEntry (entry : Option VcpuidEntry) : CpuidRegs :=
  (entry.map VcpuidEntry.toCpuidRegs).getD ⟨0#32, 0#32, 0#32, 0#32⟩

/-- The answer before it is limited. -/
def unlimitedCpuid (leaf subleaf : U32) : CpuidRegs × Vcpu :=
  if isPercpuRelated leaf then percpuCpuid cpuidSubleaf vm vcpu leaf subleaf
  else (regsOfEntry (findVcpuidEntry vm.vcpuid leaf subleaf), vcpu)

/-- `guest_limit_cpuid`; `none` is an access through a null pointer. -/
def guestLimitCpuid (leaf : U32) (regs : CpuidRegs) : Option CpuidRegs :=
  if vcpu.guestMsrs .miscEnable &&& msrIa32MiscEnableLimitCpuid ≠ 0#64 then
    if leaf = 0#32 then some { regs with eax := 2#32 }
    else if (2#32 < leaf ∧ leaf < cpuidMaxExtendedFunction) ∨ vm.vcpuid.vcpuidXlevel < leaf then
      (findVcpuidEntry vm.vcpuid 2#32 0#32).map VcpuidEntry.toCpuidRegs
    else some regs
  else some regs

/-- `guest_cpuid`, for the leaf in EAX and the sub-leaf in ECX. -/
def guestCpuid (leaf subleaf : U32) : Option (CpuidRegs × Vcpu) :=
  let (regs, vcpu) := unlimitedCpuid cpuidSubleaf vm vcpu leaf subleaf
  (guestLimitCpuid vm vcpu leaf regs).map (·, vcpu)

end

end Acrn
