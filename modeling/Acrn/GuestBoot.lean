import Acrn.GuestMemory
import Acrn.RegCache
import Acrn.Trampoline
import Acrn.VcpuRun
import Acrn.Lib.Regions

/-!
# The boot image of a guest

`vboot_info.c` and `vm_load.c`: the kernel of a guest is a module that the boot loader left in
memory. It is copied to its load address, with its arguments 8 KBytes below, and behind it the
descriptor table that the boot vCPU starts with. A Linux kernel is handed a zero page next to
the arguments.
-/

namespace Acrn

open ByteMem ByteCopy Regions

/-! ## Strings -/

/-- `strnlen_s`. -/
def strnlenS (m : HostMem) : ℕ → ℕ → ℕ
  | _, 0 => 0
  | str, maxlen + 1 => if m str ≠ 0#8 then strnlenS m (str + 1) maxlen + 1 else 0

/-- The loop of `strncmp`, with the characters that are left behind the current one. -/
def strncmpLoop (m : HostMem) (str1 str2 : ℕ) : ℕ → ℤ
  | 0 => (m str1).toInt - (m str2).toInt
  | n + 1 =>
    if m str1 ≠ 0#8 ∧ m str2 ≠ 0#8 ∧ m str1 = m str2 then
      strncmpLoop m (str1 + 1) (str2 + 1) n
    else (m str1).toInt - (m str2).toInt

/-- `strncmp`. A limit of zero is one of `2 ^ 32`, since `n - 1U` is computed in a `size_t`,
which has 32 bits. -/
def strncmp (m : HostMem) (s1 s2 : ℕ) (n : BitVec 32) : ℤ :=
  strncmpLoop m s1 s2 (n - 1#32).toNat

/-- A string behind its first character. -/
theorem IsString.tail {m : HostMem} {addr n : ℕ} (h : IsString m addr (n + 1)) :
    IsString m (addr + 1) n := by
  refine ⟨fun i hi => ?_, ?_⟩
  · rw [Nat.add_assoc, Nat.add_comm 1]
    exact h.1 (i + 1) (Nat.succ_lt_succ hi)
  · rw [Nat.add_assoc, Nat.add_comm 1]
    exact h.2

theorem strnlenS_eq {m : HostMem} {addr n maxlen : ℕ} (h : IsString m addr n) (hle : n ≤ maxlen) :
    strnlenS m addr maxlen = n := by
  induction n generalizing addr maxlen with
  | zero =>
    cases maxlen with
    | zero => rfl
    | succ maxlen =>
      have hend : m addr = 0#8 := h.2
      rw [strnlenS, if_neg (not_not.mpr hend)]
  | succ n ih =>
    obtain ⟨maxlen, rfl⟩ : ∃ k, maxlen = k + 1 := ⟨maxlen - 1, by omega⟩
    have hhead : m addr ≠ 0#8 := h.1 0 n.succ_pos
    rw [strnlenS, if_pos hhead, ih h.tail (Nat.le_of_succ_le_succ hle)]

section

variable {m : HostMem} {s slen i : ℕ}

theorem strnlenS_le (m : HostMem) (s slen : ℕ) : strnlenS m s slen ≤ slen := by
  induction slen generalizing s with
  | zero => exact Nat.le_refl 0
  | succ slen ih =>
    rw [strnlenS]
    split
    · exact Nat.succ_le_succ (ih _)
    · exact Nat.zero_le _

theorem ne_nul_of_lt_strnlenS (h : i < strnlenS m s slen) : m (s + i) ≠ 0#8 := by
  induction slen generalizing s i with
  | zero => cases h
  | succ slen ih =>
    rw [strnlenS] at h
    split at h
    · next hhead =>
      cases i with
      | zero => exact hhead
      | succ i =>
        rw [← Nat.add_assoc, Nat.add_right_comm]
        exact ih (Nat.lt_of_succ_lt_succ h)
    · cases h

theorem nul_of_strnlenS_lt (h : strnlenS m s slen < slen) : m (s + strnlenS m s slen) = 0#8 := by
  induction slen generalizing s with
  | zero => cases h
  | succ slen ih =>
    rw [strnlenS] at h ⊢
    split
    · next hhead =>
      rw [if_pos hhead] at h
      rw [← Nat.add_assoc, Nat.add_right_comm]
      exact ih (Nat.lt_of_succ_lt_succ h)
    · next hhead => exact not_not.mp hhead

/-- A string is at least as long as a given number below the limit. -/
theorem le_strnlenS_iff : i ≤ strnlenS m s slen ↔ i ≤ slen ∧ ∀ j < i, m (s + j) ≠ 0#8 := by
  constructor
  · intro h
    exact ⟨h.trans (strnlenS_le m s slen), fun j hj => ne_nul_of_lt_strnlenS (hj.trans_le h)⟩
  · rintro ⟨hle, hne⟩
    by_contra hlt
    have hshort : strnlenS m s slen < i := Nat.lt_of_not_le hlt
    exact hne _ hshort (nul_of_strnlenS_lt (hshort.trans_le hle))

end

/-! ## Data -/

/-- `enum os_kernel_type`. -/
inductive OsKernelType where
  | bzimage
  | zephyr
  deriving DecidableEq

/-- `struct acrn_vm_os_config`; the two strings are addresses. -/
structure AcrnVmOsConfig where
  kernelType : OsKernelType
  kernelModTag : ℕ
  bootargs : ℕ
  kernelLoadAddr : Word
  kernelEntryAddr : Word

/-- `struct sw_kernel_info`. -/
structure SwKernelInfo where
  kernelSrcAddr : ℕ
  kernelLoadAddr : Word
  kernelEntryAddr : Word
  kernelSize : BitVec 32

/-- `struct sw_module_info`. -/
structure SwModuleInfo where
  srcAddr : ℕ
  loadAddr : Word
  size : BitVec 32

/-- `struct vm_sw_info`. -/
structure VmSwInfo where
  kernelType : OsKernelType
  kernelInfo : SwKernelInfo
  bootargsInfo : SwModuleInfo

/-- What the loader uses of a VM: its memory with the tables that map it, and its E820. The
address of `init_vgdt` stands here as well. -/
structure LoaderVm where
  memory : VmMemConfig
  ops : MemoryOps
  nworldEptp : ℕ
  ept : PgMem
  e820EntryNum : BitVec 32
  e820Entries : ℕ
  initVgdt : ℕ

/-- The boot vCPU, with the registers that `Vcpu` leaves out. -/
structure BootVcpu where
  vcpu : Vcpu
  gdtBase : Word
  gdtLimit : BitVec 32
  idtBase : Word
  idtLimit : BitVec 32
  rip : Word
  gprs : Fin 16 → Word

/-- `MAX_BOOTARGS_SIZE`. -/
def maxBootargsSize : ℕ := 2048
/-- `MAX_MOD_TAG_LEN`. -/
def maxModTagLen : ℕ := 32
/-- `INVALID_MOD_IDX`. -/
def invalidModIdx : ℕ := 0xFFFF
/-- `sizeof(struct e820_entry)`. -/
def sizeofE820Entry : ℕ := 20
/-- `MEM_1K`. -/
def mem1K : Word := 1024#64
/-- `MEM_4K`. -/
def mem4K : Word := 4096#64

/-- `init_vgdt`. -/
def initVgdtEntries : List ℕ := [0x0, 0x0, 0x00CF9B000000FFFF, 0x00CF93000000FFFF]

/-- `sizeof(init_vgdt)`. -/
def sizeofInitVgdt : ℕ := 32

/-! ### Offsets in `struct zero_page` -/

/-- `e820_nentries`. -/
def zpE820Nentries : ℕ := 0x1e8
/-- `hdr`, which begins with `setup_sects`. -/
def zpHdr : ℕ := 0x1f1
/-- `sizeof(zeropage->hdr)`. -/
def sizeofHdr : ℕ := 0x77
/-- `hdr.version`. -/
def zpVersion : ℕ := 0x206
/-- `hdr.loader_type`. -/
def zpLoaderType : ℕ := 0x210
/-- `hdr.load_flags`. -/
def zpLoadFlags : ℕ := 0x211
/-- `hdr.bootargs_addr`. -/
def zpBootargsAddr : ℕ := 0x228
/-- `hdr.pref_addr`. -/
def zpPrefAddr : ℕ := 0x258
/-- `entries`. -/
def zpEntries : ℕ := 0x2d0

/-! ## `vboot_info.c` -/

/-- `get_kernel_load_addr`. -/
def getKernelLoadAddr (m : HostMem) (config : AcrnVmOsConfig) (kernelType : OsKernelType)
    (kernelSrcAddr : ℕ) : Word :=
  match kernelType with
  | .bzimage => BitVec.ofNat 64 (readLE m (kernelSrcAddr + zpPrefAddr) 8)
  | .zephyr => config.kernelLoadAddr

/-- `init_vm_kernel_info`, for the module whose `struct multiboot_module` is at `mod`. -/
def initVmKernelInfo (m : HostMem) (config : AcrnVmOsConfig) (mod : ℕ) : SwKernelInfo :=
  let mmModStart := readLE m mod 4
  let mmModEnd := readLE m (mod + 4) 4
  { kernelSrcAddr := mmModStart
    kernelLoadAddr := getKernelLoadAddr m config config.kernelType mmModStart
    kernelEntryAddr := 0#64
    kernelSize := BitVec.ofNat 32 mmModEnd - BitVec.ofNat 32 mmModStart }

/-- `init_vm_bootargs_info`. -/
def initVmBootargsInfo (m : HostMem) (config : AcrnVmOsConfig) (kernelInfo : SwKernelInfo) :
    SwModuleInfo :=
  let size := BitVec.ofNat 32 (strnlenS m config.bootargs maxBootargsSize)
  { srcAddr := config.bootargs
    loadAddr := if 0#32 < size then kernelInfo.kernelLoadAddr - mem1K * 8#64 else 0#64
    size := size }

/-- `get_mod_idx_by_tag`. -/
def getModIdxByTag (m : HostMem) (mbi tag : ℕ) : ℕ :=
  let tagLen := strnlenS m tag maxModTagLen
  ((List.range (miModsCount m mbi)).find? fun i =>
    decide (tagLen ≤ strnlenS m (mmString m mbi i) maxModTagLen) &&
    decide (strncmp m (mmString m mbi i) tag (BitVec.ofNat 32 tagLen) = 0) &&
    (m (mmString m mbi i + tagLen) == 0x0d#8 || m (mmString m mbi i + tagLen) == 0x0a#8 ||
      m (mmString m mbi i + tagLen) == 0#8)).getD invalidModIdx

/-- `init_vm_boot_info`, on a VM that `create_vm` has cleared. -/
def initVmBootInfo (m : HostMem) (mbi : ℕ) (config : AcrnVmOsConfig) : VmSwInfo :=
  let modIdx := getModIdxByTag m mbi config.kernelModTag
  let kernelInfo :=
    initVmKernelInfo m config (miModsAddr m mbi + sizeofMultibootModule * modIdx)
  { kernelType := config.kernelType
    kernelInfo := kernelInfo
    bootargsInfo := initVmBootargsInfo m config kernelInfo }

/-! ## `vm_load.c` -/

/-- `get_guest_gdt_base_gpa`. -/
def getGuestGdtBaseGpa (sw : VmSwInfo) : Word :=
  let guestKernelEndGpa := sw.kernelInfo.kernelLoadAddr + sw.kernelInfo.kernelSize.setWidth 64
  let guestBootargsEndGpa := sw.bootargsInfo.loadAddr + sw.bootargsInfo.size.setWidth 64
  let newGuestGdtBaseGpa :=
    if guestKernelEndGpa < guestBootargsEndGpa then guestBootargsEndGpa else guestKernelEndGpa
  (newGuestGdtBaseGpa + 7#64) &&& ~~~(8#64 - 1#64)

namespace LoaderVm

variable (vm : LoaderVm)

/-- `gpa2hva`. -/
def gpa2hva (gpa : Word) : ℕ :=
  let hpa := (localGpa2hpa vm.ops vm.nworldEptp gpa.toNat vm.ept).getD invalidHpa
  if hpa = invalidHpa then 0 else hpa.toNat

/-- `copy_to_gpa` into the VM. -/
def copyIn (hPtr : ℕ) (gpa : Word) (size : BitVec 32) (m : HostMem) : HostMem :=
  copyToGpa vm.ops vm.nworldEptp vm.ept hPtr gpa size m

/-- `create_zeropage_e820`. -/
def createZeropageE820 (zp : ℕ) (m : HostMem) : BitVec 32 × HostMem :=
  if vm.e820Entries = 0 ∨ vm.e820EntryNum = 0#32 ∨ BitVec.ofNat 32 e820MaxEntries < vm.e820EntryNum
  then (0#32, m)
  else
    let n := vm.e820EntryNum.toNat * sizeofE820Entry
    (vm.e820EntryNum, memcpyS (zp + zpEntries) n vm.e820Entries n m)

/-- `create_zero_page`. -/
def createZeroPage (sw : VmSwInfo) (m : HostMem) : Word × HostMem :=
  let gpa := sw.bootargsInfo.loadAddr + mem4K
  let zeropage := vm.gpa2hva gpa
  let m := memset zeropage 0#8 mem4K.toNat m
  let hva := vm.gpa2hva sw.kernelInfo.kernelLoadAddr
  let m := memcpyS (zeropage + zpHdr) sizeofHdr (hva + zpHdr) sizeofHdr m
  let addr := sw.bootargsInfo.loadAddr
  let m := writeLE m (zeropage + zpBootargsAddr) 4 (addr.setWidth 32).toNat
  let m := writeLE m (zeropage + zpVersion) 2 0x20c
  let m := writeLE m (zeropage + zpLoaderType) 1 0xff
  let m := writeLE m (zeropage + zpLoadFlags) 1 0x20
  let (entryNum, m) := vm.createZeropageE820 zeropage m
  (gpa, writeLE m (zeropage + zpE820Nentries) 1 (entryNum.setWidth 8).toNat)

/-- `prepare_loading_bzimage`. -/
def prepareLoadingBzimage (sw : VmSwInfo) (vcpu : BootVcpu) (m : HostMem) :
    VmSwInfo × BootVcpu × HostMem :=
  let kernelEntryOffset := BitVec.ofNat 32 ((m (sw.kernelInfo.kernelSrcAddr + zpHdr)).toNat + 1) *
    512#32
  let sw := { sw with kernelInfo.kernelEntryAddr :=
    sw.kernelInfo.kernelLoadAddr + kernelEntryOffset.setWidth 64 }
  let (gpa, m) := vm.createZeroPage sw m
  (sw, { vcpu with gprs := Function.update (fun _ => 0#64) cpuRegRsi gpa }, m)

/-- `prepare_loading_rawimage`. -/
def prepareLoadingRawimage (config : AcrnVmOsConfig) (sw : VmSwInfo) : VmSwInfo :=
  { sw with kernelInfo.kernelEntryAddr := config.kernelEntryAddr }

/-- `init_vcpu_protect_mode_regs`. -/
def initVcpuProtectModeRegs (vgdtBaseGpa : Word) (vcpu : BootVcpu) (m : HostMem) :
    BootVcpu × HostMem :=
  let m := vm.copyIn vm.initVgdt vgdtBaseGpa (BitVec.ofNat 32 sizeofInitVgdt) m
  ({ vcpu := Acrn.initVcpuProtectModeRegs vcpu.vcpu
     gdtBase := vgdtBaseGpa
     gdtLimit := BitVec.ofNat 32 sizeofInitVgdt - 1#32
     idtBase := 0#64
     idtLimit := 0xffff#32
     rip := 0#64
     gprs := fun _ => 0#64 }, m)

/-- `direct_boot_sw_loader`. -/
def directBootSwLoader (config : AcrnVmOsConfig) (sw : VmSwInfo) (vcpu : BootVcpu) (m : HostMem) :
    VmSwInfo × BootVcpu × HostMem :=
  let (vcpu, m) := vm.initVcpuProtectModeRegs (getGuestGdtBaseGpa sw) vcpu m
  let m := vm.copyIn sw.kernelInfo.kernelSrcAddr sw.kernelInfo.kernelLoadAddr
    sw.kernelInfo.kernelSize m
  let m :=
    if sw.bootargsInfo.size ≠ 0#32 then
      vm.copyIn sw.bootargsInfo.srcAddr sw.bootargsInfo.loadAddr
        (BitVec.ofNat 32 (strnlenS m sw.bootargsInfo.srcAddr maxBootargsSize + 1)) m
    else m
  let (sw, vcpu, m) :=
    match sw.kernelType with
    | .bzimage => vm.prepareLoadingBzimage sw vcpu m
    | .zephyr => (prepareLoadingRawimage config sw, vcpu, m)
  (sw, { vcpu with rip := sw.kernelInfo.kernelEntryAddr }, m)

/-! ## Where guest memory lies

All RAM of a guest is mapped in one piece, so that a range of guest memory is a range of the
host's, and a copy to one is a copy to the other. -/

/-- The RAM of the guest, by its E820. -/
def guestRam : Set ℕ :=
  {g | ∃ entry ∈ createPrelaunchedVmE820 vm.memory, entry.type = e820TypeRam ∧
    entry.baseaddr.toNat ≤ g ∧ g < entry.stop}

/-- Where a byte of guest memory lies in the host. -/
def hva (g : ℕ) : ℕ := vm.memory.startHpa.toNat + g

/-- The host memory behind the RAM of the guest. -/
def image : Set ℕ := vm.hva '' vm.guestRam

/-- The tables map all RAM, in one piece. -/
def Linear : Prop :=
  ∀ g ∈ vm.guestRam, ∃ hpa, localGpa2hpa vm.ops vm.nworldEptp g vm.ept = some hpa ∧
    hpa.toNat = vm.hva g

variable {vm} {m m' : HostMem}

/-- RAM begins at address zero. -/
theorem mem_guestRam_of_lt {g : ℕ} (hg : g < 0xF0000) : g ∈ vm.guestRam :=
  ⟨⟨0x0#64, 0xF0000#64, e820TypeRam⟩, List.mem_cons_self, rfl, Nat.zero_le g, hg⟩

/-- All RAM lies in the memory of the VM. -/
theorem lt_size_of_mem_guestRam (hmem : 0x100000 ≤ vm.memory.size.toNat) {g : ℕ}
    (hg : g ∈ vm.guestRam) : g < vm.memory.size.toNat := by
  obtain ⟨entry, hentry, -, hge, hlt⟩ := hg
  have hlast : (vm.memory.size - mem1M).toNat = vm.memory.size.toNat - 0x100000 :=
    BitVec.toNat_sub_of_le (show mem1M ≤ vm.memory.size from hmem)
  have hentries : createPrelaunchedVmE820 vm.memory =
      [⟨0x0#64, 0xF0000#64, e820TypeRam⟩, ⟨0xF0000#64, 0x10000#64, e820TypeReserved⟩,
        ⟨0x100000#64, vm.memory.size - mem1M, e820TypeRam⟩] := rfl
  rw [hentries] at hentry
  simp only [List.mem_cons, List.not_mem_nil, or_false] at hentry
  rcases hentry with rfl | rfl | rfl
  · simp only [E820Entry.stop, BitVec.toNat_ofNat] at hlt
    omega
  · simp only [E820Entry.stop, BitVec.toNat_ofNat] at hlt
    omega
  · simp only [E820Entry.stop, hlast, BitVec.toNat_ofNat] at hlt
    omega

/-- What `prepare_prelaunched_vm_memmap` leaves maps all RAM in one piece. -/
theorem linear_of_mappedTo (hbase : vm.nworldEptp = vm.ops.info.pml4Base)
    (hmem : vm.memory.Valid) (h : MappedTo vm.ops vm.memory vm.memory.size.toNat vm.ept) :
    vm.Linear := by
  intro g hg
  have hlt := lt_size_of_mem_guestRam hmem.le_size hg
  have hg48 : g < 2 ^ 48 := hlt.trans_le (hmem.size_le.trans (by decide))
  have hview := gpa2hpa_eq_view h.kept.sound hg48
  rw [h.view g hg48, if_pos hlt, ramView, if_pos hlt, Option.map_some, gpa2hpa,
    Option.map_eq_some_iff] at hview
  rwa [hbase]

theorem Linear.hva_lt (h : vm.Linear) {g : ℕ} (hg : g ∈ vm.guestRam) : vm.hva g < 2 ^ 64 := by
  obtain ⟨hpa, -, hnat⟩ := h g hg
  exact hnat ▸ hpa.isLt

theorem Linear.gpa2hva_eq (h : vm.Linear) {gpa : Word} (hg : gpa.toNat ∈ vm.guestRam) :
    vm.gpa2hva gpa = vm.hva gpa.toNat := by
  obtain ⟨hpa, hsome, hnat⟩ := h _ hg
  rw [gpa2hva, hsome, Option.getD_some]
  exact (if_neg (localGpa2hpa_ne_invalid hsome)).trans hnat

/-- The bytes of a range of RAM are found one after the other. -/
theorem Linear.hpaAt_eq (h : vm.Linear) {gpa : Word} {i : ℕ} (hg : gpa.toNat + i ∈ vm.guestRam) :
    ∃ hpa, hpaAt vm.ops vm.nworldEptp vm.ept gpa i = some hpa ∧
      hpa.toNat = vm.hva gpa.toNat + i := by
  have hlt : gpa.toNat + i < 2 ^ 64 := by
    have hhva := h.hva_lt hg
    rw [hva] at hhva
    omega
  have hnat : (gpa + BitVec.ofNat 64 i).toNat = gpa.toNat + i := by
    rw [BitVec.toNat_add, BitVec.toNat_ofNat]
    omega
  obtain ⟨hpa, hsome, hpa'⟩ := h _ hg
  refine ⟨hpa, by rw [hpaAt, hnat, hsome], ?_⟩
  rw [hpa', hva, hva, Nat.add_assoc]

/-- A copy to RAM from elsewhere. -/
theorem Linear.writes_copyIn (h : vm.Linear) {hPtr : ℕ} {gpa : Word} {size : BitVec 32}
    (hram : ∀ i < size.toNat, gpa.toNat + i ∈ vm.guestRam)
    (hsrc : ∀ i < size.toNat, hPtr + i ∉ vm.image) (m : HostMem) :
    (Region.holding (vm.hva gpa.toNat) size.toNat fun i => m (hPtr + i)).Writes m
      (vm.copyIn hPtr gpa size m) := by
  obtain ⟨n, hn, -, hstop, heq⟩ :=
    copyGpa_spec vm.ops vm.nworldEptp vm.ept hPtr gpa size false m
  obtain rfl : n = size.toNat := by
    by_contra hne
    have hlt : n < size.toNat := lt_of_le_of_ne hn hne
    obtain ⟨hpa, hsome, -⟩ := h.hpaAt_eq (hram n hlt)
    exact absurd (hsome.symm.trans (hstop hlt)) (Option.some_ne_none hpa)
  have hdst : ∀ i < size.toNat, copyDst vm.ops vm.nworldEptp vm.ept hPtr gpa false i =
      vm.hva gpa.toNat + i := by
    intro i hi
    obtain ⟨hpa, hsome, hnat⟩ := h.hpaAt_eq (hram i hi)
    rw [copyDst, if_neg (by decide), guestByte, hsome, Option.getD_some, hnat]
  have hcopy : vm.copyIn hPtr gpa size m =
      copyCells (fun i => vm.hva gpa.toNat + i) (fun i => hPtr + i) size.toNat m := by
    rw [copyIn, copyToGpa, heq]
    exact copyCells_congr hdst (fun _ _ => if_neg (by decide)) m
  rw [hcopy]
  refine Region.writes_copyCells m fun a ha => ?_
  obtain ⟨⟨hge, hlt⟩, hge', hlt'⟩ := ha
  have hin : a ∈ vm.image := by
    refine ⟨gpa.toNat + (a - vm.hva gpa.toNat), hram _ (by omega), ?_⟩
    simp only [hva] at *
    omega
  have hout := hsrc (a - hPtr) (by omega)
  rw [Nat.add_sub_cancel' hge'] at hout
  exact hout hin

/-! ## The zero page

The page is filled by several writes, some of which go to fields of the header that was copied
before. What it holds afterwards is one record. -/

variable (vm) in
/-- The number of entries that the zero page gets. -/
def zeropageE820Num : ℕ :=
  if vm.e820Entries = 0 ∨ BitVec.ofNat 32 e820MaxEntries < vm.e820EntryNum then 0
  else vm.e820EntryNum.toNat

/-- The bytes of the header that the loader writes itself. -/
def LoaderField (i : ℕ) : Prop :=
  (zpVersion ≤ i ∧ i < zpVersion + 2) ∨ i = zpLoaderType ∨ i = zpLoadFlags ∨
    (zpBootargsAddr ≤ i ∧ i < zpBootargsAddr + 4)

/-- The content of a zero page: the header of the kernel with the fields of the loader, the
E820 table with its length, and zeros. -/
structure ZeroPage (num : ℕ) (header table : ℕ → BitVec 8) (bootargsAddr zp : ℕ) (m : HostMem) :
    Prop where
  bootargs_addr : readLE m (zp + zpBootargsAddr) 4 = bootargsAddr
  version : readLE m (zp + zpVersion) 2 = 0x20c
  loader_type : readLE m (zp + zpLoaderType) 1 = 0xff
  load_flags : readLE m (zp + zpLoadFlags) 1 = 0x20
  header : ∀ i, zpHdr ≤ i → i < zpHdr + sizeofHdr → ¬ LoaderField i → m (zp + i) = header i
  e820_nentries : readLE m (zp + zpE820Nentries) 1 = num
  entries : ∀ i < num * sizeofE820Entry, m (zp + zpEntries + i) = table i
  zero : ∀ i < mem4K.toNat, i ≠ zpE820Nentries → (i < zpHdr ∨ zpHdr + sizeofHdr ≤ i) →
    (i < zpEntries ∨ zpEntries + num * sizeofE820Entry ≤ i) → m (zp + i) = 0#8

/-- Header and table count as far as they are copied. -/
theorem ZeroPage.congr {num addr zp : ℕ} {header header' table table' : ℕ → BitVec 8}
    (h : ZeroPage num header table addr zp m)
    (hheader : ∀ i, zpHdr ≤ i → i < zpHdr + sizeofHdr → header i = header' i)
    (htable : ∀ i < num * sizeofE820Entry, table i = table' i) :
    ZeroPage num header' table' addr zp m :=
  { h with
    header := fun i hge hlt hfield => (h.header i hge hlt hfield).trans (hheader i hge hlt)
    entries := fun i hi => (h.entries i hi).trans (htable i hi) }

/-- The zero page as a region; a table of 32 entries fits. -/
def zeroPageRegion (num : ℕ) (header table : ℕ → BitVec 8) (bootargsAddr zp : ℕ)
    (hnum : num ≤ e820MaxEntries) : Region (BitVec 8) where
  base := zp
  size := mem4K.toNat
  Ok := ZeroPage num header table bootargsAddr zp
  congr m m' h hok := by
    have hsize : mem4K.toNat = 4096 := rfl
    have hread : ∀ i n, i + n ≤ 4096 → readLE m' (zp + i) n = readLE m (zp + i) n := by
      intro i n hle
      refine readLE_congr fun a hge hlt => ?_
      have heq := h (a - zp) (by omega)
      rw [Nat.add_sub_cancel' (by omega)] at heq
      exact heq.symm
    refine ⟨?_, ?_, ?_, ?_, ?_, ?_, ?_, ?_⟩
    · exact (hread _ _ (by decide)).trans hok.bootargs_addr
    · exact (hread _ _ (by decide)).trans hok.version
    · exact (hread _ _ (by decide)).trans hok.loader_type
    · exact (hread _ _ (by decide)).trans hok.load_flags
    · intro i hge hlt hfield
      have hin : i < mem4K.toNat := hlt.trans (by decide)
      exact (h i hin).symm.trans (hok.header i hge hlt hfield)
    · exact (hread _ _ (by decide)).trans hok.e820_nentries
    · intro i hi
      have hin : zpEntries + i < mem4K.toNat := by
        simp only [zpEntries, sizeofE820Entry, e820MaxEntries] at *
        omega
      rw [← hok.entries i hi, Nat.add_assoc]
      exact (h _ hin).symm
    · intro i hi hne hhdr hentries
      exact (h i hi).symm.trans (hok.zero i hi hne hhdr hentries)

theorem zeropageE820Num_le : vm.zeropageE820Num ≤ e820MaxEntries := by
  rw [zeropageE820Num]
  split
  · exact Nat.zero_le _
  · next h => exact BitVec.not_lt.mp fun hlt => h (.inr hlt)

/-- The E820 table goes to its place in the zero page, and its length is returned. -/
theorem createZeropageE820_spec {zp : ℕ} (m : HostMem)
    (h : ByteMem.Apart (zp + zpEntries) (vm.zeropageE820Num * sizeofE820Entry) vm.e820Entries
      (vm.zeropageE820Num * sizeofE820Entry)) :
    (vm.createZeropageE820 zp m).1.toNat = vm.zeropageE820Num ∧
    (Region.holding (zp + zpEntries) (vm.zeropageE820Num * sizeofE820Entry)
      fun i => m (vm.e820Entries + i)).Writes m (vm.createZeropageE820 zp m).2 := by
  have hempty : (Region.holding (zp + zpEntries) (0 * sizeofE820Entry)
      fun i => m (vm.e820Entries + i)).Writes m m := by
    refine ⟨fun _ _ => rfl, fun i hi => ?_⟩
    rw [Nat.zero_mul] at hi
    exact absurd hi (Nat.not_lt_zero i)
  rw [createZeropageE820]
  by_cases hbad : vm.e820Entries = 0 ∨ BitVec.ofNat 32 e820MaxEntries < vm.e820EntryNum
  · have hnum : vm.zeropageE820Num = 0 := if_pos hbad
    rw [if_pos (hbad.imp_right Or.inr), hnum]
    exact ⟨rfl, hempty⟩
  have hnum : vm.zeropageE820Num = vm.e820EntryNum.toNat := if_neg hbad
  by_cases hzero : vm.e820EntryNum = 0#32
  · rw [if_pos (.inr (.inl hzero)), hnum, hzero]
    exact ⟨rfl, hempty⟩
  · rw [if_neg fun hc => hbad (hc.imp_right fun hc => hc.resolve_left hzero), hnum]
    rw [hnum] at h
    refine ⟨rfl, ?_⟩
    have hw := Region.writes_copyCells m h
    rwa [← memcpyS_eq] at hw

/-- **`create_zero_page`** writes the zero page and nothing else. -/
theorem writes_createZeroPage {sw : VmSwInfo} {zp kernel : ℕ} (m : HostMem)
    (hzp : vm.gpa2hva (sw.bootargsInfo.loadAddr + mem4K) = zp)
    (hkernel : vm.gpa2hva sw.kernelInfo.kernelLoadAddr = kernel)
    (hhdr : ByteMem.Apart zp 4096 (kernel + zpHdr) sizeofHdr)
    (htable : ByteMem.Apart zp 4096 vm.e820Entries (vm.zeropageE820Num * sizeofE820Entry)) :
    (zeroPageRegion vm.zeropageE820Num (fun i => m (kernel + i)) (fun i => m (vm.e820Entries + i))
      (sw.bootargsInfo.loadAddr.toNat % 2 ^ 32) zp zeropageE820Num_le).Writes m
      (vm.createZeroPage sw m).2 := by
  have hnum : vm.zeropageE820Num ≤ 32 := zeropageE820Num_le
  have hhdr' := apart_iff.mp hhdr
  have htable' := apart_iff.mp htable
  set m₁ := memset zp 0#8 4096 m with hm₁
  set m₂ := memcpyS (zp + zpHdr) sizeofHdr (kernel + zpHdr) sizeofHdr m₁ with hm₂
  set m₃ := writeLE m₂ (zp + zpBootargsAddr) 4 (sw.bootargsInfo.loadAddr.setWidth 32).toNat with hm₃
  set m₄ := writeLE m₃ (zp + zpVersion) 2 0x20c with hm₄
  set m₅ := writeLE m₄ (zp + zpLoaderType) 1 0xff with hm₅
  set m₆ := writeLE m₅ (zp + zpLoadFlags) 1 0x20 with hm₆
  have hentries : ByteMem.Apart (zp + zpEntries) (vm.zeropageE820Num * sizeofE820Entry)
      vm.e820Entries (vm.zeropageE820Num * sizeofE820Entry) := by
    simp only [apart_iff, zpEntries, sizeofE820Entry] at *
    omega
  obtain ⟨hlen, htab⟩ := createZeropageE820_spec m₆ hentries
  set m₇ := (vm.createZeropageE820 zp m₆).2 with hm₇
  have hresult : (vm.createZeroPage sw m).2 =
      writeLE m₇ (zp + zpE820Nentries) 1
        ((vm.createZeropageE820 zp m₆).1.setWidth 8).toNat := by
    rw [createZeroPage, hzp, hkernel]
    rfl
  have hlen' : ((vm.createZeropageE820 zp m₆).1.setWidth 8).toNat = vm.zeropageE820Num := by
    rw [BitVec.toNat_setWidth, hlen]
    exact Nat.mod_eq_of_lt (by omega)
  rw [hresult, hlen']
  have htabout : ∀ a, a < zp + zpEntries ∨
      zp + zpEntries + vm.zeropageE820Num * sizeofE820Entry ≤ a → m₇ a = m₆ a := by
    intro a ha
    refine htab.frame a fun hc => ?_
    obtain ⟨hge, hlt⟩ : zp + zpEntries ≤ a ∧
        a < zp + zpEntries + vm.zeropageE820Num * sizeofE820Entry := hc
    omega
  -- a byte that neither the fields nor the table cover comes from the copy of the header
  have hother : ∀ a, (a < zp + zpE820Nentries ∨ zp + zpE820Nentries + 1 ≤ a) →
      (a < zp + zpVersion ∨ zp + zpVersion + 2 ≤ a) →
      (a < zp + zpLoaderType ∨ zp + zpLoaderType + 1 ≤ a) →
      (a < zp + zpLoadFlags ∨ zp + zpLoadFlags + 1 ≤ a) →
      (a < zp + zpBootargsAddr ∨ zp + zpBootargsAddr + 4 ≤ a) →
      (a < zp + zpEntries ∨ zp + zpEntries + vm.zeropageE820Num * sizeofE820Entry ≤ a) →
      writeLE m₇ (zp + zpE820Nentries) 1 vm.zeropageE820Num a = m₂ a := by
    intro a h₁ h₂ h₃ h₄ h₅ h₆
    rw [writeLE_frame h₁, htabout a h₆, hm₆, writeLE_frame h₄, hm₅, writeLE_frame h₃, hm₄,
      writeLE_frame h₂, hm₃, writeLE_frame h₅]
  have hcopy : ∀ a, m₂ a = if zp + zpHdr ≤ a ∧ a < zp + zpHdr + sizeofHdr then
      m₁ (kernel + zpHdr + (a - (zp + zpHdr))) else m₁ a := by
    refine memcpyS_apply m₁ ?_
    simp only [apart_iff, zpHdr, sizeofHdr] at *
    omega
  -- a field is read back from the write that made it
  have hfield : ∀ b n, (b + n ≤ zpE820Nentries ∨ zpE820Nentries + 1 ≤ b) → b + n ≤ zpEntries →
      readLE (writeLE m₇ (zp + zpE820Nentries) 1 vm.zeropageE820Num) (zp + b) n =
        readLE m₆ (zp + b) n := by
    intro b n hne hle
    rw [readLE_writeLE_of_disjoint (by omega)]
    exact readLE_congr fun a _ hlt => htabout a (.inl (by omega))
  have hsmall : zpE820Nentries = 0x1e8 ∧ zpHdr = 0x1f1 ∧ sizeofHdr = 0x77 ∧ zpVersion = 0x206 ∧
      zpLoaderType = 0x210 ∧ zpLoadFlags = 0x211 ∧ zpBootargsAddr = 0x228 ∧ zpEntries = 0x2d0 ∧
      sizeofE820Entry = 20 ∧ mem4K.toNat = 4096 := ⟨rfl, rfl, rfl, rfl, rfl, rfl, rfl, rfl, rfl, rfl⟩
  have hbytes : vm.zeropageE820Num * sizeofE820Entry ≤ 640 := Nat.mul_le_mul_right 20 hnum
  refine ⟨fun a ha => ?_, ?_, ?_, ?_, ?_, ?_, ?_, ?_, ?_⟩
  · have hout : ¬ (zp ≤ a ∧ a < zp + 4096) := ha
    rw [hother a (by omega) (by omega) (by omega) (by omega) (by omega) (by omega), hcopy,
      if_neg (by omega), hm₁, memset, if_neg hout]
  · rw [hfield _ _ (by omega) (by omega), hm₆, readLE_writeLE_of_disjoint (by omega), hm₅,
      readLE_writeLE_of_disjoint (by omega), hm₄, readLE_writeLE_of_disjoint (by omega), hm₃,
      readLE_writeLE_self, BitVec.toNat_setWidth]
    exact Nat.mod_mod _ _
  · rw [hfield _ _ (by omega) (by omega), hm₆, readLE_writeLE_of_disjoint (by omega), hm₅,
      readLE_writeLE_of_disjoint (by omega), hm₄, readLE_writeLE_self]
    rfl
  · rw [hfield _ _ (by omega) (by omega), hm₆, readLE_writeLE_of_disjoint (by omega), hm₅,
      readLE_writeLE_self]
    rfl
  · rw [hfield _ _ (by omega) (by omega), hm₆, readLE_writeLE_self]
    rfl
  · intro i hge hlt hloader
    simp only [LoaderField, not_or] at hloader
    have hsrc : kernel + zpHdr + (zp + i - (zp + zpHdr)) = kernel + i := by omega
    rw [hother _ (by omega) (by omega) (by omega) (by omega) (by omega) (by omega), hcopy,
      if_pos (by omega), hsrc, hm₁, memset, if_neg (by omega)]
  · rw [readLE_writeLE_self]
    exact Nat.mod_eq_of_lt (by omega)
  · intro i hi
    have hsrc : ∀ a, ¬ (zp ≤ a ∧ a < zp + 4096) → m₆ a = m a := by
      intro a ha
      rw [hm₆, writeLE_frame (by omega), hm₅, writeLE_frame (by omega), hm₄,
        writeLE_frame (by omega), hm₃, writeLE_frame (by omega), hcopy, if_neg (by omega), hm₁,
        memset, if_neg ha]
    rw [writeLE_frame (by omega), htab.ok i hi]
    exact hsrc _ (by omega)
  · intro i hi hne hout hentries
    rw [hother _ (by omega) (by omega) (by omega) (by omega) (by omega) (by omega), hcopy,
      if_neg (by omega), hm₁, memset, if_pos (by omega)]

/-- The offset of the entry, in 32 bits. -/
theorem kernelEntryOffset_eq (sects : BitVec 8) :
    ((BitVec.ofNat 32 (sects.toNat + 1) * 512#32).setWidth 64 : Word) =
      BitVec.ofNat 64 (512 * (sects.toNat + 1)) := by
  have hbyte := sects.isLt
  apply BitVec.eq_of_toNat_eq
  rw [BitVec.toNat_setWidth, BitVec.toNat_mul]
  simp only [BitVec.toNat_ofNat]
  omega

/-- A bzImage gets its zero page, with RSI pointing there. -/
theorem prepareLoadingBzimage_spec (vm : LoaderVm) (sw : VmSwInfo) (v : BootVcpu) (m : HostMem) :
    let r := vm.prepareLoadingBzimage sw v m
    r.1.kernelInfo.kernelEntryAddr = sw.kernelInfo.kernelLoadAddr +
        BitVec.ofNat 64 (512 * ((m (sw.kernelInfo.kernelSrcAddr + zpHdr)).toNat + 1)) ∧
      r.2.1.gprs cpuRegRsi = sw.bootargsInfo.loadAddr + mem4K ∧
      r.2.1.gdtBase = v.gdtBase ∧ r.2.1.gdtLimit = v.gdtLimit ∧
      r.2.2 = (vm.createZeroPage sw m).2 := by
  refine ⟨?_, ?_, rfl, rfl, rfl⟩
  · rw [← kernelEntryOffset_eq]
    rfl
  · have hgprs : (vm.prepareLoadingBzimage sw v m).2.1.gprs =
        Function.update (fun _ => 0#64) cpuRegRsi (sw.bootargsInfo.loadAddr + mem4K) := rfl
    rw [hgprs, Function.update_self]

/-- An offset leads into a range, modulo `2 ^ 64`, if it is smaller than the range. -/
theorem offset_inside_iff {base size offset : ℕ} (hend : base + size < 2 ^ 64)
    (hoffset : offset < 2 ^ 32) :
    base ≤ (base + offset % 2 ^ 64) % 2 ^ 64 ∧ (base + offset % 2 ^ 64) % 2 ^ 64 < base + size ↔
      offset < size := by
  omega

/-! ## The layout

Each part of the image is a region with its expected content. They are disjoint, so that writing
one after the other leaves all of them in place; this is the library's rule on regions. -/

section

variable (vm) (config : AcrnVmOsConfig) (mbi n : ℕ) (m₀ : HostMem)

/-- Bytes of `init_vgdt`. -/
def initVgdtByte (i : ℕ) : BitVec 8 :=
  BitVec.ofNat 8 (initVgdtEntries.getD (i / 8) 0 / 256 ^ (i % 8))

/-- The kernel at its load address. -/
def kernelRegion (sw : VmSwInfo) : Region (BitVec 8) :=
  .holding (vm.hva sw.kernelInfo.kernelLoadAddr.toNat) sw.kernelInfo.kernelSize.toNat
    fun i => m₀ (sw.kernelInfo.kernelSrcAddr + i)

/-- The arguments with their NUL. -/
def bootargsRegion (sw : VmSwInfo) : Region (BitVec 8) :=
  .holding (vm.hva sw.bootargsInfo.loadAddr.toNat) (n + 1) fun i => m₀ (config.bootargs + i)

/-- The initial descriptor table. -/
def gdtRegion (sw : VmSwInfo) : Region (BitVec 8) :=
  .holding (vm.hva (getGuestGdtBaseGpa sw).toNat) sizeofInitVgdt initVgdtByte

/-- The zero page, with the header of the kernel as it was loaded to `m`. -/
def bootZeroPage (sw : VmSwInfo) (m : HostMem) : Region (BitVec 8) :=
  zeroPageRegion vm.zeropageE820Num
    (fun i => m (vm.hva sw.kernelInfo.kernelLoadAddr.toNat + i))
    (fun i => m₀ (vm.e820Entries + i)) (sw.bootargsInfo.loadAddr.toNat % 2 ^ 32)
    (vm.hva (sw.bootargsInfo.loadAddr.toNat + 4096)) zeropageE820Num_le

/-- The parts of the boot image, in the order in which they are written. -/
def bootRegions (sw : VmSwInfo) (m : HostMem) : List (Region (BitVec 8)) :=
  [vm.gdtRegion sw, vm.kernelRegion m₀ sw] ++
    (if n = 0 then [] else [vm.bootargsRegion config n m₀ sw]) ++
    match config.kernelType with
    | .bzimage => [vm.bootZeroPage m₀ sw m]
    | .zephyr => []

theorem bootRegions_sublist (sw : VmSwInfo) (m : HostMem) :
    (vm.bootRegions config n m₀ sw m).Sublist
      [vm.gdtRegion sw, vm.kernelRegion m₀ sw, vm.bootargsRegion config n m₀ sw,
        vm.bootZeroPage m₀ sw m] := by
  rw [bootRegions]
  show List.Sublist (_ ++ _) ([vm.gdtRegion sw, vm.kernelRegion m₀ sw,
    vm.bootargsRegion config n m₀ sw] ++ [vm.bootZeroPage m₀ sw m])
  refine List.Sublist.append ?_ ?_
  · split
    · exact (List.nil_sublist _).append_left _
    · exact List.Sublist.refl _
  · split
    · exact List.Sublist.refl _
    · exact List.nil_sublist _

/-- What the loader finds. `m₀` is the memory when the VM was created, and only guest memory has
been written until `m`. The kernel has 8 KBytes of RAM below it, and RAM up to the end of the
descriptor table; what is copied lies outside guest memory. -/
structure BootSetting (m : HostMem) : Prop where
  linear : vm.Linear
  same : ∀ a ∉ vm.image, m a = m₀ a
  kernel_src : ∀ i, i < max (initVmBootInfo m₀ mbi config).kernelInfo.kernelSize.toNat
      (zpHdr + sizeofHdr) →
    (initVmBootInfo m₀ mbi config).kernelInfo.kernelSrcAddr + i ∉ vm.image
  bootargs_src : ∀ i ≤ n, config.bootargs + i ∉ vm.image
  vgdt_src : ∀ i < sizeofInitVgdt, vm.initVgdt + i ∉ vm.image
  e820_src : ∀ i < vm.zeropageE820Num * sizeofE820Entry, vm.e820Entries + i ∉ vm.image
  vgdt : ∀ i < sizeofInitVgdt, m₀ (vm.initVgdt + i) = initVgdtByte i
  bootargs : IsString m₀ config.bootargs n
  bootargs_le : n ≤ maxBootargsSize
  below : 8192 ≤ (initVmBootInfo m₀ mbi config).kernelInfo.kernelLoadAddr.toNat
  ram : ∀ g, (initVmBootInfo m₀ mbi config).kernelInfo.kernelLoadAddr.toNat - 8192 ≤ g →
    g < ((initVmBootInfo m₀ mbi config).kernelInfo.kernelLoadAddr.toNat +
      (initVmBootInfo m₀ mbi config).kernelInfo.kernelSize.toNat + 7) / 8 * 8 + 32 →
    g ∈ vm.guestRam

/-- The entry that the image names: behind the boot sector and the setup sectors of a bzImage,
and by the configuration for a raw image. -/
def bootEntry (sw : VmSwInfo) : Word :=
  match config.kernelType with
  | .bzimage => sw.kernelInfo.kernelLoadAddr +
      BitVec.ofNat 64 (512 * ((m₀ (sw.kernelInfo.kernelSrcAddr + zpHdr)).toNat + 1))
  | .zephyr => config.kernelEntryAddr

/-- The entry lies inside the image. -/
def EntryInside (sw : VmSwInfo) : Prop :=
  match config.kernelType with
  | .bzimage => 512 * ((m₀ (sw.kernelInfo.kernelSrcAddr + zpHdr)).toNat + 1) <
      sw.kernelInfo.kernelSize.toNat
  | .zephyr => sw.kernelInfo.kernelLoadAddr.toNat ≤ config.kernelEntryAddr.toNat ∧
      config.kernelEntryAddr.toNat <
        sw.kernelInfo.kernelLoadAddr.toNat + sw.kernelInfo.kernelSize.toNat

end

variable {config : AcrnVmOsConfig} {mbi n : ℕ} {m₀ : HostMem}

/-- Outside guest memory nothing has changed since the creation of the VM. -/
theorem same_of_writes {r : Region (BitVec 8)} (hw : r.Writes m m')
    (hin : ∀ a, r.Covers a → a ∈ vm.image) (h : ∀ a ∉ vm.image, m a = m₀ a) :
    ∀ a ∉ vm.image, m' a = m₀ a := by
  intro a ha
  rw [hw.frame a fun hc => ha (hin a hc), h a ha]

/-- A range of RAM is a range of the image. -/
theorem image_of_ram {b size : ℕ} (h : ∀ i < size, b + i ∈ vm.guestRam) {a : ℕ}
    (hge : vm.hva b ≤ a) (hlt : a < vm.hva b + size) : a ∈ vm.image := by
  refine ⟨b + (a - vm.hva b), h _ (by omega), ?_⟩
  simp only [hva] at *
  omega

/-- A copy into RAM from an address whose content is known. -/
theorem Linear.writes_of_same (h : vm.Linear) (hPtr : ℕ) (gpa : Word) (size : BitVec 32)
    {content : ℕ → BitVec 8} (hram : ∀ i < size.toNat, gpa.toNat + i ∈ vm.guestRam)
    (hsrc : ∀ i < size.toNat, hPtr + i ∉ vm.image) (hsame : ∀ a ∉ vm.image, m a = m₀ a)
    (hcontent : ∀ i < size.toNat, m₀ (hPtr + i) = content i) :
    (Region.holding (vm.hva gpa.toNat) size.toNat content).Writes m (vm.copyIn hPtr gpa size m) ∧
    ∀ a ∉ vm.image, vm.copyIn hPtr gpa size m a = m₀ a := by
  have hw := h.writes_copyIn hram hsrc m
  refine ⟨hw.of_ok (fun _ hc => hc) fun i hi => ?_, ?_⟩
  · exact (hw.ok i hi).trans ((hsame _ (hsrc i hi)).trans (hcontent i hi))
  · exact same_of_writes hw (fun a hc => image_of_ram hram hc.1 hc.2) hsame

namespace BootSetting

variable (h : vm.BootSetting config mbi n m₀ m)
include h

/-- The recorded size of the arguments is their length without the NUL. -/
theorem bootargs_size :
    (initVmBootInfo m₀ mbi config).bootargsInfo.size = BitVec.ofNat 32 n :=
  congrArg (BitVec.ofNat 32) (strnlenS_eq h.bootargs h.bootargs_le)

theorem toNat_bootargs_size : (initVmBootInfo m₀ mbi config).bootargsInfo.size.toNat = n := by
  have hle := h.bootargs_le
  rw [h.bootargs_size, BitVec.toNat_ofNat]
  exact Nat.mod_eq_of_lt (by simp only [maxBootargsSize] at hle; omega)

/-- Without arguments their address is zero, and otherwise 8 KBytes below the kernel. -/
theorem toNat_bootargs_addr : (initVmBootInfo m₀ mbi config).bootargsInfo.loadAddr.toNat =
    if n = 0 then 0
    else (initVmBootInfo m₀ mbi config).kernelInfo.kernelLoadAddr.toNat - 8192 := by
  have hsize := h.toNat_bootargs_size
  have hsize' := h.bootargs_size
  have hbelow := h.below
  have hpos : 0#32 < (initVmBootInfo m₀ mbi config).bootargsInfo.size ↔ n ≠ 0 := by
    rw [BitVec.lt_def, hsize]
    exact Nat.pos_iff_ne_zero
  have haddr : (initVmBootInfo m₀ mbi config).bootargsInfo.loadAddr =
      if 0#32 < (initVmBootInfo m₀ mbi config).bootargsInfo.size then
        (initVmBootInfo m₀ mbi config).kernelInfo.kernelLoadAddr - mem1K * 8#64
      else 0#64 := rfl
  by_cases hn : n = 0
  · rw [haddr, if_neg fun hc => hpos.mp hc hn, if_pos hn, BitVec.toNat_zero]
  · rw [haddr, if_pos (hpos.mpr hn), if_neg hn]
    exact BitVec.toNat_sub_of_le (show mem1K * 8#64 ≤ _ from hbelow)

/-- The descriptor table follows the kernel. -/
theorem toNat_gdt : (getGuestGdtBaseGpa (initVmBootInfo m₀ mbi config)).toNat =
    ((initVmBootInfo m₀ mbi config).kernelInfo.kernelLoadAddr.toNat +
      (initVmBootInfo m₀ mbi config).kernelInfo.kernelSize.toNat + 7) / 8 * 8 := by
  have hargs := h.toNat_bootargs_addr
  have hsize := h.toNat_bootargs_size
  have hle := h.bootargs_le
  have hbelow := h.below
  have hram := h.ram
  set sw := initVmBootInfo m₀ mbi config
  set kernelEnd := sw.kernelInfo.kernelLoadAddr.toNat + sw.kernelInfo.kernelSize.toNat
  have hend : kernelEnd + 7 < 2 ^ 64 := by
    have hlt := h.linear.hva_lt
      (hram ((kernelEnd + 7) / 8 * 8 + 31) (by omega) (Nat.lt_succ_self _))
    rw [hva] at hlt
    omega
  have hkernel : (sw.kernelInfo.kernelLoadAddr + sw.kernelInfo.kernelSize.setWidth 64).toNat =
      kernelEnd := by
    rw [BitVec.toNat_add, BitVec.toNat_setWidth]
    omega
  have hbootargs : (sw.bootargsInfo.loadAddr + sw.bootargsInfo.size.setWidth 64).toNat ≤
      kernelEnd := by
    rw [BitVec.toNat_add, BitVec.toNat_setWidth, hsize, hargs]
    simp only [maxBootargsSize] at hle
    split <;> omega
  have hmask : ~~~(8#64 - 1#64) = BitField.fieldMask 64 3 64 := by decide
  have hmax : ¬ (sw.kernelInfo.kernelLoadAddr + sw.kernelInfo.kernelSize.setWidth 64) <
      sw.bootargsInfo.loadAddr + sw.bootargsInfo.size.setWidth 64 := by
    rw [BitVec.lt_def, hkernel]
    exact Nat.not_lt.mpr hbootargs
  rw [getGuestGdtBaseGpa, if_neg hmax, hmask,
    BitField.toNat_and_fieldMask _ (by decide) le_rfl, BitVec.toNat_add, hkernel]
  simp only [BitVec.toNat_ofNat]
  omega

/-- From below: the arguments, the zero page, the kernel, the descriptor table. -/
theorem ordered :
    (initVmBootInfo m₀ mbi config).bootargsInfo.loadAddr.toNat + 8192 ≤
      (initVmBootInfo m₀ mbi config).kernelInfo.kernelLoadAddr.toNat ∧
    n + 1 ≤ 4096 ∧
    (initVmBootInfo m₀ mbi config).kernelInfo.kernelLoadAddr.toNat +
        (initVmBootInfo m₀ mbi config).kernelInfo.kernelSize.toNat ≤
      (getGuestGdtBaseGpa (initVmBootInfo m₀ mbi config)).toNat := by
  have hargs := h.toNat_bootargs_addr
  have hle := h.bootargs_le
  have hbelow := h.below
  rw [h.toNat_gdt, hargs]
  simp only [maxBootargsSize] at hle
  refine ⟨?_, by omega, by omega⟩
  split <;> omega

/-- The parts of the image share no address. -/
theorem pairwise_apart (m' : HostMem) :
    (vm.bootRegions config n m₀ (initVmBootInfo m₀ mbi config) m').Pairwise Region.Apart := by
  obtain ⟨hargs, hlen, hgdt⟩ := h.ordered
  have hpage : mem4K.toNat = 4096 := rfl
  refine List.Pairwise.sublist (bootRegions_sublist ..) ?_
  simp only [List.pairwise_cons, List.mem_cons, List.not_mem_nil, or_false, forall_eq_or_imp,
    forall_eq, false_imp_iff, implies_true, List.Pairwise.nil, and_true, Region.Apart, apart_iff,
    gdtRegion, kernelRegion, bootargsRegion, bootZeroPage, zeroPageRegion, Region.holding, hva]
  refine ⟨⟨?_, ?_, ?_⟩, ⟨?_, ?_⟩, ?_⟩ <;> omega

theorem ram_kernel : ∀ i < (initVmBootInfo m₀ mbi config).kernelInfo.kernelSize.toNat,
    (initVmBootInfo m₀ mbi config).kernelInfo.kernelLoadAddr.toNat + i ∈ vm.guestRam := by
  intro i hi
  exact h.ram _ (by omega) (by omega)

theorem ram_gdt : ∀ i < sizeofInitVgdt,
    (getGuestGdtBaseGpa (initVmBootInfo m₀ mbi config)).toNat + i ∈ vm.guestRam := by
  intro i hi
  rw [h.toNat_gdt]
  simp only [sizeofInitVgdt] at hi
  exact h.ram _ (by omega) (by omega)

theorem ram_bootargs (hn : n ≠ 0) : ∀ i < n + 1,
    (initVmBootInfo m₀ mbi config).bootargsInfo.loadAddr.toNat + i ∈ vm.guestRam := by
  obtain ⟨hargs, hlen, -⟩ := h.ordered
  have haddr := h.toNat_bootargs_addr
  rw [if_neg hn] at haddr
  intro i hi
  exact h.ram _ (by omega) (by omega)

/-- Without arguments the zero page goes to the second page of the guest, which is RAM in every
E820. -/
theorem ram_zeroPage : ∀ i < 4096,
    (initVmBootInfo m₀ mbi config).bootargsInfo.loadAddr.toNat + 4096 + i ∈ vm.guestRam := by
  obtain ⟨hargs, -, -⟩ := h.ordered
  have haddr := h.toNat_bootargs_addr
  intro i hi
  by_cases hn : n = 0
  · rw [if_pos hn] at haddr
    exact mem_guestRam_of_lt (by omega)
  · rw [if_neg hn] at haddr
    exact h.ram _ (by omega) (by omega)

/-- All parts lie in RAM. -/
theorem mem_image (m' : HostMem) :
    ∀ r ∈ vm.bootRegions config n m₀ (initVmBootInfo m₀ mbi config) m',
      ∀ a, r.Covers a → a ∈ vm.image := by
  intro r hr a ⟨hge, hlt⟩
  simp only [bootRegions, List.mem_append, List.mem_cons, List.not_mem_nil, or_false] at hr
  rcases hr with ((rfl | rfl) | hr) | hr
  · exact image_of_ram h.ram_gdt hge hlt
  · exact image_of_ram h.ram_kernel hge hlt
  · split at hr
    · exact absurd hr List.not_mem_nil
    · next hn =>
      obtain rfl := List.mem_singleton.mp hr
      exact image_of_ram (h.ram_bootargs hn) hge hlt
  · split at hr
    · obtain rfl := List.mem_singleton.mp hr
      exact image_of_ram h.ram_zeroPage hge hlt
    · exact absurd hr List.not_mem_nil

/-! ### The run of the loader

The loader copies from the modules and the arguments that the boot loader left. These lie outside
of guest memory, so they are unchanged when their turn comes. -/

/-- The descriptor table and the kernel are copied first. -/
theorem writes_gdt :
    (vm.gdtRegion (initVmBootInfo m₀ mbi config)).Writes m
      (vm.copyIn vm.initVgdt (getGuestGdtBaseGpa (initVmBootInfo m₀ mbi config))
        (BitVec.ofNat 32 sizeofInitVgdt) m) ∧
    ∀ a ∉ vm.image, vm.copyIn vm.initVgdt (getGuestGdtBaseGpa (initVmBootInfo m₀ mbi config))
      (BitVec.ofNat 32 sizeofInitVgdt) m a = m₀ a :=
  h.linear.writes_of_same _ (getGuestGdtBaseGpa (initVmBootInfo m₀ mbi config))
    (BitVec.ofNat 32 sizeofInitVgdt) h.ram_gdt h.vgdt_src h.same h.vgdt

theorem writes_kernel {m₁ : HostMem} (hsame : ∀ a ∉ vm.image, m₁ a = m₀ a) :
    let kernel := (initVmBootInfo m₀ mbi config).kernelInfo
    (vm.kernelRegion m₀ (initVmBootInfo m₀ mbi config)).Writes m₁
      (vm.copyIn kernel.kernelSrcAddr kernel.kernelLoadAddr kernel.kernelSize m₁) ∧
    ∀ a ∉ vm.image,
      vm.copyIn kernel.kernelSrcAddr kernel.kernelLoadAddr kernel.kernelSize m₁ a = m₀ a :=
  h.linear.writes_of_same _ _ _ h.ram_kernel
    (fun i hi => h.kernel_src i (lt_max_of_lt_left hi)) hsame fun _ _ => rfl

/-- The arguments are copied with their NUL. -/
theorem writes_bootargs {m₂ : HostMem} (hsame : ∀ a ∉ vm.image, m₂ a = m₀ a) :
    let args := (initVmBootInfo m₀ mbi config).bootargsInfo
    let m₃ := if args.size ≠ 0#32 then
        vm.copyIn args.srcAddr args.loadAddr
          (BitVec.ofNat 32 (strnlenS m₂ args.srcAddr maxBootargsSize + 1)) m₂
      else m₂
    Regions.Filled (if n = 0 then []
      else [vm.bootargsRegion config n m₀ (initVmBootInfo m₀ mbi config)]) m₂ m₃ ∧
    ∀ a ∉ vm.image, m₃ a = m₀ a := by
  intro args m₃
  have hsize : args.size.toNat = n := h.toNat_bootargs_size
  have hle := h.bootargs_le
  have hne : args.size ≠ 0#32 ↔ n ≠ 0 := by
    rw [← hsize, ne_eq, ne_eq, BitVec.toNat_eq]
    rfl
  by_cases hn : n = 0
  · have hm₃ : m₃ = m₂ := if_neg fun hc => hne.mp hc hn
    rw [hm₃, if_pos hn]
    exact ⟨.nil m₂, hsame⟩
  have hstring : IsString m₂ config.bootargs n := by
    refine ⟨fun i hi => ?_, ?_⟩
    · rw [hsame _ (h.bootargs_src i hi.le)]
      exact h.bootargs.1 i hi
    · rw [hsame _ (h.bootargs_src n le_rfl)]
      exact h.bootargs.2
  have hlen : (BitVec.ofNat 32 (n + 1)).toNat = n + 1 := by
    simp only [maxBootargsSize] at hle
    rw [BitVec.toNat_ofNat]
    omega
  have hm₃ : m₃ = vm.copyIn config.bootargs args.loadAddr (BitVec.ofNat 32 (n + 1)) m₂ := by
    have hsrc : args.srcAddr = config.bootargs := rfl
    rw [show m₃ = _ from if_pos (hne.mpr hn), hsrc, strnlenS_eq hstring hle]
  have hw := h.linear.writes_of_same config.bootargs args.loadAddr (BitVec.ofNat 32 (n + 1))
    (hlen.symm ▸ h.ram_bootargs hn)
    (fun i hi => h.bootargs_src i (by omega)) hsame fun _ _ => rfl
  rw [hlen] at hw
  rw [hm₃, if_neg hn]
  exact ⟨.cons hw.1 (.nil _), hw.2⟩

/-- The zero page is written last. -/
theorem writes_zeroPage {m₃ : HostMem} (hsame : ∀ a ∉ vm.image, m₃ a = m₀ a) :
    (vm.bootZeroPage m₀ (initVmBootInfo m₀ mbi config) m₃).Writes m₃
      (vm.createZeroPage (initVmBootInfo m₀ mbi config) m₃).2 := by
  obtain ⟨hargs, -, -⟩ := h.ordered
  have hram := h.ram_zeroPage
  have hkernel := h.ram (initVmBootInfo m₀ mbi config).kernelInfo.kernelLoadAddr.toNat
    (Nat.sub_le ..) (by omega)
  set sw := initVmBootInfo m₀ mbi config
  have hgpa : (sw.bootargsInfo.loadAddr + mem4K).toNat =
      sw.bootargsInfo.loadAddr.toNat + 4096 := by
    have hlt := sw.kernelInfo.kernelLoadAddr.isLt
    rw [BitVec.toNat_add]
    exact Nat.mod_eq_of_lt (show _ + 4096 < 2 ^ 64 by omega)
  have hzp : vm.gpa2hva (sw.bootargsInfo.loadAddr + mem4K) =
      vm.hva (sw.bootargsInfo.loadAddr.toNat + 4096) := by
    rw [h.linear.gpa2hva_eq (hgpa ▸ hram 0 (by decide)), hgpa]
  have hhdr : ByteMem.Apart (vm.hva (sw.bootargsInfo.loadAddr.toNat + 4096)) 4096
      (vm.hva sw.kernelInfo.kernelLoadAddr.toNat + zpHdr) sizeofHdr := by
    rw [apart_iff, hva, hva]
    omega
  have htable : ByteMem.Apart (vm.hva (sw.bootargsInfo.loadAddr.toNat + 4096)) 4096
      vm.e820Entries (vm.zeropageE820Num * sizeofE820Entry) := by
    rintro a ⟨⟨hge, hlt⟩, hge', hlt'⟩
    have hout := h.e820_src (a - vm.e820Entries) (by omega)
    rw [Nat.add_sub_cancel' hge'] at hout
    exact hout (image_of_ram hram hge hlt)
  have hw := writes_createZeroPage m₃ hzp (h.linear.gpa2hva_eq hkernel) hhdr htable
  refine hw.of_ok (fun _ hc => hc) (hw.ok.congr (fun _ _ _ => rfl) fun i hi => ?_)
  exact hsame _ (h.e820_src i hi)

/-- The three copies come first, and the kind of the kernel says what follows. -/
theorem directBootSwLoader_copies (vcpu : BootVcpu) :
    let sw := initVmBootInfo m₀ mbi config
    ∃ m₃ v, Regions.Filled ([vm.gdtRegion sw, vm.kernelRegion m₀ sw] ++
        if n = 0 then [] else [vm.bootargsRegion config n m₀ sw]) m m₃ ∧
      (∀ a ∉ vm.image, m₃ a = m₀ a) ∧
      v.gdtBase = getGuestGdtBaseGpa sw ∧ v.gdtLimit = BitVec.ofNat 32 sizeofInitVgdt - 1#32 ∧
      vm.directBootSwLoader config sw vcpu m =
        let (sw, v, m) :=
          match config.kernelType with
          | .bzimage => vm.prepareLoadingBzimage sw v m₃
          | .zephyr => (prepareLoadingRawimage config sw, v, m₃)
        (sw, { v with rip := sw.kernelInfo.kernelEntryAddr }, m) := by
  intro sw
  obtain ⟨hgdt, hsame₁⟩ := h.writes_gdt
  obtain ⟨hkernel, hsame₂⟩ := h.writes_kernel hsame₁
  obtain ⟨hargs, hsame₃⟩ := h.writes_bootargs hsame₂
  exact ⟨_, (vm.initVcpuProtectModeRegs (getGuestGdtBaseGpa sw) vcpu m).1,
    (Regions.Filled.cons hgdt (.cons hkernel (.nil _))).append hargs, hsame₃, rfl, rfl, rfl⟩

/-- **The loader** writes the parts of the image one after the other, and sets the registers of
the boot vCPU. -/
theorem directBootSwLoader_spec (vcpu : BootVcpu) :
    let sw := initVmBootInfo m₀ mbi config
    let r := vm.directBootSwLoader config sw vcpu m
    (∃ m₃, Regions.Filled (vm.bootRegions config n m₀ sw m₃) m r.2.2 ∧
      (config.kernelType = .bzimage →
        (vm.bootZeroPage m₀ sw m₃).Writes m₃ r.2.2 ∧
        r.2.1.gprs cpuRegRsi = sw.bootargsInfo.loadAddr + mem4K)) ∧
    r.2.1.gdtBase = getGuestGdtBaseGpa sw ∧ r.2.1.gdtLimit = BitVec.ofNat 32 sizeofInitVgdt - 1#32 ∧
    r.2.1.rip = bootEntry config m₀ sw := by
  intro sw r
  obtain ⟨m₃, v, hfilled, hsame, hbase, hlimit, hr⟩ := h.directBootSwLoader_copies vcpu
  have hr : r = _ := hr
  rw [hr]
  simp only [bootRegions, bootEntry]
  cases config.kernelType with
  | bzimage =>
    have hzero := h.writes_zeroPage hsame
    have hsetup := hsame _ (h.kernel_src zpHdr (lt_max_of_lt_right (by decide)))
    obtain ⟨hentry, hrsi, hbase', hlimit', hmem⟩ := prepareLoadingBzimage_spec vm sw v m₃
    rw [hsetup] at hentry
    rw [← hmem] at hzero
    exact ⟨⟨m₃, hfilled.append (.cons hzero (.nil _)), fun _ => ⟨hzero, hrsi⟩⟩,
      hbase'.trans hbase, hlimit'.trans hlimit, hentry⟩
  | zephyr =>
    refine ⟨⟨m₃, ?_, fun hc => absurd hc (by simp)⟩, hbase, hlimit, rfl⟩
    rw [List.append_nil]
    exact hfilled

/-- Every part of the image is in place when the boot vCPU starts. -/
theorem regions_ok (vcpu : BootVcpu) :
    let sw := initVmBootInfo m₀ mbi config
    let r := vm.directBootSwLoader config sw vcpu m
    ∀ x ∈ vm.bootRegions config n m₀ sw r.2.2, x.Ok r.2.2 := by
  intro sw r x hx
  obtain ⟨⟨m₃, hfilled, hzero⟩, -⟩ := h.directBootSwLoader_spec vcpu
  have hok := hfilled.ok (h.pairwise_apart m₃)
  have hargs : sw.bootargsInfo.loadAddr.toNat + 8192 ≤ sw.kernelInfo.kernelLoadAddr.toNat :=
    h.ordered.1
  simp only [bootRegions, List.mem_append] at hx
  rcases hx with hx | hx
  · exact hok x (List.mem_append_left _ (List.mem_append.mpr hx))
  · cases hkind : config.kernelType with
    | zephyr =>
      rw [hkind] at hx
      exact absurd hx List.not_mem_nil
    | bzimage =>
      rw [hkind] at hx
      obtain rfl := List.mem_singleton.mp hx
      obtain ⟨hw, -⟩ := hzero hkind
      -- the header was read from the kernel, which the zero page does not touch
      refine ZeroPage.congr hw.ok (fun i _ _ => ?_) fun _ _ => rfl
      refine (hw.frame _ fun hc => ?_).symm
      obtain ⟨hge, hlt⟩ : vm.hva (sw.bootargsInfo.loadAddr.toNat + 4096) ≤
            vm.hva sw.kernelInfo.kernelLoadAddr.toNat + i ∧
          vm.hva sw.kernelInfo.kernelLoadAddr.toNat + i <
            vm.hva (sw.bootargsInfo.loadAddr.toNat + 4096) + 4096 := hc
      rw [hva, hva] at hlt
      omega

/-- The pointer in the zero page has 32 bits. -/
theorem zeroPage_pointer (hkind : config.kernelType = .bzimage) (vcpu : BootVcpu) :
    let sw := initVmBootInfo m₀ mbi config
    readLE (vm.directBootSwLoader config sw vcpu m).2.2
        (vm.hva (sw.bootargsInfo.loadAddr.toNat + 4096) + zpBootargsAddr) 4 =
      sw.bootargsInfo.loadAddr.toNat % 2 ^ 32 := by
  intro sw
  have hok : ZeroPage _ _ _ _ _ _ := h.regions_ok vcpu (vm.bootZeroPage m₀ sw _) (by
    rw [bootRegions, hkind]
    exact List.mem_append_right _ List.mem_cons_self)
  exact hok.bootargs_addr

theorem rip_inside_iff :
    let kernel := (initVmBootInfo m₀ mbi config).kernelInfo
    let rip := (bootEntry config m₀ (initVmBootInfo m₀ mbi config)).toNat
    (kernel.kernelLoadAddr.toNat ≤ rip ∧
        rip < kernel.kernelLoadAddr.toNat + kernel.kernelSize.toNat) ↔
      EntryInside config m₀ (initVmBootInfo m₀ mbi config) := by
  intro kernel rip
  have hend : kernel.kernelLoadAddr.toNat + kernel.kernelSize.toNat < 2 ^ 64 := by
    have hgdt : kernel.kernelLoadAddr.toNat + kernel.kernelSize.toNat ≤ _ := h.ordered.2.2
    have hlt := h.linear.hva_lt (h.ram_gdt 0 (by decide))
    rw [hva] at hlt
    omega
  simp only [rip, bootEntry, EntryInside]
  cases config.kernelType with
  | zephyr => exact Iff.rfl
  | bzimage =>
    have hbyte := (m₀ (kernel.kernelSrcAddr + zpHdr)).isLt
    rw [BitVec.toNat_add, BitVec.toNat_ofNat]
    exact offset_inside_iff hend (by omega)

end BootSetting

/-- **The guest boot image** is laid out without overlap. Whatever the kernel, its size and its
load address, if there are 8 KBytes of RAM below it and enough above: the kernel, the arguments,
the zero page of a bzImage and the descriptor table share no address, lie in RAM, and hold what
they should when the boot vCPU starts. The registers lead there; the pointer to the arguments
has 32 bits, and RIP is the entry that the image names, wherever it lies. -/
theorem guest_boot_image_laid_out (h : vm.BootSetting config mbi n m₀ m) (vcpu : BootVcpu) :
    let sw := initVmBootInfo m₀ mbi config
    let kernel := sw.kernelInfo
    let r := vm.directBootSwLoader config sw vcpu m
    (vm.bootRegions config n m₀ sw r.2.2).Pairwise Region.Apart ∧
    (∀ x ∈ vm.bootRegions config n m₀ sw r.2.2,
      (∀ a, x.Covers a → a ∈ vm.image) ∧ x.Ok r.2.2) ∧
    (r.2.1.gdtBase = getGuestGdtBaseGpa sw ∧ r.2.1.gdtLimit.toNat + 1 = sizeofInitVgdt) ∧
    (config.kernelType = .bzimage →
      r.2.1.gprs cpuRegRsi = sw.bootargsInfo.loadAddr + mem4K ∧
      (sw.bootargsInfo.loadAddr.toNat < 2 ^ 32 →
        readLE r.2.2 (vm.hva (sw.bootargsInfo.loadAddr.toNat + 4096) + zpBootargsAddr) 4 =
          sw.bootargsInfo.loadAddr.toNat)) ∧
    r.2.1.rip = bootEntry config m₀ sw ∧
    (kernel.kernelLoadAddr.toNat ≤ r.2.1.rip.toNat ∧
        r.2.1.rip.toNat < kernel.kernelLoadAddr.toNat + kernel.kernelSize.toNat ↔
      EntryInside config m₀ sw) := by
  intro sw kernel r
  obtain ⟨⟨m₃, -, hbz⟩, hbase, hlimit, hrip⟩ := h.directBootSwLoader_spec vcpu
  refine ⟨h.pairwise_apart _, fun x hx => ⟨h.mem_image _ x hx, h.regions_ok vcpu x hx⟩,
    ⟨hbase, ?_⟩, fun hkind => ⟨(hbz hkind).2, fun hlow => ?_⟩, hrip, ?_⟩
  · rw [hlimit]
    rfl
  · rw [h.zeroPage_pointer hkind vcpu, Nat.mod_eq_of_lt hlow]
  · rw [hrip]
    exact h.rip_inside_iff

end LoaderVm

/-! ### A guest of 8 GBytes -/

/-- Large pages map the guest from 8 GBytes of the host on. -/
def bootSampleEpt : PgMem where
  mem a := if a = 0x1000 then 0x2007#64
    else BitVec.ofNat 64 ((a - 0x2000) / 8 * 2 ^ 30 + 2 ^ 33 + 0x87)
  requests := []

def bootSample : LoaderVm where
  memory := ⟨0x200000000#64, 0x200000000#64⟩
  ops := initEptMemOps uosLayout true false
  nworldEptp := 0x1000
  ept := bootSampleEpt
  e820EntryNum := 3#32
  e820Entries := 0x15000
  initVgdt := 0x14000

/-- What the boot loader left: one module of 1536 bytes, whose header asks for `prefAddr`, and
the arguments of the configuration. -/
def bootSampleMem (prefAddr : ℕ) : HostMem :=
  let m : HostMem := fun a =>
    if 0x14000 ≤ a ∧ a < 0x14020 then LoaderVm.initVgdtByte (a - 0x14000) else 0#8
  let m := writeLE m (0x10000 + 20) 4 1
  let m := writeLE m (0x10000 + 24) 4 0x11000
  let m := writeLE m 0x11000 4 0x100000
  let m := writeLE m 0x11004 4 0x100600
  let m := writeLE m 0x11008 4 0x12000
  let m := writeLE m 0x12000 1 0x6b
  let m := writeLE m 0x12100 1 0x6b
  let m := writeLE m (0x100000 + zpHdr) 1 1
  let m := writeLE m (0x100000 + zpPrefAddr) 8 prefAddr
  writeLE m 0x13000 1 0x71

def bootSampleConfig (kernelType : OsKernelType) : AcrnVmOsConfig where
  kernelType := kernelType
  kernelModTag := 0x12100
  bootargs := 0x13000
  kernelLoadAddr := 0x200000#64
  kernelEntryAddr := 0x0#64

theorem mem_bootSample_ram {g : ℕ} :
    g ∈ bootSample.guestRam ↔ g < 0xF0000 ∨ (0x100000 ≤ g ∧ g < 0x200000000) := by
  have hentries : createPrelaunchedVmE820 bootSample.memory =
      [⟨0x0#64, 0xF0000#64, e820TypeRam⟩, ⟨0xF0000#64, 0x10000#64, e820TypeReserved⟩,
        ⟨0x100000#64, 0x1FFF00000#64, e820TypeRam⟩] := rfl
  have htype : e820TypeReserved ≠ e820TypeRam := by decide
  simp only [LoaderVm.guestRam, hentries, Set.mem_ofPred_eq, List.mem_cons, List.not_mem_nil,
    or_false, exists_eq_or_imp, exists_eq_left, htype, false_and, false_or, true_and, E820Entry.stop]
  simp

/-- The entry of the tables that maps an address. -/
theorem bootSample_lookup {g : ℕ} (hg : g < 2 ^ 33) :
    lookupAddress bootSample.ops bootSample.nworldEptp g bootSample.ept =
      some (0x2000 + 8 * (g / 2 ^ 30), 2 ^ 30) := by
  have hindex : g / 2 ^ 30 < 8 := by omega
  have hpml4 : PageTableLevel.pml4.index g = 0 := by
    simp only [PageTableLevel.index, PageTableLevel.size, PageTableLevel.shift, ptrsPerTable]
    omega
  have hpdpt : PageTableLevel.pdpt.index g = g / 2 ^ 30 := by
    simp only [PageTableLevel.index, PageTableLevel.size, PageTableLevel.shift, ptrsPerTable]
    omega
  have htop : pageVaddr (bootSampleEpt.mem 0x1000) = 0x2000 := by decide
  have hentry : ∀ i < 8, eptPgentryPresent (bootSampleEpt.mem (0x2000 + 8 * i)) ≠ 0#64 ∧
      entryLarge (bootSampleEpt.mem (0x2000 + 8 * i)) ≠ 0#64 := by decide
  obtain ⟨hpresent, hlarge⟩ := hentry _ hindex
  have hpresent' : eptPgentryPresent (bootSampleEpt.mem 0x1000) ≠ 0#64 := by decide
  have hops : bootSample.ops.pgentryPresent = eptPgentryPresent := rfl
  have hbase : bootSample.nworldEptp = 0x1000 := rfl
  have hept : bootSample.ept = bootSampleEpt := rfl
  simp only [lookupAddress, hops, hbase, hept, hpml4, Nat.mul_zero, Nat.add_zero, htop, hpdpt]
  rw [if_neg hpresent', if_neg hpresent, if_pos hlarge]
  rfl

theorem bootSample_linear : bootSample.Linear := by
  intro g hg
  have hlt : g < 2 ^ 33 := by
    have hram := mem_bootSample_ram.mp hg
    omega
  obtain ⟨hpa, hsome, -, hnat⟩ := localGpa2hpa_toNat (bootSample_lookup hlt)
  refine ⟨hpa, hsome, ?_⟩
  have hentry : ∀ i < 8, (bootSampleEpt.mem (0x2000 + 8 * i)).toNat % 2 ^ 52 / 2 ^ 30 = i + 8 := by
    decide
  have hframe := hentry (g / 2 ^ 30) (by omega)
  have hhva : bootSample.hva g = 0x200000000 + g := rfl
  rw [hnat, hhva]
  simp only [bootSample] at *
  omega

/-- The guest memory lies behind everything that is copied. -/
theorem not_mem_bootSample_image {a : ℕ} (ha : a < 0x200000000) : a ∉ bootSample.image := by
  rintro ⟨g, -, rfl⟩
  have hhva : bootSample.hva g = 0x200000000 + g := rfl
  omega

theorem bootSample_setting {config : AcrnVmOsConfig} {m : HostMem}
    (hsrc : (initVmBootInfo m 0x10000 config).kernelInfo.kernelSrcAddr = 0x100000)
    (hsize : (initVmBootInfo m 0x10000 config).kernelInfo.kernelSize.toNat = 0x600)
    (hlow : 0x102000 ≤ (initVmBootInfo m 0x10000 config).kernelInfo.kernelLoadAddr.toNat)
    (hhigh : (initVmBootInfo m 0x10000 config).kernelInfo.kernelLoadAddr.toNat < 0x180000000)
    (hvgdt : ∀ i < sizeofInitVgdt, m (0x14000 + i) = LoaderVm.initVgdtByte i)
    (haddr : config.bootargs = 0x13000) (hargs : IsString m 0x13000 1) :
    bootSample.BootSetting config 0x10000 1 m m where
  linear := bootSample_linear
  same _ _ := rfl
  kernel_src i hi := by
    rw [hsize] at hi
    rw [hsrc]
    exact not_mem_bootSample_image (by simp only [zpHdr, sizeofHdr] at hi; omega)
  bootargs_src i hi := by
    rw [haddr]
    exact not_mem_bootSample_image (by omega)
  vgdt_src i hi := by
    have hvgdt : bootSample.initVgdt = 0x14000 := rfl
    simp only [sizeofInitVgdt] at hi
    exact not_mem_bootSample_image (by omega)
  e820_src i hi := by
    have hentries : bootSample.e820Entries = 0x15000 := rfl
    have hbytes : bootSample.zeropageE820Num * sizeofE820Entry = 60 := rfl
    exact not_mem_bootSample_image (by omega)
  vgdt := hvgdt
  bootargs := haddr ▸ hargs
  bootargs_le := by decide
  below := by omega
  ram g hge hlt := by
    rw [hsize] at hlt
    exact mem_bootSample_ram.mpr (by omega)

/-- The vCPU before the loader. -/
def bootSampleVcpu : BootVcpu :=
  ⟨Vcpu.cleared ⟨0#64, 0#64⟩, 0#64, 0#32, 0#64, 0#32, 0#64, fun _ => 0#64⟩

theorem guest_boot_image_laid_out_sample :
    let config := bootSampleConfig .bzimage
    let sw := initVmBootInfo (bootSampleMem 0x200000) 0x10000 config
    let r := bootSample.directBootSwLoader config sw bootSampleVcpu (bootSampleMem 0x200000)
    readLE r.2.2 (bootSample.hva 0x1FF000 + zpBootargsAddr) 4 = 0x1FE000 ∧
      r.2.1.rip.toNat = 0x200400 ∧ 0x200000 ≤ r.2.1.rip.toNat ∧ r.2.1.rip.toNat < 0x200600 := by
  intro config sw r
  have hsetting : bootSample.BootSetting config 0x10000 1 (bootSampleMem 0x200000)
      (bootSampleMem 0x200000) :=
    bootSample_setting (by decide +kernel) (by decide +kernel) (by decide +kernel)
      (by decide +kernel) (by decide +kernel) rfl ⟨by decide +kernel, by decide +kernel⟩
  obtain ⟨-, -, -, hzero, hrip, -⟩ :=
    LoaderVm.guest_boot_image_laid_out hsetting bootSampleVcpu
  have hargs : sw.bootargsInfo.loadAddr.toNat = 0x1FE000 := by decide +kernel
  have hentry : (LoaderVm.bootEntry config (bootSampleMem 0x200000) sw).toNat = 0x200400 := by
    decide +kernel
  have hptr := (hzero rfl).2 (by rw [hargs]; decide)
  rw [hargs] at hptr
  have hrip' : r.2.1.rip.toNat = 0x200400 := (congrArg BitVec.toNat hrip).trans hentry
  exact ⟨hptr, hrip', by omega, by omega⟩

/-- With the kernel above 4 GBytes the pointer in the zero page leads elsewhere, and a raw image
may be entered outside. -/
theorem guest_boot_image_high :
    (let config := bootSampleConfig .bzimage
     let m := bootSampleMem 0x100004000
     let sw := initVmBootInfo m 0x10000 config
     bootSample.BootSetting config 0x10000 1 m m ∧
      sw.bootargsInfo.loadAddr.toNat = 0x100002000 ∧
      readLE (bootSample.directBootSwLoader config sw bootSampleVcpu m).2.2
        (bootSample.hva 0x100003000 + zpBootargsAddr) 4 = 0x2000) ∧
    (let config := bootSampleConfig .zephyr
     let m := bootSampleMem 0x200000
     let sw := initVmBootInfo m 0x10000 config
     bootSample.BootSetting config 0x10000 1 m m ∧
      sw.kernelInfo.kernelLoadAddr.toNat = 0x200000 ∧
      (bootSample.directBootSwLoader config sw bootSampleVcpu m).2.1.rip = 0x0#64) := by
  constructor
  · intro config m sw
    have hsetting : bootSample.BootSetting config 0x10000 1 m m :=
      bootSample_setting (by decide +kernel) (by decide +kernel) (by decide +kernel)
        (by decide +kernel) (by decide +kernel) rfl ⟨by decide +kernel, by decide +kernel⟩
    have hargs : sw.bootargsInfo.loadAddr.toNat = 0x100002000 := by decide +kernel
    have hptr : readLE (bootSample.directBootSwLoader config sw bootSampleVcpu m).2.2
        (bootSample.hva (sw.bootargsInfo.loadAddr.toNat + 4096) + zpBootargsAddr) 4 =
        sw.bootargsInfo.loadAddr.toNat % 2 ^ 32 := hsetting.zeroPage_pointer rfl bootSampleVcpu
    rw [hargs] at hptr
    exact ⟨hsetting, hargs, hptr⟩
  · intro config m sw
    have hsetting : bootSample.BootSetting config 0x10000 1 m m :=
      bootSample_setting (by decide +kernel) (by decide +kernel) (by decide +kernel)
        (by decide +kernel) (by decide +kernel) rfl ⟨by decide +kernel, by decide +kernel⟩
    obtain ⟨-, -, -, hrip⟩ := hsetting.directBootSwLoader_spec bootSampleVcpu
    exact ⟨hsetting, by decide +kernel, hrip⟩

end Acrn
