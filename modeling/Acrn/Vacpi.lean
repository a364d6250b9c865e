import Acrn.Page
import Mathlib.Algebra.BigOperators.Group.List.Basic
import Mathlib.Algebra.Group.Basic
import Mathlib.Data.BitVec
import Mathlib.Tactic.Abel

/-!
# The ACPI tables of a guest

`vacpi.c`: every VM has a template of its tables. `build_vacpi` fills in the vCPUs and the
checksums and copies the tables to the guest. The template is filled in place, and the checksums
that it got stay there: a template is good for one build. That no more are made is a matter of
the callers.
-/

namespace Acrn

/-! ## Tables

The structures of `acpi.h` with their fields in order, and the template that `vacpi.c` has of them
for each VM. -/

/-- A byte of a table. -/
abbrev AcpiByte : Type := BitVec 8

/-- The bytes of a number, the low one first. -/
def leBytes {w : ℕ} (n : ℕ) (v : BitVec w) : List AcpiByte :=
  (List.range n).map fun i => (v >>> (8 * i)).setWidth 8

/-- The number that some bytes stand for. -/
def ofLeBytes : List AcpiByte → ℕ
  | [] => 0
  | b :: bytes => b.toNat + 256 * ofLeBytes bytes

/-- `struct acpi_table_header`. -/
structure AcpiTableHeader where
  signature : Vector AcpiByte 4
  length : BitVec 32
  revision : AcpiByte
  checksum : AcpiByte
  oemId : Vector AcpiByte 6
  oemTableId : Vector AcpiByte 8
  oemRevision : BitVec 32
  aslCompilerId : Vector AcpiByte 4
  aslCompilerRevision : BitVec 32

/-- `struct acpi_table_rsdp`. -/
structure AcpiTableRsdp where
  signature : Vector AcpiByte 8
  checksum : AcpiByte
  oemId : Vector AcpiByte 6
  revision : AcpiByte
  rsdtPhysicalAddress : BitVec 32
  length : BitVec 32
  xsdtPhysicalAddress : BitVec 64
  extendedChecksum : AcpiByte
  reserved : Vector AcpiByte 3

/-- `struct acpi_table_xsdt`. -/
structure AcpiTableXsdt where
  header : AcpiTableHeader
  tableOffsetEntry : BitVec 64

/-- `struct acpi_table_madt`. -/
structure AcpiTableMadt where
  header : AcpiTableHeader
  address : BitVec 32
  flags : BitVec 32

/-- `struct acpi_madt_local_apic`, with its `struct acpi_subtable_header`. -/
structure AcpiMadtLocalApic where
  type : AcpiByte
  length : AcpiByte
  processorId : AcpiByte
  id : AcpiByte
  lapicFlags : BitVec 32

/-- `struct acpi_table_info`. -/
structure AcpiTableInfo where
  rsdp : AcpiTableRsdp
  xsdt : AcpiTableXsdt
  madt : AcpiTableMadt
  lapicArray : Vector AcpiMadtLocalApic maxPcpuNum

/-! ### Tables in memory

All structures are packed. The bytes before a checksum and those behind it are named. -/

namespace AcpiTableHeader

variable (header : AcpiTableHeader)

def front : List AcpiByte :=
  header.signature.toList ++ leBytes 4 header.length ++ [header.revision]

def back : List AcpiByte :=
  header.oemId.toList ++ header.oemTableId.toList ++ leBytes 4 header.oemRevision ++
    header.aslCompilerId.toList ++ leBytes 4 header.aslCompilerRevision

def bytes : List AcpiByte := header.front ++ header.checksum :: header.back

end AcpiTableHeader

namespace AcpiTableRsdp

variable (rsdp : AcpiTableRsdp)

/-- From behind the checksum to the end of the first version of the table. -/
def middle : List AcpiByte :=
  rsdp.oemId.toList ++ [rsdp.revision] ++ leBytes 4 rsdp.rsdtPhysicalAddress

/-- From there to the extended checksum. -/
def extension : List AcpiByte := leBytes 4 rsdp.length ++ leBytes 8 rsdp.xsdtPhysicalAddress

/-- The part that the first checksum is about. -/
def head : List AcpiByte := rsdp.signature.toList ++ rsdp.checksum :: rsdp.middle

def bytes : List AcpiByte :=
  rsdp.head ++ rsdp.extension ++ rsdp.extendedChecksum :: rsdp.reserved.toList

end AcpiTableRsdp

def AcpiTableXsdt.bytes (xsdt : AcpiTableXsdt) : List AcpiByte :=
  xsdt.header.bytes ++ leBytes 8 xsdt.tableOffsetEntry

def AcpiTableMadt.bytes (madt : AcpiTableMadt) : List AcpiByte :=
  madt.header.bytes ++ leBytes 4 madt.address ++ leBytes 4 madt.flags

def AcpiMadtLocalApic.bytes (lapic : AcpiMadtLocalApic) : List AcpiByte :=
  [lapic.type, lapic.length, lapic.processorId, lapic.id] ++ leBytes 4 lapic.lapicFlags

/-- The MADT with the array behind it. -/
def AcpiTableInfo.madtBytes (info : AcpiTableInfo) : List AcpiByte :=
  info.madt.bytes ++ info.lapicArray.toList.flatMap AcpiMadtLocalApic.bytes

/-! ### Constants -/

/-- `ACPI_RSDP_CHECKSUM_LENGTH`. -/
def acpiRsdpChecksumLength : ℕ := 20
/-- `ACPI_RSDP_XCHECKSUM_LENGTH`. -/
def acpiRsdpXchecksumLength : ℕ := 36
/-- `sizeof(struct acpi_table_header)`. -/
def sizeofAcpiTableHeader : ℕ := 36
/-- `sizeof(struct acpi_table_madt)`. -/
def sizeofAcpiTableMadt : ℕ := 44
/-- `sizeof(struct acpi_madt_local_apic)`. -/
def sizeofAcpiMadtLocalApic : ℕ := 8
/-- `ACPI_RSDP_ADDR`. -/
def acpiRsdpAddr : BitVec 64 := 0xf2400#64
/-- `ACPI_XSDT_ADDR`. -/
def acpiXsdtAddr : BitVec 64 := 0xf2480#64
/-- `ACPI_MADT_ADDR`. -/
def acpiMadtAddr : BitVec 64 := 0xf2500#64
/-- `ACPI_MADT_TYPE_LOCAL_APIC`. -/
def acpiMadtTypeLocalApic : AcpiByte := 0#8

/-- `ACPI_SIG_RSDP`. -/
def acpiSigRsdp : Vector AcpiByte 8 := #v[0x52, 0x53, 0x44, 0x20, 0x50, 0x54, 0x52, 0x20]
/-- `ACPI_SIG_XSDT`. -/
def acpiSigXsdt : Vector AcpiByte 4 := #v[0x58, 0x53, 0x44, 0x54]
/-- `ACPI_SIG_MADT`. -/
def acpiSigMadt : Vector AcpiByte 4 := #v[0x41, 0x50, 0x49, 0x43]
/-- `ACPI_OEM_ID`. -/
def acpiOemId : Vector AcpiByte 6 := #v[0x41, 0x43, 0x52, 0x4e, 0x20, 0x20]
/-- "VIRTNUC7". -/
def acpiOemTableId : Vector AcpiByte 8 := #v[0x56, 0x49, 0x52, 0x54, 0x4e, 0x55, 0x43, 0x37]
/-- `ACPI_ASL_COMPILER_ID`. -/
def acpiAslCompilerId : Vector AcpiByte 4 := #v[0x49, 0x4e, 0x54, 0x4c]
/-- `ACPI_ASL_COMPILER_VERSION`. -/
def acpiAslCompilerVersion : BitVec 32 := 0x0#32

/-- An element of `acpi_table_template`. What the source leaves out is zero. -/
def acpiTableTemplate : AcpiTableInfo where
  rsdp := {
    signature := acpiSigRsdp
    checksum := 0#8
    oemId := acpiOemId
    revision := 0x2#8
    rsdtPhysicalAddress := 0#32
    length := BitVec.ofNat 32 acpiRsdpXchecksumLength
    xsdtPhysicalAddress := acpiXsdtAddr
    extendedChecksum := 0#8
    reserved := #v[0, 0, 0] }
  xsdt := {
    header := {
      signature := acpiSigXsdt
      length := BitVec.ofNat 32 (sizeofAcpiTableHeader + 8)
      revision := 0x1#8
      checksum := 0#8
      oemId := acpiOemId
      oemTableId := acpiOemTableId
      oemRevision := 0x1#32
      aslCompilerId := acpiAslCompilerId
      aslCompilerRevision := acpiAslCompilerVersion }
    tableOffsetEntry := acpiMadtAddr }
  madt := {
    header := {
      signature := acpiSigMadt
      length := 0#32
      revision := 0x4#8
      checksum := 0#8
      oemId := acpiOemId
      oemTableId := acpiOemTableId
      oemRevision := 0x1#32
      aslCompilerId := acpiAslCompilerId
      aslCompilerRevision := acpiAslCompilerVersion }
    address := 0xFEE00000#32
    flags := 0x0#32 }
  lapicArray := Vector.replicate maxPcpuNum {
    type := acpiMadtTypeLocalApic
    length := BitVec.ofNat 8 sizeofAcpiMadtLocalApic
    processorId := 0#8
    id := 0#8
    lapicFlags := 0x1#32 }

/-! ## `build_vacpi` -/

/-- `calculate_checksum8`. -/
def calculateChecksum8 (buf : List AcpiByte) (length : ℕ) : AcpiByte :=
  let sum := (buf.take length).foldl (· + ·) 0#8
  (0x100#32 - sum.setWidth 32).setWidth 8

/-- What is copied to the guest: to `ACPI_RSDP_ADDR`, `ACPI_XSDT_ADDR` and `ACPI_MADT_ADDR`. -/
structure AcpiImage where
  rsdp : List AcpiByte
  xsdt : List AcpiByte
  madt : List AcpiByte

/-- `build_vacpi` on the template of the VM. The loop goes over the created vCPUs. -/
def buildVacpi (template : AcpiTableInfo) (createdVcpus : ℕ) : AcpiTableInfo × AcpiImage :=
  let rsdp := template.rsdp
  let rsdp := { rsdp with checksum := calculateChecksum8 rsdp.bytes acpiRsdpChecksumLength }
  let rsdp := { rsdp with
    extendedChecksum := calculateChecksum8 rsdp.bytes acpiRsdpXchecksumLength }
  let xsdt := template.xsdt
  let xsdt := { xsdt with
    header.checksum := calculateChecksum8 xsdt.bytes xsdt.header.length.toNat }
  let lapicArray := template.lapicArray.mapIdx fun i lapic =>
    if i < createdVcpus then
      { lapic with processorId := BitVec.ofNat 8 i, id := BitVec.ofNat 8 i }
    else lapic
  let madt := { template.madt with
    header.length :=
      BitVec.ofNat 32 (sizeofAcpiTableMadt + sizeofAcpiMadtLocalApic * createdVcpus) }
  let info : AcpiTableInfo := { rsdp, xsdt, madt, lapicArray }
  let madt := { madt with
    header.checksum := calculateChecksum8 info.madtBytes madt.header.length.toNat }
  let info := { info with madt }
  (info, {
    rsdp := rsdp.bytes.take acpiRsdpXchecksumLength
    xsdt := xsdt.bytes.take xsdt.header.length.toNat
    madt := info.madtBytes.take madt.header.length.toNat })

/-! ## Sums

One place of a table is filled so that all places add up to zero. If the place still holds an
earlier value when the sum is taken, that value comes out again: the new sum is its opposite. -/

/-- What completes a sum to zero. -/
def complement (l : List AcpiByte) : AcpiByte := -l.sum

/-- **The sum** after the place between `front` and `back` was filled. It is zero if and only if
the place was. -/
theorem sum_complement (front back : List AcpiByte) (old : AcpiByte) :
    (front ++ complement (front ++ old :: back) :: back).sum = -old := by
  simp only [complement, List.sum_append, List.sum_cons]
  abel

theorem calculateChecksum8_eq (buf : List AcpiByte) (length : ℕ) :
    calculateChecksum8 buf length = complement (buf.take length) := by
  have hfold : (buf.take length).foldl (· + ·) 0#8 = (buf.take length).sum :=
    List.sum_eq_foldl.symm
  have hneg : ∀ s : AcpiByte, (0x100#32 - s.setWidth 32).setWidth 8 = -s := by
    intro s
    apply BitVec.eq_of_toNat_eq
    have hs := s.isLt
    simp only [BitVec.toNat_setWidth, BitVec.toNat_sub, BitVec.toNat_neg, BitVec.toNat_ofNat]
    omega
  rw [calculateChecksum8, hfold, hneg, complement]

@[simp] theorem length_leBytes {w : ℕ} (n : ℕ) (v : BitVec w) : (leBytes n v).length = n := by
  rw [leBytes, List.length_map, List.length_range]

theorem leBytes_succ {w : ℕ} (n : ℕ) (v : BitVec w) :
    leBytes (n + 1) v = v.setWidth 8 :: leBytes n (v >>> 8) := by
  rw [leBytes, leBytes, List.range_succ_eq_map, List.map_cons, List.map_map]
  refine congrArg₂ _ (by simp) (List.map_congr_left fun i _ => ?_)
  rw [Function.comp, Nat.mul_succ, Nat.add_comm, BitVec.shiftRight_add]

/-- A number is read back from its bytes. -/
theorem ofLeBytes_leBytes {w : ℕ} (n : ℕ) (v : BitVec w) :
    ofLeBytes (leBytes n v) = v.toNat % 256 ^ n := by
  induction n generalizing v with
  | zero => rw [pow_zero, Nat.mod_one]; rfl
  | succ n ih =>
    have hlow : (v.setWidth 8).toNat = v.toNat % 256 := BitVec.toNat_setWidth ..
    have hhigh : (v >>> 8).toNat = v.toNat / 256 := by
      rw [BitVec.toNat_ushiftRight, Nat.shiftRight_eq_div_pow]
    rw [leBytes_succ, ofLeBytes, ih, hlow, hhigh, pow_succ, Nat.mul_comm (256 ^ n), Nat.mod_mul]

/-! ## Lengths -/

@[simp] theorem AcpiTableRsdp.length_head (rsdp : AcpiTableRsdp) : rsdp.head.length = 20 := by
  simp [head, middle]

@[simp] theorem AcpiTableRsdp.length_bytes (rsdp : AcpiTableRsdp) : rsdp.bytes.length = 36 := by
  simp [bytes, extension]

@[simp] theorem AcpiTableHeader.length_bytes (header : AcpiTableHeader) :
    header.bytes.length = 36 := by
  simp [bytes, front, back]

@[simp] theorem AcpiTableHeader.length_front (header : AcpiTableHeader) :
    header.front.length = 9 := by
  simp [front]

/-- A table around the checksum of its header. -/
theorem AcpiTableHeader.bytes_append (header : AcpiTableHeader) (rest : List AcpiByte) :
    header.bytes ++ rest = header.front ++ header.checksum :: (header.back ++ rest) := by
  rw [bytes, List.append_assoc, List.cons_append]

@[simp] theorem AcpiTableXsdt.length_bytes (xsdt : AcpiTableXsdt) : xsdt.bytes.length = 44 := by
  simp [bytes]

@[simp] theorem AcpiTableMadt.length_bytes (madt : AcpiTableMadt) : madt.bytes.length = 44 := by
  simp [bytes]

@[simp] theorem AcpiMadtLocalApic.length_bytes (lapic : AcpiMadtLocalApic) :
    lapic.bytes.length = 8 := by
  simp [bytes]

@[simp] theorem AcpiTableInfo.length_madtBytes (info : AcpiTableInfo) :
    info.madtBytes.length = 44 + 8 * maxPcpuNum := by
  simp [madtBytes, List.length_flatMap]
  rfl

/-! ## One build

Each table is taken apart around the place of its checksum. The sum is taken with what was in that
place before, so that it comes out right if and only if that was zero. -/

section

variable (template : AcpiTableInfo) (createdVcpus : ℕ)

/-- The RSDP is copied as a whole. -/
theorem buildVacpi_rsdp : (buildVacpi template createdVcpus).2.rsdp =
    (buildVacpi template createdVcpus).1.rsdp.bytes :=
  List.take_of_length_le (AcpiTableRsdp.length_bytes _).le

theorem AcpiTableRsdp.take_head (rsdp : AcpiTableRsdp) : rsdp.bytes.take 20 = rsdp.head := by
  rw [bytes, List.append_assoc]
  exact List.take_left' rsdp.length_head

/-- The first bytes of the RSDP add up to the opposite of the checksum that was there. -/
theorem sum_rsdp_head : ((buildVacpi template createdVcpus).2.rsdp.take 20).sum =
    -template.rsdp.checksum := by
  have hchecksum : (buildVacpi template createdVcpus).1.rsdp.checksum =
      complement template.rsdp.head := by
    rw [← AcpiTableRsdp.take_head]
    exact calculateChecksum8_eq ..
  rw [buildVacpi_rsdp, AcpiTableRsdp.take_head, AcpiTableRsdp.head, hchecksum]
  exact sum_complement template.rsdp.signature.toList template.rsdp.middle template.rsdp.checksum

/-- The whole RSDP likewise: the first checksum is in place when the second is computed. -/
theorem sum_rsdp : (buildVacpi template createdVcpus).2.rsdp.sum =
    -template.rsdp.extendedChecksum := by
  set rsdp := (buildVacpi template createdVcpus).1.rsdp with hrsdp
  have hchecksum : rsdp.extendedChecksum =
      complement (rsdp.head ++ rsdp.extension ++
        template.rsdp.extendedChecksum :: rsdp.reserved.toList) := by
    rw [hrsdp]
    refine (calculateChecksum8_eq ..).trans (congrArg complement ?_)
    exact List.take_of_length_le (AcpiTableRsdp.length_bytes _).le
  rw [buildVacpi_rsdp, ← hrsdp, AcpiTableRsdp.bytes, hchecksum]
  exact sum_complement (rsdp.head ++ rsdp.extension) rsdp.reserved.toList _

/-- A table whose checksum is computed over its stated length, with `old` still in place. -/
theorem sum_take_checksum {front back : List AcpiByte} {old checksum : AcpiByte} {length : ℕ}
    (hlength : front.length < length)
    (hchecksum : checksum = calculateChecksum8 (front ++ old :: back) length) :
    ((front ++ checksum :: back).take length).sum = -old := by
  obtain ⟨k, rfl⟩ : ∃ k, length = front.length + (k + 1) :=
    ⟨length - front.length - 1, by omega⟩
  have htake : ∀ c : AcpiByte, (front ++ c :: back).take (front.length + (k + 1)) =
      front ++ c :: back.take k := by
    intro c
    rw [List.take_length_add_append, List.take_succ_cons]
  rw [hchecksum, calculateChecksum8_eq, htake, htake]
  exact sum_complement front (back.take k) old

/-- The XSDT, whose stated length is never changed. -/
theorem sum_xsdt (hlength : template.xsdt.header.length = 44#32) :
    (buildVacpi template createdVcpus).2.xsdt.sum = -template.xsdt.header.checksum := by
  have hfront : template.xsdt.header.front.length < template.xsdt.header.length.toNat := by
    rw [hlength, AcpiTableHeader.length_front]
    decide
  have hbytes : template.xsdt.bytes = template.xsdt.header.front ++
      template.xsdt.header.checksum ::
        (template.xsdt.header.back ++ leBytes 8 template.xsdt.tableOffsetEntry) :=
    AcpiTableHeader.bytes_append ..
  refine (congrArg (fun bytes => List.sum (List.take _ bytes))
    (AcpiTableHeader.bytes_append ..)).trans ?_
  exact sum_take_checksum hfront (congrArg (calculateChecksum8 · _) hbytes)

/-- What the MADT states as its length. -/
def madtLength : BitVec 32 :=
  BitVec.ofNat 32 (sizeofAcpiTableMadt + sizeofAcpiMadtLocalApic * createdVcpus)

theorem toNat_madtLength (hcreated : createdVcpus ≤ maxPcpuNum) :
    (madtLength createdVcpus).toNat = 44 + 8 * createdVcpus := by
  rw [madtLength, BitVec.toNat_ofNat]
  simp only [sizeofAcpiTableMadt, sizeofAcpiMadtLocalApic, maxPcpuNum] at *
  omega

theorem AcpiTableInfo.madtBytes_eq (info : AcpiTableInfo) :
    info.madtBytes = info.madt.header.front ++ info.madt.header.checksum ::
      (info.madt.header.back ++ (leBytes 4 info.madt.address ++ (leBytes 4 info.madt.flags ++
        info.lapicArray.toList.flatMap AcpiMadtLocalApic.bytes))) := by
  rw [madtBytes, AcpiTableMadt.bytes, List.append_assoc, List.append_assoc,
    AcpiTableHeader.bytes_append]

/-- The MADT, whose stated length is set before the sum is taken. -/
theorem sum_madt (hcreated : createdVcpus ≤ maxPcpuNum) :
    (buildVacpi template createdVcpus).2.madt.sum = -template.madt.header.checksum := by
  set info := (buildVacpi template createdVcpus).1 with hinfo
  have hfront : info.madt.header.front.length < (madtLength createdVcpus).toNat := by
    rw [AcpiTableHeader.length_front, toNat_madtLength createdVcpus hcreated]
    omega
  have himage : (buildVacpi template createdVcpus).2.madt =
      info.madtBytes.take (madtLength createdVcpus).toNat := rfl
  rw [himage, AcpiTableInfo.madtBytes_eq]
  refine sum_take_checksum hfront ?_
  exact congrArg (calculateChecksum8 · _) (AcpiTableInfo.madtBytes_eq _)

end

/-! ## What a guest expects

What is valid is said of the image in guest memory alone. What a build relies on of the template is
`Inv`, and that no checksum was left there. -/

/-- The length that the header of a table states. -/
def statedLength (table : List AcpiByte) : ℕ := ofLeBytes ((table.drop 4).take 4)

/-- An enabled local APIC, as the MADT lists it. -/
def lapicEntry (i : ℕ) : List AcpiByte :=
  [acpiMadtTypeLocalApic, 8#8, BitVec.ofNat 8 i, BitVec.ofNat 8 i, 1#8, 0#8, 0#8, 0#8]

/-- All checksums are right, and the MADT lists the vCPUs in order. -/
structure AcpiImage.Valid (image : AcpiImage) (createdVcpus : ℕ) : Prop where
  rsdp_length : image.rsdp.length = acpiRsdpXchecksumLength
  rsdp : (image.rsdp.take acpiRsdpChecksumLength).sum = 0
  rsdp_extended : image.rsdp.sum = 0
  xsdt_length : image.xsdt.length = statedLength image.xsdt
  xsdt : image.xsdt.sum = 0
  madt_length : image.madt.length = statedLength image.madt
  madt : image.madt.sum = 0
  lapics : image.madt.drop sizeofAcpiTableMadt = (List.range createdVcpus).flatMap lapicEntry

namespace AcpiTableInfo

/-- No checksum of an earlier build is left. -/
structure NoChecksums (template : AcpiTableInfo) : Prop where
  rsdp : template.rsdp.checksum = 0#8
  rsdp_extended : template.rsdp.extendedChecksum = 0#8
  xsdt : template.xsdt.header.checksum = 0#8
  madt : template.madt.header.checksum = 0#8

/-- What no build changes. -/
structure Inv (template : AcpiTableInfo) : Prop where
  xsdt_length : template.xsdt.header.length = 44#32
  lapics : ∀ i (_ : i < maxPcpuNum), template.lapicArray[i].type = acpiMadtTypeLocalApic ∧
    template.lapicArray[i].length = 8#8 ∧ template.lapicArray[i].lapicFlags = 1#32

end AcpiTableInfo

theorem statedLength_take {table : List AcpiByte} {k : ℕ} (h : 8 ≤ k) :
    statedLength (table.take k) = statedLength table := by
  rw [statedLength, statedLength, List.drop_take, List.take_take, Nat.min_eq_left (by omega)]

theorem AcpiTableHeader.statedLength_append (header : AcpiTableHeader) (rest : List AcpiByte) :
    statedLength (header.bytes ++ rest) = header.length.toNat := by
  have hlength := header.length.isLt
  have hsignature : header.signature.toList.length = 4 := header.signature.length_toList
  rw [bytes_append, front, statedLength, List.append_assoc, List.append_assoc,
    List.drop_left' hsignature, List.take_left' (length_leBytes 4 header.length),
    ofLeBytes_leBytes]
  exact Nat.mod_eq_of_lt hlength

/-- Blocks of one size: so many blocks are so many elements. -/
theorem take_flatMap {α β : Type*} {f : α → List β} {k : ℕ} (h : ∀ a, (f a).length = k)
    (l : List α) (n : ℕ) : (l.flatMap f).take (k * n) = (l.take n).flatMap f := by
  induction l generalizing n with
  | nil => simp
  | cons a l ih =>
    cases n with
    | zero => simp
    | succ n =>
      rw [List.flatMap_cons, List.take_succ_cons, List.flatMap_cons, Nat.mul_succ, Nat.add_comm,
        ← h a, List.take_length_add_append, h a, ih]

variable {template : AcpiTableInfo} {createdVcpus : ℕ}

/-- An element of the array after the loop. -/
theorem buildVacpi_lapic (template : AcpiTableInfo) (createdVcpus : ℕ) {i : ℕ}
    (hi : i < maxPcpuNum) :
    (buildVacpi template createdVcpus).1.lapicArray[i] =
      if i < createdVcpus then
        { template.lapicArray[i] with processorId := BitVec.ofNat 8 i, id := BitVec.ofNat 8 i }
      else template.lapicArray[i] :=
  Vector.getElem_mapIdx ..

theorem AcpiTableInfo.Inv.build (h : template.Inv) :
    (buildVacpi template createdVcpus).1.Inv := by
  refine ⟨h.xsdt_length, fun i hi => ?_⟩
  rw [buildVacpi_lapic template createdVcpus hi]
  split
  · exact h.lapics i hi
  · exact h.lapics i hi

theorem AcpiTableInfo.Inv.init : acpiTableTemplate.Inv := by
  refine ⟨rfl, fun i hi => ?_⟩
  have helem : acpiTableTemplate.lapicArray[i] =
      ⟨acpiMadtTypeLocalApic, 8#8, 0#8, 0#8, 1#32⟩ := Vector.getElem_replicate ..
  rw [helem]
  exact ⟨rfl, rfl, rfl⟩

/-- The array of the MADT after the loop. -/
theorem take_lapicArray (h : template.Inv) (hcreated : createdVcpus ≤ maxPcpuNum) :
    ((buildVacpi template createdVcpus).1.lapicArray.toList.take createdVcpus).flatMap
        AcpiMadtLocalApic.bytes =
      (List.range createdVcpus).flatMap lapicEntry := by
  have hmap : (buildVacpi template createdVcpus).1.lapicArray.toList.take createdVcpus =
      (List.range createdVcpus).map fun i =>
        ⟨acpiMadtTypeLocalApic, 8#8, BitVec.ofNat 8 i, BitVec.ofNat 8 i, 1#32⟩ := by
    apply List.ext_getElem
    · rw [List.length_take, Vector.length_toList, List.length_map, List.length_range]
      exact Nat.min_eq_left hcreated
    · intro i hi hi'
      rw [List.length_map, List.length_range] at hi'
      have hmax : i < maxPcpuNum := hi'.trans_le hcreated
      obtain ⟨htype, hlength, hflags⟩ := h.lapics i hmax
      rw [List.getElem_take, Vector.getElem_toList, buildVacpi_lapic template createdVcpus hmax,
        if_pos hi', List.getElem_map, List.getElem_range]
      simp only [htype, hlength, hflags]
  have hbytes : leBytes 4 1#32 = [1#8, 0#8, 0#8, 0#8] := by decide
  rw [hmap, List.flatMap_map]
  simp only [AcpiMadtLocalApic.bytes, hbytes]
  rfl

/-- The entries of the MADT that are copied. -/
theorem drop_madt (h : template.Inv) (hcreated : createdVcpus ≤ maxPcpuNum) :
    (buildVacpi template createdVcpus).2.madt.drop sizeofAcpiTableMadt =
      (List.range createdVcpus).flatMap lapicEntry := by
  have himage : (buildVacpi template createdVcpus).2.madt =
      (buildVacpi template createdVcpus).1.madtBytes.take (madtLength createdVcpus).toNat := rfl
  rw [himage, toNat_madtLength createdVcpus hcreated, AcpiTableInfo.madtBytes, List.drop_take,
    sizeofAcpiTableMadt, List.drop_left' (AcpiTableMadt.length_bytes _)]
  have hrest : 44 + 8 * createdVcpus - 44 = 8 * createdVcpus := Nat.add_sub_cancel_left ..
  rw [hrest, take_flatMap AcpiMadtLocalApic.length_bytes, take_lapicArray h hcreated]

/-- **A build** is right if and only if the template held no checksum before. -/
theorem buildVacpi_valid_iff (h : template.Inv) (hcreated : createdVcpus ≤ maxPcpuNum) :
    (buildVacpi template createdVcpus).2.Valid createdVcpus ↔ template.NoChecksums := by
  constructor
  · intro hvalid
    have hrsdp := hvalid.rsdp
    have hextended := hvalid.rsdp_extended
    have hxsdt := hvalid.xsdt
    have hmadt := hvalid.madt
    rw [acpiRsdpChecksumLength, sum_rsdp_head, neg_eq_zero] at hrsdp
    rw [sum_rsdp, neg_eq_zero] at hextended
    rw [sum_xsdt _ _ h.xsdt_length, neg_eq_zero] at hxsdt
    rw [sum_madt _ _ hcreated, neg_eq_zero] at hmadt
    exact ⟨hrsdp, hextended, hxsdt, hmadt⟩
  · intro hnone
    have hlength := toNat_madtLength createdVcpus hcreated
    have hxsdt : (buildVacpi template createdVcpus).2.xsdt =
        (buildVacpi template createdVcpus).1.xsdt.bytes := by
      refine List.take_of_length_le (le_of_eq ?_)
      rw [AcpiTableXsdt.length_bytes]
      exact (congrArg BitVec.toNat h.xsdt_length).symm
    have hmadt : (buildVacpi template createdVcpus).2.madt =
        (buildVacpi template createdVcpus).1.madtBytes.take (madtLength createdVcpus).toNat := rfl
    refine ⟨?_, ?_, ?_, ?_, ?_, ?_, ?_, drop_madt h hcreated⟩
    · rw [buildVacpi_rsdp, AcpiTableRsdp.length_bytes, acpiRsdpXchecksumLength]
    · rw [acpiRsdpChecksumLength, sum_rsdp_head, hnone.rsdp]
      rfl
    · rw [sum_rsdp, hnone.rsdp_extended]
      rfl
    · rw [hxsdt, AcpiTableXsdt.length_bytes, AcpiTableXsdt.bytes,
        AcpiTableHeader.statedLength_append]
      exact (congrArg BitVec.toNat h.xsdt_length).symm
    · rw [sum_xsdt _ _ h.xsdt_length, hnone.xsdt]
      rfl
    · rw [hmadt, List.length_take, AcpiTableInfo.length_madtBytes,
        statedLength_take (by rw [hlength]; omega), AcpiTableInfo.madtBytes, AcpiTableMadt.bytes,
        List.append_assoc, List.append_assoc, AcpiTableHeader.statedLength_append]
      have hstated : (buildVacpi template createdVcpus).1.madt.header.length =
          madtLength createdVcpus := rfl
      rw [hstated, hlength]
      omega
    · rw [sum_madt _ _ hcreated, hnone.madt]
      rfl

/-! ## One build and the next

The template that the hypervisor starts with has no checksums yet. After a build it has. -/

theorem acpiTableTemplate_noChecksums : acpiTableTemplate.NoChecksums := ⟨rfl, rfl, rfl, rfl⟩

/-- The first build of a VM is right. -/
theorem buildVacpi_valid_first (hcreated : createdVcpus ≤ maxPcpuNum) :
    (buildVacpi acpiTableTemplate createdVcpus).2.Valid createdVcpus :=
  (buildVacpi_valid_iff .init hcreated).mpr acpiTableTemplate_noChecksums

/-- The first build leaves its checksum in the RSDP. -/
theorem checksum_first_build (createdVcpus : ℕ) :
    (buildVacpi acpiTableTemplate createdVcpus).1.rsdp.checksum = 123#8 := by
  have hchecksum : (buildVacpi acpiTableTemplate createdVcpus).1.rsdp.checksum =
      calculateChecksum8 acpiTableTemplate.rsdp.bytes acpiRsdpChecksumLength := rfl
  rw [hchecksum]
  decide

/-- **A second build** of a VM would not be right, so that its callers have to make only one. -/
theorem buildVacpi_not_valid_second (createdVcpus : ℕ) {createdVcpus' : ℕ}
    (hcreated : createdVcpus' ≤ maxPcpuNum) :
    ¬ (buildVacpi (buildVacpi acpiTableTemplate createdVcpus).1 createdVcpus').2.Valid
      createdVcpus' := by
  rw [buildVacpi_valid_iff AcpiTableInfo.Inv.init.build hcreated]
  intro hnone
  have hchecksum := hnone.rsdp
  rw [checksum_first_build] at hchecksum
  exact absurd hchecksum (by decide)

end Acrn
