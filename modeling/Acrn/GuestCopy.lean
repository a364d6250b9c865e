import Acrn.Lib.Regions
import Acrn.EptWalk

/-!
# Copies between the hypervisor and a guest

`copy_gpa` copies a range of guest-physical addresses piece by piece. Each piece ends where the
page ends that maps its first address, whatever the size of that page, and the copy stops at the
first address that is not mapped. `hpa2hva` is the identity, so the buffer and the guest's pages
are places of one host memory; the tables themselves are not part of it.
-/

namespace Acrn

open BlockLoop BitField PageTableLevel Tiling ByteCopy Regions

/-- The host memory, byte by byte. -/
abbrev HostMem : Type := ℕ → BitVec 8

/-- `memcpy_erms`: `rep movsb`, one byte after the other. -/
def memcpyErms (d s slen : ℕ) (m : HostMem) : HostMem :=
  copyCells (fun i => d + i) (fun i => s + i) slen m

/-- `memcpy_s`. -/
def memcpyS (d dmax s slen : ℕ) (m : HostMem) : HostMem :=
  if slen ≠ 0 ∧ dmax ≠ 0 ∧ slen ≤ dmax then
    if d ≠ s then memcpyErms d s slen m else m
  else m

/-- `memset`. -/
def memset (d : ℕ) (v : BitVec 8) (n : ℕ) (m : HostMem) : HostMem :=
  fun a => if d ≤ a ∧ a < d + n then v else m a

/-- `local_gpa2hpa` with its result `size`. -/
def localGpa2hpaSize (ops : MemoryOps) (pml4Page gpa : ℕ) (s : PgMem) : Option (Word × BitVec 32) :=
  (lookupAddress ops pml4Page gpa s).map fun (pgentry, pgSize) =>
    (((s.mem pgentry &&& ~~~eptPfnHighMask) &&& ~~~(BitVec.ofNat 64 pgSize - 1#64)) |||
      (BitVec.ofNat 64 gpa &&& (BitVec.ofNat 64 pgSize - 1#64)), BitVec.ofNat 32 pgSize)

/-- `local_copy_gpa`: the number of bytes that were copied. -/
def localCopyGpa (ops : MemoryOps) (pml4Page : ℕ) (s : PgMem) (hPtr : ℕ) (gpa : Word)
    (size fixPgSize : BitVec 32) (cpFromVm : Bool) (m : HostMem) : BitVec 32 × HostMem :=
  match localGpa2hpaSize ops pml4Page gpa.toNat s with
  | none => (0#32, m)
  | some (hpa, pgSize) =>
    let pgSize := if fixPgSize ≠ 0#32 then fixPgSize else pgSize
    let offsetInPg := gpa.setWidth 32 &&& (pgSize - 1#32)
    let len := if pgSize - offsetInPg < size then pgSize - offsetInPg else size
    let gPtr := hpa.toNat
    (len, if cpFromVm then memcpyS hPtr len.toNat gPtr len.toNat m
      else memcpyS gPtr len.toNat hPtr len.toNat m)

theorem localCopyGpa_len_le {ops : MemoryOps} {pml4Page : ℕ} {s : PgMem} {hPtr : ℕ} {gpa : Word}
    {size fixPgSize : BitVec 32} {cpFromVm : Bool} {m : HostMem} :
    (localCopyGpa ops pml4Page s hPtr gpa size fixPgSize cpFromVm m).1.toNat ≤ size.toNat := by
  have hmin : ∀ a : BitVec 32, (if a < size then a else size).toNat ≤ size.toNat := by
    intro a
    split
    · next hlt => exact Nat.le_of_lt hlt
    · exact le_rfl
  rw [localCopyGpa]
  split
  · exact Nat.zero_le _
  · exact hmin _

/-- `copy_gpa`. The additions to `gpa` are modulo `2 ^ 64`. -/
def copyGpa (ops : MemoryOps) (pml4Page : ℕ) (s : PgMem) (hPtr : ℕ) (gpa : Word) (size : BitVec 32)
    (cpFromVm : Bool) (m : HostMem) : ℤ × HostMem :=
  if 0#32 < size then
    let r := localCopyGpa ops pml4Page s hPtr gpa size 0#32 cpFromVm m
    if r.1 = 0#32 then (-einval, r.2)
    else copyGpa ops pml4Page s (hPtr + r.1.toNat) (gpa + r.1.setWidth 64) (size - r.1) cpFromVm r.2
  else (0, m)
termination_by size.toNat
decreasing_by
  rename_i hlen
  have hle : r.1.toNat ≤ size.toNat := localCopyGpa_len_le
  have hne : r.1.toNat ≠ 0 := fun h => hlen (BitVec.eq_of_toNat_eq h)
  rw [BitVec.toNat_sub_of_le hle]
  omega

/-- `copy_from_gpa`. -/
def copyFromGpa (ops : MemoryOps) (pml4Page : ℕ) (s : PgMem) (hPtr : ℕ) (gpa : Word)
    (size : BitVec 32) (m : HostMem) : ℤ × HostMem :=
  copyGpa ops pml4Page s hPtr gpa size true m

/-- `copy_to_gpa`, which drops the result of `copy_gpa`. -/
def copyToGpa (ops : MemoryOps) (pml4Page : ℕ) (s : PgMem) (hPtr : ℕ) (gpa : Word)
    (size : BitVec 32) (m : HostMem) : HostMem :=
  (copyGpa ops pml4Page s hPtr gpa size false m).2

variable {ops : MemoryOps} {pml4Page : ℕ} {s : PgMem}

/-! ## Translation inside a page

A piece is translated once, at its first address. That the rest of it is translated alike, and by
the same entry, is what makes a copy of pieces one of bytes. -/

theorem lookupAddress_level {v : ℕ} {c : ℕ × ℕ} (h : lookupAddress ops pml4Page v s = some c) :
    ∃ l : PageTableLevel, l ≠ .pml4 ∧ c.2 = l.size := by
  simp only [lookupAddress] at h
  split_ifs at h <;> obtain rfl := Option.some.inj h
  · exact ⟨.pdpt, by decide, rfl⟩
  · exact ⟨.pd, by decide, rfl⟩
  · exact ⟨.pt, by decide, rfl⟩

/-- The translation of the `i`-th address of a range; the addition is modulo `2 ^ 64`. -/
def hpaAt (ops : MemoryOps) (pml4Page : ℕ) (s : PgMem) (gpa : Word) (i : ℕ) : Option Word :=
  localGpa2hpa ops pml4Page (gpa + BitVec.ofNat 64 i).toNat s

theorem hpaAt_add (gpa : Word) (i j : ℕ) :
    hpaAt ops pml4Page s (gpa + BitVec.ofNat 64 i) j = hpaAt ops pml4Page s gpa (i + j) := by
  rw [hpaAt, hpaAt, BitVec.add_assoc, ← BitVec.ofNat_add]

/-- All addresses from `gpa` to the end of its page have the same entry. -/
theorem lookupAddress_page {gpa : Word} {c : ℕ × ℕ}
    (h : lookupAddress ops pml4Page gpa.toNat s = some c) {i : ℕ} (hi : i < c.2 - gpa.toNat % c.2) :
    lookupAddress ops pml4Page (gpa + BitVec.ofNat 64 i).toNat s = some c := by
  obtain ⟨l, hl, hsize⟩ := lookupAddress_level h
  have hdvd : c.2 ∣ 2 ^ 48 := hsize ▸ pow_dvd_pow 2 ((shift_bounds hl).2.trans (by decide))
  rw [← lookupAddress_mod] at h ⊢
  obtain ⟨a, b, hge, hlt, hle, ⟨rfl, hblock⟩, hsome⟩ :=
    (walkCalls_tiles ops pml4Page s).exists_block (Nat.zero_le _)
      (Nat.mod_lt _ (Nat.two_pow_pos 48)) h
  obtain ⟨k, rfl⟩ := hblock
  have hoff : gpa.toNat % c.2 = gpa.toNat % 2 ^ 48 - c.2 * k := by
    rw [← Nat.mod_mod_of_dvd _ hdvd, ← Nat.sub_mul_mod hge,
      Nat.mod_eq_of_lt (Nat.sub_lt_left_of_lt_add hge hlt)]
  have hnext : (gpa + BitVec.ofNat 64 i).toNat % 2 ^ 48 = gpa.toNat % 2 ^ 48 + i := by
    rw [BitVec.toNat_add, BitVec.toNat_ofNat]
    omega
  rw [hnext]
  exact hsome _ (by omega) (by omega)

/-- The translation of an address whose entry is known. -/
theorem localGpa2hpa_toNat {v : ℕ} {c : ℕ × ℕ} (h : lookupAddress ops pml4Page v s = some c) :
    ∃ hpa, localGpa2hpa ops pml4Page v s = some hpa ∧
      localGpa2hpaSize ops pml4Page v s = some (hpa, BitVec.ofNat 32 c.2) ∧
      hpa.toNat = (s.mem c.1).toNat % 2 ^ 52 / c.2 * c.2 + v % c.2 := by
  obtain ⟨l, hl, hsize⟩ := lookupAddress_level h
  obtain ⟨pge, size⟩ := c
  obtain rfl : size = l.size := hsize
  refine ⟨Leaf.hpa ⟨l, s.mem pge⟩ v, ?_, ?_, Leaf.hpa_toNat hl v⟩
  · rw [localGpa2hpa, h]
    rfl
  · rw [localGpa2hpaSize, h]
    rfl

/-- `INVALID_HPA`. -/
def invalidHpa : Word := 0x10000000000000#64

/-- No translation is the value that stands for none. -/
theorem localGpa2hpa_ne_invalid {v : ℕ} {hpa : Word}
    (h : localGpa2hpa ops pml4Page v s = some hpa) : hpa ≠ invalidHpa := by
  obtain ⟨c, hc, -⟩ := Option.map_eq_some_iff.mp h
  obtain ⟨l, hl, hsize⟩ := lookupAddress_level hc
  obtain ⟨hpa', hsome, -, hnat⟩ := localGpa2hpa_toNat hc
  obtain rfl := Option.some.inj (hsome.symm.trans h)
  have hpos : 0 < c.2 := hsize ▸ Nat.two_pow_pos _
  have hdvd : c.2 ∣ 2 ^ 52 := hsize ▸ pow_dvd_pow 2 ((shift_bounds hl).2.trans (by decide))
  have hlt : (s.mem c.1).toNat % 2 ^ 52 / c.2 * c.2 + v % c.2 < 2 ^ 52 := by
    obtain ⟨k, hk⟩ := hdvd
    have hmod := Nat.mod_lt (s.mem c.1).toNat (Nat.two_pow_pos 52)
    have hframe : (s.mem c.1).toNat % 2 ^ 52 / c.2 < k := Nat.div_lt_of_lt_mul (hk ▸ hmod)
    have hoff := Nat.mod_lt v hpos
    calc (s.mem c.1).toNat % 2 ^ 52 / c.2 * c.2 + v % c.2
        < (s.mem c.1).toNat % 2 ^ 52 / c.2 * c.2 + c.2 := Nat.add_lt_add_left hoff _
      _ = ((s.mem c.1).toNat % 2 ^ 52 / c.2 + 1) * c.2 := (Nat.succ_mul _ _).symm
      _ ≤ k * c.2 := Nat.mul_le_mul_right _ hframe
      _ = 2 ^ 52 := by rw [hk, Nat.mul_comm]
  intro heq
  rw [← hnat, heq] at hlt
  exact absurd hlt (by decide)

/-- To the end of the page the translation goes on byte by byte. -/
theorem hpaAt_page {gpa : Word} {c : ℕ × ℕ} (h : lookupAddress ops pml4Page gpa.toNat s = some c) :
    ∃ hpa, localGpa2hpaSize ops pml4Page gpa.toNat s = some (hpa, BitVec.ofNat 32 c.2) ∧
      ∀ i < c.2 - gpa.toNat % c.2,
        ∃ w, hpaAt ops pml4Page s gpa i = some w ∧ w.toNat = hpa.toNat + i := by
  obtain ⟨hpa, -, hsome, hnat⟩ := localGpa2hpa_toNat h
  obtain ⟨l, hl, hsize⟩ := lookupAddress_level h
  have hdvd : c.2 ∣ 2 ^ 64 := hsize ▸ pow_dvd_pow 2 ((shift_bounds hl).2.trans (by decide))
  refine ⟨hpa, hsome, fun i hi => ?_⟩
  obtain ⟨w, hw, -, hwnat⟩ := localGpa2hpa_toNat (lookupAddress_page h hi)
  refine ⟨w, hw, ?_⟩
  have hmod : (gpa + BitVec.ofNat 64 i).toNat % c.2 = gpa.toNat % c.2 + i := by
    rw [BitVec.toNat_add, BitVec.toNat_ofNat, Nat.add_mod_mod, Nat.mod_mod_of_dvd _ hdvd,
      Nat.add_mod, Nat.mod_eq_of_lt (a := i) (by omega), Nat.mod_eq_of_lt (by omega)]
  rw [hwnat, hnat, hmod, Nat.add_assoc]

/-! ## One piece -/

/-- Where the `i`-th byte of the range lies in the host memory. -/
def guestByte (ops : MemoryOps) (pml4Page : ℕ) (s : PgMem) (gpa : Word) (i : ℕ) : ℕ :=
  ((hpaAt ops pml4Page s gpa i).getD 0#64).toNat

/-- Where the `i`-th byte of a copy goes to. -/
def copyDst (ops : MemoryOps) (pml4Page : ℕ) (s : PgMem) (hPtr : ℕ) (gpa : Word)
    (cpFromVm : Bool) (i : ℕ) : ℕ :=
  if cpFromVm then hPtr + i else guestByte ops pml4Page s gpa i

/-- Where it comes from. -/
def copySrc (ops : MemoryOps) (pml4Page : ℕ) (s : PgMem) (hPtr : ℕ) (gpa : Word)
    (cpFromVm : Bool) (i : ℕ) : ℕ :=
  if cpFromVm then guestByte ops pml4Page s gpa i else hPtr + i

theorem memcpyS_eq (d s n : ℕ) (m : HostMem) :
    memcpyS d n s n m = copyCells (fun i => d + i) (fun i => s + i) n m := by
  rw [memcpyS]
  by_cases hn : n = 0
  · rw [if_neg (fun h => h.1 hn), hn]
    rfl
  rw [if_pos ⟨hn, hn, le_rfl⟩]
  by_cases hd : d = s
  · rw [if_neg (not_not.mpr hd), hd, copyCells_self]
  · rw [if_pos hd, memcpyErms]

/-- A copy within the host, byte by byte. -/
theorem memcpyS_apply {d s n : ℕ} (m : HostMem) (h : ByteMem.Apart d n s n) (a : ℕ) :
    memcpyS d n s n m a = if d ≤ a ∧ a < d + n then m (s + (a - d)) else m a := by
  have hw := Region.writes_copyCells m h
  rw [memcpyS_eq]
  split
  · next ha =>
    have hok := hw.ok (a - d) (by omega)
    rwa [Nat.add_sub_cancel' ha.1] at hok
  · next ha => exact hw.frame a ha

/-- The bytes from `gpa` to the end of its page, in 32 bits. -/
theorem toNat_pageRest {l : PageTableLevel} (hl : l ≠ .pml4) (gpa : Word) :
    (BitVec.ofNat 32 l.size - (gpa.setWidth 32 &&& (BitVec.ofNat 32 l.size - 1#32))).toNat =
      l.size - gpa.toNat % l.size := by
  obtain ⟨-, hs⟩ := shift_bounds hl
  have hmask : BitVec.ofNat 32 l.size - 1#32 = fieldMask 32 0 l.shift := by
    cases l
    case pml4 => exact absurd rfl hl
    all_goals decide
  have hsize : (BitVec.ofNat 32 l.size).toNat = l.size := by
    rw [BitVec.toNat_ofNat]
    exact Nat.mod_eq_of_lt (Nat.pow_lt_pow_right (by decide) (by omega))
  have hoff : (gpa.setWidth 32 &&& fieldMask 32 0 l.shift).toNat = gpa.toNat % l.size := by
    rw [toNat_and_fieldMask_low _ (by omega), BitVec.toNat_setWidth]
    exact Nat.mod_mod_of_dvd _ (pow_dvd_pow 2 (by omega))
  have hlt : gpa.toNat % l.size < l.size := Nat.mod_lt _ (Nat.two_pow_pos _)
  rw [hmask, BitVec.toNat_sub_of_le, hsize, hoff]
  rw [BitVec.le_def, hsize, hoff]
  exact hlt.le

/-- One piece: nothing where the first address is not mapped, and otherwise some bytes of the page
that are all mapped. -/
theorem localCopyGpa_spec (ops : MemoryOps) (pml4Page : ℕ) (s : PgMem) (hPtr : ℕ) (gpa : Word)
    {size : BitVec 32} (hpos : 0 < size.toNat) (cpFromVm : Bool) (m : HostMem) :
    (hpaAt ops pml4Page s gpa 0 = none ∧
      localCopyGpa ops pml4Page s hPtr gpa size 0#32 cpFromVm m = (0#32, m)) ∨
    ∃ n, 0 < n ∧ n ≤ size.toNat ∧ (∀ i < n, hpaAt ops pml4Page s gpa i ≠ none) ∧
      (localCopyGpa ops pml4Page s hPtr gpa size 0#32 cpFromVm m).1.toNat = n ∧
      (localCopyGpa ops pml4Page s hPtr gpa size 0#32 cpFromVm m).2 =
        copyCells (copyDst ops pml4Page s hPtr gpa cpFromVm)
          (copySrc ops pml4Page s hPtr gpa cpFromVm) n m := by
  cases hc : lookupAddress ops pml4Page gpa.toNat s with
  | none =>
    left
    have hnone : localGpa2hpaSize ops pml4Page gpa.toNat s = none := by
      rw [localGpa2hpaSize, hc]
      rfl
    rw [localCopyGpa, hnone, hpaAt, BitVec.add_zero, localGpa2hpa, hc]
    exact ⟨rfl, rfl⟩
  | some c =>
    right
    obtain ⟨l, hl, hsize⟩ := lookupAddress_level hc
    obtain ⟨hpa, hsome, hbyte⟩ := hpaAt_page hc
    set rest := BitVec.ofNat 32 c.2 - (gpa.setWidth 32 &&& (BitVec.ofNat 32 c.2 - 1#32)) with hrest
    have hrest' : rest.toNat = c.2 - gpa.toNat % c.2 := by
      rw [hrest, hsize, toNat_pageRest hl]
    have hlt : gpa.toNat % c.2 < c.2 := Nat.mod_lt _ (hsize ▸ Nat.two_pow_pos _)
    set len := if rest < size then rest else size with hlen
    have hlen' : len.toNat = min (c.2 - gpa.toNat % c.2) size.toNat := by
      rw [hlen]
      split
      · next hless =>
        have : rest.toNat < size.toNat := hless
        omega
      · next hless =>
        have : ¬ rest.toNat < size.toNat := hless
        omega
    have heq : localCopyGpa ops pml4Page s hPtr gpa size 0#32 cpFromVm m =
        (len, if cpFromVm then memcpyS hPtr len.toNat hpa.toNat len.toNat m
          else memcpyS hpa.toNat len.toNat hPtr len.toNat m) := by
      rw [localCopyGpa, hsome]
      rfl
    have hguest : ∀ i < len.toNat, hpa.toNat + i = guestByte ops pml4Page s gpa i := by
      intro i hi
      obtain ⟨w, hw, hwnat⟩ := hbyte i (by omega)
      rw [guestByte, hw, Option.getD_some, hwnat]
    refine ⟨len.toNat, by omega, by omega, ?_, ?_, ?_⟩
    · intro i hi
      obtain ⟨w, hw, -⟩ := hbyte i (by omega)
      rw [hw]
      exact Option.some_ne_none w
    · rw [heq]
    · rw [heq]
      cases cpFromVm with
      | true => exact (memcpyS_eq ..).trans (copyCells_congr (fun _ _ => rfl) hguest m)
      | false => exact (memcpyS_eq ..).trans (copyCells_congr hguest (fun _ _ => rfl) m)

/-! ## The whole copy -/

theorem copyDst_add (hPtr : ℕ) (gpa : Word) (cpFromVm : Bool) (n i : ℕ) :
    copyDst ops pml4Page s (hPtr + n) (gpa + BitVec.ofNat 64 n) cpFromVm i =
      copyDst ops pml4Page s hPtr gpa cpFromVm (n + i) := by
  rw [copyDst, copyDst, guestByte, guestByte, hpaAt_add, Nat.add_assoc]

theorem copySrc_add (hPtr : ℕ) (gpa : Word) (cpFromVm : Bool) (n i : ℕ) :
    copySrc ops pml4Page s (hPtr + n) (gpa + BitVec.ofNat 64 n) cpFromVm i =
      copySrc ops pml4Page s hPtr gpa cpFromVm (n + i) := by
  rw [copySrc, copySrc, guestByte, guestByte, hpaAt_add, Nat.add_assoc]

/-- **`copy_gpa`** copies the bytes up to the first address that is not mapped, one after the
other, and succeeds if that are all of them. -/
theorem copyGpa_spec (ops : MemoryOps) (pml4Page : ℕ) (s : PgMem) (hPtr : ℕ) (gpa : Word)
    (size : BitVec 32) (cpFromVm : Bool) (m : HostMem) :
    ∃ n ≤ size.toNat, (∀ i < n, hpaAt ops pml4Page s gpa i ≠ none) ∧
      (n < size.toNat → hpaAt ops pml4Page s gpa n = none) ∧
      copyGpa ops pml4Page s hPtr gpa size cpFromVm m =
        (if n = size.toNat then 0 else -einval,
          copyCells (copyDst ops pml4Page s hPtr gpa cpFromVm)
            (copySrc ops pml4Page s hPtr gpa cpFromVm) n m) := by
  fun_induction copyGpa ops pml4Page s hPtr gpa size cpFromVm m with
  | case1 hPtr gpa size m hpos r hzero =>
    have hpos' : 0 < size.toNat := hpos
    rcases localCopyGpa_spec ops pml4Page s hPtr gpa hpos' cpFromVm m with
      ⟨hnone, heq⟩ | ⟨n, hn, -, -, hlen, -⟩
    · refine ⟨0, Nat.zero_le _, fun i hi => absurd hi (Nat.not_lt_zero i), fun _ => hnone, ?_⟩
      rw [if_neg hpos'.ne, show r = (0#32, m) from heq]
      rfl
    · have hr : r.1.toNat = n := hlen
      rw [hzero, BitVec.toNat_zero] at hr
      omega
  | case2 hPtr gpa size m hpos r hlen ih =>
    have hpos' : 0 < size.toNat := hpos
    rcases localCopyGpa_spec ops pml4Page s hPtr gpa hpos' cpFromVm m with
      ⟨-, heq⟩ | ⟨k, hk, hle, hmapped, hr, hcopy⟩
    · exact absurd (congrArg Prod.fst heq) hlen
    obtain ⟨n, hn, hbytes, hstop, heq⟩ := ih
    have hr' : r.1.toNat = k := hr
    have hgpa : r.1.setWidth 64 = BitVec.ofNat 64 k := by
      apply BitVec.eq_of_toNat_eq
      rw [BitVec.toNat_setWidth, hr', BitVec.toNat_ofNat]
    have hsize : (size - r.1).toNat = size.toNat - k := by
      rw [BitVec.toNat_sub_of_le (show r.1.toNat ≤ size.toNat by omega), hr']
    rw [hsize] at hn hstop heq
    refine ⟨k + n, by omega, ?_, ?_, ?_⟩
    · intro i hi
      rcases Nat.lt_or_ge i k with hik | hik
      · exact hmapped i hik
      · have hbyte := hbytes (i - k) (by omega)
        rwa [hgpa, hpaAt_add, Nat.add_sub_cancel' hik] at hbyte
    · intro hlt
      have hnone := hstop (by omega)
      rwa [hgpa, hpaAt_add] at hnone
    · have hstatus : (if n = size.toNat - k then (0 : ℤ) else -einval) =
          if k + n = size.toNat then 0 else -einval :=
        if_congr (by omega) rfl rfl
      rw [heq, hstatus, copyCells_add]
      refine Prod.ext rfl ?_
      rw [← hcopy, hgpa, hr']
      exact copyCells_congr (fun i _ => copyDst_add hPtr gpa cpFromVm k i)
        (fun i _ => copySrc_add hPtr gpa cpFromVm k i) r.2
  | case3 hPtr gpa size m hzero =>
    have hsize : size.toNat = 0 := by
      by_contra hne
      exact hzero (Nat.pos_of_ne_zero hne)
    refine ⟨0, Nat.zero_le _, fun i hi => absurd hi (Nat.not_lt_zero i), fun h => ?_, ?_⟩
    · omega
    · rw [if_pos hsize.symm]
      rfl

/-- **Guest-memory copies are exact.** Over any tables, `copy_gpa` succeeds exactly if every address
of the range is mapped; it copies the bytes before the first one that is not, one after the other,
and writes no other byte. A byte that is copied arrives as it was if the buffer and the guest's
pages do not overlap, which `memcpy_s` asks for, and no later byte goes to the same place. -/
theorem copy_gpa_exact (ops : MemoryOps) (pml4Page : ℕ) (s : PgMem) (hPtr : ℕ) (gpa : Word)
    (size : BitVec 32) (cpFromVm : Bool) (m : HostMem) :
    let r := copyGpa ops pml4Page s hPtr gpa size cpFromVm m
    let dst := copyDst ops pml4Page s hPtr gpa cpFromVm
    let src := copySrc ops pml4Page s hPtr gpa cpFromVm
    (r.1 = 0 ↔ ∀ i < size.toNat, hpaAt ops pml4Page s gpa i ≠ none) ∧
    (r.1 ≠ 0 → r.1 = -einval) ∧
    ∃ n ≤ size.toNat, (r.1 = 0 → n = size.toNat) ∧
      (∀ i < n, hpaAt ops pml4Page s gpa i ≠ none) ∧
      (n < size.toNat → hpaAt ops pml4Page s gpa n = none) ∧
      r.2 = copyCells dst src n m ∧
      (∀ a, (∀ i < n, dst i ≠ a) → r.2 a = m a) ∧
      ∀ i < n, (∀ j < i, dst j ≠ src i) → (∀ j, i < j → j < n → dst j ≠ dst i) →
        r.2 (dst i) = m (src i) := by
  intro r dst src
  obtain ⟨n, hn, hmapped, hstop, heq⟩ := copyGpa_spec ops pml4Page s hPtr gpa size cpFromVm m
  have hstatus : r.1 = if n = size.toNat then 0 else -einval := congrArg Prod.fst heq
  have hcopy : r.2 = copyCells dst src n m := congrArg Prod.snd heq
  have hfail : (-einval : ℤ) ≠ 0 := by decide
  have hall : r.1 = 0 ↔ n = size.toNat := by
    rw [hstatus]
    split
    · next hall => exact iff_of_true rfl hall
    · next hall => exact iff_of_false hfail hall
  refine ⟨?_, ?_, n, hn, hall.mp, hmapped, hstop, hcopy, ?_, ?_⟩
  · rw [hall]
    constructor
    · rintro rfl
      exact hmapped
    · intro hevery
      by_contra hne
      have hlt : n < size.toNat := lt_of_le_of_ne hn hne
      exact hevery n hlt (hstop hlt)
  · intro hne
    rw [hstatus, if_neg (fun h => hne (hall.mpr h))]
  · intro a ha
    rw [hcopy]
    exact copyCells_frame m ha
  · intro i hi hsep hlast
    rw [hcopy]
    exact copyCells_value m hi hlast hsep

end Acrn
