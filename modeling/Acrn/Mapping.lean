import Acrn.AddSpec
import Acrn.Ept

/-!
# What a call of `mmu_add` means for translations

The plan of a call read as a statement about `lookup_address`: the whole range
is translated by one offset, whatever leaves were picked, and nothing else
changes. The attributes of the leaves are another matter: a 4-KByte page that
follows a large page in the same table does not get the right that was asked for.
-/

namespace Acrn

open BlockLoop BitField PageTableLevel

/-- A table on which the walkers do what they are meant to. -/
structure WellFormed (ops : MemoryOps) (s : PgMem) : Prop where
  sound : Sound ops s
  holes : ∀ v, v < 2 ^ 48 → HoleFree ops s.mem v

/-! ## The leaves of a plan

A plan has leaves of three sizes. What they have in common is all that a translation depends on: a
leaf is aligned to its size, and its address is the one that is asked for there. -/

namespace AddPlan

variable {plan : AddPlan} {v : ℕ} {right : Word}

/-- A large page comes before `v` in one of its tables. -/
def Late (plan : AddPlan) (v : ℕ) : Prop := plan.Tweaked .pml4 v ∨ plan.Tweaked .pdpt v

theorem pdpteLeaf_of_large_pdpt (h : plan.LargeAt .pdpt v) :
    plan.pdpteLeaf right v = plan.mapAt .pdpt (plan.ops.tweakExeRight right ||| pagePs) v := by
  rw [pdpteLeaf, entryLeaf, next_pml4, if_pos h]

theorem pdpteLeaf_of_large_pd (hops : plan.ops.Lawful) (h : ¬ plan.LargeAt .pdpt v)
    (h' : plan.LargeAt .pd v) :
    plan.pdpteLeaf right v = plan.mapAt .pd (plan.ops.tweakExeRight right ||| pagePs) v := by
  rw [pdpteLeaf, entryLeaf, next_pml4, if_neg h, pdeLeaf, entryLeaf, next_pdpt, if_pos h',
    tweak_rightAt hops]

theorem pdpteLeaf_of_small (hops : plan.ops.Lawful) (h : ¬ plan.LargeAt .pdpt v)
    (h' : ¬ plan.LargeAt .pd v) :
    plan.pdpteLeaf right v = plan.mapAt .pt
      (open Classical in if plan.Late v then plan.ops.tweakExeRight right else right) v := by
  rw [pdpteLeaf, entryLeaf, next_pml4, if_neg h, pdeLeaf, entryLeaf, next_pdpt, if_neg h', pteLeaf]
  congr 1
  by_cases h₂ : plan.Tweaked .pdpt v
  · rw [rightAt, if_pos h₂, tweak_rightAt hops, if_pos (show plan.Late v from Or.inr h₂)]
  · rw [rightAt, if_neg h₂, rightAt]
    by_cases h₄ : plan.Tweaked .pml4 v
    · rw [if_pos h₄, if_pos (show plan.Late v from Or.inl h₄)]
    · rw [if_neg h₄, if_neg (show ¬ plan.Late v from fun h => h.elim h₄ h₂)]

/-- The right of a leaf of level `l`: a large one is tweaked. -/
def Planned (plan : AddPlan) (l : PageTableLevel) (r : Word) : Prop :=
  l = .pt ∧ (r = plan.prot ∨ r = plan.ops.tweakExeRight plan.prot) ∨
    l ≠ .pt ∧ r = plan.ops.tweakExeRight plan.prot ||| pagePs

/-- Every planned leaf maps its block to the aligned address requested for it. -/
theorem exists_mapAt (plan : AddPlan) {v : ℕ} (hops : plan.ops.Lawful) (hstart : pageSize ∣ plan.start)
    (hpaddr : pageSize ∣ plan.paddr) (hv : plan.start ≤ v) :
    ∃ l r, l ≠ .pml4 ∧ plan.pdpteLeaf plan.prot v = plan.mapAt l r v ∧
      plan.start ≤ blockStart l.shift v ∧ (l = .pt ∨ nextBlock l.shift v ≤ plan.stop) ∧
      l.size ∣ plan.pa (blockStart l.shift v) ∧ plan.Planned l r := by
  by_cases h : plan.LargeAt .pdpt v
  · exact ⟨.pdpt, _, by decide, pdpteLeaf_of_large_pdpt h, h.2.1, Or.inr h.2.2.1, h.2.2.2.1,
      Or.inr ⟨by decide, rfl⟩⟩
  by_cases h' : plan.LargeAt .pd v
  · exact ⟨.pd, _, by decide, pdpteLeaf_of_large_pd hops h h', h'.2.1, Or.inr h'.2.2.1,
      h'.2.2.2.1, Or.inr ⟨by decide, rfl⟩⟩
  have hblock : plan.start ≤ blockStart pt.shift v := by
    have := Nat.div_le_div_right (c := 4096) hv
    rw [← blockStart_of_dvd (k := 12) hstart]
    exact Nat.mul_le_mul_right _ this
  refine ⟨.pt, _, by decide, pdpteLeaf_of_small hops h h', hblock, Or.inl rfl, ?_, ?_⟩
  · exact Nat.dvd_add hpaddr (Nat.dvd_sub (dvd_blockStart 12 v) hstart)
  · refine Or.inl ⟨rfl, ?_⟩
    split
    · exact Or.inr rfl
    · exact Or.inl rfl

/-- The array of page tables serves the whole window. -/
theorem served_of_pool (hpool : plan.ops.info.ptPool = true)
    (hwin : plan.stop ≤ plan.ops.info.window) : plan.Served := by
  intro l v hl hge hlt _
  refine PoolLayout.div_lt_pageNum ?_ (by omega) fun _ => hpool
  rcases hl with rfl | rfl <;> decide

end AddPlan

/-- Without page tables, a range of whole 2-MByte blocks needs none. -/
theorem served_of_aligned {ops : MemoryOps} {s : PgMem} (hs : Sound ops s)
    (hpool : ops.info.ptPool = false) (hlarge : ops.largePageEnabled = true)
    {paddrBase vaddrBase size : ℕ} {prot : Word}
    (hwin : rangeEnd vaddrBase size ≤ ops.info.window)
    (hstart : 2 ^ 21 ∣ roundPageDown vaddrBase) (hstop : 2 ^ 21 ∣ rangeEnd vaddrBase size)
    (hpaddr : 2 ^ 21 ∣ roundPageDown paddrBase) :
    (addPlan ops paddrBase vaddrBase size prot s).Served := by
  rintro l v (rfl | rfl) hge hlt hnot
  · exact PoolLayout.div_lt_pageNum (l := .pdpt) (by decide) (by simp only [addPlan] at *; omega) nofun
  · exfalso
    refine hnot ⟨hlarge, ?_, ?_, ?_, ?_⟩
    all_goals simp only [addPlan, AddPlan.pa, blockStart, nextBlock, PageTableLevel.size, shift] at *
    · omega
    · omega
    · omega
    · intro hlink
      have hv48 : v < 2 ^ 48 := lt_of_lt_of_le (lt_of_lt_of_le hlt hwin) ops.info.window_le
      have hin := (hs.table .pd v (by decide) hv48 hlink).1
      simp [PgtablePagesInfo.pageNum, hpool] at hin

/-! ## The translations after the call -/

/-- The range is free, lies in the window, and where there are no page tables it
consists of whole 2-MByte blocks. -/
structure Mappable (ops : MemoryOps) (paddrBase vaddrBase size : ℕ) (s : PgMem) : Prop where
  window : rangeEnd vaddrBase size ≤ ops.info.window
  pages : ops.info.ptPool = true ∨ 2 ^ 21 ∣ roundPageDown vaddrBase ∧
    2 ^ 21 ∣ rangeEnd vaddrBase size ∧ 2 ^ 21 ∣ roundPageDown paddrBase
  free : ∀ v, roundPageDown vaddrBase ≤ v → v < rangeEnd vaddrBase size →
    lookupAddress ops ops.info.pml4Base v s = none

variable {ops : MemoryOps} {s : PgMem} {paddrBase vaddrBase size : ℕ} {prot : Word}

theorem Mappable.served (hknown : ops.Known) (hs : Sound ops s)
    (h : Mappable ops paddrBase vaddrBase size s) :
    (addPlan ops paddrBase vaddrBase size prot s).Served := by
  cases hknown with
  | ept info force enforce hpool => exact AddPlan.served_of_pool hpool h.window
  | ppt info hpool =>
    rcases h.pages with hp | ⟨h₁, h₂, h₃⟩
    · rw [show (pptMemOps info).info.ptPool = info.ptPool from rfl, hpool] at hp
      cases hp
    · exact served_of_aligned hs hpool rfl h.window h₁ h₂ h₃

/-- The call carries out its plan. -/
theorem Mappable.spec (h : Mappable ops paddrBase vaddrBase size s) (prot : Word)
    (hknown : ops.Known) (hwf : WellFormed ops s)
    (hrange : roundPageDown vaddrBase ≤ rangeEnd vaddrBase size) :
    AddPost (addPlan ops paddrBase vaddrBase size prot s) .pml4
      ((addPlan ops paddrBase vaddrBase size prot s).pdpteLeaf prot)
      (roundPageDown vaddrBase) (rangeEnd vaddrBase size) s
      (mmuAdd ops ops.info.pml4Base paddrBase vaddrBase size prot s) := by
  have hle : rangeEnd vaddrBase size ≤ 2 ^ 48 := h.window.trans ops.info.window_le
  refine mmuAdd_spec hknown.lawful hwf.sound h.window hrange ?_ ?_ (h.served hknown hwf.sound)
  · intro v hv hv'
    exact (lookupAddress_eq_none hwf.sound (by omega)).mp (h.free v hv hv')
  · intro v _ hv'
    exact hwf.holes v (by omega)

/-- An empty range leaves everything as it is. -/
theorem mmuAdd_empty (h : rangeEnd vaddrBase size ≤ roundPageDown vaddrBase) :
    mmuAdd ops ops.info.pml4Base paddrBase vaddrBase size prot s = s := by
  rw [mmuAdd, ← rangeEnd, whileBlocks_of_le h]

theorem Mappable.sound (h : Mappable ops paddrBase vaddrBase size s) (prot : Word)
    (hknown : ops.Known) (hwf : WellFormed ops s) :
    Sound ops (mmuAdd ops ops.info.pml4Base paddrBase vaddrBase size prot s) := by
  rcases Nat.le_total (rangeEnd vaddrBase size) (roundPageDown vaddrBase) with hempty | hrange
  · rw [mmuAdd_empty hempty]
    exact hwf.sound
  · exact (h.spec prot hknown hwf hrange).sound

/-- The right is made of attribute bits only, and an entry with it is present,
tweaked or not. -/
structure ProtOk (ops : MemoryOps) (prot : Word) : Prop where
  attr : prot &&& frameMask = 0#64
  present : ops.pgentryPresent prot ≠ 0#64
  tweaked : ops.pgentryPresent (ops.tweakExeRight prot) ≠ 0#64

/-- The rights of the leaves that a call installs are such rights again. -/
theorem ProtOk.leafRight {plan : AddPlan} (hops : plan.ops.Lawful) (h : ProtOk plan.ops plan.prot)
    {l : PageTableLevel} {r : Word} (hr : plan.Planned l r) :
    r &&& frameMask = 0#64 ∧ plan.ops.pgentryPresent r ≠ 0#64 := by
  have htweak : plan.ops.tweakExeRight plan.prot &&& frameMask = 0#64 := by
    obtain ⟨exe, -, ht, -⟩ := hops.exe
    rw [ht, BitVec.and_assoc, BitVec.and_comm (~~~exe), ← BitVec.and_assoc, h.attr,
      BitVec.zero_and]
  have hps : pagePs &&& frameMask = 0#64 := by decide
  rcases hr with ⟨-, rfl | rfl⟩ | ⟨-, rfl⟩
  · exact ⟨h.attr, h.present⟩
  · exact ⟨htweak, h.tweaked⟩
  · exact ⟨(or_and_of_disjoint_right hps).trans htweak, hops.present_or_left h.tweaked⟩

/-- Every address of the range gets a leaf that lies in the range. -/
theorem Mappable.leaf_inside (h : Mappable ops paddrBase vaddrBase size s) (hprot : ProtOk ops prot)
    (hknown : ops.Known) (hwf : WellFormed ops s) {v : ℕ} (hge : roundPageDown vaddrBase ≤ v)
    (hlt : v < rangeEnd vaddrBase size) :
    let plan := addPlan ops paddrBase vaddrBase size prot s
    ∃ l r, l ≠ .pml4 ∧ plan.start ≤ blockStart l.shift v ∧
      (l = .pt ∨ nextBlock l.shift v ≤ plan.stop) ∧ l.size ∣ plan.pa (blockStart l.shift v) ∧
      r &&& frameMask = 0#64 ∧ plan.Planned l r ∧
      leaf ops (mmuAdd ops ops.info.pml4Base paddrBase vaddrBase size prot s).mem v =
        some (plan.mapAt l r v) := by
  intro plan
  have hops := hknown.lawful
  have hpost := h.spec prot hknown hwf (by omega)
  have hend := hpost.inside v hge hlt
  obtain ⟨l, r, hl, hleaf, hbs, hnx, hal, hr⟩ := plan.exists_mapAt hops (dvd_roundPageDown _)
    (dvd_roundPageDown _) hge
  obtain ⟨hattr, hpres⟩ := (show ProtOk plan.ops plan.prot from hprot).leafRight hops hr
  refine ⟨l, r, hl, hbs, hnx, hal, hattr, hr, ?_⟩
  have hp : ops.pgentryPresent (plan.mapAt l r v).entry ≠ 0#64 := hops.present_or_right hpres
  rw [leaf_eq_walkEnd, show walkEnd ops _ v = _ from hend.trans hleaf, if_neg hp]

/-- The range is translated by one offset. -/
theorem Mappable.hpa_inside (h : Mappable ops paddrBase vaddrBase size s) (hprot : ProtOk ops prot)
    (hknown : ops.Known) (hwf : WellFormed ops s) {v : ℕ}
    (hge : roundPageDown vaddrBase ≤ v % 2 ^ 48) (hlt : v % 2 ^ 48 < rangeEnd vaddrBase size) :
    localGpa2hpa ops ops.info.pml4Base v
        (mmuAdd ops ops.info.pml4Base paddrBase vaddrBase size prot s) =
      some (BitVec.ofNat 64
        ((roundPageDown paddrBase + (v % 2 ^ 48 - roundPageDown vaddrBase)) % 2 ^ 52)) := by
  obtain ⟨l, r, hl, hbs, -, hal, hattr, -, hleaf⟩ := h.leaf_inside hprot hknown hwf hge hlt
  set u := v % 2 ^ 48 with hu
  have hpost := h.spec prot hknown hwf (by omega)
  have hsound : Sound ops _ := hpost.sound
  rw [localGpa2hpa_eq hsound, ← hu, hleaf, Option.map_some]
  refine congrArg some ?_
  apply BitVec.eq_of_toNat_eq
  rw [AddPlan.mapAt, hpa_of_paddr hl hal hattr, BitVec.toNat_ofNat,
    Nat.mod_eq_of_lt (b := 2 ^ 64) (lt_trans (Nat.mod_lt _ (Nat.two_pow_pos 52)) (by decide))]
  refine congrArg (· % 2 ^ 52) ?_
  have hoff : v % l.size = u % l.size := by
    have := (shift_bounds hl).2
    exact (Nat.mod_mod_of_dvd v (pow_dvd_pow 2 (by omega))).symm
  have hsplit := Nat.div_add_mod' u l.size
  have hbu := blockStart_le l.shift u
  simp only [AddPlan.pa, addPlan, blockStart, PageTableLevel.size] at hbs hsplit hoff hbu ⊢
  omega

/-- Outside the range every walk ends where it did. -/
theorem Mappable.leaf_outside (h : Mappable ops paddrBase vaddrBase size s) (prot : Word)
    (hknown : ops.Known) (hwf : WellFormed ops s) {v : ℕ} (hv : v < 2 ^ 48)
    (hout : ¬ (roundPageDown vaddrBase ≤ v ∧ v < rangeEnd vaddrBase size)) :
    leaf ops (mmuAdd ops ops.info.pml4Base paddrBase vaddrBase size prot s).mem v =
      leaf ops s.mem v := by
  rcases Nat.le_total (rangeEnd vaddrBase size) (roundPageDown vaddrBase) with hempty | hrange
  · rw [mmuAdd_empty hempty]
  · exact (h.spec prot hknown hwf hrange).outside v hv hout

/-- **`mmu_add` maps exactly its range.** The range is the smallest one of whole
pages around the request; the address given to it is rounded down, and an entry
has room for 52 bits of it. -/
theorem mmuAdd_maps_range (hknown : ops.Known) (hwf : WellFormed ops s)
    (hmap : Mappable ops paddrBase vaddrBase size s) (hprot : ProtOk ops prot) (v : ℕ) :
    let s' := mmuAdd ops ops.info.pml4Base paddrBase vaddrBase size prot s
    let u := v % 2 ^ 48
    if roundPageDown vaddrBase ≤ u ∧ u < rangeEnd vaddrBase size then
      localGpa2hpa ops ops.info.pml4Base v s' =
        some (BitVec.ofNat 64
          ((roundPageDown paddrBase + (u - roundPageDown vaddrBase)) % 2 ^ 52))
    else
      lookupEntry ops ops.info.pml4Base v s' = lookupEntry ops ops.info.pml4Base v s ∧
        localGpa2hpa ops ops.info.pml4Base v s' = localGpa2hpa ops ops.info.pml4Base v s := by
  intro s' u
  by_cases hin : roundPageDown vaddrBase ≤ u ∧ u < rangeEnd vaddrBase size
  · rw [if_pos hin]
    exact hmap.hpa_inside hprot hknown hwf hin.1 hin.2
  · have hsound : Sound ops s' := hmap.sound prot hknown hwf
    have hout : leaf ops s'.mem u = leaf ops s.mem u :=
      hmap.leaf_outside prot hknown hwf (Nat.mod_lt v (Nat.two_pow_pos 48)) hin
    rw [if_neg hin, lookupEntry_eq hsound, lookupEntry_eq hwf.sound, localGpa2hpa_eq hsound,
      localGpa2hpa_eq hwf.sound, show v % 2 ^ 48 = u from rfl, hout]
    exact ⟨rfl, rfl⟩

/-! ## Calls on the empty table -/

theorem RootAbsent.wellFormed (h : RootAbsent ops s) (hr : s.requests = []) : WellFormed ops s := by
  refine ⟨h.sound hr, fun v hv l hl hlink => absurd hlink (h.not_linked ?_ hv)⟩
  rcases hl with rfl | rfl <;> decide

theorem createEpt_wellFormed (hops : ops.Lawful) (h : BeforeCreate ops s) :
    WellFormed ops (createEpt ops s) := by
  refine (createEpt_rootAbsent hops).wellFormed ?_
  rw [createEpt, sanitizePte, fillPage_requests, h.requests]

theorem createEpt_mappable (hops : ops.Lawful) (h : BeforeCreate ops s)
    (hpool : ops.info.ptPool = true) (hwin : rangeEnd vaddrBase size ≤ ops.info.window) :
    Mappable ops paddrBase vaddrBase size (createEpt ops s) :=
  ⟨hwin, Or.inl hpool, fun v _ _ => createEpt_lookup hops h v⟩

theorem mmuAdd_maps_range_uos :
    let ops := initEptMemOps uosLayout true true
    localGpa2hpa ops ops.info.pml4Base 0x2345
      (mmuAdd ops ops.info.pml4Base 0x40000800 0x1800 0x3000 (eptRwx ||| eptWb)
        (createEpt ops (bootMem ops))) = some 0x40001345#64 := by
  intro ops
  have hknown : ops.Known := .ept uosLayout true true rfl
  have hboot := beforeCreate_bootMem ops
  have hmap : Mappable ops 0x40000800 0x1800 0x3000 (createEpt ops (bootMem ops)) :=
    createEpt_mappable hknown.lawful hboot rfl (by decide)
  have hprot : ProtOk ops (eptRwx ||| eptWb) := ⟨by decide, by decide, by decide⟩
  have h := mmuAdd_maps_range hknown (createEpt_wellFormed hknown.lawful hboot) hmap hprot 0x2345
  rw [if_pos (by decide)] at h
  exact h

/-- The range is rounded outwards: a request for `[0x1800, 0x2800)` maps the page
`0x1000`, which lies before `round_page_up(0x1800)`. -/
theorem mmuAdd_rounds_outwards :
    let ops := initEptMemOps uosLayout true true
    let s := createEpt ops (bootMem ops)
    let s' := mmuAdd ops ops.info.pml4Base 0x40001800 0x1800 0x1000 (eptRwx ||| eptWb) s
    (∀ v, lookupAddress ops ops.info.pml4Base v s = none) ∧
    0x1000 < roundPageUp 0x1800 ∧
    lookupAddress ops ops.info.pml4Base 0x1000 s' ≠ none := by
  intro ops s s'
  have hknown : ops.Known := .ept uosLayout true true rfl
  have hboot := beforeCreate_bootMem ops
  have hmap : Mappable ops 0x40001800 0x1800 0x1000 s :=
    createEpt_mappable hknown.lawful hboot rfl (by decide)
  have hwf := createEpt_wellFormed hknown.lawful hboot
  have hprot : ProtOk ops (eptRwx ||| eptWb) := ⟨by decide, by decide, by decide⟩
  obtain ⟨l, r, -, -, -, -, -, -, hleaf⟩ := hmap.leaf_inside hprot hknown hwf (v := 0x1000)
    (by decide) (by decide)
  refine ⟨createEpt_lookup hknown.lawful hboot, by decide, ?_⟩
  rw [Ne, lookupAddress_eq_none (hmap.sound _ hknown hwf) (by decide), hleaf]
  exact Option.some_ne_none _

/-! ## The rights of the installed leaves

Whether an address has the right that was asked for is decided by the plan alone: a 4-KByte page
loses the execute right when a large page comes before it in one of its tables. -/

/-- The bits that `mmu_add` may be asked to set in an EPT entry. -/
def eptProtMask : Word := eptRwx ||| eptMtMask ||| eptSnoopCtrl

/-- The attribute bits of an EPT entry. -/
def eptAttrMask : Word := fieldMask 64 0 12

/-- A leaf carries the requested right, a large one without `EPT_EXE`. -/
def LeafRight (prot : Word) (L : Leaf) : Prop :=
  L.entry &&& eptAttrMask = if L.level = .pt then prot else (prot &&& ~~~eptExe) ||| pagePs

instance (prot : Word) (L : Leaf) : Decidable (LeafRight prot L) :=
  inferInstanceAs (Decidable (_ = _))

/-- The attributes of a leaf assembled from a page address. -/
theorem ofNat_or_and_attrMask {a : ℕ} (ha : pageSize ∣ a) {right : Word}
    (hright : right &&& eptAttrMask = right) :
    (BitVec.ofNat 64 a ||| right) &&& eptAttrMask = right := by
  have haddr : BitVec.ofNat 64 a &&& eptAttrMask = 0#64 := by
    apply BitVec.eq_of_getLsbD_eq
    intro i _
    rw [BitVec.getLsbD_and, eptAttrMask, getLsbD_fieldMask (by decide), BitVec.getLsbD_zero]
    by_cases hlow : i < 12
    · rw [getLsbD_ofNat_of_dvd (k := 12) ha hlow, Bool.false_and]
    · simp [hlow]
  rw [or_and_of_disjoint_left haddr, hright]

theorem and_not_exe_eq {prot : Word} : prot &&& ~~~eptExe = prot ↔ prot &&& eptExe = 0#64 := by
  constructor
  · intro h
    rw [← h, BitVec.and_assoc, show ~~~eptExe &&& eptExe = (0#64 : Word) by decide,
      BitVec.and_zero]
  · intro h
    rw [← BitVec.or_zero (x := prot &&& ~~~eptExe), ← h, ← BitVec.and_or_distrib_left,
      show ~~~eptExe ||| eptExe = BitVec.allOnes 64 by decide, BitVec.and_allOnes]

/-- Which planned leaves carry the requested right, when the tweak is
`ept_tweak_exe_right`. -/
theorem AddPlan.leafRight_iff {plan : AddPlan} (hops : plan.ops.Lawful)
    (htweak : plan.ops.tweakExeRight = eptTweakExeRight) (hstart : pageSize ∣ plan.start)
    (hpaddr : pageSize ∣ plan.paddr) {prot : Word} (hprot : prot &&& eptProtMask = prot) {v : ℕ} :
    LeafRight prot (plan.pdpteLeaf prot v) ↔
      (prot &&& eptExe = 0#64 ∨ (¬ plan.LargeAt .pdpt v → ¬ plan.LargeAt .pd v → ¬ plan.Late v)) := by
  have hlow : prot &&& eptAttrMask = prot := by
    rw [← hprot, BitVec.and_assoc, show eptProtMask &&& eptAttrMask = eptProtMask by decide]
  have hlow' : (prot &&& ~~~eptExe) &&& eptAttrMask = prot &&& ~~~eptExe := by
    rw [BitVec.and_assoc, BitVec.and_comm (~~~eptExe), ← BitVec.and_assoc, hlow]
  have hlow'' : ((prot &&& ~~~eptExe) ||| pagePs) &&& eptAttrMask =
      (prot &&& ~~~eptExe) ||| pagePs := by
    rw [BitVec.and_or_distrib_right, hlow', show pagePs &&& eptAttrMask = pagePs by decide]
  have htweak' : ∀ p, plan.ops.tweakExeRight p = p &&& ~~~eptExe := fun p => congrFun htweak p
  by_cases hl : plan.LargeAt .pdpt v
  · rw [pdpteLeaf_of_large_pdpt hl, htweak']
    have ha : pageSize ∣ plan.pa (blockStart pdpt.shift v) :=
      (show pageSize ∣ pdpt.size by decide).trans hl.2.2.2.1
    exact iff_of_true (ofNat_or_and_attrMask ha hlow'') (Or.inr fun h => absurd hl h)
  by_cases hl' : plan.LargeAt .pd v
  · rw [pdpteLeaf_of_large_pd hops hl hl', htweak']
    have ha : pageSize ∣ plan.pa (blockStart pd.shift v) :=
      (show pageSize ∣ pd.size by decide).trans hl'.2.2.2.1
    exact iff_of_true (ofNat_or_and_attrMask ha hlow'') (Or.inr fun _ h => absurd hl' h)
  have ha : pageSize ∣ plan.pa (blockStart pt.shift v) :=
    Nat.dvd_add hpaddr (Nat.dvd_sub (dvd_blockStart 12 v) hstart)
  rw [pdpteLeaf_of_small hops hl hl', htweak']
  by_cases hlate : plan.Late v
  · rw [if_pos hlate]
    have hcarried : (plan.mapAt .pt (prot &&& ~~~eptExe) v).entry &&& eptAttrMask =
        prot &&& ~~~eptExe := ofNat_or_and_attrMask ha hlow'
    rw [LeafRight, hcarried, if_pos (show (plan.mapAt .pt _ v).level = .pt from rfl),
      and_not_exe_eq]
    exact ⟨Or.inl, fun h => h.elim id fun h => absurd hlate (h hl hl')⟩
  · rw [if_neg hlate]
    exact iff_of_true (ofNat_or_and_attrMask ha hlow) (Or.inr fun _ _ => hlate)

/-- **The execute right after a call.** With the mitigation active, the leaves of
the range carry what the request says if and only if `EPT_EXE` was not requested
or no 4-KByte page follows a large one in one of its tables. -/
theorem mmuAdd_exe_right {info : PoolLayout} (hpool : info.ptPool = true) (enforce4kIpage : Bool)
    {s : PgMem} {paddrBase vaddrBase size : ℕ} {prot : Word}
    (hwf : WellFormed (initEptMemOps info true enforce4kIpage) s)
    (hmap : Mappable (initEptMemOps info true enforce4kIpage) paddrBase vaddrBase size s)
    (hprot : prot &&& eptProtMask = prot) :
    let ops := initEptMemOps info true enforce4kIpage
    let s' := mmuAdd ops ops.info.pml4Base paddrBase vaddrBase size prot s
    let plan := addPlan ops paddrBase vaddrBase size prot s
    (∀ v, roundPageDown vaddrBase ≤ v → v < rangeEnd vaddrBase size →
      LeafRight prot (walkEnd ops s'.mem v)) ↔
    (prot &&& eptExe = 0#64 ∨
      ∀ v, roundPageDown vaddrBase ≤ v → v < rangeEnd vaddrBase size →
        ¬ plan.LargeAt .pdpt v → ¬ plan.LargeAt .pd v → ¬ plan.Late v) := by
  intro ops s' plan
  have hknown : ops.Known := .ept info true enforce4kIpage hpool
  have hleaf : ∀ v, roundPageDown vaddrBase ≤ v → v < rangeEnd vaddrBase size →
      (LeafRight prot (walkEnd ops s'.mem v) ↔ (prot &&& eptExe = 0#64 ∨
        (¬ plan.LargeAt .pdpt v → ¬ plan.LargeAt .pd v → ¬ plan.Late v))) := by
    intro v hge hlt
    have hpost := hmap.spec prot hknown hwf (by omega)
    rw [show walkEnd ops s'.mem v = plan.pdpteLeaf prot v from hpost.inside v hge hlt]
    exact plan.leafRight_iff hknown.lawful rfl (dvd_roundPageDown _) (dvd_roundPageDown _) hprot
  constructor
  · intro h
    by_cases hexe : prot &&& eptExe = 0#64
    · exact Or.inl hexe
    · exact Or.inr fun v hge hlt =>
        ((hleaf v hge hlt).mp (h v hge hlt)).resolve_left hexe
  · intro h v hge hlt
    exact (hleaf v hge hlt).mpr (h.imp_right fun hnot => hnot v hge hlt)

/-- A 4-KByte page and then a 2-MByte one. -/
theorem mmuAdd_exe_right_uos :
    let ops := initEptMemOps uosLayout true false
    ∀ v, roundPageDown 0x1ff000 ≤ v → v < rangeEnd 0x1ff000 0x201000 →
      LeafRight (eptRwx ||| eptWb) (walkEnd ops
        (mmuAdd ops ops.info.pml4Base 0x1001ff000 0x1ff000 0x201000 (eptRwx ||| eptWb)
          (createEpt ops (bootMem ops))).mem v) := by
  intro ops
  have hops : ops.Lawful := (MemoryOps.Known.ept uosLayout true false rfl).lawful
  have hboot := beforeCreate_bootMem ops
  refine (mmuAdd_exe_right (show uosLayout.ptPool = true from rfl) false
    (createEpt_wellFormed hops hboot) (createEpt_mappable hops hboot rfl (by decide))
    (by decide)).mpr (Or.inr fun v _ hlt _ _ => ?_)
  have hstop : rangeEnd 0x1ff000 0x201000 = 0x400000 := by decide
  have hv : v < 0x400000 := hstop ▸ hlt
  rintro (⟨u, -, -, hbefore, -⟩ | ⟨u, -, -, hbefore, -, hstart, -⟩)
  · have hgib : u / 0x40000000 < v / 0x40000000 := hbefore
    omega
  -- the first 2 MByte are not whole in the range
  · have hmib : u / 0x200000 < v / 0x200000 := hbefore
    have hwhole : 0x1ff000 ≤ u / 0x200000 * 0x200000 := hstart
    omega

/-- A 2-MByte page and one 4-KByte page after it: the small page loses `EPT_EXE`. -/
theorem mmuAdd_loses_exe :
    let ops := initEptMemOps uosLayout true false
    let s := createEpt ops (bootMem ops)
    let s' := mmuAdd ops ops.info.pml4Base 0x100000000 0x0 0x201000 (eptRwx ||| eptWb) s
    (walkEnd ops s'.mem 0x200000).level = .pt ∧
      ¬ LeafRight (eptRwx ||| eptWb) (walkEnd ops s'.mem 0x200000) := by
  intro ops s s'
  have hknown : ops.Known := .ept uosLayout true false rfl
  have hboot := beforeCreate_bootMem ops
  have hmap : Mappable ops 0x100000000 0x0 0x201000 s :=
    createEpt_mappable hknown.lawful hboot rfl (by decide)
  have hpost : AddPost _ _ _ _ _ s s' := hmap.spec (eptRwx ||| eptWb) hknown
    (createEpt_wellFormed hknown.lawful hboot) (by decide)
  have hend := hpost.inside 0x200000 (by decide) (by decide)
  set plan := addPlan ops 0x100000000 0x0 0x201000 (eptRwx ||| eptWb) s with hplan
  have hfirst : plan.LargeAt .pd 0x0 := by
    refine ⟨rfl, by decide, by decide, by decide, ?_⟩
    exact createEpt_not_linked (l := .pt) (v := 0x0) hknown.lawful (by decide) (by decide)
  have hlate : plan.Late 0x200000 := Or.inr ⟨0x0, by decide, by decide, by decide, hfirst⟩
  have hsmall : ∀ l, l = .pdpt ∨ l = .pd → ¬ plan.LargeAt l 0x200000 := by
    rintro l (rfl | rfl) h
    · exact absurd h.2.2.1 (by decide)
    · exact absurd h.2.2.1 (by decide)
  have hleaf : plan.pdpteLeaf (eptRwx ||| eptWb) 0x200000 = _ :=
    AddPlan.pdpteLeaf_of_small hknown.lawful (hsmall .pdpt (Or.inl rfl)) (hsmall .pd (Or.inr rfl))
  rw [if_pos hlate] at hleaf
  rw [show walkEnd ops s'.mem 0x200000 = _ from hend.trans hleaf]
  exact ⟨rfl, by decide⟩

end Acrn
