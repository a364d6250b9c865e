import Acrn.ModifySpec
import Acrn.Mapping

/-!
# What a call of `mmu_modify_or_del` means for translations

Cutting a large page changes neither the address nor the attributes of what it
maps, except for the execute right that comes back with 4-KByte pages. So a
deletion unmaps exactly its range, and a modification changes the attributes
there and nothing else.
-/

namespace Acrn

open BlockLoop BitField PageTableLevel

/-! ## Cutting a page

An entry of a large page is its frame and its attributes, and the pieces are made of these two.
Since a frame is aligned to its size, adding the offsets of the pieces does not reach into the
attributes. -/

/-- The attributes of an entry: its protection bits but `PAGE_PS`. -/
def attributes (e : Word) : Word := e &&& (protMask &&& ~~~pagePs)

/-- The frame of a large entry, below `MAXPHYADDR`. -/
def frameOf (l : PageTableLevel) (e : Word) : ℕ := e.toNat % 2 ^ 39 / l.size * l.size

/-- The bits of a frame above `MAXPHYADDR`. -/
def highFrameMask : Word := fieldMask 64 39 52

/-- What the pieces of a large entry carry besides their address. -/
def splitRight (ops : MemoryOps) (l : PageTableLevel) (e : Word) : Word :=
  match l with
  | .pdpt => e &&& protMask
  | _ => ops.recoverExeRight (e &&& protMask &&& ~~~pagePs)

/-- The attributes and the frame of an entry do not meet. -/
theorem protMask_frame : protMask &&& frameMask = 0#64 := by decide

variable {ops : MemoryOps}

/-- A piece of a large entry is the address of the piece and the attributes of the entry. -/
theorem splitEntry_eq {l : PageTableLevel} (hl : l = .pdpt ∨ l = .pd) (e : Word) (i : ℕ) :
    splitEntry ops l e i =
      BitVec.ofNat 64 (frameOf l e + i * l.next.size) ||| splitRight ops l e := by
  have hframe : ∀ (k : PageTableLevel) (m : Word), m = fieldMask 64 k.shift 39 → k.shift ≤ 39 →
      e &&& m = BitVec.ofNat 64 (frameOf k e) := by
    intro k m hm hk
    rw [hm, frameOf, ← toNat_and_fieldMask e hk (by decide), BitVec.ofNat_toNat, BitVec.setWidth_eq]
  rcases hl with rfl | rfl
  · rw [BitVec.ofNat_add, ← hframe .pdpt _ pdptePaddrMask_eq (by decide)]
    rfl
  · rw [BitVec.ofNat_add, ← hframe .pd _ pdePaddrMask_eq (by decide)]
    rfl

/-- What the pieces carry besides their address has no bits of the frame. -/
theorem splitRight_frame (hops : ops.Lawful) {l : PageTableLevel} (hl : l = .pdpt ∨ l = .pd)
    (e : Word) : splitRight ops l e &&& frameMask = 0#64 := by
  rcases hl with rfl | rfl
  · rw [splitRight, BitVec.and_assoc, protMask_frame, BitVec.and_zero]
  · obtain ⟨exe, hexe, -, hr⟩ := hops.exe
    have hexe' : exe &&& frameMask = 0#64 := by
      rw [← hexe, BitVec.and_assoc, show (eptExe &&& frameMask : Word) = 0#64 by decide,
        BitVec.and_zero]
    simp only [splitRight]
    rw [hr, or_and_of_disjoint_right hexe', BitVec.and_assoc, BitVec.and_assoc,
      show protMask &&& (~~~pagePs &&& frameMask) = (0#64 : Word) by decide, BitVec.and_zero]

/-- A page address has no attribute bits. -/
theorem attributes_ofNat {a : ℕ} (hdvd : pageSize ∣ a) (ha : a < 2 ^ 59) :
    attributes (BitVec.ofNat 64 a) = 0#64 := by
  apply BitVec.eq_of_getLsbD_eq
  intro i hi
  rw [attributes, BitVec.getLsbD_and, BitVec.getLsbD_and, protMask_eq, BitVec.getLsbD_or,
    getLsbD_fieldMask (by decide), getLsbD_fieldMask (by decide), BitVec.getLsbD_zero]
  by_cases hlow : i < 12
  · rw [getLsbD_ofNat_of_dvd (k := 12) hdvd hlow, Bool.false_and]
  · by_cases hhigh : 59 ≤ i
    · have hbit : (BitVec.ofNat 64 a).getLsbD i = false := by
        rw [BitVec.getLsbD_ofNat, Nat.testBit_lt_two_pow]
        · simp
        · exact lt_of_lt_of_le ha (Nat.pow_le_pow_right (by decide) (by omega))
      rw [hbit, Bool.false_and]
    · simp [hlow, hhigh]

/-- The attributes of a union are the union of the attributes. -/
theorem attributes_or (a b : Word) : attributes (a ||| b) = attributes a ||| attributes b :=
  BitVec.and_or_distrib_right

/-- Recovering the execute right acts on the attributes. -/
theorem attributes_recover (hops : ops.Lawful) {a b : Word} (h : attributes a = attributes b) :
    attributes (ops.recoverExeRight a) = attributes (ops.recoverExeRight b) := by
  obtain ⟨exe, -, -, hr⟩ := hops.exe
  rw [hr, hr, attributes_or, attributes_or, h]

theorem attributes_protMask (e : Word) : attributes (e &&& protMask) = attributes e := by
  rw [attributes, attributes, BitVec.and_assoc, ← BitVec.and_assoc protMask, BitVec.and_self]

theorem attributes_not_ps (e : Word) : attributes (e &&& ~~~pagePs) = attributes e := by
  rw [attributes, attributes, BitVec.and_assoc, BitVec.and_comm protMask,
    ← BitVec.and_assoc _ _ protMask,
    BitVec.and_self]

/-- The pieces have the attributes of the entry, with the execute right recovered where the pieces
are 4-KByte pages. -/
theorem attributes_splitRight (hops : ops.Lawful) {l : PageTableLevel} (hl : l = .pdpt ∨ l = .pd)
    (e : Word) : attributes (splitRight ops l e) =
      attributes (if l = .pd then ops.recoverExeRight e else e) := by
  rcases hl with rfl | rfl
  · exact attributes_protMask e
  · refine attributes_recover hops ?_
    rw [attributes_not_ps, attributes_protMask]

/-- The pieces of a large page begin at their own size and lie below `MAXPHYADDR`. -/
theorem splitFrame_spec {l : PageTableLevel} (hl : l = .pdpt ∨ l = .pd) (e : Word) (v : ℕ) :
    l.next.size ∣ frameOf l e + l.next.index v * l.next.size ∧
      pageSize ∣ frameOf l e + l.next.index v * l.next.size ∧
      frameOf l e + l.next.index v * l.next.size + l.next.size ≤ 2 ^ 39 := by
  have hlpt : l ≠ .pt := by rcases hl with rfl | rfl <;> decide
  have hs39 : l.shift ≤ 39 := by rcases hl with rfl | rfl <;> decide
  have hsize := size_eq hlpt
  have hpos : 0 < l.size := Nat.two_pow_pos _
  have hframe : frameOf l e + l.size ≤ 2 ^ 39 := by
    have hdvd : l.size ∣ 2 ^ 39 := pow_dvd_pow 2 hs39
    have hlt : e.toNat % 2 ^ 39 < 2 ^ 39 := Nat.mod_lt _ (Nat.two_pow_pos _)
    have hdiv : e.toNat % 2 ^ 39 / l.size < 2 ^ 39 / l.size := by
      rw [Nat.div_lt_iff_lt_mul hpos, Nat.div_mul_cancel hdvd]
      exact hlt
    calc frameOf l e + l.size = (e.toNat % 2 ^ 39 / l.size + 1) * l.size := by
          rw [frameOf, Nat.add_mul, Nat.one_mul]
      _ ≤ 2 ^ 39 / l.size * l.size := Nat.mul_le_mul_right _ hdiv
      _ = 2 ^ 39 := Nat.div_mul_cancel hdvd
  have hdvd : l.next.size ∣ frameOf l e + l.next.index v * l.next.size := by
    refine Nat.dvd_add (Dvd.dvd.trans ?_ (Dvd.intro_left _ rfl : l.size ∣ frameOf l e))
      (Dvd.intro_left _ rfl)
    exact ⟨ptrsPerTable, by rw [hsize, Nat.mul_comm]⟩
  refine ⟨hdvd, Dvd.dvd.trans ?_ hdvd, ?_⟩
  · rcases hl with rfl | rfl <;> decide
  · have hle : (l.next.index v + 1) * l.next.size ≤ ptrsPerTable * l.next.size :=
      Nat.mul_le_mul_right _ (index_lt l.next v)
    rw [Nat.add_mul, Nat.one_mul, ← hsize] at hle
    omega

/-- A piece has the attributes of the page it was cut from, and a 4-KByte piece may be
executed. -/
theorem attributes_splitEntry (hops : ops.Lawful) {l : PageTableLevel} (hl : l = .pdpt ∨ l = .pd)
    (e : Word) (v : ℕ) :
    attributes (splitEntry ops l e (l.next.index v)) =
      attributes (if l = .pd then ops.recoverExeRight e else e) := by
  obtain ⟨-, hpage, hle⟩ := splitFrame_spec hl e v
  have hnext : 0 < l.next.size := Nat.two_pow_pos _
  have hsmall : frameOf l e + l.next.index v * l.next.size < 2 ^ 59 := by omega
  rw [splitEntry_eq hl, attributes_or, attributes_ofNat hpage hsmall, BitVec.zero_or,
    attributes_splitRight hops hl]

/-- **A piece maps its addresses like the page it was cut from.** -/
theorem splitEntry_spec (hops : ops.Lawful) {l : PageTableLevel} (hl : l = .pdpt ∨ l = .pd)
    {e : Word} (he : e &&& highFrameMask = 0#64) (v : ℕ) :
    Leaf.hpa ⟨l.next, splitEntry ops l e (l.next.index v)⟩ v = Leaf.hpa ⟨l, e⟩ v ∧
      splitEntry ops l e (l.next.index v) &&& highFrameMask = 0#64 := by
  have hlpt : l ≠ .pt := by rcases hl with rfl | rfl <;> decide
  have hlpml : l ≠ .pml4 := by rcases hl with rfl | rfl <;> decide
  have hsize := size_eq hlpt
  obtain ⟨hdvd, -, hle⟩ := splitFrame_spec hl e v
  have hnext : 0 < l.next.size := Nat.two_pow_pos _
  have hright := splitRight_frame hops hl e
  refine ⟨?_, ?_⟩
  · -- both addresses are the frame plus the offset of `v` in the large page
    apply BitVec.eq_of_toNat_eq
    rw [splitEntry_eq hl, hpa_of_paddr (next_ne_pml4 l) hdvd hright, Leaf.hpa_toNat hlpml]
    have hlow : e.toNat % 2 ^ 52 = e.toNat % 2 ^ 39 := by
      have hz : (e &&& highFrameMask).toNat = 0 := by rw [he]; rfl
      rw [highFrameMask, toNat_and_fieldMask e (by decide) (by decide)] at hz
      omega
    have hoff : v % l.size = l.next.index v * l.next.size + v % l.next.size := by
      rw [index, hsize, Nat.mul_comm ptrsPerTable, Nat.mod_mul, Nat.mul_comm, Nat.add_comm]
    have hvlt : v % l.next.size < l.next.size := Nat.mod_lt _ hnext
    have hsmall : frameOf l e + l.next.index v * l.next.size + v % l.next.size < 2 ^ 52 := by
      omega
    rw [Nat.mod_eq_of_lt hsmall, hlow, hoff]
    exact Nat.add_assoc _ _ _
  · have hr : splitRight ops l e &&& highFrameMask = 0#64 :=
      and_eq_zero_of_subset hright (by decide)
    rw [splitEntry_eq hl, or_and_of_disjoint_right hr]
    apply BitVec.eq_of_toNat_eq
    rw [highFrameMask, toNat_and_fieldMask _ (by decide) (by decide), BitVec.toNat_ofNat]
    simp only [BitVec.toNat_ofNat]
    omega

/-- **The cut changes no attribute**, but for the execute right that a 4-KByte piece of a large
page gets. -/
theorem ModPlan.cut_attributes (plan : ModPlan) (hops : plan.ops.Lawful) {L : Leaf} (v : ℕ)
    (hlevel : L.level ≠ .pml4) :
    attributes (plan.cut L v).entry =
      attributes (if (plan.cut L v).level = .pt ∧ L.level ≠ .pt
        then plan.ops.recoverExeRight L.entry else L.entry) := by
  have hpd : ∀ e, attributes (plan.cutPd e v).entry =
      attributes (if (plan.cutPd e v).level = .pt then plan.ops.recoverExeRight e else e) := by
    intro e
    rw [cutPd]
    split
    · exact attributes_splitEntry (l := .pd) hops (Or.inr rfl) e v
    · rfl
  obtain ⟨level, e⟩ := L
  cases level with
  | pml4 => exact absurd rfl hlevel
  | pt => simp [cut]
  | pd => simpa [cut] using hpd e
  | pdpt =>
    by_cases h : plan.Splits .pdpt v
    · have hpiece := attributes_splitEntry (l := .pdpt) hops (Or.inl rfl) e v
      have hcut : plan.cut ⟨.pdpt, e⟩ v =
          plan.cutPd (splitEntry plan.ops .pdpt e (pd.index v)) v := if_pos h
      rw [hcut, hpd]
      split
      · next hpt =>
        rw [if_pos ⟨hpt, nofun⟩]
        exact attributes_recover hops hpiece
      · next hpt =>
        rw [if_neg fun hc => hpt hc.1]
        exact hpiece
    · have hcut : plan.cut ⟨.pdpt, e⟩ v = ⟨.pdpt, e⟩ := if_neg h
      rw [hcut]
      rfl

/-- **The cut changes no address**, and the pieces are no larger than the page. -/
theorem ModPlan.cut_spec (plan : ModPlan) (hops : plan.ops.Lawful) {L : Leaf} (v : ℕ)
    (hlevel : L.level ≠ .pml4) (hlow : L.level ≠ .pt → L.entry &&& highFrameMask = 0#64) :
    (plan.cut L v).hpa v = L.hpa v ∧
      ((plan.cut L v).level ≠ .pt → (plan.cut L v).entry &&& highFrameMask = 0#64) ∧
      (plan.cut L v).level ≠ .pml4 ∧ (plan.cut L v).level.size ≤ L.level.size := by
  have hpd : ∀ e, e &&& highFrameMask = 0#64 →
      (plan.cutPd e v).hpa v = Leaf.hpa ⟨.pd, e⟩ v ∧
      ((plan.cutPd e v).level ≠ .pt → (plan.cutPd e v).entry &&& highFrameMask = 0#64) ∧
      (plan.cutPd e v).level ≠ .pml4 ∧ (plan.cutPd e v).level.size ≤ pd.size := by
    intro e he
    rw [cutPd]
    by_cases h : plan.Splits .pd v
    · obtain ⟨hhpa, -⟩ := splitEntry_spec (l := .pd) hops (Or.inr rfl) he v
      rw [if_pos h]
      exact ⟨hhpa, fun hne => absurd rfl hne, nofun, show pt.size ≤ pd.size by decide⟩
    · rw [if_neg h]
      exact ⟨rfl, fun _ => he, nofun, le_rfl⟩
  obtain ⟨level, e⟩ := L
  cases level with
  | pml4 => exact absurd rfl hlevel
  | pt => exact ⟨rfl, fun h => absurd rfl h, nofun, le_rfl⟩
  | pd => exact hpd e (hlow nofun)
  | pdpt =>
    by_cases h : plan.Splits .pdpt v
    · obtain ⟨hhpa, hlow'⟩ := splitEntry_spec (l := .pdpt) hops (Or.inl rfl) (hlow nofun) v
      have hcut : plan.cut ⟨.pdpt, e⟩ v =
          plan.cutPd (splitEntry plan.ops .pdpt e (pd.index v)) v := if_pos h
      rw [hcut]
      obtain ⟨h₁, h₂, h₃, h₄⟩ := hpd (splitEntry plan.ops .pdpt e (pd.index v)) hlow'
      exact ⟨h₁.trans hhpa, h₂, h₃, h₄.trans (show pd.size ≤ pdpt.size by decide)⟩
    · have hcut : plan.cut ⟨.pdpt, e⟩ v = ⟨.pdpt, e⟩ := if_neg h
      rw [hcut]
      exact ⟨rfl, fun _ => hlow nofun, nofun, le_rfl⟩

/-! ## Changing attributes -/

theorem hpa_modify {set clr : Word} (hset : set &&& frameMask = 0#64)
    (hclr : clr &&& frameMask = 0#64) {l : PageTableLevel} (hl : l ≠ .pml4) (e : Word) (v : ℕ) :
    Leaf.hpa ⟨l, (e &&& ~~~clr) ||| set⟩ v = Leaf.hpa ⟨l, e⟩ v := by
  have hsub : fieldMask 64 l.shift 52 &&& frameMask = fieldMask 64 l.shift 52 := by
    cases l
    case pml4 => exact absurd rfl hl
    all_goals decide
  have hframe : ∀ x : Word, x &&& frameMask = 0#64 → x &&& fieldMask 64 l.shift 52 = 0#64 := by
    intro x hx
    refine and_eq_zero_of_subset hx ?_
    rw [BitVec.and_comm] at hsub ⊢
    exact hsub
  rw [Leaf.hpa, Leaf.hpa, BitVec.and_assoc, BitVec.and_assoc, frame_mask hl,
    or_and_of_disjoint_right (hframe set hset), BitVec.and_assoc,
    not_and_of_disjoint (hframe clr hclr)]

theorem attributes_modify (set clr : Word) {a b : Word} (h : attributes a = attributes b) :
    attributes ((a &&& ~~~clr) ||| set) = attributes ((b &&& ~~~clr) ||| set) := by
  have hand : ∀ x : Word, attributes (x &&& ~~~clr) = attributes x &&& ~~~clr := by
    intro x
    rw [attributes, attributes, BitVec.and_assoc x, BitVec.and_comm (~~~clr), ← BitVec.and_assoc x]
  rw [attributes_or, attributes_or, hand, hand, h]

/-- Presence is one of the attributes. -/
theorem present_of_attributes (hops : ops.Lawful) {a b : Word} (h : attributes a = attributes b) :
    ops.pgentryPresent a = ops.pgentryPresent b := by
  have hlow : ∀ x : Word, x &&& 0x7#64 = attributes x &&& 0x7#64 := by
    intro x
    rw [attributes, BitVec.and_assoc, show protMask &&& ~~~pagePs &&& 0x7#64 = (0x7#64 : Word) by
      decide]
  refine hops.present_congr ?_
  rw [hlow a, hlow b, h]

/-! ## The translations after the call

An address that was mapped is retained, with the attributes it had or with the new ones, or it is
unmapped. Which of these is the case depends on where the walk for it ends: in a block that the
range covers, in one that is cut, or elsewhere. -/

/-- Large pages lie below `MAXPHYADDR`. -/
def FramesLow (ops : MemoryOps) (s : PgMem) : Prop :=
  ∀ v L, v < 2 ^ 48 → leaf ops s.mem v = some L → L.level ≠ .pt →
    L.entry &&& highFrameMask = 0#64

/-- The large leaves of a call of `mmu_add` lie below `MAXPHYADDR` when its pages
do; what sticks out by less than the smallest large page does not matter. -/
theorem Mappable.framesLow {paddrBase vaddrBase size : ℕ} {prot : Word} {s : PgMem}
    (h : Mappable ops paddrBase vaddrBase size s) (hprot : ProtOk ops prot) (hknown : ops.Known)
    (hwf : WellFormed ops s) (hlow : FramesLow ops s)
    (hpaddr : roundPageDown paddrBase + (rangeEnd vaddrBase size - roundPageDown vaddrBase) <
      2 ^ 39 + 2 ^ 21) :
    FramesLow ops (mmuAdd ops ops.info.pml4Base paddrBase vaddrBase size prot s) := by
  intro v L hv hL hne
  by_cases hin : roundPageDown vaddrBase ≤ v ∧ v < rangeEnd vaddrBase size
  · obtain ⟨l, r, hl, hbs, hnx, hal, hattr, -, hleaf⟩ := h.leaf_inside hprot hknown hwf hin.1 hin.2
    obtain rfl := Option.some.inj (hL.symm.trans hleaf)
    have hnx := hnx.resolve_left hne
    have hpd : 2 ^ 21 ∣ (addPlan ops paddrBase vaddrBase size prot s).pa (blockStart l.shift v) := by
      refine (pow_dvd_pow 2 ?_).trans hal
      revert hl hne
      cases l <;> simp [shift, AddPlan.mapAt]
    have hsize : 2 ^ 21 ≤ 2 ^ l.shift := by
      refine Nat.pow_le_pow_right (by decide) ?_
      revert hl hne
      cases l <;> simp [shift, AddPlan.mapAt]
    have hr : r &&& highFrameMask = 0#64 := and_eq_zero_of_subset hattr (by decide)
    rw [AddPlan.mapAt, or_and_of_disjoint_right hr]
    apply BitVec.eq_of_toNat_eq
    rw [highFrameMask, toNat_and_fieldMask _ (by decide) (by decide), BitVec.toNat_ofNat]
    have hblock := BlockLoop.lt_nextBlock l.shift v
    have hbv := blockStart_le l.shift v
    simp only [BitVec.toNat_ofNat, AddPlan.pa, addPlan, nextBlock_eq] at hbs hnx hpd ⊢
    omega
  · rw [h.leaf_outside prot hknown hwf hv hin] at hL
    exact hlow v L hv hL hne

/-- After the call `v` lies in a page of `size` bytes with the attributes of `e`,
and has the host address it had. -/
def Retained (ops : MemoryOps) (v : ℕ) (s s' : PgMem) (e : Word) (size : ℕ) : Prop :=
  ∃ e', lookupEntry ops ops.info.pml4Base v s' = some (e', size) ∧
    attributes e' = attributes e ∧
    localGpa2hpa ops ops.info.pml4Base v s' = localGpa2hpa ops ops.info.pml4Base v s

/-- The range lies in the window, and where there are no page tables it consists
of whole 2-MByte blocks. -/
structure Changeable (ops : MemoryOps) (vaddrBase size : ℕ) : Prop where
  window : rangeEnd vaddrBase size ≤ ops.info.window
  pages : ops.info.ptPool = true ∨ 2 ^ 21 ∣ roundPageDown vaddrBase ∧
    2 ^ 21 ∣ rangeEnd vaddrBase size

theorem Changeable.served {vaddrBase size : ℕ} (h : Changeable ops vaddrBase size)
    (protSet protClr : Word) (type : MrType) :
    (modPlan ops vaddrBase size protSet protClr type).Served := by
  have hwin : rangeEnd vaddrBase size ≤ ops.info.window := h.window
  rintro l v (rfl | rfl) hge hlt hsplit
  · exact PoolLayout.div_lt_pageNum (l := .pdpt) (by decide) (lt_of_lt_of_le hlt hwin) nofun
  · rcases h.pages with hpool | ⟨hstart, hstop⟩
    · exact PoolLayout.div_lt_pageNum (l := .pd) (by decide) (lt_of_lt_of_le hlt hwin)
        fun _ => hpool
    · -- a range of whole 2-MByte blocks cuts none of them
      exfalso
      refine hsplit.2 ⟨?_, ?_⟩
      all_goals simp only [modPlan, blockStart, nextBlock, shift] at *
      all_goals omega

theorem size_eq_page {l : PageTableLevel} : l.size = pageSize ↔ l = .pt := by
  cases l <;> decide

theorem leaf_level_ne {m : ℕ → Word} {v : ℕ} {L : Leaf} (h : leaf ops m v = some L) :
    L.level ≠ .pml4 := by
  obtain ⟨-, -, -, hmaps⟩ := leafOver_some h
  intro he
  rw [he] at hmaps
  exact hmaps

/-- The call on one leaf, in terms of what can be looked up. -/
theorem retained_of_leaf {s s' : PgMem} (hs : Sound ops s) (hs' : Sound ops s') {v : ℕ}
    {L L' : Leaf} {e : Word} (hL : leaf ops s.mem (v % 2 ^ 48) = some L)
    (hL' : leaf ops s'.mem (v % 2 ^ 48) = some L')
    (hhpa : L'.hpa (v % 2 ^ 48) = L.hpa (v % 2 ^ 48)) (hattr : attributes L'.entry = attributes e) :
    Retained ops v s s' e L'.level.size := by
  refine ⟨L'.entry, ?_, hattr, ?_⟩
  · rw [lookupEntry_eq hs', hL', Option.map_some]
  · rw [localGpa2hpa_eq hs, localGpa2hpa_eq hs', hL, hL', Option.map_some, Option.map_some,
      ← Leaf.hpa_mod (leaf_level_ne hL), ← Leaf.hpa_mod (leaf_level_ne hL'), hhpa]

theorem lookupEntry_of_leaf_none {s' : PgMem} (hs' : Sound ops s') {v : ℕ}
    (h : leaf ops s'.mem (v % 2 ^ 48) = none) : lookupEntry ops ops.info.pml4Base v s' = none := by
  rw [lookupEntry_eq hs', h, Option.map_none]

/-- A modification of the part `C` of a leaf that has the attributes of `old`. -/
theorem modified_of_leaf (hops : ops.Lawful) {s s' : PgMem} (hs : Sound ops s)
    (hs' : Sound ops s') {v : ℕ} {L C : Leaf} {old set clr : Word}
    (hset : set &&& frameMask = 0#64) (hclr : clr &&& frameMask = 0#64)
    (hL : leaf ops s.mem (v % 2 ^ 48) = some L) (hne : C.level ≠ .pml4)
    (hhpa : C.hpa (v % 2 ^ 48) = L.hpa (v % 2 ^ 48)) (hattr : attributes C.entry = attributes old)
    (hL' : leaf ops s'.mem (v % 2 ^ 48) =
      if ops.pgentryPresent ((C.entry &&& ~~~clr) ||| set) = 0#64 then none
      else some ⟨C.level, (C.entry &&& ~~~clr) ||| set⟩) :
    if ops.pgentryPresent ((old &&& ~~~clr) ||| set) = 0#64 then
      lookupEntry ops ops.info.pml4Base v s' = none
    else Retained ops v s s' ((old &&& ~~~clr) ||| set) C.level.size := by
  -- the part has the attributes of the old entry, so the new entries agree in theirs
  have hattr' := attributes_modify set clr hattr
  rw [present_of_attributes hops hattr'] at hL'
  split
  · next habs =>
    rw [if_pos habs] at hL'
    exact lookupEntry_of_leaf_none hs' hL'
  · next habs =>
    rw [if_neg habs] at hL'
    have hhpa' := (hpa_modify hset hclr hne C.entry (v % 2 ^ 48)).trans hhpa
    have hret := retained_of_leaf hs hs' hL hL' hhpa' hattr'
    exact hret

theorem mmuModifyOrDel_empty {s : PgMem} {vaddrBase size : ℕ} {protSet protClr : Word}
    {type : MrType} (h : rangeEnd vaddrBase size ≤ roundPageDown vaddrBase) :
    mmuModifyOrDel ops ops.info.pml4Base vaddrBase size protSet protClr type s = s := by
  rw [mmuModifyOrDel, ← rangeEnd, whileBlocks_of_le h]

/-- Every walk ends where the plan says. -/
theorem mmuModifyOrDel_leaf (hops : ops.Lawful) {s : PgMem} (hs : Sound ops s)
    {vaddrBase size : ℕ} (protSet : Word) {protClr : Word} {type : MrType}
    (hroot : RootWalkable ops s vaddrBase size type)
    (hrange : Changeable ops vaddrBase size)
    (hps : type = .modify → protClr &&& pagePs = 0#64)
    (hlt : roundPageDown vaddrBase < rangeEnd vaddrBase size) {v : ℕ} (hv : v < 2 ^ 48) :
    leaf ops (mmuModifyOrDel ops ops.info.pml4Base vaddrBase size protSet protClr type s).mem v =
      (modPlan ops vaddrBase size protSet protClr type).target (leaf ops s.mem v) v :=
  (mmuModifyOrDel_spec hops hs hroot hps hrange.window (Nat.le_of_lt hlt)
    (hrange.served protSet protClr type)).leaf_eq hlt rfl rfl hv

/-- **`mmu_modify_or_del` changes exactly its range.** What is unmapped stays so.
A mapped address keeps its host address, in a page that is at most smaller; it
keeps its attributes outside the range, has them changed inside, and is unmapped
by a deletion or when no access right is left. Where a large page was cut down to
4-KByte pages the execute right is back in what it had. -/
theorem mmuModifyOrDel_changes_range (hknown : ops.Known) {s : PgMem} (hs : Sound ops s)
    (hlow : FramesLow ops s) {vaddrBase size : ℕ} {protSet protClr : Word} {type : MrType}
    (hroot : type = .del → SanitizedRoot ops s) (hrange : Changeable ops vaddrBase size)
    (hps : type = .modify → protClr &&& pagePs = 0#64)
    (hset : type = .modify → protSet &&& frameMask = 0#64)
    (hclr : type = .modify → protClr &&& frameMask = 0#64) (v : ℕ) :
    let s' := mmuModifyOrDel ops ops.info.pml4Base vaddrBase size protSet protClr type s
    let u := v % 2 ^ 48
    (lookupEntry ops ops.info.pml4Base v s = none →
      lookupEntry ops ops.info.pml4Base v s' = none) ∧
    ∀ e pgSize, lookupEntry ops ops.info.pml4Base v s = some (e, pgSize) → ∃ pgSize' ≤ pgSize,
      let old := if pgSize' = pageSize ∧ pgSize ≠ pageSize then ops.recoverExeRight e else e
      if roundPageDown vaddrBase ≤ u ∧ u < rangeEnd vaddrBase size then
        match type with
        | .del => lookupEntry ops ops.info.pml4Base v s' = none
        | .modify =>
          if ops.pgentryPresent ((old &&& ~~~protClr) ||| protSet) = 0#64 then
            lookupEntry ops ops.info.pml4Base v s' = none
          else Retained ops v s s' ((old &&& ~~~protClr) ||| protSet) pgSize'
      else Retained ops v s s' old pgSize' := by
  intro s' u
  have hops := hknown.lawful
  have hu48 : u < 2 ^ 48 := Nat.mod_lt v (Nat.two_pow_pos 48)
  rcases Nat.lt_or_ge (roundPageDown vaddrBase) (rangeEnd vaddrBase size) with hlt | hempty
  · set plan := modPlan ops vaddrBase size protSet protClr type with hplan
    have hroot' := SanitizedRoot.walkable hroot vaddrBase size
    have hpost : ModPost plan .pml4 _ _ s s' := mmuModifyOrDel_spec hops hs hroot' hps hrange.window
      (Nat.le_of_lt hlt) (hrange.served protSet protClr type)
    have hs' : Sound ops s' := hpost.sound
    have hleaf : leaf ops s'.mem u = plan.target (leaf ops s.mem u) u :=
      mmuModifyOrDel_leaf hops hs protSet hroot' hrange hps hlt hu48
    refine ⟨fun h => ?_, fun e pgSize h => ?_⟩
    · rw [lookupEntry_eq hs, Option.map_eq_none_iff] at h
      refine lookupEntry_of_leaf_none hs' ?_
      exact hleaf.trans ((congrArg (plan.target · u) h).trans (plan.target_none u))
    rw [lookupEntry_eq hs, Option.map_eq_some_iff] at h
    obtain ⟨L, hL, hLe⟩ := h
    obtain ⟨rfl, rfl⟩ := Prod.mk.inj hLe
    obtain ⟨hhpa, -, hcutne, hsize⟩ := plan.cut_spec hops u (leaf_level_ne hL) (hlow u L hu48 hL)
    have hattr := plan.cut_attributes hops u (leaf_level_ne hL)
    refine ⟨(plan.cut L u).level.size, hsize, ?_⟩
    intro old
    have hold : (if (plan.cut L u).level = .pt ∧ L.level ≠ .pt then plan.ops.recoverExeRight L.entry
        else L.entry) = old := by
      simp only [old, size_eq_page, ne_eq, hplan, modPlan]
    rw [hold] at hattr
    have hnew : leaf ops s'.mem u = plan.newLeaf L u := hleaf.trans (congrArg (plan.target · u) hL)
    by_cases hin : roundPageDown vaddrBase ≤ u ∧ u < rangeEnd vaddrBase size
    · rw [if_pos hin]
      have hin' : plan.start ≤ u ∧ u < plan.stop := hin
      cases type with
      | del =>
        refine lookupEntry_of_leaf_none hs' (hnew.trans ?_)
        exact ModPlan.newLeaf_of_absent hin' (sanitizedEntry_absent hops)
      | modify =>
        rw [ModPlan.newLeaf, if_pos hin'] at hnew
        exact modified_of_leaf hops hs hs' (hset rfl) (hclr rfl) hL hcutne hhpa hattr hnew
    · rw [if_neg hin]
      rw [ModPlan.newLeaf, if_neg (show ¬ (plan.start ≤ u ∧ u < plan.stop) from hin)] at hnew
      exact retained_of_leaf hs hs' hL hnew hhpa hattr
  · have hsame : s' = s := mmuModifyOrDel_empty hempty
    rw [hsame]
    refine ⟨fun h => h, fun e pgSize h => ⟨pgSize, le_rfl, ?_⟩⟩
    rw [if_neg (by omega), if_neg (fun hc => hc.2 hc.1)]
    exact ⟨e, h, rfl, rfl⟩

/-! ## Calls on a table with one page -/

theorem framesLow_createEpt (hops : ops.Lawful) {s : PgMem} : FramesLow ops (createEpt ops s) := by
  intro v L hv hL
  rw [createEpt_leaf hops hv] at hL
  cases hL

/-- One 4-KByte page at 0, mapped to 1 GByte. -/
def onePage (ops : MemoryOps) : PgMem :=
  mmuAdd ops ops.info.pml4Base 0x40000000 0x0 0x1000 (eptRwx ||| eptWb) (createEpt ops (bootMem ops))

theorem onePage_spec :
    let ops := initEptMemOps uosLayout true true
    Sound ops (onePage ops) ∧ FramesLow ops (onePage ops) ∧
      leaf ops (onePage ops).mem 0x0 = some ⟨.pt, 0x40000037#64⟩ ∧
      localGpa2hpa ops ops.info.pml4Base 0x0 (onePage ops) = some 0x40000000#64 := by
  intro ops
  have hknown : ops.Known := .ept uosLayout true true rfl
  have hboot := beforeCreate_bootMem ops
  have hwf := createEpt_wellFormed hknown.lawful hboot
  have hmap : Mappable ops 0x40000000 0x0 0x1000 (createEpt ops (bootMem ops)) :=
    createEpt_mappable hknown.lawful hboot rfl (by decide)
  have hprot : ProtOk ops (eptRwx ||| eptWb) := ⟨by decide, by decide, by decide⟩
  refine ⟨hmap.sound _ hknown hwf, hmap.framesLow hprot hknown hwf
    (framesLow_createEpt hknown.lawful) (by decide), ?_,
    hmap.hpa_inside hprot hknown hwf (by decide) (by decide)⟩
  have hend := (hmap.spec (eptRwx ||| eptWb) hknown hwf (by decide)).inside 0x0 (by decide) (by decide)
  set plan := addPlan ops 0x40000000 0x0 0x1000 (eptRwx ||| eptWb) (createEpt ops (bootMem ops))
  have hlarge : ∀ l, ¬ plan.LargeAt l 0x0 := fun l h => absurd h.1 (by decide)
  have hlate : ¬ plan.Late 0x0 := by
    rintro (⟨_, _, _, _, h⟩ | ⟨_, _, _, _, h⟩)
    · exact absurd h.1 (by decide)
    · exact absurd h.1 (by decide)
  have hsmall : plan.pdpteLeaf (eptRwx ||| eptWb) 0x0 = _ :=
    AddPlan.pdpteLeaf_of_small hknown.lawful (hlarge .pdpt) (hlarge .pd)
  rw [if_neg hlate] at hsmall
  rw [leaf_eq_walkEnd, onePage, show walkEnd ops _ 0x0 = _ from hend.trans hsmall,
    if_neg (by decide)]
  exact congrArg some (by decide)

theorem mmuModifyOrDel_changes_range_uos :
    let ops := initEptMemOps uosLayout true true
    localGpa2hpa ops ops.info.pml4Base 0x0
      (mmuModifyOrDel ops ops.info.pml4Base 0x0 0x1000 0#64 eptWr .modify (onePage ops)) =
        some 0x40000000#64 := by
  intro ops
  have hknown : ops.Known := .ept uosLayout true true rfl
  obtain ⟨hs, hlow, hleaf, hhpa⟩ := onePage_spec
  have hrange : Changeable ops 0x0 0x1000 := ⟨by decide, Or.inl rfl⟩
  have hroot : MrType.modify = .del → SanitizedRoot ops (onePage ops) := nofun
  have hps : MrType.modify = .modify → eptWr &&& pagePs = 0#64 := fun _ => by decide
  have hset : MrType.modify = .modify → 0#64 &&& frameMask = 0#64 := fun _ => by decide
  have hclr : MrType.modify = .modify → eptWr &&& frameMask = 0#64 := fun _ => by decide
  have hentry : lookupEntry ops ops.info.pml4Base 0x0 (onePage ops) =
      some (0x40000037#64, pageSize) := by
    rw [lookupEntry_eq hs, show 0x0 % 2 ^ 48 = 0x0 from rfl, hleaf]
    rfl
  obtain ⟨pgSize, -, h⟩ := (mmuModifyOrDel_changes_range hknown hs hlow hroot hrange hps hset hclr
    0x0).2 _ _ hentry
  have hold : (if pgSize = pageSize ∧ pageSize ≠ pageSize then ops.recoverExeRight 0x40000037#64
      else 0x40000037#64) = 0x40000037#64 := if_neg fun h => h.2 rfl
  rw [if_pos (by decide)] at h
  simp only [hold] at h
  rw [if_neg (by decide)] at h
  obtain ⟨-, -, -, h⟩ := h
  exact h.trans hhpa

/-- A modification that takes the last access right unmaps the page. -/
theorem mmuModifyOrDel_unmaps :
    let ops := initEptMemOps uosLayout true true
    localGpa2hpa ops ops.info.pml4Base 0x0 (onePage ops) = some 0x40000000#64 ∧
      localGpa2hpa ops ops.info.pml4Base 0x0
        (mmuModifyOrDel ops ops.info.pml4Base 0x0 0x1000 0#64 eptRwx .modify (onePage ops)) =
          none := by
  intro ops
  have hknown : ops.Known := .ept uosLayout true true rfl
  obtain ⟨hs, -, hleaf, hhpa⟩ := onePage_spec
  have hrange : Changeable ops 0x0 0x1000 := ⟨by decide, Or.inl rfl⟩
  have hps : MrType.modify = .modify → eptRwx &&& pagePs = 0#64 := fun _ => by decide
  have hroot := rootWalkable_modify ops (onePage ops) 0x0 0x1000
  have hpost := mmuModifyOrDel_spec hknown.lawful hs hroot hps hrange.window (by decide)
    (hrange.served 0#64 eptRwx .modify)
  have hs' : Sound ops _ := hpost.sound
  have h := mmuModifyOrDel_leaf hknown.lawful hs 0#64 hroot hrange hps (by decide)
    (show 0x0 < 2 ^ 48 by decide)
  set plan := modPlan ops 0x0 0x1000 0#64 eptRwx .modify
  have habs : plan.newLeaf ⟨.pt, 0x40000037#64⟩ 0x0 = none :=
    ModPlan.newLeaf_of_absent ⟨by decide, by decide⟩ (by decide)
  refine ⟨hhpa, ?_⟩
  rw [localGpa2hpa_eq hs', show 0x0 % 2 ^ 48 = 0x0 from rfl, h, hleaf, ModPlan.target,
    Option.bind_some, habs, Option.map_none]

end Acrn
