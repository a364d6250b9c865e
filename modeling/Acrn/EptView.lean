import Acrn.EptMap

/-!
# The guest's view of an EPT

`eptView` is what an EPT says about an address apart from the execute right: the host address
and all other attributes. Cutting a page does not change it, nor does giving the execute right
back, so every call is an equation about views. The execute right has two lemmas of its own:
large pages do not get it, and the tables above a page never take it away.
-/

namespace Acrn

open BlockLoop BitField PageTableLevel

/-! ## Views -/

/-- The attribute bits of an entry apart from the execute right. -/
def viewMask : Word := protMask &&& ~~~pagePs &&& ~~~eptExe

/-- The host address and the attributes of `gpa`. -/
def eptView (ops : MemoryOps) (s : PgMem) (gpa : ℕ) : Option (ℕ × Word) :=
  (localGpa2hpa ops ops.info.pml4Base gpa s).bind fun hpa =>
    (lookupEntry ops ops.info.pml4Base gpa s).map fun entry => (hpa.toNat, entry.1 &&& viewMask)

/-- What a leaf says about `v`. -/
def Leaf.view (L : Leaf) (v : ℕ) : ℕ × Word := ((L.hpa v).toNat, L.entry &&& viewMask)

variable {ops : MemoryOps} {s s' : PgMem}

theorem eptView_eq (hs : Sound ops s) {v : ℕ} (hv : v < 2 ^ 48) :
    eptView ops s v = (leaf ops s.mem v).map fun L => L.view v := by
  rw [eptView, localGpa2hpa_eq hs, lookupEntry_eq hs, Nat.mod_eq_of_lt hv]
  cases leaf ops s.mem v with
  | none => rfl
  | some L => rfl

theorem gpa2hpa_eq_view (hs : Sound ops s) {v : ℕ} (hv : v < 2 ^ 48) :
    gpa2hpa ops s v = (eptView ops s v).map Prod.fst := by
  rw [gpa2hpa_eq hs hv, eptView_eq hs hv, Option.map_map]
  rfl

/-- The same attributes look the same. -/
theorem and_viewMask_congr {a b : Word} (h : attributes a = attributes b) :
    a &&& viewMask = b &&& viewMask := by
  have hview : ∀ x : Word, x &&& viewMask = attributes x &&& ~~~eptExe := fun x => by
    rw [viewMask, attributes, BitVec.and_assoc x]
  rw [hview, hview, h]

/-- Bits of the execute right do not show. -/
theorem or_exe_and_viewMask {exe : Word} (h : exe &&& eptExe = exe) (a : Word) :
    (a ||| exe) &&& viewMask = a &&& viewMask := by
  refine or_and_of_disjoint_right ?_
  rw [← h, BitVec.and_assoc, show eptExe &&& viewMask = 0#64 by decide, BitVec.and_zero]

theorem and_not_exe_and_viewMask {exe : Word} (h : exe &&& eptExe = exe) (a : Word) :
    (a &&& ~~~exe) &&& viewMask = a &&& viewMask := by
  have hzero : exe &&& viewMask = 0#64 := by
    rw [← h, BitVec.and_assoc, show eptExe &&& viewMask = 0#64 by decide, BitVec.and_zero]
  rw [BitVec.and_assoc, not_and_of_disjoint hzero]

/-- An address of a page has no attributes. -/
theorem ofNat_or_and_viewMask {a : ℕ} (hdvd : pageSize ∣ a) (ha : a < 2 ^ 59) (right : Word) :
    (BitVec.ofNat 64 a ||| right) &&& viewMask = right &&& viewMask := by
  refine or_and_of_disjoint_left ?_
  apply BitVec.eq_of_getLsbD_eq
  intro i hi
  rw [BitVec.getLsbD_and, BitVec.getLsbD_zero, Bool.and_eq_false_iff]
  by_cases hlow : i < 12
  · exact .inl (getLsbD_ofNat_of_dvd (k := 12) hdvd hlow)
  by_cases hhigh : 59 ≤ i
  · refine .inl ?_
    rw [BitVec.getLsbD_ofNat, Nat.testBit_lt_two_pow, Bool.and_false]
    exact ha.trans_le (Nat.pow_le_pow_right (by decide) hhigh)
  · refine .inr ?_
    rw [viewMask, protMask_eq, BitVec.getLsbD_and, BitVec.getLsbD_and, BitVec.getLsbD_or,
      getLsbD_fieldMask (by decide), getLsbD_fieldMask (by decide)]
    simp [hlow, hhigh]

/-! ## Leaves that stay what they are -/

/-- `L'` maps `v` like `L`, and it is large and executable only if `L` is. -/
structure Leaf.Keeps (v : ℕ) (L L' : Leaf) : Prop where
  view : L'.view v = L.view v
  large : L'.level ≠ .pt → L.level ≠ .pt ∧ L'.entry &&& eptExe = L.entry &&& eptExe

theorem Leaf.Keeps.refl (v : ℕ) (L : Leaf) : L.Keeps v L := ⟨rfl, fun h => ⟨h, rfl⟩⟩

/-- From `s` to `s'` every mapped address keeps its leaf in this sense. -/
def LeafKept (ops : MemoryOps) (s s' : PgMem) (v : ℕ) : Prop :=
  ∃ f : Leaf → Leaf, leaf ops s'.mem v = (leaf ops s.mem v).map f ∧
    ∀ L, leaf ops s.mem v = some L → L.Keeps v (f L)

theorem LeafKept.refl (ops : MemoryOps) (s : PgMem) (v : ℕ) : LeafKept ops s s v :=
  ⟨id, Option.map_id.symm ▸ rfl, fun L _ => .refl v L⟩

theorem LeafKept.view_eq (hs : Sound ops s) (hs' : Sound ops s') {v : ℕ} (hv : v < 2 ^ 48)
    (h : LeafKept ops s s' v) : eptView ops s' v = eptView ops s v := by
  obtain ⟨f, hf, hkeep⟩ := h
  rw [eptView_eq hs' hv, eptView_eq hs hv, hf]
  cases hL : leaf ops s.mem v with
  | none => rfl
  | some L => exact congrArg some (hkeep L hL).view

/-- A cut keeps the leaf. -/
theorem ModPlan.cut_keeps (plan : ModPlan) (hops : plan.ops.Lawful) {L : Leaf} (v : ℕ)
    (hlevel : L.level ≠ .pml4) (hlow : L.level ≠ .pt → L.entry &&& highFrameMask = 0#64) :
    L.Keeps v (plan.cut L v) := by
  obtain ⟨hhpa, -, -, -⟩ := plan.cut_spec hops v hlevel hlow
  have hattr := plan.cut_attributes hops v hlevel
  refine ⟨?_, fun hne => ?_⟩
  · have hentry : (plan.cut L v).entry &&& viewMask = L.entry &&& viewMask := by
      refine (and_viewMask_congr hattr).trans ?_
      split
      · obtain ⟨exe, hexe, -, hr⟩ := hops.exe
        rw [hr]
        exact or_exe_and_viewMask hexe _
      · rfl
    rw [Leaf.view, Leaf.view, hhpa, hentry]
  · have hL : L.level ≠ .pt := by
      intro hpt
      obtain ⟨level, e⟩ := L
      obtain rfl : level = .pt := hpt
      exact hne rfl
    rw [if_neg fun hc => hne hc.1] at hattr
    have hexe : ∀ x : Word, x &&& eptExe = attributes x &&& eptExe := fun x => by
      rw [attributes, BitVec.and_assoc,
        show (protMask &&& ~~~pagePs) &&& eptExe = eptExe by decide]
    exact ⟨hL, by rw [hexe, hattr, ← hexe]⟩

/-! ## The calls

Each call is an equation about views, without a word about leaves: this is what the devices and
memories of a guest are built from. -/

/-- A deletion removes its range and keeps the leaves elsewhere. -/
theorem EptOk.del_leaf (hknown : ops.Known) (hpool : ops.info.ptPool = true) (h : EptOk ops s)
    {gpa size : ℕ} (hwin : rangeEnd gpa size ≤ ops.info.window) {v : ℕ} (hv : v < 2 ^ 48) :
    if v ∈ pageRange gpa size then leaf ops (eptDelMr ops ops.info.pml4Base gpa size s).mem v = none
    else LeafKept ops s (eptDelMr ops ops.info.pml4Base gpa size s) v := by
  have hops := hknown.lawful
  rcases Nat.lt_or_ge (roundPageDown gpa) (rangeEnd gpa size) with hlt | hempty
  · have hleaf : leaf ops (eptDelMr ops ops.info.pml4Base gpa size s).mem v =
        (modPlan ops gpa size 0#64 0#64 .del).target (leaf ops s.mem v) v :=
      mmuModifyOrDel_leaf hops h.sound 0#64 (SanitizedRoot.walkable (fun _ => h.root) gpa size)
        ⟨hwin, .inl hpool⟩ (fun hc => (by cases hc)) hlt hv
    rw [leaf_target_del hops] at hleaf
    split
    · next hin => exact hleaf.trans (if_pos hin)
    · next hin =>
      rw [if_neg hin] at hleaf
      exact ⟨_, hleaf, fun L hL => ModPlan.cut_keeps _ hops v (leaf_level_ne hL) (h.low v L hv hL)⟩
  · rw [if_neg (not_mem_pageRange hempty), eptDelMr_empty hempty]
    exact .refl ops s v

/-- A new leaf has what was asked for; a large one is tweaked. -/
theorem EptOk.add_leaf (hknown : ops.Known) (hpool : ops.info.ptPool = true) (h : EptOk ops s)
    {hpa gpa size : ℕ} {prot : Word} (hwin : rangeEnd gpa size ≤ ops.info.window)
    (hprot : ProtOk ops (snooped prot))
    (hpaddr : roundPageDown hpa + (rangeEnd gpa size - roundPageDown gpa) < 2 ^ 39 + 2 ^ 21)
    (hfree : ∀ v ∈ pageRange gpa size, gpa2hpa ops s v = none) {v : ℕ} (hv : v < 2 ^ 48) :
    if v ∈ pageRange gpa size then
      ∃ L, leaf ops (eptAddMr ops ops.info.pml4Base hpa gpa size prot s).mem v = some L ∧
        L.view v = (roundPageDown hpa + (v - roundPageDown gpa), snooped prot &&& viewMask) ∧
        (L.level ≠ .pt → L.entry &&& eptExe = ops.tweakExeRight (snooped prot) &&& eptExe)
    else leaf ops (eptAddMr ops ops.info.pml4Base hpa gpa size prot s).mem v =
      leaf ops s.mem v := by
  have hmap : Mappable ops hpa gpa size s := by
    refine ⟨hwin, .inl hpool, fun u hge hu => ?_⟩
    have hu48 : u < 2 ^ 48 := hu.trans_le (hwin.trans ops.info.window_le)
    have hnone := hfree u ⟨hge, hu⟩
    rw [gpa2hpa_eq h.sound hu48, Option.map_eq_none_iff] at hnone
    exact (lookupAddress_eq_none h.sound hu48).mpr hnone
  split
  · next hin =>
    obtain ⟨hge, hlt⟩ := hin
    obtain ⟨hok, hgpa⟩ := h.add hknown hpool hwin hprot hpaddr hfree
    obtain ⟨l, r, hl, hbs, hnx, hal, -, hr, hleaf⟩ :=
      hmap.leaf_inside hprot hknown h.toWellFormed hge hlt
    set plan := addPlan ops hpa gpa size (snooped prot) s with hplan
    refine ⟨_, hleaf, ?_, fun hne => ?_⟩
    · have hhpa := hgpa v hv
      rw [if_pos (show v ∈ pageRange gpa size from ⟨hge, hlt⟩), gpa2hpa_eq hok.sound hv,
        show leaf ops (eptAddMr ops ops.info.pml4Base hpa gpa size prot s).mem v = _ from hleaf,
        Option.map_some] at hhpa
      have hpage : pageSize ∣ plan.pa (blockStart l.shift v) :=
        (pow_dvd_pow 2 (shift_bounds hl).1).trans hal
      have hsmall : plan.pa (blockStart l.shift v) < 2 ^ 59 := by
        have hbv := blockStart_le l.shift v
        simp only [AddPlan.pa, hplan, addPlan] at hbs ⊢
        omega
      have hright : r &&& viewMask = snooped prot &&& viewMask := by
        obtain ⟨exe, hexe, ht, -⟩ := hknown.lawful.exe
        have htweak : plan.ops.tweakExeRight plan.prot &&& viewMask = snooped prot &&& viewMask := by
          rw [show plan.ops.tweakExeRight plan.prot = snooped prot &&& ~~~exe from ht _]
          exact and_not_exe_and_viewMask hexe _
        rcases hr with ⟨-, rfl | rfl⟩ | ⟨-, rfl⟩
        · rfl
        · exact htweak
        · rw [or_and_of_disjoint_right (show pagePs &&& viewMask = 0#64 by decide), htweak]
      rw [Leaf.view, Option.some.inj hhpa]
      refine congrArg (Prod.mk _) ?_
      exact (ofNat_or_and_viewMask hpage hsmall r).trans hright
    · obtain ⟨hpt, -⟩ | ⟨-, rfl⟩ := hr
      · exact absurd hpt hne
      have hpage : pageSize ∣ plan.pa (blockStart l.shift v) :=
        (pow_dvd_pow 2 (shift_bounds hl).1).trans hal
      have haddr : BitVec.ofNat 64 (plan.pa (blockStart l.shift v)) &&& eptExe = 0#64 := by
        apply BitVec.eq_of_getLsbD_eq
        intro i hi
        rw [BitVec.getLsbD_and, show eptExe = fieldMask 64 2 3 by decide,
          getLsbD_fieldMask (by decide), BitVec.getLsbD_zero]
        by_cases hlow : i < 12
        · rw [getLsbD_ofNat_of_dvd (k := 12) hpage hlow, Bool.false_and]
        · simp [show ¬ i < 3 by omega]
      show (BitVec.ofNat 64 _ ||| (plan.ops.tweakExeRight plan.prot ||| pagePs)) &&& eptExe = _
      rw [or_and_of_disjoint_left haddr,
        or_and_of_disjoint_right (show pagePs &&& eptExe = 0#64 by decide)]
      rfl
  · next hin => exact hmap.leaf_outside (snooped prot) hknown h.toWellFormed hv hin

/-- A deletion, seen from the guest. -/
theorem EptOk.del_view (hknown : ops.Known) (hpool : ops.info.ptPool = true) (h : EptOk ops s)
    {gpa size : ℕ} (hwin : rangeEnd gpa size ≤ ops.info.window) {v : ℕ} (hv : v < 2 ^ 48) :
    eptView ops (eptDelMr ops ops.info.pml4Base gpa size s) v =
      if v ∈ pageRange gpa size then none else eptView ops s v := by
  have hleaf := h.del_leaf hknown hpool hwin hv
  have hsound := (h.del hknown hpool hwin).1.sound
  split at hleaf
  · next hin => rw [if_pos hin, eptView_eq hsound hv, hleaf, Option.map_none]
  · next hin =>
    rw [if_neg hin]
    exact hleaf.view_eq h.sound hsound hv

/-- An addition, seen from the guest. -/
theorem EptOk.add_view (hknown : ops.Known) (hpool : ops.info.ptPool = true) (h : EptOk ops s)
    {hpa gpa size : ℕ} {prot : Word} (hwin : rangeEnd gpa size ≤ ops.info.window)
    (hprot : ProtOk ops (snooped prot))
    (hpaddr : roundPageDown hpa + (rangeEnd gpa size - roundPageDown gpa) < 2 ^ 39 + 2 ^ 21)
    (hfree : ∀ v ∈ pageRange gpa size, gpa2hpa ops s v = none) {v : ℕ} (hv : v < 2 ^ 48) :
    eptView ops (eptAddMr ops ops.info.pml4Base hpa gpa size prot s) v =
      if v ∈ pageRange gpa size then
        some (roundPageDown hpa + (v - roundPageDown gpa), snooped prot &&& viewMask)
      else eptView ops s v := by
  have hleaf := h.add_leaf hknown hpool hwin hprot hpaddr hfree hv
  have hsound := (h.add hknown hpool hwin hprot hpaddr hfree).1.sound
  split at hleaf
  · next hin =>
    obtain ⟨L, hL, hview, -⟩ := hleaf
    rw [if_pos hin, eptView_eq hsound hv, hL, Option.map_some, hview]
  · next hin => rw [if_neg hin, eptView_eq hsound hv, eptView_eq h.sound hv, hleaf]

/-! ## Giving the execute right back -/

theorem ModPlan.cut_present (plan : ModPlan) (hops : plan.ops.Lawful) {L : Leaf} (v : ℕ)
    (hlevel : L.level ≠ .pml4) (h : plan.ops.pgentryPresent L.entry ≠ 0#64) :
    plan.ops.pgentryPresent (plan.cut L v).entry ≠ 0#64 := by
  have hattr := plan.cut_attributes hops v hlevel
  rw [present_of_attributes hops hattr]
  split
  · obtain ⟨exe, -, -, hr⟩ := hops.exe
    rw [hr]
    exact hops.present_or_left h
  · exact h

/-- A range of one page cuts what it lies in down to 4-KByte pages. -/
theorem ModPlan.cut_page {plan : ModPlan} (hpage : plan.stop = plan.start + pageSize)
    (hdvd : pageSize ∣ plan.start) {L : Leaf} {v : ℕ} (hv : plan.start ≤ v ∧ v < plan.stop)
    (hlevel : L.level ≠ .pml4) : (plan.cut L v).level = .pt := by
  have hsplits : ∀ l : PageTableLevel, l = .pdpt ∨ l = .pd → plan.Splits l v := by
    rintro l (rfl | rfl)
    all_goals
      refine ⟨⟨?_, ?_⟩, fun hc => ?_⟩
      all_goals
        try obtain ⟨h₁, h₂⟩ := hc
        simp only [nextBlock, blockStart, shift, pageSize] at *
        omega
  obtain ⟨level, e⟩ := L
  cases level with
  | pml4 => exact absurd rfl hlevel
  | pt => rfl
  | pd =>
    show (plan.cutPd e v).level = .pt
    rw [cutPd, if_pos (hsplits .pd (.inr rfl))]
  | pdpt =>
    have hcut : plan.cut ⟨.pdpt, e⟩ v = plan.cutPd (splitEntry plan.ops .pdpt e (pd.index v)) v :=
      if_pos (hsplits .pdpt (.inl rfl))
    rw [hcut, cutPd, if_pos (hsplits .pd (.inr rfl))]

/-- The range of one page. -/
theorem rangeEnd_page {page : ℕ} (hdvd : pageSize ∣ page) (h : page + pageSize ≤ 2 ^ 48) :
    rangeEnd page pageSize = page + pageSize := by
  simp only [rangeEnd, roundPageUp, blockStart, pageSize] at *
  omega

/-- **A page is made executable**: it becomes a 4-KByte page, and every leaf stays what it
was otherwise. -/
theorem EptOk.makeExecutable (hknown : ops.Known) (hpool : ops.info.ptPool = true)
    (h : EptOk ops s) {page : ℕ} (hdvd : pageSize ∣ page)
    (hwin : page + pageSize ≤ ops.info.window) :
    let s' := eptModifyMr ops ops.info.pml4Base page pageSize eptExe 0#64 s
    EptOk ops s' ∧ (∀ v < 2 ^ 48, LeafKept ops s s' v) ∧
      ∀ v, page ≤ v → v < page + pageSize → ∀ L, leaf ops s.mem v = some L →
        ∃ e, leaf ops s'.mem v = some ⟨.pt, e⟩ ∧ e &&& eptExe = eptExe := by
  intro s'
  have hops := hknown.lawful
  have hwin48 := ops.info.window_le
  have hstart : roundPageDown page = page := blockStart_of_dvd (k := 12) hdvd
  have hstop := rangeEnd_page hdvd (hwin.trans hwin48)
  have hset : snooped eptExe = eptExe := by decide
  have hclr : MrType.modify = .modify → (0#64 : Word) &&& pagePs = 0#64 := fun _ => by decide
  have hrange : Changeable ops page pageSize := ⟨by rw [hstop]; exact hwin, .inl hpool⟩
  have hlt : roundPageDown page < rangeEnd page pageSize := by
    rw [hstart, hstop, pageSize]
    omega
  set plan := modPlan ops page pageSize (snooped eptExe) 0#64 .modify with hplan
  have hroot := rootWalkable_modify ops s page pageSize
  have hpost : ModPost plan .pml4 _ _ s s' := mmuModifyOrDel_spec hops h.sound hroot hclr
    hrange.window (Nat.le_of_lt hlt) (hrange.served _ _ _)
  have hs' : Sound ops s' := hpost.sound
  have hin : ∀ v, plan.start ≤ v ∧ v < plan.stop ↔ page ≤ v ∧ v < page + pageSize := by
    intro v
    rw [show plan.start = page from hstart, show plan.stop = page + pageSize from hstop]
  have hpage : plan.stop = plan.start + pageSize := by
    rw [show plan.start = page from hstart, show plan.stop = page + pageSize from hstop]
  have hdvd' : pageSize ∣ plan.start := dvd_roundPageDown page
  have hentry : ∀ e, newEntry plan.ops plan.protSet plan.protClr plan.type e = e ||| eptExe := by
    intro e
    show (e &&& ~~~0#64) ||| snooped eptExe = e ||| eptExe
    rw [and_not_zero, hset]
  have hleaf : ∀ v < 2 ^ 48, ∀ L, leaf ops s.mem v = some L → leaf ops s'.mem v =
      some (if page ≤ v ∧ v < page + pageSize then ⟨.pt, (plan.cut L v).entry ||| eptExe⟩
        else plan.cut L v) := by
    intro v hv L hL
    have hlevel := leaf_level_ne hL
    have hpresent := plan.cut_present hops v hlevel (leafOver_some hL).2.2.1
    rw [show leaf ops s'.mem v = _ from hpost.leaf_eq hlt rfl rfl hv,
      show leaf plan.ops s.mem v = some L from hL, ModPlan.target, Option.bind_some]
    split
    · next hvin =>
      have hvin' := (hin v).mpr hvin
      rw [ModPlan.newLeaf_of_present hvin', hentry, ModPlan.cut_page hpage hdvd' hvin' hlevel]
      rw [hentry]
      exact hops.present_or_left hpresent
    · next hvout =>
      rw [ModPlan.newLeaf, if_neg fun hc => hvout ((hin v).mp hc)]
  have hnone : ∀ v < 2 ^ 48, leaf ops s.mem v = none → leaf ops s'.mem v = none := by
    intro v hv hL
    rw [show leaf ops s'.mem v = _ from hpost.leaf_eq hlt rfl rfl hv,
      show leaf plan.ops s.mem v = none from hL, ModPlan.target_none]
  refine ⟨⟨⟨hs', fun v hv => hpost.holes ?_ v hv (h.holes v hv)⟩, ?_, ?_⟩, fun v hv => ?_, ?_⟩
  · intro e he _
    rw [hentry]
    exact hops.present_or_left he
  · intro v L' hv hL' hne
    cases hL : leaf ops s.mem v with
    | none =>
      rw [hnone v hv hL] at hL'
      cases hL'
    | some L =>
      rw [hleaf v hv L hL] at hL'
      obtain rfl := Option.some.inj hL'
      split at hne
      · exact absurd rfl hne
      · next hvout =>
        rw [if_neg hvout]
        exact (plan.cut_spec hops v (leaf_level_ne hL) (h.low v L hv hL)).2.1 hne
  · exact (mmuModifyOrDel_evolves hops hpool hclr h.sound h.root hrange.window).sanitizedRoot h.root
  · refine ⟨fun L => if page ≤ v ∧ v < page + pageSize then
      ⟨.pt, (plan.cut L v).entry ||| eptExe⟩ else plan.cut L v, ?_, fun L hL => ?_⟩
    · cases hL : leaf ops s.mem v with
      | none => exact hnone v hv hL
      | some L => exact hleaf v hv L hL
    · have hkeep := plan.cut_keeps hops v (leaf_level_ne hL) (h.low v L hv hL)
      split
      · next hvin =>
        refine ⟨?_, fun hne => absurd rfl hne⟩
        have hlevel := ModPlan.cut_page hpage hdvd' ((hin v).mpr hvin) (leaf_level_ne hL)
        have hcut : plan.cut L v = ⟨.pt, (plan.cut L v).entry⟩ := by
          rw [← hlevel]
        have hhpa : Leaf.hpa ⟨.pt, ((plan.cut L v).entry &&& ~~~0#64) ||| eptExe⟩ v =
            Leaf.hpa ⟨.pt, (plan.cut L v).entry⟩ v :=
          hpa_modify (by decide) (by decide) (by decide) _ v
        rw [and_not_zero] at hhpa
        rw [← hkeep.view, Leaf.view, Leaf.view, hhpa, ← hcut,
          or_exe_and_viewMask (BitVec.and_self)]
      · exact hkeep
  · intro v hge hv L hL
    have hleaf' := hleaf v (by omega) L hL
    rw [if_pos ⟨hge, hv⟩] at hleaf'
    refine ⟨_, hleaf', ?_⟩
    rw [BitVec.and_or_distrib_right, BitVec.and_self, BitVec.or_comm]
    apply BitVec.eq_of_getLsbD_eq
    intro i _
    rw [BitVec.getLsbD_or, BitVec.getLsbD_and]
    cases eptExe.getLsbD i <;> simp

/-! ## The execute right of large pages -/

/-- No large page is executable. -/
def NoLargeExe (ops : MemoryOps) (s : PgMem) : Prop :=
  ∀ v L, v < 2 ^ 48 → leaf ops s.mem v = some L → L.level ≠ .pt → L.entry &&& eptExe = 0#64

theorem NoLargeExe.of_kept (h : NoLargeExe ops s)
    (hkept : ∀ v < 2 ^ 48, leaf ops s'.mem v = none ∨ LeafKept ops s s' v) : NoLargeExe ops s' := by
  intro v L' hv hL' hne
  obtain hnone | ⟨f, hf, hkeep⟩ := hkept v hv
  · rw [hnone] at hL'
    cases hL'
  · rw [hf, Option.map_eq_some_iff] at hL'
    obtain ⟨L, hL, rfl⟩ := hL'
    obtain ⟨hne', hexe⟩ := (hkeep L hL).large hne
    rw [hexe]
    exact h v L hv hL hne'

/-! ## The tables above a page

The processor grants what all entries on the way grant. As every table is referenced with the
default right, only the leaf counts. -/

/-- Every table that a walk reads is referenced with the default access right. -/
def TablesOpen (ops : MemoryOps) (s : PgMem) : Prop :=
  ∀ l v, l ≠ .pt → v < 2 ^ 48 → Linked ops s.mem l.next v →
    entryAt ops s.mem l v = tableEntry ops (ops.info.tablePage l v)

theorem Writes.tablesOpen (hops : ops.Lawful) (h : Writes ops s s') (ho : TablesOpen ops s) :
    TablesOpen ops s' := by
  induction h with
  | refl _ => exact ho
  | @leaf t l₀ v₀ e hw hl₀ hv₀ hlink hold hnew ih =>
    obtain ⟨-, hframe, -, hlinked⟩ := setLeaf_spec (hw.sound hops) hv₀ hlink hold hnew rfl
    intro l v hl hv hlv
    have hlv' := (hlinked l.next v hv).mp hlv
    rw [hframe v l hv ?_ ((linked_next hl v).mp hlv').1]
    · exact ih l v hl hv hlv'
    · -- a leaf was written, so there is no table below the block
      by_contra hc
      obtain ⟨hshift, hblock⟩ := not_or.mp hc
      have hvv : v / l₀.size = v₀ / l₀.size := not_not.mp hblock
      have htable := hlv'.isTable_above (k := l₀) (by have := shift_next_lt hl; omega)
      rw [entryAt_block le_rfl hvv] at htable
      exact hold htable
  | @table t l₀ v₀ f hw hl₀ hv₀ hlink hold hpage hf ih =>
    have hnew : NewTable ops t _ l₀ v₀ f :=
      ⟨hops, hw.sound hops, hl₀, hv₀, hlink, hold, hpage, hf, rfl⟩
    intro l v hl hv hlv
    obtain hlv' | ⟨hll, hvv⟩ := (hnew.linked_iff _ hv).mp hlv
    · rw [hnew.entryAt_old hl hv hlv' hlv]
      exact ih l v hl hv hlv'
    · obtain rfl : l = l₀ := next_inj hl hl₀ hll
      rw [hnew.entryAt_block_eq hvv, PoolLayout.tablePage, PoolLayout.tablePage, hvv]

/-- The right that the processor finds for `gpa`: what all entries on its way grant. -/
def walkRight (ops : MemoryOps) (pml4Page gpa : ℕ) (s : PgMem) : Word :=
  let pml4e := s.mem (pml4Page + 8 * pml4.index gpa)
  if ops.pgentryPresent pml4e = 0#64 then 0#64 else
  let pdpte := s.mem (pageVaddr pml4e + 8 * pdpt.index gpa)
  if ops.pgentryPresent pdpte = 0#64 then 0#64 else
  if entryLarge pdpte ≠ 0#64 then pml4e &&& pdpte &&& eptRwx else
  let pde := s.mem (pageVaddr pdpte + 8 * pd.index gpa)
  if ops.pgentryPresent pde = 0#64 then 0#64 else
  if entryLarge pde ≠ 0#64 then pml4e &&& pdpte &&& pde &&& eptRwx else
  let pte := s.mem (pageVaddr pde + 8 * pt.index gpa)
  if ops.pgentryPresent pte = 0#64 then 0#64 else pml4e &&& pdpte &&& pde &&& pte &&& eptRwx

theorem tableEntry_and_rwx (hdefault : ops.getDefaultAccessRight = eptRwx) (l : PageTableLevel)
    (v : ℕ) (x : Word) :
    (tableEntry ops (ops.info.tablePage l v) &&& x) &&& eptRwx = x &&& eptRwx := by
  have haddr : BitVec.ofNat 64 (ops.info.tablePage l v) &&& eptRwx = 0#64 := by
    apply BitVec.eq_of_getLsbD_eq
    intro i hi
    rw [BitVec.getLsbD_and, show eptRwx = fieldMask 64 0 3 by decide,
      getLsbD_fieldMask (by decide), BitVec.getLsbD_zero]
    by_cases hlow : i < 12
    · rw [getLsbD_ofNat_of_dvd (k := 12) (PoolLayout.tablePage_dvd l v) hlow, Bool.false_and]
    · simp [show ¬ i < 3 by omega]
  rw [tableEntry, hdefault, BitVec.and_comm _ x, BitVec.and_assoc, or_and_of_disjoint_left haddr,
    BitVec.and_self]

/-- **The tables never take a right away**: what a walk finds is what its last entry grants. -/
theorem walkRight_eq (hs : Sound ops s) (ho : TablesOpen ops s)
    (hdefault : ops.getDefaultAccessRight = eptRwx) {v : ℕ} (hv : v < 2 ^ 48) :
    walkRight ops ops.info.pml4Base v s =
      ((leaf ops s.mem v).map fun L => L.entry &&& eptRwx).getD 0#64 := by
  have hentry : ∀ l, s.mem (ops.info.entryAddr l v) = entryAt ops s.mem l v := fun _ => rfl
  have hslot : ∀ l : PageTableLevel, l ≠ .pt → Linked ops s.mem l.next v →
      pageVaddr (entryAt ops s.mem l v) + 8 * l.next.index v = ops.info.entryAddr l.next v :=
    fun l hl hlink => hs.slot_eq hl hv hlink
  have htable : ∀ l : PageTableLevel, l ≠ .pt → Linked ops s.mem l.next v → ∀ x : Word,
      (entryAt ops s.mem l v &&& x) &&& eptRwx = x &&& eptRwx := by
    intro l hl hlink x
    rw [ho l v hl hv hlink]
    exact tableEntry_and_rwx hdefault l v x
  simp only [walkRight, root_slot hv, hentry]
  rw [leaf, leafFrom_eq]
  by_cases h₄ : ops.pgentryPresent (entryAt ops s.mem .pml4 v) = 0#64
  · rw [if_pos h₄, if_pos h₄]
    rfl
  have l₄ : Linked ops s.mem .pdpt v := ⟨h₄, id⟩
  have s₄ : _ + 8 * pdpt.index v = ops.info.entryAddr .pdpt v := hslot .pml4 (by decide) l₄
  have t₄ := htable .pml4 (by decide) l₄
  rw [if_neg h₄, if_neg h₄, if_neg (show ¬ Maps .pml4 _ from id), s₄, hentry, next_pml4,
    leafFrom_eq]
  by_cases h₃ : ops.pgentryPresent (entryAt ops s.mem .pdpt v) = 0#64
  · rw [if_pos h₃, if_pos h₃]
    rfl
  rw [if_neg h₃, if_neg h₃]
  by_cases p₃ : entryLarge (entryAt ops s.mem .pdpt v) ≠ 0#64
  · rw [if_pos p₃, if_pos (show Maps .pdpt _ from p₃), t₄]
    rfl
  have l₃ : Linked ops s.mem .pd v := ⟨l₄, h₃, p₃⟩
  have s₃ : _ + 8 * pd.index v = ops.info.entryAddr .pd v := hslot .pdpt (by decide) l₃
  have t₃ := htable .pdpt (by decide) l₃
  rw [if_neg p₃, if_neg (show ¬ Maps .pdpt _ from p₃), s₃, hentry, next_pdpt, leafFrom_eq]
  by_cases h₂ : ops.pgentryPresent (entryAt ops s.mem .pd v) = 0#64
  · rw [if_pos h₂, if_pos h₂]
    rfl
  rw [if_neg h₂, if_neg h₂]
  by_cases p₂ : entryLarge (entryAt ops s.mem .pd v) ≠ 0#64
  · rw [if_pos p₂, if_pos (show Maps .pd _ from p₂), BitVec.and_assoc (entryAt ops s.mem .pml4 v),
      t₄, t₃]
    rfl
  have l₂ : Linked ops s.mem .pt v := ⟨l₄, ⟨h₃, p₃⟩, h₂, p₂⟩
  have s₂ : _ + 8 * pt.index v = ops.info.entryAddr .pt v := hslot .pd (by decide) l₂
  have t₂ := htable .pd (by decide) l₂
  rw [if_neg p₂, if_neg (show ¬ Maps .pd _ from p₂), s₂, hentry, next_pd, leafFrom_eq]
  by_cases h₁ : ops.pgentryPresent (entryAt ops s.mem .pt v) = 0#64
  · rw [if_pos h₁, if_pos h₁]
    rfl
  · rw [if_neg h₁, if_neg h₁, if_pos (show Maps .pt _ from trivial),
      BitVec.and_assoc (entryAt ops s.mem .pml4 v), BitVec.and_assoc (entryAt ops s.mem .pml4 v),
      t₄, BitVec.and_assoc (entryAt ops s.mem .pdpt v), t₃, t₂]
    rfl

end Acrn
