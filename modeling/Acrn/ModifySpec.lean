import Acrn.Spans

/-!
# What `mmu_modify_or_del` changes

A large page that the range covers only in part is cut into the pieces of the
next level, and those again where need be; what lies in the range then gets its
new entry. `ModPlan.target` says this of a single walk, and the loops are shown to
apply it to every address of the blocks they pass and to touch nothing else.
-/

namespace Acrn

open BlockLoop BitField PageTableLevel

/-! ## The plan -/

/-- A call of `mmu_modify_or_del`, its range rounded to pages. -/
structure ModPlan where
  ops : MemoryOps
  start : ℕ
  stop : ℕ
  protSet : Word
  protClr : Word
  type : MrType

namespace ModPlan

variable (plan : ModPlan)

/-- The range meets the block of level `l` around `v`. -/
def Meets (l : PageTableLevel) (v : ℕ) : Prop :=
  plan.start < nextBlock l.shift v ∧ blockStart l.shift v < plan.stop

/-- The range covers the block as a whole. -/
def Covers (l : PageTableLevel) (v : ℕ) : Prop :=
  plan.start ≤ blockStart l.shift v ∧ nextBlock l.shift v ≤ plan.stop

/-- A large page in this place has to be cut. -/
def Splits (l : PageTableLevel) (v : ℕ) : Prop := plan.Meets l v ∧ ¬ plan.Covers l v

instance (l : PageTableLevel) (v : ℕ) : Decidable (plan.Splits l v) :=
  inferInstanceAs (Decidable ((_ ∧ _) ∧ ¬ (_ ∧ _)))

/-- The 2-MByte page `e` after the cut. -/
def cutPd (e : Word) (v : ℕ) : Leaf :=
  if plan.Splits .pd v then ⟨.pt, splitEntry plan.ops .pd e (pt.index v)⟩ else ⟨.pd, e⟩

/-- The leaf of `v` after the cut. -/
def cut (L : Leaf) (v : ℕ) : Leaf :=
  match L.level with
  | .pdpt =>
    if plan.Splits .pdpt v then plan.cutPd (splitEntry plan.ops .pdpt L.entry (pd.index v)) v else L
  | .pd => plan.cutPd L.entry v
  | _ => L

/-- The leaf of `v` after the call: absent, if its new entry is. -/
def newLeaf (L : Leaf) (v : ℕ) : Option Leaf :=
  if plan.start ≤ v ∧ v < plan.stop then
    let e := newEntry plan.ops plan.protSet plan.protClr plan.type (plan.cut L v).entry
    if plan.ops.pgentryPresent e = 0#64 then none else some ⟨(plan.cut L v).level, e⟩
  else some (plan.cut L v)

/-- What the call makes of the end of the walk for `v`. -/
def target (L : Option Leaf) (v : ℕ) : Option Leaf := L.bind fun L => plan.newLeaf L v

/-- A modification leaves the entries of this level present. -/
def Keeps : Prop := ∀ e, plan.ops.pgentryPresent e ≠ 0#64 → plan.type = .modify →
  plan.ops.pgentryPresent (newEntry plan.ops plan.protSet plan.protClr plan.type e) ≠ 0#64

/-- Where a large page is cut, the array has a page for the pieces. -/
def Served : Prop := ∀ l v, l = .pdpt ∨ l = .pd → plan.start ≤ v → v < plan.stop →
  plan.Splits l v → v / l.size < plan.ops.info.pageNum l.next

variable {plan}

@[simp] theorem target_none (v : ℕ) : plan.target none v = none := rfl

theorem meets_of_mem {l : PageTableLevel} {v : ℕ}
    (h : v / l.size ∈ touched l plan.start plan.stop) : plan.Meets l v := by
  obtain ⟨u, hu, hu', he⟩ := h
  obtain ⟨h₁, h₂⟩ := div_eq_iff.mp he
  exact ⟨by omega, by omega⟩

theorem mem_of_meets {l : PageTableLevel} {v : ℕ} (hlt : plan.start < plan.stop)
    (h : plan.Meets l v) : v / l.size ∈ touched l plan.start plan.stop := by
  obtain ⟨h₁, h₂⟩ := h
  have hnx := BlockLoop.lt_nextBlock l.shift v
  have hbs := blockStart_le l.shift v
  rcases Nat.le_total plan.start (blockStart l.shift v) with hle | hle
  · exact ⟨blockStart l.shift v, hle, h₂, blockStart_div l.shift v⟩
  · exact ⟨plan.start, le_rfl, hlt, div_eq_iff.mpr ⟨hle, h₁⟩⟩

/-- An address outside every touched block keeps its leaf. -/
theorem newLeaf_of_not_mem {k : PageTableLevel} {L : Leaf} {v : ℕ} (hlt : plan.start < plan.stop)
    (h : v / k.size ∉ touched k plan.start plan.stop) (hL : L.level.shift ≤ k.shift) :
    plan.newLeaf L v = some L := by
  have hout : ¬ (plan.start ≤ v ∧ v < plan.stop) := fun hv => h ⟨v, hv.1, hv.2, rfl⟩
  have hsplit : ∀ l : PageTableLevel, l.shift ≤ k.shift → ¬ plan.Splits l v := by
    intro l hl hs
    obtain ⟨u, hu, hu', he⟩ := mem_of_meets hlt hs.1
    exact h ⟨u, hu, hu', div_size_of_le hl he⟩
  have hcut : plan.cut L v = L := by
    obtain ⟨level, e⟩ := L
    cases level with
    | pml4 => rfl
    | pdpt => exact if_neg (hsplit .pdpt hL)
    | pd => exact if_neg (hsplit .pd hL)
    | pt => rfl
  rw [newLeaf, if_neg hout, hcut]

theorem newLeaf_of_absent {L : Leaf} {v : ℕ} (hv : plan.start ≤ v ∧ v < plan.stop)
    (h : plan.ops.pgentryPresent
      (newEntry plan.ops plan.protSet plan.protClr plan.type (plan.cut L v).entry) = 0#64) :
    plan.newLeaf L v = none := by
  rw [newLeaf, if_pos hv]
  exact if_pos h

theorem newLeaf_of_present {L : Leaf} {v : ℕ} (hv : plan.start ≤ v ∧ v < plan.stop)
    (h : plan.ops.pgentryPresent
      (newEntry plan.ops plan.protSet plan.protClr plan.type (plan.cut L v).entry) ≠ 0#64) :
    plan.newLeaf L v = some ⟨(plan.cut L v).level,
      newEntry plan.ops plan.protSet plan.protClr plan.type (plan.cut L v).entry⟩ := by
  rw [newLeaf, if_pos hv]
  exact if_neg h

/-- A covered block is changed in place. -/
theorem newLeaf_of_covers {l : PageTableLevel} (hl : l = .pdpt ∨ l = .pd ∨ l = .pt) {e : Word}
    {v : ℕ} (h : plan.Covers l v) :
    plan.newLeaf ⟨l, e⟩ v =
      if plan.ops.pgentryPresent (newEntry plan.ops plan.protSet plan.protClr plan.type e) = 0#64
      then none else some ⟨l, newEntry plan.ops plan.protSet plan.protClr plan.type e⟩ := by
  have hnx := BlockLoop.lt_nextBlock l.shift v
  have hbs := blockStart_le l.shift v
  have hcut : plan.cut ⟨l, e⟩ v = ⟨l, e⟩ := by
    rcases hl with rfl | rfl | rfl
    · exact if_neg fun hs => hs.2 h
    · exact if_neg fun hs => hs.2 h
    · rfl
  obtain ⟨h₁, h₂⟩ := h
  rw [newLeaf, if_pos ⟨by omega, by omega⟩, hcut]

/-- A large page that has to be cut fares like its piece. -/
theorem newLeaf_of_splits {l : PageTableLevel} (hl : l = .pdpt ∨ l = .pd) {e : Word} {v : ℕ}
    (h : plan.Splits l v) :
    plan.newLeaf ⟨l, e⟩ v = plan.newLeaf ⟨l.next, splitEntry plan.ops l e (l.next.index v)⟩ v := by
  have hcut : plan.cut ⟨l, e⟩ v =
      plan.cut ⟨l.next, splitEntry plan.ops l e (l.next.index v)⟩ v := by
    rcases hl with rfl | rfl
    · exact if_pos h
    · exact if_pos h
  rw [newLeaf, newLeaf, hcut]

end ModPlan

/-! ## Pieces -/

theorem splitEntry_present {ops : MemoryOps} (hops : ops.Lawful) {l : PageTableLevel}
    (hl : l = .pdpt ∨ l = .pd) {e : Word} (he : ops.pgentryPresent e ≠ 0#64) (i : ℕ) :
    ops.pgentryPresent (splitEntry ops l e i) ≠ 0#64 := by
  have hlow : ∀ m : Word, m &&& 0x7#64 = 0x7#64 → ops.pgentryPresent (e &&& m) ≠ 0#64 := by
    intro m hm
    rwa [hops.present_congr (b := e) (by rw [BitVec.and_assoc, hm])]
  rcases hl with rfl | rfl
  · exact hops.present_or_right (hlow _ (by decide))
  · obtain ⟨exe, -, -, hr⟩ := hops.exe
    refine hops.present_or_right ?_
    rw [hr, BitVec.and_assoc]
    exact hops.present_or_left (hlow _ (by decide))

/-! ## Before and after a loop

`ModPost` says of every walk where it ends. An entry is passed over, replaced or descended into,
the last after a cut where it is a large page, and there is one lemma for each of these. -/

variable {plan : ModPlan} {s s' s'' : PgMem}

/-- The loop over entries of level `l` has passed `[a, x)`: in the blocks it met
every walk ends where the plan says. -/
structure ModPost (plan : ModPlan) (l : PageTableLevel) (a x : ℕ) (s s' : PgMem) : Prop where
  sound : Sound plan.ops s'
  frame : Frame plan.ops l (touched l a x) s.mem s'.mem
  inside : ∀ v, v < 2 ^ 48 → v / l.size ∈ touched l a x →
    leaf plan.ops s'.mem v = plan.target (leaf plan.ops s.mem v) v
  holes : plan.Keeps → ∀ v, v < 2 ^ 48 → HoleFree plan.ops s.mem v → HoleFree plan.ops s'.mem v
  sanitized : ∀ a, plan.ops.info.sanitizedPage ≤ a → a < plan.ops.info.sanitizedPage + pageSize →
    s'.mem a = s.mem a

namespace ModPost

variable {l : PageTableLevel} {a x b : ℕ}

theorem refl (hs : Sound plan.ops s) : ModPost plan l a a s s := by
  refine ⟨hs, Frame.refl _ _ _, ?_, fun _ _ _ h => h, fun _ _ _ => rfl⟩
  rintro v - ⟨u, h₁, h₂, -⟩
  omega

theorem trans (hx : x = a ∨ 2 ^ l.shift ∣ x) (hax : a ≤ x) (hxb : x ≤ b)
    (h : ModPost plan l a x s s') (h' : ModPost plan l x b s' s'') : ModPost plan l a b s s'' := by
  refine ⟨h'.sound, (h.frame.trans h'.frame).mono (touched_union hax hxb), ?_,
    fun hk v hv hh => h'.holes hk v hv (h.holes hk v hv hh),
    fun a ha ha' => (h'.sanitized a ha ha').trans (h.sanitized a ha ha')⟩
  rintro v hv ⟨u, hau, hub, hu⟩
  by_cases hux : u < x
  · have hin : v / l.size ∈ touched l a x := ⟨u, hau, hux, hu⟩
    rw [h'.frame.leaf_eq hv (touched_disjoint hx hin), h.inside v hv hin]
  · have hin : v / l.size ∈ touched l x b := ⟨u, by omega, hub, hu⟩
    have hnot : v / l.size ∉ touched l a x := fun hc => touched_disjoint hx hc hin
    rw [h'.inside v hv hin, h.frame.leaf_eq hv hnot]

/-- An absent entry is passed over. -/
theorem skip (hs : Sound plan.ops s) (hw : Within l a b) (hlink : Linked plan.ops s.mem l a)
    (habs : plan.ops.pgentryPresent (entryAt plan.ops s.mem l a) = 0#64) :
    ModPost plan l a b s s := by
  refine ⟨hs, Frame.refl _ _ _, fun v hv hin => ?_, fun _ _ _ h => h, fun _ _ _ => rfl⟩
  have hva := (mem_touched_block hw).mp hin
  have hnone : leaf plan.ops s.mem v = none := by
    rw [leaf_of_entry ((linked_block hva).mpr hlink) (entryAt_block le_rfl hva)
      (not_isTable_of_absent habs), if_pos habs]
  rw [hnone, ModPlan.target_none]

/-- The entry of a covered block is replaced. -/
theorem setLeaf (hops : plan.ops.Lawful) (hs : Sound plan.ops s) (hw : Within l a b)
    (hl : l = .pdpt ∨ l = .pd ∨ l = .pt) (hlink : Linked plan.ops s.mem l a)
    (hclr : plan.type = .modify → plan.protClr &&& pagePs = 0#64)
    (hpres : plan.ops.pgentryPresent (entryAt plan.ops s.mem l a) ≠ 0#64)
    (hmaps : l = .pt ∨ entryLarge (entryAt plan.ops s.mem l a) ≠ 0#64) (hcov : plan.Covers l a) :
    ModPost plan l a b s (s.setPgentry (plan.ops.info.entryAddr l a)
      (newEntry plan.ops plan.protSet plan.protClr plan.type (entryAt plan.ops s.mem l a))) := by
  have ha48 : a < 2 ^ 48 := lt_of_lt_of_le hw.lt hw.le
  have hlne : l ≠ .pml4 := by rcases hl with rfl | rfl | rfl <;> decide
  have hold : ¬ IsTable plan.ops l (entryAt plan.ops s.mem l a) := by
    rintro ⟨-, hm⟩
    apply hm
    rcases hl with rfl | rfl | rfl
    · exact hmaps.resolve_left (by decide)
    · exact hmaps.resolve_left (by decide)
    · trivial
  have hnew : ¬ IsTable plan.ops l
      (newEntry plan.ops plan.protSet plan.protClr plan.type (entryAt plan.ops s.mem l a)) :=
    not_isTable_newEntry hops hlne hclr hmaps
  obtain ⟨hs', hframe, hblock, hlinked⟩ := setLeaf_spec hs ha48 hlink hold hnew rfl
  refine ⟨hs', hframe.mono ?_, ?_, ?_,
    (setLeaf_evolves hs hlne ha48 hlink hold hnew).sanitized⟩
  · rintro n rfl
    exact (mem_touched_block hw).mpr rfl
  · intro v hv hin
    have hva := (mem_touched_block hw).mp hin
    have hcovv : plan.Covers l v := by
      have hbs : blockStart l.shift v = blockStart l.shift a := congrArg (· * l.size) hva
      rwa [ModPlan.Covers, nextBlock_eq, hbs]
    have hpresv : plan.ops.pgentryPresent (entryAt plan.ops s.mem l v) ≠ 0#64 := by
      rwa [entryAt_block le_rfl hva]
    rw [leaf_of_entry ((hlinked l v hv).mpr ((linked_block hva).mpr hlink)) (hblock v hv hva) hnew,
      leaf_of_entry ((linked_block hva).mpr hlink) (entryAt_block le_rfl hva) hold, if_neg hpres]
    exact (ModPlan.newLeaf_of_covers hl hcovv).symm
  · intro hkeeps v hv hh
    refine hh.setLeaf hs hv ha48 hlink hold hnew fun _ => Or.inr fun habs => ?_
    cases htype : plan.type with
    | modify => exact absurd habs (hkeeps _ hpres htype)
    | del =>
      rw [newEntry]
      exact sanitized_ps plan.ops.info.sanitized_dvd

/-- The table below an entry was handled. -/
theorem of_child {p : PageTableLevel} (hp : p ≠ .pt) (hpart : PartOf plan.start plan.stop p a b)
    (hlink : Linked plan.ops s.mem p.next a) (h : ModPost plan p.next a b s s') :
    ModPost plan p a b s s' := by
  refine ⟨h.sound, h.frame.widen hp fun n hn => touched_next hp hn, ?_, h.holes, h.sanitized⟩
  intro v hv hin
  have hva := (mem_touched_block hpart.toWithin).mp hin
  by_cases hin' : v / p.next.size ∈ touched p.next a b
  · exact h.inside v hv hin'
  · rw [h.frame.leaf_eq hv hin']
    cases hL : leaf plan.ops s.mem v with
    | none => rfl
    | some L =>
      have hlinkv : Linked plan.ops s.mem p.next v := (linked_next_block hp hva).mpr hlink
      have hlevel : L.level.shift ≤ p.next.shift := by
        rw [leafFrom_of_linked hlinkv] at hL
        have hmem := (leafOver_some hL).1
        revert hmem
        cases p <;> cases L.level <;> simp [downTo, next, shift]
      have hlt : plan.start < plan.stop := by
        have := (hpart.iff a rfl).mpr ⟨le_rfl, hpart.lt⟩
        omega
      rw [← hpart.touched_iff (Nat.le_of_lt (shift_next_lt hp)) hva] at hin'
      exact (ModPlan.newLeaf_of_not_mem hlt hin' hlevel).symm

/-- A large page was cut, and then the table of its pieces handled. -/
theorem of_split (hops : plan.ops.Lawful) (hs : Sound plan.ops s)
    (hl : l = .pdpt ∨ l = .pd) (hpart : PartOf plan.start plan.stop l a b)
    (hlink : Linked plan.ops s.mem l a)
    (hpres : plan.ops.pgentryPresent (entryAt plan.ops s.mem l a) ≠ 0#64)
    (hlarge : entryLarge (entryAt plan.ops s.mem l a) ≠ 0#64) (hsplit : plan.Splits l a)
    (hpage : a / l.size < plan.ops.info.pageNum l.next)
    (hs' : s' = linkTable plan.ops l a (plan.ops.info.entryAddr l a)
      (splitEntry plan.ops l (entryAt plan.ops s.mem l a)) s)
    (h : ModPost plan l a b s' s'') : ModPost plan l a b s s'' := by
  have hlpt : l ≠ .pt := by rcases hl with rfl | rfl <;> decide
  have ha48 : a < 2 ^ 48 := lt_of_lt_of_le hpart.lt hpart.le
  have hold : ¬ IsTable plan.ops l (entryAt plan.ops s.mem l a) := not_isTable_of_large hl hlarge
  have hnt : ∀ i < ptrsPerTable, ¬ IsTable plan.ops l.next
      (splitEntry plan.ops l (entryAt plan.ops s.mem l a) i) :=
    fun i _ => not_isTable_splitEntry plan.ops hl hlarge i
  have hpieces := splitEntry_present hops hl hpres
  obtain ⟨hsound, hframe, hbelow, hlinked⟩ := linkTable_spec hops hs hlpt ha48 hlink hold hpage hnt
    hs'
  have hev := linkTable_evolves hops hs hlpt ha48 hlink hold hpage hnt
  rw [← hs'] at hev
  refine ⟨h.sound, (hframe.trans h.frame).mono ?_, ?_, ?_,
    fun a ha ha' => (h.sanitized a ha ha').trans (hev.sanitized a ha ha')⟩
  · rintro n (rfl | hn)
    · exact (mem_touched_block hpart.toWithin).mpr rfl
    · exact hn
  · intro v hv hin
    have hva := (mem_touched_block hpart.toWithin).mp hin
    have hsplitv : plan.Splits l v := by
      have hbs : blockStart l.shift v = blockStart l.shift a := congrArg (· * l.size) hva
      rwa [ModPlan.Splits, ModPlan.Meets, ModPlan.Covers, nextBlock_eq, hbs]
    rw [h.inside v hv hin,
      leaf_of_entry ((hlinked _ v hv).mpr (Or.inr ⟨rfl, hva⟩)) (hbelow v hv hva)
        (hnt _ (index_lt _ _)), if_neg (hpieces _),
      leaf_of_entry ((linked_block hva).mpr hlink) (entryAt_block le_rfl hva) hold, if_neg hpres]
    exact (ModPlan.newLeaf_of_splits hl hsplitv).symm
  · intro hkeeps v hv hh
    refine h.holes hkeeps v hv ?_
    rw [hs']
    exact hh.linkTable hops hs hv hlpt ha48 hlink hold hpage hnt
      fun i _ habs => absurd habs (hpieces i)

end ModPost

/-! ## The loops -/

theorem modifyOrDelPte_spec (hops : plan.ops.Lawful)
    (hclr : plan.type = .modify → plan.protClr &&& pagePs = 0#64) {a b : ℕ}
    (hs : Sound plan.ops s) (hpart : PartOf plan.start plan.stop .pd a b)
    (hlink : Linked plan.ops s.mem .pt a) :
    ModPost plan .pt a b s
      (modifyOrDelPte plan.ops plan.protSet plan.protClr plan.type
        (plan.ops.info.entryAddr .pd a) a b s) := by
  have hpd : PageTableLevel.pd ≠ .pt := by decide
  have ha48 : a < 2 ^ 48 := lt_of_lt_of_le hpart.lt hpart.le
  have hpage := (hs.table .pd a hpd ha48 hlink).2
  rw [entryAt] at hpage
  rw [modifyOrDelPte, hpage]
  refine tableLoop_rule (I := fun x t => ModPost plan .pt a x s t) hpd hpart.toWithin ?_ ?_ _
    (ModPost.refl hs)
  · intro x hx
    refine (nextBlock_of_dvd ?_).symm
    rcases hx with rfl | hx
    · exact hpart.start_dvd
    · exact hx
  intro x t hax hxb hx hpost
  have hxs := hpart.div_eq hax hxb
  have hx48 : x < 2 ^ 48 := lt_of_lt_of_le hxb hpart.le
  have hpartx := hpart.step hpd hax hxb hx
  have hslot : plan.ops.info.tablePage .pd a + 8 * pt.index x = plan.ops.info.entryAddr .pt x :=
    PoolLayout.tablePage_slot _ hpd hxs
  have hentry : t.mem (plan.ops.info.entryAddr .pt x) = entryAt plan.ops t.mem .pt x := rfl
  have hlinkx : Linked plan.ops t.mem .pt x := by
    rw [hpost.frame.linked_iff hx48 (Or.inl le_rfl)]
    exact (linked_next_block hpd hxs).mpr hlink
  refine hpost.trans hx hax (by have := hpartx.lt; simp only [next_pd] at this ⊢; omega) ?_
  simp only [next_pd, hslot, hentry]
  by_cases habs : plan.ops.pgentryPresent (entryAt plan.ops t.mem .pt x) = 0#64
  · rw [if_pos habs]
    exact ModPost.skip hpost.sound hpartx.toWithin hlinkx habs
  · rw [if_neg habs, localModifyOrDelPte_eq]
    refine ModPost.setLeaf hops hpost.sound hpartx.toWithin (Or.inr (Or.inr rfl)) hlinkx hclr habs
      (Or.inl rfl) ?_
    -- the ends of the interval are page aligned
    refine (hpart.covered_iff hpd hax hxb hx).mpr ?_
    have hdvd : 2 ^ pt.shift ∣ x := hpartx.start_dvd
    have hb := hpart.stop_dvd
    rw [next_pd, nextBlock_of_dvd hdvd]
    simp only [shift, pageSize] at *
    omega

/-- **The loop of `modify_or_del_pde` and `modify_or_del_pdpte`**, given the function
for the next level. -/
theorem modifyOrDelEntries_spec (hops : plan.ops.Lawful) (hserved : plan.Served)
    (hclr : plan.type = .modify → plan.protClr &&& pagePs = 0#64) {p : PageTableLevel}
    (hp : p = .pml4 ∨ p = .pdpt) {child : ℕ → ℕ → ℕ → PgMem → PgMem}
    (hchild : ∀ s a b, Sound plan.ops s → PartOf plan.start plan.stop p.next a b →
      Linked plan.ops s.mem p.next.next a →
      ModPost plan p.next.next a b s (child (plan.ops.info.entryAddr p.next a) a b s)) {a b : ℕ}
    (hs : Sound plan.ops s) (hpart : PartOf plan.start plan.stop p a b)
    (hlink : Linked plan.ops s.mem p.next a) :
    ModPost plan p.next a b s
      (modifyOrDelEntries p.next child plan.ops plan.protSet plan.protClr plan.type
        (plan.ops.info.entryAddr p a) a b s) := by
  have hppt : p ≠ .pt := by rcases hp with rfl | rfl <;> decide
  have hnp : p.next ≠ .pt := by rcases hp with rfl | rfl <;> decide
  have hnl : p.next = .pdpt ∨ p.next = .pd := by rcases hp with rfl | rfl <;> simp [next]
  have ha48 : a < 2 ^ 48 := lt_of_lt_of_le hpart.lt hpart.le
  have hpage := (hs.table p a hppt ha48 hlink).2
  rw [entryAt] at hpage
  rw [modifyOrDelEntries, hpage]
  refine tableLoop_rule (I := fun x t => ModPost plan p.next a x s t) hppt hpart.toWithin
    (fun _ _ => rfl) ?_ _ (ModPost.refl hs)
  intro x t hax hxb hx hpost
  have hxs := hpart.div_eq hax hxb
  have hx48 : x < 2 ^ 48 := lt_of_lt_of_le hxb hpart.le
  have hpartx := hpart.step hppt hax hxb hx
  have hentry : t.mem (plan.ops.info.entryAddr p.next x) = entryAt plan.ops t.mem p.next x := rfl
  have hlinkx : Linked plan.ops t.mem p.next x := by
    rw [hpost.frame.linked_iff hx48 (Or.inl le_rfl)]
    exact (linked_next_block hppt hxs).mpr hlink
  have hcov : plan.Covers p.next x ↔ _ := hpart.covered_iff hppt hax hxb hx
  refine hpost.trans hx hax (by have := hpartx.lt; omega) ?_
  simp only [PoolLayout.tablePage_slot _ hppt hxs, hentry]
  by_cases habs : plan.ops.pgentryPresent (entryAt plan.ops t.mem p.next x) = 0#64
  · rw [if_pos habs]
    exact ModPost.skip hpost.sound hpartx.toWithin hlinkx habs
  rw [if_neg habs]
  by_cases hlarge : entryLarge (entryAt plan.ops t.mem p.next x) ≠ 0#64
  · rw [if_pos hlarge]
    have hold : ¬ IsTable plan.ops p.next _ := not_isTable_of_large hnl hlarge
    by_cases hc : plan.Covers p.next x
    · obtain ⟨hal, hend⟩ := hcov.mp hc
      have htest : ¬ (b < nextBlock p.next.shift x ∨ memAlignedCheck x p.next.shift = false) := by
        rw [memAlignedCheck, beq_eq_false_iff_ne, Ne, ← Nat.dvd_iff_mod_eq_zero]
        omega
      rw [if_neg htest, localModifyOrDelPte_eq]
      refine ModPost.setLeaf hops hpost.sound hpartx.toWithin ?_ hlinkx hclr habs (Or.inr hlarge) hc
      exact hnl.imp_right Or.inl
    · have htest : b < nextBlock p.next.shift x ∨ memAlignedCheck x p.next.shift = false := by
        rw [memAlignedCheck, beq_eq_false_iff_ne, Ne, ← Nat.dvd_iff_mod_eq_zero]
        by_contra hno
        exact hc (hcov.mpr ⟨by omega, by omega⟩)
      have hrange := (hpart.iff x hxs).mpr ⟨hax, hxb⟩
      have hsplit : plan.Splits p.next x := ⟨ModPlan.meets_of_mem ⟨x, hrange.1, hrange.2, rfl⟩, hc⟩
      have hpn := hserved _ _ hnl hrange.1 hrange.2 hsplit
      have hnt := fun i (_ : i < ptrsPerTable) => not_isTable_splitEntry plan.ops hnl hlarge i
      rw [if_pos htest, splitLargePage_eq hnl]
      obtain ⟨hs₁, -, -, hlinked⟩ := linkTable_spec hops hpost.sound hnp hx48 hlinkx hold hpn hnt rfl
      have hlink₁ := (hlinked p.next.next x hx48).mpr (Or.inr ⟨rfl, rfl⟩)
      exact ModPost.of_split hops hpost.sound hnl hpartx hlinkx habs hlarge hsplit hpn rfl
        (ModPost.of_child hnp hpartx hlink₁ (hchild _ _ _ hs₁ hpartx hlink₁))
  · rw [if_neg hlarge]
    have hlink₁ : Linked plan.ops t.mem p.next.next x :=
      (linked_next hnp x).mpr ⟨hlinkx, habs, by rwa [entryLarge_maps hnl]⟩
    exact ModPost.of_child hnp hpartx hlink₁ (hchild _ _ _ hpost.sound hpartx hlink₁)

theorem modifyOrDelPde_spec (hops : plan.ops.Lawful) (hserved : plan.Served)
    (hclr : plan.type = .modify → plan.protClr &&& pagePs = 0#64) {a b : ℕ}
    (hs : Sound plan.ops s) (hpart : PartOf plan.start plan.stop .pdpt a b)
    (hlink : Linked plan.ops s.mem .pd a) :
    ModPost plan .pd a b s
      (modifyOrDelPde plan.ops plan.protSet plan.protClr plan.type
        (plan.ops.info.entryAddr .pdpt a) a b s) :=
  modifyOrDelEntries_spec (p := .pdpt) hops hserved hclr (Or.inr rfl)
    (fun _ _ _ hs hpart hlink => modifyOrDelPte_spec hops hclr hs hpart hlink) hs hpart hlink

theorem modifyOrDelPdpte_spec (hops : plan.ops.Lawful) (hserved : plan.Served)
    (hclr : plan.type = .modify → plan.protClr &&& pagePs = 0#64) {a b : ℕ}
    (hs : Sound plan.ops s) (hpart : PartOf plan.start plan.stop .pml4 a b)
    (hlink : Linked plan.ops s.mem .pdpt a) :
    ModPost plan .pdpt a b s
      (modifyOrDelPdpte plan.ops plan.protSet plan.protClr plan.type
        (plan.ops.info.entryAddr .pml4 a) a b s) :=
  modifyOrDelEntries_spec (p := .pml4) hops hserved hclr (Or.inl rfl)
    (fun _ _ _ hs hpart hlink => modifyOrDelPde_spec hops hserved hclr hs hpart hlink) hs hpart
    hlink

/-! ## `mmu_modify_or_del` -/

/-- The plan of a call. -/
def modPlan (ops : MemoryOps) (vaddrBase size : ℕ) (protSet protClr : Word) (type : MrType) :
    ModPlan where
  ops := ops
  start := roundPageDown vaddrBase
  stop := rangeEnd vaddrBase size
  protSet := protSet
  protClr := protClr
  type := type

/-- Where a deletion walks an absent entry of the root, that entry is sanitized. -/
def RootWalkable (ops : MemoryOps) (s : PgMem) (vaddrBase size : ℕ) (type : MrType) : Prop :=
  type = .del → ∀ v, roundPageDown vaddrBase ≤ v → v < rangeEnd vaddrBase size →
    ops.pgentryPresent (entryAt ops s.mem .pml4 v) = 0#64 → SanitizedRoot ops s

theorem rootWalkable_modify (ops : MemoryOps) (s : PgMem) (vaddrBase size : ℕ) :
    RootWalkable ops s vaddrBase size .modify := fun h => (by cases h)

theorem SanitizedRoot.walkable {ops : MemoryOps} {s : PgMem} {type : MrType}
    (h : type = .del → SanitizedRoot ops s) (vaddrBase size : ℕ) :
    RootWalkable ops s vaddrBase size type := fun htype _ _ _ _ => h htype

/-- **`mmu_modify_or_del` carries out its plan** on a range inside the window. -/
theorem mmuModifyOrDel_spec {ops : MemoryOps} (hops : ops.Lawful) {vaddrBase size : ℕ}
    {protSet protClr : Word} {type : MrType} (hs : Sound ops s)
    (hroot : RootWalkable ops s vaddrBase size type)
    (hclr : type = .modify → protClr &&& pagePs = 0#64)
    (hwin : rangeEnd vaddrBase size ≤ ops.info.window)
    (hrange : roundPageDown vaddrBase ≤ rangeEnd vaddrBase size)
    (hserved : (modPlan ops vaddrBase size protSet protClr type).Served) :
    ModPost (modPlan ops vaddrBase size protSet protClr type) .pml4 (roundPageDown vaddrBase)
      (rangeEnd vaddrBase size) s
      (mmuModifyOrDel ops ops.info.pml4Base vaddrBase size protSet protClr type s) := by
  have hle : rangeEnd vaddrBase size ≤ 2 ^ 48 := hwin.trans ops.info.window_le
  set plan := modPlan ops vaddrBase size protSet protClr type with hplan
  rw [mmuModifyOrDel, ← rangeEnd]
  refine rootLoop_rule (I := fun x t => ModPost plan .pml4 (roundPageDown vaddrBase) x s t) hle
    (dvd_roundPageDown _) (dvd_rangeEnd _ _) ?_ _ hrange (ModPost.refl hs)
  intro x t hge hx hw hpost
  have hx48 : x < 2 ^ 48 := lt_of_lt_of_le hw.lt hw.le
  have hxstop : x < rangeEnd vaddrBase size := by have := hw.lt; omega
  have hpart : PartOf plan.start plan.stop .pml4 x _ := partOf_root hge hw hx
  have hsame : entryAt ops t.mem .pml4 x = entryAt ops s.mem .pml4 x :=
    hpost.frame x .pml4 hx48 (Or.inr (not_mem_touched hx rfl)) trivial
  have hentry : t.mem (ops.info.entryAddr .pml4 x) = entryAt ops t.mem .pml4 x := rfl
  refine hpost.trans hx hge (by have := hw.lt; omega) ?_
  simp only [root_slot hx48, hentry]
  by_cases habs : ops.pgentryPresent (entryAt ops t.mem .pml4 x) = 0#64
  · have hskip : ModPost plan .pml4 x (min (nextBlock pml4.shift x) (rangeEnd vaddrBase size)) t t :=
      ModPost.skip hpost.sound hw trivial habs
    cases htype : type with
    | modify =>
      rw [if_pos ⟨habs, rfl⟩]
      exact hskip
    | del =>
      -- the absent entry points to the sanitized page, where there is nothing to delete
      have habs₀ : ops.pgentryPresent (entryAt ops s.mem .pml4 x) = 0#64 := by rwa [← hsame]
      have hsan := hroot htype x hge hxstop habs₀
      have hpage : pageVaddr (t.mem (ops.info.entryAddr .pml4 x)) = ops.info.sanitizedPage := by
        rw [hentry, hsame]
        exact hsan.root x (by omega) habs₀
      have habs' : ∀ i < ptrsPerTable,
          ops.pgentryPresent (t.mem (ops.info.sanitizedPage + 8 * i)) = 0#64 := by
        intro i hi
        have hlt : ops.info.sanitizedPage + 8 * i < ops.info.sanitizedPage + pageSize := by
          simp only [pageSize, ptrsPerTable] at *
          omega
        rw [show t.mem (ops.info.sanitizedPage + 8 * i) = _ from
          hpost.sanitized _ (Nat.le_add_right _ _) hlt]
        exact hsan.page i hi
      have hnone : modifyOrDelPdpte ops protSet protClr .del (ops.info.entryAddr .pml4 x) x
          (min (nextBlock pml4.shift x) (rangeEnd vaddrBase size)) t = t :=
        modifyOrDelEntries_absent (p := .pml4) (by decide) hw (by rwa [hpage])
      rw [if_neg (fun h => absurd h.2 (by decide)), hnone]
      exact hskip
  · rw [if_neg (fun h => habs h.1)]
    have hlink : Linked ops t.mem .pdpt x := ⟨habs, id⟩
    exact ModPost.of_child (p := .pml4) (by decide) hpart hlink
      (modifyOrDelPdpte_spec hops hserved hclr hpost.sound hpart hlink)

/-- Every walk ends where the plan says. -/
theorem ModPost.leaf_eq {start stop : ℕ} (hlt : plan.start < plan.stop) (hstart : start = plan.start)
    (hstop : stop = plan.stop) (h : ModPost plan .pml4 start stop s s') {v : ℕ} (hv : v < 2 ^ 48) :
    leaf plan.ops s'.mem v = plan.target (leaf plan.ops s.mem v) v := by
  subst hstart hstop
  by_cases hin : v / pml4.size ∈ touched .pml4 plan.start plan.stop
  · exact h.inside v hv hin
  · rw [h.frame.leaf_eq hv hin]
    cases hL : leaf plan.ops s.mem v with
    | none => rfl
    | some L =>
      refine (ModPlan.newLeaf_of_not_mem hlt hin ?_).symm
      cases L.level <;> decide

end Acrn
