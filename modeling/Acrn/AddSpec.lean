import Acrn.Spans

/-!
# What `mmu_add` installs

`AddPlan` says what a call is to do without any table: which blocks it can cover
with one large page, and which leaf every address of the range gets. The three
loops are then shown to carry it out exactly, each from the previous one: inside
the interval every address has its planned leaf, outside every walk ends where
it did.

The plan is faithful to the one surprise of the code: the right that
`tweak_exe_right` leaves in `effective_prot` stays there, so a later block of the
same table inherits it (`Tweaked`).
-/

namespace Acrn

open BlockLoop BitField PageTableLevel

/-! ## The plan

A leaf is planned from the largest size down: a block that can be one large page is one, and the
rest of it is left to the next level. What the plan needs of the tables is only which blocks had a
table below them, because the code never takes a table away. -/

/-- A call of `mmu_add`, its range rounded to pages, and the blocks that have a
table below them beforehand. -/
structure AddPlan where
  ops : MemoryOps
  start : ℕ
  stop : ℕ
  paddr : ℕ
  prot : Word
  table : PageTableLevel → ℕ → Prop

namespace AddPlan

variable (plan : AddPlan)

/-- The physical address requested for `v`. -/
def pa (v : ℕ) : ℕ := plan.paddr + (v - plan.start)

/-- The block of level `l` around `v` becomes one large page: it lies inside the
range, its physical address is aligned, and nothing below it was split before. -/
def LargeAt (l : PageTableLevel) (v : ℕ) : Prop :=
  plan.ops.largePageEnabled = true ∧
  plan.start ≤ blockStart l.shift v ∧ nextBlock l.shift v ≤ plan.stop ∧
  l.size ∣ plan.pa (blockStart l.shift v) ∧ ¬ plan.table l v

/-- A large page precedes `v` in the table below the block of level `p`. -/
def Tweaked (p : PageTableLevel) (v : ℕ) : Prop :=
  ∃ u, plan.start ≤ u ∧ u / p.size = v / p.size ∧ u / p.next.size < v / p.next.size ∧
    plan.LargeAt p.next u

/-- The effective right in the table below the block of level `p` around `v`,
when the loop over it started with `right`. -/
noncomputable def rightAt (p : PageTableLevel) (right : Word) (v : ℕ) : Word :=
  open Classical in if plan.Tweaked p v then plan.ops.tweakExeRight right else right

/-- A leaf of level `l`. -/
def mapAt (l : PageTableLevel) (right : Word) (v : ℕ) : Leaf :=
  ⟨l, BitVec.ofNat 64 (plan.pa (blockStart l.shift v)) ||| right⟩

/-- The leaf of `v` when the loop over the table below level `p` starts with
`right`, and `child` are the leaves of the next level. -/
noncomputable def entryLeaf (p : PageTableLevel) (child : Word → ℕ → Leaf) (right : Word)
    (v : ℕ) : Leaf :=
  open Classical in
  if plan.LargeAt p.next v then plan.mapAt p.next (plan.ops.tweakExeRight right ||| pagePs) v
  else child (plan.rightAt p right v) v

/-- The leaves that `add_pte`, `add_pde` and `add_pdpte` install. -/
def pteLeaf : Word → ℕ → Leaf := plan.mapAt .pt
noncomputable def pdeLeaf : Word → ℕ → Leaf := plan.entryLeaf .pdpt plan.pteLeaf
noncomputable def pdpteLeaf : Word → ℕ → Leaf := plan.entryLeaf .pml4 plan.pdeLeaf

/-- The requested right makes an entry present, also after it was tweaked. -/
def RightOk : Prop :=
  plan.ops.pgentryPresent plan.prot ≠ 0#64 ∧
    plan.ops.pgentryPresent (plan.ops.tweakExeRight plan.prot) ≠ 0#64

/-- The rights that the loops pass down. -/
def Passed (right : Word) : Prop :=
  right = plan.prot ∨ right = plan.ops.tweakExeRight plan.prot

/-- Where no large page fits, the array has a page for the table. -/
def Served : Prop :=
  ∀ l v, l = .pdpt ∨ l = .pd → plan.start ≤ v → v < plan.stop → ¬ plan.LargeAt l v →
    v / l.size < plan.ops.info.pageNum l.next

variable {plan}

theorem largeAt_block {l : PageTableLevel} {v v' : ℕ} (hv : v / l.size = v' / l.size)
    (ht : plan.table l v ↔ plan.table l v') : plan.LargeAt l v ↔ plan.LargeAt l v' := by
  have hs : blockStart l.shift v = blockStart l.shift v' := by
    rw [blockStart, blockStart]
    exact congrArg (· * l.size) hv
  rw [LargeAt, LargeAt, nextBlock_eq, nextBlock_eq, hs, ht]

theorem rightAt_block {p : PageTableLevel} (hp : p ≠ .pt) {v v' : ℕ} {right : Word}
    (hv : v / p.next.size = v' / p.next.size) :
    plan.rightAt p right v = plan.rightAt p right v' := by
  rw [rightAt, rightAt, Tweaked, Tweaked, hv,
    div_size_of_le (Nat.le_of_lt (shift_next_lt hp)) hv]

theorem tweak_rightAt (hops : plan.ops.Lawful) (p : PageTableLevel) (right : Word) (v : ℕ) :
    plan.ops.tweakExeRight (plan.rightAt p right v) = plan.ops.tweakExeRight right := by
  rw [rightAt]
  split
  · exact hops.tweak_tweak right
  · rfl

theorem Passed.rightAt (hops : plan.ops.Lawful) {right : Word} (h : plan.Passed right)
    (p : PageTableLevel) (v : ℕ) : plan.Passed (plan.rightAt p right v) := by
  rw [AddPlan.rightAt]
  split
  · rcases h with rfl | rfl
    · exact Or.inr rfl
    · exact Or.inr (hops.tweak_tweak plan.prot)
  · exact h

theorem RightOk.present (hops : plan.ops.Lawful) (h : plan.RightOk) {right : Word}
    (hr : plan.Passed right) : plan.ops.pgentryPresent right ≠ 0#64 ∧
      plan.ops.pgentryPresent (plan.ops.tweakExeRight right) ≠ 0#64 := by
  rcases hr with rfl | rfl
  · exact h
  · exact ⟨h.2, by rw [hops.tweak_tweak]; exact h.2⟩

end AddPlan

/-! ## Before and after a loop

`AddPre` and `AddPost` are the loop invariant of all three levels: what is behind the loop is as
planned, what is ahead of it is as in the beginning, and no other walk has changed. A loop of one
level is for the loop above it one entry. -/

variable {plan : AddPlan} {s s' s'' : PgMem}

/-- A walk reaches the entry of level `p` for `[a, b)`, which is free, and the
tables further down are those of the beginning. -/
structure AddReady (plan : AddPlan) (p : PageTableLevel) (a b : ℕ) (s : PgMem) : Prop where
  part : PartOf plan.start plan.stop p a b
  sound : Sound plan.ops s
  holes : ∀ v, a ≤ v → v < b → HoleFree plan.ops s.mem v
  reach : Linked plan.ops s.mem p a
  free : ∀ v, a ≤ v → v < b → leaf plan.ops s.mem v = none
  agree : ∀ k v, k.shift < p.shift → k ≠ .pt → a ≤ v → v < b →
    (Linked plan.ops s.mem k.next v ↔ plan.table k v)

/-- The state a loop over the table below the block of level `p` starts from. -/
structure AddPre (plan : AddPlan) (p : PageTableLevel) (a b : ℕ) (s : PgMem) : Prop
    extends AddReady plan p a b s where
  linked : Linked plan.ops s.mem p.next a

/-- The loop over entries of level `l` has covered `[a, x)`: there every walk ends
at its planned leaf, and every other address is mapped as it was. -/
structure AddPost (plan : AddPlan) (l : PageTableLevel) (leafAt : ℕ → Leaf) (a x : ℕ)
    (s s' : PgMem) : Prop where
  sound : Sound plan.ops s'
  frame : Frame plan.ops l (touched l a x) s.mem s'.mem
  inside : ∀ v, a ≤ v → v < x → walkEnd plan.ops s'.mem v = leafAt v
  outside : ∀ v, v < 2 ^ 48 → ¬ (a ≤ v ∧ v < x) →
    leaf plan.ops s'.mem v = leaf plan.ops s.mem v
  holes : ∀ v, v < 2 ^ 48 → (a ≤ v ∧ v < x → plan.RightOk) → HoleFree plan.ops s.mem v →
    HoleFree plan.ops s'.mem v

namespace AddPost

variable {l : PageTableLevel} {leafAt leafAt' : ℕ → Leaf} {a x b : ℕ}

theorem refl (hs : Sound plan.ops s) : AddPost plan l leafAt a a s s :=
  ⟨hs, Frame.refl _ _ _, fun _ _ _ => by omega, fun _ _ _ => rfl, fun _ _ _ h => h⟩

theorem trans (hx : x = a ∨ 2 ^ l.shift ∣ x) (hax : a ≤ x) (hxb : x ≤ b) (hb : b ≤ 2 ^ 48)
    (h : AddPost plan l leafAt a x s s') (h' : AddPost plan l leafAt x b s' s'') :
    AddPost plan l leafAt a b s s'' := by
  refine ⟨h'.sound, (h.frame.trans h'.frame).mono (touched_union hax hxb), ?_, ?_, ?_⟩
  · intro v hav hvb
    by_cases hvx : v < x
    · -- the blocks before `x` are behind the second part
      have hnot : v / l.size ∉ touched l x b := touched_disjoint hx ⟨v, hav, hvx, rfl⟩
      rw [h'.frame.walkEnd_eq (by omega) hnot]
      exact h.inside v hav hvx
    · exact h'.inside v (by omega) hvb
  · intro v hv hout
    rw [h'.outside v hv (by omega), h.outside v hv (by omega)]
  · intro v hv hok hh
    exact h'.holes v hv (fun hc => hok (by omega)) (h.holes v hv (fun hc => hok (by omega)) hh)

/-- What a child did in one table is what its parent did in one block. -/
theorem widen {p : PageTableLevel} (hp : p ≠ .pt) (h : AddPost plan p.next leafAt a b s s')
    (heq : ∀ v, a ≤ v → v < b → leafAt v = leafAt' v) : AddPost plan p leafAt' a b s s' := by
  refine ⟨h.sound, h.frame.widen hp fun n hn => touched_next hp hn, ?_, h.outside, h.holes⟩
  intro v hav hvb
  rw [h.inside v hav hvb, heq v hav hvb]

/-- A table without mappings was linked first, in the block of `a`. -/
theorem after_link (hab : a < b) (hframe : Frame plan.ops l {a / l.size} s.mem s'.mem)
    (hleaf : ∀ v, v < 2 ^ 48 → leaf plan.ops s'.mem v = leaf plan.ops s.mem v)
    (hholes : ∀ v, v < 2 ^ 48 → HoleFree plan.ops s.mem v → HoleFree plan.ops s'.mem v)
    (h : AddPost plan l leafAt a b s' s'') : AddPost plan l leafAt a b s s'' := by
  refine ⟨h.sound, (hframe.trans h.frame).mono ?_, h.inside, ?_, ?_⟩
  · rintro n (rfl | hn)
    · exact ⟨a, le_rfl, hab, rfl⟩
    · exact hn
  · intro v hv hout
    rw [h.outside v hv hout, hleaf v hv]
  · intro v hv hok hh
    exact h.holes v hv hok (hholes v hv hh)

/-- One entry is written for a whole block. -/
theorem setLeaf (hs : Sound plan.ops s) (hend : nextBlock l.shift x ≤ 2 ^ 48)
    (hdvd : 2 ^ l.shift ∣ x) (hlink : Linked plan.ops s.mem l x)
    (habs : plan.ops.pgentryPresent (entryAt plan.ops s.mem l x) = 0#64) {e : Word}
    (hpres : l = .pt ∨ (plan.RightOk → plan.ops.pgentryPresent e ≠ 0#64)) (hmaps : Maps l e)
    (heq : ∀ v, v / l.size = x / l.size → leafAt v = ⟨l, e⟩) :
    AddPost plan l leafAt x (nextBlock l.shift x) s
      (s.setPgentry (plan.ops.info.entryAddr l x) e) := by
  have hnx := lt_nextBlock l.shift x
  have hx48 : x < 2 ^ 48 := by omega
  have hold : ¬ IsTable plan.ops l (entryAt plan.ops s.mem l x) := not_isTable_of_absent habs
  have hnew : ¬ IsTable plan.ops l e := fun ht => ht.2 hmaps
  obtain ⟨hs', hframe, hblock, hlinked⟩ := setLeaf_spec hs hx48 hlink hold hnew rfl
  have hin : ∀ v, v / l.size = x / l.size ↔ x ≤ v ∧ v < nextBlock l.shift x := by
    intro v
    have := div_eq_iff (k := l.shift) (x := v) (y := x)
    rwa [blockStart_of_dvd hdvd] at this
  refine ⟨hs', hframe.mono ?_, ?_, ?_, ?_⟩
  · rintro n rfl
    exact ⟨x, le_rfl, hnx, rfl⟩
  · intro v hxv hvn
    have hvx := (hin v).mpr ⟨hxv, hvn⟩
    have hlinkv : Linked plan.ops (s.setPgentry (plan.ops.info.entryAddr l x) e).mem l v :=
      (hlinked l v (by omega)).mpr ((linked_block hvx).mpr hlink)
    have hev := hblock v (by omega) hvx
    rw [walkEnd_of_entry hlinkv (by rwa [hev]), hev, heq v hvx]
  · intro v hv hout
    exact hframe.leaf_eq hv fun hvx => hout ((hin v).mp hvx)
  · intro v hv hok hh
    refine hh.setLeaf hs hv hx48 hlink hold hnew fun hvx => ?_
    exact hpres.imp_right fun hp habs' => absurd habs' (hp (hok ((hin v).mp hvx)))

/-- What is left of the range is still free. -/
theorem free {p : PageTableLevel} (hpre : AddPre plan p a b s)
    (h : AddPost plan p.next leafAt a x s s') {v : ℕ} (hxv : x ≤ v) (hvb : v < b) (hax : a ≤ x) :
    leaf plan.ops s'.mem v = none := by
  have := hpre.part.le
  rw [h.outside v (by omega) (by omega)]
  exact hpre.free v (by omega) hvb

theorem linked_at {p : PageTableLevel} (hp : p ≠ .pt) (hpre : AddPre plan p a b s)
    (h : AddPost plan p.next leafAt a x s s') (hax : a ≤ x) (hxb : x < b) :
    Linked plan.ops s'.mem p.next x := by
  have hle := hpre.part.le
  rw [h.frame.linked_iff (by omega) (Or.inl le_rfl),
    linked_next_block hp (hpre.part.div_eq hax hxb)]
  exact hpre.linked

end AddPost

/-- A free entry of the loop is absent or references a table. -/
theorem free_entry {l : PageTableLevel} {x : ℕ}
    (hlink : Linked plan.ops s.mem l x) (hfree : leaf plan.ops s.mem x = none)
    (hp : plan.ops.pgentryPresent (entryAt plan.ops s.mem l x) ≠ 0#64) :
    ¬ Maps l (entryAt plan.ops s.mem l x) := by
  intro hm
  rw [leafFrom_of_linked hlink, leafFrom_eq, if_neg hp, if_pos hm] at hfree
  cases hfree

/-! ## `add_pte` -/

theorem addPteLoop_spec {a b : ℕ} {right : Word}
    (hpre : AddPre plan .pd a b s) :
    ∀ n x t, n ≤ ptrsPerTable → ptrsPerTable - n = pt.index x → a ≤ x → x < b → pageSize ∣ x →
      AddPost plan .pt (plan.pteLeaf right) a x s t →
      AddPost plan .pt (plan.pteLeaf right) a b s
        (addPteLoop plan.ops (plan.ops.info.tablePage .pd a) b right n x (plan.pa x) t) := by
  intro n
  induction n with
  | zero =>
    intro x t _ hidx
    have := index_lt pt x
    omega
  | succ n ih =>
    intro x t hn hidx hax hxb hdvd hpost
    have hxa := hpre.part.div_eq hax hxb
    have hle := hpre.part.le
    have hlink : Linked plan.ops t.mem .pt x :=
      AddPost.linked_at (p := .pd) (by decide) hpre hpost hax hxb
    have hslot : plan.ops.info.tablePage .pd a + 8 * pt.index x = plan.ops.info.entryAddr .pt x :=
      PoolLayout.tablePage_slot _ (l := .pd) (by decide) hxa
    have habs : plan.ops.pgentryPresent (entryAt plan.ops t.mem .pt x) = 0#64 := by
      by_contra hp
      exact free_entry hlink
        (AddPost.free (p := .pd) hpre hpost le_rfl hxb hax) hp trivial
    have habs' : plan.ops.pgentryPresent (t.mem (plan.ops.info.entryAddr .pt x)) = 0#64 := habs
    have hnext : nextBlock pt.shift x = x + pt.size := nextBlock_of_dvd hdvd
    have hnb : x + pt.size ≤ b := by
      have := hpre.part.stop_dvd
      simp only [size, shift, pageSize] at *
      omega
    -- every page of the interval is free, so none is skipped
    rw [addPteLoop, hidx, hslot, if_neg (not_not.mpr habs')]
    have hstep : AddPost plan .pt (plan.pteLeaf right) x (nextBlock pt.shift x) t
        (t.setPgentry (plan.ops.info.entryAddr .pt x) (BitVec.ofNat 64 (plan.pa x) ||| right)) := by
      refine AddPost.setLeaf hpost.sound (by omega) hdvd hlink habs (Or.inl rfl) trivial ?_
      intro v hv
      have hbs : blockStart pt.shift v = x := by
        rw [← blockStart_of_dvd (k := pt.shift) hdvd, blockStart, blockStart]
        exact congrArg (· * 2 ^ pt.shift) hv
      rw [AddPlan.pteLeaf, AddPlan.mapAt, hbs]
    rw [hnext] at hstep
    have hpost' := hpost.trans (Or.inr hdvd) hax (by omega) (by omega) hstep
    simp only
    by_cases hend : b ≤ x + pt.size
    · rw [if_pos hend]
      rwa [show x + pt.size = b by omega] at hpost'
    · rw [if_neg hend]
      have hpa : plan.pa x + pt.size = plan.pa (x + pt.size) := by
        have h₁ := hpre.part.iff x hxa
        have h₂ := h₁.mpr ⟨hax, hxb⟩
        rw [AddPlan.pa, AddPlan.pa]
        omega
      rw [hpa]
      refine ih _ _ (by omega) ?_ (by omega) (by omega) ?_ hpost'
      · have hblock := hpre.part.div_eq (x := x + pt.size) (by omega) (by omega)
        have h₁ := div_size_eq (l := .pd) (by decide) x
        have h₂ := div_size_eq (l := .pd) (by decide) (x + pt.size)
        rw [hblock] at h₂
        rw [hxa] at h₁
        have h₃ : (x + pt.size) / pt.size = x / pt.size + 1 :=
          Nat.add_div_right _ (Nat.two_pow_pos _)
        simp only [next_pd] at h₁ h₂
        omega
      · exact Nat.dvd_add hdvd (dvd_refl _)

theorem addPte_spec {a b : ℕ} {right : Word}
    (hpre : AddPre plan .pd a b s) :
    AddPost plan .pt (plan.pteLeaf right) a b s
      (addPte plan.ops (plan.ops.info.entryAddr .pd a) (plan.pa a) a b right s) := by
  have hlt := hpre.part.lt
  have hle := hpre.part.le
  have hpage := (hpre.sound.table .pd a (by decide) (by omega) hpre.linked).2
  have hidx := index_lt pt a
  rw [entryAt] at hpage
  rw [addPte, hpage]
  exact addPteLoop_spec hpre _ a s (Nat.sub_le _ _) (by omega) le_rfl hlt
    hpre.part.start_dvd (AddPost.refl hpre.sound)

/-! ## `add_pde` and `add_pdpte`

The two loops differ in the level and in the function that they call for a block, so one lemma with
the specification of that function as its hypothesis serves for both. -/

section

variable {p : PageTableLevel} {a b x : ℕ} {right : Word} {leafAt : ℕ → Leaf}

theorem AddPre.lt_stop (hpre : AddPre plan p a b s) (hax : a ≤ x) (hxb : x < b) :
    plan.start ≤ x ∧ x < plan.stop :=
  (hpre.part.iff x (hpre.part.div_eq hax hxb)).mpr ⟨hax, hxb⟩

/-- The addresses of a block agree on whether a table was there. -/
theorem AddPre.largeAt_iff (hpre : AddPre plan p a b s) (hp : p ≠ .pt) (hnp : p.next ≠ .pt)
    {v v' : ℕ} (hav : a ≤ v) (hvb : v < b) (hav' : a ≤ v') (hvb' : v' < b)
    (hv : v / p.next.size = v' / p.next.size) :
    plan.LargeAt p.next v ↔ plan.LargeAt p.next v' := by
  refine AddPlan.largeAt_block hv ?_
  rw [← hpre.agree p.next v (shift_next_lt hp) hnp hav hvb,
    ← hpre.agree p.next v' (shift_next_lt hp) hnp hav' hvb', linked_next_block hnp hv]

/-- The loop starts with the right it was given. -/
theorem AddPre.rightAt_start (hpre : AddPre plan p a b s) : plan.rightAt p right a = right := by
  rw [AddPlan.rightAt, if_neg]
  rintro ⟨u, hu, hup, hlt, hlarge⟩
  have hnx := BlockLoop.lt_nextBlock p.next.shift u
  have hstop := hlarge.2.2.1
  have hau := (hpre.part.iff u hup).mp ⟨hu, by omega⟩
  have : a / p.next.size ≤ u / p.next.size := Nat.div_le_div_right hau.1
  omega

/-- A block passes its right on, tweaked if it became a large page. -/
theorem AddPre.rightAt_next (hpre : AddPre plan p a b s) (hp : p ≠ .pt) (hnp : p.next ≠ .pt)
    (hops : plan.ops.Lawful) (hax : a ≤ x) (hxb : nextBlock p.next.shift x < b) :
    plan.rightAt p right (nextBlock p.next.shift x) =
      open Classical in if plan.LargeAt p.next x then plan.ops.tweakExeRight (plan.rightAt p right x)
        else plan.rightAt p right x := by
  have hnx := BlockLoop.lt_nextBlock p.next.shift x
  have hpx : x / p.size = a / p.size := hpre.part.div_eq hax (by omega)
  have hpn : nextBlock p.next.shift x / p.size = a / p.size :=
    hpre.part.div_eq (by omega) hxb
  have hdiv : nextBlock p.next.shift x / p.next.size = x / p.next.size + 1 := nextBlock_div _ _
  have hiff : plan.Tweaked p (nextBlock p.next.shift x) ↔
      plan.LargeAt p.next x ∨ plan.Tweaked p x := by
    constructor
    · rintro ⟨u, hu, hup, hlt, hlarge⟩
      have hnu := BlockLoop.lt_nextBlock p.next.shift u
      have hustop := hlarge.2.2.1
      have hau := (hpre.part.iff u (by omega)).mp ⟨hu, by omega⟩
      by_cases hsame : u / p.next.size = x / p.next.size
      · exact Or.inl ((hpre.largeAt_iff hp hnp hau.1 hau.2 hax (by omega) hsame).mp hlarge)
      · exact Or.inr ⟨u, hu, by omega, by omega, hlarge⟩
    · rintro (hlarge | ⟨u, hu, hup, hlt, hlarge⟩)
      · exact ⟨x, (hpre.lt_stop hax (by omega)).1, by omega, by omega, hlarge⟩
      · exact ⟨u, hu, by omega, by omega, hlarge⟩
  by_cases hl : plan.LargeAt p.next x
  · rw [if_pos hl, AddPlan.tweak_rightAt hops, AddPlan.rightAt, if_pos (hiff.mpr (Or.inl hl))]
  · rw [if_neg hl, AddPlan.rightAt, AddPlan.rightAt]
    by_cases ht : plan.Tweaked p x
    · rw [if_pos ht, if_pos (hiff.mpr (Or.inr ht))]
    · rw [if_neg ht, if_neg fun h => (hiff.mp h).elim hl ht]

/-- At a block not reached yet, the tables are those of the beginning. -/
theorem AddPost.agree (hpre : AddPre plan p a b s)
    (h : AddPost plan p.next leafAt a x s s') (hx : x = a ∨ 2 ^ p.next.shift ∣ x)
    {k : PageTableLevel} (hk : k.shift < p.shift) (hkpt : k ≠ .pt) {v : ℕ} (hav : a ≤ v)
    (hvb : v < b) (hv : v / p.next.size = x / p.next.size) :
    Linked plan.ops s'.mem k.next v ↔ plan.table k v := by
  have hle := hpre.part.le
  rw [h.frame.linked_iff (by omega) (Or.inr (not_mem_touched hx hv))]
  exact hpre.agree k v hk hkpt hav hvb

/-- The next block is ready to be filled. -/
theorem AddPost.ready (hpre : AddPre plan p a b s) (hp : p ≠ .pt)
    (h : AddPost plan p.next leafAt a x s s') (hax : a ≤ x) (hxb : x < b)
    (hx : x = a ∨ 2 ^ p.next.shift ∣ x) :
    AddReady plan p.next x (min (nextBlock p.next.shift x) b) s' where
  part := hpre.part.step hp hax hxb hx
  sound := h.sound
  holes v hxv hv := by
    have hle := hpre.part.le
    have hvx := (hpre.part.step hp hax hxb hx).div_eq hxv hv
    exact (hpre.holes v (by omega) (by omega)).congr fun k hk =>
      h.frame v k (by omega) (Or.inr (not_mem_touched hx hvx)) hk
  reach := AddPost.linked_at hp hpre h hax hxb
  free v hxv hv := AddPost.free hpre h hxv (by omega) hax
  agree k v hk hkpt hxv hv := by
    refine AddPost.agree hpre h hx (hk.trans (shift_next_lt hp)) hkpt (by omega) (by omega) ?_
    exact (hpre.part.step hp hax hxb hx).div_eq hxv hv

/-- The table that was there is filled. -/
theorem AddReady.pre_of_table (h : AddReady plan p a b s) (hp : p ≠ .pt)
    (ht : IsTable plan.ops p (entryAt plan.ops s.mem p a)) : AddPre plan p a b s :=
  ⟨h, (linked_next hp a).mpr ⟨h.reach, ht⟩⟩

/-- A table is linked to be filled. -/
theorem AddReady.pre_of_link (h : AddReady plan p a b s) (hp : p ≠ .pt) (hops : plan.ops.Lawful)
    (habs : plan.ops.pgentryPresent (entryAt plan.ops s.mem p a) = 0#64)
    (hpage : a / p.size < plan.ops.info.pageNum p.next)
    (hs' : s' = linkTable plan.ops p a (plan.ops.info.entryAddr p a)
      (fun _ => sanitizedEntry plan.ops) s) :
    AddPre plan p a b s' ∧ Frame plan.ops p {a / p.size} s.mem s'.mem ∧
      (∀ v, v < 2 ^ 48 → leaf plan.ops s'.mem v = leaf plan.ops s.mem v) ∧
      ∀ v, v < 2 ^ 48 → HoleFree plan.ops s.mem v → HoleFree plan.ops s'.mem v := by
  have hle := h.part.le
  have hlt := h.part.lt
  have hold := not_isTable_of_absent (l := p) habs
  have hnt := not_isTable_sanitizedEntry hops p.next
  have hsps : ∀ i < ptrsPerTable, plan.ops.pgentryPresent (sanitizedEntry plan.ops) = 0#64 →
      entryLarge (sanitizedEntry plan.ops) = 0#64 :=
    fun _ _ _ => sanitized_ps plan.ops.info.sanitized_dvd
  obtain ⟨hsound, hframe, hbelow, hlinked⟩ := linkTable_spec hops h.sound hp (by omega) h.reach hold
    hpage (f := fun _ => sanitizedEntry plan.ops) (fun _ _ => hnt) hs'
  have hholes : ∀ v, v < 2 ^ 48 → HoleFree plan.ops s.mem v → HoleFree plan.ops s'.mem v := by
    intro v hv hh
    rw [hs']
    exact hh.linkTable hops h.sound hv hp (by omega) h.reach hold hpage (fun _ _ => hnt) hsps
  have hleaf : ∀ v, v < 2 ^ 48 → leaf plan.ops s'.mem v = leaf plan.ops s.mem v := by
    intro v hv
    by_cases hva : v / p.size = a / p.size
    · -- the whole block was unmapped, and the new table maps nothing
      have hlinkv : Linked plan.ops s.mem p v := (linked_block hva).mpr h.reach
      rw [leaf_of_entry hlinkv (entryAt_block le_rfl hva) hold, if_pos habs,
        leaf_of_entry ((hlinked _ v hv).mpr (Or.inr ⟨rfl, hva⟩)) (hbelow v hv hva) hnt,
        if_pos (sanitizedEntry_absent hops)]
    · exact hframe.leaf_eq hv hva
  have hlink' : Linked plan.ops s'.mem p.next a := (hlinked _ a (by omega)).mpr (Or.inr ⟨rfl, rfl⟩)
  refine ⟨⟨⟨h.part, hsound, fun v hav hv => hholes v (by omega) (h.holes v hav hv),
    ((linked_next hp a).mp hlink').1, ?_, ?_⟩, hlink'⟩, hframe, hleaf, hholes⟩
  · intro v hav hv
    rw [hleaf v (by omega)]
    exact h.free v hav hv
  · intro k v hk hkpt hav hv
    rw [← h.agree k v hk hkpt hav hv, hlinked _ v (by omega)]
    refine or_iff_left fun hc => ?_
    rw [next_inj hkpt hp hc.1] at hk
    exact lt_irrefl _ hk

/-- The code's test for a large page is the plan's. -/
theorem AddPost.largeAt_iff (hpre : AddPre plan p a b s) (hp : p ≠ .pt) (hnp : p.next ≠ .pt)
    (h : AddPost plan p.next leafAt a x s s') (hax : a ≤ x) (hxb : x < b)
    (hx : x = a ∨ 2 ^ p.next.shift ∣ x)
    (habs : plan.ops.pgentryPresent (entryAt plan.ops s'.mem p.next x) = 0#64) :
    (plan.ops.largePageEnabled = true ∧ memAlignedCheck (plan.pa x) p.next.shift = true ∧
      memAlignedCheck x p.next.shift = true ∧ nextBlock p.next.shift x ≤ b) ↔
    plan.LargeAt p.next x := by
  have hcov := hpre.part.covered_iff hp hax hxb hx
  have htable : ¬ plan.table p.next x := by
    rw [← AddPost.agree hpre h hx (shift_next_lt hp) hnp hax hxb rfl, linked_next hnp]
    exact fun hl => hl.2.1 habs
  simp only [memAlignedCheck, beq_iff_eq, ← Nat.dvd_iff_mod_eq_zero]
  constructor
  · rintro ⟨hen, hpa, hal, hend⟩
    obtain ⟨h₁, h₂⟩ := hcov.mpr ⟨hal, hend⟩
    refine ⟨hen, h₁, h₂, ?_, htable⟩
    rwa [blockStart_of_dvd hal]
  · rintro ⟨hen, h₁, h₂, hpa, -⟩
    obtain ⟨hal, hend⟩ := hcov.mp ⟨h₁, h₂⟩
    rw [blockStart_of_dvd hal] at hpa
    exact ⟨hen, hpa, hal, hend⟩

/-- A large page is set where the plan has one. -/
theorem AddPre.setLarge (hops : plan.ops.Lawful) (hpre : AddPre plan p a b s)
    (hnl : p.next = .pdpt ∨ p.next = .pd) (hppt : p ≠ .pt) (hnp : p.next ≠ .pt) {right : Word}
    (childLeaf : Word → ℕ → Leaf) {x : ℕ} {t : PgMem} (hsound : Sound plan.ops t) (hax : a ≤ x)
    (hxb : x < b) (hal : 2 ^ p.next.shift ∣ x) (hend : nextBlock p.next.shift x ≤ b)
    (hlink : Linked plan.ops t.mem p.next x)
    (habs : plan.ops.pgentryPresent (entryAt plan.ops t.mem p.next x) = 0#64)
    (hok : plan.Passed (plan.rightAt p right x)) (hl : plan.LargeAt p.next x) :
    AddPost plan p.next (plan.entryLeaf p childLeaf right) x (nextBlock p.next.shift x) t
      (t.setPgentry (plan.ops.info.entryAddr p.next x) (BitVec.ofNat 64 (plan.pa x) |||
        (plan.ops.tweakExeRight (plan.rightAt p right x) ||| pagePs))) := by
  have hle := hpre.part.le
  refine AddPost.setLeaf hsound (by omega) hal hlink habs (Or.inr fun hr =>
    hops.present_or_right (hops.present_or_left (hr.present hops hok).2)) ?_ ?_
  · rw [entryLarge_maps hnl, entryLarge, ← BitVec.or_assoc]
    exact or_and_ne_zero (by decide)
  · -- the whole block has the plan of its start
    intro v hv
    have hin : x ≤ v ∧ v < nextBlock p.next.shift x := by
      have := div_eq_iff.mp hv
      rwa [blockStart_of_dvd hal] at this
    have hlv : plan.LargeAt p.next v := by
      rwa [hpre.largeAt_iff hppt hnp (by omega) (by omega) hax hxb hv]
    have hbs : blockStart p.next.shift v = x := by
      rw [← blockStart_of_dvd hal, blockStart, blockStart]
      exact congrArg (· * p.next.size) hv
    rw [AddPlan.entryLeaf, if_pos hlv, AddPlan.mapAt, hbs, AddPlan.tweak_rightAt hops]

/-- **The loop of `add_pde` and `add_pdpte`** carries out the plan, given that the
function for the next level does. -/
theorem addEntries_spec (hops : plan.ops.Lawful) (hserved : plan.Served)
    (hp : p = .pml4 ∨ p = .pdpt) {child : ℕ → ℕ → ℕ → ℕ → Word → PgMem → PgMem}
    {childLeaf : Word → ℕ → Leaf}
    (hchild : ∀ s a b right, AddPre plan p.next a b s → plan.Passed right →
      AddPost plan p.next.next (childLeaf right) a b s
        (child (plan.ops.info.entryAddr p.next a) (plan.pa a) a b right s))
    (hpre : AddPre plan p a b s) (hright : plan.Passed right) :
    AddPost plan p.next (plan.entryLeaf p childLeaf right) a b s
      (addEntries p.next child plan.ops (plan.ops.info.entryAddr p a) (plan.pa a) a b right s) := by
  have hppt : p ≠ .pt := by rcases hp with rfl | rfl <;> decide
  have hnp : p.next ≠ .pt := by rcases hp with rfl | rfl <;> decide
  have hnl : p.next = .pdpt ∨ p.next = .pd := by rcases hp with rfl | rfl <;> simp [next]
  have hle := hpre.part.le
  have hlt := hpre.part.lt
  have hpage := (hpre.sound.table p a hppt (by omega) hpre.linked).2
  rw [entryAt] at hpage
  rw [addEntries, hpage]
  refine (tableLoop_rule (I := fun x (c : AddCursor) =>
    (x < b → c.paddr = plan.pa x ∧ c.effectiveProt = plan.rightAt p right x) ∧
      AddPost plan p.next (plan.entryLeaf p childLeaf right) a x s c.pages)
    hppt hpre.part.toWithin (fun _ _ => rfl) ?_ _
    ⟨fun _ => ⟨rfl, hpre.rightAt_start.symm⟩, AddPost.refl hpre.sound⟩).2
  rintro x ⟨paddr, eff, t⟩ hax hxb hx ⟨hcur, hpost⟩
  obtain ⟨rfl, rfl⟩ := hcur hxb
  have hxs := hpre.part.div_eq hax hxb
  have hready := AddPost.ready hpre hppt hpost hax hxb hx
  have hpart := hready.part
  have hlink := hready.reach
  have hnx := BlockLoop.lt_nextBlock p.next.shift x
  have hfree := hready.free x le_rfl (by omega)
  have hpan : plan.pa x + (nextBlock p.next.shift x - x) = plan.pa (nextBlock p.next.shift x) := by
    have := (hpre.lt_stop hax hxb).1
    rw [AddPlan.pa, AddPlan.pa]
    omega
  have hok := hright.rightAt hops p x
  have hentry : t.mem (plan.ops.info.entryAddr p.next x) = entryAt plan.ops t.mem p.next x := rfl
  simp only [PoolLayout.tablePage_slot _ hppt hxs, hentry]
  -- what one block is to get, when no large page fits
  have hsmall : ¬ plan.LargeAt p.next x → ∀ v, x ≤ v → v < min (nextBlock p.next.shift x) b →
      childLeaf (plan.rightAt p right x) v = plan.entryLeaf p childLeaf right v := by
    intro hl v hxv hv
    have hvx := hpart.div_eq hxv hv
    have hlv : ¬ plan.LargeAt p.next v := by
      rwa [hpre.largeAt_iff hppt hnp (by omega) (by omega) hax hxb hvx]
    rw [AddPlan.entryLeaf, if_neg hlv, AddPlan.rightAt_block hppt hvx]
  have hcursor : ¬ plan.LargeAt p.next x → min (nextBlock p.next.shift x) b < b →
      plan.pa x + (nextBlock p.next.shift x - x) = plan.pa (min (nextBlock p.next.shift x) b) ∧
        plan.rightAt p right x = plan.rightAt p right (min (nextBlock p.next.shift x) b) := by
    intro hl hb
    rw [Nat.min_eq_left (by omega), hpan, hpre.rightAt_next hppt hnp hops hax (by omega), if_neg hl]
    exact ⟨rfl, rfl⟩
  by_cases hlarge : entryLarge (entryAt plan.ops t.mem p.next x) ≠ 0#64
  · rw [(hready.holes x le_rfl (by omega)).maps hnl hlink hlarge] at hfree
    cases hfree
  rw [if_neg hlarge]
  by_cases habs : plan.ops.pgentryPresent (entryAt plan.ops t.mem p.next x) = 0#64
  · have htest := AddPost.largeAt_iff hpre hppt hnp hpost hax hxb hx habs
    rw [if_pos habs]
    by_cases hl : plan.LargeAt p.next x
    · obtain ⟨-, -, hal, hend⟩ := htest.mpr hl
      rw [memAlignedCheck, beq_iff_eq, ← Nat.dvd_iff_mod_eq_zero] at hal
      rw [if_pos (htest.mpr hl), Nat.min_eq_left hend]
      refine ⟨fun hb => ⟨hpan, ?_⟩, hpost.trans hx hax (by omega) (by omega) ?_⟩
      · rw [hpre.rightAt_next hppt hnp hops hax hb, if_pos hl]
      · exact hpre.setLarge hops hnl hppt hnp childLeaf hpost.sound hax hxb hal hend hlink habs
          hok hl
    · rw [if_neg fun h => hl (htest.mp h)]
      have hpn : x / p.next.size < plan.ops.info.pageNum p.next.next :=
        hserved _ _ hnl (hpre.lt_stop hax hxb).1 (hpre.lt_stop hax hxb).2 hl
      obtain ⟨hpre', hframe, hleaf, hholes⟩ := hready.pre_of_link hnp hops habs hpn rfl
      refine ⟨hcursor hl, hpost.trans hx hax (by omega) (by omega) ?_⟩
      exact AddPost.after_link (by omega) hframe hleaf hholes
        ((hchild _ _ _ _ hpre' hok).widen hnp (hsmall hl))
  · rw [if_neg habs]
    have ht : IsTable plan.ops p.next (entryAt plan.ops t.mem p.next x) :=
      ⟨habs, free_entry hlink hfree habs⟩
    have hl : ¬ plan.LargeAt p.next x := by
      refine fun h => h.2.2.2.2 ?_
      rw [← AddPost.agree hpre hpost hx (shift_next_lt hppt) hnp hax hxb rfl, linked_next hnp]
      exact ⟨hlink, ht⟩
    have hpre' := hready.pre_of_table hnp ht
    refine ⟨hcursor hl, hpost.trans hx hax (by omega) (by omega) ?_⟩
    exact (hchild _ _ _ _ hpre' hok).widen hnp (hsmall hl)

end

theorem addPde_spec (hops : plan.ops.Lawful) (hserved : plan.Served) {a b : ℕ} {right : Word}
    (hpre : AddPre plan .pdpt a b s) (hright : plan.Passed right) :
    AddPost plan .pd (plan.pdeLeaf right) a b s
      (addPde plan.ops (plan.ops.info.entryAddr .pdpt a) (plan.pa a) a b right s) :=
  addEntries_spec (p := .pdpt) hops hserved (Or.inr rfl)
    (fun _ _ _ _ hpre _ => addPte_spec hpre) hpre hright

theorem addPdpte_spec (hops : plan.ops.Lawful) (hserved : plan.Served) {a b : ℕ} {right : Word}
    (hpre : AddPre plan .pml4 a b s) (hright : plan.Passed right) :
    AddPost plan .pdpt (plan.pdpteLeaf right) a b s
      (addPdpte plan.ops (plan.ops.info.entryAddr .pml4 a) (plan.pa a) a b right s) :=
  addEntries_spec (p := .pml4) hops hserved (Or.inl rfl)
    (fun _ _ _ _ hpre hright => addPde_spec hops hserved hpre hright) hpre hright

/-! ## `mmu_add` -/

/-- The plan of a call in the state `s`. -/
def addPlan (ops : MemoryOps) (paddrBase vaddrBase size : ℕ) (prot : Word) (s : PgMem) :
    AddPlan where
  ops := ops
  start := roundPageDown vaddrBase
  stop := rangeEnd vaddrBase size
  paddr := roundPageDown paddrBase
  prot := prot
  table l v := Linked ops s.mem l.next v

/-- **`mmu_add` carries out its plan** on a free range inside the window. -/
theorem mmuAdd_spec {ops : MemoryOps} (hops : ops.Lawful) {paddrBase vaddrBase size : ℕ}
    {prot : Word} (hs : Sound ops s)
    (hwin : rangeEnd vaddrBase size ≤ ops.info.window)
    (hrange : roundPageDown vaddrBase ≤ rangeEnd vaddrBase size)
    (hfree : ∀ v, roundPageDown vaddrBase ≤ v → v < rangeEnd vaddrBase size →
      leaf ops s.mem v = none)
    (hholes : ∀ v, roundPageDown vaddrBase ≤ v → v < rangeEnd vaddrBase size →
      HoleFree ops s.mem v)
    (hserved : (addPlan ops paddrBase vaddrBase size prot s).Served) :
    AddPost (addPlan ops paddrBase vaddrBase size prot s) .pml4
      ((addPlan ops paddrBase vaddrBase size prot s).pdpteLeaf prot)
      (roundPageDown vaddrBase) (rangeEnd vaddrBase size) s
      (mmuAdd ops ops.info.pml4Base paddrBase vaddrBase size prot s) := by
  have hle : rangeEnd vaddrBase size ≤ 2 ^ 48 := hwin.trans ops.info.window_le
  set plan := addPlan ops paddrBase vaddrBase size prot s with hplan
  rw [mmuAdd, ← rangeEnd]
  refine (rootLoop_rule (I := fun x (c : ℕ × PgMem) =>
    (x < rangeEnd vaddrBase size → c.1 = plan.pa x) ∧
      AddPost plan .pml4 (plan.pdpteLeaf prot) (roundPageDown vaddrBase) x s c.2) hle
    (dvd_roundPageDown _) (dvd_rangeEnd _ _) ?_ _ hrange
    ⟨fun _ => by simp [hplan, addPlan, AddPlan.pa], AddPost.refl hs⟩).2
  rintro x ⟨paddr, t⟩ hge hx hw ⟨hcur, hpost⟩
  have hnx := BlockLoop.lt_nextBlock pml4.shift x
  have hxb := hw.lt
  have hx48 : x < 2 ^ 48 := lt_of_lt_of_le hw.lt hw.le
  obtain rfl := hcur (by omega)
  have hready : AddReady plan .pml4 x (min (nextBlock pml4.shift x) (rangeEnd vaddrBase size)) t := by
    refine ⟨partOf_root hge hw hx, hpost.sound, ?_, trivial, ?_, ?_⟩
    · intro v hxv hv
      have hvx := hw.div_eq hxv hv
      exact (hholes v (by omega) (by omega)).congr fun k hk =>
        hpost.frame v k (by omega) (Or.inr (not_mem_touched hx hvx)) hk
    · intro v hxv hv
      rw [hpost.outside v (by omega) (by omega)]
      exact hfree v (by omega) (by omega)
    · intro k v _ _ hxv hv
      exact hpost.frame.linked_iff (by omega) (Or.inr (not_mem_touched hx (hw.div_eq hxv hv)))
  have hslot : ops.info.pml4Base + 8 * pml4.index x = ops.info.entryAddr .pml4 x := root_slot hx48
  have hcursor : min (nextBlock pml4.shift x) (rangeEnd vaddrBase size) < rangeEnd vaddrBase size →
      plan.pa x + (nextBlock pml4.shift x - x) =
        plan.pa (min (nextBlock pml4.shift x) (rangeEnd vaddrBase size)) := by
    intro hb
    have hstart : plan.start ≤ x := hge
    rw [Nat.min_eq_left (by omega), AddPlan.pa, AddPlan.pa]
    omega
  refine ⟨hcursor, hpost.trans hx hge (by omega) (by omega) ?_⟩
  simp only [hslot]
  by_cases habs : ops.pgentryPresent (t.mem (ops.info.entryAddr .pml4 x)) = 0#64
  · have hpn : x / pml4.size < ops.info.pageNum .pdpt :=
      PoolLayout.div_lt_pageNum (l := .pml4) (by decide) (by omega) fun h => absurd h (by decide)
    obtain ⟨hpre, hframe, hleaf, hholes'⟩ := hready.pre_of_link (by decide) hops habs hpn rfl
    rw [if_pos habs]
    exact AddPost.after_link (by omega) hframe hleaf hholes'
      ((addPdpte_spec hops hserved hpre (Or.inl rfl)).widen (p := .pml4) (by decide) fun _ _ _ => rfl)
  · rw [if_neg habs]
    exact (addPdpte_spec hops hserved (hready.pre_of_table (by decide) ⟨habs, id⟩) (Or.inl rfl)).widen
      (p := .pml4) (by decide) fun _ _ _ => rfl

end Acrn
