import Acrn.HostPaging

/-!
# Entries that are not present

A processor may speculate through an entry that is not present and load what lies at its
address. So every such entry below the root has to hold the address of the sanitized page and
nothing else: in a table that was just linked, in one that took the place of a large page, and
where a page was removed. This is shown for single writes, and from there for any run of calls.
-/

namespace Acrn

open BlockLoop BitField PageTableLevel

/-! ## Tables as the processor walks them -/

/-- The processor can get from the root to the entry at this address. -/
inductive TableEntryAt (ops : MemoryOps) (pml4Page : ℕ) (m : ℕ → Word) :
    PageTableLevel → ℕ → Prop where
  | root {i : ℕ} : i < ptrsPerTable → TableEntryAt ops pml4Page m .pml4 (pml4Page + 8 * i)
  | next {l : PageTableLevel} {a i : ℕ} : TableEntryAt ops pml4Page m l a → l ≠ .pt →
      IsTable ops l (m a) → i < ptrsPerTable →
      TableEntryAt ops pml4Page m l.next (pageVaddr (m a) + 8 * i)

variable {ops : MemoryOps} {s s' : PgMem}

/-- Each slot of a table is the slot of some address of the block it serves. -/
theorem exists_address {l : PageTableLevel} (hl : l ≠ .pt) (v : ℕ) {i : ℕ} (hi : i < ptrsPerTable) :
    ∃ u, u / l.size = v / l.size ∧ l.next.index u = i := by
  refine ⟨v / l.size * l.size + i * l.next.size, ?_, ?_⟩
  · cases l
    case pt => exact absurd rfl hl
    all_goals
      simp only [size, next, shift, ptrsPerTable] at *
      omega
  · cases l
    case pt => exact absurd rfl hl
    all_goals
      simp only [index, size, next, shift, ptrsPerTable] at *
      omega

/-- An entry that can be reached is the canonical one of some address. -/
theorem TableEntryAt.canonical (hs : Sound ops s) {l : PageTableLevel} {a : ℕ}
    (h : TableEntryAt ops ops.info.pml4Base s.mem l a) :
    ∃ v < 2 ^ 48, Linked ops s.mem l v ∧ a = ops.info.entryAddr l v := by
  induction h with
  | @root i hi =>
    have hv : i * 2 ^ 39 < 2 ^ 48 := by
      simp only [ptrsPerTable] at hi
      omega
    refine ⟨i * 2 ^ 39, hv, trivial, ?_⟩
    rw [← root_slot hv, index, show pml4.size = 2 ^ 39 from rfl,
      Nat.mul_div_cancel _ (Nat.two_pow_pos 39), Nat.mod_eq_of_lt hi]
  | @next l a i _ hl htable hi ih =>
    obtain ⟨v, hv, hlink, rfl⟩ := ih
    obtain ⟨u, hu, hindex⟩ := exists_address hl v hi
    have hu48 : u < 2 ^ 48 := by
      cases l
      case pt => exact absurd rfl hl
      all_goals
        simp only [size, shift] at hu
        omega
    have hlink' : Linked ops s.mem l.next v := (linked_next hl v).mpr ⟨hlink, htable⟩
    refine ⟨u, hu48, (linked_next_block hl hu).mpr hlink', ?_⟩
    have hpage : pageVaddr (s.mem (ops.info.entryAddr l v)) = ops.info.tablePage l v :=
      (hs.table l v hl hv hlink').2
    rw [hpage, ← hindex]
    exact PoolLayout.tablePage_slot _ hl hu

/-- An entry that is linked can be reached. -/
theorem TableEntryAt.of_linked (hs : Sound ops s) {l : PageTableLevel} {v : ℕ} (hv : v < 2 ^ 48)
    (hlink : Linked ops s.mem l v) :
    TableEntryAt ops ops.info.pml4Base s.mem l (ops.info.entryAddr l v) := by
  have hroot : TableEntryAt ops ops.info.pml4Base s.mem .pml4 (ops.info.entryAddr .pml4 v) := by
    rw [← root_slot hv]
    exact .root (index_lt _ _)
  have hstep : ∀ k, k ≠ .pt → TableEntryAt ops ops.info.pml4Base s.mem k (ops.info.entryAddr k v) →
      Linked ops s.mem k.next v →
      TableEntryAt ops ops.info.pml4Base s.mem k.next (ops.info.entryAddr k.next v) := by
    intro k hk hentry hnext
    have hpage : pageVaddr (s.mem (ops.info.entryAddr k v)) = ops.info.tablePage k v :=
      (hs.table k v hk hv hnext).2
    rw [← PoolLayout.base_eq_tablePage hk, ← hpage]
    exact hentry.next hk ((linked_next hk v).mp hnext).2 (index_lt _ _)
  have hpdpt := hstep .pml4 (by decide) hroot
  cases l with
  | pml4 => exact hroot
  | pdpt => exact hpdpt hlink
  | pd => exact hstep .pdpt (by decide) (hpdpt hlink.1) hlink
  | pt =>
    have hpd : Linked ops s.mem .pd v := ⟨hlink.1, hlink.2.1⟩
    exact hstep .pd (by decide) (hstep .pdpt (by decide) (hpdpt hlink.1) hpd) hlink

/-! ## Single writes

A write concerns one entry, or all entries of a fresh table. The three operations write absent
entries in three places, and each of them sanitizes. -/

/-- Every absent entry that a walk can meet below the root is sanitized. -/
def Sanitized (ops : MemoryOps) (s : PgMem) : Prop :=
  ∀ l v, l ≠ .pml4 → v < 2 ^ 48 → Linked ops s.mem l v →
    ops.pgentryPresent (entryAt ops s.mem l v) = 0#64 → entryAt ops s.mem l v = sanitizedEntry ops

/-- The property of a single entry below the root. -/
def AbsentSanitized (ops : MemoryOps) (l : PageTableLevel) (e : Word) : Prop :=
  l ≠ .pml4 → ops.pgentryPresent e = 0#64 → e = sanitizedEntry ops

theorem sanitized_iff_entries : Sanitized ops s ↔ Entries ops (AbsentSanitized ops) s :=
  ⟨fun h l v hv hlink hl => h l v hl hv hlink, fun h l v hl hv hlink => h l v hv hlink hl⟩

theorem AbsentSanitized.of_present {l : PageTableLevel} {e : Word}
    (h : ops.pgentryPresent e ≠ 0#64) : AbsentSanitized ops l e := fun _ habs => absurd habs h

namespace Sanitized

theorem setLeaf (h : Sanitized ops s) (hs : Sound ops s) {l₀ : PageTableLevel} {v₀ : ℕ}
    (hv₀ : v₀ < 2 ^ 48) (hlink : Linked ops s.mem l₀ v₀)
    (hold : ¬ IsTable ops l₀ (entryAt ops s.mem l₀ v₀)) {e : Word} (hnew : ¬ IsTable ops l₀ e)
    (he : ops.pgentryPresent e = 0#64 → e = sanitizedEntry ops) :
    Sanitized ops (s.setPgentry (ops.info.entryAddr l₀ v₀) e) :=
  sanitized_iff_entries.mpr
    ((sanitized_iff_entries.mp h).setLeaf hs hv₀ hlink hold hnew fun _ => he)

theorem linkTable (h : Sanitized ops s) {l₀ : PageTableLevel} {v₀ : ℕ} {f : ℕ → Word}
    (hnew : NewTable ops s s' l₀ v₀ f)
    (hf : ∀ i, ops.pgentryPresent (f i) = 0#64 → f i = sanitizedEntry ops) : Sanitized ops s' :=
  sanitized_iff_entries.mpr ((sanitized_iff_entries.mp h).linkTable hnew
    (.of_present hnew.isTable.1) fun i _ _ => hf i)

end Sanitized

/-- **`mmu_add`** sanitizes the tables it links, and its leaves are present. -/
theorem WritesOf.sanitized_add (hops : ops.Lawful) {limit : ℕ} {prot : Word}
    (hprot : ops.pgentryPresent prot ≠ 0#64)
    (htweak : ops.pgentryPresent (ops.tweakExeRight prot) ≠ 0#64)
    (h : WritesOf ops (addKind ops limit prot) s s') (hsan : Sanitized ops s) :
    Sanitized ops s' := by
  rw [sanitized_iff_entries] at hsan ⊢
  refine h.entries hops (fun l page _ _ => .of_present (tableEntry_present hops page)) ?_ ?_ hsan
  · rintro l v old e - ⟨-, paddr, -, right, hright, he⟩ -
    have hpresent : ops.pgentryPresent right ≠ 0#64 := by
      rcases hright with rfl | rfl
      · exact hprot
      · exact htweak
    refine .of_present ?_
    rcases he with rfl | rfl
    · exact hops.present_or_right hpresent
    · exact hops.present_or_right (hops.present_or_left hpresent)
  · rintro l v old f - ⟨-, rfl⟩ - i - - -
    rfl

/-- **A deletion** sanitizes what it removes, and the pieces of a large page are present. -/
theorem WritesOf.sanitized_del (hops : ops.Lawful) {protSet protClr : Word} {start stop : ℕ}
    (h : WritesOf ops (modKind ops protSet protClr .del start stop) s s')
    (hsan : Sanitized ops s) : Sanitized ops s' := by
  rw [sanitized_iff_entries] at hsan ⊢
  refine h.entries hops (fun l page _ _ => .of_present (tableEntry_present hops page)) ?_ ?_ hsan
  · rintro l v old e - ⟨-, -, -, he⟩ - - -
    exact he
  · rintro l v old f - ⟨-, hpresent, hl, -, rfl⟩ - i -
    exact .of_present (splitEntry_present hops hl hpresent i)

/-! ## Modifications

A modification can clear the last right of a page, and then the entry is absent without being
sanitized. `KeepsLeaves` excludes that, for the pieces of large pages too. -/

/-- The modification leaves every page in the range present. -/
def KeepsLeaves (ops : MemoryOps) (protSet protClr : Word) (start stop : ℕ) (s : PgMem) : Prop :=
  ∀ v, start ≤ v → v < stop → ∀ L, leaf ops s.mem v = some L →
    ops.pgentryPresent (newEntry ops protSet protClr .modify L.entry) ≠ 0#64

/-- A second modification changes nothing. -/
theorem newEntry_newEntry (ops : MemoryOps) (protSet protClr e : Word) :
    newEntry ops protSet protClr .modify (newEntry ops protSet protClr .modify e) =
      newEntry ops protSet protClr .modify e := by
  simp only [newEntry]
  apply BitVec.eq_of_getLsbD_eq
  intro i _
  simp only [BitVec.getLsbD_or, BitVec.getLsbD_and]
  cases e.getLsbD i <;> cases (~~~protClr).getLsbD i <;> cases protSet.getLsbD i <;> rfl

/-- A piece of a large page stays present if the page does. -/
theorem newEntry_splitEntry_present (hops : ops.Lawful) {l : PageTableLevel}
    (hl : l = .pdpt ∨ l = .pd) {protSet protClr e : Word}
    (he : ops.pgentryPresent (newEntry ops protSet protClr .modify e) ≠ 0#64) (v : ℕ) :
    ops.pgentryPresent
      (newEntry ops protSet protClr .modify (splitEntry ops l e (l.next.index v))) ≠ 0#64 := by
  have hattr := attributes_modify protSet protClr (attributes_splitEntry hops hl e v)
  rw [newEntry, present_of_attributes hops hattr]
  split
  · -- a 4-KByte piece gets the execute right back
    obtain ⟨exe, -, -, hrecover⟩ := hops.exe
    rw [hrecover, BitVec.and_or_distrib_right, BitVec.or_comm (e &&& _), BitVec.or_assoc]
    exact hops.present_or_right he
  · exact he

/-- The page at `(l₀, v₀)` is replaced by what the modification makes of it. -/
theorem KeepsLeaves.setLeaf {protSet protClr : Word} {start stop : ℕ} (hstop : stop ≤ 2 ^ 48)
    (h : KeepsLeaves ops protSet protClr start stop s) (hs : Sound ops s) {l₀ : PageTableLevel}
    {v₀ : ℕ} (hv₀ : v₀ < 2 ^ 48) (hlink : Linked ops s.mem l₀ v₀)
    (hold : ¬ IsTable ops l₀ (entryAt ops s.mem l₀ v₀)) {e : Word} (hnew : ¬ IsTable ops l₀ e)
    (he : e = newEntry ops protSet protClr .modify (entryAt ops s.mem l₀ v₀))
    (hpresent : ops.pgentryPresent e ≠ 0#64) :
    KeepsLeaves ops protSet protClr start stop
      (s.setPgentry (ops.info.entryAddr l₀ v₀) e) := by
  obtain ⟨-, hframe, hblock, hlinked⟩ := setLeaf_spec hs hv₀ hlink hold hnew rfl
  intro v hge hlt L hL
  have hv : v < 2 ^ 48 := hlt.trans_le hstop
  by_cases hvv : v / l₀.size = v₀ / l₀.size
  · have hlv := (hlinked l₀ v hv).mpr ((linked_block hvv).mpr hlink)
    rw [leaf_of_entry hlv (hblock v hv hvv) hnew, if_neg hpresent] at hL
    obtain rfl := Option.some.inj hL
    rw [he, newEntry_newEntry, ← he]
    exact hpresent
  · rw [hframe.leaf_eq hv hvv] at hL
    exact h v hge hlt L hL

/-- A large page is replaced by its pieces. -/
theorem KeepsLeaves.splitPage {protSet protClr : Word} {start stop : ℕ} (hstop : stop ≤ 2 ^ 48)
    (h : KeepsLeaves ops protSet protClr start stop s) {l₀ : PageTableLevel}
    (hl₀ : l₀ = .pdpt ∨ l₀ = .pd) {v₀ : ℕ}
    (hpresent : ops.pgentryPresent (entryAt ops s.mem l₀ v₀) ≠ 0#64)
    (hnew : NewTable ops s s' l₀ v₀ (splitEntry ops l₀ (entryAt ops s.mem l₀ v₀))) :
    KeepsLeaves ops protSet protClr start stop s' := by
  intro v hge hlt L hL
  have hv : v < 2 ^ 48 := hlt.trans_le hstop
  by_cases hvv : v / l₀.size = v₀ / l₀.size
  · have hbelow : entryAt ops s'.mem l₀.next v = splitEntry ops l₀ _ _ := hnew.entryAt_below hvv
    have hlv : Linked ops s'.mem l₀.next v := (hnew.linked_iff _ hv).mpr (.inr ⟨rfl, hvv⟩)
    rw [leaf_of_entry hlv hbelow (hnew.leaves _ (index_lt _ _)),
      if_neg (splitEntry_present hnew.lawful hl₀ hpresent _)] at hL
    obtain rfl := Option.some.inj hL
    have hold : leaf ops s.mem v = some ⟨l₀, entryAt ops s.mem l₀ v₀⟩ := by
      rw [leaf_of_entry ((linked_block hvv).mpr hnew.linked) (entryAt_block le_rfl hvv)
        hnew.absent, if_neg hpresent]
    exact newEntry_splitEntry_present hnew.lawful hl₀ (h v hge hlt _ hold) v
  · rw [hnew.frame.leaf_eq hv hvv] at hL
    exact h v hge hlt L hL

/-- **A modification** that leaves every page present leaves no other absent entry. -/
theorem WritesOf.sanitized_modify (hops : ops.Lawful) {protSet protClr : Word} {start stop : ℕ}
    (hstop : stop ≤ 2 ^ 48) (h : WritesOf ops (modKind ops protSet protClr .modify start stop) s s')
    (hkeep : KeepsLeaves ops protSet protClr start stop s) (hsan : Sanitized ops s) :
    Sanitized ops s' ∧ KeepsLeaves ops protSet protClr start stop s' := by
  induction h with
  | refl _ => exact ⟨hsan, hkeep⟩
  | @leaf t l₀ v₀ e hw _ hv₀ hlink hold hnew hkind ih =>
    obtain ⟨⟨hge, hlt⟩, hpresent, -, he⟩ := hkind
    have hleaf := leaf_of_present hlink hold hpresent
    have hpresent' : ops.pgentryPresent e ≠ 0#64 := he ▸ ih.2 v₀ hge hlt _ hleaf
    exact ⟨ih.1.setLeaf (hw.sound hops) hv₀ hlink hold hnew fun habs => absurd habs hpresent',
      ih.2.setLeaf hstop (hw.sound hops) hv₀ hlink hold hnew he hpresent'⟩
  | @table t l₀ v₀ f hw hl₀ hv₀ hlink hold hpage hf hkind ih =>
    obtain ⟨-, hpresent, hl, -, rfl⟩ := hkind
    have hnew : NewTable ops t _ l₀ v₀ _ :=
      ⟨hops, hw.sound hops, hl₀, hv₀, hlink, hold, hpage, hf, rfl⟩
    exact ⟨ih.1.linkTable hnew fun i habs => absurd habs (splitEntry_present hops hl hpresent i),
      ih.2.splitPage hstop hl hpresent hnew⟩

/-! ## Runs -/

/-- A call of one of the two functions. -/
inductive MmuCall where
  | add (paddrBase vaddrBase size : ℕ) (prot : Word)
  | modify (vaddrBase size : ℕ) (protSet protClr : Word)
  | del (vaddrBase size : ℕ)

namespace MmuCall

def run (ops : MemoryOps) : MmuCall → PgMem → PgMem
  | add paddrBase vaddrBase size prot => mmuAdd ops ops.info.pml4Base paddrBase vaddrBase size prot
  | modify vaddrBase size protSet protClr =>
    mmuModifyOrDel ops ops.info.pml4Base vaddrBase size protSet protClr .modify
  | del vaddrBase size => mmuModifyOrDel ops ops.info.pml4Base vaddrBase size 0#64 0#64 .del

/-- The range lies inside the window of the pools and needs no page table where there is none.
A deletion in a table without page tables stays below entries of the root that are present. -/
def InPools (ops : MemoryOps) (s : PgMem) : MmuCall → Prop
  | add paddrBase vaddrBase size _ => rangeEnd vaddrBase size ≤ ops.info.window ∧
      BlockAligned ops (roundPageDown vaddrBase) ∧ BlockAligned ops (rangeEnd vaddrBase size) ∧
      BlockAligned ops (roundPageDown paddrBase)
  | modify vaddrBase size _ _ => rangeEnd vaddrBase size ≤ ops.info.window ∧
      BlockAligned ops (roundPageDown vaddrBase) ∧ BlockAligned ops (rangeEnd vaddrBase size)
  | del vaddrBase size => rangeEnd vaddrBase size ≤ ops.info.window ∧
      BlockAligned ops (roundPageDown vaddrBase) ∧ BlockAligned ops (rangeEnd vaddrBase size) ∧
      (ops.info.ptPool = true ∨ ∀ v, roundPageDown vaddrBase ≤ v → v < rangeEnd vaddrBase size →
        ops.pgentryPresent (entryAt ops s.mem .pml4 v) ≠ 0#64)

/-- A modification leaves the pages of its range pages, and present. -/
def KeepsPages (ops : MemoryOps) (s : PgMem) : MmuCall → Prop
  | modify vaddrBase size protSet protClr => protClr &&& pagePs = 0#64 ∧
      KeepsLeaves ops protSet protClr (roundPageDown vaddrBase) (rangeEnd vaddrBase size) s
  | _ => True

/-- The right that is added makes an entry present, also where the execute right is taken off. -/
def AddsPages (ops : MemoryOps) : MmuCall → Prop
  | add _ _ _ prot => ops.pgentryPresent prot ≠ 0#64 ∧
      ops.pgentryPresent (ops.tweakExeRight prot) ≠ 0#64
  | _ => True

end MmuCall

/-- The tables that calls of a kind build, from the root that `create_vm` or `init_paging`
makes. -/
inductive Built (ops : MemoryOps) (allowed : PgMem → MmuCall → Prop) : PgMem → Prop where
  | ept {s : PgMem} : ops.info.ptPool = true → BeforeCreate ops s → Built ops allowed (createEpt ops s)
  | ppt {s : PgMem} : ops.info.ptPool = false → s.requests = [] →
      Built ops allowed (pptGetPml4Page ops.info s)
  | call {s : PgMem} {c : MmuCall} : Built ops allowed s → allowed s c →
      Built ops allowed (c.run ops s)

/-- What holds of every table. -/
structure BuiltOk (ops : MemoryOps) (s : PgMem) : Prop where
  sound : Sound ops s
  root : ops.info.ptPool = true → SanitizedRoot ops s
  sanitized : Sanitized ops s

theorem RootAbsent.sanitized (h : RootAbsent ops s) : Sanitized ops s :=
  fun _ _ hl hv hlink => absurd hlink (h.not_linked hl hv)

theorem MemoryOps.Known.large (hknown : ops.Known) :
    ops.info.ptPool = true ∨ ops.largePageEnabled = true := by
  cases hknown with
  | ept _ _ _ hpool => exact .inl hpool
  | ppt => exact .inr rfl

/-- A call keeps the absent entries sanitized. -/
theorem BuiltOk.call (hknown : ops.Known) (h : BuiltOk ops s) {c : MmuCall}
    (hpools : c.InPools ops s) (hkeeps : c.KeepsPages ops s) (hadds : c.AddsPages ops) :
    BuiltOk ops (c.run ops s) := by
  have hops := hknown.lawful
  cases c with
  | add paddrBase vaddrBase size prot =>
    obtain ⟨hwin, hstart, hstop, hpaddr⟩ := hpools
    have hwrites : WritesOf ops (addKind ops (paddrEnd paddrBase vaddrBase size) prot) s _ :=
      mmuAdd_writesOf hops hknown.large h.sound hwin hstart hstop hpaddr
    exact ⟨hwrites.sound hops, fun hpool => (hwrites.evolves hops).sanitizedRoot (h.root hpool),
      hwrites.sanitized_add hops hadds.1 hadds.2 h.sanitized⟩
  | modify vaddrBase size protSet protClr =>
    obtain ⟨hwin, hstart, hstop⟩ := hpools
    have hwrites : WritesOf ops (modKind ops protSet protClr .modify _ _) s _ :=
      mmuModifyOrDel_writesOf hops (fun _ => hkeeps.1) h.sound (.inr fun _ _ _ _ => rfl) hwin
        hstart hstop
    exact ⟨hwrites.sound hops, fun hpool => (hwrites.evolves hops).sanitizedRoot (h.root hpool),
      (hwrites.sanitized_modify hops (hwin.trans ops.info.window_le) hkeeps.2 h.sanitized).1⟩
  | del vaddrBase size =>
    obtain ⟨hwin, hstart, hstop, hroot⟩ := hpools
    have hroot' : SanitizedRoot ops s ∨ ∀ v, roundPageDown vaddrBase ≤ v →
        v < rangeEnd vaddrBase size → ops.pgentryPresent (entryAt ops s.mem .pml4 v) = 0#64 →
          MrType.del = .modify := by
      rcases hroot with hpool | hpresent
      · exact .inl (h.root hpool)
      · exact .inr fun v hge hlt habs => absurd habs (hpresent v hge hlt)
    have hwrites : WritesOf ops (modKind ops 0#64 0#64 .del _ _) s _ :=
      mmuModifyOrDel_writesOf hops (fun htype => (by cases htype)) h.sound hroot' hwin hstart hstop
    exact ⟨hwrites.sound hops, fun hpool => (hwrites.evolves hops).sanitizedRoot (h.root hpool),
      hwrites.sanitized_del hops h.sanitized⟩

theorem Built.ok (hknown : ops.Known) (h : Built ops (fun s c => c.InPools ops s ∧
    c.KeepsPages ops s ∧ c.AddsPages ops) s) : BuiltOk ops s := by
  have hops := hknown.lawful
  induction h with
  | ept _ hb =>
    exact ⟨createEpt_sound hops hb, fun _ => createEpt_sanitizedRoot hops hb,
      (createEpt_rootAbsent hops).sanitized⟩
  | @ppt s hpool hreq =>
    have habs : RootAbsent ops (pptGetPml4Page ops.info s) := by
      cases hknown with
      | ept _ _ _ hept => exact absurd (hept.symm.trans hpool) (by decide)
      | ppt info _ => exact pptGetPml4Page_rootAbsent info s
    exact ⟨habs.sound hreq, fun hept => absurd (hept.symm.trans hpool) (by decide), habs.sanitized⟩
  | call _ hc ih => exact ih.call hknown hc.1 hc.2.1 hc.2.2

/-- **L1TF.** In every table that the operations build with rights that keep its pages present,
an entry below the root that is reachable and not present holds the address of the sanitized
page. -/
theorem absent_entries_sanitized (hknown : ops.Known)
    (h : Built ops (fun s c => c.InPools ops s ∧ c.KeepsPages ops s ∧ c.AddsPages ops) s)
    {l : PageTableLevel} {a : ℕ} (hl : l ≠ .pml4)
    (hentry : TableEntryAt ops ops.info.pml4Base s.mem l a)
    (habs : ops.pgentryPresent (s.mem a) = 0#64) :
    s.mem a = BitVec.ofNat 64 ops.info.sanitizedPage := by
  have hok := h.ok hknown
  obtain ⟨v, hv, hlink, rfl⟩ := hentry.canonical hok.sound
  exact hok.sanitized l v hl hv hlink habs

/-- A 4-KByte page is mapped and removed again: its entry is sanitized. -/
theorem absent_entries_sanitized_uos :
    let ops := initEptMemOps uosLayout true true
    ((MmuCall.del 0x0 0x1000).run ops (onePage ops)).mem (ops.info.entryAddr .pt 0x0) =
      BitVec.ofNat 64 ops.info.sanitizedPage := by
  intro ops
  have hknown : ops.Known := .ept uosLayout true true rfl
  have hboot := beforeCreate_bootMem ops
  obtain ⟨hs, -, hleaf, -⟩ := onePage_spec
  have hadded : Built ops (fun s c => c.InPools ops s ∧ c.KeepsPages ops s ∧ c.AddsPages ops)
      (onePage ops) :=
    (Built.ept rfl hboot).call (c := .add 0x40000000 0x0 0x1000 (eptRwx ||| eptWb))
      ⟨⟨by decide, .inl rfl, .inl rfl, .inl rfl⟩, trivial, by decide, by decide⟩
  have hbuilt := hadded.call (c := .del 0x0 0x1000)
    ⟨⟨by decide, .inl rfl, .inl rfl, .inl rfl⟩, trivial, trivial⟩
  have hs' := (hbuilt.ok hknown).sound
  -- the page table stays linked, and the page is gone
  have hlink : Linked ops (onePage ops).mem .pt 0x0 := linked_of_leaf hleaf
  have hroot := (hadded.ok hknown).root rfl
  have hwin : rangeEnd 0x0 0x1000 ≤ uosLayout.window := by decide
  have hps : MrType.del = .modify → (0#64 : Word) &&& pagePs = 0#64 := fun _ => by decide
  have hlink' : Linked ops ((MmuCall.del 0x0 0x1000).run ops (onePage ops)).mem .pt 0x0 :=
    (mmuModifyOrDel_evolves hknown.lawful rfl hps hs hroot hwin).linked .pt 0x0 (by decide) hlink
  have hrange : Changeable ops 0x0 0x1000 := ⟨hwin, Or.inl rfl⟩
  have hgone : leaf ops ((MmuCall.del 0x0 0x1000).run ops (onePage ops)).mem 0x0 = _ :=
    mmuModifyOrDel_leaf hknown.lawful hs 0#64 (SanitizedRoot.walkable (fun _ => hroot) 0x0 0x1000)
      hrange hps (by decide) (show 0x0 < 2 ^ 48 by decide)
  rw [hleaf, ModPlan.target, Option.bind_some,
    ModPlan.newLeaf_of_absent ⟨by decide, by decide⟩ (by decide)] at hgone
  have habs : ops.pgentryPresent
      (entryAt ops ((MmuCall.del 0x0 0x1000).run ops (onePage ops)).mem .pt 0x0) = 0#64 := by
    by_contra hp
    have hleaf' := leaf_of_present hlink' (fun ht => ht.2 trivial) hp
    rw [hgone] at hleaf'
    cases hleaf'
  rw [entryAt] at habs
  exact absent_entries_sanitized hknown hbuilt (by decide) (.of_linked hs' (by decide) hlink') habs

/-- A page that may only be executed, where large pages are mapped without the execute right: the
entry of the page is not present and still holds its address. -/
theorem execute_only_page_leaves_address :
    ¬ ∀ ops : MemoryOps, ops.Known → ∀ s : PgMem,
      Built ops (fun s c => c.InPools ops s ∧ c.KeepsPages ops s) s →
      ∀ (l : PageTableLevel) (a : ℕ), l ≠ .pml4 → TableEntryAt ops ops.info.pml4Base s.mem l a →
        ops.pgentryPresent (s.mem a) = 0#64 →
          s.mem a = BitVec.ofNat 64 ops.info.sanitizedPage := by
  intro h
  set ops := initEptMemOps uosLayout true false
  have hknown : ops.Known := .ept uosLayout true false rfl
  have hboot := beforeCreate_bootMem ops
  have hbuilt : Built ops (fun s c => c.InPools ops s ∧ c.KeepsPages ops s) _ :=
    (Built.ept rfl hboot).call (c := .add 0x40000000 0x0 0x200000 eptExe)
      ⟨⟨by decide, .inl rfl, .inl rfl, .inl rfl⟩, trivial⟩
  have hmap : Mappable ops 0x40000000 0x0 0x200000 (createEpt ops (bootMem ops)) :=
    createEpt_mappable hknown.lawful hboot rfl (by decide)
  have hpost := hmap.spec eptExe hknown (createEpt_wellFormed hknown.lawful hboot) (by decide)
  set plan := addPlan ops 0x40000000 0x0 0x200000 eptExe (createEpt ops (bootMem ops))
  have hlarge : plan.LargeAt .pd 0x0 := by
    refine ⟨rfl, by decide, by decide, by decide, ?_⟩
    exact createEpt_not_linked (l := .pt) (v := 0x0) hknown.lawful (by decide) (by decide)
  have hsmall : ¬ plan.LargeAt .pdpt 0x0 := fun h => absurd h.2.2.1 (by decide)
  have hleaf : plan.pdpteLeaf eptExe 0x0 = _ :=
    AddPlan.pdpteLeaf_of_large_pd hknown.lawful hsmall hlarge
  have hend : walkEnd ops ((MmuCall.add 0x40000000 0x0 0x200000 eptExe).run ops
      (createEpt ops (bootMem ops))).mem 0x0 = _ :=
    (hpost.inside 0x0 (by decide) (by decide)).trans hleaf
  -- the walk ends at the entry of the page
  obtain ⟨l, hlink, hnt⟩ := exists_walkEnd ops ((MmuCall.add 0x40000000 0x0 0x200000 eptExe).run ops
    (createEpt ops (bootMem ops))).mem 0x0
  rw [walkEnd_of_entry hlink hnt] at hend
  obtain ⟨rfl, hentry⟩ := Leaf.mk.inj hend
  have hvalue : plan.ops.tweakExeRight eptExe ||| pagePs = pagePs := by decide
  rw [hvalue] at hentry
  have habs : ops.pgentryPresent (entryAt ops ((MmuCall.add 0x40000000 0x0 0x200000 eptExe).run ops
      (createEpt ops (bootMem ops))).mem .pd 0x0) = 0#64 := by
    rw [hentry]
    decide
  rw [entryAt] at hentry habs
  have hs' : Sound ops ((MmuCall.add 0x40000000 0x0 0x200000 eptExe).run ops
    (createEpt ops (bootMem ops))) := hpost.sound
  have haddr := h ops hknown _ hbuilt .pd _ (by decide) (.of_linked hs' (by decide) hlink) habs
  rw [hentry] at haddr
  exact absurd haddr (by decide)

end Acrn
