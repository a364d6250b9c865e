import Acrn.TablePool
import Acrn.Translate

/-!
# The extended page table of a VM

`ept.c` over `mmu_add` and `mmu_modify_or_del`, and the states an EPT can be in:
`create_vm` leaves an empty table, and from there any sequence of calls may
follow. The pool keeps its discipline in every one of these states.
-/

namespace Acrn

open PageTableLevel

/-- The snoop bit that `ept_add_mr` and `ept_modify_mr` add to cacheable mappings. -/
def snooped (prot : Word) : Word :=
  if prot &&& eptMtMask ≠ eptUncached then prot ||| eptSnoopCtrl else prot

/-- `ept_add_mr`. -/
def eptAddMr (ops : MemoryOps) (pml4Page hpa gpa size : ℕ) (protOrig : Word) (s : PgMem) : PgMem :=
  mmuAdd ops pml4Page hpa gpa size (snooped protOrig) s

/-- `ept_modify_mr`. -/
def eptModifyMr (ops : MemoryOps) (pml4Page gpa size : ℕ) (protSet protClr : Word)
    (s : PgMem) : PgMem :=
  mmuModifyOrDel ops pml4Page gpa size (snooped protSet) protClr .modify s

/-- `ept_del_mr`. -/
def eptDelMr (ops : MemoryOps) (pml4Page gpa size : ℕ) (s : PgMem) : PgMem :=
  mmuModifyOrDel ops pml4Page gpa size 0#64 0#64 .del s

/-- What `create_vm` does to the EPT: its root is sanitized. -/
def createEpt (ops : MemoryOps) (s : PgMem) : PgMem := sanitizePte ops ops.info.pml4Base s

/-- The memory before the VM is created: `init_paging` has sanitized
`sanitized_page`, and no table page of this VM was handed out. -/
structure BeforeCreate (ops : MemoryOps) (s : PgMem) : Prop where
  page : ∀ i < ptrsPerTable, s.mem (ops.info.sanitizedPage + 8 * i) = sanitizedEntry ops
  requests : s.requests = []

/-- The arrays of a VM with `CONFIG_UOS_RAM_SIZE` = 8 GByte and a low MMIO space
of 2 GByte, at one placement the linker could choose. -/
def uosLayout : PoolLayout where
  pml4Base := 0x1000000
  pdptBase := 0x1001000
  pdBase := 0x1002000
  ptBase := 0x1010000
  window := 0x280000000
  ptPool := true
  sanitizedPage := 0x800000
  window_le := by decide
  base_dvd := by intro l; cases l <;> decide
  base_le := by intro l; cases l <;> decide
  disjoint := by intro l l' h; cases l <;> cases l' <;> first | exact absurd rfl h | decide
  sanitized_dvd := by decide
  sanitized_le := by decide
  sanitized_disjoint := by intro l; cases l <;> decide

/-- A memory in which every word is a sanitized entry. -/
def bootMem (ops : MemoryOps) : PgMem := ⟨fun _ => sanitizedEntry ops, []⟩

theorem beforeCreate_bootMem (ops : MemoryOps) : BeforeCreate ops (bootMem ops) :=
  ⟨fun _ _ => rfl, rfl⟩

/-! ## Calls and runs -/

/-- A call of one of the three functions. -/
inductive EptCall where
  | add (hpa gpa size : ℕ) (prot : Word)
  | modify (gpa size : ℕ) (protSet protClr : Word)
  | del (gpa size : ℕ)

namespace EptCall

def run (ops : MemoryOps) : EptCall → PgMem → PgMem
  | add hpa gpa size prot => eptAddMr ops ops.info.pml4Base hpa gpa size prot
  | modify gpa size protSet protClr => eptModifyMr ops ops.info.pml4Base gpa size protSet protClr
  | del gpa size => eptDelMr ops ops.info.pml4Base gpa size

/-- The end of the range of the call, rounded to pages. -/
def stop : EptCall → ℕ
  | add _ gpa size _ => rangeEnd gpa size
  | modify gpa size _ _ => rangeEnd gpa size
  | del gpa size => rangeEnd gpa size

/-- The range lies inside the window of the pools, and a modification clears
access rights and memory types only, never `PAGE_PS`. -/
def Admissible (ops : MemoryOps) (c : EptCall) : Prop :=
  c.stop ≤ ops.info.window ∧ match c with
    | modify _ _ _ protClr => protClr &&& pagePs = 0#64
    | _ => True

end EptCall

/-- The states of a VM's EPT: any run of admissible calls from the empty one. -/
inductive EptReachable (ops : MemoryOps) : PgMem → Prop where
  | init {s : PgMem} : BeforeCreate ops s → EptReachable ops (createEpt ops s)
  | step {s : PgMem} {c : EptCall} : EptReachable ops s → c.Admissible ops →
      EptReachable ops (c.run ops s)

variable {ops : MemoryOps} {s : PgMem}

/-! ## The empty table -/

/-- No entry of the root is present. -/
def RootAbsent (ops : MemoryOps) (s : PgMem) : Prop :=
  ∀ v < 2 ^ 48, ops.pgentryPresent (entryAt ops s.mem .pml4 v) = 0#64

/-- With an empty root no table below it is reached. -/
theorem RootAbsent.not_linked (h : RootAbsent ops s) {l : PageTableLevel} (hl : l ≠ .pml4) {v : ℕ}
    (hv : v < 2 ^ 48) : ¬ Linked ops s.mem l v := by
  intro hlink
  have hroot : IsTable ops .pml4 (entryAt ops s.mem .pml4 v) := by
    refine hlink.isTable_above ?_
    cases l
    case pml4 => exact absurd rfl hl
    all_goals decide
  exact hroot.1 (h v hv)

/-- An EPT with an empty root is sound, as long as no page has been requested. -/
theorem RootAbsent.sound (h : RootAbsent ops s) (hr : s.requests = []) : Sound ops s := by
  constructor
  · intro l v _ hv hlink
    exact absurd hlink (h.not_linked (next_ne_pml4 l) hv)
  · intro r hmem
    rw [hr] at hmem
    cases hmem

/-- An absent entry in the root maps nothing. -/
theorem leaf_of_root_absent {m : ℕ → Word} {v : ℕ}
    (h : ops.pgentryPresent (entryAt ops m .pml4 v) = 0#64) : leaf ops m v = none := by
  rw [leaf, leafFrom_eq, if_pos h]

/-- An EPT with an empty root maps nothing. -/
theorem RootAbsent.leaf_eq (h : RootAbsent ops s) {v : ℕ} (hv : v < 2 ^ 48) :
    leaf ops s.mem v = none := leaf_of_root_absent (h v hv)

theorem createEpt_entry (v : ℕ) (hv : v < 2 ^ 48) :
    entryAt ops (createEpt ops s).mem .pml4 v = sanitizedEntry ops := by
  rw [entryAt, ← root_slot hv]
  exact fillPage_mem_slot _ _ _ (index_lt _ _)

/-- `create_ept` leaves an empty root. -/
theorem createEpt_rootAbsent (hops : ops.Lawful) : RootAbsent ops (createEpt ops s) := by
  intro v hv
  rw [createEpt_entry v hv]
  exact sanitizedEntry_absent hops

theorem createEpt_not_linked (hops : ops.Lawful) {l : PageTableLevel} (hl : l ≠ .pml4) {v : ℕ}
    (hv : v < 2 ^ 48) : ¬ Linked ops (createEpt ops s).mem l v :=
  (createEpt_rootAbsent hops).not_linked hl hv

/-- A created EPT is sound. -/
theorem createEpt_sound (hops : ops.Lawful) (h : BeforeCreate ops s) :
    Sound ops (createEpt ops s) := by
  refine (createEpt_rootAbsent hops).sound ?_
  rw [createEpt, sanitizePte, fillPage_requests, h.requests]

theorem createEpt_leaf (hops : ops.Lawful) {v : ℕ} (hv : v < 2 ^ 48) :
    leaf ops (createEpt ops s).mem v = none := (createEpt_rootAbsent hops).leaf_eq hv

/-- Nothing is mapped in the empty table. -/
theorem createEpt_lookup (hops : ops.Lawful) (h : BeforeCreate ops s) (v : ℕ) :
    lookupAddress ops ops.info.pml4Base v (createEpt ops s) = none := by
  have hv : v % 2 ^ 48 < 2 ^ 48 := Nat.mod_lt v (Nat.two_pow_pos 48)
  rw [← lookupAddress_mod, lookupAddress_eq_none (createEpt_sound hops h) hv]
  exact createEpt_leaf hops hv

theorem pageVaddr_sanitizedEntry : pageVaddr (sanitizedEntry ops) = ops.info.sanitizedPage := by
  have hle := ops.info.sanitized_le
  have hmask : (0#64 : Word) &&& pfnMask = 0#64 := BitVec.zero_and
  have := toNat_ofNat_or_and_pfnMask ops.info.sanitized_dvd
    (by simp only [pageSize] at hle; omega) hmask
  rwa [BitVec.or_zero] at this

/-- A created EPT has sanitised entries in its root. -/
theorem createEpt_sanitizedRoot (hops : ops.Lawful) (h : BeforeCreate ops s) :
    SanitizedRoot ops (createEpt ops s) := by
  constructor
  · intro v hv _
    rw [createEpt_entry v (lt_of_lt_of_le hv ops.info.window_le), pageVaddr_sanitizedEntry]
  · intro i hi
    have hother : ∀ j < ptrsPerTable,
        ops.info.sanitizedPage + 8 * i ≠ ops.info.pml4Base + 8 * j := by
      intro j hj
      have hd := ops.info.sanitized_disjoint .pml4
      simp only [PgtablePagesInfo.base, PgtablePagesInfo.pageNum, pageSize, ptrsPerTable] at *
      omega
    rw [createEpt, sanitizePte, fillPage_mem_other _ _ _ hother, h.page i hi]
    exact sanitizedEntry_absent hops

/-! ## Every reachable table

A run is a sequence of writes, so what writes keep is kept by runs, and the state after `create_vm`
has it. -/

/-- A call writes leaves and new tables only. -/
theorem EptCall.writes (hops : ops.Lawful) (hpool : ops.info.ptPool = true) (hs : Sound ops s)
    (hroot : SanitizedRoot ops s) {c : EptCall} (hc : c.Admissible ops) :
    Writes ops s (c.run ops s) := by
  obtain ⟨hwin, hclr⟩ := hc
  cases c with
  | add hpa gpa size prot => exact mmuAdd_writes hops hpool hs hwin
  | modify gpa size protSet protClr =>
    exact mmuModifyOrDel_writes hops hpool (fun _ => hclr) hs hroot hwin
  | del gpa size => exact mmuModifyOrDel_writes hops hpool nofun hs hroot hwin

/-- Every admissible call on an EPT is one of the changes that keep it sound. -/
theorem EptCall.evolves (hops : ops.Lawful) (hpool : ops.info.ptPool = true) (hs : Sound ops s)
    (hroot : SanitizedRoot ops s) {c : EptCall} (hc : c.Admissible ops) :
    Evolves ops s (c.run ops s) := (EptCall.writes hops hpool hs hroot hc).evolves hops

/-- Every reachable EPT is sound and keeps its root sanitised. -/
theorem EptReachable.sound (hops : ops.Lawful) (hpool : ops.info.ptPool = true)
    (h : EptReachable ops s) : Sound ops s ∧ SanitizedRoot ops s := by
  induction h with
  | init hb => exact ⟨createEpt_sound hops hb, createEpt_sanitizedRoot hops hb⟩
  | step _ hc ih =>
    have hev := EptCall.evolves hops hpool ih.1 ih.2 hc
    exact ⟨hev.sound, hev.sanitizedRoot ih.2⟩

/-- **Pool discipline.** In every state of an EPT, each table page ever handed
out lay in its array and was referenced from no entry of the tree when it was
zeroed; each table entry of the tree references the page its address selects, no
two of them the same one, none of them the root; and no further call unlinks a
table. -/
theorem ept_pool_discipline (info : PoolLayout) (hpool : info.ptPool = true)
    (isEptForce4kIpage enforce4kIpage : Bool) {s : PgMem}
    (h : EptReachable (initEptMemOps info isEptForce4kIpage enforce4kIpage) s) :
    let ops := initEptMemOps info isEptForce4kIpage enforce4kIpage
    (∀ r ∈ s.requests, r.Fresh ops ∧ info.tablePage r.level r.gpa ≠ info.pml4Base) ∧
    (∀ l v, l ≠ .pt → v < 2 ^ 48 → Linked ops s.mem l.next v →
      v / l.size < info.pageNum l.next ∧
      pageVaddr (entryAt ops s.mem l v) = info.tablePage l v ∧
      info.tablePage l v ≠ info.pml4Base) ∧
    (∀ l v l' v', l ≠ .pt → l' ≠ .pt → v < 2 ^ 48 → v' < 2 ^ 48 →
      Linked ops s.mem l.next v → Linked ops s.mem l'.next v' →
      pageVaddr (entryAt ops s.mem l v) = pageVaddr (entryAt ops s.mem l' v') →
      l = l' ∧ v / l.size = v' / l'.size) ∧
    ∀ c : EptCall, c.Admissible ops → ∀ l v, v < 2 ^ 48 → Linked ops s.mem l v →
      Linked ops (c.run ops s).mem l v := by
  intro ops
  have hops : ops.Lawful := (MemoryOps.Known.ept info _ _ hpool).lawful
  obtain ⟨hs, hroot⟩ := EptReachable.sound hops hpool h
  have hne : ∀ l v, v / l.size < info.pageNum l.next → info.tablePage l v ≠ info.pml4Base := by
    intro l v hin he
    have hd := info.disjoint .pml4 l.next (next_ne_pml4 l).symm
    rw [show info.base .pml4 = info.pml4Base from rfl,
      show info.pageNum .pml4 = 1 from rfl] at hd
    simp only [PoolLayout.tablePage, pageSize] at hd he
    omega
  refine ⟨?_, ?_, ?_, ?_⟩
  · intro r hr
    have hfresh := hs.fresh r hr
    exact ⟨hfresh, hne _ _ hfresh.inArray⟩
  · intro l v hl hv hlink
    obtain ⟨hin, hpage⟩ := hs.table l v hl hv hlink
    exact ⟨hin, hpage, hne l v hin⟩
  · intro l v l' v' hl hl' hv hv' hlink hlink' he
    obtain ⟨hin, hpage⟩ := hs.table l v hl hv hlink
    obtain ⟨hin', hpage'⟩ := hs.table l' v' hl' hv' hlink'
    exact PoolLayout.tablePage_inj hl hl' hin hin' (by rw [← hpage, he, hpage'])
  · intro c hc l v hv hlink
    exact (EptCall.evolves hops hpool hs hroot hc).linked l v hv hlink

theorem ept_pool_discipline_uos :
    let ops := initEptMemOps uosLayout true true
    let call := EptCall.add 0x100000000 0x0 0x40201000 (eptRwx ||| eptWb)
    ∀ r ∈ (call.run ops (createEpt ops (bootMem ops))).requests,
      r.Fresh ops ∧ uosLayout.tablePage r.level r.gpa ≠ uosLayout.pml4Base :=
  (ept_pool_discipline uosLayout rfl true true
    ((EptReachable.init (beforeCreate_bootMem _)).step
      (c := .add 0x100000000 0x0 0x40201000 (eptRwx ||| eptWb)) ⟨by decide, trivial⟩)).1

end Acrn
