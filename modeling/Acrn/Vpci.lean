import Acrn.BarInit
import Acrn.Lib.Ownership

/-!
# Pass-through devices and the EPT over whole runs

All devices of a VM share one EPT. Each placement of a BAR — by `init_vdev_pt` or
by a guest write — takes the old pages of the BAR out of the EPT and puts the new
ones in, whoever was there before. So the MMIO window of the EPT is a division of
claims: a page belongs to the BAR that claimed it last.
-/

namespace Acrn

open BlockLoop BitField Ownership

/-- The part of a VM that the devices act on. -/
structure Vm (n : ℕ) where
  ept : PgMem
  dev : Fin n → PtDev

namespace Vm

variable {n : ℕ}

/-- A BAR of a VM, by device and index. -/
def bar (st : Vm n) (b : Fin n × ℕ) : PciBar := (st.dev b.1).vdev.bar b.2

/-- Device `d` and the EPT are replaced. -/
def set (st : Vm n) (d : Fin n) (dev : PtDev) (ept : PgMem) : Vm n :=
  ⟨ept, Function.update st.dev d dev⟩

/-- `init_vdev_pt` for device `d`. -/
def initVdev (ops : MemoryOps) (st : Vm n) (d : Fin n) : Vm n :=
  let (dev, ept) := initVdevPt ops (st.dev d) st.ept
  st.set d dev ept

/-- A guest write to BAR register `idx` of device `d`. -/
def writeVbar (ops : MemoryOps) (st : Vm n) (d : Fin n) (idx : ℕ) (val : Reg) : Vm n :=
  let (vdev, ept) := vdevPtWriteVbar ops idx val (st.dev d).vdev st.ept
  st.set d { st.dev d with vdev } ept

end Vm

/-- The runs of a VM: it is created with an EPT that maps nothing in the MMIO
window and with devices in zeroed memory, whose configured bases are page-aligned
addresses below 4 GByte; its devices are initialised, and the guest writes their
BARs, in any order. Every write meets `Ok`. -/
inductive VpciRun (ops : MemoryOps) (Ok : PciVdev → ℕ → Reg → Prop) {n : ℕ} : Vm n → Prop where
  | create {st : Vm n} : EptOk ops st.ept → (∀ v ∈ mmioWindow, gpa2hpa ops st.ept v = none) →
      (∀ d, (st.dev d).pdev.Conforms ∧ (st.dev d).vdev.Fresh 0) →
      (∀ d i, pageSize ∣ ((st.dev d).vdev.vbarBase i).toNat ∧
        ((st.dev d).vdev.vbarBase i).toNat < 2 ^ 32) →
      VpciRun ops Ok st
  | init {st : Vm n} (d : Fin n) : VpciRun ops Ok st → (st.dev d).vdev.Fresh 0 →
      VpciRun ops Ok (st.initVdev ops d)
  | write {st : Vm n} (d : Fin n) (idx : ℕ) (val : Reg) : VpciRun ops Ok st → idx < pciBarCount →
      Ok (st.dev d).vdev idx val → VpciRun ops Ok (st.writeVbar ops d idx val)

/-! ## Placing a BAR

A BAR that moves gives up its pages and claims others, also those that another BAR had. The map of
the EPT follows the claims, as the library on claims has it. -/

variable {ops : MemoryOps} {n : ℕ} {st st' : Vm n} {c : Claims (Fin n × ℕ) ℕ} {b : Fin n × ℕ}

/-- The EPT of a VM realizes the claims of its BARs. -/
structure Vm.Backed (ops : MemoryOps) (st : Vm n) (c : Claims (Fin n × ℕ) ℕ) : Prop where
  ept : EptOk ops st.ept
  sound : c.Sound
  part : ∀ b, c.part b = (st.bar b).pages
  map : ∀ v ∈ mmioWindow, gpa2hpa ops st.ept v = (c.owner v).map fun b => (st.bar b).hpaAt v

/-- From `st` to `st'` BAR `b` moved, and its pages in the EPT with it. -/
structure Vm.Moved (ops : MemoryOps) (b : Fin n × ℕ) (st st' : Vm n) : Prop where
  other : ∀ b', b' ≠ b → (st'.bar b').base = (st.bar b').base ∧
    (st'.bar b').size = (st.bar b').size ∧ (st'.bar b').baseHpa = (st.bar b').baseHpa
  fixed : ∀ d, (st'.dev d).pdev = (st.dev d).pdev ∧
    (st'.dev d).vdev.vbarBase = (st.dev d).vdev.vbarBase
  setUp : ∀ d, (st'.dev d).vdev.SetUp (st'.dev d).pdev
  old : (st.bar b).base ≠ 0#64 → (st.bar b).Fits
  ept : st'.ept = vdevPtMapMemVbar ops (st'.dev b.1).vdev b.2
    (vdevPtUnmapMemVbar ops (st.dev b.1).vdev b.2 st.ept)

/-- What the EPT is a map of: an interval array of pages with a window that holds
the MMIO range. -/
structure Serves (ops : MemoryOps) : Prop where
  known : ops.Known
  pool : ops.info.ptPool = true
  window : pciVbarTopLimit ≤ ops.info.window

theorem mmioWindow_lt {v : ℕ} (h : v ∈ mmioWindow) : v < 2 ^ 48 := lt_trans h.2 (by decide)

namespace Vm

/-- The pages of the others stay what they are. -/
theorem Moved.pages_other (h : Moved ops b st st') {b' : Fin n × ℕ} (hb : b' ≠ b) :
    (st'.bar b').pages = (st.bar b').pages ∧ (st'.bar b').hpaAt = (st.bar b').hpaAt := by
  obtain ⟨hbase, hsize, hhpa⟩ := h.other b' hb
  constructor
  · rw [PciBar.pages, PciBar.pages, hbase, hsize]
  · funext v
    rw [PciBar.hpaAt, PciBar.hpaAt, hbase, hhpa]

theorem Moved.new (h : Moved ops b st st') (b' : Fin n × ℕ) :
    (st'.bar b').base ≠ 0#64 → (st'.bar b').Fits := (h.setUp b'.1).fits b'.2

/-- The EPT after the move. -/
theorem Moved.ept_spec (hserves : Serves ops) (h : Moved ops b st st') (hept : EptOk ops st.ept) :
    EptOk ops st'.ept ∧ ∀ v < 2 ^ 48, gpa2hpa ops st'.ept v =
      if v ∈ (st'.bar b).pages then some ((st'.bar b).hpaAt v)
      else if v ∈ (st.bar b).pages then none else gpa2hpa ops st.ept v := by
  obtain ⟨hknown, hpool, hwin⟩ := hserves
  obtain ⟨hok, hmap⟩ := vdevPtUnmapMemVbar_spec hknown hpool hwin hept h.old
  obtain ⟨hok', hmap'⟩ := vdevPtMapMemVbar_spec hknown hpool hwin hok (h.new b)
  rw [h.ept]
  refine ⟨hok', fun v hv => (hmap' v hv).trans ?_⟩
  rw [hmap v hv]
  rfl

/-- **A placement is a move of the claims.** -/
theorem Backed.move (hserves : Serves ops) (h : Backed ops st c) (hm : Moved ops b st st') :
    Backed ops st' (c.move b (st'.bar b).pages) := by
  obtain ⟨hok, hmap⟩ := hm.ept_spec hserves h.ept
  refine ⟨hok, h.sound.move b _, ?_, ?_⟩
  · intro b'
    by_cases hb : b' = b
    · rw [hb, Claims.part_move_self]
    · rw [Claims.part_move_of_ne hb, h.part, (hm.pages_other hb).1]
  · intro v hv
    rw [hmap v (mmioWindow_lt hv)]
    by_cases hnew : v ∈ (st'.bar b).pages
    · rw [if_pos hnew, Claims.owner_move_of_mem hnew, Option.map_some]
    rw [if_neg hnew]
    by_cases hold : v ∈ (st.bar b).pages
    · rw [if_pos hold, Claims.owner_move_of_old hnew (by rwa [h.part]), Option.map_none]
    rw [if_neg hold, Claims.owner_move_of_not_mem hnew (by rwa [h.part]), h.map v hv]
    cases ho : c.owner v with
    | none => rw [Option.map_none, Option.map_none]
    | some b' =>
      -- the owner is another BAR, since `v` does not lie in the old part of this one
      have hb : b' ≠ b := by
        rintro rfl
        exact hold (h.part b' ▸ h.sound v b' ho)
      rw [Option.map_some, Option.map_some, (hm.pages_other hb).2]

/-! ## Steps of a run

Initialisation and guest writes come down to moves of a BAR. The run rule is stated for moves, so
that what is shown of a move holds in every state. -/

@[simp] theorem set_dev_self (st : Vm n) (d : Fin n) (dev : PtDev) (ept : PgMem) :
    (st.set d dev ept).dev d = dev := Function.update_self _ _ _

theorem set_dev_of_ne (st : Vm n) {d d' : Fin n} (h : d' ≠ d) (dev : PtDev) (ept : PgMem) :
    (st.set d dev ept).dev d' = st.dev d' := Function.update_of_ne h _ _

/-- A guest write moves one BAR, unless the register belongs to none. -/
theorem moved_write (ops : MemoryOps) (hset : ∀ d, (st.dev d).vdev.SetUp (st.dev d).pdev)
    (d : Fin n) {idx : ℕ}
    (val : Reg) (htype : ((st.dev d).vdev.bar idx).type ≠ .none) :
    Moved ops (d, (st.dev d).vdev.updateIdx idx) st (st.writeVbar ops d idx val) := by
  have hmem := (hset d).isMem_updateIdx htype
  obtain ⟨hsame, -⟩ := (hset d).write val rfl hmem
  have hw : st.writeVbar ops d idx val =
      st.set d ⟨(st.dev d).pdev, pciVdevWriteBar (st.dev d).vdev idx val⟩
        (vdevPtMapMemVbar ops (pciVdevWriteBar (st.dev d).vdev idx val)
          ((st.dev d).vdev.updateIdx idx)
          (vdevPtUnmapMemVbar ops (st.dev d).vdev ((st.dev d).vdev.updateIdx idx) st.ept)) := by
    rw [writeVbar, vdevPtWriteVbar, if_neg htype]
  rw [hw]
  refine ⟨?_, ?_, ?_, (hset d).fits _, ?_⟩
  · rintro ⟨d', i⟩ hb
    by_cases hd : d' = d
    · subst hd
      have hi : i ≠ (st.dev d').vdev.updateIdx idx := fun h => hb (by rw [h])
      rw [bar, set_dev_self, hsame.other i hi]
      exact ⟨rfl, rfl, rfl⟩
    · rw [bar, set_dev_of_ne st hd]
      exact ⟨rfl, rfl, rfl⟩
  · intro d'
    by_cases hd : d' = d
    · subst hd
      rw [set_dev_self]
      exact ⟨rfl, rfl⟩
    · rw [set_dev_of_ne st hd]
      exact ⟨rfl, rfl⟩
  · intro d'
    by_cases hd : d' = d
    · subst hd
      rw [set_dev_self]
      exact (hset d').sameBut hsame hmem
    · rw [set_dev_of_ne st hd]
      exact hset d'
  · rw [set_dev_self]
    rfl

/-- A register without a BAR ignores the write. -/
theorem writeVbar_none {d : Fin n} {idx : ℕ} (val : Reg)
    (htype : ((st.dev d).vdev.bar idx).type = .none) : st.writeVbar ops d idx val = st := by
  rw [writeVbar, vdevPtWriteVbar, if_pos htype]
  show Vm.mk st.ept (Function.update st.dev d (st.dev d)) = st
  rw [Function.update_eq_self]

/-- An iteration of `init_vdev_pt` moves one BAR. -/
theorem moved_init {d : Fin n} {idx : ℕ} {dev dev' : PtDev} {ept ept' : PgMem}
    (hset : ∀ d', d' ≠ d → (st.dev d').vdev.SetUp (st.dev d').pdev)
    (h : InitStep ops idx dev dev' ept ept') :
    Moved ops (d, idx) (st.set d dev ept) (st.set d dev' ept') := by
  refine ⟨?_, ?_, ?_, ?_, ?_⟩
  · rintro ⟨d', i⟩ hb
    by_cases hd : d' = d
    · subst hd
      have hi : i ≠ idx := fun h => hb (by rw [h])
      rw [bar, bar, set_dev_self, set_dev_self]
      exact h.other i hi
    · rw [bar, bar, set_dev_of_ne st hd, set_dev_of_ne st hd]
      exact ⟨rfl, rfl, rfl⟩
  · intro d'
    by_cases hd : d' = d
    · subst hd
      rw [set_dev_self, set_dev_self]
      exact ⟨h.pdev, h.vbarBase⟩
    · rw [set_dev_of_ne st hd, set_dev_of_ne st hd]
      exact ⟨rfl, rfl⟩
  · intro d'
    by_cases hd : d' = d
    · subst hd
      rw [set_dev_self, h.pdev]
      exact h.setUp
    · rw [set_dev_of_ne st hd]
      exact hset d' hd
  · intro hbase
    rw [bar, set_dev_self] at hbase
    exact absurd h.old hbase
  · have hold : ¬ (dev.vdev.bar idx).base ≠ 0#64 := not_not.mpr h.old
    show ept' = vdevPtMapMemVbar ops ((st.set d dev' ept').dev d).vdev idx
      (vdevPtUnmapMemVbar ops ((st.set d dev ept).dev d).vdev idx ept)
    rw [set_dev_self, set_dev_self, vdevPtUnmapMemVbar, if_neg hold]
    exact h.ept

/-- What moving a BAR to an aligned base below 4 GByte keeps, `init_vdev_pt` keeps. -/
theorem initVdev_rule {P : Vm n → Prop} {d : Fin n}
    (hset : ∀ d', d' ≠ d → (st.dev d').vdev.SetUp (st.dev d').pdev)
    (hconf : (st.dev d).pdev.Conforms) (hfresh : (st.dev d).vdev.Fresh 0)
    (hcfg : ∀ i, pageSize ∣ ((st.dev d).vdev.vbarBase i).toNat ∧
      ((st.dev d).vdev.vbarBase i).toNat < 2 ^ 32)
    (hstep : ∀ i st' st'', Moved ops (d, i) st' st'' → (st'.bar (d, i)).base = 0#64 →
      ((st''.bar (d, i)).base ≠ 0#64 →
        pageSize ∣ (st''.bar (d, i)).base.toNat ∧ (st''.bar (d, i)).base.toNat < 2 ^ 32) →
      P st' → P st'') (h : P st) : P (st.initVdev ops d) := by
  have hself : st.set d (st.dev d) st.ept = st := by
    rw [Vm.set, Function.update_eq_self]
  refine (initVdevPt_rule
    (fun dev ept => dev.vdev.vbarBase = (st.dev d).vdev.vbarBase ∧ P (st.set d dev ept)) ?_
    hconf hfresh ⟨rfl, by rwa [hself]⟩).2
  · rintro idx dev dev' ept ept' hs ⟨hvb, hP⟩
    refine ⟨hs.vbarBase.trans hvb, hstep idx _ _ (moved_init hset hs) ?_ ?_ hP⟩
    · rw [bar, set_dev_self]
      exact hs.old
    intro hbase
    rw [bar, set_dev_self] at hbase ⊢
    obtain ⟨hle, hdvd⟩ := hs.base hbase
    rw [hvb] at hle hdvd
    exact ⟨hdvd (hcfg idx).1, hle.trans_lt (hcfg idx).2⟩

/-- What holds of the devices in every state. -/
structure Inv (st : Vm n) : Prop where
  conf : ∀ d, (st.dev d).pdev.Conforms
  setUp : ∀ d, (st.dev d).vdev.SetUp (st.dev d).pdev
  cfg : ∀ d i, pageSize ∣ ((st.dev d).vdev.vbarBase i).toNat ∧
    ((st.dev d).vdev.vbarBase i).toNat < 2 ^ 32

/-- The physical devices stay as they are. -/
theorem writeVbar_pdev (st : Vm n) (d : Fin n) (idx : ℕ) (val : Reg) (d' : Fin n) :
    ((st.writeVbar ops d idx val).dev d').pdev = (st.dev d').pdev := by
  rw [writeVbar]
  by_cases hd : d' = d
  · subst hd
    rw [set_dev_self]
  · rw [set_dev_of_ne st hd]

theorem initVdev_pdev (hinv : st.Inv) {d : Fin n} (hfresh : (st.dev d).vdev.Fresh 0) (d' : Fin n) :
    ((st.initVdev ops d).dev d').pdev = (st.dev d').pdev :=
  initVdev_rule (P := fun st' => (st'.dev d').pdev = (st.dev d').pdev) (fun d _ => hinv.setUp d)
    (hinv.conf d) hfresh (hinv.cfg d) (fun _ _ _ hm _ _ h => (hm.fixed d').1.trans h) rfl

theorem Inv.moved (h : st.Inv) (hm : Moved ops b st st') : st'.Inv := by
  refine ⟨fun d => ?_, hm.setUp, fun d i => ?_⟩
  · rw [(hm.fixed d).1]
    exact h.conf d
  · rw [(hm.fixed d).2]
    exact h.cfg d i

/-- Where the base of a BAR that moved comes from: the configuration, or a write. -/
def Source (Ok : PciVdev → ℕ → Reg → Prop) (b : Fin n × ℕ) (st st' : Vm n) : Prop :=
  (st'.bar b).base ≠ 0#64 →
    (pageSize ∣ (st'.bar b).base.toNat ∧ (st'.bar b).base.toNat < 2 ^ 32) ∨
    ∃ idx val, (st.dev b.1).vdev.updateIdx idx = b.2 ∧ Ok (st.dev b.1).vdev idx val ∧
      (st'.bar b).base.toNat = (st.dev b.1).vdev.requested idx val ∧
      (st'.bar b).size = (st.bar b).size ∧
      ((st.bar b).type = .mem64 →
        (pciVdevWriteBar (st.dev b.1).vdev idx val).cfgdata (b.2 + 5) ≠ ~~~0#32)

/-- What every move of a BAR keeps, `init_vdev_pt` keeps. -/
theorem Inv.initVdev {Ok : PciVdev → ℕ → Reg → Prop} {P : Vm n → Prop}
    (hmove : ∀ b (st st' : Vm n), Moved ops b st st' → Source Ok b st st' → P st → P st')
    (hinv : st.Inv) (hP : P st) {d : Fin n} (hfresh : (st.dev d).vdev.Fresh 0) :
    (st.initVdev ops d).Inv ∧ P (st.initVdev ops d) := by
  refine initVdev_rule (P := fun st => st.Inv ∧ P st) (fun d' _ => hinv.setUp d') (hinv.conf d)
    hfresh (hinv.cfg d) ?_ ⟨hinv, hP⟩
  rintro i st' st'' hm - hbase ⟨hinv', hP'⟩
  exact ⟨hinv'.moved hm, hmove _ _ _ hm (fun hne => Or.inl (hbase hne)) hP'⟩

/-- What every move of a BAR keeps, a guest write keeps. -/
theorem Inv.writeVbar {Ok : PciVdev → ℕ → Reg → Prop} {P : Vm n → Prop}
    (hmove : ∀ b (st st' : Vm n), Moved ops b st st' → Source Ok b st st' → P st → P st')
    (hinv : st.Inv) (hP : P st) {d : Fin n} {idx : ℕ} {val : Reg}
    (hok : Ok (st.dev d).vdev idx val) :
    (st.writeVbar ops d idx val).Inv ∧ P (st.writeVbar ops d idx val) := by
  by_cases htype : ((st.dev d).vdev.bar idx).type = .none
  · rw [writeVbar_none val htype]
    exact ⟨hinv, hP⟩
  · have hm := moved_write ops hinv.setUp d val htype
    refine ⟨hinv.moved hm, hmove _ _ _ hm (fun hne => ?_) hP⟩
    obtain ⟨hsame, hbase⟩ :=
      (hinv.setUp d).write val rfl ((hinv.setUp d).isMem_updateIdx htype)
    have hbar : (st.writeVbar ops d idx val).bar (d, (st.dev d).vdev.updateIdx idx) =
        (pciVdevWriteBar (st.dev d).vdev idx val).bar ((st.dev d).vdev.updateIdx idx) := by
      rw [Vm.writeVbar, vdevPtWriteVbar, if_neg htype, Vm.bar, set_dev_self]
    rw [hbar] at hne ⊢
    obtain ⟨hreq, hall⟩ := hbase hne
    exact Or.inr ⟨idx, val, rfl, hok, hreq, by rw [hsame.eq]; rfl, hall⟩

theorem bar_base_of_fresh (hfresh : ∀ d, (st.dev d).vdev.Fresh 0) (b : Fin n × ℕ) :
    (st.bar b).base = 0#64 := by
  rw [Vm.bar, hfresh b.1 b.2 (Nat.zero_le _)]
  rfl

/-- In a new VM nothing is claimed. -/
theorem backed_of_fresh (hept : EptOk ops st.ept)
    (hfree : ∀ v ∈ mmioWindow, gpa2hpa ops st.ept v = none)
    (hfresh : ∀ d, (st.dev d).vdev.Fresh 0) : st.Backed ops Claims.empty := by
  refine ⟨hept, Claims.sound_empty, fun b => ?_, fun v hv => hfree v hv⟩
  exact (Set.eq_empty_of_forall_notMem fun v hv => hv.1 (bar_base_of_fresh hfresh b)).symm

/-- A guest write maps the pages that its BAR has afterwards. -/
theorem writeVbar_mapped (hserves : Serves ops) (hinv : st.Inv) (hept : EptOk ops st.ept)
    (d : Fin n) (idx : ℕ) (val : Reg) (htype : ((st.dev d).vdev.bar idx).type ≠ .none) {v : ℕ}
    (hv : v ∈ ((st.writeVbar ops d idx val).bar (d, (st.dev d).vdev.updateIdx idx)).pages) :
    gpa2hpa ops (st.writeVbar ops d idx val).ept v =
      some (((st.writeVbar ops d idx val).bar (d, (st.dev d).vdev.updateIdx idx)).hpaAt v) := by
  have hm := moved_write ops hinv.setUp d val htype
  have hlt := mmioWindow_lt (PciBar.pages_subset (hm.new _) hv)
  exact ((hm.ept_spec hserves hept).2 v hlt).trans (if_pos hv)

end Vm

/-- **The run rule**: what holds of a new VM and survives every move of a BAR holds
in every state. -/
theorem VpciRun.rule {Ok : PciVdev → ℕ → Reg → Prop} (P : Vm n → Prop)
    (hcreate : ∀ st : Vm n, EptOk ops st.ept → (∀ v ∈ mmioWindow, gpa2hpa ops st.ept v = none) →
      (∀ d, (st.dev d).vdev.Fresh 0) → P st)
    (hmove : ∀ b (st st' : Vm n), Vm.Moved ops b st st' → Vm.Source Ok b st st' → P st → P st')
    (h : VpciRun ops Ok st) : st.Inv ∧ P st := by
  induction h with
  | create hept hfree hdev hcfg =>
    exact ⟨⟨fun d => (hdev d).1, fun d => setUp_of_fresh (hdev d).2, hcfg⟩,
      hcreate _ hept hfree fun d => (hdev d).2⟩
  | init d _ hfresh ih => exact ih.1.initVdev hmove ih.2 hfresh
  | write d idx val _ _ hok ih => exact ih.1.writeVbar hmove ih.2 hok

/-- In every state the EPT realizes some claims of the BARs. -/
theorem VpciRun.backed {Ok : PciVdev → ℕ → Reg → Prop} (hserves : Serves ops)
    (h : VpciRun ops Ok st) : st.Inv ∧ ∃ c, st.Backed ops c := by
  refine h.rule (fun st => ∃ c, st.Backed ops c) ?_ ?_
  · intro st hept hfree hfresh
    exact ⟨_, Vm.backed_of_fresh hept hfree hfresh⟩
  · rintro b st st' hm - ⟨c, hc⟩
    exact ⟨_, hc.move hserves hm⟩

theorem VpciRun.inv {Ok : PciVdev → ℕ → Reg → Prop} (h : VpciRun ops Ok st) : st.Inv :=
  (h.rule (fun _ => True) (fun _ _ _ _ => trivial) fun _ _ _ _ _ _ => trivial).1

/-- A guest write maps the pages that its BAR has afterwards. -/
theorem VpciRun.write_mapped {Ok : PciVdev → ℕ → Reg → Prop} (hserves : Serves ops)
    (h : VpciRun ops Ok st) (d : Fin n) (idx : ℕ) (val : Reg)
    (htype : ((st.dev d).vdev.bar idx).type ≠ .none) {v : ℕ}
    (hv : v ∈ ((st.writeVbar ops d idx val).bar (d, (st.dev d).vdev.updateIdx idx)).pages) :
    gpa2hpa ops (st.writeVbar ops d idx val).ept v =
      some (((st.writeVbar ops d idx val).bar (d, (st.dev d).vdev.updateIdx idx)).hpaAt v) := by
  obtain ⟨hinv, c, hc⟩ := h.backed hserves
  exact Vm.writeVbar_mapped hserves hinv hc.ept d idx val htype hv

/-! ## Isolation

A BAR of less than a page is backed by a whole page of the physical side. At an aligned address
that page is its own, and at an unaligned one it takes the next page as well. -/

/-- A BAR is mapped where it lies: no valid range wraps around when it has pages. -/
theorem PciBar.Fits.no_wrap {bar : PciBar} (h : bar.Fits) {v : ℕ} (hv : v ∈ bar.pages) :
    bar.base.toNat + bar.size.toNat ≤ pciVbarTopLimit := by
  have hvalid := (vbarBaseIsValid_iff.mp h.valid).2
  have hhpa := h.hpa
  have hend := h.rangeEnd_le
  obtain ⟨-, hge, hlt⟩ := hv
  have hb := bar.base.isLt
  simp only [roundPageDown, blockStart, pciVbarTopLimit] at *
  omega

/-- The address that the write requests is page aligned, if it lies in the MMIO
window. -/
def PciVdev.Aligned (vdev : PciVdev) (idx : ℕ) (val : Reg) : Prop :=
  pciVbarBaseLimit ≤ vdev.requested idx val →
    vdev.requested idx val + (vdev.bar (vdev.updateIdx idx)).size.toNat ≤ pciVbarTopLimit →
    pageSize ∣ vdev.requested idx val

/-- An address of an aligned BAR is backed by a page of the physical BAR. -/
theorem PciPdev.MemBar.page_of_offset {p : PciPdev} {idx a k : ℕ} (h : p.MemBar idx a k)
    {bar : PciBar} (hhpa : bar.baseHpa.toNat = a) (hsize : bar.size.toNat = max (2 ^ k) pageSize)
    (hdvd : pageSize ∣ bar.base.toNat) (hwrap : bar.base.toNat + bar.size.toNat ≤ pciVbarTopLimit)
    {v : ℕ} (hge : roundPageDown bar.base.toNat ≤ v)
    (hlt : v < rangeEnd bar.base.toNat bar.size.toNat) :
    ∃ x, a ≤ x ∧ x < a + 2 ^ k ∧ x / pageSize = bar.hpaAt v / pageSize := by
  have hbase : roundPageDown bar.base.toNat = bar.base.toNat := blockStart_of_dvd hdvd
  rw [PciBar.hpaAt, hhpa, hbase]
  rw [hbase] at hge
  have haligned := h.aligned
  rcases Nat.lt_or_ge k 12 with hk | hk
  · -- a small BAR lies within one page
    have hle : 2 ^ k ≤ pageSize :=
      show 2 ^ k ≤ 2 ^ 12 from Nat.pow_le_pow_right (by decide) (Nat.le_of_lt hk)
    rw [Nat.max_eq_right hle] at hsize
    have hpos := Nat.two_pow_pos k
    refine ⟨a, le_rfl, by omega, ?_⟩
    simp only [rangeEnd, roundPageUp, roundPageDown, blockStart, pciVbarTopLimit, pageSize] at *
    omega
  · have hle : pageSize ≤ 2 ^ k := show 2 ^ 12 ≤ 2 ^ k from Nat.pow_le_pow_right (by decide) hk
    rw [Nat.max_eq_left hle] at hsize
    have hpage : pageSize ∣ 2 ^ k := pow_dvd_pow 2 hk
    have ha : roundPageDown a = a := blockStart_of_dvd (hpage.trans haligned)
    rw [ha]
    refine ⟨_, Nat.le_add_right _ _, ?_, rfl⟩
    rw [← hsize]
    rw [← hsize] at hpage
    simp only [rangeEnd, roundPageUp, blockStart, pciVbarTopLimit, pageSize] at *
    omega

namespace Vm

/-- No BAR with a range in the MMIO window lies at an unaligned address. -/
def AlignedBars (st : Vm n) : Prop := ∀ b, (st.bar b).base ≠ 0#64 →
  (st.bar b).base.toNat + (st.bar b).size.toNat ≤ pciVbarTopLimit →
  pageSize ∣ (st.bar b).base.toNat

theorem alignedBars_of_fresh (hfresh : ∀ d, (st.dev d).vdev.Fresh 0) : st.AlignedBars :=
  fun b hbase => absurd (bar_base_of_fresh hfresh b) hbase

theorem AlignedBars.move (h : st.AlignedBars) (hm : Moved ops b st st')
    (hsource : Source PciVdev.Aligned b st st') : st'.AlignedBars := by
  intro b' hbase hle
  by_cases hb : b' = b
  · subst hb
    rcases hsource hbase with ⟨hdvd, -⟩ | ⟨idx, val, hidx, hok, hreq, hsize, -⟩
    · exact hdvd
    · have hvalid := (vbarBaseIsValid_iff.mp (hm.new b' hbase).valid).1
      rw [hreq] at hvalid hle ⊢
      refine hok hvalid ?_
      rw [hidx, show (st.dev b'.1).vdev.bar b'.2 = st.bar b' from rfl, ← hsize]
      exact hle
  · obtain ⟨hbase', hsize, -⟩ := hm.other b' hb
    rw [hbase'] at hbase hle ⊢
    rw [hsize] at hle
    exact h b' hbase hle

/-- The host address lies in a page of a memory BAR of one of the devices. -/
def InDeviceBar (st : Vm n) (hpa : ℕ) : Prop :=
  ∃ d idx a k, (st.dev d).pdev.MemBar idx a k ∧
    ∃ x, a ≤ x ∧ x < a + 2 ^ k ∧ x / pageSize = hpa / pageSize

/-- What an aligned BAR maps belongs to the physical one. -/
theorem Backed.inDeviceBar (h : Backed ops st c) (hinv : st.Inv) (haligned : st.AlignedBars) {v : ℕ}
    (hv : v ∈ mmioWindow) {hpa : ℕ} (hmap : gpa2hpa ops st.ept v = some hpa) :
    st.InDeviceBar hpa := by
  rw [h.map v hv, Option.map_eq_some_iff] at hmap
  obtain ⟨⟨d, idx⟩, howner, rfl⟩ := hmap
  have hpages : v ∈ (st.bar (d, idx)).pages := by
    rw [← h.part]
    exact h.sound v _ howner
  obtain ⟨hbase, hge, hlt⟩ := hpages
  obtain ⟨hmem, -⟩ := (hinv.setUp d).base idx hbase
  obtain ⟨a, k, hbar, -, hsize, hhpa⟩ := (hinv.setUp d).mem idx hmem
  have hwrap := ((hinv.setUp d).fits idx hbase).no_wrap ⟨hbase, hge, hlt⟩
  exact ⟨d, idx, a, k, hbar, hbar.page_of_offset hhpa hsize (haligned _ hbase hwrap) hwrap hge hlt⟩

end Vm

/-- **Isolation.** When no BAR is placed at an unaligned address, every address of
the MMIO window that the guest can reach is backed by a page of a memory BAR of one
of its own devices. -/
theorem vbar_isolation (hserves : Serves ops) (h : VpciRun ops PciVdev.Aligned st) :
    ∀ v ∈ mmioWindow, ∀ hpa, gpa2hpa ops st.ept v = some hpa →
      ∃ d idx a k, (st.dev d).pdev.MemBar idx a k ∧
        ∃ x, a ≤ x ∧ x < a + 2 ^ k ∧ x / pageSize = hpa / pageSize := by
  have haligned := (h.rule (fun st => st.AlignedBars)
    (fun _ _ _ hfresh => Vm.alignedBars_of_fresh hfresh)
    fun _ _ _ hm hsource hP => hP.move hm hsource).2
  obtain ⟨hinv, c, hc⟩ := h.backed hserves
  intro v hv hpa hmap
  exact hc.inDeviceBar hinv haligned hv hmap

/-- A device with one BAR of 256 bytes at `addr`, and its virtual side in zeroed
memory. -/
def smallBarDev (addr : Reg) : PtDev where
  pdev := ⟨fun i => if i = 4 then addr else 0#32, fun i => if i = 4 then 0xFFFFFF00#32 else 0#32⟩
  vdev := ⟨fun _ => 0#32, fun _ => PciBar.initial, fun _ => 0#64⟩

theorem smallBarDev_conforms {addr : Reg} (h : addr = 0xF0000000#32 ∨ addr = 0xF0001000#32) :
    (smallBarDev addr).pdev.Conforms := by
  have hmem : ∃ a, (smallBarDev addr).pdev.MemBar 0 a 8 := by
    rcases h with rfl | rfl
    · exact ⟨0xF0000000, by decide, by decide, by decide, by decide, by decide, by decide,
        by decide⟩
    · exact ⟨0xF0001000, by decide, by decide, by decide, by decide, by decide, by decide,
        by decide⟩
  have hnone : ∀ idx, idx ≠ 0 → (smallBarDev addr).pdev.barAddress idx = 0#64 := by
    intro idx hidx
    have hreg : ∀ i, i ≠ 0 → (smallBarDev addr).pdev.barReg i = 0#32 := fun i hi =>
      if_neg (by omega)
    rw [PciPdev.barAddress, PciPdev.barType, hreg _ hidx, hreg _ (Nat.succ_ne_zero idx)]
    decide
  refine ⟨?_, ?_⟩
  · intro idx _ _ _ haddr
    obtain rfl : idx = 0 := by_contra fun hne => haddr (hnone idx hne)
    obtain ⟨a, ha⟩ := hmem
    exact ⟨a, 8, ha⟩
  · intro idx _ _ haddr
    obtain rfl : idx = 0 := by_contra fun hne => haddr (hnone idx hne)
    decide

/-- Its only memory BAR. -/
theorem smallBarDev_memBar {idx a k : ℕ} (h : (smallBarDev 0xF0000000#32).pdev.MemBar idx a k) :
    a = 0xF0000000 ∧ k = 8 := by
  have hlt : k < 32 := by
    by_cases hidx : idx = 0
    · subst hidx
      exact h.lt
    · have hreg : (smallBarDev 0xF0000000#32).pdev.barReg idx = 0#32 := if_neg (by omega)
      have := h.lt
      rwa [PciPdev.barType, hreg] at this
  by_cases hidx : idx = 0
  · subst hidx
    have hk : ∀ k < 32, 0xFFFFFF00#64 = fieldMask 64 k 32 → k = 8 := by decide
    have ha : 0xF0000000#64 = BitVec.ofNat 64 a := h.address
    have hbelow := h.below
    have := Nat.two_pow_pos k
    refine ⟨?_, hk k hlt h.writable⟩
    rw [← Nat.mod_eq_of_lt (show a < 2 ^ 64 by omega), ← BitVec.toNat_ofNat, ← ha]
    rfl
  · have hreg : (smallBarDev 0xF0000000#32).pdev.barReg idx = 0#32 := if_neg (by omega)
    have hk : ∀ k < 32, 0#64 ≠ fieldMask 64 k 32 := by decide
    have hw : ∀ i, i ≠ 0 → (smallBarDev 0xF0000000#32).pdev.barWritable i = 0#32 := fun i hi =>
      if_neg (by omega)
    have hwritable := h.writable
    rw [PciPdev.barType, hreg, hw _ hidx, hw _ (Nat.succ_ne_zero idx)] at hwritable
    exact absurd hwritable (hk k hlt)

/-- VMs of these devices are created with an empty EPT. -/
def smallBarVm (ops : MemoryOps) (addr : Fin n → Reg) : Vm n :=
  ⟨createEpt ops (bootMem ops), fun d => smallBarDev (addr d)⟩

theorem smallBarVm_run {Ok : PciVdev → ℕ → Reg → Prop} (hops : ops.Lawful) (addr : Fin n → Reg)
    (h : ∀ d, addr d = 0xF0000000#32 ∨ addr d = 0xF0001000#32) :
    VpciRun ops Ok (smallBarVm ops addr) :=
  .create (createEpt_ok hops (beforeCreate_bootMem ops))
    (fun _ hv => gpa2hpa_createEpt hops (beforeCreate_bootMem ops) (mmioWindow_lt hv))
    (fun d => ⟨smallBarDev_conforms (h d), fun _ _ => rfl⟩)
    (fun _ _ => show pageSize ∣ 0 ∧ 0 < 2 ^ 32 by decide)

theorem serves_uos : Serves (initEptMemOps uosLayout true true) :=
  ⟨.ept uosLayout true true rfl, rfl, by decide⟩

theorem vbar_isolation_uos :
    let ops := initEptMemOps uosLayout true true
    let st := ((smallBarVm ops fun _ : Fin 1 => 0xF0000000#32).initVdev ops 0).writeVbar ops 0 0
      0xC0001000#32
    ∃ d idx a k, (st.dev d).pdev.MemBar idx a k ∧
      ∃ x, a ≤ x ∧ x < a + 2 ^ k ∧ x / pageSize = 0xF0000004 / pageSize := by
  intro ops st
  have hcreate : VpciRun ops PciVdev.Aligned (smallBarVm ops fun _ : Fin 1 => 0xF0000000#32) :=
    smallBarVm_run serves_uos.known.lawful _ fun _ => Or.inl rfl
  have hinit := hcreate.init 0 fun _ _ => rfl
  have hrun : VpciRun ops PciVdev.Aligned st :=
    hinit.write 0 0 0xC0001000#32 (by decide) fun _ _ => by decide +kernel
  have hmap := hinit.write_mapped serves_uos 0 0 0xC0001000#32 (by decide +kernel)
    (v := 0xC0001004) (by decide +kernel)
  exact vbar_isolation serves_uos hrun 0xC0001004 ⟨by decide, by decide⟩ 0xF0000004
    (hmap.trans (by decide +kernel))

/-- A guest that puts a BAR of 256 bytes at `0xC0000800` reaches the page after it. -/
theorem vbar_isolation_unaligned :
    let ops := initEptMemOps uosLayout true true
    let st := ((smallBarVm ops fun _ : Fin 1 => 0xF0000000#32).initVdev ops 0).writeVbar ops 0 0
      0xC0000800#32
    VpciRun ops (fun _ _ _ => True) st ∧ 0xC0001000 ∈ mmioWindow ∧
      gpa2hpa ops st.ept 0xC0001000 = some 0xF0001000 ∧
      ¬ ∃ d idx a k, (st.dev d).pdev.MemBar idx a k ∧
        ∃ x, a ≤ x ∧ x < a + 2 ^ k ∧ x / pageSize = 0xF0001000 / pageSize := by
  intro ops st
  have hcreate : VpciRun ops (fun _ _ _ => True) (smallBarVm ops fun _ : Fin 1 => 0xF0000000#32) :=
    smallBarVm_run serves_uos.known.lawful _ fun _ => Or.inl rfl
  have hinit := hcreate.init 0 fun _ _ => rfl
  have hmap := hinit.write_mapped serves_uos 0 0 0xC0000800#32 (by decide +kernel)
    (v := 0xC0001000) (by decide +kernel)
  refine ⟨hinit.write 0 0 0xC0000800#32 (by decide) trivial, ⟨by decide, by decide⟩,
    hmap.trans (by decide +kernel), ?_⟩
  rintro ⟨d, idx, a, k, hbar, x, hge, hlt, hx⟩
  obtain rfl : d = 0 := Subsingleton.elim _ _
  rw [Vm.writeVbar_pdev, Vm.initVdev_pdev hcreate.inv fun _ _ => rfl] at hbar
  obtain ⟨rfl, rfl⟩ := smallBarDev_memBar hbar
  simp only [pageSize] at hx
  omega

end Acrn
