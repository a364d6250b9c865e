import Acrn.Vpci

/-!
# The windows of the BARs and the EPT

While no base wraps around at the end of the address space, the EPT maps nothing
in the MMIO window but the BARs, and a page that was given to a BAR stays with it
until another BAR is placed over it or leaves it.
-/

namespace Acrn

open BlockLoop

variable {ops : MemoryOps} {n : ℕ} {st : Vm n} {b : Fin n × ℕ} {v : ℕ}

/-! ## The window of a BAR -/

/-- The addresses in the pages of `[base, base + size)`, without any wrap around. -/
def PciBar.window (bar : PciBar) : Set ℕ :=
  {v | bar.base ≠ 0#64 ∧ ∃ u, bar.base.toNat ≤ u ∧ u < bar.base.toNat + bar.size.toNat ∧
    u / pageSize = v / pageSize}

/-- The range that the write requests ends below `2 ^ 64`. Of a BAR of up to 4 GByte this
is not asked, since the hypervisor does not place one that reaches up to there. -/
def PciVdev.NoWrap (vdev : PciVdev) (idx : ℕ) (val : Reg) : Prop :=
  (vdev.bar (vdev.updateIdx idx)).size.toNat ≤ 2 ^ 32 ∨
    vdev.requested idx val + (vdev.bar (vdev.updateIdx idx)).size.toNat < 2 ^ 64

/-- A run in which no base wraps around. -/
abbrev VpciNoWrapRun (ops : MemoryOps) (st : Vm n) : Prop := VpciRun ops PciVdev.NoWrap st

theorem PciBar.window_eq_pages {bar : PciBar} (hsize : pageSize ≤ bar.size.toNat)
    (hwrap : bar.base ≠ 0#64 → bar.base.toNat + bar.size.toNat ≤ pciVbarTopLimit) :
    bar.window = bar.pages := by
  ext v
  constructor
  · rintro ⟨hbase, u, hge, hlt, hu⟩
    have hw := hwrap hbase
    refine ⟨hbase, ?_, ?_⟩
    · simp only [roundPageDown, blockStart, pageSize] at *
      omega
    · simp only [rangeEnd, roundPageUp, blockStart, pciVbarTopLimit, pageSize] at *
      omega
  · rintro ⟨hbase, hge, hlt⟩
    have hw := hwrap hbase
    refine ⟨hbase, min (max v bar.base.toNat) (bar.base.toNat + bar.size.toNat - 1), ?_, ?_, ?_⟩
    · simp only [pageSize] at *
      omega
    · simp only [pageSize] at *
      omega
    · simp only [rangeEnd, roundPageUp, roundPageDown, blockStart, pciVbarTopLimit, pageSize] at *
      omega

/-- An address whose high register is not all ones leaves room for 4 GByte. -/
theorem PciVdev.requested_le (vdev : PciVdev) (idx : ℕ) (val : Reg)
    (hhi : (vdev.bar (vdev.updateIdx idx)).type = .mem64 →
      (pciVdevWriteBar vdev idx val).cfgdata (vdev.updateIdx idx + 5) ≠ ~~~0#32) :
    vdev.requested idx val + 2 ^ 32 < 2 ^ 64 := by
  have hand : ∀ x m : Reg, (x &&& m).toNat ≤ x.toNat := fun x m => (and_mask_le x m).1
  rw [PciVdev.requested, PciVdev.address]
  set written := pciVdevWriteCfgU32 vdev (pciBarOffset idx)
    ((val &&& (vdev.bar idx).mask) ||| (vdev.bar idx).fixed) with hwritten
  set u := vdev.updateIdx idx
  have hlo := (written.cfgdata (u + 4) &&& (written.bar u).mask).isLt
  by_cases h64 : (written.bar u).type = .mem64
  · have hne : written.cfgdata (u + 5) ≠ ~~~0#32 := hhi h64
    have hlt : (written.cfgdata (u + 5)).toNat ≠ 2 ^ 32 - 1 := fun h =>
      hne (BitVec.eq_of_toNat_eq (by rw [h]; rfl))
    have hmax := (written.cfgdata (u + 5)).isLt
    have hle := hand (written.cfgdata (u + 5)) (written.bar (u + 1)).mask
    rw [if_pos h64]
    omega
  · rw [if_neg h64]
    omega

/-- In such a run every base lies in the MMIO window with its whole range. -/
theorem VpciRun.no_wrap (h : VpciNoWrapRun ops st) : st.Inv ∧ ∀ b, (st.bar b).base ≠ 0#64 →
    (st.bar b).base.toNat + (st.bar b).size.toNat ≤ pciVbarTopLimit := by
  refine h.rule (fun st => ∀ b, (st.bar b).base ≠ 0#64 →
    (st.bar b).base.toNat + (st.bar b).size.toNat ≤ pciVbarTopLimit) ?_ ?_
  · rintro st - - hfresh b hbase
    rw [Vm.bar, hfresh b.1 b.2 (Nat.zero_le _)] at hbase
    exact absurd rfl hbase
  · intro b st st' hm hsource ih b' hbase
    by_cases hb : b' = b
    · subst hb
      have hfits := hm.new b' hbase
      have hvalid := (vbarBaseIsValid_iff.mp hfits.valid).2
      have hhpa := hfits.hpa
      have hsum : (st'.bar b').base.toNat + (st'.bar b').size.toNat < 2 ^ 64 := by
        rcases hsource hbase with ⟨-, hlt⟩ | ⟨idx, val, hidx, hok, hreq, hsize, hall⟩
        · omega
        · have hle := PciVdev.requested_le (st.dev b'.1).vdev idx val
          rw [PciVdev.NoWrap, hidx] at hok
          rw [hidx] at hle
          rw [hreq, hsize]
          have hroom := hle hall
          rcases hok with hok | hok
          · have : (st.bar b').size.toNat ≤ 2 ^ 32 := hok
            omega
          · exact hok
      rwa [Nat.mod_eq_of_lt hsum] at hvalid
    · obtain ⟨hbase', hsize, -⟩ := hm.other b' hb
      rw [hbase'] at hbase ⊢
      rw [hsize]
      exact ih b' hbase

/-- There the window of a BAR is what the EPT maps for it. -/
theorem VpciRun.window_eq_pages (h : VpciNoWrapRun ops st) (b : Fin n × ℕ) :
    (st.bar b).window = (st.bar b).pages := by
  obtain ⟨hinv, hwrap⟩ := h.no_wrap
  by_cases hbase : (st.bar b).base = 0#64
  · have hwin : (st.bar b).window = ∅ := Set.eq_empty_of_forall_notMem fun v hv => hv.1 hbase
    have hpages : (st.bar b).pages = ∅ := Set.eq_empty_of_forall_notMem fun v hv => hv.1 hbase
    rw [hwin, hpages]
  · obtain ⟨hmem, -⟩ := (hinv.setUp b.1).base b.2 hbase
    obtain ⟨a, k, -, -, hsize, -⟩ := (hinv.setUp b.1).mem b.2 hmem
    exact PciBar.window_eq_pages (by rw [Vm.bar, hsize]; exact le_max_right _ _) (hwrap b)

/-! ## Settled pages

An address settles when a BAR is placed over it, and stays so until another BAR comes over it or
leaves it. By induction on the run, a settled address is mapped to its BAR. -/

/-- Address `v` was given to BAR `b`, and no BAR that was placed since then lies
over it or came from there. -/
inductive Settled (ops : MemoryOps) (b : Fin n × ℕ) (v : ℕ) : Vm n → Prop where
  | written {st : Vm n} (idx : ℕ) (val : Reg) : VpciNoWrapRun ops st → idx < pciBarCount →
      (st.dev b.1).vdev.NoWrap idx val → (st.dev b.1).vdev.updateIdx idx = b.2 →
      ((st.dev b.1).vdev.bar idx).type ≠ .none →
      v ∈ ((st.writeVbar ops b.1 idx val).bar b).window →
      Settled ops b v (st.writeVbar ops b.1 idx val)
  | initialised {st : Vm n} : VpciNoWrapRun ops st → (st.dev b.1).vdev.Fresh 0 →
      v ∈ ((st.initVdev ops b.1).bar b).window →
      (∀ i, i ≠ b.2 → v ∉ ((st.initVdev ops b.1).bar (b.1, i)).window) →
      Settled ops b v (st.initVdev ops b.1)
  | keepWrite {st : Vm n} (d : Fin n) (idx : ℕ) (val : Reg) : Settled ops b v st →
      idx < pciBarCount → (st.dev d).vdev.NoWrap idx val →
      (d, (st.dev d).vdev.updateIdx idx) ≠ b →
      v ∉ (st.bar (d, (st.dev d).vdev.updateIdx idx)).window →
      v ∉ ((st.writeVbar ops d idx val).bar (d, (st.dev d).vdev.updateIdx idx)).window →
      Settled ops b v (st.writeVbar ops d idx val)
  | keepInit {st : Vm n} (d : Fin n) : Settled ops b v st → (st.dev d).vdev.Fresh 0 → d ≠ b.1 →
      (∀ i, v ∉ ((st.initVdev ops d).bar (d, i)).window) →
      Settled ops b v (st.initVdev ops d)

/-- Settled addresses are about states of a run. -/
theorem Settled.run (h : Settled ops b v st) : VpciNoWrapRun ops st := by
  induction h with
  | written idx val hrun hidx hok _ _ _ => exact hrun.write _ idx val hidx hok
  | initialised hrun hfresh _ _ => exact hrun.init _ hfresh
  | keepWrite d idx val _ hidx hok _ _ _ ih => exact ih.write d idx val hidx hok
  | keepInit d _ hfresh _ _ ih => exact ih.init d hfresh

/-- `init_vdev_pt` gives an address to one of the BARs of the device, or leaves it. -/
theorem Vm.initVdev_map (hserves : Serves ops) (hinv : st.Inv) (hept : EptOk ops st.ept)
    {d : Fin n} (hfresh : (st.dev d).vdev.Fresh 0) (hv : v ∈ mmioWindow) :
    (∃ i, v ∈ ((st.initVdev ops d).bar (d, i)).pages ∧
      gpa2hpa ops (st.initVdev ops d).ept v = some (((st.initVdev ops d).bar (d, i)).hpaAt v)) ∨
    (∀ i, v ∉ ((st.initVdev ops d).bar (d, i)).pages) ∧
      gpa2hpa ops (st.initVdev ops d).ept v = gpa2hpa ops st.ept v := by
  refine (Vm.initVdev_rule (P := fun st' => EptOk ops st'.ept ∧
    ((∃ i, v ∈ (st'.bar (d, i)).pages ∧
      gpa2hpa ops st'.ept v = some ((st'.bar (d, i)).hpaAt v)) ∨
    (∀ i, v ∉ (st'.bar (d, i)).pages) ∧ gpa2hpa ops st'.ept v = gpa2hpa ops st.ept v))
    (fun d' _ => hinv.setUp d') (hinv.conf d) hfresh (hinv.cfg d) ?_ ⟨hept, Or.inr ⟨?_, rfl⟩⟩).2
  · rintro i st' st'' hm hold - ⟨hept', hP⟩
    obtain ⟨hok, hmap⟩ := hm.ept_spec hserves hept'
    have hnone : v ∉ (st'.bar (d, i)).pages := fun h => h.1 hold
    have hmap := hmap v (mmioWindow_lt hv)
    rw [if_neg hnone] at hmap
    refine ⟨hok, ?_⟩
    by_cases hnew : v ∈ (st''.bar (d, i)).pages
    · rw [if_pos hnew] at hmap
      exact Or.inl ⟨i, hnew, hmap⟩
    rw [if_neg hnew] at hmap
    rw [hmap]
    rcases hP with ⟨j, hj, hjmap⟩ | ⟨hno, hkeep⟩
    · -- the owner is an earlier BAR
      have hne : (d, j) ≠ (d, i) := by
        intro h
        rw [h] at hj
        exact hnone hj
      obtain ⟨hpages, hhpa⟩ := hm.pages_other hne
      exact Or.inl ⟨j, by rwa [hpages], by rw [hjmap, hhpa]⟩
    · refine Or.inr ⟨fun j => ?_, hkeep⟩
      by_cases hj : j = i
      · rwa [hj]
      · have hne : (d, j) ≠ (d, i) := fun h => hj (Prod.mk.inj h).2
        rw [(hm.pages_other hne).1]
        exact hno j
  · intro i hpages
    refine hpages.1 ?_
    rw [Vm.bar, hfresh i (Nat.zero_le _)]
    rfl

/-- **A settled address is mapped** to its place in the physical BAR. -/
theorem Settled.mapped (hserves : Serves ops) (h : Settled ops b v st) :
    v ∈ (st.bar b).pages ∧ gpa2hpa ops st.ept v = some ((st.bar b).hpaAt v) := by
  induction h with
  | @written st idx val hrun hidx hok hu htype hin =>
    rw [(hrun.write b.1 idx val hidx hok).window_eq_pages] at hin
    have hmap := hrun.write_mapped hserves b.1 idx val htype (v := v)
    rw [hu] at hmap
    exact ⟨hin, hmap hin⟩
  | @initialised st hrun hfresh hin hother =>
    obtain ⟨hinv, c, hc⟩ := hrun.backed hserves
    have hrun' := hrun.init b.1 hfresh
    have hv : v ∈ mmioWindow := by
      rw [hrun'.window_eq_pages] at hin
      exact PciBar.pages_subset ((hrun'.backed hserves).1.setUp b.1 |>.fits b.2) hin
    have hb : ∀ i, v ∈ ((st.initVdev ops b.1).bar (b.1, i)).pages → i = b.2 := by
      intro i hi
      by_contra hne
      refine hother i hne ?_
      rwa [hrun'.window_eq_pages]
    rw [hrun'.window_eq_pages] at hin
    rcases Vm.initVdev_map hserves hinv hc.ept hfresh hv with ⟨i, hi, hmap⟩ | ⟨hno, -⟩
    · have hi' := hb i hi
      subst hi'
      exact ⟨hi, hmap⟩
    · exact absurd hin (hno b.2)
  | @keepWrite st d idx val hset hidx hok hne hold hnew ih =>
    obtain ⟨hin, hmapped⟩ := ih
    have hrun := hset.run
    obtain ⟨hinv, c, hc⟩ := hrun.backed hserves
    by_cases htype : ((st.dev d).vdev.bar idx).type = .none
    · rw [Vm.writeVbar_none val htype]
      exact ⟨hin, hmapped⟩
    have hm := Vm.moved_write ops hinv.setUp d val htype
    have hv := mmioWindow_lt (PciBar.pages_subset ((hinv.setUp b.1).fits b.2) hin)
    have hmap := (hm.ept_spec hserves hc.ept).2 v hv
    rw [hrun.window_eq_pages] at hold
    rw [(hrun.write d idx val hidx hok).window_eq_pages] at hnew
    rw [if_neg hnew, if_neg hold] at hmap
    obtain ⟨hpages, hhpa⟩ := hm.pages_other hne.symm
    exact ⟨by rwa [hpages], by rw [hmap, hmapped, hhpa]⟩
  | @keepInit st d hset hfresh hne hnew ih =>
    obtain ⟨hin, hmapped⟩ := ih
    have hrun := hset.run
    obtain ⟨hinv, c, hc⟩ := hrun.backed hserves
    have hbar : (st.initVdev ops d).bar b = st.bar b := by
      rw [Vm.bar, Vm.initVdev, Vm.set_dev_of_ne st hne.symm]
      rfl
    have hv := PciBar.pages_subset ((hinv.setUp b.1).fits b.2) hin
    rw [hbar]
    refine ⟨hin, ?_⟩
    rcases Vm.initVdev_map hserves hinv hc.ept hfresh hv with ⟨i, hi, -⟩ | ⟨-, hkeep⟩
    · refine absurd ?_ (hnew i)
      rwa [(hrun.init d hfresh).window_eq_pages]
    · rw [hkeep, hmapped]

/-! ## The BARs and the EPT in step -/

/-- The register reads back the size of the physical BAR and its type after all
ones were written to it. -/
theorem PciVdev.SetUp.sizing {p : PciPdev} {vdev : PciVdev} (h : vdev.SetUp p) {idx : ℕ}
    (htype : (vdev.bar idx).type ≠ .none) :
    pciVdevReadBar (pciVdevWriteBar vdev idx (~~~0#32)) idx = p.barWritable idx |||
      if (vdev.bar idx).type = .mem64hi then 0#32 else p.barReg idx &&& 0xf#32 := by
  obtain ⟨hmask, hfixed⟩ := h.regs idx htype
  rw [pciVdevReadBar_write, hmask, hfixed, BitVec.not_zero, BitVec.allOnes_and]

/-- **The BARs and the EPT stay in step.** An address of the MMIO window that lies in
the window of no BAR is not mapped; one that is mapped is mapped for a BAR in whose
window it lies; one that is settled is mapped for its BAR. Writing all ones to a
register makes it read as the size of the physical BAR with its type. -/
theorem vbar_windows_in_step (hserves : Serves ops) (h : VpciNoWrapRun ops st) :
    (∀ v ∈ mmioWindow, (∀ b, v ∉ (st.bar b).window) → gpa2hpa ops st.ept v = none) ∧
    (∀ v ∈ mmioWindow, ∀ hpa, gpa2hpa ops st.ept v = some hpa →
      ∃ b, v ∈ (st.bar b).window ∧ hpa = (st.bar b).hpaAt v) ∧
    (∀ b v, Settled ops b v st → gpa2hpa ops st.ept v = some ((st.bar b).hpaAt v)) ∧
    (∀ d idx, ((st.dev d).vdev.bar idx).type ≠ .none →
      pciVdevReadBar ((st.writeVbar ops d idx (~~~0#32)).dev d).vdev idx =
        (st.dev d).pdev.barWritable idx ||| if ((st.dev d).vdev.bar idx).type = .mem64hi then 0#32
          else (st.dev d).pdev.barReg idx &&& 0xf#32) := by
  obtain ⟨hinv, c, hc⟩ := h.backed hserves
  have howned : ∀ v ∈ mmioWindow, ∀ hpa, gpa2hpa ops st.ept v = some hpa →
      ∃ b, v ∈ (st.bar b).window ∧ hpa = (st.bar b).hpaAt v := by
    intro v hv hpa hmap
    rw [hc.map v hv, Option.map_eq_some_iff] at hmap
    obtain ⟨b, howner, rfl⟩ := hmap
    refine ⟨b, ?_, rfl⟩
    rw [h.window_eq_pages, ← hc.part]
    exact hc.sound v b howner
  refine ⟨?_, howned, fun b v hs => (hs.mapped hserves).2, ?_⟩
  · intro v hv hno
    cases hmap : gpa2hpa ops st.ept v with
    | none => rfl
    | some hpa =>
      obtain ⟨b, hb, -⟩ := howned v hv hpa hmap
      exact absurd hb (hno b)
  · intro d idx htype
    rw [Vm.writeVbar, vdevPtWriteVbar, if_neg htype, Vm.set_dev_self]
    exact (hinv.setUp d).sizing htype

theorem vbar_windows_in_step_uos :
    let ops := initEptMemOps uosLayout true true
    let st := ((smallBarVm ops fun _ : Fin 1 => 0xF0000000#32).initVdev ops 0).writeVbar ops 0 0
      0xC0000800#32
    gpa2hpa ops st.ept 0xC0001000 = some 0xF0001000 ∧
      pciVdevReadBar ((st.writeVbar ops 0 0 (~~~0#32)).dev 0).vdev 0 = 0xFFFFFF00#32 := by
  intro ops st
  have hserves : Serves ops := serves_uos
  have hcreate : VpciNoWrapRun ops (smallBarVm ops fun _ : Fin 1 => 0xF0000000#32) :=
    smallBarVm_run hserves.known.lawful _ fun _ => Or.inl rfl
  have hinit := hcreate.init 0 fun _ _ => rfl
  have hok : (((smallBarVm ops fun _ : Fin 1 => 0xF0000000#32).initVdev ops 0).dev 0).vdev.NoWrap 0
      0xC0000800#32 := Or.inl (by decide +kernel)
  have hrun : VpciNoWrapRun ops st := hinit.write 0 0 0xC0000800#32 (by decide) hok
  obtain ⟨-, -, hmapped, hsize⟩ := vbar_windows_in_step hserves hrun
  have hsettled : Settled ops (0, 0) 0xC0001000 st :=
    .written 0 0xC0000800#32 hinit (by decide) hok (by decide +kernel) (by decide +kernel)
      ⟨by decide +kernel, 0xC0001000, by decide +kernel, by decide +kernel, rfl⟩
  have hread := hsize 0 0 (by decide +kernel)
  refine ⟨(hmapped _ _ hsettled).trans ?_, hread.trans ?_⟩
  · decide +kernel
  · decide +kernel

/-- Two BARs at one address: the one that was placed last has it. -/
theorem vbar_windows_overlap :
    let ops := initEptMemOps uosLayout true true
    let boot := smallBarVm ops fun d : Fin 2 => if d = 0 then 0xF0000000#32 else 0xF0001000#32
    let st := (((boot.initVdev ops 0).initVdev ops 1).writeVbar ops 0 0 0xC0000000#32).writeVbar
      ops 1 0 0xC0000000#32
    VpciRun ops (fun _ _ _ => True) st ∧ 0xC0000000 ∈ (st.bar (0, 0)).window ∧
      (st.bar (0, 0)).hpaAt 0xC0000000 = 0xF0000000 ∧
      gpa2hpa ops st.ept 0xC0000000 = some 0xF0001000 := by
  intro ops boot st
  have hcreate : VpciRun ops (fun _ _ _ => True) boot :=
    smallBarVm_run serves_uos.known.lawful _ fun d => by by_cases h : d = 0 <;> simp [h]
  have hinit := (hcreate.init 0 fun _ _ => rfl).init 1 fun _ _ => rfl
  have hprev := hinit.write 0 0 0xC0000000#32 (by decide) trivial
  have hrun : VpciRun ops (fun _ _ _ => True) st :=
    hprev.write 1 0 0xC0000000#32 (by decide) trivial
  have hwindow : 0xC0000000 ∈ (st.bar (0, 0)).window :=
    ⟨by decide +kernel, 0xC0000000, by decide +kernel, by decide +kernel, rfl⟩
  have hmap := hprev.write_mapped serves_uos 1 0 0xC0000000#32 (by decide +kernel)
    (v := 0xC0000000) (by decide +kernel)
  refine ⟨hrun, hwindow, ?_, hmap.trans ?_⟩
  · decide +kernel
  · decide +kernel

end Acrn
