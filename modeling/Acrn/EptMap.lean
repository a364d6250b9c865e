import Acrn.Remapping

/-!
# An EPT as a map of addresses

Seen from the guest an EPT is a partial map from guest physical to host physical
addresses. On a well-kept table `ept_add_mr` puts an interval of pages into this
map and `ept_del_mr` takes one out, whatever leaves are installed or cut for it.
-/

namespace Acrn

open BlockLoop BitField PageTableLevel

/-- What is kept of an EPT over all calls. -/
structure EptOk (ops : MemoryOps) (s : PgMem) : Prop extends WellFormed ops s where
  low : FramesLow ops s
  root : SanitizedRoot ops s

/-- The host physical address of `gpa`. -/
def gpa2hpa (ops : MemoryOps) (s : PgMem) (gpa : ℕ) : Option ℕ :=
  (localGpa2hpa ops ops.info.pml4Base gpa s).map BitVec.toNat

/-- The addresses in the pages of `[base, base + size)`. -/
def pageRange (base size : ℕ) : Set ℕ :=
  {v | roundPageDown base ≤ v ∧ v < rangeEnd base size}

instance (base size v : ℕ) : Decidable (v ∈ pageRange base size) :=
  inferInstanceAs (Decidable (_ ∧ _))

variable {ops : MemoryOps} {s : PgMem}

theorem gpa2hpa_eq (hs : Sound ops s) {v : ℕ} (hv : v < 2 ^ 48) :
    gpa2hpa ops s v = (leaf ops s.mem v).map fun L => (L.hpa v).toNat := by
  rw [gpa2hpa, localGpa2hpa_eq hs, Nat.mod_eq_of_lt hv, Option.map_map]
  rfl

theorem createEpt_ok (hops : ops.Lawful) (h : BeforeCreate ops s) :
    EptOk ops (createEpt ops s) :=
  ⟨createEpt_wellFormed hops h, framesLow_createEpt hops, createEpt_sanitizedRoot hops h⟩

theorem gpa2hpa_createEpt (hops : ops.Lawful) (h : BeforeCreate ops s) {v : ℕ} (hv : v < 2 ^ 48) :
    gpa2hpa ops (createEpt ops s) v = none := by
  rw [gpa2hpa_eq (createEpt_sound hops h) hv, createEpt_leaf hops hv, Option.map_none]

/-! ## Taking an interval out

A leaf can stick out of the range on either side. It is cut, and what lies outside keeps its
address. -/

theorem eptDelMr_empty {gpa size : ℕ} (h : rangeEnd gpa size ≤ roundPageDown gpa) :
    eptDelMr ops ops.info.pml4Base gpa size s = s := mmuModifyOrDel_empty h

theorem not_mem_pageRange {base size v : ℕ} (h : rangeEnd base size ≤ roundPageDown base) :
    v ∉ pageRange base size := fun hv => absurd (hv.1.trans_lt hv.2) (by omega)

/-- A deletion leaves a page as it is, cuts it, or removes what lies in the range. -/
theorem leaf_target_del {gpa size v : ℕ} (hops : ops.Lawful) (L : Option Leaf) :
    (modPlan ops gpa size 0#64 0#64 .del).target L v =
      if v ∈ pageRange gpa size then none
      else L.map fun L => (modPlan ops gpa size 0#64 0#64 .del).cut L v := by
  cases L with
  | none => simp
  | some L =>
    by_cases hv : v ∈ pageRange gpa size
    · rw [if_pos hv]
      exact ModPlan.newLeaf_of_absent hv (sanitizedEntry_absent hops)
    · rw [if_neg hv, Option.map_some]
      exact if_neg hv

/-- **`ept_del_mr` takes its range out of the map.** -/
theorem EptOk.del (hknown : ops.Known) (hpool : ops.info.ptPool = true) (h : EptOk ops s)
    {gpa size : ℕ} (hwin : rangeEnd gpa size ≤ ops.info.window) :
    EptOk ops (eptDelMr ops ops.info.pml4Base gpa size s) ∧
      ∀ v < 2 ^ 48, gpa2hpa ops (eptDelMr ops ops.info.pml4Base gpa size s) v =
        if v ∈ pageRange gpa size then none else gpa2hpa ops s v := by
  have hops := hknown.lawful
  rcases Nat.lt_or_ge (roundPageDown gpa) (rangeEnd gpa size) with hlt | hempty
  · set s' := eptDelMr ops ops.info.pml4Base gpa size s
    have hrange : Changeable ops gpa size := ⟨hwin, Or.inl hpool⟩
    set plan := modPlan ops gpa size 0#64 0#64 .del with hplan
    have hclr : plan.type = .modify → plan.protClr &&& pagePs = 0#64 := nofun
    have hroot := SanitizedRoot.walkable (fun _ : MrType.del = .del => h.root) gpa size
    have hpost : ModPost plan .pml4 _ _ s s' := mmuModifyOrDel_spec hops h.sound hroot
      hclr hwin (Nat.le_of_lt hlt) (hrange.served _ _ _)
    have hs' : Sound ops s' := hpost.sound
    have hleaf : ∀ v < 2 ^ 48, leaf ops s'.mem v =
        if v ∈ pageRange gpa size then none else (leaf ops s.mem v).map fun L => plan.cut L v := by
      intro v hv
      rw [show leaf ops s'.mem v = _ from hpost.leaf_eq hlt rfl rfl hv]
      exact leaf_target_del hops _
    have hcut : ∀ v L, v < 2 ^ 48 → leaf ops s.mem v = some L →
        (plan.cut L v).hpa v = L.hpa v ∧
          ((plan.cut L v).level ≠ .pt → (plan.cut L v).entry &&& highFrameMask = 0#64) := by
      intro v L hv hL
      obtain ⟨hhpa, hlow, -, -⟩ := plan.cut_spec hops v (leaf_level_ne hL) (h.low v L hv hL)
      exact ⟨hhpa, hlow⟩
    refine ⟨⟨⟨hs', ?_⟩, ?_, ?_⟩, ?_⟩
    · exact fun v hv => hpost.holes nofun v hv (h.holes v hv)
    · intro v L hv hL hne
      rw [hleaf v hv] at hL
      split at hL
      · cases hL
      · obtain ⟨L₀, hL₀, rfl⟩ := Option.map_eq_some_iff.mp hL
        exact (hcut v L₀ hv hL₀).2 hne
    · exact (mmuModifyOrDel_evolves hops hpool hclr h.sound h.root hwin).sanitizedRoot h.root
    · intro v hv
      rw [gpa2hpa_eq hs' hv, gpa2hpa_eq h.sound hv, hleaf v hv]
      split
      · rfl
      · cases hL : leaf ops s.mem v with
        | none => rfl
        | some L =>
          rw [Option.map_some, Option.map_some, Option.map_some, (hcut v L hv hL).1]
  · rw [eptDelMr_empty hempty]
    exact ⟨h, fun v _ => (if_neg (not_mem_pageRange hempty)).symm⟩

/-! ## Putting an interval in -/

theorem eptAddMr_empty {hpa gpa size : ℕ} {prot : Word}
    (h : rangeEnd gpa size ≤ roundPageDown gpa) :
    eptAddMr ops ops.info.pml4Base hpa gpa size prot s = s := mmuAdd_empty h

/-- **`ept_add_mr` puts its range into the map**, if it is free and no
large page of the host addresses reaches `MAXPHYADDR`. -/
theorem EptOk.add (hknown : ops.Known) (hpool : ops.info.ptPool = true) (h : EptOk ops s)
    {hpa gpa size : ℕ} {prot : Word} (hwin : rangeEnd gpa size ≤ ops.info.window)
    (hprot : ProtOk ops (snooped prot))
    (hpaddr : roundPageDown hpa + (rangeEnd gpa size - roundPageDown gpa) < 2 ^ 39 + 2 ^ 21)
    (hfree : ∀ v ∈ pageRange gpa size, gpa2hpa ops s v = none) :
    EptOk ops (eptAddMr ops ops.info.pml4Base hpa gpa size prot s) ∧
      ∀ v < 2 ^ 48, gpa2hpa ops (eptAddMr ops ops.info.pml4Base hpa gpa size prot s) v =
        if v ∈ pageRange gpa size then some (roundPageDown hpa + (v - roundPageDown gpa))
        else gpa2hpa ops s v := by
  rcases Nat.lt_or_ge (roundPageDown gpa) (rangeEnd gpa size) with hlt | hempty
  · set s' := eptAddMr ops ops.info.pml4Base hpa gpa size prot s
    have hle : rangeEnd gpa size ≤ 2 ^ 48 := hwin.trans ops.info.window_le
    have hmap : Mappable ops hpa gpa size s := by
      refine ⟨hwin, Or.inl hpool, fun v hge hv => ?_⟩
      have hnone := hfree v ⟨hge, hv⟩
      rw [gpa2hpa_eq h.sound (by omega), Option.map_eq_none_iff] at hnone
      exact (lookupAddress_eq_none h.sound (by omega)).mpr hnone
    have hpost : AddPost _ _ _ _ _ s s' :=
      hmap.spec (snooped prot) hknown h.toWellFormed (Nat.le_of_lt hlt)
    have hs' : Sound ops s' := hpost.sound
    refine ⟨⟨⟨hs', ?_⟩, ?_, ?_⟩, ?_⟩
    · exact fun v hv => hpost.holes v hv (fun _ => ⟨hprot.present, hprot.tweaked⟩) (h.holes v hv)
    · exact hmap.framesLow hprot hknown h.toWellFormed h.low hpaddr
    · exact (mmuAdd_evolves hknown.lawful hpool h.sound hwin).sanitizedRoot h.root
    · intro v hv
      have hmod : v % 2 ^ 48 = v := Nat.mod_eq_of_lt hv
      by_cases hin : v ∈ pageRange gpa size
      · have hhpa := hmap.hpa_inside hprot hknown h.toWellFormed (v := v) (by rw [hmod]; exact hin.1)
          (by rw [hmod]; exact hin.2)
        rw [if_pos hin, gpa2hpa, show localGpa2hpa ops ops.info.pml4Base v s' = _ from hhpa,
          Option.map_some, hmod]
        obtain ⟨hge, hlt'⟩ := hin
        refine congrArg some ?_
        rw [BitVec.toNat_ofNat, Nat.mod_eq_of_lt (a := _ + _) (by omega)]
        exact Nat.mod_eq_of_lt (by omega)
      · have hout := hmap.leaf_outside (snooped prot) hknown h.toWellFormed hv hin
        rw [if_neg hin, gpa2hpa_eq hs' hv, gpa2hpa_eq h.sound hv,
          show leaf ops s'.mem v = _ from hout]
  · rw [eptAddMr_empty hempty]
    exact ⟨h, fun v _ => (if_neg (not_mem_pageRange hempty)).symm⟩

end Acrn
