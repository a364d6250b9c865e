import Acrn.Vcpuid
import Mathlib.Data.List.Perm.Subperm

/-!
# What a guest reads by CPUID

The table that `set_vcpuid_entries` builds is sorted and has an entry exactly for the leaves
that are supported, so the search from the middle of the table finds what is there. From this
follows what a guest reads for any leaf, with and without the limit of `IA32_MISC_ENABLE`.
-/

namespace Acrn

open SortedTable

/-! ## Entries in order

A function that fills the table puts entries with a certain property behind the others, in order.
`Filled` says this of the table, and can be put together along the calls. -/

/-- The order of the table. -/
def VcpuidEntry.Before (a b : VcpuidEntry) : Prop :=
  a.leaf < b.leaf ∨ (a.leaf = b.leaf ∧ a.subleaf < b.subleaf)

theorem VcpuidEntry.Before.leafNr_le {a b : VcpuidEntry} (h : a.Before b) :
    a.leafNr ≤ b.leafNr := by
  obtain hlt | ⟨heq, -⟩ := h
  · exact (BitVec.lt_def.mp hlt).le
  · exact (congrArg BitVec.toNat heq).le

theorem VcpuidEntry.Before.ne {a b : VcpuidEntry} (h : a.Before b) :
    (a.leaf, a.subleaf) ≠ (b.leaf, b.subleaf) := by
  intro heq
  obtain ⟨hleaf, hsub⟩ := Prod.mk.inj heq
  obtain hlt | ⟨-, hlt⟩ := h
  · rw [hleaf] at hlt
    exact BitVec.lt_irrefl _ hlt
  · rw [hsub] at hlt
    exact BitVec.lt_irrefl _ hlt

/-- The entries with a property are put behind the others, in order. -/
def Appends (P : VcpuidEntry → Prop) (es es' : List VcpuidEntry) : Prop :=
  ∃ added, es' = es ++ added ∧ added.Pairwise VcpuidEntry.Before ∧ ∀ e, e ∈ added ↔ P e

/-- The same of the table, whose maxima stay. -/
structure Filled (P : VcpuidEntry → Prop) (vm vm' : VcpuidTable) : Prop where
  entries : Appends P vm.vcpuidEntries vm'.vcpuidEntries
  level : vm'.vcpuidLevel = vm.vcpuidLevel
  xlevel : vm'.vcpuidXlevel = vm.vcpuidXlevel

section

variable {P Q : VcpuidEntry → Prop}

theorem Appends.congr {es es' : List VcpuidEntry} (h : Appends P es es') (hPQ : ∀ e, P e ↔ Q e) :
    Appends Q es es' := by
  obtain ⟨added, happend, hsorted, hmem⟩ := h
  exact ⟨added, happend, hsorted, fun e => (hmem e).trans (hPQ e)⟩

theorem Appends.trans {es es' es'' : List VcpuidEntry} (h : Appends P es es')
    (h' : Appends Q es' es'') (hbefore : ∀ a b, P a → Q b → a.Before b) :
    Appends (fun e => P e ∨ Q e) es es'' := by
  obtain ⟨added, happend, hsorted, hmem⟩ := h
  obtain ⟨added', happend', hsorted', hmem'⟩ := h'
  refine ⟨added ++ added', ?_, ?_, fun e => ?_⟩
  · rw [happend', happend, List.append_assoc]
  · exact List.pairwise_append.mpr ⟨hsorted, hsorted', fun a ha b hb =>
      hbefore a b ((hmem a).mp ha) ((hmem' b).mp hb)⟩
  · rw [List.mem_append, hmem, hmem']

variable {vm vm' vm'' : VcpuidTable}

theorem Filled.refl (hP : ∀ e, ¬ P e) : Filled P vm vm :=
  ⟨⟨[], (List.append_nil _).symm, .nil, fun e => ⟨nofun, fun h => absurd h (hP e)⟩⟩, rfl, rfl⟩

theorem Filled.congr (h : Filled P vm vm') (hPQ : ∀ e, P e ↔ Q e) : Filled Q vm vm' :=
  ⟨h.entries.congr hPQ, h.level, h.xlevel⟩

theorem Filled.trans (h : Filled P vm vm') (h' : Filled Q vm' vm'')
    (hbefore : ∀ a b, P a → Q b → a.Before b) : Filled (fun e => P e ∨ Q e) vm vm'' :=
  ⟨h.entries.trans h'.entries hbefore, h'.level.trans h.level, h'.xlevel.trans h.xlevel⟩

theorem setVcpuidEntry_filled {entry : VcpuidEntry} (h : setVcpuidEntry vm entry = some vm') :
    Filled (· = entry) vm vm' := by
  rw [setVcpuidEntry] at h
  split at h
  · obtain rfl := Option.some.inj h
    exact ⟨⟨[entry], rfl, List.pairwise_singleton _ _, fun e => List.mem_singleton⟩, rfl, rfl⟩
  · exact absurd h nofun

end

/-! ## The leaves that have entries

Which leaves have entries is stated from what the pCPU reports, without the loops. Leaf 4 is the
only one with several entries. -/

section

variable (cpuidSubleaf : Cpuid)

/-- The entries for a basic leaf above zero: one, or those of the sub-leaves of leaf 4 up to the
first with no cache. -/
inductive BasicEntry : U32 → VcpuidEntry → Prop where
  | cache (i : U32) : (∀ j ≤ i, (cpuidSubleaf 0x04#32 j).eax ≠ 0#32) →
      BasicEntry 0x04#32 (initVcpuidEntry cpuidSubleaf 0x04#32 i cpuidCheckSubleaf)
  | features : BasicEntry 0x07#32 (initVcpuidEntry cpuidSubleaf 0x07#32 0#32 cpuidCheckSubleaf)
  | plain (leaf : U32) : leaf ∉ [0x1#32, 0x04#32, 0x07#32, 0xB#32, 0xD#32] →
      leaf ∉ disabledLeaves → BasicEntry leaf (initVcpuidEntry cpuidSubleaf leaf 0#32 0#32)

/-- The entries of the table, for the maxima that the pCPU reports. -/
inductive TableEntry : VcpuidEntry → Prop where
  | vendor : TableEntry (initVcpuidEntry cpuidSubleaf 0#32 0#32 0#32)
  | basic (leaf : U32) (e : VcpuidEntry) : 1 ≤ leaf.toNat → leaf ≤ (cpuidSubleaf 0#32 0#32).eax →
      BasicEntry cpuidSubleaf leaf e → TableEntry e
  | extendedMax : TableEntry (initVcpuidEntry cpuidSubleaf cpuidMaxExtendedFunction 0#32 0#32)
  | extended (leaf : U32) : cpuidExtendFunction2 ≤ leaf →
      leaf ≤ (cpuidSubleaf cpuidMaxExtendedFunction 0#32).eax →
      TableEntry (initVcpuidEntry cpuidSubleaf leaf 0#32 0#32)

variable {cpuidSubleaf}

theorem BasicEntry.leaf_eq {leaf : U32} {e : VcpuidEntry} (h : BasicEntry cpuidSubleaf leaf e) :
    e.leaf = leaf := by
  cases h with
  | cache i => rfl
  | features => rfl
  | plain => rfl

/-- What is left of the loop over the sub-leaves. -/
def CacheFrom (cpuidSubleaf : Cpuid) (j : U32) (e : VcpuidEntry) : Prop :=
  ∃ i, j ≤ i ∧ (∀ k, j ≤ k → k ≤ i → (cpuidSubleaf 0x04#32 k).eax ≠ 0#32) ∧
    e = initVcpuidEntry cpuidSubleaf 0x04#32 i cpuidCheckSubleaf

theorem setCacheEntries_filled {room : ℕ} {j : U32} {vm vm' : VcpuidTable}
    (hj : j.toNat + room < 2 ^ 32) (h : setCacheEntries cpuidSubleaf room j vm = some vm') :
    Filled (CacheFrom cpuidSubleaf j) vm vm' := by
  induction room generalizing j vm with
  | zero =>
    rw [setCacheEntries] at h
    split at h
    · rename_i hzero
      obtain rfl := Option.some.inj h
      refine Filled.refl fun e he => ?_
      obtain ⟨i, hji, hne, -⟩ := he
      exact hne j (BitVec.le_refl j) hji hzero
    · exact absurd h nofun
  | succ room ih =>
    rw [setCacheEntries] at h
    split at h
    · rename_i hzero
      obtain rfl := Option.some.inj h
      refine Filled.refl fun e he => ?_
      obtain ⟨i, hji, hne, -⟩ := he
      exact hne j (BitVec.le_refl j) hji hzero
    · rename_i hnonzero
      obtain ⟨vm₁, hset, hrest⟩ := Option.bind_eq_some_iff.mp h
      have hnext : (j + 1#32).toNat = j.toNat + 1 := by
        rw [BitVec.toNat_add]
        exact Nat.mod_eq_of_lt (by simp only [BitVec.toNat_ofNat]; omega)
      have hfilled := ih (by omega) hrest
      have hbefore : ∀ a b, a = initVcpuidEntry cpuidSubleaf 0x04#32 j cpuidCheckSubleaf →
          CacheFrom cpuidSubleaf (j + 1#32) b → a.Before b := by
        rintro a b rfl ⟨i, hi, -, rfl⟩
        refine Or.inr ⟨rfl, BitVec.lt_def.mpr ?_⟩
        have := BitVec.le_def.mp hi
        show j.toNat < i.toNat
        omega
      refine ((setVcpuidEntry_filled hset).trans hfilled hbefore).congr fun e => ?_
      constructor
      · rintro (rfl | ⟨i, hi, hne, rfl⟩)
        · refine ⟨j, BitVec.le_refl j, fun k hjk hkj => ?_, rfl⟩
          rw [BitVec.le_antisymm hkj hjk]
          exact hnonzero
        · have hle := BitVec.le_def.mp hi
          refine ⟨i, BitVec.le_def.mpr (by omega), fun k hjk hki => ?_, rfl⟩
          by_cases hkj : k = j
          · rw [hkj]
            exact hnonzero
          · refine hne k (BitVec.le_def.mpr ?_) hki
            have hne' : k.toNat ≠ j.toNat := fun heq => hkj (BitVec.eq_of_toNat_eq heq)
            have := BitVec.le_def.mp hjk
            omega
      · rintro ⟨i, hji, hne, rfl⟩
        by_cases hij : i = j
        · exact Or.inl (by rw [hij])
        · have hne' : i.toNat ≠ j.toNat := fun heq => hij (BitVec.eq_of_toNat_eq heq)
          have hle := BitVec.le_def.mp hji
          refine Or.inr ⟨i, BitVec.le_def.mpr (by omega), fun k hjk hki => ?_, rfl⟩
          refine hne k (BitVec.le_def.mpr ?_) hki
          have := BitVec.le_def.mp hjk
          omega

/-- One basic leaf. -/
theorem setBasicEntries_filled {vm vm' : VcpuidTable} {i : U32}
    (h : setBasicEntries cpuidSubleaf vm i = some vm') :
    Filled (BasicEntry cpuidSubleaf i) vm vm' := by
  rw [setBasicEntries] at h
  split at h
  · rename_i hpercpu
    obtain rfl := Option.some.inj h
    refine Filled.refl fun e he => ?_
    cases he with
    | cache => exact absurd hpercpu (by decide)
    | features => exact absurd hpercpu (by decide)
    | plain _ hspecial => simp_all
  rename_i hpercpu
  split at h
  · rename_i hcache
    subst hcache
    refine (setCacheEntries_filled ?_ h).congr fun e => ?_
    · have hroom : maxVmVcpuidEntries - vm.vcpuidEntries.length ≤ 64 := Nat.sub_le _ _
      have hzero : (0#32 : U32).toNat = 0 := rfl
      omega
    · constructor
      · rintro ⟨i, -, hne, rfl⟩
        exact .cache i fun j hj => hne j (Nat.zero_le j.toNat) hj
      · intro he
        cases he with
        | cache i hne => exact ⟨i, Nat.zero_le i.toNat, fun k _ hk => hne k hk, rfl⟩
        | plain _ hspecial => exact absurd hspecial (by decide)
  rename_i hcache
  split at h
  · rename_i hfeatures
    subst hfeatures
    refine (setVcpuidEntry_filled h).congr fun e => ?_
    constructor
    · rintro rfl
      exact .features
    · intro he
      cases he with
      | features => rfl
      | plain _ hspecial => exact absurd hspecial (by decide)
  rename_i hfeatures
  split at h
  · rename_i hdisabled
    obtain rfl := Option.some.inj h
    refine Filled.refl fun e he => ?_
    cases he with
    | cache => exact hcache rfl
    | features => exact hfeatures rfl
    | plain _ _ hsupported => exact hsupported hdisabled
  · rename_i hsupported
    refine (setVcpuidEntry_filled h).congr fun e => ?_
    constructor
    · rintro rfl
      refine .plain i ?_ hsupported
      simp_all
    · intro he
      cases he with
      | cache => exact absurd rfl hcache
      | features => exact absurd rfl hfeatures
      | plain => rfl

/-! ## The whole table -/

/-- **A loop over leaves** puts the entries of all of them into the table. -/
theorem forLeaves_filled {body : VcpuidTable → U32 → Option VcpuidTable}
    {P : U32 → VcpuidEntry → Prop} (hleaf : ∀ i e, P i e → e.leaf = i)
    (hbody : ∀ vm vm' i, body vm i = some vm' → Filled (P i) vm vm')
    {first : ℕ} {limit : U32} {vm vm' : VcpuidTable}
    (h : forLeaves body first limit vm = some vm') :
    Filled (fun e => ∃ i, first ≤ i.toNat ∧ i ≤ limit ∧ P i e) vm vm' := by
  have hrun : ∀ n first vm, first + n ≤ 2 ^ 32 →
      (List.range' first n).foldlM (fun vm i => body vm (BitVec.ofNat 32 i)) vm = some vm' →
      Filled (fun e => ∃ i : U32, first ≤ i.toNat ∧ i.toNat < first + n ∧ P i e) vm vm' := by
    intro n
    induction n with
    | zero =>
      intro first vm _ hfold
      obtain rfl := Option.some.inj hfold
      exact Filled.refl fun e ⟨i, hge, hlt, _⟩ => by omega
    | succ n ih =>
      intro first vm hbound hfold
      rw [List.range'_succ, List.foldlM_cons] at hfold
      obtain ⟨vm₁, hfirst, hrest⟩ := Option.bind_eq_some_iff.mp hfold
      have hnat : (BitVec.ofNat 32 first).toNat = first := by
        rw [BitVec.toNat_ofNat]
        exact Nat.mod_eq_of_lt (by omega)
      refine ((hbody vm vm₁ _ hfirst).trans (ih (first + 1) vm₁ (by omega) hrest) ?_).congr ?_
      · rintro a b ha ⟨i, hge, -, hb⟩
        refine Or.inl (BitVec.lt_def.mpr ?_)
        rw [hleaf _ a ha, hleaf i b hb, hnat]
        exact hge
      · intro e
        constructor
        · rintro (he | ⟨i, hge, hlt, he⟩)
          · exact ⟨_, hnat.ge, by omega, he⟩
          · exact ⟨i, by omega, by omega, he⟩
        · rintro ⟨i, hge, hlt, he⟩
          by_cases hi : i.toNat = first
          · have heq : i = BitVec.ofNat 32 first := BitVec.eq_of_toNat_eq (hi.trans hnat.symm)
            exact Or.inl (heq ▸ he)
          · exact Or.inr ⟨i, by omega, by omega, he⟩
  have hlimit := limit.isLt
  by_cases hfirst : first ≤ limit.toNat + 1
  · refine (hrun _ first vm (by omega) h).congr fun e => ?_
    constructor
    · rintro ⟨i, hge, hlt, he⟩
      exact ⟨i, hge, BitVec.le_def.mpr (by omega), he⟩
    · rintro ⟨i, hge, hle, he⟩
      have := BitVec.le_def.mp hle
      exact ⟨i, hge, by omega, he⟩
  · -- the loop is not entered
    have hnone : limit.toNat + 1 - first = 0 := by omega
    rw [forLeaves, hnone] at h
    obtain rfl := Option.some.inj h
    refine Filled.refl fun e ⟨i, hge, hle, _⟩ => ?_
    have := BitVec.le_def.mp hle
    omega

/-- With entries for all leaves up to the maximum, that is small. -/
theorem Filled.level_lt {vm vm' : VcpuidTable} {limit : U32}
    (h : Filled (fun e => ∃ i : U32, 1 ≤ i.toNat ∧ i ≤ limit ∧ BasicEntry cpuidSubleaf i e) vm vm') :
    limit.toNat < 0x80 := by
  by_contra hlarge
  obtain ⟨⟨added, happend, -, hmem⟩, -, -⟩ := h
  have hspecial : ∀ leaf ∈ ([0x1#32, 0x04#32, 0x07#32, 0xB#32, 0xD#32] : List U32),
      leaf.toNat < 0x20 := by simp
  have hdisabled : ∀ leaf ∈ disabledLeaves, leaf.toNat < 0x20 := by simp [disabledLeaves]
  let plain := (List.range' 0x20 65).map fun n =>
    initVcpuidEntry cpuidSubleaf (BitVec.ofNat 32 n) 0#32 0#32
  have hnodup : plain.Nodup := by
    refine List.Nodup.of_map VcpuidEntry.leaf ?_
    rw [List.map_map]
    exact (by decide : ((List.range' 0x20 65).map (BitVec.ofNat 32)).Nodup)
  have hsub : plain ⊆ added := by
    intro e he
    obtain ⟨n, hn, rfl⟩ := List.mem_map.mp he
    have hrange := List.mem_range'_1.mp hn
    have hnat : (BitVec.ofNat 32 n).toNat = n := by
      rw [BitVec.toNat_ofNat]
      exact Nat.mod_eq_of_lt (by omega)
    have hother : ∀ leaf : U32, leaf.toNat < 0x20 → BitVec.ofNat 32 n ≠ leaf := by
      intro leaf hleaf heq
      rw [← heq, hnat] at hleaf
      omega
    refine (hmem _).mpr ⟨_, by omega, BitVec.le_def.mpr (by omega), .plain _ ?_ ?_⟩
    · intro hmem
      exact hother _ (hspecial _ hmem) rfl
    · intro hmem
      exact hother _ (hdisabled _ hmem) rfl
  have hlength := (hnodup.subperm hsub).length_le
  have hroom := vm'.vcpuidEntryNr_le
  rw [happend, List.length_append] at hroom
  have hplain : plain.length = 65 := rfl
  have hmax : maxVmVcpuidEntries = 64 := rfl
  omega

/-- **What the table is**: sorted, with the entries that it should have. -/
structure VcpuidTable.BuiltFrom (cpuidSubleaf : Cpuid) (vm : VcpuidTable) : Prop where
  sorted : vm.vcpuidEntries.Pairwise VcpuidEntry.Before
  mem_iff : ∀ e, e ∈ vm.vcpuidEntries ↔ TableEntry cpuidSubleaf e
  level : vm.vcpuidLevel = (cpuidSubleaf 0#32 0#32).eax
  xlevel : vm.vcpuidXlevel = (cpuidSubleaf cpuidMaxExtendedFunction 0#32).eax
  level_lt : vm.vcpuidLevel.toNat < 0x80

theorem setVcpuidEntries_builtFrom {vm vm' : VcpuidTable} (hempty : vm.vcpuidEntries = [])
    (h : setVcpuidEntries cpuidSubleaf vm = some vm') : vm'.BuiltFrom cpuidSubleaf := by
  obtain ⟨vm₁, hvendor, h⟩ := Option.bind_eq_some_iff.mp h
  obtain ⟨vm₂, hbasic, h⟩ := Option.bind_eq_some_iff.mp h
  obtain ⟨vm₃, hmax, hextended⟩ := Option.bind_eq_some_iff.mp h
  have hfirst := setVcpuidEntry_filled hvendor
  have hloop := forLeaves_filled (fun _ _ => BasicEntry.leaf_eq)
    (fun _ _ _ => setBasicEntries_filled) hbasic
  have hthird := setVcpuidEntry_filled hmax
  have hlast := forLeaves_filled (P := fun i e => e = initVcpuidEntry cpuidSubleaf i 0#32 0#32)
    (fun i e he => by rw [he]; rfl) (fun _ _ _ => setVcpuidEntry_filled) hextended
  have hlevel_lt := hloop.level_lt
  have hlevel : vm₂.vcpuidLevel = (cpuidSubleaf 0#32 0#32).eax := hloop.level
  have hxlevel : vm'.vcpuidXlevel = (cpuidSubleaf cpuidMaxExtendedFunction 0#32).eax :=
    hlast.xlevel
  have hlevel' : vm'.vcpuidLevel = (cpuidSubleaf 0#32 0#32).eax :=
    hlast.level.trans (hthird.level.trans hlevel)
  -- the four parts are in order
  have happends := ((hfirst.entries.trans hloop.entries ?_).trans hthird.entries ?_).trans
    hlast.entries ?_
  · rw [hempty] at happends
    obtain ⟨added, happend, hsorted, hmem⟩ := happends
    rw [List.nil_append] at happend
    refine ⟨happend ▸ hsorted, fun e => ?_, hlevel', hxlevel, ?_⟩
    · rw [happend, hmem]
      constructor
      · rintro (((rfl | ⟨i, hge, hle, he⟩) | rfl) | ⟨i, hge, hle, rfl⟩)
        · exact .vendor
        · exact .basic i e hge hle he
        · exact .extendedMax
        · exact .extended i hge hle
      · intro he
        cases he with
        | vendor => exact Or.inl (Or.inl (Or.inl rfl))
        | basic i _ hge hle hbasic => exact Or.inl (Or.inl (Or.inr ⟨i, hge, hle, hbasic⟩))
        | extendedMax => exact Or.inl (Or.inr rfl)
        | extended i hge hle => exact Or.inr ⟨i, hge, hle, rfl⟩
    · rw [hlevel']
      exact hlevel_lt
  · rintro a b rfl ⟨i, hge, -, hb⟩
    refine Or.inl (BitVec.lt_def.mpr ?_)
    rw [hb.leaf_eq]
    exact hge
  · rintro a b (rfl | ⟨i, -, hle, ha⟩) rfl
    · exact Or.inl (show 0#32 < cpuidMaxExtendedFunction by decide)
    · refine Or.inl (BitVec.lt_def.mpr ?_)
      rw [ha.leaf_eq]
      exact ((BitVec.le_def.mp hle).trans_lt hlevel_lt).trans
        (show 0x80 < cpuidMaxExtendedFunction.toNat by decide)
  · rintro a b ((rfl | ⟨i, -, hle, ha⟩) | rfl) ⟨j, hge, -, rfl⟩
    · exact Or.inl (BitVec.lt_def.mpr ((by decide : 0 < cpuidExtendFunction2.toNat).trans_le hge))
    · refine Or.inl (BitVec.lt_def.mpr ?_)
      rw [ha.leaf_eq]
      exact ((BitVec.le_def.mp hle).trans_lt hlevel_lt).trans
        ((by decide : 0x80 < cpuidExtendFunction2.toNat).trans_le hge)
    · refine Or.inl (BitVec.lt_def.mpr ?_)
      exact (by decide : cpuidMaxExtendedFunction.toNat < cpuidExtendFunction2.toNat).trans_le hge

/-! ## The search

In a sorted table all entries of a leaf are next to each other. From the middle, the search goes in
the direction in which they lie. -/

/-- A leaf above the maximum of its range. -/
def VcpuidTable.Above (vm : VcpuidTable) (leaf : U32) : Prop :=
  (leaf < cpuidMaxExtendedFunction ∧ vm.vcpuidLevel < leaf) ∨
    (cpuidMaxExtendedFunction ≤ leaf ∧ vm.vcpuidXlevel < leaf)

theorem VcpuidTable.limit_lt_iff (vm : VcpuidTable) (leaf : U32) :
    vm.limit leaf < leaf ↔ vm.Above leaf := by
  have hbit : leaf &&& cpuidMaxExtendedFunction ≠ 0#32 ↔ cpuidMaxExtendedFunction ≤ leaf := by
    have htwo : cpuidMaxExtendedFunction = BitVec.twoPow 32 31 := by decide
    have hmsb : leaf.getLsbD 31 = decide (2 ^ 31 ≤ leaf.toNat) := BitVec.msb_eq_decide leaf
    have hle : cpuidMaxExtendedFunction ≤ leaf ↔ 2 ^ 31 ≤ leaf.toNat := BitVec.le_def
    rw [hle, htwo, BitVec.and_twoPow, hmsb]
    by_cases h : 2 ^ 31 ≤ leaf.toNat
    · simp only [h, decide_true, if_true, iff_true]
      decide
    · simp only [h, decide_false, iff_false, not_not]
      rfl
  rw [VcpuidTable.limit, VcpuidTable.Above]
  by_cases hext : cpuidMaxExtendedFunction ≤ leaf
  · have hnot : ¬ leaf < cpuidMaxExtendedFunction := BitVec.not_lt.mpr hext
    rw [if_pos (hbit.mpr hext)]
    simp [hext, hnot]
  · have hlt : leaf < cpuidMaxExtendedFunction := BitVec.not_le.mp hext
    rw [if_neg (mt hbit.mp hext)]
    simp [hext, hlt]

namespace VcpuidTable.BuiltFrom

variable {vm : VcpuidTable} (h : vm.BuiltFrom cpuidSubleaf)

include h

theorem sorted_le : vm.vcpuidEntries.Pairwise fun a b => a.leafNr ≤ b.leafNr :=
  h.sorted.imp VcpuidEntry.Before.leafNr_le

theorem nodup : (vm.vcpuidEntries.map fun e => (e.leaf, e.subleaf)).Nodup :=
  List.pairwise_map.mpr (h.sorted.imp VcpuidEntry.Before.ne)

/-- **The search from the middle finds what a search over all entries finds.** -/
theorem localFind_eq (leaf subleaf : U32) :
    localFindVcpuidEntry vm leaf subleaf = vm.entryFor leaf subleaf := by
  rw [localFindVcpuidEntry, VcpuidTable.entryFor]
  split
  · rename_i hhalf
    obtain ⟨entry, hentry, hlt⟩ := hhalf
    obtain ⟨hi, rfl⟩ := List.getElem?_eq_some_iff.mp hentry
    exact scan_drop h.sorted_le hi (BitVec.lt_def.mp hlt)
  · exact scan_eq_linearScan h.sorted_le

theorem findVcpuidEntry_eq (leaf subleaf : U32) :
    findVcpuidEntry vm leaf subleaf = (vm.entryFor leaf subleaf).or
      (if vm.limit leaf < leaf then vm.entryFor vm.vcpuidLevel subleaf else none) := by
  rw [findVcpuidEntry, h.localFind_eq, h.localFind_eq]
  cases vm.entryFor leaf subleaf with
  | none => rfl
  | some entry => rfl

/-- The leaves that differ between vCPUs have no entry. -/
theorem not_percpu {e : VcpuidEntry} (he : e ∈ vm.vcpuidEntries) :
    isPercpuRelated e.leaf = false := by
  cases (h.mem_iff e).mp he with
  | vendor => rfl
  | basic leaf _ hge hle hbasic =>
    have hlt : leaf.toNat < 0x80 := (BitVec.le_def.mp hle).trans_lt (h.level ▸ h.level_lt)
    have hext : leaf ≠ 0x80000001#32 := by
      rintro rfl
      exact absurd hlt (by decide)
    cases hbasic with
    | cache => rfl
    | features => rfl
    | plain _ hspecial =>
      show decide (leaf = 0x1#32 ∨ leaf = 0xB#32 ∨ leaf = 0xD#32 ∨ leaf = 0x80000001#32) = false
      simp_all
  | extendedMax => rfl
  | extended leaf hge =>
    have hlarge : 0x80000002 ≤ leaf.toNat := BitVec.le_def.mp hge
    refine decide_eq_false ?_
    rintro (heq | heq | heq | heq)
    all_goals
      have hsmall := congrArg BitVec.toNat heq
      simp only [initVcpuidEntry, BitVec.toNat_ofNat] at hsmall
      omega

theorem entryFor_percpu {leaf : U32} (hpercpu : isPercpuRelated leaf = true) (subleaf : U32) :
    vm.entryFor leaf subleaf = none := by
  refine linearScan_eq_none_iff.mpr fun e he hkey => False.elim ?_
  have hleaf : e.leaf = leaf := BitVec.eq_of_toNat_eq hkey
  have hnot := h.not_percpu he
  rw [hleaf, hpercpu] at hnot
  exact absurd hnot nofun

/-- Above the maximum there is no entry but that of the maximum itself. -/
theorem entryFor_above {leaf : U32} (habove : vm.Above leaf)
    (hmax : leaf ≠ cpuidMaxExtendedFunction) (subleaf : U32) : vm.entryFor leaf subleaf = none := by
  refine linearScan_eq_none_iff.mpr fun e he hkey => False.elim ?_
  have hleaf : e.leaf = leaf := BitVec.eq_of_toNat_eq hkey
  have hsmall := h.level_lt
  obtain ⟨hlt, hlevel⟩ | ⟨hge, hxlevel⟩ := habove
  · cases (h.mem_iff e).mp he with
    | vendor =>
      rw [← hleaf] at hlevel
      exact absurd (BitVec.lt_def.mp hlevel) (Nat.not_lt_zero _)
    | basic i _ _ hle hbasic =>
      rw [← hleaf, hbasic.leaf_eq, h.level] at hlevel
      exact absurd hlevel (BitVec.not_lt.mpr hle)
    | extendedMax => exact hmax hleaf.symm
    | extended i hge =>
      rw [← hleaf] at hlt
      have hlt' : i.toNat < 0x80000000 := BitVec.lt_def.mp hlt
      have hge' : 0x80000002 ≤ i.toNat := BitVec.le_def.mp hge
      omega
  · cases (h.mem_iff e).mp he with
    | vendor =>
      rw [← hleaf] at hge
      exact absurd hge (show ¬ cpuidMaxExtendedFunction ≤ 0#32 by decide)
    | basic i _ _ hle hbasic =>
      rw [← hleaf, hbasic.leaf_eq] at hge
      have hge' : 0x80000000 ≤ i.toNat := BitVec.le_def.mp hge
      have hle' := BitVec.le_def.mp hle
      rw [← h.level] at hle'
      omega
    | extendedMax => exact hmax hleaf.symm
    | extended i _ hle =>
      rw [← hleaf, h.xlevel] at hxlevel
      exact absurd hxlevel (BitVec.not_lt.mpr hle)

/-- The only entry of its leaf is found for every sub-leaf. -/
theorem entryFor_of_unique {e : VcpuidEntry} (he : TableEntry cpuidSubleaf e)
    (hflags : e.flags = 0#32)
    (hunique : ∀ e', TableEntry cpuidSubleaf e' → e'.leaf = e.leaf → e' = e) (subleaf : U32) :
    vm.entryFor e.leaf subleaf = some e := by
  cases hfound : vm.entryFor e.leaf subleaf with
  | none =>
    have hnot := linearScan_eq_none_iff.mp hfound e ((h.mem_iff e).mpr he) rfl
    simp [VcpuidEntry.matchesSubleaf, hflags] at hnot
  | some e' =>
    obtain ⟨hmem, hkey, -⟩ := linearScan_some hfound
    rw [hunique e' ((h.mem_iff e').mp hmem) (BitVec.eq_of_toNat_eq hkey)]

theorem entryFor_zero (subleaf : U32) :
    vm.entryFor 0#32 subleaf = some (initVcpuidEntry cpuidSubleaf 0#32 0#32 0#32) := by
  refine h.entryFor_of_unique .vendor rfl (fun e' he' hleaf => ?_) subleaf
  cases he' with
  | vendor => rfl
  | basic i _ hge _ hbasic =>
    have hzero : i = 0#32 := hbasic.leaf_eq.symm.trans hleaf
    rw [hzero] at hge
    exact absurd hge (by decide)
  | extendedMax => exact absurd hleaf (show cpuidMaxExtendedFunction ≠ 0#32 by decide)
  | extended i hge =>
    have hzero : i = 0#32 := hleaf
    rw [hzero] at hge
    exact absurd hge (by decide)

theorem entryFor_two (hlevel : 2#32 ≤ vm.vcpuidLevel) (subleaf : U32) :
    vm.entryFor 2#32 subleaf = some (initVcpuidEntry cpuidSubleaf 2#32 0#32 0#32) := by
  have hle : 2#32 ≤ (cpuidSubleaf 0#32 0#32).eax := h.level ▸ hlevel
  refine h.entryFor_of_unique (.basic 2#32 _ (by decide) hle (.plain 2#32 (by decide) (by decide)))
    rfl (fun e' he' hleaf => ?_) subleaf
  cases he' with
  | vendor => exact absurd hleaf (show 0#32 ≠ 2#32 by decide)
  | basic i _ _ _ hbasic =>
    obtain rfl : i = 2#32 := hbasic.leaf_eq.symm.trans hleaf
    cases hbasic with
    | plain => rfl
  | extendedMax => exact absurd hleaf (show cpuidMaxExtendedFunction ≠ 2#32 by decide)
  | extended i hge =>
    have htwo : i = 2#32 := hleaf
    rw [htwo] at hge
    exact absurd hge (by decide)

end VcpuidTable.BuiltFrom

end

/-! ## What the guest reads

The answers are put together from the search, the per-CPU leaves and the limit. Above the maximum
the guest reads what the highest leaf has. -/

/-- The limit of `IA32_MISC_ENABLE` is set. -/
def CpuidLimited (vcpu : Vcpu) : Prop :=
  vcpu.guestMsrs .miscEnable &&& msrIa32MiscEnableLimitCpuid ≠ 0#64

section

variable {cpuidSubleaf : Cpuid} {vm : CpuidVm} {vcpu : Vcpu} {leaf subleaf : U32}

theorem unlimitedCpuid_of_not_percpu (hleaf : isPercpuRelated leaf = false) :
    unlimitedCpuid cpuidSubleaf vm vcpu leaf subleaf =
      (regsOfEntry (findVcpuidEntry vm.vcpuid leaf subleaf), vcpu) := by
  rw [unlimitedCpuid, hleaf]
  rfl

/-- Reading CR4 for leaf 1 does not change the MSRs. -/
theorem unlimitedCpuid_guestMsrs :
    (unlimitedCpuid cpuidSubleaf vm vcpu leaf subleaf).2.guestMsrs = vcpu.guestMsrs := by
  have hcr4 : (vcpuGetCr4 vcpu).2.guestMsrs = vcpu.guestMsrs := by
    rw [vcpuGetCr4]
    split
    · rfl
    · rfl
  rw [unlimitedCpuid, percpuCpuid]
  repeat' split
  · exact hcr4
  · rfl
  · rfl
  · rfl
  · rfl

theorem guestCpuid_eq :
    guestCpuid cpuidSubleaf vm vcpu leaf subleaf =
      (guestLimitCpuid vm vcpu leaf (unlimitedCpuid cpuidSubleaf vm vcpu leaf subleaf).1).map
        (·, (unlimitedCpuid cpuidSubleaf vm vcpu leaf subleaf).2) := by
  rw [guestCpuid]
  simp only [guestLimitCpuid, unlimitedCpuid_guestMsrs]

theorem guestLimitCpuid_of_limited (h : CpuidLimited vcpu) (regs : CpuidRegs) :
    guestLimitCpuid vm vcpu leaf regs =
      if leaf = 0#32 then some { regs with eax := 2#32 }
      else if (2#32 < leaf ∧ leaf < cpuidMaxExtendedFunction) ∨ vm.vcpuid.vcpuidXlevel < leaf then
        (findVcpuidEntry vm.vcpuid 2#32 0#32).map VcpuidEntry.toCpuidRegs
      else some regs :=
  if_pos h

theorem guestLimitCpuid_of_not_limited (h : ¬ CpuidLimited vcpu) (regs : CpuidRegs) :
    guestLimitCpuid vm vcpu leaf regs = some regs :=
  if_neg h

theorem guestCpuid_of_not_limited (h : ¬ CpuidLimited vcpu) :
    guestCpuid cpuidSubleaf vm vcpu leaf subleaf =
      some (unlimitedCpuid cpuidSubleaf vm vcpu leaf subleaf) := by
  rw [guestCpuid_eq, guestLimitCpuid_of_not_limited h]
  rfl

end

/-- **The answers to CPUID.** Without the limit, a leaf that differs between vCPUs is answered for
the vCPU, a leaf above the maximum as the highest basic leaf, and any other leaf from its entry
or with zeros. With the limit, leaf 0 reports 2, the leaves 1 and 2 and those of the extended
range are as without, and the others are as leaf 2. -/
structure CpuidAnswers (cpuidSubleaf : Cpuid) (vm : CpuidVm) (vcpu : Vcpu) (leaf subleaf : U32) :
    Prop where
  percpu : ¬ CpuidLimited vcpu → isPercpuRelated leaf = true →
    guestCpuid cpuidSubleaf vm vcpu leaf subleaf =
      some (percpuCpuid cpuidSubleaf vm vcpu leaf subleaf)
  highest : ¬ CpuidLimited vcpu → isPercpuRelated leaf = false → vm.vcpuid.Above leaf →
    leaf ≠ cpuidMaxExtendedFunction → isPercpuRelated vm.vcpuid.vcpuidLevel = false →
    guestCpuid cpuidSubleaf vm vcpu leaf subleaf =
      guestCpuid cpuidSubleaf vm vcpu vm.vcpuid.vcpuidLevel subleaf
  entry : ¬ CpuidLimited vcpu → isPercpuRelated leaf = false →
    ∀ entry, vm.vcpuid.entryFor leaf subleaf = some entry →
    guestCpuid cpuidSubleaf vm vcpu leaf subleaf = some (entry.toCpuidRegs, vcpu)
  zeros : ¬ CpuidLimited vcpu → isPercpuRelated leaf = false → ¬ vm.vcpuid.Above leaf →
    vm.vcpuid.entryFor leaf subleaf = none →
    guestCpuid cpuidSubleaf vm vcpu leaf subleaf = some (⟨0#32, 0#32, 0#32, 0#32⟩, vcpu)
  vendor : CpuidLimited vcpu → leaf = 0#32 →
    guestCpuid cpuidSubleaf vm vcpu leaf subleaf =
      some ({ (unlimitedCpuid cpuidSubleaf vm vcpu leaf subleaf).1 with eax := 2#32 }, vcpu)
  kept : CpuidLimited vcpu → (leaf = 1#32 ∨ leaf = 2#32 ∨ cpuidMaxExtendedFunction ≤ leaf) →
    leaf ≤ vm.vcpuid.vcpuidXlevel →
    guestCpuid cpuidSubleaf vm vcpu leaf subleaf =
      some (unlimitedCpuid cpuidSubleaf vm vcpu leaf subleaf)
  limited : CpuidLimited vcpu → vm.vcpuid.vcpuidLevel ≠ 1#32 →
    ((2#32 < leaf ∧ leaf < cpuidMaxExtendedFunction) ∨
      (cpuidMaxExtendedFunction ≤ leaf ∧ vm.vcpuid.vcpuidXlevel < leaf)) →
    guestCpuid cpuidSubleaf vm vcpu leaf subleaf =
      some ((unlimitedCpuid cpuidSubleaf vm vcpu 2#32 subleaf).1, vcpu)

/-- What leaf 2 is answered with: unless leaf 1 is the highest, some entry. -/
theorem VcpuidTable.BuiltFrom.find_two {native : Cpuid} {vm : VcpuidTable}
    (h : vm.BuiltFrom native) (hlevel : vm.vcpuidLevel ≠ 1#32) :
    ∃ entry, ∀ subleaf, findVcpuidEntry vm 2#32 subleaf = some entry := by
  by_cases htwo : 2#32 ≤ vm.vcpuidLevel
  · refine ⟨initVcpuidEntry native 2#32 0#32 0#32, fun subleaf => ?_⟩
    rw [h.findVcpuidEntry_eq, h.entryFor_two htwo]
    rfl
  · have hzero : vm.vcpuidLevel = 0#32 := by
      have hlt : vm.vcpuidLevel.toNat < 2 := BitVec.lt_def.mp (BitVec.not_le.mp htwo)
      have hone : vm.vcpuidLevel.toNat ≠ 1 := fun heq => hlevel (BitVec.eq_of_toNat_eq heq)
      refine BitVec.eq_of_toNat_eq ?_
      show vm.vcpuidLevel.toNat = 0
      omega
    have habove : vm.Above 2#32 := Or.inl ⟨by decide, by rw [hzero]; decide⟩
    refine ⟨initVcpuidEntry native 0#32 0#32 0#32, fun subleaf => ?_⟩
    rw [h.findVcpuidEntry_eq, h.entryFor_above habove (by decide),
      if_pos ((vm.limit_lt_iff 2#32).mpr habove), hzero, h.entryFor_zero]
    rfl

theorem VcpuidTable.BuiltFrom.answers {native : Cpuid} {vm : CpuidVm}
    (h : vm.vcpuid.BuiltFrom native) (cpuidSubleaf : Cpuid) (vcpu : Vcpu) (leaf subleaf : U32) :
    CpuidAnswers cpuidSubleaf vm vcpu leaf subleaf where
  percpu hclear hpercpu := by
    rw [guestCpuid_of_not_limited hclear, unlimitedCpuid, if_pos hpercpu]
  highest hclear hleaf habove hmax hlevel := by
    have hnot : ¬ vm.vcpuid.limit vm.vcpuid.vcpuidLevel < vm.vcpuid.vcpuidLevel := by
      rw [VcpuidTable.limit_lt_iff]
      rintro (⟨-, hlt⟩ | ⟨hge, -⟩)
      · exact BitVec.lt_irrefl _ hlt
      · have hsmall := h.level_lt
        have hlarge : 0x80000000 ≤ vm.vcpuid.vcpuidLevel.toNat := BitVec.le_def.mp hge
        omega
    rw [guestCpuid_of_not_limited hclear, guestCpuid_of_not_limited hclear,
      unlimitedCpuid_of_not_percpu hleaf, unlimitedCpuid_of_not_percpu hlevel,
      h.findVcpuidEntry_eq, h.findVcpuidEntry_eq, h.entryFor_above habove hmax,
      if_pos ((VcpuidTable.limit_lt_iff _ _).mpr habove), if_neg hnot, Option.or_none,
      Option.none_or]
  entry hclear hleaf entry hentry := by
    rw [guestCpuid_of_not_limited hclear, unlimitedCpuid_of_not_percpu hleaf,
      h.findVcpuidEntry_eq, hentry]
    rfl
  zeros hclear hleaf habove hnone := by
    rw [guestCpuid_of_not_limited hclear, unlimitedCpuid_of_not_percpu hleaf,
      h.findVcpuidEntry_eq, hnone, if_neg (mt (VcpuidTable.limit_lt_iff _ _).mp habove)]
    rfl
  vendor hset hleaf := by
    subst hleaf
    rw [guestCpuid_eq, guestLimitCpuid_of_limited hset, if_pos rfl]
    rfl
  kept hset hkept hle := by
    have hne : leaf ≠ 0#32 := by
      rintro rfl
      obtain heq | heq | hge := hkept
      · exact absurd heq (by decide)
      · exact absurd heq (by decide)
      · exact absurd hge (by decide)
    have hin : ¬ ((2#32 < leaf ∧ leaf < cpuidMaxExtendedFunction) ∨
        vm.vcpuid.vcpuidXlevel < leaf) := by
      rintro (⟨hlow, hhigh⟩ | hxlevel)
      · obtain rfl | rfl | hge := hkept
        · exact absurd hlow (by decide)
        · exact absurd hlow (by decide)
        · exact absurd hhigh (BitVec.not_lt.mpr hge)
      · exact absurd hxlevel (BitVec.not_lt.mpr hle)
    rw [guestCpuid_eq, guestLimitCpuid_of_limited hset, if_neg hne, if_neg hin]
    rfl
  limited hset hlevel hother := by
    obtain ⟨entry, hfind⟩ := h.find_two hlevel
    have hne : leaf ≠ 0#32 := by
      rintro rfl
      obtain ⟨hlow, -⟩ | ⟨hge, -⟩ := hother
      · exact absurd hlow (by decide)
      · exact absurd hge (by decide)
    have hone : leaf ≠ 1#32 := by
      rintro rfl
      obtain ⟨hlow, -⟩ | ⟨hge, -⟩ := hother
      · exact absurd hlow (by decide)
      · exact absurd hge (by decide)
    have hout : (2#32 < leaf ∧ leaf < cpuidMaxExtendedFunction) ∨
        vm.vcpuid.vcpuidXlevel < leaf := hother.imp_right And.right
    have hvcpu : (unlimitedCpuid cpuidSubleaf vm vcpu leaf subleaf).2 = vcpu := by
      rw [unlimitedCpuid, percpuCpuid, if_neg hone]
      repeat' split
      all_goals rfl
    rw [guestCpuid_eq, guestLimitCpuid_of_limited hset, if_neg hne, if_pos hout, hvcpu, hfind,
      unlimitedCpuid_of_not_percpu (by decide), hfind]
    rfl

/-- What `write_efer_msr` finds in leaf `0x80000001`. -/
theorem VcpuidTable.BuiltFrom.guestCpuid80000001Edx_eq {native : Cpuid} {vm : CpuidVm}
    (h : vm.vcpuid.BuiltFrom native) (hlevel : vm.vcpuid.vcpuidLevel ≠ 1#32) {p : Platform}
    {cpuidSubleaf : Cpuid} (hxlevel : p.vcpuidXlevel = vm.vcpuid.vcpuidXlevel)
    (hedx : p.cpuid80000001Edx = (cpuidSubleaf 0x80000001#32 0#32).edx)
    (hedx2 : p.cpuid2Edx = (regsOfEntry (findVcpuidEntry vm.vcpuid 2#32 0#32)).edx)
    (vcpu : Vcpu) :
    (guestCpuid cpuidSubleaf vm vcpu 0x80000001#32 0#32).map (·.1.edx) =
      some (guestCpuid80000001Edx p vcpu) := by
  have hplain : (unlimitedCpuid cpuidSubleaf vm vcpu 0x80000001#32 0#32).1.edx =
      if vcpu.guestMsrs .miscEnable &&& msrIa32MiscEnableXdDisable ≠ 0#64 then
        p.cpuid80000001Edx &&& ~~~cpuidEdxXdBitAvil else p.cpuid80000001Edx := by
    show (guestCpuid80000001h cpuidSubleaf vcpu).edx = _
    rw [guestCpuid80000001h, hedx]
    split
    · rfl
    · rfl
  rw [guestCpuid80000001Edx]
  by_cases hset : CpuidLimited vcpu
  · by_cases hlt : vm.vcpuid.vcpuidXlevel < 0x80000001#32
    · have hanswer := (h.answers cpuidSubleaf vcpu 0x80000001#32 0#32).limited hset hlevel
        (Or.inr ⟨by decide, hlt⟩)
      rw [hanswer, if_pos ⟨hset, hxlevel ▸ hlt⟩, hedx2,
        unlimitedCpuid_of_not_percpu (by decide)]
      rfl
    · have hanswer := (h.answers cpuidSubleaf vcpu 0x80000001#32 0#32).kept hset
        (Or.inr (Or.inr (by decide))) (BitVec.not_lt.mp hlt)
      rw [hanswer, if_neg fun hboth => hlt (hxlevel ▸ hboth.2), ← hplain]
      rfl
  · rw [guestCpuid_of_not_limited hset, if_neg fun hboth => hset hboth.1, ← hplain]
    rfl

/-- **CPUID is exact**, for every table and every guest. -/
theorem guestCpuid_exact (native : Cpuid) (table : VcpuidTable)
    (h : setVcpuidEntries native VcpuidTable.empty = some table) :
    table.vcpuidEntries.Pairwise (fun a b => a.leaf ≤ b.leaf) ∧
      (table.vcpuidEntries.map fun e => (e.leaf, e.subleaf)).Nodup ∧
      (∀ leaf subleaf, localFindVcpuidEntry table leaf subleaf = table.entryFor leaf subleaf) ∧
      (∀ leaf subleaf, isPercpuRelated leaf = true → table.entryFor leaf subleaf = none) ∧
      ∀ (cpuidSubleaf : Cpuid) (vm : CpuidVm) (vcpu : Vcpu) (leaf subleaf : U32),
        vm.vcpuid = table → CpuidAnswers cpuidSubleaf vm vcpu leaf subleaf := by
  have hbuilt := setVcpuidEntries_builtFrom rfl h
  refine ⟨hbuilt.sorted_le.imp BitVec.le_def.mpr, hbuilt.nodup, hbuilt.localFind_eq,
    fun leaf subleaf hpercpu => hbuilt.entryFor_percpu hpercpu subleaf, ?_⟩
  rintro cpuidSubleaf vm vcpu leaf subleaf rfl
  exact hbuilt.answers cpuidSubleaf vcpu leaf subleaf

/-- A pCPU with the basic leaves up to 7 and two caches, and the extended leaves up to
`0x80000003`. -/
def sampleCpuid : Cpuid := fun leaf subleaf =>
  if leaf = 0#32 then ⟨7#32, 0x756E6547#32, 0x6C65746E#32, 0x49656E69#32⟩
  else if leaf = 0x04#32 then
    if subleaf < 2#32 then ⟨0x121#32, 0x1C0003F#32, 0x3F#32, 0#32⟩ else ⟨0#32, 0#32, 0#32, 0#32⟩
  else if leaf = cpuidMaxExtendedFunction then ⟨0x80000003#32, 0#32, 0#32, 0#32⟩
  else ⟨leaf, subleaf, 5#32, 6#32⟩

/-- Leaf `0x20` is above the maximum, and is answered as leaf 7 is. -/
theorem guestCpuid_exact_sample :
    ∃ table, setVcpuidEntries sampleCpuid VcpuidTable.empty = some table ∧
      table.vcpuidEntries.length = 10 ∧
      ∀ vmId created, guestCpuid sampleCpuid ⟨table, vmId, created⟩
          (Vcpu.cleared ⟨0#64, 0#64⟩) 0x20#32 0#32 =
        guestCpuid sampleCpuid ⟨table, vmId, created⟩ (Vcpu.cleared ⟨0#64, 0#64⟩) 7#32 0#32 := by
  have hsome : (setVcpuidEntries sampleCpuid VcpuidTable.empty).isSome = true := by decide
  obtain ⟨table, htable⟩ := Option.isSome_iff_exists.mp hsome
  have hlength : (setVcpuidEntries sampleCpuid VcpuidTable.empty).map
      (·.vcpuidEntries.length) = some 10 := by decide
  rw [htable] at hlength
  have hlevel : table.vcpuidLevel = 7#32 := (setVcpuidEntries_builtFrom rfl htable).level
  refine ⟨table, htable, Option.some.inj hlength, fun vmId created => ?_⟩
  have hanswers := (guestCpuid_exact sampleCpuid table htable).2.2.2.2 sampleCpuid
    ⟨table, vmId, created⟩ (Vcpu.cleared ⟨0#64, 0#64⟩) 0x20#32 0#32 rfl
  have hhighest := hanswers.highest (fun hset => hset (by decide)) (by decide)
    (Or.inl ⟨by decide, show table.vcpuidLevel < 0x20#32 by rw [hlevel]; decide⟩) (by decide)
    (show isPercpuRelated table.vcpuidLevel = false by rw [hlevel]; decide)
  rw [hhighest]
  show guestCpuid _ _ _ table.vcpuidLevel 0#32 = _
  rw [hlevel]

/-- Leaf 1 has no entry and is not above the maximum, but it is not answered with zeros: it is
one of the leaves that are answered for the vCPU. -/
theorem guestCpuid_leaf_one :
    ∃ table, setVcpuidEntries sampleCpuid VcpuidTable.empty = some table ∧
      table.entryFor 1#32 0#32 = none ∧ ¬ table.Above 1#32 ∧
      ¬ CpuidLimited (Vcpu.cleared ⟨0#64, 0#64⟩) ∧
      (guestCpuid sampleCpuid ⟨table, 0, 1#16⟩ (Vcpu.cleared ⟨0#64, 0#64⟩) 1#32 0#32).map
        Prod.fst ≠ some ⟨0#32, 0#32, 0#32, 0#32⟩ := by
  have hsome : (setVcpuidEntries sampleCpuid VcpuidTable.empty).isSome = true := by decide
  obtain ⟨table, htable⟩ := Option.isSome_iff_exists.mp hsome
  have hbuilt := setVcpuidEntries_builtFrom rfl htable
  have hclear : ¬ CpuidLimited (Vcpu.cleared ⟨0#64, 0#64⟩) := fun h => h (by decide)
  refine ⟨table, htable, hbuilt.entryFor_percpu (by decide) 0#32, ?_, hclear, ?_⟩
  · have hlevel : table.vcpuidLevel = 7#32 := hbuilt.level
    rintro (⟨-, hlt⟩ | ⟨hge, -⟩)
    · rw [hlevel] at hlt
      exact absurd hlt (by decide)
    · exact absurd hge (by decide)
  · rw [guestCpuid_of_not_limited hclear]
    intro hzero
    have heax : (sampleCpuid 1#32 0#32).eax = 0#32 :=
      congrArg CpuidRegs.eax (Option.some.inj hzero)
    exact absurd heax (by decide)

end Acrn
