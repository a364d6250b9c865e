import Acrn.Ept

/-!
# The EPTs of all virtual machines

The arrays of table pages of the virtual machines are in one memory, each machine with its
own. No call for one machine writes to the arrays of another, and no walk leaves the arrays it
began in, so that the EPT of a machine goes its own way whatever happens to the others.

`destroy_ept` clears the root. Nothing is mapped after that.
-/

namespace Acrn

open PageTableLevel

/-- `destroy_ept`. -/
def destroyEpt (ops : MemoryOps) (s : PgMem) : PgMem :=
  if ops.info.pml4Base ≠ 0 then s.zeroPage ops.info.pml4Base else s

/-- The address lies in one of the arrays. -/
def PoolLayout.Holds (info : PoolLayout) (a : ℕ) : Prop :=
  ∃ l, info.base l ≤ a ∧ a < info.base l + pageSize * info.pageNum l

/-- Two memories agree on what an EPT and its calls depend on. -/
def SameArrays (info : PoolLayout) (m m' : ℕ → Word) : Prop := ∀ a, info.Holds a → m' a = m a

namespace PoolLayout

variable {info : PoolLayout} {l : PageTableLevel} {v a : ℕ}

theorem holds_entryAddr (h : info.InPool l v) : info.Holds (info.entryAddr l v) :=
  ⟨l, Nat.le_add_right _ _, entryAddr_lt h⟩

theorem holds_root (h : info.pml4Base ≤ a) (h' : a < info.pml4Base + pageSize) : info.Holds a :=
  ⟨.pml4, h, by simpa [PgtablePagesInfo.base, PgtablePagesInfo.pageNum] using h'⟩

theorem holds_tablePage (h : v / l.size < info.pageNum l.next) (ha : info.tablePage l v ≤ a)
    (ha' : a < info.tablePage l v + pageSize) : info.Holds a := by
  refine ⟨l.next, ?_, ?_⟩
  · exact (Nat.le_add_right _ _).trans ha
  · have hpage : pageSize * (v / l.size) + pageSize ≤ pageSize * info.pageNum l.next :=
      (Nat.mul_succ _ _).symm.trans_le (Nat.mul_le_mul_left _ h)
    rw [tablePage] at ha'
    omega

/-- The sanitized page is in none of them. -/
theorem not_holds_sanitizedPage (ha : info.sanitizedPage ≤ a)
    (ha' : a < info.sanitizedPage + pageSize) : ¬ info.Holds a := by
  rintro ⟨l, hge, hlt⟩
  rcases info.sanitized_disjoint l with hd | hd
  · omega
  · omega

end PoolLayout

section OneEpt

variable {ops : MemoryOps} {s s' : PgMem} {a : ℕ}

/-! ## Writes stay in the arrays

Every write is one to an entry that a walk can reach or to a page that was handed out, and both lie
in the machine's own arrays. -/

/-- Filling a page writes that page. -/
theorem fillPage_frame {page : ℕ} {f : ℕ → Word}
    (h : ¬ (page ≤ a ∧ a < page + pageSize)) :
    (PgMem.fillPage page f ptrsPerTable s).mem a = s.mem a := by
  refine fillPage_mem_other _ _ _ fun i hi hai => h ?_
  simp only [ptrsPerTable, pageSize] at hi ⊢
  omega

/-- Linking a table writes the table and the entry that points to it, both of which are in the
pools of this EPT. -/
theorem linkTable_frame {l₀ : PageTableLevel} {v₀ : ℕ} {f : ℕ → Word}
    (hpool : ops.info.InPool l₀ v₀) (hpage : v₀ / l₀.size < ops.info.pageNum l₀.next)
    (ha : ¬ ops.info.Holds a) :
    (linkTable ops l₀ v₀ (ops.info.entryAddr l₀ v₀) f s).mem a = s.mem a := by
  have hentry : a ≠ ops.info.entryAddr l₀ v₀ := by
    rintro rfl
    exact ha (PoolLayout.holds_entryAddr hpool)
  have hout : ¬ (ops.info.tablePage l₀ v₀ ≤ a ∧ a < ops.info.tablePage l₀ v₀ + pageSize) :=
    fun h => ha (PoolLayout.holds_tablePage hpage h.1 h.2)
  rw [linkTable, PgMem.setPgentry]
  refine (Function.update_of_ne hentry ..).trans ?_
  rw [fillPage_frame hout]
  exact if_neg hout

/-- **What is outside the arrays stays.** -/
theorem Writes.frame (hops : ops.Lawful) (h : Writes ops s s') (ha : ¬ ops.info.Holds a) :
    s'.mem a = s.mem a := by
  induction h with
  | refl _ => rfl
  | leaf hw _ hv₀ hlink _ _ ih =>
    refine (Function.update_of_ne ?_ ..).trans ih
    rintro rfl
    exact ha (PoolLayout.holds_entryAddr ((hw.sound hops).inPool hv₀ hlink))
  | table hw _ hv₀ hlink _ hpage _ ih =>
    exact (linkTable_frame ((hw.sound hops).inPool hv₀ hlink) hpage ha).trans ih

/-- Creating an EPT writes in its own arrays only. -/
theorem createEpt_frame (ha : ¬ ops.info.Holds a) : (createEpt ops s).mem a = s.mem a :=
  fillPage_frame fun h => ha (PoolLayout.holds_root h.1 h.2)

/-- Destroying an EPT writes in its own arrays only. -/
theorem destroyEpt_frame (ha : ¬ ops.info.Holds a) : (destroyEpt ops s).mem a = s.mem a := by
  rw [destroyEpt]
  split
  · exact if_neg fun h => ha (PoolLayout.holds_root h.1 h.2)
  · rfl

/-! ## Walks stay in the arrays

A walk reads the root and follows references to pages of the same arrays. So two memories that
agree on these have the same EPT. -/

section SameArrays

variable {m m' : ℕ → Word} {requests : List PageRequest}

/-- The walk of an EPT reads its own arrays only. -/
theorem Sound.entryAt_congr (h : Sound ops ⟨m, requests⟩) (hm : SameArrays ops.info m m')
    {l : PageTableLevel} {v : ℕ} (hv : v < 2 ^ 48) (hl : Linked ops m l v) :
    entryAt ops m' l v = entryAt ops m l v :=
  hm _ (PoolLayout.holds_entryAddr (h.inPool hv hl))

theorem Sound.congr (h : Sound ops ⟨m, requests⟩) (hm : SameArrays ops.info m m') :
    Sound ops ⟨m', requests⟩ := by
  refine ⟨fun l v hl hv hlink => ?_, h.fresh⟩
  have hlinked : Linked ops m l.next v :=
    (linked_congr fun _ _ hk => h.entryAt_congr hm hv hk).mp hlink
  have habove := ((linked_next hl v).mp hlinked).1
  obtain ⟨hin, hpage⟩ := h.table l v hl hv hlinked
  refine ⟨hin, ?_⟩
  rw [← hpage]
  exact congrArg pageVaddr (h.entryAt_congr hm hv habove)

/-- **The EPT depends on its arrays only.** -/
theorem Sound.leaf_congr (h : Sound ops ⟨m, requests⟩) (hm : SameArrays ops.info m m') {v : ℕ}
    (hv : v < 2 ^ 48) : leaf ops m' v = leaf ops m v :=
  Acrn.leaf_congr fun _ hk => h.entryAt_congr hm hv hk

theorem SanitizedRoot.congr (h : SanitizedRoot ops ⟨m, requests⟩) (hm : SameArrays ops.info m m')
    (hpage : ∀ a, ops.info.sanitizedPage ≤ a → a < ops.info.sanitizedPage + pageSize →
      m' a = m a) : SanitizedRoot ops ⟨m', requests⟩ := by
  have hroot : ∀ v, v < ops.info.window → entryAt ops m' .pml4 v = entryAt ops m .pml4 v :=
    fun v hv => hm _ (PoolLayout.holds_entryAddr
      (PoolLayout.inPool_pml4 (hv.trans_le ops.info.window_le)))
  constructor
  · intro v hv habs
    rw [hroot v hv] at habs ⊢
    exact h.root v hv habs
  · intro i hi
    have hin : ops.info.sanitizedPage + 8 * i < ops.info.sanitizedPage + pageSize := by
      simp only [pageSize, ptrsPerTable] at *
      omega
    have hsame : m' (ops.info.sanitizedPage + 8 * i) = m (ops.info.sanitizedPage + 8 * i) :=
      hpage _ (Nat.le_add_right _ _) hin
    exact (congrArg ops.pgentryPresent hsame).trans (h.page i hi)

end SameArrays

/-! ## The cleared root -/

/-- A destroyed EPT has no present entry in its root. -/
theorem destroyEpt_rootAbsent (hops : ops.Lawful) (hbase : ops.info.pml4Base ≠ 0) :
    RootAbsent ops (destroyEpt ops s) := by
  intro v hv
  have hin : ops.info.InPool .pml4 v := PoolLayout.inPool_pml4 hv
  have hlt := PoolLayout.entryAddr_lt hin
  have hentry : entryAt ops (destroyEpt ops s).mem .pml4 v = 0#64 := by
    rw [destroyEpt, if_pos hbase]
    refine if_pos ⟨Nat.le_add_right _ _, ?_⟩
    simpa [PgtablePagesInfo.pageNum, PgtablePagesInfo.base] using hlt
  obtain ⟨mask, -, hmask⟩ := hops.present
  rw [hentry, hmask, BitVec.zero_and]

/-- **Nothing is mapped by an EPT that was destroyed.** -/
theorem destroyEpt_leaf (hops : ops.Lawful) (hbase : ops.info.pml4Base ≠ 0) {v : ℕ}
    (hv : v < 2 ^ 48) : leaf ops (destroyEpt ops s).mem v = none :=
  (destroyEpt_rootAbsent hops hbase).leaf_eq hv

end OneEpt

/-! ## All machines

The arrays are apart, and by the two facts above the EPTs of other machines are not concerned by
what is done for one. `Frames` is that frame, for any operation. -/

/-- The arrays of `n` virtual machines, where the linker puts them. -/
structure EptPools (n : ℕ) where
  info : Fin n → PoolLayout
  isEptForce4kIpage : Bool
  sanitizedPage : ℕ
  ptPool : ∀ vm, (info vm).ptPool = true
  sanitizedPage_eq : ∀ vm, (info vm).sanitizedPage = sanitizedPage
  pml4Base_ne : ∀ vm, (info vm).pml4Base ≠ 0
  apart : ∀ {vm vm'}, vm ≠ vm' → ∀ {a}, (info vm).Holds a → ¬ (info vm').Holds a

namespace EptPools

variable {n : ℕ} (pools : EptPools n)

/-- `vm->arch_vm.ept_mem_ops`. Only the safety VM is kept to pages of 4 KByte. -/
def ops (vm : Fin n) : MemoryOps :=
  initEptMemOps (pools.info vm) pools.isEptForce4kIpage (decide (vm.val = 0))

/-- Every EPT of the platform meets the laws that the page-table library asks for. -/
theorem lawful (vm : Fin n) : (pools.ops vm).Lawful :=
  (MemoryOps.Known.ept (pools.info vm) _ _ (pools.ptPool vm)).lawful

end EptPools

/-- The memory of the arrays, with the pages that each machine was given. -/
structure EptArrays (n : ℕ) where
  mem : ℕ → Word
  requests : Fin n → List PageRequest

namespace EptArrays

variable {n : ℕ}

/-- What one machine sees. -/
def pgMem (s : EptArrays n) (vm : Fin n) : PgMem := ⟨s.mem, s.requests vm⟩

/-- A change of the EPT of one machine. -/
def apply (s : EptArrays n) (vm : Fin n) (f : PgMem → PgMem) : EptArrays n :=
  ⟨(f (s.pgMem vm)).mem, Function.update s.requests vm (f (s.pgMem vm)).requests⟩

/-- Calls for one machine. -/
def calls (pools : EptPools n) (vm : Fin n) (cs : List EptCall) (s : EptArrays n) : EptArrays n :=
  cs.foldl (fun s c => s.apply vm (c.run (pools.ops vm))) s

/-- The EPTs of the machines that are up are in order, and those that were never created have no
page yet. -/
structure Inv (pools : EptPools n) (up launched : Fin n → Bool) (s : EptArrays n) : Prop where
  page : ∀ i < ptrsPerTable,
    s.mem (pools.sanitizedPage + 8 * i) = BitVec.ofNat 64 pools.sanitizedPage
  fresh : ∀ {vm}, launched vm = false → s.requests vm = []
  sound : ∀ {vm}, up vm = true → Sound (pools.ops vm) (s.pgMem vm) ∧
    SanitizedRoot (pools.ops vm) (s.pgMem vm)

/-- The EPT of a machine that is up translates as before. -/
def SameLeaves (pools : EptPools n) (vm : Fin n) (s s' : EptArrays n) : Prop :=
  ∀ v < 2 ^ 48, leaf (pools.ops vm) s'.mem v = leaf (pools.ops vm) s.mem v

variable {pools : EptPools n} {up launched : Fin n → Bool} {s : EptArrays n} {vm : Fin n}
  {f : PgMem → PgMem}

@[simp] theorem pgMem_apply (s : EptArrays n) (vm : Fin n) (f : PgMem → PgMem) :
    (s.apply vm f).pgMem vm = f (s.pgMem vm) := by
  have hrequests : (s.apply vm f).requests vm = (f (s.pgMem vm)).requests :=
    Function.update_self ..
  exact congrArg (PgMem.mk _) hrequests

theorem requests_apply_of_ne {vm' : Fin n} (h : vm' ≠ vm) :
    (s.apply vm f).requests vm' = s.requests vm' := Function.update_of_ne h ..

/-- The change stays in the arrays of its machine. -/
def Frames (pools : EptPools n) (vm : Fin n) (s s' : EptArrays n) : Prop :=
  (∀ a, ¬ (pools.info vm).Holds a → s'.mem a = s.mem a) ∧
    ∀ vm', vm' ≠ vm → s'.requests vm' = s.requests vm'

theorem Frames.refl (s : EptArrays n) : Frames pools vm s s := ⟨fun _ _ => rfl, fun _ _ => rfl⟩

theorem Frames.trans {s₁ s' : EptArrays n} (h : Frames pools vm s s₁) (h' : Frames pools vm s₁ s') :
    Frames pools vm s s' :=
  ⟨fun a ha => (h'.1 a ha).trans (h.1 a ha), fun vm' hne => (h'.2 vm' hne).trans (h.2 vm' hne)⟩

/-- An operation that writes in its own arrays leaves those of the others alone. -/
theorem frames_apply (h : ∀ a, ¬ (pools.info vm).Holds a → (f (s.pgMem vm)).mem a = s.mem a) :
    Frames pools vm s (s.apply vm f) := ⟨h, fun _ hne => requests_apply_of_ne hne⟩

section Frames

variable {s' : EptArrays n} {vm' : Fin n}

/-- The sanitized page belongs to no machine. -/
theorem Frames.page (h : Frames pools vm s s') {a : ℕ} (ha : pools.sanitizedPage ≤ a)
    (ha' : a < pools.sanitizedPage + pageSize) : s'.mem a = s.mem a := by
  refine h.1 a (PoolLayout.not_holds_sanitizedPage ?_ ?_)
  · rwa [pools.sanitizedPage_eq]
  · rwa [pools.sanitizedPage_eq]

theorem Frames.sameArrays (h : Frames pools vm s s') (hne : vm' ≠ vm) :
    SameArrays (pools.info vm') s.mem s'.mem := fun a ha => h.1 a (pools.apart hne ha)

/-- **The EPT of another machine** is in order as before, and it translates as before. -/
theorem Frames.other (h : Frames pools vm s s') (hne : vm' ≠ vm)
    (hs : Sound (pools.ops vm') (s.pgMem vm') ∧ SanitizedRoot (pools.ops vm') (s.pgMem vm')) :
    (Sound (pools.ops vm') (s'.pgMem vm') ∧ SanitizedRoot (pools.ops vm') (s'.pgMem vm')) ∧
      SameLeaves pools vm' s s' := by
  have hsame : SameArrays (pools.ops vm').info s.mem s'.mem := h.sameArrays hne
  have hpage : ∀ a, (pools.ops vm').info.sanitizedPage ≤ a →
      a < (pools.ops vm').info.sanitizedPage + pageSize → s'.mem a = s.mem a := by
    intro a ha ha'
    refine h.page ?_ ?_
    · exact (pools.sanitizedPage_eq vm').symm.trans_le ha
    · exact ha'.trans_eq (congrArg (· + pageSize) (pools.sanitizedPage_eq vm'))
  have hs' : s'.pgMem vm' = ⟨s'.mem, s.requests vm'⟩ := by rw [pgMem, h.2 vm' hne]
  rw [hs']
  exact ⟨⟨hs.1.congr hsame, hs.2.congr hsame hpage⟩, fun v hv => hs.1.leaf_congr hsame hv⟩

/-- **A change of one EPT** leaves the others in order. -/
theorem Inv.of_frames {up' launched' : Fin n → Bool} (h : s.Inv pools up launched)
    (hframes : Frames pools vm s s') (hlaunched : launched' vm = true)
    (hup : ∀ vm', vm' ≠ vm → up' vm' = up vm' ∧ launched' vm' = launched vm')
    (hself : up' vm = true → Sound (pools.ops vm) (s'.pgMem vm) ∧
      SanitizedRoot (pools.ops vm) (s'.pgMem vm)) : s'.Inv pools up' launched' := by
  refine ⟨fun i hi => ?_, fun {vm'} hfresh => ?_, fun {vm'} hvm => ?_⟩
  · have hin : pools.sanitizedPage + 8 * i < pools.sanitizedPage + pageSize := by
      simp only [pageSize, ptrsPerTable] at *
      omega
    exact (hframes.page (Nat.le_add_right _ _) hin).trans (h.page i hi)
  · have hne : vm' ≠ vm := by
      rintro rfl
      exact Bool.false_ne_true (hfresh.symm.trans hlaunched)
    rw [(hup vm' hne).2] at hfresh
    exact (hframes.2 vm' hne).trans (h.fresh hfresh)
  · by_cases hne : vm' = vm
    · subst hne
      exact hself hvm
    · rw [(hup vm' hne).1] at hvm
      exact (hframes.other hne (h.sound hvm)).1

end Frames

/-- `create_vm` makes an empty EPT. -/
theorem Inv.create (h : s.Inv pools up launched) (hfresh : launched vm = false) :
    (s.apply vm (createEpt (pools.ops vm))).Inv pools (Function.update up vm true)
      (Function.update launched vm true) ∧
    Frames pools vm s (s.apply vm (createEpt (pools.ops vm))) := by
  have hframes : Frames pools vm s (s.apply vm (createEpt (pools.ops vm))) :=
    frames_apply fun a ha => createEpt_frame ha
  have hbefore : BeforeCreate (pools.ops vm) (s.pgMem vm) := by
    refine ⟨fun i hi => ?_, h.fresh hfresh⟩
    have hpage := h.page i hi
    rwa [← pools.sanitizedPage_eq vm] at hpage
  refine ⟨h.of_frames hframes (Function.update_self ..) (fun vm' hne => ?_) fun _ => ?_, hframes⟩
  · exact ⟨Function.update_of_ne hne .., Function.update_of_ne hne ..⟩
  · rw [pgMem_apply]
    exact ⟨createEpt_sound (pools.lawful vm) hbefore,
      createEpt_sanitizedRoot (pools.lawful vm) hbefore⟩

/-- One call. -/
theorem Inv.call (h : s.Inv pools up launched) (hup : up vm = true) (hlaunched : launched vm = true)
    {c : EptCall} (hc : c.Admissible (pools.ops vm)) :
    (s.apply vm (c.run (pools.ops vm))).Inv pools up launched ∧
      Frames pools vm s (s.apply vm (c.run (pools.ops vm))) := by
  obtain ⟨hsound, hroot⟩ := h.sound hup
  have hwrites := EptCall.writes (pools.lawful vm) (pools.ptPool vm) hsound hroot hc
  have hframes : Frames pools vm s (s.apply vm (c.run (pools.ops vm))) :=
    frames_apply fun a ha => hwrites.frame (pools.lawful vm) ha
  refine ⟨h.of_frames hframes hlaunched (fun _ _ => ⟨rfl, rfl⟩) fun _ => ?_, hframes⟩
  have hevolves := hwrites.evolves (pools.lawful vm)
  rw [pgMem_apply]
  exact ⟨hevolves.sound, hevolves.sanitizedRoot hroot⟩

/-- **Any calls.** -/
theorem Inv.calls (h : s.Inv pools up launched) (hup : up vm = true)
    (hlaunched : launched vm = true) {cs : List EptCall} (hcs : ∀ c ∈ cs, c.Admissible (pools.ops vm)) :
    (s.calls pools vm cs).Inv pools up launched ∧ Frames pools vm s (s.calls pools vm cs) := by
  induction cs generalizing s with
  | nil => exact ⟨h, .refl s⟩
  | cons c cs ih =>
    obtain ⟨hinv, hframes⟩ := h.call hup hlaunched (hcs c List.mem_cons_self)
    obtain ⟨hinv', hframes'⟩ := ih hinv fun c' hc' => hcs c' (List.mem_cons_of_mem c hc')
    exact ⟨hinv', hframes.trans hframes'⟩

/-- **`destroy_ept`.** The EPT maps nothing. -/
theorem Inv.destroy (h : s.Inv pools up launched) (hlaunched : launched vm = true) :
    (s.apply vm (destroyEpt (pools.ops vm))).Inv pools (Function.update up vm false) launched ∧
    Frames pools vm s (s.apply vm (destroyEpt (pools.ops vm))) ∧
    ∀ v < 2 ^ 48, leaf (pools.ops vm) (s.apply vm (destroyEpt (pools.ops vm))).mem v = none := by
  have hframes : Frames pools vm s (s.apply vm (destroyEpt (pools.ops vm))) :=
    frames_apply fun a ha => destroyEpt_frame ha
  refine ⟨h.of_frames hframes hlaunched (fun vm' hne => ?_) fun hvm => ?_, hframes, fun v hv => ?_⟩
  · exact ⟨Function.update_of_ne hne .., rfl⟩
  · rw [Function.update_self] at hvm
    cases hvm
  · exact destroyEpt_leaf (pools.lawful vm) (pools.pml4Base_ne vm) hv

end EptArrays

end Acrn
