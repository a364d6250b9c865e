import Acrn.PauseVcpu

/-!
# The lock of a virtual machine

`vlapic_process_init_sipi` and `fatal_error_shutdown_vm` take `vm_lock` in the handler of a
VM exit, and `pause_vcpu` waits under it for the flag `running` of other vCPUs. The ticket
lock serves its callers in their order, so that it is the queue of those that asked for it.
`shutdown_vm_from_idle`, which the idle thread calls, is left out.
-/

namespace Acrn

open Transition

/-- `enum vm_state`, as far as the lock protects it. -/
inductive VmState where
  | started
  | paused
  deriving DecidableEq

/-- What a vCPU takes `vm_lock` for. -/
inductive LockOp (V : Type*) where
  | init (target : V)
  | startup (target : V)
  | fatalError
  deriving DecidableEq

/-- The vCPUs of a virtual machine, each on a pCPU of its own. -/
structure VmLockState (V : Type*) where
  cpu : V → VcpuCpu
  nrSipi : V → ℕ
  state : VmState
  /-- those that asked for `vm_lock`, of which the first holds it -/
  queue : List V
  op : V → Option (LockOp V)
  /-- whom the holder still has to pause, once it has begun -/
  todo : Option (List V)
  /-- whose flag it waits for -/
  spin : Option V

/-- The steps of the pCPUs, of which some are those of the holder. -/
inductive LockStep (V : Type*) where
  | pcpu (v : V) (a : LoopStep)
  | kickVcpu (v : V) (here : Bool)
  | spinlockObtain (v : V) (op : LockOp V)
  /-- the holder comes out of `spinlock_obtain` -/
  | obtained
  | pauseVcpu
  | notRunning
  | spinlockRelease

variable {V : Type*} [DecidableEq V] (vcpus : List V) (bsp : V)

/-- The vCPU that INIT or a start-up request is for. -/
def LockOp.target? : LockOp V → Option V
  | .init t => some t
  | .startup t => some t
  | .fatalError => none

namespace VmLockState

variable (s : VmLockState V)

/-- A change of one pCPU. -/
def setCpu (v : V) (c : VcpuCpu) : VmLockState V := { s with cpu := Function.update s.cpu v c }

/-- The vCPUs that are to be paused for a vCPU's operation. -/
def targets (u : V) : List V :=
  match s.op u with
  | some (.init t) => [t]
  | some .fatalError => if s.state = .started then vcpus else []
  | _ => []

/-- The same for the holder, less those that are done. -/
def holderTargets (u : V) : List V :=
  match s.todo with
  | none => s.targets vcpus u
  | some todo => s.spin.toList ++ todo

/-- `pause_vcpu` by `u`, up to the wait. -/
def pauseVcpu (u w : V) : VmLockState V :=
  let c := { s.cpu w with state := .zombie }
  if (s.cpu w).state = .running then
    { s.setCpu w (c.sleepThread (u = w)) with spin := if u = w then none else some w }
  else if (s.cpu w).state = .init then s.setCpu w c
  else s

/-- What the operation of `u` does after its last `pause_vcpu`. -/
def finish (u : V) : VmLockState V :=
  match s.op u with
  | some (.init t) =>
    { s.setCpu t ((s.cpu t).resetVcpu (u = t)) with nrSipi := Function.update s.nrSipi t 1 }
  | some (.startup t) =>
    if (s.cpu t).state = .init ∧ s.nrSipi t ≠ 0 then
      { s.setCpu t (((s.cpu t).kickThread (u = t)).launchVcpu (u = t)) with
        nrSipi := Function.update s.nrSipi t (s.nrSipi t - 1) }
    else s
  | some .fatalError => { s with state := .paused }
  | none => s

/-- One step, where the code can take it. A vCPU that has asked for the lock stays in its
handler. -/
def step : LockStep V → Option (VmLockState V)
  | .pcpu v a =>
    if a = .handled ∧ s.op v ≠ none then none
    else ((s.cpu v).step a).map fun c => s.setCpu v c
  | .kickVcpu v here => some (s.setCpu v ((s.cpu v).kickThread here))
  | .spinlockObtain v op =>
    if (s.cpu v).pc = .exited ∧ s.op v = none ∧ op.target? ≠ some bsp then
      some { s with queue := s.queue ++ [v], op := Function.update s.op v (some op) }
    else none
  | .obtained =>
    match s.queue with
    | [] => none
    | u :: _ => if s.todo = none then some { s with todo := some (s.targets vcpus u) } else none
  | .pauseVcpu =>
    match s.queue, s.todo with
    | u :: _, some (w :: todo) =>
      if s.spin = none then some ({ s with todo := some todo }.pauseVcpu u w) else none
    | _, _ => none
  | .notRunning =>
    match s.spin with
    | some w => if (s.cpu w).running = false then some { s with spin := none } else none
    | none => none
  | .spinlockRelease =>
    match s.queue, s.todo with
    | u :: queue, some [] =>
      if s.spin = none then
        some { s.finish u with queue, op := Function.update s.op u none, todo := none }
      else none
    | _, _ => none

/-- The first vCPU is launched, and the others wait for INIT. -/
def start : VmLockState V where
  cpu := fun v => if v = bsp then VcpuCpu.prepared.launchVcpu true else .prepared
  nrSipi := fun _ => 0
  state := .started
  queue := []
  op := fun _ => none
  todo := none
  spin := none

/-- The holder waits for a vCPU that waits for the lock. -/
def Deadlock : Prop := ∃ u queue w, s.queue = u :: queue ∧ s.spin = some w ∧ w ∈ queue

end VmLockState

/-- The runs of a virtual machine that has been started. -/
def lockSystem : System (VmLockState V) (LockStep V) :=
  .ofFun (· = .start bsp) (VmLockState.step vcpus bsp)

/-- No vCPU asks for the lock while one that holds it or waits for it has yet to pause that
vCPU. -/
def AsksApart (s : VmLockState V) : LockStep V → Prop
  | .spinlockObtain v _ => (∀ u ∈ s.queue.head?, v ∉ s.holderTargets vcpus u) ∧
      ∀ u ∈ s.queue.tail, v ∉ s.targets vcpus u
  | _ => True

instance (s : VmLockState V) (a : LockStep V) : Decidable (AsksApart vcpus s a) :=
  match a with
  | .spinlockObtain _ _ => inferInstanceAs (Decidable (_ ∧ _))
  | .pcpu _ _ => .isTrue trivial
  | .kickVcpu _ _ => .isTrue trivial
  | .obtained => .isTrue trivial
  | .pauseVcpu => .isTrue trivial
  | .notRunning => .isTrue trivial
  | .spinlockRelease => .isTrue trivial

/-! ## The steps of the holder

The holder pauses the vCPUs of its operation one after the other. A step of it changes the lock or
one pCPU, and the lemmas say which. -/

namespace VmLockState

variable {vcpus bsp} {s s' : VmLockState V}

/-- The vCPU at the head of the queue obtains the lock and is to work through its targets. -/
theorem step_obtained (h : s.step vcpus bsp .obtained = some s') : ∃ u queue,
    s.queue = u :: queue ∧ s.todo = none ∧ s' = { s with todo := some (s.targets vcpus u) } := by
  rw [step] at h
  split at h
  · cases h
  · next u queue hqueue =>
    obtain ⟨htodo, rfl⟩ := of_guard h
    exact ⟨u, queue, hqueue, htodo, rfl⟩

/-- The holder pauses its next target, and then waits for it to stop running. -/
theorem step_pauseVcpu (h : s.step vcpus bsp .pauseVcpu = some s') : ∃ u queue w todo,
    s.queue = u :: queue ∧ s.todo = some (w :: todo) ∧ s.spin = none ∧
      s' = { s with todo := some todo }.pauseVcpu u w := by
  rw [step] at h
  split at h
  · next u queue w todo hqueue htodo =>
    obtain ⟨hspin, rfl⟩ := of_guard h
    exact ⟨u, queue, w, todo, hqueue, htodo, hspin, rfl⟩
  · cases h

/-- The wait ends when the target no longer runs. -/
theorem step_notRunning (h : s.step vcpus bsp .notRunning = some s') : ∃ w,
    s.spin = some w ∧ (s.cpu w).running = false ∧ s' = { s with spin := none } := by
  rw [step] at h
  split at h
  · next w hspin =>
    obtain ⟨hrun, rfl⟩ := of_guard h
    exact ⟨w, hspin, hrun, rfl⟩
  · cases h

/-- The lock is passed on when all targets are done. -/
theorem step_spinlockRelease (h : s.step vcpus bsp .spinlockRelease = some s') : ∃ u queue,
    s.queue = u :: queue ∧ s.todo = some [] ∧ s.spin = none ∧
      s' = { s.finish u with queue, op := Function.update s.op u none, todo := none } := by
  rw [step] at h
  split at h
  · next u queue hqueue htodo =>
    obtain ⟨hspin, rfl⟩ := of_guard h
    exact ⟨u, queue, hqueue, htodo, hspin, rfl⟩
  · cases h

/-- What `pause_vcpu` leaves of the lock. -/
theorem pauseVcpu_lock (u w : V) : (s.pauseVcpu u w).queue = s.queue ∧
    (s.pauseVcpu u w).op = s.op ∧ (s.pauseVcpu u w).todo = s.todo ∧
    (s.pauseVcpu u w).state = s.state ∧
    ((s.pauseVcpu u w).spin = s.spin ∨ ∀ x ∈ (s.pauseVcpu u w).spin, x = w) := by
  rw [pauseVcpu]
  dsimp only
  split
  · refine ⟨rfl, rfl, rfl, rfl, .inr fun x hx => ?_⟩
    dsimp only at hx
    split at hx
    · cases hx
    · exact (Option.some.inj hx).symm
  split
  · exact ⟨rfl, rfl, rfl, rfl, .inl rfl⟩
  · exact ⟨rfl, rfl, rfl, rfl, .inl rfl⟩

/-- A change that leaves the pCPU where it is. -/
theorem setCpu_pc (s : VmLockState V) {w : V} {c : VcpuCpu} (hc : c.pc = (s.cpu w).pc) (v : V) :
    ((s.setCpu w c).cpu v).pc = (s.cpu v).pc := by
  rw [setCpu]
  dsimp only
  by_cases hv : v = w
  · rw [hv, Function.update_self, hc]
  · rw [Function.update_of_ne hv]

/-- Pausing a vCPU does not move where any vCPU is. -/
theorem pauseVcpu_pc (u w v : V) : ((s.pauseVcpu u w).cpu v).pc = (s.cpu v).pc := by
  rw [pauseVcpu]
  dsimp only
  split
  · refine s.setCpu_pc ?_ v
    rfl
  split
  · refine s.setCpu_pc ?_ v
    rfl
  · rfl

/-- What the end of an operation leaves of the lock. -/
theorem finish_lock (u : V) : (s.finish u).queue = s.queue ∧ (s.finish u).op = s.op ∧
    (s.finish u).todo = s.todo ∧ (s.finish u).spin = s.spin ∧
    ((s.finish u).state = .started → s.state = .started) := by
  rw [finish]
  split
  · exact ⟨rfl, rfl, rfl, rfl, id⟩
  · split
    · exact ⟨rfl, rfl, rfl, rfl, id⟩
    · exact ⟨rfl, rfl, rfl, rfl, id⟩
  · exact ⟨rfl, rfl, rfl, rfl, fun h => (by cases h)⟩
  · exact ⟨rfl, rfl, rfl, rfl, id⟩

theorem finish_pc (u v : V) : ((s.finish u).cpu v).pc = (s.cpu v).pc := by
  rw [finish]
  split
  · refine s.setCpu_pc ?_ v
    rfl
  · split
    · refine s.setCpu_pc ?_ v
      rfl
    · rfl
  · rfl
  · rfl

/-! ## The invariants

The first invariant holds in every run and says where a pCPU in the queue is. `Apart` is the one
that excludes a deadlock: nobody in the queue is to be paused by one before it. -/

/-- Who is in the queue is in its handler, and the holder waits only once it has begun. -/
structure Invariant (s : VmLockState V) : Prop where
  nodup : s.queue.Nodup
  op : ∀ u ∈ s.queue, s.op u ≠ none
  exited : ∀ u ∈ s.queue, (s.cpu u).pc = .exited
  todo : s.spin ≠ none → s.todo ≠ none

/-- At the start the queue is empty. -/
theorem Invariant.start : (VmLockState.start bsp).Invariant :=
  ⟨.nil, fun _ h => absurd h List.not_mem_nil, fun _ h => absurd h List.not_mem_nil,
    fun h => absurd rfl h⟩

omit [DecidableEq V] in
/-- A step that changes only the pCPUs, none of those in the queue. -/
theorem Invariant.of_cpu (h : s.Invariant) {cpu : V → VcpuCpu}
    (hcpu : ∀ u ∈ s.queue, (cpu u).pc = (s.cpu u).pc) : Invariant { s with cpu } :=
  ⟨h.nodup, h.op, fun u hu => (hcpu u hu).trans (h.exited u hu), h.todo⟩

/-- The step lemma for the lock: who is in the queue has an operation, and only the head of it
works. -/
theorem Invariant.step {a : LockStep V} (h : s.Invariant) (hstep : s.step vcpus bsp a = some s') :
    s'.Invariant := by
  cases a with
  | pcpu v a =>
    obtain ⟨hasked, hmap⟩ := Option.ite_none_left_eq_some.mp hstep
    obtain ⟨c, hc, rfl⟩ := Option.map_eq_some_iff.mp hmap
    refine h.of_cpu fun u hu => ?_
    have hne : u ≠ v := by
      rintro rfl
      exact hasked ⟨VcpuCpu.step_exited (h.exited u hu) hc, h.op u hu⟩
    rw [Function.update_of_ne hne]
  | kickVcpu v here =>
    obtain rfl := Option.some.inj hstep
    refine h.of_cpu fun u _ => s.setCpu_pc ?_ u
    rfl
  | spinlockObtain v op =>
    obtain ⟨⟨hexited, hop, -⟩, rfl⟩ := of_guard hstep
    have hv : v ∉ s.queue := fun hv => h.op v hv hop
    refine ⟨?_, fun u hu => ?_, fun u hu => ?_, h.todo⟩
    · exact List.nodup_append.mpr ⟨h.nodup, List.nodup_singleton v, fun u hu w hw =>
        (List.mem_singleton.mp hw) ▸ fun heq => hv (heq ▸ hu)⟩
    · dsimp only
      by_cases heq : u = v
      · rw [heq, Function.update_self]
        exact Option.some_ne_none op
      · rw [Function.update_of_ne heq]
        exact h.op u ((List.mem_append.mp hu).resolve_right fun hw => heq (List.mem_singleton.mp hw))
    · obtain hu | hu := List.mem_append.mp hu
      · exact h.exited u hu
      · exact (List.mem_singleton.mp hu) ▸ hexited
  | obtained =>
    obtain ⟨u, queue, -, -, rfl⟩ := step_obtained hstep
    exact ⟨h.nodup, h.op, h.exited, fun _ => Option.some_ne_none _⟩
  | pauseVcpu =>
    obtain ⟨u, queue, w, todo, -, -, -, rfl⟩ := step_pauseVcpu hstep
    obtain ⟨hqueue, hop, htodo, -, -⟩ := pauseVcpu_lock (s := { s with todo := some todo }) u w
    refine ⟨?_, ?_, fun v hv => ?_, fun _ => htodo ▸ Option.some_ne_none _⟩
    · rw [hqueue]
      exact h.nodup
    · rw [hqueue, hop]
      exact h.op
    · rw [pauseVcpu_pc]
      exact h.exited v (hqueue ▸ hv)
  | notRunning =>
    obtain ⟨w, -, -, rfl⟩ := step_notRunning hstep
    exact ⟨h.nodup, h.op, h.exited, fun hne => absurd rfl hne⟩
  | spinlockRelease =>
    obtain ⟨u, queue, hqueue, -, hspin, rfl⟩ := step_spinlockRelease hstep
    obtain ⟨-, hop, -, hspin', -⟩ := s.finish_lock u
    have hnodup := h.nodup
    rw [hqueue, List.nodup_cons] at hnodup
    have hmem : ∀ v ∈ queue, v ∈ s.queue := fun v hv => hqueue ▸ List.mem_cons_of_mem u hv
    refine ⟨hnodup.2, fun v hv => ?_, fun v hv => ?_, fun hne => ?_⟩
    · have hvu : v ≠ u := fun heq => hnodup.1 (heq ▸ hv)
      dsimp only
      rw [Function.update_of_ne hvu]
      exact h.op v (hmem v hv)
    · exact (s.finish_pc u v).trans (h.exited v (hmem v hv))
    · exact absurd (hspin'.trans hspin) hne

/-- Nobody is to be paused by one that comes before it in the queue. -/
structure Apart (vcpus : List V) (s : VmLockState V) : Prop where
  holder : ∀ u queue, s.queue = u :: queue → ∀ w ∈ queue, w ∉ s.holderTargets vcpus u
  waiters : s.queue.tail.Pairwise fun u w => w ∉ s.targets vcpus u

omit [DecidableEq V] in
/-- Whom an operation pauses never becomes more. -/
theorem targets_subset {u : V} (hop : s'.op u = s.op u)
    (hstate : s'.state = .started → s.state = .started) :
    s'.targets vcpus u ⊆ s.targets vcpus u := by
  rw [targets, targets, hop]
  split
  · exact List.Subset.refl _
  · split
    · next hstarted =>
      rw [if_pos (hstate hstarted)]
      exact List.Subset.refl _
    · exact List.nil_subset _
  · exact List.Subset.refl _

omit [DecidableEq V] in
/-- A step that takes nobody into the queue and gives the holder no more to do. -/
theorem Apart.of_subset (h : s.Apart vcpus) (hqueue : s'.queue = s.queue) (hop : s'.op = s.op)
    (hstate : s'.state = .started → s.state = .started)
    (hholder : ∀ u queue, s.queue = u :: queue →
      s'.holderTargets vcpus u ⊆ s.holderTargets vcpus u) : s'.Apart vcpus := by
  refine ⟨fun u queue hs w hw hpause => ?_, ?_⟩
  · rw [hqueue] at hs
    exact h.holder u queue hs w hw (hholder u queue hs hpause)
  · rw [hqueue]
    exact h.waiters.imp fun hw hpause =>
      hw (targets_subset (congrFun hop _) hstate hpause)

omit [DecidableEq V] in
/-- Whom the holder has still to pause depends on its operation, on who was started and on how far
it is. -/
theorem holderTargets_subset {u : V} (hop : s'.op u = s.op u) (hstate : s'.state = s.state)
    (htodo : s'.todo = s.todo) (hspin : s'.spin = s.spin) :
    s'.holderTargets vcpus u ⊆ s.holderTargets vcpus u := by
  rw [holderTargets, holderTargets, htodo, hspin]
  split
  · exact targets_subset hop (fun hs => hstate ▸ hs)
  · exact List.Subset.refl _

omit [DecidableEq V] in
/-- A step that is none of the lock. -/
theorem Apart.of_holder (h : s.Apart vcpus) (hqueue : s'.queue = s.queue) (hop : s'.op = s.op)
    (hstate : s'.state = s.state) (htodo : s'.todo = s.todo) (hspin : s'.spin = s.spin) :
    s'.Apart vcpus :=
  h.of_subset hqueue hop (fun hs => hstate ▸ hs) fun u _ _ =>
    holderTargets_subset (congrFun hop u) hstate htodo hspin

omit [DecidableEq V] in
/-- A vCPU that nobody in the queue is to pause comes to its end. -/
theorem Apart.append (h : s.Apart vcpus) {v : V} (hqueue : s'.queue = s.queue ++ [v])
    (hop : ∀ u ∈ s.queue, s'.op u = s.op u) (hstate : s'.state = s.state)
    (htodo : s'.todo = s.todo) (hspin : s'.spin = s.spin)
    (hv : (∀ u ∈ s.queue.head?, v ∉ s.holderTargets vcpus u) ∧
      ∀ u ∈ s.queue.tail, v ∉ s.targets vcpus u) : s'.Apart vcpus := by
  cases hs : s.queue with
  | nil =>
    rw [hs, List.nil_append] at hqueue
    refine ⟨fun u queue hu w hw => ?_, ?_⟩
    · obtain ⟨-, rfl⟩ := List.cons.inj (hqueue.symm.trans hu)
      cases hw
    · rw [hqueue]
      exact .nil
  | cons x rest =>
    rw [hs] at hqueue hop hv
    have hrest := h.waiters
    rw [hs, List.tail_cons] at hrest
    have hsub : ∀ u ∈ rest, s'.targets vcpus u ⊆ s.targets vcpus u := fun u hu =>
      targets_subset (hop u (List.mem_cons_of_mem x hu)) (fun hstarted => hstate ▸ hstarted)
    refine ⟨fun u queue hu w hw hpause => ?_, ?_⟩
    · obtain ⟨rfl, rfl⟩ := List.cons.inj (hqueue.symm.trans hu)
      have hold := holderTargets_subset (hop x List.mem_cons_self) hstate htodo hspin hpause
      obtain hw | hw := List.mem_append.mp hw
      · exact h.holder x rest hs w hw hold
      · obtain rfl := List.mem_singleton.mp hw
        exact hv.1 x rfl hold
    · rw [hqueue]
      refine List.pairwise_append.mpr ⟨?_, List.pairwise_singleton _ _, fun u hu w hw hpause => ?_⟩
      · exact hrest.imp_of_mem fun hu _ hfree hpause => hfree (hsub _ hu hpause)
      · obtain rfl := List.mem_singleton.mp hw
        exact hv.2 u hu (hsub u hu hpause)

/-- At the start there is nobody to wait for. -/
theorem Apart.start : (VmLockState.start bsp).Apart vcpus :=
  ⟨fun _ _ h => (by cases h), .nil⟩

/-- If each new operation keeps apart from those that are under way, then they all stay apart. -/
theorem Apart.step {a : LockStep V} (h : s.Apart vcpus) (hinv : s.Invariant)
    (hok : AsksApart vcpus s a) (hstep : s.step vcpus bsp a = some s') : s'.Apart vcpus := by
  cases a with
  | pcpu v a =>
    obtain ⟨-, hmap⟩ := Option.ite_none_left_eq_some.mp hstep
    obtain ⟨c, -, rfl⟩ := Option.map_eq_some_iff.mp hmap
    exact h.of_holder rfl rfl rfl rfl rfl
  | kickVcpu v here =>
    obtain rfl := Option.some.inj hstep
    exact h.of_holder rfl rfl rfl rfl rfl
  | spinlockObtain v op =>
    -- the others' operations stay what they were, since none of them is the new one
    obtain ⟨⟨-, hop, -⟩, rfl⟩ := of_guard hstep
    refine h.append rfl (fun u hu => ?_) rfl rfl rfl hok
    exact Function.update_of_ne (fun heq => hinv.op u hu (by rw [heq, hop])) _ _
  | obtained =>
    obtain ⟨u, queue, hqueue, htodo, rfl⟩ := step_obtained hstep
    refine h.of_subset rfl rfl id fun u' queue' hqueue' => ?_
    obtain ⟨rfl, -⟩ := List.cons.inj (hqueue.symm.trans hqueue')
    have hspin : s.spin = none := by
      by_contra hspin
      exact hinv.todo hspin htodo
    rw [holderTargets, holderTargets, htodo, hspin]
    exact List.Subset.refl _
  | pauseVcpu =>
    obtain ⟨u, queue, w, todo, hqueue, htodo, hspin, rfl⟩ := step_pauseVcpu hstep
    obtain ⟨hqueue', hop, htodo', hstate, hspin'⟩ :=
      pauseVcpu_lock (s := { s with todo := some todo }) u w
    refine h.of_subset hqueue' hop (fun hs => hstate ▸ hs) fun u' queue' _ x hx => ?_
    rw [holderTargets, htodo'] at hx
    rw [holderTargets, htodo, hspin]
    obtain hx | hx := List.mem_append.mp hx
    · rw [Option.mem_toList] at hx
      obtain hsame | hw := hspin'
      · rw [hsame, hspin] at hx
        cases hx
      · exact hw x hx ▸ List.mem_cons_self
    · exact List.mem_cons_of_mem w hx
  | notRunning =>
    obtain ⟨w, hspin, -, rfl⟩ := step_notRunning hstep
    refine h.of_subset rfl rfl id fun u queue _ => ?_
    rw [holderTargets, holderTargets]
    cases s.todo with
    | none => exact List.Subset.refl _
    | some todo => exact List.subset_append_right _ _
  | spinlockRelease =>
    obtain ⟨u, queue, hqueue, -, hspin, rfl⟩ := step_spinlockRelease hstep
    obtain ⟨-, -, -, -, hstate⟩ := s.finish_lock u
    have hnodup := hinv.nodup
    have hwaiters := h.waiters
    rw [hqueue, List.nodup_cons] at hnodup
    rw [hqueue, List.tail_cons] at hwaiters
    have hsub : ∀ v ∈ queue, ({ s.finish u with
        queue, op := Function.update s.op u none, todo := none }).targets vcpus v ⊆
        s.targets vcpus v := fun v hv => targets_subset
      (Function.update_of_ne (fun heq : v = u => hnodup.1 (heq ▸ hv)) _ _) hstate
    refine ⟨fun x rest hs w hw hpause => ?_, ?_⟩
    · obtain rfl : queue = x :: rest := hs
      exact List.rel_of_pairwise_cons hwaiters hw (hsub x List.mem_cons_self hpause)
    · refine (hwaiters.sublist (List.tail_sublist queue)).imp_of_mem fun hx _ hfree hpause => ?_
      exact hfree (hsub _ (List.mem_of_mem_tail hx) hpause)

/-- The deadlock of a holder whose wait has found the flag set. -/
structure Stuck (s : VmLockState V) (u w : V) : Prop where
  holder : s.queue.head? = some u
  spin : s.spin = some w
  waits : w ∈ s.queue.tail
  running : (s.cpu w).running = true

omit [DecidableEq V] in
/-- A holder that waits for a vCPU behind it in the queue is in a deadlock: that vCPU stops running
only when it has had the lock. -/
theorem Stuck.deadlock {u w : V} (h : s.Stuck u w) : s.Deadlock := by
  have hholder := h.holder
  have hwaits := h.waits
  cases hqueue : s.queue with
  | nil =>
    rw [hqueue] at hholder
    cases hholder
  | cons x queue =>
    rw [hqueue] at hwaits
    exact ⟨x, queue, w, hqueue, h.spin, hwaits⟩

/-- Nothing ends it. -/
theorem Stuck.step {u w : V} {a : LockStep V} (h : s.Stuck u w) (hinv : s.Invariant)
    (hstep : s.step vcpus bsp a = some s') : s'.Stuck u w := by
  have hmem : w ∈ s.queue := List.mem_of_mem_tail h.waits
  cases a with
  | pcpu v a =>
    obtain ⟨hasked, hmap⟩ := Option.ite_none_left_eq_some.mp hstep
    obtain ⟨c, hc, rfl⟩ := Option.map_eq_some_iff.mp hmap
    have hne : w ≠ v := by
      rintro rfl
      exact hasked ⟨VcpuCpu.step_exited (hinv.exited w hmem) hc, hinv.op w hmem⟩
    refine ⟨h.holder, h.spin, h.waits, ?_⟩
    show (Function.update s.cpu v c w).running = true
    rw [Function.update_of_ne hne]
    exact h.running
  | kickVcpu v here =>
    obtain rfl := Option.some.inj hstep
    refine ⟨h.holder, h.spin, h.waits, ?_⟩
    rw [setCpu]
    dsimp only
    by_cases hv : w = v
    · rw [hv, Function.update_self, VcpuCpu.kickThread_running, ← hv]
      exact h.running
    · rw [Function.update_of_ne hv]
      exact h.running
  | spinlockObtain v op =>
    obtain ⟨-, rfl⟩ := of_guard hstep
    have hholder := h.holder
    have hwaits := h.waits
    cases hqueue : s.queue with
    | nil =>
      rw [hqueue] at hholder
      cases hholder
    | cons x queue =>
      rw [hqueue] at hholder hwaits
      exact ⟨hholder, h.spin, List.mem_append_left _ hwaits, h.running⟩
  | obtained =>
    obtain ⟨x, queue, -, -, rfl⟩ := step_obtained hstep
    exact ⟨h.holder, h.spin, h.waits, h.running⟩
  | pauseVcpu =>
    obtain ⟨x, queue, v, todo, -, -, hspin, -⟩ := step_pauseVcpu hstep
    exact absurd (h.spin.symm.trans hspin) (Option.some_ne_none w)
  | notRunning =>
    obtain ⟨v, hspin, hrun, -⟩ := step_notRunning hstep
    obtain rfl := Option.some.inj (h.spin.symm.trans hspin)
    rw [h.running] at hrun
    cases hrun
  | spinlockRelease =>
    obtain ⟨x, queue, -, -, hspin, -⟩ := step_spinlockRelease hstep
    exact absurd (h.spin.symm.trans hspin) (Option.some_ne_none w)

end VmLockState

/-! ## Every run -/

/-- **The holder of `vm_lock` never waits for a vCPU that waits for the lock**, with any
number of vCPUs and in every run in which no vCPU asks for the lock while one that has asked
before it is yet to pause it. -/
theorem no_deadlock {s : VmLockState V} (h : Reach (lockSystem vcpus bsp) (AsksApart vcpus) s) :
    ¬ s.Deadlock := by
  have hinv : s.Invariant ∧ s.Apart vcpus := by
    refine h.invariant (P := fun s => s.Invariant ∧ s.Apart vcpus) ?_
      fun s a s' hok hstep hs => ⟨hs.1.step hstep, hs.2.step hs.1 hok hstep⟩
    rintro s rfl
    exact ⟨.start, .start⟩
  rintro ⟨u, queue, w, hqueue, hspin, hw⟩
  refine hinv.2.holder u queue hqueue w hw ?_
  cases htodo : s.todo with
  | none =>
    refine absurd htodo (hinv.1.todo ?_)
    rw [hspin]
    exact Option.some_ne_none w
  | some todo =>
    rw [VmLockState.holderTargets, htodo, hspin]
    exact List.mem_cons_self

/-- The steps from the idle thread into the handler of a VM exit, the first time. -/
def firstExit (v : V) : List (LockStep V) :=
  [.pcpu v .schedule, .pcpu v .switchIn, .pcpu v .noReschedule, .pcpu v (.handleRequests false),
    .pcpu v .entry, .pcpu v (.exit false)]

/-- INIT and a start-up request that `u` sends to a vCPU it does not wait for. -/
def startUp (u t : V) : List (LockStep V) :=
  [.spinlockObtain u (.init t), .obtained, .pauseVcpu, .spinlockRelease,
    .spinlockObtain u (.startup t), .obtained, .spinlockRelease]

/-- The first vCPU resets another one that runs, and waits for it. -/
theorem no_deadlock_init : ∃ s : VmLockState (Fin 2),
    Reach (lockSystem [0, 1] 0) (AsksApart [0, 1]) s ∧ s.queue = [0] ∧ s.spin = some 1 ∧
      ¬ s.Deadlock := by
  have hstart : Reach (lockSystem [0, 1] (0 : Fin 2)) (AsksApart [0, 1]) (.start 0) := .init rfl
  have hreach := hstart.foldlM (firstExit 0 ++ startUp 0 1 ++ firstExit 1 ++
    [.spinlockObtain 0 (.init 1), .obtained, .pauseVcpu]) rfl
  exact ⟨_, hreach, rfl, rfl, no_deadlock _ _ hreach⟩

/-- Two vCPUs send INIT to each other: the first waits for the flag of the second, and the
second for the lock. -/
theorem init_each_other_deadlock : ∃ s : VmLockState (Fin 3),
    Reach (lockSystem [0, 1, 2] 0) any s ∧ s.Deadlock ∧ (s.cpu 2).running = true := by
  have hstart : Reach (lockSystem [0, 1, 2] (0 : Fin 3)) any (.start 0) := .init rfl
  have hreach := hstart.foldlM (firstExit 0 ++ startUp 0 1 ++ startUp 0 2 ++ firstExit 1 ++
    firstExit 2 ++ [.spinlockObtain 1 (.init 2), .spinlockObtain 2 (.init 1), .obtained,
      .pauseVcpu]) rfl
  exact ⟨_, hreach, ⟨1, [2], 2, rfl, rfl, List.mem_singleton_self 2⟩, rfl⟩

end Acrn
