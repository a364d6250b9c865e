import Acrn.Lib.Transition
import Mathlib.Data.BitVec
import Mathlib.Logic.Function.Basic

/-!
# The schedulers while the pCPUs start up

After `start_pcpus` has set `pcpu_sync` to 0 every pCPU runs `init_sched` for its own
scheduler control block and then `launch_vms`. The first pCPU of a virtual machine calls
`prepare_vcpu` there for vCPUs of other pCPUs, whose control blocks `init_thread_data` uses.
A running virtual machine wakes and kicks its vCPUs on all of them.
-/

namespace Acrn

open Transition

/-! ## The pCPUs

A step of a pCPU is one access to a control block. A call for a thread that runs on another pCPU
accesses the block of that one, under its lock if there is one already. -/

/-- `struct sched_control`, with its ticket lock. The control blocks are zero at first. -/
structure SchedBlock where
  head : BitVec 32
  tail : BitVec 32
  needReschedule : Bool
  /-- the pointer to the scheduler is not NULL -/
  scheduler : Bool
  /-- the private data of the scheduler are there -/
  priv : Bool
  deriving DecidableEq

/-- A control block in the cleared data of the hypervisor. -/
def SchedBlock.cleared : SchedBlock := ⟨0#32, 0#32, false, false, false⟩

/-- Where a pCPU is in `init_sched`. The fields that other pCPUs do not use are left out. -/
inductive InitPc where
  | spinlockInit
  | flags
  | scheduler
  | callInit
  deriving DecidableEq

/-- What a pCPU calls for a thread. -/
inductive ThreadFn where
  | initThreadData
  | wakeThread
  | kickThread
  deriving DecidableEq

/-- Where it is in the call. -/
inductive UsePc where
  /-- before `get_scheduler`, for `init_thread_data` -/
  | getScheduler
  | obtain
  | waiting (ticket : BitVec 32)
  /-- with the lock -/
  | holding
  deriving DecidableEq

/-- A call for a thread of the pCPU `target`. -/
structure SchedUse (P : Type*) where
  target : P
  fn : ThreadFn
  pc : UsePc
  /-- the pointer that `init_thread_data` has read is not NULL -/
  scheduler : Bool

/-- Where a pCPU is in its start-up code. A virtual machine is the list of the pCPUs of its
vCPUs. -/
inductive BootPc (P : Type*) where
  | waitSync
  | initSched (pc : InitPc)
  /-- in `launch_vms`, with the virtual machines to prepare -/
  | launchVms (todo : List (List P))
  /-- in `create_vm`, with the vCPUs to prepare -/
  | prepareVm (vm rest : List P) (todo : List (List P))
  /-- in `run_idle_thread`, or in a vCPU -/
  | running

/-- `init_sched` is over. -/
def BootPc.initialised {P : Type*} : BootPc P → Bool
  | .waitSync => false
  | .initSched _ => false
  | _ => true

/-- All pCPUs. -/
structure BootState (P : Type*) where
  pc : P → BootPc P
  use : P → Option (SchedUse P)
  block : P → SchedBlock
  /-- the virtual machines that have been started -/
  started : List (List P)

/-- The steps of a pCPU. -/
inductive BootStep (P : Type*) where
  | syncChange (p : P)
  | initSched (p : P)
  | prepareVm (p : P)
  | prepareVcpu (p : P)
  | startVm (p : P)
  | runIdleThread (p : P)
  /-- a vCPU of the virtual machine `vm` wakes or kicks another one -/
  | call (p : P) (vm : List P) (q : P) (fn : ThreadFn)
  /-- the call for a thread goes on; with the lock it may make a request to reschedule -/
  | use (p : P) (request : Bool)

variable {P : Type*} [DecidableEq P] (vms : List (List P))

namespace BootState

variable (s : BootState P)

def setPc (p : P) (pc : BootPc P) : BootState P := { s with pc := Function.update s.pc p pc }

def setBlock (q : P) (b : SchedBlock) : BootState P :=
  { s with block := Function.update s.block q b }

def setUse (p : P) (u : Option (SchedUse P)) : BootState P :=
  { s with use := Function.update s.use p u }

/-- The pCPU has completed `init_sched`. -/
def initialised (p : P) : Bool := (s.pc p).initialised

/-- `init_sched`, step by step. -/
def initStep (p : P) : InitPc → BootState P
  | .spinlockInit =>
    (s.setBlock p { s.block p with head := 0#32, tail := 0#32 }).setPc p (.initSched .flags)
  | .flags =>
    (s.setBlock p { s.block p with needReschedule := false }).setPc p (.initSched .scheduler)
  | .scheduler =>
    (s.setBlock p { s.block p with scheduler := true }).setPc p (.initSched .callInit)
  | .callInit =>
    (s.setBlock p { s.block p with priv := true }).setPc p
      (.launchVms (vms.filter fun vm => vm.head? = some p))

/-- A call for a thread, step by step. -/
def useStep (p : P) (u : SchedUse P) (request : Bool) : Option (BootState P) :=
  let b := s.block u.target
  match u.pc with
  | .getScheduler => some (s.setUse p (some { u with pc := .obtain, scheduler := b.scheduler }))
  | .obtain =>
    some ((s.setBlock u.target { b with head := b.head + 1#32 }).setUse p
      (some { u with pc := .waiting b.head }))
  | .waiting ticket =>
    if b.tail = ticket then some (s.setUse p (some { u with pc := .holding })) else none
  | .holding =>
    some ((s.setBlock u.target { b with
      tail := b.tail + 1#32
      needReschedule := b.needReschedule || (request && u.fn ≠ .initThreadData) }).setUse p none)

/-- The first step of a call. -/
def newUse (q : P) (fn : ThreadFn) : SchedUse P where
  target := q
  fn := fn
  pc := if fn = .initThreadData then .getScheduler else .obtain
  scheduler := false

/-- One step, where the code can take it. -/
def step : BootStep P → Option (BootState P)
  | .syncChange p =>
    match s.pc p with
    | .waitSync => some (s.setPc p (.initSched .spinlockInit))
    | _ => none
  | .initSched p =>
    match s.pc p with
    | .initSched pc => some (s.initStep vms p pc)
    | _ => none
  | .prepareVm p =>
    match s.pc p, s.use p with
    | .launchVms (vm :: todo), none => some (s.setPc p (.prepareVm vm vm todo))
    | _, _ => none
  | .prepareVcpu p =>
    match s.pc p, s.use p with
    | .prepareVm vm (q :: rest) todo, none =>
      some ((s.setPc p (.prepareVm vm rest todo)).setUse p (some (newUse q .initThreadData)))
    | _, _ => none
  | .startVm p =>
    match s.pc p, s.use p with
    | .prepareVm vm [] todo, none =>
      some { s.setPc p (.launchVms todo) with started := vm :: s.started }
    | _, _ => none
  | .runIdleThread p =>
    match s.pc p, s.use p with
    | .launchVms [], none => some (s.setPc p .running)
    | _, _ => none
  | .call p vm q fn =>
    if s.initialised p = true ∧ s.use p = none ∧ vm ∈ s.started ∧ p ∈ vm ∧ q ∈ vm ∧
        fn ≠ .initThreadData then
      some (s.setUse p (some (newUse q fn)))
    else none
  | .use p request =>
    match s.use p with
    | some u => s.useStep p u request
    | none => none

/-- The pCPU of the vCPU that is prepared next. -/
def nextVcpu (p : P) : Option P :=
  match s.pc p with
  | .prepareVm _ (q :: _) _ => some q
  | _ => none

/-- When `pcpu_sync` becomes 0. -/
def start : BootState P where
  pc := fun _ => .waitSync
  use := fun _ => none
  block := fun _ => .cleared
  started := []

end BootState

/-- The start-up of all pCPUs. -/
def bootSystem : System (BootState P) (BootStep P) :=
  .ofFun (· = .start) (BootState.step vms)

/-- A vCPU is prepared only when its pCPU has completed `init_sched`. -/
def PreparesLate (s : BootState P) : BootStep P → Prop
  | .prepareVcpu p => ∀ q ∈ s.nextVcpu p, s.initialised q = true
  | _ => True

instance (s : BootState P) (a : BootStep P) : Decidable (PreparesLate s a) :=
  match a with
  | .prepareVcpu p => inferInstanceAs (Decidable (∀ q ∈ s.nextVcpu p, s.initialised q = true))
  | .syncChange _ => .isTrue trivial
  | .initSched _ => .isTrue trivial
  | .prepareVm _ => .isTrue trivial
  | .startVm _ => .isTrue trivial
  | .runIdleThread _ => .isTrue trivial
  | .call _ _ _ _ => .isTrue trivial
  | .use _ _ => .isTrue trivial

/-- A pointer is dereferenced that is NULL: that of the scheduler, or that of its private data
by `sched_noop_wake`. -/
def SchedUse.Faults (u : SchedUse P) (b : SchedBlock) : Prop :=
  u.pc = .holding ∧
    match u.fn with
    | .initThreadData => u.scheduler = false
    | .wakeThread => b.scheduler = false ∨ b.priv = false
    | .kickThread => False

/-! ## The invariant

A pCPU uses the control block of another one to prepare a vCPU of it, or after that. So it is
enough that vCPUs are prepared late, since what has been initialised stays so. -/

namespace BootState

variable {vms} {s s' : BootState P}

/-- The control blocks that are used are those that are initialised. -/
structure Invariant (s : BootState P) : Prop where
  target : ∀ p u, s.use p = some u → s.initialised u.target = true
  pointer : ∀ p u, s.use p = some u → u.fn = .initThreadData → u.pc ≠ .getScheduler →
    u.scheduler = true
  done : ∀ q, s.initialised q = true → (s.block q).scheduler = true ∧ (s.block q).priv = true
  midway : ∀ q, s.pc q = .initSched .callInit → (s.block q).scheduler = true
  untouched : ∀ q, s.initialised q = false →
    (s.block q).head = 0#32 ∧ (s.block q).tail = 0#32 ∧ (s.block q).needReschedule = false
  preparing : ∀ p vm rest todo, s.pc p = .prepareVm vm rest todo →
    ∀ q ∈ vm, q ∈ rest ∨ s.initialised q = true
  started : ∀ vm ∈ s.started, ∀ q ∈ vm, s.initialised q = true

omit [DecidableEq P] in
theorem Invariant.start : (BootState.start : BootState P).Invariant :=
  ⟨fun _ _ h => (by cases h), fun _ _ h => (by cases h), fun _ h => (by cases h),
    fun _ h => (by cases h), fun _ _ => ⟨rfl, rfl, rfl⟩, fun _ _ _ _ h => (by cases h),
    fun _ h => absurd h List.not_mem_nil⟩

/-- A pCPU that goes on keeps what it has initialised. -/
theorem initialised_setPc {p : P} {pc : BootPc P}
    (hpc : s.initialised p = true → pc.initialised = true) {q : P} (hq : s.initialised q = true) :
    (s.setPc p pc).initialised q = true := by
  rw [initialised, setPc]
  dsimp only
  by_cases hqp : q = p
  · rw [hqp, Function.update_self]
    exact hpc (hqp ▸ hq)
  · rw [Function.update_of_ne hqp]
    exact hq

/-- A step after `init_sched`. -/
theorem Invariant.setPc (h : s.Invariant) {p : P} {pc : BootPc P} (hold : s.initialised p = true)
    (hpc : pc.initialised = true) (hprep : ∀ vm rest todo, pc = .prepareVm vm rest todo →
      ∀ q ∈ vm, q ∈ rest ∨ s.initialised q = true) : (s.setPc p pc).Invariant := by
  have hkeep : ∀ q, s.initialised q = true → (s.setPc p pc).initialised q = true :=
    fun q => initialised_setPc fun _ => hpc
  have hback : ∀ q, (s.setPc p pc).initialised q = s.initialised q := by
    intro q
    rw [initialised, BootState.setPc]
    dsimp only
    by_cases hqp : q = p
    · rw [hqp, Function.update_self, hpc, hold]
    · rw [Function.update_of_ne hqp]
      rfl
  refine ⟨fun p' u hu => hkeep _ (h.target p' u hu), h.pointer, fun q hq => ?_, fun q hq => ?_,
    fun q hq => ?_, fun p' vm rest todo hp' q hq => ?_, fun vm hvm q hq =>
      hkeep q (h.started vm hvm q hq)⟩
  · exact h.done q ((hback q).symm.trans hq)
  · rw [BootState.setPc] at hq
    dsimp only at hq
    by_cases hqp : q = p
    · rw [hqp, Function.update_self] at hq
      rw [hq] at hpc
      cases hpc
    · rw [Function.update_of_ne hqp] at hq
      exact h.midway q hq
  · exact h.untouched q ((hback q).symm.trans hq)
  · rw [BootState.setPc] at hp'
    dsimp only at hp'
    by_cases hpp : p' = p
    · rw [hpp, Function.update_self] at hp'
      exact (hprep vm rest todo hp' q hq).imp id (hkeep q)
    · rw [Function.update_of_ne hpp] at hp'
      exact (h.preparing p' vm rest todo hp' q hq).imp id (hkeep q)

/-- A step of a call. -/
theorem Invariant.setUse (h : s.Invariant) {p : P} {u : Option (SchedUse P)}
    (hu : ∀ u', u = some u' → s.initialised u'.target = true ∧
      (u'.fn = .initThreadData → u'.pc ≠ .getScheduler → u'.scheduler = true)) :
    (s.setUse p u).Invariant := by
  have hall : ∀ p' u', (s.setUse p u).use p' = some u' → s.initialised u'.target = true ∧
      (u'.fn = .initThreadData → u'.pc ≠ .getScheduler → u'.scheduler = true) := by
    intro p' u' hu'
    rw [BootState.setUse] at hu'
    dsimp only at hu'
    by_cases hpp : p' = p
    · rw [hpp, Function.update_self] at hu'
      exact hu u' hu'
    · rw [Function.update_of_ne hpp] at hu'
      exact ⟨h.target p' u' hu', h.pointer p' u' hu'⟩
  exact ⟨fun p' u' hu' => (hall p' u' hu').1, fun p' u' hu' => (hall p' u' hu').2, h.done, h.midway,
    h.untouched, h.preparing, h.started⟩

/-- A call changes the lock and the request of a control block that is initialised. -/
theorem Invariant.setBlock (h : s.Invariant) {q : P} {b : SchedBlock}
    (hq : s.initialised q = true) (hscheduler : b.scheduler = (s.block q).scheduler)
    (hpriv : b.priv = (s.block q).priv) : (s.setBlock q b).Invariant := by
  have hblock : ∀ q', (s.setBlock q b).block q' = if q' = q then b else s.block q' := fun q' =>
    Function.update_apply s.block q b q'
  refine ⟨h.target, h.pointer, fun q' hq' => ?_, fun q' hq' => ?_, fun q' hq' => ?_, h.preparing,
    h.started⟩
  · rw [hblock]
    split
    · next heq =>
      rw [hscheduler, hpriv]
      exact h.done q hq
    · exact h.done q' hq'
  · have hne : q' ≠ q := by
      rintro rfl
      have hpc : s.pc q' = .initSched .callInit := hq'
      rw [initialised, hpc] at hq
      cases hq
    rw [hblock, if_neg hne]
    exact h.midway q' hq'
  · have hne : q' ≠ q := by
      rintro rfl
      exact absurd (hq.symm.trans hq') (by decide)
    rw [hblock, if_neg hne]
    exact h.untouched q' hq'

/-- A step before the end of `init_sched`, while nobody uses the control block. -/
theorem Invariant.of_init (h : s.Invariant) {p : P} {pc : BootPc P} {b : SchedBlock}
    (hp : s.initialised p = false) (hspc : s'.pc = Function.update s.pc p pc)
    (hsblock : s'.block = Function.update s.block p b) (hsuse : s'.use = s.use)
    (hsstarted : s'.started = s.started) (hprep : ∀ vm rest todo, pc ≠ .prepareVm vm rest todo)
    (hdone : pc.initialised = true → b.scheduler = true ∧ b.priv = true)
    (hmidway : pc = .initSched .callInit → b.scheduler = true)
    (huntouched : pc.initialised = false →
      b.head = 0#32 ∧ b.tail = 0#32 ∧ b.needReschedule = false) : s'.Invariant := by
  have hpc : ∀ q, s'.pc q = if q = p then pc else s.pc q := fun q => by
    rw [hspc, Function.update_apply]
  have hblock : ∀ q, s'.block q = if q = p then b else s.block q := fun q => by
    rw [hsblock, Function.update_apply]
  have hkeep : ∀ q, s.initialised q = true → s'.initialised q = true := by
    intro q hq
    have hne : q ≠ p := by
      rintro rfl
      exact absurd (hq.symm.trans hp) (by decide)
    rw [initialised, hpc, if_neg hne]
    exact hq
  refine ⟨?_, ?_, fun q hq => ?_, fun q hq => ?_, fun q hq => ?_, fun p' vm rest todo hp' q hq => ?_,
    ?_⟩
  · rw [hsuse]
    exact fun p' u hu => hkeep _ (h.target p' u hu)
  · rw [hsuse]
    exact h.pointer
  · rw [initialised, hpc] at hq
    rw [hblock]
    split at hq
    · next heq =>
      rw [if_pos heq]
      exact hdone hq
    · next hne =>
      rw [if_neg hne]
      exact h.done q hq
  · rw [hpc] at hq
    rw [hblock]
    split at hq
    · next heq =>
      rw [if_pos heq]
      exact hmidway hq
    · next hne =>
      rw [if_neg hne]
      exact h.midway q hq
  · rw [initialised, hpc] at hq
    rw [hblock]
    split at hq
    · next heq =>
      rw [if_pos heq]
      exact huntouched hq
    · next hne =>
      rw [if_neg hne]
      exact h.untouched q hq
  · rw [hpc] at hp'
    split at hp'
    · exact absurd hp' (hprep vm rest todo)
    · exact (h.preparing p' vm rest todo hp' q hq).imp id (hkeep q)
  · rw [hsstarted]
    exact fun vm hvm q hq => hkeep q (h.started vm hvm q hq)

theorem Invariant.initStep (h : s.Invariant) {p : P} {pc : InitPc} (hp : s.pc p = .initSched pc) :
    (s.initStep vms p pc).Invariant := by
  have hinit : s.initialised p = false := by
    rw [initialised, hp]
    rfl
  obtain ⟨hhead, htail, hneed⟩ := h.untouched p hinit
  cases pc with
  | spinlockInit =>
    exact h.of_init hinit rfl rfl rfl rfl (fun _ _ _ hc => (by cases hc)) (fun hc => (by cases hc))
      (fun hc => (by cases hc)) fun _ => ⟨rfl, rfl, hneed⟩
  | flags =>
    exact h.of_init hinit rfl rfl rfl rfl (fun _ _ _ hc => (by cases hc)) (fun hc => (by cases hc))
      (fun hc => (by cases hc)) fun _ => ⟨hhead, htail, rfl⟩
  | scheduler =>
    exact h.of_init hinit rfl rfl rfl rfl (fun _ _ _ hc => (by cases hc)) (fun hc => (by cases hc))
      (fun _ => rfl) fun _ => ⟨hhead, htail, hneed⟩
  | callInit =>
    exact h.of_init hinit rfl rfl rfl rfl (fun _ _ _ hc => (by cases hc))
      (fun _ => ⟨h.midway p hp, rfl⟩) (fun hc => (by cases hc)) (fun hc => (by cases hc))

theorem Invariant.useStep (h : s.Invariant) {p : P} {u : SchedUse P} {request : Bool}
    (hu : s.use p = some u) (hstep : s.useStep p u request = some s') : s'.Invariant := by
  have htarget := h.target p u hu
  rw [BootState.useStep] at hstep
  split at hstep
  · -- the pointer of a control block that is initialised
    obtain rfl := Option.some.inj hstep
    refine h.setUse fun u' hu' => ?_
    obtain rfl := Option.some.inj hu'
    exact ⟨htarget, fun _ _ => (h.done _ htarget).1⟩
  · next hpc =>
    obtain rfl := Option.some.inj hstep
    have hlock : (s.setBlock u.target { s.block u.target with
        head := (s.block u.target).head + 1#32 }).Invariant := h.setBlock htarget rfl rfl
    refine hlock.setUse fun u' hu' => ?_
    obtain rfl := Option.some.inj hu'
    refine ⟨htarget, fun hfn _ => h.pointer p u hu hfn ?_⟩
    rw [hpc]
    decide
  · next ticket hpc =>
    obtain ⟨-, rfl⟩ := of_guard hstep
    refine h.setUse fun u' hu' => ?_
    obtain rfl := Option.some.inj hu'
    refine ⟨htarget, fun hfn _ => h.pointer p u hu hfn ?_⟩
    rw [hpc]
    exact fun hc => (by cases hc)
  · obtain rfl := Option.some.inj hstep
    have hlock : (s.setBlock u.target { s.block u.target with
        tail := (s.block u.target).tail + 1#32
        needReschedule := (s.block u.target).needReschedule ||
          (request && u.fn ≠ .initThreadData) }).Invariant := h.setBlock htarget rfl rfl
    exact hlock.setUse fun u' hu' => (by cases hu')

theorem Invariant.step {a : BootStep P} (h : s.Invariant) (hok : PreparesLate s a)
    (hstep : s.step vms a = some s') : s'.Invariant := by
  cases a with
  | syncChange p =>
    rw [BootState.step] at hstep
    split at hstep
    · next hp =>
      obtain rfl := Option.some.inj hstep
      have hinit : s.initialised p = false := by
        rw [initialised, hp]
        rfl
      exact h.of_init hinit rfl (Function.update_eq_self p s.block).symm rfl rfl
        (fun _ _ _ hc => (by cases hc)) (fun hc => (by cases hc)) (fun hc => (by cases hc))
        fun _ => h.untouched p hinit
    · cases hstep
  | initSched p =>
    rw [BootState.step] at hstep
    split at hstep
    · next pc hp =>
      obtain rfl := Option.some.inj hstep
      exact h.initStep hp
    · cases hstep
  | prepareVm p =>
    rw [BootState.step] at hstep
    split at hstep
    · next vm todo hp huse =>
      obtain rfl := Option.some.inj hstep
      refine h.setPc (by rw [initialised, hp]; rfl) rfl fun vm' rest todo' heq q hq => ?_
      obtain ⟨rfl, rfl, -⟩ := BootPc.prepareVm.inj heq
      exact .inl hq
    · cases hstep
  | prepareVcpu p =>
    rw [BootState.step] at hstep
    split at hstep
    · next vm q rest todo hp huse =>
      obtain rfl := Option.some.inj hstep
      have hq : s.initialised q = true := hok q (by rw [nextVcpu, hp]; rfl)
      have hnext : (s.setPc p (.prepareVm vm rest todo)).Invariant := by
        refine h.setPc (by rw [initialised, hp]; rfl) rfl fun vm' rest' todo' heq x hx => ?_
        obtain ⟨rfl, rfl, -⟩ := BootPc.prepareVm.inj heq
        obtain hx | hx := h.preparing p _ _ _ hp x hx
        · obtain rfl | hx := List.mem_cons.mp hx
          · exact .inr hq
          · exact .inl hx
        · exact .inr hx
      refine hnext.setUse fun u hu => ?_
      obtain rfl := Option.some.inj hu
      exact ⟨initialised_setPc (fun _ => rfl) hq, fun _ hpc => absurd rfl hpc⟩
    · cases hstep
  | startVm p =>
    rw [BootState.step] at hstep
    split at hstep
    · next vm todo hp huse =>
      obtain rfl := Option.some.inj hstep
      have hnext : (s.setPc p (.launchVms todo)).Invariant :=
        h.setPc (by rw [initialised, hp]; rfl) rfl fun _ _ _ heq => (by cases heq)
      refine ⟨hnext.target, hnext.pointer, hnext.done, hnext.midway, hnext.untouched, hnext.preparing,
        fun vm' hvm' q hq => ?_⟩
      obtain rfl | hvm' := List.mem_cons.mp hvm'
      · have hq' := (h.preparing p _ _ _ hp q hq).resolve_left List.not_mem_nil
        exact initialised_setPc (fun _ => rfl) hq'
      · exact hnext.started vm' hvm' q hq
    · cases hstep
  | runIdleThread p =>
    rw [BootState.step] at hstep
    split at hstep
    · next hp huse =>
      obtain rfl := Option.some.inj hstep
      exact h.setPc (by rw [initialised, hp]; rfl) rfl fun _ _ _ heq => (by cases heq)
    · cases hstep
  | call p vm q fn =>
    obtain ⟨⟨-, -, hvm, -, hq, hfn⟩, rfl⟩ := of_guard hstep
    refine h.setUse fun u hu => ?_
    obtain rfl := Option.some.inj hu
    exact ⟨h.started vm hvm q hq, fun hfn' => absurd hfn' hfn⟩
  | use p request =>
    rw [BootState.step] at hstep
    split at hstep
    · next u hu => exact h.useStep hu hstep
    · cases hstep

end BootState

/-! ## Every run -/

/-- **A scheduler is initialised before it is used**, and not while it is, with any number of
pCPUs, for all virtual machines and in every run in which no vCPU is prepared before its pCPU
has completed `init_sched`. No NULL pointer is dereferenced, and `init_sched` finds the lock
free and no request to erase. -/
theorem sched_initialised_before_use {s : BootState P}
    (h : Reach (bootSystem vms) PreparesLate s) :
    (∀ p u, s.use p = some u →
      s.initialised u.target = true ∧ ¬ u.Faults (s.block u.target)) ∧
    ∀ q s', s.step vms (.initSched q) = some s' →
      (∀ p u, s.use p = some u → u.target ≠ q) ∧ (s.block q).head = 0#32 ∧
        (s.block q).tail = 0#32 ∧ (s.block q).needReschedule = false := by
  have hinv : s.Invariant := by
    refine h.invariant ?_ fun s a s' hok hstep hs => hs.step hok hstep
    rintro s rfl
    exact .start
  refine ⟨fun p u hu => ⟨hinv.target p u hu, ?_⟩, fun q s' hstep => ?_⟩
  · rintro ⟨hpc, hnull⟩
    obtain ⟨hscheduler, hpriv⟩ := hinv.done _ (hinv.target p u hu)
    cases hfn : u.fn with
    | initThreadData =>
      have hread := hinv.pointer p u hu hfn (by rw [hpc]; decide)
      rw [hfn] at hnull
      exact absurd (hread.symm.trans hnull) (by decide)
    | wakeThread =>
      rw [hfn] at hnull
      obtain hnull | hnull := hnull
      · exact absurd (hscheduler.symm.trans hnull) (by decide)
      · exact absurd (hpriv.symm.trans hnull) (by decide)
    | kickThread =>
      rw [hfn] at hnull
      exact hnull
  · have hq : s.initialised q = false := by
      rw [BootState.step] at hstep
      split at hstep
      · next pc hpc =>
        rw [BootState.initialised, hpc]
        rfl
      · cases hstep
    refine ⟨fun p u hu heq => ?_, hinv.untouched q hq⟩
    have htarget := hinv.target p u hu
    rw [heq] at htarget
    exact absurd (htarget.symm.trans hq) (by decide)

/-- `init_sched` on one pCPU. -/
def initSteps (p : P) : List (BootStep P) := .syncChange p :: List.replicate 4 (.initSched p)

/-- The first pCPU uses the scheduler of the second one for the first time. -/
theorem sched_initialised_before_use_first : ∃ (s : BootState Bool) (u : SchedUse Bool),
    Reach (bootSystem [[false, true]]) PreparesLate s ∧ s.use false = some u ∧
      u.target = true ∧ u.pc = .holding ∧ s.initialised true = true ∧
      ¬ u.Faults (s.block true) := by
  have hstart : Reach (bootSystem [[false, true]]) PreparesLate (.start : BootState Bool) := .init rfl
  have hreach := hstart.foldlM (initSteps false ++ initSteps true ++ [.prepareVm false,
    .prepareVcpu false] ++ List.replicate 4 (.use false false) ++ [.prepareVcpu false] ++
    List.replicate 3 (.use false false)) rfl
  obtain ⟨hinit, hsound⟩ := (sched_initialised_before_use _ hreach).1 false _ rfl
  exact ⟨_, _, hreach, rfl, rfl, rfl, hinit, hsound⟩

/-- The first pCPU prepares a vCPU of the second one, which is still in `wait_sync_change` or
in `init_sched`: the pointer to the scheduler is NULL, and in the other run the lock that is
held is reset and never free again. -/
theorem sched_used_before_initialised :
    (∃ (s : BootState Bool) (u : SchedUse Bool), Reach (bootSystem [[false, true]]) any s ∧
      s.use false = some u ∧ u.target = true ∧ u.Faults (s.block true)) ∧
    ∃ s : BootState Bool, Reach (bootSystem [[false, true]]) any s ∧
      (∀ p, s.use p = none) ∧ s.initialised true = true ∧
      (s.block true).head ≠ (s.block true).tail := by
  have hstart : Reach (bootSystem [[false, true]]) any (.start : BootState Bool) := .init rfl
  have hreach := hstart.foldlM (initSteps false ++ [.prepareVm false,
    .prepareVcpu false] ++ List.replicate 4 (.use false false) ++ [.prepareVcpu false] ++
    List.replicate 3 (.use false false)) rfl
  have hreset := hreach.foldlM (initSteps true ++ [.use false false]) rfl
  exact ⟨⟨_, _, hreach, rfl, rfl, rfl, rfl⟩, _, hreset, fun p => (by cases p <;> rfl), rfl,
    by decide⟩

end Acrn
