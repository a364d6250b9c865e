import Acrn.Lib.FifoLock
import Mathlib.Data.BitVec
import Mathlib.Logic.Function.Basic

/-!
# The ticket spinlock

`spinlock.h`. `spinlock_obtain` takes a ticket by an atomic increment of `head` and waits until
`tail` shows it; `spinlock_release` increments `tail`. Each atomic instruction is a step. The two
counters wrap, while the history of the lock does not: the lock is shown to be a first-come
first-served lock as long as there are fewer CPUs than tickets.
-/

namespace Acrn

open Transition FifoLock

/-- Where a CPU is: it has not called `spinlock_obtain`, compares `tail` with the ticket in `EAX`,
or is between `spinlock_obtain` and `spinlock_release`. -/
inductive SpinPc where
  | outside
  | waiting (ticket : BitVec 32)
  | inside
  deriving DecidableEq

/-- `spinlock_t` and the CPUs `C`; those that took a ticket and those that entered are recorded in
their order. -/
structure SpinLock (C : Type*) where
  head : BitVec 32
  tail : BitVec 32
  pc : C → SpinPc
  arrived : List C
  entered : List C

/-- An atomic instruction of a CPU. -/
inductive SpinStep (C : Type*) where
  /-- `lock xaddl %eax, head`, with 1 in `EAX` -/
  | xadd (c : C)
  /-- `cmpl %eax, tail`, and the jump behind it -/
  | cmp (c : C)
  /-- `lock incl tail` -/
  | incl (c : C)

namespace SpinLock

variable {C : Type*}

/-- `spinlock_init`. -/
def init : SpinLock C where
  head := 0#32
  tail := 0#32
  pc := fun _ => .outside
  arrived := []
  entered := []

variable [DecidableEq C]

/-- The effect of an instruction, where the CPU is at it. -/
def step (s : SpinLock C) : SpinStep C → Option (SpinLock C)
  | .xadd c =>
    match s.pc c with
    | .outside =>
      some
        { s with
          head := s.head + 1#32
          pc := Function.update s.pc c (.waiting s.head)
          arrived := s.arrived ++ [c] }
    | _ => none
  | .cmp c =>
    match s.pc c with
    | .waiting ticket =>
      if ticket = s.tail then
        some { s with pc := Function.update s.pc c .inside, entered := s.entered ++ [c] }
      else some s
    | _ => none
  | .incl c =>
    match s.pc c with
    | .inside => some { s with tail := s.tail + 1#32, pc := Function.update s.pc c .outside }
    | _ => none

end SpinLock

/-- The runs of a lock from its initialisation. -/
def spinSystem (C : Type*) [DecidableEq C] : System (SpinLock C) (SpinStep C) :=
  .ofFun (fun s => s = SpinLock.init) SpinLock.step

/-! ## Tickets -/

/-- The tickets of fewer than `2 ^ 32` arrivals in a row are different. -/
theorem ticket_unique {i j : ℕ} (hle : i ≤ j) (hlt : j < i + 2 ^ 32)
    (h : BitVec.ofNat 32 j = BitVec.ofNat 32 i) : j = i := by
  have hmod : j % 2 ^ 32 = i % 2 ^ 32 := by
    have := congrArg BitVec.toNat h
    rwa [BitVec.toNat_ofNat, BitVec.toNat_ofNat] at this
  omega

theorem ticket_succ (i : ℕ) : BitVec.ofNat 32 i + 1#32 = BitVec.ofNat 32 (i + 1) :=
  (BitVec.ofNat_add i 1).symm

namespace SpinLock

variable {C : Type*} {s s' : SpinLock C} {h : History C} {c : C}

/-! ## The history of the lock

The invariant puts the lock at a point of its history, which the abstract lock has in full. The
counters are that point modulo `2 ^ 32`, and fewer CPUs than tickets can be between the two. -/

/-- The lock is at this point of its history: `head` counts the arrivals and `tail` those that have
left, and the ticket of a waiting CPU is the number of those that came before it. -/
structure At (s : SpinLock C) (h : History C) : Prop where
  arrived : s.arrived = h.arrived
  entered : s.entered = h.entered
  head : s.head = BitVec.ofNat 32 h.arrived.length
  tail : s.tail = BitVec.ofNat 32 h.left
  outside : ∀ {c}, s.pc c = .outside ↔ c ∉ h.pending
  waiting : ∀ {c ticket}, s.pc c = .waiting ticket → ∃ i, h.entered.length ≤ i ∧
    h.arrived[i]? = some c ∧ ticket = BitVec.ofNat 32 i
  inside : ∀ {c}, s.pc c = .inside → h.Inside c

theorem at_init : (init : SpinLock C).At ⟨[], [], 0⟩ where
  arrived := rfl
  entered := rfl
  head := rfl
  tail := rfl
  outside := ⟨fun _ => List.not_mem_nil, fun _ => rfl⟩
  waiting := nofun
  inside := nofun

/-- A ticket that `tail` shows is that of the next one. -/
theorem At.next [Fintype C] (hat : s.At h) (hf : h.Fair) (hcard : Fintype.card C < 2 ^ 32)
    (hpc : s.pc c = .waiting s.tail) :
    h.entered.length = h.left ∧ h.arrived[h.left]? = some c := by
  obtain ⟨i, hle, hi, hticket⟩ := hat.waiting hpc
  rw [hat.tail] at hticket
  have hleft : h.left ≤ i := hf.left_le.trans hle
  have hlt : i < h.left + 2 ^ 32 := by
    have hbound := (List.getElem?_eq_some_iff.mp hi).1
    have hpending := hf.arrived_le
    omega
  obtain rfl : i = h.left := ticket_unique hleft hlt hticket.symm
  exact ⟨Nat.le_antisymm hle hf.left_le, hi⟩

/-- The next one to enter waits with the ticket that `tail` shows. -/
theorem At.oldest (hat : s.At h) (hf : h.Fair) (hfree : ∀ c, s.pc c ≠ .inside)
    (hwait : ∃ c ticket, s.pc c = .waiting ticket) :
    ∃ c, s.arrived[s.entered.length]? = some c ∧ s.pc c = .waiting s.tail := by
  obtain ⟨c, ticket, hc⟩ := hwait
  obtain ⟨i, hle, hi, -⟩ := hat.waiting hc
  have hlt : h.left < h.arrived.length := by
    have hbound := (List.getElem?_eq_some_iff.mp hi).1
    have hleft := hf.left_le
    omega
  obtain ⟨b, hb⟩ : ∃ b, h.arrived[h.left]? = some b :=
    ⟨h.arrived[h.left], List.getElem?_eq_getElem hlt⟩
  have hpending : b ∈ h.pending := History.mem_pending_iff.mpr ⟨h.left, Nat.le_refl _, hb⟩
  cases hpc : s.pc b with
  | outside => exact absurd hpending (hat.outside.mp hpc)
  | inside => exact absurd hpc (hfree b)
  | waiting ticket' =>
    obtain ⟨j, hlej, hj, rfl⟩ := hat.waiting hpc
    have hjleft : j = h.left :=
      hf.index_unique (hf.left_le.trans hlej) (Nat.le_refl _) hj hb
    subst hjleft
    refine ⟨b, ?_, ?_⟩
    · rw [hat.arrived, hat.entered, Nat.le_antisymm hlej hf.left_le]
      exact hb
    · rw [hpc, hat.tail]

variable [DecidableEq C]

theorem xadd_spec (hstep : s.step (.xadd c) = some s') :
    s.pc c = .outside ∧ s' =
      { s with
        head := s.head + 1#32
        pc := Function.update s.pc c (.waiting s.head)
        arrived := s.arrived ++ [c] } := by
  rw [step] at hstep
  split at hstep
  · next hpc => exact ⟨hpc, (Option.some.inj hstep).symm⟩
  · cases hstep

theorem cmp_spec (hstep : s.step (.cmp c) = some s') :
    s' = s ∨ s.pc c = .waiting s.tail ∧
      s' = { s with pc := Function.update s.pc c .inside, entered := s.entered ++ [c] } := by
  rw [step] at hstep
  split at hstep
  · next ticket hpc =>
    by_cases hticket : ticket = s.tail
    · rw [if_pos hticket] at hstep
      exact .inr ⟨hticket ▸ hpc, (Option.some.inj hstep).symm⟩
    · rw [if_neg hticket] at hstep
      exact .inl (Option.some.inj hstep).symm
  · cases hstep

theorem incl_spec (hstep : s.step (.incl c) = some s') :
    s.pc c = .inside ∧
      s' = { s with tail := s.tail + 1#32, pc := Function.update s.pc c .outside } := by
  rw [step] at hstep
  split at hstep
  · next hpc => exact ⟨hpc, (Option.some.inj hstep).symm⟩
  · cases hstep

theorem At.xadd (hat : s.At h) (hf : h.Fair) (hstep : s.step (.xadd c) = some s') :
    Step h (.arrive c) (h.arrive c) ∧ s'.At (h.arrive c) := by
  obtain ⟨hpc, hs'⟩ := xadd_spec hstep
  have hupdate : s'.pc = Function.update s.pc c (.waiting s.head) := by rw [hs']
  have hself : s'.pc c = .waiting s.head := by rw [hupdate, Function.update_self]
  have hother : ∀ {a}, a ≠ c → s'.pc a = s.pc a := fun ha => by
    rw [hupdate, Function.update_of_ne ha]
  have hnew : c ∉ h.pending := hat.outside.mp hpc
  have hpending : (h.arrive c).pending = h.pending ++ [c] :=
    List.drop_append_of_le_length hf.left_le_arrived
  have hkeep : ∀ {i : ℕ} {a : C}, h.arrived[i]? = some a → (h.arrive c).arrived[i]? = some a := by
    intro i a hi
    rw [History.arrive, List.getElem?_append_left (List.getElem?_eq_some_iff.mp hi).1]
    exact hi
  refine ⟨.arrive hnew, ?_⟩
  constructor
  case arrived =>
    rw [hs', hat.arrived]
    rfl
  case entered =>
    rw [hs', hat.entered]
    rfl
  case head =>
    have hhead : s'.head = s.head + 1#32 := by rw [hs']
    rw [hhead, hat.head, ticket_succ, History.arrive, List.length_append, List.length_singleton]
  case tail =>
    rw [hs', hat.tail]
    rfl
  case outside =>
    intro a
    rw [hpending, List.mem_append, List.mem_singleton, not_or]
    by_cases ha : a = c
    · subst ha
      rw [hself]
      exact ⟨nofun, fun hnot => absurd rfl hnot.2⟩
    · rw [hother ha, hat.outside]
      exact ⟨fun hout => ⟨hout, ha⟩, And.left⟩
  case waiting =>
    intro a ticket hwait
    by_cases ha : a = c
    · subst ha
      rw [hself] at hwait
      obtain rfl := SpinPc.waiting.inj hwait
      refine ⟨h.arrived.length, hf.entered_le_arrived, ?_, hat.head⟩
      exact List.getElem?_concat_length
    · rw [hother ha] at hwait
      obtain ⟨i, hle, hi, hticket⟩ := hat.waiting hwait
      exact ⟨i, hle, hkeep hi, hticket⟩
  case inside =>
    intro a hin
    by_cases ha : a = c
    · subst ha
      rw [hself] at hin
      cases hin
    · rw [hother ha] at hin
      exact ⟨(hat.inside hin).1, hkeep (hat.inside hin).2⟩

theorem At.cmp [Fintype C] (hat : s.At h) (hf : h.Fair) (hcard : Fintype.card C < 2 ^ 32)
    (hstep : s.step (.cmp c) = some s') :
    s' = s ∨ Step h (.enter c) (h.enter c) ∧ s'.At (h.enter c) := by
  obtain hsame | ⟨hpc, hs'⟩ := cmp_spec hstep
  · exact .inl hsame
  have hupdate : s'.pc = Function.update s.pc c .inside := by rw [hs']
  have hself : s'.pc c = .inside := by rw [hupdate, Function.update_self]
  have hother : ∀ {a}, a ≠ c → s'.pc a = s.pc a := fun ha => by
    rw [hupdate, Function.update_of_ne ha]
  obtain ⟨hfree, hnext⟩ := hat.next hf hcard hpc
  have hlen : (h.enter c).entered.length = h.left + 1 := by
    rw [History.enter, List.length_append, hfree, List.length_singleton]
  refine .inr ⟨.enter hfree hnext, ?_⟩
  constructor
  case arrived =>
    rw [hs', hat.arrived]
    rfl
  case entered =>
    rw [hs', hat.entered]
    rfl
  case head =>
    rw [hs', hat.head]
    rfl
  case tail =>
    rw [hs', hat.tail]
    rfl
  case outside =>
    intro a
    by_cases ha : a = c
    · subst ha
      rw [hself]
      have hmem : a ∈ h.pending := History.mem_pending_iff.mpr ⟨h.left, Nat.le_refl _, hnext⟩
      exact iff_of_false (by simp) (fun hnot => hnot hmem)
    · rw [hother ha]
      exact hat.outside
  case waiting =>
    intro a ticket hwait
    by_cases ha : a = c
    · subst ha
      rw [hself] at hwait
      simp at hwait
    · rw [hother ha] at hwait
      obtain ⟨i, hle, hi, hticket⟩ := hat.waiting hwait
      -- the next one is the CPU that enters, so this one came later
      have hne : i ≠ h.left := by
        rintro rfl
        exact ha (Option.some.inj (hi.symm.trans hnext))
      exact ⟨i, by omega, hi, hticket⟩
  case inside =>
    intro a hin
    by_cases ha : a = c
    · subst ha
      exact ⟨hlen, hnext⟩
    · rw [hother ha] at hin
      have hheld := (hat.inside hin).1
      omega

theorem At.incl (hat : s.At h) (hf : h.Fair) (hstep : s.step (.incl c) = some s') :
    Step h (.leave c) h.leave ∧ s'.At h.leave := by
  obtain ⟨hpc, hs'⟩ := incl_spec hstep
  have hupdate : s'.pc = Function.update s.pc c .outside := by rw [hs']
  have hself : s'.pc c = .outside := by rw [hupdate, Function.update_self]
  have hother : ∀ {a}, a ≠ c → s'.pc a = s.pc a := fun ha => by
    rw [hupdate, Function.update_of_ne ha]
  have hinside : h.Inside c := hat.inside hpc
  have hpending : h.pending = c :: h.leave.pending := History.pending_eq_cons hinside.2
  have hgone : c ∉ h.leave.pending := by
    have hnodup := hf.nodup
    rw [hpending] at hnodup
    exact (List.nodup_cons.mp hnodup).1
  refine ⟨.leave hinside, ?_⟩
  constructor
  case arrived =>
    rw [hs', hat.arrived]
    rfl
  case entered =>
    rw [hs', hat.entered]
    rfl
  case head =>
    rw [hs', hat.head]
    rfl
  case tail =>
    have htail : s'.tail = s.tail + 1#32 := by rw [hs']
    rw [htail, hat.tail, ticket_succ, History.leave]
  case outside =>
    intro a
    by_cases ha : a = c
    · subst ha
      rw [hself]
      exact ⟨fun _ => hgone, fun _ => rfl⟩
    · rw [hother ha, hat.outside, hpending, List.mem_cons, not_or]
      exact ⟨And.right, fun hnot => ⟨ha, hnot⟩⟩
  case waiting =>
    intro a ticket hwait
    by_cases ha : a = c
    · subst ha
      rw [hself] at hwait
      cases hwait
    · rw [hother ha] at hwait
      exact hat.waiting hwait
  case inside =>
    intro a hin
    by_cases ha : a = c
    · subst ha
      rw [hself] at hin
      cases hin
    · rw [hother ha] at hin
      exact absurd ((hat.inside hin).unique hinside) ha

/-- **The lock is first-come first-served**: each run of it is a run of the abstract lock. -/
theorem at_of_reach [Fintype C] (hcard : Fintype.card C < 2 ^ 32)
    (hreach : Reach (spinSystem C) any s) : ∃ h, Reach (system C) any h ∧ s.At h := by
  refine hreach.invariant (P := fun s => ∃ h, Reach (system C) any h ∧ s.At h)
    (fun s hinit => ?_) fun s a s' _ hstep hs => ?_
  · obtain rfl : s = init := hinit
    exact ⟨_, .init rfl, at_init⟩
  · obtain ⟨h, hrun, hat⟩ := hs
    have hf := History.fair_of_reach hrun
    cases a with
    | xadd c =>
      obtain ⟨harrive, hat'⟩ := hat.xadd hf hstep
      exact ⟨_, hrun.step trivial harrive, hat'⟩
    | cmp c =>
      obtain rfl | ⟨henter, hat'⟩ := hat.cmp hf hcard hstep
      · exact ⟨h, hrun, hat⟩
      · exact ⟨_, hrun.step trivial henter, hat'⟩
    | incl c =>
      obtain ⟨hleave, hat'⟩ := hat.incl hf hstep
      exact ⟨_, hrun.step trivial hleave, hat'⟩

end SpinLock

/-- **The ticket spinlock.** At most one CPU is between `spinlock_obtain` and
`spinlock_release`, the CPUs enter in the order of their tickets, and when the lock is free, the
ticket of the oldest waiting CPU is `tail`. -/
theorem spinlock_exclusive_in_order {C : Type*} [DecidableEq C] [Fintype C] {s : SpinLock C}
    (hcard : Fintype.card C < 2 ^ 32) (hreach : Reach (spinSystem C) any s) :
    (∀ c c', s.pc c = .inside → s.pc c' = .inside → c = c') ∧
    s.entered <+: s.arrived ∧
    ((∀ c, s.pc c ≠ .inside) → (∃ c ticket, s.pc c = .waiting ticket) →
      ∃ c, s.arrived[s.entered.length]? = some c ∧ s.pc c = .waiting s.tail) := by
  obtain ⟨h, hrun, hat⟩ := SpinLock.at_of_reach hcard hreach
  have hf := History.fair_of_reach hrun
  refine ⟨fun c c' hc hc' => (hat.inside hc).unique (hat.inside hc'), ?_, hat.oldest hf⟩
  rw [hat.entered, hat.arrived]
  exact hf.inOrder

/-- Two CPUs: the second one waits while the first one is inside. -/
theorem spinlock_exclusive_in_order_two : ∃ s, Reach (spinSystem (Fin 2)) any s ∧
    s.pc 0 = .inside ∧ s.pc 1 = .waiting 1#32 ∧ s.entered <+: s.arrived := by
  have hinit : Reach (spinSystem (Fin 2)) any SpinLock.init := .init rfl
  obtain ⟨s, hs⟩ : ∃ s : SpinLock (Fin 2), [SpinStep.xadd 0, .xadd 1, .cmp 0, .cmp 1].foldlM
      (guarded any SpinLock.step) SpinLock.init = some s := ⟨_, rfl⟩
  have hreach := hinit.foldlM _ hs
  refine ⟨s, hreach, ?_, ?_, (spinlock_exclusive_in_order (by decide) hreach).2.1⟩
  · obtain rfl := Option.some.inj hs
    rfl
  · obtain rfl := Option.some.inj hs
    rfl

end Acrn
