import Acrn.Lib.Transition
import Mathlib.Data.List.Basic
import Mathlib.Logic.Function.Basic

/-!
# Registers behind an index register

A device shows a register that selects and one that transfers, and what a transfer does depends on
what was selected last. An access is a selection and a transfer, two steps, and those who use the
device take a lock around them. Then every access is served once, in the order in which its user
asked for it, and the device and all answers are as if each access had been a single step.
-/

namespace IndexedWindow

open Transition

variable {L E C ι R A D : Type*}

/-- A lock, of which it matters only who is inside. -/
structure Lock (L E C : Type*) where
  system : System L E
  Inside : L → C → Prop
  exclusive : ∀ {l c c'}, Reach system any l → Inside l c → Inside l c' → c = c'

/-- What a request selects, what its transfer does to the device, and what both do as one. -/
structure Window (ι R A D : Type*) where
  select : R → ι → ι
  transfer : ι → R → D → A × D
  serve : R → D → A × D
  transfer_select : ∀ r i d, transfer (select r i) r d = serve r d

/-- A request that was served: who asked for it, and the answer. -/
structure Served (C R A : Type*) where
  user : C
  request : R
  answer : A

/-! ## Single steps -/

namespace Window

variable (window : Window ι R A D)

/-- The device after requests that are served in single steps. -/
def run (d : D) (log : List (Served C R A)) : D :=
  log.foldl (fun d e => (window.serve e.request d).2) d

/-- Every answer is the one that the device has at that point. -/
def Answers (d : D) (log : List (Served C R A)) : Prop :=
  ∀ before e after, log = before ++ e :: after →
    e.answer = (window.serve e.request (window.run d before)).1

variable {window} {d : D} {log : List (Served C R A)}

theorem run_append_singleton (e : Served C R A) :
    window.run d (log ++ [e]) = (window.serve e.request (window.run d log)).2 := by
  rw [run, List.foldl_append]
  rfl

theorem answers_nil : window.Answers d ([] : List (Served C R A)) := by
  intro before e after h
  exact absurd h.symm (List.append_ne_nil_of_right_ne_nil _ (List.cons_ne_nil e after))

theorem Answers.append_singleton (h : window.Answers d log) {e : Served C R A}
    (he : e.answer = (window.serve e.request (window.run d log)).1) :
    window.Answers d (log ++ [e]) := by
  intro before e' after hlog
  obtain rfl | ⟨after, last, rfl⟩ := after.eq_nil_or_concat'
  · -- the last one
    obtain ⟨rfl, hlast⟩ := List.append_inj' hlog rfl
    obtain rfl := (List.cons.inj hlast).1
    exact he
  · rw [← List.cons_append, ← List.append_assoc] at hlog
    obtain ⟨hinit, -⟩ := List.append_inj' hlog rfl
    exact h before e' after hinit

end Window

/-! ## Users

Between its selection and its transfer a user is inside the lock, and so nobody else can write the
index register. This is the whole invariant. -/

/-- The lock, the index register, the device, the request that each user has selected and not
transferred, those that it asked for, and those that were served. -/
structure State (L C ι R A D : Type*) where
  lock : L
  index : ι
  dev : D
  pending : C → Option R
  asked : C → List R
  log : List (Served C R A)

/-- What can happen. -/
inductive Event (E C R : Type*) where
  | lock (e : E)
  | select (c : C) (r : R)
  | transfer (c : C)

section Users

variable [DecidableEq C] (lock : Lock L E C) (window : Window ι R A D)

namespace State

variable (s : State L C ι R A D) (c : C) (r : R)

/-- The index register is written. -/
def select : State L C ι R A D :=
  { s with
    index := window.select r s.index
    pending := Function.update s.pending c (some r)
    asked := Function.update s.asked c (s.asked c ++ [r]) }

/-- The other register is read or written. -/
def transfer : State L C ι R A D :=
  { s with
    dev := (window.transfer s.index r s.dev).2
    pending := Function.update s.pending c none
    log := s.log ++ [⟨c, r, (window.transfer s.index r s.dev).1⟩] }

/-- The requests of a user that were served. -/
def served : List R := (s.log.filter fun e => e.user = c).map Served.request

end State

/-- A step. Nobody leaves the lock between a selection and its transfer. -/
inductive Step (s : State L C ι R A D) : Event E C R → State L C ι R A D → Prop where
  | lock {e : E} {l : L} : lock.system.step s.lock e l →
      (∀ c, s.pending c ≠ none → lock.Inside s.lock c → lock.Inside l c) →
      Step s (.lock e) { s with lock := l }
  | select {c : C} {r : R} : lock.Inside s.lock c → s.pending c = none →
      Step s (.select c r) (s.select window c r)
  | transfer {c : C} {r : R} : lock.Inside s.lock c → s.pending c = some r →
      Step s (.transfer c) (s.transfer window c r)

/-- The runs from a device that nobody has used. -/
def system (d : D) : System (State L C ι R A D) (Event E C R) where
  init s := lock.system.init s.lock ∧ s.dev = d ∧ s.pending = (fun _ => none) ∧
    s.asked = (fun _ => []) ∧ s.log = []
  step := Step lock window

variable {lock window}

/-- Who has selected is inside, and the selection stands. -/
structure Inv (lock : Lock L E C) (window : Window ι R A D) (d : D) (s : State L C ι R A D) :
    Prop where
  reach : Reach lock.system any s.lock
  selected : ∀ {c r}, s.pending c = some r →
    lock.Inside s.lock c ∧ ∃ i, s.index = window.select r i
  dev : s.dev = window.run d s.log
  answers : window.Answers d s.log
  once : ∀ c, s.asked c = s.served c ++ (s.pending c).toList

variable {d : D} {s s' : State L C ι R A D} {e : Event E C R} {c : C} {r : R}

theorem inv_init (h : (system lock window d).init s) : Inv lock window d s := by
  obtain ⟨hlock, hdev, hpending, hasked, hlog⟩ := h
  refine ⟨.init hlock, fun {c r} hc => ?_, ?_, ?_, fun c => ?_⟩
  · rw [hpending] at hc
    cases hc
  · rw [hdev, hlog]
    rfl
  · rw [hlog]
    exact Window.answers_nil
  · rw [hpending, hasked, State.served, hlog]
    rfl

/-- Nobody else has selected, for only one is inside. -/
theorem Inv.select (h : Inv lock window d s) (hin : lock.Inside s.lock c)
    (hnone : s.pending c = none) (r : R) : Inv lock window d (s.select window c r) := by
  refine ⟨h.reach, fun {a q} ha => ?_, h.dev, h.answers, fun a => ?_⟩
  · rw [State.select] at ha ⊢
    dsimp only at ha ⊢
    by_cases hac : a = c
    · subst hac
      rw [Function.update_self] at ha
      obtain rfl := Option.some.inj ha
      exact ⟨hin, s.index, rfl⟩
    · rw [Function.update_of_ne hac] at ha
      exact absurd (lock.exclusive h.reach (h.selected ha).1 hin) hac
  · have honce := h.once a
    rw [State.select]
    by_cases hac : a = c
    · subst hac
      rw [hnone, Option.toList_none, List.append_nil] at honce
      simp only [Function.update_self, Option.toList_some]
      rw [honce]
      rfl
    · simp only [Function.update_of_ne hac]
      exact honce

/-- The transfer goes where its selection says. -/
theorem Inv.transfer (h : Inv lock window d s) (hpending : s.pending c = some r) :
    Inv lock window d (s.transfer window c r) := by
  obtain ⟨-, i, hindex⟩ := h.selected hpending
  have hserve : window.transfer s.index r s.dev = window.serve r (window.run d s.log) := by
    rw [hindex, window.transfer_select, h.dev]
  rw [State.transfer, hserve]
  refine ⟨h.reach, fun {a q} ha => ?_, ?_, ?_, fun a => ?_⟩
  · dsimp only at ha
    by_cases hac : a = c
    · subst hac
      rw [Function.update_self] at ha
      cases ha
    · rw [Function.update_of_ne hac] at ha
      exact h.selected ha
  · exact (Window.run_append_singleton ⟨c, r, _⟩).symm
  · exact h.answers.append_singleton rfl
  · have honce := h.once a
    simp only [State.served, List.filter_append, List.map_append] at honce ⊢
    by_cases hac : a = c
    · subst hac
      rw [hpending] at honce
      rw [honce, Function.update_self]
      simp
    · rw [honce, Function.update_of_ne hac]
      simp [Ne.symm hac]

theorem Inv.step (h : Inv lock window d s) (hstep : Step lock window s e s') :
    Inv lock window d s' := by
  cases hstep with
  | lock hlock hstays =>
    refine ⟨h.reach.step trivial hlock, fun hc => ?_, h.dev, h.answers, h.once⟩
    obtain ⟨hin, hindex⟩ := h.selected hc
    refine ⟨hstays _ (fun hnone => ?_) hin, hindex⟩
    rw [hc] at hnone
    cases hnone
  | select hin hnone => exact h.select hin hnone _
  | transfer _ hpending => exact h.transfer hpending

/-- The users may come to the lock before anyone selects. -/
theorem reach_of_lock {l : L} (i : ι) (h : Reach lock.system any l) :
    Reach (system lock window d) any ⟨l, i, d, fun _ => none, fun _ => [], []⟩ := by
  refine h.invariant (P := fun l => Reach (system lock window d) any
    ⟨l, i, d, fun _ => none, fun _ => [], []⟩) (fun l hinit => ?_) fun l e l' _ hstep hl => ?_
  · exact .init ⟨hinit, rfl, rfl, rfl, rfl⟩
  · exact hl.step trivial (.lock (e := e) hstep fun _ hc => absurd rfl hc)

/-- **Every run**, however the users are interleaved: the device and all answers are as if the
requests had been served one after another in single steps, and each user's are served once and in
order, but for the last one that may be under way. -/
theorem inv_of_reach (hreach : Reach (system lock window d) any s) : Inv lock window d s :=
  hreach.invariant (fun _ => inv_init) fun _ _ _ _ hstep h => h.step hstep

end Users

end IndexedWindow
