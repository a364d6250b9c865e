import Mathlib.Logic.Function.Basic

/-!
# Logs of accesses to a store

A store holds one value under each name. A log lists the accesses to it, the earliest first:
values that were got and values that were set. Replaying the log from a store gives the last
value that was set under each name, and otherwise what the store held, and a log is answered
if every value that was got is that one.
-/

namespace AccessLog

variable {ι α : Type*} [DecidableEq ι]

/-- An access to the value under a name. -/
inductive Access (ι α : Type*) where
  | get (i : ι) (a : α)
  | set (i : ι) (a : α)
  deriving DecidableEq

/-- The store after an access. -/
def Access.apply (σ : ι → α) : Access ι α → ι → α
  | get _ _ => σ
  | set i a => Function.update σ i a

/-- The store after all accesses of a log. -/
def replay (σ : ι → α) (log : List (Access ι α)) : ι → α := log.foldl Access.apply σ

/-- **Every get returns the last value set**, or what the store held before the log. -/
def Answered (σ : ι → α) (log : List (Access ι α)) : Prop :=
  ∀ before i a after, log = before ++ .get i a :: after → a = replay σ before i

variable {σ : ι → α} {log log' : List (Access ι α)} {i j : ι} {a : α}

/-! ## Replaying -/

@[simp] theorem replay_nil : replay σ ([] : List (Access ι α)) = σ := rfl

theorem replay_cons (e : Access ι α) : replay σ (e :: log) = replay (e.apply σ) log := rfl

theorem replay_append : replay σ (log ++ log') = replay (replay σ log) log' :=
  List.foldl_append

@[simp] theorem replay_get : replay σ [.get i a] = σ := rfl

@[simp] theorem replay_set : replay σ [.set i a] = Function.update σ i a := rfl

/-- A name that is never set keeps its value. -/
theorem replay_of_forall_not_mem (h : ∀ a, .set i a ∉ log) : replay σ log i = σ i := by
  induction log generalizing σ with
  | nil => rfl
  | cons e log ih =>
    rw [replay_cons, ih fun a ha => h a (List.mem_cons_of_mem _ ha)]
    cases e with
    | get j b => rfl
    | set j b =>
      have hij : i ≠ j := fun hij => h b (hij ▸ List.mem_cons_self)
      exact Function.update_of_ne hij _ _

/-! ## Answers

A log is answered one access after the other, each by the store that the accesses before it
leave. -/

theorem answered_nil : Answered σ ([] : List (Access ι α)) := by
  intro before i a after h
  exact absurd h (by simp)

/-- A log goes on being answered. -/
theorem Answered.append (h : Answered σ log) (h' : Answered (replay σ log) log') :
    Answered σ (log ++ log') := by
  intro before i a after hlog
  rcases List.append_eq_append_iff.mp hlog with ⟨mid, hbefore, hlog'⟩ | ⟨mid, hlog, hafter⟩
  · -- the get stands in the second log
    rw [hbefore, replay_append]
    exact h' mid i a after hlog'
  · cases mid with
    | nil =>
      rw [List.append_nil] at hlog
      have hget := h' [] i a after hafter.symm
      rwa [replay_nil, hlog] at hget
    | cons e mid =>
      obtain ⟨rfl, -⟩ := List.cons.inj hafter
      exact h before i a mid hlog

theorem answered_get (h : a = σ i) : Answered σ [.get i a] := by
  intro before j b after hlog
  cases before with
  | nil =>
    obtain ⟨he, -⟩ := List.cons.inj hlog
    obtain ⟨rfl, rfl⟩ := Access.get.inj he
    exact h
  | cons e before =>
    obtain ⟨-, hnil⟩ := List.cons.inj hlog
    exact absurd hnil (by simp)

/-- Setting values asks for nothing. -/
theorem answered_of_forall_ne (h : ∀ i a, .get i a ∉ log) : Answered σ log := by
  intro before i a after hlog
  exact absurd (hlog ▸ List.mem_append_right _ List.mem_cons_self) (h i a)

end AccessLog
