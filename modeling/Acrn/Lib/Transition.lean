import Mathlib.Logic.Basic

/-!
# Transition systems

Runs of a system from its initial states, of which some steps may be left out, and
the invariant rule: what holds at the start and survives every step holds in every
state a run reaches.
-/

namespace Transition

variable {σ α : Type*}

/-- A system with labelled steps. -/
structure System (σ α : Type*) where
  init : σ → Prop
  step : σ → α → σ → Prop

/-- The states that `T` reaches by steps that meet `Ok`. -/
inductive Reach (T : System σ α) (Ok : σ → α → Prop) : σ → Prop where
  | init {s : σ} : T.init s → Reach T Ok s
  | step {s s' : σ} {a : α} : Reach T Ok s → Ok s a → T.step s a s' → Reach T Ok s'

/-- Every step is allowed. -/
def any (_ : σ) (_ : α) : Prop := True

instance (s : σ) (a : α) : Decidable (any s a) := inferInstanceAs (Decidable True)

variable {T : System σ α} {Ok Ok' : σ → α → Prop} {s : σ}

/-- **The invariant rule.** -/
theorem Reach.invariant {P : σ → Prop} (hinit : ∀ s, T.init s → P s)
    (hstep : ∀ s a s', Ok s a → T.step s a s' → P s → P s') (h : Reach T Ok s) : P s := by
  induction h with
  | init hi => exact hinit _ hi
  | step _ hok hs ih => exact hstep _ _ _ hok hs ih

/-- Runs of allowed steps are runs. -/
theorem Reach.mono (h : Reach T Ok s) (hle : ∀ s a, Ok s a → Ok' s a) : Reach T Ok' s := by
  induction h with
  | init hi => exact .init hi
  | step _ hok hs ih => exact ih.step (hle _ _ hok) hs

/-! ## Runs from a state on

A preorder that every step respects relates the first state of a run to the last one. The invariant
may be needed for that, and is carried along. -/

/-- The system that begins in a given state. -/
def System.startAt (T : System σ α) (s : σ) : System σ α where
  init := (· = s)
  step := T.step

/-- **The unwinding rule.** What every step respects under an invariant, a run respects. -/
theorem Reach.respects {P : σ → Prop} {R : σ → σ → Prop} {s' : σ} (hrefl : ∀ s, R s s)
    (htrans : ∀ {s s₁ s'}, R s s₁ → R s₁ s' → R s s')
    (hstep : ∀ s a s', P s → Ok s a → T.step s a s' → P s' ∧ R s s') (hs : P s)
    (h : Reach (T.startAt s) Ok s') : P s' ∧ R s s' := by
  refine h.invariant (P := fun s' => P s' ∧ R s s') ?_ fun s₁ a s' hok hstep' ih => ?_
  · rintro _ rfl
    exact ⟨hs, hrefl _⟩
  · obtain ⟨hp, hr⟩ := hstep s₁ a s' ih.1 hok hstep'
    exact ⟨hp, htrans ih.2 hr⟩

/-! ## Simulations

Both systems have the same labels, so that a run is matched event by event. -/

/-- A run with its labels. -/
inductive Run (T : System σ α) (s : σ) : List α → σ → Prop where
  | nil : Run T s [] s
  | step {s₁ s' : σ} {a : α} {as : List α} : Run T s as s₁ → T.step s₁ a s' → Run T s (as ++ [a]) s'

section
variable {τ : Type*} {U : System τ α} {R : σ → τ → Prop}

/-- Each step of the one system is one of the other, with the same label. -/
def Simulates (T : System σ α) (U : System τ α) (R : σ → τ → Prop) : Prop :=
  ∀ s t a s', R s t → T.step s a s' → ∃ t', U.step t a t' ∧ R s' t'

/-- **The simulation rule.** -/
theorem Simulates.run {t : τ} {s' : σ} {as : List α} (hsim : Simulates T U R) (hR : R s t)
    (h : Run T s as s') : ∃ t', Run U t as t' ∧ R s' t' := by
  induction h with
  | nil => exact ⟨t, .nil, hR⟩
  | step _ hstep ih =>
    obtain ⟨t₁, hrun, hR₁⟩ := ih
    obtain ⟨t', hstep', hR'⟩ := hsim _ _ _ _ hR₁ hstep
    exact ⟨t', hrun.step hstep', hR'⟩

end

/-! ## Systems of a step function -/

/-- The system in which a step function says what each label does, where it is enabled. -/
def System.ofFun (init : σ → Prop) (f : σ → α → Option σ) : System σ α where
  init := init
  step s a s' := f s a = some s'

/-- A step that is taken under a condition. -/
theorem of_guard {p : Prop} [Decidable p] {s₁ s' : σ}
    (h : (if p then some s₁ else none) = some s') : p ∧ s₁ = s' := by
  obtain ⟨hp, hs⟩ := Option.ite_none_right_eq_some.mp h
  exact ⟨hp, Option.some.inj hs⟩

/-- A step that has to be allowed as well. -/
def guarded (Ok : σ → α → Prop) [∀ s a, Decidable (Ok s a)] (f : σ → α → Option σ) (s : σ) (a : α) :
    Option σ := if Ok s a then f s a else none

/-- A sequence of allowed steps is a run. -/
theorem Reach.foldlM [∀ s a, Decidable (Ok s a)] {init : σ → Prop} {f : σ → α → Option σ} {s' : σ}
    (h : Reach (System.ofFun init f) Ok s) (as : List α)
    (hrun : as.foldlM (guarded Ok f) s = some s') : Reach (System.ofFun init f) Ok s' := by
  induction as generalizing s with
  | nil =>
    obtain rfl : s = s' := Option.some.inj hrun
    exact h
  | cons a as ih =>
    rw [List.foldlM_cons] at hrun
    obtain ⟨s₁, hs₁, hrest⟩ := Option.bind_eq_some_iff.mp hrun
    rw [guarded] at hs₁
    split at hs₁
    · next hok => exact ih (h.step hok hs₁) hrest
    · cases hs₁

end Transition
