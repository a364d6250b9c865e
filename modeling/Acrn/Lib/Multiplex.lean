import Acrn.Lib.Transition
import Mathlib.Logic.Function.Basic

/-!
# Registers that clients share

Clients take turns at the registers of a device. When one is switched out, what it has in the
registers is saved in an area of its own, and when it is switched in again, the registers are
restored from there. To each client this is to look as if it had registers of its own.
-/

namespace Multiplex

open Transition

variable {T R A F L M : Type*}

/-- What happens: the client that has its turn uses the registers, something is done to the
area of a client, a client is created, or the turn changes. -/
inductive Event (T L M : Type*) where
  | client (l : L)
  | touch (t : T) (u : M)
  | create (t : T)
  | switch (next : Option T)

theorem update_ne_none [DecidableEq T] {areas : T → Option A} {t t' : T} {a : A}
    (h : areas t ≠ none) : Function.update areas t' (some a) t ≠ none := by
  by_cases ht : t = t'
  · rw [ht, Function.update_self]
    exact Option.some_ne_none a
  · rwa [Function.update_of_ne ht]

/-! ## Shared registers

A device says what its clients can do to the registers, and how an area is filled and read. Saving
and restoring may fail, and then there is no step. -/

/-- The shared registers `R`, and the areas `A`. -/
structure Device (T R A L M : Type*) where
  client : R → L → R → Prop
  touch : M → A → A
  fresh : A
  save : T → R → A → Option (R × A)
  restore : T → A → R → Option R

@[ext]
structure Shared (T R A : Type*) where
  regs : R
  areas : T → Option A
  /-- whose turn it is -/
  curr : Option T

namespace Device

variable [DecidableEq T] (D : Device T R A L M)

/-- The client that has its turn is switched out. -/
def switchOut (s : Shared T R A) : Option (Shared T R A) :=
  match s.curr with
  | none => some s
  | some t => (s.areas t).bind fun a => (D.save t s.regs a).map fun saved =>
    { s with regs := saved.1, areas := Function.update s.areas t (some saved.2) }

/-- The next one is switched in. -/
def switchIn (next : Option T) (s : Shared T R A) : Option (Shared T R A) :=
  match next with
  | none => some { s with curr := none }
  | some t => (s.areas t).bind fun a => (D.restore t a s.regs).map fun r =>
    { s with regs := r, curr := some t }

/-- The steps. -/
inductive Step : Shared T R A → Event T L M → Shared T R A → Prop where
  | client {s : Shared T R A} (t : T) (l : L) (r : R) : s.curr = some t → D.client s.regs l r →
      Step s (.client l) { s with regs := r }
  | touch {s : Shared T R A} (t : T) (u : M) (a : A) : s.areas t = some a →
      Step s (.touch t u) { s with areas := Function.update s.areas t (some (D.touch u a)) }
  | create {s : Shared T R A} (t : T) : s.curr ≠ some t →
      Step s (.create t) { s with areas := Function.update s.areas t (some D.fresh) }
  | switch {s s₁ s' : Shared T R A} (next : Option T) : s.curr ≠ next → D.switchOut s = some s₁ →
      D.switchIn next s₁ = some s' → Step s (.switch next) s'

variable {D} {s s' : Shared T R A} {a : Event T L M} {t : T} {next : Option T}

theorem Step.curr_switch (h : D.Step s (.switch next) s') : s'.curr = next := by
  cases h with
  | switch _ hne hout hin =>
    cases next with
    | none => exact Option.some.inj hin ▸ rfl
    | some t =>
      obtain ⟨a, -, hrestore⟩ := Option.bind_eq_some_iff.mp hin
      obtain ⟨r, -, rfl⟩ := Option.map_eq_some_iff.mp hrestore
      rfl

theorem switchOut_areas (h : D.switchOut s = some s') (ht : s.areas t ≠ none) :
    s'.areas t ≠ none := by
  rw [switchOut] at h
  split at h
  · exact Option.some.inj h ▸ ht
  · next t' _ =>
    obtain ⟨a, -, hsave⟩ := Option.bind_eq_some_iff.mp h
    obtain ⟨saved, -, rfl⟩ := Option.map_eq_some_iff.mp hsave
    exact update_ne_none ht

omit [DecidableEq T] in
theorem switchIn_areas (h : D.switchIn next s = some s') : s'.areas = s.areas := by
  cases next with
  | none => exact Option.some.inj h ▸ rfl
  | some t =>
    obtain ⟨a, -, hrestore⟩ := Option.bind_eq_some_iff.mp h
    obtain ⟨r, -, rfl⟩ := Option.map_eq_some_iff.mp hrestore
    rfl

/-- A client stays. -/
theorem Step.created (h : D.Step s a s') (ht : s.areas t ≠ none) : s'.areas t ≠ none := by
  cases h with
  | client => exact ht
  | touch => exact update_ne_none ht
  | create => exact update_ne_none ht
  | switch next _ hout hin => exact switchIn_areas hin ▸ switchOut_areas hout ht

variable (D)

/-- The clients begin when it is the turn of none. -/
def system : System (Shared T R A) (Event T L M) where
  init s := s.curr = none ∧ ∀ t, s.areas t = none
  step := D.Step

end Device

/-! ## Registers of its own -/

/-- A file `F` of registers for each client. -/
structure Own (F L M : Type*) where
  client : F → L → F → Prop
  touch : M → F → F
  fresh : F

@[ext]
structure Files (T F : Type*) where
  files : T → Option F
  curr : Option T

namespace Own

variable [DecidableEq T] (P : Own F L M)

/-- The steps. What is done to the area of a client that has its turn is lost. -/
inductive Step : Files T F → Event T L M → Files T F → Prop where
  | client {p : Files T F} (t : T) (l : L) (f f' : F) : p.curr = some t → p.files t = some f →
      P.client f l f' → Step p (.client l) { p with files := Function.update p.files t (some f') }
  | touch {p : Files T F} (t : T) (u : M) (f : F) : p.curr ≠ some t → p.files t = some f →
      Step p (.touch t u) { p with files := Function.update p.files t (some (P.touch u f)) }
  | touchCurr {p : Files T F} (t : T) (u : M) : p.curr = some t → Step p (.touch t u) p
  | create {p : Files T F} (t : T) : p.curr ≠ some t →
      Step p (.create t) { p with files := Function.update p.files t (some P.fresh) }
  | switch {p : Files T F} (next : Option T) : p.curr ≠ next →
      (∀ t, next = some t → p.files t ≠ none) → Step p (.switch next) { p with curr := next }

def system : System (Files T F) (Event T L M) where
  init p := p.curr = none ∧ ∀ t, p.files t = none
  step := P.Step

end Own

/-! ## The simulation

A client's file is what the registers show while it has its turn, and what its area holds while
another one has. `Implements` has the laws that this needs of the device. -/

/-- What a client sees in the registers, what an area holds, and how the registers are with the
area of the client that has its turn. -/
structure Views (T R A F : Type*) where
  view : R → F
  Ready : R → Prop
  Holds : A → F → Prop
  Live : T → R → A → Prop

/-- The laws of saving and restoring. -/
structure Implements (D : Device T R A L M) (P : Own F L M) (V : Views T R A F) : Prop where
  fresh : V.Holds D.fresh P.fresh
  touch : ∀ u a f, V.Holds a f → V.Holds (D.touch u a) (P.touch u f)
  touchLive : ∀ t u r a, V.Live t r a → V.Live t r (D.touch u a)
  client : ∀ t r a l r', V.Ready r → V.Live t r a → D.client r l r' →
    P.client (V.view r) l (V.view r') ∧ V.Ready r' ∧ V.Live t r' a
  save : ∀ t r a, V.Ready r → V.Live t r a →
    ∃ r' a', D.save t r a = some (r', a') ∧ V.Ready r' ∧ V.Holds a' (V.view r)
  restore : ∀ t a f r, V.Ready r → V.Holds a f →
    ∃ r', D.restore t a r = some r' ∧ V.Ready r' ∧ V.Live t r' a ∧ V.view r' = f

theorem rel_mono {α β : Type*} {r r' : α → β → Prop} {x : Option α} {y : Option β}
    (h : Option.Rel r x y) (hle : ∀ a b, r a b → r' a b) : Option.Rel r' x y := by
  cases h with
  | none => exact .none
  | some hr => exact .some (hle _ _ hr)

namespace Views

variable [DecidableEq T]

/-- How the area of a client is with its file. -/
def Agrees (V : Views T R A F) (regs : R) (curr : Option T) (t : T) (a : A) (f : F) : Prop :=
  if curr = some t then V.view regs = f ∧ V.Live t regs a else V.Holds a f

/-- How the shared registers and the areas are with the files. -/
structure Rel (V : Views T R A F) (s : Shared T R A) (p : Files T F) : Prop where
  curr : s.curr = p.curr
  ready : V.Ready s.regs
  created : ∀ t, s.curr = some t → s.areas t ≠ none
  agrees : ∀ t, Option.Rel (V.Agrees s.regs s.curr t) (s.areas t) (p.files t)

variable {V : Views T R A F} {s : Shared T R A} {p : Files T F} {t : T} {a : A} {f : F}

theorem agrees_curr {regs : R} : V.Agrees regs (some t) t a f ↔ V.view regs = f ∧ V.Live t regs a := by
  rw [Agrees, if_pos rfl]

theorem agrees_of_ne {regs : R} {curr : Option T} (ht : curr ≠ some t) :
    V.Agrees regs curr t a f ↔ V.Holds a f := by
  rw [Agrees, if_neg ht]

theorem Rel.area (h : V.Rel s p) (ha : s.areas t = some a) :
    ∃ f, p.files t = some f ∧ V.Agrees s.regs s.curr t a f := by
  have hrel := h.agrees t
  rw [ha] at hrel
  cases hf : p.files t with
  | none => rw [hf] at hrel; cases hrel
  | some f =>
    rw [hf] at hrel
    cases hrel with
    | some hagrees => exact ⟨f, rfl, hagrees⟩

/-- The client that has its turn sees its file. -/
theorem Rel.view (h : V.Rel s p) (ht : s.curr = some t) :
    ∃ a, s.areas t = some a ∧ p.files t = some (V.view s.regs) ∧ V.Live t s.regs a := by
  obtain ⟨a, ha⟩ := Option.ne_none_iff_exists'.mp (h.created t ht)
  obtain ⟨f, hf, hagrees⟩ := h.area ha
  rw [ht] at hagrees
  obtain ⟨hview, hlive⟩ := agrees_curr.mp hagrees
  exact ⟨a, ha, hview.symm ▸ hf, hlive⟩

/-- The area of another client holds its file. -/
theorem Rel.holds (h : V.Rel s p) (ht : s.curr ≠ some t) :
    Option.Rel V.Holds (s.areas t) (p.files t) :=
  rel_mono (h.agrees t) fun _ _ => (agrees_of_ne ht).mp

/-- It is the turn of no client. -/
theorem rel_idle {regs : R} {areas : T → Option A} {files : T → Option F} (hready : V.Ready regs)
    (h : ∀ t, Option.Rel V.Holds (areas t) (files t)) :
    V.Rel ⟨regs, areas, none⟩ ⟨files, none⟩ where
  curr := rfl
  ready := hready
  created _ h := nomatch h
  agrees t := rel_mono (h t) fun _ _ => (agrees_of_ne (Option.some_ne_none t).symm).mpr

end Views

section
variable [DecidableEq T] {D : Device T R A L M} {P : Own F L M} {V : Views T R A F}
  {s s₁ : Shared T R A} {p : Files T F} {next : Option T}

/-- An area and its file change together. -/
theorem rel_update {areas : T → Option A} {files : T → Option F} {B : T → A → F → Prop} {t : T}
    {a : A} {f : F} (hother : ∀ t', t' ≠ t → Option.Rel (B t') (areas t') (files t'))
    (hself : B t a f) (t' : T) : Option.Rel (B t') (Function.update areas t (some a) t')
      (Function.update files t (some f) t') := by
  by_cases ht : t' = t
  · subst ht
    rw [Function.update_self, Function.update_self]
    exact .some hself
  · rw [Function.update_of_ne ht, Function.update_of_ne ht]
    exact hother t' ht

/-- A client is switched out. -/
theorem Implements.switchOut (hi : Implements D P V) (h : V.Rel s p) :
    ∃ s₁, D.switchOut s = some s₁ ∧ V.Ready s₁.regs ∧
      ∀ t, Option.Rel V.Holds (s₁.areas t) (p.files t) := by
  cases hc : s.curr with
  | none =>
    refine ⟨s, ?_, h.ready, fun t => h.holds (hc ▸ (Option.some_ne_none t).symm)⟩
    rw [Device.switchOut, hc]
  | some t =>
    obtain ⟨a, ha, hf, hlive⟩ := h.view hc
    obtain ⟨r', a', hsave, hready, hholds⟩ := hi.save t s.regs a h.ready hlive
    refine ⟨{ s with regs := r', areas := Function.update s.areas t (some a') }, ?_, hready, ?_⟩
    · rw [Device.switchOut, hc]
      show (s.areas t).bind _ = _
      rw [ha, Option.bind_some, hsave, Option.map_some]
    · have hsame : Function.update p.files t (some (V.view s.regs)) = p.files :=
        hf ▸ Function.update_eq_self t p.files
      rw [← hsame]
      exact rel_update (B := fun _ => V.Holds)
        (fun t' ht => h.holds fun heq => ht (Option.some.inj (heq.symm.trans hc))) hholds

/-- The next one is switched in. -/
theorem Implements.switchIn (hi : Implements D P V) (hready : V.Ready s.regs)
    (h : ∀ t, Option.Rel V.Holds (s.areas t) (p.files t))
    (hnext : ∀ t, next = some t → p.files t ≠ none) :
    ∃ s', D.switchIn next s = some s' ∧ V.Rel s' { p with curr := next } := by
  cases next with
  | none => exact ⟨{ s with curr := none }, rfl, Views.rel_idle hready h⟩
  | some t =>
    obtain ⟨f, hf⟩ := Option.ne_none_iff_exists'.mp (hnext t rfl)
    obtain ⟨a, ha, hholds⟩ : ∃ a, s.areas t = some a ∧ V.Holds a f := by
      have hrel := h t
      rw [hf] at hrel
      generalize s.areas t = area at hrel
      cases hrel with
      | some hholds => exact ⟨_, rfl, hholds⟩
    obtain ⟨r', hrestore, hready', hlive, hview⟩ := hi.restore t a f s.regs hready hholds
    refine ⟨{ s with regs := r', curr := some t }, ?_, rfl, hready', ?_, fun t' => ?_⟩
    · show (s.areas t).bind _ = _
      rw [ha, Option.bind_some, hrestore, Option.map_some]
    · rintro t' heq
      obtain rfl : t = t' := Option.some.inj heq
      exact fun hnone => Option.some_ne_none a (ha.symm.trans hnone)
    · by_cases ht : t' = t
      · subst ht
        show Option.Rel _ (s.areas t') (p.files t')
        rw [ha, hf]
        exact .some (Views.agrees_curr.mpr ⟨hview, hlive⟩)
      · have hne : some t ≠ some t' := fun heq => ht (Option.some.inj heq).symm
        exact rel_mono (h t') fun _ _ => (Views.agrees_of_ne hne).mpr

/-- **The turn can always change** to a client that was created. -/
theorem Implements.switch (hi : Implements D P V) (h : V.Rel s p) (hne : s.curr ≠ next)
    (hnext : ∀ t, next = some t → s.areas t ≠ none) : ∃ s', D.Step s (.switch next) s' := by
  obtain ⟨s₁, hout, hready, hholds⟩ := hi.switchOut h
  have hfiles : ∀ t, next = some t → p.files t ≠ none := by
    intro t ht
    obtain ⟨a, ha⟩ := Option.ne_none_iff_exists'.mp (hnext t ht)
    obtain ⟨f, hf, -⟩ := h.area ha
    exact fun hnone => Option.some_ne_none f (hf.symm.trans hnone)
  obtain ⟨s', hin, -⟩ := hi.switchIn hready hholds hfiles
  exact ⟨s', .switch next hne hout hin⟩

/-- What is done to an area and to its file. -/
theorem Implements.rel_touch (hi : Implements D P V) (h : V.Rel s p) {t : T} {a : A} (u : M)
    (ha : s.areas t = some a) : ∃ p', P.Step p (.touch t u) p' ∧
      V.Rel { s with areas := Function.update s.areas t (some (D.touch u a)) } p' := by
  obtain ⟨f, hf, hagrees⟩ := h.area ha
  have hcreated (t' : T) (ht' : s.curr = some t') :
      Function.update s.areas t (some (D.touch u a)) t' ≠ none :=
    update_ne_none (h.created t' ht')
  by_cases hc : s.curr = some t
  -- the registers are with the client, and what is done to its area does not reach them
  · obtain ⟨hview, hlive⟩ := Views.agrees_curr.mp (hc ▸ hagrees)
    refine ⟨p, .touchCurr t u (h.curr ▸ hc), h.curr, h.ready, hcreated, ?_⟩
    rw [← Function.update_eq_self t p.files, hf]
    refine rel_update (fun t' _ => h.agrees t') ?_
    rw [hc]
    exact Views.agrees_curr.mpr ⟨hview, hi.touchLive t u _ a hlive⟩
  · refine ⟨_, .touch t u f (h.curr ▸ hc) hf, h.curr, h.ready, hcreated, ?_⟩
    refine rel_update (fun t' _ => h.agrees t') ?_
    exact (Views.agrees_of_ne hc).mpr (hi.touch u a f ((Views.agrees_of_ne hc).mp hagrees))

/-- **Clients that share the registers have registers of their own.** -/
theorem Implements.simulates (hi : Implements D P V) : Simulates D.system P.system V.Rel := by
  intro s p e s' h hstep
  cases hstep with
  | client t l r ht hclient =>
    obtain ⟨a, ha, hf, hlive⟩ := h.view ht
    obtain ⟨hown, hready, hlive'⟩ := hi.client t s.regs a l r h.ready hlive hclient
    refine ⟨_, .client t l _ _ (h.curr ▸ ht) hf hown, h.curr, hready, h.created, ?_⟩
    rw [← Function.update_eq_self t s.areas, ha]
    refine rel_update (fun t' ht' => ?_) ?_
    · have hne : s.curr ≠ some t' := fun heq => ht' (Option.some.inj (heq.symm.trans ht))
      exact rel_mono (h.holds hne) fun _ _ => (Views.agrees_of_ne hne).mpr
    · rw [ht]
      exact Views.agrees_curr.mpr ⟨rfl, hlive'⟩
  | touch t u a ha => exact hi.rel_touch h u ha
  | create t ht =>
    refine ⟨_, .create t (h.curr ▸ ht), h.curr, h.ready,
      fun t' ht' => update_ne_none (h.created t' ht'), ?_⟩
    exact rel_update (fun t' _ => h.agrees t') ((Views.agrees_of_ne ht).mpr hi.fresh)
  | switch next hne hout hin =>
    obtain ⟨s₁, hout', hready, hholds⟩ := hi.switchOut h
    obtain rfl := Option.some.inj (hout.symm.trans hout')
    have hfiles : ∀ t, next = some t → p.files t ≠ none := by
      rintro t rfl hnone
      obtain ⟨a, ha, -⟩ := Option.bind_eq_some_iff.mp hin
      have hrel := hholds t
      rw [ha, hnone] at hrel
      cases hrel
    obtain ⟨s₂, hin', hrel⟩ := hi.switchIn hready hholds hfiles
    obtain rfl := Option.some.inj (hin.symm.trans hin')
    exact ⟨_, .switch next (h.curr ▸ hne) hfiles, hrel⟩

end

end Multiplex
