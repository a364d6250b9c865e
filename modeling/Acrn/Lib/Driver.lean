import Acrn.Lib.Transition
import Mathlib.Logic.Function.Basic
import Mathlib.Logic.Relation

/-!
# Drivers

A driver reads and writes the registers of a device and polls them, while the device goes its own
way between any two accesses. `Driver.Ok` is the weakest precondition of a driver: every state is
safe, every write is one that the device allows, no loop polls for ever, and the result holds
at the end. It composes along the driver, and along devices that are driven one at a time.
-/

namespace Driver

open Transition Relation

universe u

variable {H R V : Type*} {α β : Type u}

/-- A device with registers. `tick` is what it does by itself, and `allows` tells which writes its
specification has provided for. -/
structure Device (H R V : Type*) where
  read : H → R → V × H
  write : H → R → V → H
  tick : H → H → Prop
  allows : H → R → V → Prop

/-- Programs that drive a device: the free monad over register accesses. `wait` reads a register
until the value is one that it waits for. -/
inductive Prog (R V : Type*) (α : Type u) where
  | ret (a : α)
  | read (r : R) (k : V → Prog R V α)
  | write (r : R) (v : V) (k : Prog R V α)
  | wait (r : R) (done : V → Bool) (k : V → Prog R V α)

namespace Prog

/-- One program after another. -/
protected def bind : Prog R V α → (α → Prog R V β) → Prog R V β
  | ret a, f => f a
  | read r k, f => read r fun v => (k v).bind f
  | write r v k, f => write r v (k.bind f)
  | wait r done k, f => wait r done fun v => (k v).bind f

instance : Monad (Prog R V) where
  pure := ret
  bind := Prog.bind

theorem bind_eq (m : Prog R V α) (f : α → Prog R V β) : m >>= f = m.bind f := rfl

theorem bind_ret (m : Prog R V α) : m.bind ret = m := by
  induction m with
  | ret a => rfl
  | read r k ih => exact congrArg (read r) (funext ih)
  | write r v k ih => exact congrArg (write r v) ih
  | wait r done k ih => exact congrArg (wait r done) (funext ih)

/-- A register is read. -/
def readReg (r : R) : Prog R V V := read r ret

/-- A register is written. -/
def writeReg (r : R) (v : V) : Prog R V Unit := write r v (ret ())

/-- A register is polled. -/
def waitReg (r : R) (done : V → Bool) : Prog R V V := wait r done ret

end Prog

open Prog

/-! ## Runs

A run interleaves the steps of the program with those of the device. The precondition is a
recursion on the program, with all that the device can do by itself between two accesses. -/

variable (D : Device H R V)

/-- What a poll that is in vain leaves of the device. -/
def Device.PollsAgain (r : R) (done : V → Bool) (h h' : H) : Prop :=
  done (D.read h r).1 = false ∧ h' = (D.read h r).2

/-- The device goes on while a register is polled. -/
def Device.Turn (r : R) (done : V → Bool) (h h' : H) : Prop :=
  D.tick h h' ∨ D.PollsAgain r done h h'

/-- A step of the program, or of the device. -/
inductive Step : Prog R V α × H → Prog R V α × H → Prop where
  | read {r : R} {k : V → Prog R V α} {h : H} :
      Step (.read r k, h) (k (D.read h r).1, (D.read h r).2)
  | write {r : R} {v : V} {k : Prog R V α} {h : H} : Step (.write r v k, h) (k, D.write h r v)
  | done {r : R} {done : V → Bool} {k : V → Prog R V α} {h : H} : done (D.read h r).1 = true →
      Step (.wait r done k, h) (k (D.read h r).1, (D.read h r).2)
  | again {r : R} {done : V → Bool} {k : V → Prog R V α} {h h' : H} : D.PollsAgain r done h h' →
      Step (.wait r done k, h) (.wait r done k, h')
  | tick {m : Prog R V α} {h h' : H} : D.tick h h' → Step (m, h) (m, h')

/-- The runs of a program on a device. -/
def system (m : Prog R V α) (h : H) : System (Prog R V α × H) Unit where
  init s := s = (m, h)
  step s _ s' := Step D s s'

/-- What holds of the device as long as it is left alone. -/
def Device.Always (P : H → Prop) (h : H) : Prop := ∀ h', ReflTransGen D.tick h h' → P h'

/-- **The weakest precondition.** -/
def Ok (Safe : H → Prop) (Q : α → H → Prop) : Prog R V α → H → Prop
  | .ret a => D.Always fun h => Safe h ∧ Q a h
  | .read r k => D.Always fun h => Safe h ∧ Ok Safe Q (k (D.read h r).1) (D.read h r).2
  | .write r v k => D.Always fun h => Safe h ∧ D.allows h r v ∧ Ok Safe Q k (D.write h r v)
  | .wait r done k => fun h => ∀ h', ReflTransGen (D.Turn r done) h h' → Safe h' ∧
      (∃ h'', ReflTransGen (D.Turn r done) h' h'' ∧ done (D.read h'' r).1 = true) ∧
      (done (D.read h' r).1 = true → Ok Safe Q (k (D.read h' r).1) (D.read h' r).2)

variable {D} {Safe : H → Prop} {Q Q' : α → H → Prop} {P P' : H → Prop} {m : Prog R V α}
  {h h' : H}

/-! ## The device left alone -/

theorem Device.Always.self (hP : D.Always P h) : P h := hP h .refl

theorem Device.Always.tick (hP : D.Always P h) (ht : D.tick h h') : D.Always P h' :=
  fun h'' ht' => hP h'' (.head ht ht')

theorem Device.Always.mono (hP : D.Always P h) (hle : ∀ h, P h → P' h) : D.Always P' h :=
  fun h' ht => hle h' (hP h' ht)

/-- A device that does nothing by itself. -/
theorem Device.always_of_still (hstill : ∀ h', ¬ D.tick h h') (hP : P h) : D.Always P h := by
  intro h' ht
  obtain rfl | ⟨h₁, ht₁, -⟩ := ht.cases_head
  · exact hP
  · exact absurd ht₁ (hstill h₁)

/-- What no tick changes. -/
theorem Device.always_of_stable (hstable : ∀ h h', P h → D.tick h h' → P h') (hP : P h) :
    D.Always P h := by
  intro h' ht
  induction ht with
  | refl => exact hP
  | tail _ ht ih => exact hstable _ _ ih ht

theorem Device.Turn.of_ticks {r : R} {done : V → Bool} (ht : ReflTransGen D.tick h h') :
    ReflTransGen (D.Turn r done) h h' := by
  induction ht with
  | refl => exact .refl
  | tail _ ht ih => exact ih.tail (Or.inl ht)

/-! ## Rules

Preconditions compose along `bind`. For polling it takes an assertion that the ticks of the device
keep, and from which they come to the value that is waited for. -/

theorem Ok.safe (hm : Ok D Safe Q m h) : Safe h := by
  cases m with
  | ret a => exact hm.self.1
  | read r k => exact hm.self.1
  | write r v k => exact hm.self.1
  | wait r done k => exact (hm h .refl).1

/-- The precondition survives what the device does. -/
theorem Ok.tick (hm : Ok D Safe Q m h) (ht : D.tick h h') : Ok D Safe Q m h' := by
  cases m with
  | ret a => exact Device.Always.tick hm ht
  | read r k => exact Device.Always.tick hm ht
  | write r v k => exact Device.Always.tick hm ht
  | wait r done k => exact fun h'' hturn => hm h'' (.head (Or.inl ht) hturn)

theorem Ok.always (hm : Ok D Safe Q m h) : D.Always (fun h => Safe h ∧ Ok D Safe Q m h) h := by
  have hok := Device.always_of_stable (D := D) (P := Ok D Safe Q m) (fun _ _ => Ok.tick) hm
  exact hok.mono fun _ hh => ⟨hh.safe, hh⟩

theorem Ok.mono (hm : Ok D Safe Q m h) (hle : ∀ a h, Q a h → Q' a h) : Ok D Safe Q' m h := by
  induction m generalizing h with
  | ret a => exact Device.Always.mono hm fun h hh => ⟨hh.1, hle a h hh.2⟩
  | read r k ih => exact Device.Always.mono hm fun h hh => ⟨hh.1, ih _ hh.2⟩
  | write r v k ih => exact Device.Always.mono hm fun h hh => ⟨hh.1, hh.2.1, ih hh.2.2⟩
  | wait r done k ih =>
    intro h' hturn
    obtain ⟨hsafe, hends, hdone⟩ := hm h' hturn
    exact ⟨hsafe, hends, fun hd => ih _ (hdone hd)⟩

/-- **Composition.** -/
theorem Ok.bind {Q : β → H → Prop} {f : α → Prog R V β}
    (hm : Ok D Safe (fun a => Ok D Safe Q (f a)) m h) : Ok D Safe Q (m >>= f) h := by
  rw [bind_eq]
  induction m generalizing h with
  | ret a => exact hm.self.2
  | read r k ih => exact Device.Always.mono hm fun h hh => ⟨hh.1, ih _ hh.2⟩
  | write r v k ih => exact Device.Always.mono hm fun h hh => ⟨hh.1, hh.2.1, ih hh.2.2⟩
  | wait r done k ih =>
    intro h' hturn
    obtain ⟨hsafe, hends, hdone⟩ := hm h' hturn
    exact ⟨hsafe, hends, fun hd => ih _ (hdone hd)⟩

theorem Ok.read_of_still {r : R} {k : V → Prog R V α} (hstill : ∀ h', ¬ D.tick h h')
    (hsafe : Safe h) (hk : Ok D Safe Q (k (D.read h r).1) (D.read h r).2) :
    Ok D Safe Q (.read r k) h := Device.always_of_still hstill ⟨hsafe, hk⟩

theorem Ok.write_of_still {r : R} {v : V} {k : Prog R V α} (hstill : ∀ h', ¬ D.tick h h')
    (hsafe : Safe h) (hallows : D.allows h r v) (hk : Ok D Safe Q k (D.write h r v)) :
    Ok D Safe Q (.write r v k) h := Device.always_of_still hstill ⟨hsafe, hallows, hk⟩

/-- **Polling**, with what holds until the value is there. -/
theorem Ok.wait_of_invariant {r : R} {done : V → Bool} {k : V → Prog R V α} {I : H → Prop}
    (hI : I h) (hturn : ∀ h h', I h → D.Turn r done h h' → I h') (hsafe : ∀ h, I h → Safe h)
    (hends : ∀ h, I h → ∃ h', ReflTransGen (D.Turn r done) h h' ∧ done (D.read h' r).1 = true)
    (hdone : ∀ h, I h → done (D.read h r).1 = true →
      Ok D Safe Q (k (D.read h r).1) (D.read h r).2) :
    Ok D Safe Q (.wait r done k) h := by
  intro h' ht
  have hI' : I h' := by
    induction ht with
    | refl => exact hI
    | tail _ ht ih => exact hturn _ _ ih ht
  exact ⟨hsafe h' hI', hends h' hI', hdone h' hI'⟩

/-! ## Soundness

A program that meets its precondition is safe in every state of every run, and from each of them it
can be brought to its end. -/

/-- **Every run** of a program that meets its precondition. -/
theorem ok_of_reach {s : Prog R V α × H} (hm : Ok D Safe Q m h)
    (hreach : Reach (system D m h) any s) : Ok D Safe Q s.1 s.2 := by
  refine hreach.invariant (P := fun s => Ok D Safe Q s.1 s.2) (fun s hinit => ?_)
    fun s a s' _ hstep hs => ?_
  · obtain rfl : s = (m, h) := hinit
    exact hm
  · cases hstep with
    | read => exact hs.self.2
    | write => exact hs.self.2.2
    | done hd => exact (hs _ .refl).2.2 hd
    | again hagain => exact fun h' hturn => hs h' (.head (Or.inr hagain) hturn)
    | tick ht => exact hs.tick ht

/-- The program can always be brought to its end. -/
theorem reach_ret {m₀ : Prog R V α} {h₀ : H} (hm : Ok D Safe Q m h)
    (hreach : Reach (system D m₀ h₀) any (m, h)) :
    ∃ a h', Reach (system D m₀ h₀) any (.ret a, h') := by
  induction m generalizing h with
  | ret a => exact ⟨a, h, hreach⟩
  | read r k ih => exact ih _ hm.self.2 (hreach.step (a := ()) trivial .read)
  | write r v k ih => exact ih hm.self.2.2 (hreach.step (a := ()) trivial .write)
  | wait r done k ih =>
    obtain ⟨h', hturn, hd⟩ := (hm h .refl).2.1
    have hpoll : Reach (system D m₀ h₀) any (.wait r done k, h') := by
      have hall := hm
      clear hm hd
      induction hturn with
      | refl => exact hreach
      | tail _ ht ih' =>
        obtain ht | hagain := ht
        · exact ih'.step (a := ()) trivial (.tick ht)
        · exact ih'.step (a := ()) trivial (.again hagain)
    exact ih _ ((hm h' hturn).2.2 hd) (hpoll.step (a := ()) trivial (.done hd))

/-! ## Several devices

A driver for one device is lifted to a family of devices. The others go on by themselves meanwhile,
so what is assumed of them has to survive their own ticks. -/

section Several

variable {ι : Type*} [DecidableEq ι]

/-- Devices side by side. -/
def Device.pi (D : Device H R V) : Device (ι → H) (ι × R) V where
  read hs r := ((D.read (hs r.1) r.2).1, Function.update hs r.1 (D.read (hs r.1) r.2).2)
  write hs r v := Function.update hs r.1 (D.write (hs r.1) r.2 v)
  tick hs hs' := ∃ i h', D.tick (hs i) h' ∧ hs' = Function.update hs i h'
  allows hs r v := D.allows (hs r.1) r.2 v

@[simp] theorem Device.pi_read {hs : ι → H} {i : ι} {r : R} : (Device.pi D).read hs (i, r) =
    ((D.read (hs i) r).1, Function.update hs i (D.read (hs i) r).2) := rfl

@[simp] theorem Device.pi_write {hs : ι → H} {i : ι} {r : R} {v : V} :
    (Device.pi D).write hs (i, r) v = Function.update hs i (D.write (hs i) r v) := rfl

/-- The program on one of the devices. -/
def Prog.on (i : ι) : Prog R V α → Prog (ι × R) V α
  | .ret a => .ret a
  | .read r k => .read (i, r) fun v => (k v).on i
  | .write r v k => .write (i, r) v (k.on i)
  | .wait r done k => .wait (i, r) done fun v => (k v).on i

variable {hs hs' : ι → H} {i : ι}

/-- One device goes its way and the others go theirs. -/
theorem Device.pi_ticks {F : ι → H → Prop} (hF : ∀ j h h', F j h → D.tick h h' → F j h')
    (hothers : ∀ j ≠ i, F j (hs j)) (ht : ReflTransGen (Device.pi D).tick hs hs') :
    ReflTransGen D.tick (hs i) (hs' i) ∧ ∀ j ≠ i, F j (hs' j) := by
  induction ht with
  | refl => exact ⟨.refl, hothers⟩
  | @tail hs₁ hs₂ _ ht ih =>
    obtain ⟨j, h', hj, rfl⟩ := ht
    obtain ⟨hi, hrest⟩ := ih
    by_cases hji : j = i
    · subst hji
      rw [Function.update_self]
      refine ⟨hi.tail hj, fun a ha => ?_⟩
      rw [Function.update_of_ne ha]
      exact hrest a ha
    · rw [Function.update_of_ne (Ne.symm hji)]
      refine ⟨hi, fun a ha => ?_⟩
      by_cases haj : a = j
      · subst haj
        rw [Function.update_self]
        exact hF a _ _ (hrest a ha) hj
      · rw [Function.update_of_ne haj]
        exact hrest a ha

theorem Device.pi_turns {F : ι → H → Prop} {r : R} {done : V → Bool}
    (hF : ∀ j h h', F j h → D.tick h h' → F j h') (hothers : ∀ j ≠ i, F j (hs j))
    (ht : ReflTransGen ((Device.pi D).Turn (i, r) done) hs hs') :
    ReflTransGen (D.Turn r done) (hs i) (hs' i) ∧ ∀ j ≠ i, F j (hs' j) := by
  induction ht with
  | refl => exact ⟨.refl, hothers⟩
  | @tail hs₁ hs₂ _ ht ih =>
    obtain ⟨hi, hrest⟩ := ih
    obtain ht | ⟨hdone, rfl⟩ := ht
    · obtain ⟨hi', hrest'⟩ := Device.pi_ticks hF hrest (.single ht)
      exact ⟨hi.trans (Device.Turn.of_ticks hi'), hrest'⟩
    · dsimp only [Device.pi] at hdone ⊢
      rw [Function.update_self]
      refine ⟨hi.tail (Or.inr ⟨hdone, rfl⟩), fun a ha => ?_⟩
      rw [Function.update_of_ne ha]
      exact hrest a ha

/-- A single device that goes on, with the others as they are. -/
theorem Device.turns_pi {r : R} {done : V → Bool} {h : H}
    (ht : ReflTransGen (D.Turn r done) (hs i) h) :
    ReflTransGen ((Device.pi D).Turn (i, r) done) hs (Function.update hs i h) := by
  induction ht with
  | refl => rw [Function.update_eq_self]
  | @tail h₁ h₂ _ ht ih =>
    refine ih.tail ?_
    obtain ht | ⟨hdone, rfl⟩ := ht
    · refine Or.inl ⟨i, h₂, ?_, (Function.update_idem _ _ _).symm⟩
      rwa [Function.update_self]
    · refine Or.inr ⟨?_, ?_⟩
      · rwa [Device.pi_read, Function.update_self]
      · rw [Device.pi_read, Function.update_self, Function.update_idem]

/-- **Framing.** A program on one device meets its precondition among others that are safe in
whatever they do by themselves. -/
theorem Ok.on {F : ι → H → Prop} {Safes : ι → H → Prop}
    (hF : ∀ j h h', F j h → D.tick h h' → F j h')
    (hsafe : ∀ j h, F j h → Safes j h) (hm : Ok D (Safes i) Q m (hs i))
    (hothers : ∀ j ≠ i, F j (hs j)) :
    Ok (Device.pi D) (fun hs => ∀ j, Safes j (hs j)) (fun a hs => Q a (hs i) ∧ ∀ j ≠ i, F j (hs j))
      (m.on i) hs := by
  have hall : ∀ {hs : ι → H}, Safes i (hs i) → (∀ j ≠ i, F j (hs j)) → ∀ j, Safes j (hs j) := by
    intro hs hi hrest j
    by_cases hj : j = i
    · subst hj
      exact hi
    · exact hsafe j _ (hrest j hj)
  have hrest : ∀ {hs : ι → H} {h : H}, (∀ j ≠ i, F j (hs j)) →
      ∀ j ≠ i, F j (Function.update hs i h j) := by
    intro hs h hothers j hj
    rw [Function.update_of_ne hj]
    exact hothers j hj
  induction m generalizing hs with
  | ret a =>
    intro hs' ht
    obtain ⟨hi, hothers'⟩ := Device.pi_ticks hF hothers ht
    obtain ⟨hsafe', hQ⟩ := hm _ hi
    exact ⟨hall hsafe' hothers', hQ, hothers'⟩
  | read r k ih =>
    intro hs' ht
    obtain ⟨hi, hothers'⟩ := Device.pi_ticks hF hothers ht
    obtain ⟨hsafe', hk⟩ := hm _ hi
    refine ⟨hall hsafe' hothers', ih _ ?_ (hrest hothers')⟩
    rw [Device.pi_read]
    dsimp only
    rwa [Function.update_self]
  | write r v k ih =>
    intro hs' ht
    obtain ⟨hi, hothers'⟩ := Device.pi_ticks hF hothers ht
    obtain ⟨hsafe', hallows, hk⟩ := hm _ hi
    refine ⟨hall hsafe' hothers', hallows, ih ?_ (hrest hothers')⟩
    rwa [Device.pi_write, Function.update_self]
  | wait r done k ih =>
    intro hs' ht
    obtain ⟨hi, hothers'⟩ := Device.pi_turns hF hothers ht
    obtain ⟨hsafe', ⟨h'', hends, hdone⟩, hk⟩ := hm _ hi
    refine ⟨hall hsafe' hothers', ⟨_, Device.turns_pi hends, ?_⟩,
      fun hd => ih _ ?_ (hrest hothers')⟩
    · rwa [Device.pi_read, Function.update_self]
    · rw [Device.pi_read]
      dsimp only
      rw [Function.update_self]
      exact hk hd

/-- An action on the devices of a list, one after another, each with the driver's own state of
it. -/
def Prog.each {S : Type u} {ι : Type u} [DecidableEq ι] (action : ι → S → Prog R V S) (l : List ι)
    (sts : ι → S) : Prog (ι × R) V (ι → S) :=
  l.foldlM (fun sts i => do
    let st ← (action i (sts i)).on i
    return Function.update sts i st) sts

/-- **One device after another.** What an action makes of the assertion about one device, the loop
makes of those about all in the list, when none of them does anything by itself in between. -/
theorem Ok.each {S : Type u} {ι : Type u} [DecidableEq ι] {P P' : ι → S → H → Prop}
    {Safes : ι → H → Prop} {action : ι → S → Prog R V S}
    (hstill : ∀ i st h, P i st h ∨ P' i st h → Safes i h ∧ ∀ h', ¬ D.tick h h')
    {l : List ι} (haction : ∀ i ∈ l, ∀ st h, P i st h → Ok D (Safes i) (P' i) (action i st) h)
    (hnodup : l.Nodup) {sts : ι → S} {hs : ι → H} (hl : ∀ i ∈ l, P i (sts i) (hs i))
    (hrest : ∀ i ∉ l, P' i (sts i) (hs i)) :
    Ok (Device.pi D) (fun hs => ∀ i, Safes i (hs i)) (fun sts hs => ∀ i, P' i (sts i) (hs i))
      (Prog.each action l sts) hs := by
  induction l generalizing sts hs with
  | nil =>
    have hall : ∀ i, P' i (sts i) (hs i) := fun i => hrest i List.not_mem_nil
    refine Device.always_of_still (fun hs' ht => ?_)
      ⟨fun i => (hstill i _ _ (Or.inr (hall i))).1, hall⟩
    obtain ⟨i, h', ht, -⟩ := ht
    exact (hstill i _ _ (Or.inr (hall i))).2 h' ht
  | cons i l ih =>
    obtain ⟨hi, hnodup⟩ := List.nodup_cons.1 hnodup
    rw [Prog.each, List.foldlM_cons]
    have hF : ∀ j st h, (if j ∈ l then P j st h else P' j st h) → P j st h ∨ P' j st h := by
      intro j st h hj
      split at hj
      · exact Or.inl hj
      · exact Or.inr hj
    have hothers : ∀ j ≠ i, if j ∈ l then P j (sts j) (hs j) else P' j (sts j) (hs j) := by
      intro j hj
      split
      · next hmem => exact hl j (List.mem_cons_of_mem i hmem)
      · next hmem => exact hrest j fun h => (List.mem_cons.1 h).elim hj hmem
    have hone := Ok.on (F := fun j h => if j ∈ l then P j (sts j) h else P' j (sts j) h)
      (fun j h h' hj ht => absurd ht ((hstill j _ h (hF j _ h hj)).2 h'))
      (fun j h hj => (hstill j _ h (hF j _ h hj)).1)
      (haction i List.mem_cons_self _ _ (hl i List.mem_cons_self)) hothers
    refine .bind (.bind (hone.mono fun st hs' hQ => ?_))
    -- the driver's state of the device is kept, and the loop goes on
    obtain ⟨hself, hother⟩ := hQ
    have hl' : ∀ j ∈ l, P j (Function.update sts i st j) (hs' j) := by
      intro j hj
      have hji : j ≠ i := fun heq => hi (heq ▸ hj)
      have hj' := hother j hji
      rw [if_pos hj] at hj'
      rwa [Function.update_of_ne hji]
    have hrest' : ∀ j ∉ l, P' j (Function.update sts i st j) (hs' j) := by
      intro j hj
      by_cases hji : j = i
      · subst hji
        rwa [Function.update_self]
      · have hj' := hother j hji
        rw [if_neg hj] at hj'
        rwa [Function.update_of_ne hji]
    exact (ih (fun j hj => haction j (List.mem_cons_of_mem i hj)) hnodup hl' hrest').always

end Several

end Driver
