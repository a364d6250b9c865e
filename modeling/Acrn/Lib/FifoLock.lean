import Acrn.Lib.Transition
import Mathlib.Data.List.Basic
import Mathlib.Data.Fintype.Card

/-!
# A first-come first-served lock

What a fair lock is for, with no word on how it is built: the history of those that came for it
and of those that got it. The lock is given to those that came in the order in which they came, and
to the next one after the one before has left it. Nobody comes again before it has left.
-/

namespace FifoLock

open Transition

variable {C : Type*}

/-- Those that came and those that entered, the earliest first, and how many have left. -/
structure History (C : Type*) where
  arrived : List C
  entered : List C
  left : ℕ

namespace History

/-- Those that came and have not left: the one inside, if there is one, and the waiting ones. -/
def pending (h : History C) : List C := h.arrived.drop h.left

/-- The one that holds the lock. -/
def Inside (h : History C) (c : C) : Prop :=
  h.entered.length = h.left + 1 ∧ h.arrived[h.left]? = some c

def arrive (h : History C) (c : C) : History C := { h with arrived := h.arrived ++ [c] }

def enter (h : History C) (c : C) : History C := { h with entered := h.entered ++ [c] }

def leave (h : History C) : History C := { h with left := h.left + 1 }

end History

/-- What can happen to the lock. -/
inductive Event (C : Type*) where
  | arrive (c : C)
  | enter (c : C)
  | leave (c : C)

/-- A step of the lock. -/
inductive Step (h : History C) : Event C → History C → Prop where
  | arrive {c : C} : c ∉ h.pending → Step h (.arrive c) (h.arrive c)
  | enter {c : C} : h.entered.length = h.left → h.arrived[h.left]? = some c →
      Step h (.enter c) (h.enter c)
  | leave {c : C} : h.Inside c → Step h (.leave c) h.leave

/-- The runs of the lock from its creation. -/
def system (C : Type*) : System (History C) (Event C) where
  init h := h = ⟨[], [], 0⟩
  step := Step

namespace History

variable {h h' : History C} {c c' : C} {e : Event C} {i : ℕ}

/-- The history of a lock. -/
structure Fair (h : History C) : Prop where
  inOrder : h.entered <+: h.arrived
  left_le : h.left ≤ h.entered.length
  entered_le : h.entered.length ≤ h.left + 1
  nodup : h.pending.Nodup

/-- **Mutual exclusion.** -/
theorem Inside.unique (hc : h.Inside c) (hc' : h.Inside c') : c = c' :=
  Option.some.inj (hc.2.symm.trans hc'.2)

theorem Fair.entered_le_arrived (hf : h.Fair) : h.entered.length ≤ h.arrived.length :=
  hf.inOrder.length_le

theorem Fair.left_le_arrived (hf : h.Fair) : h.left ≤ h.arrived.length :=
  hf.left_le.trans hf.entered_le_arrived

theorem mem_pending_iff : c ∈ h.pending ↔ ∃ i, h.left ≤ i ∧ h.arrived[i]? = some c := by
  rw [pending, List.mem_iff_getElem?]
  simp only [List.getElem?_drop]
  constructor
  · rintro ⟨i, hi⟩
    exact ⟨h.left + i, Nat.le_add_right _ _, hi⟩
  · rintro ⟨i, hle, hi⟩
    refine ⟨i - h.left, ?_⟩
    rwa [Nat.add_sub_of_le hle]

/-- One arrival of each is pending. -/
theorem Fair.index_unique (hf : h.Fair) {j : ℕ} (hi : h.left ≤ i) (hj : h.left ≤ j)
    (hci : h.arrived[i]? = some c) (hcj : h.arrived[j]? = some c) : i = j := by
  have hget : ∀ k, h.left ≤ k → h.pending[k - h.left]? = h.arrived[k]? := by
    intro k hk
    rw [pending, List.getElem?_drop, Nat.add_sub_of_le hk]
  have hlt : i - h.left < h.pending.length := by
    rw [pending, List.length_drop]
    have := (List.getElem?_eq_some_iff.mp hci).1
    omega
  have hsame := (List.getElem?_inj hlt hf.nodup).mp
    ((hget i hi).trans (hci.trans ((hget j hj).trans hcj).symm))
  omega

/-- No more are pending than there are. -/
theorem Fair.arrived_le [Fintype C] (hf : h.Fair) :
    h.arrived.length ≤ h.left + Fintype.card C := by
  have hlen := hf.nodup.length_le_card
  rw [pending, List.length_drop] at hlen
  omega

/-- The pending ones are the next one and those behind it. -/
theorem pending_eq_cons (hc : h.arrived[h.left]? = some c) :
    h.pending = c :: h.leave.pending := by
  obtain ⟨hlt, rfl⟩ := List.getElem?_eq_some_iff.mp hc
  exact List.drop_eq_getElem_cons hlt

theorem Fair.step (hf : h.Fair) (hstep : Step h e h') : h'.Fair := by
  cases hstep with
  | @arrive c hnew =>
    have hpending : (h.arrive c).pending = h.pending ++ [c] :=
      List.drop_append_of_le_length hf.left_le_arrived
    refine ⟨hf.inOrder.trans (List.prefix_append _ _), hf.left_le, hf.entered_le, ?_⟩
    rw [hpending, List.nodup_append]
    refine ⟨hf.nodup, List.nodup_singleton c, fun a ha b hb hab => ?_⟩
    rw [List.mem_singleton.mp hb] at hab
    exact hnew (hab ▸ ha)
  | @enter c hfree hnext =>
    obtain ⟨rest, hrest⟩ := hf.inOrder
    have hlen : (h.enter c).entered.length = h.left + 1 := by
      rw [enter, List.length_append, hfree, List.length_singleton]
    refine ⟨?_, hlen ▸ Nat.le_succ _, hlen.le, hf.nodup⟩
    -- the arrival behind those that entered is that of the one that enters
    have hhead : rest[0]? = some c := by
      rw [← hrest, ← hfree, List.getElem?_append_right (Nat.le_refl _), Nat.sub_self] at hnext
      exact hnext
    obtain ⟨tail, rfl⟩ : ∃ tail, rest = c :: tail := by
      cases rest with
      | nil => cases hhead
      | cons a tail => exact ⟨tail, by rw [Option.some.inj hhead]⟩
    exact ⟨tail, (List.append_assoc h.entered [c] tail).trans hrest⟩
  | leave hinside =>
    refine ⟨hf.inOrder, hinside.1.ge, hinside.1.le.trans (Nat.le_succ _), ?_⟩
    have hnodup := hf.nodup
    rw [pending_eq_cons hinside.2] at hnodup
    exact hnodup.of_cons

/-- **Every run is fair.** -/
theorem fair_of_reach (hreach : Reach (system C) any h) : h.Fair := by
  refine hreach.invariant (fun h hinit => ?_) fun _ _ _ _ hstep hf => hf.step hstep
  obtain rfl : h = ⟨[], [], 0⟩ := hinit
  exact ⟨List.nil_prefix, Nat.le_refl _, Nat.zero_le _, List.nodup_nil⟩

end History

end FifoLock
