import Mathlib.Data.List.Range
import Mathlib.Data.Nat.ModEq
import Mathlib.Logic.Function.Basic

/-!
# Ring buffers

A queue of at most `size` elements in an array that is used in circles. What the queue holds is
read off the array from the read index on. The index arithmetic is done once, here: writing behind
the last element appends it, writing over the first one of a full buffer drops that one, and
advancing the read index drops the first.

`Event` says what happens to a queue from outside; `replay` is what a bounded queue holds after a
sequence of events.
-/

namespace RingBuffer

variable {α : Type*}

/-- The `n` elements from index `start` on. -/
def window (buf : ℕ → α) (size start n : ℕ) : List α :=
  (List.range n).map fun i => buf ((start + i) % size)

variable {buf : ℕ → α} {size start n : ℕ}

@[simp] theorem window_zero : window buf size start 0 = [] := rfl

@[simp] theorem length_window : (window buf size start n).length = n := by
  rw [window, List.length_map, List.length_range]

theorem window_succ (buf : ℕ → α) (size start n : ℕ) :
    window buf size start (n + 1) = window buf size start n ++ [buf ((start + n) % size)] := by
  rw [window, List.range_succ, List.map_append]
  rfl

/-- The index after the first one starts the rest. -/
theorem window_next (buf : ℕ → α) (size start n : ℕ) :
    window buf size ((start + 1) % size) n = (window buf size start (n + 1)).tail := by
  have hindex : ∀ i, ((start + 1) % size + i) % size = (start + (i + 1)) % size := by
    intro i
    rw [Nat.mod_add_mod, Nat.add_assoc, Nat.add_comm 1]
  rw [window, window, List.range_succ_eq_map, List.map_cons, List.tail_cons, List.map_map]
  exact List.map_congr_left fun i _ => congrArg buf (hindex i)

theorem head?_window (buf : ℕ → α) (size start n : ℕ) :
    (window buf size start (n + 1)).head? = some (buf (start % size)) := by
  rw [window, List.range_succ_eq_map, List.map_cons]
  rfl

/-- A write outside the window leaves it. -/
theorem window_update_of_ne {k : ℕ} (c : α) (h : ∀ i < n, (start + i) % size ≠ k) :
    window (Function.update buf k c) size start n = window buf size start n :=
  List.map_congr_left fun i hi => Function.update_of_ne (h i (List.mem_range.mp hi)) ..

/-- Different places of a window that is not longer than the buffer are different indices. -/
theorem index_ne {i : ℕ} (hi : i < n) (hn : n < size) : (start + i) % size ≠ (start + n) % size := by
  intro h
  have hmod : Nat.ModEq size i n := Nat.ModEq.add_left_cancel' start h
  have heq := Nat.ModEq.eq_of_lt_of_lt hmod (hi.trans hn) hn
  omega

/-- **Appending.** A write behind the last element of a buffer with room. -/
theorem window_push (c : α) (hn : n < size) :
    window (Function.update buf ((start + n) % size) c) size start (n + 1) =
      window buf size start n ++ [c] := by
  rw [window_succ, window_update_of_ne c fun i hi => index_ne hi hn, Function.update_self]

/-- **Overwriting.** A write behind the last element of a full buffer drops the first one. -/
theorem window_push_full (c : α) (hsize : 0 < size) :
    window (Function.update buf ((start + size) % size) c) size ((start + 1) % size) size =
      (window buf size start size).tail ++ [c] := by
  obtain ⟨n, rfl⟩ : ∃ n, size = n + 1 := ⟨size - 1, by omega⟩
  have hlast : ((start + 1) % (n + 1) + n) % (n + 1) = (start + (n + 1)) % (n + 1) := by
    rw [Nat.mod_add_mod, Nat.add_assoc, Nat.add_comm 1]
  have hother : ∀ i < n, ((start + 1) % (n + 1) + i) % (n + 1) ≠ (start + (n + 1)) % (n + 1) := by
    intro i hi
    rw [← hlast]
    exact index_ne hi (Nat.lt_succ_self n)
  rw [window_succ, window_update_of_ne c hother, hlast, Function.update_self, window_next]

/-! ## Events

A bounded queue drops its first elements when it is full. What it holds is a function of all that
happened to it, which a history can be compared with. -/

/-- What happens to a queue. -/
inductive Event (α : Type*) where
  | put (c : α)
  | take
  /-- the queue is emptied -/
  | clear

/-- What a queue of at most `size` elements holds after an event: the last ones that were put and
not taken. -/
def Event.apply (size : ℕ) (q : List α) : Event α → List α
  | put c => (q ++ [c]).drop (q.length + 1 - size)
  | take => q.tail
  | clear => []

/-- What it holds after a sequence of them. -/
def replay (size : ℕ) (events : List (Event α)) (q : List α) : List α :=
  events.foldl (Event.apply size) q

theorem replay_append (size : ℕ) (events events' : List (Event α)) (q : List α) :
    replay size (events ++ events') q = replay size events' (replay size events q) :=
  List.foldl_append

theorem apply_put_of_lt {q : List α} {c : α} (h : q.length < size) :
    (Event.put c).apply size q = q ++ [c] := by
  rw [Event.apply, Nat.sub_eq_zero_of_le h, List.drop_zero]

theorem apply_put_of_full {q : List α} {c : α} (h : q.length = size) (hsize : 0 < size) :
    (Event.put c).apply size q = q.tail ++ [c] := by
  cases q with
  | nil => exact absurd h hsize.ne
  | cons a q =>
    rw [Event.apply, h, Nat.add_sub_cancel_left]
    rfl

end RingBuffer
