import Acrn.Lib.RingBuffer

/-!
# Queues with a doorbell

A producer fills the slots of a circular array, each one word by word, and then moves the
tail register; a consumer fetches the slots that the tail has passed. The log of a queue
lists what happens to it, the earliest first, with notes of what else the producer does.

A request writes some consecutive slots and rings the doorbell once. The consumer then
fetches what the request is made of, and the tail only passes slots all of whose words were
written since it moved last.
-/

namespace DoorbellQueue

open RingBuffer (window)

variable {κ α ω : Type*}

/-- What happens to a queue: a word of a slot is written, the tail register is moved, the
consumer fetches a slot with the given words, or something else happens. -/
inductive Event (κ α ω : Type*) where
  | write (slot : ℕ) (word : κ) (value : α)
  | doorbell (tail : ℕ)
  | fetched (words : κ → α)
  | note (o : ω)

/-- A queue: its array, the first slot that the consumer has not fetched, and its log. -/
structure Queue (κ α ω : Type*) where
  mem : ℕ → κ → α
  head : ℕ
  log : List (Event κ α ω)

/-- How many of `n` slots the tail passes on its way from `head`. -/
def count (n head tail : ℕ) : ℕ := (tail + n - head) % n

/-- The slots that the tail passes. -/
def passed (n head tail : ℕ) : List ℕ := (List.range (count n head tail)).map fun i => (head + i) % n

namespace Queue

variable [DecidableEq κ] (q : Queue κ α ω)

/-- A word is written. -/
def write (slot : ℕ) (word : κ) (value : α) : Queue κ α ω where
  mem := Function.update q.mem slot (Function.update (q.mem slot) word value)
  head := q.head
  log := q.log ++ [.write slot word value]

/-- Something else happens. -/
def note (o : ω) : Queue κ α ω := { q with log := q.log ++ [.note o] }

/-- The tail of a queue of `n` slots is moved, and the consumer fetches up to it. -/
def ring (n tail : ℕ) : Queue κ α ω where
  mem := q.mem
  head := tail
  log := q.log ++ .doorbell tail :: (window q.mem n q.head (count n q.head tail)).map .fetched

/-- The words `ws` of a slot are written, in this order. -/
def writeSlot (ws : List κ) (slot : ℕ) (d : κ → α) : Queue κ α ω :=
  ws.foldl (fun q w => q.write slot w (d w)) q

/-- Slots are filled from the `i`-th one behind the head on. -/
def fill (n : ℕ) (ws : List κ) : Queue κ α ω → ℕ → List (κ → α) → Queue κ α ω
  | q, _, [] => q
  | q, i, d :: ds => fill n ws (q.writeSlot ws ((q.head + i) % n) d) (i + 1) ds

/-- **A request**: the slots are filled, and the tail is moved behind them. -/
def request (n : ℕ) (ws : List κ) (ds : List (κ → α)) : Queue κ α ω :=
  (fill n ws q 0 ds).ring n ((q.head + ds.length) % n)

end Queue

/-! ## The order of a log

Whether a log is in order depends on two things that it is read for: where the tail is, and which
words were written since it was moved. -/

/-- The tail after a log. -/
def lastTail (log : List (Event κ α ω)) : ℕ :=
  log.foldl (fun t e => match e with
    | .doorbell t' => t'
    | _ => t) 0

/-- The words that were written since the tail was moved last. -/
def openWrites (log : List (Event κ α ω)) : List (ℕ × κ) :=
  log.foldl (fun ws e => match e with
    | .write slot w _ => ws ++ [(slot, w)]
    | .doorbell _ => []
    | _ => ws) []

/-- **The tail only passes slots that are fully written** since it was moved last. -/
def Ordered (n : ℕ) (log : List (Event κ α ω)) : Prop :=
  ∀ before t after, log = before ++ .doorbell t :: after →
    ∀ slot ∈ passed n (lastTail before) t, ∀ w, (slot, w) ∈ openWrites before

/-- What the consumer fetched. -/
def fetchedOf (log : List (Event κ α ω)) : List (κ → α) :=
  log.filterMap fun e => match e with
    | .fetched words => some words
    | _ => none

/-- The notes of a log. -/
def notesOf (log : List (Event κ α ω)) : List ω :=
  log.filterMap fun e => match e with
    | .note o => some o
    | _ => none

variable {log log' : List (Event κ α ω)} {e : Event κ α ω} {n t : ℕ}

theorem fetchedOf_append : fetchedOf (log ++ log') = fetchedOf log ++ fetchedOf log' :=
  List.filterMap_append

theorem notesOf_append : notesOf (log ++ log') = notesOf log ++ notesOf log' :=
  List.filterMap_append

theorem ordered_nil : Ordered n ([] : List (Event κ α ω)) := by
  intro before t after h
  cases before with
  | nil => cases h
  | cons _ _ => cases h

/-- One more event: it matters if it moves the tail. -/
theorem Ordered.concat (h : Ordered n log)
    (hring : ∀ t, e = .doorbell t → ∀ slot ∈ passed n (lastTail log) t, ∀ w,
      (slot, w) ∈ openWrites log) : Ordered n (log ++ [e]) := by
  intro before t after heq
  obtain rfl | ⟨after', e', rfl⟩ := List.eq_nil_or_concat after
  · obtain ⟨rfl, he⟩ := List.append_inj' heq rfl
    exact hring t (List.cons.inj he).1
  · have heq' : log ++ [e] = (before ++ .doorbell t :: after') ++ [e'] := by
      rw [heq, List.concat_eq_append, List.append_assoc, List.cons_append]
    exact h before t after' (List.append_inj' heq' rfl).1

theorem Ordered.append (h : Ordered n log) (hnone : ∀ t, .doorbell t ∉ log') :
    Ordered n (log ++ log') := by
  induction log' using List.reverseRecOn with
  | nil => rwa [List.append_nil]
  | append_singleton log' e ih =>
    rw [← List.append_assoc]
    refine (ih fun t ht => hnone t (List.mem_append_left _ ht)).concat fun t he => ?_
    exact absurd (List.mem_append_right _ (List.mem_singleton.mpr he.symm)) (hnone t)

/-- Where the tail is not moved, it stays, and no write is forgotten. -/
theorem lastTail_append (hnone : ∀ t, .doorbell t ∉ log') :
    lastTail (log ++ log') = lastTail log := by
  induction log' using List.reverseRecOn with
  | nil => rw [List.append_nil]
  | append_singleton log' e ih =>
    have hrest := ih fun t ht => hnone t (List.mem_append_left _ ht)
    rw [lastTail] at hrest
    rw [← List.append_assoc, lastTail, List.foldl_append, hrest]
    cases e with
    | doorbell t => exact absurd (List.mem_append_right _ (List.mem_singleton.mpr rfl)) (hnone t)
    | write => rfl
    | fetched => rfl
    | note => rfl

theorem lastTail_doorbell : lastTail (log ++ [.doorbell t]) = t := by
  rw [lastTail, List.foldl_append]
  rfl

/-- A word that is written is written, until the tail is moved. -/
theorem mem_openWrites {slot : ℕ} {w : κ} {v : α} (hnone : ∀ t, .doorbell t ∉ log')
    (hmem : .write slot w v ∈ log') : (slot, w) ∈ openWrites (log ++ log') := by
  induction log' using List.reverseRecOn with
  | nil => cases hmem
  | append_singleton log' e ih =>
    have hkeep : .write slot w v ∈ log' → (slot, w) ∈ openWrites (log ++ log') :=
      ih fun t ht => hnone t (List.mem_append_left _ ht)
    have hstep : openWrites (log ++ (log' ++ [e])) = match e with
        | .write slot w _ => openWrites (log ++ log') ++ [(slot, w)]
        | .doorbell _ => []
        | _ => openWrites (log ++ log') := by
      rw [← List.append_assoc, openWrites, List.foldl_append]
      cases e <;> rfl
    rw [hstep]
    rcases List.mem_append.mp hmem with hold | hnew
    · cases e with
      | doorbell t => exact absurd (List.mem_append_right _ (List.mem_singleton.mpr rfl)) (hnone t)
      | write => exact List.mem_append_left _ (hkeep hold)
      | fetched => exact hkeep hold
      | note => exact hkeep hold
    · obtain rfl := List.mem_singleton.mp hnew
      exact List.mem_append_right _ List.mem_cons_self

/-! ## Requests

A request writes words in slots that the consumer does not look at, and moves the tail once. Its
part of the log is known, whatever the queue was used for before. -/

theorem count_add {head m : ℕ} (hhead : head < n) (hm : m < n) :
    count n head ((head + m) % n) = m := by
  rw [count]
  by_cases hwrap : head + m < n
  · rw [Nat.mod_eq_of_lt hwrap, show head + m + n - head = m + n by omega, Nat.add_mod_right,
      Nat.mod_eq_of_lt hm]
  · have hmod : (head + m) % n = head + m - n := by
      rw [Nat.mod_eq_sub_mod (by omega), Nat.mod_eq_of_lt (by omega)]
    rw [hmod, show head + m - n + n - head = m by omega, Nat.mod_eq_of_lt hm]

namespace Queue

variable [DecidableEq κ] {q : Queue κ α ω} {ws : List κ} {slot : ℕ} {d : κ → α}

/-- The events of the writes to a slot. -/
def slotWrites (ws : List κ) (slot : ℕ) (d : κ → α) : List (Event κ α ω) :=
  ws.map fun w => .write slot w (d w)

theorem writeSlot_log : (q.writeSlot ws slot d).log = q.log ++ slotWrites ws slot d := by
  induction ws generalizing q with
  | nil => exact (List.append_nil _).symm
  | cons w ws ih =>
    have h : ((q.write slot w (d w)).writeSlot ws slot d).log = _ := ih
    rw [writeSlot] at h ⊢
    rw [List.foldl_cons, h, write, List.append_assoc]
    rfl

theorem writeSlot_head : (q.writeSlot ws slot d).head = q.head := by
  induction ws generalizing q with
  | nil => rfl
  | cons w ws ih => exact ih

theorem writeSlot_apply (k : ℕ) (w : κ) : (q.writeSlot ws slot d).mem k w =
    if k = slot ∧ w ∈ ws then d w else q.mem k w := by
  induction ws generalizing q with
  | nil => simp [writeSlot]
  | cons w' ws ih =>
    have h : ((q.write slot w' (d w')).writeSlot ws slot d).mem k w = _ := ih
    rw [writeSlot] at h ⊢
    rw [List.foldl_cons, h, write]
    by_cases hk : k = slot
    · subst hk
      by_cases hw : w = w'
      · subst hw
        simp
      · simp [hw, Function.update_of_ne]
    · simp [hk, Function.update_of_ne]

/-- A slot of which all words are written holds them. -/
theorem writeSlot_mem (hws : ∀ w, w ∈ ws) :
    (q.writeSlot ws slot d).mem = Function.update q.mem slot d := by
  funext k w
  rw [writeSlot_apply]
  by_cases hk : k = slot
  · rw [if_pos ⟨hk, hws w⟩, hk, Function.update_self]
  · rw [if_neg fun h => hk h.1, Function.update_of_ne hk]

theorem fill_head {i : ℕ} (ds : List (κ → α)) : (fill n ws q i ds).head = q.head := by
  induction ds generalizing q i with
  | nil => rfl
  | cons d ds ih =>
    rw [fill, ih]
    exact writeSlot_head

/-- **The slots behind the head hold what was filled in.** -/
theorem window_fill (hws : ∀ w, w ∈ ws) {i : ℕ} (ds : List (κ → α)) (hlen : i + ds.length ≤ n) :
    window (fill n ws q i ds).mem n q.head (i + ds.length) = window q.mem n q.head i ++ ds := by
  induction ds generalizing q i with
  | nil => exact (List.append_nil _).symm
  | cons d ds ih =>
    have hlen' : i + 1 + ds.length ≤ n := by
      rw [List.length_cons] at hlen
      omega
    have h := ih (q := q.writeSlot ws ((q.head + i) % n) d) hlen'
    rw [writeSlot_head, writeSlot_mem hws, RingBuffer.window_push d (by omega),
      List.append_assoc] at h
    rw [fill, List.length_cons, show i + (ds.length + 1) = i + 1 + ds.length by omega, h]
    rfl

/-- Filling writes every word of every slot, and does not move the tail. -/
theorem fill_log (hws : ∀ w, w ∈ ws) {i : ℕ} (ds : List (κ → α)) : ∃ writes,
    (fill n ws q i ds).log = q.log ++ writes ∧ (∀ e ∈ writes, ∃ slot w v, e = .write slot w v) ∧
      ∀ j < ds.length, ∀ w, ∃ v, .write ((q.head + (i + j)) % n) w v ∈ writes := by
  induction ds generalizing q i with
  | nil => exact ⟨[], (List.append_nil _).symm, nofun, fun j hj => absurd hj (Nat.not_lt_zero j)⟩
  | cons d ds ih =>
    obtain ⟨writes, hlog, hwrites, hall⟩ :=
      ih (q := q.writeSlot ws ((q.head + i) % n) d) (i := i + 1)
    rw [writeSlot_head] at hall
    refine ⟨slotWrites ws ((q.head + i) % n) d ++ writes, ?_, ?_, ?_⟩
    · rw [fill, hlog, writeSlot_log, List.append_assoc]
    · intro e he
      rcases List.mem_append.mp he with he | he
      · obtain ⟨w, -, rfl⟩ := List.mem_map.mp he
        exact ⟨_, _, _, rfl⟩
      · exact hwrites e he
    · intro j hj w
      cases j with
      | zero =>
        refine ⟨d w, List.mem_append_left _ (List.mem_map.mpr ⟨w, hws w, rfl⟩)⟩
      | succ j =>
        obtain ⟨v, hv⟩ := hall j (Nat.lt_of_succ_lt_succ hj) w
        rw [show i + 1 + j = i + (j + 1) by omega] at hv
        exact ⟨v, List.mem_append_right _ hv⟩

/-- **A request** appends its writes, the doorbell and the fetches of what it is made of. -/
theorem request_log (hws : ∀ w, w ∈ ws) (hhead : q.head < n) (ds : List (κ → α))
    (hlen : ds.length < n) : ∃ writes,
    (q.request n ws ds).log = q.log ++ writes ++
      .doorbell ((q.head + ds.length) % n) :: ds.map .fetched ∧
    (∀ e ∈ writes, ∃ slot w v, e = .write slot w v) ∧
    ∀ j < ds.length, ∀ w, ∃ v, .write ((q.head + j) % n) w v ∈ writes := by
  obtain ⟨writes, hlog, hwrites, hall⟩ := fill_log (n := n) (q := q) hws (i := 0) ds
  have hwindow := window_fill (n := n) (q := q) hws (i := 0) ds (by omega)
  rw [Nat.zero_add, RingBuffer.window_zero, List.nil_append] at hwindow
  refine ⟨writes, ?_, hwrites, fun j hj w => ?_⟩
  · rw [request, ring]
    dsimp only
    rw [fill_head, count_add hhead hlen, hwindow, hlog]
  · have h := hall j hj w
    rwa [Nat.zero_add] at h

/-- The tail register is where the consumer stands. -/
def Settled (n : ℕ) (q : Queue κ α ω) : Prop :=
  q.head < n ∧ lastTail q.log = q.head ∧ Ordered n q.log

/-- **A request keeps the order.** -/
theorem Settled.request (h : q.Settled n) (hws : ∀ w, w ∈ ws) (ds : List (κ → α))
    (hlen : ds.length < n) : (q.request n ws ds).Settled n := by
  obtain ⟨hhead, htail, hordered⟩ := h
  obtain ⟨writes, hlog, hwrites, hall⟩ := request_log hws hhead ds hlen
  have hnone : ∀ t, .doorbell t ∉ writes := by
    intro t ht
    obtain ⟨slot, w, v, he⟩ := hwrites _ ht
    cases he
  have hfetched : ∀ t, .doorbell t ∉ (ds.map .fetched : List (Event κ α ω)) := by
    intro t ht
    obtain ⟨d, -, hd⟩ := List.mem_map.mp ht
    cases hd
  rw [← List.singleton_append, ← List.append_assoc] at hlog
  refine ⟨Nat.mod_lt _ (by omega), ?_, ?_⟩
  · rw [hlog, lastTail_append hfetched, lastTail_doorbell]
    rfl
  · rw [hlog]
    refine ((hordered.append hnone).concat fun t ht => ?_).append hfetched
    cases ht
    -- the tail passes exactly the slots of the request
    rw [lastTail_append hnone, htail, passed, count_add hhead hlen]
    intro slot hslot w
    obtain ⟨j, hj, rfl⟩ := List.mem_map.mp hslot
    obtain ⟨v, hv⟩ := hall j (List.mem_range.mp hj) w
    exact mem_openWrites hnone hv

omit [DecidableEq κ] in
theorem Settled.note (h : q.Settled n) (o : ω) : (q.note o).Settled n := by
  obtain ⟨hhead, htail, hordered⟩ := h
  have hnone : ∀ t, .doorbell t ∉ ([.note o] : List (Event κ α ω)) := by
    intro t ht
    cases List.mem_singleton.mp ht
  exact ⟨hhead, (lastTail_append hnone).trans htail, hordered.append hnone⟩

end Queue

end DoorbellQueue
