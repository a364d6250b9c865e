import Acrn.GuestBoot
import Acrn.Shell

/-!
# Copying a string within its destination

`strncpy_s` of `string.c`, for two buffers anywhere in memory. `overlap_guard` is to stop the copy
before it reads what it has written; it begins one below the distance of the two buffers, and so
it stops a copy that comes within one character of the distance.
-/

namespace Acrn

open ByteMem ByteCopy

/-! ## What is written -/

/-- The addresses that the loop of `strncpy_s` writes to, in their order. -/
def strncpyLoopWrites : ℕ → ℕ → ℕ → ℕ → ℕ → HostMem → List ℕ
  | 0, _, _, _, _, _ => []
  | avail + 1, d, s, slen, guard, m =>
    if guard = 0 then [d - 1]
    else if slen = 0 then [d]
    else
      let m := Function.update m d (m s)
      if m d = 0#8 then [d]
      else d :: strncpyLoopWrites avail (d + 1) (s + 1) (slen - 1) (guard - 1) m

/-- `overlap_guard` at the beginning. -/
def overlapGuard (d s : ℕ) : ℕ := if s < d then d - s - 1 else s - d - 1

/-- The addresses that `strncpy_s` writes to. -/
def strncpyWrites (d dmax s slen : ℕ) (m : HostMem) : List ℕ :=
  if d = 0 ∨ s = 0 then []
  else if dmax = 0 ∨ slen = 0 then []
  else if d = s then []
  else strncpyLoopWrites dmax d s slen (overlapGuard d s) m ++
    if (strncpyLoop dmax d s slen (overlapGuard d s) m).1 = 0 then [d + dmax - 1] else []

/-- `pret[dmax - 1]` is written when `pret` is `NULL`. -/
def StrncpyDerefsNull (d dmax s slen : ℕ) (m : HostMem) : Prop :=
  ¬ (d = 0 ∨ s = 0) ∧ ¬ (dmax = 0 ∨ slen = 0) ∧ d ≠ s ∧
    (strncpyLoop dmax d s slen (overlapGuard d s) m).1 = 0 ∧
    (strncpyLoop dmax d s slen (overlapGuard d s) m).2.1 = false

theorem strncpyLoop_frame {avail d s slen guard : ℕ} {m : HostMem} {a : ℕ}
    (ha : a ∉ strncpyLoopWrites avail d s slen guard m) :
    (strncpyLoop avail d s slen guard m).2.2 a = m a := by
  induction avail generalizing d s slen guard m with
  | zero => rfl
  | succ avail ih =>
    rw [strncpyLoopWrites] at ha
    rw [strncpyLoop]
    split at ha
    · next hguard =>
      rw [if_pos hguard]
      exact Function.update_of_ne (List.ne_of_not_mem_cons ha) _ _
    · next hguard =>
      rw [if_neg hguard]
      split at ha
      · next hslen =>
        rw [if_pos hslen]
        exact Function.update_of_ne (List.ne_of_not_mem_cons ha) _ _
      · next hslen =>
        rw [if_neg hslen]
        dsimp only at ha ⊢
        split at ha
        · next hnul =>
          rw [if_pos hnul]
          exact Function.update_of_ne (List.ne_of_not_mem_cons ha) _ _
        · next hnul =>
          rw [if_neg hnul, ih (fun h => ha (List.mem_cons_of_mem _ h))]
          exact Function.update_of_ne (List.ne_of_not_mem_cons ha) _ _

/-- `strncpy_s` on two buffers that it accepts. -/
theorem strncpyS_of_ne {d dmax s slen : ℕ} {m : HostMem} (hnull : ¬ (d = 0 ∨ s = 0))
    (hsize : ¬ (dmax = 0 ∨ slen = 0)) (hne : d ≠ s) : strncpyS d dmax s slen m =
      if (strncpyLoop dmax d s slen (overlapGuard d s) m).1 = 0 then
        (some d, Function.update (strncpyLoop dmax d s slen (overlapGuard d s) m).2.2
          (d + dmax - 1) 0#8)
      else (if (strncpyLoop dmax d s slen (overlapGuard d s) m).2.1 = true then some d else none,
        (strncpyLoop dmax d s slen (overlapGuard d s) m).2.2) := by
  rw [strncpyS, if_neg hnull, if_neg hsize, if_neg hne]
  rfl

theorem strncpyWrites_of_ne {d dmax s slen : ℕ} {m : HostMem} (hnull : ¬ (d = 0 ∨ s = 0))
    (hsize : ¬ (dmax = 0 ∨ slen = 0)) (hne : d ≠ s) : strncpyWrites d dmax s slen m =
      strncpyLoopWrites dmax d s slen (overlapGuard d s) m ++
        if (strncpyLoop dmax d s slen (overlapGuard d s) m).1 = 0 then [d + dmax - 1] else [] := by
  rw [strncpyWrites, if_neg hnull, if_neg hsize, if_neg hne]

/-- What is not written to stays. -/
theorem strncpyS_frame {d dmax s slen : ℕ} {m : HostMem} {a : ℕ}
    (ha : a ∉ strncpyWrites d dmax s slen m) : (strncpyS d dmax s slen m).2 a = m a := by
  by_cases hnull : d = 0 ∨ s = 0
  · rw [strncpyS, if_pos hnull]
  by_cases hsize : dmax = 0 ∨ slen = 0
  · rw [strncpyS, if_neg hnull, if_pos hsize]
  by_cases hne : d = s
  · rw [strncpyS, if_neg hnull, if_neg hsize, if_pos hne]
  rw [strncpyWrites_of_ne hnull hsize hne, List.mem_append, not_or] at ha
  rw [strncpyS_of_ne hnull hsize hne]
  split
  · next hout =>
    rw [if_pos hout] at ha
    exact (Function.update_of_ne (List.ne_of_not_mem_cons ha.2) _ _).trans
      (strncpyLoop_frame ha.1)
  · exact strncpyLoop_frame ha.1

/-! ## The loop

The loop ends for one of three reasons. Until then the `k`-th round copies the `k`-th character, if
the source below the guard is as it was. -/

section Loop

variable {m : HostMem} {d dmax s slen k : ℕ}

/-- The memory after `k` characters. -/
def copied (d s k : ℕ) (m : HostMem) : HostMem := copyCells (d + ·) (s + ·) k m

theorem copied_succ (d s k : ℕ) (m : HostMem) :
    copied d s (k + 1) m = Function.update (copied d s k m) (d + k) (copied d s k m (s + k)) := rfl

/-- Below the guard the source is as it was. -/
theorem copied_source (hk : k ≤ overlapGuard d s) (m : HostMem) :
    copied d s k m (s + k) = m (s + k) := by
  refine copyCells_frame m fun i hi => ?_
  rw [overlapGuard] at hk
  split at hk
  · omega
  · omega

/-- **The loop advances** as long as neither the space, nor the string, nor the guard is at its
end. -/
theorem strncpyLoop_advance (hdmax : k ≤ dmax) (hguard : k ≤ overlapGuard d s)
    (hlen : k ≤ strnlenS m s slen) :
    strncpyLoop dmax d s slen (overlapGuard d s) m =
        strncpyLoop (dmax - k) (d + k) (s + k) (slen - k) (overlapGuard d s - k) (copied d s k m) ∧
      strncpyLoopWrites dmax d s slen (overlapGuard d s) m = (List.range k).map (d + ·) ++
        strncpyLoopWrites (dmax - k) (d + k) (s + k) (slen - k) (overlapGuard d s - k)
          (copied d s k m) := by
  induction k with
  | zero => exact ⟨rfl, rfl⟩
  | succ k ih =>
    obtain ⟨hloop, hwrites⟩ := ih (by omega) (by omega) (by omega)
    have hslen := strnlenS_le m s slen
    have hchar : copied d s (k + 1) m (d + k) ≠ 0#8 := by
      rw [copied_succ, Function.update_self, copied_source (by omega)]
      exact ne_nul_of_lt_strnlenS hlen
    have havail : dmax - k = (dmax - (k + 1)) + 1 := by omega
    have hg : overlapGuard d s - k ≠ 0 := by omega
    have hs : slen - k ≠ 0 := by omega
    have hstep : (copied d s (k + 1) m) = Function.update (copied d s k m) (d + k)
        (copied d s k m (s + k)) := copied_succ d s k m
    rw [havail, strncpyLoop, if_neg hg, if_neg hs] at hloop
    rw [havail, strncpyLoopWrites, if_neg hg, if_neg hs] at hwrites
    rw [hstep] at hchar
    dsimp only at hloop hwrites
    rw [if_neg hchar, ← hstep] at hloop hwrites
    refine ⟨hloop, ?_⟩
    rw [hwrites, List.range_succ, List.map_append, List.append_assoc]
    rfl

/-- The space is at its end. -/
theorem strncpyLoop_full (hguard : dmax ≤ overlapGuard d s) (hlen : dmax ≤ strnlenS m s slen) :
    strncpyLoop dmax d s slen (overlapGuard d s) m = (0, true, copied d s dmax m) ∧
      strncpyLoopWrites dmax d s slen (overlapGuard d s) m = (List.range dmax).map (d + ·) := by
  obtain ⟨hloop, hwrites⟩ := strncpyLoop_advance (Nat.le_refl dmax) hguard hlen
  rw [Nat.sub_self] at hloop hwrites
  rw [hloop, hwrites]
  exact ⟨rfl, List.append_nil _⟩

/-- The guard is at its end. -/
theorem strncpyLoop_overlap (hdmax : overlapGuard d s < dmax)
    (hlen : overlapGuard d s ≤ strnlenS m s slen) :
    strncpyLoop dmax d s slen (overlapGuard d s) m = (dmax - overlapGuard d s, false,
        Function.update (copied d s (overlapGuard d s) m) (d + overlapGuard d s - 1) 0#8) ∧
      strncpyLoopWrites dmax d s slen (overlapGuard d s) m =
        (List.range (overlapGuard d s)).map (d + ·) ++ [d + overlapGuard d s - 1] := by
  obtain ⟨hloop, hwrites⟩ := strncpyLoop_advance hdmax.le (Nat.le_refl _) hlen
  obtain ⟨avail, havail⟩ : ∃ avail, dmax - overlapGuard d s = avail + 1 :=
    ⟨dmax - overlapGuard d s - 1, by omega⟩
  rw [havail, Nat.sub_self] at hloop hwrites
  rw [hloop, hwrites, havail]
  exact ⟨rfl, rfl⟩

/-- The string is at its end. -/
theorem strncpyLoop_done (hdmax : strnlenS m s slen < dmax)
    (hguard : strnlenS m s slen < overlapGuard d s) :
    strncpyLoop dmax d s slen (overlapGuard d s) m = (dmax - strnlenS m s slen, true,
        Function.update (copied d s (strnlenS m s slen) m) (d + strnlenS m s slen) 0#8) ∧
      strncpyLoopWrites dmax d s slen (overlapGuard d s) m =
        (List.range (strnlenS m s slen)).map (d + ·) ++ [d + strnlenS m s slen] := by
  obtain ⟨hloop, hwrites⟩ := strncpyLoop_advance hdmax.le hguard.le (Nat.le_refl _)
  have hsource := copied_source hguard.le m
  generalize hL : strnlenS m s slen = L at *
  obtain ⟨avail, havail⟩ : ∃ avail, dmax - L = avail + 1 := ⟨dmax - L - 1, by omega⟩
  have hg : overlapGuard d s - L ≠ 0 := by omega
  rw [havail, strncpyLoop, if_neg hg] at hloop
  rw [havail, strncpyLoopWrites, if_neg hg] at hwrites
  by_cases hend : slen - L = 0
  · rw [if_pos hend] at hloop hwrites
    rw [hloop, hwrites, havail]
    exact ⟨rfl, rfl⟩
  · -- the character at the end is the NUL
    have hnul : copied d s L m (s + L) = 0#8 := by
      have hlt : strnlenS m s slen < slen := by omega
      have hterm := nul_of_strnlenS_lt hlt
      rw [hL] at hterm
      rw [hsource, hterm]
    rw [if_neg hend, hnul] at hloop hwrites
    rw [if_pos (Function.update_self _ _ _)] at hloop hwrites
    rw [hloop, hwrites, havail]
    exact ⟨rfl, rfl⟩

end Loop

/-! ## The string that is left

The guard counts the characters down to where one buffer begins in the other. It stops a copy one
character early, so that two buffers can be apart and yet too close to each other. -/

section Result

variable {m : HostMem} {d dmax s slen : ℕ}

/-- The bytes of the source: its characters within `slen`, and its NUL if that is among them. -/
def sourceSize (m : HostMem) (s slen : ℕ) : ℕ := min (strnlenS m s slen + 1) slen

/-- `d` holds the first `n` characters of the string that was at `s`, followed by a NUL. -/
def HoldsPrefix (d s : ℕ) (m m' : HostMem) (n : ℕ) : Prop :=
  (∀ i < n, m' (d + i) = m (s + i)) ∧ m' (d + n) = 0#8

/-- `strncpy_s` stays in its destination. -/
structure StrncpyOk (d dmax s slen : ℕ) (m : HostMem) : Prop where
  inside : ∀ a ∈ strncpyWrites d dmax s slen m, d ≤ a ∧ a < d + dmax
  noNull : ¬ StrncpyDerefsNull d dmax s slen m
  apart : Apart d dmax s (sourceSize m s slen) → (strncpyS d dmax s slen m).1 = some d ∧
    HoldsPrefix d s m (strncpyS d dmax s slen m).2 (min (strnlenS m s slen) (dmax - 1))
  overlap : (strncpyS d dmax s slen m).1 = none → ∃ n < dmax, n ≤ strnlenS m s slen ∧
    HoldsPrefix d s m (strncpyS d dmax s slen m).2 n

/-- The distance of the two buffers. -/
def distance (d s : ℕ) : ℕ := if s < d then d - s else s - d

theorem overlapGuard_eq (d s : ℕ) : overlapGuard d s = distance d s - 1 := by
  rw [overlapGuard, distance]
  split
  · rfl
  · rfl

theorem distance_eq_zero_iff : distance d s = 0 ↔ d = s := by
  rw [distance]
  split
  · omega
  · omega

/-- The characters that were copied. -/
theorem copied_apply {k i : ℕ} (hk : k ≤ overlapGuard d s) (hi : i < k) (m : HostMem) :
    copied d s k m (d + i) = m (s + i) := by
  rw [overlapGuard] at hk
  have hlast : ∀ j, i < j → j < k → d + j ≠ d + i := fun j hij _ => by omega
  have hsep : ∀ j < i, d + j ≠ s + i := by
    intro j hj
    split at hk
    · omega
    · omega
  exact @copyCells_value _ _ _ (d + ·) (s + ·) k i m hi hlast hsep

/-- A NUL behind the first `n` characters of a copy. -/
theorem holdsPrefix_copied {k n : ℕ} (hk : k ≤ overlapGuard d s) (hn : n ≤ k) :
    HoldsPrefix d s m (Function.update (copied d s k m) (d + n) 0#8) n := by
  refine ⟨fun i hi => ?_, Function.update_self _ _ _⟩
  have hne : d + i ≠ d + n := by omega
  rw [Function.update_of_ne hne]
  exact copied_apply hk (Nat.lt_of_lt_of_le hi hn) m

theorem mem_range_map {k a : ℕ} (ha : a ∈ (List.range k).map (d + ·)) : d ≤ a ∧ a < d + k := by
  obtain ⟨i, hi, rfl⟩ := List.mem_map.mp ha
  have := List.mem_range.mp hi
  omega

/-- Nothing is done to a string that is in its place. -/
theorem strncpyOk_self (hd : d ≠ 0) (hdmax : 1 ≤ dmax) (hslen : 1 ≤ slen) :
    StrncpyOk d dmax d slen m where
  inside := by
    have hnull : ¬ (d = 0 ∨ d = 0) := by omega
    have hsize : ¬ (dmax = 0 ∨ slen = 0) := by omega
    rw [strncpyWrites, if_neg hnull, if_neg hsize, if_pos rfl]
    nofun
  noNull := fun h => h.2.2.1 rfl
  apart := by
    intro hapart
    rw [sourceSize, apart_iff] at hapart
    omega
  overlap := by
    have hnull : ¬ (d = 0 ∨ d = 0) := by omega
    have hsize : ¬ (dmax = 0 ∨ slen = 0) := by omega
    rw [strncpyS, if_neg hnull, if_neg hsize, if_pos rfl]
    nofun

/-- The copy is not stopped by the guard. -/
theorem strncpyOk_of_lt (hd : d ≠ 0) (hs : s ≠ 0) (hdmax : 1 ≤ dmax) (hslen : 1 ≤ slen)
    (hne : d ≠ s) (hguard : min dmax (strnlenS m s slen + 1) ≤ overlapGuard d s) :
    StrncpyOk d dmax s slen m := by
  have hnull : ¬ (d = 0 ∨ s = 0) := by omega
  have hsize : ¬ (dmax = 0 ∨ slen = 0) := by omega
  rcases Nat.lt_or_ge (strnlenS m s slen) dmax with hlt | hge
  · -- the string fits
    have hbelow : strnlenS m s slen < overlapGuard d s := by omega
    obtain ⟨hloop, hwrites⟩ := strncpyLoop_done hlt hbelow
    have hpos : dmax - strnlenS m s slen ≠ 0 := by omega
    have hresult := strncpyS_of_ne (m := m) hnull hsize hne
    have hlist := strncpyWrites_of_ne (m := m) hnull hsize hne
    rw [hloop] at hresult hlist
    dsimp only at hresult hlist
    rw [if_neg hpos, if_pos rfl] at hresult
    rw [if_neg hpos, List.append_nil, hwrites] at hlist
    have hmin : min (strnlenS m s slen) (dmax - 1) = strnlenS m s slen := by omega
    constructor
    · intro a ha
      rw [hlist, List.mem_append, List.mem_singleton] at ha
      rcases ha with ha | rfl
      · have := mem_range_map ha
        omega
      · omega
    · rintro ⟨-, -, -, -, hpret⟩
      rw [hloop] at hpret
      cases hpret
    · intro _
      rw [hresult, hmin]
      exact ⟨rfl, holdsPrefix_copied (by omega) (Nat.le_refl _)⟩
    · rw [hresult]
      nofun
  · -- the string is cut
    have hbelow : dmax ≤ overlapGuard d s := by omega
    obtain ⟨hloop, hwrites⟩ := strncpyLoop_full hbelow hge
    have hresult := strncpyS_of_ne (m := m) hnull hsize hne
    have hlist := strncpyWrites_of_ne (m := m) hnull hsize hne
    rw [hloop] at hresult hlist
    dsimp only at hresult hlist
    rw [if_pos rfl] at hresult
    rw [if_pos rfl, hwrites] at hlist
    have hmin : min (strnlenS m s slen) (dmax - 1) = dmax - 1 := by omega
    constructor
    · intro a ha
      rw [hlist, List.mem_append, List.mem_singleton] at ha
      rcases ha with ha | rfl
      · exact mem_range_map ha
      · omega
    · rintro ⟨-, -, -, -, hpret⟩
      rw [hloop] at hpret
      cases hpret
    · intro _
      rw [hresult, hmin, Nat.add_sub_assoc hdmax]
      exact ⟨rfl, holdsPrefix_copied (by omega) (Nat.sub_le _ _)⟩
    · rw [hresult]
      nofun

/-- The copy is stopped by the guard. -/
theorem strncpyS_stopped (hd : d ≠ 0) (hs : s ≠ 0) (hdmax : 1 ≤ dmax) (hslen : 1 ≤ slen)
    (hne : d ≠ s) (hguard : overlapGuard d s < min dmax (strnlenS m s slen + 1)) :
    strncpyS d dmax s slen m = (none,
        Function.update (copied d s (overlapGuard d s) m) (d + overlapGuard d s - 1) 0#8) ∧
      strncpyWrites d dmax s slen m =
        (List.range (overlapGuard d s)).map (d + ·) ++ [d + overlapGuard d s - 1] ∧
      ¬ StrncpyDerefsNull d dmax s slen m := by
  have hnull : ¬ (d = 0 ∨ s = 0) := by omega
  have hsize : ¬ (dmax = 0 ∨ slen = 0) := by omega
  have hlt : overlapGuard d s < dmax := by omega
  have hlen : overlapGuard d s ≤ strnlenS m s slen := by omega
  obtain ⟨hloop, hwrites⟩ := strncpyLoop_overlap hlt hlen
  have hpos : dmax - overlapGuard d s ≠ 0 := by omega
  refine ⟨?_, ?_, ?_⟩
  · rw [strncpyS_of_ne hnull hsize hne, hloop]
    exact if_neg hpos
  · rw [strncpyWrites_of_ne hnull hsize hne, hloop, hwrites]
    dsimp only
    rw [if_neg hpos, List.append_nil]
  · rintro ⟨-, -, -, hout, -⟩
    rw [hloop] at hout
    exact hpos hout

end Result

/-- **`strncpy_s` stays in its destination** exactly if the buffers are not neighbouring bytes, and
if, being apart, they are further apart than the string and its NUL are long or than the
destination is. -/
theorem strncpyS_ok_iff {d dmax s slen : ℕ} {m : HostMem} (hd : d ≠ 0) (hs : s ≠ 0)
    (hdmax : 1 ≤ dmax) (hslen : 1 ≤ slen) : StrncpyOk d dmax s slen m ↔
      distance d s ≠ 1 ∧ ¬ (Apart d dmax s (sourceSize m s slen) ∧
        distance d s ≤ min dmax (strnlenS m s slen + 1)) := by
  by_cases hne : d = s
  · subst hne
    have hzero : distance d d = 0 := distance_eq_zero_iff.mpr rfl
    refine iff_of_true (strncpyOk_self hd hdmax hslen) ⟨by omega, fun h => ?_⟩
    have hapart := h.1
    rw [sourceSize, apart_iff] at hapart
    omega
  have hdist : distance d s ≠ 0 := fun h => hne (distance_eq_zero_iff.mp h)
  have hguard := overlapGuard_eq d s
  rcases Nat.lt_or_ge (overlapGuard d s) (min dmax (strnlenS m s slen + 1)) with hlt | hge
  · obtain ⟨hresult, hwrites, hnull⟩ := strncpyS_stopped hd hs hdmax hslen hne hlt
    constructor
    · intro hok
      refine ⟨fun hone => ?_, fun h => ?_⟩
      · -- the NUL goes in front of the destination
        have hin := hok.inside (d + overlapGuard d s - 1) (by
          rw [hwrites]
          exact List.mem_append_right _ (List.mem_singleton_self _))
        omega
      · have hsome := (hok.apart h.1).1
        rw [hresult] at hsome
        cases hsome
    · rintro ⟨hone, hfar⟩
      constructor
      · intro a ha
        rw [hwrites, List.mem_append, List.mem_singleton] at ha
        rcases ha with ha | rfl
        · have := mem_range_map ha
          omega
        · omega
      · exact hnull
      · intro hapart
        exact absurd ⟨hapart, by omega⟩ hfar
      · intro _
        refine ⟨overlapGuard d s - 1, by omega, by omega, ?_⟩
        rw [hresult, Nat.add_sub_assoc (by omega)]
        exact holdsPrefix_copied (Nat.le_refl _) (Nat.sub_le _ _)
  · refine iff_of_true (strncpyOk_of_lt hd hs hdmax hslen hne hge) ⟨by omega, fun h => ?_⟩
    have := h.2
    omega

/-- A memory with the string `abc` at `0x1000`. -/
def abcMem (a : ℕ) : BitVec 8 :=
  if a = 0x1000 then 0x61#8 else if a = 0x1001 then 0x62#8 else if a = 0x1002 then 0x63#8 else 0#8

/-- A copy to a distant buffer. -/
theorem strncpyS_ok_far : StrncpyOk 0x2000 8 0x1000 8 abcMem :=
  (strncpyS_ok_iff (by decide) (by decide) (by decide) (by decide)).mpr (by decide)

/-- A copy to the buffer that lies right behind the string reports an overlap, and leaves two of
its three characters; a copy to the next byte puts a NUL in front of the destination. -/
theorem strncpyS_not_ok :
    Apart 0x1004 8 0x1000 (sourceSize abcMem 0x1000 8) ∧
      (strncpyS 0x1004 8 0x1000 8 abcMem).1 = none ∧ ¬ StrncpyOk 0x1004 8 0x1000 8 abcMem ∧
    0x1000 ∈ strncpyWrites 0x1001 8 0x1000 8 abcMem ∧ ¬ StrncpyOk 0x1001 8 0x1000 8 abcMem := by
  have hadjacent : (strncpyS 0x1004 8 0x1000 8 abcMem).1 = none := by decide
  have hapart : Apart 0x1004 8 0x1000 (sourceSize abcMem 0x1000 8) := by decide
  have hbefore : 0x1000 ∈ strncpyWrites 0x1001 8 0x1000 8 abcMem := by decide
  refine ⟨hapart, hadjacent, fun h => ?_, hbefore, fun h => ?_⟩
  · have hsome := (h.apart hapart).1
    rw [hadjacent] at hsome
    cases hsome
  · exact absurd (h.inside _ hbefore).1 (by decide)

end Acrn
