import Mathlib.Logic.Function.Basic

/-!
# Partial pairings

Points of which some are paired, each with one point: a table of optional peers in which the peer
of a peer is the point itself. `connect` pairs two free points, and `disconnect` frees a point
together with its peer.
-/

namespace Pairing

variable {V : Type*} {peer : V → Option V} {u v x y : V}

/-- The table is symmetric. A point may be its own peer. -/
structure IsPairing (peer : V → Option V) : Prop where
  symm : ∀ {x y}, peer x = some y → peer y = some x

variable [DecidableEq V]

/-- The two points point to each other. -/
def connect (peer : V → Option V) (u v : V) : V → Option V :=
  Function.update (Function.update peer u (some v)) v (some u)

/-- The point and its peer are free. -/
def disconnect (peer : V → Option V) (u : V) : V → Option V :=
  match peer u with
  | some v => Function.update (Function.update peer v none) u none
  | none => peer

theorem connect_eq_some_iff (hu : peer u = none) (hv : peer v = none) :
    connect peer u v x = some y ↔ x = u ∧ y = v ∨ x = v ∧ y = u ∨ peer x = some y := by
  rw [connect]
  by_cases hxv : x = v
  · subst hxv
    rw [Function.update_self, hv]
    constructor
    · intro h
      exact .inr (.inl ⟨rfl, (Option.some.inj h).symm⟩)
    · rintro (⟨rfl, rfl⟩ | ⟨-, rfl⟩ | h)
      · rfl
      · rfl
      · cases h
  · rw [Function.update_of_ne hxv]
    by_cases hxu : x = u
    · subst hxu
      rw [Function.update_self, hu]
      constructor
      · intro h
        exact .inl ⟨rfl, (Option.some.inj h).symm⟩
      · rintro (⟨-, rfl⟩ | ⟨h, -⟩ | h)
        · rfl
        · exact absurd h hxv
        · cases h
    · rw [Function.update_of_ne hxu]
      constructor
      · intro h
        exact .inr (.inr h)
      · rintro (⟨h, -⟩ | ⟨h, -⟩ | h)
        · exact absurd h hxu
        · exact absurd h hxv
        · exact h

theorem disconnect_of_some (hv : peer u = some v) : disconnect peer u =
    Function.update (Function.update peer v none) u none := by
  rw [disconnect, hv]

theorem disconnect_of_none (hu : peer u = none) : disconnect peer u = peer := by
  rw [disconnect, hu]

/-- What `disconnect` leaves: the pairs without the point. -/
theorem disconnect_eq_some_iff (h : IsPairing peer) :
    disconnect peer u x = some y ↔ peer x = some y ∧ x ≠ u ∧ y ≠ u := by
  cases hv : peer u with
  | some v =>
    rw [disconnect_of_some hv]
    by_cases hxu : x = u
    · subst hxu
      rw [Function.update_self]
      exact ⟨nofun, fun hc => absurd rfl hc.2.1⟩
    · rw [Function.update_of_ne hxu]
      by_cases hxv : x = v
      · subst hxv
        rw [Function.update_self, h.symm hv]
        exact ⟨nofun, fun hc => absurd (Option.some.inj hc.1).symm hc.2.2⟩
      · rw [Function.update_of_ne hxv]
        refine ⟨fun hxy => ⟨hxy, hxu, ?_⟩, And.left⟩
        rintro rfl
        rw [h.symm hxy] at hv
        exact hxv (Option.some.inj hv)
  | none =>
    rw [disconnect_of_none hv]
    refine ⟨fun hxy => ⟨hxy, ?_, ?_⟩, And.left⟩
    · rintro rfl
      rw [hv] at hxy
      cases hxy
    · rintro rfl
      rw [h.symm hxy] at hv
      cases hv

theorem IsPairing.disconnect (h : IsPairing peer) : IsPairing (disconnect peer u) where
  symm hxy := by
    rw [disconnect_eq_some_iff h] at hxy ⊢
    exact ⟨h.symm hxy.1, hxy.2.2, hxy.2.1⟩

/-- Several points freed one after the other. -/
theorem foldl_disconnect_eq_some_iff (h : IsPairing peer) (us : List V) :
    us.foldl Pairing.disconnect peer x = some y ↔ peer x = some y ∧ x ∉ us ∧ y ∉ us := by
  induction us generalizing peer with
  | nil => simp
  | cons u us ih =>
    rw [List.foldl_cons, ih h.disconnect, disconnect_eq_some_iff h]
    simp only [List.mem_cons, not_or]
    constructor
    · rintro ⟨⟨hxy, hx, hy⟩, hxs, hys⟩
      exact ⟨hxy, ⟨hx, hxs⟩, hy, hys⟩
    · rintro ⟨hxy, ⟨hx, hxs⟩, hy, hys⟩
      exact ⟨⟨hxy, hx, hy⟩, hxs, hys⟩

end Pairing
