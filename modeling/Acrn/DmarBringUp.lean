import Acrn.DmarRegs

/-!
# Bringing the remapping units up

From whatever the firmware has left, but for a queue in use, `init_iommu` and `enable_iommu` give a
unit one command at a time, and translation is only on under the firmware's tables or under the
hypervisor's own, with nothing kept from before.
-/

namespace Acrn

open BitField Driver Relation DmarHw

/-! ## Commands

The command register takes one command at a time, which is the shadow in `gcmd` with one bit
changed. Until the unit has carried it out, nothing may be written that starts another. `Asks` is
the form of the commands that the driver gives; all that is used of a command later is proved of it
here. -/

namespace DmarHw

variable {h : DmarHw} {v gcmd : U32} {c : ℕ} {b : Bool}

/-- Nothing is under way. -/
structure Idle (h : DmarHw) : Prop where
  command : h.command = none
  drained : h.Drained

/-- A unit that has nothing to do stays as it is. -/
theorem Idle.not_tick (hidle : h.Idle) (h' : DmarHw) : ¬ h.Tick h' := by
  intro ht
  cases ht with
  | carryOut hcommand =>
    rw [hidle.command] at hcommand
    cases hcommand
  | fetch hqie hne => exact hne (hidle.drained hqie)

/-- The shadow of the command register is the one of the status. -/
structure Follows (h : DmarHw) (gcmd : U32) : Prop where
  toggles : ∀ i, toggleMask.getLsbD i = true → gcmd.getLsbD i = h.sts i
  once : ∀ i, onceMask.getLsbD i = true → gcmd.getLsbD i = false

/-- A write asks for each toggle that differs from the status, and for everything that is done once
and is in the command. -/
theorem getLsbD_asked (i : ℕ) : (h.asked v).getLsbD i =
    (((v.getLsbD i ^^ h.sts i) && toggleMask.getLsbD i) ||
      (v.getLsbD i && onceMask.getLsbD i)) := by
  rw [asked, BitVec.getLsbD_or, BitVec.getLsbD_and, BitVec.getLsbD_and, BitVec.getLsbD_xor, sts]

/-- No bit is of both kinds. -/
theorem once_of_toggle {i : ℕ} (h : toggleMask.getLsbD i = true) : onceMask.getLsbD i = false := by
  by_cases hi : i < 32
  · revert h
    revert i
    decide
  · exact BitVec.getLsbD_of_ge _ _ (not_lt.1 hi)

theorem getLsbD_not' {x : U32} {i : ℕ} (hi : i < 32) : (~~~x).getLsbD i = !x.getLsbD i := by
  rw [BitVec.getLsbD_not, decide_eq_true hi, Bool.true_and]

/-- A command that asks for something is under way. -/
theorem writeGcmd_of_asked (hasked : (h.asked v).getLsbD c = true) :
    h.writeGcmd v = { h with gsts := h.gsts &&& ~~~(v &&& onceMask), command := some v } := by
  rw [writeGcmd, if_neg fun hzero => ?_]
  rw [hzero, BitVec.getLsbD_zero] at hasked
  cases hasked

/-- The unit once a command is carried out. -/
def after (h : DmarHw) (v : U32) : DmarHw := (h.writeGcmd v).carryOut v

/-- Before the command is carried out the status is as it was, but that it no longer shows what is
to be done once again. -/
theorem sts_writeGcmd (hasked : (h.asked v).getLsbD c = true) (i : ℕ) :
    (h.writeGcmd v).sts i = (h.sts i && !(v.getLsbD i && onceMask.getLsbD i)) := by
  rw [writeGcmd_of_asked hasked, sts, sts, BitVec.getLsbD_and]
  by_cases hi : i < 32
  · rw [getLsbD_not' hi, BitVec.getLsbD_and]
  · rw [BitVec.getLsbD_of_ge h.gsts i (not_lt.1 hi), Bool.false_and, Bool.false_and]

/-- Afterwards the toggles are those of the command, and what was to be done once is shown as
done. -/
theorem sts_after (hasked : (h.asked v).getLsbD c = true) (i : ℕ) : (h.after v).sts i =
    if toggleMask.getLsbD i then v.getLsbD i
    else h.sts i || (v.getLsbD i && onceMask.getLsbD i) := by
  have hwrite := sts_writeGcmd hasked i
  rw [sts] at hwrite
  rw [after, carryOut, sts]
  dsimp only
  rw [BitVec.getLsbD_or, BitVec.getLsbD_and, BitVec.getLsbD_and, BitVec.getLsbD_or, hwrite]
  by_cases hi : i < 32
  · rw [getLsbD_not' hi]
    cases htoggle : toggleMask.getLsbD i with
    | true => simp
    | false =>
      simp only [Bool.not_false, Bool.and_true, Bool.false_or, if_neg Bool.false_ne_true]
      cases h.sts i <;> cases v.getLsbD i <;> cases onceMask.getLsbD i <;> rfl
  · have hout : ∀ x : U32, x.getLsbD i = false := fun x => BitVec.getLsbD_of_ge _ _ (not_lt.1 hi)
    rw [hout, hout, hout, hout, sts, hout]
    rfl

/-- The shadow asks for nothing. -/
theorem Follows.asked (hf : h.Follows gcmd) {i : ℕ} (hi : v.getLsbD i = gcmd.getLsbD i) :
    (h.asked v).getLsbD i = false := by
  rw [getLsbD_asked, hi]
  cases htoggle : toggleMask.getLsbD i with
  | true =>
    rw [hf.toggles i htoggle, once_of_toggle htoggle]
    simp
  | false =>
    cases honce : onceMask.getLsbD i with
    | true =>
      rw [hf.once i honce]
      simp
    | false => simp

/-- The command differs from the shadow in one bit, and asks for it. -/
structure Asks (h : DmarHw) (gcmd v : U32) (c : ℕ) (b : Bool) : Prop where
  follows : h.Follows gcmd
  others : ∀ i ≠ c, v.getLsbD i = gcmd.getLsbD i
  bit : v.getLsbD c = b
  kind : (toggleMask.getLsbD c = true ∧ h.sts c = !b) ∨ (onceMask.getLsbD c = true ∧ b = true)

namespace Asks

variable (ha : h.Asks gcmd v c b)

/-- The bit in which the command differs from the shadow is asked for, -/
theorem asked (ha : h.Asks gcmd v c b) : (h.asked v).getLsbD c = true := by
  rw [getLsbD_asked, ha.bit]
  obtain ⟨htoggle, hsts⟩ | ⟨honce, rfl⟩ := ha.kind
  · rw [htoggle, hsts]
    cases b <;> rfl
  · rw [honce]
    simp

/-- It asks for nothing else. -/
theorem asked_of_ne (ha : h.Asks gcmd v c b) {i : ℕ} (hi : i ≠ c) :
    (h.asked v).getLsbD i = false := ha.follows.asked (ha.others i hi)

/-- and it is a bit of the register. -/
theorem lt (ha : h.Asks gcmd v c b) : c < 32 := by
  by_contra hge
  have hmask := BitVec.getLsbD_of_ge (h.asked v) c (not_lt.1 hge)
  rw [ha.asked] at hmask
  cases hmask

/-- Nothing else is. -/
theorem single (ha : h.Asks gcmd v c b) : h.asked v &&& ~~~(1#32 <<< c) = 0#32 := by
  apply BitVec.eq_of_getLsbD_eq
  intro i hi
  rw [BitVec.getLsbD_and, getLsbD_not' hi, getLsbD_one_shiftLeft ha.lt, BitVec.getLsbD_zero]
  by_cases hic : i = c
  · rw [hic, decide_eq_true rfl, Bool.not_true, Bool.and_false]
  · rw [ha.asked_of_ne hic, Bool.false_and]

/-- The status changes in that bit, -/
theorem sts_self (ha : h.Asks gcmd v c b) : (h.after v).sts c = b := by
  rw [sts_after ha.asked, ha.bit]
  obtain ⟨htoggle, -⟩ | ⟨honce, rfl⟩ := ha.kind
  · rw [if_pos htoggle]
  · rw [honce]
    simp

/-- and in no other. -/
theorem sts_of_ne (ha : h.Asks gcmd v c b) {i : ℕ} (hi : i ≠ c) :
    (h.after v).sts i = h.sts i := by
  rw [sts_after ha.asked, ha.others i hi]
  cases htoggle : toggleMask.getLsbD i with
  | true => rw [if_pos rfl, ha.follows.toggles i htoggle]
  | false =>
    rw [if_neg Bool.false_ne_true]
    cases honce : onceMask.getLsbD i with
    | true => rw [ha.follows.once i honce, Bool.false_and, Bool.or_false]
    | false => rw [Bool.and_false, Bool.or_false]

/-- It is not there before the command is carried out. -/
theorem sts_before (ha : h.Asks gcmd v c b) : (h.writeGcmd v).sts c = !b := by
  rw [sts_writeGcmd ha.asked, ha.bit]
  obtain ⟨htoggle, hsts⟩ | ⟨honce, rfl⟩ := ha.kind
  · rw [hsts, once_of_toggle htoggle]
    simp
  · rw [honce]
    simp

/-- A toggle is in the shadow from then on, -/
theorem follows_after (ha : h.Asks gcmd v c b) (hc : toggleMask.getLsbD c = true) :
    (h.after v).Follows v := by
  refine ⟨fun i hi => ?_, fun i hi => ?_⟩
  · rw [sts_after ha.asked, if_pos hi]
  · have hic : i ≠ c := by
      rintro rfl
      rw [once_of_toggle hc] at hi
      cases hi
    rw [ha.others i hic]
    exact ha.follows.once i hi

/-- and what is done once is not. -/
theorem follows_of_once (ha : h.Asks gcmd v c b) (hc : onceMask.getLsbD c = true) :
    (h.after v).Follows gcmd := by
  refine ⟨fun i hi => ?_, ha.follows.once⟩
  have hic : i ≠ c := by
    rintro rfl
    rw [once_of_toggle hi] at hc
    cases hc
  rw [ha.sts_of_ne hic]
  exact ha.follows.toggles i hi

/-- A bit that is carried out once is the one asked for, if it is in the command at all. -/
theorem once_iff (ha : h.Asks gcmd v c b) {i : ℕ} (hi : onceMask.getLsbD i = true) :
    v.getLsbD i = decide (c = i) := by
  by_cases hic : i = c
  · subst hic
    rw [decide_eq_true rfl, ha.bit]
    obtain ⟨htoggle, -⟩ | ⟨-, hb⟩ := ha.kind
    · rw [once_of_toggle htoggle] at hi
      cases hi
    · exact hb
  · rw [ha.others i hic, ha.follows.once i hi, decide_eq_false (Ne.symm hic)]

/-- Whether the queue is turned on. -/
theorem turnsOn_iff (ha : h.Asks gcmd v c b) {i : ℕ} (hi : toggleMask.getLsbD i = true) :
    (v.getLsbD i && !h.sts i) = (decide (c = i) && b) := by
  by_cases hic : i = c
  · subst hic
    rw [decide_eq_true rfl, ha.bit]
    obtain ⟨-, hsts⟩ | ⟨honce, -⟩ := ha.kind
    · rw [hsts]
      cases b <;> rfl
    · rw [once_of_toggle hi] at honce
      cases honce
  · rw [ha.others i hic, ha.follows.toggles i hi, decide_eq_false (Ne.symm hic)]
    simp

/-- What the unit is like once the command is carried out, by its fields. Which of them change is
decided by the bit alone. -/
theorem after_eq (ha : h.Asks gcmd v c b) : h.after v =
    { h with
      command := none
      gsts := (h.after v).gsts
      root := if c = srtpBit then h.rtaddr else h.root
      ctxKept := h.ctxKept || decide (c = srtpBit)
      iotlbKept := h.iotlbKept || decide (c = srtpBit)
      irTable := if c = sirtpBit then h.irta else h.irTable
      iecKept := h.iecKept || decide (c = sirtpBit)
      head := if c = qieBit ∧ b = true then 0 else h.head } := by
  have hqie : (h.writeGcmd v).sts qieBit = h.sts qieBit := by
    rw [sts_writeGcmd ha.asked, show onceMask.getLsbD qieBit = false from rfl, Bool.and_false,
      Bool.not_false, Bool.and_true]
  have hturns := ha.turnsOn_iff (i := qieBit) rfl
  rw [after, carryOut, hqie, hturns, ha.once_iff (i := srtpBit) rfl,
    ha.once_iff (i := sirtpBit) rfl, writeGcmd_of_asked ha.asked]
  simp only [decide_eq_true_eq, Bool.and_eq_true]

/-- A command is carried out at some time and then nothing is under way. -/
theorem idle_after (ha : h.Asks gcmd v c b) (hidle : h.Idle)
    (hqueue : c = qieBit → h.iqt = 0#32) : (h.after v).Idle := by
  refine ⟨by rw [ha.after_eq], fun hqie => ?_⟩
  by_cases hc : c = qieBit
  · subst hc
    rw [ha.sts_self] at hqie
    rw [ha.after_eq]
    dsimp only
    rw [if_pos ⟨rfl, hqie⟩, hqueue rfl]
    rfl
  · rw [ha.sts_of_ne (Ne.symm hc)] at hqie
    rw [ha.after_eq]
    dsimp only
    rw [if_neg fun hand => hc hand.1]
    exact hidle.drained hqie

/-- The unit allows such a command. For the three bits that turn something on, nothing may be kept
from before, or the queue has to be at its start. -/
theorem allows (ha : h.Asks gcmd v c b)
    (htranslation : c = teBit → b = true → h.ctxKept = false ∧ h.iotlbKept = false)
    (hremapping : c = ireBit → b = true → h.iecKept = false)
    (hqueue : c = qieBit → h.iqt = 0#32) : h.AllowsCommand v := by
  have hturns : ∀ {i}, toggleMask.getLsbD i = true → h.sts i = false → v.getLsbD i = true →
      c = i ∧ b = true := by
    intro i hi hoff hon
    have hand := ha.turnsOn_iff hi
    rw [hoff, hon] at hand
    simpa using hand.symm
  refine ⟨⟨c, ha.single⟩, fun hoff hon => ?_, fun hoff hon => ?_, fun hoff hon => ?_⟩
  · obtain ⟨hc, hb⟩ := hturns rfl hoff hon
    exact htranslation hc hb
  · obtain ⟨hc, hb⟩ := hturns rfl hoff hon
    exact hremapping hc hb
  · exact hqueue (hturns rfl hoff hon).1

end Asks

end DmarHw

/-! ## Commands and waiting

The unit carries a command out when it likes. What is proved of a wait is that it ends, that it
ends only when the status is there, and that the units are safe all along. -/

section

variable {h : DmarHw} {v gcmd : U32} {c : ℕ} {b : Bool} {Safe : DmarHw → Prop} {α : Type}
  {Q : α → DmarHw → Prop} {k : DmarProg α}

/-- The test of `dmar_wait_completion` on the status is one of the bit. -/
theorem wait_done_iff (hc : c < 32) (x : U32) :
    (decide ((x.setWidth 64).setWidth 32 &&& 1#32 <<< c = 0#32) == !b) = true ↔
      x.getLsbD c = b := by
  have hwidth : (x.setWidth 64).setWidth 32 = x := by
    rw [BitVec.setWidth_setWidth_of_le _ (by decide), BitVec.setWidth_eq]
  have hbit := and_one_shiftLeft_ne_zero hc x
  rw [hwidth]
  cases hx : x.getLsbD c with
  | true =>
    rw [decide_eq_false (hbit.2 hx)]
    cases b <;> decide
  | false =>
    have hzero : x &&& 1#32 <<< c = 0#32 := by
      by_contra hne
      rw [hbit.1 hne] at hx
      cases hx
    rw [decide_eq_true hzero]
    cases b <;> decide

/-- **A command, and the wait for it.** -/
theorem command_ok (ha : h.Asks gcmd v c b) (hidle : h.Idle) (hallows : h.AllowsCommand v)
    (hqueue : c = qieBit → h.iqt = 0#32) (hsafe : Safe h) (hbefore : Safe (h.writeGcmd v))
    (hk : Ok dmarDevice Safe Q k (h.after v)) :
    Ok dmarDevice Safe Q (do
      iommuWrite32 .gcmd v
      let _ ← dmarWaitCompletion .gsts (1#32 <<< c) !b
      k) h := by
  have hlt := ha.lt
  have hidle' := ha.idle_after hidle hqueue
  have hcommand : (h.writeGcmd v).command = some v := by
    rw [writeGcmd_of_asked ha.asked]
  have hdrained : (h.writeGcmd v).Drained := by
    intro hqie
    rw [sts_writeGcmd ha.asked, Bool.and_eq_true] at hqie
    rw [writeGcmd_of_asked ha.asked]
    exact hidle.drained hqie.1
  change Ok dmarDevice Safe Q (.write (.reg .gcmd) (v.setWidth 64) (.wait (.reg .gsts)
    (fun v => decide (v.setWidth 32 &&& 1#32 <<< c = 0#32) == !b) fun _ => k)) h
  have hwidth : (v.setWidth 64).setWidth 32 = v := by
    rw [BitVec.setWidth_setWidth_of_le _ (by decide), BitVec.setWidth_eq]
  have hwrite : dmarDevice.write h (.reg .gcmd) (v.setWidth 64) = h.writeGcmd v := by
    change h.writeGcmd ((v.setWidth 64).setWidth 32) = _
    rw [hwidth]
  refine .write_of_still hidle.not_tick hsafe ⟨hidle.command, ?_⟩ ?_
  · change h.AllowsCommand ((v.setWidth 64).setWidth 32)
    rwa [hwidth]
  rw [hwrite]
  -- the command is under way or carried out
  refine .wait_of_invariant (I := fun h' => h' = h.writeGcmd v ∨ h' = h.after v) (Or.inl rfl)
    ?_ ?_ ?_ ?_
  · rintro h₁ h₂ (rfl | rfl) (ht | ⟨-, rfl⟩)
    · cases ht with
      | carryOut hsome =>
        rw [hcommand] at hsome
        obtain rfl := Option.some.inj hsome
        exact Or.inr rfl
      | fetch hqie hne => exact absurd (hdrained hqie) hne
    · exact Or.inl rfl
    · exact absurd ht (hidle'.not_tick h₂)
    · exact Or.inr rfl
  · rintro h₁ (rfl | rfl)
    · exact hbefore
    · exact hk.safe
  · have hlast : (decide (((h.after v).gsts.setWidth 64).setWidth 32 &&& 1#32 <<< c = 0#32) == !b)
        = true := (wait_done_iff hlt _).2 ha.sts_self
    rintro h₁ (rfl | rfl)
    · exact ⟨h.after v, .single (Or.inl (.carryOut hcommand)), hlast⟩
    · exact ⟨h.after v, .refl, hlast⟩
  · rintro h₁ (rfl | rfl) hdone
    · have hbit : (h.writeGcmd v).sts c = b := (wait_done_iff hlt _).1 hdone
      rw [ha.sts_before] at hbit
      cases b <;> cases hbit
    · exact hk

/-- A command that asks for nothing is not waited for. -/
theorem command_idle_ok (hidle : h.Idle) (hasked : h.asked v = 0#32) (hlt : c < 32)
    (hbit : h.sts c = b) (hallows : h.AllowsCommand v) (hsafe : Safe h)
    (hk : Ok dmarDevice Safe Q k h) :
    Ok dmarDevice Safe Q (do
      iommuWrite32 .gcmd v
      let _ ← dmarWaitCompletion .gsts (1#32 <<< c) !b
      k) h := by
  change Ok dmarDevice Safe Q (.write (.reg .gcmd) (v.setWidth 64) (.wait (.reg .gsts)
    (fun v => decide (v.setWidth 32 &&& 1#32 <<< c = 0#32) == !b) fun _ => k)) h
  have hwidth : (v.setWidth 64).setWidth 32 = v := by
    rw [BitVec.setWidth_setWidth_of_le _ (by decide), BitVec.setWidth_eq]
  have hwrite : dmarDevice.write h (.reg .gcmd) (v.setWidth 64) = h := by
    change h.writeGcmd ((v.setWidth 64).setWidth 32) = _
    rw [hwidth, writeGcmd, if_pos hasked]
  have hdone := (wait_done_iff hlt h.gsts).2 hbit
  refine .write_of_still hidle.not_tick hsafe ⟨hidle.command, ?_⟩ ?_
  · change h.AllowsCommand ((v.setWidth 64).setWidth 32)
    rwa [hwidth]
  rw [hwrite]
  refine .wait_of_invariant (I := fun h' => h' = h) rfl ?_ ?_ ?_ ?_
  · rintro h₁ h₂ rfl (ht | ⟨-, rfl⟩)
    · exact absurd ht (hidle.not_tick h₂)
    · rfl
  · rintro h₁ rfl
    exact hsafe
  · rintro h₁ rfl
    exact ⟨h₁, .refl, hdone⟩
  · rintro h₁ rfl -
    exact hk

end

/-! ## The functions of the driver

There is one lemma for each function, of the form: from a unit that is idle and whose shadow
follows the status, the function runs to its end, the units are safe at every step of it, and the
unit is as the function is to leave it. Up to `dmar_enable_qi` translation is off, which is all
that is needed. -/

/-- Translation is only on under the firmware's root table, or under the own one with nothing kept
from before. -/
def DmarHw.Sound (firmware own : Word) (h : DmarHw) : Prop :=
  h.sts teBit = true →
    h.root = firmware ∨ (h.root = own ∧ h.ctxKept = false ∧ h.iotlbKept = false)

/-- Translation and the queue are off. -/
structure DmarHw.Off (h : DmarHw) (rt : DmarDrhdRt) : Prop where
  idle : h.Idle
  follows : h.Follows rt.gcmd
  translation : h.sts teBit = false
  queue : h.sts qieBit = false

section

variable {firmware own : Word} {h : DmarHw} {rt : DmarDrhdRt} {pages : DmarPages}

/-- As long as translation is off there is nothing that could be unsafe. -/
theorem DmarHw.sound_of_off (hoff : h.sts teBit = false) : h.Sound firmware own := by
  intro hon
  rw [hoff] at hon
  cases hon

/-- A write to the command register is safe where the unit is: what it changes of the translation
happens only when it is carried out. -/
theorem DmarHw.Sound.writeGcmd (hsound : h.Sound firmware own) (v : U32) :
    (h.writeGcmd v).Sound firmware own := by
  rw [DmarHw.writeGcmd]
  split
  · exact hsound
  · intro hon
    refine hsound ?_
    rw [sts, BitVec.getLsbD_and, Bool.and_eq_true] at hon
    exact hon.1

/-- The shadow with a bit set. -/
theorem getLsbD_or_bit {x : U32} {c i : ℕ} (hi : i ≠ c) :
    (x ||| 1#32 <<< c).getLsbD i = x.getLsbD i := by
  by_cases hc : c < 32
  · rw [BitVec.getLsbD_or, getLsbD_one_shiftLeft hc, decide_eq_false hi, Bool.or_false]
  · rw [BitVec.getLsbD_or, BitVec.getLsbD_shiftLeft]
    by_cases hi32 : i < 32
    · simp [show i < c by omega]
    · simp [hi32]

theorem getLsbD_or_bit_self {x : U32} {c : ℕ} (hc : c < 32) :
    (x ||| 1#32 <<< c).getLsbD c = true := by
  rw [BitVec.getLsbD_or, getLsbD_one_shiftLeft hc, decide_eq_true rfl, Bool.or_true]

/-- A toggle that the shadow does not have is asked for, -/
theorem DmarHw.Follows.asks_toggle (hf : h.Follows rt.gcmd) {c : ℕ}
    (hc : toggleMask.getLsbD c = true) (hlt : c < 32) (hoff : h.sts c = false) :
    h.Asks rt.gcmd (rt.gcmd ||| 1#32 <<< c) c true :=
  ⟨hf, fun _ hi => getLsbD_or_bit hi, getLsbD_or_bit_self hlt, Or.inl ⟨hc, hoff⟩⟩

/-- and so is what is done once. -/
theorem DmarHw.Follows.asks_once (hf : h.Follows rt.gcmd) {c : ℕ}
    (hc : onceMask.getLsbD c = true) (hlt : c < 32) :
    h.Asks rt.gcmd (rt.gcmd ||| 1#32 <<< c) c true :=
  ⟨hf, fun _ hi => getLsbD_or_bit hi, getLsbD_or_bit_self hlt, Or.inr ⟨hc, rfl⟩⟩

/-- The test on the shadow is one on the status. -/
theorem DmarHw.Follows.and_bit_eq_zero (hf : h.Follows rt.gcmd) {c : ℕ}
    (hc : toggleMask.getLsbD c = true) (hlt : c < 32) :
    rt.gcmd &&& 1#32 <<< c = 0#32 ↔ h.sts c = false := by
  have hbit := and_one_shiftLeft_ne_zero hlt rt.gcmd
  rw [hf.toggles c hc] at hbit
  cases hsts : h.sts c with
  | true => simp [hbit.2 hsts]
  | false =>
    have hzero : rt.gcmd &&& 1#32 <<< c = 0#32 := by
      by_contra hne
      rw [hbit.1 hne] at hsts
      cases hsts
    simp [hzero]

/-- The shadow with a bit cleared. -/
theorem getLsbD_and_not_bit {x : U32} {c i : ℕ} (hi : i ≠ c) (hc : c < 32) :
    (x &&& ~~~(1#32 <<< c)).getLsbD i = x.getLsbD i := by
  rw [BitVec.getLsbD_and]
  by_cases hi32 : i < 32
  · rw [getLsbD_not' hi32, getLsbD_one_shiftLeft hc, decide_eq_false hi, Bool.not_false,
      Bool.and_true]
  · rw [BitVec.getLsbD_of_ge x i (not_lt.1 hi32), Bool.false_and]

theorem getLsbD_and_not_bit_self {x : U32} {c : ℕ} (hc : c < 32) :
    (x &&& ~~~(1#32 <<< c)).getLsbD c = false := by
  rw [BitVec.getLsbD_and, getLsbD_not' hc, getLsbD_one_shiftLeft hc, decide_eq_true rfl,
    Bool.not_true, Bool.and_false]

/-- The end of a function, when nothing is under way. -/
theorem ret_ok {α : Type} {Safe : DmarHw → Prop} {Q : α → DmarHw → Prop} {a : α} (hidle : h.Idle)
    (hsafe : Safe h) (hQ : Q a h) : Ok dmarDevice Safe Q (.ret a) h :=
  Device.always_of_still hidle.not_tick ⟨hsafe, hQ⟩

/-- `dmar_disable_translation`. -/
theorem dmarDisableTranslation_ok (hidle : h.Idle) (hf : h.Follows rt.gcmd)
    (hqueue : h.sts qieBit = false) (hsound : h.Sound firmware own) :
    Ok dmarDevice (Sound firmware own)
      (fun rt' h' => rt' = { rt with gcmd := rt.gcmd &&& ~~~dmaGcmdTe } ∧ h'.Off rt')
      (dmarDisableTranslation rt) h := by
  have hothers : ∀ i ≠ teBit, (rt.gcmd &&& ~~~dmaGcmdTe).getLsbD i = rt.gcmd.getLsbD i :=
    fun i hi => getLsbD_and_not_bit hi (by decide)
  have hself : (rt.gcmd &&& ~~~dmaGcmdTe).getLsbD teBit = false :=
    getLsbD_and_not_bit_self (by decide)
  have hne : teBit ≠ qieBit := by decide
  cases hte : h.sts teBit with
  | true =>
    have ha : h.Asks rt.gcmd (rt.gcmd &&& ~~~dmaGcmdTe) teBit false :=
      ⟨hf, hothers, hself, Or.inl ⟨rfl, hte⟩⟩
    have hidle' := ha.idle_after hidle fun heq => absurd heq hne
    have hoff : (h.after (rt.gcmd &&& ~~~dmaGcmdTe)).Off
        { rt with gcmd := rt.gcmd &&& ~~~dmaGcmdTe } := by
      refine ⟨hidle', ha.follows_after rfl, ha.sts_self, ?_⟩
      rw [ha.sts_of_ne (Ne.symm hne)]
      exact hqueue
    have hallows := ha.allows (fun _ hb => absurd hb Bool.false_ne_true)
      (fun _ hb => absurd hb Bool.false_ne_true) fun heq => absurd heq hne
    exact command_ok ha hidle hallows (fun heq => absurd heq hne) hsound (hsound.writeGcmd _)
      (ret_ok hidle' (sound_of_off ha.sts_self) ⟨rfl, hoff⟩)
  | false =>
    have hasked : h.asked (rt.gcmd &&& ~~~dmaGcmdTe) = 0#32 := by
      apply BitVec.eq_of_getLsbD_eq
      intro i _
      rw [BitVec.getLsbD_zero]
      by_cases hi : i = teBit
      · rw [hi, getLsbD_asked, hself, hte]
        rfl
      · exact hf.asked (hothers i hi)
    have hsame : ∀ {i}, i ≠ teBit → toggleMask.getLsbD i = true → h.sts i = false →
        (rt.gcmd &&& ~~~dmaGcmdTe).getLsbD i = true → False := by
      intro i hi hc hoff hon
      rw [hothers i hi, hf.toggles i hc, hoff] at hon
      cases hon
    have hallows : h.AllowsCommand (rt.gcmd &&& ~~~dmaGcmdTe) := by
      refine ⟨⟨0, ?_⟩, fun _ hon => ?_, fun hoff hon => ?_, fun hoff hon => ?_⟩
      · rw [hasked, BitVec.zero_and]
      · rw [hself] at hon
        cases hon
      · exact (hsame (by decide) rfl hoff hon).elim
      · exact (hsame (by decide) rfl hoff hon).elim
    have hf' : h.Follows (rt.gcmd &&& ~~~dmaGcmdTe) := by
      refine ⟨fun i hi => ?_, fun i hi => ?_⟩
      · by_cases hite : i = teBit
        · rw [hite, hself, hte]
        · rw [hothers i hite]
          exact hf.toggles i hi
      · have hite : i ≠ teBit := by
          rintro rfl
          cases hi
        rw [hothers i hite]
        exact hf.once i hi
    exact command_idle_ok hidle hasked (by decide) hte hallows hsound
      (ret_ok hidle hsound ⟨rfl, hidle, hf', hte, hqueue⟩)

/-- `dmar_register_hrhd`: the shadow is read from the status. -/
theorem dmarRegisterHrhd_ok (hidle : h.Idle) (hqueue : h.sts qieBit = false)
    (hsound : h.Sound firmware own) :
    Ok dmarDevice (Sound firmware own)
      (fun rt' h' => ∃ gcmd, rt' = { rt with gcmd } ∧ h'.Off rt') (dmarRegisterHrhd rt) h := by
  have hwidth : ((h.gsts.setWidth 64).setWidth 32 : U32) = h.gsts := by
    rw [BitVec.setWidth_setWidth_of_le _ (by decide), BitVec.setWidth_eq]
  have hf : h.Follows (h.gsts &&& dmarGstsRegMask) := by
    refine ⟨fun i hi => ?_, fun i hi => ?_⟩
    · have hmask : dmarGstsRegMask.getLsbD i = true := by
        have hsub : toggleMask &&& dmarGstsRegMask = toggleMask := by decide
        rw [← hsub, BitVec.getLsbD_and, Bool.and_eq_true] at hi
        exact hi.2
      rw [BitVec.getLsbD_and, hmask, Bool.and_true, sts]
    · have hmask : dmarGstsRegMask.getLsbD i = false := by
        have hdisjoint : onceMask &&& dmarGstsRegMask = 0#32 := by decide
        have hzero := getLsbD_of_eq_zero hdisjoint i
        rw [BitVec.getLsbD_and, hi, Bool.true_and] at hzero
        exact hzero
      rw [BitVec.getLsbD_and, hmask, Bool.and_false]
  change Ok dmarDevice _ _ (.read (.reg .gsts) fun v =>
    dmarDisableTranslation { rt with gcmd := v.setWidth 32 &&& dmarGstsRegMask }) h
  refine .read_of_still hidle.not_tick hsound ?_
  change Ok dmarDevice _ _ (dmarDisableTranslation
    { rt with gcmd := (h.gsts.setWidth 64).setWidth 32 &&& dmarGstsRegMask }) h
  rw [hwidth]
  refine (dmarDisableTranslation_ok hidle hf hqueue hsound).mono fun rt' h' hQ => ?_
  exact ⟨_, hQ.1, hQ.2⟩

/-- A register of 64 bits after both its halves were written. -/
theorem setHalf_setHalf (x value : Word) :
    setHalf (setHalf x .lo (value.setWidth 32)) .hi ((value >>> 32).setWidth 32) = value := by
  apply BitVec.eq_of_getLsbD_eq
  intro i hi
  rw [setHalf, setHalf, BitVec.getLsbD_append, BitVec.getLsbD_extractLsb', BitVec.getLsbD_append]
  by_cases hlo : i < 32
  · simp [hlo]
  · simp [hlo, show i - 32 < 32 by omega, Nat.add_sub_cancel' (not_lt.1 hlo)]

theorem setWidth_setWidth_u32 (x : U32) : (x.setWidth 64).setWidth 32 = x := by
  rw [BitVec.setWidth_setWidth_of_le _ (by decide), BitVec.setWidth_eq]

/-- `iommu_write64`, of a register that starts nothing. -/
theorem iommuWrite64_ok {α : Type} {Safe : DmarHw → Prop} {Q : α → DmarHw → Prop}
    {k : DmarProg α} {reg : EntryWord → DmarReg} {value : Word} {h' : DmarHw}
    (hwrite : h.writeReg (reg .lo) (value.setWidth 32) = h') (hidle : h.Idle) (hidle' : h'.Idle)
    (hallows : ∀ v, h.Allows (.reg (reg .lo)) v) (hallows' : ∀ v, h'.Allows (.reg (reg .hi)) v)
    (hsafe : Safe h) (hsafe' : Safe h')
    (hk : Ok dmarDevice Safe Q k (h'.writeReg (reg .hi) ((value >>> 32).setWidth 32))) :
    Ok dmarDevice Safe Q (do
      iommuWrite64 reg value
      k) h := by
  change Ok dmarDevice Safe Q (.write (.reg (reg .lo)) ((value.setWidth 32).setWidth 64)
    (.write (.reg (reg .hi)) (((value >>> 32).setWidth 32).setWidth 64) k)) h
  refine .write_of_still hidle.not_tick hsafe (hallows _) ?_
  have hlo : dmarDevice.write h (.reg (reg .lo)) ((value.setWidth 32).setWidth 64) = h' := by
    rw [← hwrite]
    exact congrArg (h.writeReg (reg .lo)) (setWidth_setWidth_u32 _)
  rw [hlo]
  refine .write_of_still hidle'.not_tick hsafe' (hallows' _) ?_
  have hhi : dmarDevice.write h' (.reg (reg .hi)) (((value >>> 32).setWidth 32).setWidth 64) =
      h'.writeReg (reg .hi) ((value >>> 32).setWidth 32) :=
    congrArg (h'.writeReg (reg .hi)) (setWidth_setWidth_u32 _)
  rwa [hhi]

/-- Writes that neither start anything nor move the queue. -/
structure DmarHw.SameControl (h h' : DmarHw) : Prop where
  gsts : h'.gsts = h.gsts
  command : h'.command = h.command
  head : h'.head = h.head
  iqt : h'.iqt = h.iqt

namespace DmarHw.SameControl

variable {h h' : DmarHw} {gcmd : U32}

/-- The status does not change, -/
theorem sts (hsame : h.SameControl h') (i : ℕ) : h'.sts i = h.sts i := by
  rw [DmarHw.sts, DmarHw.sts, hsame.gsts]

/-- nor does anything come to be under way, -/
theorem idle (hsame : h.SameControl h') (hidle : h.Idle) : h'.Idle := by
  refine ⟨hsame.command.trans hidle.command, fun hqie => ?_⟩
  rw [hsame.head, hsame.iqt]
  exact hidle.drained ((hsame.sts qieBit).symm.trans hqie)

/-- and the shadow still follows. -/
theorem follows (hsame : h.SameControl h') (hf : h.Follows gcmd) : h'.Follows gcmd :=
  ⟨fun i hi => (hf.toggles i hi).trans (hsame.sts i).symm, hf.once⟩

end DmarHw.SameControl

/-- A command for one more bit, from translation off to translation off. -/
theorem commandBit_ok {α : Type} {Q : α → DmarHw → Prop} {k : DmarProg α} {c : ℕ}
    (ha : h.Asks rt.gcmd (rt.gcmd ||| 1#32 <<< c) c true) (hidle : h.Idle)
    (hte : h.sts teBit = false) (hc : c ≠ teBit)
    (hremapping : c = ireBit → h.iecKept = false) (hqueue : c = qieBit → h.iqt = 0#32)
    (hk : ∀ h', h.after (rt.gcmd ||| 1#32 <<< c) = h' → h'.Idle → h'.sts teBit = false →
      Ok dmarDevice (Sound firmware own) Q k h') :
    Ok dmarDevice (Sound firmware own) Q (do
      iommuWrite32 .gcmd (rt.gcmd ||| 1#32 <<< c)
      let _ ← dmarWaitCompletion .gsts (1#32 <<< c) false
      k) h := by
  have hallows := ha.allows (fun heq => absurd heq hc) (fun heq _ => hremapping heq) hqueue
  have hte' : (h.after (rt.gcmd ||| 1#32 <<< c)).sts teBit = false := by
    rw [ha.sts_of_ne (Ne.symm hc)]
    exact hte
  exact command_ok ha hidle hallows hqueue (sound_of_off hte) ((sound_of_off hte).writeGcmd _)
    (hk _ rfl (ha.idle_after hidle hqueue) hte')

/-- `dmar_set_root_table`. -/
theorem dmarSetRootTable_ok (hoff : h.Off rt) (hnull : rt.rootTableAddr = none) :
    Ok dmarDevice (Sound firmware own)
      (fun rt' h' => rt' = { rt with rootTableAddr := some (pages.getRootTable rt.index) } ∧
        h'.Off rt' ∧ h'.root = pages.getRootTable rt.index)
      (dmarSetRootTable pages rt) h := by
  rw [dmarSetRootTable, hnull, Option.getD_none]
  refine iommuWrite64_ok rfl hoff.idle ⟨hoff.idle.command, hoff.idle.drained⟩
    (fun _ => ⟨hoff.idle.command, trivial⟩) (fun _ => ⟨hoff.idle.command, trivial⟩)
    (sound_of_off hoff.translation) (sound_of_off hoff.translation) ?_
  obtain ⟨h₁, hh₁⟩ : ∃ h₁, (h.writeReg (.rtaddr .lo)
      ((pages.getRootTable rt.index).setWidth 32)).writeReg (.rtaddr .hi)
      ((pages.getRootTable rt.index >>> 32).setWidth 32) = h₁ := ⟨_, rfl⟩
  have hset : h₁.rtaddr = pages.getRootTable rt.index := by
    rw [← hh₁]
    exact setHalf_setHalf _ _
  have hsame : h.SameControl h₁ := by
    subst hh₁
    exact ⟨rfl, rfl, rfl, rfl⟩
  rw [hh₁]
  have ha := (hsame.follows hoff.follows).asks_once (c := srtpBit) rfl (by decide)
  refine commandBit_ok ha (hsame.idle hoff.idle) ((hsame.sts _).trans hoff.translation) (by decide)
    (fun heq => absurd heq (by decide)) (fun heq => absurd heq (by decide))
    fun h₂ hh₂ hidle hte => ?_
  have hqie : h₂.sts qieBit = false := by
    rw [← hh₂, ha.sts_of_ne (by decide), hsame.sts]
    exact hoff.queue
  have hfollows : h₂.Follows rt.gcmd := by
    rw [← hh₂]
    exact ha.follows_of_once rfl
  have hroot : h₂.root = pages.getRootTable rt.index := by
    rw [← hh₂, ha.after_eq, ← hset]
    dsimp only
    rw [if_pos rfl]
  exact ret_ok hidle (sound_of_off hte) ⟨rfl, ⟨hidle, hfollows, hte, hqie⟩, hroot⟩

/-- The queue is on, and the unit stands at its tail. -/
structure DmarHw.Ready (h : DmarHw) (rt : DmarDrhdRt) : Prop where
  idle : h.Idle
  follows : h.Follows rt.gcmd
  queue : h.sts qieBit = true
  iqa : h.iqa = rt.qiQueue
  tail : Dmar.IsTail rt.qiTail
  iqt : h.iqt = rt.qiTail.setWidth 32

/-- `dmar_enable_qi`. -/
theorem dmarEnableQi_ok (hoff : h.Off rt) (htail : rt.qiTail = 0#16) :
    Ok dmarDevice (Sound firmware own)
      (fun rt' h' => (∃ gcmd, rt' = { rt with qiQueue := pages.getQiQueue rt.index, gcmd }) ∧
        h'.Ready rt' ∧ h'.sts teBit = false ∧ h'.root = h.root)
      (dmarEnableQi pages rt) h := by
  rw [dmarEnableQi]
  refine iommuWrite64_ok rfl hoff.idle ⟨hoff.idle.command, hoff.idle.drained⟩
    (fun _ => ⟨hoff.idle.command, hoff.queue⟩) (fun _ => ⟨hoff.idle.command, hoff.queue⟩)
    (sound_of_off hoff.translation) (sound_of_off hoff.translation) ?_
  obtain ⟨h₁, hh₁⟩ : ∃ h₁, (h.writeReg (.iqa .lo)
      ((pages.getQiQueue rt.index).setWidth 32)).writeReg (.iqa .hi)
      ((pages.getQiQueue rt.index >>> 32).setWidth 32) = h₁ := ⟨_, rfl⟩
  have hset : h₁.iqa = pages.getQiQueue rt.index := by
    rw [← hh₁]
    exact setHalf_setHalf _ _
  have hsame : h.SameControl h₁ := by
    subst hh₁
    exact ⟨rfl, rfl, rfl, rfl⟩
  have hroot : h₁.root = h.root := by
    subst hh₁
    rfl
  have hshadow : rt.gcmd &&& dmaGcmdQie = 0#32 :=
    (hoff.follows.and_bit_eq_zero (c := qieBit) rfl (by decide)).2 hoff.queue
  have hte : h₁.sts teBit = false := (hsame.sts _).trans hoff.translation
  have hqie : h₁.sts qieBit = false := (hsame.sts _).trans hoff.queue
  rw [hh₁, if_pos hshadow]
  refine .write_of_still (hsame.idle hoff.idle).not_tick (sound_of_off hte)
    ⟨(hsame.idle hoff.idle).command, trivial⟩ ?_
  -- the tail is moved while the queue is off
  obtain ⟨h₂, hh₂⟩ : ∃ h₂, { h₁ with iqt := 0#32 } = h₂ := ⟨_, rfl⟩
  have hwrite : dmarDevice.write h₁ (.reg .iqt) ((0#32 : U32).setWidth 64) = h₂ := hh₂
  rw [hwrite]
  have hsts : ∀ i, h₂.sts i = h₁.sts i := by
    intro i
    rw [← hh₂]
    rfl
  have hidle : h₂.Idle := by
    refine ⟨?_, fun hon => ?_⟩
    · rw [← hh₂]
      exact (hsame.idle hoff.idle).command
    · rw [hsts, hqie] at hon
      cases hon
  have hf : h₂.Follows rt.gcmd :=
    ⟨fun i hi => ((hsame.follows hoff.follows).toggles i hi).trans (hsts i).symm,
      hoff.follows.once⟩
  have hiqt : h₂.iqt = 0#32 := by
    rw [← hh₂]
  have ha := hf.asks_toggle (c := qieBit) rfl (by decide) ((hsts _).trans hqie)
  refine commandBit_ok ha hidle ((hsts _).trans hte) (by decide)
    (fun heq => absurd heq (by decide)) (fun _ => hiqt) fun h₃ hh₃ hidle₃ hte₃ => ?_
  have hready : h₃.Ready { rt with
      qiQueue := pages.getQiQueue rt.index, gcmd := rt.gcmd ||| dmaGcmdQie } := by
    refine ⟨hidle₃, ?_, ?_, ?_, ?_, ?_⟩
    · rw [← hh₃]
      exact ha.follows_after rfl
    · rw [← hh₃]
      exact ha.sts_self
    · rw [← hh₃, ha.after_eq, ← hset, ← hh₂]
    · dsimp only
      rw [htail]
      exact ⟨dvd_zero 16, by decide⟩
    · rw [← hh₃, ha.after_eq]
      dsimp only
      rw [hiqt, htail]
      rfl
  have hroot₃ : h₃.root = h.root := by
    rw [← hh₃, ha.after_eq, ← hroot, ← hh₂]
    dsimp only
    rw [if_neg (by decide)]
  exact ret_ok hidle₃ (sound_of_off hte₃) ⟨⟨_, rfl⟩, hready, hte₃, hroot₃⟩

/-- What `dmar_set_intr_remap_table` gives to the unit: the table, for 256 entries, in the format of
x2APIC. -/
def DmarPages.irta (pages : DmarPages) (index : ℕ) : Word :=
  pages.getIrTable index ||| dmarIrEnableEim ||| 7#64

/-- `dmar_set_intr_remap_table`. -/
theorem dmarSetIntrRemapTable_ok (hready : h.Ready rt) (hte : h.sts teBit = false)
    (hnull : rt.irTableAddr = none) :
    Ok dmarDevice (Sound firmware own)
      (fun rt' h' => rt' = { rt with irTableAddr := some (pages.getIrTable rt.index) } ∧
        h'.Ready rt' ∧ h'.sts teBit = false ∧ h'.root = h.root ∧
        h'.irTable = pages.irta rt.index)
      (dmarSetIntrRemapTable pages rt) h := by
  have hidle := hready.idle
  have hsize : ((fls32 (BitVec.ofNat 32 configMaxIrEntries)).setWidth 8 - 1#8).setWidth 64 =
      7#64 := by
    decide
  rw [dmarSetIntrRemapTable, hnull, Option.getD_none]
  dsimp only
  rw [hsize, ← DmarPages.irta]
  refine iommuWrite64_ok rfl hidle ⟨hidle.command, hidle.drained⟩
    (fun _ => ⟨hidle.command, trivial⟩) (fun _ => ⟨hidle.command, trivial⟩)
    (sound_of_off hte) (sound_of_off hte) ?_
  obtain ⟨h₁, hh₁⟩ : ∃ h₁, (h.writeReg (.irta .lo) ((pages.irta rt.index).setWidth 32)).writeReg
      (.irta .hi) ((pages.irta rt.index >>> 32).setWidth 32) = h₁ := ⟨_, rfl⟩
  have hset : h₁.irta = pages.irta rt.index := by
    rw [← hh₁]
    exact setHalf_setHalf _ _
  have hsame : h.SameControl h₁ := by
    subst hh₁
    exact ⟨rfl, rfl, rfl, rfl⟩
  have hkept : h₁.root = h.root ∧ h₁.iqa = h.iqa := by
    subst hh₁
    exact ⟨rfl, rfl⟩
  rw [hh₁]
  have ha := (hsame.follows hready.follows).asks_once (c := sirtpBit) rfl (by decide)
  refine commandBit_ok ha (hsame.idle hidle) ((hsame.sts _).trans hte) (by decide)
    (fun heq => absurd heq (by decide)) (fun heq => absurd heq (by decide))
    fun h₂ hh₂ hidle₂ hte₂ => ?_
  have hready₂ : h₂.Ready { rt with irTableAddr := some (pages.getIrTable rt.index) } := by
    refine ⟨hidle₂, ?_, ?_, ?_, hready.tail, ?_⟩
    · rw [← hh₂]
      exact ha.follows_of_once rfl
    · rw [← hh₂, ha.sts_of_ne (by decide), hsame.sts]
      exact hready.queue
    · rw [← hh₂, ha.after_eq]
      exact hkept.2.trans hready.iqa
    · rw [← hh₂, ha.after_eq]
      exact hsame.iqt.trans hready.iqt
  have hroot : h₂.root = h.root := by
    rw [← hh₂, ha.after_eq, ← hkept.1]
    dsimp only
    rw [if_neg (by decide)]
  have htable : h₂.irTable = pages.irta rt.index := by
    rw [← hh₂, ha.after_eq, ← hset]
    dsimp only
    rw [if_pos rfl]
  exact ret_ok hidle₂ (sound_of_off hte₂) ⟨rfl, hready₂, hte₂, hroot, htable⟩

/-! ## The queue

A request is two descriptors, of which the second has the unit write a status word. `Requested` is
the unit before it has fetched either. From there it has two steps to take and no other, and the
status word is written by the second: so the wait ends, and only when both are carried out. -/

/-- A descriptor is in memory. -/
def DmarHw.writeSlot (h : DmarHw) (slot : Word) (desc : DmarEntry) : DmarHw :=
  { h with mem := Function.update h.mem slot desc }

/-- The two writes to the queue write one descriptor. -/
theorem write_write_entry (h : DmarHw) (slot : Word) (desc : DmarEntry) :
    dmarDevice.write (dmarDevice.write h (.entry slot .hi) (desc .hi)) (.entry slot .lo)
      (desc .lo) = h.writeSlot slot desc := by
  have hhi : (dmarDevice.write h (.entry slot .hi) (desc .hi)).mem =
      Function.update h.mem slot (Function.update (h.mem slot) .hi (desc .hi)) := rfl
  have hboth : Function.update (Function.update (h.mem slot) .hi (desc .hi)) .lo (desc .lo) =
      desc := by
    funext word
    cases word <;> rfl
  have hlo : ∀ h' : DmarHw, (dmarDevice.write h' (.entry slot .lo) (desc .lo)).mem =
      Function.update h'.mem slot (Function.update (h'.mem slot) .lo (desc .lo)) := fun _ => rfl
  have hmem : (dmarDevice.write (dmarDevice.write h (.entry slot .hi) (desc .hi))
      (.entry slot .lo) (desc .lo)).mem = Function.update h.mem slot desc := by
    rw [hlo, hhi, Function.update_idem, Function.update_self, hboth]
  rw [DmarHw.writeSlot, ← hmem]
  rfl

/-- A descriptor is written. -/
theorem writeDescriptor_ok {α : Type} {Q : α → DmarHw → Prop} {k : DmarDrhdRt → DmarProg α}
    {desc : DmarEntry} (hidle : h.Idle) (hsound : h.Sound firmware own)
    (hk : Ok dmarDevice (Sound firmware own) Q (k { rt with qiTail := nextQiTail rt.qiTail })
      (h.writeSlot (rt.qiQueue + 16#64 *
        BitVec.ofNat 64 (rt.qiTail.toNat / dmarQiInvEntrySize)) desc)) :
    Ok dmarDevice (Sound firmware own) Q (do
      let rt ← writeDescriptor rt desc
      k rt) h := by
  rw [← write_write_entry] at hk
  exact .write_of_still hidle.not_tick hsound hidle.drained
    (.write_of_still (Idle.not_tick ⟨hidle.command, hidle.drained⟩) hsound hidle.drained hk)

/-- What a request leaves of the tables. -/
structure DmarHw.SameTables (h h' : DmarHw) : Prop where
  gsts : h'.gsts = h.gsts
  root : h'.root = h.root
  irTable : h'.irTable = h.irTable
  ctxKept : h'.ctxKept = h.ctxKept
  iotlbKept : h'.iotlbKept = h.iotlbKept
  iecKept : h'.iecKept = h.iecKept

/-- The same request leaves the same. -/
theorem DmarHw.SameTables.perform {h' : DmarHw} (hsame : h.SameTables h') (inv : Invalidation) :
    (h.perform inv).SameTables (h'.perform inv) := by
  obtain ⟨hgsts, hroot, hirTable, hctx, hiotlb, hiec⟩ := hsame
  cases inv with
  | context granularity _ _ _ =>
    refine ⟨hgsts, hroot, hirTable, ?_, hiotlb, hiec⟩
    rw [DmarHw.perform, DmarHw.perform, hctx]
  | iotlb granularity _ =>
    refine ⟨hgsts, hroot, hirTable, hctx, ?_, hiec⟩
    rw [DmarHw.perform, DmarHw.perform, hiotlb]
  | iec granularity _ _ =>
    refine ⟨hgsts, hroot, hirTable, hctx, hiotlb, ?_⟩
    rw [DmarHw.perform, DmarHw.perform, hiec]
  | wait addr data => exact ⟨hgsts, hroot, hirTable, hctx, hiotlb, hiec⟩
  | reserved => exact ⟨hgsts, hroot, hirTable, hctx, hiotlb, hiec⟩

namespace DmarHw

variable (h) (inv : Invalidation)

@[simp] theorem perform_gsts : (h.perform inv).gsts = h.gsts := by cases inv <;> rfl
@[simp] theorem perform_command : (h.perform inv).command = h.command := by cases inv <;> rfl
@[simp] theorem perform_iqa : (h.perform inv).iqa = h.iqa := by cases inv <;> rfl
@[simp] theorem perform_iqt : (h.perform inv).iqt = h.iqt := by cases inv <;> rfl
@[simp] theorem perform_head : (h.perform inv).head = h.head := by cases inv <;> rfl
@[simp] theorem perform_mem : (h.perform inv).mem = h.mem := by cases inv <;> rfl
@[simp] theorem perform_root : (h.perform inv).root = h.root := by cases inv <;> rfl
@[simp] theorem perform_irTable : (h.perform inv).irTable = h.irTable := by cases inv <;> rfl

/-- A request that is not to wait writes no status. -/
theorem perform_status (hinv : ∀ addr data, inv ≠ .wait addr data) :
    (h.perform inv).status = h.status := by
  cases inv with
  | wait addr data => exact absurd rfl (hinv addr data)
  | _ => rfl

/-- Nothing is kept again. -/
theorem perform_kept : ((h.perform inv).ctxKept = true → h.ctxKept = true) ∧
    ((h.perform inv).iotlbKept = true → h.iotlbKept = true) := by
  cases inv <;> simp only [perform, Bool.and_eq_true] <;> tauto

/-- A request makes the unit forget. That it keeps nothing old cannot be lost by it. -/
theorem Sound.perform (hsound : h.Sound firmware own) : (h.perform inv).Sound firmware own := by
  intro hon
  rw [sts, perform_gsts] at hon
  obtain hroot | ⟨hroot, hctx, hiotlb⟩ := hsound hon
  · exact Or.inl ((perform_root h inv).trans hroot)
  · refine Or.inr ⟨(perform_root h inv).trans hroot, ?_, ?_⟩
    · exact Bool.eq_false_iff.2 fun h' => Bool.eq_false_iff.1 hctx ((perform_kept h inv).1 h')
    · exact Bool.eq_false_iff.2 fun h' => Bool.eq_false_iff.1 hiotlb ((perform_kept h inv).2 h')

end DmarHw

/-- Slots of the queue are different. -/
theorem slot_ne {queue : Word} {a b : ℕ} (ha : a < qiSlots) (hb : b < qiSlots) (hne : a ≠ b) :
    queue + 16#64 * BitVec.ofNat 64 a ≠ queue + 16#64 * BitVec.ofNat 64 b := by
  intro heq
  have hmul := congrArg BitVec.toNat ((BitVec.add_right_inj queue).1 heq)
  rw [BitVec.toNat_mul, BitVec.toNat_mul, BitVec.toNat_ofNat, BitVec.toNat_ofNat,
    BitVec.toNat_ofNat] at hmul
  rw [qiSlots] at ha hb
  omega

/-- A request and its wait descriptor are in the queue. -/
structure DmarHw.Requested (h : DmarHw) (desc : DmarEntry) (qiStatus : Word) : Prop where
  command : h.command = none
  queue : h.sts qieBit = true
  head : h.head < qiSlots
  desc : h.descriptor = desc
  wait : h.mem (h.iqa + 16#64 * BitVec.ofNat 64 ((h.head + 1) % qiSlots)) =
    dmarEntry dmarInvWaitDescLower qiStatus
  iqt : h.iqt.toNat = 16 * ((h.head + 2) % qiSlots)
  status : h.status qiStatus = 0#32

namespace DmarHw.Requested

variable {desc : DmarEntry} {qiStatus : Word} (hreq : h.Requested desc qiStatus)

include hreq

theorem fetch_eq :
    h.fetch = { h with head := (h.head + 1) % qiSlots }.perform (decodeInvalidation desc) := by
  rw [fetch, hreq.desc]

theorem head_fetch : h.fetch.head = (h.head + 1) % qiSlots := by
  rw [hreq.fetch_eq, perform_head]

/-- The wait descriptor is the next one. -/
theorem fetch_fetch_eq : h.fetch.fetch =
    { h.fetch with
      head := (h.head + 2) % qiSlots
      status := Function.update h.fetch.status qiStatus 1#32 } := by
  have hwait : h.fetch.descriptor = dmarEntry dmarInvWaitDescLower qiStatus := by
    rw [descriptor, hreq.head_fetch, hreq.fetch_eq, perform_mem, perform_iqa]
    exact hreq.wait
  have hhead : (h.fetch.head + 1) % qiSlots = (h.head + 2) % qiSlots := by
    rw [hreq.head_fetch, Nat.mod_add_mod]
  rw [fetch, hwait, decode_wait, hhead]
  rfl

theorem sts_fetch (i : ℕ) : h.fetch.sts i = h.sts i := by
  rw [sts, hreq.fetch_eq, perform_gsts, sts]

theorem command_fetch : h.fetch.command = none := by
  rw [hreq.fetch_eq, perform_command]
  exact hreq.command

theorem iqt_fetch : h.fetch.iqt = h.iqt := by
  rw [hreq.fetch_eq, perform_iqt]

/-- When both are carried out the unit has come to the tail, and is idle. -/
theorem idle_fetch_fetch : h.fetch.fetch.Idle := by
  rw [hreq.fetch_fetch_eq]
  refine ⟨hreq.command_fetch, fun _ => ?_⟩
  dsimp only
  rw [hreq.iqt_fetch, hreq.iqt]

/-- The unit carries out both, and nothing else. -/
theorem tick {h' : DmarHw} (ht : h.Tick h') : h' = h.fetch := by
  cases ht with
  | carryOut hcommand =>
    rw [hreq.command] at hcommand
    cases hcommand
  | fetch => rfl

/-- After the first one it has only the wait descriptor to carry out. -/
theorem tick_fetch {h' : DmarHw} (ht : h.fetch.Tick h') : h' = h.fetch.fetch := by
  cases ht with
  | carryOut hcommand =>
    rw [hreq.command_fetch] at hcommand
    cases hcommand
  | fetch => rfl

/-- Both are there to be carried out: the queue is on and the tail is two slots ahead. -/
theorem ticks : h.Tick h.fetch ∧ h.fetch.Tick h.fetch.fetch := by
  have hhead := hreq.head
  have hiqt := hreq.iqt
  rw [qiSlots] at hhead hiqt
  refine ⟨.fetch hreq.queue ?_, .fetch ((hreq.sts_fetch _).trans hreq.queue) ?_⟩
  · rw [hiqt]
    omega
  · rw [hreq.head_fetch, hreq.iqt_fetch, hiqt, qiSlots]
    omega

/-- The wait for the status ends when both are carried out. -/
theorem wait_ok {α : Type} {Q : α → DmarHw → Prop} {k : DmarProg α}
    (hdesc : ∀ addr data, decodeInvalidation desc ≠ .wait addr data)
    (hsound : h.Sound firmware own)
    (hk : Ok dmarDevice (Sound firmware own) Q k h.fetch.fetch) :
    Ok dmarDevice (Sound firmware own) Q (do
      let _ ← Prog.waitReg (.status qiStatus) fun v => decide (v.setWidth 32 = 1#32)
      k) h := by
  have hsound' : h.fetch.Sound firmware own := by
    rw [hreq.fetch_eq]
    exact Sound.perform _ _ hsound
  have hstatus : h.fetch.status qiStatus = 0#32 := by
    rw [hreq.fetch_eq, perform_status _ _ hdesc]
    exact hreq.status
  have hlast : h.fetch.fetch.status qiStatus = 1#32 := by
    rw [hreq.fetch_fetch_eq]
    exact Function.update_self _ _ _
  have hdone : ∀ {h' : DmarHw} {x : U32}, h'.status qiStatus = x →
      ((dmarDevice.read h' (.status qiStatus)).1.setWidth 32 : U32) = x := by
    intro h' x hx
    rw [← hx]
    exact setWidth_setWidth_u32 _
  have hends : decide (((dmarDevice.read h.fetch.fetch (.status qiStatus)).1.setWidth 32 : U32) =
      1#32) = true := by
    rw [hdone hlast]
    rfl
  obtain ⟨ht₁, ht₂⟩ := hreq.ticks
  refine .wait_of_invariant (I := fun h' => h' = h ∨ h' = h.fetch ∨ h' = h.fetch.fetch)
    (Or.inl rfl) ?_ ?_ ?_ ?_
  · rintro h₁ h₂ (rfl | rfl | rfl) (ht | ⟨-, rfl⟩)
    · exact Or.inr (Or.inl (hreq.tick ht))
    · exact Or.inl rfl
    · exact Or.inr (Or.inr (hreq.tick_fetch ht))
    · exact Or.inr (Or.inl rfl)
    · exact absurd ht (hreq.idle_fetch_fetch.not_tick h₂)
    · exact Or.inr (Or.inr rfl)
  · rintro h₁ (rfl | rfl | rfl)
    · exact hsound
    · exact hsound'
    · exact hk.safe
  · rintro h₁ (rfl | rfl | rfl)
    · exact ⟨_, .tail (.single (Or.inl ht₁)) (Or.inl ht₂), hends⟩
    · exact ⟨_, .single (Or.inl ht₂), hends⟩
    · exact ⟨_, .refl, hends⟩
  · rintro h₁ (rfl | rfl | rfl) hd
    · rw [hdone hreq.status] at hd
      cases hd
    · rw [hdone hstatus] at hd
      cases hd
    · exact hk

end DmarHw.Requested

/-- The hardware stands at the tail. -/
theorem DmarHw.Ready.head (hready : h.Ready rt) :
    h.head = rt.qiTail.toNat / dmarQiInvEntrySize := by
  have hdrained := hready.idle.drained hready.queue
  rw [hready.iqt, BitVec.toNat_setWidth_of_le (by decide)] at hdrained
  rw [← hdrained, dmarQiInvEntrySize]
  omega

/-- The tail after a request. -/
def DmarDrhdRt.requested (rt : DmarDrhdRt) : DmarDrhdRt :=
  { rt with qiTail := nextQiTail (nextQiTail rt.qiTail) }

/-- The status word and the tail register are written. -/
def DmarHw.clearStatus (h : DmarHw) (addr : Word) : DmarHw :=
  { h with status := Function.update h.status addr 0#32 }

def DmarHw.setIqt (h : DmarHw) (iqt : U32) : DmarHw := { h with iqt }

/-- The unit after the writes of a request. -/
def DmarHw.request (h : DmarHw) (rt : DmarDrhdRt) (desc : DmarEntry) (qiStatus : Word) : DmarHw :=
  let slot := fun tail : BitVec 16 =>
    rt.qiQueue + 16#64 * BitVec.ofNat 64 (tail.toNat / dmarQiInvEntrySize)
  let h := (h.writeSlot (slot rt.qiTail) desc).writeSlot (slot (nextQiTail rt.qiTail))
    (dmarEntry dmarInvWaitDescLower qiStatus)
  (h.clearStatus qiStatus).setIqt (rt.requested.qiTail.setWidth 32)

/-- The writes of a request come before the wait. -/
theorem dmarIssueQiRequest_of_request {desc : DmarEntry} {Q : DmarDrhdRt → DmarHw → Prop}
    (hidle : h.Idle) (hsound : h.Sound firmware own)
    (hk : Ok dmarDevice (Sound firmware own) Q (do
      let _ ← Prog.waitReg (.status pages.qiStatus) fun v => decide (v.setWidth 32 = 1#32)
      return rt.requested) (h.request rt desc pages.qiStatus)) :
    Ok dmarDevice (Sound firmware own) Q (dmarIssueQiRequest pages rt desc) h := by
  rw [dmarIssueQiRequest]
  refine writeDescriptor_ok hidle hsound ?_
  refine writeDescriptor_ok ⟨hidle.command, hidle.drained⟩ hsound ?_
  refine .write_of_still (Idle.not_tick ⟨hidle.command, hidle.drained⟩) hsound hidle.drained ?_
  refine .write_of_still (Idle.not_tick ⟨hidle.command, hidle.drained⟩) hsound
    ⟨hidle.command, trivial⟩ ?_
  have hwrite : ∀ h' : DmarHw, dmarDevice.write h' (.reg .iqt)
      ((rt.requested.qiTail.setWidth 32).setWidth 64) =
      h'.setIqt (rt.requested.qiTail.setWidth 32) :=
    fun h' => congrArg h'.setIqt (setWidth_setWidth_u32 _)
  rw [request] at hk
  dsimp only at hk
  rw [← hwrite] at hk
  exact hk

theorem DmarHw.request_eq (desc : DmarEntry) (qiStatus : Word) : h.request rt desc qiStatus =
    { h with
      mem := (h.request rt desc qiStatus).mem
      status := Function.update h.status qiStatus 0#32
      iqt := rt.requested.qiTail.setWidth 32 } := by
  dsimp only [request, setIqt, clearStatus, writeSlot]

/-- The writes of a request do not touch the tables that the unit uses. -/
theorem DmarHw.Sound.request (hsound : h.Sound firmware own) (desc : DmarEntry)
    (qiStatus : Word) : (h.request rt desc qiStatus).Sound firmware own := by
  rw [request_eq]
  exact hsound

/-- The request is in the queue. -/
theorem DmarHw.Ready.requested (hready : h.Ready rt) (desc : DmarEntry) (qiStatus : Word) :
    (h.request rt desc qiStatus).Requested desc qiStatus := by
  obtain ⟨ht, hslot⟩ := Dmar.isTail_next hready.tail
  obtain ⟨ht', hslot'⟩ := Dmar.isTail_next ht
  rw [← hready.head] at hslot
  rw [hslot, Nat.mod_add_mod] at hslot'
  have hlt : h.head < qiSlots := by
    have hbound := hready.tail.2
    rw [hready.head, qiSlots, dmarQiInvEntrySize]
    rw [dmarInvalidationQueueSize] at hbound
    omega
  have hmem : (h.request rt desc qiStatus).mem = Function.update (Function.update h.mem
      (h.iqa + 16#64 * BitVec.ofNat 64 h.head) desc)
      (h.iqa + 16#64 * BitVec.ofNat 64 ((h.head + 1) % qiSlots))
      (dmarEntry dmarInvWaitDescLower qiStatus) := by
    rw [← hslot, hready.head, hready.iqa]
    dsimp only [request, setIqt, clearStatus, writeSlot]
  have hne : h.head ≠ (h.head + 1) % qiSlots := by
    rw [qiSlots] at hlt ⊢
    omega
  have hdvd := ht'.1
  rw [dmarQiInvEntrySize] at hslot'
  rw [request_eq]
  refine ⟨?_, ?_, ?_, ?_, ?_, ?_, ?_⟩
  · exact hready.idle.command
  · exact hready.queue
  · exact hlt
  · rw [descriptor, hmem]
    dsimp only
    rw [Function.update_of_ne (slot_ne hlt (Nat.mod_lt _ (by decide)) hne), Function.update_self]
  · rw [hmem]
    dsimp only
    rw [Function.update_self]
  · dsimp only [DmarDrhdRt.requested]
    rw [BitVec.toNat_setWidth_of_le (by decide), ← hslot']
    omega
  · dsimp only
    rw [Function.update_self]

/-- Where the hardware stands in the queue does not matter for the tables. -/
theorem DmarHw.request_sameTables (desc : DmarEntry) (qiStatus : Word) (head : ℕ) :
    h.SameTables { h.request rt desc qiStatus with head := head } := by
  rw [request_eq]
  constructor <;> dsimp only

/-- The unit when a request was carried out: -/
theorem DmarHw.Ready.sameTables (hready : h.Ready rt) (desc : DmarEntry) (qiStatus : Word) :
    (h.perform (decodeInvalidation desc)).SameTables
      (h.request rt desc qiStatus).fetch.fetch := by
  have hreq := hready.requested desc qiStatus
  have hfirst : (h.perform (decodeInvalidation desc)).SameTables
      (h.request rt desc qiStatus).fetch := by
    rw [hreq.fetch_eq]
    exact (request_sameTables desc qiStatus _).perform _
  rw [hreq.fetch_fetch_eq]
  exact ⟨hfirst.gsts, hfirst.root, hfirst.irTable, hfirst.ctxKept, hfirst.iotlbKept,
    hfirst.iecKept⟩

/-- it stands at the tail again. -/
theorem DmarHw.Ready.after_request (hready : h.Ready rt) (desc : DmarEntry) (qiStatus : Word) :
    (h.request rt desc qiStatus).fetch.fetch.Ready rt.requested := by
  have hreq := hready.requested desc qiStatus
  have ht' := (Dmar.isTail_next (Dmar.isTail_next hready.tail).1).1
  have hsts : ∀ i, (h.request rt desc qiStatus).fetch.fetch.sts i = h.sts i := by
    intro i
    have hgsts := (hready.sameTables desc qiStatus).gsts
    rw [sts, hgsts, perform_gsts, sts]
  have hiqa : (h.request rt desc qiStatus).fetch.fetch.iqa = rt.qiQueue := by
    rw [hreq.fetch_fetch_eq]
    dsimp only
    rw [hreq.fetch_eq, perform_iqa, ← hready.iqa, request_eq]
  have hiqt : (h.request rt desc qiStatus).fetch.fetch.iqt = rt.requested.qiTail.setWidth 32 := by
    rw [hreq.fetch_fetch_eq]
    dsimp only
    rw [hreq.iqt_fetch, request_eq]
  refine ⟨hreq.idle_fetch_fetch, ⟨fun i hi => ?_, hready.follows.once⟩,
    (hsts _).trans hready.queue, hiqa, ht', hiqt⟩
  rw [hsts]
  exact hready.follows.toggles i hi

/-- What no request changes is seen in the tables. -/
theorem DmarHw.SameTables.sound {h' : DmarHw} (hsame : h.SameTables h')
    (hsound : h.Sound firmware own) : h'.Sound firmware own := by
  intro hon
  rw [hsame.root, hsame.ctxKept, hsame.iotlbKept]
  refine hsound ?_
  rwa [sts, ← hsame.gsts]

/-- **A request**: the unit forgets what it asks to forget, and the wait ends. -/
theorem dmarIssueQiRequest_ok (hready : h.Ready rt) (hsound : h.Sound firmware own)
    {desc : DmarEntry} (hdesc : ∀ addr data, decodeInvalidation desc ≠ .wait addr data) :
    Ok dmarDevice (Sound firmware own)
      (fun rt' h' => rt' = rt.requested ∧ h'.Ready rt' ∧
        (h.perform (decodeInvalidation desc)).SameTables h')
      (dmarIssueQiRequest pages rt desc) h := by
  have hreq := hready.requested desc pages.qiStatus
  have hready' := hready.after_request desc pages.qiStatus
  have htables := hready.sameTables desc pages.qiStatus
  have hsound' := htables.sound (Sound.perform h (decodeInvalidation desc) hsound)
  exact dmarIssueQiRequest_of_request hready.idle hsound (hreq.wait_ok hdesc
    (hsound.request desc pages.qiStatus) (ret_ok hready'.idle hsound' ⟨rfl, hready', htables⟩))

/-! ## A unit

Nothing may be kept from before when translation is turned on. `dmar_enable` sees to that by its
requests before, and it is here that `Sound` is proved of a unit that translates. -/

/-- The tables of a unit are set, and translation is off. -/
structure DmarHw.Prepared (pages : DmarPages) (index : ℕ) (h : DmarHw) (rt : DmarDrhdRt) :
    Prop where
  ready : h.Ready rt
  off : h.sts teBit = false
  root : h.root = pages.getRootTable index
  irTable : h.irTable = pages.irta index

/-- Translation is on, under the tables of the unit and nothing else. -/
structure DmarHw.Running (pages : DmarPages) (index : ℕ) (h : DmarHw) (rt : DmarDrhdRt) :
    Prop where
  ready : h.Ready rt
  on : h.sts teBit = true
  root : h.root = pages.getRootTable index
  irTable : h.irTable = pages.irta index
  ctxKept : h.ctxKept = false
  iotlbKept : h.iotlbKept = false
  iecKept : h.iecKept = false

/-- A unit that runs is safe: it is under its own root table, and has nothing from before. -/
theorem DmarHw.Running.sound {index : ℕ} (hrun : h.Running pages index rt) :
    h.Sound firmware (pages.getRootTable index) :=
  fun _ => Or.inr ⟨hrun.root, hrun.ctxKept, hrun.iotlbKept⟩

/-- `dmar_prepare`. -/
theorem dmarPrepare_ok (hoff : h.Off rt) (hroot : rt.rootTableAddr = none)
    (hirTable : rt.irTableAddr = none) (htail : rt.qiTail = 0#16) :
    Ok dmarDevice (Sound firmware own)
      (fun rt' h' => rt'.ignore = rt.ignore ∧ h'.Prepared pages rt.index rt')
      (dmarPrepare pages rt) h := by
  rw [dmarPrepare]
  refine .bind ((dmarSetRootTable_ok hoff hroot).mono fun rt₁ h₁ hQ₁ => ?_)
  obtain ⟨rfl, hoff₁, hroot₁⟩ := hQ₁
  refine .bind ((dmarEnableQi_ok hoff₁ htail).mono fun rt₂ h₂ hQ₂ => ?_)
  obtain ⟨⟨gcmd, rfl⟩, hready₂, hte₂, hroot₂⟩ := hQ₂
  refine (dmarSetIntrRemapTable_ok hready₂ hte₂ hirTable).mono fun rt₃ h₃ hQ₃ => ?_
  obtain ⟨rfl, hready₃, hte₃, hroot₃, hirTable₃⟩ := hQ₃
  exact ⟨rfl, hready₃, hte₃, hroot₃.trans (hroot₂.trans hroot₁), hirTable₃⟩

/-- `dmar_enable_translation`, when nothing is kept from before. -/
theorem dmarEnableTranslation_ok {index : ℕ} (hprep : h.Prepared pages index rt)
    (hctx : h.ctxKept = false) (hiotlb : h.iotlbKept = false) (hiec : h.iecKept = false) :
    Ok dmarDevice (Sound firmware (pages.getRootTable index))
      (fun rt' h' => rt'.ignore = rt.ignore ∧ h'.Running pages index rt')
      (dmarEnableTranslation rt) h := by
  have hready := hprep.ready
  have hshadow : rt.gcmd &&& dmaGcmdTe = 0#32 :=
    (hready.follows.and_bit_eq_zero (c := teBit) rfl (by decide)).2 hprep.off
  have ha := hready.follows.asks_toggle (c := teBit) rfl (by decide) hprep.off
  have hne : teBit ≠ qieBit := by decide
  have hidle := ha.idle_after hready.idle fun heq => absurd heq hne
  have hrun : (h.after (rt.gcmd ||| 1#32 <<< teBit)).Running pages index
      { rt with gcmd := rt.gcmd ||| dmaGcmdTe } := by
    refine ⟨⟨hidle, ha.follows_after rfl, ?_, ?_, hready.tail, ?_⟩, ha.sts_self, ?_, ?_, ?_, ?_, ?_⟩
    · rw [ha.sts_of_ne (Ne.symm hne)]
      exact hready.queue
    · rw [ha.after_eq]
      exact hready.iqa
    · rw [ha.after_eq]
      exact hready.iqt
    · rw [ha.after_eq]
      exact hprep.root
    · rw [ha.after_eq]
      exact hprep.irTable
    · rw [ha.after_eq, hctx]
      rfl
    · rw [ha.after_eq, hiotlb]
      rfl
    · rw [ha.after_eq, hiec]
      rfl
  rw [dmarEnableTranslation, if_pos hshadow]
  exact command_ok ha hready.idle (ha.allows (fun _ _ => ⟨hctx, hiotlb⟩)
    (fun heq => absurd heq (by decide)) fun heq => absurd heq hne) (fun heq => absurd heq hne)
    (sound_of_off hprep.off) ((sound_of_off hprep.off).writeGcmd _)
    (ret_ok hidle hrun.sound ⟨rfl, hrun⟩)

/-- The tables stay set when something is to be forgotten. -/
theorem DmarHw.Prepared.of_request {index : ℕ} {rt' : DmarDrhdRt} {h' : DmarHw}
    {inv : Invalidation} (hprep : h.Prepared pages index rt) (hready : h'.Ready rt')
    (hsame : (h.perform inv).SameTables h') : h'.Prepared pages index rt' := by
  refine ⟨hready, ?_, ?_, ?_⟩
  · rw [sts, hsame.gsts, perform_gsts]
    exact hprep.off
  · rw [hsame.root, perform_root]
    exact hprep.root
  · rw [hsame.irTable, perform_irTable]
    exact hprep.irTable

/-- `dmar_enable`. -/
theorem dmarEnable_ok {index : ℕ} (hprep : h.Prepared pages index rt) :
    Ok dmarDevice (Sound firmware (pages.getRootTable index))
      (fun rt' h' => rt'.ignore = rt.ignore ∧ h'.Running pages index rt')
      (dmarEnable pages rt) h := by
  rw [dmarEnable, dmarInvalidContextCacheGlobal, dmarInvalidContextCache, if_pos (by decide)]
  have hctx : decodeInvalidation (dmarEntry (0x01#64 ||| (1#64 <<< 4)) 0#64) =
      .context 1#2 0#16 0#16 0#2 := by
    decide
  have hiotlb : decodeInvalidation (dmarEntry ((1#64 <<< 7) ||| (1#64 <<< 6) ||| 0x02#64 |||
      (1#64 <<< 4)) 0#64) = .iotlb 1#2 0#16 := by
    decide
  have hiec : decodeInvalidation (dmarEntry (0x04#64 ||| (0#64 <<< 4)) 0#64) =
      .iec 0#1 0#5 0#16 := by
    decide
  refine .bind ((dmarIssueQiRequest_ok hprep.ready (sound_of_off hprep.off) fun addr data heq =>
    by rw [hctx] at heq; cases heq).mono fun rt₁ h₁ hQ₁ => ?_)
  obtain ⟨rfl, hready₁, hsame₁⟩ := hQ₁
  have hprep₁ := hprep.of_request hready₁ hsame₁
  rw [hctx] at hsame₁
  rw [dmarInvalidIotlbGlobal, dmarInvalidIotlb, if_pos (by decide)]
  refine .bind ((dmarIssueQiRequest_ok hready₁ (sound_of_off hprep₁.off) fun addr data heq =>
    by rw [hiotlb] at heq; cases heq).mono fun rt₂ h₂ hQ₂ => ?_)
  obtain ⟨rfl, hready₂, hsame₂⟩ := hQ₂
  have hprep₂ := hprep₁.of_request hready₂ hsame₂
  rw [hiotlb] at hsame₂
  rw [dmarInvalidIecGlobal, dmarInvalidIec]
  refine .bind ((dmarIssueQiRequest_ok hready₂ (sound_of_off hprep₂.off) fun addr data heq =>
    by rw [if_pos rfl, hiec] at heq; cases heq).mono fun rt₃ h₃ hQ₃ => ?_)
  obtain ⟨rfl, hready₃, hsame₃⟩ := hQ₃
  have hprep₃ := hprep₂.of_request hready₃ hsame₃
  rw [if_pos rfl, hiec] at hsame₃
  have hctx₃ : h₃.ctxKept = false := by
    rw [hsame₃.ctxKept]
    refine hsame₂.ctxKept.trans (hsame₁.ctxKept.trans ?_)
    exact Bool.and_false _
  have hiotlb₃ : h₃.iotlbKept = false := by
    rw [hsame₃.iotlbKept]
    refine hsame₂.iotlbKept.trans ?_
    exact Bool.and_false _
  have hiec₃ : h₃.iecKept = false := hsame₃.iecKept.trans (Bool.and_false _)
  have hignore : rt.requested.requested.requested.ignore = rt.ignore := rfl
  refine (dmarEnableTranslation_ok hprep₃ hctx₃ hiotlb₃ hiec₃).mono fun rt₄ h₄ hQ₄ => ?_
  exact ⟨hQ₄.1.trans hignore, hQ₄.2⟩

/-- `dmar_enable_intr_remapping`, of a unit that runs. -/
theorem dmarEnableIntrRemapping_ok {index : ℕ} (hrun : h.Running pages index rt) :
    Ok dmarDevice (Sound firmware (pages.getRootTable index))
      (fun rt' h' => rt'.ignore = rt.ignore ∧ h'.Running pages index rt' ∧ h'.sts ireBit = true)
      (dmarEnableIntrRemapping rt) h := by
  have hready := hrun.ready
  have hshadow : rt.gcmd &&& dmaGcmdIre = 0#32 ↔ h.sts ireBit = false :=
    hready.follows.and_bit_eq_zero rfl (by decide)
  rw [dmarEnableIntrRemapping]
  cases hire : h.sts ireBit with
  | true =>
    have hne : ¬ rt.gcmd &&& dmaGcmdIre = 0#32 := by
      intro hzero
      rw [hshadow.1 hzero] at hire
      cases hire
    rw [if_neg hne]
    exact ret_ok hready.idle hrun.sound ⟨rfl, hrun, hire⟩
  | false =>
    have ha := hready.follows.asks_toggle (c := ireBit) rfl (by decide) hire
    have hne : ireBit ≠ qieBit := by decide
    have hidle := ha.idle_after hready.idle fun heq => absurd heq hne
    have hrun' : (h.after (rt.gcmd ||| 1#32 <<< ireBit)).Running pages index
        { rt with gcmd := rt.gcmd ||| dmaGcmdIre } := by
      refine ⟨⟨hidle, ha.follows_after rfl, ?_, ?_, hready.tail, ?_⟩, ?_, ?_, ?_, ?_, ?_, ?_⟩
      · rw [ha.sts_of_ne (Ne.symm hne)]
        exact hready.queue
      · rw [ha.after_eq]
        exact hready.iqa
      · rw [ha.after_eq]
        exact hready.iqt
      · rw [ha.sts_of_ne (by decide)]
        exact hrun.on
      · rw [ha.after_eq]
        exact hrun.root
      · rw [ha.after_eq]
        exact hrun.irTable
      · rw [ha.after_eq, hrun.ctxKept]
        rfl
      · rw [ha.after_eq, hrun.iotlbKept]
        rfl
      · rw [ha.after_eq, hrun.iecKept]
        rfl
    rw [if_pos (hshadow.2 hire)]
    exact command_ok ha hready.idle (ha.allows (fun heq => absurd heq (by decide))
      (fun _ _ => hrun.iecKept) fun heq => absurd heq hne) (fun heq => absurd heq hne)
      hrun.sound (Sound.writeGcmd hrun.sound _)
      (ret_ok hidle hrun'.sound ⟨rfl, hrun', ha.sts_self⟩)

end

/-! ## All units

The loops over the units treat one after the other. The others stay as they are, or go on with what
they do, and each of the records below is kept by that. -/

section

variable {n : ℕ} (pages : DmarPages) (ign : Fin n → Bool) (firmware : Fin n → Word)

/-- What is known of a unit before it is registered, -/
structure UnitFresh (i : Fin n) (rt : DmarDrhdRt) (h : DmarHw) : Prop where
  ignore : rt.ignore = ign i
  rootTableAddr : rt.rootTableAddr = none
  irTableAddr : rt.irTableAddr = none
  qiTail : rt.qiTail = 0#16
  idle : h.Idle
  queue : h.sts qieBit = false
  root : h.root = firmware i

/-- when it is, -/
structure UnitRegistered (i : Fin n) (rt : DmarDrhdRt) (h : DmarHw) : Prop where
  ignore : rt.ignore = ign i
  index : rt.index = i
  rootTableAddr : rt.rootTableAddr = none
  irTableAddr : rt.irTableAddr = none
  qiTail : rt.qiTail = 0#16
  off : h.Off rt

/-- when it is prepared, -/
structure UnitPrepared (i : Fin n) (rt : DmarDrhdRt) (h : DmarHw) : Prop where
  ignore : rt.ignore = ign i
  ignored : ign i = true → h.Off rt
  prepared : ign i = false → h.Prepared pages i rt

/-- and when it is enabled. -/
structure UnitEnabled (i : Fin n) (rt : DmarDrhdRt) (h : DmarHw) : Prop where
  ignore : rt.ignore = ign i
  ignored : ign i = true → h.Off rt
  running : ign i = false → h.Running pages i rt

/-- The units are safe, each with its own root table. -/
abbrev UnitSound (i : Fin n) : DmarHw → Prop := Sound (firmware i) (pages.getRootTable i)

variable {pages ign firmware} {i : Fin n} {rt : DmarDrhdRt} {h : DmarHw}

/-- A unit is safe and does nothing by itself before it is registered, -/
theorem UnitFresh.still (hu : UnitFresh ign firmware i rt h) :
    UnitSound pages firmware i h ∧ ∀ h', ¬ dmarDevice.tick h h' :=
  ⟨fun _ => Or.inl hu.root, hu.idle.not_tick⟩

/-- when it is, -/
theorem UnitRegistered.still (hu : UnitRegistered ign i rt h) :
    UnitSound pages firmware i h ∧ ∀ h', ¬ dmarDevice.tick h h' :=
  ⟨sound_of_off hu.off.translation, hu.off.idle.not_tick⟩

/-- when it is prepared, -/
theorem UnitPrepared.still (hu : UnitPrepared pages ign i rt h) :
    UnitSound pages firmware i h ∧ ∀ h', ¬ dmarDevice.tick h h' := by
  cases hignore : ign i with
  | true =>
    have hoff := hu.ignored hignore
    exact ⟨sound_of_off hoff.translation, hoff.idle.not_tick⟩
  | false =>
    have hprep := hu.prepared hignore
    exact ⟨sound_of_off hprep.off, hprep.ready.idle.not_tick⟩

/-- and when it is enabled. So the other units can be left alone while the driver is with one of
them. -/
theorem UnitEnabled.still (hu : UnitEnabled pages ign i rt h) :
    UnitSound pages firmware i h ∧ ∀ h', ¬ dmarDevice.tick h h' := by
  cases hignore : ign i with
  | true =>
    have hoff := hu.ignored hignore
    exact ⟨sound_of_off hoff.translation, hoff.idle.not_tick⟩
  | false =>
    have hrun := hu.running hignore
    exact ⟨hrun.sound, hrun.ready.idle.not_tick⟩

variable {units : Fin n → DmarDrhdRt} {hs : Fin n → DmarHw}

/-- `do_action_for_iommus` is a loop that leaves some units alone. -/
theorem doActionForIommus_eq (action : DmarDrhdRt → DmarProg DmarDrhdRt) :
    doActionForIommus action units = Prog.each
      (fun _ rt => if rt.ignore then pure rt else action rt) (List.finRange n) units := by
  rw [doActionForIommus, Prog.each]
  congr 1
  funext units i
  split
  · change Prog.ret units = Prog.ret (Function.update units i (units i))
    rw [Function.update_eq_self]
  · rfl

/-- `register_hrhd_units` is a loop over all units. Each is given its index. -/
theorem registerHrhdUnits_eq : registerHrhdUnits units = Prog.each
    (fun i rt => dmarRegisterHrhd { rt with index := i.val }) (List.finRange n) units := rfl

/-- `register_hrhd_units`. -/
theorem registerHrhdUnits_ok (hfresh : ∀ i, UnitFresh ign firmware i (units i) (hs i)) :
    Ok (Device.pi dmarDevice) (fun hs => ∀ i, UnitSound pages firmware i (hs i))
      (fun units hs => ∀ i, UnitRegistered ign i (units i) (hs i))
      (registerHrhdUnits units) hs := by
  rw [registerHrhdUnits_eq]
  refine Ok.each (fun i rt h hu => hu.elim UnitFresh.still UnitRegistered.still)
    (fun i _ rt h hu => ?_) (List.nodup_finRange n) (fun i _ => hfresh i)
    fun i hi => absurd (List.mem_finRange i) hi
  refine (dmarRegisterHrhd_ok hu.idle hu.queue fun _ => Or.inl hu.root).mono fun rt' h' hQ => ?_
  obtain ⟨gcmd, rfl, hoff⟩ := hQ
  exact ⟨hu.ignore, rfl, hu.rootTableAddr, hu.irTableAddr, hu.qiTail, hoff⟩

/-- `init_iommu`. -/
theorem initIommu_ok (hfresh : ∀ i, UnitFresh ign firmware i (units i) (hs i)) :
    Ok (Device.pi dmarDevice) (fun hs => ∀ i, UnitSound pages firmware i (hs i))
      (fun units hs => ∀ i, UnitPrepared pages ign i (units i) (hs i))
      (initIommu pages units) hs := by
  rw [initIommu]
  refine .bind ((registerHrhdUnits_ok hfresh).mono fun units₁ hs₁ hregistered => ?_)
  rw [doActionForIommus_eq]
  refine Ok.each (fun i rt h hu => hu.elim UnitRegistered.still UnitPrepared.still)
    (fun i _ rt h hu => ?_) (List.nodup_finRange n) (fun i _ => hregistered i)
    fun i hi => absurd (List.mem_finRange i) hi
  rw [hu.ignore]
  cases hignore : ign i with
  | true =>
    refine ret_ok hu.off.idle (sound_of_off hu.off.translation) ⟨hu.ignore, fun _ => hu.off, ?_⟩
    rw [hignore]
    exact fun hfalse => absurd hfalse.symm Bool.false_ne_true
  | false =>
    refine (dmarPrepare_ok hu.off hu.rootTableAddr hu.irTableAddr hu.qiTail).mono
      fun rt' h' hQ => ?_
    refine ⟨hQ.1.trans hu.ignore, ?_, fun _ => ?_⟩
    · rw [hignore]
      exact fun htrue => absurd htrue Bool.false_ne_true
    · have hprep := hQ.2
      rwa [hu.index] at hprep

/-- `enable_iommu`. -/
theorem enableIommu_ok (hprepared : ∀ i, UnitPrepared pages ign i (units i) (hs i)) :
    Ok (Device.pi dmarDevice) (fun hs => ∀ i, UnitSound pages firmware i (hs i))
      (fun units hs => ∀ i, UnitEnabled pages ign i (units i) (hs i))
      (enableIommu pages units) hs := by
  rw [enableIommu, doActionForIommus_eq]
  refine Ok.each (fun i rt h hu => hu.elim UnitPrepared.still UnitEnabled.still)
    (fun i _ rt h hu => ?_) (List.nodup_finRange n) (fun i _ => hprepared i)
    fun i hi => absurd (List.mem_finRange i) hi
  rw [hu.ignore]
  cases hignore : ign i with
  | true =>
    have hoff := hu.ignored hignore
    refine ret_ok hoff.idle (sound_of_off hoff.translation) ⟨hu.ignore, fun _ => hoff, ?_⟩
    rw [hignore]
    exact fun hfalse => absurd hfalse.symm Bool.false_ne_true
  | false =>
    refine (dmarEnable_ok (hu.prepared hignore)).mono fun rt' h' hQ => ?_
    refine ⟨hQ.1.trans hu.ignore, ?_, fun _ => hQ.2⟩
    rw [hignore]
    exact fun htrue => absurd htrue Bool.false_ne_true

/-- `dmar_enable_intr_remapping` of units that run, as `dmar_assign_irte` calls it. -/
def enableIntrRemappings (calls : List (Fin n)) (units : Fin n → DmarDrhdRt) :
    IommuProg n (Fin n → DmarDrhdRt) :=
  calls.foldlM (fun units i => onUnit dmarEnableIntrRemapping units i) units

/-- A unit is enabled, and interrupt remapping is on if it was asked for. -/
structure UnitRemapped (pages : DmarPages) (ign : Fin n → Bool) (remapped : Fin n → Prop)
    (i : Fin n) (rt : DmarDrhdRt) (h : DmarHw) : Prop where
  enabled : UnitEnabled pages ign i rt h
  remapping : remapped i → h.sts ireBit = true

/-- One call. -/
theorem enableIntrRemapping_ok {remapped : Fin n → Prop} {c : Fin n} (hc : ign c = false)
    (hunits : ∀ i, UnitRemapped pages ign remapped i (units i) (hs i)) :
    Ok (Device.pi dmarDevice) (fun hs => ∀ i, UnitSound pages firmware i (hs i))
      (fun units hs => ∀ i,
        UnitRemapped pages ign (fun i => remapped i ∨ i = c) i (units i) (hs i))
      (onUnit dmarEnableIntrRemapping units c) hs := by
  have heach : Prog.each (fun _ rt => dmarEnableIntrRemapping rt) [c] units =
      onUnit dmarEnableIntrRemapping units c := Prog.bind_ret _
  rw [← heach]
  refine Ok.each (P := UnitRemapped pages ign remapped)
    (fun i rt h hu => (hu.elim UnitRemapped.enabled UnitRemapped.enabled).still)
    (fun i hi rt h hu => ?_) (List.nodup_singleton c) (fun i _ => hunits i) fun i hi => ?_
  · obtain rfl := List.mem_singleton.1 hi
    refine (dmarEnableIntrRemapping_ok (hu.enabled.running hc)).mono fun rt' h' hQ => ?_
    obtain ⟨hignore, hrun, hire⟩ := hQ
    refine ⟨⟨hignore.trans hu.enabled.ignore, ?_, fun _ => hrun⟩, fun _ => hire⟩
    rw [hc]
    exact fun htrue => absurd htrue Bool.false_ne_true
  · have hne : i ≠ c := fun heq => hi (List.mem_singleton.2 heq)
    exact ⟨(hunits i).enabled, fun hor => (hunits i).remapping (hor.resolve_right hne)⟩

/-- All calls. -/
theorem enableIntrRemappings_ok {calls : List (Fin n)} (hcalls : ∀ i ∈ calls, ign i = false)
    {remapped : Fin n → Prop}
    (hunits : ∀ i, UnitRemapped pages ign remapped i (units i) (hs i)) :
    Ok (Device.pi dmarDevice) (fun hs => ∀ i, UnitSound pages firmware i (hs i))
      (fun units hs => ∀ i,
        UnitRemapped pages ign (fun i => remapped i ∨ i ∈ calls) i (units i) (hs i))
      (enableIntrRemappings calls units) hs := by
  induction calls generalizing units hs remapped with
  | nil =>
    refine Device.always_of_still (fun hs' ht => ?_)
      ⟨fun i => (hunits i).enabled.still.1, fun i => ⟨(hunits i).enabled, fun hor => ?_⟩⟩
    · obtain ⟨i, h', ht, -⟩ := ht
      have hstill : UnitSound pages firmware i (hs i) ∧ _ := (hunits i).enabled.still
      exact hstill.2 h' ht
    · exact (hunits i).remapping (hor.resolve_right List.not_mem_nil)
  | cons c calls ih =>
    rw [enableIntrRemappings, List.foldlM_cons]
    refine .bind ((enableIntrRemapping_ok (hcalls c List.mem_cons_self) hunits).mono
      fun units₁ hs₁ hunits₁ => ?_)
    refine (ih (fun i hi => hcalls i (List.mem_cons_of_mem c hi)) hunits₁).mono
      fun units₂ hs₂ hunits₂ i => ⟨(hunits₂ i).enabled, fun hor => (hunits₂ i).remapping ?_⟩
    rwa [List.mem_cons, ← or_assoc] at hor

variable (pages) in
/-- `init_iommu` and `enable_iommu`, and then `dmar_enable_intr_remapping` as often as entries are
assigned. -/
def bringUp (calls : List (Fin n)) (units : Fin n → DmarDrhdRt) :
    IommuProg n (Fin n → DmarDrhdRt) := do
  let units ← initIommu pages units
  let units ← enableIommu pages units
  enableIntrRemappings calls units

/-- The whole sequence. Between any two of its parts each unit is in the state that the next part
begins with. -/
theorem bringUp_ok {calls : List (Fin n)} (hcalls : ∀ i ∈ calls, ign i = false)
    (hfresh : ∀ i, UnitFresh ign firmware i (units i) (hs i)) :
    Ok (Device.pi dmarDevice) (fun hs => ∀ i, UnitSound pages firmware i (hs i))
      (fun units hs => ∀ i, UnitRemapped pages ign (· ∈ calls) i (units i) (hs i))
      (bringUp pages calls units) hs := by
  rw [bringUp]
  refine .bind ((initIommu_ok hfresh).mono fun units₁ hs₁ hprepared => ?_)
  refine .bind ((enableIommu_ok hprepared).mono fun units₂ hs₂ henabled => ?_)
  have hunits : ∀ i, UnitRemapped pages ign (fun _ => False) i (units₂ i) (hs₂ i) :=
    fun i => ⟨henabled i, False.elim⟩
  refine (enableIntrRemappings_ok hcalls hunits).mono fun units₃ hs₃ h₃ i => ?_
  exact ⟨(h₃ i).enabled, fun hi => (h₃ i).remapping (Or.inr hi)⟩

/-- **The remapping units come up under the hypervisor's tables only.** Whatever the firmware has
left but for a queue in use, and however long each unit takes for a command: translation is at no
time on under other root tables than the firmware's, or the own with nothing kept from before;
every write to a unit is one that it allows, so that commands come one at a time; from wherever the
run has come it can go on to its return, so that no wait is for ever; and on return those and only
those units translate that are not to be ignored, each under its own tables. -/
theorem iommu_bring_up (pages : DmarPages) (calls : List (Fin n))
    (hcalls : ∀ i ∈ calls, (units i).ignore = false)
    (hnull : ∀ i, (units i).rootTableAddr = none ∧ (units i).irTableAddr = none ∧
      (units i).qiTail = 0#16)
    (hidle : ∀ i, (hs i).command = none ∧ (hs i).sts qieBit = false)
    {s : IommuProg n (Fin n → DmarDrhdRt) × (Fin n → DmarHw)}
    (hreach : Transition.Reach (system (Device.pi dmarDevice) (bringUp pages calls units) hs)
      Transition.any s) :
    (∀ i, (s.2 i).sts teBit = true → (s.2 i).root = (hs i).root ∨
      ((s.2 i).root = pages.getRootTable i ∧ (s.2 i).ctxKept = false ∧
        (s.2 i).iotlbKept = false)) ∧
    (∀ i loc v k, s.1 = .write (i, loc) v k → (s.2 i).Allows loc v) ∧
    (∃ units' hs', Transition.Reach (system (Device.pi dmarDevice) s.1 s.2) Transition.any
      (.ret units', hs')) ∧
    ∀ units', s.1 = .ret units' → ∀ i,
      if (units i).ignore then (s.2 i).sts teBit = false
      else (s.2 i).sts teBit = true ∧ (s.2 i).root = pages.getRootTable i ∧
        (s.2 i).irTable = pages.irta i ∧ (s.2 i).ctxKept = false ∧ (s.2 i).iotlbKept = false ∧
        (s.2 i).iecKept = false ∧ (i ∈ calls → (s.2 i).sts ireBit = true) := by
  have hfresh : ∀ i, UnitFresh (fun i => (units i).ignore) (fun i => (hs i).root) i
      (units i) (hs i) := by
    intro i
    obtain ⟨hroot, hir, htail⟩ := hnull i
    obtain ⟨hcommand, hqie⟩ := hidle i
    refine ⟨rfl, hroot, hir, htail, ⟨hcommand, fun hon => ?_⟩, hqie, rfl⟩
    rw [hqie] at hon
    cases hon
  have hstart : Ok _ _ _ (bringUp pages calls units) _ := bringUp_ok hcalls hfresh
  have hok := ok_of_reach hstart hreach
  refine ⟨hok.safe, ?_, reach_ret hok (.init rfl), ?_⟩
  · intro i loc v k hwrite
    rw [hwrite] at hok
    exact hok.self.2.1
  · intro units' hret i
    rw [hret] at hok
    have hunit := hok.self.2 i
    cases hignore : (units i).ignore with
    | true => exact (hunit.enabled.ignored hignore).translation
    | false =>
      have hrun := hunit.enabled.running hignore
      exact ⟨hrun.on, hrun.root, hrun.irTable, hrun.ctxKept, hrun.iotlbKept, hrun.iecKept,
        hunit.remapping⟩

end

/-- The units of the board, as they are before they are registered: the first is ignored. -/
def boardUnits (i : Fin 2) : DmarDrhdRt where
  index := 0
  ignore := decide (i.val = 0)
  rootTableAddr := none
  irTableAddr := none
  qiQueue := 0#64
  qiTail := 0#16
  gcmd := 0#32

/-- Pages for them. -/
def boardPages : DmarPages where
  getRootTable index := 0x10000#64 + 0x1000#64 * BitVec.ofNat 64 index
  getIrTable index := 0x20000#64 + 0x1000#64 * BitVec.ofNat 64 index
  getQiQueue index := 0x30000#64 + 0x1000#64 * BitVec.ofNat 64 index
  qiStatus := 0x40000#64

/-- A unit that the firmware has left with translation on. -/
def leftOn : DmarHw where
  gsts := 0xC0000000#32
  command := none
  rtaddr := 0x5000#64
  irta := 0#64
  iqa := 0#64
  iqt := 0#32
  head := 0
  mem := fun _ _ => 0#64
  status := fun _ => 0#32
  root := 0x5000#64
  irTable := 0#64
  ctxKept := true
  iotlbKept := true
  iecKept := true

/-- Two units of which the first is ignored, and both with translation on at first. At the end only
the second one translates, under its own root table. -/
theorem iommu_bring_up_board : ∃ units' hs',
    Transition.Reach (system (Device.pi dmarDevice) (bringUp boardPages [1] boardUnits)
      fun _ => leftOn) Transition.any (.ret units', hs') ∧
    (hs' 0).sts teBit = false ∧ (hs' 1).sts teBit = true ∧ (hs' 1).root = 0x11000#64 ∧
    (hs' 1).sts ireBit = true := by
  have hcalls : ∀ i ∈ [(1 : Fin 2)], (boardUnits i).ignore = false := by decide
  have hidle : ∀ _ : Fin 2, leftOn.command = none ∧ leftOn.sts qieBit = false :=
    fun _ => ⟨rfl, by decide⟩
  obtain ⟨-, -, ⟨units', hs', hreach⟩, -⟩ := iommu_bring_up boardPages [1] hcalls
    (fun _ => ⟨rfl, rfl, rfl⟩) hidle (.init rfl)
  obtain ⟨-, -, -, hend⟩ := iommu_bring_up boardPages [1] hcalls
    (fun _ => ⟨rfl, rfl, rfl⟩) hidle hreach
  have hfirst := hend units' rfl 0
  have hsecond := hend units' rfl 1
  rw [if_pos (show (boardUnits 0).ignore = true from rfl)] at hfirst
  rw [if_neg (show ¬ (boardUnits 1).ignore = true by decide)] at hsecond
  exact ⟨units', hs', hreach, hfirst, hsecond.1, hsecond.2.1,
    hsecond.2.2.2.2.2.2 List.mem_cons_self⟩

end Acrn
