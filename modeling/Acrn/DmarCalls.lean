import Acrn.DmarTables

/-!
# Calls one after the other

What a list of calls on the remapping unit leaves: the tables stay in order, a context entry
or an interrupt remapping entry that no call is about is as it was, and each call has been made
in step at some time in between. A list of calls that take away takes away what they name.
-/

namespace Acrn

namespace DmarState

/-- The calls of a list. -/
def calls (ctx : ContextTables) (s : DmarState) (cs : List DmarCall) : DmarState :=
  cs.foldl (call ctx) s

/-- The log of the unit goes on from `s` to `s'`. -/
def Extends (s s' : DmarState) : Prop :=
  ∃ events, s'.dmar.queue.log = s.dmar.queue.log ++ events

/-- At some time from `s` to `s'` the call is made, in step. -/
def Made (ctx : ContextTables) (s s' : DmarState) (c : DmarCall) : Prop :=
  ∃ t : DmarState, s.Extends t ∧ InStep ctx t c ∧ (t.call ctx c).Extends s'

variable {ctx : ContextTables} {s s₁ s' : DmarState} {c : DmarCall} {cs : List DmarCall}

theorem Extends.refl (s : DmarState) : s.Extends s := ⟨[], (List.append_nil _).symm⟩

theorem Extends.trans (h : s.Extends s₁) (h' : s₁.Extends s') : s.Extends s' := by
  obtain ⟨events, hevents⟩ := h
  obtain ⟨events', hevents'⟩ := h'
  exact ⟨events ++ events', by rw [hevents', hevents, List.append_assoc]⟩

theorem extends_call (h : InStep ctx s c) : s.Extends (s.call ctx c) := by
  obtain ⟨requests, hlog, -, -⟩ := h.submits
  exact ⟨_, by rw [hlog, List.append_assoc]⟩

theorem Made.mono (h : Made ctx s₁ s' c) (hs : s.Extends s₁) : Made ctx s s' c := by
  obtain ⟨t, ht, hstep, ht'⟩ := h
  exact ⟨t, hs.trans ht, hstep, ht'⟩

/-! ## The record -/

/-- The last operation on a device after a call. -/
theorem last_call (bus devfun : BitVec 8) : (s.call ctx c).last bus devfun =
    match c with
    | .add domain b d => if bus = b ∧ devfun = d then .added domain else s.last bus devfun
    | .remove _ b d _ _ => if bus = b ∧ devfun = d then .removed else s.last bus devfun
    | _ => s.last bus devfun := by
  cases c with
  | add domain b d => exact record_apply s.last b d bus devfun (.added domain)
  | remove domain b d qiStatus qiStatus' => exact record_apply s.last b d bus devfun .removed
  | assign msi irte index qiStatus => rfl
  | free index qiStatus => rfl

theorem last_call_of_ne {bus devfun : BitVec 8} (h : c.device ≠ some (bus, devfun)) :
    (s.call ctx c).last bus devfun = s.last bus devfun := by
  have hne : ∀ {b d}, c.device = some (b, d) → ¬ (bus = b ∧ devfun = d) := by
    rintro b d hdevice ⟨rfl, rfl⟩
    exact h hdevice
  rw [last_call]
  cases c with
  | add domain b d => exact if_neg (hne rfl)
  | remove domain b d qiStatus qiStatus' => exact if_neg (hne rfl)
  | assign msi irte index qiStatus => rfl
  | free index qiStatus => rfl

/-- A device that was added once is not one that never was. -/
theorem last_call_ne_never {bus devfun : BitVec 8} (h : s.last bus devfun ≠ .never) :
    (s.call ctx c).last bus devfun ≠ .never := by
  rw [last_call]
  cases c with
  | add domain b d =>
    dsimp only
    split
    · nofun
    · exact h
  | remove domain b d qiStatus qiStatus' =>
    dsimp only
    split
    · nofun
    · exact h
  | assign msi irte index qiStatus => exact h
  | free index qiStatus => exact h

/-- What a caller keeps to does not depend on the calls before. -/
theorem dmarOk_call {c' : DmarCall} (h : DmarOk s c) : DmarOk (s.call ctx c') c := by
  cases c with
  | remove domain bus devfun qiStatus qiStatus' => exact last_call_ne_never h
  | add domain bus devfun => exact h
  | assign msi irte index qiStatus => exact h
  | free index qiStatus => exact h

/-! ## Lists of calls

What is proved of one call is carried over a list by induction, with the unit before a call as the
state in which it has been made in step. -/

/-- **A list of calls.** -/
theorem Inv.calls (h : s.Inv ctx) (hok : ∀ c ∈ cs, DmarOk s c) :
    (s.calls ctx cs).Inv ctx ∧ s.Extends (s.calls ctx cs) ∧
      (∀ c ∈ cs, Made ctx s (s.calls ctx cs) c) ∧
      (∀ bus devfun, (∀ c ∈ cs, c.device ≠ some (bus, devfun)) →
        (s.calls ctx cs).dmar.contextEntry bus devfun = s.dmar.contextEntry bus devfun ∧
        (s.calls ctx cs).last bus devfun = s.last bus devfun) ∧
      ∀ index, (∀ c ∈ cs, c.index ≠ some index) →
        (s.calls ctx cs).dmar.unit.irTable index = s.dmar.unit.irTable index := by
  induction cs generalizing s with
  | nil =>
    exact ⟨h, .refl s, fun _ hc => absurd hc List.not_mem_nil, fun _ _ _ => ⟨rfl, rfl⟩,
      fun _ _ => rfl⟩
  | cons c cs ih =>
    obtain ⟨hinv, hstep⟩ := h.call (hok c List.mem_cons_self)
    obtain ⟨hinv', hextends, hmade, hcontexts, hirtes⟩ := ih hinv fun c' hc' =>
      dmarOk_call (hok c' (List.mem_cons_of_mem c hc'))
    refine ⟨hinv', (extends_call hstep).trans hextends, fun c' hc' => ?_, fun bus devfun hne => ?_,
      fun index hne => ?_⟩
    · obtain rfl | hc' := List.mem_cons.mp hc'
      · exact ⟨s, .refl s, hstep, hextends⟩
      · exact (hmade c' hc').mono (extends_call hstep)
    · have hself := hne c List.mem_cons_self
      obtain ⟨hentry, hlast⟩ :=
        hcontexts bus devfun fun c' hc' => hne c' (List.mem_cons_of_mem c hc')
      exact ⟨hentry.trans (hstep.contexts bus devfun hself), hlast.trans (last_call_of_ne hself)⟩
    · exact (hirtes index fun c' hc' => hne c' (List.mem_cons_of_mem c hc')).trans
        (hstep.irtes index (hne c List.mem_cons_self))

/-- The last operation on a device that is named in the list, where all of its calls there are of
one kind. -/
theorem last_calls {op : LastOp} {bus devfun : BitVec 8}
    (hop : ∀ c ∈ cs, c.device = some (bus, devfun) → ∀ t : DmarState,
      (t.call ctx c).last bus devfun = op)
    (hdevice : ∃ c ∈ cs, c.device = some (bus, devfun)) :
    (s.calls ctx cs).last bus devfun = op := by
  induction cs using List.reverseRecOn with
  | nil =>
    obtain ⟨c, hc, -⟩ := hdevice
    exact absurd hc List.not_mem_nil
  | append_singleton cs c ih =>
    rw [calls, List.foldl_append, List.foldl_cons, List.foldl_nil]
    by_cases hc : c.device = some (bus, devfun)
    · exact hop c (List.mem_append_right cs (List.mem_singleton_self c)) hc _
    · rw [last_call_of_ne hc]
      refine ih (fun c' hc' => hop c' (List.mem_append_left _ hc')) ?_
      obtain ⟨c', hc', heq⟩ := hdevice
      obtain hc' | hc' := List.mem_append.mp hc'
      · exact ⟨c', hc', heq⟩
      · exact absurd (List.mem_singleton.mp hc' ▸ heq) hc

end DmarState

/-! ## Taking away -/

/-- The call takes away. -/
def DmarCall.Releases : DmarCall → Prop
  | remove _ _ _ _ _ => True
  | free _ _ => True
  | _ => False

namespace DmarState

variable {ctx : ContextTables} {s : DmarState} {c : DmarCall} {cs : List DmarCall}

/-- An entry that is present after such a call was present, and it is not the one that is freed. -/
theorem irTable_release (h : s.Inv ctx) (hstep : InStep ctx s c) (hc : c.Releases)
    {index : BitVec 16} (hpresent : ((s.call ctx c).dmar.unit.irTable index).present = true) :
    (s.dmar.unit.irTable index).present = true ∧ c.index ≠ some index := by
  have hne : c.index ≠ some index := by
    intro hindex
    cases c with
    | add domain b d => exact hc
    | assign msi irte i qiStatus => exact hc
    | remove domain b d qiStatus qiStatus' => cases hindex
    | free i qiStatus =>
      obtain rfl := Option.some.inj hindex
      obtain ⟨-, -, hunit, -⟩ := Dmar.freeIrte_spec ctx i qiStatus h.queueOk
      have hentry := (congrFun (congrArg DmarUnit.irTable hunit) i).trans (Function.update_self ..)
      exact Bool.false_ne_true ((congrArg DmarIrEntry.present hentry).symm.trans hpresent)
  refine ⟨?_, hne⟩
  rwa [hstep.irtes index hne] at hpresent

/-- **What is taken away is gone.** -/
theorem irTable_calls (h : s.Inv ctx) (hok : ∀ c ∈ cs, DmarOk s c) (hcs : ∀ c ∈ cs, c.Releases)
    {index : BitVec 16} (hpresent : ((s.calls ctx cs).dmar.unit.irTable index).present = true) :
    (s.dmar.unit.irTable index).present = true ∧ ∀ c ∈ cs, c.index ≠ some index := by
  induction cs generalizing s with
  | nil => exact ⟨hpresent, fun _ hc => absurd hc List.not_mem_nil⟩
  | cons c cs ih =>
    obtain ⟨hinv, hstep⟩ := h.call (hok c List.mem_cons_self)
    obtain ⟨hafter, hrest⟩ := ih hinv
      (fun c' hc' => dmarOk_call (hok c' (List.mem_cons_of_mem c hc')))
      (fun c' hc' => hcs c' (List.mem_cons_of_mem c hc')) hpresent
    obtain ⟨hbefore, hne⟩ := irTable_release h hstep (hcs c List.mem_cons_self) hafter
    refine ⟨hbefore, fun c' hc' => ?_⟩
    obtain rfl | hc' := List.mem_cons.mp hc'
    · exact hne
    · exact hrest c' hc'

end DmarState

end Acrn
