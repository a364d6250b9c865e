import Acrn.ExceptionMerge

/-!
# Interrupted events

An event whose delivery a VM exit interrupted comes back in the IDT-vectoring
information. Exceptions are queued again, under the rules for combining them; any
other event is kept aside until the next entry, which injects it unless an
exception or an NMI goes first.
-/

namespace Acrn

open Transition

variable {s s₁ s₂ : VcpuEvents} {es : List (U32 × U32)}

/-- The handlers of an exit queue the exceptions `es` and make requests. -/
inductive Handling (s : VcpuEvents) : List (U32 × U32) → VcpuEvents → Prop where
  | nil : Handling s [] s
  | request {es : List (U32 × U32)} {s₁ : VcpuEvents} (r : Request) : Handling s es s₁ →
      r ≠ .excp → r ≠ .trpFault → Handling s es (s₁.makeRequest r)
  | queue {es : List (U32 × U32)} {s₁ s₂ : VcpuEvents} (e : U32 × U32) : Handling s es s₁ →
      IsException e → vcpuQueueException s₁ e.1 e.2 = some s₂ → Handling s (es ++ [e]) s₂

theorem VcpuEvents.makeRequest_pending {r : Request} (h : r ≠ .trpFault) :
    (s.makeRequest r).pending = s.pending := by
  rw [pending, pending, makeRequest_of_ne h.symm]
  rfl

/-- The exceptions combine, and the event kept aside stays as it is. -/
theorem Handling.spec (h : s.Consistent) (hrun : Handling s es s₁) :
    s₁.Consistent ∧ s₁.pending = es.foldl Pending.combine s.pending ∧
      s₁.idtVectoringInfo = s.idtVectoringInfo := by
  induction hrun with
  | nil => exact ⟨h, rfl, rfl⟩
  | request r _ hr htrp ih =>
    obtain ⟨h₁, hpending, hidt⟩ := ih
    refine ⟨h₁.congr rfl rfl (VcpuEvents.makeRequest_of_ne hr.symm), ?_, hidt⟩
    rw [VcpuEvents.makeRequest_pending htrp, hpending]
  | queue e _ he hq ih =>
    obtain ⟨h₁, hpending, hidt⟩ := ih
    obtain ⟨s', hq', h', hpending', hidt', -⟩ := vcpuQueueException_spec h₁ he.1 he.2
    rw [hq] at hq'
    obtain rfl := Option.some.inj hq'
    refine ⟨h', ?_, hidt'.trans hidt⟩
    rw [hpending', hpending, List.foldl_append]
    rfl

/-- **Interrupted events are kept.** An exception is combined with the pending one
and with those that are queued on top of it. Any other event is kept aside as it is
until the next VM entry, which injects it if no exception and no NMI is pending and
keeps it otherwise. -/
theorem interrupted_event_kept (h : Reach eventSystem ResetsIdle s) {info errCode : U32}
    (hvalid : info &&& vmxIntInfoValid ≠ 0#32)
    (hexit : eventSystem.step s (.exit info errCode) s₁) (hrun : Handling s₁ es s₂) :
    ∃ ok s₃, acrnHandlePendingRequest s₂ = some (ok, s₃) ∧ s₂.Enters ok s₃ ∧
      if IsHwException info then
        s₂.pending = es.foldl Pending.combine
          (s.pending.combine (vectoredException info errCode))
      else
        s₂.idtVectoringInfo = info ∧
        if s₂.pending = .none ∧ s₂.pendingReq .nmi = false then
          s₃.entryIntInfo = info ∧ s₃.idtVectoringInfo = 0#32
        else s₃.idtVectoringInfo = info := by
  have hexited : (hardwareExit s).Consistent := (VcpuEvents.reach_consistent h).congr rfl rfl rfl
  obtain ⟨hexc, he⟩ := hexit
  obtain ⟨s₁', he', h₁, hcase⟩ := vmexitHandler_spec hexited hexc
  rw [he] at he'
  obtain rfl := Option.some.inj he'
  obtain ⟨h₂, hpending, hidt⟩ := hrun.spec h₁
  obtain ⟨ok, s₃, hs₃, -, henters, hkept⟩ := acrnHandlePendingRequest_spec h₂
  refine ⟨ok, s₃, hs₃, henters, ?_⟩
  by_cases hhw : IsHwException info
  · rw [if_pos hhw] at hcase ⊢
    rw [hpending, hcase.1]
    rfl
  · rw [if_neg hhw] at hcase ⊢
    have hinfo : s₂.idtVectoringInfo = info := hidt.trans hcase.2
    refine ⟨hinfo, ?_⟩
    rw [VcpuEvents.keptInfo, hinfo] at hkept
    by_cases hfree : s₂.pending = .none ∧ s₂.pendingReq .nmi = false
    · rw [if_pos hfree]
      rw [if_pos ⟨hfree.1, hfree.2, hvalid⟩] at hkept
      rw [VcpuEvents.Enters, hfree.1] at henters
      refine ⟨?_, hkept⟩
      rw [henters.2.1, VcpuEvents.otherInfo, hfree.2, if_neg Bool.false_ne_true, hinfo,
        if_pos hvalid]
    · rw [if_neg hfree]
      rwa [if_neg fun h' => hfree ⟨h'.1, h'.2.1⟩] at hkept

/-- An external interrupt of vector `0x31` whose delivery was interrupted is injected, or it
waits for an NMI that is requested meanwhile. -/
theorem interrupted_event_kept_extint :
    let s : VcpuEvents := { VcpuEvents.created with idtVectoringInfo := 0x80000031#32 }
    (∃ ok s₃, acrnHandlePendingRequest s = some (ok, s₃) ∧ s₃.entryIntInfo = 0x80000031#32 ∧
      s₃.idtVectoringInfo = 0#32) ∧
    ∃ ok s₃, acrnHandlePendingRequest (s.makeRequest .nmi) = some (ok, s₃) ∧
      s₃.entryIntInfo = 0x80000202#32 ∧ s₃.idtVectoringInfo = 0x80000031#32 := by
  intro s
  have hexit : eventSystem.step VcpuEvents.created (.exit 0x80000031#32 0#32) s :=
    ⟨fun h => absurd h (by decide), rfl⟩
  have hnmi : Handling s [] (s.makeRequest .nmi) := .request .nmi .nil (by decide) (by decide)
  constructor
  · obtain ⟨ok, s₃, hs₃, -, hcase⟩ := interrupted_event_kept (.init rfl) (by decide) hexit .nil
    rw [if_neg (by decide), if_pos (by decide)] at hcase
    exact ⟨ok, s₃, hs₃, hcase.2⟩
  · obtain ⟨ok, s₃, hs₃, henters, hcase⟩ :=
      interrupted_event_kept (.init rfl) (by decide) hexit hnmi
    rw [if_neg (by decide), if_neg (by decide)] at hcase
    exact ⟨ok, s₃, hs₃, henters.2.1, hcase.2⟩

/-- The delivery of a `#GP` is interrupted by an access that the hypervisor answers
with a `#PF`: the `#PF` takes its place. -/
theorem interrupted_gp_replaced :
    ∃ s₁ s₂ s₃, Reach eventSystem any s₁ ∧
      eventSystem.step VcpuEvents.created (.exit 0x80000B0D#32 0#32) s₁ ∧
      Handling s₁ [(14#32, 0#32)] s₂ ∧ acrnHandlePendingRequest s₂ = some (true, s₃) ∧
      s₃.entryIntInfo &&& 0xff#32 = 14#32 ∧ s₃.pending = .none ∧ s₃.idtVectoringInfo = 0#32 := by
  have hexit : eventSystem.step VcpuEvents.created (.exit 0x80000B0D#32 0#32)
      (VcpuEvents.created.withException 13#32 0#32) := ⟨fun _ => by decide, rfl⟩
  have hcreate : Reach eventSystem any VcpuEvents.created := .init rfl
  exact ⟨_, _, _, hcreate.step trivial hexit, hexit, Handling.nil.queue (14#32, 0#32) (by decide) rfl,
    rfl, by decide, by decide, by decide⟩

end Acrn
