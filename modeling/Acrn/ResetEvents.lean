import Acrn.ExceptionMerge
import Acrn.IcrAccess

/-!
# Events across a reset

The events of a vCPU over its whole life: VM entries and exits, exceptions that are queued
while an exit is handled, the rescheduling point before the next entry, where another vCPU
may pause and reset it, and start-up. `reset_vcpu` sets the exception to `VECTOR_INVALID` and
leaves `pending_req` and `idt_vectoring_info` alone.
-/

namespace Acrn

open Transition

/-- Where a vCPU is. -/
inductive EventPhase where
  /-- switched out, with its thread blocked -/
  | waiting
  /-- at its rescheduling point, before `acrn_handle_pending_request` -/
  | loop
  | guest
  /-- in the handler of a VM exit -/
  | exited
  deriving DecidableEq

/-- A vCPU, with what has been requested since its last INIT, up to the VM entry after it. -/
structure ResetState where
  events : VcpuEvents
  phase : EventPhase
  state : VcpuState
  /-- the thread may run -/
  awake : Bool
  /-- there was no VM entry since the last INIT -/
  fresh : Bool
  since : Request → Bool

/-- What happens to a vCPU. -/
inductive ResetStep where
  /-- `vcpu_make_request`, or an NMI of the physical processor -/
  | request (r : Request)
  | queueException (vector errCode : U32)
  /-- INIT_VMCS is requested and the vCPU launched, for a start-up request or in `start_vm` -/
  | startup
  /-- `acrn_handle_pending_request` and the VM entry -/
  | enter
  | exit (idtVecInfo idtVecErrorCode : U32)
  /-- the handler ends, and the next rescheduling point is reached -/
  | handled
  | pause
  /-- INIT: `pause_vcpu` and then `reset_vcpu` -/
  | init
  deriving DecidableEq

/-- The request that `vcpu_queue_exception` makes. -/
def queueRequest (s : VcpuEvents) (vector : U32) : Request :=
  if s.exception = 8#32 ∧ getExcepClass vector ≠ .benign then .trpFault else .excp

namespace ResetState

variable (s : ResetState)

/-- One step, where it can happen. Exceptions and triple faults are requested only by
`vcpu_queue_exception`, and the processor reports exceptions with their vectors. -/
def step : ResetStep → Option ResetState
  | .request r =>
    if r ≠ .excp ∧ r ≠ .trpFault then
      some { s with events := s.events.makeRequest r, since := Function.update s.since r true }
    else none
  | .queueException vector errCode =>
    if s.phase = .exited ∧ IsException (vector, errCode) then
      (vcpuQueueException s.events vector errCode).map fun events =>
        { s with events, since := Function.update s.since (queueRequest s.events vector) true }
    else none
  | .startup =>
    if s.state = .init ∧ s.awake = false ∧ (s.phase = .waiting ∨ s.phase = .exited) then
      some { s with
        events := s.events.makeRequest .initVmcs
        since := Function.update s.since .initVmcs true
        state := .running
        awake := true
        phase := if s.phase = .waiting then .loop else .exited }
    else none
  | .enter =>
    if s.phase = .loop ∧ s.awake = true then
      (acrnHandlePendingRequest s.events).map fun r => { s with
        events := r.2
        phase := if r.1 then .guest else .exited
        fresh := s.fresh && !r.1 }
    else none
  | .exit info errCode =>
    if s.phase = .guest ∧ (IsHwException info → IsException (vectoredException info errCode)) then
      (vmexitHandler (hardwareExit s.events) info errCode).map fun events =>
        { s with events, phase := .exited }
    else none
  | .handled =>
    if s.phase = .exited then
      some { s with phase := if s.awake then .loop else .waiting }
    else none
  | .pause =>
    if s.phase ≠ .guest then
      some { s with
        state := .zombie
        awake := false
        phase := if s.phase = .loop then .waiting else s.phase }
    else none
  | .init =>
    if s.phase ≠ .guest then
      some { s with
        events := s.events.reset
        state := .init
        awake := false
        fresh := true
        since := fun _ => false
        phase := if s.phase = .loop then .waiting else s.phase }
    else none

/-- After `create_vcpu`. -/
def created : ResetState where
  events := .created
  phase := .waiting
  state := .init
  awake := false
  fresh := true
  since := fun _ => false

end ResetState

/-- The life of a vCPU. -/
def resetSystem : System ResetState ResetStep :=
  .ofFun (· = .created) ResetState.step

/-- The requests of events that a VM entry delivers. -/
def VcpuEvents.Quiet (s : VcpuEvents) : Prop :=
  s.pendingReq .excp = false ∧ s.pendingReq .nmi = false ∧ s.pendingReq .trpFault = false ∧
    s.idtVectoringInfo &&& vmxIntInfoValid = 0#32

instance (s : VcpuEvents) : Decidable s.Quiet := inferInstanceAs (Decidable (_ ∧ _))

/-- INIT comes only to a vCPU that has no event to deliver. -/
def ResetsQuiet (s : ResetState) (a : ResetStep) : Prop := a = .init → s.events.Quiet

instance (s : ResetState) (a : ResetStep) : Decidable (ResetsQuiet s a) :=
  inferInstanceAs (Decidable (_ → _))

/-! ## The steps on the events

A vCPU waits, is at its rescheduling point, is in the guest or handles an exit. The invariant
speaks of each of these phases, and the steps lead from one to the next. -/

section
variable {e e' : VcpuEvents}

/-- What `vcpu_queue_exception` leaves. -/
theorem vcpuQueueException_frame {vector errCode : U32}
    (h : vcpuQueueException e vector errCode = some e') :
    e'.pendingReq = (e.makeRequest (queueRequest e vector)).pendingReq ∧
      e'.idtVectoringInfo = e.idtVectoringInfo ∧ e'.entryIntInfo = e.entryIntInfo := by
  rw [vcpuQueueException] at h
  dsimp only at h
  rw [queueRequest]
  split at h
  · next htriple =>
    obtain rfl := Option.some.inj h
    rw [if_pos htriple]
    exact ⟨rfl, rfl, rfl⟩
  · next htriple =>
    rw [if_neg htriple]
    obtain ⟨type, -, rfl⟩ := Option.map_eq_some_iff.mp h
    exact ⟨rfl, rfl, rfl⟩

/-- A vCPU that is reset with no exception pending has none. -/
theorem VcpuEvents.reset_consistent (e : VcpuEvents) (hexcp : e.pendingReq .excp = false) :
    e.reset.Consistent := by
  have hreq : e.reset.pendingReq .excp = false := by
    show (e.makeRequest .lapicReset).pendingReq .excp = _
    rw [makeRequest_of_ne (by decide), hexcp]
  have hge : ¬ e.reset.exception.toNat < 32 := show ¬ vectorInvalid.toNat < 32 by decide
  refine ⟨?_, .inr rfl, fun h8 => absurd h8 (show vectorInvalid ≠ 8#32 by decide)⟩
  rw [hreq]
  exact ⟨fun hf => (by cases hf), fun hlt => absurd hlt hge⟩

/-- A VM entry that is called off has cleared the requests of INIT_VMCS and of the triple
fault. -/
theorem acrnHandlePendingRequest_off (h : acrnHandlePendingRequest e = some (false, e')) :
    e.pendingReq .trpFault = true ∧ e'.idtVectoringInfo = e.idtVectoringInfo ∧
      (∀ r, e'.pendingReq r = true → e.pendingReq r = true) ∧
      e'.entryIntInfo = if e.pendingReq .initVmcs then 0#32 else e.entryIntInfo := by
  have hclear : ∀ (x : VcpuEvents) (r r' : Request),
      (x.clearRequest r').pendingReq r = true → x.pendingReq r = true := by
    intro x r r' hreq
    by_cases hr : r = r'
    · rw [hr, VcpuEvents.clearRequest_self] at hreq
      cases hreq
    · rwa [VcpuEvents.clearRequest_of_ne hr] at hreq
  cases htrp : e.pendingReq .trpFault with
  | false =>
    -- without a triple fault the entry goes on
    rw [acrnHandlePendingRequest_eq e htrp] at h
    obtain ⟨⟨injected, x⟩, -, hx⟩ := Option.map_eq_some_iff.mp h
    dsimp only at hx
    split at hx
    · cases hx
    split at hx
    · cases hx
    split at hx
    · cases hx
    · cases hx
  | true =>
    refine ⟨rfl, ?_⟩
    rw [acrnHandlePendingRequest] at h
    cases hinit : e.pendingReq .initVmcs with
    | true =>
      have htrp' : (initEntryEvents (e.clearRequest .initVmcs)).pendingReq .trpFault = true := by
        show (e.clearRequest .initVmcs).pendingReq .trpFault = true
        rw [VcpuEvents.clearRequest_of_ne (by decide)]
        exact htrp
      simp only [hinit, htrp', if_true] at h
      obtain ⟨-, rfl⟩ := Prod.mk.inj (Option.some.inj h)
      exact ⟨rfl, fun r hreq => hclear e r _ (hclear _ r _ hreq), rfl⟩
    | false =>
      simp only [hinit, Bool.false_eq_true, if_false, htrp, if_true] at h
      obtain ⟨-, rfl⟩ := Prod.mk.inj (Option.some.inj h)
      exact ⟨rfl, fun r hreq => hclear e r _ hreq, rfl⟩

end

namespace ResetState

variable {s s' : ResetState}

/-- What holds in every state. Before the first VM entry after an INIT everything that is to
be delivered was requested after it. -/
structure Invariant (s : ResetState) : Prop where
  consistent : s.events.Consistent
  guest : s.fresh = true → s.phase ≠ .guest
  since : s.fresh = true → ∀ r, r = .excp ∨ r = .nmi ∨ r = .trpFault →
    s.events.pendingReq r = true → s.since r = true
  idt : s.fresh = true → s.events.idtVectoringInfo &&& vmxIntInfoValid = 0#32
  entryInfo : s.fresh = true → s.awake = true → s.events.pendingReq .initVmcs = true ∨
    s.events.entryIntInfo &&& vmxIntInfoValid = 0#32

theorem Invariant.created : ResetState.created.Invariant :=
  ⟨VcpuEvents.created_consistent, fun _ => by decide, fun _ _ _ h => (by cases h), fun _ => rfl,
    fun _ h => (by cases h)⟩

/-- More requests. -/
theorem Invariant.makeRequest (h : s.Invariant) {r : Request} {events : VcpuEvents}
    (hevents : events.Consistent)
    (hpend : events.pendingReq = (s.events.makeRequest r).pendingReq)
    (hidt : events.idtVectoringInfo = s.events.idtVectoringInfo)
    (hentry : events.entryIntInfo = s.events.entryIntInfo) :
    Invariant { s with events, since := Function.update s.since r true } := by
  refine ⟨hevents, h.guest, fun hfresh r' hr' hreq => ?_, fun hfresh => ?_, fun hfresh hawake => ?_⟩
  · dsimp only at hreq ⊢
    by_cases hrr : r' = r
    · rw [hrr, Function.update_self]
    · rw [hpend, VcpuEvents.makeRequest_of_ne hrr] at hreq
      rw [Function.update_of_ne hrr]
      exact h.since hfresh r' hr' hreq
  · rw [hidt]
    exact h.idt hfresh
  · rw [hpend, hentry]
    refine (h.entryInfo hfresh hawake).imp (fun hinit => ?_) id
    by_cases hr : Request.initVmcs = r
    · rw [hr]
      exact VcpuEvents.makeRequest_self
    · rw [VcpuEvents.makeRequest_of_ne hr]
      exact hinit

theorem Invariant.step {a : ResetStep} (h : s.Invariant) (hok : ResetsQuiet s a)
    (hstep : s.step a = some s') : s'.Invariant := by
  cases a with
  | request r =>
    obtain ⟨⟨hexcp, -⟩, rfl⟩ := of_guard hstep
    exact h.makeRequest (h.consistent.congr rfl rfl (VcpuEvents.makeRequest_of_ne hexcp.symm)) rfl rfl
      rfl
  | queueException vector errCode =>
    obtain ⟨⟨-, hv, hdf⟩, hmap⟩ := Option.ite_none_right_eq_some.mp hstep
    obtain ⟨events, hqueue, rfl⟩ := Option.map_eq_some_iff.mp hmap
    obtain ⟨hpend, hidt, hentry⟩ := vcpuQueueException_frame hqueue
    obtain ⟨events', hqueue', hconsistent, -⟩ := vcpuQueueException_spec h.consistent hv hdf
    obtain rfl := Option.some.inj (hqueue'.symm.trans hqueue)
    exact h.makeRequest hconsistent hpend hidt hentry
  | startup =>
    obtain ⟨⟨-, -, hphase⟩, rfl⟩ := of_guard hstep
    have hrequest : Invariant { s with
        events := s.events.makeRequest .initVmcs
        since := Function.update s.since .initVmcs true } :=
      h.makeRequest (h.consistent.congr rfl rfl (VcpuEvents.makeRequest_of_ne (by decide))) rfl rfl rfl
    refine ⟨hrequest.consistent, fun _ => ?_, hrequest.since, hrequest.idt,
      fun _ _ => .inl VcpuEvents.makeRequest_self⟩
    dsimp only
    split
    · decide
    · decide
  | enter =>
    obtain ⟨-, hmap⟩ := Option.ite_none_right_eq_some.mp hstep
    obtain ⟨⟨ok, events⟩, henter, rfl⟩ := Option.map_eq_some_iff.mp hmap
    obtain ⟨ok', events', henter', hconsistent, -, -⟩ := acrnHandlePendingRequest_spec h.consistent
    obtain ⟨rfl, rfl⟩ := Prod.mk.inj (Option.some.inj (henter'.symm.trans henter))
    cases ok' with
    | true =>
      have hstale : (s.fresh && !true) = true → False := by
        rw [Bool.not_true, Bool.and_false]
        exact Bool.false_ne_true
      exact ⟨hconsistent, fun hf => (hstale hf).elim, fun hf => (hstale hf).elim,
        fun hf => (hstale hf).elim, fun hf => (hstale hf).elim⟩
    | false =>
      have hfresh : (s.fresh && !false) = true → s.fresh = true := by
        rw [Bool.not_false, Bool.and_true]
        exact id
      obtain ⟨-, hidt, hpend, hentry⟩ := acrnHandlePendingRequest_off henter
      refine ⟨hconsistent, fun _ hguest => (by cases hguest),
        fun hf r hr hreq => h.since (hfresh hf) r hr (hpend r hreq), fun hf => ?_,
        fun hf ha => .inr ?_⟩
      · dsimp only
        rw [hidt]
        exact h.idt (hfresh hf)
      · dsimp only
        rw [hentry]
        split
        · rfl
        · next hinit => exact (h.entryInfo (hfresh hf) ha).resolve_left hinit
  | exit info errCode =>
    obtain ⟨⟨hguest, hv⟩, hmap⟩ := Option.ite_none_right_eq_some.mp hstep
    obtain ⟨events, hexit, rfl⟩ := Option.map_eq_some_iff.mp hmap
    have hh : (hardwareExit s.events).Consistent := h.consistent.congr rfl rfl rfl
    obtain ⟨events', hexit', hconsistent, -⟩ := vmexitHandler_spec hh hv
    obtain rfl := Option.some.inj (hexit'.symm.trans hexit)
    have hstale : s.fresh ≠ true := fun hf => h.guest hf hguest
    exact ⟨hconsistent, fun hf => absurd hf hstale, fun hf => absurd hf hstale,
      fun hf => absurd hf hstale, fun hf => absurd hf hstale⟩
  | handled =>
    obtain ⟨-, rfl⟩ := of_guard hstep
    refine ⟨h.consistent, fun _ => ?_, h.since, h.idt, h.entryInfo⟩
    dsimp only
    split
    · decide
    · decide
  | pause =>
    obtain ⟨hguest, rfl⟩ := of_guard hstep
    refine ⟨h.consistent, fun _ => ?_, h.since, h.idt, fun _ ha => (by cases ha)⟩
    dsimp only
    split
    · decide
    · exact hguest
  | init =>
    obtain ⟨hguest, rfl⟩ := of_guard hstep
    obtain ⟨hexcp, hnmi, htrp, hidt⟩ := hok rfl
    refine ⟨s.events.reset_consistent hexcp, fun _ => ?_, fun _ r hr hreq => ?_, fun _ => hidt,
      fun _ ha => (by cases ha)⟩
    · dsimp only
      split
      · decide
      · exact hguest
    · -- nothing was requested before
      have hold : s.events.pendingReq r = true := by
        have hne : r ≠ .lapicReset := by
          obtain rfl | rfl | rfl := hr
          · decide
          · decide
          · decide
        have hreset : (s.events.makeRequest .lapicReset).pendingReq r = true := hreq
        rwa [VcpuEvents.makeRequest_of_ne hne] at hreset
      obtain rfl | rfl | rfl := hr
      · exact absurd (hexcp.symm.trans hold) Bool.false_ne_true
      · exact absurd (hnmi.symm.trans hold) Bool.false_ne_true
      · exact absurd (htrp.symm.trans hold) Bool.false_ne_true

end ResetState

/-! ## Every run

What an entry delivers is decided by what was pending before it. By the invariant that has been
requested since the last INIT, if no INIT found anything pending. -/

/-- A VM entry delivers nothing but what was requested since the last INIT, and is called off
only for a triple fault since then. -/
def ResetState.DeliversNew (s : ResetState) (ok : Bool) (e : VcpuEvents) : Prop :=
  if ok then e.entryIntInfo &&& vmxIntInfoValid = 0#32 ∨
    s.since .excp = true ∧ e.entryIntInfo = entryInfo s.events.exception ∨
    s.since .nmi = true ∧ e.entryIntInfo = nmiInfo
  else s.since .trpFault = true

/-- The first VM entry after an INIT. -/
theorem ResetState.Invariant.delivers {s : ResetState} (h : s.Invariant) (hawake : s.awake = true)
    (hfresh : s.fresh = true) {ok : Bool} {e : VcpuEvents} (henters : s.events.Enters ok e) :
    s.DeliversNew ok e := by
  rw [VcpuEvents.Enters, VcpuEvents.pending] at henters
  cases htrp : s.events.pendingReq .trpFault with
  | true =>
    rw [htrp, if_pos rfl] at henters
    obtain rfl : ok = false := henters
    exact h.since hfresh .trpFault (.inr (.inr rfl)) htrp
  | false =>
    rw [htrp, if_neg Bool.false_ne_true] at henters
    by_cases hlt : s.events.exception.toNat < 32
    · rw [if_pos hlt] at henters
      obtain ⟨rfl, hinfo, -⟩ := henters
      have hexcp := h.since hfresh .excp (.inl rfl) (h.consistent.request.mpr hlt)
      exact .inr (.inl ⟨hexcp, hinfo⟩)
    · rw [if_neg hlt] at henters
      obtain ⟨rfl, hinfo, -⟩ := henters
      rw [VcpuEvents.otherInfo] at hinfo
      split at hinfo
      · next hnmi => exact .inr (.inr ⟨h.since hfresh .nmi (.inr (.inl rfl)) hnmi, hinfo⟩)
      split at hinfo
      · next hidt => exact absurd (h.idt hfresh) hidt
      split at hinfo
      · refine .inl ?_
        rw [hinfo]
        rfl
      · next hinit =>
        refine .inl ?_
        rw [hinfo]
        exact (h.entryInfo hfresh hawake).resolve_left hinit

/-- **No stale event crosses a reset**, in every run in which INIT comes only to a vCPU that
has no event to deliver. An exception that is requested has a vector, so that its type can be
looked up, and the first VM entry after an INIT delivers only what was requested since. -/
theorem no_stale_event {s : ResetState} (h : Reach resetSystem ResetsQuiet s) :
    (s.events.pendingReq .excp = true → s.events.exception.toNat < 32) ∧
    ∃ ok e, acrnHandlePendingRequest s.events = some (ok, e) ∧
      (s.phase = .loop → s.awake = true → s.fresh = true → s.DeliversNew ok e) := by
  have hinv : s.Invariant := by
    refine h.invariant ?_ fun s a s' hok hstep hs => hs.step hok hstep
    rintro s rfl
    exact .created
  obtain ⟨ok, e, he, -, henters, -⟩ := acrnHandlePendingRequest_spec hinv.consistent
  exact ⟨hinv.consistent.request.mp, ok, e, he, fun _ hawake hfresh =>
    hinv.delivers hawake hfresh henters⟩

/-- A vCPU runs, is reset and started again. -/
theorem no_stale_event_restart : ∃ s, Reach resetSystem ResetsQuiet s ∧ s.phase = .loop ∧
    s.fresh = true ∧ s.since .nmi = false ∧
    ∃ ok e, acrnHandlePendingRequest s.events = some (ok, e) ∧ s.DeliversNew ok e := by
  have hstart : Reach resetSystem ResetsQuiet .created := .init rfl
  have hreach := hstart.foldlM [.startup, .enter, .exit 0#32 0#32, .handled, .init, .startup] rfl
  obtain ⟨ok, e, he, hdelivers⟩ := (no_stale_event hreach).2
  exact ⟨_, hreach, rfl, rfl, rfl, ok, e, he, hdelivers rfl rfl rfl⟩

/-- A reset leaves the request of an exception without its vector, and an NMI that was
requested before it is injected after it. -/
theorem stale_event_after_reset :
    (∃ s, Reach resetSystem any s ∧ s.events.pendingReq .excp = true ∧
      s.events.exception = vectorInvalid) ∧
    ∃ s, Reach resetSystem any s ∧ s.phase = .loop ∧ s.fresh = true ∧ s.since .nmi = false ∧
      ∃ e, acrnHandlePendingRequest s.events = some (true, e) ∧ e.entryIntInfo = nmiInfo := by
  have hstart : Reach resetSystem any .created := .init rfl
  constructor
  · have hreach := hstart.foldlM [.startup, .enter, .exit 0#32 0#32, .queueException 6#32 0#32,
      .handled, .init] rfl
    exact ⟨_, hreach, rfl, rfl⟩
  · have hreach := hstart.foldlM [.startup, .enter, .exit 0#32 0#32, .request .nmi, .handled, .init,
      .startup] rfl
    exact ⟨_, hreach, rfl, rfl, rfl, _, rfl, rfl⟩

end Acrn
