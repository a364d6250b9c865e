import Acrn.Vcpu
import Acrn.Vectoring

/-!
# The events handed to VM entry

A VM entry checks the event in the entry interruption-information field against the
state of the guest, and fails where they do not fit. Three places write the field:
`vcpu_inject_exception` for a queued exception, and `acrn_handle_pending_request`
for an NMI and for the event that the last exit interrupted, which goes back the way
the IDT-vectoring field reported it.
-/

namespace Acrn

open Transition

/-! ## What a VM entry checks -/

/-- `RFLAGS.IF`. -/
def rflagsIf : BitVec 64 := 0x200#64

/-- The type of an event. -/
def intType (info : U32) : U32 := (info &&& vmxIntTypeMask) >>> 8

/-- The vector of an event. -/
def intVector (info : U32) : U32 := info &&& 0xff#32

/-- The types of an external interrupt and of the events that an instruction causes:
a software interrupt, `INT1` and a software exception. -/
def intTypeExternal : U32 := 0#32
def intTypesSoftware : List U32 := [4#32, 5#32, 6#32]

/-- Bits 30:12, which are reserved at an entry. Bit 12 is undefined in what an exit
reports. -/
def entryInfoReserved : U32 := 0x7FFFF000#32
def vectoringReserved : U32 := 0x7FFFE000#32
def vectoringUndefined : U32 := 0x1000#32

/-- An event as the entry finds it, with the fields of the VMCS it is checked
against. -/
structure InjectedEvent where
  info : U32
  /-- `VMX_ENTRY_INSTR_LENGTH` -/
  entryInstrLength : U32
  /-- the length of the instruction that the last exit interrupted -/
  interruptedLength : U32
  mode : CpuMode
  rflags : BitVec 64
  blockingBySti : Bool
  blockingByMovSs : Bool

/-- **The checks of a VM entry** on a valid event. -/
structure InjectedEvent.WellFormed (e : InjectedEvent) : Prop where
  exception : intType e.info = vmxIntTypeHwExp → (intVector e.info).toNat ≤ 31
  nmi : intType e.info = vmxIntTypeNmi → intVector e.info = 2#32
  errorCode : e.info &&& vmxIntInfoErrCodeValid ≠ 0#32 →
    intType e.info = vmxIntTypeHwExp ∧ HasErrorCode (intVector e.info) ∧ e.mode ≠ .real
  reserved : e.info &&& entryInfoReserved = 0#32
  software : intType e.info ∈ intTypesSoftware → e.entryInstrLength = e.interruptedLength ∧
    1 ≤ e.entryInstrLength.toNat ∧ e.entryInstrLength.toNat ≤ 15
  nmiAllowed : intType e.info = vmxIntTypeNmi → e.blockingByMovSs = false
  externalAllowed : intType e.info = intTypeExternal → e.rflags &&& rflagsIf ≠ 0#64 ∧
    e.blockingBySti = false ∧ e.blockingByMovSs = false

/-! ## Runs -/

/-- A vCPU as far as its events go: `handed` lists what the entries so far found. -/
structure EntryState where
  events : VcpuEvents
  mode : CpuMode
  blockingBySti : Bool
  blockingByMovSs : Bool
  entryInstrLength : U32
  interruptedLength : U32
  handed : List InjectedEvent

/-- What a VM exit leaves in the VMCS. -/
structure VmExitInfo where
  mode : CpuMode
  rflags : BitVec 64
  blockingBySti : Bool
  blockingByMovSs : Bool
  instrLength : U32
  idtVecInfo : U32
  idtVecErrorCode : U32

/-- The form that an event has in the IDT-vectoring field. -/
structure Vectored (info : U32) : Prop where
  type : intType info ≠ 1#32 ∧ intType info ≠ 7#32
  nmi : intType info = vmxIntTypeNmi → intVector info = 2#32
  errorCode : info &&& vmxIntInfoErrCodeValid ≠ 0#32 → intType info = vmxIntTypeHwExp
  reserved : info &&& vectoringReserved = 0#32

/-- What the processor documents of an exit. -/
structure VmExitInfo.Documented (x : VmExitInfo) : Prop where
  vectored : x.idtVecInfo &&& vmxIntInfoValid ≠ 0#32 → Vectored x.idtVecInfo
  exception : IsHwException x.idtVecInfo →
    IsException (vectoredException x.idtVecInfo x.idtVecErrorCode)

namespace EntryState

/-- What `init_vmcs` does to the fields of the VMCS besides those of `VcpuEvents`. -/
def initVmcs (s : EntryState) : EntryState :=
  if s.events.pendingReq .initVmcs then
    { s with blockingBySti := false, blockingByMovSs := false, entryInstrLength := 0#32 }
  else s

/-- The event that the entry finds after `acrn_handle_pending_request`. -/
def written (s : EntryState) (events : VcpuEvents) : InjectedEvent where
  info := events.entryIntInfo
  entryInstrLength := s.initVmcs.entryInstrLength
  interruptedLength := s.initVmcs.interruptedLength
  mode := s.initVmcs.mode
  rflags := events.rflags
  blockingBySti := s.initVmcs.blockingBySti
  blockingByMovSs := s.initVmcs.blockingByMovSs

/-- One turn of `vcpu_thread`: the requests are handled, the guest runs until the exit
`x`, and `vmexit_handler` takes note of the event it interrupted. With a triple fault
there is no entry. -/
def turn (s : EntryState) (x : VmExitInfo) : Option EntryState := do
  let (ok, events) ← acrnHandlePendingRequest s.events
  if ok then
    let handed := if events.entryIntInfo &&& vmxIntInfoValid ≠ 0#32 then
      s.handed ++ [s.written events] else s.handed
    let exited := { hardwareExit events with rflags := x.rflags, instLen := x.instrLength }
    let events ← vmexitHandler exited x.idtVecInfo x.idtVecErrorCode
    some {
      events
      mode := x.mode
      blockingBySti := x.blockingBySti
      blockingByMovSs := x.blockingByMovSs
      entryInstrLength := s.initVmcs.entryInstrLength
      interruptedLength := x.instrLength
      handed }
  else some { s.initVmcs with events }

end EntryState

/-- What can happen to a vCPU from its launch on. -/
inductive InjectionAction where
  | request (r : Request)
  | queue (vector errCode : U32)
  /-- a handler changes the mode of the guest -/
  | emulate (mode : CpuMode)
  | turn (x : VmExitInfo)

/-- A vCPU from its launch on, which requests `init_vmcs`. -/
def injectionSystem : System EntryState InjectionAction where
  init s := s.events = VcpuEvents.created.makeRequest .initVmcs ∧ s.handed = []
  step s a s' :=
    match a with
    | .request r => (r ≠ .excp ∧ r ≠ .trpFault ∧ r ≠ .initVmcs) ∧
        s' = { s with events := s.events.makeRequest r }
    | .queue vector errCode => IsException (vector, errCode) ∧
        ∃ events, vcpuQueueException s.events vector errCode = some events ∧
          s' = { s with events }
    | .emulate mode => s' = { s with mode }
    | .turn x => x.Documented ∧ s.turn x = some s'

/-! ## Which events fit

`Admissible` is a condition on the state before the entry: which event is next, and whether the
guest can take it. It has a case for each of the three sources of the word. -/

namespace EntryState

/-- An event that was interrupted can go back as it is. -/
structure Redeliverable (s : EntryState) (info : U32) : Prop where
  bit12 : info &&& vectoringUndefined = 0#32
  hardware : intType info ∉ intTypesSoftware
  nmi : intType info = vmxIntTypeNmi → s.blockingByMovSs = false
  external : intType info = intTypeExternal → s.events.rflags &&& rflagsIf ≠ 0#64 ∧
    s.blockingBySti = false ∧ s.blockingByMovSs = false

/-- **The condition** under which the event that is next fits the guest. -/
def Admissible (s : EntryState) : Prop :=
  match s.events.pending with
  | .shutdown => True
  | .exc vector _ => HasErrorCode vector → s.mode ≠ .real
  | .none =>
    if s.events.pendingReq .nmi then s.initVmcs.blockingByMovSs = false
    else s.events.idtVectoringInfo &&& vmxIntInfoValid ≠ 0#32 →
      s.initVmcs.Redeliverable s.events.idtVectoringInfo

/-- The condition is met before every entry. -/
def AdmissibleTurn (s : EntryState) : InjectionAction → Prop
  | .turn _ => s.Admissible
  | _ => True

/-- What holds whenever a turn begins: no event is left in the entry field, the event
that is kept is not an exception, and the instruction length is the one that
`init_vmcs` writes. -/
structure Ready (s : EntryState) : Prop where
  consistent : s.events.Consistent
  taken : s.events.entryIntInfo &&& vmxIntInfoValid = 0#32
  kept : s.events.idtVectoringInfo &&& vmxIntInfoValid ≠ 0#32 →
    Vectored s.events.idtVectoringInfo ∧ intType s.events.idtVectoringInfo ≠ vmxIntTypeHwExp
  length : s.initVmcs.entryInstrLength = 0#32

end EntryState

/-! ## The word of each source -/

/-- The word of an exception, by the table of the types. -/
theorem entryInfo_fields {vector : U32} (hv : vector.toNat < 32) :
    intType (entryInfo vector) = vmxIntTypeHwExp ∧ intVector (entryInfo vector) = vector ∧
      (entryInfo vector &&& vmxIntInfoErrCodeValid ≠ 0#32 ↔ HasErrorCode vector) ∧
      entryInfo vector &&& entryInfoReserved = 0#32 ∧
      entryInfo vector &&& vmxIntInfoValid ≠ 0#32 :=
  forall_vector (P := fun vector => intType (entryInfo vector) = vmxIntTypeHwExp ∧
      intVector (entryInfo vector) = vector ∧
      (entryInfo vector &&& vmxIntInfoErrCodeValid ≠ 0#32 ↔ HasErrorCode vector) ∧
      entryInfo vector &&& entryInfoReserved = 0#32 ∧
      entryInfo vector &&& vmxIntInfoValid ≠ 0#32) (by decide) hv

/-- What an exit reports is clear of the reserved bits but for bit 12. -/
theorem Vectored.reserved_iff {info : U32} (h : Vectored info) :
    info &&& entryInfoReserved = 0#32 ↔ info &&& vectoringUndefined = 0#32 := by
  have hsplit : entryInfoReserved = vectoringReserved ||| vectoringUndefined := by decide
  rw [hsplit, BitVec.and_or_distrib_left, h.reserved, BitVec.zero_or]

namespace InjectedEvent

variable {e : InjectedEvent}

/-- An exception fits unless its error code meets a guest in real mode. -/
theorem wellFormed_exception {vector : U32} (hv : vector.toNat < 32)
    (hinfo : e.info = entryInfo vector) :
    e.WellFormed ↔ (HasErrorCode vector → e.mode ≠ .real) := by
  obtain ⟨htype, hvector, herr, hreserved, -⟩ := entryInfo_fields hv
  rw [← hinfo] at htype hvector herr hreserved
  constructor
  · intro h hcode
    exact (h.errorCode (herr.mpr hcode)).2.2
  · intro h
    refine ⟨fun _ => ?_, fun hnmi => ?_, fun hcode => ?_, hreserved, fun hsoft => ?_, fun hnmi => ?_,
      fun hext => ?_⟩
    · rw [hvector]
      omega
    · rw [htype] at hnmi
      exact absurd hnmi (by decide)
    · rw [hvector]
      exact ⟨htype, herr.mp hcode, h (herr.mp hcode)⟩
    · rw [htype] at hsoft
      exact absurd hsoft (by decide)
    · rw [htype] at hnmi
      exact absurd hnmi (by decide)
    · rw [htype] at hext
      exact absurd hext (by decide)

/-- An NMI fits unless it is blocked by `MOV SS`. -/
theorem wellFormed_nmi (hinfo : e.info = nmiInfo) :
    e.WellFormed ↔ e.blockingByMovSs = false := by
  have htype : intType e.info = vmxIntTypeNmi := by
    rw [hinfo]
    decide
  constructor
  · intro h
    exact h.nmiAllowed htype
  · intro h
    refine ⟨fun hexc => ?_, fun _ => ?_, fun hcode => ?_, ?_, fun hsoft => ?_, fun _ => h,
      fun hext => ?_⟩
    · rw [htype] at hexc
      exact absurd hexc (by decide)
    · rw [hinfo]
      decide
    · rw [hinfo] at hcode
      exact absurd hcode (by decide)
    · rw [hinfo]
      decide
    · rw [htype] at hsoft
      exact absurd hsoft (by decide)
    · rw [htype] at hext
      exact absurd hext (by decide)

/-- An interrupted event that no instruction caused fits where its bit 12 is clear and
the guest is open to it. One that an instruction caused never does, for the entry has
no length for it. -/
theorem wellFormed_vectored (h : Vectored e.info) (hexc : intType e.info ≠ vmxIntTypeHwExp)
    (hlen : e.entryInstrLength = 0#32) :
    e.WellFormed ↔ e.info &&& vectoringUndefined = 0#32 ∧ intType e.info ∉ intTypesSoftware ∧
      (intType e.info = vmxIntTypeNmi → e.blockingByMovSs = false) ∧
      (intType e.info = intTypeExternal → e.rflags &&& rflagsIf ≠ 0#64 ∧
        e.blockingBySti = false ∧ e.blockingByMovSs = false) := by
  constructor
  · intro hw
    refine ⟨h.reserved_iff.mp hw.reserved, fun hsoft => ?_, hw.nmiAllowed, hw.externalAllowed⟩
    obtain ⟨-, hpos, -⟩ := hw.software hsoft
    rw [hlen] at hpos
    exact absurd hpos (by decide)
  · rintro ⟨hbit, hsoft, hnmi, hext⟩
    exact ⟨fun htype => absurd htype hexc, h.nmi, fun hcode => absurd (h.errorCode hcode) hexc,
      h.reserved_iff.mpr hbit, fun htype => absurd htype hsoft, hnmi, hext⟩

end InjectedEvent

/-! ## The fields that an entry leaves alone -/

section

variable {s s' : VcpuEvents}

/-- Where neither a triple fault nor an exception is pending, the flags of the guest stay. -/
theorem acrnHandlePendingRequest_rflags {ok : Bool} (hpending : s.pending = .none)
    (hreq : s.pendingReq .excp = false) (h : acrnHandlePendingRequest s = some (ok, s')) :
    s'.rflags = s.rflags := by
  have htrp : s.pendingReq .trpFault = false := by
    cases htrp : s.pendingReq .trpFault with
    | false => rfl
    | true =>
      rw [VcpuEvents.pending, if_pos htrp] at hpending
      cases hpending
  have hprepared : s.prepared.rflags = s.rflags := by
    rw [VcpuEvents.prepared]
    split <;> rfl
  rw [acrnHandlePendingRequest_eq s htrp, vcpuInjectException_none
    ((VcpuEvents.prepared_pendingReq (Or.inl rfl)).trans hreq), Option.map_some] at h
  dsimp only at h
  rw [if_neg Bool.false_ne_true] at h
  rw [← hprepared]
  split at h
  · cases h
    rfl
  split at h
  · cases h
    rfl
  · cases h
    rfl

/-- Only a triple fault calls an entry off. -/
theorem acrnHandlePendingRequest_false (h : acrnHandlePendingRequest s = some (false, s')) :
    s.pendingReq .trpFault = true := by
  cases htrp : s.pendingReq .trpFault with
  | true => rfl
  | false =>
    rw [acrnHandlePendingRequest_eq _ htrp] at h
    obtain ⟨r, -, hr⟩ := Option.map_eq_some_iff.mp h
    dsimp only at hr
    split at hr
    · cases hr
    split at hr
    · cases hr
    split at hr
    · cases hr
    · cases hr

/-- An entry that is called off leaves nothing in the entry field. -/
theorem acrnHandlePendingRequest_calledOff (htaken : s.entryIntInfo &&& vmxIntInfoValid = 0#32)
    (h : acrnHandlePendingRequest s = some (false, s')) :
    s'.entryIntInfo &&& vmxIntInfoValid = 0#32 := by
  have htrp := acrnHandlePendingRequest_false h
  have htrp' : (if s.pendingReq .initVmcs then initEntryEvents (s.clearRequest .initVmcs)
      else s).pendingReq .trpFault = true := by
    split
    · have hne : Request.trpFault ≠ .initVmcs := by decide
      exact (VcpuEvents.clearRequest_of_ne hne).trans htrp
    · exact htrp
  rw [acrnHandlePendingRequest] at h
  simp only [htrp', if_true] at h
  cases h
  split
  · exact BitVec.zero_and
  · exact htaken

/-- Queueing an exception does not touch the entry field. -/
theorem vcpuQueueException_entryIntInfo {vector errCode : U32}
    (h : vcpuQueueException s vector errCode = some s') : s'.entryIntInfo = s.entryIntInfo := by
  rw [vcpuQueueException_eq] at h
  split at h
  · cases h
    rfl
  · cases h
    rfl
  · obtain ⟨type, -, rfl⟩ := Option.map_eq_some_iff.mp h
    rfl

theorem vmexitHandler_entryIntInfo {info errCode : U32}
    (h : vmexitHandler s info errCode = some s') : s'.entryIntInfo = s.entryIntInfo := by
  rw [vmexitHandler] at h
  dsimp only at h
  split at h
  · split at h
    · obtain ⟨s₁, hs₁, rfl⟩ := Option.map_eq_some_iff.mp h
      have hinfo : s₁.entryIntInfo = _ := vcpuQueueException_entryIntInfo hs₁
      exact hinfo
    · cases h
      rfl
  · cases h
    rfl

end

/-! ## One entry

The word in the field is one of three, and each of them has its own equivalence. Between entries
the field is clear, which is a part of `Ready`. -/

namespace EntryState

variable {s s' : EntryState}

/-- Where no exception is pending none is requested. -/
theorem Ready.excp (h : s.Ready) (hpending : s.events.pending = .none) :
    s.events.pendingReq .excp = false := by
  cases hreq : s.events.pendingReq .excp with
  | false => rfl
  | true =>
    have hv := h.consistent.request.mp hreq
    rw [VcpuEvents.pending, if_pos hv] at hpending
    split at hpending
    · cases hpending
    · cases hpending

/-- The word in the entry field, by its source. -/
inductive Source (s : EntryState) (events : VcpuEvents) : Prop where
  | exception (vector error : U32) : s.events.pending = .exc vector error → vector.toNat < 32 →
      events.entryIntInfo = entryInfo vector → Source s events
  | nmi : s.events.pending = .none → s.events.pendingReq .nmi = true →
      events.entryIntInfo = nmiInfo → Source s events
  | vectored : s.events.pending = .none → s.events.pendingReq .nmi = false →
      s.events.idtVectoringInfo &&& vmxIntInfoValid ≠ 0#32 →
      events.entryIntInfo = s.events.idtVectoringInfo → Source s events

/-- **A valid word has one of the three sources.** -/
theorem Ready.source (h : s.Ready) {events : VcpuEvents}
    (he : acrnHandlePendingRequest s.events = some (true, events))
    (hvalid : events.entryIntInfo &&& vmxIntInfoValid ≠ 0#32) : Source s events := by
  obtain ⟨ok, events', he', -, henters, -⟩ := acrnHandlePendingRequest_spec h.consistent
  rw [he] at he'
  obtain ⟨rfl, rfl⟩ := Prod.mk.inj (Option.some.inj he')
  rw [VcpuEvents.Enters] at henters
  cases hpending : s.events.pending with
  | shutdown =>
    rw [hpending] at henters
    cases henters
  | exc vector error =>
    rw [hpending] at henters
    have hv : vector.toNat < 32 := by
      rw [VcpuEvents.pending] at hpending
      split at hpending
      · cases hpending
      split at hpending
      · obtain ⟨rfl, -⟩ := Pending.exc.inj hpending
        assumption
      · cases hpending
    exact .exception vector error hpending hv henters.2.1
  | none =>
    rw [hpending] at henters
    have hinfo := henters.2.1
    rw [VcpuEvents.otherInfo] at hinfo
    cases hnmi : s.events.pendingReq .nmi with
    | true =>
      rw [hnmi, if_pos rfl] at hinfo
      exact .nmi hpending hnmi hinfo
    | false =>
      rw [hnmi, if_neg Bool.false_ne_true] at hinfo
      by_cases hidt : s.events.idtVectoringInfo &&& vmxIntInfoValid ≠ 0#32
      · rw [if_pos hidt] at hinfo
        exact .vectored hpending hnmi hidt hinfo
      -- nothing is written, and what the field held has been taken
      · rw [if_neg hidt] at hinfo
        rw [hinfo] at hvalid
        split at hvalid
        · exact absurd BitVec.zero_and hvalid
        · exact absurd h.taken hvalid

theorem initVmcs_mode : s.initVmcs.mode = s.mode := by
  rw [initVmcs]
  split <;> rfl

theorem initVmcs_events : s.initVmcs.events = s.events := by
  rw [initVmcs]
  split <;> rfl

theorem initVmcs_handed : s.initVmcs.handed = s.handed := by
  rw [initVmcs]
  split <;> rfl

/-- **The event that is handed to the entry fits exactly under the condition.** -/
theorem Ready.wellFormed_iff (h : s.Ready) {events : VcpuEvents}
    (he : acrnHandlePendingRequest s.events = some (true, events))
    (hvalid : events.entryIntInfo &&& vmxIntInfoValid ≠ 0#32) :
    (s.written events).WellFormed ↔ s.Admissible := by
  cases h.source he hvalid with
  | exception vector error hpending hv hinfo =>
    rw [Admissible, hpending, ← initVmcs_mode]
    exact InjectedEvent.wellFormed_exception hv hinfo
  | nmi hpending hnmi hinfo =>
    rw [Admissible, hpending]
    simp only [hnmi, if_true]
    exact InjectedEvent.wellFormed_nmi hinfo
  | vectored hpending hnmi hidt hinfo =>
    obtain ⟨hvec, hexc⟩ := h.kept hidt
    have hrflags : events.rflags = s.initVmcs.events.rflags := by
      rw [initVmcs_events]
      exact acrnHandlePendingRequest_rflags hpending (h.excp hpending) he
    have hvec' : Vectored (s.written events).info := by
      rw [written, hinfo]
      exact hvec
    have hexc' : intType (s.written events).info ≠ vmxIntTypeHwExp := by
      rw [written, hinfo]
      exact hexc
    have hfits := InjectedEvent.wellFormed_vectored hvec' hexc' h.length
    rw [hfits, Admissible, hpending]
    simp only [hnmi, Bool.false_eq_true, if_false, written, hinfo, hrflags]
    constructor
    · rintro ⟨hbit, hsoft, hnmi, hext⟩ -
      exact ⟨hbit, hsoft, hnmi, hext⟩
    · intro hok
      obtain ⟨hbit, hsoft, hnmi, hext⟩ := hok hidt
      exact ⟨hbit, hsoft, hnmi, hext⟩

/-! ## Runs

`Ready` is carried over the turns; what is handed over in a turn is the word of that turn's
entry. -/

/-- The launched vCPU is ready, whatever the VMCS held. -/
theorem ready_init (h : injectionSystem.init s) : s.Ready := by
  obtain ⟨hevents, -⟩ := h
  have hinit : s.events.pendingReq .initVmcs = true := by
    rw [hevents]
    exact VcpuEvents.makeRequest_self
  refine ⟨?_, ?_, fun hvalid => ?_, ?_⟩
  · rw [hevents]
    exact VcpuEvents.created_consistent.congr rfl rfl (VcpuEvents.makeRequest_of_ne (by decide))
  · rw [hevents]
    decide
  · rw [hevents] at hvalid
    exact absurd hvalid (by decide)
  · rw [initVmcs, if_pos hinit]

/-- A change of the events that keeps the entry field, the kept event and the request
for `init_vmcs`. -/
theorem Ready.withEvents (h : s.Ready) {events : VcpuEvents} (hc : events.Consistent)
    (hinfo : events.entryIntInfo = s.events.entryIntInfo)
    (hidt : events.idtVectoringInfo = s.events.idtVectoringInfo)
    (hinit : events.pendingReq .initVmcs = s.events.pendingReq .initVmcs) :
    Ready { s with events } := by
  refine ⟨hc, ?_, ?_, ?_⟩
  · show events.entryIntInfo &&& _ = _
    rw [hinfo]
    exact h.taken
  · show events.idtVectoringInfo &&& _ ≠ _ → _
    dsimp only
    rw [hidt]
    exact h.kept
  · have hlen := h.length
    rw [initVmcs] at hlen ⊢
    dsimp only
    rw [hinit]
    split
    · rfl
    · rwa [if_neg ‹_›] at hlen

/-- Without `init_vmcs` to do, the length is the one in the VMCS. -/
theorem initVmcs_entryInstrLength (h : s.entryInstrLength = 0#32) :
    s.initVmcs.entryInstrLength = 0#32 := by
  rw [initVmcs]
  split
  · rfl
  · exact h

theorem isHwException_iff {info : U32} (hvalid : info &&& vmxIntInfoValid ≠ 0#32) :
    IsHwException info ↔ intType info = vmxIntTypeHwExp :=
  ⟨fun h => h.2, fun h => ⟨hvalid, h⟩⟩

/-- After an entry that was called off the interrupted event is still kept. -/
theorem Ready.calledOff (h : s.Ready) {events : VcpuEvents}
    (he : acrnHandlePendingRequest s.events = some (false, events)) :
    Ready { s.initVmcs with events } := by
  obtain ⟨ok, events', he', hc, -, hkept⟩ := acrnHandlePendingRequest_spec h.consistent
  rw [he] at he'
  obtain ⟨rfl, rfl⟩ := Prod.mk.inj (Option.some.inj he')
  refine ⟨hc, acrnHandlePendingRequest_calledOff h.taken he, ?_,
    initVmcs_entryInstrLength h.length⟩
  dsimp only
  rw [hkept, VcpuEvents.keptInfo]
  split
  · exact fun hvalid => absurd BitVec.zero_and hvalid
  · exact h.kept

/-- The exit takes the event that was handed over, and `vmexit_handler` keeps the one
that was interrupted unless it is an exception. -/
theorem exited_ready {exited events : VcpuEvents} {x : VmExitInfo}
    (hexit : vmexitHandler exited x.idtVecInfo x.idtVecErrorCode = some events)
    (hc : exited.Consistent) (htaken : exited.entryIntInfo &&& vmxIntInfoValid = 0#32)
    (hx : x.Documented) (hevents : s.events = events) (hlen : s.entryInstrLength = 0#32) :
    s.Ready := by
  obtain ⟨events', hexit', hc', hcase⟩ := vmexitHandler_spec hc hx.exception
  rw [hexit] at hexit'
  obtain rfl := Option.some.inj hexit'
  refine ⟨?_, ?_, ?_, initVmcs_entryInstrLength hlen⟩
  · rw [hevents]
    exact hc'
  · rw [hevents, vmexitHandler_entryIntInfo hexit]
    exact htaken
  · intro hvalid
    rw [hevents] at hvalid ⊢
    by_cases hhw : IsHwException x.idtVecInfo
    · rw [if_pos hhw] at hcase
      rw [hcase.2] at hvalid
      exact absurd BitVec.zero_and hvalid
    · rw [if_neg hhw] at hcase
      rw [hcase.2] at hvalid ⊢
      exact ⟨hx.vectored hvalid, fun htype => hhw ((isHwException_iff hvalid).mpr htype)⟩

/-- **A turn** leaves the vCPU ready, and hands over at most the one event that was
written. -/
theorem Ready.turn (h : s.Ready) {x : VmExitInfo} (hx : x.Documented) (ht : s.turn x = some s') :
    s'.Ready ∧ ∀ e ∈ s'.handed, e ∈ s.handed ∨ ∃ events,
      acrnHandlePendingRequest s.events = some (true, events) ∧
      events.entryIntInfo &&& vmxIntInfoValid ≠ 0#32 ∧ e = s.written events := by
  obtain ⟨ok, events, he, hc, -⟩ := acrnHandlePendingRequest_spec h.consistent
  rw [EntryState.turn, he, Option.bind_eq_bind, Option.bind_some] at ht
  cases ok with
  | false =>
    simp only [Bool.false_eq_true, if_false] at ht
    obtain rfl := Option.some.inj ht
    refine ⟨h.calledOff he, fun e hmem => Or.inl ?_⟩
    rw [← initVmcs_handed]
    exact hmem
  | true =>
    simp only [if_true] at ht
    obtain ⟨events', hexit, hs'⟩ := Option.bind_eq_some_iff.mp ht
    obtain rfl := Option.some.inj hs'
    have htaken : (hardwareExit events).entryIntInfo &&& vmxIntInfoValid = 0#32 := by
      rw [hardwareExit, BitVec.and_assoc,
        show ~~~vmxIntInfoValid &&& vmxIntInfoValid = 0#32 by decide, BitVec.and_zero]
    have hc' : (hardwareExit events).Consistent := hc.congr rfl rfl rfl
    refine ⟨exited_ready hexit (hc'.congr rfl rfl rfl) htaken hx rfl h.length, fun e hmem => ?_⟩
    dsimp only at hmem
    split at hmem
    · rename_i hvalid
      rcases List.mem_append.mp hmem with hmem | hmem
      · exact Or.inl hmem
      · exact Or.inr ⟨events, he, hvalid, List.mem_singleton.mp hmem⟩
    · exact Or.inl hmem

/-- **The step lemma.** -/
theorem Ready.step (h : s.Ready) {a : InjectionAction} (hstep : injectionSystem.step s a s') :
    s'.Ready := by
  cases a with
  | request r =>
    obtain ⟨⟨hexcp, -, hinit⟩, rfl⟩ := hstep
    exact h.withEvents (h.consistent.congr rfl rfl (VcpuEvents.makeRequest_of_ne hexcp.symm)) rfl
      rfl (VcpuEvents.makeRequest_of_ne hinit.symm)
  | queue vector errCode =>
    obtain ⟨⟨hv, hdf⟩, events, hq, rfl⟩ := hstep
    obtain ⟨events', hq', hc, -, hidt, hreq⟩ := vcpuQueueException_spec h.consistent hv hdf
    rw [hq] at hq'
    obtain rfl := Option.some.inj hq'
    exact h.withEvents hc (vcpuQueueException_entryIntInfo hq) hidt
      (hreq .initVmcs (by decide) (by decide))
  | emulate mode =>
    obtain rfl : s' = { s with mode } := hstep
    refine ⟨h.consistent, h.taken, h.kept, ?_⟩
    have hlen := h.length
    rw [initVmcs] at hlen ⊢
    split
    · rfl
    · rwa [if_neg ‹_›] at hlen
  | turn x =>
    obtain ⟨hx, ht⟩ := hstep
    exact (h.turn hx ht).1

theorem reach_ready {Ok : EntryState → InjectionAction → Prop}
    (h : Reach injectionSystem Ok s) : s.Ready :=
  h.invariant (fun _ hinit => ready_init hinit) fun _ _ _ _ hstep hs => hs.step hstep

/-- Where every entry is made under the condition, every event fits. -/
theorem reach_handed (h : Reach injectionSystem AdmissibleTurn s) :
    ∀ e ∈ s.handed, e.WellFormed := by
  induction h with
  | init hinit =>
    intro e he
    rw [hinit.2] at he
    cases he
  | @step s s' a hreach hok hstep ih =>
    have hready := reach_ready hreach
    cases a with
    | request r =>
      obtain ⟨-, rfl⟩ := hstep
      exact ih
    | queue vector errCode =>
      obtain ⟨-, events, -, rfl⟩ := hstep
      exact ih
    | emulate mode =>
      obtain rfl : s' = { s with mode } := hstep
      exact ih
    | turn x =>
      obtain ⟨hx, ht⟩ := hstep
      intro e he
      obtain hold | ⟨events, hentry, hvalid, rfl⟩ := (hready.turn hx ht).2 e he
      · exact ih e hold
      · exact (hready.wellFormed_iff hentry hvalid).mpr hok

/-- **The events handed to VM entry.** Whatever runs before, the event that a turn
writes passes the checks of the entry exactly if the condition holds. So a run whose
entries are all made under the condition only hands over events that pass. -/
theorem handed_events_wellFormed (s : EntryState) :
    (Reach injectionSystem AdmissibleTurn s → ∀ e ∈ s.handed, e.WellFormed) ∧
    (Reach injectionSystem any s → ∀ events,
      acrnHandlePendingRequest s.events = some (true, events) →
      events.entryIntInfo &&& vmxIntInfoValid ≠ 0#32 →
      ((s.written events).WellFormed ↔ s.Admissible)) :=
  ⟨fun h => reach_handed h, fun h _ he hvalid => (reach_ready h).wellFormed_iff he hvalid⟩

/-- A vCPU that is launched in the given mode. -/
def launched (mode : CpuMode) : EntryState where
  events := VcpuEvents.created.makeRequest .initVmcs
  mode := mode
  blockingBySti := false
  blockingByMovSs := false
  entryInstrLength := 0#32
  interruptedLength := 0#32
  handed := []

/-- An exit of an instruction of two bytes that interrupted the event `info`. -/
def exitWith (mode : CpuMode) (info : U32) : VmExitInfo where
  mode := mode
  rflags := 0x202#64
  blockingBySti := false
  blockingByMovSs := false
  instrLength := 2#32
  idtVecInfo := info
  idtVecErrorCode := 0#32

theorem exitWith_documented (mode : CpuMode) : (exitWith mode 0#32).Documented := by
  have hinvalid : ¬ (0#32 &&& vmxIntInfoValid ≠ 0#32) := by decide
  exact ⟨fun h => absurd h hinvalid, fun h => absurd h.1 hinvalid⟩

theorem exitWith_int80_documented : (exitWith .mode64 0x80000480#32).Documented :=
  ⟨fun _ => ⟨by decide, by decide, by decide, by decide⟩, fun h => absurd h (by decide)⟩

theorem reach_turn (h : Reach injectionSystem any s) {x : VmExitInfo} (hx : x.Documented)
    (ht : s.turn x = some s') : Reach injectionSystem any s' :=
  h.step (a := .turn x) trivial ⟨hx, ht⟩

theorem reach_gp (h : Reach injectionSystem any s) {events : VcpuEvents}
    (hq : vcpuInjectGp s.events 0#32 = some events) : Reach injectionSystem any { s with events } :=
  h.step (a := .queue 13#32 0#32) trivial ⟨by decide, events, hq, rfl⟩

/-- A guest in protected mode that gets a `#GP`. -/
theorem handed_events_wellFormed_gp : ∃ s events, Reach injectionSystem any s ∧
    acrnHandlePendingRequest s.events = some (true, events) ∧ (s.written events).WellFormed := by
  have hlaunch : Reach injectionSystem any (launched .protectedMode) := .init ⟨rfl, rfl⟩
  have hgp := reach_gp (reach_turn hlaunch (exitWith_documented .protectedMode) rfl) rfl
  refine ⟨_, _, hgp, rfl, ((handed_events_wellFormed _).2 hgp _ rfl (by decide)).mpr ?_⟩
  exact fun _ => by decide

/-- A guest in real mode whose `RDMSR` is answered with a `#GP` is handed the error code,
which the entry refuses there. A guest whose `INT 0x80` was interrupted gets it back
without the length of the instruction. -/
theorem handed_event_unfit :
    (∃ s, Reach injectionSystem any s ∧ ∃ e ∈ s.handed, e.info = 0x80000B0D#32 ∧
      e.mode = .real ∧ ¬ e.WellFormed) ∧
    ∃ s, Reach injectionSystem any s ∧ ∃ e ∈ s.handed, e.info = 0x80000480#32 ∧
      e.entryInstrLength = 0#32 ∧ e.interruptedLength = 2#32 ∧ ¬ e.WellFormed := by
  constructor
  · have hlaunch : Reach injectionSystem any (launched .real) := .init ⟨rfl, rfl⟩
    have hgp := reach_gp (reach_turn hlaunch (exitWith_documented .real) rfl) rfl
    have hentry := reach_turn hgp (exitWith_documented .real) rfl
    refine ⟨_, hentry, _, List.mem_singleton.mpr rfl, rfl, rfl, fun h => ?_⟩
    exact (h.errorCode (by decide)).2.2 rfl
  · have hlaunch : Reach injectionSystem any (launched .mode64) := .init ⟨rfl, rfl⟩
    have hexit := reach_turn hlaunch exitWith_int80_documented rfl
    have hentry := reach_turn hexit (exitWith_documented .mode64) rfl
    refine ⟨_, hentry, _, List.mem_singleton.mpr rfl, rfl, rfl, rfl, fun h => ?_⟩
    exact absurd (h.software (by decide)).2.1 (by decide)

end EntryState

end Acrn
