import Acrn.Virq

/-!
# Queued exceptions follow the architecture

The rules for an exception that occurs while another one is delivered, as the
architecture states them, and what the queue of a vCPU makes of them: the pending
exception is the combination of everything that was queued since the last entry.
-/

namespace Acrn

open Transition

/-! ## The rules of the architecture

They are stated on their own, by the classes of the events, so that they can be compared with the
architecture's table and not with the code. -/

/-- The classes of events. -/
inductive EventClass where
  | benign
  | contributory
  | pageFault
  | doubleFault
  deriving DecidableEq, Repr

/-- What becomes of an event that occurs while another one is delivered. -/
inductive Outcome where
  | serial
  | doubleFault
  | shutdown
  deriving DecidableEq, Repr

/-- The class of an exception. -/
def eventClass (vector : U32) : EventClass :=
  if vector ∈ [0#32, 10#32, 11#32, 12#32, 13#32] then .contributory
  else if vector ∈ [14#32, 20#32] then .pageFault
  else if vector = 8#32 then .doubleFault
  else .benign

/-- The conditions for generating a double fault. -/
def outcome : EventClass → EventClass → Outcome
  | .contributory, .contributory => .doubleFault
  | .pageFault, .contributory => .doubleFault
  | .pageFault, .pageFault => .doubleFault
  | .doubleFault, .contributory => .shutdown
  | .doubleFault, .pageFault => .shutdown
  | _, _ => .serial

/-- The exceptions with an error code. -/
def HasErrorCode (vector : U32) : Prop :=
  vector ∈ [8#32, 10#32, 11#32, 12#32, 13#32, 14#32, 17#32]

instance (vector : U32) : Decidable (HasErrorCode vector) := inferInstanceAs (Decidable (_ ∈ _))

/-- What a processor is about to deliver. -/
inductive Pending where
  | none
  | exc (vector error : U32)
  | shutdown
  deriving DecidableEq, Repr

namespace Pending

/-- An exception on its own. -/
def single (vector error : U32) : Pending := exc vector (if HasErrorCode vector then error else 0#32)

/-- **The combination** with one more exception. -/
def combine (p : Pending) (e : U32 × U32) : Pending :=
  match p with
  | none => single e.1 e.2
  | shutdown => shutdown
  | exc vector _ =>
    match outcome (eventClass vector) (eventClass e.1) with
    | .serial => single e.1 e.2
    | .doubleFault => exc 8#32 0#32
    | .shutdown => shutdown

end Pending

/-! ## The pending exception of a vCPU -/

namespace VcpuEvents

/-- The pending exception. -/
def pending (s : VcpuEvents) : Pending :=
  if s.pendingReq .trpFault then .shutdown
  else if s.exception.toNat < 32 then .exc s.exception s.error
  else .none

/-- The exception and its request go together, and a double fault has error code
zero. -/
structure Consistent (s : VcpuEvents) : Prop where
  request : s.pendingReq .excp = true ↔ s.exception.toNat < 32
  invalid : s.exception.toNat < 32 ∨ s.exception = vectorInvalid
  df : s.exception = 8#32 → s.error = 0#32

variable {s s' : VcpuEvents} {r r' : Request}

@[simp] theorem makeRequest_self : (s.makeRequest r).pendingReq r = true :=
  Function.update_self _ _ _

@[simp] theorem clearRequest_self : (s.clearRequest r).pendingReq r = false :=
  Function.update_self _ _ _

theorem makeRequest_of_ne (h : r' ≠ r) : (s.makeRequest r).pendingReq r' = s.pendingReq r' :=
  Function.update_of_ne h _ _

theorem clearRequest_of_ne (h : r' ≠ r) : (s.clearRequest r).pendingReq r' = s.pendingReq r' :=
  Function.update_of_ne h _ _

/-- A vCPU as `create_vcpu` leaves it is consistent. -/
theorem created_consistent : created.Consistent :=
  ⟨by decide, Or.inr rfl, by decide⟩

end VcpuEvents

/-! ## The tables

The tables of the source are compared with the rules entry by entry: there are 32 exceptions. -/

/-- A property of the thirty-two exception vectors is checked vector by vector. -/
theorem forall_vector {P : U32 → Prop} (h : ∀ n : Fin 32, P (BitVec.ofNat 32 n)) {vector : U32}
    (hv : vector.toNat < 32) : P vector := by
  have hp := h ⟨vector.toNat, hv⟩
  rwa [BitVec.ofNat_toNat, BitVec.setWidth_eq] at hp

/-- The table of the types has an entry for every exception. -/
theorem exceptionType_eq {vector : U32} (hv : vector.toNat < 32) :
    exceptionType vector = some
      (if HasErrorCode vector then vmxIntTypeHwExp ||| exceptionErrorCodeValid
        else vmxIntTypeHwExp) :=
  forall_vector (P := fun vector => exceptionType vector = some
      (if HasErrorCode vector then vmxIntTypeHwExp ||| exceptionErrorCodeValid
        else vmxIntTypeHwExp)) (by decide) hv

/-- The error-code bit of the entry information is set for the vectors that push an error code. -/
theorem errorCode_flag (vector : U32) :
    (if HasErrorCode vector then vmxIntTypeHwExp ||| exceptionErrorCodeValid
      else vmxIntTypeHwExp) &&& exceptionErrorCodeValid ≠ 0#32 ↔ HasErrorCode vector := by
  by_cases h : HasErrorCode vector
  · rw [if_pos h]
    exact ⟨fun _ => h, fun _ => by decide⟩
  · rw [if_neg h]
    exact ⟨fun h' => absurd h' (by decide), fun h' => absurd h' h⟩

/-- The classes are those of the architecture, with the double fault among the
benign events. -/
theorem getExcepClass_eq (vector : U32) : getExcepClass vector =
    match eventClass vector with
    | .contributory => .cont
    | .pageFault => .pf
    | .benign => .benign
    | .doubleFault => .benign := by
  rw [getExcepClass, eventClass]
  by_cases hc : vector ∈ [0#32, 10#32, 11#32, 12#32, 13#32]
  · rw [if_pos hc, if_pos (by simpa using hc)]
  rw [if_neg hc, if_neg (by simpa using hc)]
  by_cases hp : vector ∈ [14#32, 20#32]
  · rw [if_pos hp, if_pos (by simpa using hp)]
  rw [if_neg hp, if_neg (by simpa using hp)]
  by_cases h8 : vector = 8#32
  · rw [if_pos h8]
  · rw [if_neg h8]

/-- Only vector 8 has the class of double faults. -/
theorem eventClass_doubleFault {vector : U32} : eventClass vector = .doubleFault ↔ vector = 8#32 := by
  constructor
  · intro h
    rw [eventClass] at h
    split at h
    · cases h
    split at h
    · cases h
    split at h
    · assumption
    · cases h
  · rintro rfl
    decide

theorem eventClass_invalid : eventClass vectorInvalid = .benign := by decide

/-! ## Queueing

Queueing one exception is one combination, and so the exceptions of a stay in the hypervisor are
folded. -/

variable {s s' : VcpuEvents}

/-- The branches of `vcpu_queue_exception` are those of the architecture. -/
theorem vcpuQueueException_eq (s : VcpuEvents) (vector errCode : U32) :
    vcpuQueueException s vector errCode =
      match outcome (eventClass s.exception) (eventClass vector) with
      | .shutdown => some (s.makeRequest .trpFault)
      | .doubleFault =>
        some ({ s with exception := 8#32, error := 0#32 }.makeRequest .excp)
      | .serial => (exceptionType vector).map fun type =>
          let error := if type &&& exceptionErrorCodeValid ≠ 0#32 then errCode else 0#32
          { s with exception := vector, error }.makeRequest .excp := by
  have hprev : s.exception = 8#32 ↔ eventClass s.exception = .doubleFault :=
    eventClass_doubleFault.symm
  rw [vcpuQueueException]
  simp only [getExcepClass_eq, hprev]
  cases eventClass s.exception <;> cases eventClass vector <;> rfl

/-- The state with another exception. -/
def VcpuEvents.withException (s : VcpuEvents) (vector error : U32) : VcpuEvents :=
  { s with exception := vector, error }.makeRequest .excp

/-- Recording an exception keeps the state consistent, as long as a double fault is recorded with
error code zero. -/
theorem VcpuEvents.withException_consistent {vector error : U32} (hv : vector.toNat < 32)
    (hdf : vector = 8#32 → error = 0#32) : (s.withException vector error).Consistent :=
  ⟨⟨fun _ => hv, fun _ => makeRequest_self⟩, Or.inl hv, hdf⟩

/-- The recorded exception is the pending one, unless a triple fault has been requested. -/
theorem VcpuEvents.withException_pending {vector : U32} (hv : vector.toNat < 32) (error : U32) :
    (s.withException vector error).pending =
      if s.pendingReq .trpFault then .shutdown else .exc vector error := by
  have htrp : (s.withException vector error).pendingReq .trpFault = s.pendingReq .trpFault :=
    makeRequest_of_ne (by decide)
  rw [pending, htrp, if_pos (show (s.withException vector error).exception.toNat < 32 from hv)]
  rfl

/-- A combination by the classes of the two exceptions. -/
theorem VcpuEvents.combine_pending (h : s.Consistent) (e : U32 × U32) :
    s.pending.combine e = if s.pendingReq .trpFault then .shutdown else
      match outcome (eventClass s.exception) (eventClass e.1) with
      | .serial => Pending.single e.1 e.2
      | .doubleFault => .exc 8#32 0#32
      | .shutdown => .shutdown := by
  rw [pending]
  by_cases htrp : s.pendingReq .trpFault
  · rw [if_pos htrp, if_pos htrp]
    rfl
  rw [if_neg htrp, if_neg htrp]
  rcases h.invalid with hlt | hinv
  · rw [if_pos hlt]
    rfl
  · have hge : ¬ s.exception.toNat < 32 := by rw [hinv]; decide
    rw [if_neg hge, hinv, eventClass_invalid]
    cases eventClass e.1 <;> rfl

/-- **One more exception is combined with the pending one.** -/
theorem vcpuQueueException_spec (h : s.Consistent) {vector errCode : U32}
    (hv : vector.toNat < 32) (hdf : vector = 8#32 → errCode = 0#32) :
    ∃ s', vcpuQueueException s vector errCode = some s' ∧ s'.Consistent ∧
      s'.pending = s.pending.combine (vector, errCode) ∧
      s'.idtVectoringInfo = s.idtVectoringInfo ∧
      ∀ r, r ≠ .excp → r ≠ .trpFault → s'.pendingReq r = s.pendingReq r := by
  rw [vcpuQueueException_eq, exceptionType_eq hv]
  simp only [Option.map_some, errorCode_flag, VcpuEvents.combine_pending h]
  cases ho : outcome (eventClass s.exception) (eventClass vector) with
  | shutdown =>
    refine ⟨_, rfl, ⟨?_, h.invalid, h.df⟩, ?_, rfl, ?_⟩
    · rw [VcpuEvents.makeRequest_of_ne (by decide)]
      exact h.request
    · rw [VcpuEvents.pending, if_pos VcpuEvents.makeRequest_self]
      split <;> rfl
    · exact fun r _ hr => VcpuEvents.makeRequest_of_ne hr
  | doubleFault =>
    have h8 : (8#32 : U32).toNat < 32 := by decide
    exact ⟨s.withException 8#32 0#32, rfl, VcpuEvents.withException_consistent h8 fun _ => rfl,
      VcpuEvents.withException_pending h8 _, rfl, fun r hr _ => VcpuEvents.makeRequest_of_ne hr⟩
  | serial =>
    have hdf' : vector = 8#32 → (if HasErrorCode vector then errCode else 0#32) = 0#32 := by
      intro h8
      rw [hdf h8, ite_self]
    exact ⟨s.withException vector _, rfl, VcpuEvents.withException_consistent hv hdf',
      VcpuEvents.withException_pending hv _, rfl, fun r hr _ => VcpuEvents.makeRequest_of_ne hr⟩

/-- An exception as the architecture knows it: its vector is below 32, and a double
fault has error code zero. -/
def IsException (e : U32 × U32) : Prop := e.1.toNat < 32 ∧ (e.1 = 8#32 → e.2 = 0#32)

instance (e : U32 × U32) : Decidable (IsException e) := inferInstanceAs (Decidable (_ ∧ _))

/-- `vcpu_queue_exception` called for one exception after the other. -/
def vcpuQueueExceptions (s : VcpuEvents) (es : List (U32 × U32)) : Option VcpuEvents :=
  es.foldlM (fun s e => vcpuQueueException s e.1 e.2) s

/-- **Queueing is folding.** -/
theorem vcpuQueueExceptions_spec (es : List (U32 × U32)) (hes : ∀ e ∈ es, IsException e)
    (h : s.Consistent) :
    ∃ s', vcpuQueueExceptions s es = some s' ∧ s'.Consistent ∧
      s'.pending = es.foldl Pending.combine s.pending := by
  induction es generalizing s with
  | nil => exact ⟨s, rfl, h, rfl⟩
  | cons e es ih =>
    obtain ⟨⟨hv, hdf⟩, hes⟩ := List.forall_mem_cons.mp hes
    obtain ⟨s₁, hq, h₁, hpending, -⟩ := vcpuQueueException_spec h hv hdf
    obtain ⟨s', hs', h', hfold⟩ := ih hes h₁
    refine ⟨s', ?_, h', ?_⟩
    · rw [vcpuQueueExceptions, List.foldlM_cons, hq]
      exact hs'
    · rw [hfold, hpending, List.foldl_cons]

/-! ## Injection

A VM entry takes one event. The steps of `acrn_handle_pending_request` before the events only
prepare the state, and so the event is found by a case split on what is pending. -/

/-- The entry interruption information of an exception: a hardware exception, with
the flag of the error code where there is one. -/
def entryInfo (vector : U32) : U32 :=
  vmxIntInfoValid ||| (if HasErrorCode vector then vmxIntInfoErrCodeValid else 0#32) |||
    (vmxIntTypeHwExp <<< 8) ||| vector

/-- The entry information written for a pending exception carries its vector, its type and its
error-code bit. -/
theorem entryInfo_eq {vector : U32} (hv : vector.toNat < 32) :
    vmxIntInfoValid ||| ((if HasErrorCode vector then vmxIntTypeHwExp ||| exceptionErrorCodeValid
      else vmxIntTypeHwExp) <<< 8) ||| (vector &&& 0xFF#32) = entryInfo vector :=
  forall_vector (P := fun vector => vmxIntInfoValid ||| ((if HasErrorCode vector then
    vmxIntTypeHwExp ||| exceptionErrorCodeValid else vmxIntTypeHwExp) <<< 8) |||
      (vector &&& 0xFF#32) = entryInfo vector) (by decide) hv

/-- `vcpu_inject_exception` where no exception is pending. -/
theorem vcpuInjectException_none (hreq : s.pendingReq .excp = false) :
    vcpuInjectException s = some (false, s) := by
  rw [vcpuInjectException, hreq]
  rfl

/-- `vcpu_inject_exception` writes the pending exception out and clears the record. -/
theorem vcpuInjectException_spec (h : s.Consistent) (hreq : s.pendingReq .excp = true) :
    ∃ s', vcpuInjectException s = some (true, s') ∧
      s'.entryIntInfo = entryInfo s.exception ∧
      (HasErrorCode s.exception → s'.entryErrorCode = s.error) ∧
      s'.exception = vectorInvalid ∧ s'.idtVectoringInfo = s.idtVectoringInfo ∧
      s'.pendingReq = (s.clearRequest .excp).pendingReq := by
  have hv := h.request.mp hreq
  rw [vcpuInjectException, if_pos hreq, exceptionType_eq hv]
  simp only [Option.map_some, errorCode_flag, entryInfo_eq hv]
  refine ⟨_, rfl, ?_, ?_, ?_, ?_, ?_⟩
  · split <;> rfl
  · intro herr
    rw [if_pos herr]
    split <;> rfl
  · split <;> rfl
  · split <;> split <;> rfl
  · split <;> split <;> rfl

/-- The entry interruption information of an NMI. -/
def nmiInfo : U32 := vmxIntInfoValid ||| (vmxIntTypeNmi <<< 8) ||| 2#32

/-- What is injected where no exception is pending: an NMI that was requested, an
event whose delivery was interrupted, or nothing new. -/
def VcpuEvents.otherInfo (s : VcpuEvents) : U32 :=
  if s.pendingReq .nmi then vmxIntInfoValid ||| (vmxIntTypeNmi <<< 8) ||| 2#32
  else if s.idtVectoringInfo &&& vmxIntInfoValid ≠ 0#32 then s.idtVectoringInfo
  else if s.pendingReq .initVmcs then 0#32
  else s.entryIntInfo

/-- What a VM entry makes of the pending exception: it is injected, unless the VM is
shut down. -/
def VcpuEvents.Enters (s : VcpuEvents) (ok : Bool) (s' : VcpuEvents) : Prop :=
  match s.pending with
  | .shutdown => ok = false
  | .exc vector error => ok = true ∧ s'.entryIntInfo = entryInfo vector ∧
      (HasErrorCode vector → s'.entryErrorCode = error) ∧ s'.pending = .none ∧
      s'.pendingReq .excp = false ∧ s'.exception = vectorInvalid
  | .none => ok = true ∧ s'.entryIntInfo = s.otherInfo ∧ s'.pending = .none

/-- The interrupted event that is still kept aside after a VM entry. -/
def VcpuEvents.keptInfo (s : VcpuEvents) : U32 :=
  if s.pending = .none ∧ s.pendingReq .nmi = false ∧ s.idtVectoringInfo &&& vmxIntInfoValid ≠ 0#32
  then 0#32 else s.idtVectoringInfo

/-- The state in which `acrn_handle_pending_request` comes to the events. -/
def VcpuEvents.prepared (s : VcpuEvents) : VcpuEvents :=
  ((if s.pendingReq .initVmcs then initEntryEvents (s.clearRequest .initVmcs) else s).clearRequest
    .lapicReset).clearRequest .eptFlush

namespace VcpuEvents

/-- The requests that are served before the events leave the pending exception alone. -/
theorem prepared_exception : s.prepared.exception = s.exception := by
  rw [prepared]
  split <;> rfl

theorem prepared_error : s.prepared.error = s.error := by
  rw [prepared]
  split <;> rfl

theorem prepared_idtVectoringInfo : s.prepared.idtVectoringInfo = s.idtVectoringInfo := by
  rw [prepared]
  split <;> rfl

theorem prepared_entryIntInfo :
    s.prepared.entryIntInfo = if s.pendingReq .initVmcs then 0#32 else s.entryIntInfo := by
  rw [prepared]
  split <;> rfl

/-- The requests that stand for events are still there when the others have been served. -/
theorem prepared_pendingReq {r : Request} (hr : r = .excp ∨ r = .nmi ∨ r = .trpFault) :
    s.prepared.pendingReq r = s.pendingReq r := by
  have hne : r ≠ .eptFlush ∧ r ≠ .lapicReset ∧ r ≠ .initVmcs := by
    rcases hr with rfl | rfl | rfl <;> decide
  rw [prepared, clearRequest_of_ne hne.1, clearRequest_of_ne hne.2.1]
  split
  · exact clearRequest_of_ne hne.2.2
  · rfl

/-- Serving the other requests keeps the state consistent. -/
theorem prepared_consistent (h : s.Consistent) : s.prepared.Consistent := by
  refine ⟨?_, ?_, ?_⟩
  · rw [prepared_pendingReq (Or.inl rfl), prepared_exception]
    exact h.request
  · rw [prepared_exception]
    exact h.invalid
  · rw [prepared_exception, prepared_error]
    exact h.df

end VcpuEvents

/-- Without a triple fault one event is taken from the prepared state. -/
theorem acrnHandlePendingRequest_eq (s : VcpuEvents) (htrp : s.pendingReq .trpFault = false) :
    acrnHandlePendingRequest s = (vcpuInjectException s.prepared).map fun (injected, s) =>
      if injected then (true, s)
      else if s.pendingReq .nmi then
        (true, { s.clearRequest .nmi with
          entryIntInfo := vmxIntInfoValid ||| (vmxIntTypeNmi <<< 8) ||| 2#32 })
      else if s.idtVectoringInfo &&& vmxIntInfoValid ≠ 0#32 then
        (true, { s with entryIntInfo := s.idtVectoringInfo, idtVectoringInfo := 0#32 })
      else (true, s) := by
  have htrp' : (if s.pendingReq .initVmcs then initEntryEvents (s.clearRequest .initVmcs)
      else s).pendingReq .trpFault = false := by
    split
    · show (s.clearRequest .initVmcs).pendingReq .trpFault = _
      rw [VcpuEvents.clearRequest_of_ne (by decide), htrp]
    · exact htrp
  rw [acrnHandlePendingRequest]
  simp only [htrp', Bool.false_eq_true, if_false]
  rfl

/-- With a triple fault the entry is called off. -/
theorem acrnHandlePendingRequest_shutdown (s : VcpuEvents) (htrp : s.pendingReq .trpFault = true) :
    ∃ s', acrnHandlePendingRequest s = some (false, s') ∧ s'.exception = s.exception ∧
      s'.error = s.error ∧ s'.pendingReq .excp = s.pendingReq .excp ∧
      s'.idtVectoringInfo = s.idtVectoringInfo := by
  have htrp' : (if s.pendingReq .initVmcs then initEntryEvents (s.clearRequest .initVmcs)
      else s).pendingReq .trpFault = true := by
    split
    · show (s.clearRequest .initVmcs).pendingReq .trpFault = _
      rw [VcpuEvents.clearRequest_of_ne (by decide), htrp]
    · exact htrp
  rw [acrnHandlePendingRequest]
  simp only [htrp', if_true]
  refine ⟨_, rfl, ?_, ?_, ?_, ?_⟩
  · split <;> rfl
  · split <;> rfl
  · rw [VcpuEvents.clearRequest_of_ne (by decide)]
    split
    · show (s.clearRequest .initVmcs).pendingReq .excp = _
      rw [VcpuEvents.clearRequest_of_ne (by decide)]
    · rfl
  · split <;> rfl

theorem VcpuEvents.Consistent.congr {s' : VcpuEvents} (h : s.Consistent)
    (hexc : s'.exception = s.exception) (herr : s'.error = s.error)
    (hreq : s'.pendingReq .excp = s.pendingReq .excp) : s'.Consistent := by
  refine ⟨?_, ?_, ?_⟩
  · rw [hexc, hreq]
    exact h.request
  · rw [hexc]
    exact h.invalid
  · rw [hexc, herr]
    exact h.df

theorem VcpuEvents.pending_none (htrp : s.pendingReq .trpFault = false)
    (hge : ¬ s.exception.toNat < 32) : s.pending = .none := by
  rw [pending, htrp, if_neg Bool.false_ne_true, if_neg hge]

theorem VcpuEvents.keptInfo_of_pending (h : s.pending ≠ .none) :
    s.keptInfo = s.idtVectoringInfo := if_neg fun h' => h h'.1

/-- What a VM entry comes to: a consistent state, with the pending event taken. -/
def VcpuEvents.Handled (s : VcpuEvents) : Prop :=
  ∃ ok s', acrnHandlePendingRequest s = some (ok, s') ∧ s'.Consistent ∧ s.Enters ok s' ∧
    s'.idtVectoringInfo = s.keptInfo

namespace VcpuEvents

/-- A requested triple fault is handled: the vCPU is shut down, and nothing is injected. -/
theorem handled_shutdown (h : s.Consistent) (htrp : s.pendingReq .trpFault = true) :
    s.Handled := by
  have hpending : s.pending = .shutdown := if_pos htrp
  obtain ⟨s', hs', hexc, herr, hreq, hidt⟩ := acrnHandlePendingRequest_shutdown s htrp
  refine ⟨false, s', hs', h.congr hexc herr hreq, ?_, ?_⟩
  · rw [Enters, hpending]
  · rw [hidt, keptInfo_of_pending (by rw [hpending]; nofun)]

section
variable (htrp : s.pendingReq .trpFault = false)
include htrp

theorem prepared_trpFault : s.prepared.pendingReq .trpFault = false :=
  (prepared_pendingReq (Or.inr (Or.inr rfl))).trans htrp

/-- An exception that is pending is injected. -/
theorem handled_exception (h : s.Consistent) (hreq : s.pendingReq .excp = true) : s.Handled := by
  have hpending : s.pending = .exc s.exception s.error := by
    rw [pending, htrp, if_neg Bool.false_ne_true, if_pos (h.request.mp hreq)]
  have hexcp : s.prepared.pendingReq .excp = true := (prepared_pendingReq (Or.inl rfl)).trans hreq
  obtain ⟨s', hinj, hinfo, herr, hexc, hidt, hpend⟩ :=
    vcpuInjectException_spec (prepared_consistent h) hexcp
  have hclear : s'.pendingReq .excp = false := by
    rw [hpend]
    exact clearRequest_self
  have htrps : s'.pendingReq .trpFault = false := by
    rw [hpend, clearRequest_of_ne (by decide), prepared_trpFault htrp]
  have hge : ¬ s'.exception.toNat < 32 := by
    rw [hexc]
    decide
  have hne : s'.exception ≠ 8#32 := by
    rw [hexc]
    decide
  rw [prepared_exception] at hinfo herr
  rw [prepared_error] at herr
  rw [Handled, acrnHandlePendingRequest_eq s htrp, hinj]
  refine ⟨true, s', rfl, ⟨?_, Or.inr hexc, fun h8 => absurd h8 hne⟩, ?_, ?_⟩
  · rw [hclear]
    exact ⟨nofun, fun hlt => absurd hlt hge⟩
  · rw [Enters, hpending]
    exact ⟨rfl, hinfo, herr, pending_none htrps hge, hclear, hexc⟩
  · rw [hidt, prepared_idtVectoringInfo, keptInfo_of_pending (by rw [hpending]; nofun)]

/-- Without an exception it is the NMI, the event that was interrupted, or nothing. -/
theorem handled_other (h : s.Consistent) (hreq : s.pendingReq .excp = false) : s.Handled := by
  have hexcp : s.prepared.pendingReq .excp = s.pendingReq .excp := prepared_pendingReq (Or.inl rfl)
  have hnmi : s.prepared.pendingReq .nmi = s.pendingReq .nmi :=
    prepared_pendingReq (Or.inr (Or.inl rfl))
  have hge : ¬ s.exception.toNat < 32 := fun hlt => by
    rw [h.request.mpr hlt] at hreq
    cases hreq
  have hpending : s.pending = .none := pending_none htrp hge
  have henters : ∀ s' : VcpuEvents, s'.entryIntInfo = s.otherInfo → s'.exception = s.exception →
      s'.pendingReq .trpFault = false → s.Enters true s' := by
    intro s' hinfo hexc htrps
    rw [Enters, hpending]
    exact ⟨rfl, hinfo, pending_none htrps (by rwa [hexc])⟩
  rw [Handled, acrnHandlePendingRequest_eq s htrp, vcpuInjectException_none (hexcp.trans hreq),
    Option.map_some]
  simp only [Bool.false_eq_true, if_false, hnmi, prepared_idtVectoringInfo]
  by_cases hn : s.pendingReq .nmi = true
  · have hother : ∀ r, r ≠ .nmi → (s.prepared.clearRequest .nmi).pendingReq r =
        s.prepared.pendingReq r := fun r hr => clearRequest_of_ne hr
    have hkept : s.keptInfo = s.idtVectoringInfo := if_neg fun h' => by
      rw [hn] at h'
      exact Bool.noConfusion h'.2.1
    rw [if_pos hn]
    refine ⟨true, _, rfl, h.congr prepared_exception prepared_error ?_,
      henters _ ?_ prepared_exception ?_, ?_⟩
    · exact (hother _ (by decide)).trans hexcp
    · rw [otherInfo, if_pos hn]
    · exact (hother _ (by decide)).trans (prepared_trpFault htrp)
    · exact prepared_idtVectoringInfo.trans hkept.symm
  have hnoNmi : s.pendingReq .nmi = false := Bool.eq_false_iff.mpr hn
  rw [if_neg hn]
  by_cases hidt : s.idtVectoringInfo &&& vmxIntInfoValid ≠ 0#32
  · rw [if_pos hidt]
    refine ⟨true, _, rfl, h.congr prepared_exception prepared_error hexcp,
      henters _ ?_ prepared_exception (prepared_trpFault htrp), ?_⟩
    · rw [otherInfo, if_neg hn, if_pos hidt]
    · exact (if_pos ⟨hpending, hnoNmi, hidt⟩).symm
  · rw [if_neg hidt]
    refine ⟨true, _, rfl, h.congr prepared_exception prepared_error hexcp,
      henters _ ?_ prepared_exception (prepared_trpFault htrp), ?_⟩
    · rw [otherInfo, if_neg hn, if_neg hidt, prepared_entryIntInfo]
    · exact prepared_idtVectoringInfo.trans (if_neg fun h' => hidt h'.2.2).symm

end

end VcpuEvents

/-- **A VM entry injects the pending exception.** -/
theorem acrnHandlePendingRequest_spec (h : s.Consistent) :
    ∃ ok s', acrnHandlePendingRequest s = some (ok, s') ∧ s'.Consistent ∧ s.Enters ok s' ∧
      s'.idtVectoringInfo = s.keptInfo := by
  cases htrp : s.pendingReq .trpFault with
  | true => exact VcpuEvents.handled_shutdown h htrp
  | false =>
    cases hreq : s.pendingReq .excp with
    | true => exact VcpuEvents.handled_exception htrp h hreq
    | false => exact VcpuEvents.handled_other htrp h hreq

/-! ## Runs -/

/-- What can happen to the events of a vCPU. -/
inductive EventAction where
  | request (r : Request)
  | queue (vector errCode : U32)
  | entry
  | exit (idtVecInfo idtVecErrorCode : U32)
  | reset

/-- The event that an exit reports is a hardware exception. -/
def IsHwException (info : U32) : Prop :=
  info &&& vmxIntInfoValid ≠ 0#32 ∧ (info &&& vmxIntTypeMask) >>> 8 = vmxIntTypeHwExp

instance (info : U32) : Decidable (IsHwException info) := inferInstanceAs (Decidable (_ ∧ _))

/-- The exception that an exit reports. -/
def vectoredException (info errCode : U32) : U32 × U32 :=
  (info &&& 0xff#32, if info &&& vmxIntInfoErrCodeValid ≠ 0#32 then errCode else 0#32)

/-- The events of a vCPU from `create_vcpu` on. Exceptions and triple faults are only
requested by `vcpu_queue_exception`. -/
def eventSystem : System VcpuEvents EventAction where
  init s := s = VcpuEvents.created
  step s a s' :=
    match a with
    | .request r => r ≠ .excp ∧ r ≠ .trpFault ∧ s' = s.makeRequest r
    | .queue vector errCode => IsException (vector, errCode) ∧
        vcpuQueueException s vector errCode = some s'
    | .entry => acrnHandlePendingRequest s = some (true, s')
    | .exit info errCode => (IsHwException info → IsException (vectoredException info errCode)) ∧
        vmexitHandler (hardwareExit s) info errCode = some s'
    | .reset => s' = s.reset

/-- The vCPU is not reset while an exception is pending. -/
def ResetsIdle (s : VcpuEvents) (a : EventAction) : Prop :=
  a = .reset → s.pendingReq .excp = false

/-- An exit queues the exception it reports, and takes note of any other event. -/
theorem vmexitHandler_spec (h : s.Consistent) {info errCode : U32}
    (hv : IsHwException info → IsException (vectoredException info errCode)) :
    ∃ s', vmexitHandler s info errCode = some s' ∧ s'.Consistent ∧
      if IsHwException info then
        s'.pending = s.pending.combine (vectoredException info errCode) ∧
        s'.idtVectoringInfo = 0#32
      else s'.pending = s.pending ∧ s'.idtVectoringInfo = info := by
  have h₁ : VcpuEvents.Consistent { s with idtVectoringInfo := info } := h.congr rfl rfl rfl
  rw [vmexitHandler]
  by_cases hhw : IsHwException info
  · obtain ⟨s', hq, h', hpending, -⟩ := vcpuQueueException_spec h₁ (hv hhw).1 (hv hhw).2
    simp only [if_pos hhw.1, if_pos hhw.2, if_pos hhw]
    exact ⟨{ s' with idtVectoringInfo := 0#32 }, Option.map_eq_some_iff.mpr ⟨s', hq, rfl⟩,
      h'.congr rfl rfl rfl, hpending, rfl⟩
  · simp only [if_neg hhw]
    refine ⟨{ s with idtVectoringInfo := info }, ?_, h₁, rfl, rfl⟩
    by_cases hvalid : info &&& vmxIntInfoValid ≠ 0#32
    · rw [if_pos hvalid]
      exact if_neg fun htype => hhw ⟨hvalid, htype⟩
    · exact if_neg hvalid

/-- Every reachable state is consistent. -/
theorem VcpuEvents.reach_consistent (h : Reach eventSystem ResetsIdle s) : s.Consistent := by
  refine h.invariant ?_ ?_
  · rintro s rfl
    exact created_consistent
  · intro s a s' hok hstep hs
    cases a with
    | request r =>
      obtain ⟨hr, -, rfl⟩ := hstep
      exact hs.congr rfl rfl (makeRequest_of_ne hr.symm)
    | queue vector errCode =>
      obtain ⟨⟨hv, hdf⟩, hq⟩ := hstep
      obtain ⟨s₁, hq₁, h₁, -⟩ := vcpuQueueException_spec hs hv hdf
      rw [hq₁] at hq
      cases hq
      exact h₁
    | entry =>
      obtain ⟨ok, s₁, he₁, h₁, -⟩ := acrnHandlePendingRequest_spec hs
      rw [show acrnHandlePendingRequest s = _ from hstep] at he₁
      cases he₁
      exact h₁
    | exit info errCode =>
      obtain ⟨hv, he⟩ := hstep
      have hh : (hardwareExit s).Consistent := hs.congr rfl rfl rfl
      obtain ⟨s₁, he₁, h₁, -⟩ := vmexitHandler_spec hh hv
      rw [he₁] at he
      cases he
      exact h₁
    | reset =>
      obtain rfl : s' = s.reset := hstep
      have hreq : s.reset.pendingReq .excp = false := by
        show (s.makeRequest .lapicReset).pendingReq .excp = _
        rw [makeRequest_of_ne (by decide), hok rfl]
      refine ⟨?_, Or.inr rfl, fun h8 => absurd h8 (show vectorInvalid ≠ 8#32 by decide)⟩
      rw [hreq]
      exact ⟨nofun, fun hlt => absurd hlt (show ¬ vectorInvalid.toNat < 32 by decide)⟩

/-- **Exception merging follows the architecture.** Exceptions that are queued before
a VM entry combine with the pending one by the rules of the architecture, and the
entry injects what they amount to. -/
theorem exceptions_follow_architecture (h : Reach eventSystem ResetsIdle s)
    (es : List (U32 × U32)) (hes : ∀ e ∈ es, IsException e) :
    ∃ s', vcpuQueueExceptions s es = some s' ∧ s'.pending = es.foldl Pending.combine s.pending ∧
      (∀ error, s'.pending = .exc 8#32 error → error = 0#32) ∧
      ∃ ok s'', acrnHandlePendingRequest s' = some (ok, s'') ∧ s'.Enters ok s'' := by
  obtain ⟨s', hs', h', hpending⟩ := vcpuQueueExceptions_spec es hes (VcpuEvents.reach_consistent h)
  obtain ⟨ok, s'', he, -, henters, -⟩ := acrnHandlePendingRequest_spec h'
  refine ⟨s', hs', hpending, ?_, ok, s'', he, henters⟩
  intro error hexc
  rw [VcpuEvents.pending] at hexc
  split at hexc
  · cases hexc
  split at hexc
  · obtain ⟨h8, rfl⟩ := Pending.exc.inj hexc
    exact h'.df h8
  · cases hexc

theorem exceptions_follow_architecture_df :
    ∃ s', vcpuQueueExceptions VcpuEvents.created [(14#32, 2#32), (13#32, 5#32)] = some s' ∧
      s'.pending = .exc 8#32 0#32 ∧ (∀ error, s'.pending = .exc 8#32 error → error = 0#32) ∧
      ∃ ok s'', acrnHandlePendingRequest s' = some (ok, s'') ∧ s'.Enters ok s'' :=
  exceptions_follow_architecture (.init rfl) [(14#32, 2#32), (13#32, 5#32)]
    (List.forall_mem_cons.2 ⟨by decide, List.forall_mem_singleton.2 (by decide)⟩)

/-- A reset forgets the pending exception but not its request, so the next entry
looks up the type of an invalid vector. -/
theorem reset_leaves_request :
    ∃ s : VcpuEvents, Reach eventSystem any s ∧ s.pending = .none ∧
      vcpuQueueExceptions s [] = some s ∧ acrnHandlePendingRequest s = none := by
  have hqueue : vcpuQueueException VcpuEvents.created 6#32 0#32 =
      some (VcpuEvents.created.withException 6#32 0#32) := rfl
  have hcreate : Reach eventSystem any VcpuEvents.created := .init rfl
  have hud : Reach eventSystem any (VcpuEvents.created.withException 6#32 0#32) :=
    hcreate.step (a := .queue 6#32 0#32) trivial
      ⟨by decide, hqueue⟩
  exact ⟨_, hud.step (a := .reset) trivial rfl, by decide, rfl, rfl⟩

end Acrn
