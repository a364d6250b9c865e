import Mathlib.Data.BitVec
import Acrn.Lib.Transition

/-!
# Exceptions and events of a vCPU

`virq.c` and `vmexit.c`: exceptions are queued one on top of the other while a VM
exit is handled, and before the next VM entry one event at most is written to the
entry interruption-information field. An event whose delivery the exit interrupted
is taken over from the IDT-vectoring information field.
-/

namespace Acrn

/-- `uint32_t`. -/
abbrev U32 : Type := BitVec 32

instance : LawfulBEq U32 := inferInstance

/-! ## Constants -/

/-- `VECTOR_INVALID`. -/
def vectorInvalid : U32 := 0x100#32

/-- `EXCEPTION_ERROR_CODE_VALID`. -/
def exceptionErrorCodeValid : U32 := 8#32

/-- `VMX_INT_INFO_VALID`. -/
def vmxIntInfoValid : U32 := 0x80000000#32
/-- `VMX_INT_INFO_ERR_CODE_VALID`. -/
def vmxIntInfoErrCodeValid : U32 := 0x800#32
/-- `VMX_INT_TYPE_MASK`. -/
def vmxIntTypeMask : U32 := 0x700#32
/-- `VMX_INT_TYPE_NMI`. -/
def vmxIntTypeNmi : U32 := 2#32
/-- `VMX_INT_TYPE_HW_EXP`. -/
def vmxIntTypeHwExp : U32 := 3#32

/-- `exception_type`. -/
def exceptionTypes : List U32 :=
  let hw := vmxIntTypeHwExp
  let hwErr := vmxIntTypeHwExp ||| exceptionErrorCodeValid
  [hw, hw, hw, hw, hw, hw, hw, hw,
   hwErr, hw, hwErr, hwErr, hwErr, hwErr, hwErr, hw,
   hw, hwErr, hw, hw, hw, hw, hw, hw,
   hw, hw, hw, hw, hw, hw, hw, hw]

/-- `exception_type[vector]`, where the array ends the value is undefined. -/
def exceptionType (vector : U32) : Option U32 := exceptionTypes[vector.toNat]?

/-- The values of `get_exception_type`. -/
inductive ExceptionKind where
  | fault
  | trap
  | abort
  | interrupt
  deriving DecidableEq, Repr

/-- `get_exception_type`. -/
def getExceptionType (vector : U32) : ExceptionKind :=
  if 31 < vector.toNat ∨ vector = 2#32 then .interrupt
  else if vector = 1#32 ∨ vector = 3#32 ∨ vector = 4#32 then .trap
  else if vector = 8#32 ∨ vector = 18#32 then .abort
  else .fault

/-- The values of `get_excep_class`. -/
inductive ExcepClass where
  | benign
  | cont
  | pf
  deriving DecidableEq, Repr

/-- `get_excep_class`. -/
def getExcepClass (vector : U32) : ExcepClass :=
  if vector = 0#32 ∨ vector = 10#32 ∨ vector = 11#32 ∨ vector = 12#32 ∨ vector = 13#32 then .cont
  else if vector = 14#32 ∨ vector = 20#32 then .pf
  else .benign

/-! ## State -/

/-- The requests in `pending_req`. -/
inductive Request where
  | excp
  | nmi
  | eptFlush
  | trpFault
  | initVmcs
  | lapicReset
  deriving DecidableEq, Repr

/-- What a vCPU keeps of its events, with the fields of the VMCS that a VM entry
takes an event from. -/
structure VcpuEvents where
  pendingReq : Request → Bool
  exception : U32
  error : U32
  idtVectoringInfo : U32
  instLen : U32
  rflags : BitVec 64
  entryIntInfo : U32
  entryErrorCode : U32

namespace VcpuEvents

/-- `vcpu_make_request`. -/
def makeRequest (s : VcpuEvents) (eventid : Request) : VcpuEvents :=
  { s with pendingReq := Function.update s.pendingReq eventid true }

/-- `bitmap_test_and_clear_lock(eventid, &pending_req)`, the new state. -/
def clearRequest (s : VcpuEvents) (eventid : Request) : VcpuEvents :=
  { s with pendingReq := Function.update s.pendingReq eventid false }

/-- The events of a vCPU after `create_vcpu`. -/
def created : VcpuEvents where
  pendingReq := fun _ => false
  exception := vectorInvalid
  error := 0#32
  idtVectoringInfo := 0#32
  instLen := 0#32
  rflags := 0x2#64
  entryIntInfo := 0#32
  entryErrorCode := 0#32

/-- `reset_vcpu`. -/
def reset (s : VcpuEvents) : VcpuEvents :=
  { s.makeRequest .lapicReset with exception := vectorInvalid, rflags := 0x2#64 }

end VcpuEvents

/-- `RFLAGS.RF`. -/
def rflagsRf : BitVec 64 := 0x10000#64

/-! ## Functions

Where `exception_type` is looked up behind its end there is no result: what the program does from
there on is undefined. -/

/-- `vcpu_queue_exception`. -/
def vcpuQueueException (s : VcpuEvents) (vector errCode : U32) : Option VcpuEvents :=
  let prevVector := s.exception
  let prevClass := getExcepClass prevVector
  let newClass := getExcepClass vector
  if prevVector = 8#32 ∧ newClass ≠ .benign then some (s.makeRequest .trpFault)
  else
    let (vector, errCode) :=
      if prevClass = .cont ∧ newClass = .cont ∨ prevClass = .pf ∧ newClass ≠ .benign then
        (8#32, 0#32)
      else (vector, errCode)
    (exceptionType vector).map fun type =>
      let error := if type &&& exceptionErrorCodeValid ≠ 0#32 then errCode else 0#32
      { s with exception := vector, error }.makeRequest .excp

/-- `vcpu_inject_gp`. -/
def vcpuInjectGp (s : VcpuEvents) (errCode : U32) : Option VcpuEvents :=
  vcpuQueueException s 13#32 errCode

/-- `vcpu_inject_exception`: whether an exception was injected, and the new state. -/
def vcpuInjectException (s : VcpuEvents) : Option (Bool × VcpuEvents) :=
  let vector := s.exception
  if s.pendingReq .excp then
    (exceptionType vector).map fun type =>
      let s := s.clearRequest .excp
      let s := if type &&& exceptionErrorCodeValid ≠ 0#32 then { s with entryErrorCode := s.error }
        else s
      let s := { s with
        entryIntInfo := vmxIntInfoValid ||| (type <<< 8) ||| (vector &&& 0xFF#32)
        exception := vectorInvalid }
      let s := if getExceptionType vector = .fault then
          { s with instLen := 0#32, rflags := s.rflags ||| rflagsRf }
        else s
      (true, s)
  else some (false, s)

/-- The part of `init_vmcs` that concerns the entry fields. -/
def initEntryEvents (s : VcpuEvents) : VcpuEvents :=
  { s with entryIntInfo := 0#32, entryErrorCode := 0#32 }

/-- `acrn_handle_pending_request`: whether the VM entry may go on (the function
returns 0), and the new state. -/
def acrnHandlePendingRequest (s : VcpuEvents) : Option (Bool × VcpuEvents) :=
  let s := if s.pendingReq .initVmcs then initEntryEvents (s.clearRequest .initVmcs) else s
  if s.pendingReq .trpFault then some (false, s.clearRequest .trpFault)
  else
    let s := s.clearRequest .lapicReset
    let s := s.clearRequest .eptFlush
    (vcpuInjectException s).map fun (injected, s) =>
      if injected then (true, s)
      else if s.pendingReq .nmi then
        (true, { s.clearRequest .nmi with
          entryIntInfo := vmxIntInfoValid ||| (vmxIntTypeNmi <<< 8) ||| 2#32 })
      else if s.idtVectoringInfo &&& vmxIntInfoValid ≠ 0#32 then
        (true, { s with entryIntInfo := s.idtVectoringInfo, idtVectoringInfo := 0#32 })
      else (true, s)

/-- What the hardware leaves behind at a VM exit: the event of the last entry has
been taken. -/
def hardwareExit (s : VcpuEvents) : VcpuEvents :=
  { s with entryIntInfo := s.entryIntInfo &&& ~~~vmxIntInfoValid }

/-- `vmexit_handler` up to the dispatch, for the given values of the fields
`VMX_IDT_VEC_INFO_FIELD` and `VMX_IDT_VEC_ERROR_CODE`. -/
def vmexitHandler (s : VcpuEvents) (idtVecInfo idtVecErrorCode : U32) : Option VcpuEvents :=
  let s := { s with idtVectoringInfo := idtVecInfo }
  if s.idtVectoringInfo &&& vmxIntInfoValid ≠ 0#32 then
    let vectorInfo := s.idtVectoringInfo
    let vector := vectorInfo &&& 0xff#32
    let type := (vectorInfo &&& vmxIntTypeMask) >>> 8
    if type = vmxIntTypeHwExp then
      let errCode := if vectorInfo &&& vmxIntInfoErrCodeValid ≠ 0#32 then idtVecErrorCode else 0#32
      (vcpuQueueException s vector errCode).map fun s => { s with idtVectoringInfo := 0#32 }
    else some s
  else some s

end Acrn
