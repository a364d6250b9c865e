import Acrn.Lib.Transition
import Mathlib.Data.BitVec
import Mathlib.Logic.Function.Basic

/-!
# The virtual RTC

`vrtc.c`. A guest selects a register of its RTC at port 0x70 and reads it at port 0x71. The
registers of time and date are read from the physical RTC, under a lock and between two of its
updates; the others are constants. Each access to a physical port is a step, and the vCPUs of all
VMs take their steps in any order, from when `vrtc_init` has been called for all VMs.
-/

namespace Acrn

open Transition

/-! ## Ports and registers -/

/-- `CMOS_ADDR_PORT`. -/
def cmosAddrPort : BitVec 16 := 0x70#16
/-- `CMOS_DATA_PORT`. -/
def cmosDataPort : BitVec 16 := 0x71#16
/-- `RTC_STATUSA`. -/
def rtcStatusA : BitVec 8 := 0x0A#8
/-- `RTCSA_TUP`. -/
def rtcsaTup : BitVec 8 := 0x80#8
/-- What `tries` begins with. -/
def cmosTries : ℤ := 3000

/-- The `switch` of `cmos_get_reg_val`: the default value of a register, if it has one. -/
def cmosDefault (addr : BitVec 8) : Option (BitVec 32) :=
  match addr.toNat with
  | 0x0 => none
  | 0x1 => some 0x0#32
  | 0x2 => none
  | 0x3 => some 0x0#32
  | 0x4 => none
  | 0x5 => some 0x0#32
  | 0x6 | 0x7 | 0x8 | 0x9 => none
  | 0xA => some 0x0#32
  | 0xB => some 0x2#32
  | 0xC => some 0x0#32
  | 0xD => some 0x80#32
  | _ => some 0x0#32

/-- The registers of the time and the date. -/
def timeRegisters : List (BitVec 8) := [0x0#8, 0x2#8, 0x4#8, 0x6#8, 0x7#8, 0x8#8, 0x9#8]

/-- The registers without a default value are those of the time and the date. -/
theorem cmosDefault_eq_none_iff : ∀ addr, cmosDefault addr = none ↔ addr ∈ timeRegisters := by
  decide +kernel

/-- The status shows an update in progress. -/
def Updating (status : BitVec 8) : Prop := status &&& rtcsaTup ≠ 0#8

instance : DecidablePred Updating := fun _ => inferInstanceAs (Decidable (_ ≠ _))

/-! ## State -/

/-- An access of the hypervisor to a physical port. -/
inductive RtcAccess where
  | write (port : BitVec 16) (value : BitVec 8)
  | read (port : BitVec 16)

/-- A write of a guest to one of its two ports. -/
structure RtcWrite (C : Type*) where
  vcpu : C
  port : BitVec 16
  width : ℕ
  value : BitVec 32

/-- Where a vCPU is in `cmos_get_reg_val`. -/
inductive CmosPc where
  /-- before `spinlock_obtain` -/
  | obtain
  /-- in `cmos_update_in_progress`, before `pio_write8` -/
  | selectStatus (tries : ℤ)
  /-- in `cmos_update_in_progress`, before `pio_read8` -/
  | readStatus (tries : ℤ)
  /-- in `cmos_read(addr)`, before `pio_write8` -/
  | selectReg
  /-- in `cmos_read(addr)`, before `pio_read8` -/
  | readReg
  /-- before `spinlock_release`, with `*value`, `none` where `result` is false -/
  | release (result : Option (BitVec 32))
  deriving DecidableEq

/-- A call of `vrtc_read` that reads the physical RTC: where it is and `offset`. Besides, what the
guests had written before the call, when the lock was obtained and the status that each poll saw. -/
structure VrtcCall (C : Type*) where
  pc : CmosPc
  offset : BitVec 8
  writes : List (RtcWrite C)
  start : ℕ
  polls : List (BitVec 8)

/-- What a vCPU does. -/
inductive VrtcVcpu (C : Type*) where
  /-- it runs the guest -/
  | guest
  /-- it reads the physical RTC -/
  | reading (call : VrtcCall C)
  /-- it came to `panic` or to `fatal_error_shutdown_vm` -/
  | stopped

/-- How `vrtc_read` ends. -/
inductive VrtcOutcome where
  | value (v : BitVec 32)
  | panic
  | shutdownVm
  deriving DecidableEq

/-- A read of a guest that has ended, with what the guests had written before it and, where it read
the physical RTC, when the lock was obtained and the polls. -/
structure VrtcRead (C : Type*) where
  vcpu : C
  port : BitVec 16
  writes : List (RtcWrite C)
  start : ℕ
  polls : List (BitVec 8)
  outcome : VrtcOutcome

/-- The RTC of the VMs `V` with the vCPUs `C`, and the physical one: the register that is selected,
and the number of reads of its data port. The writes and the reads of the guests and the accesses
to the physical ports are recorded, the last write first. -/
structure VrtcState (C V : Type*) where
  vrtcOffset : V → BitVec 8
  lock : Option C
  vcpus : C → VrtcVcpu C
  index : BitVec 8
  now : ℕ
  writes : List (RtcWrite C)
  reads : List (VrtcRead C)
  accesses : List RtcAccess

/-- What happens next. -/
inductive VrtcStep (C : Type*) where
  /-- a guest writes to a port: `vrtc_write` -/
  | write (c : C) (port : BitVec 16) (width : ℕ) (value : BitVec 32)
  /-- a guest reads a port: `vrtc_read` up to where it needs the lock -/
  | read (c : C) (port : BitVec 16) (width : ℕ)
  /-- a vCPU in `cmos_get_reg_val` goes on -/
  | run (c : C)

namespace VrtcState

variable {C V : Type*}

/-- `vrtc_init`, for all VMs. -/
def init (index : BitVec 8) : VrtcState C V where
  vrtcOffset := fun _ => 0#8
  lock := none
  vcpus := fun _ => .guest
  index := index
  now := 0
  writes := []
  reads := []
  accesses := []

variable [DecidableEq C] [DecidableEq V] (vm : C → V) (isSafetyVm : V → Bool)
  (rtc : ℕ → BitVec 8 → BitVec 8)

/-- A vCPU comes to another place of its call. -/
def goTo (s : VrtcState C V) (c : C) (call : VrtcCall C) : VrtcState C V :=
  { s with vcpus := Function.update s.vcpus c (.reading call) }

/-- `vrtc_write`. -/
def vrtcWrite (s : VrtcState C V) (c : C) (port : BitVec 16) (width : ℕ) (value : BitVec 32) :
    VrtcState C V :=
  { s with
    vrtcOffset :=
      if width = 1 ∧ port = cmosAddrPort then
        Function.update s.vrtcOffset (vm c) (value.setWidth 8 &&& 0x7F#8)
      else s.vrtcOffset
    writes := ⟨c, port, width, value⟩ :: s.writes }

/-- `vrtc_read`, up to where it needs the lock. -/
def vrtcRead (s : VrtcState C V) (c : C) (port : BitVec 16) : VrtcState C V :=
  let offset := s.vrtcOffset (vm c)
  if port = cmosAddrPort then
    { s with reads := s.reads ++ [⟨c, port, s.writes, s.now, [], .value 0#32⟩] }
  else
    match cmosDefault offset with
    | some value => { s with reads := s.reads ++ [⟨c, port, s.writes, s.now, [], .value value⟩] }
    | none => s.goTo c ⟨.obtain, offset, s.writes, s.now, []⟩

/-- `pio_write8(addr, CMOS_ADDR_PORT)`. -/
def selectRegister (s : VrtcState C V) (addr : BitVec 8) : VrtcState C V :=
  { s with index := addr, accesses := s.accesses ++ [.write cmosAddrPort addr] }

/-- The effect of `pio_read8(CMOS_DATA_PORT)` on the state. -/
def readData (s : VrtcState C V) : VrtcState C V :=
  { s with now := s.now + 1, accesses := s.accesses ++ [.read cmosDataPort] }

/-- Where a poll with the given result leads: another one, the register, or the end. -/
def afterPoll (tries : ℤ) (status : BitVec 8) : CmosPc :=
  if Updating status ∧ tries ≠ 0 then .selectStatus (tries - 1)
  else if tries ≤ 0 then .release none
  else .selectReg

/-- The next step of `cmos_get_reg_val`, and behind it the end of `vrtc_read`. -/
def run (s : VrtcState C V) (c : C) (call : VrtcCall C) : Option (VrtcState C V) :=
  match call.pc with
  | .obtain =>
    if s.lock = none then
      some ({ s with lock := some c }.goTo c
        { call with pc := .selectStatus cmosTries, start := s.now })
    else none
  | .selectStatus tries =>
    some ((s.selectRegister rtcStatusA).goTo c { call with pc := .readStatus tries })
  | .readStatus tries =>
    let status := rtc s.now s.index
    some (s.readData.goTo c
      { call with pc := afterPoll tries status, polls := call.polls ++ [status] })
  | .selectReg => some ((s.selectRegister call.offset).goTo c { call with pc := .readReg })
  | .readReg =>
    some (s.readData.goTo c
      { call with pc := .release (some ((rtc s.now s.index).setWidth 32)) })
  | .release (some value) =>
    some
      { s with
        lock := none
        vcpus := Function.update s.vcpus c .guest
        reads := s.reads ++
          [⟨c, cmosDataPort, call.writes, call.start, call.polls, .value value⟩] }
  | .release none =>
    some
      { s with
        lock := none
        vcpus := Function.update s.vcpus c .stopped
        reads := s.reads ++ [⟨c, cmosDataPort, call.writes, call.start, call.polls,
          if isSafetyVm (vm c) then .panic else .shutdownVm⟩] }

/-- One step, where the vCPU can take it. Guests have both ports and accesses of 1, 2 and 4
bytes. -/
def step (s : VrtcState C V) : VrtcStep C → Option (VrtcState C V)
  | .write c port width value =>
    match s.vcpus c with
    | .guest =>
      if (port = cmosAddrPort ∨ port = cmosDataPort) ∧ (width = 1 ∨ width = 2 ∨ width = 4) then
        some (s.vrtcWrite vm c port width value)
      else none
    | _ => none
  | .read c port width =>
    match s.vcpus c with
    | .guest =>
      if (port = cmosAddrPort ∨ port = cmosDataPort) ∧ (width = 1 ∨ width = 2 ∨ width = 4) then
        some (s.vrtcRead vm c port)
      else none
    | _ => none
  | .run c =>
    match s.vcpus c with
    | .reading call => s.run vm isSafetyVm rtc c call
    | _ => none

end VrtcState

/-- The runs of the RTC. The physical RTC gives at its `t`-th read what `rtc t` says of the
register that is selected. -/
def vrtcSystem {C V : Type*} [DecidableEq C] [DecidableEq V] (vm : C → V) (isSafetyVm : V → Bool)
    (rtc : ℕ → BitVec 8 → BitVec 8) : System (VrtcState C V) (VrtcStep C) :=
  .ofFun (fun s => ∃ index, s = .init index) (VrtcState.step vm isSafetyVm rtc)

/-! ## What is to hold

A read is judged by the history that goes along with it: what the guest had written, which polls
were made, and what came back from the physical RTC. -/

/-- The register that a VM has selected: what it last wrote to its address port by an access of one
byte, without the highest bit. -/
def selected {C V : Type*} [DecidableEq V] (vm : C → V) (v : V) : List (RtcWrite C) → BitVec 8
  | [] => 0#8
  | w :: writes =>
    if vm w.vcpu = v ∧ w.width = 1 ∧ w.port = cmosAddrPort then w.value.setWidth 8 &&& 0x7F#8
    else selected vm v writes

/-- The address port gets the number of the status register or of one of the time and the date, and
the data port is only read. -/
def RtcAccess.Allowed : RtcAccess → Prop
  | .write port value => port = cmosAddrPort ∧ (value = rtcStatusA ∨ value ∈ timeRegisters)
  | .read port => port = cmosDataPort

/-- All polls saw an update in progress. -/
def AllUpdating (polls : List (BitVec 8)) : Prop := ∀ p ∈ polls, Updating p

/-- The last poll saw none. -/
def EndsClear (polls : List (BitVec 8)) : Prop := ∃ p, polls.getLast? = some p ∧ ¬Updating p

/-- The polls saw the status at successive reads of the data port. -/
def StatusPolls (rtc : ℕ → BitVec 8 → BitVec 8) (start : ℕ) (polls : List (BitVec 8)) : Prop :=
  polls = (List.range polls.length).map fun i => rtc (start + i) rtcStatusA

/-- The polls of a read that gives up: as many as there are tries saw an update in progress, and so
did one more, unless it was `late`. -/
def GivesUp (late : Prop) (polls : List (BitVec 8)) : Prop :=
  ∃ front last, polls = front ++ [last] ∧ (front.length : ℤ) = cmosTries ∧ AllUpdating front ∧
    (late ∨ Updating last)

section

variable {C V : Type*} [DecidableEq V] (vm : C → V) (rtc : ℕ → BitVec 8 → BitVec 8)

/-- The value of a register of time or date: read behind a poll that saw no update in progress, with
no access of anybody else in between. -/
structure ReadInTime (offset : BitVec 8) (start : ℕ) (polls : List (BitVec 8))
    (value : BitVec 32) : Prop where
  status : StatusPolls rtc start polls
  clear : EndsClear polls
  value : value = (rtc (start + polls.length) offset).setWidth 32

/-- **A read of a guest is right:** the value is that of the register that the VM has selected, a
constant or one of the physical RTC, and a read fails only when the tries are used up. -/
structure VrtcRead.Right (late : Prop) (r : VrtcRead C) : Prop where
  port : r.port = cmosAddrPort ∨ r.port = cmosDataPort
  value : ∀ v, r.outcome = .value v →
    (r.port = cmosAddrPort → v = 0#32) ∧
    (r.port = cmosDataPort →
      (∀ d, cmosDefault (selected vm (vm r.vcpu) r.writes) = some d → v = d) ∧
      (selected vm (vm r.vcpu) r.writes ∈ timeRegisters →
        ReadInTime rtc (selected vm (vm r.vcpu) r.writes) r.start r.polls v))
  failed : (∀ v, r.outcome ≠ .value v) → GivesUp late r.polls

namespace VrtcState

/-- **The emulation of the RTC is isolated:** what it does to the physical ports, when it reads a
register of time or date, and what the guests read. -/
structure Isolated (s : VrtcState C V) : Prop where
  accesses : ∀ a ∈ s.accesses, a.Allowed
  hold : ∀ c call, s.vcpus c = .reading call → call.pc = .readReg →
    s.lock = some c ∧ EndsClear call.polls ∧ s.index = call.offset
  reads : ∀ r ∈ s.reads, r.Right vm rtc True

/-- A read fails only if all its polls saw an update in progress. -/
def OnlyTimeouts (s : VrtcState C V) : Prop :=
  ∀ r ∈ s.reads, (∀ v, r.outcome ≠ .value v) → AllUpdating r.polls

/-- No update of the physical RTC ends right before the poll behind the last try. -/
def PollsInTime (s : VrtcState C V) : VrtcStep C → Prop
  | .run c => ∀ call, s.vcpus c = .reading call → call.pc = .readStatus 0 →
      Updating (rtc s.now s.index)
  | _ => True

end VrtcState

end

/-! ## The invariant

Only the holder of the lock is at the physical ports, and the address port has the register that
the holder selected. What it has polled so far is in its own record. -/

section

variable {C V : Type*} [DecidableEq V] (vm : C → V) (rtc : ℕ → BitVec 8 → BitVec 8)

/-- The loop over polls, with so many tries left. -/
structure VrtcCall.Polling (now : ℕ) (call : VrtcCall C) (tries : ℤ) : Prop where
  now : now = call.start + call.polls.length
  status : StatusPolls rtc call.start call.polls
  left : tries = cmosTries - call.polls.length
  nonneg : 0 ≤ tries
  updating : AllUpdating call.polls

/-- What holds where a call is. -/
def VrtcCall.At (late : Prop) (now : ℕ) (index : BitVec 8) (call : VrtcCall C) : Prop :=
  match call.pc with
  | .obtain => call.polls = []
  | .selectStatus tries => call.Polling rtc now tries
  | .readStatus tries => call.Polling rtc now tries ∧ index = rtcStatusA
  | .selectReg =>
    now = call.start + call.polls.length ∧ StatusPolls rtc call.start call.polls ∧
      EndsClear call.polls
  | .readReg =>
    now = call.start + call.polls.length ∧ StatusPolls rtc call.start call.polls ∧
      EndsClear call.polls ∧ index = call.offset
  | .release (some value) => ReadInTime rtc call.offset call.start call.polls value
  | .release none => GivesUp late call.polls

/-- A call reads the register that the VM had selected, one of time or date. -/
structure VrtcCall.Ok (late : Prop) (now : ℕ) (index : BitVec 8) (c : C) (call : VrtcCall C) :
    Prop where
  offset : call.offset = selected vm (vm c) call.writes
  time : call.offset ∈ timeRegisters
  here : call.At rtc late now index

/-- The vCPU is between `spinlock_obtain` and `spinlock_release`. -/
def VrtcVcpu.Holds : VrtcVcpu C → Prop
  | .reading call => call.pc ≠ .obtain
  | _ => False

namespace VrtcState

/-- The invariant of the runs: the offsets are those of the history, only the holder of the lock is
with the physical RTC, and each call and each read is right. -/
structure Inv (late : Prop) (s : VrtcState C V) : Prop where
  offset : ∀ v, s.vrtcOffset v = selected vm v s.writes
  hold : ∀ c, (s.vcpus c).Holds ↔ s.lock = some c
  calls : ∀ c call, s.vcpus c = .reading call → call.Ok vm rtc late s.now s.index c
  accesses : ∀ a ∈ s.accesses, a.Allowed
  reads : ∀ r ∈ s.reads, r.Right vm rtc late

end VrtcState

end

/-! ## Calls -/

section

variable {C V : Type*} [DecidableEq V] {vm : C → V} {rtc : ℕ → BitVec 8 → BitVec 8} {late : Prop}
  {now now' : ℕ} {index index' : BitVec 8} {c : C} {call : VrtcCall C} {tries : ℤ}

/-- One more poll follows those that were made. -/
theorem StatusPolls.concat {start : ℕ} {polls : List (BitVec 8)} (h : StatusPolls rtc start polls) :
    StatusPolls rtc start (polls ++ [rtc (start + polls.length) rtcStatusA]) := by
  rw [StatusPolls, List.length_append, List.length_singleton, List.range_succ, List.map_append,
    ← show polls = _ from h]
  rfl

theorem AllUpdating.concat {polls : List (BitVec 8)} {status : BitVec 8} (h : AllUpdating polls)
    (hstatus : Updating status) : AllUpdating (polls ++ [status]) := by
  intro p hp
  obtain hp | hp := List.mem_append.mp hp
  · exact h p hp
  · rwa [List.mem_singleton.mp hp]

/-- A vCPU that gives up has seen the bit set in every poll, if polls do not come late. -/
theorem GivesUp.allUpdating {polls : List (BitVec 8)} (h : GivesUp False polls) :
    AllUpdating polls := by
  obtain ⟨front, last, rfl, -, hfront, hlast⟩ := h
  exact hfront.concat (hlast.resolve_left id)

theorem GivesUp.mono {polls : List (BitVec 8)} {late' : Prop} (h : GivesUp late polls)
    (himp : late → late') : GivesUp late' polls := by
  obtain ⟨front, last, hpolls, hlength, hfront, hlast⟩ := h
  exact ⟨front, last, hpolls, hlength, hfront, hlast.imp_left himp⟩

theorem VrtcRead.Right.mono {r : VrtcRead C} {late' : Prop} (h : r.Right vm rtc late)
    (himp : late → late') : r.Right vm rtc late' :=
  ⟨h.port, h.value, fun hno => (h.failed hno).mono himp⟩

/-- A call that waits for the lock does not depend on the physical RTC. -/
theorem VrtcCall.Ok.of_obtain (h : call.Ok vm rtc late now index c) (hpc : call.pc = .obtain) :
    call.Ok vm rtc late now' index' c := by
  have hhere := h.here
  refine ⟨h.offset, h.time, ?_⟩
  rw [VrtcCall.At, hpc] at hhere ⊢
  exact hhere

theorem VrtcCall.Polling.withPc (h : call.Polling rtc now tries) (pc : CmosPc) :
    VrtcCall.Polling rtc now { call with pc := pc } tries :=
  ⟨h.now, h.status, h.left, h.nonneg, h.updating⟩

/-- Whatever a poll shows, the vCPU goes on with the lock that it holds. -/
theorem afterPoll_ne_obtain (tries : ℤ) (status : BitVec 8) :
    VrtcState.afterPoll tries status ≠ .obtain := by
  rw [VrtcState.afterPoll]
  split
  · nofun
  · split <;> nofun

/-- **A poll leads to another one while it sees an update and tries are left, to the register when
it sees none, and to a failure when no try is left**, whatever it sees. -/
theorem VrtcCall.Polling.afterPoll (h : call.Polling rtc now tries)
    (hlate : tries = 0 → late ∨ Updating (rtc now rtcStatusA)) :
    VrtcCall.At rtc late (now + 1) rtcStatusA
      { call with
        pc := VrtcState.afterPoll tries (rtc now rtcStatusA)
        polls := call.polls ++ [rtc now rtcStatusA] } := by
  have hlength : (call.polls ++ [rtc now rtcStatusA]).length = call.polls.length + 1 := by
    rw [List.length_append, List.length_singleton]
  have hstatus : StatusPolls rtc call.start (call.polls ++ [rtc now rtcStatusA]) := by
    rw [h.now]
    exact h.status.concat
  have hnow := h.now
  have hnonneg := h.nonneg
  rw [VrtcCall.At, VrtcState.afterPoll]
  by_cases hgo : Updating (rtc now rtcStatusA) ∧ tries ≠ 0
  · rw [if_pos hgo]
    refine ⟨?_, hstatus, ?_, ?_, h.updating.concat hgo.1⟩
    · rw [hlength, hnow]
      rfl
    · have hleft := h.left
      rw [hlength]
      omega
    · have hne := hgo.2
      omega
  · rw [if_neg hgo]
    by_cases hzero : tries ≤ 0
    · rw [if_pos hzero]
      have htries : tries = 0 := le_antisymm hzero hnonneg
      have hleft := h.left
      exact ⟨call.polls, _, rfl, by omega, h.updating, hlate htries⟩
    · rw [if_neg hzero]
      refine ⟨?_, hstatus, rtc now rtcStatusA, List.getLast?_concat, fun hup => hgo ⟨hup, ?_⟩⟩
      · rw [hlength, hnow]
        rfl
      · omega

end

/-! ## Steps

A step is one of a vCPU that does not hold the lock, and then the physical RTC is not concerned, or
one of the holder. So there are two lemmas about changes of the state, and the steps use them. -/

namespace VrtcState

/-- A vCPU that is past `spinlock_obtain` in a reading holds the lock. -/
theorem holds_of_reading {C V : Type*} {s : VrtcState C V} {c : C} {call : VrtcCall C}
    (hc : s.vcpus c = .reading call) (hin : call.pc ≠ .obtain) : (s.vcpus c).Holds := by
  rw [hc]
  exact hin

section

variable {C V : Type*} [DecidableEq V] {vm : C → V} {rtc : ℕ → BitVec 8 → BitVec 8} {late : Prop}
  {s : VrtcState C V} {c : C}

theorem inv_init (index : BitVec 8) : (init index : VrtcState C V).Inv vm rtc late where
  offset _ := rfl
  hold _ := ⟨nofun, nofun⟩
  calls := nofun
  accesses := nofun
  reads := nofun

/-- Nobody else is between `spinlock_obtain` and `spinlock_release`. -/
theorem Inv.alone (h : s.Inv vm rtc late) (hc : (s.vcpus c).Holds) {d : C} (hne : d ≠ c) :
    ¬(s.vcpus d).Holds := by
  intro hd
  have hlock := ((h.hold c).mp hc).symm.trans ((h.hold d).mp hd)
  exact hne (Option.some.inj hlock).symm

/-- What the invariant is for. -/
theorem Inv.isolated (h : s.Inv vm rtc late) : s.Isolated vm rtc := by
  refine ⟨h.accesses, fun c call hc hpc => ?_, fun r hr => (h.reads r hr).mono fun _ => trivial⟩
  have hhere := (h.calls c call hc).here
  rw [VrtcCall.At, hpc] at hhere
  refine ⟨(h.hold c).mp (holds_of_reading hc ?_), hhere.2.2⟩
  rw [hpc]
  nofun

/-- A write of a guest selects a register of its VM, or is without effect. -/
theorem Inv.vrtcWrite (h : s.Inv vm rtc late) (c : C) (port : BitVec 16) (width : ℕ)
    (value : BitVec 32) : (s.vrtcWrite vm c port width value).Inv vm rtc late := by
  refine ⟨fun v => ?_, h.hold, h.calls, h.accesses, h.reads⟩
  simp only [VrtcState.vrtcWrite, selected]
  by_cases hselects : width = 1 ∧ port = cmosAddrPort
  · rw [if_pos hselects]
    by_cases hv : v = vm c
    · rw [hv, Function.update_self, if_pos ⟨rfl, hselects⟩]
    · rw [Function.update_of_ne hv, if_neg fun hw => hv hw.1.symm]
      exact h.offset v
  · rw [if_neg hselects, if_neg fun hw => hselects hw.2]
    exact h.offset v

/-- A read that ends at once. -/
theorem Inv.record (h : s.Inv vm rtc late) {r : VrtcRead C} (hr : r.Right vm rtc late) :
    Inv vm rtc late { s with reads := s.reads ++ [r] } := by
  refine ⟨h.offset, h.hold, h.calls, h.accesses, fun x hx => ?_⟩
  obtain hx | hx := List.mem_append.mp hx
  · exact h.reads x hx
  · rwa [List.mem_singleton.mp hx]

end

variable {C V : Type*} [DecidableEq C] [DecidableEq V] {vm : C → V} {isSafetyVm : V → Bool}
  {rtc : ℕ → BitVec 8 → BitVec 8} {late : Prop} {s s' : VrtcState C V} {c : C}
  {call call' : VrtcCall C}

/-- **The holder of the lock goes on with the physical RTC.** The calls of the others wait for the
lock. -/
theorem Inv.advance (h : s.Inv vm rtc late) (hc : s.vcpus c = .reading call)
    (hin : call.pc ≠ .obtain) {now : ℕ} {index : BitVec 8} {accesses : List RtcAccess}
    (hacc : ∀ a ∈ accesses, a.Allowed) (hok : call'.Ok vm rtc late now index c)
    (hin' : call'.pc ≠ .obtain) :
    (goTo { s with now := now, index := index, accesses := accesses } c call').Inv vm rtc late := by
  have hholds := holds_of_reading hc hin
  refine ⟨h.offset, fun d => ?_, fun d call_d hd => ?_, hacc, h.reads⟩
  · by_cases hdc : d = c
    · rw [hdc]
      simp only [goTo, Function.update_self]
      exact iff_of_true hin' ((h.hold c).mp hholds)
    · simp only [goTo, Function.update_of_ne hdc]
      exact h.hold d
  · by_cases hdc : d = c
    · rw [hdc] at hd ⊢
      simp only [goTo, Function.update_self, VrtcVcpu.reading.injEq] at hd
      rwa [← hd]
    · simp only [goTo, Function.update_of_ne hdc] at hd
      have hwaits : call_d.pc = .obtain := by
        by_contra hpc
        exact h.alone hholds hdc (holds_of_reading hd hpc)
      exact (h.calls d call_d hd).of_obtain hwaits

/-- The vCPU that obtains the lock is the only one that holds it. -/
theorem Inv.obtain (h : s.Inv vm rtc late) (hc : s.vcpus c = .reading call)
    (hpc : call.pc = .obtain) (hlock : s.lock = none) :
    (goTo { s with lock := some c } c
      { call with pc := .selectStatus cmosTries, start := s.now }).Inv vm rtc late := by
  have hcall := h.calls c call hc
  have hpolls : call.polls = [] := by
    have hhere := hcall.here
    rw [VrtcCall.At, hpc] at hhere
    exact hhere
  have hnobody : ∀ d, ¬(s.vcpus d).Holds := by
    intro d hd
    exact absurd (hlock.symm.trans ((h.hold d).mp hd)) nofun
  refine ⟨h.offset, fun d => ?_, fun d call_d hd => ?_, h.accesses, h.reads⟩
  · by_cases hdc : d = c
    · rw [hdc]
      simp only [goTo, Function.update_self]
      exact iff_of_true nofun trivial
    · simp only [goTo, Function.update_of_ne hdc]
      exact iff_of_false (hnobody d) fun heq => hdc (Option.some.inj heq).symm
  · by_cases hdc : d = c
    · rw [hdc] at hd ⊢
      simp only [goTo, Function.update_self, VrtcVcpu.reading.injEq] at hd
      rw [← hd]
      refine ⟨hcall.offset, hcall.time, ⟨?_, ?_, ?_, by decide, ?_⟩⟩
      · rw [hpolls]
        rfl
      · rw [hpolls]
        rfl
      · rw [hpolls]
        rfl
      · rw [hpolls]
        exact nofun
    · simp only [goTo, Function.update_of_ne hdc] at hd
      exact h.calls d call_d hd

/-- The end of a read, with the lock given back. -/
theorem Inv.release (h : s.Inv vm rtc late) (hc : s.vcpus c = .reading call)
    (hin : call.pc ≠ .obtain) {vcpu : VrtcVcpu C} (hvcpu : vcpu = .guest ∨ vcpu = .stopped)
    {r : VrtcRead C} (hr : r.Right vm rtc late) :
    Inv vm rtc late { s with
      lock := none, vcpus := Function.update s.vcpus c vcpu, reads := s.reads ++ [r] } := by
  have hholds := holds_of_reading hc hin
  have hidle : ¬vcpu.Holds ∧ ∀ call, vcpu ≠ .reading call := by
    obtain rfl | rfl := hvcpu
    · exact ⟨nofun, nofun⟩
    · exact ⟨nofun, nofun⟩
  refine ⟨h.offset, fun d => ?_, fun d call_d hd => ?_, h.accesses, fun x hx => ?_⟩
  · by_cases hdc : d = c
    · rw [hdc]
      simp only [Function.update_self]
      exact iff_of_false hidle.1 nofun
    · simp only [Function.update_of_ne hdc]
      exact iff_of_false (h.alone hholds hdc) nofun
  · by_cases hdc : d = c
    · rw [hdc] at hd
      simp only [Function.update_self] at hd
      exact absurd hd (hidle.2 call_d)
    · simp only [Function.update_of_ne hdc] at hd
      exact h.calls d call_d hd
  · obtain hx | hx := List.mem_append.mp hx
    · exact h.reads x hx
    · rwa [List.mem_singleton.mp hx]

theorem allowed_append {accesses : List RtcAccess} {a : RtcAccess}
    (h : ∀ a ∈ accesses, a.Allowed) (ha : a.Allowed) : ∀ x ∈ accesses ++ [a], x.Allowed := by
  intro x hx
  obtain hx | hx := List.mem_append.mp hx
  · exact h x hx
  · rwa [List.mem_singleton.mp hx]

/-- **A step of `cmos_get_reg_val` keeps the invariant.** -/
theorem Inv.run (h : s.Inv vm rtc late) (hc : s.vcpus c = .reading call)
    (hlate : call.pc = .readStatus 0 → late ∨ Updating (rtc s.now s.index))
    (hrun : s.run vm isSafetyVm rtc c call = some s') : s'.Inv vm rtc late := by
  have hcall := h.calls c call hc
  have hhere := hcall.here
  rw [VrtcState.run] at hrun
  rw [VrtcCall.At] at hhere
  cases hpc : call.pc with
  | obtain =>
    rw [hpc] at hrun
    obtain ⟨hlock, rfl⟩ := of_guard hrun
    exact h.obtain hc hpc hlock
  | selectStatus tries =>
    rw [hpc] at hrun hhere
    obtain rfl := Option.some.inj hrun
    have hpolling : call.Polling rtc s.now tries := hhere
    refine h.advance hc (by rw [hpc]; nofun) (allowed_append h.accesses ⟨rfl, .inl rfl⟩) ?_ nofun
    exact ⟨hcall.offset, hcall.time, hpolling.withPc _, rfl⟩
  | readStatus tries =>
    rw [hpc] at hrun hhere
    obtain rfl := Option.some.inj hrun
    obtain ⟨hpolling, hindex⟩ : call.Polling rtc s.now tries ∧ s.index = rtcStatusA := hhere
    refine h.advance hc (by rw [hpc]; nofun) (allowed_append h.accesses rfl) ?_
      (afterPoll_ne_obtain _ _)
    refine ⟨hcall.offset, hcall.time, ?_⟩
    rw [hindex] at hlate ⊢
    exact hpolling.afterPoll fun hzero => hlate (by rw [hpc, hzero])
  | selectReg =>
    rw [hpc] at hrun hhere
    obtain rfl := Option.some.inj hrun
    refine h.advance hc (by rw [hpc]; nofun)
      (allowed_append h.accesses ⟨rfl, .inr hcall.time⟩) ?_ nofun
    exact ⟨hcall.offset, hcall.time, ⟨hhere.1, hhere.2.1, hhere.2.2, rfl⟩⟩
  | readReg =>
    rw [hpc] at hrun hhere
    obtain rfl := Option.some.inj hrun
    obtain ⟨hnow, hstatus, hclear, hindex⟩ := hhere
    refine h.advance hc (by rw [hpc]; nofun) (allowed_append h.accesses rfl) ?_ nofun
    refine ⟨hcall.offset, hcall.time, hstatus, hclear, ?_⟩
    rw [← hnow, hindex]
  | release result =>
    rw [hpc] at hrun hhere
    have hnotAddr : cmosDataPort ≠ cmosAddrPort := by decide
    cases result with
    | some value =>
      obtain rfl := Option.some.inj hrun
      have hread : ReadInTime rtc call.offset call.start call.polls value := hhere
      refine h.release hc (by rw [hpc]; nofun) (.inl rfl) ⟨.inr rfl, fun v hv => ?_, fun hno => ?_⟩
      · obtain rfl := VrtcOutcome.value.inj hv
        refine ⟨fun hport => absurd hport hnotAddr, fun _ => ⟨fun d hd => ?_, fun _ => ?_⟩⟩
        · have htime := hcall.time
          rw [hcall.offset, ← cmosDefault_eq_none_iff, hd] at htime
          cases htime
        · rwa [hcall.offset] at hread
      · exact absurd rfl (hno value)
    | none =>
      obtain rfl := Option.some.inj hrun
      have hgives : GivesUp late call.polls := hhere
      refine h.release hc (by rw [hpc]; nofun) (.inr rfl)
        ⟨.inr rfl, fun v hv => ?_, fun _ => hgives⟩
      dsimp only at hv
      split at hv <;> cases hv

/-- A call of `cmos_get_reg_val` for a register without a default value. -/
theorem Inv.enter (h : s.Inv vm rtc late) (hc : s.vcpus c = .guest)
    (hnone : cmosDefault (s.vrtcOffset (vm c)) = none) :
    (s.goTo c ⟨.obtain, s.vrtcOffset (vm c), s.writes, s.now, []⟩).Inv vm rtc late := by
  have hnot : s.lock ≠ some c := by
    intro hlock
    have hholds := (h.hold c).mpr hlock
    rw [hc] at hholds
    exact hholds
  refine ⟨h.offset, fun d => ?_, fun d call_d hd => ?_, h.accesses, h.reads⟩
  · by_cases hdc : d = c
    · rw [hdc]
      simp only [goTo, Function.update_self]
      exact iff_of_false (fun hne => hne rfl) hnot
    · simp only [goTo, Function.update_of_ne hdc]
      exact h.hold d
  · by_cases hdc : d = c
    · rw [hdc] at hd ⊢
      simp only [goTo, Function.update_self, VrtcVcpu.reading.injEq] at hd
      rw [← hd]
      exact ⟨h.offset (vm c), (cmosDefault_eq_none_iff _).mp hnone, rfl⟩
    · simp only [goTo, Function.update_of_ne hdc] at hd
      exact h.calls d call_d hd

/-- A read of one of the two ports is answered at once, or it starts a reading of the physical
RTC. -/
theorem Inv.vrtcRead (h : s.Inv vm rtc late) (hc : s.vcpus c = .guest) {port : BitVec 16}
    (hport : port = cmosAddrPort ∨ port = cmosDataPort) :
    (s.vrtcRead vm c port).Inv vm rtc late := by
  have hnotAddr : cmosDataPort ≠ cmosAddrPort := by decide
  rw [VrtcState.vrtcRead]
  obtain rfl | rfl := hport
  · rw [if_pos rfl]
    refine h.record ⟨.inl rfl, fun v hv => ⟨fun _ => ?_, fun heq => ?_⟩, fun hno => ?_⟩
    · exact (VrtcOutcome.value.inj hv).symm
    · exact absurd heq.symm hnotAddr
    · exact absurd rfl (hno 0#32)
  · rw [if_neg hnotAddr]
    cases hdefault : cmosDefault (s.vrtcOffset (vm c)) with
    | none => exact h.enter hc hdefault
    | some value =>
      rw [h.offset (vm c)] at hdefault
      refine h.record ⟨.inr rfl, fun v hv => ⟨fun heq => ?_, fun _ => ⟨fun d hd => ?_, ?_⟩⟩,
        fun hno => ?_⟩
      · exact absurd heq hnotAddr
      · obtain rfl := VrtcOutcome.value.inj hv
        exact Option.some.inj (hdefault.symm.trans hd)
      · intro htime
        have hnone := (cmosDefault_eq_none_iff _).mpr htime
        exact absurd (hdefault.symm.trans hnone) nofun
      · exact absurd rfl (hno value)

/-- **Every step keeps the invariant**, where polls behind the last try are allowed to see no update
only if `late`. -/
theorem Inv.step (h : s.Inv vm rtc late) {a : VrtcStep C} (hlate : late ∨ s.PollsInTime rtc a)
    (hstep : s.step vm isSafetyVm rtc a = some s') : s'.Inv vm rtc late := by
  cases a with
  | write c port width value =>
    rw [VrtcState.step] at hstep
    split at hstep
    · obtain ⟨-, rfl⟩ := of_guard hstep
      exact h.vrtcWrite c port width value
    · cases hstep
  | read c port width =>
    rw [VrtcState.step] at hstep
    split at hstep
    · next hc =>
      obtain ⟨hguard, rfl⟩ := of_guard hstep
      exact h.vrtcRead hc hguard.1
    · cases hstep
  | run c =>
    rw [VrtcState.step] at hstep
    split at hstep
    · next call hc => exact h.run hc (fun hpc => hlate.imp_right fun hok => hok call hc hpc) hstep
    · cases hstep

/-- The invariant holds in every run. -/
theorem inv_of_reach {Ok : VrtcState C V → VrtcStep C → Prop}
    (hok : ∀ s a, Ok s a → late ∨ s.PollsInTime rtc a)
    (h : Reach (vrtcSystem vm isSafetyVm rtc) Ok s) : s.Inv vm rtc late := by
  refine h.invariant ?_ fun s a s' hs hstep hinv => hinv.step (hok s a hs) hstep
  rintro s ⟨index, rfl⟩
  exact inv_init index

end VrtcState

section

variable {C V : Type*} [DecidableEq C] [DecidableEq V]

/-- **The RTC of the VMs is isolated.** In every run the physical index port gets only the numbers
of the status register and of the registers of time and date, which are read behind a clear poll and
under the lock, and the guests read what they have selected. Where no update ends right before the
poll behind the last try, a read fails only when all its polls saw one. -/
theorem vrtc_isolated (vm : C → V) (isSafetyVm : V → Bool) (rtc : ℕ → BitVec 8 → BitVec 8) :
    (∀ s, Reach (vrtcSystem vm isSafetyVm rtc) any s → s.Isolated vm rtc) ∧
    ∀ s, Reach (vrtcSystem vm isSafetyVm rtc) (VrtcState.PollsInTime rtc) s →
      s.Isolated vm rtc ∧ s.OnlyTimeouts := by
  constructor
  · intro s h
    have hinv : s.Inv vm rtc True := VrtcState.inv_of_reach (fun _ _ _ => .inl trivial) h
    exact hinv.isolated
  · intro s h
    have hinv : s.Inv vm rtc False := VrtcState.inv_of_reach (fun _ _ hok => .inr hok) h
    exact ⟨hinv.isolated, fun r hr hno => ((hinv.reads r hr).failed hno).allUpdating⟩

/-! ## Two runs -/

namespace VrtcState

instance (rtc : ℕ → BitVec 8 → BitVec 8) (s : VrtcState C V) (a : VrtcStep C) :
    Decidable (s.PollsInTime rtc a) :=
  match a with
  | .write _ _ _ _ => .isTrue trivial
  | .read _ _ _ => .isTrue trivial
  | .run c =>
    match hc : s.vcpus c with
    | .guest => .isTrue fun _ h => absurd (hc.symm.trans h) nofun
    | .stopped => .isTrue fun _ h => absurd (hc.symm.trans h) nofun
    | .reading call =>
      decidable_of_iff (call.pc = .readStatus 0 → Updating (rtc s.now s.index))
        ⟨fun h _ h' => VrtcVcpu.reading.inj (hc.symm.trans h') ▸ h, fun h => h call hc⟩

end VrtcState

end

/-- The first poll sees an update, and the registers of the time hold 12h. -/
def rtcSample (t : ℕ) (addr : BitVec 8) : BitVec 8 :=
  if addr = rtcStatusA then if t = 0 then 0x80#8 else 0#8 else 0x12#8

/-- One VM reads the hours while the other one reads a constant and tries to read the year. -/
def vrtcSteps : List (VrtcStep Bool) :=
  [.write false cmosAddrPort 1 0x04#32, .write true cmosAddrPort 2 0x0B09#32,
    .write true cmosAddrPort 1 0x8B#32, .read false cmosDataPort 1, .run false,
    .read true cmosDataPort 4, .write true cmosAddrPort 1 0x09#32, .run false,
    .read true cmosDataPort 1, .run false, .run false, .run false, .run false, .run false,
    .run false, .run true]

/-- The hours are read at the second poll. -/
theorem vrtc_isolated_two :
    ∃ s : VrtcState Bool Bool,
      s.reads.map (·.outcome) = [.value 0x2#32, .value 0x12#32] ∧ s.Isolated id rtcSample ∧
        s.OnlyTimeouts := by
  obtain ⟨s, hrun, hreads⟩ : ∃ s : VrtcState Bool Bool,
      vrtcSteps.foldlM (guarded (VrtcState.PollsInTime rtcSample)
        (VrtcState.step id (fun _ => false) rtcSample)) (.init 0#8) = some s ∧
      s.reads.map (·.outcome) = [.value 0x2#32, .value 0x12#32] := ⟨_, rfl, by decide⟩
  have hinit : Reach (vrtcSystem (id : Bool → Bool) (fun _ => false) rtcSample)
      (VrtcState.PollsInTime rtcSample) (.init 0#8) := .init ⟨0#8, rfl⟩
  have hreach := hinit.foldlM vrtcSteps hrun
  obtain ⟨hall, hintime⟩ := vrtc_isolated (id : Bool → Bool) (fun _ => false) rtcSample
  exact ⟨s, hreads, hall s (hreach.mono fun _ _ _ => trivial), (hintime s hreach).2⟩

/-- The update ends right before the poll behind the last try. -/
def rtcLate (t : ℕ) (_ : BitVec 8) : BitVec 8 := if t < 3000 then 0x80#8 else 0#8

namespace VrtcState

section

variable {C V : Type*} [DecidableEq C] [DecidableEq V] {vm : C → V} {isSafetyVm : V → Bool}
  {rtc : ℕ → BitVec 8 → BitVec 8} {s : VrtcState C V} {c : C} {call : VrtcCall C}

/-- The two steps of a poll. -/
theorem reach_poll {tries : ℤ} (h : Reach (vrtcSystem vm isSafetyVm rtc) any s)
    (hc : s.vcpus c = .reading call) (hpc : call.pc = .selectStatus tries) :
    ∃ s', Reach (vrtcSystem vm isSafetyVm rtc) any s' ∧ s'.now = s.now + 1 ∧
      s'.reads = s.reads ∧
      s'.vcpus c = .reading
        { call with
          pc := afterPoll tries (rtc s.now rtcStatusA)
          polls := call.polls ++ [rtc s.now rtcStatusA] } := by
  let s₁ := (s.selectRegister rtcStatusA).goTo c { call with pc := .readStatus tries }
  have hc₁ : s₁.vcpus c = .reading { call with pc := .readStatus tries } :=
    Function.update_self _ _ _
  have hstep : s.step vm isSafetyVm rtc (.run c) = some s₁ := by
    rw [step, hc]
    dsimp only
    rw [run, hpc]
  have hstep' : s₁.step vm isSafetyVm rtc (.run c) = some (s₁.readData.goTo c
      { call with
        pc := afterPoll tries (rtc s.now rtcStatusA)
        polls := call.polls ++ [rtc s.now rtcStatusA] }) := by
    rw [step, hc₁]
    rfl
  exact ⟨_, (h.step trivial hstep).step trivial hstep', rfl, rfl, Function.update_self _ _ _⟩

end

/-- The call of the guest after some polls. -/
def lateCall (polls : ℕ) : VrtcCall Unit :=
  ⟨.selectStatus (cmosTries - polls), 0#8, [], 0, List.replicate polls 0x80#8⟩

theorem reach_lateCall (k : ℕ) (hk : k ≤ 3000) :
    ∃ s : VrtcState Unit Unit, Reach (vrtcSystem id (fun _ => false) rtcLate) any s ∧
      s.now = k ∧ s.reads = [] ∧ s.vcpus () = .reading (lateCall k) := by
  induction k with
  | zero =>
    have hinit : Reach (vrtcSystem (id : Unit → Unit) (fun _ => false) rtcLate) any
        (.init 0#8) := .init ⟨0#8, rfl⟩
    exact ⟨_, hinit.foldlM [.read () cmosDataPort 1, .run ()] rfl, rfl, rfl, rfl⟩
  | succ k ih =>
    obtain ⟨s, hreach, hnow, hreads, hcall⟩ := ih (by omega)
    obtain ⟨s', hreach', hnow', hreads', hcall'⟩ := reach_poll hreach hcall rfl
    have hstatus : rtcLate s.now rtcStatusA = 0x80#8 := by
      rw [rtcLate, hnow, if_pos (by omega)]
    have hgo : afterPoll (cmosTries - k) 0x80#8 = .selectStatus (cmosTries - (k + 1 : ℕ)) := by
      have hne : cmosTries - (k : ℤ) ≠ 0 := by
        have htries : cmosTries = 3000 := rfl
        omega
      have hleft : cmosTries - (k : ℤ) - 1 = cmosTries - (k + 1 : ℕ) := by omega
      rw [afterPoll, if_pos ⟨by decide, hne⟩, hleft]
    refine ⟨s', hreach', by rw [hnow', hnow], hreads'.trans hreads, hcall'.trans ?_⟩
    rw [hstatus, lateCall, lateCall, hgo, List.replicate_succ']

end VrtcState

/-- The update has ended, as the last poll sees, and the VM is shut down. -/
theorem vrtc_not_isolated :
    ¬∀ s : VrtcState Unit Unit, Reach (vrtcSystem id (fun _ => false) rtcLate) any s →
      s.Isolated id rtcLate ∧ s.OnlyTimeouts := by
  intro hall
  obtain ⟨s, hreach, hnow, hreads, hcall⟩ := VrtcState.reach_lateCall 3000 (by omega)
  obtain ⟨s', hreach', -, hreads', hcall'⟩ := VrtcState.reach_poll hreach hcall rfl
  have hstatus : rtcLate s.now rtcStatusA = 0#8 := by
    rw [rtcLate, hnow]
    rfl
  rw [hstatus] at hcall'
  have hstep : s'.step id (fun _ => false) rtcLate (.run ()) = some
      { s' with
        lock := none
        vcpus := Function.update s'.vcpus () .stopped
        reads := s'.reads ++ [⟨(), cmosDataPort, [], 0,
          List.replicate 3000 0x80#8 ++ [0#8], .shutdownVm⟩] } := by
    rw [VrtcState.step, hcall']
    rfl
  have htimeouts := (hall _ (hreach'.step trivial hstep)).2
  have hpolls := htimeouts _ (List.mem_append_right _ (List.mem_singleton_self _)) nofun
  exact absurd (hpolls 0#8 (List.mem_append_right _ (List.mem_singleton_self _))) (by decide)

end Acrn
