import Acrn.ExitRegs

/-!
# RIP after an exit

A handler that emulates an instruction leaves the length of the instruction alone, or it
queues one exception; any other handler clears the length or queues an exception. An
exception that is injected as a fault clears the length too, so that RIP is advanced over
the instructions that were completed, and over no others.
-/

namespace Acrn

open AccessLog

/-! ## What a handler does to the events

Whether RIP is advanced depends on the length field and on whether a fault is injected. Both can be
told from `Raises`: which exits complete an instruction, and which queue an exception. -/

/-- The pending exception is the same. -/
structure SameExceptions (ev ev' : VcpuEvents) : Prop where
  exception : ev'.exception = ev.exception
  error : ev'.error = ev.error
  excp : ev'.pendingReq .excp = ev.pendingReq .excp
  trpFault : ev'.pendingReq .trpFault = ev.pendingReq .trpFault

/-- What the handler of an exit may do to the events. -/
inductive Raises (ev : VcpuEvents) (onInstruction : Bool) : VcpuEvents → Prop where
  /-- an instruction is completed -/
  | done {ev' : VcpuEvents} : onInstruction = true → SameExceptions ev ev' →
      ev'.instLen = ev.instLen → Raises ev onInstruction ev'
  /-- one exception is queued, and it is a fault -/
  | fault {ev₁ ev' : VcpuEvents} {vector errCode : U32} : vector ∈ [6#32, 13#32, 14#32] →
      SameExceptions ev ev₁ → vcpuQueueException ev₁ vector errCode = some ev' →
      Raises ev onInstruction ev'
  /-- RIP is retained -/
  | retained {ev' : VcpuEvents} : onInstruction = false → SameExceptions ev ev' →
      ev'.instLen = 0#32 → Raises ev onInstruction ev'

section
variable {ev ev' ev₁ : VcpuEvents} {onInstruction : Bool}

theorem SameExceptions.refl (ev : VcpuEvents) : SameExceptions ev ev := ⟨rfl, rfl, rfl, rfl⟩

/-- A request that stands for no exception leaves the exceptions alone. -/
theorem SameExceptions.makeRequest {r : Request} (hr : r ≠ .excp ∧ r ≠ .trpFault) :
    SameExceptions ev (ev.makeRequest r) :=
  ⟨rfl, rfl, VcpuEvents.makeRequest_of_ne hr.1.symm, VcpuEvents.makeRequest_of_ne hr.2.symm⟩

/-- Consistency is about the exceptions alone. -/
theorem SameExceptions.consistent (h : SameExceptions ev ev') (hev : ev.Consistent) :
    ev'.Consistent := hev.congr h.exception h.error h.excp

theorem Raises.of_eq (h : ev' = ev) : Raises ev true ev' := by
  subst h
  exact .done rfl (.refl ev') rfl

/-- A flush of the EPT is requested, or nothing happens. -/
theorem Raises.of_flush {c : Prop} [Decidable c]
    (h : ev' = if c then ev.makeRequest .eptFlush else ev) : Raises ev true ev' := by
  split at h
  · exact .done rfl (h ▸ .makeRequest (by decide)) (by rw [h]; rfl)
  · exact .of_eq h

/-- #UD, #GP and #PF are faults, and none of them is the double fault. -/
theorem fault_vector_lt {vector : U32} (h : vector ∈ [6#32, 13#32, 14#32]) :
    vector.toNat < 32 ∧ vector ≠ 8#32 ∧ getExceptionType vector = .fault := by
  simp only [List.mem_cons, List.not_mem_nil, or_false] at h
  rcases h with rfl | rfl | rfl <;> decide

/-- There is always room for a fault. -/
theorem Raises.queue {vector errCode : U32} (hv : vector ∈ [6#32, 13#32, 14#32])
    (hsame : SameExceptions ev ev₁) :
    Raises ev onInstruction ((vcpuQueueException ev₁ vector errCode).getD ev₁) := by
  have hsome : ∃ ev', vcpuQueueException ev₁ vector errCode = some ev' := by
    rw [vcpuQueueException_eq, exceptionType_eq (fault_vector_lt hv).1]
    cases outcome (eventClass ev₁.exception) (eventClass vector) <;> exact ⟨_, rfl⟩
  obtain ⟨ev', hev'⟩ := hsome
  rw [hev', Option.getD_some]
  exact .fault hv hsame hev'

theorem Raises.injectGp (v : VcpuView) : Raises v.events true v.injectGp.events :=
  .queue (by decide) (.refl _)

/-- The exception and its request still go together. -/
theorem Raises.consistent (h : Raises ev onInstruction ev') (hev : ev.Consistent) :
    ev'.Consistent := by
  cases h with
  | done _ hsame _ => exact hsame.consistent hev
  | fault hv hsame hq =>
    obtain ⟨hlt, h8, -⟩ := fault_vector_lt hv
    obtain ⟨ev'', hq', hc, -⟩ := vcpuQueueException_spec (hsame.consistent hev) hlt
      fun h => absurd h h8
    rw [hq] at hq'
    exact Option.some.inj hq' ▸ hc
  | retained _ hsame _ => exact hsame.consistent hev

end

/-! ## The handlers -/

section
variable {p : Platform} {vcpu : Vcpu}

/-- A write to CR0 ends with a #GP, or with at most a flush of the EPT. -/
theorem vmxWriteCr0_raises (mem : GuestMem) (cr0 : Word) :
    Raises vcpu.events true (vmxWriteCr0 p mem vcpu cr0 false).events := by
  have hview := congrArg VcpuView.events (vmxWriteCr0_view p mem vcpu cr0)
  change (vmxWriteCr0 p mem vcpu cr0 false).events = _ at hview
  rw [hview]
  cases hw : vcpu.view.writeCr0 p mem cr0 with
  | none => exact .injectGp vcpu.view
  | some w =>
    obtain ⟨-, u, hu, rfl⟩ := writeCr0_eq_some hw
    have hevents : u.events = vcpu.events := by
      rcases switchPaging_cases hu with ⟨pdpte, rfl, -⟩ | ⟨-, -, rfl⟩ | ⟨-, rfl⟩ <;> rfl
    exact .of_flush (by rw [← hevents]; rfl)

/-- A write to CR4 ends with a #GP, or with at most a flush of the EPT. -/
theorem vmxWriteCr4_raises (mem : GuestMem) (cr4 : Word) :
    Raises vcpu.events true (vmxWriteCr4 p mem vcpu cr4 false).events := by
  have hview := congrArg VcpuView.events (vmxWriteCr4_view p mem vcpu cr4)
  change (vmxWriteCr4 p mem vcpu cr4 false).events = _ at hview
  rw [hview, VcpuView.writeCr4]
  split
  · split
    · cases hu : vcpu.view.reloadPdptrs p mem cr4 with
      | none => exact .injectGp vcpu.view
      | some u =>
        have hevents : u.events = vcpu.events := by
          rw [VcpuView.reloadPdptrs] at hu
          split at hu
          · obtain ⟨pdpte, rfl⟩ := loadPdptrs_eq_some hu
            rfl
          · obtain rfl := Option.some.inj hu
            rfl
        exact .done rfl (hevents ▸ .makeRequest (by decide)) (by rw [← hevents]; rfl)
    · exact .of_eq rfl
  · exact .injectGp vcpu.view

theorem setTscMsrInterception_events (interception : Bool) :
    (setTscMsrInterception vcpu interception).events = vcpu.events := by
  obtain ⟨_, _, _, h⟩ := setTscMsrInterception_frame vcpu interception
  rw [h]

/-- Apart from PAT, EFER and MISC_ENABLE, the handler queues nothing for a write of an MSR. -/
theorem wrmsrVmexitHandler_events {rdtsc val : Word} {msr : U32} (hpat : msr ≠ msrIa32Pat)
    (hefer : msr ≠ msrIa32Efer) (hmisc : msr ≠ msrIa32MiscEnable) :
    (wrmsrVmexitHandler p rdtsc vcpu msr val).2.events = vcpu.events := by
  have hdeadline : (vlapicSetTscDeadlineMsr vcpu val).events = vcpu.events := by
    rw [vlapicSetTscDeadlineMsr]
    dsimp only
    split <;> rfl
  have hadjust : (setGuestTscAdjust vcpu val).events = vcpu.events :=
    setTscMsrInterception_events _
  have htsc : (setGuestTsc rdtsc vcpu val).events = vcpu.events := setTscMsrInterception_events _
  have hx2apic : (vlapicX2apicWrite vcpu msr val).2.events = vcpu.events := by
    rw [vlapicX2apicWrite]
    split <;> rfl
  simp only [wrmsrVmexitHandler, if_neg hpat, if_neg hefer, if_neg hmisc, apply_ite Prod.snd,
    apply_ite Vcpu.events, hdeadline, hadjust, htsc, hx2apic, ite_self]

/-- Nor does it for a read. -/
theorem rdmsrVmexitHandler_events (msr : U32) :
    (rdmsrVmexitHandler p vcpu msr).2.2.events = vcpu.events := by
  have hdeadline : (vlapicGetTscDeadlineMsr vcpu).2.events = vcpu.events := by
    rw [vlapicGetTscDeadlineMsr]
    split <;> rfl
  simp only [rdmsrVmexitHandler, apply_ite Prod.snd, apply_ite Vcpu.events, hdeadline, ite_self]

theorem wrmsrExit_raises (rdtsc : Word) (msr : U32) (val : Word) :
    Raises vcpu.events true (wrmsrExit p rdtsc vcpu msr val).events := by
  have hview : ∀ {v : VcpuView}, (wrmsrExit p rdtsc vcpu msr val).view = v →
      Raises vcpu.events true v.events → Raises vcpu.events true
        (wrmsrExit p rdtsc vcpu msr val).events := by
    intro v hv h
    subst hv
    exact h
  by_cases hpat : msr = msrIa32Pat
  · subst hpat
    refine hview (wrmsrExit_pat p vcpu rdtsc val) ?_
    rw [VcpuView.writePat]
    split
    · exact .injectGp vcpu.view
    · exact .of_eq rfl
  by_cases hefer : msr = msrIa32Efer
  · subst hefer
    refine hview (wrmsrExit_efer p vcpu rdtsc val) ?_
    rw [VcpuView.writeEfer]
    split
    · exact .of_flush rfl
    · exact .injectGp vcpu.view
  by_cases hmisc : msr = msrIa32MiscEnable
  · subst hmisc
    refine hview (wrmsrExit_miscEnable p vcpu rdtsc val) ?_
    rw [VcpuView.writeMiscEnable]
    split
    · exact .injectGp vcpu.view
    dsimp only
    split
    · exact .done rfl (.makeRequest (by decide)) rfl
    · exact .of_eq rfl
  rw [wrmsrExit]
  dsimp only
  have hevents : (wrmsrVmexitHandler p rdtsc vcpu msr val).2.events = vcpu.events :=
    wrmsrVmexitHandler_events hpat hefer hmisc
  split
  · exact .queue (by decide) (hevents ▸ .refl _)
  · exact .of_eq hevents

end

section
variable {p : Platform} {s s₁ s' : RegContext} {ret : ℤ}

open RegContext

/-- A handler that leaves the events alone, with the exception for its error. -/
theorem finishExit_raises (h : finishExit ret s₁ = some s') {ev : VcpuEvents}
    (hev : s₁.vcpu.events = ev) : Raises ev true s'.vcpu.events := by
  subst hev
  rw [finishExit] at h
  split at h
  · split at h
    · cases h
    · obtain rfl := Option.some.inj h
      exact .queue (by decide) (.refl _)
  · obtain rfl := Option.some.inj h
    exact .of_eq rfl

/-- A handler that succeeds, or finds nothing that it can handle. -/
theorem finishExit_eq (h : finishExit ret s₁ = some s') (hret : ret = 0 ∨ ret = -erange) :
    s' = s₁ := by
  rcases hret with rfl | rfl
  · exact (Option.some.inj h).symm
  · cases h

theorem crAccessVmexitHandler_raises (mem : GuestMem) (exitQual : Word) :
    (s.crAccessVmexitHandler p mem exitQual).1 = 0 ∧
        Raises s.vcpu.events true (s.crAccessVmexitHandler p mem exitQual).2.vcpu.events ∨
      (s.crAccessVmexitHandler p mem exitQual).1 = -erange := by
  rw [RegContext.crAccessVmexitHandler]
  split
  · exact .inl ⟨rfl, vmxWriteCr0_raises mem _⟩
  · exact .inl ⟨rfl, vmxWriteCr4_raises mem _⟩
  · obtain ⟨vcpu, hget, hview⟩ := vcpuGetCr0_spec s.vcpu
    have hevents : vcpu.events = s.vcpu.events := congrArg VcpuView.events hview
    rw [getCr0, hget]
    exact .inl ⟨rfl, hevents ▸ vmxWriteCr0_raises mem _⟩
  · exact .inr rfl

/-- **What a handler does to the events.** -/
theorem dispatch_raises {x : VmExit} (hdispatch : s.dispatch p x = some (ret, s₁))
    (hfinish : finishExit ret s₁ = some s') :
    Raises s.vcpu.events x.OnInstruction s'.vcpu.events := by
  cases x with
  | exception vector =>
    rw [dispatch] at hdispatch
    split at hdispatch
    · obtain ⟨rfl, rfl⟩ := Prod.mk.inj (Option.some.inj hdispatch)
      obtain rfl := finishExit_eq hfinish (.inl rfl)
      exact .queue (by decide) ⟨rfl, rfl, rfl, rfl⟩
    · cases hdispatch
  | initSignal =>
    obtain ⟨rfl, rfl⟩ := Prod.mk.inj (Option.some.inj hdispatch)
    obtain rfl := finishExit_eq hfinish (.inl rfl)
    exact .retained rfl ⟨rfl, rfl, rfl, rfl⟩ rfl
  | taskSwitch exitQual =>
    obtain ⟨rfl, rfl⟩ := Prod.mk.inj (Option.some.inj hdispatch)
    obtain rfl := finishExit_eq hfinish (.inl rfl)
    exact .queue (by decide) (.refl _)
  | cpuid readsCr4 guestCpuid =>
    obtain ⟨rfl, rfl⟩ := Prod.mk.inj (Option.some.inj hdispatch)
    obtain rfl := finishExit_eq hfinish (.inl rfl)
    cases readsCr4
    · exact .of_eq rfl
    · obtain ⟨vcpu, hget, hview⟩ := vcpuGetCr4_spec s.vcpu
      have hevents : vcpu.events = s.vcpu.events := congrArg VcpuView.events hview
      rw [cpuidVmexitHandler, getCr4, hget]
      exact .of_eq hevents
  | invd =>
    obtain ⟨rfl, rfl⟩ := Prod.mk.inj (Option.some.inj hdispatch)
    obtain rfl := finishExit_eq hfinish (.inl rfl)
    exact .queue (by decide) (.refl _)
  | wbinvd =>
    obtain ⟨rfl, rfl⟩ := Prod.mk.inj (Option.some.inj hdispatch)
    obtain rfl := finishExit_eq hfinish (.inl rfl)
    exact .of_eq rfl
  | undefined =>
    obtain ⟨rfl, rfl⟩ := Prod.mk.inj (Option.some.inj hdispatch)
    obtain rfl := finishExit_eq hfinish (.inl rfl)
    exact .queue (by decide) (.refl _)
  | crAccess mem exitQual =>
    have hs₁ := Option.some.inj hdispatch
    rcases crAccessVmexitHandler_raises (p := p) (s := s) mem exitQual with ⟨hret, hraises⟩ | hret
    · rw [hs₁] at hret hraises
      obtain rfl := finishExit_eq hfinish (.inl hret)
      exact hraises
    · rw [hs₁] at hret
      obtain rfl : ret = -erange := hret
      cases hfinish
  | movDr exitQual =>
    obtain ⟨rfl, rfl⟩ := Prod.mk.inj (Option.some.inj hdispatch)
    obtain rfl := finishExit_eq hfinish (.inl rfl)
    rw [movdrVmexitHandler]
    split <;> exact .of_eq rfl
  | ioInstruction exitQual value =>
    refine finishExit_raises hfinish ?_
    obtain rfl := congrArg Prod.snd (Option.some.inj hdispatch)
    rw [pioInstrVmexitHandler]
    split
    · rfl
    split <;> rfl
  | rdmsr =>
    refine finishExit_raises hfinish ?_
    obtain rfl := congrArg Prod.snd (Option.some.inj hdispatch)
    rw [RegContext.rdmsrVmexitHandler]
    dsimp only
    split <;> exact rdmsrVmexitHandler_events _
  | wrmsr rdtsc =>
    obtain ⟨hret, hs₁⟩ := Prod.mk.inj (Option.some.inj hdispatch)
    rw [← hret, ← hs₁] at hfinish
    obtain ⟨msr, val, rfl⟩ := finishExit_wrmsr hfinish
    exact wrmsrExit_raises rdtsc msr val
  | xsetbv =>
    obtain ⟨rfl, rfl⟩ := Prod.mk.inj (Option.some.inj hdispatch)
    obtain rfl := finishExit_eq hfinish (.inl rfl)
    rcases xsetbvVmexitHandler_cases s with h | h
    · rw [h]
      exact .of_eq rfl
    · rw [h]
      exact .queue (by decide) (.refl _)
  | eptViolation exec =>
    obtain ⟨rfl, rfl⟩ := Prod.mk.inj (Option.some.inj hdispatch)
    obtain rfl := finishExit_eq hfinish (.inl rfl)
    cases exec
    · exact .queue (by decide) (.refl _)
    · exact .retained rfl ⟨rfl, rfl, rfl, rfl⟩ rfl
  | unexpected => cases hdispatch

/-- The events after an exit, once the interrupted event is taken over. -/
theorem handleExit_raises {x : VmExit} {info errCode : U32}
    (h : s.handleExit p x info errCode = some s') :
    ∃ ev, vmexitHandler s.vcpu.events info errCode = some ev ∧
      Raises ev x.OnInstruction s'.vcpu.events := by
  obtain ⟨ev, hev, h⟩ := Option.bind_eq_some_iff.mp h
  obtain ⟨⟨ret, s₁⟩, hdispatch, hfinish⟩ := Option.bind_eq_some_iff.mp h
  exact ⟨ev, hev, dispatch_raises hdispatch hfinish⟩

end

/-! ## The instruction length at the next entry

An entry advances RIP by what is in the length field. A handler that completed an instruction
leaves it, and a fault that is injected clears it. -/

section
variable {ev ev' : VcpuEvents} {injected : Bool}

/-- The length of the instruction is cleared exactly where a fault is injected, for the guest is to
execute the instruction again. -/
theorem vcpuInjectException_instLen (h : vcpuInjectException ev = some (injected, ev')) :
    ev'.instLen = if ev.pendingReq .excp = true ∧ getExceptionType ev.exception = .fault then 0#32
      else ev.instLen := by
  by_cases hreq : ev.pendingReq .excp = true
  · rw [vcpuInjectException, if_pos hreq] at h
    obtain ⟨type, -, h⟩ := Option.map_eq_some_iff.mp h
    rw [← (Prod.mk.inj h).2]
    by_cases hfault : getExceptionType ev.exception = .fault
    · simp only [hfault, hreq, and_self, if_true]
    · simp only [hfault, and_false, if_false]
      split <;> rfl
  · rw [vcpuInjectException, if_neg hreq] at h
    rw [← (Prod.mk.inj (Option.some.inj h)).2, if_neg fun h' => hreq h'.1]

theorem VcpuEvents.prepared_instLen : ev.prepared.instLen = ev.instLen := by
  rw [prepared]
  split <;> rfl

/-- A fault that is injected clears the length; nothing else changes it. -/
theorem acrnHandlePendingRequest_instLen (h : acrnHandlePendingRequest ev = some (true, ev')) :
    ev.pendingReq .trpFault = false ∧
      ev'.instLen = if ev.pendingReq .excp = true ∧ getExceptionType ev.exception = .fault
        then 0#32 else ev.instLen := by
  have htrp : ev.pendingReq .trpFault = false := by
    cases htrp : ev.pendingReq .trpFault with
    | false => rfl
    | true =>
      obtain ⟨ev₁, h₁, -⟩ := acrnHandlePendingRequest_shutdown ev htrp
      rw [h₁] at h
      cases h
  refine ⟨htrp, ?_⟩
  rw [acrnHandlePendingRequest_eq ev htrp] at h
  obtain ⟨⟨injected, ev₁⟩, hinj, h⟩ := Option.map_eq_some_iff.mp h
  have hlen := vcpuInjectException_instLen hinj
  rw [VcpuEvents.prepared_pendingReq (.inl rfl), VcpuEvents.prepared_exception,
    VcpuEvents.prepared_instLen] at hlen
  rw [← hlen]
  dsimp only at h
  split at h
  · obtain ⟨-, rfl⟩ := Prod.mk.inj h
    rfl
  split at h
  · obtain ⟨-, rfl⟩ := Prod.mk.inj h
    rfl
  split at h
  · obtain ⟨-, rfl⟩ := Prod.mk.inj h
    rfl
  · obtain ⟨-, rfl⟩ := Prod.mk.inj h
    rfl

/-- What is pending once a fault has been queued. -/
theorem vcpuQueueException_pendingReq {vector errCode : U32} (hv : vector.toNat < 32)
    (h : vcpuQueueException ev vector errCode = some ev')
    (htrp : ev'.pendingReq .trpFault = false) :
    ev'.pendingReq .excp = true ∧ (ev'.exception = vector ∨ ev'.exception = 8#32 ∧
      eventClass ev.exception ≠ .benign) := by
  rw [vcpuQueueException_eq, exceptionType_eq hv] at h
  cases hout : outcome (eventClass ev.exception) (eventClass vector) with
  | serial =>
    rw [hout] at h
    obtain rfl := Option.some.inj h
    exact ⟨VcpuEvents.makeRequest_self, .inl rfl⟩
  | doubleFault =>
    rw [hout] at h
    obtain rfl := Option.some.inj h
    refine ⟨VcpuEvents.makeRequest_self, .inr ⟨rfl, fun hbenign => ?_⟩⟩
    rw [hbenign] at hout
    cases hclass : eventClass vector <;> rw [hclass] at hout <;> cases hout
  | shutdown =>
    rw [hout] at h
    obtain rfl := Option.some.inj h
    rw [VcpuEvents.makeRequest_self] at htrp
    cases htrp

/-- **The length at the entry**: that of the exit, if an instruction was completed. After any
other exit it is zero, a double fault aside. -/
theorem Raises.instLen {ev₁ : VcpuEvents} {onInstruction : Bool} (h : Raises ev onInstruction ev')
    (hnone : onInstruction = true → ev.pendingReq .excp = false ∧ ev.exception = vectorInvalid)
    (hentry : acrnHandlePendingRequest ev' = some (true, ev₁)) :
    (onInstruction = true ∧ ev'.pendingReq .excp = false → ev₁.instLen = ev.instLen) ∧
    (¬ (onInstruction = true ∧ ev'.pendingReq .excp = false) →
      onInstruction = true ∨ ev'.exception ≠ 8#32 → ev₁.instLen = 0#32) := by
  obtain ⟨htrp, hlen⟩ := acrnHandlePendingRequest_instLen hentry
  cases h with
  | done hon hsame hsameLen =>
    have hexcp : ev'.pendingReq .excp = false := hsame.excp.trans (hnone hon).1
    rw [if_neg (by rw [hexcp]; exact fun h' => Bool.noConfusion h'.1)] at hlen
    exact ⟨fun _ => hlen.trans hsameLen, fun h' => absurd ⟨hon, hexcp⟩ h'⟩
  | @fault _ _ vector _ hv hsame hq =>
    obtain ⟨hlt, -, hfault⟩ := fault_vector_lt hv
    obtain ⟨hexcp, hvector⟩ := vcpuQueueException_pendingReq hlt hq htrp
    refine ⟨fun h' => absurd (hexcp.symm.trans h'.2) (by decide), fun _ h8 => ?_⟩
    have hexc : ev'.exception = vector := by
      refine hvector.resolve_right fun ⟨hdf, hclass⟩ => ?_
      rcases h8 with hon | h8
      · -- nothing was pending that the fault could be combined with
        rw [hsame.exception, (hnone hon).2] at hclass
        exact hclass eventClass_invalid
      · exact h8 hdf
    rw [hexc, if_pos ⟨hexcp, hfault⟩] at hlen
    exact hlen
  | retained hon hsame hzero =>
    refine ⟨fun h' => absurd (hon.symm.trans h'.1) (by decide), fun _ _ => ?_⟩
    rw [hzero, ite_self] at hlen
    exact hlen

end

/-! ## The loop of a vCPU -/

/-- The states in which `vcpu_thread` comes to the pending requests, from the first one after
the VMCS has been initialised. -/
inductive VcpuTurn (p : Platform) : RegContext → Prop where
  | created {s : RegContext} : s.vcpu.events = VcpuEvents.created → VcpuTurn p s
  /-- another vCPU makes a request -/
  | request {s : RegContext} (r : Request) : r = .nmi ∨ r = .eptFlush → VcpuTurn p s →
      VcpuTurn p { s with vcpu.events := s.vcpu.events.makeRequest r }
  | turn {s s₁ s₂ : RegContext} (guest : GuestRun) (x : VmExit) (info errCode : U32) :
      VcpuTurn p s → s.handlePendingRequest = some (true, s₁) →
      (IsHwException info → IsException (vectoredException info errCode)) →
      (s₁.runVcpu guest).handleExit p x info errCode = some s₂ → VcpuTurn p s₂

section
variable {p : Platform} {s s₁ s₂ s₃ : RegContext} {guest : GuestRun}

theorem runVcpu_events (vcpu : Vcpu) (guest : GuestActivity) :
    (runVcpu vcpu guest).events = guest.events := by
  obtain ⟨v₁, h₁, hv₁⟩ := vcpuGetEfer_spec (enterGuest (flushEfer vcpu) guest)
  obtain ⟨v₂, h₂, hv₂⟩ := vcpuGetCr0_spec v₁
  rw [runVcpu, h₁]
  dsimp only
  rw [h₂]
  exact congrArg VcpuView.events (hv₂.trans hv₁)

/-- The events after an exit. -/
theorem RegContext.runVcpu_events (s : RegContext) (guest : GuestRun) :
    (s.runVcpu guest).vcpu.events = s.vcpu.events.exited guest := by
  have hflush : (flushEfer s.vcpu).events = s.vcpu.events := by
    rw [flushEfer]
    split <;> rfl
  rw [runVcpu_vcpu, Acrn.runVcpu_events, hflush]

theorem exited_sameExceptions (ev : VcpuEvents) (guest : GuestRun) :
    SameExceptions ev (ev.exited guest) := by
  rw [VcpuEvents.exited]
  dsimp only
  cases guest.nmi <;> cases guest.eptFlush <;> exact ⟨rfl, rfl, rfl, rfl⟩

theorem exited_instLen (ev : VcpuEvents) (guest : GuestRun) :
    (ev.exited guest).instLen = guest.instLen := by
  rw [VcpuEvents.exited]
  dsimp only
  cases guest.nmi <;> cases guest.eptFlush <;> rfl

theorem handlePendingRequest_events {ok : Bool} (h : s.handlePendingRequest = some (ok, s₁)) :
    acrnHandlePendingRequest s.vcpu.events = some (ok, s₁.vcpu.events) := by
  obtain ⟨events, hevents, rfl | ⟨val, rfl⟩⟩ := handlePendingRequest_cases h
  · exact hevents
  · rw [hevents, RegContext.setRflags, RegContext.getRflags]
    dsimp only
    split
    · split <;> rfl
    · rfl

/-- An exception and its request go together in every turn. -/
theorem VcpuTurn.consistent (h : VcpuTurn p s) : s.vcpu.events.Consistent := by
  induction h with
  | created h => exact h ▸ VcpuEvents.created_consistent
  | request r hr _ ih =>
    refine (SameExceptions.makeRequest ?_).consistent ih
    rcases hr with rfl | rfl <;> decide
  | turn guest x info errCode _ hentry hinfo hexit ih =>
    obtain ⟨ok, ev, hev, hc, -⟩ := acrnHandlePendingRequest_spec ih
    rw [handlePendingRequest_events hentry] at hev
    obtain ⟨-, rfl⟩ := Prod.mk.inj (Option.some.inj hev)
    obtain ⟨ev', hev', hraises⟩ := handleExit_raises hexit
    rw [RegContext.runVcpu_events] at hev'
    obtain ⟨ev'', hev'', hc', -⟩ := vmexitHandler_spec
      ((exited_sameExceptions _ guest).consistent hc) hinfo
    rw [hev''] at hev'
    obtain rfl := Option.some.inj hev'
    exact hraises.consistent hc'

/-- No exception is pending when the guest is entered. -/
theorem VcpuTurn.entered (h : VcpuTurn p s) (hentry : s.handlePendingRequest = some (true, s₁)) :
    s₁.vcpu.events.pendingReq .excp = false ∧ s₁.vcpu.events.exception = vectorInvalid := by
  obtain ⟨ok, ev, hev, hc, henters, -⟩ := acrnHandlePendingRequest_spec h.consistent
  rw [handlePendingRequest_events hentry] at hev
  obtain ⟨rfl, rfl⟩ := Prod.mk.inj (Option.some.inj hev)
  have hnone : s₁.vcpu.events.pending = .none := by
    rw [VcpuEvents.Enters] at henters
    split at henters
    · exact absurd henters (by decide)
    · exact henters.2.2.2.1
    · exact henters.2.2
  have hge : ¬ s₁.vcpu.events.exception.toNat < 32 := by
    intro hlt
    rw [VcpuEvents.pending] at hnone
    rw [if_pos hlt] at hnone
    split at hnone <;> cases hnone
  exact ⟨Bool.eq_false_iff.mpr fun hreq => hge (hc.request.mp hreq), hc.invalid.resolve_left hge⟩

/-- The length of the instruction at the entry that follows an exit. -/
theorem VcpuTurn.instLen (h : VcpuTurn p s) (hentry : s.handlePendingRequest = some (true, s₁))
    {x : VmExit} {info errCode : U32}
    (hx : x.OnInstruction = true → info &&& vmxIntInfoValid = 0#32)
    (hexit : (s₁.runVcpu guest).handleExit p x info errCode = some s₂)
    (hnext : s₂.handlePendingRequest = some (true, s₃)) :
    (x.OnInstruction = true ∧ s₂.vcpu.events.pendingReq .excp = false →
      s₃.vcpu.events.instLen = guest.instLen) ∧
    (¬ (x.OnInstruction = true ∧ s₂.vcpu.events.pendingReq .excp = false) →
      x.OnInstruction = true ∨ s₂.vcpu.events.exception ≠ 8#32 →
      s₃.vcpu.events.instLen = 0#32) := by
  obtain ⟨hexcp, hexc⟩ := h.entered hentry
  have hsame := exited_sameExceptions s₁.vcpu.events guest
  obtain ⟨ev, hev, hraises⟩ := handleExit_raises hexit
  rw [RegContext.runVcpu_events] at hev
  -- an instruction that exits has interrupted no event
  have hon : x.OnInstruction = true →
      ev = { s₁.vcpu.events.exited guest with idtVectoringInfo := info } := by
    intro hon
    rw [vmexitHandler] at hev
    dsimp only at hev
    rw [if_neg (not_not.mpr (hx hon))] at hev
    exact (Option.some.inj hev).symm
  obtain ⟨hdone, hzero⟩ := hraises.instLen (fun h => by
    rw [hon h]
    exact ⟨hsame.excp.trans hexcp, hsame.exception.trans hexc⟩) (handlePendingRequest_events hnext)
  refine ⟨fun hcompleted => ?_, hzero⟩
  rw [hdone hcompleted, hon hcompleted.1]
  exact exited_instLen _ guest

end

/-! ## Coherence

The interval of calls between an exit and the next entry is that of the handlers. The facts about
registers and those about the length of the instruction meet here. -/

section
variable {p : Platform} {s s₀ s₁ s₂ s₃ : RegContext} {guest : GuestRun}

theorem RegContext.call_set_rip {c : RegCall} {val : Word} (h : .set .rip val ∈ (s.call p c).1) :
    c = .setRip val := by
  cases c with
  | setRip val' =>
    obtain ⟨-, rfl⟩ := Access.set.inj (List.mem_singleton.mp h)
    rfl
  | setCr0 mem val' =>
    rw [RegContext.call] at h
    cases hw : s.vcpu.view.writeCr0 p mem val' <;> simp [hw] at h
  | setCr4 mem val' =>
    rw [RegContext.call] at h
    cases hw : s.vcpu.view.writeCr4 p mem val' <;> simp [hw] at h
  | _ => simp [RegContext.call] at h

/-- Without a call of `vcpu_set_rip` RIP is not set. -/
theorem Interval.not_mem_set_rip {calls : List RegCall} {log : RegLog}
    (h : Interval p s₀ calls log s) (hcalls : ∀ val, .setRip val ∉ calls) (val : Word) :
    .set .rip val ∉ log := by
  induction h with
  | exit => simp
  | call c _ ih =>
    intro hval
    rcases List.mem_append.mp hval with hval | hval
    · exact ih (fun val hval => hcalls val (List.mem_append_left _ hval)) hval
    · exact hcalls val (List.mem_append_right _ (by rw [RegContext.call_set_rip hval]; simp))
  | other _ _ ih => exact ih hcalls

/-- The entry after an interval of calls. -/
theorem Interval.entry {calls : List RegCall} {log : RegLog}
    (h : Interval p (s₁.runVcpu guest) calls log s₂) :
    Answered (s₁.runVcpu guest).held log ∧
      (∀ r, r ≠ .rip → (r = .gpr cpuRegRsp → ∀ val, .setGpreg cpuRegRsp val ∉ calls) →
        s₂.prepareEntry.held r = replay (s₁.runVcpu guest).held log r) ∧
      s₂.prepareEntry.held .rip = replay (s₁.runVcpu guest).held log .rip +
        s₂.vcpu.events.instLen.setWidth 64 := by
  obtain ⟨hok, hregs⟩ := RegContext.runVcpu_exit s₁ guest
  obtain ⟨hok₂, hans, hreplay⟩ := h.spec hok
  rw [hregs] at hans hreplay
  refine ⟨hans, fun r hrip hrsp => ?_, ?_⟩
  · rw [RegContext.prepareEntry_held hok₂, ← hreplay]
    by_cases hr : r = .gpr cpuRegRsp
    · -- RSP was written through `vcpu_set_rsp` only
      have hkept : (s₁.runVcpu guest).RspKept := by
        obtain ⟨-, -, hup, -⟩ := RegContext.runVcpu_launched s₁ guest
        rw [RegContext.RspKept, RegContext.entryRsp, hup, if_neg Bool.false_ne_true,
          RegContext.runVcpu, RegContext.exitGuest]
        exact Function.update_self cpuRegRsp guest.rsp guest.longs
      subst hr
      rw [Function.update_self]
      exact (h.rspKept hkept (hrsp rfl)).symm
    · rw [Function.update_of_ne hr, Function.update_of_ne hrip]
  · rw [RegContext.prepareEntry_held hok₂, ← hreplay, Function.update_of_ne (by simp),
      Function.update_self]

/-- RSP that is written through `vcpu_set_gpreg` alone stays in `run_ctx`. -/
theorem setGpreg_rsp_entry (s : RegContext) (guest : GuestRun) (val : Word) :
    ((s.runVcpu guest).setGpreg cpuRegRsp val).prepareEntry.held (.gpr cpuRegRsp) =
      (s.runVcpu guest).held (.gpr cpuRegRsp) := by
  obtain ⟨hok, -⟩ := RegContext.runVcpu_exit s guest
  obtain ⟨-, -, hup, -⟩ := RegContext.runVcpu_launched s guest
  have hset : ((s.runVcpu guest).setGpreg cpuRegRsp val).CacheOk :=
    ⟨hok.launched, hok.rip, hok.rflags, hok.cr0, hok.cr4, hok.efer⟩
  rw [RegContext.prepareEntry_held hset, Function.update_self, RegContext.entryRsp,
    RegContext.setGpreg, hup]
  rfl

/-- **The registers are coherent.** Between an exit and the next entry every get returns the
value that was set last, or else the one at the exit, and the guest goes on with these values;
of RSP this is said as long as `vcpu_set_gpreg` is not used for it. The handlers of the exits
make such calls, and RIP is advanced after the exits on an instruction that was completed. It
is not after other exits, those aside that are answered with a double fault and were not on
an instruction. -/
theorem register_cache_coherent (p : Platform) {s s₁ : RegContext} (hs : VcpuTurn p s)
    (hentry : s.handlePendingRequest = some (true, s₁)) (guest : GuestRun) :
    (∀ calls log s₂, Interval p (s₁.runVcpu guest) calls log s₂ →
      Answered (s₁.runVcpu guest).held log ∧
      (∀ r, r ≠ .rip → (r = .gpr cpuRegRsp → ∀ val, .setGpreg cpuRegRsp val ∉ calls) →
        s₂.prepareEntry.held r = replay (s₁.runVcpu guest).held log r) ∧
      s₂.prepareEntry.held .rip = replay (s₁.runVcpu guest).held log .rip +
        s₂.vcpu.events.instLen.setWidth 64) ∧
    ∀ x info errCode s₂ s₃, (x.OnInstruction = true → info &&& vmxIntInfoValid = 0#32) →
      (s₁.runVcpu guest).handleExit p x info errCode = some s₂ →
      s₂.handlePendingRequest = some (true, s₃) →
      HandledBy p x.ReadsDrToRsp (s₁.runVcpu guest) s₃ ∧
      (x.OnInstruction = true ∧ s₂.vcpu.events.pendingReq .excp = false →
        s₃.prepareEntry.held .rip =
          (s₁.runVcpu guest).held .rip + guest.instLen.setWidth 64) ∧
      (¬ (x.OnInstruction = true ∧ s₂.vcpu.events.pendingReq .excp = false) →
        x.OnInstruction = true ∨ s₂.vcpu.events.exception ≠ 8#32 →
        s₃.prepareEntry.held .rip = (s₁.runVcpu guest).held .rip) := by
  refine ⟨fun calls log s₂ h => h.entry, fun x info errCode s₂ s₃ hx hexit hnext => ?_⟩
  have hcalls : HandledBy p x.ReadsDrToRsp (s₁.runVcpu guest) s₃ :=
    (handleExit_handledBy hexit).trans (handlePendingRequest_handledBy hnext)
  obtain ⟨calls, log, hint, hsetRip, -⟩ := id hcalls
  obtain ⟨-, -, hrip⟩ := hint.entry
  rw [replay_of_forall_not_mem (hint.not_mem_set_rip hsetRip)] at hrip
  obtain ⟨hdone, hzero⟩ := hs.instLen hentry hx hexit hnext
  refine ⟨hcalls, fun h => ?_, fun h h8 => ?_⟩
  · rw [hrip, hdone h]
  · rw [hrip, hzero h h8]
    exact BitVec.add_zero _

end

/-- A vCPU before its first entry. -/
def freshRegs : RegContext where
  vcpu := initCr0Cr4HostMask typicalPlatform (Vcpu.cleared ⟨0#64, 0#64⟩)
  longs := fun _ => 0#64
  rip := 0#64
  rflags := 2#64
  ripUpdated := true
  rspUpdated := true
  rflagsUpdated := true
  ripCached := false
  rflagsCached := false
  launched := false
  guestRip := 0#64
  guestRsp := 0#64
  guestRflags := 0#64

/-- A guest that executes `CPUID` at `0x1000`. -/
def guestAtCpuid : GuestRun where
  control := {
    cr0 := 0x30#64, cr3 := 0#64, cr4 := 0#64, pdpte := fun _ => 0#64, csAttr := 0x9b#32
    trAttr := 0x8b#32, pcpu := ⟨0#64, 0#64⟩, events := VcpuEvents.created }
  longs := fun _ => 0#64
  rip := 0x1000#64
  rsp := 0x8000#64
  rflags := 2#64
  nmi := false
  eptFlush := false
  instLen := 2#32

theorem register_cache_coherent_cpuid :
    ∃ s₁ s₂ s₃, freshRegs.handlePendingRequest = some (true, s₁) ∧
      (s₁.runVcpu guestAtCpuid).handleExit typicalPlatform
        (.cpuid false fun _ _ => ⟨0x16#32, 0#32, 0#32, 0#32⟩) 0#32 0#32 = some s₂ ∧
      s₂.handlePendingRequest = some (true, s₃) ∧ s₃.prepareEntry.held .rip = 0x1002#64 := by
  refine ⟨_, _, _, rfl, rfl, rfl, ?_⟩
  refine ((register_cache_coherent typicalPlatform (.created (s := freshRegs) rfl) rfl
    guestAtCpuid).2
    (.cpuid false fun _ _ => ⟨0x16#32, 0#32, 0#32, 0#32⟩) 0#32 0#32 _ _ (fun _ => rfl) rfl rfl).2.1
    ⟨rfl, ?_⟩
  rfl

/-- A value that is set in CR0 without `NE` is read back with it. -/
theorem set_cr0_sets_ne :
    ∃ s₁, VcpuTurn typicalPlatform freshRegs ∧ freshRegs.handlePendingRequest = some (true, s₁) ∧
      ¬ Answered (s₁.runVcpu guestAtCpuid).held [.set .cr0 0x11#64, .get .cr0
        ((s₁.runVcpu guestAtCpuid).setCr0 typicalPlatform (fun _ => none) 0x11#64).getCr0.1] := by
  refine ⟨_, .created rfl, rfl, fun h => ?_⟩
  have hget := h [.set .cr0 0x11#64] .cr0 _ [] rfl
  rw [replay_set, Function.update_self] at hget
  exact absurd hget (by decide)

end Acrn
