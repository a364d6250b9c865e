import Acrn.CfgPorts

/-!
# Legacy interrupts

Whatever a guest writes to configuration space, Interrupt Disable stays set in the command
register of the physical device, and only what `vpci_write_pt_dev_cfg` forwards reaches it.
-/

namespace Acrn

open BitField RegAccess VpciVdev

/-- A device before and after accesses: its physical device has changed in the forwarded registers
at most, and legacy interrupts are masked. -/
structure ForwardedOnly (v v' : VpciVdev) : Prop where
  same : SameShape v v'
  pdev : PciDevice.ChangesOnly v.forwarded v.pdev v'.pdev
  masked : v'.IntxMasked

namespace ForwardedOnly

variable {v v₁ v₂ : VpciVdev}

theorem refl (h : v.IntxMasked) : ForwardedOnly v v := ⟨.refl _, .refl _ _, h⟩

theorem trans (h : ForwardedOnly v v₁) (h' : ForwardedOnly v₁ v₂) : ForwardedOnly v v₂ := by
  have hforwarded : v₁.forwarded = v.forwarded := by
    rw [VpciVdev.forwarded, VpciVdev.forwarded, VpciVdev.hasMsiCap, VpciVdev.hasMsiCap,
      VpciVdev.msiRegs, VpciVdev.msiRegs, h.same.msi]
  exact ⟨h.same.trans h'.same, h.pdev.trans (hforwarded ▸ h'.pdev), h'.masked⟩

/-- A write of the virtual machine to the device. -/
theorem writeVdevCfg (ops : MemoryOps) (m : Machine) (lapicLdr : PcpuId → U32) (vmId : ℕ)
    (s : PtCfg) {offset bytes : ℕ} (haligned : Aligned offset bytes) (val : Reg)
    (h : s.vdev.IntxMasked) :
    ForwardedOnly s.vdev (writeVdevCfg ops m lapicLdr vmId s offset bytes val).vdev := by
  rw [Acrn.writeVdevCfg]
  split
  · exact .refl h
  · have hsame : SameShape s.vdev
        (vpciWritePtDevCfg ops m lapicLdr vmId s offset bytes val).vdev :=
      (vpciWritePtDevCfg_cfg ops m lapicLdr vmId s val).same
    have hpdev : PciDevice.ChangesOnly s.vdev.forwarded s.vdev.pdev
        (vpciWritePtDevCfg ops m lapicLdr vmId s offset bytes val).vdev.pdev :=
      vpciWritePtDevCfg_pdev ops m lapicLdr vmId s val h.msi
    refine ⟨hsame, hpdev, ?_, ?_, ?_⟩
    · intro hcap
      rw [VpciVdev.hasMsiCap, hsame.msi] at hcap
      obtain ⟨hdvd, hle⟩ := h.msi hcap
      exact ⟨hsame.msi ▸ hdvd, hsame.msi ▸ hle⟩
    · rw [hpdev.writable]
      exact h.writable
    · exact vpciWritePtDevCfg_intxdis ops m lapicLdr vmId s val h.msi haligned h.writable h.set

end ForwardedOnly

section

variable {ops : ℕ → MemoryOps} {lapicLdr : PcpuId → U32} {start w : VpciWorld}

/-- A device after an access: it has stayed, or the access was a write to it. -/
theorem emulateIo_vdev (a : PortAccess) (vmId i : ℕ) :
    ((emulateIo ops lapicLdr w a).1.vpci vmId).pciVdevs i = (w.vpci vmId).pciVdevs i ∨
    ∃ offset val, Aligned offset a.req.size ∧
      ((emulateIo ops lapicLdr w a).1.vpci vmId).pciVdevs i =
        (writeVdevCfg (ops vmId) a.m lapicLdr vmId ⟨(w.vpci vmId).pciVdevs i, (w.vpci vmId).ept,
          w.unit⟩ offset a.req.size val).vdev := by
  by_cases hvm : vmId = a.vmId
  · subst hvm
    by_cases hi : Designates (w.vpci a.vmId) (w.vpci a.vmId).addr a.req i
    · have heffect := emulateIo_effect ops lapicLdr w a
      generalize emulateIo ops lapicLdr w a = r at heffect ⊢
      cases heffect with
      | readAddr => exact .inl rfl
      | writeAddr rax haddr => exact absurd hi.data (not_isCfgdataPort haddr)
      | other => exact .inl rfl
      | none => exact .inl (by rw [swapAddr_self])
      | read => exact .inl (by rw [swapAddr_self])
      | write j rax hj =>
        cases hj.found.symm.trans hi.found
        exact .inr ⟨_, _, hi.aligned, by rw [setVdev_pciVdevs, Function.update_self]⟩
    · exact .inl (emulateIo_vdev_of_not a hi)
  · exact .inl (by rw [emulateIo_vpci_of_ne a hvm])

/-- **Legacy interrupts stay masked**, and only what is forwarded reaches the physical device. -/
theorem intx_stays_masked {s : PortRun} {vmId i : ℕ}
    (hinit : ((start.vpci vmId).pciVdevs i).Initialised)
    (hrun : Transition.Reach (portSystem ops lapicLdr start) (fun _ => InPciPorts) s) :
    let vdev := (start.vpci vmId).pciVdevs i
    let vdev' := (s.world.vpci vmId).pciVdevs i
    (vdev'.pdev.reg 1).getLsbD 10 = true ∧
    (∀ r, r ≠ 1 → (vdev.hasMsiCap = true → r ∉ vdev.msiRegs) → vdev'.pdev.reg r = vdev.pdev.reg r) ∧
    (∀ r < 16, r ≠ 1 → vdev'.pdev.reg r = vdev.pdev.reg r) := by
  intro vdev vdev'
  have hmasked : vdev.IntxMasked := hinit.intxMasked
  have hforwarded : ForwardedOnly vdev vdev' := by
    refine hrun.invariant (P := fun s => ForwardedOnly vdev ((s.world.vpci vmId).pciVdevs i))
      (fun s hs => ?_) fun s a s' _ hs h => ?_
    · rw [hs]
      exact .refl hmasked
    · rw [hs]
      have hstep : ((emulateIo ops lapicLdr s.world a).1.vpci vmId).pciVdevs i = _ ∨ _ :=
        emulateIo_vdev a vmId i
      obtain hstays | ⟨offset, val, haligned, hwrite⟩ := hstep
      · dsimp only
        rwa [hstays]
      · dsimp only
        rw [hwrite]
        exact h.trans (.writeVdevCfg _ _ _ _ ⟨_, _, _⟩ haligned _ h.masked)
  have hother : ∀ r, r ≠ 1 → (vdev.hasMsiCap = true → r ∉ vdev.msiRegs) →
      vdev'.pdev.reg r = vdev.pdev.reg r := by
    intro r hone hmsi
    refine hforwarded.pdev.reg r ?_
    rintro (heq | ⟨hcap, hmem⟩)
    · exact hone heq
    · exact hmsi hcap hmem
  refine ⟨hforwarded.masked.set, hother, fun r hr hone => hother r hone fun hcap hmem => ?_⟩
  -- the capability is behind the header
  have hle := (hmasked.msi hcap).le
  have hmem := hmem.1
  omega

end

/-- A device with an MSI capability whose command register can be written. -/
def commandDevice : VpciVdev :=
  let vdev := msiDevice false
  { vdev with
    pdev := { vdev.pdev with writable := Function.update vdev.pdev.writable 1 0x0407#32 } }

theorem commandDevice_conforms : commandDevice.pdev.PciConforms := by
  have hcap : ∀ offset, CapAt commandDevice.pdev offset → offset = 0x40 := by
    intro offset h
    induction h with
    | first hptr => rw [← hptr]; decide
    | next _ hptr hzero _ ih =>
      rw [ih] at hptr
      exact absurd hptr.symm hzero
  refine ⟨by decide, fun offset h => ?_⟩
  rw [hcap offset h]
  decide

/-- The guest asks for legacy interrupts with the two bytes of the command register. -/
theorem intx_stays_masked_command :
    ∃ (vdev : VpciVdev) (s : PortRun),
      Transition.Reach (portSystem uosEpt oneBitLdr (oneDevice vdev)) (fun _ => InPciPorts) s ∧
      s.trace = [portAccess (.write 0x0007#32) pciConfigData 2, selectCommand] ∧
      (((s.world.vpci 0).pciVdevs 0).pdev.reg 1).getLsbD 10 = true := by
  obtain ⟨⟨vdev, ept⟩, hinit⟩ :
      ∃ r, vpciInitPtDev (uosEpt 0) 1 commandDevice ⟨fun _ => 0#64, []⟩ = some r := ⟨_, rfl⟩
  let select := (emulateIo uosEpt oneBitLdr (oneDevice vdev) selectCommand).1
  let unmask := portAccess (.write 0x0007#32) pciConfigData 2
  have hrun : Transition.Reach (portSystem uosEpt oneBitLdr (oneDevice vdev))
      (fun _ => InPciPorts) ⟨(emulateIo uosEpt oneBitLdr select unmask).1, [unmask, selectCommand]⟩ :=
    .step (.step (.init rfl) inPciPorts_selectCommand rfl) ⟨by decide, by decide⟩ rfl
  have hdevice : (((oneDevice vdev).vpci 0).pciVdevs 0).Initialised :=
    ⟨uosEpt 0, 1, commandDevice, _, ept, commandDevice_conforms, rfl, hinit⟩
  exact ⟨vdev, _, hrun, rfl, (intx_stays_masked hdevice hrun).1⟩

end Acrn
