import Acrn.Vuart
import Acrn.Lib.Pairing
import Acrn.Lib.Transition

/-!
# vUART connections

`init_vuart` and `deinit_vuart` as `create_vm` and `shutdown_vm` call them. A vUART is named by its
place in `vuarts`, and the VM structures are reduced to their `vm_id`, through which the vUARTs of a
VM are found. That id is zero as long as the VM has not been created, so a vUART that is set up
before its target's VM looks among the vUARTs of VM 0. The runs also contain the register accesses
of the guests and the calls of the console.
-/

namespace Acrn

open Pairing Transition

/-- `MAX_VUART_NUM_PER_VM`. -/
abbrev maxVuartNumPerVm : ℕ := 2

theorem neZero_maxVuartNumPerVm : NeZero maxVuartNumPerVm := ⟨by decide⟩

attribute [local instance] neZero_maxVuartNumPerVm

/-- `INVALID_COM_BASE`. -/
def invalidComBase : BitVec 16 := 0#16

/-- A place in `vuarts`, of `n` (`CONFIG_MAX_VM_NUM`) VMs. -/
abbrev VuartId (n : ℕ) : Type := Fin n × Fin maxVuartNumPerVm

/-- `enum vuart_type`. -/
inductive VuartType where
  | vuartLegacyPio
  | vuartPci
  deriving DecidableEq

/-- `struct vuart_config`; `tVuart` is within the range of `vuarts`. -/
structure VuartConfig (n : ℕ) where
  type : VuartType
  portBase : BitVec 16
  tVuart : VuartId n

/-- The VM has such a vUART, and it is one that is supported. -/
def VuartConfig.Usable {n : ℕ} (vuConfig : VuartConfig n) : Prop :=
  vuConfig.type = .vuartLegacyPio ∧ vuConfig.portBase ≠ invalidComBase

instance {n : ℕ} (vuConfig : VuartConfig n) : Decidable vuConfig.Usable :=
  inferInstanceAs (Decidable (_ ∧ _))

/-- `vm_array`, of which `vmId` is the field `vm_id`, and `vuarts`. -/
structure VuartArrays (n : ℕ) where
  vmId : Fin n → Fin n
  vuarts : VuartId n → AcrnVuart (VuartId n)

variable {n : ℕ}

namespace VuartArrays

/-! ## Setup and teardown -/

/-- One vUART changes. -/
def modify (s : VuartArrays n) (u : VuartId n)
    (f : AcrnVuart (VuartId n) → AcrnVuart (VuartId n)) : VuartArrays n :=
  { s with vuarts := Function.update s.vuarts u (f (s.vuarts u)) }

/-- `vu->target_vu` is set. -/
def setTarget (s : VuartArrays n) (u : VuartId n) (targetVu : Option (VuartId n)) :
    VuartArrays n :=
  s.modify u fun vu => { vu with targetVu }

/-- `vuart_register_io_handler`, which has handlers for two vUARTs. -/
def vuartRegisterIoHandler (vuartIdx : ℕ) : Bool :=
  match vuartIdx with
  | 0 => true
  | 1 => true
  | _ => false

/-- `(UART_CLOCK_RATE / BAUD_115200) >> 4`. -/
def baudDivisor : ℕ := (1843200 / 115200) >>> 4

/-- `vuart_setup`. -/
def vuartSetup (s : VuartArrays n) (vuConfig : VuartConfig n) (u : VuartId n) : VuartArrays n :=
  s.modify u fun vu =>
    { vu with
      dll := BitVec.ofNat 8 baudDivisor
      dlh := BitVec.ofNat 8 (baudDivisor >>> 8)
      rxfifo := vu.rxfifo.fifoReset
      txfifo := vu.txfifo.fifoReset
      threIntPending := true
      ier := 0#8
      targetVu := none
      active :=
        if vuConfig.type = .vuartLegacyPio ∧ vuartRegisterIoHandler u.2 = true then true
        else vu.active }

/-- `find_active_target_vuart`: the VM of the target is looked up through its `vm_id`. -/
def findActiveTargetVuart (s : VuartArrays n) (vuConfig : VuartConfig n) : Option (VuartId n) :=
  let targetVu : VuartId n := (s.vmId vuConfig.tVuart.1, vuConfig.tVuart.2)
  if (s.vuarts targetVu).active = true then some targetVu else none

/-- `vuart_setup_connection`. -/
def vuartSetupConnection (s : VuartArrays n) (vuConfig : VuartConfig n) (u : VuartId n) :
    VuartArrays n :=
  if (s.vuarts u).active = true then
    match s.findActiveTargetVuart vuConfig with
    | some tVu =>
      if (s.vuarts tVu).targetVu = none then (s.setTarget u (some tVu)).setTarget tVu (some u)
      else s
    | none => s
  else s

/-- `vuart_deinit_connect`, which is called where there is a target. -/
def vuartDeinitConnect (s : VuartArrays n) (u : VuartId n) : VuartArrays n :=
  match (s.vuarts u).targetVu with
  | some tVu => (s.setTarget tVu none).setTarget u none
  | none => s

/-- The body of the loop of `init_vuart`. The first vUART is the console of the VM and opens no
connection. -/
def initVuartAt (vm : Fin n) (vuConfig : Fin maxVuartNumPerVm → VuartConfig n) (s : VuartArrays n)
    (i : Fin maxVuartNumPerVm) : VuartArrays n :=
  let u : VuartId n := (s.vmId vm, i)
  let s := s.modify u fun vu => { vu with active := false }
  if (vuConfig i).type = .vuartLegacyPio ∧ (vuConfig i).portBase = invalidComBase then s
  else
    let s := s.vuartSetup (vuConfig i) u
    if i.val ≠ 0 then s.vuartSetupConnection (vuConfig i) u else s

/-- `init_vuart`. -/
def initVuart (s : VuartArrays n) (vm : Fin n) (vuConfig : Fin maxVuartNumPerVm → VuartConfig n) :
    VuartArrays n :=
  (List.finRange maxVuartNumPerVm).foldl (initVuartAt vm vuConfig) s

/-- The body of the loop of `deinit_vuart`. -/
def deinitVuartAt (vm : Fin n) (s : VuartArrays n) (i : Fin maxVuartNumPerVm) : VuartArrays n :=
  let u : VuartId n := (s.vmId vm, i)
  (s.modify u fun vu => { vu with active := false }).vuartDeinitConnect u

/-- `deinit_vuart`. -/
def deinitVuart (s : VuartArrays n) (vm : Fin n) : VuartArrays n :=
  (List.finRange maxVuartNumPerVm).foldl (deinitVuartAt vm) s

/-- What `create_vm` does to the two arrays: the VM structure is cleared, its `vm_id` is set, and
the vUARTs are initialized. -/
def createVm (s : VuartArrays n) (vm : Fin n)
    (vuConfig : Fin maxVuartNumPerVm → VuartConfig n) : VuartArrays n :=
  let s := { s with vmId := Function.update s.vmId vm ⟨0, vm.pos⟩ }
  let s := { s with vmId := Function.update s.vmId vm vm }
  s.initVuart vm vuConfig

/-! ## The two tables of the connections

A connection is an entry of the table of targets, in both directions. The functions are shown to do
to that table what the library on pairings does. -/

def active (s : VuartArrays n) (u : VuartId n) : Bool := (s.vuarts u).active

/-- The connections, as the table of the targets. -/
def peer (s : VuartArrays n) (u : VuartId n) : Option (VuartId n) := (s.vuarts u).targetVu

variable {s : VuartArrays n}

/-- A change of one vUART is an update of the table of the active ones, -/
theorem active_modify (u : VuartId n) (f : AcrnVuart (VuartId n) → AcrnVuart (VuartId n)) :
    (s.modify u f).active = Function.update s.active u (f (s.vuarts u)).active := by
  funext w
  by_cases hw : w = u
  · subst hw
    simp only [active, modify, Function.update_self]
  · simp only [active, modify, Function.update_of_ne hw]

/-- and of the table of the targets. -/
theorem peer_modify (u : VuartId n) (f : AcrnVuart (VuartId n) → AcrnVuart (VuartId n)) :
    (s.modify u f).peer = Function.update s.peer u (f (s.vuarts u)).targetVu := by
  funext w
  by_cases hw : w = u
  · subst hw
    simp only [peer, modify, Function.update_self]
  · simp only [peer, modify, Function.update_of_ne hw]

@[simp] theorem vmId_modify (u : VuartId n) (f : AcrnVuart (VuartId n) → AcrnVuart (VuartId n)) :
    (s.modify u f).vmId = s.vmId := rfl

@[simp] theorem vmId_setTarget (u : VuartId n) (t : Option (VuartId n)) :
    (s.setTarget u t).vmId = s.vmId := rfl

@[simp] theorem active_setTarget (u : VuartId n) (t : Option (VuartId n)) :
    (s.setTarget u t).active = s.active := by
  rw [setTarget, active_modify]
  exact Function.update_eq_self u s.active

@[simp] theorem peer_setTarget (u : VuartId n) (t : Option (VuartId n)) :
    (s.setTarget u t).peer = Function.update s.peer u t := by
  rw [setTarget, peer_modify]

theorem vuartRegisterIoHandler_eq : ∀ i : Fin maxVuartNumPerVm,
    vuartRegisterIoHandler i = true := by
  decide

theorem active_vuartSetup (vuConfig : VuartConfig n) (u : VuartId n) :
    (s.vuartSetup vuConfig u).active = Function.update s.active u
      (if vuConfig.type = .vuartLegacyPio then true else s.active u) := by
  rw [vuartSetup, active_modify]
  simp only [vuartRegisterIoHandler_eq, and_true, active]

theorem peer_vuartSetup (vuConfig : VuartConfig n) (u : VuartId n) :
    (s.vuartSetup vuConfig u).peer = Function.update s.peer u none := by
  rw [vuartSetup, peer_modify]

@[simp] theorem vmId_vuartSetup (vuConfig : VuartConfig n) (u : VuartId n) :
    (s.vuartSetup vuConfig u).vmId = s.vmId := rfl

/-- The vUART where the target is looked for. -/
def found (s : VuartArrays n) (vuConfig : VuartConfig n) : VuartId n :=
  (s.vmId vuConfig.tVuart.1, vuConfig.tVuart.2)

/-- The search for the target succeeds where that vUART is active. -/
theorem findActiveTargetVuart_eq (vuConfig : VuartConfig n) : s.findActiveTargetVuart vuConfig =
    if s.active (s.found vuConfig) = true then some (s.found vuConfig) else none := rfl

/-- A connection is made where both vUARTs are active and the target is free. -/
def Connects (s : VuartArrays n) (vuConfig : VuartConfig n) (u : VuartId n) : Prop :=
  s.active u = true ∧ s.active (s.found vuConfig) = true ∧ s.peer (s.found vuConfig) = none

/-- A connection that is made is entered with both vUARTs. -/
theorem vuartSetupConnection_of_connects {vuConfig : VuartConfig n} {u : VuartId n}
    (h : s.Connects vuConfig u) : s.vuartSetupConnection vuConfig u =
      (s.setTarget u (some (s.found vuConfig))).setTarget (s.found vuConfig) (some u) := by
  obtain ⟨hu, hfound, hfree⟩ := h
  have hactive : (s.vuarts u).active = true := hu
  rw [vuartSetupConnection, if_pos hactive, findActiveTargetVuart_eq, if_pos hfound]
  exact if_pos hfree

/-- Otherwise nothing is done. -/
theorem vuartSetupConnection_of_not {vuConfig : VuartConfig n} {u : VuartId n}
    (h : ¬ s.Connects vuConfig u) : s.vuartSetupConnection vuConfig u = s := by
  rw [vuartSetupConnection]
  split
  · next hu =>
    rw [findActiveTargetVuart_eq]
    by_cases hfound : s.active (s.found vuConfig) = true
    · rw [if_pos hfound]
      exact if_neg fun hfree => h ⟨hu, hfound, hfree⟩
    · rw [if_neg hfound]
  · rfl

@[simp] theorem vmId_vuartSetupConnection (vuConfig : VuartConfig n) (u : VuartId n) :
    (s.vuartSetupConnection vuConfig u).vmId = s.vmId := by
  by_cases h : s.Connects vuConfig u
  · rw [vuartSetupConnection_of_connects h, vmId_setTarget, vmId_setTarget]
  · rw [vuartSetupConnection_of_not h]

theorem active_vuartSetupConnection (vuConfig : VuartConfig n) (u : VuartId n) :
    (s.vuartSetupConnection vuConfig u).active = s.active := by
  by_cases h : s.Connects vuConfig u
  · rw [vuartSetupConnection_of_connects h, active_setTarget, active_setTarget]
  · rw [vuartSetupConnection_of_not h]

/-- In the table the connection is the `connect` of the library, -/
theorem peer_vuartSetupConnection {vuConfig : VuartConfig n} {u : VuartId n}
    (h : s.Connects vuConfig u) :
    (s.vuartSetupConnection vuConfig u).peer = connect s.peer u (s.found vuConfig) := by
  rw [vuartSetupConnection_of_connects h, peer_setTarget, peer_setTarget, connect]

/-- A vUART in the loop of `init_vuart` before its connection is opened. -/
def prepared (s : VuartArrays n) (vuConfig : VuartConfig n) (u : VuartId n) : VuartArrays n :=
  let s := s.modify u fun vu => { vu with active := false }
  if vuConfig.type = .vuartLegacyPio ∧ vuConfig.portBase = invalidComBase then s
  else s.vuartSetup vuConfig u

@[simp] theorem vmId_prepared (vuConfig : VuartConfig n) (u : VuartId n) :
    (s.prepared vuConfig u).vmId = s.vmId := by
  rw [prepared]
  split
  · rfl
  · rfl

/-- A vUART that is set up is active exactly if it is usable. -/
theorem active_prepared (vuConfig : VuartConfig n) (u : VuartId n) :
    (s.prepared vuConfig u).active = Function.update s.active u (decide vuConfig.Usable) := by
  rw [prepared]
  split
  · next hinvalid =>
    have hnot : ¬ vuConfig.Usable := fun h => h.2 hinvalid.2
    rw [active_modify, decide_eq_false hnot]
  · next hvalid =>
    rw [active_vuartSetup, active_modify, Function.update_self, Function.update_idem]
    congr 1
    by_cases htype : vuConfig.type = .vuartLegacyPio
    · have husable : vuConfig.Usable := ⟨htype, fun hport => hvalid ⟨htype, hport⟩⟩
      rw [if_pos htype, decide_eq_true husable]
    · have hnot : ¬ vuConfig.Usable := fun h => htype h.1
      rw [if_neg htype, decide_eq_false hnot]

theorem peer_prepared {u : VuartId n} (hfree : s.peer u = none) (vuConfig : VuartConfig n) :
    (s.prepared vuConfig u).peer = s.peer := by
  have hkeep : (s.modify u fun vu => { vu with active := false }).peer = s.peer := by
    rw [peer_modify]
    exact Function.update_eq_self u s.peer
  rw [prepared]
  split
  · exact hkeep
  · rw [peer_vuartSetup, hkeep, ← hfree]
    exact Function.update_eq_self u s.peer

/-- One round of `init_vuart`. A vUART that is not usable is not active and gets no connection. -/
theorem initVuartAt_eq (vm : Fin n) (vuConfig : Fin maxVuartNumPerVm → VuartConfig n)
    (i : Fin maxVuartNumPerVm) : initVuartAt vm vuConfig s i =
      if i.val ≠ 0 then (s.prepared (vuConfig i) (s.vmId vm, i)).vuartSetupConnection (vuConfig i)
        (s.vmId vm, i)
      else s.prepared (vuConfig i) (s.vmId vm, i) := by
  by_cases hinvalid :
      (vuConfig i).type = .vuartLegacyPio ∧ (vuConfig i).portBase = invalidComBase
  · have hnot : ¬ (s.prepared (vuConfig i) (s.vmId vm, i)).Connects (vuConfig i)
        (s.vmId vm, i) := by
      intro h
      have hactive := h.1
      rw [active_prepared, Function.update_self] at hactive
      exact (of_decide_eq_true hactive).2 hinvalid.2
    rw [vuartSetupConnection_of_not hnot, ite_self, initVuartAt, prepared, if_pos hinvalid,
      if_pos hinvalid]
  · rw [initVuartAt, prepared, if_neg hinvalid, if_neg hinvalid]

/-- The vUARTs of a VM that is created: those of its own that are usable are active, the others
are as they were, and then its second vUART opens its connection. -/
theorem createVm_eq (vm : Fin n) (vuConfig : Fin maxVuartNumPerVm → VuartConfig n)
    (hfree : ∀ i, s.peer (vm, i) = none) : ∃ s₁ : VuartArrays n,
      s.createVm vm vuConfig = s₁.vuartSetupConnection (vuConfig 1) (vm, 1) ∧
      s₁.vmId = Function.update s.vmId vm vm ∧ s₁.peer = s.peer ∧
      ∀ w, s₁.active w = if w.1 = vm then decide (vuConfig w.2).Usable else s.active w := by
  set s₀ : VuartArrays n := { s with vmId := Function.update s.vmId vm vm } with hs₀
  have hvm : s₀.vmId vm = vm := Function.update_self vm vm s.vmId
  have hfirst : initVuartAt vm vuConfig s₀ 0 = s₀.prepared (vuConfig 0) (vm, 0) := by
    rw [initVuartAt_eq, hvm]
    exact if_neg (not_not.mpr rfl)
  have hpeer : (s₀.prepared (vuConfig 0) (vm, 0)).peer = s.peer := peer_prepared (s := s₀) (hfree 0) _
  refine ⟨(s₀.prepared (vuConfig 0) (vm, 0)).prepared (vuConfig 1) (vm, 1), ?_, ?_, ?_, ?_⟩
  · have hloop : s.createVm vm vuConfig =
        initVuartAt vm vuConfig (initVuartAt vm vuConfig s₀ 0) 1 := by
      rw [createVm]
      simp only [Function.update_idem]
      rfl
    rw [hloop, hfirst, initVuartAt_eq, vmId_prepared, hvm]
    exact if_pos (by decide)
  · rw [vmId_prepared, vmId_prepared]
  · rw [peer_prepared, hpeer]
    rw [hpeer]
    exact hfree 1
  · rintro ⟨w, i⟩
    rw [active_prepared, active_prepared]
    by_cases hw : w = vm
    · subst hw
      rw [if_pos rfl]
      match i with
      | 0 =>
        have hne : ((w, 0) : VuartId n) ≠ (w, 1) := fun h =>
          absurd (Prod.mk.inj h).2 (by decide)
        rw [Function.update_of_ne hne, Function.update_self]
      | 1 => rw [Function.update_self]
    · have hne : ∀ j, ((w, i) : VuartId n) ≠ (vm, j) := fun j h => hw (congrArg Prod.fst h)
      rw [if_neg hw, Function.update_of_ne (hne 1), Function.update_of_ne (hne 0)]
      rfl

/-! ### Teardown -/

theorem vuartDeinitConnect_active (u : VuartId n) :
    (s.vuartDeinitConnect u).active = s.active := by
  rw [vuartDeinitConnect]
  split
  · rw [active_setTarget, active_setTarget]
  · rfl

/-- and its end the `disconnect`. -/
theorem vuartDeinitConnect_peer (u : VuartId n) :
    (s.vuartDeinitConnect u).peer = disconnect s.peer u := by
  rw [vuartDeinitConnect]
  split
  · next t ht =>
    have hpeer : s.peer u = some t := ht
    rw [peer_setTarget, peer_setTarget, disconnect_of_some hpeer]
  · next hnone =>
    have hpeer : s.peer u = none := hnone
    rw [disconnect_of_none hpeer]

@[simp] theorem vmId_vuartDeinitConnect (u : VuartId n) :
    (s.vuartDeinitConnect u).vmId = s.vmId := by
  rw [vuartDeinitConnect]
  split
  · rfl
  · rfl

@[simp] theorem vmId_deinitVuartAt (vm : Fin n) (i : Fin maxVuartNumPerVm) :
    (deinitVuartAt vm s i).vmId = s.vmId := by
  rw [deinitVuartAt, vmId_vuartDeinitConnect, vmId_modify]

/-- A turn of the loop in `deinit_vuart` makes one vUART inactive, of the VM that `vm_id` stands
for, -/
theorem active_deinitVuartAt (vm : Fin n) (i : Fin maxVuartNumPerVm) :
    (deinitVuartAt vm s i).active = Function.update s.active (s.vmId vm, i) false := by
  rw [deinitVuartAt, vuartDeinitConnect_active, active_modify]

/-- and frees it together with its peer. -/
theorem peer_deinitVuartAt (vm : Fin n) (i : Fin maxVuartNumPerVm) :
    (deinitVuartAt vm s i).peer = disconnect s.peer (s.vmId vm, i) := by
  rw [deinitVuartAt, vuartDeinitConnect_peer, peer_modify]
  congr 1
  exact Function.update_eq_self _ s.peer

/-- The loop of `deinit_vuart`, over any vUARTs of a VM. -/
theorem foldl_deinitVuartAt (vm : Fin n) (is : List (Fin maxVuartNumPerVm)) :
    (is.foldl (deinitVuartAt vm) s).vmId = s.vmId ∧
    (is.foldl (deinitVuartAt vm) s).peer =
      (is.map fun i => (s.vmId vm, i)).foldl disconnect s.peer ∧
    ∀ w, (is.foldl (deinitVuartAt vm) s).active w =
      if w.1 = s.vmId vm ∧ w.2 ∈ is then false else s.active w := by
  induction is generalizing s with
  | nil => exact ⟨rfl, rfl, fun w => (if_neg fun h => absurd h.2 List.not_mem_nil).symm⟩
  | cons i is ih =>
    obtain ⟨hvm, hpeer, hactive⟩ := ih (s := deinitVuartAt vm s i)
    rw [vmId_deinitVuartAt] at hvm hpeer hactive
    refine ⟨hvm, ?_, fun w => ?_⟩
    · rw [List.foldl_cons, hpeer, peer_deinitVuartAt, List.map_cons, List.foldl_cons]
    · rw [List.foldl_cons, hactive, active_deinitVuartAt]
      by_cases hw : w = (s.vmId vm, i)
      · subst hw
        rw [Function.update_self, ite_self, if_pos ⟨rfl, List.mem_cons_self⟩]
      · rw [Function.update_of_ne hw]
        have hiff : w.1 = s.vmId vm ∧ w.2 ∈ i :: is ↔ w.1 = s.vmId vm ∧ w.2 ∈ is := by
          rw [List.mem_cons]
          constructor
          · rintro ⟨hfst, hsnd | hmem⟩
            · exact absurd (Prod.ext hfst hsnd) hw
            · exact ⟨hfst, hmem⟩
          · rintro ⟨hfst, hmem⟩
            exact ⟨hfst, .inr hmem⟩
        simp only [hiff]

theorem vmId_deinitVuart (vm : Fin n) : (s.deinitVuart vm).vmId = s.vmId :=
  (foldl_deinitVuartAt vm _).1

/-- After the loop, none of the vUARTs of that VM is active. -/
theorem active_deinitVuart (vm : Fin n) (w : VuartId n) :
    (s.deinitVuart vm).active w = if w.1 = s.vmId vm then false else s.active w := by
  rw [deinitVuart, (foldl_deinitVuartAt vm _).2.2]
  simp only [List.mem_finRange, and_true]

/-- `deinit_vuart` ends the connections of the vUARTs that the `vm_id` stands for. -/
theorem peer_deinitVuart (h : IsPairing s.peer) (vm : Fin n) {x y : VuartId n} :
    (s.deinitVuart vm).peer x = some y ↔
      s.peer x = some y ∧ x.1 ≠ s.vmId vm ∧ y.1 ≠ s.vmId vm := by
  have hmem : ∀ w : VuartId n,
      w ∈ (List.finRange maxVuartNumPerVm).map (fun i => (s.vmId vm, i)) ↔
        w.1 = s.vmId vm := by
    rintro ⟨w, i⟩
    simp only [List.mem_map, List.mem_finRange, true_and, Prod.mk.injEq, exists_eq_right]
    exact eq_comm
  rw [deinitVuart, (foldl_deinitVuartAt vm _).2.1, foldl_disconnect_eq_some_iff h, hmem, hmem]

end VuartArrays

/-! ## Register accesses

The guests' calls come in between. They change registers and FIFOs, and no connection. -/

section Calls

variable {V : Type*}

/-- What `init_vuart` and `deinit_vuart` decide about a vUART. -/
def AcrnVuart.connection (vu : AcrnVuart V) : Bool × Option V := (vu.active, vu.targetVu)

variable {vu : AcrnVuart V}

/-- A register access does not reach the fields of the connection. -/
theorem connection_writeReg (reg : ℕ) (valueU8 : Byte) :
    (writeReg vu reg valueU8).connection = vu.connection := by
  rcases reg with _ | _ | _ | _ | _ | _ | _ | _ | reg
  all_goals
    unfold writeReg
    split_ifs <;> rfl

theorem connection_vuartRead (offset : ℕ) : (vuartRead vu offset).2.connection = vu.connection := by
  by_cases hdlab : vu.Dlab
  · rw [vuartRead_dlab hdlab]
  · rw [vuartRead_of_not hdlab]
    rcases offset with _ | _ | _ | _ | _ | _ | _ | _ | offset <;> rfl

theorem connection_sendToTarget (valueU8 : Byte) :
    (sendToTarget vu valueU8).connection = vu.connection := by
  rw [sendToTarget]
  split
  · rfl
  · rfl

theorem connection_vuartConsoleTxChars (vu : AcrnVuart V) :
    (vuartConsoleTxChars vu).2.connection = vu.connection := by
  induction vu using vuartConsoleTxChars.induct with
  | case1 vu r hstop =>
    rw [vuartConsoleTxChars, if_pos hstop]
    rfl
  | case2 vu r hgo ih =>
    rw [vuartConsoleTxChars, if_neg hgo]
    exact ih

theorem connection_vuartConsoleRxChars (ch : Byte) :
    (vuartConsoleRxChars vu ch).connection = vu.connection := by
  rw [vuartConsoleRxChars]
  split
  · rfl
  · rfl

variable [DecidableEq V]

/-- So the connections of all vUARTs stay as they are. -/
theorem connection_update {vuarts : V → AcrnVuart V} {u : V} {vu : AcrnVuart V}
    (h : vu.connection = (vuarts u).connection) (w : V) :
    (Function.update vuarts u vu w).connection = (vuarts w).connection := by
  by_cases hw : w = u
  · subst hw
    rw [Function.update_self, h]
  · rw [Function.update_of_ne hw]

/-- No call on a vUART changes a connection. -/
theorem VuartCall.run_connection (vuarts : V → AcrnVuart V) (call : VuartCall V) (w : V) :
    ((call.run vuarts).2 w).connection = (vuarts w).connection := by
  cases call with
  | write u offset value =>
    rw [VuartCall.run, vuartWrite]
    split
    · split
      · exact connection_update (connection_sendToTarget _) w
      · exact connection_update (connection_writeReg _ _) w
    · exact connection_update (connection_writeReg _ _) w
  | read u offset => exact connection_update (connection_vuartRead offset) w
  | putchar u ch =>
    have hput : (vuartPutchar (vuarts u) ch).connection = (vuarts u).connection := rfl
    exact connection_update hput w
  | getchar u =>
    have hget : (vuartGetchar (vuarts u)).2.connection = (vuarts u).connection := rfl
    exact connection_update hget w
  | rxChars u ch => exact connection_update (connection_vuartConsoleRxChars ch) w
  | txChars u => exact connection_update (connection_vuartConsoleTxChars _) w

end Calls

/-! ## Runs -/

/-- A vUART in the zeroed array. -/
def zeroedVuart {V : Type*} : AcrnVuart V where
  ier := 0#8
  lcr := 0#8
  mcr := 0#8
  lsr := 0#8
  msr := 0#8
  fcr := 0#8
  scr := 0#8
  dll := 0#8
  dlh := 0#8
  rxfifo := vuartFifoInit rxBufSize_pos
  txfifo := vuartFifoInit txBufSize_pos
  threIntPending := false
  active := false
  targetVu := none

/-- The two arrays in a run; a VM is up from its creation to its `deinit_vuart`. -/
structure VuartRun (n : ℕ) extends VuartArrays n where
  up : Fin n → Bool

/-- A step of a run. -/
inductive VuartStep (n : ℕ) where
  | createVm (vm : Fin n)
  | deinitVuart (vm : Fin n)
  /-- a register access of a guest, or a call of the console -/
  | call (call : VuartCall (VuartId n))

namespace VuartRun

/-- The zeroed arrays. -/
def zeroed : VuartRun n where
  vmId := fun vm => ⟨0, vm.pos⟩
  vuarts := fun _ => zeroedVuart
  up := fun _ => false

/-- The vUARTs that `vm_configs` gives a VM. -/
def vmConfig (config : VuartId n → VuartConfig n) (vm : Fin n) :
    Fin maxVuartNumPerVm → VuartConfig n := fun i => config (vm, i)

/-- A step; a VM that is up is not created again before it is deinitialized. -/
def step (config : VuartId n → VuartConfig n) (s : VuartRun n) : VuartStep n → Option (VuartRun n)
  | .createVm vm =>
    if s.up vm = false then
      some
        { toVuartArrays := s.toVuartArrays.createVm vm (vmConfig config vm)
          up := Function.update s.up vm true }
    else none
  | .deinitVuart vm =>
    some
      { toVuartArrays := s.toVuartArrays.deinitVuart vm
        up := Function.update s.up vm false }
  | .call call => some { s with vuarts := (call.run s.vuarts).2 }

end VuartRun

/-- The runs from the zeroed arrays, under the configurations of all VMs. -/
def vuartSystem (config : VuartId n → VuartConfig n) : System (VuartRun n) (VuartStep n) :=
  .ofFun (fun s => s = VuartRun.zeroed) (VuartRun.step config)

namespace VuartRun

variable {config : VuartId n → VuartConfig n} {s s' : VuartRun n} {vm : Fin n}
variable {u v w x y : VuartId n}

/-! ## What the connections should be

Two vUARTs are to be connected when each names the other, and only when one of them names the
other. Where bytes go is a matter of the table of targets alone. -/

/-- The configuration of `u` names `v`. -/
def Names (config : VuartId n → VuartConfig n) (u v : VuartId n) : Prop := (config u).tVuart = v

instance : Decidable (Names config u v) := inferInstanceAs (Decidable (_ = _))

/-- The connections are symmetric and as configured. -/
structure ConnectionsOk (config : VuartId n → VuartConfig n) (s : VuartRun n) : Prop where
  symm : ∀ {u v}, s.peer u = some v → s.peer v = some u
  ne : ∀ {u v}, s.peer u = some v → u ≠ v
  active : ∀ {u v}, s.peer u = some v → s.active u = true ∧ s.active v = true
  named : ∀ {u v}, s.peer u = some v → Names config u v ∨ Names config v u
  connected : ∀ {u v}, u ≠ v → s.up u.1 = true → s.up v.1 = true → (config u).Usable →
    (config v).Usable → Names config u v → Names config v u → s.peer u = some v

/-- Where the bytes go that a guest writes into a vUART: what changes in another vUART changes in
the connected one, of a VM that is up and that is configured for it, and a byte for the peer leaves
the writer as it is. -/
structure WritesOk (config : VuartId n → VuartConfig n) (s : VuartRun n) : Prop where
  others : ∀ {u w} (offset : ℕ) (value : BitVec 32), w ≠ u →
    vuartWrite s.vuarts u offset value w ≠ s.vuarts w →
      s.peer u = some w ∧ s.up w.1 = true ∧ (Names config u w ∨ Names config w u)
  own : ∀ {u} (value : BitVec 32), s.peer u ≠ none → ¬ (s.vuarts u).Loopback →
    vuartWrite s.vuarts u 0 value u = s.vuarts u

/-! ## When they are -/

/-- The vUART where `create_vm` looks for the target of the VM's second vUART. -/
def target (config : VuartId n → VuartConfig n) (s : VuartRun n) (vm : Fin n) : VuartId n :=
  (Function.update s.vmId vm vm (config (vm, 1)).tVuart.1, (config (vm, 1)).tVuart.2)

/-- The vUARTs that are active when the VM is created and its vUARTs are set up. -/
def Ready (config : VuartId n → VuartConfig n) (s : VuartRun n) (vm : Fin n) (w : VuartId n) :
    Prop :=
  if w.1 = vm then (config w).Usable else s.active w = true

instance : Decidable (Ready config s vm w) :=
  inferInstanceAs (Decidable (if w.1 = vm then (config w).Usable else s.active w = true))

/-- The creation of a VM is harmless. -/
structure CreateOk (config : VuartId n → VuartConfig n) (s : VuartRun n) (vm : Fin n) : Prop where
  /-- A vUART that is found for the connection is not the vUART itself, and is named by it or
  names it. -/
  found : (config (vm, 1)).Usable → Ready config s vm (target config s vm) →
    s.peer (target config s vm) = none → (vm, 1) ≠ target config s vm ∧
      (Names config (vm, 1) (target config s vm) ∨ Names config (target config s vm) (vm, 1))
  /-- The console of the VM and an active vUART of another VM do not name each other. -/
  console : ∀ v, (config (vm, 0)).Usable → v.1 ≠ vm → s.active v = true →
    Names config (vm, 0) v → ¬ Names config v (vm, 0)
  /-- An active vUART of another VM that the VM's second vUART names, and that names it, is free. -/
  free : ∀ v, (config (vm, 1)).Usable → v.1 ≠ vm → s.active v = true →
    Names config (vm, 1) v → Names config v (vm, 1) → s.peer v = none

/-- A step is harmless. A VM is deinitialized under its own `vm_id`, or nothing is up under the id
that stands there. -/
def StepOk (config : VuartId n → VuartConfig n) (s : VuartRun n) : VuartStep n → Prop
  | .createVm vm => CreateOk config s vm
  | .deinitVuart vm => s.up (s.vmId vm) = true → s.vmId vm = vm
  | .call _ => True

/-! ## What a step does -/

/-- The connection of the second vUART of a VM that is created is made. -/
def Opens (config : VuartId n → VuartConfig n) (s : VuartRun n) (vm : Fin n) : Prop :=
  (config (vm, 1)).Usable ∧ Ready config s vm (target config s vm) ∧
    s.peer (target config s vm) = none

/-- **`create_vm`.** At most one connection is added, from the second vUART of the VM to the vUART
where the target is looked for. -/
theorem createVm_spec (hstep : s.step config (.createVm vm) = some s')
    (hfree : ∀ i, s.peer (vm, i) = none) :
    s'.up = Function.update s.up vm true ∧ s'.vmId = Function.update s.vmId vm vm ∧
    (∀ w, s'.active w = true ↔ Ready config s vm w) ∧
    ∀ x y, s'.peer x = some y ↔
      Opens config s vm ∧ (x = (vm, 1) ∧ y = target config s vm ∨
        x = target config s vm ∧ y = (vm, 1)) ∨ s.peer x = some y := by
  obtain ⟨-, rfl⟩ := of_guard hstep
  obtain ⟨s₁, heq, hvm, hpeer, hactive⟩ :=
    VuartArrays.createVm_eq vm (vmConfig config vm) hfree
  have hready : ∀ w, s₁.active w = true ↔ Ready config s vm w := by
    rintro ⟨w, i⟩
    rw [hactive, Ready]
    by_cases hw : w = vm
    · subst hw
      rw [if_pos rfl, if_pos rfl]
      exact decide_eq_true_iff
    · rw [if_neg hw, if_neg hw]
  have htarget : s₁.found (vmConfig config vm 1) = target config s vm := by
    rw [VuartArrays.found, hvm]
    rfl
  have hconnects : s₁.Connects (vmConfig config vm 1) (vm, 1) ↔ Opens config s vm := by
    have hself : s₁.active (vm, 1) = true ↔ (config (vm, 1)).Usable := by
      rw [hready, Ready]
      exact iff_of_eq (if_pos rfl)
    rw [VuartArrays.Connects, htarget, hself, hready, hpeer, Opens]
  refine ⟨rfl, ?_, fun w => ?_, fun x y => ?_⟩
  · rw [heq, VuartArrays.vmId_vuartSetupConnection, hvm]
  · rw [heq, VuartArrays.active_vuartSetupConnection, hready]
  · rw [heq]
    by_cases hopens : Opens config s vm
    · rw [VuartArrays.peer_vuartSetupConnection (hconnects.mpr hopens), htarget, hpeer,
        connect_eq_some_iff (hfree 1) hopens.2.2]
      simp only [hopens, true_and, or_assoc]
    · rw [VuartArrays.vuartSetupConnection_of_not (fun h => hopens (hconnects.mp h)), hpeer]
      simp only [hopens, false_and, false_or]

/-! ## What holds without a condition

Symmetry is kept by every step, whatever `vm_id` finds. It is the agreement with the configuration
that takes a condition. -/

/-- The connections are symmetric, and they are those of VMs that are up. -/
structure Paired (s : VuartRun n) : Prop where
  pairing : IsPairing s.peer
  peer_up : ∀ {u v}, s.peer u = some v → s.up u.1 = true
  active_up : ∀ {u}, s.active u = true → s.up u.1 = true
  vmId_eq : ∀ {k}, s.up k = true → s.vmId k = k

namespace Paired

/-- There is no connection in the zeroed arrays. -/
theorem zeroed : Paired (zeroed : VuartRun n) where
  pairing := ⟨nofun⟩
  peer_up := nofun
  active_up := nofun
  vmId_eq := nofun

/-- A VM that is down has no connected vUART, for connections are those of VMs that are up. -/
theorem free_of_down (h : Paired s) (hdown : s.up u.1 = false) : s.peer u = none := by
  cases hpeer : s.peer u with
  | none => rfl
  | some v =>
    have hup := h.peer_up hpeer
    rw [hdown] at hup
    cases hup

/-- A creation adds a connection at most. -/
theorem createVm (h : Paired s) (hstep : s.step config (.createVm vm) = some s') : Paired s' := by
  have hdown : s.up vm = false := (of_guard hstep).1
  obtain ⟨hup, hvm, hactive, hpeer⟩ := createVm_spec hstep fun i => h.free_of_down hdown
  have hkeep : ∀ {k}, s.up k = true → s'.up k = true := by
    intro k hk
    rw [hup]
    by_cases hkvm : k = vm
    · rw [hkvm, Function.update_self]
    · rwa [Function.update_of_ne hkvm]
  have hready : ∀ {w}, Ready config s vm w → s'.up w.1 = true := by
    intro w hw
    rw [Ready] at hw
    split at hw
    · next hwvm => rw [hup, hwvm, Function.update_self]
    · exact hkeep (h.active_up hw)
  have hself : s'.up vm = true := by rw [hup, Function.update_self]
  constructor
  case pairing =>
    refine ⟨fun {x y} hxy => (hpeer y x).mpr ?_⟩
    rcases (hpeer x y).mp hxy with ⟨hopens, ⟨rfl, rfl⟩ | ⟨rfl, rfl⟩⟩ | hold
    · exact .inl ⟨hopens, .inr ⟨rfl, rfl⟩⟩
    · exact .inl ⟨hopens, .inl ⟨rfl, rfl⟩⟩
    · exact .inr (h.pairing.symm hold)
  case peer_up =>
    intro x y hxy
    rcases (hpeer x y).mp hxy with ⟨hopens, ⟨rfl, -⟩ | ⟨rfl, -⟩⟩ | hold
    · exact hself
    · exact hready hopens.2.1
    · exact hkeep (h.peer_up hold)
  case active_up => exact fun hw => hready ((hactive _).mp hw)
  case vmId_eq =>
    intro k hk
    rw [hup] at hk
    rw [hvm]
    by_cases hkvm : k = vm
    · rw [hkvm, Function.update_self]
    · rw [Function.update_of_ne hkvm] at hk ⊢
      exact h.vmId_eq hk

/-- **Teardown.** The VM that goes down is connected to nothing. -/
theorem deinitVuart (h : Paired s) (hvm : s.up vm = true)
    (hstep : s.step config (.deinitVuart vm) = some s') : Paired s' ∧
      ∀ {x y}, s'.peer x = some y → s.peer x = some y ∧ x.1 ≠ vm ∧ y.1 ≠ vm := by
  obtain rfl := Option.some.inj hstep
  have hpeer : ∀ {x y}, (s.toVuartArrays.deinitVuart vm).peer x = some y ↔
      s.peer x = some y ∧ x.1 ≠ vm ∧ y.1 ≠ vm := by
    intro x y
    rw [VuartArrays.peer_deinitVuart h.pairing, h.vmId_eq hvm]
  have hup : ∀ {k}, k ≠ vm → s.up k = true → Function.update s.up vm false k = true :=
    fun hk hkup => (Function.update_of_ne hk ..).trans hkup
  refine ⟨?_, fun hxy => hpeer.mp hxy⟩
  constructor
  case pairing =>
    refine ⟨fun hxy => ?_⟩
    obtain ⟨hold, hx, hy⟩ := hpeer.mp hxy
    exact hpeer.mpr ⟨h.pairing.symm hold, hy, hx⟩
  case peer_up =>
    intro x y hxy
    obtain ⟨hold, hx, -⟩ := hpeer.mp hxy
    exact hup hx (h.peer_up hold)
  case active_up =>
    intro w hw
    have hactive := VuartArrays.active_deinitVuart (s := s.toVuartArrays) vm w
    rw [h.vmId_eq hvm] at hactive
    by_cases hwvm : w.1 = vm
    · rw [if_pos hwvm] at hactive
      exact absurd (hactive.symm.trans hw) Bool.false_ne_true
    · rw [if_neg hwvm] at hactive
      exact hup hwvm (h.active_up (hactive.symm.trans hw))
  case vmId_eq =>
    intro k hk
    by_cases hkvm : k = vm
    · subst hkvm
      exact (congrFun (VuartArrays.vmId_deinitVuart k) k).trans (h.vmId_eq hvm)
    · have hkup : s.up k = true := (Function.update_of_ne hkvm ..).symm.trans hk
      exact (congrFun (VuartArrays.vmId_deinitVuart vm) k).trans (h.vmId_eq hkup)

end Paired

/-- A register access leaves the connections as they are. -/
theorem call_same (s : VuartRun n) (call : VuartCall (VuartId n)) :
    (⟨s.vmId, (call.run s.vuarts).2⟩ : VuartArrays n).active = s.active ∧
      (⟨s.vmId, (call.run s.vuarts).2⟩ : VuartArrays n).peer = s.peer := by
  have hsame : ∀ w, ((call.run s.vuarts).2 w).connection = (s.vuarts w).connection :=
    VuartCall.run_connection s.vuarts call
  exact ⟨funext fun w => congrArg Prod.fst (hsame w), funext fun w => congrArg Prod.snd (hsame w)⟩

theorem Paired.call (h : Paired s) {call : VuartCall (VuartId n)}
    (hstep : s.step config (.call call) = some s') : Paired s' := by
  obtain rfl := Option.some.inj hstep
  obtain ⟨hactive, hpeer⟩ := call_same s call
  constructor
  all_goals
    simp only [hactive, hpeer]
  case pairing => exact h.pairing
  case peer_up => exact h.peer_up
  case active_up => exact h.active_up
  case vmId_eq => exact h.vmId_eq

/-! ## The invariant -/

/-- What holds besides: the `vm_id` of a VM that is up is its own, and its usable vUARTs are the
active ones. -/
structure Inv (config : VuartId n → VuartConfig n) (s : VuartRun n) : Prop
    extends ConnectionsOk config s where
  vmId_eq : ∀ {k}, s.up k = true → s.vmId k = k
  active_iff : ∀ {w}, s.active w = true ↔ s.up w.1 = true ∧ (config w).Usable

/-- The two invariants are not independent. -/
theorem Inv.paired (h : Inv config s) : Paired s where
  pairing := ⟨h.symm⟩
  peer_up hxy := (h.active_iff.mp (h.active hxy).1).1
  active_up hw := (h.active_iff.mp hw).1
  vmId_eq := h.vmId_eq

/-- The vUARTs of a VM that is not up are not connected. -/
theorem Inv.free_of_down (h : Inv config s) (hdown : s.up u.1 = false) : s.peer u = none :=
  h.paired.free_of_down hdown

/-- A vUART that is active when a VM is created is a vUART of a VM that is up then, and usable. -/
theorem Inv.ready_iff (h : Inv config s) :
    Ready config s vm w ↔ Function.update s.up vm true w.1 = true ∧ (config w).Usable := by
  rw [Ready]
  by_cases hw : w.1 = vm
  · rw [if_pos hw, hw, Function.update_self]
    exact (and_iff_right rfl).symm
  · rw [if_neg hw, Function.update_of_ne hw, h.active_iff]

/-- The target of a vUART is found in a VM that is up. -/
theorem Inv.target_eq (h : Inv config s) (hup : Function.update s.up vm true v.1 = true)
    (hnames : Names config (vm, 1) v) : target config s vm = v := by
  obtain ⟨k, i⟩ := v
  rw [target, hnames]
  by_cases hk : k = vm
  · subst hk
    rw [Function.update_self]
  · rw [Function.update_of_ne hk] at hup ⊢
    rw [h.vmId_eq hup]

/-- Two usable vUARTs that name each other are connected when the VM of the one that opens
connections is created. -/
theorem Inv.opens (h : Inv config s) (hok : CreateOk config s vm) (hdown : s.up vm = false)
    (husable : (config (vm, 1)).Usable) (hready : Ready config s vm v)
    (hto : Names config (vm, 1) v) (hback : Names config v (vm, 1)) :
    Opens config s vm ∧ target config s vm = v := by
  have htarget : target config s vm = v := h.target_eq (h.ready_iff.mp hready).1 hto
  refine ⟨⟨husable, by rwa [htarget], ?_⟩, htarget⟩
  rw [htarget]
  by_cases hv : v.1 = vm
  · exact h.free_of_down (hv ▸ hdown)
  · rw [Ready, if_neg hv] at hready
    exact hok.free v husable hv hready hto hback

/-- Two vUARTs that name each other are connected after a creation. Either both VMs were up before,
or the second vUART of the new VM is one of the two and opens the connection. -/
theorem Inv.connected_of_create (h : Inv config s) (hok : CreateOk config s vm)
    (hdown : s.up vm = false) (hup : s'.up = Function.update s.up vm true)
    (hpeer : ∀ x y, s'.peer x = some y ↔
      Opens config s vm ∧ (x = (vm, 1) ∧ y = target config s vm ∨
        x = target config s vm ∧ y = (vm, 1)) ∨ s.peer x = some y)
    (hne : x ≠ y) (hx : s'.up x.1 = true) (hy : s'.up y.1 = true)
    (hxusable : (config x).Usable) (hyusable : (config y).Usable)
    (hto : Names config x y) (hback : Names config y x) : s'.peer x = some y := by
  rw [hup] at hx hy
  have hxready : Ready config s vm x := h.ready_iff.mpr ⟨hx, hxusable⟩
  have hyready : Ready config s vm y := h.ready_iff.mpr ⟨hy, hyusable⟩
  -- the console of the new VM has its peer in the VM itself
  have hconsole : ∀ {v}, (config (vm, 0)).Usable → Ready config s vm v →
      Names config (vm, 0) v → Names config v (vm, 0) → v.1 = vm := by
    intro v husable hready hto hback
    by_contra hv
    rw [Ready, if_neg hv] at hready
    exact hok.console v husable hv hready hto hback
  have hindex : ∀ i : Fin maxVuartNumPerVm, i = 0 ∨ i = 1 := by decide
  rw [hpeer]
  by_cases hxone : x = (vm, 1)
  · subst hxone
    obtain ⟨hopens, htarget⟩ := h.opens hok hdown hxusable hyready hto hback
    exact .inl ⟨hopens, .inl ⟨rfl, htarget.symm⟩⟩
  by_cases hyone : y = (vm, 1)
  · subst hyone
    obtain ⟨hopens, htarget⟩ := h.opens hok hdown hyusable hxready hback hto
    exact .inl ⟨hopens, .inr ⟨htarget.symm, rfl⟩⟩
  -- neither of the two opens a connection, so neither is of the new VM
  have hxvm : x.1 ≠ vm := by
    intro hvm
    obtain ⟨a, i⟩ := x
    obtain rfl : a = vm := hvm
    obtain rfl | rfl := hindex i
    · have hyvm := hconsole hxusable hyready hto hback
      obtain ⟨b, j⟩ := y
      obtain rfl : b = a := hyvm
      obtain rfl | rfl := hindex j
      · exact hne rfl
      · exact hyone rfl
    · exact hxone rfl
  have hyvm : y.1 ≠ vm := by
    intro hvm
    obtain ⟨b, j⟩ := y
    obtain rfl : b = vm := hvm
    obtain rfl | rfl := hindex j
    · exact hxvm (hconsole hyusable hxready hback hto)
    · exact hyone rfl
  rw [Function.update_of_ne hxvm] at hx
  rw [Function.update_of_ne hyvm] at hy
  exact .inr (h.connected hne hx hy hxusable hyusable hto hback)

/-- **A creation under the condition.** -/
theorem Inv.createVm (h : Inv config s) (hok : CreateOk config s vm)
    (hstep : s.step config (.createVm vm) = some s') : Inv config s' := by
  have hdown : s.up vm = false := (of_guard hstep).1
  have hvmfree : ∀ i, s.peer (vm, i) = none := fun i => h.free_of_down hdown
  obtain ⟨hup, -, hactive, hpeer⟩ := createVm_spec hstep hvmfree
  have hfound : Opens config s vm → (vm, 1) ≠ target config s vm ∧
      (Names config (vm, 1) (target config s vm) ∨ Names config (target config s vm) (vm, 1)) :=
    fun hopens => hok.found hopens.1 hopens.2.1 hopens.2.2
  have hself : Opens config s vm → Ready config s vm (vm, 1) := by
    intro hopens
    rw [Ready, if_pos rfl]
    exact hopens.1
  have hold : ∀ {w}, s.active w = true → Ready config s vm w := by
    intro w hw
    obtain ⟨hwup, husable⟩ := h.active_iff.mp hw
    refine h.ready_iff.mpr ⟨?_, husable⟩
    by_cases hwvm : w.1 = vm
    · rw [hwvm, Function.update_self]
    · rwa [Function.update_of_ne hwvm]
  constructor
  · constructor
    case symm =>
      intro x y hxy
      rw [hpeer] at hxy ⊢
      rcases hxy with ⟨hopens, ⟨rfl, rfl⟩ | ⟨rfl, rfl⟩⟩ | hxy
      · exact .inl ⟨hopens, .inr ⟨rfl, rfl⟩⟩
      · exact .inl ⟨hopens, .inl ⟨rfl, rfl⟩⟩
      · exact .inr (h.symm hxy)
    case ne =>
      intro x y hxy
      rcases (hpeer x y).mp hxy with ⟨hopens, ⟨rfl, rfl⟩ | ⟨rfl, rfl⟩⟩ | hxy
      · exact (hfound hopens).1
      · exact (hfound hopens).1.symm
      · exact h.ne hxy
    case active =>
      intro x y hxy
      rw [hactive, hactive]
      rcases (hpeer x y).mp hxy with ⟨hopens, ⟨rfl, rfl⟩ | ⟨rfl, rfl⟩⟩ | hxy
      · exact ⟨hself hopens, hopens.2.1⟩
      · exact ⟨hopens.2.1, hself hopens⟩
      · exact ⟨hold (h.active hxy).1, hold (h.active hxy).2⟩
    case named =>
      intro x y hxy
      rcases (hpeer x y).mp hxy with ⟨hopens, ⟨rfl, rfl⟩ | ⟨rfl, rfl⟩⟩ | hxy
      · exact (hfound hopens).2
      · exact (hfound hopens).2.symm
      · exact h.named hxy
    case connected =>
      exact h.connected_of_create hok hdown hup hpeer
  · exact (h.paired.createVm hstep).vmId_eq
  · intro w
    rw [hactive, hup, h.ready_iff]

/-- A creation that leaves the connections right met the condition. -/
theorem Inv.createOk (h : Inv config s) (hstep : s.step config (.createVm vm) = some s')
    (hright : ConnectionsOk config s') : CreateOk config s vm := by
  have hdown : s.up vm = false := (of_guard hstep).1
  have hvmfree : ∀ i, s.peer (vm, i) = none := fun i => h.free_of_down hdown
  obtain ⟨hup, -, hactive, hpeer⟩ := createVm_spec hstep hvmfree
  have hvm : s'.up vm = true := by rw [hup, Function.update_self]
  -- an active vUART of another VM keeps its VM
  have hkeep : ∀ {v : VuartId n}, v.1 ≠ vm → s.active v = true →
      s'.up v.1 = true ∧ (config v).Usable := by
    intro v hv hactive
    obtain ⟨hvup, husable⟩ := h.active_iff.mp hactive
    rw [hup, Function.update_of_ne hv]
    exact ⟨hvup, husable⟩
  constructor
  · intro husable hready hfree
    have hnew : s'.peer (vm, 1) = some (target config s vm) :=
      (hpeer _ _).mpr (.inl ⟨⟨husable, hready, hfree⟩, .inl ⟨rfl, rfl⟩⟩)
    exact ⟨hright.ne hnew, hright.named hnew⟩
  · intro v husable hv hvactive hto hback
    obtain ⟨hvup, hvusable⟩ := hkeep hv hvactive
    have hne : (vm, 0) ≠ v := fun heq => hv (congrArg Prod.fst heq).symm
    have hconn := hright.connected hne hvm hvup husable hvusable hto hback
    rcases (hpeer _ _).mp hconn with ⟨-, ⟨h01, -⟩ | ⟨-, rfl⟩⟩ | hold
    · exact absurd (Prod.mk.inj h01).2 (by decide)
    · exact hv rfl
    · rw [hvmfree] at hold
      cases hold
  · intro v husable hv hvactive hto hback
    obtain ⟨hvup, hvusable⟩ := hkeep hv hvactive
    have hne : (vm, 1) ≠ v := fun heq => hv (congrArg Prod.fst heq).symm
    have hconn := hright.connected hne hvm hvup husable hvusable hto hback
    rcases (hpeer _ _).mp hconn with ⟨hopens, ⟨-, rfl⟩ | ⟨-, rfl⟩⟩ | hold
    · exact hopens.2.2
    · exact absurd rfl hv
    · rw [hvmfree] at hold
      cases hold

/-- **A `deinit_vuart`.** -/
theorem Inv.deinitVuart (h : Inv config s) (hok : StepOk config s (.deinitVuart vm))
    (hstep : s.step config (.deinitVuart vm) = some s') : Inv config s' := by
  obtain rfl := Option.some.inj hstep
  have hpeer : ∀ x y, (s.toVuartArrays.deinitVuart vm).peer x = some y ↔
      s.peer x = some y ∧ x.1 ≠ s.vmId vm ∧ y.1 ≠ s.vmId vm :=
    fun x y => VuartArrays.peer_deinitVuart h.paired.pairing vm
  have hactive : ∀ {w : VuartId n}, (s.toVuartArrays.deinitVuart vm).active w = true ↔
      w.1 ≠ s.vmId vm ∧ s.active w = true := by
    intro w
    rw [VuartArrays.active_deinitVuart]
    by_cases hw : w.1 = s.vmId vm
    · simp only [hw, if_true, ne_eq, not_true_eq_false, false_and, Bool.false_eq_true]
    · simp only [hw, if_false, ne_eq, not_false_eq_true, true_and]
  -- the VM goes down, and with it the VM that its id stands for, which is the same or was down
  have hup : ∀ k, Function.update s.up vm false k = true ↔ k ≠ s.vmId vm ∧ s.up k = true := by
    intro k
    by_cases hk : k = vm
    · subst hk
      rw [Function.update_self]
      constructor
      · intro hfalse
        cases hfalse
      · rintro ⟨hne, hkup⟩
        exact absurd (h.vmId_eq hkup).symm hne
    · rw [Function.update_of_ne hk]
      refine ⟨fun hkup => ⟨?_, hkup⟩, And.right⟩
      rintro rfl
      exact hk (hok hkup)
  have hiff : ∀ {w : VuartId n}, (s.toVuartArrays.deinitVuart vm).active w = true ↔
      Function.update s.up vm false w.1 = true ∧ (config w).Usable := by
    intro w
    rw [hactive, hup, h.active_iff, and_assoc]
  constructor
  · constructor
    case symm =>
      intro x y hxy
      obtain ⟨hold, hx, hy⟩ := (hpeer x y).mp hxy
      exact (hpeer y x).mpr ⟨h.symm hold, hy, hx⟩
    case ne => exact fun hxy => h.ne ((hpeer _ _).mp hxy).1
    case active =>
      intro x y hxy
      obtain ⟨hold, hx, hy⟩ := (hpeer x y).mp hxy
      exact ⟨hactive.mpr ⟨hx, (h.active hold).1⟩, hactive.mpr ⟨hy, (h.active hold).2⟩⟩
    case named => exact fun hxy => h.named ((hpeer _ _).mp hxy).1
    case connected =>
      intro x y hne hx hy hxusable hyusable hto hback
      obtain ⟨hxvm, hxup⟩ := (hup x.1).mp hx
      obtain ⟨hyvm, hyup⟩ := (hup y.1).mp hy
      exact (hpeer x y).mpr ⟨h.connected hne hxup hyup hxusable hyusable hto hback, hxvm, hyvm⟩
  · intro k hk
    exact (congrFun (VuartArrays.vmId_deinitVuart vm) k).trans (h.vmId_eq ((hup k).mp hk).2)
  · exact hiff

/-- A register access. -/
theorem Inv.call (h : Inv config s) {call : VuartCall (VuartId n)}
    (hstep : s.step config (.call call) = some s') : Inv config s' := by
  obtain rfl := Option.some.inj hstep
  obtain ⟨hactive, hpeer⟩ := call_same s call
  constructor
  · constructor
    all_goals
      simp only [hactive, hpeer]
    case symm => exact h.symm
    case ne => exact h.ne
    case active => exact h.active
    case named => exact h.named
    case connected => exact h.connected
  · exact h.vmId_eq
  · rw [hactive]
    exact h.active_iff

/-- Under the condition every step keeps the connections as they should be. -/
theorem Inv.step {a : VuartStep n} (h : Inv config s) (hok : StepOk config s a)
    (hstep : s.step config a = some s') : Inv config s' := by
  cases a with
  | createVm vm => exact h.createVm hok hstep
  | deinitVuart vm => exact h.deinitVuart hok hstep
  | call call => exact h.call hstep

theorem inv_zeroed : Inv config (zeroed : VuartRun n) where
  symm := nofun
  ne := nofun
  active := nofun
  named := nofun
  connected := nofun
  vmId_eq := nofun
  active_iff := ⟨nofun, nofun⟩

/-- By the invariant rule, over runs whose steps all meet the condition. -/
theorem reach_inv (h : Reach (vuartSystem config) (StepOk config) s) : Inv config s := by
  refine h.invariant (fun s hinit => ?_) fun _ _ _ hok hstep hs => hs.step hok hstep
  obtain rfl : s = zeroed := hinit
  exact inv_zeroed

/-- Where the connections are right, no write goes astray. -/
theorem Inv.writesOk (h : Inv config s) : WritesOk config s where
  others := by
    intro u w offset value hw hchange
    by_cases hsend : offset = 0 ∧ ¬ (s.vuarts u).Loopback ∧ (s.vuarts u).targetVu ≠ none
    · obtain ⟨rfl, hloop, htarget⟩ := hsend
      obtain ⟨t, ht⟩ := Option.ne_none_iff_exists'.mp htarget
      rw [vuartWrite_target ht hloop] at hchange
      have hwt : w = t := by
        by_contra hwt
        exact hchange (Function.update_of_ne hwt _ _)
      subst hwt
      exact ⟨ht, (h.active_iff.mp (h.active ht).2).1, h.named ht⟩
    · have hreg : offset ≠ 0 ∨ (s.vuarts u).Loopback ∨ (s.vuarts u).targetVu = none := by
        by_contra hnot
        rw [not_or, not_or] at hnot
        exact hsend ⟨not_not.mp hnot.1, hnot.2.1, hnot.2.2⟩
      rw [vuartWrite_reg hreg, Function.update_of_ne hw] at hchange
      exact absurd rfl hchange
  own := by
    intro u value hpeer hloop
    obtain ⟨t, ht⟩ := Option.ne_none_iff_exists'.mp hpeer
    rw [vuartWrite_target ht hloop]
    exact Function.update_of_ne (h.ne ht) _ _

end VuartRun

open VuartRun

/-- **vUART connections.** In a run whose steps meet the condition the connections are
symmetric and as configured, and no write goes astray. A creation leaves them so exactly if it
meets the condition. -/
theorem vuart_connections {config : VuartId n → VuartConfig n} {s : VuartRun n}
    (h : Reach (vuartSystem config) (StepOk config) s) :
    ConnectionsOk config s ∧ WritesOk config s ∧
    ∀ vm s', s.step config (.createVm vm) = some s' →
      (ConnectionsOk config s' ↔ CreateOk config s vm) := by
  have hinv := reach_inv h
  refine ⟨hinv.toConnectionsOk, hinv.writesOk, fun vm s' hstep => ⟨hinv.createOk hstep, ?_⟩⟩
  exact fun hok => (hinv.createVm hok hstep).toConnectionsOk

/-- Two VMs, the second vUARTs of which name each other. -/
def crossed (u : VuartId 2) : VuartConfig 2 where
  type := .vuartLegacyPio
  portBase := if u.2 = 0 then 0x3F8#16 else 0x2F8#16
  tVuart := if u.2 = 0 then (0, 0) else (1 - u.1, 1)

/-- VM 1 is created before VM 0: the vUARTs are connected. -/
theorem vuart_connections_crossed : ∃ s, Reach (vuartSystem crossed) (StepOk crossed) s ∧
    s.peer (0, 1) = some (1, 1) ∧ ConnectionsOk crossed s := by
  have hfirst : StepOk crossed zeroed (.createVm 1) := by
    refine ⟨fun _ hready => ?_, fun v _ _ hactive => ?_, fun v _ _ _ _ _ => rfl⟩
    · exact absurd hready (by decide)
    · cases hactive
  obtain ⟨s₁, hs₁⟩ : ∃ s₁, zeroed.step crossed (.createVm 1) = some s₁ := ⟨_, rfl⟩
  have hsecond : StepOk crossed s₁ (.createVm 0) := by
    obtain rfl := Option.some.inj hs₁
    refine ⟨fun _ _ _ => by decide, fun v _ hv _ hto => ?_, fun v _ _ _ hto _ => ?_⟩
    · obtain rfl : (0, 0) = v := hto
      exact absurd rfl hv
    · obtain rfl : (1, 1) = v := hto
      rfl
  obtain ⟨s₂, hs₂⟩ : ∃ s₂, s₁.step crossed (.createVm 0) = some s₂ := by
    obtain rfl := Option.some.inj hs₁
    exact ⟨_, rfl⟩
  have hreach : Reach (vuartSystem crossed) (StepOk crossed) s₂ :=
    .step (.step (.init rfl) hfirst hs₁) hsecond hs₂
  refine ⟨s₂, hreach, ?_, (vuart_connections hreach).1⟩
  obtain rfl := Option.some.inj hs₁
  obtain rfl := Option.some.inj hs₂
  rfl

/-- VM 0 is created before VM 1. The target of its second vUART is looked for in VM 0, and the vUART
is connected to itself; so it is not free when VM 1 is created. -/
theorem vuart_connects_to_itself : ∃ s, Reach (vuartSystem crossed) any s ∧
    s.up 0 = true ∧ s.up 1 = true ∧ s.peer (0, 1) = some (0, 1) ∧ s.peer (1, 1) = none ∧
    ¬ ConnectionsOk crossed s := by
  obtain ⟨s₁, hs₁⟩ : ∃ s₁, zeroed.step crossed (.createVm 0) = some s₁ := ⟨_, rfl⟩
  obtain ⟨s₂, hs₂⟩ : ∃ s₂, s₁.step crossed (.createVm 1) = some s₂ := by
    obtain rfl := Option.some.inj hs₁
    exact ⟨_, rfl⟩
  have hreach : Reach (vuartSystem crossed) any s₂ :=
    .step (.step (.init rfl) trivial hs₁) trivial hs₂
  obtain ⟨hup, hself, hfree⟩ : (s₂.up 0 = true ∧ s₂.up 1 = true) ∧
      s₂.peer (0, 1) = some (0, 1) ∧ s₂.peer (1, 1) = none := by
    obtain rfl := Option.some.inj hs₁
    obtain rfl := Option.some.inj hs₂
    exact ⟨⟨rfl, rfl⟩, rfl, rfl⟩
  exact ⟨s₂, hreach, hup.1, hup.2, hself, hfree, fun h => h.ne hself rfl⟩

end Acrn
