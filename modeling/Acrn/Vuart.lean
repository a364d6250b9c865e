import Acrn.Lib.RingBuffer
import Acrn.Lib.BitField

/-!
# The virtual UART

`vuart.c` and the two console functions of `console.c`: the FIFOs, the registers of a 16550, and
the connection of two vUARTs, over which the transmit register of one writes into the receive FIFO
of the other. The calls are atomic, as `vu->lock` makes them. Interrupts (`vuart_toggle_intr` is
empty) and the lookup of a vUART by its port are left out: a register is named by its vUART and its
offset.
-/

namespace Acrn

open RingBuffer

/-- `uint8_t` and `char`. -/
abbrev Byte : Type := BitVec 8

/-! ## FIFOs

A FIFO is a ring of bytes with two indices and a count, which contents are a list. Putting and
getting are operations on that list. -/

/-- `struct vuart_fifo` with its `size`, which is set once by `vuart_fifo_init`. -/
structure VuartFifo (size : ℕ) where
  buf : ℕ → Byte
  rindex : ℕ
  windex : ℕ
  num : ℕ
  rindex_lt : rindex < size
  num_le : num ≤ size
  windex_eq : windex = (rindex + num) % size

namespace VuartFifo

variable {size : ℕ}

theorem size_pos (fifo : VuartFifo size) : 0 < size := Nat.zero_lt_of_lt fifo.rindex_lt

/-- `fifo_reset`. -/
def fifoReset (fifo : VuartFifo size) : VuartFifo size where
  buf := fifo.buf
  rindex := 0
  windex := 0
  num := 0
  rindex_lt := fifo.size_pos
  num_le := Nat.zero_le _
  windex_eq := (Nat.zero_mod _).symm

/-- `fifo_putchar`. -/
def fifoPutchar (fifo : VuartFifo size) (ch : Byte) : VuartFifo size :=
  if h : fifo.num < size then
    { buf := Function.update fifo.buf fifo.windex ch
      rindex := fifo.rindex
      windex := (fifo.windex + 1) % size
      num := fifo.num + 1
      rindex_lt := fifo.rindex_lt
      num_le := h
      windex_eq := by rw [fifo.windex_eq, Nat.mod_add_mod, Nat.add_assoc] }
  else
    { buf := Function.update fifo.buf fifo.windex ch
      rindex := (fifo.rindex + 1) % size
      windex := (fifo.windex + 1) % size
      num := fifo.num
      rindex_lt := Nat.mod_lt _ fifo.size_pos
      num_le := fifo.num_le
      windex_eq := by
        rw [fifo.windex_eq, Nat.mod_add_mod, Nat.mod_add_mod, Nat.add_right_comm] }

/-- `fifo_getchar`: `-1` if there is none. -/
def fifoGetchar (fifo : VuartFifo size) : Byte × VuartFifo size :=
  if h : 0 < fifo.num then
    (fifo.buf fifo.rindex,
      { buf := fifo.buf
        rindex := (fifo.rindex + 1) % size
        windex := fifo.windex
        num := fifo.num - 1
        rindex_lt := Nat.mod_lt _ fifo.size_pos
        num_le := (Nat.sub_le _ _).trans fifo.num_le
        windex_eq := by
          rw [fifo.windex_eq, Nat.mod_add_mod, Nat.add_assoc, Nat.add_sub_cancel' h] })
  else (0xFF#8, fifo)

/-- What the FIFO holds, the oldest byte first. -/
def contents (fifo : VuartFifo size) : List Byte := window fifo.buf size fifo.rindex fifo.num

@[simp] theorem length_contents (fifo : VuartFifo size) : fifo.contents.length = fifo.num :=
  length_window

@[simp] theorem contents_fifoReset (fifo : VuartFifo size) : fifo.fifoReset.contents = [] := rfl

/-- **A FIFO keeps the last bytes** that were put and not taken. -/
theorem contents_fifoPutchar (fifo : VuartFifo size) (ch : Byte) :
    (fifo.fifoPutchar ch).contents = (Event.put ch).apply size fifo.contents := by
  rw [fifoPutchar]
  split
  · next hlt =>
    rw [apply_put_of_lt (by rwa [length_contents])]
    simp only [contents, fifo.windex_eq]
    exact window_push ch hlt
  · next hge =>
    have hfull : fifo.num = size := Nat.le_antisymm fifo.num_le (Nat.le_of_not_lt hge)
    rw [apply_put_of_full (by rwa [length_contents]) fifo.size_pos]
    simp only [contents, fifo.windex_eq, hfull]
    exact window_push_full ch fifo.size_pos

theorem contents_fifoGetchar (fifo : VuartFifo size) :
    fifo.fifoGetchar.2.contents = fifo.contents.tail := by
  rw [fifoGetchar]
  split
  · next hpos =>
    obtain ⟨n, hn⟩ : ∃ n, fifo.num = n + 1 := ⟨fifo.num - 1, by omega⟩
    simp only [contents, hn, Nat.add_sub_cancel]
    exact window_next fifo.buf size fifo.rindex n
  · next hzero =>
    have hnil : fifo.contents = [] := by
      rw [← List.length_eq_zero_iff, length_contents]
      omega
    rw [hnil]
    rfl

/-- It delivers the oldest byte. -/
theorem fifoGetchar_fst (fifo : VuartFifo size) :
    fifo.fifoGetchar.1 = fifo.contents.head?.getD 0xFF#8 := by
  rw [fifoGetchar]
  split
  · next hpos =>
    obtain ⟨n, hn⟩ : ∃ n, fifo.num = n + 1 := ⟨fifo.num - 1, by omega⟩
    have hhead : fifo.contents.head? = some (fifo.buf fifo.rindex) := by
      rw [contents, hn, head?_window, Nat.mod_eq_of_lt fifo.rindex_lt]
    rw [hhead]
    rfl
  · next hzero =>
    rw [contents, Nat.eq_zero_of_not_pos hzero]
    rfl

theorem fifoGetchar_num (fifo : VuartFifo size) : fifo.fifoGetchar.2.num = fifo.num - 1 := by
  rw [fifoGetchar]
  split
  · rfl
  · next hzero => exact (Nat.eq_zero_of_not_pos hzero).trans (by omega)

end VuartFifo

/-! ## Registers -/

def lcrDlab : Byte := 0x80#8
def mcrDtr : Byte := 0x01#8
def mcrRts : Byte := 0x02#8
def mcrOut1 : Byte := 0x04#8
def mcrOut2 : Byte := 0x08#8
def mcrLoopback : Byte := 0x10#8
def lsrDr : Byte := 0x01#8
def lsrOe : Byte := 0x02#8
def lsrThre : Byte := 0x20#8
def lsrTemt : Byte := 0x40#8
def msrDcts : Byte := 0x01#8
def msrDdsr : Byte := 0x02#8
def msrTeri : Byte := 0x04#8
def msrDdcd : Byte := 0x08#8
def msrCts : Byte := 0x10#8
def msrDsr : Byte := 0x20#8
def msrRi : Byte := 0x40#8
def msrDcd : Byte := 0x80#8
def msrDeltaMask : Byte := 0x0F#8
def ierErbfi : Byte := 0x01#8
def ierEtbei : Byte := 0x02#8
def ierElsi : Byte := 0x04#8
def ierEmsc : Byte := 0x08#8
def fcrFifoe : Byte := 0x01#8
def fcrRfr : Byte := 0x02#8
def fcrDma : Byte := 0x08#8
def fcrRxMask : Byte := 0xC0#8
def iirFifoMask : Byte := 0xC0#8
def iirMlsc : Byte := 0x00#8
def iirNopend : Byte := 0x01#8
def iirTxrdy : Byte := 0x02#8
def iirRls : Byte := 0x06#8
def iirRxtout : Byte := 0x0C#8

def rxBufSize : ℕ := 256
def txBufSize : ℕ := 65536

theorem rxBufSize_pos : 0 < rxBufSize := by decide

theorem txBufSize_pos : 0 < txBufSize := by decide

/-- `struct acrn_vuart`; `V` names the vUARTs. -/
structure AcrnVuart (V : Type*) where
  ier : Byte
  lcr : Byte
  mcr : Byte
  lsr : Byte
  msr : Byte
  fcr : Byte
  scr : Byte
  dll : Byte
  dlh : Byte
  rxfifo : VuartFifo rxBufSize
  txfifo : VuartFifo txBufSize
  threIntPending : Bool
  active : Bool
  targetVu : Option V

variable {V : Type*}

/-- The interrupt reasons in the order of their priority. -/
def vuartIntrReason (vu : AcrnVuart V) : Byte :=
  if vu.lsr &&& lsrOe ≠ 0#8 ∧ vu.ier &&& ierElsi ≠ 0#8 then iirRls
  else if 0 < vu.rxfifo.num ∧ vu.ier &&& ierErbfi ≠ 0#8 then iirRxtout
  else if vu.threIntPending = true ∧ vu.ier &&& ierEtbei ≠ 0#8 then iirTxrdy
  else if vu.msr &&& msrDeltaMask ≠ 0#8 ∧ vu.ier &&& ierEmsc ≠ 0#8 then iirMlsc
  else iirNopend

/-- `vuart_putchar`: the host writes into the receive FIFO. -/
def vuartPutchar (vu : AcrnVuart V) (ch : Byte) : AcrnVuart V :=
  { vu with rxfifo := vu.rxfifo.fifoPutchar ch }

/-- `vuart_getchar`: the host reads from the transmit FIFO. -/
def vuartGetchar (vu : AcrnVuart V) : Byte × AcrnVuart V :=
  let r := vu.txfifo.fifoGetchar
  (r.1, { vu with txfifo := r.2 })

/-- `send_to_target`. -/
def sendToTarget (vu : AcrnVuart V) (valueU8 : Byte) : AcrnVuart V :=
  if vu.active then
    { vu with rxfifo := vu.rxfifo.fifoPutchar valueU8, threIntPending := true }
  else vu

def getModemStatus (mcr : Byte) : Byte :=
  if mcr &&& mcrLoopback ≠ 0#8 then
    (if mcr &&& mcrRts ≠ 0#8 then msrCts else 0#8) |||
    (if mcr &&& mcrDtr ≠ 0#8 then msrDsr else 0#8) |||
    (if mcr &&& mcrOut1 ≠ 0#8 then msrRi else 0#8) |||
    (if mcr &&& mcrOut2 ≠ 0#8 then msrDcd else 0#8)
  else msrDcd ||| msrDsr

def updateModemStatus (newMsr oldMsr : Byte) : Byte :=
  let updateMsr := oldMsr |||
    (if (newMsr &&& msrCts) ^^^ (oldMsr &&& msrCts) ≠ 0#8 then msrDcts else 0#8) |||
    (if (newMsr &&& msrDsr) ^^^ (oldMsr &&& msrDsr) ≠ 0#8 then msrDdsr else 0#8) |||
    (if (newMsr &&& msrDcd) ^^^ (oldMsr &&& msrDcd) ≠ 0#8 then msrDdcd else 0#8) |||
    (if newMsr &&& msrRi = 0#8 ∧ oldMsr &&& msrRi ≠ 0#8 then msrTeri else 0#8)
  (updateMsr &&& msrDeltaMask) ||| newMsr

/-- `write_reg`. A write to the divisor latch comes first; a byte that is written in loopback mode
enters the receive FIFO of the vUART itself. -/
def writeReg (vu : AcrnVuart V) (reg : ℕ) (valueU8 : Byte) : AcrnVuart V :=
  if vu.lcr &&& lcrDlab ≠ 0#8 ∧ reg = 0 then { vu with dll := valueU8 }
  else if vu.lcr &&& lcrDlab ≠ 0#8 ∧ reg = 1 then { vu with dlh := valueU8 }
  else match reg with
    | 0 => -- `UART16550_THR`
      if vu.mcr &&& mcrLoopback ≠ 0#8 then
        { vu with
          rxfifo := vu.rxfifo.fifoPutchar valueU8
          lsr := vu.lsr ||| lsrOe
          threIntPending := true }
      else { vu with txfifo := vu.txfifo.fifoPutchar valueU8, threIntPending := true }
    | 1 => -- `UART16550_IER`
      { vu with
        threIntPending := vu.threIntPending ||
          decide (vu.ier &&& ierEtbei = 0#8 ∧ valueU8 &&& ierEtbei ≠ 0#8)
        ier := valueU8 &&& 0x0F#8 }
    | 2 => -- `UART16550_FCR`
      if valueU8 &&& fcrFifoe = 0#8 then { vu with fcr := 0#8 }
      else
        { vu with
          rxfifo := if valueU8 &&& fcrRfr ≠ 0#8 then vu.rxfifo.fifoReset else vu.rxfifo
          fcr := valueU8 &&& (fcrFifoe ||| fcrDma ||| fcrRxMask) }
    | 3 => { vu with lcr := valueU8 } -- `UART16550_LCR`
    | 4 => -- `UART16550_MCR`
      let mcr := valueU8 &&& 0x1F#8
      { vu with mcr := mcr, msr := updateModemStatus (getModemStatus mcr) vu.msr }
    | 7 => { vu with scr := valueU8 } -- `UART16550_SCR`
    | _ => vu

/-- The `switch` of `vuart_read`: the value of a register, and the vUART after the read. -/
def readReg (vu : AcrnVuart V) : ℕ → Byte × AcrnVuart V
  | 0 => -- `UART16550_RBR`
    let r := vu.rxfifo.fifoGetchar
    (r.1, { vu with lsr := vu.lsr &&& ~~~lsrOe, rxfifo := r.2 })
  | 1 => (vu.ier, vu) -- `UART16550_IER`
  | 2 => -- `UART16550_IIR`
    let reason := vuartIntrReason vu
    ((if vu.fcr &&& fcrFifoe ≠ 0#8 then iirFifoMask else 0#8) ||| reason,
      { vu with threIntPending := if reason = iirTxrdy then false else vu.threIntPending })
  | 3 => (vu.lcr, vu) -- `UART16550_LCR`
  | 4 => (vu.mcr, vu) -- `UART16550_MCR`
  | 5 => -- `UART16550_LSR`
    let lsr := vu.lsr ||| (lsrTemt ||| lsrThre)
    let lsr := if 0 < vu.rxfifo.num then lsr ||| lsrDr else lsr &&& ~~~lsrDr
    (lsr, { vu with lsr := lsr &&& ~~~lsrOe })
  | 6 => (vu.msr, { vu with msr := vu.msr &&& ~~~msrDeltaMask }) -- `UART16550_MSR`
  | 7 => (vu.scr, vu) -- `UART16550_SCR`
  | _ => (0xFF#8, vu)

/-- `vuart_read`. -/
def vuartRead (vu : AcrnVuart V) (offset : ℕ) : Byte × AcrnVuart V :=
  if vu.lcr &&& lcrDlab ≠ 0#8 then
    (if offset = 0 then vu.dll else if offset = 1 then vu.dlh else 0#8, vu)
  else readReg vu offset

/-- The loop of `vuart_console_tx_chars`: the bytes it prints, until it gets a `-1`. -/
def vuartConsoleTxChars (vu : AcrnVuart V) : List Byte × AcrnVuart V :=
  let r := vuartGetchar vu
  if r.1 = 0xFF#8 then ([], r.2)
  else
    let rest := vuartConsoleTxChars r.2
    (r.1 :: rest.1, rest.2)
termination_by vu.txfifo.num
decreasing_by
  rename_i hne
  have hnum : (vuartGetchar vu).2.txfifo.num = vu.txfifo.num - 1 := vu.txfifo.fifoGetchar_num
  have hpos : 0 < vu.txfifo.num := by
    by_contra hzero
    refine hne (?_ : vu.txfifo.fifoGetchar.1 = _)
    rw [VuartFifo.fifoGetchar, dif_neg hzero]
  omega

/-- `vuart_console_rx_chars`, with the result of `uart16550_getc`. -/
def vuartConsoleRxChars (vu : AcrnVuart V) (ch : Byte) : AcrnVuart V :=
  if ch ≠ 0xFF#8 then vuartPutchar vu ch else vu

/-! ## Connected vUARTs -/

variable [DecidableEq V]

/-- `vuart_write`: outside the loopback mode a byte for the transmit register goes to the receive
FIFO of the connected vUART. -/
def vuartWrite (vuarts : V → AcrnVuart V) (u : V) (offset : ℕ) (value : BitVec 32) :
    V → AcrnVuart V :=
  let valueU8 := value.setWidth 8
  match (vuarts u).targetVu with
  | some t =>
    if (vuarts u).mcr &&& mcrLoopback = 0#8 ∧ offset = 0 then
      Function.update vuarts t (sendToTarget (vuarts t) valueU8)
    else Function.update vuarts u (writeReg (vuarts u) offset valueU8)
  | none => Function.update vuarts u (writeReg (vuarts u) offset valueU8)

/-- A call on one of the vUARTs. -/
inductive VuartCall (V : Type*) where
  /-- a guest writes a register -/
  | write (u : V) (offset : ℕ) (value : BitVec 32)
  /-- a guest reads a register -/
  | read (u : V) (offset : ℕ)
  | putchar (u : V) (ch : Byte)
  | getchar (u : V)
  /-- the console takes a character from the physical UART -/
  | rxChars (u : V) (ch : Byte)
  /-- the console drains the transmit FIFO -/
  | txChars (u : V)

/-- What a call returns or prints, and the vUARTs after it. -/
def VuartCall.run (vuarts : V → AcrnVuart V) : VuartCall V → List Byte × (V → AcrnVuart V)
  | write u offset value => ([], vuartWrite vuarts u offset value)
  | read u offset =>
    let r := vuartRead (vuarts u) offset
    ([r.1], Function.update vuarts u r.2)
  | putchar u ch => ([], Function.update vuarts u (vuartPutchar (vuarts u) ch))
  | getchar u =>
    let r := vuartGetchar (vuarts u)
    ([r.1], Function.update vuarts u r.2)
  | rxChars u ch => ([], Function.update vuarts u (vuartConsoleRxChars (vuarts u) ch))
  | txChars u =>
    let r := vuartConsoleTxChars (vuarts u)
    (r.1, Function.update vuarts u r.2)

/-- The vUARTs after a sequence of calls. -/
def runCalls (vuarts : V → AcrnVuart V) (calls : List (VuartCall V)) : V → AcrnVuart V :=
  calls.foldl (fun vuarts call => (call.run vuarts).2) vuarts

/-! ## What a 16550 does

A call is judged by what a 16550 would do: events for the two FIFOs, values of the registers. This
is stated of the state before the call and of what it returns. -/

/-- The divisor latch is selected. -/
def AcrnVuart.Dlab (vu : AcrnVuart V) : Prop := vu.lcr &&& lcrDlab ≠ 0#8

def AcrnVuart.Loopback (vu : AcrnVuart V) : Prop := vu.mcr &&& mcrLoopback ≠ 0#8

instance (vu : AcrnVuart V) : Decidable vu.Dlab := inferInstanceAs (Decidable (_ ≠ _))

instance (vu : AcrnVuart V) : Decidable vu.Loopback := inferInstanceAs (Decidable (_ ≠ _))

/-- What a call does to the receive FIFO of `v`: a byte that is written to the transmit register,
with the divisor latch off, enters the FIFO of the peer, or of the writer in loopback mode. -/
def rxEvents (vuarts : V → AcrnVuart V) (v : V) : VuartCall V → List (Event Byte)
  | .write u offset value =>
    if offset = 0 ∧ ¬ (vuarts u).Dlab then
      if (vuarts u).Loopback then (if u = v then [.put (value.setWidth 8)] else [])
      else if (vuarts u).targetVu = some v then [.put (value.setWidth 8)] else []
    else if offset = 2 ∧ u = v ∧ (value.setWidth 8 : Byte) &&& fcrFifoe ≠ 0#8 ∧
        (value.setWidth 8 : Byte) &&& fcrRfr ≠ 0#8 then [.clear]
    else []
  | .read u offset => if u = v ∧ offset = 0 ∧ ¬ (vuarts u).Dlab then [.take] else []
  | .putchar u ch => if u = v then [.put ch] else []
  | .rxChars u ch => if u = v ∧ ch ≠ 0xFF#8 then [.put ch] else []
  | _ => []

/-- What a call does to the transmit FIFO of `v`: it holds what an unconnected vUART sends, until
the host takes it. -/
def txEvents (vuarts : V → AcrnVuart V) (v : V) : VuartCall V → List (Event Byte)
  | .write u offset value =>
    if u = v ∧ offset = 0 ∧ ¬ (vuarts u).Dlab ∧ ¬ (vuarts u).Loopback ∧
        (vuarts u).targetVu = none then [.put (value.setWidth 8)] else []
  | .getchar u => if u = v then [.take] else []
  | .txChars u => if u = v then [.clear] else []
  | _ => []

/-- The line status register as a read finds it. -/
def AcrnVuart.lsrValue (vu : AcrnVuart V) : Byte :=
  if vu.rxfifo.contents = [] then (vu.lsr ||| (lsrTemt ||| lsrThre)) &&& ~~~lsrDr
  else vu.lsr ||| (lsrTemt ||| lsrThre) ||| lsrDr

/-- The registers that are read back whatever is selected. -/
def AcrnVuart.register (vu : AcrnVuart V) : ℕ → Option Byte
  | 3 => some vu.lcr
  | 4 => some vu.mcr
  | 5 => some vu.lsrValue
  | 7 => some vu.scr
  | _ => none

/-- With the divisor latch selected, a write at offset 0 or 1 changes nothing else. -/
def LatchOk (vuarts after : V → AcrnVuart V) : VuartCall V → Prop
  | .write u offset value => (vuarts u).Dlab →
    (offset = 0 → after = Function.update vuarts u { vuarts u with dll := value.setWidth 8 }) ∧
    (offset = 1 → after = Function.update vuarts u { vuarts u with dlh := value.setWidth 8 })
  | _ => True

/-- The registers are read back; the receive register and the host's reads deliver the oldest byte;
a drain prints all that was there. -/
def OutputOk (vuarts : V → AcrnVuart V) (output : List Byte) : VuartCall V → Prop
  | .read u offset =>
    (∀ value, (vuarts u).register offset = some value → output = [value]) ∧
    (offset = 0 → ¬ (vuarts u).Dlab → ∀ ch, (vuarts u).rxfifo.contents.head? = some ch →
      output = [ch])
  | .getchar u => ∀ ch, (vuarts u).txfifo.contents.head? = some ch → output = [ch]
  | .txChars u => output = (vuarts u).txfifo.contents
  | _ => True

/-- A call behaves as on a 16550. -/
structure CallOk (vuarts : V → AcrnVuart V) (call : VuartCall V) : Prop where
  rx : ∀ v, ((call.run vuarts).2 v).rxfifo.contents =
    replay rxBufSize (rxEvents vuarts v call) (vuarts v).rxfifo.contents
  tx : ∀ v, ((call.run vuarts).2 v).txfifo.contents =
    replay txBufSize (txEvents vuarts v call) (vuarts v).txfifo.contents
  latch : LatchOk vuarts (call.run vuarts).2 call
  output : OutputOk vuarts (call.run vuarts).1 call
  /-- the overrun error is set only when a byte is lost -/
  overrun : ∀ v, (vuarts v).lsr &&& lsrOe = 0#8 → ((call.run vuarts).2 v).lsr &&& lsrOe ≠ 0#8 →
    (vuarts v).rxfifo.contents.length = rxBufSize ∧ ∃ ch, rxEvents vuarts v call = [.put ch]

/-- The calls for which that is so. -/
def CallGood (vuarts : V → AcrnVuart V) : VuartCall V → Prop
  | .write u offset _ => offset = 0 →
    if (vuarts u).Dlab then (vuarts u).Loopback ∨ (vuarts u).targetVu = none
    else (vuarts u).Loopback → (vuarts u).lsr &&& lsrOe ≠ 0#8 ∨ (vuarts u).rxfifo.num = rxBufSize
  | .read u offset => (vuarts u).Dlab →
    ∀ value, (vuarts u).register offset = some value → value = 0#8
  | .txChars u => 0xFF#8 ∉ (vuarts u).txfifo.contents
  | _ => True

/-! ## Single registers

Each register concerns one part of the vUART. The lemmas say which, and are used for all calls. -/

section Registers

variable {vu : AcrnVuart V} {valueU8 : Byte}

omit [DecidableEq V]

theorem writeReg_latch (h : vu.Dlab) :
    writeReg vu 0 valueU8 = { vu with dll := valueU8 } ∧
      writeReg vu 1 valueU8 = { vu with dlh := valueU8 } :=
  ⟨if_pos ⟨h, rfl⟩, (if_neg (fun hc => absurd hc.2 (by decide))).trans (if_pos ⟨h, rfl⟩)⟩

theorem writeReg_thr (h : ¬ vu.Dlab) :
    writeReg vu 0 valueU8 = if vu.Loopback then
        { vu with
          rxfifo := vu.rxfifo.fifoPutchar valueU8
          lsr := vu.lsr ||| lsrOe
          threIntPending := true }
      else { vu with txfifo := vu.txfifo.fifoPutchar valueU8, threIntPending := true } := by
  rw [writeReg, if_neg (fun hc => h hc.1), if_neg (fun hc => h hc.1)]
  rfl

theorem writeReg_fcr (hfifoe : valueU8 &&& fcrFifoe ≠ 0#8) : (writeReg vu 2 valueU8).rxfifo =
    if valueU8 &&& fcrRfr ≠ 0#8 then vu.rxfifo.fifoReset else vu.rxfifo := by
  rw [writeReg, if_neg (fun hc => absurd hc.2 (by decide)),
    if_neg (fun hc => absurd hc.2 (by decide))]
  simp only [if_neg hfifoe]

/-- Besides the transmit register only a reset reaches the receive FIFO. -/
theorem writeReg_rx {reg : ℕ} (hthr : reg ≠ 0)
    (hreset : ¬ (reg = 2 ∧ valueU8 &&& fcrFifoe ≠ 0#8 ∧ valueU8 &&& fcrRfr ≠ 0#8)) :
    (writeReg vu reg valueU8).rxfifo = vu.rxfifo := by
  rcases reg with _ | _ | _ | _ | _ | _ | _ | _ | reg
  case zero => exact absurd rfl hthr
  case succ.succ.zero =>
    by_cases hfifoe : valueU8 &&& fcrFifoe = 0#8
    · rw [writeReg, if_neg (fun hc => absurd hc.2 (by decide)),
        if_neg (fun hc => absurd hc.2 (by decide))]
      simp only [if_pos hfifoe]
    · have hrfr : ¬ valueU8 &&& fcrRfr ≠ 0#8 := fun h => hreset ⟨rfl, hfifoe, h⟩
      exact (writeReg_fcr hfifoe).trans (if_neg hrfr)
  all_goals
    unfold writeReg
    split_ifs <;> rfl

/-- The other registers leave the transmit FIFO and the line status alone. -/
theorem writeReg_tx {reg : ℕ} (hthr : reg ≠ 0) :
    (writeReg vu reg valueU8).txfifo = vu.txfifo ∧ (writeReg vu reg valueU8).lsr = vu.lsr := by
  rcases reg with _ | _ | _ | _ | _ | _ | _ | _ | reg
  case zero => exact absurd rfl hthr
  case succ.succ.zero =>
    rw [writeReg, if_neg (fun hc => absurd hc.2 (by decide)),
      if_neg (fun hc => absurd hc.2 (by decide))]
    by_cases hfifoe : valueU8 &&& fcrFifoe = 0#8
    · simp only [if_pos hfifoe, and_self]
    · simp only [if_neg hfifoe, and_self]
  all_goals
    unfold writeReg
    split_ifs <;> exact ⟨rfl, rfl⟩

theorem vuartRead_dlab (h : vu.Dlab) (offset : ℕ) : vuartRead vu offset =
    (if offset = 0 then vu.dll else if offset = 1 then vu.dlh else 0#8, vu) := if_pos h

theorem vuartRead_of_not (h : ¬ vu.Dlab) (offset : ℕ) : vuartRead vu offset = readReg vu offset :=
  if_neg h

/-- Besides the receive register no read reaches the receive FIFO. -/
theorem vuartRead_rx {offset : ℕ} (h : ¬ (offset = 0 ∧ ¬ vu.Dlab)) :
    (vuartRead vu offset).2.rxfifo = vu.rxfifo := by
  by_cases hdlab : vu.Dlab
  · rw [vuartRead_dlab hdlab]
  · rw [vuartRead_of_not hdlab]
    rcases offset with _ | _ | _ | _ | _ | _ | _ | _ | offset
    case zero => exact absurd ⟨rfl, hdlab⟩ h
    all_goals rfl

theorem vuartRead_tx (offset : ℕ) : (vuartRead vu offset).2.txfifo = vu.txfifo := by
  by_cases hdlab : vu.Dlab
  · rw [vuartRead_dlab hdlab]
  · rw [vuartRead_of_not hdlab]
    rcases offset with _ | _ | _ | _ | _ | _ | _ | _ | offset <;> rfl

/-- A read does not set the overrun error. -/
theorem vuartRead_oe {offset : ℕ} (h : vu.lsr &&& lsrOe = 0#8) :
    (vuartRead vu offset).2.lsr &&& lsrOe = 0#8 := by
  have hclear : ∀ x : Byte, x &&& ~~~lsrOe &&& lsrOe = 0#8 := by
    intro x
    rw [BitVec.and_assoc, show ~~~lsrOe &&& lsrOe = 0#8 by decide, BitVec.and_zero]
  by_cases hdlab : vu.Dlab
  · rwa [vuartRead_dlab hdlab]
  · rw [vuartRead_of_not hdlab]
    rcases offset with _ | _ | _ | _ | _ | _ | _ | _ | offset
    case zero => exact hclear _
    case succ.succ.succ.succ.succ.zero => exact hclear _
    all_goals exact h

/-- With the divisor latch off, the registers are read back. -/
theorem vuartRead_register (h : ¬ vu.Dlab) {offset : ℕ} {value : Byte}
    (hreg : vu.register offset = some value) : (vuartRead vu offset).1 = value := by
  have hlsr : (readReg vu 5).1 = vu.lsrValue := by
    have hlen := vu.rxfifo.length_contents
    by_cases hnil : vu.rxfifo.contents = []
    · rw [hnil, List.length_nil] at hlen
      rw [AcrnVuart.lsrValue, if_pos hnil]
      exact if_neg (by omega)
    · have hpos := List.length_pos_iff.mpr hnil
      rw [AcrnVuart.lsrValue, if_neg hnil]
      exact if_pos (by omega)
  rw [vuartRead_of_not h]
  rcases offset with _ | _ | _ | _ | _ | _ | _ | _ | offset
  case succ.succ.succ.zero => exact Option.some.inj hreg
  case succ.succ.succ.succ.zero => exact Option.some.inj hreg
  case succ.succ.succ.succ.succ.zero => exact hlsr.trans (Option.some.inj hreg)
  case succ.succ.succ.succ.succ.succ.succ.zero => exact Option.some.inj hreg
  all_goals cases hreg

/-- With the divisor latch selected, everything but the latch is read as zero. -/
theorem vuartRead_register_dlab (h : vu.Dlab) {offset : ℕ} {value : Byte}
    (hreg : vu.register offset = some value) : (vuartRead vu offset).1 = 0#8 := by
  rw [vuartRead_dlab h]
  rcases offset with _ | _ | offset
  · cases hreg
  · cases hreg
  · rfl

/-- **A drain** empties a FIFO that holds no byte `0xFF`, and prints what it held. -/
theorem vuartConsoleTxChars_spec (vu : AcrnVuart V) (h : 0xFF#8 ∉ vu.txfifo.contents) :
    (vuartConsoleTxChars vu).1 = vu.txfifo.contents ∧
      (vuartConsoleTxChars vu).2.txfifo.contents = [] ∧
      (vuartConsoleTxChars vu).2.rxfifo = vu.rxfifo ∧ (vuartConsoleTxChars vu).2.lsr = vu.lsr := by
  fun_induction vuartConsoleTxChars vu with
  | case1 vu r hff =>
    have hget : vu.txfifo.contents.head?.getD 0xFF#8 = 0xFF#8 :=
      vu.txfifo.fifoGetchar_fst.symm.trans hff
    have hnil : vu.txfifo.contents = [] := by
      cases hc : vu.txfifo.contents with
      | nil => rfl
      | cons ch rest =>
        rw [hc] at hget h
        exact absurd (hget ▸ List.mem_cons_self) h
    refine ⟨hnil.symm, ?_, rfl, rfl⟩
    exact vu.txfifo.contents_fifoGetchar.trans (by rw [hnil, List.tail_nil])
  | case2 vu r hff rest ih =>
    have hget : r.1 = vu.txfifo.contents.head?.getD 0xFF#8 := vu.txfifo.fifoGetchar_fst
    have htail : r.2.txfifo.contents = vu.txfifo.contents.tail := vu.txfifo.contents_fifoGetchar
    cases hc : vu.txfifo.contents with
    | nil =>
      rw [hc] at hget
      exact absurd hget hff
    | cons ch bytes =>
      rw [hc] at hget htail h
      rw [htail, List.tail_cons] at ih
      obtain ⟨hprint, hempty, hrx, hlsr⟩ := ih fun hmem => h (List.mem_cons_of_mem _ hmem)
      exact ⟨congrArg₂ List.cons hget hprint, hempty, hrx, hlsr⟩

/-- At a byte `0xFF` a drain stops. -/
theorem vuartConsoleTxChars_stop {vu : AcrnVuart V} (h : (vuartGetchar vu).1 = 0xFF#8) :
    vuartConsoleTxChars vu = ([], (vuartGetchar vu).2) := by
  rw [vuartConsoleTxChars]
  exact if_pos h

theorem vuartConsoleTxChars_active (vu : AcrnVuart V) :
    (vuartConsoleTxChars vu).2.active = vu.active := by
  fun_induction vuartConsoleTxChars vu with
  | case1 vu r hff => rfl
  | case2 vu r hff rest ih => exact ih

end Registers

/-! ## Calls -/

section Calls

variable {vuarts : V → AcrnVuart V}

@[simp] theorem replay_nil {size : ℕ} (q : List Byte) : replay size [] q = q := rfl

@[simp] theorem replay_singleton {size : ℕ} (e : Event Byte) (q : List Byte) :
    replay size [e] q = e.apply size q := rfl

/-- A call that replaces one vUART and concerns no other. -/
theorem CallOk.of_update {call : VuartCall V} (u : V) (vu : AcrnVuart V)
    (hrun : (call.run vuarts).2 = Function.update vuarts u vu)
    (hother : ∀ v, v ≠ u → rxEvents vuarts v call = [] ∧ txEvents vuarts v call = [])
    (hrx : vu.rxfifo.contents =
      replay rxBufSize (rxEvents vuarts u call) (vuarts u).rxfifo.contents)
    (htx : vu.txfifo.contents =
      replay txBufSize (txEvents vuarts u call) (vuarts u).txfifo.contents)
    (hlatch : LatchOk vuarts (Function.update vuarts u vu) call)
    (houtput : OutputOk vuarts (call.run vuarts).1 call)
    (hoverrun : (vuarts u).lsr &&& lsrOe = 0#8 → vu.lsr &&& lsrOe ≠ 0#8 →
      (vuarts u).rxfifo.contents.length = rxBufSize ∧ ∃ ch, rxEvents vuarts u call = [.put ch]) :
    CallOk vuarts call := by
  refine ⟨fun v => ?_, fun v => ?_, hrun ▸ hlatch, houtput, fun v hclear hset => ?_⟩
  · rw [hrun]
    by_cases hv : v = u
    · subst hv
      rwa [Function.update_self]
    · rw [Function.update_of_ne hv, (hother v hv).1, replay_nil]
  · rw [hrun]
    by_cases hv : v = u
    · subst hv
      rwa [Function.update_self]
    · rw [Function.update_of_ne hv, (hother v hv).2, replay_nil]
  · rw [hrun] at hset
    by_cases hv : v = u
    · subst hv
      rw [Function.update_self] at hset
      exact hoverrun hclear hset
    · rw [Function.update_of_ne hv] at hset
      exact absurd hclear hset

theorem vuartWrite_target {u t : V} (ht : (vuarts u).targetVu = some t)
    (hloop : ¬ (vuarts u).Loopback) (value : BitVec 32) : vuartWrite vuarts u 0 value =
      Function.update vuarts t (sendToTarget (vuarts t) (value.setWidth 8)) := by
  rw [vuartWrite, ht]
  exact if_pos ⟨not_not.mp hloop, rfl⟩

theorem vuartWrite_reg {u : V} {offset : ℕ}
    (h : offset ≠ 0 ∨ (vuarts u).Loopback ∨ (vuarts u).targetVu = none) (value : BitVec 32) :
    vuartWrite vuarts u offset value =
      Function.update vuarts u (writeReg (vuarts u) offset (value.setWidth 8)) := by
  rw [vuartWrite]
  split
  · next t ht =>
    refine if_neg ?_
    rintro ⟨hloop, rfl⟩
    rcases h with h | h | h
    · exact h rfl
    · exact h hloop
    · rw [ht] at h
      cases h
  · rfl

/-- A byte for the peer. -/
theorem callOk_send {u t : V} (hactive : (vuarts t).active = true)
    (ht : (vuarts u).targetVu = some t) (hloop : ¬ (vuarts u).Loopback)
    (hdlab : ¬ (vuarts u).Dlab) (value : BitVec 32) : CallOk vuarts (.write u 0 value) := by
  have hrx : ∀ v, rxEvents vuarts v (.write u 0 value) =
      if t = v then [.put (value.setWidth 8)] else [] := by
    intro v
    rw [rxEvents, if_pos ⟨rfl, hdlab⟩, if_neg hloop, ht]
    simp only [Option.some.injEq]
  have htx : ∀ v, txEvents vuarts v (.write u 0 value) = [] := by
    intro v
    refine if_neg fun h => ?_
    rw [ht] at h
    cases h.2.2.2.2
  have hsend : sendToTarget (vuarts t) (value.setWidth 8) = { vuarts t with
      rxfifo := (vuarts t).rxfifo.fifoPutchar (value.setWidth 8), threIntPending := true } :=
    if_pos hactive
  refine .of_update _ _ ((vuartWrite_target ht hloop value).trans (congrArg _ hsend))
    (fun v hv => ⟨(hrx v).trans (if_neg (Ne.symm hv)), htx v⟩) ?_ ?_
    (fun hd => absurd hd hdlab) trivial fun hclear hset => absurd hclear hset
  · rw [hrx, if_pos rfl, replay_singleton]
    exact (vuarts t).rxfifo.contents_fifoPutchar _
  · rw [htx, replay_nil]

/-- A write that reaches a register of the vUART itself. -/
theorem callOk_writeReg {u : V} {offset : ℕ} {value : BitVec 32}
    (h : offset ≠ 0 ∨ (vuarts u).Loopback ∨ (vuarts u).targetVu = none)
    (hgood : CallGood vuarts (.write u offset value)) : CallOk vuarts (.write u offset value) := by
  set vu := vuarts u
  set ch : Byte := value.setWidth 8 with hch
  have hother : ∀ v, v ≠ u → rxEvents vuarts v (.write u offset value) = [] ∧
      txEvents vuarts v (.write u offset value) = [] := by
    intro v hv
    refine ⟨?_, if_neg fun hc => hv hc.1.symm⟩
    rw [rxEvents]
    split_ifs with hthr hloop hu ht hfcr
    · exact absurd hu (Ne.symm hv)
    · rfl
    · rcases h with h | h | h
      · exact absurd hthr.1 h
      · exact absurd h hloop
      · rw [h] at ht
        cases ht
    · rfl
    · exact absurd hfcr.2.1 (Ne.symm hv)
    · rfl
  by_cases hthr : offset = 0
  · subst hthr
    by_cases hdlab : vu.Dlab
    · -- the divisor latch
      have hrx : rxEvents vuarts u (.write u 0 value) = [] := by
        rw [rxEvents, if_neg (fun hc => hc.2 hdlab), if_neg (fun hc => absurd hc.1 (by decide))]
      have htx : txEvents vuarts u (.write u 0 value) = [] := if_neg fun hc => hc.2.2.1 hdlab
      refine .of_update u { vu with dll := ch } ?_ hother ?_ ?_ ?_ trivial
        fun hclear hset => absurd hclear hset
      · exact (vuartWrite_reg h value).trans (congrArg _ (writeReg_latch hdlab).1)
      · rw [hrx, replay_nil]
      · rw [htx, replay_nil]
      · exact fun _ => ⟨fun _ => rfl, fun hc => absurd hc (by decide)⟩
    by_cases hloop : vu.Loopback
    · -- a byte for the vUART itself
      have hrx : rxEvents vuarts u (.write u 0 value) = [.put ch] := by
        rw [rxEvents, if_pos ⟨rfl, hdlab⟩, if_pos hloop, if_pos rfl]
      have htx : txEvents vuarts u (.write u 0 value) = [] := if_neg fun hc => hc.2.2.2.1 hloop
      have hreg : writeReg vu 0 ch = { vu with
          rxfifo := vu.rxfifo.fifoPutchar ch
          lsr := vu.lsr ||| lsrOe
          threIntPending := true } := (writeReg_thr hdlab).trans (if_pos hloop)
      refine .of_update _ _ ((vuartWrite_reg h value).trans (congrArg _ hreg)) hother ?_ ?_
        (fun hc => absurd hc hdlab) trivial fun hclear _ => ?_
      · rw [hrx, replay_singleton]
        exact vu.rxfifo.contents_fifoPutchar ch
      · rw [htx, replay_nil]
      · have hfull := hgood rfl
        rw [if_neg hdlab] at hfull
        rcases hfull hloop with hset | hfull
        · exact absurd hclear hset
        · exact ⟨(VuartFifo.length_contents _).trans hfull, ch, hrx⟩
    · -- a byte for the console
      have hnone : vu.targetVu = none := by
        rcases h with h | h | h
        · exact absurd rfl h
        · exact absurd h hloop
        · exact h
      have hrx : rxEvents vuarts u (.write u 0 value) = [] := by
        rw [rxEvents, if_pos ⟨rfl, hdlab⟩, if_neg hloop, if_neg]
        intro hc
        exact absurd (hnone.symm.trans hc) (by simp)
      have htx : txEvents vuarts u (.write u 0 value) = [.put ch] :=
        if_pos ⟨rfl, rfl, hdlab, hloop, hnone⟩
      have hreg : writeReg vu 0 ch = { vu with
          txfifo := vu.txfifo.fifoPutchar ch, threIntPending := true } :=
        (writeReg_thr hdlab).trans (if_neg hloop)
      refine .of_update _ _ ((vuartWrite_reg h value).trans (congrArg _ hreg)) hother ?_ ?_
        (fun hc => absurd hc hdlab) trivial fun hclear hset => absurd hclear hset
      · rw [hrx, replay_nil]
      · rw [htx, replay_singleton]
        exact vu.txfifo.contents_fifoPutchar ch
  · -- another register
    have htx : txEvents vuarts u (.write u offset value) = [] := if_neg fun hc => hthr hc.2.1
    have hframe : (writeReg vu offset ch).txfifo = vu.txfifo ∧ (writeReg vu offset ch).lsr = vu.lsr :=
      writeReg_tx hthr
    obtain ⟨htxfifo, hlsr⟩ := hframe
    refine .of_update _ _ (vuartWrite_reg h value) hother ?_ ?_ ?_ trivial fun hclear hset => ?_
    · by_cases hreset : offset = 2 ∧ ch &&& fcrFifoe ≠ 0#8 ∧ ch &&& fcrRfr ≠ 0#8
      · obtain ⟨rfl, hfifoe, hrfr⟩ := hreset
        have hrx : rxEvents vuarts u (.write u 2 value) = [.clear] := by
          rw [rxEvents, if_neg (fun hc => hthr hc.1), if_pos ⟨rfl, rfl, hfifoe, hrfr⟩]
        rw [hrx, replay_singleton, (writeReg_fcr hfifoe).trans (if_pos hrfr)]
        exact vu.rxfifo.contents_fifoReset
      · have hrx : rxEvents vuarts u (.write u offset value) = [] := by
          rw [rxEvents, if_neg (fun hc => hthr hc.1)]
          exact if_neg fun hc => hreset ⟨hc.1, hc.2.2⟩
        rw [hrx, replay_nil, writeReg_rx hthr hreset]
    · rw [htx, replay_nil, htxfifo]
    · intro hdlab
      refine ⟨fun hc => absurd hc hthr, ?_⟩
      rintro rfl
      exact congrArg _ (writeReg_latch hdlab).2
    · rw [hlsr] at hset
      exact absurd hclear hset

theorem callOk_read {u : V} {offset : ℕ} (hgood : CallGood vuarts (.read u offset)) :
    CallOk vuarts (.read u offset) := by
  set vu := vuarts u with hvu
  have hother : ∀ v, v ≠ u → rxEvents vuarts v (.read u offset) = [] ∧
      txEvents vuarts v (.read u offset) = [] :=
    fun v hv => ⟨if_neg fun hc => hv hc.1.symm, rfl⟩
  have houtput : OutputOk vuarts [(vuartRead vu offset).1] (.read u offset) := by
    refine ⟨fun value hreg => ?_, ?_⟩
    · by_cases hdlab : vu.Dlab
      · rw [hgood hdlab value hreg, vuartRead_register_dlab hdlab hreg]
      · rw [vuartRead_register hdlab hreg]
    · rintro rfl hdlab ch hhead
      rw [← hvu] at hdlab hhead
      rw [vuartRead_of_not hdlab]
      refine congrArg (fun c => [c]) (vu.rxfifo.fifoGetchar_fst.trans ?_)
      rw [hhead, Option.getD_some]
  refine .of_update u (vuartRead vu offset).2 rfl hother ?_ ?_ trivial houtput
    fun hclear hset => absurd (vuartRead_oe hclear) hset
  · by_cases htake : offset = 0 ∧ ¬ vu.Dlab
    · obtain ⟨rfl, hdlab⟩ := htake
      have hrx : rxEvents vuarts u (.read u 0) = [.take] := if_pos ⟨rfl, rfl, hdlab⟩
      rw [hrx, replay_singleton, vuartRead_of_not hdlab]
      exact vu.rxfifo.contents_fifoGetchar
    · have hrx : rxEvents vuarts u (.read u offset) = [] := if_neg fun hc => htake hc.2
      rw [hrx, replay_nil, vuartRead_rx htake]
  · rw [vuartRead_tx]
    exact (replay_nil _).symm

theorem callOk_putchar (u : V) (ch : Byte) : CallOk vuarts (.putchar u ch) := by
  have hother : ∀ v, v ≠ u → rxEvents vuarts v (.putchar u ch) = [] ∧
      txEvents vuarts v (.putchar u ch) = [] :=
    fun v hv => ⟨if_neg (Ne.symm hv), rfl⟩
  have hrx : rxEvents vuarts u (.putchar u ch) = [.put ch] := if_pos rfl
  refine .of_update u (vuartPutchar (vuarts u) ch) rfl hother ?_
    (replay_nil _).symm trivial trivial fun hclear hset => absurd hclear hset
  rw [hrx, replay_singleton]
  exact (vuarts u).rxfifo.contents_fifoPutchar ch

theorem callOk_getchar (u : V) : CallOk vuarts (.getchar u) := by
  have hother : ∀ v, v ≠ u → rxEvents vuarts v (.getchar u) = [] ∧
      txEvents vuarts v (.getchar u) = [] :=
    fun v hv => ⟨rfl, if_neg (Ne.symm hv)⟩
  have htx : txEvents vuarts u (.getchar u) = [.take] := if_pos rfl
  have houtput : OutputOk vuarts [(vuartGetchar (vuarts u)).1] (.getchar u) := by
    intro ch hhead
    refine congrArg (fun c => [c]) ((vuarts u).txfifo.fifoGetchar_fst.trans ?_)
    rw [hhead, Option.getD_some]
  refine .of_update u (vuartGetchar (vuarts u)).2 rfl hother
    (replay_nil _).symm ?_ trivial houtput fun hclear hset => absurd hclear hset
  rw [htx, replay_singleton]
  exact (vuarts u).txfifo.contents_fifoGetchar

theorem callOk_rxChars (u : V) (ch : Byte) : CallOk vuarts (.rxChars u ch) := by
  have hother : ∀ v, v ≠ u → rxEvents vuarts v (.rxChars u ch) = [] ∧
      txEvents vuarts v (.rxChars u ch) = [] :=
    fun v hv => ⟨if_neg fun hc => hv hc.1.symm, rfl⟩
  by_cases hch : ch = 0xFF#8
  · have hrx : rxEvents vuarts u (.rxChars u ch) = [] := if_neg fun hc => hc.2 hch
    have hrun : vuartConsoleRxChars (vuarts u) ch = vuarts u := if_neg (not_not.mpr hch)
    refine .of_update u (vuarts u) (congrArg (Function.update vuarts u) hrun)
      hother ?_ (replay_nil _).symm trivial trivial fun hclear hset => absurd hclear hset
    rw [hrx, replay_nil]
  · have hrx : rxEvents vuarts u (.rxChars u ch) = [.put ch] := if_pos ⟨rfl, hch⟩
    have hrun : vuartConsoleRxChars (vuarts u) ch = vuartPutchar (vuarts u) ch := if_pos hch
    refine .of_update u (vuartPutchar (vuarts u) ch) (congrArg (Function.update vuarts u) hrun)
      hother ?_ (replay_nil _).symm trivial trivial fun hclear hset => absurd hclear hset
    rw [hrx, replay_singleton]
    exact (vuarts u).rxfifo.contents_fifoPutchar ch

theorem callOk_txChars {u : V} (hgood : CallGood vuarts (.txChars u)) :
    CallOk vuarts (.txChars u) := by
  have hother : ∀ v, v ≠ u → rxEvents vuarts v (.txChars u) = [] ∧
      txEvents vuarts v (.txChars u) = [] :=
    fun v hv => ⟨rfl, if_neg (Ne.symm hv)⟩
  have htx : txEvents vuarts u (.txChars u) = [.clear] := if_pos rfl
  obtain ⟨hprint, hempty, hrx, hlsr⟩ := vuartConsoleTxChars_spec (vuarts u) hgood
  refine .of_update u (vuartConsoleTxChars (vuarts u)).2 rfl hother ?_ ?_ trivial
    hprint fun hclear hset => ?_
  · rw [hrx]
    exact (replay_nil _).symm
  · rw [htx, replay_singleton]
    exact hempty
  · rw [hlsr] at hset
    exact absurd hclear hset

/-- The connections and the activity of the vUARTs do not change. -/
theorem VuartCall.run_active (call : VuartCall V) (v : V) :
    ((call.run vuarts).2 v).active = (vuarts v).active := by
  have hupdate : ∀ (u : V) (vu : AcrnVuart V), vu.active = (vuarts u).active →
      (Function.update vuarts u vu v).active = (vuarts v).active := by
    intro u vu hvu
    by_cases hv : v = u
    · rw [hv, Function.update_self, hvu]
    · rw [Function.update_of_ne hv]
  have hreg : ∀ (u : V) (offset : ℕ) (ch : Byte),
      (writeReg (vuarts u) offset ch).active = (vuarts u).active := by
    intro u offset ch
    rcases offset with _ | _ | _ | _ | _ | _ | _ | _ | offset
    all_goals
      unfold writeReg
      dsimp only
      split_ifs <;> rfl
  cases call with
  | write u offset value =>
    rw [VuartCall.run, vuartWrite]
    split
    · next t _ =>
      split
      · refine hupdate t _ ?_
        rw [sendToTarget]
        split <;> rfl
      · exact hupdate u _ (hreg u offset _)
    · exact hupdate u _ (hreg u offset _)
  | read u offset =>
    refine hupdate u _ ?_
    rw [vuartRead]
    split
    · rfl
    · rcases offset with _ | _ | _ | _ | _ | _ | _ | _ | offset <;> rfl
  | putchar u ch => exact hupdate u _ rfl
  | getchar u => exact hupdate u _ rfl
  | rxChars u ch =>
    refine hupdate u _ ?_
    rw [vuartConsoleRxChars]
    split <;> rfl
  | txChars u => exact hupdate u _ (vuartConsoleTxChars_active _)

/-- Each call behaves as on a 16550 outside the cases that `CallGood` excludes. -/
theorem CallGood.ok {call : VuartCall V} (hactive : ∀ v, (vuarts v).active = true)
    (hgood : CallGood vuarts call) : CallOk vuarts call := by
  cases call with
  | write u offset value =>
    by_cases hreg : offset ≠ 0 ∨ (vuarts u).Loopback ∨ (vuarts u).targetVu = none
    · exact callOk_writeReg hreg hgood
    · push Not at hreg
      obtain ⟨rfl, hloop, htarget⟩ := hreg
      obtain ⟨t, ht⟩ := Option.ne_none_iff_exists'.mp htarget
      have hdlab : ¬ (vuarts u).Dlab := by
        intro hd
        have h := hgood rfl
        rw [if_pos hd] at h
        rcases h with h | h
        · exact hloop h
        · exact htarget h
      exact callOk_send (hactive t) ht hloop hdlab value
  | read u offset => exact callOk_read hgood
  | putchar u ch => exact callOk_putchar u ch
  | getchar u => exact callOk_getchar u
  | rxChars u ch => exact callOk_rxChars u ch
  | txChars u => exact callOk_txChars hgood

end Calls

/-! ## Runs

The contents of a FIFO are its history replayed: what was put and not taken, and of that the last
bytes. By induction a run is the sum of its calls. -/

section Runs

variable {vuarts : V → AcrnVuart V}

/-- Every call of a sequence behaves as on a 16550. -/
def CallsOk (vuarts : V → AcrnVuart V) : List (VuartCall V) → Prop
  | [] => True
  | call :: calls => CallOk vuarts call ∧ CallsOk (call.run vuarts).2 calls

def CallsGood (vuarts : V → AcrnVuart V) : List (VuartCall V) → Prop
  | [] => True
  | call :: calls => CallGood vuarts call ∧ CallsGood (call.run vuarts).2 calls

/-- What happened to the receive FIFO of `v`. -/
def rxHistory (vuarts : V → AcrnVuart V) (v : V) : List (VuartCall V) → List (Event Byte)
  | [] => []
  | call :: calls => rxEvents vuarts v call ++ rxHistory (call.run vuarts).2 v calls

/-- What happened to the transmit FIFO of `v`. -/
def txHistory (vuarts : V → AcrnVuart V) (v : V) : List (VuartCall V) → List (Event Byte)
  | [] => []
  | call :: calls => txEvents vuarts v call ++ txHistory (call.run vuarts).2 v calls

/-- **The vUARTs deliver what was transmitted.** In every run without the excluded cases each call
behaves as on a 16550, and each FIFO holds what is left of the bytes that were put into it: the
transmitted ones, in order. -/
theorem vuart_delivers {calls : List (VuartCall V)} (hactive : ∀ v, (vuarts v).active = true)
    (hgood : CallsGood vuarts calls) :
    CallsOk vuarts calls ∧ ∀ v,
      (runCalls vuarts calls v).rxfifo.contents =
        replay rxBufSize (rxHistory vuarts v calls) (vuarts v).rxfifo.contents ∧
      (runCalls vuarts calls v).txfifo.contents =
        replay txBufSize (txHistory vuarts v calls) (vuarts v).txfifo.contents := by
  induction calls generalizing vuarts with
  | nil => exact ⟨trivial, fun v => ⟨(replay_nil _).symm, (replay_nil _).symm⟩⟩
  | cons call calls ih =>
    have hok := CallGood.ok hactive hgood.1
    have hactive' : ∀ v, ((call.run vuarts).2 v).active = true :=
      fun v => (call.run_active v).trans (hactive v)
    obtain ⟨hrest, hfifos⟩ := ih hactive' hgood.2
    refine ⟨⟨hok, hrest⟩, fun v => ⟨?_, ?_⟩⟩
    · rw [rxHistory, replay_append, ← hok.rx v]
      exact (hfifos v).1
    · rw [txHistory, replay_append, ← hok.tx v]
      exact (hfifos v).2

/-- A FIFO after `vuart_fifo_init`. -/
def vuartFifoInit {size : ℕ} (h : 0 < size) : VuartFifo size where
  buf := fun _ => 0#8
  rindex := 0
  windex := 0
  num := 0
  rindex_lt := h
  num_le := Nat.zero_le _
  windex_eq := (Nat.zero_mod _).symm

/-- A vUART after its first `vuart_setup`. -/
def vuartSetup (targetVu : Option V) : AcrnVuart V where
  ier := 0#8
  lcr := 0#8
  mcr := 0#8
  lsr := 0#8
  msr := 0#8
  fcr := 0#8
  scr := 0#8
  dll := 1#8
  dlh := 0#8
  rxfifo := vuartFifoInit (by decide)
  txfifo := vuartFifoInit (by decide)
  threIntPending := true
  active := true
  targetVu := targetVu

/-- Two connected vUARTs. -/
def connectedPair (u : Bool) : AcrnVuart Bool := vuartSetup (some !u)

/-- A vUART for the console. -/
def consoleVuart (_ : Unit) : AcrnVuart Unit := vuartSetup none

/-- Two bytes reach the peer. -/
theorem vuart_delivers_pair :
    (runCalls connectedPair [.write false 0 0x61#32, .write false 0 0x62#32]
      true).rxfifo.contents = [0x61#8, 0x62#8] := by
  have hgood : CallsGood connectedPair [.write false 0 0x61#32, .write false 0 0x62#32] := by
    refine ⟨fun _ => ?_, fun _ => ?_, trivial⟩
    all_goals
      rw [if_neg (by decide)]
      exact fun hloop => absurd hloop (by decide)
  exact ((vuart_delivers (fun _ => rfl) hgood).2 true).1.trans (by decide)

/-- Where a vUART misses. With the divisor latch selected a write of the divisor reaches the peer,
and the line control register is read as zero; a byte in loopback mode sets the overrun error of an
empty FIFO; and a drain stops at a byte `0xFF`. -/
theorem vuart_misses :
    ¬ CallsOk connectedPair [.write false 3 0x80#32, .write false 0 0x0C#32] ∧
    ¬ CallsOk connectedPair [.write false 3 0x80#32, .read false 3] ∧
    ¬ CallsOk connectedPair [.write false 4 0x10#32, .write false 0 0x61#32] ∧
    ¬ CallsOk consoleVuart [.write () 0 0xFF#32, .write () 0 0x61#32, .txChars ()] := by
  refine ⟨?_, ?_, ?_, ?_⟩
  · rintro ⟨-, hwrite, -⟩
    exact absurd (hwrite.rx true) (by decide)
  · rintro ⟨-, hread, -⟩
    exact absurd (hread.output.1 0x80#8 (by decide)) (by decide)
  · rintro ⟨-, hwrite, -⟩
    exact absurd (hwrite.overrun false (by decide) (by decide)).1 (by decide)
  · rintro ⟨-, -, hdrain, -⟩
    have hstop : ∀ vuarts : Unit → AcrnVuart Unit, (vuartGetchar (vuarts ())).1 = 0xFF#8 →
        CallOk vuarts (.txChars ()) → (vuarts ()).txfifo.contents = [] := fun vuarts hff hok =>
      hok.output.symm.trans (congrArg Prod.fst (vuartConsoleTxChars_stop hff))
    exact absurd (hstop _ (by decide) hdrain) (by decide)

end Runs

end Acrn
