import Resmod.Library.BoundedQueue
import Resmod.Library.Machine
import Resmod.Model.SspInterrupt

/-!
# An SSP with character queues

`FreeRTOS_SSP_write` and `FreeRTOS_SSP_read` in their character-queue modes and
`SPI_IRQHandler`, with the functions of `IOUtils_CharQueueTxAndRx.c` and the macros they use,
and the SPI.  A word is shifted in for each word that is shifted out.

The write puts its bytes into the queue and stores the first one into `DR`; the handler
stores another one for each word that it has received.  The read writes as many bytes `0xFF`
as it is to read, while `ulReceiveActive` makes the handler keep the words received.

One task writes and reads.  The handler preempts it between any two statements and runs to
its end; the SPI goes on meanwhile.
-/

set_option autoImplicit false

namespace Resmod.Model

open Resmod.Library

namespace SspCharQueue

open SspInterrupt (StatusReg)

/-! ## The SPI -/

/-- The registers.  `TXE` is set while no word waits in `DR` for the shift register. -/
structure Spi where
  dr : Option UInt8
  shift : Option UInt8
  /-- The word that a read of `DR` delivers. -/
  received : UInt8
  rxne : Bool
  ovr : Bool
  /-- `DR` has been read: the next read of `SR` clears `OVR`. -/
  drRead : Bool
  rxneie : Bool
  deriving DecidableEq, Repr

namespace Spi

/-- The flags that a read of `SR` finds. -/
def sr (u : Spi) : StatusReg := ⟨u.ovr, u.rxne, u.dr.isNone⟩

/-- A word is stored into `DR`; it goes on to the shift register if that is free. -/
def store (u : Spi) (c : UInt8) : Spi :=
  match u.shift with
  | none => { u with shift := some c }
  | some _ => { u with dr := some c }

/-- A word has been shifted out, and `w` in.  If the last one was not read, `w` is lost and `OVR`
set. -/
def shiftWord (u : Spi) (w : UInt8) : Spi :=
  if u.rxne then { u with shift := u.dr, dr := none, ovr := true, drRead := false }
  else { u with shift := u.dr, dr := none, received := w, rxne := true }

/-- A read of `DR` clears RXNE. -/
def readDR (u : Spi) : Spi := { u with rxne := false, drRead := true }

/-- A read of `SR` behind one of `DR` clears OVR. -/
def readSR (u : Spi) : Spi :=
  if u.drRead then { u with ovr := false, drRead := false } else u

end Spi

/-! ## The task and the handler -/

/-- Who has called `FreeRTOS_SSP_write`. -/
inductive Caller
  | task
  | read (xBytes : ℕ)
  deriving DecidableEq, Repr

/-- The statements of `ioutilsFILL_FIFO_FROM_TX_QUEUE`, whose loop is run once. -/
inductive Fill
  | disableIT
  | testTxe
  | receive
  | peripheralWrite (ucChar : UInt8)
  | enableIT
  deriving DecidableEq, Repr

/-- The statement the task is before. -/
inductive Place
  | outside
  /-- `xQueueSend` in `xIOUtilsSendCharsToTxQueue` -/
  | send (caller : Caller) (pvBuffer : List UInt8) (xBytesSent : ℕ)
  | fill (caller : Caller) (pvBuffer : List UInt8) (xBytesSent : ℕ) (statement : Fill)
  | waitTxQueueEmpty (xBytes : ℕ)
  | clearRxCharQueue (xBytes : ℕ)
  | activate (xBytes : ℕ)
  | enableIT (xBytes : ℕ)
  /-- The loop of `xIOUtilsReceiveCharsFromRxQueue`, with the bytes it has received. -/
  | receive (xBytes : ℕ) (pucBuffer : List UInt8)
  | checkForTimeOut (xBytes : ℕ) (pucBuffer : List UInt8)
  | deactivate (xBytes : ℕ) (pucBuffer : List UInt8)
  deriving DecidableEq, Repr

/-- The statement `SPI_IRQHandler` is before, with `statusreg` and `rcvd`. -/
inductive HandlerPlace
  | readStatus
  | overrunReadDR (statusreg : StatusReg)
  | overrunReadSR (statusreg : StatusReg)
  /-- The test of `ulReceiveActive`, and the read of a word that is not kept. -/
  | receive (statusreg : StatusReg)
  | rxCondition (statusreg : StatusReg) (rcvd : ℕ)
  | rxReadDR (statusreg : StatusReg) (rcvd : ℕ)
  | sendFromISR (statusreg : StatusReg) (rcvd : ℕ) (ucChar : UInt8)
  /-- `(rcvd--) > 0`, and `xQueueReceiveFromISR`. -/
  | receiveFromISR (rcvd : ℕ)
  | transmit (rcvd : ℕ) (ucChar : UInt8)
  deriving DecidableEq, Repr

/-- What a step does: a byte is put into the transmit queue, found in it by a clear, stored into
`DR` or shifted out; a word is shifted in, put into the receive queue, dropped or taken by the
read; a call returns. -/
inductive Output
  | accepted (ucChar : UInt8)
  | cleared (items : List UInt8)
  | stored (ucChar : UInt8)
  | bus (ucChar : UInt8)
  | arrived (w : UInt8)
  | queued (w : UInt8)
  | dropped (w : UInt8)
  | received (w : UInt8)
  | wrote (pvBuffer : List UInt8) (ret : ℕ)
  | readDone (xBytes : ℕ) (pvBuffer : List UInt8)
  deriving DecidableEq, Repr

/-- What can happen next. -/
inductive Event
  | write (pvBuffer : List UInt8)
  | read (xBytes : ℕ)
  /-- The next statement of the task, by when its time to wait may have expired. -/
  | taskStep (expired : Bool)
  | shifted (w : UInt8)
  | enterHandler
  | handlerStep
  deriving DecidableEq, Repr

end SspCharQueue

/-- An SSP that is written and read through two character queues. -/
structure SspCharQueue (txCapacity rxCapacity : ℕ) where
  tx : BoundedQueue UInt8 txCapacity
  rx : BoundedQueue UInt8 rxCapacity
  usErrorState : Bool
  ulReceiveActive : Bool
  spi : SspCharQueue.Spi
  place : SspCharQueue.Place
  handler : Option SspCharQueue.HandlerPlace

namespace SspCharQueue

open SspInterrupt (StatusReg)

variable {txCapacity rxCapacity : ℕ}

/-- What `ioctlUSE_CHARACTER_QUEUE_TX` and `ioctlUSE_CHARACTER_QUEUE_RX` leave, while nothing is on
its way; a word may wait to be read.
SOURCE: FreeRTOS_stm32f4_ssp.c:470-507, IOUtils_CharQueueTxAndRx.c:73-137 -/
def configured (received : UInt8) (rxne drRead : Bool) : SspCharQueue txCapacity rxCapacity where
  tx := .empty
  rx := .empty
  usErrorState := false
  ulReceiveActive := false
  spi := ⟨none, none, received, rxne, false, drRead, true⟩
  place := .outside
  handler := none

/-- The end of `FreeRTOS_SSP_write`. -/
def afterWrite (s : SspCharQueue txCapacity rxCapacity) (caller : Caller) (b : List UInt8)
    (i : ℕ) : SspCharQueue txCapacity rxCapacity × List Output :=
  match caller with
  | .task => ({ s with place := .outside }, [.wrote b i])
  | .read xBytes => ({ s with place := .enableIT xBytes }, [])

/-- `ioutilsFILL_FIFO_FROM_TX_QUEUE` in `FreeRTOS_SSP_write`.
SOURCE: FreeRTOS_stm32f4_ssp.c:255-262, IOUtils_CharQueueTxAndRx.h:121-143 -/
def fillStep (s : SspCharQueue txCapacity rxCapacity) (caller : Caller) (b : List UInt8) (i : ℕ) :
    Fill → SspCharQueue txCapacity rxCapacity × List Output
  | .disableIT =>
    ({ s with spi := { s.spi with rxneie := false }, place := .fill caller b i .testTxe }, [])
  | .testTxe =>
    ({ s with
      spi := s.spi.readSR
      place := .fill caller b i (if s.spi.dr = none then .receive else .enableIT) }, [])
  | .receive =>
    match s.tx.receive with
    | none => ({ s with place := .fill caller b i .enableIT }, [])
    | some (c, tx) => ({ s with tx := tx, place := .fill caller b i (.peripheralWrite c) }, [])
  | .peripheralWrite c =>
    ({ s with spi := s.spi.store c, place := .fill caller b i .enableIT }, [.stored c])
  | .enableIT => { s with spi := { s.spi with rxneie := true } }.afterWrite caller b i

/-- What a null buffer stands for.  SOURCE: IOUtils_CharQueueTxAndRx.c:181-186 -/
def nullBuffer (xBytes : ℕ) : List UInt8 := List.replicate xBytes 0xFF

/-- The character-queue branches of `FreeRTOS_SSP_write` and `FreeRTOS_SSP_read`, statement by
statement.  A full queue ends the sending of bytes to it; `xIOUtilsClearRxCharQueue` resets
the queue of `pxTxControl`.
SOURCE: FreeRTOS_stm32f4_ssp.c:242-264, 397-440, IOUtils_CharQueueTxAndRx.c:140-232 -/
def taskStep (s : SspCharQueue txCapacity rxCapacity) (expired : Bool) :
    Option (SspCharQueue txCapacity rxCapacity × List Output) :=
  match s.place with
  | .outside => none
  | .send caller b i =>
    match b[i]? with
    | none => some ({ s with place := .fill caller b i .disableIT }, [])
    | some c =>
      if s.tx.Full then some ({ s with place := .fill caller b i .disableIT }, [])
      else some ({ s with tx := s.tx.send c, place := .send caller b (i + 1) }, [.accepted c])
  | .fill caller b i statement => some (s.fillStep caller b i statement)
  | .waitTxQueueEmpty xBytes =>
    if s.tx.items = [] ∨ expired = true then
      some ({ s with place := .clearRxCharQueue xBytes }, [])
    else some (s, [])
  | .clearRxCharQueue xBytes =>
    some ({ s with tx := .empty, place := .activate xBytes }, [.cleared s.tx.items])
  | .activate xBytes =>
    some ({ s with
      ulReceiveActive := true
      place := .send (.read xBytes) (nullBuffer xBytes) 0 }, [])
  | .enableIT xBytes =>
    some ({ s with spi := { s.spi with rxneie := true }, place := .receive xBytes [] }, [])
  | .receive xBytes b =>
    if b.length < xBytes then
      match s.rx.receive with
      | none => if expired then some ({ s with place := .checkForTimeOut xBytes b }, []) else none
      | some (w, rx) =>
        some ({ s with rx := rx, place := .checkForTimeOut xBytes (b ++ [w]) }, [.received w])
    else some ({ s with place := .deactivate xBytes b }, [])
  | .checkForTimeOut xBytes b =>
    some ({ s with place := if expired then .deactivate xBytes b else .receive xBytes b }, [])
  | .deactivate xBytes b =>
    some ({ s with ulReceiveActive := false, place := .outside }, [.readDone xBytes b])

/-- The statement behind the test for an overrun. -/
def HandlerPlace.afterOverrun (statusreg : StatusReg) : Option HandlerPlace :=
  if statusreg.rxne then some (.receive statusreg) else none

/-- The statement behind the reception. -/
def HandlerPlace.afterReception (statusreg : StatusReg) (rcvd : ℕ) : Option HandlerPlace :=
  if statusreg.txe then some (.receiveFromISR rcvd) else none

/-- `SPI_IRQHandler`, with `ioutilsRX_CHARS_INTO_QUEUE_FROM_ISR` and
`ioutilsTX_CHARS_FROM_QUEUE_FROM_ISR`.
SOURCE: FreeRTOS_stm32f4_ssp.c:647-798, IOUtils_CharQueueTxAndRx.h:59-75, 149-166 -/
def handlerStep (s : SspCharQueue txCapacity rxCapacity) :
    Option (SspCharQueue txCapacity rxCapacity × List Output) :=
  match s.handler with
  | none => none
  | some .readStatus =>
    some ({ s with
      spi := s.spi.readSR
      handler := if s.spi.ovr then some (.overrunReadDR s.spi.sr)
        else HandlerPlace.afterOverrun s.spi.sr }, [])
  | some (.overrunReadDR sr) =>
    some ({ s with spi := s.spi.readDR, handler := some (.overrunReadSR sr) }, [])
  | some (.overrunReadSR sr) =>
    some ({ s with spi := s.spi.readSR, handler := HandlerPlace.afterOverrun sr }, [])
  | some (.receive sr) =>
    if s.ulReceiveActive then some ({ s with handler := some (.rxCondition sr 0) }, [])
    else
      some ({ s with spi := s.spi.readDR, handler := HandlerPlace.afterReception sr 1 }, [])
  | some (.rxCondition sr rcvd) =>
    some ({ s with
      spi := s.spi.readSR
      handler := if s.spi.rxne then some (.rxReadDR sr rcvd)
        else HandlerPlace.afterReception sr rcvd }, [])
  | some (.rxReadDR sr rcvd) =>
    some ({ s with
      spi := s.spi.readDR
      handler := some (.sendFromISR sr rcvd s.spi.received) }, [])
  | some (.sendFromISR sr rcvd w) =>
    if s.rx.Full then
      some ({ s with usErrorState := true, handler := some (.rxCondition sr rcvd) }, [.dropped w])
    else
      some ({ s with rx := s.rx.send w, handler := some (.rxCondition sr (rcvd + 1)) }, [.queued w])
  | some (.receiveFromISR rcvd) =>
    if rcvd = 0 then some ({ s with handler := none }, [])
    else
      match s.tx.receive with
      | none => some ({ s with handler := none }, [])
      | some (c, tx) => some ({ s with tx := tx, handler := some (.transmit (rcvd - 1) c) }, [])
  | some (.transmit rcvd c) =>
    some ({ s with spi := s.spi.store c, handler := some (.receiveFromISR rcvd) }, [.stored c])

/-- Any interleaving of the task, the SPI and the handler. -/
def machine (txCapacity rxCapacity : ℕ) :
    Machine (SspCharQueue txCapacity rxCapacity) Event Output where
  step s
    | .write b =>
      if s.place = .outside ∧ s.handler = none then
        some ({ s with place := .send .task b 0 }, [])
      else none
    | .read xBytes =>
      if s.place = .outside ∧ s.handler = none then
        some ({ s with place := .waitTxQueueEmpty xBytes }, [])
      else none
    | .taskStep expired => if s.handler = none then s.taskStep expired else none
    | .shifted w =>
      match s.spi.shift with
      | none => none
      | some c => some ({ s with spi := s.spi.shiftWord w }, [.bus c, .arrived w])
    | .enterHandler =>
      if s.spi.rxne = true ∧ s.spi.rxneie = true ∧ s.handler = none then
        some ({ s with handler := some .readStatus }, [])
      else none
    | .handlerStep => s.handlerStep

end SspCharQueue

end Resmod.Model
