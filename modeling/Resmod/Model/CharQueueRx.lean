import Resmod.Model.CharQueueTx
import Resmod.Model.CircularBufferRx
import Mathlib.Logic.Function.Basic

/-!
# Reading from a UART through a character queue

`FreeRTOS_UART_read` in its character-queue mode, called by any number of tasks,
`UART_IRQHandler` for the interrupt of a byte that has been received, the functions of
`IOUtils_CharQueueTxAndRx.c` for the reception and the macro that the handler uses.  The
receiver of the USART is that of `CircularBufferRx`, and the transmission is the machine of
`CharQueueTx`: `ioctlCLEAR_RX_BUFFER` comes across it.

Neither the read nor the configuration of the queue enables the interrupt of the receiver.
-/

set_option autoImplicit false

namespace Resmod.Model

open Resmod.Library

namespace CharQueueRx

open CircularBufferRx (Receiver)

/-- The statement a task is before, with its buffer and `xBytesReceived`. -/
inductive Place
  | outside
  | receive (pucBuffer : List UInt8) (xBytesReceived : ℕ)
  | checkForTimeOut (pucBuffer : List UInt8) (xBytesReceived : ℕ)
  deriving DecidableEq, Repr

/-- The statement the handler is before. -/
inductive HandlerPlace
  | condition
  | sendFromISR (ucChar : UInt8)
  | clearITPendingBit
  deriving DecidableEq, Repr

/-- What a step does: a byte arrives, is put into the queue, finds it full or is lost before; a
read gets a byte, or returns; or the transmission does something.  `cleared` has the bytes
that `ioctlCLEAR_RX_BUFFER` has found. -/
inductive Output (Task : Type*)
  | arrived (ucChar : UInt8)
  | queued (ucChar : UInt8)
  | dropped (ucChar : UInt8)
  | lost (ucChar : UInt8)
  | received (task : Task) (ucChar : UInt8)
  | returned (task : Task) (pvBuffer : List UInt8) (xReturn : ℕ)
  | transmission (o : CharQueueTx.Output)
  | cleared (items : List UInt8)
  deriving DecidableEq, Repr

/-- What can happen next. -/
inductive Event (Task : Type*)
  | arrive (ucChar : UInt8)
  /-- The task calls `FreeRTOS_UART_read` for as many bytes as `pvBuffer` has. -/
  | read (task : Task) (pvBuffer : List UInt8)
  /-- A task calls `FreeRTOS_ioctl` with `ioctlCLEAR_RX_BUFFER`. -/
  | clear
  /-- The next statement of the task, by when its time to wait may have expired. -/
  | taskStep (task : Task) (expired : Bool)
  | enterHandler
  | handlerStep
  | transmission (e : CharQueueTx.Event)

end CharQueueRx

/-- A UART that is read through a character queue by any number of tasks. -/
structure CharQueueRx (Task : Type*) (rxCapacity txCapacity : ℕ) where
  queue : BoundedQueue UInt8 rxCapacity
  usErrorState : Bool
  uart : CircularBufferRx.Receiver
  place : Task → CharQueueRx.Place
  handler : Option CharQueueRx.HandlerPlace
  tx : CharQueueTx txCapacity

namespace CharQueueRx

variable {Task : Type*} [DecidableEq Task] {rxCapacity txCapacity : ℕ}

/-- No part of `UART_IRQHandler` is under way. -/
def Idle (s : CharQueueRx Task rxCapacity txCapacity) : Prop :=
  s.handler = none ∧ s.tx.handler = none

instance (s : CharQueueRx Task rxCapacity txCapacity) : Decidable s.Idle :=
  decidable_of_iff (s.handler = none ∧ s.tx.handler.isNone)
    (and_congr_right fun _ => Option.isNone_iff_eq_none)

/-- The task goes on to a place. -/
def goto (s : CharQueueRx Task rxCapacity txCapacity) (task : Task) (place : Place) :
    CharQueueRx Task rxCapacity txCapacity :=
  { s with place := Function.update s.place task place }

/-- A byte has been shifted in.  It is lost if the byte before it is still in `DR`. -/
def arrive (s : CharQueueRx Task rxCapacity txCapacity) (c : UInt8) :
    CharQueueRx Task rxCapacity txCapacity × List (Output Task) :=
  if s.uart.rxne then (s, [.arrived c, .lost c])
  else ({ s with uart := { s.uart with dr := c, rxne := true } }, [.arrived c])

/-- The condition of the loop of `xIOUtilsReceiveCharsFromRxQueue`. -/
def whileMore (s : CharQueueRx Task rxCapacity txCapacity) (task : Task) (b : List UInt8)
    (i : ℕ) : CharQueueRx Task rxCapacity txCapacity × List (Output Task) :=
  if i < b.length then (s.goto task (.receive b i), [])
  else (s.goto task .outside, [.returned task b i])

/-- `xIOUtilsReceiveCharsFromRxQueue`, statement by statement.  An empty queue makes
`xQueueReceive` wait until the time to wait has expired.  There is no step for a byte that
would be stored outside the buffer.  SOURCE: IOUtils_CharQueueTxAndRx.c:140-167 -/
def taskStep (s : CharQueueRx Task rxCapacity txCapacity) (task : Task) (expired : Bool) :
    Option (CharQueueRx Task rxCapacity txCapacity × List (Output Task)) :=
  match s.place task with
  | .outside => none
  | .receive b i =>
    match s.queue.receive with
    | none => if expired then some (s.goto task (.checkForTimeOut b i), []) else none
    | some (c, queue) =>
      if i < b.length then
        some ({ s with queue := queue }.goto task (.checkForTimeOut (b.set i c) (i + 1)),
          [.received task c])
      else none
  | .checkForTimeOut b i =>
    if expired then some (s.goto task .outside, [.returned task b i])
    else some (s.whileMore task b i)

/-- `UART_IRQHandler` for `RXNE`, with `ioutilsRX_CHARS_INTO_QUEUE_FROM_ISR`.  Reading `DR`
clears `RXNE`, and so does `USART_ClearITPendingBit`.
SOURCE: FreeRTOS_stm32f4_uart.c:459-501, IOUtils_CharQueueTxAndRx.h:149-166 -/
def handlerStep (s : CharQueueRx Task rxCapacity txCapacity) :
    Option (CharQueueRx Task rxCapacity txCapacity × List (Output Task)) :=
  match s.handler with
  | none => none
  | some .condition =>
    if s.uart.rxne then
      some ({ s with
        uart := { s.uart with rxne := false }
        handler := some (.sendFromISR s.uart.dr) }, [])
    else some ({ s with handler := some .clearITPendingBit }, [])
  | some (.sendFromISR c) =>
    if s.queue.Full then
      some ({ s with usErrorState := true, handler := some .condition }, [.dropped c])
    else some ({ s with queue := s.queue.send c, handler := some .condition }, [.queued c])
  | some .clearITPendingBit =>
    some ({ s with uart := { s.uart with rxne := false }, handler := none },
      if s.uart.rxne then [.lost s.uart.dr] else [])

/-- `xIOUtilsClearRxCharQueue`.  The queue that it resets is the one of `pxTxControl`.
SOURCE: IOUtils_CharQueueTxAndRx.c:226-232 -/
def clear (s : CharQueueRx Task rxCapacity txCapacity) :
    CharQueueRx Task rxCapacity txCapacity × List (Output Task) :=
  ({ s with tx := { s.tx with queue := .empty } }, [.cleared s.tx.queue.items])

/-- A step of the transmission.  `UART_IRQHandler` serves `TC` after `RXNE`. -/
def transmission (s : CharQueueRx Task rxCapacity txCapacity) (e : CharQueueTx.Event) :
    Option (CharQueueRx Task rxCapacity txCapacity × List (Output Task)) :=
  ((CharQueueTx.machine txCapacity).step s.tx e).map fun (tx, o) =>
    ({ s with tx := tx }, o.map .transmission)

/-- Any interleaving of the tasks, the receiver, the transmission and the handler. -/
def machine (Task : Type*) [DecidableEq Task] (rxCapacity txCapacity : ℕ) :
    Machine (CharQueueRx Task rxCapacity txCapacity) (Event Task) (Output Task) where
  step s
    | .arrive c => some (s.arrive c)
    | .read task b =>
      if s.place task = .outside ∧ s.Idle then some (s.whileMore task b 0) else none
    | .clear => if s.Idle then some s.clear else none
    | .taskStep task expired => if s.Idle then s.taskStep task expired else none
    | .enterHandler =>
      if s.uart.rxne = true ∧ s.uart.rxneie = true ∧ s.Idle then
        some ({ s with handler := some .condition }, [])
      else none
    | .handlerStep => s.handlerStep
    | .transmission .shiftOut => s.transmission .shiftOut
    | .transmission e => if s.handler = none then s.transmission e else none

/-- What `xIOUtilsConfigureTransferQueue` leaves for either direction, with the interrupt of
the receiver as it was before.  SOURCE: IOUtils_CharQueueTxAndRx.c:73-137 -/
def configured (rxneie tc tcie : Bool) : CharQueueRx Task rxCapacity txCapacity where
  queue := .empty
  usErrorState := false
  uart := ⟨0, false, rxneie⟩
  place := fun _ => .outside
  handler := none
  tx := .idle tc tcie

end CharQueueRx

end Resmod.Model
