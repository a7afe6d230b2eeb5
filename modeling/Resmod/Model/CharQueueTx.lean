import Resmod.Library.BoundedQueue
import Resmod.Library.Machine

/-!
# Writing to a UART through a character queue

`FreeRTOS_UART_write` in its character-queue mode, `UART_IRQHandler` for the
transmission-complete interrupt, and the two macros of `IOUtils_CharQueueTxAndRx.h` that
they use, with the transmitter of the USART.  The task puts every byte into a queue; the
handler, and the task itself when it finds the data register empty, take bytes out of it and
store them into the register.

Taking a byte and storing it are two steps, and so is every other statement.  The handler
preempts the task between any two of them and runs to its end.
-/

set_option autoImplicit false

namespace Resmod.Model

open Resmod.Library

namespace CharQueueTx

/-- The transmitter: `TXE` is set while the data register is empty. -/
structure Uart where
  dr : Option UInt8
  shift : Option UInt8
  tc : Bool
  tcie : Bool
  deriving DecidableEq, Repr

/-- A byte is stored into `DR`.  While nothing is transmitted it goes on to the shift
register at once.  As the status register has been read before, the store clears `TC`. -/
def Uart.store (u : Uart) (ucChar : UInt8) : Uart :=
  match u.shift with
  | none => { u with shift := some ucChar, tc := false }
  | some _ => { u with dr := some ucChar, tc := false }

/-- A frame has been shifted out.  The next one is taken from `DR`, and `TC` is set if there
is none. -/
def Uart.shiftOut (u : Uart) : Option Uart :=
  u.shift.map fun _ => { u with shift := u.dr, dr := none, tc := u.tc || u.dr.isNone }

/-- The statement the writing task is before, with its buffer and `xBytesSent`. -/
inductive Place
  | outside
  | enableIT (pvBuffer : List UInt8)
  | send (pvBuffer : List UInt8) (xBytesSent : ℕ)
  | testTxe (pvBuffer : List UInt8) (xBytesSent : ℕ)
  | receive (pvBuffer : List UInt8) (xBytesSent : ℕ)
  | peripheralWrite (pvBuffer : List UInt8) (xBytesSent : ℕ) (ucChar : UInt8)
  | checkForTimeOut (pvBuffer : List UInt8) (xBytesSent : ℕ)
  deriving DecidableEq, Repr

/-- The statement the handler is before. -/
inductive HandlerPlace
  | receiveFromISR
  | transmit (ucChar : UInt8)
  | clearITPendingBit
  deriving DecidableEq, Repr

/-- What a step does: `xQueueSend` accepts a byte, a byte is stored into `DR`, or
`FreeRTOS_UART_write` returns for a buffer. -/
inductive Output
  | accepted (ucChar : UInt8)
  | stored (ucChar : UInt8)
  | returned (pvBuffer : List UInt8) (xReturn : ℕ)
  deriving DecidableEq, Repr

/-- What can happen next. -/
inductive Event
  /-- The task calls `FreeRTOS_UART_write`. -/
  | write (pvBuffer : List UInt8)
  /-- The next statement of the task, by when its time to wait may have expired. -/
  | taskStep (expired : Bool)
  | shiftOut
  | enterHandler
  | handlerStep

end CharQueueTx

/-- A UART that is written through a character queue. -/
structure CharQueueTx (capacity : ℕ) where
  queue : BoundedQueue UInt8 capacity
  uart : CharQueueTx.Uart
  place : CharQueueTx.Place
  handler : Option CharQueueTx.HandlerPlace

namespace CharQueueTx

variable {capacity : ℕ}

/-- Nothing is transmitted, queued or written; the interrupt may have been enabled, and
`TC` may be set, as it is after a reset. -/
def idle (tc tcie : Bool) : CharQueueTx capacity := ⟨.empty, ⟨none, none, tc, tcie⟩, .outside, none⟩

/-- `ioutilsBLOCKING_SEND_CHARS_TO_TX_QUEUE`, statement by statement.  A full queue makes
`xQueueSend` wait, and an empty one `xQueueReceive`, until the time to wait has expired.
SOURCE: FreeRTOS_stm32f4_uart.c:193-208, IOUtils_CharQueueTxAndRx.h:78-118 -/
def taskStep (s : CharQueueTx capacity) (expired : Bool) :
    Option (CharQueueTx capacity × List Output) :=
  match s.place with
  | .outside => none
  | .enableIT b =>
    some ({ s with uart := { s.uart with tcie := true }, place := .send b 0 }, [])
  | .send b i =>
    match b[i]? with
    | none => some ({ s with place := .outside }, [.returned b i])
    | some c =>
      if s.queue.Full then
        if expired then some ({ s with place := .outside }, [.returned b i]) else none
      else some ({ s with queue := s.queue.send c, place := .testTxe b i }, [.accepted c])
  | .testTxe b i =>
    some ({ s with
      place := if s.uart.dr = none then .receive b i else .checkForTimeOut b i }, [])
  | .receive b i =>
    match s.queue.receive with
    | none => if expired then some ({ s with place := .checkForTimeOut b i }, []) else none
    | some (c, queue) => some ({ s with queue := queue, place := .peripheralWrite b i c }, [])
  | .peripheralWrite b i c =>
    some ({ s with uart := s.uart.store c, place := .checkForTimeOut b i }, [.stored c])
  | .checkForTimeOut b i =>
    if expired then some ({ s with place := .outside }, [.returned b i])
    else some ({ s with place := .send b (i + 1) }, [])

/-- `UART_IRQHandler` for `TC`, with `ioutilsTX_CHARS_FROM_QUEUE_FROM_ISR` for one byte.
SOURCE: FreeRTOS_stm32f4_uart.c:502-545, IOUtils_CharQueueTxAndRx.h:59-75 -/
def handlerStep (s : CharQueueTx capacity) : Option (CharQueueTx capacity × List Output) :=
  match s.handler with
  | none => none
  | some .receiveFromISR =>
    match s.queue.receive with
    | none => some ({ s with handler := some .clearITPendingBit }, [])
    | some (c, queue) => some ({ s with queue := queue, handler := some (.transmit c) }, [])
  | some (.transmit c) =>
    some ({ s with uart := s.uart.store c, handler := some .clearITPendingBit }, [.stored c])
  | some .clearITPendingBit =>
    some ({ s with uart := { s.uart with tc := false }, handler := none }, [])

/-- Any interleaving of the task, the transmitter and the handler. -/
def machine (capacity : ℕ) : Machine (CharQueueTx capacity) Event Output where
  step s
    | .write b =>
      if s.place = .outside ∧ s.handler = none then some ({ s with place := .enableIT b }, [])
      else none
    | .taskStep expired => if s.handler = none then s.taskStep expired else none
    | .shiftOut => s.uart.shiftOut.map fun u => ({ s with uart := u }, [])
    | .enterHandler =>
      if s.uart.tc = true ∧ s.uart.tcie = true ∧ s.handler = none then
        some ({ s with handler := some .receiveFromISR }, [])
      else none
    | .handlerStep => s.handlerStep

end CharQueueTx

end Resmod.Model
