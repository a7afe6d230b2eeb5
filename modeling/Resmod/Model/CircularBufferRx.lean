import Resmod.Library.Copy
import Resmod.Library.Machine
import Mathlib.Algebra.Group.Nat.Defs

/-!
# Reading from a UART through a circular buffer

`FreeRTOS_UART_read` in its circular-buffer mode, `UART_IRQHandler` for the interrupt of a
byte that has been received, the functions of `IOUtils_CircularBufferRx.c` and the two macros
of `IOUtils_CircularBufferRx.h`, with the receiver of the USART.

The handler preempts the task between any two of its statements and runs to its end, and
bytes arrive between any two statements of either.  `xIOUtilsReadCharsFromCircularBuffer` is
one step: the task has disabled the interrupt when it calls it.

`fullAssert` says that `configASSERT` is compiled in, as it is with `USE_FULL_ASSERT`: an
assertion that fails disables the interrupts and loops for ever.
-/

set_option autoImplicit false

namespace Resmod.Model

open Resmod.Library

/-- `Circular_Buffer_Rx_State_t`, with the memory that `pucBufferStart` points to and the
count of the semaphore.  SOURCE: IOUtils_CircularBufferRx.h:43-53 -/
structure CircularBufferRxState where
  pucBufferStart : List UInt8
  usBufferLength : ℕ
  usNextReadIndex : ℕ
  usNextWriteIndex : ℕ
  usErrorState : Bool
  usCharCount : ℕ
  xNewDataSemaphore : ℕ
  deriving DecidableEq, Repr

namespace CircularBufferRxState

/-- What `xIOUtilsConfigureCircularBufferRx` fills in once everything is allocated; the
length is cast to 16 bits.  SOURCE: IOUtils_CircularBufferRx.c:81-92 -/
def configured (pucBufferStart : List UInt8) : CircularBufferRxState where
  pucBufferStart := pucBufferStart
  usBufferLength := pucBufferStart.length % 2 ^ 16
  usNextReadIndex := 0
  usNextWriteIndex := 0
  usErrorState := false
  usCharCount := 0
  xNewDataSemaphore := 0

/-- The body of the loop of `ioutilsRX_CHARS_INTO_CIRCULAR_BUFFER_FROM_ISR` where there is
space in the buffer.  SOURCE: IOUtils_CircularBufferRx.h:70-87 -/
def put (s : CircularBufferRxState) (ucChar : UInt8) : CircularBufferRxState :=
  let usNextWrite := (s.usNextWriteIndex + 1) % 2 ^ 16
  { s with
    pucBufferStart := s.pucBufferStart.set s.usNextWriteIndex ucChar
    usCharCount := (s.usCharCount + 1) % 2 ^ 16
    usNextWriteIndex := if usNextWrite = s.usBufferLength then 0 else usNextWrite }

/-- `xSemaphoreGiveFromISR` on a semaphore that counts to `portMAX_DELAY`. -/
def semaphoreGive (s : CircularBufferRxState) : CircularBufferRxState :=
  { s with
    xNewDataSemaphore :=
      if s.xNewDataSemaphore < 0xffffffff then s.xNewDataSemaphore + 1
      else s.xNewDataSemaphore }

/-- The bytes that can be read without going round. -/
def xBytesAvailable (s : CircularBufferRxState) : ℕ :=
  if s.usNextReadIndex ≤ s.usNextWriteIndex then s.usNextWriteIndex - s.usNextReadIndex
  else s.usBufferLength - s.usNextReadIndex

/-- Bytes are removed from the buffer. -/
def remove (s : CircularBufferRxState) (xBytes : ℕ) : CircularBufferRxState :=
  let usNextRead := (s.usNextReadIndex + xBytes) % 2 ^ 16
  { s with
    usCharCount := (s.usCharCount + 2 ^ 16 - xBytes % 2 ^ 16) % 2 ^ 16
    usNextReadIndex := if usNextRead = s.usBufferLength then 0 else usNextRead }

end CircularBufferRxState

/-- The variables of `xIOUtilsReadCharsFromCircularBuffer`; it does not return if it has
`halted` at an assertion. -/
structure CircularBufferRead where
  pxCircularBuffer : CircularBufferRxState
  pucBuffer : List UInt8
  xBytesReadSoFar : ℕ
  halted : Bool
  deriving DecidableEq, Repr

namespace CircularBufferRead

/-- One attempt: the bytes up to the end of the buffer or up to the write index, and no more
than asked for.  It is asserted that there are any, and that the read index has not left the
buffer.  SOURCE: IOUtils_CircularBufferRx.c:153-202 -/
def attempt (fullAssert : Bool) (r : CircularBufferRead) (xBytesToRead : ℕ) :
    Option CircularBufferRead :=
  let s := r.pxCircularBuffer
  let xBytesAvailable := min s.xBytesAvailable (xBytesToRead - r.xBytesReadSoFar)
  if fullAssert ∧ xBytesAvailable = 0 then some { r with halted := true }
  else
    (copy r.pucBuffer r.xBytesReadSoFar s.pucBufferStart s.usNextReadIndex xBytesAvailable).map
      fun pucBuffer =>
        { pxCircularBuffer := s.remove xBytesAvailable
          pucBuffer := pucBuffer
          xBytesReadSoFar := r.xBytesReadSoFar + xBytesAvailable
          halted := fullAssert &&
            decide (s.usBufferLength < (s.usNextReadIndex + xBytesAvailable) % 2 ^ 16) }

/-- The loop over the attempts.  SOURCE: IOUtils_CircularBufferRx.c:151-203 -/
def loop (fullAssert : Bool) (xBytesToRead : ℕ) :
    ℕ → CircularBufferRead → Option CircularBufferRead
  | 0, r => some r
  | attempts + 1, r =>
    if r.pxCircularBuffer.usCharCount = 0 then some r
    else
      match r.attempt fullAssert xBytesToRead with
      | none => none
      | some r' =>
        if r'.halted ∨ xBytesToRead = r'.xBytesReadSoFar then some r'
        else loop fullAssert xBytesToRead attempts r'

end CircularBufferRead

/-- Two attempts are made.  A copy that leaves one of the two buffers is `none`.
SOURCE: IOUtils_CircularBufferRx.c:141-206 -/
def xIOUtilsReadCharsFromCircularBuffer (fullAssert : Bool) (s : CircularBufferRxState)
    (pucBuffer : List UInt8) (xBytesToRead : ℕ) : Option CircularBufferRead :=
  CircularBufferRead.loop fullAssert xBytesToRead 2 ⟨s, pucBuffer, 0, false⟩

namespace CircularBufferRx

/-- The receiver: `RXNE` is set while `DR` holds a byte that has not been read. -/
structure Receiver where
  dr : UInt8
  rxne : Bool
  rxneie : Bool
  deriving DecidableEq, Repr

/-- The statement the task is before: in `FreeRTOS_UART_read`, with its buffer and
`xBytesReceived`, or in `vIOUtilsClearRxCircularBuffer`; or it has `halted` in a read. -/
inductive Place
  | outside
  | semaphoreTake (pucBuffer : List UInt8) (xBytesReceived : ℕ)
  | peripheralDisable (pucBuffer : List UInt8) (xBytesReceived : ℕ)
  | readChars (pucBuffer : List UInt8) (xBytesReceived : ℕ)
  | peripheralEnable (pucBuffer : List UInt8) (xBytesReceived : ℕ)
  | checkForTimeOut (pucBuffer : List UInt8) (xBytesReceived : ℕ)
  | halted (pucBuffer : List UInt8) (xBytesReceived : ℕ)
  | clearErrorState
  | clearReadIndex
  | clearCharCount
  | clearWriteIndex
  | clearSemaphore
  deriving DecidableEq, Repr

/-- An assertion has failed, and the interrupts are disabled. -/
def Place.interruptsDisabled : Place → Bool
  | .halted _ _ => true
  | _ => false

/-- The statement the handler is before, with `ulReceived`. -/
inductive HandlerPlace
  | condition (ulReceived : ℕ)
  | semaphoreGive (ulReceived : ℕ)
  | clearITPendingBit
  deriving DecidableEq, Repr

/-- What a step does: a byte arrives, is stored into the circular buffer or is lost, or
`FreeRTOS_UART_read` returns. -/
inductive Output
  | arrived (ucChar : UInt8)
  | stored (ucChar : UInt8)
  | lost (ucChar : UInt8)
  | returned (pvBuffer : List UInt8) (xReturn : ℕ)
  deriving DecidableEq, Repr

/-- What can happen next. -/
inductive Event
  | arrive (ucChar : UInt8)
  /-- The task calls `FreeRTOS_UART_read` for as many bytes as `pvBuffer` has. -/
  | read (pvBuffer : List UInt8)
  /-- The task calls `FreeRTOS_ioctl` with `ioctlCLEAR_RX_BUFFER`. -/
  | clear
  /-- The next statement of the task, by when its time to wait may have expired. -/
  | taskStep (expired : Bool)
  | enterHandler
  | handlerStep
  deriving DecidableEq, Repr

end CircularBufferRx

/-- A UART that is read through a circular buffer. -/
structure CircularBufferRx where
  ring : CircularBufferRxState
  uart : CircularBufferRx.Receiver
  place : CircularBufferRx.Place
  handler : Option CircularBufferRx.HandlerPlace
  deriving DecidableEq, Repr

namespace CircularBufferRx

/-- A byte has been shifted in.  It is lost if the byte before it is still in `DR`. -/
def arrive (s : CircularBufferRx) (c : UInt8) : CircularBufferRx × List Output :=
  if s.uart.rxne then (s, [.arrived c, .lost c])
  else ({ s with uart := { s.uart with dr := c, rxne := true } }, [.arrived c])

/-- The condition of the loop of `ioutilsRECEIVE_CHARS_FROM_CIRCULAR_BUFFER`. -/
def whileMore (s : CircularBufferRx) (b : List UInt8) (i : ℕ) : CircularBufferRx × List Output :=
  if i < b.length then ({ s with place := .semaphoreTake b i }, [])
  else ({ s with place := .outside }, [.returned b i])

/-- `ioutilsRECEIVE_CHARS_FROM_CIRCULAR_BUFFER` and `vIOUtilsClearRxCircularBuffer`,
statement by statement.
SOURCE: IOUtils_CircularBufferRx.h:98-124, IOUtils_CircularBufferRx.c:129-138 -/
def taskStep (fullAssert : Bool) (s : CircularBufferRx) (expired : Bool) :
    Option (CircularBufferRx × List Output) :=
  match s.place with
  | .outside => none
  | .halted _ _ => none
  | .semaphoreTake b i =>
    match s.ring.xNewDataSemaphore with
    | 0 => if expired then some ({ s with place := .checkForTimeOut b i }, []) else none
    | n + 1 =>
      some ({ s with
        ring := { s.ring with xNewDataSemaphore := n }
        place := .peripheralDisable b i }, [])
  | .peripheralDisable b i =>
    some ({ s with uart := { s.uart with rxneie := false }, place := .readChars b i }, [])
  | .readChars b i =>
    (xIOUtilsReadCharsFromCircularBuffer fullAssert s.ring (b.drop i) (b.length - i)).map fun r =>
      ({ s with
        ring := r.pxCircularBuffer
        place :=
          if r.halted then .halted (b.take i ++ r.pucBuffer) (i + r.xBytesReadSoFar)
          else .peripheralEnable (b.take i ++ r.pucBuffer) (i + r.xBytesReadSoFar) }, [])
  | .peripheralEnable b i =>
    some ({ s with uart := { s.uart with rxneie := true }, place := .checkForTimeOut b i }, [])
  | .checkForTimeOut b i =>
    if expired then some ({ s with place := .outside }, [.returned b i])
    else some (s.whileMore b i)
  | .clearErrorState =>
    some ({ s with ring := { s.ring with usErrorState := false }, place := .clearReadIndex }, [])
  | .clearReadIndex =>
    some ({ s with ring := { s.ring with usNextReadIndex := 0 }, place := .clearCharCount }, [])
  | .clearCharCount =>
    some ({ s with ring := { s.ring with usCharCount := 0 }, place := .clearWriteIndex }, [])
  | .clearWriteIndex =>
    some ({ s with ring := { s.ring with usNextWriteIndex := 0 }, place := .clearSemaphore }, [])
  | .clearSemaphore =>
    some ({ s with
      ring := { s.ring with xNewDataSemaphore := s.ring.xNewDataSemaphore - 1 }
      place := .outside }, [])

/-- `UART_IRQHandler` for `RXNE`, with `ioutilsRX_CHARS_INTO_CIRCULAR_BUFFER_FROM_ISR`.
Reading `DR` clears `RXNE`, and so does `USART_ClearITPendingBit`.
SOURCE: FreeRTOS_stm32f4_uart.c:459-501, IOUtils_CircularBufferRx.h:60-96 -/
def handlerStep (s : CircularBufferRx) : Option (CircularBufferRx × List Output) :=
  match s.handler with
  | none => none
  | some (.condition n) =>
    if s.uart.rxne then
      if s.ring.usCharCount < s.ring.usBufferLength then
        some ({ s with
          ring := s.ring.put s.uart.dr
          uart := { s.uart with rxne := false }
          handler := some (.condition (n + 1)) }, [.stored s.uart.dr])
      else some ({ s with ring := { s.ring with usErrorState := true } }, [])
    else some ({ s with handler := some (.semaphoreGive n) }, [])
  | some (.semaphoreGive n) =>
    some ({ s with
      ring := if 0 < n then s.ring.semaphoreGive else s.ring
      handler := some .clearITPendingBit }, [])
  | some .clearITPendingBit =>
    some ({ s with uart := { s.uart with rxne := false }, handler := none },
      if s.uart.rxne then [.lost s.uart.dr] else [])

/-- Any interleaving of the task, the receiver and the handler. -/
def machine (fullAssert : Bool) : Machine CircularBufferRx Event Output where
  step s
    | .arrive c => some (s.arrive c)
    | .read b =>
      if s.place = .outside ∧ s.handler = none then some (s.whileMore b 0) else none
    | .clear =>
      if s.place = .outside ∧ s.handler = none then
        some ({ s with place := .clearErrorState }, [])
      else none
    | .taskStep expired => if s.handler = none then s.taskStep fullAssert expired else none
    | .enterHandler =>
      if s.uart.rxne = true ∧ s.uart.rxneie = true ∧ s.handler = none ∧
          s.place.interruptsDisabled = false then
        some ({ s with handler := some (.condition 0) }, [])
      else none
    | .handlerStep => s.handlerStep

end CircularBufferRx

end Resmod.Model
