import Resmod.Model.SspInterrupt
import Mathlib.Algebra.Group.Nat.Defs

/-!
# The peripherals of a zero-copy write

`FreeRTOS_UART_write` and `FreeRTOS_SSP_write` do the same with a UART and with an SPI, in
other registers.  `Device` is what the two peripherals have in common: what the statements of
the write function do to them, and what the DMA stream, the shift register and the interrupt
handler do meanwhile.

The words on their way are counted and not looked at.  A stream that is late leaves a gap
between two words, in which the flags are set that are also set behind the last word.
-/

set_option autoImplicit false

namespace Resmod.Model

open Resmod.Library

namespace ZeroCopyTx

/-- The two drivers. -/
inductive Driver
  | uart
  | ssp
  deriving DecidableEq, Repr

/-- What happens without a statement of a task. -/
inductive Move
  /-- The stream moves a byte into the data register. -/
  | dma
  | wordShifted
  | enterHandler
  | handlerStep
  deriving DecidableEq, Repr

/-- A peripheral with its DMA stream and its interrupt handler. -/
structure Device (σ : Type) where
  driver : Driver
  /-- `USART_ITConfig(.., USART_IT_TC, DISABLE)`, `SPI_I2S_ITConfig(.., SPI_I2S_IT_TXE, DISABLE)` -/
  disableInterrupt : σ → σ
  /-- What comes next: `USART_ClearFlag` and `USART_ClearITPendingBit` for TC,
  `SPI_I2S_ITConfig(.., SPI_I2S_IT_RXNE, DISABLE)`. -/
  prepare : σ → σ
  /-- `DMACmd(.., DISABLE)` -/
  disableRequest : σ → σ
  /-- `prvFillFifoFromBuffer`, `prv_initdmatx`: the stream is stopped, set up for so many bytes
  and enabled. -/
  startStream : ℕ → σ → σ
  /-- `DMACmd(.., ENABLE)` -/
  enableRequest : σ → σ
  /-- `USART_ITConfig(.., USART_IT_TC, ENABLE)`, `SPI_I2S_ITConfig(.., SPI_I2S_IT_TXE, ENABLE)` -/
  enableInterrupt : σ → σ
  /-- A move, and whether it gives the semaphore. -/
  move : σ → Move → Option (σ × Bool)
  /-- The handler is active, and no task goes on. -/
  inHandler : σ → Bool
  /-- All bytes have been moved and shifted out. -/
  finished : σ → Bool

/-! ## The UART -/

/-- The statement `UART_IRQHandler` is before, with TC set. -/
inductive UartPlace
  | give
  | clearITPendingBit
  deriving DecidableEq, Repr

/-- The transmitter of a UART and its stream. -/
structure Uart where
  /-- The bytes that the stream has not moved. -/
  ndtr : ℕ
  /-- The peripheral makes DMA requests. -/
  request : Bool
  /-- A word waits in `DR`. -/
  dr : Bool
  shift : Bool
  tc : Bool
  tcie : Bool
  handler : Option UartPlace
  deriving DecidableEq, Repr

namespace Uart

/-- The registers after a reset: TC is set. -/
def initial : Uart := ⟨0, false, false, false, true, false, none⟩

/-- A byte is stored into `DR`; it goes on to the shift register if that is free. -/
def store (u : Uart) : Uart :=
  if u.shift then { u with dr := true } else { u with shift := true }

/-- A word has been shifted out; TC is set when none is waiting. -/
def shiftWord (u : Uart) : Uart :=
  { u with shift := u.dr, dr := false, tc := u.tc || !u.dr }

/-- `UART_IRQHandler` for TC, in a peripheral in zero-copy mode.
SOURCE: FreeRTOS_stm32f4_uart.c:502-545 -/
def handlerStep (u : Uart) : Option (Uart × Bool) :=
  match u.handler with
  | none => none
  | some .give => some ({ u with handler := some .clearITPendingBit }, true)
  | some .clearITPendingBit => some ({ u with tc := false, handler := none }, false)

/-- What happens to a UART without a statement of a task. -/
def move (u : Uart) : Move → Option (Uart × Bool)
  | .dma =>
    if u.request = true ∧ u.ndtr ≠ 0 ∧ u.dr = false then
      some ({ u.store with ndtr := u.ndtr - 1 }, false)
    else none
  | .wordShifted => if u.shift then some (u.shiftWord, false) else none
  | .enterHandler =>
    if u.tcie = true ∧ u.tc = true ∧ u.handler = none then
      some ({ u with handler := some .give }, false)
    else none
  | .handlerStep => u.handlerStep

end Uart

/-- The UART.  `prvFillFifoFromBuffer` clears TC once more; `NDTR` has 16 bits.
SOURCE: FreeRTOS_stm32f4_uart.c:147-191, 402-447 -/
def uart : Device Uart where
  driver := .uart
  disableInterrupt u := { u with tcie := false }
  prepare u := { u with tc := false }
  disableRequest u := { u with request := false }
  startStream n u := { u with ndtr := n % 2 ^ 16, request := false, tc := false }
  enableRequest u := { u with request := true }
  enableInterrupt u := { u with tcie := true }
  move := Uart.move
  inHandler u := u.handler.isSome
  finished u := u.ndtr == 0 && !u.dr && !u.shift

/-! ## The SPI -/

/-- The SPI with its stream and its handler. -/
structure Ssp where
  irq : SspInterrupt
  /-- The peripheral makes DMA requests. -/
  request : Bool

namespace Ssp

/-- Nothing was received and nothing is on its way.  The interrupt for RXNE is enabled once
`ioctlUSE_INTERRUPTS` was requested. -/
def initial (ovr drRead rxneie : Bool) : Ssp :=
  ⟨⟨0, ⟨false, false, false, ovr, drRead, false, rxneie⟩, false, none⟩, false⟩

/-- The registers of the SPI are written. -/
def withSpi (p : Ssp) (spi : SspInterrupt.Spi) : Ssp :=
  { p with irq := { p.irq with spi := spi } }

/-- The moves by the names of `SspInterrupt`. -/
def event : Move → SspInterrupt.Event
  | .dma => .dma
  | .wordShifted => .wordShifted
  | .enterHandler => .enterHandler
  | .handlerStep => .handlerStep

/-- The moves are those of `SspInterrupt`; the stream waits for requests. -/
def move (receiver fullAssert : Bool) (p : Ssp) (m : Move) : Option (Ssp × Bool) :=
  if m = .dma ∧ p.request = false then none
  else
    ((SspInterrupt.machine receiver fullAssert).step p.irq (event m)).map fun r =>
      ({ p with irq := r.1 }, !r.2.isEmpty)

end Ssp

/-- The SPI; `receiver` says that there is an object to receive with, and `fullAssert` that
`configASSERT` is compiled in.
SOURCE: FreeRTOS_stm32f4_ssp.c:192-240, 600-642 -/
def ssp (receiver fullAssert : Bool) : Device Ssp where
  driver := .ssp
  disableInterrupt p := p.withSpi { p.irq.spi with txeie := false }
  prepare p := p.withSpi { p.irq.spi with rxneie := false }
  disableRequest p := { p with request := false }
  startStream n p := { p with irq := { p.irq with ndtr := n % 2 ^ 16 }, request := false }
  enableRequest p := { p with request := true }
  enableInterrupt p := p.withSpi { p.irq.spi with txeie := true }
  move := Ssp.move receiver fullAssert
  inHandler p := p.irq.handler.isSome
  finished p := p.irq.ndtr == 0 && !p.irq.spi.dr && !p.irq.spi.shift

end ZeroCopyTx

end Resmod.Model
