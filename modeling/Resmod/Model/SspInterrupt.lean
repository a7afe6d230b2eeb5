import Resmod.Library.Machine

/-!
# The end of a zero-copy write to an SSP

From the moment when `FreeRTOS_SSP_write` has set up the DMA stream and enabled the requests of
the SPI: the stream moves the bytes of the buffer into the data register, the shift register
takes them from there, and `SPI_IRQHandler` is to find out when the buffer can be released.

The handler is modelled statement by statement, since the hardware goes on meanwhile.  No
read is under way (`ulReceiveActive` is `pdFALSE`), so that received words are discarded.
-/

set_option autoImplicit false

namespace Resmod.Model

open Resmod.Library

namespace SspInterrupt

/-! ## The SPI -/

/-- The registers; `TXE` is set while no word waits in `DR` for the shift register. -/
structure Spi where
  dr : Bool
  /-- The shift register is shifting a word. -/
  shift : Bool
  rxne : Bool
  ovr : Bool
  /-- `DR` has been read: the next read of `SR` clears `OVR`. -/
  drRead : Bool
  txeie : Bool
  rxneie : Bool
  deriving DecidableEq, Repr

/-- What the handler reads from `SR`. -/
structure StatusReg where
  ovr : Bool
  rxne : Bool
  txe : Bool
  deriving DecidableEq, Repr

namespace Spi

/-- The flags that a read of `SR` finds. -/
def sr (u : Spi) : StatusReg := ⟨u.ovr, u.rxne, !u.dr⟩

/-- A word is stored into `DR`; it goes on to the shift register if that is free. -/
def store (u : Spi) : Spi :=
  if u.shift then { u with dr := true } else { u with shift := true }

/-- A word has been shifted out and another one in.  If the last one was not read, the new one
is lost and `OVR` set. -/
def shiftWord (u : Spi) : Spi :=
  if u.rxne then { u with shift := u.dr, dr := false, ovr := true, drRead := false }
  else { u with shift := u.dr, dr := false, rxne := true }

/-- A read of `DR` clears RXNE. -/
def readDR (u : Spi) : Spi := { u with rxne := false, drRead := true }

/-- A read of `SR` behind one of `DR` clears OVR. -/
def readSR (u : Spi) : Spi :=
  if u.drRead then { u with ovr := false, drRead := false } else u

/-- The interrupt line. -/
def Requests (u : Spi) : Prop :=
  u.txeie = true ∧ u.dr = false ∨ u.rxneie = true ∧ u.rxne = true

instance (u : Spi) : Decidable u.Requests := by
  unfold Requests
  infer_instance

end Spi

/-! ## The handler -/

/-- The statement `SPI_IRQHandler` is before, with `statusreg`. -/
inductive Place
  | readStatus
  | overrunReadDR (statusreg : StatusReg)
  | overrunReadSR (statusreg : StatusReg)
  /-- `configASSERT(pxrxtransfer)` and the read of the word received. -/
  | receive (statusreg : StatusReg)
  | give
  | junkReadDR
  | junkReadSR
  | enableRXNE
  | disableTXE
  /-- In `vAssertCalled`, for ever. -/
  | assertFailed
  deriving DecidableEq, Repr

/-- The flags that lead to the release. -/
def StatusReg.Both (statusreg : StatusReg) : Prop :=
  statusreg.rxne = true ∧ statusreg.txe = true

instance (statusreg : StatusReg) : Decidable statusreg.Both := by
  unfold StatusReg.Both
  infer_instance

/-- What can happen next. -/
inductive Event
  /-- The stream moves a byte. -/
  | dma
  | wordShifted
  /-- The last statement of the write: `SPI_I2S_ITConfig(spibase, SPI_I2S_IT_TXE, ENABLE)`. -/
  | enableTXE
  | enterHandler
  | handlerStep
  deriving DecidableEq, Repr

/-- What the handler does for the task. -/
inductive Output
  /-- `xSemaphoreGiveFromISR` -/
  | gave
  deriving DecidableEq, Repr

end SspInterrupt

/-- An SSP after the stream of a zero-copy write has been started. -/
structure SspInterrupt where
  /-- The bytes that the stream has not moved. -/
  ndtr : ℕ
  spi : SspInterrupt.Spi
  /-- The write has executed its last statement. -/
  returned : Bool
  handler : Option SspInterrupt.Place

namespace SspInterrupt

/-- The requests for a buffer of `n` bytes have been enabled, with both interrupts of the SPI
disabled.  A word of an earlier transfer may still be on its way, or unread.  `NDTR` has 16
bits: the driver moves `n` bytes with one stream for `n` less than 65536. -/
def started (n : ℕ) (dr shift rxne ovr drRead : Bool) : SspInterrupt :=
  ⟨n, ⟨dr, shift, rxne, ovr, drRead, false, false⟩, false, none⟩

/-- The statement behind the test for an overrun. -/
def Place.afterOverrun (statusreg : StatusReg) : Option Place :=
  if statusreg.rxne then some (.receive statusreg) else none

/-- `SPI_IRQHandler`; `receiver` says that `pxRxTransferControlStructs` holds an object, and
`fullAssert` that `configASSERT` is compiled in.  `TXE` is looked at behind `RXNE` only.
SOURCE: FreeRTOS_stm32f4_ssp.c:647-798 -/
def handlerStep (receiver fullAssert : Bool) (s : SspInterrupt) :
    Option (SspInterrupt × List Output) :=
  match s.handler with
  | none => none
  | some .readStatus =>
    some ({ s with
      spi := s.spi.readSR
      handler := if s.spi.ovr then some (.overrunReadDR s.spi.sr)
        else Place.afterOverrun s.spi.sr }, [])
  | some (.overrunReadDR sr) =>
    some ({ s with spi := s.spi.readDR, handler := some (.overrunReadSR sr) }, [])
  | some (.overrunReadSR sr) =>
    some ({ s with spi := s.spi.readSR, handler := Place.afterOverrun sr }, [])
  | some (.receive sr) =>
    if receiver = false ∧ fullAssert = true then
      some ({ s with handler := some .assertFailed }, [])
    else
      some ({ s with
        spi := if receiver then s.spi.readDR else s.spi
        handler := if sr.txe then some .give else none }, [])
  | some .give => some ({ s with handler := some .junkReadDR }, [.gave])
  | some .junkReadDR => some ({ s with spi := s.spi.readDR, handler := some .junkReadSR }, [])
  | some .junkReadSR => some ({ s with spi := s.spi.readSR, handler := some .enableRXNE }, [])
  | some .enableRXNE =>
    some ({ s with spi := { s.spi with rxneie := true }, handler := some .disableTXE }, [])
  | some .disableTXE => some ({ s with spi := { s.spi with txeie := false }, handler := none }, [])
  | some .assertFailed => none

/-- Any order of what the stream, the shift register, the task and the handler do. -/
def machine (receiver fullAssert : Bool) : Machine SspInterrupt Event Output where
  step s
    | .dma =>
      if s.ndtr = 0 ∨ s.spi.dr = true then none
      else some ({ s with ndtr := s.ndtr - 1, spi := s.spi.store }, [])
    | .wordShifted =>
      if s.spi.shift then some ({ s with spi := s.spi.shiftWord }, []) else none
    | .enableTXE =>
      if s.returned = false ∧ s.handler = none then
        some ({ s with spi := { s.spi with txeie := true }, returned := true }, [])
      else none
    | .enterHandler =>
      if s.spi.Requests ∧ s.handler = none then
        some ({ s with handler := some .readStatus }, [])
      else none
    | .handlerStep => s.handlerStep receiver fullAssert

end SspInterrupt

end Resmod.Model
