import Resmod.Library.Machine

/-!
# Polled transfers over an SSP

The polled branches of `FreeRTOS_SSP_write` and `FreeRTOS_SSP_read`, statement by statement,
with the data register, the shift register and the flags of the SPI.  A word leaves the data
register, `TXE` is set, and the word shifted in for it arrives at times of the hardware's own.

The interrupts of the SPI are disabled.  A word that arrives while another one waits to be
read is lost.
-/

set_option autoImplicit false

namespace Resmod.Model

open Resmod.Library

namespace SspPolled

/-- The registers of the SPI that are polled. -/
structure Spi where
  /-- The word that waits for the shift register. -/
  dr : Option UInt8
  txe : Bool
  shift : Option UInt8
  rxne : Bool
  /-- The word that a read of the data register delivers. -/
  received : UInt8
  deriving DecidableEq, Repr

namespace Spi

/-- `SPI_SendData` -/
def sendData (u : Spi) (b : UInt8) : Spi := { u with dr := some b, txe := false }

/-- `SPI_ReceiveData`, as far as it changes the flags. -/
def receiveData (u : Spi) : Spi := { u with rxne := false }

/-- A word has been shifted out, and `w` in. -/
def shifted (u : Spi) (w : UInt8) : Spi :=
  if u.rxne then { u with shift := none }
  else { u with shift := none, rxne := true, received := w }

end Spi

/-- The statement that the task is before; `i` is the counter of the loop, and in a read the
number of bytes in the buffer is. -/
inductive Place
  | outside
  /-- The test of the loop, and `SPI_SendData(spibase, buff[i])`. -/
  | writeNext (buff : List UInt8) (i : ℕ)
  | writeWait (buff : List UInt8) (i : ℕ)
  /-- `SPI_ReceiveData` behind the loop. -/
  | writeClear (buff : List UInt8)
  /-- `SPI_ReceiveData` before the loop. -/
  | readClear (xBytes : ℕ)
  /-- The test of the loop, and `SPI_SendData(spibase, 0xFF)`. -/
  | readNext (xBytes : ℕ) (buff : List UInt8)
  | readWait (xBytes : ℕ) (buff : List UInt8)
  /-- `buff[i] = SPI_ReceiveData(spibase)` -/
  | readReceive (xBytes : ℕ) (buff : List UInt8)
  deriving DecidableEq, Repr

/-- What can happen next. -/
inductive Event
  | write (buff : List UInt8)
  | read (xBytes : ℕ)
  /-- The task's next statement, or another look at `TXE`. -/
  | taskStep
  /-- The word in the data register goes to the shift register. -/
  | load
  | setTXE
  | shifted (w : UInt8)
  deriving DecidableEq, Repr

/-- What appears on the bus and what the calls return. -/
inductive Output
  /-- A byte has been shifted out. -/
  | bus (b : UInt8)
  | wrote (buff : List UInt8) (ret : ℕ)
  | readDone (xBytes : ℕ) (buff : List UInt8) (ret : ℕ)
  deriving DecidableEq, Repr

end SspPolled

/-- An SSP that is polled. -/
structure SspPolled where
  spi : SspPolled.Spi
  place : SspPolled.Place
  deriving DecidableEq, Repr

namespace SspPolled

/-- The port as `FreeRTOS_SSP_open` leaves it: nothing is on its way. -/
def opened (rxne : Bool) (received : UInt8) : SspPolled :=
  ⟨⟨none, true, none, rxne, received⟩, .outside⟩

/-- The next statement of the task.  A write never sets its return value.
SOURCE: FreeRTOS_stm32f4_ssp.c:153-190, 302-321 -/
def taskStep (s : SspPolled) : Option (SspPolled × List Output) :=
  match s.place with
  | .outside => none
  | .writeNext buff i =>
    match buff[i]? with
    | some b => some (⟨s.spi.sendData b, .writeWait buff i⟩, [])
    | none => some ({ s with place := .writeClear buff }, [])
  | .writeWait buff i =>
    if s.spi.txe then some ({ s with place := .writeNext buff (i + 1) }, []) else some (s, [])
  | .writeClear buff => some (⟨s.spi.receiveData, .outside⟩, [.wrote buff 0])
  | .readClear xBytes => some (⟨s.spi.receiveData, .readNext xBytes []⟩, [])
  | .readNext xBytes buff =>
    if buff.length < xBytes then some (⟨s.spi.sendData 0xFF, .readWait xBytes buff⟩, [])
    else some ({ s with place := .outside }, [.readDone xBytes buff xBytes])
  | .readWait xBytes buff =>
    if s.spi.txe then some ({ s with place := .readReceive xBytes buff }, []) else some (s, [])
  | .readReceive xBytes buff =>
    some (⟨s.spi.receiveData, .readNext xBytes (buff ++ [s.spi.received])⟩, [])

/-- Any order of calls, statements and moves of the hardware. -/
def machine : Machine SspPolled Event Output where
  step s
    | .write buff =>
      if s.place = .outside then some ({ s with place := .writeNext buff 0 }, []) else none
    | .read xBytes =>
      if s.place = .outside then some ({ s with place := .readClear xBytes }, []) else none
    | .taskStep => s.taskStep
    | .load =>
      match s.spi.dr, s.spi.shift with
      | some b, none => some ({ s with spi := { s.spi with dr := none, shift := some b } }, [])
      | _, _ => none
    | .setTXE =>
      if s.spi.dr = none then some ({ s with spi := { s.spi with txe := true } }, []) else none
    | .shifted w =>
      match s.spi.shift with
      | some b => some ({ s with spi := s.spi.shifted w }, [.bus b])
      | none => none

end SspPolled

end Resmod.Model
