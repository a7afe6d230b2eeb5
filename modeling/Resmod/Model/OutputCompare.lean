import Resmod.Library.Machine

/-!
# Output compares fed by DMA

`TimerOutputCompare` of `stm32f4timeroc.cc`, with the compare register of its channel and the
stream that feeds it.  The constructor gives each channel the functions and the registers of
that channel, so the channel is no part of the model.  Compare values are values of the
compare register; it is not preloaded.

The stream is circular: it answers a request with the word at its position and goes back to
the first word behind the last.  Its address and its counter cannot be written while it is
enabled.  The counter of the hardware has 16 bits: lists of 65536 values and more, which
`DMA_Init` refuses, are outside the model.
-/

set_option autoImplicit false

namespace Resmod.Model

open Resmod.Library

namespace OutputCompare

/-- A circular stream from memory to the compare register. -/
structure DMA_Stream where
  enabled : Bool
  /-- The words seen from the address in `M0AR`. -/
  M0AR : ℕ → UInt32
  NDTR : UInt32
  /-- How many of the `NDTR` words have been transferred in this round. -/
  position : ℕ

namespace DMA_Stream

/-- The address of a stream that is enabled is protected. -/
def writeM0AR (d : DMA_Stream) (m : ℕ → UInt32) : DMA_Stream :=
  if d.enabled then d else { d with M0AR := m }

/-- The number of a stream that is enabled is protected. -/
def writeNDTR (d : DMA_Stream) (v : UInt32) : DMA_Stream :=
  if d.enabled then d else { d with NDTR := v }

/-- `DMA_Cmd(dmaysx_, ENABLE)`: a stream that was disabled begins with the first word. -/
def enable (d : DMA_Stream) : DMA_Stream :=
  if d.enabled then d else { d with enabled := true, position := 0 }

/-- EN is cleared. -/
def disable (d : DMA_Stream) : DMA_Stream := { d with enabled := false }

/-- The word that answers a request, and the stream behind it. -/
def transfer (d : DMA_Stream) : UInt32 × DMA_Stream :=
  (d.M0AR d.position,
    { d with position := if d.position + 1 = d.NDTR.toNat then 0 else d.position + 1 })

end DMA_Stream

/-- The object with the registers it sets. -/
structure State where
  oclistparams : Option (ℕ → UInt32)
  elements : UInt32
  stream : DMA_Stream
  /-- The compare register of the channel. -/
  CCR : UInt32
  /-- `CCxDE` in `DIER`: a compare match raises a DMA request. -/
  dmaTrigger : Bool
  /-- `CCxE` in `CCER`. -/
  ccxEnabled : Bool

/-- SOURCE: resmod/lowlevelutil/stm32f4timeroc.cc:176-183 -/
def initBaseOC (compareval : UInt32) (s : State) : State := { s with CCR := compareval }

/-- `DMA_Init` leaves `EN` as it is.
SOURCE: resmod/lowlevelutil/stm32f4timeroc.cc:155-174, stm32f4xx_dma.c:341-386 -/
def initDMACCx (oclistparams : ℕ → UInt32) (s : State) : State :=
  { s with stream := (s.stream.writeM0AR oclistparams).writeNDTR s.elements }

/-- `ConfigureCompare` with a list of `elem` values, given to an object that has none yet; the
list is copied to memory that held `heap`.
SOURCE: resmod/lowlevelutil/stm32f4timeroc.cc:133-152 -/
def configureCompare (heap arrcomp : ℕ → UInt32) (elem : UInt32) (s : State) : State :=
  let oclistparams := fun i => if i < elem.toNat then arrcomp i else heap i
  let s := { s with elements := elem, oclistparams := some oclistparams }
  let s := initBaseOC (oclistparams 0) s
  let s := { s with dmaTrigger := true }
  initDMACCx oclistparams s

/-- SOURCE: resmod/lowlevelutil/stm32f4timeroc.cc:92-100 -/
def start (s : State) : State :=
  let s :=
    match s.oclistparams with
    | some oclistparams =>
      { s with
        CCR := oclistparams 0
        stream := ((s.stream.writeM0AR oclistparams).writeNDTR s.elements).enable }
    | none => s
  { s with ccxEnabled := true }

/-- `Stop`.
SOURCE: resmod/lowlevelutil/stm32f4timeroc.cc:102-108 -/
def stop (s : State) : State :=
  let s := { s with ccxEnabled := false }
  match s.oclistparams with
  | some _ => { s with stream := s.stream.disable }
  | none => s

/-- The counter reaches the compare register: the DMA request is answered. -/
def compareMatch (s : State) : State :=
  if s.dmaTrigger && s.stream.enabled then
    { s with CCR := s.stream.transfer.1, stream := s.stream.transfer.2 }
  else s

/-- A call of a method, or a compare match. -/
inductive Call
  | start
  | stop
  | enableDMATrigger
  | disableDMATrigger
  /-- The hardware's step. -/
  | compareMatch
  deriving DecidableEq, Repr

/-- A channel that has been configured; the values its compare matches happen at are the
outputs. -/
def machine : Machine State Call UInt32 where
  step s
    | .start => some (start s, [])
    | .stop => some (stop s, [])
    | .enableDMATrigger => some ({ s with dmaTrigger := true }, [])
    | .disableDMATrigger => some ({ s with dmaTrigger := false }, [])
    | .compareMatch => some (compareMatch s, [s.CCR])

end OutputCompare

end Resmod.Model
