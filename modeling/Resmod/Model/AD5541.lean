import Resmod.Library.Machine
import Mathlib.Logic.Function.Basic

/-!
# The digital to analogue converter

The class `AD5541` of `ad5541.cc`: at every data timeout the word at the running offset of the
data buffer is written to the converter, and the progress callback is called where the tracker
has a mark.

The data buffer and the tracker are the memory seen from their pointers, so that a step goes
on behind them; every index that is used is in the outputs.  `SetDataBuffer` has an empty
body, so the buffer stays what it is.
-/

set_option autoImplicit false

namespace Resmod.Model

open Resmod.Library

namespace AD5541

/-- Whether values are written to the converter. -/
inductive DACMode
  | enabled
  | disabled
  deriving DecidableEq, Repr

/-- The buffer of the values. -/
structure DataOutDetails where
  /-- The memory seen from `dat`. -/
  dat : ℕ → UInt16
  size : UInt32

/-- The data members of `AD5541`; the callbacks are of any type. -/
structure State (κ : Type*) where
  dacmode : DACMode
  dataout : DataOutDetails
  dataoutoffset : UInt32
  /-- The memory seen from `callbacktracker_`. -/
  callbacktracker : ℕ → UInt8
  callback : κ
  timeoutlist : List UInt32

/-- What a call does outside the object, and the indices it uses. -/
inductive Output (κ : Type*)
  | data (i : ℕ)
  | tracker (i : ℕ)
  | lowLevelWriteData (dat : UInt16)
  | onCallbackEvent (callback : κ)
  deriving DecidableEq, Repr

/-- A call of a method. -/
inductive Call (κ : Type*)
  | start
  | stop
  | reset
  /-- `heap` is what lies in and behind the memory that `new` returns. -/
  | setProgressCallback (heap : ℕ → UInt8) (callback : κ) (timeoutlist : List UInt32)
  | notifyDataTimeout

variable {κ : Type*}

/-- `Start`.
SOURCE: ad5541.cc:39-41 -/
def start (s : State κ) : State κ := { s with dacmode := .enabled }

/-- `Stop`.
SOURCE: ad5541.cc:43-45 -/
def stop (s : State κ) : State κ := { s with dacmode := .disabled }

/-- `Reset`.
SOURCE: ad5541.cc:47-49 -/
def reset (s : State κ) : State κ := { s with dacmode := .disabled }

/-- The marks of the timeout list, set one after the other. -/
def markTimeouts (tracker : ℕ → UInt8) (timeoutlist : List UInt32) : ℕ → UInt8 :=
  timeoutlist.foldl (fun t elem => Function.update t elem.toNat 1) tracker

/-- The tracker is cleared and marked where a callback is due.
SOURCE: ad5541.cc:87-96 -/
def initCallbackTracker (heap : ℕ → UInt8) (s : State κ) : State κ × List (Output κ) :=
  let filled := fun i => if i < s.dataout.size.toNat then 0 else heap i
  ({ s with callbacktracker := markTimeouts filled s.timeoutlist },
    s.timeoutlist.map fun elem => .tracker elem.toNat)

/-- The callback and its offsets are taken while the converter is disabled.
SOURCE: ad5541.cc:59-67 -/
def setProgressCallback (heap : ℕ → UInt8) (callback : κ) (timeoutlist : List UInt32)
    (s : State κ) : State κ × List (Output κ) :=
  if s.dacmode = .disabled then
    initCallbackTracker heap { s with callback, timeoutlist }
  else (s, [])

/-- The end of `NotifyDataTimeout`.  The offset goes back to 0 when it is beyond the size, not
when it has reached it. -/
def advance (s : State κ) : State κ :=
  let dataoutoffset := s.dataoutoffset + 1
  { s with
    dataoutoffset := if s.dataout.size < dataoutoffset then 0 else dataoutoffset }

/-- The next value is written, and the callback called where it is marked.
SOURCE: ad5541.cc:69-84 -/
def notifyDataTimeout (s : State κ) : State κ × List (Output κ) :=
  if s.dacmode = .enabled then
    let i := s.dataoutoffset.toNat
    (advance s,
      .data i :: .lowLevelWriteData (s.dataout.dat i) :: .tracker i ::
        if s.callbacktracker i = 1 then [.onCallbackEvent s.callback] else [])
  else (s, [])

/-- What a call does. -/
def call (s : State κ) : Call κ → State κ × List (Output κ)
  | .start => (start s, [])
  | .stop => (stop s, [])
  | .reset => (reset s, [])
  | .setProgressCallback heap callback timeoutlist =>
    setProgressCallback heap callback timeoutlist s
  | .notifyDataTimeout => notifyDataTimeout s

/-- The converter's driver, driven by calls of its public interface. -/
def machine (κ : Type*) : Machine (State κ) (Call κ) (Output κ) where
  step s a := some (call s a)

end AD5541

end Resmod.Model
