import Resmod.Library.Machine

/-!
# An acquisition by SPI and DMA

The class `LTC2336SPIDMATrigger` of `ltc2336spidamtrigger.cc` with the hardware it drives:
an SPI that receives words at times of its own, and a DMA stream that moves them from the
receive register of the SPI to the buffer.

The processor and the hardware interleave at any point between two statements, so every
statement of `Trigger` and of `DMAComplete` is a step of its own.  The words are of any
type, as nothing here depends on what they are.
-/

set_option autoImplicit false

namespace Resmod.Model

open Resmod.Library

/-- The members of `LTC2336SPIDMATrigger` and the registers of its stream and its SPI.
The sample size is one that `DMA_Init` accepts, less than 65536, so that it fits in the 16
bits of `NDTR`. -/
structure LTC2336SPIDMATrigger (α : Type*) (acquisitioncount : ℕ) where
  buff : Vector α acquisitioncount
  en : Bool
  /-- `NDTR`, the number of words the stream has still to move. -/
  ndtr : ℕ
  tcif : Bool
  spe : Bool
  /-- The receive register of the SPI, while `RXNE` is set. -/
  dr : Option α
  deriving DecidableEq

namespace LTC2336SPIDMATrigger

variable {α : Type*} {acquisitioncount : ℕ}

/-- The object the constructor leaves: the stream is enabled and the SPI is not. -/
def construct (zero : α) : LTC2336SPIDMATrigger α acquisitioncount :=
  ⟨Vector.replicate acquisitioncount zero, true, acquisitioncount, false, false, none⟩

/-! ## The hardware -/

/-- The SPI receives a word.  It does so only while it is enabled, and a word that comes
while the register is full is lost. -/
def receive (w : α) (u : LTC2336SPIDMATrigger α acquisitioncount) :
    Option (LTC2336SPIDMATrigger α acquisitioncount) :=
  if u.spe then some { u with dr := u.dr.or (some w) } else none

/-- The stream moves the word in the register to the next slot of the buffer.  With the
last word it disables itself and sets its flag. -/
def service (u : LTC2336SPIDMATrigger α acquisitioncount) :
    Option (LTC2336SPIDMATrigger α acquisitioncount) :=
  match u.dr with
  | none => none
  | some w =>
    if u.en ∧ 0 < u.ndtr then
      some { u with
        buff := u.buff.setIfInBounds (acquisitioncount - u.ndtr) w
        ndtr := u.ndtr - 1
        dr := none
        en := decide (1 < u.ndtr)
        tcif := u.tcif || decide (u.ndtr = 1) }
    else none

/-! ## The statements of the processor -/

/-- The statements of `Trigger`. -/
inductive TriggerStep
  | enableStream
  | receiveData
  | enableSpi
  deriving DecidableEq, Repr

/-- What a statement of `Trigger` does. -/
def TriggerStep.exec (u : LTC2336SPIDMATrigger α acquisitioncount) :
    TriggerStep → LTC2336SPIDMATrigger α acquisitioncount
  | .enableStream => { u with en := true }
  | .receiveData => { u with dr := none }
  | .enableSpi => { u with spe := true }

/-- The statement behind it. -/
def TriggerStep.next : TriggerStep → Option TriggerStep
  | .enableStream => some .receiveData
  | .receiveData => some .enableSpi
  | .enableSpi => none

/-- The statements from the start of the stream's interrupt handler up to the callback of
`DMAComplete`. -/
inductive CompleteStep
  | clearITPendingBit
  | disableSpi
  | resetDma
  | callback
  deriving DecidableEq, Repr

/-- What a statement of the completion does to the acquisition.  `M0AR` is written with
the value it has, and the callback gets the buffer and leaves it. -/
def CompleteStep.exec (u : LTC2336SPIDMATrigger α acquisitioncount) :
    CompleteStep → LTC2336SPIDMATrigger α acquisitioncount
  | .clearITPendingBit => { u with tcif := false }
  | .disableSpi => { u with spe := false }
  | .resetDma => { u with ndtr := acquisitioncount }
  | .callback => u

/-- The statement behind it. -/
def CompleteStep.next : CompleteStep → Option CompleteStep
  | .clearITPendingBit => some .disableSpi
  | .disableSpi => some .resetDma
  | .resetDma => some .callback
  | .callback => none

/-! ## Cycles of trigger and completion -/

/-- Where the processor is: before a statement of `Trigger`, waiting for the interrupt, or
before a statement of the completion. -/
inductive Pc
  | trigger (t : TriggerStep)
  | wait
  | complete (c : CompleteStep)
  deriving DecidableEq, Repr

/-- The object, and what it is about to do. -/
structure Cycle (α : Type*) (acquisitioncount : ℕ) where
  unit : LTC2336SPIDMATrigger α acquisitioncount
  pc : Pc
  deriving DecidableEq

/-- What happens next: a word arrives, the stream moves a word, or the processor goes on. -/
inductive Event (α : Type*)
  | receive (w : α)
  | service
  | step

/-- What the processor does next.  The output is what `triggercallback_` is called with,
if there is one. -/
def Cycle.step (triggercallback : Bool) (s : Cycle α acquisitioncount) :
    Option (Cycle α acquisitioncount × List (List α)) :=
  match s.pc with
  | .trigger t => some (⟨t.exec s.unit, (t.next.map Pc.trigger).getD .wait⟩, [])
  | .wait => if s.unit.tcif then some ({ s with pc := .complete .clearITPendingBit }, []) else none
  | .complete c =>
    some (⟨c.exec s.unit, (c.next.map Pc.complete).getD (.trigger .enableStream)⟩,
      if c = .callback ∧ triggercallback then [s.unit.buff.toList] else [])

/-- The acquisition in any interleaving of its three agents. -/
def cycles (α : Type*) (acquisitioncount : ℕ) (triggercallback : Bool) :
    Machine (Cycle α acquisitioncount) (Event α) (List α) where
  step s
    | .receive w => (s.unit.receive w).map fun u => ({ s with unit := u }, [])
    | .service => s.unit.service.map fun u => ({ s with unit := u }, [])
    | .step => s.step triggercallback

end LTC2336SPIDMATrigger

end Resmod.Model
