import Resmod.Model.Acquisition

/-!
# The handover of an acquisition to the calculation

The interrupt handlers of `dma1.cc` and `tim.cc`, the excitation that starts an
acquisition, the two acquisitions, and `CalcTask`, as `ResmodTask` sets them up.  They
share two buffers, two semaphores, two pointers and the enable bits of two interrupts.

Every statement is a step.  A handler is entered at any time after its interrupt became
pending: `TIM5_IRQHandler` has priority 4 and preempts the three handlers of priority 5,
which do not preempt each other, and the task runs only while no handler does.  An
interrupt becomes pending when its flag and its enable bit come to be set together.
-/

set_option autoImplicit false

namespace Resmod.Model

open Resmod.Library

/-- What exists once for the voltage and once for the current. -/
inductive Channel
  | voltage
  | current
  deriving DecidableEq, Repr

/-- An interrupt source: its flag, its enable bit, and whether it is pending. -/
structure Source where
  flag : Bool
  enable : Bool
  pending : Bool
  deriving DecidableEq, Repr

namespace Source

/-- The hardware sets the flag, which makes an interrupt pending if it is enabled. -/
def fire (i : Source) : Source :=
  { i with flag := true, pending := i.pending || (i.enable && !i.flag) }

/-- `DMA_ClearITPendingBit`, `TIM_ClearITPendingBit` -/
def clearITPendingBit (i : Source) : Source := { i with flag := false }

/-- `DMA_ITConfig(…, ENABLE)`, `TIM_ITConfig(…, ENABLE)` -/
def enableIT (i : Source) : Source :=
  { i with enable := true, pending := i.pending || (i.flag && !i.enable) }

/-- `DMA_ITConfig(…, DISABLE)`, `TIM_ITConfig(…, DISABLE)` -/
def disableIT (i : Source) : Source := { i with enable := false }

/-- The handler is entered. -/
def enter (i : Source) : Source := { i with pending := false }

end Source

namespace Handover

/-- One channel: its acquisition, whether the interrupt of its stream is pending (it is
always enabled), and the members of `CalculationTask` for it. -/
structure ChannelState (α : Type*) (n : ℕ) where
  unit : LTC2336SPIDMATrigger α n
  pending : Bool
  sem : Bool
  /-- The pointer `pvarr_`, `piarr_`: null, or the buffer of a channel. -/
  parr : Option Channel
  waveform : Vector α n

/-- The statements of `DMA1_Stream2_IRQHandler`. -/
inductive ExcitationStep
  | clearITPendingBit
  | dmaroll
  | disableIT
  deriving DecidableEq, Repr

/-- The statements of `DMA2_Stream0_IRQHandler` and `DMA1_Stream3_IRQHandler`.  The
callback sets the pointer, and then gives the semaphore. -/
inductive AdcStep
  | complete (c : LTC2336SPIDMATrigger.CompleteStep)
  | give
  deriving DecidableEq, Repr

/-- The handlers of priority 5, and where they are. -/
inductive Handler
  | excitation (pc : ExcitationStep)
  | adc (ch : Channel) (pc : AdcStep)
  deriving DecidableEq, Repr

/-- The statements of `TIM5_IRQHandler`. -/
inductive Tim5Step
  | clearITPendingBit
  | disableIT
  | trigger (ch : Channel) (t : LTC2336SPIDMATrigger.TriggerStep)
  deriving DecidableEq, Repr

/-- The statements of `CalcTask`; `copy ch j` is the copy of element `j`. -/
inductive TaskStep
  | take (ch : Channel)
  | copy (ch : Channel) (j : ℕ)
  | performCalculation
  | delay
  | clearITPendingBit
  | enableIT
  deriving DecidableEq, Repr

/-- The state of the program and of the hardware it shares. -/
structure System (α : Type*) (n : ℕ) where
  channel : Channel → ChannelState α n
  /-- The transfer-complete interrupt of `DMA1_Stream2`. -/
  excitation : Source
  /-- The update interrupt of `TIM5`. -/
  tim5 : Source
  handler : Option Handler
  tim5Handler : Option Tim5Step
  task : TaskStep

/-- What happens next: an event of the hardware, the entry of a handler, or a statement. -/
inductive Event (α : Type*)
  | excitationComplete
  | timerUpdate
  | receive (ch : Channel) (w : α)
  | service (ch : Channel)
  | enterExcitation
  | enterAdc (ch : Channel)
  | enterTim5
  | handlerStep
  | tim5Step
  | taskStep

variable {α : Type*} {n : ℕ}

/-- One of the two channels is changed. -/
def System.setChannel (s : System α n) (ch : Channel) (c : ChannelState α n) : System α n :=
  { s with channel := Function.update s.channel ch c }

/-- The stream moves a word; its interrupt becomes pending with its flag. -/
def ChannelState.service (c : ChannelState α n) : Option (ChannelState α n) :=
  c.unit.service.map fun u =>
    { c with unit := u, pending := c.pending || (u.tcif && !c.unit.tcif) }

/-- The statement behind it. -/
def Tim5Step.next : Tim5Step → Option Tim5Step
  | .clearITPendingBit => some .disableIT
  | .disableIT => some (.trigger .voltage .enableStream)
  | .trigger .voltage t => some ((t.next.map (Tim5Step.trigger .voltage)).getD
      (.trigger .current .enableStream))
  | .trigger .current t => t.next.map (Tim5Step.trigger .current)

/-- `TIM5_IRQHandler`, statement by statement. -/
def System.tim5Step (s : System α n) (t : Tim5Step) : System α n :=
  let s := { s with tim5Handler := t.next }
  match t with
  | .clearITPendingBit => { s with tim5 := s.tim5.clearITPendingBit }
  | .disableIT => { s with tim5 := s.tim5.disableIT }
  | .trigger ch t => s.setChannel ch { s.channel ch with unit := t.exec (s.channel ch).unit }

/-- `DMA1_Stream2_IRQHandler` with `Excitation::DMAComplete` and `ExcitationRoll`. -/
def System.excitationStep (s : System α n) : ExcitationStep → System α n
  | .clearITPendingBit => { s with
      excitation := s.excitation.clearITPendingBit
      handler := some (.excitation .dmaroll) }
  | .dmaroll => { s with
      tim5 := s.tim5.enableIT
      handler := some (.excitation .disableIT) }
  | .disableIT => { s with
      excitation := s.excitation.disableIT
      handler := none }

/-- The handler of a channel's stream with `DMAComplete` and `ADCVComplete` or
`ADCIComplete`. -/
def System.adcStep (s : System α n) (ch : Channel) : AdcStep → System α n
  | .complete .callback =>
    { s.setChannel ch { s.channel ch with parr := some ch } with
      handler := some (.adc ch .give) }
  | .complete c =>
    { s.setChannel ch { s.channel ch with unit := c.exec (s.channel ch).unit } with
      handler := c.next.map fun c => .adc ch (.complete c) }
  | .give => { s.setChannel ch { s.channel ch with sem := true } with handler := none }

/-- What the task does behind a take: the other take, or the copies. -/
def TaskStep.afterTake : Channel → TaskStep
  | .voltage => .take .current
  | .current => .copy .voltage 0

/-- What the task does behind a copy: the other copy, or the calculation. -/
def TaskStep.afterCopy : Channel → TaskStep
  | .voltage => .copy .current 0
  | .current => .performCalculation

/-- `CalcTask`, statement by statement.  Taking a semaphore waits until it is given, and
reading through a null pointer is not defined. -/
def System.taskStep (s : System α n) : Option (System α n) :=
  match s.task with
  | .take ch =>
    if (s.channel ch).sem then
      some { s.setChannel ch { s.channel ch with sem := false } with
        task := .afterTake ch }
    else none
  | .copy ch j =>
    if h : j < n then
      (s.channel ch).parr.map fun src =>
        { s.setChannel ch { s.channel ch with
            waveform := (s.channel ch).waveform.set j (s.channel src).unit.buff[j] } with
          task := .copy ch (j + 1) }
    else some { s with task := .afterCopy ch }
  | .performCalculation => some { s with task := .delay }
  | .delay => some { s with task := .clearITPendingBit }
  | .clearITPendingBit => some { s with
      excitation := s.excitation.clearITPendingBit
      task := .enableIT }
  | .enableIT => some { s with
      excitation := s.excitation.enableIT
      task := .take .voltage }

/-- The output of a step: what `PerformCalculation` is called with. -/
def System.performed (s : System α n) : List (Channel → List α) :=
  if s.task = .performCalculation then [fun ch => (s.channel ch).waveform.toList] else []

/-- The system in any interleaving of the hardware, the handlers and the task. -/
def machine (α : Type*) (n : ℕ) : Machine (System α n) (Event α) (Channel → List α) where
  step s
    | .excitationComplete => some ({ s with excitation := s.excitation.fire }, [])
    | .timerUpdate => some ({ s with tim5 := s.tim5.fire }, [])
    | .receive ch w =>
      ((s.channel ch).unit.receive w).map fun u =>
        (s.setChannel ch { s.channel ch with unit := u }, [])
    | .service ch => (s.channel ch).service.map fun c => (s.setChannel ch c, [])
    | .enterExcitation =>
      if s.excitation.pending ∧ s.handler = none ∧ s.tim5Handler = none then
        some ({ s with
          excitation := s.excitation.enter
          handler := some (.excitation .clearITPendingBit) }, [])
      else none
    | .enterAdc ch =>
      if (s.channel ch).pending ∧ s.handler = none ∧ s.tim5Handler = none then
        some ({ s.setChannel ch { s.channel ch with pending := false } with
          handler := some (.adc ch (.complete .clearITPendingBit)) }, [])
      else none
    | .enterTim5 =>
      if s.tim5.pending ∧ s.tim5Handler = none then
        some ({ s with
          tim5 := s.tim5.enter
          tim5Handler := some .clearITPendingBit }, [])
      else none
    | .handlerStep =>
      if s.tim5Handler = none then
        match s.handler with
        | none => none
        | some (.excitation pc) => some (s.excitationStep pc, [])
        | some (.adc ch pc) => some (s.adcStep ch pc, [])
      else none
    | .tim5Step => s.tim5Handler.map fun t => (s.tim5Step t, [])
    | .taskStep =>
      if s.handler = none ∧ s.tim5Handler = none then
        s.taskStep.map fun s' => (s', s.performed)
      else none

/-- The state in which `ResmodTask` has just enabled the interrupt of `DMA1_Stream2`, with
whatever the flags of the two running timers and streams are by then and whatever is in
the task's arrays. -/
def afterEnable (zero : α) (excitationFlag tim5Flag : Bool) (waveform : Channel → Vector α n) :
    System α n where
  channel ch := ⟨.construct zero, false, false, none, waveform ch⟩
  excitation := ⟨excitationFlag, true, excitationFlag⟩
  tim5 := ⟨tim5Flag, false, false⟩
  handler := none
  tim5Handler := none
  task := .take .voltage

end Handover

end Resmod.Model
