import Resmod.Model.ZeroCopyDevice
import Mathlib.Logic.Function.Basic

/-!
# Zero-copy transmission

`FreeRTOS_UART_write` and `FreeRTOS_SSP_write` in zero-copy mode, with the macro
`ioutilsINITIATE_ZERO_COPY_TX`, the function that obtains the write mutex, and the
completion interrupts.  The mutex is a binary semaphore.  Any number of tasks obtain it and
write, over and over; a step is one statement of one task, a move of the hardware, or a
statement of the handler, which no task interrupts.

Both write functions hand all bytes to the DMA stream, so that the macro always takes its
branch for a buffer that has been sent, in which it gives the mutex back.
-/

set_option autoImplicit false

namespace Resmod.Model

open Resmod.Library

namespace ZeroCopyTx

/-- The last address of the core coupled memory, which the DMA does not reach:
`CCMDATARAM_BASE + (64 * 1024)`. -/
def ccmEnd : UInt32 := 0x10010000

/-- The statements of a zero-copy write. -/
inductive Statement
  /-- `configASSERT((uint32_t)pvBuffer > (CCMDATARAM_BASE + (64 * 1024)))` -/
  | assertReached (pvBuffer : UInt32)
  /-- `configASSERT(xIOUtilsGetZeroCopyWriteMutex(.., 0) == 0)` -/
  | assertTaken
  | disableInterrupt
  | prepare
  /-- The test `xTask == xTaskGetCurrentTaskHandle()` of the macro. -/
  | checkTask
  | disableRequest
  | startStream
  | enableRequest
  /-- `xSemaphoreGive` of the macro. -/
  | give
  /-- `xTask = NULL` of the macro. -/
  | clearTask
  /-- `xSemaphoreTake(pzxero->xWriteAccessMutex, 0)` -/
  | retake
  | enableInterrupt
  | return
  deriving DecidableEq, Repr

/-- What a task is about to do. -/
inductive Place
  /-- Outside; the next thing it does is to obtain the mutex. -/
  | idle
  /-- In `xIOUtilsGetZeroCopyWriteMutex`, with the semaphore taken: `xTask = current`. -/
  | taken
  /-- It has obtained the mutex and will call the write function. -/
  | obtained
  /-- In the write function, with the number of bytes that it is to return. -/
  | writing (statement : Statement) (xBytes : ℕ)
  deriving DecidableEq, Repr

/-- The two drivers differ in where the assertion about the mutex stands. -/
def Driver.afterReached : Driver → Statement
  | .uart => .assertTaken
  | .ssp => .disableInterrupt

/-- The SSP asserts here that the mutex is not available. -/
def Driver.afterPrepare : Driver → Statement
  | .uart => .checkTask
  | .ssp => .assertTaken

/-- What follows the assertion on the mutex. -/
def Driver.afterTaken : Driver → Statement
  | .uart => .disableInterrupt
  | .ssp => .checkTask

end ZeroCopyTx

/-- The state of a peripheral, of its `Zero_Copy_Tx_State_t` and of the tasks `τ` that use
it. -/
structure ZeroCopyTx (σ : Type) (τ : Type*) where
  /-- `xWriteAccessMutex` can be taken. -/
  mutex : Bool
  xTask : Option τ
  device : σ
  place : τ → ZeroCopyTx.Place
  /-- An assertion has failed in a task, which disables the interrupts and loops. -/
  halted : Bool

namespace ZeroCopyTx

variable {σ : Type} {τ : Type*} [DecidableEq τ]

/-- What can happen next. -/
inductive Event (τ : Type*)
  /-- A task outside tries to take the semaphore in `xIOUtilsGetZeroCopyWriteMutex`. -/
  | obtain (t : τ)
  /-- A task that has obtained the mutex calls the write function. -/
  | call (t : τ) (pvBuffer : UInt32) (xBytes : ℕ)
  /-- A task executes its next statement. -/
  | run (t : τ)
  | move (m : Move)

/-- What a step means for the tasks. -/
inductive Action (τ : Type*)
  | obtained (t : τ)
  | started (t : τ)
  | returned (t : τ) (xReturn : ℕ)
  /-- The interrupt has given the semaphore. -/
  | gave
  deriving DecidableEq, Repr

/-- The mutex has been created and given. -/
def initial (d : σ) : ZeroCopyTx σ τ where
  mutex := true
  xTask := none
  device := d
  place := fun _ => .idle
  halted := false

/-- A task goes on to a place. -/
def goTo (s : ZeroCopyTx σ τ) (t : τ) (q : Place) : ZeroCopyTx σ τ :=
  { s with place := Function.update s.place t q }

/-- The task is where it has gone. -/
@[simp] theorem goTo_place_self (s : ZeroCopyTx σ τ) (t : τ) (q : Place) :
    (s.goTo t q).place t = q := by
  simp [goTo]

/-- The other tasks stay where they are. -/
theorem goTo_place_of_ne (s : ZeroCopyTx σ τ) {t u : τ} (q : Place) (hne : u ≠ t) :
    (s.goTo t q).place u = s.place u := by
  simp [goTo, hne]

/-- The assertion of the write function: it takes the semaphore without waiting, and must
not get it.  Without `USE_FULL_ASSERT` it is compiled to nothing. -/
def assertTaken (fullAssert : Bool) (s : ZeroCopyTx σ τ) (t : τ) (next : Place) :
    ZeroCopyTx σ τ :=
  if fullAssert ∧ s.mutex then { s with mutex := false, xTask := some t, halted := true }
  else s.goTo t next

/-- A statement of the write function, with the return value so far.
SOURCE: FreeRTOS_stm32f4_uart.c:147-191, FreeRTOS_stm32f4_ssp.c:192-240,
IOUtils_ZeroCopyTx.h:117-151 -/
def runStatement (D : Device σ) (fullAssert : Bool) (s : ZeroCopyTx σ τ) (t : τ)
    (xBytes : ℕ) : Statement → ZeroCopyTx σ τ × List (Action τ)
  | .assertReached pvBuffer =>
    if fullAssert ∧ ¬ ccmEnd < pvBuffer then ({ s with halted := true }, [])
    else (s.goTo t (.writing D.driver.afterReached xBytes), [])
  | .assertTaken => (assertTaken fullAssert s t (.writing D.driver.afterTaken xBytes), [])
  | .disableInterrupt =>
    ({ s with device := D.disableInterrupt s.device }.goTo t (.writing .prepare xBytes), [])
  | .prepare =>
    ({ s with device := D.prepare s.device }.goTo t (.writing D.driver.afterPrepare xBytes), [])
  | .checkTask =>
    if s.xTask = some t then (s.goTo t (.writing .disableRequest xBytes), [])
    else (s.goTo t (.writing .retake 0), [])
  | .disableRequest =>
    ({ s with device := D.disableRequest s.device }.goTo t (.writing .startStream xBytes), [])
  | .startStream =>
    ({ s with device := D.startStream xBytes s.device }.goTo t (.writing .enableRequest xBytes),
      [.started t])
  | .enableRequest =>
    ({ s with device := D.enableRequest s.device }.goTo t (.writing .give xBytes), [])
  | .give => ({ s with mutex := true }.goTo t (.writing .clearTask xBytes), [])
  | .clearTask => ({ s with xTask := none }.goTo t (.writing .retake xBytes), [])
  | .retake => ({ s with mutex := false }.goTo t (.writing .enableInterrupt xBytes), [])
  | .enableInterrupt =>
    ({ s with device := D.enableInterrupt s.device }.goTo t (.writing .return xBytes), [])
  | .return => (s.goTo t .idle, [.returned t xBytes])

/-- The next statement of a task.
SOURCE: IOUtils_ZeroCopyTx.c:111-134 -/
def runTask (D : Device σ) (fullAssert : Bool) (s : ZeroCopyTx σ τ) (t : τ) :
    Option (ZeroCopyTx σ τ × List (Action τ)) :=
  match s.place t with
  | .idle | .obtained => none
  | .taken => some ({ s with xTask := some t }.goTo t .obtained, [])
  | .writing statement xBytes => some (runStatement D fullAssert s t xBytes statement)

/-- What can happen next, when no handler is active: a task that does not get the semaphore goes
on waiting, or gives up and tries again. -/
def taskStep (D : Device σ) (fullAssert : Bool) (s : ZeroCopyTx σ τ) :
    Event τ → Option (ZeroCopyTx σ τ × List (Action τ))
  | .obtain t =>
    if s.place t = .idle then
      if s.mutex then some ({ s with mutex := false }.goTo t .taken, [.obtained t])
      else some (s, [])
    else none
  | .call t pvBuffer xBytes =>
    if s.place t = .obtained then
      some (s.goTo t (.writing (.assertReached pvBuffer) xBytes), [])
    else none
  | .run t => runTask D fullAssert s t
  | .move _ => none

/-- The handler gives the semaphore in one of its moves. -/
def afterMove (s : ZeroCopyTx σ τ) (r : σ × Bool) : ZeroCopyTx σ τ × List (Action τ) :=
  if r.2 then ({ s with device := r.1, mutex := true }, [.gave])
  else ({ s with device := r.1 }, [])

/-- What can happen next: while the handler is active, only moves. -/
def step (D : Device σ) (fullAssert : Bool) (s : ZeroCopyTx σ τ) :
    Event τ → Option (ZeroCopyTx σ τ × List (Action τ))
  | .move m => (D.move s.device m).map (afterMove s)
  | e => if D.inHandler s.device then none else taskStep D fullAssert s e

/-- Any interleaving of the tasks, the hardware and the handler. -/
def machine (D : Device σ) (fullAssert : Bool) :
    Machine (ZeroCopyTx σ τ) (Event τ) (Action τ) where
  step s e := if s.halted then none else step D fullAssert s e

end ZeroCopyTx

end Resmod.Model
