import Resmod.Library.Heap
import Resmod.Library.Machine

/-!
# Transfer control structures

How a UART comes to its mode of transfer: `FreeRTOS_ioctl`,
`vIOUtilsCreateTransferControlStructure` and the functions that configure a zero copy
transmission, a character queue and a circular buffer, with the structures that they
allocate and free.  `FreeRTOS_UART_write`, `FreeRTOS_UART_read` and the two halves of
`UART_IRQHandler` are here as what they access.

A pointer that is NULL, that points to freed memory or to a structure of another type is a
fault.  Every allocation can fail.  A call is one step: the handler runs between calls.

`fullAssert` says that `configASSERT` is compiled in, as it is with `USE_FULL_ASSERT`: an
assertion that does not hold then stops the program, with interrupts disabled, and what would
come after it does not take place.  The assertions in the default branches of the switches
over `ucType` are left out: a control structure always has one of the other types.
-/

set_option autoImplicit false

namespace Resmod.Model

open Resmod.Library

namespace TransferControl

/-- `ucType`, the request that the structure was set up by.
SOURCE: FreeRTOS_DriverInterface.h:68-72, 101-106 -/
inductive TransferType
  | polledTx
  | polledRx
  | zeroCopyTx
  | characterQueueTx
  | characterQueueRx
  | circularBufferRx
  deriving DecidableEq, Repr

/-- What a block holds, as far as the pointers in it.  Queues and semaphores are both
`Queue_t`.  SOURCE: FreeRTOS_DriverInterface.h:68-72, IOUtils_ZeroCopyTx.h:43-49,
IOUtils_CharQueueTxAndRx.h:43-48, IOUtils_CircularBufferRx.h:43-53 -/
inductive Block
  | uninitialised
  | transferControl (ucType : TransferType) (pvTransferState : Option ℕ)
  | characterQueueState (xQueue : Option ℕ)
  | zeroCopyTxState (xWriteAccessMutex : Option ℕ)
  | circularBufferRxState (xNewDataSemaphore pucBufferStart : Option ℕ)
  | queue
  | buffer
  deriving DecidableEq, Repr

namespace Block

/-- The block as a control structure: the type of the transfer and the pointer to its state. -/
def asTransferControl : Block → Option (TransferType × Option ℕ)
  | .transferControl ucType pvTransferState => some (ucType, pvTransferState)
  | _ => none

/-- The block as the state of a character queue: the pointer to the queue. -/
def asCharacterQueueState : Block → Option (Option ℕ)
  | .characterQueueState xQueue => some xQueue
  | _ => none

/-- The block as the state of a zero-copy transmission: the pointer to the mutex. -/
def asZeroCopyTxState : Block → Option (Option ℕ)
  | .zeroCopyTxState xWriteAccessMutex => some xWriteAccessMutex
  | _ => none

/-- The block as the state of a circular buffer: the pointers to the semaphore and to the
buffer. -/
def asCircularBufferRxState : Block → Option (Option ℕ × Option ℕ)
  | .circularBufferRxState xNewDataSemaphore pucBufferStart =>
    some (xNewDataSemaphore, pucBufferStart)
  | _ => none

/-- The block as a queue or a semaphore. -/
def asQueue : Block → Option Unit
  | .queue => some ()
  | _ => none

/-- The block as a buffer. -/
def asBuffer : Block → Option Unit
  | .buffer => some ()
  | _ => none

end Block

/-- A pointer is followed to a structure of a type. -/
def follow {α : Type} (view : Block → Option α) : Option ℕ → Command Block α
  | none => Command.fault
  | some p => do
    match view (← Command.load p) with
    | some x => pure x
    | none => Command.fault

/-- `vPortFree`, which `vQueueDelete` and `vSemaphoreDelete` come down to; NULL is let
through. -/
def vPortFree : Option ℕ → Command Block Unit
  | none => pure ()
  | some p => Command.free p

/-! ## Configuring one side -/

/-- What a structure that is there already points to is deleted, by its type.
SOURCE: FreeRTOS_IOUtils.c:69-140 -/
def deleteTransferState (ucType : TransferType) (pvTransferState : Option ℕ) :
    Command Block Unit := do
  match ucType with
  | .zeroCopyTx =>
    let xWriteAccessMutex ← follow Block.asZeroCopyTxState pvTransferState
    vPortFree xWriteAccessMutex
    vPortFree pvTransferState
  | .characterQueueTx | .characterQueueRx =>
    let xQueue ← follow Block.asCharacterQueueState pvTransferState
    vPortFree xQueue
    vPortFree pvTransferState
  | .circularBufferRx =>
    let (xNewDataSemaphore, pucBufferStart) ← follow Block.asCircularBufferRxState
      pvTransferState
    vPortFree xNewDataSemaphore
    vPortFree pucBufferStart
    vPortFree pvTransferState
  | .polledTx => vPortFree pvTransferState
  | .polledRx => pure ()

section Configure

variable (fullAssert : Bool) (available : ℕ → Bool)

/-- The value of `*ppxTransferControl` afterwards.  SOURCE: FreeRTOS_IOUtils.c:53-144 -/
def vIOUtilsCreateTransferControlStructure (pxTransferControl : Option ℕ) :
    Command Block (Option ℕ) :=
  match pxTransferControl with
  | none => Command.alloc available .uninitialised
  | some p => do
    let (ucType, pvTransferState) ← follow Block.asTransferControl (some p)
    deleteTransferState ucType pvTransferState
    Command.store p (.transferControl ucType none)
    pure (some p)

/-- A state structure with one queue or semaphore in it is created; it is NULL if either
cannot be allocated.
SOURCE: IOUtils_CharQueueTxAndRx.c:95-123, IOUtils_ZeroCopyTx.c:65-95 -/
def createStateWithQueue (state : Option ℕ → Block) : Command Block (Option ℕ) := do
  match ← Command.alloc available .uninitialised with
  | none => pure none
  | some p =>
    Command.store p (state none)
    match ← Command.alloc available .queue with
    | none =>
      Command.free p
      pure none
    | some xQueue =>
      Command.store p (state (some xQueue))
      pure (some p)

/-- A `Circular_Buffer_Rx_State_t` with its semaphore and its buffer is created.
SOURCE: IOUtils_CircularBufferRx.c:65-113 -/
def createCircularBufferState : Command Block (Option ℕ) := do
  match ← Command.alloc available .uninitialised with
  | none => pure none
  | some p =>
    Command.store p (.circularBufferRxState none none)
    match ← Command.alloc available .queue with
    | none =>
      Command.free p
      pure none
    | some xNewDataSemaphore =>
      Command.store p (.circularBufferRxState (some xNewDataSemaphore) none)
      match ← Command.alloc available .buffer with
      | none =>
        Command.free xNewDataSemaphore
        Command.store p (.circularBufferRxState none none)
        Command.free p
        pure none
      | some pucBufferStart =>
        Command.store p
          (.circularBufferRxState (some xNewDataSemaphore) (some pucBufferStart))
        pure (some p)

/-- What the functions that configure a transfer have in common: the transfer control
structure is created or emptied, then the state structure is created, and the former is
freed again if the latter is NULL.  The result is `xReturn` and the control structure; there
is no `xReturn` where `configASSERT(*ppxTransferControl)` stops the program. -/
def configureTransfer (ucType : TransferType) (createState : Command Block (Option ℕ))
    (pxTransferControl : Option ℕ) : Command Block (Option Bool × Option ℕ) := do
  match ← vIOUtilsCreateTransferControlStructure available pxTransferControl with
  | none => pure (if fullAssert then none else some false, none)
  | some p =>
    match ← createState with
    | none =>
      Command.free p
      pure (some false, none)
    | some pvTransferState =>
      Command.store p (.transferControl ucType (some pvTransferState))
      pure (some true, some p)

/-- SOURCE: IOUtils_CharQueueTxAndRx.c:73-137 -/
def xIOUtilsConfigureTransferQueue (ucType : TransferType) (pxTransferControl : Option ℕ) :
    Command Block (Option Bool × Option ℕ) :=
  configureTransfer fullAssert available ucType
    (createStateWithQueue available .characterQueueState) pxTransferControl

/-- SOURCE: IOUtils_ZeroCopyTx.c:53-108 -/
def xIOUtilsConfigureZeroCopyTx (pxTxControl : Option ℕ) :
    Command Block (Option Bool × Option ℕ) :=
  configureTransfer fullAssert available .zeroCopyTx
    (createStateWithQueue available .zeroCopyTxState) pxTxControl

/-- SOURCE: IOUtils_CircularBufferRx.c:53-126 -/
def xIOUtilsConfigureCircularBufferRx (pxRxControl : Option ℕ) :
    Command Block (Option Bool × Option ℕ) :=
  configureTransfer fullAssert available .circularBufferRx
    (createCircularBufferState available) pxRxControl

end Configure

/-! ## What the other functions access -/

/-- A character queue is sent to, received from, waited for or reset. -/
def useCharacterQueue (pvTransferState : Option ℕ) : Command Block Unit := do
  let xQueue ← follow Block.asCharacterQueueState pvTransferState
  follow Block.asQueue xQueue

/-- The mutex of a zero copy transmission is taken or given. -/
def useZeroCopyMutex (pvTransferState : Option ℕ) : Command Block Unit := do
  let xWriteAccessMutex ← follow Block.asZeroCopyTxState pvTransferState
  follow Block.asQueue xWriteAccessMutex

/-- A circular buffer is written, read or cleared, and its semaphore given or taken. -/
def useCircularBuffer (pvTransferState : Option ℕ) : Command Block Unit := do
  let (xNewDataSemaphore, pucBufferStart) ← follow Block.asCircularBufferRxState
    pvTransferState
  follow Block.asQueue xNewDataSemaphore
  follow Block.asBuffer pucBufferStart

/-- The switch over `ucType` of a transmission: in `FreeRTOS_UART_write`, and where
`UART_IRQHandler` finds `TC`.  SOURCE: FreeRTOS_stm32f4_uart.c:145-225, 502-545 -/
def useTransmission (ucType : TransferType) (pvTransferState : Option ℕ) :
    Command Block Unit :=
  match ucType with
  | .zeroCopyTx => useZeroCopyMutex pvTransferState
  | .characterQueueTx => useCharacterQueue pvTransferState
  | _ => pure ()

/-- The switch over `ucType` of a reception: in `FreeRTOS_UART_read`, and where
`UART_IRQHandler` finds `RXNE`.  SOURCE: FreeRTOS_stm32f4_uart.c:260-312, 459-501 -/
def useReception (ucType : TransferType) (pvTransferState : Option ℕ) :
    Command Block Unit :=
  match ucType with
  | .circularBufferRx => useCircularBuffer pvTransferState
  | .characterQueueRx => useCharacterQueue pvTransferState
  | _ => pure ()

end TransferControl

/-- A UART that is open: the heap, the two pointers of its `Peripheral_Control_t`, and the
entries of the driver for its port, through which the handler finds the structures.  `halted`
says that an assertion has stopped the program. -/
structure TransferControl where
  heap : Heap TransferControl.Block
  pxTxControl : Option ℕ
  pxRxControl : Option ℕ
  pxTxTransferControlStruct : Option ℕ
  pxRxTransferControlStruct : Option ℕ
  halted : Bool

namespace TransferControl

/-- The requests of `FreeRTOS_ioctl`; the result of waiting for a mutex or for an empty
queue is `taken`.  The sizes only matter to the allocations. -/
inductive Request
  | useZeroCopyTx
  | useCircularBufferRx
  | useCharacterQueueTx
  | useCharacterQueueRx
  | setTxTimeout
  | setRxTimeout
  | obtainWriteMutex (taken : Bool)
  | waitPreviousWriteComplete (taken : Bool)
  | releaseWriteMutex (given : Bool)
  | clearRxBuffer
  | useInterrupts (ulValue : Bool)
  | setSpeed
  | setInterruptPriority (ulValue : UInt32)
  | other
  deriving DecidableEq, Repr

/-- A request, a call of the driver, or an interrupt. -/
inductive Event
  | ioctl (ulRequest : Request)
  | write
  | read
  /-- The handler finds `RXNE` set. -/
  | rxne
  /-- The handler finds `TC` set. -/
  | tc
  deriving DecidableEq, Repr

/-- SOURCE: FreeRTOSConfig.h:177 -/
def configLIBRARY_LOWEST_INTERRUPT_PRIORITY : UInt32 := 15

section Calls

variable (fullAssert : Bool)

/-- `FreeRTOS_UART_ioctl`, on the driver's entries; there is no result where an assertion stops
the program.  SOURCE: FreeRTOS_stm32f4_uart.c:321-398 -/
def uartIoctl (s : TransferControl) : Request → TransferControl × Option Bool
  | .useInterrupts ulValue =>
    if ulValue then ({ s with pxRxTransferControlStruct := s.pxRxControl }, some true)
    else (s, some true)
  | .setSpeed => (s, some true)
  | .setInterruptPriority ulValue =>
    if fullAssert ∧ ulValue < configLIBRARY_LOWEST_INTERRUPT_PRIORITY then
      ({ s with halted := true }, none)
    else (s, some true)
  | _ => (s, some false)

/-- The end of the requests that configure: interrupts are enabled if that has gone well. -/
def enableInterrupts (s : TransferControl) : Option Bool → TransferControl × Option Bool
  | none => ({ s with halted := true }, none)
  | some true => s.uartIoctl fullAssert (.useInterrupts true)
  | some false => (s, some false)

end Calls

/-- A request is run that leaves the structures as they are. -/
def inspect (s : TransferControl) (c : Command Block Bool) :
    Option (TransferControl × Option Bool) :=
  (c s.heap).map fun (xReturn, heap) => ({ s with heap := heap }, some xReturn)

/-- The requests that need neither side to be configured anew.
SOURCE: FreeRTOS_DriverInterface.c:201-323 -/
def access (pxTxControl pxRxControl : Option ℕ) : Request → Command Block Bool
  | .setTxTimeout => do
    let (ucType, pvTransferState) ← follow Block.asTransferControl pxTxControl
    if ucType = .characterQueueTx then
      let _ ← follow Block.asCharacterQueueState pvTransferState
      pure true
    else pure false
  | .setRxTimeout => do
    let (ucType, pvTransferState) ← follow Block.asTransferControl pxRxControl
    if ucType = .circularBufferRx then
      let _ ← follow Block.asCircularBufferRxState pvTransferState
      pure true
    else if ucType = .characterQueueRx then
      let _ ← follow Block.asCharacterQueueState pvTransferState
      pure true
    else pure false
  | .obtainWriteMutex taken | .waitPreviousWriteComplete taken => do
    let (ucType, pvTransferState) ← follow Block.asTransferControl pxTxControl
    if ucType = .zeroCopyTx then
      useZeroCopyMutex pvTransferState
      pure taken
    else if ucType = .characterQueueTx then
      useCharacterQueue pvTransferState
      pure taken
    else pure true
  | .releaseWriteMutex given => do
    let (ucType, pvTransferState) ← follow Block.asTransferControl pxTxControl
    if ucType = .zeroCopyTx then
      useZeroCopyMutex pvTransferState
      pure given
    else pure true
  | .clearRxBuffer => do
    let (ucType, pvTransferState) ← follow Block.asTransferControl pxRxControl
    if ucType = .circularBufferRx then
      useCircularBuffer pvTransferState
      pure true
    else if ucType = .characterQueueRx then
      -- `xIOUtilsClearRxCharQueue` takes the state of the transmission
      let (_, pvTransferState) ← follow Block.asTransferControl pxTxControl
      useCharacterQueue pvTransferState
      pure true
    else pure false
  | _ => pure true

variable (fullAssert : Bool) (available : ℕ → Bool)

/-- `FreeRTOS_ioctl`; there is no result where an assertion stops the program.
SOURCE: FreeRTOS_DriverInterface.c:129-340 -/
def ioctl (s : TransferControl) (ulRequest : Request) :
    Option (TransferControl × Option Bool) :=
  match ulRequest with
  | .useZeroCopyTx =>
    (xIOUtilsConfigureZeroCopyTx fullAssert available s.pxTxControl s.heap).map
      fun ((xReturn, p), heap) =>
        enableInterrupts fullAssert { s with heap := heap, pxTxControl := p } xReturn
  | .useCharacterQueueTx =>
    (xIOUtilsConfigureTransferQueue fullAssert available .characterQueueTx s.pxTxControl
      s.heap).map fun ((xReturn, p), heap) =>
        enableInterrupts fullAssert { s with heap := heap, pxTxControl := p } xReturn
  | .useCircularBufferRx =>
    (xIOUtilsConfigureCircularBufferRx fullAssert available s.pxRxControl s.heap).map
      fun ((xReturn, p), heap) =>
        enableInterrupts fullAssert { s with heap := heap, pxRxControl := p } xReturn
  | .useCharacterQueueRx =>
    (xIOUtilsConfigureTransferQueue fullAssert available .characterQueueRx s.pxRxControl
      s.heap).map fun ((xReturn, p), heap) =>
        enableInterrupts fullAssert { s with heap := heap, pxRxControl := p } xReturn
  | .useInterrupts _ | .setSpeed | .setInterruptPriority _ | .other =>
    some (s.uartIoctl fullAssert ulRequest)
  | _ => s.inspect (access s.pxTxControl s.pxRxControl ulRequest)

/-- A structure is followed and used, unless the pointer is NULL. -/
def useThrough (use : TransferType → Option ℕ → Command Block Unit) :
    Option ℕ → Command Block (Option TransferType)
  | none => pure none
  | some p => do
    let (ucType, pvTransferState) ← follow Block.asTransferControl (some p)
    use ucType pvTransferState
    pure (some ucType)

/-- The entry for transmissions after a write: it is NULL again if the type is none that the
function knows.  SOURCE: FreeRTOS_stm32f4_uart.c:122, 141-145, 210-216 -/
def entryAfterWrite (s : TransferControl) : Option TransferType → Option ℕ
  | none => s.pxTxTransferControlStruct
  | some .zeroCopyTx | some .characterQueueTx => s.pxTxControl
  | some _ => none

/-- What a call returns, if it does, is put out with its request. -/
def call (s : TransferControl) : Event → Option (TransferControl × List (Request × Bool))
  | .ioctl ulRequest =>
    (s.ioctl fullAssert available ulRequest).map fun (s', xReturn) =>
      (s', xReturn.toList.map fun b => (ulRequest, b))
  | .write =>
    (useThrough useTransmission s.pxTxControl s.heap).map fun (ucType, heap) =>
      ({ s with heap := heap, pxTxTransferControlStruct := s.entryAfterWrite ucType }, [])
  | .read =>
    (useThrough useReception s.pxRxControl s.heap).map fun (_, heap) =>
      ({ s with heap := heap }, [])
  | .rxne =>
    (useThrough useReception s.pxRxTransferControlStruct s.heap).map fun (_, heap) =>
      ({ s with heap := heap }, [])
  | .tc =>
    (useThrough useTransmission s.pxTxTransferControlStruct s.heap).map fun (_, heap) =>
      ({ s with heap := heap }, [])

/-- A UART that is used in any way, the allocations being answered as `available` says.  When
the program has stopped, nothing takes place any more. -/
def machine : Machine TransferControl Event (Request × Bool) where
  step s e := if s.halted then some (s, []) else s.call fullAssert available e

/-- What `FreeRTOS_open` leaves: both pointers are NULL, and the UART does not touch them.
SOURCE: FreeRTOS_DriverInterface.c:102-113, FreeRTOS_stm32f4_uart.c:71-108 -/
def opened (heap : Heap Block) : TransferControl := ⟨heap, none, none, none, none, false⟩

end TransferControl

end Resmod.Model
