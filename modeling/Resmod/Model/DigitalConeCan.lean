import Resmod.Library.BoundedQueue
import Resmod.Model.CanSlaveHardware

/-!
# From the receive FIFO to the slave

`CAN1_RX0_IRQHandler` receives a frame into a local variable, the callback of
`DigitalConeCan::Task` copies it to a queue, and the task dispatches what it takes from the
queue to `CanSlave::RxData`, by the standard identifier of the variable.

`dispatcher` is the loop of the task alone, for questions about the frames.  `machine` is
the task with the queue and with the handler, which can run between any two of its
steps, also while the task waits for the transmission of the frames of a message.
-/

set_option autoImplicit false

namespace Resmod.Model

open Resmod.Library

namespace DigitalConeCan

/-- One frame on its way to the slave: the mailbox it is received from, and everything
else that `RxData` could see of it. -/
structure Arrival where
  mailbox : FIFOMailBox
  /-- What the variable `rxm` of the handler holds before `CAN_Receive`. -/
  rxm : CanRxMsg
  /-- The memory around the variable `rx` of the task. -/
  around : Bytes
  hw : CanSlaveHardware

/-- What `CAN1_RX0_IRQHandler` hands to its callback.
SOURCE: candriver.cc:39-43 -/
def Arrival.received (a : Arrival) : CanRxMsg := canReceive a.mailbox a.rxm

/-- The call that `Task` makes for a message: `RxData(rx.StdId, rx.Data, rx.DLC)`.
SOURCE: digitalconecan.cc:61-64 -/
def dispatch (rx : CanRxMsg) (around : Bytes) (hw : CanSlaveHardware) : CanSlave.Call :=
  .rxData hw rx.stdId (rx.bytes around) rx.dlc.toUInt32

/-- The call of the slave that the frame leads to. -/
def Arrival.call (a : Arrival) : CanSlave.Call := dispatch a.received a.around a.hw

/-- The loop of `Task`, for frames that are all dispatched in their turn. -/
def dispatcher : Machine CanSlave Arrival Effect :=
  CanSlave.machine.comap Arrival.call

/-! ## The task, its queue and the handler -/

/-- Where `DigitalConeCan::Task` is. -/
inductive Place
  /-- In `TaskSleepFor`, before `Connect`. -/
  | sleeping
  /-- In `Connect` or `RxData`, with the frames that are still to be sent. -/
  | sending (frames : List CanDriver.CanTxMsg)
  /-- At `xQueueReceive`. -/
  | receiving
  deriving DecidableEq, Repr

/-- The task goes on when there is nothing left to send. -/
def Place.afterSending : List CanDriver.CanTxMsg → Place
  | [] => .receiving
  | frames => .sending frames

end DigitalConeCan

/-- The queue between the handler and the task, the task, and the slave. -/
structure DigitalConeCan where
  queue : BoundedQueue CanRxMsg 10
  place : DigitalConeCan.Place
  slave : CanSlave

namespace DigitalConeCan

/-- What can happen next. -/
inductive Event
  /-- The handler runs for a frame. -/
  | arrive (mailbox : FIFOMailBox) (rxm : CanRxMsg)
  /-- The task wakes up and calls `Connect`. -/
  | wake
  /-- The frame that the task waits for has been sent. -/
  | transmit
  /-- The task takes a frame from the queue and calls `RxData`. -/
  | receive (around : Bytes) (hw : CanSlaveHardware)

/-- What is done with the frames. -/
inductive Action
  | received (rx : CanRxMsg)
  | dispatched (rx : CanRxMsg)
  | transmitted (tx : CanDriver.CanTxMsg)
  deriving DecidableEq, Repr

/-- The state in which the constructor and the beginning of `Task` leave the object: the
callback is installed, and the task goes to sleep.
SOURCE: digitalconecan.cc:40-58 -/
def started : DigitalConeCan := ⟨.empty, .sleeping, .initial⟩

/-- The result of `xQueueSendFromISR` is ignored by the callback.
SOURCE: candriver.cc:39-43, digitalconecan.cc:50-66 -/
def step (s : DigitalConeCan) : Event → Option (DigitalConeCan × List Action)
  | .arrive mailbox rxm =>
    let rx := canReceive mailbox rxm
    some ({ s with queue := s.queue.send rx }, [.received rx])
  | .wake =>
    match s.place with
    | .sleeping =>
      let frames := transmitted CanSlave.requestTable
      some ({ s with place := Place.afterSending frames }, [])
    | _ => none
  | .transmit =>
    match s.place with
    | .sending (tx :: frames) =>
      some ({ s with place := Place.afterSending frames }, [.transmitted tx])
    | _ => none
  | .receive around hw =>
    match s.place, s.queue.receive with
    | .receiving, some (rx, queue) =>
      match CanSlave.machine.step s.slave (dispatch rx around hw) with
      | some (slave, o) =>
        some (⟨queue, Place.afterSending (transmitted o), slave⟩, [.dispatched rx])
      | none => none
    | _, _ => none

/-- Any interleaving of the handler and the task. -/
def machine : Machine DigitalConeCan Event Action := ⟨step⟩

end DigitalConeCan

end Resmod.Model
