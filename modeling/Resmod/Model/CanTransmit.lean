import Resmod.Library.Machine
import Resmod.Model.CanDriver
import Mathlib.Logic.Function.Basic

/-!
# The transmit mailboxes and the waits of the CAN driver

`CAN_Transmit` and `CAN_TransmitStatus` of the peripheral library, and the loop that both
overloads of `WaitForTransmission` run around them, with its busy wait.  The controller ends
the request of any mailbox at any time, well or not.

The frames of a call do not depend on the mailboxes: they are those that `CanDriver` computes.
With `USE_FULL_ASSERT` the program ends at a frame that `CAN_Transmit` does not accept.
-/

set_option autoImplicit false

namespace Resmod.Model

open Resmod.Library Resmod.Model.CanDriver

namespace CanTransmit

/-! ## The peripheral library -/

/-- A transmit mailbox with its three bits of `TSR`. -/
structure TxMailBox where
  frame : CanTxMsg
  rqcp : Bool
  txok : Bool
  tme : Bool
  deriving DecidableEq, Repr

/-- What `CAN_TransmitStatus` returns. -/
inductive TxStatus
  | failed
  | ok
  | pending
  deriving DecidableEq, Repr

/-- The three mailboxes. -/
abbrev MailBoxes := Fin 3 → TxMailBox

/-- `transmit_mailbox`; `none` is `CAN_TxStatus_NoMailBox`. -/
def emptyMailBox (mailboxes : MailBoxes) : Option (Fin 3) :=
  if (mailboxes 0).tme then some 0
  else if (mailboxes 1).tme then some 1
  else if (mailboxes 2).tme then some 2
  else none

/-- `CAN_Transmit` for a frame that it accepts: setting `TXRQ` makes the controller clear the
three bits.
SOURCE: stm32f4xx_can.c:576-639 -/
def canTransmit (mailboxes : MailBoxes) (tx : CanTxMsg) : MailBoxes × Option (Fin 3) :=
  match emptyMailBox mailboxes with
  | none => (mailboxes, none)
  | some m => (Function.update mailboxes m ⟨tx, false, false, false⟩, some m)

/-- `CAN_TransmitStatus` for one of the three mailboxes.
SOURCE: stm32f4xx_can.c:648-694 -/
def canTransmitStatus (mailbox : TxMailBox) : TxStatus :=
  match mailbox.rqcp, mailbox.txok, mailbox.tme with
  | false, false, false => .pending
  | true, false, true => .failed
  | true, true, true => .ok
  | _, _, _ => .failed

/-- The controller ends a request. -/
def TxMailBox.ended (mailbox : TxMailBox) (ok : Bool) : TxMailBox :=
  { mailbox with rqcp := true, txok := ok, tme := true }

/-! ## The driver -/

/-- A call of one of the two overloads; the length of a payload is a `size_t`. -/
inductive Call
  | message (pl : CanMessage) (hlen : pl.payload.length < 2 ^ 32)
  | buffer (id : UInt64) (buf : Bytes) (size : UInt32)

/-- The identifier of the message. -/
def Call.id : Call → UInt32
  | .message pl _ => pl.id
  | .buffer id _ _ => id.toUInt32

/-- The bytes of the message. -/
def Call.payload : Call → List UInt8
  | .message pl _ => pl.payload
  | .buffer _ buf size => buf.read size.toNat

/-- The frames that the iterations of the loop hand to `CAN_Transmit` as long as it returns. -/
def Call.frames : Call → List CanTxMsg
  | .message pl _ => (waitForTransmission .unchecked pl).value
  | .buffer id buf size => (waitForTransmissionBuffer .unchecked id buf size).value

/-- What the driver is before: the test of the loop, with the frames that are left, or the
test of the busy wait. -/
inductive Place
  | loop (rest : List CanTxMsg)
  | wait (rest : List CanTxMsg)
  | returned
  /-- In `assert_failed`. -/
  | halted
  deriving DecidableEq, Repr

/-- A step of the driver or of the controller. -/
inductive Event
  | driverStep
  /-- The controller ends the request of a mailbox. -/
  | requestEnds (mailbox : Fin 3) (ok : Bool)
  deriving DecidableEq, Repr

/-- What is handed to the controller, and what becomes of it. -/
inductive Output
  /-- `CAN_Transmit` has returned this number for the frame. -/
  | requested (tx : CanTxMsg) (mailbox : Option (Fin 3))
  | ended (mailbox : Fin 3) (frame : CanTxMsg) (ok : Bool)
  deriving DecidableEq, Repr

end CanTransmit

/-- The mailboxes and the driver. -/
structure CanTransmit where
  mailboxes : CanTransmit.MailBoxes
  place : CanTransmit.Place

namespace CanTransmit

/-- `WaitForTransmission` is called. -/
def called (mailboxes : MailBoxes) (c : Call) : CanTransmit := ⟨mailboxes, .loop c.frames⟩

/-- `CAN_TransmitStatus(CAN1, 0)`: the first mailbox, whatever number was returned. -/
def waitedStatus (s : CanTransmit) : TxStatus := canTransmitStatus (s.mailboxes 0)

/-- One step of the loop: the number that `CAN_Transmit` returns is not used.
SOURCE: candriver.cc:113-128, 137-150 -/
def driverStep (fullAssert : Bool) (s : CanTransmit) : Option (CanTransmit × List Output) :=
  match s.place with
  | .loop [] => some ({ s with place := .returned }, [])
  | .loop (tx :: rest) =>
    if fullAssert && !tx.passes (emptyMailBox s.mailboxes).isSome then
      some ({ s with place := .halted }, [])
    else
      some (⟨(canTransmit s.mailboxes tx).1, .wait rest⟩,
        [.requested tx (canTransmit s.mailboxes tx).2])
  | .wait rest =>
    if s.waitedStatus = .pending then some (s, [])
    else some ({ s with place := .loop rest }, [])
  | .returned => none
  | .halted => none

/-- Any order of the steps of the driver and the ends of the requests. -/
def machine (fullAssert : Bool) : Machine CanTransmit Event Output where
  step s
    | .driverStep => s.driverStep fullAssert
    | .requestEnds m ok =>
      if (s.mailboxes m).tme then none
      else some ({ s with mailboxes := Function.update s.mailboxes m ((s.mailboxes m).ended ok) },
        [.ended m (s.mailboxes m).frame ok])

end CanTransmit

end Resmod.Model
