import Resmod.Model.Memory
import Mathlib.Algebra.Group.Nat.Defs

/-!
# The CAN driver

The class `CanDriver` of `candriver.cc` and the function `CAN_Receive` of the peripheral
library, which it calls.  A transmission is a sequence of frames handed to `CAN_Transmit`,
one at a time; the busy waits between them change nothing the driver can see and are left
out.  With `USE_FULL_ASSERT` a frame that `CAN_Transmit` does not accept ends the program.
A reception starts from the contents of a mailbox of the receive FIFO.

`CanTxMsg` and `CanRxMsg` are local variables that are not initialised: what a function
leaves unset in one it receives as an argument, and of the data bytes of a frame to be
sent only those that are set are kept.
-/

set_option autoImplicit false

namespace Resmod.Model

open Resmod.Library

/-- `CAN_Id_Standard`, `CAN_ID_STD` -/
def canIdStandard : UInt8 := 0

/-- `CAN_Id_Extended` -/
def canIdExtended : UInt8 := 4

/-- `CAN_RTR_DATA`, `CAN_RTR_Data` -/
def canRtrData : UInt8 := 0

/-- `CAN_RTR_Remote` -/
def canRtrRemote : UInt8 := 2

/-! ## Receiving -/

/-- The registers of a mailbox of a receive FIFO. -/
structure FIFOMailBox where
  rir : UInt32
  rdtr : UInt32
  rdlr : UInt32
  rdhr : UInt32
  deriving DecidableEq, Repr

/-- The variable that `CAN_Receive` fills in. -/
structure CanRxMsg where
  stdId : UInt32
  extId : UInt32
  ide : UInt8
  rtr : UInt8
  dlc : UInt8
  data : Vector UInt8 8
  fmi : UInt8
  deriving DecidableEq, Repr

/-- The byte of the data registers that `CAN_Receive` puts into `Data[i]`. -/
def FIFOMailBox.dataByte (mb : FIFOMailBox) (i : ℕ) : UInt8 :=
  if i < 4 then ((0xff : UInt32) &&& (mb.rdlr >>> (8 * i).toUInt32)).toUInt8
  else ((0xff : UInt32) &&& (mb.rdhr >>> (8 * (i - 4)).toUInt32)).toUInt8

/-- `CAN_Receive`: one of the two identifiers is left as it is.
SOURCE: stm32f4xx_can.c:749-790 -/
def canReceive (mb : FIFOMailBox) (rx : CanRxMsg) : CanRxMsg :=
  let ide := ((0x04 : UInt32) &&& mb.rir).toUInt8
  { stdId := if ide = canIdStandard then (0x7ff : UInt32) &&& (mb.rir >>> 21) else rx.stdId
    extId := if ide = canIdStandard then rx.extId else (0x1fffffff : UInt32) &&& (mb.rir >>> 3)
    ide := ide
    rtr := ((0x02 : UInt32) &&& mb.rir).toUInt8
    dlc := ((0x0f : UInt32) &&& mb.rdtr).toUInt8
    data := Vector.ofFn fun i => mb.dataByte i
    fmi := ((0xff : UInt32) &&& (mb.rdtr >>> 8)).toUInt8 }

/-- The memory seen from `rx.Data`: the eight data bytes, the field behind them, and
whatever lies around. -/
def CanRxMsg.bytes (rx : CanRxMsg) (around : Bytes) : Bytes := fun i =>
  if h : 0 ≤ i ∧ i < 8 then rx.data[i.toNat]
  else if i = 8 then rx.fmi
  else around i

/-- The eight bytes of the array of the message. -/
theorem CanRxMsg.bytes_of_lt (rx : CanRxMsg) (around : Bytes) {i : ℕ} (hi : i < 8) :
    rx.bytes around i = rx.data[i] := by
  rw [CanRxMsg.bytes, dif_pos (by omega)]
  rfl

/-- The data bytes are received whatever the variable held before. -/
theorem canReceive_bytes_of_lt (mb : FIFOMailBox) (rx : CanRxMsg) (around : Bytes) {i : ℕ}
    (hi : i < 8) : (canReceive mb rx).bytes around i = mb.dataByte i := by
  rw [CanRxMsg.bytes_of_lt _ _ hi]
  exact Vector.getElem_ofFn hi

/-- The DLC field has four bits. -/
theorem dlc_canReceive_le (mb : FIFOMailBox) (rx : CanRxMsg) :
    (canReceive mb rx).dlc.toNat ≤ 15 := by
  have hand : ((0x0f : UInt32) &&& mb.rdtr).toNat ≤ 15 := by
    rw [UInt32.toNat_and]
    exact Nat.and_le_left
  change ((0x0f : UInt32) &&& mb.rdtr).toUInt8.toNat ≤ 15
  rw [UInt32.toNat_toUInt8]
  omega

namespace CanDriver

/-- A message with its identifier. -/
structure CanMessage where
  id : UInt32
  payload : List UInt8
  deriving DecidableEq, Repr

/-- `WaitForReception`, once a frame is pending.
SOURCE: candriver.cc:152-171 -/
def waitForReception (rxmsg : CanRxMsg) (mb : FIFOMailBox) (around : Bytes) :
    Traced ℤ CanMessage := do
  let rxmsg := canReceive mb { rxmsg with ide := canIdStandard }
  let payload ← (rxmsg.bytes around).fetchRange 0 rxmsg.dlc.toNat
  pure ⟨rxmsg.stdId, payload⟩

/-! ## Transmitting -/

/-- A frame as it is handed to `CAN_Transmit`; `data` are the bytes that were set. -/
structure CanTxMsg where
  stdId : UInt32
  ide : UInt8
  rtr : UInt8
  dlc : UInt8
  data : List UInt8
  deriving DecidableEq, Repr

/-- The frame passes the `assert_param` checks of `CAN_Transmit`, which looks at the
identifier only when it has found an empty mailbox.  The driver sends no frame with an
extended identifier, and `ExtId` is left out.
SOURCE: stm32f4xx_can.c:576-613, stm32f4xx_can.h:379-406 -/
def CanTxMsg.passes (tx : CanTxMsg) (mailBox : Bool) : Bool :=
  (tx.ide == canIdStandard || tx.ide == canIdExtended) &&
    (tx.rtr == canRtrData || tx.rtr == canRtrRemote) && decide (tx.dlc ≤ 8) &&
    (!mailBox || tx.ide != canIdStandard || decide (tx.stdId ≤ 0x7ff))

/-- What the iterations meet at `CAN_Transmit`. -/
structure Peripheral where
  /-- `USE_FULL_ASSERT`, with which the parameters are checked. -/
  fullAssert : Bool
  /-- A mailbox is empty when `CAN_Transmit` is called in iteration `i`. -/
  mailBox : ℕ → Bool

/-- The peripheral in a program that does not check parameters. -/
def Peripheral.unchecked : Peripheral := ⟨false, fun _ => true⟩

/-- `CAN_Transmit` returns for the frame of iteration `i`: `assert_failed` does not. -/
def Peripheral.returns (can : Peripheral) (i : ℕ) (tx : CanTxMsg) : Bool :=
  !can.fullAssert || tx.passes (can.mailBox i)

/-- `numiter`, the same in both overloads. -/
def numIter (size : UInt32) : UInt32 := size / 8 + if size % 8 = 0 then 0 else 1

/-- The loop of the first overload: `dptr` is an offset into the payload. -/
def transmitPayload (can : Peripheral) (id : UInt32) (payload : Bytes) :
    ℕ → ℕ → ℕ → UInt32 → Traced ℤ (List CanTxMsg)
  | 0, _, _, _ => pure []
  | iterations + 1, i, dptr, rem => do
    let dlc : UInt8 := if rem > 8 then 8 else rem.toUInt8
    let data ← payload.fetchRange dptr dlc.toNat
    let tx : CanTxMsg := ⟨id, canIdStandard, canRtrData, dlc, data⟩
    if can.returns i tx then
      let frames ← transmitPayload can id payload iterations (i + 1) (dptr + dlc.toNat)
        (rem - dlc.toUInt32)
      pure (tx :: frames)
    else pure [tx]

/-- `WaitForTransmission(CanMessage)`.
SOURCE: candriver.cc:107-129 -/
def waitForTransmission (can : Peripheral) (pl : CanMessage) : Traced ℤ (List CanTxMsg) :=
  let size := pl.payload.length.toUInt32
  transmitPayload can pl.id (Bytes.ofList pl.payload) (numIter size).toNat 0 0 size

/-- The loop of the second overload: `pcurrent` is the offset `pcurrent - buf`. -/
def transmitBuffer (can : Peripheral) (id : UInt64) (buf : Bytes) (size : UInt32) :
    ℕ → ℕ → ℕ → Traced ℤ (List CanTxMsg)
  | 0, _, _ => pure []
  | iterations + 1, i, pcurrent => do
    let rem := size - pcurrent.toUInt32
    let dlc : UInt8 := if rem > 8 then 8 else rem.toUInt8
    let data ← buf.fetchRange pcurrent dlc.toNat
    let tx : CanTxMsg := ⟨id.toUInt32, canIdStandard, canRtrData, dlc, data⟩
    if can.returns i tx then
      let frames ← transmitBuffer can id buf size iterations (i + 1) (pcurrent + dlc.toNat)
      pure (tx :: frames)
    else pure [tx]

/-- `WaitForTransmission(id, buf, size)`.
SOURCE: candriver.cc:130-151 -/
def waitForTransmissionBuffer (can : Peripheral) (id : UInt64) (buf : Bytes)
    (size : UInt32) : Traced ℤ (List CanTxMsg) :=
  transmitBuffer can id buf size (numIter size).toNat 0 0

end CanDriver

end Resmod.Model
