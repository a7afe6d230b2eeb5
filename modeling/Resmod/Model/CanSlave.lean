import Resmod.Library.Machine
import Resmod.Model.Memory
import Mathlib.Algebra.Group.Nat.Defs
import Mathlib.Data.List.Sort
import Mathlib.Order.Defs.LinearOrder

/-!
# The CAN slave protocol

The class `CanSlave` of `canslave.cc`: a slave collects the table of ids in use from the
master, offers an address, and takes it once the master confirms it for its chip id.
Every definition below is the member function of the same name.

A member function takes and returns the object explicitly, together with what it does
to the outside in order: the messages it hands to `WriteMessage`, and the runs of
`SetCanID` (which the object alone does not show when the address is unchanged).  Where
`ReceiveAddressConfirm` leaves defined behaviour behind a message that has gone out, the
fault stands among the effects, behind the message; everywhere else a fault is an error.
-/

set_option autoImplicit false

namespace Resmod.Model

open Resmod.Library

/-! ## Identifiers and commands -/

/-- The identifier of the broadcasts, which a slave without an address has. -/
def canidMasterBroadcast : UInt32 := 0

/-- The identifier under which an address is negotiated. -/
def canidUninitSlave : UInt32 := 1

/-- The slave asks for a table. -/
def cmdRequestTable : UInt8 := 1

/-- The master sends a table. -/
def cmdSendTable : UInt8 := 2

/-- The slave offers an address. -/
def cmdSelectAddress : UInt8 := 3

/-- `CMD_CONFIMADDRESSSEL` -/
def cmdConfirmAddressSel : UInt8 := 4

/-- The slave sends its spec sheet. -/
def cmdSendSpecSheet : UInt8 := 5

/-- The master asks for the spec sheet. -/
def cmdReqSpecSheet : UInt8 := 6

/-- The slave sends the data of a channel. -/
def cmdSendChannelData : UInt8 := 7

/-- The master asks for the data of a channel. -/
def cmdRequestChannelData : UInt8 := 8

/-! ## The object, its hardware and its effects -/

/-- What the virtual interface `CanSlaveHardware` answers during one call.  The sheet is
short enough for the header and the sheet to fit in a `uint32_t`. -/
structure CanSlaveHardware where
  /-- `DataRequest(channel)`, as the bits of the `float` it returns. -/
  dataRequest : UInt8 → UInt32
  getChipID : UInt64
  getSpecSheet : List UInt8
  getSpecSheet_lt : getSpecSheet.length + 3 < 2 ^ 32 := by decide

/-- The data members of `CanSlave`, without the reference to its hardware. -/
structure CanSlave where
  canid : UInt8
  extratable : Bool
  tablecapacity : UInt8
  idtable : List UInt8
  deriving DecidableEq, Repr

/-- One call of `WriteMessage(id, dat, size)`. -/
structure Message where
  id : UInt32
  dat : List UInt8
  deriving DecidableEq, Repr

/-- What a member function does besides changing the object. -/
inductive Effect
  | writeMessage (m : Message)
  | setCanID (newid : UInt32)
  /-- Defined behaviour ends here; a run goes on behind it as the unoptimised program does. -/
  | fault (f : Fault)
  deriving DecidableEq, Repr

namespace CanSlave

/-- The slave as it is constructed.
SOURCE: canslave.cc:53-57 -/
def initial : CanSlave := ⟨canidMasterBroadcast.toUInt8, false, 0, []⟩

/-- The address of the slave.
SOURCE: canslave.cc:174-176 -/
def getCanID (s : CanSlave) : UInt32 := s.canid.toUInt32

/-- The address is cut to 8 bits.
SOURCE: canslave.cc:170-173 -/
def setCanID (s : CanSlave) (newid : UInt32) : CanSlave := { s with canid := newid.toUInt8 }

/-- `RequestTable`, the body of `Connect`. -/
def requestTable : List Effect := [.writeMessage ⟨canidUninitSlave, [cmdRequestTable]⟩]

/-- Byte `i` of the chip id seen as the six bytes at `(uint8_t *)&chipid`, on the
little-endian target. -/
def chipIDByte (chipid : UInt64) (i : ℕ) : UInt8 := (chipid >>> (8 * i).toUInt64).toUInt8

/-- The offer of an address, with the chip id.
SOURCE: canslave.cc:177-201 -/
def sendSelectedAddress (hw : CanSlaveHardware) (wishid : UInt8) : List Effect :=
  [.writeMessage ⟨canidUninitSlave,
    cmdSelectAddress :: wishid :: (List.range 6).map (chipIDByte hw.getChipID)⟩]

/-- The slave offers address 45.
SOURCE: canslave.cc:165-169 -/
def handShaking (hw : CanSlaveHardware) : List Effect := sendSelectedAddress hw 45

/-- `pop_front` of a deque: undefined for an empty one. -/
def popFront : List UInt8 → Except Fault (List UInt8)
  | [] => .error .popFrontOfEmpty
  | _ :: l => .ok l

/-- `TableTrim`: sort, then drop the two smallest entries to get rid of ids 0 and 1. -/
def tableTrim (s : CanSlave) : Except Fault CanSlave := do
  let l ← popFront (s.idtable.insertionSort (· ≤ ·))
  let l ← popFront l
  pure { s with idtable := l }

/-- `ReceiveSlaveTable`: `dat` points at the ids, `size` is the announced count. -/
def receiveSlaveTable (hw : CanSlaveHardware) (s : CanSlave) (dat : Bytes) (size : UInt8) :
    Except Fault (CanSlave × List Effect) :=
  let s := { s with idtable := [], tablecapacity := size }
  if size ≤ 6 then do
    let s := { s with
      idtable := s.idtable ++ dat.read size.toNat
      tablecapacity := s.tablecapacity - size }
    let s ← tableTrim s
    pure ({ s with extratable := false }, handShaking hw)
  else
    pure ({ s with
      idtable := s.idtable ++ dat.read 6
      tablecapacity := s.tablecapacity - 6
      extratable := true }, [])

/-- The loop of `ReceiveExtraSlaveTable`.  Its counter is a `uint8_t` and its bound a
`uint32_t`; the first argument bounds the number of tests of the exit condition. -/
def extraLoop (dat : Bytes) (size : UInt32) : ℕ → UInt8 → CanSlave → Except Fault CanSlave
  | 0, _, _ => .error .loopDoesNotEnd
  | tests + 1, iter, s =>
    if iter.toUInt32 < size then
      extraLoop dat size tests (iter + 1) { s with
        idtable := s.idtable ++ [dat iter.toNat]
        tablecapacity := s.tablecapacity - 1 }
    else .ok s

/-- The comparison of the 8-bit counter with the bound. -/
theorem iter_lt_iff (iter : UInt8) (size : UInt32) :
    iter.toUInt32 < size ↔ iter.toNat < size.toNat := by
  rw [UInt32.lt_iff_toNat_lt, UInt8.toNat_toUInt32]

/-- The counter does not wrap below 255. -/
theorem toNat_iter_succ {iter : UInt8} (h : iter.toNat < 255) :
    (iter + 1).toNat = iter.toNat + 1 := by
  rw [UInt8.toNat_add, UInt8.toNat_one]
  omega

/-- `ReceiveExtraSlaveTable`.  The exit condition depends on the 8-bit counter only, so a
loop that has not ended after 256 tests never does. -/
def receiveExtraSlaveTable (s : CanSlave) (dat : Bytes) (size : UInt32) :
    Except Fault CanSlave := do
  let s ← extraLoop dat size 256 0 s
  if 0 < s.tablecapacity then pure { s with extratable := true }
  else tableTrim { s with extratable := false }

/-- `ReceiveAddressConfirm`.  The last component is the returned status; on the path of a
rejected address the source flows off the end without one.
SOURCE: canslave.cc:138-158 -/
def receiveAddressConfirm (hw : CanSlaveHardware) (s : CanSlave) (dat : Bytes)
    (size : UInt8) : CanSlave × List Effect × Except Fault UInt32 :=
  if (List.range 6).all fun iter : ℕ => chipIDByte hw.getChipID iter == dat iter then
    let ack := dat ((size.toNat : ℤ) - 1)
    if ack = 0xff then (s, handShaking hw, .error .noReturnValue)
    else if ack = 0 then (s.setCanID 45, [.setCanID 45], .ok 0)
    else (s, [], .ok 2)
  else (s, [], .ok 1)

/-- What a caller does that ignores the returned status. -/
def ignoringStatus (r : CanSlave × List Effect × Except Fault UInt32) :
    CanSlave × List Effect :=
  match r with
  | (s, o, .ok _) => (s, o)
  | (s, o, .error f) => (s, o ++ [.fault f])

/-- `SendSpecSheet`: command, length in two little-endian bytes, the sheet. -/
def sendSpecSheet (hw : CanSlaveHardware) (s : CanSlave) : List Effect :=
  let pspecsheetlength : UInt32 := hw.getSpecSheet.length.toUInt32
  [.writeMessage ⟨s.getCanID,
    cmdSendSpecSheet :: pspecsheetlength.toUInt8 :: (pspecsheetlength >>> 8).toUInt8 ::
      hw.getSpecSheet⟩]

/-- `SendChannelData`; the parameter `id` of the source is not used by it. -/
def sendChannelData (hw : CanSlaveHardware) (s : CanSlave) (_id : UInt32)
    (channel : UInt8) : List Effect :=
  let data := hw.dataRequest channel
  [.writeMessage ⟨s.getCanID,
    [cmdSendChannelData, channel, data.toUInt8, (data >>> 8).toUInt8,
      (data >>> 16).toUInt8, (data >>> 24).toUInt8]⟩]

/-- A message is received.
SOURCE: canslave.cc:61-92 -/
def rxData (hw : CanSlaveHardware) (s : CanSlave) (id : UInt32) (dat : Bytes)
    (size : UInt32) : Except Fault (CanSlave × List Effect) :=
  if id = s.getCanID then
    if s.extratable then do
      let s ← receiveExtraSlaveTable s dat size
      pure (s, [])
    else if dat 0 = cmdSendTable then receiveSlaveTable hw s (dat.from 2) (dat 1)
    else if dat 0 = cmdConfirmAddressSel then
      pure (ignoringStatus (receiveAddressConfirm hw s (dat.from 1) (size - 1).toUInt8))
    else if dat 0 = cmdReqSpecSheet then pure (s, sendSpecSheet hw s)
    else if dat 0 = cmdRequestChannelData then
      pure (s, sendChannelData hw s s.getCanID (dat 1))
    else pure (s, [])
  else pure (s, [])

/-! ## The slave as a machine -/

/-- A call of the public interface.  The hardware may answer differently in each. -/
inductive Call
  | connect
  | rxData (hw : CanSlaveHardware) (id : UInt32) (dat : Bytes) (size : UInt32)

/-- The slave, driven by calls of its public interface; a call is refused when it leaves
defined behaviour before it has done anything. -/
def machine : Machine CanSlave Call Effect where
  step s
    | .connect => some (s, requestTable)
    | .rxData hw id dat size => (rxData hw s id dat size).toOption

end CanSlave

end Resmod.Model
