import Resmod.Model.CanDriver
import Resmod.Model.CanSlave

/-!
# The hardware behind the slave

`BlackBoxCanSlaveHardware` of `canslavehardware.cc` and `canslavespecsheet.cc`: the
answers it gives to the slave, for a value of the global `resist_can`, and what it makes
of the messages of the slave.
-/

set_option autoImplicit false

namespace Resmod.Model

/-- `BlackBoxCanSlaveHardware::ssheet_` -/
def ssheet : List UInt8 := [
  0x3c, 0x65, 0x43, 0x6f, 0x6e, 0x65, 0x4d, 0x6f, 0x64, 0x75, 0x6c, 0x65, 0x3e, 0x3c,
  0x63, 0x68, 0x61, 0x6e, 0x6e, 0x65, 0x6c, 0x4c, 0x69, 0x73, 0x74, 0x3e, 0x3c, 0x63,
  0x68, 0x61, 0x6e, 0x6e, 0x65, 0x6c, 0x20, 0x69, 0x64, 0x3d, 0x22, 0x33, 0x35, 0x22,
  0x20, 0x74, 0x72, 0x69, 0x67, 0x67, 0x65, 0x72, 0x54, 0x79, 0x70, 0x65, 0x3d, 0x22,
  0x63, 0x6f, 0x6e, 0x74, 0x69, 0x6e, 0x75, 0x6f, 0x75, 0x73, 0x22, 0x3e, 0x3c, 0x6e,
  0x61, 0x6d, 0x65, 0x3e, 0x52, 0x65, 0x73, 0x6d, 0x6f, 0x64, 0x3c, 0x2f, 0x6e, 0x61,
  0x6d, 0x65, 0x3e, 0x3c, 0x63, 0x6f, 0x65, 0x66, 0x66, 0x69, 0x63, 0x69, 0x65, 0x6e,
  0x74, 0x73, 0x3e, 0x3c, 0x63, 0x6f, 0x65, 0x66, 0x66, 0x69, 0x63, 0x69, 0x65, 0x6e,
  0x74, 0x20, 0x6e, 0x61, 0x6d, 0x65, 0x3d, 0x22, 0x41, 0x30, 0x22, 0x3e, 0x34, 0x35,
  0x2e, 0x32, 0x33, 0x34, 0x3c, 0x2f, 0x63, 0x6f, 0x65, 0x66, 0x66, 0x69, 0x63, 0x69,
  0x65, 0x6e, 0x74, 0x3e, 0x3c, 0x2f, 0x63, 0x6f, 0x65, 0x66, 0x66, 0x69, 0x63, 0x69,
  0x65, 0x6e, 0x74, 0x73, 0x3e, 0x3c, 0x2f, 0x63, 0x68, 0x61, 0x6e, 0x6e, 0x65, 0x6c,
  0x3e, 0x3c, 0x2f, 0x63, 0x68, 0x61, 0x6e, 0x6e, 0x65, 0x6c, 0x4c, 0x69, 0x73, 0x74,
  0x3e, 0x3c, 0x2f, 0x65, 0x43, 0x6f, 0x6e, 0x65, 0x4d, 0x6f, 0x64, 0x75, 0x6c, 0x65,
  0x3e]

/-- The answers of `BlackBoxCanSlaveHardware` while `resist_can` holds the given bits:
every channel is answered with them, and the chip id is a constant. -/
def blackBoxCanSlaveHardware (resistCan : UInt32) : CanSlaveHardware where
  dataRequest _ := resistCan
  getChipID := 4569246
  getSpecSheet := ssheet
  getSpecSheet_lt := by
    have hlen : ssheet.length = 197 := rfl
    omega

/-- `BlackBoxCanSlaveHardware::WriteMessage`: the frames the driver is made to send.  The
identifiers of the slave have eight bits, which `CAN_Transmit` accepts.
SOURCE: canslavehardware.cc:38-43 -/
def writeMessage (m : Message) : List CanDriver.CanTxMsg :=
  (CanDriver.waitForTransmissionBuffer .unchecked m.id.toUInt64 (Bytes.ofList m.dat)
    m.dat.length.toUInt32).value

/-- The frames that the effects of a call make the driver send. -/
def transmitted (o : List Effect) : List CanDriver.CanTxMsg :=
  o.flatMap fun
    | .writeMessage m => writeMessage m
    | .setCanID _ => []
    | .fault _ => []

end Resmod.Model
