import Resmod.Library.BitFields
import Mathlib.Data.Int.Notation

/-!
# The registers of the Ethernet PHYs

The read and write functions of `ksz8895` and `phyinterface_basic`.  Both classes have the
same two helpers.  A read function puts the helper's result for each position, or pair of
positions, into a field; `…Of` is the record it makes when `bits a b` is what the helper
returns for the positions `a` and `b`.

The fields of `phyinterface_basic` are enumerations that are cast from and to numbers, and a
field is the number here.  A read function of `ksz8895` always succeeds.
-/

set_option autoImplicit false

namespace Resmod.Model

open Resmod.Library

namespace Phy

/-- `mapbittovalue`: the value parameter has 8 bits.
SOURCE: drivers/ksz8895/ksz8895.cpp:257-270, drivers/adara/network/ethphy.cpp:108-121 -/
def mapbittovalue (val : BitVec 8) (bstart bend : ℕ) : BitVec 16 :=
  let iter := (bend : ℤ) - bstart + 1
  let mask := onesFrom 16 bstart iter.toNat
  (val.setWidth 16 &&& mask) >>> bstart

/-- `mapvaluetobit`
SOURCE: drivers/ksz8895/ksz8895.cpp:272-285, drivers/adara/network/ethphy.cpp:123-136 -/
def mapvaluetobit (val : BitVec 8) (bstart bend : ℕ) : BitVec 16 :=
  let iter := (bend : ℤ) - bstart + 1
  let mask := onesFrom 16 0 iter.toNat
  (mask &&& val.setWidth 16) <<< bstart

/-- The call `mapbittovalue(reg, a, b)` with a register: it is passed as the 8-bit value. -/
def mapbits (reg : BitVec 16) (a b : ℕ) : BitVec 16 := mapbittovalue (reg.setWidth 8) a b

/-! ## ksz8895 -/

/-- The fields of the MII control register. -/
@[ext] structure RegMiicontrol where
  softreset : BitVec 8
  loopback : BitVec 8
  force100 : BitVec 8
  anenable : BitVec 8
  powerdown : BitVec 8
  phyisolate : BitVec 8
  restartan : BitVec 8
  forcefullduplex : BitVec 8
  collisiontest : BitVec 8
  hp_mdix : BitVec 8
  forcemdi : BitVec 8
  disableautomdix : BitVec 8
  disablefarendfault : BitVec 8
  disabletransmit : BitVec 8
  disableled : BitVec 8
  deriving DecidableEq, Repr

/-- The fields of the MII status register. -/
structure RegMiistatus where
  t4capable : BitVec 8
  fullcapable100 : BitVec 8
  halfcapable100 : BitVec 8
  fullcapable10 : BitVec 8
  halfcapable10 : BitVec 8
  preamblesupressed : BitVec 8
  ancomplete : BitVec 8
  farendfault : BitVec 8
  ancapable : BitVec 8
  linkstatus : BitVec 8
  jabbertest : BitVec 8
  extendedcapable : BitVec 8
  deriving DecidableEq, Repr

/-- The fields of the register of the abilities that are advertised. -/
structure RegAdvertisementability where
  nextpage : BitVec 8
  remotefault : BitVec 8
  pause : BitVec 8
  adv100full : BitVec 8
  adv100half : BitVec 8
  adv10full : BitVec 8
  adv10half : BitVec 8
  selectorfield : BitVec 8
  deriving DecidableEq, Repr

/-- The fields of the register of the abilities of the link partner. -/
structure RegLinkpartnerability where
  nextpage : BitVec 8
  lpack : BitVec 8
  remotefault : BitVec 8
  pause : BitVec 8
  adv100full : BitVec 8
  adv100half : BitVec 8
  adv10full : BitVec 8
  adv10half : BitVec 8
  deriving DecidableEq, Repr

/-- Without `disttofault`, which is computed from `vctfaultcount`. -/
structure RegLinkmdctrlstat where
  vctenable : BitVec 8
  vctresult : BitVec 8
  vct10mshort : BitVec 8
  vctfaultcount : BitVec 16
  deriving DecidableEq, Repr

/-- The fields of the special control and status register. -/
structure RegPhyspecialctrlstat where
  portoperationmode : BitVec 8
  polrvs : BitVec 8
  mdixstatus : BitVec 8
  forcelink : BitVec 8
  pwrsave : BitVec 8
  remoteloopback : BitVec 8
  deriving DecidableEq, Repr

variable (bits : ℕ → ℕ → BitVec 16)

/-- An 8-bit field from the bits between two positions. -/
def field (a b : ℕ) : BitVec 8 := (bits a b).setWidth 8

/-- The fields by their bits. -/
def miicontrolOf : RegMiicontrol where
  softreset := field bits 15 15
  loopback := field bits 14 14
  force100 := field bits 13 13
  anenable := field bits 12 12
  powerdown := field bits 11 11
  phyisolate := field bits 10 10
  restartan := field bits 9 9
  forcefullduplex := field bits 8 8
  collisiontest := field bits 7 7
  hp_mdix := field bits 5 5
  forcemdi := field bits 4 4
  disableautomdix := field bits 3 3
  disablefarendfault := field bits 2 2
  disabletransmit := field bits 1 1
  disableled := field bits 0 0

/-- The fields by their bits. -/
def miistatusOf : RegMiistatus where
  t4capable := field bits 15 15
  fullcapable100 := field bits 14 14
  halfcapable100 := field bits 13 13
  fullcapable10 := field bits 12 12
  halfcapable10 := field bits 11 11
  preamblesupressed := field bits 6 6
  ancomplete := field bits 5 5
  farendfault := field bits 4 4
  ancapable := field bits 3 3
  linkstatus := field bits 2 2
  jabbertest := field bits 1 1
  extendedcapable := field bits 0 0

/-- The fields by their bits. -/
def advertisementabilityOf : RegAdvertisementability where
  nextpage := field bits 15 15
  remotefault := field bits 13 13
  pause := field bits 10 10
  adv100full := field bits 8 8
  adv100half := field bits 7 7
  adv10full := field bits 6 6
  adv10half := field bits 5 5
  selectorfield := field bits 4 0

/-- The fields by their bits. -/
def linkpartnerabilityOf : RegLinkpartnerability where
  nextpage := field bits 15 15
  lpack := field bits 14 14
  remotefault := field bits 13 13
  pause := field bits 10 10
  adv100full := field bits 8 8
  adv100half := field bits 7 7
  adv10full := field bits 6 6
  adv10half := field bits 5 5

/-- The fields by their bits. -/
def linkmdOf : RegLinkmdctrlstat where
  vctenable := field bits 15 15
  vctresult := field bits 14 13
  vct10mshort := field bits 12 12
  vctfaultcount := bits 8 0

/-- The fields by their bits. -/
def physpecialOf : RegPhyspecialctrlstat where
  portoperationmode := field bits 10 8
  polrvs := field bits 5 5
  mdixstatus := field bits 4 4
  forcelink := field bits 3 3
  pwrsave := field bits 2 2
  remoteloopback := field bits 1 1

/-- SOURCE: drivers/ksz8895/ksz8895.cpp:55-77 -/
def readmiicontrol (reg : BitVec 16) : RegMiicontrol := miicontrolOf (mapbits reg)

/-- SOURCE: drivers/ksz8895/ksz8895.cpp:82-101 -/
def readmiistatus (reg : BitVec 16) : RegMiistatus := miistatusOf (mapbits reg)

/-- SOURCE: drivers/ksz8895/ksz8895.cpp:112-127 -/
def readadvertisementability (reg : BitVec 16) : RegAdvertisementability :=
  advertisementabilityOf (mapbits reg)

/-- SOURCE: drivers/ksz8895/ksz8895.cpp:129-144 -/
def readlinkpartnerability (reg : BitVec 16) : RegLinkpartnerability :=
  linkpartnerabilityOf (mapbits reg)

/-- SOURCE: drivers/ksz8895/ksz8895.cpp:146-158 -/
def readlinkmd_ctrlstat (reg : BitVec 16) : RegLinkmdctrlstat := linkmdOf (mapbits reg)

/-- SOURCE: drivers/ksz8895/ksz8895.cpp:160-173 -/
def readphyspecial_ctrlstat (reg : BitVec 16) : RegPhyspecialctrlstat :=
  physpecialOf (mapbits reg)

/-- The value written to the register.
SOURCE: drivers/ksz8895/ksz8895.cpp:178-202 -/
def writemiicontrol (value : RegMiicontrol) : BitVec 16 :=
  let reg := 0#16
  let reg := reg ||| mapvaluetobit value.softreset 15 15
  let reg := reg ||| mapvaluetobit value.loopback 14 14
  let reg := reg ||| mapvaluetobit value.force100 13 13
  let reg := reg ||| mapvaluetobit value.anenable 12 12
  let reg := reg ||| mapvaluetobit value.powerdown 11 11
  let reg := reg ||| mapvaluetobit value.phyisolate 10 10
  let reg := reg ||| mapvaluetobit value.restartan 9 9
  let reg := reg ||| mapvaluetobit value.forcefullduplex 8 8
  let reg := reg ||| mapvaluetobit value.collisiontest 7 7
  let reg := reg ||| mapvaluetobit value.hp_mdix 5 5
  let reg := reg ||| mapvaluetobit value.forcemdi 4 4
  let reg := reg ||| mapvaluetobit value.disableautomdix 3 3
  let reg := reg ||| mapvaluetobit value.disablefarendfault 2 2
  let reg := reg ||| mapvaluetobit value.disabletransmit 1 1
  reg ||| mapvaluetobit value.disableled 0 0

/-! ## phyinterface_basic -/

/-- The fields of the basic control register. -/
@[ext] structure Regctrl where
  softreset : BitVec 16
  loopback : BitVec 16
  speed : BitVec 16
  automdix : BitVec 16
  power : BitVec 16
  isolate : BitVec 16
  restartmdix : BitVec 16
  duplex : BitVec 16
  deriving DecidableEq, Inhabited, Repr

/-- The fields of the basic status register. -/
structure Regstatus where
  t4base100 : BitVec 16
  fullduplexbase100 : BitVec 16
  halffuplexbase100 : BitVec 16
  fullduplexbase10 : BitVec 16
  halfduplexbase10 : BitVec 16
  fullduplext2base100 : BitVec 16
  halfduplext2base100 : BitVec 16
  extended : BitVec 16
  autonegotiate : BitVec 16
  remotefault : BitVec 16
  autonegotiateable : BitVec 16
  linkstatus : BitVec 16
  jabberdetect : BitVec 16
  extendedable : BitVec 16
  deriving DecidableEq, Inhabited, Repr

/-- The fields by their bits. -/
def ctrlOf : Regctrl where
  softreset := bits 15 15
  loopback := bits 14 14
  speed := bits 13 13
  automdix := bits 12 12
  power := bits 11 11
  isolate := bits 10 10
  restartmdix := bits 9 9
  duplex := bits 8 8

/-- The fields by their bits. -/
def statusOf : Regstatus where
  t4base100 := bits 15 15
  fullduplexbase100 := bits 14 14
  halffuplexbase100 := bits 13 13
  fullduplexbase10 := bits 12 12
  halfduplexbase10 := bits 11 11
  fullduplext2base100 := bits 10 10
  halfduplext2base100 := bits 9 9
  extended := bits 8 8
  autonegotiate := bits 5 5
  remotefault := bits 4 4
  autonegotiateable := bits 3 3
  linkstatus := bits 2 2
  jabberdetect := bits 1 1
  extendedable := bits 0 0

/-- `readsummaryctrl`, where `read` is what the callback delivers: a register, or nothing if it
fails.  The record is then left as it was.
SOURCE: drivers/adara/network/ethphy.cpp:34-51 -/
def readsummaryctrl (read : Option (BitVec 16)) (rctl : Regctrl) : Regctrl :=
  match read with
  | some reg => ctrlOf (mapbits reg)
  | none => rctl

/-- SOURCE: drivers/adara/network/ethphy.cpp:53-87 -/
def readsummarystatus (read : Option (BitVec 16)) (rstat : Regstatus) : Regstatus :=
  match read with
  | some reg => statusOf (mapbits reg)
  | none => rstat

/-- The value written to the register: every field goes to bit 15.
SOURCE: drivers/adara/network/ethphy.cpp:89-104 -/
def writesummaryctrl (rctrl : Regctrl) : BitVec 16 :=
  let reg := 0#16
  let reg := reg ||| mapvaluetobit (rctrl.softreset.setWidth 8) 15 15
  let reg := reg ||| mapvaluetobit (rctrl.loopback.setWidth 8) 15 15
  let reg := reg ||| mapvaluetobit (rctrl.speed.setWidth 8) 15 15
  let reg := reg ||| mapvaluetobit (rctrl.automdix.setWidth 8) 15 15
  let reg := reg ||| mapvaluetobit (rctrl.power.setWidth 8) 15 15
  let reg := reg ||| mapvaluetobit (rctrl.isolate.setWidth 8) 15 15
  let reg := reg ||| mapvaluetobit (rctrl.restartmdix.setWidth 8) 15 15
  reg ||| mapvaluetobit (rctrl.duplex.setWidth 8) 15 15

end Phy

end Resmod.Model
