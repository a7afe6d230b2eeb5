import Resmod.Library.Copy
import Resmod.Library.Ring
import Mathlib.Data.Int.Notation
import Mathlib.Logic.Function.Basic
import Mathlib.Order.Fin.Basic

/-!
# Sending an Ethernet frame

`low_level_output` of `ethernetif.c`, with `ETH_Prepare_Transmit_Descriptors` of the peripheral
library.  The frame comes in a chain of pbufs and is copied to the buffers of a ring of
descriptors, from the one that `DMATxDescToSet` points to on; a descriptor that the DMA owns
ends the copy.  Then the descriptors are marked as the segments of a frame and given to the
DMA.

A pointer to a descriptor, or to the buffer of one, is the place of the descriptor in the
ring.  The DMA owns the same descriptors during a call as at its beginning.
-/

set_option autoImplicit false

namespace Resmod.Model

open Resmod.Library

namespace EthernetTx

/-! ## The descriptors -/

/-- `ETH_TXBUFNB` -/
def ethTxBufNb : ℕ := 5

/-- `ETH_TX_BUF_SIZE` -/
def ethTxBufSize : ℕ := 1524

/-- A buffer is not empty. -/
theorem ethTxBufSize_pos : 0 < ethTxBufSize := by decide

/-- `ETH_DMATxDesc_OWN`: the descriptor is owned by the DMA. -/
def ethDMATxDescOWN : BitVec 32 := 0x80000000#32

/-- `ETH_DMATxDesc_LS`: last segment of the frame. -/
def ethDMATxDescLS : BitVec 32 := 0x20000000#32

/-- `ETH_DMATxDesc_FS`: first segment of the frame. -/
def ethDMATxDescFS : BitVec 32 := 0x10000000#32

/-- `ETH_DMATxDesc_TBS1`: the bits of `ControlBufferSize` for the size of the buffer. -/
def ethDMATxDescTBS1 : BitVec 32 := 0x00001FFF#32

/-- A descriptor with its buffer: `Buffer1Addr` is the element of `Tx_Buff` at the place of the
descriptor, `Buffer2NextDescAddr` the next descriptor of the ring.
SOURCE: stm32f4xx_eth.c:1402-1435 -/
structure TxDesc where
  status : BitVec 32
  controlBufferSize : BitVec 32
  txBuff : List UInt8
  length_txBuff : txBuff.length = ethTxBufSize

namespace TxDesc

/-- The descriptor belongs to the DMA. -/
def own (d : TxDesc) : Bool := d.status &&& ethDMATxDescOWN != 0#32

/-- The descriptor holds the first segment of a frame. -/
def fs (d : TxDesc) : Bool := d.status &&& ethDMATxDescFS != 0#32

/-- The descriptor holds the last segment of a frame. -/
def ls (d : TxDesc) : Bool := d.status &&& ethDMATxDescLS != 0#32

/-- How many bytes of the buffer the DMA sends. -/
def tbs1 (d : TxDesc) : ℕ := (d.controlBufferSize &&& ethDMATxDescTBS1).toNat

end TxDesc

/-- `DMATxDscrTab[0]` -/
def firstDesc : Fin ethTxBufNb := ⟨0, by decide⟩

/-- `DMATxDscrTab` -/
abbrev DescTab := Fin ethTxBufNb → TxDesc

/-- What must not happen. -/
inductive Fault
  /-- `memcpy` leaves the buffer of a descriptor or the payload of a pbuf. -/
  | copyOutOfBounds
  deriving DecidableEq, Repr

end EthernetTx

/-- The descriptors, `DMATxDescToSet`, the flags `TUS` and `TBUS` of the DMA, and how often
its transmission has been resumed.  `xTxSemaphore` is `none` before it is created, and then
says whether it can be taken. -/
structure EthernetTx where
  dmaTxDscrTab : EthernetTx.DescTab
  dmaTxDescToSet : Fin EthernetTx.ethTxBufNb
  tus : Bool
  tbus : Bool
  resumed : ℕ
  xTxSemaphore : Option Bool

namespace EthernetTx

/-! ## Giving a frame to the DMA -/

/-- What `ETH_Prepare_Transmit_Descriptors` returns. -/
inductive EthStatus
  | error
  | success
  deriving DecidableEq, Repr

/-- `buf_count` -/
def bufCount (frameLength : ℕ) : ℕ :=
  if ethTxBufSize < frameLength then
    let count := frameLength / ethTxBufSize
    if frameLength % ethTxBufSize ≠ 0 then count + 1 else count
  else 1

/-- The only segment of a frame.
SOURCE: stm32f4xx_eth.c:1252-1257 -/
def setSingle (frameLength : ℕ) (d : TxDesc) : TxDesc :=
  { d with
    status := d.status ||| (ethDMATxDescFS ||| ethDMATxDescLS) ||| ethDMATxDescOWN
    controlBufferSize := BitVec.ofNat 32 frameLength &&& ethDMATxDescTBS1 }

/-- Segment `i` of a frame of several.
SOURCE: stm32f4xx_eth.c:1264-1285 -/
def setSegment (frameLength count i : ℕ) (d : TxDesc) : TxDesc :=
  -- the bits of an earlier frame are cleared
  let d := { d with status := d.status &&& ~~~(ethDMATxDescFS ||| ethDMATxDescLS) }
  let d := if i = 0 then { d with status := d.status ||| ethDMATxDescFS } else d
  let d := { d with controlBufferSize := BitVec.ofNat 32 ethTxBufSize &&& ethDMATxDescTBS1 }
  let d :=
    if i = count - 1 then
      let size := frameLength - (count - 1) * ethTxBufSize
      { d with
        status := d.status ||| ethDMATxDescLS
        controlBufferSize := BitVec.ofNat 32 size &&& ethDMATxDescTBS1 }
    else d
  { d with status := d.status ||| ethDMATxDescOWN }

/-- `for (i=0; i< buf_count; i++)`, with how many are left. -/
def setSegments (frameLength count : ℕ) :
    ℕ → ℕ → Fin ethTxBufNb → DescTab → DescTab × Fin ethTxBufNb
  | 0, _, dmaTxDesc, tab => (tab, dmaTxDesc)
  | left + 1, i, dmaTxDesc, tab =>
    setSegments frameLength count left (i + 1) (ringNext dmaTxDesc)
      (Function.update tab dmaTxDesc (setSegment frameLength count i (tab dmaTxDesc)))

/-- SOURCE: stm32f4xx_eth.c:1252-1288 -/
def setDescriptors (frameLength : ℕ) (dmaTxDesc : Fin ethTxBufNb) (tab : DescTab) :
    DescTab × Fin ethTxBufNb :=
  let count := bufCount frameLength
  if count = 1 then
    (Function.update tab dmaTxDesc (setSingle frameLength (tab dmaTxDesc)), ringNext dmaTxDesc)
  else setSegments frameLength count count 0 dmaTxDesc tab

/-- SOURCE: stm32f4xx_eth.c:1229-1304 -/
def ethPrepareTransmitDescriptors (frameLength : UInt16) (s : EthernetTx) :
    EthStatus × EthernetTx :=
  if (s.dmaTxDscrTab s.dmaTxDescToSet).own then (.error, s)
  else
    let (tab, dmaTxDesc) := setDescriptors frameLength.toNat s.dmaTxDescToSet s.dmaTxDscrTab
    let s := { s with dmaTxDscrTab := tab, dmaTxDescToSet := dmaTxDesc }
    (.success, if s.tbus then { s with tbus := false, resumed := s.resumed + 1 } else s)

/-! ## Copying a frame -/

/-- Where the copy is in the descriptors. -/
structure Cursor where
  dmaTxDesc : Fin ethTxBufNb
  buffer : Fin ethTxBufNb
  bufferoffset : ℕ
  framelength : ℕ

/-- `memcpy` from a payload to a buffer. -/
def memcpy (tab : DescTab) (buffer : Fin ethTxBufNb) (bufferoffset : ℕ) (payload : List UInt8)
    (payloadoffset count : ℕ) : Except Fault DescTab :=
  match h : copy (tab buffer).txBuff bufferoffset payload payloadoffset count with
  | none => .error .copyOutOfBounds
  | some txBuff =>
    .ok (Function.update tab buffer { tab buffer with
      txBuff := txBuff
      length_txBuff := (length_copy h).trans (tab buffer).length_txBuff })

/-- The body of the loop over the chain: the payload of one pbuf is copied.  There is no cursor
behind `goto error`.
SOURCE: ethernetif.c:185-216 -/
def fill (payload : List UInt8) (byteslefttocopy payloadoffset : ℕ) (c : Cursor)
    (tab : DescTab) : Except Fault (DescTab × Option Cursor) :=
  if h : ethTxBufSize < byteslefttocopy + c.bufferoffset then do
    let count := ethTxBufSize - c.bufferoffset
    let tab ← memcpy tab c.buffer c.bufferoffset payload payloadoffset count
    let dmaTxDesc := ringNext c.dmaTxDesc
    if (tab dmaTxDesc).own then pure (tab, none)
    else
      have : byteslefttocopy - count < byteslefttocopy + c.bufferoffset := by
        have := ethTxBufSize_pos
        omega
      fill payload (byteslefttocopy - count) (payloadoffset + count)
        ⟨dmaTxDesc, dmaTxDesc, 0, c.framelength + count⟩ tab
  else do
    let tab ← memcpy tab c.buffer c.bufferoffset payload payloadoffset byteslefttocopy
    pure (tab, some { c with
      bufferoffset := c.bufferoffset + byteslefttocopy
      framelength := c.framelength + byteslefttocopy })
termination_by byteslefttocopy + c.bufferoffset

/-- `for(q = p; q != NULL; q = q->next)` -/
def copyChain : List (List UInt8) → Cursor → DescTab → Except Fault (DescTab × Option Cursor)
  | [], c, tab => pure (tab, some c)
  | payload :: chain, c, tab =>
    if (tab c.dmaTxDesc).own then pure (tab, none)
    else do
      let (tab, c) ← fill payload payload.length 0 c tab
      match c with
      | none => pure (tab, none)
      | some c => copyChain chain c tab

/-! ## `low_level_output` -/

/-- A call of `ETH_Prepare_Transmit_Descriptors`, and the state in which it is made. -/
structure Preparation where
  frameLength : UInt16
  tx : EthernetTx

/-- `ERR_OK`, of the type `err_t` -/
def errOk : Int8 := 0

/-- What a call of `low_level_output` returns and does. -/
structure Transmitted where
  tx : EthernetTx
  err : Int8
  prepared : List Preparation

/-- With the semaphore taken.
SOURCE: ethernetif.c:173-220 -/
def copyAndPrepare (s : EthernetTx) (p : List (List UInt8)) :
    Except Fault (EthernetTx × List Preparation) := do
  let c : Cursor := ⟨s.dmaTxDescToSet, s.dmaTxDescToSet, 0, 0⟩
  let (tab, c) ← copyChain p c s.dmaTxDscrTab
  let s := { s with dmaTxDscrTab := tab }
  match c with
  | none => pure (s, [])
  | some c =>
    -- the status that is returned is not looked at
    let frameLength := UInt16.ofNat c.framelength
    pure ((ethPrepareTransmitDescriptors frameLength s).2, [⟨frameLength, s⟩])

/-- `vSemaphoreCreateBinary` creates a semaphore that can be taken. -/
def createSemaphore (s : EthernetTx) : EthernetTx :=
  if s.xTxSemaphore = none then { s with xTxSemaphore := some true } else s

/-- Transmission is resumed after an underflow.
SOURCE: ethernetif.c:226-232 -/
def resumeTransmission (s : EthernetTx) : EthernetTx :=
  if s.tus then { s with tus := false, resumed := s.resumed + 1 } else s

/-- `taken` is what `xSemaphoreTake` returns.
SOURCE: ethernetif.c:155-235 -/
def lowLevelOutput (taken : Bool) (s : EthernetTx) (p : List (List UInt8)) :
    Except Fault Transmitted := do
  let s := createSemaphore s
  if taken then
    let s := { s with xTxSemaphore := some false }
    let (s, prepared) ← copyAndPrepare s p
    -- `error:`
    let s := { s with xTxSemaphore := some true }
    pure ⟨resumeTransmission s, errOk, prepared⟩
  else pure ⟨resumeTransmission s, errOk, []⟩

end EthernetTx

end Resmod.Model
