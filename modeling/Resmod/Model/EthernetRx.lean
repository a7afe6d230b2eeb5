import Resmod.Library.Copy
import Resmod.Library.Ring
import Mathlib.Logic.Function.Basic
import Mathlib.Order.Fin.Basic

/-!
# Receiving an Ethernet frame

`low_level_input` of `ethernetif.c`, with `ETH_Get_Received_Frame_interrupt` of the peripheral
library.  The DMA fills the buffers of a ring of descriptors; a frame takes one descriptor or
several, of which the first and the last are marked.  `low_level_input` looks for the next
complete frame, copies it into a chain of pbufs and gives its descriptors back.

A pointer to a descriptor, or to the buffer of one, is the place of the descriptor in the
ring; `none` is the null pointer.
-/

set_option autoImplicit false

namespace Resmod.Model

open Resmod.Library

namespace EthernetRx

/-! ## The descriptors -/

/-- `ETH_RXBUFNB`: the value of the driver's header, since the configuration leaves
`CUSTOM_DRIVER_BUFFERS_CONFIG` undefined.
SOURCE: stm32f4xx_eth.h:301-304, stm32f4xx_eth_conf.h:61-70 -/
def ethRxBufNb : ℕ := 5

/-- `ETH_RX_BUF_SIZE` -/
def ethRxBufSize : ℕ := 1524

/-- A buffer is not empty. -/
theorem ethRxBufSize_pos : 0 < ethRxBufSize := by decide

/-- `ETH_DMARxDesc_OWN`: the descriptor is owned by the DMA. -/
def ethDMARxDescOWN : UInt32 := 0x80000000

/-- `ETH_DMARxDesc_FS`: first descriptor of the frame. -/
def ethDMARxDescFS : UInt32 := 0x00000200

/-- `ETH_DMARxDesc_LS`: last descriptor of the frame. -/
def ethDMARxDescLS : UInt32 := 0x00000100

/-- `ETH_DMARxDesc_FL`, at `ETH_DMARxDesc_FrameLengthShift`. -/
def ethDMARxDescFL : UInt32 := 0x3FFF0000

/-- A descriptor with its buffer: `Buffer1Addr` is the element of `Rx_Buff` at the place of the
descriptor, `Buffer2NextDescAddr` the next descriptor of the ring.
SOURCE: stm32f4xx_eth.c:1313-1351 -/
structure RxDesc where
  status : UInt32
  rxBuff : Vector UInt8 ethRxBufSize

namespace RxDesc

/-- The descriptor belongs to the DMA. -/
def own (d : RxDesc) : Bool := d.status &&& ethDMARxDescOWN != 0

/-- The descriptor holds the first segment of a frame. -/
def fs (d : RxDesc) : Bool := d.status &&& ethDMARxDescFS != 0

/-- The descriptor holds the last segment of a frame. -/
def ls (d : RxDesc) : Bool := d.status &&& ethDMARxDescLS != 0

/-- The frame length, CRC included. -/
def fl (d : RxDesc) : UInt32 := (d.status &&& ethDMARxDescFL) >>> 16

/-- `DMARxDesc->Status = ETH_DMARxDesc_OWN` -/
def giveBack (d : RxDesc) : RxDesc := { d with status := ethDMARxDescOWN }

end RxDesc

/-- `DMARxDscrTab[0]` -/
def firstDesc : Fin ethRxBufNb := ⟨0, by decide⟩

/-- A pointer to a descriptor; `none` is the null pointer. -/
abbrev DescPtr := Option (Fin ethRxBufNb)

/-- `DMARxDscrTab` -/
abbrev DescTab := Fin ethRxBufNb → RxDesc

/-! ## What the DMA leaves in the ring -/

/-- The descriptors from `d` on. -/
def descsFrom (tab : DescTab) (d : Fin ethRxBufNb) (k : ℕ) : List RxDesc :=
  (List.iterate ringNext d k).map tab

/-- The length that is reported for a frame, without the CRC. -/
def frameLength (f : List RxDesc) : ℕ :=
  match f.getLast? with
  | some last => last.fl.toNat - 4
  | none => 0

/-- The buffers of a frame, one behind the other. -/
def frameBytes (f : List RxDesc) : List UInt8 := (f.map fun d => d.rxBuff.toList).flatten

/-- A segment that the DMA has filled. -/
structure Segment (first last : Bool) (d : RxDesc) : Prop where
  own : d.own = false
  fs : d.fs = first
  ls : d.ls = last

/-- The segments of a complete frame, up to its last one. -/
inductive Segments : List RxDesc → Prop
  | single {d : RxDesc} (h : Segment true true d) : Segments [d]
  | spanning {first : RxDesc} {mids : List RxDesc} {last : RxDesc}
      (hfirst : Segment true false first) (hmids : ∀ d ∈ mids, Segment false false d)
      (hlast : Segment false true last) : Segments (first :: (mids ++ [last]))

/-- A complete frame: the reported length is at least that of the CRC, and without it fits
the buffers. -/
structure IsFrame (f : List RxDesc) : Prop where
  segments : Segments f
  crc : ∀ last, f.getLast? = some last → 4 ≤ last.fl.toNat
  fits : frameLength f ≤ f.length * ethRxBufSize

/-! ## The globals of the driver -/

/-- `FrameTypeDef` -/
structure FrameType where
  length : UInt32
  buffer : DescPtr
  descriptor : DescPtr

/-- What must not happen. -/
inductive Fault
  /-- A null pointer is followed. -/
  | nullPointer
  /-- `memcpy` leaves the buffer of a descriptor or the payload of a pbuf. -/
  | copyOutOfBounds
  deriving DecidableEq, Repr

end EthernetRx

/-- The descriptors, `DMARxDescToGet`, `DMA_RX_FRAME_infos`, and the flag `RBUS` of the DMA. -/
structure EthernetRx where
  dmaRxDscrTab : EthernetRx.DescTab
  dmaRxDescToGet : Fin EthernetRx.ethRxBufNb
  fsRxDesc : EthernetRx.DescPtr
  lsRxDesc : EthernetRx.DescPtr
  segCount : ℕ
  rbus : Bool

namespace EthernetRx

/-- A pointer is followed. -/
def deref (p : DescPtr) : Except Fault (Fin ethRxBufNb) :=
  match p with
  | none => .error .nullPointer
  | some d => .ok d

/-! ## Looking for a frame -/

/-- The loop of `ETH_Get_Received_Frame_interrupt`, with what is left of
`descriptor_scan_counter`. -/
def scan : ℕ → EthernetRx → Except Fault (EthernetRx × FrameType)
  | 0, s => .ok (s, ⟨0, none, none⟩)
  | counter + 1, s =>
    let d := s.dmaRxDscrTab s.dmaRxDescToGet
    let next := ringNext s.dmaRxDescToGet
    if d.own then .ok (s, ⟨0, none, none⟩)
    else if d.fs ∧ ¬ d.ls then
      -- first segment
      scan counter { s with
        fsRxDesc := some s.dmaRxDescToGet, segCount := 1, dmaRxDescToGet := next }
    else if ¬ d.ls ∧ ¬ d.fs then
      -- intermediate segment
      scan counter { s with segCount := s.segCount + 1, dmaRxDescToGet := next }
    else do
      -- last segment, which may be the first one
      let segCount := s.segCount + 1
      let fsRxDesc := if segCount = 1 then some s.dmaRxDescToGet else s.fsRxDesc
      let buffer ← if 1 < segCount then deref fsRxDesc else pure s.dmaRxDescToGet
      pure ({ s with
        fsRxDesc := fsRxDesc
        lsRxDesc := some s.dmaRxDescToGet
        segCount := segCount
        dmaRxDescToGet := next }, ⟨d.fl - 4, some buffer, fsRxDesc⟩)

/-- SOURCE: stm32f4xx_eth.c:1156-1222 -/
def ethGetReceivedFrameInterrupt (s : EthernetRx) : Except Fault (EthernetRx × FrameType) :=
  scan ethRxBufNb s

/-! ## Copying a frame -/

/-- Where the copy is in the descriptors. -/
structure Cursor where
  dmaRxDesc : DescPtr
  buffer : DescPtr
  bufferoffset : ℕ

/-- `memcpy` from a buffer to a payload. -/
def memcpy (tab : DescTab) (payload : List UInt8) (payloadoffset : ℕ) (buffer : DescPtr)
    (bufferoffset count : ℕ) : Except Fault (List UInt8) := do
  let b ← deref buffer
  match copy payload payloadoffset (tab b).rxBuff.toList bufferoffset count with
  | none => .error .copyOutOfBounds
  | some payload => pure payload

/-- The body of the loop over the chain: the payload of one pbuf is filled.
SOURCE: ethernetif.c:275-298 -/
def fill (tab : DescTab) (byteslefttocopy payloadoffset : ℕ) (c : Cursor)
    (payload : List UInt8) : Except Fault (List UInt8 × Cursor) :=
  if h : ethRxBufSize < byteslefttocopy + c.bufferoffset then do
    let count := ethRxBufSize - c.bufferoffset
    let payload ← memcpy tab payload payloadoffset c.buffer c.bufferoffset count
    let d ← deref c.dmaRxDesc
    have : byteslefttocopy - count < byteslefttocopy + c.bufferoffset := by
      have := ethRxBufSize_pos
      omega
    fill tab (byteslefttocopy - count) (payloadoffset + count)
      ⟨some (ringNext d), some (ringNext d), 0⟩ payload
  else do
    let payload ← memcpy tab payload payloadoffset c.buffer c.bufferoffset byteslefttocopy
    pure (payload, { c with bufferoffset := c.bufferoffset + byteslefttocopy })
termination_by byteslefttocopy + c.bufferoffset

/-- `for(q = p; q != NULL; q = q->next)` -/
def copyChain (tab : DescTab) : List (List UInt8) → Cursor → Except Fault (List (List UInt8))
  | [], _ => pure []
  | payload :: chain, c => do
    let (payload, c) ← fill tab payload.length 0 c payload
    let chain ← copyChain tab chain c
    pure (payload :: chain)

/-! ## `low_level_input` -/

/-- `pbuf_alloc(PBUF_RAW, len, PBUF_POOL)`: a chain of payloads that have not been set, of total
length `len`, or `NULL`. -/
structure PbufAlloc where
  alloc : ℕ → Option (List (List UInt8))
  total : ∀ len chain, alloc len = some chain → (chain.map List.length).sum = len

/-- The allocation of the chain and the copy.
SOURCE: ethernetif.c:262-300 -/
def allocAndCopy (pbufAlloc : PbufAlloc) (tab : DescTab) (frame : FrameType) :
    Except Fault (Option (List (List UInt8))) :=
  let len := frame.length.toUInt16.toNat
  match if 0 < len then pbufAlloc.alloc len else none with
  | none => pure none
  | some p => do
    let p ← copyChain tab p ⟨frame.descriptor, frame.buffer, 0⟩
    pure (some p)

/-- The loop that gives descriptors back to the DMA; they are listed in order. -/
def release : ℕ → DescPtr → DescTab → Except Fault (DescTab × List (Fin ethRxBufNb))
  | 0, _, tab => pure (tab, [])
  | i + 1, dmaRxDesc, tab => do
    let d ← deref dmaRxDesc
    let (tab, released) ← release i (some (ringNext d))
      (Function.update tab d (tab d).giveBack)
    pure (tab, d :: released)

/-- What a call of `low_level_input` returns and does. -/
structure Received where
  rx : EthernetRx
  p : Option (List (List UInt8))
  /-- The descriptors that were given back. -/
  released : List (Fin ethRxBufNb)
  /-- Reception was resumed. -/
  resumed : Bool

/-- The end of `low_level_input`, with the chain that it returns.
SOURCE: ethernetif.c:302-322 -/
def releaseFrame (s : EthernetRx) (frame : FrameType) (p : Option (List (List UInt8))) :
    Except Fault Received := do
  let (tab, released) ← release s.segCount frame.descriptor s.dmaRxDscrTab
  pure ⟨{ s with dmaRxDscrTab := tab, segCount := 0, rbus := false }, p, released, s.rbus⟩

/-- SOURCE: ethernetif.c:245-323 -/
def lowLevelInput (pbufAlloc : PbufAlloc) (s : EthernetRx) : Except Fault Received := do
  let (s, frame) ← ethGetReceivedFrameInterrupt s
  let p ← allocAndCopy pbufAlloc s.dmaRxDscrTab frame
  releaseFrame s frame p

end EthernetRx

end Resmod.Model
