import Resmod.Library.Machine
import Resmod.Library.Slots
import Resmod.Model.EthernetRx
import Resmod.Model.EthernetTx

/-!
# The receive descriptors in memory

The functions of `EthernetRx` once more, as the code has them: a descriptor is a structure in
memory, and the next one is the address that its `Buffer2NextDescAddr` holds.  With them the
functions that build the chain of descriptors, and `low_level_init`, which calls these.

`EthernetRx` has the place of a descriptor in the ring for its address.
-/

set_option autoImplicit false

namespace Resmod.Model

open Resmod.Library EthernetRx

namespace EthernetPointers

/-- The words of the memory, by address. -/
abbrev Words := UInt32 → UInt32

/-- `sizeof(ETH_DMADESCTypeDef)`, with the enhanced descriptors.
SOURCE: stm32f4xx_eth.h:225-237 -/
def descSize : ℕ := 32

/-- `&p->ControlBufferSize` -/
def controlBufferSize (p : UInt32) : UInt32 := p + 4

/-- `&p->Buffer1Addr` -/
def buffer1Addr (p : UInt32) : UInt32 := p + 8

/-- `&p->Buffer2NextDescAddr` -/
def buffer2NextDescAddr (p : UInt32) : UInt32 := p + 12

/-! ## Building the chain -/

/-- The values that differ between the two chains. -/
structure DescInit where
  status : UInt32
  /-- The value of `ControlBufferSize`, which is left as it is in the transmit descriptors. -/
  control : Option UInt32
  bufSize : ℕ

/-- One round of the loop that builds a chain. -/
def DescInit.round (c : DescInit) (descTab buff buffCount : UInt32) (i : ℕ) (w : Words) : Words :=
  let desc := descTab + UInt32.ofNat i * UInt32.ofNat descSize
  let w := Function.update w desc c.status
  let w := match c.control with
    | some size => Function.update w (controlBufferSize desc) size
    | none => w
  let w := Function.update w (buffer1Addr desc) (buff + UInt32.ofNat i * UInt32.ofNat c.bufSize)
  Function.update w (buffer2NextDescAddr desc)
    (if UInt32.ofNat i < buffCount - 1 then desc + UInt32.ofNat descSize else descTab)

/-- All descriptors of the table are initialised, one after the other. -/
def DescInit.chain (c : DescInit) (descTab buff buffCount : UInt32) (w : Words) : Words :=
  forEach (c.round descTab buff buffCount) buffCount.toNat w

/-- `ETH_DMARxDesc_RCH` -/
def ethDMARxDescRCH : UInt32 := 0x00004000

/-- `ETH_DMARxDesc_DIC` -/
def ethDMARxDescDIC : UInt32 := 0x80000000

/-- `ETH_DMATxDesc_TCH` -/
def ethDMATxDescTCH : UInt32 := 0x00100000

/-- What `ETH_DMARxDescChainInit` writes into a descriptor. -/
def rxDescInit : DescInit where
  status := ethDMARxDescOWN
  control := some (ethDMARxDescRCH ||| UInt32.ofNat ethRxBufSize)
  bufSize := ethRxBufSize

/-- What `ETH_DMATxDescChainInit` writes into a descriptor. -/
def txDescInit : DescInit where
  status := ethDMATxDescTCH
  control := none
  bufSize := EthernetTx.ethTxBufSize

/-- The descriptors after `ETH_DMATxDescChainInit`, with `DMATxDescToSet`.
SOURCE: stm32f4xx_eth.c:1402-1435 -/
def ethDMATxDescChainInit (w : Words) (descTab txBuff txBuffCount : UInt32) : Words × UInt32 :=
  (txDescInit.chain descTab txBuff txBuffCount w, descTab)

/-- `ETH_DMARxDescReceiveITConfig`.  SOURCE: stm32f4xx_eth.c:1765-1780 -/
def ethDMARxDescReceiveITConfig (desc : UInt32) (newState : Bool) (w : Words) : Words :=
  let size := w (controlBufferSize desc)
  Function.update w (controlBufferSize desc)
    (if newState then size &&& ~~~ethDMARxDescDIC else size ||| ethDMARxDescDIC)

/-! ## The driver -/

/-- `FrameTypeDef` -/
structure Frame where
  length : UInt32
  buffer : UInt32
  descriptor : UInt32

end EthernetPointers

/-- The memory, `DMARxDescToGet`, `RX_Frame_Descriptor`, and the flag `RBUS` of the DMA. -/
structure EthernetPointers where
  words : EthernetPointers.Words
  bytes : UInt32 → UInt8
  dmaRxDescToGet : UInt32
  fsRxDesc : UInt32
  lsRxDesc : UInt32
  segCount : UInt32
  rbus : Bool

namespace EthernetPointers

/-- SOURCE: stm32f4xx_eth.c:1313-1351 -/
def ethDMARxDescChainInit (s : EthernetPointers) (descTab rxBuff rxBuffCount : UInt32) :
    EthernetPointers :=
  { s with
    words := rxDescInit.chain descTab rxBuff rxBuffCount s.words
    dmaRxDescToGet := descTab }

/-- The receive descriptors in `low_level_init`.  SOURCE: ethernetif.c:105-114 -/
def lowLevelInit (s : EthernetPointers) (dmaRxDscrTab rxBuff : UInt32) : EthernetPointers :=
  let s := s.ethDMARxDescChainInit dmaRxDscrTab rxBuff (UInt32.ofNat ethRxBufNb)
  { s with
    words := forEach (fun i => ethDMARxDescReceiveITConfig
      (dmaRxDscrTab + UInt32.ofNat i * UInt32.ofNat descSize) true) ethRxBufNb s.words }

/-- A pointer is followed. -/
def load (w : Words) (p : UInt32) (field : UInt32 → UInt32) : Except Fault UInt32 :=
  if p = 0 then .error .nullPointer else .ok (w (field p))

/-- The loop of `ETH_Get_Received_Frame_interrupt`, with what is left of
`descriptor_scan_counter`. -/
def scan : ℕ → EthernetPointers → Except Fault (EthernetPointers × Frame)
  | 0, s => .ok (s, ⟨0, 0, 0⟩)
  | counter + 1, s =>
    let status := s.words s.dmaRxDescToGet
    let own := status &&& ethDMARxDescOWN != 0
    let fs := status &&& ethDMARxDescFS != 0
    let ls := status &&& ethDMARxDescLS != 0
    let next := s.words (buffer2NextDescAddr s.dmaRxDescToGet)
    if own then .ok (s, ⟨0, 0, 0⟩)
    else if fs ∧ ¬ ls then
      scan counter { s with
        fsRxDesc := s.dmaRxDescToGet, segCount := 1, dmaRxDescToGet := next }
    else if ¬ ls ∧ ¬ fs then
      scan counter { s with segCount := s.segCount + 1, dmaRxDescToGet := next }
    else do
      let segCount := s.segCount + 1
      let fsRxDesc := if segCount = 1 then s.dmaRxDescToGet else s.fsRxDesc
      let buffer ← load s.words (if 1 < segCount then fsRxDesc else s.dmaRxDescToGet) buffer1Addr
      pure ({ s with
        fsRxDesc := fsRxDesc
        lsRxDesc := s.dmaRxDescToGet
        segCount := segCount
        dmaRxDescToGet := next },
        ⟨((status &&& ethDMARxDescFL) >>> 16) - 4, buffer, fsRxDesc⟩)

/-- SOURCE: stm32f4xx_eth.c:1156-1222 -/
def ethGetReceivedFrameInterrupt (s : EthernetPointers) :
    Except Fault (EthernetPointers × Frame) :=
  scan ethRxBufNb s

/-! ## `low_level_input` -/

/-- Where the copy is. -/
structure Cursor where
  dmaRxDesc : UInt32
  buffer : UInt32
  bufferoffset : ℕ

/-- The bytes from an address on. -/
def readBytes (bytes : UInt32 → UInt8) (p : UInt32) (count : ℕ) : List UInt8 :=
  (List.range count).map fun k => bytes (p + UInt32.ofNat k)

/-- Bytes of a buffer are copied into the payload of a pbuf; a null pointer must not be
followed. -/
def memcpy (bytes : UInt32 → UInt8) (payload : List UInt8) (payloadoffset : ℕ) (buffer : UInt32)
    (bufferoffset count : ℕ) : Except Fault (List UInt8) :=
  if buffer = 0 then .error .nullPointer
  else
    let src := readBytes bytes (buffer + UInt32.ofNat bufferoffset) count
    match copy payload payloadoffset src 0 count with
    | none => .error .copyOutOfBounds
    | some payload => .ok payload

/-- The body of the loop over the chain.  SOURCE: ethernetif.c:275-298 -/
def fill (s : EthernetPointers) (byteslefttocopy payloadoffset : ℕ) (c : Cursor)
    (payload : List UInt8) : Except Fault (List UInt8 × Cursor) :=
  if h : ethRxBufSize < byteslefttocopy + c.bufferoffset then do
    let count := ethRxBufSize - c.bufferoffset
    let payload ← memcpy s.bytes payload payloadoffset c.buffer c.bufferoffset count
    let next ← load s.words c.dmaRxDesc buffer2NextDescAddr
    let buffer ← load s.words next buffer1Addr
    have : byteslefttocopy - count < byteslefttocopy + c.bufferoffset := by
      have := ethRxBufSize_pos
      omega
    fill s (byteslefttocopy - count) (payloadoffset + count) ⟨next, buffer, 0⟩ payload
  else do
    let payload ← memcpy s.bytes payload payloadoffset c.buffer c.bufferoffset byteslefttocopy
    pure (payload, { c with bufferoffset := c.bufferoffset + byteslefttocopy })
termination_by byteslefttocopy + c.bufferoffset

/-- The pbufs of a chain are filled one after the other. -/
def copyChain (s : EthernetPointers) : List (List UInt8) → Cursor →
    Except Fault (List (List UInt8))
  | [], _ => pure []
  | payload :: chain, c => do
    let (payload, c) ← s.fill payload.length 0 c payload
    let chain ← copyChain s chain c
    pure (payload :: chain)

/-- SOURCE: ethernetif.c:262-300 -/
def allocAndCopy (pbufAlloc : PbufAlloc) (s : EthernetPointers) (frame : Frame) :
    Except Fault (Option (List (List UInt8))) :=
  let len := frame.length.toUInt16.toNat
  match if 0 < len then pbufAlloc.alloc len else none with
  | none => pure none
  | some p => do
    let p ← s.copyChain p ⟨frame.descriptor, frame.buffer, 0⟩
    pure (some p)

/-- The loop that gives descriptors back to the DMA.  SOURCE: ethernetif.c:302-309 -/
def release : ℕ → UInt32 → Words → Except Fault Words
  | 0, _, w => pure w
  | i + 1, dmaRxDesc, w => do
    let _ ← load w dmaRxDesc id
    let w := Function.update w dmaRxDesc ethDMARxDescOWN
    let next ← load w dmaRxDesc buffer2NextDescAddr
    release i next w

/-- What a call of `low_level_input` returns and does. -/
structure Received where
  rx : EthernetPointers
  p : Option (List (List UInt8))
  /-- Reception was resumed. -/
  resumed : Bool

/-- SOURCE: ethernetif.c:245-323 -/
def lowLevelInput (pbufAlloc : PbufAlloc) (s : EthernetPointers) : Except Fault Received := do
  let (s, frame) ← s.ethGetReceivedFrameInterrupt
  let p ← s.allocAndCopy pbufAlloc frame
  let words ← release s.segCount.toNat frame.descriptor s.words
  pure ⟨{ s with words := words, segCount := 0, rbus := false }, p, s.rbus⟩

/-! ## Between the calls -/

/-- What happens to the receive ring: the DMA writes into a descriptor and its buffer, or finds
no descriptor and sets `RBUS`; the task calls `low_level_input`. -/
inductive Event
  | dma (i : Fin ethRxBufNb) (status : UInt32) (rxBuff : Vector UInt8 ethRxBufSize)
  | suspend
  | input (pbufAlloc : PbufAlloc)

/-- What `low_level_input` has returned, and whether reception was resumed. -/
structure Output where
  p : Option (List (List UInt8))
  resumed : Bool
  deriving DecidableEq

/-- The DMA writes into the descriptor at an address, and into the buffer it points to. -/
def dma (s : EthernetPointers) (desc status : UInt32) (rxBuff : Vector UInt8 ethRxBufSize) :
    EthernetPointers :=
  let buffer := s.words (buffer1Addr desc)
  { s with
    words := Function.update s.words desc status
    bytes := fun a =>
      if h : (a - buffer).toNat < ethRxBufSize then rxBuff[(a - buffer).toNat] else s.bytes a }

/-- The driver with its memory; the descriptors begin at `dmaRxDscrTab`. -/
def machine (dmaRxDscrTab : UInt32) : Machine EthernetPointers Event Output where
  step s
    | .dma i status rxBuff =>
      some (s.dma (dmaRxDscrTab + UInt32.ofNat i * UInt32.ofNat descSize) status rxBuff, [])
    | .suspend => some ({ s with rbus := true }, [])
    | .input pbufAlloc =>
      match s.lowLevelInput pbufAlloc with
      | .error _ => none
      | .ok r => some (r.rx, [⟨r.p, r.resumed⟩])

/-- The driver with the ring. -/
def ringMachine : Machine EthernetRx Event Output where
  step s
    | .dma i status rxBuff =>
      some ({ s with dmaRxDscrTab := Function.update s.dmaRxDscrTab i ⟨status, rxBuff⟩ }, [])
    | .suspend => some ({ s with rbus := true }, [])
    | .input pbufAlloc =>
      match EthernetRx.lowLevelInput pbufAlloc s with
      | .error _ => none
      | .ok r => some (r.rx, [⟨r.p, r.resumed⟩])

end EthernetPointers

end Resmod.Model
