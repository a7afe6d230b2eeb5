import Resmod.Library.Machine
import Resmod.Model.EthernetTx

/-!
# The Ethernet driver and its DMA, sending

`low_level_output` fills descriptors and gives them to the DMA, and the DMA sends them, one
segment after the other round the ring.  The DMA sends between the calls of
`low_level_output`, in any order with them.
-/

set_option autoImplicit false

namespace Resmod.Model

open Resmod.Library Resmod.Model.EthernetTx

namespace EthernetTxDma

/-- `ETH_DMATxDesc_TCH`: second address chained. -/
def ethDMATxDescTCH : BitVec 32 := 0x00100000#32

/-- A call of the driver, or a look of the DMA. -/
inductive Event
  /-- `low_level_output` is called for a chain; `taken` is what `xSemaphoreTake` returns. -/
  | output (taken : Bool) (p : List (List UInt8))
  /-- The DMA looks at its descriptor. -/
  | dma
  deriving DecidableEq, Repr

/-- `ETH_Prepare_Transmit_Descriptors` gives a frame to the DMA, or the DMA has sent one. -/
inductive Output
  | prepared (frame : List UInt8)
  | sent (frame : List UInt8)
  deriving DecidableEq, Repr

end EthernetTxDma

/-- The ring of the descriptors, with the DMA at one of them. -/
structure EthernetTxDma where
  tx : EthernetTx
  /-- The descriptor that the DMA looks at next. -/
  dmaTxDesc : Fin ethTxBufNb
  /-- What the DMA has read of a frame, before it has read its last segment. -/
  frame : List UInt8

namespace EthernetTxDma

/-- `ETH_DMATxDescChainInit`; the buffers hold anything.
SOURCE: stm32f4xx_eth.c:1402-1435 -/
def chainInit (txBuff : Fin ethTxBufNb → Vector UInt8 ethTxBufSize) : EthernetTxDma where
  tx := {
    dmaTxDscrTab := fun i => ⟨ethDMATxDescTCH, 0#32, (txBuff i).toList, (txBuff i).length_toList⟩
    dmaTxDescToSet := firstDesc
    tus := false
    tbus := false
    resumed := 0
    xTxSemaphore := none }
  dmaTxDesc := firstDesc
  frame := []

/-- The DMA gives a descriptor back. -/
def giveBack (d : TxDesc) : TxDesc := { d with status := d.status &&& ~~~ethDMATxDescOWN }

/-- The DMA reads a segment that it owns and gives its descriptor back; with the last segment
the frame is sent.  In front of a descriptor that it does not own it sets `TBUS` and is
suspended. -/
def dmaStep (s : EthernetTxDma) : EthernetTxDma × List Output :=
  let d := s.tx.dmaTxDscrTab s.dmaTxDesc
  if s.tx.tbus then (s, [])
  else if d.own then
    let frame := (if d.fs then [] else s.frame) ++ d.txBuff.take d.tbs1
    let tx := { s.tx with
      dmaTxDscrTab := Function.update s.tx.dmaTxDscrTab s.dmaTxDesc (giveBack d) }
    if d.ls then (⟨tx, ringNext s.dmaTxDesc, []⟩, [.sent frame])
    else (⟨tx, ringNext s.dmaTxDesc, frame⟩, [])
  else ({ s with tx := { s.tx with tbus := true } }, [])

/-- Whether a call has given its frame to the DMA. -/
def prepares (r : Transmitted) : Bool :=
  r.prepared.any fun call =>
    (ethPrepareTransmitDescriptors call.frameLength call.tx).1 = .success

/-- Any order of calls of `low_level_output` and steps of the DMA. -/
def machine : Machine EthernetTxDma Event Output where
  step s
    | .output taken p =>
      match lowLevelOutput taken s.tx p with
      | .error _ => none
      | .ok r => some ({ s with tx := r.tx }, if prepares r then [.prepared p.flatten] else [])
    | .dma => some s.dmaStep

end EthernetTxDma

end Resmod.Model
