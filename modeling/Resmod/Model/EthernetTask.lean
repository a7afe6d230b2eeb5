import Resmod.Library.Machine
import Resmod.Model.EthernetRx

/-!
# The task that receives Ethernet frames

`ethernetif_input` waits for a notification of `ETHERNET_IRQHandler`, of which it takes all that
are pending, and then calls `low_level_input` and the input function of the network interface
until there is no frame, or one of them fails.

A frame arrives as a whole: the DMA fills the next descriptors of the ring, which it must own,
and the interrupt handler notifies the task.  Frames arrive between the scan, the copy and the
release of `low_level_input` as well.
-/

set_option autoImplicit false

namespace Resmod.Model

open Resmod.Library Resmod.Model.EthernetRx

namespace EthernetTask

/-- A complete frame, as it comes to stand in the ring. -/
structure Frame where
  segments : List RxDesc
  isFrame : IsFrame segments

/-- What the task is before. -/
inductive Place
  /-- In `ulTaskNotifyTake`. -/
  | waiting
  /-- The scan for a frame. -/
  | scan
  /-- The allocation and the copy, with what the scan has returned. -/
  | copy (frame : FrameType)
  | release (frame : FrameType) (p : Option (List (List UInt8)))
  /-- `s_pxNetIf->input( p, s_pxNetIf)` -/
  | input (p : List (List UInt8))

/-- What can happen next. -/
inductive Event
  | arrival (frame : Frame)
  /-- `ulTaskNotifyTake` returns, because of a notification or of the time-out. -/
  | take
  | scan
  /-- `pbuf_alloc` returns what `pbufAlloc` says. -/
  | copy (pbufAlloc : PbufAlloc)
  | release
  /-- The input function returns `ERR_OK`, or not. -/
  | input (ok : Bool)

/-- The DMA fills descriptors from `d` on. -/
def store : List RxDesc → Fin ethRxBufNb → DescTab → DescTab
  | [], _, tab => tab
  | x :: f, d, tab => store f (ringNext d) (Function.update tab d x)

end EthernetTask

/-- The ring of the descriptors, the DMA at one of them, and the task. -/
structure EthernetTask where
  rx : EthernetRx
  /-- The descriptor that the DMA fills next. -/
  dmaRxDesc : Fin ethRxBufNb
  /-- The notification value of the task. -/
  notified : ℕ
  place : EthernetTask.Place

namespace EthernetTask

/-- `ETH_DMARxDescChainInit`, and the start of the task; the buffers hold anything.
SOURCE: stm32f4xx_eth.c:1313-1351 -/
def started (rxBuff : Fin ethRxBufNb → Vector UInt8 ethRxBufSize) : EthernetTask where
  rx := ⟨fun i => ⟨ethDMARxDescOWN, rxBuff i⟩, firstDesc, none, none, 0, false⟩
  dmaRxDesc := firstDesc
  notified := 0
  place := .waiting

/-- A call of the peripheral library that leaves its defined behaviour ends the run. -/
def afterCall {α : Type} (r : Except Fault α) (f : α → EthernetTask) :
    Option (EthernetTask × List Unit) :=
  match r with
  | .error _ => none
  | .ok a => some (f a, [])

/-- Any order of arrivals and steps of the task.
SOURCE: ethernetif.c:334-363, 400-406 -/
def machine : Machine EthernetTask Event Unit where
  step s
    | .arrival frame =>
      let k := frame.segments.length
      if (descsFrom s.rx.dmaRxDscrTab s.dmaRxDesc k).all RxDesc.own ∧ k ≤ ethRxBufNb then
        some ({ s with
          rx := { s.rx with
            dmaRxDscrTab := store frame.segments s.dmaRxDesc s.rx.dmaRxDscrTab }
          dmaRxDesc := ringNext^[k] s.dmaRxDesc
          notified := s.notified + 1 }, [])
      else none
    | .take =>
      match s.place with
      | .waiting =>
        if s.notified = 0 then some (s, [])
        else some ({ s with notified := 0, place := .scan }, [])
      | _ => none
    | .scan =>
      match s.place with
      | .scan =>
        afterCall (ethGetReceivedFrameInterrupt s.rx) fun r =>
          { s with rx := r.1, place := .copy r.2 }
      | _ => none
    | .copy pbufAlloc =>
      match s.place with
      | .copy frame =>
        afterCall (allocAndCopy pbufAlloc s.rx.dmaRxDscrTab frame) fun p =>
          { s with place := .release frame p }
      | _ => none
    | .release =>
      match s.place with
      | .release frame p =>
        afterCall (releaseFrame s.rx frame p) fun r =>
          { s with
            rx := r.rx
            place :=
              match r.p with
              | none => .waiting
              | some p => .input p }
      | _ => none
    | .input ok =>
      match s.place with
      | .input _ => some ({ s with place := if ok then .scan else .waiting }, [])
      | _ => none

end EthernetTask

end Resmod.Model
