import Resmod.Model.FlowController

/-!
# The consumer behind the flow controller

`ConsumerBase` of `flowcontroller.h` with any state of its own, and `Push` as it runs against
one.  The consumer's functions are arbitrary; `IsReady` is what tells whether it is ready.
Every `Transmit` is logged with the answer `IsReady` had for the moment it was made.

`BlockTillReady` may never return, and a `Push` that waits for it then never returns either.
-/

set_option autoImplicit false

namespace Resmod.Model

open Resmod.Library

/-- An implementation of `ConsumerBase` with states `σ`, in a world that makes the changes `ε`
to it.  The results of `Transmit` and of `BlockTillReady` are not looked at by the flow
controller.
SOURCE: lib/adara/flowcontroller.h:35-49 -/
structure Consumer (σ ε : Type*) where
  MaxPacketSize : UInt32
  Transmit : List UInt8 → σ → σ
  IsReady : σ → Bool × σ
  /-- The state on return, or `none` when it does not return. -/
  BlockTillReady : UInt32 → σ → Option σ
  elapse : ε → σ → σ

namespace Consumer

variable {σ ε : Type*}

/-- The consumer would say that it is ready. -/
def Ready (c : Consumer σ ε) (s : σ) : Prop := (c.IsReady s).1 = true

/-- A call of `Transmit`, and whether the consumer was ready for it. -/
structure Transmission where
  b : List UInt8
  ready : Bool
  deriving DecidableEq, Repr

/-- A part of a call: what it transmits, and its result if it comes back. -/
abbrev Outgoing (α : Type*) := List Transmission × Option α

/-- One part of a call after the other. -/
def Outgoing.andThen {α β : Type*} (r : Outgoing α) (f : α → Outgoing β) : Outgoing β :=
  match r.2 with
  | none => (r.1, none)
  | some a => (r.1 ++ (f a).1, (f a).2)

/-- A part of a call that leaves the consumer alone. -/
def Outgoing.silent {α : Type*} (a : α) : Outgoing α := ([], some a)

/-- A call that does not come back. -/
def Outgoing.stuck {α : Type*} : Outgoing α := ([], none)

/-- The default timeout of `BlockTillReady`. -/
def defaultTimeout : UInt32 := ~~~0

variable (c : Consumer σ ε)

/-- SOURCE: lib/adara/flowcontroller.cc:72-76 -/
def waitIfRequired (s : σ) : Option σ :=
  if (c.IsReady s).1 = false then c.BlockTillReady defaultTimeout (c.IsReady s).2
  else some (c.IsReady s).2

/-- `consumer_.Transmit(b, maxpacket); WaitIfRequired();` -/
def send (b : List UInt8) (s : σ) : Outgoing σ :=
  ([⟨b, (c.IsReady s).1⟩], waitIfRequired c (c.Transmit b s))

/-- The loop of `Push` over `iter` whole packets, with the read pointer after it. -/
def transmitWhole : ℕ → Bytes → σ → Outgoing (Bytes × σ)
  | 0, pb, s => .silent (pb, s)
  | iter + 1, pb, s =>
    (send c (pb.read c.MaxPacketSize.toNat) s).andThen fun s' =>
      transmitWhole iter (pb.from c.MaxPacketSize.toNat) s'

/-- A copy that leaves the storage leaves data members `wild`. -/
def copyOr (wild : FlowController c.MaxPacketSize)
    (r : Except Fault (FlowController c.MaxPacketSize)) : FlowController c.MaxPacketSize :=
  match r with
  | .ok fc => fc
  | .error _ => wild

/-- The pending bytes filled up, as far as the size goes.  The count is raised before it is
used as the place to copy to. -/
def filled (wild fc : FlowController c.MaxPacketSize) (pb : Bytes) (srequired : UInt32) :
    FlowController c.MaxPacketSize :=
  let fc := { fc with extrasize := fc.extrasize + srequired }
  copyOr c wild (fc.copyTo fc.extrasize.toNat (pb.read srequired.toNat))

/-- The first part of `Push`, with what is left of the size. -/
def fillExtra (wild fc : FlowController c.MaxPacketSize) (pb : Bytes) (size : UInt32) (s : σ) :
    Outgoing (FlowController c.MaxPacketSize × UInt32 × σ) :=
  if 0 < fc.extrasize then
    let srequired := min size (c.MaxPacketSize - fc.extrasize)
    let fc := filled c wild fc pb srequired
    if fc.extrasize = c.MaxPacketSize then
      (send c fc.extrastorage s).andThen fun s' => .silent (fc, size - srequired, s')
    else .silent (fc, size - srequired, s)
  else .silent (fc, size, s)

/-- The end of `Push`: what does not fill a packet is kept. -/
def keepExtra (wild fc : FlowController c.MaxPacketSize) (pb : Bytes) (extra : UInt32) :
    FlowController c.MaxPacketSize :=
  if 0 < extra then
    copyOr c wild ({ fc with extrasize := extra }.copyTo 0 (pb.read extra.toNat))
  else fc

/-- `Push`, against this consumer.  A division by a packet size of 0 does not come back.
SOURCE: lib/adara/flowcontroller.cc:39-67 -/
def push (wild fc : FlowController c.MaxPacketSize) (b : Bytes) (size : UInt32) (s : σ) :
    Outgoing (FlowController c.MaxPacketSize × σ) :=
  (fillExtra c wild fc b size s).andThen fun (fc, size, s) =>
    if c.MaxPacketSize = 0 then .stuck
    else
      (transmitWhole c (size / c.MaxPacketSize).toNat b s).andThen fun (pb, s) =>
        .silent (keepExtra c wild fc pb (size % c.MaxPacketSize), s)

/-- A call from outside, or something that the consumer does by itself. -/
inductive Call (c : Consumer σ ε)
  | push (wild : FlowController c.MaxPacketSize) (b : Bytes) (size : UInt32)
  | purge
  | elapse (e : ε)

/-- The flow controller and its consumer, driven by calls of the public interface.  Behind a
call that does not return there is no further one. -/
def machine : Machine (Option (FlowController c.MaxPacketSize × σ)) (Call c) Transmission where
  step
    | none, _ => none
    | some (fc, s), .push wild b size =>
      let r := push c wild fc b size s
      some (r.2, r.1)
    | some (fc, s), .purge => some (some (fc.purge, s), [])
    | some (fc, s), .elapse e => some (some (fc, c.elapse e s), [])

end Consumer

end Resmod.Model
