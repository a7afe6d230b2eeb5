import Resmod.Library.Machine
import Resmod.Model.Memory

/-!
# The flow controller

The class `FlowController` of `flowcontroller.cc`: bytes are pushed in buffers of any
size and handed to a consumer in packets of the size it asks for.  What does not fill a
packet is kept in `extrastorage_` until the next push.

The consumer is an interface, and its packet size is a parameter of everything here.
`IsReady` has no influence on what is sent, so a call carries the answers it will give.
-/

set_option autoImplicit false

namespace Resmod.Model

open Resmod.Library

/-- What a flow controller calls on its consumer. -/
inductive ConsumerCall
  | transmit (b : List UInt8)
  | isReady
  | blockTillReady
  deriving DecidableEq, Repr

/-- The data members of `FlowController`, for a consumer with this `MaxPacketSize`.  The
constructor allocates one packet of storage. -/
@[ext] structure FlowController (maxpacket : UInt32) where
  extrastorage : List UInt8
  extrasize : UInt32
  length_extrastorage : extrastorage.length = maxpacket.toNat

namespace FlowController

variable {maxpacket : UInt32}

/-- The object the constructor leaves: the storage is allocated and not initialised. -/
def construct (storage : List UInt8) (h : storage.length = maxpacket.toNat) :
    FlowController maxpacket := ⟨storage, 0, h⟩

/-- `std::copy` of the bytes to `&extrastorage_[pos]`. -/
def copyTo (fc : FlowController maxpacket) (pos : ℕ) (bytes : List UInt8) :
    Except Fault (FlowController maxpacket) :=
  if h : pos + bytes.length ≤ fc.extrastorage.length then
    .ok { fc with
      extrastorage := fc.extrastorage.take pos ++ bytes ++
        fc.extrastorage.drop (pos + bytes.length)
      length_extrastorage := by
        have hlen := fc.length_extrastorage
        simp only [List.length_append, List.length_take, List.length_drop]
        omega }
  else .error .writeOutOfBounds

/-- The consumer is asked whether it is ready, and waited for if it is not. -/
def waitIfRequired (ready : Bool) : List ConsumerCall :=
  .isReady :: if ready = false then [.blockTillReady] else []

/-- The first part of `Push`: what is pending is filled up to a packet.  The count is
raised before it is used as the place to copy to, and the read pointer stays where it is.
The second component is what is left of the size. -/
def fillExtra (ready : Bool) (fc : FlowController maxpacket) (pb : Bytes) (s : UInt32) :
    Except Fault (FlowController maxpacket × UInt32 × List ConsumerCall) :=
  if 0 < fc.extrasize then do
    let srequired := min s (maxpacket - fc.extrasize)
    let fc := { fc with extrasize := fc.extrasize + srequired }
    let s := s - srequired
    let fc ← fc.copyTo fc.extrasize.toNat (pb.read srequired.toNat)
    if fc.extrasize = maxpacket then
      pure (fc, s, .transmit fc.extrastorage :: waitIfRequired ready)
    else pure (fc, s, [])
  else pure (fc, s, [])

/-- The loop of `Push` over the whole packets of the caller's buffer: `iter` more packets,
`i` have been sent.  The second component is the read pointer after it. -/
def transmitWhole (maxpacket : UInt32) (ready : ℕ → Bool) :
    ℕ → ℕ → Bytes → List ConsumerCall × Bytes
  | 0, _, pb => ([], pb)
  | iter + 1, i, pb =>
    let r := transmitWhole maxpacket ready iter (i + 1) (pb.from maxpacket.toNat)
    (.transmit (pb.read maxpacket.toNat) :: (waitIfRequired (ready (i + 1)) ++ r.1), r.2)

/-- `Push`.  `ready 0` is what `IsReady` answers after the packet that was pending, and
`ready (i + 1)` after whole packet `i`. -/
def push (ready : ℕ → Bool) (fc : FlowController maxpacket) (b : Bytes) (size : UInt32) :
    Except Fault (FlowController maxpacket × List ConsumerCall) := do
  let (fc, s, filled) ← fillExtra (ready 0) fc b size
  if maxpacket = 0 then .error .divisionByZero
  else
    let iter := s / maxpacket
    let extra := s % maxpacket
    let whole := transmitWhole maxpacket ready iter.toNat 0 b
    if 0 < extra then do
      let fc ← { fc with extrasize := extra }.copyTo 0 (whole.2.read extra.toNat)
      pure (fc, filled ++ whole.1)
    else pure (fc, filled ++ whole.1)

/-- The bytes that are pending are dropped. -/
def purge (fc : FlowController maxpacket) : FlowController maxpacket :=
  { fc with extrasize := 0 }

/-- A call, with the answers of the consumer. -/
inductive Call
  | push (ready : ℕ → Bool) (b : Bytes) (size : UInt32)
  | purge

/-- The flow controller, driven by calls of its public interface. -/
def machine (maxpacket : UInt32) : Machine (FlowController maxpacket) Call ConsumerCall where
  step fc
    | .push ready b size => (fc.push ready b size).toOption
    | .purge => some (fc.purge, [])

end FlowController

end Resmod.Model
