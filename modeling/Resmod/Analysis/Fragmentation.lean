import Resmod.Library.Blocks
import Resmod.Analysis.Reception
import Resmod.Model.CanSlaveHardware

/-!
# Messages cut into frames, and put together again

Both overloads of `WaitForTransmission` cut a payload into pieces of eight bytes.  One
keeps the number of bytes that are left, the other computes it from the pointer that
moves: `transmitBuffer_eq` says that the two loops are the same computation, reads
included, and `value_transmitPayload` says which one, by the induction on the number of
iterations that carries all else.

In a program that checks parameters `CAN_Transmit` does not return for an identifier above
`0x7ff` once there is a mailbox for its frame: `handedOver` cuts the frames there.

The spec sheet is sent as one long message behind a header with two length bytes;
`spec_sheet_on_wire` puts the header, the loop and the slave together.
-/

set_option autoImplicit false

namespace Resmod.Analysis

open Resmod.Library Resmod.Model Resmod.Model.CanDriver

/-! ## The two loops -/

/-- A standard data frame with this payload. -/
def dataFrame (id : UInt32) (p : List UInt8) : CanTxMsg :=
  ⟨id, canIdStandard, canRtrData, p.length.toUInt8, p⟩

/-- **The loops agree.**  What the pointer leaves of the size is what is kept as remaining.
SOURCE: candriver.cc:107-151 -/
theorem transmitBuffer_eq (can : Peripheral) (id : UInt64) (buf : Bytes) (size : UInt32)
    (iterations i pcurrent : ℕ) :
    transmitBuffer can id buf size iterations i pcurrent =
      transmitPayload can id.toUInt32 buf iterations i pcurrent
        (size - pcurrent.toUInt32) := by
  induction iterations generalizing i pcurrent with
  | zero => rfl
  | succ iterations ih =>
    have hnext : ∀ dlc : UInt8, size - (pcurrent + dlc.toNat).toUInt32 =
        size - pcurrent.toUInt32 - dlc.toUInt32 := by
      intro dlc
      have hadd : (pcurrent + dlc.toNat).toUInt32 = pcurrent.toUInt32 + dlc.toUInt32 := by
        apply UInt32.toNat_inj.mp
        simp [UInt32.toNat_add]
      rw [hadd]
      grind
    rw [transmitBuffer, transmitPayload]
    simp only [ih, hnext]

/-- The number of iterations is the length of the payload over eight, rounded up. -/
theorem toNat_numIter (size : UInt32) : (numIter size).toNat = (size.toNat + 7) / 8 := by
  have hlt := size.toNat_lt
  have hmod : size % 8 = 0 ↔ size.toNat % 8 = 0 := by
    rw [← UInt32.toNat_inj, UInt32.toNat_mod]
    rfl
  have h8 : (8 : UInt32).toNat = 8 := rfl
  rw [numIter, UInt32.toNat_add, UInt32.toNat_div, h8]
  by_cases h : size % 8 = 0
  · rw [if_pos h, UInt32.toNat_zero]
    rw [hmod] at h
    omega
  · rw [if_neg h, UInt32.toNat_one]
    rw [hmod] at h
    omega

/-- The DLC of the next frame is what is left, up to eight. -/
theorem toNat_dlc (rem : UInt32) :
    (if rem > 8 then (8 : UInt8) else rem.toUInt8).toNat = min 8 rem.toNat := by
  have hgt : rem > 8 ↔ 8 < rem.toNat := UInt32.lt_iff_toNat_lt
  by_cases h : rem > 8
  · rw [if_pos h]
    rw [hgt] at h
    change 8 = min 8 rem.toNat
    omega
  · rw [if_neg h, UInt32.toNat_toUInt8]
    rw [hgt] at h
    omega

/-- The first `d` bytes of what is left are the first piece, when `d` is eight or all. -/
theorem pieces_read (dat : Bytes) {d r : ℕ} (hd : d = min 8 r) (hr : 0 < r) :
    pieces 8 (dat.read r) = dat.read d :: pieces 8 ((dat.from d).read (r - d)) := by
  have hsplit : dat.read r = dat.read d ++ (dat.from d).read (r - d) := by
    rw [← Bytes.read_add]
    congr 1
    omega
  by_cases hlong : 8 ≤ r
  · rw [hsplit, pieces_block_append (by decide) (by rw [Bytes.length_read]; omega)]
  · have hend : r - d = 0 := by omega
    have hall : d = r := by omega
    rw [hend, Bytes.read_zero, pieces_nil (by decide), hall]
    exact pieces_of_le (by rwa [Bytes.length_read]) (by rw [Bytes.length_read]; omega)

/-- The frames that are handed over, from iteration `i` on: those up to the first for which
`CAN_Transmit` does not return. -/
def handedOver (can : Peripheral) : ℕ → List CanTxMsg → List CanTxMsg
  | _, [] => []
  | i, tx :: frames => tx :: if can.returns i tx then handedOver can (i + 1) frames else []

/-- The lengths of a round: the next frame carries what is left up to eight bytes, and the
rest is left. -/
theorem toNat_rem_sub {rem : UInt32} {dlc : UInt8} (hdlc : dlc.toNat = min 8 rem.toNat) :
    (rem - dlc.toUInt32).toNat = rem.toNat - dlc.toNat := by
  rw [UInt32.toNat_sub_of_le, UInt8.toNat_toUInt32]
  rw [UInt32.le_iff_toNat_le, UInt8.toNat_toUInt32]
  omega

/-- **The loop lemma.**  With an iteration for every eight bytes that are left, the loop
hands over a frame for every piece of what is left, as long as `CAN_Transmit` returns.
SOURCE: candriver.cc:107-129 -/
theorem value_transmitPayload (can : Peripheral) (id : UInt32) (dat : Bytes)
    (iterations i dptr : ℕ) (rem : UInt32) (h : iterations = (rem.toNat + 7) / 8) :
    (transmitPayload can id dat iterations i dptr rem).value =
      handedOver can i ((pieces 8 ((dat.from dptr).read rem.toNat)).map (dataFrame id)) := by
  induction iterations generalizing i dptr rem with
  | zero =>
    have hzero : rem.toNat = 0 := by omega
    rw [hzero, Bytes.read_zero, pieces_nil (by decide)]
    rfl
  | succ iterations ih =>
    have hdlc := toNat_dlc rem
    rw [transmitPayload]
    generalize (if rem > 8 then (8 : UInt8) else rem.toUInt8) = dlc at hdlc
    have hsub := toNat_rem_sub hdlc
    have hfrom : dat.from ((dptr + dlc.toNat : ℕ) : ℤ) =
        (dat.from dptr).from (dlc.toNat : ℤ) := by
      rw [Bytes.from_from, Int.natCast_add]
    have hframe : dataFrame id ((dat.from dptr).read dlc.toNat) =
        ⟨id, canIdStandard, canRtrData, dlc, (dat.from dptr).read dlc.toNat⟩ := by
      simp [dataFrame]
    rw [pieces_read (dat.from dptr) hdlc (by omega), List.map_cons, handedOver, hframe,
      Traced.value_bind, Bytes.value_fetchRange]
    dsimp only
    split
    · rw [Traced.value_bind, ih (i + 1) (dptr + dlc.toNat) (rem - dlc.toUInt32) (by omega),
        hsub, hfrom]
      rfl
    · rfl

/-- The loop reads nothing but what is left.
SOURCE: candriver.cc:107-129 -/
theorem mem_log_transmitPayload (can : Peripheral) (id : UInt32) (dat : Bytes)
    (iterations i dptr : ℕ) (rem : UInt32) {j : ℤ}
    (hj : j ∈ (transmitPayload can id dat iterations i dptr rem).log) :
    (dptr : ℤ) ≤ j ∧ j < dptr + rem.toNat := by
  induction iterations generalizing i dptr rem with
  | zero => exact absurd hj List.not_mem_nil
  | succ iterations ih =>
    have hdlc := toNat_dlc rem
    rw [transmitPayload] at hj
    generalize (if rem > 8 then (8 : UInt8) else rem.toUInt8) = dlc at hdlc hj
    have hsub := toNat_rem_sub hdlc
    rw [Traced.log_bind, List.mem_append, Bytes.mem_log_fetchRange] at hj
    rcases hj with hj | hj
    · omega
    · dsimp only at hj
      split at hj
      · rw [Traced.log_bind, Traced.log_pure, List.append_nil] at hj
        have hrest := ih (i + 1) (dptr + dlc.toNat) (rem - dlc.toUInt32) hj
        omega
      · exact absurd hj List.not_mem_nil

/-- The frames that the overload for a buffer hands over. -/
theorem value_waitForTransmissionBuffer (can : Peripheral) (id : UInt64) (buf : Bytes)
    (size : UInt32) :
    (waitForTransmissionBuffer can id buf size).value =
      handedOver can 0 ((pieces 8 (buf.read size.toNat)).map (dataFrame id.toUInt32)) := by
  have hzero : size - Nat.toUInt32 0 = size := by simp
  rw [waitForTransmissionBuffer, transmitBuffer_eq, hzero]
  simpa using value_transmitPayload can id.toUInt32 buf _ 0 0 size (toNat_numIter size)

/-- Only bytes of the payload are read. -/
theorem mem_log_waitForTransmissionBuffer {can : Peripheral} {id : UInt64} {buf : Bytes}
    {size : UInt32} {j : ℤ} (hj : j ∈ (waitForTransmissionBuffer can id buf size).log) :
    0 ≤ j ∧ j < size.toNat := by
  have hzero : size - Nat.toUInt32 0 = size := by simp
  rw [waitForTransmissionBuffer, transmitBuffer_eq, hzero] at hj
  simpa using mem_log_transmitPayload can id.toUInt32 buf _ 0 0 size hj

/-- The overload for a `CanMessage` does the same with the payload as its buffer. -/
theorem waitForTransmission_eq (can : Peripheral) (pl : CanMessage) :
    waitForTransmission can pl =
      waitForTransmissionBuffer can pl.id.toUInt64 (Bytes.ofList pl.payload)
        pl.payload.length.toUInt32 := by
  have hzero : pl.payload.length.toUInt32 - Nat.toUInt32 0 = pl.payload.length.toUInt32 := by
    simp
  rw [waitForTransmissionBuffer, transmitBuffer_eq, hzero, UInt32.toUInt32_toUInt64]
  rfl

/-! ## Where the loops end -/

/-- `CAN_Transmit` does not return from iteration `n`. -/
def Halts (can : Peripheral) (id : UInt32) (n : ℕ) : Prop :=
  can.fullAssert = true ∧ can.mailBox n = true ∧ 0x7ff < id

/-- The data length code is the number of bytes. -/
theorem toNat_dlc_dataFrame (id : UInt32) {p : List UInt8} (hp : p.length ≤ 8) :
    (dataFrame id p).dlc.toNat = p.length :=
  UInt8.toNat_ofNat_of_lt (Nat.lt_of_le_of_lt hp (by decide))

/-- A frame of the driver passes all checks but that of its identifier. -/
theorem passes_dataFrame (id : UInt32) {p : List UInt8} (hp : p.length ≤ 8) (mailBox : Bool) :
    (dataFrame id p).passes mailBox = (!mailBox || decide (id ≤ 0x7ff)) := by
  have hdlc : (dataFrame id p).dlc ≤ 8 := by
    rw [UInt8.le_iff_toNat_le, toNat_dlc_dataFrame id hp]
    exact hp
  unfold CanTxMsg.passes
  rw [decide_eq_true hdlc]
  cases mailBox <;> rfl

/-- The call for a frame returns unless an assertion ends the program. -/
theorem returns_dataFrame (can : Peripheral) (id : UInt32) (n : ℕ) {p : List UInt8}
    (hp : p.length ≤ 8) : can.returns n (dataFrame id p) = true ↔ ¬ Halts can id n := by
  unfold Peripheral.returns Halts
  rw [passes_dataFrame id hp]
  cases can.fullAssert <;> cases can.mailBox n <;> simp

/-- Where no assertion fails, all frames are handed over. -/
theorem handedOver_of_not_halts {can : Peripheral} {id : UInt32} {i : ℕ}
    (h : ∀ n, i ≤ n → ¬ Halts can id n) {ps : List (List UInt8)}
    (hps : ∀ p ∈ ps, p.length ≤ 8) :
    handedOver can i (ps.map (dataFrame id)) = ps.map (dataFrame id) := by
  induction ps generalizing i with
  | nil => rfl
  | cons p ps ih =>
    have hp := List.forall_mem_cons.mp hps
    have hreturns := (returns_dataFrame can id i hp.1).mpr (h i le_rfl)
    rw [List.map_cons, handedOver, if_pos hreturns,
      ih (fun n hn => h n (by omega)) hp.2]

/-- The frames go up to that of the first iteration that does not return. -/
theorem handedOver_of_halts {can : Peripheral} {id : UInt32} {i k : ℕ}
    (h : ∀ n < k, ¬ Halts can id (i + n)) (hk : Halts can id (i + k))
    {ps : List (List UInt8)} (hps : ∀ p ∈ ps, p.length ≤ 8) :
    handedOver can i (ps.map (dataFrame id)) = (ps.map (dataFrame id)).take (k + 1) := by
  induction ps generalizing i k with
  | nil => rfl
  | cons p ps ih =>
    have hp := List.forall_mem_cons.mp hps
    have hreturns := returns_dataFrame can id i hp.1
    rw [List.map_cons, handedOver, List.take_succ_cons]
    cases k with
    | zero =>
      have hhalts : Halts can id i := hk
      rw [if_neg (fun hret => hreturns.mp hret hhalts), List.take_zero]
    | succ k =>
      have hnext : i + 1 + k = i + (k + 1) := by omega
      rw [if_pos (hreturns.mpr (h 0 (by omega))),
        ih (fun n hn => by simpa [Nat.add_assoc, Nat.add_comm 1 n] using h (n + 1) (by omega))
          (hnext ▸ hk) hp.2]

/-! ## The frames of a payload -/

/-- The frames are standard data frames with this id, all but the last of them full, none
of them empty, that carry the payload. -/
structure Fragments (id : UInt32) (payload : List UInt8) (frames : List CanTxMsg) :
    Prop where
  count : frames.length = (payload.length + 7) / 8
  header : ∀ f ∈ frames, f.stdId = id ∧ f.ide = canIdStandard ∧ f.rtr = canRtrData
  size : ∀ f ∈ frames, 1 ≤ f.dlc.toNat ∧ f.dlc.toNat ≤ 8 ∧ f.data.length = f.dlc.toNat
  full : ∀ f ∈ frames.dropLast, f.dlc = 8
  content : frames.flatMap (·.data) = payload

/-- The pieces of a payload are its fragments. -/
theorem fragments_pieces (id : UInt32) (payload : List UInt8) :
    Fragments id payload ((pieces 8 payload).map (dataFrame id)) where
  count := by rw [List.length_map, length_pieces]
  header := by
    intro f hf
    obtain ⟨p, -, rfl⟩ := List.mem_map.mp hf
    exact ⟨rfl, rfl, rfl⟩
  size := by
    intro f hf
    obtain ⟨p, hp, rfl⟩ := List.mem_map.mp hf
    have hlen := length_of_mem_pieces (by decide) hp
    rw [toNat_dlc_dataFrame id hlen.2]
    exact ⟨hlen.1, hlen.2, rfl⟩
  full := by
    intro f hf
    rw [← List.map_dropLast] at hf
    obtain ⟨p, hp, rfl⟩ := List.mem_map.mp hf
    have hlen := length_of_mem_dropLast_pieces (by decide) hp
    change p.length.toUInt8 = 8
    rw [hlen]
    rfl
  content := by
    rw [List.flatMap_map]
    exact List.flatMap_id'.trans (flatten_pieces (by decide) payload)

/-! ## Receiving the frames -/

/-- The mailbox holds the frame as it was received: a standard data frame with the number
and the bytes that were sent.  The filter index and what lies behind the bytes are
arbitrary. -/
structure Holds (mb : FIFOMailBox) (f : CanTxMsg) : Prop where
  standard : (0x04 : UInt32) &&& mb.rir = 0
  notRemote : (0x02 : UInt32) &&& mb.rir = 0
  stdId : (0x7ff : UInt32) &&& (mb.rir >>> 21) = 0x7ff &&& f.stdId
  dlc : (0x0f : UInt32) &&& mb.rdtr = f.dlc.toUInt32
  bytes : ∀ i, i < f.dlc.toNat → f.data[i]? = some (mb.dataByte i)

/-- The message is what `WaitForReception` makes of the frame, for some contents of its
variable and of the memory around it. -/
def ReceivedFrom (f : CanTxMsg) (m : CanMessage) : Prop :=
  ∃ rxmsg mb around, Holds mb f ∧ m = (waitForReception rxmsg mb around).value

/-- Receiving a frame gives back its data.
SOURCE: candriver.cc:152-171, stm32f4xx_can.c:749-790 -/
theorem payload_of_receivedFrom {f : CanTxMsg} {m : CanMessage} (h : ReceivedFrom f m)
    (hdlc : f.dlc.toNat ≤ 8) (hlen : f.data.length = f.dlc.toNat) : m.payload = f.data := by
  obtain ⟨rxmsg, mb, around, hholds, rfl⟩ := h
  have hsize : (canReceive mb { rxmsg with ide := canIdStandard }).dlc = f.dlc := by
    change ((0x0f : UInt32) &&& mb.rdtr).toUInt8 = f.dlc
    rw [hholds.dlc]
    simp
  simp only [waitForReception, Traced.value_bind, Bytes.value_fetchRange, Traced.value_pure,
    hsize, Bytes.from_zero]
  apply List.ext_getElem?
  intro i
  by_cases hi : i < f.dlc.toNat
  · rw [hholds.bytes i hi]
    have hbyte := canReceive_bytes_of_lt mb { rxmsg with ide := canIdStandard } around
      (show i < 8 by omega)
    simp [Bytes.read, hi, hbyte]
  · rw [List.getElem?_eq_none (by rw [Bytes.length_read]; omega),
      List.getElem?_eq_none (by omega)]

/-- Receiving the frames one by one gives back all of their data. -/
theorem payloads_of_receivedFrom {frames : List CanTxMsg} {received : List CanMessage}
    (h : List.Forall₂ ReceivedFrom frames received)
    (hsize : ∀ f ∈ frames, f.dlc.toNat ≤ 8 ∧ f.data.length = f.dlc.toNat) :
    received.flatMap (·.payload) = frames.flatMap (·.data) := by
  induction h with
  | nil => rfl
  | cons hfm _ ih =>
    rw [List.forall_mem_cons] at hsize
    rw [List.flatMap_cons, List.flatMap_cons, ih hsize.2,
      payload_of_receivedFrom hfm hsize.1.1 hsize.1.2]

/-- **Transmission and reception.**  For every payload the two overloads hand the same frames
to `CAN_Transmit` and read nothing outside of the payload.  These are the fragments of the
payload, which give it back when they are received one by one: all of them when
`CAN_Transmit` returns from every iteration, and those up to the first from which it does
not.
SOURCE: candriver.cc:107-171, stm32f4xx_can.c:576-639 -/
theorem transmission_roundtrip (can : Peripheral) (id : UInt32) (payload : List UInt8)
    (hlen : payload.length < 2 ^ 32) (buf : Bytes)
    (hbuf : buf.read payload.length = payload) :
    (waitForTransmission can ⟨id, payload⟩).value =
      (waitForTransmissionBuffer can id.toUInt64 buf payload.length.toUInt32).value ∧
    (∀ i ∈ (waitForTransmission can ⟨id, payload⟩).log ++
      (waitForTransmissionBuffer can id.toUInt64 buf payload.length.toUInt32).log,
      0 ≤ i ∧ i < payload.length) ∧
    ∃ frames, Fragments id payload frames ∧
      (∀ received, List.Forall₂ ReceivedFrom frames received →
        received.flatMap (·.payload) = payload) ∧
      ((∀ n, ¬ Halts can id n) → (waitForTransmission can ⟨id, payload⟩).value = frames) ∧
      ∀ n, Halts can id n → (∀ k < n, ¬ Halts can id k) →
        (waitForTransmission can ⟨id, payload⟩).value = frames.take (n + 1) := by
  have hsize : payload.length.toUInt32.toNat = payload.length :=
    UInt32.toNat_ofNat_of_lt hlen
  have hfirst : (waitForTransmission can ⟨id, payload⟩).value =
      handedOver can 0 ((pieces 8 payload).map (dataFrame id)) := by
    rw [waitForTransmission_eq, value_waitForTransmissionBuffer, hsize, Bytes.read_ofList,
      UInt32.toUInt32_toUInt64]
  have hsecond : (waitForTransmissionBuffer can id.toUInt64 buf payload.length.toUInt32).value =
      handedOver can 0 ((pieces 8 payload).map (dataFrame id)) := by
    rw [value_waitForTransmissionBuffer, hsize, hbuf, UInt32.toUInt32_toUInt64]
  have hpieces : ∀ p ∈ pieces 8 payload, p.length ≤ 8 :=
    fun p hp => (length_of_mem_pieces (by decide) hp).2
  have hfrag := fragments_pieces id payload
  refine ⟨hfirst.trans hsecond.symm, ?_, _, hfrag, ?_, ?_, ?_⟩
  · intro i hi
    rw [waitForTransmission_eq] at hi
    rcases List.mem_append.mp hi with h | h
    · have hrange := mem_log_waitForTransmissionBuffer h
      dsimp only at hrange
      omega
    · have hrange := mem_log_waitForTransmissionBuffer h
      omega
  · intro received hreceived
    rw [payloads_of_receivedFrom hreceived fun f hf => (hfrag.size f hf).2, hfrag.content]
  · intro hreturns
    rw [hfirst, handedOver_of_not_halts (fun n _ => hreturns n) hpieces]
  · intro n hn hbefore
    rw [hfirst]
    exact handedOver_of_halts (by simpa using hbefore) (by simpa using hn) hpieces

/-- Nine bytes are sent in two frames by a program that checks parameters, and received from
two mailboxes. -/
theorem transmission_roundtrip_nine :
    (waitForTransmission ⟨true, fun _ => true⟩ ⟨5, [1, 2, 3, 4, 5, 6, 7, 8, 9]⟩).value =
      (waitForTransmissionBuffer ⟨true, fun _ => true⟩ 5
        (Bytes.ofList [1, 2, 3, 4, 5, 6, 7, 8, 9]) 9).value ∧
    (∀ i ∈ (waitForTransmission ⟨true, fun _ => true⟩ ⟨5, [1, 2, 3, 4, 5, 6, 7, 8, 9]⟩).log ++
      (waitForTransmissionBuffer ⟨true, fun _ => true⟩ 5
        (Bytes.ofList [1, 2, 3, 4, 5, 6, 7, 8, 9]) 9).log, 0 ≤ i ∧ i < 9) ∧
    Fragments 5 [1, 2, 3, 4, 5, 6, 7, 8, 9] (waitForTransmission ⟨true, fun _ => true⟩
      ⟨5, [1, 2, 3, 4, 5, 6, 7, 8, 9]⟩).value ∧
    [(waitForReception ⟨0, 0, 0, 0, 0, Vector.replicate 8 0, 0⟩
        ⟨0xa00000, 8, 0x04030201, 0x08070605⟩ fun _ => 0).value,
      (waitForReception ⟨0, 0, 0, 0, 0, Vector.replicate 8 0, 0⟩
        ⟨0xa00000, 1, 9, 0⟩ fun _ => 0).value].flatMap (·.payload) =
      [1, 2, 3, 4, 5, 6, 7, 8, 9] := by
  obtain ⟨hsame, hreads, frames, hfrag, hreceived, hall, -⟩ :=
    transmission_roundtrip ⟨true, fun _ => true⟩ 5 [1, 2, 3, 4, 5, 6, 7, 8, 9] (by decide)
      (Bytes.ofList [1, 2, 3, 4, 5, 6, 7, 8, 9]) rfl
  have hframes := hall fun n h => absurd h.2.2 (by decide)
  subst hframes
  refine ⟨hsame, hreads, hfrag, hreceived _ (.cons ?_ (.cons ?_ .nil))⟩
  · exact ⟨_, _, _, ⟨by decide, by decide, by decide, by decide, by decide⟩, rfl⟩
  · exact ⟨_, _, _, ⟨by decide, by decide, by decide, by decide, by decide⟩, rfl⟩

/-- Nine bytes for an identifier of twelve bits: with the checks `CAN_Transmit` does not return
from the first frame, in both overloads. -/
theorem not_transmission_roundtrip_checked :
    ¬ Fragments 0x800 [1, 2, 3, 4, 5, 6, 7, 8, 9]
        (waitForTransmission ⟨true, fun _ => true⟩
          ⟨0x800, [1, 2, 3, 4, 5, 6, 7, 8, 9]⟩).value ∧
      ¬ Fragments 0x800 [1, 2, 3, 4, 5, 6, 7, 8, 9]
        (waitForTransmissionBuffer ⟨true, fun _ => true⟩ 0x800
          (Bytes.ofList [1, 2, 3, 4, 5, 6, 7, 8, 9]) 9).value :=
  ⟨fun h => absurd h.count (by decide), fun h => absurd h.count (by decide)⟩

/-! ## The spec sheet -/

/-- The frames of a program that does not check parameters. -/
theorem value_unchecked (id : UInt64) (buf : Bytes) (size : UInt32) :
    (waitForTransmissionBuffer .unchecked id buf size).value =
      (pieces 8 (buf.read size.toNat)).map (dataFrame id.toUInt32) := by
  rw [value_waitForTransmissionBuffer]
  exact handedOver_of_not_halts (fun n _ h => absurd h.1 Bool.false_ne_true)
    fun p hp => (length_of_mem_pieces (by decide) hp).2

/-- The overload for a message makes the same fragments. -/
theorem fragments_writeMessage (m : Message) (hlen : m.dat.length < 2 ^ 32) :
    Fragments m.id m.dat (writeMessage m) := by
  have hsize : m.dat.length.toUInt32.toNat = m.dat.length := UInt32.toNat_ofNat_of_lt hlen
  rw [writeMessage, value_unchecked, hsize, Bytes.read_ofList, UInt32.toUInt32_toUInt64]
  exact fragments_pieces m.id m.dat

/-- Every message of the slave has an identifier of eight bits. -/
theorem id_of_messages_step {s s' : CanSlave} {c : CanSlave.Call} {o : List Effect}
    (hstep : CanSlave.machine.step s c = some (s', o)) {m : Message} (hm : m ∈ messages o) :
    m.id ≤ 0xff := by
  have hcanid : s.getCanID ≤ 0xff := by
    rw [UInt32.le_iff_toNat_le, CanSlave.getCanID, UInt8.toNat_toUInt32]
    exact Nat.le_of_lt_succ s.canid.toNat_lt
  rcases messages_step hstep hm with ⟨_, _, _, _, -, rfl⟩ | ⟨o', hans, hm⟩
  · show (1 : UInt32) ≤ 0xff
    decide
  · cases hans with
    | requestTable =>
      obtain rfl := List.mem_singleton.mp hm
      show (1 : UInt32) ≤ 0xff
      decide
    | silent => exact absurd hm List.not_mem_nil
    | specSheet =>
      obtain rfl := List.mem_singleton.mp hm
      exact hcanid
    | channelData =>
      obtain rfl := List.mem_singleton.mp hm
      exact hcanid

/-- **The slave meets no check.**  The frames of its messages are those that every program
hands over, with parameter checks or without.
SOURCE: canslavehardware.cc:38-43, stm32f4xx_can.c:576-639 -/
theorem writeMessage_eq_of_step {s s' : CanSlave} {c : CanSlave.Call} {o : List Effect}
    (hstep : CanSlave.machine.step s c = some (s', o)) {m : Message} (hm : m ∈ messages o)
    (can : Peripheral) :
    writeMessage m = (waitForTransmissionBuffer can m.id.toUInt64 (Bytes.ofList m.dat)
      m.dat.length.toUInt32).value := by
  have hid := id_of_messages_step hstep hm
  rw [writeMessage, value_unchecked, value_waitForTransmissionBuffer]
  refine (handedOver_of_not_halts (fun n _ h => ?_) fun p hp =>
    (length_of_mem_pieces (by decide) hp).2).symm
  have hlong := h.2.2
  rw [UInt32.toUInt32_toUInt64] at hlong
  exact absurd (UInt32.lt_of_lt_of_le hlong hid) (by decide)

/-- The two length bytes of the header hold a length of less than `2 ^ 16`. -/
theorem toNat_header (n : ℕ) (hn : n < 65536) :
    n.toUInt32.toUInt8.toNat + 256 * (n.toUInt32 >>> 8).toUInt8.toNat = n := by
  have hshift : (n.toUInt32 >>> 8).toNat = n.toUInt32.toNat / 2 ^ 8 := by
    rw [UInt32.toNat_shiftRight, Nat.shiftRight_eq_div_pow]
    rfl
  rw [UInt32.toNat_toUInt8, UInt32.toNat_toUInt8, hshift, Nat.toUInt32_eq,
    UInt32.toNat_ofNat']
  omega

/-- **The spec sheet on the wire.**  A request for a sheet of less than `2 ^ 16` bytes makes
the slave send frames on its own id which, put together, are the command, the length of
the sheet in two bytes, and the sheet.
SOURCE: canslave.cc:202-235, candriver.cc:130-151, canslavehardware.cc:38-43 -/
theorem spec_sheet_on_wire (s : CanSlave) (hext : s.extratable = false)
    (hw : CanSlaveHardware) (hL : hw.getSpecSheet.length < 65536) (dat : Bytes)
    (hcmd : dat 0 = cmdReqSpecSheet) (size : UInt32) :
    ∃ o lo hi, CanSlave.machine.step s (.rxData hw s.getCanID dat size) = some (s, o) ∧
      (∀ f ∈ transmitted o, f.stdId = s.getCanID ∧ 1 ≤ f.dlc.toNat ∧ f.dlc.toNat ≤ 8 ∧
        f.data.length = f.dlc.toNat) ∧
      (transmitted o).flatMap (·.data) = cmdSendSpecSheet :: lo :: hi :: hw.getSpecSheet ∧
      lo.toNat + 256 * hi.toNat = hw.getSpecSheet.length := by
  have hstep := step_of_reqSpecSheet hext hw hcmd size
  have hlen := hw.getSpecSheet_lt
  let m : Message := ⟨s.getCanID,
    cmdSendSpecSheet :: hw.getSpecSheet.length.toUInt32.toUInt8 ::
      (hw.getSpecSheet.length.toUInt32 >>> 8).toUInt8 :: hw.getSpecSheet⟩
  have hsent : transmitted (CanSlave.sendSpecSheet hw s) = writeMessage m :=
    List.append_nil _
  have hfrag := fragments_writeMessage m (by simpa [m, Nat.add_assoc] using hlen)
  refine ⟨_, _, _, hstep, ?_, ?_, toNat_header _ hL⟩
  · intro f hf
    rw [hsent] at hf
    exact ⟨(hfrag.header f hf).1, hfrag.size f hf⟩
  · rw [hsent, hfrag.content]

/-- The shipped sheet, requested from a slave with address 45. -/
theorem spec_sheet_on_wire_shipped :
    ∃ o lo hi, CanSlave.machine.step ⟨45, false, 0, []⟩
        (.rxData (blackBoxCanSlaveHardware 0) 45 (Bytes.ofList [6]) 1) =
          some (⟨45, false, 0, []⟩, o) ∧
      (∀ f ∈ transmitted o, f.stdId = 45 ∧ 1 ≤ f.dlc.toNat ∧ f.dlc.toNat ≤ 8 ∧
        f.data.length = f.dlc.toNat) ∧
      (transmitted o).flatMap (·.data) = cmdSendSpecSheet :: lo :: hi :: ssheet ∧
      lo.toNat + 256 * hi.toNat = ssheet.length := by
  have hlen : (blackBoxCanSlaveHardware 0).getSpecSheet.length = 197 := rfl
  exact spec_sheet_on_wire ⟨45, false, 0, []⟩ rfl (blackBoxCanSlaveHardware 0) (by omega)
    (Bytes.ofList [6]) rfl 1

end Resmod.Analysis
