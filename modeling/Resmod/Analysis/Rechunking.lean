import Resmod.Library.Blocks
import Resmod.Model.FlowController

/-!
# What the flow controller makes of the byte stream

The consumer is meant to see the pushed bytes cut into packets, whatever the buffers they
were pushed in.  `stream` is the controller with the history this is about, and
`Rechunks` says it of one step: packets are full, less than a packet is pending, and what
was sent or dropped, followed by what is pending, is what was pushed; and the packets
since the last `Purge` are the blocks of the bytes pushed since.

`Push` gets this right for a buffer that is pushed while nothing is pending.  The part
that fills up a pending packet raises the count before it copies and does not move the
read pointer; `rechunks_of_nothing_pending` is about the runs that never come to it.
-/

set_option autoImplicit false

namespace Resmod.Analysis

open Resmod.Library Resmod.Model Resmod.Model.FlowController

variable {maxpacket : UInt32}

/-- What was passed to the consumer. -/
def packets (o : List ConsumerCall) : List (List UInt8) :=
  o.filterMap fun
    | .transmit b => some b
    | _ => none

/-- The bytes that wait for the next push. -/
def pending (fc : FlowController maxpacket) : List UInt8 :=
  fc.extrastorage.take fc.extrasize.toNat

/-- Nothing is transmitted. -/
@[simp] theorem packets_nil : packets [] = [] := rfl

/-- A wait transmits nothing. -/
@[simp] theorem packets_waitIfRequired_append (ready : Bool) (o : List ConsumerCall) :
    packets (waitIfRequired ready ++ o) = packets o := by
  cases ready <;> rfl

/-- A packet is transmitted. -/
@[simp] theorem packets_transmit_cons (b : List UInt8) (o : List ConsumerCall) :
    packets (.transmit b :: o) = b :: packets o := rfl

/-! ## One push -/

/-- **The loop lemma.**  The loop over the whole packets sends the blocks of the buffer,
and leaves the read pointer at what is behind them.
SOURCE: flowcontroller.cc:57-60 -/
theorem transmitWhole_eq (hm : 0 < maxpacket.toNat) (ready : ℕ → Bool) {extra : ℕ}
    (hextra : extra < maxpacket.toNat) (iter i : ℕ) (pb : Bytes) :
    packets (transmitWhole maxpacket ready iter i pb).1 =
        blocks maxpacket.toNat (pb.read (iter * maxpacket.toNat + extra)) ∧
      (transmitWhole maxpacket ready iter i pb).2.read extra =
        rest maxpacket.toNat (pb.read (iter * maxpacket.toNat + extra)) := by
  induction iter generalizing i pb with
  | zero =>
    have hlt : (pb.read extra).length < maxpacket.toNat := by
      rw [Bytes.length_read]
      exact hextra
    simp [transmitWhole, blocks_of_lt hlt, rest_of_lt hlt]
  | succ iter ih =>
    obtain ⟨hpackets, hrest⟩ := ih (i + 1) (pb.from maxpacket.toNat)
    have hlen := Bytes.length_read pb maxpacket.toNat
    have hsplit : pb.read ((iter + 1) * maxpacket.toNat + extra) =
        pb.read maxpacket.toNat ++
          (pb.from maxpacket.toNat).read (iter * maxpacket.toNat + extra) := by
      rw [← Bytes.read_add]
      congr 1
      rw [Nat.succ_mul]
      omega
    rw [hsplit, blocks_block_append hm hlen, rest_block_append hm hlen]
    simp only [transmitWhole, packets_transmit_cons, packets_waitIfRequired_append]
    exact ⟨by rw [hpackets], hrest⟩

/-- A copy that fits succeeds, and what it wrote to the front is what is there. -/
theorem copyTo_zero {fc : FlowController maxpacket} {bytes : List UInt8}
    (h : bytes.length ≤ maxpacket.toNat) :
    ∃ fc', fc.copyTo 0 bytes = .ok fc' ∧ fc'.extrasize = fc.extrasize ∧
      fc'.extrastorage.take bytes.length = bytes := by
  have hfits : 0 + bytes.length ≤ fc.extrastorage.length := by
    rw [fc.length_extrastorage]
    omega
  exact ⟨_, dif_pos hfits, rfl, by simp⟩

/-- **A push while nothing is pending** sends the blocks of the buffer and keeps the rest.
SOURCE: flowcontroller.cc:39-67 -/
theorem push_of_extrasize_eq_zero (hm : 0 < maxpacket) (ready : ℕ → Bool)
    {fc : FlowController maxpacket} (hextra : fc.extrasize = 0) (b : Bytes) (size : UInt32) :
    ∃ fc' o, fc.push ready b size = .ok (fc', o) ∧ fc'.extrasize < maxpacket ∧
      packets o = blocks maxpacket.toNat (b.read size.toNat) ∧
      pending fc' = rest maxpacket.toNat (b.read size.toNat) := by
  have hm' : 0 < maxpacket.toNat := UInt32.lt_iff_toNat_lt.mp hm
  have hne : maxpacket ≠ 0 := fun h => by simp [h] at hm
  have hmod : (size % maxpacket).toNat < maxpacket.toNat := by
    rw [UInt32.toNat_mod]
    exact Nat.mod_lt _ hm'
  have hsize : (size / maxpacket).toNat * maxpacket.toNat + (size % maxpacket).toNat =
      size.toNat := by
    rw [UInt32.toNat_div, UInt32.toNat_mod]
    exact Nat.div_add_mod' _ _
  obtain ⟨hpackets, hrest⟩ := transmitWhole_eq hm' ready hmod (size / maxpacket).toNat 0 b
  rw [hsize] at hpackets hrest
  have hfill : fillExtra (ready 0) fc b size = .ok (fc, size, []) := by
    unfold fillExtra
    rw [if_neg (by simp [hextra])]
    rfl
  by_cases hzero : 0 < size % maxpacket
  · obtain ⟨fc', hcopy, hsame, hfront⟩ := @copyTo_zero _ { fc with extrasize := size % maxpacket }
      ((transmitWhole maxpacket ready (size / maxpacket).toNat 0 b).2.read
        (size % maxpacket).toNat) (by rw [Bytes.length_read]; omega)
    refine ⟨fc', _, ?_, ?_, hpackets, ?_⟩
    · simp only [push, hfill, bind, Except.bind, if_neg hne, if_pos hzero, hcopy]
      rfl
    · rw [hsame]
      exact UInt32.lt_iff_toNat_lt.mpr hmod
    · rw [Bytes.length_read] at hfront
      rw [pending, hsame, hfront, hrest]
  · refine ⟨fc, _, ?_, by rw [hextra]; exact hm, hpackets, ?_⟩
    · simp only [push, hfill, bind, Except.bind, if_neg hne, if_neg hzero]
      rfl
    · have hnone : (size % maxpacket).toNat = 0 := by
        rw [UInt32.lt_iff_toNat_lt] at hzero
        simpa using hzero
      rw [hnone, Bytes.read_zero] at hrest
      simp [pending, hextra, ← hrest]

/-- An empty push changes nothing while less than a packet is pending. -/
theorem push_of_size_eq_zero (ready : ℕ → Bool) {fc : FlowController maxpacket}
    (hlt : fc.extrasize < maxpacket) (b : Bytes) : fc.push ready b 0 = .ok (fc, []) := by
  have hne : maxpacket ≠ 0 := fun h => by simp [h] at hlt
  have hfill : fillExtra (ready 0) fc b 0 = .ok (fc, 0, []) := by
    unfold fillExtra
    by_cases hextra : 0 < fc.extrasize
    · have hmin : min 0 (maxpacket - fc.extrasize) = 0 := by
        rw [Std.min_eq_if]
        simp
      have hcopy : fc.copyTo fc.extrasize.toNat [] = .ok fc := by
        have hfits : fc.extrasize.toNat + ([] : List UInt8).length ≤
            fc.extrastorage.length := by
          rw [fc.length_extrastorage]
          exact Nat.le_of_lt (UInt32.lt_iff_toNat_lt.mp hlt)
        rw [copyTo, dif_pos hfits]
        congr 1
        ext1 <;> simp
      have hnofull : fc.extrasize ≠ maxpacket := fun h => by simp [h] at hlt
      rw [if_pos hextra]
      simp only [hmin, UInt32.add_zero, UInt32.sub_zero, UInt32.toNat_zero, Bytes.read_zero,
        hcopy, bind, Except.bind, if_neg hnofull]
      rfl
    · rw [if_neg hextra]
      rfl
  simp only [push, hfill, bind, Except.bind, if_neg hne, UInt32.zero_div, UInt32.zero_mod]
  rfl

/-! ## Runs -/

/-- What was pushed through the controller. -/
structure Stream where
  pushed : List UInt8
  /-- All bytes transmitted or dropped by a `Purge` so far. -/
  passed : List UInt8
  /-- The bytes pushed since the last `Purge`. -/
  segment : List UInt8
  /-- The packets transmitted since the last `Purge`. -/
  packets : List (List UInt8)

/-- What one call adds. -/
def Stream.next (h : Stream) (fc : FlowController maxpacket) (c : Call)
    (_ : FlowController maxpacket) (o : List ConsumerCall) : Stream :=
  match c with
  | .push _ b size => ⟨h.pushed ++ b.read size.toNat, h.passed ++ (Analysis.packets o).flatten,
      h.segment ++ b.read size.toNat, h.packets ++ Analysis.packets o⟩
  | .purge => ⟨h.pushed, h.passed ++ pending fc, [], []⟩

/-- The controller together with the stream of the bytes pushed and passed on. -/
def stream (maxpacket : UInt32) : Machine (FlowController maxpacket × Stream) Call ConsumerCall :=
  (machine maxpacket).observe Stream.next

/-- What one call must make of the stream. -/
structure Rechunks (_ : FlowController maxpacket × Stream) (_ : Call)
    (p' : FlowController maxpacket × Stream) (o : List ConsumerCall) : Prop where
  full : ∀ x ∈ packets o, x.length = maxpacket.toNat
  pending_le : (pending p'.1).length ≤ maxpacket.toNat - 1
  content : p'.2.passed ++ pending p'.1 = p'.2.pushed
  cut : p'.2.packets = blocks maxpacket.toNat p'.2.segment

/-- No bytes are pushed while others are pending. -/
def NothingPending (fc : FlowController maxpacket) : Call → Prop
  | .push _ _ size => 0 < size → fc.extrasize = 0
  | .purge => True

/-- Less than a packet is pending, and the stream is cut as it should be. -/
structure StreamInv (p : FlowController maxpacket × Stream) : Prop where
  lt : p.1.extrasize < maxpacket
  content : p.2.passed ++ pending p.1 = p.2.pushed
  cut : p.2.packets = blocks maxpacket.toNat p.2.segment
  left : pending p.1 = rest maxpacket.toNat p.2.segment

/-- **The step lemma.**  A call that pushes nothing onto pending bytes succeeds and treats
the stream as it should. -/
theorem rechunks_step (hm : 0 < maxpacket) {p : FlowController maxpacket × Stream} {c : Call}
    (hI : StreamInv p) (hc : NothingPending p.1 c) :
    ∃ p' o, (stream maxpacket).step p c = some (p', o) ∧ StreamInv p' ∧
      Rechunks p c p' o := by
  have hm' : 0 < maxpacket.toNat := UInt32.lt_iff_toNat_lt.mp hm
  obtain ⟨fc, h⟩ := p
  -- an invariant state after the step is all there is to show, the packets apart
  suffices hsuff : ∃ fc' o, (machine maxpacket).step fc c = some (fc', o) ∧
      StreamInv (fc', h.next fc c fc' o) ∧ ∀ x ∈ packets o, x.length = maxpacket.toNat by
    obtain ⟨fc', o, hstep, hinv, hfull⟩ := hsuff
    have hlen : (pending fc').length ≤ maxpacket.toNat - 1 := by
      have hrest := length_rest_lt hm' (h.next fc c fc' o).segment
      rw [← hinv.left] at hrest
      exact Nat.le_sub_one_of_lt hrest
    exact ⟨(fc', h.next fc c fc' o), o, Machine.observe_step_eq_some.mpr ⟨hstep, rfl⟩, hinv,
      hfull, hlen, hinv.content, hinv.cut⟩
  obtain ⟨hlt, hcontent, hcut, hleft⟩ := hI
  simp only at hlt hcontent hcut hleft
  cases c with
  | purge =>
    refine ⟨fc.purge, [], rfl, ⟨hm, ?_, ?_, ?_⟩, by simp⟩
    · simpa [Stream.next, pending, purge] using hcontent
    · simp [Stream.next]
    · simp [Stream.next, pending, purge]
  | push ready b size =>
    by_cases hsize : 0 < size
    · have hextra : fc.extrasize = 0 := hc hsize
      have hnone : pending fc = [] := by simp [pending, hextra]
      obtain ⟨fc', o, hpush, hlt', hpackets, hpending⟩ :=
        push_of_extrasize_eq_zero hm ready hextra b size
      obtain ⟨hblocks, hrest⟩ := blocks_append_of_rest_eq_nil hm'
        (show rest maxpacket.toNat h.segment = [] by rw [← hleft, hnone])
        (b.read size.toNat)
      have hall := blocks_flatten_append_rest hm' (b.read size.toNat)
      refine ⟨fc', o, by simp [machine, hpush, Except.toOption], ⟨hlt', ?_, ?_, ?_⟩, ?_⟩
      · rw [hnone, List.append_nil] at hcontent
        simp only [Stream.next, hpackets, hpending, List.append_assoc, hall, hcontent]
      · simp only [Stream.next, hblocks, hpackets, hcut]
      · simp only [Stream.next, hrest, hpending]
      · rw [hpackets]
        intro x hx
        exact length_of_mem_blocks hm' hx
    · have hzero : size = 0 := by
        rw [UInt32.lt_iff_toNat_lt] at hsize
        apply UInt32.toNat_inj.mp
        simpa using hsize
      subst hzero
      refine ⟨fc, [], by simp [machine, push_of_size_eq_zero ready hlt b, Except.toOption],
        ⟨hlt, ?_, ?_, ?_⟩, by simp⟩
      · simpa [Stream.next] using hcontent
      · simpa [Stream.next] using hcut
      · simpa [Stream.next] using hleft

/-- **Rechunking.**  For every packet size, every content of the fresh storage and every
run in which no bytes are pushed while others are pending, the run succeeds, and every
call of it treats the stream as it should.
SOURCE: flowcontroller.cc:33-67, flowcontroller.h:51-65 -/
theorem rechunks_of_nothing_pending (maxpacket : UInt32) (hm : 0 < maxpacket)
    (storage : List UInt8) (hstorage : storage.length = maxpacket.toNat) (calls : List Call)
    (hcalls : (stream maxpacket).Along (fun p c => NothingPending p.1 c)
      (construct storage hstorage, ⟨[], [], [], []⟩) calls) :
    (∃ p' os, (stream maxpacket).exec (construct storage hstorage, ⟨[], [], [], []⟩) calls =
      some (p', os)) ∧
    (stream maxpacket).Always Rechunks (construct storage hstorage, ⟨[], [], [], []⟩) calls := by
  have hinit : StreamInv (construct storage hstorage, ⟨[], [], [], []⟩) :=
    ⟨hm, rfl, by simp, by simp [pending, construct]⟩
  obtain ⟨⟨p', os, hrun, -⟩, halways⟩ := Machine.exec_of_invariant StreamInv _ Rechunks
    (fun p c hI hc => rechunks_step hm hI hc) hinit hcalls
  exact ⟨⟨p', os, hrun⟩, halways⟩

/-- Seven bytes, a purge, and four bytes in packets of four. -/
theorem rechunks_seven_purge_four :
    (∃ p' os, (stream 4).exec (construct [0, 0, 0, 0] rfl, ⟨[], [], [], []⟩)
      [.push (fun _ => true) (Bytes.ofList [1, 2, 3, 4, 5, 6, 7]) 7, .purge,
        .push (fun _ => false) (Bytes.ofList [8, 9, 10, 11]) 4] = some (p', os)) ∧
    (stream 4).Always Rechunks (construct [0, 0, 0, 0] rfl, ⟨[], [], [], []⟩)
      [.push (fun _ => true) (Bytes.ofList [1, 2, 3, 4, 5, 6, 7]) 7, .purge,
        .push (fun _ => false) (Bytes.ofList [8, 9, 10, 11]) 4] :=
  rechunks_of_nothing_pending 4 (by decide) [0, 0, 0, 0] rfl _
    ⟨fun _ => rfl, trivial, fun _ => rfl, trivial⟩

/-- Two bytes pushed one by one into packets of four: the second is copied behind the
place it belongs to, and a stale byte of the storage is pending in its place. -/
theorem not_rechunks_one_by_one :
    ¬ (stream 4).Always Rechunks (construct [0, 0, 0, 0] rfl, ⟨[], [], [], []⟩)
      [.push (fun _ => true) (Bytes.ofList [7]) 1,
        .push (fun _ => true) (Bytes.ofList [8]) 1] := by
  intro h
  exact absurd h.2.1.content (by decide)

end Resmod.Analysis
