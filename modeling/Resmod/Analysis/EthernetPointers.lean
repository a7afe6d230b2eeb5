import Resmod.Library.Alike
import Resmod.Analysis.EthernetRx
import Resmod.Model.EthernetPointers

/-!
# The receive ring is the chain of descriptors in memory

`low_level_init` builds a chain that is the ring: behind the address in `Buffer2NextDescAddr`
of a descriptor there is the next one, behind that of the last one the first.  From there on
`EthernetRx`, in which a place in the ring stands for an address, does what the code does in
memory, over whole runs: `Represents` is kept by every step.
-/

set_option autoImplicit false

namespace Resmod.Analysis

open Resmod.Library Resmod.Model

namespace EthernetPointers

open Resmod.Model.EthernetPointers
open EthernetRx (ethRxBufNb ethRxBufSize DescPtr FrameType RxDesc PbufAlloc)

/-! ## The chain -/

section Chain

variable {c : DescInit} {tab buff : Slots} {n : UInt32} {w : Words} {a : UInt32}

/-- The word of a descriptor at an offset. -/
theorem within_add (hsize : tab.size = descSize) (i : ℕ) {off : ℕ} (hoff : off < descSize) :
    tab.Within i (tab.addr i + UInt32.ofNat off) :=
  ⟨off, hsize ▸ hoff, rfl⟩

/-- The address that the initialisation computes is that of the slot. -/
theorem addr_eq (hsize : tab.size = descSize) (i : ℕ) :
    tab.base + UInt32.ofNat i * UInt32.ofNat descSize = tab.addr i := by
  rw [Slots.addr, hsize]

/-- A round of the loop writes into its own descriptor only. -/
theorem round_outside (hsize : tab.size = descSize) (buffBase : UInt32) (i : ℕ)
    (ha : ¬ tab.Within i a) : c.round tab.base buffBase n i w a = w a := by
  have hne : ∀ off < descSize, a ≠ tab.addr i + UInt32.ofNat off :=
    fun off hoff heq => ha (heq ▸ within_add hsize i hoff)
  have h0 : a ≠ tab.addr i := by simpa using hne 0 (by decide)
  have h4 : a ≠ controlBufferSize (tab.addr i) := hne 4 (by decide)
  have h8 : a ≠ buffer1Addr (tab.addr i) := hne 8 (by decide)
  have h12 : a ≠ buffer2NextDescAddr (tab.addr i) := hne 12 (by decide)
  simp only [DescInit.round, addr_eq hsize]
  rw [Function.update_of_ne h12, Function.update_of_ne h8]
  cases c.control with
  | none => exact Function.update_of_ne h0 ..
  | some size => exact (Function.update_of_ne h4 ..).trans (Function.update_of_ne h0 ..)

/-- The fields of a descriptor are different words. -/
theorem controlBufferSize_ne (p : UInt32) : controlBufferSize p ≠ p := by
  simp [controlBufferSize]

/-- The third word of a descriptor is not one of the first two. -/
theorem buffer1Addr_ne (p : UInt32) : buffer1Addr p ≠ p ∧ buffer1Addr p ≠ controlBufferSize p := by
  simp [buffer1Addr, controlBufferSize]

/-- The fourth word of a descriptor is none of the first three. -/
theorem buffer2NextDescAddr_ne (p : UInt32) :
    buffer2NextDescAddr p ≠ p ∧ buffer2NextDescAddr p ≠ controlBufferSize p ∧
      buffer2NextDescAddr p ≠ buffer1Addr p := by
  simp [buffer2NextDescAddr, buffer1Addr, controlBufferSize]

/-- What a round of the loop writes into its descriptor. -/
structure Written (c : DescInit) (w : Words) (desc buffer next : UInt32) : Prop where
  status : w desc = c.status
  control : ∀ size, c.control = some size → w (controlBufferSize desc) = size
  buffer1 : w (buffer1Addr desc) = buffer
  next : w (buffer2NextDescAddr desc) = next

/-- One round of the loop writes the four words of one descriptor. -/
theorem round_writes (descTab buffBase : UInt32) (i : ℕ) (w : Words) :
    let desc := descTab + UInt32.ofNat i * UInt32.ofNat descSize
    Written c (c.round descTab buffBase n i w) desc
      (buffBase + UInt32.ofNat i * UInt32.ofNat c.bufSize)
      (if UInt32.ofNat i < n - 1 then desc + UInt32.ofNat descSize else descTab) := by
  intro desc
  obtain ⟨hnext, hnextControl, hnextBuffer⟩ := buffer2NextDescAddr_ne desc
  obtain ⟨hbuffer, hbufferControl⟩ := buffer1Addr_ne desc
  have hcontrol := controlBufferSize_ne desc
  refine ⟨?_, ?_, ?_, Function.update_self ..⟩
  · rw [DescInit.round, Function.update_of_ne hnext.symm, Function.update_of_ne hbuffer.symm]
    cases c.control with
    | none => exact Function.update_self ..
    | some size => exact (Function.update_of_ne hcontrol.symm ..).trans (Function.update_self ..)
  · intro size hsize
    rw [DescInit.round, hsize, Function.update_of_ne hnextControl.symm,
      Function.update_of_ne hbufferControl.symm]
    exact Function.update_self ..
  · rw [DescInit.round, Function.update_of_ne hnextBuffer.symm]
    exact Function.update_self ..

/-- The first slot is at the base. -/
theorem addr_zero (tab : Slots) : tab.addr 0 = tab.base := by simp [Slots.addr]

/-- The next slot follows at once. -/
theorem addr_succ (tab : Slots) (i : ℕ) :
    tab.addr (i + 1) = tab.addr i + UInt32.ofNat tab.size := by
  have hone : UInt32.ofNat 1 * UInt32.ofNat tab.size = UInt32.ofNat tab.size := UInt32.one_mul _
  rw [Slots.addr, Slots.addr, UInt32.ofNat_add, UInt32.add_mul, hone, UInt32.add_assoc]

/-- The last round of the loop closes the chain. -/
theorem next_eq (hsize : tab.size = descSize) (hn : n.toNat = tab.count) (i : Fin tab.count) :
    (if UInt32.ofNat i < n - 1 then tab.addr i + UInt32.ofNat descSize else tab.base) =
      tab.addr (ringNext i) := by
  have hi : (UInt32.ofNat i).toNat = i := by
    have hlt := n.toNat_lt
    have hin := i.isLt
    rw [UInt32.toNat_ofNat', Nat.mod_eq_of_lt (by omega)]
  have hlast : (n - 1).toNat = tab.count - 1 := by
    have hpos := i.pos
    rw [UInt32.toNat_sub_of_le _ _ (UInt32.le_iff_toNat_le.mpr (by rw [hn]; exact hpos)), hn]
    rfl
  split_ifs with hlt <;> rw [UInt32.lt_iff_toNat_lt, hi, hlast] at hlt
  · have hnext : (ringNext i).val = i + 1 := Nat.mod_eq_of_lt (by omega)
    rw [hnext, addr_succ, hsize]
  · have hend : i.val + 1 = tab.count := by have hin := i.isLt; omega
    have hnext : (ringNext i).val = 0 := by
      show (i.val + 1) % tab.count = 0
      rw [hend, Nat.mod_self]
    rw [hnext, addr_zero]

/-- Whatever the memory held before: each descriptor has its status and size, the address of its
own buffer, and that of the next descriptor in the ring; the rest of the memory is as it was. -/
theorem chain_ring (hsize : tab.size = descSize) (hbuff : buff.size = c.bufSize)
    (hn : n.toNat = tab.count) :
    (∀ i : Fin tab.count, Written c (c.chain tab.base buff.base n w) (tab.addr i) (buff.addr i)
      (tab.addr (ringNext i))) ∧
    ∀ a, (∀ i : Fin tab.count, ¬ tab.Within i a) → c.chain tab.base buff.base n w a = w a := by
  have houtside : ∀ i (m : Words) a, ¬ tab.Within i a →
      c.round tab.base buff.base n i m a = m a := fun i m a => round_outside hsize buff.base i
  have hwrites : ∀ (i : Fin tab.count) m, Written c (c.round tab.base buff.base n i m) (tab.addr i)
      (buff.addr i) (tab.addr (ringNext i)) := by
    intro i m
    rw [← next_eq hsize hn i, ← addr_eq hsize i, Slots.addr, hbuff]
    exact round_writes tab.base buff.base i m
  constructor
  · intro i
    have hlast : ∀ off v, off < descSize →
        (∀ m, c.round tab.base buff.base n i m (tab.addr i + UInt32.ofNat off) = v) →
        c.chain tab.base buff.base n w (tab.addr i + UInt32.ofNat off) = v := fun off v hoff hv =>
      forEach_eq (f := fun _ => v) houtside (Nat.le_of_eq hn) (by rw [hn]; exact i.isLt)
        (within_add hsize i hoff) hv
    refine ⟨?_, fun size hcontrol => ?_, ?_, ?_⟩
    · simpa using hlast 0 _ (by decide) fun m => by simpa using (hwrites i m).status
    · exact hlast 4 _ (by decide) fun m => (hwrites i m).control size hcontrol
    · exact hlast 8 _ (by decide) fun m => (hwrites i m).buffer1
    · exact hlast 12 _ (by decide) fun m => (hwrites i m).next
  · intro a ha
    exact forEach_outside houtside fun i hi => ha ⟨i, hn ▸ hi⟩

/-- **The chain is a ring.**  One follows `Buffer2NextDescAddr` from the first descriptor `k`
times, for any `k`, and is at the descriptor `k` modulo their number, which has its status and
its own buffer; nothing else in memory has changed.
SOURCE: stm32f4xx_eth.c:1313-1351, 1402-1435 -/
theorem follow_chain (c : DescInit) (tab buff : Slots) (n : UInt32) (hsize : tab.size = descSize)
    (hbuff : buff.size = c.bufSize) (hn : n.toNat = tab.count) (hpos : 0 < tab.count) (w : Words)
    (k : ℕ) :
    let w' := c.chain tab.base buff.base n w
    let desc := (fun p => w' (buffer2NextDescAddr p))^[k] tab.base
    desc = tab.addr (k % tab.count) ∧ w' desc = c.status ∧
      w' (buffer1Addr desc) = buff.addr (k % tab.count) ∧
      ∀ a, (∀ i : Fin tab.count, ¬ tab.Within i a) → w' a = w a := by
  intro w' desc
  obtain ⟨hwritten, houtside⟩ := chain_ring (w := w) hsize hbuff hn
  have hdesc : desc = tab.addr (k % tab.count) := by
    induction k with
    | zero => exact (addr_zero tab).symm.trans (by rw [Nat.zero_mod])
    | succ k ih =>
      have hnext := (hwritten ⟨k % tab.count, Nat.mod_lt k hpos⟩).next
      have hplace : (k % tab.count + 1) % tab.count = (k + 1) % tab.count := Nat.mod_add_mod ..
      simp only [desc, Function.iterate_succ_apply']
      rw [ih]
      exact hnext.trans (congrArg tab.addr hplace)
  have hk := hwritten ⟨k % tab.count, Nat.mod_lt k hpos⟩
  rw [hdesc]
  exact ⟨rfl, hk.status, hk.buffer1, houtside⟩

/-- Five transmit descriptors: seven steps lead to the third. -/
theorem follow_chain_five :
    (fun p => txDescInit.chain 0x20000000 0x20001000 5 (fun _ => 0)
      (buffer2NextDescAddr p))^[7] 0x20000000 = 0x20000040 :=
  have hfollow := follow_chain txDescInit ⟨0x20000000, descSize, 5, by decide, by decide⟩
    ⟨0x20001000, txDescInit.bufSize, 5, by decide, by decide⟩ 5 rfl rfl rfl (by decide)
    (fun _ => 0) 7
  hfollow.1.trans (by decide)

end Chain

/-! ## What the memory represents -/

/-- Where `DMARxDscrTab` and `Rx_Buff` are. -/
structure Placement where
  dmaRxDscrTab : Slots
  rxBuff : Slots
  descSize_eq : dmaRxDscrTab.size = descSize
  descCount_eq : dmaRxDscrTab.count = ethRxBufNb
  bufSize_eq : rxBuff.size = ethRxBufSize
  bufCount_eq : rxBuff.count = ethRxBufNb

namespace Placement

variable (M : Placement)

/-- The address of a receive descriptor. -/
def desc (i : Fin ethRxBufNb) : UInt32 := M.dmaRxDscrTab.addr i

/-- The address of a receive buffer. -/
def buffer (i : Fin ethRxBufNb) : UInt32 := M.rxBuff.addr i

/-- The address of a descriptor, or the null pointer. -/
def descPtr : DescPtr → UInt32
  | none => 0
  | some i => M.desc i

/-- The address of the buffer of a descriptor, or the null pointer. -/
def bufferPtr : DescPtr → UInt32
  | none => 0
  | some i => M.buffer i

variable {M} {i j : Fin ethRxBufNb}

/-- No descriptor is at NULL. -/
theorem desc_ne_zero : M.desc i ≠ 0 :=
  Slots.addr_ne_zero (by rw [M.descCount_eq]; exact i.isLt) (by rw [M.descSize_eq]; decide)

/-- No buffer is at NULL. -/
theorem buffer_ne_zero : M.buffer i ≠ 0 :=
  Slots.addr_ne_zero (by rw [M.bufCount_eq]; exact i.isLt) (by rw [M.bufSize_eq]; decide)

/-- The fields of the descriptors are different words. -/
theorem desc_add_inj (off off' : ℕ) (hoff : off < Resmod.Model.EthernetPointers.descSize)
    (hoff' : off' < Resmod.Model.EthernetPointers.descSize)
    (h : M.desc i + UInt32.ofNat off = M.desc j + UInt32.ofNat off') : i = j ∧ off = off' := by
  have hcount := M.descCount_eq
  obtain ⟨hij, heq⟩ := Slots.addr_add_inj (by rw [hcount]; exact i.isLt)
    (by rw [M.descSize_eq]; exact hoff) (by rw [hcount]; exact j.isLt)
    (by rw [M.descSize_eq]; exact hoff') h
  exact ⟨Fin.ext hij, heq⟩

/-- Different descriptors are at different addresses. -/
theorem desc_inj (h : M.desc i = M.desc j) : i = j :=
  (desc_add_inj 0 0 (by decide) (by decide) (by rw [h])).1

/-- The inner words of a descriptor are not the first word of another. -/
theorem desc_add_ne (off : ℕ) (hoff : off < Resmod.Model.EthernetPointers.descSize)
    (hpos : 0 < off) : M.desc i + UInt32.ofNat off ≠ M.desc j := by
  intro h
  have hzero : M.desc j = M.desc j + UInt32.ofNat 0 := (UInt32.add_zero _).symm
  exact Nat.ne_of_gt hpos (desc_add_inj off 0 hoff (by decide) (h.trans hzero)).2

/-- Nor is the word that holds the address of the buffer. -/
theorem buffer1Addr_ne_desc : buffer1Addr (M.desc i) ≠ M.desc j :=
  desc_add_ne 8 (by decide) (by decide)

/-- Nor is the word that holds the address of the next descriptor. -/
theorem buffer2NextDescAddr_ne_desc : buffer2NextDescAddr (M.desc i) ≠ M.desc j :=
  desc_add_ne 12 (by decide) (by decide)

/-- A place in a buffer, from the address of the buffer. -/
theorem toNat_sub_buffer {k : ℕ} (hk : k < ethRxBufSize) :
    (M.buffer i + UInt32.ofNat k - M.buffer i).toNat = k := by
  have hlt : ethRxBufSize < 2 ^ 32 := by decide
  rw [UInt32.add_comm, UInt32.add_sub_cancel, UInt32.toNat_ofNat',
    Nat.mod_eq_of_lt (Nat.lt_trans hk hlt)]

/-- The buffers do not overlap. -/
theorem eq_of_in_buffer {k : ℕ} (hk : k < ethRxBufSize)
    (h : (M.buffer j + UInt32.ofNat k - M.buffer i).toNat < ethRxBufSize) : i = j := by
  have hcount := M.bufCount_eq
  have hsum : M.buffer i + UInt32.ofNat (M.buffer j + UInt32.ofNat k - M.buffer i).toNat =
      M.buffer j + UInt32.ofNat k := by
    rw [UInt32.ofNat_toNat, UInt32.add_comm, UInt32.sub_add_cancel]
  obtain ⟨hij, -⟩ := Slots.addr_add_inj (by rw [hcount]; exact i.isLt)
    (by rw [M.bufSize_eq]; exact h) (by rw [hcount]; exact j.isLt)
    (by rw [M.bufSize_eq]; exact hk) hsum
  exact Fin.ext hij

end Placement

/-- The memory and the variables of the driver hold the ring. -/
structure Represents (M : Placement) (p : EthernetPointers) (s : EthernetRx) : Prop where
  status : ∀ i, p.words (M.desc i) = (s.dmaRxDscrTab i).status
  buffer1 : ∀ i, p.words (buffer1Addr (M.desc i)) = M.buffer i
  next : ∀ i, p.words (buffer2NextDescAddr (M.desc i)) = M.desc (ringNext i)
  bytes : ∀ i j (hj : j < ethRxBufSize),
    p.bytes (M.buffer i + UInt32.ofNat j) = (s.dmaRxDscrTab i).rxBuff[j]
  toGet : p.dmaRxDescToGet = M.desc s.dmaRxDescToGet
  fs : p.fsRxDesc = M.descPtr s.fsRxDesc
  ls : p.lsRxDesc = M.descPtr s.lsRxDesc
  segCount : p.segCount.toNat = s.segCount
  rbus : p.rbus = s.rbus

/-- The same frame. -/
structure SameFrame (M : Placement) (g : Frame) (f : FrameType) : Prop where
  length : g.length = f.length
  buffer : g.buffer = M.bufferPtr f.buffer
  descriptor : g.descriptor = M.descPtr f.descriptor

variable {M : Placement} {p p' : EthernetPointers} {s s' : EthernetRx} {f : FrameType}

/-- Following a pointer to a descriptor. -/
theorem load_descPtr (w : Words) (d : DescPtr) (field : UInt32 → UInt32) :
    load w (M.descPtr d) field = (EthernetRx.deref d).map fun i => w (field (M.desc i)) := by
  cases d with
  | none => rfl
  | some i => exact if_neg Placement.desc_ne_zero

/-- The next descriptor is that of the ring. -/
theorem load_next (hrep : Represents M p s) (d : DescPtr) :
    load p.words (M.descPtr d) buffer2NextDescAddr =
      (EthernetRx.deref d).map fun i => M.desc (ringNext i) := by
  simp only [load_descPtr, hrep.next]

/-- The buffer is that of the descriptor. -/
theorem load_buffer (hrep : Represents M p s) (d : DescPtr) :
    load p.words (M.descPtr d) buffer1Addr = (EthernetRx.deref d).map M.buffer := by
  simp only [load_descPtr, hrep.buffer1]

/-- `Seg_Count` does not overflow. -/
theorem segCount_succ (h : p.segCount.toNat = s.segCount) (hlt : s.segCount + 1 < 2 ^ 32) :
    (p.segCount + 1).toNat = s.segCount + 1 := by
  rw [UInt32.toNat_add, h]
  exact Nat.mod_eq_of_lt hlt

/-- A round of the loop, with what it finds in the descriptor. -/
theorem scan_succ (hrep : Represents M p s) (n : ℕ) :
    let d := s.dmaRxDscrTab s.dmaRxDescToGet
    let next := M.desc (ringNext s.dmaRxDescToGet)
    scan (n + 1) p =
      if d.own then .ok (p, ⟨0, 0, 0⟩)
      else if d.fs ∧ ¬ d.ls then
        scan n { p with fsRxDesc := p.dmaRxDescToGet, segCount := 1, dmaRxDescToGet := next }
      else if ¬ d.ls ∧ ¬ d.fs then
        scan n { p with segCount := p.segCount + 1, dmaRxDescToGet := next }
      else
        let fsRxDesc := if p.segCount + 1 = 1 then p.dmaRxDescToGet else p.fsRxDesc
        (load p.words (if 1 < p.segCount + 1 then fsRxDesc else p.dmaRxDescToGet)
          buffer1Addr).map fun buffer =>
            ({ p with
              fsRxDesc := fsRxDesc
              lsRxDesc := p.dmaRxDescToGet
              segCount := p.segCount + 1
              dmaRxDescToGet := next }, ⟨d.fl - 4, buffer, fsRxDesc⟩) := by
  have hstatus := hrep.status s.dmaRxDescToGet
  have hnext := hrep.next s.dmaRxDescToGet
  rw [← hrep.toGet] at hstatus hnext
  simp only [RxDesc.own, RxDesc.fs, RxDesc.ls, RxDesc.fl, ← hstatus, ← hnext]
  rfl

/-- The same round in the ring. -/
theorem ring_scan_succ (s : EthernetRx) (n : ℕ) :
    let d := s.dmaRxDscrTab s.dmaRxDescToGet
    let next := ringNext s.dmaRxDescToGet
    EthernetRx.scan (n + 1) s =
      if d.own then .ok (s, ⟨0, none, none⟩)
      else if d.fs ∧ ¬ d.ls then
        EthernetRx.scan n { s with
          fsRxDesc := some s.dmaRxDescToGet, segCount := 1, dmaRxDescToGet := next }
      else if ¬ d.ls ∧ ¬ d.fs then
        EthernetRx.scan n { s with segCount := s.segCount + 1, dmaRxDescToGet := next }
      else
        let fsRxDesc := if s.segCount + 1 = 1 then some s.dmaRxDescToGet else s.fsRxDesc
        (EthernetRx.deref (if 1 < s.segCount + 1 then fsRxDesc else some s.dmaRxDescToGet)).map
          fun buffer =>
            ({ s with
              fsRxDesc := fsRxDesc
              lsRxDesc := some s.dmaRxDescToGet
              segCount := s.segCount + 1
              dmaRxDescToGet := next }, ⟨d.fl - 4, some buffer, fsRxDesc⟩) := by
  simp only [EthernetRx.scan]
  split_ifs <;> rfl

/-- What the search for a frame leaves in memory is what it leaves in the ring. -/
def Found (M : Placement) (r : EthernetPointers × Frame) (r' : EthernetRx × FrameType) : Prop :=
  Represents M r.1 r'.1 ∧ SameFrame M r.2 r'.2

/-- No frame is found on either side. -/
theorem found_none (hrep : Represents M p s) :
    Alike (Found M) (Except.ok (p, ⟨0, 0, 0⟩) : Except EthernetRx.Fault _)
      (.ok (s, ⟨0, none, none⟩)) :=
  .ok ⟨hrep, rfl, rfl, rfl⟩

/-- The last segment of a frame. -/
theorem last_alike (hrep : Represents M p s) (hseg : s.segCount + 1 < 2 ^ 32) (length : UInt32) :
    let next := ringNext s.dmaRxDescToGet
    let fsRxDesc := if p.segCount + 1 = 1 then p.dmaRxDescToGet else p.fsRxDesc
    let fsRing := if s.segCount + 1 = 1 then some s.dmaRxDescToGet else s.fsRxDesc
    Alike (Found M)
      ((load p.words (if 1 < p.segCount + 1 then fsRxDesc else p.dmaRxDescToGet)
        buffer1Addr).map fun buffer =>
          ({ p with
            fsRxDesc := fsRxDesc
            lsRxDesc := p.dmaRxDescToGet
            segCount := p.segCount + 1
            dmaRxDescToGet := M.desc next }, ⟨length, buffer, fsRxDesc⟩))
      ((EthernetRx.deref (if 1 < s.segCount + 1 then fsRing else some s.dmaRxDescToGet)).map
        fun buffer =>
          ({ s with
            fsRxDesc := fsRing
            lsRxDesc := some s.dmaRxDescToGet
            segCount := s.segCount + 1
            dmaRxDescToGet := next }, ⟨length, some buffer, fsRing⟩)) := by
  intro next fsRxDesc fsRing
  have hcount := segCount_succ hrep.segCount hseg
  have hone : p.segCount + 1 = 1 ↔ s.segCount + 1 = 1 := by
    rw [← UInt32.toNat_inj, hcount]
    rfl
  have hmany : 1 < p.segCount + 1 ↔ 1 < s.segCount + 1 := by
    rw [UInt32.lt_iff_toNat_lt, hcount]
    rfl
  have hfs : fsRxDesc = M.descPtr fsRing := by
    simp only [fsRxDesc, fsRing, hone]
    split_ifs
    · exact hrep.toGet
    · exact hrep.fs
  have hptr : (if 1 < p.segCount + 1 then fsRxDesc else p.dmaRxDescToGet) =
      M.descPtr (if 1 < s.segCount + 1 then fsRing else some s.dmaRxDescToGet) := by
    rw [hfs, hrep.toGet]
    simp only [hmany]
    split_ifs <;> rfl
  rw [hptr, load_buffer hrep]
  cases EthernetRx.deref (if 1 < s.segCount + 1 then fsRing else some s.dmaRxDescToGet) with
  | error e => exact .error e
  | ok i =>
    refine .ok ⟨?_, rfl, rfl, hfs⟩
    exact { hrep with toGet := rfl, fs := hfs, ls := hrep.toGet, segCount := hcount }

/-- The search for a frame. -/
theorem scan_alike {n : ℕ} (hrep : Represents M p s) (hseg : s.segCount + n < 2 ^ 32) :
    Alike (Found M) (scan n p) (EthernetRx.scan n s) := by
  induction n generalizing p s with
  | zero => exact found_none hrep
  | succ n ih =>
    rw [scan_succ hrep, ring_scan_succ]
    generalize s.dmaRxDscrTab s.dmaRxDescToGet = d
    by_cases hown : d.own = true
    · rw [if_pos hown, if_pos hown]
      exact found_none hrep
    rw [if_neg hown, if_neg hown]
    by_cases hfirst : d.fs = true ∧ ¬ d.ls = true
    · rw [if_pos hfirst, if_pos hfirst]
      refine ih ?_ ?_
      · exact { hrep with toGet := rfl, fs := hrep.toGet, segCount := rfl }
      · show 1 + n < 2 ^ 32
        omega
    rw [if_neg hfirst, if_neg hfirst]
    by_cases hmiddle : ¬ d.ls = true ∧ ¬ d.fs = true
    · rw [if_pos hmiddle, if_pos hmiddle]
      refine ih ?_ ?_
      · exact { hrep with toGet := rfl, segCount := segCount_succ hrep.segCount (by omega) }
      · show s.segCount + 1 + n < 2 ^ 32
        omega
    rw [if_neg hmiddle, if_neg hmiddle]
    exact last_alike hrep (by omega) _

/-! ## The copy -/

/-- The bytes of a buffer from an offset on. -/
theorem readBytes_eq (hrep : Represents M p s) (i : Fin ethRxBufNb) {off count : ℕ}
    (hfit : off + count ≤ ethRxBufSize) :
    readBytes p.bytes (M.buffer i + UInt32.ofNat off) count =
      slice (s.dmaRxDscrTab i).rxBuff.toList off count := by
  apply List.ext_getElem
  · rw [length_slice (by rw [Vector.length_toList]; exact hfit), readBytes, List.length_map,
      List.length_range]
  intro k hk _
  rw [readBytes, List.length_map, List.length_range] at hk
  simp only [readBytes, slice, List.getElem_map, List.getElem_range, List.getElem_take,
    List.getElem_drop, Vector.getElem_toList, UInt32.add_assoc, ← UInt32.ofNat_add]
  exact hrep.bytes i (off + k) (by omega)

/-- Where a cursor of the ring is in memory. -/
def cursor (M : Placement) (c : EthernetRx.Cursor) : Cursor :=
  ⟨M.descPtr c.dmaRxDesc, M.bufferPtr c.buffer, c.bufferoffset⟩

/-- A copy out of a buffer is that of the ring. -/
theorem memcpy_eq (hrep : Represents M p s) (payload : List UInt8) (payloadoffset : ℕ)
    (buffer : DescPtr) {off count : ℕ} (hfit : off + count ≤ ethRxBufSize) :
    memcpy p.bytes payload payloadoffset (M.bufferPtr buffer) off count =
      EthernetRx.memcpy s.dmaRxDscrTab payload payloadoffset buffer off count := by
  cases buffer with
  | none => rfl
  | some i =>
    have hsrc : copy payload payloadoffset
        (readBytes p.bytes (M.buffer i + UInt32.ofNat off) count) 0 count =
        copy payload payloadoffset (s.dmaRxDscrTab i).rxBuff.toList off count := by
      rw [readBytes_eq hrep i hfit]
      have hlen : (slice (s.dmaRxDscrTab i).rxBuff.toList off count).length = count :=
        length_slice (by rw [Vector.length_toList]; exact hfit)
      have hself : slice (slice (s.dmaRxDscrTab i).rxBuff.toList off count) 0 count =
          slice (s.dmaRxDscrTab i).rxBuff.toList off count := by
        rw [slice, List.drop_zero]
        exact List.take_of_length_le (Nat.le_of_eq hlen)
      simp only [copy, hlen, hself, Vector.length_toList, hfit, Nat.zero_add, Nat.le_refl]
    have hptr : M.bufferPtr (some i) = M.buffer i := rfl
    rw [hptr, memcpy, if_neg Placement.buffer_ne_zero]
    dsimp only
    rw [hsrc]
    rfl

/-- The copy into one pbuf. -/
theorem fill_eq (hrep : Represents M p s) (left payloadoffset : ℕ) (c : EthernetRx.Cursor)
    (payload : List UInt8) (hc : c.bufferoffset ≤ ethRxBufSize) :
    p.fill left payloadoffset (cursor M c) payload =
      (EthernetRx.fill s.dmaRxDscrTab left payloadoffset c payload).map
        (Prod.map id (cursor M)) := by
  fun_induction EthernetRx.fill s.dmaRxDscrTab left payloadoffset c payload with
  | case1 left payloadoffset c payload h count ih =>
    -- the rest of the buffer, then on with the next descriptor
    rw [cursor, fill, dif_pos h]
    dsimp only
    rw [memcpy_eq hrep _ _ _ (by omega), load_next hrep]
    cases EthernetRx.memcpy s.dmaRxDscrTab payload payloadoffset c.buffer c.bufferoffset count with
    | error e => rfl
    | ok payload' =>
      cases EthernetRx.deref c.dmaRxDesc with
      | error e => rfl
      | ok d =>
        have hbuffer : load p.words (M.desc (ringNext d)) buffer1Addr =
            .ok (M.buffer (ringNext d)) := load_buffer hrep (some (ringNext d))
        show (load p.words (M.desc (ringNext d)) buffer1Addr >>= _) = _
        rw [hbuffer]
        exact ih payload' d (Nat.zero_le _)
  | case2 left payloadoffset c payload h =>
    rw [cursor, fill, dif_neg h]
    dsimp only
    rw [memcpy_eq hrep _ _ _ (by omega)]
    cases EthernetRx.memcpy s.dmaRxDscrTab payload payloadoffset c.buffer c.bufferoffset left with
    | error e => rfl
    | ok payload' => rfl

/-- The copy does not go beyond the buffer it is in. -/
theorem fill_offset (tab : EthernetRx.DescTab) (left payloadoffset : ℕ) (c c' : EthernetRx.Cursor)
    (payload payload' : List UInt8) (hc : c.bufferoffset ≤ ethRxBufSize)
    (h : EthernetRx.fill tab left payloadoffset c payload = .ok (payload', c')) :
    c'.bufferoffset ≤ ethRxBufSize := by
  fun_induction EthernetRx.fill tab left payloadoffset c payload with
  | case1 left payloadoffset c payload hlt count ih =>
    revert h
    cases EthernetRx.memcpy tab payload payloadoffset c.buffer c.bufferoffset count with
    | error e => exact nofun
    | ok payload₁ =>
      cases EthernetRx.deref c.dmaRxDesc with
      | error e => exact nofun
      | ok d => exact ih payload₁ d (Nat.zero_le _)
  | case2 left payloadoffset c payload hlt =>
    revert h
    cases EthernetRx.memcpy tab payload payloadoffset c.buffer c.bufferoffset left with
    | error e => exact nofun
    | ok payload₁ =>
      intro h
      cases h
      show c.bufferoffset + left ≤ ethRxBufSize
      omega

/-- The copy into a chain of pbufs is that of the ring. -/
theorem copyChain_eq (hrep : Represents M p s) (chain : List (List UInt8)) (c : EthernetRx.Cursor)
    (hc : c.bufferoffset ≤ ethRxBufSize) :
    p.copyChain chain (cursor M c) = EthernetRx.copyChain s.dmaRxDscrTab chain c := by
  induction chain generalizing c with
  | nil => rfl
  | cons payload chain ih =>
    rw [copyChain, EthernetRx.copyChain, fill_eq hrep _ _ _ _ hc]
    cases hfill : EthernetRx.fill s.dmaRxDscrTab payload.length 0 c payload with
    | error e => rfl
    | ok r =>
      have hrest := ih r.2 (fill_offset _ _ _ _ _ _ _ hc hfill)
      show (p.copyChain chain (cursor M r.2) >>= _) = _
      rw [hrest]
      rfl

/-- The allocation and the copy are those of the ring. -/
theorem allocAndCopy_eq (hrep : Represents M p s) (pbufAlloc : PbufAlloc) {g : Frame}
    {f : FrameType} (hframe : SameFrame M g f) :
    p.allocAndCopy pbufAlloc g = EthernetRx.allocAndCopy pbufAlloc s.dmaRxDscrTab f := by
  rw [allocAndCopy, EthernetRx.allocAndCopy, hframe.length]
  cases (if 0 < f.length.toUInt16.toNat then pbufAlloc.alloc f.length.toUInt16.toNat
    else none) with
  | none => rfl
  | some chain =>
    have hcopy := copyChain_eq hrep chain ⟨f.descriptor, f.buffer, 0⟩ (Nat.zero_le _)
    rw [cursor, ← hframe.buffer, ← hframe.descriptor] at hcopy
    dsimp only at hcopy ⊢
    rw [hcopy]

/-! ## The descriptors are given back -/

/-- A descriptor gets another status. -/
theorem Represents.setStatus (hrep : Represents M p s) (i : Fin ethRxBufNb) (status : UInt32) :
    Represents M { p with words := Function.update p.words (M.desc i) status }
      { s with
        dmaRxDscrTab := Function.update s.dmaRxDscrTab i
          { s.dmaRxDscrTab i with status := status } } := by
  refine { hrep with
    status := fun j => ?_, buffer1 := fun j => ?_, next := fun j => ?_, bytes := fun j => ?_ }
    <;> dsimp only
  · by_cases hji : j = i
    · rw [hji, Function.update_self, Function.update_self]
    · rw [Function.update_of_ne fun h => hji (Placement.desc_inj h), Function.update_of_ne hji,
        hrep.status]
  · rw [Function.update_of_ne Placement.buffer1Addr_ne_desc, hrep.buffer1]
  · rw [Function.update_of_ne Placement.buffer2NextDescAddr_ne_desc, hrep.next]
  · by_cases hji : j = i
    · rw [hji, Function.update_self]
      exact hrep.bytes i
    · rw [Function.update_of_ne hji]
      exact hrep.bytes j

/-- The descriptors are given back on both sides. -/
theorem release_alike (hrep : Represents M p s) (n : ℕ) (d : DescPtr) :
    Alike (fun words r => Represents M { p with words := words }
        { s with dmaRxDscrTab := (r : EthernetRx.DescTab × List (Fin ethRxBufNb)).1 })
      (release n (M.descPtr d) p.words) (EthernetRx.release n d s.dmaRxDscrTab) := by
  induction n generalizing p s d with
  | zero => exact .ok hrep
  | succ n ih =>
    rw [release, EthernetRx.release, load_descPtr]
    cases d with
    | none => exact .error _
    | some i =>
      have hrep' := hrep.setStatus i EthernetRx.ethDMARxDescOWN
      have hnext := load_next hrep' (some i)
      show Alike _ (load (Function.update p.words (M.desc i) EthernetRx.ethDMARxDescOWN) (M.desc i)
        buffer2NextDescAddr >>= _) _
      simp only [Placement.descPtr] at hnext
      rw [hnext]
      show Alike _ (release n (M.descPtr (some (ringNext i))) _)
        ((EthernetRx.release n (some (ringNext i)) _).map fun r => (r.1, i :: r.2))
      exact (ih hrep' (some (ringNext i))).map_right fun _ _ h => h

/-- The DMA writes into a buffer. -/
theorem Represents.setBuffer (hrep : Represents M p s) (i : Fin ethRxBufNb)
    (rxBuff : Vector UInt8 ethRxBufSize) :
    Represents M
      { p with bytes := fun a =>
          if h : (a - M.buffer i).toNat < ethRxBufSize then rxBuff[(a - M.buffer i).toNat]
          else p.bytes a }
      { s with
        dmaRxDscrTab := Function.update s.dmaRxDscrTab i
          { s.dmaRxDscrTab i with rxBuff := rxBuff } } := by
  refine { hrep with
    status := fun j => ?_, buffer1 := hrep.buffer1, next := hrep.next, bytes := fun j k hk => ?_ }
    <;> dsimp only
  · by_cases hji : j = i
    · rw [hji, Function.update_self, hrep.status]
    · rw [Function.update_of_ne hji, hrep.status]
  · by_cases hji : j = i
    · subst hji
      have hoff := Placement.toNat_sub_buffer (M := M) (i := j) hk
      rw [dif_pos (by rw [hoff]; exact hk), Function.update_self]
      simp only [hoff]
    · rw [dif_neg fun h => hji (Placement.eq_of_in_buffer hk h).symm, Function.update_of_ne hji,
        hrep.bytes]

/-! ## `low_level_input`, and the runs -/

/-- What holds between the calls: no segment has been counted. -/
def Between (M : Placement) (p : EthernetPointers) (s : EthernetRx) : Prop :=
  Represents M p s ∧ s.segCount = 0

/-- A call does on both sides the same. -/
theorem lowLevelInput_alike (h : Between M p s) (pbufAlloc : PbufAlloc) :
    Alike (fun r r' => Between M r.rx r'.rx ∧ r.p = r'.p ∧ r.resumed = r'.resumed)
      (p.lowLevelInput pbufAlloc) (EthernetRx.lowLevelInput pbufAlloc s) := by
  obtain ⟨hrep, hseg⟩ := h
  have hscan : Alike (Found M) p.ethGetReceivedFrameInterrupt
      (EthernetRx.ethGetReceivedFrameInterrupt s) := scan_alike hrep (by rw [hseg]; decide)
  refine hscan.bind ?_
  rintro ⟨p₁, g⟩ ⟨s₁, f⟩ ⟨hrep₁, hframe⟩
  dsimp only at hrep₁ hframe ⊢
  rw [allocAndCopy_eq hrep₁ pbufAlloc hframe]
  cases EthernetRx.allocAndCopy pbufAlloc s₁.dmaRxDscrTab f with
  | error e => exact .error e
  | ok payloads =>
    have hrelease := release_alike hrep₁ s₁.segCount f.descriptor
    rw [← hframe.descriptor] at hrelease
    show Alike _ (release p₁.segCount.toNat g.descriptor p₁.words >>= _)
      (s₁.releaseFrame f payloads)
    rw [hrep₁.segCount, EthernetRx.releaseFrame]
    refine hrelease.bind fun words r hwords => .ok ⟨⟨?_, rfl⟩, rfl, hrep₁.rbus⟩
    exact { hwords with segCount := rfl, rbus := rfl }

/-- A call or a write of the DMA does on both sides the same. -/
theorem step_alike (p : EthernetPointers) (s : EthernetRx) (e : Event) (h : Between M p s) :
    Option.Rel (Machine.SameOutputs (Between M))
      ((machine M.dmaRxDscrTab.base).step p e) (ringMachine.step s e) := by
  cases e with
  | dma i status rxBuff =>
    obtain ⟨hrep, hseg⟩ := h
    have hdma := (hrep.setStatus i status).setBuffer i rxBuff
    dsimp only at hdma
    rw [Function.update_self, Function.update_idem] at hdma
    refine .some ⟨⟨?_, hseg⟩, rfl⟩
    rw [addr_eq M.descSize_eq]
    show Represents M (p.dma (M.desc i) status rxBuff) _
    rw [dma, hrep.buffer1]
    exact hdma
  | suspend => exact .some ⟨⟨{ h.1 with rbus := rfl }, h.2⟩, rfl⟩
  | input pbufAlloc =>
    have hinput := lowLevelInput_alike h pbufAlloc
    dsimp only [machine, ringMachine]
    revert hinput
    generalize p.lowLevelInput pbufAlloc = x, EthernetRx.lowLevelInput pbufAlloc s = y
    rintro (@⟨r, r', hbetween, hp, hresumed⟩ | e)
    · exact .some ⟨hbetween, by rw [hp, hresumed]⟩
    · exact .none

/-! ## After `low_level_init` -/

/-- The interrupt on reception is configured in one word of a descriptor. -/
theorem receiveITConfig_of_ne {desc a : UInt32} (newState : Bool) (w : Words)
    (ha : a ≠ controlBufferSize desc) : ethDMARxDescReceiveITConfig desc newState w a = w a :=
  Function.update_of_ne ha ..

/-- The ring that `low_level_init` sets up, with what the buffers hold. -/
def initialRing (M : Placement) (p : EthernetPointers) : EthernetRx where
  dmaRxDscrTab i :=
    ⟨EthernetRx.ethDMARxDescOWN, Vector.ofFn fun j => p.bytes (M.buffer i + UInt32.ofNat j)⟩
  dmaRxDescToGet := EthernetRx.firstDesc
  fsRxDesc := none
  lsRxDesc := none
  segCount := 0
  rbus := p.rbus

/-- `low_level_init` leaves what is in a descriptor apart from its `ControlBufferSize`. -/
theorem lowLevelInit_words (p : EthernetPointers) (i : Fin ethRxBufNb) (off : ℕ)
    (hoff : off < descSize) (hne : off ≠ 4) :
    (p.lowLevelInit M.dmaRxDscrTab.base M.rxBuff.base).words (M.desc i + UInt32.ofNat off) =
      rxDescInit.chain M.dmaRxDscrTab.base M.rxBuff.base (UInt32.ofNat ethRxBufNb) p.words
        (M.desc i + UInt32.ofNat off) := by
  apply forEach_unchanged
  intro j hj w
  apply receiveITConfig_of_ne
  rw [addr_eq M.descSize_eq]
  intro h
  exact hne (Placement.desc_add_inj (j := ⟨j, hj⟩) off 4 hoff (by decide) h).2

/-- After the initialisation the memory represents the ring. -/
theorem lowLevelInit_between (p : EthernetPointers) (hfs : p.fsRxDesc = 0) (hls : p.lsRxDesc = 0)
    (hseg : p.segCount = 0) :
    Between M (p.lowLevelInit M.dmaRxDscrTab.base M.rxBuff.base) (initialRing M p) := by
  have hcount : (UInt32.ofNat ethRxBufNb).toNat = M.dmaRxDscrTab.count := M.descCount_eq.symm
  have hwritten := (chain_ring (c := rxDescInit) (w := p.words) M.descSize_eq M.bufSize_eq
    hcount).1
  have hplace : ∀ i : Fin ethRxBufNb, i.val < M.dmaRxDscrTab.count := fun i => by
    rw [M.descCount_eq]
    exact i.isLt
  refine ⟨⟨fun i => ?_, fun i => ?_, fun i => ?_, fun i j hj => ?_, ?_, hfs, hls, ?_, rfl⟩, rfl⟩
  · have hstatus := lowLevelInit_words (M := M) p i 0 (by decide) (by decide)
    rw [show M.desc i + UInt32.ofNat 0 = M.desc i from UInt32.add_zero _] at hstatus
    exact hstatus.trans (hwritten ⟨i, hplace i⟩).status
  · exact (lowLevelInit_words p i 8 (by decide) (by decide)).trans (hwritten ⟨i, hplace i⟩).buffer1
  · have hnext : (ringNext (⟨i, hplace i⟩ : Fin M.dmaRxDscrTab.count)).val = (ringNext i).val :=
      congrArg ((i.val + 1) % ·) M.descCount_eq
    have hword := (hwritten ⟨i, hplace i⟩).next
    rw [hnext] at hword
    exact (lowLevelInit_words p i 12 (by decide) (by decide)).trans hword
  · show _ = (Vector.ofFn _)[j]
    rw [Vector.getElem_ofFn]
    rfl
  · exact (addr_zero M.dmaRxDscrTab).symm
  · exact congrArg UInt32.toNat hseg

/-- **The driver in memory is the driver of the ring.**  `low_level_init` has run, wherever the
descriptors and the buffers are and whatever they held.  Then, over any events, the driver that
follows addresses returns what the driver of the ring returns, or follows a null pointer where
that one does; and in the end the memory holds its ring.
SOURCE: ethernetif.c:105-114, 245-323; stm32f4xx_eth.c:1156-1222, 1313-1351 -/
theorem runs_of_ring (M : Placement) (p : EthernetPointers) (hfs : p.fsRxDesc = 0)
    (hls : p.lsRxDesc = 0) (hseg : p.segCount = 0) (events : List Event) :
    Option.Rel (Machine.SameOutputs (Between M))
      ((machine M.dmaRxDscrTab.base).exec
        (p.lowLevelInit M.dmaRxDscrTab.base M.rxBuff.base) events)
      (ringMachine.exec (initialRing M p) events) :=
  Machine.exec_alike step_alike (lowLevelInit_between p hfs hls hseg) events

/-- A place for the descriptors and for the buffers. -/
def placement : Placement where
  dmaRxDscrTab := ⟨0x20000000, descSize, ethRxBufNb, by decide, by decide⟩
  rxBuff := ⟨0x20010000, ethRxBufSize, ethRxBufNb, by decide, by decide⟩
  descSize_eq := rfl
  descCount_eq := rfl
  bufSize_eq := rfl
  bufCount_eq := rfl

/-- No pbuf is free. -/
def noPbuf : PbufAlloc := ⟨fun _ => none, nofun⟩

/-- The memory before anything has been set up. -/
def blank : EthernetPointers := ⟨fun _ => 0, fun _ => 0, 0, 0, 0, 0, false⟩

/-- A frame of four bytes, with the four of its CRC. -/
def fourBytes : RxDesc := ⟨0x00080300, Vector.replicate ethRxBufSize 7⟩

/-- The ring with the frame in its first descriptor. -/
def fourBytesArrived : EthernetRx :=
  { initialRing placement blank with
    dmaRxDscrTab := Function.update (initialRing placement blank).dmaRxDscrTab
      EthernetRx.firstDesc fourBytes }

/-- A call of the driver of the ring that does not fault. -/
theorem ringStep_input {s : EthernetRx} {pbufAlloc : PbufAlloc} {r : EthernetRx.Received}
    (h : EthernetRx.lowLevelInput pbufAlloc s = .ok r) :
    ringMachine.step s (.input pbufAlloc) = some (r.rx, [⟨r.p, r.resumed⟩]) := by
  simp only [ringMachine, h]

/-- The frame is found and copied. -/
theorem step_input_fourBytes :
    ∃ s chain, ringMachine.step fourBytesArrived (.input onePbuf) =
      some (s, [⟨some chain, false⟩]) ∧ chain.flatten = [7, 7, 7, 7] := by
  have hframe : EthernetRx.IsFrame [fourBytes] := {
    segments := .single ⟨rfl, rfl, rfl⟩
    crc := by
      rintro last ⟨⟩
      decide
    fits := by
      show fourBytes.fl.toNat - 4 ≤ 1 * ethRxBufSize
      decide }
  have hdescs : EthernetRx.descsFrom fourBytesArrived.dmaRxDscrTab EthernetRx.firstDesc
      [fourBytes].length = [fourBytes] := rfl
  obtain ⟨p, hcopy, hdelivered⟩ := Analysis.allocAndCopy_eq onePbuf hdescs hframe rfl
  obtain ⟨chain, rfl, -, hflatten⟩ := hdelivered
  have hinput : EthernetRx.lowLevelInput onePbuf fourBytesArrived = _ :=
    Analysis.lowLevelInput_eq rfl hcopy rfl
  refine ⟨_, chain, ringStep_input hinput, ?_⟩
  have hlength : EthernetRx.frameLength [fourBytes] = 4 := rfl
  have hbytes : EthernetRx.frameBytes [fourBytes] = List.replicate ethRxBufSize 7 := by
    rw [EthernetRx.frameBytes, List.map_singleton, List.flatten_singleton]
    exact Vector.toList_replicate
  rw [hflatten, hlength, hbytes, List.take_replicate]
  rfl

/-- The DMA stops, reception is resumed, and a frame of four bytes is received. -/
theorem runs_of_ring_fourBytes :
    ∃ chain, ((machine 0x20000000).exec (blank.lowLevelInit 0x20000000 0x20010000)
      [.suspend, .input noPbuf,
        .dma EthernetRx.firstDesc fourBytes.status fourBytes.rxBuff, .input onePbuf]).map
          Prod.snd = some [[], [⟨none, true⟩], [], [⟨some chain, false⟩]] ∧
      chain.flatten = [7, 7, 7, 7] := by
  obtain ⟨s, chain, hinput, hflatten⟩ := step_input_fourBytes
  refine ⟨chain, (Machine.outputs_eq (runs_of_ring placement blank rfl rfl rfl _)).trans ?_,
    hflatten⟩
  have hresumed : ringMachine.exec (initialRing placement blank)
      [.suspend, .input noPbuf,
        .dma EthernetRx.firstDesc fourBytes.status fourBytes.rxBuff] =
      some (fourBytesArrived, [[], [⟨none, true⟩], []]) := rfl
  exact congrArg (Option.map Prod.snd) (Machine.exec_concat hresumed hinput)

end EthernetPointers

end Resmod.Analysis
