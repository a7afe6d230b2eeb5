import Resmod.Model.EthernetTx

/-!
# Gathering a frame for transmission

`low_level_output` gathers the payloads of a chain in the buffers of the ring.  When the
descriptors that the frame needs are free, `ETH_Prepare_Transmit_Descriptors` is called with its
length and the buffers hold it; when one of them is not, the status of every descriptor stays as
it is (`gathered_or_abandoned`).  The copy has one invariant, `CopiedTo`, which says how far it is
in the ring and in the frame; `CopyEnd` are the two ways in which it ends.
-/

set_option autoImplicit false

namespace Resmod.Analysis

open Resmod.Library Resmod.Model Resmod.Model.EthernetTx

/-! ## Frames in the ring -/

/-- The buffers from `d` on, one behind the other. -/
def txBytes (tab : DescTab) (d : Fin ethTxBufNb) (k : ℕ) : List UInt8 :=
  ((List.iterate ringNext d k).map fun i => (tab i).txBuff).flatten

/-- How many buffers a frame takes. -/
def buffersFor (len : ℕ) : ℕ := max 1 ((len + ethTxBufSize - 1) / ethTxBufSize)

/-- The first `k` descriptors behind `DMATxDescToSet` are not owned by the DMA. -/
def FreeAhead (s : EthernetTx) (k : ℕ) : Prop :=
  ∀ i < k, (s.dmaTxDscrTab (ringNext^[i] s.dmaTxDescToSet)).own = false

/-- The buffers that a frame needs. -/
theorem lt_buffersFor_iff {len i : ℕ} : i < buffersFor len ↔ i = 0 ∨ i * ethTxBufSize < len := by
  unfold buffersFor
  rw [lt_max_iff, Nat.lt_one_iff, ← Nat.succ_le_iff (m := i), Nat.le_div_iff_mul_le
    ethTxBufSize_pos, Nat.succ_mul]
  have hpos := ethTxBufSize_pos
  constructor
  · rintro (h | h)
    · exact .inl h
    · exact .inr (by omega)
  · rintro (h | h)
    · exact .inl h
    · exact .inr (by omega)

/-- The frame fits its buffers. -/
theorem le_buffersFor_mul (len : ℕ) : len ≤ buffersFor len * ethTxBufSize := by
  by_contra h
  have hlt := lt_buffersFor_iff.mpr (.inr (Nat.lt_of_not_le h))
  exact Nat.lt_irrefl _ hlt

/-- A frame that fits some buffers needs no more. -/
theorem buffersFor_le {len k : ℕ} (hk : 0 < k) (h : len ≤ k * ethTxBufSize) :
    buffersFor len ≤ k := by
  by_contra hlt
  rcases lt_buffersFor_iff.mp (Nat.lt_of_not_le hlt) with hzero | hmul
  · omega
  · omega

/-- A longer frame needs no fewer buffers. -/
theorem buffersFor_mono {len len' : ℕ} (h : len ≤ len') : buffersFor len ≤ buffersFor len' :=
  buffersFor_le (Nat.lt_of_lt_of_le Nat.one_pos (Nat.le_max_left _ _))
    (Nat.le_trans h (le_buffersFor_mul len'))

/-- A number of buffers that is enough, when one less is not. -/
theorem eq_buffersFor {len k : ℕ} (hle : len ≤ (k + 1) * ethTxBufSize)
    (hlt : k = 0 ∨ k * ethTxBufSize < len) : k + 1 = buffersFor len :=
  Nat.le_antisymm (lt_buffersFor_iff.mpr hlt) (buffersFor_le (Nat.succ_pos k) hle)

/-- The count of the peripheral library. -/
theorem bufCount_eq (len : ℕ) : bufCount len = buffersFor len := by
  have hpos := ethTxBufSize_pos
  have hdiv := Nat.div_add_mod' len ethTxBufSize
  have hmod := Nat.mod_lt len hpos
  unfold bufCount
  by_cases h : ethTxBufSize < len
  · rw [if_pos h]
    by_cases hrest : len % ethTxBufSize = 0
    · obtain ⟨k, hk⟩ : ∃ k, len / ethTxBufSize = k + 1 :=
        Nat.exists_eq_add_one.mpr (Nat.div_pos h.le hpos)
      rw [hk] at hdiv ⊢
      rw [Nat.succ_mul] at hdiv
      show (if len % ethTxBufSize ≠ 0 then _ else _) = _
      rw [if_neg (not_not_intro hrest)]
      apply eq_buffersFor
      · rw [Nat.succ_mul]
        omega
      · exact .inr (by omega)
    · show (if len % ethTxBufSize ≠ 0 then _ else _) = _
      rw [if_pos hrest]
      apply eq_buffersFor
      · rw [Nat.succ_mul]
        omega
      · exact .inr (by omega)
  · rw [if_neg h]
    exact eq_buffersFor (by omega) (.inl rfl)

variable {tab tab₀ tab' : DescTab} {d₀ : Fin ethTxBufNb} {j off poff count left : ℕ}
  {frame payload : List UInt8}

/-- All buffers are of one length. -/
theorem length_bufs (k : ℕ) :
    ∀ b ∈ (List.iterate ringNext d₀ k).map fun i => (tab i).txBuff, b.length = ethTxBufSize := by
  intro b hb
  obtain ⟨i, -, rfl⟩ := List.mem_map.mp hb
  exact (tab i).length_txBuff

/-- One of the buffers is written to. -/
theorem map_txBuff_update (hj : j < ethTxBufNb) (x : TxDesc) :
    (List.iterate ringNext d₀ ethTxBufNb).map
        (fun i => (Function.update tab (ringNext^[j] d₀) x i).txBuff) =
      ((List.iterate ringNext d₀ ethTxBufNb).map fun i => (tab i).txBuff).set j x.txBuff := by
  rw [← map_update_iterate_ringNext _ d₀ hj (Nat.le_refl _)]
  apply List.map_congr_left
  intro i _
  by_cases hi : i = ringNext^[j] d₀
  · rw [hi, Function.update_self, Function.update_self]
  · rw [Function.update_of_ne hi, Function.update_of_ne hi]

/-! ## The copy -/

/-- What the copy leaves alone. -/
structure Kept (tab₀ tab : DescTab) : Prop where
  status : ∀ i, (tab i).status = (tab₀ i).status
  controlBufferSize : ∀ i, (tab i).controlBufferSize = (tab₀ i).controlBufferSize
  owned : ∀ i, (tab₀ i).own = true → tab i = tab₀ i

/-- Nothing has been changed. -/
theorem Kept.refl (tab : DescTab) : Kept tab tab := ⟨fun _ => rfl, fun _ => rfl, fun _ _ => rfl⟩

/-- The owner of a descriptor is unchanged. -/
theorem Kept.own (h : Kept tab₀ tab) (i : Fin ethTxBufNb) : (tab i).own = (tab₀ i).own := by
  unfold TxDesc.own
  rw [h.status]

/-- The buffer of a free descriptor is written to. -/
theorem Kept.write (h : Kept tab₀ tab) {d : Fin ethTxBufNb} (hfree : (tab₀ d).own = false)
    {x : TxDesc} (hstatus : x.status = (tab d).status)
    (hsize : x.controlBufferSize = (tab d).controlBufferSize) :
    Kept tab₀ (Function.update tab d x) where
  status := by
    intro i
    by_cases hi : i = d
    · rw [hi, Function.update_self, hstatus, h.status]
    · rw [Function.update_of_ne hi, h.status]
  controlBufferSize := by
    intro i
    by_cases hi : i = d
    · rw [hi, Function.update_self, hsize, h.controlBufferSize]
    · rw [Function.update_of_ne hi, h.controlBufferSize]
  owned := by
    intro i hown
    rw [Function.update_of_ne]
    · exact h.owned i hown
    · rintro rfl
      rw [hfree] at hown
      cases hown

/-- **The invariant of the copy.**  The part `frame` of the frame stands in the buffers up to
offset `off` of the one at place `j`, and the descriptors up to that place are free.  Beyond the
ring the copy has come round and overwrites what it has written. -/
structure CopiedTo (tab₀ tab : DescTab) (d₀ : Fin ethTxBufNb) (j off : ℕ) (frame : List UInt8) :
    Prop extends Kept tab₀ tab where
  off_le : off ≤ ethTxBufSize
  length : frame.length = j * ethTxBufSize + off
  free : ∀ i ≤ j, (tab₀ (ringNext^[i] d₀)).own = false
  bytes : j < ethTxBufNb → (txBytes tab d₀ ethTxBufNb).take frame.length = frame

/-- Before the first byte. -/
theorem CopiedTo.start (h : (tab₀ d₀).own = false) : CopiedTo tab₀ tab₀ d₀ 0 0 [] where
  toKept := Kept.refl tab₀
  off_le := Nat.zero_le _
  length := by simp
  free := by
    intro i hi
    obtain rfl := Nat.le_zero.mp hi
    exact h
  bytes := fun _ => rfl

/-- The next buffer, when this one is full. -/
theorem CopiedTo.next (h : CopiedTo tab₀ tab d₀ j ethTxBufSize frame)
    (hfree : (tab₀ (ringNext^[j + 1] d₀)).own = false) :
    CopiedTo tab₀ tab d₀ (j + 1) 0 frame where
  toKept := h.toKept
  off_le := Nat.zero_le _
  length := by rw [h.length, Nat.succ_mul, Nat.add_zero]
  free := by
    intro i hi
    rcases Nat.le_succ_iff.mp hi with hle | rfl
    · exact h.free i hle
    · exact hfree
  bytes := fun hj => h.bytes (by omega)

/-- One `memcpy` to the buffer at place `j`. -/
theorem CopiedTo.memcpy (h : CopiedTo tab₀ tab d₀ j off frame) (hoff : off + count ≤ ethTxBufSize)
    (hpayload : poff + count ≤ payload.length) :
    ∃ tab', memcpy tab (ringNext^[j] d₀) off payload poff count = .ok tab' ∧
      CopiedTo tab₀ tab' d₀ j (off + count) (frame ++ slice payload poff count) := by
  have hfit : off + count ≤ (tab (ringNext^[j] d₀)).txBuff.length := by
    rw [TxDesc.length_txBuff]
    exact hoff
  have hslice := length_slice hpayload
  unfold EthernetTx.memcpy
  split
  · next hnone =>
    rw [copy_eq_some hpayload hfit] at hnone
    cases hnone
  next txBuff hcopy =>
  refine ⟨_, rfl, ?_⟩
  exact {
    toKept := h.toKept.write (h.free j (Nat.le_refl j)) rfl rfl
    off_le := hoff
    length := by
      rw [List.length_append, hslice, h.length, Nat.add_assoc]
    free := h.free
    bytes := by
      intro hj
      have hbuff : ((List.iterate ringNext d₀ ethTxBufNb).map fun i => (tab i).txBuff)[j]? =
          some (tab (ringNext^[j] d₀)).txBuff := by
        simp [hj]
      have hring := copy_flatten (length_bufs ethTxBufNb) hbuff hcopy
      obtain ⟨⟨hsrc, hdst⟩, -⟩ := copy_eq_some_iff.mp hring
      obtain ⟨dst, hdst', -, htake⟩ := exists_copy hsrc hdst
      rw [hring] at hdst'
      obtain rfl := Option.some.inj hdst'
      have hbytes := h.bytes hj
      rw [h.length] at hbytes
      rw [List.length_append, hslice, h.length, txBytes, map_txBuff_update hj,
        htake]
      exact congrArg (· ++ _) hbytes }

/-- The cursor at offset `off` of the buffer at place `j`. -/
def cursorAt (d₀ : Fin ethTxBufNb) (j off : ℕ) : Cursor :=
  ⟨ringNext^[j] d₀, ringNext^[j] d₀, off, j * ethTxBufSize + off⟩

/-- How a copy of `frame` ends: behind it, or at a descriptor that the DMA owns.  In both cases
the frame needs the descriptor at this place. -/
inductive CopyEnd (tab₀ : DescTab) (d₀ : Fin ethTxBufNb) (frame : List UInt8) :
    DescTab → Option Cursor → Prop
  | done {tab : DescTab} {j off : ℕ} (hj : j < buffersFor frame.length)
      (h : CopiedTo tab₀ tab d₀ j off frame) :
      CopyEnd tab₀ d₀ frame tab (some (cursorAt d₀ j off))
  | busy {tab : DescTab} {j : ℕ} (hj : j < buffersFor frame.length) (h : Kept tab₀ tab)
      (hown : (tab₀ (ringNext^[j] d₀)).own = true) : CopyEnd tab₀ d₀ frame tab none

/-- **The copy of one pbuf**, from what is left of its payload on.
SOURCE: ethernetif.c:185-216 -/
theorem CopiedTo.fill (h : CopiedTo tab₀ tab d₀ j off frame)
    (hj : j < buffersFor (frame.length + left)) (hpayload : payload.length = poff + left) :
    ∃ tab' c, fill payload left poff (cursorAt d₀ j off) tab = .ok (tab', c) ∧
      CopyEnd tab₀ d₀ (frame ++ slice payload poff left) tab' c := by
  induction hn : left + off using Nat.strongRecOn generalizing left poff j off tab frame with
  | _ n ih =>
    have hoff := h.off_le
    have hpos := ethTxBufSize_pos
    rw [EthernetTx.fill]
    by_cases hlong : ethTxBufSize < left + (cursorAt d₀ j off).bufferoffset
    · have hlong' : ethTxBufSize < left + off := hlong
      -- the buffer is filled up, and the next descriptor is looked at
      obtain ⟨count, hcount⟩ : ∃ count, count = ethTxBufSize - off := ⟨_, rfl⟩
      have hend : off + count = ethTxBufSize := by omega
      have hrest : poff + count ≤ payload.length := by omega
      obtain ⟨tab', hcopy, hfilled⟩ := h.memcpy hend.le hrest
      have hparts : frame ++ slice payload poff left =
          frame ++ slice payload poff count ++ slice payload (poff + count) (left - count) := by
        rw [List.append_assoc, slice_append_slice, Nat.add_sub_cancel' (by omega)]
      have hlen := hfilled.length
      rw [hend] at hfilled hlen
      have hplace : j + 1 < buffersFor (frame.length + left) := by
        rw [lt_buffersFor_iff, h.length, Nat.succ_mul]
        omega
      rw [dif_pos hlong]
      simp only [cursorAt, ← hcount, hcopy]
      show ∃ tab'' c, (if (tab' (ringNext (ringNext^[j] d₀))).own then _ else _) = _ ∧ _
      rw [← Function.iterate_succ_apply' ringNext j d₀, hfilled.toKept.own]
      cases hown : (tab₀ (ringNext^[j + 1] d₀)).own with
      | true =>
        rw [if_pos rfl]
        refine ⟨tab', none, rfl, CopyEnd.busy ?_ hfilled.toKept hown⟩
        rw [List.length_append, length_slice hpayload.ge]
        exact hplace
      | false =>
        rw [if_neg Bool.false_ne_true, hparts]
        have hnext := hfilled.next hown
        have hcursor : (⟨ringNext^[j + 1] d₀, ringNext^[j + 1] d₀, 0,
            j * ethTxBufSize + off + count⟩ : Cursor) = cursorAt d₀ (j + 1) 0 := by
          have hframelength : j * ethTxBufSize + off + count = (j + 1) * ethTxBufSize + 0 := by
            rw [Nat.succ_mul]
            omega
          unfold cursorAt
          rw [hframelength]
        rw [hcursor]
        apply ih (left - count + 0) (by omega) hnext _ (by omega) rfl
        rw [List.length_append, length_slice hrest, Nat.add_assoc,
          Nat.add_sub_cancel' (by omega)]
        exact hplace
    · have hend : off + left ≤ ethTxBufSize := by
        rw [Nat.add_comm]
        exact Nat.le_of_not_lt hlong
      obtain ⟨tab', hcopy, hfilled⟩ := h.memcpy hend hpayload.ge
      rw [dif_neg hlong]
      simp only [cursorAt, hcopy]
      refine ⟨tab', _, rfl, ?_⟩
      rw [Nat.add_assoc]
      refine .done ?_ hfilled
      rw [List.length_append, length_slice hpayload.ge]
      exact hj

/-- **The copy of a chain.**
SOURCE: ethernetif.c:179-217 -/
theorem CopiedTo.copyChain {p : List (List UInt8)} (h : CopiedTo tab₀ tab d₀ j off frame)
    (hj : j < buffersFor frame.length) :
    ∃ tab' c, copyChain p (cursorAt d₀ j off) tab = .ok (tab', c) ∧
      CopyEnd tab₀ d₀ (frame ++ p.flatten) tab' c := by
  induction p generalizing tab j off frame with
  | nil =>
    refine ⟨tab, _, rfl, ?_⟩
    rw [List.flatten_nil, List.append_nil]
    exact .done hj h
  | cons payload p ih =>
    have hfree : ¬ (tab (cursorAt d₀ j off).dmaTxDesc).own = true := by
      rw [h.toKept.own]
      exact Bool.eq_false_iff.mp (h.free j (Nat.le_refl j))
    have hplace := Nat.lt_of_lt_of_le hj (buffersFor_mono (Nat.le_add_right _ payload.length))
    obtain ⟨tab', c, hfill, hend⟩ := h.fill hplace (Nat.zero_add payload.length).symm
    have hwhole : slice payload 0 payload.length = payload := by
      rw [slice, List.drop_zero, List.take_length]
    rw [hwhole] at hend
    rw [EthernetTx.copyChain, if_neg hfree, hfill, List.flatten_cons, ← List.append_assoc]
    cases hend with
    | done hj hfilled => exact ih hfilled hj
    | busy hj hkept hown =>
      have hlonger := buffersFor_mono (List.prefix_append (frame ++ payload) p.flatten).length_le
      exact ⟨tab', none, rfl, CopyEnd.busy (Nat.lt_of_lt_of_le hj hlonger) hkept hown⟩

/-- The copy of a frame. -/
theorem copyChain_start (tab₀ : DescTab) (d₀ : Fin ethTxBufNb) {p : List (List UInt8)}
    (hp : p ≠ []) :
    ∃ tab' c, copyChain p ⟨d₀, d₀, 0, 0⟩ tab₀ = .ok (tab', c) ∧
      CopyEnd tab₀ d₀ p.flatten tab' c := by
  have hzero : ∀ len, 0 < buffersFor len := fun len => lt_buffersFor_iff.mpr (.inl rfl)
  cases hown : (tab₀ d₀).own with
  | false =>
    have hcursor : (⟨d₀, d₀, 0, 0⟩ : Cursor) = cursorAt d₀ 0 0 := by
      rw [cursorAt, Nat.zero_mul]
      rfl
    rw [hcursor]
    exact (CopiedTo.start hown).copyChain (hzero _)
  | true =>
    obtain ⟨payload, p, rfl⟩ := List.exists_cons_of_ne_nil hp
    refine ⟨tab₀, none, ?_, CopyEnd.busy (hzero _) (Kept.refl tab₀) hown⟩
    rw [EthernetTx.copyChain, if_pos hown]
    rfl

/-! ## A call of `low_level_output` -/

/-- How many descriptors the copy of a chain needs. -/
def needed (p : List (List UInt8)) : ℕ := if p = [] then 0 else buffersFor p.flatten.length

/-- The state of the driver with other descriptors. -/
def withTab (s : EthernetTx) (tab : DescTab) : EthernetTx := { s with dmaTxDscrTab := tab }

/-- With the semaphore taken the chain is copied, and the frame is prepared if the descriptors
that it needs are free, and only then. -/
theorem copyAndPrepare_cases (s : EthernetTx) (p : List (List UInt8)) :
    ∃ tab, Kept s.dmaTxDscrTab tab ∧
      ((FreeAhead s (needed p) ∧
        (p.flatten.length ≤ ethTxBufNb * ethTxBufSize →
          (txBytes tab s.dmaTxDescToSet ethTxBufNb).take p.flatten.length = p.flatten) ∧
        copyAndPrepare s p = .ok
          ((ethPrepareTransmitDescriptors (UInt16.ofNat p.flatten.length) (withTab s tab)).2,
            [⟨UInt16.ofNat p.flatten.length, withTab s tab⟩])) ∨
      (¬ FreeAhead s (needed p) ∧ copyAndPrepare s p = .ok (withTab s tab, []))) := by
  by_cases hp : p = []
  · subst hp
    refine ⟨s.dmaTxDscrTab, Kept.refl _, .inl ⟨?_, fun _ => rfl, rfl⟩⟩
    exact fun i hi => absurd hi (Nat.not_lt_zero i)
  obtain ⟨tab, c, hcopy, hend⟩ := copyChain_start s.dmaTxDscrTab s.dmaTxDescToSet hp
  unfold copyAndPrepare needed
  rw [if_neg hp]
  simp only [hcopy]
  cases hend with
  | @done j off hj h =>
    refine ⟨tab, h.toKept, .inl ⟨?_, ?_, ?_⟩⟩
    · intro i hi
      have hlen := h.length
      have hoff := h.off_le
      have hle : buffersFor p.flatten.length ≤ j + 1 := by
        apply buffersFor_le (Nat.succ_pos j)
        rw [Nat.succ_mul]
        omega
      exact h.free i (Nat.le_of_lt_succ (Nat.lt_of_lt_of_le hi hle))
    · intro hfit
      exact h.bytes (Nat.lt_of_lt_of_le hj (buffersFor_le (by decide) hfit))
    · rw [h.length]
      rfl
  | @busy j hj h hown =>
    refine ⟨tab, h, .inr ⟨?_, rfl⟩⟩
    intro hfree
    rw [hfree j hj] at hown
    cases hown

/-- A call with the semaphore taken. -/
theorem lowLevelOutput_taken {s s' : EthernetTx} {p : List (List UInt8)}
    {prepared : List Preparation}
    (h : copyAndPrepare { s with xTxSemaphore := some false } p = .ok (s', prepared)) :
    lowLevelOutput true s p =
      .ok ⟨resumeTransmission { s' with xTxSemaphore := some true }, errOk, prepared⟩ := by
  have hcreate : { createSemaphore s with xTxSemaphore := some false } =
      { s with xTxSemaphore := some false } := by
    unfold createSemaphore
    split <;> rfl
  unfold lowLevelOutput
  rw [if_pos rfl, hcreate]
  show (copyAndPrepare { s with xTxSemaphore := some false } p >>= _) = _
  rw [h]
  rfl

/-- The descriptors are left as they are. -/
theorem tab_resumeTransmission (s : EthernetTx) :
    (resumeTransmission s).dmaTxDscrTab = s.dmaTxDscrTab := by
  unfold resumeTransmission
  split <;> rfl

/-- The next descriptor to set stays the same. -/
theorem toSet_resumeTransmission (s : EthernetTx) :
    (resumeTransmission s).dmaTxDescToSet = s.dmaTxDescToSet := by
  unfold resumeTransmission
  split <;> rfl

/-- The semaphore is left as it is. -/
theorem xTxSemaphore_resumeTransmission (s : EthernetTx) :
    (resumeTransmission s).xTxSemaphore = s.xTxSemaphore := by
  unfold resumeTransmission
  split <;> rfl

/-- `ETH_Prepare_Transmit_Descriptors` is called for a frame that stands in the buffers: these
hold the payloads in order, and all of them but the last are full. -/
structure Gathered (s : EthernetTx) (p : List (List UInt8)) (call : Preparation) : Prop
    extends Kept s.dmaTxDscrTab call.tx.dmaTxDscrTab where
  frameLength : call.frameLength.toNat = p.flatten.length
  toSet : call.tx.dmaTxDescToSet = s.dmaTxDescToSet
  bytes : (txBytes call.tx.dmaTxDscrTab s.dmaTxDescToSet ethTxBufNb).take p.flatten.length =
    p.flatten
  full : ∀ i, i + 1 < needed p → (i + 1) * ethTxBufSize ≤ p.flatten.length

/-- The frame is given up: `DMATxDescToSet`, the status of every descriptor and all that the
DMA owns are as before. -/
structure Abandoned (s : EthernetTx) (r : Transmitted) : Prop
    extends Kept s.dmaTxDscrTab r.tx.dmaTxDscrTab where
  prepared : r.prepared = []
  toSet : r.tx.dmaTxDescToSet = s.dmaTxDescToSet

/-- A frame that fits the ring has a length of sixteen bits. -/
theorem toNat_frameLength {len : ℕ} (h : len ≤ ethTxBufNb * ethTxBufSize) :
    (UInt16.ofNat len).toNat = len :=
  UInt16.toNat_ofNat_of_lt' (Nat.lt_of_le_of_lt h (by decide))

/-- The buffers before the last one are full. -/
theorem full_of_lt_needed {p : List (List UInt8)} {i : ℕ} (h : i + 1 < needed p) :
    (i + 1) * ethTxBufSize ≤ p.flatten.length := by
  unfold needed at h
  split at h
  · exact absurd h (Nat.not_lt_zero _)
  · rcases lt_buffersFor_iff.mp h with hzero | hlt
    · exact absurd hzero (Nat.succ_ne_zero i)
    · exact hlt.le

/-- **A frame is gathered or abandoned.**  For every chain that fits the ring and every state of
the ring, a call that holds the semaphore gives it back.  If the descriptors that the frame
needs are free, the frame is gathered and then prepared, once; if one of them is owned by the
DMA, it is abandoned.
SOURCE: ethernetif.c:155-235 -/
theorem gathered_or_abandoned (s : EthernetTx) (p : List (List UInt8))
    (hfit : p.flatten.length ≤ ethTxBufNb * ethTxBufSize) :
    ∃ r, lowLevelOutput true s p = .ok r ∧ r.tx.xTxSemaphore = some true ∧
      ((FreeAhead s (needed p) ∧ ∃ call, r.prepared = [call] ∧ Gathered s p call) ∨
        (¬ FreeAhead s (needed p) ∧ Abandoned s r)) := by
  obtain ⟨tab, hkept, ⟨hfree, hbytes, hcopy⟩ | ⟨howned, hcopy⟩⟩ :=
    copyAndPrepare_cases { s with xTxSemaphore := some false } p
  · refine ⟨_, lowLevelOutput_taken hcopy, xTxSemaphore_resumeTransmission _,
      .inl ⟨hfree, _, rfl, ?_⟩⟩
    exact {
      toKept := hkept
      frameLength := toNat_frameLength hfit
      toSet := rfl
      bytes := hbytes hfit
      full := fun i => full_of_lt_needed }
  · refine ⟨_, lowLevelOutput_taken hcopy, xTxSemaphore_resumeTransmission _,
      .inr ⟨howned, ?_⟩⟩
    exact {
      toKept := by
        rw [tab_resumeTransmission]
        exact hkept
      prepared := rfl
      toSet := toSet_resumeTransmission _ }

/-- An empty buffer, behind a status. -/
def blankTxDesc (status : BitVec 32) : TxDesc :=
  ⟨status, 0#32, List.replicate ethTxBufSize 0, List.length_replicate⟩

/-- The driver before its first frame. -/
def freshTx : EthernetTx := ⟨fun _ => blankTxDesc 0#32, firstDesc, false, false, 0, none⟩

/-- A frame in two pbufs. -/
theorem gathered_or_abandoned_twoPbufs :
    ∃ r, lowLevelOutput true freshTx [[1, 2], [3]] = .ok r ∧ r.tx.xTxSemaphore = some true ∧
      ((FreeAhead freshTx (needed [[1, 2], [3]]) ∧
          ∃ call, r.prepared = [call] ∧ Gathered freshTx [[1, 2], [3]] call) ∨
        (¬ FreeAhead freshTx (needed [[1, 2], [3]]) ∧ Abandoned freshTx r)) :=
  gathered_or_abandoned freshTx [[1, 2], [3]] (by decide)

end Resmod.Analysis
