import Resmod.Analysis.TransmitSegments

/-!
# What `low_level_output` returns

A frame is handed to the DMA when descriptors that were free before are its segments and the
DMA's.  `ETH_Prepare_Transmit_Descriptors` does so for a frame that fits the ring and stands in
its buffers (`handedToDma_prepare`).  The status that it returns is not looked at, and neither
is the way to `error`, nor a semaphore that has not been taken: `ERR_OK` is returned in any case,
and is true just where the frame has been handed over (`truthful_iff`).
-/

set_option autoImplicit false

namespace Resmod.Analysis

open Resmod.Library Resmod.Model Resmod.Model.EthernetTx

variable {tab tab' : DescTab} {d₀ : Fin ethTxBufNb}

/-! ## What the DMA is given -/

/-- The bytes that the DMA sends of `k` descriptors. -/
def sentBytes (tab : DescTab) (d : Fin ethTxBufNb) (k : ℕ) : List UInt8 :=
  ((List.iterate ringNext d k).map fun i => (tab i).txBuff.take (tab i).tbs1).flatten

/-- Between two states `k` descriptors behind `DMATxDescToSet` have been given to the DMA, as
the segments of `frame`. -/
structure GivenToDma (s s' : EthernetTx) (frame : List UInt8) (k : ℕ) : Prop where
  pos : 0 < k
  le : k ≤ ethTxBufNb
  free : FreeAhead s k
  own : ∀ i < k, (s'.dmaTxDscrTab (ringNext^[i] s.dmaTxDescToSet)).own = true
  fs : ∀ i < k, (s'.dmaTxDscrTab (ringNext^[i] s.dmaTxDescToSet)).fs = decide (i = 0)
  ls : ∀ i < k, (s'.dmaTxDscrTab (ringNext^[i] s.dmaTxDescToSet)).ls = decide (i + 1 = k)
  bytes : sentBytes s'.dmaTxDscrTab s.dmaTxDescToSet k = frame
  toSet : s'.dmaTxDescToSet = ringNext^[k] s.dmaTxDescToSet

/-- The frame has been handed to the DMA. -/
def HandedToDma (s s' : EthernetTx) (frame : List UInt8) : Prop := ∃ k, GivenToDma s s' frame k

/-- A frame does not go beyond the ring. -/
theorem length_sentBytes_le (tab : DescTab) (d : Fin ethTxBufNb) (k : ℕ) :
    (sentBytes tab d k).length ≤ k * ethTxBufSize := by
  induction k generalizing d with
  | zero => exact Nat.zero_le _
  | succ k ih =>
    have htake : ((tab d).txBuff.take (tab d).tbs1).length ≤ ethTxBufSize := by
      rw [← (tab d).length_txBuff]
      exact List.length_take_le' _ _
    have hrest := ih (ringNext d)
    unfold sentBytes at hrest ⊢
    rw [List.iterate, List.map_cons, List.flatten_cons, List.length_append, Nat.succ_mul]
    omega

/-- A frame that has been handed over fits the ring, and the descriptors for it were free. -/
theorem HandedToDma.fits {s s' : EthernetTx} {frame : List UInt8} (h : HandedToDma s s' frame) :
    frame.length ≤ ethTxBufNb * ethTxBufSize ∧ FreeAhead s (buffersFor frame.length) := by
  obtain ⟨k, hgiven⟩ := h
  have hlen := length_sentBytes_le s'.dmaTxDscrTab s.dmaTxDescToSet k
  rw [hgiven.bytes] at hlen
  constructor
  · exact hlen.trans (Nat.mul_le_mul_right _ hgiven.le)
  · intro i hi
    exact hgiven.free i (Nat.lt_of_lt_of_le hi (buffersFor_le hgiven.pos hlen))

/-- What a frame that is handed over depends on. -/
theorem HandedToDma.congr {s s' t t' : EthernetTx} {frame : List UInt8}
    (h : HandedToDma s s' frame)
    (hown : ∀ i, (s.dmaTxDscrTab i).own = (t.dmaTxDscrTab i).own)
    (htoSet : s.dmaTxDescToSet = t.dmaTxDescToSet) (htab' : t'.dmaTxDscrTab = s'.dmaTxDscrTab)
    (htoSet' : t'.dmaTxDescToSet = s'.dmaTxDescToSet) : HandedToDma t t' frame := by
  obtain ⟨k, hgiven⟩ := h
  refine ⟨k, ?_⟩
  exact {
    pos := hgiven.pos
    le := hgiven.le
    free := by
      intro i hi
      rw [← hown, ← htoSet]
      exact hgiven.free i hi
    own := by
      rw [htab', ← htoSet]
      exact hgiven.own
    fs := by
      rw [htab', ← htoSet]
      exact hgiven.fs
    ls := by
      rw [htab', ← htoSet]
      exact hgiven.ls
    bytes := by
      rw [htab', ← htoSet]
      exact hgiven.bytes
    toSet := by
      rw [htoSet', ← htoSet]
      exact hgiven.toSet }

/-- Without a descriptor that changes its owner no frame is handed over. -/
theorem not_handedToDma_of_own {s s' : EthernetTx} {frame : List UInt8}
    (h : ∀ i, (s'.dmaTxDscrTab i).own = (s.dmaTxDscrTab i).own) : ¬ HandedToDma s s' frame := by
  rintro ⟨k, hgiven⟩
  have hown := hgiven.own 0 hgiven.pos
  rw [h, hgiven.free 0 hgiven.pos] at hown
  cases hown

/-- The segments of a frame hold what the buffers do. -/
theorem sentBytes_eq {len : ℕ} (hlen : len ≤ ethTxBufNb * ethTxBufSize)
    (h : ∀ j < buffersFor len, IsSegment len (buffersFor len) j (tab (ringNext^[j] d₀))
      (tab' (ringNext^[j] d₀))) :
    sentBytes tab' d₀ (buffersFor len) = (txBytes tab d₀ ethTxBufNb).take len := by
  have hle : buffersFor len ≤ ethTxBufNb := buffersFor_le (by decide) hlen
  have hlength : (txBytes tab d₀ (buffersFor len)).length = buffersFor len * ethTxBufSize := by
    rw [txBytes, length_flatten_blocks (length_bufs _), List.length_map, List.length_iterate]
  have hsegments : ((List.iterate ringNext d₀ (buffersFor len)).map
      fun i => (tab' i).txBuff.take (tab' i).tbs1) =
      ((List.iterate ringNext d₀ (buffersFor len)).map fun i => (tab i).txBuff).mapIdx
        fun i b => b.take (len - i * ethTxBufSize) := by
    apply List.ext_getElem
    · simp only [List.length_map, List.length_mapIdx]
    intro i hi _
    rw [List.length_map, List.length_iterate] at hi
    have hsegment := h i hi
    simp only [List.getElem_map, List.getElem_mapIdx, List.getElem_iterate]
    rw [hsegment.txBuff, hsegment.tbs1, segmentSize, ← List.take_take, List.take_of_length_le]
    exact (List.length_take_le' _ _).trans (TxDesc.length_txBuff _).le
  rw [sentBytes, hsegments, flatten_mapIdx_take (length_bufs _)]
  show (txBytes tab d₀ (buffersFor len)).take len = _
  rw [txBytes, txBytes, iterate_ringNext_split d₀ hle, List.map_append, List.flatten_append,
    List.take_append_of_le_length]
  exact (le_buffersFor_mul len).trans hlength.ge

/-- **The preparation of a frame** whose bytes stand in the buffers. -/
theorem handedToDma_prepare {s : EthernetTx} {frame : List UInt8} {frameLength : UInt16}
    (hframeLength : frameLength.toNat = frame.length)
    (hlen : frame.length ≤ ethTxBufNb * ethTxBufSize)
    (hfree : FreeAhead s (buffersFor frame.length))
    (hbytes : (txBytes s.dmaTxDscrTab s.dmaTxDescToSet ethTxBufNb).take frame.length = frame) :
    HandedToDma s (ethPrepareTransmitDescriptors frameLength s).2 frame := by
  have hle : buffersFor frame.length ≤ ethTxBufNb := buffersFor_le (by decide) hlen
  have hfit : buffersFor frameLength.toNat ≤ ethTxBufNb := by
    rw [hframeLength]
    exact hle
  obtain ⟨t', hprepare, hset, htoSet, -⟩ :=
    ethPrepareTransmitDescriptors_eq (hfree 0 (buffersFor_pos _)) hfit
  rw [hframeLength] at hset htoSet
  rw [hprepare]
  refine ⟨buffersFor frame.length, ?_⟩
  exact {
    pos := buffersFor_pos _
    le := hle
    free := hfree
    own := fun i hi => (hset.set i hi).own
    fs := fun i hi => (hset.set i hi).fs
    ls := fun i hi => (hset.set i hi).ls
    bytes := (sentBytes_eq hlen hset.set).trans hbytes
    toSet := htoSet }

/-! ## The result -/

/-- A call always returns `ERR_OK`. -/
theorem exists_lowLevelOutput (taken : Bool) (s : EthernetTx) (p : List (List UInt8)) :
    ∃ r, lowLevelOutput taken s p = .ok r ∧ r.err = errOk := by
  cases taken with
  | false => exact ⟨_, rfl, rfl⟩
  | true =>
    obtain ⟨tab, -, ⟨-, -, hcopy⟩ | ⟨-, hcopy⟩⟩ :=
      copyAndPrepare_cases { s with xTxSemaphore := some false } p
    · exact ⟨_, lowLevelOutput_taken hcopy, rfl⟩
    · exact ⟨_, lowLevelOutput_taken hcopy, rfl⟩

/-- Without the semaphore nothing is handed over. -/
theorem not_handedToDma_timeout (s : EthernetTx) (p : List (List UInt8)) {r : Transmitted}
    (hr : lowLevelOutput false s p = .ok r) : ¬ HandedToDma s r.tx p.flatten := by
  apply not_handedToDma_of_own
  intro i
  obtain rfl := Except.ok.inj hr
  show ((resumeTransmission (createSemaphore s)).dmaTxDscrTab i).own = _
  rw [tab_resumeTransmission, createSemaphore]
  split <;> rfl

/-- A chain needs no more buffers than its bytes fill. -/
theorem needed_le (p : List (List UInt8)) : needed p ≤ buffersFor p.flatten.length := by
  unfold needed
  split
  · exact Nat.zero_le _
  · exact Nat.le_refl _

/-- With the semaphore and enough free descriptors the frame is handed over. -/
theorem handedToDma_of_free {s : EthernetTx} {p : List (List UInt8)} {r : Transmitted}
    (hr : lowLevelOutput true s p = .ok r)
    (hfit : p.flatten.length ≤ ethTxBufNb * ethTxBufSize)
    (hfree : FreeAhead s (buffersFor p.flatten.length)) : HandedToDma s r.tx p.flatten := by
  obtain ⟨tab, hkept, ⟨-, hbytes, hcopy⟩ | ⟨howned, -⟩⟩ :=
    copyAndPrepare_cases { s with xTxSemaphore := some false } p
  · rw [lowLevelOutput_taken hcopy] at hr
    obtain rfl := Except.ok.inj hr
    have hfree' : FreeAhead (withTab { s with xTxSemaphore := some false } tab)
        (buffersFor p.flatten.length) := fun i hi => (hkept.own _).trans (hfree i hi)
    have hprepared := handedToDma_prepare (toNat_frameLength hfit) hfit hfree' (hbytes hfit)
    exact hprepared.congr hkept.own rfl (tab_resumeTransmission _) (toSet_resumeTransmission _)
  · refine absurd ?_ howned
    exact fun i hi => hfree i (Nat.lt_of_lt_of_le hi (needed_le p))

/-- **When the result is true.**  For every chain, every state of the ring and both results of
`xSemaphoreTake`, `low_level_output` returns, and `ERR_OK` says that the frame has been handed to
the DMA, if and only if the semaphore is taken, the frame fits the ring and the descriptors for
it are free.
SOURCE: ethernetif.c:139-235, stm32f4xx_eth.c:1224-1304 -/
theorem truthful_iff (taken : Bool) (s : EthernetTx) (p : List (List UInt8)) :
    (∃ r, lowLevelOutput taken s p = .ok r ∧
        (r.err = errOk ↔ HandedToDma s r.tx p.flatten)) ↔
      taken = true ∧ p.flatten.length ≤ ethTxBufNb * ethTxBufSize ∧
        FreeAhead s (buffersFor p.flatten.length) := by
  constructor
  · rintro ⟨r, hr, htruthful⟩
    obtain ⟨r', hr', herr⟩ := exists_lowLevelOutput taken s p
    obtain rfl : r = r' := Except.ok.inj (hr.symm.trans hr')
    have hhanded := htruthful.mp herr
    refine ⟨?_, hhanded.fits⟩
    cases taken with
    | false => exact absurd hhanded (not_handedToDma_timeout s p hr)
    | true => rfl
  · rintro ⟨rfl, hfit, hfree⟩
    obtain ⟨r, hr, herr⟩ := exists_lowLevelOutput true s p
    exact ⟨r, hr, iff_of_true herr (handedToDma_of_free hr hfit hfree)⟩

/-- A frame that is dropped because of a time-out is reported as sent. -/
theorem not_truthful_timeout :
    ¬ ∃ r, lowLevelOutput false freshTx [[1, 2], [3]] = .ok r ∧
      (r.err = errOk ↔ HandedToDma freshTx r.tx [[1, 2], [3]].flatten) := by
  rintro ⟨r, hr, htruthful⟩
  obtain ⟨r', hr', herr⟩ := exists_lowLevelOutput false freshTx [[1, 2], [3]]
  obtain rfl : r = r' := Except.ok.inj (hr.symm.trans hr')
  exact not_handedToDma_timeout freshTx _ hr (htruthful.mp herr)

end Resmod.Analysis
