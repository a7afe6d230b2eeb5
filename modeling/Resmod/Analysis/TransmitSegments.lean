import Resmod.Library.BitFields
import Resmod.Analysis.EthernetTx

/-!
# The segments of a frame

`ETH_Prepare_Transmit_Descriptors` cuts a frame into one segment for each buffer that it needs.
The descriptor of a segment gets the size of its part, the first and the last one their marks,
and each of them is given to the DMA; no other descriptor changes (`SetFrom`).
-/

set_option autoImplicit false

namespace Resmod.Analysis

open Resmod.Library Resmod.Model Resmod.Model.EthernetTx

/-! ## The descriptor of a segment -/

/-- The descriptor belongs to the DMA. -/
theorem own_eq (d : TxDesc) : d.own = d.status.getLsbD 31 :=
  and_twoPow_bne_zero d.status (k := 31) (by decide)

/-- It is the first one of a frame. -/
theorem fs_eq (d : TxDesc) : d.fs = d.status.getLsbD 28 :=
  and_twoPow_bne_zero d.status (k := 28) (by decide)

/-- It is the last one of a frame. -/
theorem ls_eq (d : TxDesc) : d.ls = d.status.getLsbD 29 :=
  and_twoPow_bne_zero d.status (k := 29) (by decide)

/-- What a segment holds of a frame of length `len`. -/
def segmentSize (len i : ℕ) : ℕ := min ethTxBufSize (len - i * ethTxBufSize)

/-- Descriptor `d` has been set up as segment `i` of `count`, and given to the DMA. -/
structure IsSegment (len count i : ℕ) (d d' : TxDesc) : Prop where
  own : d'.own = true
  fs : d'.fs = decide (i = 0)
  ls : d'.ls = decide (i + 1 = count)
  tbs1 : d'.tbs1 = segmentSize len i
  txBuff : d'.txBuff = d.txBuff

/-- The field for the size is wide enough for a buffer. -/
theorem toNat_size {n : ℕ} (h : n ≤ ethTxBufSize) :
    (BitVec.ofNat 32 n &&& ethDMATxDescTBS1 &&& ethDMATxDescTBS1).toNat = n := by
  have hn : n < 2 ^ 13 := Nat.lt_of_le_of_lt h (by decide)
  rw [BitVec.and_assoc, BitVec.and_self, BitVec.toNat_and, BitVec.toNat_ofNat,
    Nat.mod_eq_of_lt (by omega)]
  show n &&& (2 ^ 13 - 1) = n
  rw [Nat.and_two_pow_sub_one_eq_mod, Nat.mod_eq_of_lt hn]

/-- The only segment of a frame. -/
theorem isSegment_setSingle {len : ℕ} (h : len ≤ ethTxBufSize) (d : TxDesc) :
    IsSegment len 1 0 d (setSingle len d) where
  own := by
    rw [own_eq]
    simp [setSingle, ethDMATxDescOWN]
  fs := by
    rw [fs_eq]
    simp [setSingle, ethDMATxDescFS]
  ls := by
    rw [ls_eq]
    simp [setSingle, ethDMATxDescLS]
  tbs1 := by
    rw [segmentSize, Nat.zero_mul, Nat.sub_zero, Nat.min_eq_right h]
    exact toNat_size h
  txBuff := rfl

/-- The status of a segment. -/
theorem status_setSegment (len count i : ℕ) (d : TxDesc) :
    (setSegment len count i d).status =
      (d.status &&& ~~~(ethDMATxDescFS ||| ethDMATxDescLS)) |||
        (if i = 0 then ethDMATxDescFS else 0#32) |||
        (if i = count - 1 then ethDMATxDescLS else 0#32) ||| ethDMATxDescOWN := by
  unfold setSegment
  by_cases hfirst : i = 0
  · by_cases hlast : i = count - 1
    · simp only [if_pos hfirst, if_pos hlast]
    · simp only [if_pos hfirst, if_neg hlast, BitVec.or_zero]
  · by_cases hlast : i = count - 1
    · simp only [if_neg hfirst, if_pos hlast, BitVec.or_zero]
    · simp only [if_neg hfirst, if_neg hlast, BitVec.or_zero]

/-- The size of a segment. -/
theorem tbs1_setSegment {len count i : ℕ} (h : len - (count - 1) * ethTxBufSize ≤ ethTxBufSize)
    (d : TxDesc) :
    (setSegment len count i d).tbs1 =
      if i = count - 1 then len - (count - 1) * ethTxBufSize else ethTxBufSize := by
  unfold setSegment TxDesc.tbs1
  by_cases hlast : i = count - 1
  · simp only [if_pos hlast]
    exact toNat_size h
  · simp only [if_neg hlast]
    exact toNat_size (Nat.le_refl _)

/-- The buffer of a segment is not touched. -/
theorem txBuff_setSegment (len count i : ℕ) (d : TxDesc) :
    (setSegment len count i d).txBuff = d.txBuff := by
  unfold setSegment
  by_cases hfirst : i = 0
  · by_cases hlast : i = count - 1
    · simp only [if_pos hfirst, if_pos hlast]
    · simp only [if_pos hfirst, if_neg hlast]
  · by_cases hlast : i = count - 1
    · simp only [if_neg hfirst, if_pos hlast]
    · simp only [if_neg hfirst, if_neg hlast]

/-- A segment of a frame that has several. -/
theorem isSegment_setSegment {len i : ℕ} (hi : i < buffersFor len) (d : TxDesc) :
    IsSegment len (buffersFor len) i d (setSegment len (buffersFor len) i d) where
  own := by
    rw [own_eq, status_setSegment, BitVec.getLsbD_or]
    exact Bool.or_true _
  fs := by
    rw [fs_eq, status_setSegment, BitVec.getLsbD_or, BitVec.getLsbD_or, BitVec.getLsbD_or,
      BitVec.getLsbD_and, apply_ite (BitVec.getLsbD · 28), apply_ite (BitVec.getLsbD · 28)]
    show (_ && false || (if i = 0 then true else false) || (if _ then false else false) ||
      false) = _
    simp
  ls := by
    have hlast : i = buffersFor len - 1 ↔ i + 1 = buffersFor len := by omega
    rw [ls_eq, status_setSegment, BitVec.getLsbD_or, BitVec.getLsbD_or, BitVec.getLsbD_or,
      BitVec.getLsbD_and, apply_ite (BitVec.getLsbD · 29), apply_ite (BitVec.getLsbD · 29)]
    show (_ && false || (if i = 0 then false else false) || (if _ then true else false) ||
      false) = _
    simp [hlast]
  tbs1 := by
    have hle := le_buffersFor_mul len
    obtain ⟨k, hk⟩ : ∃ k, buffersFor len = k + 1 := Nat.exists_eq_add_one.mpr (by omega)
    rw [hk, Nat.succ_mul] at hle
    rw [tbs1_setSegment, segmentSize, hk, Nat.add_sub_cancel]
    · by_cases hlast : i = k
      · rw [if_pos hlast, hlast, Nat.min_eq_right (by omega)]
      · have hnext : i + 1 < buffersFor len := by omega
        have hfull : (i + 1) * ethTxBufSize < len := by
          rcases lt_buffersFor_iff.mp hnext with hzero | hlt
          · exact absurd hzero (Nat.succ_ne_zero i)
          · exact hlt
        rw [Nat.succ_mul] at hfull
        rw [if_neg hlast, Nat.min_eq_left (by omega)]
    · rw [hk, Nat.add_sub_cancel]
      omega
  txBuff := txBuff_setSegment _ _ _ d

/-! ## The descriptors of a frame -/

/-- Every frame has a segment. -/
theorem buffersFor_pos (len : ℕ) : 0 < buffersFor len := lt_buffersFor_iff.mpr (.inl rfl)

/-- The descriptors from `d` on are set for the segments of a frame, the others are as
before. -/
structure SetFrom (len : ℕ) (d : Fin ethTxBufNb) (tab tab' : DescTab) : Prop where
  set : ∀ i < buffersFor len,
    IsSegment len (buffersFor len) i (tab (ringNext^[i] d)) (tab' (ringNext^[i] d))
  others : ∀ x, (∀ i < buffersFor len, x ≠ ringNext^[i] d) → tab' x = tab x

/-- **The loop over the segments.**  Descriptor by descriptor from `d` on becomes the next
segment.
SOURCE: stm32f4xx_eth.c:1261-1288 -/
theorem setSegments_eq (len count : ℕ) {left i : ℕ} (d : Fin ethTxBufNb) (tab : DescTab)
    (hleft : left ≤ ethTxBufNb) :
    ∃ tab', setSegments len count left i d tab = (tab', ringNext^[left] d) ∧
      (∀ j < left, tab' (ringNext^[j] d) =
        setSegment len count (i + j) (tab (ringNext^[j] d))) ∧
      ∀ x, (∀ j < left, x ≠ ringNext^[j] d) → tab' x = tab x := by
  induction left generalizing i d tab with
  | zero => exact ⟨tab, rfl, fun j hj => absurd hj (Nat.not_lt_zero j), fun _ _ => rfl⟩
  | succ left ih =>
    obtain ⟨tab', hset, hsegments, hothers⟩ := ih (i := i + 1) (ringNext d)
      (Function.update tab d (setSegment len count i (tab d))) (by omega)
    -- the first descriptor is not written to again
    have hfirst : ∀ j < left, d ≠ ringNext^[j] (ringNext d) := fun j hj heq =>
      absurd (iterate_ringNext_inj (d := d) (i := 0) (j := j + 1) (by omega) (by omega) heq)
        (Nat.succ_ne_zero j).symm
    refine ⟨tab', hset, ?_, ?_⟩
    · intro j hj
      cases j with
      | zero =>
        rw [Function.iterate_zero_apply, hothers d hfirst, Function.update_self]
        rfl
      | succ j =>
        rw [Function.iterate_succ_apply, hsegments j (by omega), Function.update_of_ne]
        · rw [Nat.add_assoc, Nat.add_comm 1 j]
        · exact (hfirst j (by omega)).symm
    · intro x hx
      rw [hothers x, Function.update_of_ne]
      · exact hx 0 (Nat.succ_pos left)
      · intro j hj
        exact hx (j + 1) (by omega)

/-- **The descriptors of a frame.**
SOURCE: stm32f4xx_eth.c:1241-1288 -/
theorem setDescriptors_eq {len : ℕ} (d : Fin ethTxBufNb) (tab : DescTab)
    (hfit : buffersFor len ≤ ethTxBufNb) :
    ∃ tab', setDescriptors len d tab = (tab', ringNext^[buffersFor len] d) ∧
      SetFrom len d tab tab' := by
  have hpos := buffersFor_pos len
  have hle := le_buffersFor_mul len
  unfold setDescriptors
  rw [bufCount_eq]
  by_cases hone : buffersFor len = 1
  · rw [hone, Nat.one_mul] at hle
    refine ⟨_, by rw [if_pos hone, hone]; rfl, ?_, ?_⟩
    · intro i hi
      obtain rfl : i = 0 := by omega
      rw [Function.iterate_zero_apply, Function.update_self, hone]
      exact isSegment_setSingle hle _
    · intro x hx
      rw [Function.update_of_ne]
      exact hx 0 hpos
  · obtain ⟨tab', hset, hsegments, hothers⟩ :=
      setSegments_eq len (buffersFor len) (i := 0) d tab hfit
    refine ⟨tab', by rw [if_neg hone]; exact hset, ?_, hothers⟩
    intro i hi
    rw [hsegments i hi, Nat.zero_add]
    exact isSegment_setSegment hi _

/-- `ETH_Prepare_Transmit_Descriptors` in front of a free descriptor. -/
theorem ethPrepareTransmitDescriptors_eq {frameLength : UInt16} {t : EthernetTx}
    (hfree : (t.dmaTxDscrTab t.dmaTxDescToSet).own = false)
    (hfit : buffersFor frameLength.toNat ≤ ethTxBufNb) :
    ∃ t', ethPrepareTransmitDescriptors frameLength t = (.success, t') ∧
      SetFrom frameLength.toNat t.dmaTxDescToSet t.dmaTxDscrTab t'.dmaTxDscrTab ∧
      t'.dmaTxDescToSet = ringNext^[buffersFor frameLength.toNat] t.dmaTxDescToSet ∧
      t'.tbus = false := by
  obtain ⟨tab', hset, hsetFrom⟩ := setDescriptors_eq t.dmaTxDescToSet t.dmaTxDscrTab hfit
  unfold ethPrepareTransmitDescriptors
  rw [if_neg (by simp [hfree]), hset]
  dsimp only
  split_ifs with htbus
  · exact ⟨_, rfl, hsetFrom, rfl, rfl⟩
  · exact ⟨_, rfl, hsetFrom, rfl, by simpa using htbus⟩

end Resmod.Analysis
