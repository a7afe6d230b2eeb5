import Resmod.Analysis.TransmitSegments
import Resmod.Model.EthernetTxDma

/-!
# Every frame is sent once, over whole runs

`Holds s segs` says that the segments `segs` stand in the ring from the descriptor of the DMA
on, and that the other descriptors are free.  `low_level_output` adds the segments of a frame
or none, and the DMA takes the first one.  So the frames that have been sent, and those that
can be put together from the ring, are the frames that have been given to the DMA.  (The
result of `low_level_output` does not say which these are: it is `ERR_OK` in any case.)
-/

set_option autoImplicit false

namespace Resmod.Analysis

open Resmod.Library Resmod.Model Resmod.Model.EthernetTx

namespace EthernetTxDma

open Resmod.Model.EthernetTxDma

/-! ## Descriptors and segments -/

/-- A segment of a frame, as the DMA reads it from a descriptor. -/
structure Segment where
  bytes : List UInt8
  fs : Bool
  ls : Bool
  deriving DecidableEq, Repr

/-- The segment that a descriptor describes. -/
def segmentAt (d : TxDesc) : Segment := ⟨d.txBuff.take d.tbs1, d.fs, d.ls⟩

/-- Segment `i` of a frame. -/
def segment (frame : List UInt8) (i : ℕ) : Segment :=
  ⟨slice frame (i * ethTxBufSize) ethTxBufSize, i = 0, i + 1 = buffersFor frame.length⟩

/-- The segments that a frame is cut into. -/
def segmentsOf (frame : List UInt8) : List Segment :=
  (List.range (buffersFor frame.length)).map (segment frame)

/-- A frame has as many segments as it needs buffers. -/
theorem length_segmentsOf (frame : List UInt8) :
    (segmentsOf frame).length = buffersFor frame.length := by
  rw [segmentsOf, List.length_map, List.length_range]

/-- What stands in a descriptor that has been set is the segment of the frame. -/
theorem segmentAt_of_setFrom {frame : List UInt8} {d : Fin ethTxBufNb} {tab tab' : DescTab}
    (h : SetFrom frame.length d tab tab') (hfit : buffersFor frame.length ≤ ethTxBufNb)
    (hbytes : (txBytes tab d ethTxBufNb).take frame.length = frame) {i : ℕ}
    (hi : i < buffersFor frame.length) :
    segmentAt (tab' (ringNext^[i] d)) = segment frame i := by
  obtain ⟨-, hfs, hls, htbs1, htxBuff⟩ := h.set i hi
  have hblock : ((List.iterate ringNext d ethTxBufNb).map fun j => (tab j).txBuff)[i]? =
      some (tab (ringNext^[i] d)).txBuff := by
    simp [show i < ethTxBufNb by omega]
  have hfits : 0 + segmentSize frame.length i ≤ ethTxBufSize := by
    rw [Nat.zero_add]
    exact Nat.min_le_left _ _
  have hslice := slice_flatten (length_bufs ethTxBufNb) hblock hfits
  rw [Nat.add_zero] at hslice
  rw [segmentAt, hfs, hls, htbs1, htxBuff, segment]
  congr 1
  calc (tab (ringNext^[i] d)).txBuff.take (segmentSize frame.length i)
    _ = slice (txBytes tab d ethTxBufNb) (i * ethTxBufSize) (segmentSize frame.length i) :=
        hslice.symm
    _ = slice ((txBytes tab d ethTxBufNb).take frame.length) (i * ethTxBufSize)
        ethTxBufSize := by
        rw [slice, slice, List.drop_take, List.take_take, segmentSize]
    _ = slice frame (i * ethTxBufSize) ethTxBufSize := by rw [hbytes]

/-! ## The ring -/

/-- The segments `segs` stand in the ring from the descriptor of the DMA on, and the other
descriptors are free; the DMA is suspended only in front of an empty ring. -/
structure Holds (s : EthernetTxDma) (segs : List Segment) : Prop where
  length_le : segs.length ≤ ethTxBufNb
  owned : ∀ i x, segs[i]? = some x →
    (s.tx.dmaTxDscrTab (ringNext^[i] s.dmaTxDesc)).own = true ∧
      segmentAt (s.tx.dmaTxDscrTab (ringNext^[i] s.dmaTxDesc)) = x
  free : ∀ i, segs.length ≤ i → i < ethTxBufNb →
    (s.tx.dmaTxDscrTab (ringNext^[i] s.dmaTxDesc)).own = false
  toSet : s.tx.dmaTxDescToSet = ringNext^[segs.length] s.dmaTxDesc
  suspended : s.tx.tbus = true → segs = []

variable {s s' : EthernetTxDma} {segs : List Segment} {p : List (List UInt8)}

/-- The ring holds no frame at the start. -/
theorem holds_chainInit (txBuff : Fin ethTxBufNb → Vector UInt8 ethTxBufSize) :
    Holds (chainInit txBuff) [] where
  length_le := Nat.zero_le _
  owned := nofun
  free := fun _ _ _ => by
    show (ethDMATxDescTCH &&& ethDMATxDescOWN != 0#32) = false
    decide
  toSet := rfl
  suspended := fun _ => rfl

/-- The descriptors that a frame needs are free when the ring has room for its segments. -/
theorem Holds.freeAhead_iff (h : Holds s segs) {k : ℕ} (hk : k ≤ ethTxBufNb) :
    FreeAhead s.tx k ↔ segs.length + k ≤ ethTxBufNb := by
  have hle := h.length_le
  unfold FreeAhead
  rw [h.toSet]
  constructor
  · intro hfree
    by_contra hroom
    -- going on from the free descriptors one comes round to the one of the DMA
    have hnonempty : 0 < segs.length := by omega
    obtain ⟨x, hx⟩ : ∃ x, segs[0]? = some x := ⟨segs[0], List.getElem?_eq_getElem hnonempty⟩
    have hfirst := hfree (ethTxBufNb - segs.length) (by omega)
    rw [iterate_ringNext_back _ hle] at hfirst
    exact Bool.noConfusion ((h.owned 0 x hx).1.symm.trans hfirst)
  · intro hroom i hi
    rw [← Function.iterate_add_apply]
    exact h.free _ (by omega) (by omega)

/-- A call that changes at most the buffers of free descriptors. -/
theorem Holds.of_kept (h : Holds s segs) {t : EthernetTx}
    (hkept : Kept s.tx.dmaTxDscrTab t.dmaTxDscrTab)
    (htoSet : t.dmaTxDescToSet = s.tx.dmaTxDescToSet) (htbus : t.tbus = s.tx.tbus) :
    Holds { s with tx := t } segs where
  length_le := h.length_le
  owned := by
    intro i x hx
    obtain ⟨hown, hsegment⟩ := h.owned i x hx
    dsimp only
    rw [hkept.owned _ hown]
    exact ⟨hown, hsegment⟩
  free := fun i hle hlt => (hkept.own _).trans (h.free i hle hlt)
  toSet := htoSet.trans h.toSet
  suspended := fun hs => h.suspended (htbus ▸ hs)

/-- **A frame is added.**  Its segments come to stand behind the others. -/
theorem Holds.add (h : Holds s segs) {frame : List UInt8} {tab : DescTab} {t : EthernetTx}
    (hroom : segs.length + buffersFor frame.length ≤ ethTxBufNb)
    (hkept : Kept s.tx.dmaTxDscrTab tab)
    (hbytes : (txBytes tab s.tx.dmaTxDescToSet ethTxBufNb).take frame.length = frame)
    (hset : SetFrom frame.length s.tx.dmaTxDescToSet tab t.dmaTxDscrTab)
    (htoSet : t.dmaTxDescToSet = ringNext^[buffersFor frame.length] s.tx.dmaTxDescToSet)
    (htbus : t.tbus = false) : Holds { s with tx := t } (segs ++ segmentsOf frame) := by
  have hplace : ∀ i, ringNext^[i] s.tx.dmaTxDescToSet =
      ringNext^[segs.length + i] s.dmaTxDesc := by
    intro i
    rw [h.toSet, ← Function.iterate_add_apply, Nat.add_comm]
  -- the descriptors that are set are behind those in use
  have hother : ∀ i < ethTxBufNb, i < segs.length ∨ segs.length + buffersFor frame.length ≤ i →
      t.dmaTxDscrTab (ringNext^[i] s.dmaTxDesc) = tab (ringNext^[i] s.dmaTxDesc) := by
    intro i hi hout
    apply hset.others
    intro j hj heq
    rw [hplace] at heq
    have hij := iterate_ringNext_inj hi (by omega) heq
    omega
  refine ⟨?_, ?_, ?_, ?_, fun hs => absurd (htbus.symm.trans hs) Bool.false_ne_true⟩
  · rw [List.length_append, length_segmentsOf]
    exact hroom
  · intro i x hx
    rcases Nat.lt_or_ge i segs.length with hi | hi
    · rw [List.getElem?_append_left hi] at hx
      obtain ⟨hown, hsegment⟩ := h.owned i x hx
      dsimp only
      rw [hother i (by omega) (.inl hi), hkept.owned _ hown]
      exact ⟨hown, hsegment⟩
    · obtain ⟨j, rfl⟩ := Nat.exists_eq_add_of_le hi
      rw [List.getElem?_append_right hi, Nat.add_sub_cancel_left, segmentsOf,
        List.getElem?_map, Option.map_eq_some_iff] at hx
      obtain ⟨k, hk, rfl⟩ := hx
      obtain ⟨hj, hjk⟩ := List.getElem?_eq_some_iff.mp hk
      rw [List.getElem_range] at hjk
      rw [List.length_range] at hj
      subst hjk
      dsimp only
      rw [← hplace j]
      exact ⟨(hset.set j hj).own, segmentAt_of_setFrom hset (by omega) hbytes hj⟩
  · intro i hle hlt
    rw [List.length_append, length_segmentsOf] at hle
    dsimp only
    rw [hother i hlt (.inr hle), hkept.own]
    exact h.free i (by omega) hlt
  · dsimp only
    rw [htoSet, hplace, List.length_append, length_segmentsOf]

/-- The flag that is cleared is off afterwards. -/
theorem tbus_resumeTransmission (t : EthernetTx) : (resumeTransmission t).tbus = t.tbus := by
  unfold resumeTransmission
  split <;> rfl

/-- What a call of `low_level_output` with the semaphore does to the ring. -/
theorem Holds.output (h : Holds s segs) (hp : p ≠ [])
    (hfit : p.flatten.length ≤ ethTxBufNb * ethTxBufSize) :
    ∃ r, lowLevelOutput true s.tx p = .ok r ∧
      ((segs.length + buffersFor p.flatten.length ≤ ethTxBufNb ∧ prepares r = true ∧
          Holds { s with tx := r.tx } (segs ++ segmentsOf p.flatten)) ∨
        (ethTxBufNb < segs.length + buffersFor p.flatten.length ∧ prepares r = false ∧
          Holds { s with tx := r.tx } segs)) := by
  have hneeded : needed p = buffersFor p.flatten.length := if_neg hp
  have hbuffers : buffersFor p.flatten.length ≤ ethTxBufNb := buffersFor_le (by decide) hfit
  have hlen := toNat_frameLength hfit
  obtain ⟨tab, hkept, ⟨hfree, hbytes, hcopy⟩ | ⟨howned, hcopy⟩⟩ :=
    copyAndPrepare_cases { s.tx with xTxSemaphore := some false } p
  · have hahead : FreeAhead s.tx (buffersFor p.flatten.length) := by
      rw [← hneeded]
      exact hfree
    have hroom := (h.freeAhead_iff hbuffers).mp hahead
    have hfirst : (tab s.tx.dmaTxDescToSet).own = false :=
      (hkept.own _).trans (hahead 0 (buffersFor_pos _))
    have hfits : buffersFor (UInt16.ofNat p.flatten.length).toNat ≤ ethTxBufNb := by
      rw [hlen]
      exact hbuffers
    obtain ⟨t', hprepare, hset, htoSet, htbus⟩ := ethPrepareTransmitDescriptors_eq
      (t := withTab { s.tx with xTxSemaphore := some false } tab) hfirst hfits
    rw [hlen] at hset htoSet
    refine ⟨_, lowLevelOutput_taken hcopy, .inl ⟨hroom, ?_, ?_⟩⟩
    · simp only [prepares, List.any_cons, List.any_nil, hprepare, decide_true, Bool.or_false]
    · rw [hprepare]
      apply h.add hroom hkept (hbytes hfit)
      · rw [tab_resumeTransmission]
        exact hset
      · rw [toSet_resumeTransmission]
        exact htoSet
      · rw [tbus_resumeTransmission]
        exact htbus
  · have hroom : ¬ segs.length + buffersFor p.flatten.length ≤ ethTxBufNb := by
      rw [← h.freeAhead_iff hbuffers, ← hneeded]
      exact howned
    refine ⟨_, lowLevelOutput_taken hcopy, .inr ⟨by omega, rfl, ?_⟩⟩
    apply h.of_kept
    · rw [tab_resumeTransmission]
      exact hkept
    · rw [toSet_resumeTransmission]
      rfl
    · rw [tbus_resumeTransmission]
      rfl

/-- A call that does not get the semaphore leaves the ring alone. -/
theorem Holds.notTaken (h : Holds s segs) (p : List (List UInt8)) :
    ∃ r, lowLevelOutput false s.tx p = .ok r ∧ prepares r = false ∧
      Holds { s with tx := r.tx } segs := by
  refine ⟨⟨resumeTransmission (createSemaphore s.tx), errOk, []⟩, rfl, rfl, ?_⟩
  have hcreate : (createSemaphore s.tx).dmaTxDscrTab = s.tx.dmaTxDscrTab ∧
      (createSemaphore s.tx).dmaTxDescToSet = s.tx.dmaTxDescToSet ∧
      (createSemaphore s.tx).tbus = s.tx.tbus := by
    unfold createSemaphore
    split <;> exact ⟨rfl, rfl, rfl⟩
  apply h.of_kept
  · rw [tab_resumeTransmission, hcreate.1]
    exact Kept.refl _
  · rw [toSet_resumeTransmission, hcreate.2.1]
  · rw [tbus_resumeTransmission, hcreate.2.2]

/-! ## The DMA -/

/-- A descriptor that is given back belongs to the driver. -/
theorem own_giveBack (d : TxDesc) : (giveBack d).own = false := by
  simp [own_eq, giveBack, ethDMATxDescOWN]

/-- The first segment leaves the ring. -/
theorem Holds.pop {x : Segment} (h : Holds s (x :: segs)) (frame : List UInt8) :
    Holds ⟨{ s.tx with
      dmaTxDscrTab := Function.update s.tx.dmaTxDscrTab s.dmaTxDesc
        (giveBack (s.tx.dmaTxDscrTab s.dmaTxDesc)) }, ringNext s.dmaTxDesc, frame⟩ segs := by
  have hle := h.length_le
  rw [List.length_cons] at hle
  have hother : ∀ i, i + 1 < ethTxBufNb →
      Function.update s.tx.dmaTxDscrTab s.dmaTxDesc
          (giveBack (s.tx.dmaTxDscrTab s.dmaTxDesc)) (ringNext^[i] (ringNext s.dmaTxDesc)) =
        s.tx.dmaTxDscrTab (ringNext^[i + 1] s.dmaTxDesc) := by
    intro i hi
    rw [Function.iterate_succ_apply, Function.update_of_ne]
    intro heq
    have hzero := iterate_ringNext_inj (d := s.dmaTxDesc) (i := i + 1) (j := 0) hi (by omega) heq
    omega
  have htbus : s.tx.tbus = false := by
    cases hs : s.tx.tbus with
    | false => rfl
    | true => exact absurd (h.suspended hs) (List.cons_ne_nil x segs)
  refine ⟨by omega, ?_, ?_, ?_, fun hs => absurd (htbus.symm.trans hs) Bool.false_ne_true⟩
  · intro i y hy
    have hi : i < segs.length := (List.getElem?_eq_some_iff.mp hy).1
    dsimp only
    rw [hother i (by omega)]
    exact h.owned (i + 1) y (by rw [List.getElem?_cons_succ]; exact hy)
  · intro i hlen hi
    dsimp only
    rcases Nat.lt_or_ge (i + 1) ethTxBufNb with hlt | hge
    · rw [hother i hlt]
      exact h.free (i + 1) (by rw [List.length_cons]; omega) hlt
    · -- the descriptor that has been given back
      have hround : i.succ = ethTxBufNb := by omega
      rw [← Function.iterate_succ_apply, hround, iterate_ringNext_self, Function.update_self]
      exact own_giveBack _
  · exact h.toSet

/-- In front of a free descriptor the DMA is suspended, if it has not been before. -/
theorem dmaStep_of_free (hfree : (s.tx.dmaTxDscrTab s.dmaTxDesc).own = false) :
    s.dmaStep = ({ s with tx := { s.tx with tbus := true } }, []) := by
  obtain ⟨⟨tab, toSet, tus, tbus, resumed, sem⟩, d, frame⟩ := s
  cases tbus with
  | true => rfl
  | false => simp only [dmaStep, hfree, Bool.false_eq_true, if_false]

/-- The DMA reads a segment. -/
theorem dmaStep_of_own (htbus : s.tx.tbus = false)
    (hown : (s.tx.dmaTxDscrTab s.dmaTxDesc).own = true) :
    s.dmaStep =
      let d := s.tx.dmaTxDscrTab s.dmaTxDesc
      let frame := (if d.fs then [] else s.frame) ++ d.txBuff.take d.tbs1
      let tx := { s.tx with
        dmaTxDscrTab := Function.update s.tx.dmaTxDscrTab s.dmaTxDesc (giveBack d) }
      if d.ls then (⟨tx, ringNext s.dmaTxDesc, []⟩, [.sent frame])
      else (⟨tx, ringNext s.dmaTxDesc, frame⟩, []) := by
  simp only [dmaStep, htbus, hown, Bool.false_eq_true, if_false, if_true]

/-- The frames that are complete when the segments have been read behind `frame`. -/
def readFrames : List UInt8 → List Segment → List (List UInt8)
  | _, [] => []
  | frame, x :: segs =>
    let frame := (if x.fs then [] else frame) ++ x.bytes
    if x.ls then frame :: readFrames [] segs else readFrames frame segs

/-- One more segment of a frame is read. -/
theorem readFrames_segment (g : List UInt8) (segs : List Segment) {i : ℕ} {frame : List UInt8}
    (hframe : 0 < i → frame = g.take (i * ethTxBufSize)) :
    readFrames frame (segment g i :: segs) =
      if i + 1 = buffersFor g.length then g.take ((i + 1) * ethTxBufSize) :: readFrames [] segs
      else readFrames (g.take ((i + 1) * ethTxBufSize)) segs := by
  have hread : (if (segment g i).fs then [] else frame) ++ (segment g i).bytes =
      g.take ((i + 1) * ethTxBufSize) := by
    have hadd : g.take (i * ethTxBufSize) ++ slice g (i * ethTxBufSize) ethTxBufSize =
        g.take ((i + 1) * ethTxBufSize) := by
      rw [Nat.succ_mul, List.take_add, slice]
    rcases Nat.eq_zero_or_pos i with rfl | hi
    · rw [Nat.zero_mul, List.take_zero] at hadd
      simpa [segment] using hadd
    · simpa [segment, hi.ne', hframe hi] using hadd
  rw [readFrames]
  simp only [hread]
  simp only [segment, decide_eq_true_eq]

/-- From segment `i` of a frame on, with the bytes before it read. -/
theorem readFrames_from (g : List UInt8) (segs : List Segment) {left i : ℕ} {frame : List UInt8}
    (hleft : i + (left + 1) = buffersFor g.length)
    (hframe : 0 < i → frame = g.take (i * ethTxBufSize)) :
    readFrames frame ((List.range' i (left + 1)).map (segment g) ++ segs) =
      g :: readFrames [] segs := by
  induction left generalizing i frame with
  | zero =>
    have hall : g.take ((i + 1) * ethTxBufSize) = g := by
      rw [hleft]
      exact List.take_of_length_le (le_buffersFor_mul g.length)
    rw [List.range'_one, List.map_singleton, List.singleton_append,
      readFrames_segment g segs hframe, if_pos hleft, hall]
  | succ left ih =>
    rw [List.range'_succ, List.map_cons, List.cons_append, readFrames_segment g _ hframe,
      if_neg (by omega)]
    exact ih (by omega) fun _ => rfl

/-- The segments of a frame make up the frame. -/
theorem readFrames_segmentsOf (frame g : List UInt8) (segs : List Segment) :
    readFrames frame (segmentsOf g ++ segs) = g :: readFrames [] segs := by
  obtain ⟨left, hleft⟩ := Nat.exists_eq_succ_of_ne_zero (buffersFor_pos g.length).ne'
  rw [segmentsOf, List.range_eq_range', hleft]
  exact readFrames_from g segs (by omega) fun h => absurd h (Nat.lt_irrefl 0)

/-- The segments of a frame behind others make up the frame, whatever stands before. -/
theorem readFrames_append_segmentsOf (frame g : List UInt8) (segs : List Segment) :
    readFrames frame (segs ++ segmentsOf g) = readFrames frame segs ++ [g] := by
  induction segs generalizing frame with
  | nil =>
    have hframe := readFrames_segmentsOf frame g []
    rw [List.append_nil] at hframe
    exact hframe
  | cons x segs ih =>
    simp only [List.cons_append, readFrames]
    by_cases hls : x.ls = true
    · rw [if_pos hls, if_pos hls, ih, List.cons_append]
    · rw [if_neg hls, if_neg hls, ih]

/-! ## Whole runs -/

/-- The frames that have been given to the DMA. -/
def preparedFrames (os : List Output) : List (List UInt8) :=
  os.filterMap fun o => match o with
    | .prepared frame => some frame
    | .sent _ => none

/-- The frames that the DMA has sent. -/
def sentFrames (os : List Output) : List (List UInt8) :=
  os.filterMap fun o => match o with
    | .prepared _ => none
    | .sent frame => some frame

/-- The frames handed over in one part of a run and the next. -/
@[simp] theorem preparedFrames_append (v w : List Output) :
    preparedFrames (v ++ w) = preparedFrames v ++ preparedFrames w := List.filterMap_append

/-- The frames sent in one part of a run and the next. -/
@[simp] theorem sentFrames_append (v w : List Output) :
    sentFrames (v ++ w) = sentFrames v ++ sentFrames w := List.filterMap_append

/-- The chains that are handed to `low_level_output` have a pbuf and fit the ring. -/
def FitsRing : Event → Prop
  | .output _ p => p ≠ [] ∧ p.flatten.length ≤ ethTxBufNb * ethTxBufSize
  | .dma => True

/-- The frames given to the DMA so far are those that have been sent, and those in the ring. -/
def Accounted (os : List Output) (s : EthernetTxDma) (segs : List Segment) : Prop :=
  Holds s segs ∧ preparedFrames os = sentFrames os ++ readFrames s.frame segs

/-- A look of the DMA at its descriptor. -/
theorem Accounted.dma {os : List Output} (h : Accounted os s segs) :
    Accounted (os ++ s.dmaStep.2) s.dmaStep.1 segs.tail := by
  obtain ⟨hholds, hprepared⟩ := h
  cases segs with
  | nil =>
    rw [dmaStep_of_free (hholds.free 0 le_rfl (by decide)), List.append_nil]
    exact ⟨⟨hholds.length_le, hholds.owned, hholds.free, hholds.toSet, fun _ => rfl⟩, hprepared⟩
  | cons x segs =>
    obtain ⟨hown, rfl⟩ := hholds.owned 0 x rfl
    have htbus : s.tx.tbus = false := by
      cases hs : s.tx.tbus with
      | false => rfl
      | true => exact absurd (hholds.suspended hs) (List.cons_ne_nil _ segs)
    rw [Function.iterate_zero_apply] at hown hprepared
    rw [readFrames] at hprepared
    rw [dmaStep_of_own htbus hown]
    dsimp only [segmentAt] at hprepared ⊢
    cases hls : (s.tx.dmaTxDscrTab s.dmaTxDesc).ls with
    | true =>
      simp only [hls, if_true] at hprepared ⊢
      refine ⟨hholds.pop _, ?_⟩
      rw [preparedFrames_append, sentFrames_append, hprepared]
      exact (List.append_nil _).trans (List.append_assoc _ [_] _).symm
    | false =>
      simp only [hls, Bool.false_eq_true, if_false] at hprepared ⊢
      rw [List.append_nil]
      exact ⟨hholds.pop _, hprepared⟩

/-- A step of the system. -/
theorem Accounted.step {os : List Output} (h : Accounted os s segs) {a : Event}
    (ha : FitsRing a) : ∃ t o segs', machine.step s a = some (t, o) ∧
      Accounted (os ++ o) t segs' := by
  obtain ⟨hholds, hprepared⟩ := h
  cases a with
  | dma => exact ⟨_, _, _, rfl, Accounted.dma ⟨hholds, hprepared⟩⟩
  | output taken p =>
    obtain ⟨hp, hfit⟩ := ha
    have hsame : ∀ {r : Transmitted}, lowLevelOutput taken s.tx p = .ok r → prepares r = false →
        Holds { s with tx := r.tx } segs → ∃ t o segs', machine.step s (.output taken p) =
          some (t, o) ∧ Accounted (os ++ o) t segs' := by
      intro r hr hprepares hholds'
      refine ⟨_, [], segs, by simp only [machine, hr, hprepares]; rfl, hholds', ?_⟩
      rw [List.append_nil]
      exact hprepared
    cases taken with
    | false =>
      obtain ⟨r, hr, hprepares, hholds'⟩ := hholds.notTaken p
      exact hsame hr hprepares hholds'
    | true =>
      obtain ⟨r, hr, ⟨-, hprepares, hholds'⟩ | ⟨-, hprepares, hholds'⟩⟩ :=
        hholds.output hp hfit
      · refine ⟨_, [.prepared p.flatten], _, by simp only [machine, hr, hprepares]; rfl,
          hholds', ?_⟩
        dsimp only
        rw [preparedFrames_append, sentFrames_append, readFrames_append_segmentsOf, hprepared]
        simp [preparedFrames, sentFrames]
      · exact hsame hr hprepares hholds'

/-- No run faults, and the account is kept. -/
theorem accounted_of_exec {os₀ : List Output} {as : List Event} (h : Accounted os₀ s segs)
    (has : ∀ a ∈ as, FitsRing a) :
    ∃ s' os segs', machine.exec s as = some (s', os) ∧
      Accounted (os₀ ++ os.flatten) s' segs' := by
  induction as generalizing s segs os₀ with
  | nil => exact ⟨s, [], segs, rfl, by rw [List.flatten_nil, List.append_nil]; exact h⟩
  | cons a as ih =>
    rw [List.forall_mem_cons] at has
    obtain ⟨t, o, segs₁, hstep, h₁⟩ := h.step has.1
    obtain ⟨s', os, segs', hrun, h'⟩ := ih h₁ has.2
    refine ⟨s', o :: os, segs', ?_, ?_⟩
    · rw [Machine.exec_cons_of_step hstep, hrun]
      rfl
    · rw [List.flatten_cons, ← List.append_assoc]
      exact h'

/-- The DMA hands nothing over. -/
theorem preparedFrames_dmaStep (s : EthernetTxDma) : preparedFrames s.dmaStep.2 = [] := by
  unfold dmaStep
  dsimp only
  split_ifs <;> rfl

/-- While the DMA goes on alone, the ring empties. -/
theorem accounted_of_dma {os₀ : List Output} (h : Accounted os₀ s segs) (n : ℕ) :
    ∃ s' os, machine.exec s (List.replicate n .dma) = some (s', os) ∧
      Accounted (os₀ ++ os.flatten) s' (segs.drop n) ∧ preparedFrames os.flatten = [] := by
  induction n generalizing s segs os₀ with
  | zero => exact ⟨s, [], rfl, by rw [List.flatten_nil, List.append_nil]; exact h, rfl⟩
  | succ n ih =>
    obtain ⟨t, o, hstep, h₁, hnone⟩ : ∃ t o, machine.step s .dma = some (t, o) ∧
        Accounted (os₀ ++ o) t segs.tail ∧ preparedFrames o = [] :=
      ⟨_, _, rfl, h.dma, preparedFrames_dmaStep s⟩
    obtain ⟨s', os, hrun, h', hnone'⟩ := ih h₁
    refine ⟨s', o :: os, ?_, ?_, ?_⟩
    · rw [List.replicate_succ, Machine.exec_cons_of_step hstep, hrun]
      rfl
    · rw [List.drop_tail] at h'
      rw [List.flatten_cons, ← List.append_assoc]
      exact h'
    · rw [List.flatten_cons, preparedFrames_append, hnone, hnone', List.append_nil]

/-- **Every frame given to the DMA is sent once.**  For every order of calls of
`low_level_output` and steps of the DMA after `ETH_DMATxDescChainInit`, and every content of
the buffers: no call faults, the frames that have been sent are the first of those that were
given to the DMA, unchanged and in order, and five more steps of the DMA send all the others.
SOURCE: ethernetif.c:155-235, stm32f4xx_eth.c:1229-1304, 1402-1435 -/
theorem prepared_frames_sent (txBuff : Fin ethTxBufNb → Vector UInt8 ethTxBufSize)
    {as : List Event} (has : ∀ a ∈ as, FitsRing a) :
    ∃ s os, machine.exec (chainInit txBuff) as = some (s, os) ∧
      sentFrames os.flatten <+: preparedFrames os.flatten ∧
      ∃ s' os', machine.exec s (List.replicate ethTxBufNb .dma) = some (s', os') ∧
        sentFrames os.flatten ++ sentFrames os'.flatten = preparedFrames os.flatten := by
  have hstart : Accounted [] (chainInit txBuff) [] := ⟨holds_chainInit txBuff, rfl⟩
  obtain ⟨s, os, segs, hrun, haccounted⟩ := accounted_of_exec hstart has
  rw [List.nil_append] at haccounted
  obtain ⟨s', os', hrun', haccounted', hnone⟩ := accounted_of_dma haccounted ethTxBufNb
  refine ⟨s, os, hrun, ⟨_, haccounted.2.symm⟩, s', os', hrun', ?_⟩
  have hall := haccounted'.2
  rw [List.drop_eq_nil_of_le haccounted.1.length_le, preparedFrames_append, sentFrames_append,
    hnone, readFrames, List.append_nil, List.append_nil] at hall
  exact hall.symm

/-- A frame of two pbufs is sent by the first step of the DMA. -/
theorem prepared_frames_sent_twoPbufs :
    ∃ s os, machine.exec (chainInit fun _ => Vector.replicate _ 0)
        [.output true [[1, 2], [3]], .dma, .dma] = some (s, os) ∧
      sentFrames os.flatten <+: preparedFrames os.flatten ∧
      ∃ s' os', machine.exec s (List.replicate ethTxBufNb .dma) = some (s', os') ∧
        sentFrames os.flatten ++ sentFrames os'.flatten = preparedFrames os.flatten :=
  prepared_frames_sent _ (by simp [FitsRing, ethTxBufNb, ethTxBufSize])

end EthernetTxDma

end Resmod.Analysis
