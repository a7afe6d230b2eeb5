import Resmod.Model.EthernetRx

/-!
# Reception on every state of the ring

The ring, read from `DMARxDescToGet` on, is what the DMA has left: complete frames, then the
segments of a frame that is still being received, then the descriptors of the DMA.  When a
complete frame comes first, `low_level_input` consumes it as it should, whatever `pbuf_alloc`
returns; when the DMA owns the first descriptor it does nothing.  In front of an unfinished
frame the scan counts segments and finds no frame, and the release loop follows a null pointer
as many times: `soundInput_iff` says that there is no other exception.

Each of the four loops has its lemma: the scan (`scan_frame`), the copy into one pbuf
(`fill_eq`), into the chain (`copyChain_eq`), and the release (`release_eq`).
-/

set_option autoImplicit false

namespace Resmod.Analysis

open Resmod.Library Resmod.Model Resmod.Model.EthernetRx

/-! ## States of the ring -/

/-- The ring from `DMARxDescToGet` on. -/
def ringAhead (s : EthernetRx) : List RxDesc :=
  descsFrom s.dmaRxDscrTab s.dmaRxDescToGet ethRxBufNb

/-- The segments of a frame whose last segment has not arrived. -/
inductive IsUnfinished : List RxDesc → Prop
  | nothing : IsUnfinished []
  | started {first : RxDesc} {mids : List RxDesc} (hfirst : Segment true false first)
      (hmids : ∀ d ∈ mids, Segment false false d) : IsUnfinished (first :: mids)

/-- A state of the ring as the DMA leaves it, between two calls. -/
structure ReceiveRing where
  rx : EthernetRx
  frames : List (List RxDesc)
  unfinished : List RxDesc
  owned : List RxDesc
  ahead_eq : ringAhead rx = frames.flatten ++ unfinished ++ owned
  isFrame : ∀ f ∈ frames, IsFrame f
  isUnfinished : IsUnfinished unfinished
  own : ∀ d ∈ owned, d.own = true
  segCount : rx.segCount = 0

/-! ## The scan -/

/-- The first descriptor and those after it. -/
theorem descsFrom_succ (tab : DescTab) (d : Fin ethRxBufNb) (k : ℕ) :
    descsFrom tab d (k + 1) = tab d :: descsFrom tab (ringNext d) k := rfl

/-- As many descriptors as asked for. -/
@[simp] theorem length_descsFrom (tab : DescTab) (d : Fin ethRxBufNb) (k : ℕ) :
    (descsFrom tab d k).length = k := by
  rw [descsFrom, List.length_map, List.length_iterate]

/-- The ring is cut where its list is. -/
theorem descsFrom_append {tab : DescTab} {d : Fin ethRxBufNb} {k : ℕ} {l l' : List RxDesc}
    (h : descsFrom tab d k = l ++ l') :
    descsFrom tab d l.length = l ∧ descsFrom tab (ringNext^[l.length] d) l'.length = l' := by
  have hlen := congrArg List.length h
  rw [length_descsFrom, List.length_append] at hlen
  rw [hlen, descsFrom, List.iterate_add, List.map_append] at h
  exact List.append_inj h (by simp)

/-- The ring from another descriptor on. -/
theorem descsFrom_rotate {tab : DescTab} {d : Fin ethRxBufNb} {l l' : List RxDesc}
    (h : descsFrom tab d ethRxBufNb = l ++ l') :
    descsFrom tab (ringNext^[l.length] d) ethRxBufNb = l' ++ l := by
  have hlen := congrArg List.length h
  rw [length_descsFrom, List.length_append] at hlen
  have hle : l.length ≤ ethRxBufNb := by omega
  have hk : ethRxBufNb - l.length = l'.length := by omega
  obtain ⟨hfirst, hrest⟩ := descsFrom_append h
  unfold descsFrom at hfirst hrest ⊢
  rw [iterate_ringNext_rotate d hle, List.map_append, hfirst, hk, hrest]

/-- Once around the ring, in two parts. -/
theorem iterate_back {tab : DescTab} {d : Fin ethRxBufNb} {l l' : List RxDesc}
    (h : descsFrom tab d ethRxBufNb = l ++ l') :
    ringNext^[l'.length] (ringNext^[l.length] d) = d := by
  have hlen := congrArg List.length h
  rw [length_descsFrom, List.length_append] at hlen
  have hk : l'.length = ethRxBufNb - l.length := by omega
  rw [hk, iterate_ringNext_back d (by omega)]

/-- Some descriptors of the ring are replaced. -/
theorem descsFrom_replace {tab tab' : DescTab} {d : Fin ethRxBufNb} {l₁ l₂ l₂' l₃ : List RxDesc}
    (h : descsFrom tab d ethRxBufNb = l₁ ++ (l₂ ++ l₃))
    (hsame : ∀ i, i ∉ List.iterate ringNext (ringNext^[l₁.length] d) l₂.length → tab' i = tab i)
    (hnew : descsFrom tab' (ringNext^[l₁.length] d) l₂.length = l₂') :
    descsFrom tab' d ethRxBufNb = l₁ ++ (l₂' ++ l₃) := by
  have hlen := congrArg List.length h
  rw [length_descsFrom, List.length_append, List.length_append] at hlen
  have hsplit : List.iterate ringNext d ethRxBufNb = List.iterate ringNext d l₁.length ++
      (List.iterate ringNext (ringNext^[l₁.length] d) l₂.length ++
        List.iterate ringNext (ringNext^[l₂.length] (ringNext^[l₁.length] d)) l₃.length) := by
    rw [← List.iterate_add, ← List.iterate_add, ← hlen]
  have hnodup := nodup_iterate_ringNext d (Nat.le_refl ethRxBufNb)
  obtain ⟨hfirst, hrest⟩ := descsFrom_append h
  rw [List.length_append] at hrest
  obtain ⟨-, hlast⟩ := descsFrom_append hrest
  rw [hsplit, List.nodup_append] at hnodup
  obtain ⟨-, hnodup, hdisjoint⟩ := hnodup
  rw [List.nodup_append] at hnodup
  have hbefore : descsFrom tab' d l₁.length = l₁ := by
    refine Eq.trans (List.map_congr_left fun i hi => hsame i ?_) hfirst
    exact fun hmem => hdisjoint i hi i (List.mem_append_left _ hmem) rfl
  have hbehind : descsFrom tab' (ringNext^[l₂.length] (ringNext^[l₁.length] d)) l₃.length =
      l₃ := by
    refine Eq.trans (List.map_congr_left fun i hi => hsame i ?_) hlast
    exact fun hmem => hnodup.2.2 i hmem i hi rfl
  unfold descsFrom at hbefore hbehind hnew ⊢
  rw [hsplit, List.map_append, List.map_append, hbefore, hnew, hbehind]

variable {s : EthernetRx} {counter k : ℕ} {d d₀ : Fin ethRxBufNb} {f : List RxDesc}
  {tab : DescTab}

/-- The first descriptor of the list is the one that is read. -/
theorem descsFrom_head {l : List RxDesc} {x : RxDesc}
    (h : descsFrom tab d (k + 1) = x :: l) :
    tab d = x ∧ descsFrom tab (ringNext d) k = l := by
  rw [descsFrom_succ] at h
  exact List.cons.inj h

/-- The scan stops at a descriptor that belongs to the DMA. -/
theorem scan_own (h : (s.dmaRxDscrTab s.dmaRxDescToGet).own = true) :
    scan (counter + 1) s = .ok (s, ⟨0, none, none⟩) := by
  rw [scan]
  simp only [h, if_true]

/-- The scan goes over the first descriptor of a frame. -/
theorem scan_first (h : Segment true false (s.dmaRxDscrTab s.dmaRxDescToGet)) :
    scan (counter + 1) s = scan counter { s with
      fsRxDesc := some s.dmaRxDescToGet
      segCount := 1
      dmaRxDescToGet := ringNext s.dmaRxDescToGet } := by
  rw [scan]
  simp [h.own, h.fs, h.ls]

/-- The scan goes over a descriptor in the middle of a frame. -/
theorem scan_middle (h : Segment false false (s.dmaRxDscrTab s.dmaRxDescToGet)) :
    scan (counter + 1) s = scan counter { s with
      segCount := s.segCount + 1
      dmaRxDescToGet := ringNext s.dmaRxDescToGet } := by
  rw [scan]
  simp [h.own, h.fs, h.ls]

/-- The scan over the segments behind the first one of a frame. -/
theorem scan_spanning {mids : List RxDesc} {last : RxDesc}
    (hmids : ∀ d ∈ mids, Segment false false d) (hlast : Segment false true last)
    (hahead : descsFrom s.dmaRxDscrTab s.dmaRxDescToGet (mids.length + 1) = mids ++ [last])
    (hcounter : mids.length + 1 ≤ counter) (hfirst : s.fsRxDesc = some d₀)
    (hseg : 1 ≤ s.segCount) :
    scan counter s = .ok ({ s with
      lsRxDesc := some (ringNext^[mids.length] s.dmaRxDescToGet)
      segCount := s.segCount + (mids.length + 1)
      dmaRxDescToGet := ringNext^[mids.length + 1] s.dmaRxDescToGet },
      ⟨last.fl - 4, some d₀, some d₀⟩) := by
  induction mids generalizing s counter with
  | nil =>
    obtain ⟨counter, rfl⟩ := Nat.exists_eq_add_of_le' hcounter
    obtain ⟨hd, -⟩ := descsFrom_head hahead
    have hne : s.segCount + 1 ≠ 1 := by omega
    have hlt : 1 < s.segCount + 1 := by omega
    rw [List.length_nil, Nat.zero_add, scan]
    simp only [hd, hlast.own, hlast.fs, hlast.ls, hne, hlt, hfirst, deref]
    rfl
  | cons mid mids ih =>
    obtain ⟨counter, rfl⟩ := Nat.exists_eq_add_of_le' (Nat.le_of_add_left_le hcounter)
    rw [List.forall_mem_cons] at hmids
    obtain ⟨hd, hrest⟩ := descsFrom_head hahead
    rw [scan_middle (by rw [hd]; exact hmids.1)]
    refine Eq.trans (ih hmids.2 hrest (Nat.le_of_succ_le_succ hcounter) hfirst
      (Nat.le_add_left 1 _)) ?_
    simp only [List.length_cons, Function.iterate_succ_apply, Nat.add_assoc,
      Nat.add_comm 1]

/-- **The scan finds a complete frame.**
SOURCE: stm32f4xx_eth.c:1162-1219 -/
theorem scan_frame (hf : Segments f)
    (hahead : descsFrom s.dmaRxDscrTab s.dmaRxDescToGet f.length = f)
    (hcounter : f.length ≤ counter) (hseg : s.segCount = 0) {last : RxDesc}
    (hlast : f.getLast? = some last) :
    ∃ ls, scan counter s = .ok ({ s with
      fsRxDesc := some s.dmaRxDescToGet
      lsRxDesc := ls
      segCount := f.length
      dmaRxDescToGet := ringNext^[f.length] s.dmaRxDescToGet },
      ⟨last.fl - 4, some s.dmaRxDescToGet, some s.dmaRxDescToGet⟩) := by
  cases hf with
  | single h =>
    obtain rfl := Option.some.inj hlast
    obtain ⟨counter, rfl⟩ := Nat.exists_eq_add_of_le' hcounter
    obtain ⟨hd, -⟩ := descsFrom_head hahead
    refine ⟨some s.dmaRxDescToGet, ?_⟩
    rw [List.length_singleton, scan]
    simp only [hd, h.own, h.fs, h.ls, hseg]
    rfl
  | @spanning first mids last' hfirst hmids hlast' =>
    have hlen : (first :: (mids ++ [last'])).length = mids.length + 1 + 1 := by simp
    have heq : last' = last := by
      rw [← List.cons_append, List.getLast?_concat] at hlast
      exact Option.some.inj hlast
    subst heq
    rw [hlen] at hahead hcounter ⊢
    obtain ⟨counter, rfl⟩ := Nat.exists_eq_add_of_le' (Nat.le_of_add_left_le hcounter)
    obtain ⟨hd, hrest⟩ := descsFrom_head hahead
    refine ⟨some (ringNext^[mids.length] (ringNext s.dmaRxDescToGet)), ?_⟩
    rw [scan_first (by rw [hd]; exact hfirst),
      scan_spanning hmids hlast' hrest (Nat.le_of_succ_le_succ hcounter) rfl (Nat.le_refl 1)]
    simp only [Function.iterate_succ_apply, Nat.add_comm 1]

/-- The scan counts the segments of an unfinished frame and finds none. -/
theorem scan_middles {mids rest : List RxDesc} (hmids : ∀ d ∈ mids, Segment false false d)
    (hrest : ∀ d ∈ rest, d.own = true)
    (hahead : descsFrom s.dmaRxDscrTab s.dmaRxDescToGet (mids ++ rest).length = mids ++ rest)
    (hcounter : counter = (mids ++ rest).length) :
    scan counter s = .ok ({ s with
      segCount := s.segCount + mids.length
      dmaRxDescToGet := ringNext^[mids.length] s.dmaRxDescToGet }, ⟨0, none, none⟩) := by
  subst hcounter
  induction mids generalizing s with
  | nil =>
    cases rest with
    | nil => rfl
    | cons x rest =>
      obtain ⟨hd, -⟩ := descsFrom_head hahead
      apply scan_own
      rw [hd]
      exact hrest x List.mem_cons_self
  | cons mid mids ih =>
    rw [List.forall_mem_cons] at hmids
    obtain ⟨hd, hahead⟩ := descsFrom_head hahead
    rw [List.cons_append, List.length_cons, scan_middle (by rw [hd]; exact hmids.1),
      ih hmids.2 hahead]
    simp only [List.length_cons, Function.iterate_succ_apply, Nat.add_assoc,
      Nat.add_comm 1]

/-- **The scan runs through an unfinished frame.** -/
theorem scan_unfinished {part rest : List RxDesc} (hpart : IsUnfinished part)
    (hrest : ∀ d ∈ rest, d.own = true)
    (hahead : descsFrom s.dmaRxDscrTab s.dmaRxDescToGet (part ++ rest).length = part ++ rest)
    (hcounter : counter = (part ++ rest).length) (hseg : s.segCount = 0) :
    ∃ fs, scan counter s = .ok ({ s with
      fsRxDesc := fs
      segCount := part.length
      dmaRxDescToGet := ringNext^[part.length] s.dmaRxDescToGet }, ⟨0, none, none⟩) := by
  cases hpart with
  | nothing =>
    refine ⟨s.fsRxDesc, ?_⟩
    rw [scan_middles (by simp) hrest hahead hcounter, hseg]
    rfl
  | @started first mids hfirst hmids =>
    subst hcounter
    obtain ⟨hd, hahead⟩ := descsFrom_head hahead
    refine ⟨some s.dmaRxDescToGet, ?_⟩
    rw [List.cons_append, List.length_cons, scan_first (by rw [hd]; exact hfirst),
      scan_middles hmids hrest hahead rfl]
    simp only [List.length_cons, Function.iterate_succ_apply, Nat.add_comm 1]

/-! ## The copy -/

/-- The buffers of a frame are all of one length. -/
theorem length_frameBytes (f : List RxDesc) :
    (frameBytes f).length = f.length * ethRxBufSize := by
  have hblocks : ∀ b ∈ f.map fun d => d.rxBuff.toList, b.length = ethRxBufSize := by simp
  rw [frameBytes, length_flatten_blocks hblocks, List.length_map]

/-- A copy within both buffers does not fault. -/
theorem memcpy_of_copy {payload payload' : List UInt8} {poff off count : ℕ}
    (h : copy payload poff (tab d).rxBuff.toList off count = some payload') :
    memcpy tab payload poff (some d) off count = .ok payload' := by
  unfold memcpy deref
  simp only [bind, Except.bind, h]
  rfl

/-- A copy from the buffer of the descriptor at place `j` of the frame. -/
theorem exists_memcpy {payload : List UInt8} {poff j off count : ℕ}
    (hframe : descsFrom tab d₀ f.length = f) (hj : j < f.length)
    (hoff : off + count ≤ ethRxBufSize) (hpayload : poff + count ≤ payload.length) :
    ∃ payload', memcpy tab payload poff (some (ringNext^[j] d₀)) off count = .ok payload' ∧
      payload'.length = payload.length ∧
      payload'.take (poff + count) =
        payload.take poff ++ slice (frameBytes f) (j * ethRxBufSize + off) count := by
  have hdesc : (f.map fun d => d.rxBuff.toList)[j]? =
      some (tab (ringNext^[j] d₀)).rxBuff.toList := by
    rw [← hframe, descsFrom]
    simp [hj]
  have hlen : ∀ b ∈ f.map fun d => d.rxBuff.toList, b.length = ethRxBufSize := by
    simp
  have hsrc : off + count ≤ (tab (ringNext^[j] d₀)).rxBuff.toList.length := by
    rw [Vector.length_toList]
    exact hoff
  obtain ⟨payload', hcopy, hlen', htake⟩ := exists_copy hsrc hpayload
  refine ⟨payload', ?_, hlen', ?_⟩
  · exact memcpy_of_copy hcopy
  · rw [htake, frameBytes, slice_flatten hlen hdesc hoff]

/-- **The copy into one pbuf.**  From offset `off` in the buffer at place `j` of the frame the
payload is filled with the bytes that come next, and the cursor is behind them.
SOURCE: ethernetif.c:275-298 -/
theorem fill_eq (hframe : descsFrom tab d₀ f.length = f) {left poff j off : ℕ}
    {payload : List UInt8} (hj : j < f.length) (hoff : off ≤ ethRxBufSize)
    (hfit : j * ethRxBufSize + off + left ≤ f.length * ethRxBufSize)
    (hpayload : payload.length = poff + left) :
    ∃ j' off', j' < f.length ∧ off' ≤ ethRxBufSize ∧
      j' * ethRxBufSize + off' = j * ethRxBufSize + off + left ∧
      fill tab left poff ⟨some (ringNext^[j] d₀), some (ringNext^[j] d₀), off⟩ payload =
        .ok (payload.take poff ++ slice (frameBytes f) (j * ethRxBufSize + off) left,
          ⟨some (ringNext^[j'] d₀), some (ringNext^[j'] d₀), off'⟩) := by
  induction hn : left + off using Nat.strongRecOn generalizing left poff j off payload with
  | _ n ih =>
    rw [fill]
    by_cases hlong : ethRxBufSize < left + off
    · -- the buffer ends before the payload: its rest is copied, and the next one follows
      have hpos := ethRxBufSize_pos
      obtain ⟨count, hcount⟩ : ∃ count, count = ethRxBufSize - off := ⟨_, rfl⟩
      have hend : off + count = ethRxBufSize := by omega
      have hfill : poff + count ≤ payload.length := by omega
      obtain ⟨payload', hcopy, hlen', htake⟩ := exists_memcpy hframe hj hend.le hfill
      have hstep : (j + 1) * ethRxBufSize = j * ethRxBufSize + off + count := by
        rw [Nat.succ_mul]
        omega
      have hnext : j + 1 < f.length := by
        apply Nat.lt_of_mul_lt_mul_right
        rw [hstep]
        show _ < f.length * ethRxBufSize
        omega
      have hless : left - count + 0 < n := by omega
      have hfit' : (j + 1) * ethRxBufSize + 0 + (left - count) ≤ f.length * ethRxBufSize := by
        omega
      have hpayload' : payload'.length = poff + count + (left - count) := by omega
      obtain ⟨j', off', hj', hoff', hpos', hrec⟩ :=
        ih _ hless hnext (Nat.zero_le _) hfit' hpayload' rfl
      refine ⟨j', off', hj', hoff', by omega, ?_⟩
      rw [hstep, htake, Nat.add_zero (j * ethRxBufSize + off + count), List.append_assoc,
        slice_append_slice, show count + (left - count) = left by omega,
        Function.iterate_succ_apply'] at hrec
      rw [dif_pos hlong]
      simp only [← hcount, hcopy, deref]
      exact hrec
    · have hend : off + left ≤ ethRxBufSize := by omega
      obtain ⟨payload', hcopy, hlen', htake⟩ := exists_memcpy hframe hj hend hpayload.ge
      refine ⟨j, off + left, hj, hend, by omega, ?_⟩
      rw [dif_neg hlong]
      simp only [hcopy]
      rw [← htake, ← hpayload, ← hlen', List.take_length]
      rfl

/-- **The copy into the chain.**  The pbufs are filled one behind the other.
SOURCE: ethernetif.c:270-299 -/
theorem copyChain_eq (hframe : descsFrom tab d₀ f.length = f) {chain : List (List UInt8)}
    {j off : ℕ} (hj : j < f.length) (hoff : off ≤ ethRxBufSize)
    (hfit : j * ethRxBufSize + off + (chain.map List.length).sum ≤ f.length * ethRxBufSize) :
    ∃ chain', copyChain tab chain ⟨some (ringNext^[j] d₀), some (ringNext^[j] d₀), off⟩ =
        .ok chain' ∧ chain'.map List.length = chain.map List.length ∧
      chain'.flatten = slice (frameBytes f) (j * ethRxBufSize + off)
        (chain.map List.length).sum := by
  induction chain generalizing j off with
  | nil => exact ⟨[], rfl, rfl, rfl⟩
  | cons payload chain ih =>
    rw [List.map_cons, List.sum_cons] at hfit ⊢
    have hfill : j * ethRxBufSize + off + payload.length ≤ f.length * ethRxBufSize := by omega
    obtain ⟨j', off', hj', hoff', hpos, hfill⟩ :=
      fill_eq hframe hj hoff hfill (Nat.zero_add _).symm
    obtain ⟨chain', hchain, hlengths, hflatten⟩ := ih hj' hoff' (by omega)
    rw [List.take_zero, List.nil_append] at hfill
    refine ⟨slice (frameBytes f) (j * ethRxBufSize + off) payload.length :: chain', ?_, ?_, ?_⟩
    · rw [copyChain, hfill]
      show (copyChain tab chain _ >>= _) = _
      rw [hchain]
      rfl
    · have hlen : j * ethRxBufSize + off + payload.length ≤ (frameBytes f).length := by
        rw [length_frameBytes]
        omega
      rw [List.map_cons, hlengths, length_slice hlen]
    · rw [List.flatten_cons, hflatten, hpos, slice_append_slice]

/-! ## The release -/

/-- **The release.**  The descriptors are given back one behind the other, and no other one is
touched.
SOURCE: ethernetif.c:302-310 -/
theorem release_eq (k : ℕ) (d : Fin ethRxBufNb) (tab : DescTab) :
    release k (some d) tab = .ok (fun i =>
      if i ∈ List.iterate ringNext d k then (tab i).giveBack else tab i,
      List.iterate ringNext d k) := by
  induction k generalizing d tab with
  | zero => rfl
  | succ k ih =>
    rw [release]
    show (release k (some (ringNext d)) (Function.update tab d (tab d).giveBack) >>= _) = _
    rw [ih]
    show Except.ok _ = Except.ok _
    congr 2
    funext i
    simp only [List.iterate, List.mem_cons]
    by_cases hi : i = d
    · subst hi
      simp [RxDesc.giveBack]
    · simp only [Function.update_of_ne hi, hi, false_or]

/-- The ring after its last descriptors have been given back. -/
theorem descsFrom_release {l : List RxDesc} (h : descsFrom tab d ethRxBufNb = l ++ f) :
    descsFrom (fun i =>
        if i ∈ List.iterate ringNext (ringNext^[l.length] d) f.length then (tab i).giveBack
        else tab i) d ethRxBufNb = l ++ f.map RxDesc.giveBack := by
  obtain ⟨-, hdescs⟩ := descsFrom_append h
  rw [← List.append_nil f] at h
  rw [← List.append_nil (f.map RxDesc.giveBack)]
  apply descsFrom_replace h
  · exact fun i hi => if_neg hi
  · rw [← hdescs, length_descsFrom]
    unfold descsFrom
    rw [List.map_map]
    apply List.map_congr_left
    intro i hi
    exact if_pos hi

/-- Without a frame the release follows the null pointer. -/
theorem release_none {k : ℕ} (hk : k ≠ 0) (tab : DescTab) :
    release k none tab = .error .nullPointer := by
  obtain ⟨k, rfl⟩ := Nat.exists_eq_succ_of_ne_zero hk
  rfl

/-! ## A call of `low_level_input` -/

/-- The frame that the next call consumes. -/
def consumed (ring : ReceiveRing) : List RxDesc := ring.frames.headD []

/-- A frame is delivered in the chain that `pbuf_alloc` has returned, if it has. -/
def Delivered (pbufAlloc : PbufAlloc) (f : List RxDesc) (p : Option (List (List UInt8))) : Prop :=
  match if 0 < frameLength f then pbufAlloc.alloc (frameLength f) else none with
  | none => p = none
  | some blank => ∃ chain, p = some chain ∧ chain.map List.length = blank.map List.length ∧
      chain.flatten = (frameBytes f).take (frameLength f)

/-- Every frame finds a chain of one pbuf. -/
def onePbuf : PbufAlloc where
  alloc len := some [List.replicate len 0]
  total := by
    rintro len chain ⟨⟩
    exact (Nat.add_zero _).trans List.length_replicate

/-- What a call does as it should: the first complete frame is delivered and its descriptors
are given back, once each, and nothing else changes in the ring. -/
structure SoundInput (pbufAlloc : PbufAlloc) (ring : ReceiveRing) (r : Received) : Prop where
  delivered : Delivered pbufAlloc (consumed ring) r.p
  released : r.released = List.iterate ringNext ring.rx.dmaRxDescToGet (consumed ring).length
  once : r.released.Nodup
  status : ∀ i, r.rx.dmaRxDscrTab i =
    if i ∈ r.released then (ring.rx.dmaRxDscrTab i).giveBack else ring.rx.dmaRxDscrTab i
  ahead : ringAhead r.rx = ring.frames.tail.flatten ++ ring.unfinished ++
    (ring.owned ++ (consumed ring).map RxDesc.giveBack)
  segCount : r.rx.segCount = 0

/-- The field for the frame length has 14 bits, so that the length is not cut off. -/
theorem toNat_length {d : RxDesc} (h : 4 ≤ d.fl.toNat) :
    (d.fl - 4).toUInt16.toNat = d.fl.toNat - 4 := by
  have hand : (d.status &&& ethDMARxDescFL).toNat ≤ 0x3FFF0000 := by
    rw [UInt32.toNat_and]
    exact Nat.and_le_right
  have hfl : d.fl.toNat < 2 ^ 14 := by
    rw [RxDesc.fl, UInt32.toNat_shiftRight, Nat.shiftRight_eq_div_pow]
    show (d.status &&& ethDMARxDescFL).toNat / 2 ^ 16 < 2 ^ 14
    omega
  have hsub : (d.fl - 4).toNat = d.fl.toNat - 4 := UInt32.toNat_sub_of_le _ _ (by
    rw [UInt32.le_iff_toNat_le]
    exact h)
  rw [UInt32.toNat_toUInt16, hsub]
  omega

/-- A complete frame is copied into the chain that is allocated for it. -/
theorem allocAndCopy_eq (pbufAlloc : PbufAlloc) (hframe : descsFrom tab d₀ f.length = f)
    (hf : IsFrame f) {last : RxDesc} (hlast : f.getLast? = some last) :
    ∃ p, allocAndCopy pbufAlloc tab ⟨last.fl - 4, some d₀, some d₀⟩ = .ok p ∧
      Delivered pbufAlloc f p := by
  have hlen : (last.fl - 4).toUInt16.toNat = frameLength f := by
    rw [toNat_length (hf.crc last hlast), frameLength, hlast]
  have hpos : 0 < f.length := by
    rw [List.length_pos_iff]
    rintro rfl
    simp at hlast
  unfold allocAndCopy Delivered
  simp only [hlen]
  cases halloc : (if 0 < frameLength f then pbufAlloc.alloc (frameLength f) else none) with
  | none => exact ⟨none, rfl, rfl⟩
  | some blank =>
    have htotal : (blank.map List.length).sum = frameLength f := by
      by_cases hzero : 0 < frameLength f
      · rw [if_pos hzero] at halloc
        exact pbufAlloc.total _ _ halloc
      · simp [hzero] at halloc
    have hfit : 0 * ethRxBufSize + 0 + (blank.map List.length).sum ≤
        f.length * ethRxBufSize := by
      have hfits := hf.fits
      omega
    obtain ⟨chain, hcopy, hlengths, hflatten⟩ :=
      copyChain_eq hframe hpos (Nat.zero_le _) hfit
    refine ⟨some chain, ?_, chain, rfl, hlengths, ?_⟩
    · show (copyChain tab blank ⟨some (ringNext^[0] d₀), some (ringNext^[0] d₀), 0⟩ >>= _) = _
      rw [hcopy]
      rfl
    · rw [hflatten, htotal, Nat.zero_mul, slice, List.drop_zero]

/-- A call is a scan, a copy and a release. -/
theorem lowLevelInput_eq {pbufAlloc : PbufAlloc} {s' : EthernetRx} {frame : FrameType}
    {p : Option (List (List UInt8))} {tab' : DescTab} {released : List (Fin ethRxBufNb)}
    (hscan : scan ethRxBufNb s = .ok (s', frame))
    (hcopy : allocAndCopy pbufAlloc s'.dmaRxDscrTab frame = .ok p)
    (hrelease : release s'.segCount frame.descriptor s'.dmaRxDscrTab = .ok (tab', released)) :
    lowLevelInput pbufAlloc s = .ok
      ⟨{ s' with dmaRxDscrTab := tab', segCount := 0, rbus := false }, p, released, s'.rbus⟩ := by
  unfold lowLevelInput ethGetReceivedFrameInterrupt
  rw [hscan]
  show (allocAndCopy pbufAlloc s'.dmaRxDscrTab frame >>= _) = _
  rw [hcopy]
  show (release s'.segCount frame.descriptor s'.dmaRxDscrTab >>= _) = _
  rw [hrelease]
  rfl

/-- A frame has a last descriptor. -/
theorem exists_last (hf : Segments f) : ∃ last, f.getLast? = some last := by
  cases hf with
  | single h => exact ⟨_, rfl⟩
  | spanning => exact ⟨_, List.getLast?_concat (l := _ :: _)⟩

/-- The first complete frame of a ring stands in its first descriptors. -/
theorem ReceiveRing.first (ring : ReceiveRing) {fs : List (List RxDesc)}
    (hframes : ring.frames = f :: fs) :
    IsFrame f ∧ f.length ≤ ethRxBufNb ∧
      descsFrom ring.rx.dmaRxDscrTab ring.rx.dmaRxDescToGet f.length = f ∧
      ringAhead ring.rx = f ++ (fs.flatten ++ (ring.unfinished ++ ring.owned)) := by
  have hahead := ring.ahead_eq
  rw [hframes, List.flatten_cons, List.append_assoc, List.append_assoc] at hahead
  have hlen := congrArg List.length hahead
  rw [ringAhead, length_descsFrom, List.length_append] at hlen
  refine ⟨ring.isFrame f ?_, by omega, (descsFrom_append hahead).1, hahead⟩
  rw [hframes]
  exact List.mem_cons_self

/-- In front of a complete frame. -/
theorem soundInput_of_frame (pbufAlloc : PbufAlloc) (ring : ReceiveRing)
    {fs : List (List RxDesc)} (hframes : ring.frames = f :: fs) :
    ∃ r, lowLevelInput pbufAlloc ring.rx = .ok r ∧ SoundInput pbufAlloc ring r := by
  obtain ⟨hf, hle, hframe, hahead⟩ := ring.first hframes
  obtain ⟨last, hlast⟩ := exists_last hf.segments
  obtain ⟨ls, hscan⟩ := scan_frame hf.segments hframe hle ring.segCount hlast
  obtain ⟨p, hcopy, hdelivered⟩ := allocAndCopy_eq pbufAlloc hframe hf hlast
  have hrelease := release_eq f.length ring.rx.dmaRxDescToGet ring.rx.dmaRxDscrTab
  have hconsumed : consumed ring = f := by rw [consumed, hframes, List.headD_cons]
  refine ⟨_, lowLevelInput_eq hscan hcopy hrelease, ?_⟩
  exact {
    delivered := by
      rw [hconsumed]
      exact hdelivered
    released := by rw [hconsumed]
    once := nodup_iterate_ringNext _ hle
    status := fun i => rfl
    ahead := by
      have hreleased := descsFrom_release (descsFrom_rotate hahead)
      rw [iterate_back hahead] at hreleased
      rw [hconsumed, hframes, List.tail_cons]
      refine Eq.trans hreleased ?_
      simp only [List.append_assoc]
    segCount := rfl }

/-- Without a complete frame the scan stops behind the segments of the unfinished one. -/
theorem scan_noFrame (ring : ReceiveRing) (hframes : ring.frames = []) :
    ∃ fs, scan ethRxBufNb ring.rx = .ok ({ ring.rx with
      fsRxDesc := fs
      segCount := ring.unfinished.length
      dmaRxDescToGet := ringNext^[ring.unfinished.length] ring.rx.dmaRxDescToGet },
      ⟨0, none, none⟩) := by
  have hahead := ring.ahead_eq
  rw [hframes, List.flatten_nil, List.nil_append] at hahead
  have hlen := congrArg List.length hahead
  rw [ringAhead, length_descsFrom] at hlen
  apply scan_unfinished ring.isUnfinished ring.own _ hlen ring.segCount
  rw [← hlen]
  exact hahead

/-- When the DMA owns the first descriptor. -/
theorem soundInput_of_own (pbufAlloc : PbufAlloc) (ring : ReceiveRing)
    (hframes : ring.frames = []) (hunfinished : ring.unfinished = []) :
    ∃ r, lowLevelInput pbufAlloc ring.rx = .ok r ∧ SoundInput pbufAlloc ring r := by
  have hconsumed : consumed ring = [] := by rw [consumed, hframes, List.headD_nil]
  obtain ⟨fs, hscan⟩ := scan_noFrame ring hframes
  rw [hunfinished] at hscan
  refine ⟨_, lowLevelInput_eq hscan rfl rfl, ?_⟩
  exact {
    delivered := by
      rw [hconsumed]
      rfl
    released := by
      rw [hconsumed]
      rfl
    once := List.nodup_nil
    status := fun i => rfl
    ahead := by
      rw [hconsumed, hframes, List.tail_nil, List.map_nil, List.append_nil]
      exact ring.ahead_eq.trans (by rw [hframes])
    segCount := rfl }

/-- In front of an unfinished frame. -/
theorem lowLevelInput_of_unfinished (pbufAlloc : PbufAlloc) (ring : ReceiveRing)
    (hframes : ring.frames = []) (hunfinished : ring.unfinished ≠ []) :
    lowLevelInput pbufAlloc ring.rx = .error .nullPointer := by
  obtain ⟨fs, hscan⟩ := scan_noFrame ring hframes
  have hne : ring.unfinished.length ≠ 0 := by
    rw [ne_eq, List.length_eq_zero_iff]
    exact hunfinished
  unfold lowLevelInput ethGetReceivedFrameInterrupt
  rw [hscan]
  show (release ring.unfinished.length none ring.rx.dmaRxDscrTab >>= _) = _
  rw [release_none hne]
  rfl

/-- **When reception is sound.**  In every state of the ring, and for every result of
`pbuf_alloc`, a call of `low_level_input` follows no other pointers than those to descriptors
of the ring, delivers the first frame, gives back its descriptors once each and leaves all
others alone, if and only if a complete frame comes first in the ring or nothing does.
SOURCE: ethernetif.c:245-323, stm32f4xx_eth.c:1156-1222 -/
theorem soundInput_iff (pbufAlloc : PbufAlloc) (ring : ReceiveRing) :
    (∃ r, lowLevelInput pbufAlloc ring.rx = .ok r ∧ SoundInput pbufAlloc ring r) ↔
      (ring.frames = [] → ring.unfinished = []) := by
  constructor
  · rintro ⟨r, hr, -⟩ hframes
    by_contra hunfinished
    rw [lowLevelInput_of_unfinished pbufAlloc ring hframes hunfinished] at hr
    cases hr
  · intro h
    cases hframes : ring.frames with
    | nil => exact soundInput_of_own pbufAlloc ring hframes (h hframes)
    | cons f fs => exact soundInput_of_frame pbufAlloc ring hframes

/-- A descriptor with an empty buffer. -/
def blankDesc (status : UInt32) : RxDesc := ⟨status, Vector.replicate ethRxBufSize 0⟩

/-- The DMA has filled the first segment of a frame, and owns all other descriptors. -/
def firstSegment : ReceiveRing where
  rx := ⟨fun i => blankDesc (if i.val = 0 then ethDMARxDescFS else ethDMARxDescOWN),
    firstDesc, none, none, 0, false⟩
  frames := []
  unfinished := [blankDesc ethDMARxDescFS]
  owned := (List.replicate 4 ethDMARxDescOWN).map blankDesc
  ahead_eq := by
    have hstatus : (List.iterate ringNext firstDesc ethRxBufNb).map
        (fun i => if i.val = 0 then ethDMARxDescFS else ethDMARxDescOWN) =
        ethDMARxDescFS :: List.replicate 4 ethDMARxDescOWN := by
      decide
    have hdescs := congrArg (List.map blankDesc) hstatus
    rw [List.map_map] at hdescs
    exact hdescs
  isFrame := List.forall_mem_nil _
  isUnfinished := .started ⟨rfl, rfl, rfl⟩ (List.forall_mem_nil _)
  own := by
    intro d hd
    obtain ⟨status, hstatus, rfl⟩ := List.mem_map.mp hd
    rw [List.eq_of_mem_replicate hstatus]
    rfl
  segCount := rfl

/-- A call in front of the only segment that has arrived follows the null pointer. -/
theorem not_soundInput_firstSegment :
    ¬ ∃ r, lowLevelInput ⟨fun _ => none, nofun⟩ firstSegment.rx = .ok r ∧
      SoundInput ⟨fun _ => none, nofun⟩ firstSegment r := by
  rintro ⟨r, hr, -⟩
  have hne : firstSegment.unfinished ≠ [] := List.cons_ne_nil _ _
  rw [lowLevelInput_of_unfinished _ firstSegment rfl hne] at hr
  cases hr

end Resmod.Analysis
