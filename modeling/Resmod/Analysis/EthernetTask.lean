import Resmod.Analysis.EthernetRx
import Resmod.Model.EthernetTask

/-!
# No received frame is stranded

When the task waits without a notification, no complete frame is to stand in the ring: one
`ulTaskNotifyTake` takes the notifications of many frames, and there is none for a frame that
is left behind.  The loop goes on behind a frame that the input function has taken, and ends
when the ring is empty; it also ends when `pbuf_alloc` fails, and when the input function does.
`notStranded_iff` says that these are the only ways to strand a frame.

The invariant reads the ring as in `ReceiveRing`, with the frame that `low_level_input` has found
and not yet released at its end.
-/

set_option autoImplicit false

namespace Resmod.Analysis

open Resmod.Library Resmod.Model Resmod.Model.EthernetRx Resmod.Model.EthernetTask

/-- The task does not wait, without a notification, behind a frame. -/
def NotStranded (_ : EthernetTask) (_ : Event) (s' : EthernetTask) (_ : List Unit) : Prop :=
  match s'.place with
  | .waiting => s'.notified = 0 →
      ∀ i, (s'.rx.dmaRxDscrTab i).ls = true → (s'.rx.dmaRxDscrTab i).own = true
  | _ => True

/-- No complete frame stands in the ring, but for the one that `low_level_input` has found,
whose `Seg_Count` descriptors come last. -/
def NoOtherFrame (s : EthernetRx) : Prop :=
  ∀ d ∈ (ringAhead s).take (ethRxBufNb - s.segCount), d.ls = true → d.own = true

/-- When there is no chain for a frame that was found, or the input function fails, no other
frame stands in the ring, or a notification is pending. -/
def FailsAtTheEnd (s : EthernetTask) : Event → Prop
  | .release =>
    match s.place with
    | .release frame none => frame.descriptor ≠ none → s.notified = 0 → NoOtherFrame s.rx
    | _ => True
  | .input false =>
    match s.place with
    | .input _ => s.notified = 0 → NoOtherFrame s.rx
    | _ => True
  | _ => True

/-! ## The invariant -/

/-- The ring from `DMARxDescToGet` on: frames, the descriptors of the DMA, and the frame that
`low_level_input` holds. -/
structure RingHolds (s : EthernetTask) (frames : List (List RxDesc)) (owned held : List RxDesc) :
    Prop where
  ahead : ringAhead s.rx = frames.flatten ++ (owned ++ held)
  isFrame : ∀ f ∈ frames, IsFrame f
  own : ∀ d ∈ owned, d.own = true
  notOwn : ∀ d ∈ held, d.own = false
  dma : s.dmaRxDesc = ringNext^[frames.flatten.length] s.rx.dmaRxDescToGet
  segCount : s.rx.segCount = held.length

/-- What the scan has returned: nothing, with a notification for every frame that has arrived
since, or the frame that is held. -/
inductive Scanned (s : EthernetTask) (frames : List (List RxDesc)) (owned held : List RxDesc) :
    FrameType → Prop
  | nothing (hheld : held = []) (hnotified : s.notified = 0 → frames = []) :
      Scanned s frames owned held ⟨0, none, none⟩
  | found {last : RxDesc} {d : Fin ethRxBufNb} (hf : IsFrame held)
      (hlast : held.getLast? = some last)
      (hd : d = ringNext^[(frames.flatten ++ owned).length] s.rx.dmaRxDescToGet) :
      Scanned s frames owned held ⟨last.fl - 4, some d, some d⟩

/-- What is known at every place of the task. -/
def AtPlace (s : EthernetTask) (frames : List (List RxDesc)) (owned held : List RxDesc) : Prop :=
  match s.place with
  | .waiting => held = [] ∧ (s.notified = 0 → frames = [])
  | .scan => held = []
  | .copy frame => Scanned s frames owned held frame
  | .release frame p => Scanned s frames owned held frame ∧ (frame.descriptor = none → p = none)
  | .input _ => held = []

/-- The ring holds some frames, and the task is at one of its places with them. -/
def TaskInv (s : EthernetTask) : Prop :=
  ∃ frames owned held, RingHolds s frames owned held ∧ AtPlace s frames owned held

variable {s s' : EthernetTask} {frames : List (List RxDesc)} {owned held : List RxDesc}
  {o : List Unit}

/-- The segments of a frame belong to the processor, and its last one is marked. -/
theorem own_of_mem_frame {f : List RxDesc} (hf : Segments f) : ∀ d ∈ f, d.own = false := by
  cases hf with
  | single h => simpa using h.own
  | spanning hfirst hmids hlast =>
    intro d hd
    rw [List.mem_cons, List.mem_append, List.mem_singleton] at hd
    obtain rfl | hmid | rfl := hd
    · exact hfirst.own
    · exact (hmids d hmid).own
    · exact hlast.own

/-- A frame has a descriptor that is marked as its last. -/
theorem exists_ls_of_frame {f : List RxDesc} (hf : Segments f) : ∃ d ∈ f, d.ls = true := by
  cases hf with
  | @single d h => exact ⟨d, List.mem_singleton_self d, h.ls⟩
  | @spanning first mids last hfirst hmids hlast =>
    exact ⟨last, by simp, hlast.ls⟩

/-- Whether there is a frame in a part of the ring, told by the marks. -/
theorem forall_ls_iff (hframes : ∀ f ∈ frames, IsFrame f) (hown : ∀ d ∈ owned, d.own = true) :
    (∀ d ∈ frames.flatten ++ owned, d.ls = true → d.own = true) ↔ frames = [] := by
  constructor
  · intro h
    by_contra hne
    obtain ⟨f, hf⟩ := List.exists_mem_of_ne_nil frames hne
    obtain ⟨d, hd, hls⟩ := exists_ls_of_frame (hframes f hf).segments
    have hmem : d ∈ frames.flatten ++ owned :=
      List.mem_append_left _ (List.mem_flatten.mpr ⟨f, hf, hd⟩)
    have hnot := own_of_mem_frame (hframes f hf).segments d hd
    exact Bool.noConfusion ((h d hmem hls).symm.trans hnot)
  · rintro rfl d hd -
    exact hown d (by simpa using hd)

/-- No other frame than the one that is held. -/
theorem RingHolds.noOtherFrame_iff (h : RingHolds s frames owned held) :
    NoOtherFrame s.rx ↔ frames = [] := by
  have hlen := congrArg List.length h.ahead
  rw [ringAhead, length_descsFrom, ← List.append_assoc, List.length_append] at hlen
  have htake : (ringAhead s.rx).take (ethRxBufNb - s.rx.segCount) = frames.flatten ++ owned := by
    rw [h.ahead, h.segCount, ← List.append_assoc]
    exact List.take_left' (by omega)
  rw [NoOtherFrame, htake, forall_ls_iff h.isFrame h.own]

/-- No frame at all, where none is held. -/
theorem RingHolds.forall_iff (h : RingHolds s frames owned []) :
    (∀ i, (s.rx.dmaRxDscrTab i).ls = true → (s.rx.dmaRxDscrTab i).own = true) ↔
      frames = [] := by
  rw [← forall_ls_iff h.isFrame h.own, ← List.append_nil (frames.flatten ++ owned),
    List.append_assoc, ← h.ahead, ringAhead, descsFrom, List.forall_mem_map]
  exact ⟨fun hall i _ => hall i, fun hall i => hall i (mem_iterate_ringNext_self _ i)⟩

/-- The invariant at the start. -/
theorem taskInv_started (rxBuff : Fin ethRxBufNb → Vector UInt8 ethRxBufSize) :
    TaskInv (started rxBuff) := by
  refine ⟨[], ringAhead (started rxBuff).rx, [], ⟨?_, List.forall_mem_nil _, ?_,
    List.forall_mem_nil _, rfl, rfl⟩, rfl, fun _ => rfl⟩
  · rw [List.flatten_nil, List.nil_append, List.append_nil]
  · intro d hd
    obtain ⟨i, -, rfl⟩ := List.mem_map.mp hd
    show (ethDMARxDescOWN &&& ethDMARxDescOWN != 0) = true
    decide

/-! ## Arrivals -/

/-- The other descriptors stay as they are when a frame arrives. -/
theorem store_of_not_mem {f : List RxDesc} {d i : Fin ethRxBufNb} (tab : DescTab)
    (hi : i ∉ List.iterate ringNext d f.length) : store f d tab i = tab i := by
  induction f generalizing d tab with
  | nil => rfl
  | cons x f ih =>
    rw [List.length_cons, List.iterate, List.mem_cons, not_or] at hi
    rw [store, ih _ hi.2, Function.update_of_ne hi.1]

/-- What was stored stands in the ring. -/
theorem descsFrom_store {f : List RxDesc} (d : Fin ethRxBufNb) (tab : DescTab)
    (hf : f.length ≤ ethRxBufNb) : descsFrom (store f d tab) d f.length = f := by
  induction f generalizing d tab with
  | nil => rfl
  | cons x f ih =>
    have hnodup := nodup_iterate_ringNext d hf
    rw [List.length_cons, List.iterate, List.nodup_cons] at hnodup
    rw [List.length_cons, descsFrom_succ, store, ih _ _ (Nat.le_of_succ_le hf),
      store_of_not_mem _ hnodup.1, Function.update_self]

/-- The DMA stores into its own descriptors only. -/
theorem RingHolds.owned_split (h : RingHolds s frames owned held) {k : ℕ} (hk : k ≤ ethRxBufNb)
    (hown : ∀ d ∈ descsFrom s.rx.dmaRxDscrTab s.dmaRxDesc k, d.own = true) :
    k ≤ owned.length := by
  have hrotated := descsFrom_rotate h.ahead
  rw [← h.dma, List.append_assoc] at hrotated
  by_contra hlong
  obtain ⟨m, rfl⟩ := Nat.exists_eq_add_of_lt (Nat.not_le.mp hlong)
  -- behind the descriptors of the DMA comes one of the processor, or the ring is all of the DMA's
  have hlen := congrArg List.length hrotated
  rw [length_descsFrom, List.length_append] at hlen
  have hnot : ∀ d ∈ held ++ frames.flatten, d.own = false := by
    intro d hd
    obtain hd | hd := List.mem_append.mp hd
    · exact h.notOwn d hd
    · obtain ⟨f, hf, hd⟩ := List.mem_flatten.mp hd
      exact own_of_mem_frame (h.isFrame f hf).segments d hd
  cases hrest : held ++ frames.flatten with
  | nil =>
    rw [hrest, List.length_nil] at hlen
    omega
  | cons x rest =>
    have hx : x ∈ descsFrom s.rx.dmaRxDscrTab s.dmaRxDesc (owned.length + m + 1) := by
      have hsplit : descsFrom s.rx.dmaRxDscrTab s.dmaRxDesc (owned.length + m + 1) =
          (owned ++ x :: rest).take (owned.length + m + 1) := by
        rw [← hrest, ← hrotated]
        unfold descsFrom
        rw [← List.map_take, List.take_iterate, Nat.min_eq_left hk]
      rw [hsplit, Nat.add_assoc, List.take_length_add_append, List.take_succ_cons]
      exact List.mem_append_right _ List.mem_cons_self
    have hxown := hnot x (by rw [hrest]; exact List.mem_cons_self)
    exact Bool.noConfusion ((hown x hx).symm.trans hxown)

/-- The state after an arrival. -/
def arrived (s : EthernetTask) (frame : Frame) : EthernetTask :=
  { s with
    rx := { s.rx with dmaRxDscrTab := store frame.segments s.dmaRxDesc s.rx.dmaRxDscrTab }
    dmaRxDesc := ringNext^[frame.segments.length] s.dmaRxDesc
    notified := s.notified + 1 }

/-- A frame arrives: it comes to stand behind the others. -/
theorem RingHolds.arrival (h : RingHolds s frames owned held) (frame : Frame)
    (hk : frame.segments.length ≤ ethRxBufNb)
    (hown : ∀ d ∈ descsFrom s.rx.dmaRxDscrTab s.dmaRxDesc frame.segments.length,
      d.own = true) :
    ∃ owned', RingHolds (arrived s frame) (frames ++ [frame.segments]) owned' held ∧
      ((frames ++ [frame.segments]).flatten ++ owned').length =
        (frames.flatten ++ owned).length := by
  have hle := h.owned_split hk hown
  obtain ⟨filled, owned', rfl, hfilled⟩ :
      ∃ filled owned', owned = filled ++ owned' ∧ filled.length = frame.segments.length :=
    ⟨_, _, (List.take_append_drop frame.segments.length owned).symm,
      List.length_take_of_le hle⟩
  have hflatten : (frames ++ [frame.segments]).flatten = frames.flatten ++ frame.segments := by
    rw [List.flatten_append, List.flatten_singleton]
  have hahead := h.ahead
  rw [List.append_assoc] at hahead
  refine ⟨owned', ⟨?_, ?_, ?_, h.notOwn, ?_, h.segCount⟩, ?_⟩
  · rw [hflatten, List.append_assoc]
    apply descsFrom_replace hahead
    · intro i hi
      rw [← h.dma, hfilled] at hi
      exact store_of_not_mem _ hi
    · rw [← h.dma, hfilled]
      exact descsFrom_store _ _ hk
  · intro f hf
    obtain hf | hf := List.mem_append.mp hf
    · exact h.isFrame f hf
    · rw [List.mem_singleton.mp hf]
      exact frame.isFrame
  · exact fun d hd => h.own d (List.mem_append_right _ hd)
  · show ringNext^[frame.segments.length] s.dmaRxDesc = _
    rw [hflatten, List.length_append, Nat.add_comm, Function.iterate_add_apply]
    exact congrArg ringNext^[frame.segments.length] h.dma
  · rw [hflatten]
    simp only [List.length_append, hfilled, Nat.add_assoc]

/-- What the scan has returned stays true when a frame arrives. -/
theorem Scanned.arrival {frame : Frame} {frames' : List (List RxDesc)} {owned' : List RxDesc}
    {r : FrameType} (h : Scanned s frames owned held r)
    (hlen : (frames'.flatten ++ owned').length = (frames.flatten ++ owned).length) :
    Scanned (arrived s frame) frames' owned' held r := by
  cases h with
  | nothing hheld _ => exact .nothing hheld nofun
  | found hf hlast hd =>
    apply Scanned.found hf hlast
    rw [hlen]
    exact hd

/-- What is known at the place of the task survives an arrival. -/
theorem AtPlace.arrival {frame : Frame} {frames' : List (List RxDesc)} {owned' : List RxDesc}
    (h : AtPlace s frames owned held)
    (hlen : (frames'.flatten ++ owned').length = (frames.flatten ++ owned).length) :
    AtPlace (arrived s frame) frames' owned' held := by
  have hsame : (arrived s frame).place = s.place := rfl
  unfold AtPlace at h ⊢
  rw [hsame]
  cases hplace : s.place with
  | waiting =>
    rw [hplace] at h
    exact ⟨h.1, nofun⟩
  | scan =>
    rw [hplace] at h
    exact h
  | copy r =>
    rw [hplace] at h
    exact h.arrival hlen
  | release r p =>
    rw [hplace] at h
    exact ⟨h.1.arrival hlen, h.2⟩
  | input p =>
    rw [hplace] at h
    exact h

/-- A frame arrives. -/
theorem step_arrival (hI : TaskInv s) {frame : Frame}
    (h : machine.step s (.arrival frame) = some (s', o)) :
    NotStranded s (.arrival frame) s' o ∧ TaskInv s' := by
  obtain ⟨frames, owned, held, hring, hplace⟩ := hI
  have hstep : machine.step s (.arrival frame) =
      if (descsFrom s.rx.dmaRxDscrTab s.dmaRxDesc frame.segments.length).all RxDesc.own ∧
          frame.segments.length ≤ ethRxBufNb then
        some (arrived s frame, [])
      else none := rfl
  rw [hstep] at h
  split at h
  case isFalse => cases h
  case isTrue hfree =>
    cases h
    obtain ⟨owned', hring', hlen⟩ :=
      hring.arrival frame hfree.2 (List.all_eq_true.mp hfree.1)
    refine ⟨?_, _, owned', held, hring', hplace.arrival hlen⟩
    unfold NotStranded
    split
    · exact nofun
    · exact trivial

/-! ## The steps of the task -/

/-- The task goes on, and takes notifications: the ring stays as it is. -/
theorem RingHolds.goOn (h : RingHolds s frames owned held) (notified : ℕ) (place : Place) :
    RingHolds { s with notified := notified, place := place } frames owned held :=
  ⟨h.ahead, h.isFrame, h.own, h.notOwn, h.dma, h.segCount⟩

/-- The ring, while no frame is held. -/
def RingHolds.ring (h : RingHolds s frames owned []) : ReceiveRing where
  rx := s.rx
  frames := frames
  unfinished := []
  owned := owned
  ahead_eq := by rw [h.ahead, List.append_nil, List.append_nil]
  isFrame := h.isFrame
  isUnfinished := .nothing
  own := h.own
  segCount := h.segCount

/-- Waiting without a notification is to be in front of an empty ring. -/
theorem RingHolds.waiting_iff (h : RingHolds s frames owned []) {e : Event}
    (hplace : s.place = .waiting) (t : EthernetTask) :
    NotStranded t e s o ↔ (s.notified = 0 → frames = []) := by
  unfold NotStranded
  rw [hplace]
  show (s.notified = 0 → _) ↔ _
  rw [h.forall_iff]

/-- The task goes on when it has been notified, and waits otherwise. -/
theorem step_take (hI : TaskInv s) (h : machine.step s .take = some (s', o)) :
    NotStranded s .take s' o ∧ TaskInv s' := by
  obtain ⟨frames, owned, held, hring, hplace⟩ := hI
  unfold AtPlace at hplace
  simp only [machine] at h
  cases hat : s.place with
  | waiting =>
    rw [hat] at h hplace
    obtain ⟨rfl, hnone⟩ := hplace
    by_cases hnotified : s.notified = 0
    · simp only [hnotified, if_true] at h
      cases h
      refine ⟨(hring.waiting_iff hat s).mpr hnone, frames, owned, [], hring, ?_⟩
      unfold AtPlace
      rw [hat]
      exact ⟨rfl, hnone⟩
    · simp only [hnotified, if_false] at h
      cases h
      exact ⟨trivial, frames, owned, [], hring.goOn 0 .scan, rfl⟩
  | scan | copy | release | input => simp [hat] at h

/-- The scan takes the first frame, if there is one. -/
theorem RingHolds.scan (h : RingHolds s frames owned []) :
    ∃ rx r frames' held, ethGetReceivedFrameInterrupt s.rx = .ok (rx, r) ∧
      RingHolds { s with rx := rx, place := .copy r } frames' owned held ∧
      Scanned { s with rx := rx, place := .copy r } frames' owned held r := by
  have hdma := h.dma
  cases frames with
  | nil =>
    obtain ⟨fs, hscan⟩ := scan_noFrame h.ring rfl
    exact ⟨_, _, [], [], hscan,
      ⟨h.ahead, h.isFrame, h.own, h.notOwn, hdma, rfl⟩, .nothing rfl fun _ => rfl⟩
  | cons f fs =>
    obtain ⟨hf, hle, hframe, hahead⟩ := h.ring.first rfl
    obtain ⟨last, hlast⟩ := exists_last hf.segments
    obtain ⟨ls, hscan⟩ := scan_frame hf.segments hframe hle h.segCount hlast
    refine ⟨_, _, fs, f, hscan, ⟨?_, ?_, h.own, own_of_mem_frame hf.segments, ?_, rfl⟩,
      .found hf hlast ?_⟩
    · exact (descsFrom_rotate hahead).trans (List.append_assoc _ _ _)
    · exact fun g hg => h.isFrame g (List.mem_cons_of_mem f hg)
    · rw [List.flatten_cons, List.length_append, Nat.add_comm,
        Function.iterate_add_apply] at hdma
      exact hdma
    · exact (iterate_back hahead).symm

/-- The task looks for a frame. -/
theorem step_scan (hI : TaskInv s) (h : machine.step s .scan = some (s', o)) :
    NotStranded s .scan s' o ∧ TaskInv s' := by
  obtain ⟨frames, owned, held, hring, hplace⟩ := hI
  unfold AtPlace at hplace
  simp only [machine] at h
  cases hat : s.place with
  | scan =>
    rw [hat] at h hplace
    subst hplace
    obtain ⟨rx, r, frames', held', hscan, hring', hscanned⟩ := hring.scan
    simp only [hscan, afterCall] at h
    cases h
    exact ⟨trivial, frames', owned, held', hring', hscanned⟩
  | waiting | copy | release | input => simp [hat] at h

/-- The copy changes nothing in the ring. -/
theorem step_copy (hI : TaskInv s) {pbufAlloc : PbufAlloc}
    (h : machine.step s (.copy pbufAlloc) = some (s', o)) :
    NotStranded s (.copy pbufAlloc) s' o ∧ TaskInv s' := by
  obtain ⟨frames, owned, held, hring, hplace⟩ := hI
  unfold AtPlace at hplace
  simp only [machine] at h
  cases hat : s.place with
  | copy r =>
    rw [hat] at h hplace
    have hring' := fun p => hring.goOn s.notified (.release r p)
    cases hplace with
    | nothing hheld hnone =>
      have hcopy : allocAndCopy pbufAlloc s.rx.dmaRxDscrTab ⟨0, none, none⟩ = .ok none := rfl
      simp only [hcopy, afterCall] at h
      cases h
      exact ⟨trivial, frames, owned, held, hring' none, .nothing hheld hnone, fun _ => rfl⟩
    | @found last d hf hlast hd =>
      have hframe := hring.ahead
      rw [← List.append_assoc] at hframe
      have hbytes := (descsFrom_append hframe).2
      rw [← hd] at hbytes
      obtain ⟨p, hcopy, -⟩ := allocAndCopy_eq pbufAlloc hbytes hf hlast
      simp only [hcopy, afterCall] at h
      cases h
      exact ⟨trivial, frames, owned, held, hring' p, .found hf hlast hd, nofun⟩
  | waiting | scan | release | input => simp [hat] at h

/-- The descriptors of the frame go back to the DMA, whatever has become of the frame. -/
theorem RingHolds.release (h : RingHolds s frames owned held) {r : FrameType}
    (hscanned : Scanned s frames owned held r) (p : Option (List (List UInt8))) :
    ∃ rx owned' released resumed, releaseFrame s.rx r p = .ok ⟨rx, p, released, resumed⟩ ∧
      ∀ place, RingHolds { s with rx := rx, place := place } frames owned' [] := by
  have hahead := h.ahead
  cases hscanned with
  | nothing hheld _ =>
    have hcount := h.segCount
    subst hheld
    refine ⟨{ s.rx with segCount := 0, rbus := false }, owned, [], s.rx.rbus, ?_, fun place =>
      ⟨h.ahead, h.isFrame, h.own, h.notOwn, h.dma, rfl⟩⟩
    unfold releaseFrame
    rw [hcount]
    rfl
  | @found last d hf hlast hd =>
    rw [← List.append_assoc] at hahead
    have hreleased := descsFrom_release hahead
    rw [← hd] at hreleased
    have hrelease : ∃ released, releaseFrame s.rx ⟨last.fl - 4, some d, some d⟩ p = .ok
        ⟨{ s.rx with
          dmaRxDscrTab := fun i =>
            if i ∈ List.iterate ringNext d held.length then (s.rx.dmaRxDscrTab i).giveBack
            else s.rx.dmaRxDscrTab i
          segCount := 0
          rbus := false }, p, released, s.rx.rbus⟩ := by
      unfold releaseFrame
      rw [h.segCount, release_eq]
      exact ⟨_, rfl⟩
    obtain ⟨released, hrelease⟩ := hrelease
    refine ⟨_, owned ++ held.map RxDesc.giveBack, released, _, hrelease, fun place =>
      ⟨?_, h.isFrame, ?_, List.forall_mem_nil _, h.dma, rfl⟩⟩
    · rw [List.append_nil, ← List.append_assoc]
      exact hreleased
    · intro x hx
      obtain hx | hx := List.mem_append.mp hx
      · exact h.own x hx
      · obtain ⟨y, -, rfl⟩ := List.mem_map.mp hx
        show (ethDMARxDescOWN &&& ethDMARxDescOWN != 0) = true
        decide

/-- The release ends the reception of a frame that has found no chain. -/
theorem step_release (hI : TaskInv s) (h : machine.step s .release = some (s', o)) :
    (NotStranded s .release s' o ↔ FailsAtTheEnd s .release) ∧
      (FailsAtTheEnd s .release → TaskInv s') := by
  obtain ⟨frames, owned, held, hring, hplace⟩ := hI
  unfold AtPlace at hplace
  unfold FailsAtTheEnd
  simp only [machine] at h
  cases hat : s.place with
  | release r p =>
    rw [hat] at h hplace
    obtain ⟨hscanned, hnone⟩ := hplace
    obtain ⟨rx, owned', released, resumed, hrelease, hring'⟩ := hring.release hscanned p
    simp only [hrelease, afterCall] at h
    cases h
    cases p with
    | some p =>
      exact ⟨⟨fun _ => trivial, fun _ => trivial⟩,
        fun _ => ⟨frames, owned', [], hring' (.input p), rfl⟩⟩
    | none =>
      have hiff : (r.descriptor ≠ none → s.notified = 0 → NoOtherFrame s.rx) ↔
          (s.notified = 0 → frames = []) := by
        rw [hring.noOtherFrame_iff]
        cases hscanned with
        | nothing _ hframes => exact ⟨fun _ => hframes, fun h _ => h⟩
        | found => exact ⟨fun h => h nofun, fun h _ => h⟩
      constructor
      · exact ((hring' .waiting).waiting_iff rfl s).trans hiff.symm
      · intro hends
        exact ⟨frames, owned', [], hring' .waiting, rfl, hiff.mp hends⟩
  | waiting | scan | copy | input => simp [hat] at h

/-- The loop goes on behind a frame that was taken, and ends behind one that was not. -/
theorem step_input (hI : TaskInv s) {ok : Bool}
    (h : machine.step s (.input ok) = some (s', o)) :
    (NotStranded s (.input ok) s' o ↔ FailsAtTheEnd s (.input ok)) ∧
      (FailsAtTheEnd s (.input ok) → TaskInv s') := by
  obtain ⟨frames, owned, held, hring, hplace⟩ := hI
  unfold AtPlace at hplace
  simp only [machine] at h
  cases hat : s.place with
  | input p =>
    rw [hat] at h hplace
    subst hplace
    cases h
    have hring' := hring.goOn s.notified
    cases ok with
    | true =>
      exact ⟨⟨fun _ => trivial, fun _ => trivial⟩,
        fun _ => ⟨frames, owned, [], hring' .scan, rfl⟩⟩
    | false =>
      have hiff : FailsAtTheEnd s (.input false) ↔ (s.notified = 0 → frames = []) := by
        unfold FailsAtTheEnd
        rw [hat]
        show (s.notified = 0 → NoOtherFrame s.rx) ↔ _
        rw [hring.noOtherFrame_iff]
      constructor
      · exact ((hring' .waiting).waiting_iff rfl s).trans hiff.symm
      · intro hends
        exact ⟨frames, owned, [], hring' .waiting, rfl, hiff.mp hends⟩
  | waiting | scan | copy | release => simp [hat] at h

/-- **When no frame is stranded.**  In every order of arrivals and steps of the task, and for
all results of `pbuf_alloc` and of the input function, the task never waits without a
notification while a complete frame stands in the ring, if and only if, whenever a frame finds
no chain or the input function fails, it was the last one or a notification is pending.
SOURCE: ethernetif.c:334-363, 400-406 -/
theorem notStranded_iff (rxBuff : Fin ethRxBufNb → Vector UInt8 ethRxBufSize)
    (events : List Event) :
    machine.Always NotStranded (started rxBuff) events ↔
      machine.Always (fun s e _ _ => FailsAtTheEnd s e) (started rxBuff) events := by
  apply Machine.always_congr TaskInv _ (taskInv_started rxBuff)
  intro s e s' o hI hstep
  -- a step that does not end the loop is no exception
  have hkeep : FailsAtTheEnd s e → NotStranded s e s' o ∧ TaskInv s' →
      (NotStranded s e s' o ↔ FailsAtTheEnd s e) ∧ (FailsAtTheEnd s e → TaskInv s') :=
    fun hends h => ⟨⟨fun _ => hends, fun _ => h.1⟩, fun _ => h.2⟩
  cases e with
  | arrival frame => exact hkeep trivial (step_arrival hI hstep)
  | take => exact hkeep trivial (step_take hI hstep)
  | scan => exact hkeep trivial (step_scan hI hstep)
  | copy pbufAlloc => exact hkeep trivial (step_copy hI hstep)
  | release => exact step_release hI hstep
  | input ok => exact step_input hI hstep

/-- A frame of 64 bytes in one descriptor. -/
def shortFrame : Frame where
  segments := [blankDesc 0x00400300]
  isFrame := {
    segments := .single ⟨rfl, rfl, rfl⟩
    crc := by
      intro last hlast
      cases hlast
      decide
    fits := by
      show (blankDesc 0x00400300).fl.toNat - 4 ≤ 1 * ethRxBufSize
      decide }

instance (s : EthernetTask) (e : Event) (s' : EthernetTask) (o : List Unit) :
    Decidable (NotStranded s e s' o) :=
  match h : s'.place with
  | .waiting => decidable_of_iff
      (s'.notified = 0 → ∀ i, (s'.rx.dmaRxDscrTab i).ls = true → (s'.rx.dmaRxDscrTab i).own = true)
      (by simp [NotStranded, h])
  | .scan | .copy _ | .release _ _ | .input _ => .isTrue (by simp [NotStranded, h])

/-- Two frames have arrived before the task takes both notifications; there is no chain for the
first one, and the second one stays in the ring. -/
theorem not_notStranded_noChain :
    ¬ machine.Always NotStranded (started fun _ => Vector.replicate ethRxBufSize 0)
      [.arrival shortFrame, .arrival shortFrame, .take, .scan, .copy ⟨fun _ => none, nofun⟩,
        .release] := by
  decide +kernel

end Resmod.Analysis
