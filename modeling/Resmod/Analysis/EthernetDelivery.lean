import Resmod.Analysis.EthernetTask

/-!
# Received frames are delivered in order, over whole runs

A history variable keeps the frames that have arrived, what `low_level_input` has made of each
frame that it has found, and the chains that the input function of the interface has been
called with.  Whatever the order of arrivals and steps, and whatever `pbuf_alloc` and the input
function return: the frames are found in the order of their arrival, each once, and a frame
that has found a chain is handed on in it.
-/

set_option autoImplicit false

namespace Resmod.Analysis

open Resmod.Library Resmod.Model Resmod.Model.EthernetRx Resmod.Model.EthernetTask

namespace EthernetDelivery

/-- What has happened so far. -/
structure History where
  /-- The frames that have arrived. -/
  arrived : List (List RxDesc)
  /-- For every frame that was found: the allocator, and the chain if there was one. -/
  copied : List (PbufAlloc × Option (List (List UInt8)))
  /-- The chains that the input function has been called with. -/
  handed : List (List (List UInt8))

/-- Nothing has happened. -/
def History.start : History := ⟨[], [], []⟩

/-- How a step continues the history. -/
def History.next (h : History) (s : EthernetTask) (e : Event) (s' : EthernetTask)
    (_ : List Unit) : History :=
  match e with
  | .arrival frame => { h with arrived := h.arrived ++ [frame.segments] }
  | .copy pbufAlloc =>
    match s'.place with
    | .release frame p =>
      if frame.descriptor.isSome then { h with copied := h.copied ++ [(pbufAlloc, p)] } else h
    | _ => h
  | .input _ =>
    match s.place with
    | .input p => { h with handed := h.handed ++ [p] }
    | _ => h
  | _ => h

/-- The chain that has been filled and not yet been handed on. -/
def inHand : Place → List (List (List UInt8))
  | .release _ (some p) => [p]
  | .input p => [p]
  | _ => []

/-- The frame that has been found and not yet been copied. -/
def found (held : List RxDesc) : Place → List (List RxDesc)
  | .copy frame => if frame.descriptor.isSome then [held] else []
  | _ => []

/-- What is known of the frame that is held, by the place of the task. -/
def HeldAt (s : EthernetTask) (frames : List (List RxDesc)) (owned held : List RxDesc) : Prop :=
  match s.place with
  | .copy frame => Scanned s frames owned held frame
  | .release frame p => Scanned s frames owned held frame ∧ (frame.descriptor = none → p = none)
  | _ => held = []

/-- The ring and the history: the frames that have arrived are those that were found, and those
in the ring, in order. -/
structure Recorded (s : EthernetTask) (h : History) (frames : List (List RxDesc))
    (owned held : List RxDesc) (done : List (List RxDesc)) : Prop where
  ring : RingHolds s frames owned held
  heldAt : HeldAt s frames owned held
  arrived_eq : h.arrived = done ++ found held s.place ++ frames
  delivered : List.Forall₂ (fun f c => Delivered c.1 f c.2) done h.copied
  handed_eq : h.copied.filterMap Prod.snd = h.handed ++ inHand s.place

variable {s s' : EthernetTask} {h : History} {frames : List (List RxDesc)}
  {owned held : List RxDesc} {done : List (List RxDesc)} {o : List Unit}

/-- The scan in front of an empty ring. -/
theorem scan_empty (hring : RingHolds s [] owned []) :
    ∃ rx, ethGetReceivedFrameInterrupt s.rx = .ok (rx, ⟨0, none, none⟩) ∧
      RingHolds { s with rx := rx, place := .copy ⟨0, none, none⟩ } [] owned [] := by
  obtain ⟨fs, hscan⟩ := scan_noFrame hring.ring rfl
  exact ⟨_, hscan, hring.ahead, hring.isFrame, hring.own, hring.notOwn, hring.dma, rfl⟩

/-- The scan finds the first frame of the ring. -/
theorem scan_found {f : List RxDesc} (hring : RingHolds s (f :: frames) owned []) :
    ∃ rx r, ethGetReceivedFrameInterrupt s.rx = .ok (rx, r) ∧
      RingHolds { s with rx := rx, place := .copy r } frames owned f ∧
      Scanned { s with rx := rx, place := .copy r } frames owned f r ∧
      r.descriptor.isSome = true := by
  have hdma := hring.dma
  obtain ⟨hf, hle, hframe, hahead⟩ := hring.ring.first rfl
  obtain ⟨last, hlast⟩ := exists_last hf.segments
  obtain ⟨ls, hscan⟩ := scan_frame hf.segments hframe hle hring.ring.segCount hlast
  refine ⟨_, _, hscan, ⟨?_, ?_, hring.own, own_of_mem_frame hf.segments, ?_, rfl⟩,
    .found hf hlast ?_, rfl⟩
  · exact (descsFrom_rotate hahead).trans (List.append_assoc _ _ _)
  · exact fun g hg => hring.isFrame g (List.mem_cons_of_mem f hg)
  · rw [List.flatten_cons, List.length_append, Nat.add_comm, Function.iterate_add_apply] at hdma
    exact hdma
  · exact (iterate_back hahead).symm

/-! ## The steps -/

/-- A frame arrives for which there are descriptors. -/
theorem Recorded.arrival (hrec : Recorded s h frames owned held done) {frame : Frame}
    (hstep : machine.step s (.arrival frame) = some (s', o)) :
    ∃ frames' owned', Recorded s' (h.next s (.arrival frame) s' o) frames' owned' held done := by
  have hdef : machine.step s (.arrival frame) =
      if (descsFrom s.rx.dmaRxDscrTab s.dmaRxDesc frame.segments.length).all RxDesc.own ∧
          frame.segments.length ≤ ethRxBufNb then
        some (arrived s frame, [])
      else none := rfl
  rw [hdef] at hstep
  obtain ⟨hfree, hs'⟩ := Option.ite_none_right_eq_some.mp hstep
  cases hs'
  obtain ⟨owned', hring, hlen⟩ :=
    hrec.ring.arrival frame hfree.2 (List.all_eq_true.mp hfree.1)
  refine ⟨_, owned', hring, ?_, ?_, hrec.delivered, hrec.handed_eq⟩
  · have hheld := hrec.heldAt
    unfold HeldAt at hheld ⊢
    show match s.place with
      | .copy r => Scanned (arrived s frame) _ _ _ r
      | .release r p => Scanned (arrived s frame) _ _ _ r ∧ (r.descriptor = none → p = none)
      | _ => held = []
    cases hplace : s.place <;> rw [hplace] at hheld
    case copy r => exact hheld.arrival hlen
    case release r p => exact ⟨hheld.1.arrival hlen, hheld.2⟩
    all_goals exact hheld
  · show h.arrived ++ [frame.segments] = _
    rw [hrec.arrived_eq, List.append_assoc]
    rfl

/-- A step that leaves the ring alone and goes on with the same frame. -/
theorem Recorded.take (hrec : Recorded s h frames owned held done)
    (hstep : machine.step s .take = some (s', o)) :
    Recorded s' (h.next s .take s' o) frames owned held done := by
  obtain ⟨hring, hheld, harrived, hcopied, hhanded⟩ := hrec
  have hnext : h.next s .take s' o = h := rfl
  rw [hnext]
  simp only [machine] at hstep
  cases hplace : s.place with
  | waiting =>
    simp only [hplace] at hstep
    unfold HeldAt at hheld
    rw [hplace] at hheld harrived hhanded
    split_ifs at hstep with hnotified
    · cases hstep
      refine ⟨hring, ?_, ?_, hcopied, ?_⟩
      · unfold HeldAt
        rw [hplace]
        exact hheld
      · rw [hplace]
        exact harrived
      · rw [hplace]
        exact hhanded
    · cases hstep
      exact ⟨hring.goOn 0 .scan, hheld, harrived, hcopied, hhanded⟩
  | scan | copy | release | input => simp [hplace] at hstep

/-- The scan finds the first complete frame, or none. -/
theorem Recorded.scan (hrec : Recorded s h frames owned held done)
    (hstep : machine.step s .scan = some (s', o)) :
    ∃ frames' held', Recorded s' (h.next s .scan s' o) frames' owned held' done := by
  obtain ⟨hring, hheld, harrived, hcopied, hhanded⟩ := hrec
  have hnext : h.next s .scan s' o = h := rfl
  rw [hnext]
  simp only [machine] at hstep
  cases hplace : s.place with
  | scan =>
    simp only [hplace] at hstep
    unfold HeldAt at hheld
    rw [hplace] at hheld harrived hhanded
    obtain rfl : held = [] := hheld
    have hnone : found [] Place.scan = [] := rfl
    rw [hnone, List.append_nil] at harrived
    cases frames with
    | nil =>
      obtain ⟨rx, hscan, hring'⟩ := scan_empty hring
      rw [hscan] at hstep
      cases hstep
      refine ⟨[], [], hring', .nothing rfl fun _ => rfl, ?_, hcopied, hhanded⟩
      simpa [found] using harrived
    | cons f fs =>
      obtain ⟨rx, r, hscan, hring', hscanned, hsome⟩ := scan_found hring
      rw [hscan] at hstep
      cases hstep
      refine ⟨fs, f, hring', hscanned, ?_, hcopied, hhanded⟩
      simpa [found, hsome] using harrived
  | waiting | copy | release | input => simp [hplace] at hstep

/-- The frame that has been found is copied, or there is no pbuf for it. -/
theorem Recorded.copy (hrec : Recorded s h frames owned held done) {pbufAlloc : PbufAlloc}
    (hstep : machine.step s (.copy pbufAlloc) = some (s', o)) :
    ∃ done', Recorded s' (h.next s (.copy pbufAlloc) s' o) frames owned held done' := by
  obtain ⟨hring, hheld, harrived, hcopied, hhanded⟩ := hrec
  simp only [machine] at hstep
  cases hplace : s.place with
  | copy r =>
    simp only [hplace] at hstep
    unfold HeldAt at hheld
    rw [hplace] at hheld harrived hhanded
    cases hheld with
    | nothing hnone hnotified =>
      have hcopy : allocAndCopy pbufAlloc s.rx.dmaRxDscrTab ⟨0, none, none⟩ = .ok none := rfl
      rw [hcopy] at hstep
      cases hstep
      exact ⟨done, hring.goOn s.notified _, ⟨.nothing hnone hnotified, fun _ => rfl⟩, harrived,
        hcopied, hhanded⟩
    | @found last d hf hlast hd =>
      have hframe := hring.ahead
      rw [← List.append_assoc] at hframe
      have hbytes := (descsFrom_append hframe).2
      rw [← hd] at hbytes
      obtain ⟨p, hcopy, hdelivered⟩ := allocAndCopy_eq pbufAlloc hbytes hf hlast
      rw [hcopy] at hstep
      cases hstep
      have hsome : some d = none → p = none := fun hnone => absurd hnone (Option.some_ne_none d)
      refine ⟨done ++ [held], hring.goOn s.notified _, ⟨.found hf hlast hd, hsome⟩, ?_, ?_, ?_⟩
      · show h.arrived = _
        simpa [found] using harrived
      · exact List.rel_append hcopied (.cons hdelivered .nil)
      · show (h.copied ++ [(pbufAlloc, p)]).filterMap Prod.snd = _
        rw [List.filterMap_append, hhanded]
        cases p with
        | none => exact List.append_nil _
        | some p => exact congrArg (· ++ [p]) (List.append_nil h.handed)
  | waiting | scan | release | input => simp [hplace] at hstep

/-- The descriptors of the frame are given back. -/
theorem Recorded.release (hrec : Recorded s h frames owned held done)
    (hstep : machine.step s .release = some (s', o)) :
    ∃ owned', Recorded s' (h.next s .release s' o) frames owned' [] done := by
  obtain ⟨hring, hheld, harrived, hcopied, hhanded⟩ := hrec
  have hnext : h.next s .release s' o = h := rfl
  rw [hnext]
  simp only [machine] at hstep
  cases hplace : s.place with
  | release r p =>
    simp only [hplace] at hstep
    unfold HeldAt at hheld
    rw [hplace] at hheld harrived hhanded
    obtain ⟨rx, owned', released, resumed, hrelease, hring'⟩ := hring.release hheld.1 p
    rw [hrelease] at hstep
    cases hstep
    refine ⟨owned', hring' _, ?_, ?_, hcopied, ?_⟩
    all_goals cases p
    · rfl
    · rfl
    · exact harrived
    · exact harrived
    · exact hhanded
    · exact hhanded
  | waiting | scan | copy | input => simp [hplace] at hstep

/-- The chain is handed on. -/
theorem Recorded.input (hrec : Recorded s h frames owned held done) {ok : Bool}
    (hstep : machine.step s (.input ok) = some (s', o)) :
    Recorded s' (h.next s (.input ok) s' o) frames owned held done := by
  obtain ⟨hring, hheld, harrived, hcopied, hhanded⟩ := hrec
  simp only [machine] at hstep
  cases hplace : s.place with
  | input p =>
    simp only [hplace] at hstep
    unfold HeldAt at hheld
    rw [hplace] at hheld harrived hhanded
    cases hstep
    have hnext : ∀ place, (h.next s (.input ok) { s with place := place } []) =
        { h with handed := h.handed ++ [p] } := by
      intro place
      simp only [History.next, hplace]
    rw [hnext]
    cases ok with
    | true => exact ⟨hring.goOn s.notified .scan, hheld, harrived, hcopied, by
        rw [hhanded]; simp [inHand]⟩
    | false => exact ⟨hring.goOn s.notified .waiting, hheld, harrived, hcopied, by
        rw [hhanded]; simp [inHand]⟩
  | waiting | scan | copy | release => simp [hplace] at hstep

/-! ## Whole runs -/

/-- A ring and a history that belong together. -/
def IsRecorded (q : EthernetTask × History) : Prop :=
  ∃ frames owned held done, Recorded q.1 q.2 frames owned held done

/-- Nothing has arrived at the start. -/
theorem isRecorded_started (rxBuff : Fin ethRxBufNb → Vector UInt8 ethRxBufSize) :
    IsRecorded (started rxBuff, .start) := by
  refine ⟨[], ringAhead (started rxBuff).rx, [], [], ⟨?_, List.forall_mem_nil _, ?_,
    List.forall_mem_nil _, rfl, rfl⟩, rfl, rfl, .nil, rfl⟩
  · rw [List.flatten_nil, List.nil_append, List.append_nil]
  · intro d hd
    obtain ⟨i, -, rfl⟩ := List.mem_map.mp hd
    show (ethDMARxDescOWN &&& ethDMARxDescOWN != 0) = true
    decide

/-- Every step keeps the record. -/
theorem IsRecorded.step {q q' : EthernetTask × History} {e : Event} (hq : IsRecorded q)
    (hstep : (machine.observe History.next).step q e = some (q', o)) : IsRecorded q' := by
  obtain ⟨frames, owned, held, done, hrec⟩ := hq
  obtain ⟨hstep, hnext⟩ := Machine.observe_step_eq_some.mp hstep
  rw [IsRecorded, hnext]
  cases e with
  | arrival frame =>
    obtain ⟨frames', owned', hrec'⟩ := hrec.arrival hstep
    exact ⟨frames', owned', held, done, hrec'⟩
  | take => exact ⟨frames, owned, held, done, hrec.take hstep⟩
  | scan =>
    obtain ⟨frames', held', hrec'⟩ := hrec.scan hstep
    exact ⟨frames', owned, held', done, hrec'⟩
  | copy pbufAlloc =>
    obtain ⟨done', hrec'⟩ := hrec.copy hstep
    exact ⟨frames, owned, held, done', hrec'⟩
  | release =>
    obtain ⟨owned', hrec'⟩ := hrec.release hstep
    exact ⟨frames, owned', [], done, hrec'⟩
  | input ok => exact ⟨frames, owned, held, done, hrec.input hstep⟩

/-- **Frames are delivered in order.**  After every sequence of arrivals and steps of the task,
and for all results of `pbuf_alloc` and of the input function: the frames that have been found
are the first of those that have arrived, each found once and delivered in the chain that
`pbuf_alloc` has returned for it, if it has; and the input function has been called with these
chains, in order and each once, but for the last one while it is still in hand.
SOURCE: ethernetif.c:245-363, stm32f4xx_eth.c:1156-1222 -/
theorem frames_delivered_in_order (rxBuff : Fin ethRxBufNb → Vector UInt8 ethRxBufSize)
    {events : List Event} {s : EthernetTask} {h : History} {os : List (List Unit)}
    (hrun : (machine.observe History.next).exec (started rxBuff, .start) events =
      some ((s, h), os)) :
    List.Forall₂ (fun f c => Delivered c.1 f c.2) (h.arrived.take h.copied.length) h.copied ∧
      h.copied.filterMap Prod.snd = h.handed ++ inHand s.place := by
  obtain ⟨frames, owned, held, done, hrec⟩ : IsRecorded (s, h) :=
    Machine.invariant_of_exec IsRecorded (fun _ _ _ _ hq hstep => hq.step hstep)
      (isRecorded_started rxBuff) hrun
  refine ⟨?_, hrec.handed_eq⟩
  rw [hrec.arrived_eq, ← hrec.delivered.length_eq, List.append_assoc, List.take_left]
  exact hrec.delivered

/-- What the scan returns for the frame in the first descriptor. -/
def shortFrameFound : FrameType :=
  ⟨(blankDesc 0x00400300).fl - 4, some firstDesc, some firstDesc⟩

/-- The frame has arrived and been found. -/
def shortFrameScanned : EthernetTask where
  rx := {
    dmaRxDscrTab := store shortFrame.segments firstDesc
      (started fun _ => Vector.replicate ethRxBufSize 0).rx.dmaRxDscrTab
    dmaRxDescToGet := ringNext firstDesc
    fsRxDesc := some firstDesc
    lsRxDesc := some firstDesc
    segCount := 1
    rbus := false }
  dmaRxDesc := ringNext firstDesc
  notified := 0
  place := .copy shortFrameFound

/-- It is copied into a chain of one pbuf. -/
theorem step_copy_shortFrame :
    ∃ chain, machine.step shortFrameScanned (.copy onePbuf) =
      some ({ shortFrameScanned with place := .release shortFrameFound (some chain) }, []) := by
  have hdescs : descsFrom shortFrameScanned.rx.dmaRxDscrTab firstDesc
      shortFrame.segments.length = shortFrame.segments := rfl
  obtain ⟨p, hcopy, hdelivered⟩ := allocAndCopy_eq onePbuf hdescs shortFrame.isFrame rfl
  obtain ⟨chain, rfl, -⟩ := hdelivered
  have hfound : allocAndCopy onePbuf shortFrameScanned.rx.dmaRxDscrTab shortFrameFound =
      .ok (some chain) := hcopy
  refine ⟨chain, ?_⟩
  show afterCall (allocAndCopy onePbuf shortFrameScanned.rx.dmaRxDscrTab shortFrameFound) _ = _
  rw [hfound]
  rfl

/-- A frame arrives and is found, copied and handed on. -/
theorem frames_delivered_in_order_shortFrame :
    ∃ s h os, (machine.observe History.next).exec
        (started fun _ => Vector.replicate ethRxBufSize 0, .start)
        [.arrival shortFrame, .take, .scan, .copy onePbuf, .release, .input true] =
          some ((s, h), os) ∧
      (h.copied.length = 1 ∧ h.handed.length = 1) ∧
      List.Forall₂ (fun f c => Delivered c.1 f c.2) (h.arrived.take h.copied.length) h.copied ∧
      h.copied.filterMap Prod.snd = h.handed ++ inHand s.place := by
  obtain ⟨chain, hcopy⟩ := step_copy_shortFrame
  have hscanned : (machine.observe History.next).exec
      (started fun _ => Vector.replicate ethRxBufSize 0, .start)
      [.arrival shortFrame, .take, .scan] =
        some ((shortFrameScanned, ⟨[shortFrame.segments], [], []⟩), [[], [], []]) := rfl
  have hcopied := Machine.exec_concat hscanned
    (Machine.observe_step_eq_some (q := (_, _)).mpr ⟨hcopy, rfl⟩)
  have hreleased := Machine.exec_concat (a := .release) hcopied
    (Machine.observe_step_eq_some (q := (_, _)).mpr ⟨rfl, rfl⟩)
  have hrun := Machine.exec_concat (a := .input true) hreleased
    (Machine.observe_step_eq_some (q := (_, _)).mpr ⟨rfl, rfl⟩)
  exact ⟨_, _, _, hrun, ⟨rfl, rfl⟩, frames_delivered_in_order _ hrun⟩

end EthernetDelivery

end Resmod.Analysis
