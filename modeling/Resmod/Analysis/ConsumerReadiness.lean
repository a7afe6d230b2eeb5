import Resmod.Model.Consumer
import Resmod.Analysis.Rechunking

/-!
# The consumer is ready for every packet

The flow controller asks after every `Transmit` and never before one, so that the consumer
has to be ready whenever a call begins.  `SentReady` is the invariant for a part of a call:
what it sent found the consumer ready, and if it comes back the consumer is ready again.

`push_eq` connects the calls to the flow controller of `FlowController`: as long as its
copies stay in the storage, it sends the same packets and is left in the same state.
-/

set_option autoImplicit false

namespace Resmod.Analysis

open Resmod.Library Resmod.Model Resmod.Model.Consumer

variable {σ ε : Type*}

/-- What the flow controller relies on: only `Transmit` can end readiness, and
`BlockTillReady` with the default timeout comes back only when the consumer is ready. -/
structure WaitsReady (c : Consumer σ ε) : Prop where
  isReady : ∀ s, c.Ready s → c.Ready (c.IsReady s).2
  elapse : ∀ e s, c.Ready s → c.Ready (c.elapse e s)
  blockTillReady : ∀ s s', c.BlockTillReady defaultTimeout s = some s' → c.Ready s'

/-- Everything sent found the consumer ready, and it is ready again on return. -/
structure SentReady {α : Type*} (c : Consumer σ ε) (state : α → σ) (r : Outgoing α) :
    Prop where
  sent : ∀ t ∈ r.1, t.ready = true
  after : ∀ a, r.2 = some a → c.Ready (state a)

variable {c : Consumer σ ε}

/-- A computation that transmits nothing. -/
theorem sentReady_silent {α : Type*} {state : α → σ} {a : α} (h : c.Ready (state a)) :
    SentReady c state (.silent a) := by
  refine ⟨List.forall_mem_nil _, ?_⟩
  intro b hb
  obtain rfl := Option.some.inj hb
  exact h

/-- A wait that does not end. -/
theorem sentReady_stuck {α : Type*} (state : α → σ) : SentReady c state .stuck :=
  ⟨List.forall_mem_nil _, fun _ h => Option.noConfusion rfl (heq_of_eq h)⟩

/-- Two parts of a call, the second begun with a ready consumer. -/
theorem SentReady.andThen {α β : Type*} {state : α → σ} {state' : β → σ} {r : Outgoing α}
    {f : α → Outgoing β} (h : SentReady c state r)
    (h' : ∀ a, c.Ready (state a) → SentReady c state' (f a)) :
    SentReady c state' (r.andThen f) := by
  unfold Outgoing.andThen
  cases hr : r.2 with
  | none => exact ⟨h.sent, fun _ hb => Option.noConfusion rfl (heq_of_eq hb)⟩
  | some a =>
    have hrest := h' a (h.after a hr)
    refine ⟨?_, hrest.after⟩
    intro t ht
    rcases List.mem_append.mp ht with ht | ht
    · exact h.sent t ht
    · exact hrest.sent t ht

/-! ## The parts of a push -/

/-- The consumer is ready when the wait has ended. -/
theorem ready_of_waitIfRequired (h : WaitsReady c) {s s' : σ}
    (hwait : waitIfRequired c s = some s') : c.Ready s' := by
  unfold waitIfRequired at hwait
  by_cases hready : (c.IsReady s).1 = false
  · rw [if_pos hready] at hwait
    exact h.blockTillReady _ _ hwait
  · rw [if_neg hready] at hwait
    obtain rfl := Option.some.inj hwait
    exact h.isReady s (eq_true_of_ne_false hready)

/-- A packet is sent to a ready consumer, and waited for. -/
theorem sentReady_send (h : WaitsReady c) (b : List UInt8) {s : σ} (hs : c.Ready s) :
    SentReady c id (send c b s) := by
  refine ⟨?_, fun s' hs' => ready_of_waitIfRequired h hs'⟩
  intro t ht
  obtain rfl := List.mem_singleton.mp ht
  exact hs

/-- The whole packets of a buffer. -/
theorem sentReady_transmitWhole (h : WaitsReady c) (iter : ℕ) (pb : Bytes) {s : σ}
    (hs : c.Ready s) : SentReady c Prod.snd (transmitWhole c iter pb s) := by
  induction iter generalizing pb s with
  | zero => exact sentReady_silent hs
  | succ iter ih =>
    unfold transmitWhole
    exact (sentReady_send h _ hs).andThen fun s' hs' => ih _ hs'

/-- The packet that is filled up with bytes left over. -/
theorem sentReady_fillExtra (h : WaitsReady c) (wild fc : FlowController c.MaxPacketSize)
    (pb : Bytes) (size : UInt32) {s : σ} (hs : c.Ready s) :
    SentReady c (fun r => r.2.2) (fillExtra c wild fc pb size s) := by
  unfold fillExtra
  by_cases hextra : 0 < fc.extrasize
  · rw [if_pos hextra]
    dsimp only
    split
    · exact (sentReady_send h _ hs).andThen fun s' hs' => sentReady_silent hs'
    · exact sentReady_silent hs
  · rw [if_neg hextra]
    exact sentReady_silent hs

/-- A call of `Push`. -/
theorem sentReady_push (h : WaitsReady c) (wild fc : FlowController c.MaxPacketSize)
    (b : Bytes) (size : UInt32) {s : σ} (hs : c.Ready s) :
    SentReady c Prod.snd (Consumer.push c wild fc b size s) := by
  unfold Consumer.push
  apply (sentReady_fillExtra h wild fc b size hs).andThen
  intro r hr
  by_cases hzero : c.MaxPacketSize = 0
  · simp only [if_pos hzero]
    exact sentReady_stuck _
  · simp only [if_neg hzero]
    exact (sentReady_transmitWhole h _ b hr).andThen fun q hq => sentReady_silent hq

/-! ## The same packets -/

/-- The bytes of the transmissions of a call. -/
def sent {α : Type*} (r : Outgoing α) : List (List UInt8) := r.1.map Transmission.b

/-- What comes back behind two parts came back behind both. -/
theorem andThen_eq_some {α β : Type*} {r : Outgoing α} {f : α → Outgoing β} {b : β}
    (h : (r.andThen f).2 = some b) :
    ∃ a, r.2 = some a ∧ (f a).2 = some b ∧ sent (r.andThen f) = sent r ++ sent (f a) := by
  unfold Outgoing.andThen at h ⊢
  cases hr : r.2 with
  | none =>
    rw [hr] at h
    exact Option.noConfusion rfl (heq_of_eq h)
  | some a =>
    rw [hr] at h
    exact ⟨a, rfl, h, List.map_append⟩

/-- Where the waits end, the loop transmits what it does without them. -/
theorem transmitWhole_eq_of_returns (ready : ℕ → Bool) (iter i : ℕ) (pb : Bytes) (s : σ)
    {r : Bytes × σ} (h : (transmitWhole c iter pb s).2 = some r) :
    r.1 = (FlowController.transmitWhole c.MaxPacketSize ready iter i pb).2 ∧
      sent (transmitWhole c iter pb s) =
        packets (FlowController.transmitWhole c.MaxPacketSize ready iter i pb).1 := by
  induction iter generalizing i pb s with
  | zero =>
    obtain rfl := Option.some.inj h
    exact ⟨rfl, rfl⟩
  | succ iter ih =>
    obtain ⟨s', -, hrest, hsent⟩ := andThen_eq_some h
    obtain ⟨hpb, hpackets⟩ := ih (i + 1) _ s' hrest
    refine ⟨hpb, ?_⟩
    unfold transmitWhole FlowController.transmitWhole
    rw [hsent, hpackets, packets_transmit_cons, packets_waitIfRequired_append]
    rfl

/-- The count raised by `srequired`. -/
def raise {maxpacket : UInt32} (fc : FlowController maxpacket) (srequired : UInt32) :
    FlowController maxpacket := { fc with extrasize := fc.extrasize + srequired }

/-- A copy that does not fail, as the code makes it. -/
theorem filled_of_copyTo {wild fc raised : FlowController c.MaxPacketSize} {pb : Bytes}
    {srequired : UInt32}
    (h : (raise fc srequired).copyTo (raise fc srequired).extrasize.toNat
      (pb.read srequired.toNat) = .ok raised) :
    filled c wild fc pb srequired = raised := by
  unfold filled
  exact (congrArg (copyOr c wild) h).trans rfl

/-- Filling up that succeeds: the copy stayed in the storage, and a full packet is sent. -/
theorem fillExtra_eq_ok {maxpacket : UInt32} {ready : Bool} {fc fc' : FlowController maxpacket}
    {b : Bytes} {size left : UInt32} {o : List ConsumerCall} (hextra : 0 < fc.extrasize)
    (h : FlowController.fillExtra ready fc b size = .ok (fc', left, o)) :
    (raise fc (min size (maxpacket - fc.extrasize))).copyTo
        (raise fc (min size (maxpacket - fc.extrasize))).extrasize.toNat
        (b.read (min size (maxpacket - fc.extrasize)).toNat) = .ok fc' ∧
      left = size - min size (maxpacket - fc.extrasize) ∧
      packets o = if fc'.extrasize = maxpacket then [fc'.extrastorage] else [] := by
  unfold FlowController.fillExtra at h
  rw [if_pos hextra] at h
  obtain ⟨raised, hcopy, hrest⟩ := Traced.bind_eq_ok.mp h
  by_cases hfull : raised.extrasize = maxpacket
  · rw [if_pos hfull] at hrest
    cases hrest
    refine ⟨hcopy, rfl, ?_⟩
    rw [if_pos hfull, packets_transmit_cons, ← List.append_nil (FlowController.waitIfRequired _),
      packets_waitIfRequired_append, packets_nil]
  · rw [if_neg hfull] at hrest
    cases hrest
    refine ⟨hcopy, rfl, ?_⟩
    rw [if_neg hfull, packets_nil]

/-- Where the wait ends, the packet is the one without it. -/
theorem fillExtra_eq_of_returns {ready : Bool} {wild fc fc' : FlowController c.MaxPacketSize}
    {b : Bytes} {size left : UInt32} {o : List ConsumerCall} {s : σ}
    {r : FlowController c.MaxPacketSize × UInt32 × σ}
    (hfill : FlowController.fillExtra ready fc b size = .ok (fc', left, o))
    (h : (fillExtra c wild fc b size s).2 = some r) :
    r.1 = fc' ∧ r.2.1 = left ∧ sent (fillExtra c wild fc b size s) = packets o := by
  unfold fillExtra at h ⊢
  by_cases hextra : 0 < fc.extrasize
  · obtain ⟨hcopy, rfl, hpackets⟩ := fillExtra_eq_ok hextra hfill
    rw [if_pos hextra] at h ⊢
    dsimp only at h ⊢
    rw [filled_of_copyTo hcopy] at h ⊢
    rw [hpackets]
    by_cases hfull : fc'.extrasize = c.MaxPacketSize
    · rw [if_pos hfull] at h
      rw [if_pos hfull, if_pos hfull]
      obtain ⟨s', -, hrest, hsent⟩ := andThen_eq_some h
      obtain rfl := Option.some.inj hrest
      exact ⟨rfl, rfl, hsent⟩
    · rw [if_neg hfull] at h
      rw [if_neg hfull, if_neg hfull]
      obtain rfl := Option.some.inj h
      exact ⟨rfl, rfl, rfl⟩
  · unfold FlowController.fillExtra at hfill
    rw [if_neg hextra] at hfill h ⊢
    obtain rfl := Option.some.inj h
    cases hfill
    exact ⟨rfl, rfl, rfl⟩

/-- The bytes left over are kept by a copy that does not fail. -/
theorem keepExtra_of_copyTo {wild fc fc' : FlowController c.MaxPacketSize} {pb : Bytes}
    {extra : UInt32} (hextra : 0 < extra)
    (h : FlowController.copyTo { fc with extrasize := extra } 0 (pb.read extra.toNat) =
      .ok fc') : keepExtra c wild fc pb extra = fc' := by
  unfold keepExtra
  rw [if_pos hextra]
  exact (congrArg (copyOr c wild) h).trans rfl

/-- **The same flow controller.**  A call whose copies stay in the storage, and which comes
back, leaves the state that `FlowController.push` leaves and sends its packets. -/
theorem push_eq_of_returns {ready : ℕ → Bool} {wild fc fc' : FlowController c.MaxPacketSize}
    {b : Bytes} {size : UInt32} {o : List ConsumerCall} {s : σ}
    {r : FlowController c.MaxPacketSize × σ}
    (hpush : FlowController.push ready fc b size = .ok (fc', o))
    (h : (Consumer.push c wild fc b size s).2 = some r) :
    r.1 = fc' ∧ sent (Consumer.push c wild fc b size s) = packets o := by
  unfold FlowController.push at hpush
  obtain ⟨⟨fc₁, left, o₁⟩, hfill, hrest⟩ := Traced.bind_eq_ok.mp hpush
  obtain ⟨⟨fc₂, left', s'⟩, hfill', hback, hsent⟩ := andThen_eq_some h
  obtain ⟨rfl, rfl, hsent₁⟩ := fillExtra_eq_of_returns hfill hfill'
  dsimp only at hrest hback hsent
  by_cases hzero : c.MaxPacketSize = 0
  · rw [if_pos hzero] at hrest
    cases hrest
  · rw [if_neg hzero] at hrest hback hsent
    obtain ⟨⟨pb, s''⟩, hwhole, hend, hsent'⟩ := andThen_eq_some hback
    obtain ⟨rfl, hpackets⟩ := transmitWhole_eq_of_returns ready _ 0 b s' hwhole
    obtain rfl := Option.some.inj hend
    have hall : sent (Consumer.push c wild fc b size s) =
        packets o₁ ++ packets (FlowController.transmitWhole c.MaxPacketSize ready
          (left' / c.MaxPacketSize).toNat 0 b).1 := by
      rw [hsent₁, hsent', hpackets] at hsent
      exact hsent.trans (congrArg _ (List.append_nil _))
    by_cases hextra : 0 < left' % c.MaxPacketSize
    · rw [if_pos hextra] at hrest
      obtain ⟨kept, hcopy, hpure⟩ := Traced.bind_eq_ok.mp hrest
      cases hpure
      exact ⟨keepExtra_of_copyTo hextra hcopy, hall.trans List.filterMap_append.symm⟩
    · rw [if_neg hextra] at hrest
      cases hrest
      exact ⟨if_neg hextra, hall.trans List.filterMap_append.symm⟩

/-! ## Every run -/

/-- Between the calls, and wherever the last one came back, the consumer is ready. -/
def ReadyBetween (c : Consumer σ ε) (p : Option (FlowController c.MaxPacketSize × σ)) : Prop :=
  ∀ q, p = some q → c.Ready q.2

/-- Between calls the consumer is ready, and every packet of a call finds it so. -/
theorem ReadyBetween.step (h : WaitsReady c)
    {p p' : Option (FlowController c.MaxPacketSize × σ)} {a : Call c} {o : List Transmission}
    (hp : ReadyBetween c p) (hstep : (machine c).step p a = some (p', o)) :
    ReadyBetween c p' ∧ ∀ t ∈ o, t.ready = true := by
  cases p with
  | none => exact Option.noConfusion rfl (heq_of_eq hstep)
  | some q =>
    have hq : c.Ready q.2 := hp q rfl
    cases a with
    | push wild b size =>
      obtain ⟨rfl, rfl⟩ := Prod.mk.inj (Option.some.inj hstep)
      have hpush := sentReady_push h wild q.1 b size hq
      exact ⟨hpush.after, hpush.sent⟩
    | purge =>
      obtain ⟨rfl, rfl⟩ := Prod.mk.inj (Option.some.inj hstep)
      refine ⟨?_, List.forall_mem_nil _⟩
      intro r hr
      obtain rfl := Option.some.inj hr
      exact hq
    | elapse e =>
      obtain ⟨rfl, rfl⟩ := Prod.mk.inj (Option.some.inj hstep)
      refine ⟨?_, List.forall_mem_nil _⟩
      intro r hr
      obtain rfl := Option.some.inj hr
      exact h.elapse e q.2 hq

/-- **The consumer is never overrun.**  From a flow controller as constructed on a consumer
that is ready, every `Transmit` of every sequence of calls finds the consumer ready.
SOURCE: lib/adara/flowcontroller.cc:39-76 -/
theorem every_transmit_ready (h : WaitsReady c) {s : σ} (hs : c.Ready s)
    (storage : List UInt8) (hstorage : storage.length = c.MaxPacketSize.toNat)
    (calls : List (Call c)) :
    (machine c).Always (fun _ _ _ o => ∀ t ∈ o, t.ready = true)
      (some (FlowController.construct storage hstorage, s)) calls := by
  apply Machine.always_of_step (ReadyBetween c)
  · intro p a p' o hp hstep
    exact hp.step h hstep
  · intro q hq
    obtain rfl := Option.some.inj hq
    exact hs

/-- A consumer that takes one packet of two bytes and is not ready until it is waited for;
its state is whether it is ready. -/
def onePacket : Consumer Bool Unit where
  MaxPacketSize := 2
  Transmit _ _ := false
  IsReady s := (s, s)
  BlockTillReady _ _ := some true
  elapse _ s := s

/-- Five bytes in two packets, with one byte left for the next call. -/
theorem every_transmit_ready_five :
    (machine onePacket).Always (fun _ _ _ o => ∀ t ∈ o, t.ready = true)
      (some (FlowController.construct [0, 0] rfl, true))
      [.push (FlowController.construct [0, 0] rfl) (Bytes.ofList [1, 2, 3, 4, 5]) 5,
        .elapse (), .purge] :=
  every_transmit_ready (c := onePacket)
    ⟨fun _ hs => hs, fun _ _ hs => hs, fun _ _ hs => (Option.some.inj hs).symm⟩
    (s := true) rfl [0, 0] rfl _

end Resmod.Analysis
