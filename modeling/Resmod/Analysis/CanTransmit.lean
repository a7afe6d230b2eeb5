import Resmod.Model.CanTransmit
import Resmod.Analysis.Fragmentation

/-!
# Every fragment is sent before the driver goes on

Whenever the driver goes on to its next fragment, or returns, exactly the fragments before
it are to have been sent, once each and in order.  It goes on as soon as mailbox 0 is not
pending, whichever mailbox `CAN_Transmit` has found and however the request has ended;
`sentWhenGoingOn_iff` says that the property is met by the runs in which that mailbox then has
the status `CAN_TxStatus_Ok`, and by no others.

`Sending` records which request is for which fragment.  The invariant is about the last
request alone: none was made, it is pending, or it has ended.
-/

set_option autoImplicit false

namespace Resmod.Analysis

open Resmod.Library Resmod.Model Resmod.Model.CanDriver Resmod.Model.CanTransmit

/-- What has become of the fragments of the call. -/
structure Sending where
  /-- The calls of `CAN_Transmit`. -/
  requests : ℕ
  /-- What the last of them has returned. -/
  mailbox : Option (Fin 3)
  /-- The fragment that the request in a mailbox is for. -/
  fragment : Fin 3 → Option ℕ
  /-- The fragments that were sent, with their numbers. -/
  sent : List (CanTxMsg × ℕ)

/-- Nothing has been requested. -/
def Sending.initial : Sending := ⟨0, none, fun _ => none, []⟩

/-- The history after some outputs of the driver and of the controller. -/
def Sending.after (h : Sending) : List Output → Sending
  | [] => h
  | .requested _ none :: _ => { h with requests := h.requests + 1, mailbox := none }
  | .requested _ (some m) :: _ =>
    { h with
      requests := h.requests + 1
      mailbox := some m
      fragment := Function.update h.fragment m (some h.requests) }
  | .ended m frame ok :: _ =>
    { h with
      fragment := Function.update h.fragment m none
      sent := h.sent ++
        match ok, h.fragment m with
        | true, some i => [(frame, i)]
        | _, _ => [] }

/-- The driver together with the history of its requests. -/
def transmitting (fullAssert : Bool) : Machine (CanTransmit × Sending) Event Output :=
  (machine fullAssert).observe fun h _ _ _ o => h.after o

/-- Where the driver goes on, the fragments before those that are left have been sent. -/
def SentWhenGoingOn (c : Call) (_ : CanTransmit × Sending) (_ : Event)
    (p' : CanTransmit × Sending) (_ : List Output) : Prop :=
  match p'.1.place with
  | .loop rest => p'.2.sent = c.frames.zipIdx.take (c.frames.length - rest.length)
  | .wait _ | .halted => True
  | .returned => p'.2.sent = c.frames.zipIdx

instance (c : Call) (p : CanTransmit × Sending) (a : Event) (p' : CanTransmit × Sending)
    (o : List Output) : Decidable (SentWhenGoingOn c p a p' o) := by
  unfold SentWhenGoingOn
  split <;> infer_instance

/-- When mailbox 0 is found not to be pending, the mailbox that `CAN_Transmit` has returned
has sent its frame. -/
def EndedOk (p : CanTransmit × Sending) : Event → Prop
  | .requestEnds _ _ => True
  | .driverStep =>
    match p.1.place with
    | .wait _ => p.1.waitedStatus ≠ .pending →
        ∃ m, p.2.mailbox = some m ∧ canTransmitStatus (p.1.mailboxes m) = .ok
    | _ => True

/-! ## The invariant -/

variable {frames : List CanTxMsg} {s : CanTransmit} {h : Sending} {k : ℕ} {tx : CanTxMsg}

/-- The last request, for fragment `k`. -/
inductive LastRequest (frames : List CanTxMsg) (k : ℕ) (tx : CanTxMsg) (s : CanTransmit)
    (h : Sending) : Prop
  | noMailBox (hmailbox : h.mailbox = none) (hfragment : h.fragment = fun _ => none)
      (hsent : h.sent = frames.zipIdx.take k)
  | pending (m : Fin 3) (hmailbox : h.mailbox = some m)
      (hbox : s.mailboxes m = ⟨tx, false, false, false⟩)
      (hfragment : h.fragment = Function.update (fun _ => none) m (some k))
      (hsent : h.sent = frames.zipIdx.take k)
  | ended (m : Fin 3) (ok : Bool) (hmailbox : h.mailbox = some m)
      (hbox : s.mailboxes m = ⟨tx, true, ok, true⟩) (hfragment : h.fragment = fun _ => none)
      (hsent : h.sent = frames.zipIdx.take (if ok then k + 1 else k))

/-- What was sent, at every place of the driver. -/
def TransmitInv (frames : List CanTxMsg) (s : CanTransmit) (h : Sending) : Prop :=
  match s.place with
  | .loop rest => rest = frames.drop h.requests ∧ h.requests ≤ frames.length ∧
      (h.fragment = fun _ => none) ∧ h.sent = frames.zipIdx.take h.requests
  | .wait rest => ∃ k tx, h.requests = k + 1 ∧ frames[k]? = some tx ∧
      rest = frames.drop (k + 1) ∧ LastRequest frames k tx s h
  | .returned => (h.fragment = fun _ => none) ∧ h.sent = frames.zipIdx
  | .halted => True

/-- The invariant when the loop is entered. -/
theorem transmitInv_called (mailboxes : MailBoxes) (c : Call) :
    TransmitInv c.frames (called mailboxes c) Sending.initial :=
  ⟨rfl, Nat.zero_le _, rfl, rfl⟩

/-- One fragment more or less makes a difference. -/
theorem zipIdx_take_ne (hk : frames[k]? = some tx) :
    frames.zipIdx.take k ≠ frames.zipIdx.take (k + 1) := by
  intro heq
  have hlt : k < frames.length := (List.getElem?_eq_some_iff.mp hk).1
  have hlen := congrArg List.length heq
  simp only [List.length_take, List.length_zipIdx] at hlen
  omega

/-- The fragment behind those that were sent. -/
theorem zipIdx_take_succ (hk : frames[k]? = some tx) :
    frames.zipIdx.take (k + 1) = frames.zipIdx.take k ++ [(tx, k)] := by
  rw [List.take_add_one, List.getElem?_zipIdx, hk]
  simp

/-! ## The steps -/

/-- The last request has been sent exactly when its mailbox has the status
`CAN_TxStatus_Ok`. -/
theorem LastRequest.sent_iff (hr : LastRequest frames k tx s h) (hk : frames[k]? = some tx) :
    h.sent = frames.zipIdx.take (k + 1) ↔
      ∃ m, h.mailbox = some m ∧ canTransmitStatus (s.mailboxes m) = .ok := by
  have hne := zipIdx_take_ne hk
  cases hr with
  | noMailBox hmailbox _ hsent => simp [hmailbox, hsent, hne]
  | pending m hmailbox hbox _ hsent => simp [hmailbox, hsent, hne, hbox, canTransmitStatus]
  | ended m ok hmailbox hbox _ hsent =>
    cases ok <;> simp [hmailbox, hsent, hne, hbox, canTransmitStatus]

/-- Nothing is on the way once it has been sent. -/
theorem LastRequest.fragment_of_sent (hr : LastRequest frames k tx s h)
    (hk : frames[k]? = some tx) (hsent : h.sent = frames.zipIdx.take (k + 1)) :
    h.fragment = fun _ => none := by
  cases hr with
  | noMailBox _ hfragment _ => exact hfragment
  | pending _ _ _ _ hbefore => exact absurd (hbefore.symm.trans hsent) (zipIdx_take_ne hk)
  | ended _ _ _ _ hfragment _ => exact hfragment

/-- `CAN_Transmit` for the next fragment. -/
theorem lastRequest_canTransmit {rest : List CanTxMsg} (hfragment : h.fragment = fun _ => none)
    (hsent : h.sent = frames.zipIdx.take h.requests) :
    LastRequest frames h.requests tx ⟨(canTransmit s.mailboxes tx).1, .wait rest⟩
      (h.after [.requested tx (canTransmit s.mailboxes tx).2]) := by
  unfold canTransmit
  cases emptyMailBox s.mailboxes with
  | none => exact .noMailBox rfl hfragment hsent
  | some m =>
    apply LastRequest.pending m rfl
    · exact Function.update_self m _ s.mailboxes
    · show Function.update h.fragment m (some h.requests) = _
      rw [hfragment]
    · exact hsent

/-- A request that is not for a fragment of the call may end at any time. -/
theorem Sending.after_ended_of_none {m : Fin 3} (hm : h.fragment m = none) (frame : CanTxMsg)
    (ok : Bool) : h.after [.ended m frame ok] = h := by
  have hfragment : Function.update h.fragment m none = h.fragment := by
    rw [← hm, Function.update_eq_self]
  cases ok <;> simp [Sending.after, hm, hfragment]

/-- The end of a request while the driver waits. -/
theorem LastRequest.requestEnds (hr : LastRequest frames k tx s h) (hk : frames[k]? = some tx)
    {m : Fin 3} (hm : (s.mailboxes m).tme = false) (ok : Bool) :
    LastRequest frames k tx
      { s with mailboxes := Function.update s.mailboxes m ((s.mailboxes m).ended ok) }
      (h.after [.ended m (s.mailboxes m).frame ok]) := by
  cases hr with
  | noMailBox hmailbox hfragment hsent =>
    rw [Sending.after_ended_of_none (by rw [hfragment])]
    exact .noMailBox hmailbox hfragment hsent
  | pending m' hmailbox hbox hfragment hsent =>
    by_cases hmm : m = m'
    · subst hmm
      have hown : h.fragment m = some k := by rw [hfragment, Function.update_self]
      refine .ended m ok hmailbox ?_ ?_ ?_
      · simp [hbox, TxMailBox.ended]
      · show Function.update h.fragment m none = _
        rw [hfragment, Function.update_idem, Function.update_eq_self_iff]
      · cases ok with
        | false => simpa [Sending.after, hown] using hsent
        | true => simp [Sending.after, hown, hsent, hbox, zipIdx_take_succ hk]
    · rw [Sending.after_ended_of_none (by rw [hfragment, Function.update_of_ne hmm])]
      apply LastRequest.pending m' hmailbox _ hfragment hsent
      exact (Function.update_of_ne (Ne.symm hmm) _ _).trans hbox
  | ended m' ok' hmailbox hbox hfragment hsent =>
    have hmm : m' ≠ m := by
      rintro rfl
      simp [hbox] at hm
    rw [Sending.after_ended_of_none (by rw [hfragment])]
    apply LastRequest.ended m' ok' hmailbox _ hfragment hsent
    exact (Function.update_of_ne hmm _ _).trans hbox

/-- The step of the driver: it goes on as it should exactly when the mailbox of the last
request has the status `CAN_TxStatus_Ok`. -/
theorem TransmitInv.driverStep {c : Call} (hI : TransmitInv c.frames s h) {fullAssert : Bool}
    {s' : CanTransmit} {o : List Output} (hs : s.driverStep fullAssert = some (s', o)) :
    (SentWhenGoingOn c (s, h) .driverStep (s', h.after o) o ↔ EndedOk (s, h) .driverStep) ∧
      (EndedOk (s, h) .driverStep → TransmitInv c.frames s' (h.after o)) := by
  unfold CanTransmit.driverStep at hs
  unfold TransmitInv at hI
  cases hplace : s.place with
  | loop rest =>
    rw [hplace] at hs hI
    obtain ⟨hrest, hle, hfragment, hsent⟩ := hI
    have hok : EndedOk (s, h) .driverStep := by simp [EndedOk, hplace]
    cases rest with
    | nil =>
      cases hs
      have hall : h.sent = c.frames.zipIdx := by
        have hlen := List.drop_eq_nil_iff.mp hrest.symm
        rw [hsent, List.take_of_length_le (by simpa using hlen)]
      exact ⟨iff_of_true hall hok, fun _ => ⟨hfragment, hall⟩⟩
    | cons tx rest =>
      dsimp only at hs
      split at hs
      · cases hs
        exact ⟨iff_of_true trivial hok, fun _ => trivial⟩
      cases hs
      have hk : c.frames[h.requests]? = some tx := by
        rw [← List.head?_drop, ← hrest]
        rfl
      have hnext : rest = c.frames.drop (h.requests + 1) := by
        rw [← List.tail_drop, ← hrest]
        rfl
      refine ⟨iff_of_true trivial hok, fun _ => ⟨h.requests, tx, ?_, hk, hnext, ?_⟩⟩
      · cases (canTransmit s.mailboxes tx).2 <;> rfl
      · exact lastRequest_canTransmit hfragment hsent
  | wait rest =>
    rw [hplace] at hs hI
    obtain ⟨k, tx, hrequests, hk, hrest, hlast⟩ := hI
    by_cases hpending : s.waitedStatus = .pending
    · simp only [hpending, if_true] at hs
      cases hs
      have hok : EndedOk (s, h) .driverStep := by simp [EndedOk, hplace, hpending]
      have hgo : SentWhenGoingOn c (s, h) .driverStep (s, h.after []) [] := by
        simp [SentWhenGoingOn, hplace]
      refine ⟨iff_of_true hgo hok, fun _ => ?_⟩
      unfold TransmitInv
      rw [hplace]
      exact ⟨k, tx, hrequests, hk, hrest, hlast⟩
    · simp only [hpending, if_false] at hs
      cases hs
      have hlt : k < c.frames.length := (List.getElem?_eq_some_iff.mp hk).1
      have hleft : c.frames.length - rest.length = k + 1 := by
        rw [hrest, List.length_drop]
        omega
      have hok : EndedOk (s, h) .driverStep ↔ h.sent = c.frames.zipIdx.take (k + 1) := by
        rw [hlast.sent_iff hk]
        simp [EndedOk, hplace, hpending]
      rw [hok]
      refine ⟨?_, fun hsent => ⟨?_, ?_, hlast.fragment_of_sent hk hsent, ?_⟩⟩
      · show h.sent = c.frames.zipIdx.take (c.frames.length - rest.length) ↔ _
        rw [hleft]
      · rw [hrest]
        exact congrArg c.frames.drop hrequests.symm
      · exact hrequests.le.trans hlt
      · show h.sent = c.frames.zipIdx.take h.requests
        rw [hsent, hrequests]
  | returned => simp [hplace] at hs
  | halted => simp [hplace] at hs

/-- The end of a request. -/
theorem TransmitInv.requestEnds {c : Call} (hI : TransmitInv c.frames s h) {m : Fin 3}
    (hm : (s.mailboxes m).tme = false) (ok : Bool) :
    TransmitInv c.frames
      { s with mailboxes := Function.update s.mailboxes m ((s.mailboxes m).ended ok) }
      (h.after [.ended m (s.mailboxes m).frame ok]) := by
  unfold TransmitInv at hI ⊢
  cases hplace : s.place with
  | loop rest =>
    rw [hplace] at hI
    rw [Sending.after_ended_of_none (by rw [hI.2.2.1])]
    exact hI
  | wait rest =>
    rw [hplace] at hI
    obtain ⟨k, tx, hrequests, hk, hrest, hlast⟩ := hI
    exact ⟨k, tx, hrequests, hk, hrest, hplace ▸ hlast.requestEnds hk hm ok⟩
  | returned =>
    rw [hplace] at hI
    rw [Sending.after_ended_of_none (by rw [hI.1])]
    exact hI
  | halted => trivial

/-- In the states of the invariant the fragments have been sent as they should. -/
theorem TransmitInv.sentWhenGoingOn {c : Call} (hI : TransmitInv c.frames s h)
    (p : CanTransmit × Sending) (a : Event) (o : List Output) :
    SentWhenGoingOn c p a (s, h) o := by
  unfold TransmitInv at hI
  unfold SentWhenGoingOn
  cases hplace : s.place with
  | loop rest =>
    rw [hplace] at hI
    obtain ⟨hrest, hle, -, hsent⟩ := hI
    show h.sent = c.frames.zipIdx.take (c.frames.length - rest.length)
    rw [hsent, hrest, List.length_drop, Nat.sub_sub_self hle]
  | wait rest => trivial
  | returned =>
    rw [hplace] at hI
    exact hI.2
  | halted => trivial

/-! ## Runs -/

/-- The frames of a call are the fragments of its payload. -/
theorem fragments_call (c : Call) : Fragments c.id c.payload c.frames := by
  cases c with
  | message pl hlen =>
    have hsize : pl.payload.length.toUInt32.toNat = pl.payload.length :=
      UInt32.toNat_ofNat_of_lt hlen
    show Fragments pl.id pl.payload (waitForTransmission .unchecked pl).value
    rw [waitForTransmission_eq, value_unchecked, hsize, Bytes.read_ofList,
      UInt32.toUInt32_toUInt64]
    exact fragments_pieces pl.id pl.payload
  | buffer id buf size =>
    show Fragments id.toUInt32 (buf.read size.toNat)
      (waitForTransmissionBuffer .unchecked id buf size).value
    rw [value_unchecked]
    exact fragments_pieces id.toUInt32 (buf.read size.toNat)

/-- **When a transmission that returns has been sent.**  The frames of a call are the
fragments of its payload.  In every run, with parameter checks or without and from mailboxes
in any state, the driver goes on and returns only behind fragments that were sent, once each
and in order, if and only if the mailbox of its last request has the status `CAN_TxStatus_Ok`
whenever its wait for mailbox 0 ends.
SOURCE: candriver.cc:107-151, stm32f4xx_can.c:576-694 -/
theorem sentWhenGoingOn_iff (fullAssert : Bool) (c : Call) (mailboxes : MailBoxes)
    (events : List Event) :
    Fragments c.id c.payload c.frames ∧
      ((transmitting fullAssert).Always (SentWhenGoingOn c)
          (called mailboxes c, Sending.initial) events ↔
        (transmitting fullAssert).Always (fun p a _ _ => EndedOk p a)
          (called mailboxes c, Sending.initial) events) := by
  refine ⟨fragments_call c, ?_⟩
  apply Machine.always_congr (fun p => TransmitInv c.frames p.1 p.2) _
    (transmitInv_called mailboxes c)
  intro p a p' o hI hs
  obtain ⟨hs, hh⟩ := Machine.observe_step_eq_some.mp hs
  obtain ⟨s', h'⟩ := p'
  cases hh
  cases a with
  | driverStep => exact hI.driverStep hs
  | requestEnds m ok =>
    simp only [machine, Option.ite_none_left_eq_some] at hs
    obtain ⟨hm, hs⟩ := hs
    cases hs
    have hI' := hI.requestEnds (by simpa using hm) ok
    exact ⟨iff_of_true (hI'.sentWhenGoingOn _ _ _) trivial, fun _ => hI'⟩

/-- The request for the second of three fragments fails: the driver returns with the first and
the last one sent.  Mailbox 0 is pending from before: the fragment goes to mailbox 1, and the
driver returns when the request in mailbox 0 has ended.  All mailboxes are pending: the only
fragment is dropped. -/
theorem not_sentWhenGoingOn_failed :
    (¬ (transmitting true).Always (SentWhenGoingOn (.buffer 5 (fun i => i.toNat.toUInt8) 17))
        (called (fun _ => ⟨⟨0, 0, 0, 0, []⟩, false, false, true⟩)
          (.buffer 5 (fun i => i.toNat.toUInt8) 17), Sending.initial)
        [.driverStep, .requestEnds 0 true, .driverStep, .driverStep, .requestEnds 0 false,
          .driverStep, .driverStep, .requestEnds 0 true, .driverStep, .driverStep]) ∧
      (¬ (transmitting true).Always (SentWhenGoingOn (.buffer 5 (fun i => i.toNat.toUInt8) 1))
        (called (Function.update (fun _ => ⟨⟨0, 0, 0, 0, []⟩, false, false, true⟩) 0
          ⟨⟨0, 0, 0, 0, []⟩, false, false, false⟩)
          (.buffer 5 (fun i => i.toNat.toUInt8) 1), Sending.initial)
        [.driverStep, .requestEnds 0 true, .driverStep, .driverStep]) ∧
      ¬ (transmitting true).Always (SentWhenGoingOn (.buffer 5 (fun i => i.toNat.toUInt8) 1))
        (called (fun _ => ⟨⟨0, 0, 0, 0, []⟩, false, false, false⟩)
          (.buffer 5 (fun i => i.toNat.toUInt8) 1), Sending.initial)
        [.driverStep, .requestEnds 0 true, .driverStep, .driverStep] := by
  decide

end Resmod.Analysis
