import Resmod.Model.DigitalConeCan

/-!
# Frames between the interrupt and the slave

The callback copies a frame to a queue of ten and does not look at the result, while the
task can be asleep, or wait for the transmission of a message of many frames.  `traffic` is
the task with the handler and with two histories, the frames the handler received and the
frames that were dispatched.

`accounts_step` is the one lemma about a step: the account of the queue is kept, unless a
frame arrives when the queue is full.
-/

set_option autoImplicit false

namespace Resmod.Analysis

open Resmod.Library Resmod.Model Resmod.Model.DigitalConeCan

/-- The frames received by the handler and those handed to `RxData`, in order. -/
structure Traffic where
  received : List CanRxMsg
  dispatched : List CanRxMsg

/-- Nothing has been received. -/
def Traffic.none : Traffic := ⟨[], []⟩

/-- The history after some actions. -/
def Traffic.after (t : Traffic) : List Action → Traffic
  | [] => t
  | .received rx :: o => Traffic.after { t with received := t.received ++ [rx] } o
  | .dispatched rx :: o => Traffic.after { t with dispatched := t.dispatched ++ [rx] } o
  | .transmitted _ :: o => Traffic.after t o

/-- The task together with the history of the frames. -/
def traffic : Machine (DigitalConeCan × Traffic) Event Action :=
  machine.observe fun t _ _ _ o => t.after o

/-- The dispatched frames are the first of the received ones. -/
def InOrder (_ : DigitalConeCan × Traffic) (_ : Event) (p' : DigitalConeCan × Traffic)
    (_ : List Action) : Prop :=
  p'.2.dispatched <+: p'.2.received

/-- No received frame is missing: what was not dispatched is in the queue. -/
def NothingLost (_ : DigitalConeCan × Traffic) (_ : Event) (p' : DigitalConeCan × Traffic)
    (_ : List Action) : Prop :=
  p'.1.queue.Accounts p'.2.received p'.2.dispatched

/-- A frame that arrives finds room in the queue. -/
def NoOverflow (p : DigitalConeCan × Traffic) : Event → Prop
  | .arrive _ _ => ¬ p.1.queue.Full
  | _ => True

instance (p : DigitalConeCan × Traffic) (e : Event) (p' : DigitalConeCan × Traffic)
    (o : List Action) : Decidable (InOrder p e p' o) :=
  inferInstanceAs (Decidable (p'.2.dispatched <+: p'.2.received))

instance (p : DigitalConeCan × Traffic) : ∀ e, Decidable (NoOverflow p e)
  | .arrive _ _ => inferInstanceAs (Decidable (¬ p.1.queue.Full))
  | .wake => .isTrue trivial
  | .transmit => .isTrue trivial
  | .receive _ _ => .isTrue trivial

/-! ## The steps of the task -/

/-- What the task does to the queue and to the histories, in a step of its own.
SOURCE: digitalconecan.cc:50-66 -/
theorem task_step {s s' : DigitalConeCan} {e : Event} {o : List Action} {t : Traffic}
    (he : ∀ mailbox rxm, e ≠ .arrive mailbox rxm) (hstep : machine.step s e = some (s', o)) :
    (s'.queue = s.queue ∧ t.after o = t) ∨
      ∃ rx, s.queue.receive = some (rx, s'.queue) ∧
        t.after o = { t with dispatched := t.dispatched ++ [rx] } := by
  cases e with
  | arrive mailbox rxm => exact absurd rfl (he mailbox rxm)
  | wake =>
    simp only [machine, step] at hstep
    split at hstep <;> cases hstep
    exact .inl ⟨rfl, rfl⟩
  | transmit =>
    simp only [machine, step] at hstep
    split at hstep <;> cases hstep
    exact .inl ⟨rfl, rfl⟩
  | receive around hw =>
    simp only [machine, step] at hstep
    split at hstep
    · rename_i rx queue _ hqueue
      split at hstep <;> cases hstep
      exact .inr ⟨rx, hqueue, rfl⟩
    · cases hstep

/-- **The step lemma.**  From a queue that accounts for everything, a step loses nothing if
and only if no frame arrives when the queue is full. -/
theorem accounts_step {p p' : DigitalConeCan × Traffic} {e : Event} {o : List Action}
    (hI : p.1.queue.Accounts p.2.received p.2.dispatched)
    (hstep : traffic.step p e = some (p', o)) :
    NothingLost p e p' o ↔ NoOverflow p e := by
  obtain ⟨s, t⟩ := p
  obtain ⟨s', t'⟩ := p'
  obtain ⟨hs, ht⟩ := Machine.observe_step_eq_some.mp hstep
  simp only at hs ht
  unfold NothingLost
  by_cases he : ∃ mailbox rxm, e = .arrive mailbox rxm
  · obtain ⟨mailbox, rxm, rfl⟩ := he
    cases hs
    rw [ht]
    exact BoundedQueue.accounts_send_iff hI
  · have hno : NoOverflow (s, t) e := by
      cases e with
      | arrive mailbox rxm => exact absurd ⟨mailbox, rxm, rfl⟩ he
      | wake => trivial
      | transmit => trivial
      | receive around hw => trivial
    have hkept : s'.queue.Accounts t'.received t'.dispatched := by
      rcases task_step (fun mailbox rxm h => he ⟨mailbox, rxm, h⟩) hs with
        ⟨hqueue, hsame⟩ | ⟨rx, hqueue, hdispatched⟩
      · rw [ht, hsame, hqueue]
        exact hI
      · rw [ht, hdispatched]
        exact BoundedQueue.Accounts.receive hI hqueue
    exact ⟨fun _ => hno, fun _ => hkept⟩

/-! ## Runs -/

/-- In every run nothing is lost if and only if no frame arrives when the queue is full. -/
theorem nothingLost_iff (events : List Event) :
    traffic.Always NothingLost (started, .none) events ↔
      traffic.Always (fun p e _ _ => NoOverflow p e) (started, .none) events :=
  Machine.always_congr (fun p => p.1.queue.Accounts p.2.received p.2.dispatched)
    (fun _ _ _ _ hI hstep => ⟨accounts_step hI hstep, (accounts_step hI hstep).mpr⟩)
    BoundedQueue.accounts_empty events

/-- **When no frame is lost on the way to the slave.**  In every interleaving of arrivals
and steps of the task in which no frame arrives when the queue is full, the dispatched
frames are always the first of the received ones.
SOURCE: candriver.cc:39-48, 99-106, digitalconecan.cc:40-66 -/
theorem dispatched_in_order (events : List Event)
    (h : traffic.Always (fun p e _ _ => NoOverflow p e) (started, .none) events) :
    traffic.Always InOrder (started, .none) events := by
  have hlost := (nothingLost_iff events).mpr h
  apply hlost.mono
  intro p e p' o haccounts
  exact ⟨p'.1.queue.items, haccounts⟩

/-- The frame with this identifier and no data arrives. -/
def arrival (id : UInt32) : Event :=
  .arrive ⟨id <<< 21, 0, 0, 0⟩ ⟨0, 0, 0, 0, 0, Vector.replicate 8 0, 0⟩

/-- The task takes the next frame. -/
def taken : Event := .receive (fun _ => 0) (blackBoxCanSlaveHardware 0)

/-- Two frames that arrive before the task wakes up are dispatched in order. -/
theorem dispatched_in_order_two :
    traffic.Always InOrder (started, .none)
      [arrival 2, arrival 3, .wake, .transmit, taken, taken] :=
  dispatched_in_order _ (by decide)

/-- The eleventh frame that arrives before the task wakes up is lost, and the one after it
is dispatched in its place. -/
theorem not_dispatched_in_order :
    ¬ traffic.Always InOrder (started, .none)
      ((List.range 11).map (fun i => arrival (i + 2).toUInt32) ++
        [.wake, .transmit, taken, arrival 13] ++ List.replicate 10 taken) := by
  decide

end Resmod.Analysis
