import Resmod.Analysis.ReceptionQueue

/-!
# The task is the slave alone

`DigitalConeCan` has a handler, a queue and a task that waits for the transmission of every
frame.  To the bus it is the slave by itself: in every interleaving the state of the slave is
that of its own machine after a call of `Connect` and one call of `RxData` for each accepted
frame that has been dispatched, in order; and the frames that have been sent are the first of
those that these calls transmit.

`accepted` is the machine with the frames that have found room in the queue.  `Served` is what a
run keeps, and there is one lemma about it for each event.
-/

set_option autoImplicit false

namespace Resmod.Analysis

open Resmod.Library Resmod.Model Resmod.Model.DigitalConeCan

namespace CanTask

/-- The frames accepted so far: those that arrive while the queue is not full. -/
def accept (frames : List CanRxMsg) (s : DigitalConeCan) (e : Event) (_ : DigitalConeCan)
    (_ : List Action) : List CanRxMsg :=
  match e with
  | .arrive mailbox rxm => if s.queue.Full then frames else frames ++ [canReceive mailbox rxm]
  | _ => frames

/-- The task with the frames that have been accepted. -/
def accepting : Machine (DigitalConeCan × List CanRxMsg) Event Action := machine.observe accept

/-- The frames handed to `RxData`. -/
def dispatchedFrames (o : List Action) : List CanRxMsg :=
  o.filterMap fun
    | .dispatched rx => some rx
    | _ => none

/-- The frames that have been sent. -/
def sentFrames (o : List Action) : List CanDriver.CanTxMsg :=
  o.filterMap fun
    | .transmitted tx => some tx
    | _ => none

/-- The frames of the call that is under way. -/
def waiting : Place → List CanDriver.CanTxMsg
  | .sending frames => frames
  | _ => []

/-- The call of `RxData` for a frame, whatever the slave finds around it. -/
def DispatchOf (rx : CanRxMsg) (c : CanSlave.Call) : Prop :=
  ∃ around hw, c = dispatch rx around hw

/-- The calls that the task makes: none while it sleeps, then `Connect`, then one for each frame. -/
def CallsOf (place : Place) (dispatched : List CanRxMsg) (calls : List CanSlave.Call) : Prop :=
  if place = .sleeping then calls = [] ∧ dispatched = []
  else ∃ rest, calls = .connect :: rest ∧ List.Forall₂ DispatchOf dispatched rest

/-- The outputs and the state of the task, beside the calls and the outputs of the slave. -/
structure Served (o : List Action) (p : DigitalConeCan × List CanRxMsg)
    (calls : List CanSlave.Call) (os : List (List Effect)) : Prop where
  exec : CanSlave.machine.exec .initial calls = some (p.1.slave, os)
  calls : CallsOf p.1.place (dispatchedFrames o) calls
  accepted : dispatchedFrames o ++ p.1.queue.items = p.2
  sent : sentFrames o ++ waiting p.1.place = transmitted os.flatten

variable {o o' : List Action} {s s' : DigitalConeCan} {frames : List CanRxMsg}
  {calls : List CanSlave.Call} {os : List (List Effect)}

/-- The frames that the task still has to send. -/
theorem waiting_afterSending (txs : List CanDriver.CanTxMsg) :
    waiting (Place.afterSending txs) = txs := by
  cases txs <;> rfl

/-- The task that sends is not asleep. -/
theorem afterSending_ne_sleeping (txs : List CanDriver.CanTxMsg) :
    Place.afterSending txs ≠ .sleeping := by
  cases txs <;> exact nofun

/-- The frames of one sequence of effects after another. -/
theorem transmitted_append (o₁ o₂ : List Effect) :
    transmitted (o₁ ++ o₂) = transmitted o₁ ++ transmitted o₂ :=
  List.flatMap_append

/-- The frames dispatched in one part of a run and the next. -/
theorem dispatchedFrames_append : dispatchedFrames (o ++ o') =
    dispatchedFrames o ++ dispatchedFrames o' :=
  List.filterMap_append

/-- The frames sent in one part of a run and the next. -/
theorem sentFrames_append : sentFrames (o ++ o') = sentFrames o ++ sentFrames o' :=
  List.filterMap_append

/-- Before the first step nothing has been dispatched or sent. -/
theorem served_started : Served [] (started, []) [] [] :=
  ⟨rfl, (if_pos rfl).mpr ⟨rfl, rfl⟩, rfl, rfl⟩

/-- A call that the task makes, with the frames that it has to send for it. -/
theorem Served.call {call : CanSlave.Call} {slave : CanSlave} {effects : List Effect}
    (h : Served o (s, frames) calls os) (hstep : CanSlave.machine.step s.slave call =
      some (slave, effects)) (hidle : waiting s.place = []) :
    CanSlave.machine.exec .initial (calls ++ [call]) = some (slave, os ++ [effects]) ∧
      sentFrames o ++ waiting (Place.afterSending (transmitted effects)) =
        transmitted (os ++ [effects]).flatten := by
  have hsent := h.sent
  simp only [hidle, List.append_nil] at hsent
  refine ⟨Machine.exec_concat h.exec hstep, ?_⟩
  rw [waiting_afterSending, hsent, List.flatten_append, List.flatten_singleton,
    transmitted_append]

/-- The handler runs: the queue takes the frame, or is full. -/
theorem Served.arrive (h : Served o (s, frames) calls os) (mailbox : FIFOMailBox)
    (rxm : CanRxMsg) :
    Served (o ++ [.received (canReceive mailbox rxm)])
      ({ s with queue := s.queue.send (canReceive mailbox rxm) },
        accept frames s (.arrive mailbox rxm) s []) calls os := by
  obtain ⟨hexec, hcalls, haccepted, hsent⟩ := h
  have hdispatched : dispatchedFrames (o ++ [.received (canReceive mailbox rxm)]) =
      dispatchedFrames o := by rw [dispatchedFrames_append]; exact List.append_nil _
  have hsame : sentFrames (o ++ [.received (canReceive mailbox rxm)]) = sentFrames o := by
    rw [sentFrames_append]; exact List.append_nil _
  refine ⟨hexec, hdispatched.symm ▸ hcalls, ?_, hsame.symm ▸ hsent⟩
  rw [hdispatched]
  show _ ++ (s.queue.send _).items = if s.queue.Full then frames else _
  split_ifs with hfull
  · rw [BoundedQueue.send_of_full hfull]
    exact haccepted
  · rw [BoundedQueue.items_send_of_not_full hfull, ← List.append_assoc]
    exact congrArg (· ++ [canReceive mailbox rxm]) haccepted

/-- The task wakes up and calls `Connect`. -/
theorem Served.wake (h : Served o (s, frames) calls os) (hplace : s.place = .sleeping) :
    Served o ({ s with place := Place.afterSending (transmitted CanSlave.requestTable) }, frames)
      (calls ++ [.connect]) (os ++ [CanSlave.requestTable]) := by
  have hcalls := h.calls
  simp only [CallsOf, hplace, if_true] at hcalls
  obtain ⟨rfl, hdispatched⟩ := hcalls
  have hidle : waiting s.place = [] := by rw [hplace]; rfl
  have hstep : CanSlave.machine.step s.slave .connect = some (s.slave, CanSlave.requestTable) := rfl
  obtain ⟨hexec, hsent⟩ := h.call hstep hidle
  refine ⟨hexec, ?_, h.accepted, hsent⟩
  rw [CallsOf, if_neg (afterSending_ne_sleeping _)]
  exact ⟨[], rfl, hdispatched ▸ .nil⟩

/-- A frame has been sent. -/
theorem Served.transmit {tx : CanDriver.CanTxMsg} {txs : List CanDriver.CanTxMsg}
    (h : Served o (s, frames) calls os) (hplace : s.place = .sending (tx :: txs)) :
    Served (o ++ [.transmitted tx]) ({ s with place := Place.afterSending txs }, frames) calls
      os := by
  obtain ⟨hexec, hcalls, haccepted, hsent⟩ := h
  have hdispatched : dispatchedFrames (o ++ [.transmitted tx]) = dispatchedFrames o := by
    rw [dispatchedFrames_append]; exact List.append_nil _
  refine ⟨hexec, ?_, hdispatched.symm ▸ haccepted, ?_⟩
  · simp only [CallsOf, hplace, reduceCtorEq, if_false] at hcalls
    rwa [CallsOf, if_neg (afterSending_ne_sleeping _), hdispatched]
  · simp only [hplace] at hsent
    show sentFrames _ ++ waiting (Place.afterSending txs) = _
    rw [waiting_afterSending, sentFrames_append, List.append_assoc]
    exact hsent

/-- A frame is taken from the queue and handed to `RxData`. -/
theorem Served.receive {rx : CanRxMsg} {queue : BoundedQueue CanRxMsg 10} {around : Bytes}
    {hw : CanSlaveHardware} {slave : CanSlave} {effects : List Effect}
    (h : Served o (s, frames) calls os) (hplace : s.place = .receiving)
    (hqueue : s.queue.receive = some (rx, queue))
    (hstep : CanSlave.machine.step s.slave (dispatch rx around hw) = some (slave, effects)) :
    Served (o ++ [.dispatched rx])
      (⟨queue, Place.afterSending (transmitted effects), slave⟩, frames)
      (calls ++ [dispatch rx around hw]) (os ++ [effects]) := by
  have hcalls := h.calls
  simp only [CallsOf, hplace, reduceCtorEq, if_false] at hcalls
  obtain ⟨rest, rfl, hrest⟩ := hcalls
  have hidle : waiting s.place = [] := by rw [hplace]; rfl
  obtain ⟨hexec, hsent⟩ := h.call hstep hidle
  have hdispatched : dispatchedFrames (o ++ [.dispatched rx]) = dispatchedFrames o ++ [rx] :=
    dispatchedFrames_append
  refine ⟨hexec, ?_, ?_, ?_⟩
  · rw [CallsOf, if_neg (afterSending_ne_sleeping _), hdispatched]
    exact ⟨rest ++ [dispatch rx around hw], rfl,
      List.rel_append hrest (.cons ⟨around, hw, rfl⟩ .nil)⟩
  · rw [hdispatched, List.append_assoc]
    have haccepted := h.accepted
    simp only [BoundedQueue.items_of_receive hqueue] at haccepted
    exact haccepted
  · rw [sentFrames_append]
    exact (congrArg (· ++ _) (List.append_nil _)).trans hsent

/-- What every step keeps. -/
theorem Served.step {e : Event} {p : DigitalConeCan × List CanRxMsg}
    (h : Served o (s, frames) calls os) (hnext : accepting.step (s, frames) e = some (p, o')) :
    ∃ calls' os', Served (o ++ o') p calls' os' := by
  obtain ⟨s', frames'⟩ := p
  obtain ⟨hstep, hframes⟩ := Machine.observe_step_eq_some.mp hnext
  simp only at hstep hframes
  subst hframes
  cases e with
  | arrive mailbox rxm =>
    cases hstep
    exact ⟨calls, os, h.arrive mailbox rxm⟩
  | wake =>
    simp only [machine, DigitalConeCan.step] at hstep
    split at hstep
    · rename_i hplace
      cases hstep
      rw [List.append_nil]
      exact ⟨_, _, h.wake hplace⟩
    · cases hstep
  | transmit =>
    simp only [machine, DigitalConeCan.step] at hstep
    split at hstep
    · rename_i tx txs hplace
      cases hstep
      exact ⟨calls, os, h.transmit hplace⟩
    · cases hstep
  | receive around hw =>
    simp only [machine, DigitalConeCan.step] at hstep
    split at hstep
    · rename_i rx queue hplace hqueue
      split at hstep
      · rename_i slave effects hslave
        cases hstep
        exact ⟨_, _, h.receive hplace hqueue hslave⟩
      · cases hstep
    · cases hstep

/-- **The task refines the slave.**  In every interleaving of the handler and the task the slave is
in the state that its own machine reaches by `Connect` and by `RxData` for the dispatched
frames; these are the first of the accepted ones, and the others are in the queue; and the
frames that have been sent, with those that the task is about to send, are those that the
calls transmit.  SOURCE: candriver.cc:39-48, 99-106, digitalconecan.cc:40-66 -/
theorem task_refines_slave {events : List Event} {os : List (List Action)}
    (hrun : accepting.exec (started, []) events = some ((s, frames), os)) :
    ∃ calls outs, CanSlave.machine.exec .initial calls = some (s.slave, outs) ∧
      CallsOf s.place (dispatchedFrames os.flatten) calls ∧
      dispatchedFrames os.flatten ++ s.queue.items = frames ∧
      sentFrames os.flatten ++ waiting s.place = transmitted outs.flatten := by
  have hserved := Machine.invariant_of_outputs (M := accepting) (w := [])
    (fun w p => ∃ calls os, Served w p calls os) (fun _ _ => True)
    (fun _ _ _ _ _ h _ hstep => h.elim fun _ h => h.elim fun _ h => h.step hstep)
    ⟨[], [], served_started⟩ (Machine.along_of_forall fun _ _ => trivial) hrun
  obtain ⟨calls, outs, hexec, hcalls, haccepted, hsent⟩ := hserved
  exact ⟨calls, outs, hexec, hcalls, haccepted, hsent⟩

/-- Two frames arrive around the transmission for `Connect`, and one of them is dispatched. -/
theorem task_refines_slave_two :
    ∃ s frames os, accepting.exec (started, []) [arrival 2, .wake, .transmit, arrival 3, taken] =
        some ((s, frames), os) ∧
      ∃ calls outs, CanSlave.machine.exec .initial calls = some (s.slave, outs) ∧
        CallsOf s.place (dispatchedFrames os.flatten) calls ∧
        dispatchedFrames os.flatten ++ s.queue.items = frames ∧
        sentFrames os.flatten ++ waiting s.place = transmitted outs.flatten := by
  have hrun : accepting.exec (started, []) [arrival 2, .wake, .transmit, arrival 3, taken] =
      some ((_, _), _) := rfl
  exact ⟨_, _, _, hrun, task_refines_slave hrun⟩

end CanTask

end Resmod.Analysis
