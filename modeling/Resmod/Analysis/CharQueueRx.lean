import Resmod.Analysis.CharQueueTx
import Resmod.Model.CharQueueRx

/-!
# Bytes received through a character queue, over whole runs

Any number of tasks read from the queue.  Each byte that the handler has queued goes to one of
them, in order; the bytes queued are those that arrived, without those that arrived too early
and those that found the queue full.  But the interrupt of the receiver is never enabled in
this mode, so that all of this needs it to be enabled from before; and a clear of the
reception takes the bytes that wait for their transmission.

`Happens` says once what a step of the machine can do.
-/

set_option autoImplicit false

namespace Resmod.Analysis

open Resmod.Library Resmod.Model

namespace CharQueueRx

open Resmod.Model.CharQueueRx

variable {Task : Type*}

/-! ## What goes in and what comes out -/

/-- The bytes that have arrived. -/
def arrivedBytes (os : List (Output Task)) : List UInt8 :=
  os.filterMap fun o => match o with
    | .arrived c => some c
    | _ => none

/-- The bytes that the handler has put into the queue. -/
def queuedBytes (os : List (Output Task)) : List UInt8 :=
  os.filterMap fun o => match o with
    | .queued c => some c
    | _ => none

/-- The bytes that found the queue full. -/
def droppedBytes (os : List (Output Task)) : List UInt8 :=
  os.filterMap fun o => match o with
    | .dropped c => some c
    | _ => none

/-- The bytes that the handler has not read out of `DR`, and those that found the queue full. -/
def lostBytes (os : List (Output Task)) : List UInt8 :=
  os.filterMap fun o => match o with
    | .lost c => some c
    | .dropped c => some c
    | _ => none

/-- The bytes that the reads have taken out of the queue, with the tasks. -/
def receivedBytes (os : List (Output Task)) : List (Task × UInt8) :=
  os.filterMap fun o => match o with
    | .received task c => some (task, c)
    | _ => none

/-- The bytes of a task among them. -/
def bytesOf [DecidableEq Task] (task : Task) (bytes : List (Task × UInt8)) : List UInt8 :=
  (bytes.filter fun p => p.1 = task).map Prod.snd

/-- The bytes that the reads of a task have returned. -/
def returnedBytes [DecidableEq Task] (task : Task) (os : List (Output Task)) : List UInt8 :=
  os.flatMap fun o => match o with
    | .returned t pvBuffer xReturn => if t = task then pvBuffer.take xReturn else []
    | _ => []

/-- The bytes that arrive in one part of a run and the next. -/
@[simp] theorem arrivedBytes_append (v w : List (Output Task)) :
    arrivedBytes (v ++ w) = arrivedBytes v ++ arrivedBytes w := List.filterMap_append

/-- The bytes queued in one part of a run and the next. -/
@[simp] theorem queuedBytes_append (v w : List (Output Task)) :
    queuedBytes (v ++ w) = queuedBytes v ++ queuedBytes w := List.filterMap_append

/-- The bytes dropped in one part of a run and the next. -/
@[simp] theorem droppedBytes_append (v w : List (Output Task)) :
    droppedBytes (v ++ w) = droppedBytes v ++ droppedBytes w := List.filterMap_append

/-- The bytes lost in one part of a run and the next. -/
@[simp] theorem lostBytes_append (v w : List (Output Task)) :
    lostBytes (v ++ w) = lostBytes v ++ lostBytes w := List.filterMap_append

/-- The bytes taken in one part of a run and the next. -/
@[simp] theorem receivedBytes_append (v w : List (Output Task)) :
    receivedBytes (v ++ w) = receivedBytes v ++ receivedBytes w := List.filterMap_append

/-- The bytes of a task in one part of a list and the next. -/
@[simp] theorem bytesOf_append [DecidableEq Task] (task : Task) (v w : List (Task × UInt8)) :
    bytesOf task (v ++ w) = bytesOf task v ++ bytesOf task w := by
  rw [bytesOf, List.filter_append, List.map_append]
  rfl

/-- The bytes returned in one part of a run and the next. -/
@[simp] theorem returnedBytes_append [DecidableEq Task] (task : Task) (v w : List (Output Task)) :
    returnedBytes task (v ++ w) = returnedBytes task v ++ returnedBytes task w :=
  List.flatMap_append

/-- The transmission has no part in these. -/
theorem quiet_transmission (Task : Type*) [DecidableEq Task] (o : List CharQueueTx.Output) :
    let v : List (Output Task) := o.map .transmission
    arrivedBytes v = [] ∧ queuedBytes v = [] ∧ droppedBytes v = [] ∧ lostBytes v = [] ∧
      receivedBytes v = [] ∧ ∀ task, returnedBytes task v = [] := by
  simp [arrivedBytes, queuedBytes, droppedBytes, lostBytes, receivedBytes, returnedBytes]

/-! ## The steps -/

variable [DecidableEq Task] {rxCapacity txCapacity : ℕ}

/-- What can happen in a state, with the conditions under which it can. -/
inductive Happens (s : CharQueueRx Task rxCapacity txCapacity) :
    Event Task → CharQueueRx Task rxCapacity txCapacity → List (Output Task) → Prop
  | overrun {c : UInt8} (hrxne : s.uart.rxne = true) :
      Happens s (.arrive c) s [.arrived c, .lost c]
  | arrived {c : UInt8} (hrxne : s.uart.rxne = false) :
      Happens s (.arrive c)
        { s with uart := { s.uart with dr := c, rxne := true } } [.arrived c]
  | readMore {task : Task} {b : List UInt8} (hplace : s.place task = .outside)
      (hlt : 0 < b.length) : Happens s (.read task b) (s.goto task (.receive b 0)) []
  | readNothing {task : Task} {b : List UInt8} (hplace : s.place task = .outside) :
      Happens s (.read task b) (s.goto task .outside) [.returned task b 0]
  | clear : Happens s .clear { s with tx := { s.tx with queue := .empty } }
      [.cleared s.tx.queue.items]
  | take {task : Task} {e : Bool} {b : List UInt8} {i : ℕ} {c : UInt8}
      {queue : BoundedQueue UInt8 rxCapacity} (hplace : s.place task = .receive b i)
      (hqueue : s.queue.receive = some (c, queue)) (hlt : i < b.length) :
      Happens s (.taskStep task e)
        ({ s with queue := queue }.goto task (.checkForTimeOut (b.set i c) (i + 1)))
        [.received task c]
  | takeTimeOut {task : Task} {b : List UInt8} {i : ℕ} (hplace : s.place task = .receive b i) :
      Happens s (.taskStep task true) (s.goto task (.checkForTimeOut b i)) []
  | again {task : Task} {b : List UInt8} {i : ℕ} (hplace : s.place task = .checkForTimeOut b i)
      (hlt : i < b.length) : Happens s (.taskStep task false) (s.goto task (.receive b i)) []
  | done {task : Task} {e : Bool} {b : List UInt8} {i : ℕ}
      (hplace : s.place task = .checkForTimeOut b i) :
      Happens s (.taskStep task e) (s.goto task .outside) [.returned task b i]
  | enterHandler (hrxne : s.uart.rxne = true) (hrxneie : s.uart.rxneie = true)
      (hnone : s.handler = none) :
      Happens s .enterHandler { s with handler := some .condition } []
  | fetch (hhandler : s.handler = some .condition) (hrxne : s.uart.rxne = true) :
      Happens s .handlerStep { s with
        uart := { s.uart with rxne := false }
        handler := some (.sendFromISR s.uart.dr) } []
  | loopDone (hhandler : s.handler = some .condition) (hrxne : s.uart.rxne = false) :
      Happens s .handlerStep { s with handler := some .clearITPendingBit } []
  | drop {c : UInt8} (hhandler : s.handler = some (.sendFromISR c)) (hfull : s.queue.Full) :
      Happens s .handlerStep
        { s with usErrorState := true, handler := some .condition } [.dropped c]
  | send {c : UInt8} (hhandler : s.handler = some (.sendFromISR c)) (hfull : ¬ s.queue.Full) :
      Happens s .handlerStep
        { s with queue := s.queue.send c, handler := some .condition } [.queued c]
  | leave (hhandler : s.handler = some .clearITPendingBit) :
      Happens s .handlerStep
        { s with uart := { s.uart with rxne := false }, handler := none }
        (if s.uart.rxne then [.lost s.uart.dr] else [])
  | transmission {e : CharQueueTx.Event} {tx : CharQueueTx txCapacity}
      {o : List CharQueueTx.Output}
      (hstep : (CharQueueTx.machine txCapacity).step s.tx e = some (tx, o)) :
      Happens s (.transmission e) { s with tx := tx } (o.map .transmission)

variable {s s' : CharQueueRx Task rxCapacity txCapacity} {a : Event Task}
  {o : List (Output Task)} {as : List (Event Task)} {os : List (List (Output Task))}
  {task : Task} {e : Bool}

/-- A statement of a task is one of the things that can happen. -/
theorem happens_of_taskStep (h : s.taskStep task e = some (s', o)) :
    Happens s (.taskStep task e) s' o := by
  unfold taskStep at h
  cases hplace : s.place task with
  | outside => simp [hplace] at h
  | receive b i =>
    simp only [hplace] at h
    cases hqueue : s.queue.receive with
    | none =>
      simp only [hqueue] at h
      obtain ⟨rfl, h⟩ := Option.ite_none_right_eq_some.mp h
      cases h
      exact .takeTimeOut hplace
    | some r =>
      simp only [hqueue] at h
      obtain ⟨hlt, h⟩ := Option.ite_none_right_eq_some.mp h
      cases h
      exact .take hplace hqueue hlt
  | checkForTimeOut b i =>
    simp only [hplace, whileMore] at h
    split_ifs at h with hexpired hlt
    · cases h
      exact .done hplace
    · obtain rfl : e = false := by simpa using hexpired
      cases h
      exact .again hplace hlt
    · cases h
      exact .done hplace

/-- A statement of the handler is one of the things that can happen. -/
theorem happens_of_handlerStep (h : s.handlerStep = some (s', o)) :
    Happens s .handlerStep s' o := by
  unfold handlerStep at h
  cases hhandler : s.handler with
  | none => simp [hhandler] at h
  | some place =>
    simp only [hhandler] at h
    cases place with
    | condition =>
      simp only at h
      split_ifs at h with hrxne
      · cases h
        exact .fetch hhandler hrxne
      · cases h
        exact .loopDone hhandler (by simpa using hrxne)
    | sendFromISR c =>
      simp only at h
      split_ifs at h with hfull
      · cases h
        exact .drop hhandler hfull
      · cases h
        exact .send hhandler hfull
    | clearITPendingBit =>
      cases h
      exact .leave hhandler

/-- So is a step of the transmission. -/
theorem happens_of_transmission {e : CharQueueTx.Event} (h : s.transmission e = some (s', o)) :
    Happens s (.transmission e) s' o := by
  obtain ⟨⟨tx, o⟩, hstep, hs'⟩ := Option.map_eq_some_iff.mp h
  cases hs'
  exact .transmission hstep

/-- A step is one of the things that can happen. -/
theorem happens_of_step (h : (machine Task rxCapacity txCapacity).step s a = some (s', o)) :
    Happens s a s' o := by
  cases a with
  | arrive c =>
    simp only [machine, arrive] at h
    split_ifs at h with hrxne
    · cases h
      exact .overrun hrxne
    · cases h
      exact .arrived (by simpa using hrxne)
  | read task b =>
    obtain ⟨⟨hplace, -⟩, h⟩ := Option.ite_none_right_eq_some.mp h
    simp only [whileMore] at h
    split_ifs at h with hlt
    · cases h
      exact .readMore hplace hlt
    · cases h
      exact .readNothing hplace
  | clear =>
    obtain ⟨-, h⟩ := Option.ite_none_right_eq_some.mp h
    cases h
    exact .clear
  | taskStep task e => exact happens_of_taskStep (Option.ite_none_right_eq_some.mp h).2
  | enterHandler =>
    obtain ⟨⟨hrxne, hrxneie, hidle⟩, h⟩ := Option.ite_none_right_eq_some.mp h
    cases h
    exact .enterHandler hrxne hrxneie hidle.1
  | handlerStep => exact happens_of_handlerStep h
  | transmission e =>
    cases e with
    | shiftOut => exact happens_of_transmission h
    | write | taskStep | enterHandler | handlerStep =>
      exact happens_of_transmission (Option.ite_none_right_eq_some.mp h).2

/-! ## Each byte goes to one task -/

/-- The buffer of the read in progress, with the number of bytes read into it. -/
def reading : Place → Option (List UInt8 × ℕ)
  | .outside => none
  | .receive b i => some (b, i)
  | .checkForTimeOut b i => some (b, i)

/-- The bytes that the read in progress has got so far. -/
def progress (p : Place) : List UInt8 :=
  match reading p with
  | some (b, i) => b.take i
  | none => []

/-- A read has got at most as many bytes as its buffer holds, and fewer when it waits for
another one. -/
def Fits : Place → Prop
  | .outside => True
  | .receive b i => i < b.length
  | .checkForTimeOut b i => i ≤ b.length

/-- The task is where it has gone. -/
@[simp] theorem place_goto_self (place : Place) : (s.goto task place).place task = place :=
  Function.update_self ..

/-- The other tasks stay where they are. -/
theorem place_goto_of_ne {task' : Task} (hne : task' ≠ task) (place : Place) :
    (s.goto task place).place task' = s.place task' :=
  Function.update_of_ne hne ..

/-- A task goes to a place that leaves its read in its buffer. -/
theorem fits_goto {place : Place} (hs : ∀ task, Fits (s.place task)) (hplace : Fits place)
    (task' : Task) : Fits ((s.goto task place).place task') := by
  by_cases heq : task' = task
  · rw [heq, place_goto_self]
    exact hplace
  · rw [place_goto_of_ne heq]
    exact hs task'

/-- A step leaves every read in its buffer. -/
theorem Happens.fits (h : Happens s a s' o) (hs : ∀ task, Fits (s.place task)) :
    ∀ task, Fits (s'.place task) := by
  cases h with
  | readMore _ hlt => exact fits_goto hs hlt
  | readNothing => exact fits_goto hs trivial
  | @take task e b i c queue hplace _ hlt =>
    refine fits_goto (s := { s with queue := queue }) hs ?_
    show i + 1 ≤ (b.set i c).length
    rw [List.length_set]
    exact hlt
  | @takeTimeOut task b i hplace =>
    have hfits := hs task
    rw [hplace] at hfits
    exact fits_goto hs (Nat.le_of_lt hfits)
  | again _ hlt => exact fits_goto hs hlt
  | done => exact fits_goto hs trivial
  | _ => exact hs

/-- A step takes from the front of the queue and adds to its end. -/
theorem Happens.queue (h : Happens s a s' o) :
    (receivedBytes o).map Prod.snd ++ s'.queue.items = s.queue.items ++ queuedBytes o := by
  cases h with
  | take _ hqueue =>
    rw [BoundedQueue.items_of_receive hqueue]
    exact (List.append_nil _).symm
  | send _ hfull => exact BoundedQueue.items_send_of_not_full hfull
  | leave => split <;> exact (List.append_nil _).symm
  | @transmission e tx o =>
    obtain ⟨-, hqueued, -, -, hreceived, -⟩ := quiet_transmission Task o
    rw [hreceived, hqueued]
    exact (List.append_nil _).symm
  | _ => exact (List.append_nil _).symm

/-- What a step does to a task that it moves to another place. -/
theorem conserves_goto {place : Place} {task' : Task}
    (h : returnedBytes task o ++ progress place =
      progress (s.place task) ++ bytesOf task (receivedBytes o))
    (hother : task' ≠ task → returnedBytes task' o = [] ∧ bytesOf task' (receivedBytes o) = []) :
    returnedBytes task' o ++ progress ((s.goto task place).place task') =
      progress (s.place task') ++ bytesOf task' (receivedBytes o) := by
  by_cases heq : task' = task
  · rw [heq, place_goto_self]
    exact h
  · obtain ⟨hreturned, hreceived⟩ := hother heq
    rw [place_goto_of_ne heq, hreturned, hreceived, List.append_nil, List.nil_append]

/-- What the reads of a task have returned and got is what they have taken from the queue. -/
theorem Happens.conserves (h : Happens s a s' o) (task : Task) :
    returnedBytes task o ++ progress (s'.place task) =
      progress (s.place task) ++ bytesOf task (receivedBytes o) := by
  cases h with
  | readMore hplace =>
    refine conserves_goto ?_ fun _ => ⟨rfl, rfl⟩
    rw [hplace]
    rfl
  | readNothing hplace =>
    refine conserves_goto ?_ fun hne => ⟨by simp [returnedBytes, Ne.symm hne], rfl⟩
    rw [hplace]
    simp [returnedBytes, progress, reading, bytesOf, receivedBytes]
  | @take t e b i c queue hplace hqueue hlt =>
    refine conserves_goto (s := { s with queue := queue }) ?_ fun hne => ⟨rfl, ?_⟩
    · simp only
      rw [hplace]
      simp [returnedBytes, progress, reading, bytesOf, receivedBytes,
        List.take_succ_eq_append_getElem (l := b.set i c) (by simpa using hlt),
        List.take_set_of_le]
    · simp [bytesOf, receivedBytes, Ne.symm hne]
  | takeTimeOut hplace =>
    refine conserves_goto ?_ fun _ => ⟨rfl, rfl⟩
    rw [hplace]
    exact (List.append_nil _).symm
  | again hplace =>
    refine conserves_goto ?_ fun _ => ⟨rfl, rfl⟩
    rw [hplace]
    exact (List.append_nil _).symm
  | done hplace =>
    refine conserves_goto ?_ fun hne => ⟨by simp [returnedBytes, Ne.symm hne], rfl⟩
    rw [hplace]
    simp [returnedBytes, progress, reading, bytesOf, receivedBytes]
  | leave => split <;> exact (List.append_nil _).symm
  | @transmission e tx o =>
    obtain ⟨-, -, -, -, hreceived, hreturned⟩ := quiet_transmission Task o
    rw [hreceived, hreturned]
    exact (List.append_nil _).symm
  | _ => exact (List.append_nil _).symm

/-- What goes into the queue comes out of it in order, over a run. -/
theorem queue_of_exec (hrun : (machine Task rxCapacity txCapacity).exec s as = some (s', os)) :
    (receivedBytes os.flatten).map Prod.snd ++ s'.queue.items =
      s.queue.items ++ queuedBytes os.flatten :=
  Machine.invariant_of_outputs (w := [])
    (fun w t => (receivedBytes w).map Prod.snd ++ t.queue.items =
      s.queue.items ++ queuedBytes w)
    (fun _ _ => True)
    (fun w t a t' o hw _ hstep => by
      rw [receivedBytes_append, queuedBytes_append, List.map_append, List.append_assoc,
        (happens_of_step hstep).queue, ← List.append_assoc, hw, List.append_assoc])
    (List.append_nil _).symm (Machine.along_of_forall fun _ _ => trivial) hrun

/-- What a task takes is what its reads return, over a run. -/
theorem task_of_exec (hs : ∀ task, Fits (s.place task))
    (hrun : (machine Task rxCapacity txCapacity).exec s as = some (s', os)) (task : Task) :
    returnedBytes task os.flatten ++ progress (s'.place task) =
        progress (s.place task) ++ bytesOf task (receivedBytes os.flatten) ∧
      Fits (s'.place task) := by
  refine Machine.invariant_of_outputs (M := machine Task rxCapacity txCapacity) (w := [])
    (fun w t => ∀ task, returnedBytes task w ++ progress (t.place task) =
      progress (s.place task) ++ bytesOf task (receivedBytes w) ∧ Fits (t.place task))
    (fun _ _ => True) ?_ (fun task => ⟨(List.append_nil _).symm, hs task⟩)
    (Machine.along_of_forall fun _ _ => trivial) hrun task
  intro w t a t' o htasks _ hstep task
  have h := happens_of_step hstep
  refine ⟨?_, h.fits (fun task => (htasks task).2) task⟩
  rw [returnedBytes_append, receivedBytes_append, bytesOf_append, List.append_assoc,
    h.conserves, ← List.append_assoc, (htasks task).1, List.append_assoc]

/-- **Each byte goes to one task.**  In every run the bytes that the tasks have taken out of the
queue, followed by those in it, are those that were in it at the start and those that the
handler has put into it; what the reads of each task have returned and got so far are the
bytes that this task has taken, in order; and no read leaves its buffer.
SOURCE: IOUtils_CharQueueTxAndRx.c:140-167 -/
theorem each_byte_to_one_task (hs : ∀ task, Fits (s.place task))
    (hrun : (machine Task rxCapacity txCapacity).exec s as = some (s', os)) :
    (receivedBytes os.flatten).map Prod.snd ++ s'.queue.items =
        s.queue.items ++ queuedBytes os.flatten ∧
      ∀ task, returnedBytes task os.flatten ++ progress (s'.place task) =
        progress (s.place task) ++ bytesOf task (receivedBytes os.flatten) ∧
        Fits (s'.place task) :=
  ⟨queue_of_exec hrun, task_of_exec hs hrun⟩

/-! ## Which bytes are lost -/

/-- The byte in `DR` that has not been read. -/
def pending (s : CharQueueRx Task rxCapacity txCapacity) : List UInt8 :=
  if s.uart.rxne then [s.uart.dr] else []

/-- The byte that the handler has read out of `DR`. -/
def inHand (s : CharQueueRx Task rxCapacity txCapacity) : List UInt8 :=
  match s.handler with
  | some (.sendFromISR c) => [c]
  | _ => []

/-- The handler has found `RXNE` clear, and will clear it once more. -/
def Leaving (s : CharQueueRx Task rxCapacity txCapacity) : Prop :=
  s.handler = some .clearITPendingBit

/-- A byte arrives after the one before it has been read and while the handler is not on its
way out, and the queue has room for it when the handler comes to it. -/
structure MayKeep (s : CharQueueRx Task rxCapacity txCapacity) (a : Event Task) : Prop where
  arrive : ∀ c, a = .arrive c → s.uart.rxne = false ∧ ¬ Leaving s
  room : ∀ c, a = .handlerStep → s.handler = some (.sendFromISR c) → ¬ s.queue.Full

/-- Bytes go from the line over `DR` into the queue in order, and each of them is there, on
the way or lost. -/
def Accounts (s s' : CharQueueRx Task rxCapacity txCapacity) (o : List (Output Task)) : Prop :=
  (queuedBytes o ++ inHand s' ++ pending s').Sublist
      (inHand s ++ pending s ++ arrivedBytes o) ∧
    (inHand s ++ pending s ++ arrivedBytes o).length =
      (queuedBytes o ++ inHand s' ++ pending s').length + (lostBytes o).length

omit [DecidableEq Task] in
/-- A step that moves no byte. -/
theorem accounts_of_same (hhand : inHand s' = inHand s) (hpending : pending s' = pending s)
    (harrived : arrivedBytes o = []) (hqueued : queuedBytes o = []) (hlost : lostBytes o = []) :
    Accounts s s' o := by
  rw [Accounts, hhand, hpending, harrived, hqueued, hlost, List.append_nil, List.nil_append]
  exact ⟨.refl _, rfl⟩

/-- The account of a step. -/
theorem Happens.accounts (h : Happens s a s' o) : Accounts s s' o := by
  cases h with
  | overrun =>
    simp [Accounts, queuedBytes, arrivedBytes, lostBytes, Nat.add_assoc]
  | arrived hrxne =>
    simp [Accounts, queuedBytes, arrivedBytes, lostBytes, inHand, pending, hrxne]
  | fetch hhandler hrxne =>
    simp [Accounts, queuedBytes, arrivedBytes, lostBytes, inHand, pending, hhandler, hrxne]
  | drop hhandler =>
    simp [Accounts, queuedBytes, arrivedBytes, lostBytes, inHand, pending, hhandler]
  | send hhandler =>
    simp [Accounts, queuedBytes, arrivedBytes, lostBytes, inHand, pending, hhandler]
  | leave hhandler => cases hrxne : s.uart.rxne <;>
      simp [Accounts, queuedBytes, arrivedBytes, lostBytes, inHand, pending, hhandler, hrxne]
  | loopDone hhandler | enterHandler _ _ hhandler =>
    exact accounts_of_same (by simp [inHand, hhandler]) rfl rfl rfl rfl
  | @transmission e tx o =>
    obtain ⟨harrived, hqueued, -, hlost, -, -⟩ := quiet_transmission Task o
    exact accounts_of_same rfl rfl harrived hqueued hlost
  | _ => exact accounts_of_same rfl rfl rfl rfl rfl

omit [DecidableEq Task] in
/-- The accounts of a run and of a step after it. -/
theorem Accounts.append {t : CharQueueRx Task rxCapacity txCapacity} {w : List (Output Task)}
    (h : Accounts s t w) (h' : Accounts t s' o) : Accounts s s' (w ++ o) := by
  obtain ⟨hsub, hlen⟩ := h
  obtain ⟨hsub', hlen'⟩ := h'
  rw [Accounts, queuedBytes_append, arrivedBytes_append, lostBytes_append]
  constructor
  · calc (queuedBytes w ++ queuedBytes o ++ inHand s' ++ pending s').Sublist
          (queuedBytes w ++ (inHand t ++ pending t ++ arrivedBytes o)) := by
            simpa only [List.append_assoc] using hsub'.append_left (queuedBytes w)
      _ = queuedBytes w ++ inHand t ++ pending t ++ arrivedBytes o := by
            simp only [List.append_assoc]
      List.Sublist _ (inHand s ++ pending s ++ arrivedBytes w ++ arrivedBytes o) :=
            hsub.append_right _
      _ = inHand s ++ pending s ++ (arrivedBytes w ++ arrivedBytes o) := List.append_assoc _ _ _
  · simp only [List.length_append] at hlen hlen' ⊢
    omega

/-- The account of a run. -/
theorem accounts_of_exec
    (hrun : (machine Task rxCapacity txCapacity).exec s as = some (s', os)) :
    Accounts s s' os.flatten :=
  Machine.invariant_of_outputs (w := []) (fun w t => Accounts s t w) (fun _ _ => True)
    (fun _ _ _ _ _ hw _ hstep => hw.append (happens_of_step hstep).accounts)
    (accounts_of_same rfl rfl rfl rfl rfl) (Machine.along_of_forall fun _ _ => trivial) hrun

/-- While bytes arrive only when they may and find room, a step loses none, and none is in
`DR` once the handler is on its way out. -/
theorem Happens.not_lost (h : Happens s a s' o) (hmay : MayKeep s a)
    (hs : Leaving s → s.uart.rxne = false) :
    (Leaving s' → s'.uart.rxne = false) ∧ lostBytes o = [] := by
  cases h with
  | @overrun c hrxne =>
    obtain ⟨hclear, -⟩ := hmay.arrive c rfl
    rw [hrxne] at hclear
    exact absurd hclear (by simp)
  | @arrived c hrxne =>
    obtain ⟨-, hnot⟩ := hmay.arrive c rfl
    exact ⟨fun hleaving => absurd hleaving hnot, rfl⟩
  | drop hhandler hfull => exact absurd hfull (hmay.room _ rfl hhandler)
  | leave hhandler =>
    rw [if_neg (by simp [hs hhandler])]
    exact ⟨fun _ => rfl, rfl⟩
  | loopDone _ hrxne => exact ⟨fun _ => hrxne, rfl⟩
  | enterHandler | fetch | send =>
    refine ⟨fun hleaving => ?_, rfl⟩
    simp [Leaving] at hleaving
  | @transmission e tx o => exact ⟨hs, (quiet_transmission Task o).2.2.2.1⟩
  | _ => exact ⟨hs, rfl⟩

/-- A byte that may not arrive, or finds no room, is lost, or will be when the handler is
left. -/
theorem Happens.lost (h : Happens s a s' o) (hmay : ¬ MayKeep s a) :
    lostBytes o ≠ [] ∨ Leaving s' ∧ s'.uart.rxne = true := by
  cases h with
  | overrun => exact .inl (by simp [lostBytes])
  | drop => exact .inl (by simp [lostBytes])
  | @arrived c hrxne =>
    refine .inr ⟨by_contra fun hnot => hmay ⟨fun _ _ => ⟨hrxne, hnot⟩, nofun⟩, rfl⟩
  | send _ hfull => exact absurd ⟨nofun, fun _ _ _ => hfull⟩ hmay
  | fetch hhandler | loopDone hhandler | leave hhandler =>
    refine absurd ⟨nofun, fun c _ hsend => ?_⟩ hmay
    rw [hhandler] at hsend
    cases hsend
  | _ => exact absurd ⟨nofun, nofun⟩ hmay

/-- A byte that has arrived while the handler was on its way out is lost when it is left. -/
theorem Happens.lost_of_leaving (h : Happens s a s' o) (hs : Leaving s)
    (hrxne : s.uart.rxne = true) : lostBytes o ≠ [] ∨ Leaving s' ∧ s'.uart.rxne = true := by
  cases h with
  | overrun => exact .inl (by simp [lostBytes])
  | leave => exact .inl (by simp [lostBytes, hrxne])
  | arrived hclear => rw [hrxne] at hclear; cases hclear
  | enterHandler _ _ hhandler | fetch hhandler | loopDone hhandler | drop hhandler
  | send hhandler => rw [Leaving, hhandler] at hs; cases hs
  | _ => exact .inr ⟨hs, hrxne⟩

/-- Nothing is lost in a run that ends outside the handler exactly when every byte may be kept. -/
theorem lostBytes_eq_nil_iff (hs : Leaving s → s.uart.rxne = false)
    (hrun : (machine Task rxCapacity txCapacity).exec s as = some (s', os))
    (hend : s'.handler = none) :
    lostBytes os.flatten = [] ↔ (machine Task rxCapacity txCapacity).Along MayKeep s as :=
  Machine.clean_iff_along (fun o => lostBytes o = [])
    (fun s => Leaving s → s.uart.rxne = false) (fun s => Leaving s ∧ s.uart.rxne = true) MayKeep
    rfl (fun o o' => by rw [lostBytes_append, List.append_eq_nil_iff])
    (fun _ _ _ _ hs hmay hstep => (happens_of_step hstep).not_lost hmay hs)
    (fun _ _ _ _ _ hmay hstep => (happens_of_step hstep).lost hmay)
    (fun _ _ _ _ hs hstep => (happens_of_step hstep).lost_of_leaving hs.1 hs.2)
    hs hrun (fun hleaving => by rw [Leaving, hend] at hleaving; cases hleaving.1)

/-- The queue has been found full in a step, or before. -/
theorem Happens.errorState (h : Happens s a s' o) :
    s'.usErrorState = true ↔ s.usErrorState = true ∨ droppedBytes o ≠ [] := by
  cases h with
  | drop => exact iff_of_true rfl (.inr (List.cons_ne_nil _ _))
  | leave => split <;> simp [droppedBytes]
  | @transmission e tx o =>
    obtain ⟨-, -, hdropped, -⟩ := quiet_transmission Task o
    simp [hdropped]
  | _ => simp [droppedBytes, goto]

/-- `usErrorState` tells whether a byte has found the queue full, over a run. -/
theorem usErrorState_iff
    (hrun : (machine Task rxCapacity txCapacity).exec s as = some (s', os)) :
    s'.usErrorState = true ↔ s.usErrorState = true ∨ droppedBytes os.flatten ≠ [] :=
  Machine.invariant_of_outputs (w := [])
    (fun w t => t.usErrorState = true ↔ s.usErrorState = true ∨ droppedBytes w ≠ [])
    (fun _ _ => True)
    (fun w t a t' o hw _ hstep => by
      rw [(happens_of_step hstep).errorState, hw, droppedBytes_append, ne_eq, ne_eq, ne_eq,
        List.append_eq_nil_iff, not_and_or, or_assoc])
    (by simp [droppedBytes]) (Machine.along_of_forall fun _ _ => trivial) hrun

/-- **Reception through the queue over whole runs.**  What the tasks have taken out of the queue,
what is in it, in the hand of the handler and in `DR` is always what arrived with some bytes
left out, in order and none of them twice.  In a run that ends outside the handler, nothing is
left out exactly when no byte arrives while `RXNE` is set or after the handler has last looked
at it, and none finds the queue full; and `usErrorState` tells the latter.
SOURCE: FreeRTOS_stm32f4_uart.c:459-501, IOUtils_CharQueueTxAndRx.h:149-166 -/
theorem received_bytes_of_arrived (hs : s.handler = none)
    (hrun : (machine Task rxCapacity txCapacity).exec s as = some (s', os)) :
    let received := (receivedBytes os.flatten).map Prod.snd ++ s'.queue.items ++ inHand s' ++
      pending s'
    let expected := s.queue.items ++ pending s ++ arrivedBytes os.flatten
    received.Sublist expected ∧
      (s'.handler = none →
        (received = expected ↔ (machine Task rxCapacity txCapacity).Along MayKeep s as)) ∧
      (s'.usErrorState = true ↔ s.usErrorState = true ∨ droppedBytes os.flatten ≠ []) := by
  obtain ⟨hsub, hlen⟩ := accounts_of_exec hrun
  have hhand : inHand s = [] := by rw [inHand, hs]
  have hnot : Leaving s → s.uart.rxne = false := by
    intro hleaving
    rw [Leaving, hs] at hleaving
    cases hleaving
  rw [hhand, List.nil_append] at hsub hlen
  simp only [queue_of_exec hrun, List.append_assoc] at hsub hlen ⊢
  refine ⟨hsub.append_left _, fun hend => ?_, usErrorState_iff hrun⟩
  rw [List.append_cancel_left_eq, ← lostBytes_eq_nil_iff hnot hrun hend, ← List.length_eq_zero_iff]
  constructor
  · intro heq
    rw [heq] at hlen
    omega
  · intro hzero
    rw [hzero, Nat.add_zero] at hlen
    exact hsub.eq_of_length hlen.symm

/-- Two tasks read from a queue of one byte, with the interrupt enabled from before. -/
def twoReaders : CharQueueRx Bool 1 4 := configured true true false

/-- A byte arrives, is queued and taken by one of the tasks; the next one finds the queue full. -/
def oneTaken : List (Event Bool) :=
  [.read true [0, 0], .read false [0], .arrive 5, .enterHandler, .handlerStep, .handlerStep,
    .handlerStep, .handlerStep, .taskStep false false, .taskStep false false, .arrive 6,
    .enterHandler, .handlerStep, .handlerStep, .arrive 7, .handlerStep, .handlerStep, .handlerStep,
    .handlerStep]

/-- One task takes the byte, the other waits. -/
theorem each_byte_to_one_task_twoReaders :
    ∃ s' os, (machine Bool 1 4).exec twoReaders oneTaken = some (s', os) ∧
      (receivedBytes os.flatten).map Prod.snd ++ s'.queue.items =
        twoReaders.queue.items ++ queuedBytes os.flatten ∧
      ∀ task, returnedBytes task os.flatten ++ progress (s'.place task) =
        progress (twoReaders.place task) ++ bytesOf task (receivedBytes os.flatten) ∧
        Fits (s'.place task) := by
  have hrun : (machine Bool 1 4).exec twoReaders oneTaken = some (_, _) := rfl
  exact ⟨_, _, hrun, each_byte_to_one_task (fun _ => trivial) hrun⟩

/-- Of three bytes that arrive one is taken, one is queued and one is dropped. -/
theorem received_bytes_of_arrived_twoReaders :
    ∃ s' os, (machine Bool 1 4).exec twoReaders oneTaken = some (s', os) ∧
      let received := (receivedBytes os.flatten).map Prod.snd ++ s'.queue.items ++ inHand s' ++
        pending s'
      let expected := twoReaders.queue.items ++ pending twoReaders ++ arrivedBytes os.flatten
      received.Sublist expected ∧
        (s'.handler = none →
          (received = expected ↔ (machine Bool 1 4).Along MayKeep twoReaders oneTaken)) ∧
        (s'.usErrorState = true ↔
          twoReaders.usErrorState = true ∨ droppedBytes os.flatten ≠ []) := by
  have hrun : (machine Bool 1 4).exec twoReaders oneTaken = some (_, _) := rfl
  exact ⟨_, _, hrun, received_bytes_of_arrived rfl hrun⟩

/-! ## The interrupt of the receiver -/

/-- The handler is not run for a byte that has been received. -/
def Disabled (s : CharQueueRx Task rxCapacity txCapacity) : Prop :=
  s.uart.rxneie = false ∧ s.handler = none

/-- No statement of the character queue enables the interrupt. -/
theorem Happens.disabled (h : Happens s a s' o) (hs : Disabled s) :
    Disabled s' ∧ queuedBytes o = [] := by
  obtain ⟨hrxneie, hnone⟩ := hs
  cases h with
  | enterHandler _ henabled => rw [hrxneie] at henabled; cases henabled
  | fetch hhandler | loopDone hhandler | drop hhandler | send hhandler | leave hhandler =>
    rw [hnone] at hhandler
    cases hhandler
  | @transmission e tx o => exact ⟨⟨hrxneie, hnone⟩, (quiet_transmission Task o).2.1⟩
  | _ => exact ⟨⟨hrxneie, hnone⟩, rfl⟩

/-- **Nothing is ever received.**  In every run of a UART that has been opened and configured for
a character queue, whatever arrives, is read, written or cleared, the interrupt of the receiver
stays disabled, no byte gets into the queue and no read gets one.
SOURCE: FreeRTOS_stm32f4_uart.c:71-108, 284-298, 337-365, IOUtils_CharQueueTxAndRx.c:140-167 -/
theorem nothing_received_of_configured {tc tcie : Bool}
    (hrun : (machine Task rxCapacity txCapacity).exec (configured false tc tcie) as =
      some (s', os)) :
    Disabled s' ∧ s'.queue.items = [] ∧ ∀ task, returnedBytes task os.flatten = [] := by
  obtain ⟨hdisabled, hqueued⟩ :=
    Machine.invariant_of_outputs (M := machine Task rxCapacity txCapacity) (w := [])
      (fun w t => Disabled t ∧ queuedBytes w = []) (fun _ _ => True)
      (fun w t a t' o hw _ hstep => by
        obtain ⟨ht', ho⟩ := (happens_of_step hstep).disabled hw.1
        rw [queuedBytes_append, hw.2, ho]
        exact ⟨ht', rfl⟩)
      ⟨⟨rfl, rfl⟩, rfl⟩ (Machine.along_of_forall fun _ _ => trivial) hrun
  have hqueue := queue_of_exec hrun
  rw [List.nil_append] at hqueued
  rw [hqueued, List.append_nil] at hqueue
  obtain ⟨hreceived, hempty⟩ := List.append_eq_nil_iff.mp hqueue
  refine ⟨hdisabled, hempty, fun task => ?_⟩
  have htask := task_of_exec (s := configured false tc tcie) (fun _ => trivial) hrun task
  rw [List.map_eq_nil_iff.mp hreceived] at htask
  exact (List.append_eq_nil_iff.mp htask.1).1

/-- Two bytes arrive while two tasks read, and neither gets one. -/
theorem nothing_received_of_configured_twoReaders :
    ∃ s' os, (machine Bool 1 4).exec (configured false true true)
        [.read true [0, 0], .arrive 5, .read false [0], .arrive 6, .taskStep true true,
          .taskStep true true] = some (s', os) ∧
      Disabled s' ∧ s'.queue.items = [] ∧ ∀ task, returnedBytes task os.flatten = [] := by
  have hrun : (machine Bool 1 4).exec (configured false true true)
      [.read true [0, 0], .arrive 5, .read false [0], .arrive 6, .taskStep true true,
        .taskStep true true] = some (_, _) := rfl
  exact ⟨_, _, hrun, nothing_received_of_configured hrun⟩

end CharQueueRx

end Resmod.Analysis
