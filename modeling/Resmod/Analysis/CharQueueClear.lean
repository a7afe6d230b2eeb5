import Resmod.Analysis.CharQueueRx
import Mathlib.Data.List.Perm.Basic

/-!
# What a clear of the reception takes

`xIOUtilsClearRxCharQueue` resets the queue of `pxTxControl`.  Over whole runs the bytes that
`FreeRTOS_UART_write` has put into that queue are those stored into `DR`, those on the way
there, those still queued, and those that clears have found; and a clear takes nothing of what
has been received.
-/

set_option autoImplicit false

namespace Resmod.Analysis

open Resmod.Library Resmod.Model

namespace CharQueueRx

open Resmod.Model.CharQueueRx

/-! ## The bytes of the transmission -/

/-- The bytes that `xQueueSend` has accepted. -/
def acceptedBytes (os : List CharQueueTx.Output) : List UInt8 :=
  os.filterMap fun o => match o with
    | .accepted c => some c
    | _ => none

/-- The bytes that have been stored into `DR`. -/
def storedBytes (os : List CharQueueTx.Output) : List UInt8 :=
  os.filterMap fun o => match o with
    | .stored c => some c
    | _ => none

/-- The bytes accepted in one part of a run and the next. -/
@[simp] theorem acceptedBytes_append (v w : List CharQueueTx.Output) :
    acceptedBytes (v ++ w) = acceptedBytes v ++ acceptedBytes w := List.filterMap_append

/-- The bytes stored in one part of a run and the next. -/
@[simp] theorem storedBytes_append (v w : List CharQueueTx.Output) :
    storedBytes (v ++ w) = storedBytes v ++ storedBytes w := List.filterMap_append

section Transmission

open Resmod.Model.CharQueueTx

variable {capacity : ℕ} {s s' : CharQueueTx capacity} {o : List CharQueueTx.Output}

/-- What a step does to the bytes of the transmission: those accepted, and queued or on the way
before, are those stored, and on the way or queued afterwards. -/
def Moves (s s' : CharQueueTx capacity) (o : List CharQueueTx.Output) : Prop :=
  (Analysis.inHand s ++ s.queue.items ++ acceptedBytes o).Perm
    (storedBytes o ++ Analysis.inHand s' ++ s'.queue.items)

/-- A step that neither queues a byte nor takes one. -/
theorem moves_of_same (hqueue : s'.queue.items = s.queue.items)
    (hhand : Analysis.inHand s' = Analysis.inHand s) (haccepted : acceptedBytes o = [])
    (hstored : storedBytes o = []) : Moves s s' o := by
  rw [Moves, hqueue, hhand, haccepted, hstored, List.append_nil, List.nil_append]

/-- The task moves a byte from one place to the next, or none. -/
theorem moves_of_taskStep {expired : Bool} (h : s.taskStep expired = some (s', o)) :
    Moves s s' o := by
  unfold CharQueueTx.taskStep at h
  cases hp : s.place with
  | outside => simp [hp] at h
  | enableIT b =>
    rw [hp] at h
    cases h
    exact moves_of_same rfl (by simp [Analysis.inHand, heldByTask, hp]) rfl rfl
  | send b i =>
    rw [hp] at h
    cases hc : b[i]? with
    | none =>
      simp only [hc] at h
      cases h
      exact moves_of_same rfl (by simp [Analysis.inHand, heldByTask, hp]) rfl rfl
    | some c =>
      simp only [hc] at h
      by_cases hfull : s.queue.Full
      · simp only [hfull, if_true] at h
        obtain ⟨-, h⟩ := Option.ite_none_right_eq_some.mp h
        cases h
        exact moves_of_same rfl (by simp [Analysis.inHand, heldByTask, hp]) rfl rfl
      · rw [if_neg hfull] at h
        cases h
        simp only [Moves, BoundedQueue.items_send_of_not_full hfull, Analysis.inHand, heldByTask,
          hp]
        exact .of_eq (List.append_assoc _ _ _)
  | testTxe b i =>
    rw [hp] at h
    cases h
    refine moves_of_same rfl ?_ rfl rfl
    simp only [Analysis.inHand, hp]
    split <;> rfl
  | receive b i =>
    rw [hp] at h
    cases hreceive : s.queue.receive with
    | none =>
      simp only [hreceive] at h
      obtain ⟨-, h⟩ := Option.ite_none_right_eq_some.mp h
      cases h
      exact moves_of_same rfl (by simp [Analysis.inHand, heldByTask, hp]) rfl rfl
    | some r =>
      simp only [hreceive] at h
      cases h
      simp only [Moves, BoundedQueue.items_of_receive hreceive, Analysis.inHand, heldByTask, hp]
      exact .of_eq (by simp [acceptedBytes, storedBytes])
  | peripheralWrite b i c =>
    rw [hp] at h
    cases h
    simp only [Moves, Analysis.inHand, heldByTask, hp]
    simp [acceptedBytes, storedBytes]
  | checkForTimeOut b i =>
    rw [hp] at h
    simp only at h
    split_ifs at h <;> cases h <;>
      exact moves_of_same rfl (by simp [Analysis.inHand, heldByTask, hp]) rfl rfl

/-- The handler moves a byte from one place to the next, or none. -/
theorem moves_of_handlerStep (h : s.handlerStep = some (s', o)) : Moves s s' o := by
  unfold CharQueueTx.handlerStep at h
  cases hhandler : s.handler with
  | none => simp [hhandler] at h
  | some place =>
    rw [hhandler] at h
    cases place with
    | receiveFromISR =>
      cases hreceive : s.queue.receive with
      | none =>
        simp only [hreceive] at h
        cases h
        exact moves_of_same rfl (by simp [Analysis.inHand, heldByHandler, hhandler]) rfl rfl
      | some r =>
        simp only [hreceive] at h
        cases h
        simp only [Moves, BoundedQueue.items_of_receive hreceive, Analysis.inHand, heldByHandler,
          hhandler]
        simp [acceptedBytes, storedBytes]
    | transmit c =>
      cases h
      simp only [Moves, Analysis.inHand, heldByHandler, hhandler]
      exact .of_eq (by simp [acceptedBytes, storedBytes])
    | clearITPendingBit =>
      cases h
      exact moves_of_same rfl (by simp [Analysis.inHand, heldByHandler, hhandler]) rfl rfl

/-- A step of the transmission moves a byte from one place to the next, or none. -/
theorem moves_of_step {e : CharQueueTx.Event}
    (h : (CharQueueTx.machine capacity).step s e = some (s', o)) : Moves s s' o := by
  cases e with
  | write b =>
    obtain ⟨⟨hp, -⟩, h⟩ := Option.ite_none_right_eq_some.mp h
    cases h
    exact moves_of_same rfl (by simp [Analysis.inHand, heldByTask, hp]) rfl rfl
  | taskStep expired => exact moves_of_taskStep (Option.ite_none_right_eq_some.mp h).2
  | shiftOut =>
    obtain ⟨u, -, h⟩ := Option.map_eq_some_iff.mp h
    cases h
    exact moves_of_same rfl rfl rfl rfl
  | enterHandler =>
    obtain ⟨⟨-, -, hhandler⟩, h⟩ := Option.ite_none_right_eq_some.mp h
    cases h
    exact moves_of_same rfl (by simp [Analysis.inHand, heldByHandler, hhandler]) rfl rfl
  | handlerStep => exact moves_of_handlerStep h

end Transmission

/-! ## With the clears -/

section Clears

variable {Task : Type*}

/-- What the transmission has done. -/
def transmissions (os : List (Output Task)) : List CharQueueTx.Output :=
  os.filterMap fun o => match o with
    | .transmission o => some o
    | _ => none

/-- The bytes that clears have found in the queue. -/
def clearedBytes (os : List (Output Task)) : List UInt8 :=
  os.flatMap fun o => match o with
    | .cleared items => items
    | _ => []

/-- What the transmission does in one part of a run and the next. -/
@[simp] theorem transmissions_append (v w : List (Output Task)) :
    transmissions (v ++ w) = transmissions v ++ transmissions w := List.filterMap_append

/-- The bytes cleared in one part of a run and the next. -/
@[simp] theorem clearedBytes_append (v w : List (Output Task)) :
    clearedBytes (v ++ w) = clearedBytes v ++ clearedBytes w := List.flatMap_append

/-- What the transmission puts out is what the step of the whole puts out. -/
theorem transmissions_map (o : List CharQueueTx.Output) :
    transmissions (o.map .transmission : List (Output Task)) = o := by
  simp [transmissions, List.filterMap_map]

/-- The transmission clears nothing. -/
theorem clearedBytes_map (o : List CharQueueTx.Output) :
    clearedBytes (o.map .transmission : List (Output Task)) = [] := by
  simp [clearedBytes]

variable {rxCapacity txCapacity : ℕ} {s s' t : CharQueueRx Task rxCapacity txCapacity}
  {w o : List (Output Task)}

/-- As `Moves`, with the bytes that clears have taken. -/
def ClearAccounts (s s' : CharQueueRx Task rxCapacity txCapacity) (o : List (Output Task)) :
    Prop :=
  (Analysis.inHand s.tx ++ s.tx.queue.items ++ acceptedBytes (transmissions o)).Perm
    (storedBytes (transmissions o) ++ Analysis.inHand s'.tx ++ s'.tx.queue.items ++ clearedBytes o)

/-- A step of the reception. -/
theorem clearAccounts_of_same (htx : s'.tx = s.tx) (ho : transmissions o = [])
    (hcleared : clearedBytes o = []) : ClearAccounts s s' o := by
  rw [ClearAccounts, htx, ho, hcleared]
  exact .of_eq (List.append_assoc [] _ _).symm

/-- The accounts of a run and of a step after it. -/
theorem ClearAccounts.append (h : ClearAccounts s t w) (h' : ClearAccounts t s' o) :
    ClearAccounts s s' (w ++ o) := by
  rw [ClearAccounts, transmissions_append, clearedBytes_append, acceptedBytes_append,
    storedBytes_append]
  refine List.perm_iff_count.mpr fun c => ?_
  have hw := List.perm_iff_count.mp h c
  have ho := List.perm_iff_count.mp h' c
  simp only [List.count_append] at hw ho ⊢
  omega

variable [DecidableEq Task] {a : Event Task} {as : List (Event Task)}
  {os : List (List (Output Task))}

/-- The account of a step. -/
theorem Happens.clearAccounts (h : Happens s a s' o) : ClearAccounts s s' o := by
  cases h with
  | clear =>
    simp [ClearAccounts, transmissions, clearedBytes, acceptedBytes, storedBytes,
      BoundedQueue.empty, Analysis.inHand]
  | transmission hstep =>
    rw [ClearAccounts, transmissions_map, clearedBytes_map, List.append_nil]
    exact moves_of_step hstep
  | leave => split <;> exact clearAccounts_of_same rfl rfl rfl
  | _ => exact clearAccounts_of_same rfl rfl rfl

/-- **A clear of the reception takes bytes of the transmission.**  In every run the bytes that
writes have put into the queue of `pxTxControl` are those stored into `DR`, those on the way
there, those queued, and those that clears have found; while the bytes received are all taken
by reads or still queued, whatever is cleared.
SOURCE: FreeRTOS_DriverInterface.c:310-316, IOUtils_CharQueueTxAndRx.c:226-232 -/
theorem cleared_bytes_of_accepted
    (hrun : (machine Task rxCapacity txCapacity).exec s as = some (s', os)) :
    (Analysis.inHand s.tx ++ s.tx.queue.items ++ acceptedBytes (transmissions os.flatten)).Perm
        (storedBytes (transmissions os.flatten) ++ Analysis.inHand s'.tx ++ s'.tx.queue.items ++
          clearedBytes os.flatten) ∧
      (receivedBytes os.flatten).map Prod.snd ++ s'.queue.items =
        s.queue.items ++ queuedBytes os.flatten :=
  ⟨Machine.invariant_of_outputs (w := []) (fun w t => ClearAccounts s t w) (fun _ _ => True)
    (fun _ _ _ _ _ hw _ hstep => hw.append (happens_of_step hstep).clearAccounts)
    (clearAccounts_of_same rfl rfl rfl) (Machine.along_of_forall fun _ _ => trivial) hrun,
    queue_of_exec hrun⟩

/-- A write has put a byte into the queue when the reception is cleared. -/
theorem cleared_bytes_of_accepted_twoReaders :
    ∃ s' os, (machine Bool 1 4).exec twoReaders
        [.transmission (.write [1, 2]), .transmission (.taskStep false),
          .transmission (.taskStep false), .clear] = some (s', os) ∧
      (Analysis.inHand twoReaders.tx ++ twoReaders.tx.queue.items ++
          acceptedBytes (transmissions os.flatten)).Perm
        (storedBytes (transmissions os.flatten) ++ Analysis.inHand s'.tx ++ s'.tx.queue.items ++
          clearedBytes os.flatten) ∧
      (receivedBytes os.flatten).map Prod.snd ++ s'.queue.items =
        twoReaders.queue.items ++ queuedBytes os.flatten := by
  have hrun : (machine Bool 1 4).exec twoReaders
      [.transmission (.write [1, 2]), .transmission (.taskStep false),
        .transmission (.taskStep false), .clear] = some (_, _) := rfl
  exact ⟨_, _, hrun, cleared_bytes_of_accepted hrun⟩

end Clears

end CharQueueRx

end Resmod.Analysis
