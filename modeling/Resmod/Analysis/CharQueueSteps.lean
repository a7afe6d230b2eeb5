import Resmod.Model.CharQueueTx

/-!
# The steps until the next call

Between two calls of `FreeRTOS_UART_write` only so much can happen: the task goes once over
its buffer, a queued byte is taken once, a stored one is shifted out once, and `TC` is raised
and served once for each frame that ends.  `remaining` counts these steps, the most that a
byte can still cause, and every step but a call makes it smaller.
-/

set_option autoImplicit false

namespace Resmod.Analysis

open Resmod.Library Resmod.Model Resmod.Model.CharQueueTx

variable {capacity : ℕ} {s s' : CharQueueTx capacity} {o : List Output}

/-- The statements that the task has before it, with the steps that the bytes cause which it
has not queued yet. -/
def remainingOfTask : Place → ℕ
  | .outside => 0
  | .enableIT b => 2 + 14 * b.length
  | .send b i => 1 + 14 * (b.length - i)
  | .testTxe b i => 9 + 14 * (b.length - (i + 1))
  | .receive b i => 8 + 14 * (b.length - (i + 1))
  | .peripheralWrite b i _ => 7 + 14 * (b.length - (i + 1))
  | .checkForTimeOut b i => 2 + 14 * (b.length - (i + 1))

/-- The statements that the handler has before it; it will be entered if `TC` is set. -/
def remainingOfHandler (tc : Bool) : Option HandlerPlace → ℕ
  | none => if tc = true then 3 else 0
  | some .receiveFromISR => 2
  | some (.transmit _) => 6
  | some .clearITPendingBit => 1

/-- The bytes in the transmitter. -/
def frames (u : Uart) : ℕ := u.shift.toList.length + u.dr.toList.length

/-- A bound on the steps until nothing happens any more, were there no other call. -/
def remaining (s : CharQueueTx capacity) : ℕ :=
  remainingOfTask s.place + 5 * s.queue.items.length + 4 * frames s.uart +
    remainingOfHandler s.uart.tc s.handler

/-- A store adds at most one frame. -/
theorem frames_store_le (u : Uart) (c : UInt8) : frames (u.store c) ≤ frames u + 1 := by
  unfold Uart.store
  cases hshift : u.shift with
  | none =>
    simp only [frames, hshift, Option.toList_none, Option.toList_some, List.length_nil,
      List.length_singleton]
    omega
  | some b =>
    simp only [frames, hshift, Option.toList_some, List.length_singleton]
    omega

/-- The end of a frame takes one away. -/
theorem frames_shiftOut {u v : Uart} (h : u.shiftOut = some v) : frames u = frames v + 1 := by
  obtain ⟨b, hshift, rfl⟩ := Option.map_eq_some_iff.mp h
  simp only [frames, hshift, Option.toList_none, Option.toList_some, List.length_nil,
    List.length_singleton]
  omega

/-- A byte that is taken leaves one less. -/
theorem length_of_receive {q r : BoundedQueue UInt8 capacity} {c : UInt8}
    (h : q.receive = some (c, r)) : q.items.length = r.items.length + 1 := by
  rw [BoundedQueue.items_of_receive h, List.length_cons]

/-- With `TC` clear the handler is not entered. -/
theorem remainingOfHandler_clear_le (tc : Bool) (h : Option HandlerPlace) :
    remainingOfHandler false h ≤ remainingOfHandler tc h := by
  cases h with
  | none => exact Nat.zero_le _
  | some place => cases place <;> exact Nat.le_refl _

/-- Another `TC` costs at most one entry. -/
theorem remainingOfHandler_le_add (tc tc' : Bool) (h : Option HandlerPlace) :
    remainingOfHandler tc h ≤ remainingOfHandler tc' h + 3 := by
  cases h with
  | none => cases tc <;> cases tc' <;> decide
  | some place => cases place <;> simp [remainingOfHandler]

/-- A store clears `TC`. -/
theorem store_tc (u : Uart) (c : UInt8) : (u.store c).tc = false := by
  unfold Uart.store
  cases u.shift <;> rfl

/-! ## The steps of the task, of the handler and of the transmitter -/

/-- A step that only moves the task. -/
theorem remaining_goto {place : Place} (h : remainingOfTask place < remainingOfTask s.place) :
    remaining { s with place := place } < remaining s := by
  simp only [remaining]
  omega

/-- Every statement of the task leaves less to be done. -/
theorem remaining_of_taskStep {expired : Bool} (hs : s.taskStep expired = some (s', o)) :
    remaining s' < remaining s := by
  unfold CharQueueTx.taskStep at hs
  cases hp : s.place with
  | outside => simp [hp] at hs
  | enableIT b =>
    rw [hp] at hs
    cases hs
    simp only [remaining, hp, remainingOfTask, frames]
    omega
  | send b i =>
    rw [hp] at hs
    cases hc : b[i]? with
    | none =>
      simp only [hc] at hs
      cases hs
      exact remaining_goto (by simp only [hp, remainingOfTask]; omega)
    | some c =>
      obtain ⟨hi, -⟩ := List.getElem?_eq_some_iff.mp hc
      simp only [hc] at hs
      by_cases hfull : s.queue.Full
      · simp only [hfull, if_true] at hs
        cases expired with
        | false => simp at hs
        | true =>
          cases hs
          exact remaining_goto (by simp only [hp, remainingOfTask]; omega)
      · rw [if_neg hfull] at hs
        cases hs
        -- The queued byte can be taken, stored and shifted out, and raise `TC`.
        simp only [remaining, hp, remainingOfTask, BoundedQueue.items_send_of_not_full hfull,
          List.length_append, List.length_singleton]
        omega
  | testTxe b i =>
    rw [hp] at hs
    cases hs
    refine remaining_goto ?_
    rw [hp]
    split <;> simp only [remainingOfTask] <;> omega
  | receive b i =>
    rw [hp] at hs
    cases hreceive : s.queue.receive with
    | none =>
      simp only [hreceive] at hs
      cases expired with
      | false => simp at hs
      | true =>
        cases hs
        exact remaining_goto (by simp only [hp, remainingOfTask]; omega)
    | some r =>
      simp only [hreceive] at hs
      cases hs
      have hlength := length_of_receive hreceive
      simp only [remaining, hp, remainingOfTask]
      omega
  | peripheralWrite b i c =>
    rw [hp] at hs
    cases hs
    have hframes := frames_store_le s.uart c
    have hhandler := remainingOfHandler_clear_le s.uart.tc s.handler
    simp only [remaining, hp, remainingOfTask, store_tc]
    omega
  | checkForTimeOut b i =>
    rw [hp] at hs
    cases expired with
    | false =>
      cases hs
      exact remaining_goto (by simp only [hp, remainingOfTask]; omega)
    | true =>
      cases hs
      exact remaining_goto (by simp only [hp, remainingOfTask]; omega)

/-- Every statement of the handler leaves less to be done. -/
theorem remaining_of_handlerStep (hs : s.handlerStep = some (s', o)) :
    remaining s' < remaining s := by
  unfold CharQueueTx.handlerStep at hs
  cases hhandler : s.handler with
  | none => simp [hhandler] at hs
  | some place =>
    rw [hhandler] at hs
    cases place with
    | receiveFromISR =>
      cases hreceive : s.queue.receive with
      | none =>
        simp only [hreceive] at hs
        cases hs
        simp only [remaining, hhandler, remainingOfHandler]
        omega
      | some r =>
        simp only [hreceive] at hs
        cases hs
        have hlength := length_of_receive hreceive
        simp only [remaining, hhandler, remainingOfHandler]
        omega
    | transmit c =>
      cases hs
      have hframes := frames_store_le s.uart c
      simp only [remaining, hhandler, remainingOfHandler]
      omega
    | clearITPendingBit =>
      cases hs
      simp only [remaining, hhandler, remainingOfHandler, frames, Bool.false_eq_true, if_false]
      omega

/-- Every step but a call leaves less to be done. -/
theorem remaining_lt {a : Event} (hs : (machine capacity).step s a = some (s', o))
    (ha : ∀ b, a ≠ .write b) : remaining s' < remaining s := by
  unfold machine at hs
  cases a with
  | write b => exact absurd rfl (ha b)
  | taskStep expired =>
    simp only [Option.ite_none_right_eq_some] at hs
    exact remaining_of_taskStep hs.2
  | shiftOut =>
    simp only [Option.map_eq_some_iff] at hs
    obtain ⟨u, hu, hs⟩ := hs
    cases hs
    have hframes := frames_shiftOut hu
    have htc := remainingOfHandler_le_add u.tc s.uart.tc s.handler
    simp only [remaining]
    omega
  | enterHandler =>
    simp only [Option.ite_none_right_eq_some] at hs
    obtain ⟨⟨htc, -, hhandler⟩, hs⟩ := hs
    cases hs
    simp only [remaining, hhandler, htc, remainingOfHandler, if_true]
    omega
  | handlerStep => exact remaining_of_handlerStep hs

end Resmod.Analysis
