import Resmod.Model.TaskList

/-!
# Starting tasks that cannot be created

`TaskStart` and `TaskStop` once more, with what `TaskList` leaves out: `xTaskCreate` can
fail, the node of a task has a null handle until it has succeeded, both functions return a
`Status`, and `vTaskDelete` of a null handle deletes the calling task.

A handle is an `Option η` here, `none` for `nullptr`.  Where every creation succeeds and no
task stops itself this is the model of `TaskList` (`taskStart_created`, `taskStop_other`).
-/

set_option autoImplicit false

namespace Resmod.Model.TaskCreation

open Resmod.Library

/-- `adara::rtos::Status`
SOURCE: rtos.h:41-46 -/
inductive Status
  | kOk
  | kRunTimeError
  | kTimeout
  | kNotSupported
  deriving DecidableEq, Repr

/-- What a call does besides changing the state: what it calls `vTaskDelete` with, and what
it returns if it does. -/
inductive Output (η : Type*)
  | vTaskDelete (thandle : Option η)
  | status (s : Status)
  deriving DecidableEq, Repr

/-- The output is the status of a call. -/
def Output.isStatus {η : Type*} : Output η → Bool
  | .vTaskDelete _ => false
  | .status _ => true

variable {τ η : Type*}

/-- `TaskStart`, for which `xTaskCreate` gives out a handle or fails.  Its result is not
looked at, and when it fails the handle of the node is what the node was made with.
SOURCE: rtos.cc:41-59 -/
def taskStart (s : FreeRTOS τ (Option η)) (task : τ) (result : Option η) :
    FreeRTOS τ (Option η) × Status :=
  let s := { s with tasklist := s.tasklist ++ [⟨task, result⟩] }
  match result with
  | none => (s, .kOk)
  | some thandle =>
    ({ s with
      live := s.live ++ [⟨task, some thandle⟩]
      created := some thandle :: s.created }, .kOk)

variable [DecidableEq τ] [DecidableEq η]

/-- `TaskStop`, called by the task `caller`.  When that is the task that is deleted,
`vTaskDelete` does not return: the node stays, and nothing is returned.
SOURCE: rtos.cc:61-73 -/
def taskStop (s : FreeRTOS τ (Option η)) (caller : η) (task : τ) :
    FreeRTOS τ (Option η) × List (Output η) :=
  match s.findTask task with
  | none => (s, [.status .kRunTimeError])
  | some n =>
    let deleted := n.thandle.getD caller
    let s := s.vTaskDelete (some deleted)
    if deleted = caller then (s, [.vTaskDelete n.thandle])
    else (s.eraseTask task, [.vTaskDelete n.thandle, .status .kOk])

/-- What can happen next. -/
inductive Event (τ η : Type*)
  /-- `TaskStart` of an object, and what `xTaskCreate` does for it. -/
  | start (task : τ) (result : Option η)
  /-- `TaskStop` of an object. -/
  | stop (caller : η) (task : τ)
  /-- `Task()` returns in a task, which then stops its own object.
  SOURCE: rtos.cc:86-90 -/
  | taskReturns (self : η)

/-- Any sequence of calls and returns.  Only a task that runs calls, and a handle is given
out once. -/
def machine : Machine (FreeRTOS τ (Option η)) (Event τ η) (Output η) where
  step s
    | .start task result =>
      if s.exited = true ∨ result.isSome = true ∧ result ∈ s.created then none
      else
        let r := taskStart s task result
        some (r.1, [.status r.2])
    | .stop caller task =>
      if s.exited = true ∨ some caller ∉ s.live.map (·.thandle) then none
      else some (taskStop s caller task)
    | .taskReturns self =>
      if s.exited = true then none
      else (s.live.find? fun n => n.thandle = some self).map fun n =>
        let r := taskStop s self n.task
        -- a task function that goes on after `TaskStop` returns to the kernel
        if r.2.any Output.isStatus then
          ({ r.1.vTaskDelete (some self) with exited := true }, r.2)
        else r

omit [DecidableEq τ] [DecidableEq η] in
/-- A creation that succeeds is a start of the list without failures. -/
theorem taskStart_created (s : FreeRTOS τ (Option η)) (task : τ) (thandle : η) :
    taskStart s task (some thandle) = (s.taskStart task (some thandle), .kOk) := rfl

/-- Stopping a task other than the caller is the stop of the list without failures. -/
theorem taskStop_other {s : FreeRTOS τ (Option η)} {caller thandle : η} {task : τ}
    {n : TaskNode τ (Option η)} (hfind : s.findTask task = some n)
    (hhandle : n.thandle = some thandle) (hother : thandle ≠ caller) :
    (taskStop s caller task).1 = (s.taskStop task).1 := by
  simp only [taskStop, FreeRTOS.taskStop, hfind, hhandle, Option.getD_some, if_neg hother]

/-- What is deleted is the caller, for a node without a handle. -/
theorem taskStop_null {s : FreeRTOS τ (Option η)} (caller : η) {task : τ}
    {n : TaskNode τ (Option η)} (hfind : s.findTask task = some n)
    (hhandle : n.thandle = none) :
    taskStop s caller task = (s.vTaskDelete (some caller), [.vTaskDelete none]) := by
  simp only [taskStop, hfind, hhandle, Option.getD_none, if_true]

end Resmod.Model.TaskCreation
