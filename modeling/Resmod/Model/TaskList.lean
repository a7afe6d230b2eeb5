import Resmod.Library.Machine

/-!
# The list of started tasks

The part of the class `FreeRTOS` of `port/freertos/rtos.cc` that starts and stops tasks,
and `FreeRTOS_TaskEntry`, in which every started task runs.  Besides the member
`tasklist_` the state has the tasks that the kernel runs and the handles it has given out.
One `TaskInterface` object can be started any number of times.  A task ends when it is
deleted or when its method `Task()` returns.

The outputs of a step are the handles it calls `vTaskDelete` with.
-/

set_option autoImplicit false

namespace Resmod.Model

open Resmod.Library

/-- `FreeRTOS::TaskNode`, for objects `τ` and handles `η`. -/
structure TaskNode (τ η : Type*) where
  task : τ
  thandle : η
  deriving DecidableEq, Repr

/-- The list of the port, and what the kernel runs. -/
structure FreeRTOS (τ η : Type*) where
  tasklist : List (TaskNode τ η)
  /-- The tasks that the kernel runs, each with the object whose `Task()` it runs. -/
  live : List (TaskNode τ η)
  /-- The handles that `xTaskCreate` has given out. -/
  created : List η
  /-- A task function has returned to the kernel, which stops the system there. -/
  exited : Bool

namespace FreeRTOS

variable {τ η : Type*} [DecidableEq τ] [DecidableEq η]

/-- What can happen next. -/
inductive Event (τ η : Type*)
  /-- `TaskStart` of an object, for which `xTaskCreate` gives out the handle. -/
  | start (task : τ) (thandle : η)
  /-- The method `Task()` returns, in the task with this handle. -/
  | taskReturns (thandle : η)
  /-- `TaskStop` of an object, called by a task other than the one it finds. -/
  | stop (task : τ)

/-- Before any task has been created. -/
def initial : FreeRTOS τ η := ⟨[], [], [], false⟩

/-- `vTaskDelete`, as far as the tasks that run are concerned. -/
def vTaskDelete (s : FreeRTOS τ η) (thandle : η) : FreeRTOS τ η :=
  { s with live := s.live.filter fun n => n.thandle ≠ thandle }

/-- The search of `TaskStop`. -/
def findTask (s : FreeRTOS τ η) (task : τ) : Option (TaskNode τ η) :=
  s.tasklist.find? fun n => n.task = task

/-- `tasklist_.erase` of the node that the search has found. -/
def eraseTask (s : FreeRTOS τ η) (task : τ) : FreeRTOS τ η :=
  { s with tasklist := s.tasklist.eraseP fun n => n.task = task }

/-- `TaskStart`
SOURCE: rtos.cc:41-59 -/
def taskStart (s : FreeRTOS τ η) (task : τ) (thandle : η) : FreeRTOS τ η :=
  { s with
    tasklist := s.tasklist ++ [⟨task, thandle⟩]
    live := s.live ++ [⟨task, thandle⟩]
    created := thandle :: s.created }

/-- `TaskStop`, called by another task.
SOURCE: rtos.cc:61-73 -/
def taskStop (s : FreeRTOS τ η) (task : τ) : FreeRTOS τ η × List η :=
  match s.findTask task with
  | none => (s, [])
  | some n => ((s.vTaskDelete n.thandle).eraseTask task, [n.thandle])

/-- The end of `FreeRTOS_TaskEntry`: `TaskStop` with the object of the task itself.  When it
finds the node of the calling task, `vTaskDelete` does not return; otherwise the task
function returns after it.
SOURCE: rtos.cc:86-90 -/
def taskEntryEnd (s : FreeRTOS τ η) (self : TaskNode τ η) : FreeRTOS τ η × List η :=
  match s.findTask self.task with
  | none => ({ s.vTaskDelete self.thandle with exited := true }, [])
  | some n =>
    if n.thandle = self.thandle then (s.vTaskDelete self.thandle, [self.thandle])
    else
      ({ ((s.vTaskDelete self.thandle).vTaskDelete n.thandle).eraseTask self.task with
        exited := true }, [n.thandle])

/-- Any sequence of calls and returns.  A handle is given out once, and a task that does not
run does not return. -/
def machine : Machine (FreeRTOS τ η) (Event τ η) η where
  step s
    | .start task thandle =>
      if s.exited ∨ thandle ∈ s.created then none
      else some (s.taskStart task thandle, [])
    | .taskReturns thandle =>
      if s.exited then none
      else (s.live.find? fun n => n.thandle = thandle).map s.taskEntryEnd
    | .stop task => if s.exited then none else some (s.taskStop task)

end FreeRTOS

end Resmod.Model
