import Resmod.Model.TaskCreation

/-!
# A task start that fails

A `TaskStart` whose task cannot be created should report it and leave the list of tasks
alone.  `NoEffect` says so, together with what depends on it: no later `TaskStop` of the
object deletes the task of another.

`TaskStart` reports success in every case and keeps the node, which has no handle.
`failed_start_has_effect` says this of every state, and that the node is found in the end:
any other task that goes on stopping the object is deleted itself.
-/

set_option autoImplicit false

namespace Resmod.Analysis

open Resmod.Library Resmod.Model
open Resmod.Model.TaskCreation (Output Event Status)

variable {τ η : Type*} [DecidableEq τ] [DecidableEq η]

/-- A `TaskStop` of the object deletes only tasks of the object, and calls `vTaskDelete`
with the handle of a task. -/
def StopsOwn (task : τ) (s : FreeRTOS τ (Option η)) (e : Event τ η)
    (s' : FreeRTOS τ (Option η)) (o : List (Output η)) : Prop :=
  ∀ caller, e = .stop caller task →
    .vTaskDelete none ∉ o ∧ ∀ n ∈ s.live, n ∉ s'.live → n.task = task

/-- A `TaskStart` of the object for which `xTaskCreate` fails has no effect. -/
structure NoEffect (s : FreeRTOS τ (Option η)) (task : τ) : Prop where
  status : (TaskCreation.taskStart s task none).2 ≠ .kOk
  tasklist : (TaskCreation.taskStart s task none).1.tasklist = s.tasklist
  stops : ∀ events, TaskCreation.machine.Always (StopsOwn task)
    (TaskCreation.taskStart s task none).1 events

/-- A task that runs another object, under a handle that no node of this object has. -/
structure Bystander (s : FreeRTOS τ (Option η)) (task : τ) (n : TaskNode τ (Option η)) :
    Prop where
  live : n ∈ s.live
  other : n.task ≠ task
  thandle : n.thandle ≠ none
  unlisted : ∀ m ∈ s.tasklist, m.task = task → m.thandle ≠ n.thandle

/-- The nodes that were not found stay when the one that was found is erased. -/
theorem mem_eraseP_of_ne {α : Type*} {l : List α} {p : α → Bool} {a b : α}
    (hfind : l.find? p = some a) (hb : b ∈ l) (hne : b ≠ a) : b ∈ l.eraseP p := by
  induction l with
  | nil => exact hb
  | cons c l ih =>
    cases hc : p c with
    | true =>
      rw [List.find?_cons_of_pos hc] at hfind
      rw [List.eraseP_cons_of_pos hc]
      rcases List.mem_cons.mp hb with rfl | hb
      · exact absurd (Option.some.inj hfind) hne
      · exact hb
    | false =>
      rw [List.find?_cons_of_neg (by simp [hc])] at hfind
      rw [List.eraseP_cons_of_neg (by simp [hc]), List.mem_cons]
      rcases List.mem_cons.mp hb with hb | hb
      · exact .inl hb
      · exact .inr (ih hfind hb)

omit [DecidableEq η] in
/-- A node of the object belongs to another task than the bystander. -/
theorem Bystander.thandle_ne {s : FreeRTOS τ (Option η)} {task : τ}
    {n m : TaskNode τ (Option η)} {caller thandle : η} (hn : Bystander s task n)
    (hcaller : n.thandle = some caller) (hfind : s.findTask task = some m)
    (hhandle : m.thandle = some thandle) : thandle ≠ caller := by
  have hfound := List.find?_some hfind
  intro heq
  apply hn.unlisted m (List.mem_of_find?_eq_some hfind)
  · exact of_decide_eq_true hfound
  · rw [hhandle, hcaller, heq]

/-- The bystander goes on when a node of the object is stopped. -/
theorem Bystander.stopped {s : FreeRTOS τ (Option η)} {task : τ}
    {n m : TaskNode τ (Option η)} {thandle : η} (hn : Bystander s task n)
    (hfind : s.findTask task = some m) (hhandle : m.thandle = some thandle) :
    Bystander ((s.vTaskDelete (some thandle)).eraseTask task) task n := by
  obtain ⟨caller, hcaller⟩ := Option.ne_none_iff_exists'.mp hn.thandle
  constructor
  · apply List.mem_filter.mpr ⟨hn.live, ?_⟩
    rw [hcaller]
    apply decide_eq_true
    intro heq
    exact hn.thandle_ne hcaller hfind hhandle (Option.some.inj heq).symm
  · exact hn.other
  · exact hn.thandle
  · intro l hl
    exact hn.unlisted l (List.eraseP_sublist.subset hl)

/-- **The node without a handle is found in the end.**  The induction is on the length of
the list: a stop that does not delete the caller erases a node.
SOURCE: rtos.cc:61-73 -/
theorem stops_end_in_caller (task : τ) (k : ℕ) {s : FreeRTOS τ (Option η)}
    {n : TaskNode τ (Option η)} (hk : s.tasklist.length = k) (hrun : s.exited = false)
    (hnull : ⟨task, none⟩ ∈ s.tasklist) (hn : Bystander s task n) :
    ∃ events, ¬ TaskCreation.machine.Always (StopsOwn task) s events := by
  induction k generalizing s with
  | zero => exact absurd (List.length_pos_of_mem hnull) (by omega)
  | succ k ih =>
    obtain ⟨caller, hcaller⟩ := Option.ne_none_iff_exists'.mp hn.thandle
    have hcalls : some caller ∈ s.live.map (·.thandle) :=
      hcaller ▸ List.mem_map_of_mem hn.live
    have hstep : TaskCreation.machine.step s (.stop caller task) =
        some (TaskCreation.taskStop s caller task) := by
      simp only [TaskCreation.machine, hrun, Bool.false_eq_true, hcalls, not_true_eq_false,
        or_self, if_false]
    obtain ⟨m, hfind⟩ : ∃ m, s.findTask task = some m := by
      rw [← Option.isSome_iff_exists]
      exact List.find?_isSome.mpr ⟨_, hnull, decide_eq_true rfl⟩
    cases hhandle : m.thandle with
    | none =>
      refine ⟨[.stop caller task], fun h => ?_⟩
      rw [TaskCreation.taskStop_null caller hfind hhandle] at hstep
      simp only [Machine.Always, hstep] at h
      exact (h.1 caller rfl).1 List.mem_cons_self
    | some thandle =>
      have hnext : (TaskCreation.taskStop s caller task).1 =
          (s.vTaskDelete (some thandle)).eraseTask task := by
        rw [TaskCreation.taskStop_other hfind hhandle (hn.thandle_ne hcaller hfind hhandle)]
        simp only [FreeRTOS.taskStop, hfind, hhandle]
      have hlen : ((s.vTaskDelete (some thandle)).eraseTask task).tasklist.length = k := by
        have hfound := List.find?_some hfind
        rw [← Nat.add_sub_cancel k 1, ← hk]
        exact List.length_eraseP_of_mem (List.mem_of_find?_eq_some hfind) hfound
      have hnull' : ⟨task, none⟩ ∈ ((s.vTaskDelete (some thandle)).eraseTask task).tasklist := by
        apply mem_eraseP_of_ne hfind hnull
        intro heq
        rw [← heq] at hhandle
        exact absurd hhandle (by simp)
      obtain ⟨events, hevents⟩ := ih hlen hrun hnull' (hn.stopped hfind hhandle)
      refine ⟨.stop caller task :: events, fun h => hevents ?_⟩
      rw [← hnext]
      simp only [Machine.Always, hstep] at h
      exact h.2

/-- **A failed start has an effect.**  In every state a `TaskStart` for which `xTaskCreate`
fails returns `kOk` and adds a node; and where a task of another object runs, there are
later calls of `TaskStop` of the object of which one deletes the caller.
SOURCE: rtos.cc:41-73 -/
theorem failed_start_has_effect (s : FreeRTOS τ (Option η)) (task : τ) :
    ¬ NoEffect s task ∧
      (TaskCreation.taskStart s task none).2 = .kOk ∧
      (TaskCreation.taskStart s task none).1.tasklist = s.tasklist ++ [⟨task, none⟩] ∧
      (s.exited = false → ∀ n, Bystander s task n → ∃ events,
        ¬ TaskCreation.machine.Always (StopsOwn task)
          (TaskCreation.taskStart s task none).1 events) := by
  refine ⟨fun h => h.status rfl, rfl, rfl, ?_⟩
  intro hrun n hn
  refine stops_end_in_caller task _ rfl (n := n) hrun ?_ ?_
  · exact List.mem_append_right _ List.mem_cons_self
  · constructor
    · exact hn.live
    · exact hn.other
    · exact hn.thandle
    · intro m hm htask
      rcases List.mem_append.mp hm with hm | hm
      · exact hn.unlisted m hm htask
      · rw [List.mem_singleton.mp hm]
        exact hn.thandle.symm

/-- Task 100 runs object 1.  It starts object 2, the creation fails, it stops object 2, and
is deleted by this. -/
theorem not_noEffect_of_failure :
    ¬ NoEffect ((FreeRTOS.initial : FreeRTOS ℕ (Option ℕ)).taskStart 1 (some 100)) 2 ∧
      (TaskCreation.machine.exec (FreeRTOS.initial : FreeRTOS ℕ (Option ℕ))
        [.start 1 (some 100), .start 2 none, .stop 100 2]).map
          (fun r => (r.1.live, r.2)) =
        some ([], [[.status .kOk], [.status .kOk], [.vTaskDelete none]]) := by
  constructor
  · intro h
    exact h.status rfl
  · decide

end Resmod.Analysis
