import Resmod.Model.TaskList
import Mathlib.Data.List.Nodup

/-!
# The task list and the live tasks

`TaskStop` deletes a task before it erases the node of the task.  When it is called by
another task both halves run, and the list keeps up with the tasks.  At the end of
`FreeRTOS_TaskEntry` it is the calling task that is deleted, `vTaskDelete` does not return,
and the node stays: the next `TaskStop` of the same object deletes the handle again.

`mirrors_iff` says for every sequence of calls that this is the only way to go wrong.
-/

set_option autoImplicit false

namespace Resmod.Analysis

open Resmod.Library Resmod.Model Resmod.Model.FreeRTOS

variable {τ η : Type*}

/-- The task list with the handles deleted so far. -/
def recorded [DecidableEq τ] [DecidableEq η] : Machine (FreeRTOS τ η × List η) (Event τ η) η :=
  FreeRTOS.machine.observe fun deleted _ _ _ o => deleted ++ o

/-- After the step there is one node for every live task and none for any other, and the
step deletes no handle that was deleted before. -/
structure Mirrors (p : FreeRTOS τ η × List η) (_ : Event τ η) (p' : FreeRTOS τ η × List η)
    (o : List η) : Prop where
  once : (p'.1.tasklist.map (·.thandle)).Nodup
  alive : ∀ thandle, thandle ∈ p'.1.tasklist.map (·.thandle) ↔
    thandle ∈ p'.1.live.map (·.thandle)
  deletedOnce : ∀ thandle ∈ o, thandle ∉ p.2

/-- The event is not the return of a task function. -/
def NoReturn : Event τ η → Prop
  | .taskReturns _ => False
  | _ => True

/-- The list holds the live tasks, under different handles, none of which was deleted. -/
structure TaskListInv (p : FreeRTOS τ η × List η) : Prop where
  running : p.1.exited = false
  same : p.1.tasklist = p.1.live
  once : (p.1.live.map (·.thandle)).Nodup
  created : ∀ n ∈ p.1.live, n.thandle ∈ p.1.created
  deleted : ∀ thandle ∈ p.2, thandle ∈ p.1.created ∧ thandle ∉ p.1.live.map (·.thandle)

/-! ## Finding and erasing a node -/

/-- In a list of nodes with different handles, erasing the node that was found is keeping
the nodes with other handles. -/
theorem eraseP_eq_filter [DecidableEq η] {l : List (TaskNode τ η)} {n : TaskNode τ η}
    {p : TaskNode τ η → Bool} (honce : (l.map (·.thandle)).Nodup) (hfind : l.find? p = some n) :
    l.eraseP p = l.filter fun m => m.thandle ≠ n.thandle := by
  induction l with
  | nil => exact absurd hfind (by simp)
  | cons m l ih =>
    rw [List.map_cons, List.nodup_cons] at honce
    cases hm : p m with
    | true =>
      rw [List.find?_cons_of_pos hm] at hfind
      have heq : m = n := Option.some.inj hfind
      rw [heq] at honce hm ⊢
      have hothers : ∀ k ∈ l, k.thandle ≠ n.thandle := by
        intro k hk hsame
        exact honce.1 (hsame ▸ List.mem_map_of_mem hk)
      rw [List.eraseP_cons_of_pos hm, List.filter_cons_of_neg (by simp)]
      exact (List.filter_eq_self.mpr fun k hk => decide_eq_true (hothers k hk)).symm
    | false =>
      rw [List.find?_cons_of_neg (by simp [hm])] at hfind
      have hne : m.thandle ≠ n.thandle := by
        intro heq
        exact honce.1 (heq ▸ List.mem_map_of_mem (List.mem_of_find?_eq_some hfind))
      rw [List.eraseP_cons_of_neg (by simp [hm]), ih honce.2 hfind,
        List.filter_cons_of_pos (by simp [hne])]

/-- A handle that is filtered out is gone. -/
theorem thandle_notMem_filter [DecidableEq η] (l : List (TaskNode τ η)) (thandle : η) :
    thandle ∉ (l.filter fun n => n.thandle ≠ thandle).map (·.thandle) := by
  simp

/-! ## The steps -/

/-- The invariant before the first task. -/
theorem taskListInv_initial : TaskListInv ((FreeRTOS.initial, []) : FreeRTOS τ η × List η) where
  running := rfl
  same := rfl
  once := List.nodup_nil
  created := fun _ hn => absurd hn List.not_mem_nil
  deleted := fun _ hold => absurd hold List.not_mem_nil

/-- A task is started under a new handle. -/
theorem TaskListInv.taskStart {s : FreeRTOS τ η} {deleted : List η}
    (h : TaskListInv (s, deleted)) (task : τ) {thandle : η} (hfresh : thandle ∉ s.created) :
    TaskListInv (s.taskStart task thandle, deleted) := by
  have hnew : thandle ∉ s.live.map (·.thandle) := by
    intro hmem
    obtain ⟨n, hn, rfl⟩ := List.mem_map.mp hmem
    exact hfresh (h.created n hn)
  constructor
  · exact h.running
  · exact congrArg (fun l => l ++ [(⟨task, thandle⟩ : TaskNode τ η)]) h.same
  · simp only [FreeRTOS.taskStart, List.map_append, List.map_cons, List.map_nil]
    exact h.once.append (List.nodup_singleton thandle)
      (List.disjoint_singleton.mpr hnew)
  · intro n hn
    rcases List.mem_append.mp hn with hn | hn
    · exact List.mem_cons_of_mem _ (h.created n hn)
    · rw [List.mem_singleton.mp hn]
      exact List.mem_cons_self
  · intro old hold
    obtain ⟨hcreated, hlive⟩ := h.deleted old hold
    have hne : old ≠ thandle := fun heq => hfresh (heq ▸ hcreated)
    refine ⟨List.mem_cons_of_mem _ hcreated, ?_⟩
    simp only [FreeRTOS.taskStart, List.map_append, List.map_cons, List.map_nil,
      List.mem_append, List.mem_singleton, not_or]
    exact ⟨hlive, hne⟩

variable [DecidableEq τ] [DecidableEq η]

/-- A task that runs is stopped. -/
theorem TaskListInv.taskStop {s : FreeRTOS τ η} {deleted : List η} {task : τ}
    {n : TaskNode τ η} (h : TaskListInv (s, deleted)) (hfind : s.findTask task = some n) :
    TaskListInv ((s.vTaskDelete n.thandle).eraseTask task, deleted ++ [n.thandle]) := by
  have hn : n ∈ s.live := h.same ▸ List.mem_of_find?_eq_some hfind
  have hsub : (s.live.filter fun m => m.thandle ≠ n.thandle) ⊆ s.live :=
    List.filter_sublist.subset
  constructor
  · exact h.running
  · change s.tasklist.eraseP _ = s.live.filter _
    rw [← h.same]
    apply eraseP_eq_filter _ hfind
    rw [h.same]
    exact h.once
  · exact h.once.sublist (List.filter_sublist.map _)
  · intro m hm
    exact h.created m (hsub hm)
  · intro old hold
    rcases List.mem_append.mp hold with hold | hold
    · obtain ⟨hcreated, hlive⟩ := h.deleted old hold
      exact ⟨hcreated, fun hmem => hlive (List.map_subset _ hsub hmem)⟩
    · rw [List.mem_singleton.mp hold]
      exact ⟨h.created n hn, thandle_notMem_filter s.live n.thandle⟩

/-- From the invariant the end of a task leaves its node behind.
SOURCE: rtos.cc:61-73, 86-90 -/
theorem taskEntryEnd_stale {s s' : FreeRTOS τ η} {deleted o : List η} {self : TaskNode τ η}
    (h : TaskListInv (s, deleted)) (hself : self ∈ s.live)
    (hend : s.taskEntryEnd self = (s', o)) :
    self ∈ s'.tasklist ∧ self.thandle ∉ s'.live.map (·.thandle) := by
  have hlisted : self ∈ s.tasklist := by
    rw [h.same]
    exact hself
  unfold taskEntryEnd at hend
  cases hfind : s.findTask self.task with
  | none =>
    have hnone := List.find?_eq_none.mp hfind self hlisted
    exact absurd (decide_eq_true rfl) hnone
  | some n =>
    rw [hfind] at hend
    simp only at hend
    split_ifs at hend with hsame
    · cases hend
      exact ⟨hlisted, thandle_notMem_filter s.live self.thandle⟩
    · -- the node of another instance is erased, and that instance is deleted
      cases hend
      have honce : (s.tasklist.map (·.thandle)).Nodup := by
        rw [h.same]
        exact h.once
      constructor
      · change self ∈ s.tasklist.eraseP _
        rw [eraseP_eq_filter honce hfind, List.mem_filter]
        exact ⟨hlisted, decide_eq_true fun heq => hsame heq.symm⟩
      · intro hmem
        obtain ⟨m, hm, heq⟩ := List.mem_map.mp hmem
        have hkept := (List.mem_filter.mp (List.mem_filter.mp hm).1).2
        exact absurd heq (of_decide_eq_true hkept)

/-- **The step lemma.**  From the invariant a step mirrors the tasks if and only if it is no
return, and the invariant holds after it. -/
theorem mirrors_step {p p' : FreeRTOS τ η × List η} {e : Event τ η} {o : List η}
    (h : TaskListInv p) (hstep : recorded.step p e = some (p', o)) :
    (Mirrors p e p' o ↔ NoReturn e) ∧ (NoReturn e → TaskListInv p') := by
  obtain ⟨s, deleted⟩ := p
  obtain ⟨s', deleted'⟩ := p'
  obtain ⟨hs, hdeleted⟩ := Machine.observe_step_eq_some.mp hstep
  simp only at hs hdeleted
  subst hdeleted
  have hrunning : ¬ s.exited = true := by
    rw [show s.exited = false from h.running]
    decide
  have hmirrors : TaskListInv (s', deleted ++ o) → (∀ thandle ∈ o, thandle ∉ deleted) →
      Mirrors (s, deleted) e (s', deleted ++ o) o := by
    intro hinv hnew
    have hsame : s'.tasklist = s'.live := hinv.same
    refine ⟨?_, ?_, hnew⟩
    · rw [hsame]
      exact hinv.once
    · intro thandle
      rw [hsame]
  cases e with
  | start task thandle =>
    simp only [FreeRTOS.machine] at hs
    split_ifs at hs with hrefused
    cases hs
    rw [not_or] at hrefused
    have hinv := h.taskStart task hrefused.2
    rw [← List.append_nil deleted] at hinv
    exact ⟨⟨fun _ => trivial, fun _ => hmirrors hinv (by simp)⟩, fun _ => hinv⟩
  | stop task =>
    simp only [FreeRTOS.machine, if_neg hrunning, Option.some.injEq] at hs
    unfold FreeRTOS.taskStop at hs
    cases hfind : s.findTask task with
    | none =>
      rw [hfind] at hs
      cases hs
      rw [← List.append_nil deleted] at h
      exact ⟨⟨fun _ => trivial, fun _ => hmirrors h (by simp)⟩, fun _ => h⟩
    | some n =>
      rw [hfind] at hs
      cases hs
      have hinv := h.taskStop hfind
      have hn : n ∈ s.live := h.same ▸ List.mem_of_find?_eq_some hfind
      have hnew : ∀ thandle ∈ [n.thandle], thandle ∉ deleted := by
        intro thandle hmem hold
        rw [List.mem_singleton.mp hmem] at hold
        exact (h.deleted _ hold).2 (List.mem_map_of_mem hn)
      exact ⟨⟨fun _ => trivial, fun _ => hmirrors hinv hnew⟩, fun _ => hinv⟩
  | taskReturns thandle =>
    simp only [FreeRTOS.machine, if_neg hrunning, Option.map_eq_some_iff] at hs
    obtain ⟨self, hself, hend⟩ := hs
    obtain ⟨hlisted, hended⟩ :=
      taskEntryEnd_stale h (List.mem_of_find?_eq_some hself) hend
    have hnot : ¬ Mirrors (s, deleted) (.taskReturns thandle) (s', deleted ++ o) o := by
      intro hm
      exact hended ((hm.alive self.thandle).mp (List.mem_map_of_mem hlisted))
    exact ⟨⟨fun hm => absurd hm hnot, fun hno => hno.elim⟩, fun hno => hno.elim⟩

/-- **When the task list mirrors the live tasks.**  In every sequence of calls and returns
the list has exactly one node for every live task and none for a task that has ended, and
no handle is deleted twice, if and only if no task ends by returning from `Task()`.
SOURCE: rtos.cc:41-73, 86-90 -/
theorem mirrors_iff (events : List (Event τ η)) :
    recorded.Always Mirrors (FreeRTOS.initial, []) events ↔
      recorded.Always (fun _ e _ _ => NoReturn e) (FreeRTOS.initial, []) events :=
  Machine.always_congr TaskListInv (fun _ _ _ _ h hstep => mirrors_step h hstep)
    taskListInv_initial events

/-- A task that has returned leaves its node behind, and stopping its object deletes the
handle a second time. -/
theorem not_mirrors_of_return :
    ¬ recorded.Always Mirrors (FreeRTOS.initial, [])
        ([.start 1 100, .taskReturns 100, .stop 1] : List (Event ℕ ℕ)) ∧
      (recorded.exec (FreeRTOS.initial, [])
        ([.start 1 100, .taskReturns 100, .stop 1] : List (Event ℕ ℕ))).map (fun r => r.2) =
          some [[], [100], [100]] := by
  constructor
  · intro h
    have halive := (h.2.1.alive 100).mp (by decide)
    exact absurd halive (by decide)
  · decide

end Resmod.Analysis
