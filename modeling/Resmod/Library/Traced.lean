import Mathlib.Data.List.Basic
import Mathlib.Tactic.Common

/-!
# Computations with a log

A `Traced ι α` is a value together with the list of what was done to compute it, in order.
It is how a function is modelled whose accesses matter as much as its result: the value is
the result, the log are the accesses.  The value of a sequence does not depend on the
logs (`value_bind`, `value_run_bind`), so that a traced function is compared with a plain
one by rewriting, and its log is read off in the same way.
-/

set_option autoImplicit false

namespace Resmod.Library

universe u v

/-- A value and what was logged while it was computed. -/
structure Traced (ι : Type u) (α : Type v) where
  value : α
  log : List ι

namespace Traced

variable {ι : Type u} {α β ε : Type v}

instance : Monad (Traced ι) where
  pure a := ⟨a, []⟩
  bind x f := ⟨(f x.value).value, x.log ++ (f x.value).log⟩

/-- A value that is returned. -/
@[simp] theorem value_pure (a : α) : (pure a : Traced ι α).value = a := rfl

/-- Nothing is logged by a return. -/
@[simp] theorem log_pure (a : α) : (pure a : Traced ι α).log = [] := rfl

/-- The value of one computation after another. -/
@[simp] theorem value_bind (x : Traced ι α) (f : α → Traced ι β) :
    (x >>= f).value = (f x.value).value := rfl

/-- The log of one computation after another. -/
@[simp] theorem log_bind (x : Traced ι α) (f : α → Traced ι β) :
    (x >>= f).log = x.log ++ (f x.value).log := rfl

/-- A computation is its value and its log. -/
theorem ext {x y : Traced ι α} (hvalue : x.value = y.value) (hlog : x.log = y.log) :
    x = y := by
  cases x
  cases y
  simp only at hvalue hlog
  rw [hvalue, hlog]

/-! ## Traced computations that can fail -/

/-- A sequence that succeeds comes from two computations that succeed. -/
theorem bind_eq_ok {x : Except ε α} {f : α → Except ε β} {b : β} :
    x >>= f = .ok b ↔ ∃ a, x = .ok a ∧ f a = .ok b := by
  cases x with
  | error e => simp [bind, Except.bind]
  | ok a => simp [bind, Except.bind]

/-- What is logged before a failure stays in the log, the failure is the value. -/
theorem value_run_bind (x : ExceptT ε (Traced ι) α) (f : α → ExceptT ε (Traced ι) β) :
    (x >>= f).run.value = x.run.value >>= fun a => (f a).run.value := by
  change (ExceptT.bindCont f x.run.value).value = _
  cases x.run.value <;> rfl

/-- The log stops with the computation that fails. -/
theorem log_run_bind (x : ExceptT ε (Traced ι) α) (f : α → ExceptT ε (Traced ι) β) :
    (x >>= f).run.log = x.run.log ++
      match x.run.value with
      | .ok a => (f a).run.log
      | .error _ => [] := by
  change x.run.log ++ (ExceptT.bindCont f x.run.value).log = _
  cases x.run.value <;> rfl

/-- What follows adds nothing to the log when it logs nothing for any value. -/
theorem log_run_bind_of_silent (x : ExceptT ε (Traced ι) α) {f : α → ExceptT ε (Traced ι) β}
    (h : ∀ a, (f a).run.log = []) : (x >>= f).run.log = x.run.log := by
  rw [log_run_bind]
  cases x.run.value with
  | ok a => exact (congrArg (x.run.log ++ ·) (h a)).trans (List.append_nil _)
  | error e => exact List.append_nil _

/-- A computation that can fail and logs nothing. -/
def attempt (x : Except ε α) : ExceptT ε (Traced ι) α := ExceptT.mk ⟨x, []⟩

/-- A computation that logs nothing has its own value. -/
@[simp] theorem value_run_attempt (x : Except ε α) :
    (attempt x : ExceptT ε (Traced ι) α).run.value = x := rfl

/-- A computation that does not fail has a value. -/
@[simp] theorem value_run_lift (x : Traced ι α) :
    (ExceptT.lift x : ExceptT ε (Traced ι) α).run.value = .ok x.value := rfl

/-- A computation that does not fail keeps its log. -/
@[simp] theorem log_run_lift (x : Traced ι α) :
    (ExceptT.lift x : ExceptT ε (Traced ι) α).run.log = x.log := by
  change x.log ++ [] = x.log
  exact List.append_nil _

end Traced

end Resmod.Library
