import Mathlib.Computability.StateTransition

/-!
# Loops that may not end

A `Loop` repeats its body while a test holds.  `eval` is the state in which it ends, if it
does: it is the evaluation of a transition function of Mathlib, so nothing bounds the number
of rounds.  `run` is the loop with a bound on the number of its tests, which can be computed.

A loop with a variant ends, within as many tests as the variant says (`run_of_variant`), and
a loop with an invariant under which the test holds does not (`not_dom_of_invariant`).
-/

set_option autoImplicit false

namespace Resmod.Library

/-- `while (test) body` on states `σ`. -/
structure Loop (σ : Type*) where
  test : σ → Bool
  body : σ → σ

namespace Loop

variable {σ : Type*} (L : Loop σ)

/-- One round, if there is one more. -/
def step (s : σ) : Option σ := if L.test s then some (L.body s) else none

/-- The state in which the loop ends, if it does. -/
def eval (s : σ) : Part σ := StateTransition.eval L.step s

/-- The same loop with a bound on the number of its tests. -/
def run : ℕ → σ → Option σ
  | 0, _ => none
  | tests + 1, s => if L.test s then run tests (L.body s) else some s

variable {L}

/-- The body is run where the test holds. -/
theorem step_eq_some {s t : σ} : L.step s = some t ↔ L.test s = true ∧ L.body s = t := by
  rw [step, Option.ite_none_right_eq_some, Option.some.injEq]

/-- The loop is left where the test fails. -/
theorem step_eq_none {s : σ} : L.step s = none ↔ L.test s = false := by
  unfold step
  cases L.test s with
  | true => simp
  | false => simp

/-- A loop ends in a state that it reaches and in which the test fails. -/
theorem mem_eval {s t : σ} :
    t ∈ L.eval s ↔ StateTransition.Reaches L.step s t ∧ L.test t = false := by
  rw [eval, StateTransition.mem_eval, step_eq_none]

/-- A round leaves the end of the loop where it is. -/
theorem eval_of_test {s : σ} (h : L.test s = true) : L.eval s = L.eval (L.body s) := by
  apply StateTransition.reaches_eval
  exact Relation.ReflTransGen.single (step_eq_some.mpr ⟨h, rfl⟩)

/-! ## The bound on the tests -/

/-- A loop that ends within the bound ends there. -/
theorem mem_eval_of_run {tests : ℕ} {s t : σ} (h : L.run tests s = some t) : t ∈ L.eval s := by
  induction tests generalizing s with
  | zero => exact absurd h (by simp [run])
  | succ tests ih =>
    rw [run] at h
    cases htest : L.test s with
    | true =>
      rw [htest, if_pos rfl] at h
      rw [eval_of_test htest]
      exact ih h
    | false =>
      rw [htest, if_neg Bool.false_ne_true] at h
      obtain rfl := Option.some.inj h
      exact mem_eval.mpr ⟨Relation.ReflTransGen.refl, htest⟩

/-- No bound is enough for a loop that does not end. -/
theorem run_of_not_dom {s : σ} (h : ¬ (L.eval s).Dom) (tests : ℕ) : L.run tests s = none := by
  rw [Option.eq_none_iff_forall_ne_some]
  intro t hrun
  exact h (Part.dom_iff_mem.mpr ⟨t, mem_eval_of_run hrun⟩)

/-! ## The rules -/

/-- **The variant rule.**  A loop with an invariant `I` and a variant that every round
lowers ends in `I`, with one test more than the variant says at the most. -/
theorem run_of_variant (I : σ → Prop) (variant : σ → ℕ)
    (h : ∀ s, I s → L.test s = true → I (L.body s) ∧ variant (L.body s) < variant s)
    {tests : ℕ} {s : σ} (hI : I s) (htests : variant s < tests) :
    ∃ t, L.run tests s = some t ∧ I t ∧ L.test t = false := by
  induction tests generalizing s with
  | zero => exact absurd htests (Nat.not_lt_zero _)
  | succ tests ih =>
    cases htest : L.test s with
    | true =>
      obtain ⟨hI', hlt⟩ := h s hI htest
      obtain ⟨t, hrun, hend⟩ := ih hI' (by omega)
      refine ⟨t, ?_, hend⟩
      rw [run, htest, if_pos rfl, hrun]
    | false =>
      refine ⟨s, ?_, hI, htest⟩
      rw [run, htest, if_neg Bool.false_ne_true]

/-- What every round keeps holds wherever the rounds lead. -/
theorem invariant_of_reaches (I : σ → Prop)
    (h : ∀ s, I s → L.test s = true → I (L.body s)) {s t : σ} (hI : I s)
    (hreach : StateTransition.Reaches L.step s t) : I t := by
  induction hreach with
  | refl => exact hI
  | tail _ hstep ih =>
    obtain ⟨htest, rfl⟩ := step_eq_some.mp hstep
    exact h _ ih htest

/-- **The rule for loops that do not end**: under the invariant there is always one more
round. -/
theorem not_dom_of_invariant (I : σ → Prop)
    (h : ∀ s, I s → L.test s = true ∧ I (L.body s)) {s : σ} (hI : I s) :
    ¬ (L.eval s).Dom := by
  intro hdom
  obtain ⟨t, ht⟩ := Part.dom_iff_mem.mp hdom
  obtain ⟨hreach, hend⟩ := mem_eval.mp ht
  have hIt : I t := invariant_of_reaches I (fun s hs _ => (h s hs).2) hI hreach
  rw [(h t hIt).1] at hend
  exact Bool.noConfusion hend

end Loop

end Resmod.Library
