import Mathlib.Algebra.BigOperators.Ring.Finset
import Mathlib.Algebra.Order.BigOperators.Ring.Finset
import Mathlib.Data.Fintype.BigOperators
import Mathlib.Tactic.Ring

/-!
# Causal FIR filters

`fir h x` is the response of the causal filter with coefficients `h` to the input `x`,
when the filter starts from a zero state: the sum of the products of a coefficient and an
input whose indices add up to the index of the output.  It is linear in the input, and
positive where all the inputs it reaches are.

`kernel` is the filter as a matrix: an output is a linear form in the inputs.  Removing the
mean from the inputs of a linear form is removing it from the coefficients
(`sum_mul_sub_mean`).
-/

set_option autoImplicit false

namespace Resmod.Library

variable {K : Type*} {n m : ℕ}

/-- The output of the causal FIR filter with coefficients `h`, from a zero state. -/
def fir [Semiring K] (h : Fin n → K) (x : Fin m → K) (j : Fin m) : K :=
  ∑ i : Fin n, ∑ k : Fin m, if i.val + k.val = j.val then h i * x k else 0

/-- The filter is homogeneous. -/
theorem fir_const_mul [CommSemiring K] (h : Fin n → K) (r : K) (x : Fin m → K) (j : Fin m) :
    fir h (fun k => r * x k) j = r * fir h x j := by
  unfold fir
  rw [Finset.mul_sum]
  refine Finset.sum_congr rfl fun i _ => ?_
  rw [Finset.mul_sum]
  refine Finset.sum_congr rfl fun k _ => ?_
  split_ifs
  · ring
  · rw [mul_zero]

/-- Positive coefficients give a positive output where the inputs in reach are positive. -/
theorem fir_pos [Semiring K] [PartialOrder K] [IsStrictOrderedRing K] (hn : 0 < n)
    {h : Fin n → K} (hh : ∀ i, 0 < h i) {x : Fin m → K} {j : Fin m}
    (hx : ∀ k : Fin m, j.val < k.val + n → k.val ≤ j.val → 0 < x k) : 0 < fir h x j := by
  have hterm : ∀ (i : Fin n) (k : Fin m),
      0 ≤ if i.val + k.val = j.val then h i * x k else 0 := by
    intro i k
    split_ifs with hik
    · have hi := i.isLt
      exact (mul_pos (hh i) (hx k (by omega) (by omega))).le
    · exact le_rfl
  unfold fir
  refine Finset.sum_pos' (fun i _ => Finset.sum_nonneg fun k _ => hterm i k)
    ⟨⟨0, hn⟩, Finset.mem_univ _, ?_⟩
  refine Finset.sum_pos' (fun k _ => hterm _ k) ⟨j, Finset.mem_univ _, ?_⟩
  rw [if_pos (Nat.zero_add _)]
  exact mul_pos (hh _) (hx j (by omega) le_rfl)

/-! ## Outputs as linear forms -/

/-- The weight of the input `k` in the output `j`. -/
def kernel [Zero K] (h : Fin n → K) (j k : Fin m) : K :=
  if hjk : k.val ≤ j.val ∧ j.val - k.val < n then h ⟨j.val - k.val, hjk.2⟩ else 0

/-- A filter is a linear form of the samples for each output. -/
theorem fir_eq_sum_kernel [Semiring K] (h : Fin n → K) (x : Fin m → K) (j : Fin m) :
    fir h x j = ∑ k : Fin m, kernel h j k * x k := by
  unfold fir
  rw [Finset.sum_comm]
  refine Finset.sum_congr rfl fun k _ => ?_
  unfold kernel
  by_cases hjk : k.val ≤ j.val ∧ j.val - k.val < n
  · -- one coefficient meets the input
    rw [dif_pos hjk, Finset.sum_eq_single ⟨j.val - k.val, hjk.2⟩]
    · rw [if_pos (Nat.sub_add_cancel hjk.1)]
    · intro i _ hi
      apply if_neg
      intro hik
      apply hi
      apply Fin.ext
      simp only
      omega
    · intro hnot
      exact absurd (Finset.mem_univ _) hnot
  · rw [dif_neg hjk, zero_mul]
    apply Finset.sum_eq_zero
    intro i _
    have hi := i.isLt
    apply if_neg
    omega

/-- The mean of the inputs can be taken off the coefficients. -/
theorem sum_mul_sub_mean [Field K] (c x : Fin m → K) (d : K) :
    ∑ k, c k * (x k - (∑ l, x l) / d) = ∑ k, (c k - (∑ l, c l) / d) * x k := by
  simp only [mul_sub, sub_mul, Finset.sum_sub_distrib, ← Finset.sum_mul, ← Finset.mul_sum]
  ring

end Resmod.Library
