import Resmod.Analysis.Calibration

/-!
# When the resistivity computation divides by zero

The divisor at an index is the magnitude of two filtered products of the mean-free current
with a reference.  Each of the two is a linear form in the samples: `weight` is its
coefficient, an integer that only depends on the tables.  `divisor_ne_zero_iff` says that
the divisor is not zero exactly if one of the two forms is not, and `weight_sum` that both
vanish on a constant record: the average of a current that does not change is a quotient of
zeros.

The voltage has no part in the divisor.
-/

set_option autoImplicit false

namespace Resmod.Analysis

open Resmod.Library Resmod.Model Resmod.Model.CalcModule

/-- The numbers that the samples of a record convert to. -/
def ofSamples (samples : Fin maxRecordNo → Int16) : Record ℝ := fun j => (samples j).toInt

/-- The coefficient that weighs the product at `k` in the filtered product at `j`, in units
of 10⁻⁹. -/
def tap (j k : ℕ) : ℤ := if k ≤ j then fircoeffs32Table.getD (j - k) 0 else 0

/-- The weight of the sample `k` in the filtered product at `j` with the reference, the
removal of the mean included, in units of 10⁻⁹ / 312. -/
def weight (reference : List ℕ) (j k : Fin maxRecordNo) : ℤ :=
  maxRecordNo * (tap j k * reference.getD k 0) -
    ∑ l : Fin maxRecordNo, tap j l * reference.getD l 0

/-- The record is not orthogonal to the weights of both references. -/
def HasComponent (samples : Fin maxRecordNo → Int16) (j : Fin maxRecordNo) : Prop :=
  ∑ k, weight refSineTable j k * (samples k).toInt ≠ 0 ∨
    ∑ k, weight refCosineTable j k * (samples k).toInt ≠ 0

/-! ## The filtered products as linear forms -/

/-- The kernel of the filter of the program, with the coefficients as integers. -/
theorem kernel_fircoeffs32 (j k : Fin maxRecordNo) :
    kernel (fircoeffs32 : Fin numTaps → ℝ) j k = tap j k / 10 ^ 9 := by
  have hlen : fircoeffs32Table.length = numTaps := by decide +kernel
  unfold kernel tap fircoeffs32
  by_cases hjk : k.val ≤ j.val
  · by_cases hreach : j.val - k.val < numTaps
    · rw [dif_pos ⟨hjk, hreach⟩, if_pos hjk]
      push_cast
      rfl
    · have hend : fircoeffs32Table.getD (j.val - k.val) 0 = 0 := by
        rw [List.getD_eq_getElem?_getD, List.getElem?_eq_none (by omega), Option.getD_none]
      rw [dif_neg (by omega), if_pos hjk, hend]
      norm_num
  · rw [dif_neg (by omega), if_neg hjk]
    norm_num

/-- **The filtered product** with a reference is the linear form with these weights.
SOURCE: calcmodule.cc:103-179 -/
theorem dcMul_eq_sum_weight {armFirF32 : (Fin numTaps → ℝ) → Record ℝ → Record ℝ}
    (hfir : ∀ x, armFirF32 fircoeffs32 x = fir fircoeffs32 x) (reference : List ℕ)
    (samples : Fin maxRecordNo → Int16) (j : Fin maxRecordNo) :
    dcMul armFirF32 (fun k => (reference.getD k 0 : ℝ)) (ofSamples samples) j =
      0.00003051757 / (maxRecordNo * 10 ^ 9) *
        (∑ k, weight reference j k * (samples k).toInt : ℤ) := by
  have hno : (maxRecordNo : ℝ) ≠ 0 := by norm_num [maxRecordNo]
  have hterm : ∀ k, kernel fircoeffs32 j k *
        (removeDcOffset (temp (ofSamples samples)) k * (reference.getD k 0 : ℝ)) =
      kernel fircoeffs32 j k * reference.getD k 0 *
        (temp (ofSamples samples) k - (∑ l, temp (ofSamples samples) l) / maxRecordNo) := by
    intro k
    unfold removeDcOffset dcOffset
    ring
  unfold dcMul
  rw [hfir, fir_eq_sum_kernel, Finset.sum_congr rfl fun k _ => hterm k, sum_mul_sub_mean]
  push_cast
  rw [Finset.mul_sum]
  refine Finset.sum_congr rfl fun k _ => ?_
  have hsum : ∑ l : Fin maxRecordNo, kernel fircoeffs32 j l * (reference.getD l 0 : ℝ) =
      (∑ l : Fin maxRecordNo, (tap j l : ℝ) * (reference.getD l 0 : ℝ)) / 10 ^ 9 := by
    rw [Finset.sum_div]
    refine Finset.sum_congr rfl fun l _ => ?_
    rw [kernel_fircoeffs32]
    ring
  rw [hsum, kernel_fircoeffs32]
  unfold weight temp ofSamples
  push_cast
  field_simp

/-- The two forms agree in a constant record, which they take to zero. -/
theorem weight_sum (reference : List ℕ) (j : Fin maxRecordNo) :
    ∑ k, weight reference j k = 0 := by
  unfold weight
  rw [Finset.sum_sub_distrib, ← Finset.mul_sum, Finset.sum_const, Finset.card_univ,
    Fintype.card_fin, nsmul_eq_mul, sub_self]

/-- A record that does not change has no component. -/
theorem not_hasComponent_const (x : Int16) (j : Fin maxRecordNo) :
    ¬ HasComponent (fun _ => x) j := by
  unfold HasComponent
  simp only [← Finset.sum_mul, weight_sum, zero_mul, ne_eq, not_true_eq_false, or_self,
    not_false_eq_true]

/-! ## The divisor -/

/-- One divisor.
SOURCE: calcmodule.cc:182-185 -/
theorem sqrtSineCosine_ne_zero_iff {armFirF32 : (Fin numTaps → ℝ) → Record ℝ → Record ℝ}
    (hfir : ∀ x, armFirF32 fircoeffs32 x = fir fircoeffs32 x)
    (it : Fin maxRecordNo → Int16) (j : Fin maxRecordNo) :
    sqrtSineCosine Real.sqrt armFirF32 (ofSamples it) j ≠ 0 ↔ HasComponent it j := by
  have hscale : (0.00003051757 / (maxRecordNo * 10 ^ 9) : ℝ) ≠ 0 := by
    norm_num [maxRecordNo]
  have hsine := dcMul_eq_sum_weight hfir refSineTable it j
  have hcosine := dcMul_eq_sum_weight hfir refCosineTable it j
  change dcMul armFirF32 refSine _ j = _ at hsine
  change dcMul armFirF32 refCosine _ j = _ at hcosine
  unfold sqrtSineCosine HasComponent
  rw [Real.sqrt_ne_zero', ← not_iff_not, not_or, not_not, not_not, not_lt]
  set a := dcMul armFirF32 refSine (ofSamples it) j
  set b := dcMul armFirF32 refCosine (ofSamples it) j
  have hzero : a * a + b * b ≤ 0 ↔ a = 0 ∧ b = 0 := by
    have hnonneg := add_nonneg (mul_self_nonneg a) (mul_self_nonneg b)
    rw [← mul_self_add_mul_self_eq_zero]
    exact ⟨fun h => le_antisymm h hnonneg, le_of_eq⟩
  rw [hzero, hsine, hcosine, mul_eq_zero_iff_left hscale, mul_eq_zero_iff_left hscale,
    Int.cast_eq_zero, Int.cast_eq_zero]

/-- **When the computation does not divide by zero.**  For every filter library that
computes the causal filter and every current record, the divisor is not zero at the
averaged indices if and only if the record has a component at each of them.
SOURCE: calcmodule.cc:103-197 -/
theorem divisor_ne_zero_iff (armFirF32 : (Fin numTaps → ℝ) → Record ℝ → Record ℝ)
    (hfir : ∀ x, armFirF32 fircoeffs32 x = fir fircoeffs32 x)
    (it : Fin maxRecordNo → Int16) :
    (∀ j : Fin maxRecordNo, 120 ≤ j.val →
        sqrtSineCosine Real.sqrt armFirF32 (ofSamples it) j ≠ 0) ↔
      ∀ j : Fin maxRecordNo, 120 ≤ j.val → HasComponent it j := by
  apply forall_congr'
  intro j
  apply imp_congr_right
  intro _
  exact sqrtSineCosine_ne_zero_iff hfir it j

/-- A single sample that is not zero. -/
def impulseSamples : Fin maxRecordNo → Int16 := fun j => if j.val = 0 then -312 else 0

/-- It is the record of the calibration. -/
theorem ofSamples_impulseSamples : ofSamples impulseSamples = impulse := by
  have hvalue : (-312 : Int16).toInt = -312 := by decide
  have hzero : (0 : Int16).toInt = 0 := by decide
  funext j
  unfold ofSamples impulseSamples impulse
  split_ifs
  · rw [hvalue]
    norm_num
  · rw [hzero, Int.cast_zero]

/-- An impulse has a component at every index. -/
theorem divisor_ne_zero_iff_impulse :
    (∀ j : Fin maxRecordNo, 120 ≤ j.val →
        sqrtSineCosine Real.sqrt fir (ofSamples impulseSamples) j ≠ 0) ∧
      ∀ j : Fin maxRecordNo, 120 ≤ j.val → HasComponent impulseSamples j := by
  have hne : ∀ j : Fin maxRecordNo, 120 ≤ j.val →
      sqrtSineCosine Real.sqrt fir (ofSamples impulseSamples) j ≠ 0 := by
    rw [ofSamples_impulseSamples]
    exact sqrtSineCosine_impulse_ne_zero
  exact ⟨hne, (divisor_ne_zero_iff fir (fun _ => rfl) impulseSamples).mp hne⟩

/-- No current at all: the divisor is zero at every index. -/
theorem divisor_eq_zero_of_zero :
    ¬ ∀ j : Fin maxRecordNo, 120 ≤ j.val →
      sqrtSineCosine Real.sqrt fir (ofSamples fun _ => 0) j ≠ 0 := by
  intro h
  have hne := h ⟨120, by decide⟩ (le_refl _)
  rw [sqrtSineCosine_ne_zero_iff fun _ => rfl] at hne
  exact not_hasComponent_const 0 _ hne

end Resmod.Analysis
