import Resmod.Library.Fir
import Resmod.Model.CalcModule
import Mathlib.Analysis.Real.Sqrt
import Mathlib.Tactic.NormNum.OfScientific

/-!
# The calibration of the resistivity computation

Over the real numbers, every stage of `PerformCalculation` up to the filtered magnitude is
homogeneous, and the removal of the dc offset takes a constant out.  A voltage that is
`r` times the current plus a constant therefore has `r` times its magnitude at every
index, and the ratio of the two is `r` wherever the magnitude is not zero.

The average is taken over the indices from 120 on.  These are 192 of the 312, and the sum
is divided by 193, so the result is off by one part in 193 on every such record.  The
divisor does not matter to `performCalculation_scale`, which compares two results.
-/

set_option autoImplicit false

namespace Resmod.Analysis

open Resmod.Library Resmod.Model Resmod.Model.CalcModule

/-- The removal of the dc offset takes a constant out and keeps a factor.
SOURCE: calcmodule.cc:103-136 -/
theorem removeDcOffset_temp_affine {it vt : Record ℝ} {r c : ℝ}
    (hv : ∀ j, vt j = r * it j + c) (j : Fin maxRecordNo) :
    removeDcOffset (temp vt) j = r * removeDcOffset (temp it) j := by
  have htemp : ∀ k, temp vt k = r * temp it k + 0.00003051757 * c := by
    intro k
    simp only [temp, hv]
    ring
  have hoffset : dcOffset (temp vt) = r * dcOffset (temp it) + 0.00003051757 * c := by
    have hno : (maxRecordNo : ℝ) ≠ 0 := by norm_num [maxRecordNo]
    have hsum : ∑ k, temp vt k = r * ∑ k, temp it k + maxRecordNo * (0.00003051757 * c) := by
      rw [Finset.sum_congr rfl fun k _ => htemp k, Finset.sum_add_distrib, ← Finset.mul_sum,
        Finset.sum_const, Finset.card_univ, Fintype.card_fin, nsmul_eq_mul]
    unfold dcOffset
    rw [hsum, add_div, mul_div_assoc, mul_div_cancel_left₀ _ hno]
  unfold removeDcOffset
  rw [htemp, hoffset]
  ring

section

variable {armFirF32 : (Fin numTaps → ℝ) → Record ℝ → Record ℝ}
  (hfir : ∀ x, armFirF32 fircoeffs32 x = fir fircoeffs32 x)

include hfir

/-- The filtered product with a reference keeps a factor and no constant.
SOURCE: calcmodule.cc:140-179 -/
theorem dcMul_affine {it vt : Record ℝ} {r c : ℝ} (hv : ∀ j, vt j = r * it j + c)
    (reference : Record ℝ) (j : Fin maxRecordNo) :
    dcMul armFirF32 reference vt j = r * dcMul armFirF32 reference it j := by
  unfold dcMul
  rw [hfir, hfir, ← fir_const_mul]
  congr 1
  funext k
  rw [removeDcOffset_temp_affine hv]
  ring

/-- The magnitude keeps a positive factor and no constant.
SOURCE: calcmodule.cc:182-185 -/
theorem sqrtSineCosine_affine {it vt : Record ℝ} {r c : ℝ} (hr : 0 < r)
    (hv : ∀ j, vt j = r * it j + c) (j : Fin maxRecordNo) :
    sqrtSineCosine Real.sqrt armFirF32 vt j =
      r * sqrtSineCosine Real.sqrt armFirF32 it j := by
  unfold sqrtSineCosine
  rw [dcMul_affine hfir hv, dcMul_affine hfir hv]
  set a := dcMul armFirF32 refSine it j
  set b := dcMul armFirF32 refCosine it j
  have hsquare : r * a * (r * a) + r * b * (r * b) = r ^ 2 * (a * a + b * b) := by ring
  rw [hsquare, Real.sqrt_mul (sq_nonneg r), Real.sqrt_sq hr.le]

/-- The sum that is averaged has 192 terms.
SOURCE: calcmodule.cc:191-193 -/
theorem sum_resistValue {it vt : Record ℝ} {r c : ℝ} (hr : 0 < r)
    (hv : ∀ j, vt j = r * it j + c)
    (hmag : ∀ j : Fin maxRecordNo, 120 ≤ j.val →
      sqrtSineCosine Real.sqrt armFirF32 it j ≠ 0) :
    ∑ j : Fin maxRecordNo with 120 ≤ j.val, resistValue Real.sqrt armFirF32 vt it j =
      192 * r := by
  have hterm : ∀ j ∈ Finset.univ.filter fun j : Fin maxRecordNo => 120 ≤ j.val,
      resistValue Real.sqrt armFirF32 vt it j = r := by
    intro j hj
    have hne := hmag j (Finset.mem_filter.mp hj).2
    unfold resistValue calibrationConstant
    rw [sqrtSineCosine_affine hfir hr hv, one_mul, mul_div_assoc, div_self hne, mul_one]
  have hcard : (Finset.univ.filter fun j : Fin maxRecordNo => 120 ≤ j.val).card = 192 := by
    decide +kernel
  rw [Finset.sum_congr rfl hterm, Finset.sum_const, hcard, nsmul_eq_mul]
  norm_num

/-- One ratio, when the two records are scaled and shifted apart from each other.
SOURCE: calcmodule.cc:188-189 -/
theorem resistValue_affine {it it' vt vt' : Record ℝ} {s t c d : ℝ} (hs : 0 < s) (ht : 0 < t)
    (hv : ∀ j, vt' j = s * vt j + c) (hi : ∀ j, it' j = t * it j + d) (j : Fin maxRecordNo) :
    resistValue Real.sqrt armFirF32 vt' it' j =
      s / t * resistValue Real.sqrt armFirF32 vt it j := by
  unfold resistValue
  rw [sqrtSineCosine_affine hfir hs hv, sqrtSineCosine_affine hfir ht hi, mul_left_comm,
    mul_div_mul_comm]

/-- What the computation gives for a proportional voltage.
SOURCE: calcmodule.cc:66-197 -/
theorem performCalculation_affine {it vt : Record ℝ} {r c : ℝ} (hr : 0 < r)
    (hv : ∀ j, vt j = r * it j + c)
    (hmag : ∀ j : Fin maxRecordNo, 120 ≤ j.val →
      sqrtSineCosine Real.sqrt armFirF32 it j ≠ 0) :
    performCalculation Real.sqrt armFirF32 vt it = 192 / 193 * (200 * r) := by
  unfold performCalculation
  rw [sum_resistValue hfir hr hv hmag]
  norm_num [maxRecordNo]
  ring

end

/-- **Scaling.**  For every filter library that computes the causal filter, scaling the
voltage by `s` and the current by `t` and shifting both by constants scales the result by
`s / t`, whatever the two signals are.
SOURCE: calcmodule.cc:66-197 -/
theorem performCalculation_scale (armFirF32 : (Fin numTaps → ℝ) → Record ℝ → Record ℝ)
    (hfir : ∀ x, armFirF32 fircoeffs32 x = fir fircoeffs32 x) (it it' vt vt' : Record ℝ)
    (s t c d : ℝ) (hs : 0 < s) (ht : 0 < t) (hv : ∀ j, vt' j = s * vt j + c)
    (hi : ∀ j, it' j = t * it j + d)
    (hmag : ∀ j : Fin maxRecordNo, 120 ≤ j.val →
      sqrtSineCosine Real.sqrt armFirF32 it j ≠ 0) :
    (∀ j : Fin maxRecordNo, 120 ≤ j.val →
        sqrtSineCosine Real.sqrt armFirF32 it' j ≠ 0) ∧
      performCalculation Real.sqrt armFirF32 vt' it' =
        s / t * performCalculation Real.sqrt armFirF32 vt it := by
  constructor
  · intro j hj
    rw [sqrtSineCosine_affine hfir ht hi]
    exact mul_ne_zero ht.ne' (hmag j hj)
  · unfold performCalculation
    rw [Finset.sum_congr rfl fun j _ => resistValue_affine hfir hs ht hv hi j,
      ← Finset.mul_sum]
    ring

/-- **The calibration is never met.**  For every filter library that computes the causal
filter, every current record with a non-zero magnitude at the averaged indices, every
ratio and every constant, the result is not 200 times the ratio.
SOURCE: calcmodule.cc:191-197 -/
theorem performCalculation_not_calibrated
    (armFirF32 : (Fin numTaps → ℝ) → Record ℝ → Record ℝ)
    (hfir : ∀ x, armFirF32 fircoeffs32 x = fir fircoeffs32 x) (it vt : Record ℝ) (r c : ℝ)
    (hr : 0 < r) (hv : ∀ j, vt j = r * it j + c)
    (hmag : ∀ j : Fin maxRecordNo, 120 ≤ j.val →
      sqrtSineCosine Real.sqrt armFirF32 it j ≠ 0) :
    performCalculation Real.sqrt armFirF32 vt it ≠ 200 * r := by
  rw [performCalculation_affine hfir hr hv hmag]
  intro h
  linarith

/-! ## A record with a non-zero magnitude -/

/-- A single negative sample: without its dc offset it is positive from index 1 on. -/
def impulse : Record ℝ := fun j => if j.val = 0 then -312 else 0

/-- An element of a list of positive numbers. -/
theorem getD_pos {l : List ℕ} (h : ∀ x ∈ l, 0 < x) {i : ℕ} (hi : i < l.length) :
    0 < l.getD i 0 := by
  rw [List.getD_eq_getElem?_getD, List.getElem?_eq_getElem hi, Option.getD_some]
  exact h _ (List.getElem_mem hi)

/-- Every coefficient of the filter is positive. -/
theorem fircoeffs32_pos (i : Fin numTaps) : 0 < (fircoeffs32 i : ℝ) := by
  have htable : ∀ x ∈ fircoeffs32Table, 0 < x := by decide +kernel
  have hlen : fircoeffs32Table.length = numTaps := by decide +kernel
  have hi : (0 : ℝ) < fircoeffs32Table.getD i 0 := by
    exact_mod_cast getD_pos htable (i.isLt.trans_eq hlen.symm)
  unfold fircoeffs32
  positivity

/-- Every sample of the reference is positive. -/
theorem refSine_pos (j : Fin maxRecordNo) : 0 < (refSine j : ℝ) := by
  have htable : ∀ x ∈ refSineTable, 0 < x := by decide +kernel
  have hlen : refSineTable.length = maxRecordNo := by decide +kernel
  have hj : 0 < refSineTable.getD j 0 := getD_pos htable (j.isLt.trans_eq hlen.symm)
  unfold refSine
  exact_mod_cast hj

/-- The magnitude of the impulse is not zero where the filter no longer reaches it. -/
theorem sqrtSineCosine_impulse_ne_zero (j : Fin maxRecordNo) (hj : 120 ≤ j.val) :
    sqrtSineCosine Real.sqrt fir impulse j ≠ 0 := by
  have hoffset : dcOffset (temp impulse) = -0.00003051757 := by
    have hsum : ∑ k, temp impulse k = 0.00003051757 * -312 := by
      simp only [temp, impulse, ← Finset.mul_sum]
      congr 1
      rw [Finset.sum_eq_single ⟨0, by decide⟩]
      · simp
      · intro k _ hk
        rw [if_neg fun h => hk (Fin.ext h)]
      · exact fun h => absurd (Finset.mem_univ _) h
    unfold dcOffset
    rw [hsum]
    norm_num [maxRecordNo]
  have hsine : 0 < dcMul fir refSine impulse j := by
    unfold dcMul
    refine fir_pos (by decide) fircoeffs32_pos fun k hk _ => ?_
    have hk0 : k.val ≠ 0 := by
      unfold numTaps at hk
      omega
    have hvalue : removeDcOffset (temp impulse) k = 0.00003051757 := by
      unfold removeDcOffset
      rw [hoffset]
      simp [temp, impulse, hk0]
    rw [hvalue]
    exact mul_pos (by norm_num) (refSine_pos k)
  unfold sqrtSineCosine
  rw [Real.sqrt_ne_zero']
  have := mul_self_nonneg (dcMul fir refCosine impulse j)
  positivity

/-- The same record as voltage and as current, the voltage doubled and shifted by one, the
current times three. -/
theorem performCalculation_scale_impulse :
    (∀ j : Fin maxRecordNo, 120 ≤ j.val →
        sqrtSineCosine Real.sqrt fir (fun j => 3 * impulse j + 0) j ≠ 0) ∧
      performCalculation Real.sqrt fir (fun j => 2 * impulse j + 1)
          (fun j => 3 * impulse j + 0) =
        2 / 3 * performCalculation Real.sqrt fir impulse impulse :=
  performCalculation_scale fir (fun _ => rfl) impulse _ impulse _ 2 3 1 0 two_pos three_pos
    (fun _ => rfl) (fun _ => rfl) sqrtSineCosine_impulse_ne_zero

/-- The same record as voltage and as current, a ratio of one. -/
theorem performCalculation_not_calibrated_impulse :
    performCalculation Real.sqrt fir impulse impulse ≠ 200 * 1 :=
  performCalculation_not_calibrated fir (fun _ => rfl) impulse impulse 1 0 one_pos
    (fun j => by ring) sqrtSineCosine_impulse_ne_zero

/-- For equal voltage and current samples the result is not 200 but 38400/193. -/
theorem performCalculation_impulse :
    (∀ j : Fin maxRecordNo, 120 ≤ j.val → sqrtSineCosine Real.sqrt fir impulse j ≠ 0) ∧
      performCalculation Real.sqrt fir impulse impulse = 38400 / 193 ∧
      performCalculation Real.sqrt fir impulse impulse ≠ 200 * 1 := by
  have hvalue : performCalculation Real.sqrt fir impulse impulse = 38400 / 193 := by
    rw [performCalculation_affine (r := 1) (c := 0) (fun _ => rfl) one_pos
      (fun j => by ring) sqrtSineCosine_impulse_ne_zero]
    norm_num
  refine ⟨sqrtSineCosine_impulse_ne_zero, hvalue, ?_⟩
  rw [hvalue]
  norm_num

end Resmod.Analysis
