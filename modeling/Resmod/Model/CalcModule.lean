import Mathlib.Algebra.BigOperators.Field
import Mathlib.Algebra.Field.Rat
import Mathlib.Data.Fintype.BigOperators
import Mathlib.Data.Rat.Cast.OfScientific

/-!
# The resistivity computation

`CalcModule::PerformCalculation` of `calcmodule.cc`, read over a field instead of the
`float` of the target.  A sample is the number that its `int16_t` converts to.

The two library functions it calls are parameters: `sqrt`, and `arm_fir_f32` on a filter
that `arm_fir_init_f32` has just set up with the given coefficients, for a block of the
length of a record.  The source makes the same computation for the voltage and for the
current, with a variable of its own for each; here it is one definition.
-/

set_option autoImplicit false

namespace Resmod.Model.CalcModule

/-- The samples of a record. -/
def maxRecordNo : ℕ := 312

/-- The coefficients of the filter. -/
def numTaps : ℕ := 101

/-- `fircoeffs32` of `tables.h`, in units of 10⁻⁹. -/
def fircoeffs32Table : List ℕ := [
  1477455, 1494306, 1544623, 1628212, 1744750, 1893781, 2074723, 2286866, 2529378, 2801305,
  3101579, 3429018, 3782332, 4160130, 4560923, 4983133, 5425095, 5885065, 6361231, 6851713,
  7354577, 7867839, 8389473, 8917421, 9449599, 9983905, 10518232, 11050469, 11578514,
  12100284, 12613716, 13116785, 13607502, 14083930, 14544188, 14986456, 15408989, 15810116,
  16188255, 16541910, 16869684, 17170283, 17442520, 17685318, 17897718, 18078882, 18228092,
  18344761, 18428427, 18478759, 18495558, 18478759, 18428427, 18344761, 18228092, 18078882,
  17897718, 17685318, 17442520, 17170283, 16869684, 16541910, 16188255, 15810116, 15408989,
  14986456, 14544188, 14083930, 13607502, 13116785, 12613716, 12100284, 11578514, 11050469,
  10518232, 9983905, 9449599, 8917421, 8389473, 7867839, 7354577, 6851713, 6361231, 5885065,
  5425095, 4983133, 4560923, 4160130, 3782332, 3429018, 3101579, 2801305, 2529378, 2286866,
  2074723, 1893781, 1744750, 1628212, 1544623, 1494306, 1477455]

/-- `ref_sine_` of `calcmodule.h`. -/
def refSineTable : List ℕ := [
  32768, 34747, 36718, 38675, 40610, 42517, 44388, 46217, 47996, 49720, 51383, 52977, 54497,
  55939, 57295, 58563, 59736, 60810, 61783, 62649, 63407, 64052, 64584, 64999, 65297, 65476,
  65536, 65476, 65297, 64999, 64584, 64052, 63407, 62649, 61783, 60810, 59736, 58563, 57295,
  55939, 54497, 52977, 51383, 49720, 47996, 46217, 44388, 42517, 40610, 38675, 36718, 34747,
  32768, 30790, 28819, 26862, 24927, 23020, 21149, 19320, 17541, 15817, 14154, 12560, 11040,
  9598, 8242, 6974, 5801, 4727, 3754, 2888, 2130, 1485, 953, 538, 240, 61, 1, 61, 240, 538,
  953, 1485, 2130, 2888, 3754, 4727, 5801, 6974, 8242, 9598, 11040, 12560, 14154, 15817,
  17541, 19320, 21149, 23020, 24927, 26862, 28819, 30790, 32768, 34747, 36718, 38675, 40610,
  42517, 44388, 46217, 47996, 49720, 51383, 52977, 54497, 55939, 57295, 58563, 59736, 60810,
  61783, 62649, 63407, 64052, 64584, 64999, 65297, 65476, 65536, 65476, 65297, 64999, 64584,
  64052, 63407, 62649, 61783, 60810, 59736, 58563, 57295, 55939, 54497, 52977, 51383, 49720,
  47996, 46217, 44388, 42517, 40610, 38675, 36718, 34747, 32768, 30790, 28819, 26862, 24927,
  23020, 21149, 19320, 17541, 15817, 14154, 12560, 11040, 9598, 8242, 6974, 5801, 4727,
  3754, 2888, 2130, 1485, 953, 538, 240, 61, 1, 61, 240, 538, 953, 1485, 2130, 2888, 3754,
  4727, 5801, 6974, 8242, 9598, 11040, 12560, 14154, 15817, 17541, 19320, 21149, 23020,
  24927, 26862, 28819, 30790, 32768, 34747, 36718, 38675, 40610, 42517, 44388, 46217, 47996,
  49720, 51383, 52977, 54497, 55939, 57295, 58563, 59736, 60810, 61783, 62649, 63407, 64052,
  64584, 64999, 65297, 65476, 65536, 65476, 65297, 64999, 64584, 64052, 63407, 62649, 61783,
  60810, 59736, 58563, 57295, 55939, 54497, 52977, 51383, 49720, 47996, 46217, 44388, 42517,
  40610, 38675, 36718, 34747, 32768, 30790, 28819, 26862, 24927, 23020, 21149, 19320, 17541,
  15817, 14154, 12560, 11040, 9598, 8242, 6974, 5801, 4727, 3754, 2888, 2130, 1485, 953,
  538, 240, 61, 1, 61, 240, 538, 953, 1485, 2130, 2888, 3754, 4727, 5801, 6974, 8242, 9598,
  11040, 12560, 14154, 15817, 17541, 19320, 21149, 23020, 24927, 26862, 28819, 30790]

/-- `ref_cosine_` of `calcmodule.h`. -/
def refCosineTable : List ℕ := [
  65536, 65476, 65297, 64999, 64584, 64052, 63407, 62649, 61783, 60810, 59736, 58563, 57295,
  55939, 54497, 52977, 51383, 49720, 47996, 46217, 44388, 42517, 40610, 38675, 36718, 34747,
  32768, 30790, 28819, 26862, 24927, 23020, 21149, 19320, 17541, 15817, 14154, 12560, 11040,
  9598, 8242, 6974, 5801, 4727, 3754, 2888, 2130, 1485, 953, 538, 240, 61, 1, 61, 240, 538,
  953, 1485, 2130, 2888, 3754, 4727, 5801, 6974, 8242, 9598, 11040, 12560, 14154, 15817,
  17541, 19320, 21149, 23020, 24927, 26862, 28819, 30790, 32768, 34747, 36718, 38675, 40610,
  42517, 44388, 46217, 47996, 49720, 51383, 52977, 54497, 55939, 57295, 58563, 59736, 60810,
  61783, 62649, 63407, 64052, 64584, 64999, 65297, 65476, 65536, 65476, 65297, 64999, 64584,
  64052, 63407, 62649, 61783, 60810, 59736, 58563, 57295, 55939, 54497, 52977, 51383, 49720,
  47996, 46217, 44388, 42517, 40610, 38675, 36718, 34747, 32768, 30790, 28819, 26862, 24927,
  23020, 21149, 19320, 17541, 15817, 14154, 12560, 11040, 9598, 8242, 6974, 5801, 4727,
  3754, 2888, 2130, 1485, 953, 538, 240, 61, 1, 61, 240, 538, 953, 1485, 2130, 2888, 3754,
  4727, 5801, 6974, 8242, 9598, 11040, 12560, 14154, 15817, 17541, 19320, 21149, 23020,
  24927, 26862, 28819, 30790, 32768, 34747, 36718, 38675, 40610, 42517, 44388, 46217, 47996,
  49720, 51383, 52977, 54497, 55939, 57295, 58563, 59736, 60810, 61783, 62649, 63407, 64052,
  64584, 64999, 65297, 65476, 65536, 65476, 65297, 64999, 64584, 64052, 63407, 62649, 61783,
  60810, 59736, 58563, 57295, 55939, 54497, 52977, 51383, 49720, 47996, 46217, 44388, 42517,
  40610, 38675, 36718, 34747, 32768, 30790, 28819, 26862, 24927, 23020, 21149, 19320, 17541,
  15817, 14154, 12560, 11040, 9598, 8242, 6974, 5801, 4727, 3754, 2888, 2130, 1485, 953,
  538, 240, 61, 1, 61, 240, 538, 953, 1485, 2130, 2888, 3754, 4727, 5801, 6974, 8242, 9598,
  11040, 12560, 14154, 15817, 17541, 19320, 21149, 23020, 24927, 26862, 28819, 30790, 32768,
  34747, 36718, 38675, 40610, 42517, 44388, 46217, 47996, 49720, 51383, 52977, 54497, 55939,
  57295, 58563, 59736, 60810, 61783, 62649, 63407, 64052, 64584, 64999, 65297, 65476]

variable {K : Type*} [Field K]

/-- The number that is stored at every index of a record. -/
abbrev Record (K : Type*) := Fin maxRecordNo → K

/-- A coefficient: the table has billionths. -/
def fircoeffs32 (i : Fin numTaps) : K := (fircoeffs32Table.getD i 0 : K) / 10 ^ 9

/-- The sine that a record is multiplied with. -/
def refSine : Record K := fun j => (refSineTable.getD j 0 : K)

/-- The cosine that a record is multiplied with. -/
def refCosine : Record K := fun j => (refCosineTable.getD j 0 : K)

/-- `temp_v`, `temp_i`: the samples scaled to an amplitude of one. -/
def temp (samples : Record K) : Record K := fun j => 0.00003051757 * samples j

/-- The mean of a record. -/
def dcOffset (x : Record K) : K := (∑ j, x j) / maxRecordNo

/-- The record without its mean. -/
def removeDcOffset (x : Record K) : Record K := fun j => x j - dcOffset x

variable (sqrt : K → K) (armFirF32 : (Fin numTaps → K) → Record K → Record K)

/-- `dc_v_mul_sine` and its three siblings: the record multiplied by a reference and
filtered. -/
def dcMul (reference samples : Record K) : Record K :=
  armFirF32 fircoeffs32 fun j => removeDcOffset (temp samples) j * reference j

/-- `sqrt_v_sine_cosine`, `sqrt_i_sine_cosine`: the filtered magnitude of a record. -/
def sqrtSineCosine (samples : Record K) : Record K := fun j =>
  sqrt (dcMul armFirF32 refSine samples j * dcMul armFirF32 refSine samples j +
    dcMul armFirF32 refCosine samples j * dcMul armFirF32 refCosine samples j)

/-- The calibration is 1. -/
def calibrationConstant : K := 1

/-- The quotient of the two amplitudes, for each sample. -/
def resistValue (vt it : Record K) : Record K := fun j =>
  calibrationConstant * sqrtSineCosine sqrt armFirF32 vt j / sqrtSineCosine sqrt armFirF32 it j

/-- `PerformCalculation`: what it leaves in `resist_can`. -/
def performCalculation (vt it : Record K) : K :=
  let avgResist := ∑ j : Fin maxRecordNo with 120 ≤ j.val, resistValue sqrt armFirF32 vt it j
  let avgResist := avgResist / (maxRecordNo - 120 + 1 : ℕ)
  avgResist * 200

end Resmod.Model.CalcModule
