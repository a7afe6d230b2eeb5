import Resmod.Model.TimerBase
import Mathlib.Algebra.Order.Field.Rat
import Mathlib.Algebra.Order.Floor.Semifield
import Mathlib.Tactic.FieldSimp
import Mathlib.Tactic.Linarith
import Mathlib.Tactic.NormNum
import Mathlib.Tactic.Ring

/-!
# The period of a timer base

The timer is clocked down to one megahertz, and counts the whole microseconds that fit into
the requested period.  Below 16 Hz these are more than 65536, which is more than the
auto-reload register of a timer of 16 bits counts; `runs_at_iff` says that nothing else goes
wrong.
-/

set_option autoImplicit false

namespace Resmod.Analysis

open Resmod.Model.TimerBase

/-- A timer with clock `f` has an update period of at most that of `freq`, and shorter by
less than a microsecond. -/
def RunsAt (freq f : ℕ) (r : TIM_TypeDef) : Prop :=
  let period : ℚ := (r.PSC.toNat + 1) * (r.ARR.toNat + 1) / f
  period ≤ 1 / freq ∧ 1 / freq - period < 1 / 1000000

/-! ## The values that are stored -/

/-- The table has an entry for each timer. -/
@[simp] theorem timbase_busDetails (tim : Timer) : (busDetails tim).timbase = tim := by
  cases tim <;> rfl

/-- The timers of 32 bits. -/
theorem wide_iff {tim : Timer} : wide tim = true ↔ tim = .TIM2 ∨ tim = .TIM5 := by
  unfold wide
  rw [Bool.or_eq_true, decide_eq_true_eq, decide_eq_true_eq]

/-- Only the prescaler and the reload value matter for the period. -/
theorem configure_PSC (clocks : RCC_ClocksTypeDef) (tim : Timer) (freq : UInt32)
    (r : TIM_TypeDef) :
    (configure clocks tim freq r).PSC = prescalerOf (peripheralFrequency clocks tim) := by
  unfold configure TIM_InternalClockConfig TIM_TimeBaseInit
  rw [timbase_busDetails]
  dsimp only
  split
  · rfl
  · rfl

/-- The period that the timer is given, cut to its width. -/
theorem configure_ARR (clocks : RCC_ClocksTypeDef) (tim : Timer) (freq : UInt32)
    (r : TIM_TypeDef) :
    (configure clocks tim freq r).ARR =
      if wide tim then periodOf freq else (periodOf freq).toUInt16.toUInt32 := by
  unfold configure TIM_InternalClockConfig TIM_TimeBaseInit storeARR
  rw [timbase_busDetails]
  dsimp only
  by_cases h : tim = .TIM1 ∨ tim = .TIM8
  · rw [if_pos h]
  · rw [if_neg h]

/-- A clock of `m` megahertz is divided by `m`. -/
theorem toNat_prescalerOf {f : UInt32} {m : ℕ} (hm : 0 < m) (hf : f.toNat = 1000000 * m) :
    (prescalerOf f).toNat + 1 = m := by
  have hlt := f.toNat_lt
  have hquot : (f.toNat : ℚ) / 1000000 - 1 = ((m - 1 : ℕ) : ℚ) := by
    rw [hf, Nat.cast_sub hm]
    push_cast
    ring
  unfold prescalerOf
  rw [hquot, Nat.floor_natCast, UInt16.toNat_ofNat', Nat.mod_eq_of_lt (by omega)]
  omega

/-- The reload value counts the whole microseconds of a period. -/
theorem toNat_periodOf {freq : UInt32} (hfreq : 0 < freq.toNat)
    (hle : freq.toNat ≤ 1000000) : (periodOf freq).toNat + 1 = 1000000 / freq.toNat := by
  have hpos : 1 ≤ 1000000 / freq.toNat := (Nat.one_le_div_iff hfreq).mpr hle
  have hquot : (1 : ℚ) / freq.toNat / (1 / 1000000) - 1 =
      ((1000000 : ℕ) : ℚ) / freq.toNat - 1 := by
    push_cast
    ring
  unfold periodOf
  rw [hquot, Nat.floor_sub_one, Nat.floor_div_eq_div, UInt32.toNat_ofNat']
  have hbound : 1000000 / freq.toNat ≤ 1000000 := Nat.div_le_self _ _
  rw [Nat.mod_eq_of_lt (by omega)]
  omega

/-- A reload value that fits into 16 bits is stored as it is; a larger one leaves less. -/
theorem toNat_low_periodOf {freq : UInt32} (hfreq : 0 < freq.toNat)
    (hle : freq.toNat ≤ 1000000) (h16 : 16 ≤ freq.toNat) :
    (periodOf freq).toUInt16.toUInt32 = periodOf freq := by
  have hperiod := toNat_periodOf hfreq hle
  have hmono : 1000000 / freq.toNat ≤ 1000000 / 16 := Nat.div_le_div_left h16 (by omega)
  apply UInt32.toNat_inj.mp
  rw [UInt16.toNat_toUInt32, UInt32.toNat_toUInt16, Nat.mod_eq_of_lt (by omega)]

/-- A value that is cut to 16 bits. -/
theorem toNat_low_lt (v : UInt32) : v.toUInt16.toUInt32.toNat < 65536 := by
  rw [UInt16.toNat_toUInt32]
  exact v.toUInt16.toNat_lt

/-! ## The period -/

/-- With the clock divided down to a megahertz, the period is a number of microseconds. -/
theorem runsAt_iff {freq f n : ℕ} {r : TIM_TypeDef} {m : ℕ} (hm : 0 < m)
    (hf : f = 1000000 * m) (hfreq : 0 < freq) (hpsc : r.PSC.toNat + 1 = m)
    (harr : r.ARR.toNat + 1 = n) :
    RunsAt freq f r ↔ n * freq ≤ 1000000 ∧ 1000000 < (n + 1) * freq := by
  have hm' : (m : ℚ) ≠ 0 := Nat.cast_ne_zero.mpr hm.ne'
  have hfreq' : (0 : ℚ) < freq := Nat.cast_pos.mpr hfreq
  have hperiod : ((r.PSC.toNat : ℚ) + 1) * (r.ARR.toNat + 1) / f = n / 1000000 := by
    have hpsc' : (r.PSC.toNat : ℚ) + 1 = m := by exact_mod_cast hpsc
    have harr' : (r.ARR.toNat : ℚ) + 1 = n := by exact_mod_cast harr
    rw [hpsc', harr', hf]
    push_cast
    field_simp
  unfold RunsAt
  dsimp only
  rw [hperiod]
  apply and_congr
  · rw [div_le_div_iff₀ (by norm_num) hfreq', one_mul]
    exact_mod_cast Iff.rfl
  · rw [sub_lt_iff_lt_add, ← add_div, div_lt_div_iff₀ hfreq' (by norm_num), one_mul,
      add_comm (1 : ℚ)]
    exact_mod_cast Iff.rfl

/-- **A timer base runs at the requested frequency exactly if the timer has 32 bits or the
frequency is at least 16 Hz.**
SOURCE: resmod/lowlevelutil/stm32f4timer.cc:104-151 -/
theorem runs_at_iff (clocks : RCC_ClocksTypeDef) (tim : Timer) (r : TIM_TypeDef) {freq : UInt32}
    (hclock : 0 < (peripheralFrequency clocks tim).toNat)
    (hmega : 1000000 ∣ (peripheralFrequency clocks tim).toNat) (hfreq : 1 ≤ freq.toNat)
    (hle : freq.toNat ≤ 1000000) :
    RunsAt freq.toNat (peripheralFrequency clocks tim).toNat (configure clocks tim freq r) ↔
      (tim = .TIM2 ∨ tim = .TIM5) ∨ 16 ≤ freq.toNat := by
  obtain ⟨m, hm⟩ := hmega
  have hmpos : 0 < m := by omega
  have hperiod := toNat_periodOf hfreq hle
  have hfloor : 1000000 / freq.toNat * freq.toNat ≤ 1000000 := Nat.div_mul_le_self _ _
  have hceil : 1000000 < (1000000 / freq.toNat + 1) * freq.toNat := by
    have hmod := Nat.div_add_mod' 1000000 freq.toNat
    have hrest := Nat.mod_lt 1000000 hfreq
    rw [Nat.add_mul, Nat.one_mul]
    omega
  have hpsc : (configure clocks tim freq r).PSC.toNat + 1 = m := by
    rw [configure_PSC, toNat_prescalerOf hmpos hm]
  rw [runsAt_iff hmpos hm hfreq hpsc rfl, configure_ARR]
  by_cases hwide : wide tim = true
  · rw [if_pos hwide, hperiod]
    exact iff_of_true ⟨hfloor, hceil⟩ (Or.inl (wide_iff.mp hwide))
  · rw [if_neg hwide]
    by_cases h16 : 16 ≤ freq.toNat
    · rw [toNat_low_periodOf hfreq hle h16, hperiod]
      exact iff_of_true ⟨hfloor, hceil⟩ (Or.inr h16)
    · -- at most 65536 of the more than 66666 microseconds are counted
      have hlow := toNat_low_lt (periodOf freq)
      apply iff_of_false
      · rintro ⟨-, hshort⟩
        have hshorter : ((periodOf freq).toUInt16.toUInt32.toNat + 1 + 1) * freq.toNat ≤
            65537 * 15 := Nat.mul_le_mul (by omega) (by omega)
        omega
      · rintro (hwide' | h16')
        · exact hwide (wide_iff.mpr hwide')
        · exact h16 h16'

/-- The board's clocks: 42 MHz and 84 MHz. -/
def boardClocks : RCC_ClocksTypeDef := ⟨42000000, 84000000⟩

/-- A timer whose registers are zero. -/
def clearedTimer : TIM_TypeDef := ⟨0, 0, 0, 0, 0, 0⟩

/-- A frequency that a timer of 16 bits can run at. -/
theorem runs_at_hundred_kilohertz :
    RunsAt 100000 (peripheralFrequency boardClocks .TIM3).toNat
      (configure boardClocks .TIM3 100000 clearedTimer) :=
  (@runs_at_iff boardClocks .TIM3 clearedTimer 100000 (by decide) (by decide) (by decide)
    (by decide)).mpr (by decide)

/-- At 1 Hz the reload value 999999 becomes 16959 in a timer of 16 bits. -/
theorem not_runs_at_one_hertz :
    (configure boardClocks .TIM3 1 clearedTimer).ARR = 16959 ∧
      ¬ RunsAt 1 (peripheralFrequency boardClocks .TIM3).toNat
        (configure boardClocks .TIM3 1 clearedTimer) := by
  have hperiod : periodOf 1 = 999999 := by
    apply UInt32.toNat_inj.mp
    have hone := @toNat_periodOf 1 (by decide) (by decide)
    have hquot : 1000000 / (1 : UInt32).toNat = 1000000 := by decide
    rw [hquot] at hone
    exact Nat.succ.inj hone
  have harr : (configure boardClocks .TIM3 1 clearedTimer).ARR = 16959 := by
    rw [configure_ARR, hperiod]
    rfl
  have hpsc : (configure boardClocks .TIM3 1 clearedTimer).PSC.toNat + 1 = 84 := by
    rw [configure_PSC]
    exact toNat_prescalerOf (by decide) (by decide)
  refine ⟨harr, ?_⟩
  rw [runsAt_iff (by decide) (by decide) (by decide) hpsc rfl, harr]
  decide

end Resmod.Analysis
