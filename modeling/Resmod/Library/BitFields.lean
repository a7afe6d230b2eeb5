import Mathlib.Tactic.Common

/-!
# Fields of bits in a word

`onesFrom` builds a mask bit by bit, the way loops do it, and `between` is the value that the
bits between two positions hold, whichever of the positions is given first.  Both are
described by their bits.
-/

set_option autoImplicit false

namespace Resmod.Library

variable {w : ℕ}

/-- `n` ones from bit `start` on, set one after the other. -/
def onesFrom (w start n : ℕ) : BitVec w :=
  (List.range n).foldl (fun mask count => mask ||| 1#w <<< (start + count)) 0#w

/-- One more bit is set at the upper end. -/
theorem onesFrom_succ (start n : ℕ) :
    onesFrom w start (n + 1) = onesFrom w start n ||| 1#w <<< (start + n) := by
  unfold onesFrom
  rw [List.range_succ, List.foldl_append]
  rfl

/-- The word in which one bit is set. -/
theorem getLsbD_one_shiftLeft (k i : ℕ) :
    (1#w <<< k).getLsbD i = (decide (i < w) && decide (i = k)) := by
  rw [BitVec.getLsbD_shiftLeft, BitVec.getLsbD_one]
  by_cases hi : i < w
  · by_cases hk : i = k
    · subst hk
      have hw : 0 < w := by omega
      simp [hi, hw]
    · have hdiff : ¬ i < k → ¬ (i - k = 0) := by omega
      by_cases hlt : i < k
      · simp [hlt, hk]
      · simp [hlt, hk, hdiff hlt]
  · simp [hi]

/-- The bits of a mask. -/
theorem getLsbD_onesFrom (start n i : ℕ) :
    (onesFrom w start n).getLsbD i =
      (decide (i < w) && (decide (start ≤ i) && decide (i < start + n))) := by
  induction n with
  | zero =>
    have hnone : ¬ (start ≤ i ∧ i < start + 0) := by omega
    rw [← Bool.decide_and (start ≤ i), decide_eq_false hnone, Bool.and_false]
    exact BitVec.getLsbD_zero
  | succ n ih =>
    rw [onesFrom_succ, BitVec.getLsbD_or, ih, getLsbD_one_shiftLeft, ← Bool.and_or_distrib_left]
    congr 1
    rw [← Bool.decide_and, ← Bool.decide_and, ← Bool.decide_or]
    apply decide_eq_decide.mpr
    omega

/-- The value of the bits of `x` between the positions `a` and `b`. -/
def between (x : BitVec w) (a b : ℕ) : BitVec w :=
  (x.extractLsb (max a b) (min a b)).setWidth w

/-- The bits that the field takes out of a word. -/
theorem getLsbD_between (x : BitVec w) (a b i : ℕ) :
    (between x a b).getLsbD i =
      (decide (i < w) && (decide (min a b + i ≤ max a b) && x.getLsbD (min a b + i))) := by
  unfold between
  rw [BitVec.getLsbD_setWidth, BitVec.getLsbD_extract]
  congr 2
  apply decide_eq_decide.mpr
  omega

/-- The value of one bit. -/
theorem between_self (x : BitVec w) (a : ℕ) :
    between x a a = if x.getLsbD a then 1#w else 0#w := by
  apply BitVec.eq_of_getLsbD_eq
  intro i hi
  rw [getLsbD_between, Nat.max_self, Nat.min_self]
  by_cases hzero : i = 0
  · subst hzero
    cases hbit : x.getLsbD a with
    | false => simp
    | true => simp [hi]
  · have hbeyond : ¬ a + i ≤ a := by omega
    cases hbit : x.getLsbD a with
    | false => simp [hbeyond]
    | true => simp [hbeyond, hzero, BitVec.getLsbD_one]

/-- A flag of one bit is set. -/
theorem and_twoPow_bne_zero (x : BitVec w) {k : ℕ} (hk : k < w) :
    (x &&& BitVec.twoPow w k != 0#w) = x.getLsbD k := by
  have hne : BitVec.twoPow w k ≠ 0#w := by
    intro h
    have hbit := congrArg (fun y => y.getLsbD k) h
    simp [hk] at hbit
  rw [BitVec.and_twoPow]
  cases x.getLsbD k with
  | false => exact bne_self_eq_false _
  | true => exact bne_iff_ne.mpr hne

/-- A word that is 0 or 1 is what its lowest bit says. -/
theorem eq_ite_getLsbD_zero {x : BitVec w} (h : x.toNat ≤ 1) :
    x = if x.getLsbD 0 then 1#w else 0#w := by
  rcases Nat.le_one_iff_eq_zero_or_eq_one.mp h with hzero | hone
  · have hx : x = 0#w := BitVec.eq_of_toNat_eq (by rw [hzero, BitVec.toNat_zero])
    rw [hx, BitVec.getLsbD_zero, if_neg Bool.false_ne_true]
  · have hw : 0 < w := by
      have hlt := x.isLt
      rw [hone] at hlt
      exact Nat.pos_of_ne_zero fun hw => by simp [hw] at hlt
    have hx : x = 1#w := BitVec.eq_of_toNat_eq (by
      rw [hone, BitVec.toNat_ofNat,
        Nat.mod_eq_of_lt (Nat.one_lt_two_pow (Nat.pos_iff_ne_zero.mp hw))])
    rw [hx, BitVec.getLsbD_one, decide_eq_true hw, decide_eq_true rfl, Bool.and_self,
      if_pos rfl]

end Resmod.Library
