import Mathlib.Data.List.Iterate
import Mathlib.Data.List.Nodup
import Mathlib.Data.Nat.ModEq
import Mathlib.Logic.Function.Basic
import Mathlib.Logic.Function.Iterate
import Mathlib.Tactic.Common

/-!
# Going round a ring

`ringNext` takes the places `0, ..., n - 1` of a ring to the next one, the last one to the
first.  `List.iterate ringNext d k` are the `k` places from `d` on: they are different as long
as `k` is at most `n`, and with `k = n` one is back at `d`.
-/

set_option autoImplicit false

namespace Resmod.Library

variable {n : ℕ}

/-- The next place of the ring. -/
def ringNext (i : Fin n) : Fin n := ⟨(i + 1) % n, Nat.mod_lt _ i.pos⟩

/-- The position after some steps around the ring. -/
theorem val_iterate_ringNext (d : Fin n) (k : ℕ) : (ringNext^[k] d).val = (d + k) % n := by
  induction k with
  | zero => exact (Nat.mod_eq_of_lt d.isLt).symm
  | succ k ih =>
    rw [Function.iterate_succ_apply']
    show ((ringNext^[k] d).val + 1) % n = _
    rw [ih, Nat.mod_add_mod, Nat.add_assoc]

/-- Once round the ring. -/
theorem iterate_ringNext_self (d : Fin n) : ringNext^[n] d = d := by
  apply Fin.ext
  rw [val_iterate_ringNext, Nat.add_mod_right, Nat.mod_eq_of_lt d.isLt]

/-- Fewer than `n` steps lead to different places. -/
theorem iterate_ringNext_inj {d : Fin n} {i j : ℕ} (hi : i < n) (hj : j < n)
    (h : ringNext^[i] d = ringNext^[j] d) : i = j := by
  have hval := congrArg Fin.val h
  rw [val_iterate_ringNext, val_iterate_ringNext] at hval
  exact Nat.ModEq.eq_of_lt_of_lt (Nat.ModEq.add_left_cancel' d.val hval) hi hj

/-- Once around the ring no position is met twice. -/
theorem nodup_iterate_ringNext (d : Fin n) {k : ℕ} (hk : k ≤ n) :
    (List.iterate ringNext d k).Nodup := by
  rw [← List.range_map_iterate]
  apply List.Nodup.map_on _ List.nodup_range
  intro i hi j hj h
  exact iterate_ringNext_inj (Nat.lt_of_lt_of_le (List.mem_range.mp hi) hk)
    (Nat.lt_of_lt_of_le (List.mem_range.mp hj) hk) h

/-- One of the places from `d` on gets another value. -/
theorem map_update_iterate_ringNext {α : Type*} (f : Fin n → α) (d : Fin n) {j k : ℕ}
    (hj : j < k) (hk : k ≤ n) (x : α) :
    (List.iterate ringNext d k).map (Function.update f (ringNext^[j] d) x) =
      ((List.iterate ringNext d k).map f).set j x := by
  apply List.ext_getElem
  · rw [List.length_set, List.length_map, List.length_map]
  intro i hi _
  rw [List.length_map, List.length_iterate] at hi
  rw [List.getElem_set, List.getElem_map, List.getElem_map, List.getElem_iterate]
  by_cases h : j = i
  · rw [if_pos h, h, Function.update_self]
  · rw [if_neg h, Function.update_of_ne]
    intro heq
    exact h (iterate_ringNext_inj (by omega) (by omega) heq.symm)

/-- The ring, cut behind its first `k` places. -/
theorem iterate_ringNext_split (d : Fin n) {k : ℕ} (hk : k ≤ n) :
    List.iterate ringNext d n =
      List.iterate ringNext d k ++ List.iterate ringNext (ringNext^[k] d) (n - k) := by
  rw [← List.iterate_add, Nat.add_sub_cancel' hk]

/-- The rest of the way round the ring. -/
theorem iterate_ringNext_back (d : Fin n) {k : ℕ} (hk : k ≤ n) :
    ringNext^[n - k] (ringNext^[k] d) = d := by
  rw [← Function.iterate_add_apply, Nat.sub_add_cancel hk, iterate_ringNext_self]

/-- The ring from the place behind its first `k`: these come last. -/
theorem iterate_ringNext_rotate (d : Fin n) {k : ℕ} (hk : k ≤ n) :
    List.iterate ringNext (ringNext^[k] d) n =
      List.iterate ringNext (ringNext^[k] d) (n - k) ++ List.iterate ringNext d k := by
  rw [iterate_ringNext_split (ringNext^[k] d) (Nat.sub_le n k), iterate_ringNext_back d hk,
    Nat.sub_sub_self hk]

/-- Every place is passed on the way round the ring. -/
theorem mem_iterate_ringNext_self (d i : Fin n) : i ∈ List.iterate ringNext d n := by
  rw [List.mem_iterate]
  refine ⟨(i + (n - d)) % n, Nat.mod_lt _ i.pos, Fin.ext ?_⟩
  have hd : d.val + (i.val + (n - d.val)) = i.val + n := by
    have hlt := d.isLt
    omega
  rw [val_iterate_ringNext, Nat.add_mod_mod, hd, Nat.add_mod_right, Nat.mod_eq_of_lt i.isLt]

end Resmod.Library
