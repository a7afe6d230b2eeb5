import Resmod.Library.Copy
import Mathlib.Data.List.Rotate
import Mathlib.Data.Nat.ModEq

/-!
# Windows of a ring buffer

A ring buffer keeps a first-in first-out queue in the cells of a fixed list: the oldest item
is at `start`, the others follow it, and the first cell comes behind the last one.
`window cells start count` are the items.  An item is put behind the window with one store
(`window_set`), the oldest ones are taken off by moving `start` (`window_add`,
`drop_window`), and a window that does not go round is a slice of the cells
(`window_eq_slice`).
-/

set_option autoImplicit false

namespace Resmod.Library

variable {α : Type*}

/-- The `count` items from cell `start` on, going round the ring. -/
def window (cells : List α) (start count : ℕ) : List α := (cells.rotate start).take count

variable {cells : List α} {start count : ℕ}

/-- A window within the ring has the length asked for. -/
theorem length_window (h : count ≤ cells.length) : (window cells start count).length = count := by
  rw [window, List.length_take, List.length_rotate, Nat.min_eq_left h]

/-- Only the position within the ring matters. -/
theorem window_mod (cells : List α) (start count : ℕ) :
    window cells (start % cells.length) count = window cells start count := by
  rw [window, List.rotate_mod, window]

/-- A window that does not reach beyond the last cell. -/
theorem window_eq_slice (h : start + count ≤ cells.length) :
    window cells start count = slice cells start count := by
  rw [window, List.rotate_eq_drop_append_take (by omega), slice, List.take_append_of_le_length]
  rw [List.length_drop]
  omega

/-- A window in two parts. -/
theorem window_add {a b : ℕ} (h : a + b ≤ cells.length) :
    window cells start (a + b) = window cells start a ++ window cells (start + a) b := by
  have hlen := List.length_rotate cells start
  rw [window, List.take_add, window, window, ← List.rotate_rotate cells start a,
    List.rotate_eq_drop_append_take (l := cells.rotate start) (n := a) (by omega),
    List.take_append_of_le_length]
  rw [List.length_drop]
  omega

/-- The oldest items are taken off. -/
theorem drop_window {k : ℕ} (hk : k ≤ count) (h : count ≤ cells.length) :
    (window cells start count).drop k = window cells (start + k) (count - k) := by
  have hlen : (window cells start k).length = k := length_window (by omega)
  rw [← Nat.add_sub_cancel' hk, window_add (by omega), Nat.add_sub_cancel_left]
  exact List.drop_left' hlen

/-- The front of a window is a window. -/
theorem take_window {k : ℕ} (hk : k ≤ count) :
    (window cells start count).take k = window cells start k := by
  rw [window, List.take_take, Nat.min_eq_left hk, window]

/-- The elements of a window. -/
theorem getElem_window {i : ℕ} (hi : i < (window cells start count).length)
    (h : (i + start) % cells.length < cells.length) :
    (window cells start count)[i] = cells[(i + start) % cells.length] := by
  simp only [window, List.getElem_take, List.getElem_rotate]

/-- An item is stored behind the window. -/
theorem window_set (h : count < cells.length) (x : α) :
    window (cells.set ((start + count) % cells.length) x) start (count + 1) =
      window cells start count ++ [x] := by
  have hpos : 0 < cells.length := by omega
  have hlen : (window cells start count).length = count := length_window (by omega)
  apply List.ext_getElem
  · rw [length_window (by rw [List.length_set]; omega), List.length_append, hlen,
      List.length_singleton]
  intro i hi _
  rw [length_window (by rw [List.length_set]; omega)] at hi
  rw [getElem_window _ (by rw [List.length_set]; exact Nat.mod_lt _ hpos)]
  simp only [List.length_set, List.getElem_set]
  by_cases hlast : i = count
  · subst hlast
    rw [if_pos (by rw [Nat.add_comm])]
    simp [List.getElem_append_right, hlen]
  · -- the other items lie in other cells
    have hne : (start + count) % cells.length ≠ (i + start) % cells.length := by
      intro heq
      rw [Nat.add_comm i] at heq
      exact hlast (Nat.ModEq.eq_of_lt_of_lt (Nat.ModEq.add_left_cancel' start heq) h
        (by omega)).symm
    rw [if_neg hne, List.getElem_append_left (by omega), getElem_window]

end Resmod.Library
