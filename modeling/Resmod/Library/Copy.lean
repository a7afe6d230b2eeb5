import Mathlib.Data.List.Basic
import Mathlib.Tactic.Common

/-!
# Copies between buffers

`slice l off count` are the `count` items of a buffer from `off` on, and `copy` puts a slice
of one buffer into another: it is defined only where both lie within their buffers.  Copies
one behind the other fill a buffer from its front (`take_of_copy`, `slice_append_slice`), and
a slice of equal blocks laid end to end that lies in one block is a slice of that block
(`slice_flatten`, and `copy_flatten` for a copy to that block).
-/

set_option autoImplicit false

namespace Resmod.Library

variable {α : Type*}

/-- Elements from an offset on. -/
def slice (l : List α) (off count : ℕ) : List α := (l.drop off).take count

/-- Copy `count` items of `src` from `srcOff` on to `dst` from `dstOff` on. -/
def copy (dst : List α) (dstOff : ℕ) (src : List α) (srcOff count : ℕ) : Option (List α) :=
  if srcOff + count ≤ src.length ∧ dstOff + count ≤ dst.length then
    some (dst.take dstOff ++ slice src srcOff count ++ dst.drop (dstOff + count))
  else none

/-- A slice that lies within the list has the length asked for. -/
theorem length_slice {l : List α} {off count : ℕ} (h : off + count ≤ l.length) :
    (slice l off count).length = count := by
  rw [slice, List.length_take, List.length_drop]
  omega

/-- Two slices that meet are one slice. -/
theorem slice_append_slice (l : List α) (off a b : ℕ) :
    slice l off a ++ slice l (off + a) b = slice l off (a + b) := by
  rw [slice, slice, slice, List.take_add, List.drop_drop]

variable {dst src dst' : List α} {dstOff srcOff count : ℕ}

/-- A copy within both lists succeeds. -/
theorem copy_eq_some (hsrc : srcOff + count ≤ src.length) (hdst : dstOff + count ≤ dst.length) :
    copy dst dstOff src srcOff count =
      some (dst.take dstOff ++ slice src srcOff count ++ dst.drop (dstOff + count)) :=
  if_pos ⟨hsrc, hdst⟩

/-- A copy that is defined keeps the length of its destination, and extends what has been
filled by the slice. -/
theorem exists_copy (hsrc : srcOff + count ≤ src.length) (hdst : dstOff + count ≤ dst.length) :
    ∃ dst', copy dst dstOff src srcOff count = some dst' ∧ dst'.length = dst.length ∧
      dst'.take (dstOff + count) = dst.take dstOff ++ slice src srcOff count := by
  have hfilled : (dst.take dstOff ++ slice src srcOff count).length = dstOff + count := by
    rw [List.length_append, length_slice hsrc, List.length_take]
    omega
  refine ⟨_, copy_eq_some hsrc hdst, ?_, ?_⟩
  · rw [List.length_append, hfilled, List.length_drop]
    omega
  · rw [← hfilled, List.take_left]

/-- When a copy succeeds, and what it leaves. -/
theorem copy_eq_some_iff :
    copy dst dstOff src srcOff count = some dst' ↔
      (srcOff + count ≤ src.length ∧ dstOff + count ≤ dst.length) ∧
        dst.take dstOff ++ slice src srcOff count ++ dst.drop (dstOff + count) = dst' := by
  unfold copy
  rw [Option.ite_none_right_eq_some, Option.some_inj]

/-- A copy keeps the length of its destination. -/
theorem length_copy (h : copy dst dstOff src srcOff count = some dst') :
    dst'.length = dst.length := by
  obtain ⟨hbounds, -⟩ := copy_eq_some_iff.mp h
  obtain ⟨_, hcopy, hlen, -⟩ := exists_copy hbounds.1 hbounds.2
  rw [h] at hcopy
  rw [Option.some.inj hcopy, hlen]

/-- The length of blocks of one length, put together. -/
theorem length_flatten_blocks {m : ℕ} {blocks : List (List α)}
    (hm : ∀ b ∈ blocks, b.length = m) : blocks.flatten.length = blocks.length * m := by
  induction blocks with
  | nil => exact (Nat.zero_mul m).symm
  | cons b blocks ih =>
    rw [List.forall_mem_cons] at hm
    rw [List.flatten_cons, List.length_append, hm.1, ih hm.2, List.length_cons, Nat.succ_mul,
      Nat.add_comm]

/-- A copy to block `j` is a copy to the blocks laid end to end. -/
theorem copy_flatten {m : ℕ} {blocks : List (List α)} (hm : ∀ b ∈ blocks, b.length = m)
    {j off : ℕ} {b b' : List α} (hb : blocks[j]? = some b)
    (h : copy b off src srcOff count = some b') :
    copy blocks.flatten (j * m + off) src srcOff count = some (blocks.set j b').flatten := by
  induction blocks generalizing j with
  | nil => simp at hb
  | cons block blocks ih =>
    rw [List.forall_mem_cons] at hm
    cases j with
    | zero =>
      obtain rfl : block = b := by simpa using hb
      obtain ⟨⟨hsrc, hdst⟩, rfl⟩ := copy_eq_some_iff.mp h
      rw [copy_eq_some_iff, Nat.zero_mul, Nat.zero_add, List.set_cons_zero,
        List.flatten_cons, List.flatten_cons, List.length_append,
        List.take_append_of_le_length (by omega), List.drop_append_of_le_length hdst]
      exact ⟨⟨hsrc, by omega⟩, (List.append_assoc _ _ _).symm⟩
    | succ j =>
      have hskip : (j + 1) * m + off = block.length + (j * m + off) := by
        rw [hm.1, Nat.succ_mul]
        omega
      have htail := ih hm.2 (by simpa using hb)
      obtain ⟨⟨hsrc, hdst⟩, hflatten⟩ := copy_eq_some_iff.mp htail
      rw [copy_eq_some_iff, hskip, List.set_cons_succ, List.flatten_cons, List.flatten_cons,
        List.length_append, List.take_length_add_append, Nat.add_assoc block.length,
        List.drop_length_add_append, List.append_assoc, List.append_assoc, ← hflatten,
        List.append_assoc]
      exact ⟨⟨hsrc, by omega⟩, rfl⟩

/-- The front of equal blocks laid end to end is made of fronts of the blocks. -/
theorem flatten_mapIdx_take {m : ℕ} {blocks : List (List α)} (hm : ∀ b ∈ blocks, b.length = m)
    (len : ℕ) :
    (blocks.mapIdx fun i b => b.take (len - i * m)).flatten = blocks.flatten.take len := by
  induction blocks generalizing len with
  | nil => simp
  | cons b blocks ih =>
    rw [List.forall_mem_cons] at hm
    have hshift : ∀ i, len - (i + 1) * m = len - m - i * m := by
      intro i
      rw [Nat.succ_mul, Nat.sub_sub, Nat.add_comm]
    rw [List.mapIdx_cons, List.flatten_cons, List.flatten_cons, List.take_append, hm.1,
      Nat.zero_mul, Nat.sub_zero, ← ih hm.2 (len - m)]
    simp only [hshift]

/-- A slice of blocks laid end to end that lies in block `j`. -/
theorem slice_flatten {m : ℕ} {blocks : List (List α)} (hm : ∀ b ∈ blocks, b.length = m)
    {j off count : ℕ} {b : List α} (hb : blocks[j]? = some b) (hfit : off + count ≤ m) :
    slice blocks.flatten (j * m + off) count = slice b off count := by
  induction blocks generalizing j with
  | nil => simp at hb
  | cons block blocks ih =>
    rw [List.forall_mem_cons] at hm
    cases j with
    | zero =>
      obtain rfl : block = b := by simpa using hb
      rw [Nat.zero_mul, Nat.zero_add, List.flatten_cons, slice, slice,
        List.drop_append_of_le_length (by omega), List.take_append_of_le_length]
      rw [List.length_drop]
      omega
    | succ j =>
      have hskip : (j + 1) * m + off = block.length + (j * m + off) := by
        rw [hm.1, Nat.succ_mul]
        omega
      rw [hskip, List.flatten_cons, slice, List.drop_length_add_append]
      exact ih hm.2 (by simpa using hb)

end Resmod.Library
