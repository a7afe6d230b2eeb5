import Mathlib.Data.List.Basic
import Mathlib.Tactic.Common

/-!
# Cutting a list into blocks

`blocks m l` is the list of the whole blocks of length `m` at the front of `l`, and
`rest m l` is what is left behind them.  Both are determined by two rules, one for a list
shorter than a block and one for a list that begins with a block, and `blockInduction` is
the induction that goes with the rules.  What a stream is cut into is compatible with
appending as long as the first part ends with a whole block.

`pieces m l` cuts the whole list: its last piece is what `rest` leaves, if anything.
-/

set_option autoImplicit false

namespace Resmod.Library

variable {α : Type*}

/-- The whole blocks of length `m` at the front of the list. -/
def blocks (m : ℕ) (l : List α) : List (List α) :=
  (List.range (l.length / m)).map fun i : ℕ => (l.drop (i * m)).take m

/-- What is left behind the last whole block. -/
def rest (m : ℕ) (l : List α) : List α := l.drop (l.length / m * m)

/-- A short list has no full block. -/
theorem blocks_of_lt {m : ℕ} {l : List α} (h : l.length < m) : blocks m l = [] := by
  simp [blocks, Nat.div_eq_of_lt h]

/-- A short list is its own rest. -/
theorem rest_of_lt {m : ℕ} {l : List α} (h : l.length < m) : rest m l = l := by
  simp [rest, Nat.div_eq_of_lt h]

/-- The empty list has no block. -/
@[simp] theorem blocks_nil (m : ℕ) : blocks m ([] : List α) = [] := by
  simp [blocks]

/-- The empty list leaves nothing. -/
@[simp] theorem rest_nil (m : ℕ) : rest m ([] : List α) = [] := by
  simp [rest]

/-- Behind a block at the front the cuts are those of the other list. -/
theorem map_range_block_append {m : ℕ} {x : List α} (hx : x.length = m) (y : List α) (k : ℕ) :
    ((List.range (k + 1)).map fun i : ℕ => ((x ++ y).drop (i * m)).take m) =
      x :: (List.range k).map fun i : ℕ => (y.drop (i * m)).take m := by
  simp only [List.range_succ_eq_map, List.map_cons, List.map_map]
  congr 1
  · simp [hx]
  · refine List.map_congr_left fun i _ => ?_
    have hdrop : (i + 1) * m = x.length + i * m := by
      rw [hx, Nat.succ_mul, Nat.add_comm]
    simp [Function.comp_apply, hdrop]

/-- A block at the front is the first block. -/
theorem blocks_block_append {m : ℕ} (hm : 0 < m) {x : List α} (hx : x.length = m)
    (y : List α) : blocks m (x ++ y) = x :: blocks m y := by
  have hdiv : (x ++ y).length / m = y.length / m + 1 := by
    rw [List.length_append, hx, Nat.add_div_left _ hm]
  rw [blocks, hdiv, map_range_block_append hx]
  rfl

/-- A block at the front is not part of the rest. -/
theorem rest_block_append {m : ℕ} (hm : 0 < m) {x : List α} (hx : x.length = m)
    (y : List α) : rest m (x ++ y) = rest m y := by
  have hdiv : (x ++ y).length / m * m = x.length + y.length / m * m := by
    rw [List.length_append, hx, Nat.add_div_left _ hm, Nat.succ_mul, Nat.add_comm]
  rw [rest, hdiv, List.drop_length_add_append, rest]

/-- Every list is shorter than a block or begins with one. -/
theorem blockInduction {m : ℕ} (hm : 0 < m) {motive : List α → Prop}
    (short : ∀ l, l.length < m → motive l)
    (block : ∀ x y, x.length = m → motive y → motive (x ++ y)) (l : List α) : motive l := by
  induction hn : l.length using Nat.strongRecOn generalizing l with
  | _ n ih =>
    by_cases hlt : l.length < m
    · exact short l hlt
    · have hy : motive (l.drop m) := ih (l.drop m).length (by simp; omega) _ rfl
      have hxy := block (l.take m) (l.drop m) (by simp; omega) hy
      rwa [List.take_append_drop] at hxy

/-- Nothing is lost or moved by the cut. -/
theorem blocks_flatten_append_rest {m : ℕ} (hm : 0 < m) (l : List α) :
    (blocks m l).flatten ++ rest m l = l := by
  induction l using blockInduction hm with
  | short l h => simp [blocks_of_lt h, rest_of_lt h]
  | block x y hx ih =>
    rw [blocks_block_append hm hx, rest_block_append hm hx, List.flatten_cons,
      List.append_assoc, ih]

/-- Every block is full. -/
theorem length_of_mem_blocks {m : ℕ} (hm : 0 < m) {l x : List α} (h : x ∈ blocks m l) :
    x.length = m := by
  induction l using blockInduction hm with
  | short l hl => simp [blocks_of_lt hl] at h
  | block y z hy ih =>
    rw [blocks_block_append hm hy, List.mem_cons] at h
    rcases h with rfl | h
    · exact hy
    · exact ih h

/-- The rest is shorter than a block. -/
theorem length_rest_lt {m : ℕ} (hm : 0 < m) (l : List α) : (rest m l).length < m := by
  induction l using blockInduction hm with
  | short l h => rwa [rest_of_lt h]
  | block x y hx ih => rwa [rest_block_append hm hx]

/-- Behind whole blocks the cut starts afresh. -/
theorem blocks_append_of_rest_eq_nil {m : ℕ} (hm : 0 < m) {l : List α} (h : rest m l = [])
    (l' : List α) :
    blocks m (l ++ l') = blocks m l ++ blocks m l' ∧ rest m (l ++ l') = rest m l' := by
  induction l using blockInduction hm with
  | short l hl =>
    rw [rest_of_lt hl] at h
    simp [h]
  | block x y hx ih =>
    rw [rest_block_append hm hx] at h
    obtain ⟨hblocks, hrest⟩ := ih h
    rw [List.append_assoc, blocks_block_append hm hx, blocks_block_append hm hx,
      rest_block_append hm hx, hblocks, hrest, List.cons_append]
    exact ⟨rfl, rfl⟩

/-! ## Cutting the whole list -/

/-- The list cut into pieces of length `m`, the last of which may be shorter. -/
def pieces (m : ℕ) (l : List α) : List (List α) :=
  (List.range ((l.length + (m - 1)) / m)).map fun i : ℕ => (l.drop (i * m)).take m

/-- The number of pieces is the quotient rounded up. -/
theorem length_pieces (m : ℕ) (l : List α) :
    (pieces m l).length = (l.length + (m - 1)) / m := by
  simp [pieces]

/-- The empty list has no piece. -/
theorem pieces_nil {m : ℕ} (hm : 0 < m) : pieces m ([] : List α) = [] := by
  have hdiv : (0 + (m - 1)) / m = 0 := Nat.div_eq_of_lt (by omega)
  rw [pieces, List.length_nil, hdiv]
  rfl

/-- A list that is not longer than a piece is the only piece. -/
theorem pieces_of_le {m : ℕ} {l : List α} (hpos : 0 < l.length) (hle : l.length ≤ m) :
    pieces m l = [l] := by
  have hdiv : (l.length + (m - 1)) / m = 1 := Nat.div_eq_of_lt_le (by omega) (by omega)
  rw [pieces, hdiv]
  simp [List.take_of_length_le hle]

/-- A block at the front is the first piece. -/
theorem pieces_block_append {m : ℕ} (hm : 0 < m) {x : List α} (hx : x.length = m)
    (y : List α) : pieces m (x ++ y) = x :: pieces m y := by
  have hdiv : ((x ++ y).length + (m - 1)) / m = (y.length + (m - 1)) / m + 1 := by
    rw [List.length_append, hx, Nat.add_assoc, Nat.add_div_left _ hm]
  rw [pieces, hdiv, map_range_block_append hx]
  rfl

/-- A list shorter than a piece is empty or the only piece. -/
theorem pieces_of_lt {m : ℕ} {l : List α} (h : l.length < m) :
    l = [] ∧ pieces m l = [] ∨ l ≠ [] ∧ pieces m l = [l] := by
  cases l with
  | nil => exact .inl ⟨rfl, pieces_nil (Nat.zero_lt_of_lt h)⟩
  | cons a l => exact .inr ⟨by simp, pieces_of_le (by simp) (Nat.le_of_lt h)⟩

/-- Nothing is lost or moved. -/
theorem flatten_pieces {m : ℕ} (hm : 0 < m) (l : List α) : (pieces m l).flatten = l := by
  induction l using blockInduction hm with
  | short l h =>
    rcases pieces_of_lt h with ⟨rfl, hp⟩ | ⟨-, hp⟩ <;> simp [hp]
  | block x y hx ih => rw [pieces_block_append hm hx, List.flatten_cons, ih]

/-- No piece is empty or longer than a block. -/
theorem length_of_mem_pieces {m : ℕ} (hm : 0 < m) {l p : List α} (h : p ∈ pieces m l) :
    1 ≤ p.length ∧ p.length ≤ m := by
  induction l using blockInduction hm with
  | short l hl =>
    rcases pieces_of_lt hl with ⟨-, hp⟩ | ⟨hne, hp⟩
    · simp [hp] at h
    · rw [hp, List.mem_singleton] at h
      subst h
      exact ⟨List.length_pos_iff.mpr hne, Nat.le_of_lt hl⟩
  | block x y hx ih =>
    rw [pieces_block_append hm hx, List.mem_cons] at h
    rcases h with rfl | h
    · omega
    · exact ih h

/-- Every piece but the last is a whole block. -/
theorem length_of_mem_dropLast_pieces {m : ℕ} (hm : 0 < m) {l p : List α}
    (h : p ∈ (pieces m l).dropLast) : p.length = m := by
  induction l using blockInduction hm with
  | short l hl =>
    rcases pieces_of_lt hl with ⟨-, hp⟩ | ⟨-, hp⟩ <;> simp [hp] at h
  | block x y hx ih =>
    rw [pieces_block_append hm hx] at h
    by_cases hnil : pieces m y = []
    · simp [hnil] at h
    · rw [List.dropLast_cons_of_ne_nil hnil, List.mem_cons] at h
      rcases h with rfl | h
      · exact hx
      · exact ih h

end Resmod.Library
