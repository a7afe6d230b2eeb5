import Resmod.Library.Traced
import Mathlib.Data.Int.Init
import Mathlib.Data.List.Basic
import Mathlib.Tactic.Common

/-!
# Bytes behind a pointer

The handlers receive `uint8_t const *` arguments and index them without asking how much
was received, so a buffer is modelled as the memory seen from the pointer: a byte for
every offset, negative ones included.  `from` moves the pointer (`&dat[k]`), `read` is
the range `[dat, dat + n)` that `std::copy` walks.

`fetch` and `fetchRange` are the same reads with the offsets that were read in the log, for
the functions whose accesses are a matter of their own.

`Fault` lists the ways in which a function of the firmware leaves its defined
behaviour; a function that can do so returns `Except Fault`.
-/

set_option autoImplicit false

namespace Resmod.Model

open Resmod.Library

/-- How a call can leave defined behaviour. -/
inductive Fault
  | popFrontOfEmpty
  /-- A loop whose exit condition never becomes true. -/
  | loopDoesNotEnd
  | writeOutOfBounds
  | divisionByZero
  /-- A function with a result reaches its end without a `return`. -/
  | noReturnValue
  deriving DecidableEq, Repr

/-- The memory seen from a `uint8_t const *`: `dat i` is what `dat[i]` reads. -/
abbrev Bytes := ℤ → UInt8

namespace Bytes

/-- The memory seen from an address further on. -/
def «from» (dat : Bytes) (k : ℤ) : Bytes := fun i => dat (k + i)

/-- The bytes of the range `[dat, dat + n)`, in order. -/
def read (dat : Bytes) (n : ℕ) : List UInt8 := (List.range n).map fun i : ℕ => dat i

/-- A buffer that holds the bytes of `l` and zeros after them. -/
def ofList (l : List UInt8) : Bytes := fun i => if 0 ≤ i then l.getD i.toNat 0 else 0

/-- A byte behind a pointer that has been moved. -/
@[simp] theorem from_apply (dat : Bytes) (k i : ℤ) : dat.from k i = dat (k + i) := rfl

/-- A pointer that has not been moved. -/
@[simp] theorem from_zero (dat : Bytes) : dat.from 0 = dat := by
  funext i
  simp only [from_apply, Int.zero_add]

/-- Moving the pointer twice. -/
theorem from_from (dat : Bytes) (j k : ℤ) : (dat.from j).from k = dat.from (j + k) := by
  funext i
  simp only [from_apply, Int.add_assoc]

/-- As many bytes are read as asked for. -/
@[simp] theorem length_read (dat : Bytes) (n : ℕ) : (dat.read n).length = n := by
  simp [read]

/-- Nothing is read. -/
@[simp] theorem read_zero (dat : Bytes) : dat.read 0 = [] := rfl

/-- The last byte that is read. -/
theorem read_succ (dat : Bytes) (n : ℕ) : dat.read (n + 1) = dat.read n ++ [dat n] := by
  simp [read, List.range_succ]

/-- The buffer that holds a list is read back as the list. -/
theorem read_ofList (l : List UInt8) : (ofList l).read l.length = l := by
  apply List.ext_getElem
  · simp
  · intro i _ hi
    simp [read, ofList, hi]

/-- A range is its first `m` bytes followed by the bytes from `m` on. -/
theorem read_add (dat : Bytes) (m n : ℕ) :
    dat.read (m + n) = dat.read m ++ (dat.from m).read n := by
  induction n with
  | zero => simp
  | succ n ih => simp [← Nat.add_assoc, read_succ, ih]

/-! ## Reads that are logged -/

/-- Read `dat[i]`. -/
def fetch (dat : Bytes) (i : ℤ) : Traced ℤ UInt8 := ⟨dat i, [i]⟩

/-- Read the range `[dat + i, dat + i + n)`, in order. -/
def fetchRange (dat : Bytes) (i : ℤ) (n : ℕ) : Traced ℤ (List UInt8) :=
  ⟨(dat.from i).read n, (List.range n).map fun k : ℕ => i + k⟩

/-- The byte that is fetched. -/
@[simp] theorem value_fetch (dat : Bytes) (i : ℤ) : (dat.fetch i).value = dat i := rfl

/-- The fetch of a byte is logged. -/
@[simp] theorem log_fetch (dat : Bytes) (i : ℤ) : (dat.fetch i).log = [i] := rfl

/-- The bytes that are fetched. -/
@[simp] theorem value_fetchRange (dat : Bytes) (i : ℤ) (n : ℕ) :
    (dat.fetchRange i n).value = (dat.from i).read n := rfl

/-- The positions that are fetched are those of the range. -/
theorem mem_log_fetchRange (dat : Bytes) {i j : ℤ} {n : ℕ} :
    j ∈ (dat.fetchRange i n).log ↔ i ≤ j ∧ j < i + n := by
  simp only [fetchRange, List.mem_map, List.mem_range]
  constructor
  · rintro ⟨k, hk, rfl⟩
    omega
  · intro h
    exact ⟨(j - i).toNat, by omega, by omega⟩

/-- A range of one byte. -/
theorem log_fetchRange_one (dat : Bytes) (i : ℤ) : (dat.fetchRange i 1).log = [i] := by
  simp [fetchRange]

/-- A range is read by reading its first `m` bytes and then the others. -/
theorem log_fetchRange_add (dat : Bytes) (i : ℤ) (m n : ℕ) :
    (dat.fetchRange i (m + n)).log =
      (dat.fetchRange i m).log ++ (dat.fetchRange (i + m) n).log := by
  simp only [fetchRange, List.range_add, List.map_append, List.map_map]
  congr 1
  apply List.map_congr_left
  intro k _
  simp only [Function.comp_apply]
  omega

end Bytes

end Resmod.Model
