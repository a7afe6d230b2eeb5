import Resmod.Library.Loop
import Resmod.Model.CanSlave

/-!
# `ReceiveExtraSlaveTable` with its loop as it stands

The slave's `receiveExtraSlaveTable` gives up after 256 tests of the exit condition.  Here is
the member function once more with the `for` loop of the source, so that a call need not
return: the result is partial.  `extraLoop_eq_run` says that the tests are all that the other
one bounds.
-/

set_option autoImplicit false

namespace Resmod.Model.CanSlave.Loops

open Resmod.Library

/-- The `for` loop, on its counter and the object: a `uint8_t` against a `uint32_t`, and a
count that is lowered whatever it is.
SOURCE: canslave.cc:126-129 -/
def extraLoop (dat : Bytes) (size : UInt32) : Loop (UInt8 × CanSlave) where
  test p := p.1.toUInt32 < size
  body p := (p.1 + 1, { p.2 with
    idtable := p.2.idtable ++ [dat p.1.toNat]
    tablecapacity := p.2.tablecapacity - 1 })

/-- The statements behind the loop.
SOURCE: canslave.cc:131-136 -/
def afterExtraLoop (s : CanSlave) : Except Fault CanSlave :=
  if 0 < s.tablecapacity then pure { s with extratable := true }
  else tableTrim { s with extratable := false }

/-- `ReceiveExtraSlaveTable`, without a value where it does not return.
SOURCE: canslave.cc:124-137 -/
def receiveExtraSlaveTable (s : CanSlave) (dat : Bytes) (size : UInt32) :
    Part (Except Fault CanSlave) :=
  ((extraLoop dat size).eval (0, s)).map fun p => afterExtraLoop p.2

/-- The condition of the loop compares the values of the two counters. -/
theorem test_extraLoop {dat : Bytes} {size : UInt32} {p : UInt8 × CanSlave} :
    (extraLoop dat size).test p = true ↔ p.1.toNat < size.toNat := by
  rw [← iter_lt_iff]
  exact decide_eq_true_iff

/-! ## The bounded loop is this one -/

/-- The loop of the model is the bounded run of the loop of the source. -/
theorem extraLoop_eq_run (dat : Bytes) (size : UInt32) (tests : ℕ) (iter : UInt8)
    (s : CanSlave) :
    CanSlave.extraLoop dat size tests iter s =
      match (extraLoop dat size).run tests (iter, s) with
      | some p => .ok p.2
      | none => .error .loopDoesNotEnd := by
  induction tests generalizing iter s with
  | zero => rfl
  | succ tests ih =>
    rw [CanSlave.extraLoop, Loop.run]
    by_cases hlt : iter.toUInt32 < size
    · have htest : (extraLoop dat size).test (iter, s) = true := decide_eq_true hlt
      rw [if_pos hlt, if_pos htest, ih]
      rfl
    · have htest : ¬ (extraLoop dat size).test (iter, s) = true := by
        rw [test_extraLoop, ← iter_lt_iff]
        exact hlt
      rw [if_neg hlt, if_neg htest]

/-- The slave's function is the loop within 256 tests and the statements behind it. -/
theorem receiveExtraSlaveTable_of_run {s : CanSlave} {dat : Bytes} {size : UInt32}
    {p : UInt8 × CanSlave} (h : (extraLoop dat size).run 256 (0, s) = some p) :
    CanSlave.receiveExtraSlaveTable s dat size = afterExtraLoop p.2 := by
  unfold CanSlave.receiveExtraSlaveTable
  rw [extraLoop_eq_run, h]
  rfl

end Resmod.Model.CanSlave.Loops
