import Resmod.Analysis.TableReception

/-!
# When the loop over a continuation frame ends

The loop of `ReceiveExtraSlaveTable` has an 8-bit counter and a 32-bit bound.  While the
counter cannot wrap before it reaches the bound, the difference is a variant and the loop
ends with the frame appended to the ids; with a bound of 256 or more the test holds for every
value of the counter and the loop never ends.  `consumes_frame_iff` is both.

`mem_receiveExtraSlaveTable_iff` says that the 256 tests of the slave's own function are
enough, and `continuation_taken_iff` what the size of a frame decides in a run of the slave.
-/

set_option autoImplicit false

namespace Resmod.Analysis

open Resmod.Library Resmod.Model Resmod.Model.CanSlave

/-- The call terminates, with the bytes of the frame appended to the ids at the end of its
loop; and it returns an object if there are two ids for the trimming of a complete table. -/
structure ConsumesFrame (s : CanSlave) (dat : Bytes) (size : UInt32) : Prop where
  terminates : (Loops.receiveExtraSlaveTable s dat size).Dom
  appends : ∀ p ∈ (Loops.extraLoop dat size).eval (0, s),
    p.2.idtable = s.idtable ++ dat.read size.toNat
  returns : 2 ≤ s.idtable.length + size.toNat →
    ∃ s', .ok s' ∈ Loops.receiveExtraSlaveTable s dat size

variable {s : CanSlave} {dat : Bytes} {size : UInt32}

/-! ## The end of the loop -/

/-- The loop over a short frame ends with the frame in the ids. -/
theorem mem_eval_extraLoop (s : CanSlave) (dat : Bytes) (hsize : size.toNat ≤ 255) :
    (UInt8.ofNat size.toNat, { s with
      idtable := s.idtable ++ dat.read size.toNat
      tablecapacity := s.tablecapacity - UInt8.ofNat size.toNat }) ∈
      (Loops.extraLoop dat size).eval (0, s) :=
  Loop.mem_eval_of_run (run_extraLoop s dat hsize)

/-- A loop that ends has a frame of less than 256 bytes. -/
theorem size_le_of_mem_eval {p q : UInt8 × CanSlave}
    (h : q ∈ (Loops.extraLoop dat size).eval p) : size.toNat ≤ 255 := by
  by_contra hgt
  exact not_dom_extraLoop dat (by omega) p (Part.dom_iff_mem.mpr ⟨q, h⟩)

/-! ## The function -/

/-- What the function returns, it returns from the end of the loop. -/
theorem mem_receiveExtraSlaveTable {r : Except Fault CanSlave} :
    r ∈ Loops.receiveExtraSlaveTable s dat size ↔
      ∃ p ∈ (Loops.extraLoop dat size).eval (0, s), Loops.afterExtraLoop p.2 = r :=
  Part.mem_map_iff _

/-- The counter of eight bits has to reach the size. -/
theorem size_le_of_terminates (h : (Loops.receiveExtraSlaveTable s dat size).Dom) :
    size.toNat ≤ 255 := by
  obtain ⟨r, hr⟩ := Part.dom_iff_mem.mp h
  obtain ⟨p, hp, -⟩ := mem_receiveExtraSlaveTable.mp hr
  exact size_le_of_mem_eval hp

/-- With two ids in the table nothing is popped from an empty deque. -/
theorem exists_afterExtraLoop {t : CanSlave} (h : 2 ≤ t.idtable.length) :
    ∃ s', Loops.afterExtraLoop t = .ok s' := by
  rw [afterExtraLoop_eq, if_pos h]
  split_ifs
  · exact ⟨_, rfl⟩
  · exact ⟨_, rfl⟩

/-- What follows the loop ends. -/
theorem afterExtraLoop_ne (t : CanSlave) :
    Loops.afterExtraLoop t ≠ .error .loopDoesNotEnd := by
  rw [afterExtraLoop_eq]
  split_ifs
  · nofun
  · nofun
  · nofun

/-- **The 256 tests are enough.**  The function as it stands returns what the slave's own
one does, unless that one gives up.
SOURCE: canslave.cc:124-137 -/
theorem mem_receiveExtraSlaveTable_iff {r : Except Fault CanSlave} :
    r ∈ Loops.receiveExtraSlaveTable s dat size ↔
      receiveExtraSlaveTable s dat size = r ∧ r ≠ .error .loopDoesNotEnd := by
  rw [mem_receiveExtraSlaveTable]
  constructor
  · rintro ⟨p, hp, rfl⟩
    have hrun := run_extraLoop s dat (size_le_of_mem_eval hp)
    obtain rfl := Part.mem_unique hp (Loop.mem_eval_of_run hrun)
    exact ⟨Loops.receiveExtraSlaveTable_of_run hrun, afterExtraLoop_ne _⟩
  · rintro ⟨rfl, hne⟩
    have hsize : size.toNat ≤ 255 := by
      by_contra hgt
      exact hne (receiveExtraSlaveTable_of_ge s dat (by omega))
    refine ⟨_, mem_eval_extraLoop s dat hsize, ?_⟩
    exact (Loops.receiveExtraSlaveTable_of_run (run_extraLoop s dat hsize)).symm

/-- **The function returns with the frame in the ids if and only if the frame has less than
256 bytes.**
SOURCE: canslave.cc:124-137 -/
theorem consumes_frame_iff (s : CanSlave) (dat : Bytes) (size : UInt32) :
    ConsumesFrame s dat size ↔ size.toNat ≤ 255 := by
  constructor
  · intro h
    exact size_le_of_terminates h.terminates
  · intro hsize
    obtain ⟨p, hend, hids⟩ : ∃ p ∈ (Loops.extraLoop dat size).eval (0, s),
        p.2.idtable = s.idtable ++ dat.read size.toNat :=
      ⟨_, mem_eval_extraLoop s dat hsize, rfl⟩
    have hmem := mem_receiveExtraSlaveTable.mpr ⟨p, hend, rfl⟩
    refine ⟨Part.dom_iff_mem.mpr ⟨_, hmem⟩, ?_, ?_⟩
    · intro q hq
      obtain rfl := Part.mem_unique hend hq
      exact hids
    · intro htwo
      have hlength : 2 ≤ p.2.idtable.length := by
        rw [hids, List.length_append, Bytes.length_read]
        exact htwo
      obtain ⟨s', hs'⟩ := exists_afterExtraLoop hlength
      rw [hs'] at hmem
      exact ⟨s', hmem⟩

/-- A slave that is one id short of its table gets a frame of 256 bytes. -/
theorem not_consumes_frame_256 :
    (∃ o, machine.exec initial [rxFrame 0 [2, 7, 0, 1, 2, 3, 4, 5]] =
        some (⟨0, true, 1, [0, 1, 2, 3, 4, 5]⟩, o)) ∧
      ¬ ConsumesFrame ⟨0, true, 1, [0, 1, 2, 3, 4, 5]⟩ (fun _ => 6) 256 := by
  refine ⟨⟨_, rfl⟩, ?_⟩
  intro h
  exact absurd (size_le_of_terminates h.terminates) (by decide)

/-! ## In a run of the slave -/

/-- An open table holds the ids of its announcement. -/
def HoldsSix (s : CanSlave) : Prop := s.extratable = true → 6 ≤ s.idtable.length

/-- A call keeps room for six bytes at least. -/
theorem holdsSix_step {s s' : CanSlave} {c : Call} {o : List Effect} (h : HoldsSix s)
    (hstep : machine.step s c = some (s', o)) : HoldsSix s' := by
  cases hrec : reception s c with
  | other =>
    obtain ⟨o', hs', -⟩ := step_of_other hrec
    rw [hs'] at hstep
    cases hstep
    exact h
  | confirm hw ack =>
    rw [step_of_confirm hrec] at hstep
    split_ifs at hstep <;> cases hstep <;> exact h
  | table hw n dat =>
    rw [step_of_table hrec] at hstep
    split_ifs at hstep with h6 h2
    · cases hstep
      exact Bool.noConfusion
    · cases hstep
      intro _
      exact Nat.le_of_eq (Bytes.length_read dat 6).symm
  | continuation dat size =>
    obtain ⟨-, -, hext⟩ := reception_eq_continuation hrec
    intro hext'
    rw [idtable_of_continuation hrec hstep hext', List.length_append]
    exact Nat.le_add_right_of_le (h hext)

/-- **In every run from power-up a continuation frame is taken if and only if it has less
than 256 bytes.**
SOURCE: canslave.cc:61-66, 124-137 -/
theorem continuation_taken_iff {c : Call} (hreach : machine.Reachable initial s)
    (hrec : reception s c = .continuation dat size) :
    (∃ s', machine.step s c = some (s', [])) ↔ size.toNat ≤ 255 := by
  obtain ⟨calls, os, hrun⟩ := hreach
  obtain ⟨-, -, hext⟩ := reception_eq_continuation hrec
  have hsix : HoldsSix s :=
    Machine.invariant_of_exec HoldsSix (fun _ _ _ _ h hstep => holdsSix_step h hstep)
      Bool.noConfusion hrun
  constructor
  · rintro ⟨s', hstep⟩
    exact (continuation_cases hrec hstep).1
  · intro hsize
    have hids : 2 ≤ (s.idtable ++ dat.read size.toNat).length := by
      have hlength := hsix hext
      rw [List.length_append]
      omega
    rw [step_of_continuation hrec, receiveExtraSlaveTable_eq s dat size hsize]
    simp only [if_pos hids]
    split_ifs
    · exact ⟨_, rfl⟩
    · exact ⟨_, rfl⟩

end Resmod.Analysis
