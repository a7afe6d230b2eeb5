import Resmod.Model.FlowController

/-!
# The flow controller with its accesses to memory

`Push` once more, statement by statement, with every byte it takes from the caller's buffer
and every byte it puts into `extrastorage_` in the log.  The read pointer is an offset into
the caller's buffer here.  A copy that leaves the storage ends the call, and what it was
about to store is in the log.  `value_push` says that the log is all that is added.
-/

set_option autoImplicit false

namespace Resmod.Model.FlowController

open Resmod.Library

/-- An access of `Push`: to the caller's buffer, or to `extrastorage_`. -/
inductive Access
  | load (i : ℤ)
  | store (i : ℕ)
  deriving DecidableEq, Repr

namespace Access

variable {maxpacket : UInt32}

/-- A computation that records what it accesses. -/
abbrev Accessing := ExceptT Fault (Traced Access)

/-- `std::copy(b + k, b + k + n, &extrastorage_[pos])` -/
def copy (fc : FlowController maxpacket) (pos : ℕ) (b : Bytes) (k : ℤ) (n : ℕ) :
    Accessing (FlowController maxpacket) :=
  ExceptT.mk ⟨fc.copyTo pos ((b.from k).read n),
    (List.range n).flatMap fun i : ℕ => [.load (k + i), .store (pos + i)]⟩

/-- `Transmit(b + k, n)` -/
def transmit (b : Bytes) (k : ℤ) (n : ℕ) : Traced Access ConsumerCall :=
  ⟨.transmit ((b.from k).read n), (b.fetchRange k n).log.map .load⟩

/-- `FlowController.fillExtra` with its accesses. -/
def fillExtra (ready : Bool) (fc : FlowController maxpacket) (b : Bytes) (s : UInt32) :
    Accessing (FlowController maxpacket × UInt32 × List ConsumerCall) :=
  if 0 < fc.extrasize then do
    let srequired := min s (maxpacket - fc.extrasize)
    let fc := { fc with extrasize := fc.extrasize + srequired }
    let s := s - srequired
    let fc ← copy fc fc.extrasize.toNat b 0 srequired.toNat
    if fc.extrasize = maxpacket then
      pure (fc, s, .transmit fc.extrastorage :: waitIfRequired ready)
    else pure (fc, s, [])
  else pure (fc, s, [])

/-- The loop over the whole packets, from the offset `pb` on. -/
def transmitWhole (maxpacket : UInt32) (ready : ℕ → Bool) (b : Bytes) :
    ℕ → ℕ → ℤ → Traced Access (List ConsumerCall × ℤ)
  | 0, _, pb => pure ([], pb)
  | iter + 1, i, pb => do
    let sent ← transmit b pb maxpacket.toNat
    let r ← transmitWhole maxpacket ready b iter (i + 1) (pb + maxpacket.toNat)
    pure (sent :: (waitIfRequired (ready (i + 1)) ++ r.1), r.2)

/-- `Push`
SOURCE: flowcontroller.cc:39-67 -/
def push (ready : ℕ → Bool) (fc : FlowController maxpacket) (b : Bytes) (size : UInt32) :
    Accessing (FlowController maxpacket × List ConsumerCall) := do
  let (fc, s, filled) ← fillExtra (ready 0) fc b size
  if maxpacket = 0 then Traced.attempt (.error .divisionByZero)
  else
    let iter := s / maxpacket
    let extra := s % maxpacket
    let whole ← ExceptT.lift (transmitWhole maxpacket ready b iter.toNat 0 0)
    if 0 < extra then do
      let fc ← copy { fc with extrasize := extra } 0 b whole.2 extra.toNat
      pure (fc, filled ++ whole.1)
    else pure (fc, filled ++ whole.1)

/-! ## The copies and transmissions -/

/-- The logged copy is the copy. -/
@[simp] theorem value_copy (fc : FlowController maxpacket) (pos : ℕ) (b : Bytes) (k : ℤ)
    (n : ℕ) : (copy fc pos b k n).run.value = fc.copyTo pos ((b.from k).read n) := rfl

/-- A copy reads the bytes that it copies. -/
theorem load_mem_copy {fc : FlowController maxpacket} {pos : ℕ} {b : Bytes} {k i : ℤ}
    {n : ℕ} : load i ∈ (copy fc pos b k n).run.log ↔ k ≤ i ∧ i < k + n := by
  change load i ∈ (List.range n).flatMap _ ↔ _
  simp only [List.mem_flatMap, List.mem_range, List.mem_cons, load.injEq, List.not_mem_nil,
    or_false, reduceCtorEq]
  constructor
  · rintro ⟨j, hj, rfl⟩
    omega
  · intro h
    exact ⟨(i - k).toNat, by omega, by omega⟩

/-- A copy writes the places that it copies to. -/
theorem store_mem_copy {fc : FlowController maxpacket} {pos : ℕ} {b : Bytes} {k : ℤ}
    {n i : ℕ} : store i ∈ (copy fc pos b k n).run.log ↔ pos ≤ i ∧ i < pos + n := by
  change store i ∈ (List.range n).flatMap _ ↔ _
  simp only [List.mem_flatMap, List.mem_range, List.mem_cons, store.injEq, List.not_mem_nil,
    or_false, reduceCtorEq, false_or]
  constructor
  · rintro ⟨j, hj, rfl⟩
    omega
  · intro h
    exact ⟨i - pos, by omega, by omega⟩

/-- The loop reads the packets that it sends, and stores nothing. -/
theorem mem_log_transmitWhole {ready : ℕ → Bool} {b : Bytes} {iter i : ℕ} {pb : ℤ}
    {a : Access} :
    a ∈ (transmitWhole maxpacket ready b iter i pb).log ↔
      ∃ j, a = load j ∧ pb ≤ j ∧ j < pb + (iter * maxpacket.toNat : ℕ) := by
  induction iter generalizing i pb with
  | zero =>
    simp only [transmitWhole, Traced.log_pure, List.not_mem_nil, Nat.zero_mul, false_iff,
      not_exists]
    rintro j ⟨-, hle, hlt⟩
    omega
  | succ iter ih =>
    have hmul : (iter + 1) * maxpacket.toNat = maxpacket.toNat + iter * maxpacket.toNat := by
      rw [Nat.succ_mul, Nat.add_comm]
    simp only [transmitWhole, transmit, Traced.log_bind, Traced.log_pure, List.append_nil,
      List.mem_append, List.mem_map, Bytes.mem_log_fetchRange, ih, hmul]
    constructor
    · rintro (⟨j, hj, rfl⟩ | ⟨j, rfl, hj⟩)
      · exact ⟨j, rfl, by omega, by omega⟩
      · exact ⟨j, rfl, by omega, by omega⟩
    · rintro ⟨j, rfl, hj⟩
      by_cases hfirst : j < pb + maxpacket.toNat
      · exact .inl ⟨j, by omega, rfl⟩
      · exact .inr ⟨j, rfl, by omega, by omega⟩

/-! ## Without the log it is `Push` -/

/-- The logged function computes what the function does. -/
theorem value_fillExtra (ready : Bool) (fc : FlowController maxpacket) (b : Bytes)
    (s : UInt32) :
    (fillExtra ready fc b s).run.value = FlowController.fillExtra ready fc b s := by
  unfold fillExtra FlowController.fillExtra
  by_cases hextra : 0 < fc.extrasize
  · simp only [if_pos hextra, Traced.value_run_bind, value_copy, Bytes.from_zero]
    apply bind_congr
    intro fc'
    by_cases hfull : fc'.extrasize = maxpacket
    · rw [if_pos hfull, if_pos hfull]
      rfl
    · rw [if_neg hfull, if_neg hfull]
      rfl
  · rw [if_neg hextra, if_neg hextra]
    rfl

/-- The logged loop computes what the loop does. -/
theorem value_transmitWhole (ready : ℕ → Bool) (b : Bytes) (iter i : ℕ) (pb : ℤ) :
    (transmitWhole maxpacket ready b iter i pb).value.1 =
        (FlowController.transmitWhole maxpacket ready iter i (b.from pb)).1 ∧
      b.from (transmitWhole maxpacket ready b iter i pb).value.2 =
        (FlowController.transmitWhole maxpacket ready iter i (b.from pb)).2 := by
  induction iter generalizing i pb with
  | zero => exact ⟨rfl, rfl⟩
  | succ iter ih =>
    obtain ⟨hcalls, hpointer⟩ := ih (i + 1) (pb + maxpacket.toNat)
    rw [← Bytes.from_from] at hcalls hpointer
    simp only [transmitWhole, transmit, FlowController.transmitWhole, Traced.value_bind,
      Traced.value_pure, hcalls, hpointer, and_self]

/-- The logged function computes what the function does. -/
theorem value_push (ready : ℕ → Bool) (fc : FlowController maxpacket) (b : Bytes)
    (size : UInt32) : (push ready fc b size).run.value = fc.push ready b size := by
  unfold push FlowController.push
  rw [Traced.value_run_bind, value_fillExtra]
  apply bind_congr
  intro r
  by_cases hzero : maxpacket = 0
  · simp only [if_pos hzero]
    rfl
  · obtain ⟨hcalls, hpointer⟩ :=
      @value_transmitWhole maxpacket ready b (r.2.1 / maxpacket).toNat 0 0
    rw [Bytes.from_zero] at hcalls hpointer
    simp only [if_neg hzero, Traced.value_run_bind, Traced.value_run_lift]
    by_cases hextra : 0 < r.2.1 % maxpacket
    · simp only [if_pos hextra, Traced.value_run_bind, value_copy, ← hcalls, ← hpointer]
      rfl
    · simp only [if_neg hextra, ← hcalls]
      rfl

end Access

end Resmod.Model.FlowController
