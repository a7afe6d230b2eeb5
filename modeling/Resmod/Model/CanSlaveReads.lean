import Resmod.Model.CanSlave

/-!
# The slave with its accesses to the frame

The handlers of `CanSlave` once more, statement by statement, with every access to the
bytes of the received frame in the log.  A handler gets the frame and the offset that its
argument `dat` points to.  `value_rxData` says that the log is all that is added.
-/

set_option autoImplicit false

namespace Resmod.Model.CanSlave.Reads

open Resmod.Library

/-- A member function that can leave defined behaviour and logs what it reads. -/
abbrev Reading := ExceptT Fault (Traced ℤ)

/-- `ReceiveSlaveTable`
SOURCE: canslave.cc:107-123 -/
def receiveSlaveTable (hw : CanSlaveHardware) (s : CanSlave) (frame : Bytes) (dat : ℤ)
    (size : UInt8) : Reading (CanSlave × List Effect) :=
  let s := { s with idtable := [], tablecapacity := size }
  if size ≤ 6 then do
    let ids ← ExceptT.lift (frame.fetchRange dat size.toNat)
    let s := { s with
      idtable := s.idtable ++ ids
      tablecapacity := s.tablecapacity - size }
    let s ← Traced.attempt (tableTrim s)
    pure ({ s with extratable := false }, handShaking hw)
  else do
    let ids ← ExceptT.lift (frame.fetchRange dat 6)
    pure ({ s with
      idtable := s.idtable ++ ids
      tablecapacity := s.tablecapacity - 6
      extratable := true }, [])

/-- The loop of `ReceiveExtraSlaveTable`. -/
def extraLoop (frame : Bytes) (dat : ℤ) (size : UInt32) :
    ℕ → UInt8 → CanSlave → Reading CanSlave
  | 0, _, _ => Traced.attempt (.error .loopDoesNotEnd)
  | tests + 1, iter, s =>
    if iter.toUInt32 < size then do
      let id ← ExceptT.lift (frame.fetch (dat + iter.toNat))
      extraLoop frame dat size tests (iter + 1) { s with
        idtable := s.idtable ++ [id]
        tablecapacity := s.tablecapacity - 1 }
    else pure s

/-- `ReceiveExtraSlaveTable`
SOURCE: canslave.cc:124-137 -/
def receiveExtraSlaveTable (s : CanSlave) (frame : Bytes) (dat : ℤ) (size : UInt32) :
    Reading CanSlave := do
  let s ← extraLoop frame dat size 256 0 s
  Traced.attempt (if 0 < s.tablecapacity then pure { s with extratable := true }
    else tableTrim { s with extratable := false })

/-- The loop of `ReceiveAddressConfirm`, which is left at the first byte that differs. -/
def compareChipID (chipid : UInt64) (frame : Bytes) (dat : ℤ) : ℕ → ℕ → Traced ℤ Bool
  | 0, _ => pure true
  | bytes + 1, iter => do
    let b ← frame.fetch (dat + iter)
    if chipIDByte chipid iter ≠ b then pure false
    else compareChipID chipid frame dat bytes (iter + 1)

/-- `ReceiveAddressConfirm`
SOURCE: canslave.cc:138-158 -/
def receiveAddressConfirm (hw : CanSlaveHardware) (s : CanSlave) (frame : Bytes) (dat : ℤ)
    (size : UInt8) : Traced ℤ (CanSlave × List Effect × Except Fault UInt32) := do
  let same ← compareChipID hw.getChipID frame dat 6 0
  if same then
    let ack ← frame.fetch (dat + (size.toNat - 1))
    pure (if ack = 0xff then (s, handShaking hw, .error .noReturnValue)
      else if ack = 0 then (s.setCanID 45, [.setCanID 45], .ok 0)
      else (s, [], .ok 2))
  else pure (s, [], .ok 1)

/-- `RxData`
SOURCE: canslave.cc:61-90 -/
def rxData (hw : CanSlaveHardware) (s : CanSlave) (id : UInt32) (frame : Bytes)
    (size : UInt32) : Reading (CanSlave × List Effect) :=
  if id = s.getCanID then
    if s.extratable then do
      let s ← receiveExtraSlaveTable s frame 0 size
      pure (s, [])
    else do
      let cmd ← ExceptT.lift (frame.fetch 0)
      if cmd = cmdSendTable then
        let n ← ExceptT.lift (frame.fetch 1)
        receiveSlaveTable hw s frame 2 n
      else if cmd = cmdConfirmAddressSel then
        let r ← ExceptT.lift (receiveAddressConfirm hw s frame 1 (size - 1).toUInt8)
        pure (ignoringStatus r)
      else if cmd = cmdReqSpecSheet then pure (s, sendSpecSheet hw s)
      else if cmd = cmdRequestChannelData then
        let ch ← ExceptT.lift (frame.fetch 1)
        pure (s, sendChannelData hw s s.getCanID ch)
      else pure (s, [])
  else pure (s, [])

/-! ## Without the log it is the slave -/

/-- The logged function computes what the function does. -/
theorem value_receiveSlaveTable (hw : CanSlaveHardware) (s : CanSlave) (frame : Bytes)
    (dat : ℤ) (size : UInt8) :
    (receiveSlaveTable hw s frame dat size).run.value =
      CanSlave.receiveSlaveTable hw s (frame.from dat) size := by
  unfold receiveSlaveTable CanSlave.receiveSlaveTable
  by_cases h : size ≤ 6
  · simp only [if_pos h, Traced.value_run_bind]
    rfl
  · simp only [if_neg h, Traced.value_run_bind]
    rfl

/-- The logged loop computes what the loop does. -/
theorem value_extraLoop (frame : Bytes) (dat : ℤ) (size : UInt32) (tests : ℕ) (iter : UInt8)
    (s : CanSlave) :
    (extraLoop frame dat size tests iter s).run.value =
      CanSlave.extraLoop (frame.from dat) size tests iter s := by
  induction tests generalizing iter s with
  | zero => rfl
  | succ tests ih =>
    unfold extraLoop CanSlave.extraLoop
    by_cases h : iter.toUInt32 < size
    · simp only [if_pos h, Traced.value_run_bind]
      exact ih _ _
    · simp only [if_neg h]
      rfl

/-- The logged function computes what the function does. -/
theorem value_receiveExtraSlaveTable (s : CanSlave) (frame : Bytes) (dat : ℤ)
    (size : UInt32) :
    (receiveExtraSlaveTable s frame dat size).run.value =
      CanSlave.receiveExtraSlaveTable s (frame.from dat) size := by
  unfold receiveExtraSlaveTable CanSlave.receiveExtraSlaveTable
  simp only [Traced.value_run_bind, value_extraLoop, Traced.value_run_attempt]

/-- The logged comparison is the comparison of the bytes. -/
theorem value_compareChipID (chipid : UInt64) (frame : Bytes) (dat : ℤ) (bytes iter : ℕ) :
    (compareChipID chipid frame dat bytes iter).value =
      (List.range' iter bytes).all fun k : ℕ =>
        chipIDByte chipid k == (frame.from dat) k := by
  induction bytes generalizing iter with
  | zero => rfl
  | succ bytes ih =>
    rw [compareChipID, List.range'_succ, List.all_cons, Traced.value_bind, Bytes.value_fetch,
      Bytes.from_apply]
    by_cases h : chipIDByte chipid iter = frame (dat + iter)
    · rw [if_neg (not_not.mpr h), ih, h, beq_self_eq_true, Bool.true_and]
    · rw [if_pos h, beq_eq_false_iff_ne.mpr h, Bool.false_and]
      rfl

/-- The logged function computes what the function does. -/
theorem value_receiveAddressConfirm (hw : CanSlaveHardware) (s : CanSlave) (frame : Bytes)
    (dat : ℤ) (size : UInt8) :
    (receiveAddressConfirm hw s frame dat size).value =
      CanSlave.receiveAddressConfirm hw s (frame.from dat) size := by
  have hcompare := value_compareChipID hw.getChipID frame dat 6 0
  rw [← List.range_eq_range'] at hcompare
  unfold receiveAddressConfirm CanSlave.receiveAddressConfirm
  rw [Traced.value_bind, hcompare]
  split_ifs <;> rfl

/-- What follows a computation that does not fail. -/
theorem bind_ok {α β : Type} (a : α) (f : α → Except Fault β) : (.ok a >>= f) = f a := rfl

/-- **Nothing is added but the log.** -/
theorem value_rxData (hw : CanSlaveHardware) (s : CanSlave) (id : UInt32) (frame : Bytes)
    (size : UInt32) :
    (rxData hw s id frame size).run.value = CanSlave.rxData hw s id frame size := by
  unfold rxData CanSlave.rxData
  by_cases hid : id = s.getCanID
  · simp only [if_pos hid]
    cases hext : s.extratable with
    | true =>
      simp only [if_true, Traced.value_run_bind, value_receiveExtraSlaveTable,
        Bytes.from_zero]
      rfl
    | false =>
      simp only [Bool.false_eq_true, if_false, Traced.value_run_bind, Traced.value_run_lift,
        Bytes.value_fetch, bind_ok]
      by_cases htab : frame 0 = cmdSendTable
      · simp only [if_pos htab, Traced.value_run_bind, Traced.value_run_lift,
          Bytes.value_fetch, bind_ok]
        exact value_receiveSlaveTable hw s frame 2 (frame 1)
      by_cases hconf : frame 0 = cmdConfirmAddressSel
      · simp only [if_neg htab, if_pos hconf, Traced.value_run_bind, Traced.value_run_lift,
          value_receiveAddressConfirm, bind_ok]
        rfl
      by_cases hspec : frame 0 = cmdReqSpecSheet
      · simp only [if_neg htab, if_neg hconf, if_pos hspec]
        rfl
      by_cases hchan : frame 0 = cmdRequestChannelData
      · simp only [if_neg htab, if_neg hconf, if_neg hspec, if_pos hchan]
        rfl
      · simp only [if_neg htab, if_neg hconf, if_neg hspec, if_neg hchan]
        rfl
  · simp only [if_neg hid]
    rfl

/-! ## The log -/

/-- The ids of an announcement, six at most. -/
theorem log_receiveSlaveTable (hw : CanSlaveHardware) (s : CanSlave) (frame : Bytes) (dat : ℤ)
    (size : UInt8) :
    (receiveSlaveTable hw s frame dat size).run.log =
      (frame.fetchRange dat (min size.toNat 6)).log := by
  unfold receiveSlaveTable
  by_cases h : size ≤ 6
  · have hmin : min size.toNat 6 = size.toNat := Nat.min_eq_left (UInt8.le_iff_toNat_le.mp h)
    rw [if_pos h, hmin, Traced.log_run_bind_of_silent, Traced.log_run_lift]
    intro ids
    exact Traced.log_run_bind_of_silent _ fun _ => rfl
  · have hmin : min size.toNat 6 = 6 :=
      Nat.min_eq_right (Nat.le_of_lt (UInt8.lt_iff_toNat_lt.mp (UInt8.not_le.mp h)))
    rw [if_neg h, hmin, Traced.log_run_bind_of_silent, Traced.log_run_lift]
    exact fun _ => rfl

/-- The loop reads the bytes that are left, each once, when the counter reaches the size. -/
theorem log_extraLoop (frame : Bytes) (dat : ℤ) (size : UInt32) (hsize : size.toNat ≤ 255)
    (k tests : ℕ) (iter : UInt8) (s : CanSlave) (hk : iter.toNat + k = size.toNat)
    (htests : k < tests) :
    (extraLoop frame dat size tests iter s).run.log =
      (frame.fetchRange (dat + iter.toNat) k).log := by
  induction k generalizing tests iter s with
  | zero =>
    obtain ⟨tests, rfl⟩ : ∃ t, tests = t + 1 := ⟨tests - 1, by omega⟩
    have hend : ¬ iter.toUInt32 < size := by
      rw [iter_lt_iff]
      omega
    rw [extraLoop, if_neg hend]
    rfl
  | succ k ih =>
    obtain ⟨tests, rfl⟩ : ∃ t, tests = t + 1 := ⟨tests - 1, by omega⟩
    have hlt : iter.toUInt32 < size := by
      rw [iter_lt_iff]
      omega
    have hnext : (iter + 1).toNat = iter.toNat + 1 := toNat_iter_succ (by omega)
    have hfront := Bytes.log_fetchRange_add frame (dat + iter.toNat) 1 k
    rw [Bytes.log_fetchRange_one, Int.add_assoc, ← Int.natCast_add] at hfront
    rw [extraLoop, if_pos hlt, Traced.log_run_bind, Traced.log_run_lift, Bytes.log_fetch,
      Traced.value_run_lift]
    simp only
    rw [ih tests (iter + 1) _ (by omega) (by omega), hnext, Nat.add_comm k 1, hfront]

/-- Every byte of a continuation is read, in order. -/
theorem log_receiveExtraSlaveTable (s : CanSlave) (frame : Bytes) (dat : ℤ) (size : UInt32)
    (hsize : size.toNat ≤ 255) :
    (receiveExtraSlaveTable s frame dat size).run.log =
      (frame.fetchRange dat size.toNat).log := by
  have hloop := log_extraLoop frame dat size hsize size.toNat 256 0 s (by simp) (by omega)
  rw [UInt8.toNat_zero, Int.natCast_zero, Int.add_zero] at hloop
  rw [← hloop]
  exact Traced.log_run_bind_of_silent _ fun _ => rfl

/-- The comparison reads byte `k` when the bytes before it are those of the chip id. -/
theorem forall_log_compareChipID (P : ℤ → Prop) (chipid : UInt64) (frame : Bytes) (dat : ℤ)
    (bytes iter : ℕ) :
    (∀ i ∈ (compareChipID chipid frame dat bytes iter).log, P i) ↔
      ∀ k : ℕ, iter ≤ k → k < iter + bytes →
        (∀ i : ℕ, iter ≤ i → i < k → chipIDByte chipid i = frame (dat + i)) →
          P (dat + k) := by
  induction bytes generalizing iter with
  | zero =>
    constructor
    · intro _ k hk hlt
      omega
    · intro _ i hi
      exact absurd hi List.not_mem_nil
  | succ bytes ih =>
    have hsplit : (∀ i ∈ (compareChipID chipid frame dat (bytes + 1) iter).log, P i) ↔
        P (dat + iter) ∧ (chipIDByte chipid iter = frame (dat + iter) →
          ∀ i ∈ (compareChipID chipid frame dat bytes (iter + 1)).log, P i) := by
      rw [compareChipID, Traced.log_bind, Bytes.log_fetch, Bytes.value_fetch,
        List.singleton_append, List.forall_mem_cons]
      by_cases h : chipIDByte chipid iter = frame (dat + iter)
      · simp [h]
      · simp [h]
    rw [hsplit, ih]
    constructor
    · rintro ⟨hfirst, hrest⟩ k hk hlt hsame
      rcases Nat.eq_or_lt_of_le hk with rfl | hk
      · exact hfirst
      · exact hrest (hsame iter (Nat.le_refl iter) hk) k hk (by omega)
          fun i hi => hsame i (by omega)
    · intro h
      refine ⟨h iter (Nat.le_refl iter) (by omega) fun i hi hlt => by omega, ?_⟩
      intro hfirst k hk hlt hsame
      refine h k (by omega) (by omega) fun i hi hik => ?_
      rcases Nat.eq_or_lt_of_le hi with rfl | hi
      · exact hfirst
      · exact hsame i hi hik

/-- The ack is read when the comparison has gone through.
SOURCE: canslave.cc:138-158 -/
theorem log_receiveAddressConfirm (hw : CanSlaveHardware) (s : CanSlave) (frame : Bytes)
    (dat : ℤ) (size : UInt8) :
    (receiveAddressConfirm hw s frame dat size).log =
      (compareChipID hw.getChipID frame dat 6 0).log ++
        if (compareChipID hw.getChipID frame dat 6 0).value then
          [dat + (size.toNat - 1)] else [] := by
  unfold receiveAddressConfirm
  rw [Traced.log_bind]
  congr 1
  split_ifs <;> rfl

/-- During a table reception the frame is read up to its size. -/
theorem log_rxData_of_extratable {s : CanSlave} (hext : s.extratable = true)
    (hw : CanSlaveHardware) (frame : Bytes) (size : UInt32) (hsize : size.toNat ≤ 255) :
    (rxData hw s s.getCanID frame size).run.log = (frame.fetchRange 0 size.toNat).log := by
  unfold rxData
  rw [if_pos rfl, if_pos hext, ← log_receiveExtraSlaveTable s _ _ _ hsize]
  exact Traced.log_run_bind_of_silent _ fun _ => rfl

/-- Outside of one the command is read first, and then what the command calls for.
SOURCE: canslave.cc:61-90 -/
theorem log_rxData_of_command {s : CanSlave} (hext : s.extratable = false)
    (hw : CanSlaveHardware) (frame : Bytes) (size : UInt32) :
    (rxData hw s s.getCanID frame size).run.log = 0 ::
      if frame 0 = cmdSendTable then
        1 :: (frame.fetchRange 2 (min (frame 1).toNat 6)).log
      else if frame 0 = cmdConfirmAddressSel then
        (receiveAddressConfirm hw s frame 1 (size - 1).toUInt8).log
      else if frame 0 = cmdReqSpecSheet then []
      else if frame 0 = cmdRequestChannelData then [1]
      else [] := by
  have hno : ¬ s.extratable = true := by simp [hext]
  unfold rxData
  rw [if_pos rfl, if_neg hno, Traced.log_run_bind, Traced.log_run_lift, Bytes.log_fetch,
    Traced.value_run_lift, Bytes.value_fetch, List.singleton_append]
  simp only
  congr 1
  split_ifs with htab hconf hspec hchan
  · rw [Traced.log_run_bind, Traced.log_run_lift, Bytes.log_fetch, Traced.value_run_lift,
      Bytes.value_fetch, List.singleton_append]
    simp only
    rw [log_receiveSlaveTable]
  · rw [Traced.log_run_bind_of_silent, Traced.log_run_lift]
    exact fun _ => rfl
  · rfl
  · rfl
  · rfl

end Resmod.Model.CanSlave.Reads
