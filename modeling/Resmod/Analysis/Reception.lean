import Resmod.Model.ExtraSlaveTable

/-!
# What a call does to a slave

`reception s c` says what the slave in state `s` takes the call `c` as: a new table, a
continuation of the table being received, a confirmation for its chip id, or nothing
that changes it.  For each of the four there is one lemma that gives the whole step of
the machine, so that the statements about runs never unfold `rxData` again.
-/

set_option autoImplicit false

namespace Resmod.Analysis

open Resmod.Library Resmod.Model Resmod.Model.CanSlave

/-! ## Reading the effects of a step -/

/-- The messages among the effects of a step. -/
def messages (o : List Effect) : List Message :=
  o.filterMap fun
    | .writeMessage m => some m
    | .setCanID _ | .fault _ => none

/-- The `CMD_SELECTADDRESS` messages among the effects of a step. -/
def selectAddresses (o : List Effect) : List Message :=
  o.filterMap fun
    | .writeMessage m => if m.dat.head? = some cmdSelectAddress then some m else none
    | .setCanID _ | .fault _ => none

/-- The addresses that `SetCanID` was run with. -/
def assigned (o : List Effect) : List UInt32 :=
  o.filterMap fun
    | .writeMessage _ | .fault _ => none
    | .setCanID a => some a

/-- The address a `CMD_SELECTADDRESS` message asks for. -/
def wishOf (m : Message) : Option UInt8 := m.dat[1]?

/-- The offer of address 45 that answers a table. -/
def offer (hw : CanSlaveHardware) : Message :=
  ⟨canidUninitSlave, cmdSelectAddress :: 45 :: (List.range 6).map (chipIDByte hw.getChipID)⟩

/-- Nothing is sent. -/
@[simp] theorem selectAddresses_nil : selectAddresses [] = [] := rfl

/-- The handshake offers the chip id. -/
@[simp] theorem selectAddresses_handShaking (hw : CanSlaveHardware) :
    selectAddresses (handShaking hw) = [offer hw] := rfl

/-- What a rejected address makes the slave do. -/
def offeredAgain (hw : CanSlaveHardware) : List Effect := handShaking hw ++ [.fault .noReturnValue]

/-- A rejected slave offers it again. -/
@[simp] theorem selectAddresses_offeredAgain (hw : CanSlaveHardware) :
    selectAddresses (offeredAgain hw) = [offer hw] := rfl

/-- An address that is set is no message. -/
@[simp] theorem selectAddresses_setCanID (a : UInt32) :
    selectAddresses [.setCanID a] = [] := rfl

/-- The address that the slave asks for. -/
@[simp] theorem wishOf_offer (hw : CanSlaveHardware) : wishOf (offer hw) = some 45 := rfl

/-! ## The classification -/

/-- What a slave takes a call as. -/
inductive Reception
  /-- Nothing that changes the object or offers an address. -/
  | other
  /-- A new table: the announced count, and where its first ids are. -/
  | table (hw : CanSlaveHardware) (count : UInt8) (ids : Bytes)
  /-- More ids of the table being received. -/
  | continuation (dat : Bytes) (size : UInt32)
  /-- A confirmation for the chip id of this slave, with the byte taken as its ack. -/
  | confirm (hw : CanSlaveHardware) (ack : UInt8)

/-- The bytes after the command are the chip id of the slave. -/
def ChipMatches (hw : CanSlaveHardware) (dat : Bytes) : Prop :=
  ∀ i : ℕ, i < 6 → chipIDByte hw.getChipID i = dat (1 + i)

instance (hw : CanSlaveHardware) (dat : Bytes) : Decidable (ChipMatches hw dat) :=
  inferInstanceAs (Decidable (∀ i : ℕ, i < 6 → chipIDByte hw.getChipID i = dat (1 + i)))

/-- Where `ReceiveAddressConfirm` finds the ack byte in a frame of this size. -/
def ackIndex (size : UInt32) : ℕ := (size - 1).toUInt8.toNat

/-- What a call means to the slave. -/
def reception (s : CanSlave) : Call → Reception
  | .connect => .other
  | .rxData hw id dat size =>
    if id ≠ s.getCanID then .other
    else if s.extratable then .continuation dat size
    else if dat 0 = cmdSendTable then .table hw (dat 1) (dat.from 2)
    else if dat 0 = cmdConfirmAddressSel ∧ ChipMatches hw dat then
      .confirm hw (dat (ackIndex size))
    else .other

/-- What a frame is to the slave. -/
theorem reception_rxData (s : CanSlave) (hw : CanSlaveHardware) (id : UInt32) (dat : Bytes)
    (size : UInt32) :
    reception s (.rxData hw id dat size) =
      if id ≠ s.getCanID then .other
      else if s.extratable then .continuation dat size
      else if dat 0 = cmdSendTable then .table hw (dat 1) (dat.from 2)
      else if dat 0 = cmdConfirmAddressSel ∧ ChipMatches hw dat then
        .confirm hw (dat (ackIndex size))
      else .other := rfl

/-! ## The loop over a continuation frame -/

section Loop

variable {s : CanSlave} {dat : Bytes} {size : UInt32}

/-- The loop before a test: the bytes below the counter are appended, and their number is
taken off the capacity. -/
structure Appended (s : CanSlave) (dat : Bytes) (size : UInt32) (p : UInt8 × CanSlave) :
    Prop where
  le : p.1.toNat ≤ size.toNat
  object : p.2 = { s with
    idtable := s.idtable ++ dat.read p.1.toNat
    tablecapacity := s.tablecapacity - p.1 }

/-- Before the first id of a continuation. -/
theorem appended_start (s : CanSlave) (dat : Bytes) (size : UInt32) :
    Appended s dat size (0, s) := by
  refine ⟨Nat.zero_le _, ?_⟩
  simp

/-- **One round**, with a counter that does not wrap.  What is left of the frame is the
variant of the loop. -/
theorem Appended.body {p : UInt8 × CanSlave} (hsize : size.toNat ≤ 255)
    (h : Appended s dat size p) (htest : (Loops.extraLoop dat size).test p = true) :
    Appended s dat size ((Loops.extraLoop dat size).body p) ∧
      size.toNat - ((Loops.extraLoop dat size).body p).1.toNat < size.toNat - p.1.toNat := by
  obtain ⟨iter, t⟩ := p
  obtain ⟨-, hobject⟩ := h
  rw [Loops.test_extraLoop] at htest
  dsimp only at hobject htest
  have hnext : (iter + 1).toNat = iter.toNat + 1 := toNat_iter_succ (by omega)
  refine ⟨⟨?_, ?_⟩, ?_⟩
  · show (iter + 1).toNat ≤ size.toNat
    omega
  · show ({ t with
      idtable := t.idtable ++ [dat iter.toNat]
      tablecapacity := t.tablecapacity - 1 } : CanSlave) = { s with
      idtable := s.idtable ++ dat.read (iter + 1).toNat
      tablecapacity := s.tablecapacity - (iter + 1) }
    have hcap : s.tablecapacity - iter - 1 = s.tablecapacity - (iter + 1) := by grind
    rw [hobject, hnext, Bytes.read_succ, List.append_assoc, ← hcap]
  · show size.toNat - (iter + 1).toNat < size.toNat - iter.toNat
    omega

/-- **A frame of less than 256 bytes.**  The loop ends within 256 tests, with the counter at
the size, the bytes appended to the table and their number taken off the capacity.
SOURCE: canslave.cc:124-129 -/
theorem run_extraLoop (s : CanSlave) (dat : Bytes) (hsize : size.toNat ≤ 255) :
    (Loops.extraLoop dat size).run 256 (0, s) = some (UInt8.ofNat size.toNat, { s with
      idtable := s.idtable ++ dat.read size.toNat
      tablecapacity := s.tablecapacity - UInt8.ofNat size.toNat }) := by
  have hvariant : size.toNat - ((0 : UInt8), s).1.toNat < 256 := by
    show size.toNat - 0 < 256
    omega
  obtain ⟨⟨iter, t⟩, hrun, ⟨hle, hobject⟩, hend⟩ :=
    Loop.run_of_variant (Appended s dat size) (fun p => size.toNat - p.1.toNat)
      (fun p hp htest => hp.body hsize htest) (appended_start s dat size) hvariant
  dsimp only at hle hobject
  have hge : ¬ iter.toNat < size.toNat := by
    rw [← Loops.test_extraLoop (p := (iter, t)), hend]
    exact Bool.false_ne_true
  have hcounter : size.toNat = iter.toNat := by omega
  rw [hrun, hobject, hcounter, UInt8.ofNat_toNat]

/-- **A frame of 256 bytes or more.**  Every value of the counter is below the size, and the
loop never ends.
SOURCE: canslave.cc:126 -/
theorem not_dom_extraLoop (dat : Bytes) (hsize : 256 ≤ size.toNat) (p : UInt8 × CanSlave) :
    ¬ ((Loops.extraLoop dat size).eval p).Dom := by
  apply Loop.not_dom_of_invariant fun _ => True
  · intro q _
    refine ⟨?_, trivial⟩
    have hcounter := q.1.toNat_lt
    rw [Loops.test_extraLoop]
    omega
  · trivial

end Loop

/-! ## Sorting and trimming -/

/-- Trimming drops the two smallest entries, and pops from an empty deque exactly when
there are fewer than two.
SOURCE: canslave.cc:159-164 -/
theorem tableTrim_eq (s : CanSlave) :
    tableTrim s = if 2 ≤ s.idtable.length then
        .ok { s with idtable := (s.idtable.insertionSort (· ≤ ·)).drop 2 }
      else .error .popFrontOfEmpty := by
  have hlen := List.length_insertionSort (· ≤ ·) s.idtable
  unfold tableTrim
  match hl : s.idtable.insertionSort (· ≤ ·) with
  | [] =>
    rw [hl] at hlen
    rw [if_neg (by simp only [List.length_nil] at hlen; omega)]
    rfl
  | [a] =>
    rw [hl] at hlen
    rw [if_neg (by simp only [List.length_cons, List.length_nil] at hlen; omega)]
    rfl
  | a :: b :: l =>
    rw [hl] at hlen
    rw [if_pos (by simp only [List.length_cons] at hlen; omega)]
    rfl

/-- Behind the loop over a continuation frame the ids stay as they are while there is
capacity, and are trimmed otherwise.
SOURCE: canslave.cc:131-136 -/
theorem afterExtraLoop_eq (t : CanSlave) :
    Loops.afterExtraLoop t =
      if 0 < t.tablecapacity then .ok { t with extratable := true }
      else if 2 ≤ t.idtable.length then
        .ok { t with
          extratable := false
          idtable := (t.idtable.insertionSort (· ≤ ·)).drop 2 }
      else .error .popFrontOfEmpty := by
  unfold Loops.afterExtraLoop
  rw [tableTrim_eq]
  rfl

/-- A continuation frame that fits in the loop counter appends its bytes, and ends the
reception when the capacity has reached zero.
SOURCE: canslave.cc:124-137 -/
theorem receiveExtraSlaveTable_eq (s : CanSlave) (dat : Bytes) (size : UInt32)
    (hsize : size.toNat ≤ 255) :
    receiveExtraSlaveTable s dat size =
      let ids := s.idtable ++ dat.read size.toNat
      let cap := s.tablecapacity - UInt8.ofNat size.toNat
      if 0 < cap then .ok ⟨s.canid, true, cap, ids⟩
      else if 2 ≤ ids.length then
        .ok ⟨s.canid, false, cap, (ids.insertionSort (· ≤ ·)).drop 2⟩
      else .error .popFrontOfEmpty := by
  rw [Loops.receiveExtraSlaveTable_of_run (run_extraLoop s dat hsize), afterExtraLoop_eq]

/-- A longer one does not return.
SOURCE: canslave.cc:124-137 -/
theorem receiveExtraSlaveTable_of_ge (s : CanSlave) (dat : Bytes) {size : UInt32}
    (hsize : 256 ≤ size.toNat) :
    receiveExtraSlaveTable s dat size = .error .loopDoesNotEnd := by
  have hrun := Loop.run_of_not_dom (not_dom_extraLoop dat hsize (0, s)) 256
  unfold receiveExtraSlaveTable
  rw [Loops.extraLoop_eq_run, hrun]
  rfl

/-! ## One step, by what the slave takes the call as -/

/-- What a slave sends in answer to a call that leaves the object alone. -/
inductive Answer (s : CanSlave) : Call → List Effect → Prop
  | requestTable : Answer s .connect requestTable
  | silent (c : Call) : Answer s c []
  | specSheet (hw : CanSlaveHardware) {dat : Bytes} (size : UInt32)
      (hext : s.extratable = false) (hcmd : dat 0 = cmdReqSpecSheet) :
      Answer s (.rxData hw s.getCanID dat size) (sendSpecSheet hw s)
  | channelData (hw : CanSlaveHardware) {dat : Bytes} (size : UInt32)
      (hext : s.extratable = false) (hcmd : dat 0 = cmdRequestChannelData) :
      Answer s (.rxData hw s.getCanID dat size) (sendChannelData hw s s.getCanID (dat 1))

/-- A call that is taken as nothing leaves the object alone. -/
theorem step_of_other_answer {s : CanSlave} {c : Call} (h : reception s c = .other) :
    ∃ o, machine.step s c = some (s, o) ∧ Answer s c o := by
  cases c with
  | connect => exact ⟨requestTable, rfl, .requestTable⟩
  | rxData hw id dat size =>
    simp only [machine, rxData]
    rw [reception_rxData] at h
    by_cases hid : id = s.getCanID
    case neg => exact ⟨[], by rw [if_neg hid]; rfl, .silent _⟩
    rw [if_neg (by simpa using hid)] at h
    rw [if_pos hid]
    subst hid
    cases hext : s.extratable with
    | true => simp [hext] at h
    | false =>
      simp only [hext, Bool.false_eq_true, if_false] at h ⊢
      by_cases htab : dat 0 = cmdSendTable
      · simp [htab] at h
      rw [if_neg htab] at h ⊢
      by_cases hconf : dat 0 = cmdConfirmAddressSel
      · have hchip : ¬ ChipMatches hw dat := fun hm => by simp [hconf, hm] at h
        have hall : ((List.range 6).all fun iter : ℕ =>
            chipIDByte hw.getChipID iter == (dat.from 1) iter) = false := by
          rw [Bool.eq_false_iff]
          intro hall
          apply hchip
          simpa [ChipMatches] using hall
        exact ⟨[], by rw [if_pos hconf, receiveAddressConfirm, hall]; rfl, .silent _⟩
      rw [if_neg hconf]
      by_cases hspec : dat 0 = cmdReqSpecSheet
      · exact ⟨sendSpecSheet hw s, by rw [if_pos hspec]; rfl, .specSheet hw size hext hspec⟩
      rw [if_neg hspec]
      by_cases hchan : dat 0 = cmdRequestChannelData
      · exact ⟨sendChannelData hw s s.getCanID (dat 1), by rw [if_pos hchan]; rfl,
          .channelData hw size hext hchan⟩
      · exact ⟨[], by rw [if_neg hchan]; rfl, .silent _⟩

/-- The answer offers and assigns no address. -/
theorem step_of_other {s : CanSlave} {c : Call} (h : reception s c = .other) :
    ∃ o, machine.step s c = some (s, o) ∧ selectAddresses o = [] ∧ assigned o = [] := by
  obtain ⟨o, hstep, hans⟩ := step_of_other_answer h
  cases hans <;> exact ⟨_, hstep, rfl, rfl⟩

/-- A request for the spec sheet, outside of a table reception.
SOURCE: canslave.cc:79-81 -/
theorem step_of_reqSpecSheet {s : CanSlave} (hext : s.extratable = false)
    (hw : CanSlaveHardware) {dat : Bytes} (hcmd : dat 0 = cmdReqSpecSheet) (size : UInt32) :
    machine.step s (.rxData hw s.getCanID dat size) = some (s, sendSpecSheet hw s) := by
  simp only [machine, rxData, hext, hcmd]
  rfl

/-- A request for channel data, outside of a table reception.
SOURCE: canslave.cc:82-85 -/
theorem step_of_requestChannelData {s : CanSlave} (hext : s.extratable = false)
    (hw : CanSlaveHardware) {dat : Bytes} (hcmd : dat 0 = cmdRequestChannelData)
    (size : UInt32) :
    machine.step s (.rxData hw s.getCanID dat size) =
      some (s, sendChannelData hw s s.getCanID (dat 1)) := by
  simp only [machine, rxData, hext, hcmd]
  rfl

/-- The three conditions under which a call is taken as a new table. -/
theorem reception_eq_table {s : CanSlave} {c : Call} {hw : CanSlaveHardware} {n : UInt8}
    {ids : Bytes} (h : reception s c = .table hw n ids) :
    ∃ dat size, c = .rxData hw s.getCanID dat size ∧ s.extratable = false ∧
      dat 0 = cmdSendTable ∧ n = dat 1 ∧ ids = dat.from 2 := by
  cases c with
  | connect => simp [reception] at h
  | rxData hw' id dat size =>
    rw [reception_rxData] at h
    split_ifs at h with h₁ h₂ h₃
    injection h with e₁ e₂ e₃
    exact ⟨dat, size, by rw [e₁, not_not.mp h₁], by simpa using h₂, h₃, e₂.symm, e₃.symm⟩

/-- A new table in the state it is announced in: up to six ids are sorted and trimmed at
once and followed by the handshake, from a longer table the first six are kept.
SOURCE: canslave.cc:107-123 -/
theorem step_of_table {s : CanSlave} {c : Call} {hw : CanSlaveHardware} {n : UInt8}
    {ids : Bytes} (h : reception s c = .table hw n ids) :
    machine.step s c =
      if n ≤ 6 then
        if 2 ≤ n.toNat then
          some (⟨s.canid, false, 0, ((ids.read n.toNat).insertionSort (· ≤ ·)).drop 2⟩,
            handShaking hw)
        else none
      else some (⟨s.canid, true, n - 6, ids.read 6⟩, []) := by
  obtain ⟨dat, size, rfl, hext, hcmd, rfl, rfl⟩ := reception_eq_table h
  simp only [machine, rxData, hext, hcmd, if_true, Bool.false_eq_true, if_false]
  unfold receiveSlaveTable
  by_cases hn : dat 1 ≤ 6
  · simp only [if_pos hn, tableTrim_eq, List.nil_append, Bytes.length_read]
    by_cases h2 : 2 ≤ (dat 1).toNat
    · simp only [if_pos h2, UInt8.sub_self]
      rfl
    · simp only [if_neg h2]
      rfl
  · simp only [if_neg hn]
    rfl

/-- The conditions under which a call is taken as a continuation. -/
theorem reception_eq_continuation {s : CanSlave} {c : Call} {dat : Bytes} {size : UInt32}
    (h : reception s c = .continuation dat size) :
    ∃ hw, c = .rxData hw s.getCanID dat size ∧ s.extratable = true := by
  cases c with
  | connect => simp [reception] at h
  | rxData hw id dat' size' =>
    rw [reception_rxData] at h
    split_ifs at h with h₁ h₂ h₃
    injection h with e₁ e₂
    exact ⟨hw, by rw [e₁, e₂, not_not.mp h₁], h₂⟩

/-- A continuation frame: the step is `receiveExtraSlaveTable` and has no effects. -/
theorem step_of_continuation {s : CanSlave} {c : Call} {dat : Bytes} {size : UInt32}
    (h : reception s c = .continuation dat size) :
    machine.step s c = (receiveExtraSlaveTable s dat size).toOption.map fun s' => (s', []) := by
  obtain ⟨hw, rfl, hext⟩ := reception_eq_continuation h
  simp only [machine, rxData, hext, if_true]
  cases receiveExtraSlaveTable s dat size <;> rfl

/-- **What a continuation that goes through does.**  It was short enough for the loop
counter and sends nothing; while there is capacity the ids of the frame are appended and the
table stays open, and without it the table is closed.
SOURCE: canslave.cc:124-137 -/
theorem continuation_cases {s s' : CanSlave} {c : Call} {dat : Bytes} {size : UInt32}
    {o : List Effect} (hrec : reception s c = .continuation dat size)
    (hstep : machine.step s c = some (s', o)) :
    size.toNat ≤ 255 ∧ o = [] ∧ s'.canid = s.canid ∧
      s'.tablecapacity = s.tablecapacity - UInt8.ofNat size.toNat ∧
      (0 < s'.tablecapacity ∧ s'.extratable = true ∧
          s'.idtable = s.idtable ++ dat.read size.toNat ∨
        s'.tablecapacity = 0 ∧ s'.extratable = false) := by
  rw [step_of_continuation hrec] at hstep
  by_cases hsize : size.toNat ≤ 255
  · rw [receiveExtraSlaveTable_eq _ _ _ hsize] at hstep
    simp only at hstep
    split_ifs at hstep with hcap hlen
    · cases hstep
      exact ⟨hsize, rfl, rfl, rfl, .inl ⟨hcap, rfl, rfl⟩⟩
    · cases hstep
      rw [UInt8.pos_iff_ne_zero, not_not] at hcap
      exact ⟨hsize, rfl, rfl, rfl, .inr ⟨hcap, rfl⟩⟩
    · exact absurd hstep (by simp [Except.toOption])
  · rw [receiveExtraSlaveTable_of_ge s dat (by omega)] at hstep
    exact absurd hstep (by simp [Except.toOption])

/-- A table that is still open after a continuation holds its ids. -/
theorem idtable_of_continuation {s s' : CanSlave} {c : Call} {dat : Bytes} {size : UInt32}
    {o : List Effect} (hrec : reception s c = .continuation dat size)
    (hstep : machine.step s c = some (s', o)) (hopen : s'.extratable = true) :
    s'.idtable = s.idtable ++ dat.read size.toNat := by
  obtain ⟨-, -, -, -, ⟨-, -, hids⟩ | ⟨-, hclosed⟩⟩ := continuation_cases hrec hstep
  · exact hids
  · exact Bool.noConfusion (hclosed.symm.trans hopen)

/-- The conditions under which a call is taken as a confirmation. -/
theorem reception_eq_confirm {s : CanSlave} {c : Call} {hw : CanSlaveHardware} {ack : UInt8}
    (h : reception s c = .confirm hw ack) :
    ∃ dat size, c = .rxData hw s.getCanID dat size ∧ s.extratable = false ∧
      dat 0 = cmdConfirmAddressSel ∧ ChipMatches hw dat ∧ ack = dat (ackIndex size) := by
  cases c with
  | connect => simp [reception] at h
  | rxData hw' id dat size =>
    rw [reception_rxData] at h
    split_ifs at h with h₁ h₂ h₃ h₄
    injection h with e₁ e₂
    subst e₁
    exact ⟨dat, size, by rw [not_not.mp h₁], by simpa using h₂, h₄.1, h₄.2, e₂.symm⟩

/-- A confirmation for this chip id: a rejected address is offered again, and the function
ends without a result; an accepted one is assigned, any other ack does nothing.
SOURCE: canslave.cc:138-158 -/
theorem step_of_confirm {s : CanSlave} {c : Call} {hw : CanSlaveHardware} {ack : UInt8}
    (h : reception s c = .confirm hw ack) :
    machine.step s c =
      if ack = 0xff then some (s, offeredAgain hw)
      else if ack = 0 then some (s.setCanID 45, [.setCanID 45])
      else some (s, []) := by
  obtain ⟨dat, size, rfl, hext, hcmd, hchip, rfl⟩ := reception_eq_confirm h
  have hne : cmdConfirmAddressSel ≠ cmdSendTable := by decide
  have hall : ((List.range 6).all fun iter : ℕ =>
      chipIDByte hw.getChipID iter == (dat.from 1) iter) = true := by
    simpa [ChipMatches] using hchip
  have hack : (dat.from 1) (((size - 1).toUInt8.toNat : ℤ) - 1) = dat (ackIndex size) := by
    rw [Bytes.from_apply, ackIndex]
    congr 1
    omega
  simp only [machine, rxData, hext, hcmd, if_true, Bool.false_eq_true, if_false, if_neg hne]
  unfold receiveAddressConfirm
  rw [if_pos hall]
  simp only [hack]
  split_ifs <;> rfl

/-! ## The messages of a step -/

/-- The offers are messages with their command. -/
theorem mem_selectAddresses {o : List Effect} {m : Message} :
    m ∈ selectAddresses o ↔ m ∈ messages o ∧ m.dat.head? = some cmdSelectAddress := by
  unfold selectAddresses messages
  simp only [List.mem_filterMap]
  constructor
  · rintro ⟨e, he, hsel⟩
    cases e with
    | writeMessage m' =>
      simp only [Option.ite_none_right_eq_some, Option.some.injEq] at hsel
      obtain ⟨hcmd, rfl⟩ := hsel
      exact ⟨⟨_, he, rfl⟩, hcmd⟩
    | setCanID a => exact absurd hsel (by simp)
    | fault f => exact absurd hsel (by simp)
  · rintro ⟨⟨e, he, hmsg⟩, hcmd⟩
    cases e with
    | writeMessage m' =>
      cases hmsg
      exact ⟨_, he, if_pos hcmd⟩
    | setCanID a => exact absurd hmsg (by simp)
    | fault f => exact absurd hmsg (by simp)

/-- **Where messages come from.**  A message of a step offers an address for the chip id of
the call, or belongs to the answer to a call that leaves the object alone. -/
theorem messages_step {s s' : CanSlave} {c : Call} {o : List Effect}
    (hstep : machine.step s c = some (s', o)) {m : Message} (hm : m ∈ messages o) :
    (∃ hw id dat size, c = .rxData hw id dat size ∧ m = offer hw) ∨
      ∃ o', Answer s c o' ∧ m ∈ messages o' := by
  have hshake : ∀ hw, m ∈ messages (handShaking hw) → m = offer hw :=
    fun _ h => List.mem_singleton.mp h
  have hreject : ∀ hw, m ∈ messages (offeredAgain hw) → m = offer hw :=
    fun _ h => List.mem_singleton.mp h
  cases hrec : reception s c with
  | other =>
    obtain ⟨o', hs', hans⟩ := step_of_other_answer hrec
    rw [hs'] at hstep
    cases hstep
    exact .inr ⟨_, hans, hm⟩
  | continuation dat size =>
    rw [step_of_continuation hrec] at hstep
    obtain ⟨t, -, ht⟩ := Option.map_eq_some_iff.mp hstep
    cases ht
    exact absurd hm List.not_mem_nil
  | table hw count ids =>
    obtain ⟨dat, size, rfl, -⟩ := reception_eq_table hrec
    rw [step_of_table hrec] at hstep
    split_ifs at hstep <;> cases hstep
    · exact .inl ⟨hw, _, dat, size, rfl, hshake hw hm⟩
    · exact absurd hm List.not_mem_nil
  | confirm hw ack =>
    obtain ⟨dat, size, rfl, -⟩ := reception_eq_confirm hrec
    rw [step_of_confirm hrec] at hstep
    split_ifs at hstep <;> cases hstep
    · exact .inl ⟨hw, _, dat, size, rfl, hreject hw hm⟩
    · exact absurd hm List.not_mem_nil
    · exact absurd hm List.not_mem_nil

end Resmod.Analysis
