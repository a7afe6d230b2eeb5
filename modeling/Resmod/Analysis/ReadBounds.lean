import Resmod.Analysis.TableReception
import Resmod.Model.CanSlaveReads
import Resmod.Model.DigitalConeCan

/-!
# What is read of a received frame

`CAN_Receive` delivers eight data bytes and a DLC between 0 and 15.  `RxData` looks at the
command byte, the announced count, the bytes of the chip id and the ack byte without
asking whether they were received, and a continuation frame and `WaitForReception` are
read up to the DLC without asking whether it exceeds the eight bytes there are.

For every handler there is one lemma that says which offsets it reads; `readsWithin_iff`
puts them together, for every state and every frame.
-/

set_option autoImplicit false

namespace Resmod.Analysis

open Resmod.Library Resmod.Model Resmod.Model.CanSlave Resmod.Model.DigitalConeCan

/-- The offset is below the DLC, and within the data bytes. -/
def WithinFrame (dlc : ℕ) (i : ℤ) : Prop := 0 ≤ i ∧ i < dlc ∧ i < 8

/-- Every byte of the frame that the call reads was received. -/
def ReadsWithin (s : CanSlave) : Call → Prop
  | .connect => True
  | .rxData hw id dat size =>
    ∀ i ∈ (Reads.rxData hw s id dat size).run.log, WithinFrame size.toNat i

/-- Every byte that `WaitForReception` copies was received. -/
def ReceptionWithin (rxmsg : CanRxMsg) (mb : FIFOMailBox) (around : Bytes) : Prop :=
  ∀ i ∈ (CanDriver.waitForReception rxmsg mb around).log,
    WithinFrame (canReceive mb rxmsg).dlc.toNat i

/-! ## What a frame must have received -/

/-- The frame is long enough for its command: an announcement for the ids that are taken
from it, a confirmation for the chip id up to the first byte that differs and then no
longer than eight bytes, a request for the channel. -/
def CommandCovered (hw : CanSlaveHardware) (dat : Bytes) (dlc : ℕ) : Prop :=
  (dat 0 = cmdSendTable → 2 + min (dat 1).toNat 6 ≤ dlc) ∧
  (dat 0 = cmdConfirmAddressSel →
    (∀ k : ℕ, k < 6 → (∀ i : ℕ, i < k → chipIDByte hw.getChipID i = dat (1 + i)) →
      k + 2 ≤ dlc) ∧
    (ChipMatches hw dat → dlc ≤ 8)) ∧
  (dat 0 = cmdRequestChannelData → 2 ≤ dlc)

/-- The frame is long enough, and not too long, for what the slave takes it as. -/
def Covers (s : CanSlave) : Call → Prop
  | .connect => True
  | .rxData hw id dat size =>
    id = s.getCanID →
      if s.extratable then size.toNat ≤ 8
      else 1 ≤ size.toNat ∧ CommandCovered hw dat size.toNat

/-! ## The accesses of the handlers -/

/-- A range lies within the frame if its last byte does. -/
theorem fetchRange_within (dat : Bytes) {start : ℤ} {n dlc : ℕ} (hstart : 0 ≤ start)
    (hpos : 0 < n) :
    (∀ i ∈ (dat.fetchRange start n).log, WithinFrame dlc i) ↔
      start + n ≤ dlc ∧ start + n ≤ 8 := by
  constructor
  · intro h
    have hlast := h (start + n - 1) ((Bytes.mem_log_fetchRange dat).mpr (by omega))
    unfold WithinFrame at hlast
    omega
  · intro h i hi
    rw [Bytes.mem_log_fetchRange] at hi
    unfold WithinFrame
    omega

/-- The confirmation handler, in a frame that holds the command.
SOURCE: canslave.cc:138-158 -/
theorem confirm_within (hw : CanSlaveHardware) (s : CanSlave) (dat : Bytes) (size : UInt32)
    (hpos : 1 ≤ size.toNat) (h15 : size.toNat ≤ 15) :
    (∀ i ∈ (Reads.receiveAddressConfirm hw s dat 1 (size - 1).toUInt8).log,
        WithinFrame size.toNat i) ↔
      (∀ k : ℕ, k < 6 → (∀ i : ℕ, i < k → chipIDByte hw.getChipID i = dat (1 + i)) →
        k + 2 ≤ size.toNat) ∧
      (ChipMatches hw dat → size.toNat ≤ 8) := by
  have hcompare := Reads.forall_log_compareChipID (WithinFrame size.toNat) hw.getChipID dat
    1 6 0
  have hvalue : (Reads.compareChipID hw.getChipID dat 1 6 0).value = true ↔
      ChipMatches hw dat := by
    rw [Reads.value_compareChipID, ← List.range_eq_range']
    simp [ChipMatches]
  have hsub : (size - 1).toUInt8.toNat = size.toNat - 1 := by
    rw [UInt32.toNat_toUInt8, UInt32.toNat_sub_of_le _ _ (by
      rw [UInt32.le_iff_toNat_le]
      exact hpos), UInt32.toNat_one]
    omega
  rw [Reads.log_receiveAddressConfirm, List.forall_mem_append, hcompare, hsub]
  have hbytes : (∀ k : ℕ, 0 ≤ k → k < 0 + 6 →
      (∀ i : ℕ, 0 ≤ i → i < k → chipIDByte hw.getChipID i = dat (1 + i)) →
        WithinFrame size.toNat (1 + k)) ↔
      ∀ k : ℕ, k < 6 → (∀ i : ℕ, i < k → chipIDByte hw.getChipID i = dat (1 + i)) →
        k + 2 ≤ size.toNat := by
    constructor
    · intro h k hk hsame
      have hread := h k (Nat.zero_le k) (by omega) fun i _ hi => hsame i hi
      unfold WithinFrame at hread
      omega
    · intro h k _ hk hsame
      have hle := h k (by omega) fun i hi => hsame i (Nat.zero_le i) hi
      unfold WithinFrame
      omega
  rw [hbytes]
  apply and_congr_right
  intro hreceived
  by_cases hmatch : ChipMatches hw dat
  · -- the last byte of the chip id was received, so that the ack is behind it
    have hlast := hreceived 5 (by decide) fun i hi => hmatch i (by omega)
    rw [if_pos (hvalue.mpr hmatch)]
    simp only [List.mem_singleton, forall_eq, hmatch, true_imp_iff]
    unfold WithinFrame
    omega
  · rw [if_neg (fun h => hmatch (hvalue.mp h))]
    simp [hmatch]

/-- A command is read within the frame if and only if the frame covers it. -/
theorem command_within {s : CanSlave} (hext : s.extratable = false) (hw : CanSlaveHardware)
    (dat : Bytes) (size : UInt32) (hpos : 1 ≤ size.toNat) (h15 : size.toNat ≤ 15) :
    (∀ i ∈ (Reads.rxData hw s s.getCanID dat size).run.log, WithinFrame size.toNat i) ↔
      CommandCovered hw dat size.toNat := by
  have hzero : WithinFrame size.toNat 0 := by
    unfold WithinFrame
    omega
  rw [Reads.log_rxData_of_command hext, List.forall_mem_cons]
  unfold CommandCovered
  simp only [hzero, true_and]
  by_cases htab : dat 0 = cmdSendTable
  · have hconf : dat 0 ≠ cmdConfirmAddressSel := by
      rw [htab]
      decide
    have hchan : dat 0 ≠ cmdRequestChannelData := by
      rw [htab]
      decide
    have hrange := Bytes.log_fetchRange_add dat 1 1 (min (dat 1).toNat 6)
    rw [Bytes.log_fetchRange_one, List.singleton_append] at hrange
    rw [if_pos htab]
    change (∀ i ∈ 1 :: (dat.fetchRange (1 + (1 : ℕ)) (min (dat 1).toNat 6)).log, _) ↔ _
    rw [← hrange, fetchRange_within dat (by decide) (by omega)]
    simp only [eq_true htab, eq_false hconf, eq_false hchan, true_imp_iff, false_imp_iff,
      and_true]
    omega
  by_cases hconf : dat 0 = cmdConfirmAddressSel
  · have hchan : dat 0 ≠ cmdRequestChannelData := by
      rw [hconf]
      decide
    rw [if_neg htab, if_pos hconf, confirm_within hw s dat size hpos h15]
    simp only [eq_false htab, eq_true hconf, eq_false hchan, true_imp_iff, false_imp_iff,
      true_and, and_true]
  rw [if_neg htab, if_neg hconf]
  simp only [eq_false htab, eq_false hconf, false_imp_iff, true_and]
  by_cases hchan : dat 0 = cmdRequestChannelData
  · have hspec : dat 0 ≠ cmdReqSpecSheet := by
      rw [hchan]
      decide
    rw [if_neg hspec, if_pos hchan]
    simp only [List.mem_singleton, forall_eq, eq_true hchan, true_imp_iff]
    unfold WithinFrame
    omega
  · rw [if_neg hchan, ite_self]
    simp only [List.not_mem_nil, eq_false hchan, false_imp_iff, implies_true]

/-- **The reads of a call.**  In every state and for every frame with a DLC of at most 15,
what is read was received if and only if the frame is as long as it must be.
SOURCE: canslave.cc:61-158 -/
theorem readsWithin_iff (s : CanSlave) (hw : CanSlaveHardware) (id : UInt32) (dat : Bytes)
    (size : UInt32) (h15 : size.toNat ≤ 15) :
    ReadsWithin s (.rxData hw id dat size) ↔ Covers s (.rxData hw id dat size) := by
  unfold ReadsWithin Covers
  by_cases hid : id = s.getCanID
  case neg =>
    simp [Reads.rxData, hid]
  subst hid
  simp only [true_imp_iff]
  cases hext : s.extratable with
  | true =>
    rw [if_pos rfl, Reads.log_rxData_of_extratable hext hw dat size (by omega)]
    rcases Nat.eq_zero_or_pos size.toNat with hzero | hpos
    · rw [hzero]
      simp [Bytes.fetchRange]
    · rw [fetchRange_within dat (by decide) hpos]
      omega
  | false =>
    have hno : ¬ false = true := by decide
    rw [if_neg hno]
    by_cases hpos : 1 ≤ size.toNat
    · rw [command_within hext hw dat size hpos h15]
      simp only [hpos, true_and]
    · -- the command is read of an empty frame
      constructor
      · intro h
        rw [Reads.log_rxData_of_command hext] at h
        have hcmd := h 0 List.mem_cons_self
        unfold WithinFrame at hcmd
        omega
      · intro h
        exact absurd h.1 hpos

/-- What `WaitForReception` copies was received if and only if the DLC does not exceed the
data bytes.
SOURCE: candriver.cc:152-171 -/
theorem receptionWithin_iff (rxmsg : CanRxMsg) (mb : FIFOMailBox) (around : Bytes) :
    ReceptionWithin rxmsg mb around ↔ (canReceive mb rxmsg).dlc.toNat ≤ 8 := by
  have hlog : (CanDriver.waitForReception rxmsg mb around).log =
      (around.fetchRange 0 (canReceive mb rxmsg).dlc.toNat).log := List.append_nil _
  unfold ReceptionWithin
  rw [hlog]
  rcases Nat.eq_zero_or_pos (canReceive mb rxmsg).dlc.toNat with hzero | hpos
  · rw [hzero]
    simp [Bytes.fetchRange]
  · rw [fetchRange_within around (by decide) hpos]
    omega

/-- **When only received data is read.**  In every run of the task, whatever the frames that
arrive, every byte that a call reads was received if and only if every frame is as long as
it must be; `WaitForReception` copies received bytes only if and only if the DLC is at
most eight.
SOURCE: canslave.cc:61-158, candriver.cc:152-171, digitalconecan.cc:50-63 -/
theorem reads_within_iff (arrivals : List Arrival) :
    (machine.Along ReadsWithin initial (.connect :: arrivals.map Arrival.call) ↔
      machine.Along Covers initial (.connect :: arrivals.map Arrival.call)) ∧
    ∀ rxmsg mb around,
      ReceptionWithin rxmsg mb around ↔ (canReceive mb rxmsg).dlc.toNat ≤ 8 := by
  constructor
  · apply Machine.along_congr
    intro c hc s
    rcases List.mem_cons.mp hc with rfl | hc
    · exact Iff.rfl
    · obtain ⟨a, -, rfl⟩ := List.mem_map.mp hc
      have hdlc := dlc_canReceive_le a.mailbox a.rxm
      apply readsWithin_iff
      rw [UInt8.toNat_toUInt32]
      exact hdlc
  · exact receptionWithin_iff

/-- A frame without data. -/
def emptyFrame : Arrival where
  mailbox := ⟨0, 0, 0, 0⟩
  rxm := ⟨0, 0, 0, 0, 0, Vector.replicate 8 0, 0⟩
  around := fun _ => 0
  hw := blackBoxCanSlaveHardware 0

/-- The first byte of an empty frame is read as its command, and of a frame with DLC 9
`WaitForReception` copies nine bytes. -/
theorem not_reads_within_empty :
    ¬ machine.Along ReadsWithin initial [.connect, emptyFrame.call] ∧
      ¬ ReceptionWithin emptyFrame.rxm ⟨0, 9, 0, 0⟩ emptyFrame.around := by
  constructor
  · intro h
    have hread := h.2.1 0 (by decide)
    exact absurd hread.2.1 (by decide)
  · intro h
    have hread := h 8 (by decide)
    exact absurd hread.2.2 (by decide)

end Resmod.Analysis
