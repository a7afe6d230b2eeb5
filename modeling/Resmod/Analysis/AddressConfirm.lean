import Resmod.Analysis.TableReception

/-!
# Which frames assign an address

`ReceiveAddressConfirm` compares six chip id bytes without asking how long the frame is,
and takes the last byte of the frame as the ack.  In a frame of eight bytes these are
different bytes.  In a shorter one the ack is one of the chip id bytes, which the
comparison has just found to be right, so that a chip id with a zero byte confirms itself.

`accepts_exactly_iff` says for every frame of at most eight bytes when the slave does what
a complete confirmation calls for: always, but for these short frames.
-/

set_option autoImplicit false

namespace Resmod.Analysis

open Resmod.Library Resmod.Model Resmod.Model.CanSlave

/-- The frame is a complete positive confirmation for this slave. -/
def CompleteConfirm (s : CanSlave) (hw : CanSlaveHardware) (id : UInt32) (dat : Bytes)
    (size : UInt32) : Prop :=
  id = s.getCanID ∧ size = 8 ∧ dat 0 = cmdConfirmAddressSel ∧ ChipMatches hw dat ∧ dat 7 = 0

/-- The address that `HandShaking` offers. -/
def handShakingAddress (hw : CanSlaveHardware) : Option UInt8 :=
  (selectAddresses (handShaking hw)).head?.bind wishOf

/-- The slave assigns an address if and only if the frame is a complete confirmation; what
it assigns is the address of the handshake; any other frame leaves the address alone. -/
structure AcceptsExactly (s : CanSlave) (hw : CanSlaveHardware) (id : UInt32) (dat : Bytes)
    (size : UInt32) (s' : CanSlave) (o : List Effect) : Prop where
  assigns : assigned o ≠ [] ↔ CompleteConfirm s hw id dat size
  address : ∀ a ∈ assigned o,
    handShakingAddress hw = some a.toUInt8 ∧ s'.canid = a.toUInt8
  keeps : ¬ CompleteConfirm s hw id dat size → s'.canid = s.canid

/-- A matching confirmation that ends within the chip id, at a zero byte.  An empty frame
takes its ack from far behind the buffer. -/
def ShortConfirm (s : CanSlave) (hw : CanSlaveHardware) (id : UInt32) (dat : Bytes)
    (size : UInt32) : Prop :=
  id = s.getCanID ∧ dat 0 = cmdConfirmAddressSel ∧ ChipMatches hw dat ∧
    ((size = 0 ∧ dat 255 = 0) ∨
      (2 ≤ size.toNat ∧ size.toNat ≤ 7 ∧ chipIDByte hw.getChipID (size.toNat - 2) = 0))

/-! ## The ack of a matching confirmation -/

/-- In a frame that is not empty the ack is the last byte. -/
theorem ackIndex_of_pos {size : UInt32} (hpos : 0 < size.toNat) (h8 : size.toNat ≤ 8) :
    ackIndex size = size.toNat - 1 := by
  have hle : (1 : UInt32) ≤ size := by
    rw [UInt32.le_iff_toNat_le]
    exact hpos
  rw [ackIndex, UInt32.toNat_toUInt8, UInt32.toNat_sub_of_le _ _ hle]
  simp only [UInt32.toNat_one]
  omega

/-- **When the ack is zero.**  In a matching confirmation of at most eight bytes the ack is
zero if the frame is complete and its last byte is, or if it is too short.
SOURCE: canslave.cc:138-158 -/
theorem ack_eq_zero_iff {hw : CanSlaveHardware} {dat : Bytes} {size : UInt32}
    (hcmd : dat 0 = cmdConfirmAddressSel) (hchip : ChipMatches hw dat)
    (h8 : size.toNat ≤ 8) :
    dat (ackIndex size) = 0 ↔ (size = 8 ∧ dat 7 = 0) ∨ (size = 0 ∧ dat 255 = 0) ∨
      (2 ≤ size.toNat ∧ size.toNat ≤ 7 ∧ chipIDByte hw.getChipID (size.toNat - 2) = 0) := by
  have heq : ∀ k : UInt32, size = k ↔ size.toNat = k.toNat := fun k => UInt32.toNat_inj.symm
  rw [heq 8, heq 0, show (8 : UInt32).toNat = 8 from rfl, show (0 : UInt32).toNat = 0 from rfl]
  rcases Nat.eq_zero_or_pos size.toNat with hzero | hpos
  · have hindex : ackIndex size = 255 := by
      obtain rfl : size = 0 := (heq 0).mpr hzero
      rfl
    rw [hindex]
    simp [hzero]
  rw [ackIndex_of_pos hpos h8]
  by_cases hone : size.toNat = 1
  · -- the only byte is the command, which is not zero
    simp [hone, hcmd, cmdConfirmAddressSel]
  by_cases height : size.toNat = 8
  · simp [height]
  · have hbyte := hchip (size.toNat - 2) (by omega)
    rw [hbyte, show (1 : ℤ) + ((size.toNat - 2 : ℕ) : ℤ) = ((size.toNat - 1 : ℕ) : ℤ) by omega]
    constructor
    · intro h
      exact .inr (.inr ⟨by omega, by omega, h⟩)
    · rintro (⟨h, -⟩ | ⟨h, -⟩ | ⟨-, -, h⟩)
      · exact absurd h height
      · omega
      · exact h

/-! ## The equivalence -/

/-- A complete confirmation and a short one are taken as confirmations with ack zero, and
no other frame of at most eight bytes is. -/
theorem complete_or_short_iff {s : CanSlave} {hw : CanSlaveHardware} {id : UInt32}
    {dat : Bytes} {size : UInt32} (hext : s.extratable = false) (h8 : size.toNat ≤ 8) :
    CompleteConfirm s hw id dat size ∨ ShortConfirm s hw id dat size ↔
      reception s (.rxData hw id dat size) = .confirm hw 0 := by
  constructor
  · intro h
    have hboth : id = s.getCanID ∧ dat 0 = cmdConfirmAddressSel ∧ ChipMatches hw dat := by
      rcases h with ⟨h₁, -, h₂, h₃, -⟩ | ⟨h₁, h₂, h₃, -⟩ <;> exact ⟨h₁, h₂, h₃⟩
    obtain ⟨hid, hcmd, hchip⟩ := hboth
    have hack : dat (ackIndex size) = 0 := by
      rw [ack_eq_zero_iff hcmd hchip h8]
      exact h.imp (fun h => ⟨h.2.1, h.2.2.2.2⟩) fun h => h.2.2.2
    rw [reception_rxData, if_neg (by simpa using hid), hext, if_neg (by simp),
      if_neg (by rw [hcmd]; decide), if_pos ⟨hcmd, hchip⟩, hack]
  · intro h
    obtain ⟨dat', size', hcall, -, hcmd, hchip, hack⟩ := reception_eq_confirm h
    obtain ⟨-, hid, rfl, rfl⟩ := Call.rxData.inj hcall
    rcases (ack_eq_zero_iff hcmd hchip h8).mp hack.symm with h | h
    · exact .inl ⟨hid, h.1, hcmd, hchip, h.2⟩
    · exact .inr ⟨hid, hcmd, hchip, h⟩

/-- A call that is not a confirmation with ack zero assigns nothing. -/
theorem keeps_canid_of_reception {s s' : CanSlave} {hw : CanSlaveHardware} {id : UInt32}
    {dat : Bytes} {size : UInt32} {o : List Effect} (hext : s.extratable = false)
    (hrec : reception s (.rxData hw id dat size) ≠ .confirm hw 0)
    (hstep : machine.step s (.rxData hw id dat size) = some (s', o)) :
    assigned o = [] ∧ s'.canid = s.canid := by
  cases h : reception s (.rxData hw id dat size) with
  | other =>
    obtain ⟨o', hs', -, hassigned⟩ := step_of_other h
    rw [hs'] at hstep
    cases hstep
    exact ⟨hassigned, rfl⟩
  | table hw' count ids =>
    rw [step_of_table h] at hstep
    split_ifs at hstep <;> cases hstep <;>
      exact ⟨rfl, rfl⟩
  | continuation dat' size' =>
    obtain ⟨_, -, hopen⟩ := reception_eq_continuation h
    simp [hext] at hopen
  | confirm hw' ack =>
    obtain ⟨_, _, hcall, -⟩ := reception_eq_confirm h
    obtain ⟨rfl, -⟩ := Call.rxData.inj hcall
    rw [step_of_confirm h] at hstep
    split_ifs at hstep with hff hzero
    · cases hstep
      exact ⟨rfl, rfl⟩
    · exact absurd (hzero ▸ h) hrec
    · cases hstep
      exact ⟨rfl, rfl⟩

/-- **Which frames assign an address.**  Outside of a table reception, a frame of at most
eight bytes assigns an address exactly when it should if and only if it is not a matching
confirmation that ends at a zero byte of the chip id.
SOURCE: canslave.cc:61-90, 138-158 -/
theorem accepts_exactly_iff (s : CanSlave) (hext : s.extratable = false)
    (hw : CanSlaveHardware) (id : UInt32) (dat : Bytes) (size : UInt32)
    (h8 : size.toNat ≤ 8) :
    (∀ s' o, machine.step s (.rxData hw id dat size) = some (s', o) →
      AcceptsExactly s hw id dat size s' o) ↔ ¬ ShortConfirm s hw id dat size := by
  have hzero : reception s (.rxData hw id dat size) = .confirm hw 0 →
      machine.step s (.rxData hw id dat size) = some (s.setCanID 45, [.setCanID 45]) :=
    fun h => step_of_confirm h
  constructor
  · intro haccepts hshort
    have hstep := hzero ((complete_or_short_iff hext h8).mp (.inr hshort))
    have hcomplete := (haccepts _ _ hstep).assigns.mp (by simp [assigned])
    -- a frame of eight bytes is not short
    obtain ⟨-, rfl, -⟩ := hcomplete
    obtain ⟨-, -, -, ⟨h, -⟩ | ⟨-, h, -⟩⟩ := hshort
    · exact absurd h (by decide)
    · exact absurd h (by decide)
  · intro hshort s' o hstep
    by_cases hrec : reception s (.rxData hw id dat size) = .confirm hw 0
    · have hcomplete := ((complete_or_short_iff hext h8).mpr hrec).resolve_right hshort
      rw [hzero hrec] at hstep
      cases hstep
      exact ⟨⟨fun _ => hcomplete, fun _ => by simp [assigned]⟩,
        by simp [assigned, handShakingAddress, setCanID], fun h => absurd hcomplete h⟩
    · have hcomplete : ¬ CompleteConfirm s hw id dat size :=
        fun h => hrec ((complete_or_short_iff hext h8).mp (.inl h))
      obtain ⟨hassigned, hcanid⟩ := keeps_canid_of_reception hext hrec hstep
      exact ⟨by simp [hassigned, hcomplete], by simp [hassigned], fun _ => hcanid⟩

/-- The complete confirmation for the shipped chip id is not a short one. -/
theorem accepts_exactly_shipped :
    (∀ s' o, machine.step initial
        (rxFrame 0 [4, 0x9e, 0xb8, 0x45, 0, 0, 0, 0]) = some (s', o) →
      AcceptsExactly initial (blackBoxCanSlaveHardware 0) 0
        (Bytes.ofList [4, 0x9e, 0xb8, 0x45, 0, 0, 0, 0]) 8 s' o) ↔
    ¬ ShortConfirm initial (blackBoxCanSlaveHardware 0) 0
      (Bytes.ofList [4, 0x9e, 0xb8, 0x45, 0, 0, 0, 0]) 8 :=
  accepts_exactly_iff initial rfl _ 0 _ 8 (by decide)

/-- A frame of seven bytes without an ack byte assigns the address on the shipped chip id,
whose upper bytes are zero. -/
theorem not_accepts_exactly_seven :
    ¬ ∀ s' o, machine.step initial (rxFrame 0 [4, 0x9e, 0xb8, 0x45, 0, 0, 0]) = some (s', o) →
      AcceptsExactly initial (blackBoxCanSlaveHardware 0) 0
        (Bytes.ofList [4, 0x9e, 0xb8, 0x45, 0, 0, 0]) 7 s' o := by
  intro h
  have haccepts := h ⟨45, false, 0, []⟩ [.setCanID 45] (by decide)
  obtain ⟨-, hsize, -⟩ := haccepts.assigns.mp (by decide)
  exact absurd hsize (by decide)

end Resmod.Analysis
