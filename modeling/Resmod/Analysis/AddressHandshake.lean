import Resmod.Analysis.TableReception

/-!
# The address handshake, and which slaves it concerns

`SendSelectedAddress` writes six bytes of the chip id behind the wished address, and
`ReceiveAddressConfirm` compares six bytes behind the command with its own.  A master that
sends back what it was sent is understood by the slave that sent it.  The six bytes
determine the chip id modulo `2 ^ 48`, so that a slave with another chip id takes the same
frame for nothing.

The branch for a rejected address has no `return`: the message goes out, and then the
function flows off its end.  `handshake_roundtrip_iff` says that this is the only ack with
which the slave does not do what it should.
-/

set_option autoImplicit false

namespace Resmod.Analysis

open Resmod.Library Resmod.Model Resmod.Model.CanSlave

/-! ## The six bytes of a chip id -/

/-- The positions of the bytes of a chip id. -/
theorem lt_six {i : ℕ} (hi : i < 6) :
    i = 0 ∨ i = 1 ∨ i = 2 ∨ i = 3 ∨ i = 4 ∨ i = 5 := by
  omega

/-- A byte of the chip id as a digit to the base 256. -/
theorem toNat_chipIDByte (chipid : UInt64) {i : ℕ} (hi : i < 6) :
    (chipIDByte chipid i).toNat = chipid.toNat / 2 ^ (8 * i) % 256 := by
  have hshift : (8 * i).toUInt64.toNat % 64 = 8 * i := by
    rw [Nat.toUInt64_eq, UInt64.toNat_ofNat']
    omega
  rw [chipIDByte, UInt64.toNat_toUInt8, UInt64.toNat_shiftRight, hshift,
    Nat.shiftRight_eq_div_pow]

/-- Two numbers have the same first `n` bytes if and only if they agree modulo
`2 ^ (8 * n)`. -/
theorem bytes_eq_iff (x y n : ℕ) :
    (∀ i < n, x / 2 ^ (8 * i) % 256 = y / 2 ^ (8 * i) % 256) ↔
      x % 2 ^ (8 * n) = y % 2 ^ (8 * n) := by
  induction n with
  | zero => simp [Nat.mod_one]
  | succ n ih =>
    have hpow : 2 ^ (8 * (n + 1)) = 2 ^ (8 * n) * 256 := by
      rw [Nat.mul_succ, Nat.pow_add]
    rw [Nat.forall_lt_succ_right, ih, hpow, Nat.mod_mul, Nat.mod_mul]
    constructor
    · rintro ⟨hlow, hbyte⟩
      rw [hlow, hbyte]
    · intro h
      have hlow : x % 2 ^ (8 * n) = y % 2 ^ (8 * n) := by
        have hmod := congrArg (· % 2 ^ (8 * n)) h
        simpa only [Nat.add_mul_mod_self_left, Nat.mod_mod] using hmod
      rw [hlow] at h
      exact ⟨hlow, Nat.eq_of_mul_eq_mul_left (Nat.two_pow_pos _) (Nat.add_left_cancel h)⟩

/-- **What the bytes determine.**  Two chip ids have the same six bytes if and only if they
agree in their low 48 bits. -/
theorem chipIDByte_eq_iff (chipid chipid' : UInt64) :
    (∀ i : ℕ, i < 6 → chipIDByte chipid i = chipIDByte chipid' i) ↔
      chipid.toNat % 2 ^ 48 = chipid'.toNat % 2 ^ 48 := by
  rw [← bytes_eq_iff chipid.toNat chipid'.toNat 6]
  apply forall₂_congr
  intro i hi
  rw [← UInt8.toNat_inj, toNat_chipIDByte _ hi, toNat_chipIDByte _ hi]

/-! ## The message and its confirmation -/

/-- The hardware answers with this chip id during the call. -/
def HasChip (chipid : UInt64) : Call → Prop
  | .connect => True
  | .rxData hw _ _ _ => hw.getChipID = chipid

/-- Slaves of one chip id send the same offer. -/
theorem offer_congr {hw hw' : CanSlaveHardware} (h : hw.getChipID = hw'.getChipID) :
    offer hw = offer hw' := by
  rw [offer, offer, h]

/-- Every address that a step offers is offered in the one message for the chip id.
SOURCE: canslave.cc:165-201 -/
theorem selectAddresses_step {s s' : CanSlave} {c : Call} {o : List Effect}
    {hw : CanSlaveHardware} (hchip : HasChip hw.getChipID c)
    (hstep : machine.step s c = some (s', o)) : ∀ m ∈ selectAddresses o, m = offer hw := by
  intro m hm
  obtain ⟨hmsg, hcmd⟩ := mem_selectAddresses.mp hm
  rcases messages_step hstep hmsg with ⟨hw', id, dat, size, rfl, rfl⟩ | ⟨o', hans, hmsg⟩
  · exact offer_congr hchip
  · -- an answer is another command
    cases hans with
    | requestTable =>
      obtain rfl := List.mem_singleton.mp hmsg
      exact absurd hcmd (by decide)
    | silent => exact absurd hmsg List.not_mem_nil
    | specSheet =>
      obtain rfl := List.mem_singleton.mp hmsg
      exact absurd hcmd (by simp [cmdSendSpecSheet, cmdSelectAddress])
    | channelData =>
      obtain rfl := List.mem_singleton.mp hmsg
      exact absurd hcmd (by simp [cmdSendChannelData, cmdSelectAddress])

/-- The confirmation frame for the bytes of a chip id, read byte by byte. -/
theorem confirm_frame {chipid : UInt64} {dat : Bytes} {a : UInt8}
    (hdat : dat.read 8 =
      cmdConfirmAddressSel :: ((List.range 6).map (chipIDByte chipid) ++ [a])) :
    dat 0 = cmdConfirmAddressSel ∧ (∀ i : ℕ, i < 6 → dat (1 + i) = chipIDByte chipid i) ∧
      dat 7 = a := by
  have hread : dat.read 8 =
    [dat 0, dat 1, dat 2, dat 3, dat 4, dat 5, dat 6, dat 7] := rfl
  rw [hread] at hdat
  simp only [List.range_succ, List.range_zero, List.nil_append, List.map_cons,
    List.map_nil, List.cons_append, List.cons.injEq, and_true] at hdat
  obtain ⟨h0, h1, h2, h3, h4, h5, h6, h7⟩ := hdat
  refine ⟨h0, ?_, h7⟩
  intro i hi
  rcases lt_six hi with rfl | rfl | rfl | rfl | rfl | rfl
  · exact h1
  · exact h2
  · exact h3
  · exact h4
  · exact h5
  · exact h6

/-- A slave whose chip id has other low bits takes a confirmation for nothing. -/
theorem step_of_other_chip {s : CanSlave} {hw : CanSlaveHardware} {chipid : UInt64}
    {id size : UInt32} {dat : Bytes} (hext : s.extratable = false)
    (hcmd : dat 0 = cmdConfirmAddressSel)
    (hbytes : ∀ i : ℕ, i < 6 → dat (1 + i) = chipIDByte chipid i)
    (hchip : hw.getChipID.toNat % 2 ^ 48 ≠ chipid.toNat % 2 ^ 48) :
    machine.step s (.rxData hw id dat size) = some (s, []) := by
  have hmismatch : ¬ ChipMatches hw dat := by
    intro hmatch
    apply hchip
    rw [← chipIDByte_eq_iff]
    intro i hi
    rw [hmatch i hi, hbytes i hi]
  have hrec : reception s (.rxData hw id dat size) = .other := by
    rw [reception_rxData, hext, hcmd]
    simp [hmismatch, cmdConfirmAddressSel, cmdSendTable]
  obtain ⟨o, hstep, hans⟩ := step_of_other_answer hrec
  cases hans with
  | silent => exact hstep
  | specSheet _ _ _ h => exact absurd (hcmd.symm.trans h) (by decide)
  | channelData _ _ _ h => exact absurd (hcmd.symm.trans h) (by decide)

/-- The slave answers the broadcast frame `[4, id0..id5, a]` as the ack `a` says: it takes the
address `w`, sends the message `m` once more, or does nothing. -/
def ReactsTo (m : Message) (w a : UInt8) (s : CanSlave) (hw : CanSlaveHardware)
    (dat : Bytes) : Prop :=
  machine.step s (.rxData hw canidMasterBroadcast dat 8) =
    if a = 0 then some ({ s with canid := w }, [.setCanID w.toUInt32])
    else if a = 0xff then some (s, [.writeMessage m])
    else some (s, [])

/-- **The handshake.**  A slave without an address that has sent `[3, w, id0..id5]` reacts to
the broadcast frame `[4, id0..id5, a]` as it should if and only if `a` is not `0xff`, with
which it leaves defined behaviour behind the message; a slave whose chip id differs in the
low 48 bits does nothing, whatever the ack.
SOURCE: canslave.cc:61-90, 138-201 -/
theorem handshake_roundtrip_iff {s₀ s : CanSlave} {calls : List Call}
    {os : List (List Effect)} {hw : CanSlaveHardware} {m : Message} {w a : UInt8}
    {ids : List UInt8} {dat : Bytes}
    (hrun : machine.exec s₀ calls = some (s, os))
    (hchip : ∀ c ∈ calls, HasChip hw.getChipID c)
    (hsent : ∃ o ∈ os, m ∈ selectAddresses o) (hm : m.dat = cmdSelectAddress :: w :: ids)
    (hcanid : s.getCanID = canidMasterBroadcast) (hext : s.extratable = false)
    (hdat : dat.read 8 = cmdConfirmAddressSel :: (ids ++ [a])) :
    (ReactsTo m w a s hw dat ↔ a ≠ 0xff) ∧
    (a = 0xff → machine.step s (.rxData hw canidMasterBroadcast dat 8) =
      some (s, [.writeMessage m, .fault .noReturnValue])) ∧
    ∀ (s₂ : CanSlave) (hw₂ : CanSlaveHardware), s₂.extratable = false →
      hw₂.getChipID.toNat % 2 ^ 48 ≠ hw.getChipID.toNat % 2 ^ 48 →
      machine.step s₂ (.rxData hw₂ canidMasterBroadcast dat 8) = some (s₂, []) := by
  obtain ⟨o, ho, hmo⟩ := hsent
  have hoffer : m = offer hw :=
    Machine.forall_outputs (fun c hc _ _ _ hstep => selectAddresses_step (hchip c hc) hstep)
      hrun o ho m hmo
  rw [hoffer] at hm
  obtain ⟨-, rfl, rfl⟩ := List.cons.inj hm |>.imp_right List.cons.inj
  obtain ⟨hcmd, hbytes, hack⟩ := confirm_frame hdat
  have hmatch : ChipMatches hw dat := fun i hi => (hbytes i hi).symm
  have hrec : reception s (.rxData hw canidMasterBroadcast dat 8) = .confirm hw a := by
    rw [reception_rxData, if_neg (by simp [hcanid]), hext, if_neg (by simp),
      if_neg (by rw [hcmd]; decide), if_pos ⟨hcmd, hmatch⟩, ← hack]
    rfl
  have hstep := step_of_confirm hrec
  refine ⟨?_, ?_, fun s₂ hw₂ hext₂ hchip₂ => step_of_other_chip hext₂ hcmd hbytes hchip₂⟩
  · unfold ReactsTo
    rw [hstep, hoffer]
    by_cases hff : a = 0xff
    · subst hff
      have hne : offeredAgain hw ≠ [.writeMessage (offer hw)] :=
        fun h => absurd (congrArg List.length h) (show ¬ 2 = 1 by decide)
      simpa using hne
    · simp only [if_neg hff]
      exact iff_of_true rfl hff
  · rintro rfl
    rw [hstep, hoffer]
    rfl

/-- The shipped chip id: the slave that has offered 45 takes it when it is confirmed. -/
theorem handshake_roundtrip_iff_shipped :
    (ReactsTo (offer (blackBoxCanSlaveHardware 0)) 45 0 initial (blackBoxCanSlaveHardware 0)
      (Bytes.ofList [4, 0x9e, 0xb8, 0x45, 0, 0, 0, 0]) ↔ (0 : UInt8) ≠ 0xff) ∧
    ∀ (s₂ : CanSlave) (hw₂ : CanSlaveHardware), s₂.extratable = false →
      hw₂.getChipID.toNat % 2 ^ 48 ≠ (4569246 : UInt64).toNat % 2 ^ 48 →
      machine.step s₂ (.rxData hw₂ 0 (Bytes.ofList [4, 0x9e, 0xb8, 0x45, 0, 0, 0, 0]) 8) =
        some (s₂, []) := by
  have hrun : machine.exec initial [rxFrame 0 [2, 2, 0, 1]] =
      some (initial, [handShaking (blackBoxCanSlaveHardware 0)]) := rfl
  have hchip : ∀ c ∈ [rxFrame 0 [2, 2, 0, 1]],
      HasChip (blackBoxCanSlaveHardware 0).getChipID c := by simp [HasChip, rxFrame]
  have hsent : ∃ o ∈ [handShaking (blackBoxCanSlaveHardware 0)],
      offer (blackBoxCanSlaveHardware 0) ∈ selectAddresses o :=
    ⟨_, List.mem_singleton.mpr rfl, by simp⟩
  have hdat : (Bytes.ofList [4, 0x9e, 0xb8, 0x45, 0, 0, 0, 0]).read 8 =
      cmdConfirmAddressSel :: ([0x9e, 0xb8, 0x45, 0, 0, 0] ++ [0]) := rfl
  obtain ⟨hreacts, -, hother⟩ := handshake_roundtrip_iff hrun hchip hsent rfl rfl rfl hdat
  exact ⟨hreacts, hother⟩

/-- The rejection of the offered address, behind the table 0, 1: the address is offered again,
and then `ReceiveAddressConfirm` flows off its end. -/
theorem not_reactsTo_rejected :
    machine.exec initial [rxFrame 0 [2, 2, 0, 1]] =
      some (initial, [[.writeMessage (offer (blackBoxCanSlaveHardware 0))]]) ∧
    ¬ ReactsTo (offer (blackBoxCanSlaveHardware 0)) 45 0xff initial
      (blackBoxCanSlaveHardware 0) (Bytes.ofList [4, 0x9e, 0xb8, 0x45, 0, 0, 0, 0xff]) := by
  constructor
  · rfl
  · unfold ReactsTo
    decide

end Resmod.Analysis
