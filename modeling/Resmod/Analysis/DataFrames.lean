import Resmod.Analysis.TableReception
import Resmod.Model.DigitalConeCan

/-!
# Which frames drive the slave

`CAN_Receive` fills in the standard identifier of standard frames only, and neither
`CAN1_RX0_IRQHandler` nor the task asks for the type of a frame.  An extended frame is
dispatched under whatever the variable of the handler held before, a remote frame under
its own identifier with whatever the data registers hold.

`only_data_frames` says for runs of any frames that this goes unnoticed as long as the
slave does not act on such a frame.
-/

set_option autoImplicit false

namespace Resmod.Analysis

open Resmod.Library Resmod.Model Resmod.Model.CanSlave Resmod.Model.DigitalConeCan

/-! ## Frames and what is done with them -/

/-- The frame has a standard identifier and is no remote frame. -/
def isDataFrame (a : Arrival) : Bool :=
  (0x04 : UInt32) &&& a.mailbox.rir == 0 && (0x02 : UInt32) &&& a.mailbox.rir == 0

/-- The slave acts on the call: it is for the slave, and continues a table or holds a
command; a confirmation has to match, and to accept or to reject. -/
def ActsOn (s : CanSlave) : Call → Prop
  | .connect => True
  | .rxData hw id dat size =>
    id = s.getCanID ∧ (s.extratable = true ∨ dat 0 = cmdSendTable ∨
      dat 0 = cmdReqSpecSheet ∨ dat 0 = cmdRequestChannelData ∨
      (dat 0 = cmdConfirmAddressSel ∧ ChipMatches hw dat ∧
        (dat (ackIndex size) = 0 ∨ dat (ackIndex size) = 0xff)))

/-- A frame that is not acted on changes nothing and is answered with nothing. -/
theorem step_of_not_actsOn {s : CanSlave} {c : Call} (h : ¬ ActsOn s c) :
    machine.step s c = some (s, []) := by
  cases hrec : reception s c with
  | other =>
    obtain ⟨o, hstep, hans⟩ := step_of_other_answer hrec
    cases hans with
    | requestTable => exact absurd trivial h
    | silent => exact hstep
    | specSheet hw size hext hcmd => exact absurd ⟨rfl, .inr (.inr (.inl hcmd))⟩ h
    | channelData hw size hext hcmd => exact absurd ⟨rfl, .inr (.inr (.inr (.inl hcmd)))⟩ h
  | table hw count ids =>
    obtain ⟨dat, size, rfl, -, hcmd, -⟩ := reception_eq_table hrec
    exact absurd ⟨rfl, .inr (.inl hcmd)⟩ h
  | continuation dat size =>
    obtain ⟨hw, rfl, hext⟩ := reception_eq_continuation hrec
    exact absurd ⟨rfl, .inl hext⟩ h
  | confirm hw ack =>
    obtain ⟨dat, size, rfl, -, hcmd, hchip, rfl⟩ := reception_eq_confirm hrec
    have hack : ¬ (dat (ackIndex size) = 0 ∨ dat (ackIndex size) = 0xff) := by
      intro hack
      exact h ⟨rfl, .inr (.inr (.inr (.inr ⟨hcmd, hchip, hack⟩)))⟩
    rw [not_or] at hack
    rw [step_of_confirm hrec, if_neg hack.2, if_neg hack.1]

/-- The slave does not act on the frame unless it is a data frame. -/
def OnlyDataActedOn (s : CanSlave) (a : Arrival) : Prop :=
  isDataFrame a = false → ¬ ActsOn s a.call

/-! ## Two receptions of the same frames -/

/-- The frames of the two sequences are the same, and so is what surrounds them; what the
variable of the handler held before each may differ. -/
def SameFrames (arrivals arrivals' : List Arrival) : Prop :=
  List.Forall₂ (fun a b : Arrival =>
    a.mailbox = b.mailbox ∧ a.around = b.around ∧ a.hw = b.hw) arrivals arrivals'

/-- A standard frame is dispatched in the same way whatever the variable held before.
SOURCE: stm32f4xx_can.c:749-790 -/
theorem call_congr {a b : Arrival} (hdata : isDataFrame a = true)
    (hmailbox : a.mailbox = b.mailbox) (haround : a.around = b.around) (hhw : a.hw = b.hw) :
    a.call = b.call := by
  have hide : ((0x04 : UInt32) &&& a.mailbox.rir).toUInt8 = canIdStandard := by
    rw [isDataFrame, Bool.and_eq_true, beq_iff_eq] at hdata
    rw [hdata.1]
    rfl
  have hstdId : ∀ rx : CanRxMsg, (canReceive a.mailbox rx).stdId =
      (0x7ff : UInt32) &&& (a.mailbox.rir >>> 21) := fun rx => if_pos hide
  unfold Arrival.call dispatch Arrival.received
  rw [← hmailbox, ← haround, ← hhw, hstdId, hstdId]
  rfl

/-- The data frames are dispatched alike in both receptions. -/
theorem calls_filter_congr {arrivals arrivals' : List Arrival}
    (h : SameFrames arrivals arrivals') :
    (arrivals.filter isDataFrame).map Arrival.call =
      (arrivals'.filter isDataFrame).map Arrival.call := by
  induction h with
  | nil => rfl
  | @cons a b as bs hab _ ih =>
    obtain ⟨hmailbox, haround, hhw⟩ := hab
    have hsame : isDataFrame a = isDataFrame b := by
      unfold isDataFrame
      rw [hmailbox]
    cases hdata : isDataFrame a with
    | false =>
      rw [List.filter_cons_of_neg (by simp [hdata]),
        List.filter_cons_of_neg (by simp [← hsame, hdata]), ih]
    | true =>
      rw [List.filter_cons_of_pos hdata, List.filter_cons_of_pos (by rw [← hsame, hdata]),
        List.map_cons, List.map_cons, ih, call_congr hdata hmailbox haround hhw]

/-- **When only standard data frames drive the slave.**  In every run in which the slave
acts on no other frame, its state and its effects are those of the run without the other
frames, and the same for any contents of the variable of the handler.
SOURCE: candriver.cc:39-43, stm32f4xx_can.c:749-790, digitalconecan.cc:59-64 -/
theorem only_data_frames (arrivals : List Arrival)
    (h : dispatcher.Along OnlyDataActedOn initial arrivals) :
    dispatcher.outcome initial arrivals =
        dispatcher.outcome initial (arrivals.filter isDataFrame) ∧
      ∀ arrivals', SameFrames arrivals arrivals' →
        dispatcher.Along OnlyDataActedOn initial arrivals' →
        dispatcher.outcome initial arrivals' = dispatcher.outcome initial arrivals := by
  have hfilter : ∀ l, dispatcher.Along OnlyDataActedOn initial l →
      dispatcher.outcome initial l = dispatcher.outcome initial (l.filter isDataFrame) := by
    intro l hl
    apply Machine.outcome_filter
    apply hl.mono
    intro s a honly hother
    exact step_of_not_actsOn (honly hother)
  refine ⟨hfilter arrivals h, ?_⟩
  intro arrivals' hsame h'
  rw [hfilter arrivals h, hfilter arrivals' h', dispatcher, Machine.outcome_comap,
    Machine.outcome_comap, calls_filter_congr hsame]

/-- A frame with the given registers, received while the variable of the handler holds the
given identifier. -/
def arrivalOf (mb : FIFOMailBox) (stdId : UInt32) : Arrival where
  mailbox := mb
  rxm := ⟨stdId, 0, 0, 0, 0, Vector.replicate 8 0, 0⟩
  around := fun _ => 0
  hw := blackBoxCanSlaveHardware 0

/-- A request for the spec sheet, an extended frame for the identifier that the variable
happened to hold, and a request for the channel data. -/
def requestsAround (stale : UInt32) : List Arrival :=
  [arrivalOf ⟨0x00, 1, 6, 0⟩ 0, arrivalOf ⟨0x04, 1, 6, 0⟩ stale, arrivalOf ⟨0x00, 2, 8, 0⟩ 0]

/-- An extended frame for another identifier does nothing, whatever its data: the two data
frames around it are answered as they are without it. -/
theorem only_data_frames_elsewhere :
    dispatcher.outcome initial (requestsAround 5) =
        dispatcher.outcome initial ((requestsAround 5).filter isDataFrame) ∧
      dispatcher.outcome initial (requestsAround 7) =
        dispatcher.outcome initial (requestsAround 5) := by
  have hidle : ∀ stale : UInt32, stale ≠ 0 →
      dispatcher.Along OnlyDataActedOn initial (requestsAround stale) := by
    intro stale hne
    have hstale : (arrivalOf ⟨0x04, 1, 6, 0⟩ stale).received.stdId = stale :=
      if_neg (show ¬ ((0x04 : UInt32) &&& 0x04).toUInt8 = canIdStandard by decide)
    have hdata : isDataFrame (arrivalOf ⟨0x00, 1, 6, 0⟩ 0) = true ∧
        isDataFrame (arrivalOf ⟨0x00, 2, 8, 0⟩ 0) = true := by
      decide
    refine ⟨fun hother => absurd (hdata.1.symm.trans hother) (by decide), ?_⟩
    refine ⟨fun _ hacts => hne (hstale.symm.trans hacts.1), ?_⟩
    split
    · trivial
    · exact ⟨fun hother => absurd (hdata.2.symm.trans hother) (by decide), by split <;> trivial⟩
  obtain ⟨hfilter, hsame⟩ := only_data_frames (requestsAround 5) (hidle 5 (by decide))
  exact ⟨hfilter, hsame (requestsAround 7)
    (.cons ⟨rfl, rfl, rfl⟩ (.cons ⟨rfl, rfl, rfl⟩ (.cons ⟨rfl, rfl, rfl⟩ .nil)))
    (hidle 7 (by decide))⟩

/-- An extended frame makes the slave send its spec sheet if the variable happened to hold
the broadcast id, and not if it held another; a remote frame makes it send channel data. -/
theorem not_only_data_frames :
    dispatcher.outcome initial [arrivalOf ⟨0x04, 1, 6, 0⟩ 0] ≠
        dispatcher.outcome initial [arrivalOf ⟨0x04, 1, 6, 0⟩ 5] ∧
      SameFrames [arrivalOf ⟨0x04, 1, 6, 0⟩ 0] [arrivalOf ⟨0x04, 1, 6, 0⟩ 5] ∧
      dispatcher.outcome initial [arrivalOf ⟨0x02, 2, 8, 0⟩ 0] ≠
        dispatcher.outcome initial ([arrivalOf ⟨0x02, 2, 8, 0⟩ 0].filter isDataFrame) := by
  refine ⟨?_, .cons ⟨rfl, rfl, rfl⟩ .nil, ?_⟩
  · intro h
    have hcount := congrArg (Option.map fun r => r.2.length) h
    exact absurd hcount (by decide)
  · intro h
    have hcount := congrArg (Option.map fun r => r.2.length) h
    exact absurd hcount (by decide)

end Resmod.Analysis
