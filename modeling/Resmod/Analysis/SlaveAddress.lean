import Resmod.Analysis.TableReception

/-!
# On which id a slave sends

`RequestTable` and `SendSelectedAddress` send on the id of the uninitialised slaves.
`SendSpecSheet` and `SendChannelData` send on `GetCanID()`, which is the broadcast id
until an address has been assigned, and `RxData` lets the two requests through on that id.

`addressed` is the slave with the address it was assigned last.
`silent_until_assigned_iff` says for every run when all messages are sent on the id they
belong on.
-/

set_option autoImplicit false

namespace Resmod.Analysis

open Resmod.Library Resmod.Model Resmod.Model.CanSlave

/-! ## Messages and requests -/

/-- The message carries the spec sheet or channel data. -/
def IsData (m : Message) : Prop :=
  m.dat.head? = some cmdSendSpecSheet ∨ m.dat.head? = some cmdSendChannelData

/-- The call hands the slave a request for its spec sheet or for channel data, outside of
a table reception. -/
def RequestsData (s : CanSlave) : Call → Prop
  | .connect => False
  | .rxData _ id dat _ =>
    id = s.getCanID ∧ s.extratable = false ∧
      (dat 0 = cmdReqSpecSheet ∨ dat 0 = cmdRequestChannelData)

/-- A request is answered with one data message, on the address of the slave.
SOURCE: canslave.cc:79-85, 202-262 -/
theorem step_of_requestsData {s : CanSlave} {c : Call} (h : RequestsData s c) :
    ∃ m, machine.step s c = some (s, [.writeMessage m]) ∧ m.id = s.getCanID ∧ IsData m := by
  cases c with
  | connect => exact h.elim
  | rxData hw id dat size =>
    obtain ⟨rfl, hext, hspec | hchan⟩ := h
    · exact ⟨_, step_of_reqSpecSheet hext hw hspec size, rfl, .inl rfl⟩
    · exact ⟨_, step_of_requestChannelData hext hw hchan size, rfl, .inr rfl⟩

/-- Without a request no data message is sent, and what is sent goes out on the id of the
uninitialised slaves.
SOURCE: canslave.cc:61-201 -/
theorem messages_of_not_requestsData {s s' : CanSlave} {c : Call} {o : List Effect}
    (h : ¬ RequestsData s c) (hstep : machine.step s c = some (s', o)) {m : Message}
    (hm : m ∈ messages o) : m.id = canidUninitSlave ∧ ¬ IsData m := by
  rcases messages_step hstep hm with ⟨hw, id, dat, size, -, rfl⟩ | ⟨o', hans, hm⟩
  · exact ⟨rfl, by simp [IsData, offer, cmdSelectAddress, cmdSendSpecSheet, cmdSendChannelData]⟩
  · cases hans with
    | requestTable =>
      obtain rfl := List.mem_singleton.mp hm
      exact ⟨rfl, by simp [IsData, cmdRequestTable, cmdSendSpecSheet, cmdSendChannelData]⟩
    | silent => exact absurd hm List.not_mem_nil
    | specSheet hw size hext hcmd => exact absurd ⟨rfl, hext, .inl hcmd⟩ h
    | channelData hw size hext hcmd => exact absurd ⟨rfl, hext, .inr hcmd⟩ h

/-! ## The assigned address -/

/-- The slave with the address it was assigned last. -/
def addressed : Machine (CanSlave × Option UInt32) Call Effect :=
  machine.observe fun last _ _ _ o => (assigned o).getLast?.or last

/-- Before an address was assigned every message of the step is sent on the id of the
uninitialised slaves; a data message is sent on the assigned address, and not on the
broadcast id. -/
def SilentUntilAssigned (p : CanSlave × Option UInt32) (_ : Call)
    (_ : CanSlave × Option UInt32) (o : List Effect) : Prop :=
  ∀ m ∈ messages o, (p.2 = none → m.id = canidUninitSlave) ∧
    (IsData m → p.2 = some m.id ∧ m.id ≠ canidMasterBroadcast)

/-- The call does not request data from a slave that has not been assigned an address. -/
def NoEarlyRequest (p : CanSlave × Option UInt32) (c : Call) : Prop :=
  p.2 = none → ¬ RequestsData p.1 c

/-- The slave has the broadcast id until an address is assigned, and the assigned address
from then on, which is not the broadcast id. -/
def AddressInv (p : CanSlave × Option UInt32) : Prop :=
  match p.2 with
  | none => p.1.getCanID = canidMasterBroadcast
  | some a => p.1.getCanID = a ∧ a ≠ canidMasterBroadcast

/-- **What a step makes of the address.**  It assigns nothing and leaves the address alone,
or it assigns 45. -/
theorem assigned_step {s s' : CanSlave} {c : Call} {o : List Effect}
    (hstep : machine.step s c = some (s', o)) :
    (assigned o = [] ∧ s'.canid = s.canid) ∨ (assigned o = [45] ∧ s'.canid = 45) := by
  cases hrec : reception s c with
  | other =>
    obtain ⟨o', hs', -, hassigned⟩ := step_of_other hrec
    rw [hs'] at hstep
    cases hstep
    exact .inl ⟨hassigned, rfl⟩
  | continuation dat size =>
    obtain ⟨-, rfl, hcanid, -⟩ := continuation_cases hrec hstep
    exact .inl ⟨rfl, hcanid⟩
  | table hw count ids =>
    rw [step_of_table hrec] at hstep
    split_ifs at hstep <;> cases hstep <;> exact .inl ⟨rfl, rfl⟩
  | confirm hw ack =>
    rw [step_of_confirm hrec] at hstep
    split_ifs at hstep <;> cases hstep
    · exact .inl ⟨rfl, rfl⟩
    · exact .inr ⟨rfl, rfl⟩
    · exact .inl ⟨rfl, rfl⟩

/-- A call keeps the address as the last one that was set. -/
theorem addressInv_step {p p' : CanSlave × Option UInt32} {c : Call} {o : List Effect}
    (hI : AddressInv p) (hstep : addressed.step p c = some (p', o)) : AddressInv p' := by
  obtain ⟨s, last⟩ := p
  obtain ⟨s', last'⟩ := p'
  obtain ⟨hs, hlast⟩ := Machine.observe_step_eq_some.mp hstep
  simp only at hs hlast
  subst hlast
  rcases assigned_step hs with ⟨hnone, hcanid⟩ | ⟨hsome, hcanid⟩
  · simpa [AddressInv, hnone, getCanID, hcanid] using hI
  · simp [AddressInv, hsome, getCanID, hcanid, canidMasterBroadcast]

/-- **The step lemma.**  From the invariant, the messages of a step are sent on the id they
belong on if and only if the call is not an early request. -/
theorem silentUntilAssigned_step {p p' : CanSlave × Option UInt32} {c : Call}
    {o : List Effect} (hI : AddressInv p) (hstep : addressed.step p c = some (p', o)) :
    SilentUntilAssigned p c p' o ↔ NoEarlyRequest p c := by
  obtain ⟨s, last⟩ := p
  obtain ⟨hs, -⟩ := Machine.observe_step_eq_some.mp hstep
  simp only at hs
  by_cases hreq : RequestsData s c
  · obtain ⟨m, hm, hid, hdata⟩ := step_of_requestsData hreq
    rw [hm] at hs
    cases hs
    cases last with
    | none =>
      -- the answer goes out on the broadcast id
      have hbroadcast : m.id = canidMasterBroadcast := hid.trans hI
      constructor
      · intro h
        exact absurd hbroadcast ((h m (List.mem_singleton.mpr rfl)).2 hdata).2
      · intro h
        exact absurd hreq (h rfl)
    | some a =>
      obtain ⟨hcanid, hne⟩ := hI
      constructor
      · intro _ h
        exact absurd h (by simp)
      · intro _ m' hm'
        obtain rfl := List.mem_singleton.mp hm'
        have hsent : m'.id = a := hid.trans hcanid
        exact ⟨fun h => absurd h (by simp), fun _ => ⟨by rw [hsent], by rwa [hsent]⟩⟩
  · constructor
    · intro _ _
      exact hreq
    · intro _ m hm
      obtain ⟨huninit, hdata⟩ := messages_of_not_requestsData hreq hs hm
      exact ⟨fun _ => huninit, fun h => absurd h hdata⟩

/-- **When a slave is silent until it has an address.**  In every run from power-up, every
message is sent on the id it belongs on if and only if no request for data reaches the
slave before an address has been assigned.
SOURCE: canslave.cc:61-106, 202-262 -/
theorem silent_until_assigned_iff (calls : List Call) :
    addressed.Always SilentUntilAssigned (initial, none) calls ↔
      addressed.Always (fun p c _ _ => NoEarlyRequest p c) (initial, none) calls :=
  Machine.always_congr AddressInv
    (fun _ _ _ _ hI hstep => ⟨silentUntilAssigned_step hI hstep,
      fun _ => addressInv_step hI hstep⟩)
    (show AddressInv (initial, none) from rfl) calls

/-- A request for channel data on the broadcast id is answered on the broadcast id by a
slave that was just switched on. -/
theorem not_silent_of_early_request :
    ¬ addressed.Always SilentUntilAssigned (initial, none)
      [.connect, rxFrame 0 [8, 35]] := by
  intro h
  have hsilent := h.2.1 ⟨0, [7, 35, 0, 0, 0, 0]⟩ (by decide)
  exact absurd (hsilent.1 rfl) (by decide)

end Resmod.Analysis
