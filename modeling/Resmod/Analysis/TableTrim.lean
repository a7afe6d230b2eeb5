import Resmod.Analysis.TableReception
import Resmod.Library.SortedList

/-!
# Trimming a received table

`TableTrim` is there to get rid of the ids 0 and 1, and removes the two entries at the
front of the sorted table.  A table is trimmed when it is complete: at the announcement if
it fits in that frame, at a continuation frame otherwise.

`receivingSlave` is the slave with the ids it received since the last announcement.
`trims_exactly_iff` says for every run from power-up, whatever the sender announces and
sends, that trimming is exact precisely if every table that completes holds the reserved
ids twice in all.
-/

set_option autoImplicit false

namespace Resmod.Analysis

open Resmod.Library Resmod.Model Resmod.Model.CanSlave

/-- The identifiers that no slave has. -/
def reserved (id : UInt8) : Bool := id = 0 ∨ id = 1

/-- How a call leaves defined behaviour, if it does. -/
def faultOf (s : CanSlave) : Call → Option Fault
  | .connect => none
  | .rxData hw id dat size =>
    match rxData hw s id dat size with
    | .ok _ => none
    | .error f => some f

/-- The ids received since the last announcement, the ones of this call included. -/
def receivedIds (ids : List UInt8) (s : CanSlave) (c : Call) : List UInt8 :=
  match reception s c with
  | .table _ count dat => dat.read (min count.toNat 6)
  | .continuation dat size => ids ++ dat.read size.toNat
  | _ => ids

/-- The slave together with the ids received for its table. -/
def receivingSlave : Machine (CanSlave × List UInt8) Call Effect :=
  machine.observe fun ids s c _ _ => receivedIds ids s c

/-- The call brings ids of a table. -/
def BringsIds (s : CanSlave) (c : Call) : Prop :=
  match reception s c with
  | .table _ _ _ => True
  | .continuation _ _ => True
  | _ => False

/-- The call pops from no empty deque, and if it ends a table reception it leaves exactly
the received ids that are not reserved. -/
structure TrimsExactly (p : CanSlave × List UInt8) (c : Call) : Prop where
  noPop : faultOf p.1 c ≠ some .popFrontOfEmpty
  trimmed : ∀ s' o, machine.step p.1 c = some (s', o) → BringsIds p.1 c →
    s'.extratable = false →
    s'.idtable.Perm ((receivedIds p.2 p.1 c).filter fun id => !reserved id)

/-- With this call the announced count is reached. -/
def CompletesTable (s : CanSlave) (c : Call) : Prop :=
  match reception s c with
  | .table _ count _ => count ≤ 6
  | .continuation _ size => size.toNat ≤ 255 ∧ s.tablecapacity = UInt8.ofNat size.toNat
  | _ => False

/-- A table that is complete holds two reserved ids. -/
def TwoReserved (p : CanSlave × List UInt8) (c : Call) : Prop :=
  CompletesTable p.1 c → (receivedIds p.2 p.1 c).countP reserved = 2

/-! ## The table that is trimmed -/

/-- **Trimming** leaves exactly the ids that are not reserved if and only if two are.
SOURCE: canslave.cc:159-164 -/
theorem trim_iff (ids : List UInt8) :
    (2 ≤ ids.length ∧ ((ids.insertionSort (· ≤ ·)).drop 2).Perm
      (ids.filter fun id => !reserved id)) ↔ ids.countP reserved = 2 := by
  have hdown : ∀ a b : UInt8, a ≤ b → reserved b = true → reserved a = true := by
    intro a b hle hb
    unfold reserved at hb ⊢
    rw [decide_eq_true_iff] at hb ⊢
    exact zero_or_one_of_le hle hb
  have hperm := List.perm_insertionSort (· ≤ ·) ids
  have hfilter := hperm.filter fun id => !reserved id
  have hiff := drop_perm_filter_iff (n := 2) hdown (List.pairwise_insertionSort (· ≤ ·) ids)
  rw [hperm.countP_eq, hperm.length_eq] at hiff
  rw [← hiff]
  apply and_congr_right
  intro _
  constructor
  · intro h
    exact h.trans hfilter.symm
  · intro h
    exact h.trans hfilter

/-! ## One step -/

/-- A step that is made is not a fault. -/
theorem faultOf_of_step {s : CanSlave} {c : Call} {r : CanSlave × List Effect}
    (h : machine.step s c = some r) : faultOf s c = none := by
  cases c with
  | connect => rfl
  | rxData hw id dat size =>
    simp only [machine] at h
    cases hrx : rxData hw s id dat size with
    | ok r' => simp only [faultOf, hrx]
    | error f =>
      rw [hrx] at h
      exact absurd h (by simp [Except.toOption])

/-- An announcement pops from an empty deque if its table fits and has less than two ids.
SOURCE: canslave.cc:107-123 -/
theorem faultOf_of_table {s : CanSlave} {c : Call} {hw : CanSlaveHardware} {n : UInt8}
    {ids : Bytes} (h : reception s c = .table hw n ids) (h6 : n ≤ 6) (h2 : ¬ 2 ≤ n.toNat) :
    faultOf s c = some .popFrontOfEmpty := by
  obtain ⟨dat, size, rfl, hext, hcmd, rfl, rfl⟩ := reception_eq_table h
  simp only [faultOf, rxData, hext, hcmd, if_true, Bool.false_eq_true, if_false]
  unfold receiveSlaveTable
  simp only [if_pos h6, tableTrim_eq, List.nil_append, Bytes.length_read, if_neg h2]
  rfl

/-- The fault of a continuation. -/
theorem faultOf_of_continuation {s : CanSlave} {c : Call} {dat : Bytes} {size : UInt32}
    (h : reception s c = .continuation dat size) {f : Fault}
    (hfault : receiveExtraSlaveTable s dat size = .error f) : faultOf s c = some f := by
  obtain ⟨hw, rfl, hext⟩ := reception_eq_continuation h
  simp only [faultOf, rxData, hext, if_true, hfault]
  rfl

/-- While a table is open, it holds what was received of it. -/
def ReceivingInv (p : CanSlave × List UInt8) : Prop :=
  p.1.extratable = true → p.1.idtable = p.2

variable {s : CanSlave} {ids : List UInt8} {c : Call}

/-- A call that leaves its table open has both properties. -/
theorem trimsExactly_iff_of_open (hends : ¬ CompletesTable s c)
    (hpop : faultOf s c ≠ some .popFrontOfEmpty)
    (hopen : ∀ s' o, machine.step s c = some (s', o) → BringsIds s c → s'.extratable = true) :
    TrimsExactly (s, ids) c ↔ TwoReserved (s, ids) c := by
  constructor
  · intro _ h
    exact absurd h hends
  · intro _
    refine ⟨hpop, ?_⟩
    intro s' o hstep hbrings hclosed
    rw [hopen s' o hstep hbrings] at hclosed
    exact Bool.noConfusion hclosed

/-- What is trimmed at the end of a table is what was received of it. -/
theorem trimsExactly_iff_of_completes (hends : CompletesTable s c) (hbrings : BringsIds s c)
    {cap : UInt8} {o : List Effect}
    (hlong : 2 ≤ (receivedIds ids s c).length → machine.step s c = some (⟨s.canid, false, cap,
      ((receivedIds ids s c).insertionSort (· ≤ ·)).drop 2⟩, o))
    (hshort : ¬ 2 ≤ (receivedIds ids s c).length → faultOf s c = some .popFrontOfEmpty) :
    TrimsExactly (s, ids) c ↔ TwoReserved (s, ids) c := by
  have htrim := trim_iff (receivedIds ids s c)
  constructor
  · intro h _
    by_cases h2 : 2 ≤ (receivedIds ids s c).length
    · exact htrim.mp ⟨h2, h.trimmed _ _ (hlong h2) hbrings rfl⟩
    · exact absurd (hshort h2) h.noPop
  · intro h
    obtain ⟨h2, hperm⟩ := htrim.mpr (h hends)
    refine ⟨?_, ?_⟩
    · simp [faultOf_of_step (hlong h2)]
    · intro s' o' hstep _ _
      rw [hlong h2] at hstep
      cases hstep
      exact hperm

/-- An announcement completes the table if it fits in the frame.
SOURCE: canslave.cc:107-123 -/
theorem trimsExactly_iff_of_table {hw : CanSlaveHardware} {n : UInt8} {dat : Bytes}
    (hrec : reception s c = .table hw n dat) :
    TrimsExactly (s, ids) c ↔ TwoReserved (s, ids) c := by
  have hstep := step_of_table hrec
  have hends : CompletesTable s c ↔ n ≤ 6 := by simp only [CompletesTable, hrec]
  have hbrings : BringsIds s c := by simp only [BringsIds, hrec]
  by_cases h6 : n ≤ 6
  · have hids : receivedIds ids s c = dat.read n.toNat := by
      rw [UInt8.le_iff_toNat_le] at h6
      simp only [receivedIds, hrec]
      exact congrArg dat.read (Nat.min_eq_left h6)
    rw [if_pos h6] at hstep
    apply trimsExactly_iff_of_completes (hends.mpr h6) hbrings
    · intro h2
      rw [hids] at h2 ⊢
      rw [Bytes.length_read] at h2
      rw [hstep, if_pos h2]
    · intro h2
      rw [hids, Bytes.length_read] at h2
      exact faultOf_of_table hrec h6 h2
  · rw [if_neg h6] at hstep
    apply trimsExactly_iff_of_open (fun h => h6 (hends.mp h))
    · simp [faultOf_of_step hstep]
    · intro s' o hs' _
      rw [hstep] at hs'
      cases hs'
      rfl

/-- A continuation completes the table if it brings as many ids as are missing.
SOURCE: canslave.cc:124-137 -/
theorem trimsExactly_iff_of_continuation {dat : Bytes} {size : UInt32}
    (hrec : reception s c = .continuation dat size) (hids : s.idtable = ids) :
    TrimsExactly (s, ids) c ↔ TwoReserved (s, ids) c := by
  have hstep := step_of_continuation hrec
  have hends : CompletesTable s c ↔
      size.toNat ≤ 255 ∧ s.tablecapacity = UInt8.ofNat size.toNat := by
    simp only [CompletesTable, hrec]
  have hbrings : BringsIds s c := by simp only [BringsIds, hrec]
  have hreceived : receivedIds ids s c = ids ++ dat.read size.toNat := by
    simp only [receivedIds, hrec]
  by_cases hsize : size.toNat ≤ 255
  case neg =>
    have hloop : receiveExtraSlaveTable s dat size = .error .loopDoesNotEnd :=
      receiveExtraSlaveTable_of_ge s dat (by omega)
    apply trimsExactly_iff_of_open (fun h => hsize (hends.mp h).1)
    · simp [faultOf_of_continuation hrec hloop]
    · intro s' o hs'
      rw [hstep, hloop] at hs'
      exact absurd hs' (by simp [Except.toOption])
  have hextra := receiveExtraSlaveTable_eq s dat size hsize
  rw [hids] at hextra
  by_cases hcap : 0 < s.tablecapacity - UInt8.ofNat size.toNat
  · simp only [if_pos hcap] at hextra
    rw [hextra] at hstep
    apply trimsExactly_iff_of_open
    · intro h
      rw [(hends.mp h).2, UInt8.sub_self] at hcap
      exact absurd hcap (by decide)
    · simp [faultOf_of_step hstep]
    · intro s' o hs' _
      rw [hstep] at hs'
      cases hs'
      rfl
  · simp only [if_neg hcap] at hextra
    have hzero : s.tablecapacity = UInt8.ofNat size.toNat := by
      rw [UInt8.pos_iff_ne_zero, not_not] at hcap
      grind
    apply trimsExactly_iff_of_completes (hends.mpr ⟨hsize, hzero⟩) hbrings
    · intro h2
      rw [hreceived] at h2 ⊢
      rw [hstep, hextra, if_pos h2]
      rfl
    · intro h2
      rw [hreceived] at h2
      rw [if_neg h2] at hextra
      exact faultOf_of_continuation hrec hextra

/-- **The step lemma.**  A call trims exactly if and only if the table it completes holds
two reserved ids. -/
theorem trimsExactly_iff {p : CanSlave × List UInt8} (hI : ReceivingInv p) (c : Call) :
    TrimsExactly p c ↔ TwoReserved p c := by
  obtain ⟨s, ids⟩ := p
  cases hrec : reception s c with
  | other =>
    obtain ⟨o, hstep, -⟩ := step_of_other hrec
    apply trimsExactly_iff_of_open
    · simp [CompletesTable, hrec]
    · simp [faultOf_of_step hstep]
    · simp [BringsIds, hrec]
  | confirm hw ack =>
    have hstep := step_of_confirm hrec
    apply trimsExactly_iff_of_open
    · simp [CompletesTable, hrec]
    · split_ifs at hstep <;> simp [faultOf_of_step hstep]
    · simp [BringsIds, hrec]
  | table hw n dat => exact trimsExactly_iff_of_table hrec
  | continuation dat size =>
    obtain ⟨-, -, hext⟩ := reception_eq_continuation hrec
    exact trimsExactly_iff_of_continuation hrec (hI hext)

/-- A step leaves what was received of an open table in it. -/
theorem receivingInv_step {p p' : CanSlave × List UInt8} {c : Call} {o : List Effect}
    (hI : ReceivingInv p) (hstep : receivingSlave.step p c = some (p', o)) :
    ReceivingInv p' := by
  obtain ⟨s, ids⟩ := p
  obtain ⟨s', ids'⟩ := p'
  obtain ⟨hs, hids⟩ := Machine.observe_step_eq_some.mp hstep
  simp only [receivedIds] at hs hids
  intro hext'
  simp only at hext' ⊢
  cases hrec : reception s c with
  | other =>
    obtain ⟨o', hs', -⟩ := step_of_other hrec
    rw [hs'] at hs
    cases hs
    simp only [hrec] at hids
    rw [hids]
    exact hI hext'
  | confirm hw ack =>
    simp only [hrec] at hids
    rw [step_of_confirm hrec] at hs
    split_ifs at hs <;> cases hs <;> exact (hI hext').trans hids.symm
  | table hw n dat =>
    simp only [hrec] at hids
    rw [step_of_table hrec] at hs
    split_ifs at hs with h6 h2
    · cases hs
      exact Bool.noConfusion hext'
    · cases hs
      have hmin : min n.toNat 6 = 6 := by
        rw [UInt8.le_iff_toNat_le] at h6
        exact Nat.min_eq_right (Nat.le_of_not_le h6)
      rw [hids, hmin]
  | continuation dat size =>
    simp only [hrec] at hids
    obtain ⟨-, -, hext⟩ := reception_eq_continuation hrec
    have hsame : s.idtable = ids := hI hext
    rw [idtable_of_continuation hrec hs hext', hids, hsame]

/-- **Trimming removes exactly the reserved ids** in a run from power-up if and only if
every table that completes holds two of them.
SOURCE: canslave.cc:107-137, 159-164 -/
theorem trims_exactly_iff (calls : List Call) :
    receivingSlave.Along TrimsExactly (initial, []) calls ↔
      receivingSlave.Along TwoReserved (initial, []) calls := by
  apply Machine.along_congr_of_invariant ReceivingInv
  · intro p c hI
    exact trimsExactly_iff hI c
  · intro p c p' o hI _ hstep
    exact receivingInv_step hI hstep
  · exact Bool.noConfusion

/-- A table of the ids 5 and 6 is trimmed to an empty one, and a table of one id pops from
an empty deque. -/
theorem not_trims_exactly :
    ¬ receivingSlave.Along TrimsExactly (initial, []) [rxFrame 0 [2, 2, 5, 6]] ∧
      ¬ receivingSlave.Along TrimsExactly (initial, []) [rxFrame 0 [2, 1, 0]] := by
  constructor
  · rintro ⟨h, -⟩
    exact absurd ((h.trimmed _ _ rfl trivial rfl).length_eq) (by decide)
  · rintro ⟨h, -⟩
    exact h.noPop rfl

end Resmod.Analysis
