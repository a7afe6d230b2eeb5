import Resmod.Analysis.Reception
import Resmod.Library.SortedList
import Resmod.Model.CanSlaveHardware

/-!
# Receiving an id table, whole or in pieces

A master sends a table as one `CMD_SENDTABLE` frame, which announces the count and
carries the first six ids, and continuation frames that carry nothing but ids.
`Delivers` says that a list of calls is such a delivery; the bytes of a buffer beyond
those received are arbitrary.

The run lemma `exec_continuations` is the induction over the continuation frames: while
ids are missing the frames are appended and nothing is sent, and the frame that brings
the last one sorts and trims the table.
-/

set_option autoImplicit false

namespace Resmod.Analysis

open Resmod.Library Resmod.Model Resmod.Model.CanSlave
open Resmod.Library.Machine (exec_cons_of_step)

/-! ## Deliveries -/

/-- The call hands `RxData` a frame for `canid` that carries exactly these bytes. -/
def Carries (canid : UInt8) (bytes : List UInt8) : Call → Prop
  | .connect => False
  | .rxData _ id dat size =>
    id = canid.toUInt32 ∧ size.toNat = bytes.length ∧ dat.read bytes.length = bytes

/-- The pieces cut `ids` into non-empty continuation frames of at most eight bytes. -/
def Cuts (ids : List UInt8) (pieces : List (List UInt8)) : Prop :=
  pieces.flatten = ids ∧ ∀ p ∈ pieces, p ≠ [] ∧ p.length ≤ 8

/-- The calls deliver the table to `canid`: the announcement with the first six ids, then
one frame for each of the pieces. -/
def Delivers (canid : UInt8) (table : List UInt8) (pieces : List (List UInt8))
    (calls : List Call) : Prop :=
  List.Forall₂ (Carries canid)
    ((cmdSendTable :: UInt8.ofNat table.length :: table.take 6) :: pieces) calls

/-- A frame with a table command is taken as a table, outside of a table reception. -/
theorem reception_of_carries_table {s : CanSlave} {c : Call} {n : UInt8} {ids : List UInt8}
    (hext : s.extratable = false) (h : Carries s.canid (cmdSendTable :: n :: ids) c) :
    ∃ hw dat, reception s c = .table hw n dat ∧ dat.read ids.length = ids := by
  cases c with
  | connect => exact h.elim
  | rxData hw id dat size =>
    obtain ⟨hid, -, hread⟩ := h
    have hsplit := Bytes.read_add dat 2 ids.length
    rw [Nat.add_comm 2, show (cmdSendTable :: n :: ids).length = ids.length + 2 from rfl] at *
    rw [hread] at hsplit
    have hhead : dat.read 2 = [dat 0, dat 1] := rfl
    rw [hhead] at hsplit
    simp only [List.cons_append, List.nil_append, List.cons.injEq] at hsplit
    obtain ⟨hcmd, hn, hids⟩ := hsplit
    refine ⟨hw, dat.from 2, ?_, hids.symm⟩
    rw [reception_rxData, if_neg (by simp [hid, getCanID]), hext, if_neg (by simp),
      if_pos hcmd.symm, hn]

/-- During a table reception every frame for the slave is taken as more ids. -/
theorem reception_of_carries {s : CanSlave} {c : Call} {bytes : List UInt8}
    (hext : s.extratable = true) (h : Carries s.canid bytes c) :
    ∃ dat size, reception s c = .continuation dat size ∧ size.toNat = bytes.length ∧
      dat.read bytes.length = bytes := by
  cases c with
  | connect => exact h.elim
  | rxData hw id dat size =>
    obtain ⟨hid, hsize, hread⟩ := h
    exact ⟨dat, size, by rw [reception_rxData, if_neg (by simp [hid, getCanID]), hext]; rfl,
      hsize, hread⟩

/-! ## The continuation frames -/

/-- Taking at most what is there off an 8-bit count is the subtraction of naturals. -/
theorem toNat_sub_ofNat (cap : UInt8) (k : ℕ) (h : k ≤ cap.toNat) :
    (cap - UInt8.ofNat k).toNat = cap.toNat - k := by
  have hcap := cap.toNat_lt
  have hof : (UInt8.ofNat k).toNat = k := by
    rw [UInt8.toNat_ofNat']
    omega
  rw [UInt8.toNat_sub_of_le _ _ (by rw [UInt8.le_iff_toNat_le]; omega), hof]

/-- One continuation frame that carries no more ids than are missing. -/
theorem step_of_carries {s : CanSlave} {c : Call} {bytes : List UInt8}
    (hext : s.extratable = true) (h : Carries s.canid bytes c)
    (hle : bytes.length ≤ s.tablecapacity.toNat) (h2 : 2 ≤ s.idtable.length) :
    machine.step s c =
      if bytes.length < s.tablecapacity.toNat then
        some (⟨s.canid, true, s.tablecapacity - UInt8.ofNat bytes.length,
          s.idtable ++ bytes⟩, [])
      else some (⟨s.canid, false, 0,
        ((s.idtable ++ bytes).insertionSort (· ≤ ·)).drop 2⟩, []) := by
  obtain ⟨dat, size, hrec, hsize, hread⟩ := reception_of_carries hext h
  have hcap := s.tablecapacity.toNat_lt
  have hsub := toNat_sub_ofNat s.tablecapacity bytes.length hle
  rw [step_of_continuation hrec, receiveExtraSlaveTable_eq _ _ _ (by omega), hsize, hread]
  by_cases hlt : bytes.length < s.tablecapacity.toNat
  · rw [if_pos hlt]
    simp only
    rw [if_pos (by rw [UInt8.lt_iff_toNat_lt, hsub]; simp only [UInt8.toNat_zero]; omega)]
    rfl
  · rw [if_neg hlt]
    have hzero : s.tablecapacity - UInt8.ofNat bytes.length = 0 := by
      apply UInt8.toNat_inj.mp
      rw [hsub]
      simp only [UInt8.toNat_zero]
      omega
    simp only [hzero]
    rw [if_neg (by decide), if_pos (by simp only [List.length_append]; omega)]
    rfl

/-- **The run over the continuation frames.**  Frames that together carry exactly the
missing ids end the reception with the sorted and trimmed table; nothing is sent, and
the reception is still open before the last of them.
SOURCE: canslave.cc:124-137 -/
theorem exec_continuations {s : CanSlave} {pieces : List (List UInt8)} {calls : List Call}
    (hext : s.extratable = true) (h2 : 2 ≤ s.idtable.length)
    (hcalls : List.Forall₂ (Carries s.canid) pieces calls)
    (hne : ∀ p ∈ pieces, p ≠ [])
    (hcap : pieces.flatten.length = s.tablecapacity.toNat) (hpos : pieces ≠ []) :
    machine.exec s calls = some (⟨s.canid, false, 0,
        ((s.idtable ++ pieces.flatten).insertionSort (· ≤ ·)).drop 2⟩,
        List.replicate calls.length []) ∧
      ∀ pre post, calls = pre ++ post → post ≠ [] →
        ∃ s' os, machine.exec s pre = some (s', os) ∧ s'.extratable = true := by
  induction pieces generalizing s calls with
  | nil => exact (hpos rfl).elim
  | cons bytes pieces ih =>
    obtain ⟨c, calls, hc, hrest, rfl⟩ := List.forall₂_cons_left_iff.mp hcalls
    simp only [List.flatten_cons, List.length_append] at hcap
    have hstep := step_of_carries hext hc (by omega) h2
    by_cases hlast : pieces = []
    · subst hlast
      obtain rfl := List.forall₂_nil_left_iff.mp hrest
      simp only [List.flatten_nil, List.length_nil] at hcap
      rw [if_neg (by omega)] at hstep
      refine ⟨by rw [exec_cons_of_step hstep]; simp, ?_⟩
      intro pre post hsplit hpost
      have hpre : pre = [] := by
        have hlen := congrArg List.length hsplit
        have := List.length_pos_iff.mpr hpost
        simp only [List.length_cons, List.length_nil, List.length_append] at hlen
        exact List.length_eq_zero_iff.mp (by omega)
      subst hpre
      exact ⟨s, [], rfl, hext⟩
    · obtain ⟨q, ps, rfl⟩ := List.exists_cons_of_ne_nil hlast
      have hq : 0 < q.length := List.length_pos_iff.mpr (hne q (by simp))
      simp only [List.flatten_cons, List.length_append] at hcap
      have hlt : bytes.length < s.tablecapacity.toNat := by omega
      rw [if_pos hlt] at hstep
      have hsub := toNat_sub_ofNat s.tablecapacity bytes.length hlt.le
      obtain ⟨hrun, hopen⟩ := @ih ⟨s.canid, true, s.tablecapacity - UInt8.ofNat bytes.length,
        s.idtable ++ bytes⟩ calls rfl (by simp only [List.length_append]; omega) hrest
        (fun p hp => hne p (List.mem_cons_of_mem _ hp))
        (by simp only [hsub, List.flatten_cons, List.length_append]; omega) hlast
      refine ⟨?_, ?_⟩
      · rw [exec_cons_of_step hstep, hrun]
        simp [List.replicate_succ]
      · intro pre post hsplit hpost
        cases pre with
        | nil => exact ⟨s, [], rfl, hext⟩
        | cons c' pre =>
          simp only [List.cons_append, List.cons.injEq] at hsplit
          obtain ⟨rfl, hsplit⟩ := hsplit
          obtain ⟨s', os, hs', hopen'⟩ := hopen pre post hsplit hpost
          exact ⟨s', [] :: os, by rw [exec_cons_of_step hstep, hs']; rfl, hopen'⟩

/-! ## The whole delivery -/

/-- The empty table has no piece. -/
theorem cuts_nil {pieces : List (List UInt8)} : Cuts [] pieces ↔ pieces = [] := by
  constructor
  · rintro ⟨hflat, hne⟩
    rw [List.eq_nil_iff_forall_not_mem]
    intro p hp
    exact (hne p hp).1 (List.flatten_eq_nil_iff.mp hflat p hp)
  · rintro rfl
    simp [Cuts]

/-- **A short table**: up to six ids are sorted and trimmed by the announcement itself,
which also offers an address.
SOURCE: canslave.cc:107-117 -/
theorem exec_delivery_short {s : CanSlave} {table : List UInt8} {pieces : List (List UInt8)}
    {calls : List Call} (hext : s.extratable = false) (h2 : 2 ≤ table.length)
    (h6 : table.length ≤ 6) (hcuts : Cuts (table.drop 6) pieces)
    (hcalls : Delivers s.canid table pieces calls) :
    ∃ hw, calls.length = 1 ∧ machine.exec s calls =
      some (⟨s.canid, false, 0, (table.insertionSort (· ≤ ·)).drop 2⟩, [handShaking hw]) := by
  rw [List.drop_eq_nil_of_le h6, cuts_nil] at hcuts
  subst hcuts
  obtain ⟨c, cs, hc, hrest, rfl⟩ := List.forall₂_cons_left_iff.mp hcalls
  obtain rfl := List.forall₂_nil_left_iff.mp hrest
  rw [List.take_of_length_le h6] at hc
  obtain ⟨hw, dat, hrec, hread⟩ := reception_of_carries_table hext hc
  have hn : (UInt8.ofNat table.length).toNat = table.length := by
    rw [UInt8.toNat_ofNat']
    omega
  have hle : UInt8.ofNat table.length ≤ 6 := by
    rw [UInt8.le_iff_toNat_le, hn]
    exact h6
  have hstep := step_of_table hrec
  rw [if_pos hle, if_pos (by omega), hn, hread] at hstep
  exact ⟨hw, rfl, by rw [exec_cons_of_step hstep]; rfl⟩

/-- **A long table**: the announcement opens the reception, the frame with the last id
closes it with the sorted and trimmed table, and nothing is sent in between or at the end.
SOURCE: canslave.cc:107-137 -/
theorem exec_delivery_long {s : CanSlave} {table : List UInt8} {pieces : List (List UInt8)}
    {calls : List Call} (hext : s.extratable = false) (h6 : 6 < table.length)
    (h255 : table.length ≤ 255) (hcuts : Cuts (table.drop 6) pieces)
    (hcalls : Delivers s.canid table pieces calls) :
    machine.exec s calls = some (⟨s.canid, false, 0,
        (table.insertionSort (· ≤ ·)).drop 2⟩, List.replicate calls.length []) ∧
      ∀ pre post, calls = pre ++ post → pre ≠ [] → post ≠ [] →
        ∃ s' os, machine.exec s pre = some (s', os) ∧ s'.extratable = true := by
  obtain ⟨hflat, hne⟩ := hcuts
  obtain ⟨c, cs, hc, hrest, rfl⟩ := List.forall₂_cons_left_iff.mp hcalls
  obtain ⟨hw, dat, hrec, hread⟩ := reception_of_carries_table hext hc
  have hsix : (table.take 6).length = 6 := by
    rw [List.length_take]
    omega
  have hn : (UInt8.ofNat table.length).toNat = table.length := by
    rw [UInt8.toNat_ofNat']
    omega
  have hgt : ¬ UInt8.ofNat table.length ≤ 6 := by
    rw [UInt8.le_iff_toNat_le, hn]
    exact Nat.not_le.mpr h6
  have hstep := step_of_table hrec
  rw [hsix] at hread
  rw [if_neg hgt, hread] at hstep
  have hcap : (UInt8.ofNat table.length - 6).toNat = table.length - 6 := by
    rw [UInt8.toNat_sub_of_le _ _ (UInt8.le_of_lt (UInt8.not_le.mp hgt)), hn]
    rfl
  have hpieces : pieces ≠ [] := by
    rintro rfl
    have hlen := congrArg List.length hflat
    simp only [List.flatten_nil, List.length_nil, List.length_drop] at hlen
    omega
  obtain ⟨hrun, hopen⟩ := @exec_continuations
    ⟨s.canid, true, UInt8.ofNat table.length - 6, table.take 6⟩ pieces cs rfl
    (by simp only [hsix]; omega) hrest (fun p hp => (hne p hp).1)
    (by rw [hflat, List.length_drop, hcap]) hpieces
  refine ⟨?_, ?_⟩
  · rw [exec_cons_of_step hstep, hrun, hflat]
    simp [List.replicate_succ]
  · intro pre post hsplit hpre hpost
    obtain ⟨c', pre, rfl⟩ := List.exists_cons_of_ne_nil hpre
    simp only [List.cons_append, List.cons.injEq] at hsplit
    obtain ⟨rfl, hsplit⟩ := hsplit
    obtain ⟨s', os, hs', hopen'⟩ := hopen pre post hsplit hpost
    exact ⟨s', [] :: os, by rw [exec_cons_of_step hstep, hs']; rfl, hopen'⟩

/-! ## Reassembly -/

/-- No id is smaller than 0 and 1. -/
theorem zero_or_one_of_le {a b : UInt8} (hle : a ≤ b) (hb : b = 0 ∨ b = 1) : a = 0 ∨ a = 1 := by
  have hone : ∀ x : UInt8, x = 0 ∨ x = 1 ↔ x.toNat ≤ 1 := by
    intro x
    have h0 : x = 0 ↔ x.toNat = 0 := UInt8.toNat_inj.symm
    have h1 : x = 1 ↔ x.toNat = 1 := UInt8.toNat_inj.symm
    rw [h0, h1]
    omega
  rw [UInt8.le_iff_toNat_le] at hle
  rw [hone] at hb ⊢
  omega

/-- The ids that are trimmed are the zeros and the ones. -/
theorem countP_zero_or_one (table : List UInt8) :
    (table.countP fun x => x = 0 ∨ x = 1) = table.count 0 + table.count 1 := by
  induction table with
  | nil => rfl
  | cons x table ih =>
    rw [List.countP_cons, List.count_cons, List.count_cons, ih]
    by_cases h0 : x = 0
    · subst h0
      simp
      omega
    · simp [h0]
      omega

/-- Dropping the two smallest entries of a table that holds ids 0 and 1 once each leaves
the other ids.
SOURCE: canslave.cc:159-164 -/
theorem drop_two_insertionSort {table : List UInt8} (h0 : table.count 0 = 1)
    (h1 : table.count 1 = 1) :
    ((table.insertionSort (· ≤ ·)).drop 2).Perm (table.filter fun x => x ≠ 0 ∧ x ≠ 1) := by
  have hsort := List.perm_insertionSort (· ≤ ·) table
  have htwo : ((table.insertionSort (· ≤ ·)).countP fun x => x = 0 ∨ x = 1) = 2 := by
    rw [hsort.countP_eq, countP_zero_or_one, h0, h1]
  have hdown : ∀ a b : UInt8, a ≤ b → decide (b = 0 ∨ b = 1) = true →
      decide (a = 0 ∨ a = 1) = true := by
    intro a b hle hb
    rw [decide_eq_true_iff] at hb ⊢
    exact zero_or_one_of_le hle hb
  have hkept : (fun x : UInt8 => decide (x ≠ 0 ∧ x ≠ 1)) =
      fun x => !decide (x = 0 ∨ x = 1) := by
    funext x
    simp only [ne_eq, ← not_or, decide_not]
  rw [drop_eq_filter hdown (List.pairwise_insertionSort (· ≤ ·) table) htwo, hkept]
  exact hsort.filter _

/-- **Table reassembly.**  A table of 2 to 255 ids that holds ids 0 and 1 once each,
delivered with any cut of the ids after the sixth, leaves the ascending list of the other
ids with their multiplicities, no capacity and no open reception; a table of more than
six ids keeps the reception open at every earlier frame.
SOURCE: canslave.cc:107-137, 159-164 -/
theorem table_reassembly (s : CanSlave) (table : List UInt8) (pieces : List (List UInt8))
    (calls : List Call) (hext : s.extratable = false) (h2 : 2 ≤ table.length)
    (h255 : table.length ≤ 255) (h0 : table.count 0 = 1) (h1 : table.count 1 = 1)
    (hcuts : Cuts (table.drop 6) pieces) (hcalls : Delivers s.canid table pieces calls) :
    (∃ s' os, machine.exec s calls = some (s', os) ∧
      s'.idtable.Pairwise (· ≤ ·) ∧
      s'.idtable.Perm (table.filter fun x => x ≠ 0 ∧ x ≠ 1) ∧
      s'.tablecapacity = 0 ∧ s'.extratable = false) ∧
    (6 < table.length → ∀ pre post, calls = pre ++ post → pre ≠ [] → post ≠ [] →
      ∃ s' os, machine.exec s pre = some (s', os) ∧ s'.extratable = true) := by
  have hsorted : ((table.insertionSort (· ≤ ·)).drop 2).Pairwise (· ≤ ·) :=
    (List.pairwise_insertionSort (· ≤ ·) table).sublist (List.drop_sublist 2 _)
  have hperm := drop_two_insertionSort h0 h1
  by_cases h6 : table.length ≤ 6
  · obtain ⟨hw, -, hrun⟩ := exec_delivery_short hext h2 h6 hcuts hcalls
    exact ⟨⟨_, _, hrun, hsorted, hperm, rfl, rfl⟩, fun h => absurd h6 (Nat.not_le.mpr h)⟩
  · obtain ⟨hrun, hopen⟩ := exec_delivery_long hext (by omega) h255 hcuts hcalls
    exact ⟨⟨_, _, hrun, hsorted, hperm, rfl, rfl⟩, fun _ => hopen⟩

/-- A call of `RxData` with a buffer that holds the given bytes, on the shipped hardware. -/
def rxFrame (id : UInt32) (bytes : List UInt8) : Call :=
  .rxData (blackBoxCanSlaveHardware 0) id (Bytes.ofList bytes) bytes.length.toUInt32

/-- Nine ids in three frames, the last one shorter than the others. -/
theorem table_reassembly_nine :
    ∃ s' os, machine.exec initial [rxFrame 0 [2, 9, 7, 0, 45, 1, 9, 9],
        rxFrame 0 [200, 3], rxFrame 0 [8]] = some (s', os) ∧
      s'.idtable.Pairwise (· ≤ ·) ∧ s'.idtable.Perm [7, 45, 9, 9, 200, 3, 8] ∧
      s'.tablecapacity = 0 ∧ s'.extratable = false :=
  (table_reassembly initial [7, 0, 45, 1, 9, 9, 200, 3, 8] [[200, 3], [8]]
    [rxFrame 0 [2, 9, 7, 0, 45, 1, 9, 9], rxFrame 0 [200, 3], rxFrame 0 [8]]
    rfl (by decide) (by decide) (by decide) (by decide) ⟨rfl, by decide⟩
    (.cons ⟨rfl, rfl, rfl⟩ (.cons ⟨rfl, rfl, rfl⟩ (.cons ⟨rfl, rfl, rfl⟩ .nil)))).1

/-! ## Restarting a reception -/

/-- **A table restarts the reception.**  Outside of a table reception, a slave without an
address that is announced a table runs from there exactly as a new slave does, whatever
the calls that follow: nothing of its history is left.
SOURCE: canslave.cc:61-90, 107-123 -/
theorem table_restart (s : CanSlave) (hcanid : s.canid = 0) (hext : s.extratable = false)
    (hw : CanSlaveHardware) (dat : Bytes) (size : UInt32) (hcmd : dat 0 = cmdSendTable)
    (calls : List Call) :
    machine.exec s (.rxData hw 0 dat size :: calls) =
      machine.exec initial (.rxData hw 0 dat size :: calls) := by
  have hrec : ∀ t : CanSlave, t.canid = 0 → t.extratable = false →
      reception t (.rxData hw 0 dat size) = .table hw (dat 1) (dat.from 2) := by
    intro t ht hte
    rw [reception_rxData, if_neg (by simp [getCanID, ht]), hte, if_neg (by simp),
      if_pos hcmd]
  have hstep : machine.step s (.rxData hw 0 dat size) =
      machine.step initial (.rxData hw 0 dat size) := by
    rw [step_of_table (hrec s hcanid hext), step_of_table (hrec initial rfl rfl), hcanid]
    rfl
  simp only [Machine.exec, hstep]

/-- The ids of the last offer do not matter. -/
theorem table_restart_after_offer :
    machine.exec ⟨0, false, 0, [17, 45]⟩ [rxFrame 0 [2, 2, 0, 1]] =
      machine.exec initial [rxFrame 0 [2, 2, 0, 1]] :=
  table_restart _ rfl rfl _ _ _ rfl []

/-- The members of the object that a table reception is about. -/
def tableFields (r : CanSlave × List (List Effect)) : List UInt8 × Bool × UInt8 :=
  (r.1.idtable, r.1.extratable, r.1.tablecapacity)

/-- The second frame of a table of seven ids is lost, and the master starts again with a
table of two: the stale reception takes the announcement as ids and stays open, where a
new slave has received the table. -/
theorem not_table_restart_of_reachable :
    ¬ ∀ s, machine.Reachable initial s → s.canid = 0 →
      ∀ table pieces calls, Cuts (table.drop 6) pieces → Delivers 0 table pieces calls →
        (machine.exec s calls).map tableFields =
          (machine.exec initial calls).map tableFields := by
  intro h
  have hstale : machine.Reachable initial ⟨0, true, 1, [0, 1, 2, 3, 4, 5]⟩ :=
    ⟨[rxFrame 0 [2, 7, 0, 1, 2, 3, 4, 5]], [[]], rfl⟩
  have hsame := h _ hstale rfl [0, 1] [] [rxFrame 0 [2, 2, 0, 1]] (cuts_nil.mpr rfl)
    (.cons ⟨rfl, rfl, rfl⟩ .nil)
  exact absurd hsame (by decide)

end Resmod.Analysis
