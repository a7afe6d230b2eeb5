import Resmod.Analysis.TableReception

/-!
# The remaining-count of a table reception

While a table is open, `tablecapacity_` is meant to be the number of ids still to come.
It is an 8-bit count that `ReceiveExtraSlaveTable` lowers once for every byte of a frame,
whatever the count is, and the reception ends when it is zero at the end of a frame.

`counter_exact_iff` says for every run when the count is exact: precisely as long as no
continuation frame brings more ids than are missing.  A frame that does takes the count
past zero, so that the reception stays open after the last id.
-/

set_option autoImplicit false

namespace Resmod.Analysis

open Resmod.Library Resmod.Model Resmod.Model.CanSlave

/-- The count announced by the last table the slave was announced. -/
def announced (n : ℕ) (s : CanSlave) (c : Call) (_ : CanSlave) (_ : List Effect) : ℕ :=
  match reception s c with
  | .table _ count _ => count.toNat
  | _ => n

/-- The slave together with the count that the last table announced. -/
def countedSlave : Machine (CanSlave × ℕ) Call Effect := machine.observe announced

/-- What an exact counter means for one step: an open table has as many ids and as much
capacity as was announced, and some capacity; an announcement and a continuation lower
the count by exactly the ids they bring; and the frame that brings the last announced id
closes the table. -/
structure CounterExact (p : CanSlave × ℕ) (c : Call) (p' : CanSlave × ℕ)
    (_ : List Effect) : Prop where
  sum : p'.1.extratable = true → p'.1.idtable.length + p'.1.tablecapacity.toNat = p'.2
  pos : p'.1.extratable = true → 0 < p'.1.tablecapacity
  table : ∀ hw count ids, reception p.1 c = .table hw count ids →
    p'.1.tablecapacity.toNat + min count.toNat 6 = count.toNat ∧
      (count.toNat ≤ 6 → p'.1.extratable = false)
  continuation : ∀ dat size, reception p.1 c = .continuation dat size →
    p'.1.tablecapacity.toNat + size.toNat = p.1.tablecapacity.toNat ∧
      (p.2 ≤ p.1.idtable.length + size.toNat → p'.1.extratable = false)

/-- The call brings no more ids than the open table has capacity for. -/
def NoOverrun (s : CanSlave) (c : Call) : Prop :=
  ∀ dat size, reception s c = .continuation dat size →
    size.toNat ≤ s.tablecapacity.toNat

/-- The counter of an open table is exact before the step. -/
def CounterInv (p : CanSlave × ℕ) : Prop :=
  p.1.extratable = true →
    p.1.idtable.length + p.1.tablecapacity.toNat = p.2 ∧ 0 < p.1.tablecapacity

/-- An announcement leaves the number of the ids that its frame did not bring.
SOURCE: canslave.cc:107-123 -/
theorem counter_table {s s' : CanSlave} {c : Call} {hw : CanSlaveHardware} {count : UInt8}
    {ids : Bytes} {o : List Effect} (hrec : reception s c = .table hw count ids)
    (hs : machine.step s c = some (s', o)) :
    CounterInv (s', count.toNat) ∧
      s'.tablecapacity.toNat + min count.toNat 6 = count.toNat ∧
      (count.toNat ≤ 6 → s'.extratable = false) := by
  rw [step_of_table hrec] at hs
  split_ifs at hs with h6 h2
  · cases hs
    rw [UInt8.le_iff_toNat_le] at h6
    have hmin : min count.toNat 6 = count.toNat := Nat.min_eq_left h6
    refine ⟨?_, ?_, fun _ => rfl⟩
    · intro hopen
      exact Bool.noConfusion hopen
    · rw [hmin]
      exact Nat.zero_add _
  · cases hs
    have hgt : 6 < count.toNat := by
      rw [UInt8.le_iff_toNat_le] at h6
      exact Nat.not_le.mp h6
    have hsub : (count - 6).toNat = count.toNat - 6 :=
      UInt8.toNat_sub_of_le _ _ (UInt8.le_of_lt (UInt8.not_le.mp h6))
    refine ⟨fun _ => ⟨?_, ?_⟩, ?_, fun hfits => absurd hfits (Nat.not_le.mpr hgt)⟩
    · simp only [Bytes.length_read, hsub]
      omega
    · rw [UInt8.lt_iff_toNat_lt, hsub]
      simp only [UInt8.toNat_zero]
      omega
    · simp only [hsub]
      omega

/-- A continuation that brings no more ids than are missing lowers the counter by them.
SOURCE: canslave.cc:124-137 -/
theorem counter_continuation {s s' : CanSlave} {n : ℕ} {c : Call} {dat : Bytes}
    {size : UInt32} {o : List Effect} (hI : CounterInv (s, n))
    (hrec : reception s c = .continuation dat size) (hs : machine.step s c = some (s', o))
    (hle : size.toNat ≤ s.tablecapacity.toNat) :
    CounterInv (s', n) ∧ s'.tablecapacity.toNat + size.toNat = s.tablecapacity.toNat ∧
      (n ≤ s.idtable.length + size.toNat → s'.extratable = false) := by
  obtain ⟨-, -, -, hcap, hend⟩ := continuation_cases hrec hs
  obtain ⟨hw, rfl, hext⟩ := reception_eq_continuation hrec
  obtain ⟨hsum, -⟩ := hI hext
  have hsub := toNat_sub_ofNat s.tablecapacity size.toNat hle
  rw [← hcap] at hsub
  simp only at hsum
  rcases hend with ⟨hpos, -, hids⟩ | ⟨-, hclosed⟩
  · refine ⟨fun _ => ⟨?_, hpos⟩, by omega, ?_⟩
    · simp only [hids, List.length_append, Bytes.length_read]
      omega
    · intro hall
      rw [UInt8.lt_iff_toNat_lt, hsub] at hpos
      simp only [UInt8.toNat_zero] at hpos
      omega
  · refine ⟨?_, by omega, fun _ => hclosed⟩
    intro hopen
    exact Bool.noConfusion (hclosed.symm.trans hopen)

/-- **The step lemma.**  From an exact counter, a step is exact if and only if it does
not overrun the table, and the counter is exact after it. -/
theorem counter_step {p p' : CanSlave × ℕ} {c : Call} {o : List Effect}
    (hI : CounterInv p) (hstep : countedSlave.step p c = some (p', o)) :
    (CounterExact p c p' o ↔ NoOverrun p.1 c) ∧ (NoOverrun p.1 c → CounterInv p') := by
  obtain ⟨s, n⟩ := p
  obtain ⟨s', n'⟩ := p'
  obtain ⟨hs, hn⟩ := Machine.observe_step_eq_some.mp hstep
  simp only [announced] at hs hn
  -- an exact step is assembled from the invariant after it and from its own clause
  suffices h : NoOverrun s c →
      CounterInv (s', n') ∧
      (∀ hw count ids, reception s c = .table hw count ids →
        s'.tablecapacity.toNat + min count.toNat 6 = count.toNat ∧
          (count.toNat ≤ 6 → s'.extratable = false)) ∧
      (∀ dat size, reception s c = .continuation dat size →
        s'.tablecapacity.toNat + size.toNat = s.tablecapacity.toNat ∧
          (n ≤ s.idtable.length + size.toNat → s'.extratable = false)) by
    refine ⟨⟨fun hexact dat size hrec => ?_, fun hno => ?_⟩, fun hno => (h hno).1⟩
    · have hwrap := (hexact.continuation dat size hrec).1
      change s'.tablecapacity.toNat + size.toNat = s.tablecapacity.toNat at hwrap
      change size.toNat ≤ s.tablecapacity.toNat
      omega
    · obtain ⟨hinv, htable, hcont⟩ := h hno
      exact ⟨fun he => (hinv he).1, fun he => (hinv he).2, htable, hcont⟩
  intro hno
  cases hrec : reception s c with
  | other =>
    obtain ⟨o', hs', -, -⟩ := step_of_other hrec
    rw [hs'] at hs
    cases hs
    simp only [hrec] at hn
    subst hn
    exact ⟨hI, by simp, by simp⟩
  | confirm hw ack =>
    simp only [hrec] at hn
    subst hn
    rw [step_of_confirm hrec] at hs
    split_ifs at hs <;> cases hs <;>
      exact ⟨hI, by simp, by simp⟩
  | table hw count ids =>
    simp only [hrec] at hn
    subst hn
    obtain ⟨hinv, hclause⟩ := counter_table hrec hs
    refine ⟨hinv, ?_, by simp⟩
    intro hw' count' ids' h
    cases h
    exact hclause
  | continuation dat size =>
    simp only [hrec] at hn
    subst hn
    obtain ⟨hinv, hclause⟩ := counter_continuation hI hrec hs (hno dat size hrec)
    refine ⟨hinv, by simp, ?_⟩
    intro dat' size' h
    cases h
    exact hclause

/-- **When the counter is exact.**  In every run from power-up, every step is exact if and
only if no continuation frame brings more ids than are missing.
SOURCE: canslave.cc:61-90, 107-137 -/
theorem counter_exact_iff (calls : List Call) :
    countedSlave.Always CounterExact (initial, 0) calls ↔
      countedSlave.Always (fun p c _ _ => NoOverrun p.1 c) (initial, 0) calls :=
  Machine.always_congr CounterInv (fun _ _ _ _ hI hstep => counter_step hI hstep)
    (fun h => by simp [initial] at h) calls

/-- A table of seven ids whose second frame carries eight bytes: the count wraps to 249
and the reception is still open after fourteen ids. -/
theorem counter_not_exact_of_overrun :
    ¬ countedSlave.Always CounterExact (initial, 0)
        [rxFrame 0 [2, 7, 0, 1, 2, 3, 4, 5], rxFrame 0 [6, 7, 8, 9, 10, 11, 12, 13]] ∧
      (countedSlave.exec (initial, 0)
        [rxFrame 0 [2, 7, 0, 1, 2, 3, 4, 5], rxFrame 0 [6, 7, 8, 9, 10, 11, 12, 13]]).map
          Prod.fst =
        some (⟨0, true, 249, [0, 1, 2, 3, 4, 5, 6, 7, 8, 9, 10, 11, 12, 13]⟩, 7) := by
  refine ⟨fun h => ?_, rfl⟩
  have hsum := h.2.1.sum rfl
  exact absurd hsum (by decide)

end Resmod.Analysis
