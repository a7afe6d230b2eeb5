import Resmod.Model.OutputCompare
import Mathlib.Data.Nat.Init
import Mathlib.Logic.Function.Iterate

/-!
# Where the compare matches of a channel happen

`Start` loads the first value by hand and sets the stream to the first value as well.  The
first match is at the first value, and so is the second: match `k + 1` is at the value that
the `k`-th request brings.  The matches are one value behind the list, and `follows_list_iff`
says that this goes unnoticed only when all values of the list are the same.
-/

set_option autoImplicit false

namespace Resmod.Analysis

open Resmod.Library Resmod.Model Resmod.Model.OutputCompare

/-- The value that match `k` happens at, when nothing but matches happens. -/
def matchValue (s : State) (k : ℕ) : UInt32 := (compareMatch^[k] s).CCR

/-- The list has been given to the object. -/
structure Configured (arrcomp : ℕ → UInt32) (elem : UInt32) (s : State) : Prop where
  list : ∃ m, s.oclistparams = some m ∧ ∀ i < elem.toNat, m i = arrcomp i
  elements : s.elements = elem

variable {arrcomp heap : ℕ → UInt32} {elem : UInt32}

/-- What is set up is configured. -/
theorem configured_configureCompare (s : State) :
    Configured arrcomp elem (configureCompare heap arrcomp elem s) :=
  ⟨⟨_, rfl, fun _ hi => if_pos hi⟩, rfl⟩

/-- The list and its length stay what they are in every step. -/
theorem list_step {s s' : State} {a : Call} {o : List UInt32}
    (hstep : machine.step s a = some (s', o)) :
    s'.oclistparams = s.oclistparams ∧ s'.elements = s.elements := by
  cases a with
  | start =>
    obtain ⟨rfl, -⟩ := Prod.mk.inj (Option.some.inj hstep)
    unfold start
    dsimp only
    split
    · exact ⟨rfl, rfl⟩
    · exact ⟨rfl, rfl⟩
  | stop =>
    obtain ⟨rfl, -⟩ := Prod.mk.inj (Option.some.inj hstep)
    unfold stop
    dsimp only
    split
    · exact ⟨rfl, rfl⟩
    · exact ⟨rfl, rfl⟩
  | enableDMATrigger =>
    obtain ⟨rfl, -⟩ := Prod.mk.inj (Option.some.inj hstep)
    exact ⟨rfl, rfl⟩
  | disableDMATrigger =>
    obtain ⟨rfl, -⟩ := Prod.mk.inj (Option.some.inj hstep)
    exact ⟨rfl, rfl⟩
  | compareMatch =>
    obtain ⟨rfl, -⟩ := Prod.mk.inj (Option.some.inj hstep)
    unfold compareMatch
    split
    · exact ⟨rfl, rfl⟩
    · exact ⟨rfl, rfl⟩

/-- Whatever is done with a configured channel, it stays configured. -/
theorem Configured.exec {s s' : State} {calls : List Call} {os : List (List UInt32)}
    (h : Configured arrcomp elem s) (hrun : machine.exec s calls = some (s', os)) :
    Configured arrcomp elem s' := by
  apply Machine.invariant_of_exec (Configured arrcomp elem) _ h hrun
  intro t a t' o ht hstep
  obtain ⟨hlist, helements⟩ := list_step hstep
  constructor
  · rw [hlist]
    exact ht.list
  · rw [helements]
    exact ht.elements

/-! ## From `Start` on -/

/-- `k` requests have been answered since the stream was enabled. -/
structure Fed (arrcomp : ℕ → UInt32) (elem : UInt32) (k : ℕ) (s : State) : Prop where
  trigger : s.dmaTrigger = true
  enabled : s.stream.enabled = true
  memory : ∀ i < elem.toNat, s.stream.M0AR i = arrcomp i
  count : s.stream.NDTR = elem
  position : s.stream.position = k % elem.toNat

/-- The first value is loaded by hand, and the stream begins with it too. -/
theorem fed_start {s : State} (h : Configured arrcomp elem s) (hn : 0 < elem.toNat)
    (hstopped : s.stream.enabled = false) (htrigger : s.dmaTrigger = true) :
    Fed arrcomp elem 0 (start s) ∧ (start s).CCR = arrcomp 0 := by
  obtain ⟨⟨m, hm, hlist⟩, rfl⟩ := h
  have hstart : start s =
      { s with
        CCR := m 0
        stream := { enabled := true, M0AR := m, NDTR := s.elements, position := 0 }
        ccxEnabled := true } := by
    unfold start
    rw [hm]
    simp [DMA_Stream.writeM0AR, DMA_Stream.writeNDTR, DMA_Stream.enable, hstopped]
  rw [hstart]
  exact ⟨⟨htrigger, rfl, hlist, rfl, (Nat.zero_mod _).symm⟩, hlist 0 hn⟩

/-- A match is followed by the value of the list that is due. -/
theorem Fed.compareMatch {s : State} {k : ℕ} (h : Fed arrcomp elem k s)
    (hn : 0 < elem.toNat) :
    Fed arrcomp elem (k + 1) (compareMatch s) ∧
      (OutputCompare.compareMatch s).CCR = arrcomp (k % elem.toNat) := by
  have hlt : k % elem.toNat < elem.toNat := Nat.mod_lt k hn
  have hstep : OutputCompare.compareMatch s =
      { s with CCR := s.stream.transfer.1, stream := s.stream.transfer.2 } := by
    unfold OutputCompare.compareMatch
    rw [h.trigger, h.enabled, Bool.and_self, if_pos rfl]
  have hvalue : s.stream.transfer.1 = arrcomp (k % elem.toNat) := by
    show s.stream.M0AR s.stream.position = _
    rw [h.position]
    exact h.memory _ hlt
  rw [hstep]
  refine ⟨⟨h.trigger, h.enabled, h.memory, h.count, ?_⟩, hvalue⟩
  show (if s.stream.position + 1 = s.stream.NDTR.toNat then 0 else s.stream.position + 1) = _
  rw [h.position, h.count, ← Nat.mod_add_mod k]
  by_cases hlast : k % elem.toNat + 1 = elem.toNat
  · rw [if_pos hlast, hlast, Nat.mod_self]
  · have hnext : k % elem.toNat + 1 < elem.toNat := by omega
    rw [if_neg hlast, Nat.mod_eq_of_lt hnext]

/-- The register has been fed from the list, after any number of matches. -/
theorem fed_iterate {s : State} (h : Fed arrcomp elem 0 s) (hn : 0 < elem.toNat) (k : ℕ) :
    Fed arrcomp elem k (OutputCompare.compareMatch^[k] s) := by
  induction k with
  | zero => exact h
  | succ k ih =>
    rw [Function.iterate_succ_apply']
    exact (ih.compareMatch hn).1

/-- **The matches are one value behind the list.** -/
theorem matchValue_start {s : State} (h : Configured arrcomp elem s) (hn : 0 < elem.toNat)
    (hstopped : s.stream.enabled = false) (htrigger : s.dmaTrigger = true) :
    matchValue (start s) 0 = arrcomp 0 ∧
      ∀ k, matchValue (start s) (k + 1) = arrcomp (k % elem.toNat) := by
  obtain ⟨hfed, hfirst⟩ := fed_start h hn hstopped htrigger
  refine ⟨hfirst, ?_⟩
  intro k
  unfold matchValue
  rw [Function.iterate_succ_apply']
  exact ((fed_iterate hfed hn k).compareMatch hn).2

/-- Match `k` after `Start` is at value `k` of the list, which begins again at its end. -/
def FollowsList (arrcomp : ℕ → UInt32) (elem : UInt32) (s : State) : Prop :=
  ∀ k, matchValue (start s) k = arrcomp (k % elem.toNat)

/-- **Successive matches follow the list exactly if all of its values are the same.**  The
channel has been configured with the list and has been used in any way since; it is stopped
when it is started.
SOURCE: resmod/lowlevelutil/stm32f4timeroc.cc:92-183 -/
theorem follows_list_iff (heap arrcomp : ℕ → UInt32) {elem : UInt32} (hn : 1 ≤ elem.toNat)
    {oc s : State} {calls : List Call} {os : List (List UInt32)}
    (hrun : machine.exec (configureCompare heap arrcomp elem oc) calls = some (s, os))
    (hstopped : s.stream.enabled = false) (htrigger : s.dmaTrigger = true) :
    FollowsList arrcomp elem s ↔ ∀ i < elem.toNat, arrcomp i = arrcomp 0 := by
  have hconfigured : Configured arrcomp elem s := (configured_configureCompare oc).exec hrun
  obtain ⟨hfirst, hnext⟩ := matchValue_start hconfigured hn hstopped htrigger
  constructor
  · intro hfollows i
    induction i with
    | zero => exact fun _ => rfl
    | succ i ih =>
      intro hi
      have hvalue := hfollows (i + 1)
      rw [hnext, Nat.mod_eq_of_lt hi, Nat.mod_eq_of_lt (by omega)] at hvalue
      exact hvalue.symm.trans (ih (by omega))
  · intro hsame k
    have hdue := hsame (k % elem.toNat) (Nat.mod_lt k hn)
    cases k with
    | zero => rw [hfirst, hdue]
    | succ k => rw [hnext, hdue, hsame (k % elem.toNat) (Nat.mod_lt k hn)]

/-- A channel that nothing has been done with. -/
def unused : State := ⟨none, 0, ⟨false, fun _ => 0, 0, 0⟩, 0, false, false⟩

/-- A list of two equal values is followed, also when the channel is started again in the middle
of it. -/
theorem follows_list_equal :
    FollowsList ([7, 7].getD · 0) 2
      (stop (compareMatch (start (configureCompare (fun _ => 0) ([7, 7].getD · 0) 2 unused)))) := by
  have hrun : machine.exec (configureCompare (fun _ => 0) ([7, 7].getD · 0) 2 unused)
      [.start, .compareMatch, .stop] = some (stop (compareMatch (start (configureCompare
        (fun _ => 0) ([7, 7].getD · 0) 2 unused))), [[], [7], []]) := rfl
  exact (follows_list_iff (fun _ => 0) ([7, 7].getD · 0) (by decide) hrun rfl rfl).mpr
    (by decide)

/-- The conversion signal's list 0, 5: the second match is at 0 again. -/
theorem not_follows_list_conversion :
    ¬ FollowsList ([0, 5].getD · 0) 2
      (configureCompare (fun _ => 0) ([0, 5].getD · 0) 2 unused) := by
  intro h
  exact absurd (h 1) (by decide)

end Resmod.Analysis
