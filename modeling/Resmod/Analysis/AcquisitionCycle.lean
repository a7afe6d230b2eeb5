import Resmod.Model.Acquisition

/-!
# Whose samples the callback gets

`acquisition` is the cycle of trigger and completion with the words that arrived since the
last `Trigger`.  The callback should get the first of these, as many as there are samples.

Words also arrive between the last transfer and the handler that stops the SPI, and one of
them stays in the receive register until the next `Trigger`.  `Trigger` discards it, but
only after it has enabled the stream: `own_samples_of_inTime` is about the runs in which
the stream does not move a word between these two statements.
-/

set_option autoImplicit false

namespace Resmod.Analysis

open Resmod.Library Resmod.Model Resmod.Model.LTC2336SPIDMATrigger

variable {α : Type*} {n : ℕ}

/-! ## What the stream has moved -/

/-- The words that were moved to the buffer since the count was set. -/
def moved (u : LTC2336SPIDMATrigger α n) : List α := u.buff.toList.take (n - u.ndtr)

/-- A slot that is written next extends what was written before it. -/
theorem take_succ_set {l : List α} {k : ℕ} (h : k < l.length) (w : α) :
    (l.set k w).take (k + 1) = l.take k ++ [w] := by
  rw [List.take_succ_eq_append_getElem (by simpa using h), List.getElem_set_self,
    List.take_set_of_le (Nat.le_refl k)]

/-- **One service**: the stream is enabled and has words to move, the word in the register
joins those it has moved, and the last one disables it.
SOURCE: ltc2336spidamtrigger.cc:54-70 -/
theorem service_eq_some {u u' : LTC2336SPIDMATrigger α n} (h : u.service = some u') :
    ∃ w, u.dr = some w ∧ u.en = true ∧ 0 < u.ndtr ∧ u'.dr = none ∧ u'.spe = u.spe ∧
      u'.ndtr = u.ndtr - 1 ∧ u'.en = decide (1 < u.ndtr) ∧
      u'.tcif = (u.tcif || decide (u.ndtr = 1)) ∧
      (u.ndtr ≤ n → moved u' = moved u ++ [w]) := by
  unfold service at h
  cases hdr : u.dr with
  | none => simp [hdr] at h
  | some w =>
    simp only [hdr] at h
    split_ifs at h with hen
    obtain ⟨hen, hpos⟩ := hen
    cases h
    refine ⟨w, rfl, hen, hpos, rfl, rfl, rfl, rfl, rfl, fun hle => ?_⟩
    have hslot : n - u.ndtr < u.buff.toList.length := by
      rw [Vector.length_toList]
      omega
    have hnext : n - (u.ndtr - 1) = n - u.ndtr + 1 := by omega
    simp only [moved, Vector.toList_setIfInBounds, hnext]
    exact take_succ_set hslot w

/-- **One reception**: the SPI is enabled, and the word is kept if the register is empty. -/
theorem receive_eq_some {u u' : LTC2336SPIDMATrigger α n} {w : α}
    (h : u.receive w = some u') :
    u.spe = true ∧ u' = { u with dr := u.dr.or (some w) } := by
  unfold receive at h
  split_ifs at h with hspe
  exact ⟨hspe, (Option.some.inj h).symm⟩

/-! ## The words of a cycle -/

/-- The words that arrived since `Trigger` was called. -/
def arrivals (arrived : List α) (s : Cycle α n) (e : Event α) (_ : Cycle α n)
    (_ : List (List α)) : List α :=
  match e with
  | .receive w => arrived ++ [w]
  | .service => arrived
  | .step => if s.pc = .trigger .enableStream then [] else arrived

/-- The acquisition together with the words of its cycle. -/
def acquisition (α : Type*) (n : ℕ) (triggercallback : Bool) :
    Machine (Cycle α n × List α) (Event α) (List α) :=
  (cycles α n triggercallback).observe arrivals

/-- The object as it has been constructed, before the first trigger. -/
def beforeTrigger (n : ℕ) (zero : α) : Cycle α n × List α :=
  (⟨construct zero, .trigger .enableStream⟩, [])

/-- The callback gets the first words that arrived since `Trigger`, all of its samples. -/
def OwnSamples (p : Cycle α n × List α) (_ : Event α) (_ : Cycle α n × List α)
    (o : List (List α)) : Prop :=
  ∀ samples ∈ o, samples = p.2.take n ∧ samples.length = n

/-- The stream does not move a word that `Trigger` is about to discard, and while it has
more than one word to move no word arrives before the last one was moved. -/
def InTime (p : Cycle α n × List α) : Event α → Prop
  | .receive _ => p.1.unit.en = true → p.1.unit.dr ≠ none → p.1.unit.ndtr ≤ 1
  | .service => p.1.pc ≠ .trigger .receiveData
  | .step => True

/-! ## The invariant -/

/-- The stream is moving the words that arrived, in order.  Behind those it has moved
there is the one in the register, and no other unless it is the last. -/
structure Moving (u : LTC2336SPIDMATrigger α n) (arrived : List α) : Prop where
  en : u.en = true
  tcif : u.tcif = false
  pos : 0 < u.ndtr
  le : u.ndtr ≤ n
  moved : moved u = arrived.take (n - u.ndtr)
  empty : u.dr = none → arrived.length = n - u.ndtr
  full : ∀ w, u.dr = some w → arrived[n - u.ndtr]? = some w ∧
    (1 < u.ndtr → arrived.length = n - u.ndtr + 1)

/-- The stream is disabled, and the buffer holds the first words that arrived. -/
structure Moved (u : LTC2336SPIDMATrigger α n) (arrived : List α) : Prop where
  en : u.en = false
  le : n ≤ arrived.length
  buff : u.buff.toList = arrived.take n

/-- What holds before each statement of the processor. -/
def CycleInv (p : Cycle α n × List α) : Prop :=
  match p.1.pc with
  | .trigger .enableStream =>
    p.1.unit.spe = false ∧ p.1.unit.ndtr = n ∧ p.1.unit.tcif = false ∧
      (p.1.unit.en = true → p.1.unit.dr = none)
  | .trigger .receiveData =>
    p.1.unit.spe = false ∧ p.1.unit.ndtr = n ∧ p.1.unit.tcif = false ∧
      p.1.unit.en = true ∧ p.2 = []
  | .trigger .enableSpi => p.1.unit.spe = false ∧ p.1.unit.dr = none ∧ Moving p.1.unit p.2
  | .wait => Moving p.1.unit p.2 ∨ Moved p.1.unit p.2
  | .complete .clearITPendingBit => Moved p.1.unit p.2
  | .complete .disableSpi => p.1.unit.tcif = false ∧ Moved p.1.unit p.2
  | .complete .resetDma =>
    p.1.unit.spe = false ∧ p.1.unit.tcif = false ∧ Moved p.1.unit p.2
  | .complete .callback =>
    p.1.unit.spe = false ∧ p.1.unit.tcif = false ∧ p.1.unit.ndtr = n ∧ Moved p.1.unit p.2

/-- A word that arrives in time is the next one to be moved. -/
theorem Moving.receive {u : LTC2336SPIDMATrigger α n} {arrived : List α} {w : α}
    (h : Moving u arrived) (htime : u.dr ≠ none → u.ndtr ≤ 1) :
    Moving { u with dr := u.dr.or (some w) } (arrived ++ [w]) := by
  cases hdr : u.dr with
  | none =>
    have hlen := h.empty hdr
    refine ⟨h.en, h.tcif, h.pos, h.le, ?_, by simp, ?_⟩
    · have htake : (arrived ++ [w]).take (n - u.ndtr) = arrived.take (n - u.ndtr) :=
        List.take_append_of_le_length (by omega)
      exact h.moved.trans htake.symm
    · intro w' hw'
      obtain rfl := Option.some.inj (hw' : some w = some w')
      simp [← hlen]
  | some v =>
    have hone := htime (by simp [hdr])
    obtain ⟨hv, -⟩ := h.full v hdr
    obtain ⟨hlt, -⟩ := List.getElem?_eq_some_iff.mp hv
    refine ⟨h.en, h.tcif, h.pos, h.le, ?_, by simp, ?_⟩
    · have htake : (arrived ++ [w]).take (n - u.ndtr) = arrived.take (n - u.ndtr) :=
        List.take_append_of_le_length (by omega)
      exact h.moved.trans htake.symm
    · intro w' hw'
      obtain rfl := Option.some.inj (hw' : some v = some w')
      refine ⟨?_, fun hgt => absurd hone (Nat.not_le.mpr hgt)⟩
      rw [← hv]
      exact List.getElem?_append_left hlt

/-- A word that arrives late changes nothing. -/
theorem Moved.receive {u : LTC2336SPIDMATrigger α n} {arrived : List α} {w : α}
    (h : Moved u arrived) :
    Moved { u with dr := u.dr.or (some w) } (arrived ++ [w]) := by
  have hle := h.le
  refine ⟨h.en, by simp only [List.length_append]; omega, ?_⟩
  exact h.buff.trans (List.take_append_of_le_length h.le).symm

/-- The stream moves the next word, or the last one. -/
theorem Moving.service {u u' : LTC2336SPIDMATrigger α n} {arrived : List α}
    (h : Moving u arrived) (hs : u.service = some u') :
    Moving u' arrived ∨ Moved u' arrived := by
  obtain ⟨w, hdr, -, hpos, hdr', -, hndtr, hen, htcif, hmoved⟩ := service_eq_some hs
  have hle := h.le
  obtain ⟨hw, hnext⟩ := h.full w hdr
  obtain ⟨hlt, hget⟩ := List.getElem?_eq_some_iff.mp hw
  have hall : Analysis.moved u' = arrived.take (n - u.ndtr + 1) := by
    rw [hmoved hle, h.moved, List.take_succ_eq_append_getElem hlt, hget]
  by_cases hone : u.ndtr = 1
  · right
    have hcount : n - u.ndtr + 1 = n := by omega
    have hzero : n - u'.ndtr = n := by omega
    refine ⟨by simp [hen, hone], by omega, ?_⟩
    rw [hcount, Analysis.moved, hzero] at hall
    rwa [List.take_of_length_le (by simp)] at hall
  · left
    have hcount : n - u'.ndtr = n - u.ndtr + 1 := by omega
    refine ⟨by simp [hen]; omega, by simp [htcif, h.tcif, hone], by omega, by omega, ?_, ?_, ?_⟩
    · rw [hcount, hall]
    · intro _
      rw [hcount]
      exact hnext (by omega)
    · intro v hv
      simp [hdr'] at hv

/-! ## Steps and runs -/

/-- A word is received while the stream is on. -/
theorem cycleInv_receive {p : Cycle α n × List α} {w : α} {u' : LTC2336SPIDMATrigger α n}
    (hI : CycleInv p) (htime : InTime p (.receive w)) (h : p.1.unit.receive w = some u') :
    CycleInv ({ p.1 with unit := u' }, p.2 ++ [w]) := by
  obtain ⟨⟨u, pc⟩, arrived⟩ := p
  obtain ⟨hspe, rfl⟩ := receive_eq_some h
  simp only at hspe htime
  cases pc with
  | trigger t =>
    -- the SPI is still disabled
    cases t <;> simp [CycleInv, hspe] at hI
  | wait =>
    rcases hI with hI | hI
    · exact .inl (hI.receive (htime hI.en))
    · exact .inr hI.receive
  | complete c =>
    cases c with
    | clearITPendingBit => exact Moved.receive hI
    | disableSpi => exact ⟨hI.1, hI.2.receive⟩
    | resetDma => simp [CycleInv, hspe] at hI
    | callback => simp [CycleInv, hspe] at hI

/-- The handler of the stream is run for the half that is complete. -/
theorem cycleInv_service {p : Cycle α n × List α} {u' : LTC2336SPIDMATrigger α n}
    (hI : CycleInv p) (htime : InTime p .service) (h : p.1.unit.service = some u') :
    CycleInv ({ p.1 with unit := u' }, p.2) := by
  obtain ⟨⟨u, pc⟩, arrived⟩ := p
  obtain ⟨w, hdr, hen, -⟩ := service_eq_some h
  simp only at hdr hen
  -- outside of the transfer the stream is disabled or the register is empty
  have hmoved : ¬ Moved u arrived := fun hI => by simp [hI.en] at hen
  cases pc with
  | trigger t =>
    cases t with
    | enableStream => exact absurd (hdr.symm.trans (hI.2.2.2 hen)) (by simp)
    | receiveData => exact absurd rfl htime
    | enableSpi => exact absurd (hdr.symm.trans hI.2.1) (by simp)
  | wait => exact (hI.resolve_right hmoved).service h
  | complete c =>
    cases c with
    | clearITPendingBit => exact absurd hI hmoved
    | disableSpi => exact absurd hI.2 hmoved
    | resetDma => exact absurd hI.2.2 hmoved
    | callback => exact absurd hI.2.2.2 hmoved

/-- **The statements of the processor keep the invariant**, and the callback is given the
samples of the cycle.
SOURCE: ltc2336spidamtrigger.cc:77-96 -/
theorem cycleInv_step {triggercallback : Bool} {p : Cycle α n × List α} {s' : Cycle α n}
    {o : List (List α)} (hn : 0 < n) (hI : CycleInv p)
    (h : p.1.step triggercallback = some (s', o)) :
    CycleInv (s', if p.1.pc = .trigger .enableStream then [] else p.2) ∧
      ∀ samples ∈ o, samples = p.2.take n ∧ samples.length = n := by
  obtain ⟨⟨u, pc⟩, arrived⟩ := p
  cases pc with
  | trigger t =>
    cases h
    refine ⟨?_, by simp⟩
    cases t with
    | enableStream =>
      obtain ⟨hspe, hndtr, htcif, -⟩ := hI
      exact ⟨hspe, hndtr, htcif, rfl, rfl⟩
    | receiveData =>
      obtain ⟨hspe, hndtr, htcif, hen, harr⟩ := hI
      simp only at hndtr harr
      subst harr
      refine ⟨hspe, rfl, hen, htcif, ?_, ?_, ?_, ?_, by simp [TriggerStep.exec]⟩
      all_goals simp [TriggerStep.exec, moved, hndtr, hn]
    | enableSpi =>
      obtain ⟨-, -, hmoving⟩ := hI
      exact .inl ⟨hmoving.en, hmoving.tcif, hmoving.pos, hmoving.le, hmoving.moved,
        hmoving.empty, hmoving.full⟩
  | wait =>
    simp only [Cycle.step] at h
    split_ifs at h with htcif
    cases h
    have hnot : ¬ Moving u arrived := fun hI => by simp [hI.tcif] at htcif
    exact ⟨hI.resolve_left hnot, by simp⟩
  | complete c =>
    cases h
    cases c with
    | clearITPendingBit => exact ⟨⟨rfl, hI.en, hI.le, hI.buff⟩, by simp⟩
    | disableSpi =>
      obtain ⟨htcif, hmoved⟩ := hI
      exact ⟨⟨rfl, htcif, hmoved.en, hmoved.le, hmoved.buff⟩, by simp⟩
    | resetDma =>
      obtain ⟨hspe, htcif, hmoved⟩ := hI
      exact ⟨⟨hspe, htcif, rfl, hmoved.en, hmoved.le, hmoved.buff⟩, by simp⟩
    | callback =>
      obtain ⟨hspe, htcif, hndtr, hmoved⟩ := hI
      refine ⟨⟨hspe, hndtr, htcif, fun hen => ?_⟩, ?_⟩
      · exact absurd (hmoved.en.symm.trans hen) (by simp)
      · intro samples hs
        split_ifs at hs with hcb
        · obtain rfl := List.mem_singleton.mp hs
          exact ⟨hmoved.buff, by simp⟩
        · simp at hs

/-- **The callback gets its own samples.**  For every sample size from one on and in every
interleaving of receptions, services and statements in which the stream moves no word
between being enabled by `Trigger` and the read that discards the stale word, and no word
is lost while the stream waits for it, every call of `triggercallback_` gets the first words
that arrived since the `Trigger` of its cycle.
SOURCE: ltc2336spidamtrigger.cc:44-96 -/
theorem own_samples_of_inTime (n : ℕ) (hn : 0 < n) (triggercallback : Bool) (zero : α)
    (events : List (Event α))
    (htime : (acquisition α n triggercallback).Along InTime (beforeTrigger n zero) events) :
    (acquisition α n triggercallback).Always OwnSamples (beforeTrigger n zero) events := by
  refine Machine.always_of_invariant CycleInv InTime OwnSamples ?_
    (show CycleInv (beforeTrigger n zero) from ⟨rfl, rfl, rfl, fun _ => rfl⟩) htime
  rintro ⟨s, arrived⟩ e ⟨s', arrived'⟩ o hI htime hstep
  obtain ⟨hs, harr⟩ := Machine.observe_step_eq_some.mp hstep
  simp only at hs harr
  subst harr
  cases e with
  | receive w =>
    obtain ⟨u', hu, hs'⟩ := Option.map_eq_some_iff.mp hs
    cases hs'
    exact ⟨cycleInv_receive hI htime hu, by simp [OwnSamples]⟩
  | service =>
    obtain ⟨u', hu, hs'⟩ := Option.map_eq_some_iff.mp hs
    cases hs'
    exact ⟨cycleInv_service hI htime hu, by simp [OwnSamples]⟩
  | step => exact cycleInv_step hn hI hs

/-- One cycle of two samples, where a third word arrives before the SPI is disabled. -/
theorem own_samples_two :
    (acquisition ℕ 2 true).Always OwnSamples (beforeTrigger 2 0)
      [.step, .step, .step, .receive 10, .service, .receive 11, .service, .receive 12,
        .step, .step, .step, .step, .step] :=
  own_samples_of_inTime 2 (by decide) true 0 _ (by
    simp [Machine.Along, acquisition, Machine.observe, cycles, beforeTrigger, construct,
      InTime, Cycle.step, LTC2336SPIDMATrigger.receive, LTC2336SPIDMATrigger.service,
      TriggerStep.exec, TriggerStep.next, CompleteStep.exec, CompleteStep.next])

/-- Two cycles of one sample each.  A word arrives after the first transfer and before the
SPI is disabled; the second `Trigger` enables the stream, the stream moves that word, and
the callback gets it instead of the word of its cycle. -/
theorem not_own_samples_stale :
    ¬ (acquisition ℕ 1 true).Always OwnSamples (beforeTrigger 1 0)
      ([.step, .step, .step, .receive 10, .service, .receive 11, .step, .step, .step, .step,
        .step, .step, .service, .step, .step, .receive 12, .step, .step, .step, .step] ++
        .step :: []) := by
  intro h
  have hsamples := Machine.Always.step h rfl rfl
  exact absurd (hsamples [11] (by decide)).1 (by decide)

end Resmod.Analysis
