import Resmod.Analysis.AcquisitionCycle
import Resmod.Model.Handover
import Mathlib.Logic.Function.Basic

/-!
# The invariant of the handover

At any time one of five phases is on: the excitation interrupt is armed, it has enabled the
timer interrupt, `TIM5_IRQHandler` is triggering the channels, the acquisitions are under
way, or `CalcTask` has taken both.  In each of them every channel is in a stage that says
what its registers, its semaphore and its buffer are.

`Stage.Holds` is about the data of one channel, `Control` about who may run; the events
that concern one channel only are lemmas about `Stage.Holds`.
-/

set_option autoImplicit false

namespace Resmod.Analysis

open Resmod.Library Resmod.Model Resmod.Model.LTC2336SPIDMATrigger Resmod.Model.Handover

variable {α : Type*} {n : ℕ}

/-! ## The history -/

/-- What has happened so far. -/
structure Log (α : Type*) where
  /-- For each execution of `TIM5_IRQHandler` the words the streams have moved since, the
  last execution first. -/
  acquired : List (Channel → List α)
  performed : ℕ
  copied : ℕ

/-- The words of the last execution of `TIM5_IRQHandler`. -/
def Log.words (log : Log α) (ch : Channel) : List α :=
  match log.acquired with
  | [] => []
  | words :: _ => words ch

/-- A word of the acquisition under way is noted. -/
def Log.move (log : Log α) (ch : Channel) (w : α) : Log α :=
  match log.acquired with
  | [] => log
  | words :: earlier =>
    { log with acquired := Function.update words ch (words ch ++ [w]) :: earlier }

/-- What a step adds to the history. -/
def Log.next (log : Log α) (s : System α n) (e : Handover.Event α) (s' : System α n)
    (_ : List (Channel → List α)) : Log α :=
  match e with
  | .enterTim5 => { log with acquired := (fun _ => []) :: log.acquired }
  | .service ch => ((s.channel ch).unit.dr.map (log.move ch)).getD log
  | .taskStep =>
    if s.task = .performCalculation then { log with performed := log.performed + 1 }
    else if s'.task = .performCalculation then { log with copied := log.copied + 1 }
    else log
  | _ => log

/-- Every acquisition that was started has been copied and calculated with. -/
def Log.Balanced (log : Log α) : Prop :=
  log.acquired.length = log.performed ∧ log.copied = log.performed

/-- One acquisition was started that has not been copied. -/
def Log.Ahead (log : Log α) : Prop :=
  log.acquired.length = log.performed + 1 ∧ log.copied = log.performed

/-- A word moved in an acquisition belongs to its channel. -/
theorem Log.words_move {log : Log α} (h : log.Ahead) (ch : Channel) (w : α) :
    (log.move ch w).words = Function.update log.words ch (log.words ch ++ [w]) ∧
      (log.move ch w).Ahead := by
  obtain ⟨hlen, hcopied⟩ := h
  cases hacq : log.acquired with
  | nil => simp [hacq] at hlen
  | cons words earlier =>
    have hwords : log.words = words := by
      funext ch'
      simp [Log.words, hacq]
    refine ⟨?_, ?_⟩
    · funext ch'
      simp only [Log.move, hacq, hwords]
      rfl
    · simp only [Log.move, hacq]
      rw [hacq] at hlen
      exact ⟨hlen, hcopied⟩

/-! ## The stages of a channel -/

/-- Where the acquisition of a channel is: it waits to be triggered, its stream moves words,
the interrupt of its stream is pending, the handler of its stream is active, its semaphore is
given, or `CalcTask` has taken it. -/
inductive Stage
  | idle
  | moving
  | complete
  | handling (pc : AdcStep)
  | given
  | taken

/-- The interrupt of the channel is pending. -/
def Stage.pending : Stage → Bool
  | .complete => true
  | _ => false

/-- The semaphore of the channel has been given. -/
def Stage.sem : Stage → Bool
  | .given => true
  | _ => false

/-- The stream has stopped, and the buffer holds these words. -/
def Filled (u : LTC2336SPIDMATrigger α n) (words : List α) : Prop :=
  u.en = false ∧ u.buff.toList = words

/-- The stream is ready to be triggered. -/
def Rested (u : LTC2336SPIDMATrigger α n) : Prop := u.tcif = false ∧ u.ndtr = n

/-- What the statements before `pc` have done. -/
def HandledUpTo (ch : Channel) (c : ChannelState α n) : AdcStep → Prop
  | .complete .clearITPendingBit => True
  | .complete .disableSpi | .complete .resetDma => c.unit.tcif = false
  | .complete .callback => Rested c.unit
  | .give => Rested c.unit ∧ c.parr = some ch

/-- What holds of the acquisition and the pointer of a channel in a stage. -/
def Stage.Data (ch : Channel) (c : ChannelState α n) (words : List α) : Stage → Prop
  | .idle => (c.unit.en = true → c.unit.spe = false ∧ c.unit.dr = none) ∧ Rested c.unit
  | .moving => c.unit.en = true ∧ c.unit.tcif = false ∧ 0 < c.unit.ndtr ∧ c.unit.ndtr ≤ n ∧
      moved c.unit = words
  | .complete => Filled c.unit words
  | .handling pc => Filled c.unit words ∧ HandledUpTo ch c pc
  | .given | .taken => Filled c.unit words ∧ Rested c.unit ∧ c.parr = some ch

/-- A channel is in a stage, with the words of the acquisition. -/
structure Stage.Holds (ch : Channel) (c : ChannelState α n) (words : List α) (st : Stage) :
    Prop where
  pending : c.pending = st.pending
  sem : c.sem = st.sem
  data : st.Data ch c words

/-- **A reception** changes nothing that a stage is about. -/
theorem Stage.Holds.receive {ch : Channel} {c : ChannelState α n} {words : List α}
    {st : Stage} {w : α} {u' : LTC2336SPIDMATrigger α n} (h : st.Holds ch c words)
    (hu : c.unit.receive w = some u') : st.Holds ch { c with unit := u' } words := by
  obtain ⟨hspe, rfl⟩ := receive_eq_some hu
  refine ⟨h.pending, h.sem, ?_⟩
  have hdata := h.data
  cases st with
  | idle =>
    refine ⟨fun hen => ?_, hdata.2⟩
    exact absurd (hspe.symm.trans (hdata.1 hen).1) (by simp)
  | moving => exact hdata
  | complete => exact hdata
  | handling pc =>
    cases pc with
    | complete c => cases c <;> exact hdata
    | give => exact hdata
  | given => exact hdata
  | taken => exact hdata

/-- **A service** is possible only while the stream moves words; the word joins those of
the acquisition.
SOURCE: ltc2336spidamtrigger.cc:54-70 -/
theorem Stage.Holds.service {ch : Channel} {c c' : ChannelState α n} {words : List α}
    {st : Stage} (h : st.Holds ch c words) (hs : c.service = some c') :
    ∃ w, c.unit.dr = some w ∧ st = .moving ∧ c'.waveform = c.waveform ∧
      (Stage.moving.Holds ch c' (words ++ [w]) ∨ Stage.complete.Holds ch c' (words ++ [w])) := by
  obtain ⟨u', hu, rfl⟩ := Option.map_eq_some_iff.mp hs
  obtain ⟨w, hdr, hen, hpos, -, -, hndtr, hen', htcif', hmoved⟩ := service_eq_some hu
  have hfilled : ¬ Filled c.unit words := fun hf => by simp [hf.1] at hen
  have hdata := h.data
  cases st with
  | idle => exact absurd (hdr.symm.trans (hdata.1 hen).2) (by simp)
  | moving =>
    obtain ⟨-, htcif, -, hle, hwords⟩ := hdata
    have hpending := h.pending
    have hall : moved u' = words ++ [w] := by rw [hmoved hle, hwords]
    refine ⟨w, hdr, rfl, rfl, ?_⟩
    by_cases hone : c.unit.ndtr = 1
    · right
      have hzero : n - u'.ndtr = n := by omega
      refine ⟨by simp [htcif', hone, htcif, Stage.pending], h.sem, by simp [hen', hone], ?_⟩
      rw [moved, hzero, List.take_of_length_le (by simp)] at hall
      exact hall
    · left
      refine ⟨?_, h.sem, ?_, ?_, ?_, ?_, hall⟩
      · simpa [htcif', hone, htcif, Stage.pending] using hpending
      · simp only [hen', decide_eq_true_eq]
        omega
      · simp [htcif', htcif, hone]
      · show 0 < u'.ndtr
        omega
      · show u'.ndtr ≤ n
        omega
  | complete => exact absurd hdata hfilled
  | handling pc => exact absurd hdata.1 hfilled
  | given => exact absurd hdata.1 hfilled
  | taken => exact absurd hdata.1 hfilled

/-- **The triggering** of an idle channel starts an acquisition without words.
SOURCE: ltc2336spidamtrigger.cc:89-92 -/
theorem Stage.Holds.enableStream {ch : Channel} {c : ChannelState α n} (hn : 0 < n)
    (h : Stage.idle.Holds ch c []) :
    Stage.moving.Holds ch
      { c with unit := TriggerStep.exec c.unit .enableStream } ([] : List α) := by
  obtain ⟨-, htcif, hndtr⟩ := h.data
  refine ⟨h.pending, h.sem, rfl, htcif, ?_, ?_, ?_⟩
  · show 0 < c.unit.ndtr
    omega
  · show c.unit.ndtr ≤ n
    omega
  · simp [moved, TriggerStep.exec, hndtr]

/-- The other statements of `Trigger` do not concern the stream. -/
theorem Stage.Holds.triggerStep {ch : Channel} {c : ChannelState α n} {words : List α}
    {st : Stage} {t : TriggerStep} (h : st.Holds ch c words) (ht : t ≠ .enableStream)
    (hst : st = .moving ∨ st = .complete) :
    st.Holds ch { c with unit := t.exec c.unit } words := by
  refine ⟨h.pending, h.sem, ?_⟩
  have hdata := h.data
  rcases hst with rfl | rfl <;> cases t <;> first | exact absurd rfl ht | exact hdata

/-! ## The phases of the system -/

/-- What the system as a whole is doing: the interrupt of `DMA1_Stream2` is armed,
`ExcitationRoll` has enabled the update interrupt of `TIM5`, `TIM5_IRQHandler` is active, the
channels acquire and `CalcTask` takes what they give, or it has taken both. -/
inductive Phase
  | armed
  | rolled
  | tim5 (t : Tim5Step)
  | acquiring
  | calculating

/-- The excitation interrupt is enabled, and its handler has not come to the roll. -/
def ExcitationArmed (s : System α n) : Prop :=
  s.handler = none ∨ s.excitation.pending = false ∧
    (s.handler = some (.excitation .clearITPendingBit) ∨
      s.handler = some (.excitation .dmaroll))

/-- The handler of the excitation interrupt is about to disable it, or has. -/
def ExcitationRolled (s : System α n) : Prop :=
  s.excitation.pending = false ∧
    (s.handler = some (.excitation .disableIT) ∨
      (∀ pc, s.handler ≠ some (.excitation pc)) ∧ s.excitation.enable = false)

/-- The update interrupt of `TIM5` is neither enabled nor pending nor being handled. -/
def Tim5Off (s : System α n) : Prop :=
  s.tim5Handler = none ∧ s.tim5.enable = false ∧ s.tim5.pending = false

/-- The channel has been triggered by the statements of `TIM5_IRQHandler` before this. -/
def Triggered (ch : Channel) : Tim5Step → Prop
  | .clearITPendingBit | .disableIT => False
  | .trigger .voltage t => ch = .voltage ∧ t ≠ .enableStream
  | .trigger .current t => ch = .voltage ∨ t ≠ .enableStream

/-- The acquisition is under way, or waits to be taken. -/
def Stage.Underway : Stage → Prop
  | .idle | .taken => False
  | _ => True

/-- What `CalcTask` has copied of these words, by where it is. -/
def Copied (s : System α n) (log : Log α) : TaskStep → Prop
  | .take _ => False
  | .copy .voltage j => log.Ahead ∧ j ≤ n ∧
      (s.channel .voltage).waveform.toList.take j = (log.words .voltage).take j
  | .copy .current j => log.Ahead ∧ j ≤ n ∧
      (s.channel .voltage).waveform.toList = log.words .voltage ∧
      (s.channel .current).waveform.toList.take j = (log.words .current).take j
  | .performCalculation =>
      log.acquired.length = log.performed + 1 ∧ log.copied = log.performed + 1 ∧
      ∀ ch, (s.channel ch).waveform.toList = log.words ch
  | .delay | .clearITPendingBit | .enableIT => log.Balanced

/-- Who may run in a phase, and the stages that go with it. -/
def Control (s : System α n) (log : Log α) (stage : Channel → Stage) : Phase → Prop
  | .armed => ExcitationArmed s ∧ Tim5Off s ∧ s.task = .take .voltage ∧
      (∀ ch, stage ch = .idle) ∧ log.Balanced
  | .rolled => ExcitationRolled s ∧ s.tim5Handler = none ∧ s.task = .take .voltage ∧
      (∀ ch, stage ch = .idle) ∧ log.Balanced
  | .tim5 t => ExcitationRolled s ∧
      (s.tim5Handler = some t ∧ s.tim5.pending = false ∧
        ∀ ch t', t = .trigger ch t' → s.tim5.enable = false) ∧
      s.task = .take .voltage ∧
      (∀ ch, Triggered ch t ∧ (stage ch = .moving ∨ stage ch = .complete) ∨
        ¬ Triggered ch t ∧ stage ch = .idle ∧ log.words ch = []) ∧ log.Ahead
  | .acquiring => ExcitationRolled s ∧ Tim5Off s ∧
      (s.task = .take .voltage ∧ (stage .voltage).Underway ∨
        s.task = .take .current ∧ stage .voltage = .taken) ∧
      (stage .current).Underway ∧ log.Ahead
  | .calculating => (ExcitationRolled s ∧ s.handler = none) ∧ Tim5Off s ∧
      (∀ ch, stage ch = .taken) ∧ Copied s log s.task

/-- **The invariant.**  The active handler of a channel is that of its stage, every channel
is as its stage says, and the phase says who may run. -/
structure HandoverInv (phase : Phase) (stage : Channel → Stage) (s : System α n)
    (log : Log α) : Prop where
  handling : ∀ ch pc, s.handler = some (.adc ch pc) ↔ stage ch = .handling pc
  holds : ∀ ch, (stage ch).Holds ch (s.channel ch) (log.words ch)
  control : Control s log stage phase

/-! ## The steps -/

/-- What can happen in a state, with the conditions under which it can. -/
inductive Happens (s : System α n) :
    Handover.Event α → System α n → List (Channel → List α) → Prop
  | excitationComplete :
      Happens s .excitationComplete { s with excitation := s.excitation.fire } []
  | timerUpdate : Happens s .timerUpdate { s with tim5 := s.tim5.fire } []
  | receive {ch : Channel} {w : α} {u : LTC2336SPIDMATrigger α n}
      (hu : (s.channel ch).unit.receive w = some u) :
      Happens s (.receive ch w) (s.setChannel ch { s.channel ch with unit := u }) []
  | service {ch : Channel} {c : ChannelState α n} (hc : (s.channel ch).service = some c) :
      Happens s (.service ch) (s.setChannel ch c) []
  | enterExcitation (hpending : s.excitation.pending = true) (hnone : s.handler = none)
      (hnone5 : s.tim5Handler = none) :
      Happens s .enterExcitation { s with
        excitation := s.excitation.enter
        handler := some (.excitation .clearITPendingBit) } []
  | enterAdc {ch : Channel} (hpending : (s.channel ch).pending = true)
      (hnone : s.handler = none) (hnone5 : s.tim5Handler = none) :
      Happens s (.enterAdc ch) { s.setChannel ch { s.channel ch with pending := false } with
        handler := some (.adc ch (.complete .clearITPendingBit)) } []
  | enterTim5 (hpending : s.tim5.pending = true) (hnone5 : s.tim5Handler = none) :
      Happens s .enterTim5 { s with
        tim5 := s.tim5.enter
        tim5Handler := some .clearITPendingBit } []
  | excitationStep {pc : ExcitationStep} (hnone5 : s.tim5Handler = none)
      (hpc : s.handler = some (.excitation pc)) :
      Happens s .handlerStep (s.excitationStep pc) []
  | adcStep {ch : Channel} {pc : AdcStep} (hnone5 : s.tim5Handler = none)
      (hpc : s.handler = some (.adc ch pc)) : Happens s .handlerStep (s.adcStep ch pc) []
  | tim5Step {t : Tim5Step} (ht : s.tim5Handler = some t) :
      Happens s .tim5Step (s.tim5Step t) []
  | taskStep {s' : System α n} (hnone : s.handler = none) (hnone5 : s.tim5Handler = none)
      (ht : s.taskStep = some s') : Happens s .taskStep s' s.performed

/-- A step is one of the things that can happen. -/
theorem happens_of_step {s s' : System α n} {e : Handover.Event α}
    {o : List (Channel → List α)} (hs : (machine α n).step s e = some (s', o)) :
    Happens s e s' o := by
  cases e with
  | excitationComplete =>
    cases hs
    exact .excitationComplete
  | timerUpdate =>
    cases hs
    exact .timerUpdate
  | receive ch w =>
    obtain ⟨u, hu, hs'⟩ := Option.map_eq_some_iff.mp hs
    cases hs'
    exact .receive hu
  | service ch =>
    obtain ⟨c, hc, hs'⟩ := Option.map_eq_some_iff.mp hs
    cases hs'
    exact .service hc
  | enterExcitation =>
    obtain ⟨hp, hs'⟩ := Option.ite_none_right_eq_some.mp hs
    cases hs'
    exact .enterExcitation hp.1 hp.2.1 hp.2.2
  | enterAdc ch =>
    obtain ⟨hp, hs'⟩ := Option.ite_none_right_eq_some.mp hs
    cases hs'
    exact .enterAdc hp.1 hp.2.1 hp.2.2
  | enterTim5 =>
    obtain ⟨hp, hs'⟩ := Option.ite_none_right_eq_some.mp hs
    cases hs'
    exact .enterTim5 hp.1 hp.2
  | handlerStep =>
    obtain ⟨hnone5, hs'⟩ := Option.ite_none_right_eq_some.mp hs
    cases hpc : s.handler with
    | none =>
      rw [hpc] at hs'
      exact absurd hs' (Option.some_ne_none _).symm
    | some handler =>
      rw [hpc] at hs'
      cases handler with
      | excitation pc =>
        cases hs'
        exact .excitationStep hnone5 hpc
      | adc ch pc =>
        cases hs'
        exact .adcStep hnone5 hpc
  | tim5Step =>
    obtain ⟨t, ht, hs'⟩ := Option.map_eq_some_iff.mp hs
    cases hs'
    exact .tim5Step ht
  | taskStep =>
    obtain ⟨hnone, hs'⟩ := Option.ite_none_right_eq_some.mp hs
    obtain ⟨t, ht, ht'⟩ := Option.map_eq_some_iff.mp hs'
    cases ht'
    exact .taskStep hnone.1 hnone.2 ht

end Resmod.Analysis
