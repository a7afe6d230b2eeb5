import Resmod.Analysis.HandoverInvariant

/-!
# Every acquisition is consumed whole and in pairs

The invariant of the handover is kept by every event of the hardware, every entry of a
handler and every statement, as long as no source fires again while its own handler is
active.  What `PerformCalculation` is called with, and when a stream may write and an
acquisition may start, is read off it.
-/

set_option autoImplicit false

namespace Resmod.Analysis

open Resmod.Library Resmod.Model Resmod.Model.LTC2336SPIDMATrigger Resmod.Model.Handover

variable {α : Type*} {n : ℕ} {s : System α n} {log : Log α} {phase : Phase}
  {stage : Channel → Stage}

/-! ## One channel of the system -/

/-- A channel and its stage change together. -/
theorem holds_setChannel {words : Channel → List α}
    (h : ∀ ch', (stage ch').Holds ch' (s.channel ch') (words ch')) {ch : Channel}
    {c : ChannelState α n} {st : Stage} {w : List α} (hc : st.Holds ch c w) (ch' : Channel) :
    (Function.update stage ch st ch').Holds ch' ((s.setChannel ch c).channel ch')
      (Function.update words ch w ch') := by
  unfold System.setChannel
  by_cases hch : ch' = ch
  · subst hch
    simpa using hc
  · simpa [Function.update_of_ne hch] using h ch'

/-- The array of a channel is not part of the acquisition. -/
theorem waveform_setChannel {ch : Channel} {c : ChannelState α n}
    (hc : c.waveform = (s.channel ch).waveform) (ch' : Channel) :
    ((s.setChannel ch c).channel ch').waveform = (s.channel ch').waveform := by
  unfold System.setChannel
  by_cases hch : ch' = ch
  · subst hch
    simpa using hc
  · simp [Function.update_of_ne hch]

/-- Who may run does not depend on the acquisitions. -/
theorem control_setChannel {ch : Channel} {c : ChannelState α n}
    (hc : c.waveform = (s.channel ch).waveform) (h : Control s log stage phase) :
    Control (s.setChannel ch c) log stage phase := by
  cases phase with
  | calculating =>
    obtain ⟨hexc, htim, hst, hcopied⟩ := h
    refine ⟨hexc, htim, hst, ?_⟩
    have hwave := waveform_setChannel hc
    show Copied (s.setChannel ch c) log s.task
    cases htask : s.task with
    | copy ch' j => cases ch' <;> simpa [Copied, hwave, htask] using hcopied
    | performCalculation => simpa [Copied, hwave, htask] using hcopied
    | _ =>
      rw [htask] at hcopied
      exact hcopied
  | _ => exact h

/-- The stage of a channel changes while its handler is not active. -/
theorem handling_update {handler : Option Handler}
    (h : ∀ ch pc, handler = some (.adc ch pc) ↔ stage ch = .handling pc) {ch : Channel}
    {st : Stage} (hold : ∀ pc, stage ch ≠ .handling pc) (hnew : ∀ pc, st ≠ .handling pc)
    (ch' : Channel) (pc : AdcStep) :
    handler = some (.adc ch' pc) ↔ Function.update stage ch st ch' = .handling pc := by
  by_cases hch : ch' = ch
  · subst hch
    rw [h, Function.update_self]
    exact ⟨fun h => absurd h (hold pc), fun h => absurd h (hnew pc)⟩
  · rw [h, Function.update_of_ne hch]

/-- The stage of a channel changes with its handler. -/
theorem handling_of {handler : Option Handler} {ch : Channel} {st : Stage}
    (hother : ∀ ch' pc, ch' ≠ ch → stage ch' ≠ .handling pc)
    (h : ∀ ch' pc, handler = some (.adc ch' pc) ↔ ch' = ch ∧ st = .handling pc)
    (ch' : Channel) (pc : AdcStep) :
    handler = some (.adc ch' pc) ↔ Function.update stage ch st ch' = .handling pc := by
  rw [h]
  by_cases hch : ch' = ch
  · subst hch
    simp
  · rw [Function.update_of_ne hch]
    simp [hch, hother ch' pc hch]

/-- A stage that is under way stays so when the channel moves on. -/
theorem underway_update {ch ch' : Channel} {st : Stage} (h : (stage ch').Underway)
    (hst : st.Underway) : (Function.update stage ch st ch').Underway := by
  by_cases hch : ch' = ch
  · subst hch
    simpa using hst
  · simpa [Function.update_of_ne hch] using h

/-! ## The hardware -/

/-- The excitation is complete, and its interrupt pending. -/
theorem HandoverInv.excitationComplete (h : HandoverInv phase stage s log)
    (hidle : ∀ pc, s.handler ≠ some (.excitation pc)) :
    HandoverInv phase stage { s with excitation := s.excitation.fire } log := by
  have hrolled : ExcitationRolled s →
      ExcitationRolled { s with excitation := s.excitation.fire } := by
    rintro ⟨hpending, hactive | ⟨hnot, henable⟩⟩
    · exact absurd hactive (hidle _)
    · exact ⟨by simp [Source.fire, hpending, henable], .inr ⟨hnot, henable⟩⟩
  refine ⟨h.handling, h.holds, ?_⟩
  have hcontrol := h.control
  cases phase with
  | armed =>
    obtain ⟨hnone | ⟨-, hactive | hactive⟩, hrest⟩ := hcontrol
    · exact ⟨.inl hnone, hrest⟩
    · exact absurd hactive (hidle _)
    · exact absurd hactive (hidle _)
  | rolled => exact ⟨hrolled hcontrol.1, hcontrol.2⟩
  | tim5 t => exact ⟨hrolled hcontrol.1, hcontrol.2⟩
  | acquiring => exact ⟨hrolled hcontrol.1, hcontrol.2⟩
  | calculating =>
    obtain ⟨⟨hexc, hnone⟩, htim, hst, hcopied⟩ := hcontrol
    refine ⟨⟨hrolled hexc, hnone⟩, htim, hst, ?_⟩
    exact hcopied

/-- The timer rolls over, and its interrupt is pending. -/
theorem HandoverInv.timerUpdate (h : HandoverInv phase stage s log)
    (hidle : s.tim5Handler = none) :
    HandoverInv phase stage { s with tim5 := s.tim5.fire } log := by
  have hoff : Tim5Off s → Tim5Off { s with tim5 := s.tim5.fire } := by
    rintro ⟨hnone, henable, hpending⟩
    exact ⟨hnone, henable, by simp [Source.fire, hpending, henable]⟩
  refine ⟨h.handling, h.holds, ?_⟩
  have hcontrol := h.control
  cases phase with
  | armed => exact ⟨hcontrol.1, hoff hcontrol.2.1, hcontrol.2.2⟩
  | rolled => exact hcontrol
  | tim5 t =>
    obtain ⟨-, ⟨hactive, -⟩, -⟩ := hcontrol
    exact absurd (hidle.symm.trans hactive) (by simp)
  | acquiring => exact ⟨hcontrol.1, hoff hcontrol.2.1, hcontrol.2.2⟩
  | calculating => exact ⟨hcontrol.1, hoff hcontrol.2.1, hcontrol.2.2⟩

/-- A word is received on a channel. -/
theorem HandoverInv.receive (h : HandoverInv phase stage s log) {ch : Channel} {w : α}
    {u' : LTC2336SPIDMATrigger α n} (hu : (s.channel ch).unit.receive w = some u') :
    HandoverInv phase stage (s.setChannel ch { s.channel ch with unit := u' }) log := by
  refine ⟨h.handling, fun ch' => ?_, control_setChannel rfl h.control⟩
  have hch := holds_setChannel h.holds ((h.holds ch).receive hu) ch'
  rwa [Function.update_eq_self, Function.update_eq_self] at hch

/-- **A service** belongs to the acquisition that is under way, and never happens while
`CalcTask` copies. -/
theorem HandoverInv.service (h : HandoverInv phase stage s log) {ch : Channel}
    {c' : ChannelState α n} (hs : (s.channel ch).service = some c') :
    ∃ w stage', (s.channel ch).unit.dr = some w ∧
      HandoverInv phase stage' (s.setChannel ch c') (log.move ch w) ∧
      ∀ ch' j, s.task ≠ .copy ch' j := by
  obtain ⟨w, hdr, hmoving, hwave, hnew⟩ := (h.holds ch).service hs
  obtain ⟨st', hst', hnew⟩ : ∃ st', (st' = .moving ∨ st' = .complete) ∧
      Stage.Holds ch c' (log.words ch ++ [w]) st' := by
    rcases hnew with hnew | hnew
    · exact ⟨.moving, .inl rfl, hnew⟩
    · exact ⟨.complete, .inr rfl, hnew⟩
  have hhandling := @handling_update stage s.handler h.handling ch st'
    (fun pc => by simp [hmoving]) (fun pc => by rcases hst' with rfl | rfl <;> simp)
  have hcontrol := h.control
  have hholds := holds_setChannel h.holds hnew
  cases phase with
  | armed => simp [hcontrol.2.2.2.1 ch] at hmoving
  | rolled => simp [hcontrol.2.2.2.1 ch] at hmoving
  | calculating => simp [hcontrol.2.2.1 ch] at hmoving
  | tim5 t =>
    obtain ⟨hexc, htim, htask, hstages, hahead⟩ := hcontrol
    obtain ⟨hwords, hahead'⟩ := Log.words_move hahead ch w
    refine ⟨w, _, hdr, ⟨hhandling, by rwa [hwords], ⟨hexc, htim, htask, ?_, hahead'⟩⟩, ?_⟩
    · intro ch'
      rw [hwords]
      by_cases hch : ch' = ch
      · subst hch
        rcases hstages ch' with ⟨htrig, -⟩ | ⟨-, hidle, -⟩
        · exact .inl ⟨htrig, by simpa using hst'⟩
        · simp [hidle] at hmoving
      · simpa [Function.update_of_ne hch] using hstages ch'
    · simp [htask]
  | acquiring =>
    obtain ⟨hexc, htim, htask, hcur, hahead⟩ := hcontrol
    obtain ⟨hwords, hahead'⟩ := Log.words_move hahead ch w
    have hway : st'.Underway := by rcases hst' with rfl | rfl <;> trivial
    refine ⟨w, _, hdr, ⟨hhandling, by rwa [hwords],
      ⟨hexc, htim, ?_, underway_update hcur hway, hahead'⟩⟩, ?_⟩
    · rcases htask with ⟨htask, hvol⟩ | ⟨htask, hvol⟩
      · exact .inl ⟨htask, underway_update hvol hway⟩
      · have hne : Channel.voltage ≠ ch := fun heq => by
          rw [heq, hmoving] at hvol
          simp at hvol
        exact .inr ⟨htask, by rwa [Function.update_of_ne hne]⟩
    · rcases htask with ⟨htask, -⟩ | ⟨htask, -⟩ <;> simp [htask]

/-! ## The entry of handlers -/

/-- Once the excitation has rolled, a handler of another source may be entered or end. -/
theorem ExcitationRolled.of_handler {handler : Option Handler} (h : ExcitationRolled s)
    (hold : ∀ pc, s.handler ≠ some (.excitation pc))
    (hnew : ∀ pc, handler ≠ some (.excitation pc)) :
    s.excitation.pending = false ∧ (handler = some (.excitation .disableIT) ∨
      (∀ pc, handler ≠ some (.excitation pc)) ∧ s.excitation.enable = false) := by
  obtain ⟨hpending, hactive | ⟨-, henable⟩⟩ := h
  · exact absurd hactive (hold _)
  · exact ⟨hpending, .inr ⟨hnew, henable⟩⟩

/-- The handler of the excitation is entered. -/
theorem HandoverInv.enterExcitation (h : HandoverInv phase stage s log)
    (hpending : s.excitation.pending = true) :
    HandoverInv phase stage { s with
      excitation := s.excitation.enter
      handler := some (.excitation .clearITPendingBit) } log := by
  have hrolled : ¬ ExcitationRolled s := fun hr => by simp [hr.1] at hpending
  have hcontrol := h.control
  cases phase with
  | armed =>
    refine ⟨fun ch pc => ?_, h.holds, .inr ⟨rfl, .inl rfl⟩, hcontrol.2⟩
    simp [hcontrol.2.2.2.1 ch]
  | rolled => exact absurd hcontrol.1 hrolled
  | tim5 t => exact absurd hcontrol.1 hrolled
  | acquiring => exact absurd hcontrol.1 hrolled
  | calculating => exact absurd hcontrol.1.1 hrolled

/-- **The handler of a channel** is entered, goes on or ends; the channel moves on with it.
This happens only while the acquisitions are under way. -/
theorem HandoverInv.adc (h : HandoverInv phase stage s log) (hnone5 : s.tim5Handler = none)
    (st : Stage) {ch : Channel} {c : ChannelState α n} {handler : Option Handler}
    (hold : s.handler = none ∨ ∃ pc, s.handler = some (.adc ch pc))
    (hnew : ∀ ch' pc, handler = some (.adc ch' pc) ↔ ch' = ch ∧ st = .handling pc)
    (hexc : ∀ pc, handler ≠ some (.excitation pc)) (hway : (stage ch).Underway)
    (hst : st.Underway) (hc : st.Holds ch c (log.words ch)) :
    HandoverInv phase (Function.update stage ch st)
      { s.setChannel ch c with handler := handler } log := by
  have hother : ∀ ch' pc, ch' ≠ ch → stage ch' ≠ .handling pc := by
    intro ch' pc hne hst'
    have hactive := (h.handling ch' pc).mpr hst'
    rcases hold with hnone | ⟨pc', hadc⟩
    · simp [hnone] at hactive
    · rw [hadc] at hactive
      simp [Ne.symm hne] at hactive
  have hnotexc : ∀ pc, s.handler ≠ some (.excitation pc) := by
    rcases hold with hnone | ⟨pc', hadc⟩
    · simp [hnone]
    · simp [hadc]
  have hholds := holds_setChannel h.holds hc
  rw [Function.update_eq_self] at hholds
  have hcontrol := h.control
  cases phase with
  | armed => simp [hcontrol.2.2.2.1 ch, Stage.Underway] at hway
  | rolled => simp [hcontrol.2.2.2.1 ch, Stage.Underway] at hway
  | calculating => simp [hcontrol.2.2.1 ch, Stage.Underway] at hway
  | tim5 t => exact absurd (hnone5.symm.trans hcontrol.2.1.1) (by simp)
  | acquiring =>
    obtain ⟨hrolled, htim, htask, hcur, hahead⟩ := hcontrol
    refine ⟨handling_of hother hnew, hholds, hrolled.of_handler hnotexc hexc, htim, ?_,
      underway_update hcur hst, hahead⟩
    rcases htask with ⟨htask, hvol⟩ | ⟨htask, hvol⟩
    · exact .inl ⟨htask, underway_update hvol hst⟩
    · have hne : Channel.voltage ≠ ch := fun heq => by
        rw [← heq, hvol] at hway
        exact hway
      exact .inr ⟨htask, by rwa [Function.update_of_ne hne]⟩

/-- The handler of a channel is entered. -/
theorem HandoverInv.enterAdc (h : HandoverInv phase stage s log) {ch : Channel}
    (hpending : (s.channel ch).pending = true) (hnone : s.handler = none)
    (hnone5 : s.tim5Handler = none) :
    ∃ stage', HandoverInv phase stage'
      { s.setChannel ch { s.channel ch with pending := false } with
        handler := some (.adc ch (.complete .clearITPendingBit)) } log := by
  have hch := h.holds ch
  have hcomplete : stage ch = .complete := by
    have hp := hch.pending
    rw [hpending] at hp
    cases hst : stage ch <;> simp [hst, Stage.pending] at hp ⊢
  rw [hcomplete] at hch
  refine ⟨_, h.adc hnone5 (.handling (.complete .clearITPendingBit)) (.inl hnone)
    ?_ (by simp) ?_ trivial ⟨rfl, hch.sem, hch.data, trivial⟩⟩
  · intro ch' pc
    simp [eq_comm]
  · rw [hcomplete]
    trivial

/-- **The entry of `TIM5_IRQHandler`** starts an acquisition, and every earlier one has
been copied. -/
theorem HandoverInv.enterTim5 (h : HandoverInv phase stage s log)
    (hpending : s.tim5.pending = true) (hnone5 : s.tim5Handler = none) :
    log.acquired.length = log.copied ∧
      HandoverInv (.tim5 .clearITPendingBit) stage { s with
        tim5 := s.tim5.enter
        tim5Handler := some .clearITPendingBit }
        { log with acquired := (fun _ => []) :: log.acquired } := by
  have hoff : ¬ Tim5Off s := fun ho => by simp [ho.2.2] at hpending
  have hcontrol := h.control
  cases phase with
  | armed => exact absurd hcontrol.2.1 hoff
  | acquiring => exact absurd hcontrol.2.1 hoff
  | calculating => exact absurd hcontrol.2.1 hoff
  | tim5 t => exact absurd (hnone5.symm.trans hcontrol.2.1.1) (by simp)
  | rolled =>
    obtain ⟨hrolled, -, htask, hidle, hlen, hcopied⟩ := hcontrol
    refine ⟨hlen.trans hcopied.symm, h.handling, fun ch => ?_, hrolled, ⟨rfl, rfl, by simp⟩,
      htask, fun ch => .inr ⟨id, hidle ch, rfl⟩, by simp [hlen], hcopied⟩
    have hch := h.holds ch
    rw [hidle ch] at hch ⊢
    exact ⟨hch.pending, hch.sem, hch.data⟩

/-! ## The statements of the handlers -/

/-- Up to the roll the excitation is armed. -/
theorem HandoverInv.eq_armed (h : HandoverInv phase stage s log) {pc : ExcitationStep}
    (hpc : s.handler = some (.excitation pc)) (hroll : pc ≠ .disableIT) :
    phase = .armed ∧ s.excitation.pending = false := by
  have hrolled : ¬ ExcitationRolled s := by
    rintro ⟨-, hactive | ⟨hno, -⟩⟩
    · rw [hpc] at hactive
      simp [hroll] at hactive
    · exact hno _ hpc
  have hcontrol := h.control
  cases phase with
  | armed =>
    rcases hcontrol.1 with hnone | ⟨hpending, -⟩
    · simp [hpc] at hnone
    · exact ⟨rfl, hpending⟩
  | rolled => exact absurd hcontrol.1 hrolled
  | tim5 t => exact absurd hcontrol.1 hrolled
  | acquiring => exact absurd hcontrol.1 hrolled
  | calculating => exact absurd hcontrol.1.1 hrolled

/-- **`DMA1_Stream2_IRQHandler`**: the roll passes the phase on to the timer, and the
statement after it only disarms.
SOURCE: dma1.cc:43-47, excitation.cc:110-116 -/
theorem HandoverInv.excitationStep (h : HandoverInv phase stage s log)
    (hnone5 : s.tim5Handler = none) {pc : ExcitationStep}
    (hpc : s.handler = some (.excitation pc)) :
    ∃ phase', HandoverInv phase' stage (s.excitationStep pc) log := by
  have hnot : ∀ ch pc', stage ch ≠ .handling pc' := by
    intro ch pc' hst
    have hactive := (h.handling ch pc').mpr hst
    simp [hpc] at hactive
  cases pc with
  | clearITPendingBit =>
    obtain ⟨rfl, hpending⟩ := h.eq_armed hpc (by simp)
    refine ⟨.armed, fun ch pc => ?_, h.holds, .inr ⟨hpending, .inr rfl⟩, h.control.2⟩
    simp [System.excitationStep, hnot]
  | dmaroll =>
    obtain ⟨rfl, hpending⟩ := h.eq_armed hpc (by simp)
    obtain ⟨-, ⟨hoff, -, -⟩, hrest⟩ := h.control
    refine ⟨.rolled, fun ch pc => ?_, h.holds, ⟨hpending, .inl rfl⟩, hoff, hrest⟩
    simp [System.excitationStep, hnot]
  | disableIT =>
    have hhandling : ∀ ch pc, (s.excitationStep .disableIT).handler = some (.adc ch pc) ↔
        stage ch = .handling pc := by
      intro ch pc
      simp [System.excitationStep, hnot]
    have hdisarmed : ExcitationRolled s → ExcitationRolled (s.excitationStep .disableIT) :=
      fun hr => ⟨hr.1, .inr ⟨by simp [System.excitationStep], rfl⟩⟩
    have hcontrol := h.control
    cases phase with
    | armed =>
      obtain ⟨harmed, -⟩ := hcontrol
      rcases harmed with hnone | ⟨-, hactive | hactive⟩
      · simp [hpc] at hnone
      · simp [hpc] at hactive
      · simp [hpc] at hactive
    | rolled => exact ⟨.rolled, hhandling, h.holds, hdisarmed hcontrol.1, hcontrol.2⟩
    | tim5 t => exact absurd (hnone5.symm.trans hcontrol.2.1.1) (by simp)
    | acquiring => exact ⟨.acquiring, hhandling, h.holds, hdisarmed hcontrol.1, hcontrol.2⟩
    | calculating => exact absurd (hpc.symm.trans hcontrol.1.2) (by simp)

/-- **The handlers of the channels**: the buffer stays as the stream left it, the stream is
prepared for the next `Trigger`, and the semaphore is given with the pointer set.
SOURCE: dma1.cc:49-62, ltc2336spidamtrigger.cc:77-87, calctask.cc:50-66 -/
theorem HandoverInv.adcStep (h : HandoverInv phase stage s log)
    (hnone5 : s.tim5Handler = none) {ch : Channel} {pc : AdcStep}
    (hpc : s.handler = some (.adc ch pc)) :
    ∃ stage', HandoverInv phase stage' (s.adcStep ch pc) log := by
  have hst := (h.handling ch pc).mp hpc
  have hch := h.holds ch
  rw [hst] at hch
  obtain ⟨hpending, hsem, hfilled, hupTo⟩ := hch
  have hway : (stage ch).Underway := by
    rw [hst]
    trivial
  cases pc with
  | give =>
    exact ⟨_, h.adc hnone5 .given (.inr ⟨_, hpc⟩) (by simp) (by simp) hway trivial
      ⟨hpending, rfl, hfilled, hupTo.1, hupTo.2⟩⟩
  | complete c =>
    cases c with
    | clearITPendingBit =>
      refine ⟨_, h.adc hnone5 (.handling (.complete .disableSpi)) (.inr ⟨_, hpc⟩) ?_
        (by simp [CompleteStep.next]) hway trivial ⟨hpending, hsem, hfilled, rfl⟩⟩
      simp [CompleteStep.next, eq_comm]
    | disableSpi =>
      refine ⟨_, h.adc hnone5 (.handling (.complete .resetDma)) (.inr ⟨_, hpc⟩) ?_
        (by simp [CompleteStep.next]) hway trivial ⟨hpending, hsem, hfilled, hupTo⟩⟩
      simp [CompleteStep.next, eq_comm]
    | resetDma =>
      refine ⟨_, h.adc hnone5 (.handling (.complete .callback)) (.inr ⟨_, hpc⟩) ?_
        (by simp [CompleteStep.next]) hway trivial ⟨hpending, hsem, hfilled, hupTo, rfl⟩⟩
      simp [CompleteStep.next, eq_comm]
    | callback =>
      refine ⟨_, h.adc hnone5 (.handling .give) (.inr ⟨_, hpc⟩) ?_ (by simp) hway trivial
        ⟨hpending, hsem, hfilled, hupTo, rfl⟩⟩
      simp [eq_comm]

/-- What one statement of `Trigger` adds to the channels that are triggered. -/
theorem triggered_next {ch ch' : Channel} {t : TriggerStep} {t' : Tim5Step}
    (h : (Tim5Step.trigger ch t).next = some t') :
    Triggered ch' t' ↔ Triggered ch' (.trigger ch t) ∨ ch' = ch := by
  cases ch <;> cases t <;> simp [Tim5Step.next, TriggerStep.next] at h <;> subst h <;>
    cases ch' <;> simp [Triggered]

/-- A statement of `Trigger` starts its channel, or finds it started. -/
theorem HandoverInv.trigger (hn : 0 < n) {ch : Channel} {t : TriggerStep}
    (h : HandoverInv (.tim5 (.trigger ch t)) stage s log) :
    ∃ stage' : Channel → Stage,
      (∀ ch' pc, s.handler = some (.adc ch' pc) ↔ stage' ch' = .handling pc) ∧
      (∀ ch', (stage' ch').Holds ch'
        ((s.setChannel ch { s.channel ch with unit := t.exec (s.channel ch).unit }).channel ch')
        (log.words ch')) ∧
      ∀ ch', (Triggered ch' (.trigger ch t) ∨ ch' = ch) ∧
          (stage' ch' = .moving ∨ stage' ch' = .complete) ∨
        ¬ (Triggered ch' (.trigger ch t) ∨ ch' = ch) ∧ stage' ch' = .idle ∧
          log.words ch' = [] := by
  obtain ⟨-, -, -, hstages, -⟩ := h.control
  obtain ⟨st, hst, hold, hc⟩ : ∃ st, (st = .moving ∨ st = .complete) ∧
      (∀ pc, stage ch ≠ .handling pc) ∧
      Stage.Holds ch { s.channel ch with unit := t.exec (s.channel ch).unit }
        (log.words ch) st := by
    have hch := h.holds ch
    by_cases ht : t = .enableStream
    · subst ht
      rcases hstages ch with ⟨htrig, -⟩ | ⟨-, hidle, hnil⟩
      · cases ch <;> simp [Triggered] at htrig
      · rw [hidle, hnil] at hch
        rw [hnil]
        exact ⟨.moving, .inl rfl, by simp [hidle], hch.enableStream hn⟩
    · rcases hstages ch with ⟨-, hst⟩ | ⟨htrig, -⟩
      · refine ⟨stage ch, hst, ?_, hch.triggerStep ht hst⟩
        rcases hst with hst | hst <;> simp [hst]
      · cases ch <;> simp [Triggered, ht] at htrig
  have hholds := holds_setChannel h.holds hc
  rw [Function.update_eq_self] at hholds
  refine ⟨_, handling_update h.handling hold (by rcases hst with rfl | rfl <;> simp), hholds,
    fun ch' => ?_⟩
  by_cases hch : ch' = ch
  · subst hch
    exact .inl ⟨.inr rfl, by simpa using hst⟩
  · simpa [Function.update_of_ne hch, hch] using hstages ch'

/-- **`TIM5_IRQHandler`**: it disables its own interrupt and starts both channels.
SOURCE: tim.cc:48-54, ltc2336spidamtrigger.cc:89-96 -/
theorem HandoverInv.tim5Step (hn : 0 < n) (h : HandoverInv phase stage s log) {t : Tim5Step}
    (ht : s.tim5Handler = some t) :
    ∃ phase' stage', HandoverInv phase' stage' (s.tim5Step t) log := by
  have hoff : ¬ Tim5Off s := fun ho => by simp [ho.1] at ht
  have hcontrol := h.control
  cases phase with
  | armed => exact absurd hcontrol.2.1 hoff
  | rolled => exact absurd (ht.symm.trans hcontrol.2.1) (by simp)
  | acquiring => exact absurd hcontrol.2.1 hoff
  | calculating => exact absurd hcontrol.2.1 hoff
  | tim5 t' =>
    obtain ⟨hrolled, ⟨hactive, hpending, henable⟩, htask, hstages, hahead⟩ := hcontrol
    obtain rfl : t = t' := Option.some.inj (ht.symm.trans hactive)
    cases t with
    | clearITPendingBit =>
      exact ⟨.tim5 .disableIT, stage, h.handling, h.holds, hrolled,
        ⟨rfl, hpending, by simp⟩, htask, hstages, hahead⟩
    | disableIT =>
      refine ⟨.tim5 (.trigger .voltage .enableStream), stage, h.handling, h.holds, hrolled,
        ⟨rfl, hpending, fun _ _ _ => rfl⟩, htask, fun ch => ?_, hahead⟩
      simpa [Triggered] using hstages ch
    | trigger ch t =>
      have hdisabled := henable ch t rfl
      obtain ⟨stage', hhandling, hholds, hstages'⟩ := h.trigger hn
      cases hnext : (Tim5Step.trigger ch t).next with
      | some t' =>
        refine ⟨.tim5 t', stage', hhandling, hholds, hrolled,
          ⟨hnext, hpending, fun _ _ _ => hdisabled⟩, htask, fun ch' => ?_, hahead⟩
        rw [triggered_next hnext]
        exact hstages' ch'
      | none =>
        -- the last statement: both channels are started
        have hway : ∀ ch', (stage' ch').Underway := by
          intro ch'
          have hlast : Triggered ch' (.trigger ch t) ∨ ch' = ch := by
            cases ch <;> cases t <;> cases ch' <;>
              simp [Tim5Step.next, TriggerStep.next, Triggered] at hnext ⊢
          rcases hstages' ch' with ⟨-, hst | hst⟩ | ⟨hnot, -⟩
          · rw [hst]
            trivial
          · rw [hst]
            trivial
          · exact absurd hlast hnot
        exact ⟨.acquiring, stage', hhandling, hholds, hrolled, ⟨hnext, hdisabled, hpending⟩,
          .inl ⟨htask, hway .voltage⟩, hway .current, hahead⟩

/-! ## The statements of the task -/

/-- Past the semaphores the task runs in one phase only. -/
theorem HandoverInv.eq_calculating (h : HandoverInv phase stage s log)
    (htask : ∀ ch, s.task ≠ .take ch) : phase = .calculating := by
  have hcontrol := h.control
  cases phase with
  | armed => exact absurd hcontrol.2.2.1 (htask _)
  | rolled => exact absurd hcontrol.2.2.1 (htask _)
  | tim5 t => exact absurd hcontrol.2.2.1 (htask _)
  | acquiring =>
    rcases hcontrol.2.2.1 with ⟨ht, -⟩ | ⟨ht, -⟩
    · exact absurd ht (htask _)
    · exact absurd ht (htask _)
  | calculating => rfl

/-- **The taking of a semaphore** takes the channel that gave it; with the current both are
taken.
SOURCE: calctask.cc:76-77 -/
theorem HandoverInv.take (h : HandoverInv phase stage s log) (hnone : s.handler = none)
    (hnone5 : s.tim5Handler = none) {ch : Channel} (htask : s.task = .take ch)
    (hsem : (s.channel ch).sem = true) :
    ∃ phase' stage', HandoverInv phase' stage'
      { s.setChannel ch { s.channel ch with sem := false } with
        task := .afterTake ch } log := by
  have hch := h.holds ch
  have hgiven : stage ch = .given := by
    have hs := hch.sem
    rw [hsem] at hs
    cases hst : stage ch <;> simp [hst, Stage.sem] at hs ⊢
  rw [hgiven] at hch
  have htaken : Stage.taken.Holds ch { s.channel ch with sem := false } (log.words ch) :=
    ⟨hch.pending, rfl, hch.data⟩
  have hhandling := @handling_update stage s.handler h.handling ch .taken
    (by simp [hgiven]) (by simp)
  have hholds := holds_setChannel h.holds htaken
  rw [Function.update_eq_self] at hholds
  have hcontrol := h.control
  cases phase with
  | armed => simp [hcontrol.2.2.2.1 ch] at hgiven
  | rolled => simp [hcontrol.2.2.2.1 ch] at hgiven
  | calculating => simp [hcontrol.2.2.1 ch] at hgiven
  | tim5 t => exact absurd (hnone5.symm.trans hcontrol.2.1.1) (by simp)
  | acquiring =>
    obtain ⟨hrolled, htim, htakes, hcur, hahead⟩ := hcontrol
    cases ch with
    | voltage =>
      refine ⟨.acquiring, _, hhandling, hholds, hrolled, htim, .inr ⟨rfl, by simp⟩, ?_, hahead⟩
      simpa using hcur
    | current =>
      have hvol : stage .voltage = .taken := by
        rcases htakes with ⟨ht, -⟩ | ⟨-, hvol⟩
        · simp [htask] at ht
        · exact hvol
      refine ⟨.calculating, _, hhandling, hholds, ⟨hrolled, hnone⟩, htim, fun ch => ?_,
        hahead, Nat.zero_le n, by simp⟩
      cases ch with
      | voltage => simpa using hvol
      | current => simp

/-- One more word has been copied. -/
theorem take_succ_copy {words : List α} {waveform buff : Vector α n} {j : ℕ} (hj : j < n)
    (hbuff : buff.toList = words) (h : waveform.toList.take j = words.take j) :
    (waveform.set j buff[j]).toList.take (j + 1) = words.take (j + 1) := by
  have hlen : j < waveform.toList.length := by simpa using hj
  have hlen' : j < buff.toList.length := by simpa using hj
  subst hbuff
  rw [Vector.toList_set, take_succ_set hlen, h, List.take_succ_eq_append_getElem hlen']
  simp

/-- What was copied to the end is all there is. -/
theorem toList_of_take {words : List α} {waveform buff : Vector α n} {j : ℕ} (hj : ¬ j < n)
    (hbuff : buff.toList = words) (h : waveform.toList.take j = words.take j) :
    waveform.toList = words := by
  subst hbuff
  rwa [List.take_of_length_le (by simp; omega), List.take_of_length_le (by simp; omega)] at h

/-- **The copy of one element** reads the buffer of its own channel.
SOURCE: calctask.cc:79-80 -/
theorem HandoverInv.copy (h : HandoverInv phase stage s log) {ch : Channel} {j : ℕ}
    (htask : s.task = .copy ch j) (hj : j < n) {src : Channel}
    (hsrc : (s.channel ch).parr = some src) :
    HandoverInv phase stage
      { s.setChannel ch { s.channel ch with
          waveform := (s.channel ch).waveform.set j (s.channel src).unit.buff[j] } with
        task := .copy ch (j + 1) } log := by
  obtain rfl := h.eq_calculating (by simp [htask])
  obtain ⟨hexc, htim, hst, hcopied⟩ := h.control
  have hch := h.holds ch
  rw [hst ch] at hch
  obtain ⟨hpending, hsem, ⟨hen, hbuff⟩, hrested, hparr⟩ := hch
  obtain rfl : ch = src := Option.some.inj (hparr.symm.trans hsrc)
  have htaken : (stage ch).Holds ch { s.channel ch with
      waveform := (s.channel ch).waveform.set j (s.channel ch).unit.buff[j] }
      (log.words ch) := by
    rw [hst ch]
    exact ⟨hpending, hsem, ⟨hen, hbuff⟩, hrested, hparr⟩
  have hholds := holds_setChannel h.holds htaken
  rw [Function.update_eq_self, Function.update_eq_self] at hholds
  refine ⟨h.handling, hholds, hexc, htim, hst, ?_⟩
  rw [htask] at hcopied
  cases ch with
  | voltage =>
    obtain ⟨hahead, -, htake⟩ := hcopied
    refine ⟨hahead, hj, ?_⟩
    simpa [System.setChannel] using take_succ_copy hj hbuff htake
  | current =>
    obtain ⟨hahead, -, hvol, htake⟩ := hcopied
    refine ⟨hahead, hj, by simpa [System.setChannel] using hvol, ?_⟩
    simpa [System.setChannel] using take_succ_copy hj hbuff htake

/-- The history notes the calculation and the end of the copying, and no other statement
of the task. -/
theorem Log.next_taskStep {s' : System α n} (o : List (Channel → List α))
    (h : s.task ≠ .performCalculation) (h' : s'.task ≠ .performCalculation) :
    log.next s .taskStep s' o = log := by
  simp [Log.next, h, h']

/-- Between the copying and the enabling of the excitation only the place of the task and
the counts of the history change. -/
theorem HandoverInv.goOn (h : HandoverInv .calculating stage s log) {excitation : Source}
    {pc : TaskStep} {log' : Log α} (hpending : excitation.pending = s.excitation.pending)
    (henable : excitation.enable = s.excitation.enable)
    (hwords : log'.words = log.words)
    (hcopied : Copied { s with excitation := excitation, task := pc } log' pc) :
    HandoverInv .calculating stage { s with excitation := excitation, task := pc } log' := by
  obtain ⟨⟨⟨hidle, hrolled⟩, hnone⟩, htim, hst, -⟩ := h.control
  refine ⟨h.handling, fun ch => ?_, ⟨⟨hpending.trans hidle, ?_⟩, hnone⟩, htim, hst, hcopied⟩
  · rw [hwords]
    exact h.holds ch
  · rcases hrolled with hactive | ⟨hnot, hdisabled⟩
    · exact .inl hactive
    · exact .inr ⟨hnot, henable.trans hdisabled⟩

/-- The end of a copy: the task has all samples of the channel.
SOURCE: calctask.cc:79-80 -/
theorem HandoverInv.endCopy (h : HandoverInv phase stage s log) {ch : Channel} {j : ℕ}
    (htask : s.task = .copy ch j) (hj : ¬ j < n) (o : List (Channel → List α)) :
    ∃ phase' stage', HandoverInv phase' stage' { s with task := .afterCopy ch }
      (log.next s .taskStep { s with task := .afterCopy ch } o) := by
  obtain rfl := h.eq_calculating (by simp [htask])
  obtain ⟨-, -, hst, hcopied⟩ := h.control
  have hch := h.holds ch
  rw [hst ch] at hch
  have hbuff := hch.data.1.2
  rw [htask] at hcopied
  cases ch with
  | voltage =>
    obtain ⟨hahead, -, htake⟩ := hcopied
    rw [Log.next_taskStep o (by simp [htask]) (by simp [TaskStep.afterCopy])]
    have hall := toList_of_take hj hbuff htake
    exact ⟨.calculating, stage, h.goOn rfl rfl rfl ⟨hahead, Nat.zero_le n, hall, by simp⟩⟩
  | current =>
    obtain ⟨⟨hlen, hcount⟩, -, hvol, htake⟩ := hcopied
    have hnext : log.next s .taskStep { s with task := .afterCopy .current } o =
        { log with copied := log.copied + 1 } := by
      simp [Log.next, htask, TaskStep.afterCopy]
    rw [hnext]
    refine ⟨.calculating, stage, h.goOn rfl rfl rfl ⟨hlen, by simp [hcount], fun ch => ?_⟩⟩
    cases ch with
    | voltage => exact hvol
    | current => exact toList_of_take hj hbuff htake

/-- The next acquisition may begin.
SOURCE: calctask.cc:90 -/
theorem HandoverInv.enableIT (h : HandoverInv phase stage s log) (hnone : s.handler = none)
    (htask : s.task = .enableIT) :
    HandoverInv .armed (fun _ => .idle)
      { s with excitation := s.excitation.enableIT, task := .take .voltage } log := by
  obtain rfl := h.eq_calculating (by simp [htask])
  obtain ⟨hexc, htim, hst, hcopied⟩ := h.control
  rw [htask] at hcopied
  refine ⟨fun ch pc => ?_, fun ch => ?_, .inl hnone, htim, rfl, fun _ => rfl, hcopied⟩
  · simp [hnone]
  · -- a channel that was taken is ready to be triggered
    have hch := h.holds ch
    rw [hst ch] at hch
    obtain ⟨hpending, hsem, ⟨hen, -⟩, hrested, -⟩ := hch
    exact ⟨hpending, hsem, fun h => absurd (hen.symm.trans h) (by simp), hrested⟩

/-- **`CalcTask`**: from the semaphores to the enabling of the next acquisition.
SOURCE: calctask.cc:69-92 -/
theorem HandoverInv.taskStep (h : HandoverInv phase stage s log) (hnone : s.handler = none)
    (hnone5 : s.tim5Handler = none) {s' : System α n} (hs : s.taskStep = some s')
    (o : List (Channel → List α)) :
    ∃ phase' stage', HandoverInv phase' stage' s' (log.next s .taskStep s' o) := by
  unfold System.taskStep at hs
  cases htask : s.task with
  | take ch =>
    simp only [htask] at hs
    split_ifs at hs with hsem
    cases hs
    rw [Log.next_taskStep o (by simp [htask]) (by cases ch <;> simp [TaskStep.afterTake])]
    exact h.take hnone hnone5 htask hsem
  | copy ch j =>
    simp only [htask] at hs
    split_ifs at hs with hj
    · obtain ⟨src, hsrc, rfl⟩ := Option.map_eq_some_iff.mp hs
      rw [Log.next_taskStep o (by simp [htask]) (by simp)]
      exact ⟨phase, stage, h.copy htask hj hsrc⟩
    · cases hs
      exact h.endCopy htask hj o
  | performCalculation =>
    simp only [htask] at hs
    cases hs
    obtain rfl := h.eq_calculating (by simp [htask])
    obtain ⟨-, -, -, hcopied⟩ := h.control
    rw [htask] at hcopied
    obtain ⟨hlen, hcount, -⟩ := hcopied
    have hnext : log.next s .taskStep { s with task := .delay } o =
        { log with performed := log.performed + 1 } := by
      simp [Log.next, htask]
    rw [hnext]
    exact ⟨.calculating, stage, h.goOn rfl rfl rfl ⟨hlen, hcount⟩⟩
  | delay =>
    simp only [htask] at hs
    cases hs
    obtain rfl := h.eq_calculating (by simp [htask])
    obtain ⟨-, -, -, hcopied⟩ := h.control
    rw [htask] at hcopied
    rw [Log.next_taskStep o (by simp [htask]) (by simp)]
    exact ⟨.calculating, stage, h.goOn rfl rfl rfl hcopied⟩
  | clearITPendingBit =>
    simp only [htask] at hs
    cases hs
    obtain rfl := h.eq_calculating (by simp [htask])
    obtain ⟨-, -, -, hcopied⟩ := h.control
    rw [htask] at hcopied
    rw [Log.next_taskStep o (by simp [htask]) (by simp)]
    exact ⟨.calculating, stage, h.goOn rfl rfl rfl hcopied⟩
  | enableIT =>
    simp only [htask] at hs
    cases hs
    rw [Log.next_taskStep o (by simp [htask]) (by simp)]
    exact ⟨.armed, fun _ => .idle, h.enableIT hnone htask⟩

/-! ## Runs -/

/-- The invariant holds when `ResmodTask` has enabled the excitation. -/
theorem handoverInv_afterEnable (zero : α) (excitationFlag tim5Flag : Bool)
    (waveform : Channel → Vector α n) :
    HandoverInv .armed (fun _ => .idle) (afterEnable zero excitationFlag tim5Flag waveform)
      ⟨[], 0, 0⟩ := by
  refine ⟨fun ch pc => ?_, fun ch => ?_, .inl rfl, ⟨rfl, rfl, rfl⟩, rfl, fun _ => rfl, rfl, rfl⟩
  · simp [afterEnable]
  · exact ⟨rfl, rfl, fun _ => ⟨rfl, rfl⟩, rfl, rfl⟩

/-- The system together with its log. -/
def handover (α : Type*) (n : ℕ) :
    Machine (System α n × Log α) (Handover.Event α) (Channel → List α) :=
  (machine α n).observe Log.next

/-- No source fires again while its own handler is active.  The stream of a channel cannot:
it has stopped by then. -/
def NoRefire (p : System α n × Log α) : Handover.Event α → Prop
  | .excitationComplete => ∀ pc, p.1.handler ≠ some (.excitation pc)
  | .timerUpdate => p.1.tim5Handler = none
  | _ => True

/-- A step respects the handover. -/
structure HandedOver (p : System α n × Log α) (e : Handover.Event α)
    (_ : System α n × Log α) (o : List (Channel → List α)) : Prop where
  /-- The next call of `PerformCalculation`, the `k`-th, works on the words of the `k`-th
  execution of `TIM5_IRQHandler`, all of them. -/
  pairs : ∀ copies ∈ o, p.2.acquired.reverse[p.2.performed]? = some copies ∧
    ∀ ch, (copies ch).length = n
  /-- While `CalcTask` copies a buffer its pointer is set, and to that buffer. -/
  source : ∀ ch j, p.1.task = .copy ch j → (p.1.channel ch).parr = some ch
  /-- No stream writes while `CalcTask` copies. -/
  exclusive : ∀ ch, e = .service ch → ∀ ch' j, p.1.task ≠ .copy ch' j
  /-- No acquisition starts before every earlier one has been copied. -/
  ordered : e = .enterTim5 → p.2.acquired.length = p.2.copied

/-- What `PerformCalculation` is called with.
SOURCE: calctask.cc:79-83 -/
theorem HandoverInv.performed (h : HandoverInv phase stage s log) :
    ∀ copies ∈ s.performed, log.acquired.reverse[log.performed]? = some copies ∧
      ∀ ch, (copies ch).length = n := by
  intro copies hcopies
  unfold System.performed at hcopies
  split_ifs at hcopies with htask
  · obtain rfl := List.mem_singleton.mp hcopies
    obtain rfl := h.eq_calculating (by simp [htask])
    obtain ⟨-, -, -, hcopied⟩ := h.control
    rw [htask] at hcopied
    obtain ⟨hlen, -, hwords⟩ := hcopied
    refine ⟨?_, fun ch => by simp⟩
    cases hacq : log.acquired with
    | nil => simp [hacq] at hlen
    | cons words earlier =>
      have hperformed : earlier.length = log.performed := by simpa [hacq] using hlen
      have hcopies : (fun ch => (s.channel ch).waveform.toList) = words := by
        funext ch
        rw [hwords ch]
        simp [Log.words, hacq]
      rw [hcopies, List.reverse_cons, ← hperformed]
      simp
  · simp at hcopies

/-- What `CalcTask` copies from. -/
theorem HandoverInv.source (h : HandoverInv phase stage s log) (ch : Channel) (j : ℕ)
    (htask : s.task = .copy ch j) : (s.channel ch).parr = some ch := by
  obtain rfl := h.eq_calculating (by simp [htask])
  obtain ⟨-, -, hst, -⟩ := h.control
  have hch := h.holds ch
  rw [hst ch] at hch
  obtain ⟨-, -, hparr⟩ := hch.data
  exact hparr

/-- **The step lemma.**  From the invariant, a step keeps it and respects the handover. -/
theorem HandoverInv.step (hn : 0 < n) (h : HandoverInv phase stage s log)
    {e : Handover.Event α} (hfire : NoRefire (s, log) e) {s' : System α n}
    {o : List (Channel → List α)} (hs : (machine α n).step s e = some (s', o)) :
    (∃ phase' stage', HandoverInv phase' stage' s' (log.next s e s' o)) ∧
      HandedOver (s, log) e (s', log.next s e s' o) o := by
  cases happens_of_step hs with
  | excitationComplete =>
    exact ⟨⟨phase, stage, h.excitationComplete hfire⟩, by simp, h.source, by simp, by simp⟩
  | timerUpdate =>
    exact ⟨⟨phase, stage, h.timerUpdate hfire⟩, by simp, h.source, by simp, by simp⟩
  | receive hu => exact ⟨⟨phase, stage, h.receive hu⟩, by simp, h.source, by simp, by simp⟩
  | service hc =>
    obtain ⟨w, stage', hdr, hinv, hcopy⟩ := h.service hc
    refine ⟨⟨phase, stage', ?_⟩, by simp, h.source, fun _ _ => hcopy, by simp⟩
    simpa [Log.next, hdr] using hinv
  | enterExcitation hpending =>
    exact ⟨⟨phase, stage, h.enterExcitation hpending⟩, by simp, h.source, by simp, by simp⟩
  | enterAdc hpending hnone hnone5 =>
    obtain ⟨stage', hinv⟩ := h.enterAdc hpending hnone hnone5
    exact ⟨⟨phase, stage', hinv⟩, by simp, h.source, by simp, by simp⟩
  | enterTim5 hpending hnone5 =>
    obtain ⟨hcopied, hinv⟩ := h.enterTim5 hpending hnone5
    exact ⟨⟨_, stage, hinv⟩, by simp, h.source, by simp, fun _ => hcopied⟩
  | excitationStep hnone5 hpc =>
    obtain ⟨phase', hinv⟩ := h.excitationStep hnone5 hpc
    exact ⟨⟨phase', stage, hinv⟩, by simp, h.source, by simp, by simp⟩
  | adcStep hnone5 hpc =>
    obtain ⟨stage', hinv⟩ := h.adcStep hnone5 hpc
    exact ⟨⟨phase, stage', hinv⟩, by simp, h.source, by simp, by simp⟩
  | tim5Step ht =>
    obtain ⟨phase', stage', hinv⟩ := h.tim5Step hn ht
    exact ⟨⟨phase', stage', hinv⟩, by simp, h.source, by simp, by simp⟩
  | taskStep hnone hnone5 ht =>
    exact ⟨h.taskStep hnone hnone5 ht _, h.performed, h.source, by simp, by simp⟩

/-- **Every acquisition is consumed whole and in pairs.**  For every sample size from one
on (it is 312 in the source), from the state in which `ResmodTask` has enabled the
interrupt of `DMA1_Stream2`, and in every interleaving of the hardware, the four handlers
and `CalcTask` in which no source fires again while its own handler is active, every step
respects the handover.
SOURCE: dma1.cc:43-62, tim.cc:48-54, excitation.cc:110-116, calctask.cc:50-92 -/
theorem handedOver_of_noRefire (n : ℕ) (hn : 0 < n) (zero : α)
    (excitationFlag tim5Flag : Bool) (waveform : Channel → Vector α n)
    (events : List (Handover.Event α))
    (h : (handover α n).Along NoRefire
      (afterEnable zero excitationFlag tim5Flag waveform, ⟨[], 0, 0⟩) events) :
    (handover α n).Always HandedOver
      (afterEnable zero excitationFlag tim5Flag waveform, ⟨[], 0, 0⟩) events := by
  refine Machine.always_of_invariant
    (fun p => ∃ phase stage, HandoverInv phase stage p.1 p.2) NoRefire HandedOver ?_ ?_ h
  · rintro ⟨s, log⟩ e ⟨s', log'⟩ o ⟨phase, stage, hI⟩ hfire hstep
    obtain ⟨hs, hlog⟩ := Machine.observe_step_eq_some.mp hstep
    simp only at hs hlog
    subst hlog
    exact hI.step hn hfire hs
  · exact ⟨_, _, handoverInv_afterEnable zero excitationFlag tim5Flag waveform⟩

/-- One acquisition of one word in each channel, from the excitation to the calculation.
A timer update arrives while the handler of the excitation is active, and the timer
preempts it. -/
def oneAcquisition : List (Handover.Event ℕ) :=
  [.excitationComplete, .enterExcitation, .handlerStep, .handlerStep, .timerUpdate, .enterTim5,
    .tim5Step, .tim5Step, .tim5Step, .tim5Step, .tim5Step, .receive .voltage 7, .tim5Step,
    .tim5Step, .tim5Step, .service .voltage, .handlerStep, .receive .current 9,
    .enterAdc .voltage, .handlerStep, .service .current, .handlerStep, .handlerStep,
    .handlerStep, .handlerStep, .taskStep, .enterAdc .current, .handlerStep, .handlerStep,
    .handlerStep, .handlerStep, .handlerStep, .taskStep, .taskStep, .taskStep, .taskStep,
    .taskStep, .taskStep]

/-- The run respects the handover and calculates with the words of its acquisition. -/
theorem handedOver_oneAcquisition :
    (handover ℕ 1).Always HandedOver
        (afterEnable 0 false true fun _ => #v[5], ⟨[], 0, 0⟩) oneAcquisition ∧
      ((machine ℕ 1).exec (afterEnable 0 false true fun _ => #v[5]) oneAcquisition).map
          (fun r => r.2.flatten.map fun copies => (copies .voltage, copies .current)) =
        some [([7], [9])] :=
  ⟨handedOver_of_noRefire 1 (by decide) 0 false true (fun _ => #v[5]) oneAcquisition
    ⟨nofun, trivial, trivial, trivial, rfl, trivial, trivial, trivial, trivial, trivial, trivial,
      trivial, trivial, trivial, trivial, trivial, trivial, trivial, trivial, trivial, trivial,
      trivial, trivial, trivial, trivial, trivial, trivial, trivial, trivial, trivial, trivial,
      trivial, trivial, trivial, trivial, trivial, trivial, trivial, trivial⟩, rfl⟩

end Resmod.Analysis
