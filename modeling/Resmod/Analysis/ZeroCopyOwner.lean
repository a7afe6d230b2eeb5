import Resmod.Analysis.SspInterrupt
import Resmod.Analysis.ZeroCopyMutex

/-!
# One owner at a time, for the UART and for the SPI

The phases of the two peripherals.  With the completion interrupt disabled their moves change
the words that are on their way, and nothing else.  The handler of the UART ends with TC
cleared.  The handler of the SPI ends with TXEIE cleared and no word left to be read, so that
RXNEIE, which it sets, makes no interrupt.

Both handlers take flags for the end of a transfer that are also set in a gap between two
words.  A mutex that is given there can be obtained by another task during the transfer.
-/

set_option autoImplicit false

namespace Resmod.Analysis

open Resmod.Library Resmod.Model Resmod.Model.ZeroCopyTx

/-! ## The UART -/

namespace UartCycle

variable {u u' : Uart} {m : Move} {gave : Bool}

/-- All bytes have been moved and shifted out. -/
def Sent (u : Uart) : Prop := u.ndtr = 0 ∧ u.dr = false ∧ u.shift = false

/-- The UART has finished when nothing is left to move or to shift out. -/
theorem sent_iff : uart.finished u = true ↔ Sent u := by
  simp [uart, Sent, and_assoc]

/-- The handler is clearing TC, or it is not active and TC makes no interrupt. -/
def Rest (u : Uart) : Prop :=
  Sent u ∧ (u.handler = some .clearITPendingBit ∨
    u.handler = none ∧ (u.tcie = true → u.tc = false))

/-- All bytes are sent, and the interrupt is disabled. -/
def Masked (u : Uart) : Prop := Sent u ∧ u.tcie = false ∧ u.handler = none

/-- The interrupt is disabled, and the handler is not active. -/
def Busy (u : Uart) : Prop := u.tcie = false ∧ u.handler = none

/-- The handler has not given the mutex. -/
def Live (u : Uart) : Prop := u.handler ≠ some .clearITPendingBit

/-- With nothing on its way only the handler moves. -/
theorem Sent.move (h : Sent u) (hmove : u.move m = some (u', gave)) :
    m = .enterHandler ∨ m = .handlerStep := by
  obtain ⟨hndtr, -, hshift⟩ := h
  cases m with
  | dma => simp [Uart.move, hndtr] at hmove
  | wordShifted => simp [Uart.move, hshift] at hmove
  | enterHandler => exact .inl rfl
  | handlerStep => exact .inr rfl

/-- At rest the UART stays so and does not give the mutex. -/
theorem silent_rest : Silent uart Rest := by
  rintro u m u' gave ⟨hsent, hhandler⟩ hmove
  rcases hsent.move hmove with rfl | rfl
  · simp only [uart, Uart.move, Option.ite_none_right_eq_some] at hmove
    obtain ⟨⟨htcie, htc, hnone⟩, -⟩ := hmove
    rcases hhandler with hclear | ⟨-, hquiet⟩
    · exact absurd (hclear.symm.trans hnone) (by simp)
    · exact absurd (htc.symm.trans (hquiet htcie)) (by simp)
  · simp only [uart, Uart.move, Uart.handlerStep] at hmove
    rcases hhandler with hclear | ⟨hnone, -⟩
    · rw [hclear] at hmove
      cases hmove
      exact ⟨⟨hsent, .inr ⟨rfl, fun _ => rfl⟩⟩, rfl⟩
    · simp [hnone] at hmove

/-- With TCIE cleared and no handler, only words move. -/
theorem silent_busy : Silent uart Busy := by
  rintro u m u' gave ⟨htcie, hhandler⟩ hmove
  cases m with
  | dma =>
    simp only [uart, Uart.move, Uart.store, Option.ite_none_right_eq_some] at hmove
    obtain ⟨-, hmove⟩ := hmove
    cases hmove
    split <;> exact ⟨⟨htcie, hhandler⟩, rfl⟩
  | wordShifted =>
    simp only [uart, Uart.move, Option.ite_none_right_eq_some] at hmove
    obtain ⟨-, hmove⟩ := hmove
    cases hmove
    exact ⟨⟨htcie, hhandler⟩, rfl⟩
  | enterHandler => simp [uart, Uart.move, htcie] at hmove
  | handlerStep => simp [uart, Uart.move, Uart.handlerStep, hhandler] at hmove

/-- With its interrupt disabled the UART does not give the mutex. -/
theorem silent_masked : Silent uart Masked := by
  rintro u m u' gave ⟨hsent, htcie, hhandler⟩ hmove
  rcases hsent.move hmove with rfl | rfl
  · simp [uart, Uart.move, htcie] at hmove
  · simp [uart, Uart.move, Uart.handlerStep, hhandler] at hmove

/-- A move that does not give the mutex leaves it to be given. -/
theorem live_move (h : Live u) (hmove : u.move m = some (u', false)) : Live u' := by
  unfold Live at h ⊢
  cases m with
  | dma =>
    simp only [Uart.move, Uart.store, Option.ite_none_right_eq_some] at hmove
    obtain ⟨-, hmove⟩ := hmove
    cases hmove
    split <;> exact h
  | wordShifted =>
    simp only [Uart.move, Option.ite_none_right_eq_some] at hmove
    obtain ⟨-, hmove⟩ := hmove
    cases hmove
    exact h
  | enterHandler =>
    simp only [Uart.move, Option.ite_none_right_eq_some] at hmove
    obtain ⟨-, hmove⟩ := hmove
    cases hmove
    show some UartPlace.give ≠ some .clearITPendingBit
    decide
  | handlerStep =>
    simp only [Uart.move, Uart.handlerStep] at hmove
    split at hmove
    · cases hmove
    · cases hmove
    · exact absurd ‹_› h

/-- The handler gives the mutex in its first statement. -/
theorem handler_of_gave (hmove : u.move m = some (u', true)) :
    u' = { u with handler := some .clearITPendingBit } := by
  cases m with
  | dma => simp [Uart.move] at hmove
  | wordShifted => simp [Uart.move] at hmove
  | enterHandler => simp [Uart.move] at hmove
  | handlerStep =>
    simp only [Uart.move, Uart.handlerStep] at hmove
    split at hmove
    · cases hmove
    · cases hmove
      rfl
    · cases hmove

end UartCycle

/-- The phases of the UART. -/
def uartCycle : Cycle uart where
  Rest := UartCycle.Rest
  Masked := UartCycle.Masked
  Ready := UartCycle.Masked
  Busy := UartCycle.Busy
  Live := UartCycle.Live
  disable := by
    rintro u ⟨hsent, -⟩ hhandler
    exact ⟨hsent, rfl, by simpa [uart] using hhandler⟩
  prepare := fun _ h => h
  disableRequest := fun _ h => h
  start := fun _ _ h => h.2
  enableRequest := fun _ h => h
  enable := by
    rintro u ⟨-, hhandler⟩
    show u.handler ≠ _
    simp [hhandler]
  finished := fun _ h => UartCycle.sent_iff.mpr h.1
  silent_rest := UartCycle.silent_rest
  silent_masked := UartCycle.silent_masked
  silent_ready := UartCycle.silent_masked
  silent_busy := UartCycle.silent_busy
  live := fun _ _ _ h hmove => UartCycle.live_move h hmove
  ends := by
    intro u m u' _ hfinished hmove
    rw [UartCycle.handler_of_gave hmove]
    exact ⟨UartCycle.sent_iff.mp hfinished, .inl rfl⟩

/-! ## The SPI -/

namespace SspCycle

variable {receiver fullAssert : Bool} {p p' : Ssp} {m : Move} {gave : Bool}

/-- The handler has given the mutex. -/
def HasGiven : SspInterrupt.Place → Prop
  | .junkReadDR | .junkReadSR | .enableRXNE | .disableTXE => True
  | _ => False

/-- The handler is in its last statements, or no interrupt is enabled that has a cause. -/
def AtRest (s : SspInterrupt) : Prop :=
  match s.handler with
  | none => s.spi.txeie = false ∧ s.spi.rxne = false
  | some .junkReadDR => True
  | some .junkReadSR | some .enableRXNE | some .disableTXE => s.spi.rxne = false
  | some _ => False

/-- The transfer has finished, and no interrupt will give the mutex. -/
def Rest (p : Ssp) : Prop := Finished p.irq ∧ AtRest p.irq

/-- As `Rest`, with the interrupt for TXE disabled and no word received. -/
def Masked (p : Ssp) : Prop :=
  Finished p.irq ∧ p.irq.spi.txeie = false ∧ p.irq.spi.rxne = false ∧ p.irq.handler = none

/-- Both interrupts are disabled, and the handler is not active. -/
def Busy (p : Ssp) : Prop :=
  p.irq.spi.txeie = false ∧ p.irq.spi.rxneie = false ∧ p.irq.handler = none

/-- The transfer has finished, and no interrupt is enabled. -/
def Ready (p : Ssp) : Prop := Finished p.irq ∧ Busy p

/-- The handler has not given the mutex. -/
def Live (p : Ssp) : Prop := ∀ place, p.irq.handler = some place → ¬ HasGiven place

/-- The SSP has finished when nothing is left to move or to shift out. -/
theorem finished_iff : (ssp receiver fullAssert).finished p = true ↔ Finished p.irq := by
  simp [ssp, Finished, and_assoc]

/-- A move is a step of `SspInterrupt`, which gives the mutex if it has an output. -/
theorem move_eq_some (hmove : p.move receiver fullAssert m = some (p', gave)) :
    ∃ o, (SspInterrupt.machine receiver fullAssert).step p.irq (Ssp.event m) =
      some (p'.irq, o) ∧ gave = !o.isEmpty := by
  unfold Ssp.move at hmove
  split at hmove
  · cases hmove
  · obtain ⟨r, hr, heq⟩ := Option.map_eq_some_iff.mp hmove
    cases heq
    exact ⟨r.2, hr, rfl⟩

/-- With nothing on its way only the handler moves. -/
theorem event_of_finished {s s' : SspInterrupt} {o : List SspInterrupt.Output}
    (hfinished : Finished s)
    (hs : (SspInterrupt.machine receiver fullAssert).step s (Ssp.event m) = some (s', o)) :
    m = .enterHandler ∨ m = .handlerStep := by
  obtain ⟨hndtr, -, hshift⟩ := hfinished
  cases m with
  | dma => simp [SspInterrupt.machine, Ssp.event, hndtr] at hs
  | wordShifted => simp [SspInterrupt.machine, Ssp.event, hshift] at hs
  | enterHandler => exact .inl rfl
  | handlerStep => exact .inr rfl

/-- The last statements of the handler. -/
theorem AtRest.handlerStep {s s' : SspInterrupt} {o : List SspInterrupt.Output}
    (h : AtRest s) (hs : s.handlerStep receiver fullAssert = some (s', o)) :
    AtRest s' ∧ o = [] := by
  unfold AtRest at h
  unfold SspInterrupt.handlerStep at hs
  cases hhandler : s.handler with
  | none => simp [hhandler] at hs
  | some place =>
    rw [hhandler] at h hs
    cases place with
    | junkReadDR =>
      cases hs
      exact ⟨rfl, rfl⟩
    | junkReadSR =>
      cases hs
      exact ⟨(readSR_rxne _).trans h, rfl⟩
    | enableRXNE =>
      cases hs
      exact ⟨h, rfl⟩
    | disableTXE =>
      cases hs
      exact ⟨⟨rfl, h⟩, rfl⟩
    | _ => exact h.elim

/-- At rest the SSP stays so and does not give the mutex. -/
theorem silent_rest : Silent (ssp receiver fullAssert) Rest := by
  rintro p m p' gave ⟨hfinished, hrest⟩ hmove
  obtain ⟨o, hs, rfl⟩ := move_eq_some hmove
  rcases event_of_finished hfinished hs with rfl | rfl
  · simp only [SspInterrupt.machine, Ssp.event, Option.ite_none_right_eq_some] at hs
    obtain ⟨⟨hrequests, hnone⟩, -⟩ := hs
    rw [AtRest, hnone] at hrest
    obtain ⟨htxe, -⟩ | ⟨-, hrxne⟩ := hrequests
    · exact Bool.noConfusion (htxe.symm.trans hrest.1)
    · exact Bool.noConfusion (hrxne.symm.trans hrest.2)
  · obtain ⟨hrest', rfl⟩ := hrest.handlerStep hs
    exact ⟨⟨(handlerStep_frame hs).1.mpr hfinished, hrest'⟩, rfl⟩

/-- With both interrupts disabled and no handler, only words move. -/
theorem silent_busy : Silent (ssp receiver fullAssert) Busy := by
  rintro p m p' gave ⟨htxeie, hrxneie, hhandler⟩ hmove
  obtain ⟨o, hs, rfl⟩ := move_eq_some hmove
  cases m with
  | dma =>
    simp only [SspInterrupt.machine, Ssp.event, Option.ite_none_left_eq_some,
      Option.some.injEq, Prod.mk.injEq] at hs
    obtain ⟨-, hirq, rfl⟩ := hs
    refine ⟨?_, rfl⟩
    unfold Busy
    rw [← hirq]
    have henable := store_enable p.irq.spi
    exact ⟨henable.1.trans htxeie, henable.2.trans hrxneie, hhandler⟩
  | wordShifted =>
    simp only [SspInterrupt.machine, Ssp.event, Option.ite_none_right_eq_some,
      Option.some.injEq, Prod.mk.injEq] at hs
    obtain ⟨-, hirq, rfl⟩ := hs
    refine ⟨?_, rfl⟩
    unfold Busy
    rw [← hirq]
    have henable := shiftWord_enable p.irq.spi
    exact ⟨henable.1.trans htxeie, henable.2.trans hrxneie, hhandler⟩
  | enterHandler =>
    simp [SspInterrupt.machine, Ssp.event, SspInterrupt.Spi.Requests, htxeie, hrxneie] at hs
  | handlerStep =>
    simp [SspInterrupt.machine, Ssp.event, SspInterrupt.handlerStep, hhandler] at hs

/-- Nothing is on its way, nothing was received and no handler is active: nothing moves unless
TXEIE is set. -/
theorem silent_masked : Silent (ssp receiver fullAssert) Masked := by
  rintro p m p' gave ⟨hfinished, htxeie, hrxne, hhandler⟩ hmove
  obtain ⟨o, hs, rfl⟩ := move_eq_some hmove
  rcases event_of_finished hfinished hs with rfl | rfl
  · simp [SspInterrupt.machine, Ssp.event, SspInterrupt.Spi.Requests, htxeie, hrxne] at hs
  · simp [SspInterrupt.machine, Ssp.event, SspInterrupt.handlerStep, hhandler] at hs

/-- Before the stream is started the SSP does not give the mutex. -/
theorem silent_ready : Silent (ssp receiver fullAssert) Ready := by
  rintro p m p' gave ⟨hfinished, hbusy⟩ hmove
  obtain ⟨o, hs, -⟩ := move_eq_some hmove
  obtain ⟨htxeie, hrxneie, hhandler⟩ := hbusy
  rcases event_of_finished hfinished hs with rfl | rfl
  · simp [SspInterrupt.machine, Ssp.event, SspInterrupt.Spi.Requests, htxeie, hrxneie] at hs
  · simp [SspInterrupt.machine, Ssp.event, SspInterrupt.handlerStep, hhandler] at hs

/-- The handler has not given the mutex behind the test for an overrun. -/
theorem not_hasGiven_afterOverrun (sr : SspInterrupt.StatusReg) {place : SspInterrupt.Place}
    (h : SspInterrupt.Place.afterOverrun sr = some place) : ¬ HasGiven place := by
  unfold SspInterrupt.Place.afterOverrun at h
  split at h
  · cases h
    exact id
  · cases h

/-- A handler that has not given the mutex gives it in its next statement, or has not given it
behind it. -/
theorem handlerStep_of_live {s s' : SspInterrupt} {o : List SspInterrupt.Output}
    (h : ∀ place, s.handler = some place → ¬ HasGiven place)
    (hs : s.handlerStep receiver fullAssert = some (s', o)) :
    o = [] ∧ (∀ place, s'.handler = some place → ¬ HasGiven place) ∨
      o = [.gave] ∧ s' = { s with handler := some .junkReadDR } := by
  unfold SspInterrupt.handlerStep at hs
  cases hhandler : s.handler with
  | none => simp [hhandler] at hs
  | some place =>
    have hplace := h place hhandler
    rw [hhandler] at hs
    cases place with
    | readStatus =>
      cases hs
      refine .inl ⟨rfl, fun place hnext => ?_⟩
      dsimp only at hnext
      split at hnext
      · cases hnext
        exact id
      · exact not_hasGiven_afterOverrun _ hnext
    | overrunReadDR sr =>
      cases hs
      refine .inl ⟨rfl, fun place hnext => ?_⟩
      cases hnext
      exact id
    | overrunReadSR sr =>
      cases hs
      exact .inl ⟨rfl, fun place hnext => not_hasGiven_afterOverrun _ hnext⟩
    | receive sr =>
      simp only at hs
      split at hs
      · cases hs
        refine .inl ⟨rfl, fun place hnext => ?_⟩
        cases hnext
        exact id
      · cases hs
        refine .inl ⟨rfl, fun place hnext => ?_⟩
        dsimp only at hnext
        split at hnext
        · cases hnext
          exact id
        · cases hnext
    | give =>
      cases hs
      exact .inr ⟨rfl, rfl⟩
    | assertFailed => simp at hs
    | _ => exact absurd trivial hplace

/-- A move leaves the mutex to be given, or is the give of the handler. -/
theorem live_move (h : Live p) (hmove : p.move receiver fullAssert m = some (p', gave)) :
    gave = false ∧ Live p' ∨
      gave = true ∧ p'.irq = { p.irq with handler := some .junkReadDR } := by
  obtain ⟨o, hs, rfl⟩ := move_eq_some hmove
  cases m with
  | dma =>
    simp only [SspInterrupt.machine, Ssp.event, Option.ite_none_left_eq_some,
      Option.some.injEq, Prod.mk.injEq] at hs
    obtain ⟨-, hirq, rfl⟩ := hs
    refine .inl ⟨rfl, ?_⟩
    unfold Live
    rw [← hirq]
    exact h
  | wordShifted =>
    simp only [SspInterrupt.machine, Ssp.event, Option.ite_none_right_eq_some,
      Option.some.injEq, Prod.mk.injEq] at hs
    obtain ⟨-, hirq, rfl⟩ := hs
    refine .inl ⟨rfl, ?_⟩
    unfold Live
    rw [← hirq]
    exact h
  | enterHandler =>
    simp only [SspInterrupt.machine, Ssp.event, Option.ite_none_right_eq_some,
      Option.some.injEq, Prod.mk.injEq] at hs
    obtain ⟨-, hirq, rfl⟩ := hs
    refine .inl ⟨rfl, ?_⟩
    unfold Live
    rw [← hirq]
    intro place hplace
    cases hplace
    exact id
  | handlerStep =>
    rcases handlerStep_of_live h hs with ⟨rfl, hlive⟩ | ⟨rfl, hirq⟩
    · exact .inl ⟨rfl, hlive⟩
    · exact .inr ⟨rfl, hirq⟩

end SspCycle

/-- The phases of the SPI. -/
def sspCycle (receiver fullAssert : Bool) : Cycle (ssp receiver fullAssert) where
  Rest := SspCycle.Rest
  Masked := SspCycle.Masked
  Ready := SspCycle.Ready
  Busy := SspCycle.Busy
  Live := SspCycle.Live
  disable := by
    rintro p ⟨hfinished, hrest⟩ hhandler
    have hnone : p.irq.handler = none := by simpa [ssp] using hhandler
    rw [SspCycle.AtRest, hnone] at hrest
    exact ⟨hfinished, rfl, hrest.2, hnone⟩
  prepare := by
    rintro p ⟨hfinished, htxeie, -, hhandler⟩
    exact ⟨hfinished, htxeie, rfl, hhandler⟩
  disableRequest := fun _ h => h
  start := fun _ _ h => h.2
  enableRequest := fun _ h => h
  enable := by
    rintro p ⟨-, -, hhandler⟩ place hplace
    exact absurd (hhandler.symm.trans hplace) (by simp)
  finished := fun _ h => SspCycle.finished_iff.mpr h.1
  silent_rest := SspCycle.silent_rest
  silent_masked := SspCycle.silent_masked
  silent_ready := SspCycle.silent_ready
  silent_busy := SspCycle.silent_busy
  live := by
    intro p m p' hlive hmove
    rcases SspCycle.live_move hlive hmove with ⟨-, hlive'⟩ | ⟨hgave, -⟩
    · exact hlive'
    · exact Bool.noConfusion hgave
  ends := by
    intro p m p' hlive hfinished hmove
    rcases SspCycle.live_move hlive hmove with ⟨hgave, -⟩ | ⟨-, hirq⟩
    · exact Bool.noConfusion hgave
    · have hsent : Finished p.irq := SspCycle.finished_iff.mp hfinished
      unfold SspCycle.Rest
      rw [hirq]
      exact ⟨hsent, trivial⟩

/-! ## Runs -/

/-- The UART is at rest at the start. -/
theorem rest_uart_initial : uartCycle.Rest Uart.initial :=
  ⟨⟨rfl, rfl, rfl⟩, .inr ⟨rfl, fun h => Bool.noConfusion h⟩⟩

/-- The SSP is at rest at the start. -/
theorem rest_ssp_initial (receiver fullAssert ovr drRead rxneie : Bool) :
    (sspCycle receiver fullAssert).Rest (Ssp.initial ovr drRead rxneie) :=
  ⟨⟨rfl, rfl, rfl⟩, rfl, rfl⟩

section Runs

variable {τ : Type*} [DecidableEq τ]

/-- **When the peripheral has one owner at a time.**  In every interleaving of any tasks with
the hardware and the handler in which the handler gives the mutex only when all bytes have
been sent, no task obtains the mutex and no other transfer is started from when a task obtains
it until the interrupt that ends its transfer, if and only if no task obtains it between the
`xSemaphoreGive` of the macro and the `xSemaphoreTake` after it.
SOURCE: FreeRTOS_stm32f4_uart.c:147-191, 502-545, FreeRTOS_stm32f4_ssp.c:192-240, 647-798,
IOUtils_ZeroCopyTx.h:117-151 -/
theorem exclusive_iff (fullAssert : Bool) (events : List (Event τ)) :
    ((owned uart fullAssert).Along (GivesAtTheEnd uart)
        (ZeroCopyTx.initial Uart.initial, none) events →
      ((owned uart fullAssert).Always (Exclusive uart)
          (ZeroCopyTx.initial Uart.initial, none) events ↔
        (owned uart fullAssert).Always (fun p e _ _ => NotBetween p e)
          (ZeroCopyTx.initial Uart.initial, none) events)) ∧
    ∀ receiver ovr drRead rxneie,
      (owned (ssp receiver fullAssert) fullAssert).Along (GivesAtTheEnd (ssp receiver fullAssert))
        (ZeroCopyTx.initial (Ssp.initial ovr drRead rxneie), none) events →
      ((owned (ssp receiver fullAssert) fullAssert).Always (Exclusive (ssp receiver fullAssert))
          (ZeroCopyTx.initial (Ssp.initial ovr drRead rxneie), none) events ↔
        (owned (ssp receiver fullAssert) fullAssert).Always (fun p e _ _ => NotBetween p e)
          (ZeroCopyTx.initial (Ssp.initial ovr drRead rxneie), none) events) :=
  ⟨fun hend => uartCycle.exclusive_iff_notBetween fullAssert rest_uart_initial hend,
    fun receiver ovr drRead rxneie hend =>
      (sspCycle receiver fullAssert).exclusive_iff_notBetween fullAssert
        (rest_ssp_initial receiver fullAssert ovr drRead rxneie) hend⟩

end Runs

/-- Task `t` obtains the mutex and calls the write function, which executes `n` statements. -/
def writeOf (t xBytes n : ℕ) : List (Event ℕ) :=
  .obtain t :: .run t :: .call t 0x20000000 xBytes :: List.replicate n (.run t)

/-- One byte is sent, and the handler gives the mutex behind it. -/
def sentByte (handlerSteps : ℕ) : List (Event ℕ) :=
  .move .dma :: .move .wordShifted :: .move .enterHandler ::
    List.replicate handlerSteps (.move .handlerStep)

/-- Task 0 sends a byte through each of the peripherals, and task 1 obtains the mutex after the
interrupt. -/
theorem exclusive_iff_oneByte :
    ((owned uart true).Always (Exclusive uart) (ZeroCopyTx.initial Uart.initial, none)
        (writeOf 0 1 13 ++ sentByte 2 ++ [.obtain 1]) ↔
      (owned uart true).Always (fun p e _ _ => NotBetween p e)
        (ZeroCopyTx.initial Uart.initial, none) (writeOf 0 1 13 ++ sentByte 2 ++ [.obtain 1])) ∧
    ((owned (ssp true true) true).Always (Exclusive (ssp true true))
        (ZeroCopyTx.initial (Ssp.initial false false true), none)
        (writeOf 0 1 13 ++ sentByte 7 ++ [.obtain 1]) ↔
      (owned (ssp true true) true).Always (fun p e _ _ => NotBetween p e)
        (ZeroCopyTx.initial (Ssp.initial false false true), none)
        (writeOf 0 1 13 ++ sentByte 7 ++ [.obtain 1])) :=
  ⟨(exclusive_iff true _).1 (by decide), (exclusive_iff true _).2 true false false true (by decide)⟩

/-- A second task that waits for the mutex obtains it while the first stands before
`xTask = NULL`, and starts its transfer before the interrupt that ends the first.  Of two
bytes the second has not been moved when the first has been sent: the handler gives the mutex,
and the other task starts its transfer as well. -/
theorem not_exclusive_between :
    ((¬ (owned uart true).Always (Exclusive uart) (ZeroCopyTx.initial Uart.initial, none)
        (writeOf 0 1 9 ++ writeOf 1 1 7) ∧
      ((owned uart true).outcome (ZeroCopyTx.initial Uart.initial, none)
        (writeOf 0 1 9 ++ writeOf 1 1 7)).map (·.2) =
        some [.obtained 0, .started 0, .obtained 1, .started 1]) ∧
    ¬ (owned (ssp true true) true).Always (Exclusive (ssp true true))
        (ZeroCopyTx.initial (Ssp.initial false false true), none)
        (writeOf 0 1 9 ++ writeOf 1 1 7) ∧
      ((owned (ssp true true) true).outcome
        (ZeroCopyTx.initial (Ssp.initial false false true), none)
        (writeOf 0 1 9 ++ writeOf 1 1 7)).map (·.2) =
        some [.obtained 0, .started 0, .obtained 1, .started 1]) ∧
    (¬ (owned uart true).Always (Exclusive uart) (ZeroCopyTx.initial Uart.initial, none)
        (writeOf 0 2 13 ++ sentByte 2 ++ writeOf 1 1 7) ∧
      ((owned uart true).outcome (ZeroCopyTx.initial Uart.initial, none)
        (writeOf 0 2 13 ++ sentByte 2 ++ writeOf 1 1 7)).map (·.2) =
        some [.obtained 0, .started 0, .returned 0 2, .gave, .obtained 1, .started 1]) ∧
    ¬ (owned (ssp true true) true).Always (Exclusive (ssp true true))
        (ZeroCopyTx.initial (Ssp.initial false false true), none)
        (writeOf 0 2 13 ++ sentByte 7 ++ writeOf 1 1 7) ∧
      ((owned (ssp true true) true).outcome
        (ZeroCopyTx.initial (Ssp.initial false false true), none)
        (writeOf 0 2 13 ++ sentByte 7 ++ writeOf 1 1 7)).map (·.2) =
        some [.obtained 0, .started 0, .returned 0 2, .gave, .obtained 1, .started 1] := by
  decide

end Resmod.Analysis
