import Resmod.Analysis.ZeroCopyOwner

/-!
# A zero-copy write without the mutex

One call of the write function by a task that the driver has not recorded as the holder, with
nothing else going on.  The macro rejects the write and sets the return value to 0; the code
around it runs in this case too.  Before the macro it disables the completion interrupt, and the
UART clears TC; behind it the mutex, which the macro is taken to have given, is taken, and the
interrupt enabled.

`write_of_rejected` says what that leaves, for both drivers.  A mutex that was available is
gone, and so is a completion of the UART that was pending: `not_obtained_of_lost` says that no
task obtains the mutex after that.
-/

set_option autoImplicit false

namespace Resmod.Analysis

open Resmod.Library Resmod.Model Resmod.Model.ZeroCopyTx

variable {σ : Type} {τ : Type*} [DecidableEq τ]

namespace ZeroCopyCall

/-- At most `n` statements of the task, up to its return or to a failed assertion. -/
def finish (D : Device σ) (fullAssert : Bool) (t : τ) :
    ℕ → ZeroCopyTx σ τ → Option (ZeroCopyTx σ τ × List (Action τ))
  | 0, _ => none
  | n + 1, s =>
    if s.halted = true ∨ s.place t = .idle then some (s, [])
    else
      match runTask D fullAssert s t with
      | none => none
      | some (s', o) => (finish D fullAssert t n s').map fun r => (r.1, o ++ r.2)

/-- The zero-copy branch of the write function, called by `t`: what it leaves and what it has
done.  No path has more than 13 statements. -/
def write (D : Device σ) (fullAssert : Bool) (t : τ) (pvBuffer : UInt32) (xBytes : ℕ)
    (s : ZeroCopyTx σ τ) : Option (ZeroCopyTx σ τ × List (Action τ)) :=
  finish D fullAssert t 14 (s.goTo t (.writing (.assertReached pvBuffer) xBytes))

/-- The call returns 0, starts no transfer, and leaves the mutex, the holder and the peripheral
as they were. -/
def Rejects (D : Device σ) (fullAssert : Bool) (t : τ) (pvBuffer : UInt32) (xBytes : ℕ)
    (s : ZeroCopyTx σ τ) : Prop :=
  write D fullAssert t pvBuffer xBytes s = some (s.goTo t .idle, [.returned t 0])

end ZeroCopyCall

open ZeroCopyCall

variable {D : Device σ} {fullAssert : Bool} {s : ZeroCopyTx σ τ} {t : τ}

/-! ## A call is a run -/

/-- The statements of a task do not make the handler active. -/
structure KeepsHandler (D : Device σ) : Prop where
  disableInterrupt : ∀ d, D.inHandler (D.disableInterrupt d) = D.inHandler d
  prepare : ∀ d, D.inHandler (D.prepare d) = D.inHandler d
  disableRequest : ∀ d, D.inHandler (D.disableRequest d) = D.inHandler d
  startStream : ∀ n d, D.inHandler (D.startStream n d) = D.inHandler d
  enableRequest : ∀ d, D.inHandler (D.enableRequest d) = D.inHandler d
  enableInterrupt : ∀ d, D.inHandler (D.enableInterrupt d) = D.inHandler d

/-- The write does not touch the handler of the UART. -/
theorem keepsHandler_uart : KeepsHandler uart :=
  ⟨fun _ => rfl, fun _ => rfl, fun _ => rfl, fun _ _ => rfl, fun _ => rfl, fun _ => rfl⟩

/-- The write does not touch the handler of the SSP. -/
theorem keepsHandler_ssp (receiver : Bool) : KeepsHandler (ssp receiver fullAssert) :=
  ⟨fun _ => rfl, fun _ => rfl, fun _ => rfl, fun _ _ => rfl, fun _ => rfl, fun _ => rfl⟩

/-- No statement of a task touches the handler. -/
theorem KeepsHandler.runTask (hkeeps : KeepsHandler D) {s' : ZeroCopyTx σ τ}
    {o : List (Action τ)} (hrun : runTask D fullAssert s t = some (s', o)) :
    D.inHandler s'.device = D.inHandler s.device := by
  unfold ZeroCopyTx.runTask at hrun
  split at hrun
  · cases hrun
  · cases hrun
  · cases hrun
    rfl
  · rename_i statement xBytes _
    obtain rfl : (runStatement D fullAssert s t xBytes statement).1 = s' :=
      congrArg Prod.fst (Option.some.inj hrun)
    cases statement with
    | assertReached pvBuffer =>
      rw [runStatement]
      split <;> rfl
    | assertTaken =>
      rw [runStatement, ZeroCopyTx.assertTaken]
      split <;> rfl
    | checkTask =>
      rw [runStatement]
      split <;> rfl
    | disableInterrupt => exact hkeeps.disableInterrupt _
    | prepare => exact hkeeps.prepare _
    | disableRequest => exact hkeeps.disableRequest _
    | startStream => exact hkeeps.startStream _ _
    | enableRequest => exact hkeeps.enableRequest _
    | enableInterrupt => exact hkeeps.enableInterrupt _
    | _ => rfl

/-- A call is a run of the peripheral in which only the task goes on. -/
theorem outcome_of_finish (hkeeps : KeepsHandler D) {n : ℕ}
    {r : ZeroCopyTx σ τ × List (Action τ)} (hhandler : D.inHandler s.device = false)
    (h : finish D fullAssert t n s = some r) :
    ∃ k, (machine D fullAssert).outcome s (List.replicate k (.run t)) = some r := by
  induction n generalizing s r with
  | zero => cases h
  | succ n ih =>
    rw [finish] at h
    by_cases hend : s.halted = true ∨ s.place t = .idle
    · rw [if_pos hend] at h
      cases h
      exact ⟨0, rfl⟩
    · rw [if_neg hend] at h
      cases hrun : runTask D fullAssert s t with
      | none => simp [hrun] at h
      | some p =>
        rw [hrun] at h
        obtain ⟨r', hrest, rfl⟩ := Option.map_eq_some_iff.mp h
        have hkept := (hkeeps.runTask hrun).trans hhandler
        obtain ⟨k, hk⟩ := ih hkept hrest
        have hstep : (machine D fullAssert).step s (.run t) = some (p.1, p.2) := by
          simp only [machine, step, if_neg (fun hh => hend (.inl hh)), hhandler]
          exact hrun
        refine ⟨k + 1, ?_⟩
        rw [List.replicate_succ, Machine.outcome_cons_of_step hstep, hk]
        rfl

/-! ## What a rejected call leaves -/

/-- The peripheral behind a rejected write. -/
def leftBehind (D : Device σ) (d : σ) : σ := D.enableInterrupt (D.prepare (D.disableInterrupt d))

/-- No assertion of the call fails. -/
def Passes (fullAssert : Bool) (pvBuffer : UInt32) (s : ZeroCopyTx σ τ) : Prop :=
  fullAssert = true → ccmEnd < pvBuffer ∧ s.mutex = false

/-- A write that no assertion stops returns 0 without a transfer; it has taken the mutex and
gone through the statements around the macro. -/
theorem write_of_rejected {pvBuffer : UInt32} (xBytes : ℕ) (hhalted : s.halted = false)
    (hother : s.xTask ≠ some t) (hpasses : Passes fullAssert pvBuffer s) :
    write D fullAssert t pvBuffer xBytes s =
      some ({ s with mutex := false, device := leftBehind D s.device }.goTo t .idle,
        [.returned t 0]) := by
  have hreached : ¬ (fullAssert = true ∧ pvBuffer ≤ ccmEnd) :=
    fun h => UInt32.not_le.mpr (hpasses h.1).1 h.2
  have htaken : ¬ (fullAssert = true ∧ s.mutex = true) :=
    fun h => Bool.noConfusion ((hpasses h.1).2.symm.trans h.2)
  unfold write
  cases hdriver : D.driver with
  | uart =>
    simp [finish, runTask, runStatement, goTo, ZeroCopyTx.assertTaken, hdriver, hhalted, hother,
      hreached, htaken, Driver.afterReached, Driver.afterTaken, Driver.afterPrepare, leftBehind]
  | ssp =>
    simp [finish, runTask, runStatement, goTo, ZeroCopyTx.assertTaken, hdriver, hhalted, hother,
      hreached, htaken, Driver.afterReached, Driver.afterTaken, Driver.afterPrepare, leftBehind]

/-- The address is in the core coupled memory, or the mutex is available: the call does not
come to its end. -/
theorem write_of_not_passes {pvBuffer : UInt32} (xBytes : ℕ) (hhalted : s.halted = false)
    (hfails : ¬ Passes fullAssert pvBuffer s) :
    ∃ s', write D fullAssert t pvBuffer xBytes s = some (s', []) := by
  have hassert : fullAssert = true := by
    by_contra hoff
    exact hfails fun hon => absurd hon hoff
  subst hassert
  unfold write
  by_cases hreached : ccmEnd < pvBuffer
  · have hmutex : s.mutex = true := by
      by_contra hgone
      exact hfails fun _ => ⟨hreached, by simpa using hgone⟩
    have hbelow : ¬ pvBuffer ≤ ccmEnd := UInt32.not_le.mpr hreached
    cases hdriver : D.driver with
    | uart =>
      simp [finish, runTask, runStatement, goTo, ZeroCopyTx.assertTaken, hdriver, hhalted, hmutex,
        hbelow, Driver.afterReached]
    | ssp =>
      simp [finish, runTask, runStatement, goTo, ZeroCopyTx.assertTaken, hdriver, hhalted, hmutex,
        hbelow, Driver.afterReached, Driver.afterPrepare]
  · have hbelow : pvBuffer ≤ ccmEnd := UInt32.not_lt.mp hreached
    simp [finish, runTask, runStatement, goTo, hhalted, hbelow]

/-- **When a rejected write has no effect**, for both drivers: no assertion stops it, the mutex
is not available, and the peripheral is as the statements around the macro leave it. -/
theorem rejects_iff_leftBehind {pvBuffer : UInt32} (xBytes : ℕ) (hhalted : s.halted = false)
    (hother : s.xTask ≠ some t) :
    Rejects D fullAssert t pvBuffer xBytes s ↔
      (fullAssert = true → ccmEnd < pvBuffer) ∧ s.mutex = false ∧
        leftBehind D s.device = s.device := by
  unfold Rejects
  by_cases hpasses : Passes fullAssert pvBuffer s
  · have hreached : fullAssert = true → ccmEnd < pvBuffer := fun h => (hpasses h).1
    rw [write_of_rejected xBytes hhalted hother hpasses]
    simp only [goTo, Option.some.injEq, Prod.mk.injEq, ZeroCopyTx.mk.injEq, and_true, true_and,
      eq_true hreached]
    rw [eq_comm]
  · obtain ⟨s', hwrite⟩ := write_of_not_passes (D := D) (t := t) xBytes hhalted hpasses
    rw [hwrite]
    apply iff_of_false
    · simp
    · rintro ⟨hreached, hmutex, -⟩
      exact hpasses fun h => ⟨hreached h, hmutex⟩

/-! ## A mutex that is lost -/

/-- The mutex is not available, every task is outside, and no interrupt will give it. -/
structure Lost (C : Cycle D) (s : ZeroCopyTx σ τ) : Prop where
  mutex : s.mutex = false
  idle : ∀ u, s.place u = .idle
  rest : C.Rest s.device

omit [DecidableEq τ] in
/-- A mutex that is lost stays lost when the peripheral moves. -/
theorem Lost.move {C : Cycle D} (h : Lost C s) {m : Move} {r : σ × Bool}
    (hmove : D.move s.device m = some r) :
    Lost C (afterMove s r).1 ∧ (afterMove s r).2 = [] := by
  obtain ⟨d, gave⟩ := r
  obtain ⟨hrest, rfl⟩ := C.silent_rest _ _ _ _ h.rest hmove
  exact ⟨⟨h.mutex, h.idle, hrest⟩, rfl⟩

/-- **A lost mutex stays lost**: in no run is it obtained or given. -/
theorem not_obtained_of_lost {C : Cycle D} (h : Lost C s) (events : List (Event τ)) :
    (machine D fullAssert).Always (fun _ _ s' o => s'.mutex = false ∧ o = []) s events := by
  apply Machine.always_of_step (Lost C) _ _ h
  intro s e s' o hlost hstep
  simp only [machine, Option.ite_none_left_eq_some] at hstep
  obtain ⟨-, hstep⟩ := hstep
  cases e with
  | move m =>
    obtain ⟨r, hmove, hr⟩ := Option.map_eq_some_iff.mp hstep
    obtain ⟨hlost', hsilent⟩ := hlost.move hmove
    rw [hr] at hlost' hsilent
    exact ⟨hlost', hlost'.mutex, hsilent⟩
  | obtain u =>
    simp only [step, taskStep, hlost.mutex, Bool.false_eq_true, if_false,
      Option.ite_none_left_eq_some, Option.ite_none_right_eq_some] at hstep
    obtain ⟨-, -, hstep⟩ := hstep
    cases hstep
    exact ⟨hlost, hlost.mutex, rfl⟩
  | call u pvBuffer xBytes => simp [step, taskStep, hlost.idle u] at hstep
  | run u => simp [step, taskStep, runTask, hlost.idle u] at hstep

/-! ## The two drivers -/

/-- **A write without the mutex has no effect** exactly if no assertion stops it, the mutex is
not available, and the interrupt is enabled and nothing else is pending: TC is clear on a UART,
the interrupt for RXNE is disabled on an SPI.
SOURCE: FreeRTOS_stm32f4_uart.c:147-191, FreeRTOS_stm32f4_ssp.c:192-240,
IOUtils_ZeroCopyTx.h:117-151 -/
theorem rejects_iff (fullAssert : Bool) (t : τ) (pvBuffer : UInt32) (xBytes : ℕ) :
    (∀ s : ZeroCopyTx Uart τ, s.halted = false → s.xTask ≠ some t →
      (Rejects uart fullAssert t pvBuffer xBytes s ↔
        (fullAssert = true → ccmEnd < pvBuffer) ∧ s.mutex = false ∧ s.device.tcie = true ∧
          s.device.tc = false)) ∧
    ∀ receiver, ∀ s : ZeroCopyTx Ssp τ, s.halted = false → s.xTask ≠ some t →
      (Rejects (ssp receiver fullAssert) fullAssert t pvBuffer xBytes s ↔
        (fullAssert = true → ccmEnd < pvBuffer) ∧ s.mutex = false ∧
          s.device.irq.spi.txeie = true ∧ s.device.irq.spi.rxneie = false) := by
  constructor
  · intro s hhalted hother
    rw [rejects_iff_leftBehind xBytes hhalted hother]
    have hdevice : leftBehind uart s.device = s.device ↔
        s.device.tcie = true ∧ s.device.tc = false := by
      cases s.device
      simp [leftBehind, uart, eq_comm, and_comm]
    rw [hdevice]
  · intro receiver s hhalted hother
    rw [rejects_iff_leftBehind xBytes hhalted hother]
    have hdevice : leftBehind (ssp receiver fullAssert) s.device = s.device ↔
        s.device.irq.spi.txeie = true ∧ s.device.irq.spi.rxneie = false := by
      obtain ⟨⟨ndtr, ⟨dr, shift, rxne, ovr, drRead, txeie, rxneie⟩, returned, handler⟩, request⟩ :=
        s.device
      simp [leftBehind, ssp, Ssp.withSpi, eq_comm]
    rw [hdevice]

/-- Task 1 has obtained the mutex for its second transfer, and task 0 is rejected by the UART;
a transfer of task 1 is under way, and task 0 is rejected by the SPI. -/
theorem rejects_bystander :
    Rejects uart true (0 : Fin 2) 0x20000000 8
        ⟨false, some 1, ⟨0, true, false, false, false, true, none⟩, fun _ => .idle, false⟩ ∧
      Rejects (ssp true true) true (0 : Fin 2) 0x20000000 8
        ⟨false, none, ⟨⟨5, ⟨true, true, false, false, false, true, false⟩, true, none⟩, true⟩,
          fun _ => .idle, false⟩ :=
  ⟨((rejects_iff true 0 0x20000000 8).1 _ rfl (by decide)).mpr (by decide),
    ((rejects_iff true 0 0x20000000 8).2 true _ rfl (by decide)).mpr (by decide)⟩

/-- The transfer of a task is done and the interrupt for it pending, when task 0 is rejected. -/
def completed : ZeroCopyTx Uart (Fin 2) :=
  ⟨false, none, ⟨0, true, false, false, true, true, none⟩, fun _ => .idle, false⟩

/-- Task 1 is in its write to an SPI, before the statement that starts the stream. -/
def beforeStream : ZeroCopyTx Ssp (Fin 2) :=
  ⟨false, some 1, Ssp.initial false false false,
    fun u => if u = 1 then .writing .startStream 8 else .idle, false⟩

/-- On a peripheral that nobody uses, the write returns 0 and takes the mutex; with assertions
it does not return.  A completion that was pending is gone: the mutex is lost for ever.  During
the write of another task to an SPI the interrupt for TXE is enabled. -/
theorem not_rejects_unused :
    ¬ Rejects uart false (0 : Fin 2) 0x20000000 8 (initial Uart.initial) ∧
      ¬ Rejects uart true (0 : Fin 2) 0x20000000 8 (initial Uart.initial) ∧
      (¬ Rejects uart true (0 : Fin 2) 0x20000000 8 completed ∧
        ((machine uart true).outcome completed
          [.move .enterHandler, .move .handlerStep, .move .handlerStep, .obtain 1]).map (·.2) =
            some [.gave, .obtained 1] ∧
        ∃ s, write uart true (0 : Fin 2) 0x20000000 8 completed = some (s, [.returned 0 0]) ∧
          ∀ events, (machine uart true).Always (fun _ _ s' o => s'.mutex = false ∧ o = []) s
            events) ∧
      ¬ Rejects (ssp true true) true (0 : Fin 2) 0x20000000 8 beforeStream := by
  refine ⟨?_, ?_, ⟨?_, by decide, ?_⟩, ?_⟩
  · rw [rejects_iff_leftBehind 8 rfl (by decide)]
    decide
  · rw [rejects_iff_leftBehind 8 rfl (by decide)]
    decide
  · rw [rejects_iff_leftBehind 8 rfl (by decide)]
    decide
  · refine ⟨_, write_of_rejected 8 rfl (by decide) fun _ => ⟨by decide, rfl⟩, fun events => ?_⟩
    apply not_obtained_of_lost (C := uartCycle)
    refine ⟨rfl, ?_, ⟨rfl, rfl, rfl⟩, .inr ⟨rfl, fun _ => rfl⟩⟩
    decide
  · rw [rejects_iff_leftBehind 8 rfl (by decide)]
    intro h
    exact Bool.noConfusion (congrArg (·.irq.spi.txeie) h.2.2)

end Resmod.Analysis
