import Resmod.Model.SspInterrupt

/-!
# A zero-copy buffer is released once, after it has been sent

The handler takes `RXNE` and `TXE` together for the end of the transfer.  Both are also set
between two words, when the stream is late, and behind the word before the last one; and once
it has given the mutex it enables the interrupt for `RXNE`, so that every later word makes it
give again.  As no flag tells the last word from another, the buffer is released once, and
after it has been sent, in the runs in which the handler first finds both flags set when all
words have been received, and discards no word after that in a run in which it has not.

The invariant has three phases: the handler waits for both flags, it has found them and
executes the statements up to its end, or it has done so and no interrupt comes any more.
-/

set_option autoImplicit false

namespace Resmod.Analysis

open Resmod.Library Resmod.Model Resmod.Model.SspInterrupt

/-- The number of times the mutex was given is recorded. -/
def releases (receiver fullAssert : Bool) : Machine (SspInterrupt × ℕ) Event Output :=
  (machine receiver fullAssert).observe fun given _ _ _ o => given + o.count .gave

/-- All words have been moved, shifted out and received. -/
def Finished (s : SspInterrupt) : Prop :=
  s.ndtr = 0 ∧ s.spi.dr = false ∧ s.spi.shift = false

instance (s : SspInterrupt) : Decidable (Finished s) := by
  unfold Finished
  infer_instance

/-- The next interrupt will find both flags set. -/
def ReleaseDue (s : SspInterrupt) : Prop := s.spi.txeie = true ∧ s.spi.sr.Both

instance (s : SspInterrupt) : Decidable (ReleaseDue s) := by
  unfold ReleaseDue
  infer_instance

/-- A step keeps to one release of the buffer, after it has been moved. -/
structure ReleasedOnce (p : SspInterrupt × ℕ) (_ : Event) (p' : SspInterrupt × ℕ)
    (_ : List Output) : Prop where
  once : p'.2 ≤ 1
  moved : p'.2 ≠ p.2 → p.1.ndtr = 0
  running : p'.1.handler ≠ some .assertFailed
  /-- At the end it has been given, or the next interrupt will give it. -/
  due : Finished p'.1 → p'.1.returned = true → p'.1.handler = none →
    p'.2 = 1 ∨ ReleaseDue p'.1

/-- Both flags are found set only at the end; a handler that has not found both discards no
word at the end, and is not stopped by its assertion. -/
def FlagsAtTheEnd (receiver fullAssert : Bool) (s : SspInterrupt) : Event → Prop
  | .handlerStep =>
    match s.handler with
    | some .readStatus => s.spi.sr.Both → Finished s
    | some (.overrunReadDR sr) => sr.Both ∨ ¬ Finished s
    | some (.receive sr) =>
      if receiver then sr.Both ∨ ¬ Finished s else fullAssert = false
    | _ => True
  | _ => True

instance (receiver fullAssert : Bool) (s : SspInterrupt) (a : Event) :
    Decidable (FlagsAtTheEnd receiver fullAssert s a) := by
  cases a with
  | handlerStep =>
    unfold FlagsAtTheEnd
    dsimp only
    split <;> infer_instance
  | _ => exact .isTrue trivial

/-! ## The registers -/

/-- A read of `SR` leaves `DR`. -/
@[simp] theorem readSR_dr (u : Spi) : u.readSR.dr = u.dr := by
  unfold Spi.readSR
  split <;> rfl

/-- A read of `SR` leaves the shift register. -/
@[simp] theorem readSR_shift (u : Spi) : u.readSR.shift = u.shift := by
  unfold Spi.readSR
  split <;> rfl

/-- A read of `SR` leaves `RXNE`. -/
@[simp] theorem readSR_rxne (u : Spi) : u.readSR.rxne = u.rxne := by
  unfold Spi.readSR
  split <;> rfl

/-- A read of `SR` leaves the enable bit of the transmitter. -/
@[simp] theorem readSR_txeie (u : Spi) : u.readSR.txeie = u.txeie := by
  unfold Spi.readSR
  split <;> rfl

/-- A read of `SR` leaves the enable bit of the receiver. -/
@[simp] theorem readSR_rxneie (u : Spi) : u.readSR.rxneie = u.rxneie := by
  unfold Spi.readSR
  split <;> rfl

/-- A word that has been shifted is there to be read. -/
theorem shiftWord_rxne (u : Spi) : u.shiftWord.rxne = true := by
  unfold Spi.shiftWord
  split
  · assumption
  · rfl

/-- Neither the stream nor the shift register touches the interrupt enable bits. -/
theorem store_enable (u : Spi) : u.store.txeie = u.txeie ∧ u.store.rxneie = u.rxneie := by
  unfold Spi.store
  split <;> exact ⟨rfl, rfl⟩

/-- A word on the bus leaves both enable bits. -/
theorem shiftWord_enable (u : Spi) :
    u.shiftWord.txeie = u.txeie ∧ u.shiftWord.rxneie = u.rxneie := by
  unfold Spi.shiftWord
  split <;> exact ⟨rfl, rfl⟩

/-- A word that has just been stored is still to be received. -/
theorem store_busy_or (u : Spi) : u.store.dr = true ∨ u.store.shift = true := by
  unfold Spi.store
  split
  · exact .inl rfl
  · exact .inr rfl

/-! ## The invariant -/

/-- The handler, if it is active, has not found both flags. -/
def Waiting : Option Place → Prop
  | none => True
  | some .readStatus => True
  | some (.overrunReadDR sr) => ¬ sr.Both
  | some (.overrunReadSR sr) => ¬ sr.Both
  | some (.receive sr) => sr.rxne = true ∧ sr.txe = false
  | some _ => False

/-- The handler has found both flags. -/
def Releasing : Place → Prop
  | .readStatus => False
  | .overrunReadDR sr => sr.Both
  | .overrunReadSR sr => sr.Both
  | .receive sr => sr.Both
  | .assertFailed => False
  | _ => True

/-- How often a handler that has found both flags has given the mutex. -/
def givenAt : Place → ℕ
  | .junkReadDR => 1
  | .junkReadSR => 1
  | .enableRXNE => 1
  | .disableTXE => 1
  | _ => 0

/-- `DR` has been read after the release. -/
def AfterJunkRead : Place → Prop
  | .junkReadSR => True
  | .enableRXNE => True
  | .disableTXE => True
  | _ => False

/-- The three phases of the release. -/
inductive ReleaseInv (s : SspInterrupt) : ℕ → Prop
  | waiting (hplace : Waiting s.handler) (hrxneie : s.spi.rxneie = false)
      (htxeie : s.spi.txeie = s.returned) (hreturned : s.handler ≠ none → s.returned = true)
      (hrxne : Finished s → s.spi.rxne = true) : ReleaseInv s 0
  | releasing (place : Place) (hhandler : s.handler = some place) (hplace : Releasing place)
      (hfinished : Finished s) (hreturned : s.returned = true)
      (hread : AfterJunkRead place → s.spi.rxne = false) : ReleaseInv s (givenAt place)
  | released (hhandler : s.handler = none) (hfinished : Finished s)
      (hreturned : s.returned = true) (hrxne : s.spi.rxne = false)
      (htxeie : s.spi.txeie = false) : ReleaseInv s 1

variable {s s' : SspInterrupt} {given : ℕ} {receiver fullAssert : Bool} {o : List Output}

/-- The invariant when the transfer has been started. -/
theorem releaseInv_started {n : ℕ} (hn : 1 ≤ n) (dr shift rxne ovr drRead : Bool) :
    ReleaseInv (started n dr shift rxne ovr drRead) 0 := by
  apply ReleaseInv.waiting
  · trivial
  · rfl
  · rfl
  · exact fun h => absurd rfl h
  · exact fun h => absurd h.1 (Nat.one_le_iff_ne_zero.mp hn)

/-- The mutex has been given at most once. -/
theorem ReleaseInv.once (h : ReleaseInv s given) : given ≤ 1 := by
  cases h with
  | waiting => exact Nat.zero_le 1
  | releasing place => cases place <;> simp [givenAt]
  | released => exact Nat.le_refl 1

/-- The assertion of the handler does not fail. -/
theorem ReleaseInv.running (h : ReleaseInv s given) : s.handler ≠ some .assertFailed := by
  intro hfailed
  cases h with
  | waiting hplace => simp [hfailed, Waiting] at hplace
  | releasing place hhandler hplace =>
    rw [hfailed] at hhandler
    cases hhandler
    exact hplace
  | released hhandler => simp [hfailed] at hhandler

/-- At the end the mutex has been given, or it is due. -/
theorem ReleaseInv.due (h : ReleaseInv s given) (hfinished : Finished s)
    (hreturned : s.returned = true) (hhandler : s.handler = none) :
    given = 1 ∨ ReleaseDue s := by
  cases h with
  | waiting _ _ htxeie _ hrxne =>
    refine .inr ⟨htxeie.trans hreturned, hrxne hfinished, ?_⟩
    simp [Spi.sr, hfinished.2.1]
  | releasing place hplace => exact absurd hplace (by simp [hhandler])
  | released => exact .inl rfl

/-! ## The steps -/

/-- Where the handler goes with both flags, and where without. -/
theorem afterOverrun_of_both {sr : StatusReg} (h : sr.Both) :
    Place.afterOverrun sr = some (.receive sr) := by
  rw [Place.afterOverrun, if_pos h.1]

/-- Without both flags the handler goes on without a give. -/
theorem waiting_afterOverrun {sr : StatusReg} (h : ¬ sr.Both) :
    Waiting (Place.afterOverrun sr) := by
  unfold Place.afterOverrun
  by_cases hrxne : sr.rxne = true
  · rw [if_pos hrxne]
    exact ⟨hrxne, by simpa [StatusReg.Both, hrxne] using h⟩
  · rw [if_neg hrxne]
    trivial

/-- What the handler does to the status flags only: it neither moves nor shifts words, and
sets no overrun. -/
theorem handlerStep_frame (hs : s.handlerStep receiver fullAssert = some (s', o)) :
    (Finished s' ↔ Finished s) ∧ (s.spi.ovr = false → s'.spi.ovr = false) := by
  have hreadSR : s.spi.ovr = false → s.spi.readSR.ovr = false := by
    intro hovr
    unfold Spi.readSR
    split
    · rfl
    · exact hovr
  unfold SspInterrupt.handlerStep at hs
  cases hhandler : s.handler with
  | none => simp [hhandler] at hs
  | some place =>
    rw [hhandler] at hs
    cases place with
    | readStatus =>
      cases hs
      exact ⟨by simp [Finished], hreadSR⟩
    | overrunReadSR sr =>
      cases hs
      exact ⟨by simp [Finished], hreadSR⟩
    | junkReadSR =>
      cases hs
      exact ⟨by simp [Finished], hreadSR⟩
    | receive sr =>
      simp only at hs
      split at hs
      · cases hs
        exact ⟨Iff.rfl, id⟩
      · cases hs
        cases receiver <;> exact ⟨Iff.rfl, id⟩
    | assertFailed => simp at hs
    | _ =>
      cases hs
      exact ⟨Iff.rfl, id⟩

/-- A handler that waits for both flags executes its next statement. -/
theorem handlerStep_of_waiting (hplace : Waiting s.handler) (hrxneie : s.spi.rxneie = false)
    (htxeie : s.spi.txeie = s.returned) (hreturned : s.handler ≠ none → s.returned = true)
    (hrxne : Finished s → s.spi.rxne = true)
    (hflags : FlagsAtTheEnd receiver fullAssert s .handlerStep)
    (hs : s.handlerStep receiver fullAssert = some (s', o)) :
    ReleaseInv s' 0 ∧ o = [] := by
  unfold SspInterrupt.handlerStep at hs
  unfold FlagsAtTheEnd at hflags
  cases hhandler : s.handler with
  | none => simp [hhandler] at hs
  | some place =>
    have hret : s.returned = true := hreturned (by simp [hhandler])
    rw [hhandler] at hs hflags hplace
    cases place with
    | readStatus =>
      cases hs
      refine ⟨?_, rfl⟩
      by_cases hboth : s.spi.sr.Both
      · have hfin : Finished s := hflags hboth
        have hfin' : ∀ place, Finished { s with spi := s.spi.readSR, handler := place } := by
          intro place
          simpa [Finished] using hfin
        rw [afterOverrun_of_both hboth]
        by_cases hovr : s.spi.ovr = true
        · rw [if_pos hovr]
          exact .releasing (.overrunReadDR s.spi.sr) rfl hboth (hfin' _) hret nofun
        · rw [if_neg hovr]
          exact .releasing (.receive s.spi.sr) rfl hboth (hfin' _) hret nofun
      · apply ReleaseInv.waiting
        · by_cases hovr : s.spi.ovr = true
          · rw [if_pos hovr]
            exact hboth
          · rw [if_neg hovr]
            exact waiting_afterOverrun hboth
        · simpa using hrxneie
        · simpa using htxeie
        · exact fun _ => hret
        · simpa [Finished] using hrxne
    | overrunReadDR sr =>
      cases hs
      have hnot : ¬ Finished s := hflags.resolve_left hplace
      refine ⟨.waiting hplace hrxneie htxeie (fun _ => hret) fun hfin => ?_, rfl⟩
      exact absurd hfin hnot
    | overrunReadSR sr =>
      cases hs
      refine ⟨.waiting (waiting_afterOverrun hplace) ?_ ?_ (fun _ => hret) ?_, rfl⟩
      · simpa using hrxneie
      · simpa using htxeie
      · simpa [Finished] using hrxne
    | receive sr =>
      obtain ⟨-, htxe⟩ := hplace
      have hboth : ¬ sr.Both := by simp [StatusReg.Both, htxe]
      cases receiver with
      | false =>
        change fullAssert = false at hflags
        subst hflags
        cases hs
        rw [htxe]
        exact ⟨.waiting trivial hrxneie htxeie (fun _ => hret) hrxne, rfl⟩
      | true =>
        have hnot : ¬ Finished s := hflags.resolve_left hboth
        cases hs
        rw [htxe]
        refine ⟨.waiting trivial hrxneie htxeie (fun _ => hret) fun hfin => ?_, rfl⟩
        exact absurd hfin hnot
    | _ => exact hplace.elim

/-- A handler that has found both flags executes its next statement. -/
theorem handlerStep_of_releasing {place : Place} (hhandler : s.handler = some place)
    (hplace : Releasing place) (hfinished : Finished s) (hreturned : s.returned = true)
    (hread : AfterJunkRead place → s.spi.rxne = false)
    (hflags : FlagsAtTheEnd receiver fullAssert s .handlerStep)
    (hs : s.handlerStep receiver fullAssert = some (s', o)) :
    ReleaseInv s' (givenAt place + o.count .gave) := by
  unfold SspInterrupt.handlerStep at hs
  unfold FlagsAtTheEnd at hflags
  rw [hhandler] at hs hflags
  cases place with
  | readStatus => exact hplace.elim
  | overrunReadDR sr =>
    cases hs
    exact .releasing (.overrunReadSR sr) rfl hplace hfinished hreturned nofun
  | overrunReadSR sr =>
    cases hs
    rw [afterOverrun_of_both hplace]
    refine .releasing (.receive sr) rfl hplace ?_ hreturned nofun
    simpa [Finished] using hfinished
  | receive sr =>
    cases receiver with
    | false =>
      change fullAssert = false at hflags
      subst hflags
      cases hs
      rw [hplace.2]
      exact .releasing .give rfl trivial hfinished hreturned nofun
    | true =>
      cases hs
      rw [hplace.2]
      exact .releasing .give rfl trivial hfinished hreturned nofun
  | give =>
    cases hs
    exact .releasing .junkReadDR rfl trivial hfinished hreturned nofun
  | junkReadDR =>
    cases hs
    exact .releasing .junkReadSR rfl trivial hfinished hreturned fun _ => rfl
  | junkReadSR =>
    cases hs
    refine .releasing .enableRXNE rfl trivial ?_ hreturned fun _ => ?_
    · simpa [Finished] using hfinished
    · simpa using hread trivial
  | enableRXNE =>
    cases hs
    exact .releasing .disableTXE rfl trivial hfinished hreturned hread
  | disableTXE =>
    cases hs
    exact .released rfl hfinished hreturned (hread trivial) rfl
  | assertFailed => exact hplace.elim

/-- Every step keeps the phases of the release, and the mutex is given only at the end. -/
theorem ReleaseInv.step (h : ReleaseInv s given) {a : Event}
    (hflags : FlagsAtTheEnd receiver fullAssert s a)
    (hs : (machine receiver fullAssert).step s a = some (s', o)) :
    ReleaseInv s' (given + o.count .gave) ∧ (given + o.count .gave ≠ given → s.ndtr = 0) := by
  unfold machine at hs
  cases h with
  | waiting hplace hrxneie htxeie hreturned hrxne =>
    cases a with
    | dma =>
      simp only [Option.ite_none_left_eq_some] at hs
      obtain ⟨-, hs⟩ := hs
      cases hs
      refine ⟨.waiting hplace ?_ ?_ hreturned ?_, by simp⟩
      · exact (store_enable s.spi).2.trans hrxneie
      · exact (store_enable s.spi).1.trans htxeie
      · rintro ⟨-, hdr, hshift⟩
        obtain hbusy | hbusy := store_busy_or s.spi
        · exact Bool.noConfusion (hbusy.symm.trans hdr)
        · exact Bool.noConfusion (hbusy.symm.trans hshift)
    | wordShifted =>
      simp only [Option.ite_none_right_eq_some] at hs
      obtain ⟨-, hs⟩ := hs
      cases hs
      refine ⟨.waiting hplace ?_ ?_ hreturned fun _ => shiftWord_rxne s.spi, by simp⟩
      · exact (shiftWord_enable s.spi).2.trans hrxneie
      · exact (shiftWord_enable s.spi).1.trans htxeie
    | enableTXE =>
      simp only [Option.ite_none_right_eq_some] at hs
      obtain ⟨-, hs⟩ := hs
      cases hs
      exact ⟨.waiting hplace hrxneie rfl (fun _ => rfl) hrxne, by simp⟩
    | enterHandler =>
      simp only [Option.ite_none_right_eq_some] at hs
      obtain ⟨⟨hrequests, -⟩, hs⟩ := hs
      cases hs
      have htxe : s.spi.txeie = true := by
        obtain ⟨htxe, -⟩ | ⟨hrx, -⟩ := hrequests
        · exact htxe
        · simp [hrxneie] at hrx
      exact ⟨.waiting trivial hrxneie htxeie (fun _ => htxeie.symm.trans htxe) hrxne, by simp⟩
    | handlerStep =>
      obtain ⟨hinv, ho⟩ :=
        handlerStep_of_waiting hplace hrxneie htxeie hreturned hrxne hflags hs
      subst ho
      exact ⟨hinv, by simp⟩
  | releasing place hhandler hplace hfinished hreturned hread =>
    cases a with
    | handlerStep =>
      exact ⟨handlerStep_of_releasing hhandler hplace hfinished hreturned hread hflags hs,
        fun _ => hfinished.1⟩
    | dma => simp [hfinished.1] at hs
    | wordShifted => simp [hfinished.2.2] at hs
    | enableTXE => simp [hreturned] at hs
    | enterHandler => simp [hhandler] at hs
  | released hhandler hfinished hreturned hrxne htxeie =>
    cases a with
    | dma => simp [hfinished.1] at hs
    | wordShifted => simp [hfinished.2.2] at hs
    | enableTXE => simp [hreturned] at hs
    | enterHandler => simp [Spi.Requests, hrxne, htxeie] at hs
    | handlerStep => simp [SspInterrupt.handlerStep, hhandler] at hs

/-! ## A single byte -/

/-- No word was received while another one waited to be read; until the only one has been
received, the handler finds no word. -/
structure SingleInv (s : SspInterrupt) : Prop where
  ovr : s.spi.ovr = false
  onWay : Finished s ∨ s.spi.rxne = false ∧ s.spi.dr = false ∧
    (s.ndtr = 1 ∧ s.spi.shift = false ∨ s.ndtr = 0 ∧ s.spi.shift = true)
  place : s.handler = none ∨ s.handler = some .readStatus ∨
    Finished s ∧ ∃ place, s.handler = some place ∧ Releasing place

/-- A single byte that is there to be read is the end. -/
theorem SingleInv.finished (h : SingleInv s) (hrxne : s.spi.rxne = true) : Finished s := by
  apply h.onWay.resolve_right
  rintro ⟨hnone, -⟩
  exact Bool.noConfusion (hrxne.symm.trans hnone)

/-- The flags of a single byte are found set together only at the end. -/
theorem SingleInv.flagsAtTheEnd (h : SingleInv s) (a : Event) :
    FlagsAtTheEnd true fullAssert s a := by
  cases a with
  | handlerStep =>
    unfold FlagsAtTheEnd
    obtain hplace | hplace | ⟨-, place, hplace, hreleasing⟩ := h.place
    · simp [hplace]
    · rw [hplace]
      rintro ⟨hrxne, -⟩
      exact h.finished hrxne
    · rw [hplace]
      cases place with
      | readStatus => exact hreleasing.elim
      | overrunReadDR sr => exact .inl hreleasing
      | receive sr => exact .inl hreleasing
      | _ => trivial
  | _ => trivial

/-- A handler that has found both flags goes on to its end. -/
theorem handler_of_releasing {place : Place} (hhandler : s.handler = some place)
    (hplace : Releasing place) (hs : s.handlerStep true fullAssert = some (s', o)) :
    s'.handler = none ∨ ∃ place', s'.handler = some place' ∧ Releasing place' := by
  unfold SspInterrupt.handlerStep at hs
  rw [hhandler] at hs
  cases place with
  | readStatus => exact hplace.elim
  | assertFailed => exact hplace.elim
  | overrunReadDR sr =>
    cases hs
    exact .inr ⟨.overrunReadSR sr, rfl, hplace⟩
  | overrunReadSR sr =>
    cases hs
    exact .inr ⟨.receive sr, afterOverrun_of_both hplace, hplace⟩
  | receive sr =>
    cases hs
    exact .inr ⟨.give, if_pos hplace.2, trivial⟩
  | disableTXE =>
    cases hs
    exact .inl rfl
  | _ =>
    cases hs
    exact .inr ⟨_, rfl, trivial⟩

/-- The statements of the handler, before the only word has been received and after it. -/
theorem SingleInv.handlerStep (h : SingleInv s)
    (hs : s.handlerStep true fullAssert = some (s', o)) : SingleInv s' := by
  obtain ⟨hfinished', hovr'⟩ := handlerStep_frame hs
  obtain hplace | hplace | ⟨hfinished, place, hplace, hreleasing⟩ := h.place
  · simp [SspInterrupt.handlerStep, hplace] at hs
  · unfold SspInterrupt.handlerStep at hs
    rw [hplace] at hs
    simp only [h.ovr, Bool.false_eq_true, if_false] at hs
    cases hs
    refine ⟨hovr' h.ovr, by simpa [Finished] using h.onWay, ?_⟩
    by_cases hrxne : s.spi.rxne = true
    · have hfinished := h.finished hrxne
      have hboth : s.spi.sr.Both := ⟨hrxne, by simp [Spi.sr, hfinished.2.1]⟩
      exact .inr (.inr ⟨hfinished'.mpr hfinished, .receive s.spi.sr,
        afterOverrun_of_both hboth, hboth⟩)
    · exact .inl (if_neg hrxne)
  · have hfin := hfinished'.mpr hfinished
    refine ⟨hovr' h.ovr, .inl hfin, ?_⟩
    obtain hnone | hsome := handler_of_releasing hplace hreleasing hs
    · exact .inl hnone
    · exact .inr (.inr ⟨hfin, hsome⟩)

/-- Every step of a write of one byte. -/
theorem SingleInv.step (h : SingleInv s) {a : Event}
    (hs : (machine true fullAssert).step s a = some (s', o)) : SingleInv s' := by
  unfold machine at hs
  cases a with
  | dma =>
    simp only [Option.ite_none_left_eq_some, not_or] at hs
    obtain ⟨⟨hndtr, -⟩, hs⟩ := hs
    cases hs
    obtain hfinished | ⟨hrxne, hdr, ⟨hone, hshift⟩ | ⟨hzero, -⟩⟩ := h.onWay
    · exact absurd hfinished.1 hndtr
    · have hstore : s.spi.store = { s.spi with shift := true } := if_neg (by simp [hshift])
      have hnot : ¬ Finished s := fun hfinished => hndtr hfinished.1
      rw [hstore]
      refine ⟨h.ovr, .inr ⟨hrxne, hdr, .inr ⟨by simp [hone], rfl⟩⟩, ?_⟩
      exact h.place.imp_right fun hplace =>
        hplace.imp_right fun hreleasing => absurd hreleasing.1 hnot
    · exact absurd hzero hndtr
  | wordShifted =>
    simp only [Option.ite_none_right_eq_some] at hs
    obtain ⟨hshifting, hs⟩ := hs
    cases hs
    obtain hfinished | ⟨hrxne, hdr, ⟨-, hshift⟩ | ⟨hzero, -⟩⟩ := h.onWay
    · exact Bool.noConfusion (hshifting.symm.trans hfinished.2.2)
    · exact Bool.noConfusion (hshifting.symm.trans hshift)
    · have hword : s.spi.shiftWord = { s.spi with shift := s.spi.dr, dr := false, rxne := true } :=
        if_neg (by simp [hrxne])
      have hnot : ¬ Finished s := fun hfinished =>
        Bool.noConfusion (hshifting.symm.trans hfinished.2.2)
      rw [hword]
      refine ⟨h.ovr, .inl ⟨hzero, rfl, hdr⟩, ?_⟩
      exact h.place.imp_right fun hplace =>
        hplace.imp_right fun hreleasing => absurd hreleasing.1 hnot
  | enableTXE =>
    simp only [Option.ite_none_right_eq_some] at hs
    obtain ⟨⟨-, hnone⟩, hs⟩ := hs
    cases hs
    exact ⟨h.ovr, h.onWay, .inl hnone⟩
  | enterHandler =>
    simp only [Option.ite_none_right_eq_some] at hs
    obtain ⟨-, hs⟩ := hs
    cases hs
    exact ⟨h.ovr, h.onWay, .inr (.inl rfl)⟩
  | handlerStep => exact h.handlerStep hs

/-- In every run of a write of one byte to an SPI at rest the flags are found set together only
at the end. -/
theorem flagsAtTheEnd_single (drRead : Bool) (events : List Event) :
    (releases true fullAssert).Along (fun p a => FlagsAtTheEnd true fullAssert p.1 a)
      (started 1 false false false false drRead, 0) events := by
  apply Machine.along_of_invariant (fun p => SingleInv p.1)
  · exact fun p a h => h.flagsAtTheEnd a
  · exact fun p a p' o h hs => h.step (Machine.observe_step_eq_some.mp hs).1
  · exact ⟨rfl, .inr ⟨rfl, rfl, .inl ⟨rfl, rfl⟩⟩, .inl rfl⟩

/-! ## Runs -/

/-- **When a zero-copy buffer is released once, after it has been sent.**  In every run of a
write of one or more bytes in which the handler first finds both flags set at the end, and
discards no word after that without having found both, the mutex is given once, with all
bytes moved; at the end it has been given or the next interrupt gives it.
SOURCE: FreeRTOS_stm32f4_ssp.c:192-240, 600-642, 647-798 -/
theorem releasedOnce_of_flagsAtTheEnd (receiver fullAssert : Bool) {n : ℕ} (hn : 1 ≤ n)
    (dr shift rxne ovr drRead : Bool) (events : List Event)
    (h : (releases receiver fullAssert).Along
      (fun p a => FlagsAtTheEnd receiver fullAssert p.1 a)
      (started n dr shift rxne ovr drRead, 0) events) :
    (releases receiver fullAssert).Always ReleasedOnce
      (started n dr shift rxne ovr drRead, 0) events := by
  apply Machine.always_of_invariant (fun p => ReleaseInv p.1 p.2) _ _ _
    (releaseInv_started hn dr shift rxne ovr drRead) h
  intro p a p' o hinv hflags hs
  obtain ⟨hs, hgiven⟩ := Machine.observe_step_eq_some.mp hs
  obtain ⟨hinv', hmoved⟩ := ReleaseInv.step hinv hflags hs
  rw [← hgiven] at hinv' hmoved
  exact ⟨hinv', hinv'.once, hmoved, hinv'.running, hinv'.due⟩

/-- Two bytes, with the handler entered once before the first word was received and then not
until the second was. -/
theorem releasedOnce_two :
    (releases true true).Always ReleasedOnce (started 2 false false false false false, 0)
      [.dma, .enableTXE, .enterHandler, .handlerStep, .dma, .wordShifted, .wordShifted,
        .enterHandler, .handlerStep, .handlerStep, .handlerStep, .handlerStep, .handlerStep,
        .handlerStep, .handlerStep, .handlerStep, .handlerStep] :=
  releasedOnce_of_flagsAtTheEnd true true (by decide) false false false false false _
    (by decide)

/-- Of two bytes the stream moves the second one after the first word was received: the mutex
is given before.  It moves it in time: the mutex is given after each word.  Of three bytes the
handler has found the first word only, and discards it when the last one has been received:
the mutex is never given.  Without an object to receive with, the assertion of the handler
fails. -/
theorem not_releasedOnce_between :
    (¬ (releases true true).Always ReleasedOnce (started 2 false false false false false, 0)
        [.dma, .enableTXE, .wordShifted, .enterHandler, .handlerStep, .handlerStep,
          .handlerStep]) ∧
      (¬ (releases true true).Always ReleasedOnce
        (started 2 false false false false false, 0)
        [.dma, .dma, .enableTXE, .wordShifted, .enterHandler, .handlerStep, .handlerStep,
          .handlerStep, .handlerStep, .handlerStep, .handlerStep, .handlerStep, .wordShifted,
          .enterHandler, .handlerStep, .handlerStep, .handlerStep]) ∧
      (¬ (releases true true).Always ReleasedOnce
        (started 3 false false false false false, 0)
        [.dma, .enableTXE, .enterHandler, .wordShifted, .dma, .dma, .handlerStep,
          .wordShifted, .wordShifted, .handlerStep]) ∧
      ¬ (releases false true).Always ReleasedOnce
        (started 1 false false false false false, 0)
        [.dma, .enableTXE, .wordShifted, .enterHandler, .handlerStep, .handlerStep] := by
  refine ⟨?_, ?_, ?_, ?_⟩
  · intro h
    exact absurd (h.mono fun _ _ _ _ hq => hq.moved) (by decide)
  · intro h
    exact absurd (h.mono fun _ _ _ _ hq => hq.once) (by decide)
  · intro h
    exact absurd (h.mono fun _ _ _ _ hq => hq.due) (by decide)
  · intro h
    exact absurd (h.mono fun _ _ _ _ hq => hq.running) (by decide)

end Resmod.Analysis
