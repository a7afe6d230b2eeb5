import Resmod.Analysis.Handover

/-!
# Arming is one-shot

Enabling the interrupt of `DMA1_Stream2` arms one excitation: `ExcitationRoll` is meant to
run once, and to lead to one `Trigger` of each channel, before `CalcTask` enables the
interrupt again.  `Shots` counts the three, and `OneShot` says this of every step: no roll
is too many, no `Trigger` is too many, at an enabling none is missing, and one that is due
has its interrupt pending or armed.

Both handlers clear their flag before they disable their interrupt.  An event between the
two statements makes the interrupt pending once more; `one_shot_of_noRearm` is about the
runs without such an event.  Which acquisition is under way is known from the invariant of
the handover, and the counts follow it.
-/

set_option autoImplicit false

namespace Resmod.Analysis

open Resmod.Library Resmod.Model Resmod.Model.LTC2336SPIDMATrigger Resmod.Model.Handover

variable {α : Type*} {n : ℕ} {s s' : System α n} {log log' : Log α} {phase : Phase}
  {stage : Channel → Stage}

/-! ## The counts -/

/-- How often the parts of a shot have taken place. -/
structure Shots where
  enabled : ℕ
  rolls : ℕ
  /-- The calls of `Trigger`, counted at their first statement. -/
  triggers : Channel → ℕ

/-- What a step adds to the counts. -/
def Shots.next (shots : Shots) (s : System α n) : Handover.Event α → Shots
  | .handlerStep =>
    if s.tim5Handler = none ∧ s.handler = some (.excitation .dmaroll) then
      { shots with rolls := shots.rolls + 1 }
    else shots
  | .tim5Step =>
    match s.tim5Handler with
    | some (.trigger ch .enableStream) =>
      { shots with triggers := Function.update shots.triggers ch (shots.triggers ch + 1) }
    | _ => shots
  | .taskStep =>
    if s.task = .enableIT then { shots with enabled := shots.enabled + 1 } else shots
  | _ => shots

/-- The number of calls of `Trigger` for the channel that `TIM5_IRQHandler` still has to
make. -/
def awaiting (ch : Channel) : Option Tim5Step → ℕ
  | none => 0
  | some .clearITPendingBit => 1
  | some .disableIT => 1
  | some (.trigger .voltage .enableStream) => 1
  | some (.trigger .voltage _) => if ch = .voltage then 0 else 1
  | some (.trigger .current .enableStream) => if ch = .voltage then 0 else 1
  | some (.trigger .current _) => 0

/-- The roll will come with the handler, which is active, pending, or entered at the next
event. -/
def RollDue (s : System α n) : Prop :=
  s.excitation.pending = true ∨ s.handler = some (.excitation .clearITPendingBit) ∨
    s.handler = some (.excitation .dmaroll) ∨
    s.excitation.enable = true ∧ s.excitation.flag = false

/-- The `Trigger` of the channel will come with `TIM5_IRQHandler`. -/
def TriggerDue (ch : Channel) (s : System α n) : Prop :=
  s.tim5.pending = true ∨ awaiting ch s.tim5Handler = 1 ∨
    s.tim5.enable = true ∧ s.tim5.flag = false

/-- A step keeps arming one-shot. -/
structure OneShot (p : System α n × Log α × Shots) (_ : Handover.Event α)
    (p' : System α n × Log α × Shots) (_ : List (Channel → List α)) : Prop where
  /-- No enabling is rolled for twice. -/
  rolls_le : p'.2.2.rolls ≤ p'.2.2.enabled
  /-- No roll is triggered for twice. -/
  triggers_le : ∀ ch, p'.2.2.triggers ch ≤ p'.2.2.rolls
  /-- Before the next enabling there was a roll and a `Trigger` of each channel for every
  earlier one. -/
  enabled : p'.2.2.enabled ≠ p.2.2.enabled →
    p.2.2.rolls = p.2.2.enabled ∧ ∀ ch, p.2.2.triggers ch = p.2.2.rolls
  /-- Before the next roll there was a `Trigger` of each channel for every earlier one. -/
  rolled : p'.2.2.rolls ≠ p.2.2.rolls → ∀ ch, p.2.2.triggers ch = p.2.2.rolls
  rollDue : p'.2.2.rolls < p'.2.2.enabled → RollDue p'.1
  triggerDue : ∀ ch, p'.2.2.triggers ch < p'.2.2.rolls → TriggerDue ch p'.1

/-- No event of a source comes between the statements of its handler that clear its flag
and disable its interrupt. -/
def NoRearm (s : System α n) : Handover.Event α → Prop
  | .excitationComplete =>
    s.handler ≠ some (.excitation .dmaroll) ∧ s.handler ≠ some (.excitation .disableIT)
  | .timerUpdate => s.tim5Handler ≠ some .disableIT
  | _ => True

/-! ## The invariant of the counts -/

/-- One acquisition is ahead of the calculation at this statement of the task. -/
def ahead : TaskStep → ℕ
  | .delay | .clearITPendingBit | .enableIT => 0
  | _ => 1

/-- The counts follow the history of the handover, and an interrupt that is pending, or
whose handler has just been entered, has its flag set. -/
structure ShotsInv (s : System α n) (log : Log α) (shots : Shots) : Prop where
  enabled : shots.enabled = log.performed + ahead s.task
  rolls : shots.rolls =
    log.acquired.length + if s.tim5Handler = none ∧ s.tim5.enable = true then 1 else 0
  triggers : ∀ ch, shots.triggers ch + awaiting ch s.tim5Handler = log.acquired.length
  disabling : s.handler = some (.excitation .disableIT) → shots.rolls = shots.enabled
  excitationFlag : s.excitation.pending = true ∨
    s.handler = some (.excitation .clearITPendingBit) → s.excitation.flag = true
  tim5Flag : s.tim5.pending = true ∨ s.tim5Handler = some .clearITPendingBit →
    s.tim5.flag = true
  tim5Enable : s.tim5Handler = none → s.tim5.pending = true → s.tim5.enable = true
  rollDue : shots.rolls < shots.enabled → RollDue s
  tim5Due : s.tim5Handler = none → s.tim5.enable = true →
    s.tim5.pending = true ∨ s.tim5.flag = false

/-- The events that concern neither source leave the counts alone. -/
theorem ShotsInv.congr {shots : Shots} (h : ShotsInv s log shots)
    (hexc : s'.excitation = s.excitation) (htim : s'.tim5 = s.tim5)
    (hhandler : ∀ pc, s'.handler = some (.excitation pc) ↔ s.handler = some (.excitation pc))
    (hhandler5 : s'.tim5Handler = s.tim5Handler)
    (htask : log'.performed + ahead s'.task = log.performed + ahead s.task)
    (hacquired : log'.acquired.length = log.acquired.length) : ShotsInv s' log' shots := by
  have hdue := h.rollDue
  unfold RollDue at hdue
  constructor
  · rw [htask]
    exact h.enabled
  · rw [hacquired, hhandler5, htim]
    exact h.rolls
  · rw [hacquired, hhandler5]
    exact h.triggers
  · rw [hhandler]
    exact h.disabling
  · rw [hhandler, hexc]
    exact h.excitationFlag
  · rw [hhandler5, htim]
    exact h.tim5Flag
  · rw [hhandler5, htim]
    exact h.tim5Enable
  · unfold RollDue
    rw [hhandler, hhandler, hexc]
    exact hdue
  · rw [hhandler5, htim]
    exact h.tim5Due

/-! ## What the phases say of the counts -/

/-- `TIM5_IRQHandler` is active in one phase only. -/
theorem HandoverInv.eq_tim5 (h : HandoverInv phase stage s log) {t : Tim5Step}
    (ht : s.tim5Handler = some t) : phase = .tim5 t := by
  have hnone : s.tim5Handler ≠ none := by simp [ht]
  have hcontrol := h.control
  cases phase with
  | armed => exact absurd hcontrol.2.1.1 hnone
  | rolled => exact absurd hcontrol.2.1 hnone
  | tim5 t' =>
    obtain ⟨-, ⟨hactive, -⟩, -⟩ := hcontrol
    rw [ht] at hactive
    rw [Option.some.inj hactive]
  | acquiring => exact absurd hcontrol.2.1.1 hnone
  | calculating => exact absurd hcontrol.2.1.1 hnone

/-- Past the semaphores the task itself says how far the acquisitions are ahead. -/
theorem HandoverInv.acquired_length (h : HandoverInv .calculating stage s log) :
    log.acquired.length = log.performed + ahead s.task := by
  obtain ⟨-, -, -, hcopied⟩ := h.control
  cases htask : s.task with
  | take ch =>
    rw [htask] at hcopied
    exact hcopied.elim
  | copy ch j =>
    rw [htask] at hcopied
    cases ch with
    | voltage => exact hcopied.1.1
    | current => exact hcopied.1.1
  | performCalculation =>
    rw [htask] at hcopied
    exact hcopied.1
  | delay =>
    rw [htask] at hcopied
    exact hcopied.1
  | clearITPendingBit =>
    rw [htask] at hcopied
    exact hcopied.1
  | enableIT =>
    rw [htask] at hcopied
    exact hcopied.1

/-- Where the task is tells how far the acquisitions are ahead of the calculations.  Only
while the excitation is armed or has rolled one more was enabled. -/
theorem HandoverInv.counts (h : HandoverInv phase stage s log) :
    log.acquired.length = log.performed + ahead s.task ∧
        (s.tim5Handler = none → s.tim5.enable = false) ∨
      log.acquired.length + 1 = log.performed + ahead s.task ∧ s.tim5Handler = none := by
  have hcontrol := h.control
  cases phase with
  | armed =>
    obtain ⟨-, ⟨hnone, -⟩, htask, -, hlen, -⟩ := hcontrol
    right
    rw [htask]
    exact ⟨congrArg (· + 1) hlen, hnone⟩
  | rolled =>
    obtain ⟨-, hnone, htask, -, hlen, -⟩ := hcontrol
    right
    rw [htask]
    exact ⟨congrArg (· + 1) hlen, hnone⟩
  | tim5 t =>
    obtain ⟨-, ⟨hactive, -⟩, htask, -, hlen, -⟩ := hcontrol
    left
    rw [htask]
    exact ⟨hlen, fun hnone => by simp [hactive] at hnone⟩
  | acquiring =>
    obtain ⟨-, ⟨-, hoff, -⟩, htask, -, hlen, -⟩ := hcontrol
    left
    rcases htask with ⟨htask, -⟩ | ⟨htask, -⟩
    · rw [htask]
      exact ⟨hlen, fun _ => hoff⟩
    · rw [htask]
      exact ⟨hlen, fun _ => hoff⟩
  | calculating =>
    obtain ⟨-, ⟨-, hoff, -⟩, -, -⟩ := hcontrol
    exact .inl ⟨h.acquired_length, fun _ => hoff⟩

/-- While the interrupt of the timer is disabled, or its handler active, there was an entry of
the handler for every roll. -/
theorem ShotsInv.rolls_eq {shots : Shots} (h : ShotsInv s log shots)
    (hoff : s.tim5Handler = none → s.tim5.enable = false) :
    shots.rolls = log.acquired.length := by
  rw [h.rolls, if_neg, Nat.add_zero]
  rintro ⟨hnone, hon⟩
  rw [hoff hnone] at hon
  exact Bool.noConfusion hon

/-- The timer has rolled over at most once for each time it was enabled. -/
theorem ShotsInv.rolls_le {shots : Shots} (h : ShotsInv s log shots)
    (hI : HandoverInv phase stage s log) : shots.rolls ≤ shots.enabled := by
  rw [h.enabled]
  rcases hI.counts with ⟨hlen, hoff⟩ | ⟨hlen, -⟩
  · rw [h.rolls_eq hoff]
    exact Nat.le_of_eq hlen
  · rw [h.rolls]
    split_ifs
    · omega
    · omega

/-- A channel is triggered at most once for each time the timer rolls over. -/
theorem ShotsInv.triggers_le {shots : Shots} (h : ShotsInv s log shots) (ch : Channel) :
    shots.triggers ch ≤ shots.rolls := by
  have htriggers := h.triggers ch
  rw [h.rolls]
  omega

/-- A channel that has been triggered less often has its trigger due. -/
theorem ShotsInv.triggerDue {shots : Shots} (h : ShotsInv s log shots) {ch : Channel}
    (hlt : shots.triggers ch < shots.rolls) : TriggerDue ch s := by
  have htriggers := h.triggers ch
  cases hactive : s.tim5Handler with
  | none =>
    rw [hactive, awaiting] at htriggers
    by_cases hon : s.tim5.enable = true
    · rcases h.tim5Due hactive hon with hpending | hflag
      · exact .inl hpending
      · exact .inr (.inr ⟨hon, hflag⟩)
    · have hrolls := h.rolls_eq fun _ => eq_false_of_ne_true hon
      omega
  | some t =>
    have hrolls := h.rolls_eq (by simp [hactive])
    have hone : awaiting ch (some t) ≤ 1 := by
      rcases t with _ | _ | ⟨_ | _, _ | _ | _⟩ <;> cases ch <;> decide
    rw [hactive] at htriggers
    right
    left
    rw [hactive]
    omega

/-! ## The hardware -/

/-- An event whose flag is still set changes nothing. -/
theorem fire_of_flag {i : Source} (h : i.flag = true) : i.fire = i := by
  unfold Source.fire
  rw [h, Bool.not_true, Bool.and_false, Bool.or_false, ← h]

/-- The excitation is complete, and nothing is counted. -/
theorem ShotsInv.excitationComplete {shots : Shots} (h : ShotsInv s log shots) :
    ShotsInv { s with excitation := s.excitation.fire } log shots := by
  refine ⟨h.enabled, h.rolls, h.triggers, h.disabling, fun _ => rfl, h.tim5Flag, h.tim5Enable,
    ?_, h.tim5Due⟩
  intro hlt
  rcases h.rollDue hlt with hpending | hclear | hroll | ⟨henable, hflag⟩
  · exact .inl (by simp [Source.fire, hpending])
  · exact .inr (.inl hclear)
  · exact .inr (.inr (.inl hroll))
  · exact .inl (by simp [Source.fire, henable, hflag])

/-- The timer rolls over, and nothing is counted before its handler. -/
theorem ShotsInv.timerUpdate {shots : Shots} (h : ShotsInv s log shots) :
    ShotsInv { s with tim5 := s.tim5.fire } log shots := by
  refine ⟨h.enabled, h.rolls, h.triggers, h.disabling, h.excitationFlag, fun _ => rfl, ?_,
    h.rollDue, ?_⟩
  · intro hnone hpending
    simp only [Source.fire, Bool.or_eq_true, Bool.and_eq_true] at hpending
    rcases hpending with hpending | ⟨henable, -⟩
    · exact h.tim5Enable hnone hpending
    · exact henable
  · intro hnone henable
    left
    rcases h.tim5Due hnone henable with hpending | hflag
    · simp [Source.fire, hpending]
    · have hon : s.tim5.enable = true := henable
      simp [Source.fire, hon, hflag]

/-- While `TIM5_IRQHandler` triggers the channels its interrupt is disabled. -/
theorem HandoverInv.timerUpdate_of_trigger (h : HandoverInv phase stage s log) {ch : Channel}
    {t : TriggerStep} (ht : s.tim5Handler = some (.trigger ch t)) :
    HandoverInv phase stage { s with tim5 := s.tim5.fire } log := by
  obtain rfl := h.eq_tim5 ht
  obtain ⟨hrolled, ⟨hactive, hpending, henable⟩, hrest⟩ := h.control
  refine ⟨h.handling, h.holds, hrolled, ⟨hactive, ?_, henable⟩, hrest⟩
  simp [Source.fire, hpending, henable ch t rfl]

/-- **The handover** is kept by every step without an event in between. -/
theorem HandoverInv.step_of_noRearm (hn : 0 < n) {shots : Shots}
    (hI : HandoverInv phase stage s log) (h : ShotsInv s log shots) {e : Handover.Event α}
    (hfire : NoRearm s e) {o : List (Channel → List α)}
    (hs : (machine α n).step s e = some (s', o)) :
    ∃ phase' stage', HandoverInv phase' stage' s' (log.next s e s' o) := by
  by_cases hrefire : NoRefire (s, log) e
  · exact (hI.step hn hrefire hs).1
  cases e with
  | excitationComplete =>
    cases hactive : s.handler with
    | none => exact absurd (fun pc => by simp [hactive]) hrefire
    | some handler =>
      cases handler with
      | adc ch pc => exact absurd (fun pc => by simp [hactive]) hrefire
      | excitation pc =>
        cases pc with
        | clearITPendingBit =>
          -- the flag of the event that is being handled is still set
          have hflag := h.excitationFlag (.inr hactive)
          cases hs
          rw [fire_of_flag hflag]
          exact ⟨phase, stage, hI⟩
        | dmaroll => exact absurd hactive hfire.1
        | disableIT => exact absurd hactive hfire.2
  | timerUpdate =>
    cases hactive : s.tim5Handler with
    | none => exact absurd hactive hrefire
    | some t =>
      cases t with
      | clearITPendingBit =>
        have hflag := h.tim5Flag (.inr hactive)
        cases hs
        rw [fire_of_flag hflag]
        exact ⟨phase, stage, hI⟩
      | disableIT => exact absurd hactive hfire
      | trigger ch t =>
        cases hs
        exact ⟨phase, stage, hI.timerUpdate_of_trigger hactive⟩
  | _ => exact absurd trivial hrefire

/-! ## The entry of handlers -/

/-- The handler of the excitation is entered. -/
theorem ShotsInv.enterExcitation {shots : Shots} (h : ShotsInv s log shots)
    (hpending : s.excitation.pending = true) :
    ShotsInv { s with
      excitation := s.excitation.enter
      handler := some (.excitation .clearITPendingBit) } log shots := by
  have hflag := h.excitationFlag (.inl hpending)
  refine ⟨h.enabled, h.rolls, h.triggers, ?_, fun _ => hflag, h.tim5Flag, h.tim5Enable,
    fun _ => .inr (.inl rfl), h.tim5Due⟩
  intro hdisabling
  simp at hdisabling

/-- Its entry uses up the interrupt that the roll has enabled. -/
theorem ShotsInv.enterTim5 {shots : Shots} (h : ShotsInv s log shots)
    (hpending : s.tim5.pending = true) (hnone : s.tim5Handler = none) :
    ShotsInv { s with
        tim5 := s.tim5.enter
        tim5Handler := some .clearITPendingBit }
      { log with acquired := (fun _ => []) :: log.acquired } shots := by
  have hflag := h.tim5Flag (.inl hpending)
  have hon := h.tim5Enable hnone hpending
  have hrolls := h.rolls
  rw [if_pos ⟨hnone, hon⟩] at hrolls
  refine ⟨h.enabled, ?_, ?_, h.disabling, h.excitationFlag, fun _ => hflag, ?_, h.rollDue, ?_⟩
  · simpa using hrolls
  · intro ch
    have htriggers := h.triggers ch
    rw [hnone] at htriggers
    rw [List.length_cons, ← htriggers]
    rfl
  · intro hactive
    simp at hactive
  · intro hactive
    simp at hactive

/-! ## The statements -/

/-- **`DMA1_Stream2_IRQHandler`**: the roll is the one that is due, and it enables an
interrupt of the timer that is not on.
SOURCE: dma1.cc:43-47, excitation.cc:110-116, resmod.cc:353-355 -/
theorem ShotsInv.excitationStep {shots : Shots} (hI : HandoverInv phase stage s log)
    (h : ShotsInv s log shots) (hnone : s.tim5Handler = none) {pc : ExcitationStep}
    (hpc : s.handler = some (.excitation pc)) :
    ShotsInv (s.excitationStep pc) log (shots.next s .handlerStep) := by
  cases pc with
  | clearITPendingBit =>
    obtain ⟨-, hpending⟩ := hI.eq_armed hpc (by simp)
    have hshots : shots.next s .handlerStep = shots := by
      simp [Shots.next, hpc]
    rw [hshots]
    refine ⟨h.enabled, h.rolls, h.triggers, ?_, ?_, h.tim5Flag, h.tim5Enable,
      fun _ => .inr (.inr (.inl rfl)), h.tim5Due⟩
    · intro hdisabling
      simp [System.excitationStep] at hdisabling
    · intro hset
      simp [System.excitationStep, Source.clearITPendingBit, hpending] at hset
  | dmaroll =>
    obtain ⟨rfl, hpending⟩ := hI.eq_armed hpc (by simp)
    obtain ⟨-, ⟨-, hoff, hquiet⟩, htask, -, hlen, -⟩ := hI.control
    have hshots : shots.next s .handlerStep = { shots with rolls := shots.rolls + 1 } := by
      simp [Shots.next, hpc, hnone]
    have henabled := h.enabled
    have hrolls := h.rolls_eq fun _ => hoff
    rw [htask] at henabled
    have hspent : shots.rolls + 1 = shots.enabled := by
      rw [henabled, hrolls, hlen]
      rfl
    rw [hshots]
    refine ⟨h.enabled, ?_, h.triggers, fun _ => hspent, ?_, ?_, fun _ _ => rfl, ?_, ?_⟩
    · change shots.rolls + 1 = log.acquired.length + if s.tim5Handler = none ∧ true = true
        then 1 else 0
      rw [if_pos ⟨hnone, rfl⟩, hrolls]
    · intro hset
      simp [System.excitationStep, hpending] at hset
    · intro hset
      simpa [System.excitationStep, Source.enableIT, hquiet, hoff, hnone] using hset
    · intro hlt
      exact absurd hlt (by simp only; omega)
    · intro _ _
      cases hflag : s.tim5.flag with
      | false => exact .inr hflag
      | true =>
        left
        simp [System.excitationStep, Source.enableIT, hflag, hoff]
  | disableIT =>
    have hspent := h.disabling hpc
    have hshots : shots.next s .handlerStep = shots := by
      simp [Shots.next, hpc]
    rw [hshots]
    refine ⟨h.enabled, h.rolls, h.triggers, ?_, ?_, h.tim5Flag, h.tim5Enable, ?_, h.tim5Due⟩
    · intro hdisabling
      simp [System.excitationStep] at hdisabling
    · rintro (hset | hset)
      · exact h.excitationFlag (.inl hset)
      · simp [System.excitationStep] at hset
    · intro hlt
      exact absurd hlt (by omega)

/-- A statement of `TIM5_IRQHandler` is a call of `Trigger`, or leaves the calls to make. -/
theorem triggers_tim5Step {shots : Shots} {t : Tim5Step} (ht : s.tim5Handler = some t)
    (ch : Channel) :
    (shots.next s .tim5Step).triggers ch + awaiting ch t.next =
      shots.triggers ch + awaiting ch (some t) := by
  unfold Shots.next
  rw [ht]
  rcases t with _ | _ | ⟨_ | _, _ | _ | _⟩ <;> cases ch <;> rfl

/-- A statement of the handler of the timer enables nothing. -/
theorem next_tim5Step {shots : Shots} :
    (shots.next s .tim5Step).enabled = shots.enabled ∧
      (shots.next s .tim5Step).rolls = shots.rolls := by
  unfold Shots.next
  rcases s.tim5Handler with _ | _ | _ | ⟨ch, _ | _ | _⟩ <;> exact ⟨rfl, rfl⟩

/-- **`TIM5_IRQHandler`** ends with its interrupt disabled.
SOURCE: tim.cc:48-54 -/
theorem ShotsInv.tim5Step {shots : Shots} (hI : HandoverInv phase stage s log)
    (h : ShotsInv s log shots) {t : Tim5Step} (ht : s.tim5Handler = some t) :
    ShotsInv (s.tim5Step t) log (shots.next s .tim5Step) := by
  obtain rfl := hI.eq_tim5 ht
  obtain ⟨-, ⟨-, hpending, henable⟩, -⟩ := hI.control
  have hpending' : (s.tim5Step t).tim5.pending = false := by
    cases t <;> exact hpending
  have hnext : (s.tim5Step t).tim5Handler = t.next := by
    cases t <;> rfl
  have hoff : t.next = none → (s.tim5Step t).tim5.enable = false := by
    intro hlast
    cases t with
    | clearITPendingBit => simp [Tim5Step.next] at hlast
    | disableIT => rfl
    | trigger ch t => exact henable ch t rfl
  have hexc : (s.tim5Step t).excitation = s.excitation ∧
      (s.tim5Step t).handler = s.handler ∧ (s.tim5Step t).task = s.task := by
    cases t <;> exact ⟨rfl, rfl, rfl⟩
  have hrolls := h.rolls_eq (by simp [ht])
  obtain ⟨henabled', hrolls'⟩ := @next_tim5Step α n s shots
  constructor
  · rw [henabled', hexc.2.2]
    exact h.enabled
  · rw [hrolls', hrolls, hnext, if_neg fun hboth => by simp [hoff hboth.1] at hboth,
      Nat.add_zero]
  · intro ch
    rw [hnext, triggers_tim5Step ht, ← ht]
    exact h.triggers ch
  · rw [hexc.2.1, henabled', hrolls']
    exact h.disabling
  · rw [hexc.1, hexc.2.1]
    exact h.excitationFlag
  · rw [hpending', hnext]
    rintro (hset | hclear)
    · exact Bool.noConfusion hset
    · rcases t with _ | _ | ⟨_ | _, _ | _ | _⟩ <;> simp [Tim5Step.next, TriggerStep.next] at hclear
  · rw [hpending']
    intro _ hset
    exact Bool.noConfusion hset
  · rw [henabled', hrolls']
    unfold RollDue
    rw [hexc.1, hexc.2.1]
    exact h.rollDue
  · rw [hnext]
    intro hlast hon
    rw [hoff hlast] at hon
    exact Bool.noConfusion hon

/-- Past the semaphores nothing is due. -/
theorem ShotsInv.spent {shots : Shots} (hI : HandoverInv .calculating stage s log)
    (h : ShotsInv s log shots) :
    shots.rolls = shots.enabled ∧ ∀ ch, shots.triggers ch = shots.rolls := by
  obtain ⟨-, ⟨hnone, hoff, -⟩, -, -⟩ := hI.control
  have hrolls := h.rolls_eq fun _ => hoff
  constructor
  · rw [hrolls, h.enabled, hI.acquired_length]
  · intro ch
    have htriggers := h.triggers ch
    rw [hnone, awaiting] at htriggers
    omega

/-- The statements up to the delay only move the calculation on. -/
theorem performed_add_ahead (hs : s.taskStep = some s')
    (hclear : s.task ≠ .clearITPendingBit) (henable : s.task ≠ .enableIT)
    (o : List (Channel → List α)) :
    (log.next s .taskStep s' o).performed + ahead s'.task = log.performed + ahead s.task ∧
      (log.next s .taskStep s' o).acquired = log.acquired ∧
      s'.excitation = s.excitation ∧ s'.tim5 = s.tim5 ∧ s'.handler = s.handler ∧
      s'.tim5Handler = s.tim5Handler := by
  unfold System.taskStep at hs
  unfold Log.next
  cases htask : s.task with
  | take ch =>
    simp only [htask] at hs
    split_ifs at hs
    cases hs
    cases ch <;> exact ⟨rfl, rfl, rfl, rfl, rfl, rfl⟩
  | copy ch j =>
    simp only [htask] at hs
    split_ifs at hs
    · obtain ⟨src, -, rfl⟩ := Option.map_eq_some_iff.mp hs
      exact ⟨rfl, rfl, rfl, rfl, rfl, rfl⟩
    · cases hs
      cases ch <;> exact ⟨rfl, rfl, rfl, rfl, rfl, rfl⟩
  | performCalculation =>
    simp only [htask] at hs
    cases hs
    exact ⟨rfl, rfl, rfl, rfl, rfl, rfl⟩
  | delay =>
    simp only [htask] at hs
    cases hs
    exact ⟨rfl, rfl, rfl, rfl, rfl, rfl⟩
  | clearITPendingBit => exact absurd htask hclear
  | enableIT => exact absurd htask henable

/-- **`CalcTask`** clears the flag of the excitation and arms it while nothing is due.
SOURCE: calctask.cc:69-92 -/
theorem ShotsInv.taskStep {shots : Shots} (hI : HandoverInv phase stage s log)
    (h : ShotsInv s log shots) (hs : s.taskStep = some s') (o : List (Channel → List α)) :
    ShotsInv s' (log.next s .taskStep s' o) (shots.next s .taskStep) := by
  by_cases hclear : s.task = .clearITPendingBit
  · obtain rfl := hI.eq_calculating (by simp [hclear])
    obtain ⟨⟨⟨hquiet, -⟩, hnone⟩, -, -, -⟩ := hI.control
    have hspent := (h.spent hI).1
    have henabled := h.enabled
    simp only [System.taskStep, hclear] at hs
    cases hs
    rw [hclear] at henabled
    rw [Log.next_taskStep o (by simp [hclear]) (by simp)]
    have hshots : shots.next s .taskStep = shots := by simp [Shots.next, hclear]
    rw [hshots]
    refine ⟨henabled, h.rolls, h.triggers, h.disabling, ?_, h.tim5Flag, h.tim5Enable, ?_,
      h.tim5Due⟩
    · rintro (hset | hset)
      · exact absurd (hquiet.symm.trans hset) (by simp)
      · exact absurd (hnone.symm.trans hset) (by simp)
    · intro hlt
      exact absurd hlt (by omega)
  by_cases henable : s.task = .enableIT
  · obtain rfl := hI.eq_calculating (by simp [henable])
    obtain ⟨⟨⟨hquiet, hrolled⟩, hnone⟩, -, -, -⟩ := hI.control
    have hoff : s.excitation.enable = false := by
      rcases hrolled with hactive | ⟨-, hoff⟩
      · exact absurd (hnone.symm.trans hactive) (by simp)
      · exact hoff
    have henabled := h.enabled
    simp only [System.taskStep, henable] at hs
    cases hs
    rw [henable] at henabled
    rw [Log.next_taskStep o (by simp [henable]) (by simp)]
    have hshots : shots.next s .taskStep = { shots with enabled := shots.enabled + 1 } := by
      simp [Shots.next, henable]
    rw [hshots]
    refine ⟨?_, h.rolls, h.triggers, ?_, ?_, h.tim5Flag, h.tim5Enable, ?_, h.tim5Due⟩
    · exact congrArg (· + 1) henabled
    · intro hdisabling
      exact absurd (hnone.symm.trans hdisabling) (by simp)
    · intro hset
      simpa [Source.enableIT, hquiet, hoff, hnone] using hset
    · intro _
      cases hflag : s.excitation.flag with
      | false => exact .inr (.inr (.inr ⟨rfl, hflag⟩))
      | true =>
        left
        simp [Source.enableIT, hflag, hoff]
  · obtain ⟨hperformed, hacquired, hexc, htim, hhandler, hhandler5⟩ :=
      @performed_add_ahead α n s s' log hs hclear henable o
    have hshots : shots.next s .taskStep = shots := by simp [Shots.next, henable]
    rw [hshots]
    refine h.congr hexc htim ?_ hhandler5 hperformed (congrArg List.length hacquired)
    intro pc
    rw [hhandler]

/-! ## Runs -/

/-- The words that a stream moves are not counted. -/
theorem next_service {ch : Channel} (o : List (Channel → List α)) :
    (log.next s (.service ch) s' o).performed = log.performed ∧
      (log.next s (.service ch) s' o).acquired.length = log.acquired.length := by
  cases hdr : (s.channel ch).unit.dr with
  | none => simp [Log.next, hdr]
  | some w =>
    cases hacq : log.acquired with
    | nil => simp [Log.next, Log.move, hdr, hacq]
    | cons words earlier => simp [Log.next, Log.move, hdr, hacq]

/-- A statement of the handler of a channel leaves everything else as it is. -/
theorem adcStep_frame {ch : Channel} {pc : AdcStep} :
    (s.adcStep ch pc).excitation = s.excitation ∧ (s.adcStep ch pc).tim5 = s.tim5 ∧
      (∀ pc', (s.adcStep ch pc).handler ≠ some (.excitation pc')) ∧
      (s.adcStep ch pc).tim5Handler = s.tim5Handler ∧ (s.adcStep ch pc).task = s.task := by
  rcases pc with ⟨_ | _ | _ | _⟩ | _ <;>
    exact ⟨rfl, rfl, fun pc' => by simp [System.adcStep, CompleteStep.next], rfl, rfl⟩

/-- An ADC handler touches nothing that is counted. -/
theorem ShotsInv.adcStep {shots : Shots} (h : ShotsInv s log shots) {ch : Channel}
    {pc : AdcStep} (hpc : s.handler = some (.adc ch pc)) :
    ShotsInv (s.adcStep ch pc) (log.next s .handlerStep (s.adcStep ch pc) [])
      (shots.next s .handlerStep) := by
  have hshots : shots.next s .handlerStep = shots := by simp [Shots.next, hpc]
  obtain ⟨hexc, htim, hhandler, hhandler5, htask⟩ := @adcStep_frame α n s ch pc
  rw [hshots]
  refine h.congr hexc htim ?_ hhandler5 ?_ rfl
  · intro pc'
    simp [hhandler pc', hpc]
  · exact congrArg (fun t => log.performed + ahead t) htask

/-- **The step lemma** of the counts. -/
theorem ShotsInv.step {shots : Shots} (hI : HandoverInv phase stage s log)
    (h : ShotsInv s log shots) {e : Handover.Event α} {o : List (Channel → List α)}
    (hs : (machine α n).step s e = some (s', o)) :
    ShotsInv s' (log.next s e s' o) (shots.next s e) := by
  cases happens_of_step hs with
  | excitationComplete => exact h.excitationComplete
  | timerUpdate => exact h.timerUpdate
  | receive => exact h.congr rfl rfl (fun _ => Iff.rfl) rfl rfl rfl
  | @service ch c' =>
    obtain ⟨hperformed, hacquired⟩ := @next_service α n s (s.setChannel ch c') log ch []
    refine h.congr rfl rfl (fun _ => Iff.rfl) rfl ?_ hacquired
    exact congrArg (· + ahead s.task) hperformed
  | enterExcitation hpending => exact h.enterExcitation hpending
  | enterAdc _ hnone =>
    refine h.congr rfl rfl ?_ rfl rfl rfl
    intro pc
    simp [hnone]
  | enterTim5 hpending hnone5 => exact h.enterTim5 hpending hnone5
  | excitationStep hnone5 hpc => exact h.excitationStep hI hnone5 hpc
  | adcStep _ hpc => exact h.adcStep hpc
  | tim5Step ht => exact h.tim5Step hI ht
  | taskStep _ _ ht => exact h.taskStep hI ht _

/-- What was enabled, rolled and triggered for before a step of either kind. -/
theorem ShotsInv.oneShot {shots : Shots} {phase' : Phase} {stage' : Channel → Stage}
    (hI : HandoverInv phase stage s log) (h : ShotsInv s log shots) {e : Handover.Event α}
    {o : List (Channel → List α)} (hs : (machine α n).step s e = some (s', o))
    (hI' : HandoverInv phase' stage' s' log') (h' : ShotsInv s' log' (shots.next s e)) :
    OneShot (s, log, shots) e (s', log', shots.next s e) o := by
  refine ⟨h'.rolls_le hI', h'.triggers_le, ?_, ?_, h'.rollDue, fun ch => h'.triggerDue⟩
  · intro hnew
    cases e with
    | taskStep =>
      by_cases henable : s.task = .enableIT
      · obtain rfl := hI.eq_calculating (by simp [henable])
        exact h.spent hI
      · exact absurd (by simp [Shots.next, henable]) hnew
    | tim5Step => exact absurd next_tim5Step.1 hnew
    | handlerStep =>
      simp only [Shots.next] at hnew
      split_ifs at hnew <;> exact absurd rfl hnew
    | _ => exact absurd rfl hnew
  · intro hnew
    cases e with
    | handlerStep =>
      by_cases hroll : s.tim5Handler = none ∧ s.handler = some (.excitation .dmaroll)
      · obtain ⟨hnone, hpc⟩ := hroll
        obtain ⟨rfl, -⟩ := hI.eq_armed hpc (by simp)
        obtain ⟨-, ⟨-, hoff, -⟩, -⟩ := hI.control
        have hrolls := h.rolls_eq fun _ => hoff
        intro ch
        have htriggers := h.triggers ch
        rw [hnone, awaiting] at htriggers
        simp only
        omega
      · exact absurd (by simp only [Shots.next, if_neg hroll]) hnew
    | tim5Step => exact absurd next_tim5Step.2 hnew
    | taskStep =>
      simp only [Shots.next] at hnew
      split_ifs at hnew <;> exact absurd rfl hnew
    | _ => exact absurd rfl hnew

/-- The system with the history of the handover and the counts. -/
def shooting (α : Type*) (n : ℕ) :
    Machine (System α n × Log α × Shots) (Handover.Event α) (Channel → List α) :=
  (machine α n).observe fun h s e s' o => (h.1.next s e s' o, h.2.next s e)

/-- **Arming is one-shot.**  For every sample size from one on, from the state in which
`ResmodTask` has enabled the interrupt of `DMA1_Stream2`, and in every interleaving in
which no event of a source comes between the clearing of its flag and the disabling of its
interrupt by its handler, every step keeps arming one-shot.
SOURCE: tim.cc:48-54, dma1.cc:43-48, excitation.cc:110-116, resmod.cc:353-355 -/
theorem one_shot_of_noRearm (n : ℕ) (hn : 0 < n) (zero : α) (excitationFlag tim5Flag : Bool)
    (waveform : Channel → Vector α n) (events : List (Handover.Event α))
    (h : (shooting α n).Along (fun p e => NoRearm p.1 e)
      (afterEnable zero excitationFlag tim5Flag waveform, ⟨[], 0, 0⟩, ⟨1, 0, fun _ => 0⟩)
      events) :
    (shooting α n).Always OneShot
      (afterEnable zero excitationFlag tim5Flag waveform, ⟨[], 0, 0⟩, ⟨1, 0, fun _ => 0⟩)
      events := by
  refine Machine.always_of_invariant
    (fun p => (∃ phase stage, HandoverInv phase stage p.1 p.2.1) ∧ ShotsInv p.1 p.2.1 p.2.2)
    _ OneShot ?_ ⟨⟨_, _, handoverInv_afterEnable zero excitationFlag tim5Flag waveform⟩, ?_⟩ h
  · rintro ⟨s, log, shots⟩ e ⟨s', history⟩ o ⟨⟨phase, stage, hI⟩, hshots⟩ hfire hstep
    obtain ⟨hs, hhistory⟩ := Machine.observe_step_eq_some.mp hstep
    simp only at hs hhistory hfire
    subst hhistory
    obtain ⟨phase', stage', hI'⟩ := hI.step_of_noRearm hn hshots hfire hs
    have hshots' := hshots.step hI hs
    exact ⟨⟨⟨phase', stage', hI'⟩, hshots'⟩, hshots.oneShot hI hs hI' hshots'⟩
  · refine ⟨rfl, rfl, fun _ => rfl, ?_, ?_, ?_, ?_, ?_, ?_⟩
    · simp [afterEnable]
    · simp [afterEnable]
    · simp [afterEnable]
    · simp [afterEnable]
    · intro _
      cases excitationFlag with
      | false => exact .inr (.inr (.inr ⟨rfl, rfl⟩))
      | true => exact .inl rfl
    · simp [afterEnable]

/-- One roll and both triggers, with further events of either source while its flag is still
set and, for the timer, while its interrupt is disabled. -/
theorem one_shot_roll :
    (shooting ℕ 1).Always OneShot
      (afterEnable 0 false true fun _ => #v[5], ⟨[], 0, 0⟩, ⟨1, 0, fun _ => 0⟩)
      [.excitationComplete, .enterExcitation, .excitationComplete, .handlerStep, .handlerStep,
        .enterTim5, .timerUpdate, .tim5Step, .tim5Step, .timerUpdate, .tim5Step, .tim5Step,
        .tim5Step, .tim5Step, .tim5Step, .tim5Step, .handlerStep, .excitationComplete] :=
  one_shot_of_noRearm 1 (by decide) 0 false true (fun _ => #v[5]) _
    ⟨⟨nofun, nofun⟩, trivial, ⟨nofun, nofun⟩, trivial, trivial, trivial, nofun, trivial, trivial,
      nofun, trivial, trivial, trivial, trivial, trivial, trivial, trivial, ⟨nofun, nofun⟩,
      trivial⟩

/-- The excitation completes again while its handler stands before the disabling: the
handler is entered a second time and rolls for the same enabling.  The timer updates again
while its handler stands there: the voltage is triggered twice for one roll. -/
theorem not_one_shot_between :
    ¬ (shooting ℕ 1).Always OneShot
        (afterEnable 0 false false fun _ => #v[5], ⟨[], 0, 0⟩, ⟨1, 0, fun _ => 0⟩)
        [.excitationComplete, .enterExcitation, .handlerStep, .handlerStep,
          .excitationComplete, .handlerStep, .enterExcitation, .handlerStep, .handlerStep] ∧
      ¬ (shooting ℕ 1).Always OneShot
        (afterEnable 0 false false fun _ => #v[5], ⟨[], 0, 0⟩, ⟨1, 0, fun _ => 0⟩)
        [.excitationComplete, .enterExcitation, .handlerStep, .handlerStep, .handlerStep,
          .timerUpdate, .enterTim5, .tim5Step, .timerUpdate, .tim5Step, .tim5Step, .tim5Step,
          .tim5Step, .tim5Step, .tim5Step, .tim5Step, .enterTim5, .tim5Step, .tim5Step,
          .tim5Step] := by
  constructor
  · intro h
    exact absurd h.2.2.2.2.2.2.2.2.1.rolls_le (by decide)
  · intro h
    have hlast := h.2.2.2.2.2.2.2.2.2.2.2.2.2.2.2.2.2.2.2.1
    exact absurd (hlast.triggers_le .voltage) (by decide)

end Resmod.Analysis
