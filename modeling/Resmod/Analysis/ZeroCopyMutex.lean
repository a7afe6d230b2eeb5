import Resmod.Model.ZeroCopyTx

/-!
# Who owns the peripheral during a zero-copy write

The mutex of a zero-copy write is to be held from when a task obtains it until the
interrupt at the end of its transfer.  The macro that starts the transfer gives it back,
and the write function takes it again in the next statement but one.  A task that obtains
the mutex in between owns it together with the first.

A `Cycle` lists the phases that a peripheral goes through in a write, from rest to rest.
`OwnerInv` says which of them it is in, and what the mutex is, before every statement of the
task that owns it.  It is carried through every interleaving in which no interrupt gives the
mutex before the end of a transfer: the peripheral has one owner at a time if and only if no
task comes in between.
-/

set_option autoImplicit false

namespace Resmod.Analysis

open Resmod.Library Resmod.Model Resmod.Model.ZeroCopyTx

variable {σ : Type} {τ : Type*}

/-! ## The owner -/

/-- Who has obtained the mutex last, until the interrupt that gives it with all bytes sent. -/
def ownerAfter (D : Device σ) (d : σ) (owner : Option τ) : List (Action τ) → Option τ
  | [] => owner
  | .obtained t :: o => ownerAfter D d (some t) o
  | .gave :: o => ownerAfter D d (if D.finished d then none else owner) o
  | .started _ :: o => ownerAfter D d owner o
  | .returned _ _ :: o => ownerAfter D d owner o

/-- The peripheral together with the task that owns it. -/
def owned [DecidableEq τ] (D : Device σ) (fullAssert : Bool) :
    Machine (ZeroCopyTx σ τ × Option τ) (Event τ) (Action τ) :=
  (ZeroCopyTx.machine D fullAssert).observe fun owner s _ _ o => ownerAfter D s.device owner o

/-- What a task may do in a state, with the owner there: it obtains the mutex when there is
no owner, and starts a transfer when it is the owner and no other is under way. -/
def Allowed (D : Device σ) (p : ZeroCopyTx σ τ × Option τ) : Action τ → Prop
  | .obtained _ => p.2 = none
  | .started t => p.2 = some t ∧ D.finished p.1.device = true
  | .returned _ _ => True
  | .gave => True

instance decidableAllowed [DecidableEq τ] (D : Device σ) (p : ZeroCopyTx σ τ × Option τ) :
    DecidablePred (Allowed D p)
  | .obtained _ => inferInstanceAs (Decidable (p.2 = none))
  | .started t => inferInstanceAs (Decidable (p.2 = some t ∧ D.finished p.1.device = true))
  | .returned _ _ => .isTrue trivial
  | .gave => .isTrue trivial

/-- No task but the owner obtains the mutex or starts a transfer in the step. -/
def Exclusive (D : Device σ) (p : ZeroCopyTx σ τ × Option τ) (_ : Event τ)
    (_ : ZeroCopyTx σ τ × Option τ) (o : List (Action τ)) : Prop :=
  ∀ a ∈ o, Allowed D p a

instance decidableExclusive [DecidableEq τ] (D : Device σ) (p : ZeroCopyTx σ τ × Option τ)
    (e : Event τ) (p' : ZeroCopyTx σ τ × Option τ) (o : List (Action τ)) :
    Decidable (Exclusive D p e p' o) :=
  inferInstanceAs (Decidable (∀ a ∈ o, Allowed D p a))

/-- The task has given the mutex back and not taken it again. -/
def Between : Place → Prop
  | .writing .clearTask _ => True
  | .writing .retake _ => True
  | _ => False

instance decidableBetween : DecidablePred Between := fun q => by
  unfold Between
  split <;> infer_instance

/-- No task obtains the mutex while another has given it back and not taken it again. -/
def NotBetween (p : ZeroCopyTx σ τ × Option τ) : Event τ → Prop
  | .obtain _ => p.1.mutex = true → ∀ u, ¬ Between (p.1.place u)
  | _ => True

/-- The handler gives the mutex only when all bytes have been sent. -/
def GivesAtTheEnd (D : Device σ) (p : ZeroCopyTx σ τ × Option τ) : Event τ → Prop
  | .move m => (D.move p.1.device m).any (·.2) = true → D.finished p.1.device = true
  | _ => True

instance decidableGivesAtTheEnd (D : Device σ) (p : ZeroCopyTx σ τ × Option τ) :
    DecidablePred (GivesAtTheEnd D p)
  | .move m => inferInstanceAs (Decidable ((D.move p.1.device m).any (·.2) = true →
      D.finished p.1.device = true))
  | .obtain _ => .isTrue trivial
  | .call _ _ _ => .isTrue trivial
  | .run _ => .isTrue trivial

/-! ## The phases of a write -/

/-- The moves of the peripheral keep `P` and do not give the mutex. -/
def Silent (D : Device σ) (P : σ → Prop) : Prop :=
  ∀ d m d' gave, P d → D.move d m = some (d', gave) → P d' ∧ gave = false

/-- The phases of the peripheral and what leads from one to the next. -/
structure Cycle (D : Device σ) where
  /-- Nothing is on its way, and no interrupt will give the mutex. -/
  Rest : σ → Prop
  /-- At rest, behind the first statement that disables the interrupt. -/
  Masked : σ → Prop
  /-- At rest, with the interrupt disabled. -/
  Ready : σ → Prop
  /-- A transfer is under way or done, with the interrupt disabled. -/
  Busy : σ → Prop
  /-- As `Busy`, with the interrupt enabled. -/
  Live : σ → Prop
  disable : ∀ d, Rest d → D.inHandler d = false → Masked (D.disableInterrupt d)
  prepare : ∀ d, Masked d → Ready (D.prepare d)
  disableRequest : ∀ d, Ready d → Ready (D.disableRequest d)
  start : ∀ n d, Ready d → Busy (D.startStream n d)
  enableRequest : ∀ d, Busy d → Busy (D.enableRequest d)
  enable : ∀ d, Busy d → Live (D.enableInterrupt d)
  finished : ∀ d, Ready d → D.finished d = true
  silent_rest : Silent D Rest
  silent_masked : Silent D Masked
  silent_ready : Silent D Ready
  silent_busy : Silent D Busy
  live : ∀ d m d', Live d → D.move d m = some (d', false) → Live d'
  /-- The interrupt at the end of the transfer. -/
  ends : ∀ d m d', Live d → D.finished d = true → D.move d m = some (d', true) → Rest d'

/-! ## The invariant -/

/-- The phase of the peripheral before each statement of the owner. -/
def Cycle.phaseAt {D : Device σ} (C : Cycle D) : Place → σ → Prop
  | .taken | .obtained => C.Rest
  | .writing statement _ =>
    match statement with
    | .assertReached _ | .disableInterrupt => C.Rest
    | .assertTaken =>
      match D.driver with
      | .uart => C.Rest
      | .ssp => C.Ready
    | .prepare => C.Masked
    | .checkTask | .disableRequest | .startStream => C.Ready
    | .enableRequest | .give | .clearTask | .retake | .enableInterrupt => C.Busy
    | .return => C.Live
  | .idle => C.Live

/-- The UART is at rest when the assertion on the mutex is reached. -/
theorem Cycle.phaseAt_taken_uart {D : Device σ} (C : Cycle D) (h : D.driver = .uart) {n : ℕ} :
    C.phaseAt (.writing .assertTaken n) = C.Rest := by
  simp only [phaseAt, h]

/-- The SPI is ready when the assertion on the mutex is reached. -/
theorem Cycle.phaseAt_taken_ssp {D : Device σ} (C : Cycle D) (h : D.driver = .ssp) {n : ℕ} :
    C.phaseAt (.writing .assertTaken n) = C.Ready := by
  simp only [phaseAt, h]

/-- What `xTask` is before each statement of the owner. -/
def TaskAt (t : τ) : Place → Option τ → Prop
  | .taken => fun _ => True
  | .obtained => fun x => x = some t
  | .writing statement _ =>
    match statement with
    | .clearTask => fun _ => True
    | .retake | .enableInterrupt | .return => fun x => x = none
    | _ => fun x => x = some t
  | .idle => fun x => x = none

/-- What holds before each statement of the owner. -/
structure OwnerAt {D : Device σ} (C : Cycle D) (s : ZeroCopyTx σ τ) (t : τ) (q : Place) :
    Prop where
  mutex : s.mutex = decide (Between q)
  task : TaskAt t q s.xTask
  phase : C.phaseAt q s.device

/-- The task does nothing that concerns the peripheral. -/
def Outside : Place → Prop
  | .idle => True
  | .writing .return _ => True
  | _ => False

/-- The peripheral and the mutex, with an owner and without one. -/
structure OwnerInv {D : Device σ} (C : Cycle D) (p : ZeroCopyTx σ τ × Option τ) : Prop where
  outside : ∀ u, p.2 ≠ some u → Outside (p.1.place u)
  free : p.2 = none → p.1.mutex = true ∧ p.1.xTask = none ∧ C.Rest p.1.device
  owner : ∀ t, p.2 = some t → OwnerAt C p.1 t (p.1.place t)

/-- A failed assertion has stopped everything, or the invariant holds. -/
def OwnedInv {D : Device σ} (C : Cycle D) (p : ZeroCopyTx σ τ × Option τ) : Prop :=
  p.1.halted = true ∨ OwnerInv C p

/-! ## What the invariant says -/

variable {D : Device σ} {C : Cycle D} {fullAssert : Bool} {s s' : ZeroCopyTx σ τ} {t u : τ}
  {q q' : Place}

/-- A task outside its call does not stand between give and take. -/
theorem Outside.not_between (h : Outside q) : ¬ Between q := by
  intro hbetween
  unfold Between at hbetween
  split at hbetween
  · exact h
  · exact h
  · exact hbetween

/-- The invariant before the first call. -/
theorem ownerInv_initial {d : σ} (hrest : C.Rest d) :
    OwnerInv C (ZeroCopyTx.initial d, (none : Option τ)) where
  outside := fun _ _ => trivial
  free := fun _ => ⟨rfl, rfl, hrest⟩
  owner := fun t hnone => absurd hnone (by simp)

/-- A run of actions of the tasks other than obtaining the mutex leaves the owner. -/
theorem ownerAfter_of_writing {d : σ} {o : List (Action τ)}
    (h : ∀ a ∈ o, (∃ t, a = .started t) ∨ ∃ t n, a = .returned t n) (owner : Option τ) :
    ownerAfter D d owner o = owner := by
  induction o with
  | nil => rfl
  | cons a o ih =>
    have hrest := ih fun b hb => h b (List.mem_cons_of_mem _ hb)
    rcases h a List.mem_cons_self with ⟨t, rfl⟩ | ⟨t, n, rfl⟩ <;> exact hrest

/-! ## The moves of the peripheral -/

/-- The phase of an owner that is not outside gives no mutex. -/
theorem silent_phaseAt (hq : ¬ Outside q) : Silent D (C.phaseAt q) := by
  cases q with
  | idle => exact absurd trivial hq
  | taken => exact C.silent_rest
  | obtained => exact C.silent_rest
  | writing statement xBytes =>
    cases statement with
    | assertReached pvBuffer => exact C.silent_rest
    | disableInterrupt => exact C.silent_rest
    | assertTaken =>
      cases hdriver : D.driver with
      | uart =>
        rw [C.phaseAt_taken_uart hdriver]
        exact C.silent_rest
      | ssp =>
        rw [C.phaseAt_taken_ssp hdriver]
        exact C.silent_ready
    | prepare => exact C.silent_masked
    | checkTask => exact C.silent_ready
    | disableRequest => exact C.silent_ready
    | startStream => exact C.silent_ready
    | «return» => exact absurd trivial hq
    | _ => exact C.silent_busy

/-- While the owner is outside the peripheral is `Live`. -/
theorem OwnerAt.of_outside (h : OwnerAt C s t q) (hq : Outside q) :
    s.mutex = false ∧ s.xTask = none ∧ C.Live s.device := by
  have hmutex : s.mutex = false := by
    rw [h.mutex, decide_eq_false hq.not_between]
  obtain ⟨-, htask, hphase⟩ := h
  unfold Outside at hq
  split at hq
  · exact ⟨hmutex, htask, hphase⟩
  · exact ⟨hmutex, htask, hphase⟩
  · exact hq.elim

/-- A task that has left its call owns the transfer under way. -/
theorem OwnerAt.of_live (hmutex : s.mutex = false) (htask : s.xTask = none)
    (hlive : C.Live s.device) (hq : Outside q) : OwnerAt C s t q := by
  have hbetween := hmutex.trans (decide_eq_false hq.not_between).symm
  unfold Outside at hq
  split at hq
  · exact ⟨hbetween, htask, hlive⟩
  · exact ⟨hbetween, htask, hlive⟩
  · exact hq.elim

/-- A move that does not give the mutex. -/
theorem OwnerInv.move_silent {owner : Option τ} (h : OwnerInv C (s, owner)) {m : Move} {d : σ}
    (hmove : D.move s.device m = some (d, false)) :
    OwnerInv C ({ s with device := d }, owner) where
  outside := h.outside
  free := by
    intro hnone
    obtain ⟨hmutex, htask, hrest⟩ := h.free hnone
    exact ⟨hmutex, htask, (C.silent_rest _ _ _ _ hrest hmove).1⟩
  owner := by
    intro t ht
    have hat := h.owner t ht
    by_cases hq : Outside (s.place t)
    · obtain ⟨hmutex, htask, hlive⟩ := hat.of_outside hq
      exact .of_live hmutex htask (C.live _ _ _ hlive hmove) hq
    · exact ⟨hat.mutex, hat.task, (silent_phaseAt hq _ _ _ _ hat.phase hmove).1⟩

/-- The interrupt at the end: nobody owns the peripheral behind it. -/
theorem OwnerInv.move_gives {owner : Option τ} (h : OwnerInv C (s, owner)) {m : Move} {d : σ}
    (hmove : D.move s.device m = some (d, true)) (hfinished : D.finished s.device = true) :
    OwnerInv C ({ s with device := d, mutex := true }, (none : Option τ)) := by
  cases owner with
  | none =>
    have hsilent := (C.silent_rest _ _ _ _ (h.free rfl).2.2 hmove).2
    exact absurd hsilent Bool.noConfusion
  | some t =>
    have hat := h.owner t rfl
    have hq : Outside (s.place t) := by
      by_contra hq
      exact absurd (silent_phaseAt hq _ _ _ _ hat.phase hmove).2 Bool.noConfusion
    obtain ⟨-, htask, hlive⟩ := hat.of_outside hq
    constructor
    · intro u _
      by_cases hut : u = t
      · rw [hut]
        exact hq
      · exact h.outside u fun heq => hut (Option.some.inj heq).symm
    · exact fun _ => ⟨rfl, htask, C.ends _ _ _ hlive hfinished hmove⟩
    · exact fun u hu => absurd hu (by simp)

/-! ## The statements of the tasks -/

variable [DecidableEq τ]

/-- What a statement of the owner does: an assertion halts, or the owner goes on to a place
before which the invariant holds; and it starts a transfer only at rest. -/
structure Leads (C : Cycle D) (s : ZeroCopyTx σ τ) (t : τ) (s' : ZeroCopyTx σ τ)
    (o : List (Action τ)) : Prop where
  next : s'.halted = true ∨ ∃ s₁ q, s' = s₁.goTo t q ∧ s₁.place = s.place ∧ OwnerAt C s₁ t q
  actions : ∀ a ∈ o, a = .started t ∧ D.finished s.device = true ∨ ∃ n, a = .returned t n

/-- A statement that the peripheral does not notice. -/
theorem leads_silent (s₁ : ZeroCopyTx σ τ) (hplace : s₁.place = s.place)
    (hat : OwnerAt C s₁ t q) : Leads C s t (s₁.goTo t q) [] :=
  ⟨.inr ⟨s₁, q, rfl, hplace, hat⟩, fun _ ha => absurd ha List.not_mem_nil⟩

/-- The assertion holds when the owner is before it, with `USE_FULL_ASSERT` or without. -/
theorem assertTaken_of_taken (hmutex : s.mutex = false) :
    assertTaken fullAssert s t q = s.goTo t q := by
  unfold assertTaken
  rw [if_neg]
  rw [hmutex]
  exact fun h => absurd h.2 Bool.false_ne_true

/-- **The owner's statements.**  Each passes from what holds before it to what holds before
the next, and a transfer is started only when none is under way. -/
theorem OwnerAt.runStatement {statement : Statement} {n : ℕ}
    (hat : OwnerAt C s t (.writing statement n)) (hhandler : D.inHandler s.device = false) :
    Leads C s t (runStatement D fullAssert s t n statement).1
      (runStatement D fullAssert s t n statement).2 := by
  obtain ⟨hmutex, htask, hphase⟩ := hat
  cases statement with
  | assertReached pvBuffer =>
    rw [ZeroCopyTx.runStatement]
    split
    · exact ⟨.inl rfl, fun _ ha => absurd ha List.not_mem_nil⟩
    · refine leads_silent s rfl ?_
      cases hdriver : D.driver with
      | uart => exact ⟨hmutex, htask, by rwa [Driver.afterReached, C.phaseAt_taken_uart hdriver]⟩
      | ssp => exact ⟨hmutex, htask, hphase⟩
  | assertTaken =>
    rw [ZeroCopyTx.runStatement, assertTaken_of_taken hmutex]
    refine leads_silent s rfl ?_
    cases hdriver : D.driver with
    | uart => exact ⟨hmutex, htask, by rwa [C.phaseAt_taken_uart hdriver] at hphase⟩
    | ssp => exact ⟨hmutex, htask, by rwa [C.phaseAt_taken_ssp hdriver] at hphase⟩
  | disableInterrupt =>
    exact leads_silent _ rfl ⟨hmutex, htask, C.disable _ hphase hhandler⟩
  | prepare =>
    have hready := C.prepare _ hphase
    rw [ZeroCopyTx.runStatement]
    refine leads_silent _ rfl ?_
    cases hdriver : D.driver with
    | uart => exact ⟨hmutex, htask, hready⟩
    | ssp => exact ⟨hmutex, htask, by rwa [Driver.afterPrepare, C.phaseAt_taken_ssp hdriver]⟩
  | checkTask =>
    have hself : s.xTask = some t := htask
    rw [ZeroCopyTx.runStatement, if_pos hself]
    exact leads_silent s rfl ⟨hmutex, htask, hphase⟩
  | disableRequest => exact leads_silent _ rfl ⟨hmutex, htask, C.disableRequest _ hphase⟩
  | startStream =>
    refine ⟨.inr ⟨_, _, rfl, rfl, hmutex, htask, C.start _ _ hphase⟩, ?_⟩
    intro a ha
    exact .inl ⟨List.mem_singleton.mp ha, C.finished _ hphase⟩
  | enableRequest => exact leads_silent _ rfl ⟨hmutex, htask, C.enableRequest _ hphase⟩
  | give => exact leads_silent _ rfl ⟨rfl, trivial, hphase⟩
  | clearTask => exact leads_silent _ rfl ⟨hmutex, rfl, hphase⟩
  | retake => exact leads_silent _ rfl ⟨rfl, htask, hphase⟩
  | enableInterrupt => exact leads_silent _ rfl ⟨hmutex, htask, C.enable _ hphase⟩
  | «return» =>
    refine ⟨.inr ⟨s, .idle, rfl, rfl, hmutex, htask, hphase⟩, ?_⟩
    intro a ha
    exact .inr ⟨n, List.mem_singleton.mp ha⟩

/-- The next statement of the owner. -/
theorem OwnerAt.run {o : List (Action τ)} (hat : OwnerAt C s t (s.place t))
    (hhandler : D.inHandler s.device = false)
    (hrun : runTask D fullAssert s t = some (s', o)) : Leads C s t s' o := by
  unfold runTask at hrun
  generalize s.place t = q at hat hrun
  cases q with
  | idle => exact absurd hrun (by simp)
  | obtained => exact absurd hrun (by simp)
  | taken =>
    cases hrun
    exact leads_silent _ rfl ⟨hat.mutex, rfl, hat.phase⟩
  | writing statement n =>
    have hleads : Leads C s t (ZeroCopyTx.runStatement D fullAssert s t n statement).1
        (ZeroCopyTx.runStatement D fullAssert s t n statement).2 := hat.runStatement hhandler
    rw [Option.some.inj hrun] at hleads
    exact hleads

/-- A task that is outside can only return. -/
theorem runTask_of_outside {o : List (Action τ)} (hout : Outside (s.place t))
    (hrun : runTask D fullAssert s t = some (s', o)) :
    s' = s.goTo t .idle ∧ ∃ n, o = [.returned t n] := by
  unfold runTask at hrun
  generalize s.place t = q at hout hrun
  unfold Outside at hout
  split at hout
  · exact absurd hrun (by simp)
  · cases hrun
    exact ⟨rfl, _, rfl⟩
  · exact hout.elim

/-! ## The steps -/

/-- A task obtains the mutex that nobody has. -/
theorem OwnerInv.obtain (h : OwnerInv C (s, none)) (t : τ) :
    OwnerInv C ({ s with mutex := false }.goTo t .taken, some t) where
  outside := by
    intro u hu
    have hne : u ≠ t := fun heq => hu (heq ▸ rfl)
    show Outside (({ s with mutex := false }.goTo t .taken).place u)
    rw [goTo_place_of_ne _ _ hne]
    exact h.outside u (by simp)
  free := fun hnone => absurd hnone (by simp)
  owner := by
    intro u hu
    cases hu
    simp only [goTo_place_self]
    exact ⟨rfl, trivial, (h.free rfl).2.2⟩

/-- The owner goes on. -/
theorem OwnerInv.goTo_owner (h : OwnerInv C (s, some t)) {s₁ : ZeroCopyTx σ τ}
    (hplace : s₁.place = s.place) (hat : OwnerAt C s₁ t q) :
    OwnerInv C (s₁.goTo t q, some t) := by
  constructor
  · intro u hu
    have hne : u ≠ t := fun heq => hu (heq ▸ rfl)
    show Outside ((s₁.goTo t q).place u)
    rw [goTo_place_of_ne _ _ hne, hplace]
    exact h.outside u hu
  · exact fun hnone => absurd hnone (by simp)
  · intro u hu
    cases hu
    simp only [goTo_place_self]
    exact ⟨hat.mutex, hat.task, hat.phase⟩

/-- A task that is not the owner returns. -/
theorem OwnerInv.goTo_other {owner : Option τ} (h : OwnerInv C (s, owner))
    (ht : owner ≠ some t) : OwnerInv C (s.goTo t .idle, owner) where
  outside := by
    intro u hu
    by_cases hut : u = t
    · rw [hut]
      simp only [goTo_place_self]
      trivial
    · simp only [goTo_place_of_ne s .idle hut]
      exact h.outside u hu
  free := h.free
  owner := by
    intro u hu
    have hne : u ≠ t := by
      intro heq
      rw [heq] at hu
      exact ht hu
    simp only [goTo_place_of_ne s .idle hne]
    exact ⟨(h.owner u hu).mutex, (h.owner u hu).task, (h.owner u hu).phase⟩

omit [DecidableEq τ] in
/-- A task that obtains the mutex is alone if and only if it does not come in between. -/
theorem exclusive_obtain {owner : Option τ} (h : OwnerInv C (s, owner)) (hmutex : s.mutex = true)
    (p' : ZeroCopyTx σ τ × Option τ) :
    Exclusive D (s, owner) (.obtain t) p' [.obtained t] ↔
      NotBetween (s, owner) (.obtain t) := by
  cases owner with
  | none =>
    refine iff_of_true ?_ fun _ u => (h.outside u (by simp)).not_between
    intro a ha
    rw [List.mem_singleton.mp ha]
    rfl
  | some v =>
    have hbetween : Between (s.place v) := by
      have hat := (h.owner v rfl).mutex
      rw [show s.mutex = true from hmutex] at hat
      exact of_decide_eq_true hat.symm
    refine iff_of_false ?_ fun hno => hno hmutex v hbetween
    intro hexcl
    have hfree : some v = none := hexcl _ List.mem_cons_self
    exact absurd hfree (by simp)

/-- **A step of a task** is exclusive if and only if the task does not come in between, and then
keeps the invariant. -/
theorem exclusive_taskStep {owner : Option τ} (h : OwnerInv C (s, owner)) {e : Event τ}
    {o : List (Action τ)} (hhandler : D.inHandler s.device = false)
    (hs : taskStep D fullAssert s e = some (s', o)) :
    (Exclusive D (s, owner) e (s', ownerAfter D s.device owner o) o ↔
        NotBetween (s, owner) e) ∧
      (NotBetween (s, owner) e → OwnedInv C (s', ownerAfter D s.device owner o)) := by
  cases e with
  | obtain t =>
    simp only [taskStep] at hs
    split_ifs at hs with hidle hmutex
    · cases hs
      have hiff := exclusive_obtain (D := D) (t := t) h hmutex
        ({ s with mutex := false }.goTo t .taken, some t)
      refine ⟨hiff, fun hno => .inr ?_⟩
      have hfree : owner = none := hiff.mpr hno _ List.mem_cons_self
      subst hfree
      exact h.obtain t
    · -- the task does not get the mutex
      cases hs
      exact ⟨iff_of_true (fun a ha => absurd ha List.not_mem_nil)
        fun htrue => absurd htrue hmutex, fun _ => .inr h⟩
  | call t pvBuffer n =>
    simp only [taskStep] at hs
    split_ifs at hs with hplace
    cases hs
    refine ⟨iff_of_true (fun a ha => absurd ha List.not_mem_nil) trivial, fun _ => .inr ?_⟩
    have howner : owner = some t := by
      by_contra hne
      have hout := h.outside t hne
      rw [show s.place t = .obtained from hplace] at hout
      exact hout
    subst howner
    have hat := h.owner t rfl
    simp only [hplace] at hat
    exact h.goTo_owner rfl ⟨hat.mutex, hat.task, hat.phase⟩
  | run t =>
    have hrun : runTask D fullAssert s t = some (s', o) := hs
    by_cases ht : owner = some t
    · subst ht
      have hleads := (h.owner t rfl).run hhandler hrun
      have hafter : ownerAfter D s.device (some t) o = some t := by
        apply ownerAfter_of_writing
        intro a ha
        rcases hleads.actions a ha with ⟨rfl, -⟩ | ⟨n, rfl⟩
        · exact .inl ⟨t, rfl⟩
        · exact .inr ⟨t, n, rfl⟩
      rw [hafter]
      refine ⟨iff_of_true ?_ trivial, fun _ => ?_⟩
      · intro a ha
        rcases hleads.actions a ha with ⟨rfl, hfinished⟩ | ⟨n, rfl⟩
        · exact ⟨rfl, hfinished⟩
        · trivial
      · rcases hleads.next with hhalted | ⟨s₁, q, rfl, hplace, hat⟩
        · exact .inl hhalted
        · exact .inr (h.goTo_owner hplace hat)
    · obtain ⟨rfl, n, rfl⟩ := runTask_of_outside (h.outside t ht) hrun
      refine ⟨iff_of_true ?_ trivial, fun _ => .inr (h.goTo_other ht)⟩
      intro a ha
      rw [List.mem_singleton.mp ha]
      trivial
  | move m => exact absurd hs (by simp [taskStep])

omit [DecidableEq τ] in
/-- **A move** is exclusive, and keeps the invariant if it gives the mutex at the end only. -/
theorem exclusive_move {owner : Option τ} (h : OwnerInv C (s, owner)) {m : Move} {r : σ × Bool}
    (hmove : D.move s.device m = some r)
    (hend : GivesAtTheEnd D (s, owner) (.move m)) :
    (∀ a ∈ (afterMove s r).2, Allowed D (s, owner) a) ∧
      OwnedInv C ((afterMove s r).1, ownerAfter D s.device owner (afterMove s r).2) := by
  obtain ⟨d, gave⟩ := r
  cases gave with
  | false => exact ⟨fun a ha => absurd ha List.not_mem_nil, .inr (h.move_silent hmove)⟩
  | true =>
    have hfinished : D.finished s.device = true := by
      apply hend
      rw [hmove]
      rfl
    have hafter : ownerAfter D s.device owner [.gave] = none := if_pos hfinished
    refine ⟨fun a ha => ?_, .inr ?_⟩
    · rw [List.mem_singleton.mp ha]
      trivial
    · show OwnerInv C (_, ownerAfter D s.device owner [.gave])
      rw [hafter]
      exact h.move_gives hmove hfinished

/-- **The step lemma.**  From the invariant a step whose interrupt is the end of a transfer is
exclusive if and only if no task comes in between, and then the invariant holds after it. -/
theorem exclusive_step {p p' : ZeroCopyTx σ τ × Option τ} {e : Event τ} {o : List (Action τ)}
    (h : OwnedInv C p) (hend : GivesAtTheEnd D p e)
    (hstep : (owned D fullAssert).step p e = some (p', o)) :
    (Exclusive D p e p' o ↔ NotBetween p e) ∧ (NotBetween p e → OwnedInv C p') := by
  obtain ⟨s, owner⟩ := p
  obtain ⟨s', owner'⟩ := p'
  obtain ⟨hs, howner⟩ := Machine.observe_step_eq_some.mp hstep
  simp only [machine, Option.ite_none_left_eq_some] at hs howner
  obtain ⟨hrunning, hs⟩ := hs
  subst howner
  have hinv : OwnerInv C (s, owner) := h.resolve_left hrunning
  cases e with
  | move m =>
    obtain ⟨r, hmove, hr⟩ := Option.map_eq_some_iff.mp hs
    obtain ⟨hallowed, hnext⟩ := exclusive_move hinv hmove hend
    rw [hr] at hallowed hnext
    exact ⟨iff_of_true hallowed trivial, fun _ => hnext⟩
  | _ =>
    simp only [ZeroCopyTx.step, Option.ite_none_left_eq_some, Bool.not_eq_true] at hs
    exact exclusive_taskStep hinv hs.1 hs.2

/-- **One owner at a time**, for any peripheral with the phases of a write: in every
interleaving in which the handler gives the mutex at the end of a transfer only. -/
theorem Cycle.exclusive_iff_notBetween (C : Cycle D) (fullAssert : Bool) {d : σ} (hrest : C.Rest d)
    {events : List (Event τ)}
    (hend : (owned D fullAssert).Along (GivesAtTheEnd D) (ZeroCopyTx.initial d, none) events) :
    (owned D fullAssert).Always (Exclusive D) (ZeroCopyTx.initial d, none) events ↔
      (owned D fullAssert).Always (fun p e _ _ => NotBetween p e)
        (ZeroCopyTx.initial d, none) events :=
  Machine.always_congr_of_along (OwnedInv C) (GivesAtTheEnd D)
    (fun _ _ _ _ h hend hstep => exclusive_step h hend hstep) (.inr (ownerInv_initial hrest))
    hend

end Resmod.Analysis
