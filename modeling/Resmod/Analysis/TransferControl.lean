import Resmod.Model.TransferControl

/-!
# What the functions on transfer control structures do

`Control` says that a control structure is NULL, or is there with what its type asks for.
Every function has one triple: a deletion frees the state and what it points to, a
configuration ends with the structure of its type or with NULL, and the functions that
transfer leave everything in its place.
-/

set_option autoImplicit false

namespace Resmod.Analysis

open Resmod.Library Resmod.Library.Assertion
open Resmod.Model Resmod.Model.TransferControl

namespace TransferControl

/-! ## Ownership -/

/-- `pvTransferState` points to a structure that has the correct members in accordance with
`ucType`.  SOURCE: FreeRTOS_DriverInterface.h:68-72 -/
def State : TransferType → Option ℕ → Assertion Block
  | .polledTx, none | .polledRx, none => emp
  | .zeroCopyTx, some p => fun h =>
    ∃ q, ((pts p (.zeroCopyTxState (some q))).sep (pts q .queue)) h
  | .characterQueueTx, some p | .characterQueueRx, some p => fun h =>
    ∃ q, ((pts p (.characterQueueState (some q))).sep (pts q .queue)) h
  | .circularBufferRx, some p => fun h =>
    ∃ q : ℕ × ℕ, ((pts p (.circularBufferRxState (some q.1) (some q.2))).sep
      ((pts q.1 .queue).sep (pts q.2 .buffer))) h
  | _, _ => fun _ => False

/-- A transfer control structure with its state. -/
def ControlOf (p : ℕ) (ucType : TransferType) (pvTransferState : Option ℕ) :
    Assertion Block :=
  (pts p (.transferControl ucType pvTransferState)).sep (State ucType pvTransferState)

/-- The types of the structures for transmission. -/
def IsTx : TransferType → Prop
  | .zeroCopyTx | .characterQueueTx => True
  | _ => False

/-- The types of the structures for reception. -/
def IsRx : TransferType → Prop
  | .characterQueueRx | .circularBufferRx => True
  | _ => False

/-- One side of a UART: no structure, or one of a type of the side. -/
def Control (side : TransferType → Prop) : Option ℕ → Assertion Block
  | none => emp
  | some p => fun h => ∃ c : TransferType × Option ℕ, side c.1 ∧ ControlOf p c.1 c.2 h

variable {P R : Assertion Block} {α γ : Type} {S : γ → Assertion Block} {p : ℕ}
  {fullAssert : Bool} {available : ℕ → Bool} {side : TransferType → Prop} {ucType : TransferType}
  {pvTransferState : Option ℕ}

/-- A pure fact in front of a triple. -/
theorem triple_of_and {A : Prop} {c : Command Block γ} (htriple : A → Triple P c S) :
    Triple (fun h => A ∧ P h) c S := fun h own rest hsplit hown =>
  htriple hown.1 h own rest hsplit hown.2

/-- A pointer to a structure that is owned is followed. -/
theorem triple_follow {view : Block → Option α} {b : Block} {x : α} {f : α → Command Block γ}
    (hf : Triple ((pts p b).sep R) (f x) S) (hview : view b = some x) :
    Triple ((pts p b).sep R) (follow view (some p) >>= f) S := by
  rw [follow, bind_assoc]
  apply Triple.load
  simp only [hview, pure_bind]
  exact hf

/-- A block that is followed at the end of a program. -/
theorem triple_follow_last {view : Block → Option Unit} {b : Block} (hview : view b = some ()) :
    Triple ((pts p b).sep R) (follow view (some p)) fun _ => (pts p b).sep R := by
  rw [← bind_pure (follow view (some p))]
  exact triple_follow (.ret fun _ hown => hown) hview

/-- A block is freed at the end of a program. -/
theorem triple_free_last {b : Block} :
    Triple (pts p b) (Command.free p) fun _ => (emp : Assertion Block) := by
  rw [← bind_pure (Command.free p), ← sep_emp (P := pts p b)]
  exact .free (.ret fun _ hown => hown)

/-! ## Deleting and creating -/

/-- The state and what it points to are freed, by the type. -/
theorem deleteTransferState_spec :
    Triple (State ucType pvTransferState) (deleteTransferState ucType pvTransferState)
      fun _ => (emp : Assertion Block) := by
  rcases pvTransferState with _ | p
  · cases ucType with
    | polledTx | polledRx => exact .ret fun _ hown => hown
    | zeroCopyTx | characterQueueTx | characterQueueRx | circularBufferRx =>
      rintro _ _ _ _ ⟨⟩
  · cases ucType with
    | polledTx | polledRx => rintro _ _ _ _ ⟨⟩
    | zeroCopyTx | characterQueueTx | characterQueueRx =>
      apply Triple.exists_intro
      intro q
      refine triple_follow ?_ rfl
      rw [sep_comm]
      exact .free triple_free_last
    | circularBufferRx =>
      apply Triple.exists_intro
      rintro ⟨q, r⟩
      refine triple_follow ?_ rfl
      rw [sep_left_comm]
      apply Triple.free
      rw [sep_comm]
      exact .free triple_free_last

/-- A structure that is there is kept, without its state. -/
theorem vIOUtilsCreateTransferControlStructure_some :
    Triple (Control side (some p)) (vIOUtilsCreateTransferControlStructure available (some p))
      fun p' h => p' = some p ∧ ∃ b, pts p b h := by
  apply Triple.exists_intro
  rintro ⟨ucType, pvTransferState⟩
  apply triple_of_and
  intro hside
  refine triple_follow ?_ rfl
  show Triple ((pts p _).sep (State ucType pvTransferState)) _ _
  rw [sep_comm]
  refine .bind deleteTransferState_spec.frame fun _ => ?_
  rw [emp_sep, ← sep_emp (P := pts p _)]
  refine .store (.ret fun h hown => ⟨rfl, ?_⟩)
  rw [sep_emp] at hown
  exact ⟨_, hown⟩

/-- A state with its queue is allocated, or nothing is. -/
theorem createStateWithQueue_spec {state : Option ℕ → Block} :
    Triple emp (createStateWithQueue available state) fun p h => match p with
      | none => emp h
      | some p => ∃ q, ((pts p (state (some q))).sep (pts q .queue)) h := by
  apply Triple.alloc
  · exact .ret fun _ hown => hown
  · intro p
    apply Triple.store
    apply Triple.alloc
    · exact .free (.ret fun _ hown => hown)
    · intro q
      rw [sep_left_comm, sep_emp]
      exact .store (.ret fun h hown => ⟨q, hown⟩)

/-- A state with its semaphore and its buffer is allocated, or nothing is. -/
theorem createCircularBufferState_spec :
    Triple emp (createCircularBufferState available) fun p h => match p with
      | none => emp h
      | some p => State .circularBufferRx (some p) h := by
  apply Triple.alloc
  · exact .ret fun _ hown => hown
  · intro p
    apply Triple.store
    apply Triple.alloc
    · exact .free (.ret fun _ hown => hown)
    · intro q
      rw [sep_left_comm]
      apply Triple.store
      apply Triple.alloc
      · rw [sep_left_comm]
        exact .free (.store (.free (.ret fun _ hown => hown)))
      · intro r
        rw [sep_left_comm]
        refine .store (.ret fun h hown => ⟨(q, r), ?_⟩)
        rwa [sep_emp, sep_comm (P := pts r _)] at hown

/-! ## Configuring -/

/-- What a configuration answers: it passes if and only if there is a structure, in its old
place if it had one, and stops only where there was none before. -/
structure Answer (pxTransferControl : Option ℕ) (r : Option Bool × Option ℕ) : Prop where
  passed : r.1 = some true ↔ r.2.isSome
  stopped : r.1 = none → pxTransferControl = none
  kept : ∀ p, pxTransferControl = some p → r.2 = some p ∨ r.2 = none

/-- The result of a configuration: the structure of the type that was asked for, or NULL. -/
def Configured (ucType : TransferType) (pxTransferControl : Option ℕ)
    (r : Option Bool × Option ℕ) : Assertion Block := fun h =>
  Answer pxTransferControl r ∧ match r.2 with
    | none => emp h
    | some p => ∃ st, ControlOf p ucType st h

/-- A configuration that fails leaves NULL. -/
theorem answer_failed (pxTransferControl : Option ℕ) :
    Answer pxTransferControl (some false, none) where
  passed := iff_of_false (by simp) (by simp)
  stopped := nofun
  kept _ _ := .inr rfl

/-- The control structure itself cannot be allocated. -/
theorem answer_none (fullAssert : Bool) :
    Answer none (if fullAssert then none else some false, none) where
  passed := iff_of_false (by cases fullAssert <;> simp) (by simp)
  stopped _ := rfl
  kept := nofun

/-- A configuration that passes. -/
theorem answer_passed {pxTransferControl : Option ℕ} {p : ℕ}
    (hp : ∀ p', pxTransferControl = some p' → p = p') :
    Answer pxTransferControl (some true, some p) where
  passed := iff_of_true rfl rfl
  stopped := nofun
  kept p' hp' := .inl (congrArg some (hp p' hp'))

/-- A configuration ends with the structure of its type or with NULL. -/
theorem configureTransfer_spec {createState : Command Block (Option ℕ)}
    {pxTransferControl : Option ℕ}
    (hcreate : Triple emp createState fun p h => match p with
      | none => emp h
      | some p => State ucType (some p) h) :
    Triple (Control side pxTransferControl)
      (configureTransfer fullAssert available ucType createState pxTransferControl)
      (Configured ucType pxTransferControl) := by
  -- the rest of the function, with a control structure that holds anything
  have hrest : ∀ {p b}, (∀ p', pxTransferControl = some p' → p = p') →
      Triple (pts p b) (do
        match ← createState with
        | none =>
          Command.free p
          pure (some false, none)
        | some pvTransferState =>
          Command.store p (.transferControl ucType (some pvTransferState))
          pure (some true, some p)) (Configured ucType pxTransferControl) := by
    intro p b hp
    rw [← emp_sep (P := pts p b)]
    refine .bind hcreate.frame fun st => ?_
    cases st with
    | none =>
      show Triple (emp.sep (pts p b)) _ _
      rw [sep_comm]
      exact .free (.ret fun h hown => ⟨answer_failed _, hown⟩)
    | some st =>
      show Triple ((State ucType (some st)).sep (pts p b)) _ _
      rw [sep_comm]
      exact .store (.ret fun h hown => ⟨answer_passed hp, some st, hown⟩)
  cases pxTransferControl with
  | none =>
    apply Triple.alloc
    · exact .ret fun h hown => ⟨answer_none fullAssert, hown⟩
    · intro p
      show Triple ((pts p _).sep emp) _ _
      rw [sep_emp]
      exact hrest nofun
  | some p =>
    refine .bind vIOUtilsCreateTransferControlStructure_some fun p' => ?_
    apply triple_of_and
    rintro rfl
    exact .exists_intro fun b => hrest fun p' hp => Option.some.inj hp

/-- The configuration of a zero copy transmission. -/
theorem xIOUtilsConfigureZeroCopyTx_spec {pxTxControl : Option ℕ} :
    Triple (Control side pxTxControl)
      (xIOUtilsConfigureZeroCopyTx fullAssert available pxTxControl)
      (Configured .zeroCopyTx pxTxControl) :=
  configureTransfer_spec createStateWithQueue_spec

/-- The configuration of a character queue, for either direction. -/
theorem xIOUtilsConfigureTransferQueue_spec {pxTransferControl : Option ℕ}
    (hqueue : ucType = .characterQueueTx ∨ ucType = .characterQueueRx) :
    Triple (Control side pxTransferControl)
      (xIOUtilsConfigureTransferQueue fullAssert available ucType pxTransferControl)
      (Configured ucType pxTransferControl) := by
  rcases hqueue with rfl | rfl <;> exact configureTransfer_spec createStateWithQueue_spec

/-- The configuration of a circular buffer. -/
theorem xIOUtilsConfigureCircularBufferRx_spec {pxRxControl : Option ℕ} :
    Triple (Control side pxRxControl)
      (xIOUtilsConfigureCircularBufferRx fullAssert available pxRxControl)
      (Configured .circularBufferRx pxRxControl) :=
  configureTransfer_spec createCircularBufferState_spec

/-! ## Transferring -/

/-- A character queue is used and left in its place. -/
theorem useCharacterQueue_spec
    (hqueue : ucType = .characterQueueTx ∨ ucType = .characterQueueRx) :
    Triple (State ucType pvTransferState) (useCharacterQueue pvTransferState)
      fun _ => State ucType pvTransferState := by
  cases pvTransferState with
  | none => rcases hqueue with rfl | rfl <;> rintro _ _ _ _ ⟨⟩
  | some p =>
    rcases hqueue with rfl | rfl <;>
    · refine .exists_intro fun q => triple_follow ?_ rfl
      rw [sep_comm]
      refine triple_follow_last rfl |>.consequence (fun _ hown => hown) fun _ h hown => ⟨q, ?_⟩
      rwa [sep_comm] at hown

/-- The mutex is used and left in its place. -/
theorem useZeroCopyMutex_spec :
    Triple (State .zeroCopyTx pvTransferState) (useZeroCopyMutex pvTransferState)
      fun _ => State .zeroCopyTx pvTransferState := by
  cases pvTransferState with
  | none => rintro _ _ _ _ ⟨⟩
  | some p =>
    refine .exists_intro fun q => triple_follow ?_ rfl
    rw [sep_comm]
    refine triple_follow_last rfl |>.consequence (fun _ hown => hown) fun _ h hown => ⟨q, ?_⟩
    rwa [sep_comm] at hown

/-- A circular buffer is used and left in its place. -/
theorem useCircularBuffer_spec :
    Triple (State .circularBufferRx pvTransferState) (useCircularBuffer pvTransferState)
      fun _ => State .circularBufferRx pvTransferState := by
  cases pvTransferState with
  | none => rintro _ _ _ _ ⟨⟩
  | some p =>
    refine .exists_intro fun q => triple_follow ?_ rfl
    rw [sep_left_comm]
    refine triple_follow ?_ rfl
    rw [sep_left_comm, sep_comm (P := pts q.1 _), sep_left_comm]
    refine triple_follow_last rfl |>.consequence (fun _ hown => hown) fun _ h hown => ⟨q, ?_⟩
    rwa [sep_left_comm, sep_comm (P := pts q.2 _)] at hown

/-- The structures of a transmission are left in their place, by the type. -/
theorem useTransmission_spec :
    Triple (State ucType pvTransferState) (useTransmission ucType pvTransferState)
      fun _ => State ucType pvTransferState := by
  cases ucType with
  | zeroCopyTx => exact useZeroCopyMutex_spec
  | characterQueueTx => exact useCharacterQueue_spec (.inl rfl)
  | polledTx | polledRx | characterQueueRx | circularBufferRx =>
    exact .ret fun _ hown => hown

/-- The structures of a reception are left in their place, by the type. -/
theorem useReception_spec :
    Triple (State ucType pvTransferState) (useReception ucType pvTransferState)
      fun _ => State ucType pvTransferState := by
  cases ucType with
  | circularBufferRx => exact useCircularBuffer_spec
  | characterQueueRx => exact useCharacterQueue_spec (.inr rfl)
  | polledTx | polledRx | zeroCopyTx | characterQueueTx => exact .ret fun _ hown => hown

end TransferControl

end Resmod.Analysis
