import Resmod.Analysis.TransferControl

/-!
# Who owns the structures of a UART

After any requests, writes, reads and interrupts the blocks that a UART has allocated are
those that its two pointers lead to, each once: nothing leaks and nothing is freed twice.
What can go wrong is a request of a side that is not configured, and an interrupt after a
configuration that has failed: `pxTransferControl` is freed then, and the driver's entry
still points to it.

`configure_owned` is what a configuration does to one side, with the rest of the heap around
it; the invariant `Owned` and the condition `MayRun` are read off from it.
-/

set_option autoImplicit false

namespace Resmod.Analysis

open Resmod.Library Resmod.Library.Assertion
open Resmod.Model Resmod.Model.TransferControl

namespace TransferControl

/-- An entry of the driver: it is NULL, the control structure, or dangling. -/
def Entry (h : Heap Block) (pxControl entry : Option ℕ) : Prop :=
  ∀ p, entry = some p → p < h.next ∧ (pxControl = some p ∨ p ∉ h.blocks)

/-- The heap is that of the UART and the rest of the program's. -/
structure Owned (rest : Blocks Block) (s : TransferControl) : Prop where
  owned : ∃ own, s.heap.Split own rest ∧
    ((Control IsTx s.pxTxControl).sep (Control IsRx s.pxRxControl)) own
  txEntry : Entry s.heap s.pxTxControl s.pxTxTransferControlStruct
  rxEntry : Entry s.heap s.pxRxControl s.pxRxTransferControlStruct

variable {P Q : Assertion Block} {h h' : Heap Block} {own own' rest : Blocks Block} {p : ℕ}
  {pxControl entry : Option ℕ} {side : TransferType → Prop} {ucType : TransferType}
  {s s' : TransferControl} {fullAssert : Bool} {available : ℕ → Bool} {α γ : Type}

/-- An entry that is NULL. -/
theorem entry_none : Entry h pxControl none := nofun

/-- The control structure is in the part of the heap of its side. -/
theorem mem_of_control (hcontrol : Control side (some p) own) : p ∈ own := by
  obtain ⟨c, -, hown⟩ := hcontrol
  exact Finmap.mem_of_lookup_eq_some (sep_pts hown)

/-- An entry that is the control structure. -/
theorem entry_control (hsplit : h.Split own rest) (hcontrol : Control side pxControl own) :
    Entry h pxControl pxControl := by
  rintro p rfl
  have hmem : p ∈ h.blocks := by
    rw [hsplit.blocks_eq, Finmap.mem_union]
    exact .inl (mem_of_control hcontrol)
  exact ⟨h.lt_next p hmem, .inl rfl⟩

/-- An address that has been freed is not handed out again. -/
theorem notMem_of_later (hsplit : h.Split own rest) (hsplit' : h'.Split own' rest)
    (hlater : h.Later own h' own') (hp : p < h.next) (hfree : p ∉ h.blocks) :
    p ∉ h'.blocks := by
  rw [hsplit.blocks_eq, Finmap.mem_union, not_or] at hfree
  rw [hsplit'.blocks_eq, Finmap.mem_union]
  rintro (hmem | hmem)
  · rcases hlater.new p hmem with hmem | hle
    · exact hfree.1 hmem
    · exact absurd hp (Nat.not_lt.mpr hle)
  · exact hfree.2 hmem

/-- An entry stays what it is while its side keeps its control structure. -/
theorem Entry.later (hentry : Entry h pxControl entry) (hsplit : h.Split own rest)
    (hsplit' : h'.Split own' rest) (hlater : h.Later own h' own') :
    Entry h' pxControl entry := by
  intro p hp
  obtain ⟨hlt, hcontrol⟩ := hentry p hp
  exact ⟨hlt.trans_le hlater.next_le,
    hcontrol.imp_right fun hfree => notMem_of_later hsplit hsplit' hlater hlt hfree⟩

/-! ## A configuration -/

/-- A configuration leaves a side as it is to be. -/
theorem Configured.control {r : Option Bool × Option ℕ} (hside : side ucType)
    (hconfigured : Configured ucType pxControl r own) : Control side r.2 own := by
  obtain ⟨xReturn, p⟩ := r
  cases p with
  | none => exact hconfigured.2
  | some p =>
    obtain ⟨-, st, hown⟩ := hconfigured
    exact ⟨(ucType, st), hside, hown⟩

/-- What a configuration of one side does: the other side is as before, the control structure
stays in its place or is freed, and the entries are NULL, the control structure or dangling
afterwards as before. -/
theorem configure_owned {c : Command Block (Option Bool × Option ℕ)}
    (htriple : Triple (Control side pxControl) c (Configured ucType pxControl))
    (hside : side ucType) (hsplit : h.Split own rest)
    (hown : ((Control side pxControl).sep Q) own) :
    ∃ r h' own', c h = some (r, h') ∧ h'.Split own' rest ∧
      ((Control side r.2).sep Q) own' ∧ Answer pxControl r ∧
      (∀ entry, Entry h pxControl entry → Entry h' r.2 entry) ∧
      ∀ pxOther entry, Entry h pxOther entry → Entry h' pxOther entry := by
  obtain ⟨h₁, h₂, h₁₂, rfl, hcontrol, hQ⟩ := hown
  have hrest := ((Finmap.disjoint_union_left _ _ _).mp hsplit.disjoint).2
  have hpart := hsplit.union_left.mpr h₁₂
  obtain ⟨r, h', h₁', hc, hpart', hlater, hconfigured⟩ := htriple h h₁ (h₂ ∪ rest) hpart hcontrol
  have hcontrol' : Control side r.2 h₁' := hconfigured.control hside
  obtain ⟨h₁₂', hsplit'⟩ := hpart'.union_right hrest
  refine ⟨r, h', h₁' ∪ h₂, hc, hsplit', ⟨h₁', h₂, h₁₂', rfl, hcontrol', hQ⟩, hconfigured.1, ?_,
    fun pxOther entry hentry => hentry.later hpart hpart' hlater⟩
  rintro entry hentry p rfl
  obtain ⟨hlt, rfl | hfree⟩ := hentry p rfl
  · refine ⟨hlt.trans_le hlater.next_le, ?_⟩
    rcases hconfigured.1.kept p rfl with hr | hr
    · exact .inl hr
    · -- the structure has been freed
      rw [hr] at hcontrol'
      have hnone : p ∉ h₂ ∪ rest := hpart.disjoint p (mem_of_control hcontrol)
      rw [hpart'.blocks_eq, hcontrol', Finmap.empty_union]
      exact .inr hnone
  · exact ⟨hlt.trans_le hlater.next_le, .inr (notMem_of_later hpart hpart' hlater hlt hfree)⟩

/-- A command that leaves both sides in their places. -/
theorem Owned.run {c : Command Block α} (hs : Owned rest s)
    (htriple : Triple ((Control IsTx s.pxTxControl).sep (Control IsRx s.pxRxControl)) c
      fun _ => (Control IsTx s.pxTxControl).sep (Control IsRx s.pxRxControl)) :
    ∃ a h', c s.heap = some (a, h') ∧ Owned rest { s with heap := h' } := by
  obtain ⟨⟨own, hsplit, hown⟩, htx, hrx⟩ := hs
  obtain ⟨a, h', own', hc, hsplit', hlater, hown'⟩ := htriple _ own rest hsplit hown
  exact ⟨a, h', hc, ⟨own', hsplit', hown'⟩, htx.later hsplit hsplit' hlater,
    hrx.later hsplit hsplit' hlater⟩

/-! ## The requests -/

/-- The control structure is an entry for receptions. -/
theorem Owned.rxEntry_control (hs : Owned rest s) : Entry s.heap s.pxRxControl s.pxRxControl := by
  obtain ⟨own, hsplit, hown⟩ := hs.owned
  rw [sep_comm] at hown
  obtain ⟨h₁, h₂, h₁₂, rfl, hrx, -⟩ := hown
  exact entry_control (hsplit.union_left.mpr h₁₂) hrx

/-- The control structure is an entry for transmissions. -/
theorem Owned.txEntry_control (hs : Owned rest s) : Entry s.heap s.pxTxControl s.pxTxControl := by
  obtain ⟨own, hsplit, h₁, h₂, h₁₂, rfl, htx, -⟩ := hs.owned
  exact entry_control (hsplit.union_left.mpr h₁₂) htx

/-- The program stops, and the heap stays as it is. -/
theorem Owned.halt (hs : Owned rest s) : Owned rest { s with halted := true } :=
  ⟨hs.owned, hs.txEntry, hs.rxEntry⟩

/-- A request to the UART changes no block, and sets an entry to the control structure only. -/
theorem Owned.uartIoctl (hs : Owned rest s) (ulRequest : Request) :
    Owned rest (s.uartIoctl fullAssert ulRequest).1 := by
  cases ulRequest with
  | useInterrupts ulValue =>
    cases ulValue with
    | false => exact hs
    | true => exact ⟨hs.owned, hs.txEntry, hs.rxEntry_control⟩
  | setInterruptPriority ulValue =>
    unfold TransferControl.uartIoctl
    dsimp only
    split_ifs
    · exact hs.halt
    · exact hs
  | _ => exact hs

/-- The end of a request that configures, whether it has gone well or not. -/
theorem Owned.enableInterrupts (hs : Owned rest s) (xReturn : Option Bool) :
    Owned rest (s.enableInterrupts fullAssert xReturn).1 := by
  rcases xReturn with _ | (_ | _)
  · exact hs.halt
  · exact hs
  · show Owned rest (s.uartIoctl fullAssert (.useInterrupts true)).1
    exact hs.uartIoctl _

/-- A configuration of the transmission, whatever can be allocated. -/
theorem Owned.configureTx {c : Command Block (Option Bool × Option ℕ)} (hs : Owned rest s)
    (htriple : Triple (Control IsTx s.pxTxControl) c (Configured ucType s.pxTxControl))
    (hside : IsTx ucType) :
    ∃ r h', c s.heap = some (r, h') ∧ Answer s.pxTxControl r ∧
      Owned rest { s with heap := h', pxTxControl := r.2 } := by
  obtain ⟨⟨own, hsplit, hown⟩, htx, hrx⟩ := hs
  obtain ⟨r, h', own', hc, hsplit', hown', hanswer, hentry, hother⟩ :=
    configure_owned htriple hside hsplit hown
  exact ⟨r, h', hc, hanswer, ⟨own', hsplit', hown'⟩, hentry _ htx, hother _ _ hrx⟩

/-- A configuration of the reception, whatever can be allocated. -/
theorem Owned.configureRx {c : Command Block (Option Bool × Option ℕ)} (hs : Owned rest s)
    (htriple : Triple (Control IsRx s.pxRxControl) c (Configured ucType s.pxRxControl))
    (hside : IsRx ucType) :
    ∃ r h', c s.heap = some (r, h') ∧ Answer s.pxRxControl r ∧
      Owned rest { s with heap := h', pxRxControl := r.2 } := by
  obtain ⟨⟨own, hsplit, hown⟩, htx, hrx⟩ := hs
  rw [sep_comm] at hown
  obtain ⟨r, h', own', hc, hsplit', hown', hanswer, hentry, hother⟩ :=
    configure_owned htriple hside hsplit hown
  rw [sep_comm] at hown'
  exact ⟨r, h', hc, hanswer, ⟨own', hsplit', hown'⟩, hother _ _ htx, hentry _ hrx⟩

/-- A structure is followed, and its state is left in its place. -/
theorem through_control {body : TransferType × Option ℕ → Command Block α}
    (hbody : ∀ ucType st, Triple (State ucType st) (body (ucType, st)) fun _ => State ucType st) :
    Triple (Control side (some p)) (follow Block.asTransferControl (some p) >>= body)
      fun _ => Control side (some p) := by
  apply Triple.exists_intro
  rintro ⟨ucType, st⟩
  apply triple_of_and
  intro hside
  refine triple_follow ?_ rfl
  show Triple ((pts p _).sep (State ucType st)) _ _
  rw [sep_comm]
  refine (hbody ucType st).frame.consequence (fun _ hown => hown) fun _ h hown => ?_
  rw [sep_comm] at hown
  exact ⟨(ucType, st), hside, hown⟩

/-- As `through_control`, where NULL is let through. -/
theorem useThrough_spec {use : TransferType → Option ℕ → Command Block Unit}
    (huse : ∀ ucType st, Triple (State ucType st) (use ucType st) fun _ => State ucType st) :
    Triple (Control side pxControl) (useThrough use pxControl) fun _ => Control side pxControl := by
  cases pxControl with
  | none => exact .ret fun _ hown => hown
  | some p =>
    exact through_control fun ucType st => (huse ucType st).bind fun _ => .ret fun _ hown => hown

/-! ## The requests that only look -/

/-- The requests that read the control structure for transmissions. -/
def NeedsTx : Request → Prop
  | .setTxTimeout | .obtainWriteMutex _ | .waitPreviousWriteComplete _ | .releaseWriteMutex _ =>
    True
  | _ => False

/-- What is only looked at is left in its place. -/
theorem triple_then_pure {c : Command Block α} {b : Bool} (htriple : Triple P c fun _ => P) :
    Triple P (c >>= fun _ => pure b) fun _ => P :=
  htriple.bind fun _ => .ret fun _ hown => hown

/-- The state of a character queue is followed. -/
theorem follow_characterQueue {st : Option ℕ}
    (hqueue : ucType = .characterQueueTx ∨ ucType = .characterQueueRx) :
    Triple (State ucType st) (follow Block.asCharacterQueueState st) fun _ => State ucType st := by
  cases st with
  | none => rcases hqueue with rfl | rfl <;> rintro _ _ _ _ ⟨⟩
  | some p =>
    rw [← bind_pure (follow _ _)]
    rcases hqueue with rfl | rfl <;>
    · exact .exists_intro fun q => triple_follow (.ret fun _ hown => ⟨q, hown⟩) rfl

/-- The state of a circular buffer is followed. -/
theorem follow_circularBuffer {st : Option ℕ} :
    Triple (State .circularBufferRx st) (follow Block.asCircularBufferRxState st)
      fun _ => State .circularBufferRx st := by
  cases st with
  | none => rintro _ _ _ _ ⟨⟩
  | some p =>
    rw [← bind_pure (follow _ _)]
    exact .exists_intro fun q => triple_follow (.ret fun _ hown => ⟨q, hown⟩) rfl

/-- The requests that read the control structure for transmissions. -/
theorem access_needsTx {pxRxControl : Option ℕ} {ulRequest : Request}
    (hneeds : NeedsTx ulRequest) :
    Triple (Control side (some p)) (access (some p) pxRxControl ulRequest)
      fun _ => Control side (some p) := by
  cases ulRequest with
  | setTxTimeout =>
    refine through_control fun ucType st => ?_
    show Triple _ (if ucType = .characterQueueTx then _ else _) _
    split_ifs with htype
    · exact triple_then_pure (follow_characterQueue (.inl htype))
    · exact .ret fun _ hown => hown
  | obtainWriteMutex taken | waitPreviousWriteComplete taken =>
    refine through_control fun ucType st => ?_
    show Triple _
      (if ucType = .zeroCopyTx then _ else if ucType = .characterQueueTx then _ else _) _
    split_ifs with htype hqueue
    · exact htype ▸ triple_then_pure useZeroCopyMutex_spec
    · exact triple_then_pure (useCharacterQueue_spec (.inl hqueue))
    · exact .ret fun _ hown => hown
  | releaseWriteMutex given =>
    refine through_control fun ucType st => ?_
    show Triple _ (if ucType = .zeroCopyTx then _ else _) _
    split_ifs with htype
    · exact htype ▸ triple_then_pure useZeroCopyMutex_spec
    · exact .ret fun _ hown => hown
  | _ => exact hneeds.elim

/-- The request that reads the control structure for receptions. -/
theorem access_setRxTimeout {pxTxControl : Option ℕ} :
    Triple (Control side (some p)) (access pxTxControl (some p) .setRxTimeout)
      fun _ => Control side (some p) := by
  refine through_control fun ucType st => ?_
  show Triple _ (if ucType = .circularBufferRx then _ else if ucType = .characterQueueRx then _
    else _) _
  split_ifs with htype hqueue
  · exact htype ▸ triple_then_pure follow_circularBuffer
  · exact triple_then_pure (follow_characterQueue (.inr hqueue))
  · exact .ret fun _ hown => hown

/-- The buffer of a reception that is no character queue is cleared. -/
theorem access_clearRxBuffer {pxTxControl : Option ℕ} {st : Option ℕ}
    (htype : ucType ≠ .characterQueueRx) :
    Triple (ControlOf p ucType st) (access pxTxControl (some p) .clearRxBuffer)
      fun _ => ControlOf p ucType st := by
  refine triple_follow ?_ rfl
  show Triple _ (if ucType = .circularBufferRx then _ else if ucType = .characterQueueRx then _
    else _) _
  rw [if_neg htype]
  split_ifs with hcircular
  · subst hcircular
    rw [ControlOf, sep_comm]
    exact triple_then_pure useCircularBuffer_spec.frame
  · exact .ret fun _ hown => hown

/-- With a character queue for reception it is the one for transmission that is reset. -/
theorem access_clearRxBuffer_queue {q : ℕ} {st st' : Option ℕ} :
    Triple ((ControlOf q .characterQueueTx st').sep (ControlOf p .characterQueueRx st))
      (access (some q) (some p) .clearRxBuffer)
      fun _ => (ControlOf q .characterQueueTx st').sep (ControlOf p .characterQueueRx st) := by
  rw [sep_comm]
  unfold ControlOf
  rw [sep_assoc]
  refine triple_follow ?_ rfl
  show Triple _ (follow Block.asTransferControl (some q) >>= _) _
  rw [← sep_assoc, sep_comm, sep_assoc]
  refine triple_follow ?_ rfl
  show Triple _ (useCharacterQueue st' >>= fun _ => pure true) _
  rw [sep_left_comm]
  exact triple_then_pure (useCharacterQueue_spec (.inl rfl)).frame

/-! ## What can be run -/

/-- `ucType` of a control structure, if there is one. -/
def typeAt (h : Blocks Block) (pxControl : Option ℕ) : Option TransferType := do
  let c ← (← h.lookup (← pxControl)).asTransferControl
  pure c.1

/-- The requests that do not lead through NULL or to a structure of another type: with a
character queue for reception, a clear needs one for transmission. -/
def MayRequest (s : TransferControl) : Request → Prop
  | .setTxTimeout | .obtainWriteMutex _ | .waitPreviousWriteComplete _ | .releaseWriteMutex _ =>
    s.pxTxControl.isSome
  | .setRxTimeout => s.pxRxControl.isSome
  | .clearRxBuffer => s.pxRxControl.isSome ∧
    (typeAt s.heap.blocks s.pxRxControl = some .characterQueueRx →
      typeAt s.heap.blocks s.pxTxControl = some .characterQueueTx)
  | _ => True

/-- The events that do not lead to memory that has been freed, either. -/
def MayCall (s : TransferControl) : Event → Prop
  | .ioctl ulRequest => MayRequest s ulRequest
  | .rxne => s.pxRxTransferControlStruct = none ∨ s.pxRxTransferControlStruct = s.pxRxControl
  | .tc => s.pxTxTransferControlStruct = none ∨ s.pxTxTransferControlStruct = s.pxTxControl
  | .write | .read => True

/-- What may be run: when the program has stopped, nothing takes place any more. -/
def MayRun (s : TransferControl) (e : Event) : Prop := s.halted = true ∨ MayCall s e

/-- The block of a control structure. -/
theorem lookup_of_controlOf {st : Option ℕ} (hsplit : h.Split own rest)
    (hcontrol : ControlOf p ucType st own) :
    h.blocks.lookup p = some (.transferControl ucType st) :=
  hsplit.lookup (sep_pts hcontrol)

/-- The type of a control structure. -/
theorem typeAt_of_controlOf {st : Option ℕ} (hsplit : h.Split own rest)
    (hcontrol : ControlOf p ucType st own) : typeAt h.blocks (some p) = some ucType := by
  simp [typeAt, lookup_of_controlOf hsplit hcontrol, Block.asTransferControl]

/-- A command on the part of the heap that the UART owns, seen in another way. -/
theorem Owned.run_of {c : Command Block α} (hs : Owned rest s) (hsplit : s.heap.Split own rest)
    (hown : P own) (htriple : Triple P c fun _ => P)
    (hback : ∀ own, P own → ((Control IsTx s.pxTxControl).sep (Control IsRx s.pxRxControl)) own) :
    ∃ a h', c s.heap = some (a, h') ∧ Owned rest { s with heap := h' } := by
  obtain ⟨a, h', own', hc, hsplit', hlater, hown'⟩ := htriple _ own rest hsplit hown
  exact ⟨a, h', hc, ⟨own', hsplit', hback own' hown'⟩, hs.txEntry.later hsplit hsplit' hlater,
    hs.rxEntry.later hsplit hsplit' hlater⟩

/-- A command on the side for transmissions. -/
theorem Owned.run_tx {c : Command Block α} (hs : Owned rest s)
    (htriple : Triple (Control IsTx s.pxTxControl) c fun _ => Control IsTx s.pxTxControl) :
    ∃ a h', c s.heap = some (a, h') ∧ Owned rest { s with heap := h' } := by
  obtain ⟨own, hsplit, hown⟩ := hs.owned
  exact hs.run_of hsplit hown htriple.frame fun _ hown => hown

/-- A command on the side for receptions. -/
theorem Owned.run_rx {c : Command Block α} (hs : Owned rest s)
    (htriple : Triple (Control IsRx s.pxRxControl) c fun _ => Control IsRx s.pxRxControl) :
    ∃ a h', c s.heap = some (a, h') ∧ Owned rest { s with heap := h' } := by
  obtain ⟨own, hsplit, hown⟩ := hs.owned
  rw [sep_comm] at hown
  exact hs.run_of hsplit hown htriple.frame fun own hown => by rwa [sep_comm]

/-- A clear that finds the queue it resets. -/
theorem Owned.clear (hs : Owned rest s) (hmay : MayRequest s .clearRxBuffer) :
    ∃ a h', access s.pxTxControl s.pxRxControl .clearRxBuffer s.heap = some (a, h') ∧
      Owned rest { s with heap := h' } := by
  obtain ⟨heap, pxTxControl, pxRxControl, txEntry, rxEntry, halted⟩ := s
  obtain ⟨hsome, htypes⟩ := hmay
  obtain ⟨p, rfl⟩ := Option.isSome_iff_exists.mp hsome
  obtain ⟨_, hsplit, h₁, h₂, h₁₂, rfl, htx, ⟨ucType, st⟩, hside, hrx⟩ := hs.owned
  have hswap := Finmap.union_comm_of_disjoint h₁₂
  have hsplit₂ : heap.Split h₂ (h₁ ∪ rest) := (hswap ▸ hsplit).union_left.mpr h₁₂.symm
  by_cases hqueue : ucType = .characterQueueRx
  · subst hqueue
    have htype : typeAt heap.blocks pxTxControl = some .characterQueueTx :=
      htypes (typeAt_of_controlOf hsplit₂ hrx)
    cases pxTxControl with
    | none => cases htype
    | some q =>
      obtain ⟨⟨ucType', st'⟩, hside', htx⟩ := htx
      rw [typeAt_of_controlOf (hsplit.union_left.mpr h₁₂) htx] at htype
      obtain rfl := Option.some.inj htype
      exact hs.run_of hsplit ⟨h₁, h₂, h₁₂, rfl, htx, hrx⟩ access_clearRxBuffer_queue
        (sep_mono (fun _ h => ⟨_, hside', h⟩) fun _ h => ⟨_, hside, h⟩)
  · refine hs.run_of hsplit ⟨h₂, h₁, h₁₂.symm, hswap, hrx, htx⟩
      (access_clearRxBuffer hqueue).frame ?_
    intro own hown
    rw [sep_comm] at hown
    exact sep_mono (fun _ h => h) (fun _ h => ⟨_, hside, h⟩) own hown

/-! ## What cannot be run -/

/-- A pointer to a block whose content is known is followed. -/
theorem follow_of_lookup {view : Block → Option α} {f : α → Command Block γ} {b : Block}
    (hlookup : h.blocks.lookup p = some b) :
    (follow view (some p) >>= f) h = (view b).bind fun x => f x h := by
  have hload : (Command.load p : Command Block Block) h = some (b, h) := by
    rw [Command.load, hlookup]
    rfl
  show ((Command.load p h).bind _).bind _ = _
  rw [hload, Option.bind_some]
  cases hview : view b <;> simp only [hview] <;> rfl

/-- Memory that has been freed is followed. -/
theorem follow_of_notMem {view : Block → Option α} {f : α → Command Block γ}
    (hfree : p ∉ h.blocks) : (follow view (some p) >>= f) h = none := by
  have hload : (Command.load p : Command Block Block) h = none := Command.load_eq_none hfree
  exact Command.bind_eq_none (Command.bind_eq_none hload)

/-- A state that is not one of a character queue is taken for one. -/
theorem useCharacterQueue_fault {st : Option ℕ} {c : Command Block α} (hside : IsTx ucType)
    (htype : ucType ≠ .characterQueueTx) (hsplit : h.Split own rest)
    (hstate : State ucType st own) : (useCharacterQueue st >>= fun _ => c) h = none := by
  apply Command.bind_eq_none
  cases ucType with
  | zeroCopyTx =>
    cases st with
    | none => exact hstate.elim
    | some p =>
      obtain ⟨q, hown⟩ := hstate
      exact follow_of_lookup (hsplit.lookup (sep_pts hown))
  | characterQueueTx => exact absurd rfl htype
  | polledTx | polledRx | characterQueueRx | circularBufferRx => exact hside.elim

/-- A clear that does not find the queue it resets. -/
theorem clear_fault (hs : Owned rest s) (hmay : ¬ MayRequest s .clearRxBuffer) :
    access s.pxTxControl s.pxRxControl .clearRxBuffer s.heap = none := by
  obtain ⟨heap, pxTxControl, pxRxControl, txEntry, rxEntry, halted⟩ := s
  cases pxRxControl with
  | none => rfl
  | some p =>
    have htypes := not_and.mp hmay rfl
    obtain ⟨hrx, htx⟩ := Classical.not_imp.mp htypes
    obtain ⟨_, hsplit, h₁, h₂, h₁₂, rfl, hcontrol, ⟨ucType, st⟩, hside, hown⟩ := hs.owned
    have hswap := Finmap.union_comm_of_disjoint h₁₂
    have hsplit₂ : heap.Split h₂ (h₁ ∪ rest) := (hswap ▸ hsplit).union_left.mpr h₁₂.symm
    have htype : typeAt heap.blocks (some p) = some ucType := typeAt_of_controlOf hsplit₂ hown
    obtain rfl := Option.some.inj (hrx.symm.trans htype)
    refine (follow_of_lookup (lookup_of_controlOf hsplit₂ hown)).trans ?_
    cases pxTxControl with
    | none => rfl
    | some q =>
      have hsplit₁ := hsplit.union_left.mpr h₁₂
      obtain ⟨⟨ucType', st'⟩, hside', htx'⟩ := hcontrol
      have htype' : ucType' ≠ .characterQueueTx := by
        rintro rfl
        exact htx (typeAt_of_controlOf hsplit₁ htx')
      refine (follow_of_lookup (lookup_of_controlOf hsplit₁ htx')).trans ?_
      obtain ⟨_, h₄, h₃₄, rfl, rfl, hstate⟩ := htx'
      rw [Finmap.union_comm_of_disjoint h₃₄] at hsplit₁
      exact useCharacterQueue_fault hside' htype' (hsplit₁.union_left.mpr h₃₄.symm) hstate

end TransferControl

end Resmod.Analysis
