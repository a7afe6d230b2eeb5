import Resmod.Analysis.TransferOwnership

/-!
# A UART over whole runs

The invariant of `TransferOwnership` along runs of requests, writes, reads and interrupts:
which runs fault, when the handler is safe, and what is allocated after a run.
-/

set_option autoImplicit false

namespace Resmod.Analysis

open Resmod.Library Resmod.Library.Assertion
open Resmod.Model Resmod.Model.TransferControl

namespace TransferControl

variable {rest : Blocks Block} {s s' : TransferControl} {fullAssert : Bool}
  {available : ℕ → Bool} {e : Event} {ulRequest : Request} {o : List (Request × Bool)}
  {h' : Heap Block} {r : Option Bool × Option ℕ}

/-! ## The entries of the driver -/

/-- Both entries are NULL or lead to the control structure. -/
def Good (s : TransferControl) : Prop :=
  (s.pxTxTransferControlStruct = none ∨ s.pxTxTransferControlStruct = s.pxTxControl) ∧
    (s.pxRxTransferControlStruct = none ∨ s.pxRxTransferControlStruct = s.pxRxControl)

/-- The request configures the transmission. -/
def ConfiguresTx : Request → Prop
  | .useZeroCopyTx | .useCharacterQueueTx => True
  | _ => False

/-- The request configures the reception. -/
def ConfiguresRx : Request → Prop
  | .useCharacterQueueRx | .useCircularBufferRx => True
  | _ => False

/-- The request does not return `pdFAIL`. -/
def Passes (fullAssert : Bool) (available : ℕ → Bool) (s : TransferControl)
    (ulRequest : Request) : Prop :=
  ∀ s' o, (machine fullAssert available).step s (.ioctl ulRequest) = some (s', o) →
    (ulRequest, false) ∉ o

/-- A side that has a control structure is not configured again without success. -/
def MayReconfigure (fullAssert : Bool) (available : ℕ → Bool) (s : TransferControl) :
    Event → Prop
  | .ioctl ulRequest =>
    (ConfiguresTx ulRequest → s.pxTxControl.isSome → Passes fullAssert available s ulRequest) ∧
      (ConfiguresRx ulRequest → s.pxRxControl.isSome → Passes fullAssert available s ulRequest)
  | _ => True

/-- The entry for receptions leads to memory that has been freed. -/
def Dangles (s : TransferControl) : Prop :=
  ¬ (s.pxRxTransferControlStruct = none ∨ s.pxRxTransferControlStruct = s.pxRxControl)

/-- No request has enabled the interrupts: these renew the entry. -/
def Disabled (o : List (Request × Bool)) : Prop :=
  ∀ r ∈ o, (ConfiguresTx r.1 ∨ ConfiguresRx r.1 ∨ r.1 = .useInterrupts true) → r.2 = false

/-- A request to the UART keeps the entries. -/
theorem Good.uartIoctl (hgood : Good s) (ulRequest : Request) :
    Good (s.uartIoctl fullAssert ulRequest).1 := by
  cases ulRequest with
  | useInterrupts ulValue =>
    cases ulValue with
    | false => exact hgood
    | true => exact ⟨hgood.1, .inr rfl⟩
  | setInterruptPriority ulValue =>
    unfold TransferControl.uartIoctl
    dsimp only
    split_ifs
    · exact hgood
    · exact hgood
  | _ => exact hgood

/-- A configuration that does not fail leaves the control structure in its place, and one that
fails has started from none. -/
theorem good_of_configured {pxControl entry : Option ℕ} (hanswer : Answer pxControl r)
    (hpass : pxControl.isSome → r.1 ≠ some false) (hentry : entry = none ∨ entry = pxControl) :
    entry = none ∨ entry = r.2 := by
  cases pxControl with
  | none => exact .inl (hentry.elim id id)
  | some p =>
    rcases hanswer.kept p rfl with hr | hr
    · exact hentry.imp_right fun h => h.trans hr.symm
    · -- it has not passed, and it does not stop where there is a structure
      have hnot : r.1 ≠ some true := by
        rw [ne_eq, hanswer.passed, hr]
        exact Bool.false_ne_true
      have hstopped : r.1 = none := by
        match h : r.1 with
        | none => rfl
        | some false => exact absurd h (hpass rfl)
        | some true => exact absurd h hnot
      exact absurd (hanswer.stopped hstopped) (Option.some_ne_none p)

/-- The entries after the transmission has been configured. -/
theorem Good.configureTx (hgood : Good s) (hanswer : Answer s.pxTxControl r)
    (hpass : s.pxTxControl.isSome → r.1 ≠ some false) :
    Good (enableInterrupts fullAssert { s with heap := h', pxTxControl := r.2 } r.1).1 := by
  have htx := good_of_configured hanswer hpass hgood.1
  rcases r.1 with _ | (_ | _)
  · exact ⟨htx, hgood.2⟩
  · exact ⟨htx, hgood.2⟩
  · exact ⟨htx, .inr rfl⟩

/-- The entries after the reception has been configured. -/
theorem Good.configureRx (hgood : Good s) (hanswer : Answer s.pxRxControl r)
    (hpass : s.pxRxControl.isSome → r.1 ≠ some false) :
    Good (enableInterrupts fullAssert { s with heap := h', pxRxControl := r.2 } r.1).1 := by
  have hrx := good_of_configured hanswer hpass hgood.2
  rcases r.1 with _ | (_ | _)
  · exact ⟨hgood.1, hrx⟩
  · exact ⟨hgood.1, hrx⟩
  · exact ⟨hgood.1, .inr rfl⟩

/-- A configuration of the transmission that does not pass leaves the other entry as it is. -/
theorem Dangles.of_failedTx (hdangles : Dangles s) (hfail : r.1 ≠ some true) :
    Dangles (enableInterrupts fullAssert { s with heap := h', pxTxControl := r.2 } r.1).1 := by
  rcases h : r.1 with _ | (_ | _)
  · exact hdangles
  · exact hdangles
  · exact absurd h hfail

/-- A configuration of the reception that does not pass leaves no structure, and the entry as it
is. -/
theorem dangles_of_failedRx (hentry : s.pxRxTransferControlStruct ≠ none)
    (hanswer : Answer s.pxRxControl r) (hfail : r.1 ≠ some true) :
    Dangles (enableInterrupts fullAssert { s with heap := h', pxRxControl := r.2 } r.1).1 := by
  have hnone : r.2 = none :=
    Option.not_isSome_iff_eq_none.mp fun hsome => hfail (hanswer.passed.mpr hsome)
  have hdangles : ¬ (s.pxRxTransferControlStruct = none ∨
      s.pxRxTransferControlStruct = r.2) := by
    rintro (hentry' | hentry')
    · exact hentry hentry'
    · exact hentry (hentry'.trans hnone)
  rcases h : r.1 with _ | (_ | _)
  · exact hdangles
  · exact hdangles
  · exact absurd h hfail

/-! ## One step -/

/-- While the program has not stopped, a step is a call. -/
theorem step_of_running (hrunning : s.halted = false) (e : Event) :
    (machine fullAssert available).step s e = s.call fullAssert available e :=
  if_neg (by simp [hrunning])

/-- What a step that may be run keeps. -/
def Keeps (fullAssert : Bool) (available : ℕ → Bool) (rest : Blocks Block)
    (s : TransferControl) (e : Event) : Prop :=
  ∃ s' o, (machine fullAssert available).step s e = some (s', o) ∧ Owned rest s' ∧
    (Good s → MayReconfigure fullAssert available s e → Good s') ∧
    (Dangles s → Disabled o → Dangles s')

/-- A request of which the result is known. -/
theorem step_ioctl {q : TransferControl × Option Bool} (hrunning : s.halted = false)
    (hioctl : s.ioctl fullAssert available ulRequest = some q) :
    (machine fullAssert available).step s (.ioctl ulRequest) =
      some (q.1, q.2.toList.map fun b => (ulRequest, b)) := by
  rw [step_of_running hrunning, call, hioctl]
  rfl

/-- The end of a request that configures returns what the configuration has returned. -/
theorem enableInterrupts_snd (s : TransferControl) (xReturn : Option Bool) :
    (s.enableInterrupts fullAssert xReturn).2 = xReturn := by
  rcases xReturn with _ | (_ | _) <;> rfl

/-- A request whose answer is not `pdFAIL`. -/
theorem ne_false_of_passes {xReturn : Option Bool}
    (hpasses : Passes fullAssert available s ulRequest)
    (hstep : (machine fullAssert available).step s (.ioctl ulRequest) =
      some (s', xReturn.toList.map fun b => (ulRequest, b))) : xReturn ≠ some false := by
  rintro rfl
  exact hpasses _ _ hstep (List.mem_singleton_self _)

/-- A request that would have enabled the interrupts. -/
theorem ne_true_of_disabled {xReturn : Option Bool}
    (henables : ConfiguresTx ulRequest ∨ ConfiguresRx ulRequest)
    (hdisabled : Disabled (xReturn.toList.map fun b => (ulRequest, b))) : xReturn ≠ some true := by
  rintro rfl
  have hfalse : true = false :=
    hdisabled _ (List.mem_singleton_self _) (henables.imp_right .inl)
  cases hfalse

/-- A request that configures the transmission. -/
theorem keeps_configuresTx {c : Command Block (Option Bool × Option ℕ)} (hs : Owned rest s)
    (hrunning : s.halted = false)
    (hioctl : s.ioctl fullAssert available ulRequest = (c s.heap).map fun q =>
      enableInterrupts fullAssert { s with heap := q.2, pxTxControl := q.1.2 } q.1.1)
    {ucType : TransferType}
    (htriple : Triple (Control IsTx s.pxTxControl) c (Configured ucType s.pxTxControl))
    (hside : IsTx ucType) (hrequest : ConfiguresTx ulRequest) :
    Keeps fullAssert available rest s (.ioctl ulRequest) := by
  obtain ⟨r, h', hc, hanswer, hs'⟩ := hs.configureTx htriple hside
  rw [hc, Option.map_some] at hioctl
  have hstep := step_ioctl hrunning hioctl
  rw [enableInterrupts_snd] at hstep
  refine ⟨_, _, hstep, hs'.enableInterrupts r.1, ?_, ?_⟩
  · intro hgood hmay
    exact hgood.configureTx hanswer fun hsome => ne_false_of_passes (hmay.1 hrequest hsome) hstep
  · intro hdangles hdisabled
    exact hdangles.of_failedTx (ne_true_of_disabled (.inl hrequest) hdisabled)

/-- A request that configures the reception. -/
theorem keeps_configuresRx {c : Command Block (Option Bool × Option ℕ)} (hs : Owned rest s)
    (hrunning : s.halted = false)
    (hioctl : s.ioctl fullAssert available ulRequest = (c s.heap).map fun q =>
      enableInterrupts fullAssert { s with heap := q.2, pxRxControl := q.1.2 } q.1.1)
    {ucType : TransferType}
    (htriple : Triple (Control IsRx s.pxRxControl) c (Configured ucType s.pxRxControl))
    (hside : IsRx ucType) (hrequest : ConfiguresRx ulRequest) :
    Keeps fullAssert available rest s (.ioctl ulRequest) := by
  obtain ⟨r, h', hc, hanswer, hs'⟩ := hs.configureRx htriple hside
  rw [hc, Option.map_some] at hioctl
  have hstep := step_ioctl hrunning hioctl
  rw [enableInterrupts_snd] at hstep
  refine ⟨_, _, hstep, hs'.enableInterrupts r.1, ?_, ?_⟩
  · intro hgood hmay
    exact hgood.configureRx hanswer fun hsome => ne_false_of_passes (hmay.2 hrequest hsome) hstep
  · intro hdangles hdisabled
    exact dangles_of_failedRx (fun hentry => hdangles (.inl hentry)) hanswer
      (ne_true_of_disabled (.inr hrequest) hdisabled)

/-- A request that only looks changes nothing but the heap. -/
theorem keeps_inspect {c : Command Block Bool} (hrunning : s.halted = false)
    (hioctl : s.ioctl fullAssert available ulRequest = s.inspect c)
    (hrun : ∃ a h', c s.heap = some (a, h') ∧ Owned rest { s with heap := h' }) :
    Keeps fullAssert available rest s (.ioctl ulRequest) := by
  obtain ⟨a, h', hc, hs'⟩ := hrun
  rw [inspect, hc, Option.map_some] at hioctl
  exact ⟨_, _, step_ioctl hrunning hioctl, hs', fun hgood _ => hgood, fun h _ => h⟩

/-- A request that reads the control structure for transmissions. -/
theorem keeps_needsTx (hs : Owned rest s) (hrunning : s.halted = false)
    (hneeds : NeedsTx ulRequest) (hsome : s.pxTxControl.isSome) :
    Keeps fullAssert available rest s (.ioctl ulRequest) := by
  obtain ⟨p, hp⟩ := Option.isSome_iff_exists.mp hsome
  have hrun : ∃ a h', access s.pxTxControl s.pxRxControl ulRequest s.heap = some (a, h') ∧
      Owned rest { s with heap := h' } := by
    refine hs.run_tx ?_
    rw [hp]
    exact access_needsTx hneeds
  cases ulRequest with
  | setTxTimeout | obtainWriteMutex _ | waitPreviousWriteComplete _ | releaseWriteMutex _ =>
    exact keeps_inspect hrunning rfl hrun
  | _ => exact hneeds.elim

/-- A request to the UART that does not renew the entry. -/
theorem keeps_uartIoctl (hs : Owned rest s) (hrunning : s.halted = false)
    (hioctl : s.ioctl fullAssert available ulRequest =
      some (s.uartIoctl fullAssert ulRequest))
    (hdangles : Dangles s → ulRequest ≠ .useInterrupts true →
      Dangles (s.uartIoctl fullAssert ulRequest).1)
    (hpassed : ulRequest = .useInterrupts true →
      (s.uartIoctl fullAssert ulRequest).2 = some true) :
    Keeps fullAssert available rest s (.ioctl ulRequest) := by
  refine ⟨_, _, step_ioctl hrunning hioctl, hs.uartIoctl ulRequest,
    fun hgood _ => hgood.uartIoctl ulRequest, fun h hdisabled => hdangles h ?_⟩
  rintro rfl
  rw [hpassed rfl] at hdisabled
  have hfalse : true = false := hdisabled _ (List.mem_singleton_self _) (.inr (.inr rfl))
  cases hfalse

/-- A request that does not lead through NULL or to a structure of another type. -/
theorem keeps_ioctl (hs : Owned rest s) (hrunning : s.halted = false)
    (hmay : MayRequest s ulRequest) : Keeps fullAssert available rest s (.ioctl ulRequest) := by
  cases ulRequest with
  | useZeroCopyTx =>
    exact keeps_configuresTx hs hrunning rfl xIOUtilsConfigureZeroCopyTx_spec trivial trivial
  | useCharacterQueueTx =>
    exact keeps_configuresTx hs hrunning rfl (xIOUtilsConfigureTransferQueue_spec (.inl rfl))
      trivial trivial
  | useCharacterQueueRx =>
    exact keeps_configuresRx hs hrunning rfl (xIOUtilsConfigureTransferQueue_spec (.inr rfl))
      trivial trivial
  | useCircularBufferRx =>
    exact keeps_configuresRx hs hrunning rfl xIOUtilsConfigureCircularBufferRx_spec trivial
      trivial
  | setTxTimeout | obtainWriteMutex _ | waitPreviousWriteComplete _ | releaseWriteMutex _ =>
    exact keeps_needsTx hs hrunning trivial hmay
  | setRxTimeout =>
    obtain ⟨p, hp⟩ := Option.isSome_iff_exists.mp hmay
    refine keeps_inspect hrunning rfl (hs.run_rx ?_)
    rw [hp]
    exact access_setRxTimeout
  | clearRxBuffer => exact keeps_inspect hrunning rfl (hs.clear hmay)
  | useInterrupts ulValue =>
    refine keeps_uartIoctl hs hrunning rfl (fun hdangles hne => ?_) fun h => ?_
    · cases ulValue with
      | false => exact hdangles
      | true => exact absurd rfl hne
    · cases h
      rfl
  | setInterruptPriority ulValue =>
    refine keeps_uartIoctl hs hrunning rfl (fun hdangles _ => ?_) nofun
    unfold uartIoctl
    dsimp only
    split_ifs
    · exact hdangles
    · exact hdangles
  | setSpeed | other => exact keeps_uartIoctl hs hrunning rfl (fun h _ => h) nofun

/-- The handler follows the entry where a call follows the control structure. -/
theorem run_entry {use : TransferType → Option ℕ → Command Block Unit}
    {pxControl entry : Option ℕ} (hs : Owned rest s)
    (hentry : entry = none ∨ entry = pxControl)
    (hrun : ∃ a h', useThrough use pxControl s.heap = some (a, h') ∧
      Owned rest { s with heap := h' }) :
    ∃ a h', useThrough use entry s.heap = some (a, h') ∧ Owned rest { s with heap := h' } := by
  rcases hentry with rfl | rfl
  · exact ⟨none, s.heap, rfl, hs⟩
  · exact hrun

/-- A call or an interrupt that does not lead to memory that has been freed, either. -/
theorem keeps_of_mayCall (hs : Owned rest s) (hrunning : s.halted = false) (hmay : MayCall s e) :
    Keeps fullAssert available rest s e := by
  have htx := hs.run_tx (useThrough_spec fun _ _ => useTransmission_spec)
  have hrx := hs.run_rx (useThrough_spec fun _ _ => useReception_spec)
  have hstep : (machine fullAssert available).step s e = s.call fullAssert available e :=
    step_of_running hrunning e
  cases e with
  | ioctl ulRequest => exact keeps_ioctl hs hrunning hmay
  | write =>
    obtain ⟨ucType, h', hc, hs'⟩ := htx
    refine ⟨_, [], hstep.trans (congrArg (Option.map _) hc), ⟨hs'.owned, ?_, hs'.rxEntry⟩, ?_,
      fun h _ => h⟩
    · show Entry h' s.pxTxControl (s.entryAfterWrite ucType)
      rcases ucType with _ | (_ | _ | _ | _ | _ | _)
      · exact hs'.txEntry
      · exact entry_none
      · exact entry_none
      · exact hs'.txEntry_control
      · exact hs'.txEntry_control
      · exact entry_none
      · exact entry_none
    · rintro hgood -
      refine ⟨?_, hgood.2⟩
      rcases ucType with _ | (_ | _ | _ | _ | _ | _)
      · exact hgood.1
      · exact .inl rfl
      · exact .inl rfl
      · exact .inr rfl
      · exact .inr rfl
      · exact .inl rfl
      · exact .inl rfl
  | read =>
    obtain ⟨_, h', hc, hs'⟩ := hrx
    exact ⟨_, [], hstep.trans (congrArg (Option.map _) hc), hs', fun hgood _ => hgood,
      fun h _ => h⟩
  | rxne =>
    obtain ⟨_, h', hc, hs'⟩ := run_entry hs hmay hrx
    exact ⟨_, [], hstep.trans (congrArg (Option.map _) hc), hs', fun hgood _ => hgood,
      fun h _ => h⟩
  | tc =>
    obtain ⟨_, h', hc, hs'⟩ := run_entry hs hmay htx
    exact ⟨_, [], hstep.trans (congrArg (Option.map _) hc), hs', fun hgood _ => hgood,
      fun h _ => h⟩

/-- What may be run is run, and keeps the invariant. -/
theorem keeps_of_mayRun (hs : Owned rest s) (hmay : MayRun s e) :
    Keeps fullAssert available rest s e := by
  cases hhalted : s.halted with
  | true => exact ⟨s, [], if_pos hhalted, hs, fun hgood _ => hgood, fun h _ => h⟩
  | false =>
    refine keeps_of_mayCall hs hhalted (hmay.resolve_left ?_)
    rw [hhalted]
    exact Bool.false_ne_true

/-- The handler follows an entry that dangles. -/
theorem useThrough_fault {use : TransferType → Option ℕ → Command Block Unit}
    {h : Heap Block} {pxControl entry : Option ℕ} (hentry : Entry h pxControl entry)
    (hmay : ¬ (entry = none ∨ entry = pxControl)) : useThrough use entry h = none := by
  obtain ⟨hnone, hcontrol⟩ := not_or.mp hmay
  obtain ⟨p, rfl⟩ := Option.ne_none_iff_exists'.mp hnone
  obtain ⟨-, hp | hfree⟩ := hentry p rfl
  · exact absurd hp.symm hcontrol
  · exact follow_of_notMem hfree

/-- What may not be run is a fault. -/
theorem step_eq_none (hs : Owned rest s) (hmay : ¬ MayRun s e) :
    (machine fullAssert available).step s e = none := by
  obtain ⟨hrunning, hmay⟩ := not_or.mp hmay
  rw [step_of_running (Bool.not_eq_true _ ▸ hrunning)]
  cases e with
  | ioctl ulRequest =>
    have hioctl : s.ioctl fullAssert available ulRequest = none := by
      cases ulRequest with
      | setTxTimeout | obtainWriteMutex _ | waitPreviousWriteComplete _ | releaseWriteMutex _ =>
        have hnone : s.pxTxControl = none := Option.not_isSome_iff_eq_none.mp hmay
        show s.inspect (access s.pxTxControl _ _) = none
        rw [hnone]
        rfl
      | setRxTimeout =>
        have hnone : s.pxRxControl = none := Option.not_isSome_iff_eq_none.mp hmay
        show s.inspect (access _ s.pxRxControl _) = none
        rw [hnone]
        rfl
      | clearRxBuffer => exact congrArg (Option.map _) (clear_fault hs hmay)
      | _ => exact absurd trivial hmay
    exact congrArg (Option.map _) hioctl
  | rxne => exact congrArg (Option.map _) (useThrough_fault hs.rxEntry hmay)
  | tc => exact congrArg (Option.map _) (useThrough_fault hs.txEntry hmay)
  | write | read => exact absurd trivial hmay

/-- A step is a fault if and only if it may not be run. -/
theorem isSome_step_iff (hs : Owned rest s) :
    ((machine fullAssert available).step s e).isSome ↔ MayRun s e := by
  constructor
  · intro hsome
    by_contra hmay
    rw [step_eq_none hs hmay] at hsome
    cases hsome
  · intro hmay
    have hkeeps : Keeps fullAssert available rest s e := keeps_of_mayRun hs hmay
    obtain ⟨s', o, hstep, -⟩ := hkeeps
    rw [hstep]
    rfl

/-- What a step keeps that has not led to a fault. -/
theorem Owned.step (hs : Owned rest s)
    (hstep : (machine fullAssert available).step s e = some (s', o)) :
    Owned rest s' ∧ (Good s → MayReconfigure fullAssert available s e → Good s') ∧
      (Dangles s → Disabled o → Dangles s') := by
  have hmay : MayRun s e := (isSome_step_iff hs).mp (Option.isSome_of_eq_some hstep)
  have hkeeps : Keeps fullAssert available rest s e := keeps_of_mayRun hs hmay
  obtain ⟨t, o', hstep', hkept⟩ := hkeeps
  cases hstep.symm.trans hstep'
  exact hkept

/-! ## Runs -/

/-- Nothing has been allocated for a UART that has just been opened. -/
theorem owned_opened (heap : Heap Block) : Owned heap.blocks (opened heap) :=
  ⟨⟨∅, ⟨Finmap.disjoint_empty _, Finmap.empty_union.symm⟩, ∅, ∅, Finmap.disjoint_empty _,
    Finmap.empty_union.symm, rfl, rfl⟩, entry_none, entry_none⟩

/-- The invariant after a run. -/
theorem owned_of_exec {heap : Heap Block} {as : List Event} {os : List (List (Request × Bool))}
    (hrun : (machine fullAssert available).exec (opened heap) as = some (s', os)) :
    Owned heap.blocks s' :=
  Machine.invariant_of_exec (Owned heap.blocks) (fun _ _ _ _ hs hstep => (hs.step hstep).1)
    (owned_opened heap) hrun

/-- The type of a control structure is one of its side. -/
theorem Control.typeAt {h : Heap Block} {own : Blocks Block} {side : TransferType → Prop} {p : ℕ}
    (hcontrol : Control side (some p) own) (hsplit : h.Split own rest) :
    ∃ ucType, side ucType ∧ TransferControl.typeAt h.blocks (some p) = some ucType := by
  obtain ⟨⟨ucType, st⟩, hside, hown⟩ := hcontrol
  exact ⟨ucType, hside, typeAt_of_controlOf hsplit hown⟩

/-- **No control structure has a type that the functions do not know.**  After any run the
switches over `ucType` do not come to their default branches, where assertions would stop the
program.  SOURCE: FreeRTOS_stm32f4_uart.c:210-216, 300-303, 491-496, 535-540 -/
theorem typeAt_of_exec {heap : Heap Block} {as : List Event} {os : List (List (Request × Bool))}
    {p : ℕ} (hrun : (machine fullAssert available).exec (opened heap) as = some (s', os)) :
    (s'.pxTxControl = some p →
        ∃ ucType, IsTx ucType ∧ typeAt s'.heap.blocks (some p) = some ucType) ∧
      (s'.pxRxControl = some p →
        ∃ ucType, IsRx ucType ∧ typeAt s'.heap.blocks (some p) = some ucType) := by
  obtain ⟨_, hsplit, h₁, h₂, h₁₂, rfl, htx, hrx⟩ := (owned_of_exec hrun).owned
  have hsplit₁ := hsplit.union_left.mpr h₁₂
  have hsplit₂ := (Finmap.union_comm_of_disjoint h₁₂ ▸ hsplit).union_left.mpr h₁₂.symm
  constructor
  · intro hp
    rw [hp] at htx
    exact htx.typeAt hsplit₁
  · intro hp
    rw [hp] at hrx
    exact hrx.typeAt hsplit₂

/-- **When a UART faults.**  A run of requests, writes, reads and interrupts from an open UART
faults exactly where a request needs a control structure that is NULL, where the buffer of a
character queue is cleared without one for transmission, or where the handler runs with an
entry that is neither NULL nor the control structure; whatever can be allocated, and with
assertions or without. -/
theorem run_without_fault_iff (fullAssert : Bool) (available : ℕ → Bool) (heap : Heap Block)
    (as : List Event) :
    ((machine fullAssert available).exec (opened heap) as).isSome ↔
      (machine fullAssert available).Along MayRun (opened heap) as :=
  Machine.isSome_exec_iff (Owned heap.blocks) MayRun (fun _ _ hs => isSome_step_iff hs)
    (fun _ _ _ _ hs hstep => (hs.step hstep).1) (owned_opened heap)

/-- **The handler is safe while no side loses its structure.**  After a run in which no request
fails that configures a side anew, the handler finds NULL or the control structure, and what
this leads to is allocated and of its type.
SOURCE: FreeRTOS_stm32f4_uart.c:452-551 -/
theorem handler_safe {heap : Heap Block} {as : List Event} {os : List (List (Request × Bool))}
    (hmay : (machine fullAssert available).Along (MayReconfigure fullAssert available)
      (opened heap) as)
    (hrun : (machine fullAssert available).exec (opened heap) as = some (s', os)) :
    Good s' ∧ ((machine fullAssert available).step s' .rxne).isSome ∧
      ((machine fullAssert available).step s' .tc).isSome := by
  have hkept := Machine.invariant_of_outputs (M := machine fullAssert available) (w := [])
    (fun _ t => Owned heap.blocks t ∧ Good t) (MayReconfigure fullAssert available)
    (fun _ _ _ _ _ ht ha hstep =>
      have hstep' := ht.1.step hstep
      ⟨hstep'.1, hstep'.2.1 ht.2 ha⟩)
    ⟨owned_opened heap, .inl rfl, .inl rfl⟩ hmay hrun
  obtain ⟨hs, hgood⟩ := hkept
  exact ⟨hgood, (isSome_step_iff hs).mpr (.inr hgood.2), (isSome_step_iff hs).mpr (.inr hgood.1)⟩

/-- A circular buffer is configured, and a character queue instead of it. -/
def twoModes : List Event := [.ioctl .useCircularBufferRx, .ioctl .useCharacterQueueRx]

/-- Both configurations pass, and the second deletes what the first has created. -/
theorem handler_safe_twoModes :
    ∃ s' os, (machine true fun _ => true).exec (opened .empty) twoModes = some (s', os) ∧
      Good s' ∧ ((machine true fun _ => true).step s' .rxne).isSome ∧
        ((machine true fun _ => true).step s' .tc).isSome := by
  have hrun : (machine true fun _ => true).exec (opened .empty) twoModes = some (_, _) := rfl
  have hmay : (machine true fun _ => true).Along (MayReconfigure true fun _ => true)
      (opened .empty) twoModes :=
    ⟨⟨False.elim, fun _ hsome => absurd hsome (by decide)⟩,
      ⟨False.elim, fun _ _ _ _ h => by cases h; decide⟩, trivial⟩
  exact ⟨_, _, hrun, handler_safe hmay hrun⟩

/-- No request of either part has enabled the interrupts. -/
theorem disabled_append {o₁ o₂ : List (Request × Bool)} :
    Disabled (o₁ ++ o₂) ↔ Disabled o₁ ∧ Disabled o₂ := by
  simp only [Disabled, List.forall_mem_append]

/-- A request that returns is one that is made while the program runs. -/
theorem running_of_step {q : Request × Bool}
    (hstep : (machine fullAssert available).step s e = some (s', [q])) : s.halted = false := by
  cases hhalted : s.halted with
  | false => rfl
  | true =>
    have hnothing : (machine fullAssert available).step s e = some (s, []) := if_pos hhalted
    rw [hnothing] at hstep
    cases hstep

/-- The control structure for receptions is freed by a configuration that fails. -/
theorem dangles_of_failed {c : Command Block (Option Bool × Option ℕ)} (hs : Owned rest s)
    (hrunning : s.halted = false)
    (hioctl : s.ioctl fullAssert available ulRequest = (c s.heap).map fun q =>
      enableInterrupts fullAssert { s with heap := q.2, pxRxControl := q.1.2 } q.1.1)
    {ucType : TransferType}
    (htriple : Triple (Control IsRx s.pxRxControl) c (Configured ucType s.pxRxControl))
    (hside : IsRx ucType) (hentry : s.pxRxTransferControlStruct ≠ none)
    (hfail : (machine fullAssert available).step s (.ioctl ulRequest) =
      some (s', [(ulRequest, false)])) : Dangles s' := by
  obtain ⟨r, h', hc, hanswer, -⟩ := hs.configureRx htriple hside
  rw [hc, Option.map_some] at hioctl
  have hstep := step_ioctl hrunning hioctl
  rw [enableInterrupts_snd, hfail, Option.some.injEq, Prod.mk.injEq] at hstep
  obtain ⟨rfl, hreturn⟩ := hstep
  refine dangles_of_failedRx hentry hanswer ?_
  intro hpassed
  have hreturn' : [(ulRequest, false)] = r.1.toList.map fun b => (ulRequest, b) := hreturn
  rw [hpassed] at hreturn'
  simp at hreturn'

/-- The control structure for receptions is freed by a request that fails to configure them. -/
theorem dangles_of_ioctl (hs : Owned rest s) (hentry : s.pxRxTransferControlStruct ≠ none)
    (hrequest : ConfiguresRx ulRequest)
    (hfail : (machine fullAssert available).step s (.ioctl ulRequest) =
      some (s', [(ulRequest, false)])) : Dangles s' := by
  have hrunning := running_of_step hfail
  cases ulRequest with
  | useCharacterQueueRx =>
    exact dangles_of_failed hs hrunning rfl (xIOUtilsConfigureTransferQueue_spec (.inr rfl))
      trivial hentry hfail
  | useCircularBufferRx =>
    exact dangles_of_failed hs hrunning rfl xIOUtilsConfigureCircularBufferRx_spec trivial hentry
      hfail
  | _ => exact hrequest.elim

/-- An entry that is not the control structure leads to an address at which nothing is
allocated. -/
theorem Dangles.freed (hdangles : Dangles s) (hs : Owned rest s) :
    ∃ p, s.pxRxTransferControlStruct = some p ∧ p ∉ s.heap.blocks := by
  obtain ⟨hnone, hother⟩ := not_or.mp hdangles
  obtain ⟨p, hp⟩ := Option.ne_none_iff_exists'.mp hnone
  have hentry := (hs.rxEntry p hp).2
  exact ⟨p, hp, hentry.resolve_left fun hcontrol => hother (hp.trans hcontrol.symm)⟩

/-- **The handler after a failure.**  A request that returns `pdFAIL` from configuring the
reception of a UART whose entry has been set leaves the entry to memory that has been freed:
in every state after it, until a request succeeds that enables interrupts or an assertion
stops the program, nothing is allocated where it points to, and the handler, which follows it
for a byte, faults.
SOURCE: FreeRTOS_DriverInterface.c:160-177, 333-337, IOUtils_CircularBufferRx.c:115-122 -/
theorem handler_faults_after_failure {heap : Heap Block} {t : TransferControl}
    {as bs : List Event} {os os' : List (List (Request × Bool))}
    (hrun : (machine fullAssert available).exec (opened heap) as = some (s, os))
    (hentry : s.pxRxTransferControlStruct ≠ none) (hrequest : ConfiguresRx ulRequest)
    (hfail : (machine fullAssert available).step s (.ioctl ulRequest) =
      some (t, [(ulRequest, false)]))
    (hrun' : (machine fullAssert available).exec t bs = some (s', os'))
    (hdisabled : Disabled os'.flatten) (hrunning : s'.halted = false) :
    (∃ p, s'.pxRxTransferControlStruct = some p ∧ p ∉ s'.heap.blocks) ∧
      (machine fullAssert available).step s' .rxne = none := by
  have hs := owned_of_exec hrun
  have hkept := Machine.invariant_of_outputs (M := machine fullAssert available) (w := [])
    (fun w t => Owned heap.blocks t ∧ (Disabled w → Dangles t)) (fun _ _ => True)
    (fun w u a u' o hu _ hstep => by
      obtain ⟨hu', -, hdangles⟩ := hu.1.step hstep
      refine ⟨hu', fun hdisabled => ?_⟩
      rw [disabled_append] at hdisabled
      exact hdangles (hu.2 hdisabled.1) hdisabled.2)
    ⟨(hs.step hfail).1, fun _ => dangles_of_ioctl hs hentry hrequest hfail⟩
    (Machine.along_of_forall fun _ _ => trivial) hrun'
  have hdangles : Dangles s' := hkept.2 hdisabled
  refine ⟨hdangles.freed hkept.1, step_eq_none hkept.1 ?_⟩
  rintro (hhalted | hmay)
  · rw [hrunning] at hhalted
    cases hhalted
  · exact hdangles hmay

/-- The state structure of the character queue cannot be allocated. -/
theorem handler_faults_twoModes :
    ∃ s t os, (machine true fun n => n != 4).exec (opened .empty) [.ioctl .useCircularBufferRx] =
        some (s, os) ∧
      (machine true fun n => n != 4).step s (.ioctl .useCharacterQueueRx) =
        some (t, [(.useCharacterQueueRx, false)]) ∧
      ∃ s' os', (machine true fun n => n != 4).exec t [.read, .write] = some (s', os') ∧
        (∃ p, s'.pxRxTransferControlStruct = some p ∧ p ∉ s'.heap.blocks) ∧
          (machine true fun n => n != 4).step s' .rxne = none := by
  have hrun : (machine true fun n => n != 4).exec (opened .empty) [.ioctl .useCircularBufferRx] =
      some (_, _) := rfl
  have hrequest : ConfiguresRx .useCharacterQueueRx := trivial
  refine ⟨_, _, _, hrun, rfl, _, _, rfl, ?_⟩
  exact handler_faults_after_failure hrun (by decide) hrequest rfl
    (rfl : (machine true fun n => n != 4).exec _ [.read, .write] = _) (by rintro r ⟨⟩) rfl

/-! ## What is allocated -/

/-- The pointers in a block. -/
def pointers : Block → List ℕ
  | .transferControl _ p | .characterQueueState p | .zeroCopyTxState p => p.toList
  | .circularBufferRxState p q => p.toList ++ q.toList
  | .uninitialised | .queue | .buffer => []

/-- The blocks that an address leads to, down to a depth. -/
def reached (h : Blocks Block) : ℕ → ℕ → List ℕ
  | 0, _ => []
  | depth + 1, p => p :: (((h.lookup p).map pointers).getD []).flatMap (reached h depth)

/-- The blocks that the two pointers of a UART lead to. -/
def ownedBlocks (s : TransferControl) : List ℕ :=
  (s.pxTxControl.toList ++ s.pxRxControl.toList).flatMap (reached s.heap.blocks 3)

/-- The addresses of a part of a heap, each once. -/
def Listed (l : List ℕ) (own : Blocks Block) : Prop := l.Nodup ∧ ∀ x, x ∈ own ↔ x ∈ l

/-- The addresses of two parts. -/
theorem Listed.union {l₁ l₂ : List ℕ} {h₁ h₂ : Blocks Block} (h₁₂ : h₁.Disjoint h₂)
    (hl₁ : Listed l₁ h₁) (hl₂ : Listed l₂ h₂) : Listed (l₁ ++ l₂) (h₁ ∪ h₂) := by
  constructor
  · refine List.Nodup.append hl₁.1 hl₂.1 fun x hx₁ hx₂ => ?_
    exact h₁₂ x ((hl₁.2 x).mpr hx₁) ((hl₂.2 x).mpr hx₂)
  · intro x
    rw [Finmap.mem_union, List.mem_append, hl₁.2, hl₂.2]

/-- The address of one block. -/
theorem listed_singleton (p : ℕ) (b : Block) : Listed [p] (Finmap.singleton p b) :=
  ⟨List.nodup_singleton p, fun x => by rw [Finmap.mem_singleton, List.mem_singleton]⟩

/-- A block, and the blocks that it leads to. -/
theorem reached_succ {h : Blocks Block} {p : ℕ} {b : Block} (hlookup : h.lookup p = some b)
    (depth : ℕ) : reached h (depth + 1) p = p :: (pointers b).flatMap (reached h depth) := by
  rw [reached, hlookup]
  rfl

/-- A block and what it points to. -/
theorem listed_sep {h : Heap Block} {own rest : Blocks Block} {p : ℕ} {b : Block} {depth : ℕ}
    {Q : Assertion Block} (hsplit : h.Split own rest) (hown : ((pts p b).sep Q) own)
    (hlisted : ∀ own rest, h.Split own rest → Q own →
      Listed ((pointers b).flatMap (reached h.blocks depth)) own) :
    Listed (reached h.blocks (depth + 1) p) own := by
  rw [reached_succ (hsplit.lookup (sep_pts hown))]
  obtain ⟨_, h₂, h₁₂, rfl, rfl, hQ⟩ := hown
  have hsplit₂ : h.Split h₂ (Finmap.singleton p b ∪ rest) :=
    (Finmap.union_comm_of_disjoint h₁₂ ▸ hsplit).union_left.mpr h₁₂.symm
  exact Listed.union h₁₂ (listed_singleton p b) (hlisted h₂ _ hsplit₂ hQ)

/-- A block without pointers. -/
theorem listed_pts {h : Heap Block} {own rest : Blocks Block} {p : ℕ} {b : Block} {depth : ℕ}
    (hsplit : h.Split own rest) (hown : pts p b own) (hb : pointers b = []) :
    Listed (reached h.blocks (depth + 1) p) own := by
  rw [← sep_emp (P := pts p b)] at hown
  refine listed_sep hsplit hown fun own rest _ hemp => ?_
  rw [hb, hemp]
  exact ⟨List.nodup_nil, fun x => by simp [Finmap.notMem_empty]⟩

/-- The blocks of a state, by its type. -/
theorem listed_state {h : Heap Block} {own rest : Blocks Block} {ucType : TransferType}
    {pvTransferState : Option ℕ} (hsplit : h.Split own rest)
    (hstate : State ucType pvTransferState own) :
    Listed (pvTransferState.toList.flatMap (reached h.blocks 2)) own := by
  cases pvTransferState with
  | none =>
    have hemp : own = ∅ := by
      cases ucType with
      | polledTx | polledRx => exact hstate
      | _ => exact hstate.elim
    rw [hemp]
    exact ⟨List.nodup_nil, fun x => by simp [Finmap.notMem_empty]⟩
  | some p =>
    show Listed ([p].flatMap _) own
    rw [List.flatMap_singleton]
    cases ucType with
    | polledTx | polledRx => exact hstate.elim
    | zeroCopyTx | characterQueueTx | characterQueueRx =>
      obtain ⟨q, hown⟩ := hstate
      refine listed_sep hsplit hown fun own rest hsplit' hq => ?_
      show Listed ([q].flatMap _) own
      rw [List.flatMap_singleton]
      exact listed_pts hsplit' hq rfl
    | circularBufferRx =>
      obtain ⟨q, hown⟩ := hstate
      refine listed_sep hsplit hown fun own rest hsplit' hqs => ?_
      obtain ⟨h₁, h₂, h₁₂, rfl, hq₁, hq₂⟩ := hqs
      have hsplit₂ := (Finmap.union_comm_of_disjoint h₁₂ ▸ hsplit').union_left.mpr h₁₂.symm
      have hlisted := Listed.union h₁₂
        (listed_pts (hsplit'.union_left.mpr h₁₂) hq₁ rfl : Listed (reached h.blocks 1 q.1) h₁)
        (listed_pts hsplit₂ hq₂ rfl : Listed (reached h.blocks 1 q.2) h₂)
      simpa [pointers] using hlisted

/-- The blocks of one side. -/
theorem listed_control {h : Heap Block} {own rest : Blocks Block} {pxControl : Option ℕ}
    {side : TransferType → Prop} (hsplit : h.Split own rest)
    (hcontrol : Control side pxControl own) :
    Listed (pxControl.toList.flatMap (reached h.blocks 3)) own := by
  cases pxControl with
  | none =>
    rw [show own = ∅ from hcontrol]
    exact ⟨List.nodup_nil, fun x => by simp [Finmap.notMem_empty]⟩
  | some p =>
    show Listed ([p].flatMap _) own
    rw [List.flatMap_singleton]
    obtain ⟨c, -, hown⟩ := hcontrol
    exact listed_sep hsplit hown fun own rest hsplit' hstate => listed_state hsplit' hstate

/-- **Nothing leaks, and nothing is freed that is in use.**  After any run from an open UART, with
any allocations failing, the blocks that have been allocated by then and not been freed are
those that the two pointers of the UART lead to, each once and none of them in the rest of the
heap; and the rest of the heap is as it was. -/
theorem blocks_owned {heap : Heap Block} {as : List Event} {os : List (List (Request × Bool))}
    (hrun : (machine fullAssert available).exec (opened heap) as = some (s', os)) :
    (ownedBlocks s').Nodup ∧
      (∀ p, p ∈ s'.heap.blocks ↔ p ∈ ownedBlocks s' ∨ p ∈ heap.blocks) ∧
      (∀ p ∈ ownedBlocks s', p ∉ heap.blocks) ∧
      ∀ p ∈ heap.blocks, s'.heap.blocks.lookup p = heap.blocks.lookup p := by
  obtain ⟨own, hsplit, hown⟩ := (owned_of_exec hrun).owned
  have hlisted : Listed (ownedBlocks s') own := by
    obtain ⟨h₁, h₂, h₁₂, rfl, htx, hrx⟩ := hown
    have hsplit₂ := (Finmap.union_comm_of_disjoint h₁₂ ▸ hsplit).union_left.mpr h₁₂.symm
    rw [ownedBlocks, List.flatMap_append]
    exact Listed.union h₁₂ (listed_control (hsplit.union_left.mpr h₁₂) htx)
      (listed_control hsplit₂ hrx)
  refine ⟨hlisted.1, fun p => ?_, fun p hp => hsplit.disjoint p ((hlisted.2 p).mpr hp),
    fun p hp => ?_⟩
  · rw [hsplit.blocks_eq, Finmap.mem_union, hlisted.2]
  · rw [hsplit.blocks_eq]
    exact Finmap.lookup_union_right fun hmem => hsplit.disjoint p hmem hp

/-- The second configuration fails, and nothing is left allocated. -/
theorem blocks_owned_twoModes :
    ∃ s' os, (machine true fun n => n != 4).exec (opened .empty) twoModes = some (s', os) ∧
      (ownedBlocks s').Nodup ∧
      (∀ p, p ∈ s'.heap.blocks ↔ p ∈ ownedBlocks s' ∨ p ∈ (∅ : Blocks Block)) ∧
      (∀ p ∈ ownedBlocks s', p ∉ (∅ : Blocks Block)) ∧
      ∀ p ∈ (∅ : Blocks Block), s'.heap.blocks.lookup p = (∅ : Blocks Block).lookup p := by
  have hrun : (machine true fun n => n != 4).exec (opened .empty) twoModes = some (_, _) := rfl
  exact ⟨_, _, hrun, blocks_owned hrun⟩

end TransferControl

end Resmod.Analysis
