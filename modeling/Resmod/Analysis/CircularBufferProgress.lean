import Resmod.Analysis.CircularBufferRx

/-!
# When a read through the circular buffer gets bytes, and when it never does

A full buffer is left by nothing but a clear: the reading function takes it for empty, or does
not return if it is compiled with assertions, and the handler, which does not read `DR` then,
never ends.  A receiver whose interrupt is disabled stays so, as only a read that has been
woken enables it.  Otherwise the semaphore counts at least as many bytes as there are, as long
as a pass of the handler brings one byte.
-/

set_option autoImplicit false

namespace Resmod.Analysis

open Resmod.Library Resmod.Model

namespace CircularBufferRx

open Resmod.Model.CircularBufferRx CircularBuffer

variable {fullAssert : Bool} {s s' : CircularBufferRx} {a : Event} {o : List Output}
  {as : List Event} {os : List (List Output)} {stale : ℕ}

/-! ## A full buffer -/

/-- A full buffer stays full in a step that is not part of a clear, and no byte is stored. -/
theorem Happens.bufferFull (h : Happens fullAssert s a s' o) (ha : a ≠ .clear)
    (hs : Receiving stale s) (hfull : BufferFull stale s.ring) :
    BufferFull stale s'.ring ∧ contents stale s'.ring = contents stale s.ring ∧
      storedBytes o = [] := by
  cases h with
  | clear => exact absurd rfl ha
  | clearErrorState _ hplace | clearReadIndex _ hplace | clearCharCount _ hplace
  | clearWriteIndex _ hplace | clearSemaphore _ hplace =>
    have hplaces := hs.notClearing
    rw [hplace] at hplaces
    simp [NotClearing, reading] at hplaces
  | store _ _ hspace =>
    have hle := hs.queue.charCount_of_full hfull
    omega
  | leave =>
    refine ⟨hfull, rfl, ?_⟩
    split <;> rfl
  | give =>
    dsimp only
    split
    · obtain ⟨hfull', hcontents⟩ := hfull.of_sameRing (sameRing_semaphoreGive _)
      exact ⟨hfull', hcontents, rfl⟩
    · exact ⟨hfull, rfl, rfl⟩
  | @readChars _ b i r _ hplace hr | @assertFailed _ b i r _ hplace hr =>
    have hlen : b.length - i ≤ (b.drop i).length := by rw [List.length_drop]
    obtain ⟨r', hr', hread, hbytes, -⟩ :=
      xIOUtilsReadCharsFromCircularBuffer_spec hs.queue hlen fullAssert
    obtain rfl : r = r' := Option.some.inj (hr.symm.trans hr')
    rw [readableBytes, if_pos hfull] at hbytes
    have hrest := hread.rest
    rw [hbytes, List.drop_zero] at hrest
    refine ⟨?_, hrest, rfl⟩
    show (contents stale r.pxCircularBuffer).length = r.pxCircularBuffer.usBufferLength
    rw [hrest, hread.length]
    exact hfull
  | _ =>
    obtain ⟨hfull', hcontents⟩ := hfull.of_sameRing ⟨rfl, rfl, rfl, rfl, rfl⟩
    exact ⟨hfull', hcontents, rfl⟩

/-- A call of the reading function has just returned. -/
def ReadReturned : Place → Prop
  | .peripheralEnable _ _ => True
  | _ => False

instance (p : Place) : Decidable (ReadReturned p) := by
  cases p <;> unfold ReadReturned <;> infer_instance

/-- With assertions no call of the reading function returns from a full buffer. -/
theorem Happens.not_readReturned (h : Happens true s a s' o) (hs : Receiving stale s)
    (hfull : BufferFull stale s.ring) (hnot : ¬ ReadReturned s.place) :
    ¬ ReadReturned s'.place := by
  cases h with
  | @readChars _ b i r _ hplace hr hreturns =>
    have hlen : b.length - i ≤ (b.drop i).length := by rw [List.length_drop]
    obtain ⟨r', hr', -, -, hhalted⟩ :=
      xIOUtilsReadCharsFromCircularBuffer_spec hs.queue hlen true
    obtain rfl : r = r' := Option.some.inj (hr.symm.trans hr')
    have hpos := hs.queue.length_pos
    have hcount := hs.queue.charCount_of_full hfull
    rw [hhalted.mpr ⟨rfl, by omega, .inr (.inl hfull)⟩] at hreturns
    cases hreturns
  | overrun | received | store | noSpace | loopDone | give | leave | enterHandler => exact hnot
  | _ => exact id

/-- **A full buffer is never read again.**  In every run without a clear it keeps its bytes,
no byte is stored, and no read gets one; with assertions the reading function does not even
return. -/
theorem full_buffer_never_read (hs : Receiving stale s) (hfull : BufferFull stale s.ring)
    (hclear : ∀ a ∈ as, a ≠ .clear) (hrun : (machine fullAssert).exec s as = some (s', os)) :
    contents stale s'.ring = contents stale s.ring ∧ storedBytes os.flatten = [] ∧
      returnedBytes os.flatten ++ progress s'.place = progress s.place ∧
      (fullAssert = true → ¬ ReadReturned s.place → ¬ ReadReturned s'.place) := by
  obtain ⟨-, hbytes⟩ := returnedBytes_append_contents hs hclear hrun
  have hrun' := Machine.invariant_of_outputs (M := machine fullAssert) (w := [])
    (fun w t => Receiving stale t ∧ BufferFull stale t.ring ∧
      contents stale t.ring = contents stale s.ring ∧ storedBytes w = [] ∧
      (fullAssert = true → ¬ ReadReturned s.place → ¬ ReadReturned t.place))
    (fun _ a => a ≠ .clear) ?_ ⟨hs, hfull, rfl, rfl, fun _ => id⟩
    (Machine.along_of_forall hclear) hrun
  · rw [List.nil_append] at hrun'
    obtain ⟨-, -, hcontents, hstored, hreturned⟩ := hrun'
    refine ⟨hcontents, hstored, ?_, hreturned⟩
    rwa [hstored, List.append_nil, hcontents, List.append_cancel_right_eq] at hbytes
  · rintro w t a t' o ⟨ht, hfull', hcontents, hstored, hreturned⟩ ha hstep
    have hh := happens_of_step hstep
    obtain ⟨hfull'', hcontents', hstored'⟩ := hh.bufferFull ha ht hfull'
    refine ⟨(hh.receiving ha ht).1, hfull'', hcontents'.trans hcontents, ?_, ?_⟩
    · rw [storedBytes_append, hstored, hstored', List.append_nil]
    · rintro rfl hnot
      exact hh.not_readReturned ht hfull' (hreturned rfl hnot)

/-- The buffer of two bytes is full, and the handler has left. -/
def twoCellsFull : CircularBufferRx :=
  ⟨⟨[5, 6], 2, 0, 0, false, 2, 1⟩, ⟨6, false, true⟩, .outside, none⟩

/-- A read takes the only wake-up and ends without a byte when its time has expired; with
assertions it halts. -/
theorem full_buffer_never_read_twoCells :
    (∃ s' os, (machine false).exec twoCellsFull [.read [0], .taskStep false, .taskStep false,
        .taskStep false, .taskStep false, .taskStep true] = some (s', os) ∧
      contents 0 s'.ring = [5, 6] ∧ storedBytes os.flatten = [] ∧
      returnedBytes os.flatten ++ progress s'.place = [] ∧
      (false = true → ¬ ReadReturned .outside → ¬ ReadReturned s'.place)) ∧
    ∃ s' os, (machine true).exec twoCellsFull [.read [0], .taskStep false, .taskStep false,
        .taskStep false] = some (s', os) ∧
      contents 0 s'.ring = [5, 6] ∧ storedBytes os.flatten = [] ∧
      returnedBytes os.flatten ++ progress s'.place = [] ∧
      (true = true → ¬ ReadReturned .outside → ¬ ReadReturned s'.place) := by
  have hs : Receiving 0 twoCellsFull :=
    ⟨by constructor <;> decide, .inl rfl, by rintro b i ⟨⟩⟩
  have hrun : (machine false).exec twoCellsFull [.read [0], .taskStep false, .taskStep false,
      .taskStep false, .taskStep false, .taskStep true] = some (_, _) := rfl
  have hrun' : (machine true).exec twoCellsFull [.read [0], .taskStep false, .taskStep false,
      .taskStep false] = some (_, _) := rfl
  exact ⟨⟨_, _, hrun, full_buffer_never_read hs (by decide) (by decide) hrun⟩,
    ⟨_, _, hrun', full_buffer_never_read hs (by decide) (by decide) hrun'⟩⟩

/-- The handler has found a byte and no space for it. -/
structure Stuck (s : CircularBufferRx) : Prop where
  handler : ∃ n, s.handler = some (.condition n)
  rxne : s.uart.rxne = true
  noSpace : s.ring.usBufferLength ≤ s.ring.usCharCount

/-- **The handler does not end.**  Once it finds a byte in `DR` and no space for it, it can
always take another step, and it is in its loop for ever: the task takes no step again, and
every byte that arrives is lost. -/
theorem handler_stuck (hs : Stuck s) (hrun : (machine fullAssert).exec s as = some (s', os)) :
    Stuck s' ∧ s'.place = s.place ∧ ((machine fullAssert).step s' .handlerStep).isSome ∧
      lostBytes os.flatten = arrivedBytes os.flatten ∧ storedBytes os.flatten = [] := by
  have hrun' := Machine.invariant_of_outputs (M := machine fullAssert) (w := [])
    (fun w t => Stuck t ∧ t.place = s.place ∧ lostBytes w = arrivedBytes w ∧
      storedBytes w = [])
    (fun _ _ => True) ?_ ⟨hs, rfl, rfl, rfl⟩ (Machine.along_of_forall fun _ _ => trivial) hrun
  · rw [List.nil_append] at hrun'
    obtain ⟨hstuck, hplace, hlost, hstored⟩ := hrun'
    refine ⟨hstuck, hplace, ?_, hlost, hstored⟩
    obtain ⟨n, hn⟩ := hstuck.handler
    simp [machine, handlerStep, hn, hstuck.rxne, Nat.not_lt.mpr hstuck.noSpace]
  · rintro w t a t' o ⟨ht, hplace, hlost, hstored⟩ - hstep
    obtain ⟨n, hn⟩ := ht.handler
    have hrxne := ht.rxne
    have hnoSpace := ht.noSpace
    rw [lostBytes_append, arrivedBytes_append, storedBytes_append, hlost, hstored,
      List.nil_append, List.append_cancel_left_eq]
    cases happens_of_step hstep with
    | overrun => exact ⟨ht, hplace, rfl, rfl⟩
    | received hclear | loopDone _ hclear =>
      rw [hrxne] at hclear
      exact absurd hclear (by simp)
    | noSpace hcondition => exact ⟨⟨⟨_, rfl⟩, hrxne, hnoSpace⟩, hplace, rfl, rfl⟩
    | store _ _ hspace => omega
    | give hhandler | leave hhandler =>
      rw [hn] at hhandler
      cases hhandler
    | enterHandler _ _ hnone | clear _ hnone | readMore _ hnone | readNothing _ hnone =>
      rw [hn] at hnone
      cases hnone
    | take hnone | takeTimeOut hnone | disable hnone | readChars hnone | assertFailed hnone
    | enable hnone
    | again hnone | done hnone | clearErrorState hnone | clearReadIndex hnone
    | clearCharCount hnone | clearWriteIndex hnone | clearSemaphore hnone =>
      rw [hn] at hnone
      cases hnone

/-- A third byte for two cells, and a fourth while the handler tries to store it. -/
theorem handler_stuck_twoCells :
    ∃ s' os, (machine true).exec { twoCellsFull with
        uart := ⟨7, true, true⟩, handler := some (.condition 0) }
        [.handlerStep, .arrive 8, .handlerStep] = some (s', os) ∧
      Stuck s' ∧ s'.place = .outside ∧ ((machine true).step s' .handlerStep).isSome ∧
      lostBytes os.flatten = arrivedBytes os.flatten ∧ storedBytes os.flatten = [] := by
  have hrun : (machine true).exec { twoCellsFull with
      uart := ⟨7, true, true⟩, handler := some (.condition 0) }
      [.handlerStep, .arrive 8, .handlerStep] = some (_, _) := rfl
  exact ⟨_, _, hrun, handler_stuck ⟨⟨0, rfl⟩, rfl, by decide⟩ hrun⟩

/-! ## A receiver whose interrupt is disabled -/

/-- The interrupt is disabled, nobody has been woken, and the read in progress has got no
byte: so it is after `FreeRTOS_open` and the two `FreeRTOS_ioctl` that set up a UART for the
circular buffer, none of which enables the interrupt. -/
structure Disabled (s : CircularBufferRx) : Prop where
  handler : s.handler = none
  rxneie : s.uart.rxneie = false
  semaphore : s.ring.xNewDataSemaphore = 0
  place : s.place = .outside ∨ (∃ b, s.place = .semaphoreTake b 0) ∨
    (∃ b, s.place = .checkForTimeOut b 0) ∨ s.place = .clearErrorState ∨
    s.place = .clearReadIndex ∨ s.place = .clearCharCount ∨ s.place = .clearWriteIndex ∨
    s.place = .clearSemaphore

/-- No statement but one behind a successful take enables the interrupt. -/
theorem Happens.disabled (h : Happens fullAssert s a s' o) (hs : Disabled s) :
    Disabled s' ∧ storedBytes o = [] ∧ returnedBytes o = [] := by
  obtain ⟨hhandler, hrxneie, hsemaphore, hplaces⟩ := hs
  have hs : Disabled s := ⟨hhandler, hrxneie, hsemaphore, hplaces⟩
  cases h with
  | overrun => exact ⟨hs, rfl, rfl⟩
  | received => exact ⟨⟨hhandler, hrxneie, hsemaphore, hplaces⟩, rfl, rfl⟩
  | enterHandler _ henabled =>
    rw [hrxneie] at henabled
    cases henabled
  | store hrunning | noSpace hrunning | loopDone hrunning | give hrunning | leave hrunning =>
    rw [hhandler] at hrunning
    cases hrunning
  | take _ _ hn =>
    rw [hsemaphore] at hn
    cases hn
  | disable _ hplace | readChars _ hplace | assertFailed _ hplace | enable _ hplace =>
    rw [hplace] at hplaces
    simp at hplaces
  | readMore | clear | clearErrorState | clearReadIndex | clearCharCount | clearWriteIndex =>
    exact ⟨⟨hhandler, hrxneie, hsemaphore, by simp⟩, rfl, rfl⟩
  | readNothing => exact ⟨⟨hhandler, hrxneie, hsemaphore, by simp⟩, rfl, rfl⟩
  | clearSemaphore =>
    refine ⟨⟨hhandler, hrxneie, ?_, .inl rfl⟩, rfl, rfl⟩
    show s.ring.xNewDataSemaphore - 1 = 0
    rw [hsemaphore]
  | takeTimeOut _ hplace | again _ hplace | done _ hplace =>
    rw [hplace] at hplaces
    simp only [reduceCtorEq, Place.semaphoreTake.injEq, Place.checkForTimeOut.injEq,
      exists_eq_left', false_or, or_false, exists_false] at hplaces
    obtain ⟨_, _, rfl⟩ := hplaces
    exact ⟨⟨hhandler, hrxneie, hsemaphore, by simp⟩, rfl, rfl⟩

/-- **Nothing is ever received.**  In every run from a UART whose interrupt has not been
enabled, whatever arrives and whatever is read or cleared, the interrupt stays disabled, no
byte is stored and no read gets one. -/
theorem nothing_received_of_disabled (hs : Disabled s)
    (hrun : (machine fullAssert).exec s as = some (s', os)) :
    Disabled s' ∧ storedBytes os.flatten = [] ∧ returnedBytes os.flatten = [] := by
  have hrun' := Machine.invariant_of_outputs (M := machine fullAssert) (w := [])
    (fun w t => Disabled t ∧ storedBytes w = [] ∧ returnedBytes w = [])
    (fun _ _ => True) ?_ ⟨hs, rfl, rfl⟩ (Machine.along_of_forall fun _ _ => trivial) hrun
  · rwa [List.nil_append] at hrun'
  · rintro w t a t' o ⟨ht, hstored, hreturned⟩ - hstep
    obtain ⟨ht', hstored', hreturned'⟩ := (happens_of_step hstep).disabled ht
    rw [storedBytes_append, returnedBytes_append, hstored, hreturned, hstored', hreturned']
    exact ⟨ht', rfl, rfl⟩

/-- A byte arrives before the read, which times out. -/
theorem nothing_received_twoCells :
    ∃ s' os, (machine true).exec ⟨.configured [0, 0], ⟨0, false, false⟩, .outside, none⟩
        [.arrive 5, .read [0], .taskStep true, .taskStep true] = some (s', os) ∧
      Disabled s' ∧ storedBytes os.flatten = [] ∧ returnedBytes os.flatten = [] := by
  have hrun : (machine true).exec ⟨.configured [0, 0], ⟨0, false, false⟩, .outside, none⟩
      [.arrive 5, .read [0], .taskStep true, .taskStep true] = some (_, _) := rfl
  exact ⟨_, _, hrun, nothing_received_of_disabled ⟨rfl, rfl, rfl, .inl rfl⟩ hrun⟩

/-! ## The semaphore and the bytes -/

/-- A wake-up that the task has taken from the semaphore and not yet used for a read. -/
def taken : Place → ℕ
  | .peripheralDisable _ _ => 1
  | .readChars _ _ => 1
  | _ => 0

/-- A wake-up that the handler is going to give. -/
def owed : Option HandlerPlace → ℕ
  | some (.condition (_ + 1)) => 1
  | some (.semaphoreGive (_ + 1)) => 1
  | _ => 0

/-- The wake-ups that are left for the bytes in the buffer. -/
def wakeUps (s : CircularBufferRx) : ℕ :=
  s.ring.xNewDataSemaphore + taken s.place + owed s.handler

/-- The handler has stored a byte in its pass, and looks for another one. -/
def HasStored : Option HandlerPlace → Prop
  | some (.condition (_ + 1)) => True
  | _ => False

/-- The task is going to call the reading function. -/
def BeforeRead : Place → Prop
  | .readChars _ _ => True
  | _ => False

/-- No clear is made, a pass of the handler stores one byte at most, and the buffer is not
full when it is read. -/
structure OneByOne (stale : ℕ) (s : CircularBufferRx) (a : Event) : Prop where
  notClear : a ≠ .clear
  onePerPass : a = .handlerStep → HasStored s.handler → s.uart.rxne = false
  notFull : ∀ e, a = .taskStep e → BeforeRead s.place → ¬ BufferFull stale s.ring

instance : ∀ h : Option HandlerPlace, Decidable (HasStored h)
  | some (.condition (_ + 1)) => .isTrue trivial
  | some (.condition 0) | some (.semaphoreGive _) | some .clearITPendingBit | none =>
    .isFalse id

instance (p : Place) : Decidable (BeforeRead p) := by
  cases p <;> unfold BeforeRead <;> infer_instance

instance (stale : ℕ) (s : CircularBufferRx) (a : Event) : Decidable (OneByOne stale s a) :=
  decidable_of_iff
    (a ≠ .clear ∧ (a = .handlerStep → HasStored s.handler → s.uart.rxne = false) ∧
      ∀ e, a = .taskStep e → BeforeRead s.place → ¬ BufferFull stale s.ring)
    ⟨fun h => ⟨h.1, h.2.1, h.2.2⟩, fun h => ⟨h.notClear, h.onePerPass, h.notFull⟩⟩

/-- There is a wake-up for every byte, and a read in progress asks for more bytes. -/
structure Counted (stale : ℕ) (s : CircularBufferRx) : Prop where
  receiving : Receiving stale s
  enough : (contents stale s.ring).length ≤ wakeUps s
  asks : ∀ b i, s.place = .semaphoreTake b i ∨ s.place = .peripheralDisable b i ∨
    s.place = .readChars b i → i < b.length

/-- The semaphore counts one more byte, as far as it can count. -/
theorem le_xNewDataSemaphore_semaphoreGive {r : CircularBufferRxState} {k : ℕ}
    (hk : k ≤ r.xNewDataSemaphore + 1) (hlt : k < 2 ^ 16) :
    k ≤ r.semaphoreGive.xNewDataSemaphore := by
  rw [CircularBufferRxState.semaphoreGive]
  dsimp only
  split <;> omega

/-- A step that is made one by one keeps the wake-ups and the bytes in step. -/
theorem Happens.enough (h : Happens fullAssert s a s' o) (hone : OneByOne stale s a)
    (hs : Counted stale s) :
    (contents stale s'.ring).length ≤ wakeUps s' := by
  obtain ⟨hreceiving, henough, hasks⟩ := hs
  have hqueue := hreceiving.queue
  have hlen := hqueue.length_contents
  have hcount := hqueue.count_le
  have hlt := hqueue.length_lt
  rw [wakeUps] at henough ⊢
  cases h with
  | clear => exact absurd rfl hone.notClear
  | clearErrorState _ hplace | clearReadIndex _ hplace | clearCharCount _ hplace
  | clearWriteIndex _ hplace | clearSemaphore _ hplace =>
    have hplaces := hreceiving.notClearing
    rw [hplace] at hplaces
    simp [NotClearing, reading] at hplaces
  | overrun => exact henough
  | received => exact henough
  | readMore hplace | readNothing hplace =>
    rw [hplace] at henough
    exact henough
  | takeTimeOut _ hplace | disable _ hplace | enable _ hplace | again _ hplace
  | done _ hplace =>
    rw [hplace] at henough
    exact henough
  | take _ hplace hn =>
    rw [hplace, hn] at henough
    exact henough
  | enterHandler _ _ hnone =>
    rw [hnone] at henough
    exact henough
  | noSpace hhandler =>
    rw [hhandler] at henough
    exact henough
  | leave hhandler =>
    rw [hhandler] at henough
    exact henough
  | @loopDone n hhandler _ =>
    rw [hhandler] at henough
    refine henough.trans (Nat.add_le_add_left ?_ _)
    cases n <;> exact le_rfl
  | @give n hhandler =>
    rw [hhandler] at henough
    dsimp only
    cases n with
    | zero => exact henough
    | succ n =>
      rw [if_pos (Nat.succ_pos n), (sameRing_semaphoreGive s.ring).contents_eq]
      have hgive := le_xNewDataSemaphore_semaphoreGive (r := s.ring)
        (k := (contents stale s.ring).length - taken s.place)
        (by simp only [owed] at henough; omega) (by omega)
      simp only [owed]
      omega
  | @store n hhandler hrxne hspace =>
    cases n with
    | succ n =>
      rw [hone.onePerPass rfl (by rw [hhandler]; trivial)] at hrxne
      cases hrxne
    | zero =>
      rw [hhandler] at henough
      rw [(hqueue.put hspace s.uart.dr).2, List.length_append, List.length_singleton]
      exact Nat.add_le_add_right henough 1
  | @readChars _ b i r _ hplace hr | @assertFailed _ b i r _ hplace hr =>
    have hi := hasks b i (.inr (.inr hplace))
    obtain ⟨r', hr', hread, hbytes, -⟩ := xIOUtilsReadCharsFromCircularBuffer_spec hqueue
      (b := b.drop i) (n := b.length - i) (by rw [List.length_drop]) fullAssert
    obtain rfl : r = r' := Option.some.inj (hr.symm.trans hr')
    rw [readableBytes, if_neg (hone.notFull _ rfl (by rw [hplace]; trivial))] at hbytes
    rw [hplace] at henough
    simp only [hread.rest, hread.semaphore, List.length_drop, taken] at henough ⊢
    omega

/-- The semaphore counts at least as many bytes as wait for a read. -/
theorem Happens.counted (h : Happens fullAssert s a s' o) (hone : OneByOne stale s a)
    (hs : Counted stale s) : Counted stale s' := by
  refine ⟨(h.receiving hone.notClear hs.receiving).1, h.enough hone hs, ?_⟩
  have hasks := hs.asks
  cases h with
  | overrun | received | enterHandler | store | noSpace | loopDone | give | leave => exact hasks
  | readMore _ _ hlt =>
    rintro b i (⟨⟨⟩⟩ | ⟨⟨⟩⟩ | ⟨⟨⟩⟩)
    exact hlt
  | again _ _ hlt =>
    rintro b i (⟨⟨⟩⟩ | ⟨⟨⟩⟩ | ⟨⟨⟩⟩)
    exact hlt
  | take _ hplace =>
    rintro _ _ (⟨⟨⟩⟩ | ⟨⟨⟩⟩ | ⟨⟨⟩⟩)
    exact hasks _ _ (.inl hplace)
  | disable _ hplace =>
    rintro _ _ (⟨⟨⟩⟩ | ⟨⟨⟩⟩ | ⟨⟨⟩⟩)
    exact hasks _ _ (.inr (.inl hplace))
  | _ => rintro b i (⟨⟨⟩⟩ | ⟨⟨⟩⟩ | ⟨⟨⟩⟩)

/-- **A read waits only for bytes that have not come.**  As long as every pass of the handler
stores one byte and the buffer is not full when it is read, the task that waits at the
semaphore, with the handler left, has emptied the buffer. -/
theorem read_waits_only_when_empty {b : List UInt8} {i : ℕ} (hs : Counted stale s)
    (hone : (machine fullAssert).Along (OneByOne stale) s as)
    (hrun : (machine fullAssert).exec s as = some (s', os))
    (hplace : s'.place = .semaphoreTake b i) (hblocked : s'.ring.xNewDataSemaphore = 0)
    (hnone : s'.handler = none) : contents stale s'.ring = [] := by
  have hcounted : Counted stale s' := Machine.invariant_of_outputs (M := machine fullAssert)
    (w := []) (fun _ t => Counted stale t) (OneByOne stale)
    (fun _ t a t' o ht ha hstep => (happens_of_step hstep).counted ha ht) hs hone hrun
  have henough := hcounted.enough
  rw [wakeUps, hplace, hblocked, hnone] at henough
  exact List.eq_nil_of_length_eq_zero (Nat.le_zero.mp henough)

/-- A byte is received and read, and the read waits for the second byte that it asks for. -/
theorem read_waits_twoCells :
    ∃ s' os, (machine true).exec twoCells (byteStored 5 ++ [.read [0, 0], .taskStep false,
        .taskStep false, .taskStep false, .taskStep false, .taskStep false]) = some (s', os) ∧
      contents 0 s'.ring = [] := by
  have hrun : (machine true).exec twoCells (byteStored 5 ++ [.read [0, 0], .taskStep false,
      .taskStep false, .taskStep false, .taskStep false, .taskStep false]) = some (_, _) := rfl
  have hs : Counted 0 twoCells := ⟨receiving_twoCells, by decide, by simp [twoCells]⟩
  exact ⟨_, _, hrun, read_waits_only_when_empty hs (by decide) hrun rfl rfl rfl⟩

end CircularBufferRx

end Resmod.Analysis
