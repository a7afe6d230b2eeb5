import Resmod.Analysis.CircularBuffer

/-!
# Bytes received through a circular buffer, over whole runs

`Happens` says once what a step of the machine can do.  From it: the bytes that reads return
are the bytes that the handler stored, in order and each once; the bytes stored are those
that arrived, without those that arrived while `RXNE` was set or while the handler was on its
way out.
-/

set_option autoImplicit false

namespace Resmod.Analysis

open Resmod.Library Resmod.Model

namespace CircularBufferRx

open Resmod.Model.CircularBufferRx CircularBuffer

/-- What can happen in a state, with the conditions under which it can. -/
inductive Happens (fullAssert : Bool) (s : CircularBufferRx) :
    Event → CircularBufferRx → List Output → Prop
  | overrun {c : UInt8} (hrxne : s.uart.rxne = true) :
      Happens fullAssert s (.arrive c) s [.arrived c, .lost c]
  | received {c : UInt8} (hrxne : s.uart.rxne = false) :
      Happens fullAssert s (.arrive c)
        { s with uart := { s.uart with dr := c, rxne := true } } [.arrived c]
  | readMore {b : List UInt8} (hplace : s.place = .outside) (hnone : s.handler = none)
      (hlt : 0 < b.length) :
      Happens fullAssert s (.read b) { s with place := .semaphoreTake b 0 } []
  | readNothing {b : List UInt8} (hplace : s.place = .outside) (hnone : s.handler = none)
      (hnil : b.length = 0) :
      Happens fullAssert s (.read b) { s with place := .outside } [.returned b 0]
  | clear (hplace : s.place = .outside) (hnone : s.handler = none) :
      Happens fullAssert s .clear { s with place := .clearErrorState } []
  | take {e : Bool} {b : List UInt8} {i n : ℕ} (hnone : s.handler = none)
      (hplace : s.place = .semaphoreTake b i) (hn : s.ring.xNewDataSemaphore = n + 1) :
      Happens fullAssert s (.taskStep e) { s with
        ring := { s.ring with xNewDataSemaphore := n }
        place := .peripheralDisable b i } []
  | takeTimeOut {b : List UInt8} {i : ℕ} (hnone : s.handler = none)
      (hplace : s.place = .semaphoreTake b i) (hn : s.ring.xNewDataSemaphore = 0) :
      Happens fullAssert s (.taskStep true) { s with place := .checkForTimeOut b i } []
  | disable {e : Bool} {b : List UInt8} {i : ℕ} (hnone : s.handler = none)
      (hplace : s.place = .peripheralDisable b i) :
      Happens fullAssert s (.taskStep e) { s with
        uart := { s.uart with rxneie := false }
        place := .readChars b i } []
  | readChars {e : Bool} {b : List UInt8} {i : ℕ} {r : CircularBufferRead}
      (hnone : s.handler = none) (hplace : s.place = .readChars b i)
      (hr : xIOUtilsReadCharsFromCircularBuffer fullAssert s.ring (b.drop i) (b.length - i) =
        some r)
      (hreturns : r.halted = false) :
      Happens fullAssert s (.taskStep e) { s with
        ring := r.pxCircularBuffer
        place := .peripheralEnable (b.take i ++ r.pucBuffer) (i + r.xBytesReadSoFar) } []
  | assertFailed {e : Bool} {b : List UInt8} {i : ℕ} {r : CircularBufferRead}
      (hnone : s.handler = none) (hplace : s.place = .readChars b i)
      (hr : xIOUtilsReadCharsFromCircularBuffer fullAssert s.ring (b.drop i) (b.length - i) =
        some r)
      (hhalted : r.halted = true) :
      Happens fullAssert s (.taskStep e) { s with
        ring := r.pxCircularBuffer
        place := .halted (b.take i ++ r.pucBuffer) (i + r.xBytesReadSoFar) } []
  | enable {e : Bool} {b : List UInt8} {i : ℕ} (hnone : s.handler = none)
      (hplace : s.place = .peripheralEnable b i) :
      Happens fullAssert s (.taskStep e) { s with
        uart := { s.uart with rxneie := true }
        place := .checkForTimeOut b i } []
  | again {b : List UInt8} {i : ℕ} (hnone : s.handler = none)
      (hplace : s.place = .checkForTimeOut b i) (hlt : i < b.length) :
      Happens fullAssert s (.taskStep false) { s with place := .semaphoreTake b i } []
  | done {e : Bool} {b : List UInt8} {i : ℕ} (hnone : s.handler = none)
      (hplace : s.place = .checkForTimeOut b i) (hdone : e = true ∨ b.length ≤ i) :
      Happens fullAssert s (.taskStep e) { s with place := .outside } [.returned b i]
  | clearErrorState {e : Bool} (hnone : s.handler = none) (hplace : s.place = .clearErrorState) :
      Happens fullAssert s (.taskStep e)
        { s with ring := { s.ring with usErrorState := false }, place := .clearReadIndex } []
  | clearReadIndex {e : Bool} (hnone : s.handler = none) (hplace : s.place = .clearReadIndex) :
      Happens fullAssert s (.taskStep e)
        { s with ring := { s.ring with usNextReadIndex := 0 }, place := .clearCharCount } []
  | clearCharCount {e : Bool} (hnone : s.handler = none) (hplace : s.place = .clearCharCount) :
      Happens fullAssert s (.taskStep e)
        { s with ring := { s.ring with usCharCount := 0 }, place := .clearWriteIndex } []
  | clearWriteIndex {e : Bool} (hnone : s.handler = none) (hplace : s.place = .clearWriteIndex) :
      Happens fullAssert s (.taskStep e)
        { s with ring := { s.ring with usNextWriteIndex := 0 }, place := .clearSemaphore } []
  | clearSemaphore {e : Bool} (hnone : s.handler = none) (hplace : s.place = .clearSemaphore) :
      Happens fullAssert s (.taskStep e)
        { s with
          ring := { s.ring with xNewDataSemaphore := s.ring.xNewDataSemaphore - 1 }
          place := .outside } []
  | enterHandler (hrxne : s.uart.rxne = true) (hrxneie : s.uart.rxneie = true)
      (hnone : s.handler = none) (henabled : s.place.interruptsDisabled = false) :
      Happens fullAssert s .enterHandler { s with handler := some (.condition 0) } []
  | store {n : ℕ} (hhandler : s.handler = some (.condition n)) (hrxne : s.uart.rxne = true)
      (hspace : s.ring.usCharCount < s.ring.usBufferLength) :
      Happens fullAssert s .handlerStep { s with
        ring := s.ring.put s.uart.dr
        uart := { s.uart with rxne := false }
        handler := some (.condition (n + 1)) } [.stored s.uart.dr]
  | noSpace {n : ℕ} (hhandler : s.handler = some (.condition n)) (hrxne : s.uart.rxne = true)
      (hspace : s.ring.usBufferLength ≤ s.ring.usCharCount) :
      Happens fullAssert s .handlerStep { s with
        ring := { s.ring with usErrorState := true }
        handler := some (.condition n) } []
  | loopDone {n : ℕ} (hhandler : s.handler = some (.condition n))
      (hrxne : s.uart.rxne = false) :
      Happens fullAssert s .handlerStep { s with handler := some (.semaphoreGive n) } []
  | give {n : ℕ} (hhandler : s.handler = some (.semaphoreGive n)) :
      Happens fullAssert s .handlerStep { s with
        ring := if 0 < n then s.ring.semaphoreGive else s.ring
        handler := some .clearITPendingBit } []
  | leave (hhandler : s.handler = some .clearITPendingBit) :
      Happens fullAssert s .handlerStep
        { s with uart := { s.uart with rxne := false }, handler := none }
        (if s.uart.rxne then [.lost s.uart.dr] else [])

variable {fullAssert : Bool} {s s' : CircularBufferRx} {a : Event} {o : List Output} {e : Bool}

/-- A statement of the task is one of the things that can happen. -/
theorem happens_of_taskStep (hnone : s.handler = none)
    (h : s.taskStep fullAssert e = some (s', o)) : Happens fullAssert s (.taskStep e) s' o := by
  unfold taskStep at h
  cases hplace : s.place with
  | outside | halted => simp [hplace] at h
  | semaphoreTake b i =>
    simp only [hplace] at h
    cases hn : s.ring.xNewDataSemaphore with
    | zero =>
      simp only [hn] at h
      obtain ⟨rfl, hs'⟩ := Option.ite_none_right_eq_some.mp h
      cases hs'
      exact .takeTimeOut hnone hplace hn
    | succ n =>
      simp only [hn] at h
      cases h
      exact .take hnone hplace hn
  | peripheralDisable b i =>
    simp only [hplace] at h
    cases h
    exact .disable hnone hplace
  | readChars b i =>
    simp only [hplace] at h
    obtain ⟨r, hr, hs'⟩ := Option.map_eq_some_iff.mp h
    cases hhalted : r.halted with
    | false =>
      simp only [hhalted, Bool.false_eq_true, if_false] at hs'
      cases hs'
      exact .readChars hnone hplace hr hhalted
    | true =>
      simp only [hhalted, if_true] at hs'
      cases hs'
      exact .assertFailed hnone hplace hr hhalted
  | peripheralEnable b i =>
    simp only [hplace] at h
    cases h
    exact .enable hnone hplace
  | checkForTimeOut b i =>
    simp only [hplace, whileMore] at h
    split_ifs at h with hexpired hlt
    · cases h
      exact .done hnone hplace (.inl hexpired)
    · obtain rfl : e = false := by simpa using hexpired
      cases h
      exact .again hnone hplace hlt
    · cases h
      exact .done hnone hplace (.inr (Nat.not_lt.mp hlt))
  | clearErrorState =>
    simp only [hplace] at h
    cases h
    exact .clearErrorState hnone hplace
  | clearReadIndex =>
    simp only [hplace] at h
    cases h
    exact .clearReadIndex hnone hplace
  | clearCharCount =>
    simp only [hplace] at h
    cases h
    exact .clearCharCount hnone hplace
  | clearWriteIndex =>
    simp only [hplace] at h
    cases h
    exact .clearWriteIndex hnone hplace
  | clearSemaphore =>
    simp only [hplace] at h
    cases h
    exact .clearSemaphore hnone hplace

/-- A statement of the handler is one of the things that can happen. -/
theorem happens_of_handlerStep (h : s.handlerStep = some (s', o)) :
    Happens fullAssert s .handlerStep s' o := by
  unfold handlerStep at h
  cases hhandler : s.handler with
  | none => simp [hhandler] at h
  | some place =>
    simp only [hhandler] at h
    cases place with
    | condition n =>
      simp only at h
      split_ifs at h with hrxne hspace
      · cases h
        exact .store hhandler hrxne hspace
      · cases h
        exact .noSpace hhandler hrxne (Nat.not_lt.mp hspace)
      · cases h
        exact .loopDone hhandler (by simpa using hrxne)
    | semaphoreGive n =>
      cases h
      exact .give hhandler
    | clearITPendingBit =>
      cases h
      exact .leave hhandler

/-- A step is one of the things that can happen. -/
theorem happens_of_step (h : (machine fullAssert).step s a = some (s', o)) :
    Happens fullAssert s a s' o := by
  cases a with
  | arrive c =>
    simp only [machine, arrive] at h
    split_ifs at h with hrxne
    · cases h
      exact .overrun hrxne
    · cases h
      exact .received (by simpa using hrxne)
  | read b =>
    obtain ⟨⟨hplace, hnone⟩, h⟩ := Option.ite_none_right_eq_some.mp h
    simp only [whileMore] at h
    split_ifs at h with hlt
    · cases h
      exact .readMore hplace hnone hlt
    · cases h
      exact .readNothing hplace hnone (by omega)
  | clear =>
    obtain ⟨⟨hplace, hnone⟩, h⟩ := Option.ite_none_right_eq_some.mp h
    cases h
    exact .clear hplace hnone
  | taskStep e =>
    obtain ⟨hnone, h⟩ := Option.ite_none_right_eq_some.mp h
    exact happens_of_taskStep hnone h
  | enterHandler =>
    obtain ⟨⟨hrxne, hrxneie, hnone, henabled⟩, h⟩ := Option.ite_none_right_eq_some.mp h
    cases h
    exact .enterHandler hrxne hrxneie hnone henabled
  | handlerStep => exact happens_of_handlerStep h

/-! ## What goes in and what comes out -/

/-- The bytes that have arrived. -/
def arrivedBytes (os : List Output) : List UInt8 :=
  os.filterMap fun o => match o with
    | .arrived c => some c
    | _ => none

/-- The bytes that the handler has stored. -/
def storedBytes (os : List Output) : List UInt8 :=
  os.filterMap fun o => match o with
    | .stored c => some c
    | _ => none

/-- The bytes that were lost before the handler could store them. -/
def lostBytes (os : List Output) : List UInt8 :=
  os.filterMap fun o => match o with
    | .lost c => some c
    | _ => none

/-- The bytes that the reads have returned. -/
def returnedBytes (os : List Output) : List UInt8 :=
  os.flatMap fun o => match o with
    | .returned pvBuffer xReturn => pvBuffer.take xReturn
    | _ => []

/-- The bytes that arrive in one part of a run and the next. -/
@[simp] theorem arrivedBytes_append (v w : List Output) :
    arrivedBytes (v ++ w) = arrivedBytes v ++ arrivedBytes w := List.filterMap_append

/-- The bytes stored in one part of a run and the next. -/
@[simp] theorem storedBytes_append (v w : List Output) :
    storedBytes (v ++ w) = storedBytes v ++ storedBytes w := List.filterMap_append

/-- The bytes lost in one part of a run and the next. -/
@[simp] theorem lostBytes_append (v w : List Output) :
    lostBytes (v ++ w) = lostBytes v ++ lostBytes w := List.filterMap_append

/-- The bytes returned in one part of a run and the next. -/
@[simp] theorem returnedBytes_append (v w : List Output) :
    returnedBytes (v ++ w) = returnedBytes v ++ returnedBytes w := List.flatMap_append

/-- The buffer of the read in progress, with the number of bytes read into it. -/
def reading : Place → Option (List UInt8 × ℕ)
  | .semaphoreTake b i => some (b, i)
  | .peripheralDisable b i => some (b, i)
  | .readChars b i => some (b, i)
  | .peripheralEnable b i => some (b, i)
  | .checkForTimeOut b i => some (b, i)
  | .halted b i => some (b, i)
  | _ => none

/-- The bytes that the read in progress has got so far. -/
def progress (p : Place) : List UInt8 :=
  match reading p with
  | some (b, i) => b.take i
  | none => []

/-- The task is not in the middle of `vIOUtilsClearRxCircularBuffer`. -/
def NotClearing (p : Place) : Prop := p = .outside ∨ (reading p).isSome

/-- The state between two steps when no clear is made: the indices describe a queue, and a
read has got at most as many bytes as its buffer holds. -/
structure Receiving (stale : ℕ) (s : CircularBufferRx) : Prop where
  queue : Queue stale s.ring
  notClearing : NotClearing s.place
  soFar_le : ∀ b i, reading s.place = some (b, i) → i ≤ b.length

variable {stale : ℕ}

/-- What a step does to the bytes: those returned, got by the read in progress and queued
afterwards are those got and queued before, and the one stored. -/
def Conserves (stale : ℕ) (s : CircularBufferRx) (s' : CircularBufferRx) (o : List Output) :
    Prop :=
  returnedBytes o ++ progress s'.place ++ contents stale s'.ring =
    progress s.place ++ contents stale s.ring ++ storedBytes o

/-- A step that changes neither the queue nor the read in progress. -/
theorem Receiving.of_sameRing (hs : Receiving stale s) (hring : SameRing s.ring s'.ring)
    (hreading : reading s'.place = reading s.place) (hplace : NotClearing s'.place)
    (hreturned : returnedBytes o = []) (hstored : storedBytes o = []) :
    Receiving stale s' ∧ Conserves stale s s' o := by
  refine ⟨⟨hring.queue hs.queue, hplace, ?_⟩, ?_⟩
  · rw [hreading]
    exact hs.soFar_le
  · rw [Conserves, hreturned, hstored, progress, progress, hreading, hring.contents_eq,
      List.nil_append, List.append_nil]

/-- The reading function takes bytes out of the queue into the buffer of the read, whether or
not it returns. -/
theorem Receiving.read (hs : Receiving stale s) {b : List UInt8} {i : ℕ} {r : CircularBufferRead}
    (hplace : s.place = .readChars b i)
    (hr : xIOUtilsReadCharsFromCircularBuffer fullAssert s.ring (b.drop i) (b.length - i) = some r)
    {next : Place} (hnext : reading next = some (b.take i ++ r.pucBuffer, i + r.xBytesReadSoFar)) :
    Receiving stale { s with ring := r.pxCircularBuffer, place := next } ∧
      Conserves stale s { s with ring := r.pxCircularBuffer, place := next } [] := by
  have hqueue := hs.queue
  have hi : i ≤ b.length := hs.soFar_le b i (by rw [hplace]; rfl)
  have hlen : b.length - i ≤ (b.drop i).length := by rw [List.length_drop]
  obtain ⟨r', hr', hread, -⟩ := xIOUtilsReadCharsFromCircularBuffer_spec hqueue hlen fullAssert
  obtain rfl : r = r' := Option.some.inj (hr.symm.trans hr')
  have htake : ((contents stale s.ring).take r.xBytesReadSoFar).length = r.xBytesReadSoFar := by
    rw [List.length_take, hqueue.length_contents, Nat.min_eq_left hread.soFar_le_count]
  have hlenFront : (b.take i).length = i := by rw [List.length_take, Nat.min_eq_left hi]
  refine ⟨⟨hread.queue, .inr (by simp [hnext]), ?_⟩, ?_⟩
  · intro b' i' hnext'
    obtain ⟨rfl, rfl⟩ : b.take i ++ r.pucBuffer = b' ∧ i + r.xBytesReadSoFar = i' := by
      simpa [hnext] using hnext'
    rw [List.length_append, hread.pucBuffer, List.length_append, htake, hlenFront]
    omega
  · have hprogress : (b.take i ++ r.pucBuffer).take (i + r.xBytesReadSoFar) =
        b.take i ++ (contents stale s.ring).take r.xBytesReadSoFar := by
      rw [List.take_append, hlenFront, Nat.add_sub_cancel_left, List.take_of_length_le (by omega),
        hread.pucBuffer, List.take_left' htake]
    have hbefore : progress s.place = b.take i := by
      rw [hplace]
      rfl
    have hafter : progress next = b.take i ++ (contents stale s.ring).take r.xBytesReadSoFar := by
      rw [progress, hnext]
      exact hprogress
    show progress next ++ contents stale r.pxCircularBuffer =
      progress s.place ++ contents stale s.ring ++ []
    rw [hafter, hbefore, hread.rest, List.append_assoc, List.take_append_drop, List.append_nil]

/-- **A step keeps the bytes**, as long as no clear is made. -/
theorem Happens.receiving (h : Happens fullAssert s a s' o) (ha : a ≠ .clear)
    (hs : Receiving stale s) : Receiving stale s' ∧ Conserves stale s s' o := by
  obtain ⟨hqueue, hplaces, hsoFar⟩ := hs
  have hs : Receiving stale s := ⟨hqueue, hplaces, hsoFar⟩
  cases h with
  | clear => exact absurd rfl ha
  | clearErrorState _ hplace | clearReadIndex _ hplace | clearCharCount _ hplace
  | clearWriteIndex _ hplace | clearSemaphore _ hplace =>
    rw [hplace] at hplaces
    simp [NotClearing, reading] at hplaces
  | overrun | received | enterHandler | noSpace | loopDone =>
    exact hs.of_sameRing ⟨rfl, rfl, rfl, rfl, rfl⟩ rfl hplaces rfl rfl
  | leave =>
    refine hs.of_sameRing (.refl _) rfl hplaces ?_ ?_ <;> split <;> rfl
  | give =>
    refine hs.of_sameRing ?_ rfl hplaces rfl rfl
    dsimp only
    split
    · exact sameRing_semaphoreGive _
    · exact .refl _
  | take _ hplace | takeTimeOut _ hplace | disable _ hplace | enable _ hplace
  | again _ hplace =>
    refine hs.of_sameRing ⟨rfl, rfl, rfl, rfl, rfl⟩ ?_ (.inr rfl) rfl rfl
    rw [hplace]
    rfl
  | readMore hplace =>
    refine ⟨⟨hqueue, .inr rfl, ?_⟩, ?_⟩
    · rintro b i ⟨⟩
      exact Nat.zero_le _
    · rw [Conserves, hplace]
      simp [progress, reading, returnedBytes, storedBytes]
  | readNothing hplace =>
    refine ⟨⟨hqueue, .inl rfl, ?_⟩, ?_⟩
    · rintro b i ⟨⟩
    · rw [Conserves, hplace]
      simp [progress, reading, returnedBytes, storedBytes]
  | done _ hplace =>
    refine ⟨⟨hqueue, .inl rfl, ?_⟩, ?_⟩
    · rintro b i ⟨⟩
    · rw [Conserves, hplace]
      simp [progress, reading, returnedBytes, storedBytes]
  | store _ _ hspace =>
    obtain ⟨hqueue', hcontents⟩ := hqueue.put hspace s.uart.dr
    refine ⟨⟨hqueue', hplaces, hsoFar⟩, ?_⟩
    rw [Conserves, hcontents]
    simp [returnedBytes, storedBytes]
  | readChars _ hplace hr | assertFailed _ hplace hr => exact hs.read hplace hr rfl

/-- **A run keeps the bytes.**  What the reads have returned, what the read in progress has
got and what is queued is what was queued at the start and what has been stored since, in
order. -/
theorem returnedBytes_append_contents {as : List Event} {os : List (List Output)}
    (hs : Receiving stale s) (hclear : ∀ a ∈ as, a ≠ .clear)
    (hrun : (machine fullAssert).exec s as = some (s', os)) :
    Receiving stale s' ∧
      returnedBytes os.flatten ++ progress s'.place ++ contents stale s'.ring =
        progress s.place ++ contents stale s.ring ++ storedBytes os.flatten := by
  have hrun' := Machine.invariant_of_outputs (M := machine fullAssert) (w := [])
    (fun w t => Receiving stale t ∧
      returnedBytes w ++ progress t.place ++ contents stale t.ring =
        progress s.place ++ contents stale s.ring ++ storedBytes w)
    (fun _ a => a ≠ .clear) ?_ ⟨hs, ?_⟩ (Machine.along_of_forall hclear) hrun
  · rwa [List.nil_append] at hrun'
  · rintro w t a t' o ⟨ht, hw⟩ ha hstep
    obtain ⟨ht', hconserves⟩ := (happens_of_step hstep).receiving ha ht
    refine ⟨ht', ?_⟩
    rw [Conserves] at hconserves
    rw [returnedBytes_append, storedBytes_append, List.append_assoc (returnedBytes w),
      List.append_assoc (returnedBytes w), hconserves, ← List.append_assoc, ← List.append_assoc,
      hw, List.append_assoc]
  · simp [returnedBytes, storedBytes]

/-! ## Bytes that are lost -/

/-- The byte in `DR` that has not been read. -/
def pending (s : CircularBufferRx) : List UInt8 := if s.uart.rxne then [s.uart.dr] else []

/-- The handler has found `RXNE` clear, and will clear it once more. -/
def Leaving (s : CircularBufferRx) : Prop :=
  s.handler = some .clearITPendingBit ∨ ∃ n, s.handler = some (.semaphoreGive n)

/-- A byte may arrive: the one before it has been read, and the handler is not on its way
out. -/
def MayArrive (s : CircularBufferRx) (a : Event) : Prop :=
  ∀ c, a = .arrive c → s.uart.rxne = false ∧ ¬ Leaving s

/-- Bytes go from the line over `DR` into the circular buffer in order, and each of them is
stored, in `DR` or lost. -/
theorem Happens.arrivals (h : Happens fullAssert s a s' o) :
    (storedBytes o ++ pending s').Sublist (pending s ++ arrivedBytes o) ∧
      (pending s).length + (arrivedBytes o).length =
        (storedBytes o).length + (pending s').length + (lostBytes o).length := by
  cases h with
  | overrun hrxne => simp [storedBytes, arrivedBytes, lostBytes, pending]
  | received hrxne => simp [storedBytes, arrivedBytes, lostBytes, pending, hrxne]
  | store _ hrxne => simp [storedBytes, arrivedBytes, lostBytes, pending, hrxne]
  | leave => cases hrxne : s.uart.rxne <;>
      simp [storedBytes, arrivedBytes, lostBytes, pending, hrxne]
  | _ => simp [storedBytes, arrivedBytes, lostBytes, pending]

/-- What arrives is stored, in `DR` or lost, in order, over a run. -/
theorem arrivedBytes_accounts {as : List Event} {os : List (List Output)}
    (hrun : (machine fullAssert).exec s as = some (s', os)) :
    (storedBytes os.flatten ++ pending s').Sublist (pending s ++ arrivedBytes os.flatten) ∧
      (pending s).length + (arrivedBytes os.flatten).length =
        (storedBytes os.flatten).length + (pending s').length +
          (lostBytes os.flatten).length := by
  have hrun' := Machine.invariant_of_outputs (M := machine fullAssert) (w := [])
    (fun w t => (storedBytes w ++ pending t).Sublist (pending s ++ arrivedBytes w) ∧
      (pending s).length + (arrivedBytes w).length =
        (storedBytes w).length + (pending t).length + (lostBytes w).length)
    (fun _ _ => True) ?_ ?_ (Machine.along_of_forall fun _ _ => trivial) hrun
  · rwa [List.nil_append] at hrun'
  · rintro w t a t' o ⟨hsub, hlen⟩ - hstep
    obtain ⟨hsub', hlen'⟩ := (happens_of_step hstep).arrivals
    rw [storedBytes_append, arrivedBytes_append, lostBytes_append]
    constructor
    · calc (storedBytes w ++ storedBytes o ++ pending t').Sublist
            (storedBytes w ++ (pending t ++ arrivedBytes o)) := by
              rw [List.append_assoc]
              exact hsub'.append_left _
        _ = storedBytes w ++ pending t ++ arrivedBytes o := (List.append_assoc _ _ _).symm
        List.Sublist _ (pending s ++ arrivedBytes w ++ arrivedBytes o) := hsub.append_right _
        _ = pending s ++ (arrivedBytes w ++ arrivedBytes o) := List.append_assoc _ _ _
    · simp only [List.length_append]
      omega
  · simp [storedBytes, arrivedBytes, lostBytes]

/-- While bytes arrive only when they may, none is in `DR` once the handler is on its way
out, and a step loses none. -/
theorem Happens.not_lost (h : Happens fullAssert s a s' o) (hmay : MayArrive s a)
    (hs : Leaving s → s.uart.rxne = false) :
    (Leaving s' → s'.uart.rxne = false) ∧ lostBytes o = [] := by
  cases h with
  | @overrun c hrxne =>
    obtain ⟨hclear, -⟩ := hmay c rfl
    rw [hrxne] at hclear
    exact absurd hclear (by simp)
  | @received c hrxne =>
    obtain ⟨-, hnot⟩ := hmay c rfl
    exact ⟨fun hleaving => absurd hleaving hnot, rfl⟩
  | leave hhandler =>
    rw [if_neg (by simp [hs (.inl hhandler)])]
    exact ⟨fun _ => rfl, rfl⟩
  | loopDone _ hrxne => exact ⟨fun _ => hrxne, rfl⟩
  | give hhandler => exact ⟨fun _ => hs (.inr ⟨_, hhandler⟩), rfl⟩
  | enterHandler | store | noSpace =>
    refine ⟨fun hleaving => ?_, rfl⟩
    simp [Leaving] at hleaving
  | _ => exact ⟨hs, rfl⟩

/-- A byte that may not arrive is lost, or will be when the handler is left. -/
theorem Happens.lost (h : Happens fullAssert s a s' o) (hmay : ¬ MayArrive s a) :
    lostBytes o ≠ [] ∨ Leaving s' ∧ s'.uart.rxne = true := by
  cases h with
  | overrun => exact .inl (by simp [lostBytes])
  | received hrxne => exact .inr ⟨by_contra fun hnot => hmay fun _ _ => ⟨hrxne, hnot⟩, rfl⟩
  | _ => exact absurd nofun hmay

/-- A byte that has arrived while the handler was on its way out is lost when it is left. -/
theorem Happens.lost_of_leaving (h : Happens fullAssert s a s' o) (hs : Leaving s)
    (hrxne : s.uart.rxne = true) : lostBytes o ≠ [] ∨ Leaving s' ∧ s'.uart.rxne = true := by
  cases h with
  | overrun => exact .inl (by simp [lostBytes])
  | received hclear => rw [hrxne] at hclear; cases hclear
  | leave => exact .inl (by simp [lostBytes, hrxne])
  | give => exact .inr ⟨.inl rfl, hrxne⟩
  | store hcondition | noSpace hcondition | loopDone hcondition =>
    rcases hs with hs | ⟨n, hs⟩ <;> rw [hs] at hcondition <;> cases hcondition
  | enterHandler _ _ hnone =>
    rcases hs with hs | ⟨n, hs⟩ <;> rw [hs] at hnone <;> cases hnone
  | _ => exact .inr ⟨hs, hrxne⟩

/-- Nothing is lost in a run that ends outside the handler exactly when every byte arrives
when it may. -/
theorem lostBytes_eq_nil_iff {as : List Event} {os : List (List Output)}
    (hs : Leaving s → s.uart.rxne = false) (hrun : (machine fullAssert).exec s as = some (s', os))
    (hend : s'.handler = none) :
    lostBytes os.flatten = [] ↔ (machine fullAssert).Along MayArrive s as := by
  refine Machine.clean_iff_along (fun o => lostBytes o = [])
    (fun s => Leaving s → s.uart.rxne = false) (fun s => Leaving s ∧ s.uart.rxne = true) MayArrive
    rfl (fun o o' => by rw [lostBytes_append, List.append_eq_nil_iff])
    (fun _ _ _ _ hs hmay hstep => (happens_of_step hstep).not_lost hmay hs)
    (fun _ _ _ _ _ hmay hstep => (happens_of_step hstep).lost hmay)
    (fun _ _ _ _ hs hstep => (happens_of_step hstep).lost_of_leaving hs.1 hs.2) hs hrun ?_
  rintro ⟨hleaving | ⟨n, hleaving⟩, -⟩ <;> rw [hend] at hleaving <;> cases hleaving

/-- **Reception over whole runs.**  What the reads have returned, got so far, left in the
circular buffer and in `DR` is always what arrived with some bytes left out, in order and
none of them twice.  Outside the handler nothing is left out exactly when no byte has arrived
while `RXNE` was set or after the handler had last looked at it and before
`USART_ClearITPendingBit` cleared it. -/
theorem returned_bytes_of_arrived {as : List Event} {os : List (List Output)}
    (hs : Receiving stale s) (hrxne : s.uart.rxne = false)
    (hclear : ∀ a ∈ as, a ≠ .clear) (hrun : (machine fullAssert).exec s as = some (s', os)) :
    let received := returnedBytes os.flatten ++ progress s'.place ++ contents stale s'.ring ++
      pending s'
    let expected := progress s.place ++ contents stale s.ring ++ arrivedBytes os.flatten
    received.Sublist expected ∧
      (s'.handler = none → (received = expected ↔ (machine fullAssert).Along MayArrive s as)) := by
  obtain ⟨-, hbytes⟩ := returnedBytes_append_contents hs hclear hrun
  obtain ⟨hsub, hlen⟩ := arrivedBytes_accounts hrun
  have hnone : pending s = [] := by simp [pending, hrxne]
  rw [hnone, List.nil_append] at hsub
  rw [hnone, List.length_nil, Nat.zero_add] at hlen
  simp only [hbytes, List.append_assoc]
  refine ⟨(hsub.append_left _).append_left _, fun hend => ?_⟩
  rw [List.append_cancel_left_eq, List.append_cancel_left_eq,
    ← lostBytes_eq_nil_iff (fun _ => hrxne) hrun hend, ← List.length_eq_zero_iff]
  constructor
  · intro heq
    have heqLen := congrArg List.length heq
    rw [List.length_append] at heqLen
    omega
  · intro hzero
    apply hsub.eq_of_length
    rw [List.length_append]
    omega

/-- A UART whose interrupt is enabled, with an empty buffer of two bytes. -/
def twoCells : CircularBufferRx := ⟨.configured [0, 0], ⟨0, false, true⟩, .outside, none⟩

/-- The invariant for the empty buffer. -/
theorem receiving_twoCells : Receiving 0 twoCells :=
  ⟨queue_configured (by decide), .inl rfl, by rintro b i ⟨⟩⟩

/-- A byte arrives, and the handler stores it. -/
def byteStored (c : UInt8) : List Event :=
  [.arrive c, .enterHandler, .handlerStep, .handlerStep, .handlerStep, .handlerStep]

/-- A read of one byte that has been stored. -/
def oneByteRead : List Event :=
  [.read [0], .taskStep false, .taskStep false, .taskStep false, .taskStep false, .taskStep false]

/-- Two bytes arrive one after the other and are read, and a third one is in `DR`. -/
theorem returned_bytes_of_three_bytes :
    ∃ s' os, (machine true).exec twoCells
        (byteStored 5 ++ oneByteRead ++ byteStored 6 ++ oneByteRead ++ [.arrive 7]) =
          some (s', os) ∧
      let received := returnedBytes os.flatten ++ progress s'.place ++ contents 0 s'.ring ++
        pending s'
      received.Sublist [5, 6, 7] ∧ (s'.handler = none →
        (received = [5, 6, 7] ↔ (machine true).Along MayArrive twoCells
          (byteStored 5 ++ oneByteRead ++ byteStored 6 ++ oneByteRead ++ [.arrive 7]))) :=
  ⟨_, _, rfl, returned_bytes_of_arrived receiving_twoCells rfl (by decide) rfl⟩

end CircularBufferRx

end Resmod.Analysis
