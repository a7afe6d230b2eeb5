import Resmod.Model.SspCharQueue

/-!
# Bytes written to an SSP through a character queue

Whatever the SPI and the handler do and when, the bytes shifted out, those in the shift
register and in `DR`, the one in the hand of the task or of the handler and those in the
queue are the bytes accepted, in order, without those that a clear has found in the queue.

The task takes a byte while the interrupt is disabled, so that it and the handler do not meet.
The handler stores as many bytes as it has received words, without a further look at `TXE`:
no more than two can have been on their way when it found `DR` empty, and these have left room
for as many (`Credit`).

`Happens` says once what a step of the machine can do.
-/

set_option autoImplicit false

namespace Resmod.Analysis

open Resmod.Library Resmod.Model

namespace SspCharQueue

open Resmod.Model.SspCharQueue
open SspInterrupt (StatusReg)

variable {txCapacity rxCapacity : ℕ}

/-! ## The steps -/

/-- What can happen in a state, with the conditions under which it can. -/
inductive Happens (s : SspCharQueue txCapacity rxCapacity) :
    Event → SspCharQueue txCapacity rxCapacity → List Output → Prop
  | write {b : List UInt8} (hplace : s.place = .outside) (hnone : s.handler = none) :
      Happens s (.write b) { s with place := .send .task b 0 } []
  | read {n : ℕ} (hplace : s.place = .outside) (hnone : s.handler = none) :
      Happens s (.read n) { s with place := .waitTxQueueEmpty n } []
  | accept {e : Bool} {caller : Caller} {b : List UInt8} {i : ℕ} {c : UInt8}
      (hplace : s.place = .send caller b i) (hnone : s.handler = none) (hc : b[i]? = some c)
      (hfull : ¬ s.tx.Full) :
      Happens s (.taskStep e) { s with tx := s.tx.send c, place := .send caller b (i + 1) }
        [.accepted c]
  | sendDone {e : Bool} {caller : Caller} {b : List UInt8} {i : ℕ}
      (hplace : s.place = .send caller b i) (hnone : s.handler = none)
      (hdone : b[i]? = none ∨ s.tx.Full) :
      Happens s (.taskStep e) { s with place := .fill caller b i .disableIT } []
  | disableIT {e : Bool} {caller : Caller} {b : List UInt8} {i : ℕ}
      (hplace : s.place = .fill caller b i .disableIT) (hnone : s.handler = none) :
      Happens s (.taskStep e)
        { s with spi := { s.spi with rxneie := false }, place := .fill caller b i .testTxe } []
  | txeSet {e : Bool} {caller : Caller} {b : List UInt8} {i : ℕ}
      (hplace : s.place = .fill caller b i .testTxe) (hnone : s.handler = none)
      (hdr : s.spi.dr = none) :
      Happens s (.taskStep e)
        { s with spi := s.spi.readSR, place := .fill caller b i .receive } []
  | txeClear {e : Bool} {caller : Caller} {b : List UInt8} {i : ℕ}
      (hplace : s.place = .fill caller b i .testTxe) (hnone : s.handler = none)
      (hdr : s.spi.dr ≠ none) :
      Happens s (.taskStep e)
        { s with spi := s.spi.readSR, place := .fill caller b i .enableIT } []
  | fillNone {e : Bool} {caller : Caller} {b : List UInt8} {i : ℕ}
      (hplace : s.place = .fill caller b i .receive) (hnone : s.handler = none)
      (hempty : s.tx.items = []) :
      Happens s (.taskStep e) { s with place := .fill caller b i .enableIT } []
  | fillTake {e : Bool} {caller : Caller} {b : List UInt8} {i : ℕ} {c : UInt8}
      {tx : BoundedQueue UInt8 txCapacity} (hplace : s.place = .fill caller b i .receive)
      (hnone : s.handler = none) (hreceive : s.tx.receive = some (c, tx)) :
      Happens s (.taskStep e)
        { s with tx := tx, place := .fill caller b i (.peripheralWrite c) } []
  | peripheralWrite {e : Bool} {caller : Caller} {b : List UInt8} {i : ℕ} {c : UInt8}
      (hplace : s.place = .fill caller b i (.peripheralWrite c)) (hnone : s.handler = none) :
      Happens s (.taskStep e)
        { s with spi := s.spi.store c, place := .fill caller b i .enableIT } [.stored c]
  | wrote {e : Bool} {b : List UInt8} {i : ℕ} (hplace : s.place = .fill .task b i .enableIT)
      (hnone : s.handler = none) :
      Happens s (.taskStep e)
        { s with spi := { s.spi with rxneie := true }, place := .outside } [.wrote b i]
  | wroteNull {e : Bool} {b : List UInt8} {i n : ℕ}
      (hplace : s.place = .fill (.read n) b i .enableIT) (hnone : s.handler = none) :
      Happens s (.taskStep e)
        { s with spi := { s.spi with rxneie := true }, place := .enableIT n } []
  | waitMore {e : Bool} {n : ℕ} (hplace : s.place = .waitTxQueueEmpty n)
      (hnone : s.handler = none) : Happens s (.taskStep e) s []
  | waited {e : Bool} {n : ℕ} (hplace : s.place = .waitTxQueueEmpty n)
      (hnone : s.handler = none) :
      Happens s (.taskStep e) { s with place := .clearRxCharQueue n } []
  | clear {e : Bool} {n : ℕ} (hplace : s.place = .clearRxCharQueue n)
      (hnone : s.handler = none) :
      Happens s (.taskStep e) { s with tx := .empty, place := .activate n }
        [.cleared s.tx.items]
  | activate {e : Bool} {n : ℕ} (hplace : s.place = .activate n) (hnone : s.handler = none) :
      Happens s (.taskStep e)
        { s with ulReceiveActive := true, place := .send (.read n) (nullBuffer n) 0 } []
  | enableIT {e : Bool} {n : ℕ} (hplace : s.place = .enableIT n) (hnone : s.handler = none) :
      Happens s (.taskStep e)
        { s with spi := { s.spi with rxneie := true }, place := .receive n [] } []
  | take {e : Bool} {n : ℕ} {b : List UInt8} {w : UInt8} {rx : BoundedQueue UInt8 rxCapacity}
      (hplace : s.place = .receive n b) (hnone : s.handler = none) (hlt : b.length < n)
      (hreceive : s.rx.receive = some (w, rx)) :
      Happens s (.taskStep e) { s with rx := rx, place := .checkForTimeOut n (b ++ [w]) }
        [.received w]
  | takeTimeOut {n : ℕ} {b : List UInt8} (hplace : s.place = .receive n b)
      (hnone : s.handler = none) (hlt : b.length < n) (hempty : s.rx.items = []) :
      Happens s (.taskStep true) { s with place := .checkForTimeOut n b } []
  | received {e : Bool} {n : ℕ} {b : List UInt8} (hplace : s.place = .receive n b)
      (hnone : s.handler = none) (hge : n ≤ b.length) :
      Happens s (.taskStep e) { s with place := .deactivate n b } []
  | inTime {n : ℕ} {b : List UInt8} (hplace : s.place = .checkForTimeOut n b)
      (hnone : s.handler = none) :
      Happens s (.taskStep false) { s with place := .receive n b } []
  | timeOut {n : ℕ} {b : List UInt8} (hplace : s.place = .checkForTimeOut n b)
      (hnone : s.handler = none) :
      Happens s (.taskStep true) { s with place := .deactivate n b } []
  | deactivate {e : Bool} {n : ℕ} {b : List UInt8} (hplace : s.place = .deactivate n b)
      (hnone : s.handler = none) :
      Happens s (.taskStep e) { s with ulReceiveActive := false, place := .outside }
        [.readDone n b]
  | shifted {c w : UInt8} (hshift : s.spi.shift = some c) :
      Happens s (.shifted w) { s with spi := s.spi.shiftWord w } [.bus c, .arrived w]
  | enterHandler (hrxne : s.spi.rxne = true) (hrxneie : s.spi.rxneie = true)
      (hnone : s.handler = none) :
      Happens s .enterHandler { s with handler := some .readStatus } []
  | overrun (hhandler : s.handler = some .readStatus) (hovr : s.spi.ovr = true) :
      Happens s .handlerStep
        { s with spi := s.spi.readSR, handler := some (.overrunReadDR s.spi.sr) } []
  | readStatus (hhandler : s.handler = some .readStatus) (hovr : s.spi.ovr = false) :
      Happens s .handlerStep
        { s with spi := s.spi.readSR, handler := HandlerPlace.afterOverrun s.spi.sr } []
  | overrunReadDR {sr : StatusReg} (hhandler : s.handler = some (.overrunReadDR sr)) :
      Happens s .handlerStep
        { s with spi := s.spi.readDR, handler := some (.overrunReadSR sr) } []
  | overrunReadSR {sr : StatusReg} (hhandler : s.handler = some (.overrunReadSR sr)) :
      Happens s .handlerStep
        { s with spi := s.spi.readSR, handler := HandlerPlace.afterOverrun sr } []
  | keep {sr : StatusReg} (hhandler : s.handler = some (.receive sr))
      (hactive : s.ulReceiveActive = true) :
      Happens s .handlerStep { s with handler := some (.rxCondition sr 0) } []
  | junk {sr : StatusReg} (hhandler : s.handler = some (.receive sr))
      (hactive : s.ulReceiveActive = false) :
      Happens s .handlerStep
        { s with spi := s.spi.readDR, handler := HandlerPlace.afterReception sr 1 } []
  | rxMore {sr : StatusReg} {rcvd : ℕ} (hhandler : s.handler = some (.rxCondition sr rcvd))
      (hrxne : s.spi.rxne = true) :
      Happens s .handlerStep
        { s with spi := s.spi.readSR, handler := some (.rxReadDR sr rcvd) } []
  | rxDone {sr : StatusReg} {rcvd : ℕ} (hhandler : s.handler = some (.rxCondition sr rcvd))
      (hrxne : s.spi.rxne = false) :
      Happens s .handlerStep
        { s with spi := s.spi.readSR, handler := HandlerPlace.afterReception sr rcvd } []
  | rxReadDR {sr : StatusReg} {rcvd : ℕ} (hhandler : s.handler = some (.rxReadDR sr rcvd)) :
      Happens s .handlerStep
        { s with
          spi := s.spi.readDR
          handler := some (.sendFromISR sr rcvd s.spi.received) } []
  | drop {sr : StatusReg} {rcvd : ℕ} {w : UInt8}
      (hhandler : s.handler = some (.sendFromISR sr rcvd w)) (hfull : s.rx.Full) :
      Happens s .handlerStep
        { s with usErrorState := true, handler := some (.rxCondition sr rcvd) } [.dropped w]
  | queue {sr : StatusReg} {rcvd : ℕ} {w : UInt8}
      (hhandler : s.handler = some (.sendFromISR sr rcvd w)) (hfull : ¬ s.rx.Full) :
      Happens s .handlerStep
        { s with rx := s.rx.send w, handler := some (.rxCondition sr (rcvd + 1)) } [.queued w]
  | txDone {rcvd : ℕ} (hhandler : s.handler = some (.receiveFromISR rcvd))
      (hdone : rcvd = 0 ∨ s.tx.items = []) :
      Happens s .handlerStep { s with handler := none } []
  | txTake {rcvd : ℕ} {c : UInt8} {tx : BoundedQueue UInt8 txCapacity}
      (hhandler : s.handler = some (.receiveFromISR (rcvd + 1)))
      (hreceive : s.tx.receive = some (c, tx)) :
      Happens s .handlerStep { s with tx := tx, handler := some (.transmit rcvd c) } []
  | transmit {rcvd : ℕ} {c : UInt8} (hhandler : s.handler = some (.transmit rcvd c)) :
      Happens s .handlerStep
        { s with spi := s.spi.store c, handler := some (.receiveFromISR rcvd) } [.stored c]

variable {s s' : SspCharQueue txCapacity rxCapacity} {a : Event} {o : List Output} {e : Bool}

/-- A statement of the section that fills `DR` is one of the things that can happen. -/
theorem happens_of_fillStep {caller : Caller} {b : List UInt8} {i : ℕ} {statement : Fill}
    (hplace : s.place = .fill caller b i statement) (hnone : s.handler = none)
    (h : s.fillStep caller b i statement = (s', o)) : Happens s (.taskStep e) s' o := by
  cases statement with
  | disableIT =>
    cases h
    exact .disableIT hplace hnone
  | testTxe =>
    simp only [fillStep] at h
    by_cases hdr : s.spi.dr = none
    · rw [if_pos hdr] at h
      cases h
      exact .txeSet hplace hnone hdr
    · rw [if_neg hdr] at h
      cases h
      exact .txeClear hplace hnone hdr
  | receive =>
    simp only [fillStep] at h
    cases hreceive : s.tx.receive with
    | none =>
      rw [hreceive] at h
      cases h
      exact .fillNone hplace hnone (BoundedQueue.items_eq_nil_of_receive hreceive)
    | some r =>
      rw [hreceive] at h
      cases h
      exact .fillTake hplace hnone hreceive
  | peripheralWrite c =>
    cases h
    exact .peripheralWrite hplace hnone
  | enableIT =>
    cases caller with
    | task =>
      cases h
      exact .wrote hplace hnone
    | read n =>
      cases h
      exact .wroteNull hplace hnone

/-- So is every statement of the task. -/
theorem happens_of_taskStep (hnone : s.handler = none) (h : s.taskStep e = some (s', o)) :
    Happens s (.taskStep e) s' o := by
  unfold taskStep at h
  cases hplace : s.place with
  | outside => simp [hplace] at h
  | send caller b i =>
    simp only [hplace] at h
    cases hc : b[i]? with
    | none =>
      simp only [hc] at h
      cases h
      exact .sendDone hplace hnone (.inl hc)
    | some c =>
      simp only [hc] at h
      split_ifs at h with hfull
      · cases h
        exact .sendDone hplace hnone (.inr hfull)
      · cases h
        exact .accept hplace hnone hc hfull
  | fill caller b i statement =>
    simp only [hplace] at h
    exact happens_of_fillStep hplace hnone (Option.some.inj h)
  | waitTxQueueEmpty n =>
    simp only [hplace] at h
    split_ifs at h
    · cases h
      exact .waited hplace hnone
    · cases h
      exact .waitMore hplace hnone
  | clearRxCharQueue n =>
    simp only [hplace] at h
    cases h
    exact .clear hplace hnone
  | activate n =>
    simp only [hplace] at h
    cases h
    exact .activate hplace hnone
  | enableIT n =>
    simp only [hplace] at h
    cases h
    exact .enableIT hplace hnone
  | receive n b =>
    simp only [hplace] at h
    by_cases hlt : b.length < n
    · rw [if_pos hlt] at h
      cases hreceive : s.rx.receive with
      | none =>
        simp only [hreceive] at h
        obtain ⟨rfl, h⟩ := Option.ite_none_right_eq_some.mp h
        cases h
        exact .takeTimeOut hplace hnone hlt (BoundedQueue.items_eq_nil_of_receive hreceive)
      | some r =>
        simp only [hreceive] at h
        cases h
        exact .take hplace hnone hlt hreceive
    · rw [if_neg hlt] at h
      cases h
      exact .received hplace hnone (Nat.le_of_not_lt hlt)
  | checkForTimeOut n b =>
    simp only [hplace] at h
    cases e with
    | false =>
      cases h
      exact .inTime hplace hnone
    | true =>
      cases h
      exact .timeOut hplace hnone
  | deactivate n b =>
    simp only [hplace] at h
    cases h
    exact .deactivate hplace hnone

/-- So is every statement of the handler. -/
theorem happens_of_handlerStep (h : s.handlerStep = some (s', o)) :
    Happens s .handlerStep s' o := by
  unfold handlerStep at h
  cases hhandler : s.handler with
  | none => simp [hhandler] at h
  | some place =>
    simp only [hhandler] at h
    cases place with
    | readStatus =>
      simp only at h
      split_ifs at h with hovr
      · cases h
        exact .overrun hhandler hovr
      · cases h
        exact .readStatus hhandler (by simpa using hovr)
    | overrunReadDR sr =>
      cases h
      exact .overrunReadDR hhandler
    | overrunReadSR sr =>
      cases h
      exact .overrunReadSR hhandler
    | receive sr =>
      simp only at h
      split_ifs at h with hactive
      · cases h
        exact .keep hhandler hactive
      · cases h
        exact .junk hhandler (by simpa using hactive)
    | rxCondition sr rcvd =>
      simp only at h
      split_ifs at h with hrxne
      · cases h
        exact .rxMore hhandler hrxne
      · cases h
        exact .rxDone hhandler (by simpa using hrxne)
    | rxReadDR sr rcvd =>
      cases h
      exact .rxReadDR hhandler
    | sendFromISR sr rcvd w =>
      simp only at h
      split_ifs at h with hfull
      · cases h
        exact .drop hhandler hfull
      · cases h
        exact .queue hhandler hfull
    | receiveFromISR rcvd =>
      simp only at h
      cases rcvd with
      | zero =>
        cases h
        exact .txDone hhandler (.inl rfl)
      | succ rcvd =>
        simp only [Nat.succ_ne_zero, if_false, Nat.add_sub_cancel] at h
        cases hreceive : s.tx.receive with
        | none =>
          simp only [hreceive] at h
          cases h
          exact .txDone hhandler (.inr (BoundedQueue.items_eq_nil_of_receive hreceive))
        | some r =>
          simp only [hreceive] at h
          cases h
          exact .txTake hhandler hreceive
    | transmit rcvd c =>
      cases h
      exact .transmit hhandler

/-- A step is one of the things that can happen. -/
theorem happens_of_step (h : (machine txCapacity rxCapacity).step s a = some (s', o)) :
    Happens s a s' o := by
  cases a with
  | write b =>
    obtain ⟨⟨hplace, hnone⟩, h⟩ := Option.ite_none_right_eq_some.mp h
    cases h
    exact .write hplace hnone
  | read n =>
    obtain ⟨⟨hplace, hnone⟩, h⟩ := Option.ite_none_right_eq_some.mp h
    cases h
    exact .read hplace hnone
  | taskStep e =>
    obtain ⟨hnone, h⟩ := Option.ite_none_right_eq_some.mp h
    exact happens_of_taskStep hnone h
  | shifted w =>
    simp only [machine] at h
    cases hshift : s.spi.shift with
    | none => simp [hshift] at h
    | some c =>
      simp only [hshift] at h
      cases h
      exact .shifted hshift
  | enterHandler =>
    obtain ⟨⟨hrxne, hrxneie, hnone⟩, h⟩ := Option.ite_none_right_eq_some.mp h
    cases h
    exact .enterHandler hrxne hrxneie hnone
  | handlerStep => exact happens_of_handlerStep h

/-! ## The registers -/

/-- The words in the SPI, the one that is shifted out first. -/
def words (u : Spi) : List UInt8 := u.shift.toList ++ u.dr.toList

variable {u : Spi}

/-- A read of `DR` leaves the shift register. -/
@[simp] theorem readDR_shift (u : Spi) : u.readDR.shift = u.shift := rfl

/-- A read of `DR` clears `RXNE`. -/
@[simp] theorem readDR_rxne (u : Spi) : u.readDR.rxne = false := rfl

/-- A read of `SR` changes nothing but `OVR`. -/
theorem readSR_eq (u : Spi) : ∃ ovr drRead, u.readSR = { u with ovr := ovr, drRead := drRead } := by
  unfold Spi.readSR
  split_ifs
  · exact ⟨false, false, rfl⟩
  · exact ⟨u.ovr, u.drRead, rfl⟩

/-- A read of `SR` leaves the word to be sent. -/
@[simp] theorem readSR_dr (u : Spi) : u.readSR.dr = u.dr := by
  obtain ⟨_, _, h⟩ := readSR_eq u
  rw [h]

/-- A read of `SR` leaves the shift register. -/
@[simp] theorem readSR_shift (u : Spi) : u.readSR.shift = u.shift := by
  obtain ⟨_, _, h⟩ := readSR_eq u
  rw [h]

/-- A read of `SR` leaves `RXNE`. -/
@[simp] theorem readSR_rxne (u : Spi) : u.readSR.rxne = u.rxne := by
  obtain ⟨_, _, h⟩ := readSR_eq u
  rw [h]

/-- A read of `SR` leaves the enable bit. -/
@[simp] theorem readSR_rxneie (u : Spi) : u.readSR.rxneie = u.rxneie := by
  obtain ⟨_, _, h⟩ := readSR_eq u
  rw [h]

/-- A read of `SR` leaves the word received. -/
@[simp] theorem readSR_received (u : Spi) : u.readSR.received = u.received := by
  obtain ⟨_, _, h⟩ := readSR_eq u
  rw [h]

/-- The next word is the one in `DR`. -/
@[simp] theorem shiftWord_shift (u : Spi) (w : UInt8) : (u.shiftWord w).shift = u.dr := by
  unfold Spi.shiftWord
  split_ifs <;> rfl

/-- `DR` is empty when its word is being shifted out. -/
@[simp] theorem shiftWord_dr (u : Spi) (w : UInt8) : (u.shiftWord w).dr = none := by
  unfold Spi.shiftWord
  split_ifs <;> rfl

/-- A word on the bus leaves the enable bit. -/
@[simp] theorem shiftWord_rxneie (u : Spi) (w : UInt8) : (u.shiftWord w).rxneie = u.rxneie := by
  unfold Spi.shiftWord
  split_ifs <;> rfl

/-- A word on the bus sets `RXNE`. -/
@[simp] theorem shiftWord_rxne (u : Spi) (w : UInt8) : (u.shiftWord w).rxne = true := by
  unfold Spi.shiftWord
  split_ifs with h
  · exact h
  · rfl

/-- A store leaves `RXNE`. -/
@[simp] theorem store_rxne (u : Spi) (c : UInt8) : (u.store c).rxne = u.rxne := by
  unfold Spi.store
  cases u.shift <;> rfl

/-- A store leaves the enable bit. -/
@[simp] theorem store_rxneie (u : Spi) (c : UInt8) : (u.store c).rxneie = u.rxneie := by
  unfold Spi.store
  cases u.shift <;> rfl

/-- A store leaves the word received. -/
@[simp] theorem store_received (u : Spi) (c : UInt8) : (u.store c).received = u.received := by
  unfold Spi.store
  cases u.shift <;> rfl

/-- A store leaves `OVR`. -/
@[simp] theorem store_ovr (u : Spi) (c : UInt8) : (u.store c).ovr = u.ovr := by
  unfold Spi.store
  cases u.shift <;> rfl

/-- Something is shifted out after a store. -/
theorem store_shift_ne_none (u : Spi) (c : UInt8) : (u.store c).shift ≠ none := by
  unfold Spi.store
  cases u.shift with
  | none => exact Option.some_ne_none c
  | some x => exact Option.some_ne_none x

/-- A byte stored into an empty `DR` comes last. -/
theorem words_store (hdr : u.dr = none) (c : UInt8) : words (u.store c) = words u ++ [c] := by
  unfold Spi.store words
  cases u.shift <;> simp [hdr]

/-- What is shifted out is the first of the words. -/
theorem words_shiftWord {c : UInt8} (hshift : u.shift = some c) (w : UInt8) :
    words u = c :: words (u.shiftWord w) := by
  simp [words, hshift]

/-! ## Room for what the handler stores -/

/-- The words that may still be received while nothing is stored, `DR` being empty. -/
def onWay (u : Spi) : ℕ := u.rxne.toNat + u.shift.isSome.toNat

/-- So many bytes can be stored one after the other. -/
def Room (u : Spi) (k : ℕ) : Prop := k = 0 ∨ u.dr = none ∧ k + u.shift.isSome.toNat ≤ 2

/-- What the handler knows once it has found `DR` empty: the words received and those on their way
are no more than two. -/
def Credit (u : Spi) : Option HandlerPlace → Prop
  | some (.overrunReadDR sr) => sr.txe = true → u.dr = none
  | some (.overrunReadSR sr) => sr.txe = true → u.dr = none
  | some (.receive sr) => sr.txe = true → u.dr = none
  | some (.rxCondition sr rcvd) => sr.txe = true → u.dr = none ∧ rcvd + onWay u ≤ 2
  | some (.rxReadDR sr rcvd) =>
    u.rxne = true ∧ (sr.txe = true → u.dr = none ∧ rcvd + onWay u ≤ 2)
  | some (.sendFromISR sr rcvd _) => sr.txe = true → u.dr = none ∧ rcvd + 1 + onWay u ≤ 2
  | some (.receiveFromISR rcvd) => Room u rcvd
  | some (.transmit rcvd _) => Room u (rcvd + 1)
  | _ => True

/-- At most one word waits for the handler, and one is being shifted. -/
theorem onWay_le (u : Spi) : onWay u ≤ 2 := by
  unfold onWay
  cases u.rxne <;> cases u.shift.isSome <;> decide

/-- A word that arrives has been on its way. -/
theorem onWay_shiftWord {c : UInt8} (hshift : u.shift = some c) (hdr : u.dr = none) (w : UInt8) :
    onWay (u.shiftWord w) ≤ onWay u := by
  simp only [onWay, shiftWord_rxne, shiftWord_shift, hdr, hshift]
  cases u.rxne <;> simp

/-- A read of `SR` leaves the words received and on their way. -/
@[simp] theorem readSR_onWay (u : Spi) : onWay u.readSR = onWay u := by
  simp [onWay]

/-- The word that is read is no longer on its way. -/
theorem onWay_readDR (u : Spi) : u.rxne.toNat + onWay u.readDR = onWay u := by
  simp [onWay]

/-- After a read of `DR` no word waits for the handler. -/
theorem onWay_readDR_le (u : Spi) : onWay u.readDR ≤ 1 := by
  simp only [onWay, readDR_rxne, readDR_shift]
  cases u.shift <;> simp

/-- A store takes the place that there is room for. -/
theorem Room.store {k : ℕ} (h : Room u (k + 1)) (c : UInt8) :
    u.dr = none ∧ Room (u.store c) k := by
  obtain ⟨hdr, hk⟩ := h.resolve_left (Nat.succ_ne_zero k)
  refine ⟨hdr, ?_⟩
  unfold Room Spi.store
  cases hshift : u.shift with
  | none =>
    rw [hshift] at hk
    exact .inr ⟨hdr, hk⟩
  | some x =>
    rw [hshift] at hk
    simp only [Option.isSome_some, Bool.toNat_true] at hk
    exact .inl (by omega)

/-- A word that is shifted out leaves no less room. -/
theorem Room.shiftWord {k : ℕ} (h : Room u k) (w : UInt8) : Room (u.shiftWord w) k := by
  refine h.imp_right fun ⟨hdr, hk⟩ => ⟨shiftWord_dr u w, ?_⟩
  rw [shiftWord_shift, hdr]
  exact Nat.le_trans (Nat.le_add_right k _) hk

/-- The words received have left room for as many bytes. -/
theorem room_of_onWay {rcvd : ℕ} (hdr : u.dr = none) (h : rcvd + onWay u ≤ 2) : Room u rcvd := by
  refine .inr ⟨hdr, ?_⟩
  unfold onWay at h
  omega

/-- A word that is shifted out leaves no less to the handler. -/
theorem Credit.shiftWord {handler : Option HandlerPlace} (h : Credit u handler) {c : UInt8}
    (hshift : u.shift = some c) (w : UInt8) : Credit (u.shiftWord w) handler := by
  have hsum : ∀ n, u.dr = none ∧ n + onWay u ≤ 2 →
      (u.shiftWord w).dr = none ∧ n + onWay (u.shiftWord w) ≤ 2 := fun n ⟨hdr, hn⟩ =>
    ⟨shiftWord_dr u w, Nat.le_trans (Nat.add_le_add_left (onWay_shiftWord hshift hdr w) n) hn⟩
  cases handler with
  | none => trivial
  | some place =>
    cases place with
    | readStatus => trivial
    | overrunReadDR | overrunReadSR | receive => exact fun _ => shiftWord_dr u w
    | rxCondition sr rcvd => exact fun htxe => hsum _ (h htxe)
    | rxReadDR sr rcvd => exact ⟨shiftWord_rxne u w, fun htxe => hsum _ (h.2 htxe)⟩
    | sendFromISR sr rcvd x => exact fun htxe => hsum _ (h htxe)
    | receiveFromISR rcvd => exact Room.shiftWord h w
    | transmit rcvd x => exact Room.shiftWord h w

/-- Behind the reception the handler stores as many bytes as it has received words. -/
theorem credit_afterReception {sr : StatusReg} {rcvd : ℕ} (h : sr.txe = true → Room u rcvd) :
    Credit u (HandlerPlace.afterReception sr rcvd) := by
  unfold HandlerPlace.afterReception
  split_ifs with htxe
  · exact h htxe
  · trivial

/-- What the handler may store behind the test for an overrun. -/
theorem credit_afterOverrun {sr : StatusReg} (h : sr.txe = true → u.dr = none) :
    Credit u (HandlerPlace.afterOverrun sr) := by
  unfold HandlerPlace.afterOverrun
  split_ifs
  · exact h
  · trivial

/-! ## What holds between two steps -/

/-- The task has disabled the interrupt. -/
def Masked : Place → Prop
  | .fill _ _ _ .disableIT => False
  | .fill _ _ _ _ => True
  | _ => False

/-- The task has found `DR` empty and is to store a byte. -/
def Tested : Place → Prop
  | .fill _ _ _ .receive => True
  | .fill _ _ _ (.peripheralWrite _) => True
  | _ => False

/-- The task tests `TXE` while the interrupt is disabled. -/
theorem Tested.masked {p : Place} (h : Tested p) : Masked p := by
  cases p with
  | fill caller b i statement =>
    cases statement with
    | disableIT => exact h
    | testTxe | receive | peripheralWrite | enableIT => trivial
  | _ => exact False.elim h

/-- What holds between two steps: a word does not wait behind a free shift register, the
handler is not active while the task has disabled the interrupt, the task stores where it has
found `DR` empty, and the handler has the credit for what it stores. -/
structure Safe (s : SspCharQueue txCapacity rxCapacity) : Prop where
  busy : s.spi.shift = none → s.spi.dr = none
  masked : Masked s.place → s.spi.rxneie = false ∧ s.handler = none
  tested : Tested s.place → s.spi.dr = none
  credit : Credit s.spi s.handler

/-- The invariant before the first call. -/
theorem safe_configured (received : UInt8) (rxne drRead : Bool) :
    Safe (configured received rxne drRead : SspCharQueue txCapacity rxCapacity) :=
  ⟨fun _ => rfl, False.elim, False.elim, trivial⟩

/-- After a step of the task. -/
theorem safe_of_task (hnone : s'.handler = none) (hbusy : s'.spi.shift = none → s'.spi.dr = none)
    (hmasked : Masked s'.place → s'.spi.rxneie = false)
    (htested : Tested s'.place → s'.spi.dr = none) : Safe s' := by
  refine ⟨hbusy, fun h => ⟨hmasked h, hnone⟩, htested, ?_⟩
  rw [hnone]
  trivial

/-- After a step of the handler: the task is not in its masked section. -/
theorem Safe.serve (hs : Safe s) {h : HandlerPlace} (hhandler : s.handler = some h)
    (hplace : s'.place = s.place) (hbusy : s'.spi.shift = none → s'.spi.dr = none)
    (hcredit : Credit s'.spi s'.handler) : Safe s' := by
  have hunmasked : ¬ Masked s'.place := by
    intro hmasked
    rw [hplace] at hmasked
    rw [(hs.masked hmasked).2] at hhandler
    exact Option.some_ne_none h hhandler.symm
  exact ⟨hbusy, fun h => absurd h hunmasked, fun h => absurd h.masked hunmasked, hcredit⟩

/-- What the handler may store, by where it is. -/
theorem Safe.credit_of (hs : Safe s) {h : HandlerPlace} (hhandler : s.handler = some h) :
    Credit s.spi (some h) := hhandler ▸ hs.credit

/-- After a byte has been stored something is shifted out. -/
theorem busy_store (u : Spi) (c : UInt8) :
    (u.store c).shift = none → (u.store c).dr = none :=
  fun h => absurd h (store_shift_ne_none u c)

/-- Every step keeps the invariant. -/
theorem Safe.step (hs : Safe s) (h : Happens s a s' o) : Safe s' := by
  cases h with
  | write hplace hnone => exact safe_of_task hnone hs.busy False.elim False.elim
  | read hplace hnone => exact safe_of_task hnone hs.busy False.elim False.elim
  | accept hplace hnone hc hfull => exact safe_of_task hnone hs.busy False.elim False.elim
  | sendDone hplace hnone hdone => exact safe_of_task hnone hs.busy False.elim False.elim
  | disableIT hplace hnone => exact safe_of_task hnone hs.busy (fun _ => rfl) False.elim
  | txeSet hplace hnone hdr =>
    have hmasked := hs.masked (by rw [hplace]; trivial)
    exact safe_of_task hnone (by simpa using hs.busy) (by simp [hmasked.1]) (by simp [hdr])
  | txeClear hplace hnone hdr =>
    have hmasked := hs.masked (by rw [hplace]; trivial)
    exact safe_of_task hnone (by simpa using hs.busy) (by simp [hmasked.1]) False.elim
  | fillNone hplace hnone hempty =>
    have hmasked := hs.masked (by rw [hplace]; trivial)
    exact safe_of_task hnone hs.busy (fun _ => hmasked.1) False.elim
  | fillTake hplace hnone hreceive =>
    have hmasked := hs.masked (by rw [hplace]; trivial)
    exact safe_of_task hnone hs.busy (fun _ => hmasked.1)
      (fun _ => hs.tested (by rw [hplace]; trivial))
  | peripheralWrite hplace hnone =>
    have hmasked := hs.masked (by rw [hplace]; trivial)
    exact safe_of_task hnone (busy_store s.spi _) (by simp [hmasked.1]) False.elim
  | wrote hplace hnone => exact safe_of_task hnone hs.busy False.elim False.elim
  | wroteNull hplace hnone => exact safe_of_task hnone hs.busy False.elim False.elim
  | waitMore hplace hnone => exact hs
  | waited hplace hnone => exact safe_of_task hnone hs.busy False.elim False.elim
  | clear hplace hnone => exact safe_of_task hnone hs.busy False.elim False.elim
  | activate hplace hnone => exact safe_of_task hnone hs.busy False.elim False.elim
  | enableIT hplace hnone => exact safe_of_task hnone hs.busy False.elim False.elim
  | take hplace hnone hlt hreceive => exact safe_of_task hnone hs.busy False.elim False.elim
  | takeTimeOut hplace hnone hlt hempty => exact safe_of_task hnone hs.busy False.elim False.elim
  | received hplace hnone hge => exact safe_of_task hnone hs.busy False.elim False.elim
  | inTime hplace hnone => exact safe_of_task hnone hs.busy False.elim False.elim
  | timeOut hplace hnone => exact safe_of_task hnone hs.busy False.elim False.elim
  | deactivate hplace hnone => exact safe_of_task hnone hs.busy False.elim False.elim
  | @shifted c w hshift =>
    refine ⟨fun _ => shiftWord_dr s.spi w, fun h => ?_, fun _ => shiftWord_dr s.spi w,
      hs.credit.shiftWord hshift w⟩
    rw [shiftWord_rxneie]
    exact hs.masked h
  | enterHandler hrxne hrxneie hnone =>
    have hunmasked : ¬ Masked s.place := fun h => by simp [(hs.masked h).1] at hrxneie
    exact ⟨hs.busy, fun h => absurd h hunmasked, hs.tested, trivial⟩
  | overrun hhandler hovr =>
    refine hs.serve hhandler rfl (by simpa using hs.busy) fun htxe => ?_
    rw [readSR_dr]
    exact Option.isNone_iff_eq_none.mp htxe
  | readStatus hhandler hovr =>
    refine hs.serve hhandler rfl (by simpa using hs.busy) (credit_afterOverrun fun htxe => ?_)
    rw [readSR_dr]
    exact Option.isNone_iff_eq_none.mp htxe
  | overrunReadDR hhandler =>
    have hcredit := hs.credit_of hhandler
    exact hs.serve hhandler rfl hs.busy hcredit
  | overrunReadSR hhandler =>
    have hcredit := hs.credit_of hhandler
    refine hs.serve hhandler rfl (by simpa using hs.busy) (credit_afterOverrun fun htxe => ?_)
    rw [readSR_dr]
    exact hcredit htxe
  | keep hhandler hactive =>
    have hcredit := hs.credit_of hhandler
    refine hs.serve hhandler rfl hs.busy fun htxe => ⟨hcredit htxe, ?_⟩
    rw [Nat.zero_add]
    exact onWay_le s.spi
  | junk hhandler hactive =>
    have hcredit := hs.credit_of hhandler
    refine hs.serve hhandler rfl hs.busy (credit_afterReception fun htxe => ?_)
    exact room_of_onWay (hcredit htxe) (Nat.add_le_add_left (onWay_readDR_le s.spi) 1)
  | rxMore hhandler hrxne =>
    have hcredit := hs.credit_of hhandler
    refine hs.serve hhandler rfl (by simpa using hs.busy) ⟨by simpa using hrxne, fun htxe => ?_⟩
    rw [readSR_dr, readSR_onWay]
    exact hcredit htxe
  | rxDone hhandler hrxne =>
    have hcredit := hs.credit_of hhandler
    refine hs.serve hhandler rfl (by simpa using hs.busy) (credit_afterReception fun htxe => ?_)
    obtain ⟨hdr, hsum⟩ := hcredit htxe
    exact room_of_onWay (by simpa using hdr) (by rwa [readSR_onWay])
  | rxReadDR hhandler =>
    have hcredit := hs.credit_of hhandler
    obtain ⟨hrxne, hcredit⟩ := hcredit
    refine hs.serve hhandler rfl hs.busy fun htxe => ⟨(hcredit htxe).1, ?_⟩
    have hsum := (hcredit htxe).2
    rw [← onWay_readDR, hrxne, Bool.toNat_true, ← Nat.add_assoc] at hsum
    exact hsum
  | drop hhandler hfull =>
    have hcredit := hs.credit_of hhandler
    exact hs.serve hhandler rfl hs.busy fun htxe =>
      ⟨(hcredit htxe).1,
        Nat.le_trans (Nat.add_le_add_right (Nat.le_succ _) _) (hcredit htxe).2⟩
  | queue hhandler hfull =>
    have hcredit := hs.credit_of hhandler
    exact hs.serve hhandler rfl hs.busy hcredit
  | txDone hhandler hdone => exact hs.serve hhandler rfl hs.busy trivial
  | txTake hhandler hreceive =>
    have hcredit := hs.credit_of hhandler
    exact hs.serve hhandler rfl hs.busy hcredit
  | transmit hhandler =>
    have hcredit := hs.credit_of hhandler
    exact hs.serve hhandler rfl (busy_store s.spi _) (hcredit.store _).2

/-! ## The order of the bytes -/

/-- The byte that the task has taken from the queue and not yet stored. -/
def taskHand : Place → List UInt8
  | .fill _ _ _ (.peripheralWrite c) => [c]
  | _ => []

/-- The byte that the handler has taken from the queue and not yet stored. -/
def handlerHand : Option HandlerPlace → List UInt8
  | some (.transmit _ c) => [c]
  | _ => []

/-- The bytes that have yet to be shifted out. -/
def pending (s : SspCharQueue txCapacity rxCapacity) : List UInt8 :=
  words s.spi ++ (taskHand s.place ++ handlerHand s.handler) ++ s.tx.items

/-- The bytes shifted out. -/
def busBytes (w : List Output) : List UInt8 :=
  w.filterMap fun
    | .bus c => some c
    | _ => none

/-- The bytes to send: those accepted, without the last ones where a clear has found them in
the queue. -/
def toSend (l : List UInt8) : Output → List UInt8
  | .accepted c => l ++ [c]
  | .cleared items => l.take (l.length - items.length)
  | _ => l

/-- What was shifted out and what has yet to be is what there was to send. -/
def InOrder (w : List Output) (s : SspCharQueue txCapacity rxCapacity) : Prop :=
  busBytes w ++ pending s = w.foldl toSend []

/-- The bytes on the bus in one part of a run and the next. -/
theorem busBytes_append (w w' : List Output) :
    busBytes (w ++ w') = busBytes w ++ busBytes w' := List.filterMap_append

/-- The handler has no byte behind the test for an overrun. -/
@[simp] theorem handlerHand_afterOverrun (sr : StatusReg) :
    handlerHand (HandlerPlace.afterOverrun sr) = [] := by
  unfold HandlerPlace.afterOverrun
  split_ifs <;> rfl

/-- The handler has no byte behind the reception. -/
@[simp] theorem handlerHand_afterReception (sr : StatusReg) (rcvd : ℕ) :
    handlerHand (HandlerPlace.afterReception sr rcvd) = [] := by
  unfold HandlerPlace.afterReception
  split_ifs <;> rfl

/-- A read of `SR` leaves the words to be sent. -/
@[simp] theorem words_readSR (u : Spi) : words u.readSR = words u := by
  simp [words]

/-- A read of `DR` leaves the words to be sent. -/
@[simp] theorem words_readDR (u : Spi) : words u.readDR = words u := rfl

/-- A clear takes away what was accepted last. -/
theorem toSend_cleared (l items : List UInt8) : toSend (l ++ items) (.cleared items) = l := by
  simp [toSend]

/-- While the handler is active the task holds no byte. -/
theorem Safe.taskHand_eq_nil (hs : Safe s) {h : HandlerPlace} (hhandler : s.handler = some h) :
    taskHand s.place = [] := by
  have hmasked := hs.masked
  rw [hhandler] at hmasked
  cases hplace : s.place with
  | fill caller b i statement =>
    cases statement with
    | peripheralWrite c =>
      rw [hplace] at hmasked
      exact absurd (hmasked trivial).2 (Option.some_ne_none h)
    | disableIT | testTxe | receive | enableIT => rfl
  | _ => rfl

/-- What a step takes from the bytes that have yet to be shifted out is what it shifts out, and
what it adds to them is what it adds to the bytes to send; `l` are the bytes shifted out before. -/
theorem Happens.pending_eq (h : Happens s a s' o) (hs : Safe s) (l : List UInt8) :
    l ++ (busBytes o ++ pending s') = o.foldl toSend (l ++ pending s) := by
  cases h with
  | accept hplace hnone hc hfull =>
    simp [busBytes, pending, hplace, taskHand, toSend, BoundedQueue.items_send_of_not_full hfull]
  | fillTake hplace hnone hreceive =>
    simp [busBytes, pending, hplace, hnone, taskHand, handlerHand,
      BoundedQueue.items_of_receive hreceive]
  | peripheralWrite hplace hnone =>
    have hdr := hs.tested (by rw [hplace]; trivial)
    simp [busBytes, pending, hplace, hnone, taskHand, handlerHand, words_store hdr, toSend]
  | clear hplace hnone =>
    have hpending : pending s = words s.spi ++ s.tx.items := by
      simp [pending, hplace, hnone, taskHand, handlerHand]
    rw [hpending, ← List.append_assoc, ← List.append_assoc, List.foldl_cons, toSend_cleared]
    simp [busBytes, pending, hnone, taskHand, handlerHand, BoundedQueue.empty]
  | @shifted c w hshift => simp [busBytes, pending, toSend, words_shiftWord hshift w]
  | txTake hhandler hreceive =>
    simp [busBytes, pending, hhandler, handlerHand, BoundedQueue.items_of_receive hreceive]
  | @transmit _ c hhandler =>
    have hdr := ((hs.credit_of hhandler).store c).1
    simp [busBytes, pending, hhandler, handlerHand, words_store hdr, toSend,
      hs.taskHand_eq_nil hhandler]
  | write hplace | read hplace | sendDone hplace | txeSet hplace | txeClear hplace
  | fillNone hplace | waitMore hplace | waited hplace | activate hplace | take hplace
  | takeTimeOut hplace | received hplace | inTime hplace | timeOut hplace | deactivate hplace =>
    simp [busBytes, pending, hplace, taskHand, toSend]
  | disableIT hplace | wrote hplace | wroteNull hplace | enableIT hplace =>
    simp [busBytes, pending, hplace, taskHand, words, toSend]
  | enterHandler _ _ hhandler | overrun hhandler | overrunReadDR hhandler | keep hhandler
  | rxMore hhandler | rxReadDR hhandler | drop hhandler | queue hhandler | txDone hhandler =>
    simp [busBytes, pending, hhandler, handlerHand, toSend]
  | readStatus hhandler | overrunReadSR hhandler | junk hhandler | rxDone hhandler =>
    have hhand : handlerHand s.handler = [] := by
      rw [hhandler]
      rfl
    simp [busBytes, pending, hhand]

/-- Every step keeps the order of the bytes. -/
theorem InOrder.step {w : List Output} (hw : InOrder w s) (hs : Safe s) (h : Happens s a s' o) :
    InOrder (w ++ o) s' := by
  unfold InOrder at hw ⊢
  rw [busBytes_append, List.append_assoc, h.pending_eq hs, hw, List.foldl_append]

/-- A byte is stored into an empty `DR`. -/
theorem Happens.dr_of_stored (h : Happens s a s' o) (hs : Safe s) {c : UInt8}
    (hc : .stored c ∈ o) : s.spi.dr = none := by
  cases h with
  | peripheralWrite hplace hnone => exact hs.tested (by rw [hplace]; trivial)
  | transmit hhandler => exact ((hs.credit_of hhandler).store c).1
  | _ => simp at hc

/-- **The bytes keep their order and none is lost.**  Whatever the order of the statements of the
task and of the handler and of the words on the bus, the bytes shifted out and those still on
their way are the bytes accepted, in order, without those that a clear has found in the queue;
and no byte is stored into a `DR` that holds another one.
SOURCE: FreeRTOS_stm32f4_ssp.c:242-264, 397-440, 647-798, IOUtils_CharQueueTxAndRx.h:121-166 -/
theorem sent_in_order {received : UInt8} {rxne drRead : Bool} {as : List Event}
    {os : List (List Output)}
    (hrun : (machine txCapacity rxCapacity).exec (configured received rxne drRead) as =
      some (s', os)) :
    busBytes os.flatten ++ pending s' = os.flatten.foldl toSend [] ∧
      (machine txCapacity rxCapacity).Always (fun s _ _ o => ∀ c, .stored c ∈ o → s.spi.dr = none)
        (configured received rxne drRead) as := by
  constructor
  · have hrun' := Machine.invariant_of_outputs (M := machine txCapacity rxCapacity) (w := [])
      (fun w s => Safe s ∧ InOrder w s) (fun _ _ => True)
      (fun w s a s' o hI _ hstep =>
        have h := happens_of_step hstep
        ⟨hI.1.step h, hI.2.step hI.1 h⟩)
      ⟨safe_configured received rxne drRead, rfl⟩ (Machine.along_of_forall fun _ _ => trivial) hrun
    exact hrun'.2
  · refine Machine.always_of_step Safe _ (fun s a s' o hs hstep => ?_)
      (safe_configured received rxne drRead) as
    have h := happens_of_step hstep
    exact ⟨hs.step h, fun c hc => h.dr_of_stored hs hc⟩

/-- Two bytes are written; the handler stores the second one when the first has gone out. -/
def twoBytes : List Event :=
  .write [1, 2] :: List.replicate 8 (.taskStep false) ++ [.shifted 0, .enterHandler] ++
    List.replicate 5 .handlerStep ++ [.shifted 0]

/-- Both bytes of a write are shifted out. -/
theorem sent_in_order_twoBytes :
    ∃ (s' : SspCharQueue 4 4) (os : List (List Output)),
      (machine 4 4).exec (configured 0 false false) twoBytes = some (s', os) ∧
        busBytes os.flatten = [1, 2] ∧
        busBytes os.flatten ++ pending s' = os.flatten.foldl toSend [] ∧
        (machine 4 4).Always (fun s _ _ o => ∀ c, .stored c ∈ o → s.spi.dr = none)
          (configured 0 false false) twoBytes := by
  have hrun : (machine 4 4).exec (configured 0 false false) twoBytes = some (_, _) := rfl
  exact ⟨_, _, hrun, rfl, sent_in_order hrun⟩

end SspCharQueue

end Resmod.Analysis
