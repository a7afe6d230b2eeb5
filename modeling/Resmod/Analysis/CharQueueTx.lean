import Resmod.Analysis.CharQueueSteps

/-!
# The order of the bytes written through the queue

What was stored into the data register, what was taken out of the queue and not yet stored,
and what is in the queue are to be the bytes that the queue has accepted, in order; a byte is
to be stored only while the register is empty; between two calls the bytes accepted are to be
those that the calls have reported as written, which is a whole buffer unless the time to wait
has expired; and when nothing is under way any more, which only finitely many steps can put
off, the call is to have returned and all of them are to have been stored.

All of this holds as long as the handler takes no byte while the task stands before its
store with an older one in its hand, nor the last one while the task, which has found the
register empty, is going to wait for it; the time to wait does not expire behind a byte that
has been queued, which is then not counted; and the frame of a byte that the handler has stored
does not end before the handler clears `TC`, which nothing would set again.
-/

set_option autoImplicit false

namespace Resmod.Analysis

open Resmod.Library Resmod.Model Resmod.Model.CharQueueTx

variable {capacity : ℕ}

/-- The bytes that were accepted, stored, and reported as written. -/
structure Written where
  accepted : List UInt8
  stored : List UInt8
  reported : List UInt8

/-- Nothing has been written. -/
def Written.none : Written := ⟨[], [], []⟩

/-- The history after some outputs. -/
def Written.after (h : Written) : List Output → Written
  | [] => h
  | .accepted c :: o => Written.after { h with accepted := h.accepted ++ [c] } o
  | .stored c :: o => Written.after { h with stored := h.stored ++ [c] } o
  | .returned b n :: o => Written.after { h with reported := h.reported ++ b.take n } o

/-- The driver together with the history of what was written. -/
def writing (capacity : ℕ) : Machine (CharQueueTx capacity × Written) Event Output :=
  (machine capacity).observe fun h _ _ _ o => h.after o

/-- What the task has taken and not stored. -/
def heldByTask : Place → List UInt8
  | .peripheralWrite _ _ c => [c]
  | _ => []

/-- What the handler has taken and not stored. -/
def heldByHandler : Option HandlerPlace → List UInt8
  | some (.transmit c) => [c]
  | _ => []

/-- What was taken and not stored: the handler stores first, since it preempts the task. -/
def inHand (s : CharQueueTx capacity) : List UInt8 :=
  heldByHandler s.handler ++ heldByTask s.place

/-- Nothing happens any more until the next call, or until the time to wait expires. -/
def Quiescent (s : CharQueueTx capacity) : Prop :=
  s.taskStep false = none ∧ s.handler = none ∧ s.uart.shift = none ∧
    (s.uart.tc = true → s.uart.tcie = false)

instance (s : CharQueueTx capacity) : Decidable (Quiescent s) :=
  decidable_of_iff
    ((s.taskStep false).isNone = true ∧ s.handler = none ∧ s.uart.shift = none ∧
      (s.uart.tc = true → s.uart.tcie = false))
    (by rw [Option.isNone_iff_eq_none]; rfl)

/-- The bytes leave in order, and all of them leave.  `xQueueCreate` refuses a queue without
room for a byte, in which a call would wait for ever. -/
structure LeaveInOrder (p : CharQueueTx capacity × Written) (a : Event)
    (p' : CharQueueTx capacity × Written) (o : List Output) : Prop where
  order : p'.1.queue.Accounts p'.2.accepted (p'.2.stored ++ inHand p'.1)
  whenEmpty : ∀ c, .stored c ∈ o → p.1.uart.dr = none
  reported : p'.1.place = .outside → p'.2.reported = p'.2.accepted
  whole : ∀ b n, .returned b n ∈ o → n = b.length ∨ a = .taskStep true
  drained : Quiescent p'.1 → p'.2.stored = p'.2.accepted
  finished : 0 < capacity → Quiescent p'.1 → p'.1.place = .outside
  nearer : (∀ b, a ≠ .write b) → remaining p'.1 < remaining p.1

/-- The task will look for a byte in the queue, or holds one. -/
def AboutToTake : Place → Prop
  | .testTxe _ _ => True
  | .receive _ _ => True
  | .peripheralWrite _ _ _ => True
  | _ => False

/-- The task is going to take a byte out of the queue if the register is empty. -/
def LooksForByte : Place → Prop
  | .testTxe _ _ => True
  | .receive _ _ => True
  | _ => False

/-- The task has queued a byte that it has not counted yet. -/
def Uncounted : Place → Prop
  | .checkForTimeOut _ _ => True
  | _ => False

instance (place : Place) : Decidable (AboutToTake place) := by
  cases place <;> unfold AboutToTake <;> infer_instance

instance (place : Place) : Decidable (LooksForByte place) := by
  cases place <;> unfold LooksForByte <;> infer_instance

instance (place : Place) : Decidable (Uncounted place) := by
  cases place <;> unfold Uncounted <;> infer_instance

/-- The handler finds no byte while the task holds one and leaves it one while it looks for
it, the time to wait does not expire behind a byte that has been queued, and no frame ends
between the store of the handler and its `USART_ClearITPendingBit` while bytes are queued that
only `TC` makes it take. -/
def Undisturbed (s : CharQueueTx capacity) : Event → Prop
  | .handlerStep => s.handler = some .receiveFromISR →
      (heldByTask s.place = [] ∨ s.queue.items = []) ∧
        (LooksForByte s.place → s.queue.items.length ≠ 1)
  | .taskStep expired => Uncounted s.place → expired = false
  | .shiftOut => s.handler = some .clearITPendingBit →
      s.queue.items = [] ∨ AboutToTake s.place
  | _ => True

instance (s : CharQueueTx capacity) (a : Event) : Decidable (Undisturbed s a) := by
  cases a <;> unfold Undisturbed <;> infer_instance

/-! ## The invariant -/

/-- How much of its buffer the task has put into the queue. -/
def Progress (w : Written) : Place → Prop
  | .outside => w.accepted = w.reported
  | .enableIT _ => w.accepted = w.reported
  | .send b i => w.accepted = w.reported ++ b.take i
  | .testTxe b i => w.accepted = w.reported ++ b.take (i + 1)
  | .receive b i => w.accepted = w.reported ++ b.take (i + 1)
  | .peripheralWrite b i _ => w.accepted = w.reported ++ b.take (i + 1)
  | .checkForTimeOut b i => w.accepted = w.reported ++ b.take (i + 1)

/-- The task is within its buffer. -/
def Within : Place → Prop
  | .outside => True
  | .enableIT _ => True
  | .send b i => i ≤ b.length
  | .testTxe b i => i < b.length
  | .receive b i => i < b.length
  | .peripheralWrite b i _ => i < b.length
  | .checkForTimeOut b i => i < b.length

/-- The interrupt need not have been enabled yet. -/
def BeforeEnable : Place → Prop
  | .outside => True
  | .enableIT _ => True
  | _ => False

/-- The task has found the register empty. -/
def AfterTest : Place → Prop
  | .receive _ _ => True
  | .peripheralWrite _ _ _ => True
  | _ => False

/-- The handler has not yet stored a byte. -/
def Serving : Option HandlerPlace → Prop
  | some .receiveFromISR => True
  | some (.transmit _) => True
  | _ => False

/-- The transmitter holds no frame. -/
def Idle (u : Uart) : Prop := u.shift = none ∧ u.dr = none

/-- The next byte will be taken out of the queue: by the task, by the handler, or by the
handler that `TC` will lead to. -/
def TakeDue (s : CharQueueTx capacity) : Prop :=
  s.uart.shift ≠ none ∨ AboutToTake s.place ∨ Serving s.handler ∨
    s.handler = none ∧ s.uart.tc = true

/-- The bytes are in order, only one of the two takers holds one, the task finds the one that it
looks for, and the register is empty where it is stored into: `TC` is set, and the handler
before its store, only while nothing is transmitted. -/
structure WriteInv (s : CharQueueTx capacity) (w : Written) : Prop where
  order : s.queue.Accounts w.accepted (w.stored ++ inHand s)
  progress : Progress w s.place
  within : Within s.place
  alone : heldByHandler s.handler = [] ∨ heldByTask s.place = []
  busy : s.uart.shift = none → s.uart.dr = none
  tc : s.uart.tc = true → Idle s.uart
  serving : Serving s.handler → Idle s.uart
  tested : AfterTest s.place → s.uart.dr = none
  ahead : LooksForByte s.place → s.queue.items ≠ []
  enabled : s.uart.tcie = true ∨ s.queue.items = [] ∧ BeforeEnable s.place
  due : s.queue.items ≠ [] → TakeDue s

/-- The invariant before the first call. -/
theorem writeInv_idle (tc tcie : Bool) :
    WriteInv (idle tc tcie : CharQueueTx capacity) Written.none where
  order := BoundedQueue.accounts_empty
  progress := rfl
  within := trivial
  alone := .inl rfl
  busy := fun _ => rfl
  tc := fun _ => ⟨rfl, rfl⟩
  serving := nofun
  tested := nofun
  ahead := nofun
  enabled := .inr ⟨rfl, trivial⟩
  due := fun h => absurd rfl h

/-- Where nothing happens any more the task is not going to take a byte: it would find it. -/
theorem WriteInv.not_aboutToTake {s : CharQueueTx capacity} {w : Written} (h : WriteInv s w)
    (hq : Quiescent s) : ¬ AboutToTake s.place := by
  have htask := hq.1
  unfold CharQueueTx.taskStep at htask
  cases hp : s.place with
  | testTxe b i => simp [hp] at htask
  | peripheralWrite b i c => simp [hp] at htask
  | receive b i =>
    have hahead : s.queue.items ≠ [] := h.ahead (by rw [hp]; trivial)
    cases hreceive : s.queue.receive with
    | none => exact absurd (BoundedQueue.items_eq_nil_of_receive hreceive) hahead
    | some r => simp [hp, hreceive] at htask
  | outside | enableIT | send | checkForTimeOut => exact id

/-- Where nothing happens any more nothing is left in the queue. -/
theorem WriteInv.items_of_quiescent {s : CharQueueTx capacity} {w : Written} (h : WriteInv s w)
    (hq : Quiescent s) : s.queue.items = [] := by
  have htake := h.not_aboutToTake hq
  obtain ⟨htask, hhandler, hshift, htc⟩ := hq
  by_contra hne
  have hset : s.uart.tc = true := by
    have hdue := h.due hne
    rw [TakeDue, hhandler] at hdue
    simpa [hshift, htake, Serving] using hdue
  obtain henabled | ⟨hempty, -⟩ := h.enabled
  · exact absurd (htc hset) (by simp [henabled])
  · exact hne hempty

/-- The invariant says what is left at the end. -/
theorem WriteInv.drained {s : CharQueueTx capacity} {w : Written} (h : WriteInv s w)
    (hq : Quiescent s) : w.stored = w.accepted := by
  have hempty := h.items_of_quiescent hq
  have hheld : heldByTask s.place = [] := by
    have htake := h.not_aboutToTake hq
    cases hp : s.place with
    | peripheralWrite b i c => exact absurd (by rw [hp]; trivial) htake
    | _ => rfl
  simpa [BoundedQueue.Accounts, inHand, heldByHandler, hq.2.1, hheld, hempty] using h.order

/-- At the end the task has returned: there is room for the byte that it would send. -/
theorem WriteInv.finished {s : CharQueueTx capacity} {w : Written} (h : WriteInv s w)
    (hcapacity : 0 < capacity) (hq : Quiescent s) : s.place = .outside := by
  have htake := h.not_aboutToTake hq
  have hempty := h.items_of_quiescent hq
  have hroom : ¬ s.queue.Full := by
    rw [BoundedQueue.Full, hempty, List.length_nil]
    exact Nat.not_le.mpr hcapacity
  have htask := hq.1
  unfold CharQueueTx.taskStep at htask
  cases hp : s.place with
  | outside => rfl
  | enableIT b => simp [hp] at htask
  | send b i => cases hc : b[i]? <;> simp [hp, hc, hroom] at htask
  | checkForTimeOut b i => simp [hp] at htask
  | testTxe | receive | peripheralWrite => exact absurd (by rw [hp]; trivial) htake

/-- The invariant behind a step, and what the step itself does, give the property. -/
theorem WriteInv.leaveInOrder {p p' : CharQueueTx capacity × Written} {a : Event}
    {o : List Output} (h : WriteInv p'.1 p'.2)
    (hempty : ∀ c, .stored c ∈ o → p.1.uart.dr = none)
    (hwhole : ∀ b n, .returned b n ∈ o → n = b.length ∨ a = .taskStep true)
    (hnearer : (∀ b, a ≠ .write b) → remaining p'.1 < remaining p.1) :
    LeaveInOrder p a p' o where
  order := h.order
  whenEmpty := hempty
  reported hplace := by
    have hprogress := h.progress
    rw [hplace] at hprogress
    exact hprogress.symm
  whole := hwhole
  drained := h.drained
  finished := h.finished
  nearer := hnearer

/-! ## The steps of the task -/

variable {s : CharQueueTx capacity} {w w' : Written}

/-- A step that only moves the task. -/
theorem WriteInv.move (h : WriteInv s w) {place : Place}
    (haccepted : w'.accepted = w.accepted) (hstored : w'.stored = w.stored)
    (hheld : heldByTask place = heldByTask s.place) (hprogress : Progress w' place)
    (hwithin : Within place) (hahead : LooksForByte place → LooksForByte s.place)
    (htested : AfterTest place → s.uart.dr = none)
    (henabled : BeforeEnable s.place → BeforeEnable place)
    (hdue : s.queue.items ≠ [] → AboutToTake s.place →
      AboutToTake place ∨ s.uart.shift ≠ none) :
    WriteInv { s with place := place } w' where
  order := by
    rw [haccepted, hstored, inHand, hheld]
    exact h.order
  progress := hprogress
  within := hwithin
  alone := by
    rw [hheld]
    exact h.alone
  busy := h.busy
  tc := h.tc
  serving := h.serving
  tested := htested
  ahead hlooks := h.ahead (hahead hlooks)
  enabled := h.enabled.imp_right fun ⟨hempty, hbefore⟩ => ⟨hempty, henabled hbefore⟩
  due hne := by
    obtain hshift | htake | hrest := h.due hne
    · exact .inl hshift
    · exact (hdue hne htake).elim (fun ht => .inr (.inl ht)) .inl
    · exact .inr (.inr hrest)

/-- The task enables the interrupt. -/
theorem WriteInv.enableIT (h : WriteInv s w) {b : List UInt8} (hp : s.place = .enableIT b) :
    WriteInv { s with uart := { s.uart with tcie := true }, place := .send b 0 } w where
  order := by
    have horder := h.order
    rwa [inHand, hp] at horder
  progress := by
    have hprogress := h.progress
    rw [hp] at hprogress
    show w.accepted = w.reported ++ b.take 0
    rw [List.take_zero, List.append_nil]
    exact hprogress
  within := Nat.zero_le _
  alone := .inr rfl
  busy := h.busy
  tc := h.tc
  serving := h.serving
  tested := nofun
  ahead := nofun
  enabled := .inl rfl
  due hne := by
    have hdue := h.due hne
    unfold TakeDue at hdue
    rw [hp] at hdue
    exact hdue

/-- The task queues a byte of its buffer. -/
theorem WriteInv.accept (h : WriteInv s w) {b : List UInt8} {i : ℕ} {c : UInt8}
    (hp : s.place = .send b i) (hc : b[i]? = some c) (hfull : ¬ s.queue.Full) :
    WriteInv { s with queue := s.queue.send c, place := .testTxe b i }
      { w with accepted := w.accepted ++ [c] } where
  order := by
    have horder := h.order
    rw [inHand, hp] at horder
    exact (BoundedQueue.accounts_send_iff horder).mpr hfull
  progress := by
    have hprogress := h.progress
    rw [hp] at hprogress
    change w.accepted = w.reported ++ b.take i at hprogress
    show w.accepted ++ [c] = w.reported ++ b.take (i + 1)
    rw [hprogress, List.take_add_one, hc, List.append_assoc]
    rfl
  within := (List.getElem?_eq_some_iff.mp hc).1
  alone := .inr rfl
  busy := h.busy
  tc := h.tc
  serving := h.serving
  tested := nofun
  ahead _ := by simp [BoundedQueue.items_send_of_not_full hfull]
  enabled := by
    have henabled := h.enabled
    rw [hp] at henabled
    exact henabled.imp_right fun hbefore => hbefore.2.elim
  due _ := .inr (.inl trivial)

/-- The task takes a byte while the handler is not active. -/
theorem WriteInv.take (h : WriteInv s w) {b : List UInt8} {i : ℕ} {c : UInt8}
    {queue : BoundedQueue UInt8 capacity} (hp : s.place = .receive b i)
    (hhandler : s.handler = none) (hreceive : s.queue.receive = some (c, queue)) :
    WriteInv { s with queue := queue, place := .peripheralWrite b i c } w where
  order := by
    have horder := h.order.receive hreceive
    rw [inHand, hhandler, hp] at horder
    simpa [inHand, hhandler, heldByHandler, heldByTask] using horder
  progress := by
    have hprogress := h.progress
    rwa [hp] at hprogress
  within := by
    have hwithin := h.within
    rwa [hp] at hwithin
  alone := .inl (by simp [hhandler, heldByHandler])
  busy := h.busy
  tc := h.tc
  serving := h.serving
  tested _ := h.tested (by rw [hp]; trivial)
  ahead := nofun
  enabled := by
    have henabled := h.enabled
    rw [hp] at henabled
    exact henabled.imp_right fun hbefore => hbefore.2.elim
  due _ := .inr (.inl trivial)

/-! ## Storing a byte -/

/-- A byte that is stored into an idle UART is shifted out at once. -/
theorem store_of_idle {u : Uart} (h : Idle u) (c : UInt8) :
    u.store c = { u with shift := some c, tc := false } := by
  rw [Uart.store, h.1]

/-- After a store a frame is under way. -/
theorem store_busy (u : Uart) (c : UInt8) :
    (u.store c).shift ≠ none ∧ (u.store c).tc = false ∧ (u.store c).tcie = u.tcie := by
  unfold Uart.store
  cases hshift : u.shift with
  | none => simp
  | some _ => simp

/-- The task stores the byte that it has taken. -/
theorem WriteInv.peripheralWrite (h : WriteInv s w) {b : List UInt8} {i : ℕ} {c : UInt8}
    (hp : s.place = .peripheralWrite b i c) (hhandler : s.handler = none) :
    WriteInv { s with uart := s.uart.store c, place := .checkForTimeOut b i }
      { w with stored := w.stored ++ [c] } := by
  obtain ⟨hshift, htc, htcie⟩ := store_busy s.uart c
  exact {
    order := by
      have horder := h.order
      rw [inHand, hhandler, hp] at horder
      simpa [inHand, hhandler, heldByHandler, heldByTask] using horder
    progress := by
      have hprogress := h.progress
      rwa [hp] at hprogress
    within := by
      have hwithin := h.within
      rwa [hp] at hwithin
    alone := .inr rfl
    busy := fun hnone => absurd hnone hshift
    tc := fun hset => absurd hset (by simp [htc])
    serving := by simp [hhandler, Serving]
    tested := nofun
    ahead := nofun
    enabled := by
      have henabled := h.enabled
      rw [hp] at henabled
      exact .inl (htcie.trans (henabled.resolve_right fun hbefore => hbefore.2))
    due := fun _ => .inl hshift }

/-! ## The steps of the handler and of the transmitter -/

/-- The handler takes a byte while the task has none and does not wait for it. -/
theorem WriteInv.receiveFromISR (h : WriteInv s w) {c : UInt8}
    {queue : BoundedQueue UInt8 capacity} (hhandler : s.handler = some .receiveFromISR)
    (hheld : heldByTask s.place = []) (hlast : LooksForByte s.place → s.queue.items.length ≠ 1)
    (hreceive : s.queue.receive = some (c, queue)) :
    WriteInv { s with queue := queue, handler := some (.transmit c) } w where
  order := by
    have horder := h.order.receive hreceive
    rw [inHand, hhandler, hheld] at horder
    simpa [inHand, heldByHandler, hheld] using horder
  progress := h.progress
  within := h.within
  alone := .inr hheld
  busy := h.busy
  tc := h.tc
  serving _ := h.serving (by rw [hhandler]; trivial)
  tested := h.tested
  ahead hlooks hempty := by
    have hlength := hlast hlooks
    rw [length_of_receive hreceive, hempty] at hlength
    exact hlength rfl
  enabled := h.enabled.imp_right fun ⟨hempty, _⟩ => by
    rw [BoundedQueue.items_of_receive hreceive] at hempty
    exact absurd hempty (List.cons_ne_nil _ _)
  due _ := .inr (.inr (.inl trivial))

/-- The handler finds the queue empty. -/
theorem WriteInv.receivedNone (h : WriteInv s w) (hhandler : s.handler = some .receiveFromISR)
    (hempty : s.queue.items = []) :
    WriteInv { s with handler := some .clearITPendingBit } w where
  order := by
    have horder := h.order
    rwa [inHand, hhandler] at horder
  progress := h.progress
  within := h.within
  alone := .inl rfl
  busy := h.busy
  tc := h.tc
  serving := nofun
  tested := h.tested
  ahead := h.ahead
  enabled := h.enabled
  due hne := absurd hempty hne

/-- The handler stores the byte that it has taken. -/
theorem WriteInv.transmit (h : WriteInv s w) {c : UInt8}
    (hhandler : s.handler = some (.transmit c)) :
    WriteInv { s with uart := s.uart.store c, handler := some .clearITPendingBit }
      { w with stored := w.stored ++ [c] } := by
  have hidle : Idle s.uart := h.serving (by rw [hhandler]; trivial)
  have hheld : heldByTask s.place = [] :=
    h.alone.resolve_left (by simp [hhandler, heldByHandler])
  rw [store_of_idle hidle]
  exact {
    order := by
      have horder := h.order
      rw [inHand, hhandler] at horder
      simpa [inHand, heldByHandler, hheld] using horder
    progress := h.progress
    within := h.within
    alone := .inl rfl
    busy := nofun
    tc := nofun
    serving := nofun
    tested := h.tested
    ahead := h.ahead
    enabled := h.enabled
    due := fun _ => .inl (Option.some_ne_none c) }

/-- The handler clears `TC` and is left. -/
theorem WriteInv.clearITPendingBit (h : WriteInv s w)
    (hhandler : s.handler = some .clearITPendingBit) :
    WriteInv { s with uart := { s.uart with tc := false }, handler := none } w where
  order := by
    have horder := h.order
    rwa [inHand, hhandler] at horder
  progress := h.progress
  within := h.within
  alone := .inl rfl
  busy := h.busy
  tc := nofun
  serving := nofun
  tested := h.tested
  ahead := h.ahead
  enabled := h.enabled
  due hne := by
    have hdue := h.due hne
    rw [TakeDue, hhandler] at hdue
    simp only [Serving, reduceCtorEq, false_and, or_false] at hdue
    exact hdue.imp_right .inl

/-- A frame has ended, and the handler is entered. -/
theorem WriteInv.enterHandler (h : WriteInv s w) (htc : s.uart.tc = true)
    (hhandler : s.handler = none) :
    WriteInv { s with handler := some .receiveFromISR } w where
  order := by
    have horder := h.order
    rwa [inHand, hhandler] at horder
  progress := h.progress
  within := h.within
  alone := .inl rfl
  busy := h.busy
  tc := h.tc
  serving _ := h.tc htc
  tested := h.tested
  ahead := h.ahead
  enabled := h.enabled
  due _ := .inr (.inr (.inl trivial))

/-- The end of a frame: another one starts, or `TC` is set. -/
theorem WriteInv.shiftOut (h : WriteInv s w) {u : Uart} (hu : s.uart.shiftOut = some u)
    (hkept : s.handler = some .clearITPendingBit → s.queue.items = [] ∨ AboutToTake s.place) :
    WriteInv { s with uart := u } w := by
  obtain ⟨b, hshift, rfl⟩ := Option.map_eq_some_iff.mp hu
  have hnot : ¬ Idle s.uart := fun hidle => by simp [hidle.1] at hshift
  have htc : s.uart.tc = false := by
    by_contra hset
    exact hnot (h.tc (by simpa using hset))
  have hserving : ¬ Serving s.handler := fun hs => hnot (h.serving hs)
  exact {
    order := h.order
    progress := h.progress
    within := h.within
    alone := h.alone
    busy := fun _ => rfl
    tc := fun hset => by simpa [htc, Idle] using hset
    serving := fun hs => absurd hs hserving
    tested := fun _ => rfl
    ahead := h.ahead
    enabled := h.enabled
    due := fun hne => by
      unfold TakeDue
      cases hhandler : s.handler with
      | none => cases hdr : s.uart.dr <;> simp
      | some place =>
        cases place with
        | clearITPendingBit => exact .inr (.inl ((hkept hhandler).resolve_left hne))
        | _ => simp [hhandler, Serving] at hserving }

/-- The write returns: the bytes before `i` were accepted. -/
theorem WriteInv.returned (h : WriteInv s w) {b : List UInt8} {i : ℕ}
    (hp : s.place = .send b i) :
    WriteInv { s with place := .outside } { w with reported := w.reported ++ b.take i } := by
  have hprogress := h.progress
  rw [hp] at hprogress
  refine h.move rfl rfl ?_ hprogress trivial nofun nofun (fun _ => trivial) ?_
  · rw [hp]
    rfl
  · simp [hp, AboutToTake]

/-- The task finds `DR` empty and goes to take a byte, or a byte is on its way. -/
theorem WriteInv.testTxe (h : WriteInv s w) {b : List UInt8} {i : ℕ}
    (hp : s.place = .testTxe b i) :
    WriteInv { s with place := if s.uart.dr = none then .receive b i else .checkForTimeOut b i }
      w := by
  have hprogress := h.progress
  have hwithin := h.within
  rw [hp] at hprogress hwithin
  by_cases hdr : s.uart.dr = none
  · rw [if_pos hdr]
    refine h.move rfl rfl ?_ hprogress hwithin ?_ (fun _ => hdr) ?_ ?_
    · rw [hp]
      rfl
    · simp [hp, LooksForByte]
    · simp [hp, BeforeEnable]
    · exact fun _ _ => .inl trivial
  · rw [if_neg hdr]
    refine h.move rfl rfl ?_ hprogress hwithin nofun nofun ?_ ?_
    · rw [hp]
      rfl
    · simp [hp, BeforeEnable]
    · exact fun _ _ => .inr fun hshift => hdr (h.busy hshift)

/-- The queue is empty, and the task goes on without a byte. -/
theorem WriteInv.takeNone (h : WriteInv s w) {b : List UInt8} {i : ℕ}
    (hp : s.place = .receive b i) (hempty : s.queue.items = []) :
    WriteInv { s with place := .checkForTimeOut b i } w := by
  have hprogress := h.progress
  have hwithin := h.within
  rw [hp] at hprogress hwithin
  refine h.move rfl rfl ?_ hprogress hwithin nofun nofun ?_ ?_
  · rw [hp]
    rfl
  · simp [hp, BeforeEnable]
  · exact fun hne => absurd hempty hne

/-- There is time left for the next byte. -/
theorem WriteInv.nextByte (h : WriteInv s w) {b : List UInt8} {i : ℕ}
    (hp : s.place = .checkForTimeOut b i) :
    WriteInv { s with place := .send b (i + 1) } w := by
  have hprogress := h.progress
  have hwithin := h.within
  rw [hp] at hprogress hwithin
  refine h.move rfl rfl ?_ hprogress hwithin nofun nofun ?_ ?_
  · rw [hp]
    rfl
  · simp [hp, BeforeEnable]
  · simp [hp, AboutToTake]

/-! ## Every step and every run -/

/-- The statements of the task keep the invariant, as long as the time to wait does not
expire behind a byte that was queued. -/
theorem WriteInv.taskStep (h : WriteInv s w) (hhandler : s.handler = none) {expired : Bool}
    (hexpired : Uncounted s.place → expired = false)
    {s' : CharQueueTx capacity} {o : List Output} (hs : s.taskStep expired = some (s', o)) :
    WriteInv s' (w.after o) ∧ ∀ c, .stored c ∈ o → s.uart.dr = none := by
  unfold CharQueueTx.taskStep at hs
  cases hp : s.place with
  | outside => simp [hp] at hs
  | enableIT b =>
    rw [hp] at hs
    cases hs
    exact ⟨h.enableIT hp, by simp⟩
  | send b i =>
    rw [hp] at hs
    cases hc : b[i]? with
    | none =>
      simp only [hc] at hs
      cases hs
      exact ⟨h.returned hp, by simp⟩
    | some c =>
      simp only [hc] at hs
      by_cases hfull : s.queue.Full
      · simp only [hfull, if_true] at hs
        cases expired with
        | false => simp at hs
        | true =>
          cases hs
          exact ⟨h.returned hp, by simp⟩
      · rw [if_neg hfull] at hs
        cases hs
        exact ⟨h.accept hp hc hfull, by simp⟩
  | testTxe b i =>
    rw [hp] at hs
    cases hs
    exact ⟨h.testTxe hp, by simp⟩
  | receive b i =>
    rw [hp] at hs
    cases hreceive : s.queue.receive with
    | none =>
      simp only [hreceive] at hs
      cases expired with
      | false => simp at hs
      | true =>
        cases hs
        exact ⟨h.takeNone hp (BoundedQueue.items_eq_nil_of_receive hreceive), by simp⟩
    | some r =>
      simp only [hreceive] at hs
      cases hs
      exact ⟨h.take hp hhandler hreceive, by simp⟩
  | peripheralWrite b i c =>
    rw [hp] at hs
    cases hs
    exact ⟨h.peripheralWrite hp hhandler, fun _ _ => h.tested (by rw [hp]; trivial)⟩
  | checkForTimeOut b i =>
    rw [hp] at hs
    rw [hexpired (by rw [hp]; trivial)] at hs
    cases hs
    exact ⟨h.nextByte hp, by simp⟩

/-- The statements of the handler keep the invariant, as long as it finds no byte while the
task holds one. -/
theorem WriteInv.handlerStep (h : WriteInv s w)
    (hfinds : s.handler = some .receiveFromISR →
      (heldByTask s.place = [] ∨ s.queue.items = []) ∧
        (LooksForByte s.place → s.queue.items.length ≠ 1))
    {s' : CharQueueTx capacity} {o : List Output} (hs : s.handlerStep = some (s', o)) :
    WriteInv s' (w.after o) ∧ ∀ c, .stored c ∈ o → s.uart.dr = none := by
  unfold CharQueueTx.handlerStep at hs
  cases hhandler : s.handler with
  | none => simp [hhandler] at hs
  | some place =>
    rw [hhandler] at hs
    cases place with
    | receiveFromISR =>
      cases hreceive : s.queue.receive with
      | none =>
        simp only [hreceive] at hs
        cases hs
        have hempty := BoundedQueue.items_eq_nil_of_receive hreceive
        exact ⟨h.receivedNone hhandler hempty, by simp⟩
      | some r =>
        simp only [hreceive] at hs
        cases hs
        have hne : s.queue.items ≠ [] := by simp [BoundedQueue.items_of_receive hreceive]
        obtain ⟨hheld, hlast⟩ := hfinds hhandler
        exact ⟨h.receiveFromISR hhandler (hheld.resolve_right hne) hlast hreceive, by simp⟩
    | transmit c =>
      cases hs
      exact ⟨h.transmit hhandler, fun _ _ => (h.serving (by rw [hhandler]; trivial)).2⟩
    | clearITPendingBit =>
      cases hs
      exact ⟨h.clearITPendingBit hhandler, by simp⟩

/-- Every step that nothing disturbs keeps the invariant. -/
theorem WriteInv.step (h : WriteInv s w) {a : Event} (ha : Undisturbed s a)
    {s' : CharQueueTx capacity} {o : List Output}
    (hs : (machine capacity).step s a = some (s', o)) :
    WriteInv s' (w.after o) ∧ ∀ c, .stored c ∈ o → s.uart.dr = none := by
  unfold machine at hs
  cases a with
  | write b =>
    simp only [Option.ite_none_right_eq_some] at hs
    obtain ⟨⟨hp, -⟩, hs⟩ := hs
    cases hs
    have hprogress := h.progress
    rw [hp] at hprogress
    refine ⟨?_, by simp⟩
    refine h.move rfl rfl ?_ hprogress trivial nofun nofun (fun _ => trivial) ?_
    · rw [hp]
      rfl
    · simp [hp, AboutToTake]
  | taskStep expired =>
    simp only [Option.ite_none_right_eq_some] at hs
    exact h.taskStep hs.1 ha hs.2
  | shiftOut =>
    simp only [Option.map_eq_some_iff] at hs
    obtain ⟨u, hu, hs⟩ := hs
    cases hs
    exact ⟨h.shiftOut hu ha, by simp⟩
  | enterHandler =>
    simp only [Option.ite_none_right_eq_some] at hs
    obtain ⟨⟨htc, -, hhandler⟩, hs⟩ := hs
    cases hs
    exact ⟨h.enterHandler htc hhandler, by simp⟩
  | handlerStep => exact h.handlerStep ha hs

/-- A statement of the task returns behind its whole buffer, or as its time has expired. -/
theorem WriteInv.whole_of_taskStep (h : WriteInv s w) {expired : Bool}
    {s' : CharQueueTx capacity} {o : List Output} (hs : s.taskStep expired = some (s', o))
    {b : List UInt8} {n : ℕ} (ho : .returned b n ∈ o) : n = b.length ∨ expired = true := by
  unfold CharQueueTx.taskStep at hs
  cases expired with
  | true => exact .inr rfl
  | false =>
    refine .inl ?_
    cases hp : s.place with
    | send b' i =>
      have hwithin := h.within
      rw [hp] at hwithin hs
      cases hc : b'[i]? with
      | none =>
        simp only [hc] at hs
        cases hs
        obtain ⟨rfl, rfl⟩ : b = b' ∧ n = i := by simpa using ho
        exact Nat.le_antisymm hwithin (List.getElem?_eq_none_iff.mp hc)
      | some c =>
        by_cases hfull : s.queue.Full
        · simp [hc, hfull] at hs
        · simp only [hc, if_neg hfull] at hs
          cases hs
          simp at ho
    | receive b' i =>
      rw [hp] at hs
      cases hreceive : s.queue.receive with
      | none => simp [hreceive] at hs
      | some r =>
        simp only [hreceive] at hs
        cases hs
        simp at ho
    | outside => simp [hp] at hs
    | enableIT | testTxe | peripheralWrite | checkForTimeOut =>
      rw [hp] at hs
      cases hs
      simp at ho

/-- A call returns behind its whole buffer, or as its time has expired. -/
theorem WriteInv.whole (h : WriteInv s w) {a : Event} {s' : CharQueueTx capacity}
    {o : List Output} (hs : (machine capacity).step s a = some (s', o)) {b : List UInt8} {n : ℕ}
    (ho : .returned b n ∈ o) : n = b.length ∨ a = .taskStep true := by
  unfold machine at hs
  cases a with
  | write b =>
    simp only [Option.ite_none_right_eq_some] at hs
    cases hs.2
    simp at ho
  | taskStep expired =>
    simp only [Option.ite_none_right_eq_some] at hs
    exact (h.whole_of_taskStep hs.2 ho).imp_right (congrArg Event.taskStep)
  | shiftOut =>
    obtain ⟨u, -, hs⟩ := Option.map_eq_some_iff.mp hs
    cases hs
    simp at ho
  | enterHandler =>
    simp only [Option.ite_none_right_eq_some] at hs
    cases hs.2
    simp at ho
  | handlerStep =>
    simp only [CharQueueTx.handlerStep] at hs
    split at hs
    · cases hs
    · split at hs <;> cases hs <;> simp at ho
    · cases hs
      simp at ho
    · cases hs
      simp at ho

/-- In every run that nothing disturbs the bytes leave in order. -/
theorem leaveInOrder_of_undisturbed (capacity : ℕ) (tc tcie : Bool) (events : List Event)
    (h : (writing capacity).Along (fun p a => Undisturbed p.1 a) (idle tc tcie, Written.none)
      events) :
    (writing capacity).Always LeaveInOrder (idle tc tcie, Written.none) events := by
  apply Machine.always_of_invariant (fun p => WriteInv p.1 p.2) _ _ _
    (writeInv_idle tc tcie) h
  intro p a p' o hinv ha hs
  obtain ⟨hs, hw⟩ := Machine.observe_step_eq_some.mp hs
  obtain ⟨hinv', hempty⟩ := WriteInv.step hinv ha hs
  rw [← hw] at hinv'
  exact ⟨hinv', hinv'.leaveInOrder hempty (fun _ _ => hinv.whole hs) (remaining_lt hs)⟩

/-- Two bytes are stored by the task and the last one by the handler. -/
theorem leaveInOrder_three :
    (writing 1).Always LeaveInOrder (idle true false, Written.none)
      [.write [1, 2, 3], .taskStep false, .taskStep false, .taskStep false, .taskStep false,
        .taskStep false, .taskStep false, .taskStep false, .taskStep false, .taskStep false,
        .taskStep false, .taskStep false, .taskStep false, .taskStep false, .taskStep false,
        .taskStep false, .shiftOut, .shiftOut, .enterHandler, .handlerStep, .handlerStep,
        .handlerStep, .shiftOut] :=
  leaveInOrder_of_undisturbed 1 true false _ (by decide)

/-- The task has taken the third byte when the frame of the second one ends: the handler takes
and stores the fourth byte before it.  The time to wait expires behind the only byte, which is
queued and stored and reported as not written.  The frame of the third byte ends before the
handler clears `TC`: the fourth one stays in the queue.  The handler takes the second byte,
the only one in the queue, before the task looks at the register: the task waits for another
one, and the third one is never sent. -/
theorem not_leaveInOrder_overtaken :
    (¬ (writing 2).Always LeaveInOrder (idle true false, Written.none)
        [.write [1, 2, 3, 4], .taskStep false, .taskStep false, .taskStep false,
          .taskStep false, .taskStep false, .taskStep false, .taskStep false, .taskStep false,
          .taskStep false, .taskStep false, .taskStep false, .taskStep false, .taskStep false,
          .taskStep false, .taskStep false, .shiftOut, .taskStep false, .taskStep false,
          .shiftOut, .enterHandler, .handlerStep, .handlerStep, .handlerStep,
          .taskStep false]) ∧
      (¬ (writing 1).Always LeaveInOrder (idle true false, Written.none)
        [.write [1], .taskStep false, .taskStep false, .taskStep false, .taskStep false,
          .taskStep false, .taskStep true]) ∧
      (¬ (writing 2).Always LeaveInOrder (idle true false, Written.none)
        [.write [1, 2, 3, 4], .taskStep false, .taskStep false, .taskStep false,
          .taskStep false, .taskStep false, .taskStep false, .taskStep false, .taskStep false,
          .taskStep false, .taskStep false, .taskStep false, .taskStep false, .taskStep false,
          .taskStep false, .taskStep false, .taskStep false, .taskStep false, .taskStep false,
          .shiftOut, .shiftOut, .enterHandler, .handlerStep, .handlerStep, .shiftOut,
          .handlerStep]) ∧
      ¬ (writing 2).Always LeaveInOrder (idle true false, Written.none)
        [.write [1, 2, 3], .taskStep false, .taskStep false, .taskStep false, .taskStep false,
          .taskStep false, .taskStep false, .taskStep false, .shiftOut, .enterHandler,
          .handlerStep, .handlerStep, .handlerStep, .taskStep false, .shiftOut, .enterHandler,
          .handlerStep, .handlerStep] := by
  refine ⟨?_, ?_, ?_, ?_⟩
  · intro h
    exact absurd (h.mono fun _ _ _ _ hq => hq.order) (by decide)
  · intro h
    exact absurd (h.mono fun _ _ _ _ hq => hq.reported) (by decide)
  · intro h
    exact absurd (h.mono fun _ _ _ _ hq => hq.drained) (by decide)
  · intro h
    exact absurd (h.mono fun _ _ _ _ hq => hq.finished) (by decide)

end Resmod.Analysis
