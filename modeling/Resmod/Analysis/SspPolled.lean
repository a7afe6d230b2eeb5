import Resmod.Model.SspPolled
import Mathlib.Data.List.Basic

/-!
# What polled transfers move

`wired` is the port with the words this is about: the bytes that the calls have asked for and
that are not on the bus yet, and the words that are shifted in while the call's own bytes are
shifted out.  The bytes reach the bus in order, whatever the times of the hardware are:
`bus_in_order`.

A write returns 0.  A read waits for `TXE`, which says that the next byte may be stored; the
word that belongs to the byte arrives later.  `transfers_exact` is about the runs in which it
happens to be there.
-/

set_option autoImplicit false

namespace Resmod.Analysis

open Resmod.Library Resmod.Model Resmod.Model.SspPolled

namespace Polled

/-- The words that have been stored and are not on the bus yet, in order. -/
def flight (u : Spi) : List UInt8 := u.shift.toList ++ u.dr.toList

/-- The words of a call. -/
structure Words where
  /-- The bytes asked for that are not on the bus yet. -/
  due : List UInt8
  /-- How many of the words in flight were stored before the call. -/
  early : ℕ
  /-- The words shifted in for the call's own bytes. -/
  own : List UInt8
  deriving DecidableEq

/-- The history after a step. -/
def Words.next (h : Words) (s : SspPolled) (e : Event) (_ : SspPolled) (_ : List Output) :
    Words :=
  match e with
  | .write buff => ⟨h.due ++ buff, (flight s.spi).length, []⟩
  | .read xBytes => ⟨h.due ++ List.replicate xBytes 0xFF, (flight s.spi).length, []⟩
  | .shifted w =>
    ⟨h.due.tail, h.early - 1, if h.early = 0 then h.own ++ [w] else h.own⟩
  | _ => h

/-- The driver together with the history of its words. -/
def wired : Machine (SspPolled × Words) Event Output := SspPolled.machine.observe Words.next

/-- A byte on the bus is the next one asked for, and when a call returns all of its bytes are
on the bus or on the way. -/
def OnBus (u : Spi) (h : Words) : Output → Prop
  | .bus b => h.due.head? = some b
  | .wrote _ _ => h.due = flight u
  | .readDone _ _ _ => h.due = flight u

/-- A call returns its number of bytes, a read with the words that were shifted in for its own
bytes. -/
def ReturnsOwn (h : Words) : Output → Prop
  | .bus _ => True
  | .wrote buff ret => ret = buff.length
  | .readDone xBytes buff ret => ret = xBytes ∧ buff.length = xBytes ∧ buff = h.own

instance (u : Spi) (h : Words) : ∀ x, Decidable (OnBus u h x)
  | .bus b => inferInstanceAs (Decidable (h.due.head? = some b))
  | .wrote _ _ => inferInstanceAs (Decidable (h.due = flight u))
  | .readDone _ _ _ => inferInstanceAs (Decidable (h.due = flight u))

instance (h : Words) : ∀ x, Decidable (ReturnsOwn h x)
  | .bus _ => .isTrue trivial
  | .wrote buff ret => inferInstanceAs (Decidable (ret = buff.length))
  | .readDone xBytes buff ret =>
    inferInstanceAs (Decidable (ret = xBytes ∧ buff.length = xBytes ∧ buff = h.own))

/-- The bytes on the bus in a step, and what has been sent when a call returns, are as `OnBus`
says. -/
def InOrder (p : SspPolled × Words) (_ : Event) (_ : SspPolled × Words) (o : List Output) :
    Prop := ∀ x ∈ o, OnBus p.1.spi p.2 x

/-- The calls move exactly their own bytes. -/
def Exact (p : SspPolled × Words) (_ : Event) (_ : SspPolled × Words) (o : List Output) :
    Prop := ∀ x ∈ o, OnBus p.1.spi p.2 x ∧ ReturnsOwn p.2 x

instance (p : SspPolled × Words) (e : Event) (p' : SspPolled × Words) (o : List Output) :
    Decidable (Exact p e p' o) :=
  inferInstanceAs (Decidable (∀ x ∈ o, OnBus p.1.spi p.2 x ∧ ReturnsOwn p.2 x))

/-- What has to be so when the task executes the statement: a write that returns had no bytes,
and nothing is in flight when a read clears the received word for its first byte, or takes a
word. -/
def StatementSettled (u : Spi) : Place → Prop
  | .writeClear buff => buff = []
  | .readClear xBytes => 0 < xBytes → flight u = []
  | .readReceive _ _ => flight u = []
  | _ => True

/-- A statement of the task finds what it has to find. -/
def Settled (p : SspPolled × Words) (e : Event) : Prop :=
  e = .taskStep → StatementSettled p.1.spi p.1.place

instance (u : Spi) : ∀ place, Decidable (StatementSettled u place)
  | .writeClear buff => inferInstanceAs (Decidable (buff = []))
  | .readClear xBytes => inferInstanceAs (Decidable (0 < xBytes → flight u = []))
  | .readReceive _ _ => inferInstanceAs (Decidable (flight u = []))
  | .outside => .isTrue trivial
  | .writeNext _ _ => .isTrue trivial
  | .writeWait _ _ => .isTrue trivial
  | .readNext _ _ => .isTrue trivial
  | .readWait _ _ => .isTrue trivial

instance (p : SspPolled × Words) (e : Event) : Decidable (Settled p e) :=
  inferInstanceAs (Decidable (e = .taskStep → StatementSettled p.1.spi p.1.place))

/-! ## The steps -/

variable {s s' : SspPolled} {o : List Output}

/-- What a call of the write does. -/
theorem of_write {buff : List UInt8}
    (h : SspPolled.machine.step s (.write buff) = some (s', o)) :
    s.place = .outside ∧ s' = { s with place := .writeNext buff 0 } ∧ o = [] := by
  obtain ⟨hplace, hnext⟩ := Option.ite_none_right_eq_some.mp h
  obtain ⟨rfl, rfl⟩ := Prod.mk.inj (Option.some.inj hnext)
  exact ⟨hplace, rfl, rfl⟩

/-- What a call of the read does. -/
theorem of_read {xBytes : ℕ} (h : SspPolled.machine.step s (.read xBytes) = some (s', o)) :
    s.place = .outside ∧ s' = { s with place := .readClear xBytes } ∧ o = [] := by
  obtain ⟨hplace, hnext⟩ := Option.ite_none_right_eq_some.mp h
  obtain ⟨rfl, rfl⟩ := Prod.mk.inj (Option.some.inj hnext)
  exact ⟨hplace, rfl, rfl⟩

/-- What the start of a word does. -/
theorem of_load (h : SspPolled.machine.step s .load = some (s', o)) :
    ∃ b, s.spi.dr = some b ∧ s.spi.shift = none ∧
      s' = { s with spi := { s.spi with dr := none, shift := some b } } ∧ o = [] := by
  unfold SspPolled.machine at h
  dsimp only at h
  cases hdr : s.spi.dr with
  | none =>
    rw [hdr] at h
    exact Option.noConfusion rfl (heq_of_eq h)
  | some b =>
    cases hshift : s.spi.shift with
    | none =>
      rw [hdr, hshift] at h
      cases h
      exact ⟨b, rfl, rfl, rfl, rfl⟩
    | some b' =>
      rw [hdr, hshift] at h
      exact Option.noConfusion rfl (heq_of_eq h)

/-- When `TXE` is set. -/
theorem of_setTXE (h : SspPolled.machine.step s .setTXE = some (s', o)) :
    s.spi.dr = none ∧ s' = { s with spi := { s.spi with txe := true } } ∧ o = [] := by
  obtain ⟨hdr, hnext⟩ := Option.ite_none_right_eq_some.mp h
  obtain ⟨rfl, rfl⟩ := Prod.mk.inj (Option.some.inj hnext)
  exact ⟨hdr, rfl, rfl⟩

/-- What the end of a word does. -/
theorem of_shifted {w : UInt8} (h : SspPolled.machine.step s (.shifted w) = some (s', o)) :
    ∃ b, s.spi.shift = some b ∧ s' = { s with spi := s.spi.shifted w } ∧ o = [.bus b] := by
  unfold SspPolled.machine at h
  dsimp only at h
  cases hshift : s.spi.shift with
  | none =>
    rw [hshift] at h
    exact Option.noConfusion rfl (heq_of_eq h)
  | some b =>
    rw [hshift] at h
    cases h
    exact ⟨b, rfl, rfl, rfl⟩

/-- What a statement of the task does. -/
inductive Statement (u : Spi) : Place → SspPolled → List Output → Prop
  | writeStore {buff : List UInt8} {i : ℕ} {b : UInt8} (h : buff[i]? = some b) :
      Statement u (.writeNext buff i) ⟨u.sendData b, .writeWait buff i⟩ []
  | writeEnd {buff : List UInt8} {i : ℕ} (h : buff.length ≤ i) :
      Statement u (.writeNext buff i) ⟨u, .writeClear buff⟩ []
  | writePoll {buff : List UInt8} {i : ℕ} (h : u.txe = true) :
      Statement u (.writeWait buff i) ⟨u, .writeNext buff (i + 1)⟩ []
  | writeReturn {buff : List UInt8} :
      Statement u (.writeClear buff) ⟨u.receiveData, .outside⟩ [.wrote buff 0]
  | readClear {xBytes : ℕ} :
      Statement u (.readClear xBytes) ⟨u.receiveData, .readNext xBytes []⟩ []
  | readStore {xBytes : ℕ} {buff : List UInt8} (h : buff.length < xBytes) :
      Statement u (.readNext xBytes buff) ⟨u.sendData 0xFF, .readWait xBytes buff⟩ []
  | readReturn {xBytes : ℕ} {buff : List UInt8} (h : xBytes ≤ buff.length) :
      Statement u (.readNext xBytes buff) ⟨u, .outside⟩ [.readDone xBytes buff xBytes]
  | readPoll {xBytes : ℕ} {buff : List UInt8} (h : u.txe = true) :
      Statement u (.readWait xBytes buff) ⟨u, .readReceive xBytes buff⟩ []
  | readReceive {xBytes : ℕ} {buff : List UInt8} :
      Statement u (.readReceive xBytes buff)
        ⟨u.receiveData, .readNext xBytes (buff ++ [u.received])⟩ []
  /-- `TXE` is not set, and the task looks again. -/
  | pollAgain {place : Place} : Statement u place ⟨u, place⟩ []

/-- A step of the task is one of its statements. -/
theorem statement_of_taskStep (h : s.taskStep = some (s', o)) :
    Statement s.spi s.place s' o := by
  unfold SspPolled.taskStep at h
  cases hplace : s.place with
  | outside =>
    rw [hplace] at h
    exact Option.noConfusion rfl (heq_of_eq h)
  | writeNext buff i =>
    rw [hplace] at h
    cases hb : buff[i]? with
    | some b =>
      simp only [hb] at h
      cases h
      exact .writeStore hb
    | none =>
      simp only [hb] at h
      cases h
      exact .writeEnd (List.getElem?_eq_none_iff.mp hb)
  | writeWait buff i =>
    rw [hplace] at h
    by_cases hset : s.spi.txe = true
    · simp only [if_pos hset] at h
      cases h
      exact .writePoll hset
    · simp only [if_neg hset] at h
      cases h
      rw [← hplace]
      exact .pollAgain
  | writeClear buff =>
    rw [hplace] at h
    cases h
    exact .writeReturn
  | readClear xBytes =>
    rw [hplace] at h
    cases h
    exact .readClear
  | readNext xBytes buff =>
    rw [hplace] at h
    by_cases hmore : buff.length < xBytes
    · simp only [if_pos hmore] at h
      cases h
      exact .readStore hmore
    · simp only [if_neg hmore] at h
      cases h
      exact .readReturn (Nat.le_of_not_lt hmore)
  | readWait xBytes buff =>
    rw [hplace] at h
    by_cases hset : s.spi.txe = true
    · simp only [if_pos hset] at h
      cases h
      exact .readPoll hset
    · simp only [if_neg hset] at h
      cases h
      rw [← hplace]
      exact .pollAgain
  | readReceive xBytes buff =>
    rw [hplace] at h
    cases h
    exact .readReceive

/-! ## The bytes on the bus -/

/-- The bytes that the call has yet to store. -/
def remaining : Place → List UInt8
  | .outside => []
  | .writeNext buff i => buff.drop i
  | .writeWait buff i => buff.drop (i + 1)
  | .writeClear _ => []
  | .readClear xBytes => List.replicate xBytes 0xFF
  | .readNext xBytes buff => List.replicate (xBytes - buff.length) 0xFF
  | .readWait xBytes buff => List.replicate (xBytes - buff.length - 1) 0xFF
  | .readReceive xBytes buff => List.replicate (xBytes - buff.length - 1) 0xFF

/-- The task looks at `TXE`. -/
def Place.waits : Place → Bool
  | .writeWait _ _ => true
  | .readWait _ _ => true
  | _ => false

/-- What is due is in flight, or will be stored; and a task that does not wait finds the data
register empty. -/
structure BusInv (p : SspPolled × Words) : Prop where
  due : p.2.due = flight p.1.spi ++ remaining p.1.place
  dr : p.1.spi.txe = true → p.1.spi.dr = none
  txe : Place.waits p.1.place = false → p.1.spi.txe = true

/-- A byte that is stored is the last on its way. -/
theorem flight_sendData {u : Spi} (h : u.dr = none) (b : UInt8) :
    flight (u.sendData b) = flight u ++ [b] := by
  unfold flight Spi.sendData
  rw [h, Option.toList_none, List.append_nil]
  rfl

/-- The byte in the shift register is the first on its way. -/
theorem flight_of_shift {u : Spi} {b : UInt8} (h : u.shift = some b) :
    flight u = b :: u.dr.toList := by
  unfold flight
  rw [h]
  rfl

/-- A byte that has been shifted out is no longer on its way. -/
theorem flight_shifted (u : Spi) (w : UInt8) : flight (u.shifted w) = u.dr.toList := by
  unfold flight Spi.shifted
  split
  · rfl
  · rfl

/-- Nothing comes out of a step, and what is due is the same. -/
theorem inOrder_nil (p p' : SspPolled × Words) (e : Event) : InOrder p e p' [] :=
  List.forall_mem_nil _

/-- What a step of the task stores, or returns, is what was due. -/
theorem BusInv.taskStep {h : Words} (hinv : BusInv (s, h))
    (hstep : s.taskStep = some (s', o)) :
    BusInv (s', h) ∧ InOrder (s, h) .taskStep (s', h) o := by
  have hstatement := statement_of_taskStep hstep
  obtain ⟨u, place⟩ := s
  obtain ⟨hdue, hdr, htxe⟩ := hinv
  dsimp only at hdue hdr htxe hstatement
  cases hstatement with
  | @writeStore buff i b hb =>
    refine ⟨⟨?_, fun htrue => Bool.noConfusion htrue, fun hwait => Bool.noConfusion hwait⟩,
      inOrder_nil _ _ _⟩
    obtain ⟨hi, hget⟩ := List.getElem?_eq_some_iff.mp hb
    show h.due = flight (u.sendData b) ++ buff.drop (i + 1)
    rw [hdue, flight_sendData (hdr (htxe rfl)), List.append_assoc, ← hget]
    exact congrArg (flight u ++ ·) (List.drop_eq_getElem_cons hi)
  | writeEnd hend =>
    refine ⟨⟨?_, hdr, fun _ => htxe rfl⟩, inOrder_nil _ _ _⟩
    rw [hdue]
    exact congrArg (flight u ++ ·) (List.drop_eq_nil_of_le hend)
  | writePoll hset => exact ⟨⟨hdue, hdr, fun _ => hset⟩, inOrder_nil _ _ _⟩
  | writeReturn =>
    refine ⟨⟨hdue, hdr, fun _ => htxe rfl⟩, ?_⟩
    exact List.forall_mem_singleton.mpr (hdue.trans (List.append_nil _))
  | readClear => exact ⟨⟨hdue, hdr, fun _ => htxe rfl⟩, inOrder_nil _ _ _⟩
  | @readStore xBytes buff hmore =>
    refine ⟨⟨?_, fun htrue => Bool.noConfusion htrue, fun hwait => Bool.noConfusion hwait⟩,
      inOrder_nil _ _ _⟩
    have hone : List.replicate (xBytes - buff.length) (0xFF : UInt8) =
        [0xFF] ++ List.replicate (xBytes - buff.length - 1) 0xFF := by
      rw [List.singleton_append, ← List.replicate_succ]
      congr 1
      omega
    rw [hdue, flight_sendData (hdr (htxe rfl)), List.append_assoc]
    exact congrArg (flight u ++ ·) hone
  | @readReturn xBytes buff hend =>
    have hnone : remaining (.readNext xBytes buff) = [] := by
      show List.replicate (xBytes - buff.length) 0xFF = []
      rw [Nat.sub_eq_zero_of_le hend, List.replicate_zero]
    rw [hnone] at hdue
    refine ⟨⟨hdue, hdr, fun _ => htxe rfl⟩, ?_⟩
    exact List.forall_mem_singleton.mpr (hdue.trans (List.append_nil _))
  | readPoll hset => exact ⟨⟨hdue, hdr, fun _ => hset⟩, inOrder_nil _ _ _⟩
  | @readReceive xBytes buff =>
    refine ⟨⟨?_, hdr, fun _ => htxe rfl⟩, inOrder_nil _ _ _⟩
    show h.due = flight u ++ List.replicate (xBytes - (buff ++ [u.received]).length) 0xFF
    rw [List.length_append, List.length_singleton, ← Nat.sub_sub]
    exact hdue
  | pollAgain => exact ⟨⟨hdue, hdr, htxe⟩, inOrder_nil _ _ _⟩

/-- A byte that goes over into the shift register stays on its way. -/
theorem flight_load {u : Spi} {b : UInt8} (hdr : u.dr = some b) (hshift : u.shift = none) :
    flight { u with dr := none, shift := some b } = flight u := by
  unfold flight
  rw [hdr, hshift]
  rfl

/-- The byte in the shift register is the next one due. -/
theorem BusInv.due_of_shift {h : Words} (hinv : BusInv (s, h)) {b : UInt8}
    (hshift : s.spi.shift = some b) :
    h.due = b :: (s.spi.dr.toList ++ remaining s.place) := by
  rw [hinv.due]
  exact congrArg (· ++ remaining s.place) (flight_of_shift hshift)

/-- A word ends, and the word shifted in for it is counted. -/
theorem BusInv.shifted {h : Words} (hinv : BusInv (s, h)) {b : UInt8}
    (hshift : s.spi.shift = some b) (w : UInt8) :
    BusInv ({ s with spi := s.spi.shifted w },
      ⟨h.due.tail, h.early - 1, if h.early = 0 then h.own ++ [w] else h.own⟩) := by
  have hkeep : (s.spi.shifted w).txe = s.spi.txe ∧ (s.spi.shifted w).dr = s.spi.dr := by
    unfold Spi.shifted
    split
    · exact ⟨rfl, rfl⟩
    · exact ⟨rfl, rfl⟩
  refine ⟨?_, ?_, ?_⟩
  · show h.due.tail = flight (s.spi.shifted w) ++ remaining s.place
    rw [hinv.due_of_shift hshift, flight_shifted]
    rfl
  · show (s.spi.shifted w).txe = true → (s.spi.shifted w).dr = none
    rw [hkeep.1, hkeep.2]
    exact hinv.dr
  · show Place.waits s.place = false → (s.spi.shifted w).txe = true
    rw [hkeep.1]
    exact hinv.txe

/-- **The step lemma for the bus.** -/
theorem BusInv.step {p p' : SspPolled × Words} {e : Event} (hinv : BusInv p)
    (hstep : wired.step p e = some (p', o)) : BusInv p' ∧ InOrder p e p' o := by
  obtain ⟨s, h⟩ := p
  obtain ⟨s', h'⟩ := p'
  obtain ⟨hs, hh⟩ := Machine.observe_step_eq_some.mp hstep
  dsimp only at hs hh
  subst hh
  cases e with
  | write buff =>
    obtain ⟨hplace, rfl, rfl⟩ := of_write hs
    obtain ⟨hdue, hdr, htxe⟩ := hinv
    dsimp only at hdue hdr htxe
    rw [hplace] at hdue htxe
    refine ⟨⟨?_, hdr, fun _ => htxe rfl⟩, inOrder_nil _ _ _⟩
    show h.due ++ buff = flight s.spi ++ buff.drop 0
    rw [hdue, List.drop_zero]
    exact congrArg (· ++ buff) (List.append_nil _)
  | read xBytes =>
    obtain ⟨hplace, rfl, rfl⟩ := of_read hs
    obtain ⟨hdue, hdr, htxe⟩ := hinv
    dsimp only at hdue hdr htxe
    rw [hplace] at hdue htxe
    refine ⟨⟨?_, hdr, fun _ => htxe rfl⟩, inOrder_nil _ _ _⟩
    show h.due ++ List.replicate xBytes 0xFF = flight s.spi ++ List.replicate xBytes 0xFF
    rw [hdue]
    exact congrArg (· ++ List.replicate xBytes 0xFF) (List.append_nil _)
  | taskStep => exact hinv.taskStep hs
  | load =>
    obtain ⟨b, hb, hshift, rfl, rfl⟩ := of_load hs
    refine ⟨⟨?_, fun _ => rfl, hinv.txe⟩, inOrder_nil _ _ _⟩
    show h.due = flight { s.spi with dr := none, shift := some b } ++ remaining s.place
    rw [flight_load hb hshift]
    exact hinv.due
  | setTXE =>
    obtain ⟨hempty, rfl, rfl⟩ := of_setTXE hs
    exact ⟨⟨hinv.due, fun _ => hempty, fun _ => rfl⟩, inOrder_nil _ _ _⟩
  | shifted w =>
    obtain ⟨b, hb, rfl, rfl⟩ := of_shifted hs
    refine ⟨hinv.shifted hb w, ?_⟩
    intro x hx
    obtain rfl := List.mem_singleton.mp hx
    show h.due.head? = some b
    rw [hinv.due_of_shift hb]
    rfl

/-- The invariant before the first call. -/
theorem busInv_opened (rxne : Bool) (received : UInt8) :
    BusInv (opened rxne received, ⟨[], 0, []⟩) :=
  ⟨rfl, fun _ => rfl, fun _ => rfl⟩

/-- **The bytes of the calls reach the bus in order, whatever the hardware's times are.** -/
theorem bus_in_order (rxne : Bool) (received : UInt8) (events : List Event) :
    wired.Always InOrder (opened rxne received, ⟨[], 0, []⟩) events := by
  apply Machine.always_of_step BusInv
  · intro p e p' o hp hstep
    exact hp.step hstep
  · exact busInv_opened rxne received

/-! ## The words of a read -/

/-- The word of the byte stored last is in flight, or is the one that can be read. -/
structure Awaits (u : Spi) (h : Words) (xBytes : ℕ) (buff : List UInt8) : Prop where
  lt : buff.length < xBytes
  early : h.early = 0
  word : (flight u).length = 1 ∧ h.own = buff ∧ u.rxne = false ∨
    flight u = [] ∧ h.own = buff ++ [u.received]

/-- What a read finds: before its first byte nothing of its own has arrived, between two bytes
it has taken all of its words, and otherwise it awaits one. -/
def ReadInv (p : SspPolled × Words) : Prop :=
  match p.1.place with
  | .readClear _ => p.2.own = [] ∧ p.2.early = (flight p.1.spi).length
  | .readNext xBytes buff =>
    p.2.own = buff ∧ buff.length ≤ xBytes ∧ p.2.early = (flight p.1.spi).length ∧
      (buff.length < xBytes → flight p.1.spi = [] ∧ p.1.spi.rxne = false)
  | .readWait xBytes buff => Awaits p.1.spi p.2 xBytes buff
  | .readReceive xBytes buff => Awaits p.1.spi p.2 xBytes buff
  | _ => True

/-- A step of the task takes the words that are there for it. -/
theorem ReadInv.taskStep {h : Words} (hbus : BusInv (s, h)) (hinv : ReadInv (s, h))
    (hsettled : Settled (s, h) .taskStep) (hstep : s.taskStep = some (s', o)) :
    ReadInv (s', h) ∧ ∀ x ∈ o, ReturnsOwn h x := by
  have hstatement := statement_of_taskStep hstep
  obtain ⟨u, place⟩ := s
  have htxe := hbus.txe
  have hdr := hbus.dr
  have hset := hsettled rfl
  dsimp only at htxe hdr hset hstatement
  cases hstatement with
  | writeStore => exact ⟨trivial, List.forall_mem_nil _⟩
  | writeEnd => exact ⟨trivial, List.forall_mem_nil _⟩
  | writePoll => exact ⟨trivial, List.forall_mem_nil _⟩
  | @writeReturn buff =>
    refine ⟨trivial, List.forall_mem_singleton.mpr ?_⟩
    have hempty : buff = [] := hset
    show 0 = buff.length
    rw [hempty, List.length_nil]
  | readClear =>
    refine ⟨⟨hinv.1, Nat.zero_le _, hinv.2, ?_⟩, List.forall_mem_nil _⟩
    intro hpos
    exact ⟨hset hpos, rfl⟩
  | readStore hmore =>
    obtain ⟨hown, hle, hearly, hquiet⟩ := hinv
    obtain ⟨hnone, hrxne⟩ := hquiet hmore
    rw [hnone] at hearly
    refine ⟨⟨hmore, hearly, Or.inl ⟨?_, hown, hrxne⟩⟩, List.forall_mem_nil _⟩
    show (flight (u.sendData 0xFF)).length = 1
    rw [flight_sendData (hdr (htxe rfl)), hnone]
    rfl
  | readReturn hend =>
    obtain ⟨hown, hle, -, -⟩ := hinv
    refine ⟨trivial, List.forall_mem_singleton.mpr ⟨rfl, ?_, hown.symm⟩⟩
    exact Nat.le_antisymm hle hend
  | readPoll => exact ⟨hinv, List.forall_mem_nil _⟩
  | @readReceive xBytes buff =>
    have hnone : flight u = [] := hset
    obtain ⟨hlt, hearly, ⟨hone, -⟩ | ⟨-, hown⟩⟩ := hinv
    · dsimp only at hone
      rw [hnone] at hone
      exact absurd hone (by decide)
    · refine ⟨⟨hown, ?_, ?_, fun _ => ⟨hnone, rfl⟩⟩, List.forall_mem_nil _⟩
      · rw [List.length_append, List.length_singleton]
        exact hlt
      · show h.early = (flight u).length
        rw [hearly, hnone, List.length_nil]
  | pollAgain => exact ⟨hinv, List.forall_mem_nil _⟩

/-- Only the words in flight, `RXNE` and the word received matter between the steps of the
task. -/
theorem ReadInv.congr {h : Words} {u : Spi} (hinv : ReadInv (s, h))
    (hflight : flight u = flight s.spi) (hrxne : u.rxne = s.spi.rxne)
    (hreceived : u.received = s.spi.received) :
    ReadInv ({ s with spi := u }, h) := by
  have hawaits : ∀ xBytes buff, Awaits s.spi h xBytes buff → Awaits u h xBytes buff := by
    rintro xBytes buff ⟨hlt, hearly, hword⟩
    refine ⟨hlt, hearly, ?_⟩
    rw [hflight, hrxne, hreceived]
    exact hword
  unfold ReadInv at hinv ⊢
  dsimp only at hinv ⊢
  cases hplace : s.place with
  | readWait xBytes buff =>
    rw [hplace] at hinv
    exact hawaits xBytes buff hinv
  | readReceive xBytes buff =>
    rw [hplace] at hinv
    exact hawaits xBytes buff hinv
  | readClear xBytes =>
    rw [hplace] at hinv
    simp only [hflight]
    exact hinv
  | readNext xBytes buff =>
    rw [hplace] at hinv
    simp only [hflight, hrxne]
    exact hinv
  | outside => trivial
  | writeNext buff i => trivial
  | writeWait buff i => trivial
  | writeClear buff => trivial

/-- The read still waits for its own word, or has it. -/
theorem Awaits.shifted {u : Spi} {h : Words} {xBytes : ℕ} {buff : List UInt8}
    (hawaits : Awaits u h xBytes buff) {b : UInt8} (hshift : u.shift = some b) (w : UInt8) :
    Awaits (u.shifted w)
      ⟨h.due.tail, h.early - 1, if h.early = 0 then h.own ++ [w] else h.own⟩ xBytes buff := by
  obtain ⟨hlt, hearly, ⟨hone, hown, hrxne⟩ | ⟨hnone, -⟩⟩ := hawaits
  · rw [flight_of_shift hshift, List.length_cons] at hone
    have hempty : u.dr.toList = [] := List.eq_nil_of_length_eq_zero (Nat.succ.inj hone)
    refine ⟨hlt, by rw [hearly], Or.inr ⟨?_, ?_⟩⟩
    · rw [flight_shifted, hempty]
    · have hreceived : (u.shifted w).received = w := by
        unfold Spi.shifted
        rw [hrxne, if_neg Bool.false_ne_true]
      rw [hreceived, if_pos hearly, hown]
  · rw [flight_of_shift hshift] at hnone
    exact absurd hnone (List.cons_ne_nil _ _)

/-- A word that arrives is an early one, or that of the byte the read waits for. -/
theorem ReadInv.shifted {h : Words} (hinv : ReadInv (s, h)) {b : UInt8}
    (hshift : s.spi.shift = some b) (w : UInt8) :
    ReadInv ({ s with spi := s.spi.shifted w },
      ⟨h.due.tail, h.early - 1, if h.early = 0 then h.own ++ [w] else h.own⟩) := by
  have hlength : (flight (s.spi.shifted w)).length + 1 = (flight s.spi).length := by
    rw [flight_shifted, flight_of_shift hshift, List.length_cons]
  unfold ReadInv at hinv ⊢
  dsimp only at hinv ⊢
  cases hplace : s.place with
  | outside => trivial
  | writeNext buff i => trivial
  | writeWait buff i => trivial
  | writeClear buff => trivial
  | readClear xBytes =>
    rw [hplace] at hinv
    obtain ⟨hown, hearly⟩ := hinv
    refine ⟨?_, by omega⟩
    rw [if_neg (by omega)]
    exact hown
  | readNext xBytes buff =>
    rw [hplace] at hinv
    obtain ⟨hown, hle, hearly, hquiet⟩ := hinv
    refine ⟨?_, hle, by omega, ?_⟩
    · rw [if_neg (by omega)]
      exact hown
    · intro hmore
      rw [(hquiet hmore).1, List.length_nil] at hlength
      omega
  | readWait xBytes buff =>
    rw [hplace] at hinv
    exact Awaits.shifted hinv hshift w
  | readReceive xBytes buff =>
    rw [hplace] at hinv
    exact Awaits.shifted hinv hshift w

/-- Every step keeps the invariant, and a read that returns has its own words. -/
theorem ReadInv.step {p p' : SspPolled × Words} {e : Event} (hbus : BusInv p)
    (hinv : ReadInv p) (hsettled : Settled p e) (hstep : wired.step p e = some (p', o)) :
    ReadInv p' ∧ ∀ x ∈ o, ReturnsOwn p.2 x := by
  obtain ⟨s, h⟩ := p
  obtain ⟨s', h'⟩ := p'
  obtain ⟨hs, hh⟩ := Machine.observe_step_eq_some.mp hstep
  dsimp only at hs hh
  subst hh
  cases e with
  | write buff =>
    obtain ⟨-, rfl, rfl⟩ := of_write hs
    exact ⟨trivial, List.forall_mem_nil _⟩
  | read xBytes =>
    obtain ⟨-, rfl, rfl⟩ := of_read hs
    exact ⟨⟨rfl, rfl⟩, List.forall_mem_nil _⟩
  | taskStep => exact hinv.taskStep hbus hsettled hs
  | load =>
    obtain ⟨b, hb, hshift, rfl, rfl⟩ := of_load hs
    exact ⟨hinv.congr (flight_load hb hshift) rfl rfl, List.forall_mem_nil _⟩
  | setTXE =>
    obtain ⟨-, rfl, rfl⟩ := of_setTXE hs
    exact ⟨hinv.congr rfl rfl rfl, List.forall_mem_nil _⟩
  | shifted w =>
    obtain ⟨b, hb, rfl, rfl⟩ := of_shifted hs
    refine ⟨hinv.shifted hb w, ?_⟩
    intro x hx
    obtain rfl := List.mem_singleton.mp hx
    trivial

end Polled

open Polled

/-- **Polled transfers move exactly their own bytes in every run that is settled.**
SOURCE: FreeRTOS_stm32f4_ssp.c:153-190, 302-321 -/
theorem transfers_exact (rxne : Bool) (received : UInt8) {events : List Event}
    (hsettled : wired.Along Settled (opened rxne received, ⟨[], 0, []⟩) events) :
    wired.Always Exact (opened rxne received, ⟨[], 0, []⟩) events := by
  apply Machine.always_of_invariant (fun p => BusInv p ∧ ReadInv p) Settled
  · rintro p e p' o ⟨hbus, hread⟩ hset hstep
    obtain ⟨hbus', horder⟩ := hbus.step hstep
    obtain ⟨hread', hown⟩ := hread.step hbus hset hstep
    exact ⟨⟨hbus', hread'⟩, fun x hx => ⟨horder x hx, hown x hx⟩⟩
  · exact ⟨busInv_opened rxne received, trivial⟩
  · exact hsettled

/-- A read of two bytes whose words arrive before it takes them. -/
theorem transfers_exact_read :
    wired.Always Exact (opened true 9, ⟨[], 0, []⟩)
      [.read 2, .taskStep, .taskStep, .load, .setTXE, .shifted 0x11, .taskStep, .taskStep,
        .taskStep, .load, .setTXE, .taskStep, .shifted 0x22, .taskStep, .taskStep] := by
  apply transfers_exact true 9
  decide

/-- A write of one byte returns 0, and a read that looks at `TXE` before the word of its byte
has arrived returns the word received before. -/
theorem not_transfers_exact :
    ¬ wired.Always Exact (opened false 9, ⟨[], 0, []⟩)
        [.write [5], .taskStep, .load, .setTXE, .taskStep, .taskStep, .shifted 7, .taskStep] ∧
      ¬ wired.Always Exact (opened false 9, ⟨[], 0, []⟩)
        [.read 1, .taskStep, .taskStep, .load, .setTXE, .taskStep, .taskStep, .shifted 7,
          .taskStep] := by
  decide

end Resmod.Analysis
