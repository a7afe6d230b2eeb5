import Resmod.Analysis.SspCharQueueProgress

/-!
# What a read of an SSP with character queues gets

A read puts as many bytes `0xFF` into the queue for the transmission as it is to read, and
waits for the words that are shifted in for them.  It does so at once, without waiting for
space in the queue: of a read of more bytes than that queue holds only as many bytes are
transmitted, and only as many words come back.

The reads considered are called while nothing is on its way and no word is left from before.
-/

set_option autoImplicit false

namespace Resmod.Analysis

open Resmod.Library Resmod.Model

namespace SspCharQueue

open Resmod.Model.SspCharQueue
open SspInterrupt (StatusReg)

variable {txCapacity rxCapacity : ℕ} {s s' : SspCharQueue txCapacity rxCapacity} {a : Event}
  {o w : List Output} {u : Spi}

/-! ## The words shifted in -/

/-- The words shifted in. -/
def arrivedWords (w : List Output) : List UInt8 :=
  w.filterMap fun
    | .arrived x => some x
    | _ => none

/-- The words taken from the queue by a read. -/
def takenWords (w : List Output) : List UInt8 :=
  w.filterMap fun
    | .received x => some x
    | _ => none

/-- The word that the handler has read and not yet put into the queue. -/
def handlerWord : Option HandlerPlace → List UInt8
  | some (.sendFromISR _ _ x) => [x]
  | _ => []

/-- The words shifted in and not yet taken by a read. -/
def kept (s : SspCharQueue txCapacity rxCapacity) : List UInt8 :=
  s.rx.items ++ (handlerWord s.handler ++ if s.spi.rxne then [s.spi.received] else [])

/-- A step that loses no word, while the words are kept. -/
def LosesNone (s : SspCharQueue txCapacity rxCapacity) : Event → Prop
  | .shifted _ => s.spi.rxne = false
  | .handlerStep => (∀ sr, s.handler ≠ some (.overrunReadDR sr)) ∧ Keeps s s.handler
  | _ => True

/-- The handler has no word behind the test for an overrun. -/
@[simp] theorem handlerWord_afterOverrun (sr : StatusReg) :
    handlerWord (HandlerPlace.afterOverrun sr) = [] := by
  unfold HandlerPlace.afterOverrun
  split_ifs <;> rfl

/-- The handler has no word behind the reception. -/
@[simp] theorem handlerWord_afterReception (sr : StatusReg) (rcvd : ℕ) :
    handlerWord (HandlerPlace.afterReception sr rcvd) = [] := by
  unfold HandlerPlace.afterReception
  split_ifs <;> rfl

/-- A word that is shifted in is the last one. -/
theorem kept_shiftWord {w : UInt8} (hrxne : s.spi.rxne = false) :
    kept { s with spi := s.spi.shiftWord w } = kept s ++ [w] := by
  simp [kept, Spi.shiftWord, hrxne]

/-- If the last word has not been read, the new one is lost. -/
theorem kept_shiftWord_of_rxne {w : UInt8} (hrxne : s.spi.rxne = true) :
    kept { s with spi := s.spi.shiftWord w } = kept s := by
  simp [kept, Spi.shiftWord, hrxne]

/-- What a step leaves of the words and of those it brings is in their order; if it loses none it
leaves them all. -/
theorem Happens.kept_sublist (h : Happens s a s' o) (hs : Safe s) :
    (takenWords o ++ kept s').Sublist (kept s ++ arrivedWords o) ∧
      (LosesNone s a → s.ulReceiveActive = true →
        takenWords o ++ kept s' = kept s ++ arrivedWords o) := by
  have hall {l l' : List UInt8} (h : l = l') :
      l.Sublist l' ∧ (LosesNone s a → s.ulReceiveActive = true → l = l') :=
    ⟨h ▸ List.Sublist.refl l, fun _ _ => h⟩
  cases h with
  | @shifted c x hshift =>
    cases hrxne : s.spi.rxne with
    | false =>
      apply hall
      rw [kept_shiftWord hrxne]
      rfl
    | true =>
      rw [kept_shiftWord_of_rxne hrxne]
      refine ⟨List.sublist_append_left _ _, fun h => ?_⟩
      have hread : s.spi.rxne = false := h
      rw [hrxne] at hread
      exact absurd hread.symm Bool.false_ne_true
  | take hplace hnone hlt hreceive =>
    apply hall
    simp [takenWords, arrivedWords, kept, BoundedQueue.items_of_receive hreceive]
  | overrunReadDR hhandler =>
    refine ⟨?_, fun h => absurd hhandler (h.1 _)⟩
    simp [takenWords, arrivedWords, kept, hhandler, handlerWord]
  | junk hhandler hactive =>
    refine ⟨?_, fun _ h => ?_⟩
    · simp [takenWords, arrivedWords, kept]
    · rw [hactive] at h
      exact absurd h Bool.false_ne_true
  | rxReadDR hhandler =>
    apply hall
    have hrxne := (hs.credit_of hhandler).1
    simp [takenWords, arrivedWords, kept, hhandler, handlerWord, hrxne]
  | drop hhandler hfull =>
    refine ⟨?_, fun h => ?_⟩
    · simp [takenWords, arrivedWords, kept, hhandler, handlerWord]
    · have hkeeps := h.2
      rw [hhandler] at hkeeps
      exact absurd hfull hkeeps
  | queue hhandler hfull =>
    apply hall
    simp [takenWords, arrivedWords, kept, hhandler, handlerWord,
      BoundedQueue.items_send_of_not_full hfull]
  | readStatus hhandler | overrunReadSR hhandler | rxDone hhandler =>
    apply hall
    have hword : handlerWord s.handler = [] := by
      rw [hhandler]
      rfl
    simp [takenWords, arrivedWords, kept, hword]
  | enterHandler _ _ hhandler | overrun hhandler | keep hhandler | rxMore hhandler
  | txDone hhandler | txTake hhandler | transmit hhandler =>
    apply hall
    simp [takenWords, arrivedWords, kept, hhandler, handlerWord]
  | _ =>
    apply hall
    simp [takenWords, arrivedWords, kept]

/-! ## The account of a read -/

/-- The words shifted in since the queue was cleared, which a read does before it transmits. -/
def arrivedSince (l : List UInt8) : Output → List UInt8
  | .cleared _ => []
  | .arrived x => l ++ [x]
  | _ => l

/-- The words shifted in for the read under way. -/
def since (w : List Output) : List UInt8 := w.foldl arrivedSince []

/-- Nothing is on its way, and no word is left from before. -/
def Idle (s : SspCharQueue txCapacity rxCapacity) : Prop :=
  s.spi.shift = none ∧ s.spi.rxne = false ∧ s.rx.items = []

/-- The read of `n` bytes transmits as many as the queue has taken, and has got the words `b`;
they and those kept are among the words shifted in, or all of them if none is lost. -/
structure Counted (lossless : Prop) (n : ℕ) (b : List UInt8) (w : List Output)
    (s : SspCharQueue txCapacity rxCapacity) : Prop where
  active : s.ulReceiveActive = true
  count : (since w).length + (pending s).length = min n txCapacity
  order : (b ++ kept s).Sublist (since w)
  all : lossless → b ++ kept s = since w

/-- How far a read has come. -/
def Reading (lossless : Prop) (w : List Output) (s : SspCharQueue txCapacity rxCapacity) :
    Place → Prop
  | .waitTxQueueEmpty _ | .clearRxCharQueue _ => s.handler = none ∧ Idle s
  | .activate _ => s.handler = none ∧ Idle s ∧ s.tx.items = [] ∧ since w = []
  | .send (.read n) b i =>
    s.handler = none ∧ Idle s ∧ s.ulReceiveActive = true ∧ since w = [] ∧ s.tx.items.length = i ∧
      i ≤ n ∧ b = nullBuffer n
  | .fill (.read n) _ _ _ | .enableIT n => Counted lossless n [] w s
  | .receive n b | .checkForTimeOut n b | .deactivate n b => Counted lossless n b w s
  | .outside | .send .task _ _ | .fill .task _ _ _ => True

/-- The step adds to what there is to send, or takes from it. -/
def Sends (o : List Output) : Prop :=
  ∃ x ∈ o, (∃ c, x = .accepted c) ∨ ∃ items, x = .cleared items

/-- Such a step leaves what there is to send. -/
theorem toSend_eq_of_not_sends (ho : ¬ Sends o) (l : List UInt8) : o.foldl toSend l = l := by
  induction o with
  | nil => rfl
  | cons x o ih =>
    have hx : toSend l x = l := by
      cases x with
      | accepted c => exact absurd ⟨_, List.mem_cons_self, .inl ⟨c, rfl⟩⟩ ho
      | cleared items => exact absurd ⟨_, List.mem_cons_self, .inr ⟨items, rfl⟩⟩ ho
      | _ => rfl
    rw [List.foldl_cons, hx]
    exact ih fun ⟨y, hy, h⟩ => ho ⟨y, List.mem_cons_of_mem x hy, h⟩

/-- Such a step adds the words that it brings. -/
theorem since_append_of_not_sends (ho : ¬ Sends o) (w : List Output) :
    since (w ++ o) = since w ++ arrivedWords o := by
  unfold since
  rw [List.foldl_append]
  generalize w.foldl arrivedSince [] = l
  induction o generalizing l with
  | nil => simp [arrivedWords]
  | cons x o ih =>
    have ho' : ¬ Sends o := fun ⟨y, hy, h⟩ => ho ⟨y, List.mem_cons_of_mem x hy, h⟩
    rw [List.foldl_cons, ih ho']
    cases x with
    | cleared items => exact absurd ⟨_, List.mem_cons_self, .inr ⟨items, rfl⟩⟩ ho
    | _ => simp [arrivedSince, arrivedWords]

/-- A word is shifted in for each one that is shifted out. -/
theorem Happens.length_busBytes (h : Happens s a s' o) :
    (busBytes o).length = (arrivedWords o).length := by
  cases h <;> rfl

/-- The account of a read after a step that leaves its bytes to send. -/
theorem Counted.step {lossless : Prop} {n : ℕ} {b : List UInt8} (hc : Counted lossless n b w s)
    (hs : Safe s) (h : Happens s a s' o) (hlossless : lossless → LosesNone s a)
    (ho : ¬ Sends o) (hactive : s'.ulReceiveActive = s.ulReceiveActive) :
    Counted lossless n (b ++ takenWords o) (w ++ o) s' := by
  have hsince := since_append_of_not_sends ho w
  obtain ⟨hsub, heq⟩ := h.kept_sublist hs
  refine ⟨hactive.trans hc.active, ?_, ?_, fun hl => ?_⟩
  · have hpending := congrArg List.length (h.pending_eq hs [])
    rw [toSend_eq_of_not_sends ho] at hpending
    simp only [List.nil_append, List.length_append, h.length_busBytes] at hpending
    rw [hsince, List.length_append, Nat.add_assoc, hpending]
    exact hc.count
  · rw [hsince, List.append_assoc]
    refine (hsub.append_left b).trans ?_
    rw [← List.append_assoc]
    exact hc.order.append_right _
  · rw [hsince, List.append_assoc, heq (hlossless hl) hc.active, ← List.append_assoc, hc.all hl]

/-- A read is called when nothing is on its way. -/
def IdleCall (s : SspCharQueue txCapacity rxCapacity) : Event → Prop
  | .read _ => Idle s
  | _ => True

instance (s : SspCharQueue txCapacity rxCapacity) : Decidable (Idle s) :=
  inferInstanceAs (Decidable (_ ∧ _))

instance (s : SspCharQueue txCapacity rxCapacity) : ∀ a, Decidable (IdleCall s a)
  | .read _ => inferInstanceAs (Decidable (Idle s))
  | .write _ | .taskStep _ | .shifted _ | .enterHandler | .handlerStep => .isTrue trivial

/-- A read that returns has its account. -/
theorem Happens.counted_of_readDone {lossless : Prop} (h : Happens s a s' o)
    (hr : Reading lossless w s s.place) {n : ℕ} {b : List UInt8} (hdone : .readDone n b ∈ o) :
    Counted lossless n b w s := by
  cases h with
  | deactivate hplace hnone =>
    rw [hplace] at hr
    cases List.mem_singleton.mp hdone
    exact hr
  | _ => simp at hdone

/-- The SPI or the handler goes on. -/
theorem Reading.serve {lossless : Prop} (hr : Reading lossless w s s.place)
    (hplace : s'.place = s.place) (hbusy : s.handler = none → ¬ Idle s)
    (hcount : ∀ n b, Counted lossless n b w s → Counted lossless n b (w ++ o) s') :
    Reading lossless (w ++ o) s' s'.place := by
  rw [hplace]
  cases h : s.place with
  | outside => trivial
  | waitTxQueueEmpty | clearRxCharQueue =>
    rw [h] at hr
    exact absurd hr.2 (hbusy hr.1)
  | activate =>
    rw [h] at hr
    exact absurd hr.2.1 (hbusy hr.1)
  | send caller =>
    cases caller with
    | task => trivial
    | read n =>
      rw [h] at hr
      exact absurd hr.2.1 (hbusy hr.1)
  | fill caller =>
    cases caller with
    | task => trivial
    | read n =>
      rw [h] at hr
      exact hcount n [] hr
  | enableIT | receive | checkForTimeOut | deactivate =>
    rw [h] at hr
    exact hcount _ _ hr

/-- The task stays in the section that fills `DR`. -/
theorem Reading.fill {lossless : Prop} (hr : Reading lossless w s s.place) {caller : Caller}
    {b : List UInt8} {i : ℕ} {statement : Fill} (hplace : s.place = .fill caller b i statement)
    (hcount : ∀ n, Counted lossless n [] w s → Counted lossless n [] (w ++ o) s')
    (statement' : Fill) : Reading lossless (w ++ o) s' (.fill caller b i statement') := by
  cases caller with
  | task => trivial
  | read n =>
    rw [hplace] at hr
    exact hcount n hr

/-- The queue has taken as many bytes as it can hold, or all of them. -/
theorem counted_of_sent {lossless : Prop} {n i : ℕ} {b : List UInt8} (hs : Safe s) (hidle : Idle s)
    (hnone : s.handler = none) (hactive : s.ulReceiveActive = true) (hsince : since w = [])
    (hlen : s.tx.items.length = i) (hle : i ≤ n) (hb : b = nullBuffer n)
    (hdone : b[i]? = none ∨ s.tx.Full) :
    Counted lossless n [] w { s with place := .fill (.read n) b i .disableIT } := by
  obtain ⟨hshift, hrxne, hrx⟩ := hidle
  have hkept : kept { s with place := .fill (.read n) b i .disableIT } = [] := by
    simp [kept, hrx, hnone, handlerWord, hrxne]
  refine ⟨hactive, ?_, ?_, fun _ => ?_⟩
  · have hbound := s.tx.bounded
    have hmin : i = min n txCapacity := by
      cases hdone with
      | inl hend =>
        rw [hb, nullBuffer, List.getElem?_eq_none_iff, List.length_replicate] at hend
        omega
      | inr hfull =>
        unfold BoundedQueue.Full at hfull
        omega
    simp [hsince, pending, words, hshift, hs.busy hshift, taskHand, hnone, handlerHand, hlen,
      ← hmin]
  · rw [hkept]
    exact List.nil_sublist _
  · rw [hkept, hsince]
    rfl

/-- Every step keeps the account of the read under way. -/
theorem Reading.step {lossless : Prop} (hr : Reading lossless w s s.place) (hs : Safe s)
    (hlossless : lossless → LosesNone s a) (hcall : IdleCall s a) (h : Happens s a s' o) :
    Reading lossless (w ++ o) s' s'.place := by
  have hcount : ∀ n b, Counted lossless n b w s → ¬ Sends o →
      s'.ulReceiveActive = s.ulReceiveActive →
      Counted lossless n (b ++ takenWords o) (w ++ o) s' :=
    fun n b hc => hc.step hs h hlossless
  have hserve : s'.place = s.place → (s.handler = none → ¬ Idle s) → takenWords o = [] →
      ¬ Sends o → s'.ulReceiveActive = s.ulReceiveActive →
      Reading lossless (w ++ o) s' s'.place := by
    intro hplace hbusy htaken ho hactive
    refine hr.serve hplace hbusy fun n b hc => ?_
    have hc' := hcount n b hc ho hactive
    rwa [htaken, List.append_nil] at hc'
  have hhandled {place : HandlerPlace} (hhandler : s.handler = some place) :
      s.handler = none → ¬ Idle s := by
    intro hnone
    rw [hhandler] at hnone
    exact absurd hnone (Option.some_ne_none place)
  cases h with
  | write hplace hnone => trivial
  | read hplace hnone => exact ⟨hnone, hcall⟩
  | @accept e caller b i c hplace hnone hc hfull =>
    cases caller with
    | task => trivial
    | read n =>
      rw [hplace] at hr
      obtain ⟨_, hidle, hactive, hsince, hlen, hle, hb⟩ := hr
      refine ⟨hnone, hidle, hactive, ?_, ?_, ?_, hb⟩
      · unfold since at hsince ⊢
        rw [List.foldl_append, hsince]
        rfl
      · rw [BoundedQueue.items_send_of_not_full hfull, List.length_append, hlen]
        rfl
      · rw [hb, nullBuffer] at hc
        have hi := (List.getElem?_eq_some_iff.mp hc).1
        rwa [List.length_replicate] at hi
  | @sendDone e caller b i hplace hnone hdone =>
    cases caller with
    | task => trivial
    | read n =>
      rw [hplace] at hr
      obtain ⟨_, hidle, hactive, hsince, hlen, hle, hb⟩ := hr
      rw [List.append_nil]
      exact counted_of_sent hs hidle hnone hactive hsince hlen hle hb hdone
  | disableIT hplace | txeSet hplace | txeClear hplace | fillNone hplace | fillTake hplace
  | peripheralWrite hplace =>
    exact hr.fill hplace (fun n hc => hcount n [] hc (by simp [Sends]) rfl) _
  | wrote hplace hnone => trivial
  | wroteNull hplace hnone =>
    rw [hplace] at hr
    exact hcount _ [] hr (by simp [Sends]) rfl
  | waitMore hplace hnone =>
    rw [hplace] at hr ⊢
    exact hr
  | waited hplace hnone =>
    rw [hplace] at hr
    exact hr
  | clear hplace hnone =>
    rw [hplace] at hr
    refine ⟨hnone, hr.2, rfl, ?_⟩
    unfold since
    rw [List.foldl_append]
    rfl
  | activate hplace hnone =>
    rw [hplace] at hr
    obtain ⟨_, hidle, hitems, hsince⟩ := hr
    refine ⟨hnone, hidle, rfl, ?_, ?_, Nat.zero_le _, rfl⟩
    · rwa [List.append_nil]
    · rw [hitems]
      rfl
  | enableIT hplace hnone =>
    rw [hplace] at hr
    exact hcount _ [] hr (by simp [Sends]) rfl
  | take hplace hnone hlt hreceive =>
    rw [hplace] at hr
    exact hcount _ _ hr (by simp [Sends]) rfl
  | takeTimeOut hplace | received hplace | inTime hplace | timeOut hplace =>
    rw [hplace] at hr
    have hc := hcount _ _ hr (by simp [Sends]) rfl
    rwa [show takenWords [] = [] from rfl, List.append_nil] at hc
  | deactivate hplace hnone => trivial
  | shifted hshift =>
    refine hserve rfl (fun _ hidle => ?_) rfl (by simp [Sends]) rfl
    rw [hidle.1] at hshift
    exact absurd hshift.symm (Option.some_ne_none _)
  | enterHandler hrxne hrxneie hnone =>
    refine hserve rfl (fun _ hidle => ?_) rfl (by simp [Sends]) rfl
    rw [hidle.2.1] at hrxne
    exact Bool.false_ne_true hrxne
  | overrun hhandler | readStatus hhandler | overrunReadDR hhandler | overrunReadSR hhandler
  | keep hhandler | junk hhandler | rxMore hhandler | rxDone hhandler | rxReadDR hhandler
  | drop hhandler | queue hhandler | txDone hhandler | txTake hhandler | transmit hhandler =>
    exact hserve rfl (hhandled hhandler) rfl (by simp [Sends]) rfl

/-! ## Reads without a condition on the handler -/

/-- What has been done so far, and whether nothing was on its way at the last call of a read. -/
structure History where
  done : List Output
  idleCall : Bool

/-- The history after a step: a read notes whether it has been called in an idle state. -/
def History.next (h : History) (s : SspCharQueue txCapacity rxCapacity) (a : Event)
    (_ : SspCharQueue txCapacity rxCapacity) (o : List Output) : History where
  done := h.done ++ o
  idleCall := match a with
    | .read _ => decide (Idle s)
    | _ => h.idleCall

/-- The account of a read that was called when nothing was on its way. -/
def ReadingIfIdle (h : History) (s : SspCharQueue txCapacity rxCapacity) : Prop :=
  h.idleCall = true → Reading False h.done s s.place

/-- Every step keeps the account, and a new call begins one. -/
theorem ReadingIfIdle.step {h : History} (hr : ReadingIfIdle h s) (hs : Safe s)
    (hstep : Happens s a s' o) : ReadingIfIdle (h.next s a s' o) s' := by
  intro hidle
  cases a with
  | read n =>
    -- the task has left any read before this one
    have houtside : Reading False h.done s s.place := by
      cases hstep with
      | read hplace hnone =>
        rw [hplace]
        trivial
    have hcall : Idle s := of_decide_eq_true hidle
    refine houtside.step hs False.elim ?_ hstep
    exact hcall
  | write | taskStep | shifted | enterHandler | handlerStep =>
    refine (hr hidle).step hs False.elim ?_ hstep
    trivial

/-- **A read gets no more than the transmit queue holds.**  In every run, whatever the SPI and the
handler do meanwhile, a read that was called when nothing was on its way returns words that
were shifted in for it, in order, and no more than the queue for the transmission has space
for: a read of more bytes always comes back short.
SOURCE: FreeRTOS_stm32f4_ssp.c:397-440, IOUtils_CharQueueTxAndRx.c:140-232 -/
theorem read_bounded {received : UInt8} {rxne drRead : Bool} (as : List Event) :
    ((machine txCapacity rxCapacity).observe History.next).Always
      (fun p _ _ o => p.2.idleCall = true → ∀ n b, .readDone n b ∈ o →
        b.Sublist (since p.2.done) ∧ b.length ≤ min n txCapacity)
      (configured received rxne drRead, ⟨[], false⟩) as := by
  refine Machine.always_of_invariant
    (fun p : SspCharQueue txCapacity rxCapacity × History => Safe p.1 ∧ ReadingIfIdle p.2 p.1)
    (fun _ _ => True) _ (fun p a p' o hI _ hstep => ?_)
    ⟨safe_configured received rxne drRead, nofun⟩ (Machine.along_of_forall fun _ _ => trivial)
  obtain ⟨hs, hr⟩ := hI
  obtain ⟨hstep, hnext⟩ := Machine.observe_step_eq_some.mp hstep
  have h := happens_of_step hstep
  refine ⟨⟨hs.step h, ?_⟩, fun hidle n b hdone => ?_⟩
  · rw [hnext]
    exact hr.step hs h
  · have hc := h.counted_of_readDone (hr hidle) hdone
    have hb := (List.sublist_append_left b (kept p.1)).trans hc.order
    refine ⟨hb, Nat.le_trans hb.length_le ?_⟩
    rw [← hc.count]
    exact Nat.le_add_right _ _

/-- Two bytes are read where the queue for the transmission has space for one. -/
def twoOfOne : List Event :=
  .read 2 :: List.replicate 11 (.taskStep false) ++ [.shifted 171, .enterHandler] ++
    List.replicate 7 .handlerStep ++ List.replicate 2 (.taskStep false)

/-- The second byte does not come, and the read returns one when its time to wait expires. -/
theorem read_bounded_twoOfOne :
    ((machine 1 4).observe History.next).Always
      (fun p _ _ o => p.2.idleCall = true → ∀ n b, .readDone n b ∈ o →
        b.Sublist (since p.2.done) ∧ b.length ≤ min n 1)
      (configured 0 false false, ⟨[], false⟩) (twoOfOne ++ List.replicate 3 (.taskStep true)) :=
  read_bounded _

/-! ## Reads that wait for ever -/

/-- The last word has been read when the next one has come. -/
def ReadBefore (s : SspCharQueue txCapacity rxCapacity) : Event → Prop
  | .shifted _ => s.spi.rxne = false
  | _ => True

/-- The handler keeps up and no word is lost. -/
def Lossless (s : SspCharQueue txCapacity rxCapacity) (a : Event) : Prop :=
  Prompt s a ∧ ReadBefore s a

instance (s : SspCharQueue txCapacity rxCapacity) : ∀ a, Decidable (ReadBefore s a)
  | .shifted _ => inferInstanceAs (Decidable (_ = _))
  | .write _ | .read _ | .taskStep _ | .enterHandler | .handlerStep => .isTrue trivial

instance (s : SspCharQueue txCapacity rxCapacity) (a : Event) : Decidable (Lossless s a) :=
  inferInstanceAs (Decidable (_ ∧ _))

/-- There has been no overrun. -/
def Intact (s : SspCharQueue txCapacity rxCapacity) : Prop :=
  s.spi.ovr = false ∧ ∀ sr, s.handler ≠ some (.overrunReadDR sr)

/-- A read of `SR` sets no overrun. -/
theorem readSR_ovr (h : u.ovr = false) : u.readSR.ovr = false := by
  unfold Spi.readSR
  split_ifs
  · rfl
  · exact h

/-- Without a lost word there is no overrun. -/
theorem Intact.step (hi : Intact s) (hlossless : Lossless s a) (h : Happens s a s' o) :
    Intact s' := by
  obtain ⟨hovr, hhandler⟩ := hi
  cases h with
  | txeSet | txeClear => exact ⟨readSR_ovr hovr, hhandler⟩
  | @peripheralWrite _ _ _ _ c => exact ⟨(store_ovr s.spi c).trans hovr, hhandler⟩
  | @shifted c w hshift =>
    refine ⟨?_, hhandler⟩
    have hrxne : s.spi.rxne = false := hlossless.2
    simp [Spi.shiftWord, hrxne, hovr]
  | overrun _ hovr' =>
    rw [hovr] at hovr'
    exact absurd hovr' Bool.false_ne_true
  | overrunReadDR hhandler' => exact absurd hhandler' (hhandler _)
  | readStatus | overrunReadSR =>
    refine ⟨readSR_ovr hovr, fun sr => ?_⟩
    unfold HandlerPlace.afterOverrun
    split_ifs <;> simp
  | rxMore => exact ⟨readSR_ovr hovr, by simp⟩
  | rxDone =>
    refine ⟨readSR_ovr hovr, fun sr => ?_⟩
    unfold HandlerPlace.afterReception
    split_ifs <;> simp
  | junk =>
    refine ⟨hovr, fun sr => ?_⟩
    unfold HandlerPlace.afterReception
    split_ifs <;> simp
  | @transmit _ c => exact ⟨(store_ovr s.spi c).trans hovr, by simp⟩
  | enterHandler | keep | rxReadDR | drop | queue | txDone | txTake => exact ⟨hovr, by simp⟩
  | _ => exact ⟨hovr, hhandler⟩

/-- What holds in a run that loses no word. -/
structure Served (w : List Output) (s : SspCharQueue txCapacity rxCapacity) : Prop where
  safe : Safe s
  live : Live s
  intact : Intact s
  reading : Reading True w s s.place

/-- Every step that loses no word keeps what holds in such a run. -/
theorem Served.step (hserved : Served w s) (hlossless : Lossless s a) (hcall : IdleCall s a)
    (h : Happens s a s' o) : Served (w ++ o) s' := by
  obtain ⟨hs, hl, hi, hr⟩ := hserved
  refine ⟨hs.step h, hl.step hs hlossless.1 h, hi.step hlossless h,
    hr.step hs (fun _ => ?_) hcall h⟩
  cases a with
  | shifted w => exact hlossless.2
  | handlerStep => exact ⟨hi.2, hlossless.1⟩
  | write | read | taskStep | enterHandler => trivial

/-- A task that waits has not got all words, and finds none in the queue. -/
theorem waits_of_receive {n : ℕ} {b : List UInt8} (hplace : s.place = .receive n b)
    (hwait : s.taskStep false = none) : b.length < n ∧ s.rx.items = [] := by
  simp only [Model.SspCharQueue.taskStep, hplace] at hwait
  by_cases hlt : b.length < n
  · rw [if_pos hlt] at hwait
    cases hreceive : s.rx.receive with
    | none => exact ⟨hlt, BoundedQueue.items_eq_nil_of_receive hreceive⟩
    | some r => simp [hreceive] at hwait
  · simp [if_neg hlt] at hwait

/-- **A read waits for ever only for more bytes than the transmit queue holds.**  In every run in
which the handler keeps up, no word is lost and reads are called when nothing is on its way: a
read that nothing but a time out can end has got all words shifted in for it, as many as the
queue for the transmission holds, and it asked for more.
SOURCE: FreeRTOS_stm32f4_ssp.c:397-440, 647-798, IOUtils_CharQueueTxAndRx.c:140-232 -/
theorem blocked_read {received : UInt8} {rxne drRead : Bool} {as : List Event}
    {os : List (List Output)} {n : ℕ} {b : List UInt8}
    (hrunning : (machine txCapacity rxCapacity).Along (fun s a => Lossless s a ∧ IdleCall s a)
      (configured received rxne drRead) as)
    (hrun : (machine txCapacity rxCapacity).exec (configured received rxne drRead) as =
      some (s', os))
    (hquiet : Quiet s') (hplace : s'.place = .receive n b) :
    b = since os.flatten ∧ b.length = txCapacity ∧ txCapacity < n := by
  have hserved := Machine.invariant_of_outputs (M := machine txCapacity rxCapacity) (w := [])
    Served _ (fun w s a s' o hI hP hstep => hI.step hP.1 hP.2 (happens_of_step hstep))
    ⟨safe_configured received rxne drRead, live_configured received rxne drRead,
      ⟨rfl, by simp [configured]⟩, trivial⟩ hrunning hrun
  obtain ⟨hs, hl, -, hr⟩ := hserved
  rw [hplace, List.nil_append] at hr
  have hc : Counted True n b os.flatten s' := hr
  obtain ⟨hlt, hrx⟩ := waits_of_receive hplace hquiet.taskStep_eq_none
  have hkept : kept s' = [] := by
    simp [kept, hrx, hquiet.handler_eq_none, handlerWord, hquiet.rxne_eq_false hl]
  have hb : b = since os.flatten := by
    rw [← hc.all trivial, hkept, List.append_nil]
  have hcount := hc.count
  rw [← hb, pending_of_quiet hs hl hquiet, List.length_nil, Nat.add_zero] at hcount
  exact ⟨hb, by omega, by omega⟩

/-- The word for the one byte transmitted has been read, another one never comes. -/
theorem blocked_read_twoOfOne :
    ∃ (s' : SspCharQueue 1 4) (os : List (List Output)),
      (machine 1 4).exec (configured 0 false false) twoOfOne = some (s', os) ∧
        [171] = since os.flatten ∧ [171].length = 1 ∧ 1 < 2 := by
  have hrun : (machine 1 4).exec (configured 0 false false) twoOfOne = some (_, _) := rfl
  exact ⟨_, _, hrun, blocked_read (by decide) hrun (quiet_of_idle rfl rfl rfl rfl) rfl⟩

end SspCharQueue

end Resmod.Analysis
