import Resmod.Analysis.SspCharQueue

/-!
# All bytes written to an SSP are sent

Behind the first byte it is the handler that keeps the transmission going, with one byte for each
word that has come in.  Three things can make it stop with bytes in the queue: that both words
of the SPI go out while the handler, which has found `DR` full, has not yet read the first;
that it clears an overrun and then finds no word to keep; that the queue of the received words
is full.  `Prompt` excludes them.

While none of them happens there is, as long as the queue is not empty, a word on its way, a
handler that is going to store a byte, or a task that is going to (`Live`).  So when nothing
happens any more, everything has been sent.
-/

set_option autoImplicit false

namespace Resmod.Analysis

open Resmod.Library Resmod.Model

namespace SspCharQueue

open Resmod.Model.SspCharQueue
open SspInterrupt (StatusReg)

variable {txCapacity rxCapacity : ℕ} {s s' : SspCharQueue txCapacity rxCapacity} {a : Event}
  {o : List Output} {u : Spi}

/-- While words are kept the handler finds no overrun, and a place for each of them. -/
def Keeps (s : SspCharQueue txCapacity rxCapacity) : Option HandlerPlace → Prop
  | some .readStatus => s.ulReceiveActive = true → s.spi.ovr = false
  | some (.sendFromISR _ _ _) => ¬ s.rx.Full
  | _ => True

/-- The handler keeps up: while it is active the SPI does not run out of words. -/
def Prompt (s : SspCharQueue txCapacity rxCapacity) : Event → Prop
  | .shifted _ => s.handler = none ∨ s.spi.dr ≠ none
  | .handlerStep => Keeps s s.handler
  | _ => True

/-- A handler that keeps up finds room for the words that are kept. -/
theorem Prompt.keeps (hprompt : Prompt s .handlerStep) {h : HandlerPlace}
    (hhandler : s.handler = some h) : Keeps s (some h) := by
  have hkeeps : Keeps s s.handler := hprompt
  rwa [hhandler] at hkeeps

instance (s : SspCharQueue txCapacity rxCapacity) : ∀ handler, Decidable (Keeps s handler)
  | some .readStatus => inferInstanceAs (Decidable (_ → _))
  | some (.sendFromISR _ _ _) => inferInstanceAs (Decidable (¬ _))
  | some (.overrunReadDR _) | some (.overrunReadSR _) | some (.receive _)
  | some (.rxCondition _ _) | some (.rxReadDR _ _) | some (.receiveFromISR _)
  | some (.transmit _ _) | none => .isTrue trivial

instance (s : SspCharQueue txCapacity rxCapacity) : ∀ a, Decidable (Prompt s a)
  | .shifted _ => inferInstanceAs (Decidable (_ ∨ _))
  | .handlerStep => inferInstanceAs (Decidable (Keeps s s.handler))
  | .write _ | .read _ | .taskStep _ | .enterHandler => .isTrue trivial

/-- The task is going to look into the queue. -/
def WillFill : Place → Prop
  | .send _ _ _ => True
  | .fill _ _ _ .enableIT => False
  | .fill _ _ _ _ => True
  | _ => False

/-- Why the handler does not leave the queue behind. -/
def Serving (u : Spi) (active : Bool) : Option HandlerPlace → Prop
  | some .readStatus => u.rxne = true
  | some (.overrunReadDR sr) | some (.overrunReadSR sr) =>
    sr.rxne = true ∧ active = false ∧ (sr.txe = false → u.shift ≠ none)
  | some (.receive sr) => (active = true → u.rxne = true) ∧ (sr.txe = false → u.shift ≠ none)
  | some (.rxCondition sr rcvd) =>
    (rcvd = 0 → u.rxne = true) ∧ (sr.txe = false → u.shift ≠ none)
  | some (.rxReadDR sr _) | some (.sendFromISR sr _ _) => sr.txe = false → u.shift ≠ none
  | some (.receiveFromISR rcvd) => rcvd = 0 → u.shift ≠ none
  | _ => True

/-- The interrupt is enabled where the task does not mask it, queued bytes have a word on its
way or a fill to come, and the handler does not leave them behind. -/
structure Live (s : SspCharQueue txCapacity rxCapacity) : Prop where
  enabled : ¬ Masked s.place → s.spi.rxneie = true
  waiting : s.handler = none → s.tx.items = [] ∨ 0 < onWay s.spi ∨ WillFill s.place
  serving : Serving s.spi s.ulReceiveActive s.handler

/-- The invariant before the first call. -/
theorem live_configured (received : UInt8) (rxne drRead : Bool) :
    Live (configured received rxne drRead : SspCharQueue txCapacity rxCapacity) :=
  ⟨fun _ => rfl, fun _ => .inl rfl, trivial⟩

/-- A word in the shift register is on its way. -/
theorem onWay_pos_of_shift (h : u.shift ≠ none) : 0 < onWay u := by
  obtain ⟨c, hc⟩ := Option.ne_none_iff_exists'.mp h
  simp [onWay, hc]

/-- So is a word that has been received. -/
theorem onWay_pos_of_rxne (h : u.rxne = true) : 0 < onWay u := by
  rw [onWay, h, Bool.toNat_true]
  exact Nat.lt_of_lt_of_le Nat.one_pos (Nat.le_add_right _ _)

/-! ## The steps of the task -/

/-- After a step of the task. -/
theorem live_of_task (hnone : s'.handler = none)
    (henabled : ¬ Masked s'.place → s'.spi.rxneie = true)
    (hwaiting : s'.tx.items = [] ∨ 0 < onWay s'.spi ∨ WillFill s'.place) : Live s' := by
  refine ⟨henabled, fun _ => hwaiting, ?_⟩
  rw [hnone]
  trivial

/-- Where the task is not going to look into the queue, a word is on its way. -/
theorem Live.items_or_onWay (hl : Live s) (hnone : s.handler = none) (hplace : ¬ WillFill s.place) :
    s.tx.items = [] ∨ 0 < onWay s.spi :=
  (hl.waiting hnone).imp_right fun h => h.resolve_right hplace

/-- The task goes on outside the transmission. -/
theorem Live.goto (hl : Live s) (hnone : s.handler = none) (hmasked : ¬ Masked s.place)
    (hfill : ¬ WillFill s.place) (hnone' : s'.handler = none) (hspi : s'.spi = s.spi)
    (htx : s'.tx = s.tx) : Live s' := by
  refine live_of_task hnone' (fun _ => ?_) ?_
  · rw [hspi]
    exact hl.enabled hmasked
  · rw [hspi, htx]
    exact (hl.items_or_onWay hnone hfill).imp_right .inl

/-- A statement of the task keeps the invariant. -/
theorem Live.taskStep {e : Bool} (hl : Live s) (hs : Safe s) (h : Happens s (.taskStep e) s' o) :
    Live s' := by
  have hmasked {p : Place} (hplace : s.place = p) (hp : ¬ Masked p) : ¬ Masked s.place := by
    rwa [hplace]
  have hfill {p : Place} (hplace : s.place = p) (hp : ¬ WillFill p) : ¬ WillFill s.place := by
    rwa [hplace]
  cases h with
  | accept hplace hnone hc hfull =>
    exact live_of_task hnone (fun _ => hl.enabled (hmasked hplace id)) (.inr (.inr trivial))
  | sendDone hplace hnone hdone =>
    exact live_of_task hnone (fun _ => hl.enabled (hmasked hplace id)) (.inr (.inr trivial))
  | disableIT hplace hnone =>
    exact live_of_task hnone (fun h => absurd trivial h) (.inr (.inr trivial))
  | txeSet hplace hnone hdr =>
    exact live_of_task hnone (fun h => absurd trivial h) (.inr (.inr trivial))
  | txeClear hplace hnone hdr =>
    refine live_of_task hnone (fun h => absurd trivial h) (.inr (.inl ?_))
    rw [readSR_onWay]
    exact onWay_pos_of_shift (mt hs.busy hdr)
  | fillNone hplace hnone hempty =>
    exact live_of_task hnone (fun h => absurd trivial h) (.inl hempty)
  | fillTake hplace hnone hreceive =>
    exact live_of_task hnone (fun h => absurd trivial h) (.inr (.inr trivial))
  | @peripheralWrite _ _ _ _ c hplace hnone =>
    exact live_of_task hnone (fun h => absurd trivial h)
      (.inr (.inl (onWay_pos_of_shift (store_shift_ne_none s.spi c))))
  | wrote hplace hnone =>
    exact live_of_task hnone (fun _ => rfl)
      ((hl.items_or_onWay hnone (hfill hplace id)).imp_right .inl)
  | wroteNull hplace hnone =>
    exact live_of_task hnone (fun _ => rfl)
      ((hl.items_or_onWay hnone (hfill hplace id)).imp_right .inl)
  | waitMore => exact hl
  | clear hplace hnone =>
    exact live_of_task hnone (fun _ => hl.enabled (hmasked hplace id)) (.inl rfl)
  | activate hplace hnone =>
    exact live_of_task hnone (fun _ => hl.enabled (hmasked hplace id)) (.inr (.inr trivial))
  | enableIT hplace hnone =>
    exact live_of_task hnone (fun _ => rfl)
      ((hl.items_or_onWay hnone (hfill hplace id)).imp_right .inl)
  | waited hplace hnone | take hplace hnone | takeTimeOut hplace hnone | received hplace hnone
  | inTime hplace hnone | timeOut hplace hnone | deactivate hplace hnone =>
    exact hl.goto hnone (hmasked hplace id) (hfill hplace id) hnone rfl rfl

/-! ## The steps of the handler -/

/-- After a step of the handler. -/
theorem Live.serve (hl : Live s) (hplace : s'.place = s.place)
    (hrxneie : s'.spi.rxneie = s.spi.rxneie) (hwaiting : s'.handler = none → 0 < onWay s'.spi)
    (hserving : Serving s'.spi s'.ulReceiveActive s'.handler) : Live s' := by
  refine ⟨fun h => ?_, fun h => .inr (.inl (hwaiting h)), hserving⟩
  rw [hplace] at h
  rw [hrxneie]
  exact hl.enabled h

/-- What the handler still serves, by where it is. -/
theorem Live.serving_of (hl : Live s) {h : HandlerPlace} (hhandler : s.handler = some h) :
    Serving s.spi s.ulReceiveActive (some h) := hhandler ▸ hl.serving

/-- The handler leaves, where it has found `DR` full, a word that is going out. -/
theorem Live.afterReception (hl : Live s) (hplace : s'.place = s.place)
    (hrxneie : s'.spi.rxneie = s.spi.rxneie) {sr : StatusReg} {rcvd : ℕ}
    (hhandler' : s'.handler = HandlerPlace.afterReception sr rcvd) (hrcvd : rcvd ≠ 0)
    (hshift : sr.txe = false → s'.spi.shift ≠ none) : Live s' := by
  unfold HandlerPlace.afterReception at hhandler'
  cases htxe : sr.txe with
  | true =>
    rw [htxe, if_pos rfl] at hhandler'
    refine hl.serve hplace hrxneie (fun h => ?_) ?_
    · rw [hhandler'] at h
      exact absurd h (Option.some_ne_none _)
    · rw [hhandler']
      exact fun h => absurd h hrcvd
  | false =>
    rw [htxe, if_neg Bool.false_ne_true] at hhandler'
    refine hl.serve hplace hrxneie (fun _ => onWay_pos_of_shift (hshift htxe)) ?_
    rw [hhandler']
    trivial

/-- The handler goes on to another statement. -/
theorem Live.goOn (hl : Live s) (hplace : s'.place = s.place)
    (hrxneie : s'.spi.rxneie = s.spi.rxneie) {h : HandlerPlace} (hhandler' : s'.handler = some h)
    (hserving : Serving s'.spi s'.ulReceiveActive (some h)) : Live s' := by
  refine hl.serve hplace hrxneie (fun hnone => ?_) ?_
  · rw [hhandler'] at hnone
    exact absurd hnone (Option.some_ne_none h)
  · rwa [hhandler']

/-- A statement of the handler keeps the invariant. -/
theorem Live.handlerStep (hl : Live s) (hs : Safe s) (hprompt : Prompt s .handlerStep)
    (h : Happens s .handlerStep s' o) : Live s' := by
  have hbusy : s.spi.sr.txe = false → s.spi.shift ≠ none := fun htxe hshift => by
    simp [Spi.sr, hs.busy hshift] at htxe
  cases h with
  | overrun hhandler hovr =>
    refine hl.goOn rfl (readSR_rxneie _) rfl ⟨hl.serving_of hhandler, ?_, ?_⟩
    · by_contra hactive
      rw [hprompt.keeps hhandler (by simpa using hactive)] at hovr
      exact Bool.false_ne_true hovr
    · rw [readSR_shift]
      exact hbusy
  | readStatus hhandler hovr =>
    have hrxne : s.spi.rxne = true := hl.serving_of hhandler
    refine hl.goOn rfl (readSR_rxneie _) (if_pos hrxne) ⟨fun _ => ?_, ?_⟩
    · rwa [readSR_rxne]
    · rw [readSR_shift]
      exact hbusy
  | overrunReadDR hhandler => exact hl.goOn rfl rfl rfl (hl.serving_of hhandler)
  | overrunReadSR hhandler =>
    obtain ⟨hrxne, hactive, hshift⟩ := hl.serving_of hhandler
    refine hl.goOn rfl (readSR_rxneie _) (if_pos hrxne) ⟨fun h => ?_, ?_⟩
    · rw [hactive] at h
      exact absurd h Bool.false_ne_true
    · rwa [readSR_shift]
  | keep hhandler hactive =>
    obtain ⟨hrxne, hshift⟩ := hl.serving_of hhandler
    exact hl.goOn rfl rfl rfl ⟨fun _ => hrxne hactive, hshift⟩
  | junk hhandler hactive =>
    exact hl.afterReception rfl rfl rfl Nat.one_ne_zero (hl.serving_of hhandler).2
  | rxMore hhandler hrxne =>
    refine hl.goOn rfl (readSR_rxneie _) rfl ?_
    simp only [Serving, readSR_shift]
    exact (hl.serving_of hhandler).2
  | rxDone hhandler hrxne =>
    obtain ⟨hrcvd, hshift⟩ := hl.serving_of hhandler
    refine hl.afterReception rfl (readSR_rxneie _) rfl (fun h => ?_) (by rwa [readSR_shift])
    rw [hrcvd h] at hrxne
    exact Bool.false_ne_true hrxne.symm
  | rxReadDR hhandler => exact hl.goOn rfl rfl rfl (hl.serving_of hhandler)
  | drop hhandler hfull =>
    exact absurd hfull (hprompt.keeps hhandler)
  | queue hhandler hfull =>
    exact hl.goOn rfl rfl rfl ⟨fun h => absurd h (Nat.succ_ne_zero _), hl.serving_of hhandler⟩
  | txDone hhandler hdone =>
    refine ⟨hl.enabled, fun _ => ?_, trivial⟩
    exact hdone.symm.imp_right fun h => .inl (onWay_pos_of_shift (hl.serving_of hhandler h))
  | txTake hhandler hreceive => exact hl.goOn rfl rfl rfl trivial
  | @transmit _ c hhandler =>
    exact hl.goOn rfl (store_rxneie _ _) rfl fun _ => store_shift_ne_none s.spi c

/-! ## A whole run -/

/-- The SPI goes on to its next word. -/
theorem Serving.shiftWord {active : Bool} {handler : Option HandlerPlace}
    (h : Serving u active handler) (hdr : handler = none ∨ u.dr ≠ none) (w : UInt8) :
    Serving (u.shiftWord w) active handler := by
  cases handler with
  | none => trivial
  | some place =>
    have hdr := hdr.resolve_left (Option.some_ne_none place)
    have hshift : (u.shiftWord w).shift ≠ none := by rwa [shiftWord_shift]
    have hrxne := shiftWord_rxne u w
    cases place with
    | readStatus => exact hrxne
    | overrunReadDR | overrunReadSR => exact ⟨h.1, h.2.1, fun _ => hshift⟩
    | receive | rxCondition => exact ⟨fun _ => hrxne, fun _ => hshift⟩
    | rxReadDR | sendFromISR | receiveFromISR => exact fun _ => hshift
    | transmit => trivial

/-- Every step keeps the invariant. -/
theorem Live.step (hl : Live s) (hs : Safe s) (hprompt : Prompt s a) (h : Happens s a s' o) :
    Live s' := by
  cases a with
  | taskStep e => exact hl.taskStep hs h
  | handlerStep => exact hl.handlerStep hs hprompt h
  | write b =>
    cases h with
    | write hplace hnone =>
      exact live_of_task hnone (fun _ => hl.enabled (by rw [hplace]; exact id))
        (.inr (.inr trivial))
  | read n =>
    cases h with
    | read hplace hnone =>
      exact hl.goto hnone (by rw [hplace]; exact id) (by rw [hplace]; exact id) hnone rfl rfl
  | shifted w =>
    cases h with
    | shifted hshift =>
      refine ⟨?_, fun _ => .inr (.inl (onWay_pos_of_rxne (shiftWord_rxne s.spi w))),
        hl.serving.shiftWord hprompt w⟩
      rw [shiftWord_rxneie]
      exact hl.enabled
  | enterHandler =>
    cases h with
    | enterHandler hrxne hrxneie hnone => exact hl.goOn rfl rfl rfl hrxne

/-! ## When nothing happens any more -/

/-- Nothing can happen but a call, or the end of the time that the task waits. -/
def Quiet (s : SspCharQueue txCapacity rxCapacity) : Prop :=
  ∀ a, (machine txCapacity rxCapacity).step s a ≠ none →
    (∃ b, a = .write b) ∨ (∃ n, a = .read n) ∨ a = .taskStep true

/-- The handler goes on to its end. -/
theorem handlerStep_ne_none {h : HandlerPlace} (hhandler : s.handler = some h) :
    s.handlerStep ≠ none := by
  unfold Model.SspCharQueue.handlerStep
  rw [hhandler]
  cases h with
  | receiveFromISR rcvd =>
    simp only
    split_ifs
    · exact Option.some_ne_none _
    · cases s.tx.receive <;> exact Option.some_ne_none _
  | receive | sendFromISR =>
    simp only
    split_ifs <;> exact Option.some_ne_none _
  | _ => exact Option.some_ne_none _

/-- The task does not wait while it transmits. -/
theorem taskStep_ne_none {e : Bool} (h : WillFill s.place ∨ Masked s.place) :
    s.taskStep e ≠ none := by
  unfold Model.SspCharQueue.taskStep
  cases hplace : s.place with
  | send caller b i =>
    simp only
    cases b[i]? with
    | none => exact Option.some_ne_none _
    | some c =>
      simp only
      split_ifs <;> exact Option.some_ne_none _
  | fill caller b i statement => exact Option.some_ne_none _
  | _ =>
    rw [hplace] at h
    exact h.elim False.elim False.elim

/-- A machine is quiet whose task waits and whose SPI is at rest. -/
theorem quiet_of_idle (htask : s.taskStep false = none) (hnone : s.handler = none)
    (hshift : s.spi.shift = none) (hrxne : s.spi.rxne = false) : Quiet s := by
  intro a h
  cases a with
  | write b => exact .inl ⟨b, rfl⟩
  | read n => exact .inr (.inl ⟨n, rfl⟩)
  | taskStep e =>
    cases e with
    | false => exact absurd (by simp [machine, htask]) h
    | true => exact .inr (.inr rfl)
  | shifted w => exact absurd (by simp [machine, hshift]) h
  | enterHandler => exact absurd (by simp [machine, hrxne]) h
  | handlerStep => exact absurd (by simp [machine, Model.SspCharQueue.handlerStep, hnone]) h

/-- What can happen by itself does not, in a quiet state. -/
theorem Quiet.refused (hq : Quiet s) (hwrite : ∀ b, a ≠ .write b) (hread : ∀ n, a ≠ .read n)
    (hexpired : a ≠ .taskStep true) : (machine txCapacity rxCapacity).step s a = none := by
  by_contra h
  obtain ⟨b, hb⟩ | ⟨n, hn⟩ | he := hq a h
  · exact hwrite b hb
  · exact hread n hn
  · exact hexpired he

/-- Where nothing can happen the handler is left. -/
theorem Quiet.handler_eq_none (hq : Quiet s) : s.handler = none := by
  by_contra h
  obtain ⟨place, hhandler⟩ := Option.ne_none_iff_exists'.mp h
  exact handlerStep_ne_none hhandler
    (hq.refused (a := .handlerStep) (by simp) (by simp) (by simp))

/-- Where nothing can happen no word is being shifted out. -/
theorem Quiet.shift_eq_none (hq : Quiet s) : s.spi.shift = none := by
  have h := hq.refused (a := .shifted 0) (by simp) (by simp) (by simp)
  simp only [machine] at h
  cases hshift : s.spi.shift with
  | none => rfl
  | some c => simp [hshift] at h

/-- Where nothing can happen the task waits. -/
theorem Quiet.taskStep_eq_none (hq : Quiet s) : s.taskStep false = none := by
  have h := hq.refused (a := .taskStep false) (by simp) (by simp) (by simp)
  simpa only [machine, if_pos hq.handler_eq_none] using h

/-- The task does not wait while it transmits. -/
theorem Quiet.not_transmitting (hq : Quiet s) : ¬ (WillFill s.place ∨ Masked s.place) :=
  fun h => taskStep_ne_none h hq.taskStep_eq_none

/-- Where nothing can happen no word waits for the handler. -/
theorem Quiet.rxne_eq_false (hq : Quiet s) (hl : Live s) : s.spi.rxne = false := by
  have h := hq.refused (a := .enterHandler) (by simp) (by simp) (by simp)
  have henabled := hl.enabled fun h => hq.not_transmitting (.inr h)
  simp only [machine, henabled, hq.handler_eq_none] at h
  simpa using h

/-- In a quiet state nothing has yet to be shifted out. -/
theorem pending_of_quiet (hs : Safe s) (hl : Live s) (hq : Quiet s) : pending s = [] := by
  have hnone := hq.handler_eq_none
  have hshift := hq.shift_eq_none
  have hempty : s.tx.items = [] := by
    refine (hl.items_or_onWay hnone fun h => hq.not_transmitting (.inl h)).resolve_right ?_
    simp [onWay, hq.rxne_eq_false hl, hshift]
  have hhand : taskHand s.place = [] := by
    cases h : s.place with
    | fill caller b i statement =>
      cases statement with
      | peripheralWrite c => exact absurd (.inr (by rw [h]; trivial)) hq.not_transmitting
      | disableIT | testTxe | receive | enableIT => rfl
    | _ => rfl
  simp [pending, words, hshift, hs.busy hshift, hhand, hnone, handlerHand, hempty]

/-- **Everything is sent.**  In every run in which the handler keeps up with the SPI, every byte
accepted that no clear has found in the queue has been shifted out by when nothing happens any
more: neither the task nor the handler leaves a byte behind in the queue.
SOURCE: FreeRTOS_stm32f4_ssp.c:242-264, 397-440, 647-798, IOUtils_CharQueueTxAndRx.h:121-166 -/
theorem everything_sent {received : UInt8} {rxne drRead : Bool} {as : List Event}
    {os : List (List Output)}
    (hprompt : (machine txCapacity rxCapacity).Along Prompt (configured received rxne drRead) as)
    (hrun : (machine txCapacity rxCapacity).exec (configured received rxne drRead) as =
      some (s', os))
    (hquiet : Quiet s') : busBytes os.flatten = os.flatten.foldl toSend [] := by
  have hrun' := Machine.invariant_of_outputs (M := machine txCapacity rxCapacity) (w := [])
    (fun w s => Safe s ∧ Live s ∧ InOrder w s) Prompt
    (fun w s a s' o hI hP hstep =>
      have h := happens_of_step hstep
      ⟨hI.1.step h, hI.2.1.step hI.1 hP h, hI.2.2.step hI.1 h⟩)
    ⟨safe_configured received rxne drRead, live_configured received rxne drRead, rfl⟩ hprompt hrun
  obtain ⟨hs, hl, horder⟩ := hrun'
  unfold InOrder at horder
  rwa [pending_of_quiet hs hl hquiet, List.append_nil] at horder

/-- After the second byte the handler finds the queue empty. -/
theorem everything_sent_twoBytes :
    ∃ (s' : SspCharQueue 4 4) (os : List (List Output)),
      (machine 4 4).exec (configured 0 false false)
          (twoBytes ++ .enterHandler :: List.replicate 3 .handlerStep) = some (s', os) ∧
        Quiet s' ∧ busBytes os.flatten = os.flatten.foldl toSend [] := by
  have hrun : (machine 4 4).exec (configured 0 false false)
      (twoBytes ++ .enterHandler :: List.replicate 3 .handlerStep) = some (_, _) := rfl
  exact ⟨_, _, hrun, quiet_of_idle rfl rfl rfl rfl,
    everything_sent (by decide) hrun (quiet_of_idle rfl rfl rfl rfl)⟩

end SspCharQueue

end Resmod.Analysis
