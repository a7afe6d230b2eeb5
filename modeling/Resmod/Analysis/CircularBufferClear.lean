import Resmod.Analysis.CircularBufferRx

/-!
# Clearing the circular buffer while bytes arrive

`vIOUtilsClearRxCircularBuffer` leaves the interrupt enabled.  A byte that the handler stores
after the clear has set the count to zero, and before it has set the write index to zero, is
counted and never read.  A history variable counts these bytes, and keeps those stored and
returned since: what reads get is what has been stored since, and the count of the buffer
stays ahead of its contents until the next clear.
-/

set_option autoImplicit false

namespace Resmod.Analysis

open Resmod.Library Resmod.Model

namespace CircularBufferRx

open Resmod.Model.CircularBufferRx CircularBuffer

variable {fullAssert : Bool} {s s' : CircularBufferRx} {a : Event} {o : List Output}

/-- The number of bytes that the handler has stored between the statements of the last clear
on the count and on the write index, and the bytes stored and returned since the latter. -/
structure SinceClear where
  stale : ℕ
  stored : List UInt8
  returned : List UInt8
  deriving DecidableEq

/-- The history after a step: the statement of a clear on the count resets the number, the one
on the write index the bytes, and what is stored in between counts as stale. -/
def SinceClear.next (k : SinceClear) (s : CircularBufferRx) (a : Event) (_ : CircularBufferRx)
    (o : List Output) : SinceClear :=
  match a, s.place with
  | .taskStep _, .clearCharCount => { k with stale := 0 }
  | .taskStep _, .clearWriteIndex => { k with stored := [], returned := [] }
  | _, .clearWriteIndex => { k with stale := k.stale + (storedBytes o).length }
  | _, _ =>
    { k with stored := k.stored ++ storedBytes o, returned := k.returned ++ returnedBytes o }

variable {k : SinceClear}

/-- Apart from the two statements of a clear, the bytes stored and returned are recorded. -/
theorem SinceClear.next_of_ne (hcount : s.place ≠ .clearCharCount)
    (hwrite : s.place ≠ .clearWriteIndex) :
    k.next s a s' o = { k with
      stored := k.stored ++ storedBytes o
      returned := k.returned ++ returnedBytes o } := by
  unfold SinceClear.next
  split <;> simp_all

/-- The count is cleared: no byte is ahead of it. -/
theorem SinceClear.next_clearCharCount {e : Bool} (hplace : s.place = .clearCharCount) :
    k.next s (.taskStep e) s' o = { k with stale := 0 } := by
  simp [SinceClear.next, hplace]

/-- The write index is cleared: the bytes are recorded from here. -/
theorem SinceClear.next_clearWriteIndex {e : Bool} (hplace : s.place = .clearWriteIndex) :
    k.next s (.taskStep e) s' o = { k with stored := [], returned := [] } := by
  simp [SinceClear.next, hplace]

/-- A step of the handler or of the receiver that stores nothing is not recorded. -/
theorem SinceClear.next_of_nothing (hstored : storedBytes o = []) (hreturned : returnedBytes o = [])
    (ha : ∀ e, a ≠ .taskStep e) : k.next s a s' o = k := by
  unfold SinceClear.next
  split
  · exact absurd rfl (ha _)
  · exact absurd rfl (ha _)
  · rw [hstored, List.length_nil, Nat.add_zero]
  · rw [hstored, hreturned, List.append_nil, List.append_nil]

/-- The read index has been cleared; the write index and the count are within the buffer. -/
structure HalfCleared (r : CircularBufferRxState) : Prop where
  length_pos : 0 < r.usBufferLength
  length_lt : r.usBufferLength < 2 ^ 16
  allocated : r.usBufferLength ≤ r.pucBufferStart.length
  readIndex : r.usNextReadIndex = 0
  writeIndex_lt : r.usNextWriteIndex < r.usBufferLength
  count_le : r.usCharCount ≤ r.usBufferLength

/-- A byte that is stored in the middle of a clear is counted. -/
theorem HalfCleared.put {r : CircularBufferRxState} (h : HalfCleared r)
    (hspace : r.usCharCount < r.usBufferLength) (c : UInt8) :
    HalfCleared (r.put c) ∧ (r.put c).usCharCount = r.usCharCount + 1 := by
  have hlt := h.length_lt
  have hcount : (r.put c).usCharCount = r.usCharCount + 1 :=
    Nat.mod_eq_of_lt (show r.usCharCount + 1 < 2 ^ 16 by omega)
  refine ⟨⟨h.length_pos, hlt, ?_, h.readIndex, ?_, hcount.le.trans hspace⟩, hcount⟩
  · show r.usBufferLength ≤ (r.pucBufferStart.set _ _).length
    rw [List.length_set]
    exact h.allocated
  · have hnext : (r.put c).usNextWriteIndex = (r.usNextWriteIndex + 1) % r.usBufferLength :=
      next_index h.writeIndex_lt hlt
    rw [hnext]
    exact Nat.mod_lt _ h.length_pos

/-- The semaphore and the error state are not part of it. -/
theorem HalfCleared.of_sameRing {r r' : CircularBufferRxState} (h : HalfCleared r)
    (hring : SameRing r r') : HalfCleared r' := by
  obtain ⟨hcells, hlen, hread, hwrite, hcount⟩ := hring
  obtain ⟨h₁, h₂, h₃, h₄, h₅, h₆⟩ := h
  rw [← hlen] at h₁ h₂ h₃ h₅ h₆
  rw [← hcells] at h₃
  rw [← hread] at h₄
  rw [← hwrite] at h₅
  rw [← hcount] at h₆
  exact ⟨h₁, h₂, h₃, h₄, h₅, h₆⟩

/-- The count is `stale` ahead of the bytes, and what reads have returned since the clear, got
so far and can still get is what has been stored since. -/
structure Accounted (k : SinceClear) (s : CircularBufferRx) : Prop where
  queue : Queue k.stale s.ring
  soFar_le : ∀ b i, reading s.place = some (b, i) → i ≤ b.length
  bytes : k.returned ++ progress s.place ++ contents k.stale s.ring = k.stored

/-- What holds of the circular buffer, by where the task is in a clear. -/
def Clearing (k : SinceClear) (s : CircularBufferRx) : Prop :=
  match s.place with
  | .clearCharCount => HalfCleared s.ring
  | .clearWriteIndex => HalfCleared s.ring ∧ s.ring.usCharCount = k.stale
  | _ => Accounted k s

/-- Outside a clear the invariant is the account. -/
theorem clearing_of_ne (hcount : s.place ≠ .clearCharCount) (hwrite : s.place ≠ .clearWriteIndex) :
    Clearing k s ↔ Accounted k s := by
  unfold Clearing
  split <;> simp_all

/-- Outside a clear the task is at none of its statements. -/
theorem NotClearing.ne {p : Place} (h : NotClearing p) :
    p ≠ .clearCharCount ∧ p ≠ .clearWriteIndex := by
  constructor <;> rintro rfl <;> simp [NotClearing, reading] at h

/-- A step that leaves the read in progress as it is, and the buffer. -/
theorem Accounted.of_sameRing (h : Accounted k s) (hring : SameRing s.ring s'.ring)
    (hreading : reading s'.place = reading s.place) : Accounted k s' where
  queue := hring.queue h.queue
  soFar_le := by
    rw [hreading]
    exact h.soFar_le
  bytes := by
    rw [progress, hreading, hring.contents_eq]
    exact h.bytes

/-- A byte is stored, and can be read. -/
theorem Accounted.store (h : Accounted k s) (hspace : s.ring.usCharCount < s.ring.usBufferLength)
    {c : UInt8} (hplace : s'.place = s.place) (hring : s'.ring = s.ring.put c) :
    Accounted { k with stored := k.stored ++ [c], returned := k.returned ++ [] } s' := by
  obtain ⟨hqueue, hcontents⟩ := h.queue.put hspace c
  refine ⟨?_, ?_, ?_⟩
  · rw [hring]
    exact hqueue
  · rw [hplace]
    exact h.soFar_le
  · show k.returned ++ [] ++ progress s'.place ++ contents k.stale s'.ring = k.stored ++ [c]
    rw [hplace, hring, hcontents, List.append_nil, ← List.append_assoc, h.bytes]

/-- A step that leaves the task where it is and the buffer as it is. -/
theorem Clearing.of_sameRing (hs : Clearing k s) (hplace : s'.place = s.place)
    (hring : SameRing s.ring s'.ring) (hstored : storedBytes o = [])
    (hreturned : returnedBytes o = []) (ha : ∀ e, a ≠ .taskStep e) :
    Clearing (k.next s a s' o) s' := by
  rw [SinceClear.next_of_nothing hstored hreturned ha]
  unfold Clearing at hs ⊢
  rw [hplace]
  cases hp : s.place <;> rw [hp] at hs
  case clearCharCount => exact HalfCleared.of_sameRing hs hring
  case clearWriteIndex => exact ⟨hs.1.of_sameRing hring, hring.usCharCount.trans hs.2⟩
  all_goals exact Accounted.of_sameRing hs hring (by rw [hplace])

/-- A byte is stored, also in the middle of a clear. -/
theorem Clearing.store (hs : Clearing k s) (hspace : s.ring.usCharCount < s.ring.usBufferLength)
    {c : UInt8} (hplace : s'.place = s.place) (hring : s'.ring = s.ring.put c) :
    Clearing (k.next s .handlerStep s' [.stored c]) s' := by
  unfold Clearing at hs ⊢
  unfold SinceClear.next
  rw [hplace]
  cases hp : s.place <;> rw [hp] at hs
  case clearCharCount =>
    rw [hring]
    exact (hs.put hspace c).1
  case clearWriteIndex =>
    obtain ⟨hcleared, hcount⟩ := hs.1.put hspace c
    rw [hring]
    exact ⟨hcleared, by rw [hcount, hs.2]; rfl⟩
  all_goals exact Accounted.store hs hspace hplace hring

/-- A step of a read, or of the handler outside a clear. -/
theorem Happens.accounted (h : Happens fullAssert s a s' o) (ha : a ≠ .clear)
    (hplace : NotClearing s.place) (hs : Clearing k s) : Clearing (k.next s a s' o) s' := by
  rw [clearing_of_ne hplace.ne.1 hplace.ne.2] at hs
  obtain ⟨⟨hqueue', hplace', hsoFar'⟩, hconserves⟩ :=
    h.receiving ha ⟨hs.queue, hplace, hs.soFar_le⟩
  rw [SinceClear.next_of_ne hplace.ne.1 hplace.ne.2, clearing_of_ne hplace'.ne.1 hplace'.ne.2]
  refine ⟨hqueue', hsoFar', ?_⟩
  rw [Conserves] at hconserves
  rw [← hs.bytes, List.append_assoc, List.append_assoc, ← List.append_assoc (returnedBytes o),
    hconserves]
  simp only [List.append_assoc]

/-- A statement of a clear that leaves the indices and the count. -/
theorem Accounted.goto (hs : Accounted k s) (hcount : s.place ≠ .clearCharCount)
    (hwrite : s.place ≠ .clearWriteIndex) (hring : SameRing s.ring s'.ring)
    (hreading : reading s'.place = reading s.place) (hcount' : s'.place ≠ .clearCharCount)
    (hwrite' : s'.place ≠ .clearWriteIndex) : Clearing (k.next s a s' []) s' := by
  rw [SinceClear.next_of_ne hcount hwrite, clearing_of_ne hcount' hwrite']
  have hsame := hs.of_sameRing hring hreading
  exact ⟨hsame.queue, hsame.soFar_le, by simpa [storedBytes, returnedBytes] using hsame.bytes⟩

/-- **A step in the middle of a clear, or outside.** -/
theorem Happens.clearing (h : Happens fullAssert s a s' o) (hs : Clearing k s) :
    Clearing (k.next s a s' o) s' := by
  by_cases hread : NotClearing s.place ∧ a ≠ .clear
  · exact h.accounted hread.2 hread.1 hs
  cases h with
  | overrun => exact hs.of_sameRing rfl (.refl _) rfl rfl (by simp)
  | received => exact hs.of_sameRing rfl (.refl _) rfl rfl (by simp)
  | enterHandler => exact hs.of_sameRing rfl (.refl _) rfl rfl (by simp)
  | noSpace => exact hs.of_sameRing rfl ⟨rfl, rfl, rfl, rfl, rfl⟩ rfl rfl (by simp)
  | loopDone => exact hs.of_sameRing rfl (.refl _) rfl rfl (by simp)
  | leave => exact hs.of_sameRing rfl (.refl _) (by split <;> rfl) (by split <;> rfl) (by simp)
  | give =>
    refine hs.of_sameRing rfl ?_ rfl rfl (by simp)
    dsimp only
    split
    · exact sameRing_semaphoreGive _
    · exact .refl _
  | store _ _ hspace => exact hs.store hspace rfl rfl
  | readMore hplace | readNothing hplace => exact absurd ⟨.inl hplace, by simp⟩ hread
  | take _ hplace | takeTimeOut _ hplace | disable _ hplace | readChars _ hplace
  | assertFailed _ hplace | enable _ hplace | again _ hplace | done _ hplace =>
    exact absurd ⟨.inr (by rw [hplace]; rfl), by simp⟩ hread
  | clear hplace | clearErrorState _ hplace | clearSemaphore _ hplace =>
    rw [clearing_of_ne (by simp [hplace]) (by simp [hplace])] at hs
    refine hs.goto (by simp [hplace]) (by simp [hplace]) ⟨rfl, rfl, rfl, rfl, rfl⟩ ?_ (by simp)
      (by simp)
    rw [hplace]
    rfl
  | clearReadIndex _ hplace =>
    rw [clearing_of_ne (by simp [hplace]) (by simp [hplace])] at hs
    have hqueue := hs.queue
    exact ⟨hqueue.length_pos, hqueue.length_lt, hqueue.allocated, rfl, hqueue.writeIndex_lt,
      hqueue.count_le⟩
  | clearCharCount _ hplace =>
    rw [Clearing, hplace] at hs
    rw [SinceClear.next_clearCharCount hplace]
    exact ⟨⟨hs.length_pos, hs.length_lt, hs.allocated, hs.readIndex, hs.writeIndex_lt,
      Nat.zero_le _⟩, rfl⟩
  | clearWriteIndex _ hplace =>
    rw [Clearing, hplace] at hs
    rw [SinceClear.next_clearWriteIndex hplace]
    obtain ⟨hcleared, hcount⟩ := hs
    refine ⟨⟨hcleared.length_pos, hcleared.length_lt, hcleared.allocated,
      hcleared.readIndex.trans_lt hcleared.length_pos, ?_, hcount.ge, hcleared.count_le⟩,
      nofun, ?_⟩
    · show 0 = (s.ring.usNextReadIndex + (s.ring.usCharCount - k.stale)) % s.ring.usBufferLength
      rw [hcleared.readIndex, hcount, Nat.sub_self, Nat.zero_add, Nat.zero_mod]
    · show [] ++ [] ++ window _ _ (s.ring.usCharCount - k.stale) = []
      rw [hcount, Nat.sub_self]
      rfl

/-- With assertions a read that finds only bytes that are counted and cannot be read does not
return from the reading function. -/
theorem Accounted.halts (h : Accounted k s) (hstale : 0 < k.stale)
    (hempty : contents k.stale s.ring = []) (hnone : s.handler = none) {b : List UInt8} {i : ℕ}
    (hplace : s.place = .readChars b i) (e : Bool) :
    ∃ t, (machine true).step s (.taskStep e) = some (t, []) ∧ t.place = .halted b i := by
  have hqueue := h.queue
  have hcount := hqueue.stale_le
  have hread := hqueue.readIndex_lt
  obtain ⟨r, hr, hsoFar, hbytes, hhalted⟩ := xIOUtilsReadCharsFromCircularBuffer_spec hqueue
    (b := b.drop i) (n := b.length - i) (by rw [List.length_drop]) true
  have hzero : r.xBytesReadSoFar = 0 := by
    rw [hbytes, readableBytes, hempty, List.length_nil, Nat.zero_min, ite_self]
  have hfails : AssertFails k.stale s.ring (b.length - i) := by
    refine ⟨by omega, ?_⟩
    rw [hempty, List.length_nil]
    omega
  have hbuffer : r.pucBuffer = b.drop i := by
    rw [hsoFar.pucBuffer, hzero, List.take_zero, List.drop_zero, List.nil_append]
  refine ⟨{ s with ring := r.pxCircularBuffer, place := .halted b i }, ?_, rfl⟩
  refine (if_pos hnone).trans ?_
  simp only [taskStep, hplace, hr, Option.map_some, hhalted.mpr ⟨rfl, hfails⟩, if_true, hbuffer,
    hzero, List.take_append_drop, Nat.add_zero]

/-- **The count after a clear.**  In every run, outside a clear, the indices describe a queue,
and the count is ahead of it by the bytes that were stored between the statements of the last
clear on the count and on the write index.  What reads have returned since, got so far and can
still get is what has been stored since the latter, so that those bytes are never read; the
buffer holds as many fewer, and with assertions a read that finds nothing else halts. -/
theorem charCount_after_clear {k₀ : ℕ} {as : List Event} {os : List (List Output)}
    (hs : Queue k₀ s.ring) (hplace : s.place = .outside)
    (hrun : ((machine fullAssert).observe SinceClear.next).exec
      (s, ⟨k₀, contents k₀ s.ring, []⟩) as = some ((s', k), os))
    (hcount : s'.place ≠ .clearCharCount) (hwrite : s'.place ≠ .clearWriteIndex) :
    Queue k.stale s'.ring ∧
      s'.ring.usCharCount = k.stale + (contents k.stale s'.ring).length ∧
      k.returned ++ progress s'.place ++ contents k.stale s'.ring = k.stored ∧
      (contents k.stale s'.ring).length + k.stale ≤ s'.ring.usBufferLength ∧
      (fullAssert = true → 0 < k.stale → contents k.stale s'.ring = [] → s'.handler = none →
        ∀ b i e, s'.place = .readChars b i → ∃ t, (machine fullAssert).step s' (.taskStep e) =
          some (t, []) ∧ t.place = .halted b i) := by
  have hstart : Clearing ⟨k₀, contents k₀ s.ring, []⟩ s := by
    rw [clearing_of_ne (by simp [hplace]) (by simp [hplace])]
    refine ⟨hs, ?_, ?_⟩ <;> rw [hplace]
    · exact nofun
    · rfl
  have hclearing : Clearing k s' := Machine.invariant_of_exec
    (fun p : CircularBufferRx × SinceClear => Clearing p.2 p.1)
    (fun p a p' o hp hstep => by
      obtain ⟨hstep', hk⟩ := Machine.observe_step_eq_some.mp hstep
      rw [hk]
      exact (happens_of_step hstep').clearing hp)
    hstart hrun
  have haccounted := (clearing_of_ne hcount hwrite).mp hclearing
  have hqueue := haccounted.queue
  have hstale := hqueue.stale_le
  have hle := hqueue.count_le
  have hlength := hqueue.length_contents
  refine ⟨hqueue, by omega, haccounted.bytes, by omega, ?_⟩
  rintro rfl hpos hempty hnone b i e hread
  exact haccounted.halts hpos hempty hnone hread e

/-- Something happens between the statements of a clear on the count and on the write index. -/
def interruptedClear (received : List Event) : List Event :=
  [.clear, .taskStep false, .taskStep false, .taskStep false] ++ received ++
    [.taskStep false, .taskStep false]

/-- One byte is received meanwhile: there is room for one byte still, which is received and
read.  Two are received: a read finds them and halts. -/
theorem charCount_after_interruptedClear :
    (∃ s' os, ((machine true).observe SinceClear.next).exec (twoCells, ⟨0, [], []⟩)
        (interruptedClear (byteStored 5) ++ byteStored 6 ++ oneByteRead) =
          some ((s', ⟨1, [6], [6]⟩), os) ∧
      Queue 1 s'.ring ∧ s'.ring.usCharCount = 1 + (contents 1 s'.ring).length ∧
      [6] ++ progress s'.place ++ contents 1 s'.ring = [6] ∧
      (contents 1 s'.ring).length + 1 ≤ s'.ring.usBufferLength) ∧
    ∃ s' os, ((machine true).observe SinceClear.next).exec (twoCells, ⟨0, [], []⟩)
        (interruptedClear (byteStored 5 ++ byteStored 6) ++
          [.read [0], .taskStep false, .taskStep false]) = some ((s', ⟨2, [], []⟩), os) ∧
      ∃ t, (machine true).step s' (.taskStep false) = some (t, []) ∧
        t.place = .halted [0] 0 := by
  have hrun : ((machine true).observe SinceClear.next).exec (twoCells, ⟨0, [], []⟩)
      (interruptedClear (byteStored 5) ++ byteStored 6 ++ oneByteRead) =
        some ((_, ⟨1, [6], [6]⟩), _) := rfl
  have hrun' : ((machine true).observe SinceClear.next).exec (twoCells, ⟨0, [], []⟩)
      (interruptedClear (byteStored 5 ++ byteStored 6) ++
        [.read [0], .taskStep false, .taskStep false]) = some ((_, ⟨2, [], []⟩), _) := rfl
  have hread := charCount_after_clear receiving_twoCells.queue rfl hrun (by decide) (by decide)
  have hhalts := charCount_after_clear receiving_twoCells.queue rfl hrun' (by decide) (by decide)
  exact ⟨⟨_, _, hrun, hread.1, hread.2.1, hread.2.2.1, hread.2.2.2.1⟩,
    _, _, hrun', hhalts.2.2.2.2 rfl (by decide) (by decide) rfl _ _ false rfl⟩

end CircularBufferRx

end Resmod.Analysis
