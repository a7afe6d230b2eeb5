import Resmod.Library.Window
import Resmod.Model.CircularBufferRx
import Mathlib.Tactic.Common

/-!
# The circular buffer is a queue, unless it is full

`Queue stale s` says what the indices of a circular buffer mean: the oldest byte is at the
read index, the write index is behind the newest one, and the count exceeds the number of
bytes by `stale` (nothing, unless a clear was interrupted).  Every operation keeps it, and
`contents stale s` are the bytes.

With a full buffer the two indices are equal, which the reading function takes for an empty
one.  It asserts that an attempt finds bytes, so that with assertions it does not return then;
`xIOUtilsReadCharsFromCircularBuffer_spec` has all the cases.
-/

set_option autoImplicit false

namespace Resmod.Analysis

open Resmod.Library Resmod.Model

namespace CircularBuffer

open CircularBufferRxState

/-- The cells of the ring: the length may have been cut by the cast to 16 bits. -/
def cells (s : CircularBufferRxState) : List UInt8 := s.pucBufferStart.take s.usBufferLength

/-- The bytes that have been stored and not been read, the oldest first. -/
def contents (stale : ℕ) (s : CircularBufferRxState) : List UInt8 :=
  window (cells s) s.usNextReadIndex (s.usCharCount - stale)

/-- The indices and the count describe a queue, `stale` bytes of the count apart. -/
structure Queue (stale : ℕ) (s : CircularBufferRxState) : Prop where
  length_pos : 0 < s.usBufferLength
  length_lt : s.usBufferLength < 2 ^ 16
  allocated : s.usBufferLength ≤ s.pucBufferStart.length
  readIndex_lt : s.usNextReadIndex < s.usBufferLength
  writeIndex :
    s.usNextWriteIndex = (s.usNextReadIndex + (s.usCharCount - stale)) % s.usBufferLength
  stale_le : stale ≤ s.usCharCount
  count_le : s.usCharCount ≤ s.usBufferLength

variable {stale : ℕ} {s : CircularBufferRxState} {b : List UInt8} {n : ℕ}

/-- The ring has as many cells as `usBufferLength` says. -/
theorem Queue.length_cells (h : Queue stale s) : (cells s).length = s.usBufferLength := by
  rw [cells, List.length_take, Nat.min_eq_left h.allocated]

/-- As many bytes are queued as `usCharCount` says, but for the stale ones. -/
theorem Queue.length_contents (h : Queue stale s) :
    (contents stale s).length = s.usCharCount - stale := by
  have hcount := h.count_le
  rw [contents, length_window]
  rw [h.length_cells]
  omega

/-- The next byte is stored within the ring. -/
theorem Queue.writeIndex_lt (h : Queue stale s) : s.usNextWriteIndex < s.usBufferLength := by
  rw [h.writeIndex]
  exact Nat.mod_lt _ h.length_pos

/-- Every cell of the buffer holds a byte that has not been read. -/
def BufferFull (stale : ℕ) (s : CircularBufferRxState) : Prop :=
  (contents stale s).length = s.usBufferLength

instance (stale : ℕ) (s : CircularBufferRxState) : Decidable (BufferFull stale s) :=
  inferInstanceAs (Decidable ((contents stale s).length = s.usBufferLength))

/-- In a full buffer `usCharCount` has reached the length of the ring. -/
theorem Queue.charCount_of_full (h : Queue stale s) (hfull : BufferFull stale s) :
    s.usBufferLength ≤ s.usCharCount := by
  rw [BufferFull, h.length_contents] at hfull
  omega

/-! ## The operations -/

/-- The two states differ in the semaphore and the error state at most. -/
structure SameRing (s s' : CircularBufferRxState) : Prop where
  pucBufferStart : s'.pucBufferStart = s.pucBufferStart
  usBufferLength : s'.usBufferLength = s.usBufferLength
  usNextReadIndex : s'.usNextReadIndex = s.usNextReadIndex
  usNextWriteIndex : s'.usNextWriteIndex = s.usNextWriteIndex
  usCharCount : s'.usCharCount = s.usCharCount

/-- A ring is the same as itself. -/
theorem SameRing.refl (s : CircularBufferRxState) : SameRing s s := ⟨rfl, rfl, rfl, rfl, rfl⟩

/-- The semaphore does not touch the ring. -/
theorem sameRing_semaphoreGive (s : CircularBufferRxState) : SameRing s s.semaphoreGive :=
  ⟨rfl, rfl, rfl, rfl, rfl⟩

/-- The same ring describes a queue as well. -/
theorem SameRing.queue {s' : CircularBufferRxState} (h : SameRing s s') (hs : Queue stale s) :
    Queue stale s' := by
  obtain ⟨hcells, hlen, hread, hwrite, hcount⟩ := h
  obtain ⟨h₁, h₂, h₃, h₄, h₅, h₆, h₇⟩ := hs
  rw [← hlen] at h₁ h₂ h₃ h₄ h₅ h₇
  rw [← hcount] at h₅ h₆ h₇
  rw [← hread] at h₄ h₅
  rw [← hwrite] at h₅
  rw [← hcells] at h₃
  exact ⟨h₁, h₂, h₃, h₄, h₅, h₆, h₇⟩

/-- The same ring holds the same bytes. -/
theorem SameRing.contents_eq {s' : CircularBufferRxState} (h : SameRing s s') :
    contents stale s' = contents stale s := by
  rw [contents, contents, cells, cells, h.pucBufferStart, h.usBufferLength, h.usNextReadIndex,
    h.usCharCount]

/-- The same ring is full as well. -/
theorem BufferFull.of_sameRing {s' : CircularBufferRxState} (hs : BufferFull stale s)
    (h : SameRing s s') : BufferFull stale s' ∧ contents stale s' = contents stale s := by
  refine ⟨?_, h.contents_eq⟩
  rw [BufferFull, h.contents_eq, h.usBufferLength]
  exact hs

/-- A buffer that has just been configured is empty. -/
theorem queue_configured {m : List UInt8} (h : 0 < m.length % 2 ^ 16) :
    Queue 0 (configured m) where
  length_pos := h
  length_lt := Nat.mod_lt _ (by decide)
  allocated := Nat.mod_le _ _
  readIndex_lt := h
  writeIndex := (Nat.zero_mod _).symm
  stale_le := le_rfl
  count_le := Nat.zero_le _

/-- The index behind `i`, going round: the increment does not overflow. -/
theorem next_index {i l : ℕ} (hi : i < l) (hl : l < 2 ^ 16) :
    (if (i + 1) % 2 ^ 16 = l then 0 else (i + 1) % 2 ^ 16) = (i + 1) % l := by
  rw [Nat.mod_eq_of_lt (show i + 1 < 2 ^ 16 by omega)]
  by_cases h : i + 1 = l
  · rw [if_pos h, h, Nat.mod_self]
  · rw [if_neg h, Nat.mod_eq_of_lt (by omega)]

/-- **Storing a byte.**  Where there is space, the byte goes behind the others. -/
theorem Queue.put (h : Queue stale s) (hspace : s.usCharCount < s.usBufferLength) (c : UInt8) :
    Queue stale (s.put c) ∧ contents stale (s.put c) = contents stale s ++ [c] := by
  have hlt := h.length_lt
  have hstale := h.stale_le
  have hcount : (s.put c).usCharCount = s.usCharCount + 1 :=
    Nat.mod_eq_of_lt (show s.usCharCount + 1 < 2 ^ 16 by omega)
  have hwrite : (s.put c).usNextWriteIndex = (s.usNextWriteIndex + 1) % s.usBufferLength :=
    next_index h.writeIndex_lt hlt
  have hsub : s.usCharCount + 1 - stale = s.usCharCount - stale + 1 := by omega
  constructor
  · refine ⟨h.length_pos, hlt, ?_, h.readIndex_lt, ?_, by omega, hcount.le.trans hspace⟩
    · show s.usBufferLength ≤ (s.pucBufferStart.set _ _).length
      rw [List.length_set]
      exact h.allocated
    · rw [hwrite, hcount, hsub, h.writeIndex, Nat.mod_add_mod, Nat.add_assoc]
      rfl
  · have hcells : cells (s.put c) =
        (cells s).set ((s.usNextReadIndex + (s.usCharCount - stale)) % (cells s).length) c := by
      rw [h.length_cells, ← h.writeIndex]
      exact List.take_set
    rw [contents, hcells, hcount, hsub]
    apply window_set
    rw [h.length_cells]
    omega

/-- The bytes that an attempt takes for available: all of them up to the end of the buffer,
but none of a full buffer. -/
theorem Queue.xBytesAvailable_eq (h : Queue stale s) :
    s.xBytesAvailable =
      if s.usCharCount - stale = s.usBufferLength then 0
      else min (s.usCharCount - stale) (s.usBufferLength - s.usNextReadIndex) := by
  have hread := h.readIndex_lt
  have hcount := h.count_le
  have hwrite := h.writeIndex
  by_cases hwrap : s.usNextReadIndex + (s.usCharCount - stale) < s.usBufferLength
  · rw [Nat.mod_eq_of_lt hwrap] at hwrite
    rw [xBytesAvailable, if_pos (by omega), if_neg (by omega)]
    omega
  · rw [Nat.mod_eq_sub_mod (by omega), Nat.mod_eq_of_lt (by omega)] at hwrite
    rw [xBytesAvailable]
    split_ifs <;> omega

/-- The read index after bytes up to the end of the ring have been taken. -/
theorem Queue.readIndex_remove (h : Queue stale s) {k : ℕ}
    (hend : k ≤ s.usBufferLength - s.usNextReadIndex) :
    (s.remove k).usNextReadIndex = (s.usNextReadIndex + k) % s.usBufferLength := by
  have hlt := h.length_lt
  have hread := h.readIndex_lt
  show (if (s.usNextReadIndex + k) % 2 ^ 16 = s.usBufferLength then 0
    else (s.usNextReadIndex + k) % 2 ^ 16) = _
  rw [Nat.mod_eq_of_lt (show s.usNextReadIndex + k < 2 ^ 16 by omega)]
  by_cases hall : s.usNextReadIndex + k = s.usBufferLength
  · rw [if_pos hall, hall, Nat.mod_self]
  · rw [if_neg hall, Nat.mod_eq_of_lt (by omega)]

/-- The count after bytes have been taken that are queued. -/
theorem Queue.charCount_remove (h : Queue stale s) {k : ℕ} (hk : k ≤ s.usCharCount - stale) :
    (s.remove k).usCharCount = s.usCharCount - k := by
  have hlt := h.length_lt
  have hle := h.count_le
  show (s.usCharCount + 2 ^ 16 - k % 2 ^ 16) % 2 ^ 16 = _
  omega

/-- **Removing bytes.**  At most as many as there are up to the end of the buffer. -/
theorem Queue.remove (h : Queue stale s) {k : ℕ} (hk : k ≤ s.usCharCount - stale)
    (hend : k ≤ s.usBufferLength - s.usNextReadIndex) :
    Queue stale (s.remove k) ∧ contents stale (s.remove k) = (contents stale s).drop k := by
  have hread := h.readIndex_lt
  have hstale := h.stale_le
  have hle := h.count_le
  have hcount := h.charCount_remove hk
  have hnext := h.readIndex_remove hend
  have hsub : s.usCharCount - k - stale = s.usCharCount - stale - k := by omega
  constructor
  · refine ⟨h.length_pos, h.length_lt, h.allocated, ?_, ?_, by omega,
      hcount.le.trans ((Nat.sub_le _ _).trans hle)⟩
    · rw [hnext]
      exact Nat.mod_lt _ h.length_pos
    · have hsum : s.usNextReadIndex + k + (s.usCharCount - stale - k) =
          s.usNextReadIndex + (s.usCharCount - stale) := by omega
      show s.usNextWriteIndex = ((s.remove k).usNextReadIndex +
        ((s.remove k).usCharCount - stale)) % s.usBufferLength
      rw [hnext, hcount, hsub, Nat.mod_add_mod, hsum]
      exact h.writeIndex
  · rw [contents, contents, drop_window hk (by rw [h.length_cells]; omega), hnext, hcount, hsub]
    show window (cells s) _ _ = _
    rw [← h.length_cells, window_mod]

/-- What an attempt copies is the front of the contents. -/
theorem Queue.slice_eq (h : Queue stale s) {k : ℕ} (hk : k ≤ s.usCharCount - stale)
    (hend : k ≤ s.usBufferLength - s.usNextReadIndex) :
    slice s.pucBufferStart s.usNextReadIndex k = (contents stale s).take k := by
  have hread := h.readIndex_lt
  rw [contents, take_window hk, window_eq_slice (by rw [h.length_cells]; omega), cells, slice,
    slice, List.drop_take, List.take_take, Nat.min_eq_left hend]

/-! ## The reading function -/

/-- What the attempts made so far have done: the front of the contents is in the caller's
buffer, and the rest of the caller's buffer is as it was. -/
structure ReadSoFar (stale : ℕ) (s : CircularBufferRxState) (b : List UInt8) (n : ℕ)
    (r : CircularBufferRead) : Prop where
  queue : Queue stale r.pxCircularBuffer
  length : r.pxCircularBuffer.usBufferLength = s.usBufferLength
  errorState : r.pxCircularBuffer.usErrorState = s.usErrorState
  semaphore : r.pxCircularBuffer.xNewDataSemaphore = s.xNewDataSemaphore
  soFar_le : r.xBytesReadSoFar ≤ n
  soFar_le_count : r.xBytesReadSoFar ≤ s.usCharCount - stale
  count : r.pxCircularBuffer.usCharCount = s.usCharCount - r.xBytesReadSoFar
  readIndex : r.pxCircularBuffer.usNextReadIndex =
    (s.usNextReadIndex + r.xBytesReadSoFar) % s.usBufferLength
  rest : contents stale r.pxCircularBuffer = (contents stale s).drop r.xBytesReadSoFar
  pucBuffer : r.pucBuffer =
    (contents stale s).take r.xBytesReadSoFar ++ b.drop r.xBytesReadSoFar

/-- Before the first attempt nothing has been read. -/
theorem readSoFar_start (h : Queue stale s) (b : List UInt8) (n : ℕ) :
    ReadSoFar stale s b n ⟨s, b, 0, false⟩ :=
  ⟨h, rfl, rfl, rfl, Nat.zero_le _, Nat.zero_le _, rfl,
    (Nat.mod_eq_of_lt h.readIndex_lt).symm, rfl, rfl⟩

/-- An assertion that fails changes nothing. -/
theorem ReadSoFar.halt {r : CircularBufferRead} (h : ReadSoFar stale s b n r) :
    ReadSoFar stale s b n { r with halted := true } :=
  ⟨h.queue, h.length, h.errorState, h.semaphore, h.soFar_le, h.soFar_le_count, h.count,
    h.readIndex, h.rest, h.pucBuffer⟩

/-- The number of bytes that an attempt copies. -/
def attemptBytes (r : CircularBufferRead) (n : ℕ) : ℕ :=
  min r.pxCircularBuffer.xBytesAvailable (n - r.xBytesReadSoFar)

/-- An attempt copies no more than is queued, and nothing behind the end of the ring. -/
theorem attemptBytes_le {r : CircularBufferRead} (h : Queue stale r.pxCircularBuffer) (n : ℕ) :
    attemptBytes r n ≤ r.pxCircularBuffer.usCharCount - stale ∧
      attemptBytes r n ≤
        r.pxCircularBuffer.usBufferLength - r.pxCircularBuffer.usNextReadIndex := by
  have hread := h.readIndex_lt
  have havail := h.xBytesAvailable_eq
  rw [attemptBytes, havail]
  split_ifs <;> omega

/-- What an attempt does that passes the first assertion.  The second one holds: the read index
does not leave the buffer. -/
theorem attempt_eq_some {r : CircularBufferRead} {fullAssert : Bool}
    (h : Queue stale r.pxCircularBuffer) (hassert : ¬ (fullAssert = true ∧ attemptBytes r n = 0))
    (hmore : r.xBytesReadSoFar + attemptBytes r n ≤ r.pucBuffer.length) :
    r.attempt fullAssert n = some
      { pxCircularBuffer := r.pxCircularBuffer.remove (attemptBytes r n)
        pucBuffer := r.pucBuffer.take r.xBytesReadSoFar ++
          slice r.pxCircularBuffer.pucBufferStart r.pxCircularBuffer.usNextReadIndex
            (attemptBytes r n) ++ r.pucBuffer.drop (r.xBytesReadSoFar + attemptBytes r n)
        xBytesReadSoFar := r.xBytesReadSoFar + attemptBytes r n
        halted := false } := by
  have hlt := h.length_lt
  have hread := h.readIndex_lt
  have hallocated := h.allocated
  obtain ⟨-, hend⟩ := attemptBytes_le h n
  have hsrc : r.pxCircularBuffer.usNextReadIndex + attemptBytes r n ≤
      r.pxCircularBuffer.pucBufferStart.length := by omega
  have hinside : ¬ r.pxCircularBuffer.usBufferLength <
      (r.pxCircularBuffer.usNextReadIndex + attemptBytes r n) % 2 ^ 16 := by omega
  have hattempt : r.attempt fullAssert n = some
      { pxCircularBuffer := r.pxCircularBuffer.remove (attemptBytes r n)
        pucBuffer := _
        xBytesReadSoFar := r.xBytesReadSoFar + attemptBytes r n
        halted := fullAssert && decide (r.pxCircularBuffer.usBufferLength <
          (r.pxCircularBuffer.usNextReadIndex + attemptBytes r n) % 2 ^ 16) } :=
    (if_neg hassert).trans (congrArg (Option.map _) (copy_eq_some hsrc hmore))
  rw [hattempt, decide_eq_false hinside, Bool.and_false]

/-- As many bytes stand in front in the caller's buffer as have been read. -/
theorem ReadSoFar.length_front {r : CircularBufferRead} (h : ReadSoFar stale s b n r)
    (hs : Queue stale s) :
    ((contents stale s).take r.xBytesReadSoFar).length = r.xBytesReadSoFar := by
  rw [List.length_take, hs.length_contents, Nat.min_eq_left h.soFar_le_count]

/-- The caller's buffer keeps its length. -/
theorem ReadSoFar.length_pucBuffer {r : CircularBufferRead} (h : ReadSoFar stale s b n r)
    (hs : Queue stale s) (hn : n ≤ b.length) : r.pucBuffer.length = b.length := by
  have hsoFar := h.soFar_le
  rw [h.pucBuffer, List.length_append, h.length_front hs, List.length_drop]
  omega

/-- **An attempt** stays within both buffers and adds its bytes to those read so far.  With
assertions it halts if there are none. -/
theorem ReadSoFar.attempt {r : CircularBufferRead} (h : ReadSoFar stale s b n r)
    (hs : Queue stale s) (hn : n ≤ b.length) (fullAssert : Bool) :
    ∃ r', r.attempt fullAssert n = some r' ∧ ReadSoFar stale s b n r' ∧
      r'.xBytesReadSoFar = r.xBytesReadSoFar + attemptBytes r n ∧
      (r'.halted = true ↔ fullAssert = true ∧ attemptBytes r n = 0) := by
  by_cases hassert : fullAssert = true ∧ attemptBytes r n = 0
  · refine ⟨_, if_pos hassert, h.halt, ?_, by simp [hassert]⟩
    rw [hassert.2]
    rfl
  have hq := h.queue
  have hsoFar := h.soFar_le
  have hcount := h.count
  have hle := h.soFar_le_count
  obtain ⟨hk, hend⟩ := attemptBytes_le hq n
  have hmore : r.xBytesReadSoFar + attemptBytes r n ≤ n := by
    rw [attemptBytes]
    omega
  have hroom := hmore.trans (hn.trans (h.length_pucBuffer hs hn).ge)
  obtain ⟨hq', hrest'⟩ := hq.remove hk hend
  refine ⟨_, attempt_eq_some hq hassert hroom, ?_, rfl,
    iff_of_false (fun hfalse => Bool.noConfusion hfalse) hassert⟩
  refine ⟨hq', h.length, h.errorState, h.semaphore, hmore, ?_, ?_, ?_, ?_, ?_⟩
  · show r.xBytesReadSoFar + attemptBytes r n ≤ _
    omega
  · refine (hq.charCount_remove hk).trans ?_
    rw [hcount, Nat.sub_sub]
  · refine (hq.readIndex_remove hend).trans ?_
    rw [h.readIndex, h.length, Nat.mod_add_mod, Nat.add_assoc]
  · exact hrest'.trans (by rw [h.rest, List.drop_drop])
  · have hlenFront := h.length_front hs
    show r.pucBuffer.take r.xBytesReadSoFar ++ slice r.pxCircularBuffer.pucBufferStart
        r.pxCircularBuffer.usNextReadIndex (attemptBytes r n) ++
        r.pucBuffer.drop (r.xBytesReadSoFar + attemptBytes r n) =
      (contents stale s).take (r.xBytesReadSoFar + attemptBytes r n) ++
        b.drop (r.xBytesReadSoFar + attemptBytes r n)
    rw [hq.slice_eq hk hend, h.rest, List.take_add, h.pucBuffer, List.take_left' hlenFront,
      ← List.drop_drop, List.drop_left' hlenFront, List.drop_drop]

/-- The bytes that a read gets: as many as it asks for or as there are, and none from a full
buffer. -/
def readableBytes (stale : ℕ) (s : CircularBufferRxState) (n : ℕ) : ℕ :=
  if BufferFull stale s then 0 else min (contents stale s).length n

/-- An attempt finds no byte although the count is not zero: the read asks for none, the
buffer is full, or the count is ahead of the bytes, which end before the end of the buffer and
are fewer than asked for. -/
def AssertFails (stale : ℕ) (s : CircularBufferRxState) (n : ℕ) : Prop :=
  s.usCharCount ≠ 0 ∧ (n = 0 ∨ BufferFull stale s ∨
    0 < stale ∧ (contents stale s).length < n ∧
      s.usNextReadIndex + (contents stale s).length ≤ s.usBufferLength)

/-- What the read gets, by the count and the length. -/
theorem Queue.readableBytes_eq (h : Queue stale s) (n : ℕ) :
    readableBytes stale s n =
      if s.usCharCount - stale = s.usBufferLength then 0 else min (s.usCharCount - stale) n := by
  simp only [readableBytes, BufferFull, h.length_contents]

/-- No more is read than asked for. -/
theorem Queue.readableBytes_le (h : Queue stale s) (n : ℕ) : readableBytes stale s n ≤ n := by
  rw [h.readableBytes_eq]
  split_ifs
  · exact Nat.zero_le n
  · exact Nat.min_le_right _ _

/-- No more is read than there is. -/
theorem Queue.readableBytes_le_count (h : Queue stale s) (n : ℕ) :
    readableBytes stale s n ≤ s.usCharCount - stale := by
  rw [h.readableBytes_eq]
  split_ifs
  · exact Nat.zero_le _
  · exact Nat.min_le_left _ _

/-- What the first attempt copies. -/
theorem Queue.firstBytes (h : Queue stale s) (b : List UInt8) (n : ℕ) :
    attemptBytes ⟨s, b, 0, false⟩ n =
      if s.usCharCount - stale = s.usBufferLength then 0
      else min (min (s.usCharCount - stale) (s.usBufferLength - s.usNextReadIndex)) n := by
  rw [attemptBytes, h.xBytesAvailable_eq, Nat.sub_zero]
  split_ifs
  · exact Nat.zero_min n
  · rfl

/-- After a first attempt that has come to the end of the buffer the next cell is the first. -/
theorem ReadSoFar.readIndex_eq_zero {r : CircularBufferRead} (h : ReadSoFar stale s b n r)
    (hs : Queue stale s) (hend : r.xBytesReadSoFar = s.usBufferLength - s.usNextReadIndex) :
    r.pxCircularBuffer.usNextReadIndex = 0 := by
  rw [h.readIndex, hend, Nat.add_sub_cancel' hs.readIndex_lt.le, Nat.mod_self]

/-- The second attempt copies what the first one has left of the bytes that the read gets. -/
theorem ReadSoFar.secondBytes {r : CircularBufferRead} (h : ReadSoFar stale s b n r)
    (hs : Queue stale s) (hfirst : r.xBytesReadSoFar = attemptBytes ⟨s, b, 0, false⟩ n) :
    attemptBytes r n = readableBytes stale s n - r.xBytesReadSoFar := by
  have hstart := h.readIndex_eq_zero hs
  have hcount : r.pxCircularBuffer.usCharCount - stale =
      s.usCharCount - stale - r.xBytesReadSoFar := by
    rw [h.count, Nat.sub_right_comm]
  rw [attemptBytes, h.queue.xBytesAvailable_eq, hcount, h.length, hs.readableBytes_eq]
  rw [hs.firstBytes] at hfirst
  by_cases hfull : s.usCharCount - stale = s.usBufferLength
  · rw [if_pos hfull] at hfirst
    rw [hfirst, Nat.sub_zero, if_pos hfull, if_pos hfull, Nat.zero_min]
  · have hle : s.usCharCount - stale ≤ s.usBufferLength :=
      (Nat.sub_le _ _).trans hs.count_le
    rw [if_neg hfull] at hfirst
    rw [if_neg hfull, if_neg (by omega)]
    omega

/-- The first attempt copies no more than the read gets. -/
theorem Queue.firstBytes_le (h : Queue stale s) (b : List UInt8) (n : ℕ) :
    attemptBytes ⟨s, b, 0, false⟩ n ≤ readableBytes stale s n := by
  rw [h.firstBytes, h.readableBytes_eq]
  split_ifs
  · exact Nat.le_refl 0
  · exact min_le_min_right n (Nat.min_le_left _ _)

/-- A first attempt that copies nothing has nothing to copy. -/
theorem Queue.readableBytes_of_firstBytes (h : Queue stale s)
    (hnone : attemptBytes ⟨s, b, 0, false⟩ n = 0) : readableBytes stale s n = 0 := by
  have hread := h.readIndex_lt
  rw [h.firstBytes] at hnone
  rw [h.readableBytes_eq]
  split_ifs at hnone ⊢
  · rfl
  · omega

/-- Whether an assertion fails, by the bytes that the attempts copy: the first one none, or the
second one none of those that the first one has left over. -/
theorem Queue.assertFails_iff_bytes (h : Queue stale s) (b : List UInt8) (n : ℕ) :
    AssertFails stale s n ↔ s.usCharCount ≠ 0 ∧
      (attemptBytes ⟨s, b, 0, false⟩ n = 0 ∨
        attemptBytes ⟨s, b, 0, false⟩ n ≠ n ∧
          s.usCharCount ≠ attemptBytes ⟨s, b, 0, false⟩ n ∧
          readableBytes stale s n = attemptBytes ⟨s, b, 0, false⟩ n) := by
  have hread := h.readIndex_lt
  have hstale := h.stale_le
  have hle := h.count_le
  rw [h.firstBytes, h.readableBytes_eq, AssertFails]
  simp only [BufferFull, h.length_contents]
  by_cases hfull : s.usCharCount - stale = s.usBufferLength
  · simp [hfull]
  · simp only [hfull, if_false, false_or]
    omega

/-- **The reading function.**  It never leaves the two buffers.  From a circular buffer that
is not full it takes the oldest bytes, as many as there are up to those asked for, in order,
round the end of the buffer; a full buffer it leaves as it is, and gets no byte.  With
assertions it does not return where `AssertFails` says so. -/
theorem xIOUtilsReadCharsFromCircularBuffer_spec (h : Queue stale s) (hn : n ≤ b.length)
    (fullAssert : Bool) :
    ∃ r, xIOUtilsReadCharsFromCircularBuffer fullAssert s b n = some r ∧
      ReadSoFar stale s b n r ∧ r.xBytesReadSoFar = readableBytes stale s n ∧
      (r.halted = true ↔ fullAssert = true ∧ AssertFails stale s n) := by
  simp only [xIOUtilsReadCharsFromCircularBuffer, CircularBufferRead.loop]
  rw [h.assertFails_iff_bytes b n]
  by_cases hzero : s.usCharCount = 0
  · refine ⟨_, if_pos hzero, readSoFar_start h b n, ?_, by simp [hzero]⟩
    rw [h.readableBytes_eq, hzero, Nat.zero_sub, Nat.zero_min, ite_self]
  rw [if_neg hzero]
  have hmost := h.firstBytes_le b n
  have hsize := h.readableBytes_le n
  have hcount := h.readableBytes_le_count n
  obtain ⟨r₁, hr₁, hsoFar₁, hbytes₁, hhalted₁⟩ :=
    (readSoFar_start h b n).attempt h hn fullAssert
  rw [hr₁]
  rw [Nat.zero_add] at hbytes₁
  have hsecond := hsoFar₁.secondBytes h hbytes₁
  have hnothing := h.readableBytes_of_firstBytes (b := b) (n := n)
  rw [← hbytes₁] at hhalted₁ hmost hnothing ⊢
  by_cases hdone : r₁.halted = true ∨ n = r₁.xBytesReadSoFar
  · rw [hhalted₁] at hdone
    refine ⟨r₁, if_pos (by rwa [hhalted₁]), hsoFar₁, ?_, ?_⟩
    · rcases hdone with ⟨-, hnone⟩ | hall
      · rw [hnone, hnothing hnone]
      · omega
    · rw [hhalted₁]
      exact and_congr_right fun hassert => by omega
  simp only [if_neg hdone]
  rw [hhalted₁, not_or] at hdone
  obtain ⟨hrunning, hasked⟩ := hdone
  have hcount₁ := hsoFar₁.count
  by_cases hzero₁ : r₁.pxCircularBuffer.usCharCount = 0
  · refine ⟨r₁, if_pos hzero₁, hsoFar₁, ?_, ?_⟩
    · omega
    · rw [hhalted₁]
      exact and_congr_right fun hassert => by omega
  simp only [if_neg hzero₁]
  obtain ⟨r₂, hr₂, hsoFar₂, hbytes₂, hhalted₂⟩ := hsoFar₁.attempt h hn fullAssert
  rw [hr₂]
  rw [hsecond] at hbytes₂ hhalted₂
  refine ⟨r₂, by simp, hsoFar₂, by omega, ?_⟩
  rw [hhalted₂]
  refine and_congr_right fun hassert => ?_
  have hsome : r₁.xBytesReadSoFar ≠ 0 := fun hnone => hrunning ⟨hassert, hnone⟩
  omega

/-! ## The circular buffer as a queue -/

/-- What is done with a circular buffer: the handler has read a byte, or a task reads. -/
inductive Operation
  | put (ucChar : UInt8)
  | read (pucBuffer : List UInt8)
  deriving DecidableEq, Repr

/-- The operations on the circular buffer, with the bytes that a read returns.  Behind an
assertion that has failed (`none`) nothing is stored or read any more. -/
def ringMachine (fullAssert : Bool) :
    Machine (Option CircularBufferRxState) Operation (List UInt8) where
  step
    | none, _ => some (none, [])
    | some s, .put c =>
      if s.usCharCount < s.usBufferLength then some (some (s.put c), [])
      else some (some { s with usErrorState := true }, [])
    | some s, .read b =>
      (xIOUtilsReadCharsFromCircularBuffer fullAssert s b b.length).map fun r =>
        if r.halted then (none, [])
        else (some r.pxCircularBuffer, [r.pucBuffer.take r.xBytesReadSoFar])

/-- A queue with a capacity: what does not fit is dropped.  A full queue is not read, nor one
that holds bytes by a read that asks for none: with assertions such a read does not return. -/
def queueMachine (fullAssert : Bool) (capacity : ℕ) :
    Machine (Option (List UInt8)) Operation (List UInt8) where
  step
    | none, _ => some (none, [])
    | some q, .put c =>
      if q.length < capacity then some (some (q ++ [c]), []) else some (some q, [])
    | some q, .read b =>
      if q.length = capacity ∨ b.length = 0 ∧ q.length ≠ 0 then
        if fullAssert then some (none, []) else some (some q, [[]])
      else some (some (q.drop b.length), [q.take b.length])

/-- The circular buffer holds the queue, or both have halted. -/
inductive Implements (capacity : ℕ) : Option CircularBufferRxState → Option (List UInt8) → Prop
  | halted : Implements capacity none none
  | holds {s : CircularBufferRxState} (queue : Queue 0 s) (length : s.usBufferLength = capacity) :
      Implements capacity (some s) (some (contents 0 s))

/-- A byte that the handler has read goes into both. -/
theorem Implements.put {fullAssert : Bool} (h : Queue 0 s) (c : UInt8) :
    ∃ s' q' o, (ringMachine fullAssert).step (some s) (.put c) = some (s', o) ∧
      (queueMachine fullAssert s.usBufferLength).step (some (contents 0 s)) (.put c) =
        some (q', o) ∧
      Implements s.usBufferLength s' q' := by
  have hlen := h.length_contents
  rw [Nat.sub_zero] at hlen
  simp only [ringMachine, queueMachine, hlen]
  split_ifs with hspace
  · obtain ⟨hqueue', hcontents⟩ := h.put hspace c
    rw [← hcontents]
    exact ⟨_, _, _, rfl, rfl, .holds hqueue' rfl⟩
  · have hsame : SameRing s { s with usErrorState := true } := ⟨rfl, rfl, rfl, rfl, rfl⟩
    rw [← hsame.contents_eq]
    exact ⟨_, _, _, rfl, rfl, .holds (hsame.queue h) rfl⟩

/-- Without stale bytes an assertion fails only on a full buffer, or if nothing is asked for. -/
theorem assertFails_iff (h : Queue 0 s) :
    AssertFails 0 s n ↔ (contents 0 s).length = s.usBufferLength ∨
      n = 0 ∧ (contents 0 s).length ≠ 0 := by
  have hpos := h.length_pos
  rw [AssertFails, BufferFull, h.length_contents]
  omega

/-- A read gets the same bytes from both, or neither returns. -/
theorem Implements.read {fullAssert : Bool} (h : Queue 0 s) (b : List UInt8) :
    ∃ s' q' o, (ringMachine fullAssert).step (some s) (.read b) = some (s', o) ∧
      (queueMachine fullAssert s.usBufferLength).step (some (contents 0 s)) (.read b) =
        some (q', o) ∧
      Implements s.usBufferLength s' q' := by
  obtain ⟨r, hr, hread, hbytes, hhalted⟩ :=
    xIOUtilsReadCharsFromCircularBuffer_spec h (b := b) le_rfl fullAssert
  rw [assertFails_iff h] at hhalted
  have hfront : r.pucBuffer.take r.xBytesReadSoFar = (contents 0 s).take r.xBytesReadSoFar := by
    rw [hread.pucBuffer, List.take_left']
    rw [List.length_take, Nat.min_eq_left]
    rw [h.length_contents]
    exact hread.soFar_le_count
  have hheld : Implements s.usBufferLength (some r.pxCircularBuffer)
      (some (contents 0 r.pxCircularBuffer)) := .holds hread.queue hread.length
  rw [hread.rest] at hheld
  simp only [ringMachine, queueMachine, hr, Option.map_some, hfront]
  rw [readableBytes] at hbytes
  by_cases hnothing : (contents 0 s).length = s.usBufferLength ∨
      b.length = 0 ∧ (contents 0 s).length ≠ 0
  · have hzero : r.xBytesReadSoFar = 0 := by
      obtain hfull | ⟨hnone, -⟩ := hnothing
      · rw [hbytes, if_pos (show BufferFull 0 s from hfull)]
      · rw [hbytes, hnone, Nat.min_zero, ite_self]
    rw [if_pos hnothing]
    rw [hzero, List.drop_zero] at hheld
    cases fullAssert with
    | true =>
      rw [if_pos (hhalted.mpr ⟨rfl, hnothing⟩)]
      exact ⟨_, _, _, rfl, rfl, .halted⟩
    | false =>
      rw [if_neg fun hset => Bool.false_ne_true (hhalted.mp hset).1, hzero]
      exact ⟨_, _, _, rfl, rfl, hheld⟩
  · rw [if_neg fun hset => hnothing (hhalted.mp hset).2, if_neg hnothing]
    rw [if_neg fun hfull : BufferFull 0 s => hnothing (.inl hfull)] at hbytes
    rw [hbytes, Nat.min_comm, ← List.drop_eq_drop_min] at hheld
    rw [hbytes, Nat.min_comm, ← List.take_eq_take_min]
    exact ⟨_, _, _, rfl, rfl, hheld⟩

/-- Every operation keeps the two in step. -/
theorem Implements.step {fullAssert : Bool} {capacity : ℕ} {s : Option CircularBufferRxState}
    {q : Option (List UInt8)} (h : Implements capacity s q) (a : Operation) :
    ∃ s' q' o, (ringMachine fullAssert).step s a = some (s', o) ∧
      (queueMachine fullAssert capacity).step q a = some (q', o) ∧ Implements capacity s' q' := by
  cases h with
  | halted => exact ⟨none, none, [], rfl, rfl, .halted⟩
  | holds hqueue hlength =>
    subst hlength
    cases a with
    | put c => exact Implements.put hqueue c
    | read b => exact Implements.read hqueue b

/-- **The circular buffer is a queue.**  After any sequence of stores and reads it has
returned, byte for byte, what a queue of its length returns that drops what does not fit and
is not read while it is full, and has halted with it; no read has left the circular buffer or
the caller's. -/
theorem circular_buffer_refines_queue (h : Queue 0 s) (fullAssert : Bool)
    (as : List Operation) :
    ∃ s' os, (ringMachine fullAssert).exec (some s) as = some (s', os) ∧
      (∀ r, s' = some r → Queue 0 r) ∧
      (queueMachine fullAssert s.usBufferLength).exec (some (contents 0 s)) as =
        some (s'.map (contents 0), os) := by
  have halong : (ringMachine fullAssert).Along (fun _ _ => True) (some s) as :=
    Machine.along_of_forall fun _ _ => trivial
  obtain ⟨s', q', os, hrun, hrun', himpl⟩ := Machine.exec_of_lockstep
    (Implements s.usBufferLength) (fun _ _ => True)
    (fun _ _ a hR _ => Implements.step hR a) (.holds h rfl) halong
  cases himpl with
  | halted => exact ⟨none, os, hrun, nofun, hrun'⟩
  | @holds s' hqueue =>
    refine ⟨some s', os, hrun, ?_, hrun'⟩
    rintro r ⟨⟩
    exact hqueue

/-- Three bytes fill the buffer, and the second read does not return. -/
theorem circular_buffer_refines_queue_three :
    ∃ s' os, (ringMachine true).exec (some (configured [0, 0, 0])) [.put 5, .put 6, .read [0],
        .put 7, .put 8, .read [0]] = some (s', os) ∧
      (∀ r, s' = some r → Queue 0 r) ∧
      (queueMachine true 3).exec (some []) [.put 5, .put 6, .read [0], .put 7, .put 8,
        .read [0]] = some (s'.map (contents 0), os) :=
  circular_buffer_refines_queue (queue_configured (by decide)) true _

end CircularBuffer

end Resmod.Analysis
