import Mathlib.Data.List.Basic
import Mathlib.Tactic.Common

/-!
# A queue with a capacity

A first-in first-out queue that holds at most `capacity` items; an item sent to a full
queue is dropped.  `Accounts` relates a queue to what was sent to it and received from it
since it was created: as long as nothing is dropped, what was received is what was sent,
up to what is still in the queue.
-/

set_option autoImplicit false

namespace Resmod.Library

/-- A queue of at most `capacity` items, the oldest first. -/
structure BoundedQueue (α : Type*) (capacity : ℕ) where
  items : List α
  bounded : items.length ≤ capacity

namespace BoundedQueue

variable {α : Type*} {capacity : ℕ} {q q' : BoundedQueue α capacity} {sent received : List α}
  {a : α}

/-- The queue without items. -/
def empty : BoundedQueue α capacity := ⟨[], Nat.zero_le capacity⟩

/-- There is no room for another item. -/
def Full (q : BoundedQueue α capacity) : Prop := capacity ≤ q.items.length

instance (q : BoundedQueue α capacity) : Decidable q.Full :=
  inferInstanceAs (Decidable (capacity ≤ q.items.length))

/-- Put an item at the end, if there is room for it. -/
def send (q : BoundedQueue α capacity) (a : α) : BoundedQueue α capacity :=
  if h : q.items.length < capacity then
    ⟨q.items ++ [a], by rw [List.length_append]; exact h⟩
  else q

/-- Take the oldest item, if there is one. -/
def receive (q : BoundedQueue α capacity) : Option (α × BoundedQueue α capacity) :=
  match q with
  | ⟨[], _⟩ => none
  | ⟨a :: l, h⟩ => some (a, ⟨l, Nat.le_of_succ_le h⟩)

/-- An item that finds room is the last one. -/
theorem items_send_of_not_full (h : ¬ q.Full) : (q.send a).items = q.items ++ [a] := by
  rw [send, dif_pos (Nat.not_le.mp h)]

/-- An item that finds no room is dropped. -/
theorem send_of_full (h : q.Full) : q.send a = q := dif_neg (Nat.not_lt.mpr h)

/-- The item that is taken was the first one. -/
theorem items_of_receive (h : q.receive = some (a, q')) : q.items = a :: q'.items := by
  obtain ⟨l, hl⟩ := q
  cases l with
  | nil => exact absurd h (by simp [receive])
  | cons b l =>
    cases h
    rfl

/-- Nothing is taken from an empty queue only. -/
theorem items_eq_nil_of_receive (h : q.receive = none) : q.items = [] := by
  obtain ⟨l, hl⟩ := q
  cases l with
  | nil => rfl
  | cons b l => exact absurd h (by simp [receive])

/-! ## What was sent and what was received -/

/-- What was sent is what was received and what is still in the queue. -/
def Accounts (q : BoundedQueue α capacity) (sent received : List α) : Prop :=
  received ++ q.items = sent

instance [DecidableEq α] (q : BoundedQueue α capacity) (sent received : List α) :
    Decidable (q.Accounts sent received) :=
  inferInstanceAs (Decidable (received ++ q.items = sent))

/-- Nothing has been sent to an empty queue or taken from it. -/
theorem accounts_empty : (empty : BoundedQueue α capacity).Accounts [] [] := rfl

/-- Sending keeps the account exactly when the queue is not full. -/
theorem accounts_send_iff (h : q.Accounts sent received) :
    (q.send a).Accounts (sent ++ [a]) received ↔ ¬ q.Full := by
  unfold Accounts at h ⊢
  constructor
  · intro hsent hfull
    rw [send_of_full hfull, h] at hsent
    have hlen := congrArg List.length hsent
    rw [List.length_append, List.length_singleton] at hlen
    omega
  · intro hfull
    rw [items_send_of_not_full hfull, ← List.append_assoc, h]

/-- The account after an item has been taken. -/
theorem Accounts.receive (h : q.Accounts sent received) (hq : q.receive = some (a, q')) :
    q'.Accounts sent (received ++ [a]) := by
  unfold Accounts at h ⊢
  rw [List.append_assoc, List.singleton_append, ← items_of_receive hq, h]

end BoundedQueue

end Resmod.Library
