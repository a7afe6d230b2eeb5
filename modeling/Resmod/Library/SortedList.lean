import Mathlib.Data.List.Count
import Mathlib.Tactic.Common

/-!
# Removing from the front of a sorted list

The elements of a sorted list that have a property of small elements are at its front, so
that removing them by position is removing them by value.  `drop_eq_filter` is the rule
for a number that is known to be right, `drop_perm_filter_iff` says that no other number
is.
-/

set_option autoImplicit false

namespace Resmod.Library

variable {α : Type*} {le : α → α → Prop} {p : α → Bool}

/-- The elements with a downward closed property are the front of a sorted list. -/
theorem drop_countP {l : List α} (hdown : ∀ a b, le a b → p b = true → p a = true)
    (h : l.Pairwise le) : l.drop (l.countP p) = l.filter fun a => !p a := by
  induction l with
  | nil => rfl
  | cons a l ih =>
    obtain ⟨hle, hrest⟩ := List.pairwise_cons.mp h
    cases hp : p a with
    | true =>
      rw [List.countP_cons_of_pos hp, List.drop_succ_cons, ih hrest,
        List.filter_cons_of_neg (by simp [hp])]
    | false =>
      have hnone : ∀ b ∈ l, p b = false := by
        intro b hb
        rw [Bool.eq_false_iff]
        intro hpb
        rw [hdown a b (hle b hb) hpb] at hp
        exact Bool.noConfusion hp
      have hcount : (a :: l).countP p = 0 := by
        rw [List.countP_eq_zero]
        intro b hb
        rcases List.mem_cons.mp hb with rfl | hb
        · simp [hp]
        · simp [hnone b hb]
      rw [hcount, List.drop_zero, eq_comm, List.filter_eq_self]
      intro b hb
      rcases List.mem_cons.mp hb with rfl | hb
      · simp [hp]
      · simp [hnone b hb]

/-- As `drop_countP`, where the number of such elements is known. -/
theorem drop_eq_filter {l : List α} {n : ℕ}
    (hdown : ∀ a b, le a b → p b = true → p a = true) (h : l.Pairwise le)
    (hn : l.countP p = n) : l.drop n = l.filter fun a => !p a := by
  rw [← hn]
  exact drop_countP hdown h

/-- **Removal by position and by value.**  Exactly the elements with the property are
removed by position if and only if the number of positions is their number. -/
theorem drop_perm_filter_iff {l : List α} {n : ℕ}
    (hdown : ∀ a b, le a b → p b = true → p a = true) (h : l.Pairwise le) :
    (n ≤ l.length ∧ (l.drop n).Perm (l.filter fun a => !p a)) ↔ l.countP p = n := by
  have hsum : l.length = l.countP p + (l.filter fun a => !p a).length := by
    rw [List.length_eq_countP_add_countP p, List.countP_eq_length_filter (p := fun a => ¬p a)]
    simp
  constructor
  · rintro ⟨hle, hperm⟩
    have hlen := hperm.length_eq
    rw [List.length_drop] at hlen
    omega
  · intro hn
    refine ⟨by omega, ?_⟩
    rw [drop_eq_filter hdown h hn]

end Resmod.Library
