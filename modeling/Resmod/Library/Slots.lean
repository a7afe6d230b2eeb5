import Mathlib.Algebra.Group.Nat.Defs
import Mathlib.Data.List.Basic
import Mathlib.Logic.Function.Basic
import Mathlib.Tactic.Common

/-!
# Structures one behind the other in a 32-bit memory

`Slots` are `count` structures of `size` bytes from an address on that do not run over the
end of the memory.  `addr` is the address of one of them, computed as the processor does it,
modulo `2 ^ 32`; the addresses of what lies in different structures, or at different offsets,
are different (`addr_add_inj`).

`forEach` runs a body for one structure after the other.  When each round leaves what lies
outside its structure, every structure is in the end as its own round leaves it
(`forEach_eq`), and the rest of the memory is as before (`forEach_outside`).
-/

set_option autoImplicit false

namespace Resmod.Library

/-- `count` structures of `size` bytes, the first one at `base`. -/
structure Slots where
  base : UInt32
  size : ℕ
  count : ℕ
  fits : base.toNat + count * size ≤ 2 ^ 32
  base_ne_zero : base ≠ 0

namespace Slots

variable (s : Slots) {i j off off' : ℕ}

/-- The address of a structure. -/
def addr (i : ℕ) : UInt32 := s.base + UInt32.ofNat i * UInt32.ofNat s.size

variable {s}

/-- An offset within a structure is below the end of the memory. -/
theorem offset_lt (hi : i < s.count) (hoff : off < s.size) :
    s.base.toNat + (i * s.size + off) < 2 ^ 32 := by
  have hfits := s.fits
  have hstep : (i + 1) * s.size ≤ s.count * s.size := Nat.mul_le_mul_right _ hi
  rw [Nat.succ_mul] at hstep
  omega

/-- An address in a slot does not wrap around. -/
theorem toNat_addr_add (hi : i < s.count) (hoff : off < s.size) :
    (s.addr i + UInt32.ofNat off).toNat = s.base.toNat + (i * s.size + off) := by
  have hlt := offset_lt hi hoff
  rw [addr, UInt32.toNat_add, UInt32.toNat_add, UInt32.toNat_mul, UInt32.toNat_ofNat',
    UInt32.toNat_ofNat', UInt32.toNat_ofNat', ← Nat.mul_mod, Nat.add_mod_mod, Nat.add_mod_mod,
    Nat.mod_add_mod, Nat.add_assoc, Nat.mod_eq_of_lt hlt]

/-- What lies in an earlier structure has a smaller address. -/
theorem addr_add_lt (hij : i < j) (hoff : off < s.size) (hj : j < s.count)
    (hoff' : off' < s.size) :
    (s.addr i + UInt32.ofNat off).toNat < (s.addr j + UInt32.ofNat off').toNat := by
  have hstep : (i + 1) * s.size ≤ j * s.size := Nat.mul_le_mul_right _ hij
  rw [Nat.succ_mul] at hstep
  rw [toNat_addr_add (Nat.lt_trans hij hj) hoff, toNat_addr_add hj hoff']
  omega

/-- What lies at different places has different addresses. -/
theorem addr_add_inj (hi : i < s.count) (hoff : off < s.size) (hj : j < s.count)
    (hoff' : off' < s.size)
    (h : s.addr i + UInt32.ofNat off = s.addr j + UInt32.ofNat off') : i = j ∧ off = off' := by
  have hnat := congrArg UInt32.toNat h
  rcases Nat.lt_trichotomy i j with hlt | rfl | hgt
  · exact absurd hnat (Nat.ne_of_lt (addr_add_lt hlt hoff hj hoff'))
  · rw [toNat_addr_add hi hoff, toNat_addr_add hi hoff'] at hnat
    exact ⟨rfl, by omega⟩
  · exact absurd hnat.symm (Nat.ne_of_lt (addr_add_lt hgt hoff' hi hoff))

/-- No slot is at NULL. -/
theorem addr_ne_zero (hi : i < s.count) (hsize : 0 < s.size) : s.addr i ≠ 0 := by
  intro h
  have hnat := toNat_addr_add hi hsize
  have hbase : s.base.toNat ≠ 0 := fun hzero => s.base_ne_zero (UInt32.toNat_inj.mp hzero)
  rw [h] at hnat
  simp only [UInt32.zero_add, UInt32.toNat_ofNat', Nat.zero_mod] at hnat
  omega

/-- An address lies in a structure. -/
def Within (s : Slots) (i : ℕ) (a : UInt32) : Prop :=
  ∃ off < s.size, a = s.addr i + UInt32.ofNat off

/-- An address is within one slot only. -/
theorem Within.eq {a : UInt32} (h : s.Within i a) (h' : s.Within j a) (hi : i < s.count)
    (hj : j < s.count) : i = j := by
  obtain ⟨off, hoff, rfl⟩ := h
  obtain ⟨off', hoff', heq⟩ := h'
  exact (addr_add_inj hi hoff hj hoff' heq).1

end Slots

/-! ## One structure after the other -/

section ForEach

variable {β : Type*}

/-- `for (i = 0; i < n; i++) body` on a memory. -/
def forEach (body : ℕ → (UInt32 → β) → UInt32 → β) : ℕ → (UInt32 → β) → UInt32 → β
  | 0, m => m
  | n + 1, m => body n (forEach body n m)

variable {s : Slots} {body : ℕ → (UInt32 → β) → UInt32 → β} {n : ℕ}

/-- What no round changes is as before. -/
theorem forEach_unchanged {a : UInt32} (hbody : ∀ i < n, ∀ m, body i m a = m a)
    (m : UInt32 → β) : forEach body n m a = m a := by
  induction n with
  | zero => rfl
  | succ n ih =>
    rw [forEach, hbody n (Nat.lt_succ_self n)]
    exact ih fun i hi => hbody i (Nat.lt_succ_of_lt hi)

/-- The rounds leave what lies outside their structures. -/
theorem forEach_outside (hbody : ∀ i m a, ¬ s.Within i a → body i m a = m a) {m : UInt32 → β}
    {a : UInt32} (ha : ∀ i < n, ¬ s.Within i a) : forEach body n m a = m a :=
  forEach_unchanged (fun i hi m => hbody i m a (ha i hi)) m

/-- What lies in a structure is as its round leaves it. -/
theorem forEach_eq (hbody : ∀ i m a, ¬ s.Within i a → body i m a = m a) (hn : n ≤ s.count)
    {m : UInt32 → β} {i : ℕ} (hi : i < n) {a : UInt32} (ha : s.Within i a) {f : β → β}
    (hf : ∀ m, body i m a = f (m a)) : forEach body n m a = f (m a) := by
  induction n with
  | zero => exact absurd hi (Nat.not_lt_zero i)
  | succ n ih =>
    rw [forEach]
    rcases Nat.lt_succ_iff_lt_or_eq.mp hi with hlt | rfl
    · rw [hbody n _ a fun ha' => Nat.ne_of_lt hlt (ha.eq ha' (by omega) (by omega))]
      exact ih (by omega) hlt
    · rw [hf, forEach_outside hbody fun j hj ha' =>
        Nat.ne_of_lt hj (ha'.eq ha (by omega) (by omega))]

end ForEach

end Resmod.Library
