import Resmod.Library.Machine

/-!
# Two fallible programs side by side

`Alike R x y` says that two programs both succeed, with results that `R` relates, or both fail
with the same error.  It is kept by sequencing (`Alike.bind`), so a function made of calls is
alike another as soon as the calls are.  Two machines whose steps are alike in this sense have
alike runs, the refused ones included (`Machine.exec_alike`).
-/

set_option autoImplicit false

namespace Resmod.Library

universe u v

section Alike

variable {ε : Type*} {α γ : Type u} {β δ : Type v} {R : α → β → Prop} {S : γ → δ → Prop}

/-- Two results that are related, or the same error. -/
inductive Alike (R : α → β → Prop) : Except ε α → Except ε β → Prop
  | ok {a : α} {b : β} (h : R a b) : Alike R (.ok a) (.ok b)
  | error (e : ε) : Alike R (.error e) (.error e)

/-- Alike computations followed by alike ones. -/
theorem Alike.bind {x : Except ε α} {y : Except ε β} {f : α → Except ε γ} {g : β → Except ε δ}
    (h : Alike R x y) (hfg : ∀ a b, R a b → Alike S (f a) (g b)) :
    Alike S (x >>= f) (y >>= g) := by
  cases h with
  | ok hab => exact hfg _ _ hab
  | error e => exact .error e

/-- Only the second computation is followed by a function. -/
theorem Alike.map_right {x : Except ε α} {y : Except ε β} {g : β → δ} {S : α → δ → Prop}
    (h : Alike R x y) (hg : ∀ a b, R a b → S a (g b)) : Alike S x (y.map g) := by
  cases h with
  | ok hab => exact .ok (hg _ _ hab)
  | error e => exact .error e

end Alike

namespace Machine

variable {σ τ α ω : Type*} {M : Machine σ α ω} {N : Machine τ α ω} {R : σ → τ → Prop}

/-- Two steps, or two runs, with the same outputs that end in related states. -/
def SameOutputs {ω' : Type*} (R : σ → τ → Prop) (r : σ × ω') (r' : τ × ω') : Prop :=
  R r.1 r'.1 ∧ r.2 = r'.2

/-- Runs that put out the same agree in their outputs. -/
theorem outputs_eq {ω' : Type*} {x : Option (σ × ω')} {y : Option (τ × ω')}
    (h : Option.Rel (SameOutputs R) x y) : x.map Prod.snd = y.map Prod.snd := by
  cases h with
  | none => rfl
  | some hr => exact congrArg some hr.2

/-- **Machines with alike steps have alike runs.** -/
theorem exec_alike
    (h : ∀ s t a, R s t → Option.Rel (SameOutputs R) (M.step s a) (N.step t a)) {s : σ} {t : τ}
    (hR : R s t) (as : List α) : Option.Rel (SameOutputs R) (M.exec s as) (N.exec t as) := by
  induction as generalizing s t with
  | nil => exact .some ⟨hR, rfl⟩
  | cons a as ih =>
    have hstep := h s t a hR
    rw [exec, exec]
    revert hstep
    generalize M.step s a = x, N.step t a = y
    rintro (@⟨⟨s', o⟩, ⟨t', _⟩, hR', rfl⟩ | _)
    · have hrest := ih hR'
      dsimp only
      revert hrest
      generalize M.exec s' as = x, N.exec t' as = y
      rintro (@⟨r, r', hR'', hos⟩ | _)
      · exact .some ⟨hR'', congrArg (o :: ·) hos⟩
      · exact .none
    · exact .none

end Machine

end Resmod.Library
