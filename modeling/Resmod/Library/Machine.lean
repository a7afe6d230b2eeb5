import Mathlib.Data.List.Basic
import Mathlib.Tactic.Common

/-!
# Machines with inputs and outputs, and properties of whole runs

A `Machine` takes one input at a time; a step may be refused (`none`: the input is not
enabled, or the program has left its defined behaviour), otherwise it yields the next
state and the outputs of the step.  `exec` runs a list of inputs.

Two kinds of statement about a run are used throughout.  `Along P` says that every
input is given in a state in which `P` allows it: it is how an assumption on an
interleaving, or on a sender, is stated.  `Always Q` says that every step the run takes
meets `Q`: it is how a safety property is stated.  The invariant rules pass from the first
to the second, and are the only inductions over runs the development needs; `observe`
adds a history variable, for properties that speak of what happened before.
-/

set_option autoImplicit false

namespace Resmod.Library

/-- A deterministic machine with states `σ`, inputs `α` and outputs `ω`. -/
structure Machine (σ α ω : Type*) where
  /-- One step: refused, or the next state together with the outputs of the step. -/
  step : σ → α → Option (σ × List ω)

namespace Machine

variable {σ α ω γ : Type*} (M : Machine σ α ω)

/-- Run a list of inputs; the outputs are kept step by step. -/
def exec : σ → List α → Option (σ × List (List ω))
  | s, [] => some (s, [])
  | s, a :: as =>
    match M.step s a with
    | none => none
    | some (s', o) => (exec s' as).map fun r => (r.1, o :: r.2)

/-- Every input of the run is given in a state in which `P` allows it, up to and
including the first input that is refused. -/
def Along (P : σ → α → Prop) : σ → List α → Prop
  | _, [] => True
  | s, a :: as =>
    P s a ∧ match M.step s a with
      | none => True
      | some (s', _) => Along P s' as

/-- Every step the run takes meets `Q`. -/
def Always (Q : σ → α → σ → List ω → Prop) : σ → List α → Prop
  | _, [] => True
  | s, a :: as =>
    match M.step s a with
    | none => True
    | some (s', o) => Q s a s' o ∧ Always Q s' as

instance decidableAlways (M : Machine σ α ω) (Q : σ → α → σ → List ω → Prop)
    [∀ s a s' o, Decidable (Q s a s' o)] :
    ∀ (s : σ) (as : List α), Decidable (M.Always Q s as)
  | _, [] => .isTrue trivial
  | s, a :: as =>
    match h : M.step s a with
    | none => .isTrue (by simp [Always, h])
    | some (s', o) =>
      have : Decidable (M.Always Q s' as) := decidableAlways M Q s' as
      decidable_of_iff (Q s a s' o ∧ M.Always Q s' as) (by simp [Always, h])

instance decidableAlong (M : Machine σ α ω) (P : σ → α → Prop) [∀ s a, Decidable (P s a)] :
    ∀ (s : σ) (as : List α), Decidable (M.Along P s as)
  | _, [] => .isTrue trivial
  | s, a :: as =>
    match h : M.step s a with
    | none => decidable_of_iff (P s a) (by simp [Along, h])
    | some (s', o) =>
      have : Decidable (M.Along P s' as) := decidableAlong M P s' as
      decidable_of_iff (P s a ∧ M.Along P s' as) (by simp [Along, h])

/-- A run leads from the one state to the other. -/
def Reachable (s s' : σ) : Prop := ∃ as os, M.exec s as = some (s', os)

/-- The run without inputs. -/
@[simp] theorem exec_nil (s : σ) : M.exec s [] = some (s, []) := rfl

variable {M}

/-- A run is a step and a run. -/
theorem exec_cons_eq_some {s : σ} {a : α} {as : List α} {r : σ × List (List ω)} :
    M.exec s (a :: as) = some r ↔
      ∃ s' o os, M.step s a = some (s', o) ∧ M.exec s' as = some (r.1, os) ∧
        r.2 = o :: os := by
  obtain ⟨t, os'⟩ := r
  cases h : M.step s a with
  | none => simp [exec, h]
  | some p =>
    obtain ⟨s', o⟩ := p
    simp only [exec, h, Option.map_eq_some_iff, Prod.mk.injEq, Option.some.injEq]
    constructor
    · rintro ⟨⟨u, os⟩, hr, rfl, rfl⟩
      exact ⟨s', o, os, ⟨rfl, rfl⟩, hr, rfl⟩
    · rintro ⟨s₁, o₁, os, ⟨rfl, rfl⟩, hr, rfl⟩
      exact ⟨(t, os), hr, rfl, rfl⟩

/-- A step that succeeds opens every run over its input. -/
theorem exec_cons_of_step {s s' : σ} {a : α} {o : List ω} (h : M.step s a = some (s', o))
    (as : List α) :
    M.exec s (a :: as) = (M.exec s' as).map fun r => (r.1, o :: r.2) := by
  simp [exec, h]

/-- A run is continued by one step. -/
theorem exec_concat {s t u : σ} {as : List α} {os : List (List ω)} {a : α} {o : List ω}
    (hrun : M.exec s as = some (t, os)) (hstep : M.step t a = some (u, o)) :
    M.exec s (as ++ [a]) = some (u, os ++ [o]) := by
  induction as generalizing s os with
  | nil =>
    cases hrun
    exact exec_cons_of_step hstep []
  | cons b as ih =>
    obtain ⟨s', o', os', hstep', hrest, hout⟩ := exec_cons_eq_some.mp hrun
    simp only at hrest hout
    rw [List.cons_append, exec_cons_of_step hstep', ih hrest, hout]
    rfl

/-! ## The invariant rule -/

/-- **The invariant rule.**  If, from every state in `I` and for every input that `P`
allows there, the step succeeds, keeps `I` and meets `Q`, then a run from `I` along `P`
succeeds, ends in `I`, and meets `Q` at every step. -/
theorem exec_of_invariant (I : σ → Prop) (P : σ → α → Prop)
    (Q : σ → α → σ → List ω → Prop)
    (h : ∀ s a, I s → P s a → ∃ s' o, M.step s a = some (s', o) ∧ I s' ∧ Q s a s' o)
    {s : σ} {as : List α} (hI : I s) (hP : M.Along P s as) :
    (∃ s' os, M.exec s as = some (s', os) ∧ I s') ∧ M.Always Q s as := by
  induction as generalizing s with
  | nil => exact ⟨⟨s, [], rfl, hI⟩, trivial⟩
  | cons a as ih =>
    obtain ⟨hPa, hrest⟩ := hP
    obtain ⟨s', o, hstep, hI', hQ⟩ := h s a hI hPa
    rw [hstep] at hrest
    obtain ⟨⟨t, os, hrun, hIt⟩, hQs⟩ := ih hI' hrest
    refine ⟨⟨t, o :: os, ?_, hIt⟩, ?_⟩
    · rw [exec_cons_of_step hstep, hrun]
      rfl
    · simp only [Always, hstep]
      exact ⟨hQ, hQs⟩

/-- **The invariant rule for runs that may be refused.**  As `exec_of_invariant`, where
only the steps that succeed have to keep `I` and meet `Q`. -/
theorem always_of_invariant (I : σ → Prop) (P : σ → α → Prop)
    (Q : σ → α → σ → List ω → Prop)
    (h : ∀ s a s' o, I s → P s a → M.step s a = some (s', o) → I s' ∧ Q s a s' o)
    {s : σ} {as : List α} (hI : I s) (hP : M.Along P s as) : M.Always Q s as := by
  induction as generalizing s with
  | nil => trivial
  | cons a as ih =>
    obtain ⟨hPa, hrest⟩ := hP
    cases hstep : M.step s a with
    | none => simp [Always, hstep]
    | some p =>
      rw [hstep] at hrest
      obtain ⟨hI', hQ⟩ := h s a p.1 p.2 hI hPa hstep
      simp only [Always, hstep]
      exact ⟨hQ, ih hI' hrest⟩

/-- Two step properties that agree on the steps from an invariant that `P` allows are met by
the same runs along `P`, when the steps that meet them keep the invariant. -/
theorem always_congr_of_along (I : σ → Prop) (P : σ → α → Prop)
    {Q Q' : σ → α → σ → List ω → Prop}
    (h : ∀ s a s' o, I s → P s a → M.step s a = some (s', o) →
      (Q s a s' o ↔ Q' s a s' o) ∧ (Q' s a s' o → I s'))
    {s : σ} {as : List α} (hs : I s) (hP : M.Along P s as) :
    M.Always Q s as ↔ M.Always Q' s as := by
  induction as generalizing s with
  | nil => exact Iff.rfl
  | cons a as ih =>
    obtain ⟨hPa, hPs⟩ := hP
    cases hstep : M.step s a with
    | none => simp [Always, hstep]
    | some p =>
      rw [hstep] at hPs
      obtain ⟨hiff, hI⟩ := h s a p.1 p.2 hs hPa hstep
      simp only [Always, hstep]
      constructor
      · rintro ⟨hQ, hrest⟩
        exact ⟨hiff.mp hQ, (ih (hI (hiff.mp hQ)) hPs).mp hrest⟩
      · rintro ⟨hQ', hrest⟩
        exact ⟨hiff.mpr hQ', (ih (hI hQ') hPs).mpr hrest⟩

/-- What every step keeps holds at the end of a run. -/
theorem invariant_of_exec (I : σ → Prop)
    (h : ∀ s a s' o, I s → M.step s a = some (s', o) → I s') {s s' : σ} {as : List α}
    {os : List (List ω)} (hI : I s) (hrun : M.exec s as = some (s', os)) : I s' := by
  induction as generalizing s os with
  | nil =>
    obtain ⟨rfl, -⟩ := Prod.mk.inj (Option.some.inj hrun)
    exact hI
  | cons a as ih =>
    obtain ⟨t, o, os', hstep, hrest, -⟩ := exec_cons_eq_some.mp hrun
    exact ih (h s a t o hI hstep) hrest

/-- What an invariant allows in all of its states is allowed along every run. -/
theorem along_of_invariant (I : σ → Prop) {P : σ → α → Prop} (h : ∀ s a, I s → P s a)
    (hkeep : ∀ s a s' o, I s → M.step s a = some (s', o) → I s') {s : σ} (hs : I s)
    (as : List α) : M.Along P s as := by
  induction as generalizing s with
  | nil => trivial
  | cons a as ih =>
    refine ⟨h s a hs, ?_⟩
    cases hstep : M.step s a with
    | none => trivial
    | some p => exact ih (hkeep s a p.1 p.2 hs hstep)

/-- Two step properties that agree on the steps from an invariant are met by the same
runs, when the steps that meet them keep the invariant. -/
theorem always_congr (I : σ → Prop) {Q Q' : σ → α → σ → List ω → Prop}
    (h : ∀ s a s' o, I s → M.step s a = some (s', o) →
      (Q s a s' o ↔ Q' s a s' o) ∧ (Q' s a s' o → I s'))
    {s : σ} (hs : I s) (as : List α) : M.Always Q s as ↔ M.Always Q' s as :=
  always_congr_of_along I (fun _ _ => True) (fun s a s' o hI _ hstep => h s a s' o hI hstep) hs
    (along_of_invariant (fun _ => True) (fun _ _ _ => trivial) (fun _ _ _ _ _ _ => trivial)
      trivial as)

/-- **The invariant rule without a condition on the steps.** -/
theorem always_of_step (I : σ → Prop) (Q : σ → α → σ → List ω → Prop)
    (h : ∀ s a s' o, I s → M.step s a = some (s', o) → I s' ∧ Q s a s' o) {s : σ} (hI : I s)
    (as : List α) : M.Always Q s as := by
  apply always_of_invariant I (fun _ _ => True) Q
  · intro s a s' o hs _ hstep
    exact h s a s' o hs hstep
  · exact hI
  · exact along_of_invariant (fun _ => True) (fun _ _ _ => trivial)
      (fun _ _ _ _ _ _ => trivial) trivial as

/-- A weaker property holds along the same run. -/
theorem Along.mono {P P' : σ → α → Prop} {s : σ} {as : List α} (h : M.Along P s as)
    (himp : ∀ t a, P t a → P' t a) : M.Along P' s as := by
  induction as generalizing s with
  | nil => trivial
  | cons a as ih =>
    obtain ⟨hP, hrest⟩ := h
    refine ⟨himp s a hP, ?_⟩
    cases hstep : M.step s a with
    | none => trivial
    | some p =>
      rw [hstep] at hrest
      exact ih hrest

/-- Two conditions that agree on some inputs allow the same runs over these inputs. -/
theorem along_congr {P P' : σ → α → Prop} {s : σ} {as : List α}
    (h : ∀ a ∈ as, ∀ t, P t a ↔ P' t a) : M.Along P s as ↔ M.Along P' s as := by
  induction as generalizing s with
  | nil => exact Iff.rfl
  | cons a as ih =>
    have hrest : ∀ t, M.Along P t as ↔ M.Along P' t as :=
      fun t => ih fun b hb => h b (List.mem_cons_of_mem a hb)
    simp only [Along, h a List.mem_cons_self]
    cases M.step s a with
    | none => exact Iff.rfl
    | some p => exact and_congr_right fun _ => hrest p.1

/-- Two conditions that agree in the states of an invariant allow the same runs, when the
steps that they allow keep the invariant. -/
theorem along_congr_of_invariant (I : σ → Prop) {P P' : σ → α → Prop}
    (h : ∀ s a, I s → (P s a ↔ P' s a))
    (hkeep : ∀ s a s' o, I s → P' s a → M.step s a = some (s', o) → I s') {s : σ} (hs : I s)
    (as : List α) : M.Along P s as ↔ M.Along P' s as := by
  induction as generalizing s with
  | nil => exact Iff.rfl
  | cons a as ih =>
    simp only [Along, h s a hs]
    apply and_congr_right
    intro hP'
    cases hstep : M.step s a with
    | none => exact Iff.rfl
    | some p => exact ih (hkeep s a p.1 p.2 hs hP' hstep)

/-- A weaker step property holds in the same run. -/
theorem Always.mono {Q Q' : σ → α → σ → List ω → Prop} {s : σ} {as : List α}
    (h : M.Always Q s as) (himp : ∀ t a t' o, Q t a t' o → Q' t a t' o) : M.Always Q' s as := by
  induction as generalizing s with
  | nil => trivial
  | cons a as ih =>
    cases hstep : M.step s a with
    | none => simp [Always, hstep]
    | some p =>
      simp only [Always, hstep] at h ⊢
      exact ⟨himp s a p.1 p.2 h.1, ih h.2⟩

/-- What is met always is met by every step of the run. -/
theorem Always.step {Q : σ → α → σ → List ω → Prop} {s s' s'' : σ} {as bs : List α} {a : α}
    {os : List (List ω)} {o : List ω} (h : M.Always Q s (as ++ a :: bs))
    (hrun : M.exec s as = some (s', os)) (hstep : M.step s' a = some (s'', o)) :
    Q s' a s'' o := by
  induction as generalizing s os with
  | nil =>
    obtain ⟨rfl, -⟩ := Prod.mk.inj (Option.some.inj hrun)
    simp only [List.nil_append, Always, hstep] at h
    exact h.1
  | cons b as ih =>
    obtain ⟨t, o', os', hb, hrest, -⟩ := exec_cons_eq_some.mp hrun
    simp only [List.cons_append, Always, hb] at h
    exact ih h.2 hrest

/-- What every step on one of the inputs guarantees of its outputs holds of all outputs of
a run over them. -/
theorem forall_outputs {Q : List ω → Prop} {s s' : σ} {as : List α} {os : List (List ω)}
    (h : ∀ a ∈ as, ∀ t t' o, M.step t a = some (t', o) → Q o)
    (hrun : M.exec s as = some (s', os)) : ∀ o ∈ os, Q o := by
  induction as generalizing s os with
  | nil =>
    cases hrun
    simp
  | cons a as ih =>
    obtain ⟨t, o, os', hstep, hrest, hout⟩ := exec_cons_eq_some.mp hrun
    simp only at hrest hout
    subst hout
    rw [List.forall_mem_cons]
    exact ⟨h a List.mem_cons_self _ _ _ hstep,
      ih (fun b hb => h b (List.mem_cons_of_mem a hb)) hrest⟩

/-- **The invariant rule for outputs.**  What every step that `P` allows keeps of the state
and of all outputs so far holds at the end of a run along `P`. -/
theorem invariant_of_outputs (I : List ω → σ → Prop) (P : σ → α → Prop)
    (h : ∀ w s a s' o, I w s → P s a → M.step s a = some (s', o) → I (w ++ o) s')
    {w : List ω} {s s' : σ} {as : List α} {os : List (List ω)} (hI : I w s)
    (hP : M.Along P s as) (hrun : M.exec s as = some (s', os)) : I (w ++ os.flatten) s' := by
  induction as generalizing w s os with
  | nil =>
    cases hrun
    rw [List.flatten_nil, List.append_nil]
    exact hI
  | cons a as ih =>
    obtain ⟨t, o, os', hstep, hrest, hout⟩ := exec_cons_eq_some.mp hrun
    simp only at hrest hout
    obtain ⟨hPa, hPrest⟩ := hP
    rw [hstep] at hPrest
    rw [hout, List.flatten_cons, ← List.append_assoc]
    exact ih (h w s a t o hI hPa hstep) hPrest hrest

/-- From a state in the trap every step gives an unclean output or stays in it, so a run that
ends outside has given one. -/
theorem unclean_of_trap {Clean : List ω → Prop} {Trap : σ → Prop}
    (happend : ∀ o o', Clean (o ++ o') ↔ Clean o ∧ Clean o')
    (htrap : ∀ s a s' o, Trap s → M.step s a = some (s', o) → ¬ Clean o ∨ Trap s')
    {s s' : σ} {as : List α} {os : List (List ω)} (hs : Trap s)
    (hrun : M.exec s as = some (s', os)) (hend : ¬ Trap s') : ¬ Clean os.flatten := by
  induction as generalizing s os with
  | nil =>
    cases hrun
    exact absurd hs hend
  | cons a as ih =>
    obtain ⟨t, o, os', hstep, hrest, hout⟩ := exec_cons_eq_some.mp hrun
    simp only at hrest hout
    rw [hout, List.flatten_cons, happend]
    rintro ⟨ho, hos⟩
    have ht : Trap t := (htrap s a t o hs hstep).resolve_left (not_not_intro ho)
    exact ih ht hrest hos

/-- **The trap rule.**  If from the states in `I` the inputs that `P` allows keep to `I` with
clean outputs, and any other gives an unclean output or leads into a trap, then the runs out of
the trap with clean outputs are exactly those along `P`. -/
theorem clean_iff_along (Clean : List ω → Prop) (I Trap : σ → Prop) (P : σ → α → Prop)
    (hnil : Clean []) (happend : ∀ o o', Clean (o ++ o') ↔ Clean o ∧ Clean o')
    (hkeep : ∀ s a s' o, I s → P s a → M.step s a = some (s', o) → I s' ∧ Clean o)
    (hleave : ∀ s a s' o, I s → ¬ P s a → M.step s a = some (s', o) → ¬ Clean o ∨ Trap s')
    (htrap : ∀ s a s' o, Trap s → M.step s a = some (s', o) → ¬ Clean o ∨ Trap s')
    {s s' : σ} {as : List α} {os : List (List ω)} (hs : I s)
    (hrun : M.exec s as = some (s', os)) (hend : ¬ Trap s') :
    Clean os.flatten ↔ M.Along P s as := by
  induction as generalizing s os with
  | nil =>
    cases hrun
    exact iff_of_true hnil trivial
  | cons a as ih =>
    obtain ⟨t, o, os', hstep, hrest, hout⟩ := exec_cons_eq_some.mp hrun
    simp only at hrest hout
    rw [hout, List.flatten_cons, happend, Along]
    simp only [hstep]
    by_cases ha : P s a
    · obtain ⟨ht, ho⟩ := hkeep s a t o hs ha hstep
      rw [ih ht hrest]
      exact and_congr_left fun _ => iff_of_true ho ha
    · refine iff_of_false (fun ⟨ho, hos⟩ => ?_) fun h => ha h.1
      have ht : Trap t := (hleave s a t o hs ha hstep).resolve_left (not_not_intro ho)
      exact unclean_of_trap happend htrap ht hrest hend hos

/-- A condition on the inputs alone is met along every run over inputs that meet it. -/
theorem along_of_forall {p : α → Prop} {s : σ} {as : List α} (h : ∀ a ∈ as, p a) :
    M.Along (fun _ a => p a) s as := by
  induction as generalizing s with
  | nil => trivial
  | cons a as ih =>
    rw [List.forall_mem_cons] at h
    refine ⟨h.1, ?_⟩
    cases M.step s a with
    | none => trivial
    | some p => exact ih h.2

/-- If from the states in `I` exactly the inputs that `P` allows are not refused, then exactly
the runs along `P` succeed. -/
theorem isSome_exec_iff (I : σ → Prop) (P : σ → α → Prop)
    (h : ∀ s a, I s → ((M.step s a).isSome ↔ P s a))
    (hkeep : ∀ s a s' o, I s → M.step s a = some (s', o) → I s')
    {s : σ} {as : List α} (hI : I s) : (M.exec s as).isSome ↔ M.Along P s as := by
  induction as generalizing s with
  | nil => exact ⟨fun _ => trivial, fun _ => rfl⟩
  | cons a as ih =>
    rw [Along, ← h s a hI]
    cases hstep : M.step s a with
    | none => simp [exec, hstep]
    | some p =>
      have hrest := ih (hkeep s a p.1 p.2 hI hstep)
      rw [exec_cons_of_step hstep, Option.isSome_map, hrest]
      simp

/-! ## Two machines side by side -/

/-- **The lockstep rule.**  If from states in `R` each input that `P` allows takes both machines
to states in `R` again, with the same outputs, then they have the same runs along `P`. -/
theorem exec_of_lockstep {τ : Type*} {N : Machine τ α ω} (R : σ → τ → Prop) (P : σ → α → Prop)
    (h : ∀ s t a, R s t → P s a → ∃ s' t' o,
      M.step s a = some (s', o) ∧ N.step t a = some (t', o) ∧ R s' t')
    {s : σ} {t : τ} {as : List α} (hR : R s t) (hP : M.Along P s as) :
    ∃ s' t' os, M.exec s as = some (s', os) ∧ N.exec t as = some (t', os) ∧ R s' t' := by
  induction as generalizing s t with
  | nil => exact ⟨s, t, [], rfl, rfl, hR⟩
  | cons a as ih =>
    obtain ⟨hPa, hrest⟩ := hP
    obtain ⟨s₁, t₁, o, hstep, hstep', hR₁⟩ := h s t a hR hPa
    rw [hstep] at hrest
    obtain ⟨s', t', os, hrun, hrun', hR'⟩ := ih hR₁ hrest
    refine ⟨s', t', o :: os, ?_, ?_, hR'⟩
    · rw [exec_cons_of_step hstep, hrun]
      rfl
    · rw [exec_cons_of_step hstep', hrun']
      rfl

/-! ## Inputs that do nothing, inputs of another form -/

/-- The final state of a run and all of its outputs in order. -/
def outcome (M : Machine σ α ω) (s : σ) (as : List α) : Option (σ × List ω) :=
  (M.exec s as).map fun r => (r.1, r.2.flatten)

/-- What comes of a run whose first step is known. -/
theorem outcome_cons_of_step {s s' : σ} {a : α} {o : List ω} (h : M.step s a = some (s', o))
    (as : List α) :
    M.outcome s (a :: as) = (M.outcome s' as).map fun r => (r.1, o ++ r.2) := by
  simp only [outcome, exec_cons_of_step h, Option.map_map]
  rfl

/-- Nothing comes of a run whose first step is refused. -/
theorem outcome_cons_of_refused {s : σ} {a : α} (h : M.step s a = none) (as : List α) :
    M.outcome s (a :: as) = none := by
  simp [outcome, exec, h]

/-- Inputs that do nothing where they are given can be left out of a run. -/
theorem outcome_filter (keep : α → Bool) {s : σ} {as : List α}
    (h : M.Along (fun t a => keep a = false → M.step t a = some (t, [])) s as) :
    M.outcome s as = M.outcome s (as.filter keep) := by
  induction as generalizing s with
  | nil => rfl
  | cons a as ih =>
    obtain ⟨hidle, hrest⟩ := h
    cases hkeep : keep a with
    | false =>
      have hstep := hidle hkeep
      rw [hstep] at hrest
      rw [List.filter_cons_of_neg (by simp [hkeep]), outcome_cons_of_step hstep, ← ih hrest]
      simp
    | true =>
      rw [List.filter_cons_of_pos hkeep]
      cases hstep : M.step s a with
      | none => rw [outcome_cons_of_refused hstep, outcome_cons_of_refused hstep]
      | some p =>
        rw [hstep] at hrest
        rw [outcome_cons_of_step hstep, outcome_cons_of_step hstep, ih hrest]

/-- The machine that takes inputs of another form. -/
def comap {β : Type*} (M : Machine σ α ω) (f : β → α) : Machine σ β ω where
  step s b := M.step s (f b)

/-- A run on translated inputs. -/
theorem exec_comap {β : Type*} (f : β → α) (s : σ) (bs : List β) :
    (M.comap f).exec s bs = M.exec s (bs.map f) := by
  induction bs generalizing s with
  | nil => rfl
  | cons b bs ih =>
    have hstep : (M.comap f).step s b = M.step s (f b) := rfl
    rw [List.map_cons, exec, exec, hstep]
    cases M.step s (f b) with
    | none => rfl
    | some p => simp only [ih p.1]

/-- What comes of a run on translated inputs. -/
theorem outcome_comap {β : Type*} (f : β → α) (s : σ) (bs : List β) :
    (M.comap f).outcome s bs = M.outcome s (bs.map f) := by
  rw [outcome, outcome, exec_comap]

/-! ## History variables -/

/-- The machine with a history variable, updated by `upd` at every step from what the
step reads and does. -/
def observe (M : Machine σ α ω) (upd : γ → σ → α → σ → List ω → γ) :
    Machine (σ × γ) α ω where
  step p a := (M.step p.1 a).map fun r => ((r.1, upd p.2 p.1 a r.1 r.2), r.2)

/-- A step of the observed machine is a step of the machine and an update. -/
@[simp] theorem observe_step_eq_some {upd : γ → σ → α → σ → List ω → γ} {p q : σ × γ}
    {a : α} {o : List ω} :
    (M.observe upd).step p a = some (q, o) ↔
      M.step p.1 a = some (q.1, o) ∧ q.2 = upd p.2 p.1 a q.1 o := by
  obtain ⟨q₁, q₂⟩ := q
  simp only [observe, Option.map_eq_some_iff, Prod.mk.injEq, Prod.exists]
  constructor
  · rintro ⟨s', o', hs, ⟨rfl, rfl⟩, rfl⟩
    exact ⟨hs, rfl⟩
  · rintro ⟨hs, rfl⟩
    exact ⟨q₁, o, hs, ⟨rfl, rfl⟩, rfl⟩

end Machine

end Resmod.Library
