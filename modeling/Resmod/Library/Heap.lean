import Mathlib.Data.Finmap
import Mathlib.Tactic.Common

/-!
# Programs that allocate

A heap is a finite map from addresses to blocks.  A command reads, writes and frees blocks
that are allocated, and faults at any other address.  Allocation can fail, as the parameter
`available` says, and no address is handed out twice.

`Triple P c Q` is total: from a part of the heap where `P` holds, `c` does not fault, it
leaves the rest of the heap as it is, and what it owns in the end it has owned before or has
allocated.  The rules below the connectives execute one command at the front of a program.
-/

set_option autoImplicit false

namespace Resmod.Library

/-- The blocks at the addresses that are allocated. -/
abbrev Blocks (β : Type) := Finmap fun _ : ℕ => β

namespace Blocks

variable {β : Type} {a x : ℕ} {b : β} {h : Blocks β}

/-- The block at its own address. -/
theorem lookup_singleton_union : (Finmap.singleton a b ∪ h : Blocks β).lookup a = some b := by
  have hmem : a ∈ (Finmap.singleton a b : Blocks β) := (Finmap.mem_singleton a a b).mpr rfl
  exact (Finmap.lookup_union_left hmem).trans Finmap.lookup_singleton_eq

/-- The blocks at all other addresses. -/
theorem lookup_singleton_union_ne (hx : x ≠ a) :
    (Finmap.singleton a b ∪ h : Blocks β).lookup x = h.lookup x := by
  have hmem : x ∉ (Finmap.singleton a b : Blocks β) := by
    rw [Finmap.mem_singleton]
    exact hx
  exact Finmap.lookup_union_right hmem

/-- One block is apart from a part of the heap that does not have its address. -/
theorem disjoint_singleton {rest : Blocks β} :
    (Finmap.singleton a b : Blocks β).Disjoint rest ↔ a ∉ rest := by
  constructor
  · exact fun hdisjoint => hdisjoint a ((Finmap.mem_singleton a a b).mpr rfl)
  · intro hrest x hx
    rw [Finmap.mem_singleton] at hx
    exact hx ▸ hrest

end Blocks

/-- A heap; the addresses below `next` have been handed out. -/
structure Heap (β : Type) where
  blocks : Blocks β
  next : ℕ
  lt_next : ∀ x ∈ blocks, x < next

namespace Heap

variable {β : Type}

/-- The heap before any allocation. -/
def empty : Heap β := ⟨∅, 0, fun _ ha => absurd ha Finmap.notMem_empty⟩

/-- The next address is free. -/
theorem next_notMem (h : Heap β) : h.next ∉ h.blocks := fun hmem => (h.lt_next _ hmem).false

/-- The next address is handed out for a block. -/
def push (h : Heap β) (b : β) : Heap β where
  blocks := h.blocks.insert h.next b
  next := h.next + 1
  lt_next a ha := by
    rcases Finmap.mem_insert.mp ha with rfl | ha
    · exact Nat.lt_succ_self _
    · exact (h.lt_next a ha).trans (Nat.lt_succ_self _)

/-- The next address is passed over. -/
def skip (h : Heap β) : Heap β where
  blocks := h.blocks
  next := h.next + 1
  lt_next a ha := (h.lt_next a ha).trans (Nat.lt_succ_self _)

/-- The block at an allocated address is replaced. -/
def set (h : Heap β) (a : ℕ) (b : β) (ha : a ∈ h.blocks) : Heap β where
  blocks := h.blocks.insert a b
  next := h.next
  lt_next a' ha' := by
    rcases Finmap.mem_insert.mp ha' with rfl | ha'
    · exact h.lt_next _ ha
    · exact h.lt_next _ ha'

/-- The address is no longer allocated. -/
def erase (h : Heap β) (a : ℕ) : Heap β where
  blocks := h.blocks.erase a
  next := h.next
  lt_next _ ha' := h.lt_next _ (Finmap.mem_erase.mp ha').2

/-- A block is allocated at the next address. -/
@[simp] theorem blocks_push (h : Heap β) (b : β) :
    (h.push b).blocks = h.blocks.insert h.next b := rfl

/-- A store replaces one block. -/
@[simp] theorem blocks_set (h : Heap β) (a : ℕ) (b : β) (ha : a ∈ h.blocks) :
    (h.set a b ha).blocks = h.blocks.insert a b := rfl

/-- A free takes one block away. -/
@[simp] theorem blocks_erase (h : Heap β) (a : ℕ) : (h.erase a).blocks = h.blocks.erase a := rfl

end Heap

/-- A program over a heap; there is no result where it faults. -/
abbrev Command (β α : Type) := StateT (Heap β) Option α

namespace Command

variable {β α : Type}

/-- The command that faults. -/
def fault : Command β α := fun _ => none

/-- A block is allocated where one is available. -/
def alloc (available : ℕ → Bool) (b : β) : Command β (Option ℕ) := fun h =>
  if available h.next then some (some h.next, h.push b) else some (none, h.skip)

/-- A block is read; it is a fault if nothing is allocated there. -/
def load (a : ℕ) : Command β β := fun h => (h.blocks.lookup a).map fun b => (b, h)

/-- A block is written; it is a fault if nothing is allocated there. -/
def store (a : ℕ) (b : β) : Command β Unit := fun h =>
  if ha : a ∈ h.blocks then some ((), h.set a b ha) else none

/-- A block is freed; it is a fault if nothing is allocated there. -/
def free (a : ℕ) : Command β Unit := fun h =>
  if a ∈ h.blocks then some ((), h.erase a) else none

/-- Memory that is not allocated cannot be read. -/
theorem load_eq_none {h : Heap β} {a : ℕ} (ha : a ∉ h.blocks) :
    (load a : Command β β) h = none := by
  rw [load, Finmap.lookup_eq_none.mpr ha, Option.map_none]

/-- A program that faults does so under every continuation. -/
theorem bind_eq_none {γ : Type} {c : Command β α} {f : α → Command β γ} {h : Heap β}
    (hc : c h = none) : (c >>= f) h = none := by
  show (c h).bind _ = none
  rw [hc]
  rfl

end Command

/-! ## Assertions -/

/-- What can be said of a part of a heap. -/
abbrev Assertion (β : Type) := Blocks β → Prop

namespace Assertion

variable {β : Type} {P P' Q Q' R : Assertion β}

/-- No block. -/
def emp : Assertion β := fun h => h = ∅

/-- One block. -/
def pts (a : ℕ) (b : β) : Assertion β := fun h => h = Finmap.singleton a b

/-- The blocks are in two parts. -/
def sep (P Q : Assertion β) : Assertion β := fun h =>
  ∃ h₁ h₂, h₁.Disjoint h₂ ∧ h = h₁ ∪ h₂ ∧ P h₁ ∧ Q h₂

/-- The parts may be named in either order. -/
theorem sep_comm : P.sep Q = Q.sep P := by
  have hswap : ∀ (P Q : Assertion β) h, P.sep Q h → Q.sep P h := by
    rintro P Q _ ⟨h₁, h₂, hdisjoint, rfl, hP, hQ⟩
    exact ⟨h₂, h₁, hdisjoint.symm, Finmap.union_comm_of_disjoint hdisjoint, hQ, hP⟩
  funext h
  exact propext ⟨hswap P Q h, hswap Q P h⟩

/-- Three parts. -/
theorem sep_assoc : (P.sep Q).sep R = P.sep (Q.sep R) := by
  funext h
  apply propext
  constructor
  · rintro ⟨_, h₃, hdisjoint, rfl, ⟨h₁, h₂, h₁₂, rfl, hP, hQ⟩, hR⟩
    obtain ⟨h₁₃, h₂₃⟩ := (Finmap.disjoint_union_left _ _ _).mp hdisjoint
    exact ⟨h₁, h₂ ∪ h₃, (Finmap.disjoint_union_right _ _ _).mpr ⟨h₁₂, h₁₃⟩,
      Finmap.union_assoc, hP, h₂, h₃, h₂₃, rfl, hQ, hR⟩
  · rintro ⟨h₁, _, hdisjoint, rfl, hP, h₂, h₃, h₂₃, rfl, hQ, hR⟩
    obtain ⟨h₁₂, h₁₃⟩ := (Finmap.disjoint_union_right _ _ _).mp hdisjoint
    exact ⟨h₁ ∪ h₂, h₃, (Finmap.disjoint_union_left _ _ _).mpr ⟨h₁₃, h₂₃⟩,
      Finmap.union_assoc.symm, ⟨h₁, h₂, h₁₂, rfl, hP, hQ⟩, hR⟩

/-- The second of three parts is named first. -/
theorem sep_left_comm : P.sep (Q.sep R) = Q.sep (P.sep R) := by
  rw [← sep_assoc, sep_comm (P := P), sep_assoc]

/-- Nothing in front of a part. -/
theorem emp_sep : emp.sep P = P := by
  funext h
  apply propext
  constructor
  · rintro ⟨_, h₂, -, rfl, rfl, hP⟩
    rw [Finmap.empty_union]
    exact hP
  · exact fun hP => ⟨∅, h, Finmap.disjoint_empty h, Finmap.empty_union.symm, rfl, hP⟩

/-- Nothing behind a part. -/
theorem sep_emp : P.sep emp = P := by
  rw [sep_comm, emp_sep]

/-- Each part may be described more weakly. -/
theorem sep_mono (hP : ∀ h, P h → P' h) (hQ : ∀ h, Q h → Q' h) :
    ∀ h, P.sep Q h → P'.sep Q' h := by
  rintro _ ⟨h₁, h₂, hdisjoint, rfl, h₁P, h₂Q⟩
  exact ⟨h₁, h₂, hdisjoint, rfl, hP _ h₁P, hQ _ h₂Q⟩

/-- The address of a block that is there, by the blocks of the two parts. -/
theorem sep_pts {a : ℕ} {b : β} {h : Blocks β} (hsep : (pts a b).sep P h) :
    h.lookup a = some b := by
  obtain ⟨_, h₂, -, rfl, rfl, -⟩ := hsep
  exact Blocks.lookup_singleton_union

end Assertion

open Assertion

/-- A heap is in two parts. -/
structure Heap.Split {β : Type} (h : Heap β) (own rest : Blocks β) : Prop where
  disjoint : own.Disjoint rest
  blocks_eq : h.blocks = own ∪ rest

/-- One heap comes later than another, and a part of it has only old and new addresses. -/
structure Heap.Later {β : Type} (h : Heap β) (own : Blocks β) (h' : Heap β) (own' : Blocks β) :
    Prop where
  next_le : h.next ≤ h'.next
  new : ∀ x ∈ own', x ∈ own ∨ h.next ≤ x

namespace Heap

variable {β : Type} {h h' h'' : Heap β} {own own' own'' rest part : Blocks β}

/-- A heap comes after itself. -/
theorem Later.refl : h.Later own h own := ⟨le_rfl, fun _ => Or.inl⟩

/-- One heap comes after another, and a third after that. -/
theorem Later.trans (h₁ : h.Later own h' own') (h₂ : h'.Later own' h'' own'') :
    h.Later own h'' own'' := by
  refine ⟨h₁.next_le.trans h₂.next_le, fun x hx => ?_⟩
  rcases h₂.new x hx with hx | hx
  · exact h₁.new x hx
  · exact .inr (h₁.next_le.trans hx)

/-- What comes later for a part does so for a larger one. -/
theorem Later.union (hlater : h.Later own h' own') :
    h.Later (own ∪ part) h' (own' ∪ part) := by
  refine ⟨hlater.next_le, fun x hx => ?_⟩
  rw [Finmap.mem_union] at hx ⊢
  rcases hx with hx | hx
  · exact (hlater.new x hx).imp_left Or.inl
  · exact .inl (.inr hx)

/-- The next address is in neither part. -/
theorem Split.next_notMem (hsplit : h.Split own rest) : h.next ∉ own ∧ h.next ∉ rest := by
  have hfresh := h.next_notMem
  rwa [hsplit.blocks_eq, Finmap.mem_union, not_or] at hfresh

/-- A part goes over to the rest. -/
theorem Split.union_left (hsplit : h.Split (own ∪ part) rest) :
    h.Split own (part ∪ rest) ↔ own.Disjoint part := by
  obtain ⟨hdisjoint, hblocks⟩ := hsplit
  rw [Finmap.disjoint_union_left] at hdisjoint
  rw [Finmap.union_assoc] at hblocks
  exact ⟨fun h => ((Finmap.disjoint_union_right _ _ _).mp h.disjoint).1,
    fun h => ⟨(Finmap.disjoint_union_right _ _ _).mpr ⟨h, hdisjoint.1⟩, hblocks⟩⟩

/-- A part comes from the rest. -/
theorem Split.union_right (hsplit : h.Split own (part ∪ rest)) (hpart : part.Disjoint rest) :
    own.Disjoint part ∧ h.Split (own ∪ part) rest := by
  obtain ⟨hdisjoint, hblocks⟩ := hsplit
  obtain ⟨hown, hrest⟩ := (Finmap.disjoint_union_right _ _ _).mp hdisjoint
  rw [← Finmap.union_assoc] at hblocks
  exact ⟨hown, (Finmap.disjoint_union_left _ _ _).mpr ⟨hrest, hpart⟩, hblocks⟩

/-- A block of one part is one of the heap. -/
theorem Split.lookup (hsplit : h.Split own rest) {a : ℕ} {b : β} (hown : own.lookup a = some b) :
    h.blocks.lookup a = some b := by
  rw [hsplit.blocks_eq, Finmap.lookup_union_left (Finmap.mem_of_lookup_eq_some hown), hown]

end Heap

/-- From a part of the heap with `P` the program ends in one with `Q`. -/
def Triple {β α : Type} (P : Assertion β) (c : Command β α) (Q : α → Assertion β) : Prop :=
  ∀ (h : Heap β) (own rest : Blocks β), h.Split own rest → P own →
    ∃ a h' own', c h = some (a, h') ∧ h'.Split own' rest ∧ h.Later own h' own' ∧ Q a own'

namespace Triple

variable {β α γ : Type} {P P' R : Assertion β} {Q Q' : α → Assertion β} {c : Command β α}
  {S : γ → Assertion β} {f : α → Command β γ}

/-- A stronger condition before and a weaker one after. -/
theorem consequence (htriple : Triple P c Q) (hP : ∀ h, P' h → P h)
    (hQ : ∀ a h, Q a h → Q' a h) : Triple P' c Q' := by
  intro h own rest hsplit hown
  obtain ⟨a, h', own', hc, hsplit', hlater, hQ'⟩ := htriple h own rest hsplit (hP _ hown)
  exact ⟨a, h', own', hc, hsplit', hlater, hQ _ _ hQ'⟩

/-- A program leaves what it does not own as it is. -/
theorem frame (htriple : Triple P c Q) : Triple (P.sep R) c fun a => (Q a).sep R := by
  rintro h _ rest hsplit ⟨h₁, h₂, h₁₂, rfl, hP, hR⟩
  obtain ⟨a, h', own', hc, ⟨hdisjoint, hblocks⟩, hlater, hQ⟩ :=
    htriple h h₁ (h₂ ∪ rest) (hsplit.union_left.mpr h₁₂) hP
  obtain ⟨h₂', hr'⟩ := (Finmap.disjoint_union_right _ _ _).mp hdisjoint
  have h₂r := ((Finmap.disjoint_union_left _ _ _).mp hsplit.disjoint).2
  rw [← Finmap.union_assoc] at hblocks
  exact ⟨a, h', own' ∪ h₂, hc, ⟨(Finmap.disjoint_union_left _ _ _).mpr ⟨hr', h₂r⟩, hblocks⟩,
    hlater.union, own', h₂, h₂', rfl, hQ, hR⟩

/-- A program that only returns. -/
theorem ret {a : α} (hP : ∀ h, P h → Q a h) : Triple P (pure a) Q :=
  fun h own _ hsplit hown => ⟨a, h, own, rfl, hsplit, .refl, hP _ hown⟩

/-- One program after another. -/
theorem bind (hc : Triple P c Q) (hf : ∀ a, Triple (Q a) (f a) S) : Triple P (c >>= f) S := by
  intro h own rest hsplit hown
  obtain ⟨a, h', own', hc, hsplit', hlater, hQ⟩ := hc h own rest hsplit hown
  obtain ⟨b, h'', own'', hf, hsplit'', hlater', hS⟩ := hf a h' own' rest hsplit' hQ
  refine ⟨b, h'', own'', ?_, hsplit'', hlater.trans hlater', hS⟩
  show (c h).bind _ = _
  rw [hc]
  exact hf

/-- What holds for each value holds if there is one. -/
theorem exists_intro {ι : Type} {P : ι → Assertion β} (htriple : ∀ i, Triple (P i) c Q) :
    Triple (fun h => ∃ i, P i h) c Q := by
  rintro h own rest hsplit ⟨i, hown⟩
  exact htriple i h own rest hsplit hown

/-! ## The commands -/

/-- A block that is owned is read. -/
theorem load {a : ℕ} {b : β} {f : β → Command β γ} (hf : Triple ((pts a b).sep R) (f b) S) :
    Triple ((pts a b).sep R) (Command.load a >>= f) S := by
  intro h own rest hsplit hown
  obtain ⟨c, h', own', hc, hafter⟩ := hf h own rest hsplit hown
  refine ⟨c, h', own', ?_, hafter⟩
  show ((Command.load a : Command β β) h).bind _ = _
  rw [Command.load, hsplit.lookup (sep_pts hown)]
  exact hc

/-- A block that is owned is replaced. -/
theorem store {a : ℕ} {b b' : β} {f : Unit → Command β γ}
    (hf : Triple ((pts a b').sep R) (f ()) S) :
    Triple ((pts a b).sep R) (Command.store a b' >>= f) S := by
  rintro h _ rest ⟨hdisjoint, hblocks⟩ ⟨_, h₂, h₁₂, rfl, rfl, hR⟩
  obtain ⟨hrest, h₂r⟩ := (Finmap.disjoint_union_left _ _ _).mp hdisjoint
  rw [Blocks.disjoint_singleton] at hrest h₁₂
  have hmem : a ∈ h.blocks := by simp [hblocks]
  have hsplit' : (h.set a b' hmem).Split (Finmap.singleton a b' ∪ h₂) rest := by
    constructor
    · exact (Finmap.disjoint_union_left _ _ _).mpr
        ⟨Blocks.disjoint_singleton.mpr hrest, h₂r⟩
    · rw [Heap.blocks_set, hblocks, Finmap.union_assoc, Finmap.insert_union,
        Finmap.insert_singleton_eq, Finmap.union_assoc]
  obtain ⟨c, h', own', hc, hsplit'', hlater, hS⟩ :=
    hf _ _ rest hsplit' ⟨_, h₂, Blocks.disjoint_singleton.mpr h₁₂, rfl, rfl, hR⟩
  refine ⟨c, h', own', ?_, hsplit'', ⟨hlater.next_le, fun x hx => ?_⟩, hS⟩
  · show ((Command.store a b' : Command β Unit) h).bind _ = _
    rw [Command.store, dif_pos hmem]
    exact hc
  · refine (hlater.new x hx).imp_left fun hx => ?_
    rw [Finmap.mem_union, Finmap.mem_singleton] at hx ⊢
    exact hx

/-- A block that is owned is given back. -/
theorem free {a : ℕ} {b : β} {f : Unit → Command β γ} (hf : Triple R (f ()) S) :
    Triple ((pts a b).sep R) (Command.free a >>= f) S := by
  rintro h _ rest ⟨hdisjoint, hblocks⟩ ⟨_, h₂, h₁₂, rfl, rfl, hR⟩
  obtain ⟨hrest, h₂r⟩ := (Finmap.disjoint_union_left _ _ _).mp hdisjoint
  rw [Blocks.disjoint_singleton] at hrest h₁₂
  have hmem : a ∈ h.blocks := by simp [hblocks]
  have hnone : a ∉ h₂ ∪ rest := by
    rw [Finmap.mem_union, not_or]
    exact ⟨h₁₂, hrest⟩
  have hsplit' : (h.erase a).Split h₂ rest := by
    refine ⟨h₂r, Finmap.ext_lookup fun x => ?_⟩
    rw [Heap.blocks_erase, hblocks, Finmap.union_assoc]
    by_cases hx : x = a
    · rw [hx, Finmap.lookup_erase, Finmap.lookup_eq_none.mpr hnone]
    · rw [Finmap.lookup_erase_ne hx, Blocks.lookup_singleton_union_ne hx]
  obtain ⟨c, h', own', hc, hsplit'', hlater, hS⟩ := hf _ h₂ rest hsplit' hR
  refine ⟨c, h', own', ?_, hsplit'', ⟨hlater.next_le, fun x hx => ?_⟩, hS⟩
  · show ((Command.free a : Command β Unit) h).bind _ = _
    rw [Command.free, if_pos hmem]
    exact hc
  · exact (hlater.new x hx).imp_left fun hx => Finmap.mem_union.mpr (.inr hx)

/-- A block is allocated, or it is not. -/
theorem alloc {available : ℕ → Bool} {b : β} {f : Option ℕ → Command β γ}
    (hnone : Triple R (f none) S) (hsome : ∀ a, Triple ((pts a b).sep R) (f (some a)) S) :
    Triple R (Command.alloc available b >>= f) S := by
  intro h own rest hsplit hown
  cases havailable : available h.next with
  | false =>
    obtain ⟨c, h', own', hc, hsplit', hlater, hS⟩ :=
      hnone h.skip own rest ⟨hsplit.disjoint, hsplit.blocks_eq⟩ hown
    have hskip : h.Later own h.skip own := ⟨Nat.le_succ _, fun _ => Or.inl⟩
    refine ⟨c, h', own', ?_, hsplit', hskip.trans hlater, hS⟩
    show ((Command.alloc available b : Command β (Option ℕ)) h).bind _ = _
    rw [Command.alloc, if_neg (by simp [havailable])]
    exact hc
  | true =>
    obtain ⟨hfresh, hfreshRest⟩ := hsplit.next_notMem
    have hsplit' : (h.push b).Split (Finmap.singleton h.next b ∪ own) rest := by
      refine ⟨(Finmap.disjoint_union_left _ _ _).mpr
        ⟨Blocks.disjoint_singleton.mpr hfreshRest, hsplit.disjoint⟩,
        Finmap.ext_lookup fun x => ?_⟩
      rw [Heap.blocks_push, hsplit.blocks_eq, Finmap.union_assoc]
      by_cases hx : x = h.next
      · rw [hx, Finmap.lookup_insert, Blocks.lookup_singleton_union]
      · rw [Finmap.lookup_insert_of_ne _ hx, Blocks.lookup_singleton_union_ne hx]
    have hpush : h.Later own (h.push b) (Finmap.singleton h.next b ∪ own) := by
      refine ⟨Nat.le_succ _, fun x hx => ?_⟩
      rw [Finmap.mem_union, Finmap.mem_singleton] at hx
      exact hx.symm.imp_right fun hx => hx.ge
    obtain ⟨c, h', own', hc, hsplit'', hlater, hS⟩ := hsome h.next (h.push b) _ rest hsplit'
      ⟨_, own, Blocks.disjoint_singleton.mpr hfresh, rfl, rfl, hown⟩
    refine ⟨c, h', own', ?_, hsplit'', hpush.trans hlater, hS⟩
    show ((Command.alloc available b : Command β (Option ℕ)) h).bind _ = _
    rw [Command.alloc, if_pos havailable]
    exact hc

end Triple

end Resmod.Library
