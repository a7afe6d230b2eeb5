import Resmod.Analysis.TableReception

/-!
# When an address is offered, and which

The table of ids in use is collected so that the slave can offer a free address.  The
first half says when a complete table is followed by an offer: `ReceiveSlaveTable` calls
`HandShaking` and `ReceiveExtraSlaveTable` does not, so it depends on whether the table
fits in the announcement.

The second half is about the address.  `negotiation` is the slave with the history that a
master would keep: the table it delivered last, the address it was offered last, and the
addresses it rejected since that table.  `offers_free_iff` says for every run when each
offered address is neither in that table nor rejected.
-/

set_option autoImplicit false

namespace Resmod.Analysis

open Resmod.Library Resmod.Model Resmod.Model.CanSlave

/-! ## The offer after a table -/

/-- The calls run to the end, the last of them offers exactly one address, on the id of
the uninitialised slaves, and no earlier one offers any. -/
def OffersOnCompletion (s : CanSlave) (calls : List Call) : Prop :=
  ∃ s' early last m, machine.exec s calls = some (s', early ++ [last]) ∧
    (∀ o ∈ early, selectAddresses o = []) ∧ selectAddresses last = [m] ∧
    m.id = canidUninitSlave

/-- **When a table is followed by an offer.**  A new slave that is delivered a table of 2
to 255 ids, cut in any way, offers an address with the last frame and none earlier if and
only if the table fits in the announcement.
SOURCE: canslave.cc:107-137, 165-169 -/
theorem offers_on_completion_iff (table : List UInt8) (pieces : List (List UInt8))
    (calls : List Call) (h2 : 2 ≤ table.length) (h255 : table.length ≤ 255)
    (hcuts : Cuts (table.drop 6) pieces)
    (hcalls : Delivers initial.canid table pieces calls) :
    OffersOnCompletion initial calls ↔ table.length ≤ 6 := by
  constructor
  · rintro ⟨s', early, last, m, hrun, -, hlast, -⟩
    by_contra hgt
    obtain ⟨hlong, -⟩ := exec_delivery_long rfl (by omega) h255 hcuts hcalls
    rw [hlong] at hrun
    have hout := (Prod.mk.inj (Option.some.inj hrun)).2
    have hmem : last ∈ List.replicate calls.length [] := by
      rw [hout]
      simp
    rw [(List.mem_replicate.mp hmem).2] at hlast
    simp at hlast
  · intro h6
    obtain ⟨hw, -, hrun⟩ := exec_delivery_short rfl h2 h6 hcuts hcalls
    exact ⟨_, [], handShaking hw, offer hw, hrun, by simp, rfl, rfl⟩

/-- A table of three ids fits in the announcement and is followed by an offer. -/
theorem offers_on_completion_three :
    OffersOnCompletion initial [rxFrame 0 [2, 3, 0, 1, 9]] ↔ 3 ≤ 6 :=
  offers_on_completion_iff [0, 1, 9] [] [rxFrame 0 [2, 3, 0, 1, 9]] (by decide) (by decide)
    (cuts_nil.mpr rfl) (.cons ⟨rfl, rfl, rfl⟩ .nil)

/-- A table of seven ids is received in two frames and never followed by an offer. -/
theorem not_offers_on_completion_seven :
    Cuts ([0, 1, 2, 3, 4, 5, 6].drop 6) [[6]] ∧
      Delivers initial.canid [0, 1, 2, 3, 4, 5, 6] [[6]]
        [rxFrame 0 [2, 7, 0, 1, 2, 3, 4, 5], rxFrame 0 [6]] ∧
      ¬ OffersOnCompletion initial
        [rxFrame 0 [2, 7, 0, 1, 2, 3, 4, 5], rxFrame 0 [6]] := by
  refine ⟨⟨rfl, by decide⟩, .cons ⟨rfl, rfl, rfl⟩ (.cons ⟨rfl, rfl, rfl⟩ .nil), ?_⟩
  rintro ⟨s', early, last, m, hrun, -, hlast, -⟩
  have hsilent : machine.exec initial [rxFrame 0 [2, 7, 0, 1, 2, 3, 4, 5], rxFrame 0 [6]] =
      some (⟨0, false, 0, [2, 3, 4, 5, 6]⟩, [[]] ++ [[]]) := rfl
  rw [hsilent] at hrun
  have hout := List.append_inj_right' (Prod.mk.inj (Option.some.inj hrun)).2 rfl
  rw [← (List.cons.inj hout).1] at hlast
  simp at hlast

/-! ## The negotiation seen from the master -/

/-- What a master knows of its negotiation with the slave. -/
structure Negotiation where
  /-- The last table that was received completely. -/
  received : Option (List UInt8)
  offered : Option UInt8
  /-- The addresses the master rejected since the table. -/
  rejected : List UInt8

/-- What a call makes of the negotiation before the slave answers: a complete table starts
it over, a negative ack rejects the address offered last. -/
def Negotiation.hear (n : Negotiation) (s : CanSlave) (c : Call) (s' : CanSlave) :
    Negotiation :=
  match reception s c with
  | .table _ count ids =>
    if s'.extratable then n
    else { n with received := some (ids.read count.toNat), rejected := [] }
  | .continuation dat size =>
    if s'.extratable then n
    else { n with received := some (s.idtable ++ dat.read size.toNat), rejected := [] }
  | .confirm _ ack =>
    if ack = 0xff then { n with rejected := n.offered.toList ++ n.rejected } else n
  | .other => n

/-- What the offers of a step make of the negotiation. -/
def Negotiation.answer (n : Negotiation) (o : List Effect) : Negotiation :=
  { n with offered := ((selectAddresses o).getLast?.bind wishOf).or n.offered }

/-- The slave together with the history of its negotiation. -/
def negotiation : Machine (CanSlave × Negotiation) Call Effect :=
  machine.observe fun n s c s' o => (n.hear s c s').answer o

/-- No table has been received. -/
def Negotiation.start : Negotiation := ⟨none, none, []⟩

/-- Every address offered in the step after a complete table is neither in the table nor
among the rejected addresses. -/
def OffersFree (_ : CanSlave × Negotiation) (_ : Call) (p' : CanSlave × Negotiation)
    (o : List Effect) : Prop :=
  ∀ m ∈ selectAddresses o, ∀ a ∈ wishOf m, ∀ table ∈ p'.2.received,
    a ∉ table ∧ a ∉ p'.2.rejected

/-- The call does not make the slave offer an address that is in use or rejected: a table
that fits in its announcement does not hold 45, and a negative ack after a table comes
before any offer and after a table without 45. -/
def FreeToOffer (p : CanSlave × Negotiation) (c : Call) : Prop :=
  match reception p.1 c with
  | .table _ count ids => count ≤ 6 → 45 ∉ ids.read count.toNat
  | .confirm _ ack =>
    ack = 0xff → ∀ table ∈ p.2.received, 45 ∉ table ∧ p.2.offered = none
  | _ => True

/-- The only address ever offered is 45, and only offered addresses are rejected. -/
def NegotiationInv (p : CanSlave × Negotiation) : Prop :=
  (p.2.offered = none ∧ p.2.rejected = []) ∨ p.2.offered = some 45

/-- Nothing is sent, and nothing changes. -/
@[simp] theorem Negotiation.answer_nil (n : Negotiation) : n.answer [] = n := by
  simp [Negotiation.answer]

/-- A step that offers nothing leaves the negotiation as it was heard. -/
theorem Negotiation.answer_of_silent (n : Negotiation) {o : List Effect}
    (h : selectAddresses o = []) : n.answer o = n := by
  simp [Negotiation.answer, h]

/-- The slave offers itself for the first time. -/
@[simp] theorem Negotiation.answer_handShaking (n : Negotiation) (hw : CanSlaveHardware) :
    n.answer (handShaking hw) = { n with offered := some 45 } := by
  simp [Negotiation.answer]

/-- The slave offers itself once more. -/
@[simp] theorem Negotiation.answer_offeredAgain (n : Negotiation) (hw : CanSlaveHardware) :
    n.answer (offeredAgain hw) = { n with offered := some 45 } := by
  simp [Negotiation.answer]

/-- **The step lemma.**  From a negotiation about address 45, a step offers free addresses
only if and only if the call does not ask for a taken one, and the negotiation is about
address 45 after it. -/
theorem offersFree_step {p p' : CanSlave × Negotiation} {c : Call} {o : List Effect}
    (hI : NegotiationInv p) (hstep : negotiation.step p c = some (p', o)) :
    (OffersFree p c p' o ↔ FreeToOffer p c) ∧ NegotiationInv p' := by
  obtain ⟨s, n⟩ := p
  obtain ⟨s', n'⟩ := p'
  obtain ⟨hs, hn⟩ := Machine.observe_step_eq_some.mp hstep
  simp only at hs hn
  subst hn
  unfold OffersFree FreeToOffer NegotiationInv Negotiation.hear at *
  cases hrec : reception s c with
  | other =>
    obtain ⟨o', hs', hsel, -⟩ := step_of_other hrec
    rw [hs'] at hs
    cases hs
    simpa [hsel, Negotiation.answer_of_silent _ hsel] using hI
  | continuation dat size =>
    rw [step_of_continuation hrec] at hs
    obtain ⟨t, -, ht⟩ := Option.map_eq_some_iff.mp hs
    cases ht
    simp only [selectAddresses_nil, Negotiation.answer_nil]
    refine ⟨by simp, ?_⟩
    split_ifs
    · exact hI
    · exact hI.imp_left fun h => ⟨h.1, rfl⟩
  | table hw count ids =>
    rw [step_of_table hrec] at hs
    split_ifs at hs with h6 h2
    · -- the announcement is the whole table, and is answered at once
      cases hs
      simp [h6]
    · cases hs
      simpa [h6] using hI
  | confirm hw ack =>
    rw [step_of_confirm hrec] at hs
    split_ifs at hs with hff hzero
    · -- a rejection is answered with the same address
      cases hs
      rcases hI with ⟨hoff, hrej⟩ | hoff
      · simp_all
      · simp_all
    · cases hs
      have hsilent := selectAddresses_setCanID 45
      simpa [hff, hsilent, Negotiation.answer_of_silent _ hsilent] using hI
    · cases hs
      simpa [hff] using hI

/-- **When the offered addresses are free.**  In every run from power-up, every address
that is offered after a complete table is neither in that table nor rejected since, if and
only if no call asks for a taken one.
SOURCE: canslave.cc:107-123, 138-201 -/
theorem offers_free_iff (calls : List Call) :
    negotiation.Always OffersFree (initial, .start) calls ↔
      negotiation.Always (fun p c _ _ => FreeToOffer p c) (initial, .start) calls :=
  Machine.always_congr NegotiationInv
    (fun _ _ _ _ hI hstep => ⟨(offersFree_step hI hstep).1,
      fun _ => (offersFree_step hI hstep).2⟩)
    (.inl ⟨rfl, rfl⟩) calls

/-- A table that holds 45 is answered with an offer of 45, and so is the rejection of 45
after a table that does not. -/
theorem not_offers_free_of_taken :
    ¬ negotiation.Always OffersFree (initial, .start) [rxFrame 0 [2, 3, 0, 1, 45]] ∧
      ¬ negotiation.Always OffersFree (initial, .start) [rxFrame 0 [2, 2, 0, 1],
        rxFrame 0 [4, 0x9e, 0xb8, 0x45, 0, 0, 0, 0xff]] := by
  constructor
  · intro h
    have hfree := h.1 (offer (blackBoxCanSlaveHardware 0)) (by decide) 45 rfl [0, 1, 45] rfl
    exact hfree.1 (by decide)
  · intro h
    have hfree := h.2.1 (offer (blackBoxCanSlaveHardware 0)) (by decide) 45 rfl [0, 1] rfl
    exact hfree.2 (by decide)

end Resmod.Analysis
