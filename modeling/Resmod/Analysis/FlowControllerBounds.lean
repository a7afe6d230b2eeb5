import Resmod.Analysis.Rechunking
import Resmod.Model.FlowControllerAccess

/-!
# Where the flow controller reads and writes

`StaysInside` says of a call that everything `Push` copies into `extrastorage_` lands
below the packet size, that it takes nothing from behind the caller's buffer, and that it
returns with less than a packet pending.  The reads are within the buffer in every state.
The place to copy to is the count that has just been raised, so that filling up pending
bytes needs room for the new bytes twice: `staysInside_iff` is this condition for one call
and `stays_inside_iff` for a whole run.
-/

set_option autoImplicit false

namespace Resmod.Analysis

open Resmod.Library Resmod.Model Resmod.Model.FlowController

variable {maxpacket : UInt32}

/-- The copies of the call stay in the storage, its reads in the caller's buffer, and it
returns with less than a packet pending. -/
def StaysInside (fc : FlowController maxpacket) : Call → Prop
  | .push ready b size =>
    (∀ i, .store i ∈ (Access.push ready fc b size).run.log → i < maxpacket.toNat) ∧
    (∀ i : ℤ, .load i ∈ (Access.push ready fc b size).run.log → 0 ≤ i ∧ i < size.toNat) ∧
    ∃ fc' o, (Access.push ready fc b size).run.value = .ok (fc', o) ∧
      fc'.extrasize < maxpacket
  | .purge => True

/-- Nothing is pending, or behind what is pending there is room for the bytes twice. -/
def LeavesRoom (fc : FlowController maxpacket) : Call → Prop
  | .push _ _ size =>
    fc.extrasize = 0 ∨ fc.extrasize.toNat + 2 * size.toNat ≤ maxpacket.toNat
  | .purge => True

/-! ## The accesses of one push -/

/-- What `Push` takes to fill up the pending bytes. -/
def srequired (fc : FlowController maxpacket) (size : UInt32) : UInt32 :=
  min size (maxpacket - fc.extrasize)

/-- The bytes that fill the packet up, or all there are. -/
theorem toNat_srequired {fc : FlowController maxpacket} (hlt : fc.extrasize < maxpacket)
    (size : UInt32) :
    (srequired fc size).toNat = min size.toNat (maxpacket.toNat - fc.extrasize.toNat) := by
  have hsub : (maxpacket - fc.extrasize).toNat = maxpacket.toNat - fc.extrasize.toNat :=
    UInt32.toNat_sub_of_le _ _ (UInt32.le_of_lt hlt)
  have hle := @UInt32.le_iff_toNat_le size (maxpacket - fc.extrasize)
  unfold srequired
  rw [Std.min_eq_if]
  by_cases h : size ≤ maxpacket - fc.extrasize
  · rw [if_pos h]
    rw [hle] at h
    omega
  · rw [if_neg h]
    rw [hle] at h
    omega

/-- The count does not wrap when it is raised. -/
theorem toNat_extrasize_add {fc : FlowController maxpacket} (hlt : fc.extrasize < maxpacket)
    (size : UInt32) :
    (fc.extrasize + srequired fc size).toNat =
      fc.extrasize.toNat + (srequired fc size).toNat := by
  have hreq := toNat_srequired hlt size
  have hmax := maxpacket.toNat_lt
  rw [UInt32.lt_iff_toNat_lt] at hlt
  rw [UInt32.toNat_add, Nat.mod_eq_of_lt (by omega)]

/-- The accesses that fill up the pending bytes, and what is left of the size behind them. -/
theorem log_fillExtra (ready : Bool) (fc : FlowController maxpacket) (b : Bytes)
    (size : UInt32) :
    (Access.fillExtra ready fc b size).run.log =
      if 0 < fc.extrasize then
        (Access.copy { fc with extrasize := fc.extrasize + srequired fc size }
          (fc.extrasize + srequired fc size).toNat b 0 (srequired fc size).toNat).run.log
      else [] := by
  unfold Access.fillExtra
  by_cases hextra : 0 < fc.extrasize
  · rw [if_pos hextra, if_pos hextra]
    apply Traced.log_run_bind_of_silent
    intro fc'
    by_cases hfull : fc'.extrasize = maxpacket
    · rw [if_pos hfull]
      rfl
    · rw [if_neg hfull]
      rfl
  · rw [if_neg hextra, if_neg hextra]
    rfl

/-- The bytes that are left after the packet has been filled up. -/
theorem size_of_fillExtra {ready : Bool} {fc : FlowController maxpacket} {b : Bytes}
    {size : UInt32} {r : FlowController maxpacket × UInt32 × List ConsumerCall}
    (h : fillExtra ready fc b size = .ok r) :
    r.2.1 = if 0 < fc.extrasize then size - srequired fc size else size := by
  unfold fillExtra at h
  by_cases hextra : 0 < fc.extrasize
  · simp only [if_pos hextra] at h ⊢
    obtain ⟨fc', -, hrest⟩ := Traced.bind_eq_ok.mp h
    by_cases hfull : fc'.extrasize = maxpacket
    · rw [if_pos hfull] at hrest
      cases hrest
      rfl
    · rw [if_neg hfull] at hrest
      cases hrest
      rfl
  · rw [if_neg hextra] at h
    cases h
    rw [if_neg hextra]

/-- The pointer behind the whole packets. -/
theorem offset_transmitWhole (ready : ℕ → Bool) (b : Bytes) (iter i : ℕ) (pb : ℤ) :
    (Access.transmitWhole maxpacket ready b iter i pb).value.2 =
      pb + (iter * maxpacket.toNat : ℕ) := by
  induction iter generalizing i pb with
  | zero => simp [Access.transmitWhole]
  | succ iter ih =>
    simp only [Access.transmitWhole, Traced.value_bind, Traced.value_pure, ih]
    rw [Nat.succ_mul]
    omega

/-- The accesses behind the pending bytes: the whole packets, then what is kept. -/
theorem mem_log_push {ready : ℕ → Bool} {fc : FlowController maxpacket} {b : Bytes}
    {size : UInt32} {a : Access} (hm : maxpacket ≠ 0) :
    a ∈ (Access.push ready fc b size).run.log ↔
      a ∈ (Access.fillExtra (ready 0) fc b size).run.log ∨
      ∃ r, fillExtra (ready 0) fc b size = .ok r ∧
        ((∃ j, a = .load j ∧ 0 ≤ j ∧ j < (r.2.1.toNat : ℤ)) ∨
          ∃ j, a = .store j ∧ j < (r.2.1 % maxpacket).toNat) := by
  rw [Access.push, Traced.log_run_bind, Access.value_fillExtra, List.mem_append]
  apply or_congr_right
  cases hfill : fillExtra (ready 0) fc b size with
  | error e => simp
  | ok r =>
    obtain ⟨fc', s, filled⟩ := r
    have hsize : (s / maxpacket).toNat * maxpacket.toNat + (s % maxpacket).toNat =
        s.toNat := by
      rw [UInt32.toNat_div, UInt32.toNat_mod]
      exact Nat.div_add_mod' _ _
    have hzero : 0 < s % maxpacket ↔ 0 < (s % maxpacket).toNat := UInt32.lt_iff_toNat_lt
    simp only [if_neg hm, Traced.log_run_bind, Traced.value_run_lift, Traced.log_run_lift,
      List.mem_append, Access.mem_log_transmitWhole, Except.ok.injEq, exists_eq_left']
    by_cases hextra : 0 < s % maxpacket
    · rw [if_pos hextra]
      rw [hzero] at hextra
      rw [Traced.log_run_bind_of_silent _ fun _ => rfl, offset_transmitWhole]
      cases a with
      | load j =>
        simp only [Access.load_mem_copy, Access.load.injEq, exists_eq_left', reduceCtorEq,
          false_and, exists_false, or_false]
        omega
      | store j =>
        simp only [Access.store_mem_copy, Access.store.injEq, exists_eq_left', reduceCtorEq,
          false_and, exists_false, false_or]
        omega
    · rw [if_neg hextra]
      rw [hzero] at hextra
      cases a with
      | load j =>
        simp only [Access.load.injEq, exists_eq_left', reduceCtorEq, false_and, exists_false,
          or_false]
        change _ ∨ _ ∈ [] ↔ _
        simp only [List.not_mem_nil, or_false]
        omega
      | store j =>
        simp only [Access.store.injEq, exists_eq_left', reduceCtorEq, false_and, exists_false,
          false_or]
        change _ ∈ [] ↔ _
        simp only [List.not_mem_nil, false_iff]
        omega

/-- The reads stay in the caller's buffer, whatever is pending. -/
theorem load_mem_push {ready : ℕ → Bool} {fc : FlowController maxpacket} {b : Bytes}
    {size : UInt32} {i : ℤ} (hlt : fc.extrasize < maxpacket)
    (h : .load i ∈ (Access.push ready fc b size).run.log) : 0 ≤ i ∧ i < size.toNat := by
  have hm : maxpacket ≠ 0 := fun h => by simp [h] at hlt
  have hreq := toNat_srequired hlt size
  rw [mem_log_push hm, log_fillExtra] at h
  rcases h with hfill | ⟨r, hr, ⟨j, hj, hle, hj'⟩ | ⟨j, hj, -⟩⟩
  · by_cases hextra : 0 < fc.extrasize
    · rw [if_pos hextra, Access.load_mem_copy] at hfill
      omega
    · rw [if_neg hextra] at hfill
      exact absurd hfill List.not_mem_nil
  · have hsub : (size - srequired fc size).toNat = size.toNat - (srequired fc size).toNat := by
      apply UInt32.toNat_sub_of_le
      rw [UInt32.le_iff_toNat_le]
      omega
    rw [size_of_fillExtra hr] at hj'
    cases hj
    by_cases hextra : 0 < fc.extrasize
    · rw [if_pos hextra] at hj'
      omega
    · rw [if_neg hextra] at hj'
      exact ⟨hle, hj'⟩
  · exact absurd hj (by simp)

/-- **The stores** stay in the storage exactly if there is room for the bytes twice. -/
theorem stores_lt_iff {ready : ℕ → Bool} {fc : FlowController maxpacket} {b : Bytes}
    {size : UInt32} (hlt : fc.extrasize < maxpacket) :
    (∀ i, .store i ∈ (Access.push ready fc b size).run.log → i < maxpacket.toNat) ↔
      LeavesRoom fc (.push ready b size) := by
  have hm : maxpacket ≠ 0 := fun h => by simp [h] at hlt
  have hreq := toNat_srequired hlt size
  have hadd := toNat_extrasize_add hlt size
  have hpos : 0 < fc.extrasize ↔ 0 < fc.extrasize.toNat := UInt32.lt_iff_toNat_lt
  have hzero : fc.extrasize = 0 ↔ fc.extrasize.toNat = 0 := UInt32.toNat_inj.symm
  rw [UInt32.lt_iff_toNat_lt] at hlt
  simp only [mem_log_push hm, log_fillExtra, LeavesRoom, hpos, hzero]
  by_cases hextra : 0 < fc.extrasize.toNat
  · simp only [if_pos hextra, Access.store_mem_copy, hadd]
    constructor
    · intro h
      have hlast := h (fc.extrasize.toNat + 2 * (srequired fc size).toNat - 1)
      by_cases hnone : (srequired fc size).toNat = 0
      · omega
      · have hin := hlast (.inl (by omega))
        omega
    · intro h i hi
      rcases hi with hi | ⟨r, -, ⟨j, hj, -⟩ | ⟨j, hj, hj'⟩⟩
      · omega
      · exact absurd hj (by simp)
      · cases hj
        rw [UInt32.toNat_mod] at hj'
        exact Nat.lt_trans hj' (Nat.mod_lt _ (by omega))
  · simp only [if_neg hextra, List.not_mem_nil, false_or]
    constructor
    · intro _
      omega
    · rintro - i ⟨r, -, ⟨j, hj, -⟩ | ⟨j, hj, hj'⟩⟩
      · exact absurd hj (by simp)
      · cases hj
        rw [UInt32.toNat_mod] at hj'
        exact Nat.lt_trans hj' (Nat.mod_lt _ (by omega))

/-- A push of bytes that have room is only copied behind what is pending. -/
theorem push_of_room (ready : ℕ → Bool) {fc : FlowController maxpacket} (b : Bytes)
    {size : UInt32} (hextra : 0 < fc.extrasize) (hsize : 0 < size)
    (hroom : fc.extrasize.toNat + 2 * size.toNat ≤ maxpacket.toNat) :
    ∃ fc', fc.push ready b size = .ok (fc', []) ∧ fc'.extrasize = fc.extrasize + size := by
  have hpos : 0 < size.toNat := UInt32.lt_iff_toNat_lt.mp hsize
  have hlt : fc.extrasize < maxpacket := by
    rw [UInt32.lt_iff_toNat_lt]
    omega
  have hm : maxpacket ≠ 0 := fun h => by simp [h] at hlt
  have hall : min size (maxpacket - fc.extrasize) = size := by
    have hreq := toNat_srequired hlt size
    apply UInt32.toNat_inj.mp
    unfold srequired at hreq
    omega
  have hadd := toNat_extrasize_add hlt size
  unfold srequired at hadd
  rw [hall] at hadd
  have hfits : (fc.extrasize + size).toNat + (b.read size.toNat).length ≤
      fc.extrastorage.length := by
    rw [fc.length_extrastorage, Bytes.length_read, hadd]
    omega
  have hnofull : fc.extrasize + size ≠ maxpacket := by
    intro h
    have hnat := congrArg UInt32.toNat h
    omega
  unfold push fillExtra copyTo
  simp only [if_pos hextra, hall, dif_pos hfits, bind, Except.bind, if_neg hnofull, pure,
    Except.pure, UInt32.sub_self, if_neg hm, UInt32.zero_div, UInt32.zero_mod,
    UInt32.toNat_zero, transmitWhole, UInt32.lt_irrefl, if_false, List.append_nil]
  exact ⟨_, rfl, rfl⟩

/-- A call that leaves room returns with less than a packet pending. -/
theorem push_of_leavesRoom (ready : ℕ → Bool) {fc : FlowController maxpacket} (b : Bytes)
    {size : UInt32} (hlt : fc.extrasize < maxpacket)
    (h : LeavesRoom fc (.push ready b size)) :
    ∃ fc' o, fc.push ready b size = .ok (fc', o) ∧ fc'.extrasize < maxpacket := by
  by_cases hextra : fc.extrasize = 0
  · obtain ⟨fc', o, hpush, hlt', -⟩ :=
      push_of_extrasize_eq_zero (by rwa [hextra] at hlt) ready hextra b size
    exact ⟨fc', o, hpush, hlt'⟩
  · have hroom := h.resolve_left hextra
    by_cases hsize : size = 0
    · subst hsize
      exact ⟨fc, [], push_of_size_eq_zero ready hlt b, hlt⟩
    · have hpos : 0 < size := UInt32.pos_iff_ne_zero.mpr hsize
      obtain ⟨fc', hpush, hraised⟩ :=
        push_of_room ready b (UInt32.pos_iff_ne_zero.mpr hextra) hpos hroom
      refine ⟨fc', [], hpush, ?_⟩
      rw [hraised, UInt32.lt_iff_toNat_lt, UInt32.toNat_add]
      rw [UInt32.lt_iff_toNat_lt, UInt32.toNat_zero] at hpos
      have hmod := Nat.mod_le (fc.extrasize.toNat + size.toNat) (2 ^ 32)
      omega

/-! ## One call, and runs -/

/-- A call stays in its buffers if and only if it leaves room for its bytes twice. -/
theorem staysInside_iff {fc : FlowController maxpacket} (hlt : fc.extrasize < maxpacket)
    (c : Call) : StaysInside fc c ↔ LeavesRoom fc c := by
  cases c with
  | purge => exact Iff.rfl
  | push ready b size =>
    constructor
    · intro h
      exact (stores_lt_iff hlt).mp h.1
    · intro h
      refine ⟨(stores_lt_iff hlt).mpr h, fun i hi => load_mem_push hlt hi, ?_⟩
      rw [Access.value_push]
      exact push_of_leavesRoom ready b hlt h

/-- The step lemma: less than a packet is pending after a call that stays inside. -/
theorem extrasize_lt_of_step {fc fc' : FlowController maxpacket} {c : Call}
    {o : List ConsumerCall} (hlt : fc.extrasize < maxpacket) (h : LeavesRoom fc c)
    (hstep : (machine maxpacket).step fc c = some (fc', o)) : fc'.extrasize < maxpacket := by
  cases c with
  | purge =>
    cases hstep
    exact Nat.lt_of_le_of_lt (Nat.zero_le _) hlt
  | push ready b size =>
    obtain ⟨fc₁, o₁, hpush, hlt'⟩ := push_of_leavesRoom ready b hlt h
    simp only [machine, hpush, Except.toOption] at hstep
    cases hstep
    exact hlt'

/-- **Bounds of the leftover buffer.**  For every packet size, every content of the fresh
storage and every sequence of calls: all calls stay inside exactly if every push finds
nothing pending, or room for its bytes twice behind what is pending.
SOURCE: flowcontroller.cc:33-67 -/
theorem stays_inside_iff (maxpacket : UInt32) (hm : 0 < maxpacket) (storage : List UInt8)
    (hstorage : storage.length = maxpacket.toNat) (calls : List Call) :
    (machine maxpacket).Along StaysInside (construct storage hstorage) calls ↔
      (machine maxpacket).Along LeavesRoom (construct storage hstorage) calls := by
  apply Machine.along_congr_of_invariant fun fc => fc.extrasize < maxpacket
  · intro fc c hlt
    exact staysInside_iff hlt c
  · intro fc c fc' o hlt h hstep
    exact extrasize_lt_of_step hlt h hstep
  · exact hm

/-- Two pushes into a buffer of four bytes. -/
theorem stays_inside_iff_four :
    (machine 4).Along StaysInside (construct [0, 0, 0, 0] rfl)
        [.push (fun _ => true) (Bytes.ofList [1, 2]) 2,
          .push (fun _ => true) (Bytes.ofList [3]) 1] ↔
      (machine 4).Along LeavesRoom (construct [0, 0, 0, 0] rfl)
        [.push (fun _ => true) (Bytes.ofList [1, 2]) 2,
          .push (fun _ => true) (Bytes.ofList [3]) 1] :=
  stays_inside_iff 4 (by decide) [0, 0, 0, 0] rfl _

/-- Three bytes are pending in packets of four: the fourth is stored behind the storage. -/
theorem not_stays_inside_three_one :
    ¬ (machine 4).Along StaysInside (construct [0, 0, 0, 0] rfl)
      [.push (fun _ => true) (Bytes.ofList [1, 2, 3]) 3,
        .push (fun _ => true) (Bytes.ofList [4]) 1] := by
  intro h
  exact absurd (h.2.1.1 4 (by decide)) (by decide)

end Resmod.Analysis
