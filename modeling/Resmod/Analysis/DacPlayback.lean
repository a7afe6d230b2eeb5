import Resmod.Model.AD5541

/-!
# The converter plays its buffer once

`PlaysStep` says of a call that it stays inside the data buffer and the tracker, writes the
word that is due, and calls back where the timeout list asks for it.  The offset only goes
back to 0 when it is beyond the size, so the call after the last word of the buffer uses the
size itself as an index.  `plays_iff` is what is left: the driver does what it should as long
as there are no more data timeouts than the buffer has words.
-/

set_option autoImplicit false

namespace Resmod.Analysis

open Resmod.Library Resmod.Model Resmod.Model.AD5541

variable {κ : Type*}

namespace Dac

/-- The index that an access uses, on the data buffer or on the tracker. -/
def index? : Output κ → Option ℕ
  | .data i => some i
  | .tracker i => some i
  | .lowLevelWriteData _ => none
  | .onCallbackEvent _ => none

/-- The value written to the converter. -/
def written? : Output κ → Option UInt16
  | .lowLevelWriteData dat => some dat
  | _ => none

/-- The callback that is called. -/
def called? : Output κ → Option κ
  | .onCallbackEvent callback => some callback
  | _ => none

/-- A data timeout that the driver answers with a word. -/
def due (s : State κ) : Call κ → Bool
  | .notifyDataTimeout => s.dacmode = .enabled
  | _ => false

/-- The driver with the number of words written so far. -/
def counted (κ : Type*) : Machine (State κ × ℕ) (Call κ) (Output κ) :=
  (machine κ).observe fun k _ _ _ o => k + (o.filterMap written?).length

/-- With `k` words written, the call uses indices below the size only, writes word `k` of the
cyclic buffer if a word is due, and calls back if the offset of that word is in the list. -/
def PlaysStep (p : State κ × ℕ) (a : Call κ) (_ : State κ × ℕ) (o : List (Output κ)) : Prop :=
  let offset := p.2 % p.1.dataout.size.toNat
  (∀ i ∈ o.filterMap index?, i < p.1.dataout.size.toNat) ∧
  o.filterMap written? = (if due p.1 a then [p.1.dataout.dat offset] else []) ∧
  o.filterMap called? =
    if due p.1 a ∧ offset ∈ p.1.timeoutlist.map UInt32.toNat then [p.1.callback] else []

instance [DecidableEq κ] (p : State κ × ℕ) (a : Call κ) (q : State κ × ℕ)
    (o : List (Output κ)) : Decidable (PlaysStep p a q o) :=
  inferInstanceAs (Decidable (_ ∧ _ ∧ _))

/-- Every call of the sequence is as `PlaysStep` says. -/
def Plays (s : State κ) (calls : List (Call κ)) : Prop :=
  (counted κ).Always PlaysStep (s, 0) calls

instance [DecidableEq κ] (s : State κ) (calls : List (Call κ)) : Decidable (Plays s calls) :=
  inferInstanceAs (Decidable ((counted κ).Always PlaysStep (s, 0) calls))

/-- The timeout lists of the call are below the size. -/
def Within (size : UInt32) : Call κ → Prop
  | .setProgressCallback _ _ timeoutlist => ∀ elem ∈ timeoutlist, elem < size
  | _ => True

/-- The number of data timeouts while the converter is enabled, in a sequence of calls that
begins in mode `m`. -/
def timeouts : DACMode → List (Call κ) → ℕ
  | _, [] => 0
  | _, .start :: calls => timeouts .enabled calls
  | _, .stop :: calls => timeouts .disabled calls
  | _, .reset :: calls => timeouts .disabled calls
  | m, .setProgressCallback _ _ _ :: calls => timeouts m calls
  | .enabled, .notifyDataTimeout :: calls => 1 + timeouts .enabled calls
  | .disabled, .notifyDataTimeout :: calls => timeouts .disabled calls

/-! ## The tracker -/

/-- The positions of the list are marked, the others as they were. -/
theorem markTimeouts_apply (tracker : ℕ → UInt8) (timeoutlist : List UInt32) (i : ℕ) :
    markTimeouts tracker timeoutlist i =
      if i ∈ timeoutlist.map UInt32.toNat then 1 else tracker i := by
  unfold markTimeouts
  induction timeoutlist generalizing tracker with
  | nil => simp
  | cons elem timeoutlist ih =>
    simp only [List.foldl_cons, ih, List.map_cons, List.mem_cons]
    by_cases hmem : i ∈ timeoutlist.map UInt32.toNat
    · rw [if_pos hmem, if_pos (Or.inr hmem)]
    · rw [if_neg hmem]
      by_cases hi : i = elem.toNat
      · rw [hi, Function.update_self, if_pos (Or.inl rfl)]
      · rw [Function.update_of_ne hi, if_neg (not_or_intro hi hmem)]

/-! ## The invariant -/

/-- With `k` words written, `k` at most the size, the offset is `k` and the tracker marks the
offsets of the timeout list. -/
structure Playing (s : State κ) (k : ℕ) : Prop where
  offset : s.dataoutoffset.toNat = k
  le : k ≤ s.dataout.size.toNat
  tracker : ∀ i < s.dataout.size.toNat,
    s.callbacktracker i = if i ∈ s.timeoutlist.map UInt32.toNat then 1 else 0

/-- Only the offset, the tracker and its list matter. -/
theorem Playing.setMode {s : State κ} {k : ℕ} (h : Playing s k) (m : DACMode) :
    Playing { s with dacmode := m } k := ⟨h.offset, h.le, h.tracker⟩

/-- The invariant after the tracker has been allocated anew. -/
theorem playing_initCallbackTracker {s : State κ} {k : ℕ}
    (hoffset : s.dataoutoffset.toNat = k) (hle : k ≤ s.dataout.size.toNat)
    (heap : ℕ → UInt8) : Playing (initCallbackTracker heap s).1 k := by
  refine ⟨hoffset, hle, ?_⟩
  intro i hi
  have hfilled : i < s.dataout.size.toNat := hi
  simp only [initCallbackTracker, markTimeouts_apply, if_pos hfilled]
  rfl

/-- The invariant after a callback has been set. -/
theorem Playing.setProgressCallback {s : State κ} {k : ℕ} (h : Playing s k)
    (heap : ℕ → UInt8) (callback : κ) (timeoutlist : List UInt32) :
    Playing (setProgressCallback heap callback timeoutlist s).1 k := by
  unfold AD5541.setProgressCallback
  split
  · apply playing_initCallbackTracker
    · exact h.offset
    · exact h.le
  · exact h

/-- Short of the size the offset moves on by one. -/
theorem Playing.advance {s : State κ} {k : ℕ} (h : Playing s k)
    (hk : k < s.dataout.size.toNat) : Playing (advance s) (k + 1) := by
  have hsize := s.dataout.size.toNat_lt
  have hnext : (s.dataoutoffset + 1).toNat = k + 1 := by
    rw [UInt32.toNat_add, UInt32.toNat_one, h.offset]
    omega
  have hnot : ¬ s.dataout.size < s.dataoutoffset + 1 := by
    rw [UInt32.lt_iff_toNat_lt]
    omega
  unfold AD5541.advance
  refine ⟨?_, hk, h.tracker⟩
  simp only [if_neg hnot]
  exact hnext

/-! ## One call -/

/-- A call that is no data timeout writes nothing and does not call back. -/
theorem playsStep_of_quiet {p q : State κ × ℕ} {a : Call κ} {o : List (Output κ)}
    (hdue : due p.1 a = false) (hindex : ∀ i ∈ o.filterMap index?, i < p.1.dataout.size.toNat)
    (hwritten : o.filterMap written? = []) (hcalled : o.filterMap called? = []) :
    PlaysStep p a q o := by
  refine ⟨hindex, ?_, ?_⟩
  · simp [hwritten, hdue]
  · simp [hcalled, hdue]

/-- Marking positions is none of the effects that are counted. -/
theorem filterMap_tracker {β : Type*} (f : Output κ → Option β) (hf : ∀ i, f (.tracker i) = none)
    (timeoutlist : List UInt32) :
    (timeoutlist.map fun elem => (Output.tracker elem.toNat : Output κ)).filterMap f = [] := by
  simp [List.filterMap_map, hf]

/-- The marks that `SetProgressCallback` sets are within the tracker. -/
theorem playsStep_setProgressCallback (p q : State κ × ℕ) (heap : ℕ → UInt8) (callback : κ)
    {timeoutlist : List UInt32} (h : ∀ elem ∈ timeoutlist, elem < p.1.dataout.size) :
    PlaysStep p (.setProgressCallback heap callback timeoutlist) q
      (setProgressCallback heap callback timeoutlist p.1).2 := by
  unfold AD5541.setProgressCallback
  split
  · apply playsStep_of_quiet rfl
    · intro i hi
      simp only [initCallbackTracker, List.filterMap_map, List.mem_filterMap,
        Function.comp_apply, index?, Option.some.injEq] at hi
      obtain ⟨elem, helem, rfl⟩ := hi
      exact UInt32.lt_iff_toNat_lt.mp (h elem helem)
    · exact filterMap_tracker written? (fun _ => rfl) timeoutlist
    · exact filterMap_tracker called? (fun _ => rfl) timeoutlist
  · exact playsStep_of_quiet rfl (List.forall_mem_nil _) rfl rfl

/-- What a time out does while the DAC is enabled. -/
theorem notifyDataTimeout_of_enabled {s : State κ} (henabled : s.dacmode = .enabled) :
    notifyDataTimeout s = (advance s,
      .data s.dataoutoffset.toNat ::
        .lowLevelWriteData (s.dataout.dat s.dataoutoffset.toNat) ::
        .tracker s.dataoutoffset.toNat ::
          if s.callbacktracker s.dataoutoffset.toNat = 1 then
            [.onCallbackEvent s.callback] else []) := if_pos henabled

/-- A time out writes the sample at the offset. -/
theorem written_notifyDataTimeout {s : State κ} (henabled : s.dacmode = .enabled) :
    (notifyDataTimeout s).2.filterMap written? =
      [s.dataout.dat s.dataoutoffset.toNat] := by
  rw [notifyDataTimeout_of_enabled henabled]
  by_cases hmark : s.callbacktracker s.dataoutoffset.toNat = 1
  · rw [if_pos hmark]
    rfl
  · rw [if_neg hmark]
    rfl

/-- A time out calls back where the tracker is set. -/
theorem called_notifyDataTimeout {s : State κ} (henabled : s.dacmode = .enabled) :
    (notifyDataTimeout s).2.filterMap called? =
      if s.callbacktracker s.dataoutoffset.toNat = 1 then [s.callback] else [] := by
  rw [notifyDataTimeout_of_enabled henabled]
  by_cases hmark : s.callbacktracker s.dataoutoffset.toNat = 1
  · rw [if_pos hmark, if_pos hmark]
    rfl
  · rw [if_neg hmark, if_neg hmark]
    rfl

/-- The offset is the only index that a data timeout uses, on both of the arrays. -/
theorem mem_index_notifyDataTimeout {s : State κ} (henabled : s.dacmode = .enabled) {i : ℕ} :
    i ∈ (notifyDataTimeout s).2.filterMap index? ↔ i = s.dataoutoffset.toNat := by
  rw [notifyDataTimeout_of_enabled henabled]
  by_cases hmark : s.callbacktracker s.dataoutoffset.toNat = 1
  · simp [hmark, index?, eq_comm]
  · simp [hmark, index?, eq_comm]

/-- A data timeout of the enabled converter plays word `k` if and only if `k` is below the
size. -/
theorem playsStep_notifyDataTimeout_iff {s : State κ} {k : ℕ} (h : Playing s k)
    (henabled : s.dacmode = .enabled) (q : State κ × ℕ) :
    PlaysStep (s, k) .notifyDataTimeout q (notifyDataTimeout s).2 ↔
      k < s.dataout.size.toNat := by
  have hdue : due s .notifyDataTimeout = true := decide_eq_true henabled
  unfold PlaysStep
  simp only [mem_index_notifyDataTimeout henabled, forall_eq, h.offset]
  rw [written_notifyDataTimeout henabled, called_notifyDataTimeout henabled, h.offset, hdue]
  constructor
  · intro hplays
    exact hplays.1
  · intro hk
    rw [Nat.mod_eq_of_lt hk, h.tracker k hk]
    refine ⟨hk, rfl, ?_⟩
    by_cases hmem : k ∈ s.timeoutlist.map UInt32.toNat
    · rw [if_pos hmem, if_pos rfl, if_pos ⟨rfl, hmem⟩]
    · rw [if_neg hmem, if_neg (by decide), if_neg fun hboth => hmem hboth.2]

/-! ## A sequence of calls -/

/-- One call of the counted driver, and the others behind it. -/
theorem always_cons (s : State κ) (k : ℕ) (a : Call κ) (calls : List (Call κ)) :
    (counted κ).Always PlaysStep (s, k) (a :: calls) ↔
      PlaysStep (s, k) a ((call s a).1, k + ((call s a).2.filterMap written?).length)
          (call s a).2 ∧
        (counted κ).Always PlaysStep
          ((call s a).1, k + ((call s a).2.filterMap written?).length) calls := Iff.rfl

/-- A call that writes nothing leaves the number of words. -/
theorem always_cons_of_quiet {s : State κ} {k : ℕ} {a : Call κ} {calls : List (Call κ)}
    (hwritten : (call s a).2.filterMap written? = [])
    (hplays : ∀ q, PlaysStep (s, k) a q (call s a).2) :
    (counted κ).Always PlaysStep (s, k) (a :: calls) ↔
      (counted κ).Always PlaysStep ((call s a).1, k) calls := by
  rw [always_cons, hwritten, List.length_nil, Nat.add_zero]
  exact and_iff_right (hplays _)

/-- A call that does nothing while no time out is due. -/
theorem always_cons_of_silent {s : State κ} {k : ℕ} {a : Call κ} {calls : List (Call κ)}
    (hdue : due s a = false) (hcall : (call s a).2 = []) :
    (counted κ).Always PlaysStep (s, k) (a :: calls) ↔
      (counted κ).Always PlaysStep ((call s a).1, k) calls := by
  apply always_cons_of_quiet
  · rw [hcall]
    rfl
  · intro q
    rw [hcall]
    exact playsStep_of_quiet hdue (List.forall_mem_nil _) rfl rfl

/-- A callback changes neither the buffer nor the mode. -/
theorem dataout_setProgressCallback (heap : ℕ → UInt8) (callback : κ)
    (timeoutlist : List UInt32) (s : State κ) :
    (setProgressCallback heap callback timeoutlist s).1.dataout = s.dataout ∧
      (setProgressCallback heap callback timeoutlist s).1.dacmode = s.dacmode := by
  unfold setProgressCallback
  split
  · exact ⟨rfl, rfl⟩
  · exact ⟨rfl, rfl⟩

/-- Setting a callback writes no sample. -/
theorem written_setProgressCallback (heap : ℕ → UInt8) (callback : κ)
    (timeoutlist : List UInt32) (s : State κ) :
    (setProgressCallback heap callback timeoutlist s).2.filterMap written? = [] := by
  unfold setProgressCallback
  split
  · exact filterMap_tracker written? (fun _ => rfl) timeoutlist
  · rfl

/-- A data timeout of a disabled converter does nothing. -/
theorem notifyDataTimeout_of_disabled {s : State κ} (h : s.dacmode = .disabled) :
    call s .notifyDataTimeout = (s, []) ∧ due s .notifyDataTimeout = false := by
  constructor
  · unfold call notifyDataTimeout
    rw [if_neg (by rw [h]; exact DACMode.noConfusion)]
  · unfold due
    rw [h]
    rfl

/-- A data timeout of an enabled converter writes one word and moves on. -/
theorem always_cons_of_due {s : State κ} {k : ℕ} {calls : List (Call κ)}
    (henabled : s.dacmode = .enabled) :
    (counted κ).Always PlaysStep (s, k) (.notifyDataTimeout :: calls) ↔
      PlaysStep (s, k) .notifyDataTimeout (advance s, k + 1) (notifyDataTimeout s).2 ∧
        (counted κ).Always PlaysStep (advance s, k + 1) calls := by
  have hstate : (notifyDataTimeout s).1 = advance s := by
    rw [notifyDataTimeout_of_enabled henabled]
  have hlength : ((notifyDataTimeout s).2.filterMap written?).length = 1 := by
    rw [written_notifyDataTimeout henabled, List.length_singleton]
  rw [always_cons]
  unfold call
  rw [hlength, hstate]

/-- From word `k` on, the driver plays the calls if and only if the data timeouts among them
do not go beyond the size. -/
theorem always_playsStep_iff {s : State κ} {k : ℕ} (h : Playing s k) {calls : List (Call κ)}
    (hwithin : ∀ a ∈ calls, Within s.dataout.size a) :
    (counted κ).Always PlaysStep (s, k) calls ↔
      k + timeouts s.dacmode calls ≤ s.dataout.size.toNat := by
  induction calls generalizing s k with
  | nil => exact iff_of_true trivial h.le
  | cons a calls ih =>
    obtain ⟨ha, hrest⟩ := List.forall_mem_cons.mp hwithin
    cases a with
    | start =>
      rw [always_cons_of_silent rfl rfl]
      exact ih (h.setMode .enabled) hrest
    | stop =>
      rw [always_cons_of_silent rfl rfl]
      exact ih (h.setMode .disabled) hrest
    | reset =>
      rw [always_cons_of_silent rfl rfl]
      exact ih (h.setMode .disabled) hrest
    | setProgressCallback heap callback timeoutlist =>
      rw [always_cons_of_quiet (written_setProgressCallback heap callback timeoutlist s)
        fun q => playsStep_setProgressCallback (s, k) q heap callback ha]
      obtain ⟨hdataout, hmode⟩ := dataout_setProgressCallback heap callback timeoutlist s
      have hiff := ih (h.setProgressCallback heap callback timeoutlist) (by
        rw [hdataout]
        exact hrest)
      rw [hdataout, hmode] at hiff
      exact hiff
    | notifyDataTimeout =>
      cases hmode : s.dacmode with
      | disabled =>
        obtain ⟨hcall, hdue⟩ := notifyDataTimeout_of_disabled hmode
        rw [always_cons_of_silent hdue (congrArg Prod.snd hcall), hcall]
        have hiff := ih h hrest
        rw [hmode] at hiff
        exact hiff
      | enabled =>
        rw [always_cons_of_due hmode]
        have hplays := playsStep_notifyDataTimeout_iff h hmode (advance s, k + 1)
        have htimeouts : timeouts .enabled (.notifyDataTimeout :: calls) =
            1 + timeouts .enabled calls := rfl
        rw [htimeouts]
        by_cases hk : k < s.dataout.size.toNat
        · -- the word is within the buffer, and the rest goes on behind it
          have hiff := ih (h.advance hk) hrest
          have hmode' : (advance s).dacmode = .enabled := hmode
          have hsize : (advance s).dataout = s.dataout := rfl
          rw [hmode', hsize] at hiff
          rw [hiff]
          constructor
          · rintro ⟨-, hle⟩
            omega
          · intro hle
            exact ⟨hplays.mpr hk, by omega⟩
        · -- the buffer has been played, and this call uses its size as an index
          constructor
          · rintro ⟨hstep, -⟩
            exact absurd (hplays.mp hstep) hk
          · intro hle
            omega

end Dac

open Dac

/-- **The driver plays its buffer, cyclically and inside it, exactly as long as there are no
more data timeouts than the buffer has words.**  The tracker is built by the first call.
SOURCE: resmod/drivers/ad5541/ad5541.cc:59-97 -/
theorem plays_iff {s : State κ} (hdisabled : s.dacmode = .disabled)
    (hoffset : s.dataoutoffset = 0) (heap : ℕ → UInt8) (callback : κ)
    {timeoutlist : List UInt32} (hlist : ∀ elem ∈ timeoutlist, elem < s.dataout.size)
    {calls : List (Call κ)} (hcalls : ∀ a ∈ calls, Within s.dataout.size a) :
    Plays s (.setProgressCallback heap callback timeoutlist :: calls) ↔
      timeouts .disabled calls ≤ s.dataout.size.toNat := by
  unfold Plays
  rw [always_cons_of_quiet (written_setProgressCallback heap callback timeoutlist s)
    fun q => playsStep_setProgressCallback (s, 0) q heap callback hlist]
  have hplaying : Playing (setProgressCallback heap callback timeoutlist s).1 0 := by
    unfold setProgressCallback
    rw [if_pos hdisabled]
    apply playing_initCallbackTracker
    · rw [hoffset]
      rfl
    · exact Nat.zero_le _
  obtain ⟨hdataout, hmode⟩ := dataout_setProgressCallback heap callback timeoutlist s
  have hcalls' : ∀ a ∈ calls,
      Within (setProgressCallback heap callback timeoutlist s).1.dataout.size a := by
    rw [hdataout]
    exact hcalls
  have hiff := always_playsStep_iff hplaying hcalls'
  rw [hdataout, hmode, hdisabled, Nat.zero_add] at hiff
  exact hiff

/-- A disabled converter with the two words 10 and 20, and what lies behind them. -/
def twoWords : State ℕ where
  dacmode := .disabled
  dataout := ⟨fun i => [10, 20].getD i 255, 2⟩
  dataoutoffset := 0
  callbacktracker := fun _ => 0
  callback := 0
  timeoutlist := []

/-- Two data timeouts, with the converter stopped and its callback exchanged between them. -/
theorem plays_twoWords :
    Plays twoWords
      [.setProgressCallback (fun _ => 0) 1 [1], .start, .notifyDataTimeout, .stop,
        .setProgressCallback (fun _ => 0) 2 [0], .start, .notifyDataTimeout] := by
  have hlist : ∀ elem ∈ [1], elem < twoWords.dataout.size := by
    intro elem helem
    rw [List.mem_singleton.mp helem]
    decide
  exact (plays_iff rfl rfl (fun _ => 0) 1 hlist (by simp [Within, twoWords])).mpr
    (Nat.le_refl 2)

/-- The third data timeout uses index 2 of two words. -/
theorem not_plays_twoWords :
    ¬ Plays twoWords
      [.setProgressCallback (fun _ => 0) 1 [1], .start, .notifyDataTimeout,
        .notifyDataTimeout, .notifyDataTimeout] := by
  decide

end Resmod.Analysis
