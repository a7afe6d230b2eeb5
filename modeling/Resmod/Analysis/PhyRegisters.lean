import Resmod.Model.PhyRegisters

/-!
# What the PHY registers are read as

The helper that reads a field takes the register as an 8-bit value, so nothing of bits 8 to 15
arrives; and it builds an empty mask when the upper position comes first, so that all of such
a field is lost.  `mapbits_iff` says for any pair of positions when the field is right none
the less, and the theorem for each read function lists the bits that must be clear.

The control register of `ksz8895` is written as it should be, and its upper half is lost in
reading it back; that of `phyinterface_basic` is written with all fields at bit 15.
-/

set_option autoImplicit false

namespace Resmod.Analysis

open Resmod.Library Resmod.Model.Phy

/-- The bits at these positions are 0. -/
def Clear (reg : BitVec 16) (positions : List ℕ) : Prop :=
  ∀ i ∈ positions, reg.getLsbD i = false

/-- The positions whose bits `mapbittovalue(reg, a, b)` does not deliver. -/
def lost (a b : ℕ) : List ℕ :=
  (List.range 16).filter fun i =>
    if a ≤ b then a ≤ i ∧ i ≤ b ∧ 8 ≤ i else b ≤ i ∧ i ≤ a

/-! ## The helpers -/

/-- The bits that `mapbittovalue` takes out of a byte. -/
theorem getLsbD_mapbittovalue (val : BitVec 8) (a b i : ℕ) :
    (mapbittovalue val a b).getLsbD i =
      (decide (a + i ≤ b) && val.getLsbD (a + i)) := by
  unfold mapbittovalue
  rw [BitVec.getLsbD_ushiftRight, BitVec.getLsbD_and, BitVec.getLsbD_setWidth,
    getLsbD_onesFrom]
  by_cases h8 : a + i < 8
  · have h16 : a + i < 16 := by omega
    have hiff : (a + i < a + ((b : ℤ) - a + 1).toNat) ↔ a + i ≤ b := by omega
    simp [h16, hiff, Bool.and_comm]
  · have hnone : val.getLsbD (a + i) = false := BitVec.getLsbD_of_ge _ _ (by omega)
    simp [hnone]

/-- The bits that are taken out of a register, none of them above its lower byte. -/
theorem getLsbD_mapbits (reg : BitVec 16) (a b i : ℕ) :
    (mapbits reg a b).getLsbD i =
      (decide (a + i ≤ b) && (decide (a + i < 8) && reg.getLsbD (a + i))) := by
  unfold mapbits
  rw [getLsbD_mapbittovalue, BitVec.getLsbD_setWidth]

/-- The positions at which a field loses a bit. -/
theorem mem_lost {a b i : ℕ} :
    i ∈ lost a b ↔ i < 16 ∧ if a ≤ b then a ≤ i ∧ i ≤ b ∧ 8 ≤ i else b ≤ i ∧ i ≤ a := by
  unfold lost
  rw [List.mem_filter, List.mem_range]
  by_cases hab : a ≤ b
  · rw [if_pos hab, if_pos hab, decide_eq_true_iff]
  · rw [if_neg hab, if_neg hab, decide_eq_true_iff]

/-- A field that starts at its lower position lacks its bits from 8 on, and one that starts
at its upper position lacks all of them.  It is kept in `n` bits and needs no more. -/
theorem setWidth_mapbits_iff (reg : BitVec 16) {a b n : ℕ} (ha : a < 16) (hb : b < 16)
    (hn : max a b < min a b + n) :
    (mapbits reg a b).setWidth n = (between reg a b).setWidth n ↔ Clear reg (lost a b) := by
  constructor
  · intro heq j hj
    rw [mem_lost] at hj
    by_cases hab : a ≤ b
    · rw [if_pos hab] at hj
      obtain ⟨h16, haj, hjb, h8⟩ := hj
      have hbit := congrArg (BitVec.getLsbD · (j - a)) heq
      have hback : a + (j - a) = j := by omega
      have hi : j - a < n ∧ j - a < 16 := by omega
      simp only [BitVec.getLsbD_setWidth, getLsbD_mapbits, getLsbD_between, Nat.min_eq_left hab,
        Nat.max_eq_right hab, hback, hi.1, hi.2, hjb, Nat.not_lt.mpr h8] at hbit
      simpa using hbit.symm
    · rw [if_neg hab] at hj
      obtain ⟨h16, hbj, hja⟩ := hj
      have hba : b ≤ a := by omega
      have hbit := congrArg (BitVec.getLsbD · (j - b)) heq
      have hback : b + (j - b) = j := by omega
      have hi : j - b < n ∧ j - b < 16 := by omega
      have hnot : ¬ a + (j - b) ≤ b := by omega
      simp only [BitVec.getLsbD_setWidth, getLsbD_mapbits, getLsbD_between, Nat.min_eq_right hba,
        Nat.max_eq_left hba, hback, hi.1, hi.2, hja, hnot] at hbit
      simpa using hbit.symm
  · intro hclear
    apply BitVec.eq_of_getLsbD_eq
    intro i hi
    rw [BitVec.getLsbD_setWidth, BitVec.getLsbD_setWidth, getLsbD_mapbits, getLsbD_between]
    congr 1
    by_cases hab : a ≤ b
    · rw [Nat.min_eq_left hab, Nat.max_eq_right hab]
      by_cases hib : a + i ≤ b
      · have hi16 : i < 16 := by omega
        by_cases h8 : a + i < 8
        · simp [hib, h8, hi16]
        · have hbit := hclear (a + i) (mem_lost.mpr (by rw [if_pos hab]; omega))
          simp [hbit]
      · simp [hib]
    · have hba : b ≤ a := by omega
      have hnot : ¬ a + i ≤ b := by omega
      rw [Nat.min_eq_right hba, Nat.max_eq_left hba]
      by_cases hia : b + i ≤ a
      · have hbit := hclear (b + i) (mem_lost.mpr (by rw [if_neg hab]; omega))
        simp [hnot, hbit]
      · simp [hnot, hia]

/-- **When a pair of positions is read right.** -/
theorem mapbits_iff (reg : BitVec 16) {a b : ℕ} (ha : a < 16) (hb : b < 16) :
    mapbits reg a b = between reg a b ↔ Clear reg (lost a b) := by
  have hiff := setWidth_mapbits_iff reg (n := 16) ha hb (by omega)
  rwa [BitVec.setWidth_eq, BitVec.setWidth_eq] at hiff

/-- A field is read as it is if and only if the lost bits are clear. -/
theorem field_mapbits_iff (reg : BitVec 16) {a b : ℕ} (ha : a < 16) (hb : b < 16)
    (hwidth : max a b < min a b + 8) :
    field (mapbits reg) a b = field (between reg) a b ↔ Clear reg (lost a b) :=
  setWidth_mapbits_iff reg ha hb hwidth

/-! ## The read functions -/

/-- The bits of both lists are clear. -/
theorem clear_append (reg : BitVec 16) (l l' : List ℕ) :
    Clear reg (l ++ l') ↔ Clear reg l ∧ Clear reg l' := by
  unfold Clear
  exact List.forall_mem_append

/-- When the control register is read as it is. -/
theorem readmiicontrol_iff (reg : BitVec 16) :
    readmiicontrol reg = miicontrolOf (between reg) ↔
      Clear reg [15, 14, 13, 12, 11, 10, 9, 8] := by
  unfold readmiicontrol miicontrolOf
  rw [RegMiicontrol.mk.injEq]
  simp (disch := decide) only [field_mapbits_iff, ← clear_append]
  rfl

/-- When the status register is read as it is. -/
theorem readmiistatus_iff (reg : BitVec 16) :
    readmiistatus reg = miistatusOf (between reg) ↔ Clear reg [15, 14, 13, 12, 11] := by
  unfold readmiistatus miistatusOf
  rw [RegMiistatus.mk.injEq]
  simp (disch := decide) only [field_mapbits_iff, ← clear_append]
  rfl

/-- The selector field is given with its upper position first. -/
theorem readadvertisementability_iff (reg : BitVec 16) :
    readadvertisementability reg = advertisementabilityOf (between reg) ↔
      Clear reg [15, 13, 10, 8, 0, 1, 2, 3, 4] := by
  unfold readadvertisementability advertisementabilityOf
  rw [RegAdvertisementability.mk.injEq]
  simp (disch := decide) only [field_mapbits_iff, ← clear_append]
  rfl

/-- When the register of the link partner is read as it is. -/
theorem readlinkpartnerability_iff (reg : BitVec 16) :
    readlinkpartnerability reg = linkpartnerabilityOf (between reg) ↔
      Clear reg [15, 14, 13, 10, 8] := by
  unfold readlinkpartnerability linkpartnerabilityOf
  rw [RegLinkpartnerability.mk.injEq]
  simp (disch := decide) only [field_mapbits_iff, ← clear_append]
  rfl

/-- The result and the fault count are given with their upper positions first. -/
theorem readlinkmd_ctrlstat_iff (reg : BitVec 16) :
    readlinkmd_ctrlstat reg = linkmdOf (between reg) ↔
      Clear reg [15, 13, 14, 12, 0, 1, 2, 3, 4, 5, 6, 7, 8] := by
  unfold readlinkmd_ctrlstat linkmdOf
  rw [RegLinkmdctrlstat.mk.injEq]
  simp (disch := decide) only [field_mapbits_iff, mapbits_iff, ← clear_append]
  rfl

/-- When the special register is read as it is. -/
theorem readphyspecial_ctrlstat_iff (reg : BitVec 16) :
    readphyspecial_ctrlstat reg = physpecialOf (between reg) ↔ Clear reg [8, 9, 10] := by
  unfold readphyspecial_ctrlstat physpecialOf
  rw [RegPhyspecialctrlstat.mk.injEq]
  simp (disch := decide) only [field_mapbits_iff, ← clear_append]
  rfl

/-- When the summary of the control register is read as it is. -/
theorem readsummaryctrl_iff (reg : BitVec 16) (rctl : Regctrl) :
    readsummaryctrl (some reg) rctl = ctrlOf (between reg) ↔
      Clear reg [15, 14, 13, 12, 11, 10, 9, 8] := by
  unfold readsummaryctrl ctrlOf
  dsimp only
  rw [Regctrl.mk.injEq]
  simp (disch := decide) only [mapbits_iff, ← clear_append]
  rfl

/-- When the summary of the status register is read as it is. -/
theorem readsummarystatus_iff (reg : BitVec 16) (rstat : Regstatus) :
    readsummarystatus (some reg) rstat = statusOf (between reg) ↔
      Clear reg [15, 14, 13, 12, 11, 10, 9, 8] := by
  unfold readsummarystatus statusOf
  dsimp only
  rw [Regstatus.mk.injEq]
  simp (disch := decide) only [mapbits_iff, ← clear_append]
  rfl

/-! ## Writing and reading back -/

/-- A bit is written where the position says. -/
theorem getLsbD_mapvaluetobit (val : BitVec 8) {p i : ℕ} (hp : p < 16) :
    (mapvaluetobit val p p).getLsbD i = (decide (i = p) && val.getLsbD 0) := by
  have hiter : ((p : ℤ) - p + 1).toNat = 1 := by omega
  unfold mapvaluetobit
  rw [BitVec.getLsbD_shiftLeft, BitVec.getLsbD_and, getLsbD_onesFrom, hiter,
    BitVec.getLsbD_setWidth]
  by_cases hi : i = p
  · subst hi
    simp [hp]
  · by_cases hlt : i < p
    · simp [hlt, hi]
    · have hbeyond : ¬ i - p < 1 := by omega
      simp [hi, hbeyond]

/-- A bit of the upper half is read as 0. -/
theorem mapbits_high (reg : BitVec 16) {p : ℕ} (hp : 8 ≤ p) : mapbits reg p p = 0#16 := by
  apply BitVec.eq_of_getLsbD_eq
  intro i _
  have hbeyond : ¬ p + i < 8 := by omega
  rw [getLsbD_mapbits, BitVec.getLsbD_zero, decide_eq_false hbeyond, Bool.false_and,
    Bool.and_false]

/-- A flag of the upper byte is always read as clear. -/
theorem field_high (reg : BitVec 16) {p : ℕ} (hp : 8 ≤ p) :
    field (mapbits reg) p p = 0#8 := by
  unfold field
  rw [mapbits_high reg hp]
  rfl

/-- A bit of the lower half is read as it is. -/
theorem field_low {reg : BitVec 16} {x : BitVec 8} {p : ℕ} (hp : p < 8)
    (hbit : reg.getLsbD p = x.getLsbD 0) (hx : x.toNat ≤ 1) :
    field (mapbits reg) p p = x := by
  have hclear : Clear reg (lost p p) := by
    intro i hi
    rw [mem_lost, if_pos (Nat.le_refl p)] at hi
    omega
  rw [(field_mapbits_iff reg (by omega) (by omega) (by omega)).mpr hclear]
  unfold field
  rw [between_self, hbit]
  conv_rhs => rw [eq_ite_getLsbD_zero hx]
  split
  · rfl
  · rfl

/-- The fields of the record. -/
def RegMiicontrol.values (value : RegMiicontrol) : List (BitVec 8) :=
  [value.softreset, value.loopback, value.force100, value.anenable, value.powerdown,
    value.phyisolate, value.restartan, value.forcefullduplex, value.collisiontest,
    value.hp_mdix, value.forcemdi, value.disableautomdix, value.disablefarendfault,
    value.disabletransmit, value.disableled]

/-- The fields of a control record. -/
def Regctrl.values (rctrl : Regctrl) : List (BitVec 16) :=
  [rctrl.softreset, rctrl.loopback, rctrl.speed, rctrl.automdix, rctrl.power, rctrl.isolate,
    rctrl.restartmdix, rctrl.duplex]

/-- Every field is 0 or 1. -/
def SingleBits {w : ℕ} (values : List (BitVec w)) : Prop := ∀ x ∈ values, x.toNat ≤ 1

/-- Every field is written to its own bit. -/
theorem getLsbD_writemiicontrol (value : RegMiicontrol) :
    (writemiicontrol value).getLsbD 7 = value.collisiontest.getLsbD 0 ∧
      (writemiicontrol value).getLsbD 5 = value.hp_mdix.getLsbD 0 ∧
      (writemiicontrol value).getLsbD 4 = value.forcemdi.getLsbD 0 ∧
      (writemiicontrol value).getLsbD 3 = value.disableautomdix.getLsbD 0 ∧
      (writemiicontrol value).getLsbD 2 = value.disablefarendfault.getLsbD 0 ∧
      (writemiicontrol value).getLsbD 1 = value.disabletransmit.getLsbD 0 ∧
      (writemiicontrol value).getLsbD 0 = value.disableled.getLsbD 0 := by
  unfold writemiicontrol
  simp (disch := decide) only [BitVec.getLsbD_or, getLsbD_mapvaluetobit, BitVec.getLsbD_zero,
    Bool.false_or]
  simp

/-- What comes back is right if and only if there is nothing in the upper half. -/
theorem readmiicontrol_writemiicontrol_iff {value : RegMiicontrol}
    (hbits : SingleBits (RegMiicontrol.values value)) :
    readmiicontrol (writemiicontrol value) = value ↔
      (value.softreset = 0 ∧ value.loopback = 0 ∧ value.force100 = 0 ∧ value.anenable = 0 ∧
        value.powerdown = 0 ∧ value.phyisolate = 0 ∧ value.restartan = 0 ∧
        value.forcefullduplex = 0) := by
  obtain ⟨w7, w5, w4, w3, w2, w1, w0⟩ := getLsbD_writemiicontrol value
  simp only [SingleBits, RegMiicontrol.values, List.forall_mem_cons] at hbits
  obtain ⟨-, -, -, -, -, -, -, -, h7, h5, h4, h3, h2, h1, h0, -⟩ := hbits
  rw [RegMiicontrol.ext_iff]
  unfold readmiicontrol miicontrolOf
  dsimp only
  rw [field_low (by decide) w7 h7, field_low (by decide) w5 h5, field_low (by decide) w4 h4,
    field_low (by decide) w3 h3, field_low (by decide) w2 h2, field_low (by decide) w1 h1,
    field_low (by decide) w0 h0]
  simp (disch := decide) only [field_high, and_true, eq_comm (a := 0#8)]
  rfl

/-- The eight fields meet in one bit, of which nothing is read. -/
theorem setWidth_writesummaryctrl (rctrl : Regctrl) :
    (writesummaryctrl rctrl).setWidth 8 = 0#8 := by
  apply BitVec.eq_of_getLsbD_eq
  intro i hi
  have h15 : ¬ i = 15 := by omega
  unfold writesummaryctrl
  simp (disch := decide) only [BitVec.getLsbD_setWidth, BitVec.getLsbD_or,
    getLsbD_mapvaluetobit, BitVec.getLsbD_zero, Bool.false_or, h15]
  simp

/-- Every field of the summary that is written reads as zero. -/
theorem mapbits_writesummaryctrl (rctrl : Regctrl) (a b : ℕ) :
    mapbits (writesummaryctrl rctrl) a b = 0#16 := by
  unfold mapbits
  rw [setWidth_writesummaryctrl]
  apply BitVec.eq_of_getLsbD_eq
  intro i _
  rw [getLsbD_mapbittovalue, BitVec.getLsbD_zero, BitVec.getLsbD_zero, Bool.and_false]

/-- Whatever is written, zeros come back. -/
theorem readsummaryctrl_writesummaryctrl_iff (rctrl rctl : Regctrl) :
    readsummaryctrl (some (writesummaryctrl rctrl)) rctl = rctrl ↔
      ∀ x ∈ Regctrl.values rctrl, x = 0 := by
  unfold readsummaryctrl ctrlOf
  dsimp only
  rw [Regctrl.ext_iff]
  simp only [mapbits_writesummaryctrl, Regctrl.values, List.forall_mem_cons,
    eq_comm (a := 0#16)]
  simp

/-! ## The codecs -/

/-- The read functions of the two drivers. -/
inductive PhyRead
  | miicontrol
  | miistatus
  | advertisementability
  | linkpartnerability
  | linkmd
  | physpecial
  | summaryctrl
  | summarystatus
  deriving DecidableEq, Repr

/-- Every field that is taken from a bit or from a pair of positions has the value of that bit,
or of the bits between the positions. -/
def ReadsRight (reg : BitVec 16) : PhyRead → Prop
  | .miicontrol => readmiicontrol reg = miicontrolOf (between reg)
  | .miistatus => readmiistatus reg = miistatusOf (between reg)
  | .advertisementability =>
    readadvertisementability reg = advertisementabilityOf (between reg)
  | .linkpartnerability => readlinkpartnerability reg = linkpartnerabilityOf (between reg)
  | .linkmd => readlinkmd_ctrlstat reg = linkmdOf (between reg)
  | .physpecial => readphyspecial_ctrlstat reg = physpecialOf (between reg)
  | .summaryctrl => ∀ rctl, readsummaryctrl (some reg) rctl = ctrlOf (between reg)
  | .summarystatus => ∀ rstat, readsummarystatus (some reg) rstat = statusOf (between reg)

/-- The bits of the register that a read function does not deliver. -/
def lostBits : PhyRead → List ℕ
  | .miicontrol => [15, 14, 13, 12, 11, 10, 9, 8]
  | .miistatus => [15, 14, 13, 12, 11]
  | .advertisementability => [15, 13, 10, 8, 0, 1, 2, 3, 4]
  | .linkpartnerability => [15, 14, 13, 10, 8]
  | .linkmd => [15, 13, 14, 12, 0, 1, 2, 3, 4, 5, 6, 7, 8]
  | .physpecial => [8, 9, 10]
  | .summaryctrl => [15, 14, 13, 12, 11, 10, 9, 8]
  | .summarystatus => [15, 14, 13, 12, 11, 10, 9, 8]

/-- **When the register codecs are faithful.**  A read function is right for the registers in
which the bits it loses are clear; a control record of single bits survives being written and
read back if the fields of the upper half are 0 in `ksz8895`; in `phyinterface_basic` any
record is, if all of its fields are 0.
SOURCE: drivers/ksz8895/ksz8895.cpp:55-285, drivers/adara/network/ethphy.cpp:34-136 -/
theorem phy_codecs_iff (reg : BitVec 16) (f : PhyRead) {value : RegMiicontrol}
    (hvalue : SingleBits (RegMiicontrol.values value)) (rctrl rctl : Regctrl) :
    (ReadsRight reg f ↔ Clear reg (lostBits f)) ∧
      (readmiicontrol (writemiicontrol value) = value ↔
        (value.softreset = 0 ∧ value.loopback = 0 ∧ value.force100 = 0 ∧ value.anenable = 0 ∧
          value.powerdown = 0 ∧ value.phyisolate = 0 ∧ value.restartan = 0 ∧
          value.forcefullduplex = 0)) ∧
      (readsummaryctrl (some (writesummaryctrl rctrl)) rctl = rctrl ↔
        ∀ x ∈ Regctrl.values rctrl, x = 0) := by
  refine ⟨?_, readmiicontrol_writemiicontrol_iff hvalue,
    readsummaryctrl_writesummaryctrl_iff rctrl rctl⟩
  cases f with
  | miicontrol => exact readmiicontrol_iff reg
  | miistatus => exact readmiistatus_iff reg
  | advertisementability => exact readadvertisementability_iff reg
  | linkpartnerability => exact readlinkpartnerability_iff reg
  | linkmd => exact readlinkmd_ctrlstat_iff reg
  | physpecial => exact readphyspecial_ctrlstat_iff reg
  | summaryctrl =>
    exact (forall_congr' (readsummaryctrl_iff reg)).trans (forall_const Regctrl)
  | summarystatus =>
    exact (forall_congr' (readsummarystatus_iff reg)).trans (forall_const Regstatus)

/-- Control records with one field set. -/
def loopbackOnly : RegMiicontrol :=
  ⟨0, 1, 0, 0, 0, 0, 0, 0, 0, 0, 0, 0, 0, 0, 0⟩

/-- A record in which the speed alone is set. -/
def speedOnly : Regctrl := ⟨0, 0, 1, 0, 0, 0, 0, 0⟩

/-- A record in which the bit that disables the LED is set alone. -/
def ledOnly : RegMiicontrol :=
  ⟨0, 0, 0, 0, 0, 0, 0, 0, 0, 0, 0, 0, 0, 0, 1⟩

/-- What lies in the lower half is read right. -/
theorem phy_codecs_lower_half :
    ReadsRight 0x0024 .miistatus ∧ readmiicontrol (writemiicontrol ledOnly) = ledOnly ∧
      readsummaryctrl (some (writesummaryctrl ⟨0, 0, 0, 0, 0, 0, 0, 0⟩)) speedOnly =
        ⟨0, 0, 0, 0, 0, 0, 0, 0⟩ := by
  have hled : SingleBits (RegMiicontrol.values ledOnly) := by
    simp [SingleBits, RegMiicontrol.values, ledOnly]
  obtain ⟨hread, hmiicontrol, hsummaryctrl⟩ :=
    phy_codecs_iff 0x0024 .miistatus hled ⟨0, 0, 0, 0, 0, 0, 0, 0⟩ speedOnly
  refine ⟨hread.mpr ?_, hmiicontrol.mpr ?_, hsummaryctrl.mpr ?_⟩
  · unfold Clear lostBits
    decide
  · decide
  · simp [Regctrl.values]

/-- The upper byte of the status register, the selector field, and the two round trips. -/
theorem not_phy_codecs :
    ¬ ReadsRight 0x7800 .miistatus ∧ ¬ ReadsRight 0x0001 .advertisementability ∧
      (SingleBits (RegMiicontrol.values loopbackOnly) ∧
        readmiicontrol (writemiicontrol loopbackOnly) ≠ loopbackOnly) ∧
      (SingleBits (Regctrl.values speedOnly) ∧
        readsummaryctrl (some (writesummaryctrl speedOnly)) speedOnly ≠ speedOnly) := by
  refine ⟨?_, ?_, ?_, ?_⟩
  · show ¬ readmiistatus 0x7800 = miistatusOf (between 0x7800)
    decide
  · show ¬ readadvertisementability 0x0001 = advertisementabilityOf (between 0x0001)
    decide
  · exact ⟨by simp [SingleBits, RegMiicontrol.values, loopbackOnly], by decide⟩
  · exact ⟨by simp [SingleBits, Regctrl.values, speedOnly], by decide⟩

end Resmod.Analysis
