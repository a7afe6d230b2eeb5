import Resmod.Model.SspIoctl
import Mathlib.Tactic.SplitIfs

/-!
# What a configuration request changes

`Obeys` is what a request owes its caller: one of the eight configuration requests sets the
field it names, leaves everything else, initialises the port with the result and returns
`pdTRUE`; a request that is not recognised does nothing and returns `pdFALSE`.  None of the
eight branches sets the return value, so `obeys_iff` is that no configuration request obeys.
`sets_own_iff` is what remains without the return value.
-/

set_option autoImplicit false

namespace Resmod.Analysis

open Resmod.Model.SspIoctl

/-- The fields of a stored configuration. -/
inductive Setting
  | direction | mode | dataSize | cpol | cpha | nss | baudRatePrescaler | firstBit | crcPolynomial
  deriving DecidableEq, Repr

/-- The value of a setting. -/
def setting (c : SPI_InitTypeDef) : Setting → UInt16
  | .direction => c.SPI_Direction
  | .mode => c.SPI_Mode
  | .dataSize => c.SPI_DataSize
  | .cpol => c.SPI_CPOL
  | .cpha => c.SPI_CPHA
  | .nss => c.SPI_NSS
  | .baudRatePrescaler => c.SPI_BaudRatePrescaler
  | .firstBit => c.SPI_FirstBit
  | .crcPolynomial => c.SPI_CRCPolynomial

/-- The setting that a configuration request names. -/
def named (ulRequest : UInt32) : Option Setting :=
  if ulRequest = ioctlSET_SPI_DATA_BITS then some .dataSize
  else if ulRequest = ioctlSET_SPI_CLOCK_PHASE then some .cpha
  else if ulRequest = ioctlSET_SPI_CLOCK_POLARITY then some .cpol
  else if ulRequest = ioctlSET_SPI_MODE then some .mode
  else if ulRequest = ioctlSET_SPI_NSS then some .nss
  else if ulRequest = ioctlSET_SPI_BAUDRATEPRESCALER then some .baudRatePrescaler
  else if ulRequest = ioctlSET_SPI_CRCPOLY then some .crcPolynomial
  else if ulRequest = ioctlSET_SPI_DIRECTION then some .direction
  else none

/-- The requests about interrupts and speed, which are no settings of the SPI. -/
def Other (ulRequest : UInt32) : Prop :=
  ulRequest = ioctlUSE_INTERRUPTS ∨ ulRequest = ioctlSET_INTERRUPT_PRIORITY ∨
    ulRequest = ioctlSET_SPEED

/-- The field `f` of port `pnum` becomes the value, the other fields and the other ports stay,
and the port is initialised with the result. -/
structure SetsOwn (d : Driver) (pnum : Port) (f : Setting) (ulValue : UInt32) (r : Result) :
    Prop where
  own : (setting (r.driver.xSSPConfigurations pnum) f).toUInt32 = ulValue
  others : ∀ g, g ≠ f →
    setting (r.driver.xSSPConfigurations pnum) g = setting (d.xSSPConfigurations pnum) g
  ports : ∀ p, p ≠ pnum → r.driver.xSSPConfigurations p = d.xSSPConfigurations p
  ops : r.ops = [.spiCmd false, .spiInit (r.driver.xSSPConfigurations pnum), .spiCmd true]

/-- What a request owes its caller. -/
def Obeys (fullAssert : Bool) (d : Driver) (pnum : Port) (ulRequest ulValue : UInt32) : Prop :=
  match named ulRequest with
  | some f => ∃ r, ioctl fullAssert d pnum ulRequest ulValue = some r ∧
      SetsOwn d pnum f ulValue r ∧ r.ret = true
  | none => ¬ Other ulRequest →
      ioctl fullAssert d pnum ulRequest ulValue = some ⟨false, [], d⟩

/-! ## The branches -/

/-- The field that the branch of a request for `f` stores. -/
def stored : Setting → Setting
  | .crcPolynomial => .baudRatePrescaler
  | f => f

/-- The settings with one of them changed. -/
def withSetting (c : SPI_InitTypeDef) (v : UInt16) : Setting → SPI_InitTypeDef
  | .direction => { c with SPI_Direction := v }
  | .mode => { c with SPI_Mode := v }
  | .dataSize => { c with SPI_DataSize := v }
  | .cpol => { c with SPI_CPOL := v }
  | .cpha => { c with SPI_CPHA := v }
  | .nss => { c with SPI_NSS := v }
  | .baudRatePrescaler => { c with SPI_BaudRatePrescaler := v }
  | .firstBit => { c with SPI_FirstBit := v }
  | .crcPolynomial => { c with SPI_CRCPolynomial := v }

/-- A stored field holds the value, and no other field is changed. -/
theorem setting_withSetting (c : SPI_InitTypeDef) (v : UInt16) (f g : Setting) :
    setting (withSetting c v f) g = if g = f then v else setting c g := by
  cases f <;> cases g <;> rfl

/-- **The branch of a configuration request.** -/
theorem ioctl_of_named (fullAssert : Bool) (d : Driver) (pnum : Port) (ulValue : UInt32)
    {ulRequest : UInt32} {f : Setting} (h : named ulRequest = some f) :
    ioctl fullAssert d pnum ulRequest ulValue =
      some (change d pnum fun c => withSetting c ulValue.toUInt16 (stored f)) := by
  unfold named at h
  split_ifs at h with h1 h2 h3 h4 h5 h6 h7 h8
  all_goals
    obtain rfl := Option.some.inj h
    subst ulRequest
    rfl

/-- Every other request that is recognised is about interrupts or the speed. -/
theorem ioctl_of_not_recognised (fullAssert : Bool) (d : Driver) (pnum : Port)
    (ulValue : UInt32) {ulRequest : UInt32} (h : named ulRequest = none)
    (hother : ¬ Other ulRequest) :
    ioctl fullAssert d pnum ulRequest ulValue = some ⟨false, [], d⟩ := by
  unfold named at h
  split_ifs at h with h1 h2 h3 h4 h5 h6 h7 h8
  rw [Other, not_or, not_or] at hother
  obtain ⟨ho1, ho2, ho3⟩ := hother
  unfold ioctl
  rw [if_neg ho1, if_neg ho2, if_neg ho3, if_neg h1, if_neg h2, if_neg h3, if_neg h4, if_neg h5,
    if_neg h6, if_neg h7, if_neg h8]

/-- The configuration of the port after a change. -/
theorem configurations_change (d : Driver) (pnum : Port)
    (set : SPI_InitTypeDef → SPI_InitTypeDef) :
    (change d pnum set).driver.xSSPConfigurations pnum = set (d.xSSPConfigurations pnum) :=
  Function.update_self _ _ _

/-- **What is right about a configuration request, its return value apart.**  The value fits
into the field, and it is not the polynomial that is to be set: that request stores the
prescaler, and is right only where both fields hold the value already. -/
theorem sets_own_iff (d : Driver) (pnum : Port) (ulValue : UInt32) (f : Setting) :
    SetsOwn d pnum f ulValue
        (change d pnum fun c => withSetting c ulValue.toUInt16 (stored f)) ↔
      ulValue.toUInt16.toUInt32 = ulValue ∧ (f = .crcPolynomial →
        setting (d.xSSPConfigurations pnum) .crcPolynomial = ulValue.toUInt16 ∧
        setting (d.xSSPConfigurations pnum) .baudRatePrescaler = ulValue.toUInt16) := by
  have hget : ∀ g, setting ((change d pnum fun c =>
      withSetting c ulValue.toUInt16 (stored f)).driver.xSSPConfigurations pnum) g =
        if g = stored f then ulValue.toUInt16 else setting (d.xSSPConfigurations pnum) g := by
    intro g
    rw [configurations_change, setting_withSetting]
  by_cases hcrc : f = .crcPolynomial
  · subst hcrc
    have hstored : stored .crcPolynomial = .baudRatePrescaler := rfl
    constructor
    · intro h
      have hown := h.own
      have hbaud := h.others .baudRatePrescaler (by decide)
      rw [hget, hstored, if_neg (by decide)] at hown
      rw [hget, hstored, if_pos rfl] at hbaud
      refine ⟨?_, fun _ => ⟨?_, hbaud.symm⟩⟩
      · rw [← hown, UInt16.toUInt16_toUInt32]
      · rw [← hown, UInt16.toUInt16_toUInt32]
    · rintro ⟨hfits, hboth⟩
      obtain ⟨hpoly, hbaud⟩ := hboth rfl
      refine ⟨?_, ?_, fun p hp => Function.update_of_ne hp _ _, ?_⟩
      · rw [hget, hstored, if_neg (by decide), hpoly, hfits]
      · intro g _
        rw [hget, hstored]
        by_cases hg : g = .baudRatePrescaler
        · rw [if_pos hg, hg, hbaud]
        · rw [if_neg hg]
      · rw [configurations_change]
        rfl
  · have hstored : stored f = f := by
      cases f with
      | crcPolynomial => exact absurd rfl hcrc
      | _ => rfl
    rw [hstored] at hget
    constructor
    · intro h
      have hown := h.own
      rw [hstored, hget, if_pos rfl] at hown
      exact ⟨hown, fun hpoly => absurd hpoly hcrc⟩
    · rintro ⟨hfits, -⟩
      rw [hstored]
      refine ⟨?_, ?_, fun p hp => Function.update_of_ne hp _ _, ?_⟩
      · rw [hget, if_pos rfl, hfits]
      · intro g hg
        rw [hget, if_neg hg]
      · rw [configurations_change]
        rfl

/-- **A request obeys exactly if it is no configuration request.**
SOURCE: lib/freertos-plus-io/device/stm32f4/FreeRTOS_stm32f4_ssp.c:453-595 -/
theorem obeys_iff (fullAssert : Bool) (d : Driver) (pnum : Port) (ulRequest ulValue : UInt32) :
    Obeys fullAssert d pnum ulRequest ulValue ↔ named ulRequest = none := by
  unfold Obeys
  cases h : named ulRequest with
  | none =>
    apply iff_of_true _ rfl
    intro hother
    exact ioctl_of_not_recognised fullAssert d pnum ulValue h hother
  | some f =>
    apply iff_of_false
    · rintro ⟨r, hr, -, hret⟩
      rw [ioctl_of_named fullAssert d pnum ulValue h] at hr
      obtain rfl := Option.some.inj hr
      exact Bool.noConfusion hret
    · exact Option.some_ne_none f

/-- The configuration of a port after `SPI_StructInit`, for all ports. -/
def defaultDriver : Driver where
  xSSPConfigurations _ := ⟨0, 0, 0, 0, 0, 0, 0, 0, 7⟩
  pxRxTransferControlStructs _ := false

/-- The request for the polynomial 11 stores the prescaler and returns `pdFALSE`. -/
theorem not_obeys_polynomial :
    (∃ r, ioctl false defaultDriver 1 ioctlSET_SPI_CRCPOLY 11 = some r ∧ r.ret = false ∧
      (r.driver.xSSPConfigurations 1).SPI_CRCPolynomial = 7 ∧
      (r.driver.xSSPConfigurations 1).SPI_BaudRatePrescaler = 11) ∧
    ¬ Obeys false defaultDriver 1 ioctlSET_SPI_CRCPOLY 11 := by
  refine ⟨⟨_, rfl, rfl, rfl, rfl⟩, ?_⟩
  rintro ⟨r, hr, -, hret⟩
  obtain rfl := Option.some.inj hr
  exact Bool.noConfusion hret

end Resmod.Analysis
