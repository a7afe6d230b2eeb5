import Mathlib.Data.Rat.Floor
import Mathlib.Tactic.Common

/-!
# The time base of the timers

`TimerBase` of `stm32f4timer.cc` and the two functions of the peripheral library that
`Configure` calls.  The quotients are read over exact arithmetic; a conversion to an unsigned
type truncates, as it does for the values that arise here.

The library's checks of its arguments (`assert_param`) change no register and are left out.
-/

set_option autoImplicit false

namespace Resmod.Model

namespace TimerBase

/-- The timers of the controller. -/
inductive Timer
  | TIM1 | TIM2 | TIM3 | TIM4 | TIM5 | TIM6 | TIM7
  | TIM8 | TIM9 | TIM10 | TIM11 | TIM12 | TIM13 | TIM14
  deriving DecidableEq, Repr

/-- The bus that clocks a timer. -/
inductive BusName
  | APB1
  | APB2
  deriving DecidableEq, Repr

/-- A timer and its bus. -/
structure TimerBusDetails where
  timbase : Timer
  bus : BusName
  deriving DecidableEq, Repr

/-- SOURCE: resmod/lowlevelutil/stm32f4timer.cc:30-46 -/
def timerbusdetails : List TimerBusDetails :=
  [⟨.TIM1, .APB2⟩, ⟨.TIM2, .APB1⟩, ⟨.TIM3, .APB1⟩, ⟨.TIM4, .APB1⟩, ⟨.TIM5, .APB1⟩,
    ⟨.TIM6, .APB1⟩, ⟨.TIM7, .APB1⟩, ⟨.TIM8, .APB2⟩, ⟨.TIM9, .APB2⟩, ⟨.TIM10, .APB2⟩,
    ⟨.TIM11, .APB2⟩, ⟨.TIM12, .APB1⟩, ⟨.TIM13, .APB1⟩, ⟨.TIM14, .APB1⟩]

/-- The index that the constructor finds. -/
def busdetailsindex (timbase : Timer) : Fin timerbusdetails.length :=
  ⟨timerbusdetails.findIdx fun a => a.timbase = timbase, by cases timbase <;> decide⟩

/-- The entry of a timer.
SOURCE: resmod/lowlevelutil/stm32f4timer.cc:155-158 -/
def busDetails (timbase : Timer) : TimerBusDetails :=
  timerbusdetails.get (busdetailsindex timbase)

/-- What `RCC_GetClocksFreq` fills in, as far as it is read. -/
structure RCC_ClocksTypeDef where
  PCLK1_Frequency : UInt32
  PCLK2_Frequency : UInt32

/-- SOURCE: resmod/lowlevelutil/stm32f4timer.cc:104-128 -/
def peripheralFrequency (clocks : RCC_ClocksTypeDef) (timbase : Timer) : UInt32 :=
  let pfreq :=
    match (busDetails timbase).bus with
    | .APB1 => clocks.PCLK1_Frequency
    | .APB2 => clocks.PCLK2_Frequency
  pfreq * 2

/-! ## The peripheral library -/

/-- The settings of a time base. -/
structure TIM_TimeBaseInitTypeDef where
  TIM_Prescaler : UInt16
  TIM_CounterMode : UInt16
  TIM_Period : UInt32
  TIM_ClockDivision : UInt16
  TIM_RepetitionCounter : UInt8

/-- The registers of a timer that its time base uses. -/
structure TIM_TypeDef where
  CR1 : UInt16
  SMCR : UInt16
  EGR : UInt16
  PSC : UInt16
  ARR : UInt32
  RCR : UInt16
  deriving DecidableEq, Repr

def TIM_CR1_DIR : UInt16 := 0x0010
def TIM_CR1_CMS : UInt16 := 0x0060
def TIM_CR1_CKD : UInt16 := 0x0300
def TIM_SMCR_SMS : UInt16 := 0x0007
def TIM_CKD_DIV1 : UInt16 := 0x0000
def TIM_CounterMode_Up : UInt16 := 0x0000
def TIM_PSCReloadMode_Immediate : UInt16 := 0x0001

/-- The timers with a counter of 32 bits. -/
def wide (tim : Timer) : Bool := tim = .TIM2 || tim = .TIM5

/-- A store to the auto-reload register; the timers of 16 bits drop the upper half. -/
def storeARR (tim : Timer) (r : TIM_TypeDef) (v : UInt32) : TIM_TypeDef :=
  { r with ARR := if wide tim then v else v.toUInt16.toUInt32 }

/-- The default settings. -/
def TIM_TimeBaseStructInit : TIM_TimeBaseInitTypeDef where
  TIM_Period := 0xFFFFFFFF
  TIM_Prescaler := 0x0000
  TIM_ClockDivision := TIM_CKD_DIV1
  TIM_CounterMode := TIM_CounterMode_Up
  TIM_RepetitionCounter := 0x00

/-- SOURCE: system/src/stm32f4-periph/stm32f4xx_tim.c:288-332 -/
def TIM_TimeBaseInit (tim : Timer) (init : TIM_TimeBaseInitTypeDef) (r : TIM_TypeDef) :
    TIM_TypeDef :=
  let tmpcr1 := r.CR1
  let tmpcr1 :=
    if tim = .TIM1 ∨ tim = .TIM8 ∨ tim = .TIM2 ∨ tim = .TIM3 ∨ tim = .TIM4 ∨ tim = .TIM5 then
      (tmpcr1 &&& ~~~(TIM_CR1_DIR ||| TIM_CR1_CMS)) ||| init.TIM_CounterMode
    else tmpcr1
  let tmpcr1 :=
    if tim ≠ .TIM6 ∧ tim ≠ .TIM7 then
      (tmpcr1 &&& ~~~TIM_CR1_CKD) ||| init.TIM_ClockDivision
    else tmpcr1
  let r := { r with CR1 := tmpcr1 }
  let r := storeARR tim r init.TIM_Period
  let r := { r with PSC := init.TIM_Prescaler }
  let r :=
    if tim = .TIM1 ∨ tim = .TIM8 then { r with RCR := init.TIM_RepetitionCounter.toUInt16 }
    else r
  { r with EGR := TIM_PSCReloadMode_Immediate }

/-- SOURCE: system/src/stm32f4-periph/stm32f4xx_tim.c:2683-2690 -/
def TIM_InternalClockConfig (r : TIM_TypeDef) : TIM_TypeDef :=
  { r with SMCR := r.SMCR &&& ~~~TIM_SMCR_SMS }

/-! ## The time base -/

/-- `(apbfreq / 1E6) - 1`, as a `uint16_t`. -/
def prescalerOf (apbfreq : UInt32) : UInt16 :=
  UInt16.ofNat ⌊(apbfreq.toNat : ℚ) / 1000000 - 1⌋₊

/-- `(1.0 / freq / 1.0E-6) - 1`, as a `uint32_t`. -/
def periodOf (freq : UInt32) : UInt32 :=
  UInt32.ofNat ⌊(1 : ℚ) / freq.toNat / (1 / 1000000) - 1⌋₊

/-- The registers that `Configure(freq)` leaves.
SOURCE: resmod/lowlevelutil/stm32f4timer.cc:130-151 -/
def configure (clocks : RCC_ClocksTypeDef) (timbase : Timer) (freq : UInt32) (r : TIM_TypeDef) :
    TIM_TypeDef :=
  let apbfreq := peripheralFrequency clocks timbase
  let timerparams :=
    { TIM_TimeBaseStructInit with
      TIM_ClockDivision := TIM_CKD_DIV1
      TIM_Prescaler := prescalerOf apbfreq
      TIM_Period := periodOf freq
      TIM_RepetitionCounter := 0
      TIM_CounterMode := TIM_CounterMode_Up }
  TIM_InternalClockConfig
    (TIM_TimeBaseInit (busDetails timbase).timbase timerparams r)

end TimerBase

end Resmod.Model
