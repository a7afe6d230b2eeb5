import Mathlib.Logic.Function.Basic

/-!
# Configuring an SSP port

`FreeRTOS_SSP_ioctl` of `FreeRTOS_stm32f4_ssp.c`.  What it asks of the peripheral library is
logged; the configuration of every port is stored by the driver.  The call runs in a
critical section.
-/

set_option autoImplicit false

namespace Resmod.Model

namespace SspIoctl

/-- There are `MAXINDEX`, that is `boardNUM_SSPS + 1`, entries for ports. -/
abbrev Port := Fin 7

/-- SOURCE: system/include/stm32f4-periph/stm32f4xx_spi.h:54-85 -/
structure SPI_InitTypeDef where
  SPI_Direction : UInt16
  SPI_Mode : UInt16
  SPI_DataSize : UInt16
  SPI_CPOL : UInt16
  SPI_CPHA : UInt16
  SPI_NSS : UInt16
  SPI_BaudRatePrescaler : UInt16
  SPI_FirstBit : UInt16
  SPI_CRCPolynomial : UInt16
  deriving DecidableEq, Repr

/-- The requests; the last four are defined by the board's header. -/
def ioctlSET_SPEED : UInt32 := 100
def ioctlUSE_INTERRUPTS : UInt32 := 101
def ioctlSET_INTERRUPT_PRIORITY : UInt32 := 102
def ioctlSET_SPI_DATA_BITS : UInt32 := 200
def ioctlSET_SPI_CLOCK_PHASE : UInt32 := 201
def ioctlSET_SPI_CLOCK_POLARITY : UInt32 := 202
def ioctlSET_SPI_MODE : UInt32 := 203
def ioctlSET_SPI_NSS : UInt32 := 204
def ioctlSET_SPI_BAUDRATEPRESCALER : UInt32 := 205
def ioctlSET_SPI_CRCPOLY : UInt32 := 206
def ioctlSET_SPI_DIRECTION : UInt32 := 207

def configLIBRARY_LOWEST_INTERRUPT_PRIORITY : UInt32 := 15
def configLIBRARY_MAX_SYSCALL_INTERRUPT_PRIORITY : UInt32 := 5

/-- The calls of the peripheral library, for the SPI and the interrupt of the port. -/
inductive Op
  | itConfigTXE (enable : Bool)
  | itConfigRXNE (enable : Bool)
  | nvicInit (enable : Bool) (priority : UInt32)
  | nvicSetPriority (priority : UInt32)
  | spiCmd (enable : Bool)
  | spiInit (config : SPI_InitTypeDef)
  deriving DecidableEq, Repr

/-- The driver's variables that a request can change; a transfer control structure is the
port's own one or none. -/
structure Driver where
  xSSPConfigurations : Port → SPI_InitTypeDef
  pxRxTransferControlStructs : Port → Bool

/-- What a call returns and has done. -/
structure Result where
  ret : Bool
  ops : List Op
  driver : Driver

/-- `configASSERT(x)`: where assertions are compiled in, one that fails does not return. -/
def configASSERT (fullAssert x : Bool) (r : Result) : Option Result :=
  if fullAssert = true ∧ x = false then none else some r

/-- A branch that stores one setting, and the end of the function: the port is initialised
anew.  The branch does not touch the return value. -/
def change (d : Driver) (pnum : Port) (set : SPI_InitTypeDef → SPI_InitTypeDef) : Result :=
  let config := set (d.xSSPConfigurations pnum)
  { ret := false
    ops := [.spiCmd false, .spiInit config, .spiCmd true]
    driver :=
      { d with xSSPConfigurations := Function.update d.xSSPConfigurations pnum config } }

/-- `FreeRTOS_SSP_ioctl`; there is no result when an assertion stops the call.
SOURCE: lib/freertos-plus-io/device/stm32f4/FreeRTOS_stm32f4_ssp.c:453-595 -/
def ioctl (fullAssert : Bool) (d : Driver) (pnum : Port) (ulRequest ulValue : UInt32) :
    Option Result :=
  if ulRequest = ioctlUSE_INTERRUPTS then
    -- every port has an entry in `xIRQ`
    configASSERT fullAssert (decide (pnum.val < 7))
      { ret := true
        ops := [.itConfigTXE false, .itConfigRXNE true,
          .nvicInit (decide (ulValue = 1)) configLIBRARY_LOWEST_INTERRUPT_PRIORITY]
        driver :=
          { d with
            pxRxTransferControlStructs :=
              Function.update d.pxRxTransferControlStructs pnum true } }
  else if ulRequest = ioctlSET_INTERRUPT_PRIORITY then
    configASSERT fullAssert (decide (ulValue < configLIBRARY_MAX_SYSCALL_INTERRUPT_PRIORITY))
      ⟨true, [.nvicSetPriority ulValue], d⟩
  else if ulRequest = ioctlSET_SPEED then configASSERT fullAssert false ⟨false, [], d⟩
  else if ulRequest = ioctlSET_SPI_DATA_BITS then
    some (change d pnum fun c => { c with SPI_DataSize := ulValue.toUInt16 })
  else if ulRequest = ioctlSET_SPI_CLOCK_PHASE then
    some (change d pnum fun c => { c with SPI_CPHA := ulValue.toUInt16 })
  else if ulRequest = ioctlSET_SPI_CLOCK_POLARITY then
    some (change d pnum fun c => { c with SPI_CPOL := ulValue.toUInt16 })
  else if ulRequest = ioctlSET_SPI_MODE then
    some (change d pnum fun c => { c with SPI_Mode := ulValue.toUInt16 })
  else if ulRequest = ioctlSET_SPI_NSS then
    some (change d pnum fun c => { c with SPI_NSS := ulValue.toUInt16 })
  else if ulRequest = ioctlSET_SPI_BAUDRATEPRESCALER then
    some (change d pnum fun c => { c with SPI_BaudRatePrescaler := ulValue.toUInt16 })
  else if ulRequest = ioctlSET_SPI_CRCPOLY then
    -- the field of the prescaler, not that of the polynomial
    some (change d pnum fun c => { c with SPI_BaudRatePrescaler := ulValue.toUInt16 })
  else if ulRequest = ioctlSET_SPI_DIRECTION then
    some (change d pnum fun c => { c with SPI_Direction := ulValue.toUInt16 })
  else some ⟨false, [], d⟩

end SspIoctl

end Resmod.Model
