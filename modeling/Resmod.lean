import Resmod.Library.Machine
import Resmod.Model.CanSlave
import Resmod.Analysis.Reception
import Resmod.Analysis.TableReception
import Resmod.Analysis.TableCounter
import Resmod.Analysis.AddressConfirm
import Resmod.Analysis.Rechunking
import Resmod.Analysis.TableHandshake
import Resmod.Analysis.Calibration
import Resmod.Analysis.AcquisitionCycle
import Resmod.Analysis.HandoverInvariant
import Resmod.Analysis.Handover
import Resmod.Analysis.SlaveAddress
import Resmod.Analysis.AddressHandshake
import Resmod.Model.CanDriver
import Resmod.Analysis.Fragmentation
import Resmod.Model.CanSlaveReads
import Resmod.Model.DigitalConeCan
import Resmod.Analysis.ReadBounds
import Resmod.Analysis.DataFrames
import Resmod.Analysis.ReceptionQueue
import Resmod.Analysis.TaskList
import Resmod.Analysis.ZeroCopyMutex
import Resmod.Analysis.ZeroCopyOwner
import Resmod.Model.FlowControllerAccess
import Resmod.Analysis.FlowControllerBounds
import Resmod.Analysis.TableTrim
import Resmod.Analysis.TaskCreation
import Resmod.Analysis.CalcDivisor
import Resmod.Analysis.OneShot
import Resmod.Analysis.CharQueueClear
import Resmod.Analysis.CharQueueRx
import Resmod.Analysis.CharQueueTx
import Resmod.Analysis.CanTransmit
import Resmod.Analysis.SspInterrupt
import Resmod.Library.Ring
import Resmod.Library.Copy
import Resmod.Model.EthernetRx
import Resmod.Analysis.EthernetRx
import Resmod.Model.EthernetTask
import Resmod.Analysis.EthernetTask
import Resmod.Library.BitFields
import Resmod.Model.SspPolled
import Resmod.Analysis.SspPolled
import Resmod.Analysis.ZeroCopyRejection
import Resmod.Model.SspIoctl
import Resmod.Analysis.SspIoctl
import Resmod.Model.EthernetTx
import Resmod.Analysis.EthernetTx
import Resmod.Analysis.TransmitResult
import Resmod.Model.PhyRegisters
import Resmod.Analysis.PhyRegisters
import Resmod.Model.OutputCompare
import Resmod.Analysis.OutputCompare
import Resmod.Model.TimerBase
import Resmod.Analysis.TimerBase
import Resmod.Model.Consumer
import Resmod.Analysis.ConsumerReadiness
import Resmod.Model.AD5541
import Resmod.Analysis.DacPlayback
import Resmod.Library.Loop
import Resmod.Model.ExtraSlaveTable
import Resmod.Analysis.ContinuationLoop
import Resmod.Library.Window
import Resmod.Model.CircularBufferRx
import Resmod.Analysis.CircularBuffer
import Resmod.Analysis.CircularBufferRx
import Resmod.Analysis.CircularBufferProgress
import Resmod.Analysis.CircularBufferClear
import Resmod.Model.EthernetTxDma
import Resmod.Analysis.EthernetTxDma
import Resmod.Analysis.EthernetDelivery
import Resmod.Library.Heap
import Resmod.Model.TransferControl
import Resmod.Analysis.TransferControl
import Resmod.Analysis.TransferOwnership
import Resmod.Analysis.TransferRuns
import Resmod.Analysis.CanTask
import Resmod.Library.Alike
import Resmod.Library.Slots
import Resmod.Model.EthernetPointers
import Resmod.Analysis.EthernetPointers
import Resmod.Model.CharQueueRx
import Resmod.Model.SspCharQueue
import Resmod.Analysis.SspCharQueue
import Resmod.Analysis.SspCharQueueProgress
import Resmod.Analysis.SspCharQueueRead
