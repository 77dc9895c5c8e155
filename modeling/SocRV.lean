import SocRV.Theorems.ExternalAccess
import SocRV.Theorems.ContextSwitch
import SocRV.Theorems.InterruptEnable
import SocRV.Theorems.DccmMemory
import SocRV.Theorems.Flush
import SocRV.Theorems.MmioReads
import SocRV.Theorems.StoreBuffer
import SocRV.Theorems.InstBuffer
import SocRV.Theorems.MmioLoad
import SocRV.Theorems.FpPrecise
import SocRV.Theorems.FprDataflow
import SocRV.Theorems.FpCsr
import SocRV.Theorems.Misaligned
import SocRV.Theorems.LongOpCommit
import SocRV.Theorems.ElfLoading
import SocRV.Theorems.BuildImage
import SocRV.Theorems.BitstreamPatch
import SocRV.Theorems.Division
import SocRV.Theorems.FpDecode
import SocRV.Theorems.SimVerdict
import SocRV.Theorems.UartRoundTrip
import SocRV.Theorems.TickExact
import SocRV.Theorems.UartReceive
import SocRV.Theorems.UartCodec
import SocRV.Theorems.I2cTransfer
import SocRV.Theorems.FpuProtocol
import SocRV.Theorems.I2cController
import SocRV.Theorems.TrapVector
import SocRV.Theorems.StoreCommit
import SocRV.Theorems.MemoryMap
import SocRV.Theorems.ImageAtomic
import SocRV.Theorems.IsaData
import SocRV.Theorems.MemoryInfo
import SocRV.Theorems.TrapFrame
import SocRV.Theorems.Counters
import SocRV.Theorems.TimerDriver
import SocRV.Theorems.Iterations
import SocRV.Theorems.Multiplication
import SocRV.Theorems.CleanRtl
