import Qbox.Smmuv3Grants
import Qbox.ExclusiveDmi
import Qbox.ExclusiveInterleaving
import Qbox.Smmuv3CommandQueue
import Qbox.Smmuv3Stall
import Qbox.RegRouterInterleaving
import Qbox.AddressMapCaches
import Qbox.McipsClock
import Qbox.McipsResume
import Qbox.McipsShutdown
import Qbox.QuantumKeeperRolling
import Qbox.BiflowRouter
import Qbox.PassRpc
import Qbox.PassRpcWaiter
import Qbox.Pl011Link
import Qbox.PluginBridge
import Qbox.RunOnSyscWakeup
import Qbox.DwmacInterrupts
import Qbox.DwmacReceive
import Qbox.DwmacTransmit
import Qbox.IbexUart
import Qbox.PassRpcParams
import Qbox.QemuCpuJobs
import Qbox.Smmu500Asid
import Qbox.Smmu500Irq
import Qbox.Smmuv3DmaDmi
import Qbox.Smmuv3MsiRuns
import Qbox.Smmuv3WalkDefined
import Qbox.Smmuv3Vmsa
import Qbox.Smmuv3Stage2
import Qbox.SmmuUpperRange
import Qbox.Smmuv3Dirty
import Qbox.Smmuv3Lookup
import Qbox.TbuBytes
import Qbox.InitiatorTranslate
import Qbox.SmmuDebug
import Qbox.Smmuv3Caches
import Qbox.Smmu500Descriptors
import Qbox.AddressMapWarnings
import Qbox.DmiConverterProgress
import Qbox.Forwarders
import Qbox.GsMemoryLimits
import Qbox.RegRouterBanks
import Qbox.RegisterExpressions
import Qbox.Cciutils
import Qbox.AsyncEvent
