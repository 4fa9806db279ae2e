import Pa6tEth.RxBuffers
import Pa6tEth.Conservation
import Pa6tEth.Delivery
import Pa6tEth.Events
import Pa6tEth.Offline
import Pa6tEth.Sessions
import Pa6tEth.Rearm
import Pa6tEth.Wakeup
import Pa6tEth.TxLifecycle
import Pa6tEth.RxLength
import Pa6tEth.Openers
import Pa6tEth.Manager
import Pa6tEth.SingleTask
import Pa6tEth.ProcessRx
import Pa6tEth.Cookie
import Pa6tEth.Unload
import Pa6tEth.HwCleanup
import Pa6tEth.RingRegisters
import Pa6tEth.SerialCalls
import Pa6tEth.ArmCredits
import Pa6tEth.OnlineReport
import Pa6tEth.TxFailure
import Pa6tEth.RxSweep
import Pa6tEth.RxConserve
import Pa6tEth.InterfaceTable
import Pa6tEth.StationAddress
import Pa6tEth.LinkEvents
import Pa6tEth.RxContent
import Pa6tEth.Flush
import Pa6tEth.Abort
import Pa6tEth.OpenSystem
import Pa6tEth.OpenFailure
import Pa6tEth.Ownership
import Pa6tEth.Outcomes
import Pa6tEth.Commands
import Pa6tEth.Wire
import Pa6tEth.Traffic
import Pa6tEth.Nodes
import Pa6tEth.NodeRuns
import Pa6tEth.Quiesce
