import Refault.SimCx
import Refault.ExecInv
import Refault.ExecAct
import Refault.SleepInv
import Refault.Stack
import Refault.Step
import Refault.Invariant
import Refault.AbortJoin
import Refault.Borrow
import Refault.Callbacks
import Refault.Divergence
import Refault.Ids
import Refault.Lib.Custody
import Refault.Net
import Refault.NetCx
import Refault.NetInv
import Refault.NetStep
import Refault.PerNode
import Refault.PerNodeCalls
import Refault.SendBind
import Refault.Simulators
import Refault.SleepOnTime
import Refault.SleepPolls
import Refault.StopOrder
import Refault.YieldNow
import Refault.Packets
import Refault.Sockets
import Refault.Arrivals
import Refault.KeyOrder
import Refault.Traffic
import Refault.Rpc
import Refault.RpcPanics
import Refault.Timeout
