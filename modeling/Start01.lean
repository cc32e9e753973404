import Start01.Lib.Linked
import Start01.Lib.Scatter
import Start01.Lib.Windows
import Start01.Lib.Run
import Start01.ParamCfg
import Start01.Frame
import Start01.Scan
import Start01.Comm
import Start01.CmdTable
import Start01.AutoVars
import Start01.Recv
import Start01.Network
import Start01.Reply
import Start01.Persist
import Start01.Binding
import Start01.Lib.Calendar
import Start01.DateTime
import Start01.DateRoundTrip
import Start01.Timer
import Start01.TimerSrv
import Start01.PcFrame
import Start01.ParamStore
import Start01.Lib.Ring
import Start01.Kfifo
import Start01.SerialRx
import Start01.SerialTx
import Start01.Anybus
import Start01.TimerNum
import Start01.TimerLost
import Start01.Heap
import Start01.HeapTiles
import Start01.HeapOps
import Start01.HeapRun
import Start01.HeapLow
import Start01.KfifoAlloc
import Start01.Div64
import Start01.Clock
import Start01.ClockSteps
import Start01.Gregorian
import Start01.Weekday
import Start01.TimerFrame
import Start01.TimerCadence
import Start01.TimerStop
import Start01.AckPaths
import Start01.HeapFrame
import Start01.HeapReturn
import Start01.SerialOpen
import Start01.Console
import Start01.RtcCalls
import Start01.Lib.Crc
import Start01.ModRtu
import Start01.Lib.Spi
import Start01.FramBus
import Start01.Chains
import Start01.NetRestore
import Start01.Registry
import Start01.Abcc
import Start01.AbccInvariant
import Start01.AbccMessages
import Start01.AbccNet
import Start01.AbccDamage
import Start01.AbccProgress
import Start01.Appd
import Start01.AppdAccept
import Start01.AppdDrive
import Start01.AppdRefine
import Start01.AbccNode
