import ZbAt.Machine
import ZbAt.Ring
import ZbAt.UartTx
import ZbAt.UartTxProof
import ZbAt.RefPool
import ZbAt.UartRx
import ZbAt.UartRxProof
import ZbAt.SlotTable
import ZbAt.TxQueue
import ZbAt.TxQueueProof
import ZbAt.TxOrder
import ZbAt.At
import ZbAt.Sreg
import ZbAt.SregValue
import ZbAt.SregProof
import ZbAt.MatchReq
import ZbAt.MatchReqProof
import ZbAt.ZbBootProof
import ZbAt.ZbStartProof
import ZbAt.Etrx
import ZbAt.EtrxEcho
import ZbAt.EtrxForge
import ZbAt.EtrxRun
import ZbAt.EtrxRunProof
import ZbAt.SregGuard
import ZbAt.SregPersist
import ZbAt.UartBin
import ZbAt.UartBinProof
import ZbAt.UartEntry
import ZbAt.Xcast
import ZbAt.XcastProof
import ZbAt.JoinPolicy
import ZbAt.NewNode
import ZbAt.SregSecret
import ZbAt.TxSeq
import ZbAt.UartRoom
import ZbAt.Endpoint
import ZbAt.Deferred
import ZbAt.DeferredProof
import ZbAt.Discover
import ZbAt.DiscoverProof
import ZbAt.EndpointProof
import ZbAt.SwitchBulb
import ZbAt.SwitchBulbProof
import ZbAt.ArgSyntax
import ZbAt.Bulb
import ZbAt.Clusters
import ZbAt.Display
import ZbAt.HexRev
import ZbAt.HostMatch
import ZbAt.LineEdit
import ZbAt.MatchResp
import ZbAt.MatchSyntax
import ZbAt.ReadBack
import ZbAt.Ensure
import ZbAt.EtrxThreads
import ZbAt.Receive
import ZbAt.BinaryCall
import ZbAt.BinaryCallProof
import ZbAt.BinaryProgress
import ZbAt.Light
import ZbAt.Start
import ZbAt.Delivery
