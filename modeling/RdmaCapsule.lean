import RdmaCapsule.Clients.Chain
import RdmaCapsule.Clients.ChainProgress
import RdmaCapsule.Clients.ChainReplication
import RdmaCapsule.Clients.PingPong
import RdmaCapsule.Clients.RequestAcks
import RdmaCapsule.Common.PerfCounters
import RdmaCapsule.Common.PerfHistogram
import RdmaCapsule.Common.Utime
import RdmaCapsule.Core.BufferLookup
import RdmaCapsule.Core.ClientConnection
import RdmaCapsule.Core.Inflight
import RdmaCapsule.Core.Occupancy
import RdmaCapsule.Core.Ownership
import RdmaCapsule.Core.PendingSends
import RdmaCapsule.Core.PoolSize
import RdmaCapsule.Core.PostChunks
import RdmaCapsule.Core.QpRegistry
import RdmaCapsule.Core.QueuePairInit
import RdmaCapsule.Core.ReadTermination
import RdmaCapsule.Core.Readiness
import RdmaCapsule.Core.RemoteClose
import RdmaCapsule.Core.RxBlocks
import RdmaCapsule.Core.RxPool
import RdmaCapsule.Core.SendCompletions
import RdmaCapsule.Core.SendPath
import RdmaCapsule.Core.SendPool
import RdmaCapsule.Core.ServerHandshake
import RdmaCapsule.Core.Teardown
import RdmaCapsule.Core.Transfer
import RdmaCapsule.Foundation.Latch
import RdmaCapsule.Foundation.Ledger
import RdmaCapsule.Multicast.ConnectionSetup
import RdmaCapsule.Multicast.FourParty
import RdmaCapsule.Multicast.HandshakeCheck
import RdmaCapsule.Multicast.MessageRead
import RdmaCapsule.Multicast.Numbering
import RdmaCapsule.Multicast.WireFormat
import RdmaCapsule.Network.Bind
import RdmaCapsule.Network.BufferList
import RdmaCapsule.Network.ConnectProcess
import RdmaCapsule.Network.Descriptors
import RdmaCapsule.Network.EntityAddr
import RdmaCapsule.Network.EventCenter
import RdmaCapsule.Network.FiredEvents
import RdmaCapsule.Network.Sendmsg
import RdmaCapsule.Network.ServerSockets
import RdmaCapsule.Network.Sockets
import RdmaCapsule.Network.SubmitEvent
import RdmaCapsule.Network.TimeEvents
import RdmaCapsule.Network.Workers
import RdmaCapsule.Common.Config
