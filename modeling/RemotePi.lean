import RemotePi.Lib.Trace
import RemotePi.Lib.OrderedMap
import RemotePi.Relay.Routing
import RemotePi.Relay.Visibility
import RemotePi.Pairing.Identity
import RemotePi.Timeline.HistoryPacking
import RemotePi.Timeline.HistoryPaging
import RemotePi.Pwa.RelayLines
import RemotePi.Pwa.EndpointRegistry
import RemotePi.Pwa.PartialText
import RemotePi.Pwa.TimelineSync
import RemotePi.Pwa.EventTransfer
import RemotePi.Pwa.PublishedEvents
import RemotePi.Pwa.HistoryTransfer
import RemotePi.Host.Channels
import RemotePi.Host.EndpointAcl
import RemotePi.Host.UncommittedPairings
import RemotePi.Host.LineListeners
import RemotePi.Host.RelayRuns
import RemotePi.Host.SessionNewBridge
import RemotePi.Host.Deliveries
import RemotePi.Pairing.TokenRun
import RemotePi.Timeline.RequestStatus
import RemotePi.Timeline.ReplyChannels
import RemotePi.Timeline.InFlight
import RemotePi.Daemon.RpcChild
import RemotePi.Timeline.Recovery
import RemotePi.Timeline.RecoveryMatching
import RemotePi.Timeline.Availability
import RemotePi.Timeline.SnapshotCursor
import RemotePi.Timeline.LivePublication
import RemotePi.Pwa.StreamDisplay
import RemotePi.Pwa.Reconciliation
import RemotePi.Pairing.OtherOwners
import RemotePi.Daemon.CronRegistry
import RemotePi.Daemon.Registry
import RemotePi.Protocol.IdempotencyTable
import RemotePi.Daemon.CronSchedule
import RemotePi.Pairing.RollbackReceipts
import RemotePi.Pairing.PairUri
import RemotePi.Relay.Identity
import RemotePi.Daemon.ChildOutput
import RemotePi.Pwa.TimelineStore
import RemotePi.Pwa.StreamDrain
import RemotePi.Timeline.ReadyGate
import RemotePi.Pwa.RuntimeHistory
import RemotePi.Daemon.SupervisorRuns
import RemotePi.Pwa.FragmentAccounting
import RemotePi.Timeline.DeltaChunks
import RemotePi.Pwa.TimelineConflict
import RemotePi.Host.SessionReplacement
import RemotePi.Host.RevokedOwners
import RemotePi.Host.ExtensionUiBridge
import RemotePi.Daemon.CronFirings
import RemotePi.Relay.Authentication
import RemotePi.Pairing.IdentityRuns
import RemotePi.Pwa.PeerChannel
