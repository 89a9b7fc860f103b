import IcanactRemote.OwnerReceipts
import IcanactRemote.OwnerEvidence
import IcanactRemote.ConfigureRetry
import IcanactRemote.ReapSweep
import IcanactRemote.ProjectionFence
import IcanactRemote.Tombstones
import IcanactRemote.OwnerHistory
import IcanactRemote.ConcurrentUpdates
import IcanactRemote.LocalCalls
import IcanactRemote.ClockGc
import IcanactRemote.SnapshotSplit
import IcanactRemote.ClockLaws
import IcanactRemote.AliasSelection
import IcanactRemote.AskStreaks
import IcanactRemote.ClientOnlySessions
import IcanactRemote.RoutedAskSafety
import IcanactRemote.StreamIntegrity
import IcanactRemote.StreamTombstones
import IcanactRemote.Fragmentation
import IcanactRemote.SenderWakeups
import IcanactRemote.PublicWrites
import IcanactRemote.WireRoundTrip
import IcanactRemote.CorrelationWakeups
import IcanactRemote.LeasedReply
import IcanactRemote.PoolIdentity
import IcanactRemote.PeerDiscovery
import IcanactRemote.FailureLifecycle
import IcanactRemote.DisconnectDelivery
import IcanactRemote.PubSubMesh
import IcanactRemote.InterestDispatch
import IcanactRemote.FastFrame
import IcanactRemote.HotRoutes
