import Srui.Sessiond.SnapshotRoundTrip
import Srui.Sessiond.ReplicaAgreement
import Srui.Pty.Subscriptions
import Srui.Sessiond.TextEditOrder
import Srui.Sessiond.OutcomeAgreement
import Srui.SemanticTree.WireStability
import Srui.Sessiond.WireSurvival
import Srui.Sessiond.ReferencedResources
import Srui.Client.CacheInvariants
import Srui.Exchange.EventExchanges
import Srui.Exchange.HandshakeAgreement
import Srui.Exchange.DeliveredStreams
import Srui.Exchange.FrameStreams
import Srui.Client.TerminalOffsets
import Srui.Client.RetiredEdits
import Srui.Srtop.ItemIdentities
import Srui.Srtop.CpuAccounts
import Srui.Client.TerminalFences
import Srui.Client.LaneOrder
import Srui.Client.DispatchGates
import Srui.Sessiond.TerminalPairs
import Srui.Sessiond.ForcedResyncs
import Srui.Sessiond.WriterDrains
import Srui.SemanticTree.FailedOperations
import Srui.Sessiond.ResourcePromises
import Srui.Sessiond.CanceledEdits
import Srui.Sessiond.PumpedTerminals
import Srui.Sessiond.RangeInboxes
import Srui.Protocol.SnapshotPlans
import Srui.Resources.ResourceEvictions
import Srui.Sessiond.ExactTransfers
import Srui.Scheduling.ServiceGaps
import Srui.Sessiond.OverflowedQueues
import Srui.Sessiond.NamespaceContracts
import Srui.Client.ModelEquivalence
import Srui.Client.ReplicaSafety
import Srui.Client.BracketedPastes
import Srui.Client.TransactionRateLimiters
import Srui.Client.CollectionRangeTrackers
import Srui.Client.TextDecodings
import Srui.Srtop.RowOrders
import Srui.Client.AcknowledgementSettlements
import Srui.Pty.RingStreams
import Srui.Srtop.UtcTimes
import Srui.Srtop.ProcStats
import Srui.Srtop.FilterQueries
import Srui.Client.TerminalCommandOrder
import Srui.Srtop.OnDemandFairness
